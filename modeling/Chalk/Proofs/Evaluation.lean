import Chalk.Proofs.Evolution

/-!
# Evaluation evolves the state

Every expression, statement and call, run from a closed state, evolves it, and gives known values.
The induction follows the recursion of the evaluator: over the tree of an expression or statement
for a given way of making calls, and over the budget of calls for the calls themselves.

## Main results

* `Expr.evaluate_evolves`, `Stmt.execute_evolves` — expressions and statements, if calls do
* `invoke_evolves` — calls
* `execute_evolves` — programs
-/

namespace Chalk

open Exec

/-- Calls made this way evolve the state and give known values. -/
def Invoke.Evolves (invoke : Invoke) : Prop :=
  ∀ (callable : Callable) (arguments : List Value) (span : Span) (m : Machine), m.Closed →
    m.store.KnowsCallable callable → (∀ v ∈ arguments, m.store.Knows v) →
    Exec.Evolves m (invoke callable arguments span) fun v s => s.Knows v

section Trees

variable {invoke : Invoke} {fuel : Nat}

/-! ## Loops

The two loops of the language take the same turns: a `while` loop is a `for` loop that declares and
increments nothing, without the scope that a declaration would need. -/

/-- The truth value of a condition, which is true if it is missing. -/
def Expr.conditionOption (invoke : Invoke) (fuel : Nat) : Option Expr → Exec Bool
  | none => return true
  | some e => e.condition invoke fuel

/-- One turn of a loop: the signal that ends the loop, or none if it goes on. -/
def Stmt.loopTurn (invoke : Invoke) (fuel : Nat) (condition : Option Expr)
    (increment : Option Stmt) (body : List Stmt) (span : Span) : Exec (Option Signal) := do
  Exec.checkCancelled span
  if ← Expr.conditionOption invoke fuel condition then
    match (← Exec.inBlock (Stmt.executeSeq invoke fuel body)).afterBody with
    | some signal => return some signal
    | none =>
      let _ ← Stmt.executeOption invoke fuel increment
      return none
  else return some .normal

theorem Stmt.execute_whileLoop (condition : Expr) (body : List Stmt) (span : Span) :
    (Stmt.whileLoop condition body span).execute invoke fuel =
      Exec.iterate (Stmt.loopTurn invoke fuel (some condition) none body span) fuel := by
  rw [Stmt.execute]
  congr 1
  rw [Stmt.loopTurn]
  congr 1
  funext _
  congr 1
  funext goOn
  congr 2
  funext signal
  cases signal.afterBody <;> rfl

theorem Stmt.execute_forLoop (init : Option Stmt) (condition : Option Expr)
    (increment : Option Stmt) (body : List Stmt) (span : Span) :
    (Stmt.forLoop init condition increment body span).execute invoke fuel =
      Exec.inBlock (do
        let _ ← Stmt.executeOption invoke fuel init
        Exec.iterate (Stmt.loopTurn invoke fuel condition increment body span) fuel) := by
  rw [Stmt.execute]
  cases condition <;> rfl

/-! ## Expressions -/

theorem evolves_getVariable {m : Machine} (hm : m.Closed) (name : String) (span : Span) :
    Exec.Evolves m (liftAt span (m.store.getVariable m.scope name)) fun v s => s.Knows v :=
  meets_liftAt (fun _ h => ⟨.refl m, hm.store.knows_getVariable h⟩) fun _ _ => .refl m

theorem evolves_logicalOperand (m : Machine) (op : LogicalOp) (span : Span) (v : Value) :
    Exec.Evolves m (logicalOperand op span v) fun _ _ => True := by
  rw [logicalOperand.eq_def]
  split
  · exact evolves_pure trivial
  · exact evolves_store_bind evolves_fault

theorem evolves_callValue (hinv : invoke.Evolves) {m : Machine} (hm : m.Closed) {callee : Value}
    {arguments : List Value} {span : Span} (hcallee : m.store.Knows callee)
    (hargs : ∀ v ∈ arguments, m.store.Knows v) :
    Exec.Evolves m (callValue invoke callee arguments span) fun v s => s.Knows v := by
  rw [callValue.eq_def]
  split
  · exact hinv _ arguments span m hm hcallee hargs
  · exact evolves_store_bind evolves_fault

mutual

theorem Expr.evaluate_evolves (hinv : invoke.Evolves) (e : Expr) (m : Machine) (hm : m.Closed) :
    Exec.Evolves m (e.evaluate invoke fuel) fun v s => s.Knows v := by
  match e with
  | .number .. | .string .. | .boolean .. => exact evolves_pure trivial
  | .name id span => exact evolves_get_bind (evolves_getVariable hm id span)
  | .receiver span => exact evolves_get_bind (evolves_getVariable hm "this" span)
  | .list items _ =>
    rw [Expr.evaluate]
    refine evolves_bind hm (Expr.evaluateList_evolves hinv items m hm) ?_
    intro values m' _ _ hvalues
    refine evolves_alter_bind (.newList fun v hv => ?_) (evolves_pure (Store.knows_newList _ _))
    exact hvalues v (List.mem_toArray.mp hv)
  | .dict entries _ =>
    rw [Expr.evaluate]
    refine evolves_bind hm (Expr.evaluateEntries_evolves hinv entries [] m hm ?_) ?_
    · exact fun entry hmem => absurd hmem List.not_mem_nil
    · intro entries m' _ _ hentries
      exact evolves_alter_bind (.newDict hentries) (evolves_pure (Store.knows_newDict _ _))
  | .binary op left right span =>
    rw [Expr.evaluate]
    refine evolves_bind hm (left.evaluate_evolves hinv m hm) fun a m₁ _ hm₁ _ => ?_
    refine evolves_bind hm₁ (right.evaluate_evolves hinv m₁ hm₁) fun b m₂ _ _ _ => ?_
    exact evolves_query fun v hv => Store.knows_binary hv
  | .logical op left right _ =>
    rw [Expr.evaluate]
    refine evolves_bind hm (left.evaluate_evolves hinv m hm) fun v m₁ _ hm₁ _ => ?_
    refine evolves_bind hm₁ (evolves_logicalOperand m₁ op left.span v) fun a m₂ _ hm₂ _ => ?_
    split
    · exact evolves_pure trivial
    · exact evolves_pure trivial
    · refine evolves_bind hm₂ (right.evaluate_evolves hinv m₂ hm₂) fun w m₃ _ hm₃ _ => ?_
      refine evolves_bind hm₃ (evolves_logicalOperand m₃ op right.span w) fun b m₄ _ _ _ => ?_
      exact evolves_pure trivial
  | .unary op operand span =>
    rw [Expr.evaluate]
    refine evolves_bind hm (operand.evaluate_evolves hinv m hm) fun a m₁ _ _ _ => ?_
    exact evolves_query fun v hv => Store.knows_unary hv
  | .call callee arguments span =>
    rw [Expr.evaluate]
    refine evolves_bind hm (callee.evaluate_evolves hinv m hm) fun f m₁ _ hm₁ hf => ?_
    refine evolves_bind hm₁ (Expr.evaluateList_evolves hinv arguments m₁ hm₁) ?_
    intro values m₂ hext hm₂ hvalues
    exact evolves_callValue hinv hm₂ (hext.store.knows hf) hvalues
  | .field object id span =>
    rw [Expr.evaluate]
    refine evolves_bind hm (object.evaluate_evolves hinv m hm) fun r m₁ _ hm₁ hr => ?_
    exact evolves_query fun v hv => hm₁.store.knows_member hr hv
  | .index container position span =>
    rw [Expr.evaluate]
    refine evolves_bind hm (container.evaluate_evolves hinv m hm) fun a m₁ _ hm₁ _ => ?_
    refine evolves_bind hm₁ (position.evaluate_evolves hinv m₁ hm₁) fun b m₂ _ hm₂ _ => ?_
    exact evolves_query fun v hv => hm₂.store.knows_element hv

theorem Expr.evaluateList_evolves (hinv : invoke.Evolves) (es : List Expr) (m : Machine)
    (hm : m.Closed) :
    Exec.Evolves m (Expr.evaluateList invoke fuel es) fun vs s => ∀ v ∈ vs, s.Knows v := by
  match es with
  | [] => exact evolves_pure fun v hv => absurd hv List.not_mem_nil
  | e :: es =>
    rw [Expr.evaluateList]
    refine evolves_bind hm (e.evaluate_evolves hinv m hm) fun v m₁ _ hm₁ hv => ?_
    refine evolves_bind hm₁ (Expr.evaluateList_evolves hinv es m₁ hm₁) ?_
    intro vs m₂ hext _ hvs
    exact evolves_pure (List.forall_mem_cons.mpr ⟨hext.store.knows hv, hvs⟩)

theorem Expr.evaluateEntries_evolves (hinv : invoke.Evolves) (es : List (Expr × Expr))
    (done : Entries) (m : Machine) (hm : m.Closed)
    (hdone : ∀ entry ∈ done, m.store.Knows entry.1 ∧ m.store.Knows entry.2) :
    Exec.Evolves m (Expr.evaluateEntries invoke fuel es done)
      fun entries s => ∀ entry ∈ entries, s.Knows entry.1 ∧ s.Knows entry.2 := by
  match es with
  | [] => exact evolves_pure hdone
  | (key, value) :: rest =>
    rw [Expr.evaluateEntries]
    refine evolves_bind hm (key.evaluate_evolves hinv m hm) fun k m₁ hext₁ hm₁ hk => ?_
    refine evolves_bind hm₁ (value.evaluate_evolves hinv m₁ hm₁) fun v m₂ hext₂ hm₂ hv => ?_
    have hdone₂ : ∀ entry ∈ done, m₂.store.Knows entry.1 ∧ m₂.store.Knows entry.2 :=
      fun entry hmem => (hdone entry hmem).imp (hext₁.trans hext₂).store.knows
        (hext₁.trans hext₂).store.knows
    have hinsert : Exec.Evolves m₂ (query key.span fun s => Entries.insert s fuel done k v)
        fun entries s => ∀ entry ∈ entries, s.Knows entry.1 ∧ s.Knows entry.2 :=
      evolves_query fun _ h => Store.knows_insert hdone₂ (hext₂.store.knows hk) hv h
    refine evolves_bind hm₂ hinsert fun done' m₃ _ hm₃ hdone₃ => ?_
    exact Expr.evaluateEntries_evolves hinv rest done' m₃ hm₃ hdone₃

end

theorem Expr.condition_evolves (hinv : invoke.Evolves) (e : Expr) {m : Machine} (hm : m.Closed) :
    Exec.Evolves m (e.condition invoke fuel) fun _ _ => True := by
  rw [Expr.condition]
  refine evolves_bind hm (e.evaluate_evolves hinv m hm) fun v m₁ _ _ _ => ?_
  split
  · exact evolves_pure trivial
  · exact evolves_store_bind evolves_fault

theorem Expr.conditionOption_evolves (hinv : invoke.Evolves) (condition : Option Expr)
    {m : Machine} (hm : m.Closed) :
    Exec.Evolves m (Expr.conditionOption invoke fuel condition) fun _ _ => True := by
  cases condition with
  | none => exact evolves_pure trivial
  | some e => exact e.condition_evolves hinv hm

/-! ## Statements -/

/-- The value that a signal carries is known. -/
def Signal.Known (signal : Signal) (s : Store) : Prop :=
  ∀ v, signal = .giveBack (some v) → s.Knows v

theorem Signal.known_normal (s : Store) : Signal.Known .normal s := nofun

/-- A loop that ends after its body passes on what the body ended with. -/
theorem Signal.known_afterBody {signal : Signal} {s : Store} (h : signal.Known s) :
    ∀ last, signal.afterBody = some last → last.Known s := by
  intro last hlast
  cases signal with
  | normal | skip => cases hlast
  | breakLoop => cases hlast; exact nofun
  | giveBack value => cases hlast; exact h

theorem evolves_print {m : Machine} (text : String) :
    Exec.Evolves m (print text) fun _ _ => True :=
  meets_print ⟨.print text, trivial⟩

theorem evolves_define {m : Machine} {name : String} {binding : Binding} {span : Span}
    (h : m.store.Knows binding.value) :
    Exec.Evolves m (define name binding span) fun _ _ => True :=
  evolves_get_bind (evolves_update (fun _ _ hdone => ⟨.define h hdone, trivial⟩)
    fun _ _ => Store.define_eq_error)

theorem Target.assign_evolves (hinv : invoke.Evolves) (target : Target) (value : Expr) {m : Machine}
    (hm : m.Closed) : Exec.Evolves m (target.assign invoke fuel value) fun _ _ => True := by
  cases target with
  | name id span =>
    refine evolves_bind hm (value.evaluate_evolves hinv m hm) fun v m₁ _ _ hv => ?_
    exact evolves_get_bind (evolves_update (fun _ _ hdone => ⟨.assign hv hdone, trivial⟩)
      fun _ _ => Store.assign_eq_error)
  | index container position =>
    refine evolves_bind hm (container.evaluate_evolves hinv m hm) fun c m₁ _ hm₁ _ => ?_
    refine evolves_bind hm₁ (position.evaluate_evolves hinv m₁ hm₁) fun i m₂ _ hm₂ hi => ?_
    refine evolves_bind hm₂ (value.evaluate_evolves hinv m₂ hm₂) fun v m₃ hext _ hv => ?_
    exact evolves_update
      (fun _ _ hdone => ⟨.writeItem (hext.store.knows hi) hv hdone, trivial⟩)
      fun _ _ => Store.writeItem_eq_error
  | field object id =>
    refine evolves_bind hm (object.evaluate_evolves hinv m hm) fun r m₁ _ hm₁ _ => ?_
    refine evolves_bind hm₁ (value.evaluate_evolves hinv m₁ hm₁) fun v m₂ _ _ hv => ?_
    split
    · exact evolves_update (fun _ _ hdone => ⟨.writeField hv hdone, trivial⟩)
        fun _ _ => Store.writeField_eq_error
    · exact evolves_store_bind evolves_fault

/-- A turn of a loop evolves the state if its body and its increment do. -/
theorem Stmt.loopTurn_evolves (hinv : invoke.Evolves) {condition : Option Expr}
    {increment : Option Stmt} {body : List Stmt} {span : Span} {m : Machine} (hm : m.Closed)
    (hbody : ∀ m', m'.Closed → Exec.Evolves m' (Stmt.executeSeq invoke fuel body) Signal.Known)
    (hincrement : ∀ m', m'.Closed →
      Exec.Evolves m' (Stmt.executeOption invoke fuel increment) Signal.Known) :
    Exec.Evolves m (Stmt.loopTurn invoke fuel condition increment body span)
      fun r s => ∀ last, r = some last → last.Known s := by
  rw [Stmt.loopTurn]
  refine evolves_bind hm evolves_checkCancelled fun _ m₁ _ hm₁ _ => ?_
  refine evolves_bind hm₁ (Expr.conditionOption_evolves hinv condition hm₁) fun b m₂ _ hm₂ _ => ?_
  split
  · refine evolves_bind hm₂ (evolves_inBlock (hbody _ hm₂.enterBlock)) ?_
    intro signal m₃ _ hm₃ hsignal
    split
    · rename_i last hlast
      refine evolves_pure fun last' heq => ?_
      cases heq
      exact Signal.known_afterBody hsignal last hlast
    · refine evolves_bind hm₃ (hincrement m₃ hm₃) ?_
      exact fun _ m₄ _ _ _ => evolves_pure nofun
  · refine evolves_pure fun last heq => ?_
    cases heq
    exact Signal.known_normal _

/-- A statement that ends by declaring a name. -/
theorem Stmt.define_evolves {name : String} {binding : Binding} {span : Span} {m : Machine}
    (hm : m.Closed) (h : m.store.Knows binding.value) :
    Exec.Evolves m (do define name binding span; pure Signal.normal) Signal.Known :=
  evolves_bind hm (evolves_define h) fun _ m₁ _ _ _ => evolves_pure (Signal.known_normal m₁.store)

mutual

theorem Stmt.execute_evolves (hinv : invoke.Evolves) (s : Stmt) (m : Machine) (hm : m.Closed) :
    Exec.Evolves m (s.execute invoke fuel) Signal.Known := by
  match s with
  | .declare constant tag name (some e) span =>
    rw [Stmt.execute]
    refine evolves_bind hm (e.evaluate_evolves hinv m hm) fun v m₁ _ hm₁ hv => ?_
    exact Stmt.define_evolves hm₁ hv
  | .declare constant tag name none span =>
    show Exec.Evolves m
      (do define name { value := .null, tag, constant } span; pure Signal.normal) _
    exact Stmt.define_evolves hm trivial
  | .assign target value _ =>
    rw [Stmt.execute]
    refine evolves_bind hm (target.assign_evolves hinv value hm) fun _ m₁ _ _ _ => ?_
    exact evolves_pure (Signal.known_normal _)
  | .print value _ =>
    rw [Stmt.execute]
    refine evolves_bind hm (value.evaluate_evolves hinv m hm) fun v m₁ _ hm₁ _ => ?_
    refine evolves_store_bind (evolves_bind hm₁ (evolves_print _) fun _ m₂ _ _ _ => ?_)
    exact evolves_pure (Signal.known_normal _)
  | .branch condition body elifs otherwise _ =>
    rw [Stmt.execute]
    refine evolves_bind hm (condition.condition_evolves hinv hm) fun b m₁ _ hm₁ _ => ?_
    split
    · exact evolves_inBlock (Stmt.executeSeq_evolves hinv body _ hm₁.enterBlock)
    · exact Stmt.executeElifs_evolves hinv elifs m₁ hm₁ fun m' hm' =>
        Stmt.executeElse_evolves hinv otherwise m' hm'
  | .whileLoop condition body span =>
    rw [Stmt.execute_whileLoop]
    refine evolves_iterate hm (fun m₁ _ hm₁ => ?_) fuel
    exact Stmt.loopTurn_evolves hinv hm₁ (fun m' hm' => Stmt.executeSeq_evolves hinv body m' hm')
      fun m' _ => evolves_pure (Signal.known_normal m'.store)
  | .forLoop init condition increment body span =>
    rw [Stmt.execute_forLoop]
    have hin := hm.enterBlock
    refine evolves_inBlock (evolves_bind hin (Stmt.executeOption_evolves hinv init _ hin) ?_)
    intro _ m₁ _ hm₁ _
    refine evolves_iterate hm₁ (fun m₂ _ hm₂ => ?_) fuel
    exact Stmt.loopTurn_evolves hinv hm₂ (fun m' hm' => Stmt.executeSeq_evolves hinv body m' hm')
      fun m' hm' => Stmt.executeOption_evolves hinv increment m' hm'
  | .breakLoop _ => exact evolves_pure nofun
  | .skip _ => exact evolves_pure nofun
  | .giveBack (some e) _ =>
    rw [Stmt.execute]
    refine evolves_bind hm (e.evaluate_evolves hinv m hm) fun v m₁ _ _ hv => ?_
    exact evolves_pure fun w hw => by cases hw; exact hv
  | .giveBack none _ => exact evolves_pure nofun
  | .function decl span =>
    rw [Stmt.execute]
    refine evolves_get_bind (evolves_alter_bind (.newFunction decl) ?_)
    have hev : m.Evolves _ := .newFunction decl
    exact Stmt.define_evolves (hev.closed hm) (Store.knows_newFunction _ _)
  | .classDef decl span =>
    rw [Stmt.execute]
    refine evolves_get_bind (evolves_alter_bind (.newClass decl) ?_)
    have hev : m.Evolves _ := .newClass decl
    exact Stmt.define_evolves (hev.closed hm) (Store.knows_newClass _ _)
  | .eval value _ =>
    rw [Stmt.execute]
    refine evolves_bind hm (value.evaluate_evolves hinv m hm) fun _ m₁ _ _ _ => ?_
    exact evolves_pure (Signal.known_normal _)

theorem Stmt.executeOption_evolves (hinv : invoke.Evolves) (s : Option Stmt) (m : Machine)
    (hm : m.Closed) : Exec.Evolves m (Stmt.executeOption invoke fuel s) Signal.Known := by
  match s with
  | none => exact evolves_pure (Signal.known_normal _)
  | some s => exact s.execute_evolves hinv m hm

theorem Stmt.executeSeq_evolves (hinv : invoke.Evolves) (ss : List Stmt) (m : Machine)
    (hm : m.Closed) : Exec.Evolves m (Stmt.executeSeq invoke fuel ss) Signal.Known := by
  match ss with
  | [] => exact evolves_pure (Signal.known_normal _)
  | s :: rest =>
    rw [Stmt.executeSeq]
    refine evolves_bind hm (s.execute_evolves hinv m hm) fun signal m₁ _ hm₁ hsignal => ?_
    split
    · exact Stmt.executeSeq_evolves hinv rest m₁ hm₁
    · exact evolves_pure hsignal

theorem Stmt.executeElifs_evolves (hinv : invoke.Evolves) (elifs : List (BranchOf Stmt))
    (m : Machine) (hm : m.Closed) {otherwise : Exec Signal}
    (hotherwise : ∀ m', m'.Closed → Exec.Evolves m' otherwise Signal.Known) :
    Exec.Evolves m (Stmt.executeElifs invoke fuel otherwise elifs) Signal.Known := by
  match elifs with
  | [] => exact hotherwise m hm
  | ⟨condition, body⟩ :: rest =>
    rw [Stmt.executeElifs]
    refine evolves_bind hm (condition.condition_evolves hinv hm) fun b m₁ _ hm₁ _ => ?_
    split
    · exact evolves_inBlock (Stmt.executeSeq_evolves hinv body _ hm₁.enterBlock)
    · exact Stmt.executeElifs_evolves hinv rest m₁ hm₁ hotherwise

theorem Stmt.executeElse_evolves (hinv : invoke.Evolves) (otherwise : Option (List Stmt))
    (m : Machine) (hm : m.Closed) :
    Exec.Evolves m (Stmt.executeElse invoke fuel otherwise) Signal.Known := by
  match otherwise with
  | none => exact evolves_pure (Signal.known_normal _)
  | some body => exact evolves_inBlock (Stmt.executeSeq_evolves hinv body _ hm.enterBlock)

end

end Trees

/-! ## Calls -/

/-- What a call gives back is what its body gave back, or null. -/
theorem Store.knows_result {s : Store} {decl : Func} {signal : Signal} {v : Value}
    (hsignal : signal.Known s) (h : s.result decl signal = .ok v) : s.Knows v := by
  rw [Store.result.eq_def] at h
  split at h
  · split at h
    · cases h
    · split at h
      · cases h
        exact hsignal _ rfl
      · cases h
  · split at h <;> cases h
    trivial
  · split at h <;> cases h
    trivial
  · cases h
  · cases h

theorem callFunction_evolves {run : List Stmt → Exec Signal}
    (hrun : ∀ body m, m.Closed → Exec.Evolves m (run body) Signal.Known) {decl : Func}
    {closure : ScopeId} {this : Option Value} {arguments : List Value} {span : Span} {m : Machine}
    (hm : m.Closed) (hclosure : closure.index < m.store.scopes.size)
    (hthis : ∀ v, this = some v → m.store.Knows v) (hargs : ∀ v ∈ arguments, m.store.Knows v) :
    Exec.Evolves m (callFunction run decl closure this arguments span) fun v s => s.Knows v := by
  rw [callFunction]
  refine evolves_get_bind ?_
  split
  · exact evolves_fault
  · refine meets_query_bind (fun bindings hbound => ?_) fun _ _ => .refl m
    have hin := hm.enterCall hclosure (Machine.knows_frame hargs hthis hbound)
    refine meets_inCall_bind (fun signal m' => m.Evolves m' ∧ signal.Known m'.store)
      ((hrun decl.body _ hin).mono ?_ ?_) ?_
    · rintro signal m' ⟨hev, hsignal⟩
      exact ⟨.call hargs hthis hclosure hbound hev, hsignal⟩
    · exact fun _ m' hev => .call hargs hthis hclosure hbound hev
    · rintro signal m' ⟨hev, hsignal⟩
      refine meets_store_bind ?_
      split
      · exact meets_pure ⟨hev, Store.knows_result hsignal ‹_›⟩
      · exact meets_fault hev

theorem callClass_evolves {run : List Stmt → Exec Signal}
    (hrun : ∀ body m, m.Closed → Exec.Evolves m (run body) Signal.Known) {id : ClassId}
    {arguments : List Value} {span : Span} {m : Machine} (hm : m.Closed)
    (hid : id.index < m.store.classes.size) (hargs : ∀ v ∈ arguments, m.store.Knows v) :
    Exec.Evolves m (callClass run id arguments span) fun v s => s.Knows v := by
  rw [callClass]
  have hnew : m.Evolves { m with store := (m.store.instantiate id).2 } := .instantiate hid
  have hm' := hnew.closed hm
  have hobject : (m.store.instantiate id).2.Knows (.instance (m.store.instantiate id).1) :=
    Store.knows_newInstance _ _
  refine evolves_alter_bind hnew (evolves_store_bind ?_)
  split
  · refine evolves_bind hm' (callFunction_evolves hrun hm' (hm'.store.classes id hid) ?_ ?_) ?_
    · exact fun v hv => by cases hv; exact hobject
    · exact fun v hv => hnew.extends.store.knows (hargs v hv)
    · exact fun _ m₂ hext _ _ => evolves_pure (hext.store.knows hobject)
  · exact evolves_pure hobject

theorem callNative_evolves (f : Native) (arguments : List Value) (m : Machine) :
    Exec.Evolves m (callNative f arguments) fun v s => s.Knows v := by
  cases f with
  | input => exact meets_store_bind (meets_bind (meets_read (.read _)) fun _ _ hev =>
      meets_pure ⟨hev, trivial⟩)

theorem callBound_evolves {run : List Stmt → Exec Signal}
    (hrun : ∀ body m, m.Closed → Exec.Evolves m (run body) Signal.Known) {receiver : InstanceId}
    {name : String} {arguments : List Value} {span : Span} {m : Machine} (hm : m.Closed)
    (hreceiver : receiver.index < m.store.instances.size)
    (hargs : ∀ v ∈ arguments, m.store.Knows v) :
    Exec.Evolves m (callBound run receiver name arguments span) fun v s => s.Knows v := by
  rw [callBound]
  refine evolves_store_bind ?_
  split
  · rename_i object decl hobject _
    have howner := hm.store.owners receiver object hobject
    refine callFunction_evolves hrun hm (hm.store.classes _ howner) ?_ hargs
    exact fun v hv => by cases hv; exact hreceiver
  · exact evolves_fault

/-- **Calls evolve the state**, by induction on the budget of nested calls. -/
theorem invoke_evolves (fuel : Nat) : (invoke fuel).Evolves := by
  induction fuel with
  | zero => exact fun _ _ _ _ _ _ _ => evolves_throw
  | succ fuel ih =>
    intro callable arguments span m hm hcallable hargs
    have hrun : ∀ body m, m.Closed →
        Exec.Evolves m (Stmt.executeSeq (invoke fuel) fuel body) Signal.Known :=
      fun body m hm => Stmt.executeSeq_evolves ih body m hm
    rw [invoke]
    refine evolves_store_bind ?_
    split
    · exact evolves_fault
    · match callable, hcallable with
      | .native f, _ => exact callNative_evolves f arguments m
      | .builtin receiver method, _ =>
        exact evolves_update
          (fun _ _ hdone => ⟨.callMethod hargs hdone, (hm.store.callMethod hargs hdone).2⟩)
          fun _ _ => Store.callMethod_eq_error
      | .function id, hid =>
        exact callFunction_evolves hrun hm (hm.store.functions id hid) nofun hargs
      | .method receiver name, hreceiver => exact callBound_evolves hrun hm hreceiver hargs
      | .classObject id, hid => exact callClass_evolves hrun hm hid hargs

/-- **Programs evolve the state.** -/
theorem execute_evolves (fuel : Nat) (program : List Stmt) {m : Machine} (hm : m.Closed) :
    Exec.Evolves m (execute fuel program) fun _ _ => True := by
  induction program generalizing m with
  | nil => exact evolves_pure trivial
  | cons s rest ih =>
    refine evolves_bind hm evolves_checkCancelled fun _ m₁ _ hm₁ _ => ?_
    refine evolves_bind hm₁ (s.execute_evolves (invoke_evolves fuel) m₁ hm₁) ?_
    intro signal m₂ _ hm₂ _
    split
    · exact evolves_fault
    · exact ih hm₂

/-! ## The initial state -/

theorem Store.closed_initial : Store.initial.Closed where
  values v hv := by
    cases hv with
    | element h => simp [Store.initial, Store.list] at h
    | key h | value h => simp [Store.initial, Store.dict] at h
    | field hi _ => simp [Store.initial, Store.instance?] at hi
    | @binding id entry h =>
      rcases id with ⟨_ | n⟩
      · simp only [Store.initial, Store.scope, Native.all] at h
        cases List.mem_singleton.mp h
        trivial
      · simp [Store.initial, Store.scope] at h
  owners id i hi := by simp [Store.initial, Store.instance?] at hi
  functions id hid := by simp [Store.initial] at hid
  classes id hid := by simp [Store.initial] at hid
  parents id parent hp := by
    rcases id with ⟨_ | n⟩ <;> simp [Store.initial, Store.scope] at hp

theorem Machine.closed_initial (maxDepth : Nat) (answers : List String)
    (cancellation : Cancellation) : (Machine.initial maxDepth answers cancellation).Closed where
  store := Store.closed_initial
  scope := by simp [Machine.initial, Store.initial, Store.globals]

end Chalk
