import Chalk.Proofs.Scoping

/-!
# Checked programs run without surprises

A program without violations never ends with a jump out of place, and if a name is not found, it is
the name of a function or class whose declaration has not been executed yet.

The check and the evaluator are two recursions over the same trees, and the proof follows both at
once: over the tree of an expression or statement for a given way of making calls, then over the
budget of calls. A statement that has passed the check in a context, executed in a state that fits
its place, ends with a signal that the context allows, and what it declares can be looked up from
then on. A call starts its body in a context of its own, without a loop around it, and that is why
no jump leaves it.

## Main definitions

* `Clean` — a part of a statement that has passed the check at a place
* `Signal.Allowed` — the signals that a statement in a context may end with

## Main results

* `Expr.evaluate_checked`, `Stmt.execute_checked` — expressions and statements, if calls are checked
* `invoke_checked` — calls
* `execute_checked` — programs
-/

namespace Chalk

open Exec

/-- A part of a statement has no violations, and its references are references at the place. -/
def Clean (program : List Stmt) (p : Place) (violations : List Violation)
    (references : List (String × Span)) : Prop :=
  violations = [] ∧ ∀ r ∈ references, RefersAt program p r

theorem clean_append {program : List Stmt} {p : Place} {vs vs' : List Violation}
    {rs rs' : List (String × Span)} :
    Clean program p (vs ++ vs') (rs ++ rs') ↔ Clean program p vs rs ∧ Clean program p vs' rs' := by
  constructor
  · rintro ⟨hv, hr⟩
    obtain ⟨hv₁, hv₂⟩ := List.append_eq_nil_iff.mp hv
    obtain ⟨hr₁, hr₂⟩ := List.forall_mem_append.mp hr
    exact ⟨⟨hv₁, hr₁⟩, hv₂, hr₂⟩
  · rintro ⟨⟨hv₁, hr₁⟩, hv₂, hr₂⟩
    exact ⟨List.append_eq_nil_iff.mpr ⟨hv₁, hv₂⟩, List.forall_mem_append.mpr ⟨hr₁, hr₂⟩⟩

/-- References of a statement of the program itself are references at its place, for the condition
of a `for` loop the place after its declaration. -/
theorem StandsAt.clean {program rest : List Stmt} {p : Place} {s : Stmt} {vs : List Violation}
    {rs : List (String × Span)} (h : StandsAt program p (s :: rest)) (hvs : vs = [])
    (hrs : rs ⊆ s.references) : Clean program (p.declare s.loopNames) vs rs :=
  ⟨hvs, fun _ hr => ⟨p, s, rest, h, hrs hr, rfl⟩⟩

/-- Calls are made with a budget, evolve the state, keep the functions of the store checked and fail
only with an excuse. -/
structure Invoke.Checked (program : List Stmt) (invoke : Invoke) : Prop where
  made : ∃ calls, invoke = Chalk.invoke calls
  evolves : invoke.Evolves
  checked : ∀ (callable : Callable) (arguments : List Value) (span : Span) (m : Machine),
    m.Closed → m.store.Checked program → m.store.KnowsCallable callable →
    (∀ v ∈ arguments, m.store.Knows v) →
    Exec.Checked program m (invoke callable arguments span) fun _ _ => True

section Trees

variable {program : List Stmt} {invoke : Invoke} {fuel : Nat} {c : Context} {p : Place}
  {m : Machine}

/-! ## Expressions -/

theorem checked_name (hm : m.Fits program c p) {name : String} {span : Span}
    (h : Clean program p (c.resolve name span) [(name, span)]) :
    Exec.Checked program m (liftAt span (m.store.getVariable m.scope name)) fun _ _ => True := by
  refine meets_liftAt (fun _ _ => ⟨hm.checked, trivial⟩) fun f hf => ?_
  obtain ⟨hnone, rfl⟩ := Store.getVariable_eq_error hf
  exact hm.excused h.1 (h.2 _ List.mem_cons_self) hnone

/-- In a method the receiver is always found. -/
theorem checked_receiver (hm : m.Fits program c p) {span : Span}
    (h : Context.require c.inMethod .thisOutsideMethod span = []) :
    Exec.Checked program m (liftAt span (m.store.getVariable m.scope "this")) fun _ _ => True := by
  refine meets_liftAt (fun _ _ => ⟨hm.checked, trivial⟩) fun f hf => ?_
  obtain ⟨hnone, -⟩ := Store.getVariable_eq_error hf
  rw [Context.require] at h
  split at h
  · have hsome := hm.serves.this ‹_›
    rw [hnone] at hsome
    cases hsome
  · cases h

theorem checked_logicalOperand (hm : m.store.Checked program) (op : LogicalOp) (span : Span)
    (v : Value) : Exec.Checked program m (logicalOperand op span v) fun _ _ => True := by
  rw [logicalOperand.eq_def]
  split
  · exact checked_pure hm trivial
  · exact checked_store_bind (checked_fault trivial)

theorem checked_callValue (hinv : invoke.Checked program) (hm : m.Fits program c p) {callee : Value}
    {arguments : List Value} {span : Span} (hcallee : m.store.Knows callee)
    (hargs : ∀ v ∈ arguments, m.store.Knows v) :
    Exec.Checked program m (callValue invoke callee arguments span) fun _ _ => True := by
  rw [callValue.eq_def]
  split
  · exact hinv.checked _ arguments span m hm.closed hm.checked hcallee hargs
  · exact checked_store_bind (checked_fault trivial)

/-- What follows an expression starts in a state that fits the same place and knows its value. -/
theorem checked_evaluate_bind {α : Type} {e : Expr} {f : Value → Exec α}
    {mid : Value → Machine → Prop} {post : α → Machine → Prop} (hinv : invoke.Checked program)
    (hm : m.Fits program c p)
    (he : Exec.Checked program m (e.evaluate invoke fuel) mid)
    (hf : ∀ v m', m.Extends m' → m'.Fits program c p → m'.store.Knows v → mid v m' →
      Exec.Checked program m' (f v) post) :
    Exec.Checked program m (e.evaluate invoke fuel >>= f) post :=
  checked_bind hm (e.evaluate_evolves hinv.evolves m hm.closed) he hf

mutual

theorem Expr.evaluate_checked (hinv : invoke.Checked program) (e : Expr) (m : Machine)
    (hm : m.Fits program c p) (he : Clean program p (e.violations c) e.references) :
    Exec.Checked program m (e.evaluate invoke fuel) fun _ _ => True := by
  match e with
  | .number .. | .string .. | .boolean .. => exact checked_pure hm.checked trivial
  | .name id span =>
    rw [Expr.violations, Expr.references] at he
    exact checked_get_bind (checked_name hm he)
  | .receiver span =>
    rw [Expr.violations] at he
    exact checked_get_bind (checked_receiver hm he.1)
  | .list items _ =>
    rw [Expr.violations, Expr.references] at he
    rw [Expr.evaluate]
    refine checked_bind hm (Expr.evaluateList_evolves hinv.evolves items m hm.closed)
      (Expr.evaluateList_checked hinv items m hm he) fun values m₁ _ hm₁ _ _ => ?_
    exact meets_alter_bind
      (checked_pure (hm₁.checked.later (Store.extends_newList _ _) rfl rfl) trivial)
  | .dict entries _ =>
    rw [Expr.violations, Expr.references] at he
    rw [Expr.evaluate]
    have hnone : ∀ entry ∈ ([] : Entries), m.store.Knows entry.1 ∧ m.store.Knows entry.2 :=
      fun _ hmem => absurd hmem List.not_mem_nil
    refine checked_bind hm (Expr.evaluateEntries_evolves hinv.evolves entries [] m hm.closed hnone)
      (Expr.evaluateEntries_checked hinv entries [] m hm hnone he) fun done m₁ _ hm₁ _ _ => ?_
    exact meets_alter_bind
      (checked_pure (hm₁.checked.later (Store.extends_newDict _ _) rfl rfl) trivial)
  | .binary op left right span =>
    rw [Expr.violations, Expr.references] at he
    obtain ⟨hl, hr⟩ := clean_append.mp he
    rw [Expr.evaluate]
    refine checked_evaluate_bind hinv hm (left.evaluate_checked hinv m hm hl)
      fun a m₁ _ hm₁ _ _ => ?_
    refine checked_evaluate_bind hinv hm₁ (right.evaluate_checked hinv m₁ hm₁ hr)
      fun b m₂ _ hm₂ _ _ => ?_
    exact checked_query hm₂.checked (fun _ => Store.plain_binary) fun _ => trivial
  | .logical op left right _ =>
    rw [Expr.violations, Expr.references] at he
    obtain ⟨hl, hr⟩ := clean_append.mp he
    rw [Expr.evaluate]
    refine checked_evaluate_bind hinv hm (left.evaluate_checked hinv m hm hl)
      fun v m₁ _ hm₁ _ _ => ?_
    refine checked_bind hm₁ (evolves_logicalOperand m₁ op left.span v)
      (checked_logicalOperand hm₁.checked op left.span v) fun a m₂ _ hm₂ _ _ => ?_
    split
    · exact checked_pure hm₂.checked trivial
    · exact checked_pure hm₂.checked trivial
    · refine checked_evaluate_bind hinv hm₂ (right.evaluate_checked hinv m₂ hm₂ hr)
        fun w m₃ _ hm₃ _ _ => ?_
      refine checked_bind hm₃ (evolves_logicalOperand m₃ op right.span w)
        (checked_logicalOperand hm₃.checked op right.span w) fun b m₄ _ hm₄ _ _ => ?_
      exact checked_pure hm₄.checked trivial
  | .unary op operand span =>
    rw [Expr.violations, Expr.references] at he
    rw [Expr.evaluate]
    refine checked_evaluate_bind hinv hm (operand.evaluate_checked hinv m hm he)
      fun a m₁ _ hm₁ _ _ => ?_
    exact checked_query hm₁.checked (fun _ => Store.plain_unary) fun _ => trivial
  | .call callee arguments span =>
    rw [Expr.violations, Expr.references] at he
    obtain ⟨hcallee, hargs⟩ := clean_append.mp he
    rw [Expr.evaluate]
    refine checked_evaluate_bind hinv hm (callee.evaluate_checked hinv m hm hcallee)
      fun f m₁ _ hm₁ hf _ => ?_
    refine checked_bind hm₁ (Expr.evaluateList_evolves hinv.evolves arguments m₁ hm₁.closed)
      (Expr.evaluateList_checked hinv arguments m₁ hm₁ hargs) fun values m₂ hext hm₂ hvalues _ => ?_
    exact checked_callValue hinv hm₂ (hext.store.knows hf) hvalues
  | .field object id span =>
    rw [Expr.violations, Expr.references] at he
    rw [Expr.evaluate]
    refine checked_evaluate_bind hinv hm (object.evaluate_checked hinv m hm he)
      fun r m₁ _ hm₁ _ _ => ?_
    exact checked_query hm₁.checked (fun _ => Store.plain_member) fun _ => trivial
  | .index container position span =>
    rw [Expr.violations, Expr.references] at he
    obtain ⟨hcontainer, hposition⟩ := clean_append.mp he
    rw [Expr.evaluate]
    refine checked_evaluate_bind hinv hm (container.evaluate_checked hinv m hm hcontainer)
      fun a m₁ _ hm₁ _ _ => ?_
    refine checked_evaluate_bind hinv hm₁ (position.evaluate_checked hinv m₁ hm₁ hposition)
      fun b m₂ _ hm₂ _ _ => ?_
    exact checked_query hm₂.checked (fun _ => Store.plain_element) fun _ => trivial

theorem Expr.evaluateList_checked (hinv : invoke.Checked program) (es : List Expr) (m : Machine)
    (hm : m.Fits program c p)
    (hes : Clean program p (Expr.violationsList c es) (Expr.referencesList es)) :
    Exec.Checked program m (Expr.evaluateList invoke fuel es) fun _ _ => True := by
  match es with
  | [] => exact checked_pure hm.checked trivial
  | e :: es =>
    rw [Expr.violationsList, Expr.referencesList] at hes
    obtain ⟨he, hes⟩ := clean_append.mp hes
    rw [Expr.evaluateList]
    refine checked_evaluate_bind hinv hm (e.evaluate_checked hinv m hm he) fun v m₁ _ hm₁ _ _ => ?_
    refine checked_bind hm₁ (Expr.evaluateList_evolves hinv.evolves es m₁ hm₁.closed)
      (Expr.evaluateList_checked hinv es m₁ hm₁ hes) fun vs m₂ _ hm₂ _ _ => ?_
    exact checked_pure hm₂.checked trivial

theorem Expr.evaluateEntries_checked (hinv : invoke.Checked program) (es : List (Expr × Expr))
    (done : Entries) (m : Machine) (hm : m.Fits program c p)
    (hdone : ∀ entry ∈ done, m.store.Knows entry.1 ∧ m.store.Knows entry.2)
    (hes : Clean program p (Expr.violationsEntries c es) (Expr.referencesEntries es)) :
    Exec.Checked program m (Expr.evaluateEntries invoke fuel es done) fun _ _ => True := by
  match es with
  | [] => exact checked_pure hm.checked trivial
  | (key, value) :: rest =>
    rw [Expr.violationsEntries, Expr.referencesEntries] at hes
    obtain ⟨hentry, hrest⟩ := clean_append.mp hes
    obtain ⟨hkey, hvalue⟩ := clean_append.mp hentry
    rw [Expr.evaluateEntries]
    refine checked_evaluate_bind hinv hm (key.evaluate_checked hinv m hm hkey)
      fun k m₁ hext₁ hm₁ hk _ => ?_
    refine checked_evaluate_bind hinv hm₁ (value.evaluate_checked hinv m₁ hm₁ hvalue)
      fun v m₂ hext₂ hm₂ hv _ => ?_
    have hknown : ∀ entry ∈ done, m₂.store.Knows entry.1 ∧ m₂.store.Knows entry.2 :=
      fun entry hmem => ⟨(hext₁.trans hext₂).store.knows (hdone entry hmem).1,
        (hext₁.trans hext₂).store.knows (hdone entry hmem).2⟩
    refine meets_query_bind (fun done' hins => ?_) fun _ he => excused_at (Store.plain_insert he) _
    exact Expr.evaluateEntries_checked hinv rest done' m₂ hm₂
      (Store.knows_insert hknown (hext₂.store.knows hk) hv hins) hrest

end

theorem Expr.condition_checked (hinv : invoke.Checked program) (e : Expr)
    (hm : m.Fits program c p) (he : Clean program p (e.violations c) e.references) :
    Exec.Checked program m (e.condition invoke fuel) fun _ _ => True := by
  rw [Expr.condition]
  refine checked_evaluate_bind hinv hm (e.evaluate_checked hinv m hm he) fun v m₁ _ hm₁ _ _ => ?_
  split
  · exact checked_pure hm₁.checked trivial
  · exact checked_store_bind (checked_fault trivial)

theorem Expr.conditionOption_checked (hinv : invoke.Checked program) (e : Option Expr)
    (hm : m.Fits program c p)
    (he : Clean program p (Expr.violationsOption c e) (Expr.referencesOption e)) :
    Exec.Checked program m (Expr.conditionOption invoke fuel e) fun _ _ => True := by
  cases e with
  | none => exact checked_pure hm.checked trivial
  | some e => exact e.condition_checked hinv hm he

/-! ## Declarations and assignments -/

/-- A name that has been declared can be looked up. -/
theorem checked_define (hm : m.Fits program c p) {name : String} {binding : Binding} {span : Span} :
    Exec.Checked program m (define name binding span)
      fun _ m' => (m'.store.lookup m'.scope name).isSome := by
  refine checked_get_bind (meets_update (fun _ s hdone => ?_) fun _ _ hdone => ?_)
  · refine ⟨hm.checked.define hdone, ?_⟩
    obtain ⟨-, rfl⟩ := Store.define_eq_ok hdone
    have hbound : ((m.store.setBindings m.scope
        ((m.store.scope m.scope).bindings.set name binding)).scope m.scope).bindings.get? name =
          some binding := by
      rw [Store.scope_setBindings_self hm.closed.scope, Bindings.get?_set_self]
    rw [Store.lookup_of_bound hbound]
    rfl
  · exact excused_at (Store.plain_define hdone) span

/-- An assignment of the program keeps the rules. It finds a list in use only as described by
`Clashes`, because its parts have been evaluated by then. -/
theorem Target.assign_checked (hinv : invoke.Checked program) (target : Target) (value : Expr)
    {span : Span} {rest : List Stmt} (hm : m.Fits program c p)
    (hstands : StandsAt program p (.assign target value span :: rest))
    (h : Clean program p (target.violations c ++ value.violations c)
      (target.references ++ value.references)) :
    Exec.Checked program m (target.assign invoke fuel value) fun _ _ => True := by
  obtain ⟨htarget, hvalue⟩ := clean_append.mp h
  cases target with
  | name id span =>
    refine checked_evaluate_bind hinv hm (value.evaluate_checked hinv m hm hvalue)
      fun v m₁ _ hm₁ _ _ => ?_
    refine checked_get_bind (meets_update (fun _ _ hdone => ?_) fun f s hfail => ?_)
    · exact ⟨hm₁.checked.assign hdone, trivial⟩
    · rcases Store.plain_assign hfail with hplain | ⟨hnone, rfl⟩
      · exact excused_at hplain span
      · cases Store.assign_eq_error hfail
        exact hm₁.excused htarget.1 (htarget.2 _ List.mem_cons_self) hnone
  | index container position =>
    obtain ⟨hcontainer, hposition⟩ := clean_append.mp htarget
    refine checked_evaluate_bind hinv hm (container.evaluate_checked hinv m hm hcontainer).result
      fun _ m₁ _ hm₁ _ hc => ?_
    refine checked_evaluate_bind hinv hm₁ (position.evaluate_checked hinv m₁ hm₁ hposition).result
      fun index m₂ _ hm₂ _ hi => ?_
    refine checked_evaluate_bind hinv hm₂ (value.evaluate_checked hinv m₂ hm₂ hvalue).result
      fun v m₃ _ hm₃ _ hv => ?_
    refine meets_update (fun _ _ hdone => ⟨hm₃.checked.writeItem hdone, trivial⟩) ?_
    intro f s hfail
    rcases Store.plain_writeItem hfail with hplain | ⟨rfl, id, rfl, hnumber, hcontains⟩
    · exact excused_at hplain _
    · cases Store.writeItem_eq_error hfail
      obtain ⟨calls, rfl⟩ := hinv.made
      exact ⟨p, container, position, value, span, rest, hstands, calls, fuel, m, m₃,
        ⟨m₁, m₂, id, index, v, hc, hi, hv, hnumber, hcontains⟩, rfl⟩
  | field object id =>
    refine checked_evaluate_bind hinv hm (object.evaluate_checked hinv m hm htarget)
      fun _ m₁ _ hm₁ _ _ => ?_
    refine checked_evaluate_bind hinv hm₁ (value.evaluate_checked hinv m₁ hm₁ hvalue)
      fun _ m₂ _ hm₂ _ _ => ?_
    split
    · exact meets_update (fun _ _ hdone => ⟨hm₂.checked.writeField hdone, trivial⟩)
        fun _ _ hfail => excused_at (Store.plain_writeField hfail) _
    · exact checked_store_bind (checked_fault trivial)

/-! ## Statements -/

/-- The signals that a statement may end with: `break` and `skip` in a loop, `return` in a
function. -/
def Signal.Allowed (c : Context) : Signal → Prop
  | .normal => True
  | .breakLoop => c.inLoop
  | .skip => c.inLoop
  | .giveBack _ => c.inFunction

/-- What a loop ends with is allowed outside the loop. -/
theorem Signal.allowed_afterBody {signal last : Signal} (h : signal.Allowed c.enterLoop)
    (hlast : signal.afterBody = some last) : last.Allowed c := by
  cases signal with
  | normal | skip => cases hlast
  | breakLoop => cases hlast; trivial
  | giveBack value => cases hlast; exact h

/-- More names allow no more signals. -/
theorem checked_of_declare {x : Exec Signal} {names : List String}
    (h : Exec.Checked program m x fun signal _ => signal.Allowed (c.declare names)) :
    Exec.Checked program m x fun signal _ => signal.Allowed c := h

theorem Stmt.loopTurn_checked (hinv : invoke.Checked program) {condition : Option Expr}
    {increment : Option Stmt} {body : List Stmt} {span : Span} (hm : m.Fits program c p)
    (hcondition : Clean program p (Expr.violationsOption c condition)
      (Expr.referencesOption condition))
    (hbody : ∀ m', m'.Fits program c.enterLoop p →
      Exec.Checked program m' (Stmt.executeSeq invoke fuel body)
        fun signal _ => signal.Allowed c.enterLoop)
    (hincrement : ∀ m', m'.Fits program c p →
      Exec.Checked program m' (Stmt.executeOption invoke fuel increment) fun _ _ => True) :
    Exec.Checked program m (Stmt.loopTurn invoke fuel condition increment body span)
      fun r _ => ∀ last, r = some last → last.Allowed c := by
  rw [Stmt.loopTurn]
  refine checked_bind hm evolves_checkCancelled (checked_checkCancelled hm.checked)
    fun _ m₁ _ hm₁ _ _ => ?_
  refine checked_bind hm₁ (Expr.conditionOption_evolves hinv.evolves condition hm₁.closed)
    (Expr.conditionOption_checked hinv condition hm₁ hcondition) fun goOn m₂ _ hm₂ _ _ => ?_
  split
  · refine checked_bind hm₂
      (evolves_inBlock (Stmt.executeSeq_evolves hinv.evolves body _ hm₂.closed.enterBlock))
      (checked_inBlock (hbody _ hm₂.enterBlock.enterLoop)) fun signal m₃ _ hm₃ _ hsignal => ?_
    split
    · rename_i last hlast
      refine checked_pure hm₃.checked fun last' heq => ?_
      cases heq
      exact Signal.allowed_afterBody hsignal hlast
    · refine checked_bind hm₃ (Stmt.executeOption_evolves hinv.evolves increment m₃ hm₃.closed)
        (hincrement m₃ hm₃) fun _ m₄ _ hm₄ _ _ => ?_
      refine checked_pure hm₄.checked fun last heq => ?_
      cases heq
  · refine checked_pure hm₂.checked fun last heq => ?_
    cases heq
    trivial

/-- **Loops.** A loop keeps the rules if its body, inside a loop, and its increment do. -/
theorem Stmt.loop_checked (hinv : invoke.Checked program) {condition : Option Expr}
    {increment : Option Stmt} {body : List Stmt} {span : Span} (hm : m.Fits program c p)
    (hcondition : Clean program p (Expr.violationsOption c condition)
      (Expr.referencesOption condition))
    (hbody : ∀ m', m'.Fits program c.enterLoop p →
      Exec.Checked program m' (Stmt.executeSeq invoke fuel body)
        fun signal _ => signal.Allowed c.enterLoop)
    (hincrement : ∀ m', m'.Fits program c p →
      Exec.Checked program m' (Stmt.executeOption invoke fuel increment) fun _ _ => True) :
    Exec.Checked program m
      (iterate (Stmt.loopTurn invoke fuel condition increment body span) fuel)
      fun signal _ => signal.Allowed c :=
  checked_iterate hm
    (fun _ hm' => Stmt.loopTurn_evolves hinv.evolves hm'.closed
      (fun m₁ hm₁ => Stmt.executeSeq_evolves hinv.evolves body m₁ hm₁)
      fun m₁ hm₁ => Stmt.executeOption_evolves hinv.evolves increment m₁ hm₁)
    (fun _ hm' => Stmt.loopTurn_checked hinv hm' hcondition hbody hincrement) fuel

/-- What a statement can end with: an allowed signal, and its names declared. -/
def Stmt.Ends (c : Context) (s : Stmt) (signal : Signal) (m : Machine) : Prop :=
  signal.Allowed c ∧ ∀ name ∈ s.declared, (m.store.lookup m.scope name).isSome

theorem Stmt.checked_ends {s : Stmt} {x : Exec Signal} (hs : s.declared = [])
    (h : Exec.Checked program m x fun signal _ => signal.Allowed c) :
    Exec.Checked program m x (s.Ends c) :=
  h.mono (fun _ _ h' => ⟨h'.1, h'.2, by rw [hs]; nofun⟩) fun _ _ h' => h'

/-- A statement that ends by declaring its one name. -/
theorem Stmt.define_checked {s : Stmt} {name : String} {binding : Binding} {span : Span}
    (hm : m.Fits program c p) (hs : s.declared = [name]) (hvalue : m.store.Knows binding.value) :
    Exec.Checked program m (do define name binding span; pure Signal.normal) (s.Ends c) := by
  refine checked_bind hm (evolves_define hvalue) (checked_define hm) fun _ m₁ _ hm₁ _ hname => ?_
  refine checked_pure hm₁.checked ⟨trivial, ?_⟩
  rw [hs]
  exact List.forall_mem_singleton.mpr hname

theorem allowed_of_require {condition : Bool} {rule : Rule} {span : Span}
    (h : Context.require condition rule span = []) : condition := by
  rw [Context.require] at h
  split at h
  · assumption
  · cases h

theorem Stmt.violationsFunc_eq (c : Context) (isMethod : Bool) (decl : Func) :
    Stmt.violationsFunc c isMethod decl = Stmt.violationsSeq
      ((c.enterFunction decl.params isMethod).declare (decl.body.flatMap Stmt.hoisted))
      decl.body := by
  cases decl
  rw [Stmt.violationsFunc]

/-- A method of a class without violations has none. -/
theorem Stmt.violationsFunc_of_mem {decl : Class} (h : Stmt.violationsClass c decl = [])
    {method : Func} (hmethod : method ∈ decl.methods) :
    Stmt.violationsFunc c true method = [] := by
  obtain ⟨name, fields, methods, span⟩ := decl
  rw [Stmt.violationsClass] at h
  induction methods with
  | nil => cases hmethod
  | cons head rest ih =>
    rw [Stmt.violationsMethods] at h
    obtain ⟨hhead, hrest⟩ := List.append_eq_nil_iff.mp h
    rcases List.mem_cons.mp hmethod with rfl | hmem
    · exact hhead
    · exact ih hrest hmem

theorem Stmt.function_checked {decl : Func} {span : Span} {rest : List Stmt}
    (hm : m.Fits program c p) (hstands : StandsAt program p (.function decl span :: rest))
    (hs : (Stmt.function decl span).violations c = []) :
    Exec.Checked program m ((Stmt.function decl span).execute invoke fuel)
      ((Stmt.function decl span).Ends c) := by
  rw [Stmt.violations] at hs
  rw [Stmt.execute]
  have hnew : m.Evolves _ := .newFunction decl
  have hserves := hm.serves.declareHoisted fun _ => hstands.hoisted List.mem_cons_self
  have hfunc : m.store.CheckedFunc program m.scope false decl :=
    ⟨_, p, hserves, hs, hstands.block List.mem_cons_self⟩
  have hm₁ := hm.later hnew.extends (hnew.closed hm.closed) (hm.checked.newFunction hfunc)
  refine checked_get_bind (meets_alter_bind ?_)
  exact Stmt.define_checked hm₁ rfl (Store.knows_newFunction _ _)

theorem Stmt.classDef_checked {decl : Class} {span : Span} {rest : List Stmt}
    (hm : m.Fits program c p) (hstands : StandsAt program p (.classDef decl span :: rest))
    (hs : (Stmt.classDef decl span).violations c = []) :
    Exec.Checked program m ((Stmt.classDef decl span).execute invoke fuel)
      ((Stmt.classDef decl span).Ends c) := by
  rw [Stmt.violations] at hs
  rw [Stmt.execute]
  have hnew : m.Evolves _ := .newClass decl
  have hserves := hm.serves.declareHoisted fun _ => hstands.hoisted List.mem_cons_self
  have hfuncs : ∀ method ∈ decl.methods, m.store.CheckedFunc program m.scope true method :=
    fun method hmethod => ⟨_, p, hserves, Stmt.violationsFunc_of_mem hs hmethod,
      hstands.block (List.mem_map.mpr ⟨method, hmethod, rfl⟩)⟩
  have hm₁ := hm.later hnew.extends (hnew.closed hm.closed) (hm.checked.newClass hfuncs)
  refine checked_get_bind (meets_alter_bind ?_)
  exact Stmt.define_checked hm₁ rfl (Store.knows_newClass _ _)

mutual

theorem Stmt.execute_checked (hinv : invoke.Checked program) (s : Stmt) (m : Machine) {c : Context}
    {p : Place} {rest : List Stmt} (hm : m.Fits program c p)
    (hstands : StandsAt program p (s :: rest)) (hs : s.violations c = []) :
    Exec.Checked program m (s.execute invoke fuel) (s.Ends c) := by
  match s with
  | .declare constant tag name (some e) span =>
    rw [Stmt.violations] at hs
    rw [Stmt.execute]
    refine checked_evaluate_bind hinv hm
      (e.evaluate_checked hinv m hm (hstands.clean hs (List.Subset.refl _)))
      fun v m₁ _ hm₁ hv _ => ?_
    exact Stmt.define_checked hm₁ rfl hv
  | .declare constant tag name none span =>
    show Exec.Checked program m
      (do define name { value := .null, tag, constant } span; pure Signal.normal) _
    exact Stmt.define_checked hm rfl trivial
  | .assign target value _ =>
    rw [Stmt.violations] at hs
    rw [Stmt.execute]
    refine checked_bind hm (target.assign_evolves hinv.evolves value hm.closed)
      (target.assign_checked hinv value hm hstands (hstands.clean hs (List.Subset.refl _)))
      fun _ m₁ _ hm₁ _ _ => ?_
    exact checked_pure hm₁.checked ⟨trivial, nofun⟩
  | .print value _ =>
    rw [Stmt.violations] at hs
    rw [Stmt.execute]
    refine checked_evaluate_bind hinv hm
      (value.evaluate_checked hinv m hm (hstands.clean hs (List.Subset.refl _)))
      fun v m₁ _ hm₁ _ _ => ?_
    exact checked_store_bind (meets_bind (meets_print hm₁.checked)
      fun _ m₂ hm₂ => checked_pure hm₂ ⟨trivial, nofun⟩)
  | .branch condition body elifs otherwise _ =>
    rw [Stmt.violations] at hs
    obtain ⟨hs, hotherwise⟩ := List.append_eq_nil_iff.mp hs
    obtain ⟨hs, helifs⟩ := List.append_eq_nil_iff.mp hs
    obtain ⟨hcondition, hbody⟩ := List.append_eq_nil_iff.mp hs
    rw [Stmt.execute]
    refine checked_bind hm (condition.condition_evolves hinv.evolves hm.closed)
      (condition.condition_checked hinv hm
        (hstands.clean hcondition (List.subset_append_left _ _))) fun goOn m₁ _ hm₁ _ _ => ?_
    split
    · refine Stmt.checked_ends rfl (checked_inBlock ?_)
      exact checked_of_declare (Stmt.executeSeq_checked hinv body _ (hm₁.enterBlock.hoist body)
        (hstands.inner List.mem_cons_self) hbody)
    · refine Stmt.checked_ends rfl (Stmt.executeElifs_checked hinv elifs m₁ hm₁ ?_ helifs ?_)
      · exact fun branch hbranch =>
          ⟨hstands.refersAt_elif hbranch, hstands.inner (Stmt.elif_mem_blocks hbranch)⟩
      · intro m' hm'
        exact Stmt.executeElse_checked hinv otherwise m' hm'
          (fun block hblock => hstands.inner (Stmt.else_mem_blocks hblock)) hotherwise
  | .whileLoop condition body span =>
    rw [Stmt.violations] at hs
    obtain ⟨hcondition, hbody⟩ := List.append_eq_nil_iff.mp hs
    rw [Stmt.execute_whileLoop]
    refine Stmt.checked_ends rfl (Stmt.loop_checked hinv hm ?_ (fun m₁ hm₁ => ?_) fun m₁ hm₁ => ?_)
    · exact hstands.clean hcondition (List.Subset.refl _)
    · exact checked_of_declare (Stmt.executeSeq_checked hinv body _ (hm₁.hoist body)
        (hstands.inner List.mem_cons_self) hbody)
    · exact checked_pure hm₁.checked trivial
  | .forLoop init condition increment body span =>
    rw [Stmt.violations] at hs
    obtain ⟨hs, hincrement⟩ := List.append_eq_nil_iff.mp hs
    obtain ⟨hs, hbody⟩ := List.append_eq_nil_iff.mp hs
    obtain ⟨hinit, hcondition⟩ := List.append_eq_nil_iff.mp hs
    rw [Stmt.execute_forLoop]
    refine Stmt.checked_ends rfl (checked_inBlock ?_)
    have hin := hm.enterBlock
    refine checked_bind hin (Stmt.executeOption_evolves hinv.evolves init _ hin.closed)
      (Stmt.executeOption_checked hinv init _ hin (fun t ht => ?_) hinit)
      fun _ m₁ _ hm₁ _ hnames => ?_
    · exact hstands.clause (List.mem_append_left _ (by rw [ht]; exact List.mem_cons_self))
    refine checked_of_declare (Stmt.loop_checked hinv (hm₁.declare hnames) ?_ (fun m₂ hm₂ => ?_)
      fun m₂ hm₂ => ?_)
    · exact hstands.clean hcondition (List.Subset.refl _)
    · exact checked_of_declare (Stmt.executeSeq_checked hinv body _ (hm₂.hoist body)
        (hstands.block List.mem_cons_self) hbody)
    · refine (Stmt.executeOption_checked hinv increment m₂ hm₂ (fun t ht => ?_) hincrement).mono
        (fun _ _ h => ⟨h.1, trivial⟩) fun _ _ h => h
      exact hstands.clause (List.mem_append_right _ (by rw [ht]; exact List.mem_cons_self))
  | .breakLoop span =>
    rw [Stmt.violations] at hs
    exact checked_pure hm.checked ⟨allowed_of_require hs, nofun⟩
  | .skip span =>
    rw [Stmt.violations] at hs
    exact checked_pure hm.checked ⟨allowed_of_require hs, nofun⟩
  | .giveBack (some e) span =>
    rw [Stmt.violations] at hs
    obtain ⟨hfunction, he⟩ := List.append_eq_nil_iff.mp hs
    rw [Stmt.execute]
    refine checked_evaluate_bind hinv hm
      (e.evaluate_checked hinv m hm (hstands.clean he (List.Subset.refl _)))
      fun v m₁ _ hm₁ _ _ => ?_
    exact checked_pure hm₁.checked ⟨allowed_of_require hfunction, nofun⟩
  | .giveBack none span =>
    rw [Stmt.violations] at hs
    exact checked_pure hm.checked
      ⟨allowed_of_require (List.append_eq_nil_iff.mp hs).1, nofun⟩
  | .function decl span => exact Stmt.function_checked hm hstands hs
  | .classDef decl span => exact Stmt.classDef_checked hm hstands hs
  | .eval value _ =>
    rw [Stmt.violations] at hs
    rw [Stmt.execute]
    refine checked_evaluate_bind hinv hm
      (value.evaluate_checked hinv m hm (hstands.clean hs (List.Subset.refl _)))
      fun _ m₁ _ hm₁ _ _ => ?_
    exact checked_pure hm₁.checked ⟨trivial, nofun⟩

theorem Stmt.executeOption_checked (hinv : invoke.Checked program) (s : Option Stmt) (m : Machine)
    {c : Context} {p : Place} (hm : m.Fits program c p)
    (hstands : ∀ t, s = some t → StandsAt program (p.enter [t]) [t])
    (hs : Stmt.violationsOption c s = []) :
    Exec.Checked program m (Stmt.executeOption invoke fuel s)
      fun _ m' => ∀ name ∈ (s.map Stmt.declared).getD [],
        (m'.store.lookup m'.scope name).isSome := by
  match s with
  | none => exact checked_pure hm.checked nofun
  | some s =>
    rw [Stmt.violationsOption] at hs
    exact (s.execute_checked hinv m (hm.enter [s]) (hstands s rfl) hs).mono
      (fun _ _ h => ⟨h.1, h.2.2⟩) fun _ _ h => h

theorem Stmt.executeSeq_checked (hinv : invoke.Checked program) (ss : List Stmt) (m : Machine)
    {c : Context} {p : Place} (hm : m.Fits program c p) (hstands : StandsAt program p ss)
    (hss : Stmt.violationsSeq c ss = []) :
    Exec.Checked program m (Stmt.executeSeq invoke fuel ss) fun signal _ => signal.Allowed c := by
  match ss with
  | [] => exact checked_pure hm.checked trivial
  | s :: rest =>
    rw [Stmt.violationsSeq] at hss
    obtain ⟨hs, hrest⟩ := List.append_eq_nil_iff.mp hss
    rw [Stmt.executeSeq]
    refine checked_bind hm (s.execute_evolves hinv.evolves m hm.closed)
      (s.execute_checked hinv m hm hstands hs) fun signal m₁ _ hm₁ _ hends => ?_
    split
    · exact checked_of_declare
        (Stmt.executeSeq_checked hinv rest m₁ (hm₁.declare hends.2) hstands.next hrest)
    · exact checked_pure hm₁.checked hends.1

theorem Stmt.executeElifs_checked (hinv : invoke.Checked program) (elifs : List (BranchOf Stmt))
    (m : Machine) {c : Context} {p : Place} {otherwise : Exec Signal} (hm : m.Fits program c p)
    (hstands : ∀ branch ∈ elifs, (∀ r ∈ branch.condition.references, RefersAt program p r) ∧
      StandsAt program (p.enter branch.body) branch.body)
    (helifs : Stmt.violationsElifs c elifs = [])
    (hotherwise : ∀ m', m'.Fits program c p →
      Exec.Checked program m' otherwise fun signal _ => signal.Allowed c) :
    Exec.Checked program m (Stmt.executeElifs invoke fuel otherwise elifs)
      fun signal _ => signal.Allowed c := by
  match elifs with
  | [] => exact hotherwise m hm
  | ⟨condition, body⟩ :: rest =>
    rw [Stmt.violationsElifs] at helifs
    obtain ⟨hs, hrest⟩ := List.append_eq_nil_iff.mp helifs
    obtain ⟨hcondition, hbody⟩ := List.append_eq_nil_iff.mp hs
    obtain ⟨⟨hrefers, hblock⟩, hstands⟩ := List.forall_mem_cons.mp hstands
    rw [Stmt.executeElifs]
    refine checked_bind hm (condition.condition_evolves hinv.evolves hm.closed)
      (condition.condition_checked hinv hm ⟨hcondition, hrefers⟩) fun goOn m₁ _ hm₁ _ _ => ?_
    split
    · exact checked_inBlock (checked_of_declare
        (Stmt.executeSeq_checked hinv body _ (hm₁.enterBlock.hoist body) hblock hbody))
    · exact Stmt.executeElifs_checked hinv rest m₁ hm₁ hstands hrest hotherwise

theorem Stmt.executeElse_checked (hinv : invoke.Checked program) (otherwise : Option (List Stmt))
    (m : Machine) {c : Context} {p : Place} (hm : m.Fits program c p)
    (hstands : ∀ body, otherwise = some body → StandsAt program (p.enter body) body)
    (hotherwise : Stmt.violationsElse c otherwise = []) :
    Exec.Checked program m (Stmt.executeElse invoke fuel otherwise)
      fun signal _ => signal.Allowed c := by
  match otherwise with
  | none => exact checked_pure hm.checked trivial
  | some body =>
    rw [Stmt.violationsElse] at hotherwise
    exact checked_inBlock (checked_of_declare (Stmt.executeSeq_checked hinv body _
      (hm.enterBlock.hoist body) (hstands body rfl) hotherwise))

end

end Trees

/-! ## Calls -/

section Calls

variable {program : List Stmt} {run : List Stmt → Exec Signal} {m : Machine}
  {arguments : List Value} {span : Span}

/-- Blocks run this way, from states that fit them, keep the rules. -/
def RunsChecked (program : List Stmt) (run : List Stmt → Exec Signal) : Prop :=
  ∀ (body : List Stmt) (c : Context) (p : Place) (m : Machine), m.Fits program c p →
    StandsAt program p body → Stmt.violationsSeq c body = [] →
    Exec.Checked program m (run body) fun signal _ => signal.Allowed c

theorem callFunction_checked (hrun : RunsChecked program run) {decl : Func} {closure : ScopeId}
    {this : Option Value} {isMethod : Bool} (hm : m.Closed) (hchecked : m.store.Checked program)
    (hfunc : m.store.CheckedFunc program closure isMethod decl)
    (hclosure : closure.index < m.store.scopes.size) (hthis : isMethod → this.isSome)
    (hknown : ∀ v, this = some v → m.store.Knows v) (hargs : ∀ v ∈ arguments, m.store.Knows v)
    (harity : decl.params.length ≤ arguments.length) :
    Exec.Checked program m (callFunction run decl closure this arguments span)
      fun _ _ => True := by
  rw [callFunction]
  refine checked_get_bind ?_
  split
  · exact checked_fault trivial
  · refine meets_query_bind (fun bindings hbound => ?_)
      fun _ hfail => excused_at (Store.plain_frame hfail) span
    obtain ⟨c, p, hserves, hviolations, hstands⟩ := hfunc
    -- The body starts in the context of the function, which has no loop around it.
    have hin : (m.enterCall bindings closure).Fits program
        ((c.enterFunction decl.params isMethod).declare (decl.body.flatMap Stmt.hoisted))
        ((p.declare decl.paramNames).enter decl.body) := by
      refine Machine.Fits.hoist ⟨hm.enterCall hclosure (Machine.knows_frame hargs hknown hbound),
        hchecked.later (Machine.extends_enterCall m bindings closure) rfl rfl, ?_⟩ decl.body
      exact hserves.enterCall hclosure (Store.isSome_get?_param_frame hbound harity)
        fun hmethod => Store.isSome_get?_this_frame hbound (hthis hmethod)
    rw [Stmt.violationsFunc_eq] at hviolations
    have hbody := hrun decl.body _ _ _ hin hstands hviolations
    refine meets_inCall_bind
      (fun signal m' => m'.store.Checked program ∧ signal ≠ .breakLoop ∧ signal ≠ .skip)
      (hbody.mono ?_ fun _ _ h => h) ?_
    · rintro signal m' ⟨hchecked', hallowed⟩
      refine ⟨hchecked', ?_, ?_⟩
      · rintro rfl
        exact absurd hallowed Bool.false_ne_true
      · rintro rfl
        exact absurd hallowed Bool.false_ne_true
    · rintro signal m' ⟨hchecked', hbreak, hskip⟩
      refine checked_store_bind ?_
      split
      · exact checked_pure hchecked' trivial
      · exact checked_fault (Store.plain_result hbreak hskip ‹_›)

theorem Store.mem_of_classMethod? {s : Store} {id : ClassId} {name : String} {decl : Func}
    (h : s.classMethod? id name = some decl) : decl ∈ (s.classObject id).decl.methods :=
  List.mem_reverse.mp (List.mem_of_find?_eq_some h)

theorem callClass_checked (hrun : RunsChecked program run) {id : ClassId} (hm : m.Closed)
    (hchecked : m.store.Checked program) (hid : id.index < m.store.classes.size)
    (hargs : ∀ v ∈ arguments, m.store.Knows v)
    (harity : arguments.length = m.store.arity (.classObject id)) :
    Exec.Checked program m (callClass run id arguments span) fun _ _ => True := by
  rw [callClass]
  have hnew : m.Evolves { m with store := (m.store.instantiate id).2 } := .instantiate hid
  have hclosed := hnew.closed hm
  have hchecked' : (m.store.instantiate id).2.Checked program :=
    hchecked.later hnew.extends.store rfl rfl
  refine meets_alter_bind (checked_store_bind ?_)
  split
  · rename_i init hinit
    have hinit' : m.store.initializer? id = some init := hinit
    rw [Store.arity, hinit'] at harity
    refine meets_bind (callFunction_checked hrun hclosed hchecked'
      (hchecked'.methods id hid init (Store.mem_of_classMethod? hinit))
      (hclosed.store.classes id hid) (fun _ => rfl) ?_ ?_ (Nat.le_of_eq harity.symm))
      fun _ _ h => checked_pure h.1 trivial
    · intro v hv
      cases hv
      exact Store.knows_newInstance _ _
    · exact fun v hv => hnew.extends.store.knows (hargs v hv)
  · exact checked_pure hchecked' trivial

theorem callBound_checked (hrun : RunsChecked program run) {receiver : InstanceId} {name : String}
    (hm : m.Closed) (hchecked : m.store.Checked program)
    (hreceiver : receiver.index < m.store.instances.size)
    (hargs : ∀ v ∈ arguments, m.store.Knows v)
    (harity : arguments.length = m.store.arity (.method receiver name)) :
    Exec.Checked program m (callBound run receiver name arguments span) fun _ _ => True := by
  rw [callBound]
  refine checked_store_bind ?_
  split
  · rename_i object decl hobject hmethod
    rw [Store.arity, hmethod] at harity
    rw [Store.instanceMethod?, hobject] at hmethod
    have howner := hm.store.owners receiver object hobject
    refine callFunction_checked hrun hm hchecked
      (hchecked.methods object.owner howner decl (Store.mem_of_classMethod? hmethod))
      (hm.store.classes object.owner howner) (fun _ => rfl) ?_ hargs (Nat.le_of_eq harity.symm)
    intro v hv
    cases hv
    exact hreceiver
  · exact checked_fault trivial

theorem callNative_checked (hchecked : m.store.Checked program) (f : Native) :
    Exec.Checked program m (callNative f arguments) fun _ _ => True := by
  cases f with
  | input =>
    exact checked_store_bind (meets_bind (meets_read hchecked) fun _ _ h => checked_pure h trivial)

end Calls

/-- **Calls of checked functions keep the rules**, by induction on the budget of nested calls. -/
theorem invoke_checked (program : List Stmt) (fuel : Nat) : (invoke fuel).Checked program := by
  refine ⟨⟨fuel, rfl⟩, invoke_evolves fuel, ?_⟩
  induction fuel with
  | zero => exact fun _ _ _ _ _ _ _ _ => trivial
  | succ fuel ih =>
    intro callable arguments span m hm hchecked hcallable hargs
    have hrun : RunsChecked program (Stmt.executeSeq (invoke fuel) fuel) :=
      fun body c p m hm hstands hbody =>
        Stmt.executeSeq_checked ⟨⟨fuel, rfl⟩, invoke_evolves fuel, ih⟩ body m hm hstands hbody
    rw [invoke.eq_def]
    refine checked_store_bind ?_
    split
    · exact checked_fault trivial
    · rename_i hlength
      have harity : arguments.length = m.store.arity callable := by simpa using hlength
      cases callable with
      | native f => exact callNative_checked hchecked f
      | builtin receiver method =>
        exact meets_update (fun _ _ hdone => ⟨hchecked.callMethod hdone, trivial⟩)
          fun _ _ hfail => excused_at (Store.plain_callMethod hfail) span
      | function id =>
        have hthis : ∀ v, (none : Option Value) = some v → m.store.Knows v := by
          intro v hv
          cases hv
        exact callFunction_checked hrun hm hchecked (hchecked.functions id hcallable)
          (hm.store.functions id hcallable) Bool.noConfusion hthis hargs (Nat.le_of_eq harity.symm)
      | method receiver name => exact callBound_checked hrun hm hchecked hcallable hargs harity
      | classObject id => exact callClass_checked hrun hm hchecked hcallable hargs harity

/-! ## Programs -/

theorem Signal.escape?_eq_none {c : Context} {signal : Signal} (h : signal.Allowed c)
    (hloop : c.inLoop = false) (hfunction : c.inFunction = false) : signal.escape? = none := by
  cases signal with
  | normal => rfl
  | breakLoop | skip =>
    rw [Signal.Allowed, hloop] at h
    cases h
  | giveBack value =>
    rw [Signal.Allowed, hfunction] at h
    cases h

/-- The rest of a program, from a state that fits it and outside loops and functions. -/
theorem execute_checked {program : List Stmt} (fuel : Nat) (rest : List Stmt) {m : Machine}
    {c : Context} {p : Place} (hm : m.Fits program c p) (hstands : StandsAt program p rest)
    (hrest : Stmt.violationsSeq c rest = []) (hloop : c.inLoop = false)
    (hfunction : c.inFunction = false) :
    Exec.Checked program m (execute fuel rest) fun _ _ => True := by
  induction rest generalizing m c p with
  | nil => exact checked_pure hm.checked trivial
  | cons s rest ih =>
    rw [Stmt.violationsSeq] at hrest
    obtain ⟨hs, hrest⟩ := List.append_eq_nil_iff.mp hrest
    refine checked_bind hm evolves_checkCancelled (checked_checkCancelled hm.checked)
      fun _ m₁ _ hm₁ _ _ => ?_
    refine checked_bind hm₁ (s.execute_evolves (invoke_evolves fuel) m₁ hm₁.closed)
      (s.execute_checked (invoke_checked program fuel) m₁ hm₁ hstands hs)
      fun signal m₂ _ hm₂ _ hends => ?_
    rw [Signal.escape?_eq_none hends.1 hloop hfunction]
    exact ih (hm₂.declare hends.2) hstands.next hrest hloop hfunction

/-- The initial state fits the start of every program. -/
theorem Machine.fits_initial (program : List Stmt) (maxDepth : Nat) (answers : List String)
    (cancellation : Cancellation) :
    (Machine.initial maxDepth answers cancellation).Fits program
      (Context.start.declare (program.flatMap Stmt.hoisted)) (.outermost program) := by
  have hserves : Store.initial.Serves Store.globals Context.start
      { blocks := [], bound := Native.all.map Native.name } := by
    refine ⟨fun name hname => .inl hname, fun name hname => ?_, nofun⟩
    cases List.mem_singleton.mp hname
    rw [Store.lookup_of_bound rfl]
    rfl
  exact Machine.Fits.hoist ⟨Machine.closed_initial maxDepth answers cancellation,
    ⟨nofun, nofun⟩, hserves⟩ program

/-- A program without violations ends well or with an excuse. -/
theorem execute_excused {program : List Stmt} (h : violations program = []) (fuel maxDepth : Nat)
    (answers : List String) (cancellation : Cancellation) :
    Exec.Checked program (Machine.initial maxDepth answers cancellation) (execute fuel program)
      fun _ _ => True :=
  execute_checked fuel program (Machine.fits_initial program maxDepth answers cancellation) .start h
    rfl rfl

/-! ## Jumps -/

/-- **No jump is out of place.** A program without violations never ends because a jump leaves a
function or the program, whatever it reads, however deep calls may nest, whenever it is cancelled
and however long it runs. -/
theorem execute_ne_controlFlowEscape {program : List Stmt} (h : violations program = [])
    (fuel maxDepth : Nat) (answers : List String) (cancellation : Cancellation) (jump : Jump)
    (boundary : Boundary) (span : Span) (m' : Machine) :
    execute fuel program (Machine.initial maxDepth answers cancellation) ≠
      .error (.fault ⟨.controlFlowEscape jump boundary, span⟩) m' := by
  intro hrun
  have hexcused := (execute_excused h fuel maxDepth answers cancellation).error hrun
  exact hexcused

/-- A function that returns out of a loop, called from a loop that is left at once. -/
def nestedJumps : List Stmt :=
  [.function ⟨"f", [], .boolean,
      [.whileLoop (.boolean true {}) [.giveBack (some (.boolean true {})) {}] {}], {}⟩ {},
    .whileLoop (.boolean true {}) [.eval (.call (.name "f" {}) [] {}) {}, .breakLoop {}] {}]

theorem execute_nestedJumps : violations nestedJumps = [] ∧
    ∀ jump boundary span m', execute 10 nestedJumps (Machine.initial 200 [] .never) ≠
      .error (.fault ⟨.controlFlowEscape jump boundary, span⟩) m' :=
  ⟨by decide, execute_ne_controlFlowEscape (by decide) 10 200 [] .never⟩

/-! ## Names -/

/-- **Only functions and classes can be missing.** If a program without violations ends because a
name is not found, then a function or class of that name is declared in one of the blocks around the
reference, and its declaration has not been executed yet: the scope of the reference has every name
that is bound at that place, and does not have this one. So the name is none of the variables,
parameters, loop variables and built-in functions that are bound there. -/
theorem hoisted_of_undefinedVariable {program : List Stmt} (h : violations program = [])
    {fuel maxDepth : Nat} {answers : List String} {cancellation : Cancellation} {name : String}
    {span : Span} {m' : Machine}
    (hrun : execute fuel program (Machine.initial maxDepth answers cancellation) =
      .error (.fault ⟨.undefinedVariable name, span⟩) m') :
    ∃ p, RefersAt program p (name, span) ∧ Hoisted p.blocks name ∧ name ∉ p.bound ∧
      ∃ scope, (∀ other ∈ p.bound, (m'.store.lookup scope other).isSome) ∧
        m'.store.lookup scope name = none :=
  (execute_excused h fuel maxDepth answers cancellation).error hrun

/-- A function that is called before its declaration. -/
def earlyCall : List Stmt :=
  [.eval (.call (.name "f" {}) [] {}) {},
    .function ⟨"f", [], .void, [], {}⟩ {}]

theorem hoisted_earlyCall : violations earlyCall = [] ∧
    ∃ p, RefersAt earlyCall p ("f", {}) ∧ Hoisted p.blocks "f" ∧ "f" ∉ p.bound ∧
      ∃ scope, (∀ other ∈ p.bound, (Store.initial.lookup scope other).isSome) ∧
        Store.initial.lookup scope "f" = none := by
  have hviolations : violations earlyCall = [] := by decide
  have hrun : execute 10 earlyCall (Machine.initial 200 [] .never) =
      .error (.fault ⟨.undefinedVariable "f", {}⟩) (Machine.initial 200 [] .never) := by
    with_unfolding_all rfl
  exact ⟨hviolations, hoisted_of_undefinedVariable hviolations hrun⟩

end Chalk
