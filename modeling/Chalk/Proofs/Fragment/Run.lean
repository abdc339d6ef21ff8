import Chalk.Proofs.Control
import Chalk.Proofs.Fragment

/-!
# Runs in a fragment

A run of a script in a fragment stays in the fragment: whatever it stores and calls was declared by
the program. The names that the fragment does not have are never bound in a scope that is there, so
they mean what they meant in all later stores.

## Main definitions

* `Store.Retains` — later stores, in which the names outside a fragment are bound as before
* `Machine.Within` — states in a fragment
* `Machine.Stays` — later states of a run in a fragment

## Main results

* `Store.Retains.lookup_eq` — names outside the fragment keep their meaning
* `Script.run_stays` — runs stay in the fragment
-/

namespace Chalk

/-! ## Stores -/

/-- A later store, in which the functions are the same and names outside the fragment are bound as
before in the scopes that were there. -/
structure Store.Retains (F : Fragment) (s t : Store) : Prop where
  scopes : s.scopes.size ≤ t.scopes.size
  parent : ∀ id : ScopeId, id.index < s.scopes.size → (t.scope id).parent = (s.scope id).parent
  hidden : ∀ (id : ScopeId) (name : String), id.index < s.scopes.size → F.names name = false →
    (t.scope id).bindings.get? name = (s.scope id).bindings.get? name
  functions : s.functions.size ≤ t.functions.size
  function : ∀ id : FunctionId, id.index < s.functions.size → t.function id = s.function id

namespace Store

variable {F : Fragment} {s t u : Store}

theorem Retains.refl (F : Fragment) (s : Store) : s.Retains F s :=
  ⟨Nat.le_refl _, fun _ _ => rfl, fun _ _ _ _ => rfl, Nat.le_refl _, fun _ _ => rfl⟩

theorem Retains.trans (h : s.Retains F t) (h' : t.Retains F u) : s.Retains F u where
  scopes := Nat.le_trans h.scopes h'.scopes
  parent id hid := (h'.parent id (Nat.lt_of_lt_of_le hid h.scopes)).trans (h.parent id hid)
  hidden id name hid hname :=
    (h'.hidden id name (Nat.lt_of_lt_of_le hid h.scopes) hname).trans (h.hidden id name hid hname)
  functions := Nat.le_trans h.functions h'.functions
  function id hid := (h'.function id (Nat.lt_of_lt_of_le hid h.functions)).trans (h.function id hid)

/-- **Names outside the fragment keep their meaning.** -/
theorem Retains.lookup_eq (h : s.Retains F t) (hs : s.Within F) {id : ScopeId} {name : String}
    (hid : id.index < s.scopes.size) (hname : F.names name = false) :
    t.lookup id name = s.lookup id name := by
  induction hk : id.index using Nat.strongRecOn generalizing id with
  | ind k ih =>
    have hbindings := h.hidden id name hid hname
    cases hb : (s.scope id).bindings.get? name with
    | some b => rw [lookup_of_bound hb, lookup_of_bound (hbindings.trans hb)]
    | none =>
      cases hp : (s.scope id).parent with
      | none =>
        rw [lookup_of_root hb hp,
          lookup_of_root (hbindings.trans hb) ((h.parent id hid).trans hp)]
      | some parent =>
        have hlt := hs.parent id parent hp
        rw [lookup_of_parent hb hp hlt,
          lookup_of_parent (hbindings.trans hb) ((h.parent id hid).trans hp) hlt]
        exact ih parent.index (hk ▸ hlt) (Nat.lt_trans hlt hid) rfl

theorem SameCode.retains (h : s.SameCode t) : s.Retains F t where
  scopes := Nat.le_of_eq (congrArg Array.size h.scopes.symm)
  parent id _ := by rw [Store.scope, Store.scope, h.scopes]
  hidden id name _ _ := by rw [Store.scope, Store.scope, h.scopes]
  functions := Nat.le_of_eq (congrArg Array.size h.functions.symm)
  function id _ := by rw [Store.function, Store.function, h.functions]

theorem Within.sameCode (hs : s.Within F) (h : s.SameCode t) : t.Within F where
  function id := by rw [Store.function, h.functions]; exact hs.function id
  classObject id := by rw [Store.classObject, h.classes]; exact hs.classObject id
  functionScope id := by rw [Store.function, h.functions, h.scopes]; exact hs.functionScope id
  classScope id := by rw [Store.classObject, h.classes, h.scopes]; exact hs.classScope id
  parent id parent hp := by
    rw [Store.scope, h.scopes] at hp
    exact hs.parent id parent hp

theorem retains_setBindings {id : ScopeId} {name : String} {binding : Binding}
    (hname : F.names name = true) :
    s.Retains F (s.setBindings id ((s.scope id).bindings.set name binding)) where
  scopes := Nat.le_of_eq (size_setBindings ..).symm
  parent other _ := parent_setBindings ..
  hidden other name' _ hname' := by
    refine get?_setBindings_of_ne (.inr ?_)
    rintro rfl
    exact Bool.false_ne_true (hname'.symm.trans hname)
  functions := Nat.le_refl _
  function _ _ := rfl

theorem Within.setBindings (hs : s.Within F) (id : ScopeId) (bindings : Bindings) :
    (s.setBindings id bindings).Within F where
  function := hs.function
  classObject := hs.classObject
  functionScope f := by rw [size_setBindings]; exact hs.functionScope f
  classScope c := by rw [size_setBindings]; exact hs.classScope c
  parent other parent hp := by
    rw [parent_setBindings] at hp
    exact hs.parent other parent hp

theorem retains_newScope (s : Store) (fresh : Scope) : s.Retains F (s.newScope fresh).2 where
  scopes := (extends_newScope s fresh).scopes
  parent id hid := by rw [scope_newScope_of_lt hid]
  hidden id name hid _ := by rw [scope_newScope_of_lt hid]
  functions := Nat.le_refl _
  function _ _ := rfl

theorem Within.newScope (hs : s.Within F) {bindings : Bindings} {parent : ScopeId}
    (hparent : parent.index < s.scopes.size) :
    (s.newScope { bindings, parent := some parent }).2.Within F where
  function := hs.function
  classObject := hs.classObject
  functionScope f := Nat.lt_of_lt_of_le (hs.functionScope f) (extends_newScope s _).scopes
  classScope c := Nat.lt_of_lt_of_le (hs.classScope c) (extends_newScope s _).scopes
  parent id outer hp := by
    rcases scope_newScope_cases s { bindings, parent := some parent } id with heq | ⟨hid, heq⟩
    · exact hs.parent id outer (heq ▸ hp)
    · rw [heq] at hp
      cases hp
      rw [hid]
      exact hparent

theorem function_newFunction_cases (s : Store) (c : Closure) (id : FunctionId) :
    (s.newFunction c).2.function id = s.function id ∨ (s.newFunction c).2.function id = c := by
  simp only [Store.function, newFunction, Array.getElem?_push]
  split
  · exact .inr rfl
  · exact .inl rfl

theorem classObject_newClass_cases (s : Store) (c : ClassObject) (id : ClassId) :
    (s.newClass c).2.classObject id = s.classObject id ∨
      (s.newClass c).2.classObject id = c := by
  simp only [Store.classObject, newClass, Array.getElem?_push]
  split
  · exact .inr rfl
  · exact .inl rfl

theorem retains_newFunction (s : Store) (c : Closure) : s.Retains F (s.newFunction c).2 :=
  { Retains.refl F s with
    functions := (extends_newFunction s c).functions
    function := (extends_newFunction s c).function }

theorem Within.newFunction (hs : s.Within F) {c : Closure}
    (hdecl : Stmt.withinFunc F c.decl = true) (hscope : c.scope.index < s.scopes.size) :
    (s.newFunction c).2.Within F :=
  { hs with
    function := fun id => by
      rcases function_newFunction_cases s c id with heq | heq <;> rw [heq]
      · exact hs.function id
      · exact hdecl
    functionScope := fun id => by
      rcases function_newFunction_cases s c id with heq | heq <;> rw [heq]
      · exact hs.functionScope id
      · exact hscope }

theorem retains_newClass (s : Store) (c : ClassObject) : s.Retains F (s.newClass c).2 :=
  { Retains.refl F s with }

theorem Within.newClass (hs : s.Within F) {c : ClassObject}
    (hdecl : Stmt.withinClass F c.decl = true) (hscope : c.scope.index < s.scopes.size) :
    (s.newClass c).2.Within F :=
  { hs with
    classObject := fun id => by
      rcases classObject_newClass_cases s c id with heq | heq <;> rw [heq]
      · exact hs.classObject id
      · exact hdecl
    classScope := fun id => by
      rcases classObject_newClass_cases s c id with heq | heq <;> rw [heq]
      · exact hs.classScope id
      · exact hscope }

/-- The scope of a body is there. -/
theorem Within.closure_lt (hs : s.Within F) (activation : Activation) :
    (s.closure activation).index < s.scopes.size := by
  cases activation with
  | function id => exact hs.functionScope id
  | method receiver =>
    rw [Store.closure]
    split
    · exact hs.classScope _
    · exact Nat.zero_lt_of_lt (hs.functionScope default)

end Store

/-! ## States -/

/-- A state in a fragment. -/
structure Machine.Within (F : Fragment) (m : Machine) : Prop where
  store : m.store.Within F
  scope : m.scope.index < m.store.scopes.size

/-- A later state of a run in a fragment, at the end of what was going on. -/
structure Machine.Stays (F : Fragment) (m m' : Machine) : Prop where
  within : m'.Within F
  retains : m.store.Retains F m'.store
  scope : m'.scope = m.scope

namespace Machine

variable {F : Fragment} {m m' m'' : Machine}

theorem Stays.refl (hm : m.Within F) : m.Stays F m := ⟨hm, .refl F m.store, rfl⟩

theorem Stays.trans (h : m.Stays F m') (h' : m'.Stays F m'') : m.Stays F m'' :=
  ⟨h'.within, h.retains.trans h'.retains, h'.scope.trans h.scope⟩

theorem Stays.ofStore {store : Store} (hm : m.Within F) (hretains : m.store.Retains F store)
    (hstore : store.Within F) : m.Stays F { m with store } :=
  ⟨⟨hstore, Nat.lt_of_lt_of_le hm.scope hretains.scopes⟩, hretains, rfl⟩

theorem Stays.ofSameCode {store : Store} (hm : m.Within F) (h : m.store.SameCode store) :
    m.Stays F { m with store } :=
  .ofStore hm h.retains (hm.store.sameCode h)

theorem within_enterBlock (hm : m.Within F) : m.enterBlock.Within F where
  store := hm.store.newScope hm.scope
  scope := by
    show m.store.scopes.size < (m.store.scopes.push _).size
    rw [Array.size_push]
    exact Nat.lt_succ_self _

theorem within_enterCall (hm : m.Within F) {bindings : Bindings} {closure : ScopeId}
    (hclosure : closure.index < m.store.scopes.size) : (m.enterCall bindings closure).Within F where
  store := hm.store.newScope hclosure
  scope := by
    show m.store.scopes.size < (m.store.scopes.push _).size
    rw [Array.size_push]
    exact Nat.lt_succ_self _

/-- The initial state is in every fragment. -/
theorem within_initial (F : Fragment) (maxDepth : Nat) (answers : List String)
    (cancellation : Cancellation) : (Machine.initial maxDepth answers cancellation).Within F where
  scope := Nat.zero_lt_one
  store :=
    { function := fun _ => rfl
      classObject := fun _ => rfl
      functionScope := fun _ => Nat.zero_lt_one
      classScope := fun _ => Nat.zero_lt_one
      parent := fun id parent hp => by
        have hid := Store.index_lt_of_parent hp
        obtain ⟨index⟩ := id
        obtain rfl : index = 0 := Nat.lt_one_iff.mp hid
        cases hp }

/-- A block or call is left in the scope that it was entered from. -/
theorem Stays.leave {entered : Machine} {fresh : Scope} (h : entered.Stays F m')
    (hm : m.Within F) (hstore : entered.store = (m.store.newScope fresh).2) (depth : Nat) :
    m.Stays F { m' with scope := m.scope, depth } := by
  have hretains : m.store.Retains F m'.store := by
    refine Store.Retains.trans ?_ h.retains
    rw [hstore]
    exact Store.retains_newScope m.store fresh
  exact ⟨⟨h.within.store, Nat.lt_of_lt_of_le hm.scope hretains.scopes⟩, hretains, rfl⟩

end Machine

/-! ## Runs -/

namespace Exec

open Machine

variable {α β : Type} {F : Fragment} {m : Machine}

/-- However the action ends, the state that it leaves behind is in the fragment. -/
def Stays (F : Fragment) (m : Machine) (x : Exec α) : Prop :=
  Meets m x (fun _ m' => m.Stays F m') fun _ m' => m.Stays F m'

theorem stays_bind {x : Exec β} {f : β → Exec α} (hx : Stays F m x)
    (hf : ∀ b m', m'.Within F → Stays F m' (f b)) : Stays F m (x >>= f) := by
  refine meets_bind hx fun b m' hstays => ?_
  exact (hf b m' hstays.within).mono (fun _ _ h => hstays.trans h) fun _ _ h => hstays.trans h

theorem stays_update {span : Span} {f : Store → Outcome α} (hm : m.Within F)
    (h : ∀ s : Store, s.Within F → s.SameCode (f s).store) : Stays F m (update span f) := by
  have hsame := h m.store hm.store
  refine meets_update (fun a s hdone => ?_) fun e s hfail => ?_
  · rw [hdone] at hsame
    exact .ofSameCode hm hsame
  · rw [hfail] at hsame
    exact .ofSameCode hm hsame

theorem stays_inBlock {x : Exec α} (hm : m.Within F) (h : Stays F m.enterBlock x) :
    Stays F m (inBlock x) := by
  have hleave : ∀ m', m.enterBlock.Stays F m' → m.Stays F { m' with scope := m.scope } :=
    fun m' hin => hin.leave hm rfl m'.depth
  exact meets_inBlock (h.mono (fun _ => hleave) fun _ => hleave)

theorem stays_inCall {x : Exec α} {span : Span} {frame : Store → Except (Failure Fault) Bindings}
    {closure : ScopeId} (hm : m.Within F)
    (h : ∀ bindings, Stays F (m.enterCall bindings closure) x) :
    Stays F m (inCall span frame closure x) := by
  refine meets_get_bind ?_
  split
  · exact meets_fault (.refl hm)
  · refine meets_query_bind (fun bindings _ => ?_) fun _ _ => .refl hm
    refine meets_alter_bind (meets_deeper (meets_within ?_))
    exact (h bindings).mono (fun _ m' hin => hin.leave hm rfl (m'.depth - 1))
      fun _ m' hin => hin.leave hm rfl (m'.depth - 1)

theorem stays_iterate {turn : Exec (Option α)} (hm : m.Within F)
    (h : ∀ m', m'.Within F → Stays F m' turn) (fuel : Nat) : Stays F m (iterate turn fuel) := by
  refine meets_iterate (fun m' hI => ?_) (fun _ hI => hI) fuel (Stays.refl hm)
  exact (h m' hI.within).mono (fun r _ hturn => by cases r <;> exact hI.trans hturn)
    fun _ _ hturn => hI.trans hturn

/-- The end of a turn of a loop, after its body. -/
theorem stays_afterBody {increment : Exec Signal} (hm : m.Within F)
    (h : ∀ m', m'.Within F → Stays F m' increment) (signal : Signal) :
    Stays F m (do
      match signal.afterBody with
      | some last => return some last
      | none =>
        let _ ← increment
        return none) := by
  split
  · exact meets_pure (.refl hm)
  · exact stays_bind (h m hm) fun _ m' hm' => meets_pure (.refl hm')

/-- The rest of a turn of a loop, after its condition. -/
theorem stays_afterCondition {body increment : Exec Signal} (hm : m.Within F)
    (hbody : ∀ m', m'.Within F → Stays F m' body)
    (hincrement : ∀ m', m'.Within F → Stays F m' increment) (goOn : Bool) :
    Stays F m (do
      if goOn then
        match (← inBlock body).afterBody with
        | some last => return some last
        | none =>
          let _ ← increment
          return none
      else return some .normal) := by
  split
  · exact stays_bind (stays_inBlock hm (hbody _ (within_enterBlock hm)))
      fun signal m' hm' => stays_afterBody hm' hincrement signal
  · exact meets_pure (.refl hm)

end Exec

section Runs

open Machine Exec

variable {α : Type} {F : Fragment} {fuel : Nat} {m : Machine}

theorem Step.stays {s : Step α} (hs : s.Within F) (hm : m.Within F) :
    Exec.Stays F m (s.perform fuel) := by
  cases s with
  | operate span op => exact stays_update hm fun s _ => op.same s
  | write id index value span =>
    exact stays_update hm fun s _ => s.sameCode_writeElement id index value
  | compare left right =>
    refine meets_store_bind ?_
    split
    · exact meets_pure (.refl hm)
    · exact meets_throw (.refl hm)
  | fetch name span | this span =>
    exact meets_get_bind (meets_liftAt (fun _ _ => .refl hm) fun _ _ => .refl hm)
  | define name binding span =>
    refine meets_get_bind (meets_update (fun _ s hdone => ?_) fun _ s hfail => ?_)
    · obtain ⟨-, rfl⟩ := Store.define_eq_ok hdone
      exact .ofStore hm (Store.retains_setBindings hs) (hm.store.setBindings _ _)
    · rw [Store.define_eq_error hfail]
      exact .refl hm
  | assign name value span =>
    refine meets_get_bind (meets_update (fun _ s hdone => ?_) fun _ s hfail => ?_)
    · obtain ⟨holder, old, -, -, -, -, rfl⟩ := Store.assign_eq_ok hdone
      exact .ofStore hm (Store.retains_setBindings hs) (hm.store.setBindings _ _)
    · rw [Store.assign_eq_error hfail]
      exact .refl hm
  | newFunction decl =>
    exact .ofStore hm (Store.retains_newFunction m.store _) (hm.store.newFunction hs hm.scope)
  | newClass decl =>
    exact .ofStore hm (Store.retains_newClass m.store _) (hm.store.newClass hs hm.scope)
  | print | read => exact ⟨⟨hm.store, hm.scope⟩, .refl F m.store, rfl⟩

/-- **A run stays in the fragment.** -/
theorem Script.run_stays (fuel : Nat) (x : Script α) (calls : Bool) (m : Machine)
    (hx : x.Within F calls) (hm : m.Within F) : Exec.Stays F m (x.run fuel) := by
  revert calls m
  refine run_induction (motive := fun fuel _ x => ∀ calls m, x.Within F calls → m.Within F →
    Exec.Stays F m (x.run fuel))
    ?pure ?bind ?look ?step ?statement ?loop ?turn ?inBlock ?exhausted ?call ?inCall fuel x
  case pure => exact fun a calls m _ hm => meets_pure (.refl hm)
  case bind =>
    intro fuel α β x f ihx ihf calls m hx hm
    exact stays_bind (ihx calls m hx.1 hm) fun b m' hm' => ihf b calls m' (hx.2 b) hm'
  case look =>
    intro fuel α next ih calls m hx hm
    exact meets_get_bind (ih m.scope m.store calls m (hx m.scope m.store hm.store) hm)
  case step => exact fun s calls m hx hm => Step.stays hx hm
  case statement =>
    intro fuel α s x ih calls m hx hm
    exact stays_bind (meets_checkCancelled (.refl hm) (.refl hm)) fun _ m' hm' =>
      ih calls m' hx hm'
  case loop =>
    intro fuel x ih calls m hx hm
    exact stays_iterate hm (fun m' hm' => ih calls m' hx.2 hm') fuel
  case turn =>
    intro fuel span conditional condition body increment ihc ihb ihi calls m hx hm
    refine stays_bind (meets_checkCancelled (.refl hm) (.refl hm)) fun _ m₁ hm₁ => ?_
    refine stays_bind ?_ fun goOn m₂ hm₂ => stays_afterCondition hm₂
      (fun m' hm' => ihb calls m' hx.2.2.1 hm') (fun m' hm' => ihi calls m' hx.2.2.2 hm') goOn
    cases conditional with
    | true => exact ihc calls m₁ hx.2.1 hm₁
    | false => exact meets_pure (.refl hm₁)
  case inBlock =>
    exact fun x ih calls m hx hm => stays_inBlock hm (ih calls _ hx (within_enterBlock hm))
  case exhausted => exact fun callable arguments span calls m _ hm => meets_throw (.refl hm)
  case call =>
    intro fuel callable arguments span ih calls m _ hm
    rw [run_call]
    exact ih false m (within_ofCall callable arguments span) hm
  case inCall =>
    intro fuel α activation decl arguments span body ih calls m hx hm
    exact meets_store_bind (stays_inCall hm fun bindings =>
      ih true _ hx.2 (within_enterCall hm (hm.store.closure_lt activation)))

end Runs

end Chalk
