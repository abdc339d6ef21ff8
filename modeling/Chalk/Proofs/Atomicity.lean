import Chalk.Proofs.Script.Cause

/-!
# Failures change nothing

An operation that fails leaves everything as it was. For the operations of the store this is a
matter of their order: what can be refused is refused before the first write. A call does more
before it can be refused. It looks for the declaration, a class makes its instance, and the
arguments are bound one after the other, so the last of them may be refused when the others are
bound. They are bound apart from the store, which gets the scope of the call when all of them are.

So there are two stages of a call. Up to the beginning of the body nothing happens to the store but
that a class makes its instance, which nothing else refers to. Whatever the body does is not undone
when it fails. That a body does not begin is said by the moments that the call comes to, and all
that decides about it is the activation of the body, in the state in which the arguments are bound.

## Main definitions

* `Primitive` — the operations on variables and objects that can fail
* `Machine.Activates` — whose body a call is to run
* `Machine.Refuses` — why a call fails before its body begins
* `Script.Bodiless` — scripts that begin no body
* `Script.RestsOn` — the part of a script that decides about its failure

## Main results

* `Primitive.eq_of_error` — a failed operation leaves the state as it was
* `Machine.Activates.restsOn` — the activation of a body decides about the failure of a call
* `Script.callValue_atomic` — a call that fails before its body begins
* `Machine.Refuses.fails` — a call that is refused
* `Machine.failures_atomic` — operations and calls
-/

namespace Chalk

open Script

/-! ## Operations -/

/-- The operations of a program on its variables and objects that can fail. -/
inductive Primitive where
  | define (scope : ScopeId) (name : String) (binding : Binding)
  | assign (scope : ScopeId) (name : String) (value : Value)
  | readItem (container index : Value)
  | writeItem (container index value : Value)
  | writeField (id : InstanceId) (name : String) (value : Value)
  | callMethod (method : Method) (receiver : Value) (arguments : List Value)

namespace Primitive

/-- Performs an operation, the way a run does. -/
def perform (fuel : Nat) (span : Span) : Primitive → Exec Value
  | define scope name binding => do
    Exec.update span fun s => s.define scope name binding
    return .null
  | assign scope name value => do
    Exec.update span fun s => s.assign scope name value
    return .null
  | readItem container index => Exec.query span fun s => s.element fuel container index
  | writeItem container index value => do
    Exec.update span fun s => s.writeItem fuel container index value
    return .null
  | writeField id name value => do
    Exec.update span fun s => s.writeField id name value
    return .null
  | callMethod method receiver arguments =>
    Exec.update span fun s => s.callMethod fuel method receiver arguments

end Primitive

section Operations

variable {α : Type} {span : Span} {m m' : Machine} {failure : Failure RuntimeError}

theorem Exec.update_eq_of_error {f : Store → Outcome α}
    (h : Exec.update span f m = .error failure m')
    (hf : ∀ e t, f m.store = .error e t → t = m.store) : m' = m := by
  obtain ⟨e, t, he, -, rfl⟩ := Exec.update_eq_error h
  rw [hf e t he]

theorem Exec.query_eq_of_error {f : Store → Except (Failure Fault) α}
    (h : Exec.query span f m = .error failure m') : m' = m := by
  have hlift : Exec.liftAt span (f m.store) m = .error failure m' := h
  cases hf : f m.store with
  | ok a =>
    rw [hf] at hlift
    cases hlift
  | error e =>
    rw [hf] at hlift
    cases hlift
    rfl

theorem Exec.update_bind_eq_of_error {f : Store → Outcome Unit}
    (h : (do Exec.update span f; return Value.null : Exec Value) m = .error failure m')
    (hf : ∀ e t, f m.store = .error e t → t = m.store) : m' = m := by
  rcases bind_eq_error h with hupdate | ⟨_, _, _, hreturn⟩
  · exact Exec.update_eq_of_error hupdate hf
  · cases hreturn

/-- **An operation that fails leaves the state as it was.** -/
theorem Primitive.eq_of_error (op : Primitive) {fuel : Nat}
    (h : op.perform fuel span m = .error failure m') : m' = m := by
  cases op with
  | define scope name binding =>
    exact Exec.update_bind_eq_of_error h fun _ _ => Store.define_eq_error
  | assign scope name value =>
    exact Exec.update_bind_eq_of_error h fun _ _ => Store.assign_eq_error
  | readItem container index => exact Exec.query_eq_of_error h
  | writeItem container index value =>
    exact Exec.update_bind_eq_of_error h fun _ _ => Store.writeItem_eq_error
  | writeField id name value =>
    exact Exec.update_bind_eq_of_error h fun _ _ => Store.writeField_eq_error
  | callMethod method receiver arguments =>
    have hupdate : Exec.update span (fun s => s.callMethod fuel method receiver arguments) m =
      .error failure m' := h
    exact Exec.update_eq_of_error hupdate fun _ _ => Store.callMethod_eq_error

end Operations

/-! ## Calls up to the body -/

/-- The state with more instances at the end of their table, and everything else the same. -/
def Machine.withInstances (m : Machine) (fresh : Array Instance) : Machine :=
  { m with store := { m.store with instances := m.store.instances ++ fresh } }

theorem Machine.withInstances_empty (m : Machine) : m.withInstances #[] = m := by
  rw [withInstances, Array.append_empty]

/-- Whose body a call is to run, and the state in which it binds the arguments. A class has made its
instance by then. -/
inductive Machine.Activates (m : Machine) : Callable → Activation → Func → Machine → Prop where
  | function (id : FunctionId) :
      Activates m (.function id) (.function id) (m.store.function id).decl m
  | method {receiver : InstanceId} {name : String} {decl : Func}
      (found : m.store.instanceMethod? receiver name = some decl) :
      Activates m (.method receiver name) (.method receiver) decl m
  | classObject {id : ClassId} {init : Func} (found : m.store.initializer? id = some init) :
      Activates m (.classObject id) (.method (m.store.instantiate id).1) init
        { m with store := (m.store.instantiate id).2 }

/-- Why a call fails before its body begins: the value cannot be called, the number of arguments is
wrong, there are as many calls as there may be, or an argument does not fit its parameter. -/
inductive Machine.Refuses (m : Machine) : Value → List Value → Prop where
  | notCallable {callee : Value} {arguments : List Value}
      (h : ∀ callable, callee ≠ .callable callable) : Refuses m callee arguments
  | arity {callable : Callable} {arguments : List Value}
      (h : arguments.length ≠ m.store.arity callable) : Refuses m (.callable callable) arguments
  | depth {callable : Callable} {activation : Activation} {decl : Func} {m' : Machine}
      {arguments : List Value} (activates : m.Activates callable activation decl m')
      (full : m.maxDepth ≤ m.depth) : Refuses m (.callable callable) arguments
  | argument {callable : Callable} {activation : Activation} {decl : Func} {m' : Machine}
      {arguments : List Value} {param : Slot} {value : Value}
      (activates : m.Activates callable activation decl m')
      (position : (param, value) ∈ decl.params.zip arguments)
      (h : m'.store.conforms param.tag value = false) : Refuses m (.callable callable) arguments

section Calls

variable {fuel : Nat} {callable : Callable} {callee : Value} {activation : Activation} {decl : Func}
  {arguments : List Value} {span : Span} {m m' m'' : Machine} {failure : Failure RuntimeError}

/-- All that has happened to the store is that there may be an instance more. -/
theorem Machine.Activates.eq_withInstances (h : m.Activates callable activation decl m') :
    ∃ fresh, m' = m.withInstances fresh := by
  cases h with
  | function id => exact ⟨#[], m.withInstances_empty.symm⟩
  | method found => exact ⟨#[], m.withInstances_empty.symm⟩
  | @classObject id init found =>
    refine ⟨#[{ owner := id, fields := (m.store.classObject id).decl.initialFields }], ?_⟩
    rw [withInstances, Array.append_singleton]
    rfl

/-- The script begins no body. -/
def Script.Bodiless {α : Type} (fuel : Nat) (x : Script α) (m : Machine) : Prop :=
  ∀ μ, Reaches fuel x m μ → μ.body? = none

theorem Script.bodiless_step {α : Type} {s : Step α} : Bodiless fuel (step s) m := by
  intro μ h
  cases h <;> rfl

theorem Script.Bodiless.bind {α β : Type} {x : Script β} {f : β → Script α}
    (h : Bodiless fuel x m) (hx : x.run fuel m = .error failure m') :
    Bodiless fuel (Script.bind x f) m := by
  intro μ hreaches
  cases hreaches with
  | start => rfl
  | first inside => exact h μ inside
  | next done inside =>
    rw [hx] at done
    cases done

/-- Two scripts do the same and come to the same moments, from this state on. -/
def Script.SameAt {α : Type} (fuel : Nat) (m : Machine) (x y : Script α) : Prop :=
  x.run fuel m = y.run fuel m ∧ ∀ μ, Reaches fuel x m μ ↔ Reaches fuel y m μ

theorem Script.SameAt.refl {α : Type} {x : Script α} : SameAt fuel m x x :=
  ⟨rfl, fun _ => .rfl⟩

theorem Script.SameAt.trans {α : Type} {x y z : Script α} (h : SameAt fuel m x y)
    (h' : SameAt fuel m y z) : SameAt fuel m x z :=
  ⟨h.1.trans h'.1, fun μ => (h.2 μ).trans (h'.2 μ)⟩

theorem Script.sameAt_look {α : Type} {next : ScopeId → Store → Script α} :
    SameAt fuel m (look next) (next m.scope m.store) := by
  refine ⟨rfl, fun μ => ⟨fun h => ?_, .look⟩⟩
  cases h with
  | start => exact .start
  | look inside => exact inside

/-- The run of one script from a state rests on that of another from a later state: it fails if the
other does, and comes to its moments. Before that, it begins no body. -/
structure Script.RestsOn {α β : Type} (fuel : Nat) (x : Script α) (m : Machine) (y : Script β)
    (m' : Machine) : Prop where
  fails : ∀ failure m'', x.run fuel m = .error failure m'' ↔ y.run fuel m' = .error failure m''
  reaches : ∀ μ, Reaches fuel y m' μ → Reaches fuel x m μ
  bodiless : ∀ failure m'', y.run fuel m' = .error failure m'' → Bodiless fuel y m' →
    Bodiless fuel x m

theorem Script.RestsOn.refl {α : Type} {x : Script α} : RestsOn fuel x m x m :=
  ⟨fun _ _ => .rfl, fun _ h => h, fun _ _ _ h => h⟩

theorem Script.SameAt.restsOn {α β : Type} {x y : Script α} {z : Script β} (h : SameAt fuel m x y)
    (h' : RestsOn fuel y m z m') : RestsOn fuel x m z m' where
  fails failure m'' := h.1 ▸ h'.fails failure m''
  reaches μ hz := (h.2 μ).mpr (h'.reaches μ hz)
  bodiless failure m'' hz hbodiless μ hx := h'.bodiless failure m'' hz hbodiless μ ((h.2 μ).mp hx)

theorem Script.RestsOn.look {α β : Type} {next : ScopeId → Store → Script α} {y : Script β}
    (h : RestsOn fuel (next m.scope m.store) m y m') : RestsOn fuel (Script.look next) m y m' :=
  sameAt_look.restsOn h

/-- What comes behind a part that cannot fail any more. -/
theorem Script.RestsOn.next {α β γ : Type} {x : Script β} {f : β → Script α} {y : Script γ} {b : β}
    (done : x.run fuel m = .ok b m') (hx : Bodiless fuel x m)
    (h : RestsOn fuel (f b) m' y m'') : RestsOn fuel (Script.bind x f) m y m'' where
  fails failure after := by rw [run_bind_ok done, h.fails]
  reaches μ hy := .next done (h.reaches μ hy)
  bodiless failure after hy hbodiless μ hreaches := by
    cases hreaches with
    | start => rfl
    | first inside => exact hx μ inside
    | next done' inside =>
      rw [done] at done'
      cases done'
      exact h.bodiless failure after hy hbodiless μ inside

/-- What comes before a part that cannot fail. -/
theorem Script.RestsOn.first {α β : Type} {x : Script β} {f : β → Script α}
    (hf : ∀ b after failure after', (f b).run fuel after ≠ .error failure after') :
    RestsOn fuel (Script.bind x f) m x m where
  fails failure after := by
    refine ⟨fun h => ?_, run_bind_error⟩
    rcases bind_eq_error h with hx | ⟨b, mid, -, hnext⟩
    · exact hx
    · exact absurd hnext (hf b mid failure after)
  reaches μ hx := .first hx
  bodiless failure after hx hbodiless := hbodiless.bind hx

/-- A call has nothing to bind where there is no room for it. -/
theorem Script.bodiless_inCall {α : Type} {body : Script α}
    (h : ∀ bindings, m.depth < m.maxDepth →
      m.store.frame decl activation.this? arguments ≠ .ok bindings) :
    Bodiless fuel (inCall activation decl arguments span body) m := by
  intro μ hreaches
  cases hreaches with
  | start => rfl
  | binding room => rfl
  | body room bound inside => exact absurd bound (h _ room)

/-- If the body does not begin, then nothing has happened. -/
theorem Script.eq_of_activate_eq_error
    (h : (activate activation decl arguments span).run fuel m = .error failure m')
    (hbody : Bodiless fuel (activate activation decl arguments span) m) : m' = m := by
  have hbegins : ∀ bindings, m.depth < m.maxDepth →
      m.store.frame decl activation.this? arguments ≠ .ok bindings := by
    intro bindings room bound
    exact absurd (hbody _ (.first (.body room bound .start))) nofun
  rcases Nat.lt_or_ge m.depth m.maxDepth with room | full
  · cases hframe : m.store.frame decl activation.this? arguments with
    | ok bindings => exact absurd hframe (hbegins bindings room)
    | error e =>
      have hcall : (inCall activation decl arguments span (Stmt.scriptSeq decl.body)).run fuel m =
        _ := run_inCall_room room
      rw [hframe] at hcall
      cases (run_bind_error hcall).symm.trans h
      rfl
  · cases (run_bind_error (run_inCall_full full)).symm.trans h
    rfl

/-- How a call goes on that has the right number of arguments. -/
def Script.dispatch (s : Store) (arguments : List Value) (span : Span) : Callable → Script Value
  | .native .input => do
    let answer ← step (.read ((arguments.head?.map s.render).getD ""))
    return .string answer
  | .builtin receiver method => callMethod method receiver.toValue arguments span
  | .function id => activate (.function id) (s.function id).decl arguments span
  | .method receiver name => callBound receiver name arguments span
  | .classObject id => callClass id arguments span

theorem Script.sameAt_dispatch (harity : arguments.length = m.store.arity callable) :
    SameAt fuel m (ofCall callable arguments span) (dispatch m.store arguments span callable) := by
  rw [ofCall]
  refine sameAt_look.trans ?_
  rw [if_neg (by simp [harity])]
  cases callable with
  | native f =>
    cases f
    exact .refl
  | _ => exact .refl

theorem Script.sameAt_callBound {receiver : InstanceId} {name : String}
    (found : m.store.instanceMethod? receiver name = some decl) :
    SameAt fuel m (callBound receiver name arguments span)
      (activate (.method receiver) decl arguments span) := by
  refine sameAt_look.trans ?_
  obtain ⟨object, hobject, -⟩ := Option.bind_eq_some_iff.mp found
  rw [hobject, found]
  exact .refl

theorem Script.run_instantiate (id : ClassId) :
    (alter fun s => s.instantiate id : Script InstanceId).run fuel m =
      .ok (m.store.instantiate id).1 { m with store := (m.store.instantiate id).2 } := rfl

/-- A class makes its instance, and the rest is up to the initializer. -/
theorem Script.restsOn_callClass {id : ClassId} {init : Func}
    (found : m.store.initializer? id = some init) :
    RestsOn fuel (callClass id arguments span) m
      (activate (.method (m.store.instantiate id).1) init arguments span)
      { m with store := (m.store.instantiate id).2 } := by
  refine .next (run_instantiate id) bodiless_step (.look ?_)
  have hinit : (m.store.instantiate id).2.initializer? id = some init := found
  rw [hinit]
  exact .first fun _ _ => nofun

theorem Script.run_callClass_of_none {id : ClassId} (found : m.store.initializer? id = none) :
    (callClass id arguments span).run fuel m = .ok (.instance (m.store.instantiate id).1)
      { m with store := (m.store.instantiate id).2 } := by
  refine (run_bind_ok (run_instantiate id)).trans (sameAt_look.1.trans ?_)
  have hinit : (m.store.instantiate id).2.initializer? id = none := found
  rw [hinit]
  rfl

theorem Script.run_callBound_of_none {receiver : InstanceId} {name : String}
    (found : m.store.instanceMethod? receiver name = none) :
    (callBound receiver name arguments span).run fuel m =
      .error (.fault ⟨.unknownMember (m.store.instanceClass receiver) name, span⟩) m := by
  refine sameAt_look.1.trans ?_
  rw [found]
  cases m.store.instance? receiver <;> rfl

/-- **The activation of a body decides about the failure of a call.** -/
theorem Machine.Activates.restsOn (h : m.Activates callable activation decl m')
    (harity : arguments.length = m.store.arity callable) :
    RestsOn fuel (ofCall callable arguments span) m
      (activate activation decl arguments span) m' := by
  cases h with
  | function id => exact (sameAt_dispatch harity).restsOn .refl
  | method found => exact ((sameAt_dispatch harity).trans (sameAt_callBound found)).restsOn .refl
  | classObject found => exact (sameAt_dispatch harity).restsOn (restsOn_callClass found)

/-- A call with a wrong number of arguments fails at once. -/
theorem Script.ofCall_of_length_ne (harity : arguments.length ≠ m.store.arity callable) :
    ∃ f, (ofCall callable arguments span).run fuel m = .error (.fault ⟨f, span⟩) m ∧
      Bodiless fuel (ofCall callable arguments span) m := by
  have hfault : SameAt fuel m (ofCall callable arguments span) (fault span
      (fun s => .arityMismatch (s.callableName callable) (s.arity callable) arguments.length)
      (by simp)) := by
    rw [ofCall]
    refine sameAt_look.trans ?_
    rw [if_pos (by simp [harity])]
    exact .refl
  exact ⟨_, hfault.1.trans rfl,
    fun μ hreaches => bodiless_step μ ((hfault.2 μ).mp hreaches)⟩

/-- A call that activates no body changes nothing if it fails. -/
theorem Script.ofCall_eq_error
    (h : (ofCall callable arguments span).run fuel m = .error failure m'') :
    m'' = m ∨ arguments.length = m.store.arity callable ∧
      ∃ activation decl m', m.Activates callable activation decl m' := by
  by_cases harity : arguments.length = m.store.arity callable
  · rw [(sameAt_dispatch harity).1] at h
    cases callable with
    | native f =>
      cases f
      cases h
    | builtin receiver method =>
      have hmethod : Exec.update span (fun s =>
          s.callMethod fuel method receiver.toValue arguments) m = .error failure m'' := by
        rw [← perform_callMethod]
        exact h
      exact .inl (Exec.update_eq_of_error hmethod fun _ _ => Store.callMethod_eq_error)
    | function id => exact .inr ⟨harity, _, _, _, .function id⟩
    | method receiver name =>
      cases found : m.store.instanceMethod? receiver name with
      | some decl => exact .inr ⟨harity, _, _, _, .method found⟩
      | none =>
        cases (run_callBound_of_none found).symm.trans h
        exact .inl rfl
    | classObject id =>
      cases found : m.store.initializer? id with
      | some init => exact .inr ⟨harity, _, _, _, .classObject found⟩
      | none => cases (run_callClass_of_none found).symm.trans h
  · obtain ⟨f, hfails, -⟩ := ofCall_of_length_ne harity
    cases hfails.symm.trans h
    exact .inl rfl

theorem Script.ofCall_atomic
    (h : (ofCall callable arguments span).run fuel m = .error failure m'')
    (hbody : Bodiless fuel (ofCall callable arguments span) m) :
    ∃ fresh, m'' = m.withInstances fresh := by
  rcases ofCall_eq_error h with rfl | ⟨harity, activation, decl, m', hactivates⟩
  · exact ⟨#[], m''.withInstances_empty.symm⟩
  · have hrests : RestsOn fuel (ofCall callable arguments span) m
        (activate activation decl arguments span) m' := hactivates.restsOn harity
    obtain rfl := eq_of_activate_eq_error ((hrests.fails _ _).mp h) fun μ hμ =>
      hbody μ (hrests.reaches μ hμ)
    exact hactivates.eq_withInstances

/-- The variables of a call are not bound if an argument does not fit its parameter. -/
theorem Store.frame_eq_error {s : Store} {this : Option Value} {param : Slot} {value : Value}
    (position : (param, value) ∈ decl.params.zip arguments)
    (h : s.conforms param.tag value = false) :
    ∃ f, s.frame decl this arguments = .error (.fault f) := by
  cases hframe : s.frame decl this arguments with
  | ok bindings =>
    rw [frame_eq] at hframe
    have hconforms := foldlM_ok_forall_mem
      (Q := fun (pair : Slot × Value) (_ : Bindings) => s.conforms pair.1.tag pair.2 = true)
      hframe (fun _ _ _ hstep => (bindParam_eq_ok hstep).1) (fun _ _ _ _ hq _ => hq) _ position
    cases h.symm.trans hconforms
  | error e =>
    have hordinary := ordinary_frame hframe
    cases e with
    | fault f => exact ⟨f, rfl⟩
    | _ => cases hordinary

/-- **A body does not begin** where there is no room for the call, or the arguments do not fit. -/
theorem Script.activate_refused
    (h : m.maxDepth ≤ m.depth ∨
      ∃ f, m.store.frame decl activation.this? arguments = .error (.fault f)) :
    ∃ f, (activate activation decl arguments span).run fuel m = .error (.fault ⟨f, span⟩) m ∧
      Bodiless fuel (activate activation decl arguments span) m := by
  have hnever : ∀ bindings, m.depth < m.maxDepth →
      m.store.frame decl activation.this? arguments ≠ .ok bindings := by
    intro bindings room bound
    rcases h with full | ⟨f, hframe⟩
    · exact absurd room (Nat.not_lt_of_le full)
    · rw [bound] at hframe
      cases hframe
  rcases Nat.lt_or_ge m.depth m.maxDepth with room | full
  · obtain ⟨f, hframe⟩ := h.resolve_left (Nat.not_le_of_lt room)
    have hcall : (inCall activation decl arguments span (Stmt.scriptSeq decl.body)).run fuel m =
      _ := run_inCall_room room
    rw [hframe] at hcall
    exact ⟨f, run_bind_error hcall, (bodiless_inCall hnever).bind hcall⟩
  · have hcall : (inCall activation decl arguments span (Stmt.scriptSeq decl.body)).run fuel m =
      _ := run_inCall_full full
    exact ⟨_, run_bind_error hcall, (bodiless_inCall hnever).bind hcall⟩

/-- What a moment of a call is, unless nothing has begun: one of the script of the call. This is
said of all scripts, since a call has a value and a loop has a signal, and no case analysis tells
the type of the one from that of the other. -/
def Script.CallsAt (m : Machine) (μ : Moment) : Nat → {α : Type} → Script α → Prop
  | fuel + 1, _, .call callable arguments span =>
    μ = [] ∨ Reaches fuel (ofCall callable arguments span) m μ
  | _, _, _ => True

theorem Script.Reaches.callsAt {α : Type} {x : Script α} {μ : Moment} (h : Reaches fuel x m μ) :
    CallsAt m μ fuel x := by
  cases h with
  | @start fuel _ x =>
    cases fuel <;> cases x <;> first | trivial | exact .inl rfl
  | call inside => exact .inr inside
  | _ => cases fuel <;> trivial

theorem Script.bodiless_call (h : Bodiless fuel (ofCall callable arguments span) m) :
    Bodiless (fuel + 1) (call callable arguments span) m := by
  intro μ hreaches
  rcases hreaches.callsAt with rfl | inside
  · rfl
  · exact h μ inside

/-- A call with the wrong number of arguments fails at once, and one with the right number where the
activation of the body fails. -/
theorem Machine.Activates.fails (h : m.Activates callable activation decl m')
    (hrefused : m'.maxDepth ≤ m'.depth ∨
      ∃ f, m'.store.frame decl activation.this? arguments = .error (.fault f)) :
    ∃ f m'', (ofCall callable arguments span).run fuel m = .error (.fault ⟨f, span⟩) m'' ∧
      Bodiless fuel (ofCall callable arguments span) m := by
  by_cases harity : arguments.length = m.store.arity callable
  · obtain ⟨f, hfails, hbodiless⟩ := activate_refused hrefused
    have hrests : RestsOn fuel (ofCall callable arguments span) m
        (activate activation decl arguments span) m' := h.restsOn harity
    exact ⟨f, m', (hrests.fails _ _).mpr hfails, hrests.bodiless _ _ hfails hbodiless⟩
  · obtain ⟨f, hfails, hbodiless⟩ := ofCall_of_length_ne harity
    exact ⟨f, m, hfails, hbodiless⟩

/-- **A refused call** fails with a fault at its place, and its body does not begin. -/
theorem Machine.Refuses.fails (h : m.Refuses callee arguments) :
    ∃ f m', (callValue callee arguments span).run (fuel + 1) m = .error (.fault ⟨f, span⟩) m' ∧
      Bodiless (fuel + 1) (callValue callee arguments span) m := by
  cases h with
  | notCallable h =>
    cases callee with
    | callable callable => exact absurd rfl (h callable)
    | _ => exact ⟨_, m, rfl, bodiless_step⟩
  | arity harity =>
    obtain ⟨f, hfails, hbodiless⟩ := ofCall_of_length_ne harity
    exact ⟨f, m, (congrFun (run_call ..) m).trans hfails, bodiless_call hbodiless⟩
  | depth activates full =>
    obtain ⟨fresh, hm'⟩ := activates.eq_withInstances
    obtain ⟨f, m', hfails, hbodiless⟩ := activates.fails (.inl (by rw [hm']; exact full))
    exact ⟨f, m', (congrFun (run_call ..) m).trans hfails, bodiless_call hbodiless⟩
  | argument activates position h =>
    obtain ⟨f, m', hfails, hbodiless⟩ := activates.fails (.inr (Store.frame_eq_error position h))
    exact ⟨f, m', (congrFun (run_call ..) m).trans hfails, bodiless_call hbodiless⟩

/-- **A call whose body does not begin changes nothing** if it fails, but that a class may have made
its instance. -/
theorem Script.callValue_atomic
    (h : (callValue callee arguments span).run fuel m = .error failure m')
    (hbody : Bodiless fuel (callValue callee arguments span) m) :
    ∃ fresh, m' = m.withInstances fresh := by
  cases callee with
  | callable callable =>
    cases fuel with
    | zero =>
      cases h
      exact ⟨#[], m.withInstances_empty.symm⟩
    | succ fuel =>
      rw [callValue, run_call] at h
      exact ofCall_atomic h fun μ hμ => hbody μ (.call hμ)
  | _ =>
    cases h
    exact ⟨#[], m.withInstances_empty.symm⟩

end Calls

/-- **Failures are atomic.** An operation that fails leaves the state as it was. So does a call that
fails before its body begins, but that a class may have made its instance; all that has been there
before is the same. Calls of what cannot be called, with a wrong number of arguments, beyond the
depth that is allowed, or with an argument that does not fit, wherever it stands, fail in this
way. -/
theorem Machine.failures_atomic (m : Machine) (fuel : Nat) (span : Span) :
    (∀ (op : Primitive) failure m', op.perform fuel span m = .error failure m' → m' = m) ∧
    (∀ callee arguments failure m',
      Exec.callValue (invoke fuel) callee arguments span m = .error failure m' →
      (∀ μ, Reaches fuel (callValue callee arguments span) m μ → μ.body? = none) →
      ∃ fresh, m' = m.withInstances fresh) ∧
    ∀ callee arguments, m.Refuses callee arguments →
      (∀ μ, Reaches (fuel + 1) (callValue callee arguments span) m μ → μ.body? = none) ∧
      ∃ f fresh, Exec.callValue (invoke (fuel + 1)) callee arguments span m =
        .error (.fault ⟨f, span⟩) (m.withInstances fresh) := by
  refine ⟨fun op failure m' h => op.eq_of_error h, ?_, ?_⟩
  · intro callee arguments failure m' h hbody
    rw [← perform_callValue] at h
    exact callValue_atomic h hbody
  · intro callee arguments hrefuses
    obtain ⟨f, m', hfails, hbody⟩ := hrefuses.fails
    obtain ⟨fresh, rfl⟩ := callValue_atomic hfails hbody
    exact ⟨hbody, f, fresh, (congrFun (perform_callValue ..).symm m).trans hfails⟩

/-- A state with an empty list, and with a class whose initializer takes a number and a text. -/
def Machine.labelled : Machine where
  store :=
    { lists := #[#[]]
      classes := #[{
        decl := {
          name := "Label"
          fields := []
          methods := [{
            name := "init"
            params := [⟨"number", .number, {}⟩, ⟨"text", .string, {}⟩]
            returns := .void
            body := []
            span := {} }]
          span := {} }
        scope := Store.globals }] }
  maxDepth := 200
  answers := []

/-- Nothing can be taken off the list, and a truth value is no text. -/
theorem Machine.failures_atomic_labelled :
    (∃ failure, (Primitive.callMethod .listPop (.list ⟨0⟩) []).perform 1 {} labelled =
      .error failure labelled) ∧
    ∃ f fresh, Exec.callValue (invoke 2) (.callable (.classObject ⟨0⟩))
      [.number 1.0, .boolean true] {} labelled =
        .error (.fault ⟨f, {}⟩) (labelled.withInstances fresh) := by
  obtain ⟨hoperations, -, hrefused⟩ := failures_atomic labelled 1 {}
  have hpop : (Primitive.callMethod .listPop (.list ⟨0⟩) []).perform 1 {} labelled =
    .error (.fault ⟨.emptyList, {}⟩) _ := rfl
  refine ⟨⟨_, (hoperations _ _ _ hpop) ▸ hpop⟩, (hrefused _ _ ?_).2⟩
  exact .argument (.classObject rfl) (.tail _ (.head _)) rfl

end Chalk
