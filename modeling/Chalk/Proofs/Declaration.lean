import Mathlib.Logic.Relation
import Chalk.Proofs.Control
import Chalk.Proofs.Reachable

/-!
# Declarations stay in their scope

A statement can run any code: it calls functions and methods, which declare variables of their own,
and it goes through blocks and loops. None of this is seen in the scopes that were there before,
except for the name that the statement itself declares in its own scope. Assignments go to any of
them, but they change values only, and never that of a constant.

## Main definitions

* `Machine.Step`, `Machine.Later` — how states follow each other
* `Store.KeepsConstants` — constants are the same in a later store

## Main results

* `Machine.Evolves.constants`, `Machine.Later.constants` — constants never change
* `Machine.reachable_iff` — the reachable states are those that follow a fresh one
* `Machine.Reachable.declarations` — what statements leave of declarations and constants
-/

namespace Chalk

/-! ## Constants in the store -/

namespace Store

variable {s t u : Store} {id scope : ScopeId} {name other : String} {binding old : Binding}
  {value : Value}

/-- Every constant of `s` is the same in `t`. -/
def KeepsConstants (s t : Store) : Prop :=
  ∀ (id : ScopeId) (name : String) (binding : Binding),
    (s.scope id).bindings.get? name = some binding → binding.constant = true →
      (t.scope id).bindings.get? name = some binding

theorem KeepsConstants.refl (s : Store) : s.KeepsConstants s := fun _ _ _ h _ => h

theorem KeepsConstants.trans (h : s.KeepsConstants t) (h' : t.KeepsConstants u) :
    s.KeepsConstants u :=
  fun id name binding hb hconst => h' id name binding (h id name binding hb hconst) hconst

theorem keepsConstants_of_scopes_eq (h : t.scopes = s.scopes) : s.KeepsConstants t := by
  intro id name binding hb _
  rw [Store.scope, h]
  exact hb

theorem keepsConstants_newScope (s : Store) (fresh : Scope) :
    s.KeepsConstants (s.newScope fresh).2 := by
  intro id name binding hb _
  rw [scope_newScope_of_lt (index_lt_of_get? hb)]
  exact hb

/-- Setting a variable that is not a constant keeps all constants. -/
theorem keepsConstants_setBindings
    (h : ∀ old, (s.scope id).bindings.get? name = some old → old.constant = false)
    (binding : Binding) :
    s.KeepsConstants (s.setBindings id ((s.scope id).bindings.set name binding)) := by
  intro other name' old hold hconst
  by_cases hhere : other = id ∧ name' = name
  · obtain ⟨rfl, rfl⟩ := hhere
    rw [h old hold] at hconst
    cases hconst
  · rw [get?_setBindings_of_ne (Decidable.not_and_iff_not_or_not.mp hhere)]
    exact hold

/-- A declaration that succeeds does not take the name of a constant. -/
theorem constant_of_define (h : s.define id name binding = .ok () t)
    (hold : (s.scope id).bindings.get? name = some old) : old.constant = false := by
  simp only [define, declareIn, hold, Option.map_some, Option.getD_some] at h
  cases hconst : old.constant with
  | false => rfl
  | true =>
    rw [hconst] at h
    cases h

theorem keepsConstants_define (h : s.define id name binding = .ok () t) : s.KeepsConstants t := by
  have hfree : ∀ old, (s.scope id).bindings.get? name = some old → old.constant = false :=
    fun _ => constant_of_define h
  obtain ⟨-, rfl⟩ := define_eq_ok h
  exact keepsConstants_setBindings hfree binding

theorem keepsConstants_assign (h : s.assign id name value = .ok () t) : s.KeepsConstants t := by
  obtain ⟨holder, old, -, hold, hconst, -, rfl⟩ := assign_eq_ok h
  refine keepsConstants_setBindings (fun old' hold' => ?_) _
  rw [hold] at hold'
  cases hold'
  exact hconst

end Store

namespace Machine

variable {m m' later : Machine}

/-- **Runs keep constants.** -/
theorem Evolves.constants (h : m.Evolves m') : m.store.KeepsConstants m'.store := by
  induction h with
  | refl m => exact .refl m.store
  | trans _ _ ih₁ ih₂ => exact ih₁.trans ih₂
  | newList | newDict | newFunction | newClass | instantiate =>
    exact Store.keepsConstants_of_scopes_eq rfl
  | define _ done => exact Store.keepsConstants_define done
  | assign _ done => exact Store.keepsConstants_assign done
  | @writeItem m fuel container index value store _ _ done =>
    have hsame := m.store.scopes_writeItem fuel container index value
    rw [done] at hsame
    exact Store.keepsConstants_of_scopes_eq hsame
  | @writeField m id name value store _ done =>
    have hsame := m.store.scopes_writeField id name value
    rw [done] at hsame
    exact Store.keepsConstants_of_scopes_eq hsame
  | @callMethod m fuel method receiver result arguments store _ done =>
    have hsame := m.store.scopes_callMethod fuel method receiver arguments
    rw [done] at hsame
    exact Store.keepsConstants_of_scopes_eq hsame
  | print | read => exact .refl _
  | @block m _ _ ih => exact (Store.keepsConstants_newScope m.store _).trans ih
  | @call m _ _ _ _ bindings closure _ _ _ _ _ ih =>
    exact (Store.keepsConstants_newScope m.store _).trans ih

/-! ## States that follow each other -/

/-- How one state follows another: a run goes on, enters a block or a call, or goes on in another
scope, or the host assigns to a variable or changes the bounds of the run. -/
inductive Step : Machine → Machine → Prop where
  | evolve {m m' : Machine} (h : m.Evolves m') : Step m m'
  | enterBlock (m : Machine) : Step m m.enterBlock
  | enterCall {m : Machine} {decl : Func} {this : Option Value} {arguments : List Value}
      {bindings : Bindings} {closure : ScopeId}
      (knownArguments : ∀ v ∈ arguments, m.store.Knows v)
      (knownThis : ∀ v, this = some v → m.store.Knows v)
      (knownScope : closure.index < m.store.scopes.size)
      (bound : m.store.frame decl this arguments = .ok bindings) :
      Step m (m.enterCall bindings closure)
  | focus {m : Machine} {scope : ScopeId} (depth : Nat)
      (known : scope.index < m.store.scopes.size) : Step m { m with scope, depth }
  | assign {m : Machine} (scope : ScopeId) (name : String) {value : Value} (span : Span)
      (known : m.store.Knows value) :
      Step m ((Exec.update span fun s => s.assign scope name value).after m)
  | settings {m : Machine} (maxDepth : Nat) (answers : List String) (transcript : Array Event)
      (cancellation : Cancellation) :
      Step m { m with maxDepth, answers, transcript, cancellation }

/-- The states that follow a state, and the state itself. -/
def Later : Machine → Machine → Prop := Relation.ReflTransGen Step

theorem Step.reachable (h : m.Step m') (hm : m.Reachable) : m'.Reachable := by
  cases h with
  | evolve hev => exact hm.operation hev
  | enterBlock => exact hm.enterBlock
  | enterCall knownArguments knownThis knownScope bound =>
    exact hm.enterCall knownArguments knownThis knownScope bound
  | focus depth known => exact hm.focus depth known
  | assign scope name span known => exact hm.assign scope name span known
  | settings maxDepth answers transcript cancellation =>
    exact hm.settings maxDepth answers transcript cancellation

theorem Step.constants (h : m.Step m') : m.store.KeepsConstants m'.store := by
  cases h with
  | evolve hev => exact hev.constants
  | enterBlock => exact Store.keepsConstants_newScope m.store _
  | enterCall => exact Store.keepsConstants_newScope m.store _
  | focus | settings => exact .refl m.store
  | assign scope name span _ =>
    exact after_update (P := fun later => m.store.KeepsConstants later.store) (.refl m.store)
      (fun _ _ hdone => Store.keepsConstants_assign hdone) fun _ _ => Store.assign_eq_error

theorem Later.reachable (h : m.Later later) (hm : m.Reachable) : later.Reachable := by
  induction h with
  | refl => exact hm
  | tail _ hstep ih => exact hstep.reachable ih

theorem Later.constants (h : m.Later later) : m.store.KeepsConstants later.store := by
  induction h with
  | refl => exact .refl m.store
  | tail _ hstep ih => exact ih.trans hstep.constants

/-- **The states that can be reached are those that follow a fresh one.** -/
theorem reachable_iff :
    m.Reachable ↔ ∃ maxDepth answers cancellation,
      Later (Machine.initial maxDepth answers cancellation) m := by
  constructor
  · have htail : ∀ {a b : Machine},
        (∃ maxDepth answers cancellation, Later (Machine.initial maxDepth answers cancellation) a) →
        a.Step b →
        ∃ maxDepth answers cancellation, Later (Machine.initial maxDepth answers cancellation) b :=
      fun ⟨maxDepth, answers, cancellation, hlater⟩ hstep =>
        ⟨maxDepth, answers, cancellation, Relation.ReflTransGen.tail hlater hstep⟩
    intro h
    -- Actions of the evaluator evolve the state because every reachable state is closed.
    induction h with
    | start maxDepth answers cancellation => exact ⟨maxDepth, answers, cancellation, .refl⟩
    | program h fuel statements ih =>
      exact htail ih (.evolve (execute_evolves fuel statements h.sound.closed).after)
    | statement h fuel s ih =>
      exact htail ih (.evolve (s.execute_evolves (invoke_evolves fuel) _ h.sound.closed).after)
    | expression h fuel e ih =>
      exact htail ih (.evolve (e.evaluate_evolves (invoke_evolves fuel) _ h.sound.closed).after)
    | call h fuel span known knownArguments ih =>
      exact htail ih (.evolve
        (invoke_evolves fuel _ _ span _ h.sound.closed known knownArguments).after)
    | enterBlock _ ih => exact htail ih (.enterBlock _)
    | enterCall _ knownArguments knownThis knownScope bound ih =>
      exact htail ih (.enterCall knownArguments knownThis knownScope bound)
    | focus _ depth known ih => exact htail ih (.focus depth known)
    | assign _ scope name span known ih => exact htail ih (.assign scope name span known)
    | @writeField m _ id name value span known ih =>
      refine htail ih (.evolve ?_)
      exact after_update (P := fun later => m.Evolves later) (.refl m)
        (fun _ _ hdone => .writeField known hdone) fun _ _ => Store.writeField_eq_error
    | operation _ step ih => exact htail ih (.evolve step)
    | settings _ maxDepth answers transcript cancellation ih =>
      exact htail ih (.settings maxDepth answers transcript cancellation)
  · rintro ⟨maxDepth, answers, cancellation, hlater⟩
    exact hlater.reachable (.start maxDepth answers cancellation)

/-! ## Statements -/

/-- **Declarations stay in their scope and constants never change.** However a statement ends, the
scopes that were there before are still there. Each of them other than the current one holds the
same names with the same types, and so does the current one except for the name that the statement
declares. A constant has the same value in the state after the statement and in all states that
follow. -/
theorem Reachable.declarations (h : m.Reachable) :
    (∀ (calls fuel : Nat) (s : Stmt),
      m.store.scopes.size ≤ ((s.execute (invoke calls) fuel).after m).store.scopes.size ∧
      (∀ id : ScopeId, id.index < m.store.scopes.size → id ≠ m.scope → ∀ name,
        ((s.execute (invoke calls) fuel).after m).store.slot id name = m.store.slot id name) ∧
      (∀ name, name ∉ s.declared →
        ((s.execute (invoke calls) fuel).after m).store.slot m.scope name =
          m.store.slot m.scope name) ∧
      m.Later ((s.execute (invoke calls) fuel).after m)) ∧
    ∀ later, m.Later later → later.Reachable ∧
      ∀ id name binding, (m.store.scope id).bindings.get? name = some binding →
        binding.constant = true → (later.store.scope id).bindings.get? name = some binding := by
  refine ⟨fun calls fuel s => ?_, fun later hlater => ⟨hlater.reachable h, hlater.constants⟩⟩
  have hkeeps : m.Keeps (· ∈ s.declared) ((s.execute (invoke calls) fuel).after m) :=
    (s.execute_composed (invoke_composed calls) fun _ hname => hname).keeps_after m
  refine ⟨hkeeps.scopes, fun id hid hne name => ?_, fun name hname => ?_, ?_⟩
  · exact hkeeps.slots id name hid fun heq => absurd heq hne
  · exact hkeeps.slots m.scope name h.sound.closed.scope fun _ => hname
  · have hev : Exec.Evolves m (s.execute (invoke calls) fuel) Signal.Known :=
      s.execute_evolves (invoke_evolves calls) m h.sound.closed
    exact .single (.evolve hev.after)

/-- A constant, and a function that declares a variable of the same name. -/
def constantAndFunction : List Stmt :=
  [.declare true .string "x" (some (.string "kept" {})) {},
    .function ⟨"f", [], .void, [.declare false .boolean "x" none {}], {}⟩ {}]

/-- A call of the function leaves the constant alone, here and later. -/
theorem declarations_constantAndFunction :
    ((execute 5 constantAndFunction).after (Machine.initial 200 [] .never)).Reachable ∧
      ((Stmt.eval (.call (.name "f" {}) [] {}) {}).execute (invoke 5) 5 |>.after
        ((execute 5 constantAndFunction).after (Machine.initial 200 [] .never))).store.slot
          Store.globals "x" = some (.string, true) ∧
      ∀ later, ((execute 5 constantAndFunction).after (Machine.initial 200 [] .never)).Later later →
        (later.store.scope Store.globals).bindings.get? "x" =
          some ⟨.string "kept", .string, true⟩ := by
  have hreach : ((execute 5 constantAndFunction).after (Machine.initial 200 [] .never)).Reachable :=
    .program (.start 200 [] .never) 5 constantAndFunction
  obtain ⟨hstatement, hlater⟩ := hreach.declarations
  obtain ⟨-, -, hslots, -⟩ := hstatement 5 5 (Stmt.eval (.call (.name "f" {}) [] {}) {})
  have hx : (((execute 5 constantAndFunction).after (Machine.initial 200 [] .never)).store.scope
      Store.globals).bindings.get? "x" = some ⟨.string "kept", .string, true⟩ := by
    with_unfolding_all rfl
  refine ⟨hreach, ?_, fun later h => (hlater later h).2 _ _ _ hx rfl⟩
  refine (hslots "x" List.not_mem_nil).trans ?_
  with_unfolding_all rfl

end Machine

end Chalk
