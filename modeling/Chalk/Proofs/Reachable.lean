import Chalk.Proofs.Typing

/-!
# Reachable states

The states that a host and its programs can bring about, from a fresh one: whole programs, single
statements, expressions and calls, whether they succeed or fail, the blocks and calls that they are
in the middle of, and the operations that a host performs on the objects in between. A host can only
use values and scopes that exist, so those are known to the store.

## Main definitions

* `Machine.Reachable` — the reachable states

## Main results

* `Machine.Reachable.sound` — reachable states have no dangling references and keep to the declared
  types
* `Machine.Reachable.typed_and_returns` — the same of variables, fields and the results of calls
-/

namespace Chalk

/-- The states that can be reached from a fresh one. -/
inductive Machine.Reachable : Machine → Prop where
  | start (maxDepth : Nat) (answers : List String) (cancellation : Cancellation) :
      Reachable (Machine.initial maxDepth answers cancellation)
  /-- A program was run, and has ended or failed. -/
  | program {m : Machine} (h : Reachable m) (fuel : Nat) (statements : List Stmt) :
      Reachable ((execute fuel statements).after m)
  | statement {m : Machine} (h : Reachable m) (fuel : Nat) (s : Stmt) :
      Reachable ((s.execute (invoke fuel) fuel).after m)
  | expression {m : Machine} (h : Reachable m) (fuel : Nat) (e : Expr) :
      Reachable ((e.evaluate (invoke fuel) fuel).after m)
  | call {m : Machine} (h : Reachable m) (fuel : Nat) {callable : Callable}
      {arguments : List Value} (span : Span) (known : m.store.KnowsCallable callable)
      (knownArguments : ∀ v ∈ arguments, m.store.Knows v) :
      Reachable ((invoke fuel callable arguments span).after m)
  /-- A block or a call has been entered and its statements are being executed. -/
  | enterBlock {m : Machine} (h : Reachable m) : Reachable m.enterBlock
  | enterCall {m : Machine} (h : Reachable m) {decl : Func} {this : Option Value}
      {arguments : List Value} {bindings : Bindings} {closure : ScopeId}
      (knownArguments : ∀ v ∈ arguments, m.store.Knows v)
      (knownThis : ∀ v, this = some v → m.store.Knows v)
      (knownScope : closure.index < m.store.scopes.size)
      (bound : m.store.frame decl this arguments = .ok bindings) :
      Reachable (m.enterCall bindings closure)
  /-- Execution goes on in another scope, as after a block or a call. -/
  | focus {m : Machine} (h : Reachable m) {scope : ScopeId} (depth : Nat)
      (known : scope.index < m.store.scopes.size) : Reachable { m with scope, depth }
  /-- The host assigned to a variable of some scope, or tried to. -/
  | assign {m : Machine} (h : Reachable m) (scope : ScopeId) (name : String) {value : Value}
      (span : Span) (known : m.store.Knows value) :
      Reachable ((Exec.update span fun s => s.assign scope name value).after m)
  /-- The host wrote a field of an instance, or tried to. -/
  | writeField {m : Machine} (h : Reachable m) (id : InstanceId) (name : String) {value : Value}
      (span : Span) (known : m.store.Knows value) :
      Reachable ((Exec.update span fun s => s.writeField id name value).after m)
  /-- The host did something else that a program could have done in its place. -/
  | operation {m m' : Machine} (h : Reachable m) (step : m.Evolves m') : Reachable m'
  /-- The host supplied answers, collected the transcript or changed the bounds of the run. -/
  | settings {m : Machine} (h : Reachable m) (maxDepth : Nat) (answers : List String)
      (transcript : Array Event) (cancellation : Cancellation) :
      Reachable { m with maxDepth, answers, transcript, cancellation }

theorem Exec.Evolves.after {α : Type} {m : Machine} {x : Exec α} {val : α → Store → Prop}
    (h : Exec.Evolves m x val) : m.Evolves (x.after m) :=
  Meets.after h (fun _ _ h' => h'.1) fun _ _ h' => h'

namespace Machine

variable {m : Machine}

/-- An operation of the host keeps what its successes keep, if its failures change nothing. -/
theorem after_update {α : Type} {span : Span} {f : Store → Outcome α} {P : Machine → Prop}
    (hm : P m) (hok : ∀ a s, f m.store = .ok a s → P { m with store := s })
    (herror : ∀ e s, f m.store = .error e s → s = m.store) :
    P ((Exec.update span f).after m) := by
  have hmeets : Exec.Meets m (Exec.update span f) (fun _ m' => P m') fun _ m' => P m' := by
    refine Exec.meets_update hok fun e s h => ?_
    rw [herror e s h]
    exact hm
  exact hmeets.after (fun _ _ h => h) fun _ _ h => h

/-- A closed state whose store keeps to the declared types. -/
structure Sound (m : Machine) : Prop where
  closed : m.Closed
  typed : m.store.Typed

theorem Sound.evolves {m' : Machine} (hm : m.Sound) (h : m.Evolves m') : m'.Sound :=
  ⟨h.closed hm.closed, h.typed hm.closed hm.typed⟩

/-- **Every reachable state is sound**: each way of reaching one evolves the state, or changes one
variable or field after checking the type, or leaves the objects alone. -/
theorem Reachable.sound (h : m.Reachable) : m.Sound := by
  induction h with
  | start maxDepth answers cancellation =>
    exact ⟨closed_initial maxDepth answers cancellation, Store.typed_initial⟩
  | program _ fuel statements hm =>
    exact hm.evolves (execute_evolves fuel statements hm.closed).after
  | statement _ fuel s hm =>
    exact hm.evolves (s.execute_evolves (invoke_evolves fuel) _ hm.closed).after
  | expression _ fuel e hm =>
    exact hm.evolves (e.evaluate_evolves (invoke_evolves fuel) _ hm.closed).after
  | call _ fuel span known knownArguments hm =>
    exact hm.evolves (invoke_evolves fuel _ _ span _ hm.closed known knownArguments).after
  | enterBlock _ hm => exact ⟨hm.closed.enterBlock, typed_enterBlock hm.closed hm.typed⟩
  | enterCall _ knownArguments knownThis knownScope bound hm =>
    exact ⟨hm.closed.enterCall knownScope (knows_frame knownArguments knownThis bound),
      typed_enterCall hm.closed hm.typed _ knownArguments knownThis bound⟩
  | focus _ depth known hm => exact ⟨⟨hm.closed.store, known⟩, hm.typed⟩
  | assign _ scope name span known hm =>
    refine after_update hm (fun _ s hdone => ⟨?_, ?_⟩) fun _ _ => Store.assign_eq_error
    · exact hm.closed.ofStore (hm.closed.store.assign known hdone) (Store.extends_assign hdone)
    · exact hm.typed.assign hm.closed.store known hdone
  | writeField _ id name span known hm =>
    refine after_update hm (fun _ s hdone => ⟨?_, ?_⟩) fun _ _ => Store.writeField_eq_error
    · exact hm.closed.ofStore (hm.closed.store.writeField known hdone)
        (Store.extends_writeField hdone)
    · exact hm.typed.writeField hm.closed.store known hdone
  | operation _ step hm => exact hm.evolves step
  | settings _ _ _ _ _ hm => exact ⟨⟨hm.closed.store, hm.closed.scope⟩, hm.typed⟩

/-- **Declared types are kept.** In every reachable state each variable holds a value of its type,
and each instance has exactly the fields that its class declares, with the type of the last
declaration and a value of that type. From there, every call of a function or method that succeeds
gives back null if nothing is declared, and otherwise a value of the declared type; this includes
the initializers that a class calls and every call from within a body, however the body is run. -/
theorem Reachable.typed_and_returns (h : m.Reachable) :
    m.store.Typed ∧
      (∀ fuel callable decl arguments span v m', m.store.declaration? callable = some decl →
        invoke fuel callable arguments span m = .ok v m' → m'.store.Returns decl v) ∧
      ∀ run decl closure this arguments span v m',
        callFunction run decl closure this arguments span m = .ok v m' →
          m'.store.Returns decl v := by
  refine ⟨h.sound.typed, ?_, ?_⟩
  · intro fuel callable decl arguments span v m' hdecl hcall
    exact (invoke_returns hdecl fuel arguments span).ok hcall
  · intro run decl closure this arguments span v m' hcall
    exact (callFunction_returns run decl closure this arguments span m).ok hcall

/-- A class that declares a field twice, an instance of it, and a value for the field. -/
def repeatedField : List Stmt :=
  [.classDef ⟨"Point", [⟨"x", .number, {}⟩, ⟨"x", .string, {}⟩], [], {}⟩ {},
    .declare false (.named "Point") "p" (some (.call (.name "Point" {}) [] {})) {},
    .assign (.field (.name "p" {}) "x") (.string "far" {}) {}]

theorem typed_repeatedField :
    ((execute 10 repeatedField).after (Machine.initial 200 [] .never)).Reachable ∧
      ((execute 10 repeatedField).after (Machine.initial 200 [] .never)).store.Typed ∧
      ((execute 10 repeatedField).after (Machine.initial 200 [] .never)).store.instances =
        #[⟨⟨0⟩, [("x", ⟨.string, .string "far"⟩)]⟩] := by
  have hreach : ((execute 10 repeatedField).after (Machine.initial 200 [] .never)).Reachable :=
    .program (.start 200 [] .never) 10 repeatedField
  refine ⟨hreach, (Reachable.typed_and_returns hreach).1, ?_⟩
  with_unfolding_all rfl

end Machine

end Chalk
