import Chalk.Proofs.Composition

/-!
# Scripts

An action is a function on states, and nothing of what goes on inside it can be asked for: which
comparisons it makes, which calls are open in between, which loops it has entered. A `Script` is the
same action as a tree. Its leaves are steps, each of which is one operation of a run, and its nodes
say where a statement, a turn of a loop, a block or a call begins.

A script mentions no budget. Budgets come in when it is performed: comparisons and loops take theirs
from `fuel`, and calls are left to an `Invoke`.

## Main definitions

* `Operation` — operations on lists, dicts and instances, with what all of them have in common
* `Step`, `Step.perform` — the operations of a run
* `Activation` — whose body a call runs
* `Script`, `Script.perform` — actions as trees

## Main results

* `Script.perform_composed` — what a script performs is composed of the operations of a run
-/

namespace Chalk

/-! ## Operations on objects -/

/-- A fault that the program causes. The other failures are the end of a budget, a list in use, and
the request to stop. -/
def Failure.Ordinary : Failure Fault → Prop
  | .fault f => f ≠ .cancelled
  | _ => False

/-- The scopes, functions and classes of two stores are the same. -/
structure Store.SameCode (s t : Store) : Prop where
  scopes : t.scopes = s.scopes
  functions : t.functions = s.functions
  classes : t.classes = s.classes

theorem Store.sameCode_writeElement (s : Store) (id : ListId) (index value : Value) :
    s.SameCode (s.writeElement id index value).store := by
  rw [writeElement.eq_def]
  repeat' split
  all_goals exact ⟨rfl, rfl, rfl⟩

/-- An operation on lists, dicts and instances. It leaves everything else as it is, and fails only
with a fault that the program causes. -/
structure Operation (α : Type) where
  apply : Store → Outcome α
  same : ∀ s : Store, s.SameCode (apply s).store
  ordinary : ∀ {s t : Store} {f : Failure Fault}, apply s = .error f t → f.Ordinary

namespace Operation

variable {α : Type}

/-- The result of an operation that reads the store, which stays as it is. -/
def ofExcept (s : Store) : Except (Failure Fault) α → Outcome α
  | .ok a => .ok a s
  | .error f => .error f s

/-- An operation that reads the store. -/
def query (f : Store → Except (Failure Fault) α)
    (ordinary : ∀ s e, f s = .error e → e.Ordinary) : Operation α where
  apply s := ofExcept s (f s)
  same s := by cases f s <;> exact ⟨rfl, rfl, rfl⟩
  ordinary {s t e} h := by
    cases hf : f s with
    | ok a => rw [hf] at h; cases h
    | error e' =>
      rw [hf] at h
      cases h
      exact ordinary s e hf

/-- An operation that always gives a result. -/
def alter (f : Store → α × Store) (same : ∀ s : Store, s.SameCode (f s).2) : Operation α where
  apply s := .ok (f s).1 (f s).2
  same := same
  ordinary h := nomatch h

theorem update_query (span : Span) (f : Store → Except (Failure Fault) α)
    (ordinary : ∀ s e, f s = .error e → e.Ordinary) :
    Exec.update span (query f ordinary).apply = Exec.query span f := by
  funext m
  show Exec.update span (fun s => ofExcept s (f s)) m = Exec.liftAt span (f m.store) m
  cases hf : f m.store with
  | ok a => simp only [Exec.update, hf, ofExcept]; rfl
  | error e => simp only [Exec.update, hf, ofExcept]; rfl

end Operation

/-! ## Steps -/

/-- One operation of a run. The comparison of two values is the only one that needs a budget, and
the write to an element of a list the only one that can find a list in use. -/
inductive Step : Type → Type 1 where
  | operate {α : Type} (span : Span) (op : Operation α) : Step α
  | write (id : ListId) (index value : Value) (span : Span) : Step Unit
  | compare (left right : Value) : Step Bool
  | fetch (name : String) (span : Span) : Step Value
  | this (span : Span) : Step Value
  | define (name : String) (binding : Binding) (span : Span) : Step Unit
  | assign (name : String) (value : Value) (span : Span) : Step Unit
  | newFunction (decl : Func) : Step FunctionId
  | newClass (decl : Class) : Step ClassId
  | print (text : String) : Step Unit
  | read (prompt : String) : Step String

/-- The comparison of two values, with a budget. -/
def Exec.compare (fuel : Nat) (left right : Value) : Exec Bool := do
  match (← store).equal? fuel left right with
  | some answer => return answer
  | none => throw .outOfFuel

theorem Exec.bind_eq_of_error {α β : Type} {m m' : Machine} {x : Exec β} {f : β → Exec α}
    {failure : Failure RuntimeError} (h : x m = .error failure m') :
    (x >>= f) m = .error failure m' := by
  show EStateM.bind x f m = .error failure m'
  rw [EStateM.bind, h]

theorem Exec.query_bind_apply {α β : Type} (span : Span) (f : Store → Except (Failure Fault) β)
    (g : β → Exec α) (m : Machine) :
    (query span f >>= g) m =
      match f m.store with
      | .ok b => g b m
      | .error e => .error (e.at span) m := by
  show (liftAt span (f m.store) >>= g) m = _
  cases f m.store <;> rfl

theorem Exec.compare_apply (fuel : Nat) (left right : Value) (m : Machine) :
    compare fuel left right m =
      match m.store.equal? fuel left right with
      | some answer => .ok answer m
      | none => .error .outOfFuel m := by
  show (match m.store.equal? fuel left right with
    | some answer => (pure answer : Exec Bool)
    | none => throw Failure.outOfFuel) m = _
  cases m.store.equal? fuel left right <;> rfl

theorem Exec.compare_of_some {fuel : Nat} {left right : Value} {m : Machine} {answer : Bool}
    (h : m.store.equal? fuel left right = some answer) :
    compare fuel left right m = .ok answer m := by
  rw [compare_apply, h]

theorem Exec.compare_of_none {fuel : Nat} {left right : Value} {m : Machine}
    (h : m.store.equal? fuel left right = none) :
    compare fuel left right m = .error .outOfFuel m := by
  rw [compare_apply, h]

/-- The value of a name in the current scope. -/
def Exec.fetch (name : String) (span : Span) : Exec Value := do
  let m ← get
  liftAt span (m.store.getVariable m.scope name)

/-- Performs a step. -/
def Step.perform (fuel : Nat) {α : Type} : Step α → Exec α
  | .operate span op => Exec.update span op.apply
  | .write id index value span => Exec.update span fun s => s.writeElement id index value
  | .compare left right => Exec.compare fuel left right
  | .fetch name span => Exec.fetch name span
  | .this span => Exec.fetch "this" span
  | .define name binding span => Exec.define name binding span
  | .assign name value span => do
    let scope := (← get).scope
    Exec.update span fun s => s.assign scope name value
  | .newFunction decl => do
    let scope := (← get).scope
    Exec.alter fun s => s.newFunction { decl, scope }
  | .newClass decl => do
    let scope := (← get).scope
    Exec.alter fun s => s.newClass { decl, scope }
  | .print text => Exec.print text
  | .read prompt => Exec.read prompt

/-! ## Scripts -/

/-- What decides whether a loop goes on, if the loop has a condition or not. -/
def Exec.decides (conditional : Bool) (condition : Exec Bool) : Exec Bool :=
  if conditional then condition else pure true

/-- Whose body a call runs: that of a function, or that of a method for a receiver. -/
inductive Activation where
  | function (id : FunctionId)
  | method (receiver : InstanceId)
deriving DecidableEq, Inhabited

/-- What `this` is bound to in the scope of a call. -/
def Activation.this? : Activation → Option Value
  | function _ => none
  | method receiver => some (.instance receiver)

/-- The scope that the body of a call was declared in. -/
def Store.closure (s : Store) : Activation → ScopeId
  | .function id => (s.function id).scope
  | .method receiver =>
    match s.instance? receiver with
    | some object => (s.classObject object.owner).scope
    | none => globals

/-- Actions as trees.

* `look` reads the current scope and the store.
* `statement` is a statement of the program itself, and `turn` a turn of a loop. A turn is
  conditional or not, which says whether the condition counts; its body is a block, and the
  increment follows if the loop goes on.
* `call` leaves a call to an `Invoke`; `inCall` is the part of it that binds `this` and the
  parameters and runs a body. -/
inductive Script : Type → Type 1 where
  | pure {α : Type} (a : α) : Script α
  | bind {α β : Type} (x : Script β) (f : β → Script α) : Script α
  | look {α : Type} (next : ScopeId → Store → Script α) : Script α
  | step {α : Type} (step : Step α) : Script α
  | statement {α : Type} (s : Stmt) (x : Script α) : Script α
  | loop (turn : Script (Option Signal)) : Script Signal
  | turn (span : Span) (conditional : Bool) (condition : Script Bool)
      (body increment : Script Signal) : Script (Option Signal)
  | inBlock {α : Type} (x : Script α) : Script α
  | call (callable : Callable) (arguments : List Value) (span : Span) : Script Value
  | inCall {α : Type} (activation : Activation) (decl : Func) (arguments : List Value) (span : Span)
      (body : Script α) : Script α

instance : Monad Script where
  pure := Script.pure
  bind := Script.bind

namespace Script

/-- Performs a script. -/
def perform (invoke : Invoke) (fuel : Nat) {α : Type} : Script α → Exec α
  | .pure a => Pure.pure a
  | .bind x f => x.perform invoke fuel >>= fun b => (f b).perform invoke fuel
  | .look next => do
    let m ← get
    (next m.scope m.store).perform invoke fuel
  | .step s => s.perform fuel
  | .statement s x => do
    Exec.checkCancelled s.span
    x.perform invoke fuel
  | .loop x => Exec.iterate (x.perform invoke fuel) fuel
  | .turn span conditional condition body increment => do
    Exec.checkCancelled span
    if ← Exec.decides conditional (condition.perform invoke fuel) then
      match (← Exec.inBlock (body.perform invoke fuel)).afterBody with
      | some signal => return some signal
      | none =>
        let _ ← increment.perform invoke fuel
        return none
    else return some .normal
  | .inBlock x => Exec.inBlock (x.perform invoke fuel)
  | .call callable arguments span => invoke callable arguments span
  | .inCall activation decl arguments span body => do
    let s ← Exec.store
    Exec.inCall span (fun s => s.frame decl activation.this? arguments) (s.closure activation)
      (body.perform invoke fuel)

variable {α : Type} {invoke : Invoke} {fuel : Nat}

/-! ## Scripts of single operations -/

/-- An operation that reads the store. -/
def query (span : Span) (f : Store → Except (Failure Fault) α)
    (ordinary : ∀ s e, f s = .error e → e.Ordinary) : Script α :=
  step (.operate span (.query f ordinary))

theorem perform_query (span : Span) (f : Store → Except (Failure Fault) α)
    {ordinary : ∀ s e, f s = .error e → e.Ordinary} :
    (query span f ordinary).perform invoke fuel = Exec.query span f :=
  Operation.update_query span f ordinary

/-- Ends with a fault, whose wording may depend on the store. -/
def fault (span : Span) (f : Store → Fault) (ordinary : ∀ s, f s ≠ .cancelled := by nofun) :
    Script α :=
  query span (fun s => .error (.fault (f s))) fun s _ h => by cases h; exact ordinary s

/-- An operation that always gives a result. -/
def alter (f : Store → α × Store)
    (same : ∀ s : Store, s.SameCode (f s).2 := by exact fun _ => ⟨rfl, rfl, rfl⟩) : Script α :=
  step (.operate {} (.alter f same))

/-! ## What scripts are composed of -/

theorem composed_step {names : String → Prop} (hnames : ∀ name, names name) (step : Step α) :
    Exec.Composed names (step.perform fuel) := by
  cases step with
  | operate span op => exact .update fun s => (op.same s).scopes
  | write id index value span => exact .update fun s => s.scopes_writeItem 0 (.list id) index value
  | compare left right =>
    refine .store_bind fun s => ?_
    split
    · exact .pure _
    · exact .throw _
  | fetch name span =>
    exact .look (f := fun scope s => Exec.liftAt span (s.getVariable scope name))
      fun _ _ => .liftAt span _
  | this span =>
    exact .look (f := fun scope s => Exec.liftAt span (s.getVariable scope "this"))
      fun _ _ => .liftAt span _
  | define name binding span => exact .define (hnames name)
  | assign name value span =>
    exact .look (f := fun scope _ => Exec.update span fun s => s.assign scope name value)
      fun _ _ => .assign
  | newFunction decl =>
    exact .look (f := fun scope _ => Exec.alter fun s => s.newFunction { decl, scope })
      fun _ _ => .alter fun _ => rfl
  | newClass decl =>
    exact .look (f := fun scope _ => Exec.alter fun s => s.newClass { decl, scope })
      fun _ _ => .alter fun _ => rfl
  | print text => exact .print text
  | read prompt => exact .read prompt

/-- **What a script performs is composed of the operations of a run.** -/
theorem perform_composed (hinv : invoke.Composed) (x : Script α) :
    Exec.Composed (fun _ => True) (x.perform invoke fuel) := by
  induction x with
  | pure a => exact .pure a
  | bind _ _ ihx ihf => exact .bind ihx ihf
  | look next ih =>
    exact .look (f := fun scope s => (next scope s).perform invoke fuel) ih
  | step step => exact composed_step (fun _ => trivial) step
  | statement s _ ih => exact .bind (.checkCancelled s.span) fun _ => ih
  | loop _ ih => exact ih.iterate fuel
  | turn span conditional condition _ _ ihc ihb ihi =>
    have hdecides : Exec.Composed (fun _ => True)
        (Exec.decides conditional (condition.perform invoke fuel)) := by
      cases conditional with
      | true => exact ihc
      | false => exact .pure _
    refine .bind (.checkCancelled span) fun _ => .bind hdecides fun goOn => ?_
    split
    · refine .bind (.inBlock ihb) fun signal => ?_
      split
      · exact .pure _
      · exact .bind ihi fun _ => .pure _
    · exact .pure _
  | inBlock _ ih => exact .inBlock ih
  | call callable arguments span => exact hinv _ callable arguments span
  | inCall _ _ _ _ _ ih => exact .store_bind fun _ => .inCall ih

end Script

end Chalk
