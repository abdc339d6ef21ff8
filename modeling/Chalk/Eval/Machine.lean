import Chalk.Fault
import Chalk.Store.Scope

/-!
# The state of a run

A run reads a list of answers, leaves a transcript of what it printed and asked, and can be
cancelled from outside. `Machine` is its whole state, and an `Exec` is an action on it that ends
with a result or a failure; a failure keeps the state reached so far.

## Main definitions

* `Event`, `Cancellation`, `Machine` — what a run shows, when it has to stop, and its state
* `Exec` — actions
* `Exec.within` — an action in another scope, left in every case
-/

namespace Chalk

/-- What a run shows to the outside. -/
inductive Event where
  | print (text : String)
  | read (prompt : String)
deriving DecidableEq, Inhabited

/-- When a run has to stop. `after n` asks it to stop once `n` more texts have been printed. -/
inductive Cancellation where
  | never
  | after (prints : Nat)
deriving DecidableEq, Inhabited

namespace Cancellation

/-- Whether the run has to stop now. -/
def isSet : Cancellation → Bool
  | after 0 => true
  | _ => false

/-- The rule after one more printed text. -/
def tick : Cancellation → Cancellation
  | after (n + 1) => after n
  | other => other

end Cancellation

/-- The state of a run: the objects, the current scope, the number of calls that have not ended and
the most there may be, the answers still to be read, the transcript so far, and when to stop. -/
structure Machine where
  store : Store
  scope : ScopeId := Store.globals
  depth : Nat := 0
  maxDepth : Nat
  answers : List String
  transcript : Array Event := #[]
  cancellation : Cancellation := .never
deriving Inhabited

/-- The store of a fresh run: one scope, which holds the built-in functions as constants. -/
def Store.initial : Store :=
  let binding (f : Native) : String × Binding :=
    (f.name, { value := .callable (.native f), tag := .function, constant := true })
  { scopes := #[{ bindings := Native.all.map binding }] }

/-- The state of a fresh run. -/
def Machine.initial (maxDepth : Nat) (answers : List String)
    (cancellation : Cancellation := .never) : Machine :=
  { store := Store.initial, maxDepth, answers, cancellation }

/-- An action of a run. -/
abbrev Exec := EStateM (Failure RuntimeError) Machine

namespace Exec

/-! ## Faults -/

/-- Ends with a fault at a place. -/
def fault (f : Fault) (span : Span) : Exec α := throw (.fault ⟨f, span⟩)

/-- The result of an operation on the store, which fails at the given place. -/
def liftAt (span : Span) : Except (Failure Fault) α → Exec α
  | .ok a => return a
  | .error failure => throw (failure.at span)

/-! ## The store -/

/-- The current store. -/
def store : Exec Store := do return (← get).store

/-- An operation on the store that always gives a result. -/
def alter (f : Store → α × Store) : Exec α := fun m =>
  match m with
  | ⟨store, scope, depth, maxDepth, answers, transcript, cancellation⟩ =>
    let (a, store) := f store
    .ok a ⟨store, scope, depth, maxDepth, answers, transcript, cancellation⟩

/-- An operation that reads the store. -/
def query (span : Span) (f : Store → Except (Failure Fault) α) : Exec α := do
  liftAt span (f (← store))

/-- An operation that may change the store, which fails at the given place. -/
def update (span : Span) (f : Store → Outcome α) : Exec α := fun m =>
  match m with
  | ⟨store, scope, depth, maxDepth, answers, transcript, cancellation⟩ =>
    match f store with
    | .ok a store => .ok a ⟨store, scope, depth, maxDepth, answers, transcript, cancellation⟩
    | .error failure store =>
      .error (failure.at span)
        ⟨store, scope, depth, maxDepth, answers, transcript, cancellation⟩

/-! ## Scopes and calls -/

/-- An action in another scope. The current scope is restored however the action ends. -/
def within (scope : ScopeId) (action : Exec α) : Exec α := fun m =>
  match action { m with scope } with
  | .ok a after => .ok a { after with scope := m.scope }
  | .error failure after => .error failure { after with scope := m.scope }

/-- An action in a fresh scope inside the current one. -/
def inBlock (action : Exec α) : Exec α := do
  let outer := (← get).scope
  let scope ← alter fun s => s.childScope outer
  within scope action

/-- An action one call deeper. However it ends, one call less is active then. -/
def deeper (action : Exec α) : Exec α := fun m =>
  match action { m with depth := m.depth + 1 } with
  | .ok a after => .ok a { after with depth := after.depth - 1 }
  | .error failure after => .error failure { after with depth := after.depth - 1 }

/-! ## Input, output and cancellation -/

/-- Prints a text. -/
def print (text : String) : Exec Unit :=
  modify fun m =>
    { m with transcript := m.transcript.push (.print text), cancellation := m.cancellation.tick }

/-- Shows a prompt and takes the next answer, which is empty once there are none left. -/
def read (prompt : String) : Exec String :=
  modifyGet fun m =>
    (m.answers.headD "",
      { m with transcript := m.transcript.push (.read prompt), answers := m.answers.tail })

/-- Ends the run if it has to stop. -/
def checkCancelled (span : Span) : Exec Unit := do
  if (← get).cancellation.isSet then fault .cancelled span

/-! ## Repetition -/

/-- Repeats an action until it gives a result, at most `fuel` times. -/
def iterate (turn : Exec (Option α)) : Nat → Exec α
  | 0 => throw .outOfFuel
  | fuel + 1 => do
    match ← turn with
    | some result => return result
    | none => iterate turn fuel

end Exec

end Chalk
