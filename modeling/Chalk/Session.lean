import Chalk.Eval.Call
import Chalk.Program.Parser
import Chalk.Token.Lexer

/-!
# Sessions

A session runs several sources one after the other on the same state: what one source declares,
the next can use, and a failure does not end the session. Sources are not checked for violations.
Between sources the host can look at variables and change them.

## Main definitions

* `Session`, `Session.start` — a state kept between sources
* `Session.run` — one more source
* `Session.assign`, `Session.writeField`, `Session.callMethod`, `Session.callInput` — changes made
  by the host
* `Session.cancel`, `Session.renew` — the switch that stops a session
-/

namespace Chalk

/-- What can go wrong with a source of a session. -/
inductive SourceError where
  | lex (error : LexError)
  | parse (error : ParseError)
  | runtime (error : RuntimeError)
deriving DecidableEq, Inhabited

/-- A state that is kept between sources. `attached` says that the state still listens to the
switch that was installed at the start. -/
structure Session where
  machine : Machine
  attached : Bool := true
deriving Inhabited

namespace Session

/-- A fresh session. -/
def start (maxCallDepth : Nat) (answers : List String) : Session :=
  { machine := Machine.initial maxCallDepth answers }

/-- Performs an action on the state. -/
def perform (action : Exec α) (s : Session) : Except (Failure RuntimeError) α × Session :=
  match action s.machine with
  | .ok a machine => (.ok a, { s with machine })
  | .error failure machine => (.error failure, { s with machine })

/-- The failure of a source whose execution has failed. -/
def sourceFailure : Failure RuntimeError → Failure SourceError
  | .fault e => .fault (.runtime e)
  | .listInUse => .listInUse
  | .outOfFuel => .outOfFuel

/-- Runs one more source. It is read as a whole before any of it is executed. -/
def run (fuel : Nat) (source : List Char) (s : Session) :
    Except (Failure SourceError) Unit × Session :=
  match tokenize source with
  | .error e => (.error (.fault (.lex e)), s)
  | .ok ts =>
    let parsed := parse ts
    match parsed.failure with
    | some e => (.error (.fault (.parse e)), s)
    | none =>
      match s.perform (execute fuel parsed.statements) with
      | (.ok (), s) => (.ok (), s)
      | (.error failure, s) => (.error (sourceFailure failure), s)

/-- The objects of a session. -/
def store (s : Session) : Store := s.machine.store

/-- A variable of the outermost scope. -/
def look (s : Session) (name : String) : Option Binding := s.store.lookup Store.globals name

/-- Assigns to a variable of the outermost scope. -/
def assign (name : String) (value : Value) (s : Session) :
    Except (Failure RuntimeError) Unit × Session :=
  s.perform (Exec.update {} fun store => store.assign Store.globals name value)

/-- Writes a field of an instance. -/
def writeField (id : InstanceId) (field : String) (value : Value) (s : Session) :
    Except (Failure RuntimeError) Unit × Session :=
  s.perform (Exec.update {} fun store => store.writeField id field value)

/-- Calls a built-in method on a value, with any number of arguments. -/
def callMethod (fuel : Nat) (method : Method) (receiver : Value) (arguments : List Value)
    (s : Session) : Except (Failure RuntimeError) Value × Session :=
  s.perform (Exec.update {} fun store => store.callMethod fuel method receiver arguments)

/-- Calls the built-in function `input` with any number of arguments. -/
def callInput (arguments : List Value) (s : Session) :
    Except (Failure RuntimeError) Value × Session :=
  s.perform (callNative .input arguments)

/-- Sets the switch that was installed at the start. -/
def cancel (s : Session) : Session :=
  if s.attached then { s with machine := { s.machine with cancellation := .after 0 } } else s

/-- Installs a switch that nothing sets. -/
def renew (s : Session) : Session :=
  { machine := { s.machine with cancellation := .never }, attached := false }

end Session

end Chalk
