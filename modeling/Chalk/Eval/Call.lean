import Chalk.Eval.Statement
import Chalk.Store.Method

/-!
# Calls

A call checks the number of arguments, then the depth of calls, then the types of the arguments,
runs the body in a scope inside the one of the declaration, and checks the result against the
declared type.

## Main definitions

* `callFunction` — the call of a function or method, given how its body is run
* `invoke` — the call of any callable, with a budget for nested calls
* `execute` — a whole program
-/

namespace Chalk

/-- The variables of a call: `this` for a method, then the parameters in order. -/
def Store.frame (s : Store) (decl : Func) (this : Option Value) (arguments : List Value) :
    Except (Failure Fault) Bindings := do
  let start ←
    match this with
    | some value => s.declareIn [] "this" { value, tag := .object, constant := true }
    | none => pure []
  (decl.params.zip arguments).foldlM (fun bindings (param, value) =>
    if s.conforms param.tag value then
      s.declareIn bindings param.name { value, tag := param.tag, constant := false }
    else
      throw (.fault (.argumentType decl.name param.name param.tag.text (s.typeName value)))) start

/-- The value of a call whose body has ended with a signal. -/
def Store.result (s : Store) (decl : Func) : Signal → Except Fault Value
  | .giveBack (some value) =>
    if decl.returns == .void then .error (.voidReturnValue decl.name)
    else if s.conforms decl.returns value then .ok value
    else .error (.returnType decl.name decl.returns.text (s.typeName value))
  | .giveBack none | .normal =>
    if decl.returns == .void then .ok .null
    else .error (.missingReturn decl.name decl.returns.text)
  | .breakLoop => .error (.controlFlowEscape .breakLoop .function)
  | .skip => .error (.controlFlowEscape .skip .function)

/-- Calls a function or method that was declared in the scope `closure`. `run` runs its body. -/
def callFunction (run : List Stmt → Exec Signal) (decl : Func) (closure : ScopeId)
    (this : Option Value) (arguments : List Value) (span : Span) : Exec Value := do
  let m ← get
  if m.maxDepth ≤ m.depth then Exec.fault (.callDepthExceeded m.maxDepth) span
  else
    let bindings ← Exec.query span fun s => s.frame decl this arguments
    let scope ← Exec.alter fun s => s.newScope { bindings, parent := some closure }
    let signal ← Exec.deeper (Exec.within scope (run decl.body))
    match (← Exec.store).result decl signal with
    | .ok value => return value
    | .error f => Exec.fault f span

/-- Calls a class: a fresh instance, on which the initializer runs if there is one. -/
def callClass (run : List Stmt → Exec Signal) (id : ClassId) (arguments : List Value)
    (span : Span) : Exec Value := do
  let object ← Exec.alter fun s => s.instantiate id
  let s ← Exec.store
  match s.initializer? id with
  | some init =>
    let closure := (s.classObject id).scope
    let _ ← callFunction run init closure (some (.instance object)) arguments span
    return .instance object
  | none => return .instance object

/-- Calls a built-in function. A missing prompt is empty. -/
def callNative (f : Native) (arguments : List Value) : Exec Value := do
  match f with
  | .input =>
    let s ← Exec.store
    let prompt := (arguments.head?.map s.render).getD ""
    return .string (← Exec.read prompt)

/-- Calls a method of an instance. -/
def callBound (run : List Stmt → Exec Signal) (receiver : InstanceId) (name : String)
    (arguments : List Value) (span : Span) : Exec Value := do
  let s ← Exec.store
  match s.instance? receiver, s.instanceMethod? receiver name with
  | some object, some decl =>
    callFunction run decl (s.classObject object.owner).scope (some (.instance receiver)) arguments
      span
  | _, _ => Exec.fault (.unknownMember (s.instanceClass receiver) name) span

/-- Makes a call. `fuel` bounds the nesting of calls, and in each body the turns of each loop. -/
def invoke : Nat → Invoke
  | 0, _, _, _ => throw .outOfFuel
  | fuel + 1, callable, arguments, span => do
    let run := Stmt.executeSeq (invoke fuel) fuel
    let s ← Exec.store
    if arguments.length != s.arity callable then
      Exec.fault (.arityMismatch (s.callableName callable) (s.arity callable) arguments.length) span
    else
      match callable with
      | .native f => callNative f arguments
      | .builtin receiver method =>
        Exec.update span fun s => s.callMethod fuel method receiver.toValue arguments
      | .function id =>
        let closure := s.function id
        callFunction run closure.decl closure.scope none arguments span
      | .method receiver name => callBound run receiver name arguments span
      | .classObject id => callClass run id arguments span

/-- The fault of a signal that leaves the program. -/
def Signal.escape? : Signal → Option Fault
  | normal => none
  | breakLoop => some (.controlFlowEscape .breakLoop .program)
  | skip => some (.controlFlowEscape .skip .program)
  | giveBack _ => some (.controlFlowEscape .giveBack .program)

/-- Runs the statements of a program in order, up to the first failure. -/
def execute (fuel : Nat) : List Stmt → Exec Unit
  | [] => return ()
  | s :: rest => do
    Exec.checkCancelled s.span
    match (← s.execute (invoke fuel) fuel).escape? with
    | some f => Exec.fault f s.span
    | none => execute fuel rest

end Chalk
