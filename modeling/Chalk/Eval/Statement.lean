import Chalk.Eval.Expression

/-!
# Execution of statements

A statement ends normally or with a signal that travels outward: `break` and `skip` to the nearest
loop, `return` to the function. `fuel` is the budget for the turns of each loop.
-/

namespace Chalk

/-- How a statement ends. -/
inductive Signal where
  | normal
  | breakLoop
  | skip
  | giveBack (value : Option Value)
deriving DecidableEq, Inhabited

/-- What a loop does after its body: it goes on, or it ends with a signal. -/
def Signal.afterBody : Signal → Option Signal
  | normal => none
  | skip => none
  | breakLoop => some normal
  | giveBack value => some (giveBack value)

/-- Declares a variable in the current scope. -/
def Exec.define (name : String) (binding : Binding) (span : Span) : Exec Unit := do
  let scope := (← get).scope
  Exec.update span fun s => s.define scope name binding

/-- Executes an assignment. The container and the index are evaluated before the value. -/
def Target.assign (invoke : Invoke) (fuel : Nat) (value : Expr) : Target → Exec Unit
  | .name id span => do
    let v ← value.evaluate invoke fuel
    let scope := (← get).scope
    Exec.update span fun s => s.assign scope id v
  | .index container position => do
    let c ← container.evaluate invoke fuel
    let i ← position.evaluate invoke fuel
    let v ← value.evaluate invoke fuel
    Exec.update (container.span.through position.span) fun s => s.writeItem fuel c i v
  | .field object id => do
    let receiver ← object.evaluate invoke fuel
    let v ← value.evaluate invoke fuel
    match receiver with
    | .instance i => Exec.update object.span fun s => s.writeField i id v
    | _ =>
      Exec.fault (.notAssignable ((← Exec.store).typeName receiver) ("field '" ++ id ++ "'"))
        object.span

mutual

/-- Executes a statement. -/
def Stmt.execute (invoke : Invoke) (fuel : Nat) : Stmt → Exec Signal
  | .declare constant tag name initial span => do
    let value ←
      match initial with
      | some e => e.evaluate invoke fuel
      | none => pure .null
    Exec.define name { value, tag, constant } span
    return .normal
  | .assign target value _ => do
    target.assign invoke fuel value
    return .normal
  | .print value _ => do
    let v ← value.evaluate invoke fuel
    Exec.print ((← Exec.store).render v ++ "\n")
    return .normal
  | .branch condition body elifs otherwise _ => do
    if ← condition.condition invoke fuel then
      Exec.inBlock (Stmt.executeSeq invoke fuel body)
    else Stmt.executeElifs invoke fuel (Stmt.executeElse invoke fuel otherwise) elifs
  | .whileLoop condition body span =>
    Exec.iterate (do
      Exec.checkCancelled span
      if ← condition.condition invoke fuel then
        return (← Exec.inBlock (Stmt.executeSeq invoke fuel body)).afterBody
      return some .normal) fuel
  | .forLoop init condition increment body span =>
    Exec.inBlock do
      let _ ← Stmt.executeOption invoke fuel init
      Exec.iterate (do
        Exec.checkCancelled span
        let goOn ←
          match condition with
          | some e => e.condition invoke fuel
          | none => pure true
        if goOn then
          match (← Exec.inBlock (Stmt.executeSeq invoke fuel body)).afterBody with
          | some signal => return some signal
          | none =>
            let _ ← Stmt.executeOption invoke fuel increment
            return none
        return some .normal) fuel
  | .breakLoop _ => return .breakLoop
  | .skip _ => return .skip
  | .giveBack value _ => do
    match value with
    | some e => return .giveBack (some (← e.evaluate invoke fuel))
    | none => return .giveBack none
  | .function decl span => do
    let scope := (← get).scope
    let id ← Exec.alter fun s => s.newFunction { decl, scope }
    Exec.define decl.name
      { value := .callable (.function id), tag := .function, constant := false } span
    return .normal
  | .classDef decl span => do
    let scope := (← get).scope
    let id ← Exec.alter fun s => s.newClass { decl, scope }
    Exec.define decl.name
      { value := .callable (.classObject id), tag := .function, constant := false } span
    return .normal
  | .eval value _ => do
    let _ ← value.evaluate invoke fuel
    return .normal

/-- Executes a statement that may be missing. -/
def Stmt.executeOption (invoke : Invoke) (fuel : Nat) : Option Stmt → Exec Signal
  | none => return .normal
  | some s => s.execute invoke fuel

/-- Executes statements in order, up to the first that does not end normally. -/
def Stmt.executeSeq (invoke : Invoke) (fuel : Nat) : List Stmt → Exec Signal
  | [] => return .normal
  | s :: rest => do
    match ← s.execute invoke fuel with
    | .normal => Stmt.executeSeq invoke fuel rest
    | signal => return signal

/-- Executes the first `elif` branch whose condition holds, or else `otherwise`. -/
def Stmt.executeElifs (invoke : Invoke) (fuel : Nat) (otherwise : Exec Signal) :
    List (BranchOf Stmt) → Exec Signal
  | [] => otherwise
  | ⟨condition, body⟩ :: rest => do
    if ← condition.condition invoke fuel then
      Exec.inBlock (Stmt.executeSeq invoke fuel body)
    else Stmt.executeElifs invoke fuel otherwise rest

/-- Executes an `else` block that may be missing. -/
def Stmt.executeElse (invoke : Invoke) (fuel : Nat) : Option (List Stmt) → Exec Signal
  | none => return .normal
  | some body => Exec.inBlock (Stmt.executeSeq invoke fuel body)

end

end Chalk
