import Chalk.Eval.Machine
import Chalk.Eval.Operator
import Chalk.Store.Object
import Chalk.Store.Sequence

/-!
# Evaluation of expressions

Operands are evaluated from left to right. Calls are left to an `Invoke`, so evaluation follows the
tree of the expression; `fuel` is the budget of comparisons.
-/

namespace Chalk

/-- How a call is made: the callable, its arguments and the place of the call. -/
abbrev Invoke := Callable → List Value → Span → Exec Value

/-- The truth value of an operand of `and` or `or`. -/
def Exec.logicalOperand (op : LogicalOp) (span : Span) (value : Value) : Exec Bool := do
  match value with
  | .boolean b => return b
  | _ => fault (.operandType op.text "boolean" ((← store).typeName value)) span

/-- Calls a value. -/
def Exec.callValue (invoke : Invoke) (callee : Value) (arguments : List Value) (span : Span) :
    Exec Value := do
  match callee with
  | .callable callable => invoke callable arguments span
  | _ => fault (.notCallable ((← store).typeName callee)) span

mutual

/-- The value of an expression. -/
def Expr.evaluate (invoke : Invoke) (fuel : Nat) : Expr → Exec Value
  | .number value _ => return .number value
  | .string content _ => return .string content
  | .boolean value _ => return .boolean value
  | .name id span => do
    let m ← get
    Exec.liftAt span (m.store.getVariable m.scope id)
  | .receiver span => do
    let m ← get
    Exec.liftAt span (m.store.getVariable m.scope "this")
  | .list items _ => do
    let values ← Expr.evaluateList invoke fuel items
    return .list (← Exec.alter fun s => s.newList values.toArray)
  | .dict entries _ => do
    let entries ← Expr.evaluateEntries invoke fuel entries []
    return .dict (← Exec.alter fun s => s.newDict entries)
  | .binary op left right span => do
    let a ← left.evaluate invoke fuel
    let b ← right.evaluate invoke fuel
    Exec.query span fun s => s.binary fuel op a b
  | .logical op left right _ => do
    let a ← Exec.logicalOperand op left.span (← left.evaluate invoke fuel)
    match op, a with
    | .and, false => return .boolean false
    | .or, true => return .boolean true
    | _, _ =>
      return .boolean (← Exec.logicalOperand op right.span (← right.evaluate invoke fuel))
  | .unary op operand span => do
    let a ← operand.evaluate invoke fuel
    Exec.query span fun s => s.unary op a
  | .call callee arguments span => do
    let f ← callee.evaluate invoke fuel
    let values ← Expr.evaluateList invoke fuel arguments
    Exec.callValue invoke f values span
  | .field object id span => do
    let receiver ← object.evaluate invoke fuel
    Exec.query span fun s => s.member receiver id
  | .index container position span => do
    let a ← container.evaluate invoke fuel
    let b ← position.evaluate invoke fuel
    Exec.query span fun s => s.element fuel a b

/-- The values of some expressions, from left to right. -/
def Expr.evaluateList (invoke : Invoke) (fuel : Nat) : List Expr → Exec (List Value)
  | [] => return []
  | e :: es => do
    let value ← e.evaluate invoke fuel
    let values ← Expr.evaluateList invoke fuel es
    return value :: values

/-- The entries that a dict expression adds to those before it: each key and value is evaluated
and then inserted. -/
def Expr.evaluateEntries (invoke : Invoke) (fuel : Nat) :
    List (Expr × Expr) → Entries → Exec Entries
  | [], done => return done
  | (key, value) :: rest, done => do
    let k ← key.evaluate invoke fuel
    let v ← value.evaluate invoke fuel
    let done ← Exec.query key.span fun s => Entries.insert s fuel done k v
    Expr.evaluateEntries invoke fuel rest done

end

/-- The truth value of a condition. -/
def Expr.condition (invoke : Invoke) (fuel : Nat) (e : Expr) : Exec Bool := do
  match ← e.evaluate invoke fuel with
  | .boolean b => return b
  | value => Exec.fault (.conditionType ((← Exec.store).typeName value)) e.span

end Chalk
