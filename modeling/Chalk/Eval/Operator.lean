import Chalk.Fault
import Chalk.Value.Equal
import Chalk.Value.Text

/-!
# Operators

Operators are strict about the types of their operands. The only conversion is that `+` joins
texts when one of its operands is a text.
-/

namespace Chalk.Store

/-- The fault of operands of the wrong types. -/
def operandFault (s : Store) (op : BinaryOp) (expected : String) (left right : Value) :
    Except (Failure Fault) α :=
  .error (.fault (.operandType op.text expected (s.typeName left ++ " and " ++ s.typeName right)))

/-- An operator on numbers. -/
def numeric (s : Store) (op : BinaryOp) (left right : Value)
    (apply : Float → Float → Except (Failure Fault) Value) : Except (Failure Fault) Value :=
  match left, right with
  | .number a, .number b => apply a b
  | _, _ => s.operandFault op "number" left right

/-- The sum of two numbers, or two texts joined. -/
def add (s : Store) (left right : Value) : Except (Failure Fault) Value :=
  match left, right with
  | .number a, .number b => .ok (.number (a + b))
  | .string _, _ => .ok (.string (s.render left ++ s.render right))
  | _, .string _ => .ok (.string (s.render left ++ s.render right))
  | _, _ => s.operandFault .add "number or string" left right

/-- Whether two values are equal, as a value. -/
def equalValue (s : Store) (fuel : Nat) (left right : Value) (wanted : Bool) :
    Except (Failure Fault) Value :=
  match s.equal? fuel left right with
  | some answer => .ok (.boolean (answer == wanted))
  | none => .error .outOfFuel

/-- A binary operator applied to two values. -/
def binary (s : Store) (fuel : Nat) (op : BinaryOp) (left right : Value) :
    Except (Failure Fault) Value :=
  match op with
  | .equal => s.equalValue fuel left right true
  | .notEqual => s.equalValue fuel left right false
  | .add => s.add left right
  | .sub => s.numeric op left right fun a b => .ok (.number (a - b))
  | .mul => s.numeric op left right fun a b => .ok (.number (a * b))
  | .div => s.numeric op left right fun a b =>
    if b == 0 then .error (.fault .divisionByZero) else .ok (.number (a / b))
  | .mod => s.numeric op left right fun a b =>
    if b == 0 then .error (.fault .moduloByZero) else .ok (.number (Number.remainder a b))
  | .pow => s.numeric op left right fun a b => .ok (.number (a.pow b))
  | .less => s.numeric op left right fun a b => .ok (.boolean (a < b))
  | .lessEqual => s.numeric op left right fun a b => .ok (.boolean (a ≤ b))
  | .greater => s.numeric op left right fun a b => .ok (.boolean (a > b))
  | .greaterEqual => s.numeric op left right fun a b => .ok (.boolean (a ≥ b))

/-- A prefix operator applied to a value. -/
def unary (s : Store) (op : UnaryOp) (operand : Value) : Except (Failure Fault) Value :=
  match op, operand with
  | .negate, .number a => .ok (.number (-a))
  | .not, .boolean b => .ok (.boolean !b)
  | .negate, _ => .error (.fault (.operandType op.text "number" (s.typeName operand)))
  | .not, _ => .error (.fault (.operandType op.text "boolean" (s.typeName operand)))

end Chalk.Store
