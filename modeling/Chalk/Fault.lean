import Chalk.Span

/-!
# What can go wrong in a run

A `Fault` is an error of the running program, worded for its author. A `Failure` is any reason why
an operation gives no result: a fault, or one of the two ways in which a run ends without one.
-/

namespace Chalk

/-! ## Faults -/

/-- The two families of faults. -/
inductive Category where
  | runtime | type
deriving DecidableEq, Inhabited

/-- The name of a family. -/
def Category.text : Category → String
  | runtime => "RuntimeError"
  | type => "TypeError"

/-- The jumps that can leave the construct they belong to. -/
inductive Jump where
  | breakLoop | skip | giveBack
deriving DecidableEq, Inhabited

/-- The word that causes a jump. -/
def Jump.text : Jump → String
  | breakLoop => "break"
  | skip => "skip"
  | giveBack => "return"

/-- What a jump must not leave. -/
inductive Boundary where
  | function | program
deriving DecidableEq, Inhabited

/-- The name of a boundary. -/
def Boundary.text : Boundary → String
  | function => "function"
  | program => "program"

/-- The errors of a running program. -/
inductive Fault where
  | undefinedVariable (name : String)
  | notCallable (typeName : String)
  | arityMismatch (name : String) (expected found : Nat)
  | invalidIndex (found : String)
  | indexOutOfBounds (index length : Nat)
  | notIndexable (typeName : String)
  | missingKey (key : String)
  | divisionByZero
  | moduloByZero
  | unknownMember (typeName name : String)
  | emptyList
  | invalidConversion (value target : String)
  | missingReturn (name expected : String)
  | callDepthExceeded (limit : Nat)
  | cancelled
  | controlFlowEscape (jump : Jump) (boundary : Boundary)
  | typeMismatch (name expected found : String)
  | constReassignment (name : String)
  | constRedefinition (name : String)
  | argumentType (function param expected found : String)
  | returnType (function expected found : String)
  | voidReturnValue (function : String)
  | operandType (op expected found : String)
  | conditionType (found : String)
  | fieldType (owner field expected found : String)
  | notAssignable (typeName target : String)
deriving DecidableEq, Inhabited

namespace Fault

/-- The family of a fault: everything about types and constants is a type error. -/
def category : Fault → Category
  | typeMismatch .. | constReassignment .. | constRedefinition .. | argumentType .. | returnType ..
  | voidReturnValue .. | operandType .. | conditionType .. | fieldType .. | notAssignable .. =>
    .type
  | _ => .runtime

/-- The wording of a fault. -/
def message : Fault → String
  | undefinedVariable name => "Undefined variable '" ++ name ++ "'"
  | notCallable typeName => "Value of type " ++ typeName ++ " is not callable"
  | arityMismatch name expected found =>
    "'" ++ name ++ "' expected " ++ toString expected ++ " arguments but got " ++ toString found
  | invalidIndex found => "Index must be a non-negative integer, got " ++ found
  | indexOutOfBounds index length =>
    "Index " ++ toString index ++ " out of bounds for length " ++ toString length
  | notIndexable typeName => "Value of type " ++ typeName ++ " cannot be indexed"
  | missingKey key => "Key " ++ key ++ " not found in dict"
  | divisionByZero => "Division by zero"
  | moduloByZero => "Modulo by zero"
  | unknownMember typeName name => typeName ++ " has no field or method '" ++ name ++ "'"
  | emptyList => "Cannot pop from an empty list"
  | invalidConversion value target => "Cannot convert " ++ value ++ " to " ++ target
  | missingReturn name expected =>
    "Function '" ++ name ++ "' must return a value of type " ++ expected
  | callDepthExceeded limit => "Maximum call depth of " ++ toString limit ++ " exceeded"
  | cancelled => "Execution cancelled"
  | controlFlowEscape jump boundary =>
    "'" ++ jump.text ++ "' escaped its enclosing " ++ boundary.text
  | typeMismatch name expected found =>
    "Cannot assign value of type " ++ found ++ " to '" ++ name ++ "' of type " ++ expected
  | constReassignment name => "Cannot assign to constant '" ++ name ++ "'"
  | constRedefinition name => "Cannot redefine constant '" ++ name ++ "'"
  | argumentType function param expected found =>
    "Argument '" ++ param ++ "' of '" ++ function ++ "' expects " ++ expected ++ ", got " ++ found
  | returnType function expected found =>
    "Function '" ++ function ++ "' must return " ++ expected ++ ", got " ++ found
  | voidReturnValue function => "Function '" ++ function ++ "' is void and cannot return a value"
  | operandType op expected found =>
    "Operator '" ++ op ++ "' expects " ++ expected ++ " operands, got " ++ found
  | conditionType found => "Condition must be boolean, got " ++ found
  | fieldType owner field expected found =>
    "Field '" ++ field ++ "' of " ++ owner ++ " expects " ++ expected ++ ", got " ++ found
  | notAssignable typeName target =>
    "Value of type " ++ typeName ++ " does not support assignment to '" ++ target ++ "'"

end Fault

/-- A fault and the place that raised it. -/
structure RuntimeError where
  fault : Fault
  span : Span
deriving DecidableEq, Inhabited

/-- The wording of a fault with its family in front. -/
def RuntimeError.message (e : RuntimeError) : String :=
  e.fault.category.text ++ ": " ++ e.fault.message

/-! ## Failures -/

/-- Why an operation gives no result.

* `fault` is an error of the program.
* `listInUse` ends the whole run: a list was to be written at an index that is no number, and the
  text of that index, needed for the message, contains the list that is open for writing.
* `outOfFuel` means that the budget for calls, turns of loops and nested comparisons was used up.
  A run that needs no more than its budget never shows it. -/
inductive Failure (ε : Type) where
  | fault (error : ε)
  | listInUse
  | outOfFuel
deriving DecidableEq, Inhabited

/-- A failure of an operation as a failure at a place. -/
def Failure.at : Failure Fault → Span → Failure RuntimeError
  | fault f, span => .fault ⟨f, span⟩
  | listInUse, _ => .listInUse
  | outOfFuel, _ => .outOfFuel

end Chalk
