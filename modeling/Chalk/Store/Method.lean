import Chalk.Store.Dict
import Chalk.Text.Blank

/-!
# Built-in methods

What the methods of lists, texts and dicts do. A method can be called on any value; a value of the
wrong kind is refused.
-/

namespace Chalk

/-- The number that a text writes, with white space around it ignored. -/
def Text.toNumber? (content : String) : Option Float :=
  (Decimal.read? (trim content.toList)).filter Number.isFinite

/-- The truth value that a text writes, with white space around it and letter case ignored. -/
def Text.toBoolean? (content : String) : Option Bool :=
  let word := String.ofList ((trim content.toList).map Char.toLower)
  if word == "true" then some true
  else if word == "false" then some false
  else none

/-- Calls a built-in method. `append` takes any number of values; the other methods ignore
arguments that they do not need, and a missing key is null. -/
def Store.callMethod (s : Store) (fuel : Nat) (method : Method) (receiver : Value)
    (arguments : List Value) : Outcome Value :=
  match method, receiver with
  | .listAppend, .list id =>
    .ok .null (s.modifyList id fun elements => elements ++ arguments.toArray)
  | .listPop, .list id =>
    match (s.list id).back? with
    | some last => .ok last (s.modifyList id Array.pop)
    | none => .error (.fault .emptyList) s
  | .listLength, .list id => .ok (.number (s.list id).size.toFloat) s
  | .stringToNumber, .string content =>
    match Text.toNumber? content with
    | some x => .ok (.number x) s
    | none => .error (.fault (.invalidConversion (s.repr receiver) "number")) s
  | .stringToBoolean, .string content =>
    match Text.toBoolean? content with
    | some b => .ok (.boolean b) s
    | none => .error (.fault (.invalidConversion (s.repr receiver) "boolean")) s
  | .stringLength, .string content => .ok (.number content.length.toFloat) s
  | .dictKeys, .dict id =>
    let (keys, s) := s.newList (Entries.keys (s.dict id)).toArray
    .ok (.list keys) s
  | .dictRemove, .dict id => s.removeItem fuel id (arguments.head?.getD .null)
  | _, _ => .error (.fault (.notCallable (s.typeName receiver))) s

end Chalk
