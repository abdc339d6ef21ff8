import Chalk.Store.Dict

/-!
# Positions in lists and texts

Lists and texts are indexed from zero by numbers that are neither negative nor fractional. Dicts
are indexed by their keys.
-/

namespace Chalk.Store

/-- An index as a position among `length` elements. -/
def position (s : Store) (index : Value) (length : Nat) : Except (Failure Fault) Nat :=
  match index with
  | .number x =>
    match Number.toPosition? x with
    | none => .error (.fault (.invalidIndex (s.repr index)))
    | some place =>
      if place < length then .ok place else .error (.fault (.indexOutOfBounds place length))
  | _ => .error (.fault (.invalidIndex (s.repr index)))

/-- The element of a container at an index. The element of a text is a text of one character. -/
def element (s : Store) (fuel : Nat) (container index : Value) : Except (Failure Fault) Value :=
  match container with
  | .list id =>
    (s.position index (s.list id).size).map fun place => (s.list id)[place]?.getD .null
  | .string content =>
    (s.position index content.length).map fun place =>
      (content.toList[place]?.map fun c => .string c.toString).getD .null
  | .dict id => s.getItem fuel id index
  | _ => .error (.fault (.notIndexable (s.typeName container)))

/-- Writes an element of a list. The list is open for writing while the index is examined, so an
index that is no number must not contain the list: there would be no text for the message. -/
def writeElement (s : Store) (id : ListId) (index value : Value) : Outcome Unit :=
  match index with
  | .number _ =>
    match s.position index (s.list id).size with
    | .error failure => .error failure s
    | .ok place => .ok () (s.modifyList id fun elements => elements.setIfInBounds place value)
  | _ =>
    if s.opens id index then .error .listInUse s
    else .error (.fault (.invalidIndex (s.repr index))) s

/-- Writes an element of a container. -/
def writeItem (s : Store) (fuel : Nat) (container index value : Value) : Outcome Unit :=
  match container with
  | .list id => s.writeElement id index value
  | .dict id => s.insertItem fuel id index value
  | _ => .error (.fault (.notAssignable (s.typeName container) "index")) s

end Chalk.Store
