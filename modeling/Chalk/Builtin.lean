/-!
# Built-in functions and methods

The functions that every program finds in its outermost scope, and the methods of lists, texts and
dicts, by name and number of arguments.
-/

namespace Chalk

/-- The built-in functions. -/
inductive Native where
  | input
deriving DecidableEq, Inhabited

namespace Native

/-- Every built-in function. -/
def all : List Native := [input]

/-- The name of a built-in function. -/
def name : Native → String
  | input => "input"

/-- The number of arguments that a built-in function takes. -/
def arity : Native → Nat
  | input => 1

end Native

/-- The built-in methods. -/
inductive Method where
  | listAppend | listPop | listLength
  | stringToNumber | stringToBoolean | stringLength
  | dictKeys | dictRemove
deriving DecidableEq, Inhabited

namespace Method

/-- The methods of lists. -/
def ofList : List Method := [listAppend, listPop, listLength]

/-- The methods of texts. -/
def ofString : List Method := [stringToNumber, stringToBoolean, stringLength]

/-- The methods of dicts. -/
def ofDict : List Method := [dictKeys, dictRemove]

/-- The name of a built-in method. -/
def name : Method → String
  | listAppend => "append"
  | listPop => "pop"
  | listLength => "length"
  | stringToNumber => "toNumber"
  | stringToBoolean => "toBoolean"
  | stringLength => "length"
  | dictKeys => "keys"
  | dictRemove => "remove"

/-- The number of arguments that a built-in method takes. -/
def arity : Method → Nat
  | listAppend => 1
  | dictRemove => 1
  | _ => 0

end Method

end Chalk
