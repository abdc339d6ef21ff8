import Chalk.Builtin
import Chalk.Program

/-!
# Values

Numbers, texts, truth values and the null value stand for themselves. Lists, dicts, instances,
functions and classes live in the store, and a value refers to them: two values with the same
reference share what it refers to.
-/

namespace Chalk

/-- A reference to a list. -/
structure ListId where
  index : Nat
deriving DecidableEq, Inhabited

/-- A reference to a dict. -/
structure DictId where
  index : Nat
deriving DecidableEq, Inhabited

/-- A reference to an instance of a class. -/
structure InstanceId where
  index : Nat
deriving DecidableEq, Inhabited

/-- A reference to a function together with the scope it was declared in. -/
structure FunctionId where
  index : Nat
deriving DecidableEq, Inhabited

/-- A reference to a class together with the scope it was declared in. -/
structure ClassId where
  index : Nat
deriving DecidableEq, Inhabited

/-- A reference to a scope. -/
structure ScopeId where
  index : Nat
deriving DecidableEq, Inhabited

/-- A list or a dict: what can contain values, and so can contain itself. -/
inductive Node where
  | list (id : ListId)
  | dict (id : DictId)
deriving DecidableEq, Inhabited

/-- A value that has built-in methods. -/
inductive Receiver where
  | list (id : ListId)
  | string (content : String)
  | dict (id : DictId)
deriving DecidableEq, Inhabited

/-- What can be called. A method of a class is bound to an instance, and its declaration is the
one of that name in the class of the instance. -/
inductive Callable where
  | native (f : Native)
  | function (id : FunctionId)
  | classObject (id : ClassId)
  | method (receiver : InstanceId) (name : String)
  | builtin (receiver : Receiver) (method : Method)
deriving DecidableEq, Inhabited

/-- The values of the language. -/
inductive Value where
  | null
  | number (value : Float)
  | string (content : String)
  | boolean (value : Bool)
  | list (id : ListId)
  | dict (id : DictId)
  | instance (id : InstanceId)
  | callable (callable : Callable)
deriving DecidableEq, Inhabited

/-- The receiver of a bound built-in method as a value. -/
def Receiver.toValue : Receiver → Value
  | list id => .list id
  | string content => .string content
  | dict id => .dict id

/-- The type of a receiver. -/
def Receiver.typeName : Receiver → String
  | list _ => "list"
  | string _ => "string"
  | dict _ => "dict"

/-- A value as a receiver of built-in methods. -/
def Value.toReceiver? : Value → Option Receiver
  | list id => some (.list id)
  | string content => some (.string content)
  | dict id => some (.dict id)
  | _ => none

/-- The built-in methods of a receiver. -/
def Receiver.methods : Receiver → List Method
  | list _ => Method.ofList
  | string _ => Method.ofString
  | dict _ => Method.ofDict

end Chalk
