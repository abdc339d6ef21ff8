import Chalk.Value.Text

/-!
# Values for debugging

The inner structure of callables, classes and instances, written as records.
-/

namespace Chalk

/-- A record with named fields. `abridged` marks a record that has more fields than are shown. -/
def record (name : String) (fields : List (String × String)) (abridged : Bool := false) : String :=
  let shown := fields.map fun field => field.1 ++ ": " ++ field.2
  let items := if abridged then shown ++ [".."] else shown
  name ++ " \x7b " ++ ", ".intercalate items ++ " \x7d"

/-- A list of names in quotes. -/
def quotedNames (names : List String) : String :=
  "[" ++ ", ".intercalate (names.map Text.quote) ++ "]"

/-- The record of a built-in function. -/
def Native.inspect (f : Native) : String :=
  record "NativeFunction" [("name", Text.quote f.name), ("arity", toString f.arity)]

/-- The record of a built-in method. -/
def Method.inspect (method : Method) : String :=
  record "NativeMethod" [("name", Text.quote method.name), ("arity", toString method.arity)]

namespace Store

/-- The record of a class, with the names of its methods. -/
def inspectClass (s : Store) (id : ClassId) : String :=
  let decl := (s.classObject id).decl
  let methods := (decl.methods.map FuncOf.name).eraseDups
  record "ClassObject" [("name", Text.quote decl.name), ("methods", quotedNames methods)] true

/-- The record of an instance, with the names of its fields. -/
def inspectInstance (s : Store) (id : InstanceId) : String :=
  let names := ((s.instance? id).map fun i => i.fields.map Prod.fst).getD []
  record "InstanceObject"
    [("class", Text.quote (s.instanceClass id)), ("fields", quotedNames names)]

/-- The record of a callable. -/
def inspectCallable (s : Store) : Callable → String
  | .native f => "Native(" ++ f.inspect ++ ")"
  | .function id =>
    "User(" ++ record "UserFunction" [("name", Text.quote (s.function id).decl.name)] true ++ ")"
  | .classObject id => "Class(" ++ s.inspectClass id ++ ")"
  | .method receiver name =>
    let owner := Text.quote (s.instanceClass receiver)
    "Method(" ++ record "BoundMethod" [("class", owner), ("method", Text.quote name)] true ++ ")"
  | .builtin receiver method =>
    "Builtin(" ++
      record "BuiltinMethod"
        [("receiver", s.repr receiver.toValue), ("method", method.inspect)] ++ ")"

end Store

end Chalk
