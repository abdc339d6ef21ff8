import Chalk.Number
import Chalk.Store
import Chalk.Text.Quoted

/-!
# Values as text

The type of a value, whether it fits a declared type, and how it is written. A list or dict that
is written inside itself is written as `[...]` or `{...}`, so every value has a text.

## Main definitions

* `Store.typeName`, `Store.conforms` — the type of a value, and whether a slot can hold it
* `Printer` — what has been printed, and what is open
* `Store.render` — how a value is printed
* `Store.repr` — the same, with a text in quotes
-/

namespace Chalk

/-! ## Printers -/

/-- What has been printed, and the lists and dicts that are open, the innermost first. -/
structure Printer where
  opened : List Node := []
  text : String := ""
deriving DecidableEq, Inhabited

namespace Printer

def write (p : Printer) (text : String) : Printer := { p with text := p.text ++ text }

/-- Opens a list or dict. -/
def enter (p : Printer) (node : Node) : Printer := { p with opened := node :: p.opened }

/-- Closes the list or dict that was opened last. -/
def leave (p : Printer) : Printer := { p with opened := p.opened.tail }

/-- Prints things in order, with commas between them. -/
def separated? {α : Type} (print? : α → Printer → Option Printer) :
    List α → Printer → Option Printer
  | [], p => some p
  | first :: others, p => do
    others.foldlM (fun p item => print? item (p.write ", ")) (← print? first p)

/-- Prints the key and the value of an entry. -/
def pair? (print? : Value → Printer → Option Printer) (entry : Value × Value) (p : Printer) :
    Option Printer := do
  let p ← print? entry.1 p
  print? entry.2 (p.write ": ")

end Printer

namespace Store

/-! ## Types -/

/-- The name of a class. -/
def className (s : Store) (id : ClassId) : String := (s.classObject id).decl.name

/-- The name of the class of an instance. -/
def instanceClass (s : Store) (id : InstanceId) : String :=
  match s.instance? id with
  | some i => s.className i.owner
  | none => ""

/-- The name of the type of a value. -/
def typeName (s : Store) : Value → String
  | .null => "null"
  | .number _ => "number"
  | .string _ => "string"
  | .boolean _ => "boolean"
  | .list _ => "list"
  | .dict _ => "dict"
  | .instance id => s.instanceClass id
  | .callable _ => "function"

/-- Whether a slot of the given type can hold a value. Null fits every type, and every value fits
`object`. -/
def conforms (s : Store) (tag : TypeTag) (value : Value) : Bool :=
  match tag, value with
  | _, .null => true
  | .object, _ => true
  | .number, .number _ => true
  | .string, .string _ => true
  | .boolean, .boolean _ => true
  | .list, .list _ => true
  | .dict, .dict _ => true
  | .function, .callable _ => true
  | .named name, .instance id => s.instanceClass id == name
  | _, _ => false

/-! ## Callables -/

/-- The declaration of a method of a class. Of several with one name the last counts. -/
def classMethod? (s : Store) (id : ClassId) (name : String) : Option Func :=
  (s.classObject id).decl.methods.reverse.find? fun m => m.name == name

/-- The declaration of a method of an instance. -/
def instanceMethod? (s : Store) (id : InstanceId) (name : String) : Option Func :=
  (s.instance? id).bind fun i => s.classMethod? i.owner name

/-- The method that runs when a class is called. -/
def initializer? (s : Store) (id : ClassId) : Option Func := s.classMethod? id "init"

/-- The name of a callable. -/
def callableName (s : Store) : Callable → String
  | .native f => f.name
  | .function id => (s.function id).decl.name
  | .classObject id => s.className id
  | .method _ name => name
  | .builtin _ method => method.name

/-- The number of arguments that a callable takes. -/
def arity (s : Store) : Callable → Nat
  | .native f => f.arity
  | .function id => (s.function id).decl.params.length
  | .classObject id => ((s.initializer? id).map fun f => f.params.length).getD 0
  | .method receiver name => ((s.instanceMethod? receiver name).map fun f => f.params.length).getD 0
  | .builtin _ method => method.arity

/-- How a callable is printed. -/
def renderCallable (s : Store) : Callable → String
  | .native f => "<native function " ++ f.name ++ ">"
  | .function id => "<function " ++ (s.function id).decl.name ++ ">"
  | .classObject id => "<class " ++ s.className id ++ ">"
  | .method receiver name => "<method " ++ s.instanceClass receiver ++ "." ++ name ++ ">"
  | .builtin receiver method => "<method " ++ receiver.typeName ++ "." ++ method.name ++ ">"

/-! ## Printing -/

/-- How a value is printed that is neither a list nor a dict. -/
def plain? (s : Store) : Value → Option String
  | .null => some "null"
  | .number value => some (Number.text value)
  | .string content => some content
  | .boolean value => some (if value then "true" else "false")
  | .list _ | .dict _ => none
  | .instance id => some ("<" ++ s.instanceClass id ++ " instance>")
  | .callable callable => some (s.renderCallable callable)

/-- Prints a value. `fuel` bounds how many lists and dicts can be open at once, and there is no
result when it runs out. -/
def print? (s : Store) : Nat → Value → Printer → Option Printer
  | 0, .list _, _ => none
  | 0, .dict _, _ => none
  | fuel + 1, .list id, p =>
    if p.opened.contains (.list id) then some (p.write "[...]")
    else do
      let p ← Printer.separated? (print? s fuel) (s.list id).toList
        ((p.enter (.list id)).write "[")
      return p.leave.write "]"
  | fuel + 1, .dict id, p =>
    if p.opened.contains (.dict id) then some (p.write "\x7b...\x7d")
    else do
      let p ← Printer.separated? (Printer.pair? (print? s fuel)) (s.dict id)
        ((p.enter (.dict id)).write "\x7b")
      return (p.write "\x7d").leave
  | _, value, p => (s.plain? value).map p.write

/-- How a value is printed. All lists and dicts can be open at once, and one more is looked at. -/
def render (s : Store) (value : Value) : String :=
  ((s.print? (s.nodeCount + 1) value {}).map Printer.text).getD ""

/-- How messages show a value: a text in quotes, and any other value as it is printed. -/
def repr (s : Store) : Value → String
  | .string content => Text.quote content
  | value => s.render value

/-! ## Contents -/

/-- Whether the list `target` is opened when `value` is printed inside the lists and dicts
`opened`. -/
def opensIn (s : Store) (target : ListId) : Nat → List Node → Value → Bool
  | 0, _, _ => false
  | fuel + 1, opened, .list id =>
    !opened.contains (.list id) &&
      (id == target || (s.list id).toList.any (opensIn s target fuel (.list id :: opened)))
  | fuel + 1, opened, .dict id =>
    !opened.contains (.dict id) &&
      (s.dict id).any fun entry =>
        opensIn s target fuel (.dict id :: opened) entry.1 ||
          opensIn s target fuel (.dict id :: opened) entry.2
  | _ + 1, _, _ => false

/-- Whether the list `target` is opened when `value` is printed. -/
def opens (s : Store) (target : ListId) (value : Value) : Bool :=
  s.opensIn target (s.nodeCount + 1) [] value

end Store

end Chalk
