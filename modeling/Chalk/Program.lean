import Chalk.Span

/-!
# Programs

The tree of a program. Every expression and statement carries the region of source it was read
from; blocks are lists of statements.

## Main definitions

* `TypeTag` — the types that declarations name
* `Expr` — expressions, with `BinaryOp`, `LogicalOp` and `UnaryOp`
* `Target` — what can be assigned to
* `Stmt` — statements
* `Func`, `Class` — declarations of functions and classes
-/

namespace Chalk

/-! ## Types -/

/-- The type named by a declaration. Types are nominal: `named` refers to the class of that
name. -/
inductive TypeTag where
  | number | string | boolean | list | dict | object | function | void
  | named (name : String)
deriving DecidableEq, Inhabited

namespace TypeTag

/-- The type that an identifier names. Two identifiers name built-in types and all others name
classes. -/
def ofIdentifier (name : String) : TypeTag :=
  if name == "object" then object
  else if name == "function" then function
  else named name

/-- How a type is written. -/
def text : TypeTag → String
  | number => "number"
  | string => "string"
  | boolean => "boolean"
  | list => "list"
  | dict => "dict"
  | object => "object"
  | function => "function"
  | void => "void"
  | named name => name

/-- The built-in types. -/
def builtins : List TypeTag := [number, string, boolean, list, dict, object, function, void]

/-- The type written as `text`: a built-in type, or else a class. -/
def ofText (text : String) : TypeTag :=
  (builtins.find? fun tag => tag.text == text).getD (named text)

end TypeTag

/-! ## Operators -/

/-- Operators that evaluate both operands. -/
inductive BinaryOp where
  | equal | notEqual | less | lessEqual | greater | greaterEqual | add | sub | mul | div | mod | pow
deriving DecidableEq, Inhabited

/-- How an operator is written. -/
def BinaryOp.text : BinaryOp → String
  | equal => "=="
  | notEqual => "!="
  | less => "<"
  | lessEqual => "<="
  | greater => ">"
  | greaterEqual => ">="
  | add => "+"
  | sub => "-"
  | mul => "*"
  | div => "/"
  | mod => "%"
  | pow => "^"

/-- Operators that evaluate the right operand only if the left one leaves the result open. -/
inductive LogicalOp where
  | and | or
deriving DecidableEq, Inhabited

/-- How an operator is written. -/
def LogicalOp.text : LogicalOp → String
  | and => "and"
  | or => "or"

/-- Operators with one operand. -/
inductive UnaryOp where
  | negate | not
deriving DecidableEq, Inhabited

/-- How an operator is written. -/
def UnaryOp.text : UnaryOp → String
  | negate => "-"
  | not => "not"

/-! ## Expressions -/

/-- Expressions. Parentheses leave no trace in the tree. -/
inductive Expr where
  | number (value : Float) (span : Span)
  | string (content : String) (span : Span)
  | boolean (value : Bool) (span : Span)
  | name (name : String) (span : Span)
  | receiver (span : Span)
  | list (items : List Expr) (span : Span)
  | dict (entries : List (Expr × Expr)) (span : Span)
  | binary (op : BinaryOp) (left right : Expr) (span : Span)
  | logical (op : LogicalOp) (left right : Expr) (span : Span)
  | unary (op : UnaryOp) (operand : Expr) (span : Span)
  | call (callee : Expr) (arguments : List Expr) (span : Span)
  | field (object : Expr) (name : String) (span : Span)
  | index (container position : Expr) (span : Span)
deriving Inhabited

/-- The source of an expression. -/
def Expr.span : Expr → Span
  | number _ s | string _ s | boolean _ s | name _ s | receiver s | list _ s | dict _ s
  | binary _ _ _ s | logical _ _ _ s | unary _ _ s | call _ _ s | field _ _ s | index _ _ s => s

/-- An operator applied to two operands, spanning both. -/
def Expr.mkBinary (op : BinaryOp) (left right : Expr) : Expr :=
  .binary op left right (left.span.through right.span)

/-- A logical operator applied to two operands, spanning both. -/
def Expr.mkLogical (op : LogicalOp) (left right : Expr) : Expr :=
  .logical op left right (left.span.through right.span)

/-- What can be assigned to: a variable, an element of a container, or a field. -/
inductive Target where
  | name (name : String) (span : Span)
  | index (container position : Expr)
  | field (object : Expr) (name : String)
deriving Inhabited

/-- An expression as the target of an assignment, if it can be one. -/
def Expr.toTarget? : Expr → Option Target
  | .name id span => some (.name id span)
  | .index container position _ => some (.index container position)
  | .field object id _ => some (.field object id)
  | _ => none

/-! ## Statements and declarations -/

/-- A name with a declared type: a parameter of a function or a field of a class. -/
structure Slot where
  name : String
  tag : TypeTag
  span : Span
deriving DecidableEq, Inhabited

/-- A function over statements of type `S`. -/
structure FuncOf (S : Type) where
  name : String
  params : List Slot
  returns : TypeTag
  body : List S
  span : Span
deriving Inhabited

/-- A class over statements of type `S`. -/
structure ClassOf (S : Type) where
  name : String
  fields : List Slot
  methods : List (FuncOf S)
  span : Span
deriving Inhabited

/-- A condition and the block that it guards. -/
structure BranchOf (S : Type) where
  condition : Expr
  body : List S
deriving Inhabited

/-- Statements. -/
inductive Stmt where
  | declare (constant : Bool) (tag : TypeTag) (name : String) (initial : Option Expr) (span : Span)
  | assign (target : Target) (value : Expr) (span : Span)
  | print (value : Expr) (span : Span)
  | branch (condition : Expr) (body : List Stmt) (elifs : List (BranchOf Stmt))
      (otherwise : Option (List Stmt)) (span : Span)
  | whileLoop (condition : Expr) (body : List Stmt) (span : Span)
  | forLoop (init : Option Stmt) (condition : Option Expr) (increment : Option Stmt)
      (body : List Stmt) (span : Span)
  | breakLoop (span : Span)
  | skip (span : Span)
  | giveBack (value : Option Expr) (span : Span)
  | function (decl : FuncOf Stmt) (span : Span)
  | classDef (decl : ClassOf Stmt) (span : Span)
  | eval (value : Expr) (span : Span)
deriving Inhabited

/-- Functions and methods. -/
abbrev Func := FuncOf Stmt

/-- Classes. -/
abbrev Class := ClassOf Stmt

/-- A condition of an `elif` and its block. -/
abbrev Branch := BranchOf Stmt

/-- The source of a statement. -/
def Stmt.span : Stmt → Span
  | declare _ _ _ _ s | assign _ _ s | print _ s | branch _ _ _ _ s | whileLoop _ _ s
  | forLoop _ _ _ _ s | breakLoop s | skip s | giveBack _ s | function _ s | classDef _ s
  | eval _ s => s

/-- The same statement with another span. -/
def Stmt.withSpan (s : Stmt) (span : Span) : Stmt :=
  match s with
  | declare constant tag name initial _ => declare constant tag name initial span
  | assign target value _ => assign target value span
  | print value _ => print value span
  | branch condition body elifs otherwise _ => branch condition body elifs otherwise span
  | whileLoop condition body _ => whileLoop condition body span
  | forLoop init condition increment body _ => forLoop init condition increment body span
  | breakLoop _ => breakLoop span
  | skip _ => skip span
  | giveBack value _ => giveBack value span
  | function decl _ => function decl span
  | classDef decl _ => classDef decl span
  | eval value _ => eval value span

end Chalk
