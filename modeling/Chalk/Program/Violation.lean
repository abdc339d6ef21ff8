import Chalk.Builtin
import Chalk.Program

/-!
# Rules that a program must keep

Before a program runs, its names and jumps are checked against its block structure: a name must be
declared, `break` and `skip` need a loop, `return` a function and `this` a method. All violations
are found, in the order of the source; none hides another.

Which names are declared at a place follows from four rules.

* A function or class is visible in the whole block that declares it, and inside itself.
* A variable is visible from the end of its declaration to the end of its block.
* A parameter is visible in the body of its function.
* The variable of a `for` loop is visible in its condition, its body and its increment.

Members of objects are not checked: they are found when the program runs.

## Main definitions

* `Violation` — a broken rule and its place
* `Context` — what is visible at a place, and what encloses it
* `violations` — the violations of a program
-/

namespace Chalk

/-- The rules. -/
inductive Rule where
  | undefinedVariable (name : String)
  | breakOutsideLoop
  | skipOutsideLoop
  | returnOutsideFunction
  | thisOutsideMethod
deriving DecidableEq, Inhabited

/-- The wording for a broken rule. -/
def Rule.message : Rule → String
  | undefinedVariable name => "Undefined variable '" ++ name ++ "'"
  | breakOutsideLoop => "'break' used outside of loop"
  | skipOutsideLoop => "'skip' used outside of loop"
  | returnOutsideFunction => "'return' used outside of function"
  | thisOutsideMethod => "'this' used outside of class method"

/-- A broken rule and its place. -/
structure Violation where
  rule : Rule
  span : Span
deriving DecidableEq, Inhabited

/-- What is visible at a place of a program, and what encloses it. A loop encloses only what lies
in the same function. -/
structure Context where
  visible : List String
  inLoop : Bool := false
  inFunction : Bool := false
  inMethod : Bool := false
deriving DecidableEq, Inhabited

namespace Context

/-- The place where a program starts: the built-in functions are visible. -/
def start : Context := { visible := Native.all.map Native.name }

/-- More visible names. -/
def declare (c : Context) (names : List String) : Context :=
  { c with visible := names ++ c.visible }

/-- Inside a loop. -/
def enterLoop (c : Context) : Context := { c with inLoop := true }

/-- Inside a function, or inside a method. -/
def enterFunction (c : Context) (params : List Slot) (isMethod : Bool) : Context :=
  { visible := params.map Slot.name ++ c.visible
    inLoop := false
    inFunction := true
    inMethod := c.inMethod || isMethod }

/-- The violation of reading or assigning a name that is not visible. -/
def resolve (c : Context) (name : String) (span : Span) : List Violation :=
  if c.visible.contains name then [] else [⟨.undefinedVariable name, span⟩]

/-- A violation unless the condition holds. -/
def require (condition : Bool) (rule : Rule) (span : Span) : List Violation :=
  if condition then [] else [⟨rule, span⟩]

end Context

/-- The name that a statement declares in its block. -/
def Stmt.declared : Stmt → List String
  | .declare _ _ name _ _ => [name]
  | .function decl _ => [decl.name]
  | .classDef decl _ => [decl.name]
  | _ => []

/-- The name that a statement declares for its whole block. -/
def Stmt.hoisted : Stmt → List String
  | .function decl _ => [decl.name]
  | .classDef decl _ => [decl.name]
  | _ => []

/-! ## Expressions -/

mutual

/-- The violations in an expression. -/
def Expr.violations (c : Context) : Expr → List Violation
  | .number .. => []
  | .string .. => []
  | .boolean .. => []
  | .name id span => c.resolve id span
  | .receiver span => Context.require c.inMethod .thisOutsideMethod span
  | .list items _ => Expr.violationsList c items
  | .dict entries _ => Expr.violationsEntries c entries
  | .binary _ left right _ => left.violations c ++ right.violations c
  | .logical _ left right _ => left.violations c ++ right.violations c
  | .unary _ operand _ => operand.violations c
  | .call callee arguments _ => callee.violations c ++ Expr.violationsList c arguments
  | .field object _ _ => object.violations c
  | .index container position _ => container.violations c ++ position.violations c

/-- The violations in some expressions. -/
def Expr.violationsList (c : Context) : List Expr → List Violation
  | [] => []
  | e :: es => e.violations c ++ Expr.violationsList c es

/-- The violations in the entries of a dict. -/
def Expr.violationsEntries (c : Context) : List (Expr × Expr) → List Violation
  | [] => []
  | (key, value) :: entries =>
    key.violations c ++ value.violations c ++ Expr.violationsEntries c entries

end

/-- The violations in an expression that may be missing. -/
def Expr.violationsOption (c : Context) : Option Expr → List Violation
  | none => []
  | some e => e.violations c

/-- The violations in the target of an assignment. -/
def Target.violations (c : Context) : Target → List Violation
  | .name id span => c.resolve id span
  | .index container position => container.violations c ++ position.violations c
  | .field object _ => object.violations c

/-! ## Statements -/

mutual

/-- The violations in a statement. -/
def Stmt.violations (c : Context) : Stmt → List Violation
  | .declare _ _ _ initial _ => Expr.violationsOption c initial
  | .assign target value _ => target.violations c ++ value.violations c
  | .print value _ => value.violations c
  | .branch condition body elifs otherwise _ =>
    condition.violations c ++ Stmt.violationsSeq (c.declare (body.flatMap Stmt.hoisted)) body ++
      Stmt.violationsElifs c elifs ++ Stmt.violationsElse c otherwise
  | .whileLoop condition body _ =>
    condition.violations c ++
      Stmt.violationsSeq (c.enterLoop.declare (body.flatMap Stmt.hoisted)) body
  | .forLoop init condition increment body _ =>
    let inner := c.declare ((init.map Stmt.declared).getD [])
    Stmt.violationsOption c init ++ Expr.violationsOption inner condition ++
      Stmt.violationsSeq (inner.enterLoop.declare (body.flatMap Stmt.hoisted)) body ++
      Stmt.violationsOption inner increment
  | .breakLoop span => Context.require c.inLoop .breakOutsideLoop span
  | .skip span => Context.require c.inLoop .skipOutsideLoop span
  | .giveBack value span =>
    Context.require c.inFunction .returnOutsideFunction span ++ Expr.violationsOption c value
  | .function decl _ => Stmt.violationsFunc (c.declare [decl.name]) false decl
  | .classDef decl _ => Stmt.violationsClass (c.declare [decl.name]) decl
  | .eval value _ => value.violations c

/-- The violations in a statement that may be missing. -/
def Stmt.violationsOption (c : Context) : Option Stmt → List Violation
  | none => []
  | some s => s.violations c

/-- The violations in the statements of a block, each seen by those after it. -/
def Stmt.violationsSeq (c : Context) : List Stmt → List Violation
  | [] => []
  | s :: rest => s.violations c ++ Stmt.violationsSeq (c.declare s.declared) rest

/-- The violations in the `elif` branches of an `if`. -/
def Stmt.violationsElifs (c : Context) : List (BranchOf Stmt) → List Violation
  | [] => []
  | ⟨condition, body⟩ :: rest =>
    condition.violations c ++ Stmt.violationsSeq (c.declare (body.flatMap Stmt.hoisted)) body ++
      Stmt.violationsElifs c rest

/-- The violations in the `else` block of an `if`. -/
def Stmt.violationsElse (c : Context) : Option (List Stmt) → List Violation
  | none => []
  | some body => Stmt.violationsSeq (c.declare (body.flatMap Stmt.hoisted)) body

/-- The violations in a function or method. -/
def Stmt.violationsFunc (c : Context) (isMethod : Bool) : FuncOf Stmt → List Violation
  | ⟨_, params, _, body, _⟩ =>
    Stmt.violationsSeq ((c.enterFunction params isMethod).declare (body.flatMap Stmt.hoisted)) body

/-- The violations in the methods of a class. -/
def Stmt.violationsMethods (c : Context) : List (FuncOf Stmt) → List Violation
  | [] => []
  | method :: rest => Stmt.violationsFunc c true method ++ Stmt.violationsMethods c rest

/-- The violations in a class. -/
def Stmt.violationsClass (c : Context) : ClassOf Stmt → List Violation
  | ⟨_, _, methods, _⟩ => Stmt.violationsMethods c methods

end

/-- The violations of a program. -/
def violations (program : List Stmt) : List Violation :=
  Stmt.violationsSeq (Context.start.declare (program.flatMap Stmt.hoisted)) program

end Chalk
