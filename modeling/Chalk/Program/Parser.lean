import Chalk.Program
import Chalk.Token

/-!
# From tokens to programs

A recursive-descent parser without recovery: the first violation of the grammar ends it, and the
statements completed before remain available.

Each level of the grammar is a function of the parser for what nests inside it, and every
repetition is bounded by a number that is at least the number of tokens left. A repetition reads a
token on each turn, so the bound never cuts one short; when it reaches zero there is nothing left
to read, and the clause for zero does what the grammar asks for at the end of the input.

## Grammar of expressions, loosest first

`or`, `and`, comparisons, sums, products (all grouping to the left), powers (grouping to the
right), prefix operators, then calls, field accesses and indexing, then atoms.

## Main definitions

* `ParseFault`, `ParseError` — what can be wrong with a sequence of tokens, and where
* `Input`, `Parser` — the tokens left, and functions that read them
* `Parser.expression`, `Parser.statement` — the grammar
* `parse` — the statements of a sequence of tokens, with the failure that ended it
-/

namespace Chalk

/-! ## Errors -/

/-- What can be wrong with a sequence of tokens. -/
inductive ParseFault where
  | expected (what : String) (found : Kind)
  | voidType
  | fieldInitializer (name : String)
  | invalidTarget
deriving DecidableEq, Inhabited

/-- The wording of a fault. -/
def ParseFault.message : ParseFault → String
  | expected what found => "Expected " ++ what ++ ", found " ++ found.describe
  | voidType => "'void' is only valid as a function return type"
  | fieldInitializer name =>
    "Field '" ++ name ++ "' cannot have an initializer; assign it in 'init'"
  | invalidTarget => "Invalid assignment target: expected a variable, index or field"

/-- A fault and its place. -/
structure ParseError where
  fault : ParseFault
  span : Span
deriving DecidableEq, Inhabited

/-! ## Input -/

/-- The tokens left to read. None of them marks the end of the input: that is at `stop`. `last` is
the span of the token read last and, before the first one, that of the first. -/
structure Input where
  rest : List Token
  stop : Span
  last : Span
deriving DecidableEq, Inhabited

namespace Input

/-- The next token. -/
def current (i : Input) : Token :=
  match i.rest with
  | [] => ⟨.endOfInput, i.stop⟩
  | t :: _ => t

/-- The input after the next token. The end of the input is never passed. -/
def advance (i : Input) : Input :=
  match i.rest with
  | [] => i
  | t :: rest => { i with rest, last := t.span }

/-- The input that a sequence of tokens gives. It ends at the first token that marks an end or,
without one, right after the last token. -/
def ofTokens (ts : List Token) : Input :=
  let rest := ts.takeWhile fun t => !t.kind.isEnd
  let stop :=
    match ts.find? fun t => t.kind.isEnd with
    | some t => t.span
    | none => ((ts.getLast?.map Token.span).getD {}).after
  { rest, stop, last := ((rest.head?.map Token.span).getD stop) }

end Input

/-- A function that reads some tokens and gives a result, or fails. -/
abbrev Parser := StateT Input (Except ParseError)

namespace Parser

/-! ## Single tokens -/

/-- The next token, without reading it. -/
def current : Parser Token := do return (← get).current

/-- Passes over the next token. -/
def advance : Parser Unit := modify Input.advance

/-- The span of the token read last. -/
def lastSpan : Parser Span := do return (← get).last

/-- Fails because the next token is not what the grammar asks for. -/
def failExpected (what : String) : Parser α := do
  let t ← current
  throw ⟨.expected what t.kind, t.span⟩

/-- Whether the next token is of the given kind. -/
def at? (kind : Kind) : Parser Bool := do return (← current).kind == kind

/-- Reads the next token if it is of the given kind. -/
def eat (kind : Kind) : Parser Bool := do
  if ← at? kind then
    advance
    return true
  return false

/-- Reads a token of the given kind. -/
def expect (kind : Kind) (what : String) : Parser Span := do
  let t ← current
  if t.kind == kind then
    advance
    return t.span
  failExpected what

/-- Reads an identifier. -/
def identifier (what : String) : Parser String := do
  match (← current).kind with
  | .identifier name =>
    advance
    return name
  | _ => failExpected what

theorem at?_bind (kind : Kind) (f : Bool → Parser α) :
    at? kind >>= f = current >>= fun t => f (t.kind == kind) := by
  rw [at?, bind_assoc]
  rfl

theorem eat_bind (kind : Kind) (f : Bool → Parser α) :
    eat kind >>= f = current >>= fun t =>
      if t.kind == kind then advance >>= fun _ => f true else f false := by
  rw [eat, at?_bind, bind_assoc]
  congr 1
  funext t
  split
  · rw [bind_assoc]
    rfl
  · rfl

theorem expect_bind (kind : Kind) (what : String) (f : Span → Parser α) :
    expect kind what >>= f = current >>= fun t =>
      if t.kind == kind then advance >>= fun _ => f t.span else failExpected what := by
  rw [expect, bind_assoc]
  congr 1
  funext t
  split
  · rw [bind_assoc]
    rfl
  · rfl

theorem identifier_bind (what : String) (f : String → Parser α) :
    identifier what >>= f = current >>= fun t =>
      match t.kind with
      | .identifier name => advance >>= fun _ => f name
      | _ => failExpected what := by
  rw [identifier, bind_assoc]
  congr 1
  funext t
  split
  · rw [bind_assoc]
    rfl
  · rfl

/-! ## Repetition -/

/-- One or more items with commas between them. -/
def commaSeparated (item : Parser α) : Nat → Parser (List α)
  | 0 => do return [← item]
  | bound + 1 => do
    let first ← item
    if ← eat (.symbol .comma) then
      return first :: (← commaSeparated item bound)
    return [first]

/-- Items with commas between them up to a closing delimiter, possibly none. -/
def itemsUntil (close : Symbol) (what : String) (item : Parser α) (bound : Nat) :
    Parser (List α) := do
  let items ← if ← at? (.symbol close) then pure [] else commaSeparated item bound
  let _ ← expect (.symbol close) what
  return items

/-- Further operands to the right of `left`, grouping to the left. -/
def operands (operand : Parser Expr) (operator? : Kind → Option (Expr → Expr → Expr)) :
    Nat → Expr → Parser Expr
  | 0, left => return left
  | bound + 1, left => do
    match operator? (← current).kind with
    | none => return left
    | some combine =>
      advance
      let right ← operand
      operands operand operator? bound (combine left right)

/-- One or more operands joined by the operators of one level, grouping to the left. -/
def leftLevel (operator? : Kind → Option (Expr → Expr → Expr)) (bound : Nat)
    (operand : Parser Expr) : Parser Expr := do
  let first ← operand
  operands operand operator? bound first

/-! ## Operators by level -/

/-- The operator of alternatives. -/
def orOperator? : Kind → Option (Expr → Expr → Expr)
  | .keyword .orKw => some (.mkLogical .or)
  | _ => none

/-- The operator of conjunctions. -/
def andOperator? : Kind → Option (Expr → Expr → Expr)
  | .keyword .andKw => some (.mkLogical .and)
  | _ => none

/-- The operators that compare. -/
def comparison? : Kind → Option (Expr → Expr → Expr)
  | .symbol .equalEqual => some (.mkBinary .equal)
  | .symbol .bangEqual => some (.mkBinary .notEqual)
  | .symbol .less => some (.mkBinary .less)
  | .symbol .lessEqual => some (.mkBinary .lessEqual)
  | .symbol .greater => some (.mkBinary .greater)
  | .symbol .greaterEqual => some (.mkBinary .greaterEqual)
  | _ => none

/-- The operators of sums. -/
def additive? : Kind → Option (Expr → Expr → Expr)
  | .symbol .plus => some (.mkBinary .add)
  | .symbol .minus => some (.mkBinary .sub)
  | _ => none

/-- The operators of products. -/
def multiplicative? : Kind → Option (Expr → Expr → Expr)
  | .symbol .star => some (.mkBinary .mul)
  | .symbol .slash => some (.mkBinary .div)
  | .symbol .percent => some (.mkBinary .mod)
  | _ => none

/-- The operators in front of their operand. -/
def unary? : Kind → Option UnaryOp
  | .symbol .minus => some .negate
  | .keyword .notKw => some .not
  | _ => none

/-! ## Expressions -/

/-- A key, a colon and a value. -/
def dictEntry (inner : Parser Expr) : Parser (Expr × Expr) := do
  let key ← inner
  let _ ← expect (.symbol .colon) "':' after dict key"
  let value ← inner
  return (key, value)

/-- Atoms: literals, names, lists, dicts, and expressions in parentheses. -/
def primary (inner : Parser Expr) (bound : Nat) : Parser Expr := do
  let t ← current
  match t.kind with
  | .number value =>
    advance
    return .number value t.span
  | .string content =>
    advance
    return .string content t.span
  | .keyword .trueKw =>
    advance
    return .boolean true t.span
  | .keyword .falseKw =>
    advance
    return .boolean false t.span
  | .identifier name =>
    advance
    return .name name t.span
  | .keyword .thisKw =>
    advance
    return .receiver t.span
  | .symbol .leftParen =>
    advance
    let e ← inner
    let _ ← expect (.symbol .rightParen) "')' after expression"
    return e
  | .symbol .leftBracket =>
    advance
    let items ← itemsUntil .rightBracket "']' after list elements" inner bound
    return .list items (t.span.through (← lastSpan))
  | .symbol .leftBrace =>
    advance
    let entries ← itemsUntil .rightBrace "'\x7d' after dict entries" (dictEntry inner) bound
    return .dict entries (t.span.through (← lastSpan))
  | _ => failExpected "expression"

/-- Calls, field accesses and indexing to the right of `e`, in any order. -/
def suffixes (inner : Parser Expr) (bound : Nat) : Nat → Expr → Parser Expr
  | 0, e => return e
  | turns + 1, e => do
    if ← eat (.symbol .leftParen) then
      let arguments ← itemsUntil .rightParen "')' after arguments" inner bound
      suffixes inner bound turns (.call e arguments (e.span.through (← lastSpan)))
    else if ← eat (.symbol .dot) then
      let name ← identifier "field or method name after '.'"
      suffixes inner bound turns (.field e name (e.span.through (← lastSpan)))
    else if ← eat (.symbol .leftBracket) then
      let position ← inner
      let _ ← expect (.symbol .rightBracket) "']' after index"
      suffixes inner bound turns (.index e position (e.span.through (← lastSpan)))
    else return e

/-- An atom with its suffixes. -/
def suffixed (inner : Parser Expr) (bound : Nat) : Parser Expr := do
  let e ← primary inner bound
  suffixes inner bound bound e

/-- Prefix operators in front of an operand. -/
def unary (operand : Parser Expr) : Nat → Parser Expr
  | 0 => operand
  | bound + 1 => do
    let t ← current
    match unary? t.kind with
    | none => operand
    | some op =>
      advance
      let e ← unary operand bound
      return .unary op e (t.span.through e.span)

/-- Powers. The exponent is a power itself, so they group to the right. -/
def power (base : Parser Expr) : Nat → Parser Expr
  | 0 => base
  | bound + 1 => do
    let b ← base
    if ← eat (.symbol .caret) then
      let exponent ← power base bound
      return .mkBinary .pow b exponent
    return b

/-- Expressions whose nested expressions are read by `inner`. -/
def expressionOver (inner : Parser Expr) (bound : Nat) : Parser Expr :=
  leftLevel orOperator? bound <| leftLevel andOperator? bound <| leftLevel comparison? bound <|
    leftLevel additive? bound <| leftLevel multiplicative? bound <|
      power (unary (suffixed inner bound) bound) bound

/-- Expressions, for an input of at most `bound` tokens. -/
def expression : Nat → Parser Expr
  | 0 => failExpected "expression"
  | bound + 1 => expressionOver (expression bound) (bound + 1)

/-! ## Types and declarations -/

/-- A type. Only the result of a function can be `void`. -/
def typeTag (allowVoid : Bool) : Parser TypeTag := do
  let t ← current
  match t.kind with
  | .keyword .numberKw =>
    advance
    return .number
  | .keyword .stringKw =>
    advance
    return .string
  | .keyword .booleanKw =>
    advance
    return .boolean
  | .keyword .listKw =>
    advance
    return .list
  | .keyword .dictKw =>
    advance
    return .dict
  | .keyword .voidKw =>
    if allowVoid then
      advance
      return .void
    throw ⟨.voidType, t.span⟩
  | .identifier name =>
    advance
    return .ofIdentifier name
  | _ => failExpected "type name"

/-- `set [const] type name [= expression]`, without the semicolon. -/
def declaration (expr : Parser Expr) : Parser Stmt := do
  let start ← expect (.keyword .setKw) "'set'"
  let constant ← eat (.keyword .constKw)
  let tag ← typeTag false
  let name ← identifier "variable name"
  let initial ← if ← eat (.symbol .equal) then some <$> expr else pure none
  return .declare constant tag name initial (start.through (← lastSpan))

/-- A declaration, an assignment or an expression, without the semicolon. -/
def simpleStatement (expr : Parser Expr) : Parser Stmt := do
  let start := (← current).span
  if ← at? (.keyword .setKw) then declaration expr
  else
    let e ← expr
    if ← eat (.symbol .equal) then
      match e.toTarget? with
      | none => throw ⟨.invalidTarget, e.span⟩
      | some target =>
        let value ← expr
        return .assign target value (start.through (← lastSpan))
    else return .eval e e.span

/-- `type name`, the declaration of a parameter. -/
def parameter : Parser Slot := do
  let start := (← current).span
  let tag ← typeTag false
  let name ← identifier "parameter name"
  return ⟨name, tag, start.through (← lastSpan)⟩

/-- `set type name;` in a class. -/
def fieldDeclaration : Parser Slot := do
  let start ← expect (.keyword .setKw) "'set'"
  let tag ← typeTag false
  let name ← identifier "field name"
  if ← at? (.symbol .equal) then
    throw ⟨.fieldInitializer name, (← current).span⟩
  let _ ← expect (.symbol .semicolon) "';' after field declaration"
  return ⟨name, tag, start.through (← lastSpan)⟩

/-! ## Blocks -/

/-- Whether the next token is one of the given words. -/
def atOneOf (words : List Keyword) : Parser Bool := do
  match (← current).kind with
  | .keyword word => return words.contains word
  | _ => return false

/-- Statements up to one of the closing words, which is not read. -/
def block (stmt : Parser Stmt) (closers : List Keyword) (what : String) :
    Nat → Parser (List Stmt)
  | 0 => do
    if ← atOneOf closers then return []
    failExpected what
  | bound + 1 => do
    if ← atOneOf closers then return []
    if (← current).kind.isEnd then failExpected what
    else
      let first ← stmt
      return first :: (← block stmt closers what bound)

/-- The words that end a block of an `if`. -/
def branchClosers : List Keyword := [.elifKw, .elseKw, .endIfKw]

/-- The `elif` branches of an `if`. -/
def elifs (expr : Parser Expr) (stmt : Parser Stmt) (bound : Nat) : Nat → Parser (List Branch)
  | 0 => return []
  | turns + 1 => do
    if ← eat (.keyword .elifKw) then
      let condition ← expr
      let _ ← expect (.keyword .thenKw) "'then' after elif condition"
      let body ← block stmt branchClosers "'endif'" bound
      return ⟨condition, body⟩ :: (← elifs expr stmt bound turns)
    else return []

/-- `if` with its branches up to `endif`. -/
def ifStatement (expr : Parser Expr) (stmt : Parser Stmt) (bound : Nat) (start : Span) :
    Parser Stmt := do
  let _ ← expect (.keyword .ifKw) "'if'"
  let condition ← expr
  let _ ← expect (.keyword .thenKw) "'then' after if condition"
  let body ← block stmt branchClosers "'endif'" bound
  let branches ← elifs expr stmt bound bound
  let otherwise ←
    if ← eat (.keyword .elseKw) then some <$> block stmt [.endIfKw] "'endif'" bound
    else pure none
  let _ ← expect (.keyword .endIfKw) "'endif'"
  return .branch condition body branches otherwise (start.through (← lastSpan))

/-- `while` up to `endwhile`. -/
def whileStatement (expr : Parser Expr) (stmt : Parser Stmt) (bound : Nat) (start : Span) :
    Parser Stmt := do
  let _ ← expect (.keyword .whileKw) "'while'"
  let condition ← expr
  let _ ← expect (.keyword .doKw) "'do' after while condition"
  let body ← block stmt [.endWhileKw] "'endwhile'" bound
  let _ ← expect (.keyword .endWhileKw) "'endwhile'"
  return .whileLoop condition body (start.through (← lastSpan))

/-- An optional part that is missing if the given delimiter comes next. -/
def unlessAt (close : Symbol) (part : Parser α) : Parser (Option α) := do
  if ← at? (.symbol close) then return none
  some <$> part

/-- `for` with its three clauses, up to `endfor`. -/
def forStatement (expr : Parser Expr) (stmt : Parser Stmt) (bound : Nat) (start : Span) :
    Parser Stmt := do
  let _ ← expect (.keyword .forKw) "'for'"
  let _ ← expect (.symbol .leftParen) "'(' after 'for'"
  let init ← unlessAt .semicolon (simpleStatement expr)
  let _ ← expect (.symbol .semicolon) "';' after for initializer"
  let condition ← unlessAt .semicolon expr
  let _ ← expect (.symbol .semicolon) "';' after for condition"
  let increment ← unlessAt .rightParen (simpleStatement expr)
  let _ ← expect (.symbol .rightParen) "')' after for clauses"
  let _ ← expect (.keyword .doKw) "'do' after for clauses"
  let body ← block stmt [.endForKw] "'endfor'" bound
  let _ ← expect (.keyword .endForKw) "'endfor'"
  return .forLoop init condition increment body (start.through (← lastSpan))

/-- `func` with its signature and body, up to `endfunc`. -/
def functionDecl (stmt : Parser Stmt) (bound : Nat) : Parser Func := do
  let start ← expect (.keyword .funcKw) "'func'"
  let returns ← typeTag true
  let name ← identifier "function name"
  let _ ← expect (.symbol .leftParen) "'(' after function name"
  let params ← itemsUntil .rightParen "')' after parameters" parameter bound
  let _ ← expect (.keyword .doKw) "'do' before function body"
  let body ← block stmt [.endFuncKw] "'endfunc'" bound
  let _ ← expect (.keyword .endFuncKw) "'endfunc'"
  return { name, params, returns, body, span := start.through (← lastSpan) }

/-- The fields and methods of a class up to `endclass`, which is not read. Fields and methods may
alternate. -/
def members (stmt : Parser Stmt) (bound : Nat) : Nat → Parser (List Slot × List Func)
  | 0 => failExpected "field declaration, method or 'endclass'"
  | turns + 1 => do
    match (← current).kind with
    | .keyword .endClassKw => return ([], [])
    | .keyword .setKw =>
      let field ← fieldDeclaration
      let (fields, methods) ← members stmt bound turns
      return (field :: fields, methods)
    | .keyword .funcKw =>
      let method ← functionDecl stmt bound
      let (fields, methods) ← members stmt bound turns
      return (fields, method :: methods)
    | _ => failExpected "field declaration, method or 'endclass'"

/-- `class` up to `endclass`. The word `do` after the name may be left out. -/
def classDecl (stmt : Parser Stmt) (bound : Nat) : Parser Class := do
  let start ← expect (.keyword .classKw) "'class'"
  let name ← identifier "class name"
  let _ ← eat (.keyword .doKw)
  let (fields, methods) ← members stmt bound bound
  let _ ← expect (.keyword .endClassKw) "'endclass'"
  return { name, fields, methods, span := start.through (← lastSpan) }

/-! ## Statements -/

/-- A statement that ends with a semicolon and spans from `start` through it. -/
def closed (start : Span) (what : String) (part : Parser Stmt) : Parser Stmt := do
  let s ← part
  let _ ← expect (.symbol .semicolon) what
  return s.withSpan (start.through (← lastSpan))

/-- Statements whose nested statements are read by `stmt`. -/
def statementOver (expr : Parser Expr) (stmt : Parser Stmt) (bound : Nat) : Parser Stmt := do
  let t ← current
  let start := t.span
  match t.kind with
  | .keyword .setKw => closed start "';' after declaration" (declaration expr)
  | .keyword .printKw =>
    closed start "';' after print statement" do
      advance
      return .print (← expr) start
  | .keyword .ifKw => ifStatement expr stmt bound start
  | .keyword .whileKw => whileStatement expr stmt bound start
  | .keyword .forKw => forStatement expr stmt bound start
  | .keyword .funcKw =>
    let decl ← functionDecl stmt bound
    return .function decl (start.through (← lastSpan))
  | .keyword .classKw =>
    let decl ← classDecl stmt bound
    return .classDef decl (start.through (← lastSpan))
  | .keyword .breakKw =>
    closed start "';' after 'break'" do
      advance
      return .breakLoop start
  | .keyword .skipKw =>
    closed start "';' after 'skip'" do
      advance
      return .skip start
  | .keyword .returnKw =>
    closed start "';' after return statement" do
      advance
      return .giveBack (← unlessAt .semicolon expr) start
  | _ => closed start "';' after statement" (simpleStatement expr)

/-- Statements, for an input of at most `bound` tokens. -/
def statement : Nat → Parser Stmt
  | 0 => failExpected "expression"
  | bound + 1 => statementOver (expression (bound + 1)) (statement bound) (bound + 1)

end Parser

/-! ## Programs -/

/-- The statements that were completed, and the failure that ended parsing, if any. -/
structure Parsed where
  statements : List Stmt
  failure : Option ParseError
deriving Inhabited

/-- Statements up to the end of the input or the first failure, for an input of at most `bound`
tokens. -/
def parseStatements : Nat → Input → Parsed
  | 0, _ => ⟨[], none⟩
  | bound + 1, i =>
    if i.rest.isEmpty then ⟨[], none⟩
    else
      match Parser.statement (bound + 1) i with
      | .error e => ⟨[], some e⟩
      | .ok (s, after) =>
        let more := parseStatements bound after
        ⟨s :: more.statements, more.failure⟩

/-- The statements of a sequence of tokens. -/
def parse (ts : List Token) : Parsed :=
  let i := Input.ofTokens ts
  parseStatements i.rest.length i

end Chalk
