import Chalk.Proofs.Precedence

/-!
# The grammar without bounds

The same grammar read by loops that end only where the tokens say so. Each function calls the ones
it needs, as often as it needs them and also itself, and nothing promises that this ends: the
functions are least fixed points, and one that goes on forever has no result.

The tokens are read from a tape, which holds all that are left, marks of an end included. Looking
beyond the last token and passing a mark are stops of their own, and not errors of the grammar; no
function here avoids them by a check of its own.

## Main definitions

* `Tape`, `Stop`, `Scan` — what is read, how reading can stop, and functions that read
* `Scan.Reads`, `Scan.Rejects` — how a function ends
* `Scan.level`, `Scan.expression`, `Scan.statement` — the grammar
* `closedTokens`, `scan` — the statements of a sequence of tokens

## Implementation notes

The bodies of the functions that recur are parametric in what they call, and the least fixed points
put the functions in their place. A function can recur only through constants, so what `Parser`
takes as a parameter is named here. The check of the recursion unfolds reducible definitions only,
which is why the bodies are `abbrev`s, and no match that is stuck, which is why `level` has none.

A function that recurs is given by `apply`. The elaborator marks any other occurrence with its place
in the source, and such a mark would stay in the fixed point: moving the text would change it.
-/

namespace Chalk

/-- The tokens left to read, marks of an end included, and the span of the token read last. -/
structure Tape where
  rest : List Token
  last : Span

/-- How reading can stop: by an error of the grammar, by looking at a token behind the last one, or
by passing a token that marks an end. -/
inductive Stop where
  | rejected (e : ParseError)
  | outside
  | passedEnd

/-- A function that reads some tokens and gives a result, or stops, or goes on forever. -/
abbrev Scan := StateT Tape (ExceptT Stop Option)

namespace Scan

variable {α β : Type}

/-! ## Results -/

/-- The function comes to a result and leaves a tape. -/
def Reads (p : Scan α) (tape : Tape) (a : α) (after : Tape) : Prop :=
  p tape = some (.ok (a, after))

/-- The function stops with an error of the grammar. -/
def Rejects (p : Scan α) (tape : Tape) (e : ParseError) : Prop :=
  p tape = some (.error (.rejected e))

theorem reads_pure_iff {a b : α} {tape after : Tape} :
    (pure a : Scan α).Reads tape b after ↔ b = a ∧ after = tape := by
  constructor
  · rintro ⟨⟩
    exact ⟨rfl, rfl⟩
  · rintro ⟨rfl, rfl⟩
    rfl

/-- One function after another has a result if both have one. -/
theorem reads_bind_iff {p : Scan β} {f : β → Scan α} {a : α} {tape after : Tape} :
    (p >>= f).Reads tape a after ↔ ∃ b mid, p.Reads tape b mid ∧ (f b).Reads mid a after := by
  show (p tape >>= fun x => f x.1 x.2) = _ ↔ _
  constructor
  · intro h
    match hp : p tape with
    | none =>
      rw [hp] at h
      cases h
    | some (.error stop) =>
      rw [hp] at h
      cases h
    | some (.ok (b, mid)) =>
      rw [hp] at h
      exact ⟨b, mid, hp, h⟩
  · rintro ⟨b, mid, hp, hf⟩
    rw [hp]
    exact hf

/-- One function after another fails if either of them does. -/
theorem rejects_bind_iff {p : Scan β} {f : β → Scan α} {e : ParseError} {tape : Tape} :
    (p >>= f).Rejects tape e ↔
      p.Rejects tape e ∨ ∃ b mid, p.Reads tape b mid ∧ (f b).Rejects mid e := by
  show (p tape >>= fun x => f x.1 x.2) = _ ↔ _
  constructor
  · intro h
    match hp : p tape with
    | none =>
      rw [hp] at h
      cases h
    | some (.error stop) =>
      rw [hp] at h
      cases h
      exact .inl hp
    | some (.ok (b, mid)) =>
      rw [hp] at h
      exact .inr ⟨b, mid, hp, h⟩
  · rintro (hp | ⟨b, mid, hp, hf⟩)
    · rw [hp]
      rfl
    · rw [hp]
      exact hf

/-! ## Single tokens -/

/-- The next token, without reading it. -/
def current : Scan Token := fun tape =>
  match tape.rest with
  | [] => throw .outside
  | t :: _ => pure (t, tape)

/-- Passes over the next token. -/
def advance : Scan Unit := fun tape =>
  match tape.rest with
  | [] => throw .outside
  | t :: rest => if t.kind.isEnd then throw .passedEnd else pure ((), ⟨rest, t.span⟩)

/-- The span of the token read last. -/
def lastSpan : Scan Span := do return (← get).last

/-- Stops with an error of the grammar. -/
def reject (e : ParseError) : Scan α := throw (.rejected e)

/-- Stops because the next token is not what the grammar asks for. -/
def failExpected (what : String) : Scan α := do
  let t ← current
  reject ⟨.expected what t.kind, t.span⟩

/-- Whether the next token is of the given kind. -/
def at? (kind : Kind) : Scan Bool := do return (← current).kind == kind

/-- Reads the next token if it is of the given kind. -/
def eat (kind : Kind) : Scan Bool := do
  if ← at? kind then
    advance
    return true
  return false

/-- Reads a token of the given kind. -/
def expect (kind : Kind) (what : String) : Scan Span := do
  let t ← current
  if t.kind == kind then
    advance
    return t.span
  failExpected what

/-- Reads an identifier. -/
def identifier (what : String) : Scan String := do
  match (← current).kind with
  | .identifier name =>
    advance
    return name
  | _ => failExpected what

theorem at?_bind (kind : Kind) (f : Bool → Scan α) :
    at? kind >>= f = current >>= fun t => f (t.kind == kind) := by
  rw [at?, bind_assoc]
  rfl

theorem eat_bind (kind : Kind) (f : Bool → Scan α) :
    eat kind >>= f = current >>= fun t =>
      if t.kind == kind then advance >>= fun _ => f true else f false := by
  rw [eat, at?_bind, bind_assoc]
  congr 1
  funext t
  split
  · rw [bind_assoc]
    rfl
  · rfl

theorem expect_bind (kind : Kind) (what : String) (f : Span → Scan α) :
    expect kind what >>= f = current >>= fun t =>
      if t.kind == kind then advance >>= fun _ => f t.span else failExpected what := by
  rw [expect, bind_assoc]
  congr 1
  funext t
  split
  · rw [bind_assoc]
    rfl
  · rw [failExpected, bind_assoc]
    rfl

theorem identifier_bind (what : String) (f : String → Scan α) :
    identifier what >>= f = current >>= fun t =>
      match t.kind with
      | .identifier name => advance >>= fun _ => f name
      | _ => failExpected what := by
  rw [identifier, bind_assoc]
  congr 1
  funext t
  split
  · rw [bind_assoc]
    rfl
  · rw [failExpected, bind_assoc]
    rfl

/-! ## Repetition -/

/-- Some items up to a closing delimiter, or none. -/
abbrev itemsUntil (close : Symbol) (what : String) (several : Scan (List α)) :
    Scan (List α) := do
  let items ← if ← at? (.symbol close) then pure [] else several
  let _ ← expect (.symbol close) what
  return items

/-- One or more items with commas between them, where `more` reads those behind a comma. -/
abbrev severalOver (item : Scan α) (more : Scan (List α)) : Scan (List α) := do
  let first ← item
  if ← eat (.symbol .comma) then
    return first :: (← more)
  return [first]

/-- An optional part that is missing if the given delimiter comes next. -/
def unlessAt (close : Symbol) (part : Scan α) : Scan (Option α) := do
  if ← at? (.symbol close) then return none
  some <$> part

/-! ## Expressions -/

/-- A key, a colon and a value. -/
abbrev dictEntry (inner : Scan Expr) : Scan (Expr × Expr) := do
  let key ← inner
  let _ ← expect (.symbol .colon) "':' after dict key"
  let value ← inner
  return (key, value)

/-- Atoms: literals, names, lists, dicts, and expressions in parentheses. -/
abbrev primary (inner : Scan Expr) (several : Scan (List Expr))
    (entries : Scan (List (Expr × Expr))) : Scan Expr := do
  let t ← current
  match t.kind with
  | .number value =>
    advance
    return .number value t.span
  | .string content =>
    advance
    return .string content t.span
  | .keyword .trueKw =>
    advance
    return .boolean true t.span
  | .keyword .falseKw =>
    advance
    return .boolean false t.span
  | .identifier name =>
    advance
    return .name name t.span
  | .keyword .thisKw =>
    advance
    return .receiver t.span
  | .symbol .leftParen =>
    advance
    let e ← inner
    let _ ← expect (.symbol .rightParen) "')' after expression"
    return e
  | .symbol .leftBracket =>
    advance
    let items ← itemsUntil .rightBracket "']' after list elements" several
    return .list items (t.span.through (← lastSpan))
  | .symbol .leftBrace =>
    advance
    let entries ← itemsUntil .rightBrace "'\x7d' after dict entries" entries
    return .dict entries (t.span.through (← lastSpan))
  | _ => failExpected "expression"

/-- Prefix operators in front of an operand. -/
abbrev unary (operand again : Scan Expr) : Scan Expr := do
  let t ← current
  match Parser.unary? t.kind with
  | none => operand
  | some op =>
    advance
    let e ← again
    return .unary op e (t.span.through e.span)

/-- Powers, which group to the right. -/
abbrev power (base again : Scan Expr) : Scan Expr := do
  let b ← base
  if ← eat (.symbol .caret) then
    let exponent ← again
    return .mkBinary .pow b exponent
  return b

/-- Further operands to the right of `left`, grouping to the left. -/
abbrev operandsOver (level : Nat → Scan Expr) (operands : Nat → Expr → Scan Expr) (rank : Nat)
    (left : Expr) : Scan Expr := do
  match Parser.operator? rank (← current).kind with
  | none => return left
  | some combine =>
    advance
    let right ← level (rank - 1)
    operands rank (combine left right)

/-- Calls, field accesses and indexing to the right of `e`, in any order. -/
abbrev suffixesOver (inner : Scan Expr) (suffixes : Expr → Scan Expr) (several : Scan (List Expr))
    (e : Expr) : Scan Expr := do
  if ← eat (.symbol .leftParen) then
    let arguments ← itemsUntil .rightParen "')' after arguments" several
    suffixes (.call e arguments (e.span.through (← lastSpan)))
  else if ← eat (.symbol .dot) then
    let name ← identifier "field or method name after '.'"
    suffixes (.field e name (e.span.through (← lastSpan)))
  else if ← eat (.symbol .leftBracket) then
    let position ← inner
    let _ ← expect (.symbol .rightBracket) "']' after index"
    suffixes (.index e position (e.span.through (← lastSpan)))
  else return e

mutual

/-- Expressions of a rank: atoms, atoms with suffixes, prefix operators in front of those, powers,
and the levels that group to the left. -/
def level : Nat → Scan Expr
  | 0 => primary ((by apply level : Nat → Scan Expr) 8) (by apply several) (by apply severalEntries)
  | 1 => do
    let e ← (by apply level : Nat → Scan Expr) 0
    (by apply suffixes : Expr → Scan Expr) e
  | 2 => unary ((by apply level : Nat → Scan Expr) 1) ((by apply level : Nat → Scan Expr) 2)
  | 3 => power ((by apply level : Nat → Scan Expr) 2) ((by apply level : Nat → Scan Expr) 3)
  | rank + 4 => do
    let first ← (by apply level : Nat → Scan Expr) (rank + 3)
    (by apply operands : Nat → Expr → Scan Expr) (rank + 4) first
partial_fixpoint

/-- Operands of a rank to the right of `left`. -/
def operands (rank : Nat) (left : Expr) : Scan Expr :=
  operandsOver (by apply level) (by apply operands) rank left
partial_fixpoint

/-- Suffixes to the right of `e`. -/
def suffixes (e : Expr) : Scan Expr :=
  suffixesOver ((by apply level : Nat → Scan Expr) 8) (by apply suffixes) (by apply several) e
partial_fixpoint

/-- One or more expressions with commas between them. -/
def several : Scan (List Expr) :=
  severalOver ((by apply level : Nat → Scan Expr) 8) (by apply several)
partial_fixpoint

/-- One or more entries of a dict with commas between them. -/
def severalEntries : Scan (List (Expr × Expr)) :=
  severalOver (dictEntry ((by apply level : Nat → Scan Expr) 8)) (by apply severalEntries)
partial_fixpoint

end

/-- Expressions. -/
def expression : Scan Expr := level 8

/-! ## Types and declarations -/

/-- A type. Only the result of a function can be `void`. -/
def typeTag (allowVoid : Bool) : Scan TypeTag := do
  let t ← current
  match t.kind with
  | .keyword .numberKw =>
    advance
    return .number
  | .keyword .stringKw =>
    advance
    return .string
  | .keyword .booleanKw =>
    advance
    return .boolean
  | .keyword .listKw =>
    advance
    return .list
  | .keyword .dictKw =>
    advance
    return .dict
  | .keyword .voidKw =>
    if allowVoid then
      advance
      return .void
    reject ⟨.voidType, t.span⟩
  | .identifier name =>
    advance
    return .ofIdentifier name
  | _ => failExpected "type name"

/-- `set [const] type name [= expression]`, without the semicolon. -/
def declaration : Scan Stmt := do
  let start ← expect (.keyword .setKw) "'set'"
  let constant ← eat (.keyword .constKw)
  let tag ← typeTag false
  let name ← identifier "variable name"
  let initial ← if ← eat (.symbol .equal) then some <$> expression else pure none
  return .declare constant tag name initial (start.through (← lastSpan))

/-- A declaration, an assignment or an expression, without the semicolon. -/
def simpleStatement : Scan Stmt := do
  let start := (← current).span
  if ← at? (.keyword .setKw) then declaration
  else
    let e ← expression
    if ← eat (.symbol .equal) then
      match e.toTarget? with
      | none => reject ⟨.invalidTarget, e.span⟩
      | some target =>
        let value ← expression
        return .assign target value (start.through (← lastSpan))
    else return .eval e e.span

/-- `type name`, the declaration of a parameter. -/
def parameter : Scan Slot := do
  let start := (← current).span
  let tag ← typeTag false
  let name ← identifier "parameter name"
  return ⟨name, tag, start.through (← lastSpan)⟩

/-- One or more parameters with commas between them. -/
def severalParameters : Scan (List Slot) :=
  severalOver parameter (by apply severalParameters)
partial_fixpoint

/-- `set type name;` in a class. -/
def fieldDeclaration : Scan Slot := do
  let start ← expect (.keyword .setKw) "'set'"
  let tag ← typeTag false
  let name ← identifier "field name"
  if ← at? (.symbol .equal) then
    reject ⟨.fieldInitializer name, (← current).span⟩
  let _ ← expect (.symbol .semicolon) "';' after field declaration"
  return ⟨name, tag, start.through (← lastSpan)⟩

/-! ## Statements with blocks -/

/-- Whether the next token is one of the given words. -/
def atOneOf (words : List Keyword) : Scan Bool := do
  match (← current).kind with
  | .keyword word => return words.contains word
  | _ => return false

/-- `if` with its branches up to `endif`. -/
abbrev ifStatement (body : Scan (List Stmt)) (elifs : Scan (List Branch))
    (otherwise : Scan (List Stmt)) (start : Span) : Scan Stmt := do
  let _ ← expect (.keyword .ifKw) "'if'"
  let condition ← expression
  let _ ← expect (.keyword .thenKw) "'then' after if condition"
  let body ← body
  let branches ← elifs
  let otherwise ← if ← eat (.keyword .elseKw) then some <$> otherwise else pure none
  let _ ← expect (.keyword .endIfKw) "'endif'"
  return .branch condition body branches otherwise (start.through (← lastSpan))

/-- `while` up to `endwhile`. -/
abbrev whileStatement (body : Scan (List Stmt)) (start : Span) : Scan Stmt := do
  let _ ← expect (.keyword .whileKw) "'while'"
  let condition ← expression
  let _ ← expect (.keyword .doKw) "'do' after while condition"
  let body ← body
  let _ ← expect (.keyword .endWhileKw) "'endwhile'"
  return .whileLoop condition body (start.through (← lastSpan))

/-- `for` with its three clauses, up to `endfor`. -/
abbrev forStatement (body : Scan (List Stmt)) (start : Span) : Scan Stmt := do
  let _ ← expect (.keyword .forKw) "'for'"
  let _ ← expect (.symbol .leftParen) "'(' after 'for'"
  let init ← unlessAt .semicolon simpleStatement
  let _ ← expect (.symbol .semicolon) "';' after for initializer"
  let condition ← unlessAt .semicolon expression
  let _ ← expect (.symbol .semicolon) "';' after for condition"
  let increment ← unlessAt .rightParen simpleStatement
  let _ ← expect (.symbol .rightParen) "')' after for clauses"
  let _ ← expect (.keyword .doKw) "'do' after for clauses"
  let body ← body
  let _ ← expect (.keyword .endForKw) "'endfor'"
  return .forLoop init condition increment body (start.through (← lastSpan))

/-- `func` with its signature and body, up to `endfunc`. -/
abbrev functionDecl (body : Scan (List Stmt)) : Scan Func := do
  let start ← expect (.keyword .funcKw) "'func'"
  let returns ← typeTag true
  let name ← identifier "function name"
  let _ ← expect (.symbol .leftParen) "'(' after function name"
  let params ← itemsUntil .rightParen "')' after parameters" severalParameters
  let _ ← expect (.keyword .doKw) "'do' before function body"
  let body ← body
  let _ ← expect (.keyword .endFuncKw) "'endfunc'"
  return { name, params, returns, body, span := start.through (← lastSpan) }

/-- `class` up to `endclass`. The word `do` after the name may be left out. -/
abbrev classDecl (members : Scan (List Slot × List Func)) : Scan Class := do
  let start ← expect (.keyword .classKw) "'class'"
  let name ← identifier "class name"
  let _ ← eat (.keyword .doKw)
  let (fields, methods) ← members
  let _ ← expect (.keyword .endClassKw) "'endclass'"
  return { name, fields, methods, span := start.through (← lastSpan) }

/-- A statement that ends with a semicolon and spans from `start` through it. -/
def closed (start : Span) (what : String) (part : Scan Stmt) : Scan Stmt := do
  let s ← part
  let _ ← expect (.symbol .semicolon) what
  return s.withSpan (start.through (← lastSpan))

/-- Statements up to one of the closing words, which is not read. -/
abbrev blockOver (block : List Keyword → String → Scan (List Stmt)) (statement : Scan Stmt)
    (closers : List Keyword) (what : String) : Scan (List Stmt) := do
  if ← atOneOf closers then return []
  if (← current).kind.isEnd then failExpected what
  else
    let first ← statement
    return first :: (← block closers what)

/-- The `elif` branches of an `if`. -/
abbrev elifsOver (body : Scan (List Stmt)) (elifs : Scan (List Branch)) :
    Scan (List Branch) := do
  if ← eat (.keyword .elifKw) then
    let condition ← expression
    let _ ← expect (.keyword .thenKw) "'then' after elif condition"
    let body ← body
    return ⟨condition, body⟩ :: (← elifs)
  else return []

/-- The fields and methods of a class up to `endclass`, which is not read. Fields and methods may
alternate. -/
abbrev membersOver (body : Scan (List Stmt)) (members : Scan (List Slot × List Func)) :
    Scan (List Slot × List Func) := do
  match (← current).kind with
  | .keyword .endClassKw => return ([], [])
  | .keyword .setKw =>
    let field ← fieldDeclaration
    let (fields, methods) ← members
    return (field :: fields, methods)
  | .keyword .funcKw =>
    let method ← functionDecl body
    let (fields, methods) ← members
    return (fields, method :: methods)
  | _ => failExpected "field declaration, method or 'endclass'"

/-- Statements. -/
abbrev statementOver (block : List Keyword → String → Scan (List Stmt))
    (elifs : Scan (List Branch)) (members : Scan (List Slot × List Func)) : Scan Stmt := do
  let t ← current
  let start := t.span
  match t.kind with
  | .keyword .setKw => closed start "';' after declaration" declaration
  | .keyword .printKw =>
    closed start "';' after print statement" do
      advance
      return .print (← expression) start
  | .keyword .ifKw =>
    ifStatement (block Parser.branchClosers "'endif'") elifs (block [.endIfKw] "'endif'") start
  | .keyword .whileKw => whileStatement (block [.endWhileKw] "'endwhile'") start
  | .keyword .forKw => forStatement (block [.endForKw] "'endfor'") start
  | .keyword .funcKw =>
    let decl ← functionDecl (block [.endFuncKw] "'endfunc'")
    return .function decl (start.through (← lastSpan))
  | .keyword .classKw =>
    let decl ← classDecl members
    return .classDef decl (start.through (← lastSpan))
  | .keyword .breakKw =>
    closed start "';' after 'break'" do
      advance
      return .breakLoop start
  | .keyword .skipKw =>
    closed start "';' after 'skip'" do
      advance
      return .skip start
  | .keyword .returnKw =>
    closed start "';' after return statement" do
      advance
      return .giveBack (← unlessAt .semicolon expression) start
  | _ => closed start "';' after statement" simpleStatement

mutual

/-- Statements up to one of the closing words. -/
def block (closers : List Keyword) (what : String) : Scan (List Stmt) :=
  blockOver (by apply block) (by apply statement) closers what
partial_fixpoint

/-- The `elif` branches of an `if`. -/
def elifs : Scan (List Branch) :=
  elifsOver ((by apply block : List Keyword → String → Scan (List Stmt))
    Parser.branchClosers "'endif'") (by apply elifs)
partial_fixpoint

/-- The fields and methods of a class. -/
def members : Scan (List Slot × List Func) :=
  membersOver ((by apply block : List Keyword → String → Scan (List Stmt))
    [.endFuncKw] "'endfunc'") (by apply members)
partial_fixpoint

/-- Statements. -/
def statement : Scan Stmt :=
  statementOver (by apply block) (by apply elifs) (by apply members)
partial_fixpoint

end

end Scan

/-! ## Programs -/

/-- If the last token does not mark an end, a mark is put behind it. -/
def closedTokens (ts : List Token) : List Token :=
  if (ts.getLast?.map fun t => t.kind.isEnd) = some true then ts
  else ts ++ [⟨.endOfInput, ((ts.getLast?.map Token.span).getD {}).after⟩]

/-- The tape that a sequence of tokens gives. -/
def Tape.ofTokens (ts : List Token) : Tape :=
  { rest := closedTokens ts, last := ((closedTokens ts).head?.map Token.span).getD {} }

/-- Statements up to a mark of an end or the first stop, put behind those that were completed. -/
def scanStatements (done : List Stmt) (tape : Tape) : Option (List Stmt × Option Stop) := do
  match tape.rest with
  | [] => return (done, some .outside)
  | t :: _ =>
    if t.kind.isEnd then return (done, none)
    match ← Scan.statement tape with
    | .error stop => return (done, some stop)
    | .ok (s, after) =>
      (by apply scanStatements : List Stmt → Tape → Option _) (done ++ [s]) after
partial_fixpoint

/-- The statements of a sequence of tokens that were completed, and how reading stopped, if it did
not come to an end. -/
def scan (ts : List Token) : Option (List Stmt × Option Stop) :=
  scanStatements [] (Tape.ofTokens ts)

end Chalk
