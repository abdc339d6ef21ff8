import Chalk.Program.Parser
import Chalk.Program.Violation
import Chalk.Token.Lexer

/-!
# Diagnostics

What a source text is reported to get wrong, and the check of a source text as a whole: it stops at
the first error in its tokens or in its grammar, and otherwise reports every violation.
-/

namespace Chalk

/-- A message about a region of the source, given by its first line and column and its length in
bytes. -/
structure Diagnostic where
  message : String
  line : Nat
  column : Nat
  length : Nat
deriving DecidableEq, Inhabited

namespace Diagnostic

/-- A message about a region. -/
def about (message : String) (span : Span) : Diagnostic :=
  ⟨message, span.line, span.column, span.length⟩

/-- How a diagnostic is printed. -/
def text (d : Diagnostic) : String :=
  "[Line " ++ toString d.line ++ ":" ++ toString d.column ++ "] " ++ d.message

/-- The diagnostic of an error in the tokens. -/
def ofLexError (e : LexError) : Diagnostic := about e.fault.message e.span

/-- The diagnostic of an error in the grammar. -/
def ofParseError (e : ParseError) : Diagnostic := about e.fault.message e.span

/-- The diagnostic of a violation. -/
def ofViolation (v : Violation) : Diagnostic := about v.rule.message v.span

end Diagnostic

/-- The statements that could be read from a source, and what is wrong with it. -/
structure Compiled where
  statements : List Stmt
  errors : List Diagnostic
deriving Inhabited

/-- Whether nothing is wrong. -/
def Compiled.isSuccess (c : Compiled) : Bool := c.errors.isEmpty

/-- Reads and checks a source text. -/
def compile (source : List Char) : Compiled :=
  match tokenize source with
  | .error e => ⟨[], [.ofLexError e]⟩
  | .ok ts =>
    let parsed := parse ts
    match parsed.failure with
    | some e => ⟨parsed.statements, [.ofParseError e]⟩
    | none => ⟨parsed.statements, (violations parsed.statements).map .ofViolation⟩

end Chalk
