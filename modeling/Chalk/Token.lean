import Chalk.Number
import Chalk.Span

/-!
# Tokens

The vocabulary of the language: reserved words, operators and delimiters, and the three kinds of
token that carry a text or a number.

## Main definitions

* `Keyword`, `Keyword.ofWord?` — reserved words, recognised in any letter case
* `Symbol` — operators and delimiters
* `Kind`, `Token` — what a token is, and where it stands
* `Kind.describe` — how messages name a token
-/

namespace Chalk

/-! ## Reserved words -/

/-- The reserved words: statements, operators spelled as words, the two truth values and the names
of the built-in types. -/
inductive Keyword where
  | setKw | constKw | printKw | ifKw | thenKw | elifKw | elseKw | endIfKw | whileKw | doKw
  | endWhileKw | forKw | endForKw | breakKw | skipKw | funcKw | endFuncKw | returnKw | classKw
  | endClassKw | thisKw | andKw | orKw | notKw | trueKw | falseKw | numberKw | stringKw | booleanKw
  | listKw | dictKw | voidKw
deriving DecidableEq, Inhabited

namespace Keyword

/-- The usual spelling of a reserved word. -/
def text : Keyword → String
  | setKw => "set"
  | constKw => "const"
  | printKw => "print"
  | ifKw => "if"
  | thenKw => "then"
  | elifKw => "elif"
  | elseKw => "else"
  | endIfKw => "endif"
  | whileKw => "while"
  | doKw => "do"
  | endWhileKw => "endwhile"
  | forKw => "for"
  | endForKw => "endfor"
  | breakKw => "break"
  | skipKw => "skip"
  | funcKw => "func"
  | endFuncKw => "endfunc"
  | returnKw => "return"
  | classKw => "class"
  | endClassKw => "endclass"
  | thisKw => "this"
  | andKw => "and"
  | orKw => "or"
  | notKw => "not"
  | trueKw => "true"
  | falseKw => "false"
  | numberKw => "number"
  | stringKw => "string"
  | booleanKw => "boolean"
  | listKw => "list"
  | dictKw => "dict"
  | voidKw => "void"

/-- Every reserved word. -/
def all : List Keyword :=
  [setKw, constKw, printKw, ifKw, thenKw, elifKw, elseKw, endIfKw, whileKw, doKw, endWhileKw,
   forKw, endForKw, breakKw, skipKw, funcKw, endFuncKw, returnKw, classKw, endClassKw, thisKw,
   andKw, orKw, notKw, trueKw, falseKw, numberKw, stringKw, booleanKw, listKw, dictKw, voidKw]

/-- The reserved word spelled by `word` in any mix of upper-case and lower-case ASCII letters.
`continue` is a second spelling of `skip`. -/
def ofWord? (word : List Char) : Option Keyword :=
  let lower := String.ofList (word.map Char.toLower)
  if lower == "continue" then some skipKw else all.find? fun k => k.text == lower

end Keyword

/-! ## Operators and delimiters -/

/-- The operators and delimiters. -/
inductive Symbol where
  | equal | equalEqual | bangEqual | less | lessEqual | greater | greaterEqual
  | plus | minus | star | slash | percent | caret
  | colon | semicolon | comma | dot
  | leftParen | rightParen | leftBracket | rightBracket | leftBrace | rightBrace
deriving DecidableEq, Inhabited

namespace Symbol

/-- The spelling of an operator or delimiter. -/
def text : Symbol → String
  | equal => "="
  | equalEqual => "=="
  | bangEqual => "!="
  | less => "<"
  | lessEqual => "<="
  | greater => ">"
  | greaterEqual => ">="
  | plus => "+"
  | minus => "-"
  | star => "*"
  | slash => "/"
  | percent => "%"
  | caret => "^"
  | colon => ":"
  | semicolon => ";"
  | comma => ","
  | dot => "."
  | leftParen => "("
  | rightParen => ")"
  | leftBracket => "["
  | rightBracket => "]"
  | leftBrace => "\x7b"
  | rightBrace => "\x7d"

/-- The longest operator or delimiter at the start of a text. -/
def atStart? : List Char → Option Symbol
  | '=' :: '=' :: _ => some equalEqual
  | '!' :: '=' :: _ => some bangEqual
  | '<' :: '=' :: _ => some lessEqual
  | '>' :: '=' :: _ => some greaterEqual
  | '=' :: _ => some equal
  | '<' :: _ => some less
  | '>' :: _ => some greater
  | '+' :: _ => some plus
  | '-' :: _ => some minus
  | '*' :: _ => some star
  | '/' :: _ => some slash
  | '%' :: _ => some percent
  | '^' :: _ => some caret
  | ':' :: _ => some colon
  | ';' :: _ => some semicolon
  | ',' :: _ => some comma
  | '.' :: _ => some dot
  | '(' :: _ => some leftParen
  | ')' :: _ => some rightParen
  | '[' :: _ => some leftBracket
  | ']' :: _ => some rightBracket
  | '\x7b' :: _ => some leftBrace
  | '\x7d' :: _ => some rightBrace
  | _ => none

end Symbol

/-! ## Tokens -/

/-- What a token is, apart from its place. -/
inductive Kind where
  | identifier (name : String)
  | number (value : Float)
  | string (content : String)
  | keyword (word : Keyword)
  | symbol (sign : Symbol)
  | endOfInput
deriving DecidableEq, Inhabited

/-- How messages name a token. -/
def Kind.describe : Kind → String
  | identifier name => "identifier '" ++ name ++ "'"
  | number value => "number " ++ Number.plainText value
  | string content => "string \"" ++ content ++ "\""
  | keyword word => "'" ++ word.text ++ "'"
  | symbol sign => "'" ++ sign.text ++ "'"
  | endOfInput => "end of input"

/-- Whether the token marks the end of the input. -/
def Kind.isEnd : Kind → Bool
  | endOfInput => true
  | _ => false

/-- A token and the source it was read from. -/
structure Token where
  kind : Kind
  span : Span
deriving DecidableEq, Inhabited

/-- The bytes of `source` from offset `start` to offset `stop`. Offsets inside a character are
rounded up to its end. -/
def sourceSlice (source : List Char) (start stop : Nat) : List Char :=
  go source 0
where
  /-- The characters of the suffix that begins at offset `i` and whose own offset lies in the
  range. -/
  go : List Char → Nat → List Char
    | [], _ => []
    | c :: rest, i =>
      if stop ≤ i then []
      else if start ≤ i then c :: go rest (i + c.utf8Size)
      else go rest (i + c.utf8Size)

/-- The source text of a token. -/
def Token.text (t : Token) (source : List Char) : List Char :=
  sourceSlice source t.span.start t.span.stop

end Chalk
