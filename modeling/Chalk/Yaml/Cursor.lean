/-!
# Places in a YAML text

A cursor is a place in a text together with the characters from there on. Columns decide which
block a line belongs to, so a cursor keeps count of them; lines and the number of characters decide
how far a key may reach.

## Main definitions

* `isSpace`, `isBreak`, `isAllowed` — the classes of characters
* `Cursor` — a place in the text
* `Gap` — white space inside a scalar, and the text that it stands for
* `skipTrivia` — white space and comments between tokens
-/

namespace Chalk.Yaml

/-! ## Characters -/

/-- White space inside a line. -/
def isSpace (c : Char) : Bool := c == ' ' || c == '\t'

/-- Characters that end a line. A carriage return and a line feed after it end one line. -/
def isBreak (c : Char) : Bool :=
  c == '\n' || c == '\r' || c == '\u0085' || c == '\u2028' || c == '\u2029'

/-- Whether a character separates words. -/
def isGap (c : Char) : Bool := isSpace c || isBreak c

/-- Whether the text is at its end, or a character that separates words comes next. -/
def atGap (cs : List Char) : Bool := (cs.head?.map isGap).getD true

/-- Whether a character may occur in a text at all. -/
def isAllowed (c : Char) : Bool :=
  let n := c.toNat
  n == 0x9 || n == 0xa || n == 0xd || (0x20 ≤ n && n ≤ 0x7e) || n == 0x85 ||
    (0xa0 ≤ n && n ≤ 0xfffd) || 0x10000 ≤ n

/-- The letters of names: ASCII letters and digits, the underscore and the dash. -/
def isNameChar (c : Char) : Bool := c.isAlphanum || c == '_' || c == '-'

/-- The mark of byte order. -/
def byteOrderMark : Char := '\ufeff'

/-! ## Cursors -/

/-- A place in a text: the characters from there on, the number of characters before it, and its
line and column, all counted from zero. -/
structure Cursor where
  rest : List Char
  index : Nat := 0
  line : Nat := 0
  column : Nat := 0
deriving DecidableEq, Inhabited

namespace Cursor

/-- The place after `count` more characters of the same line. -/
def advance (c : Cursor) (count : Nat) : Cursor :=
  { c with
    rest := c.rest.drop count
    index := c.index + count
    column := c.column + count }

/-- The next characters that pass a test, and the place after them. The test fails for line
ends. -/
def takeWhile (c : Cursor) (test : Char → Bool) : List Char × Cursor :=
  let taken := c.rest.takeWhile test
  (taken, c.advance taken.length)

/-- The place after the next characters that pass a test. -/
def dropWhile (c : Cursor) (test : Char → Bool) : Cursor := (c.takeWhile test).2

/-- The place after a comment, if one starts here. -/
def dropComment (c : Cursor) : Cursor :=
  if c.rest.head? == some '#' then c.dropWhile (!isBreak ·) else c

/-- The place after `count` characters that end a line, given what follows them. -/
def newLine (c : Cursor) (count : Nat) (rest : List Char) : Cursor :=
  { rest, index := c.index + count, line := c.line + 1, column := 0 }

/-- The line end that comes next and the place after it. Line ends count as line feeds, except for
the two separators of lines and paragraphs, which stand for themselves. -/
def lineEnd? (c : Cursor) : Option (Char × Cursor) :=
  match c.rest with
  | '\r' :: '\n' :: rest => some ('\n', c.newLine 2 rest)
  | ch :: rest =>
    if !isBreak ch then none
    else if ch == '\u2028' || ch == '\u2029' then some (ch, c.newLine 1 rest)
    else some ('\n', c.newLine 1 rest)
  | [] => none

/-- The place after the rest of a line that holds only white space and a comment. -/
def restOfLine? (c : Cursor) : Option Cursor :=
  let c := (c.dropWhile isSpace).dropComment
  match c.lineEnd? with
  | some (_, c) => some c
  | none => if c.rest.isEmpty then some c else none

/-- Whether three equal characters stand alone at the start of a line. -/
def atMark (c : Cursor) (mark : Char) : Bool :=
  c.column == 0 && c.rest.take 3 == [mark, mark, mark] && atGap (c.rest.drop 3)

/-- Whether a document starts or ends here. -/
def atDocumentMark (c : Cursor) : Bool := c.atMark '-' || c.atMark '.'

end Cursor

/-! ## Gaps -/

/-- White space inside a scalar: the spaces of one line or, once a line has been left, the line
ends. `first` is missing if the first line end is escaped. -/
structure Gap where
  spaces : List Char := []
  crossed : Bool := false
  first : Option Char := none
  more : List Char := []
deriving DecidableEq, Inhabited

/-- The text that a gap stands for. A single line feed is folded into a space, and of several the
first is dropped. -/
def Gap.text (g : Gap) : List Char :=
  if !g.crossed then g.spaces
  else
    match g.first with
    | some '\n' => if g.more.isEmpty then [' '] else g.more
    | some c => c :: g.more
    | none => g.more

/-- A gap with one more line end. -/
def Gap.cross (g : Gap) (lineEnd : Char) : Gap :=
  if g.crossed then { g with more := g.more ++ [lineEnd] }
  else { spaces := [], crossed := true, first := some lineEnd }

/-- The gap that comes next, as a continuation of `gap`. A tab before the column `indent` of a
later line is refused. Every turn takes a character, so `bound` can be their number. -/
def readGap? (indent : Nat) : Nat → Gap → Cursor → Option (Gap × Cursor)
  | 0, gap, c => some (gap, c)
  | bound + 1, gap, c =>
    match c.rest with
    | [] => some (gap, c)
    | ch :: _ =>
      if isSpace ch then
        if !gap.crossed then
          readGap? indent bound { gap with spaces := gap.spaces ++ [ch] } (c.advance 1)
        else if ch == '\t' && c.column < indent then none
        else readGap? indent bound gap (c.advance 1)
      else
        match c.lineEnd? with
        | some (lineEnd, c) => readGap? indent bound (gap.cross lineEnd) c
        | none => some (gap, c)

/-! ## Between tokens -/

/-- Skips white space and comments, and at the start of a line a mark of byte order, which takes a
column. `keyAllowed` says whether a key may start here. Where one may, tabs are not skipped, because
they do not indent; in a block a new line may start a key. -/
def skipTrivia (flow : Bool) : Nat → Bool → Cursor → Bool × Cursor
  | 0, keyAllowed, c => (keyAllowed, c)
  | bound + 1, keyAllowed, c =>
    let c := if c.column == 0 && c.rest.head? == some byteOrderMark then c.advance 1 else c
    let skipped (ch : Char) : Bool := ch == ' ' || (ch == '\t' && (flow || !keyAllowed))
    let c := (c.dropWhile skipped).dropComment
    match c.lineEnd? with
    | some (_, c) => skipTrivia flow bound (keyAllowed || !flow) c
    | none => (keyAllowed, c)

end Chalk.Yaml
