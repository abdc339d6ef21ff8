import Chalk.Yaml.Cursor

/-!
# Scalars

A scalar is written bare, in single or double quotes, or as a block of lines. In the first two ways
it may go on over several lines, and the gaps between its words are folded.

## Main definitions

* `plain?` — bare scalars
* `quoted?` — scalars in quotes
* `block?` — scalars that are blocks of lines
-/

namespace Chalk.Yaml

/-! ## Bare scalars -/

/-- The characters that delimit entries in flow style. -/
def isFlowDelimiter (c : Char) : Bool :=
  c == ',' || c == '[' || c == ']' || c == '\x7b' || c == '\x7d'

/-- The next word of a bare scalar. It ends before white space, before a colon with white space
after it and, in flow style, before a delimiter. A colon right before a delimiter is refused. -/
def plainWord? (flow : Bool) : List Char → Option (List Char)
  | [] => some []
  | c :: rest =>
    if isGap c then some []
    else if flow && c == ':' && (rest.head?.map fun d => isFlowDelimiter d || d == '?').getD false
      then none
    else if (c == ':' && atGap rest) || (flow && isFlowDelimiter c) then some []
    else (plainWord? flow rest).map (c :: ·)

/-- The words of a bare scalar after `text` and `gap`. The scalar ends before a mark of a document,
before a comment, where no word follows, and in a block before a line that is indented less than
`indent`. Also tells whether it has left its line after the last word. -/
def plainWords? (flow : Bool) (indent : Nat) :
    Nat → List Char → Gap → Cursor → Option (List Char × Bool × Cursor)
  | 0, text, gap, c => some (text, gap.crossed, c)
  | bound + 1, text, gap, c =>
    if c.atDocumentMark || c.rest.head? == some '#' then some (text, gap.crossed, c)
    else do
      let word ← plainWord? flow c.rest
      if word.isEmpty then some (text, gap.crossed, c)
      else
        let text := text ++ gap.text ++ word
        let c := c.advance word.length
        if c.rest.isEmpty || !atGap c.rest then some (text, false, c)
        else
          let (gap, c) ← readGap? indent c.rest.length {} c
          if !flow && c.column < indent then some (text, gap.crossed, c)
          else plainWords? flow indent bound text gap c

/-- A bare scalar. -/
def plain? (flow : Bool) (indent : Nat) (c : Cursor) : Option (List Char × Bool × Cursor) :=
  plainWords? flow indent (c.rest.length + 1) [] {} c

/-! ## Scalars in quotes -/

/-- The value of a digit in base sixteen. -/
def hexDigit? (c : Char) : Option Nat :=
  if c.isDigit then some (c.toNat - '0'.toNat)
  else if 'a' ≤ c ∧ c ≤ 'f' then some (c.toNat - 'a'.toNat + 10)
  else if 'A' ≤ c ∧ c ≤ 'F' then some (c.toNat - 'A'.toNat + 10)
  else none

/-- The number that exactly `count` digits in base sixteen write. -/
def hexNumber? (count : Nat) (cs : List Char) : Option Nat :=
  if cs.length < count then none
  else (cs.take count).foldlM (fun n c => (hexDigit? c).map (16 * n + ·)) 0

/-- The character with the given code, if there is one. -/
def charOfCode? (n : Nat) : Option Char :=
  if n.isValidChar then some (Char.ofNat n) else none

/-- The character that an escape stands for, given the text after the backslash, and the length of
the escape in that text. -/
def escape? : List Char → Option (Char × Nat)
  | [] => none
  | c :: rest =>
    let short (code : Nat) : Option (Char × Nat) := some (Char.ofNat code, 1)
    let code (count : Nat) : Option (Char × Nat) := do
      return (← charOfCode? (← hexNumber? count rest), count + 1)
    match c with
    | '0' => short 0x0
    | 'a' => short 0x7
    | 'b' => short 0x8
    | 't' => short 0x9
    | '\t' => short 0x9
    | 'n' => short 0xa
    | 'v' => short 0xb
    | 'f' => short 0xc
    | 'r' => short 0xd
    | 'e' => short 0x1b
    | ' ' => short 0x20
    | '"' => short 0x22
    | '/' => short 0x2f
    | '\\' => short 0x5c
    | 'N' => short 0x85
    | '_' => short 0xa0
    | 'L' => short 0x2028
    | 'P' => short 0x2029
    | 'x' => code 2
    | 'u' => code 4
    | 'U' => code 8
    | _ => none

/-- The gap inside quotes that comes next, as a continuation of `gap`. A mark of a document must
not follow it. -/
def quotedGap? (gap : Gap) (c : Cursor) : Option (List Char × Cursor) := do
  let (gap, c) ← readGap? 0 c.rest.length gap c
  if c.atDocumentMark then none else some (gap.text, c)

/-- What stands between quotes, after `text`. A single quote is written twice between single
quotes; between double quotes a backslash starts an escape, also of a line end. -/
def quotedText? (quote : Char) : Nat → List Char → Cursor → Option (List Char × Cursor)
  | 0, _, _ => none
  | bound + 1, text, c =>
    match c.rest with
    | [] => none
    | ch :: rest =>
      if isGap ch then do
        let (gap, c) ← quotedGap? {} c
        quotedText? quote bound (text ++ gap) c
      else if ch == quote then
        if quote == '\'' && rest.head? == some '\'' then
          quotedText? quote bound (text ++ ['\'']) (c.advance 2)
        else some (text, c.advance 1)
      else if quote == '"' && ch == '\\' then
        match (c.advance 1).lineEnd? with
        | some (_, c) => do
          let (gap, c) ← quotedGap? { crossed := true } c
          quotedText? quote bound (text ++ gap) c
        | none => do
          let (escaped, length) ← escape? rest
          quotedText? quote bound (text ++ [escaped]) (c.advance (length + 1))
      else quotedText? quote bound (text ++ [ch]) (c.advance 1)

/-- A scalar in quotes, from the opening quote on. -/
def quoted? (quote : Char) (c : Cursor) : Option (List Char × Cursor) :=
  quotedText? quote c.rest.length [] (c.advance 1)

/-! ## Blocks of lines -/

/-- What happens to the line ends after a block: all but the first are dropped, all are dropped, or
all are kept. -/
inductive Chomping where
  | clip | strip | keep
deriving DecidableEq, Inhabited

/-- The chomping that a sign asks for. -/
def Chomping.ofSign? : Option Char → Option Chomping
  | some '+' => some .keep
  | some '-' => some .strip
  | _ => none

/-- The head of a block: its chomping and, if given, by how much its lines are indented. The two
may stand in either order. An indentation of zero is refused. -/
def blockHead? (c : Cursor) : Option (Chomping × Nat × Cursor) :=
  let sign (c : Cursor) : Option Chomping × Cursor :=
    match Chomping.ofSign? c.rest.head? with
    | some chomping => (some chomping, c.advance 1)
    | none => (none, c)
  let digit (c : Cursor) : Nat × Cursor :=
    match c.rest.head? with
    | some d => if d.isDigit then (d.toNat - '0'.toNat, c.advance 1) else (0, c)
    | none => (0, c)
  let zero (c : Cursor) : Bool := c.rest.head? == some '0'
  let (before, c) := sign c
  if zero c then none
  else
    let (increment, c) := digit c
    match before with
    | some chomping => some (chomping, increment, c)
    | none =>
      let (after, c) := if increment == 0 then (none, c) else sign c
      some (after.getD .clip, increment, c)

/-- Line ends and the indentation after them. `indent` is the indentation of the block, or zero if
it is not known yet; tabs do not indent. Also gives the largest column that was reached. -/
def blockBreaks? (indent : Nat) :
    Nat → List Char → Nat → Cursor → Option (List Char × Nat × Cursor)
  | 0, breaks, deepest, c => some (breaks, deepest, c)
  | bound + 1, breaks, deepest, c =>
    let spaces := (c.rest.takeWhile (· == ' ')).length
    let c := c.advance (if indent == 0 then spaces else min spaces (indent - c.column))
    let deepest := max deepest c.column
    if (indent == 0 || c.column < indent) && c.rest.head? == some '\t' then none
    else
      match c.lineEnd? with
      | some (lineEnd, c) => blockBreaks? indent bound (breaks ++ [lineEnd]) deepest c
      | none => some (breaks, deepest, c)

/-- A block that is being read: its text so far, the end of the last line, whether that line
started with white space, and the line ends after it. -/
structure BlockText where
  text : List Char := []
  lineEnd : List Char := []
  blank : Bool := false
  breaks : List Char := []
deriving DecidableEq, Inhabited

/-- The text between the last line of a block and the next one, which starts with white space if
`blank` holds. A folded block folds the line end between lines that do not. -/
def BlockText.joint (b : BlockText) (folded blank : Bool) : List Char :=
  if folded && b.lineEnd == ['\n'] && !b.blank && !blank then
    if b.breaks.isEmpty then [' '] else b.breaks
  else b.lineEnd ++ b.breaks

/-- The lines of a block that are indented by `indent`. -/
def blockLines? (folded : Bool) (indent : Nat) :
    Nat → BlockText → Cursor → Option (BlockText × Cursor)
  | 0, b, c => some (b, c)
  | bound + 1, b, c =>
    if c.column != indent || c.rest.isEmpty then some (b, c)
    else do
      let blank := (c.rest.head?.map isSpace).getD false
      let (line, c) := c.takeWhile (!isBreak ·)
      let (lineEnd, c) :=
        match c.lineEnd? with
        | some (lineEnd, c) => ([lineEnd], c)
        | none => ([], c)
      let (breaks, _, c) ← blockBreaks? indent (c.rest.length + 1) [] 0 c
      let text := b.text ++ b.joint folded blank ++ line
      blockLines? folded indent bound { text, lineEnd, blank, breaks } c

/-- The text of a block whose lines have been read. -/
def BlockText.chomp (b : BlockText) : Chomping → List Char
  | .clip => b.text ++ b.lineEnd
  | .strip => b.text
  | .keep => b.text ++ b.lineEnd ++ b.breaks

/-- A scalar that is a block of lines, from its mark on. `outer` is the least column that lines of
the block can have, by the blocks around it. Without a given indentation the first line with
content decides. -/
def block? (folded : Bool) (outer : Nat) (c : Cursor) : Option (List Char × Cursor) := do
  let (chomping, increment, c) ← blockHead? (c.advance 1)
  let c ← c.restOfLine?
  let given := if increment == 0 then 0 else outer - 1 + increment
  let (breaks, deepest, c) ← blockBreaks? given (c.rest.length + 1) [] 0 c
  let indent := if given == 0 then max (max deepest outer) 1 else given
  let (b, c) ← blockLines? folded indent (c.rest.length + 1) { breaks } c
  return (b.chomp chomping, c)

end Chalk.Yaml
