import Chalk.Yaml.Tag

/-!
# From text to tokens

Between its delimiters a text is in flow style; outside of them its structure is a matter of
layout. A line that is indented more than the block around it starts a new block, and one that is
indented less ends blocks.

What starts as a scalar turns out to be a key when a colon follows. So wherever a key may start, the
place is remembered, and when the colon comes, the token that marks the key is put there, if need be
with the start of a mapping before it. A key has to end on its line and within 1024 characters. In
a block, at the indentation of the block, nothing but a key can stand: there a place that does not
turn out to be a key is refused.

## Main definitions

* `KeyPlace`, `Layout` — where a key may have started, and the state of reading
* `Layout.next?` — the next token
* `tokens?` — all tokens of a text
-/

namespace Chalk.Yaml

/-- A place where a key may have started: the number of tokens before it, and its place in the
text. `required` says that nothing but a key can stand there. -/
structure KeyPlace where
  required : Bool
  position : Nat
  index : Nat
  line : Nat
  column : Nat
deriving DecidableEq, Inhabited

/-- The state of reading: the place in the text, the tokens so far, the columns of the open blocks
from the inside out, where the key of this level may have started, the same for the levels around
it, and whether a key may start now. There is a level for every open delimiter. -/
structure Layout where
  cursor : Cursor
  tokens : Array Token := #[]
  blocks : List Nat := []
  key : Option KeyPlace := none
  outerKeys : List (Option KeyPlace) := []
  keyAllowed : Bool := true
deriving Inhabited

namespace Layout

/-- Whether the text is in flow style here. -/
def inFlow (s : Layout) : Bool := !s.outerKeys.isEmpty

/-- The least column of what belongs to the innermost block without being one of its entries. -/
def inner (s : Layout) : Nat := (s.blocks.head?.map (· + 1)).getD 0

/-- One more token, and the place after it. -/
def push (s : Layout) (token : Token) (cursor : Cursor) : Layout :=
  { s with tokens := s.tokens.push token, cursor }

/-- One more token of the given number of characters. -/
def pushMark (s : Layout) (token : Token) (length : Nat) : Layout :=
  s.push token (s.cursor.advance length)

/-! ## Blocks -/

/-- Ends the blocks that a test holds for, from the inside out. -/
def endBlocks (test : Nat → Bool) (s : Layout) : Layout :=
  if s.inFlow then s
  else
    let ended := s.blocks.takeWhile test
    { s with
      blocks := s.blocks.drop ended.length
      tokens := s.tokens ++ (ended.map fun _ => Token.blockEnd).toArray }

/-- Starts a block at a column, unless one is open there. Its token comes after the first
`position` ones. -/
def startBlock (s : Layout) (column position : Nat) (token : Token) : Layout :=
  if s.inFlow || column < s.inner then s
  else
    { s with
      blocks := column :: s.blocks
      tokens := s.tokens.insertIdxIfInBounds position token }

/-! ## Keys -/

/-- Gives up the place where a key may have started. -/
def dropKey? (s : Layout) : Option Layout :=
  if (s.key.map KeyPlace.required).getD false then none else some { s with key := none }

/-- Remembers that a key may start here. -/
def saveKey? (s : Layout) : Option Layout :=
  if !s.keyAllowed then some s
  else do
    let s ← s.dropKey?
    let c := s.cursor
    let required := !s.inFlow && s.blocks.head? == some c.column
    return { s with key := some ⟨required, s.tokens.size, c.index, c.line, c.column⟩ }

/-- Whether a key that started at a place can still end here. -/
def reaches (s : Layout) (k : KeyPlace) : Bool :=
  s.cursor.line ≤ k.line && s.cursor.index ≤ k.index + 1024

/-- Gives up the places of keys that have become too long. -/
def dropStale? (s : Layout) : Option Layout :=
  let keep (key : Option KeyPlace) : Option KeyPlace := key.filter s.reaches
  let lost (key : Option KeyPlace) : Bool :=
    (key.map fun k => k.required && !s.reaches k).getD false
  if lost s.key || s.outerKeys.any lost then none
  else some { s with key := keep s.key, outerKeys := s.outerKeys.map keep }

/-! ## Tokens -/

/-- The start of a scalar or of the properties of a node, given how it is read. -/
def content? (s : Layout) (read : Layout → Option Layout) : Option Layout := do
  read { ← s.saveKey? with keyAllowed := false }

/-- A mark of a document or a directive, before which all blocks end. -/
def boundary? (s : Layout) : Option Layout := do
  return { ← (s.endBlocks fun _ => true).dropKey? with keyAllowed := false }

/-- An opening delimiter. -/
def openFlow? (s : Layout) (token : Token) : Option Layout := do
  let s ← s.saveKey?
  let s := { s with outerKeys := s.key :: s.outerKeys, key := none, keyAllowed := true }
  return s.pushMark token 1

/-- A closing delimiter. -/
def closeFlow? (s : Layout) (token : Token) : Option Layout := do
  let s ← s.dropKey?
  let s :=
    match s.outerKeys with
    | [] => s
    | key :: outerKeys => { s with key, outerKeys }
  return { s with keyAllowed := false }.pushMark token 1

/-- A comma. -/
def flowEntry? (s : Layout) : Option Layout := do
  return { ← s.dropKey? with keyAllowed := true }.pushMark .flowEntry 1

/-- The dash before an entry of a sequence. -/
def blockEntry? (s : Layout) : Option Layout := do
  if !s.inFlow && !s.keyAllowed then none
  else
    let s ← (s.startBlock s.cursor.column s.tokens.size .blockSequenceStart).dropKey?
    return { s with keyAllowed := true }.pushMark .blockEntry 1

/-- The question mark before a key. -/
def explicitKey? (s : Layout) : Option Layout := do
  if !s.inFlow && !s.keyAllowed then none
  else
    let s ← (s.startBlock s.cursor.column s.tokens.size .blockMappingStart).dropKey?
    return { s with keyAllowed := !s.inFlow }.pushMark .key 1

/-- The colon before a value. If a key can have started before, this is its end. -/
def value? (s : Layout) : Option Layout :=
  match s.key with
  | some k =>
    let s := { s with tokens := s.tokens.insertIdxIfInBounds k.position .key }
    let s := s.startBlock k.column k.position .blockMappingStart
    some ({ s with key := none, keyAllowed := false }.pushMark .value 1)
  | none =>
    if !s.inFlow && !s.keyAllowed then none
    else
      let s := s.startBlock s.cursor.column s.tokens.size .blockMappingStart
      some ({ s with keyAllowed := !s.inFlow }.pushMark .value 1)

/-- A scalar in quotes. -/
def quotedScalar? (s : Layout) (quote : Char) : Option Layout :=
  s.content? fun s => do
    let (text, c) ← quoted? quote s.cursor
    return s.push (.scalar .quoted text) c

/-- A scalar that is a block of lines. A key may start after it. -/
def blockScalar? (s : Layout) (style : Style) : Option Layout := do
  let s ← s.dropKey?
  let (text, c) ← block? (style == .folded) s.inner s.cursor
  return { s with keyAllowed := true }.push (.scalar style text) c

/-- A bare scalar. If it ends on a later line, a key may start after it. -/
def plainScalar? (s : Layout) : Option Layout :=
  s.content? fun s => do
    let (text, crossed, c) ← plain? s.inFlow s.inner s.cursor
    return { s with keyAllowed := crossed }.push (.scalar .plain text) c

/-- An anchor or an alias. -/
def anchor? (s : Layout) (token : List Char → Token) : Option Layout :=
  s.content? fun s => do
    let (name, c) ← anchorName? s.cursor
    return s.push (token name) c

/-- A tag. -/
def tagged? (s : Layout) : Option Layout :=
  s.content? fun s => do
    let (name, c) ← tag? s.inFlow s.cursor
    return s.push (.tag name) c

/-- Whether a bare scalar can start with a character that has no other use. -/
def startsPlain (flow : Bool) (c : Char) (rest : List Char) : Bool :=
  if c == '-' then !(rest.head?.map isSpace).getD false
  else if c == '?' || c == ':' then !flow && !atGap rest
  else !",[]\x7b\x7d#&*!|>'\"%@\x60".toList.contains c && !isGap c

/-- The token that starts with `c`. A dash, and in a block also a question mark or a colon, is a
mark only with white space after it. -/
def token? (s : Layout) (c : Char) (rest : List Char) : Option Layout :=
  let marks := s.inFlow || atGap rest
  match c with
  | '[' => s.openFlow? .flowSequenceStart
  | '\x7b' => s.openFlow? .flowMappingStart
  | ']' => s.closeFlow? .flowSequenceEnd
  | '\x7d' => s.closeFlow? .flowMappingEnd
  | ',' => s.flowEntry?
  | '*' => s.anchor? .alias
  | '&' => s.anchor? .anchor
  | '!' => s.tagged?
  | '\'' => s.quotedScalar? c
  | '"' => s.quotedScalar? c
  | _ =>
    if c == '-' && atGap rest then s.blockEntry?
    else if c == '?' && marks then s.explicitKey?
    else if c == ':' && marks then s.value?
    else if c == '|' && !s.inFlow then s.blockScalar? .literal
    else if c == '>' && !s.inFlow then s.blockScalar? .folded
    else if startsPlain s.inFlow c rest then s.plainScalar?
    else none

/-- The next token, which starts right here. Directives and marks of documents stand at the start of
a line. -/
def next? (s : Layout) : Option Layout := do
  let c := s.cursor
  if c.column == 0 && c.rest.head? == some '%' then
    let s ← s.boundary?
    let (token, c) ← directive? c
    return s.push token c
  else if c.atMark '-' then return (← s.boundary?).pushMark .documentStart 3
  else if c.atMark '.' then return (← s.boundary?).pushMark .documentEnd 3
  else
    match c.rest with
    | [] => none
    | ch :: rest => s.token? ch rest

/-- White space and comments before the next token, and what the place of that token decides. -/
def approach? (s : Layout) : Option Layout := do
  let (keyAllowed, cursor) :=
    skipTrivia s.inFlow (s.cursor.rest.length + 1) s.keyAllowed s.cursor
  let s ← { s with keyAllowed, cursor }.dropStale?
  return s.endBlocks (cursor.column < ·)

/-- The tokens up to the end of the text. Each takes a character, so `bound` can be larger than
their number by one. -/
def finish? : Nat → Layout → Option (List Token)
  | 0, _ => none
  | bound + 1, s => do
    let s ← s.approach?
    if s.cursor.rest.isEmpty then return (← s.boundary?).tokens.toList
    else finish? bound (← s.next?)

end Layout

/-- The tokens of a text. -/
def tokens? (text : List Char) : Option (List Token) :=
  if text.all isAllowed then Layout.finish? (text.length + 1) { cursor := { rest := text } }
  else none

end Chalk.Yaml
