import Chalk.Yaml.Scalar
import Chalk.Yaml.Token

/-!
# Anchors, tags and directives

A node may carry an anchor, which names it, and a tag, which tells its type. A tag is written in
full between angle brackets, or as a handle and a suffix. Directives at the start of a document
give its version and declare handles.
-/

namespace Chalk.Yaml

/-! ## Anchors -/

/-- Whether an anchor can end before the given text. -/
def endsAnchor (cs : List Char) : Bool :=
  atGap cs || (cs.head?.map fun c => "?:,]\x7d%@\x60".toList.contains c).getD false

/-- The name of an anchor, or of the anchor that an alias refers to, from its mark on. -/
def anchorName? (c : Cursor) : Option (List Char × Cursor) :=
  let (name, c) := (c.advance 1).takeWhile isNameChar
  if name.isEmpty || !endsAnchor c.rest then none else some (name, c)

/-! ## Tags -/

/-- The characters of a tag. In full tags and in directives commas and square brackets are allowed
as well. -/
def isTagChar (full : Bool) (c : Char) : Bool :=
  isNameChar c || ";/?:@&=+$.%!~*'()".toList.contains c || (full && ",[]".toList.contains c)

/-- The octet that a percent sign and two digits in base sixteen stand for. -/
def octet? : List Char → Option Nat
  | '%' :: rest => hexNumber? 2 rest
  | _ => none

/-- The number of octets of a character whose first octet is given. -/
def octetCount? (first : Nat) : Option Nat :=
  if first < 0x80 then some 1
  else if first / 0x20 == 0x6 then some 2
  else if first / 0x10 == 0xe then some 3
  else if first / 0x8 == 0x1e then some 4
  else none

/-- The further octets of an escaped character. -/
def moreOctets? : Nat → List Char → Option (List Char)
  | 0, _ => some []
  | count + 1, cs => do
    let octet ← octet? cs
    if octet / 0x40 == 0x2 then
      return Char.ofNat octet :: (← moreOctets? count (cs.drop 3))
    none

/-- The octets of an escaped character, one character each. -/
def escapedOctets? (cs : List Char) : Option (List Char) := do
  let first ← octet? cs
  let count ← octetCount? first
  return Char.ofNat first :: (← moreOctets? (count - 1) (cs.drop 3))

/-- The characters of a tag that come next, with escapes replaced. -/
def tagText? (full : Bool) : Nat → List Char → Cursor → Option (List Char × Cursor)
  | 0, text, c => some (text, c)
  | bound + 1, text, c =>
    match c.rest with
    | [] => some (text, c)
    | ch :: _ =>
      if ch == '%' then do
        let octets ← escapedOctets? c.rest
        tagText? full bound (text ++ octets) (c.advance (3 * octets.length))
      else if isTagChar full ch then tagText? full bound (text ++ [ch]) (c.advance 1)
      else some (text, c)

/-- The characters of a tag that come next, at least one. -/
def tagSuffix? (full : Bool) (c : Cursor) : Option (List Char × Cursor) := do
  let (text, c) ← tagText? full c.rest.length [] c
  if text.isEmpty then none else some (text, c)

/-- What looks like the handle of a tag: an exclamation mark, the letters of a name, and another
exclamation mark if there is one. -/
def tagHandle? (c : Cursor) : Option (List Char × Cursor) :=
  if c.rest.head? != some '!' then none
  else
    let (name, c) := (c.advance 1).takeWhile isNameChar
    if c.rest.head? == some '!' then some ('!' :: name ++ ['!'], c.advance 1)
    else some ('!' :: name, c)

/-- Whether a text is the handle of a tag with a suffix of its own. -/
def isHandle (text : List Char) : Bool := 2 ≤ text.length && text.getLast? == some '!'

/-- A tag in short form. Without a handle of its own it has the handle `!`, and the text after the
exclamation mark is the suffix; an exclamation mark alone is a tag in full. -/
def shortTag? (c : Cursor) : Option (TagName × Cursor) := do
  let (text, c) ← tagHandle? c
  if isHandle text then
    let (suffix, c) ← tagSuffix? false c
    return (⟨text, suffix⟩, c)
  let (suffix, c) ← tagText? false c.rest.length text.tail c
  return (if suffix.isEmpty then ⟨[], ['!']⟩ else ⟨['!'], suffix⟩, c)

/-- A tag in full form, between angle brackets. -/
def fullTag? (c : Cursor) : Option (TagName × Cursor) := do
  let (suffix, c) ← tagSuffix? true (c.advance 2)
  if c.rest.head? == some '>' then some (⟨[], suffix⟩, c.advance 1) else none

/-- A tag. White space follows it or, in flow style, a comma. -/
def tag? (flow : Bool) (c : Cursor) : Option (TagName × Cursor) := do
  let (name, c) ← if c.rest[1]? == some '<' then fullTag? c else shortTag? c
  if atGap c.rest || (flow && c.rest.head? == some ',') then some (name, c) else none

/-! ## Directives -/

/-- A number of a version, of at most nine digits. -/
def versionNumber? (c : Cursor) : Option (Nat × Cursor) :=
  let (digits, c) := c.takeWhile Char.isDigit
  if digits.isEmpty || 9 < digits.length then none
  else some (digits.foldl (fun n d => 10 * n + (d.toNat - '0'.toNat)) 0, c)

/-- The directive of a version, from its value on. -/
def versionDirective? (c : Cursor) : Option (Token × Cursor) := do
  let (major, c) ← versionNumber? (c.dropWhile isSpace)
  if c.rest.head? != some '.' then none
  else
    let (minor, c) ← versionNumber? (c.advance 1)
    return (.versionDirective major minor, c)

/-- The directive that declares a handle, from the handle on. -/
def tagDirective? (c : Cursor) : Option (Token × Cursor) := do
  let (handle, c) ← tagHandle? (c.dropWhile isSpace)
  if !(handle == ['!'] || isHandle handle) || !(c.rest.head?.map isSpace).getD false then none
  else
    let (expansion, c) ← tagSuffix? true (c.dropWhile isSpace)
    if atGap c.rest then some (.tagDirective handle expansion, c) else none

/-- A directive with its line end. Directives of other names are refused. -/
def directive? (c : Cursor) : Option (Token × Cursor) := do
  let (name, c) := (c.advance 1).takeWhile isNameChar
  if !atGap c.rest then none
  else
    let (token, c) ←
      if name == "YAML".toList then versionDirective? c
      else if name == "TAG".toList then tagDirective? c
      else none
    return (token, ← c.restOfLine?)

end Chalk.Yaml
