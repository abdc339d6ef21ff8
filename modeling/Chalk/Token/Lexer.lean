import Chalk.Text.Blank
import Chalk.Text.Numeric
import Chalk.Token

/-!
# From text to tokens

A source is a sequence of lexemes with trivia before, between and after them. Trivia is white
space and comments, which run from one `#` to the next. `Cursor.scan` skips trivia and reads one
lexeme; `tokenize` repeats it up to the end of the source and stops at the first error.
`TokenStream` gives the same items one at a time and goes on after an error.

## Main definitions

* `Position`, `Cursor` — a place in the source, and the text that follows it
* `LexFault`, `LexError` — what can be wrong with a source, and where
* `Cursor.scan` — the next token or error
* `tokenize` — the tokens of a whole source
* `TokenStream.next` — one item at a time

## Main results

* `Cursor.scan_length_lt` — reading a token other than the end shortens the remaining text, so
  `tokenize` ends
-/

namespace Chalk

/-! ## Places in the source -/

/-- A place in the source: its byte offset, line and column. -/
structure Position where
  offset : Nat := 0
  line : Nat := 1
  column : Nat := 1
deriving DecidableEq, Inhabited

namespace Position

/-- The place after one more character. -/
def next (p : Position) (c : Char) : Position :=
  if c == '\n' then ⟨p.offset + c.utf8Size, p.line + 1, 1⟩
  else ⟨p.offset + c.utf8Size, p.line, p.column + 1⟩

/-- The place after some more characters. -/
def advance (p : Position) (cs : List Char) : Position := cs.foldl next p

/-- The region between two places. -/
def upTo (p q : Position) : Span := ⟨p.offset, q.offset, p.line, p.column⟩

end Position

/-- A place in the source and the text from there on. -/
structure Cursor where
  rest : List Char
  position : Position := {}
deriving DecidableEq, Inhabited

/-! ## Errors -/

/-- What can be wrong with a source text. -/
inductive LexFault where
  | unexpectedCharacter (character : Char)
  | unterminatedString
  | unterminatedComment
deriving DecidableEq, Inhabited

/-- The wording of a fault. -/
def LexFault.message : LexFault → String
  | unexpectedCharacter character => "Unexpected character '" ++ character.toString ++ "'"
  | unterminatedString => "Unterminated string literal"
  | unterminatedComment => "Unterminated comment"

/-- A fault and its place. -/
structure LexError where
  fault : LexFault
  span : Span
deriving DecidableEq, Inhabited

/-! ## Trivia -/

/-- The cursor after the leading trivia. `comment` is the start of the comment that the text is
inside of, if any; a comment that never ends takes the rest of the source. -/
def skipTrivia (comment : Option Position) :
    List Char → Position → Except (LexError × Cursor) Cursor
  | [], p =>
    match comment with
    | none => .ok ⟨[], p⟩
    | some start => .error (⟨.unterminatedComment, start.upTo p⟩, ⟨[], p⟩)
  | c :: rest, p =>
    match comment with
    | none =>
      if Text.isBlank c then skipTrivia none rest (p.next c)
      else if c == '#' then skipTrivia (some p) rest (p.next c)
      else .ok ⟨c :: rest, p⟩
    | some start =>
      if c == '#' then skipTrivia none rest (p.next c) else skipTrivia (some start) rest (p.next c)

/-! ## Lexemes -/

/-- Whether a name can start with `c`. -/
def startsName (c : Char) : Bool := Text.isAlphabetic c || c == '_'

/-- Whether a name can go on with `c`. -/
def continuesName (c : Char) : Bool := Text.isAlphanumeric c || c == '_'

/-- Whether `c` can stand inside a string. A string ends at the next quote and never leaves its
line. -/
def insideString (c : Char) : Bool := c != '"' && c != '\n'

/-- A reserved word, or else a name. -/
def Kind.ofWord (word : List Char) : Kind :=
  match Keyword.ofWord? word with
  | some k => .keyword k
  | none => .identifier (String.ofList word)

/-- The digits after the point of a number. A point belongs to the number only if a digit
follows it. -/
def fractionDigits : List Char → List Char
  | '.' :: rest => rest.takeWhile Char.isDigit
  | _ => []

/-- The outcome of reading one item: the item, and the place after it. -/
abbrev Scanned := Except LexError Token × Cursor

/-- A token of the given kind that covers `taken`, with `rest` to follow. -/
def Scanned.token (kind : Kind) (start : Position) (taken rest : List Char) : Scanned :=
  (.ok ⟨kind, start.upTo (start.advance taken)⟩, ⟨rest, start.advance taken⟩)

/-- The number at the start of `cs`, which starts with a digit. -/
def scanNumber (cs : List Char) (start : Position) : Scanned :=
  let whole := cs.takeWhile Char.isDigit
  let rest := cs.dropWhile Char.isDigit
  let fraction := fractionDigits rest
  let digits := Decimal.digitsValue (whole ++ fraction)
  let kind := Kind.number (Decimal.toFloat digits (-(fraction.length : Int)))
  if fraction.isEmpty then .token kind start whole rest
  else .token kind start (whole ++ '.' :: fraction) (rest.drop (fraction.length + 1))

/-- The string whose opening quote stands at `start`, with `cs` after it. -/
def scanString (cs : List Char) (start : Position) : Scanned :=
  let content := cs.takeWhile insideString
  match cs.dropWhile insideString with
  | '"' :: rest => .token (.string (String.ofList content)) start ('"' :: content ++ ['"']) rest
  | rest =>
    let stop := start.advance ('"' :: content)
    (.error ⟨.unterminatedString, start.upTo stop⟩, ⟨rest, stop⟩)

/-- The lexeme that starts with `c`. A character that starts none is not consumed, except a lone
`!`. -/
def scanLexeme (c : Char) (cs : List Char) (start : Position) : Scanned :=
  if c == '"' then scanString cs start
  else if startsName c then
    let word := c :: cs.takeWhile continuesName
    .token (.ofWord word) start word (cs.dropWhile continuesName)
  else if c.isDigit then scanNumber (c :: cs) start
  else
    match Symbol.atStart? (c :: cs) with
    | some symbol =>
      .token (.symbol symbol) start symbol.text.toList ((c :: cs).drop symbol.text.length)
    | none =>
      let after : Cursor := ⟨cs, start.next c⟩
      let error : LexError := ⟨.unexpectedCharacter c, start.upTo after.position⟩
      (.error error, if c == '!' then after else ⟨c :: cs, start⟩)

/-- The next token or error, and the place after it. At the end of the source the token is empty
and the cursor stays. -/
def Cursor.scan (c : Cursor) : Scanned :=
  match skipTrivia none c.rest c.position with
  | .error (error, after) => (.error error, after)
  | .ok ⟨[], p⟩ => (.ok ⟨.endOfInput, p.upTo p⟩, ⟨[], p⟩)
  | .ok ⟨ch :: cs, p⟩ => scanLexeme ch cs p

/-! ## Progress -/

theorem skipTrivia_length_le {comment : Option Position} {cs : List Char} {p : Position}
    {c : Cursor} (h : skipTrivia comment cs p = .ok c) : c.rest.length ≤ cs.length := by
  fun_induction skipTrivia comment cs p with
  | case1 => cases h; simp
  | case2 => simp at h
  | case3 _ _ _ _ ih => have := ih h; simp only [List.length_cons]; omega
  | case4 _ _ _ _ _ ih => have := ih h; simp only [List.length_cons]; omega
  | case5 => cases h; simp
  | case6 _ _ _ _ _ ih => have := ih h; simp only [List.length_cons]; omega
  | case7 _ _ _ _ _ ih => have := ih h; simp only [List.length_cons]; omega

theorem length_dropWhile_le (p : Char → Bool) (cs : List Char) :
    (cs.dropWhile p).length ≤ cs.length :=
  (List.dropWhile_sublist p).length_le

theorem Symbol.one_le_length_text (s : Symbol) : 1 ≤ s.text.length := by
  cases s <;> decide

theorem scanNumber_length_lt {c : Char} {cs : List Char} {start : Position} (h : c.isDigit) :
    (scanNumber (c :: cs) start).2.rest.length < (c :: cs).length := by
  have := length_dropWhile_le Char.isDigit cs
  simp only [scanNumber, List.takeWhile_cons, List.dropWhile_cons, h, if_true]
  split <;> simp [Scanned.token] <;> omega

theorem scanString_length_le (cs : List Char) (start : Position) :
    (scanString cs start).2.rest.length ≤ cs.length := by
  have := length_dropWhile_le insideString cs
  unfold scanString
  split
  · rename_i h
    rw [h] at this
    simp only [List.length_cons] at this
    simp only [Scanned.token]
    omega
  · exact this

theorem scanLexeme_length_lt {c : Char} {cs : List Char} {start : Position} {t : Token}
    {after : Cursor} (h : scanLexeme c cs start = (.ok t, after)) :
    after.rest.length < (c :: cs).length := by
  have hafter : after = (scanLexeme c cs start).2 := by rw [h]
  subst hafter
  revert h
  unfold scanLexeme
  split
  · intro _
    exact Nat.lt_succ_of_le (scanString_length_le cs start)
  · split
    · intro _
      exact Nat.lt_succ_of_le (length_dropWhile_le continuesName cs)
    · split
      · intro _
        exact scanNumber_length_lt ‹_›
      · split
        · rename_i symbol _
          intro _
          have := symbol.one_le_length_text
          simp only [Scanned.token, List.length_drop, List.length_cons]
          omega
        · intro h
          simp at h

/-- **Reading a token other than the end shortens the remaining text.** -/
theorem Cursor.scan_length_lt {c after : Cursor} {t : Token} (h : c.scan = (.ok t, after))
    (ht : t.kind.isEnd = false) : after.rest.length < c.rest.length := by
  unfold Cursor.scan at h
  split at h
  · simp at h
  · cases h
    simp [Kind.isEnd] at ht
  · rename_i heq
    have h₁ := scanLexeme_length_lt h
    have h₂ := skipTrivia_length_le heq
    simp only at h₂
    omega

/-! ## Whole sources -/

/-- The tokens from a place on, up to and including the end of the source, or the first error. -/
def Cursor.tokens (c : Cursor) : Except LexError (List Token) :=
  match _h : c.scan with
  | (.error error, _) => .error error
  | (.ok t, after) =>
    if _ht : t.kind.isEnd then .ok [t]
    else
      match after.tokens with
      | .error error => .error error
      | .ok ts => .ok (t :: ts)
termination_by c.rest.length
decreasing_by exact Cursor.scan_length_lt _h (by simpa using _ht)

/-- The tokens of a source text, ending with the token that marks its end. -/
def tokenize (source : List Char) : Except LexError (List Token) := Cursor.tokens ⟨source, {}⟩

/-! ## One item at a time -/

/-- A source that is read item by item. -/
structure TokenStream where
  cursor : Cursor
  finished : Bool := false
deriving DecidableEq, Inhabited

/-- A stream at the start of a source. -/
def TokenStream.ofSource (source : List Char) : TokenStream := { cursor := ⟨source, {}⟩ }

/-- The next item. After the token that marks the end there is none. -/
def TokenStream.next (s : TokenStream) : Option (Except LexError Token × TokenStream) :=
  if s.finished then none
  else
    let (item, cursor) := s.cursor.scan
    let finished :=
      match item with
      | .ok t => t.kind.isEnd
      | .error _ => false
    some (item, { cursor, finished })

/-- The first items of a stream, at most `count`, and whether it ended before that. -/
def TokenStream.take : Nat → TokenStream → List (Except LexError Token) × Bool
  | 0, _ => ([], false)
  | count + 1, s =>
    match s.next with
    | none => ([], true)
    | some (item, after) =>
      let (items, ended) := after.take count
      (item :: items, ended)

end Chalk
