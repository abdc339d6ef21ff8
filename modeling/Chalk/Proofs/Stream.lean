import Chalk.Proofs.Placement

/-!
# Items one at a time

A stream goes on after an error, from a place that depends on the error: a character that starts
nothing stays where it is, a lone `!` is passed, a string that its line does not close ends in front
of the line break, and a comment that nothing closes takes all that is left. What these have in
common is that the cursor moves along the text and its place moves with it, character by character.
So whatever came before, a stream stands at an end of its source and its place is the one behind
what is in front; the lines and columns of its items are those that a count over the whole source
gives.

## Main definitions

* `itemSpan` — the region that an item names
* `Cursor.PassesTo` — a cursor moved along its text
* `TokenStream.Within` — a stream that reads a source

## Main results

* `Cursor.passesTo_scan` — one step of the scanner, also one that ends in an error
* `TokenStream.within_of_next` — one pull
* `positions_of_items` — the place of every item
-/

namespace Chalk

/-- The region that an item names. -/
def itemSpan : Except LexError Token → Span
  | .ok t => t.span
  | .error e => e.span

/-! ## Moving along the text -/

/-- The second cursor stands further on in the text, and its place is that of the first one moved
over what lies between. -/
def Cursor.PassesTo (c after : Cursor) : Prop :=
  ∃ passed, c.rest = passed ++ after.rest ∧ after.position = c.position.advance passed

namespace Cursor.PassesTo

variable {c d e : Cursor}

theorem refl (c : Cursor) : c.PassesTo c := ⟨[], rfl, rfl⟩

theorem trans (h : c.PassesTo d) (h' : d.PassesTo e) : c.PassesTo e := by
  obtain ⟨passed, hrest, hposition⟩ := h
  obtain ⟨passed', hrest', hposition'⟩ := h'
  refine ⟨passed ++ passed', ?_, ?_⟩
  · rw [hrest, hrest', List.append_assoc]
  · rw [hposition', hposition, Position.advance_append]

theorem cons (ch : Char) (cs : List Char) (p : Position) :
    PassesTo ⟨ch :: cs, p⟩ ⟨cs, p.next ch⟩ :=
  ⟨[ch], rfl, rfl⟩

end Cursor.PassesTo

theorem Scanned.passesTo_token {text taken rest : List Char} (h : text = taken ++ rest)
    (kind : Kind) (p : Position) :
    Cursor.PassesTo ⟨text, p⟩ (Scanned.token kind p taken rest).2 :=
  ⟨taken, h, rfl⟩

/-- The cursor after trivia, or after a comment that nothing closes. -/
def skippedTo : Except (LexError × Cursor) Cursor → Cursor
  | .ok after => after
  | .error (_, after) => after

theorem passesTo_skipTrivia (comment : Option Position) (cs : List Char) (p : Position) :
    Cursor.PassesTo ⟨cs, p⟩ (skippedTo (skipTrivia comment cs p)) := by
  fun_induction skipTrivia comment cs p with
  | case1 | case2 | case5 => exact .refl _
  | case3 c cs p _ ih | case4 c cs p _ _ ih | case6 c cs p _ _ ih | case7 c cs p _ _ ih =>
    exact (Cursor.PassesTo.cons c cs p).trans ih

theorem passesTo_scanNumber (cs : List Char) (p : Position) :
    Cursor.PassesTo ⟨cs, p⟩ (scanNumber cs p).2 := by
  have hcs := List.takeWhile_append_dropWhile (p := Char.isDigit) (l := cs)
  simp only [scanNumber]
  split
  · exact Scanned.passesTo_token hcs.symm _ p
  · rename_i hempty
    have hfraction : fractionDigits (cs.dropWhile Char.isDigit) ≠ [] := by simpa using hempty
    refine Scanned.passesTo_token ?_ _ p
    rw [List.append_assoc, List.cons_append, ← (eq_point_of_fractionDigits hfraction).1, hcs]

theorem passesTo_scanString (cs : List Char) (p : Position) :
    Cursor.PassesTo ⟨'"' :: cs, p⟩ (scanString cs p).2 := by
  have hcs := List.takeWhile_append_dropWhile (p := insideString) (l := cs)
  rw [scanString]
  split
  · rename_i rest hrest
    rw [hrest] at hcs
    refine Scanned.passesTo_token ?_ _ p
    simp [hcs]
  · exact ⟨'"' :: cs.takeWhile insideString, by rw [List.cons_append, hcs], rfl⟩

theorem passesTo_scanLexeme (c : Char) (cs : List Char) (p : Position) :
    Cursor.PassesTo ⟨c :: cs, p⟩ (scanLexeme c cs p).2 := by
  rw [scanLexeme]
  split
  · rename_i hquote
    rw [eq_of_beq hquote]
    exact passesTo_scanString cs p
  split
  · refine Scanned.passesTo_token ?_ _ p
    rw [List.cons_append, List.takeWhile_append_dropWhile]
  split
  · exact passesTo_scanNumber (c :: cs) p
  split
  · rename_i sign hsign
    exact Scanned.passesTo_token (Symbol.eq_text_append_of_atStart? hsign) _ p
  · -- of the characters that start nothing only `!` is passed
    simp only
    split
    · exact .cons c cs p
    · exact .refl _

/-- **One step of the scanner moves along the text**, whatever it ends with. -/
theorem Cursor.passesTo_scan (c : Cursor) : c.PassesTo c.scan.2 := by
  have hskip := passesTo_skipTrivia none c.rest c.position
  rw [scan]
  cases hskipped : skipTrivia none c.rest c.position with
  | error skipped =>
    rw [hskipped] at hskip
    exact hskip
  | ok skipped =>
    rw [hskipped] at hskip
    obtain ⟨_ | ⟨ch, cs⟩, p⟩ := skipped
    · exact hskip
    · exact hskip.trans (passesTo_scanLexeme ch cs p)

/-! ## Pulling items -/

namespace TokenStream

variable {source : List Char} {s after : TokenStream} {item : Except LexError Token}

/-- The stream stands at an end of the source, and its place is the one behind what is in front. -/
def Within (source : List Char) (s : TokenStream) : Prop :=
  Cursor.PassesTo ⟨source, {}⟩ s.cursor

theorem within_ofSource (source : List Char) : (ofSource source).Within source := .refl _

theorem scan_of_next (h : s.next = some (item, after)) :
    s.cursor.scan = (item, after.cursor) := by
  rw [next] at h
  split at h
  · cases h
  · cases h
    rfl

/-- **A pull leaves the stream within its source**, after a token and after an error alike. -/
theorem within_of_next (hs : s.Within source) (h : s.next = some (item, after)) :
    after.Within source := by
  have hpasses := s.cursor.passesTo_scan
  rw [scan_of_next h] at hpasses
  exact Cursor.PassesTo.trans hs hpasses

/-- What a stream within a source yields names a region of the source. -/
theorem isRegionOf_of_next (hs : s.Within source) (h : s.next = some (item, after)) :
    (itemSpan item).IsRegionOf source := by
  obtain ⟨before, rfl, hposition⟩ := hs
  have hscans := s.cursor.scans_scan
  rw [scan_of_next h] at hscans
  generalize after.cursor = moved at hscans
  cases hscans with
  | stop =>
    refine ⟨before ++ s.cursor.rest, [], [], by simp, ?_⟩
    simp only [itemSpan, regionOf, hposition, Position.advance_append, List.append_nil]
  | @lexeme gap taken rest _ heq =>
    refine ⟨before ++ gap, taken, rest, by rw [heq, List.append_assoc], ?_⟩
    simp only [itemSpan, regionOf, hposition, Position.advance_append]
  | @error gap covered rest _ heq =>
    refine ⟨before ++ gap, covered, rest, by rw [heq, List.append_assoc], ?_⟩
    simp only [itemSpan, regionOf, hposition, Position.advance_append]

theorem isRegionOf_of_mem_take (hs : s.Within source) {count : Nat}
    (hitem : item ∈ (s.take count).1) : (itemSpan item).IsRegionOf source := by
  induction count generalizing s with
  | zero => cases hitem
  | succ count ih =>
    rw [take] at hitem
    cases hnext : s.next with
    | none =>
      rw [hnext] at hitem
      cases hitem
    | some pulled =>
      obtain ⟨first, after⟩ := pulled
      rw [hnext] at hitem
      rcases List.mem_cons.mp hitem with rfl | hmem
      · exact isRegionOf_of_next hs hnext
      · exact ih (within_of_next hs hnext) hmem

end TokenStream

/-- **The place of every item is exact.** Whatever a stream yields, a token, the end or an error, at
whatever pull, it starts between two characters of the source; its line counts the line breaks in
front of that place, and its column the characters since the last of them. -/
theorem positions_of_items (source : List Char) (count : Nat) :
    ∀ item ∈ ((TokenStream.ofSource source).take count).1, ∃ before rest,
      source = before ++ rest ∧ (itemSpan item).start = byteCount before ∧
        (itemSpan item).line = 1 + before.count '\n' ∧
        (itemSpan item).column = 1 + (lastLine before).length := by
  intro item hitem
  have hregion := TokenStream.isRegionOf_of_mem_take (TokenStream.within_ofSource source) hitem
  obtain ⟨before, part, rest, hsource, hstart, -, hline, hcolumn⟩ := hregion.located.boundaries
  exact ⟨before, part ++ rest, hsource, hstart, hline, hcolumn⟩

/-- A lone `!` behind a letter of two bytes, a string that its line does not close, and a comment
with a line break in it. -/
def faultyLines : List Char := "é!\n \"é\n#\né# x".toList

theorem positions_of_items_faultyLines :
    ∃ before rest, faultyLines = before ++ rest ∧ 15 = byteCount before ∧
      4 = 1 + before.count '\n' ∧ 4 = 1 + (lastLine before).length := by
  have hitems : ((TokenStream.ofSource faultyLines).take 4).1 =
      [.ok ⟨.identifier "é", ⟨0, 2, 1, 1⟩⟩, .error ⟨.unexpectedCharacter '!', ⟨2, 3, 1, 2⟩⟩,
        .error ⟨.unterminatedString, ⟨5, 8, 2, 2⟩⟩, .ok ⟨.identifier "x", ⟨15, 16, 4, 4⟩⟩] := by
    decide +kernel
  have hmem : .ok ⟨.identifier "x", ⟨15, 16, 4, 4⟩⟩ ∈
      ((TokenStream.ofSource faultyLines).take 4).1 := by
    simp [hitems]
  exact positions_of_items faultyLines 4 _ hmem

end Chalk
