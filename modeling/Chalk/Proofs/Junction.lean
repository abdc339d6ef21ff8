import Chalk.Proofs.Placement
import Chalk.Proofs.Relocation

/-!
# Texts joined by a line break

No lexeme contains a line break, and at a line break every lexeme ends as it does at the end of the
text. So a text that can be read is read the same way if a line break and another text follow. The
scanner comes to the second text with nothing carried over but its place, and places have no
influence on what is read: everything is moved by the bytes and lines in front.

## Main definitions

* `Position.shift` — a place some bytes and lines later
* `Cursor.followedBy` — the same place in a text that goes on
* `relocateTokens` — the outcome of the scanner with all its regions moved
* `Relocation.below` — how everything on the lines below a text is moved

## Main results

* `Cursor.tokens_shift` — the scanner at another place
* `Cursor.tokens_followedBy` — the scanner on a text that goes on
* `tokenize_join` — two texts with a line break in between
-/

namespace Chalk

/-! ## Other places -/

section Shift

variable (bytes lines : Nat)

/-- The place some bytes and lines later. -/
def Position.shift (p : Position) : Position := ⟨p.offset + bytes, p.line + lines, p.column⟩

/-- The same text at another place. -/
def Cursor.shift (c : Cursor) : Cursor := ⟨c.rest, c.position.shift bytes lines⟩

/-- What is read at another place. -/
def Scanned.shift : Scanned → Scanned
  | (.ok t, after) => (.ok (t.relocate (.shift bytes lines)), after.shift bytes lines)
  | (.error e, after) => (.error (e.relocate (.shift bytes lines)), after.shift bytes lines)

theorem Position.next_shift (p : Position) (c : Char) :
    (p.shift bytes lines).next c = (p.next c).shift bytes lines := by
  rw [next, next]
  split <;> simp only [shift, Nat.add_right_comm]

theorem Position.advance_shift (p : Position) (cs : List Char) :
    (p.shift bytes lines).advance cs = (p.advance cs).shift bytes lines := by
  induction cs generalizing p with
  | nil => rfl
  | cons c cs ih =>
    show ((p.shift bytes lines).next c).advance cs = _
    rw [next_shift]
    exact ih (p.next c)

theorem skipTrivia_shift (comment : Option Position) (cs : List Char) (p : Position) :
    skipTrivia (comment.map (Position.shift bytes lines)) cs (p.shift bytes lines) =
      match skipTrivia comment cs p with
      | .ok c => .ok (c.shift bytes lines)
      | .error (e, c) => .error (e.relocate (.shift bytes lines), c.shift bytes lines) := by
  induction cs generalizing comment p with
  | nil => cases comment <;> rfl
  | cons c cs ih =>
    cases comment with
    | none =>
      simp only [Option.map_none, skipTrivia, Position.next_shift]
      split
      · exact ih none (p.next c)
      · split
        · exact ih (some p) (p.next c)
        · rfl
    | some start =>
      simp only [Option.map_some, skipTrivia, Position.next_shift]
      split
      · exact ih none (p.next c)
      · exact ih (some start) (p.next c)

theorem Scanned.token_shift (kind : Kind) (start : Position) (taken rest : List Char) :
    Scanned.token kind (start.shift bytes lines) taken rest =
      (Scanned.token kind start taken rest).shift bytes lines := by
  rw [token, Position.advance_shift]
  rfl

theorem scanNumber_shift (cs : List Char) (start : Position) :
    scanNumber cs (start.shift bytes lines) = (scanNumber cs start).shift bytes lines := by
  simp only [scanNumber]
  split <;> exact Scanned.token_shift ..

theorem scanString_shift (cs : List Char) (start : Position) :
    scanString cs (start.shift bytes lines) = (scanString cs start).shift bytes lines := by
  simp only [scanString, Position.advance_shift]
  split
  · exact Scanned.token_shift ..
  · rfl

theorem scanLexeme_shift (c : Char) (cs : List Char) (start : Position) :
    scanLexeme c cs (start.shift bytes lines) = (scanLexeme c cs start).shift bytes lines := by
  simp only [scanLexeme, Position.next_shift]
  split
  · exact scanString_shift bytes lines cs start
  split
  · exact Scanned.token_shift ..
  split
  · exact scanNumber_shift bytes lines (c :: cs) start
  split
  · exact Scanned.token_shift ..
  split <;> rfl

theorem Cursor.scan_shift (c : Cursor) :
    (c.shift bytes lines).scan = c.scan.shift bytes lines := by
  have hskip : skipTrivia none (c.shift bytes lines).rest (c.shift bytes lines).position = _ :=
    skipTrivia_shift bytes lines none c.rest c.position
  rw [scan, scan, hskip]
  cases skipTrivia none c.rest c.position with
  | error e => rfl
  | ok after =>
    obtain ⟨_ | ⟨ch, cs⟩, p⟩ := after
    · rfl
    · exact scanLexeme_shift bytes lines ch cs p

end Shift

/-- The outcome of the scanner with all its regions moved. -/
def relocateTokens (r : Relocation) : Except LexError (List Token) → Except LexError (List Token)
  | .ok ts => .ok (ts.map (Token.relocate r))
  | .error e => .error (e.relocate r)

/-- **Places have no influence on what is read.** -/
theorem Cursor.tokens_shift (bytes lines : Nat) (c : Cursor) :
    (c.shift bytes lines).tokens = relocateTokens (.shift bytes lines) c.tokens := by
  have hscan := c.scan_shift bytes lines
  fun_induction Cursor.tokens c with
  | case1 c error after h =>
    rw [h] at hscan
    rw [Cursor.tokens, hscan]
    rfl
  | case2 c t after h hend =>
    rw [h] at hscan
    rw [Cursor.tokens, hscan]
    simp only [Scanned.shift, Token.kind_relocate, hend]
    rfl
  | case3 c t after h hend error herror ih =>
    rw [h] at hscan
    rw [Cursor.tokens, hscan]
    simp only [Scanned.shift, Token.kind_relocate, hend, ih (after.scan_shift bytes lines)]
    rw [herror]
    rfl
  | case4 c t after h hend ts hts ih =>
    rw [h] at hscan
    rw [Cursor.tokens, hscan]
    simp only [Scanned.shift, Token.kind_relocate, hend, ih (after.scan_shift bytes lines)]
    rw [hts]
    rfl

/-! ## Texts that go on -/

section FollowedBy

variable (more : List Char)

/-- The same place in a text that goes on. -/
def Cursor.followedBy (c : Cursor) : Cursor := ⟨c.rest ++ more, c.position⟩

/-- What is read, in a text that goes on. -/
def Scanned.followedBy (s : Scanned) : Scanned := (s.1, s.2.followedBy more)

theorem skipTrivia_append {comment : Option Position} {cs ds : List Char} {p q : Position}
    (h : skipTrivia comment cs p = .ok ⟨ds, q⟩) :
    skipTrivia comment (cs ++ more) p = skipTrivia none (ds ++ more) q := by
  induction cs generalizing comment p with
  | nil =>
    cases comment with
    | none =>
      cases h
      rfl
    | some start => cases h
  | cons c cs ih =>
    cases comment with
    | none =>
      rw [skipTrivia] at h
      rw [List.cons_append, skipTrivia]
      split at h
      · rename_i hblank
        rw [if_pos hblank]
        exact ih h
      · rename_i hblank
        rw [if_neg hblank]
        split at h
        · rename_i hcomment
          rw [if_pos hcomment]
          exact ih h
        · rename_i hcomment
          cases h
          rw [if_neg hcomment, List.cons_append, skipTrivia, if_neg hblank, if_neg hcomment]
    | some start =>
      rw [skipTrivia] at h
      rw [List.cons_append, skipTrivia]
      split at h
      · rename_i hcomment
        rw [if_pos hcomment]
        exact ih h
      · rename_i hcomment
        rw [if_neg hcomment]
        exact ih h

/-- A run ends in front of a character that is not of the run. -/
theorem takeWhile_append_cons {run : Char → Bool} {stop : Char} (h : run stop = false)
    (cs : List Char) : (cs ++ stop :: more).takeWhile run = cs.takeWhile run := by
  induction cs with
  | nil => simp [h]
  | cons c cs ih => simp only [List.cons_append, List.takeWhile_cons, ih]

theorem dropWhile_append_cons {run : Char → Bool} {stop : Char} (h : run stop = false)
    (cs : List Char) :
    (cs ++ stop :: more).dropWhile run = cs.dropWhile run ++ stop :: more := by
  induction cs with
  | nil => simp [h]
  | cons c cs ih =>
    simp only [List.cons_append, List.dropWhile_cons, ih]
    split <;> rfl

theorem fractionDigits_append (cs : List Char) :
    fractionDigits (cs ++ '\n' :: more) = fractionDigits cs := by
  rw [fractionDigits.eq_def cs]
  split
  · exact takeWhile_append_cons more (by decide) _
  · rename_i hpoint
    cases cs with
    | nil => rfl
    | cons c cs =>
      rw [fractionDigits.eq_def]
      split
      · rename_i heq
        exact absurd (by rw [(List.cons.inj heq).1]) (hpoint cs)
      · rfl

theorem scanNumber_append (cs : List Char) (start : Position) :
    scanNumber (cs ++ '\n' :: more) start = (scanNumber cs start).followedBy ('\n' :: more) := by
  have hdigit : Char.isDigit '\n' = false := by decide
  simp only [scanNumber, takeWhile_append_cons more hdigit, dropWhile_append_cons more hdigit,
    fractionDigits_append]
  split
  · rfl
  · rename_i hempty
    have hfraction : fractionDigits (cs.dropWhile Char.isDigit) ≠ [] := by simpa using hempty
    have hlength := congrArg List.length (eq_point_of_fractionDigits hfraction).1
    rw [List.drop_append_of_le_length (by simp at hlength; omega)]
    rfl

theorem scanString_append (cs : List Char) (start : Position) :
    scanString (cs ++ '\n' :: more) start = (scanString cs start).followedBy ('\n' :: more) := by
  have hinside : insideString '\n' = false := by decide
  simp only [scanString, takeWhile_append_cons more hinside, dropWhile_append_cons more hinside]
  cases cs.dropWhile insideString with
  | nil => rfl
  | cons c rest =>
    by_cases hquote : c = '"'
    · subst hquote
      rfl
    · simp [hquote, Scanned.followedBy, Cursor.followedBy]

namespace Symbol

theorem newline_not_mem_text (sign : Symbol) : '\n' ∉ sign.text.toList := by
  cases sign <;> decide

/-- A sign in front of a text that goes on after a line break is in front of the text. -/
theorem exists_eq_text_append (sign : Symbol) {cs rest : List Char}
    (h : cs ++ '\n' :: more = sign.text.toList ++ rest) :
    ∃ rest', cs = sign.text.toList ++ rest' := by
  obtain ⟨others, htext, hbreak⟩ | ⟨rest', hcs, -⟩ := List.append_eq_append_iff.mp h
  · cases others with
    | nil => exact ⟨[], by rw [htext]; simp⟩
    | cons d others =>
      refine absurd ?_ sign.newline_not_mem_text
      rw [htext, (List.cons.inj hbreak).1]
      simp
  · exact ⟨rest', hcs⟩

/-- The sign that a text starts with is the longest one. -/
theorem length_le_of_atStart? {sign other : Symbol} {rest : List Char}
    (h : atStart? (other.text.toList ++ rest) = some sign) :
    other.text.toList.length ≤ sign.text.toList.length := by
  obtain hsame | ⟨longer, _, _, hlonger, hstart⟩ := other.atStart?_text_append rest
  · rw [hsame] at h
    cases h
    exact Nat.le_refl _
  · rw [hstart] at h
    cases h
    simp [hlonger]

theorem atStart?_append (cs : List Char) :
    atStart? (cs ++ '\n' :: more) = atStart? cs := by
  cases hstart : atStart? (cs ++ '\n' :: more) with
  | some sign =>
    obtain ⟨rest, rfl⟩ := sign.exists_eq_text_append more (eq_text_append_of_atStart? hstart)
    obtain hsame | ⟨longer, rest', rfl, hlonger, -⟩ := sign.atStart?_text_append rest
    · exact hsame.symm
    · have hlongest : atStart? (longer.text.toList ++ (rest' ++ '\n' :: more)) = some sign := by
        simpa [hlonger] using hstart
      have hle := length_le_of_atStart? hlongest
      rw [hlonger, List.length_append] at hle
      exact absurd hle (Nat.not_succ_le_self _)
  | none =>
    cases hsome : atStart? cs with
    | none => rfl
    | some sign =>
      rw [eq_text_append_of_atStart? hsome, List.append_assoc] at hstart
      obtain hsame | ⟨longer, _, _, _, hlonger⟩ := sign.atStart?_text_append
        (cs.drop sign.text.length ++ '\n' :: more)
      · rw [hsame] at hstart
        cases hstart
      · rw [hlonger] at hstart
        cases hstart

end Symbol

theorem scanLexeme_append (c : Char) (cs : List Char) (start : Position) :
    scanLexeme c (cs ++ '\n' :: more) start =
      (scanLexeme c cs start).followedBy ('\n' :: more) := by
  have hname : continuesName '\n' = false := by decide
  simp only [scanLexeme, takeWhile_append_cons more hname, dropWhile_append_cons more hname,
    ← List.cons_append, Symbol.atStart?_append]
  split
  · exact scanString_append more cs start
  split
  · rfl
  split
  · exact scanNumber_append more (c :: cs) start
  split
  · rename_i sign hsign
    have hlength := congrArg List.length (Symbol.eq_text_append_of_atStart? hsign)
    rw [List.length_append, String.length_toList] at hlength
    rw [List.drop_append_of_le_length (by omega)]
    rfl
  · split <;> rfl

/-! ## The end of the first text -/

/-- The place at the end of the text. -/
def Cursor.finish (c : Cursor) : Position := c.position.advance c.rest

variable {c after : Cursor} {t : Token}

theorem Cursor.finish_of_scan (h : c.scan = (.ok t, after)) (ht : t.kind.isEnd = false) :
    after.finish = c.finish := by
  have hscans := c.scans_scan
  rw [h] at hscans
  cases hscans with
  | stop => cases ht
  | lexeme heq =>
    rw [finish, finish, heq, Position.advance_append, Position.advance_append]

/-- What is in front of a token: trivia up to the end of the text, or up to a lexeme. -/
theorem Cursor.skipTrivia_of_scan (h : c.scan = (.ok t, after)) :
    (t.kind.isEnd = true ∧ skipTrivia none c.rest c.position = .ok ⟨[], c.finish⟩) ∨
    (t.kind.isEnd = false ∧ ∃ ch cs p, Text.isBlank ch = false ∧ ch ≠ '#' ∧
      skipTrivia none c.rest c.position = .ok ⟨ch :: cs, p⟩ ∧
      scanLexeme ch cs p = (.ok t, after)) := by
  rw [scan] at h
  obtain ⟨gap, rest, heq, -, hrest, hskip⟩ | ⟨_, _, _, -, -, -, hskip⟩ :=
    skipTrivia_none c.rest c.position
  · rw [hskip] at h
    cases rest with
    | nil =>
      cases h
      rw [List.append_nil] at heq
      rw [hskip, finish, heq]
      exact .inl ⟨rfl, rfl⟩
    | cons ch cs =>
      obtain ⟨hblank, hcomment⟩ := hrest ch rfl
      have hlexeme : scanLexeme ch cs (c.position.advance gap) = (.ok t, after) := h
      have hreads := readsLexeme_scanLexeme hblank hcomment cs (c.position.advance gap)
      rw [hlexeme] at hreads
      cases hreads with
      | lexeme _ hkind =>
        exact .inr ⟨hkind.isEnd_eq_false, ch, cs, _, hblank, hcomment, hskip, hlexeme⟩
  · rw [hskip] at h
    cases h

theorem Cursor.scan_followedBy (h : c.scan = (.ok t, after)) (ht : t.kind.isEnd = false) :
    (c.followedBy ('\n' :: more)).scan = (.ok t, after.followedBy ('\n' :: more)) := by
  obtain ⟨hend, -⟩ | ⟨-, ch, cs, p, hblank, hcomment, hskip, hlexeme⟩ := skipTrivia_of_scan h
  · rw [ht] at hend
    cases hend
  · have hstop : skipTrivia none (ch :: cs ++ '\n' :: more) p =
        .ok ⟨ch :: (cs ++ '\n' :: more), p⟩ := by
      simp [skipTrivia, hblank, hcomment]
    rw [scan, followedBy, skipTrivia_append ('\n' :: more) hskip, hstop]
    simp only
    rw [scanLexeme_append, hlexeme]
    rfl

/-- At the end of the text the line break is trivia, and the next text is read from its start. -/
theorem Cursor.scan_followedBy_end (h : c.scan = (.ok t, after)) (ht : t.kind.isEnd = true) :
    (c.followedBy ('\n' :: more)).scan = Cursor.scan ⟨more, c.finish.next '\n'⟩ := by
  obtain ⟨-, hskip⟩ | ⟨hend, -⟩ := skipTrivia_of_scan h
  · rw [scan, followedBy, skipTrivia_append ('\n' :: more) hskip]
    rfl
  · rw [ht] at hend
    cases hend

theorem Cursor.tokens_congr {c d : Cursor} (h : c.scan = d.scan) : c.tokens = d.tokens := by
  rw [tokens, tokens.eq_def d, h]

/-- **A text that can be read is read the same way if another one follows on the next line.** -/
theorem Cursor.tokens_followedBy {ts : List Token} (h : c.tokens = .ok ts) :
    ∃ init last, ts = init ++ [last] ∧ (c.followedBy ('\n' :: more)).tokens =
      (Cursor.tokens ⟨more, c.finish.next '\n'⟩).map (init ++ ·) := by
  fun_induction Cursor.tokens c generalizing ts with
  | case1 => cases h
  | case2 c t after hscan hend =>
    cases h
    refine ⟨[], t, rfl, ?_⟩
    rw [tokens_congr (scan_followedBy_end more hscan hend)]
    cases Cursor.tokens ⟨more, c.finish.next '\n'⟩ <;> rfl
  | case3 => cases h
  | case4 c t after hscan hend ts hts ih =>
    cases h
    have ht : t.kind.isEnd = false := by simpa using hend
    obtain ⟨init, last, rfl, htokens⟩ := ih hts
    refine ⟨t :: init, last, rfl, ?_⟩
    rw [tokens, scan_followedBy more hscan ht]
    simp only [ht, htokens, finish_of_scan hscan ht]
    cases Cursor.tokens ⟨more, c.finish.next '\n'⟩ <;> rfl

end FollowedBy

/-- The start of the line after a text. -/
theorem Position.next_newline_advance (cs : List Char) :
    (advance {} cs).next '\n' = shift (byteCount cs + 1) (1 + cs.count '\n') {} := by
  have hoffset : (advance {} cs).offset = 0 + byteCount cs := offset_advance {} cs
  have hsize : Char.utf8Size '\n' = 1 := by decide
  rw [next, if_pos (beq_self_eq_true _), hoffset, line_advance, hsize, Nat.add_assoc,
    Nat.add_comm (1 + _) 1]
  rfl

/-- What stands on the lines below a text is moved by the bytes of the text and of the line break,
and by the lines of the text. -/
def Relocation.below (text : List Char) : Relocation :=
  .shift (byteCount text + 1) (1 + text.count '\n')

/-- **Two texts with a line break in between are read one after the other**, the second one as if
it stood alone, at its place. -/
theorem tokenize_join {first : List Char} {ts : List Token} (h : tokenize first = .ok ts)
    (second : List Char) :
    tokenize (first ++ '\n' :: second) =
      (relocateTokens (.below first) (tokenize second)).map (ts.dropLast ++ ·) := by
  obtain ⟨init, last, rfl, htokens⟩ := Cursor.tokens_followedBy second h
  rw [List.dropLast_concat, tokenize, tokenize, Relocation.below, ← Cursor.tokens_shift,
    Cursor.shift, ← Position.next_newline_advance]
  exact htokens

end Chalk
