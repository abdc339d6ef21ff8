import Chalk.Proofs.Longest
import Chalk.Proofs.Stream

/-!
# Progress of a stream

A stream that goes on after an error could stay where it is for ever. It does so in one case only: a
character that starts nothing and is no `!` is not passed, so it is reported again and again, and
the end of the text is never reached. Every other item moves the stream on, whether it is a token or
an error, and after the token that marks the end there is nothing.

What makes a stream stay is not the error but that the error leaves the cursor in front of the same
character with no trivia before it: from there the scanner does what it has just done
(`Cursor.scan_eq_of_skipTrivia`). The trivia that the first such pull has skipped is gone, so that
pull may have moved, and the next ones do not.

Reading a whole text stops at the first error. Up to there every item but the last moves the stream,
so as many pulls as the text has characters, and one more, decide what is read.

## Main definitions

* `IsPassed` — the items that a stream moves past
* `TokenStream.Pulls` — what one pull does
* `tokensOf` — the tokens among some items, or the first error

## Main results

* `Cursor.steps_scan` — one step of the scanner
* `TokenStream.pulls_of_next` — one pull
* `Cursor.tokens_eq_tokensOf_take` — the items that are pulled and the tokens that are read
-/

namespace Chalk

/-- The items that a stream moves past: every token but the one that marks the end, and every error
but that of a character, other than `!`, that starts nothing. -/
def IsPassed : Except LexError Token → Prop
  | .ok t => t.kind.isEnd = false
  | .error ⟨.unexpectedCharacter c, _⟩ => c = '!'
  | .error _ => True

/-! ## One step of the scanner -/

/-- A comment that nothing closes takes the rest of the text. -/
theorem skipTrivia_eq_error {comment : Option Position} {cs : List Char} {p : Position}
    {e : LexError} {after : Cursor} (h : skipTrivia comment cs p = .error (e, after)) :
    e.fault = .unterminatedComment ∧ after.rest = [] ∧ (comment = none → cs ≠ []) := by
  fun_induction skipTrivia comment cs p with
  | case1 | case5 => cases h
  | case2 =>
    cases h
    exact ⟨rfl, rfl, fun hnone => by cases hnone⟩
  | case3 _ _ _ _ ih | case4 _ _ _ _ _ ih | case6 _ _ _ _ _ ih | case7 _ _ _ _ _ ih =>
    obtain ⟨hfault, hrest, -⟩ := ih h
    exact ⟨hfault, hrest, fun _ => List.cons_ne_nil _ _⟩

/-- Where trivia has been skipped there is none left to skip, so the scanner does the same from
there. -/
theorem Cursor.scan_eq_of_skipTrivia {c d : Cursor}
    (h : skipTrivia none c.rest c.position = .ok d) : d.scan = c.scan := by
  obtain ⟨gap, rest, -, -, hrest, hskip⟩ | ⟨gap, body, after, -, -, -, hskip⟩ :=
    skipTrivia_none c.rest c.position
  · rw [hskip] at h
    cases h
    have hagain := Gap.nil.skipTrivia hrest (c.position.advance gap)
    rw [List.nil_append] at hagain
    rw [scan, scan, hskip, hagain]
    rfl
  · rw [hskip] at h
    cases h

/-- The errors of a lexeme: a string that its line does not close, which is passed, or a character
that starts nothing, which is passed only if it is `!`. -/
theorem scanLexeme_eq_error {c : Char} {cs : List Char} {p : Position} {e : LexError}
    {after : Cursor} (h : scanLexeme c cs p = (.error e, after)) :
    (e.fault = .unterminatedString ∧ after.rest.length < (c :: cs).length) ∨
      e.fault = .unexpectedCharacter c ∧
        after = if c == '!' then ⟨cs, p.next c⟩ else ⟨c :: cs, p⟩ := by
  rw [scanLexeme] at h
  split at h
  · have hle := scanString_length_le cs p
    rw [h] at hle
    rw [scanString] at h
    split at h
    · cases h
    · cases h
      exact .inl ⟨rfl, Nat.lt_succ_of_le hle⟩
  split at h
  · cases h
  split at h
  · simp only [scanNumber] at h
    split at h <;> cases h
  split at h
  · cases h
  · cases h
    exact .inr ⟨rfl, rfl⟩

/-- What one step of the scanner does: it moves on, or comes to the end, or stays in front of a
character with which it will always do the same. -/
inductive Cursor.Steps (c : Cursor) : Scanned → Prop where
  | moves {item : Except LexError Token} {after : Cursor} (isPassed : IsPassed item)
      (shorter : after.rest.length < c.rest.length) : Steps c (item, after)
  | ends (span : Span) (after : Cursor) : Steps c (.ok ⟨.endOfInput, span⟩, after)
  | stays {ch : Char} {span : Span} {after : Cursor} (other : ch ≠ '!')
      (again : after.scan = (.error ⟨.unexpectedCharacter ch, span⟩, after)) :
      Steps c (.error ⟨.unexpectedCharacter ch, span⟩, after)

namespace Cursor

variable {c after : Cursor} {t : Token} {e : LexError}

theorem steps_of_token (h : c.scan = (.ok t, after)) : c.Steps (.ok t, after) := by
  by_cases hend : t.kind.isEnd = true
  · obtain ⟨kind, span⟩ := t
    cases kind with
    | endOfInput => exact .ends span after
    | _ => cases hend
  · have hkind : t.kind.isEnd = false := by simpa using hend
    exact .moves hkind (scan_length_lt h hkind)

theorem steps_of_skipTrivia (h : skipTrivia none c.rest c.position = .error (e, after)) :
    c.Steps (.error e, after) := by
  obtain ⟨hfault, hrest, hne⟩ := skipTrivia_eq_error h
  obtain ⟨fault, span⟩ := e
  cases hfault
  refine .moves trivial ?_
  rw [hrest]
  exact List.length_pos_of_ne_nil (hne rfl)

/-- An error behind the trivia: only a character that starts nothing can be met again, and then the
trivia in front of it is gone. -/
theorem steps_of_scanLexeme {ch : Char} {cs : List Char} {p : Position}
    (hskip : skipTrivia none c.rest c.position = .ok ⟨ch :: cs, p⟩)
    (h : scanLexeme ch cs p = (.error e, after)) : c.Steps (.error e, after) := by
  have hle := skipTrivia_length_le hskip
  obtain ⟨fault, span⟩ := e
  rcases scanLexeme_eq_error h with ⟨hfault, hlt⟩ | ⟨hfault, hafter⟩
  · cases hfault
    exact .moves trivial (Nat.lt_of_lt_of_le hlt hle)
  · cases hfault
    split at hafter
    · rename_i hbang
      subst hafter
      exact .moves (beq_iff_eq.mp hbang) hle
    · rename_i hother
      subst hafter
      have hscan : c.scan = (.error ⟨.unexpectedCharacter ch, span⟩, ⟨ch :: cs, p⟩) := by
        rw [scan, hskip]
        exact h
      exact .stays (by simpa using hother) ((scan_eq_of_skipTrivia hskip).trans hscan)

theorem steps_scan (c : Cursor) : c.Steps c.scan := by
  rcases hscan : c.scan with ⟨item, after⟩
  cases item with
  | ok t => exact steps_of_token hscan
  | error e =>
    rw [scan] at hscan
    cases hskip : skipTrivia none c.rest c.position with
    | error skipped =>
      rw [hskip] at hscan
      cases hscan
      exact steps_of_skipTrivia hskip
    | ok skipped =>
      rw [hskip] at hscan
      obtain ⟨_ | ⟨ch, cs⟩, p⟩ := skipped
      · cases hscan
      · exact steps_of_scanLexeme hskip hscan

end Cursor

/-! ## Pulling items -/

namespace TokenStream

variable {s after : TokenStream} {item : Except LexError Token}

theorem take_succ_of_next (h : s.next = some (item, after)) (n : Nat) :
    s.take (n + 1) = (item :: (after.take n).1, (after.take n).2) := by
  rw [take, h]

/-- What one pull of a stream does. The three cases exclude each other by the item. -/
inductive Pulls (s : TokenStream) : Except LexError Token → TokenStream → Prop where
  /-- The stream moves past what it reads. -/
  | moves {item : Except LexError Token} {after : TokenStream} (isPassed : IsPassed item)
      (shorter : ∃ passed, passed ≠ [] ∧ s.cursor.rest = passed ++ after.cursor.rest) :
      Pulls s item after
  /-- The text has ended, and every later pull yields nothing. -/
  | ends {span : Span} {after : TokenStream} (nothing : ∀ n, after.take (n + 1) = ([], true)) :
      Pulls s (.ok ⟨.endOfInput, span⟩) after
  /-- The stream stays in front of a character, and every later pull yields the same error. -/
  | stays {c : Char} {span : Span} {after : TokenStream} (other : c ≠ '!')
      (again : ∀ n, after.take n =
        (List.replicate n (.error ⟨.unexpectedCharacter c, span⟩), false)) :
      Pulls s (.error ⟨.unexpectedCharacter c, span⟩) after

/-- A stream that yields an item and is left as it was yields it for ever. -/
theorem take_eq_replicate (h : s.next = some (item, s)) (n : Nat) :
    s.take n = (List.replicate n item, false) := by
  induction n with
  | zero => rfl
  | succ n ih => rw [take_succ_of_next h, ih, List.replicate_succ]

/-- **One pull moves the stream, or ends it, or leaves it where it will stay.** -/
theorem pulls_of_next (h : s.next = some (item, after)) : s.Pulls item after := by
  have hscan := scan_of_next h
  have hpasses := s.cursor.passesTo_scan
  have hsteps := s.cursor.steps_scan
  rw [next] at h
  split at h
  · cases h
  rw [hscan] at hpasses hsteps
  generalize hcursor : after.cursor = moved at hscan hpasses hsteps
  cases hsteps with
  | moves isPassed shorter =>
    obtain ⟨passed, hrest, -⟩ := hpasses
    refine .moves isPassed ⟨passed, ?_, by rw [hcursor]; exact hrest⟩
    rintro rfl
    rw [hrest] at shorter
    exact Nat.lt_irrefl _ shorter
  | ends span =>
    rw [hscan] at h
    cases h
    exact .ends fun n => rfl
  | stays other again =>
    rw [hscan] at h
    cases h
    refine .stays other (take_eq_replicate ?_)
    rw [next, if_neg Bool.false_ne_true, again]

end TokenStream

/-! ## Reading a whole text -/

/-- The tokens among some items up to the first error, or that error. -/
def tokensOf (items : List (Except LexError Token)) : Except LexError (List Token) := items.mapM id

theorem tokensOf_error (e : LexError) (items : List (Except LexError Token)) :
    tokensOf (.error e :: items) = .error e := by
  rw [tokensOf, List.mapM_cons]
  rfl

theorem tokensOf_ok (t : Token) (items : List (Except LexError Token)) :
    tokensOf (.ok t :: items) = (tokensOf items).map (t :: ·) := by
  rw [tokensOf, List.mapM_cons, tokensOf]
  cases items.mapM id <;> rfl

/-- **What is read from a text is what a stream yields**, up to the end or the first error, which is
among the first items: every token before it takes at least one character. -/
theorem Cursor.tokens_eq_tokensOf_take {n : Nat} (c : Cursor) (h : c.rest.length < n) :
    c.tokens = tokensOf (TokenStream.take n { cursor := c }).1 := by
  induction n generalizing c with
  | zero => exact absurd h (Nat.not_lt_zero _)
  | succ n ih =>
    rw [tokens, TokenStream.take, TokenStream.next, if_neg Bool.false_ne_true]
    cases hscan : c.scan with
    | mk item after =>
    cases item with
    | error e => exact (tokensOf_error e _).symm
    | ok t =>
      simp only [tokensOf_ok]
      by_cases hend : t.kind.isEnd = true
      · rw [dif_pos hend, hend]
        cases n <;> rfl
      · have hkind : t.kind.isEnd = false := by simpa using hend
        have hlt := scan_length_lt hscan hkind
        rw [dif_neg hend, hkind, ← ih after (by omega)]
        cases after.tokens <;> rfl

/-- **A stream makes progress.** Whatever has been pulled before, a pull moves the stream past a
part of the text, or yields the end, after which there is nothing, or yields a character that starts
nothing and is no `!`, and then every later pull yields the same error. A text is read with one pull
more than it has characters: the result is the tokens that these yield, or their first error. -/
theorem pulls_and_tokens (source : List Char) :
    (∀ (s : TokenStream) item after, s.next = some (item, after) → s.Pulls item after) ∧
      ∀ n, source.length < n →
        tokenize source = tokensOf ((TokenStream.ofSource source).take n).1 :=
  ⟨fun _ _ _ h => TokenStream.pulls_of_next h,
    fun _ h => Cursor.tokens_eq_tokensOf_take ⟨source, {}⟩ h⟩

/-- A string that its line does not close, a lone `!`, and a character that starts nothing with a
blank in front of it. -/
def stuckText : List Char := "\"a\n! @b".toList

/-- A stream over this text behind the `!`. -/
def stuckStream : TokenStream := { cursor := ⟨" @b".toList, ⟨4, 2, 2⟩⟩ }

theorem pulls_and_tokens_stuckText :
    stuckStream.next = some (.error ⟨.unexpectedCharacter '@', ⟨5, 6, 2, 3⟩⟩,
      { cursor := ⟨"@b".toList, ⟨5, 2, 3⟩⟩ }) ∧
    stuckStream.Pulls (.error ⟨.unexpectedCharacter '@', ⟨5, 6, 2, 3⟩⟩)
      { cursor := ⟨"@b".toList, ⟨5, 2, 3⟩⟩ } ∧
    stuckText.length < 9 ∧
    tokenize stuckText = tokensOf ((TokenStream.ofSource stuckText).take 9).1 := by
  have hnext : stuckStream.next = some (.error ⟨.unexpectedCharacter '@', ⟨5, 6, 2, 3⟩⟩,
      { cursor := ⟨"@b".toList, ⟨5, 2, 3⟩⟩ }) := by
    decide +kernel
  have hlength : stuckText.length < 9 := by decide
  obtain ⟨hpulls, htokens⟩ := pulls_and_tokens stuckText
  exact ⟨hnext, hpulls _ _ _ hnext, hlength, htokens 9 hlength⟩

end Chalk
