import Chalk.Token.Lexer

/-!
# Texts made of lexemes and trivia

A source that can be read is a sequence of pieces, each one a lexeme or a piece of trivia. Neither
the order nor the choice of the pieces is prescribed: two letters next to each other may be one name
or two. `Tiled` says that a text has such a sequence, and mentions no scanner.

The scanner chooses its own pieces, the longest ones, and never goes back. It loses nothing by that:
where some sequence of pieces goes on in the middle of what the scanner has taken, the rest of the
piece that reaches across the end is made of pieces again. The only lexemes that reach across the
end of a longest one are numbers with a point, of which the point and the digits after it remain,
and signs that end with `=`, of which that remains.

## Main definitions

* `IsTrivia`, `IsLexeme` — the pieces, and the kinds of the lexemes
* `Tiled` — texts that are made of pieces
* `Blocks` — what stands at the start of a text of which no piece can be read

## Main results

* `Tiled.drop_run`, `Tiled.drop_symbol` — the rest after a longest piece is tiled if the whole is
* `Blocks.not_tiled` — where the scanner stops, no piece goes on
-/

namespace Chalk

/-! ## Pieces -/

/-- A piece of trivia: a blank character, or a comment. -/
inductive IsTrivia : List Char → Prop where
  | blank {c : Char} (h : Text.isBlank c = true) : IsTrivia [c]
  | comment {body : List Char} (h : '#' ∉ body) : IsTrivia ('#' :: body ++ ['#'])

/-- A lexeme, and the kind of the token that it is. A number has at most one point, with digits on
both sides; a string stays on its line. -/
inductive IsLexeme : List Char → Kind → Prop where
  | word {c : Char} {cs : List Char} (first : startsName c = true)
      (others : ∀ d ∈ cs, continuesName d = true) : IsLexeme (c :: cs) (.ofWord (c :: cs))
  | integer {whole : List Char} (nonempty : whole ≠ []) (digits : ∀ d ∈ whole, d.isDigit = true) :
      IsLexeme whole (.number (Decimal.toFloat (Decimal.digitsValue whole) 0))
  | decimal {whole fraction : List Char} (nonempty : whole ≠ [])
      (digits : ∀ d ∈ whole, d.isDigit = true) (nonempty' : fraction ≠ [])
      (digits' : ∀ d ∈ fraction, d.isDigit = true) :
      IsLexeme (whole ++ '.' :: fraction)
        (.number (Decimal.toFloat (Decimal.digitsValue (whole ++ fraction))
          (-(fraction.length : Int))))
  | string {content : List Char} (inside : ∀ c ∈ content, insideString c = true) :
      IsLexeme ('"' :: content ++ ['"']) (.string (String.ofList content))
  | symbol (sign : Symbol) : IsLexeme sign.text.toList (.symbol sign)

/-- The text is a sequence of lexemes and pieces of trivia. -/
inductive Tiled : List Char → Prop where
  | nil : Tiled []
  | trivia {piece rest : List Char} (first : IsTrivia piece) (others : Tiled rest) :
      Tiled (piece ++ rest)
  | lexeme {piece rest : List Char} {kind : Kind} (first : IsLexeme piece kind)
      (others : Tiled rest) : Tiled (piece ++ rest)

/-- The text is a sequence of pieces of trivia. -/
inductive Gap : List Char → Prop where
  | nil : Gap []
  | cons {piece rest : List Char} (first : IsTrivia piece) (others : Gap rest) : Gap (piece ++ rest)

theorem Gap.tiled_append {gap rest : List Char} (h : Gap gap) (hrest : Tiled rest) :
    Tiled (gap ++ rest) := by
  induction h with
  | nil => exact hrest
  | cons first _ ih =>
    rw [List.append_assoc]
    exact .trivia first ih

theorem Gap.tiled {gap : List Char} (h : Gap gap) : Tiled gap := by
  have htiled := h.tiled_append .nil
  rwa [List.append_nil] at htiled

/-! ## Characters -/

theorem startsName_continuesName {c : Char} (h : startsName c = true) : continuesName c = true := by
  rw [startsName, Bool.or_eq_true] at h
  rw [continuesName, Text.isAlphanumeric, Bool.or_eq_true, Bool.or_eq_true]
  exact h.imp_left .inl

/-- A digit goes on a name and does not start one. -/
theorem isDigit_name {c : Char} (h : c.isDigit = true) :
    continuesName c = true ∧ startsName c = false := by
  have hascii : ∀ code < 128, (Char.ofNat code).isDigit = true →
      continuesName (Char.ofNat code) = true ∧ startsName (Char.ofNat code) = false := by
    decide +kernel
  have hlt : c.toNat < 128 := by
    simp only [Char.isDigit, Bool.and_eq_true, decide_eq_true_eq] at h
    exact Nat.lt_of_le_of_lt (UInt32.le_iff_toNat_le.mp h.2) (by decide)
  have hc := hascii c.toNat hlt
  rw [Char.ofNat_toNat] at hc
  exact hc h

/-- A blank character is in no name. -/
theorem continuesName_of_isBlank {c : Char} (h : Text.isBlank c = true) :
    continuesName c = false := by
  have hblank : ∀ range ∈ Text.blankRanges, ∀ i < range.2 + 1 - range.1,
      continuesName (Char.ofNat (range.1 + i)) = false := by decide +kernel
  obtain ⟨range, hmem, hlow, hhigh⟩ := Text.Ranges.has_iff.mp h
  have hc := hblank range hmem (c.toNat - range.1) (by omega)
  rwa [Nat.add_sub_of_le hlow, Char.ofNat_toNat] at hc

/-- A character of a name starts no trivia. -/
theorem continuesName_not_trivia {c : Char} (h : continuesName c = true) :
    Text.isBlank c = false ∧ c ≠ '#' := by
  refine ⟨Bool.eq_false_iff.mpr fun hblank => ?_, fun heq => ?_⟩
  · rw [continuesName_of_isBlank hblank] at h
    cases h
  · rw [heq] at h
    exact absurd h (by decide)

/-- The first characters of signs are in no name, not blank, and start neither a comment nor a
string. -/
theorem Symbol.exists_text_eq_cons (sign : Symbol) : ∃ c cs, sign.text.toList = c :: cs ∧
    continuesName c = false ∧ Text.isBlank c = false ∧ c ≠ '#' ∧ c ≠ '"' := by
  cases sign <;> exact ⟨_, _, rfl, by decide⟩

/-! ## The first piece of a text -/

/-- The four ways in which a lexeme starts. -/
theorem IsLexeme.starts {piece : List Char} {kind : Kind} (h : IsLexeme piece kind) :
    ∃ c cs, piece = c :: cs ∧ (startsName c = true ∨ c.isDigit = true ∨
      (c = '"' ∧ ∃ content, cs = content ++ ['"'] ∧ ∀ d ∈ content, insideString d = true) ∨
      ∃ sign : Symbol, piece = sign.text.toList) := by
  cases h with
  | word first => exact ⟨_, _, rfl, .inl first⟩
  | integer nonempty digits =>
    obtain ⟨c, cs, rfl⟩ := List.exists_cons_of_ne_nil nonempty
    exact ⟨c, cs, rfl, .inr (.inl (digits c List.mem_cons_self))⟩
  | decimal nonempty digits =>
    obtain ⟨c, cs, rfl⟩ := List.exists_cons_of_ne_nil nonempty
    exact ⟨c, _, rfl, .inr (.inl (digits c List.mem_cons_self))⟩
  | string inside => exact ⟨_, _, rfl, .inr (.inr (.inl ⟨rfl, _, rfl, inside⟩))⟩
  | symbol sign =>
    obtain ⟨c, cs, heq, -⟩ := sign.exists_text_eq_cons
    exact ⟨c, cs, heq, .inr (.inr (.inr ⟨sign, rfl⟩))⟩

/-- A lexeme starts with neither a blank nor the mark of a comment. -/
theorem IsLexeme.exists_eq_cons {piece : List Char} {kind : Kind} (h : IsLexeme piece kind) :
    ∃ c cs, piece = c :: cs ∧ Text.isBlank c = false ∧ c ≠ '#' := by
  obtain ⟨c, cs, rfl, hfirst | hdigit | ⟨rfl, -⟩ | ⟨sign, hsign⟩⟩ := h.starts
  · exact ⟨c, cs, rfl, continuesName_not_trivia (startsName_continuesName hfirst)⟩
  · exact ⟨c, cs, rfl, continuesName_not_trivia (isDigit_name hdigit).1⟩
  · exact ⟨_, cs, rfl, by decide⟩
  · obtain ⟨d, ds, heq, -, hblank, hcomment, -⟩ := sign.exists_text_eq_cons
    exact ⟨d, ds, hsign.trans heq, hblank, hcomment⟩

theorem IsTrivia.exists_eq_cons {piece : List Char} (h : IsTrivia piece) :
    ∃ c cs, piece = c :: cs ∧ (Text.isBlank c = true ∧ cs = [] ∨
      c = '#' ∧ ∃ body, cs = body ++ ['#'] ∧ '#' ∉ body) := by
  cases h with
  | blank hblank => exact ⟨_, _, rfl, .inl ⟨hblank, rfl⟩⟩
  | comment hbody => exact ⟨_, _, rfl, .inr ⟨rfl, _, rfl, hbody⟩⟩

/-- The first piece of a tiled text that is not empty. -/
theorem Tiled.first_piece {c : Char} {cs : List Char} (h : Tiled (c :: cs)) :
    ∃ piece rest, c :: cs = piece ++ rest ∧ Tiled rest ∧
      (IsTrivia piece ∨ ∃ kind, IsLexeme piece kind) := by
  generalize htext : c :: cs = text at h
  cases h with
  | nil => cases htext
  | trivia first others => exact ⟨_, _, rfl, others, .inl first⟩
  | lexeme first others => exact ⟨_, _, rfl, others, .inr ⟨_, first⟩⟩

/-- A tiled text that starts with neither a blank nor a comment starts with a lexeme. -/
theorem Tiled.first_lexeme {c : Char} {cs : List Char} (h : Tiled (c :: cs))
    (hblank : Text.isBlank c = false) (hcomment : c ≠ '#') :
    ∃ piece rest kind, c :: cs = piece ++ rest ∧ Tiled rest ∧ IsLexeme piece kind := by
  obtain ⟨piece, rest, heq, hrest, htrivia | ⟨kind, hlexeme⟩⟩ := h.first_piece
  · obtain ⟨d, ds, rfl, ⟨hd, -⟩ | ⟨rfl, -⟩⟩ := htrivia.exists_eq_cons
    · cases heq
      rw [hblank] at hd
      cases hd
    · cases heq
      exact absurd rfl hcomment
  · exact ⟨piece, rest, kind, heq, hrest, hlexeme⟩

/-! ## Trivia in front -/

/-- Two ways to cut a text at the first character of a kind are the same. -/
theorem append_cons_inj {x : Char} {as as' bs bs' : List Char} (h : as ++ x :: bs = as' ++ x :: bs')
    (has : x ∉ as) (has' : x ∉ as') : as = as' ∧ bs = bs' := by
  induction as generalizing as' with
  | nil =>
    cases as' with
    | nil => exact ⟨rfl, (List.cons.inj h).2⟩
    | cons a as' => exact absurd (List.mem_cons.mpr (.inl (List.cons.inj h).1)) has'
  | cons a as ih =>
    cases as' with
    | nil => exact absurd (List.mem_cons.mpr (.inl (List.cons.inj h).1.symm)) has
    | cons a' as' =>
      obtain ⟨rfl, htail⟩ := List.cons.inj h
      obtain ⟨rfl, rfl⟩ := ih htail (fun hmem => has (.tail _ hmem)) fun hmem => has' (.tail _ hmem)
      exact ⟨rfl, rfl⟩

/-- A piece of trivia in front of a tiled text is one of its pieces. -/
theorem Tiled.drop_trivia {piece rest : List Char} (h : Tiled (piece ++ rest))
    (hpiece : IsTrivia piece) : Tiled rest := by
  obtain ⟨c, cs, rfl, hc⟩ := hpiece.exists_eq_cons
  obtain ⟨piece', rest', heq, hrest', htrivia | ⟨kind, hlexeme⟩⟩ := h.first_piece
  · obtain ⟨d, ds, rfl, hd⟩ := htrivia.exists_eq_cons
    obtain ⟨rfl, htail⟩ := List.cons.inj heq
    rcases hc with ⟨hblank, rfl⟩ | ⟨rfl, body, rfl, hbody⟩ <;>
      rcases hd with ⟨hblank', rfl⟩ | ⟨hcomment, body', rfl, hbody'⟩
    · rwa [show rest = rest' from htail]
    · rw [hcomment] at hblank
      exact absurd hblank (by decide)
    · exact absurd hblank' (by decide)
    · have hcut : body ++ '#' :: rest = body' ++ '#' :: rest' := by simpa using htail
      obtain ⟨-, rfl⟩ := append_cons_inj hcut hbody hbody'
      exact hrest'
  · obtain ⟨d, ds, rfl, hblank', hcomment'⟩ := hlexeme.exists_eq_cons
    obtain ⟨rfl, -⟩ := List.cons.inj heq
    rcases hc with ⟨hblank, -⟩ | ⟨rfl, -⟩
    · rw [hblank'] at hblank
      cases hblank
    · exact absurd rfl hcomment'

theorem Tiled.drop_gap {gap rest : List Char} (hgap : Gap gap) (h : Tiled (gap ++ rest)) :
    Tiled rest := by
  induction hgap with
  | nil => exact h
  | cons first _ ih =>
    rw [List.append_assoc] at h
    exact ih (h.drop_trivia first)

/-! ## Longest lexemes in front -/

/-- A run of characters and what follows, cut at another place of the run. -/
theorem append_eq_append_of_run {run : Char → Bool} {taken rest piece rest' : List Char}
    (htaken : ∀ c ∈ taken, run c = true) (hrest : ∀ c, rest.head? = some c → run c = false)
    (hpiece : ∀ c ∈ piece, run c = true) (heq : taken ++ rest = piece ++ rest') :
    ∃ taken', taken = piece ++ taken' ∧ rest' = taken' ++ rest := by
  obtain ⟨taken', rfl, rfl⟩ | ⟨extra, rfl, rfl⟩ := List.append_eq_append_iff.mp heq
  · cases taken' with
    | nil => exact ⟨[], by simp, rfl⟩
    | cons c cs =>
      have hc := hpiece c (List.mem_append_right _ List.mem_cons_self)
      rw [hrest c rfl] at hc
      cases hc
  · exact ⟨extra, rfl, rfl⟩

/-- A run that is not empty, and what may stand behind a point. -/
theorem tiled_point {fraction rest : List Char} (hne : fraction ≠ [])
    (hdigits : ∀ d ∈ fraction, d.isDigit = true) (hrest : Tiled rest) :
    Tiled ('.' :: (fraction ++ rest)) :=
  .lexeme (.symbol .dot) (.lexeme (.integer hne hdigits) hrest)

/-- **A longest run of digits, or of characters of names, can be taken off the front.** A piece that
reaches across its end is a number whose point comes right after the run, and the point and the
digits after it are pieces. The induction is on the pieces. -/
theorem Tiled.drop_run {run : Char → Bool} (hname : ∀ c, run c = true → continuesName c = true)
    (hword : ∀ c d, run c = true → startsName c = true → continuesName d = true → run d = true)
    (hdigit : ∀ d, d.isDigit = true → run d = true) {text taken rest : List Char} (h : Tiled text)
    (heq : text = taken ++ rest) (htaken : ∀ c ∈ taken, run c = true)
    (hrest : ∀ c, rest.head? = some c → run c = false) : Tiled rest := by
  induction h generalizing taken with
  | nil =>
    obtain ⟨-, rfl⟩ := List.append_eq_nil_iff.mp heq.symm
    exact .nil
  | @trivia piece rest' first others ih =>
    cases taken with
    | nil =>
      rw [List.nil_append] at heq
      rw [← heq]
      exact .trivia first others
    | cons c taken =>
      have hc := hname c (htaken c List.mem_cons_self)
      obtain ⟨d, ds, rfl, ⟨hblank, -⟩ | ⟨rfl, -⟩⟩ := first.exists_eq_cons
      · obtain ⟨rfl, -⟩ := List.cons.inj heq
        rw [continuesName_of_isBlank hblank] at hc
        cases hc
      · obtain ⟨rfl, -⟩ := List.cons.inj heq
        exact absurd hc (by decide)
  | @lexeme piece rest' kind first others ih =>
    cases taken with
    | nil =>
      rw [List.nil_append] at heq
      rw [← heq]
      exact .lexeme first others
    | cons c taken =>
      have hc := htaken c List.mem_cons_self
      -- a piece inside of the run leaves a shorter run
      have hinside : (∀ d ∈ piece, run d = true) → Tiled rest := by
        intro hpiece
        obtain ⟨taken', htaken', hrest'⟩ :=
          append_eq_append_of_run htaken hrest hpiece heq.symm
        refine ih hrest' fun d hd => htaken d ?_
        rw [htaken']
        exact List.mem_append_right _ hd
      cases first with
      | @word d ds hfirst hothers =>
        obtain ⟨rfl, -⟩ := List.cons.inj heq
        refine hinside fun e he => ?_
        rcases List.mem_cons.mp he with rfl | he
        · exact hc
        · exact hword d e hc hfirst (hothers e he)
      | integer _ digits => exact hinside fun d hd => hdigit d (digits d hd)
      | @decimal whole fraction _ digits nonempty' digits' =>
        -- the point ends the run
        rw [List.append_assoc] at heq
        obtain ⟨taken', htaken', hrest'⟩ :=
          append_eq_append_of_run htaken hrest (fun d hd => hdigit d (digits d hd)) heq.symm
        cases taken' with
        | nil =>
          rw [List.nil_append] at hrest'
          rw [← hrest']
          exact tiled_point nonempty' digits' others
        | cons d taken' =>
          obtain ⟨rfl, -⟩ := List.cons.inj hrest'
          have hpoint := hname '.' (htaken '.' (by simp [htaken']))
          exact absurd hpoint (by decide)
      | string =>
        obtain ⟨rfl, -⟩ := List.cons.inj heq
        exact absurd (hname '"' hc) (by decide)
      | symbol sign =>
        obtain ⟨d, ds, htext, hd, -⟩ := sign.exists_text_eq_cons
        rw [htext] at heq
        obtain ⟨rfl, -⟩ := List.cons.inj heq
        rw [hname d hc] at hd
        cases hd

theorem Tiled.drop_name {taken rest : List Char} (h : Tiled (taken ++ rest))
    (htaken : ∀ c ∈ taken, continuesName c = true)
    (hrest : ∀ c, rest.head? = some c → continuesName c = false) : Tiled rest :=
  h.drop_run (fun _ hc => hc) (fun _ _ _ _ hd => hd) (fun _ hd => (isDigit_name hd).1) rfl htaken
    hrest

theorem Tiled.drop_digits {taken rest : List Char} (h : Tiled (taken ++ rest))
    (htaken : ∀ c ∈ taken, c.isDigit = true)
    (hrest : ∀ c, rest.head? = some c → c.isDigit = false) : Tiled rest := by
  refine h.drop_run (fun _ hc => (isDigit_name hc).1) (fun c d hc hfirst _ => ?_)
    (fun _ hd => hd) rfl htaken hrest
  rw [(isDigit_name hc).2] at hfirst
  cases hfirst

/-! ## Signs in front -/

/-- A tiled text that starts with a character that is in no name and opens nothing starts with a
sign. -/
theorem Tiled.first_symbol {c : Char} {cs : List Char} (h : Tiled (c :: cs))
    (hname : continuesName c = false) (hblank : Text.isBlank c = false) (hcomment : c ≠ '#')
    (hquote : c ≠ '"') :
    ∃ (sign : Symbol) (rest : List Char), c :: cs = sign.text.toList ++ rest ∧ Tiled rest := by
  obtain ⟨piece, rest, kind, heq, hrest, hlexeme⟩ := h.first_lexeme hblank hcomment
  obtain ⟨d, ds, rfl, hfirst | hdigit | ⟨rfl, -⟩ | ⟨sign, hsign⟩⟩ := hlexeme.starts
  · rw [(List.cons.inj heq).1, startsName_continuesName hfirst] at hname
    cases hname
  · rw [(List.cons.inj heq).1, (isDigit_name hdigit).1] at hname
    cases hname
  · exact absurd (List.cons.inj heq).1 hquote
  · exact ⟨sign, rest, by rw [heq, hsign], hrest⟩

theorem Tiled.drop_point {rest : List Char} (h : Tiled ('.' :: rest)) : Tiled rest := by
  obtain ⟨sign, rest', heq, hrest'⟩ :=
    h.first_symbol (by decide) (by decide) (by decide) (by decide)
  cases sign <;> first | (cases heq; exact hrest') | cases heq

/-- Of two signs with `=` one after the other the first can be cut short. -/
theorem Tiled.drop_equal {rest : List Char} (h : Tiled ('=' :: rest)) : Tiled rest := by
  obtain ⟨sign, rest', heq, hrest'⟩ :=
    h.first_symbol (by decide) (by decide) (by decide) (by decide)
  cases sign with
  | equal =>
    cases heq
    exact hrest'
  | equalEqual =>
    cases heq
    exact .lexeme (.symbol .equal) hrest'
  | _ => cases heq

namespace Symbol

theorem eq_text_append_of_atStart? {cs : List Char} {sign : Symbol} (h : atStart? cs = some sign) :
    cs = sign.text.toList ++ cs.drop sign.text.length := by
  unfold atStart? at h
  split at h <;> cases h <;> rfl

/-- The sign that a text starts with is the one that it was put together from, or that one and `=`
after it. -/
theorem atStart?_text_append (sign : Symbol) (rest : List Char) :
    atStart? (sign.text.toList ++ rest) = some sign ∨
      ∃ longer rest', rest = '=' :: rest' ∧ longer.text.toList = sign.text.toList ++ ['='] ∧
        atStart? (sign.text.toList ++ rest) = some longer := by
  cases sign with
  | equal | less | greater =>
    cases rest with
    | nil => exact .inl rfl
    | cons c rest =>
      by_cases hc : c = '='
      · rw [hc]
        exact .inr ⟨_, rest, rfl, rfl, rfl⟩
      · left
        simp [atStart?, text, hc]
  | _ => exact .inl rfl

end Symbol

/-- **A longest sign can be taken off the front.** A shorter one leaves `=`, which the next sign can
do without. -/
theorem Tiled.drop_symbol {cs : List Char} {sign : Symbol} (h : Tiled cs)
    (hsign : Symbol.atStart? cs = some sign) : Tiled (cs.drop sign.text.length) := by
  have htext := Symbol.eq_text_append_of_atStart? hsign
  generalize cs.drop sign.text.length = rest at htext ⊢
  subst htext
  obtain ⟨c, ds, hcons, hname, hblank, hcomment, hquote⟩ := sign.exists_text_eq_cons
  rw [hcons, List.cons_append] at h
  obtain ⟨other, rest', heq, hrest'⟩ := h.first_symbol hname hblank hcomment hquote
  rw [← List.cons_append, ← hcons] at heq
  rw [heq] at hsign
  rcases other.atStart?_text_append rest' with hsame | ⟨longer, rest'', rfl, hlonger, hstart⟩
  · rw [hsame] at hsign
    cases hsign
    rwa [List.append_cancel_left heq]
  · rw [hstart] at hsign
    cases hsign
    rw [hlonger, List.append_assoc] at heq
    cases List.append_cancel_left heq
    exact hrest'.drop_equal

/-! ## Strings in front -/

/-- A tiled text that starts with a quote starts with a string. -/
theorem Tiled.first_string {cs : List Char} (h : Tiled ('"' :: cs)) :
    ∃ content rest, cs = content ++ '"' :: rest ∧ (∀ c ∈ content, insideString c = true) ∧
      Tiled rest := by
  obtain ⟨piece, rest, kind, heq, hrest, hlexeme⟩ := h.first_lexeme (by decide) (by decide)
  obtain ⟨d, ds, rfl, hfirst | hdigit | ⟨rfl, content, rfl, hcontent⟩ | ⟨sign, hsign⟩⟩ :=
    hlexeme.starts
  · rw [← (List.cons.inj heq).1] at hfirst
    exact absurd hfirst (by decide)
  · rw [← (List.cons.inj heq).1] at hdigit
    exact absurd hdigit (by decide)
  · exact ⟨content, rest, by simpa using heq, hcontent, hrest⟩
  · obtain ⟨c, es, htext, -, -, -, hquote⟩ := sign.exists_text_eq_cons
    rw [hsign, htext] at heq
    exact absurd (List.cons.inj heq).1.symm hquote

theorem quote_not_mem {content : List Char} (h : ∀ c ∈ content, insideString c = true) :
    '"' ∉ content :=
  fun hmem => absurd (h '"' hmem) (by decide)

theorem Tiled.drop_string {content rest : List Char} (h : Tiled ('"' :: (content ++ '"' :: rest)))
    (hcontent : ∀ c ∈ content, insideString c = true) : Tiled rest := by
  obtain ⟨content', rest', heq, hcontent', hrest'⟩ := h.first_string
  obtain ⟨-, rfl⟩ := append_cons_inj heq (quote_not_mem hcontent) (quote_not_mem hcontent')
  exact hrest'

/-! ## Where no piece can be read -/

/-- The character starts neither a lexeme nor a piece of trivia. -/
def StartsNothing (c : Char) : Prop :=
  Text.isBlank c = false ∧ c ≠ '#' ∧ ∀ cs kind, ¬ IsLexeme (c :: cs) kind

/-- What stands at the start of a text that makes the given fault: a string that its line does not
close, a comment that nothing closes, a `!` without `=`, or a character that starts nothing. -/
def Blocks (text : List Char) : LexFault → Prop
  | .unterminatedString =>
    ∃ content more, text = '"' :: content ++ more ∧ (∀ c ∈ content, insideString c = true) ∧
      (more = [] ∨ more.head? = some '\n')
  | .unterminatedComment => ∃ body, text = '#' :: body ∧ '#' ∉ body
  | .unexpectedCharacter c =>
    ∃ more, text = c :: more ∧ (c = '!' ∧ more.head? ≠ some '=' ∨ StartsNothing c)

/-- **Where the scanner stops, no piece goes on.** -/
theorem Blocks.not_tiled {text : List Char} {fault : LexFault} (h : Blocks text fault) :
    ¬ Tiled text := by
  intro htiled
  cases fault with
  | unterminatedString =>
    obtain ⟨content, more, rfl, hcontent, hmore⟩ := h
    obtain ⟨content', rest, heq, hcontent', -⟩ := htiled.first_string
    have hstop : ∀ c, more.head? = some c → insideString c = false ∧ c ≠ '"' := by
      intro c hc
      rcases hmore with rfl | hmore
      · cases hc
      · rw [hmore] at hc
        cases hc
        decide
    obtain ⟨taken, rfl, hrest⟩ :=
      append_eq_append_of_run hcontent (fun c hc => (hstop c hc).1) hcontent' heq
    cases taken with
    | nil => exact (hstop '"' (by rw [← List.nil_append more, ← hrest]; rfl)).2 rfl
    | cons c taken =>
      obtain ⟨rfl, -⟩ := List.cons.inj hrest
      exact quote_not_mem hcontent (by simp)
  | unterminatedComment =>
    obtain ⟨body, rfl, hbody⟩ := h
    obtain ⟨piece, rest, heq, -, htrivia | ⟨kind, hlexeme⟩⟩ := htiled.first_piece
    · obtain ⟨c, cs, rfl, ⟨hblank, -⟩ | ⟨rfl, body', rfl, -⟩⟩ := htrivia.exists_eq_cons
      · obtain ⟨rfl, -⟩ := List.cons.inj heq
        exact absurd hblank (by decide)
      · obtain ⟨-, rfl⟩ := List.cons.inj heq
        simp at hbody
    · obtain ⟨c, cs, rfl, -, hcomment⟩ := hlexeme.exists_eq_cons
      obtain ⟨rfl, -⟩ := List.cons.inj heq
      exact hcomment rfl
  | unexpectedCharacter c =>
    obtain ⟨more, rfl, ⟨rfl, hmore⟩ | ⟨hblank, hcomment, hlexeme⟩⟩ := h
    · obtain ⟨sign, rest, heq, -⟩ :=
        htiled.first_symbol (by decide) (by decide) (by decide) (by decide)
      cases sign <;> first | (cases heq; exact hmore rfl) | cases heq
    · obtain ⟨piece, rest, kind, heq, -, hpiece⟩ := htiled.first_lexeme hblank hcomment
      obtain ⟨d, ds, rfl, -⟩ := hpiece.exists_eq_cons
      obtain ⟨rfl, -⟩ := List.cons.inj heq
      exact hlexeme ds kind hpiece

end Chalk
