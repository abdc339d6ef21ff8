import Chalk.Proofs.Scanning

/-!
# The longest lexeme

The scanner decides what to read by the first character and reads on as long as it can. Said by the
grammar of lexemes alone: the lexeme that it takes is one that no lexeme at the same place goes
beyond. A text that is a lexeme is therefore read as one token when it stands alone, and what the
scanner has cut out of a source is read the same way on its own, while nothing longer at that place
is one token.

The lexemes that start at a place need not be nested one in the other step by step. From `5` on, the
text `5.2` has the lexemes `5` and `5.2` and none in between, so "the next character does not go on"
is not the same as "no lexeme goes on"; the second is what is meant here.

## Main definitions

* `GoesOnInto` — a lexeme with a text behind it that some longer lexeme reaches into
* `ReadsAlone` — a text that is read as one token, up to its end

## Main results

* `IsLexeme.scan` — a lexeme that does not go on is read
* `IsLexeme.kind_unique` — a text is a lexeme of one kind only
* `scanLexeme_longest` — what is read does not go on
* `readsAlone_iff` — the texts of single tokens are the lexemes
* `tokens_resliced` — the text of a token, alone and with more behind it
-/

namespace Chalk

/-- Some lexeme starts with `piece` and reaches into the text `rest` behind it. -/
def GoesOnInto (piece rest : List Char) : Prop :=
  ∃ more rest' kind, rest = more ++ rest' ∧ more ≠ [] ∧ IsLexeme (piece ++ more) kind

theorem not_goesOnInto_nil (piece : List Char) : ¬ GoesOnInto piece [] := by
  rintro ⟨more, rest', kind, heq, hne, -⟩
  exact hne (List.append_eq_nil_iff.mp heq.symm).1

/-- Behind a lexeme that does not go on stands no character that makes it longer. -/
theorem head?_of_not_goesOnInto {run : Char → Bool} {piece rest : List Char}
    (hgrows : ∀ d, run d = true → ∃ kind, IsLexeme (piece ++ [d]) kind)
    (hstop : ¬ GoesOnInto piece rest) (d : Char) (hd : rest.head? = some d) : run d = false := by
  obtain ⟨rest, rfl⟩ := List.head?_eq_some_iff.mp hd
  refine Bool.eq_false_iff.mpr fun hrun => hstop ?_
  obtain ⟨kind, hlonger⟩ := hgrows d hrun
  exact ⟨[d], rest, kind, rfl, List.cons_ne_nil d [], hlonger⟩

theorem forall_mem_concat {run : Char → Bool} {cs : List Char} (hcs : ∀ c ∈ cs, run c = true)
    {d : Char} (hd : run d = true) : ∀ c ∈ cs ++ [d], run c = true :=
  List.forall_mem_append.mpr ⟨hcs, List.forall_mem_singleton.mpr hd⟩

/-! ## Lexemes that do not go on are read -/

section Runs

variable {run : Char → Bool} {cs rest : List Char}

/-- A run ends where the text behind it does not start with a character of the run. -/
theorem takeWhile_append_of_stops (hcs : ∀ c ∈ cs, run c = true)
    (hrest : ∀ c, rest.head? = some c → run c = false) : (cs ++ rest).takeWhile run = cs := by
  rw [List.takeWhile_append_of_pos hcs]
  cases rest with
  | nil => simp
  | cons c rest => simp [hrest c rfl]

theorem dropWhile_append_of_stops (hcs : ∀ c ∈ cs, run c = true)
    (hrest : ∀ c, rest.head? = some c → run c = false) : (cs ++ rest).dropWhile run = rest := by
  rw [List.dropWhile_append_of_pos hcs]
  cases rest with
  | nil => rfl
  | cons c rest => simp [hrest c rfl]

end Runs

theorem startsName_ne_quote {c : Char} (h : startsName c = true) : (c == '"') = false := by
  refine beq_eq_false_iff_ne.mpr fun heq => ?_
  rw [heq] at h
  exact absurd h (by decide)

theorem isDigit_ne_quote {c : Char} (h : c.isDigit = true) : (c == '"') = false := by
  refine beq_eq_false_iff_ne.mpr fun heq => ?_
  rw [heq] at h
  exact absurd h (by decide)

section Lexemes

variable {rest : List Char} {p : Position}

theorem scanLexeme_word {c : Char} {cs : List Char} (first : startsName c = true)
    (others : ∀ d ∈ cs, continuesName d = true) (hstop : ¬ GoesOnInto (c :: cs) rest) :
    scanLexeme c (cs ++ rest) p = .token (.ofWord (c :: cs)) p (c :: cs) rest := by
  have hrest : ∀ d, rest.head? = some d → continuesName d = false :=
    head?_of_not_goesOnInto (fun d hd => ⟨_, .word first (forall_mem_concat others hd)⟩) hstop
  simp only [scanLexeme, startsName_ne_quote first, first, Bool.false_eq_true, if_true, if_false,
    takeWhile_append_of_stops others hrest, dropWhile_append_of_stops others hrest]

theorem scanLexeme_digit {c : Char} (h : c.isDigit = true) (cs : List Char) :
    scanLexeme c cs p = scanNumber (c :: cs) p := by
  simp only [scanLexeme, isDigit_ne_quote h, (isDigit_name h).2, h, Bool.false_eq_true, if_true,
    if_false]

theorem scanNumber_integer {whole : List Char} (nonempty : whole ≠ [])
    (digits : ∀ d ∈ whole, d.isDigit = true) (hstop : ¬ GoesOnInto whole rest) :
    scanNumber (whole ++ rest) p =
      .token (.number (Decimal.toFloat (Decimal.digitsValue whole) 0)) p whole rest := by
  have hrest : ∀ d, rest.head? = some d → d.isDigit = false :=
    head?_of_not_goesOnInto
      (fun d hd => ⟨_, .integer (by simp) (forall_mem_concat digits hd)⟩) hstop
  have hfraction : fractionDigits rest = [] := by
    by_contra hne
    obtain ⟨hpoint, hdigits, -⟩ := eq_point_of_fractionDigits hne
    have hlonger := IsLexeme.decimal nonempty digits hne hdigits
    exact hstop ⟨'.' :: fractionDigits rest, _, _, hpoint, List.cons_ne_nil _ _, hlonger⟩
  simp [scanNumber, takeWhile_append_of_stops digits hrest, dropWhile_append_of_stops digits hrest,
    hfraction]

theorem scanNumber_decimal {whole fraction : List Char} (nonempty : whole ≠ [])
    (digits : ∀ d ∈ whole, d.isDigit = true) (nonempty' : fraction ≠ [])
    (digits' : ∀ d ∈ fraction, d.isDigit = true)
    (hstop : ¬ GoesOnInto (whole ++ '.' :: fraction) rest) :
    scanNumber (whole ++ '.' :: fraction ++ rest) p =
      .token (.number (Decimal.toFloat (Decimal.digitsValue (whole ++ fraction))
        (-(fraction.length : Int)))) p (whole ++ '.' :: fraction) rest := by
  have hpoint : ∀ d, ('.' :: (fraction ++ rest)).head? = some d → d.isDigit = false := by
    intro d hd
    cases hd
    decide
  have hrest : ∀ d, rest.head? = some d → d.isDigit = false := by
    refine head?_of_not_goesOnInto (fun d hd => ?_) hstop
    have hlonger := IsLexeme.decimal nonempty digits (by simp) (forall_mem_concat digits' hd)
    rw [List.append_assoc, List.cons_append]
    exact ⟨_, hlonger⟩
  have hfraction : fractionDigits ('.' :: (fraction ++ rest)) = fraction :=
    takeWhile_append_of_stops digits' hrest
  rw [List.append_assoc, List.cons_append]
  simp [scanNumber, takeWhile_append_of_stops digits hpoint,
    dropWhile_append_of_stops digits hpoint, hfraction, nonempty']

theorem scanString_closed {content : List Char} (inside : ∀ c ∈ content, insideString c = true) :
    scanString (content ++ '"' :: rest) p =
      .token (.string (String.ofList content)) p ('"' :: content ++ ['"']) rest := by
  have hquote : ∀ c, ('"' :: rest).head? = some c → insideString c = false := by
    intro c hc
    cases hc
    decide
  simp only [scanString, takeWhile_append_of_stops inside hquote,
    dropWhile_append_of_stops inside hquote]

theorem scanLexeme_symbol {sign : Symbol} {c : Char} {cs : List Char}
    (htext : sign.text.toList = c :: cs) (hstop : ¬ GoesOnInto (c :: cs) rest) :
    scanLexeme c (cs ++ rest) p = .token (.symbol sign) p (c :: cs) rest := by
  obtain ⟨d, ds, htext', hname, -, -, hquote⟩ := sign.exists_text_eq_cons
  obtain ⟨rfl, rfl⟩ := List.cons.inj (htext'.symm.trans htext)
  have hstarts : startsName d = false :=
    Bool.eq_false_iff.mpr fun h => absurd (startsName_continuesName h) (by simp [hname])
  have hdigit : d.isDigit = false :=
    Bool.eq_false_iff.mpr fun h => absurd (isDigit_name h).1 (by simp [hname])
  have hstart : Symbol.atStart? (d :: (ds ++ rest)) = some sign := by
    have hlongest := sign.atStart?_text_append rest
    rw [htext, List.cons_append] at hlongest
    rcases hlongest with hsame | ⟨longer, rest', rfl, hlonger, -⟩
    · exact hsame
    · refine absurd ⟨['='], rest', .symbol longer, rfl, List.cons_ne_nil _ _, ?_⟩ hstop
      rw [← hlonger]
      exact .symbol longer
  have hlength : sign.text.length = (d :: ds).length := by
    rw [← String.length_toList, htext]
  simp only [scanLexeme, beq_eq_false_iff_ne.mpr hquote, hstarts, hdigit, Bool.false_eq_true,
    if_false, hstart, htext, hlength]
  rw [← List.cons_append, List.drop_left]

/-- **A lexeme that does not go on is read**, whatever follows it. -/
theorem IsLexeme.scan {c : Char} {cs : List Char} {kind : Kind} (h : IsLexeme (c :: cs) kind)
    (hstop : ¬ GoesOnInto (c :: cs) rest) :
    scanLexeme c (cs ++ rest) p = .token kind p (c :: cs) rest := by
  generalize htext : c :: cs = text at h
  cases h with
  | word first others =>
    obtain ⟨rfl, rfl⟩ := List.cons.inj htext
    exact scanLexeme_word first others hstop
  | integer nonempty digits =>
    subst htext
    rw [scanLexeme_digit (digits c List.mem_cons_self), ← List.cons_append]
    exact scanNumber_integer nonempty digits hstop
  | @decimal whole fraction nonempty digits nonempty' digits' =>
    rw [htext] at hstop
    obtain ⟨d, ds, rfl⟩ := List.exists_cons_of_ne_nil nonempty
    obtain ⟨rfl, -⟩ := List.cons.inj htext
    rw [scanLexeme_digit (digits c List.mem_cons_self), ← List.cons_append, htext]
    exact scanNumber_decimal nonempty digits nonempty' digits' hstop
  | string inside =>
    obtain ⟨rfl, htail⟩ := List.cons.inj htext
    rw [htail, List.append_eq, List.append_assoc]
    exact scanString_closed inside
  | symbol sign =>
    rw [← htext]
    exact scanLexeme_symbol htext.symm hstop

end Lexemes

/-- A text is a lexeme of one kind only. -/
theorem IsLexeme.kind_unique {text : List Char} {kind kind' : Kind} (h : IsLexeme text kind)
    (h' : IsLexeme text kind') : kind = kind' := by
  obtain ⟨c, cs, rfl, -⟩ := h.starts
  have hread := h.scan (p := {}) (not_goesOnInto_nil _)
  rw [h'.scan (not_goesOnInto_nil _)] at hread
  exact (Token.mk.inj (Except.ok.inj (Prod.mk.inj hread).1)).1.symm

/-! ## What is read does not go on -/

/-- A lexeme at the start of a text can be extended to one that does not go on. -/
theorem IsLexeme.exists_longest {piece : List Char} {kind : Kind} (h : IsLexeme piece kind)
    (rest : List Char) : ∃ more rest' kind', rest = more ++ rest' ∧ IsLexeme (piece ++ more) kind' ∧
      ¬ GoesOnInto (piece ++ more) rest' := by
  induction hlength : rest.length using Nat.strongRecOn generalizing piece kind rest with
  | ind n ih =>
    subst hlength
    by_cases hgoes : GoesOnInto piece rest
    · obtain ⟨more, rest', kind', rfl, hne, hlexeme⟩ := hgoes
      have hlt : rest'.length < (more ++ rest').length := by
        have hpos := List.length_pos_iff.mpr hne
        rw [List.length_append]
        omega
      obtain ⟨more', rest'', kind'', rfl, hlonger, hstop⟩ := ih _ hlt hlexeme rest' rfl
      rw [List.append_assoc] at hlonger hstop
      exact ⟨more ++ more', rest'', kind'', (List.append_assoc ..).symm, hlonger, hstop⟩
    · exact ⟨[], rest, kind, rfl, by rwa [List.append_nil], by rwa [List.append_nil]⟩

/-- **What is read does not go on.** Of all lexemes at the start of a text the longest is read,
since that one is read where it does not go on. -/
theorem scanLexeme_longest {c : Char} {cs taken rest : List Char} {p : Position} {kind : Kind}
    (htext : c :: cs = taken ++ rest) (hlexeme : IsLexeme taken kind)
    (hread : scanLexeme c cs p = .token kind p taken rest) : ¬ GoesOnInto taken rest := by
  obtain ⟨more, rest', kind', rfl, hlonger, hstop⟩ := hlexeme.exists_longest rest
  obtain ⟨d, ds, rfl, -⟩ := hlexeme.starts
  obtain ⟨rfl, htail⟩ := List.cons.inj htext
  rw [List.cons_append] at hlonger hstop
  have hread' := hlonger.scan (p := p) hstop
  rw [List.append_assoc, ← List.append_eq, ← htail, hread] at hread'
  have hrest : more ++ rest' = rest' := congrArg (fun read => read.2.rest) hread'
  have hmore : more = [] := by
    have hlength := congrArg List.length hrest
    rw [List.length_append] at hlength
    exact List.eq_nil_of_length_eq_zero (by omega)
  subst hmore
  rwa [List.append_nil] at hstop

/-! ## One step of the scanner -/

/-- Trivia in front of a text that starts with none is skipped. -/
theorem Gap.skipTrivia {gap : List Char} (h : Gap gap) {rest : List Char}
    (hrest : ∀ c, rest.head? = some c → Text.isBlank c = false ∧ c ≠ '#') (p : Position) :
    Chalk.skipTrivia none (gap ++ rest) p = .ok ⟨rest, p.advance gap⟩ := by
  induction h generalizing p with
  | nil =>
    cases rest with
    | nil => rfl
    | cons c rest =>
      obtain ⟨hblank, hcomment⟩ := hrest c rfl
      simp [Chalk.skipTrivia, hblank, hcomment, Position.advance]
  | cons first _ ih =>
    cases first with
    | @blank c hblank =>
      rw [List.append_assoc, List.singleton_append, Chalk.skipTrivia, if_pos hblank]
      exact ih (p.next c)
    | @comment body hbody =>
      have hopens : Text.isBlank '#' = false := by decide
      rw [List.append_assoc, List.append_assoc, List.cons_append, Chalk.skipTrivia, hopens,
        Position.advance_append]
      exact (skipTrivia_closed hbody _ p (p.next '#')).trans (ih _)

/-- Trivia in front of a lexeme is skipped. -/
theorem IsLexeme.skipTrivia {gap taken : List Char} {kind : Kind} (h : IsLexeme taken kind)
    (hgap : Gap gap) (rest : List Char) (p : Position) :
    Chalk.skipTrivia none (gap ++ (taken ++ rest)) p = .ok ⟨taken ++ rest, p.advance gap⟩ := by
  obtain ⟨c, cs, rfl, hblank, hcomment⟩ := h.exists_eq_cons
  refine hgap.skipTrivia (fun d hd => ?_) p
  cases hd
  exact ⟨hblank, hcomment⟩

namespace Cursor

variable {c after : Cursor} {gap taken rest : List Char} {kind : Kind} {t : Token}

/-- Behind trivia, a lexeme that does not go on is read. -/
theorem scan_of_lexeme (heq : c.rest = gap ++ (taken ++ rest)) (hgap : Gap gap)
    (hlexeme : IsLexeme taken kind) (hstop : ¬ GoesOnInto taken rest) :
    c.scan = .token kind (c.position.advance gap) taken rest := by
  rw [scan, heq, hlexeme.skipTrivia hgap]
  obtain ⟨ch, cs, rfl, -⟩ := hlexeme.exists_eq_cons
  exact hlexeme.scan hstop

/-- Trivia up to the end of the text is read as the end. -/
theorem scan_of_gap (h : Gap c.rest) :
    c.scan = (.ok ⟨.endOfInput, (c.position.advance c.rest).upTo (c.position.advance c.rest)⟩,
      ⟨[], c.position.advance c.rest⟩) := by
  have hnil : ∀ d, ([] : List Char).head? = some d → Text.isBlank d = false ∧ d ≠ '#' := nofun
  have hskip := h.skipTrivia hnil c.position
  rw [List.append_nil] at hskip
  rw [scan, hskip]

/-- After a token the rest is read from where the token ends. -/
theorem tokens_of_scan {start : Position} (h : c.scan = .token kind start taken rest)
    (hend : kind.isEnd = false) : c.tokens =
      (Cursor.tokens ⟨rest, start.advance taken⟩).map
        (⟨kind, start.upTo (start.advance taken)⟩ :: ·) := by
  rw [tokens, h]
  simp only [Scanned.token, hend, Bool.false_eq_true, dite_false]
  cases Cursor.tokens ⟨rest, start.advance taken⟩ <;> rfl

/-- At the end of the text only the token that marks it is read. -/
theorem tokens_of_gap (h : Gap c.rest) : c.tokens =
    .ok [⟨.endOfInput, (c.position.advance c.rest).upTo (c.position.advance c.rest)⟩] := by
  rw [tokens, scan_of_gap h]
  rfl

/-- A token that is read covers a lexeme that does not go on, with trivia in front of it. -/
theorem exists_longest_of_scan (h : c.scan = (.ok t, after)) (ht : t.kind.isEnd = false) :
    ∃ gap taken rest, c.rest = gap ++ (taken ++ rest) ∧ Gap gap ∧ IsLexeme taken t.kind ∧
      ¬ GoesOnInto taken rest ∧ c.scan = .token t.kind (c.position.advance gap) taken rest := by
  have hscans := c.scans_scan
  have hread := h
  rw [h] at hscans
  cases hscans with
  | stop => cases ht
  | @lexeme gap taken rest kind heq hgap hlexeme =>
    refine ⟨gap, taken, rest, heq, hgap, hlexeme, ?_, h⟩
    rw [scan, heq, hlexeme.skipTrivia hgap] at hread
    obtain ⟨ch, cs, rfl, -⟩ := hlexeme.exists_eq_cons
    exact scanLexeme_longest rfl hlexeme hread

end Cursor

/-! ## Texts of single tokens -/

/-- The text is read as one token of the given kind that covers it, and the end. -/
def ReadsAlone (text : List Char) (kind : Kind) : Prop :=
  ∃ t last, tokenize text = .ok [t, last] ∧ t.kind = kind ∧ t.span.start = 0 ∧
    t.span.stop = byteCount text ∧ last.kind = .endOfInput

theorem IsLexeme.readsAlone {text : List Char} {kind : Kind} (h : IsLexeme text kind) :
    ReadsAlone text kind := by
  have hsource : text = [] ++ (text ++ []) := by simp
  have hscan : Cursor.scan ⟨text, {}⟩ = .token kind {} text [] :=
    Cursor.scan_of_lexeme hsource .nil h (not_goesOnInto_nil text)
  refine ⟨⟨kind, regionOf [] text⟩, ⟨.endOfInput, regionOf text []⟩, ?_, rfl, ?_, ?_, rfl⟩
  · rw [tokenize, Cursor.tokens_of_scan hscan h.isEnd_eq_false, Cursor.tokens_of_gap .nil,
      regionOf, regionOf, List.append_nil]
    rfl
  · exact start_regionOf [] text
  · rw [stop_regionOf, byteCount_nil, Nat.zero_add]

theorem eq_nil_of_byteCount {cs : List Char} (h : byteCount cs = 0) : cs = [] := by
  by_contra hne
  have hpos := byteCount_pos hne
  omega

/-- **The texts of single tokens are the lexemes.** -/
theorem readsAlone_iff {text : List Char} {kind : Kind} :
    ReadsAlone text kind ↔ IsLexeme text kind := by
  refine ⟨fun ⟨t, last, htokens, hkind, hstart, hstop, _⟩ => ?_, IsLexeme.readsAlone⟩
  have hlexed := lexed_tokenize text
  rw [htokens] at hlexed
  cases hlexed with
  | @token _ gap taken rest _ _ _ hlexeme =>
    simp only [List.nil_append, start_regionOf, stop_regionOf, byteCount_append] at hstart hstop
    obtain rfl : gap = [] := eq_nil_of_byteCount hstart
    obtain rfl : rest = [] := eq_nil_of_byteCount (by omega)
    rw [List.nil_append, List.append_nil, ← hkind]
    exact hlexeme

/-! ## Slices of a source -/

namespace sourceSlice

variable {start stop : Nat}

/-- What lies in front of the slice is left out. -/
theorem go_append_of_le (before text : List Char) {i : Nat} (hstart : i + byteCount before ≤ start)
    (hle : start ≤ stop) :
    go start stop (before ++ text) i = go start stop text (i + byteCount before) := by
  induction before generalizing i with
  | nil => rfl
  | cons c before ih =>
    have hpos := c.utf8Size_pos
    rw [byteCount_cons] at hstart ⊢
    rw [List.cons_append, go, if_neg (by omega), if_neg (by omega), ih (by omega), Nat.add_assoc]

/-- What lies inside of the slice is kept. -/
theorem go_append_of_inside (part text : List Char) {i : Nat} (hstart : start ≤ i)
    (hstop : i + byteCount part ≤ stop) :
    go start stop (part ++ text) i = part ++ go start stop text (i + byteCount part) := by
  induction part generalizing i with
  | nil => rfl
  | cons c part ih =>
    have hpos := c.utf8Size_pos
    rw [byteCount_cons] at hstop ⊢
    rw [List.cons_append, go, if_neg (by omega), if_pos hstart, ih (by omega) (by omega),
      List.cons_append, Nat.add_assoc]

theorem go_eq_nil (text : List Char) {i : Nat} (h : stop ≤ i) : go start stop text i = [] := by
  cases text with
  | nil => rfl
  | cons c text => rw [go, if_pos h]

/-- A slice takes a part of the text off its start. -/
theorem go_isPrefix (text : List Char) {i : Nat} (hstart : start ≤ i) :
    go start stop text i <+: text := by
  induction text generalizing i with
  | nil => exact List.nil_prefix
  | cons c text ih =>
    rw [go]
    split
    · exact List.nil_prefix
    · exact List.cons_prefix_cons.mpr ⟨rfl, ih (by omega)⟩

end sourceSlice

section Slices

variable (before part rest : List Char)

theorem sourceSlice_part :
    sourceSlice (before ++ (part ++ rest)) (byteCount before)
      (byteCount before + byteCount part) = part := by
  rw [sourceSlice, sourceSlice.go_append_of_le before _ (by omega) (by omega), Nat.zero_add,
    sourceSlice.go_append_of_inside part _ (Nat.le_refl _) (Nat.le_refl _),
    sourceSlice.go_eq_nil _ (Nat.le_refl _), List.append_nil]

/-- A slice that reaches further takes some of what follows, too. -/
theorem exists_longer_slice {stop : Nat} (hlt : byteCount before + byteCount part < stop)
    (hle : stop ≤ byteCount (before ++ (part ++ rest))) :
    ∃ more rest', rest = more ++ rest' ∧ more ≠ [] ∧
      sourceSlice (before ++ (part ++ rest)) (byteCount before) stop = part ++ more := by
  rw [sourceSlice, sourceSlice.go_append_of_le before _ (by omega) (by omega), Nat.zero_add,
    sourceSlice.go_append_of_inside part _ (Nat.le_refl _) (by omega)]
  have hprefix : sourceSlice.go (byteCount before) stop rest (byteCount before + byteCount part) <+:
      rest := sourceSlice.go_isPrefix rest (Nat.le_add_right ..)
  obtain ⟨rest', hrest⟩ := hprefix
  refine ⟨_, rest', hrest.symm, ?_, rfl⟩
  cases rest with
  | nil =>
    rw [byteCount_append, byteCount_append, byteCount_nil] at hle
    omega
  | cons c rest =>
    rw [sourceSlice.go, if_neg (by omega), if_pos (by omega)]
    exact List.cons_ne_nil _ _

end Slices

/-! ## Tokens of a source -/

/-- Every token of a text covers a lexeme that does not go on. -/
theorem Cursor.longest_of_tokens {c : Cursor} {before : List Char}
    (hposition : c.position = Position.advance {} before) {ts : List Token}
    (hts : c.tokens = .ok ts) : ∀ t ∈ ts, t.kind.isEnd = false → ∃ front taken rest,
      before ++ c.rest = front ++ (taken ++ rest) ∧ t.span = regionOf front taken ∧
        IsLexeme taken t.kind ∧ ¬ GoesOnInto taken rest := by
  fun_induction Cursor.tokens c generalizing before ts with
  | case1 => cases hts
  | case2 c t after hscan hend =>
    cases hts
    intro t' ht' ht
    rw [List.mem_singleton.mp ht', hend] at ht
    cases ht
  | case3 => cases hts
  | case4 c t after hscan hend ts hmore ih =>
    cases hts
    obtain ⟨gap, taken, rest, heq, hgap, hlexeme, hstop, hread⟩ :=
      exists_longest_of_scan hscan (by simpa using hend)
    rw [hscan] at hread
    obtain ⟨htoken, rfl⟩ := Prod.mk.inj hread
    rw [heq]
    refine List.forall_mem_cons.mpr ⟨fun _ => ?_, fun t' ht' hend' => ?_⟩
    · refine ⟨before ++ gap, taken, rest, (List.append_assoc ..).symm, ?_, hlexeme, hstop⟩
      rw [Except.ok.inj htoken, regionOf, Position.advance_append {} (before ++ gap),
        Position.advance_append {} before, ← hposition]
    · have hafter : (c.position.advance gap).advance taken =
          Position.advance {} (before ++ (gap ++ taken)) := by
        rw [hposition, Position.advance_append, Position.advance_append]
      obtain ⟨front, taken', rest', heq', hrest⟩ := ih hafter hmore t' ht' hend'
      refine ⟨front, taken', rest', ?_, hrest⟩
      rw [← heq']
      simp only [List.append_assoc]

/-- **The text of a token is read as that token when it stands alone, and it is the longest of its
place**: with more of the source behind it, it is not one token. -/
theorem tokens_resliced {source : List Char} {ts : List Token} (h : tokenize source = .ok ts) :
    ∀ t ∈ ts, t.kind ≠ .endOfInput → ReadsAlone (t.text source) t.kind ∧
      ∀ stop, t.span.stop < stop → stop ≤ byteCount source →
        ∀ kind, ¬ ReadsAlone (sourceSlice source t.span.start stop) kind := by
  intro t ht hend
  have hend' : t.kind.isEnd = false := by
    cases hkind : t.kind with
    | endOfInput => exact absurd hkind hend
    | _ => rfl
  obtain ⟨front, taken, rest, heq, hspan, hlexeme, hlongest⟩ :=
    Cursor.longest_of_tokens (c := ⟨source, {}⟩) (List.foldl_nil ..).symm h t ht hend'
  obtain rfl : source = front ++ (taken ++ rest) := heq
  rw [Token.text, hspan, start_regionOf, stop_regionOf, sourceSlice_part]
  refine ⟨hlexeme.readsAlone, fun stop hlt hle kind halone => ?_⟩
  obtain ⟨more, rest', hrest, hne, hslice⟩ := exists_longer_slice front taken rest hlt hle
  rw [hslice] at halone
  exact hlongest ⟨more, rest', kind, hrest, hne, readsAlone_iff.mp halone⟩

/-- A name that starts like a reserved word, a point between digits and one before a name, a letter
of two bytes, and two signs of which the first could end earlier. -/
def crowdedText : List Char := "IF1 1.5.é===".toList

theorem tokens_resliced_crowdedText :
    ReadsAlone "1.5".toList (.number (Decimal.toFloat 15 (-1))) ∧
      ∀ stop, 7 < stop → stop ≤ 13 → ∀ kind,
        ¬ ReadsAlone (sourceSlice crowdedText 4 stop) kind := by
  have hts : tokenize crowdedText = .ok [⟨.identifier "IF1", ⟨0, 3, 1, 1⟩⟩,
      ⟨.number (Decimal.toFloat 15 (-1)), ⟨4, 7, 1, 5⟩⟩, ⟨.symbol .dot, ⟨7, 8, 1, 8⟩⟩,
      ⟨.identifier "é", ⟨8, 10, 1, 9⟩⟩, ⟨.symbol .equalEqual, ⟨10, 12, 1, 10⟩⟩,
      ⟨.symbol .equal, ⟨12, 13, 1, 12⟩⟩, ⟨.endOfInput, ⟨13, 13, 1, 13⟩⟩] := by
    decide +kernel
  exact tokens_resliced hts ⟨.number (Decimal.toFloat 15 (-1)), ⟨4, 7, 1, 5⟩⟩ (by simp) nofun

end Chalk
