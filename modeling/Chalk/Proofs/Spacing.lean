import Chalk.Proofs.Longest

/-!
# Layout and letter case

How lexemes are laid out says nothing. Between two of them there has to be some trivia, or else they
could be read as one; how much, and of what kind, is free, and so is the trivia at both ends. What a
comment holds is not looked at, be it quotes, line breaks or pieces of lexemes.

That trivia keeps lexemes apart rests on one fact: of the lexemes only strings have blanks or `#` in
them, and a string that is complete does not go on. So a lexeme does not go on into trivia.

A reserved word may be written in any mix of upper and lower case. The two letters are in names and
start them alike, so the word stays one lexeme, and which word it is does not depend on its case.

## Main definitions

* `Respells` — a reserved word in another letter case
* `Placed`, `layOut` — lexemes with trivia around them

## Main results

* `IsLexeme.not_goesOnInto` — a lexeme ends where trivia starts
* `IsLexeme.respelled` — a reserved word in any letter case
* `kinds_of_layOut` — what is read does not depend on the layout
-/

namespace Chalk

/-! ## Trivia behind a lexeme -/

/-- Strings apart, lexemes have neither blanks nor `#` in them. -/
theorem IsLexeme.forall_mem {text : List Char} {kind : Kind} (h : IsLexeme text kind) :
    (∃ content, text = '"' :: content ++ ['"'] ∧ ∀ c ∈ content, insideString c = true) ∨
      ∀ c ∈ text, Text.isBlank c = false ∧ c ≠ '#' := by
  have hdigit : ∀ c, c.isDigit = true → Text.isBlank c = false ∧ c ≠ '#' :=
    fun c hc => continuesName_not_trivia (isDigit_name hc).1
  cases h with
  | word first others =>
    exact .inr (List.forall_mem_cons.mpr
      ⟨continuesName_not_trivia (startsName_continuesName first),
        fun c hc => continuesName_not_trivia (others c hc)⟩)
  | integer _ digits => exact .inr fun c hc => hdigit c (digits c hc)
  | decimal _ digits _ digits' =>
    refine .inr (List.forall_mem_append.mpr ⟨fun c hc => hdigit c (digits c hc), ?_⟩)
    exact List.forall_mem_cons.mpr ⟨by decide, fun c hc => hdigit c (digits' c hc)⟩
  | string inside => exact .inl ⟨_, rfl, inside⟩
  | symbol sign =>
    have hall : sign.text.toList.all (fun c => !Text.isBlank c && c != '#') = true := by
      cases sign <;> decide
    exact .inr fun c hc => by simpa using List.all_eq_true.mp hall c hc

/-- **A lexeme ends where trivia starts.** -/
theorem IsLexeme.not_goesOnInto {piece rest : List Char} {kind : Kind} (h : IsLexeme piece kind)
    (hrest : ∀ c, rest.head? = some c → Text.isBlank c = true ∨ c = '#') :
    ¬ GoesOnInto piece rest := by
  rintro ⟨more, rest', kind', rfl, hne, hlonger⟩
  obtain ⟨d, more, rfl⟩ := List.exists_cons_of_ne_nil hne
  obtain ⟨content, hstring, hinside⟩ | hall := hlonger.forall_mem
  · -- the longer lexeme is a string, so the shorter one is a string that its quote has closed
    obtain ⟨c, cs, rfl, hfirst | hdigit | ⟨rfl, content', rfl, hinside'⟩ | ⟨sign, hsign⟩⟩ :=
      h.starts
    · rw [(List.cons.inj hstring).1] at hfirst
      exact absurd hfirst (by decide)
    · rw [(List.cons.inj hstring).1] at hdigit
      exact absurd hdigit (by decide)
    · have hcut : content' ++ '"' :: (d :: more) = content ++ '"' :: [] := by
        simpa using hstring
      obtain ⟨-, hnil⟩ := append_cons_inj hcut (quote_not_mem hinside') (quote_not_mem hinside)
      exact List.cons_ne_nil _ _ hnil
    · obtain ⟨e, es, htext, -, -, -, hquote⟩ := sign.exists_text_eq_cons
      obtain ⟨rfl, -⟩ := List.cons.inj (hsign.trans htext)
      exact hquote (List.cons.inj hstring).1
  · obtain ⟨hblank, hcomment⟩ := hall d (by simp)
    rcases hrest d rfl with htrivia | htrivia
    · rw [hblank] at htrivia
      cases htrivia
    · exact hcomment htrivia

/-- Trivia that is not empty starts with a blank or with `#`. -/
theorem Gap.starts {gap : List Char} (h : Gap gap) (hne : gap ≠ []) :
    ∃ c cs, gap = c :: cs ∧ (Text.isBlank c = true ∨ c = '#') := by
  cases h with
  | nil => exact absurd rfl hne
  | cons first _ =>
    obtain ⟨c, cs, rfl, ⟨hblank, -⟩ | ⟨hcomment, -⟩⟩ := first.exists_eq_cons
    · exact ⟨c, _, rfl, .inl hblank⟩
    · exact ⟨c, _, rfl, .inr hcomment⟩

/-! ## Letter case -/

/-- A letter is in names, and starts them, in lower case as in upper case. -/
theorem name_toLower (c : Char) :
    startsName c.toLower = startsName c ∧ continuesName c.toLower = continuesName c := by
  have hascii : ∀ code < 128, startsName (Char.ofNat code).toLower = startsName (Char.ofNat code) ∧
      continuesName (Char.ofNat code).toLower = continuesName (Char.ofNat code) := by
    decide +kernel
  by_cases hlt : c.toNat < 128
  · have hc := hascii c.toNat hlt
    rwa [Char.ofNat_toNat] at hc
  · have hsame : c.toLower = c := by
      refine dif_neg ?_
      rintro ⟨-, hle⟩
      exact hlt (Nat.lt_of_le_of_lt (UInt32.le_iff_toNat_le.mp hle) (by decide))
    rw [hsame]
    exact ⟨rfl, rfl⟩

/-- The text, or, for a reserved word, the text in another mix of upper and lower case. -/
def Respells (kind : Kind) (text spelled : List Char) : Prop :=
  spelled = text ∨
    (∃ word, kind = .keyword word) ∧ spelled.map Char.toLower = text.map Char.toLower

/-- **A reserved word is the same lexeme in any letter case.** -/
theorem IsLexeme.respelled {text spelled : List Char} {kind : Kind} (h : IsLexeme text kind)
    (hspelled : Respells kind text spelled) : IsLexeme spelled kind := by
  rcases hspelled with rfl | ⟨⟨word, hword⟩, hlower⟩
  · exact h
  · cases h with
    | @word c cs first others =>
      cases spelled with
      | nil => cases hlower
      | cons d ds =>
        have hkind : Kind.ofWord (d :: ds) = Kind.ofWord (c :: cs) := by
          rw [Kind.ofWord] at hword ⊢
          rw [Kind.ofWord, Keyword.ofWord?, hlower, ← Keyword.ofWord?]
          cases hkeyword : Keyword.ofWord? (c :: cs) with
          | some _ => rfl
          | none =>
            rw [hkeyword] at hword
            cases hword
        obtain ⟨hfirst, hothers⟩ := List.cons.inj hlower
        rw [← hkind]
        refine .word ?_ fun e he => ?_
        · rw [← (name_toLower d).1, hfirst, (name_toLower c).1]
          exact first
        · have hmem : e.toLower ∈ cs.map Char.toLower := hothers ▸ List.mem_map_of_mem he
          obtain ⟨e', he', heq⟩ := List.mem_map.mp hmem
          rw [← (name_toLower e).2, ← heq, (name_toLower e').2]
          exact others e' he'
    | integer | decimal | string | symbol => cases hword

/-! ## Layouts -/

/-- A lexeme as it stands in a source: a text that is read as one token, perhaps respelled, with
trivia behind it. -/
structure Placed where
  text : List Char
  kind : Kind
  spelled : List Char
  gap : List Char
  reads : ReadsAlone text kind
  respells : Respells kind text spelled
  isGap : Gap gap

/-- The source with the given trivia in front of the lexemes. -/
def layOut (lead : List Char) (lexemes : List Placed) : List Char :=
  lead ++ lexemes.flatMap fun lexeme => lexeme.spelled ++ lexeme.gap

theorem Placed.isLexeme (lexeme : Placed) : IsLexeme lexeme.spelled lexeme.kind :=
  (readsAlone_iff.mp lexeme.reads).respelled lexeme.respells

theorem Placed.not_goesOnInto (lexeme : Placed) {others : List Placed}
    (hgap : others ≠ [] → lexeme.gap ≠ []) :
    ¬ GoesOnInto lexeme.spelled (layOut lexeme.gap others) := by
  refine lexeme.isLexeme.not_goesOnInto fun c hc => ?_
  rw [layOut] at hc
  by_cases hne : lexeme.gap = []
  · rw [hne] at hc
    cases others with
    | nil => cases hc
    | cons next others => exact absurd hne (hgap (List.cons_ne_nil next others))
  · obtain ⟨d, ds, heq, hd⟩ := lexeme.isGap.starts hne
    rw [heq] at hc
    cases hc
    exact hd

/-- From any place on, the lexemes of a layout are read in order. -/
theorem tokens_layOut {lead : List Char} (hlead : Gap lead) {lexemes : List Placed}
    (hbetween : ∀ lexeme ∈ lexemes.dropLast, lexeme.gap ≠ []) (p : Position) :
    ∃ ts, Cursor.tokens ⟨layOut lead lexemes, p⟩ = .ok ts ∧
      ts.map Token.kind = lexemes.map Placed.kind ++ [.endOfInput] := by
  induction lexemes generalizing lead p with
  | nil =>
    rw [layOut, List.flatMap_nil, List.append_nil, Cursor.tokens_of_gap hlead]
    exact ⟨_, rfl, rfl⟩
  | cons lexeme lexemes ih =>
    have hgap : lexemes ≠ [] → lexeme.gap ≠ [] := by
      intro hne
      refine hbetween lexeme ?_
      rw [List.dropLast_cons_of_ne_nil hne]
      exact List.mem_cons_self
    have hbetween' : ∀ other ∈ lexemes.dropLast, other.gap ≠ [] := by
      intro other hother
      refine hbetween other ?_
      rw [List.dropLast_cons_of_ne_nil fun hnil => by simp [hnil] at hother]
      exact List.mem_cons_of_mem _ hother
    have hsource : layOut lead (lexeme :: lexemes) =
        lead ++ (lexeme.spelled ++ layOut lexeme.gap lexemes) := by
      simp only [layOut, List.flatMap_cons, List.append_assoc]
    have hscan := Cursor.scan_of_lexeme (c := ⟨layOut lead (lexeme :: lexemes), p⟩) hsource hlead
      lexeme.isLexeme (lexeme.not_goesOnInto hgap)
    obtain ⟨ts, hts, hkinds⟩ := ih lexeme.isGap hbetween' ((p.advance lead).advance lexeme.spelled)
    rw [Cursor.tokens_of_scan hscan lexeme.isLexeme.isEnd_eq_false, hts]
    refine ⟨_, rfl, ?_⟩
    rw [List.map_cons, hkinds]
    rfl

/-- **What is read does not depend on the layout**: lexemes with some trivia between them, and any
trivia at both ends, are read as their tokens in order, whatever the trivia is and in whatever
letter case the reserved words are written. -/
theorem kinds_of_layOut {lead : List Char} (hlead : Gap lead) {lexemes : List Placed}
    (hbetween : ∀ lexeme ∈ lexemes.dropLast, lexeme.gap ≠ []) :
    ∃ ts, tokenize (layOut lead lexemes) = .ok ts ∧
      ts.map Token.kind = lexemes.map Placed.kind ++ [.endOfInput] :=
  tokens_layOut hlead hbetween {}

/-- A reserved word in mixed case, with a comment behind it that holds a quote, a sign and a line
break. -/
def shoutedWord : Placed where
  text := "print".toList
  kind := .keyword .printKw
  spelled := "pRInT".toList
  gap := ['#', '"', '=', '\n', '#']
  reads := ⟨⟨.keyword .printKw, ⟨0, 5, 1, 1⟩⟩, ⟨.endOfInput, ⟨5, 5, 1, 6⟩⟩, by decide +kernel, rfl,
    rfl, by decide, rfl⟩
  respells := .inr ⟨⟨.printKw, rfl⟩, by decide⟩
  isGap := .cons (@IsTrivia.comment ['"', '=', '\n'] (by decide)) .nil

/-- A sign that would be another one with its like next to it. -/
def equalSign (gap : List Char) (isGap : Gap gap) : Placed where
  text := ['=']
  kind := .symbol .equal
  spelled := ['=']
  gap
  reads := (IsLexeme.symbol .equal).readsAlone
  respells := .inl rfl
  isGap

theorem kinds_of_layOut_shoutedWord :
    ∃ ts, tokenize "\tpRInT#\"=\n#= =".toList = .ok ts ∧
      ts.map Token.kind =
        [.keyword .printKw, .symbol .equal, .symbol .equal, .endOfInput] := by
  have hlead : Gap ['\t'] := .cons (.blank (by decide)) .nil
  have hblank : Gap [' '] := .cons (.blank (by decide)) .nil
  have hbetween : ∀ lexeme ∈ [shoutedWord, equalSign [' '] hblank, equalSign [] .nil].dropLast,
      lexeme.gap ≠ [] :=
    List.forall_mem_cons.mpr ⟨nofun, List.forall_mem_singleton.mpr nofun⟩
  exact kinds_of_layOut hlead hbetween

end Chalk
