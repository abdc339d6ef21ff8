import Chalk.Proofs.Tiling
import Mathlib.Data.List.Basic

/-!
# What the scanner reads

The scanner reads exactly the texts that are made of lexemes and trivia, and its tokens are the
lexemes of such a sequence: each one covers its lexeme, and what lies between two of them is trivia.
Where it stops with an error, everything in front has been read that way, and what stands there is
what the error says.

## Main definitions

* `byteCount`, `regionOf` — the length of a text in bytes, and the region of a part of a text
* `Tokenized` — the tokens of a text, with the trivia around them
* `Stuck` — an error, with the text in front of it
* `Cursor.Scans` — what one step of the scanner does

## Main results

* `Cursor.scans_scan` — one step
* `Cursor.lexed_tokens` — all steps
* `tokenize_tiles` — the scanner accepts what is tiled, and its tokens tile it
-/

namespace Chalk

/-! ## Regions -/

/-- The number of bytes of a text. -/
def byteCount : List Char → Nat
  | [] => 0
  | c :: cs => c.utf8Size + byteCount cs

@[simp] theorem byteCount_nil : byteCount [] = 0 := rfl

@[simp] theorem byteCount_cons (c : Char) (cs : List Char) :
    byteCount (c :: cs) = c.utf8Size + byteCount cs := rfl

@[simp] theorem byteCount_append (as bs : List Char) :
    byteCount (as ++ bs) = byteCount as + byteCount bs := by
  induction as with
  | nil => simp
  | cons c as ih => simp [ih, Nat.add_assoc]

theorem byteCount_pos {cs : List Char} (h : cs ≠ []) : 0 < byteCount cs := by
  obtain ⟨c, cs, rfl⟩ := List.exists_cons_of_ne_nil h
  have hpos := c.utf8Size_pos
  rw [byteCount_cons]
  omega

namespace Position

theorem advance_append (p : Position) (as bs : List Char) :
    p.advance (as ++ bs) = (p.advance as).advance bs :=
  List.foldl_append

theorem offset_next (p : Position) (c : Char) : (p.next c).offset = p.offset + c.utf8Size := by
  rw [next]
  split <;> rfl

theorem offset_advance (p : Position) (cs : List Char) :
    (p.advance cs).offset = p.offset + byteCount cs := by
  induction cs generalizing p with
  | nil => rfl
  | cons c cs ih =>
    rw [advance, List.foldl_cons, ← advance, ih, offset_next, byteCount_cons, Nat.add_assoc]

end Position

/-- The region that `part` takes up in a text, with `before` in front of it. -/
def regionOf (before part : List Char) : Span :=
  (Position.advance {} before).upTo (Position.advance {} (before ++ part))

@[simp] theorem start_regionOf (before part : List Char) :
    (regionOf before part).start = byteCount before := by
  simp [regionOf, Position.upTo, Position.offset_advance]

@[simp] theorem stop_regionOf (before part : List Char) :
    (regionOf before part).stop = byteCount before + byteCount part := by
  simp [regionOf, Position.upTo, Position.offset_advance]

/-! ## Trivia -/

theorem skipTrivia_closed {body : List Char} (h : '#' ∉ body) (rest : List Char)
    (start p : Position) :
    skipTrivia (some start) (body ++ '#' :: rest) p =
      skipTrivia none rest (p.advance (body ++ ['#'])) := by
  induction body generalizing p with
  | nil => simp [skipTrivia, Position.advance]
  | cons c body ih =>
    obtain ⟨hne, hbody⟩ := not_or.mp fun hor => h (List.mem_cons.mpr hor)
    have hc : (c == '#') = false := beq_eq_false_iff_ne.mpr fun heq => hne heq.symm
    rw [List.cons_append, skipTrivia, hc]
    exact ih hbody (p.next c)

theorem skipTrivia_open {body : List Char} (h : '#' ∉ body) (start p : Position) :
    skipTrivia (some start) body p =
      .error (⟨.unterminatedComment, start.upTo (p.advance body)⟩, ⟨[], p.advance body⟩) := by
  induction body generalizing p with
  | nil => rfl
  | cons c body ih =>
    obtain ⟨hne, hbody⟩ := not_or.mp fun hor => h (List.mem_cons.mpr hor)
    have hc : (c == '#') = false := beq_eq_false_iff_ne.mpr fun heq => hne heq.symm
    rw [skipTrivia, hc]
    exact ih hbody (p.next c)

/-- Trivia is skipped up to a character that starts none, or up to a comment that nothing closes. -/
theorem skipTrivia_none (cs : List Char) (p : Position) :
    (∃ gap rest, cs = gap ++ rest ∧ Gap gap ∧
      (∀ c, rest.head? = some c → Text.isBlank c = false ∧ c ≠ '#') ∧
      skipTrivia none cs p = .ok ⟨rest, p.advance gap⟩) ∨
    ∃ gap body after, cs = gap ++ '#' :: body ∧ Gap gap ∧ '#' ∉ body ∧
      skipTrivia none cs p =
        .error (⟨.unterminatedComment, (p.advance gap).upTo (p.advance cs)⟩, after) := by
  induction hlength : cs.length using Nat.strongRecOn generalizing cs p with
  | ind n ih =>
    subst hlength
    cases cs with
    | nil => exact .inl ⟨[], [], rfl, .nil, nofun, rfl⟩
    | cons c cs =>
      rw [skipTrivia]
      split
      · rename_i hblank
        have hfirst : IsTrivia [c] := .blank hblank
        obtain ⟨gap, rest, rfl, hgap, hrest, hskip⟩ | ⟨gap, body, after, rfl, hgap, hbody, hskip⟩ :=
          ih cs.length (Nat.lt_succ_self _) cs (p.next c) rfl
        · exact .inl ⟨c :: gap, rest, rfl, .cons hfirst hgap, hrest, hskip⟩
        · exact .inr ⟨c :: gap, body, after, rfl, .cons hfirst hgap, hbody, hskip⟩
      · rename_i hblank
        split
        · rename_i hcomment
          rw [beq_iff_eq] at hcomment
          subst hcomment
          by_cases hmem : '#' ∈ cs
          · obtain ⟨body, rest, rfl, hbody⟩ := List.eq_append_cons_of_mem hmem
            have hfirst : IsTrivia ('#' :: body ++ ['#']) := .comment hbody
            have hlt : rest.length < ('#' :: (body ++ '#' :: rest)).length := by
              simp only [List.length_cons, List.length_append]
              omega
            rw [skipTrivia_closed hbody]
            obtain ⟨gap, rest, rfl, hgap, hrest, hskip⟩ |
              ⟨gap, body', after, rfl, hgap, hbody', hskip⟩ :=
              ih rest.length hlt rest ((p.next '#').advance (body ++ ['#'])) rfl
            · refine .inl ⟨_, rest, ?_, .cons hfirst hgap, hrest, ?_⟩
              · simp
              · rw [hskip, ← Position.advance_append]
                rfl
            · refine .inr ⟨_, body', after, ?_, .cons hfirst hgap, hbody', ?_⟩
              · simp
              · rw [hskip, ← Position.advance_append, ← Position.advance_append]
                simp [Position.advance]
          · exact .inr ⟨[], cs, _, rfl, .nil, hmem, skipTrivia_open hmem p (p.next '#')⟩
        · rename_i hcomment
          refine .inl ⟨[], c :: cs, rfl, .nil, ?_, rfl⟩
          intro d hd
          cases hd
          exact ⟨by simpa using hblank, by simpa using hcomment⟩

/-! ## Lexemes -/

/-- The first character that a longest run leaves is not one of the run. -/
theorem head?_dropWhile {run : Char → Bool} {cs : List Char} {c : Char}
    (h : (cs.dropWhile run).head? = some c) : run c = false := by
  have hnot := List.head?_dropWhile_not run cs
  rw [h] at hnot
  simpa using hnot

theorem forall_mem_takeWhile (run : Char → Bool) (cs : List Char) :
    ∀ c ∈ cs.takeWhile run, run c = true :=
  List.all_eq_true.mp List.all_takeWhile

/-- What a scanner has read at the start of a text: a longest lexeme, after which the text goes on
as before, or nothing because of what stands there. -/
inductive ReadsLexeme (text : List Char) (p : Position) : Scanned → Prop where
  | lexeme {taken rest : List Char} {kind : Kind} (eq : text = taken ++ rest)
      (isLexeme : IsLexeme taken kind) (longest : Tiled text → Tiled rest) :
      ReadsLexeme text p (.token kind p taken rest)
  | error {covered rest : List Char} {fault : LexFault} (eq : text = covered ++ rest)
      (blocks : Blocks text fault) (after : Cursor) :
      ReadsLexeme text p (.error ⟨fault, p.upTo (p.advance covered)⟩, after)

theorem readsLexeme_scanString (cs : List Char) (p : Position) :
    ReadsLexeme ('"' :: cs) p (scanString cs p) := by
  have hcs := List.takeWhile_append_dropWhile (p := insideString) (l := cs)
  have hcontent := forall_mem_takeWhile insideString cs
  rw [scanString]
  split
  · rename_i rest hrest
    rw [hrest] at hcs
    refine .lexeme ?_ (.string hcontent) fun htiled => ?_
    · simp [hcs]
    · rw [← hcs] at htiled
      exact htiled.drop_string hcontent
  · rename_i rest hquote
    have htext : '"' :: cs = '"' :: cs.takeWhile insideString ++ cs.dropWhile insideString := by
      rw [List.cons_append, hcs]
    have hstops : cs.dropWhile insideString = [] ∨
        (cs.dropWhile insideString).head? = some '\n' := by
      cases hstop : cs.dropWhile insideString with
      | nil => exact .inl rfl
      | cons c rest =>
        have hc : insideString c = false := head?_dropWhile (by rw [hstop]; rfl)
        have hne : c ≠ '"' := fun heq => hquote rest (by rw [hstop, heq])
        refine .inr ?_
        simpa [insideString, hne] using hc
    have hblocks : Blocks ('"' :: cs) .unterminatedString := ⟨_, _, htext, hcontent, hstops⟩
    exact .error htext hblocks _

/-- The digits after a point, with the text that they stand in. -/
theorem eq_point_of_fractionDigits {rest : List Char} (h : fractionDigits rest ≠ []) :
    rest = '.' :: (fractionDigits rest ++ rest.drop ((fractionDigits rest).length + 1)) ∧
      (∀ d ∈ fractionDigits rest, d.isDigit = true) ∧
      ∀ c, (rest.drop ((fractionDigits rest).length + 1)).head? = some c → c.isDigit = false := by
  revert h
  rw [fractionDigits.eq_def]
  split
  · rename_i digits
    intro _
    have hdigits := List.takeWhile_append_dropWhile (p := Char.isDigit) (l := digits)
    have hdrop : ('.' :: digits).drop ((digits.takeWhile Char.isDigit).length + 1) =
        digits.dropWhile Char.isDigit := by
      have hdrop := congrArg (List.drop (digits.takeWhile Char.isDigit).length) hdigits
      rw [List.drop_left] at hdrop
      rw [List.drop_succ_cons, hdrop]
    rw [hdrop, hdigits]
    exact ⟨rfl, forall_mem_takeWhile _ _, fun c hc => head?_dropWhile hc⟩
  · exact fun h => absurd rfl h

theorem readsLexeme_scanNumber {c : Char} (hc : c.isDigit = true) (cs : List Char) (p : Position) :
    ReadsLexeme (c :: cs) p (scanNumber (c :: cs) p) := by
  have hne : (c :: cs).takeWhile Char.isDigit ≠ [] := by
    simp [hc]
  have htext := List.takeWhile_append_dropWhile (p := Char.isDigit) (l := c :: cs)
  have hwhole := forall_mem_takeWhile Char.isDigit (c :: cs)
  have hrest : ∀ d, ((c :: cs).dropWhile Char.isDigit).head? = some d → d.isDigit = false :=
    fun d => head?_dropWhile
  simp only [scanNumber]
  generalize (c :: cs).takeWhile Char.isDigit = whole at hne htext hwhole ⊢
  generalize (c :: cs).dropWhile Char.isDigit = rest at htext hrest ⊢
  rw [← htext]
  split
  · rename_i hempty
    rw [List.isEmpty_iff.mp hempty, List.append_nil]
    exact .lexeme rfl (.integer hne hwhole) fun htiled => htiled.drop_digits hwhole hrest
  · rename_i hempty
    have hfraction : fractionDigits rest ≠ [] := by simpa using hempty
    obtain ⟨hpoint, hdigits, hstop⟩ := eq_point_of_fractionDigits hfraction
    refine .lexeme ?_ (.decimal hne hwhole hfraction hdigits) fun htiled => ?_
    · rw [List.append_assoc, List.cons_append, ← hpoint]
    · have hafter := htiled.drop_digits hwhole hrest
      rw [hpoint] at hafter
      exact hafter.drop_point.drop_digits hdigits hstop

/-- Every character that a sign starts with is a sign, but for `!`. -/
theorem Symbol.atStart?_ne_none {sign : Symbol} {c : Char} {ds : List Char}
    (h : sign.text.toList = c :: ds) (hbang : c ≠ '!') (cs : List Char) :
    Symbol.atStart? (c :: cs) ≠ none := by
  obtain ⟨single, hsingle⟩ : ∃ single : Symbol, single.text.toList = [c] := by
    cases sign with
    | equalEqual =>
      cases h
      exact ⟨.equal, rfl⟩
    | lessEqual =>
      cases h
      exact ⟨.less, rfl⟩
    | greaterEqual =>
      cases h
      exact ⟨.greater, rfl⟩
    | bangEqual =>
      cases h
      exact absurd rfl hbang
    | _ =>
      refine ⟨_, h.trans ?_⟩
      cases h
      rfl
  have hstart := single.atStart?_text_append cs
  rw [hsingle] at hstart
  rcases hstart with hsome | ⟨longer, -, -, -, hsome⟩ <;>
  · intro hnone
    rw [← List.singleton_append, hsome] at hnone
    cases hnone

theorem blocks_of_atStart?_eq_none {c : Char} {cs : List Char} (hblank : Text.isBlank c = false)
    (hcomment : c ≠ '#') (hquote : c ≠ '"') (hname : startsName c = false)
    (hdigit : c.isDigit = false) (hsign : Symbol.atStart? (c :: cs) = none) :
    Blocks (c :: cs) (.unexpectedCharacter c) := by
  refine ⟨cs, rfl, ?_⟩
  by_cases hbang : c = '!'
  · refine .inl ⟨hbang, fun hhead => ?_⟩
    obtain ⟨more, rfl⟩ := List.head?_eq_some_iff.mp hhead
    rw [hbang] at hsign
    cases hsign
  · refine .inr ⟨hblank, hcomment, fun ds kind hlexeme => ?_⟩
    obtain ⟨d, es, heq, hfirst | hdigit' | ⟨rfl, -⟩ | ⟨sign, hsign'⟩⟩ := hlexeme.starts
    · rw [← (List.cons.inj heq).1, hname] at hfirst
      cases hfirst
    · rw [← (List.cons.inj heq).1, hdigit] at hdigit'
      cases hdigit'
    · exact hquote (List.cons.inj heq).1
    · exact Symbol.atStart?_ne_none hsign'.symm hbang cs hsign

theorem readsLexeme_scanLexeme {c : Char} (hblank : Text.isBlank c = false) (hcomment : c ≠ '#')
    (cs : List Char) (p : Position) : ReadsLexeme (c :: cs) p (scanLexeme c cs p) := by
  rw [scanLexeme]
  split
  · rename_i hquote
    rw [eq_of_beq hquote]
    exact readsLexeme_scanString cs p
  · rename_i hquote
    split
    · rename_i hname
      have hcs := List.takeWhile_append_dropWhile (p := continuesName) (l := cs)
      have hothers := forall_mem_takeWhile continuesName cs
      have htext : c :: cs = c :: cs.takeWhile continuesName ++ cs.dropWhile continuesName := by
        rw [List.cons_append, hcs]
      refine .lexeme htext (.word hname hothers) fun htiled => ?_
      rw [htext] at htiled
      refine htiled.drop_name ?_ fun d => head?_dropWhile
      exact List.forall_mem_cons.mpr ⟨startsName_continuesName hname, hothers⟩
    · rename_i hname
      split
      · rename_i hdigit
        exact readsLexeme_scanNumber hdigit cs p
      · rename_i hdigit
        split
        · rename_i sign hsign
          exact .lexeme (Symbol.eq_text_append_of_atStart? hsign) (.symbol sign)
            fun htiled => htiled.drop_symbol hsign
        · rename_i hsign
          have hblocks := blocks_of_atStart?_eq_none hblank hcomment (by simpa using hquote)
            (by simpa using hname) (by simpa using hdigit) hsign
          have htext : c :: cs = [c] ++ cs := rfl
          exact .error htext hblocks _

/-! ## One step -/

/-- What one step of the scanner does: it skips trivia and then comes to the end of the text, reads
a longest lexeme, or stops because of what stands there. -/
inductive Cursor.Scans (c : Cursor) : Scanned → Prop where
  | stop (gap : Gap c.rest) (after : Cursor) :
      Scans c
        (.ok ⟨.endOfInput, (c.position.advance c.rest).upTo (c.position.advance c.rest)⟩, after)
  | lexeme {gap taken rest : List Char} {kind : Kind} (eq : c.rest = gap ++ (taken ++ rest))
      (isGap : Gap gap) (isLexeme : IsLexeme taken kind) (longest : Tiled c.rest → Tiled rest) :
      Scans c (.token kind (c.position.advance gap) taken rest)
  | error {gap covered rest : List Char} {fault : LexFault}
      (eq : c.rest = gap ++ (covered ++ rest)) (isGap : Gap gap)
      (blocks : Blocks (covered ++ rest) fault) (after : Cursor) :
      Scans c (.error ⟨fault, (c.position.advance gap).upTo (c.position.advance (gap ++ covered))⟩,
        after)

theorem Cursor.scans_scan (c : Cursor) : c.Scans c.scan := by
  rw [Cursor.scan]
  obtain ⟨gap, rest, heq, hgap, hrest, hskip⟩ | ⟨gap, body, after, heq, hgap, hbody, hskip⟩ :=
    skipTrivia_none c.rest c.position
  · rw [hskip]
    cases rest with
    | nil =>
      rw [List.append_nil] at heq
      subst heq
      exact .stop hgap _
    | cons ch cs =>
      obtain ⟨hblank, hcomment⟩ := hrest ch rfl
      have hreads := readsLexeme_scanLexeme hblank hcomment cs (c.position.advance gap)
      simp only
      generalize scanLexeme ch cs (c.position.advance gap) = scanned at hreads
      cases hreads with
      | lexeme htext hlexeme hlongest =>
        refine .lexeme (heq.trans (congrArg _ htext)) hgap hlexeme fun htiled => hlongest ?_
        rw [heq] at htiled
        exact htiled.drop_gap hgap
      | error htext hblocks after =>
        rw [← Position.advance_append]
        refine .error (heq.trans (congrArg _ htext)) hgap ?_ after
        rwa [← htext]
  · rw [hskip]
    have hblocks : Blocks ('#' :: body) .unterminatedComment := ⟨body, rfl, hbody⟩
    have hcovered : c.rest = gap ++ ('#' :: body ++ []) := by rw [heq, List.append_nil]
    have herror := Cursor.Scans.error hcovered hgap (by rwa [List.append_nil]) after
    rwa [← heq] at herror

/-! ## All steps -/

/-- The tokens of a text, which stands behind `before`: a gap of trivia, a lexeme that the token
covers, and so on up to the token that marks the end, which covers nothing. -/
inductive Tokenized : List Char → List Char → List Token → Prop where
  | stop {before gap : List Char} (isGap : Gap gap) :
      Tokenized before gap [⟨.endOfInput, regionOf (before ++ gap) []⟩]
  | token {before gap taken rest : List Char} {kind : Kind} {ts : List Token} (isGap : Gap gap)
      (isLexeme : IsLexeme taken kind) (more : Tokenized (before ++ gap ++ taken) rest ts) :
      Tokenized before (gap ++ (taken ++ rest)) (⟨kind, regionOf (before ++ gap) taken⟩ :: ts)

/-- The error of a text, which stands behind `before`: in front of the region that it names there
are pieces only, and the text from there on is at fault. -/
def Stuck (before text : List Char) (e : LexError) : Prop :=
  ∃ read covered rest, text = read ++ (covered ++ rest) ∧ Tiled read ∧
    e.span = regionOf (before ++ read) covered ∧ Blocks (covered ++ rest) e.fault

/-- What is read from a text that stands behind `before`. -/
def Lexed (before text : List Char) : Except LexError (List Token) → Prop
  | .ok ts => Tokenized before text ts
  | .error e => Stuck before text e ∧ ¬ Tiled text

theorem Tokenized.tiled {before text : List Char} {ts : List Token}
    (h : Tokenized before text ts) : Tiled text := by
  induction h with
  | stop isGap => exact isGap.tiled
  | token isGap isLexeme _ ih => exact isGap.tiled_append (.lexeme isLexeme ih)

theorem Stuck.of_rest {before gap taken rest : List Char} {kind : Kind} {e : LexError}
    (h : Stuck (before ++ gap ++ taken) rest e) (hgap : Gap gap) (hlexeme : IsLexeme taken kind) :
    Stuck before (gap ++ (taken ++ rest)) e := by
  obtain ⟨read, covered, more, rfl, hread, hspan, hblocks⟩ := h
  refine ⟨gap ++ (taken ++ read), covered, more, by simp, ?_, ?_, hblocks⟩
  · exact hgap.tiled_append (.lexeme hlexeme hread)
  · rw [hspan]
    simp

theorem IsLexeme.isEnd_eq_false {taken : List Char} {kind : Kind} (h : IsLexeme taken kind) :
    kind.isEnd = false := by
  cases h with
  | word =>
    rw [Kind.ofWord]
    split <;> rfl
  | integer | decimal | string | symbol => rfl

/-- **The scanner reads pieces up to the end, or up to a text that no piece starts.** In the second
case the whole text is not made of pieces, since no longest lexeme was taken in vain. -/
theorem Cursor.lexed_tokens (c : Cursor) (before : List Char)
    (hposition : c.position = Position.advance {} before) : Lexed before c.rest c.tokens := by
  have hscans := c.scans_scan
  fun_induction Cursor.tokens c generalizing before with
  | case1 c error after h =>
    rw [h] at hscans
    cases hscans with
    | error heq hgap hblocks =>
      refine ⟨⟨_, _, _, heq, hgap.tiled, ?_, hblocks⟩, fun htiled => ?_⟩
      · rw [hposition, ← Position.advance_append, ← Position.advance_append, ← List.append_assoc]
        rfl
      · rw [heq] at htiled
        exact hblocks.not_tiled (htiled.drop_gap hgap)
  | case2 c t after h hend =>
    rw [h] at hscans
    cases hscans with
    | stop hgap =>
      rw [hposition, ← Position.advance_append, Lexed]
      have hstop := @Tokenized.stop before _ hgap
      rwa [regionOf, List.append_nil] at hstop
    | lexeme _ _ hlexeme =>
      rw [hlexeme.isEnd_eq_false] at hend
      cases hend
  | case3 c t after h hend error herror ih =>
    rw [h] at hscans
    cases hscans with
    | stop => exact absurd rfl hend
    | lexeme heq hgap hlexeme hlongest =>
      rename_i gap taken rest kind
      have hrest := ih (before ++ gap ++ taken) (by
        rw [hposition, Position.advance_append, Position.advance_append]) (Cursor.scans_scan _)
      rw [herror] at hrest
      rw [heq] at hlongest ⊢
      exact ⟨hrest.1.of_rest hgap hlexeme, fun htiled => hrest.2 (hlongest htiled)⟩
  | case4 c t after h hend ts hts ih =>
    rw [h] at hscans
    cases hscans with
    | stop => exact absurd rfl hend
    | lexeme heq hgap hlexeme _hlongest =>
      rename_i gap taken rest kind
      have hrest := ih (before ++ gap ++ taken) (by
        rw [hposition, Position.advance_append, Position.advance_append]) (Cursor.scans_scan _)
      rw [hts] at hrest
      rw [heq, Lexed]
      have htoken := Tokenized.token hgap hlexeme hrest
      rwa [regionOf, Position.advance_append {} (before ++ gap), Position.advance_append {} before,
        ← hposition] at htoken

/-! ## Where the tokens lie -/

theorem IsLexeme.byteCount_pos {taken : List Char} {kind : Kind} (h : IsLexeme taken kind) :
    0 < byteCount taken := by
  obtain ⟨c, cs, rfl, -⟩ := h.starts
  exact Chalk.byteCount_pos (List.cons_ne_nil c cs)

namespace Tokenized

variable {before text : List Char} {ts : List Token}

/-- Every token covers a part of the text. -/
theorem region_of_mem (h : Tokenized before text ts) {t : Token} (ht : t ∈ ts) :
    ∃ front part back, text = front ++ (part ++ back) ∧
      t.span = regionOf (before ++ front) part := by
  induction h with
  | @stop _ gap _ =>
    rw [List.mem_singleton.mp ht]
    exact ⟨gap, [], [], by simp, rfl⟩
  | @token _ gap taken rest _ _ _ _ _ ih =>
    rcases List.mem_cons.mp ht with rfl | hmem
    · exact ⟨gap, taken, rest, rfl, rfl⟩
    · obtain ⟨front, part, back, rfl, hspan⟩ := ih hmem
      refine ⟨gap ++ (taken ++ front), part, back, by simp, ?_⟩
      rw [hspan]
      simp

/-- A token starts after the one before it, and not before the end of that one. -/
theorem increasing (h : Tokenized before text ts) :
    ts.Pairwise fun a b => a.span.start < b.span.start ∧ a.span.stop ≤ b.span.start := by
  induction h with
  | stop _ => exact List.pairwise_singleton ..
  | token _ hlexeme hmore ih =>
    refine List.pairwise_cons.mpr ⟨fun t ht => ?_, ih⟩
    obtain ⟨front, part, back, -, hspan⟩ := hmore.region_of_mem ht
    have hpos := hlexeme.byteCount_pos
    rw [hspan]
    simp only [start_regionOf, stop_regionOf, byteCount_append]
    omega

/-- The last token marks the end of the text. The others are lexemes, which are not empty. -/
theorem ends (h : Tokenized before text ts) :
    ∃ init last, ts = init ++ [last] ∧ last.kind = .endOfInput ∧
      last.span.start = byteCount (before ++ text) ∧ last.span.stop = byteCount (before ++ text) ∧
      ∀ t ∈ init, t.kind.isEnd = false ∧ t.span.start < t.span.stop := by
  induction h with
  | stop _ => exact ⟨[], _, rfl, rfl, by simp, by simp, nofun⟩
  | token _ hlexeme _ ih =>
    obtain ⟨init, last, rfl, hend, hstart, hstop, hinit⟩ := ih
    refine ⟨_ :: init, last, rfl, hend, ?_, ?_, List.forall_mem_cons.mpr ⟨?_, hinit⟩⟩
    · rw [hstart]
      simp
    · rw [hstop]
      simp
    · have hpos := hlexeme.byteCount_pos
      refine ⟨hlexeme.isEnd_eq_false, ?_⟩
      rw [start_regionOf, stop_regionOf]
      omega

end Tokenized

/-- The tokens lie in the text as its pieces do: each covers one lexeme, in order and without
overlap, up to an empty one at the end, and what no token covers is trivia. -/
structure Tiling (source : List Char) (ts : List Token) : Prop where
  pieces : Tokenized [] source ts
  boundaries : ∀ t ∈ ts, ∃ before part after, source = before ++ (part ++ after) ∧
    t.span = regionOf before part
  increasing : ts.Pairwise fun a b => a.span.start < b.span.start ∧ a.span.stop ≤ b.span.start
  ends : ∃ init last, ts = init ++ [last] ∧ last.kind = .endOfInput ∧
    last.span.start = byteCount source ∧ last.span.stop = byteCount source ∧
    ∀ t ∈ init, t.kind.isEnd = false ∧ t.span.start < t.span.stop

theorem Tokenized.tiling {source : List Char} {ts : List Token} (h : Tokenized [] source ts) :
    Tiling source ts :=
  ⟨h, fun _ ht => h.region_of_mem ht, h.increasing, h.ends⟩

theorem lexed_tokenize (source : List Char) : Lexed [] source (tokenize source) :=
  Cursor.lexed_tokens ⟨source, {}⟩ [] rfl

/-- **The scanner accepts exactly the texts that are made of lexemes and trivia.** The tokens of
such a text tile it. The error of any other text starts behind a part that is made of lexemes and
trivia, at a text that the fault describes. -/
theorem tokenize_tiles (source : List Char) :
    ((∃ ts, tokenize source = .ok ts) ↔ Tiled source) ∧
    (∀ ts, tokenize source = .ok ts → Tiling source ts) ∧
    ∀ e, tokenize source = .error e → ∃ read covered rest,
      source = read ++ (covered ++ rest) ∧ Tiled read ∧ e.span = regionOf read covered ∧
        e.span.start = byteCount read ∧ Blocks (covered ++ rest) e.fault := by
  have hlexed := lexed_tokenize source
  refine ⟨⟨fun ⟨ts, hts⟩ => ?_, fun htiled => ?_⟩, fun ts hts => ?_, fun e he => ?_⟩
  · rw [hts] at hlexed
    exact hlexed.tiled
  · cases htokens : tokenize source with
    | ok ts => exact ⟨ts, rfl⟩
    | error e =>
      rw [htokens] at hlexed
      exact absurd htiled hlexed.2
  · rw [hts] at hlexed
    exact hlexed.tiling
  · rw [he] at hlexed
    obtain ⟨read, covered, rest, heq, hread, hspan, hblocks⟩ := hlexed.1
    refine ⟨read, covered, rest, heq, hread, hspan, ?_, hblocks⟩
    rw [hspan]
    exact start_regionOf ..

/-- A letter of two bytes, a comment with a quote and a line break in it, and a point. -/
def commentedText : List Char := "é #\"\n# .".toList

/-- A string with a `#` in it, and a `!` that no `=` follows. -/
def unreadableText : List Char := "\"#\" !x".toList

theorem tokenize_tiles_commentedText :
    Tiling commentedText [⟨.identifier "é", ⟨0, 2, 1, 1⟩⟩, ⟨.symbol .dot, ⟨8, 9, 2, 3⟩⟩,
      ⟨.endOfInput, ⟨9, 9, 2, 4⟩⟩] ∧
    ∃ read covered rest, unreadableText = read ++ (covered ++ rest) ∧ Tiled read ∧
      4 = byteCount read ∧ Blocks (covered ++ rest) (.unexpectedCharacter '!') := by
  constructor
  · exact (tokenize_tiles commentedText).2.1 _ (by decide +kernel)
  · have herror : tokenize unreadableText = .error ⟨.unexpectedCharacter '!', ⟨4, 5, 1, 5⟩⟩ := by
      decide +kernel
    obtain ⟨read, covered, rest, heq, hread, -, hstart, hblocks⟩ :=
      (tokenize_tiles unreadableText).2.2 _ herror
    exact ⟨read, covered, rest, heq, hread, hstart, hblocks⟩

end Chalk
