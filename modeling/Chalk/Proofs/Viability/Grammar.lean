import Chalk.Proofs.Viability

/-!
# Where the productions fail

Every function of the grammar keeps what it reads and is blocked where it fails. Where nothing has
been read, an expression is completed by `true`, a type by `number`, a statement by `break;`, and a
block by nothing.

## Main definitions

* `Scan.Beyond`, `Scan.Closes` — the tokens that do not continue an expression, or close a block
* `Scan.assigned` — the part of a clause in which a target is refused

## Main results

* `Scan.viable_level` — expressions
* `Scan.viable_simpleStatement` — clauses, with the assignments among them
* `Scan.viable_statement` — statements
-/

namespace Chalk

namespace Scan

variable {n : Nat}

/-- The tokens that do not continue an expression of the rank. -/
def Beyond (rank : Nat) : Token → Prop := fun t => rank < t.kind.joins

/-- The tokens that do not continue an expression and differ from a sign that can come behind. -/
def BeyondBut (sign : Symbol) : Token → Prop :=
  fun t => 8 < t.kind.joins ∧ t.kind ≠ .symbol sign

instance (rank : Nat) (t : Token) : Decidable (Beyond rank t) :=
  inferInstanceAs (Decidable (rank < t.kind.joins))

instance (sign : Symbol) (t : Token) : Decidable (BeyondBut sign t) :=
  inferInstanceAs (Decidable (8 < t.kind.joins ∧ t.kind ≠ .symbol sign))

theorem Beyond.mono {rank rank' : Nat} (h : rank' ≤ rank) : ∀ t, Beyond rank t → Beyond rank' t :=
  fun _ ht => Nat.lt_of_le_of_lt h ht

/-- A token that continues an expression of the rank is of another kind. -/
theorem Beyond.kind_ne {rank : Nat} {kind : Kind} (h : kind.joins ≤ rank) :
    ∀ t, Beyond rank t → t.kind ≠ kind := by
  rintro t ht rfl
  exact Nat.not_lt.mpr h ht

theorem BeyondBut.beyond {sign : Symbol} : ∀ t, BeyondBut sign t → Beyond 8 t := fun _ h => h.1

theorem BeyondBut.kind_ne {sign : Symbol} : ∀ t, BeyondBut sign t → t.kind ≠ .symbol sign :=
  fun _ h => h.2

/-! ## Expressions -/

/-- The contract of expressions of a rank. -/
abbrev ViableRank (n rank : Nat) : Prop :=
  Viable n 1 (Bare (.keyword .trueKw)) (Beyond rank) (level rank)

theorem viable_several (hinner : ViableRank n 8) :
    Viable n 1 (Bare (.keyword .trueKw)) (BeyondBut .comma) several :=
  viable_commaSeparated several.eq_1 hinner BeyondBut.beyond BeyondBut.kind_ne

theorem viable_severalEntries (hinner : ViableRank n 8) :
    Viable n 1 (Bare (.keyword .trueKw)) (BeyondBut .comma) severalEntries := by
  have hentry : Viable n 1 (Bare (.keyword .trueKw)) (Beyond 8) (dictEntry (level 8)) := by
    refine hinner.bind_expect (.inl Nat.one_pos) rfl (by decide) fun key _ => ?_
    exact ((hinner.of_le (by omega)).bind_pure (.inl Nat.one_pos) (key, ·)).resumes
  exact viable_commaSeparated severalEntries.eq_1 hentry BeyondBut.beyond BeyondBut.kind_ne

theorem viable_primary (hinner : ∀ m, m < n → ViableRank m 8) :
    Viable n 1 (Bare (.keyword .trueKw)) Anything (level 0) := by
  have hpass : ∀ t (e : Expr), ViableFrom n Anything (advance >>= fun _ => pure e) t :=
    fun t e => viableFrom_advance_bind (fun _ _ => resumes_pure e) t
  rw [level.eq_1]
  refine viable_current_bind (productive_current_bind ?_) fun t => ?_
  · exact productive_advance_bind rfl (productive_pure (fun _ => id) _)
  cases t.kind with
  | number value | string content | identifier name => exact hpass t _
  | keyword word =>
    cases word with
    | trueKw | falseKw | thisKw => exact hpass t _
    | _ => exact viableFrom_failExpected "expression"
  | symbol sign =>
    cases sign with
    | leftParen =>
      refine viableFrom_advance_bind (fun m hm => ?_) t
      exact resumes_bind_expect (hinner m hm) rfl (by decide) fun e _ => resumes_pure e
    | leftBracket =>
      refine viableFrom_advance_bind (fun m hm => ?_) t
      have hitems := viable_several (hinner m hm)
      exact ((viable_itemsUntil hitems (by decide)).spanned (.inl Nat.one_pos) _).resumes
    | leftBrace =>
      refine viableFrom_advance_bind (fun m hm => ?_) t
      have hentries := viable_severalEntries (hinner m hm)
      exact ((viable_itemsUntil hentries (by decide)).spanned (.inl Nat.one_pos) _).resumes
    | _ => exact viableFrom_failExpected "expression"
  | endOfInput => exact viableFrom_failExpected "expression"

theorem viable_suffixes (hinner : ∀ m, m < n → ViableRank m 8) (e : Expr) :
    Viable n 0 (Beyond 1) (Beyond 1) (suffixes e) := by
  have hother : ∀ {sign : Symbol}, (Kind.symbol sign).joins ≤ 1 →
      ∀ t, Beyond 1 t → t.kind ≠ .symbol sign := Beyond.kind_ne
  induction n using Nat.strong_induction_on generalizing e with
  | _ n ih =>
    have hmore : ∀ m, m < n → ∀ e, Resumes m (Beyond 1) (suffixes e) :=
      fun m hm e => (ih m hm (fun m' hm' => hinner m' (by omega)) e).resumes
    rw [suffixes]
    refine viable_eat_bind_optional (fun m hm => ?_) ?_ (hother (by decide)) (hother (by decide))
    · have hitems := viable_several (hinner m hm)
      refine ((viable_itemsUntil hitems (by decide)).bind_any fun arguments => ?_).resumes
      exact .lastSpan_bind fun span => hmore (m - 1) (by omega) _
    refine viable_eat_bind_optional (fun m hm => ?_) ?_ (hother (by decide)) (hother (by decide))
    · refine resumes_identifier_bind fun name => ?_
      exact .lastSpan_bind fun span => hmore (m - 1) (by omega) _
    refine viable_eat_bind_optional (fun m hm => ?_) (viable_pure (fun _ => id) e)
      (hother (by decide)) (hother (by decide))
    refine resumes_bind_expect (hinner m hm) rfl (by decide) fun position _ => ?_
    exact .lastSpan_bind fun span => hmore (m - 1) (by omega) _

theorem viable_operands {rank : Nat} (hrank : 4 ≤ rank) (hle : rank ≤ 8)
    (hoperand : ∀ m, m < n → ViableRank m (rank - 1)) (left : Expr) :
    Viable n 0 (Beyond rank) (Beyond rank) (operands rank left) := by
  have hnone : ∀ t, Beyond rank t → Parser.operator? rank t.kind = none := by
    intro t ht
    cases hop : Parser.operator? rank t.kind with
    | none => rfl
    | some combine => exact absurd (Parser.joins_of_operator? hrank hle hop) (Nat.ne_of_gt ht)
  have hbelow : ∀ t, Beyond rank t → Beyond (rank - 1) t := Beyond.mono (Nat.sub_le rank 1)
  induction n using Nat.strong_induction_on generalizing left with
  | _ n ih =>
    have hmore : ∀ m, m < n → ∀ left, Viable m 0 (Beyond rank) (Beyond rank) (operands rank left) :=
      fun m hm => ih m hm fun m' hm' => hoperand m' (by omega)
    rw [operands]
    refine viable_unless (fun t => Parser.operator? rank t.kind = none) (q := pure left)
      (fun t ht => ?_) (viable_pure (fun _ => id) left) (fun t ht => ?_) hnone hnone
    · simp only [ht]
    obtain ⟨combine, hop⟩ := Option.ne_none_iff_exists'.mp ht
    simp only [hop]
    refine viableFrom_advance_bind (fun m hm => ?_) t
    exact ((hoperand m hm).bind (fun right => hmore (m - 1) (by omega) _) hbelow
      (.inr hbelow)).resumes

/-- Expressions of a rank, if those of all ranks are viable on fewer tokens. -/
theorem viable_rank (ih : ∀ m, m < n → ∀ rank, rank ≤ 8 → ViableRank m rank) (rank : Nat)
    (hle : rank ≤ 8) : ViableRank n rank := by
  have hinner : ∀ m, m < n → ViableRank m 8 := fun m hm => ih m hm 8 (Nat.le_refl 8)
  match rank with
  | 0 =>
    exact (viable_primary hinner).mono (Nat.le_refl n) (Nat.le_refl 1) (fun _ => id)
      fun _ _ => trivial
  | 1 =>
    show Viable n 1 _ _ (level 1)
    rw [level.eq_2]
    have hbelow : ∀ m, m < n - 1 → ViableRank m 8 := fun m hm => hinner m (by omega)
    exact (viable_primary hinner).bind_any fun e => (viable_suffixes hbelow e).resumes
  | 2 =>
    have hoperand : Viable n 1 (Bare (.keyword .trueKw)) (Beyond 2) (level 1) :=
      (viable_rank ih 1 (by decide)).mono (Nat.le_refl n) (Nat.le_refl 1) (fun _ => id)
        (Beyond.mono (by decide))
    show Viable n 1 _ _ (level 2)
    rw [level.eq_3]
    refine viable_current_bind (productive_current_bind hoperand.productive) fun t => ?_
    cases Parser.unary? t.kind with
    | none => exact hoperand.from t
    | some op =>
      refine viableFrom_advance_bind (fun m hm => ?_) t
      exact ((ih m hm 2 (by decide)).bind_pure (.inl Nat.one_pos) _).resumes
  | 3 =>
    have hbelow : ∀ t, Beyond 3 t → Beyond 2 t := Beyond.mono (by decide)
    have hcaret : ∀ t, Beyond 3 t → t.kind ≠ .symbol .caret := Beyond.kind_ne (by decide)
    show Viable n 1 _ _ (level 3)
    rw [level.eq_4]
    refine (viable_rank ih 2 (by decide)).bind (fun b => viable_eat_bind_optional
      (fun m hm => ?_) (viable_pure (fun _ => id) b) hcaret hcaret) hbelow (.inr hbelow)
    exact ((ih m (by omega) 3 (by decide)).bind_pure (.inl Nat.one_pos) _).resumes
  | rank + 4 =>
    have hbelow : ∀ t, Beyond (rank + 4) t → Beyond (rank + 3) t := Beyond.mono (by omega)
    have hoperand : ∀ m, m < n - 1 → ViableRank m (rank + 3) :=
      fun m hm => ih m (by omega) (rank + 3) (by omega)
    show Viable n 1 _ _ (level (rank + 4))
    rw [level.eq_5]
    exact (viable_rank ih (rank + 3) (by omega)).bind
      (fun first => viable_operands (by omega) hle hoperand first) hbelow (.inr hbelow)

/-- **Expressions of a rank** keep what they read and are blocked where they fail. -/
theorem viable_level (n : Nat) : ∀ rank, rank ≤ 8 → ViableRank n rank := by
  induction n using Nat.strong_induction_on with
  | _ n ih => exact viable_rank ih

theorem viable_expression (n : Nat) :
    Viable n 1 (Bare (.keyword .trueKw)) (Beyond 8) expression :=
  viable_level n 8 (Nat.le_refl 8)

/-! ## Clauses -/

theorem viable_declaration (n : Nat) :
    Viable n 1 (Bare (.keyword .setKw)) (BeyondBut .equal) declaration := by
  rw [declaration]
  refine viable_expect_bind rfl fun start => ?_
  refine resumes_eat_bind (fun constant m _ => viable_typeTag_bind fun tag => ?_)
    (of_bare (by decide))
  refine resumes_identifier_bind fun name => ?_
  refine Viable.resumes (viable_eat_bind_optional (fun m hm => ?_)
    (viable_pure_bind (viable_spanned _)) BeyondBut.kind_ne BeyondBut.kind_ne)
  have hinitial := (viable_expression m).map (.inl Nat.one_pos) some
  exact (hinitial.bind (fun initial => viable_spanned _) BeyondBut.beyond
    (.inr BeyondBut.beyond)).resumes

/-- Whether `=` comes after the expression. If it does, the expression is taken as a target. -/
def assigned (e : Expr) : Scan (Expr × Option Target) := do
  if ← eat (.symbol .equal) then
    match e.toTarget? with
    | none => reject ⟨.invalidTarget, e.span⟩
    | some target => return (e, some target)
  else return (e, none)

section Assigned

variable {e : Expr} {t : Token} {rest : List Token} {last : Span}

theorem assigned_of_ne (ht : t.kind ≠ .symbol .equal) :
    (assigned e).Reads ⟨t :: rest, last⟩ (e, none) ⟨t :: rest, last⟩ := by
  rw [assigned, eat_bind]
  show (if _ then _ else _ : Scan _) _ = _
  rw [if_neg (by simpa using ht)]
  rfl

theorem assigned_of_eq (ht : t.kind = .symbol .equal) :
    assigned e ⟨t :: rest, last⟩ = (match e.toTarget? with
      | none => reject ⟨.invalidTarget, e.span⟩
      | some target => return (e, some target) : Scan _) ⟨rest, t.span⟩ := by
  rw [assigned, eat_bind]
  show (if _ then _ else _ : Scan _) _ = _
  rw [if_pos (by simpa using ht)]
  show (advance ⟨t :: rest, last⟩ >>= fun x => _) = _
  rw [show advance _ = _ from reads_advance (by rw [ht]; rfl) rest last]
  rfl

theorem kept_assigned {a : Expr × Option Target} {after : Tape}
    (h : (assigned e).Reads ⟨rest, last⟩ a after) : ∃ us, rest = us ++ after.rest ∧
      Kept 0 (BeyondBut .equal) (assigned e) last a after us := by
  obtain _ | ⟨t, rest⟩ := rest
  · cases h
  by_cases ht : t.kind = .symbol .equal
  · rw [Reads, assigned_of_eq ht] at h
    cases he : e.toTarget? with
    | none =>
      rw [he] at h
      cases h
    | some target =>
      rw [he] at h
      cases h
      refine ⟨[t], rfl, Nat.zero_le 1, rfl, .cons (by rw [ht]; rfl) nofun, fun more _ => ?_⟩
      show assigned e ⟨t :: more, last⟩ = _
      rw [assigned_of_eq ht, he]
      rfl
  · cases h.symm.trans (assigned_of_ne ht)
    refine ⟨[], rfl, Nat.le_refl 0, rfl, nofun, fun more hmore => ?_⟩
    have hnext : NextIn (fun u => u.kind ≠ .symbol .equal) more :=
      hmore.elim (fun hhead => ⟨t, hhead, ht⟩) fun hnext => hnext.mono fun _ hu => hu.2
    obtain ⟨u, hhead, hu⟩ := hnext
    obtain ⟨more, rfl⟩ := List.head?_eq_some_iff.mp hhead
    exact assigned_of_ne hu

/-- An expression is refused if it is no target and `=` comes next. -/
theorem rejects_assigned_iff {error : ParseError} :
    (assigned e).Rejects ⟨t :: rest, last⟩ error ↔
      t.kind = .symbol .equal ∧ e.toTarget? = none ∧ error = ⟨.invalidTarget, e.span⟩ := by
  by_cases ht : t.kind = .symbol .equal
  · rw [Rejects, assigned_of_eq ht]
    cases he : e.toTarget? with
    | none =>
      constructor
      · rintro ⟨⟩
        exact ⟨ht, rfl, rfl⟩
      · rintro ⟨-, -, rfl⟩
        rfl
    | some target => exact ⟨nofun, nofun⟩
  · rw [Rejects, assigned_of_ne ht]
    exact ⟨nofun, fun h => absurd h.1 ht⟩

/-- What is assigned to has been read when it is found to be no target. -/
theorem viable_assignee (n : Nat) :
    Viable n 1 (Bare (.keyword .trueKw)) (BeyondBut .equal) (expression >>= assigned) := by
  have hexpr := viable_expression n
  have hprod : ∀ e, Productive (BeyondBut .equal) (BeyondBut .equal) (assigned e) := fun e =>
    productive_eat_bind (productive_pure (fun _ => id) (e, none)) BeyondBut.kind_ne
  refine ⟨hexpr.productive.bind hprod BeyondBut.beyond, fun rest last a after hn hreads => ?_,
    fun rest last error hn hrejects => ?_⟩
  · obtain ⟨e, mid, he, hassigned⟩ := reads_bind_iff.mp hreads
    obtain ⟨us, hrest, hkept⟩ := hexpr.kept rest last e mid hn he
    obtain ⟨vs, hmid, hkept'⟩ := kept_assigned hassigned
    refine ⟨us ++ vs, ?_, hkept.bind hmid hkept' (.inr BeyondBut.beyond)⟩
    rw [hrest, hmid, List.append_assoc]
  · rcases rejects_bind_iff.mp hrejects with hreject | ⟨e, mid, he, hassigned⟩
    · obtain ⟨seen, more, hrest, hblocked⟩ := hexpr.blocked rest last error hn hreject
      exact ⟨seen, more, hrest, hblocked.bind hprod BeyondBut.beyond⟩
    obtain ⟨us, hrest, hkept⟩ := hexpr.kept rest last e mid hn he
    obtain ⟨_ | ⟨t, more⟩, l⟩ := mid
    · cases hassigned
    obtain ⟨ht, htarget, rfl⟩ := rejects_assigned_iff.mp hassigned
    have hagain : ∀ more, expression.Reads ⟨us ++ t :: more, last⟩ e ⟨t :: more, l⟩ :=
      fun more => hkept.again (t :: more) (.inl rfl)
    refine ⟨us ++ [t], more, by rw [hrest, List.append_assoc]; rfl, by simp, fun more => ?_,
      .inr ⟨rfl, [], us, t, e, last, rfl, ?_, hkept.unmarked, ht, htarget, rfl, fun more => ?_⟩⟩
    · rw [List.append_assoc]
      exact rejects_bind_iff.mpr
        (.inr ⟨e, _, hagain more, rejects_assigned_iff.mpr ⟨ht, htarget, rfl⟩⟩)
    · exact List.ne_nil_of_length_pos hkept.length
    · exact hkept.ended ▸ hagain more

end Assigned

/-- A statement from an expression and the target that it is, with the value that is assigned. -/
def completed (start : Span) : Expr × Option Target → Scan Stmt
  | (_, some target) => do
    let value ← expression
    return .assign target value (start.through (← lastSpan))
  | (e, none) => return .eval e e.span

/-- A clause takes its expression as a target before it reads a value. -/
theorem simpleStatement_eq : simpleStatement = current >>= fun t => at? (.keyword .setKw) >>=
    fun found => if found then declaration else (expression >>= assigned) >>= completed t.span := by
  refine bind_congr fun t => bind_congr fun found => ?_
  cases found with
  | true => rfl
  | false =>
    simp only [Bool.false_eq_true, if_false, bind_assoc]
    refine bind_congr fun e => ?_
    rw [assigned, bind_assoc]
    refine bind_congr fun found => ?_
    cases found with
    | false => rfl
    | true =>
      simp only [if_true]
      cases e.toTarget? <;> rfl

theorem viable_completed (n : Nat) (start : Span) (r : Expr × Option Target) :
    Viable n 0 (BeyondBut .equal) (BeyondBut .equal) (completed start r) := by
  obtain ⟨e, _ | target⟩ := r
  · exact viable_pure (fun _ => id) _
  · have hassign : Viable n 1 (Bare (.keyword .trueKw)) (BeyondBut .equal)
        (completed start (e, some target)) :=
      (viable_expression n).bind (fun value => viable_spanned _) BeyondBut.beyond
        (.inr BeyondBut.beyond)
    exact hassign.mono (Nat.le_refl n) (Nat.zero_le 1) (of_bare (by decide)) fun _ => id

/-- **Clauses** keep what they read and are blocked where they fail. -/
theorem viable_simpleStatement (n : Nat) :
    Viable n 1 (Bare (.keyword .trueKw)) (BeyondBut .equal) simpleStatement := by
  have hclause : ∀ start, Viable n 1 (Bare (.keyword .trueKw)) (BeyondBut .equal)
      ((expression >>= assigned) >>= completed start) :=
    fun start => (viable_assignee n).bind (fun r => viable_completed _ start r) (fun _ => id)
      (.inr fun _ => id)
  rw [simpleStatement_eq]
  refine viable_current_bind (productive_current_bind ?_) fun t => ?_
  · rw [at?_bind]
    exact productive_current_bind (hclause {}).productive
  · rw [at?_bind]
    refine ViableFrom.current_bind ?_
    split
    · exact (viable_declaration n).from t
    · exact (hclause t.span).from t

/-! ## Fields and parameters -/

theorem viable_parameter (n : Nat) :
    Viable n 1 (Bare (.keyword .numberKw)) Anything parameter := by
  have hslot : ∀ start : Span, Viable n 1 (Bare (.keyword .numberKw)) Anything
      (typeTag false >>= fun tag => identifier "parameter name" >>= fun name =>
        lastSpan >>= fun span => pure (⟨name, tag, start.through span⟩ : Slot)) := by
    intro start
    refine viable_typeTag_bind fun tag => ?_
    exact resumes_identifier_bind fun name => viable_spanned _
  exact viable_current_bind (productive_current_bind (hslot {}).productive)
    fun t => (hslot t.span).from t

theorem viable_severalParameters (n : Nat) : Viable n 1 (Bare (.keyword .numberKw))
    (fun t => t.kind ≠ .symbol .comma) severalParameters :=
  viable_commaSeparated severalParameters.eq_1 (viable_parameter n) (fun _ _ => trivial)
    fun _ h => h

theorem viable_fieldDeclaration (n : Nat) :
    Viable n 1 (Bare (.keyword .setKw)) Anything fieldDeclaration := by
  rw [fieldDeclaration]
  refine viable_expect_bind rfl fun start => ?_
  refine resumes_typeTag_bind fun tag => ?_
  refine resumes_identifier_bind fun name => ?_
  have hend : ∀ n, Viable n 1 (Bare (.symbol .semicolon)) Anything
      (expect (.symbol .semicolon) "';' after field declaration" >>= fun _ =>
        lastSpan >>= fun span => pure (⟨name, tag, start.through span⟩ : Slot)) :=
    fun n => viable_expect_spanned rfl _
  rw [at?_bind]
  refine Viable.resumes (viable_current_bind (productive_current_bind (hend 0).productive)
    fun t => ?_)
  split
  · exact ViableFrom.current_bind (viableFrom_reject rfl (by simp))
  · exact (hend _).from t

/-! ## Blocks -/

/-- The tokens that close a block. -/
def Closes (closers : List Keyword) : Token → Prop :=
  fun t => ∃ word ∈ closers, t.kind = .keyword word

instance (closers : List Keyword) (t : Token) : Decidable (Closes closers t) :=
  inferInstanceAs (Decidable (∃ word ∈ closers, t.kind = .keyword word))

theorem Closes.mono {closers closers' : List Keyword} (h : closers ⊆ closers') :
    ∀ t, Closes closers t → Closes closers' t := by
  rintro t ⟨word, hword, hk⟩
  exact ⟨word, h hword, hk⟩

/-- A token of another kind does not close a block. -/
theorem Closes.kind_ne {closers : List Keyword} {word : Keyword} (h : word ∉ closers) :
    ∀ t, Closes closers t → t.kind ≠ .keyword word := by
  rintro t ⟨closer, hcloser, hk⟩ hword
  rw [hword] at hk
  cases hk
  exact h hcloser

theorem atOneOf_bind {α : Type} (words : List Keyword) (f : Bool → Scan α) :
    atOneOf words >>= f = current >>= fun t => f (Closes words t) := by
  rw [atOneOf, bind_assoc]
  refine bind_congr fun t => ?_
  cases hk : t.kind <;> simp [Closes, hk]

/-- A block, if its statements are viable on as many tokens. -/
theorem viable_block {closers : List Keyword} {what : String}
    (hstmt : ∀ m, 0 < m → m ≤ n → Viable m 1 (Bare (.keyword .breakKw)) Anything statement) :
    Viable n 0 (Closes closers) (Closes closers) (block closers what) := by
  induction n using Nat.strong_induction_on with
  | _ n ih =>
    rw [block, blockOver, atOneOf_bind]
    refine viable_unless (Closes closers) (q := pure []) (fun t ht => ?_)
      (viable_pure (fun _ => id) []) (fun t ht => ?_) (fun _ => id) fun _ => id
    · simp [ht]
    simp only [ht, decide_false, Bool.false_eq_true, if_false]
    refine ViableFrom.current_bind ?_
    split
    · exact viableFrom_failExpected what
    · refine viableFrom_of_pos fun m hm => ?_
      subst hm
      have hmore := ih m (Nat.lt_succ_self m) fun m' hpos hle => hstmt m' hpos (by omega)
      exact ((hstmt (m + 1) (by omega) (Nat.le_refl _)).bind
        (fun first => hmore.bind_pure (.inr fun _ => id) _) (fun _ _ => trivial)
        (.inr fun _ _ => trivial)).from t

theorem viable_closed {S F : Token → Prop} {start : Span} {what : String} {part : Scan Stmt}
    (h : Viable n 1 S F part) (hF : F ⟨.symbol .semicolon, {}⟩) :
    Viable n 1 S Anything (closed start what part) :=
  h.bind_expect (.inl Nat.one_pos) rfl hF fun _ _ => viable_spanned _

section Statements

variable (hstmt : ∀ m, m < n → Viable m 1 (Bare (.keyword .breakKw)) Anything statement)

include hstmt

/-- A block behind the first token of a statement. -/
theorem viable_body {m : Nat} (hm : m ≤ n - 1) (closers : List Keyword) (what : String) :
    Viable m 0 (Closes closers) (Closes closers) (block closers what) :=
  viable_block fun m' _ hm' => hstmt m' (by omega)

theorem viable_elifs {m : Nat} (hm : m ≤ n - 1) :
    Viable m 0 (Closes [.elseKw, .endIfKw]) (Closes [.elseKw, .endIfKw]) elifs := by
  have hother : ∀ t, Closes [.elseKw, .endIfKw] t → t.kind ≠ .keyword .elifKw :=
    Closes.kind_ne (by decide)
  have hclosers : ∀ t, Closes [.elseKw, .endIfKw] t → Closes Parser.branchClosers t :=
    Closes.mono (by decide)
  induction m using Nat.strong_induction_on with
  | _ m ih =>
    rw [elifs]
    refine viable_eat_bind_optional (fun m' hm' => ?_) (viable_pure (fun _ => id) []) hother hother
    refine resumes_bind_expect (viable_expression m') rfl (by decide) fun condition _ => ?_
    have hbody := viable_body hstmt (m := m' - 1) (by omega) Parser.branchClosers "'endif'"
    have hmore := ih (m' - 1) (by omega) (by omega)
    exact (viable_bind hbody (fun body => hmore.bind_pure (.inr fun _ => id) _) hclosers
      (.inr hclosers) (.inr hclosers)).resumes

theorem viable_ifStatement (start : Span) : Viable n 1 (Bare (.keyword .ifKw)) Anything
    (ifStatement (block Parser.branchClosers "'endif'") elifs (block [.endIfKw] "'endif'")
      start) := by
  have hclosers : ∀ t, Closes [.elseKw, .endIfKw] t → Closes Parser.branchClosers t :=
    Closes.mono (by decide)
  refine viable_expect_bind rfl fun _ => ?_
  refine resumes_bind_expect (viable_expression _) rfl (by decide) fun condition _ => ?_
  have hbody := viable_body hstmt (m := n - 1 - 1) (by omega) Parser.branchClosers "'endif'"
  have helifs := viable_elifs hstmt (m := n - 1 - 1) (by omega)
  refine Viable.resumes (hbody.bind_optional (fun body => helifs.bind_optional (fun branches =>
      viable_eat_bind (fun m hm => ?_) (viable_pure_bind (viable_expect_spanned rfl _))
        (of_bare (by decide)))
    (of_bare (by decide)) (of_bare (by decide))) hclosers hclosers)
  have hotherwise := viable_body hstmt (m := m) (by omega) [.endIfKw] "'endif'"
  exact resumes_bind_expect (hotherwise.map (.inr fun _ => id) some) rfl (by decide)
    fun _ _ => viable_spanned _

theorem viable_whileStatement (start : Span) : Viable n 1 (Bare (.keyword .whileKw)) Anything
    (whileStatement (block [.endWhileKw] "'endwhile'") start) := by
  refine viable_expect_bind rfl fun _ => ?_
  refine resumes_bind_expect (viable_expression _) rfl (by decide) fun condition _ => ?_
  exact resumes_bind_expect (viable_body hstmt (by omega) _ _) rfl (by decide)
    fun body _ => viable_spanned _

theorem viable_forStatement (start : Span) : Viable n 1 (Bare (.keyword .forKw)) Anything
    (forStatement (block [.endForKw] "'endfor'") start) := by
  have hclause : ∀ m close, BeyondBut .equal ⟨.symbol close, {}⟩ →
      Viable m 0 (Bare (.symbol close)) (Bare (.symbol close)) (unlessAt close simpleStatement) :=
    fun m close hclose => viable_unlessAt (viable_simpleStatement m) hclose
  have hcondition : ∀ m, Viable m 0 (Bare (.symbol .semicolon)) (Bare (.symbol .semicolon))
      (unlessAt .semicolon expression) :=
    fun m => viable_unlessAt (viable_expression m) (by decide)
  refine viable_expect_bind rfl fun _ => ?_
  refine resumes_expect_bind rfl fun _ => ?_
  refine resumes_bind_expect (hclause _ _ (by decide)) rfl rfl fun init _ => ?_
  refine resumes_bind_expect (hcondition _) rfl rfl fun condition _ => ?_
  refine resumes_bind_expect (hclause _ _ (by decide)) rfl rfl fun increment _ => ?_
  refine resumes_expect_bind rfl fun _ => ?_
  exact resumes_bind_expect (viable_body hstmt (by omega) _ _) rfl (by decide)
    fun body _ => viable_spanned _

theorem viable_functionDecl : Viable n 1 (Bare (.keyword .funcKw)) Anything
    (functionDecl (block [.endFuncKw] "'endfunc'")) := by
  have hparams : ∀ m, Viable m 1 (Bare (.symbol .rightParen)) Anything
      (itemsUntil .rightParen "')' after parameters" severalParameters) :=
    fun m => viable_itemsUntil (viable_severalParameters m) (by simp)
  refine viable_expect_bind rfl fun start => ?_
  refine resumes_typeTag_bind fun returns => ?_
  refine resumes_identifier_bind fun name => ?_
  refine resumes_expect_bind rfl fun _ => ?_
  refine resumes_bind_expect (hparams _) rfl trivial fun params _ => ?_
  exact resumes_bind_expect (viable_body hstmt (by omega) _ _) rfl (by decide)
    fun body _ => viable_spanned _

theorem viable_members {m : Nat} (hm : m ≤ n - 1) :
    Viable m 0 (Closes [.endClassKw]) (Closes [.endClassKw]) members := by
  induction m using Nat.strong_induction_on with
  | _ m ih =>
    rw [members]
    refine viable_unless (Closes [.endClassKw]) (q := pure ([], [])) (fun t ht => ?_)
      (viable_pure (fun _ => id) _) (fun t ht => viableFrom_of_pos fun m' hm' => ?_) (fun _ => id)
      fun _ => id
    · obtain ⟨word, hword, hk⟩ := ht
      cases List.mem_singleton.mp hword
      rw [hk]
    subst hm'
    have hmore : ∀ g : List Slot × List Func → List Slot × List Func,
        Viable m' 0 (Closes [.endClassKw]) (Closes [.endClassKw])
          (members >>= fun r => pure (g r)) :=
      (ih m' (Nat.lt_succ_self m') (by omega)).bind_pure (.inr fun _ => id)
    cases hk : t.kind with
    | keyword word =>
      cases word with
      | endClassKw => exact absurd ⟨_, List.mem_cons_self, hk⟩ ht
      | setKw =>
        have hfield := viable_fieldDeclaration (m' + 1)
        exact (hfield.bind (fun field => hmore fun r => (field :: r.1, r.2)) (fun _ _ => trivial)
          (.inr fun _ _ => trivial)).from t
      | funcKw =>
        have hmethod : Viable (m' + 1) 1 _ _ _ := (viable_functionDecl hstmt).of_le (by omega)
        exact (hmethod.bind (fun method => hmore fun r => (r.1, method :: r.2))
          (fun _ _ => trivial) (.inr fun _ _ => trivial)).from t
      | _ => exact viableFrom_failExpected _
    | _ => exact viableFrom_failExpected _

theorem viable_classDecl :
    Viable n 1 (Bare (.keyword .classKw)) Anything (classDecl members) := by
  refine viable_expect_bind rfl fun start => ?_
  refine resumes_identifier_bind fun name => ?_
  have hother : ∀ t, Closes [.endClassKw] t → t.kind ≠ .keyword .doKw :=
    Closes.kind_ne (by decide)
  refine resumes_eat_bind (fun _ m hm => ?_) hother
  exact (viable_members hstmt (by omega)).bind_expect (.inr (by decide)) rfl (by decide)
    fun (fields, methods) _ => viable_spanned _

/-- Statements, if those nested in them are viable on fewer tokens. -/
theorem viable_statement_of_lt : Viable n 1 (Bare (.keyword .breakKw)) Anything statement := by
  have hword : ∀ (word : Keyword) {start what} (s : Stmt), Viable n 1 (Bare (.keyword word))
      Anything (closed start what (advance >>= fun _ => pure s)) :=
    fun _ _ _ s => viable_closed (F := Anything)
      ((viable_advance rfl).bind_pure (.inl Nat.one_pos) _) trivial
  rw [statement]
  refine viable_current_bind (productive_current_bind ?_) fun t => ?_
  · exact (hword .breakKw _).productive
  cases t.kind with
  | keyword word =>
    cases word with
    | setKw => exact (viable_closed (viable_declaration n) (by decide)).from t
    | printKw =>
      have hprint : Viable n 1 (Bare (.keyword .printKw)) (Beyond 8)
          (advance >>= fun _ => expression >>= fun e => pure (Stmt.print e t.span)) :=
        (viable_advance rfl).bind_any
          fun _ => ((viable_expression _).bind_pure (.inl Nat.one_pos) _).resumes
      exact (viable_closed hprint (by decide)).from t
    | ifKw => exact (viable_ifStatement hstmt t.span).from t
    | whileKw => exact (viable_whileStatement hstmt t.span).from t
    | forKw => exact (viable_forStatement hstmt t.span).from t
    | funcKw => exact ((viable_functionDecl hstmt).spanned (.inl Nat.one_pos) _).from t
    | classKw => exact ((viable_classDecl hstmt).spanned (.inl Nat.one_pos) _).from t
    | breakKw => exact (hword .breakKw _).from t
    | skipKw => exact (hword .skipKw _).from t
    | returnKw =>
      have hvalue : Viable (n - 1) 0 (Bare (.symbol .semicolon)) (Bare (.symbol .semicolon))
          (unlessAt .semicolon expression) := viable_unlessAt (viable_expression _) (by decide)
      have hreturn : Viable n 1 (Bare (.keyword .returnKw)) (Bare (.symbol .semicolon))
          (advance >>= fun _ => unlessAt .semicolon expression >>= fun value =>
            pure (Stmt.giveBack value t.span)) :=
        (viable_advance rfl).bind_any fun _ => (hvalue.bind_pure (.inr fun _ => id) _).resumes
      exact (viable_closed hreturn rfl).from t
    | _ => exact (viable_closed (viable_simpleStatement n) (by decide)).from t
  | _ => exact (viable_closed (viable_simpleStatement n) (by decide)).from t

end Statements

/-- **Statements** keep what they read and are blocked where they fail. -/
theorem viable_statement (n : Nat) :
    Viable n 1 (Bare (.keyword .breakKw)) Anything statement := by
  induction n using Nat.strong_induction_on with
  | _ n ih => exact viable_statement_of_lt ih

end Scan

end Chalk
