import Chalk.Proofs.Boundary
import Chalk.Proofs.Descent
import Chalk.Proofs.Nesting

/-!
# Reading ends

Reading without bounds comes to the same end as reading with them, if some token marks an end. So it
comes to an end at all: every loop reads a token on each turn or stops, and none of them goes on at
a mark.

An input holds the tokens in front of the first mark, and a tape has the mark behind them with
whatever follows. On an input and its tape the two parsers of a part of the grammar are compared.
The bound of the one is at least the number of tokens left, and then it is not reached before the
mark.

## Main definitions

* `Input.On` — an input and the tape it is the beginning of
* `Scan.AgreesAt`, `Scan.Agrees` — the two parsers come to the same end

## Main results

* `Scan.agrees_expression`, `Scan.agrees_statement` — expressions and statements
* `scan_ends` — reading ends on all sequences of tokens
-/

namespace Chalk

/-- The tokens of the input stand at the beginning of the tape, in front of a mark. -/
def Input.On (i : Input) (tape : Tape) : Prop :=
  (∀ u ∈ i.rest, u.kind.isEnd = false) ∧
    ∃ more, tape = ⟨i.rest ++ ⟨.endOfInput, i.stop⟩ :: more, i.last⟩

namespace Scan

variable {α β : Type} {what : String} {kind : Kind} {i : Input} {tape : Tape}

/-! ## Agreement -/

/-- On the input and the tape the two parsers come to the same end. If they have a result, they have
read the same tokens. -/
def AgreesAt (p : Scan α) (q : Parser α) (i : Input) (tape : Tape) : Prop :=
  match q i with
  | .ok (a, i') => ∃ after used, p.Reads tape a after ∧ i'.On after ∧
      i.rest = used ++ i'.rest ∧ tape.rest = used ++ after.rest
  | .error e => p.Rejects tape e

/-- The two parsers come to the same end on all inputs with at most `n` tokens. -/
def Agrees (n : Nat) (p : Scan α) (q : Parser α) : Prop :=
  ∀ i tape, i.On tape → i.rest.length ≤ n → AgreesAt p q i tape

theorem Agrees.mono {n n' : Nat} {p : Scan α} {q : Parser α} (h : Agrees n p q) (hle : n' ≤ n) :
    Agrees n' p q :=
  fun i tape hi hn => h i tape hi (Nat.le_trans hn hle)

/-- The end of the parser is given. -/
theorem AgreesAt.congr {p p' : Scan α} {q q' : Parser α} (h : AgreesAt p q i tape)
    (hp : p' tape = p tape) (hq : q' i = q i) : AgreesAt p' q' i tape := by
  rw [AgreesAt] at h ⊢
  rw [hq]
  simp only [Reads, Rejects, hp]
  exact h

theorem agreesAt_pure (hi : i.On tape) (a : α) : AgreesAt (pure a) (pure a) i tape :=
  ⟨tape, [], rfl, hi, rfl, rfl⟩

theorem agreesAt_reject (e : ParseError) : AgreesAt (reject e : Scan α) (throw e) i tape := rfl

/-- One part after another. -/
theorem AgreesAt.bind {p : Scan β} {q : Parser β} {f : β → Scan α} {g : β → Parser α}
    (hp : AgreesAt p q i tape)
    (hf : ∀ b i' after, q i = .ok (b, i') → i'.On after → i'.rest.length ≤ i.rest.length →
      AgreesAt (f b) (g b) i' after) : AgreesAt (p >>= f) (q >>= g) i tape := by
  show match q i >>= fun x => g x.1 x.2 with | .ok (a, i') => _ | .error e => _
  rw [AgreesAt] at hp
  cases hq : q i with
  | error e =>
    rw [hq] at hp
    exact rejects_bind_iff.mpr (.inl hp)
  | ok r =>
    obtain ⟨b, i'⟩ := r
    rw [hq] at hp
    obtain ⟨mid, used, hreads, hmid, hused, hused'⟩ := hp
    have hends := hf b i' mid hq hmid (by rw [hused, List.length_append]; omega)
    rw [AgreesAt] at hends
    show match g b i' with | .ok (a, i') => _ | .error e => _
    cases hg : g b i' with
    | error e =>
      rw [hg] at hends
      exact rejects_bind_iff.mpr (.inr ⟨b, mid, hreads, hends⟩)
    | ok r =>
      rw [hg] at hends
      obtain ⟨after, more, hreads', hafter, hmore, hmore'⟩ := hends
      refine ⟨after, used ++ more, reads_bind_iff.mpr ⟨b, mid, hreads, hreads'⟩, hafter, ?_, ?_⟩
      · rw [hused, hmore, List.append_assoc]
      · rw [hused', hmore', List.append_assoc]

theorem AgreesAt.map {p : Scan β} {q : Parser β} (hp : AgreesAt p q i tape) (f : β → α) :
    AgreesAt (f <$> p) (f <$> q) i tape := by
  rw [map_eq_pure_bind, map_eq_pure_bind]
  exact hp.bind fun b i' after _ hi _ => agreesAt_pure hi (f b)

/-! ## Single tokens -/

theorem current_of_on (hi : i.On tape) (f : Token → Scan α) :
    (current >>= f) tape = f i.current tape := by
  obtain ⟨-, more, rfl⟩ := hi
  obtain ⟨_ | ⟨t, rest⟩, stop, last⟩ := i <;> rfl

/-- Only one of the parsers looks at the next token. -/
theorem agreesAt_look_bind {f : Token → Scan α} {q : Parser α} (hi : i.On tape)
    (h : AgreesAt (f i.current) q i tape) : AgreesAt (current >>= f) q i tape :=
  h.congr (current_of_on hi f) rfl

theorem agreesAt_current_bind {f : Token → Scan α} {g : Token → Parser α} (hi : i.On tape)
    (h : AgreesAt (f i.current) (g i.current) i tape) :
    AgreesAt (current >>= f) (Parser.current >>= g) i tape :=
  h.congr (current_of_on hi f) rfl

/-- A token that marks no end is passed over. -/
theorem agreesAt_advance_bind {f : Unit → Scan α} {g : Unit → Parser α} (hi : i.On tape)
    (hend : i.current.kind.isEnd = false)
    (h : ∀ i' after, i'.On after → i'.rest.length < i.rest.length →
      AgreesAt (f ()) (g ()) i' after) :
    AgreesAt (advance >>= f) (Parser.advance >>= g) i tape := by
  obtain ⟨hrest, more, rfl⟩ := hi
  obtain ⟨_ | ⟨t, rest⟩, stop, last⟩ := i
  · cases hend
  have hadvance : AgreesAt advance Parser.advance ⟨t :: rest, stop, last⟩
      ⟨t :: rest ++ ⟨.endOfInput, stop⟩ :: more, last⟩ := by
    refine ⟨⟨rest ++ ⟨.endOfInput, stop⟩ :: more, t.span⟩, [t], ?_, ⟨?_, more, rfl⟩, rfl, rfl⟩
    · show (if t.kind.isEnd = true then _ else _) = _
      rw [if_neg (by rw [hrest t List.mem_cons_self]; decide)]
      rfl
    · exact fun u hu => hrest u (List.mem_cons_of_mem t hu)
  refine hadvance.bind ?_
  rintro _ _ after ⟨⟩ hafter -
  exact h _ after hafter (Nat.lt_succ_self rest.length)

theorem agreesAt_lastSpan_bind {f : Span → Scan α} {g : Span → Parser α} (hi : i.On tape)
    (h : AgreesAt (f i.last) (g i.last) i tape) :
    AgreesAt (lastSpan >>= f) (Parser.lastSpan >>= g) i tape := by
  obtain ⟨-, more, rfl⟩ := hi
  exact h.congr rfl rfl

theorem agreesAt_failExpected (hi : i.On tape) :
    AgreesAt (failExpected what : Scan α) (Parser.failExpected what) i tape :=
  agreesAt_current_bind hi (agreesAt_reject _)

theorem agreesAt_at?_bind {f : Bool → Scan α} {g : Bool → Parser α} (hi : i.On tape)
    (h : ∀ found, AgreesAt (f found) (g found) i tape) :
    AgreesAt (at? kind >>= f) (Parser.at? kind >>= g) i tape := by
  rw [at?_bind, Parser.at?_bind]
  exact agreesAt_current_bind hi (h _)

theorem agreesAt_eat_bind {f : Bool → Scan α} {g : Bool → Parser α} (hkind : kind.isEnd = false)
    (hi : i.On tape)
    (htrue : ∀ i' after, i'.On after → i'.rest.length < i.rest.length →
      AgreesAt (f true) (g true) i' after)
    (hfalse : AgreesAt (f false) (g false) i tape) :
    AgreesAt (eat kind >>= f) (Parser.eat kind >>= g) i tape := by
  rw [eat_bind, Parser.eat_bind]
  refine agreesAt_current_bind hi ?_
  split
  · rename_i hfound
    exact agreesAt_advance_bind hi (by rwa [eq_of_beq hfound]) htrue
  · exact hfalse

theorem agreesAt_eat (hkind : kind.isEnd = false) (hi : i.On tape) :
    AgreesAt (eat kind) (Parser.eat kind) i tape := by
  rw [← bind_pure (eat kind), ← bind_pure (Parser.eat kind)]
  exact agreesAt_eat_bind hkind hi (fun _ _ h₁ _ => agreesAt_pure h₁ true) (agreesAt_pure hi false)

theorem agreesAt_expect_bind {f : Span → Scan α} {g : Span → Parser α}
    (hkind : kind.isEnd = false) (hi : i.On tape)
    (h : ∀ span i' after, i'.On after → i'.rest.length < i.rest.length →
      AgreesAt (f span) (g span) i' after) :
    AgreesAt (expect kind what >>= f) (Parser.expect kind what >>= g) i tape := by
  rw [expect_bind, Parser.expect_bind]
  refine agreesAt_current_bind hi ?_
  split
  · rename_i hfound
    exact agreesAt_advance_bind hi (by rwa [eq_of_beq hfound]) (h i.current.span)
  · exact agreesAt_failExpected hi

theorem agreesAt_identifier (hi : i.On tape) :
    AgreesAt (identifier what) (Parser.identifier what) i tape := by
  rw [identifier, Parser.identifier]
  refine agreesAt_current_bind hi ?_
  cases hk : i.current.kind with
  | identifier name =>
    exact agreesAt_advance_bind hi (by rw [hk]; rfl) fun _ _ h₁ _ => agreesAt_pure h₁ name
  | _ => exact agreesAt_failExpected hi

theorem agreesAt_typeTag {allowVoid : Bool} (hi : i.On tape) :
    AgreesAt (typeTag allowVoid) (Parser.typeTag allowVoid) i tape := by
  rw [typeTag, Parser.typeTag]
  refine agreesAt_current_bind hi ?_
  have hpass : i.current.kind.isEnd = false → ∀ tag : TypeTag,
      AgreesAt (advance >>= fun _ => pure tag) (Parser.advance >>= fun _ => pure tag) i tape :=
    fun hend tag => agreesAt_advance_bind hi hend fun _ _ h₁ _ => agreesAt_pure h₁ tag
  cases hk : i.current.kind with
  | identifier name => exact hpass (by rw [hk]; rfl) _
  | keyword word =>
    rw [hk] at hpass
    cases word with
    | numberKw | stringKw | booleanKw | listKw | dictKw => exact hpass rfl _
    | voidKw =>
      cases allowVoid with
      | true => exact hpass rfl _
      | false => exact agreesAt_reject _
    | _ => exact agreesAt_failExpected hi
  | _ => exact agreesAt_failExpected hi

/-! ## The mark -/

/-- At a mark nothing is eaten. -/
theorem agreesAt_eat_bind_of_nil {f : Bool → Scan α} {q : Parser α} (hkind : kind.isEnd = false)
    (hi : i.On tape) (hnil : i.rest = []) (hfalse : AgreesAt (f false) q i tape) :
    AgreesAt (eat kind >>= f) q i tape := by
  rw [eat_bind]
  refine agreesAt_look_bind hi ?_
  rw [Parser.current_of_nil hnil, Parser.beq_endOfInput hkind]
  exact hfalse

theorem rest_eq_nil {n m : Nat} (hm : m ≤ n) (hn : n ≤ 0) (hi : i.rest.length ≤ m) :
    i.rest = [] :=
  List.length_eq_zero_iff.mp (by omega)

/-- At a mark a parser may be exchanged for another one that fails there alike. -/
theorem AgreesAt.of_failsAtEnd {p : Scan α} {q q' : Parser α} (h : AgreesAt p q i tape)
    (hnil : i.rest = []) (hq : Parser.FailsAtEnd what q) (hq' : Parser.FailsAtEnd what q') :
    AgreesAt p q' i tape :=
  h.congr rfl (by rw [hq i hnil, hq' i hnil])

/-! ## Repeated and optional parts -/

variable {n m bound turns : Nat}

theorem agrees_itemsUntil {close : Symbol} {several : Scan (List α)} {item : Parser α}
    (hitems : Agrees n several (Parser.commaSeparated item bound)) :
    Agrees n (itemsUntil close what several) (Parser.itemsUntil close what item bound) := by
  intro i tape hi hn
  have hclose : ∀ (items : List α) i' after, i'.On after →
      AgreesAt (expect (.symbol close) what >>= fun _ => pure items)
        (Parser.expect (.symbol close) what >>= fun _ => pure items) i' after :=
    fun items i' after hafter => agreesAt_expect_bind rfl hafter fun _ _ _ h₁ _ =>
      agreesAt_pure h₁ items
  refine agreesAt_at?_bind hi fun found => ?_
  cases found with
  | true => exact (agreesAt_pure hi []).bind fun items i' after _ h _ => hclose items i' after h
  | false => exact (hitems i tape hi hn).bind fun items i' after _ h _ => hclose items i' after h

theorem agrees_unlessAt {close : Symbol} {part : Scan α} {part' : Parser α}
    (hpart : Agrees n part part') :
    Agrees n (unlessAt close part) (Parser.unlessAt close part') := by
  intro i tape hi hn
  refine agreesAt_at?_bind hi fun found => ?_
  cases found with
  | true => exact agreesAt_pure hi none
  | false => exact (hpart i tape hi hn).map some

/-- Items with commas between them. -/
theorem agrees_commaSeparated {several : Scan (List α)} {item : Scan α} {item' : Parser α}
    (hseveral : several = severalOver item several)
    (hn : n ≤ turns) (hitem : Agrees n item item') :
    Agrees n several (Parser.commaSeparated item' turns) := by
  induction turns generalizing n with
  | zero =>
    intro i tape hi hi'
    rw [hseveral]
    refine (hitem i tape hi hi').bind fun first i₁ after _ h₁ l₁ => ?_
    exact agreesAt_eat_bind_of_nil rfl h₁ (rest_eq_nil (Nat.le_trans l₁ hi') hn (Nat.le_refl _))
      (agreesAt_pure h₁ [first])
  | succ turns ih =>
    intro i tape hi hi'
    rw [hseveral]
    refine (hitem i tape hi hi').bind fun first i₁ after _ h₁ l₁ => ?_
    refine agreesAt_eat_bind rfl h₁ (fun i₂ after₂ h₂ l₂ => ?_) (agreesAt_pure h₁ [first])
    have hmore := ih (n := i₂.rest.length) (by omega) (hitem.mono (by omega)) i₂ after₂ h₂
      (Nat.le_refl _)
    exact hmore.bind fun others i₃ after₃ _ h₃ _ => agreesAt_pure h₃ (first :: others)

/-! ## Expressions -/

section Expressions

variable {inner : Parser Expr}

theorem agrees_dictEntry (hinner : Agrees n (level 8) inner) :
    Agrees n (dictEntry (level 8)) (Parser.dictEntry inner) := by
  intro i tape hi hn
  refine (hinner i tape hi hn).bind fun key i₁ _ _ h₁ l₁ => ?_
  refine agreesAt_expect_bind rfl h₁ fun _ i₂ _ h₂ l₂ => ?_
  refine (hinner i₂ _ h₂ (by omega)).bind fun value i₃ _ _ h₃ _ => ?_
  exact agreesAt_pure h₃ (key, value)

theorem agrees_several (hn : n ≤ turns) (hinner : Agrees n (level 8) inner) :
    Agrees n several (Parser.commaSeparated inner turns) :=
  agrees_commaSeparated several.eq_1 hn hinner

theorem agrees_severalEntries (hn : n ≤ turns) (hinner : Agrees n (level 8) inner) :
    Agrees n severalEntries (Parser.commaSeparated (Parser.dictEntry inner) turns) :=
  agrees_commaSeparated severalEntries.eq_1 hn (agrees_dictEntry hinner)

/-- The two parsers agree on all inputs with fewer than `n` tokens. -/
def AgreesBelow (n : Nat) (p : Scan α) (q : Parser α) : Prop := ∀ m, m < n → Agrees m p q

theorem AgreesBelow.at {p : Scan α} {q : Parser α} (h : AgreesBelow n p q) (hi : i.On tape)
    (hn : i.rest.length < n) : AgreesAt p q i tape :=
  h _ hn i tape hi (Nat.le_refl _)

theorem agrees_primary (hn : n ≤ bound) (hinner : AgreesBelow n (level 8) inner) :
    Agrees n (level 0) (Parser.primary inner bound) := by
  intro i tape hi hi'
  rw [level, Parser.primary]
  refine agreesAt_current_bind hi ?_
  have hpass : i.current.kind.isEnd = false → ∀ e : Expr,
      AgreesAt (advance >>= fun _ => pure e) (Parser.advance >>= fun _ => pure e) i tape :=
    fun hend e => agreesAt_advance_bind hi hend fun _ _ h₁ _ => agreesAt_pure h₁ e
  cases hk : i.current.kind with
  | number value | string content | identifier name => exact hpass (by rw [hk]; rfl) _
  | keyword word =>
    rw [hk] at hpass
    cases word with
    | trueKw | falseKw | thisKw => exact hpass rfl _
    | _ => exact agreesAt_failExpected hi
  | symbol sign =>
    have hend : i.current.kind.isEnd = false := by rw [hk]; rfl
    cases sign with
    | leftParen =>
      refine agreesAt_advance_bind hi hend fun i₁ _ h₁ l₁ => ?_
      refine (hinner.at h₁ (by omega)).bind fun e i₂ _ _ h₂ _ => ?_
      exact agreesAt_expect_bind rfl h₂ fun _ _ _ h₃ _ => agreesAt_pure h₃ e
    | leftBracket =>
      refine agreesAt_advance_bind hi hend fun i₁ _ h₁ l₁ => ?_
      have hitems : Agrees i₁.rest.length several (Parser.commaSeparated inner bound) :=
        agrees_several (by omega) (hinner _ (by omega))
      refine (agrees_itemsUntil hitems i₁ _ h₁ (Nat.le_refl _)).bind fun items i₂ _ _ h₂ _ => ?_
      exact agreesAt_lastSpan_bind h₂ (agreesAt_pure h₂ _)
    | leftBrace =>
      refine agreesAt_advance_bind hi hend fun i₁ _ h₁ l₁ => ?_
      have hitems : Agrees i₁.rest.length severalEntries
          (Parser.commaSeparated (Parser.dictEntry inner) bound) :=
        agrees_severalEntries (by omega) (hinner _ (by omega))
      refine (agrees_itemsUntil hitems i₁ _ h₁ (Nat.le_refl _)).bind fun items i₂ _ _ h₂ _ => ?_
      exact agreesAt_lastSpan_bind h₂ (agreesAt_pure h₂ _)
    | _ => exact agreesAt_failExpected hi
  | endOfInput => exact agreesAt_failExpected hi

theorem agrees_suffixes (hn : n ≤ bound) (hinner : AgreesBelow n (level 8) inner)
    (hm : m ≤ n) (hturns : m ≤ turns) (e : Expr) :
    Agrees m (suffixes e) (Parser.suffixes inner bound turns e) := by
  induction turns generalizing m e with
  | zero =>
    intro i tape hi hi'
    have hnil := rest_eq_nil (Nat.le_refl m) hturns hi'
    rw [suffixes]
    refine agreesAt_eat_bind_of_nil rfl hi hnil (agreesAt_eat_bind_of_nil rfl hi hnil ?_)
    exact agreesAt_eat_bind_of_nil rfl hi hnil (agreesAt_pure hi e)
  | succ turns ih =>
    intro i tape hi hi'
    rw [suffixes, Parser.suffixes]
    have hmore : ∀ e (i' : Input) after, i'.On after → i'.rest.length < i.rest.length →
        AgreesAt (suffixes e) (Parser.suffixes inner bound turns e) i' after :=
      fun e i' after h' l' => ih (m := i'.rest.length) (by omega) (by omega) e i' after h'
        (Nat.le_refl _)
    refine agreesAt_eat_bind rfl hi (fun i₁ _ h₁ l₁ => ?_) ?_
    · have hitems : Agrees i₁.rest.length several (Parser.commaSeparated inner bound) :=
        agrees_several (by omega) (hinner _ (by omega))
      refine (agrees_itemsUntil hitems i₁ _ h₁ (Nat.le_refl _)).bind fun _ i₂ _ _ h₂ _ => ?_
      exact agreesAt_lastSpan_bind h₂ (hmore _ i₂ _ h₂ (by omega))
    refine agreesAt_eat_bind rfl hi (fun i₁ _ h₁ l₁ => ?_) ?_
    · refine (agreesAt_identifier h₁).bind fun _ i₂ _ _ h₂ _ => ?_
      exact agreesAt_lastSpan_bind h₂ (hmore _ i₂ _ h₂ (by omega))
    refine agreesAt_eat_bind rfl hi (fun i₁ _ h₁ l₁ => ?_) (agreesAt_pure hi e)
    refine (hinner.at h₁ (by omega)).bind fun _ i₂ _ _ h₂ _ => ?_
    refine agreesAt_expect_bind rfl h₂ fun _ i₃ _ h₃ _ => ?_
    exact agreesAt_lastSpan_bind h₃ (hmore _ i₃ _ h₃ (by omega))

theorem agrees_unary {operand : Parser Expr} (hoperand : Agrees n (level 1) operand)
    (hm : m ≤ n) (hturns : m ≤ turns) : Agrees m (level 2) (Parser.unary operand turns) := by
  induction turns generalizing m with
  | zero =>
    intro i tape hi hi'
    rw [level.eq_3]
    refine agreesAt_look_bind hi ?_
    rw [Parser.current_of_nil (rest_eq_nil (Nat.le_refl m) hturns hi')]
    exact hoperand i tape hi (Nat.le_trans hi' hm)
  | succ turns ih =>
    intro i tape hi hi'
    rw [level.eq_3, Parser.unary]
    refine agreesAt_current_bind hi ?_
    cases hop : Parser.unary? i.current.kind with
    | none => exact hoperand i tape hi (Nat.le_trans hi' hm)
    | some op =>
      have hend : i.current.kind.isEnd = false := by
        cases hk : i.current.kind with
        | endOfInput =>
          rw [hk] at hop
          cases hop
        | _ => rfl
      refine agreesAt_advance_bind hi hend fun i₁ _ h₁ l₁ => ?_
      have hagain := ih (m := i₁.rest.length) (by omega) (by omega) i₁ _ h₁ (Nat.le_refl _)
      exact hagain.bind fun e i₂ _ _ h₂ _ => agreesAt_pure h₂ _

theorem agrees_power {base : Parser Expr} (hbase : Agrees n (level 2) base) (hm : m ≤ n)
    (hturns : m ≤ turns) : Agrees m (level 3) (Parser.power base turns) := by
  induction turns generalizing m with
  | zero =>
    intro i tape hi hi'
    rw [level.eq_4, show Parser.power base 0 = base >>= pure from (bind_pure base).symm]
    refine (hbase i tape hi (Nat.le_trans hi' hm)).bind fun b i₁ after _ h₁ l₁ => ?_
    have hnil := rest_eq_nil (Nat.le_trans l₁ hi') hturns (Nat.le_refl _)
    exact agreesAt_eat_bind_of_nil rfl h₁ hnil (agreesAt_pure h₁ b)
  | succ turns ih =>
    intro i tape hi hi'
    rw [level.eq_4, Parser.power]
    refine (hbase i tape hi (Nat.le_trans hi' hm)).bind fun b i₁ _ _ h₁ l₁ => ?_
    refine agreesAt_eat_bind rfl h₁ (fun i₂ _ h₂ l₂ => ?_) (agreesAt_pure h₁ b)
    have hagain := ih (m := i₂.rest.length) (by omega) (by omega) i₂ _ h₂ (Nat.le_refl _)
    exact hagain.bind fun e i₃ _ _ h₃ _ => agreesAt_pure h₃ _

theorem agrees_operands {rank : Nat} {operand : Parser Expr} (hrank : 4 ≤ rank) (hle : rank ≤ 8)
    (hoperand : Agrees n (level (rank - 1)) operand) (hm : m ≤ n) (hturns : m ≤ turns)
    (left : Expr) :
    Agrees m (operands rank left)
      (Parser.operands operand (Parser.operator? rank) turns left) := by
  have hend : ∀ (k : Kind) combine, Parser.operator? rank k = some combine → k.isEnd = false := by
    intro k combine hop
    have hjoins := Parser.joins_of_operator? hrank hle hop
    cases k with
    | endOfInput => exact absurd (hjoins ▸ hle) (by decide)
    | _ => rfl
  induction turns generalizing m left with
  | zero =>
    intro i tape hi hi'
    rw [operands]
    refine agreesAt_look_bind hi ?_
    rw [Parser.current_of_nil (rest_eq_nil (Nat.le_refl m) hturns hi')]
    cases hop : Parser.operator? rank .endOfInput with
    | none => exact agreesAt_pure hi left
    | some combine => cases hend _ _ hop
  | succ turns ih =>
    intro i tape hi hi'
    rw [operands, Parser.operands]
    refine agreesAt_current_bind hi ?_
    cases hop : Parser.operator? rank i.current.kind with
    | none => exact agreesAt_pure hi left
    | some combine =>
      refine agreesAt_advance_bind hi (hend _ _ hop) fun i₁ _ h₁ l₁ => ?_
      refine (hoperand i₁ _ h₁ (by omega)).bind fun right i₂ _ _ h₂ l₂ => ?_
      exact ih (m := i₂.rest.length) (by omega) (by omega) _ i₂ _ h₂ (Nat.le_refl _)

/-- **The parsers of a rank agree**, if those of nested expressions agree on fewer tokens. -/
theorem agrees_level (hn : n ≤ bound) (hinner : AgreesBelow n (level 8) inner) (rank : Nat)
    (hrank : rank ≤ 8) {turns : Nat} (hturns : n ≤ turns) :
    Agrees n (level rank) (Parser.reader inner bound rank turns) := by
  match rank with
  | 0 => exact agrees_primary hn hinner
  | 1 =>
    intro i tape hi hi'
    rw [level.eq_2]
    refine (agrees_primary hn hinner i tape hi hi').bind fun e i₁ _ _ h₁ l₁ => ?_
    exact agrees_suffixes hn hinner (Nat.le_refl n) hturns e i₁ _ h₁ (Nat.le_trans l₁ hi')
  | 2 => exact agrees_unary (agrees_level hn hinner 1 (by decide) hn) (Nat.le_refl n) hturns
  | 3 => exact agrees_power (agrees_level hn hinner 2 (by decide) hn) (Nat.le_refl n) hturns
  | rank + 4 =>
    have hoperand := agrees_level hn hinner (rank + 3) (by omega) hn
    intro i tape hi hi'
    rw [level.eq_5]
    refine (hoperand i tape hi hi').bind fun first i₁ _ _ h₁ l₁ => ?_
    exact agrees_operands (by omega) hrank hoperand (Nat.le_refl n) hturns first i₁ _ h₁
      (Nat.le_trans l₁ hi')

/-- **The parsers of expressions agree.** -/
theorem agrees_expression (hn : n ≤ bound) : Agrees n expression (Parser.expression bound) := by
  induction bound generalizing n with
  | zero =>
    intro i tape hi hi'
    have hnil := rest_eq_nil (Nat.le_refl n) hn hi'
    have hreader : AgreesAt (level 8) (Parser.expression 1) i tape :=
      agrees_level (n := 0) (Nat.zero_le _) nofun 8 (Nat.le_refl 8) (Nat.zero_le _) i tape hi
        (by omega)
    exact hreader.of_failsAtEnd hnil (Parser.failsAtEnd_expression 1)
      (Parser.failsAtEnd_expression 0)
  | succ bound ih =>
    exact agrees_level hn (fun m hm => ih (by omega)) 8 (Nat.le_refl 8) hn

end Expressions

/-! ## Clauses -/

theorem agrees_declaration {expr : Parser Expr} (hexpr : Agrees n expression expr) :
    Agrees n declaration (Parser.declaration expr) := by
  intro i tape hi hn
  refine agreesAt_expect_bind rfl hi fun start i₁ _ h₁ l₁ => ?_
  refine (agreesAt_eat rfl h₁).bind fun constant i₂ _ _ h₂ l₂ => ?_
  refine (agreesAt_typeTag h₂).bind fun tag i₃ _ _ h₃ l₃ => ?_
  refine (agreesAt_identifier h₃).bind fun name i₄ _ _ h₄ l₄ => ?_
  refine agreesAt_eat_bind rfl h₄ (fun i₅ _ h₅ l₅ => ?_) ?_
  · refine ((hexpr i₅ _ h₅ (by omega)).map some).bind fun initial i₆ _ _ h₆ _ => ?_
    exact agreesAt_lastSpan_bind h₆ (agreesAt_pure h₆ _)
  · refine (agreesAt_pure h₄ none).bind fun initial i₆ _ _ h₆ _ => ?_
    exact agreesAt_lastSpan_bind h₆ (agreesAt_pure h₆ _)

theorem agrees_simpleStatement {expr : Parser Expr} (hexpr : Agrees n expression expr) :
    Agrees n simpleStatement (Parser.simpleStatement expr) := by
  intro i tape hi hn
  refine agreesAt_current_bind hi (agreesAt_at?_bind hi fun found => ?_)
  cases found with
  | true => exact agrees_declaration hexpr i tape hi hn
  | false =>
    refine (hexpr i tape hi hn).bind fun e i₁ _ _ h₁ l₁ => ?_
    refine agreesAt_eat_bind rfl h₁ (fun i₂ _ h₂ l₂ => ?_) (agreesAt_pure h₁ _)
    simp only [if_true]
    cases e.toTarget? with
    | none => exact agreesAt_reject _
    | some target =>
      refine (hexpr i₂ _ h₂ (by omega)).bind fun value i₃ _ _ h₃ _ => ?_
      exact agreesAt_lastSpan_bind h₃ (agreesAt_pure h₃ _)

theorem agrees_parameter : Agrees n parameter Parser.parameter := by
  intro i tape hi hn
  refine agreesAt_current_bind hi ((agreesAt_typeTag hi).bind fun tag i₁ _ _ h₁ _ => ?_)
  refine (agreesAt_identifier h₁).bind fun name i₂ _ _ h₂ _ => ?_
  exact agreesAt_lastSpan_bind h₂ (agreesAt_pure h₂ _)

theorem agreesAt_fieldDeclaration (hi : i.On tape) :
    AgreesAt fieldDeclaration Parser.fieldDeclaration i tape := by
  refine agreesAt_expect_bind rfl hi fun start i₁ _ h₁ _ => ?_
  refine (agreesAt_typeTag h₁).bind fun tag i₂ _ _ h₂ _ => ?_
  refine (agreesAt_identifier h₂).bind fun name i₃ _ _ h₃ _ => ?_
  refine agreesAt_at?_bind h₃ fun found => ?_
  cases found with
  | true => exact agreesAt_current_bind h₃ (agreesAt_reject _)
  | false =>
    refine agreesAt_expect_bind rfl h₃ fun _ i₄ _ h₄ _ => ?_
    exact agreesAt_lastSpan_bind h₄ (agreesAt_pure h₄ _)

/-! ## Blocks -/

section Statements

variable {stmt : Parser Stmt}

theorem agreesAt_atOneOf_bind {words : List Keyword} {f : Bool → Scan α} {g : Bool → Parser α}
    (hi : i.On tape) (h : ∀ found, AgreesAt (f found) (g found) i tape) :
    AgreesAt (atOneOf words >>= f) (Parser.atOneOf words >>= g) i tape := by
  rw [atOneOf, Parser.atOneOf, bind_assoc, bind_assoc]
  refine agreesAt_current_bind hi ?_
  cases i.current.kind with
  | keyword word => exact h _
  | _ => exact h false

/-- A block reads its statements as long as they take a token each. -/
theorem agrees_block {closers : List Keyword} (hcons : Parser.Consumes stmt)
    (hstmt : Agrees n statement stmt) (hm : m ≤ n) (hturns : m ≤ turns) :
    Agrees m (block closers what) (Parser.block stmt closers what turns) := by
  induction turns generalizing m with
  | zero =>
    intro i tape hi hi'
    rw [block, Parser.block]
    refine agreesAt_atOneOf_bind hi fun found => ?_
    cases found with
    | true => exact agreesAt_pure hi []
    | false =>
      refine agreesAt_look_bind hi ?_
      rw [Parser.current_of_nil (rest_eq_nil (Nat.le_refl m) hturns hi')]
      exact agreesAt_failExpected hi
  | succ turns ih =>
    intro i tape hi hi'
    rw [block, Parser.block]
    refine agreesAt_atOneOf_bind hi fun found => ?_
    cases found with
    | true => exact agreesAt_pure hi []
    | false =>
      refine agreesAt_current_bind hi ?_
      split
      · exact agreesAt_failExpected hi
      refine (hstmt i tape hi (by omega)).bind fun s i₁ _ hs h₁ _ => ?_
      have hlt := hcons i s i₁ hs
      have hmore := ih (m := i₁.rest.length) (by omega) (by omega) i₁ _ h₁ (Nat.le_refl _)
      exact hmore.bind fun others i₂ _ _ h₂ _ => agreesAt_pure h₂ (s :: others)

theorem agrees_elifs {expr : Parser Expr} (hexpr : Agrees n expression expr)
    (hcons : Parser.Consumes stmt) (hstmt : Agrees n statement stmt) (hn : n ≤ bound) (hm : m ≤ n)
    (hturns : m ≤ turns) : Agrees m elifs (Parser.elifs expr stmt bound turns) := by
  induction turns generalizing m with
  | zero =>
    intro i tape hi hi'
    rw [elifs]
    exact agreesAt_eat_bind_of_nil rfl hi (rest_eq_nil (Nat.le_refl m) hturns hi')
      (agreesAt_pure hi [])
  | succ turns ih =>
    intro i tape hi hi'
    rw [elifs, Parser.elifs]
    refine agreesAt_eat_bind rfl hi (fun i₁ _ h₁ l₁ => ?_) (agreesAt_pure hi [])
    refine (hexpr i₁ _ h₁ (by omega)).bind fun condition i₂ _ _ h₂ l₂ => ?_
    refine agreesAt_expect_bind rfl h₂ fun _ i₃ _ h₃ l₃ => ?_
    refine (agrees_block hcons hstmt (Nat.le_refl n) hn i₃ _ h₃ (by omega)).bind ?_
    intro body i₄ _ _ h₄ l₄
    have hmore := ih (m := i₄.rest.length) (by omega) (by omega) i₄ _ h₄ (Nat.le_refl _)
    exact hmore.bind fun others i₅ _ _ h₅ _ => agreesAt_pure h₅ (⟨condition, body⟩ :: others)

theorem agreesAt_ifStatement {expr : Parser Expr} (hexpr : AgreesBelow n expression expr)
    (hcons : Parser.Consumes stmt) (hstmt : AgreesBelow n statement stmt) (hn : n ≤ bound)
    (start : Span) (hi : i.On tape) (hi' : i.rest.length ≤ n) :
    AgreesAt (ifStatement (block Parser.branchClosers "'endif'") elifs
        (block [.endIfKw] "'endif'") start)
      (Parser.ifStatement expr stmt bound start) i tape := by
  refine agreesAt_expect_bind rfl hi fun _ i₁ _ h₁ l₁ => ?_
  have hexpr₁ := hexpr i₁.rest.length (by omega)
  have hstmt₁ := hstmt i₁.rest.length (by omega)
  refine (hexpr₁ i₁ _ h₁ (Nat.le_refl _)).bind fun condition i₂ _ _ h₂ l₂ => ?_
  refine agreesAt_expect_bind rfl h₂ fun _ i₃ _ h₃ l₃ => ?_
  refine (agrees_block hcons hstmt₁ (m := i₃.rest.length) (by omega) (by omega) i₃ _ h₃
    (Nat.le_refl _)).bind fun body i₄ _ _ h₄ l₄ => ?_
  refine (agrees_elifs hexpr₁ hcons hstmt₁ (by omega) (m := i₄.rest.length) (by omega) (by omega)
    i₄ _ h₄ (Nat.le_refl _)).bind fun branches i₅ _ _ h₅ l₅ => ?_
  have hends : ∀ (otherwise : Option (List Stmt)) (i' : Input) after, i'.On after →
      AgreesAt (expect (.keyword .endIfKw) "'endif'" >>= fun _ => lastSpan >>= fun last =>
          pure (Stmt.branch condition body branches otherwise (start.through last)))
        (Parser.expect (.keyword .endIfKw) "'endif'" >>= fun _ => Parser.lastSpan >>= fun last =>
          pure (Stmt.branch condition body branches otherwise (start.through last))) i' after :=
    fun otherwise i' after h' => agreesAt_expect_bind rfl h' fun _ _ _ h'' _ =>
      agreesAt_lastSpan_bind h'' (agreesAt_pure h'' _)
  refine agreesAt_eat_bind rfl h₅ (fun i₆ _ h₆ l₆ => ?_) ?_
  · have hotherwise : Agrees i₆.rest.length (block [.endIfKw] "'endif'")
        (Parser.block stmt [.endIfKw] "'endif'" bound) :=
      agrees_block hcons hstmt₁ (by omega) (by omega)
    refine ((hotherwise i₆ _ h₆ (Nat.le_refl _)).map some).bind ?_
    exact fun otherwise i' after _ h' _ => hends otherwise i' after h'
  · exact (agreesAt_pure h₅ none).bind fun otherwise i' after _ h' _ => hends otherwise i' after h'

theorem agreesAt_whileStatement {expr : Parser Expr} (hexpr : AgreesBelow n expression expr)
    (hcons : Parser.Consumes stmt) (hstmt : AgreesBelow n statement stmt) (hn : n ≤ bound)
    (start : Span) (hi : i.On tape) (hi' : i.rest.length ≤ n) :
    AgreesAt (whileStatement (block [.endWhileKw] "'endwhile'") start)
      (Parser.whileStatement expr stmt bound start) i tape := by
  refine agreesAt_expect_bind rfl hi fun _ i₁ _ h₁ l₁ => ?_
  refine (hexpr.at h₁ (by omega)).bind fun condition i₂ _ _ h₂ l₂ => ?_
  refine agreesAt_expect_bind rfl h₂ fun _ i₃ _ h₃ l₃ => ?_
  refine (agrees_block hcons (hstmt i₃.rest.length (by omega)) (Nat.le_refl _) (by omega) i₃ _ h₃
    (Nat.le_refl _)).bind fun body i₄ _ _ h₄ _ => ?_
  refine agreesAt_expect_bind rfl h₄ fun _ i₅ _ h₅ _ => ?_
  exact agreesAt_lastSpan_bind h₅ (agreesAt_pure h₅ _)

theorem agreesAt_forStatement {expr : Parser Expr} (hexpr : AgreesBelow n expression expr)
    (hcons : Parser.Consumes stmt) (hstmt : AgreesBelow n statement stmt) (hn : n ≤ bound)
    (start : Span) (hi : i.On tape) (hi' : i.rest.length ≤ n) :
    AgreesAt (forStatement (block [.endForKw] "'endfor'") start)
      (Parser.forStatement expr stmt bound start) i tape := by
  refine agreesAt_expect_bind rfl hi fun _ i₁ _ h₁ l₁ => ?_
  have hexpr₁ := hexpr i₁.rest.length (by omega)
  have hclause := agrees_simpleStatement hexpr₁
  refine agreesAt_expect_bind rfl h₁ fun _ i₂ _ h₂ l₂ => ?_
  refine (agrees_unlessAt hclause i₂ _ h₂ (by omega)).bind fun init i₃ _ _ h₃ l₃ => ?_
  refine agreesAt_expect_bind rfl h₃ fun _ i₄ _ h₄ l₄ => ?_
  refine (agrees_unlessAt hexpr₁ i₄ _ h₄ (by omega)).bind fun condition i₅ _ _ h₅ l₅ => ?_
  refine agreesAt_expect_bind rfl h₅ fun _ i₆ _ h₆ l₆ => ?_
  refine (agrees_unlessAt hclause i₆ _ h₆ (by omega)).bind fun increment i₇ _ _ h₇ l₇ => ?_
  refine agreesAt_expect_bind rfl h₇ fun _ i₈ _ h₈ l₈ => ?_
  refine agreesAt_expect_bind rfl h₈ fun _ i₉ _ h₉ l₉ => ?_
  refine (agrees_block hcons (hstmt i₉.rest.length (by omega)) (Nat.le_refl _) (by omega) i₉ _ h₉
    (Nat.le_refl _)).bind fun body i' _ _ h' _ => ?_
  refine agreesAt_expect_bind rfl h' fun _ i'' _ h'' _ => ?_
  exact agreesAt_lastSpan_bind h'' (agreesAt_pure h'' _)

/-! ## Declarations of functions and classes -/

theorem agreesAt_functionDecl (hcons : Parser.Consumes stmt) (hstmt : AgreesBelow n statement stmt)
    (hn : n ≤ bound) (hi : i.On tape) (hi' : i.rest.length ≤ n) :
    AgreesAt (functionDecl (block [.endFuncKw] "'endfunc'")) (Parser.functionDecl stmt bound)
      i tape := by
  refine agreesAt_expect_bind rfl hi fun start i₁ _ h₁ l₁ => ?_
  refine (agreesAt_typeTag h₁).bind fun returns i₂ _ _ h₂ l₂ => ?_
  refine (agreesAt_identifier h₂).bind fun name i₃ _ _ h₃ l₃ => ?_
  refine agreesAt_expect_bind rfl h₃ fun _ i₄ _ h₄ l₄ => ?_
  have hparams : Agrees i₄.rest.length severalParameters
      (Parser.commaSeparated Parser.parameter bound) :=
    agrees_commaSeparated severalParameters.eq_1 (by omega) agrees_parameter
  refine (agrees_itemsUntil hparams i₄ _ h₄ (Nat.le_refl _)).bind fun params i₅ _ _ h₅ l₅ => ?_
  refine agreesAt_expect_bind rfl h₅ fun _ i₆ _ h₆ l₆ => ?_
  refine (agrees_block hcons (hstmt i₆.rest.length (by omega)) (Nat.le_refl _) (by omega) i₆ _ h₆
    (Nat.le_refl _)).bind fun body i₇ _ _ h₇ _ => ?_
  refine agreesAt_expect_bind rfl h₇ fun _ i₈ _ h₈ _ => ?_
  exact agreesAt_lastSpan_bind h₈ (agreesAt_pure h₈ _)

theorem agrees_members (htakes : Parser.TakesStatements stmt) (hcons : Parser.Consumes stmt)
    (hstmt : AgreesBelow n statement stmt) (hn : n ≤ bound) (hm : m ≤ n) (hturns : m ≤ turns) :
    Agrees m members (Parser.members stmt bound turns) := by
  induction turns generalizing m with
  | zero =>
    intro i tape hi hi'
    rw [members]
    refine agreesAt_look_bind hi ?_
    rw [Parser.current_of_nil (rest_eq_nil (Nat.le_refl m) hturns hi')]
    exact agreesAt_failExpected hi
  | succ turns ih =>
    intro i tape hi hi'
    rw [members, Parser.members]
    refine agreesAt_current_bind hi ?_
    have hmore : ∀ (i' : Input) after, i'.On after → i'.rest.length < i.rest.length →
        AgreesAt members (Parser.members stmt bound turns) i' after :=
      fun i' after h' l' => ih (m := i'.rest.length) (by omega) (by omega) i' after h'
        (Nat.le_refl _)
    cases i.current.kind with
    | keyword word =>
      cases word with
      | endClassKw => exact agreesAt_pure hi ([], [])
      | setKw =>
        refine (agreesAt_fieldDeclaration hi).bind fun field i₁ _ hfield h₁ _ => ?_
        have hlt := Parser.consumes_fieldDeclaration i field i₁ hfield
        exact (hmore i₁ _ h₁ hlt).bind fun others i₂ _ _ h₂ _ => agreesAt_pure h₂ _
      | funcKw =>
        refine (agreesAt_functionDecl hcons hstmt hn hi (by omega)).bind ?_
        intro method i₁ _ hmethod h₁ _
        have hlt := Parser.consumes_functionDecl htakes i method i₁ hmethod
        exact (hmore i₁ _ h₁ hlt).bind fun others i₂ _ _ h₂ _ => agreesAt_pure h₂ _
      | _ => exact agreesAt_failExpected hi
    | _ => exact agreesAt_failExpected hi

theorem agreesAt_classDecl (htakes : Parser.TakesStatements stmt) (hcons : Parser.Consumes stmt)
    (hstmt : AgreesBelow n statement stmt) (hn : n ≤ bound) (hi : i.On tape)
    (hi' : i.rest.length ≤ n) :
    AgreesAt (classDecl members) (Parser.classDecl stmt bound) i tape := by
  refine agreesAt_expect_bind rfl hi fun start i₁ _ h₁ l₁ => ?_
  refine (agreesAt_identifier h₁).bind fun name i₂ _ _ h₂ l₂ => ?_
  refine (agreesAt_eat rfl h₂).bind fun _ i₃ _ _ h₃ l₃ => ?_
  refine (agrees_members htakes hcons hstmt hn (m := i₃.rest.length) (by omega) (by omega) i₃ _ h₃
    (Nat.le_refl _)).bind fun parts i₄ _ _ h₄ _ => ?_
  refine agreesAt_expect_bind rfl h₄ fun _ i₅ _ h₅ _ => ?_
  exact agreesAt_lastSpan_bind h₅ (agreesAt_pure h₅ _)

/-! ## Statements -/

theorem agreesAt_closed {start : Span} {part : Scan Stmt} {part' : Parser Stmt}
    (hpart : AgreesAt part part' i tape) :
    AgreesAt (closed start what part) (Parser.closed start what part') i tape := by
  refine hpart.bind fun s i₁ _ _ h₁ _ => agreesAt_expect_bind rfl h₁ fun _ i₂ _ h₂ _ => ?_
  exact agreesAt_lastSpan_bind h₂ (agreesAt_pure h₂ _)

/-- The parsers of statements agree, if those of nested statements agree on fewer tokens. -/
theorem agrees_statementOver {expr : Parser Expr} (hexpr : Agrees n expression expr)
    (htakes : Parser.TakesStatements stmt) (hcons : Parser.Consumes stmt)
    (hstmt : AgreesBelow n statement stmt) (hn : n ≤ bound) :
    Agrees n statement (Parser.statementOver expr stmt bound) := by
  intro i tape hi hi'
  have hbelow : AgreesBelow n expression expr := fun m hm => hexpr.mono (Nat.le_of_lt hm)
  have hclause : AgreesAt (closed i.current.span "';' after statement" simpleStatement)
      (Parser.closed i.current.span "';' after statement" (Parser.simpleStatement expr)) i tape :=
    agreesAt_closed (agrees_simpleStatement hexpr i tape hi hi')
  rw [statement, Parser.statementOver]
  refine agreesAt_current_bind hi ?_
  cases hk : i.current.kind with
  | keyword word =>
    have hend : i.current.kind.isEnd = false := by rw [hk]; rfl
    cases word with
    | setKw => exact agreesAt_closed (agrees_declaration hexpr i tape hi hi')
    | printKw =>
      refine agreesAt_closed (agreesAt_advance_bind hi hend fun i₁ _ h₁ l₁ => ?_)
      exact (hbelow.at h₁ (by omega)).bind fun _ i₂ _ _ h₂ _ => agreesAt_pure h₂ _
    | ifKw => exact agreesAt_ifStatement hbelow hcons hstmt hn _ hi hi'
    | whileKw => exact agreesAt_whileStatement hbelow hcons hstmt hn _ hi hi'
    | forKw => exact agreesAt_forStatement hbelow hcons hstmt hn _ hi hi'
    | funcKw =>
      refine (agreesAt_functionDecl hcons hstmt hn hi hi').bind fun decl i₁ _ _ h₁ _ => ?_
      exact agreesAt_lastSpan_bind h₁ (agreesAt_pure h₁ _)
    | classKw =>
      refine (agreesAt_classDecl htakes hcons hstmt hn hi hi').bind fun decl i₁ _ _ h₁ _ => ?_
      exact agreesAt_lastSpan_bind h₁ (agreesAt_pure h₁ _)
    | breakKw =>
      exact agreesAt_closed (agreesAt_advance_bind hi hend fun _ _ h₁ _ => agreesAt_pure h₁ _)
    | skipKw =>
      exact agreesAt_closed (agreesAt_advance_bind hi hend fun _ _ h₁ _ => agreesAt_pure h₁ _)
    | returnKw =>
      refine agreesAt_closed (agreesAt_advance_bind hi hend fun i₁ _ h₁ l₁ => ?_)
      refine (agrees_unlessAt (hbelow i₁.rest.length (by omega)) i₁ _ h₁ (Nat.le_refl _)).bind ?_
      exact fun _ i₂ _ _ h₂ _ => agreesAt_pure h₂ _
    | _ => exact hclause
  | _ => exact hclause

/-- **The parsers of statements agree.** -/
theorem agrees_statement (hn : n ≤ bound) : Agrees n statement (Parser.statement bound) := by
  induction bound generalizing n with
  | zero =>
    intro i tape hi hi'
    have hnil := rest_eq_nil (Nat.le_refl n) hn hi'
    have hover : AgreesAt statement (Parser.statement 1) i tape :=
      agrees_statementOver (n := 0) (agrees_expression (Nat.zero_le 1))
        (Parser.takes_statement 0) (Parser.consumes_statement 0) nofun (Nat.zero_le 1) i tape hi
        (by omega)
    exact hover.of_failsAtEnd hnil (Parser.failsAtEnd_statement 1) (Parser.failsAtEnd_statement 0)
  | succ bound ih =>
    exact agrees_statementOver (agrees_expression hn) (Parser.takes_statement bound)
      (Parser.consumes_statement bound) (fun m hm => ih (by omega)) hn

end Statements

/-! ## Ends -/

/-- The function comes to an end, with an error of the grammar or with a result for which it has
read a token. It passes no mark. -/
def Ends (p : Scan α) (tape : Tape) : Prop :=
  (∃ e, p.Rejects tape e) ∨ ∃ a after used, p.Reads tape a after ∧
    tape.rest = used ++ after.rest ∧ used ≠ [] ∧ ∀ t ∈ used, t.kind.isEnd = false

/-- A parser that agrees with one that takes a token ends. -/
theorem Agrees.ends {p : Scan α} {q : Parser α} (h : Agrees i.rest.length p q)
    (hcons : Parser.Consumes q) (hi : i.On tape) : p.Ends tape := by
  have hends := h i tape hi (Nat.le_refl _)
  rw [AgreesAt] at hends
  cases hq : q i with
  | error e =>
    rw [hq] at hends
    exact .inl ⟨e, hends⟩
  | ok r =>
    obtain ⟨a, i'⟩ := r
    rw [hq] at hends
    obtain ⟨after, used, hreads, -, hused, hused'⟩ := hends
    refine .inr ⟨a, after, used, hreads, hused', ?_, fun t ht => ?_⟩
    · rintro rfl
      have hlt := hcons i a i' hq
      rw [hused, List.nil_append] at hlt
      exact Nat.lt_irrefl _ hlt
    · refine hi.1 t ?_
      rw [hused]
      exact List.mem_append_left _ ht

theorem consumes_expression (bound : Nat) : Parser.Consumes (Parser.expression bound) := by
  intro i e i' he
  obtain ⟨us, hus, -, hlaid⟩ := Parser.lays_expression bound i e i' he
  have hpos := List.length_pos_iff.mpr hlaid.ne_nil
  rw [hus, List.length_append]
  omega

end Scan

/-! ## Programs -/

theorem on_of_mark {before more : List Token} {t : Token}
    (hbefore : ∀ u ∈ before, u.kind.isEnd = false) (ht : t.kind.isEnd = true) (last : Span) :
    (⟨before, t.span, last⟩ : Input).On ⟨before ++ t :: more, last⟩ := by
  obtain ⟨kind, span⟩ := t
  cases kind with
  | endOfInput => exact ⟨hbefore, more, rfl⟩
  | _ => cases ht

/-- The first mark, if there is one. -/
theorem exists_of_find? {ts : List Token} {t : Token}
    (h : ts.find? (fun t => t.kind.isEnd) = some t) :
    t.kind.isEnd = true ∧ ∃ before more, ts = before ++ t :: more ∧
      (∀ u ∈ before, u.kind.isEnd = false) ∧
      ts.takeWhile (fun t => !t.kind.isEnd) = before := by
  obtain ⟨ht, before, more, rfl, hbefore⟩ := List.find?_eq_some_iff_append.mp h
  have hopen : ∀ u ∈ before, u.kind.isEnd = false := fun u hu => by simpa using hbefore u hu
  refine ⟨ht, before, more, rfl, hopen, ?_⟩
  rw [List.takeWhile_append_of_pos fun u hu => by rw [hopen u hu]; rfl]
  simp [ht]

/-- A tape with a mark on it begins with an input. -/
theorem exists_on {tape : Tape} (h : ∃ t ∈ tape.rest, t.kind.isEnd = true) :
    ∃ i : Input, i.On tape := by
  obtain ⟨t, ht⟩ := Option.isSome_iff_exists.mp (List.find?_isSome.mpr h)
  obtain ⟨hend, before, more, hrest, hbefore, -⟩ := exists_of_find? ht
  have hon : (⟨before, _, tape.last⟩ : Input).On ⟨before ++ _ :: more, tape.last⟩ :=
    on_of_mark hbefore hend tape.last
  rw [← hrest] at hon
  exact ⟨_, hon⟩

theorem exists_closedTokens (ts : List Token) : ∃ more, closedTokens ts = ts ++ more := by
  rw [closedTokens]
  split
  · exact ⟨[], (List.append_nil ts).symm⟩
  · exact ⟨_, rfl⟩

theorem exists_mark_closedTokens (ts : List Token) :
    ∃ init mark, closedTokens ts = init ++ [mark] ∧ mark.kind.isEnd = true := by
  rw [closedTokens]
  split
  · rename_i h
    obtain ⟨mark, hmark, hend⟩ := Option.map_eq_some_iff.mp h
    obtain ⟨init, rfl⟩ := List.getLast?_eq_some_iff.mp hmark
    exact ⟨init, mark, rfl, hend⟩
  · exact ⟨ts, _, rfl, rfl⟩

/-- The tokens in front of the first mark are the input of the bounded parser. -/
theorem on_ofTokens (ts : List Token) : (Input.ofTokens ts).On (Tape.ofTokens ts) := by
  rw [Input.ofTokens, Tape.ofTokens]
  cases hfind : ts.find? fun t => t.kind.isEnd with
  | some t =>
    obtain ⟨ht, before, more, rfl, hbefore, htake⟩ := exists_of_find? hfind
    obtain ⟨more', hclosed⟩ := exists_closedTokens (before ++ t :: more)
    rw [List.append_assoc, List.cons_append] at hclosed
    rw [htake, hclosed]
    cases before <;> exact on_of_mark hbefore ht _
  | none =>
    have hopen : ∀ u ∈ ts, u.kind.isEnd = false := fun u hu => by
      simpa using List.find?_eq_none.mp hfind u hu
    have htake : ts.takeWhile (fun t => !t.kind.isEnd) = ts :=
      List.takeWhile_eq_self_iff.mpr fun u hu => by rw [hopen u hu]; rfl
    have hlast : ¬(ts.getLast?.map fun t => t.kind.isEnd) = some true := by
      intro h
      obtain ⟨last, hlast, hend⟩ := Option.map_eq_some_iff.mp h
      rw [hopen last (List.mem_of_getLast? hlast)] at hend
      cases hend
    rw [htake, closedTokens, if_neg hlast]
    cases ts <;> exact on_of_mark (t := ⟨.endOfInput, _⟩) hopen rfl _

/-- The loop over the statements comes to the same end as the bounded one. -/
theorem scanStatements_eq {bound : Nat} {i : Input} {tape : Tape} (hi : i.On tape)
    (hbound : i.rest.length ≤ bound) (done : List Stmt) :
    scanStatements done tape = some (done ++ (parseStatements bound i).statements,
      (parseStatements bound i).failure.map .rejected) := by
  induction bound generalizing i tape done with
  | zero =>
    obtain ⟨-, more, rfl⟩ := hi
    rw [List.length_eq_zero_iff.mp (Nat.le_zero.mp hbound), scanStatements, parseStatements,
      List.append_nil]
    rfl
  | succ bound ih =>
    have hstatement := Scan.agrees_statement hbound i tape hi (Nat.le_refl _)
    obtain ⟨hopen, more, rfl⟩ := hi
    obtain ⟨_ | ⟨t, rest⟩, stop, last⟩ := i
    · rw [scanStatements]
      show some (done, none) = some (done ++ [], none)
      rw [List.append_nil]
    have hturn := scanStatements.eq_1 done ⟨t :: rest ++ ⟨.endOfInput, stop⟩ :: more, last⟩
    simp only [List.cons_append, hopen t List.mem_cons_self, Bool.false_eq_true, if_false]
      at hturn hstatement ⊢
    rw [hturn, parseStatements]
    rw [Scan.AgreesAt] at hstatement
    cases hread : Parser.statement (bound + 1) ⟨t :: rest, stop, last⟩ with
    | error e =>
      rw [hread] at hstatement
      rw [show Scan.statement _ = _ from hstatement]
      simp
    | ok r =>
      obtain ⟨s, i'⟩ := r
      rw [hread] at hstatement
      obtain ⟨after, used, hreads, hafter, hused, -⟩ := hstatement
      have hlt := Parser.consumes_statement (bound + 1) _ s i' hread
      have hmore := ih hafter (Nat.le_of_lt_succ (Nat.lt_of_lt_of_le hlt hbound)) (done ++ [s])
      rw [show Scan.statement _ = _ from hreads]
      simpa using hmore

/-- **Reading ends on all sequences of tokens**, with the statements that were completed and at most
one error. No token behind the last one is looked at, and no mark is passed. From every place of the
tokens, expressions and statements end as well, and where they have a result they have read a
token. -/
theorem scan_ends (ts : List Token) :
    scan ts = some ((parse ts).statements, (parse ts).failure.map .rejected) ∧
      ∀ (k : Fin (closedTokens ts).length) (last : Span),
        Scan.expression.Ends ⟨(closedTokens ts).drop k, last⟩ ∧
          Scan.statement.Ends ⟨(closedTokens ts).drop k, last⟩ := by
  refine ⟨scanStatements_eq (on_ofTokens ts) (Nat.le_refl _) [], ?_⟩
  rintro ⟨k, hk⟩ last
  obtain ⟨init, mark, hclosed, hmark⟩ := exists_mark_closedTokens ts
  have hmem : mark ∈ (closedTokens ts).drop k := by
    have hlength := congrArg List.length hclosed
    rw [List.length_append, List.length_singleton] at hlength
    rw [hclosed, List.drop_append_of_le_length (by omega)]
    exact List.mem_append_right _ List.mem_cons_self
  obtain ⟨i, hi⟩ : ∃ i : Input, i.On ⟨(closedTokens ts).drop k, last⟩ :=
    exists_on ⟨mark, hmem, hmark⟩
  exact ⟨(Scan.agrees_expression (Nat.le_refl _)).ends (Scan.consumes_expression _) hi,
    (Scan.agrees_statement (Nat.le_refl _)).ends (Parser.consumes_statement _) hi⟩

end Chalk
