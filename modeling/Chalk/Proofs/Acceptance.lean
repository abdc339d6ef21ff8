import Chalk.Proofs.Grammar
import Chalk.Proofs.Precedence

/-!
# What the parser accepts

The parser accepts nothing but the grammar. A parser is described from the input on: if it succeeds,
it has taken some tokens, which are gone afterwards while all others are left, and its result is
written as those (`Parser.Takes`). Nothing is said about inputs on which it fails.

The rank of an expression is the one of the place that it is read for. What a parser reads with the
one below it is written for a place that admits less, and so also for its own.

## Main definitions

* `Parser.Takes` — the tokens that a parser takes, together with its result

## Main results

* `Parser.takesAt_reader`, `Parser.takes_expression` — what is read as an expression
* `Parser.takes_statement` — what is read as a statement
* `writtenBlock_of_parse` — the tokens of a program that is accepted are a way to write it
-/

namespace Chalk

namespace Parser

/-! ## What a parser takes -/

variable {α β : Type} {i : Input} {good : α → List Kind → Prop} {k : Kind}

/-- If the parser succeeds on the input, the tokens that it has taken are good for its result, and
the others are left. -/
def Takes (p : Parser α) (i : Input) (good : α → List Kind → Prop) : Prop :=
  ∀ a i', p i = .ok (a, i') → ∃ ks, i.kinds = ks ++ i'.kinds ∧ good a ks

theorem takes_pure {a : α} (h : good a []) : Takes (pure a) i good := by
  rintro _ _ ⟨⟩
  exact ⟨[], rfl, h⟩

theorem takes_throw {e : ParseError} : Takes (throw e : Parser α) i good :=
  fun _ _ h => by cases h

theorem takes_failExpected {what : String} : Takes (failExpected what : Parser α) i good :=
  fun _ _ h => by cases h

theorem Takes.mono {p : Parser α} {good' : α → List Kind → Prop} (hp : Takes p i good)
    (h : ∀ a ks, good a ks → good' a ks) : Takes p i good' := by
  intro a i' ha
  obtain ⟨ks, hks, hgood⟩ := hp a i' ha
  exact ⟨ks, hks, h a ks hgood⟩

theorem Takes.bind {p : Parser β} {f : β → Parser α} {mid : β → List Kind → Prop}
    (hp : Takes p i mid)
    (hf : ∀ b ks i', mid b ks → Takes (f b) i' fun a more => good a (ks ++ more)) :
    Takes (p >>= f) i good := by
  intro a i₂ h
  change (p i >>= fun r => f r.1 r.2) = _ at h
  cases hb : p i with
  | error e =>
    rw [hb] at h
    cases h
  | ok r =>
    obtain ⟨b, i₁⟩ := r
    rw [hb] at h
    obtain ⟨ks, hks, hmid⟩ := hp b i₁ hb
    obtain ⟨more, hmore, hgood⟩ := hf b ks i₁ hmid a i₂ h
    exact ⟨ks ++ more, by rw [hks, hmore, List.append_assoc], hgood⟩

theorem Takes.map {p : Parser β} {f : β → α} (hp : Takes p i fun b ks => good (f b) ks) :
    Takes (f <$> p) i good := by
  rw [map_eq_pure_bind]
  refine hp.bind fun b ks i' hb => takes_pure ?_
  rwa [List.append_nil]

/-! ## Single tokens -/

theorem takes_current_bind {f : Token → Parser α} (h : Takes (f i.current) i good) :
    Takes (current >>= f) i good := h

theorem takes_lastSpan_bind {f : Span → Parser α} (h : ∀ span, Takes (f span) i good) :
    Takes (lastSpan >>= f) i good := h i.last

/-- The token that is passed over is the one that was looked at. -/
theorem takes_advance_bind {f : Unit → Parser α} (hk : i.current.kind = k) (hend : k.isEnd = false)
    (h : ∀ i', Takes (f ()) i' fun a ks => good a (k :: ks)) : Takes (advance >>= f) i good := by
  intro a i' ha
  obtain ⟨ks, hks, hgood⟩ := h i.advance a i' ha
  refine ⟨k :: ks, ?_, hgood⟩
  obtain ⟨_ | ⟨t, rest⟩, stop, last⟩ := i
  · rw [← hk] at hend
    cases hend
  · rw [List.cons_append, ← hks, ← hk]
    rfl

theorem takes_at?_bind {f : Bool → Parser α} (h : ∀ found, Takes (f found) i good) :
    Takes (at? k >>= f) i good := h (i.current.kind == k)

theorem takes_eat_bind {f : Bool → Parser α} (hend : k.isEnd = false)
    (htrue : ∀ i', Takes (f true) i' fun a ks => good a (k :: ks))
    (hfalse : Takes (f false) i good) : Takes (eat k >>= f) i good := by
  rw [eat_bind]
  refine takes_current_bind ?_
  split
  · rename_i hkind
    exact takes_advance_bind (eq_of_beq hkind) hend htrue
  · exact hfalse

/-- A word that may be missing. -/
theorem takes_optionalWord_bind {f : Bool → Parser α} (hend : k.isEnd = false)
    (h : ∀ found i', Takes (f found) i' fun a ks => good a ((if found then [k] else []) ++ ks)) :
    Takes (eat k >>= f) i good :=
  takes_eat_bind hend (fun i' => h true i') (h false i)

theorem takes_expect_bind {what : String} {f : Span → Parser α} (hend : k.isEnd = false)
    (h : ∀ span i', Takes (f span) i' fun a ks => good a (k :: ks)) :
    Takes (expect k what >>= f) i good := by
  rw [expect_bind]
  refine takes_current_bind ?_
  split
  · rename_i hkind
    exact takes_advance_bind (eq_of_beq hkind) hend (h i.current.span)
  · exact takes_failExpected

theorem takes_identifier_bind {what : String} {f : String → Parser α}
    (h : ∀ id i', Takes (f id) i' fun a ks => good a (.identifier id :: ks)) :
    Takes (identifier what >>= f) i good := by
  rw [identifier_bind]
  refine takes_current_bind ?_
  split
  · rename_i id hid
    exact takes_advance_bind hid rfl (h id)
  · exact takes_failExpected

/-! ## Repetition -/

/-- Items with commas between them are taken one by one. What is said about all of them together
follows from what is said about each. -/
theorem takes_commaSeparated {item : Parser α} {each : α → List Kind → Prop}
    {all : List α → List (List Kind) → Prop} (hnil : all [] [])
    (hcons : ∀ a as ks kss, each a ks → all as kss → all (a :: as) (ks :: kss))
    (hitem : ∀ i, Takes item i each) (turns : Nat) (i : Input) :
    Takes (commaSeparated item turns) i
      fun as ks => ∃ kss, kss ≠ [] ∧ ks = commas kss ∧ all as kss := by
  induction turns generalizing i with
  | zero =>
    refine (hitem i).bind fun a ks i' ha => takes_pure ?_
    exact ⟨[ks], by simp, by simp [commas], hcons a [] ks [] ha hnil⟩
  | succ turns ih =>
    refine (hitem i).bind fun a ks i' ha => takes_eat_bind rfl (fun i'' => ?_) (takes_pure ?_)
    · refine (ih i'').bind ?_
      rintro as _ i₃ ⟨kss, hne, rfl, has⟩
      refine takes_pure ⟨ks :: kss, by simp, ?_, hcons a as ks kss ha has⟩
      cases kss with
      | nil => exact absurd rfl hne
      | cons => simp [commas]
    · exact ⟨[ks], by simp, by simp [commas], hcons a [] ks [] ha hnil⟩

/-- Items up to a closing delimiter are taken with it. -/
theorem takes_itemsUntil {item : Parser α} {each : α → List Kind → Prop}
    {all : List α → List (List Kind) → Prop} (hnil : all [] [])
    (hcons : ∀ a as ks kss, each a ks → all as kss → all (a :: as) (ks :: kss))
    (hitem : ∀ i, Takes item i each) {close : Symbol} {what : String} {bound : Nat} (i : Input) :
    Takes (itemsUntil close what item bound) i
      fun as ks => ∃ kss, ks = commas kss ++ [.symbol close] ∧ all as kss := by
  rw [itemsUntil]
  refine takes_at?_bind fun found => ?_
  cases found with
  | true =>
    simp only [if_true, pure_bind]
    exact takes_expect_bind rfl fun _ _ => takes_pure ⟨[], rfl, hnil⟩
  | false =>
    simp only [Bool.false_eq_true, if_false]
    refine (takes_commaSeparated hnil hcons hitem bound i).bind ?_
    rintro as _ i' ⟨kss, -, rfl, has⟩
    exact takes_expect_bind rfl fun _ _ => takes_pure ⟨kss, rfl, has⟩

/-- A part that may be missing is taken if it is there. -/
theorem takes_unlessAt {part : Parser α} {close : Symbol} (hpart : ∀ i, Takes part i good) :
    Takes (unlessAt close part) i (WrittenOption good) := by
  rw [unlessAt]
  refine takes_at?_bind fun found => ?_
  cases found with
  | true => exact takes_pure .none
  | false => exact Takes.map ((hpart i).mono fun _ _ h => .some h)

/-! ## Expressions -/

/-- The parser takes expressions that are written for a place that admits the given rank. -/
def TakesAt (rank : Nat) (p : Parser Expr) : Prop :=
  ∀ i, Takes p i fun e ks => e.Written rank ks

variable {inner : Parser Expr} {bound rank : Nat}

theorem TakesAt.mono {p : Parser Expr} {rank' : Nat} (h : TakesAt rank p) (hle : rank ≤ rank') :
    TakesAt rank' p :=
  fun i => (h i).mono fun _ _ he => he.mono hle

theorem takes_dictEntry (hinner : TakesAt 8 inner) :
    Takes (dictEntry inner) i fun entry ks => ∃ key value,
      ks = key ++ .symbol .colon :: value ∧ entry.1.Written 8 key ∧ entry.2.Written 8 value := by
  rw [dictEntry]
  refine (hinner i).bind fun key ks i₁ hkey => takes_expect_bind rfl fun _ i₂ => ?_
  refine (hinner i₂).bind fun value vs i₃ hvalue => takes_pure ?_
  exact ⟨ks, vs, by rw [List.append_nil], hkey, hvalue⟩

theorem takes_expressions (hinner : TakesAt 8 inner) {close : Symbol} {what : String} :
    Takes (itemsUntil close what inner bound) i fun es ks =>
      ∃ kss, ks = commas kss ++ [.symbol close] ∧ Expr.WrittenList es kss :=
  takes_itemsUntil .nil (fun _ _ _ _ => .cons) hinner i

theorem takes_entries (hinner : TakesAt 8 inner) {what : String} :
    Takes (itemsUntil .rightBrace what (dictEntry inner) bound) i fun entries ks =>
      ∃ kss, ks = commas kss ++ [.symbol .rightBrace] ∧ Expr.WrittenEntries entries kss := by
  refine takes_itemsUntil .nil ?_ (fun i => takes_dictEntry hinner) i
  rintro ⟨key, value⟩ entries _ kss ⟨ks, vs, rfl, hkey, hvalue⟩ hentries
  exact .cons hkey hvalue hentries

/-- Atoms, and expressions in parentheses. -/
theorem takesAt_primary (hinner : TakesAt 8 inner) : TakesAt 0 (primary inner bound) := by
  intro i
  rw [primary]
  refine takes_current_bind ?_
  split
  case h_1 value hk => exact takes_advance_bind hk rfl fun _ => takes_pure (.number ..)
  case h_2 content hk => exact takes_advance_bind hk rfl fun _ => takes_pure (.string ..)
  case h_3 hk => exact takes_advance_bind hk rfl fun _ => takes_pure (.boolean true ..)
  case h_4 hk => exact takes_advance_bind hk rfl fun _ => takes_pure (.boolean false ..)
  case h_5 id hk => exact takes_advance_bind hk rfl fun _ => takes_pure (.name ..)
  case h_6 hk => exact takes_advance_bind hk rfl fun _ => takes_pure (.receiver ..)
  case h_7 hk =>
    refine takes_advance_bind hk rfl fun i₁ => (hinner i₁).bind fun e ks i₂ he => ?_
    exact takes_expect_bind rfl fun _ _ => takes_pure he.parens
  case h_8 hk =>
    refine takes_advance_bind hk rfl fun i₁ => (takes_expressions hinner).bind ?_
    rintro items _ i₂ ⟨kss, rfl, hitems⟩
    refine takes_lastSpan_bind fun _ => takes_pure ?_
    rw [List.append_nil]
    exact .list hitems ..
  case h_9 hk =>
    refine takes_advance_bind hk rfl fun i₁ => (takes_entries hinner).bind ?_
    rintro entries _ i₂ ⟨kss, rfl, hentries⟩
    refine takes_lastSpan_bind fun _ => takes_pure ?_
    rw [List.append_nil]
    exact .dict hentries ..
  case h_10 => exact takes_failExpected

/-- Each suffix is attached to what stands before it. -/
theorem takes_suffixes (hinner : TakesAt 8 inner) {turns : Nat} {e : Expr} {ls : List Kind}
    (he : e.Written 1 ls) :
    Takes (suffixes inner bound turns e) i fun e' ks => e'.Written 1 (ls ++ ks) := by
  induction turns generalizing i e ls with
  | zero =>
    refine takes_pure ?_
    rwa [List.append_nil]
  | succ turns ih =>
    rw [suffixes]
    refine takes_eat_bind rfl (fun i₁ => ?_) (takes_eat_bind rfl (fun i₁ => ?_)
      (takes_eat_bind rfl (fun i₁ => ?_) (takes_pure ?_)))
    · refine (takes_expressions hinner).bind ?_
      rintro arguments _ i₂ ⟨kss, rfl, harguments⟩
      refine takes_lastSpan_bind fun span => ?_
      refine (ih (.call he harguments (e.span.through span) 1)).mono fun _ _ h => ?_
      simpa using h
    · refine takes_identifier_bind fun id i₂ => takes_lastSpan_bind fun span => ?_
      refine (ih (.field he id (e.span.through span) 1)).mono fun _ _ h => ?_
      simpa using h
    · refine (hinner i₁).bind fun position ps i₂ hposition => ?_
      refine takes_expect_bind rfl fun _ i₃ => takes_lastSpan_bind fun span => ?_
      refine (ih (.index he hposition (e.span.through span) 1)).mono fun _ _ h => ?_
      simpa using h
    · rwa [List.append_nil]

theorem takesAt_unary {operand : Parser Expr} (hoperand : TakesAt 1 operand) (turns : Nat) :
    TakesAt 2 (unary operand turns) := by
  induction turns with
  | zero => exact hoperand.mono (by decide)
  | succ turns ih =>
    intro i
    rw [unary]
    refine takes_current_bind ?_
    split
    · exact hoperand.mono (by decide) i
    · rename_i op hop
      have hkind : i.current.kind = op.kind := by
        revert hop
        generalize i.current.kind = k
        rw [unary?.eq_def]
        split <;> rintro ⟨⟩ <;> rfl
      refine takes_advance_bind hkind (by cases op <;> rfl) fun i₁ => ?_
      refine (ih i₁).bind fun e ks i₂ he => takes_pure ?_
      rw [List.append_nil]
      exact .unary he ..

theorem takesAt_power {base : Parser Expr} (hbase : TakesAt 2 base) (turns : Nat) :
    TakesAt 3 (power base turns) := by
  induction turns with
  | zero => exact hbase.mono (by decide)
  | succ turns ih =>
    intro i
    rw [power]
    refine (hbase i).bind fun b bs i₁ hb => takes_eat_bind rfl (fun i₂ => ?_) (takes_pure ?_)
    · refine (ih i₂).bind fun exponent es i₃ hexponent => takes_pure ?_
      rw [List.append_nil]
      exact @Expr.Written.binary .pow _ _ _ _ hb hexponent ..
    · rw [List.append_nil]
      exact hb.mono (by decide)

/-- An operator of a rank joins an operand of that rank and one of the rank below. -/
theorem written_of_operator? {k : Kind} {combine : Expr → Expr → Expr} (hrank : 4 ≤ rank)
    (hle : rank ≤ 8) (h : operator? rank k = some combine) {left right : Expr} {ls rs : List Kind}
    (hleft : left.Written rank ls) (hright : right.Written (rank - 1) rs) :
    (combine left right).Written rank (ls ++ k :: rs) := by
  have hbinary : ∀ op : BinaryOp, op.kind = k → op.leftRank = rank → op.rightRank = rank - 1 →
      op.rank = rank → (Expr.mkBinary op left right).Written rank (ls ++ k :: rs) := by
    rintro op rfl hl hr rfl
    rw [← hl] at hleft
    rw [← hr] at hright
    have hwritten := Expr.Written.binary hleft hright (left.span.through right.span) op.rank
    simpa [Expr.mkBinary] using hwritten
  have hlogical : ∀ op : LogicalOp, op.kind = k → op.rank = rank →
      (Expr.mkLogical op left right).Written rank (ls ++ k :: rs) := by
    rintro op rfl rfl
    have hwritten := Expr.Written.logical hleft hright (left.span.through right.span) op.rank
    simpa [Expr.mkLogical] using hwritten
  obtain rfl | rfl | rfl | rfl | rfl : rank = 4 ∨ rank = 5 ∨ rank = 6 ∨ rank = 7 ∨ rank = 8 := by
    omega
  · simp only [operator?, multiplicative?] at h
    split at h <;> cases h <;> exact hbinary _ rfl rfl rfl rfl
  · simp only [operator?, additive?] at h
    split at h <;> cases h <;> exact hbinary _ rfl rfl rfl rfl
  · simp only [operator?, comparison?] at h
    split at h <;> cases h <;> exact hbinary _ rfl rfl rfl rfl
  · simp only [operator?, andOperator?] at h
    split at h <;> cases h
    exact hlogical _ rfl rfl
  · simp only [operator?, orOperator?] at h
    split at h <;> cases h
    exact hlogical _ rfl rfl

theorem takes_operands {operand : Parser Expr} (hrank : 4 ≤ rank) (hle : rank ≤ 8)
    (hoperand : TakesAt (rank - 1) operand) {turns : Nat} {left : Expr} {ls : List Kind}
    (hleft : left.Written rank ls) :
    Takes (operands operand (operator? rank) turns left) i
      fun e ks => e.Written rank (ls ++ ks) := by
  induction turns generalizing i left ls with
  | zero =>
    refine takes_pure ?_
    rwa [List.append_nil]
  | succ turns ih =>
    rw [operands]
    refine takes_current_bind ?_
    split
    · refine takes_pure ?_
      rwa [List.append_nil]
    · rename_i combine hop
      have hend : i.current.kind.isEnd = false := by
        have hjoins := joins_of_operator? hrank hle hop
        cases hkind : i.current.kind with
        | endOfInput =>
          rw [hkind] at hjoins
          rw [← hjoins] at hle
          exact absurd hle (by decide)
        | _ => rfl
      refine takes_advance_bind rfl hend fun i₁ => ?_
      refine (hoperand i₁).bind fun right rs i₂ hright => ?_
      refine (ih (written_of_operator? hrank hle hop hleft hright)).mono fun _ _ h => ?_
      simpa using h

/-- **What is read at a rank was written for a place that admits it**, if that holds of what stands
in parentheses, brackets and braces. The induction goes from each rank to the next one. -/
theorem takesAt_reader (hinner : TakesAt 8 inner) (rank : Nat) (hle : rank ≤ 8) (turns : Nat) :
    TakesAt rank (reader inner bound rank turns) := by
  match rank with
  | 0 => exact takesAt_primary hinner
  | 1 =>
    intro i
    refine (takesAt_primary hinner i).bind fun e ks i₁ he => ?_
    exact takes_suffixes hinner (he.mono (by decide))
  | 2 => exact takesAt_unary (takesAt_reader hinner 1 (by decide) bound) turns
  | 3 => exact takesAt_power (takesAt_reader hinner 2 (by decide) bound) turns
  | rank + 4 =>
    have hoperand := takesAt_reader hinner (rank + 3) (by omega) bound
    intro i
    refine (hoperand i).bind fun e ks i₁ he => ?_
    exact takes_operands (by omega) hle hoperand (he.mono (by omega))

/-- **An expression that is read was written as the tokens that are gone.** -/
theorem takes_expression (bound : Nat) : TakesAt 8 (expression bound) := by
  induction bound with
  | zero => exact fun i => takes_failExpected
  | succ bound ih =>
    rw [expression, expressionOver_eq_reader]
    exact takesAt_reader ih 8 (by decide) _

/-! ## Types and clauses -/

theorem canReturn_ofIdentifier (name : String) :
    (TypeTag.ofIdentifier name).canReturn = true ∧ TypeTag.ofIdentifier name ≠ .void ∧
      (TypeTag.ofIdentifier name).kind = .identifier name := by
  rw [TypeTag.ofIdentifier]
  split
  · rename_i h
    rw [eq_of_beq h]
    exact ⟨rfl, nofun, rfl⟩
  · split
    · rename_i h
      rw [eq_of_beq h]
      exact ⟨rfl, nofun, rfl⟩
    · refine ⟨?_, nofun, rfl⟩
      simp_all [TypeTag.canReturn]

theorem takes_typeTag {allowVoid : Bool} :
    Takes (typeTag allowVoid) i fun tag ks =>
      ks = [tag.kind] ∧ tag.canReturn = true ∧ (tag = .void → allowVoid = true) := by
  rw [typeTag]
  refine takes_current_bind ?_
  split
  case h_6 hk =>
    split
    · exact takes_advance_bind hk rfl fun _ => takes_pure ⟨rfl, rfl, fun _ => ‹_›⟩
    · exact takes_throw
  case h_7 name hk =>
    obtain ⟨hreturn, hvoid, hkind⟩ := canReturn_ofIdentifier name
    refine takes_advance_bind hk rfl fun _ => takes_pure ?_
    exact ⟨by rw [hkind], hreturn, fun h => absurd h hvoid⟩
  case h_8 => exact takes_failExpected
  all_goals
    rename_i hk
    exact takes_advance_bind hk rfl fun _ => takes_pure ⟨rfl, rfl, nofun⟩

theorem takes_declaredTag :
    Takes (typeTag false) i fun tag ks => ks = [tag.kind] ∧ tag.canDeclare = true := by
  refine takes_typeTag.mono ?_
  rintro tag _ ⟨rfl, hreturn, hvoid⟩
  refine ⟨rfl, ?_⟩
  rw [TypeTag.canDeclare, hreturn, Bool.and_true, bne_iff_ne]
  exact fun h => nomatch hvoid h

variable {expr : Parser Expr} {stmt : Parser Stmt}

theorem takes_declaration (hexpr : TakesAt 8 expr) :
    Takes (declaration expr) i Stmt.WrittenClause := by
  rw [declaration]
  refine takes_expect_bind rfl fun _ _ => takes_optionalWord_bind rfl fun constant _ => ?_
  refine takes_declaredTag.bind ?_
  rintro tag _ _ ⟨rfl, htag⟩
  refine takes_identifier_bind fun name _ => takes_eat_bind rfl (fun i₁ => ?_) ?_
  · simp only [if_true, bind_map_left]
    refine (hexpr i₁).bind fun initial ks _ hinitial => ?_
    refine takes_lastSpan_bind fun _ => takes_pure ?_
    simpa using Stmt.WrittenClause.declareAs constant htag name hinitial _
  · simp only [Bool.false_eq_true, if_false, pure_bind]
    refine takes_lastSpan_bind fun _ => takes_pure ?_
    simpa using Stmt.WrittenClause.declare constant htag name _

theorem takes_simpleStatement (hexpr : TakesAt 8 expr) :
    Takes (simpleStatement expr) i Stmt.WrittenClause := by
  rw [simpleStatement]
  refine takes_current_bind (takes_at?_bind fun found => ?_)
  cases found with
  | true => exact takes_declaration hexpr
  | false =>
    simp only [Bool.false_eq_true, if_false]
    refine (hexpr i).bind fun e ks i₁ he => takes_eat_bind rfl (fun i₂ => ?_) (takes_pure ?_)
    · simp only [if_true]
      split
      · exact takes_throw
      · rename_i target htarget
        refine (hexpr i₂).bind fun value vs i₃ hvalue => takes_lastSpan_bind fun _ => takes_pure ?_
        rw [List.append_nil]
        exact .assign (he.toTarget htarget) hvalue _
    · rw [List.append_nil]
      exact .eval he _

theorem takes_parameter :
    Takes parameter i fun slot ks => ks = slot.kinds ∧ slot.tag.canDeclare = true := by
  rw [parameter]
  refine takes_current_bind (takes_declaredTag.bind ?_)
  rintro tag _ i₁ ⟨rfl, htag⟩
  refine takes_identifier_bind fun name _ => takes_lastSpan_bind fun _ => takes_pure ?_
  exact ⟨rfl, htag⟩

theorem takes_fieldDeclaration :
    Takes fieldDeclaration i fun slot ks => ks = slot.fieldKinds ∧ slot.tag.canDeclare = true := by
  rw [fieldDeclaration]
  refine takes_expect_bind rfl fun _ _ => takes_declaredTag.bind ?_
  rintro tag _ i₁ ⟨rfl, htag⟩
  refine takes_identifier_bind fun name i₂ => takes_at?_bind fun found => ?_
  cases found with
  | true => exact takes_current_bind takes_throw
  | false =>
    simp only [Bool.false_eq_true, if_false]
    refine takes_expect_bind rfl fun _ _ => takes_lastSpan_bind fun _ => takes_pure ?_
    exact ⟨rfl, htag⟩

/-! ## Statements with blocks -/

/-- The parser takes statements. -/
def TakesStatements (p : Parser Stmt) : Prop := ∀ i, Takes p i Stmt.Written

theorem takes_atOneOf_bind {words : List Keyword} {f : Bool → Parser α}
    (h : ∀ found, Takes (f found) i good) : Takes (atOneOf words >>= f) i good := by
  rw [atOneOf, bind_assoc]
  refine takes_current_bind ?_
  split <;> exact h _

theorem takes_block (hstmt : TakesStatements stmt) {closers : List Keyword} {what : String}
    {turns : Nat} : Takes (block stmt closers what turns) i Stmt.WrittenBlock := by
  induction turns generalizing i with
  | zero =>
    rw [block]
    refine takes_atOneOf_bind fun found => ?_
    split
    · exact takes_pure .nil
    · exact takes_failExpected
  | succ turns ih =>
    rw [block]
    refine takes_atOneOf_bind fun found => ?_
    split
    · exact takes_pure .nil
    · refine takes_current_bind ?_
      split
      · exact takes_failExpected
      · refine (hstmt i).bind fun s ks i₁ hs => ih.bind fun rest more i₂ hrest => takes_pure ?_
        rw [List.append_nil]
        exact .cons hs hrest

theorem takes_elifs (hexpr : TakesAt 8 expr) (hstmt : TakesStatements stmt) {turns : Nat} :
    Takes (elifs expr stmt bound turns) i Stmt.WrittenElifs := by
  induction turns generalizing i with
  | zero => exact takes_pure .nil
  | succ turns ih =>
    rw [elifs]
    refine takes_eat_bind rfl (fun i₁ => ?_) (takes_pure .nil)
    simp only [if_true]
    refine (hexpr i₁).bind fun condition cs i₂ hcondition => takes_expect_bind rfl fun _ i₃ => ?_
    refine (takes_block hstmt).bind fun body bs i₄ hbody => ?_
    refine ih.bind fun rest more i₅ hrest => takes_pure ?_
    simpa using Stmt.WrittenElifs.cons hcondition hbody hrest

theorem takes_ifStatement (hexpr : TakesAt 8 expr) (hstmt : TakesStatements stmt) {start : Span} :
    Takes (ifStatement expr stmt bound start) i Stmt.Written := by
  rw [ifStatement]
  refine takes_expect_bind rfl fun _ i₁ => (hexpr i₁).bind fun condition cs i₂ hcondition => ?_
  refine takes_expect_bind rfl fun _ i₃ => (takes_block hstmt).bind fun body bs i₄ hbody => ?_
  refine (takes_elifs hexpr hstmt).bind fun branches es i₅ hbranches => ?_
  refine takes_eat_bind rfl (fun i₆ => ?_) ?_
  · simp only [if_true, bind_map_left]
    refine (takes_block hstmt).bind fun otherwise os i₇ hotherwise => ?_
    refine takes_expect_bind rfl fun _ _ => takes_lastSpan_bind fun _ => takes_pure ?_
    simpa using Stmt.Written.branch hcondition hbody hbranches (.some hotherwise) _
  · simp only [Bool.false_eq_true, if_false, pure_bind]
    refine takes_expect_bind rfl fun _ _ => takes_lastSpan_bind fun _ => takes_pure ?_
    simpa using Stmt.Written.branch hcondition hbody hbranches .none _

theorem takes_whileStatement (hexpr : TakesAt 8 expr) (hstmt : TakesStatements stmt)
    {start : Span} : Takes (whileStatement expr stmt bound start) i Stmt.Written := by
  rw [whileStatement]
  refine takes_expect_bind rfl fun _ i₁ => (hexpr i₁).bind fun condition cs i₂ hcondition => ?_
  refine takes_expect_bind rfl fun _ i₃ => (takes_block hstmt).bind fun body bs i₄ hbody => ?_
  refine takes_expect_bind rfl fun _ _ => takes_lastSpan_bind fun _ => takes_pure ?_
  simpa using Stmt.Written.whileLoop hcondition hbody _

theorem takes_forStatement (hexpr : TakesAt 8 expr) (hstmt : TakesStatements stmt) {start : Span} :
    Takes (forStatement expr stmt bound start) i Stmt.Written := by
  rw [forStatement]
  refine takes_expect_bind rfl fun _ _ => takes_expect_bind rfl fun _ _ => ?_
  refine (takes_unlessAt fun i => takes_simpleStatement hexpr).bind fun init is _ hinit => ?_
  refine takes_expect_bind rfl fun _ _ => ?_
  refine (takes_unlessAt hexpr).bind fun condition cs _ hcondition => ?_
  refine takes_expect_bind rfl fun _ _ => ?_
  refine (takes_unlessAt fun i => takes_simpleStatement hexpr).bind ?_
  intro increment ns _ hincrement
  refine takes_expect_bind rfl fun _ _ => takes_expect_bind rfl fun _ _ => ?_
  refine (takes_block hstmt).bind fun body bs _ hbody => ?_
  refine takes_expect_bind rfl fun _ _ => takes_lastSpan_bind fun _ => takes_pure ?_
  simpa using Stmt.Written.forLoop hinit hcondition hincrement hbody _

theorem takes_parameters {what : String} :
    Takes (itemsUntil .rightParen what parameter bound) i fun params ks =>
      ks = commas (params.map Slot.kinds) ++ [.symbol .rightParen] ∧
        ∀ slot ∈ params, slot.tag.canDeclare = true := by
  have hitems : Takes (itemsUntil .rightParen what parameter bound) i fun params ks =>
      ∃ kss, ks = commas kss ++ [.symbol .rightParen] ∧
        kss = params.map Slot.kinds ∧ ∀ slot ∈ params, slot.tag.canDeclare = true := by
    refine takes_itemsUntil ⟨rfl, nofun⟩ ?_ (fun i => takes_parameter) i
    rintro slot params _ _ ⟨rfl, hslot⟩ ⟨rfl, hparams⟩
    exact ⟨rfl, List.forall_mem_cons.mpr ⟨hslot, hparams⟩⟩
  refine hitems.mono ?_
  rintro params _ ⟨_, rfl, rfl, hparams⟩
  exact ⟨rfl, hparams⟩

theorem takes_functionDecl (hstmt : TakesStatements stmt) :
    Takes (functionDecl stmt bound) i Stmt.WrittenFunc := by
  rw [functionDecl]
  refine takes_expect_bind rfl fun _ _ => takes_typeTag.bind ?_
  rintro returns _ _ ⟨rfl, hreturns, -⟩
  refine takes_identifier_bind fun name _ => takes_expect_bind rfl fun _ _ => ?_
  refine takes_parameters.bind ?_
  rintro params _ _ ⟨rfl, hparams⟩
  refine takes_expect_bind rfl fun _ _ => (takes_block hstmt).bind fun body bs _ hbody => ?_
  refine takes_expect_bind rfl fun _ _ => takes_lastSpan_bind fun _ => takes_pure ?_
  simpa using Stmt.WrittenFunc.mk name hparams hreturns hbody _

theorem takes_members (hstmt : TakesStatements stmt) {turns : Nat} :
    Takes (members stmt bound turns) i fun found => Stmt.WrittenMembers found.1 found.2 := by
  induction turns generalizing i with
  | zero => exact takes_failExpected
  | succ turns ih =>
    rw [members]
    refine takes_current_bind ?_
    split
    · exact takes_pure .nil
    · refine takes_fieldDeclaration.bind ?_
      rintro field _ _ ⟨rfl, hfield⟩
      refine ih.bind fun found more _ hfound => takes_pure ?_
      rw [List.append_nil]
      exact .field hfield hfound
    · refine (takes_functionDecl hstmt).bind fun method ks _ hmethod => ?_
      refine ih.bind fun found more _ hfound => takes_pure ?_
      rw [List.append_nil]
      exact .method hmethod hfound
    · exact takes_failExpected

theorem takes_classDecl (hstmt : TakesStatements stmt) :
    Takes (classDecl stmt bound) i Stmt.WrittenClass := by
  rw [classDecl]
  refine takes_expect_bind rfl fun _ _ => takes_identifier_bind fun name _ => ?_
  refine takes_optionalWord_bind rfl fun withDo _ => ?_
  refine (takes_members hstmt).bind fun found ks _ hfound => ?_
  refine takes_expect_bind rfl fun _ _ => takes_lastSpan_bind fun _ => takes_pure ?_
  simpa using Stmt.WrittenClass.mk name withDo hfound _

/-! ## Statements -/

/-- The span of a statement does not show in how it is written. -/
theorem writtenClause_withSpan {s : Stmt} {ks : List Kind} (h : s.WrittenClause ks) (span : Span) :
    (s.withSpan span).WrittenClause ks := by
  cases h with
  | declare constant htag name => exact .declare constant htag name span
  | declareAs constant htag name hinitial => exact .declareAs constant htag name hinitial span
  | assign htarget hvalue => exact .assign htarget hvalue span
  | eval hvalue => exact .eval hvalue span

/-- A statement that ends with a semicolon is taken with it. -/
theorem takes_closed {part : Parser Stmt} {start : Span} {what : String}
    (hpart : Takes part i fun s ks =>
      ∀ span, (s.withSpan span).Written (ks ++ [.symbol .semicolon])) :
    Takes (closed start what part) i Stmt.Written := by
  rw [closed]
  refine hpart.bind fun s ks _ hs => takes_expect_bind rfl fun _ _ => ?_
  exact takes_lastSpan_bind fun _ => takes_pure (hs _)

theorem takes_closedClause {part : Parser Stmt} {start : Span} {what : String}
    (hpart : Takes part i Stmt.WrittenClause) : Takes (closed start what part) i Stmt.Written :=
  takes_closed (hpart.mono fun _ _ hs span => .clause (writtenClause_withSpan hs span))

/-- A statement was written as the tokens that are gone, if its expressions and the statements in
its blocks were. -/
theorem takes_statementOver (hexpr : TakesAt 8 expr) (hstmt : TakesStatements stmt) :
    TakesStatements (statementOver expr stmt bound) := by
  intro i
  rw [statementOver]
  refine takes_current_bind ?_
  split
  case h_1 => exact takes_closedClause (takes_declaration hexpr)
  case h_2 hk =>
    refine takes_closed (takes_advance_bind hk rfl fun i₁ => ?_)
    refine (hexpr i₁).bind fun value vs _ hvalue => takes_pure fun span => ?_
    rw [List.append_nil]
    exact .print hvalue span
  case h_3 => exact takes_ifStatement hexpr hstmt
  case h_4 => exact takes_whileStatement hexpr hstmt
  case h_5 => exact takes_forStatement hexpr hstmt
  case h_6 =>
    refine (takes_functionDecl hstmt).bind fun decl ks _ hdecl => ?_
    refine takes_lastSpan_bind fun _ => takes_pure ?_
    rw [List.append_nil]
    exact .function hdecl _
  case h_7 =>
    refine (takes_classDecl hstmt).bind fun decl ks _ hdecl => ?_
    refine takes_lastSpan_bind fun _ => takes_pure ?_
    rw [List.append_nil]
    exact .classDef hdecl _
  case h_8 hk => exact takes_closed (takes_advance_bind hk rfl fun _ => takes_pure .breakLoop)
  case h_9 hk => exact takes_closed (takes_advance_bind hk rfl fun _ => takes_pure .skip)
  case h_10 hk =>
    refine takes_closed (takes_advance_bind hk rfl fun _ => ?_)
    refine (takes_unlessAt hexpr).bind fun value vs _ hvalue => takes_pure fun span => ?_
    rw [List.append_nil]
    exact .giveBack hvalue span
  case h_11 => exact takes_closedClause (takes_simpleStatement hexpr)

/-- **A statement that is read was written as the tokens that are gone.** -/
theorem takes_statement (bound : Nat) : TakesStatements (statement bound) := by
  induction bound with
  | zero => exact fun i => takes_failExpected
  | succ bound ih =>
    rw [statement]
    exact takes_statementOver (takes_expression (bound + 1)) ih

end Parser

/-! ## Programs -/

theorem Stmt.Written.ne_nil {s : Stmt} {ks : List Kind} (h : s.Written ks) : ks ≠ [] := by
  cases h with
  | clause => simp
  | print | branch | whileLoop | forLoop | breakLoop | skip | giveBack => simp
  | function h => cases h; simp
  | classDef h => cases h; simp

/-- Statements are read one after the other. Each one takes a token, so the bound is not reached
before the end of the input. -/
theorem writtenBlock_of_parseStatements {bound : Nat} {i : Input}
    (hbound : i.kinds.length ≤ bound) (h : (parseStatements bound i).failure = none) :
    Stmt.WrittenBlock (parseStatements bound i).statements i.kinds := by
  induction bound generalizing i with
  | zero =>
    have hnil : i.kinds = [] := List.eq_nil_of_length_eq_zero (Nat.le_zero.mp hbound)
    rw [hnil]
    exact .nil
  | succ bound ih =>
    rw [parseStatements] at h ⊢
    split
    · rename_i hrest
      rw [Input.kinds, List.isEmpty_iff.mp hrest]
      exact .nil
    · rename_i hrest
      rw [if_neg hrest] at h
      cases hread : Parser.statement (bound + 1) i with
      | error e =>
        rw [hread] at h
        cases h
      | ok r =>
        obtain ⟨s, after⟩ := r
        rw [hread] at h
        obtain ⟨ks, hks, hs⟩ := Parser.takes_statement (bound + 1) i s after hread
        have hpos := List.length_pos_iff.mpr hs.ne_nil
        rw [hks, List.length_append] at hbound
        rw [hks]
        exact .cons hs (ih (by omega) h)

/-- **The parser accepts only its grammar and loses no token.** The tokens before the first one that
marks the end of the input are a way to write the program that they are read as: they are its kinds,
but for parentheses around expressions, the word `do` after the name of a class, and the order
between the fields and the methods of a class. -/
theorem writtenBlock_of_parse {ts : List Token} (h : (parse ts).failure = none) :
    Stmt.WrittenBlock (parse ts).statements
      ((ts.takeWhile fun t => !t.kind.isEnd).map Token.kind) :=
  writtenBlock_of_parseStatements (Nat.le_of_eq (List.length_map _)) h

/-- A class whose method stands before its field, with the word `do` after its name, and an
assignment with more parentheses than it needs, followed by an end and one more token. -/
def redundantTokens : List Token :=
  [.keyword .classKw, .identifier "A", .keyword .doKw,
    .keyword .funcKw, .keyword .voidKw, .identifier "f", .symbol .leftParen, .symbol .rightParen,
    .keyword .doKw, .keyword .endFuncKw,
    .keyword .setKw, .keyword .numberKw, .identifier "x", .symbol .semicolon, .keyword .endClassKw,
    .symbol .leftParen, .identifier "a", .symbol .leftBracket, .symbol .leftParen, .number 0,
    .symbol .rightParen, .symbol .rightBracket, .symbol .rightParen, .symbol .equal,
    .symbol .leftParen, .symbol .leftParen, .identifier "b", .symbol .plus, .identifier "c",
    .symbol .rightParen, .symbol .rightParen, .symbol .star, .identifier "d", .symbol .semicolon,
    .endOfInput, .keyword .elseKw].map fun kind => ⟨kind, {}⟩

theorem writtenBlock_redundantTokens : (parse redundantTokens).failure = none ∧
    (parse redundantTokens).statements.length = 2 ∧
    Stmt.WrittenBlock (parse redundantTokens).statements
      ((redundantTokens.takeWhile fun t => !t.kind.isEnd).map Token.kind) := by
  have haccepted : (parse redundantTokens).failure = none := by decide +kernel
  exact ⟨haccepted, by decide +kernel, writtenBlock_of_parse haccepted⟩

end Chalk
