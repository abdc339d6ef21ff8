import Chalk.Proofs.Reading

/-!
# Reading expressions

A written expression is read back at every rank that a place can admit. The parsers of the ranks are
stacked, each one reading operands with the one below. Those that group to the left are loops: they
read an operand and go on as long as an operator of theirs follows.

A loop does not come back between the operands of one expression. What can be said about an
expression on the left of an operator is therefore not that it is read, but that reading comes to
the point where the loop goes on with it (`Parser.GrowsAt`). The expression is read if nothing of
the loop follows.

## Main definitions

* `Kind.joins` — the rank of the expressions that a token continues
* `Parser.reader` — the parser of a rank, with a bound for its own repetition
* `Parser.ReadsAt`, `Parser.GrowsAt` — an expression is read at a rank; a loop comes to it

## Main results

* `Parser.readsAt_of_own` — an expression that is read at its own rank is read at all of them
* `Parser.reads_expression` — every expression is read back
-/

namespace Chalk

/-! ## What a token continues -/

/-- The rank of the expressions that a token continues, and 9 for one that continues none. -/
def Kind.joins : Kind → Nat
  | .keyword .orKw => 8
  | .keyword .andKw => 7
  | .symbol .equalEqual | .symbol .bangEqual | .symbol .less | .symbol .lessEqual
  | .symbol .greater | .symbol .greaterEqual => 6
  | .symbol .plus | .symbol .minus => 5
  | .symbol .star | .symbol .slash | .symbol .percent => 4
  | .symbol .caret => 3
  | .symbol .leftParen | .symbol .dot | .symbol .leftBracket => 1
  | _ => 9

@[simp] theorem BinaryOp.joins_kind (op : BinaryOp) : op.kind.joins = op.rank := by
  cases op <;> rfl

@[simp] theorem LogicalOp.joins_kind (op : LogicalOp) : op.kind.joins = op.rank := by
  cases op <;> rfl

/-! ## How written expressions start -/

/-- The token starts an atom. -/
def Kind.startsAtom : Kind → Bool
  | .number _ | .string _ | .identifier _ | .keyword .trueKw | .keyword .falseKw | .keyword .thisKw
  | .symbol .leftParen | .symbol .leftBracket | .symbol .leftBrace => true
  | _ => false

/-- The token starts an expression at a place that admits the given rank. -/
def Kind.starts (admitted : Nat) (k : Kind) : Prop :=
  k.startsAtom = true ∨ 2 ≤ admitted ∧ (Parser.unary? k).isSome = true

theorem Kind.starts.mono {k : Kind} {admitted admitted' : Nat} (h : k.starts admitted)
    (hle : admitted ≤ admitted') : k.starts admitted' :=
  h.imp_right fun ⟨hunary, hsome⟩ => ⟨by omega, hsome⟩

theorem next_enclosed {own admitted least : Nat} {ks more : List Kind}
    (h : (next (ks ++ more)).starts least) (hle : least ≤ own) :
    (next (enclosed own admitted ks ++ more)).starts admitted := by
  rw [enclosed]
  split
  · exact .inl rfl
  · exact h.mono (by omega)

theorem BinaryOp.leftRank_le (op : BinaryOp) : op.leftRank ≤ op.rank := by
  cases op <;> decide

/-- A written expression starts as its place admits. -/
theorem Expr.starts_kinds (e : Expr) (admitted : Nat) (more : List Kind) :
    (next (e.kinds admitted ++ more)).starts admitted := by
  match e with
  | .number .. | .string .. | .name .. | .receiver .. | .list .. | .dict .. => exact .inl rfl
  | .boolean value _ => cases value <;> exact .inl rfl
  | .binary op left right _ =>
    rw [Expr.kinds]
    refine next_enclosed ?_ op.leftRank_le
    rw [List.append_assoc]
    exact left.starts_kinds _ _
  | .logical op left right _ =>
    rw [Expr.kinds]
    refine next_enclosed ?_ (Nat.le_refl _)
    rw [List.append_assoc]
    exact left.starts_kinds _ _
  | .unary op operand _ =>
    rw [Expr.kinds]
    have hunary : (next (op.kind :: operand.kinds 2 ++ more)).starts 2 := by
      refine .inr ⟨Nat.le_refl 2, ?_⟩
      cases op <;> rfl
    exact next_enclosed hunary (Nat.le_refl 2)
  | .call callee arguments _ =>
    rw [Expr.kinds]
    refine next_enclosed ?_ (Nat.le_refl _)
    simp only [List.append_assoc]
    exact callee.starts_kinds _ _
  | .field object id _ =>
    rw [Expr.kinds]
    refine next_enclosed ?_ (Nat.le_refl _)
    rw [List.append_assoc]
    exact object.starts_kinds _ _
  | .index container position _ =>
    rw [Expr.kinds]
    refine next_enclosed ?_ (Nat.le_refl _)
    simp only [List.append_assoc]
    exact container.starts_kinds _ _

theorem Expr.kinds_ne_nil (e : Expr) (admitted : Nat) : e.kinds admitted ≠ [] := by
  intro hnil
  have hstarts := e.starts_kinds admitted []
  rw [hnil] at hstarts
  rcases hstarts with hatom | ⟨-, hunary⟩
  · cases hatom
  · cases hunary

/-! ## Parentheses -/

theorem Expr.kinds_of_rank_le {e : Expr} {admitted : Nat} (h : e.rank ≤ admitted) :
    e.kinds admitted = e.kinds e.rank := by
  cases e <;> simp only [Expr.kinds, Expr.rank] at h ⊢ <;> simp [enclosed, Nat.not_lt.mpr h]

theorem Expr.kinds_of_lt_rank {e : Expr} {admitted : Nat} (h : admitted < e.rank) :
    e.kinds admitted = .symbol .leftParen :: e.kinds e.rank ++ [.symbol .rightParen] := by
  cases e <;> simp only [Expr.kinds, Expr.rank] at h ⊢ <;>
    first
    | omega
    | simp [enclosed, h]

theorem Expr.kinds_succ {e : Expr} {rank : Nat} (h : e.rank ≠ rank + 1) :
    e.kinds (rank + 1) = e.kinds rank := by
  by_cases hle : e.rank ≤ rank
  · rw [e.kinds_of_rank_le hle, e.kinds_of_rank_le (by omega)]
  · have hlt : rank + 1 < e.rank := by omega
    rw [e.kinds_of_lt_rank hlt, e.kinds_of_lt_rank (Nat.lt_of_succ_lt hlt)]

theorem Expr.rank_le (e : Expr) : e.rank ≤ 8 := by
  cases e with
  | binary op => cases op <;> simp [Expr.rank, BinaryOp.rank]
  | logical op => cases op <;> simp [Expr.rank, LogicalOp.rank]
  | _ => simp [Expr.rank]

namespace Parser

/-! ## The parsers of the ranks -/

/-- The operators of the ranks that group to the left. -/
def operator? : Nat → Kind → Option (Expr → Expr → Expr)
  | 4 => multiplicative?
  | 5 => additive?
  | 6 => comparison?
  | 7 => andOperator?
  | _ => orOperator?

/-- The parser of a rank. Its own repetition is bounded by `turns`, those of the ranks below by
`bound`. -/
def reader (inner : Parser Expr) (bound : Nat) : Nat → Nat → Parser Expr
  | 0, _ => primary inner bound
  | 1, turns => primary inner bound >>= suffixes inner bound turns
  | 2, turns => unary (reader inner bound 1 bound) turns
  | 3, turns => power (reader inner bound 2 bound) turns
  | rank + 4, turns => leftLevel (operator? (rank + 4)) turns (reader inner bound (rank + 3) bound)

theorem expressionOver_eq_reader (inner : Parser Expr) (bound : Nat) :
    expressionOver inner bound = reader inner bound 8 bound := rfl

/-- How the parser of a rank goes on from an expression, if it is a loop. -/
def loop (inner : Parser Expr) (bound : Nat) : Nat → Nat → Expr → Parser Expr
  | 1, turns, e => suffixes inner bound turns e
  | rank + 4, turns, e =>
    operands (reader inner bound (rank + 3) bound) (operator? (rank + 4)) turns e
  | _, _, e => pure e

/-- The parser of the rank is a loop. -/
def IsLoop (rank : Nat) : Prop := rank = 1 ∨ 4 ≤ rank

variable {inner : Parser Expr} {bound limit rank : Nat} {e : Expr}

theorem reader_eq_bind_loop (h : IsLoop (rank + 1)) (turns : Nat) :
    reader inner bound (rank + 1) turns =
      reader inner bound rank bound >>= loop inner bound (rank + 1) turns := by
  match rank, h with
  | 0, _ => rfl
  | 1, h | 2, h => exact absurd h (by simp [IsLoop])
  | _ + 3, _ => rfl

/-- A token that is an operator of a rank continues expressions of that rank. -/
theorem joins_of_operator? {k : Kind} {combine : Expr → Expr → Expr} (hrank : 4 ≤ rank)
    (hle : rank ≤ 8) (h : operator? rank k = some combine) : k.joins = rank := by
  obtain rfl | rfl | rfl | rfl | rfl : rank = 4 ∨ rank = 5 ∨ rank = 6 ∨ rank = 7 ∨ rank = 8 := by
    omega
  · simp only [operator?, multiplicative?] at h
    split at h <;> first | rfl | cases h
  · simp only [operator?, additive?] at h
    split at h <;> first | rfl | cases h
  · simp only [operator?, comparison?] at h
    split at h <;> first | rfl | cases h
  · simp only [operator?, andOperator?] at h
    split at h <;> first | rfl | cases h
  · simp only [operator?, orOperator?] at h
    split at h <;> first | rfl | cases h

/-! ## Expressions that are read -/

/-- The results that are the given expression, up to spans. -/
abbrev Gives (e : Expr) (e' : Expr) : Prop := e'.bare = e.bare

/-- The parser reads every expression that is written in at most `limit` tokens, where what follows
does not continue it. -/
def ReadsUpTo (limit : Nat) (p : Parser Expr) : Prop :=
  ∀ (e : Expr) (more : List Kind), 8 < (next more).joins → (e.kinds 8 ++ more).length ≤ limit →
    Reads p (e.kinds 8 ++ more) more (Gives e)

/-- The expression is read at a rank if what follows does not continue it there. -/
def ReadsAt (inner : Parser Expr) (bound rank : Nat) (e : Expr) : Prop :=
  ∀ (turns : Nat) (more : List Kind), rank < (next more).joins →
    (e.kinds rank ++ more).length ≤ turns → (e.kinds rank ++ more).length ≤ bound →
    Reads (reader inner bound rank turns) (e.kinds rank ++ more) more (Gives e)

/-- The loop of a rank comes to the expression, and whatever it reads from there on is read. -/
def GrowsAt (inner : Parser Expr) (bound rank : Nat) (e : Expr) : Prop :=
  ∀ (turns : Nat) (more after : List Kind) (good : Expr → Prop), rank ≤ (next more).joins →
    (e.kinds rank ++ more).length ≤ turns → (e.kinds rank ++ more).length ≤ bound →
    (∀ e' left, Gives e e' → more.length ≤ left →
      Reads (loop inner bound rank left e') more after good) →
    Reads (reader inner bound rank turns) (e.kinds rank ++ more) after good

/-- The loop stops at a token that does not continue expressions of its rank. -/
theorem reads_loop_of_lt_joins {more : List Kind} (hle : rank ≤ 8) (h : rank < (next more).joins)
    (left : Nat) : Reads (loop inner bound rank left e) more more (· = e) := by
  match rank, left with
  | 0, _ | 2, _ | 3, _ | 1, 0 | _ + 4, 0 => exact reads_pure rfl
  | 1, left + 1 =>
    have hne : ∀ sign : Symbol, (Kind.symbol sign).joins = 1 → next more ≠ .symbol sign := by
      intro sign hsign heq
      rw [heq, hsign] at h
      exact Nat.lt_irrefl 1 h
    rw [loop, suffixes]
    refine reads_eat_bind_of_ne (hne _ rfl) ?_
    refine reads_eat_bind_of_ne (hne _ rfl) ?_
    refine reads_eat_bind_of_ne (hne _ rfl) ?_
    exact reads_pure rfl
  | rank + 4, left + 1 =>
    rw [loop, operands]
    refine reads_current_bind fun t ht => ?_
    rw [ht]
    cases hop : operator? (rank + 4) (next more) with
    | none => exact reads_pure rfl
    | some combine =>
      have hjoins := joins_of_operator? (by omega) hle hop
      omega

theorem GrowsAt.readsAt (h : GrowsAt inner bound rank e) (hle : rank ≤ 8) :
    ReadsAt inner bound rank e := by
  intro turns more hjoins hturns hbound
  refine h turns more more (Gives e) (Nat.le_of_lt hjoins) hturns hbound ?_
  intro e' left he' _
  refine (reads_loop_of_lt_joins hle hjoins left).mono ?_
  rintro _ rfl
  exact he'

/-! ## From one rank to the next -/

/-- A loop comes to the operands that are not of its own rank. -/
theorem ReadsAt.growsAt_succ (h : ReadsAt inner bound rank e) (hne : e.rank ≠ rank + 1)
    (hloop : IsLoop (rank + 1)) : GrowsAt inner bound (rank + 1) e := by
  intro turns more after good hjoins hturns hbound hloops
  rw [Expr.kinds_succ hne] at hturns hbound ⊢
  rw [reader_eq_bind_loop hloop]
  refine (h bound more hjoins hbound hbound).bind fun e' he' => ?_
  refine hloops e' turns he' ?_
  rw [List.length_append] at hturns
  omega

theorem ReadsAt.power (h : ReadsAt inner bound 2 e) (hne : e.rank ≠ 3) :
    ReadsAt inner bound 3 e := by
  intro turns more hjoins hturns hbound
  rw [Expr.kinds_succ hne] at hturns hbound ⊢
  have hbase := h bound more (by omega) hbound hbound
  cases turns with
  | zero => exact hbase
  | succ turns =>
    rw [reader, Parser.power]
    refine hbase.bind fun e' he' => ?_
    refine reads_eat_bind_of_ne ?_ (reads_pure he')
    intro hcaret
    rw [hcaret] at hjoins
    exact Nat.lt_irrefl 3 hjoins

theorem ReadsAt.unary (h : ReadsAt inner bound 1 e) (hne : e.rank ≠ 2) :
    ReadsAt inner bound 2 e := by
  intro turns more hjoins hturns hbound
  rw [Expr.kinds_succ hne] at hturns hbound ⊢
  have hoperand := h bound more (by omega) hbound hbound
  cases turns with
  | zero => exact hoperand
  | succ turns =>
    rw [reader, Parser.unary]
    refine reads_current_bind fun t ht => ?_
    have hunary : unary? t.kind = none := by
      rw [ht]
      rcases e.starts_kinds 1 more with hatom | ⟨hle, -⟩
      · revert hatom
        cases next (e.kinds 1 ++ more) with
        | keyword word => cases word <;> simp [Kind.startsAtom, unary?]
        | symbol sign => cases sign <;> simp [Kind.startsAtom, unary?]
        | _ => simp [unary?]
      · exact absurd hle (by decide)
    rw [hunary]
    exact hoperand

theorem ReadsAt.succ (h : ReadsAt inner bound rank e) (hne : e.rank ≠ rank + 1)
    (hle : rank + 1 ≤ 8) : ReadsAt inner bound (rank + 1) e := by
  match rank, h with
  | 1, h => exact h.unary hne
  | 2, h => exact h.power hne
  | 0, h => exact (h.growsAt_succ hne (.inl rfl)).readsAt hle
  | rank + 3, h => exact (h.growsAt_succ hne (.inr (by omega))).readsAt hle

theorem ReadsAt.of_le {rank' : Nat} (h : ReadsAt inner bound rank e) (hle : rank ≤ rank')
    (hrank : rank' ≤ 8) (hne : e.rank ≤ rank ∨ rank' < e.rank) : ReadsAt inner bound rank' e := by
  induction hle with
  | refl => exact h
  | @step m hle ih =>
    have hm : rank ≤ m := hle
    exact (ih (by omega) (by omega)).succ (by omega) hrank

/-- An expression in parentheses is an atom. -/
theorem readsAt_zero_of_rank_pos (hinner : ReadsUpTo limit inner)
    (hpos : 0 < e.rank) : ReadsAt inner (limit + 1) 0 e := by
  intro turns more _ _ hbound
  rw [e.kinds_of_lt_rank hpos, ← e.kinds_of_rank_le e.rank_le] at hbound ⊢
  simp only [List.cons_append, List.append_assoc, List.nil_append] at hbound ⊢
  rw [reader, primary]
  refine reads_current_bind fun t ht => ?_
  simp only [ht, next_cons]
  refine reads_advance_bind ?_
  have hlimit := Nat.le_of_succ_le_succ hbound
  refine (hinner e (.symbol .rightParen :: more) (by simp [Kind.joins]) hlimit).bind ?_
  intro e' he'
  exact reads_expect_bind fun _ => reads_pure he'

/-- **An expression that is read at its own rank is read at every rank**: without parentheses above
its own, and with them below. -/
theorem readsAt_of_own (hinner : ReadsUpTo limit inner)
    (hown : ReadsAt inner (limit + 1) e.rank e) (hle : rank ≤ 8) :
    ReadsAt inner (limit + 1) rank e := by
  by_cases hrank : e.rank ≤ rank
  · exact hown.of_le hrank hle (.inl (Nat.le_refl _))
  · have hatom := readsAt_zero_of_rank_pos hinner (e := e) (by omega)
    exact hatom.of_le (Nat.zero_le _) hle (.inr (by omega))

/-! ## Operators -/

theorem operator?_kind {op : BinaryOp} (h : op ≠ .pow) :
    operator? op.rank op.kind = some (.mkBinary op) := by
  cases op <;> first | rfl | exact absurd rfl h

theorem operator?_logical (op : LogicalOp) :
    operator? op.rank op.kind = some (.mkLogical op) := by
  cases op <;> rfl

/-- A loop comes to an operator between two operands if it comes to the left one and the right one
is read one rank below. -/
theorem growsAt_of_operator {k : Kind} {combine : Expr → Expr → Expr} {left right : Expr}
    (hkinds : e.kinds (rank + 4) = left.kinds (rank + 4) ++ k :: right.kinds (rank + 3))
    (hop : operator? (rank + 4) k = some combine) (hjoins : k.joins = rank + 4)
    (hgives : ∀ left' right', Gives left left' → Gives right right' →
      Gives e (combine left' right'))
    (hleft : GrowsAt inner bound (rank + 4) left) (hright : ReadsAt inner bound (rank + 3) right) :
    GrowsAt inner bound (rank + 4) e := by
  intro turns more after good hmore hturns hbound hloops
  rw [hkinds, List.append_assoc] at hturns hbound ⊢
  refine hleft turns _ after good (Nat.le_of_eq hjoins.symm) hturns hbound ?_
  intro left' turns' hleft' hlength
  cases turns' with
  | zero => cases hlength
  | succ turns' =>
    have hright' := length_le_of_cons (length_le_of_append hbound)
    have hmore' := length_le_of_append (Nat.le_of_succ_le_succ hlength)
    rw [loop, operands]
    refine reads_current_bind fun t ht => ?_
    rw [ht, List.cons_append, next_cons, hop]
    refine reads_advance_bind ?_
    refine (hright bound more hmore hright' hright').bind fun right' hright' => ?_
    exact hloops _ turns' (hgives left' right' hleft' hright') hmore'

/-- A power is read if its base is read as the operand of a prefix operator is, and its exponent as
a power. -/
theorem readsAt_pow {left right : Expr} {span : Span} (hleft : ReadsAt inner bound 2 left)
    (hright : ReadsAt inner bound 3 right) :
    ReadsAt inner bound 3 (.binary .pow left right span) := by
  intro turns more hmore hturns hbound
  have hkinds : (Expr.binary .pow left right span).kinds 3 =
      left.kinds 2 ++ .symbol .caret :: right.kinds 3 := rfl
  rw [hkinds, List.append_assoc] at hturns hbound ⊢
  have hbase := hleft bound (.symbol .caret :: (right.kinds 3 ++ more)) (by simp [Kind.joins])
    hbound hbound
  have hrest := length_le_of_append hturns
  cases turns with
  | zero => cases hrest
  | succ turns =>
    have hexponent := hright turns more hmore (Nat.le_of_succ_le_succ hrest)
      (length_le_of_cons (length_le_of_append hbound))
    rw [reader, power]
    refine hbase.bind fun left' hleft' => ?_
    refine reads_eat_bind ?_
    simp only [if_true]
    refine hexponent.bind fun right' hright' => reads_pure ?_
    simp only [Gives, Expr.mkBinary, Expr.bare, hleft', hright']

/-- A prefix operator is read if its operand is. -/
theorem readsAt_unary {op : UnaryOp} {operand : Expr} {span : Span}
    (hoperand : ReadsAt inner bound 2 operand) :
    ReadsAt inner bound 2 (.unary op operand span) := by
  intro turns more hmore hturns hbound
  have hkinds : (Expr.unary op operand span).kinds 2 = op.kind :: operand.kinds 2 := rfl
  rw [hkinds] at hturns hbound ⊢
  cases turns with
  | zero => cases hturns
  | succ turns =>
    have hread := hoperand turns more hmore (Nat.le_of_succ_le_succ hturns)
      (length_le_of_cons hbound)
    have hop : unary? op.kind = some op := by cases op <;> rfl
    rw [reader, unary]
    refine reads_current_bind fun t ht => ?_
    rw [ht, List.cons_append, next_cons, hop]
    refine reads_advance_bind ?_
    refine hread.bind fun operand' hoperand' => reads_pure ?_
    simp only [Gives, Expr.bare, hoperand']

/-! ## Items of lists, dicts and calls -/

/-- No written expression starts with a closing delimiter, a comma or the like. -/
theorem next_kinds_ne {k : Kind} (hatom : k.startsAtom = false) (hunary : unary? k = none)
    (e : Expr) (admitted : Nat) (more : List Kind) : next (e.kinds admitted ++ more) ≠ k := by
  intro heq
  rcases e.starts_kinds admitted more with hstarts | ⟨-, hstarts⟩
  · rw [heq, hatom] at hstarts
    cases hstarts
  · rw [heq, hunary] at hstarts
    cases hstarts

/-- The expressions between the delimiters of a list or a call are read. -/
theorem reads_expressions (hinner : ReadsUpTo limit inner) {close : Symbol} {what : String}
    (hclose : close = .rightBracket ∨ close = .rightParen) {es : List Expr} {more : List Kind}
    (hlimit : (commas (Expr.kindsList es) ++ .symbol close :: more).length ≤ limit)
    (hle : limit ≤ bound) :
    Reads (itemsUntil close what inner bound) (commas (Expr.kindsList es) ++ .symbol close :: more)
      more (fun es' => Expr.bareList es' = Expr.bareList es) := by
  rw [Expr.kindsList_eq_map] at hlimit ⊢
  refine (reads_itemsUntil Expr.bare ?_ (fun e _ more hmore hlength => ?_)
    (fun e _ more => ?_) hlimit hle).mono fun es' hes' => ?_
  · rcases hclose with rfl | rfl <;> decide
  · refine hinner e more ?_ hlength
    rcases hclose with rfl | rfl <;> rcases hmore with hnext | hnext <;> rw [hnext] <;> decide
  · rcases hclose with rfl | rfl <;> exact next_kinds_ne rfl rfl e 8 more
  · rw [Expr.bareList_eq_map, Expr.bareList_eq_map, hes']

/-- The entries between the braces of a dict are read. -/
theorem reads_entries (hinner : ReadsUpTo limit inner) {what : String}
    {entries : List (Expr × Expr)} {more : List Kind}
    (hlimit : (commas (Expr.kindsEntries entries) ++ .symbol .rightBrace :: more).length ≤ limit)
    (hle : limit ≤ bound) :
    Reads (itemsUntil .rightBrace what (dictEntry inner) bound)
      (commas (Expr.kindsEntries entries) ++ .symbol .rightBrace :: more) more
      (fun entries' => Expr.bareEntries entries' = Expr.bareEntries entries) := by
  rw [Expr.kindsEntries_eq_map] at hlimit ⊢
  refine (reads_itemsUntil (fun entry => (entry.1.bare, entry.2.bare)) (by decide)
    (fun entry _ more hmore hlength => ?_) (fun entry _ more => ?_) hlimit hle).mono
      fun entries' hentries' => ?_
  · rw [List.append_assoc] at hlength ⊢
    rw [dictEntry]
    refine (hinner entry.1 _ (by simp [Kind.joins]) hlength).bind fun key' hkey' => ?_
    refine reads_expect_bind fun _ => ?_
    have hvalue := length_le_of_cons (length_le_of_append hlength)
    have hjoins : 8 < (next more).joins := by
      rcases hmore with hnext | hnext <;> rw [hnext] <;> decide
    refine (hinner entry.2 more hjoins hvalue).bind fun value' hvalue' => reads_pure ?_
    rw [hkey', hvalue']
  · rw [List.append_assoc]
    exact next_kinds_ne rfl rfl entry.1 8 _
  · rw [Expr.bareEntries_eq_map, Expr.bareEntries_eq_map, hentries']

/-! ## Atoms -/

theorem readsAt_list (hinner : ReadsUpTo limit inner) {items : List Expr}
    {span : Span} : ReadsAt inner (limit + 1) 0 (.list items span) := by
  intro turns more _ _ hbound
  simp only [Expr.kinds, List.cons_append, List.append_assoc, List.nil_append] at hbound ⊢
  rw [reader, primary]
  refine reads_current_bind fun t ht => ?_
  simp only [ht, next_cons]
  refine reads_advance_bind ?_
  have hlimit := Nat.le_of_succ_le_succ hbound
  refine (reads_expressions hinner (.inl rfl) hlimit (Nat.le_succ _)).bind fun items' hitems' => ?_
  refine reads_lastSpan_bind fun _ => reads_pure ?_
  simp only [Gives, Expr.bare, hitems']

theorem readsAt_dict (hinner : ReadsUpTo limit inner)
    {entries : List (Expr × Expr)} {span : Span} :
    ReadsAt inner (limit + 1) 0 (.dict entries span) := by
  intro turns more _ _ hbound
  simp only [Expr.kinds, List.cons_append, List.append_assoc, List.nil_append] at hbound ⊢
  rw [reader, primary]
  refine reads_current_bind fun t ht => ?_
  simp only [ht, next_cons]
  refine reads_advance_bind ?_
  have hlimit := Nat.le_of_succ_le_succ hbound
  refine (reads_entries hinner hlimit (Nat.le_succ _)).bind fun entries' hentries' => ?_
  refine reads_lastSpan_bind fun _ => reads_pure ?_
  simp only [Gives, Expr.bare, hentries']

/-! ## Suffixes -/

/-- A loop of suffixes comes to an object with a suffix if it comes to the object and goes on from
there. -/
theorem growsAt_of_suffix {object : Expr} {k : Kind} {suffix : List Kind}
    (hkinds : e.kinds 1 = object.kinds 1 ++ k :: suffix) (hjoins : k.joins = 1)
    (hobject : GrowsAt inner bound 1 object)
    (hsuffix : ∀ object' left more after good, Gives object object' →
      (k :: (suffix ++ more)).length ≤ bound →
      (∀ e', Gives e e' → Reads (suffixes inner bound left e') more after good) →
      Reads (suffixes inner bound (left + 1) object') (k :: (suffix ++ more)) after good) :
    GrowsAt inner bound 1 e := by
  intro turns more after good _ hturns hbound hloops
  rw [hkinds, List.append_assoc] at hturns hbound ⊢
  refine hobject turns _ after good (Nat.le_of_eq hjoins.symm) hturns hbound ?_
  intro object' left hobject' hlength
  cases left with
  | zero => cases hlength
  | succ left =>
    have hmore := length_le_of_append (Nat.le_of_succ_le_succ hlength)
    refine hsuffix object' left more after good hobject' (length_le_of_append hbound) ?_
    exact fun e' he' => hloops e' left he' hmore

theorem growsAt_call (hinner : ReadsUpTo limit inner) {callee : Expr} {arguments : List Expr}
    {span : Span} (hcallee : GrowsAt inner (limit + 1) 1 callee) :
    GrowsAt inner (limit + 1) 1 (.call callee arguments span) := by
  have hkinds : (Expr.call callee arguments span).kinds 1 = callee.kinds 1 ++
      .symbol .leftParen :: (commas (Expr.kindsList arguments) ++ [.symbol .rightParen]) := by
    simp [Expr.kinds, enclosed]
  refine growsAt_of_suffix hkinds rfl hcallee ?_
  intro callee' left more after good hcallee' hbound hmore
  rw [List.append_assoc] at hbound ⊢
  have hlimit := Nat.le_of_succ_le_succ hbound
  rw [suffixes]
  refine reads_eat_bind ?_
  simp only [if_true]
  refine (reads_expressions hinner (.inr rfl) hlimit (Nat.le_succ _)).bind ?_
  intro arguments' harguments'
  refine reads_lastSpan_bind fun span' => hmore _ ?_
  simp only [Gives, Expr.bare, hcallee', harguments']

theorem growsAt_field {object : Expr} {id : String} {span : Span}
    (hobject : GrowsAt inner bound 1 object) :
    GrowsAt inner bound 1 (.field object id span) := by
  refine growsAt_of_suffix rfl rfl hobject ?_
  intro object' left more after good hobject' _ hmore
  rw [suffixes]
  refine reads_eat_bind_of_ne (by simp) ?_
  refine reads_eat_bind (reads_identifier_bind ?_)
  refine reads_lastSpan_bind fun span' => hmore _ ?_
  simp only [Gives, Expr.bare, hobject']

theorem growsAt_index (hinner : ReadsUpTo limit inner) {container position : Expr} {span : Span}
    (hcontainer : GrowsAt inner (limit + 1) 1 container) :
    GrowsAt inner (limit + 1) 1 (.index container position span) := by
  have hkinds : (Expr.index container position span).kinds 1 = container.kinds 1 ++
      .symbol .leftBracket :: (position.kinds 8 ++ [.symbol .rightBracket]) := by
    simp [Expr.kinds, enclosed]
  refine growsAt_of_suffix hkinds rfl hcontainer ?_
  intro container' left more after good hcontainer' hbound hmore
  rw [List.append_assoc] at hbound ⊢
  have hlimit := Nat.le_of_succ_le_succ hbound
  rw [suffixes]
  refine reads_eat_bind_of_ne (by simp) ?_
  refine reads_eat_bind_of_ne (by simp) ?_
  refine reads_eat_bind ?_
  simp only [if_true]
  refine (hinner position _ (by simp [Kind.joins]) hlimit).bind fun position' hposition' => ?_
  refine reads_expect_bind fun _ => ?_
  refine reads_lastSpan_bind fun span' => hmore _ ?_
  simp only [Gives, Expr.bare, hcontainer', hposition']

/-! ## All expressions -/

/-- The expression is read at every rank, and every loop comes to it. -/
structure Complete (inner : Parser Expr) (bound : Nat) (e : Expr) : Prop where
  reads : ∀ rank, rank ≤ 8 → ReadsAt inner bound rank e
  grows : ∀ rank, rank ≤ 8 → IsLoop rank → GrowsAt inner bound rank e

theorem complete_of_own (hinner : ReadsUpTo limit inner)
    (hreads : ReadsAt inner (limit + 1) e.rank e)
    (hgrows : IsLoop e.rank → GrowsAt inner (limit + 1) e.rank e) :
    Complete inner (limit + 1) e where
  reads rank hle := readsAt_of_own hinner hreads hle
  grows rank hle hloop := by
    by_cases hrank : e.rank = rank
    · subst hrank
      exact hgrows hloop
    · obtain ⟨below, rfl⟩ : ∃ below, rank = below + 1 :=
        ⟨rank - 1, by rcases hloop with h | h <;> omega⟩
      exact (readsAt_of_own hinner hreads (by omega)).growsAt_succ hrank hloop

/-- An expression of a rank that is read by a loop. -/
theorem complete_of_growsAt (hinner : ReadsUpTo limit inner)
    (hgrows : GrowsAt inner (limit + 1) e.rank e) : Complete inner (limit + 1) e :=
  complete_of_own hinner (hgrows.readsAt e.rank_le) fun _ => hgrows

theorem growsAt_binary {op : BinaryOp} {left right : Expr} {span : Span} (hpow : op ≠ .pow)
    (hleft : Complete inner bound left) (hright : Complete inner bound right) :
    GrowsAt inner bound op.rank (.binary op left right span) := by
  obtain ⟨rank, hrank, hle⟩ : ∃ rank, op.rank = rank + 4 ∧ rank + 4 ≤ 8 := by
    cases op <;> first | exact ⟨_, rfl, by decide⟩ | exact absurd rfl hpow
  have hranks : op.leftRank = rank + 4 ∧ op.rightRank = rank + 3 := by
    cases op <;> first | exact ⟨hrank, congrArg Nat.pred hrank⟩ | exact absurd rfl hpow
  have hkinds : (Expr.binary op left right span).kinds (rank + 4) =
      left.kinds (rank + 4) ++ op.kind :: right.kinds (rank + 3) := by
    simp only [Expr.kinds, enclosed, hrank, hranks, Nat.lt_irrefl, if_false]
  have hop := operator?_kind hpow
  rw [hrank] at hop ⊢
  refine growsAt_of_operator hkinds hop (op.joins_kind.trans hrank) ?_
    (hleft.grows _ hle (.inr (by omega))) (hright.reads _ (by omega))
  intro left' right' hleft' hright'
  simp only [Gives, Expr.mkBinary, Expr.bare, hleft', hright']

theorem growsAt_logical {op : LogicalOp} {left right : Expr} {span : Span}
    (hleft : Complete inner bound left) (hright : Complete inner bound right) :
    GrowsAt inner bound op.rank (.logical op left right span) := by
  obtain ⟨rank, hrank, hle⟩ : ∃ rank, op.rank = rank + 4 ∧ rank + 4 ≤ 8 := by
    cases op <;> exact ⟨_, rfl, by decide⟩
  have hkinds : (Expr.logical op left right span).kinds (rank + 4) =
      left.kinds (rank + 4) ++ op.kind :: right.kinds (rank + 3) := by
    simp only [Expr.kinds, enclosed, hrank, Nat.lt_irrefl, if_false]
    rfl
  have hop := operator?_logical op
  rw [hrank] at hop ⊢
  refine growsAt_of_operator hkinds hop (op.joins_kind.trans hrank) ?_
    (hleft.grows _ hle (.inr (by omega))) (hright.reads _ (by omega))
  intro left' right' hleft' hright'
  simp only [Gives, Expr.mkLogical, Expr.bare, hleft', hright']

/-- **Every expression is read at every rank**, if those are that stand in parentheses, brackets and
braces. The induction follows the operands and what suffixes are attached to. -/
theorem complete_expr (hinner : ReadsUpTo limit inner) (e : Expr) :
    Complete inner (limit + 1) e := by
  match e with
  | .number .. | .string .. | .boolean true _ | .boolean false _ | .name .. | .receiver .. =>
    refine complete_of_own hinner (fun turns more _ _ _ => ?_) (by simp [IsLoop, Expr.rank])
    rw [Expr.rank, reader, primary]
    · refine reads_current_bind fun t ht => ?_
      simp only [Expr.kinds, if_true, List.cons_append] at ht ⊢
      simp only [ht, next_cons]
      exact reads_advance_bind (reads_pure rfl)
    all_goals simp
  | .list .. => exact complete_of_own hinner (readsAt_list hinner) (by simp [IsLoop, Expr.rank])
  | .dict .. => exact complete_of_own hinner (readsAt_dict hinner) (by simp [IsLoop, Expr.rank])
  | .binary op left right span =>
    have hleft := complete_expr hinner left
    have hright := complete_expr hinner right
    by_cases hpow : op = .pow
    · subst hpow
      refine complete_of_own hinner ?_ (by simp [IsLoop, Expr.rank, BinaryOp.rank])
      exact readsAt_pow (hleft.reads 2 (by decide)) (hright.reads 3 (by decide))
    · exact complete_of_growsAt hinner (growsAt_binary hpow hleft hright)
  | .logical op left right span =>
    exact complete_of_growsAt hinner
      (growsAt_logical (complete_expr hinner left) (complete_expr hinner right))
  | .unary op operand span =>
    have hoperand := complete_expr hinner operand
    refine complete_of_own hinner (readsAt_unary (hoperand.reads 2 (by decide))) ?_
    simp [IsLoop, Expr.rank]
  | .call callee arguments span =>
    have hcallee := (complete_expr hinner callee).grows 1 (by decide) (.inl rfl)
    exact complete_of_growsAt hinner (growsAt_call hinner hcallee)
  | .field object id span =>
    have hobject := (complete_expr hinner object).grows 1 (by decide) (.inl rfl)
    exact complete_of_growsAt hinner (growsAt_field hobject)
  | .index container position span =>
    have hcontainer := (complete_expr hinner container).grows 1 (by decide) (.inl rfl)
    exact complete_of_growsAt hinner (growsAt_index hinner hcontainer)

/-- **A written expression is read back**, up to spans, whatever follows that does not continue it.
The induction is on the number of tokens: an expression in parentheses, brackets or braces has at
least one token less. -/
theorem reads_expression (bound : Nat) : ReadsUpTo bound (expression bound) := by
  induction bound with
  | zero =>
    intro e more _ hlength
    have hnil : e.kinds 8 = [] := by
      refine List.eq_nil_of_length_eq_zero ?_
      rw [List.length_append] at hlength
      omega
    exact absurd hnil (e.kinds_ne_nil 8)
  | succ bound ih =>
    intro e more hmore hlength
    rw [expression, expressionOver_eq_reader]
    exact (complete_expr ih e).reads 8 (Nat.le_refl 8) _ more hmore hlength hlength

end Parser

end Chalk
