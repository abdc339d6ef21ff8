import Chalk.Proofs.Acceptance
import Chalk.Proofs.Lookahead
import Chalk.Proofs.Parallel.Reading

/-!
# Where statements end

An expression may end at the end of the input, and then it depends on what comes next. A statement
ends with a token of its own, a semicolon or a closing word, so it never peeks: what it reads from
an input, it reads from every input that goes on after it. Nor does it depend on the token in front
of it.

## Main results

* `Parser.follows_expression` — expressions, which peek
* `Parser.follows_statement` — statements, which do not
* `Parser.fresh_statement` — statements do not depend on the token in front
-/

namespace Chalk

namespace Parser

variable {α β : Type} {what : String} {kind : Kind} {i j : Input}
variable {r : Relocation} {more : Option Input} {peeks : Prop} {act : α → α}

/-! ## Expressions -/

section Expressions

variable {inner inner' operand operand' : Parser Expr} {n b b' : Nat}

/-- Parsers of expressions that do the same. -/
abbrev FollowsExpr (r : Relocation) (more : Option Input) (n : Nat) (p q : Parser Expr) : Prop :=
  Follows r more n True (Expr.relocate r) p q

theorem failsAtEnd_dictEntry (hinner : FailsAtEnd what inner) :
    FailsAtEnd what (dictEntry inner) :=
  hinner.bind _

theorem follows_dictEntry (hinner : FollowsExpr r more n inner inner') :
    Follows r more n True (Expr.relocateEntry r) (dictEntry inner) (dictEntry inner') := by
  intro i j hij hi
  refine (hinner i j hij hi).bind fun key i₁ j₁ h₁ l₁ => ?_
  refine followsAt_expect_bind rfl h₁ fun _ i₂ j₂ h₂ l₂ => ?_
  refine (hinner i₂ j₂ h₂ (by omega)).bind fun value i₃ j₃ h₃ _ => ?_
  exact followsAt_pure h₃ rfl

theorem failsAtEnd_primary : FailsAtEnd "expression" (primary inner b) :=
  failsAtEnd_current_bind fun _ => failsAtEnd_failExpected

/-- An atom ends with a token of its own. -/
theorem follows_primary (hend : FailsAtEnd what inner) (hend' : FailsAtEnd what inner')
    (hinner : FollowsExpr r more n inner inner') (hb : n ≤ b) (hb' : n ≤ b') :
    Follows r more (n + 1) peeks (Expr.relocate r) (primary inner b) (primary inner' b') := by
  intro i j hij hi
  by_cases hnil : i.rest = []
  · exact followsAt_of_failsAtEnd hij hnil failsAtEnd_primary failsAtEnd_primary
  rw [primary, primary]
  refine followsAt_current_bind hij (.inr hnil) ?_
  generalize i.current = t
  rw [Token.kind_relocate]
  split
  · exact followsAt_advance_bind hij hnil fun _ _ h₁ _ => followsAt_pure h₁ rfl
  · exact followsAt_advance_bind hij hnil fun _ _ h₁ _ => followsAt_pure h₁ rfl
  · exact followsAt_advance_bind hij hnil fun _ _ h₁ _ => followsAt_pure h₁ rfl
  · exact followsAt_advance_bind hij hnil fun _ _ h₁ _ => followsAt_pure h₁ rfl
  · exact followsAt_advance_bind hij hnil fun _ _ h₁ _ => followsAt_pure h₁ rfl
  · exact followsAt_advance_bind hij hnil fun _ _ h₁ _ => followsAt_pure h₁ rfl
  · refine followsAt_advance_bind hij hnil fun i₁ j₁ h₁ l₁ => ?_
    refine (hinner i₁ j₁ h₁ (by omega)).bind_closing (fun _ => (failsAtEnd_expect rfl).bind _) ?_
    intro e i₂ j₂ h₂ _
    exact followsAt_expect_bind rfl h₂ fun _ i₃ j₃ h₃ _ => followsAt_pure h₃ rfl
  · refine followsAt_advance_bind hij hnil fun i₁ j₁ h₁ l₁ => ?_
    refine (follows_itemsUntil hend hend' hinner hb hb' i₁ j₁ h₁ (by omega)).bind ?_
    intro items i₂ j₂ h₂ _
    refine followsAt_lastSpan_bind h₂ (followsAt_pure h₂ ?_)
    rw [Expr.relocate, Expr.relocateList_eq_map, r.through]
    rfl
  · refine followsAt_advance_bind hij hnil fun i₁ j₁ h₁ l₁ => ?_
    refine (follows_itemsUntil (failsAtEnd_dictEntry hend) (failsAtEnd_dictEntry hend')
      (follows_dictEntry hinner) hb hb' i₁ j₁ h₁ (by omega)).bind ?_
    intro entries i₂ j₂ h₂ _
    refine followsAt_lastSpan_bind h₂ (followsAt_pure h₂ ?_)
    rw [Expr.relocate, Expr.relocateEntries_eq_map, r.through]
    rfl
  · exact followsAt_failExpected hij

theorem returnsAtEnd_suffixes (turns : Nat) (e : Expr) :
    ReturnsAtEnd e (suffixes inner b turns e) := by
  cases turns with
  | zero => exact returnsAtEnd_pure e
  | succ turns =>
    refine returnsAtEnd_eat_bind rfl (returnsAtEnd_eat_bind rfl (returnsAtEnd_eat_bind rfl ?_))
    exact returnsAtEnd_pure e

theorem follows_suffixes (hend : FailsAtEnd what inner) (hend' : FailsAtEnd what inner')
    (hinner : FollowsExpr r more n inner inner') (hb : n ≤ b) (hb' : n ≤ b') {m turns turns' : Nat}
    (hm : m ≤ n + 1) (hturns : m ≤ turns) (hturns' : m ≤ turns') (e : Expr) :
    FollowsExpr r more m (suffixes inner b turns e) (suffixes inner' b' turns' (e.relocate r)) := by
  refine follows_of_bounds (P := fun e turns => suffixes inner b turns e)
    (Q := fun e turns => suffixes inner' b' turns (e.relocate r)) ?_ ?_ hturns hturns' e
  · intro e turns turns' i j hij hnil
    exact followsAt_of_returnsAtEnd hij hnil (returnsAtEnd_suffixes turns e)
      (returnsAtEnd_suffixes turns' (e.relocate r))
  intro k turns turns' hk _ _ hnext e i j hij _ hi
  rw [suffixes, suffixes]
  refine followsAt_eat_bind rfl hij (.inl trivial) (fun i₁ j₁ h₁ l₁ => ?_) ?_
  · refine (follows_itemsUntil hend hend' hinner hb hb' i₁ j₁ h₁ (by omega)).bind ?_
    intro arguments i₂ j₂ h₂ l₂
    refine followsAt_lastSpan_bind h₂ ?_
    have hcall := hnext (.call e arguments (e.span.through i₂.last)) i₂ j₂ h₂ (by omega)
    simp only [Expr.relocate, Expr.relocateList_eq_map, r.through] at hcall
    rw [Expr.span_relocate]
    exact hcall
  refine followsAt_eat_bind rfl hij (.inl trivial) (fun i₁ j₁ h₁ l₁ => ?_) ?_
  · refine followsAt_identifier_bind h₁ fun name i₂ j₂ h₂ l₂ => followsAt_lastSpan_bind h₂ ?_
    have hfield := hnext (.field e name (e.span.through i₂.last)) i₂ j₂ h₂ (by omega)
    simp only [Expr.relocate, r.through] at hfield
    rw [Expr.span_relocate]
    exact hfield
  refine followsAt_eat_bind rfl hij (.inl trivial) (fun i₁ j₁ h₁ l₁ => ?_) ?_
  · refine (hinner i₁ j₁ h₁ (by omega)).bind fun position i₂ j₂ h₂ l₂ => ?_
    refine followsAt_expect_bind rfl h₂ fun _ i₃ j₃ h₃ l₃ => followsAt_lastSpan_bind h₃ ?_
    have hindex := hnext (.index e position (e.span.through i₃.last)) i₃ j₃ h₃ (by omega)
    simp only [Expr.relocate, r.through] at hindex
    rw [Expr.span_relocate]
    exact hindex
  · exact followsAt_pure hij rfl

theorem failsAtEnd_suffixed : FailsAtEnd "expression" (suffixed inner b) :=
  failsAtEnd_primary.bind _

theorem follows_suffixed (hend : FailsAtEnd what inner) (hend' : FailsAtEnd what inner')
    (hinner : FollowsExpr r more n inner inner') (hb : n + 1 ≤ b) (hb' : n + 1 ≤ b') :
    FollowsExpr r more (n + 1) (suffixed inner b) (suffixed inner' b') := by
  intro i j hij hi
  refine (follows_primary hend hend' hinner (by omega) (by omega) i j hij hi).bind ?_
  intro e i₁ j₁ h₁ l₁
  exact follows_suffixes hend hend' hinner (by omega) (by omega) (Nat.le_refl _) hb hb' e i₁ j₁ h₁
    (by omega)

theorem failsAtEnd_unary (hoperand : FailsAtEnd what operand) (b : Nat) :
    FailsAtEnd what (unary operand b) := by
  cases b with
  | zero => exact hoperand
  | succ b => exact failsAtEnd_current_bind fun _ => hoperand

theorem follows_unary (hend : FailsAtEnd what operand) (hend' : FailsAtEnd what operand')
    (hoperand : FollowsExpr r more n operand operand') (hb : n ≤ b) (hb' : n ≤ b') :
    FollowsExpr r more n (unary operand b) (unary operand' b') := by
  refine follows_of_bound (failsAtEnd_unary hend) (failsAtEnd_unary hend') ?_ hb hb'
  intro m b b' hm _ _ hnext i j hij hnil hi
  rw [unary, unary]
  refine followsAt_current_bind hij (.inr hnil) ?_
  generalize i.current = t
  rw [Token.kind_relocate]
  split
  · exact hoperand i j hij (by omega)
  · refine followsAt_advance_bind hij hnil fun i₁ j₁ h₁ l₁ => ?_
    refine (hnext i₁ j₁ h₁ (by omega)).bind fun e i₂ j₂ h₂ _ => followsAt_pure h₂ ?_
    rw [Expr.relocate, r.through, Expr.span_relocate]
    rfl

theorem failsAtEnd_power (hbase : FailsAtEnd what operand) (b : Nat) :
    FailsAtEnd what (power operand b) := by
  cases b with
  | zero => exact hbase
  | succ b => exact hbase.bind _

theorem follows_power (hend : FailsAtEnd what operand) (hend' : FailsAtEnd what operand')
    (hbase : FollowsExpr r more n operand operand') (hb : n ≤ b) (hb' : n ≤ b') :
    FollowsExpr r more n (power operand b) (power operand' b') := by
  refine follows_of_bound (failsAtEnd_power hend) (failsAtEnd_power hend') ?_ hb hb'
  intro m b b' hm _ _ hnext i j hij _ hi
  refine (hbase i j hij (by omega)).bind fun base i₁ j₁ h₁ l₁ => ?_
  refine followsAt_eat_bind rfl h₁ (.inl trivial) (fun i₂ j₂ h₂ l₂ => ?_) (followsAt_pure h₁ rfl)
  refine (hnext i₂ j₂ h₂ (by omega)).bind fun exponent i₃ j₃ h₃ _ => followsAt_pure h₃ ?_
  rw [Expr.relocate_mkBinary]

theorem JoinsOperands.relocate {operator? : Kind → Option (Expr → Expr → Expr)}
    (h : JoinsOperands operator?) {combine : Expr → Expr → Expr}
    (hop : operator? kind = some combine) (left right : Expr) :
    (combine left right).relocate r = combine (left.relocate r) (right.relocate r) := by
  obtain ⟨op, rfl⟩ | ⟨op, rfl⟩ := h kind combine hop
  · exact Expr.relocate_mkBinary r op left right
  · exact Expr.relocate_mkLogical r op left right

section Levels

variable {operator? : Kind → Option (Expr → Expr → Expr)}

theorem returnsAtEnd_operands (hnone : operator? .endOfInput = none) (b : Nat) (left : Expr) :
    ReturnsAtEnd left (operands operand operator? b left) := by
  cases b with
  | zero => exact returnsAtEnd_pure left
  | succ b =>
    rw [operands]
    refine returnsAtEnd_current_bind fun span => ?_
    rw [hnone]
    exact returnsAtEnd_pure left

theorem follows_operands (hjoins : JoinsOperands operator?) (hnone : operator? .endOfInput = none)
    (hoperand : FollowsExpr r more n operand operand') (hb : n ≤ b) (hb' : n ≤ b') (left : Expr) :
    FollowsExpr r more n (operands operand operator? b left)
      (operands operand' operator? b' (left.relocate r)) := by
  refine follows_of_bounds (P := fun left bound => operands operand operator? bound left)
    (Q := fun left bound => operands operand' operator? bound (left.relocate r)) ?_ ?_ hb hb' left
  · intro left b b' i j hij hnil
    exact followsAt_of_returnsAtEnd hij hnil (returnsAtEnd_operands hnone b left)
      (returnsAtEnd_operands hnone b' (left.relocate r))
  intro m b b' hm _ _ hnext left i j hij hnil hi
  rw [operands, operands]
  refine followsAt_current_bind hij (.inr hnil) ?_
  generalize i.current = t
  rw [Token.kind_relocate]
  split
  · exact followsAt_pure hij rfl
  · rename_i combine hop
    refine followsAt_advance_bind hij hnil fun i₁ j₁ h₁ l₁ => ?_
    refine (hoperand i₁ j₁ h₁ (by omega)).bind fun right i₂ j₂ h₂ l₂ => ?_
    rw [← hjoins.relocate hop]
    exact hnext _ i₂ j₂ h₂ (by omega)

theorem failsAtEnd_leftLevel (hoperand : FailsAtEnd what operand) :
    FailsAtEnd what (leftLevel operator? b operand) :=
  hoperand.bind _

theorem follows_leftLevel (hjoins : JoinsOperands operator?) (hnone : operator? .endOfInput = none)
    (hoperand : FollowsExpr r more n operand operand') (hb : n ≤ b) (hb' : n ≤ b') :
    FollowsExpr r more n (leftLevel operator? b operand) (leftLevel operator? b' operand') := by
  intro i j hij hi
  refine (hoperand i j hij hi).bind fun first i₁ j₁ h₁ l₁ => ?_
  exact follows_operands hjoins hnone hoperand hb hb' first i₁ j₁ h₁ (by omega)

end Levels

theorem failsAtEnd_expression (b : Nat) : FailsAtEnd "expression" (expression b) := by
  cases b with
  | zero => exact failsAtEnd_failExpected
  | succ b =>
    refine failsAtEnd_leftLevel (failsAtEnd_leftLevel (failsAtEnd_leftLevel
      (failsAtEnd_leftLevel (failsAtEnd_leftLevel (failsAtEnd_power ?_ _)))))
    exact failsAtEnd_unary failsAtEnd_suffixed _

/-- **Expressions do not depend on their bounds, and on what follows only if they come to the end of
the input.** -/
theorem follows_expression (hb : n ≤ b) (hb' : n ≤ b') :
    FollowsExpr r more n (expression b) (expression b') := by
  refine follows_of_bound failsAtEnd_expression failsAtEnd_expression ?_ hb hb'
  intro m b b' hm hle hle' hinner i j hij _ hi
  have hb : m + 1 ≤ b + 1 := Nat.succ_le_succ hle
  have hb' : m + 1 ≤ b' + 1 := Nat.succ_le_succ hle'
  have hsuffixed := follows_suffixed (failsAtEnd_expression b) (failsAtEnd_expression b') hinner hb
    hb'
  have hunary := follows_unary failsAtEnd_suffixed failsAtEnd_suffixed hsuffixed hb hb'
  have hpower := follows_power (failsAtEnd_unary failsAtEnd_suffixed _)
    (failsAtEnd_unary failsAtEnd_suffixed _) hunary hb hb'
  have hproduct := follows_leftLevel joinsOperands_multiplicative? rfl hpower hb hb'
  have hsum := follows_leftLevel joinsOperands_additive? rfl hproduct hb hb'
  have hcomparison := follows_leftLevel joinsOperands_comparison? rfl hsum hb hb'
  have hand := follows_leftLevel joinsOperands_andOperator? rfl hcomparison hb hb'
  exact follows_leftLevel joinsOperands_orOperator? rfl hand hb hb' i j hij hi

end Expressions

/-! ## Declarations and clauses -/

section Statements

variable {expr expr' : Parser Expr} {stmt stmt' : Parser Stmt} {n b b' : Nat}

theorem failsAtEnd_typeTag {allowVoid : Bool} : FailsAtEnd "type name" (typeTag allowVoid) :=
  failsAtEnd_current_bind fun _ => failsAtEnd_failExpected

theorem followsAt_typeTag {allowVoid : Bool} (hij : i.Begins r more j) :
    FollowsAt r more peeks (fun tag => tag) (typeTag allowVoid) (typeTag allowVoid) i j := by
  by_cases hnil : i.rest = []
  · exact followsAt_of_failsAtEnd hij hnil failsAtEnd_typeTag failsAtEnd_typeTag
  rw [typeTag]
  refine followsAt_current_bind hij (.inr hnil) ?_
  generalize i.current = t
  rw [Token.kind_relocate]
  split
  · exact followsAt_advance_bind hij hnil fun _ _ h₁ _ => followsAt_pure h₁ rfl
  · exact followsAt_advance_bind hij hnil fun _ _ h₁ _ => followsAt_pure h₁ rfl
  · exact followsAt_advance_bind hij hnil fun _ _ h₁ _ => followsAt_pure h₁ rfl
  · exact followsAt_advance_bind hij hnil fun _ _ h₁ _ => followsAt_pure h₁ rfl
  · exact followsAt_advance_bind hij hnil fun _ _ h₁ _ => followsAt_pure h₁ rfl
  · split
    · exact followsAt_advance_bind hij hnil fun _ _ h₁ _ => followsAt_pure h₁ rfl
    · exact followsAt_throw rfl
  · exact followsAt_advance_bind hij hnil fun _ _ h₁ _ => followsAt_pure h₁ rfl
  · exact followsAt_failExpected hij

theorem follows_declaration (hexpr : FollowsExpr r more n expr expr') :
    Follows r more n True (Stmt.relocate r) (declaration expr) (declaration expr') := by
  intro i j hij hi
  refine followsAt_expect_bind rfl hij fun start i₁ j₁ h₁ l₁ => ?_
  refine (followsAt_eat rfl h₁).bind fun constant i₂ j₂ h₂ l₂ => ?_
  refine (followsAt_typeTag h₂).bind fun tag i₃ j₃ h₃ l₃ => ?_
  refine followsAt_identifier_bind h₃ fun name i₄ j₄ h₄ l₄ => ?_
  have hends : ∀ (initial : Option Expr) (size : Nat) (i' j' : Input), i'.Begins r more j' →
      i'.rest.length ≤ size → FollowsAt r more True (Stmt.relocate r)
        (lastSpan >>= fun last =>
          pure (.declare constant tag name initial (start.through last)))
        (lastSpan >>= fun last =>
          pure (.declare constant tag name (initial.map (Expr.relocate r))
            ((r.move start).through last))) i' j' := by
    intro initial _ i' j' hij' _
    refine followsAt_lastSpan_bind hij' (followsAt_pure hij' ?_)
    rw [Stmt.relocate, r.through]
  refine followsAt_eat_bind rfl h₄ (.inl trivial) (fun i₅ j₅ h₅ l₅ => ?_) ?_
  · have hsome : FollowsAt r more True (Option.map (Expr.relocate r)) (some <$> expr)
        (some <$> expr') i₅ j₅ := (hexpr i₅ j₅ h₅ (by omega)).map fun _ => rfl
    exact hsome.bind fun initial => hends initial _
  · have hnone : FollowsAt r more True (Option.map (Expr.relocate r)) (pure none) (pure none)
        i₄ j₄ := followsAt_pure h₄ rfl
    exact hnone.bind fun initial => hends initial _

theorem failsAtEnd_simpleStatement (hexpr : FailsAtEnd what expr) :
    FailsAtEnd what (simpleStatement expr) :=
  failsAtEnd_current_bind fun _ => failsAtEnd_at?_bind rfl (hexpr.bind _)

theorem follows_simpleStatement (hexpr : FollowsExpr r more n expr expr') :
    Follows r more n True (Stmt.relocate r) (simpleStatement expr) (simpleStatement expr') := by
  intro i j hij hi
  refine followsAt_current_bind hij (.inl trivial) ?_
  refine followsAt_at?_bind hij (.inl trivial) fun found => ?_
  cases found with
  | true => exact follows_declaration hexpr i j hij hi
  | false =>
    refine (hexpr i j hij hi).bind fun e i₁ j₁ h₁ l₁ => ?_
    refine followsAt_eat_bind rfl h₁ (.inl trivial) (fun i₂ j₂ h₂ l₂ => ?_) ?_
    · simp only [if_true, Expr.toTarget?_relocate, Expr.span_relocate]
      cases e.toTarget? with
      | none => exact followsAt_throw rfl
      | some target =>
        refine (hexpr i₂ j₂ h₂ (by omega)).bind fun value i₃ j₃ h₃ _ => ?_
        refine followsAt_lastSpan_bind h₃ (followsAt_pure h₃ ?_)
        rw [Stmt.relocate, r.through]
        rfl
    · refine followsAt_pure h₁ ?_
      rw [Stmt.relocate, Expr.span_relocate]

theorem failsAtEnd_parameter : FailsAtEnd "type name" parameter :=
  failsAtEnd_current_bind fun _ => failsAtEnd_typeTag.bind _

theorem follows_parameter : Follows r more n True (Slot.relocate r) parameter parameter := by
  intro i j hij hi
  refine followsAt_current_bind hij (.inl trivial) ?_
  refine (followsAt_typeTag hij).bind fun tag i₁ j₁ h₁ _ => ?_
  refine followsAt_identifier_bind h₁ fun name i₂ j₂ h₂ _ => ?_
  refine followsAt_lastSpan_bind h₂ (followsAt_pure h₂ ?_)
  rw [Slot.relocate, r.through]
  rfl

theorem followsAt_fieldDeclaration (hij : i.Begins r more j) :
    FollowsAt r more peeks (Slot.relocate r) fieldDeclaration fieldDeclaration i j := by
  refine followsAt_expect_bind rfl hij fun start i₁ j₁ h₁ _ => ?_
  refine (followsAt_typeTag h₁).bind fun tag i₂ j₂ h₂ _ => ?_
  refine followsAt_identifier_bind h₂ fun name i₃ j₃ h₃ _ => ?_
  by_cases hnil : i₃.rest = []
  · exact followsAt_of_failsAtEnd h₃ hnil (failsAtEnd_at?_bind rfl ((failsAtEnd_expect rfl).bind _))
      (failsAtEnd_at?_bind rfl ((failsAtEnd_expect rfl).bind _))
  refine followsAt_at?_bind h₃ (.inr hnil) fun found => ?_
  cases found with
  | true => exact followsAt_current_bind h₃ (.inr hnil) (followsAt_throw rfl)
  | false =>
    refine followsAt_expect_bind rfl h₃ fun _ i₄ j₄ h₄ _ => ?_
    refine followsAt_lastSpan_bind h₄ (followsAt_pure h₄ ?_)
    rw [Slot.relocate, r.through]

/-! ## Blocks -/

/-- A parser that takes at least one token. -/
def Consumes (p : Parser α) : Prop :=
  ∀ i a i', p i = .ok (a, i') → i'.rest.length < i.rest.length

theorem consumes_of_takes {p : Parser α} {good : α → List Kind → Prop}
    (h : ∀ i, Takes p i good) (hgood : ∀ a ks, good a ks → ks ≠ []) : Consumes p := by
  intro i a i' ha
  obtain ⟨ks, hks, hks'⟩ := h i a i' ha
  have hpos := List.length_pos_iff.mpr (hgood a ks hks')
  have hlength := congrArg List.length hks
  simp only [Input.kinds, List.length_map, List.length_append] at hlength
  omega

theorem consumes_statement (b : Nat) : Consumes (statement b) :=
  consumes_of_takes (takes_statement b) fun _ _ => Stmt.Written.ne_nil

theorem failsAtEnd_atOneOf_bind {words : List Keyword} {f : Bool → Parser α}
    (h : FailsAtEnd what (f false)) : FailsAtEnd what (atOneOf words >>= f) := by
  rw [atOneOf, bind_assoc]
  exact failsAtEnd_current_bind fun _ => h

theorem followsAt_atOneOf_bind {words : List Keyword} {f g : Bool → Parser α}
    (hij : i.Begins r more j) (hne : i.rest ≠ [])
    (h : ∀ found, FollowsAt r more peeks act (f found) (g found) i j) :
    FollowsAt r more peeks act (atOneOf words >>= f) (atOneOf words >>= g) i j := by
  rw [atOneOf, bind_assoc, bind_assoc]
  refine followsAt_current_bind hij (.inr hne) ?_
  rw [Token.kind_relocate]
  split
  · exact h _
  · exact h false

theorem failsAtEnd_block {closers : List Keyword} (b : Nat) :
    FailsAtEnd what (block stmt closers what b) := by
  cases b with
  | zero => exact failsAtEnd_atOneOf_bind failsAtEnd_failExpected
  | succ b =>
    exact failsAtEnd_atOneOf_bind (failsAtEnd_current_bind fun _ => failsAtEnd_failExpected)

/-- Parsers of statements that do the same. -/
abbrev FollowsStmt (r : Relocation) (more : Option Input) (n : Nat) (p q : Parser Stmt) : Prop :=
  Follows r more n False (Stmt.relocate r) p q

/-- A block ends in front of a word that closes it. -/
theorem follows_block {closers : List Keyword} (hcons : Consumes stmt)
    (hstmt : FollowsStmt r more n stmt stmt') (hb : n ≤ b) (hb' : n ≤ b') :
    Follows r more n peeks (List.map (Stmt.relocate r)) (block stmt closers what b)
      (block stmt' closers what b') := by
  refine follows_of_bound failsAtEnd_block failsAtEnd_block ?_ hb hb'
  intro m b b' hm _ _ hnext i j hij hnil hi
  rw [block, block]
  refine followsAt_atOneOf_bind hij hnil fun found => ?_
  cases found with
  | true => exact followsAt_pure hij rfl
  | false =>
    refine followsAt_current_bind hij (.inr hnil) ?_
    rw [Token.kind_relocate]
    split
    · exact followsAt_failExpected hij
    refine (hstmt i j hij (by omega)).peek.bind_result fun s i₁ j₁ hs h₁ _ => ?_
    have hlt := hcons i s i₁ hs
    refine (hnext i₁ j₁ h₁ (by omega)).bind fun others i₂ j₂ h₂ _ => ?_
    exact followsAt_pure h₂ rfl

theorem returnsAtEnd_elifs (turns : Nat) : ReturnsAtEnd [] (elifs expr stmt b turns) := by
  cases turns with
  | zero => exact returnsAtEnd_pure []
  | succ turns => exact returnsAtEnd_eat_bind rfl (returnsAtEnd_pure [])

theorem follows_elifs (hexpr : FollowsExpr r more n expr expr') (hcons : Consumes stmt)
    (hstmt : FollowsStmt r more n stmt stmt') (hb : n ≤ b) (hb' : n ≤ b') {m turns turns' : Nat}
    (hm : m ≤ n) (hturns : m ≤ turns) (hturns' : m ≤ turns') :
    Follows r more m True (List.map (Stmt.relocateBranch r)) (elifs expr stmt b turns)
      (elifs expr' stmt' b' turns') := by
  refine follows_of_bounds (P := fun (_ : Unit) => elifs expr stmt b)
    (Q := fun _ => elifs expr' stmt' b') ?_ ?_ hturns hturns' ()
  · intro _ turns turns' i j hij hnil
    exact followsAt_of_returnsAtEnd hij hnil (returnsAtEnd_elifs turns) (returnsAtEnd_elifs turns')
  intro k turns turns' hk _ _ hnext _ i j hij _ hi
  refine followsAt_eat_bind rfl hij (.inl trivial) (fun i₁ j₁ h₁ l₁ => ?_) (followsAt_pure hij rfl)
  refine (hexpr i₁ j₁ h₁ (by omega)).bind fun condition i₂ j₂ h₂ l₂ => ?_
  refine followsAt_expect_bind rfl h₂ fun _ i₃ j₃ h₃ l₃ => ?_
  refine (follows_block hcons hstmt hb hb' i₃ j₃ h₃ (by omega)).bind fun body i₄ j₄ h₄ l₄ => ?_
  refine (hnext () i₄ j₄ h₄ (by omega)).bind fun others i₅ j₅ h₅ _ => followsAt_pure h₅ ?_
  rw [List.map_cons, Stmt.relocateBranch, Stmt.relocateBlock_eq_map]

theorem follows_ifStatement (hexpr : FollowsExpr r more n expr expr') (hcons : Consumes stmt)
    (hstmt : FollowsStmt r more n stmt stmt') (hb : n ≤ b) (hb' : n ≤ b') (start : Span) :
    Follows r more (n + 1) False (Stmt.relocate r) (ifStatement expr stmt b start)
      (ifStatement expr' stmt' b' (r.move start)) := by
  intro i j hij hi
  refine followsAt_expect_bind rfl hij fun _ i₁ j₁ h₁ l₁ => ?_
  refine (hexpr i₁ j₁ h₁ (by omega)).bind_closing (fun _ => (failsAtEnd_expect rfl).bind _) ?_
  intro condition i₂ j₂ h₂ l₂
  refine followsAt_expect_bind rfl h₂ fun _ i₃ j₃ h₃ l₃ => ?_
  refine (follows_block hcons hstmt hb hb' i₃ j₃ h₃ (by omega)).bind fun body i₄ j₄ h₄ l₄ => ?_
  have helifs := follows_elifs hexpr hcons hstmt hb hb' (Nat.le_refl n) hb hb' i₄ j₄ h₄ (by omega)
  refine helifs.bind_closing (fun _ => failsAtEnd_eat_bind rfl (?_ : FailsAtEnd "'endif'" _)) ?_
  · simp only [Bool.false_eq_true, if_false, pure_bind]
    exact (failsAtEnd_expect rfl).bind _
  intro branches i₅ j₅ h₅ l₅
  have hends : ∀ (otherwise : Option (List Stmt)) (size : Nat) (i' j' : Input),
      i'.Begins r more j' → i'.rest.length ≤ size → FollowsAt r more False (Stmt.relocate r)
        (expect (.keyword .endIfKw) "'endif'" >>= fun _ => lastSpan >>= fun last =>
          pure (.branch condition body branches otherwise (start.through last)))
        (expect (.keyword .endIfKw) "'endif'" >>= fun _ => lastSpan >>= fun last =>
          pure (.branch (condition.relocate r) (body.map (Stmt.relocate r))
            (branches.map (Stmt.relocateBranch r))
            (otherwise.map (List.map (Stmt.relocate r))) ((r.move start).through last))) i' j' := by
    intro otherwise _ i' j' hij' _
    refine followsAt_expect_bind rfl hij' fun _ i₆ j₆ h₆ _ => ?_
    refine followsAt_lastSpan_bind h₆ (followsAt_pure h₆ ?_)
    rw [Stmt.relocate, Stmt.relocateBlock_eq_map, Stmt.relocateElifs_eq_map,
      Stmt.relocateElse_eq_map, r.through]
    congr 1
    exact Option.map_congr fun body _ => (Stmt.relocateBlock_eq_map r body).symm
  refine (followsAt_eat rfl h₅).bind_closing (fun found => (?_ : FailsAtEnd "'endif'" _)) ?_
  · cases found with
    | true => exact ((failsAtEnd_block b).map some).bind _
    | false =>
      simp only [Bool.false_eq_true, if_false, pure_bind]
      exact (failsAtEnd_expect rfl).bind _
  intro found i₆ j₆ h₆ l₆
  cases found with
  | true =>
    have hsome : FollowsAt r more False (Option.map (List.map (Stmt.relocate r)))
        (some <$> block stmt [.endIfKw] "'endif'" b) (some <$> block stmt' [.endIfKw] "'endif'" b')
        i₆ j₆ := (follows_block hcons hstmt hb hb' i₆ j₆ h₆ (by omega)).map fun _ => rfl
    exact hsome.bind fun otherwise => hends otherwise _
  | false =>
    have hnone : FollowsAt r more False (Option.map (List.map (Stmt.relocate r))) (pure none)
        (pure none) i₆ j₆ := followsAt_pure h₆ rfl
    exact hnone.bind fun otherwise => hends otherwise _

theorem follows_whileStatement (hexpr : FollowsExpr r more n expr expr') (hcons : Consumes stmt)
    (hstmt : FollowsStmt r more n stmt stmt') (hb : n ≤ b) (hb' : n ≤ b') (start : Span) :
    Follows r more (n + 1) False (Stmt.relocate r) (whileStatement expr stmt b start)
      (whileStatement expr' stmt' b' (r.move start)) := by
  intro i j hij hi
  refine followsAt_expect_bind rfl hij fun _ i₁ j₁ h₁ l₁ => ?_
  refine (hexpr i₁ j₁ h₁ (by omega)).bind_closing (fun _ => (failsAtEnd_expect rfl).bind _) ?_
  intro condition i₂ j₂ h₂ l₂
  refine followsAt_expect_bind rfl h₂ fun _ i₃ j₃ h₃ l₃ => ?_
  refine (follows_block hcons hstmt hb hb' i₃ j₃ h₃ (by omega)).bind fun body i₄ j₄ h₄ l₄ => ?_
  refine followsAt_expect_bind rfl h₄ fun _ i₅ j₅ h₅ _ => ?_
  refine followsAt_lastSpan_bind h₅ (followsAt_pure h₅ ?_)
  rw [Stmt.relocate, Stmt.relocateBlock_eq_map, r.through]

theorem follows_forStatement (hexpr : FollowsExpr r more n expr expr') (hcons : Consumes stmt)
    (hstmt : FollowsStmt r more n stmt stmt') (hb : n ≤ b) (hb' : n ≤ b') (start : Span) :
    Follows r more (n + 1) False (Stmt.relocate r) (forStatement expr stmt b start)
      (forStatement expr' stmt' b' (r.move start)) := by
  intro i j hij hi
  have hclause := follows_simpleStatement hexpr
  refine followsAt_expect_bind rfl hij fun _ i₁ j₁ h₁ l₁ => ?_
  refine followsAt_expect_bind rfl h₁ fun _ i₂ j₂ h₂ l₂ => ?_
  refine (follows_unlessAt hclause i₂ j₂ h₂ (by omega)).bind_closing
    (fun _ => (failsAtEnd_expect rfl).bind _) fun init i₃ j₃ h₃ l₃ => ?_
  refine followsAt_expect_bind rfl h₃ fun _ i₄ j₄ h₄ l₄ => ?_
  refine (follows_unlessAt hexpr i₄ j₄ h₄ (by omega)).bind_closing
    (fun _ => (failsAtEnd_expect rfl).bind _) fun condition i₅ j₅ h₅ l₅ => ?_
  refine followsAt_expect_bind rfl h₅ fun _ i₆ j₆ h₆ l₆ => ?_
  refine (follows_unlessAt hclause i₆ j₆ h₆ (by omega)).bind_closing
    (fun _ => (failsAtEnd_expect rfl).bind _) fun increment i₇ j₇ h₇ l₇ => ?_
  refine followsAt_expect_bind rfl h₇ fun _ i₈ j₈ h₈ l₈ => ?_
  refine followsAt_expect_bind rfl h₈ fun _ i₉ j₉ h₉ l₉ => ?_
  refine (follows_block hcons hstmt hb hb' i₉ j₉ h₉ (by omega)).bind fun body i' j' hij' _ => ?_
  refine followsAt_expect_bind rfl hij' fun _ i'' j'' hij'' _ => ?_
  refine followsAt_lastSpan_bind hij'' (followsAt_pure hij'' ?_)
  rw [Stmt.relocate, Stmt.relocateOption_eq_map, Stmt.relocateOption_eq_map,
    Stmt.relocateBlock_eq_map, r.through]

/-! ## Declarations of functions and classes -/

theorem follows_functionDecl (hcons : Consumes stmt) (hstmt : FollowsStmt r more n stmt stmt')
    (hb : n ≤ b) (hb' : n ≤ b') :
    Follows r more (n + 1) peeks (Stmt.relocateFunc r) (functionDecl stmt b)
      (functionDecl stmt' b') := by
  intro i j hij hi
  refine followsAt_expect_bind rfl hij fun start i₁ j₁ h₁ l₁ => ?_
  refine (followsAt_typeTag h₁).bind fun returns i₂ j₂ h₂ l₂ => ?_
  refine followsAt_identifier_bind h₂ fun name i₃ j₃ h₃ l₃ => ?_
  refine followsAt_expect_bind rfl h₃ fun _ i₄ j₄ h₄ l₄ => ?_
  have hparams : FollowsAt r more peeks (List.map (Slot.relocate r))
      (itemsUntil .rightParen "')' after parameters" parameter b)
      (itemsUntil .rightParen "')' after parameters" parameter b') i₄ j₄ :=
    follows_itemsUntil failsAtEnd_parameter failsAtEnd_parameter follows_parameter hb hb' i₄ j₄ h₄
      (by omega)
  refine hparams.bind fun params i₅ j₅ h₅ l₅ => ?_
  refine followsAt_expect_bind rfl h₅ fun _ i₆ j₆ h₆ l₆ => ?_
  refine (follows_block hcons hstmt hb hb' i₆ j₆ h₆ (by omega)).bind fun body i₇ j₇ h₇ _ => ?_
  refine followsAt_expect_bind rfl h₇ fun _ i₈ j₈ h₈ _ => ?_
  refine followsAt_lastSpan_bind h₈ (followsAt_pure h₈ ?_)
  rw [Stmt.relocateFunc, Stmt.relocateBlock_eq_map, r.through]

theorem failsAtEnd_members (turns : Nat) :
    FailsAtEnd "field declaration, method or 'endclass'" (members stmt b turns) := by
  cases turns with
  | zero => exact failsAtEnd_failExpected
  | succ turns => exact failsAtEnd_current_bind fun _ => failsAtEnd_failExpected

theorem consumes_fieldDeclaration : Consumes fieldDeclaration := by
  refine consumes_of_takes (fun _ => takes_fieldDeclaration) ?_
  rintro slot ks ⟨rfl, -⟩
  simp [Slot.fieldKinds]

theorem consumes_functionDecl (htakes : TakesStatements stmt) : Consumes (functionDecl stmt b) := by
  refine consumes_of_takes (fun _ => takes_functionDecl htakes) ?_
  rintro decl ks ⟨⟩
  simp

/-- The fields and methods of a class with all their regions moved. -/
def relocateMembers (r : Relocation) (members : List Slot × List Func) : List Slot × List Func :=
  (members.1.map (Slot.relocate r), members.2.map (Stmt.relocateFunc r))

theorem follows_members (htakes : TakesStatements stmt) (hcons : Consumes stmt)
    (hstmt : FollowsStmt r more n stmt stmt') (hb : n ≤ b) (hb' : n ≤ b') {m turns turns' : Nat}
    (hm : m ≤ n) (hturns : m ≤ turns) (hturns' : m ≤ turns') :
    Follows r more m peeks (relocateMembers r) (members stmt b turns)
      (members stmt' b' turns') := by
  refine follows_of_bound failsAtEnd_members failsAtEnd_members ?_ hturns hturns'
  intro k turns turns' hk _ _ hnext i j hij hnil hi
  rw [members, members]
  refine followsAt_current_bind hij (.inr hnil) ?_
  generalize i.current = t
  rw [Token.kind_relocate]
  split
  · exact followsAt_pure hij rfl
  · refine (followsAt_fieldDeclaration hij).bind_result fun field i₁ j₁ hfield h₁ _ => ?_
    have hlt := consumes_fieldDeclaration i field i₁ hfield
    refine (hnext i₁ j₁ h₁ (by omega)).bind fun others i₂ j₂ h₂ _ => ?_
    exact followsAt_pure h₂ rfl
  · have hmethod : FollowsAt r more peeks (Stmt.relocateFunc r) (functionDecl stmt b)
        (functionDecl stmt' b') i j := follows_functionDecl hcons hstmt hb hb' i j hij (by omega)
    refine hmethod.bind_result fun method i₁ j₁ hdecl h₁ _ => ?_
    have hlt := consumes_functionDecl htakes i method i₁ hdecl
    refine (hnext i₁ j₁ h₁ (by omega)).bind fun others i₂ j₂ h₂ _ => ?_
    exact followsAt_pure h₂ rfl
  · exact followsAt_failExpected hij

theorem follows_classDecl (htakes : TakesStatements stmt) (hcons : Consumes stmt)
    (hstmt : FollowsStmt r more n stmt stmt') (hb : n ≤ b) (hb' : n ≤ b') :
    Follows r more (n + 1) False (Stmt.relocateClass r) (classDecl stmt b)
      (classDecl stmt' b') := by
  intro i j hij hi
  refine followsAt_expect_bind rfl hij fun start i₁ j₁ h₁ l₁ => ?_
  refine followsAt_identifier_bind h₁ fun name i₂ j₂ h₂ l₂ => ?_
  refine (followsAt_eat rfl h₂).bind_closing (fun _ => (failsAtEnd_members b).bind _) ?_
  intro _ i₃ j₃ h₃ l₃
  refine (follows_members htakes hcons hstmt hb hb' (Nat.le_refl n) hb hb' i₃ j₃ h₃
    (by omega)).bind fun parts i₄ j₄ h₄ _ => ?_
  refine followsAt_expect_bind rfl h₄ fun _ i₅ j₅ h₅ _ => ?_
  refine followsAt_lastSpan_bind h₅ (followsAt_pure h₅ ?_)
  rw [Stmt.relocateClass, Stmt.relocateMethods_eq_map, r.through]

/-! ## Statements -/

theorem followsAt_closed {start : Span} {part part' : Parser Stmt}
    (hpart : FollowsAt r more True (Stmt.relocate r) part part' i j) :
    FollowsAt r more False (Stmt.relocate r) (closed start what part)
      (closed (r.move start) what part') i j := by
  refine hpart.bind_closing (fun _ => (failsAtEnd_expect rfl).bind _) fun s i₁ j₁ h₁ _ => ?_
  refine followsAt_expect_bind rfl h₁ fun _ i₂ j₂ h₂ _ => ?_
  refine followsAt_lastSpan_bind h₂ (followsAt_pure h₂ ?_)
  rw [Stmt.relocate_withSpan, r.through]

theorem failsAtEnd_statementOver (hexpr : FailsAtEnd what expr) :
    FailsAtEnd what (statementOver expr stmt b) :=
  failsAtEnd_current_bind fun _ => (failsAtEnd_simpleStatement hexpr).bind _

theorem follows_statementOver (hend : FailsAtEnd what expr) (hend' : FailsAtEnd what expr')
    (hexpr : FollowsExpr r more (n + 1) expr expr') (htakes : TakesStatements stmt)
    (hcons : Consumes stmt) (hstmt : FollowsStmt r more n stmt stmt') (hb : n ≤ b) (hb' : n ≤ b') :
    FollowsStmt r more (n + 1) (statementOver expr stmt b) (statementOver expr' stmt' b') := by
  intro i j hij hi
  by_cases hnil : i.rest = []
  · exact followsAt_of_failsAtEnd hij hnil (failsAtEnd_statementOver hend)
      (failsAtEnd_statementOver hend')
  have hinner : FollowsExpr r more n expr expr' := hexpr.mono (Nat.le_succ n)
  rw [statementOver, statementOver]
  refine followsAt_current_bind hij (.inr hnil) ?_
  generalize i.current = t
  rw [Token.kind_relocate]
  split
  · exact followsAt_closed (follows_declaration hexpr i j hij hi)
  · refine followsAt_closed (followsAt_advance_bind hij hnil fun i₁ j₁ h₁ l₁ => ?_)
    exact (hinner i₁ j₁ h₁ (by omega)).bind fun _ i₂ j₂ h₂ _ => followsAt_pure h₂ rfl
  · exact follows_ifStatement hinner hcons hstmt hb hb' t.span i j hij hi
  · exact follows_whileStatement hinner hcons hstmt hb hb' t.span i j hij hi
  · exact follows_forStatement hinner hcons hstmt hb hb' t.span i j hij hi
  · refine (follows_functionDecl hcons hstmt hb hb' i j hij hi).bind fun decl i₁ j₁ h₁ _ => ?_
    refine followsAt_lastSpan_bind h₁ (followsAt_pure h₁ ?_)
    rw [Stmt.relocate, r.through]
    rfl
  · refine (follows_classDecl htakes hcons hstmt hb hb' i j hij hi).bind fun decl i₁ j₁ h₁ _ => ?_
    refine followsAt_lastSpan_bind h₁ (followsAt_pure h₁ ?_)
    rw [Stmt.relocate, r.through]
    rfl
  · refine followsAt_closed (followsAt_advance_bind hij hnil fun _ _ h₁ _ => ?_)
    exact followsAt_pure h₁ rfl
  · refine followsAt_closed (followsAt_advance_bind hij hnil fun _ _ h₁ _ => ?_)
    exact followsAt_pure h₁ rfl
  · refine followsAt_closed (followsAt_advance_bind hij hnil fun i₁ j₁ h₁ l₁ => ?_)
    refine (follows_unlessAt hinner i₁ j₁ h₁ (by omega)).bind fun _ i₂ j₂ h₂ _ => ?_
    exact followsAt_pure h₂ rfl
  · exact followsAt_closed (follows_simpleStatement hexpr i j hij hi)

theorem failsAtEnd_statement (b : Nat) : FailsAtEnd "expression" (statement b) := by
  cases b with
  | zero => exact failsAtEnd_failExpected
  | succ b => exact failsAtEnd_statementOver (failsAtEnd_expression (b + 1))

/-- **Statements depend neither on their bounds nor on what follows.** -/
theorem follows_statement (hb : n ≤ b) (hb' : n ≤ b') :
    FollowsStmt r more n (statement b) (statement b') := by
  refine follows_of_bound failsAtEnd_statement failsAtEnd_statement ?_ hb hb'
  intro m b b' hm hle hle' hstmt i j hij _ hi
  have hexpr : FollowsExpr r more (m + 1) (expression (b + 1)) (expression (b' + 1)) :=
    follows_expression (Nat.succ_le_succ hle) (Nat.succ_le_succ hle')
  exact follows_statementOver (failsAtEnd_expression (b + 1)) (failsAtEnd_expression (b' + 1)) hexpr
    (takes_statement b) (consumes_statement b) hstmt (Nat.le_succ_of_le hle)
    (Nat.le_succ_of_le hle') i j hij hi

end Statements

/-! ## The token in front -/

/-- As long as some token is left, the parser does not depend on the token read last. -/
def Fresh (p : Parser α) : Prop :=
  ∀ (i : Input) (last : Span), i.rest ≠ [] → p { i with last } = p i

theorem Fresh.bind {p : Parser β} (hp : Fresh p) (f : β → Parser α) : Fresh (p >>= f) := by
  intro i last hne
  show (p { i with last } >>= fun r => f r.1 r.2) = (p i >>= fun r => f r.1 r.2)
  rw [hp i last hne]

theorem fresh_throw (e : ParseError) : Fresh (throw e : Parser α) := fun _ _ _ => rfl

theorem fresh_current_bind {f : Token → Parser α} (h : ∀ t, Fresh (f t)) :
    Fresh (current >>= f) :=
  fun i last hne => h i.current i last hne

/-- A token that is read becomes the last one. -/
theorem fresh_advance : Fresh advance := by
  rintro ⟨_ | ⟨t, rest⟩, stop, last⟩ last' hne
  · exact absurd rfl hne
  · rfl

theorem fresh_failExpected : Fresh (failExpected what : Parser α) :=
  fresh_current_bind fun _ => fresh_throw _

theorem fresh_expect : Fresh (expect kind what) := by
  refine fresh_current_bind fun t => ?_
  split
  · exact fresh_advance.bind _
  · exact fresh_failExpected

theorem fresh_primary {inner : Parser Expr} {b : Nat} : Fresh (primary inner b) := by
  refine fresh_current_bind fun t => ?_
  split <;> first | exact fresh_advance.bind _ | exact fresh_failExpected

theorem fresh_suffixed {inner : Parser Expr} {b : Nat} : Fresh (suffixed inner b) :=
  fresh_primary.bind _

theorem fresh_unary {operand : Parser Expr} (h : Fresh operand) (b : Nat) :
    Fresh (unary operand b) := by
  cases b with
  | zero => exact h
  | succ b =>
    refine fresh_current_bind fun t => ?_
    split
    · exact h
    · exact fresh_advance.bind _

theorem fresh_power {base : Parser Expr} (h : Fresh base) (b : Nat) : Fresh (power base b) := by
  cases b with
  | zero => exact h
  | succ b => exact h.bind _

theorem fresh_expression (b : Nat) : Fresh (expression b) := by
  cases b with
  | zero => exact fresh_failExpected
  | succ b =>
    have hpower : Fresh (power (unary (suffixed (expression b) (b + 1)) (b + 1)) (b + 1)) :=
      fresh_power (fresh_unary fresh_suffixed (b + 1)) (b + 1)
    -- each of the five levels starts with the one below
    exact ((((hpower.bind _).bind _).bind _).bind _).bind _

theorem fresh_declaration {expr : Parser Expr} : Fresh (declaration expr) :=
  fresh_expect.bind _

theorem fresh_simpleStatement {expr : Parser Expr} (h : Fresh expr) :
    Fresh (simpleStatement expr) := by
  refine fresh_current_bind fun t => ?_
  rw [at?_bind]
  refine fresh_current_bind fun t' => ?_
  split
  · exact fresh_declaration
  · exact h.bind _

/-- **Statements do not depend on the token in front.** Each of them reads a token before it asks
for the last one. -/
theorem fresh_statement (b : Nat) : Fresh (statement b) := by
  cases b with
  | zero => exact fresh_failExpected
  | succ b =>
    refine fresh_current_bind fun t => ?_
    split
    · exact fresh_declaration.bind _
    · exact (fresh_advance.bind _).bind _
    · exact fresh_expect.bind _
    · exact fresh_expect.bind _
    · exact fresh_expect.bind _
    · exact (fresh_expect.bind _).bind _
    · exact (fresh_expect.bind _).bind _
    · exact (fresh_advance.bind _).bind _
    · exact (fresh_advance.bind _).bind _
    · exact (fresh_advance.bind _).bind _
    · exact (fresh_simpleStatement (fresh_expression (b + 1))).bind _

end Parser

end Chalk
