import Chalk.Proofs.Layout
import Chalk.Proofs.Parallel.Reading
import Chalk.Proofs.Scanning
import Mathlib.Data.List.TakeWhile

/-!
# The parser nests what it reads

What a parser reads is nested in the tokens that it takes. It is described from the input on, as the
tokens that are taken and the result (`Parser.Lays`); the token taken last is kept track of as well,
since most spans end there.

Parsers of nested parts give a row of nodes, whatever their result is: a block gives its statements
and a list of arguments its expressions. One token after another is passed over, and the rows are
put together along the tokens.

## Main definitions

* `Parser.Lays` — the tokens that a parser takes, and what they are to its result

## Main results

* `Parser.lays_expression`, `Parser.lays_statement` — what is read is nested in its tokens
* `nested_parse` — the trees of a source are well nested
-/

namespace Chalk

/-! ## Tokens that are passed over -/

/-- The span of the last one of some tokens and, without any, the given one. -/
def lastSpanOf (span : Span) (us : List Token) : Span := (us.getLast?.map Token.span).getD span

theorem lastSpanOf_append (span : Span) (us vs : List Token) :
    lastSpanOf span (us ++ vs) = lastSpanOf (lastSpanOf span us) vs := by
  rw [lastSpanOf, lastSpanOf, lastSpanOf, List.getLast?_append]
  cases vs.getLast? <;> rfl

theorem exists_lastSpanOf {us : List Token} (h : us ≠ []) (span : Span) :
    ∃ last, us.getLast? = some last ∧ lastSpanOf span us = last.span := by
  refine ⟨us.getLast h, List.getLast?_eq_some_getLast h, ?_⟩
  rw [lastSpanOf, List.getLast?_eq_some_getLast h]
  rfl

namespace Parser

/-! ## What a parser lays out -/

variable {α β : Type} {i : Input} {good : α → List Token → Prop} {k : Kind}

/-- If the parser succeeds on the input, the tokens that it has taken are good for its result, and
the others are left. -/
def Lays (p : Parser α) (i : Input) (good : α → List Token → Prop) : Prop :=
  ∀ a i', p i = .ok (a, i') →
    ∃ us, i.rest = us ++ i'.rest ∧ i'.last = lastSpanOf i.last us ∧ good a us

theorem lays_pure {a : α} (h : good a []) : Lays (pure a) i good := by
  rintro _ _ ⟨⟩
  exact ⟨[], rfl, rfl, h⟩

theorem lays_throw {e : ParseError} : Lays (throw e : Parser α) i good :=
  fun _ _ h => by cases h

theorem lays_failExpected {what : String} : Lays (failExpected what : Parser α) i good :=
  fun _ _ h => by cases h

theorem Lays.mono {p : Parser α} {good' : α → List Token → Prop} (hp : Lays p i good)
    (h : ∀ a us, good a us → good' a us) : Lays p i good' := by
  intro a i' ha
  obtain ⟨us, hus, hlast, hgood⟩ := hp a i' ha
  exact ⟨us, hus, hlast, h a us hgood⟩

theorem Lays.bind {p : Parser β} {f : β → Parser α} {mid : β → List Token → Prop}
    (hp : Lays p i mid)
    (hf : ∀ b us i', mid b us → i'.last = lastSpanOf i.last us →
      Lays (f b) i' fun a vs => good a (us ++ vs)) :
    Lays (p >>= f) i good := by
  intro a i₂ h
  change (p i >>= fun r => f r.1 r.2) = _ at h
  cases hb : p i with
  | error e =>
    rw [hb] at h
    cases h
  | ok r =>
    obtain ⟨b, i₁⟩ := r
    rw [hb] at h
    obtain ⟨us, hus, hlast, hmid⟩ := hp b i₁ hb
    obtain ⟨vs, hvs, hlast', hgood⟩ := hf b us i₁ hmid hlast a i₂ h
    refine ⟨us ++ vs, by rw [hus, hvs, List.append_assoc], ?_, hgood⟩
    rw [hlast', hlast, lastSpanOf_append]

theorem Lays.map {p : Parser β} {f : β → α} (hp : Lays p i fun b us => good (f b) us) :
    Lays (f <$> p) i good := by
  rw [map_eq_pure_bind]
  refine hp.bind fun b us i' hb _ => lays_pure ?_
  rwa [List.append_nil]

/-- The first token that is taken is the next one of the input. -/
theorem Lays.head {p : Parser α} (hp : Lays p i good) :
    Lays p i fun a us => good a us ∧ (us ≠ [] → us.head? = some i.current) := by
  intro a i' ha
  obtain ⟨us, hus, hlast, hgood⟩ := hp a i' ha
  refine ⟨us, hus, hlast, hgood, fun hne => ?_⟩
  obtain ⟨t, us, rfl⟩ := List.exists_cons_of_ne_nil hne
  rw [Input.current, hus]
  rfl

/-! ## Single tokens -/

theorem lays_current_bind {f : Token → Parser α} (h : Lays (f i.current) i good) :
    Lays (current >>= f) i good := h

theorem lays_lastSpan_bind {f : Span → Parser α} (h : Lays (f i.last) i good) :
    Lays (lastSpan >>= f) i good := h

/-- The token that is passed over is the one that was looked at. -/
theorem lays_advance_bind {f : Unit → Parser α} (hend : i.current.kind.isEnd = false)
    (h : ∀ i', i'.last = i.current.span → Lays (f ()) i' fun a us => good a (i.current :: us)) :
    Lays (advance >>= f) i good := by
  intro a i' ha
  obtain ⟨_ | ⟨t, rest⟩, stop, last⟩ := i
  · cases hend
  obtain ⟨us, hus, hlast, hgood⟩ := h ⟨rest, stop, t.span⟩ rfl a i' ha
  refine ⟨t :: us, congrArg (t :: ·) hus, ?_, hgood⟩
  rw [hlast]
  exact (lastSpanOf_append last [t] us).symm

theorem lays_at?_bind {f : Bool → Parser α} (h : ∀ found, Lays (f found) i good) :
    Lays (at? k >>= f) i good := h (i.current.kind == k)

theorem lays_eat_bind {f : Bool → Parser α} (hend : k.isEnd = false)
    (htrue : ∀ i', i'.last = i.current.span → Lays (f true) i' fun a us => good a (i.current :: us))
    (hfalse : Lays (f false) i good) : Lays (eat k >>= f) i good := by
  rw [eat_bind]
  refine lays_current_bind ?_
  split
  · rename_i hkind
    exact lays_advance_bind (by rwa [eq_of_beq hkind]) htrue
  · exact hfalse

/-- A word that may be missing. -/
theorem lays_optionalWord_bind {f : Bool → Parser α} (hend : k.isEnd = false)
    (h : ∀ found us i', i'.last = lastSpanOf i.last us →
      Lays (f found) i' fun a vs => good a (us ++ vs)) :
    Lays (eat k >>= f) i good :=
  lays_eat_bind hend (fun i' hlast => h true [i.current] i' hlast) (h false [] i rfl)

theorem lays_expect_bind {what : String} {f : Span → Parser α} (hend : k.isEnd = false)
    (h : ∀ i', i.current.kind = k → i'.last = i.current.span →
      Lays (f i.current.span) i' fun a us => good a (i.current :: us)) :
    Lays (expect k what >>= f) i good := by
  rw [expect_bind]
  refine lays_current_bind ?_
  split
  · rename_i hkind
    refine lays_advance_bind (by rwa [eq_of_beq hkind]) fun i' hlast => ?_
    exact h i' (eq_of_beq hkind) hlast
  · exact lays_failExpected

theorem lays_identifier_bind {what : String} {f : String → Parser α}
    (h : ∀ id i', i'.last = i.current.span →
      Lays (f id) i' fun a us => good a (i.current :: us)) :
    Lays (identifier what >>= f) i good := by
  rw [identifier_bind]
  refine lays_current_bind ?_
  split
  · rename_i id hid
    exact lays_advance_bind (by rw [hid]; rfl) (h id)
  · exact lays_failExpected

theorem lays_typeTag {allowVoid : Bool} :
    Lays (typeTag allowVoid) i fun _ us => us = [i.current] := by
  rw [typeTag]
  refine lays_current_bind ?_
  split
  case h_6 hk =>
    split
    · exact lays_advance_bind (by rw [hk]; rfl) fun _ _ => lays_pure rfl
    · exact lays_throw
  case h_8 => exact lays_failExpected
  all_goals
    rename_i hk
    exact lays_advance_bind (by rw [hk]; rfl) fun _ _ => lays_pure rfl

/-! ## Rows of nodes -/

/-- The tokens hold the nodes of a result, one after the other. -/
def Holds (view : α → List TreeNode) (a : α) (us : List Token) : Prop :=
  InOrder us → TreeNode.Row us (view a)

variable {view : α → List TreeNode}

theorem lays_commaSeparated {item : Parser α} (hitem : ∀ i, Lays item i (Holds view))
    (turns : Nat) (i : Input) :
    Lays (commaSeparated item turns) i (Holds fun as => as.flatMap view) := by
  induction turns generalizing i with
  | zero =>
    refine (hitem i).bind fun a us i₁ ha _ => lays_pure fun hus => ?_
    simpa using ha hus.left
  | succ turns ih =>
    refine (hitem i).bind fun a us i₁ ha _ => lays_eat_bind rfl (fun i₂ _ => ?_) ?_
    · refine (ih i₂).bind fun as vs i₃ has _ => lays_pure fun hus => ?_
      have hrow := (ha hus.left).append ((has hus.right.tail.left).skip [i₁.current])
      simpa using hrow
    · refine lays_pure fun hus => ?_
      simpa using ha hus.left

/-- Items up to a closing delimiter, which is taken as well. -/
theorem lays_itemsUntil {item : Parser α} (hitem : ∀ i, Lays item i (Holds view))
    {close : Symbol} {what : String} {bound : Nat} (i : Input) :
    Lays (itemsUntil close what item bound) i
      fun as us => us ≠ [] ∧ Holds (fun as => as.flatMap view) as us := by
  rw [itemsUntil]
  refine lays_at?_bind fun found => ?_
  cases found with
  | true =>
    simp only [if_true, pure_bind]
    refine lays_expect_bind rfl fun _ _ _ => lays_pure ⟨by simp, fun _ => ?_⟩
    exact .nil _
  | false =>
    simp only [Bool.false_eq_true, if_false]
    refine (lays_commaSeparated hitem bound i).bind fun as us i₁ has _ => ?_
    refine lays_expect_bind rfl fun _ _ _ => lays_pure ⟨by simp, fun hus => ?_⟩
    exact (has hus.left).widen _

/-- A part that may be missing. -/
theorem lays_unlessAt {part : Parser α} {close : Symbol}
    (hpart : ∀ i, Lays part i (Holds view)) :
    Lays (unlessAt close part) i (Holds fun part? => part?.toList.flatMap view) := by
  rw [unlessAt]
  refine lays_at?_bind fun found => ?_
  cases found with
  | true => exact lays_pure fun _ => .nil _
  | false =>
    refine Lays.map ((hpart i).mono fun a us ha hus => ?_)
    simpa using ha hus

/-! ## Expressions -/

/-- The parser reads expressions that are nested in their tokens. -/
def LaysExpr (p : Parser Expr) : Prop := ∀ i, Lays p i fun e us => e.Laid us

variable {inner : Parser Expr} {bound : Nat}

theorem LaysExpr.holds {p : Parser Expr} (h : LaysExpr p) (i : Input) :
    Lays p i (Holds fun e => [.expr e]) :=
  (h i).mono fun _ _ he hus => .single (he.nested hus)

theorem lays_expressions (hinner : LaysExpr inner) {close : Symbol} {what : String} (i : Input) :
    Lays (itemsUntil close what inner bound) i
      fun es us => us ≠ [] ∧ Holds (List.map TreeNode.expr) es us := by
  refine (lays_itemsUntil hinner.holds i).mono fun es us => And.imp_right fun hes hus => ?_
  rw [List.map_eq_flatMap]
  exact hes hus

theorem lays_dictEntry (hinner : LaysExpr inner) (i : Input) :
    Lays (dictEntry inner) i (Holds fun entry => [.expr entry.1, .expr entry.2]) := by
  rw [dictEntry]
  refine (hinner i).bind fun key us i₁ hkey _ => lays_expect_bind rfl fun i₂ _ _ => ?_
  refine (hinner i₂).bind fun value vs i₃ hvalue _ => lays_pure fun hus => ?_
  rw [List.append_nil] at hus ⊢
  exact .cons (hkey.nested hus.left) (.skipToken (.single (hvalue.nested hus.right.tail)))

/-- A delimiter, what it encloses, and the one that closes it. -/
theorem laid_of_enclosed {t last : Token} {us : List Token} {ns : List TreeNode} {e : Expr}
    (hlast : us.getLast? = some last) (hns : InOrder us → TreeNode.Row us ns)
    (hspan : e.span = t.span.through last.span) (hrows : (TreeNode.expr e).rows = [ns]) :
    e.Laid (t :: us) := by
  refine Expr.laid_of_filled ⟨t, rfl, by rw [hspan]; rfl⟩ ?_
  refine TreeNode.filled_of_row rfl ?_ hspan (fun hus => (hns hus.tail).skipToken) hrows
  rw [List.getLast?_cons, hlast]
  rfl

theorem laysExpr_primary (hinner : LaysExpr inner) : LaysExpr (primary inner bound) := by
  intro i
  rw [primary]
  refine lays_current_bind ?_
  split
  case h_7 hk =>
    refine lays_advance_bind (by rw [hk]; rfl) fun i₁ _ => (hinner i₁).bind fun e us i₂ he _ => ?_
    exact lays_expect_bind rfl fun _ hclose _ => lays_pure (he.parens hk hclose)
  case h_8 hk =>
    refine lays_advance_bind (by rw [hk]; rfl) fun i₁ _ => (lays_expressions hinner i₁).bind ?_
    rintro items us i₂ ⟨hne, hitems⟩ hi₂
    obtain ⟨last, hlast, hspan⟩ := exists_lastSpanOf hne i₁.last
    refine lays_lastSpan_bind (lays_pure ?_)
    rw [List.append_nil, hi₂, hspan]
    exact laid_of_enclosed hlast hitems rfl rfl
  case h_9 hk =>
    refine lays_advance_bind (by rw [hk]; rfl) fun i₁ _ =>
      (lays_itemsUntil (lays_dictEntry hinner) i₁).bind ?_
    rintro entries us i₂ ⟨hne, hentries⟩ hi₂
    obtain ⟨last, hlast, hspan⟩ := exists_lastSpanOf hne i₁.last
    refine lays_lastSpan_bind (lays_pure ?_)
    rw [List.append_nil, hi₂, hspan]
    exact laid_of_enclosed hlast hentries rfl rfl
  case h_10 => exact lays_failExpected
  all_goals
    rename_i hk
    refine lays_advance_bind (by rw [hk]; rfl) fun _ _ => lays_pure ?_
    exact Expr.laid_singleton rfl rfl

/-- Each suffix is attached to what stands before it. -/
theorem lays_suffixes (hinner : LaysExpr inner) {turns : Nat} {e : Expr} {us : List Token}
    (he : e.Laid us) :
    Lays (suffixes inner bound turns e) i fun e' vs => e'.Laid (us ++ vs) := by
  induction turns generalizing i e us with
  | zero =>
    refine lays_pure ?_
    rwa [List.append_nil]
  | succ turns ih =>
    rw [suffixes]
    refine lays_eat_bind rfl (fun i₁ hi₁ => ?_) (lays_eat_bind rfl (fun i₁ hi₁ => ?_)
      (lays_eat_bind rfl (fun i₁ hi₁ => ?_) (lays_pure ?_)))
    · refine (lays_expressions hinner i₁).bind ?_
      rintro arguments vs i₂ ⟨hne, harguments⟩ hi₂
      obtain ⟨last, hlast, hspan⟩ := exists_lastSpanOf hne i₁.last
      have hcall : (Expr.call e arguments (e.span.through i₂.last)).Laid
          (us ++ i.current :: vs) := by
        rw [hi₂, hspan]
        refine he.suffix ?_ (fun hvs => (harguments hvs.tail).skipToken) rfl rfl
        rw [List.getLast?_cons, hlast]
        rfl
      refine lays_lastSpan_bind ((ih hcall).mono fun _ _ h => ?_)
      simpa using h
    · refine lays_identifier_bind fun id i₂ hi₂ => ?_
      have hfield : (Expr.field e id (e.span.through i₂.last)).Laid
          (us ++ [i.current, i₁.current]) := by
        rw [hi₂]
        exact he.suffix rfl (fun _ => .nil _) rfl rfl
      refine lays_lastSpan_bind ((ih hfield).mono fun _ _ h => ?_)
      simpa using h
    · refine (hinner i₁).bind fun position ps i₂ hposition _ => ?_
      refine lays_expect_bind rfl fun i₃ _ hi₃ => ?_
      have hindex : (Expr.index e position (e.span.through i₃.last)).Laid
          (us ++ i.current :: (ps ++ [i₂.current])) := by
        rw [hi₃]
        refine he.suffix ?_ (fun hvs => ?_) rfl rfl
        · rw [← List.cons_append, List.getLast?_concat]
        · exact .skipToken (.cons (hposition.nested hvs.tail.left) (.nil _))
      refine lays_lastSpan_bind ((ih hindex).mono fun _ _ h => ?_)
      simpa using h
    · rwa [List.append_nil]

theorem laysExpr_suffixed (hinner : LaysExpr inner) (bound : Nat) :
    LaysExpr (suffixed inner bound) := by
  intro i
  exact (laysExpr_primary hinner i).bind fun e us i₁ he _ => lays_suffixes hinner he

theorem laysExpr_unary {operand : Parser Expr} (hoperand : LaysExpr operand) (turns : Nat) :
    LaysExpr (unary operand turns) := by
  induction turns with
  | zero => exact hoperand
  | succ turns ih =>
    intro i
    rw [unary]
    refine lays_current_bind ?_
    split
    · exact hoperand i
    · rename_i op hop
      have hend : i.current.kind.isEnd = false := by
        cases hkind : i.current.kind with
        | endOfInput =>
          rw [hkind] at hop
          cases hop
        | _ => rfl
      refine lays_advance_bind hend fun i₁ _ => ?_
      refine (ih i₁).bind fun e us i₂ he _ => lays_pure ?_
      rw [List.append_nil]
      exact he.unary rfl rfl

theorem laysExpr_power {base : Parser Expr} (hbase : LaysExpr base) (turns : Nat) :
    LaysExpr (power base turns) := by
  induction turns with
  | zero => exact hbase
  | succ turns ih =>
    intro i
    rw [power]
    refine (hbase i).bind fun b us i₁ hb _ => lays_eat_bind rfl (fun i₂ _ => ?_) (lays_pure ?_)
    · refine (ih i₂).bind fun exponent vs i₃ hexponent _ => lays_pure ?_
      rw [List.append_nil]
      exact hb.join hexponent rfl rfl
    · rwa [List.append_nil]

section Levels

variable {operand : Parser Expr} {operator? : Kind → Option (Expr → Expr → Expr)}

theorem lays_operands (hjoins : JoinsOperands operator?) (hnone : operator? .endOfInput = none)
    (hoperand : LaysExpr operand) {turns : Nat} {left : Expr} {us : List Token}
    (hleft : left.Laid us) :
    Lays (operands operand operator? turns left) i fun e vs => e.Laid (us ++ vs) := by
  induction turns generalizing i left us with
  | zero =>
    refine lays_pure ?_
    rwa [List.append_nil]
  | succ turns ih =>
    rw [operands]
    refine lays_current_bind ?_
    split
    · refine lays_pure ?_
      rwa [List.append_nil]
    · rename_i combine hop
      have hend : i.current.kind.isEnd = false := by
        cases hkind : i.current.kind with
        | endOfInput =>
          rw [hkind, hnone] at hop
          cases hop
        | _ => rfl
      refine lays_advance_bind hend fun i₁ _ => ?_
      refine (hoperand i₁).bind fun right vs i₂ hright _ => ?_
      have hcombined : (combine left right).Laid (us ++ i.current :: vs) := by
        obtain ⟨op, rfl⟩ | ⟨op, rfl⟩ := hjoins _ combine hop
        · exact hleft.join hright rfl rfl
        · exact hleft.join hright rfl rfl
      refine (ih hcombined).mono fun _ _ h => ?_
      simpa using h

theorem laysExpr_leftLevel (hjoins : JoinsOperands operator?)
    (hnone : operator? .endOfInput = none) (hoperand : LaysExpr operand) (bound : Nat) :
    LaysExpr (leftLevel operator? bound operand) := by
  intro i
  exact (hoperand i).bind fun e us i₁ he _ => lays_operands hjoins hnone hoperand he

end Levels

/-- **An expression is nested in its tokens.** -/
theorem lays_expression (bound : Nat) : LaysExpr (expression bound) := by
  induction bound with
  | zero => exact fun i => lays_failExpected
  | succ bound ih =>
    have hunary := laysExpr_unary (laysExpr_suffixed ih (bound + 1)) (bound + 1)
    have hpower := laysExpr_power hunary (bound + 1)
    have hproduct := laysExpr_leftLevel joinsOperands_multiplicative? rfl hpower (bound + 1)
    have hsum := laysExpr_leftLevel joinsOperands_additive? rfl hproduct (bound + 1)
    have hcomparison := laysExpr_leftLevel joinsOperands_comparison? rfl hsum (bound + 1)
    have hand := laysExpr_leftLevel joinsOperands_andOperator? rfl hcomparison (bound + 1)
    exact laysExpr_leftLevel joinsOperands_orOperator? rfl hand (bound + 1)

/-! ## Clauses -/

/-- The tokens hold the nodes inside a statement, whatever its span is. -/
def Framed (s : Stmt) (us : List Token) : Prop :=
  us ≠ [] ∧ (InOrder us → ∃ ns, TreeNode.Row us ns ∧ (TreeNode.stmt s).rows = [ns])

/-- The same, and the statement is nested in the tokens. -/
def ClauseLaid (s : Stmt) (us : List Token) : Prop :=
  Framed s us ∧ (InOrder us → (TreeNode.stmt s).Nested us)

variable {expr : Parser Expr} {stmt : Parser Stmt}

/-- A clause from its first token through its last one. -/
theorem clauseLaid_of_row {s : Stmt} {us : List Token} {ns : List TreeNode} {first last : Token}
    (hfirst : us.head? = some first) (hlast : us.getLast? = some last)
    (hspan : s.span = first.span.through last.span) (hns : InOrder us → TreeNode.Row us ns)
    (hrows : (TreeNode.stmt s).rows = [ns]) : ClauseLaid s us := by
  refine ⟨⟨?_, fun hus => ⟨ns, hns hus, hrows⟩⟩, fun hus => ?_⟩
  · rintro rfl
    cases hfirst
  · have hfilled : (TreeNode.stmt s).Filled us :=
      TreeNode.filled_of_row hfirst hlast hspan hns hrows
    exact (hfilled hus).2

theorem lays_declaration (hexpr : LaysExpr expr) :
    Lays (declaration expr) i ClauseLaid := by
  rw [declaration]
  refine lays_expect_bind rfl fun i₁ _ _ => lays_optionalWord_bind rfl fun constant ws i₂ _ => ?_
  refine lays_typeTag.bind ?_
  rintro tag _ i₃ rfl _
  refine lays_identifier_bind fun name i₄ hi₄ => lays_eat_bind rfl (fun i₅ _ => ?_) ?_
  · simp only [if_true, bind_map_left]
    refine (hexpr i₅).bind fun initial us i₆ hinitial hi₆ => lays_lastSpan_bind (lays_pure ?_)
    obtain ⟨last, hlast, hspan⟩ := exists_lastSpanOf hinitial.ne_nil i₅.last
    rw [List.append_nil, hi₆, hspan]
    refine clauseLaid_of_row rfl ?_ rfl (fun hus => ?_) rfl
    · simp [List.getLast?_cons, List.getLast?_append, hlast]
    · have hinner := hus.tail.right.right.tail.tail
      have hrow := TreeNode.Row.single (hinitial.nested hinner)
      exact .skipToken (.skip _ (.skip _ (.skipToken (.skipToken hrow))))
  · simp only [Bool.false_eq_true, if_false, pure_bind]
    refine lays_lastSpan_bind (lays_pure ?_)
    rw [hi₄]
    refine clauseLaid_of_row rfl ?_ rfl (fun _ => .nil _) rfl
    simp [List.getLast?_cons, List.getLast?_append]

/-- The nodes of a target are those of the expression that it was read as. -/
theorem row_ofTarget {e : Expr} {target : Target} {us : List Token} (he : e.Laid us)
    (htarget : e.toTarget? = some target) (hus : InOrder us) :
    TreeNode.Row us (TreeNode.ofTarget target) := by
  have hinside : ∀ ns, (TreeNode.expr e).rows = [ns] → TreeNode.Row us ns := by
    intro ns hrows
    cases he.nested hus with
    | mk covers within ordered apart inside =>
      rw [hrows] at ordered inside
      have hrow : TreeNode.Row (us ++ []) (ns ++ []) :=
        .group (by simpa using inside) (ordered ns List.mem_cons_self) (.nil [])
      rwa [List.append_nil, List.append_nil] at hrow
  cases e with
  | name id span =>
    cases htarget
    obtain ⟨pre, mid, post, rfl, -, -, -, h⟩ := he
    have hleaf : (TreeNode.target id span).Nested mid := TreeNode.nested_of_leaf (h hus).1 rfl
    exact .single (hleaf.mono ⟨pre, post, rfl⟩)
  | index container position span =>
    cases htarget
    exact hinside _ rfl
  | field object id span =>
    cases htarget
    exact hinside _ rfl
  | _ => cases htarget

theorem lays_simpleStatement (hexpr : LaysExpr expr) (i : Input) :
    Lays (simpleStatement expr) i ClauseLaid := by
  rw [simpleStatement]
  refine lays_current_bind (lays_at?_bind fun found => ?_)
  cases found with
  | true => exact lays_declaration hexpr
  | false =>
    simp only [Bool.false_eq_true, if_false]
    refine (hexpr i).head.bind ?_
    rintro e us i₁ ⟨he, hhead⟩ -
    refine lays_eat_bind rfl (fun i₂ _ => ?_) (lays_pure ?_)
    · simp only [if_true]
      split
      · exact lays_throw
      · rename_i target htarget
        refine (hexpr i₂).bind fun value vs i₃ hvalue hi₃ => lays_lastSpan_bind (lays_pure ?_)
        obtain ⟨last, hlast, hspan⟩ := exists_lastSpanOf hvalue.ne_nil i₂.last
        rw [List.append_nil, hi₃, hspan]
        have hfirst : (us ++ i₁.current :: vs).head? = some i.current := by
          rw [List.head?_append, hhead he.ne_nil]
          rfl
        refine clauseLaid_of_row hfirst ?_ rfl (fun hus => ?_) rfl
        · simp [List.getLast?_cons, List.getLast?_append, hlast]
        · have hrow := TreeNode.Row.single (hvalue.nested hus.right.tail)
          exact (row_ofTarget he htarget hus.left).append hrow.skipToken
    · rw [List.append_nil]
      have hrow := fun hus => TreeNode.Row.single (he.nested hus)
      refine ⟨⟨he.ne_nil, fun hus => ⟨_, hrow hus, rfl⟩⟩, fun hus => ?_⟩
      obtain ⟨pre, mid, post, rfl, -, -, -, h⟩ := he
      obtain ⟨hover, hnested⟩ := h hus
      have hmid : (TreeNode.stmt (.eval e e.span)).Nested mid :=
        TreeNode.nested_of_row hus.left.right hover (.single hnested) rfl
      exact hmid.mono ⟨pre, post, rfl⟩

theorem lays_clause? (hexpr : LaysExpr expr) {close : Symbol} :
    Lays (unlessAt close (simpleStatement expr)) i
      (Holds fun clause => clause.toList.map TreeNode.stmt) := by
  have hclause : ∀ i, Lays (simpleStatement expr) i (Holds fun s => [.stmt s]) :=
    fun i => (lays_simpleStatement hexpr i).mono fun s us hs hus => .single (hs.2 hus)
  refine (lays_unlessAt hclause).mono fun clause us h hus => ?_
  change TreeNode.Row us (clause.toList.map .stmt)
  rw [List.map_eq_flatMap]
  exact h hus

theorem lays_expr? (hexpr : LaysExpr expr) {close : Symbol} :
    Lays (unlessAt close expr) i (Holds fun e => e.toList.map TreeNode.expr) := by
  refine (lays_unlessAt hexpr.holds).mono fun e us h hus => ?_
  change TreeNode.Row us (e.toList.map .expr)
  rw [List.map_eq_flatMap]
  exact h hus

theorem lays_parameter : Lays parameter i fun slot us => (TreeNode.slot slot).Filled us := by
  rw [parameter]
  refine lays_current_bind (lays_typeTag.bind ?_)
  rintro tag _ i₁ rfl -
  refine lays_identifier_bind fun name i₂ hi₂ => lays_lastSpan_bind (lays_pure fun hus => ?_)
  have hover : (i.current.span.through i₂.last).Over [i.current, i₁.current] := by
    rw [hi₂]
    exact Span.over_through rfl rfl hus
  exact ⟨hover, TreeNode.nested_of_leaf hover rfl⟩

theorem lays_fieldDeclaration :
    Lays fieldDeclaration i fun slot us => (TreeNode.slot slot).Filled us := by
  rw [fieldDeclaration]
  refine lays_expect_bind rfl fun i₁ _ _ => lays_typeTag.bind ?_
  rintro tag _ i₂ rfl -
  refine lays_identifier_bind fun name i₃ _ => lays_at?_bind fun found => ?_
  cases found with
  | true => exact lays_current_bind lays_throw
  | false =>
    simp only [Bool.false_eq_true, if_false]
    refine lays_expect_bind rfl fun i₄ _ hi₄ => lays_lastSpan_bind (lays_pure fun hus => ?_)
    have hover : (i.current.span.through i₄.last).Over
        [i.current, i₁.current, i₂.current, i₃.current] := by
      rw [hi₄]
      exact Span.over_through rfl rfl hus
    exact ⟨hover, TreeNode.nested_of_leaf hover rfl⟩

/-! ## Blocks -/

/-- The parser reads statements that span their tokens. -/
def LaysStmt (p : Parser Stmt) : Prop := ∀ i, Lays p i fun s us => (TreeNode.stmt s).Filled us

theorem lays_atOneOf_bind {words : List Keyword} {f : Bool → Parser α}
    (h : ∀ found, Lays (f found) i good) : Lays (atOneOf words >>= f) i good := by
  rw [atOneOf, bind_assoc]
  refine lays_current_bind ?_
  split <;> exact h _

theorem lays_block (hstmt : LaysStmt stmt) {closers : List Keyword} {what : String}
    {turns : Nat} : Lays (block stmt closers what turns) i (Holds (List.map .stmt)) := by
  induction turns generalizing i with
  | zero =>
    rw [block]
    refine lays_atOneOf_bind fun found => ?_
    split
    · exact lays_pure fun _ => .nil _
    · exact lays_failExpected
  | succ turns ih =>
    rw [block]
    refine lays_atOneOf_bind fun found => ?_
    split
    · exact lays_pure fun _ => .nil _
    · refine lays_current_bind ?_
      split
      · exact lays_failExpected
      · refine (hstmt i).bind fun s us i₁ hs _ => ih.bind fun rest vs i₂ hrest _ => ?_
        refine lays_pure fun hus => ?_
        rw [List.append_nil] at hus ⊢
        exact .cons (hs hus.left).2 (hrest hus.right)

/-- The nodes of the branches of an `if`. -/
def branchNodes (branches : List Branch) : List TreeNode :=
  branches.flatMap fun branch => .expr branch.condition :: branch.body.map .stmt

theorem lays_elifs (hexpr : LaysExpr expr) (hstmt : LaysStmt stmt) {turns : Nat} :
    Lays (elifs expr stmt bound turns) i (Holds branchNodes) := by
  induction turns generalizing i with
  | zero => exact lays_pure fun _ => .nil _
  | succ turns ih =>
    rw [elifs]
    refine lays_eat_bind rfl (fun i₁ _ => ?_) (lays_pure fun _ => .nil _)
    simp only [if_true]
    refine (hexpr i₁).bind fun condition cs i₂ hcondition _ => lays_expect_bind rfl fun i₃ _ _ => ?_
    refine (lays_block hstmt).bind fun body bs i₄ hbody _ => ?_
    refine ih.bind fun rest more i₅ hrest _ => lays_pure fun hus => ?_
    rw [List.append_nil] at hus ⊢
    have hbranch := hus.tail.right.tail
    refine .skipToken (.cons (hcondition.nested hus.tail.left) ?_)
    exact .skipToken ((hbody hbranch.left).append (hrest hbranch.right))

theorem lays_ifStatement (hexpr : LaysExpr expr) (hstmt : LaysStmt stmt) :
    Lays (ifStatement expr stmt bound i.current.span) i
      fun s us => (TreeNode.stmt s).Filled us := by
  rw [ifStatement]
  refine lays_expect_bind rfl fun i₁ _ _ => (hexpr i₁).bind fun condition cs i₂ hcondition _ => ?_
  refine lays_expect_bind rfl fun i₃ _ _ => (lays_block hstmt).bind fun body bs i₄ hbody _ => ?_
  refine (lays_elifs hexpr hstmt).bind fun branches es i₅ hbranches _ => ?_
  refine lays_eat_bind rfl (fun i₆ _ => ?_) ?_
  · simp only [if_true, bind_map_left]
    refine (lays_block hstmt).bind fun otherwise os i₇ hotherwise _ => ?_
    refine lays_expect_bind rfl fun i₈ _ hi₈ => lays_lastSpan_bind (lays_pure ?_)
    rw [hi₈]
    refine TreeNode.filled_of_row rfl ?_ rfl (fun hus => ?_) rfl
    · simp [List.getLast?_cons, List.getLast?_append]
    · have hbody' := hus.tail.right.tail
      have hotherwise' := hotherwise hbody'.right.right.tail.left
      refine .skipToken (.cons (hcondition.nested hus.tail.left) (.skipToken ?_))
      refine (hbody hbody'.left).append ((hbranches hbody'.right.left).append (.skipToken ?_))
      exact hotherwise'.append (.nil _)
  · simp only [Bool.false_eq_true, if_false, pure_bind]
    refine lays_expect_bind rfl fun i₆ _ hi₆ => lays_lastSpan_bind (lays_pure ?_)
    rw [hi₆]
    refine TreeNode.filled_of_row rfl ?_ rfl (fun hus => ?_) rfl
    · simp [List.getLast?_cons, List.getLast?_append]
    · have hbody' := hus.tail.right.tail
      refine .skipToken (.cons (hcondition.nested hus.tail.left) (.skipToken ?_))
      exact (hbody hbody'.left).append ((hbranches hbody'.right.left).append (.nil _))

theorem lays_whileStatement (hexpr : LaysExpr expr) (hstmt : LaysStmt stmt) :
    Lays (whileStatement expr stmt bound i.current.span) i
      fun s us => (TreeNode.stmt s).Filled us := by
  rw [whileStatement]
  refine lays_expect_bind rfl fun i₁ _ _ => (hexpr i₁).bind fun condition cs i₂ hcondition _ => ?_
  refine lays_expect_bind rfl fun i₃ _ _ => (lays_block hstmt).bind fun body bs i₄ hbody _ => ?_
  refine lays_expect_bind rfl fun i₅ _ hi₅ => lays_lastSpan_bind (lays_pure ?_)
  rw [hi₅]
  refine TreeNode.filled_of_row rfl ?_ rfl (fun hus => ?_) rfl
  · simp [List.getLast?_cons, List.getLast?_append]
  · refine .skipToken (.cons (hcondition.nested hus.tail.left) (.skipToken ?_))
    exact (hbody hus.tail.right.tail.left).widen _

theorem lays_forStatement (hexpr : LaysExpr expr) (hstmt : LaysStmt stmt) :
    Lays (forStatement expr stmt bound i.current.span) i
      fun s us => (TreeNode.stmt s).Filled us := by
  rw [forStatement]
  refine lays_expect_bind rfl fun i₁ _ _ => lays_expect_bind rfl fun i₂ _ _ => ?_
  refine (lays_clause? hexpr).bind fun init is i₃ hinit _ => ?_
  refine lays_expect_bind rfl fun i₄ _ _ => ?_
  refine (lays_expr? hexpr).bind fun condition cs i₅ hcondition _ => ?_
  refine lays_expect_bind rfl fun i₆ _ _ => ?_
  refine (lays_clause? hexpr).bind fun increment ns i₇ hincrement _ => ?_
  refine lays_expect_bind rfl fun i₈ _ _ => lays_expect_bind rfl fun i₉ _ _ => ?_
  refine (lays_block hstmt).bind fun body bs i' hbody _ => ?_
  refine lays_expect_bind rfl fun i'' _ hlast => lays_lastSpan_bind (lays_pure ?_)
  rw [hlast]
  refine TreeNode.filled_of_row rfl ?_ rfl (fun hus => ?_) rfl
  · simp [List.getLast?_cons, List.getLast?_append]
  · have hcondition' := hus.tail.tail.right.tail
    have hincrement' := hcondition'.right.tail
    refine .skipToken (.skipToken ((hinit hus.tail.tail.left).append (.skipToken ?_)))
    refine (hcondition hcondition'.left).append (.skipToken ?_)
    refine (hincrement hincrement'.left).append (.skipToken (.skipToken ?_))
    exact (hbody hincrement'.right.tail.tail.left).widen _

/-! ## Declarations of functions and classes -/

theorem lays_parameters {what : String} (i : Input) :
    Lays (itemsUntil .rightParen what parameter bound) i (Holds (List.map .slot)) := by
  have hitem : ∀ i, Lays parameter i (Holds fun slot => [.slot slot]) :=
    fun i => lays_parameter.mono fun slot us h hus => .single (h hus).2
  refine (lays_itemsUntil hitem i).mono fun slots us h hus => ?_
  rw [List.map_eq_flatMap]
  exact h.2 hus

theorem lays_functionDecl (hstmt : LaysStmt stmt) :
    Lays (functionDecl stmt bound) i fun decl us => (TreeNode.func decl).Filled us ∧
      decl.span = i.current.span.through (lastSpanOf i.last us) := by
  rw [functionDecl]
  refine lays_expect_bind rfl fun i₁ _ _ => lays_typeTag.bind ?_
  rintro returns _ i₂ rfl -
  refine lays_identifier_bind fun name i₃ _ => lays_expect_bind rfl fun i₄ _ _ => ?_
  refine (lays_parameters i₄).bind fun params ps i₅ hparams _ => ?_
  refine lays_expect_bind rfl fun i₆ _ _ => (lays_block hstmt).bind fun body bs i₇ hbody _ => ?_
  refine lays_expect_bind rfl fun i₈ _ hi₈ => lays_lastSpan_bind (lays_pure ?_)
  rw [hi₈]
  refine ⟨TreeNode.filled_of_row rfl ?_ rfl (fun hus => ?_) rfl, ?_⟩
  · simp [List.getLast?_cons, List.getLast?_append]
  · have hparams' := hus.tail.tail.tail.tail
    refine .skipToken (.skipToken (.skipToken (.skipToken ?_)))
    refine (hparams hparams'.left).append (.skipToken ?_)
    exact (hbody hparams'.right.tail.left).widen _
  · simp [lastSpanOf, List.getLast?_cons, List.getLast?_append]

/-- The tokens hold the fields and the methods of a class, in an order that keeps both of theirs. -/
def HoldsMembers (found : List Slot × List Func) (us : List Token) : Prop :=
  InOrder us → ∃ ns, TreeNode.Row us ns ∧
    (found.1.map TreeNode.slot ++ found.2.map TreeNode.func).Perm ns ∧
    List.Sublist (found.1.map TreeNode.slot) ns ∧ List.Sublist (found.2.map TreeNode.func) ns

theorem lays_members (hstmt : LaysStmt stmt) {turns : Nat} :
    Lays (members stmt bound turns) i HoldsMembers := by
  induction turns generalizing i with
  | zero => exact lays_failExpected
  | succ turns ih =>
    rw [members]
    refine lays_current_bind ?_
    split
    · refine lays_pure fun _ => ⟨[], .nil _, ?_⟩
      simp
    · refine lays_fieldDeclaration.bind fun field us _ hfield _ => ?_
      refine ih.bind fun found vs _ hfound _ => lays_pure fun hus => ?_
      rw [List.append_nil] at hus ⊢
      obtain ⟨ns, hrow, hperm, hfields, hmethods⟩ := hfound hus.right
      refine ⟨.slot field :: ns, .cons (hfield hus.left).2 hrow, hperm.cons _, ?_, ?_⟩
      · exact hfields.cons_cons _
      · exact hmethods.cons _
    · refine (lays_functionDecl hstmt).bind fun method us _ hmethod _ => ?_
      refine ih.bind fun found vs _ hfound _ => lays_pure fun hus => ?_
      rw [List.append_nil] at hus ⊢
      obtain ⟨ns, hrow, hperm, hfields, hmethods⟩ := hfound hus.right
      refine ⟨.func method :: ns, .cons (hmethod.1 hus.left).2 hrow, ?_, ?_, ?_⟩
      · exact List.perm_middle.trans (hperm.cons _)
      · exact hfields.cons _
      · exact hmethods.cons_cons _
    · exact lays_failExpected

theorem lays_classDecl (hstmt : LaysStmt stmt) :
    Lays (classDecl stmt bound) i fun decl us => (TreeNode.classDecl decl).Filled us ∧
      decl.span = i.current.span.through (lastSpanOf i.last us) := by
  rw [classDecl]
  refine lays_expect_bind rfl fun i₁ _ _ => lays_identifier_bind fun name i₂ _ => ?_
  refine lays_optionalWord_bind rfl fun withDo ws i₃ _ => ?_
  refine (lays_members hstmt).bind fun found us i₄ hfound _ => ?_
  refine lays_expect_bind rfl fun i₅ _ hi₅ => lays_lastSpan_bind (lays_pure ⟨fun hus => ?_, ?_⟩)
  · obtain ⟨ns, hrow, hperm, hfields, hmethods⟩ := hfound hus.tail.tail.right.left
    have hover : (i.current.span.through i₅.last).Over
        (i.current :: i₁.current :: (ws ++ (us ++ [i₄.current]))) := by
      rw [hi₅]
      refine Span.over_through rfl ?_ hus
      simp [List.getLast?_cons, List.getLast?_append]
    have hrow' : TreeNode.Row (i.current :: i₁.current :: (ws ++ (us ++ [i₄.current]))) ns :=
      .skipToken (.skipToken (.skip ws (hrow.widen _)))
    refine ⟨hover, TreeNode.nested_of_members hus hover hrow' ?_ ?_⟩
    · simpa [TreeNode.rows] using hperm
    · simp [TreeNode.rows, hfields, hmethods]
  · rw [hi₅]
    simp [lastSpanOf, List.getLast?_cons, List.getLast?_append]

/-! ## Statements -/

theorem rows_withSpan (s : Stmt) (span : Span) :
    (TreeNode.stmt (s.withSpan span)).rows = (TreeNode.stmt s).rows := by
  cases s <;> rfl

theorem span_withSpan (s : Stmt) (span : Span) : (s.withSpan span).span = span := by
  cases s <;> rfl

/-- A statement that ends with a semicolon spans its tokens with the semicolon. -/
theorem lays_closed {part : Parser Stmt} {what : String} (hpart : Lays part i Framed) :
    Lays (closed i.current.span what part) i fun s us => (TreeNode.stmt s).Filled us := by
  rw [closed]
  refine hpart.head.bind ?_
  rintro s us i₁ ⟨⟨hne, hs⟩, hhead⟩ -
  refine lays_expect_bind rfl fun i₂ _ hi₂ => lays_lastSpan_bind (lays_pure fun hus => ?_)
  obtain ⟨ns, hrow, hrows⟩ := hs hus.left
  have hfirst : (us ++ [i₁.current]).head? = some i.current := by
    rw [List.head?_append, hhead hne]
    rfl
  rw [hi₂]
  refine TreeNode.filled_of_row hfirst List.getLast?_concat ?_ (fun _ => hrow.widen _) ?_ hus
  · exact span_withSpan s _
  · rw [rows_withSpan, hrows]

/-- A declaration is a statement with the same span. -/
theorem filled_of_decl {us : List Token} {s : Stmt} {decl : TreeNode}
    (hdecl : decl.Filled us) (hspan : s.span = decl.span)
    (hrows : (TreeNode.stmt s).rows = [[decl]]) : (TreeNode.stmt s).Filled us := by
  intro hus
  obtain ⟨hover, hnested⟩ := hdecl hus
  have hover' : (TreeNode.stmt s).span.Over us := by
    rw [TreeNode.span, hspan]
    exact hover
  exact ⟨hover', TreeNode.nested_of_row hus hover' (.single hnested) hrows⟩

/-- A statement is nested in its tokens, if its expressions and the statements in its blocks are. -/
theorem laysStmt_statementOver (hexpr : LaysExpr expr) (hstmt : LaysStmt stmt) :
    LaysStmt (statementOver expr stmt bound) := by
  intro i
  rw [statementOver]
  refine lays_current_bind ?_
  have hclause : ∀ s us, ClauseLaid s us → Framed s us := fun _ _ => And.left
  split
  case h_1 => exact lays_closed ((lays_declaration hexpr).mono hclause)
  case h_2 hk =>
    refine lays_closed (lays_advance_bind (by rw [hk]; rfl) fun i₁ _ => ?_)
    refine (hexpr i₁).bind fun value us _ hvalue _ => lays_pure ⟨by simp, fun hus => ?_⟩
    rw [List.append_nil] at hus ⊢
    exact ⟨_, .skipToken (.single (hvalue.nested hus.tail)), rfl⟩
  case h_3 => exact lays_ifStatement hexpr hstmt
  case h_4 => exact lays_whileStatement hexpr hstmt
  case h_5 => exact lays_forStatement hexpr hstmt
  case h_6 =>
    refine (lays_functionDecl hstmt).bind ?_
    rintro decl us i₁ ⟨hdecl, hspan⟩ hi₁
    refine lays_lastSpan_bind (lays_pure ?_)
    rw [List.append_nil, hi₁, ← hspan]
    exact filled_of_decl hdecl rfl rfl
  case h_7 =>
    refine (lays_classDecl hstmt).bind ?_
    rintro decl us i₁ ⟨hdecl, hspan⟩ hi₁
    refine lays_lastSpan_bind (lays_pure ?_)
    rw [List.append_nil, hi₁, ← hspan]
    exact filled_of_decl hdecl rfl rfl
  case h_8 hk =>
    refine lays_closed (lays_advance_bind (by rw [hk]; rfl) fun _ _ => lays_pure ?_)
    exact ⟨by simp, fun _ => ⟨[], .nil _, rfl⟩⟩
  case h_9 hk =>
    refine lays_closed (lays_advance_bind (by rw [hk]; rfl) fun _ _ => lays_pure ?_)
    exact ⟨by simp, fun _ => ⟨[], .nil _, rfl⟩⟩
  case h_10 hk =>
    refine lays_closed (lays_advance_bind (by rw [hk]; rfl) fun _ _ => ?_)
    refine (lays_expr? hexpr).bind fun value us _ hvalue _ => ?_
    exact lays_pure ⟨by simp, fun hus => ⟨_, .skipToken ((hvalue hus.tail.left).widen _), rfl⟩⟩
  case h_11 => exact lays_closed ((lays_simpleStatement hexpr i).mono hclause)

/-- **A statement is nested in its tokens.** -/
theorem lays_statement (bound : Nat) : LaysStmt (statement bound) := by
  induction bound with
  | zero => exact fun i => lays_failExpected
  | succ bound ih =>
    rw [statement]
    exact laysStmt_statementOver (lays_expression (bound + 1)) ih

end Parser

/-! ## Programs -/

/-- Statements are found one after the other. -/
theorem row_parseStatements (bound : Nat) (i : Input) (hi : InOrder i.rest) :
    TreeNode.Row i.rest ((parseStatements bound i).statements.map .stmt) := by
  induction bound generalizing i with
  | zero => exact .nil _
  | succ bound ih =>
    rw [parseStatements]
    split
    · exact .nil _
    cases hread : Parser.statement (bound + 1) i with
    | error e => exact .nil _
    | ok r =>
      obtain ⟨s, after⟩ := r
      obtain ⟨us, hus, -, hs⟩ := Parser.lays_statement (bound + 1) i s after hread
      rw [hus] at hi ⊢
      exact .cons (hs hi.left).2 (ih after hi.right)

/-- **Trees are well nested.** In every statement of a source that is read, the span of each node
reaches from the start of a token to the end of that or a later one. What is inside a node lies
within its span, and what follows each other inside a node, or the statements themselves, are apart
and in the order of the source. -/
theorem nested_parse {source : List Char} {ts : List Token} (h : tokenize source = .ok ts) :
    (∀ s ∈ (parse ts).statements, (TreeNode.stmt s).Nested ts) ∧
      (parse ts).statements.Pairwise fun s t => s.span.Before t.span := by
  have hlexed := lexed_tokenize source
  rw [h] at hlexed
  obtain ⟨init, last, hts, hend, -, -, hinit⟩ := Tokenized.ends hlexed
  have hprefix : (Input.ofTokens ts).rest <+: ts := List.takeWhile_prefix _
  have horder : InOrder (Input.ofTokens ts).rest := by
    refine ⟨fun t ht => ?_, ?_⟩
    · have hnot : t.kind.isEnd = false := by simpa using List.mem_takeWhile_imp ht
      rcases List.mem_append.mp (hts ▸ hprefix.subset ht) with hmem | hmem
      · exact (hinit t hmem).2
      · rw [List.mem_singleton.mp hmem, hend] at hnot
        cases hnot
    · exact ((Tokenized.increasing hlexed).imp And.right).sublist hprefix.sublist
  have hrow := row_parseStatements (Input.ofTokens ts).rest.length (Input.ofTokens ts) horder
  have hbefore := hrow.pairwise_before horder
  rw [List.pairwise_map] at hbefore
  refine ⟨fun s hs => ?_, hbefore⟩
  exact (hrow.nested _ (List.mem_map_of_mem hs)).mono hprefix.isInfix

/-- A class whose method stands before its field, a loop whose clauses are in parentheses, and a sum
of which both operands are. -/
def parenthesizedText : List Char :=
  "class A func void f(number n) do endfunc set list l; endclass
for (; (a); (a[1]) = -2) do if x then y(1, 2); else break; endif endfor
((a) + (b.c)); return".toList

theorem nested_parse_parenthesizedText : ∃ ts, tokenize parenthesizedText = .ok ts ∧
    (parse ts).statements.length = 3 ∧
    (∀ s ∈ (parse ts).statements, (TreeNode.stmt s).Nested ts) ∧
      (parse ts).statements.Pairwise fun s t => s.span.Before t.span := by
  have hread : (tokenize parenthesizedText).toOption.map
      (fun ts => (parse ts).statements.length) = some 3 := by decide +kernel
  cases htokens : tokenize parenthesizedText with
  | error e =>
    rw [htokens] at hread
    cases hread
  | ok ts =>
    rw [htokens] at hread
    exact ⟨ts, rfl, Option.some.inj hread, nested_parse htokens⟩

end Chalk
