import Chalk.Program.Parser
import Chalk.Proofs.Parallel.Tree

/-!
# Parallel inputs are read alike

Two inputs are parallel if their tokens are of the same kinds, at spans that correspond. Whatever a
parser does on one of them, it does on the other: it reads as many tokens, and it ends with parallel
trees or with the same fault at spans that correspond. There is one rule for each way in which
parsers are put together, and one for each part of the grammar.

## Main definitions

* `Token.Parallel`, `Input.Parallel`, `ParseError.Parallel` — parallel tokens, inputs and errors
* `Parser.Parallel` — two parsers that do the same on parallel inputs

## Main results

* `Parser.parallel_expression`, `Parser.parallel_statement` — the grammar
* `parallel_parseStatements` — whole programs
-/

namespace Chalk

variable {R : Correspondence}

/-! ## Inputs -/

/-- Tokens of the same kind, at spans that correspond. -/
def Token.Parallel (R : Correspondence) (t u : Token) : Prop :=
  t.kind = u.kind ∧ R.rel t.span u.span

/-- Inputs with tokens of the same kinds, at spans that correspond. -/
structure Input.Parallel (R : Correspondence) (i j : Input) : Prop where
  rest : List.Forall₂ (Token.Parallel R) i.rest j.rest
  stop : R.rel i.stop j.stop
  last : R.rel i.last j.last

/-- The same fault, at spans that correspond. -/
def ParseError.Parallel (R : Correspondence) (e f : ParseError) : Prop :=
  e.fault = f.fault ∧ R.rel e.span f.span

namespace Input.Parallel

variable {i j : Input}

theorem current (h : i.Parallel R j) : i.current.Parallel R j.current := by
  obtain ⟨is, stop, last⟩ := i
  obtain ⟨js, stop', last'⟩ := j
  cases h.rest with
  | nil => exact ⟨rfl, h.stop⟩
  | cons first _ => exact first

theorem advance (h : i.Parallel R j) : i.advance.Parallel R j.advance := by
  obtain ⟨is, stop, last⟩ := i
  obtain ⟨js, stop', last'⟩ := j
  cases h.rest with
  | nil => exact h
  | cons first others => exact ⟨others, h.stop, first.2⟩

theorem isEmpty_eq (h : i.Parallel R j) : i.rest.isEmpty = j.rest.isEmpty := by
  obtain ⟨is, stop, last⟩ := i
  obtain ⟨js, stop', last'⟩ := j
  cases h.rest <;> rfl

end Input.Parallel

namespace Parser

variable {α β : Type} {val : α → α → Prop} {mid : β → β → Prop}

/-! ## Endings -/

/-- Both parsers succeed with results that are related and leave parallel inputs, or both fail with
parallel errors. -/
inductive EndParallel (R : Correspondence) (val : α → α → Prop) :
    Except ParseError (α × Input) → Except ParseError (α × Input) → Prop where
  | ok {a b : α} {i j : Input} (value : val a b) (input : i.Parallel R j) :
      EndParallel R val (.ok (a, i)) (.ok (b, j))
  | error {e f : ParseError} (error : e.Parallel R f) : EndParallel R val (.error e) (.error f)

/-- On parallel inputs both parsers end alike. -/
def Parallel (R : Correspondence) (val : α → α → Prop) (p q : Parser α) : Prop :=
  ∀ i j : Input, i.Parallel R j → EndParallel R val (p i) (q j)

theorem parallel_pure {a b : α} (h : val a b) : Parallel R val (pure a) (pure b) :=
  fun _ _ hij => .ok h hij

theorem parallel_throw {e f : ParseError} (h : e.Parallel R f) :
    Parallel R val (throw e) (throw f) :=
  fun _ _ _ => .error h

theorem Parallel.bind {p q : Parser β} {f g : β → Parser α} (hp : Parallel R mid p q)
    (hf : ∀ a b, mid a b → Parallel R val (f a) (g b)) :
    Parallel R val (p >>= f) (q >>= g) := by
  intro i j hij
  have hends := hp i j hij
  change EndParallel R val (p i >>= fun r => f r.1 r.2) (q j >>= fun r => g r.1 r.2)
  generalize p i = x at hends
  generalize q j = y at hends
  cases hends with
  | ok value input => exact hf _ _ value _ _ input
  | error error => exact .error error

/-- One parser after another that gives the same result on both inputs. -/
theorem Parallel.bind_eq {p q : Parser β} {f g : β → Parser α} (hp : Parallel R Eq p q)
    (hf : ∀ b, Parallel R val (f b) (g b)) : Parallel R val (p >>= f) (q >>= g) := by
  refine hp.bind ?_
  rintro b _ rfl
  exact hf b

theorem Parallel.map_some {p q : Parser α} (hp : Parallel R val p q) :
    Parallel R (Option.Rel val) (some <$> p) (some <$> q) := by
  rw [map_eq_pure_bind, map_eq_pure_bind]
  exact hp.bind fun _ _ h => parallel_pure (.some h)

theorem parallel_ite {c : Prop} [Decidable c] {p q p' q' : Parser α}
    (hthen : Parallel R val p q) (helse : Parallel R val p' q') :
    Parallel R val (if c then p else p') (if c then q else q') := by
  split
  · exact hthen
  · exact helse

/-! ## Single tokens -/

theorem parallel_current : Parallel R (Token.Parallel R) current current :=
  fun _ _ hij => .ok hij.current hij

theorem parallel_advance : Parallel R Eq advance advance :=
  fun _ _ hij => .ok rfl hij.advance

theorem parallel_lastSpan : Parallel R R.rel lastSpan lastSpan :=
  fun _ _ hij => .ok hij.last hij

theorem parallel_failExpected {what : String} :
    Parallel R val (failExpected what) (failExpected what) := by
  refine parallel_current.bind fun t u h => parallel_throw ⟨?_, h.2⟩
  rw [h.1]

theorem parallel_at? {kind : Kind} : Parallel R Eq (at? kind) (at? kind) := by
  refine parallel_current.bind fun t u h => parallel_pure ?_
  rw [h.1]

theorem parallel_eat {kind : Kind} : Parallel R Eq (eat kind) (eat kind) := by
  refine parallel_at?.bind_eq fun found => parallel_ite ?_ (parallel_pure rfl)
  exact parallel_advance.bind_eq fun _ => parallel_pure rfl

theorem parallel_expect {kind : Kind} {what : String} :
    Parallel R R.rel (expect kind what) (expect kind what) := by
  refine parallel_current.bind fun t u h => ?_
  rw [h.1]
  refine parallel_ite ?_ parallel_failExpected
  exact parallel_advance.bind_eq fun _ => parallel_pure h.2

theorem parallel_identifier {what : String} :
    Parallel R Eq (identifier what) (identifier what) := by
  refine parallel_current.bind fun t u h => ?_
  rw [h.1]
  split
  · exact parallel_advance.bind_eq fun _ => parallel_pure rfl
  · exact parallel_failExpected

theorem parallel_atOneOf {words : List Keyword} :
    Parallel R Eq (atOneOf words) (atOneOf words) := by
  refine parallel_current.bind fun t u h => ?_
  rw [h.1]
  split
  · exact parallel_pure rfl
  · exact parallel_pure rfl

/-! ## Repeated and optional parts -/

theorem parallel_commaSeparated {item : Parser α} (hitem : Parallel R val item item) (bound : Nat) :
    Parallel R (List.Forall₂ val) (commaSeparated item bound) (commaSeparated item bound) := by
  induction bound with
  | zero => exact hitem.bind fun _ _ h => parallel_pure (.cons h .nil)
  | succ bound ih =>
    refine hitem.bind fun _ _ hfirst => parallel_eat.bind_eq fun found => parallel_ite ?_ ?_
    · exact ih.bind fun _ _ hothers => parallel_pure (.cons hfirst hothers)
    · exact parallel_pure (.cons hfirst .nil)

theorem parallel_itemsUntil {close : Symbol} {what : String} {item : Parser α}
    (hitem : Parallel R val item item) (bound : Nat) :
    Parallel R (List.Forall₂ val) (itemsUntil close what item bound)
      (itemsUntil close what item bound) := by
  have hclose : ∀ as bs, List.Forall₂ val as bs → Parallel R (List.Forall₂ val)
      (expect (.symbol close) what >>= fun _ => pure as)
      (expect (.symbol close) what >>= fun _ => pure bs) :=
    fun as bs h => parallel_expect.bind fun _ _ _ => parallel_pure h
  refine parallel_at?.bind_eq fun found => parallel_ite ?_ ?_
  · exact (parallel_pure .nil).bind hclose
  · exact (parallel_commaSeparated hitem bound).bind hclose

theorem parallel_unlessAt {close : Symbol} {part : Parser α} (hpart : Parallel R val part part) :
    Parallel R (Option.Rel val) (unlessAt close part) (unlessAt close part) :=
  parallel_at?.bind_eq fun _ => parallel_ite (parallel_pure .none) hpart.map_some

/-! ## Expressions -/

/-- A parser whose results are parallel expressions. -/
abbrev ParallelExpr (R : Correspondence) (p : Parser Expr) : Prop :=
  Parallel R (Expr.Parallel R) p p

theorem parallel_dictEntry {inner : Parser Expr} (hinner : ParallelExpr R inner) :
    Parallel R (Expr.ParallelEntry R) (dictEntry inner) (dictEntry inner) := by
  refine hinner.bind fun _ _ hkey => parallel_expect.bind fun _ _ _ => ?_
  exact hinner.bind fun _ _ hvalue => parallel_pure (.mk hkey hvalue)

theorem parallel_primary {inner : Parser Expr} (hinner : ParallelExpr R inner) (bound : Nat) :
    ParallelExpr R (primary inner bound) := by
  rw [ParallelExpr, primary]
  refine parallel_current.bind ?_
  rintro ⟨kind, a⟩ ⟨_, b⟩ ⟨rfl, hspan⟩
  simp only
  split
  · exact parallel_advance.bind_eq fun _ => parallel_pure (.number hspan)
  · exact parallel_advance.bind_eq fun _ => parallel_pure (.string hspan)
  · exact parallel_advance.bind_eq fun _ => parallel_pure (.boolean hspan)
  · exact parallel_advance.bind_eq fun _ => parallel_pure (.boolean hspan)
  · exact parallel_advance.bind_eq fun _ => parallel_pure (.name hspan)
  · exact parallel_advance.bind_eq fun _ => parallel_pure (.receiver hspan)
  · refine parallel_advance.bind_eq fun _ => hinner.bind fun _ _ he => ?_
    exact parallel_expect.bind fun _ _ _ => parallel_pure he
  · refine parallel_advance.bind_eq fun _ => ?_
    refine (parallel_itemsUntil hinner bound).bind fun _ _ hitems => ?_
    exact parallel_lastSpan.bind fun _ _ hlast =>
      parallel_pure (.list hitems (R.through hspan hlast))
  · refine parallel_advance.bind_eq fun _ => ?_
    refine (parallel_itemsUntil (parallel_dictEntry hinner) bound).bind fun _ _ hentries => ?_
    exact parallel_lastSpan.bind fun _ _ hlast =>
      parallel_pure (.dict hentries (R.through hspan hlast))
  · exact parallel_failExpected

theorem parallel_suffixes {inner : Parser Expr} (hinner : ParallelExpr R inner) (bound turns : Nat)
    {e f : Expr} (he : e.Parallel R f) :
    Parallel R (Expr.Parallel R) (suffixes inner bound turns e) (suffixes inner bound turns f) := by
  induction turns generalizing e f with
  | zero => exact parallel_pure he
  | succ turns ih =>
    refine parallel_eat.bind_eq fun _ => parallel_ite ?_ ?_
    · refine (parallel_itemsUntil hinner bound).bind fun _ _ harguments => ?_
      refine parallel_lastSpan.bind fun _ _ hlast => ?_
      exact ih (.call he harguments (R.through he.span hlast))
    refine parallel_eat.bind_eq fun _ => parallel_ite ?_ ?_
    · refine parallel_identifier.bind_eq fun _ => parallel_lastSpan.bind fun _ _ hlast => ?_
      exact ih (.field he (R.through he.span hlast))
    refine parallel_eat.bind_eq fun _ => parallel_ite ?_ (parallel_pure he)
    · refine hinner.bind fun _ _ hposition => parallel_expect.bind fun _ _ _ => ?_
      refine parallel_lastSpan.bind fun _ _ hlast => ?_
      exact ih (.index he hposition (R.through he.span hlast))

theorem parallel_suffixed {inner : Parser Expr} (hinner : ParallelExpr R inner) (bound : Nat) :
    ParallelExpr R (suffixed inner bound) :=
  (parallel_primary hinner bound).bind fun _ _ he => parallel_suffixes hinner bound bound he

theorem parallel_unary {operand : Parser Expr} (hoperand : ParallelExpr R operand) (bound : Nat) :
    ParallelExpr R (unary operand bound) := by
  induction bound with
  | zero => exact hoperand
  | succ bound ih =>
    rw [ParallelExpr, unary]
    refine parallel_current.bind ?_
    rintro ⟨kind, a⟩ ⟨_, b⟩ ⟨rfl, hspan⟩
    simp only
    split
    · exact hoperand
    · refine parallel_advance.bind_eq fun _ => ih.bind fun _ _ he => ?_
      exact parallel_pure (.unary he (R.through hspan he.span))

theorem parallel_power {base : Parser Expr} (hbase : ParallelExpr R base) (bound : Nat) :
    ParallelExpr R (power base bound) := by
  induction bound with
  | zero => exact hbase
  | succ bound ih =>
    refine hbase.bind fun _ _ hb => parallel_eat.bind_eq fun _ => parallel_ite ?_ (parallel_pure hb)
    exact ih.bind fun _ _ hexponent => parallel_pure (hb.mkBinary hexponent .pow)

/-- The operators build nodes that span both operands. -/
def JoinsOperands (operator? : Kind → Option (Expr → Expr → Expr)) : Prop :=
  ∀ kind combine, operator? kind = some combine →
    (∃ op, combine = Expr.mkBinary op) ∨ ∃ op, combine = Expr.mkLogical op

theorem joinsOperands_orOperator? : JoinsOperands orOperator? := by
  intro kind combine h
  simp only [orOperator?] at h
  split at h <;> cases h
  exact .inr ⟨_, rfl⟩

theorem joinsOperands_andOperator? : JoinsOperands andOperator? := by
  intro kind combine h
  simp only [andOperator?] at h
  split at h <;> cases h
  exact .inr ⟨_, rfl⟩

theorem joinsOperands_comparison? : JoinsOperands comparison? := by
  intro kind combine h
  simp only [comparison?] at h
  split at h <;> cases h <;> exact .inl ⟨_, rfl⟩

theorem joinsOperands_additive? : JoinsOperands additive? := by
  intro kind combine h
  simp only [additive?] at h
  split at h <;> cases h <;> exact .inl ⟨_, rfl⟩

theorem joinsOperands_multiplicative? : JoinsOperands multiplicative? := by
  intro kind combine h
  simp only [multiplicative?] at h
  split at h <;> cases h <;> exact .inl ⟨_, rfl⟩

theorem JoinsOperands.parallel {operator? : Kind → Option (Expr → Expr → Expr)}
    (h : JoinsOperands operator?) {kind : Kind} {combine : Expr → Expr → Expr}
    (hop : operator? kind = some combine) {e f e' f' : Expr} (left : e.Parallel R f)
    (right : e'.Parallel R f') : (combine e e').Parallel R (combine f f') := by
  obtain ⟨op, rfl⟩ | ⟨op, rfl⟩ := h kind combine hop
  · exact left.mkBinary right op
  · exact left.mkLogical right op

theorem parallel_operands {operator? : Kind → Option (Expr → Expr → Expr)}
    (hjoins : JoinsOperands operator?) {operand : Parser Expr} (hoperand : ParallelExpr R operand)
    (bound : Nat) {e f : Expr} (he : e.Parallel R f) :
    Parallel R (Expr.Parallel R) (operands operand operator? bound e)
      (operands operand operator? bound f) := by
  induction bound generalizing e f with
  | zero => exact parallel_pure he
  | succ bound ih =>
    rw [operands, operands]
    refine parallel_current.bind ?_
    rintro ⟨kind, a⟩ ⟨_, b⟩ ⟨rfl, hspan⟩
    simp only
    split
    · exact parallel_pure he
    · rename_i combine hop
      refine parallel_advance.bind_eq fun _ => hoperand.bind fun _ _ hright => ?_
      exact ih (hjoins.parallel hop he hright)

theorem parallel_leftLevel {operator? : Kind → Option (Expr → Expr → Expr)}
    (hjoins : JoinsOperands operator?) {operand : Parser Expr} (hoperand : ParallelExpr R operand)
    (bound : Nat) : ParallelExpr R (leftLevel operator? bound operand) :=
  hoperand.bind fun _ _ he => parallel_operands hjoins hoperand bound he

/-- **Expressions are read alike from parallel inputs.** -/
theorem parallel_expression (bound : Nat) : ParallelExpr R (expression bound) := by
  induction bound with
  | zero => exact parallel_failExpected
  | succ bound ih =>
    refine parallel_leftLevel joinsOperands_orOperator? ?_ _
    refine parallel_leftLevel joinsOperands_andOperator? ?_ _
    refine parallel_leftLevel joinsOperands_comparison? ?_ _
    refine parallel_leftLevel joinsOperands_additive? ?_ _
    refine parallel_leftLevel joinsOperands_multiplicative? ?_ _
    exact parallel_power (parallel_unary (parallel_suffixed ih _) _) _

/-! ## Declarations and clauses -/

theorem parallel_typeTag {allowVoid : Bool} :
    Parallel R Eq (typeTag allowVoid) (typeTag allowVoid) := by
  rw [typeTag]
  refine parallel_current.bind ?_
  rintro ⟨kind, a⟩ ⟨_, b⟩ ⟨rfl, hspan⟩
  simp only
  split
  · exact parallel_advance.bind_eq fun _ => parallel_pure rfl
  · exact parallel_advance.bind_eq fun _ => parallel_pure rfl
  · exact parallel_advance.bind_eq fun _ => parallel_pure rfl
  · exact parallel_advance.bind_eq fun _ => parallel_pure rfl
  · exact parallel_advance.bind_eq fun _ => parallel_pure rfl
  · refine parallel_ite ?_ (parallel_throw ⟨rfl, hspan⟩)
    exact parallel_advance.bind_eq fun _ => parallel_pure rfl
  · exact parallel_advance.bind_eq fun _ => parallel_pure rfl
  · exact parallel_failExpected

/-- A parser whose results are parallel statements. -/
abbrev ParallelStmt (R : Correspondence) (p : Parser Stmt) : Prop :=
  Parallel R (Stmt.Parallel R) p p

variable {expr : Parser Expr} {stmt : Parser Stmt} {bound : Nat}

theorem parallel_declaration (hexpr : ParallelExpr R expr) : ParallelStmt R (declaration expr) := by
  refine parallel_expect.bind fun start start' hstart => parallel_eat.bind_eq fun constant => ?_
  refine parallel_typeTag.bind_eq fun tag => parallel_identifier.bind_eq fun name => ?_
  have hends : ∀ e f, Option.Rel (Expr.Parallel R) e f → Parallel R (Stmt.Parallel R)
      (lastSpan >>= fun last => pure (.declare constant tag name e (start.through last)))
      (lastSpan >>= fun last => pure (.declare constant tag name f (start'.through last))) :=
    fun _ _ h => parallel_lastSpan.bind fun _ _ hlast =>
      parallel_pure (.declare h (R.through hstart hlast))
  refine parallel_eat.bind_eq fun _ => parallel_ite ?_ ?_
  · exact hexpr.map_some.bind hends
  · exact (parallel_pure .none).bind hends

theorem parallel_simpleStatement (hexpr : ParallelExpr R expr) :
    ParallelStmt R (simpleStatement expr) := by
  refine parallel_current.bind fun t u ht => parallel_at?.bind_eq fun _ => ?_
  refine parallel_ite (parallel_declaration hexpr) ?_
  refine hexpr.bind fun e f he => parallel_eat.bind_eq fun _ => parallel_ite ?_ ?_
  · have htarget := he.toTarget?
    generalize e.toTarget? = target at htarget
    generalize f.toTarget? = target' at htarget
    cases htarget with
    | none => exact parallel_throw ⟨rfl, he.span⟩
    | some htarget =>
      refine hexpr.bind fun _ _ hvalue => parallel_lastSpan.bind fun _ _ hlast => ?_
      exact parallel_pure (.assign htarget hvalue (R.through ht.2 hlast))
  · exact parallel_pure (.eval he he.span)

theorem parallel_parameter : Parallel R Slot.Parallel parameter parameter := by
  refine parallel_current.bind fun _ _ _ => parallel_typeTag.bind_eq fun _ => ?_
  refine parallel_identifier.bind_eq fun _ => parallel_lastSpan.bind fun _ _ _ => ?_
  exact parallel_pure ⟨rfl, rfl⟩

theorem parallel_fieldDeclaration : Parallel R Slot.Parallel fieldDeclaration fieldDeclaration := by
  refine parallel_expect.bind fun _ _ _ => parallel_typeTag.bind_eq fun _ => ?_
  refine parallel_identifier.bind_eq fun _ => parallel_at?.bind_eq fun _ => parallel_ite ?_ ?_
  · exact parallel_current.bind fun _ _ ht => parallel_throw ⟨rfl, ht.2⟩
  · refine parallel_expect.bind fun _ _ _ => parallel_lastSpan.bind fun _ _ _ => ?_
    exact parallel_pure ⟨rfl, rfl⟩

/-! ## Blocks -/

theorem parallel_block (hstmt : ParallelStmt R stmt) {closers : List Keyword} {what : String} :
    Parallel R (Stmt.ParallelBlock R) (block stmt closers what bound)
      (block stmt closers what bound) := by
  induction bound with
  | zero =>
    exact parallel_atOneOf.bind_eq fun _ => parallel_ite (parallel_pure .nil) parallel_failExpected
  | succ bound ih =>
    refine parallel_atOneOf.bind_eq fun _ => parallel_ite (parallel_pure .nil) ?_
    refine parallel_current.bind fun t u ht => ?_
    rw [ht.1]
    refine parallel_ite parallel_failExpected (hstmt.bind fun _ _ hfirst => ?_)
    exact ih.bind fun _ _ hothers => parallel_pure (.cons hfirst hothers)

theorem parallel_elifs (hexpr : ParallelExpr R expr) (hstmt : ParallelStmt R stmt) (turns : Nat) :
    Parallel R (List.Forall₂ (BranchOf.Parallel R)) (elifs expr stmt bound turns)
      (elifs expr stmt bound turns) := by
  induction turns with
  | zero => exact parallel_pure .nil
  | succ turns ih =>
    refine parallel_eat.bind_eq fun _ => parallel_ite ?_ (parallel_pure .nil)
    refine hexpr.bind fun _ _ hcondition => parallel_expect.bind fun _ _ _ => ?_
    refine (parallel_block hstmt).bind fun _ _ hbody => ih.bind fun _ _ hothers => ?_
    exact parallel_pure (.cons (.mk hcondition hbody) hothers)

theorem parallel_ifStatement (hexpr : ParallelExpr R expr) (hstmt : ParallelStmt R stmt)
    {a b : Span} (hstart : R.rel a b) :
    Parallel R (Stmt.Parallel R) (ifStatement expr stmt bound a)
      (ifStatement expr stmt bound b) := by
  refine parallel_expect.bind fun _ _ _ => hexpr.bind fun e f hcondition => ?_
  refine parallel_expect.bind fun _ _ _ => (parallel_block hstmt).bind fun ss ts hbody => ?_
  refine (parallel_elifs hexpr hstmt bound).bind fun es fs helifs => ?_
  have hends : ∀ o p, Option.Rel (Stmt.ParallelBlock R) o p → Parallel R (Stmt.Parallel R)
      (expect (.keyword .endIfKw) "'endif'" >>= fun _ => lastSpan >>= fun last =>
        pure (.branch e ss es o (a.through last)))
      (expect (.keyword .endIfKw) "'endif'" >>= fun _ => lastSpan >>= fun last =>
        pure (.branch f ts fs p (b.through last))) :=
    fun _ _ h => parallel_expect.bind fun _ _ _ => parallel_lastSpan.bind fun _ _ hlast =>
      parallel_pure (.branch hcondition hbody helifs h (R.through hstart hlast))
  refine parallel_eat.bind_eq fun _ => parallel_ite ?_ ?_
  · exact (parallel_block hstmt).map_some.bind hends
  · exact (parallel_pure .none).bind hends

theorem parallel_whileStatement (hexpr : ParallelExpr R expr) (hstmt : ParallelStmt R stmt)
    {a b : Span} (hstart : R.rel a b) :
    Parallel R (Stmt.Parallel R) (whileStatement expr stmt bound a)
      (whileStatement expr stmt bound b) := by
  refine parallel_expect.bind fun _ _ _ => hexpr.bind fun _ _ hcondition => ?_
  refine parallel_expect.bind fun _ _ _ => (parallel_block hstmt).bind fun _ _ hbody => ?_
  refine parallel_expect.bind fun _ _ _ => parallel_lastSpan.bind fun _ _ hlast => ?_
  exact parallel_pure (.whileLoop hcondition hbody (R.through hstart hlast))

theorem parallel_forStatement (hexpr : ParallelExpr R expr) (hstmt : ParallelStmt R stmt)
    {a b : Span} (hstart : R.rel a b) :
    Parallel R (Stmt.Parallel R) (forStatement expr stmt bound a)
      (forStatement expr stmt bound b) := by
  have hclause := parallel_simpleStatement hexpr
  refine parallel_expect.bind fun _ _ _ => parallel_expect.bind fun _ _ _ => ?_
  refine (parallel_unlessAt hclause).bind fun _ _ hinit => parallel_expect.bind fun _ _ _ => ?_
  refine (parallel_unlessAt hexpr).bind fun _ _ hcondition => parallel_expect.bind fun _ _ _ => ?_
  refine (parallel_unlessAt hclause).bind fun _ _ hincrement => ?_
  refine parallel_expect.bind fun _ _ _ => parallel_expect.bind fun _ _ _ => ?_
  refine (parallel_block hstmt).bind fun _ _ hbody => parallel_expect.bind fun _ _ _ => ?_
  refine parallel_lastSpan.bind fun _ _ hlast => parallel_pure ?_
  exact .forLoop hinit hcondition hincrement hbody (R.through hstart hlast)

theorem parallel_functionDecl (hstmt : ParallelStmt R stmt) :
    Parallel R (FuncOf.Parallel R) (functionDecl stmt bound) (functionDecl stmt bound) := by
  refine parallel_expect.bind fun _ _ _ => parallel_typeTag.bind_eq fun _ => ?_
  refine parallel_identifier.bind_eq fun _ => parallel_expect.bind fun _ _ _ => ?_
  refine (parallel_itemsUntil parallel_parameter bound).bind fun _ _ hparams => ?_
  refine parallel_expect.bind fun _ _ _ => (parallel_block hstmt).bind fun _ _ hbody => ?_
  refine parallel_expect.bind fun _ _ _ => parallel_lastSpan.bind fun _ _ _ => ?_
  exact parallel_pure (.mk hparams hbody)

/-- The fields and methods of a class that differ in their spans only. -/
def ParallelMembers (R : Correspondence) (a b : List Slot × List Func) : Prop :=
  List.Forall₂ Slot.Parallel a.1 b.1 ∧ List.Forall₂ (FuncOf.Parallel R) a.2 b.2

theorem parallel_members (hstmt : ParallelStmt R stmt) (turns : Nat) :
    Parallel R (ParallelMembers R) (members stmt bound turns) (members stmt bound turns) := by
  induction turns with
  | zero => exact parallel_failExpected
  | succ turns ih =>
    rw [members]
    refine parallel_current.bind ?_
    rintro ⟨kind, a⟩ ⟨_, b⟩ ⟨rfl, hspan⟩
    simp only
    split
    · exact parallel_pure ⟨.nil, .nil⟩
    · refine parallel_fieldDeclaration.bind fun _ _ hfield => ih.bind fun _ _ hothers => ?_
      exact parallel_pure ⟨.cons hfield hothers.1, hothers.2⟩
    · refine (parallel_functionDecl hstmt).bind fun _ _ hmethod => ih.bind fun _ _ hothers => ?_
      exact parallel_pure ⟨hothers.1, .cons hmethod hothers.2⟩
    · exact parallel_failExpected

theorem parallel_classDecl (hstmt : ParallelStmt R stmt) :
    Parallel R (ClassOf.Parallel R) (classDecl stmt bound) (classDecl stmt bound) := by
  refine parallel_expect.bind fun _ _ _ => parallel_identifier.bind_eq fun _ => ?_
  refine parallel_eat.bind_eq fun _ => (parallel_members hstmt bound).bind fun _ _ hmembers => ?_
  refine parallel_expect.bind fun _ _ _ => parallel_lastSpan.bind fun _ _ _ => ?_
  exact parallel_pure (.mk hmembers.1 hmembers.2)

/-! ## Statements -/

theorem parallel_closed {a b : Span} (hstart : R.rel a b) {what : String} {part part' : Parser Stmt}
    (hpart : Parallel R (Stmt.Parallel R) part part') :
    Parallel R (Stmt.Parallel R) (closed a what part) (closed b what part') := by
  refine hpart.bind fun _ _ hs => parallel_expect.bind fun _ _ _ => ?_
  exact parallel_lastSpan.bind fun _ _ hlast =>
    parallel_pure (hs.withSpan (R.through hstart hlast))

theorem parallel_statementOver (hexpr : ParallelExpr R expr) (hstmt : ParallelStmt R stmt) :
    ParallelStmt R (statementOver expr stmt bound) := by
  rw [ParallelStmt, statementOver]
  refine parallel_current.bind ?_
  rintro ⟨kind, a⟩ ⟨_, b⟩ ⟨rfl, hspan⟩
  simp only
  split
  · exact parallel_closed hspan (parallel_declaration hexpr)
  · refine parallel_closed hspan (parallel_advance.bind_eq fun _ => hexpr.bind fun _ _ he => ?_)
    exact parallel_pure (.print he hspan)
  · exact parallel_ifStatement hexpr hstmt hspan
  · exact parallel_whileStatement hexpr hstmt hspan
  · exact parallel_forStatement hexpr hstmt hspan
  · refine (parallel_functionDecl hstmt).bind fun _ _ hdecl => ?_
    exact parallel_lastSpan.bind fun _ _ hlast =>
      parallel_pure (.function hdecl (R.through hspan hlast))
  · refine (parallel_classDecl hstmt).bind fun _ _ hdecl => ?_
    exact parallel_lastSpan.bind fun _ _ hlast =>
      parallel_pure (.classDef hdecl (R.through hspan hlast))
  · exact parallel_closed hspan (parallel_advance.bind_eq fun _ => parallel_pure (.breakLoop hspan))
  · exact parallel_closed hspan (parallel_advance.bind_eq fun _ => parallel_pure (.skip hspan))
  · refine parallel_closed hspan (parallel_advance.bind_eq fun _ => ?_)
    exact (parallel_unlessAt hexpr).bind fun _ _ he => parallel_pure (.giveBack he hspan)
  · exact parallel_closed hspan (parallel_simpleStatement hexpr)

/-- **Statements are read alike from parallel inputs.** -/
theorem parallel_statement (bound : Nat) : ParallelStmt R (statement bound) := by
  induction bound with
  | zero => exact parallel_failExpected
  | succ bound ih => exact parallel_statementOver (parallel_expression (bound + 1)) ih

end Parser

/-! ## Programs -/

/-- Parallel statements, and parallel errors or none. -/
structure Parsed.Parallel (R : Correspondence) (p q : Parsed) : Prop where
  statements : Stmt.ParallelBlock R p.statements q.statements
  failure : Option.Rel (ParseError.Parallel R) p.failure q.failure

/-- **Programs are read alike from parallel inputs.** -/
theorem parallel_parseStatements (bound : Nat) {i j : Input} (h : i.Parallel R j) :
    (parseStatements bound i).Parallel R (parseStatements bound j) := by
  induction bound generalizing i j with
  | zero => exact ⟨.nil, .none⟩
  | succ bound ih =>
    rw [parseStatements, parseStatements, h.isEmpty_eq]
    split
    · exact ⟨.nil, .none⟩
    · have hends := Parser.parallel_statement (bound + 1) i j h
      generalize Parser.statement (bound + 1) i = x at hends
      generalize Parser.statement (bound + 1) j = y at hends
      cases hends with
      | ok hs hinput =>
        have hmore := ih hinput
        exact ⟨.cons hs hmore.statements, hmore.failure⟩
      | error herror => exact ⟨.nil, .some herror⟩

theorem parallel_parse {ts us : List Token}
    (h : (Input.ofTokens ts).Parallel R (Input.ofTokens us)) :
    (parse ts).Parallel R (parse us) := by
  rw [parse, parse, h.rest.length_eq]
  exact parallel_parseStatements _ h

end Chalk
