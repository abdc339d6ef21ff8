import Chalk.Proofs.Descent.Agreement
import Chalk.Proofs.Viability.Grammar

/-!
# The token that an error is about

Parsing fails at the first token that no program has at that place. The tokens in front of it can be
completed to a program; those up to it cannot, and however they go on, the error is the same.

An assignment to something else than a target is the exception. What stands in front of the `=` can
be a statement of its own, and the error is about it: about the expression itself, without the
parentheses around it.

## Main definitions

* `Scan.program` — statements up to a mark of the end
* `EndsOnce` — tokens with the mark of the end behind all others
* `Expr.ReadFrom` — tokens that are read as one expression
* `FirstImpossible`, `RefusedTarget` — where an error lies

## Main results

* `failure_eq_some_iff` — parsing fails where `Scan.program` does
* `failure_firstImpossible` — where the error of a sequence of tokens lies
-/

namespace Chalk

namespace Scan

/-! ## Programs -/

/-- Statements up to a mark of the end, which is not passed. -/
def program : Scan (List Stmt) := do
  if (← current).kind.isEnd then return []
  let first ← statement
  return first :: (← by apply program)
partial_fixpoint

/-- The tokens that mark an end. -/
def Marks : Token → Prop := fun t => t.kind.isEnd = true

/-- **Programs** keep what they read and are blocked where they fail. -/
theorem viable_program (n : Nat) : Viable n 0 Marks Marks program := by
  induction n using Nat.strong_induction_on with
  | _ n ih =>
    rw [program]
    refine viable_unless Marks (q := pure []) (fun t ht => if_pos ht)
      (viable_pure (fun _ => id) []) (fun t ht => viableFrom_of_pos fun m hm => ?_) (fun _ => id)
      fun _ => id
    subst hm
    have hmore := ih m (Nat.lt_succ_self m)
    rw [if_neg (show ¬t.kind.isEnd = true from ht)]
    exact ((viable_statement (m + 1)).bind (fun first => hmore.bind_pure (.inr fun _ => id) _)
      (fun _ _ => trivial) (.inr fun _ _ => trivial)).from t

theorem reads_program_of_mark {t : Token} (ht : t.kind.isEnd = true) (rest : List Token)
    (last : Span) : program.Reads ⟨t :: rest, last⟩ [] ⟨t :: rest, last⟩ := by
  rw [program]
  show (if _ then _ else _ : Scan _) _ = _
  rw [if_pos ht]
  rfl

/-- Where no mark comes next, a statement is read first. -/
theorem program_of_open {t : Token} (ht : t.kind.isEnd = false) (rest : List Token)
    (last : Span) : program ⟨t :: rest, last⟩ =
      (statement >>= fun first => program >>= fun others => pure (first :: others))
        ⟨t :: rest, last⟩ := by
  refine (congrFun program.eq_1 _).trans ?_
  show (if _ then _ else _ : Scan _) _ = _
  rw [if_neg (by simp [ht])]

end Scan

/-- The statements of the bounded parser are a program or fail as one. -/
theorem ends_program {bound : Nat} {i : Input} {tape : Tape} (hi : i.On tape)
    (hbound : i.rest.length ≤ bound) :
    match (parseStatements bound i).failure with
    | some e => Scan.program.Rejects tape e
    | none => ∃ after, Scan.program.Reads tape (parseStatements bound i).statements after := by
  induction bound generalizing i tape with
  | zero =>
    obtain ⟨-, more, rfl⟩ := hi
    rw [List.length_eq_zero_iff.mp (Nat.le_zero.mp hbound)]
    exact ⟨_, Scan.reads_program_of_mark rfl more i.last⟩
  | succ bound ih =>
    have hstatement := Scan.agrees_statement hbound i tape hi (Nat.le_refl _)
    obtain ⟨hopen, more, rfl⟩ := hi
    obtain ⟨_ | ⟨t, rest⟩, stop, last⟩ := i
    · exact ⟨_, Scan.reads_program_of_mark rfl more last⟩
    have hprogram := Scan.program_of_open (hopen t List.mem_cons_self)
      (rest ++ ⟨.endOfInput, stop⟩ :: more) last
    rw [Scan.AgreesAt] at hstatement
    rw [parseStatements]
    simp only [List.isEmpty_cons, Bool.false_eq_true, if_false]
    cases hread : Parser.statement (bound + 1) ⟨t :: rest, stop, last⟩ with
    | error e =>
      rw [hread] at hstatement
      exact hprogram.trans (Scan.rejects_bind_iff.mpr (.inl hstatement))
    | ok r =>
      obtain ⟨s, i'⟩ := r
      rw [hread] at hstatement
      obtain ⟨mid, used, hreads, hmid, hused, -⟩ := hstatement
      have hlt := Parser.consumes_statement (bound + 1) _ s i' hread
      have hmore := ih hmid (Nat.le_of_lt_succ (Nat.lt_of_lt_of_le hlt hbound))
      show match (parseStatements bound i').failure with | some e => _ | none => _
      cases hfail : (parseStatements bound i').failure with
      | some e =>
        rw [hfail] at hmore
        exact hprogram.trans (Scan.rejects_bind_iff.mpr
          (.inr ⟨s, mid, hreads, Scan.rejects_bind_iff.mpr (.inl hmore)⟩))
      | none =>
        rw [hfail] at hmore
        obtain ⟨after, hmore⟩ := hmore
        exact ⟨after, hprogram.trans (Scan.reads_bind_iff.mpr
          ⟨s, mid, hreads, Scan.reads_bind_iff.mpr ⟨_, after, hmore, rfl⟩⟩)⟩

/-! ## The end of parsing -/

theorem failure_eq_some_iff {ts : List Token} {e : ParseError} :
    (parse ts).failure = some e ↔ Scan.program.Rejects (Tape.ofTokens ts) e := by
  have hends := ends_program (on_ofTokens ts) (Nat.le_refl _)
  change match (parse ts).failure with | some e => _ | none => _ at hends
  cases hfail : (parse ts).failure with
  | some e' =>
    rw [hfail] at hends
    constructor
    · rintro ⟨⟩
      exact hends
    · intro h
      cases hends.symm.trans h
      rfl
  | none =>
    rw [hfail] at hends
    obtain ⟨after, hreads⟩ := hends
    exact ⟨nofun, fun h => by cases hreads.symm.trans h⟩

theorem failure_eq_none_of_reads {ts : List Token} {ss : List Stmt} {after : Tape}
    (h : Scan.program.Reads (Tape.ofTokens ts) ss after) : (parse ts).failure = none := by
  cases hfail : (parse ts).failure with
  | none => rfl
  | some e => cases h.symm.trans (failure_eq_some_iff.mp hfail)

/-! ## Tokens and their tape -/

/-- The tokens end with a mark of the end, and no other token is one. -/
def EndsOnce (ts : List Token) : Prop :=
  ∃ init mark, ts = init ++ [mark] ∧ mark.kind.isEnd = true ∧ Scan.Unmarked init

theorem endsOnce_of_tokenize {source : List Char} {ts : List Token}
    (h : tokenize source = .ok ts) : EndsOnce ts := by
  have hlexed := lexed_tokenize source
  rw [h] at hlexed
  obtain ⟨init, mark, rfl, hmark, -, -, hinit⟩ := Tokenized.ends hlexed
  exact ⟨init, mark, rfl, by rw [hmark]; rfl, fun t ht => (hinit t ht).1⟩

/-- The span of the first token. -/
def firstSpan (ts : List Token) : Span := (ts.head?.map Token.span).getD {}

theorem firstSpan_append {us : List Token} (h : us ≠ []) (vs : List Token) :
    firstSpan (us ++ vs) = firstSpan us := by
  cases us with
  | nil => exact absurd rfl h
  | cons u us => rfl

theorem EndsOnce.ofTokens {ts : List Token} (h : EndsOnce ts) :
    Tape.ofTokens ts = ⟨ts, firstSpan ts⟩ := by
  obtain ⟨init, mark, rfl, hmark, -⟩ := h
  have hclosed : closedTokens (init ++ [mark]) = init ++ [mark] := if_pos (by simp [hmark])
  rw [Tape.ofTokens, hclosed]
  rfl

theorem ofTokens_append {us : List Token} (h : us ≠ []) (vs : List Token) :
    ∃ more, Tape.ofTokens (us ++ vs) = ⟨us ++ more, firstSpan us⟩ := by
  obtain ⟨more, hclosed⟩ := exists_closedTokens (us ++ vs)
  rw [List.append_assoc] at hclosed
  refine ⟨vs ++ more, ?_⟩
  rw [Tape.ofTokens, hclosed]
  exact congrArg _ (firstSpan_append h _)

/-! ## Refused targets -/

/-- The expression is a name, an element of a container or a field. -/
def Expr.IsPlace : Expr → Prop
  | .name .. | .index .. | .field .. => True
  | _ => False

theorem Expr.toTarget?_eq_none_iff {x : Expr} : x.toTarget? = none ↔ ¬x.IsPlace := by
  cases x <;> simp [Expr.toTarget?, Expr.IsPlace]

/-- If the token `t` comes behind the tokens `es`, the parser of expressions takes exactly those
tokens for an expression, which is `x`. -/
def Expr.ReadFrom (x : Expr) (es : List Token) (t : Token) : Prop :=
  ∃ last, ∀ more stop bound, Scan.Unmarked more → (es ++ t :: more).length ≤ bound →
    Parser.expression bound ⟨es ++ t :: more, stop, last⟩ =
      .ok (x, ⟨t :: more, stop, lastSpanOf last es⟩)

theorem Expr.readFrom_of_reads {x : Expr} {es : List Token} {t : Token} {last : Span}
    (hes : Scan.Unmarked es) (ht : t.kind.isEnd = false)
    (h : ∀ more, Scan.expression.Reads ⟨es ++ t :: more, last⟩ x ⟨t :: more, lastSpanOf last es⟩) :
    x.ReadFrom es t := by
  refine ⟨last, fun more stop bound hmore hbound => ?_⟩
  have hon : (⟨es ++ t :: more, stop, last⟩ : Input).On
      ⟨es ++ t :: (more ++ [⟨.endOfInput, stop⟩]), last⟩ :=
    ⟨hes.append (.cons ht hmore), [], by simp⟩
  have hends := Scan.agrees_expression (Nat.le_refl bound) _ _ hon hbound
  rw [Scan.AgreesAt] at hends
  split at hends
  · rename_i x' i' hread
    obtain ⟨after, used, hreads, ⟨-, more', hafter⟩, hused, hused'⟩ := hends
    cases hreads.symm.trans (h _)
    obtain ⟨rest, stop', last'⟩ := i'
    obtain ⟨hrest, rfl⟩ := Tape.mk.inj hafter
    obtain rfl : es = used := List.append_cancel_right hused'
    obtain rfl : t :: more = rest := List.append_cancel_left hused
    obtain ⟨-, hstop⟩ := List.cons.inj hrest
    obtain ⟨hmark, -⟩ := List.cons.inj (List.append_cancel_left hstop)
    rw [hread, (Token.mk.inj hmark).2]
  · cases (h _).symm.trans hends

theorem Expr.ReadFrom.laid {x : Expr} {es : List Token} {t : Token} (h : x.ReadFrom es t) :
    x.Laid es := by
  obtain ⟨last, h⟩ := h
  obtain ⟨us, hus, -, hlaid⟩ :=
    Parser.lays_expression _ _ x _ (h [] default _ nofun (Nat.le_refl _))
  rwa [List.append_cancel_right hus]

/-! ## Where errors lie -/

/-- The error lies at a token. Those in front of it can be completed to a program, and those up to
it cannot: however they go on, the error is the same. -/
def FirstImpossible (ts : List Token) (e : ParseError) : Prop :=
  ∃ before t after, ts = before ++ t :: after ∧ e.span = t.span ∧
    (∃ more, EndsOnce (before ++ more) ∧ (parse (before ++ more)).failure = none) ∧
    ∀ more, (parse (before ++ t :: more)).failure = some e

/-- The error lies at an expression that `=` comes behind and that is no place. Its span is over its
tokens without the parentheses around them. -/
def RefusedTarget (ts : List Token) (e : ParseError) : Prop :=
  ∃ before es eq after, ∃ x : Expr, ts = before ++ (es ++ eq :: after) ∧
    eq.kind = .symbol .equal ∧ x.ReadFrom es eq ∧ ¬x.IsPlace ∧ e.span = x.span ∧ x.Laid es

/-- Tokens that can be completed to a program are completed by a mark behind the completion. -/
theorem exists_complete {us vs : List Token} (hus : Scan.Unmarked us)
    (h : Scan.Completable Scan.Marks Scan.Marks Scan.program (firstSpan (us ++ vs)) us) :
    ∃ more, EndsOnce (us ++ more) ∧ (parse (us ++ more)).failure = none := by
  obtain ⟨c, ss, hc, hcomplete⟩ := h
  -- The span of the mark is the one that the tape begins with, if there is nothing in front of it.
  let mark : Token := ⟨.endOfInput, firstSpan (us ++ vs)⟩
  obtain ⟨hnext, hreads⟩ := hcomplete [mark] ⟨mark, rfl, rfl⟩
  have hends : EndsOnce (us ++ (c ++ [mark])) :=
    ⟨us ++ c, mark, (List.append_assoc ..).symm, rfl, hus.append hc⟩
  have hfirst : firstSpan (us ++ (c ++ [mark])) = firstSpan (us ++ vs) := by
    cases us with
    | cons u us => rfl
    | nil =>
      cases c with
      | nil => rfl
      | cons u c =>
        obtain ⟨w, hw, hmarks⟩ := hnext rfl
        obtain rfl : u = w := Option.some.inj hw
        cases (hc u List.mem_cons_self).symm.trans hmarks
  have htape : Tape.ofTokens (us ++ (c ++ [mark])) = ⟨us ++ (c ++ [mark]), firstSpan (us ++ vs)⟩ :=
    hends.ofTokens.trans (congrArg _ hfirst)
  rw [← htape] at hreads
  exact ⟨c ++ [mark], hends, failure_eq_none_of_reads hreads⟩

/-- **The error of a sequence of tokens** lies at the first one that no program has at that place,
unless it is about an assignment. Then it lies at an expression that is no place and that has been
read as a whole, with the parentheses around it, when `=` comes. -/
theorem failure_firstImpossible {ts : List Token} {e : ParseError} (hts : EndsOnce ts)
    (h : (parse ts).failure = some e) :
    e.fault ≠ .invalidTarget ∧ FirstImpossible ts e ∨
      e.fault = .invalidTarget ∧ RefusedTarget ts e := by
  have hrejects := failure_eq_some_iff.mp h
  rw [hts.ofTokens] at hrejects
  obtain ⟨seen, rest, rfl, hblocked⟩ := (Scan.viable_program (ts.length + 1)).blocked ts _ e
    (Nat.lt_succ_self _) hrejects
  have hagain : ∀ more, (parse (seen ++ more)).failure = some e := by
    intro more
    obtain ⟨more', htape⟩ := ofTokens_append hblocked.ne_nil more
    rw [failure_eq_some_iff, htape, ← firstSpan_append hblocked.ne_nil rest]
    exact hblocked.again more'
  rcases hblocked.place with ⟨us, v, rfl, hspan, hfault, hus, hcompletable⟩ | ⟨hfault, hmis⟩
  · rw [List.append_assoc] at hcompletable
    exact .inl ⟨hfault, us, v, rest, List.append_assoc .., hspan, exists_complete hus hcompletable,
      fun more => by simpa using hagain more⟩
  · obtain ⟨before, es, eq, x, last, rfl, -, hes, heq, htarget, hspan, hreads⟩ := hmis
    have hread : x.ReadFrom es eq := Expr.readFrom_of_reads hes (by rw [heq]; rfl) hreads
    exact .inr ⟨hfault, before, es, eq, rest, x, by simp, heq, hread,
      Expr.toTarget?_eq_none_iff.mp htarget, hspan, hread.laid⟩

/-- A loop in which an operand is missing, and one in which a sum is assigned to. -/
def faultyTexts : List Char × List Char :=
  ("while f(a)[0] do set list l = [b, -; endwhile".toList,
    "while a do ((b.c + (d))) = e; endwhile".toList)

theorem failure_firstImpossible_faultyTexts :
    (∃ ts e, tokenize faultyTexts.1 = .ok ts ∧ EndsOnce ts ∧ (parse ts).failure = some e ∧
      e.fault ≠ .invalidTarget ∧ FirstImpossible ts e) ∧
    ∃ ts e, tokenize faultyTexts.2 = .ok ts ∧ EndsOnce ts ∧ (parse ts).failure = some e ∧
      e.fault = .invalidTarget ∧ RefusedTarget ts e := by
  have hfails : ∀ text refused, (tokenize text).toOption.bind (fun ts =>
      (parse ts).failure.map fun e => decide (e.fault = .invalidTarget)) = some refused →
      ∃ ts e, tokenize text = .ok ts ∧ EndsOnce ts ∧ (parse ts).failure = some e ∧
        decide (e.fault = .invalidTarget) = refused := by
    intro text refused h
    obtain ⟨ts, hts, hfail⟩ := Option.bind_eq_some_iff.mp h
    obtain ⟨e, he, hfault⟩ := Option.map_eq_some_iff.mp hfail
    cases htokens : tokenize text with
    | error error =>
      rw [htokens] at hts
      cases hts
    | ok ts' =>
      rw [htokens] at hts
      cases hts
      exact ⟨ts, e, rfl, endsOnce_of_tokenize htokens, he, hfault⟩
  constructor
  · obtain ⟨ts, e, hts, hends, he, hfault⟩ := hfails faultyTexts.1 false (by decide +kernel)
    have hne : e.fault ≠ .invalidTarget := of_decide_eq_false hfault
    rcases failure_firstImpossible hends he with ⟨-, hfirst⟩ | ⟨heq, -⟩
    · exact ⟨ts, e, hts, hends, he, hne, hfirst⟩
    · exact absurd heq hne
  · obtain ⟨ts, e, hts, hends, he, hfault⟩ := hfails faultyTexts.2 true (by decide +kernel)
    have heq : e.fault = .invalidTarget := of_decide_eq_true hfault
    rcases failure_firstImpossible hends he with ⟨hne, -⟩ | ⟨-, hrefused⟩
    · exact absurd heq hne
    · exact ⟨ts, e, hts, hends, he, heq, hrefused⟩

end Chalk
