import Chalk.Proofs.Parallel.Reading
import Chalk.Proofs.Parallel.Run
import Chalk.Run

/-!
# Positions have no influence

Two sequences of tokens of the same kinds mean the same, wherever the tokens stand: they are read as
the same program up to spans or fail with the same fault, the same rules are broken, and both
programs show the same and end in the same way. All spans correspond here, so the two inputs are
parallel, and everything that follows from that is a consequence of how parallel inputs, programs
and states are treated.

## Main definitions

* `Failure.unplaced` — a failure without its place
* `observed` — what can be seen of an execution, apart from places

## Main results

* `Input.parallel_of_kinds` — inputs with the same kinds are parallel
* `positions_have_no_influence` — reading, checking and execution
-/

namespace Chalk

/-! ## Inputs -/

theorem forall₂_takeWhile {α : Type} {rel : α → α → Prop} {test : α → Bool} {as bs : List α}
    (htest : ∀ a b, rel a b → test a = test b) (h : List.Forall₂ rel as bs) :
    List.Forall₂ rel (as.takeWhile test) (bs.takeWhile test) := by
  induction h with
  | nil => exact .nil
  | @cons a b _ _ first _ ih =>
    rw [List.takeWhile_cons, List.takeWhile_cons, htest a b first]
    split
    · exact .cons first ih
    · exact .nil

theorem Input.parallel_of_kinds {ts us : List Token} (h : ts.map Token.kind = us.map Token.kind) :
    (Input.ofTokens ts).Parallel .all (Input.ofTokens us) := by
  have htokens : List.Forall₂ (Token.Parallel .all) ts us := by
    rw [← List.forall₂_eq_eq_eq, List.forall₂_map_left_iff, List.forall₂_map_right_iff] at h
    exact h.imp fun _ _ hkind => ⟨hkind, trivial⟩
  refine ⟨forall₂_takeWhile (fun t u htu => ?_) htokens, trivial, trivial⟩
  rw [htu.1]

/-! ## Executions -/

/-- A failure without its place. -/
def Failure.unplaced : Failure RuntimeError → Failure Fault
  | .fault e => .fault e.fault
  | .listInUse => .listInUse
  | .outOfFuel => .outOfFuel

theorem Failure.Parallel.unplaced_eq {R : Correspondence} {f g : Failure RuntimeError}
    (h : f.Parallel R g) : f.unplaced = g.unplaced := by
  cases h <;> rfl

/-- What can be seen of an execution, apart from places: everything printed and asked, and the
failure that ended it, if any. -/
def observed : EStateM.Result (Failure RuntimeError) Machine Unit →
    Array Event × Option (Failure Fault)
  | .ok _ m => (m.transcript, none)
  | .error f m => (m.transcript, some f.unplaced)

theorem Exec.EndParallel.observed_eq {R : Correspondence}
    {x y : EStateM.Result (Failure RuntimeError) Machine Unit} (h : Exec.EndParallel R x y) :
    observed x = observed y := by
  cases h with
  | ok state => rw [observed, observed, state.transcript]
  | error failure state => rw [observed, observed, state.transcript, failure.unplaced_eq]

/-! ## Programs -/

theorem Parsed.Parallel.fault_eq {R : Correspondence} {p q : Parsed} (h : p.Parallel R q) :
    p.failure.map ParseError.fault = q.failure.map ParseError.fault := by
  obtain ⟨ss, failure⟩ := p
  obtain ⟨ts, failure'⟩ := q
  cases h.failure with
  | none => rfl
  | some herror => exact congrArg some herror.1

theorem Violation.ParallelList.rules_eq {R : Correspondence} {vs ws : List Violation}
    (h : Violation.ParallelList R vs ws) : vs.map Violation.rule = ws.map Violation.rule := by
  rw [← List.forall₂_eq_eq_eq, List.forall₂_map_left_iff, List.forall₂_map_right_iff]
  exact h.imp fun _ _ hvw => hvw.1

/-- **Positions have no influence.** Tokens of the same kinds are read as the same program up to
spans, with the same fault or none, which also decides the wording of the error. The same rules are
broken, in the same order. Executed with the same options, both programs print and ask the same, in
the same order, and end in the same way. -/
theorem positions_have_no_influence {ts us : List Token}
    (h : ts.map Token.kind = us.map Token.kind) :
    Stmt.bareBlock (parse ts).statements = Stmt.bareBlock (parse us).statements ∧
    (parse ts).failure.map ParseError.fault = (parse us).failure.map ParseError.fault ∧
    (violations (parse ts).statements).map Violation.rule =
      (violations (parse us).statements).map Violation.rule ∧
    ∀ (fuel : Nat) (options : Options),
      let start := Machine.initial options.maxCallDepth options.answers options.cancellation
      observed (execute fuel (parse ts).statements start) =
        observed (execute fuel (parse us).statements start) := by
  have hparsed := parallel_parse (Input.parallel_of_kinds h)
  refine ⟨Stmt.bareBlock_eq_of_parallel _ hparsed.statements, hparsed.fault_eq,
    (violations_parallel hparsed.statements).rules_eq, fun fuel options => ?_⟩
  exact (execute_parallel fuel hparsed.statements _ _ (Machine.parallel_initial _ _ _)).observed_eq

/-- The tokens of a statement that asks a text for a member that it does not have, at given
places. -/
def missingMemberTokens (place : Nat → Span) : List Token :=
  [⟨.keyword .printKw, place 0⟩, ⟨.string "", place 1⟩, ⟨.symbol .dot, place 2⟩,
    ⟨.identifier "x", place 3⟩, ⟨.symbol .semicolon, place 4⟩]

/-- The tokens fail side by side as they do all in one place. -/
theorem positions_have_no_influence_missingMember :
    observed (execute 10 (parse (missingMemberTokens fun n => ⟨n, n + 1, 1, n + 1⟩)).statements
      (Machine.initial 200 [])) = (#[], some (.fault (.unknownMember "string" "x"))) := by
  have hstacked : observed (execute 10 (parse (missingMemberTokens fun _ => {})).statements
      (Machine.initial 200 [])) = (#[], some (.fault (.unknownMember "string" "x"))) := by
    decide +kernel
  rw [← hstacked]
  exact (positions_have_no_influence rfl).2.2.2 10 {}

end Chalk
