import Chalk.Proofs.Checking
import Chalk.Run

/-!
# How a run ends

A run of a source text ends with a report, whether the source is refused, completes, fails or is
cancelled. One thing can end it without a report: a list cannot be read while an element of it is
written, and the message about an index that is no number needs the text of the index.

Only what has passed the check is executed, so what is known about checked programs applies to every
run: if a list is in use, an assignment of the program has come to write into it, and the index of
that assignment is no number and contains the list.

## Main results

* `violations_eq_nil_of_isSuccess` — only checked programs are executed
* `Clashes.assign_eq_listInUse` — an assignment that clashes ends the run
* `run_ends` — the ways in which a run ends
-/

namespace Chalk

/-- A source that compiles has passed the check. -/
theorem violations_eq_nil_of_isSuccess {source : List Char}
    (h : (compile source).isSuccess = true) : violations (compile source).statements = [] := by
  rw [Compiled.isSuccess] at h
  rw [compile] at h ⊢
  split at h
  · cases h
  · simp only at h ⊢
    split at h
    · cases h
    · simpa using h

/-- The run of a source that compiles ends the way its execution does. -/
theorem run_of_isSuccess {source : List Char} (h : (compile source).isSuccess = true) (fuel : Nat)
    (options : Options) :
    run fuel source options = Ending.ofResult (execute fuel (compile source).statements
      (Machine.initial options.maxCallDepth options.answers options.cancellation)) :=
  if_pos h

/-- An assignment whose index contains the list that it writes to finds the list in use. -/
theorem Clashes.assign_eq_listInUse {container position value : Expr} {calls budget : Nat}
    {m₀ m : Machine} (h : Clashes container position value calls budget m₀ m) :
    (Target.index container position).assign (invoke calls) budget value m₀ =
      .error .listInUse m := by
  obtain ⟨m₁, m₂, id, index, v, hcontainer, hposition, hvalue, hnumber, hcontains⟩ := h
  have hwrite : m.store.writeItem budget (.list id) index v = .error .listInUse m.store := by
    have hopens := (m.store.opens_iff_contains id index).mpr hcontains
    cases index with
    | number x => exact absurd rfl (hnumber x)
    | _ => simp [Store.writeItem, Store.writeElement, hopens]
  rw [Target.assign, Exec.bind_eq_of_ok hcontainer, Exec.bind_eq_of_ok hposition,
    Exec.bind_eq_of_ok hvalue]
  simp only [Exec.update, hwrite]
  rfl

/-- **A run ends with a report unless an assignment writes into a list through an index that
contains it.** -/
theorem run_ends (fuel : Nat) (source : List Char) (options : Options) :
    (∃ report, run fuel source options = .report report) ∨
      (∃ transcript, run fuel source options = .outOfFuel transcript) ∨
      ∃ m p container position value span rest calls budget m₀ m₁,
        run fuel source options = .listInUse m.transcript ∧
        (Machine.initial options.maxCallDepth options.answers options.cancellation).Evolves m ∧
        StandsAt (compile source).statements p
          (.assign (.index container position) value span :: rest) ∧
        Clashes container position value calls budget m₀ m₁ ∧ m₁.store = m.store ∧
        (Target.index container position).assign (invoke calls) budget value m₀ =
          .error .listInUse m₁ := by
  by_cases hsuccess : (compile source).isSuccess = true
  · have hchecked := execute_excused (violations_eq_nil_of_isSuccess hsuccess) fuel
      options.maxCallDepth options.answers options.cancellation
    have hevolves := execute_evolves fuel (compile source).statements
      (Machine.closed_initial options.maxCallDepth options.answers options.cancellation)
    rw [run_of_isSuccess hsuccess]
    cases hrun : execute fuel (compile source).statements
        (Machine.initial options.maxCallDepth options.answers options.cancellation) with
    | ok _ m => exact .inl ⟨_, rfl⟩
    | error failure m =>
      cases failure with
      | fault e => exact .inl ⟨_, rfl⟩
      | outOfFuel => exact .inr (.inl ⟨_, rfl⟩)
      | listInUse =>
        obtain ⟨p, container, position, value, span, rest, hstands, calls, budget, m₀, m₁, hclash,
          hstore⟩ := hchecked.error hrun
        exact .inr (.inr ⟨m, p, container, position, value, span, rest, calls, budget, m₀, m₁, rfl,
          hevolves.error hrun, hstands, hclash, hstore, hclash.assign_eq_listInUse⟩)
  · exact .inl ⟨_, if_neg hsuccess⟩

/-- A list that is written at itself. -/
def ownIndex : List Char := "set list xs = [];\nxs[xs] = 1;".toList

/-- A run can end without a report. -/
theorem run_ownIndex : run 10 ownIndex = .listInUse #[] := by decide +kernel

end Chalk
