import Chalk.Proofs.Comparison
import Chalk.Proofs.Fragment.Run
import Chalk.Proofs.Limits

/-!
# Programs without loops

A program without loops comes to an end, however its functions, methods and classes call each other.
Nothing of the program gets smaller in a call, since a function can be called from anywhere with
anything; what gets smaller is the number of calls that there is still room for. Between two calls a
run follows the tree of a script, so the induction is on the room for calls first and on the script
second. A call itself makes no calls before it enters a body, and then there is less room.

Comparisons of values need not end, and whether one does has nothing to do with loops. They are
assumed to.

## Main definitions

* `Script.EndsWith`, `Script.Halts` — what a script does with enough budget
* `Script.ComparisonsEnd` — all comparisons that a run comes to end

## Main results

* `Script.halts_of_within` — scripts without loops
* `loopless_ends` — programs without loops
-/

namespace Chalk

/-! ## Budgets of steps -/

/-- Whether a step compares two values. -/
def Step.isCompare {α : Type} : Step α → Bool
  | .compare .. => true
  | _ => false

/-- Only comparisons use the budget. -/
theorem Step.perform_eq {α : Type} (s : Step α) (hs : s.isCompare = false) (fuel : Nat) :
    s.perform fuel = s.perform 0 := by
  cases s with
  | compare => cases hs
  | _ => rfl

theorem Failure.Ordinary.at_ne_outOfFuel {e : Failure Fault} (h : e.Ordinary) (span : Span) :
    e.at span ≠ .outOfFuel := by
  cases e with
  | fault f => exact nofun
  | _ => exact h.elim

theorem Step.Fails.ne_outOfFuel {α : Type} {s : Step α} {budget : Nat} {m : Machine}
    {failure : Failure RuntimeError} (h : s.Fails budget m failure) (hs : s.isCompare = false) :
    failure ≠ .outOfFuel := by
  cases h with
  | ordinary h span => exact h.at_ne_outOfFuel span
  | write => exact nofun
  | compare => cases hs

namespace Script

open Machine

variable {α β : Type} {F : Fragment} {m m' : Machine}

/-! ## Enough budget -/

/-- With enough budget, the script ends in the given way. -/
def EndsWith (x : Script α) (m : Machine)
    (r : EStateM.Result (Failure RuntimeError) Machine α) : Prop :=
  ∃ enough, ∀ fuel, enough ≤ fuel → x.run fuel m = r

/-- With enough budget, the script always ends in the same way, which is not for want of budget. -/
def Halts (x : Script α) (m : Machine) : Prop :=
  ∃ r, x.EndsWith m r ∧ ∀ m', r ≠ .error .outOfFuel m'

/-- The comparisons that the run of a script comes to, with enough budget for the rest of it, all
end. -/
def ComparisonsEnd (x : Script α) (m : Machine) : Prop :=
  ∃ enough, ∀ fuel, enough ≤ fuel → ∀ left right m' rest,
    Reaches fuel x m ((.step (.compare left right), m') :: rest) →
      m'.store.Ends ⟨[], left, right⟩

/-- What a part of a run comes to, the run comes to. -/
theorem ComparisonsEnd.part {x : Script α} {y : Script β} (h : ComparisonsEnd x m)
    (more : Nat) (suffix : Moment)
    (hpart : ∃ enough, ∀ fuel, enough ≤ fuel → ∀ μ, Reaches fuel y m' μ →
      Reaches (fuel + more) x m (μ ++ suffix)) : ComparisonsEnd y m' := by
  obtain ⟨enough, hends⟩ := h
  obtain ⟨enough', hpart⟩ := hpart
  refine ⟨max enough enough', fun fuel hfuel left right m₁ rest hreaches => ?_⟩
  have hwhole := hpart fuel (by omega) _ hreaches
  exact hends (fuel + more) (by omega) left right m₁ (rest ++ suffix) hwhole

theorem ComparisonsEnd.part_nil {x : Script α} {y : Script β} (h : ComparisonsEnd x m)
    (hpart : ∃ enough, ∀ fuel, enough ≤ fuel → ∀ μ, Reaches fuel y m' μ → Reaches fuel x m μ) :
    ComparisonsEnd y m' := by
  obtain ⟨enough, hpart⟩ := hpart
  refine h.part 0 [] ⟨enough, fun fuel hfuel μ hμ => ?_⟩
  rw [List.append_nil]
  exact hpart fuel hfuel μ hμ

/-- A run that does not end for want of budget has come to comparisons only that end: the others
use up any budget. -/
theorem comparisonsEnd_of_result {x : Script α}
    (h : ∃ enough, ∀ fuel, enough ≤ fuel → (x.run fuel).result m ≠ .error .outOfFuel) :
    ComparisonsEnd x m := by
  obtain ⟨enough, h⟩ := h
  refine ⟨enough, fun fuel hfuel left right m₁ rest hreaches => ?_⟩
  refine Classical.byContradiction fun hends => h fuel hfuel ?_
  have hfail : ∀ budget, Exec.compare budget left right m₁ = .error .outOfFuel m₁ := by
    intro budget
    cases hequal : m₁.store.equal? budget left right with
    | none => exact Exec.compare_of_none hequal
    | some answer => exact absurd ⟨answer, budget, hequal⟩ hends
  obtain ⟨m₂, hrun⟩ := hreaches.fails rfl fun budget => ⟨m₁, hfail budget⟩
  rw [Exec.result, hrun]

/-! ## Scripts without loops -/

/-- A script that fails at once, whatever the budget. -/
theorem halts_of_error {x : Script α} {failure : Failure RuntimeError}
    (h : ∀ fuel, x.run fuel m = .error failure m') (hfailure : failure ≠ .outOfFuel) :
    x.Halts m := by
  refine ⟨.error failure m', ⟨0, fun fuel _ => h fuel⟩, fun m₁ heq => ?_⟩
  cases heq
  exact hfailure rfl

theorem Halts.bind {x : Script β} {f : β → Script α} (hx : x.Halts m)
    (hf : ∀ b m', x.EndsWith m (.ok b m') → (f b).Halts m') : (Script.bind x f).Halts m := by
  obtain ⟨r, ⟨enough, hrun⟩, hr⟩ := hx
  cases r with
  | ok b m₁ =>
    obtain ⟨r', ⟨enough', hrun'⟩, hr'⟩ := hf b m₁ ⟨enough, hrun⟩
    refine ⟨r', ⟨max enough enough', fun fuel hfuel => ?_⟩, hr'⟩
    exact (run_bind_ok (hrun fuel (by omega))).trans (hrun' fuel (by omega))
  | error failure m₁ =>
    refine ⟨.error failure m₁, ⟨enough, fun fuel hfuel => run_bind_error (hrun fuel hfuel)⟩, ?_⟩
    intro m₂ heq
    cases heq
    exact hr m₁ rfl

/-- A script that runs inside a block or call. -/
theorem Halts.leave {x y : Script α} {restore : Machine → Machine} (hx : x.Halts m')
    (h : ∀ fuel, y.run fuel m = leaving restore (x.run fuel m')) : y.Halts m := by
  obtain ⟨r, ⟨enough, hrun⟩, hr⟩ := hx
  refine ⟨leaving restore r, ⟨enough, fun fuel hfuel => by rw [h, hrun fuel hfuel]⟩, ?_⟩
  intro m₁ heq
  obtain ⟨m₂, hr₂, -⟩ := leaving_eq_error heq
  exact hr m₂ hr₂

theorem halts_step {s : Step α} (h : ComparisonsEnd (.step s) m) : (Script.step s).Halts m := by
  cases hs : s.isCompare with
  | false =>
    refine ⟨s.perform 0 m, ⟨0, fun fuel _ => congrFun (s.perform_eq hs fuel) m⟩, ?_⟩
    exact fun m' hfail => (Step.fails hfail).1.ne_outOfFuel hs rfl
  | true =>
    cases s with
    | compare left right =>
      obtain ⟨enough, hends⟩ := h
      obtain ⟨answer, budget, hanswer⟩ :=
        (hends enough (Nat.le_refl _) left right m [] .step).eventually
      refine ⟨.ok answer m, ⟨budget, fun fuel hfuel => ?_⟩, nofun⟩
      exact Exec.compare_of_some (hanswer fuel hfuel)
    | _ => cases hs

/-- The room for calls that is left in a state. -/
def room (m : Machine) : Nat := m.maxDepth - m.depth

theorem room_eq_of_run {fuel : Nat} {x : Script α} {a : α} (h : x.run fuel m = .ok a m') :
    room m' = room m := by
  rw [room, room, (run_goesOn h).shows.maxDepth, (run_goesOn h).depth]

/-- Scripts without loops halt if bodies do that have less room for calls, and if calls do where a
script makes any. -/
theorem halts_of_bodies (hF : F.loops = false) (calls : Bool) {limit : Nat}
    (hbody : ∀ {α : Type} (y : Script α) (m : Machine), y.Within F true → m.Within F →
      room m < limit → ComparisonsEnd y m → y.Halts m)
    (hcall : calls = true → ∀ callable arguments span (m : Machine), m.Within F →
      room m ≤ limit → ComparisonsEnd (.call callable arguments span) m →
        (Script.call callable arguments span).Halts m)
    (x : Script α) (m : Machine) (hx : x.Within F calls) (hm : m.Within F) (hroom : room m ≤ limit)
    (h : ComparisonsEnd x m) : x.Halts m := by
  have noLoop : F.loops ≠ true := by rw [hF]; exact nofun
  induction x generalizing m with
  | pure a => exact ⟨.ok a m, ⟨0, fun _ _ => rfl⟩, nofun⟩
  | bind x f ihx ihf =>
    have hfirst : ComparisonsEnd x m := h.part_nil ⟨0, fun _ _ _ => .first⟩
    refine (ihx m hx.1 hm hroom hfirst).bind fun b m' hdone => ?_
    obtain ⟨enough, hrun⟩ := hdone
    have hrun₀ := hrun enough (Nat.le_refl _)
    have hstays := (run_stays enough x calls m hx.1 hm).ok hrun₀
    refine ihf b m' (hx.2 b) hstays.within (room_eq_of_run hrun₀ ▸ hroom) ?_
    exact h.part_nil ⟨enough, fun fuel hfuel _ => .next (hrun fuel hfuel)⟩
  | look next ih =>
    exact ih m.scope m.store m (hx m.scope m.store hm.store) hm hroom
      (h.part_nil ⟨0, fun _ _ _ => .look⟩)
  | step s => exact halts_step h
  | statement s x ih =>
    cases hset : m.cancellation.isSet with
    | true =>
      have hpoll : Exec.checkCancelled s.span m = _ := Exec.checkCancelled_of_isSet hset
      exact halts_of_error (fun _ => Exec.bind_eq_of_error hpoll) nofun
    | false =>
      have hpoll : Exec.checkCancelled s.span m = .ok () m :=
        Exec.checkCancelled_of_not_isSet hset
      obtain ⟨r, ⟨enough, hrun⟩, hr⟩ := ih m hx hm hroom
        (h.part 0 _ ⟨0, fun _ _ _ hμ => .statement hpoll hμ⟩)
      exact ⟨r, ⟨enough, fun fuel hfuel => (run_statement_ok hpoll).trans (hrun fuel hfuel)⟩, hr⟩
  | loop x => exact absurd hx.1 noLoop
  | turn => exact absurd hx.1 noLoop
  | inBlock x ih =>
    have hinside : ComparisonsEnd x m.enterBlock := h.part_nil ⟨0, fun _ _ _ => .inBlock⟩
    exact (ih m.enterBlock hx (within_enterBlock hm) hroom hinside).leave
      fun fuel => run_inBlock_apply x m
  | call callable arguments span => exact hcall hx callable arguments span m hm hroom h
  | inCall activation decl arguments span body =>
    by_cases hdepth : m.depth < m.maxDepth
    · cases hframe : m.store.frame decl activation.this? arguments with
      | error e =>
        refine halts_of_error (fun fuel => by rw [run_inCall_room hdepth, hframe]) ?_
        exact (Store.ordinary_frame hframe).at_ne_outOfFuel span
      | ok bindings =>
        have hentered : (m.enterCall bindings (m.store.closure activation)).Within F :=
          within_enterCall hm (hm.store.closure_lt activation)
        have hless : room (m.enterCall bindings (m.store.closure activation)) < limit := by
          rw [room] at hroom
          show m.maxDepth - (m.depth + 1) < limit
          omega
        have hinside := h.part 0 _ ⟨0, fun _ _ _ hμ => .body hdepth hframe hμ⟩
        exact (hbody body _ hx.2 hentered hless hinside).leave fun fuel => by
          rw [run_inCall_room hdepth, hframe]
    · exact halts_of_error (fun fuel => run_inCall_full (Nat.not_lt.mp hdepth)) nofun

/-- **Scripts without loops halt** if the comparisons that they come to end. -/
theorem halts_of_within (hF : F.loops = false) (x : Script α) (m : Machine)
    (hx : x.Within F true) (hm : m.Within F) (h : ComparisonsEnd x m) : x.Halts m := by
  induction hroom : room m using Nat.strongRecOn generalizing α m with
  | ind limit ih =>
    have hbody : ∀ {α : Type} (y : Script α) (m : Machine), y.Within F true → m.Within F →
        room m < limit → ComparisonsEnd y m → y.Halts m :=
      fun y m hy hm hless hends => ih (room m) hless y m hy hm hends rfl
    -- A call makes no calls itself, so it halts if its body does.
    have hcall : ∀ callable arguments span (m : Machine), m.Within F → room m ≤ limit →
        ComparisonsEnd (.call callable arguments span) m →
          (Script.call callable arguments span).Halts m := by
      intro callable arguments span m hm hroom hends
      have hinside : ComparisonsEnd (ofCall callable arguments span) m :=
        hends.part 1 [] ⟨0, fun _ _ μ hμ => by rw [List.append_nil]; exact .call hμ⟩
      obtain ⟨r, ⟨enough, hrun⟩, hr⟩ := halts_of_bodies hF false hbody nofun _ m
        (within_ofCall callable arguments span) hm hroom hinside
      refine ⟨r, ⟨enough + 1, fun fuel hfuel => ?_⟩, hr⟩
      obtain ⟨fuel, rfl⟩ : ∃ n, fuel = n + 1 := ⟨fuel - 1, by omega⟩
      rw [run_call]
      exact hrun fuel (by omega)
    exact halts_of_bodies hF true hbody (fun _ => hcall) x m hx hm (Nat.le_of_eq hroom) h

end Script

/-! ## Programs without loops -/

/-- **Programs without loops come to an end.** If all comparisons that its runs come to end, then
with enough budget a program without loops completes, or fails with a fault, or comes to write an
element of a list through an index that is no number and contains the list. -/
theorem loopless_ends {program : List Stmt}
    (h : Stmt.withinSeq { loops := false } program = true) (maxDepth : Nat)
    (answers : List String) (cancellation : Cancellation)
    (hends : Script.ComparisonsEnd (.ofProgram program)
      (Machine.initial maxDepth answers cancellation)) :
    ∃ enough m', (∀ fuel, enough ≤ fuel →
        execute fuel program (Machine.initial maxDepth answers cancellation) = .ok () m') ∨
      (∃ e, ∀ fuel, enough ≤ fuel →
        execute fuel program (Machine.initial maxDepth answers cancellation) =
          .error (.fault e) m') ∨
      ∀ fuel, enough ≤ fuel →
        execute fuel program (Machine.initial maxDepth answers cancellation) =
          .error .listInUse m' ∧
        ∃ id index value span m rest, Script.Reaches fuel (.ofProgram program)
            (Machine.initial maxDepth answers cancellation)
            ((.step (.write id index value span), m) :: rest) ∧
          (∀ x, index ≠ .number x) ∧ m.store.Contains index (.list id) := by
  obtain ⟨r, ⟨enough, hrun⟩, hr⟩ := Script.halts_of_within rfl _ _
    (Script.within_ofProgram program h) (Machine.within_initial _ maxDepth answers cancellation)
    hends
  have hexecute : ∀ fuel, enough ≤ fuel →
      execute fuel program (Machine.initial maxDepth answers cancellation) = r := fun fuel hfuel =>
    (congrFun (Script.run_ofProgram fuel program) _).symm.trans (hrun fuel hfuel)
  cases r with
  | ok _ m' => exact ⟨enough, m', .inl hexecute⟩
  | error failure m' =>
    cases failure with
    | fault e => exact ⟨enough, m', .inr (.inl ⟨e, hexecute⟩)⟩
    | outOfFuel => exact absurd rfl (hr m')
    | listInUse =>
      exact ⟨enough, m', .inr (.inr fun fuel hfuel =>
        ⟨hexecute fuel hfuel, Script.exists_write (hrun fuel hfuel)⟩)⟩

/-- A function that compares two values and calls itself, and a call of it. -/
def comparingCalls : List Stmt :=
  [.function ⟨"f", [], .void, [.eval (.binary .equal (.boolean true {}) (.boolean true {}) {}) {},
      .eval (.call (.name "f" {}) [] {}) {}], {}⟩ {},
    .eval (.call (.name "f" {}) [] {}) {}]

theorem loopless_ends_comparingCalls :
    Stmt.withinSeq { loops := false } comparingCalls = true ∧
      Script.ComparisonsEnd (.ofProgram comparingCalls) (Machine.initial 1 []) ∧
      ∃ enough m' e, ∀ fuel, enough ≤ fuel →
        execute fuel comparingCalls (Machine.initial 1 []) = .error (.fault e) m' := by
  have hresult : ∀ fuel, (execute (fuel + 3) comparingCalls).result (Machine.initial 1 []) =
      .error (.fault ⟨.callDepthExceeded 1, {}⟩) := by
    intro fuel
    with_unfolding_all rfl
  have hends : Script.ComparisonsEnd (.ofProgram comparingCalls) (Machine.initial 1 []) := by
    refine Script.comparisonsEnd_of_result ⟨3, fun fuel hfuel => ?_⟩
    obtain ⟨fuel, rfl⟩ : ∃ n, fuel = n + 3 := ⟨fuel - 3, by omega⟩
    rw [Script.run_ofProgram, hresult]
    exact nofun
  refine ⟨by decide, hends, ?_⟩
  obtain ⟨enough, m', hok | ⟨e, hfault⟩ | hwrite⟩ :=
    loopless_ends (by decide : Stmt.withinSeq { loops := false } comparingCalls = true) 1 [] .never
      hends
  · have hcontra := hresult enough
    rw [Exec.result, hok (enough + 3) (by omega)] at hcontra
    cases hcontra
  · exact ⟨enough, m', e, hfault⟩
  · have hcontra := hresult enough
    rw [Exec.result, (hwrite (enough + 3) (by omega)).1] at hcontra
    cases hcontra

/-- A list that is written at itself. -/
def ownElement : List Stmt :=
  [.declare false .list "xs" (some (.list [] {})) {},
    .assign (.index (.name "xs" {}) (.name "xs" {})) (.boolean true {}) {}]

/-- A program without loops and comparisons can end without a result and without a fault. -/
theorem loopless_ownElement :
    Stmt.withinSeq { loops := false } ownElement = true ∧
      Script.ComparisonsEnd (.ofProgram ownElement) (Machine.initial 200 []) ∧
      ∀ fuel, (execute fuel ownElement).result (Machine.initial 200 []) = .error .listInUse := by
  have hresult : ∀ fuel, (execute fuel ownElement).result (Machine.initial 200 []) =
      .error .listInUse := by
    intro fuel
    with_unfolding_all rfl
  refine ⟨by decide, Script.comparisonsEnd_of_result ⟨0, fun fuel _ => ?_⟩, hresult⟩
  rw [Script.run_ofProgram, hresult]
  exact nofun

end Chalk
