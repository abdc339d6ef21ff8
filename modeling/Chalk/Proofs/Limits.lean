import Chalk.Proofs.Control
import Chalk.Proofs.Script.Cause

/-!
# The limits of a run

Two limits can end a run from outside: it may be asked to stop after a number of printed texts, and
the calls that are open at once may not be more than a given number. Neither changes what a run does
before it takes effect. `Machine.relax` is a state with more room, and `Exec.CutShort` compares the
run from a state with the run from there: they end the same way, or the first one ends because of a
limit and has shown a part of what the second one shows, from the start.

What a limit rules out is said of moments. While a run has been asked to stop no statement of the
program, no turn of a loop and no condition of a loop begins; a request is not noticed in between,
so the body of a loop begins if the request comes while its condition is evaluated. And there are
never more bodies open than the limit for calls.

## Main definitions

* `Machine.prints` — how many texts have been printed
* `Machine.relax`, `Exec.CutShort` — a state with more room, and what its run has to do with the run
  from the state itself
* `Moment.bodies` — how many bodies are open

## Main results

* `Exec.Composed.cutShort` — limits only cut runs short
* `Machine.cancellation_cuts_short` — the request to stop
* `Machine.depth_limit_cuts_short` — the limit for calls
-/

namespace Chalk

/-! ## What a run shows -/

/-- Whether an event is a printed text. -/
def Event.isPrint : Event → Bool
  | print _ => true
  | read _ => false

namespace Cancellation

/-- The rule after some more printed texts. -/
def ticks (n : Nat) : Cancellation → Cancellation
  | never => never
  | after k => after (k - n)

@[simp] theorem ticks_never (n : Nat) : never.ticks n = never := rfl

@[simp] theorem ticks_zero (c : Cancellation) : c.ticks 0 = c := by
  cases c <;> rfl

theorem ticks_ticks (n k : Nat) (c : Cancellation) : (c.ticks n).ticks k = c.ticks (n + k) := by
  cases c with
  | never => rfl
  | after p => exact congrArg after (Nat.sub_sub p n k)

theorem tick_eq_ticks (c : Cancellation) : c.tick = c.ticks 1 := by
  match c with
  | never => rfl
  | after 0 => rfl
  | after (p + 1) => rfl

theorem isSet_ticks_after (n k : Nat) : ((after k).ticks n).isSet = decide (k ≤ n) := by
  rw [ticks]
  cases h : k - n with
  | zero => simpa [isSet] using Nat.sub_eq_zero_iff_le.mp h
  | succ p => simpa [isSet] using Nat.lt_of_sub_eq_succ h

end Cancellation

namespace Machine

/-- How many texts have been printed. -/
def prints (m : Machine) : Nat := m.transcript.toList.countP Event.isPrint

/-- What a later state has shown: everything that was shown before, and more. The request to stop
has come nearer by the texts that were printed, and the limit for calls is the same. -/
structure Shows (m m' : Machine) : Prop where
  maxDepth : m'.maxDepth = m.maxDepth
  events : ∃ more, m'.transcript.toList = m.transcript.toList ++ more ∧
    m'.cancellation = m.cancellation.ticks (more.countP Event.isPrint)

variable {m m' m'' : Machine}

theorem Shows.refl (m : Machine) : m.Shows m :=
  ⟨rfl, [], (List.append_nil _).symm, by simp⟩

theorem Shows.trans (h : m.Shows m') (h' : m'.Shows m'') : m.Shows m'' := by
  obtain ⟨more, htranscript, hcancellation⟩ := h.events
  obtain ⟨more', htranscript', hcancellation'⟩ := h'.events
  refine ⟨h'.maxDepth.trans h.maxDepth, more ++ more', ?_, ?_⟩
  · rw [htranscript', htranscript, List.append_assoc]
  · rw [hcancellation', hcancellation, Cancellation.ticks_ticks, List.countP_append]

/-- Only what is printed and read counts. -/
theorem Shows.of_eq (hmaxDepth : m'.maxDepth = m.maxDepth)
    (htranscript : m'.transcript = m.transcript)
    (hcancellation : m'.cancellation = m.cancellation) : m.Shows m' :=
  ⟨hmaxDepth, [], by rw [htranscript, List.append_nil], by simp [hcancellation]⟩

theorem Shows.isPrefix (h : m.Shows m') : m.transcript.toList <+: m'.transcript.toList := by
  obtain ⟨more, htranscript, -⟩ := h.events
  exact ⟨more, htranscript.symm⟩

theorem Shows.never (h : m.Shows m') (hm : m.cancellation = .never) : m'.cancellation = .never := by
  obtain ⟨more, -, hcancellation⟩ := h.events
  rw [hcancellation, hm, Cancellation.ticks_never]

/-- From the start of a run on, the texts printed so far decide whether it has to stop. -/
theorem Shows.isSet_iff {maxDepth n : Nat} {answers : List String}
    (h : (Machine.initial maxDepth answers (.after n)).Shows m') :
    m'.cancellation.isSet = true ↔ n ≤ m'.prints := by
  obtain ⟨more, htranscript, hcancellation⟩ := h.events
  have hprints : m'.prints = more.countP Event.isPrint := by
    rw [prints, htranscript, List.countP_append]
    exact Nat.zero_add _
  rw [hcancellation, hprints]
  show ((Cancellation.after n).ticks _).isSet = true ↔ _
  rw [Cancellation.isSet_ticks_after, decide_eq_true_iff]

end Machine

namespace Exec

open Machine

variable {α β : Type} {names : String → Prop} {m : Machine}

theorem Composed.shows_meets {x : Exec α} (h : Composed names x) (m : Machine) :
    Meets m x (fun _ m' => m.Shows m') fun _ m' => m.Shows m' := by
  induction h generalizing m with
  | pure a => exact meets_pure (.refl m)
  | throw failure => exact meets_throw (.refl m)
  | bind _ _ ihx ihf =>
    refine meets_bind (ihx m) fun b m' hx => ?_
    exact (ihf b m').mono (fun _ _ h => hx.trans h) fun _ _ h => hx.trans h
  | look _ ih => exact meets_get_bind (ih m.scope m.store m)
  | alter => exact .of_eq rfl rfl rfl
  | update => exact meets_update (fun _ _ _ => .of_eq rfl rfl rfl) fun _ _ _ => .of_eq rfl rfl rfl
  | define =>
    exact meets_get_bind (meets_update (fun _ _ _ => .of_eq rfl rfl rfl)
      fun _ _ _ => .of_eq rfl rfl rfl)
  | assign => exact meets_update (fun _ _ _ => .of_eq rfl rfl rfl) fun _ _ _ => .of_eq rfl rfl rfl
  | print text =>
    refine meets_print ⟨rfl, [.print text], ?_, ?_⟩
    · exact Array.toList_push
    · exact m.cancellation.tick_eq_ticks
  | read prompt =>
    refine meets_read ⟨rfl, [.read prompt], ?_, ?_⟩
    · exact Array.toList_push
    · exact m.cancellation.ticks_zero.symm
  | checkCancelled => exact meets_checkCancelled (.refl m) (.refl m)
  | inBlock _ ih =>
    have hleave : ∀ m', m.enterBlock.Shows m' → m.Shows { m' with scope := m.scope } :=
      fun m' h => ⟨h.maxDepth, h.events⟩
    exact meets_inBlock ((ih m.enterBlock).mono (fun _ => hleave) fun _ => hleave)
  | @inCall _ _ _ _ _ _ closure _ ih =>
    refine meets_get_bind ?_
    split
    · exact meets_fault (.refl m)
    · refine meets_query_bind (fun bindings _ => ?_) fun _ _ => .refl m
      refine meets_alter_bind (meets_deeper (meets_within ?_))
      have hleave : ∀ m', (m.enterCall bindings closure).Shows m' →
          m.Shows { m' with scope := m.scope, depth := m'.depth - 1 } :=
        fun m' h => ⟨h.maxDepth, h.events⟩
      exact (ih (m.enterCall bindings closure)).mono (fun _ => hleave) fun _ => hleave

/-- **A run only adds to what has been shown.** -/
theorem Composed.shows {x : Exec α} (h : Composed names x) (m : Machine) : m.Shows (x.after m) :=
  (h.shows_meets m).after (fun _ _ hshows => hshows) fun _ _ hshows => hshows

end Exec

/-! ## More room -/

/-- The same state with another limit for calls, and if it is set free then without a request to
stop. -/
def Machine.relax (limit : Nat) (free : Bool) (m : Machine) : Machine :=
  { m with maxDepth := limit, cancellation := if free then .never else m.cancellation }

namespace Exec

open Machine

variable {α β : Type} {names : String → Prop} {limit : Nat} {free : Bool} {m m' : Machine}

/-- The failures that are due to the limits of a state which has less room. -/
inductive Limited (limit : Nat) (free : Bool) (m : Machine) : Failure RuntimeError → Prop where
  | cancelled (h : free = true) (span : Span) : Limited limit free m (.fault ⟨.cancelled, span⟩)
  | depth (h : m.maxDepth < limit) (span : Span) :
      Limited limit free m (.fault ⟨.callDepthExceeded m.maxDepth, span⟩)

/-- An action, started in a state and in the same state with more room, ends the same way, or it is
cut short by a limit in the first case, and has shown a part of what it shows in the second. -/
inductive CutShort (limit : Nat) (free : Bool) (m : Machine) (x : Exec α) : Prop where
  | ok {a : α} {m' : Machine} (small : x m = .ok a m')
      (large : x (m.relax limit free) = .ok a (m'.relax limit free)) : CutShort limit free m x
  | error {failure : Failure RuntimeError} {m' : Machine} (small : x m = .error failure m')
      (large : x (m.relax limit free) = .error failure (m'.relax limit free)) :
      CutShort limit free m x
  | cut {failure : Failure RuntimeError} {m' : Machine} (small : x m = .error failure m')
      (limited : Limited limit free m failure)
      (shown : m'.transcript.toList <+: (x.after (m.relax limit free)).transcript.toList) :
      CutShort limit free m x

theorem CutShort.congr {x y : Exec α} (h : CutShort limit free m x) (hsmall : y m = x m)
    (hlarge : y (m.relax limit free) = x (m.relax limit free)) : CutShort limit free m y := by
  cases h with
  | ok small large => exact .ok (hsmall.trans small) (hlarge.trans large)
  | error small large => exact .error (hsmall.trans small) (hlarge.trans large)
  | cut small limited shown =>
    refine .cut (hsmall.trans small) limited ?_
    rwa [Exec.after, hlarge]

theorem CutShort.bind {x : Exec β} {f : β → Exec α} (hx : CutShort limit free m x)
    (hshows : m.Shows (x.after m)) (hcomposed : ∀ b, Composed names (f b))
    (hf : ∀ b m', m'.maxDepth = m.maxDepth → CutShort limit free m' (f b)) :
    CutShort limit free m (x >>= f) := by
  cases hx with
  | @ok b m₁ small large =>
    rw [after_eq_of_ok small] at hshows
    have hsmall : (x >>= f) m = f b m₁ := bind_eq_of_ok small
    have hlarge : (x >>= f) (m.relax limit free) = f b (m₁.relax limit free) := bind_eq_of_ok large
    cases hf b m₁ hshows.maxDepth with
    | ok small' large' => exact .ok (hsmall.trans small') (hlarge.trans large')
    | error small' large' => exact .error (hsmall.trans small') (hlarge.trans large')
    | cut small' limited shown =>
      refine .cut (hsmall.trans small') ?_ ?_
      · cases limited with
        | cancelled hfree span => exact .cancelled hfree span
        | depth hdepth span =>
          rw [hshows.maxDepth] at hdepth ⊢
          exact .depth hdepth span
      · rwa [Exec.after, hlarge]
  | error small large => exact .error (bind_eq_of_error small) (bind_eq_of_error large)
  | @cut failure m₁ small limited shown =>
    refine .cut (bind_eq_of_error small) limited (shown.trans ?_)
    -- Whatever follows in the run with more room only adds to what it has shown.
    cases hlarge : x (m.relax limit free) with
    | ok b m₂ =>
      rw [after_eq_of_ok hlarge, Exec.after, bind_eq_of_ok hlarge]
      exact ((hcomposed b).shows m₂).isPrefix
    | error failure' m₂ =>
      have hafter : (x >>= f).after (m.relax limit free) = x.after (m.relax limit free) :=
        (after_eq_of_error (bind_eq_of_error hlarge)).trans (after_eq_of_error hlarge).symm
      exact hafter ▸ List.prefix_rfl

/-- An action inside a block or call, which is left with the scope and the depth put right. -/
theorem CutShort.leave {x y : Exec α} {entered : Machine} {restore : Machine → Machine}
    (hx : CutShort limit free entered x) (hmaxDepth : entered.maxDepth = m.maxDepth)
    (hsmall : y m = Script.leaving restore (x entered))
    (hlarge : y (m.relax limit free) =
      Script.leaving restore (x (entered.relax limit free)))
    (hrelax : ∀ m', restore (m'.relax limit free) = (restore m').relax limit free)
    (htranscript : ∀ m', (restore m').transcript = m'.transcript) :
    CutShort limit free m y := by
  cases hx with
  | ok small large =>
    refine .ok (hsmall.trans (congrArg _ small)) (hlarge.trans ((congrArg _ large).trans ?_))
    rw [Script.leaving, hrelax]
  | error small large =>
    refine .error (hsmall.trans (congrArg _ small)) (hlarge.trans ((congrArg _ large).trans ?_))
    rw [Script.leaving, hrelax]
  | @cut failure m' small limited shown =>
    refine .cut (hsmall.trans (congrArg _ small)) ?_ ?_
    · cases limited with
      | cancelled hfree span => exact .cancelled hfree span
      | depth hdepth span =>
        rw [hmaxDepth] at hdepth ⊢
        exact .depth hdepth span
    · have hafter : (y.after (m.relax limit free)).transcript =
          (x.after (entered.relax limit free)).transcript := by
        rw [Exec.after, Exec.after, hlarge]
        cases x (entered.relax limit free) <;> exact htranscript _
      rwa [htranscript, hafter]

theorem cutShort_update (span : Span) (f : Store → Outcome α) :
    CutShort limit free m (update span f) := by
  cases hf : f m.store with
  | ok a s =>
    have hsmall : update span f m = .ok a { m with store := s } := by simp only [update, hf]
    refine .ok hsmall ?_
    simp only [update, relax, hf]
  | error e s =>
    have hsmall : update span f m = .error (e.at span) { m with store := s } := by
      simp only [update, hf]
    refine .error hsmall ?_
    simp only [update, relax, hf]

theorem cutShort_checkCancelled (span : Span) : CutShort limit free m (checkCancelled span) := by
  cases hset : m.cancellation.isSet with
  | false =>
    have hlarge : (m.relax limit free).cancellation.isSet = false := by
      cases free with
      | true => rfl
      | false => exact hset
    exact .ok (checkCancelled_of_not_isSet hset) (checkCancelled_of_not_isSet hlarge)
  | true =>
    cases free with
    | true =>
      have hcomposed : Composed (fun _ => True) (checkCancelled span) := .checkCancelled span
      exact .cut (checkCancelled_of_isSet hset) (.cancelled rfl span)
        (hcomposed.shows (m.relax limit true)).isPrefix
    | false =>
      exact .error (checkCancelled_of_isSet hset)
        (checkCancelled_of_isSet (m := m.relax limit false) hset)

theorem cutShort_inCall {x : Exec α} {span : Span}
    {frame : Store → Except (Failure Fault) Bindings} {closure : ScopeId} {inner : String → Prop}
    (hcomposed : Composed inner x) (hm : m.maxDepth ≤ limit)
    (hx : ∀ m', m'.maxDepth = m.maxDepth → CutShort limit free m' x) :
    CutShort limit free m (inCall span frame closure x) := by
  by_cases room : m.depth < m.maxDepth
  · have hroom : m.depth < limit := Nat.lt_of_lt_of_le room hm
    have hsmall : inCall span frame closure x m = _ := Script.inCall_room room
    have hlarge : inCall span frame closure x (m.relax limit free) = _ := Script.inCall_room hroom
    rw [show (m.relax limit free).store = m.store from rfl] at hlarge
    cases hframe : frame m.store with
    | error e =>
      rw [hframe] at hsmall hlarge
      exact .error hsmall hlarge
    | ok bindings =>
      rw [hframe] at hsmall hlarge
      exact (hx (m.enterCall bindings closure) rfl).leave rfl hsmall hlarge (fun _ => rfl)
        fun _ => rfl
  · have hfull : m.maxDepth ≤ m.depth := Nat.not_lt.mp room
    rcases Nat.lt_or_eq_of_le hm with hlt | rfl
    · have hcall : Composed (fun _ => True) (inCall span frame closure x) := .inCall hcomposed
      exact .cut (Script.inCall_full hfull) (.depth hlt span)
        (hcall.shows (m.relax limit free)).isPrefix
    · exact .error (Script.inCall_full hfull)
        (Script.inCall_full (m := m.relax m.maxDepth free) hfull)

/-- **Limits only cut runs short.** -/
theorem Composed.cutShort {x : Exec α} (h : Composed names x) (m : Machine)
    (hm : m.maxDepth ≤ limit) : CutShort limit free m x := by
  induction h generalizing m with
  | pure a => exact .ok rfl rfl
  | throw failure => exact .error rfl rfl
  | bind hx hf ihx ihf =>
    exact (ihx m hm).bind (hx.shows m) hf fun b m' hmax => ihf b m' (hmax ▸ hm)
  | look _ ih => exact (ih m.scope m.store m hm).congr rfl rfl
  | alter => exact .ok rfl rfl
  | @update _ _ span f _ => exact cutShort_update span f
  | @define _ name binding span _ =>
    exact (cutShort_update span fun s => s.define m.scope name binding).congr rfl rfl
  | assign => exact cutShort_update _ _
  | print text =>
    refine .ok (a := ()) rfl ?_
    cases free <;> rfl
  | read prompt => exact .ok rfl rfl
  | checkCancelled span => exact cutShort_checkCancelled span
  | inBlock _ ih =>
    let restore : Machine → Machine := fun after => { after with scope := m.scope }
    have hrelax : ∀ m', restore (m'.relax limit free) = (restore m').relax limit free :=
      fun _ => rfl
    exact (ih m.enterBlock hm).leave rfl rfl rfl hrelax fun _ => rfl
  | inCall hx ih => exact cutShort_inCall hx hm fun m' hmax => ih m' (hmax ▸ hm)

end Exec

/-! ## Whole runs -/

namespace Exec

variable {α : Type} {limit : Nat} {free : Bool} {m : Machine}

/-- How an action ends, with a value or a failure. -/
def result (x : Exec α) (m : Machine) : Except (Failure RuntimeError) α :=
  match x m with
  | .ok a _ => .ok a
  | .error failure _ => .error failure

/-- The action shows the same from `m` as from `m'` and ends the same way, or from `m` it ends with
the fault and has shown a part of what it shows from `m'`, from the start. -/
def Truncates (x : Exec α) (f : Fault) (m m' : Machine) : Prop :=
  x.result m = x.result m' ∧ (x.after m).transcript = (x.after m').transcript ∨
    ∃ span, x.result m = .error (.fault ⟨f, span⟩) ∧
      (x.after m).transcript.toList <+: (x.after m').transcript.toList

theorem CutShort.truncates {x : Exec α} {f : Fault} (h : CutShort limit free m x)
    (hlimited : ∀ failure, Limited limit free m failure → ∃ span, failure = .fault ⟨f, span⟩) :
    x.Truncates f m (m.relax limit free) := by
  cases h with
  | ok small large | error small large =>
    refine .inl ⟨by rw [result, result, small, large], ?_⟩
    rw [Exec.after, Exec.after, small, large]
    rfl
  | cut small limited shown =>
    obtain ⟨span, rfl⟩ := hlimited _ limited
    exact .inr ⟨span, by rw [result, small], by rwa [after_eq_of_error small]⟩

end Exec

/-- A run that nothing asks to stop does not end as cancelled. -/
theorem Script.run_ne_cancelled {α : Type} {fuel : Nat} {x : Script α} {m : Machine}
    (hm : m.cancellation = .never) (span : Span) :
    (x.run fuel).result m ≠ .error (.fault ⟨.cancelled, span⟩) := by
  intro hresult
  cases hrun : x.run fuel m with
  | ok a m' =>
    rw [Exec.result, hrun] at hresult
    cases hresult
  | error failure m' =>
    have hshows := (run_composed fuel x).shows m
    rw [Exec.after_eq_of_error hrun] at hshows
    rw [Exec.result, hrun] at hresult
    obtain rfl : failure = .fault ⟨.cancelled, span⟩ := Except.error.inj hresult
    generalize hfailure : Failure.fault (⟨.cancelled, span⟩ : RuntimeError) = failure at hrun
    cases exists_cause fuel x m m' failure hrun with
    | cancelled hset _ => rw [hshows.never hm] at hset; cases hset
    | @ordinary e hordinary _ =>
      cases e with
      | fault f =>
        cases hfailure
        exact hordinary rfl
      | _ => cases hfailure
    | budget | write => cases hfailure

/-! ## What a limit rules out -/

/-- Whether something begins only after the run was asked whether it has to stop. -/
def Note.isPolled : Note → Bool
  | statement _ | turn | condition => true
  | _ => false

/-- Whether the body of a function or method begins. -/
def Note.isBody : Note → Bool
  | body .. => true
  | _ => false

/-- How many bodies are open. -/
def Moment.bodies (μ : Moment) : Nat := μ.countP fun n => n.1.isBody

/-- How a run goes on without entering or leaving a call. -/
structure Machine.GoesOn (m m' : Machine) : Prop where
  shows : m.Shows m'
  depth : m'.depth = m.depth

section Moments

open Machine

variable {α : Type} {fuel : Nat} {x : Script α} {m m' : Machine} {μ : Moment}

theorem Script.run_goesOn {a : α} (h : x.run fuel m = .ok a m') : m.GoesOn m' := by
  have hshows := (run_composed fuel x).shows m
  have hkeeps := (run_composed fuel x).keeps_after m
  rw [Exec.after_eq_of_ok h] at hshows hkeeps
  exact ⟨hshows, hkeeps.depth⟩

theorem Script.Reaches.goesOn (h : Reaches fuel x m μ) : μ.Nested GoesOn m :=
  h.nested (fun m => ⟨.refl m, rfl⟩)
    (fun h h' => ⟨h.shows.trans h'.shows, h'.depth.trans h.depth⟩) run_goesOn
    fun _ => ⟨.of_eq rfl rfl rfl, rfl⟩

namespace Moment

theorem Nested.shows (h : Nested GoesOn m μ) : m.Shows (μ.state m) := by
  induction h with
  | nil => exact .refl m
  | step _ leads ih | statement _ leads _ ih | turn _ leads _ ih | call _ leads _ ih =>
    exact ih.trans leads.shows
  | condition _ ih => exact ih
  | loopBody _ leads ih => exact ih.trans leads.shows
  | body _ _ ih => exact ⟨ih.maxDepth, ih.events⟩

/-- The depth counts the bodies that are open. -/
theorem Nested.depth (h : Nested GoesOn m μ) : (μ.state m).depth = m.depth + μ.bodies := by
  induction h with
  | nil => rfl
  | step _ leads ih | statement _ leads _ ih | turn _ leads _ ih | call _ leads _ ih =>
    exact leads.depth.trans ih
  | condition _ ih => exact ih
  | loopBody _ leads ih => exact leads.depth.trans ih
  | body _ _ ih =>
    rw [bodies, List.countP_cons_of_pos rfl, ← Nat.add_assoc]
    exact congrArg (· + 1) ih

theorem Nested.depth_le (h : Nested GoesOn m μ) (hm : m.depth ≤ m.maxDepth) :
    (μ.state m).depth ≤ m.maxDepth := by
  induction h with
  | nil => exact hm
  | step _ leads ih | statement _ leads _ ih | turn _ leads _ ih | call _ leads _ ih =>
    exact leads.depth ▸ ih
  | condition _ ih => exact ih
  | loopBody _ leads ih => exact leads.depth ▸ ih
  | body around _ _ =>
    rw [← around.shows.maxDepth]
    cases around with
    | call _ _ room => exact room

theorem Nested.going {Leads : Machine → Machine → Prop} {n : Note}
    (h : Nested Leads m ((n, m') :: μ)) (hn : n.isPolled = true) :
    m'.cancellation.isSet = false := by
  cases h with
  | statement _ _ going | turn _ _ going => exact going
  | condition around =>
    cases around with
    | turn _ _ going => exact going
  | step | loopBody | call | body => cases hn

/-- What begins only after the run was asked begins before the text that ends it. -/
theorem Nested.prints_lt {maxDepth n : Nat} {answers : List String} {note : Note}
    (h : Nested GoesOn (Machine.initial maxDepth answers (.after n)) ((note, m) :: μ))
    (hnote : note.isPolled = true) : m.prints < n := by
  refine Nat.not_le.mp fun hle => ?_
  have hset : m.cancellation.isSet = true := h.shows.isSet_iff.mpr hle
  exact Bool.false_ne_true ((h.going hnote).symm.trans hset)

theorem Nested.turn_of_loopBody {Leads : Machine → Machine → Prop}
    (h : Nested Leads m ((.loopBody, m') :: μ)) :
    ∃ m₀ outer, μ = (.turn, m₀) :: outer ∧ Nested Leads m μ := by
  cases h with
  | loopBody around _ => exact ⟨_, _, rfl, around⟩

end Moment

/-- In the turn that is going on, the run comes to the condition of the loop. -/
def Script.ReachesCondition (fuel : Nat) (x : Script α) (m : Machine) (rest : Moment) : Prop :=
  ∃ m₀ outer, rest = (.turn, m₀) :: outer ∧ Reaches fuel x m ((.condition, m₀) :: rest)

theorem Script.ReachesCondition.mono {β : Type} {fuel' : Nat} {y : Script β} {rest : Moment}
    (h : ReachesCondition fuel' y m' rest)
    (hreaches : ∀ ν, Reaches fuel' y m' ν → Reaches fuel x m ν) :
    ReachesCondition fuel x m rest := by
  obtain ⟨m₀, outer, hrest, hcondition⟩ := h
  exact ⟨m₀, outer, hrest, hreaches _ hcondition⟩

/-- What is around the body of a loop is around its condition. -/
theorem Script.ReachesCondition.within {β : Type} {fuel' : Nat} {y : Script β}
    {rest around : Moment} (h : ReachesCondition fuel' y m' rest)
    (hreaches : ∀ ν, Reaches fuel' y m' ν → Reaches fuel x m (ν ++ around)) :
    ReachesCondition fuel x m (rest ++ around) := by
  obtain ⟨m₀, outer, rfl, hcondition⟩ := h
  exact ⟨m₀, outer ++ around, rfl, hreaches _ hcondition⟩

theorem Moment.eq_append_of_loopBody {around rest : Moment}
    (h : (Note.loopBody, m') :: rest = μ ++ around)
    (haround : around.head?.map Prod.fst ≠ some .loopBody) :
    ∃ inside, μ = (.loopBody, m') :: inside ∧ rest = inside ++ around := by
  cases μ with
  | nil =>
    rw [List.nil_append] at h
    exact absurd (by rw [← h]; rfl) haround
  | cons n inside =>
    obtain ⟨rfl, rfl⟩ := List.cons.inj h
    exact ⟨inside, rfl, rfl⟩

/-- If the run has to stop when the body of a loop begins, it came to the condition of the loop in
the same turn. -/
theorem Script.Reaches.condition_of_loopBody {rest : Moment}
    (h : Reaches fuel x m ((.loopBody, m') :: rest)) (hset : m'.cancellation.isSet = true) :
    ReachesCondition fuel x m rest := by
  generalize hμ : (Note.loopBody, m') :: rest = μ at h
  induction h generalizing rest with
  | start | step | turn | binding => cases hμ
  | first _ ih => exact (ih hμ).mono fun _ => .first
  | next done _ ih => exact (ih hμ).mono fun _ => .next done
  | look _ ih => exact (ih hμ).mono fun _ => .look
  | statement poll _ ih =>
    obtain ⟨inside, rfl, rfl⟩ := Moment.eq_append_of_loopBody hμ nofun
    exact (ih rfl).within fun _ => .statement poll
  | loop left turns _ ih => exact (ih hμ).mono fun _ => .loop left turns
  | condition poll _ ih =>
    obtain ⟨inside, rfl, rfl⟩ := Moment.eq_append_of_loopBody hμ nofun
    exact (ih rfl).within fun _ => .condition poll
  | @loopBody fuel span conditional condition body increment m m₁ μ poll holds inside ih =>
    cases μ with
    | cons n μ =>
      obtain ⟨rfl, rfl⟩ := List.cons.inj hμ
      exact (ih rfl).within fun _ => .loopBody poll holds
    | nil =>
      -- It is this body that begins, and the request to stop has come since the turn began.
      cases hμ
      cases conditional with
      | true => exact ⟨m, [], rfl, .condition poll .start⟩
      | false =>
        cases holds
        have hgoing := (Exec.checkCancelled_eq_ok poll).2
        exact absurd (hset.symm.trans hgoing) (by decide)
  | increment poll holds done goesOn _ ih =>
    obtain ⟨inside, rfl, rfl⟩ := Moment.eq_append_of_loopBody hμ nofun
    exact (ih rfl).within fun _ => .increment poll holds done goesOn
  | inBlock _ ih => exact (ih hμ).mono fun _ => .inBlock
  | call _ ih => exact (ih hμ).mono fun _ => .call
  | body room bound _ ih =>
    obtain ⟨inside, rfl, rfl⟩ := Moment.eq_append_of_loopBody hμ nofun
    exact (ih rfl).within fun _ => .body room bound

end Moments

/-! ## The two limits -/

namespace Machine

/-- **The request to stop only cuts a run short.** From the `n`-th printed text on, no statement of
the program, no turn of a loop and no condition of a loop begins. The body of a loop begins only in
a turn that began before, and if it begins afterwards then the run has come to the condition in that
turn. -/
theorem cancellation_cuts_short (fuel maxDepth n : Nat) (answers : List String)
    (program : List Stmt) :
    (execute fuel program).Truncates .cancelled (Machine.initial maxDepth answers (.after n))
        (Machine.initial maxDepth answers) ∧
      (∀ note m rest, Script.Reaches fuel (.ofProgram program)
          (Machine.initial maxDepth answers (.after n)) ((note, m) :: rest) →
        (note.isPolled = true → m.prints < n) ∧
          (note = .loopBody → ∃ m₀ outer, rest = (.turn, m₀) :: outer ∧ m₀.prints < n ∧
            (n ≤ m.prints → Script.Reaches fuel (.ofProgram program)
              (Machine.initial maxDepth answers (.after n)) ((.condition, m₀) :: rest)))) ∧
      ∀ span, (execute fuel program).result (Machine.initial maxDepth answers) ≠
        .error (.fault ⟨.cancelled, span⟩) := by
  refine ⟨?_, ?_, ?_⟩
  · have hcut : Exec.CutShort maxDepth true (Machine.initial maxDepth answers (.after n))
        (execute fuel program) := (execute_composed fuel program).cutShort _ (Nat.le_refl _)
    refine hcut.truncates fun failure hlimited => ?_
    cases hlimited with
    | cancelled _ span => exact ⟨span, rfl⟩
    | depth hdepth _ => exact absurd hdepth (Nat.lt_irrefl _)
  · intro note m rest hreaches
    have hnested := hreaches.goesOn
    refine ⟨hnested.prints_lt, ?_⟩
    rintro rfl
    obtain ⟨m₀, outer, rfl, hturn⟩ := hnested.turn_of_loopBody
    refine ⟨m₀, outer, rfl, hturn.prints_lt rfl, fun hle => ?_⟩
    obtain ⟨_, _, hrest, hcondition⟩ :=
      hreaches.condition_of_loopBody (hnested.shows.isSet_iff.mpr hle)
    cases hrest
    exact hcondition
  · intro span
    rw [← Script.run_ofProgram]
    exact Script.run_ne_cancelled rfl span

/-- A function that prints before it gives back `true`. -/
def announcing : Stmt :=
  .function ⟨"f", [], .boolean,
    [.print (.string "c" {}) {}, .giveBack (some (.boolean true {})) {}], {}⟩ {}

/-- A loop whose condition calls the function. -/
def announced : Stmt := .whileLoop (.call (.name "f" {}) [] {}) [.breakLoop {}] {}

/-- The state after the declaration of the function. -/
def announcingDeclared : Machine :=
  ((Script.statement announcing announcing.script).run 3).after
    (Machine.initial 200 [] (.after 1))

/-- The condition of the loop. -/
def announcedCondition : Exec Bool :=
  Exec.decides true ((Expr.call (.name "f" {}) [] {}).scriptCondition.run 3)

theorem loopBody_announced :
    ∃ m rest, Script.Reaches 3 (.ofProgram [announcing, announced])
        (Machine.initial 200 [] (.after 1)) ((.loopBody, m) :: rest) ∧
      1 ≤ m.prints ∧ m.cancellation.isSet = true := by
  have hfirst : (Script.statement announcing announcing.script).run 3
      (Machine.initial 200 [] (.after 1)) = .ok .normal announcingDeclared :=
    Exec.eq_ok_of_yields (by decide +kernel)
  have hholds : announcedCondition announcingDeclared =
      .ok true (announcedCondition.after announcingDeclared) :=
    Exec.eq_ok_of_yields (by decide +kernel)
  have hpoll : ∀ span, Exec.checkCancelled span announcingDeclared = .ok () announcingDeclared :=
    fun span => Exec.checkCancelled_of_not_isSet (by decide +kernel)
  exact ⟨_, _, .next hfirst (.first (.statement (hpoll _) (.loop (Nat.zero_lt_succ _) .zero
    (.loopBody (hpoll _) hholds .start)))), by decide +kernel, by decide +kernel⟩

/-- **The limit for calls only cuts a run short.** There are never more bodies open than the limit,
and a run with a larger limit goes on where this one ends. -/
theorem depth_limit_cuts_short {small large : Nat} (h : small ≤ large) (fuel : Nat)
    (answers : List String) (cancellation : Cancellation) (program : List Stmt) :
    (∀ μ, Script.Reaches fuel (.ofProgram program) (Machine.initial small answers cancellation) μ →
        μ.bodies ≤ small) ∧
      (execute fuel program).Truncates (.callDepthExceeded small)
        (Machine.initial small answers cancellation)
        (Machine.initial large answers cancellation) := by
  refine ⟨fun μ hreaches => ?_, ?_⟩
  · have hle := hreaches.goesOn.depth_le (Nat.zero_le _)
    rw [hreaches.goesOn.depth] at hle
    exact Nat.le_trans (Nat.le_add_left _ _) hle
  · have hcut : Exec.CutShort large false (Machine.initial small answers cancellation)
        (execute fuel program) := (execute_composed fuel program).cutShort _ h
    refine hcut.truncates fun failure hlimited => ?_
    cases hlimited with
    | cancelled hfree _ => cases hfree
    | depth _ span => exact ⟨span, rfl⟩

/-- A function that calls itself. -/
def selfCalling : Func := ⟨"f", [], .void, [.eval (.call (.name "f" {}) [] {}) {}], {}⟩

/-- The function, and a call of it. -/
def selfCall : List Stmt := [.function selfCalling {}, .eval (.call (.name "f" {}) [] {}) {}]

theorem depth_limit_selfCall :
    1 ≤ 2 ∧
      (∃ μ, Script.Reaches 3 (.ofProgram selfCall) (Machine.initial 1 [] .never) μ ∧
        μ.bodies = 1) ∧
      (∀ μ, Script.Reaches 3 (.ofProgram selfCall) (Machine.initial 1 [] .never) μ →
        μ.bodies ≤ 1) ∧
      (execute 3 selfCall).result (Machine.initial 1 [] .never) =
        .error (.fault ⟨.callDepthExceeded 1, {}⟩) ∧
      (execute 3 selfCall).Truncates (.callDepthExceeded 1) (Machine.initial 1 [] .never)
        (Machine.initial 2 [] .never) := by
  have hlimit := depth_limit_cuts_short (by decide : 1 ≤ 2) 3 [] .never selfCall
  refine ⟨by decide, ?_, hlimit.1, by with_unfolding_all rfl, hlimit.2⟩
  have hcall : ∃ m, (Script.statement (.function selfCalling {})
        (Stmt.function selfCalling {}).script).run 3 (Machine.initial 1 [] .never) =
          .ok .normal m ∧
      Exec.checkCancelled {} m = .ok () m ∧
      (Expr.name "f" {}).script.run 3 m = .ok (.callable (.function ⟨0⟩)) m ∧
      m.depth < m.maxDepth ∧ m.store.frame selfCalling none [] = .ok [] ∧
      m.store.arity (.function ⟨0⟩) = 0 ∧ (m.store.function ⟨0⟩).decl = selfCalling :=
    ⟨_, by with_unfolding_all rfl, rfl, by with_unfolding_all rfl, by decide, rfl, rfl, rfl⟩
  obtain ⟨m, hfirst, hpoll, hname, hroom, hframe, harity, hdecl⟩ := hcall
  have hbody : Script.Reaches 2 (.ofCall (.function ⟨0⟩) [] {}) m
      [(.body (.function ⟨0⟩) selfCalling, m.enterCall [] (m.store.closure (.function ⟨0⟩))),
        (.call (.function ⟨0⟩) selfCalling [], m)] := by
    refine .look ?_
    rw [harity]
    show Script.Reaches 2 (Script.activate _ (m.store.function ⟨0⟩).decl [] {}) m _
    rw [hdecl]
    exact .first (.body hroom hframe .start)
  exact ⟨_, .next hfirst (.first (.statement hpoll
    (.first (.next hname (.next rfl (.call hbody)))))), rfl⟩

end Machine

end Chalk
