import Chalk.Proofs.Containment
import Chalk.Proofs.Script.Moment

/-!
# Where failures come from

A run that fails fails for one of four reasons: a fault that the program causes, the request to
stop, a budget that is used up, or a list in use. The request to stop is found only by asking for
it, and a list in use only by a write to an element of that list.

## Main definitions

* `Script.Cause` — why a run fails

## Main results

* `Step.fails` — why a step fails
* `Script.exists_cause` — every failure has a cause
-/

namespace Chalk

/-! ## Failures of steps -/

namespace Store

variable {s t : Store} {f : Failure Fault}

theorem ordinary_getVariable {id : ScopeId} {name : String}
    (h : s.getVariable id name = .error f) : f.Ordinary := by
  rw [getVariable] at h
  split at h <;> cases h
  rintro ⟨⟩

theorem ordinary_declareIn {bindings : Bindings} {name : String} {binding : Binding}
    (h : s.declareIn bindings name binding = .error f) : f.Ordinary := by
  rw [declareIn] at h
  split at h
  · cases h
    rintro ⟨⟩
  · split at h <;> cases h
    rintro ⟨⟩

theorem ordinary_define {id : ScopeId} {name : String} {binding : Binding}
    (h : s.define id name binding = .error f t) : f.Ordinary := by
  rw [define] at h
  split at h <;> cases h
  exact ordinary_declareIn ‹_›

theorem ordinary_assign {id : ScopeId} {name : String} {value : Value}
    (h : s.assign id name value = .error f t) : f.Ordinary := by
  rw [assign] at h
  split at h
  · cases h
    rintro ⟨⟩
  · split at h
    · cases h
      rintro ⟨⟩
    · split at h
      · cases h
        rintro ⟨⟩
      · split at h <;> cases h
        rintro ⟨⟩

theorem ordinary_bindParam {decl : Func} {bindings : Bindings} {pair : Slot × Value}
    (h : s.bindParam decl bindings pair = .error f) : f.Ordinary := by
  rw [bindParam] at h
  split at h
  · exact ordinary_declareIn h
  · cases h
    rintro ⟨⟩

theorem ordinary_frame {decl : Func} {this : Option Value} {arguments : List Value}
    (h : s.frame decl this arguments = .error f) : f.Ordinary := by
  obtain ⟨_, _, -, hfails⟩ := exists_bindParam_eq_error h
  exact ordinary_bindParam hfails

/-- Writing an element fails with a fault, unless the index is no number and contains the list. -/
theorem ordinary_writeElement {id : ListId} {index value : Value}
    (h : s.writeElement id index value = .error f t) :
    f.Ordinary ∨ f = .listInUse ∧ (∀ x, index ≠ .number x) ∧ s.Contains index (.list id) := by
  rw [writeElement.eq_def] at h
  split at h
  · split at h <;> cases h
    exact .inl (ordinary_position ‹_›)
  · rename_i hnumber
    split at h <;> cases h
    · exact .inr ⟨rfl, hnumber, (s.opens_iff_contains id index).mp ‹_›⟩
    · exact .inl (by rintro ⟨⟩)

end Store

theorem Exec.update_eq_error {α : Type} {span : Span} {f : Store → Outcome α} {m m' : Machine}
    {failure : Failure RuntimeError} (h : update span f m = .error failure m') :
    ∃ e t, f m.store = .error e t ∧ failure = e.at span ∧ m' = { m with store := t } := by
  rw [update] at h
  cases hf : f m.store with
  | ok a t =>
    simp only [hf] at h
    cases h
  | error e t =>
    simp only [hf] at h
    cases h
    exact ⟨e, t, rfl, rfl, rfl⟩

/-- Why a step fails in a state: for a fault that the program causes, because an element of a list
is written through an index that is no number and contains the list, or because the budget for a
comparison is used up. -/
inductive Step.Fails (budget : Nat) (m : Machine) :
    {α : Type} → Step α → Failure RuntimeError → Prop where
  | ordinary {α : Type} {s : Step α} {e : Failure Fault} (h : e.Ordinary) (span : Span) :
      Fails budget m s (e.at span)
  | write {id : ListId} {index value : Value} {span : Span} (hnumber : ∀ x, index ≠ .number x)
      (hcontains : m.store.Contains index (.list id)) :
      Fails budget m (.write id index value span) .listInUse
  | compare {left right : Value} (h : m.store.equal? budget left right = none) :
      Fails budget m (.compare left right) .outOfFuel

theorem Step.fails {α : Type} {s : Step α} {budget : Nat} {m m' : Machine}
    {failure : Failure RuntimeError} (h : s.perform budget m = .error failure m') :
    s.Fails budget m failure ∧ m'.cancellation = m.cancellation := by
  cases s with
  | operate span op =>
    obtain ⟨e, t, he, rfl, rfl⟩ := Exec.update_eq_error h
    exact ⟨.ordinary (op.ordinary he) span, rfl⟩
  | write id index value span =>
    have hwrite : Exec.update span (fun s => s.writeElement id index value) m = _ := h
    obtain ⟨e, t, he, rfl, rfl⟩ := Exec.update_eq_error hwrite
    rcases Store.ordinary_writeElement he with hordinary | ⟨rfl, hnumber, hcontains⟩
    · exact ⟨.ordinary hordinary span, rfl⟩
    · exact ⟨.write hnumber hcontains, rfl⟩
  | compare left right =>
    have hcompare : Exec.compare budget left right m = _ := h
    cases heq : m.store.equal? budget left right with
    | some answer =>
      rw [Exec.compare_of_some heq] at hcompare
      cases hcompare
    | none =>
      rw [Exec.compare_of_none heq] at hcompare
      cases hcompare
      exact ⟨.compare heq, rfl⟩
  | fetch name span | this span =>
    have hlift : Exec.liftAt span (m.store.getVariable m.scope _) m = .error failure m' := h
    cases hget : m.store.getVariable m.scope _ with
    | ok v => rw [hget] at hlift; cases hlift
    | error e =>
      rw [hget] at hlift
      cases hlift
      exact ⟨.ordinary (Store.ordinary_getVariable hget) span, rfl⟩
  | define name binding span =>
    have hdefine : Exec.update span (fun s => s.define m.scope name binding) m = _ := h
    obtain ⟨e, t, he, rfl, rfl⟩ := Exec.update_eq_error hdefine
    exact ⟨.ordinary (Store.ordinary_define he) span, rfl⟩
  | assign name value span =>
    have hassign : Exec.update span (fun s => s.assign m.scope name value) m = _ := h
    obtain ⟨e, t, he, rfl, rfl⟩ := Exec.update_eq_error hassign
    exact ⟨.ordinary (Store.ordinary_assign he) span, rfl⟩
  | newFunction | newClass | print | read => cases h

/-! ## Failures of runs -/

namespace Script

variable {α β : Type} {fuel : Nat} {m m' : Machine} {failure : Failure RuntimeError}

/-- Why the run of a script that starts in `m` and ends in `m'` fails. -/
inductive Cause (fuel : Nat) (x : Script α) (m m' : Machine) : Failure RuntimeError → Prop where
  | ordinary {e : Failure Fault} (h : e.Ordinary) (span : Span) : Cause fuel x m m' (e.at span)
  | cancelled (h : m'.cancellation.isSet = true) (span : Span) :
      Cause fuel x m m' (.fault ⟨.cancelled, span⟩)
  | budget : Cause fuel x m m' .outOfFuel
  | write {id : ListId} {index value : Value} {span : Span} {m₁ : Machine} {rest : Moment}
      (reached : Reaches fuel x m ((.step (.write id index value span), m₁) :: rest))
      (hnumber : ∀ x, index ≠ .number x) (hcontains : m₁.store.Contains index (.list id)) :
      Cause fuel x m m' .listInUse

/-- The cause of a failure inside a part of a run is a cause for the run. -/
theorem Cause.lift {x : Script α} {y : Script β} {fuel' : Nat} {m₁ m₂ : Machine} {rest : Moment}
    (h : Cause fuel y m₁ m₂ failure) (hcancellation : m'.cancellation = m₂.cancellation)
    (hreaches : ∀ μ, Reaches fuel y m₁ μ → Reaches fuel' x m (μ ++ rest)) :
    Cause fuel' x m m' failure := by
  cases h with
  | ordinary h span => exact .ordinary h span
  | cancelled h span => exact .cancelled (hcancellation ▸ h) span
  | budget => exact .budget
  | write reached hnumber hcontains => exact .write (hreaches _ reached) hnumber hcontains

theorem Cause.lift_nil {x : Script α} {y : Script β} {fuel' : Nat} {m₁ m₂ : Machine}
    (h : Cause fuel y m₁ m₂ failure) (hcancellation : m'.cancellation = m₂.cancellation)
    (hreaches : ∀ μ, Reaches fuel y m₁ μ → Reaches fuel' x m μ) : Cause fuel' x m m' failure := by
  have happend : ∀ μ, Reaches fuel y m₁ μ → Reaches fuel' x m (μ ++ []) := by
    intro μ hμ
    rw [List.append_nil]
    exact hreaches μ hμ
  exact h.lift hcancellation happend

theorem cause_of_checkCancelled {x : Script α} {span : Span}
    (h : Exec.checkCancelled span m = .error failure m') : Cause fuel x m m' failure := by
  cases hset : m.cancellation.isSet with
  | true =>
    rw [Exec.checkCancelled_of_isSet hset] at h
    cases h
    exact .cancelled hset span
  | false =>
    rw [Exec.checkCancelled_of_not_isSet hset] at h
    cases h

theorem bind_eq_error {x : Exec β} {f : β → Exec α} (h : (x >>= f) m = .error failure m') :
    x m = .error failure m' ∨ ∃ b m₁, x m = .ok b m₁ ∧ f b m₁ = .error failure m' := by
  cases hx : x m with
  | ok b m₁ => exact .inr ⟨b, m₁, rfl, by rw [← h, Exec.bind_eq_of_ok hx]⟩
  | error e m₁ =>
    rw [Exec.bind_eq_of_error hx] at h
    cases h
    exact .inl rfl

theorem leaving_eq_error {restore : Machine → Machine}
    {r : EStateM.Result (Failure RuntimeError) Machine α}
    (h : leaving restore r = .error failure m') :
    ∃ m₁, r = .error failure m₁ ∧ m' = restore m₁ := by
  cases r with
  | ok a m₁ => cases h
  | error e m₁ => cases h; exact ⟨m₁, rfl, rfl⟩

theorem iterate_eq_error {turn : Exec (Option α)}
    (h : Exec.iterate turn fuel m = .error failure m') :
    failure = .outOfFuel ∨
      ∃ n m₁, n < fuel ∧ Exec.Repeats turn n m m₁ ∧ turn m₁ = .error failure m' := by
  induction fuel generalizing m with
  | zero => cases h; exact .inl rfl
  | succ fuel ih =>
    rcases bind_eq_error h with hturn | ⟨r, m₁, hturn, hnext⟩
    · exact .inr ⟨0, m, Nat.succ_pos _, .zero, hturn⟩
    · cases r with
      | some a => cases hnext
      | none =>
        rcases ih hnext with hfuel | ⟨n, m₂, hn, hrepeats, hfail⟩
        · exact .inl hfuel
        · exact .inr ⟨n + 1, m₂, Nat.succ_lt_succ hn, .succ hturn hrepeats, hfail⟩

theorem cause_of_turn {span : Span} {conditional : Bool} {condition : Script Bool}
    {body increment : Script Signal}
    (hcondition : ∀ m m' failure, condition.run fuel m = .error failure m' →
      Cause fuel condition m m' failure)
    (hbody : ∀ m m' failure, body.run fuel m = .error failure m' → Cause fuel body m m' failure)
    (hincrement : ∀ m m' failure, increment.run fuel m = .error failure m' →
      Cause fuel increment m m' failure)
    (h : (turn span conditional condition body increment).run fuel m = .error failure m') :
    Cause fuel (turn span conditional condition body increment) m m' failure := by
  rcases bind_eq_error h with hpoll | ⟨u, m₁, hpoll, hdone⟩
  · exact cause_of_checkCancelled hpoll
  obtain ⟨rfl, -⟩ := Exec.checkCancelled_eq_ok hpoll
  rcases bind_eq_error hdone with hdecides | ⟨goOn, m₂, hdecides, hturn⟩
  · cases conditional with
    | false => cases hdecides
    | true => exact (hcondition _ _ _ hdecides).lift rfl fun μ hμ => .condition hpoll hμ
  cases goOn with
  | false => cases hturn
  | true =>
    rcases bind_eq_error hturn with hblock | ⟨signal, m₃, hblock, hlast⟩
    · obtain ⟨m₄, hrun, rfl⟩ := leaving_eq_error hblock
      exact (hbody _ _ _ hrun).lift rfl fun μ hμ => .loopBody hpoll hdecides hμ
    · cases hafter : signal.afterBody with
      | some last =>
        simp only [hafter] at hlast
        cases hlast
      | none =>
        simp only [hafter] at hlast
        rcases bind_eq_error hlast with hnext | ⟨_, _, _, hend⟩
        · exact (hincrement _ _ _ hnext).lift rfl fun μ hμ =>
            .increment hpoll hdecides hblock hafter hμ
        · cases hend

/-- **Every failure has a cause.** The request to stop is noticed only while it stands, and a list
is in use only at a write that the run comes to. -/
theorem exists_cause (fuel : Nat) (x : Script α) (m m' : Machine) (failure : Failure RuntimeError)
    (h : x.run fuel m = .error failure m') : Cause fuel x m m' failure := by
  revert m m' failure
  refine run_induction (motive := fun fuel _ x => ∀ m m' failure,
    x.run fuel m = .error failure m' → Cause fuel x m m' failure)
    ?pure ?bind ?look ?step ?statement ?loop ?turn ?inBlock ?exhausted ?call ?inCall fuel x
  case pure => intro fuel α a m m' failure h; cases h
  case bind =>
    intro fuel α β x f ihx ihf m m' failure h
    rcases bind_eq_error h with hx | ⟨b, m₁, hx, hf⟩
    · exact (ihx m m' failure hx).lift_nil rfl fun μ hμ => .first hμ
    · exact (ihf b m₁ m' failure hf).lift_nil rfl fun μ hμ => .next hx hμ
  case look =>
    intro fuel α next ih m m' failure h
    exact (ih m.scope m.store m m' failure h).lift_nil rfl fun μ hμ => .look hμ
  case step =>
    intro fuel α s m m' failure h
    cases (Step.fails h).1 with
    | ordinary hordinary span => exact .ordinary hordinary span
    | write hnumber hcontains => exact .write .step hnumber hcontains
    | compare => exact .budget
  case statement =>
    intro fuel α s x ih m m' failure h
    rcases bind_eq_error h with hpoll | ⟨u, m₁, hpoll, hx⟩
    · exact cause_of_checkCancelled hpoll
    · obtain ⟨rfl, -⟩ := Exec.checkCancelled_eq_ok hpoll
      exact (ih _ m' failure hx).lift rfl fun μ hμ => .statement hpoll hμ
  case loop =>
    intro fuel x ih m m' failure h
    rcases iterate_eq_error h with rfl | ⟨n, m₁, hn, hrepeats, hfail⟩
    · exact .budget
    · exact (ih m₁ m' failure hfail).lift_nil rfl fun μ hμ => .loop hn hrepeats hμ
  case turn =>
    intro fuel span conditional condition body increment ihc ihb ihi m m' failure h
    exact cause_of_turn ihc ihb ihi h
  case inBlock =>
    intro fuel α x ih m m' failure h
    obtain ⟨m₁, hx, rfl⟩ := leaving_eq_error h
    exact (ih _ m₁ failure hx).lift_nil rfl fun μ hμ => .inBlock hμ
  case exhausted => intro callable arguments span m m' failure h; cases h; exact .budget
  case call =>
    intro fuel callable arguments span ih m m' failure h
    rw [run_call] at h
    exact (ih m m' failure h).lift_nil rfl fun μ hμ => .call hμ
  case inCall =>
    intro fuel α activation decl arguments span body ih m m' failure h
    by_cases room : m.depth < m.maxDepth
    · rw [run_inCall_room room] at h
      cases hframe : m.store.frame decl activation.this? arguments with
      | error e =>
        rw [hframe] at h
        cases h
        exact .ordinary (Store.ordinary_frame hframe) span
      | ok bindings =>
        rw [hframe] at h
        obtain ⟨m₁, hrun, rfl⟩ := leaving_eq_error h
        exact (ih _ m₁ failure hrun).lift rfl fun μ hμ => .body room hframe hμ
    · rw [run_inCall_full (Nat.not_lt.mp room)] at h
      cases h
      exact .ordinary (e := .fault (.callDepthExceeded m.maxDepth)) (by rintro ⟨⟩) span

/-- A list is in use because the run has come to write an element of it, through an index that is no
number and contains the list. -/
theorem exists_write {x : Script α} (h : x.run fuel m = .error .listInUse m') :
    ∃ id index value span m₁ rest,
      Reaches fuel x m ((.step (.write id index value span), m₁) :: rest) ∧
        (∀ x, index ≠ .number x) ∧ m₁.store.Contains index (.list id) := by
  generalize hfailure : Failure.listInUse = failure at h
  cases exists_cause fuel x m m' failure h with
  | @ordinary e hordinary _ =>
    cases e with
    | listInUse => exact hordinary.elim
    | _ => cases hfailure
  | cancelled | budget => cases hfailure
  | write reached hnumber hcontains => exact ⟨_, _, _, _, _, _, reached, hnumber, hcontains⟩

end Script

end Chalk
