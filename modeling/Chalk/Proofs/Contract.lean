import Chalk.Eval.Machine

/-!
# Contracts of actions

An action of a run ends with a result or with a failure, and in both cases with a state. A contract
says what holds of either ending, for an action that starts in a given state. Contracts follow the
way actions are put together: one rule for each combinator of `Exec`, so that a statement about the
evaluator is proved along the tree of the program and never by looking inside the combinators.

## Main definitions

* `Exec.Meets` — the contract of an action in a state
* `Exec.after` — the state that an action leaves behind, however it ends

## Main results

* `Exec.meets_bind` — sequencing
* `Exec.meets_within`, `Exec.meets_deeper` — actions in another scope, and one call deeper
* `Exec.meets_iterate` — repetition, by an invariant
-/

namespace Chalk

namespace Exec

variable {α β : Type} {m : Machine} {post : α → Machine → Prop}
  {fails : Failure RuntimeError → Machine → Prop}

/-- Started in `m`, the action ends with a result and a state that satisfy `post`, or with a failure
and a state that satisfy `fails`. -/
def Meets (m : Machine) (x : Exec α) (post : α → Machine → Prop)
    (fails : Failure RuntimeError → Machine → Prop) : Prop :=
  match x m with
  | .ok a after => post a after
  | .error failure after => fails failure after

/-- The state that an action leaves behind, however it ends. -/
def after (x : Exec α) (m : Machine) : Machine :=
  match x m with
  | .ok _ m' => m'
  | .error _ m' => m'

theorem after_eq_of_ok {x : Exec α} {a : α} {m' : Machine} (h : x m = .ok a m') :
    x.after m = m' := by
  rw [Exec.after, h]

theorem after_eq_of_error {x : Exec α} {failure : Failure RuntimeError} {m' : Machine}
    (h : x m = .error failure m') : x.after m = m' := by
  rw [Exec.after, h]

/-- Whether an action ends with the given result. -/
def yields [DecidableEq α] (x : Exec α) (m : Machine) (a : α) : Bool :=
  match x m with
  | .ok b _ => b = a
  | .error .. => false

theorem eq_ok_of_yields [DecidableEq α] {x : Exec α} {a : α} (h : x.yields m a = true) :
    x m = .ok a (x.after m) := by
  rw [yields] at h
  cases hx : x m with
  | ok b m' =>
    rw [hx] at h
    rw [of_decide_eq_true h, after_eq_of_ok hx]
  | error failure m' =>
    rw [hx] at h
    cases h

theorem after_congr {x y : Exec α} {m' : Machine} (h : x m = y m') : x.after m = y.after m' := by
  rw [Exec.after, Exec.after, h]

theorem Meets.ok {x : Exec α} (h : Meets m x post fails) {a : α} {m' : Machine}
    (hx : x m = .ok a m') : post a m' := by
  simpa only [Meets, hx] using h

theorem Meets.error {x : Exec α} (h : Meets m x post fails) {failure : Failure RuntimeError}
    {m' : Machine} (hx : x m = .error failure m') : fails failure m' := by
  simpa only [Meets, hx] using h

/-- What both endings guarantee holds of the state that the action leaves behind. -/
theorem Meets.after {x : Exec α} {P : Machine → Prop} (h : Meets m x post fails)
    (hpost : ∀ a m', post a m' → P m') (hfails : ∀ f m', fails f m' → P m') : P (x.after m) := by
  rw [Exec.after]
  cases hx : x m with
  | ok a m' => exact hpost a m' (h.ok hx)
  | error f m' => exact hfails f m' (h.error hx)

theorem Meets.mono {x : Exec α} {post' : α → Machine → Prop}
    {fails' : Failure RuntimeError → Machine → Prop} (h : Meets m x post fails)
    (hpost : ∀ a m', post a m' → post' a m') (hfails : ∀ f m', fails f m' → fails' f m') :
    Meets m x post' fails' := by
  rw [Meets]
  cases hx : x m with
  | ok a m' => exact hpost a m' (h.ok hx)
  | error f m' => exact hfails f m' (h.error hx)

/-- Two contracts of one action hold of the same ending. -/
theorem Meets.and {x : Exec α} {post' : α → Machine → Prop}
    {fails' : Failure RuntimeError → Machine → Prop} (h : Meets m x post fails)
    (h' : Meets m x post' fails') :
    Meets m x (fun a m' => post a m' ∧ post' a m') (fun f m' => fails f m' ∧ fails' f m') := by
  rw [Meets]
  cases hx : x m with
  | ok a m' => exact ⟨h.ok hx, h'.ok hx⟩
  | error f m' => exact ⟨h.error hx, h'.error hx⟩

/-- A contract can keep how the action ended. -/
theorem Meets.result {x : Exec α} (h : Meets m x post fails) :
    Meets m x (fun a m' => x m = .ok a m' ∧ post a m') fails := by
  rw [Meets]
  cases hx : x m with
  | ok a m' => exact ⟨rfl, h.ok hx⟩
  | error f m' => exact h.error hx

theorem meets_trivial (m : Machine) (x : Exec α) :
    Meets m x (fun _ _ => True) fun _ _ => True := by
  rw [Meets]
  split <;> trivial

/-! ## Results and failures -/

theorem meets_pure {a : α} (h : post a m) : Meets m (pure a) post fails := h

theorem meets_throw {failure : Failure RuntimeError} (h : fails failure m) :
    Meets m (throw failure : Exec α) post fails := h

theorem meets_fault {f : Fault} {span : Span} (h : fails (.fault ⟨f, span⟩) m) :
    Meets m (fault f span : Exec α) post fails := h

theorem meets_bind {x : Exec β} {f : β → Exec α} {mid : β → Machine → Prop}
    (hx : Meets m x mid fails) (hf : ∀ b m', mid b m' → Meets m' (f b) post fails) :
    Meets m (x >>= f) post fails := by
  show Meets m (EStateM.bind x f) post fails
  rw [Meets, EStateM.bind]
  cases h : x m with
  | ok b m' => exact hf b m' (hx.ok h)
  | error failure m' => exact hx.error h

theorem bind_eq_of_ok {x : Exec β} {f : β → Exec α} {b : β} {m' : Machine} (h : x m = .ok b m') :
    (x >>= f) m = f b m' := by
  show EStateM.bind x f m = f b m'
  rw [EStateM.bind, h]

/-! ## Reading the state -/

theorem meets_get_bind {f : Machine → Exec α} (h : Meets m (f m) post fails) :
    Meets m (get >>= f) post fails := h

theorem meets_store_bind {f : Store → Exec α} (h : Meets m (f m.store) post fails) :
    Meets m (store >>= f) post fails := h

theorem meets_liftAt {span : Span} {r : Except (Failure Fault) α}
    (hok : ∀ a, r = .ok a → post a m) (hfails : ∀ f, r = .error f → fails (f.at span) m) :
    Meets m (liftAt span r) post fails := by
  cases r with
  | ok a => exact hok a rfl
  | error f => exact hfails f rfl

theorem meets_query {span : Span} {f : Store → Except (Failure Fault) α}
    (hok : ∀ a, f m.store = .ok a → post a m)
    (hfails : ∀ e, f m.store = .error e → fails (e.at span) m) :
    Meets m (query span f) post fails :=
  meets_store_bind (meets_liftAt hok hfails)

theorem meets_query_bind {span : Span} {f : Store → Except (Failure Fault) β} {g : β → Exec α}
    (hok : ∀ b, f m.store = .ok b → Meets m (g b) post fails)
    (hfails : ∀ e, f m.store = .error e → fails (e.at span) m) :
    Meets m (query span f >>= g) post fails := by
  have hquery : Meets m (query span f) (fun b m' => m' = m ∧ f m.store = .ok b) fails :=
    meets_query (fun b hb => ⟨rfl, hb⟩) hfails
  refine meets_bind hquery ?_
  rintro b m' ⟨rfl, hb⟩
  exact hok b hb

theorem meets_checkCancelled {span : Span} {post : Unit → Machine → Prop} (hok : post () m)
    (hfails : fails (.fault ⟨.cancelled, span⟩) m) : Meets m (checkCancelled span) post fails := by
  refine meets_get_bind ?_
  split
  · exact meets_fault hfails
  · exact meets_pure hok

/-! ## Changing the state -/

theorem meets_alter_bind {f : Store → β × Store} {g : β → Exec α}
    (h : Meets { m with store := (f m.store).2 } (g (f m.store).1) post fails) :
    Meets m (alter f >>= g) post fails := h

theorem meets_update {span : Span} {f : Store → Outcome α}
    (hok : ∀ a s, f m.store = .ok a s → post a { m with store := s })
    (hfails : ∀ e s, f m.store = .error e s → fails (e.at span) { m with store := s }) :
    Meets m (update span f) post fails := by
  cases h : f m.store with
  | ok a s =>
    simp only [Meets, update, h]
    exact hok a s h
  | error e s =>
    simp only [Meets, update, h]
    exact hfails e s h

theorem meets_print {text : String} {post : Unit → Machine → Prop}
    (h : post () { m with
      transcript := m.transcript.push (.print text), cancellation := m.cancellation.tick }) :
    Meets m (print text) post fails := h

theorem meets_read {prompt : String} {post : String → Machine → Prop}
    (h : post (m.answers.headD "") { m with
      transcript := m.transcript.push (.read prompt), answers := m.answers.tail }) :
    Meets m (read prompt) post fails := h

/-! ## Scopes, calls and repetition -/

theorem meets_within {scope : ScopeId} {x : Exec α}
    (h : Meets { m with scope } x (fun a m' => post a { m' with scope := m.scope })
      (fun f m' => fails f { m' with scope := m.scope })) :
    Meets m (within scope x) post fails := by
  rw [Meets, within]
  cases hx : x { m with scope } with
  | ok a m' => exact h.ok hx
  | error f m' => exact h.error hx

theorem meets_deeper {x : Exec α}
    (h : Meets { m with depth := m.depth + 1 } x
      (fun a m' => post a { m' with depth := m'.depth - 1 })
      (fun f m' => fails f { m' with depth := m'.depth - 1 })) :
    Meets m (deeper x) post fails := by
  rw [Meets, deeper]
  cases hx : x { m with depth := m.depth + 1 } with
  | ok a m' => exact h.ok hx
  | error f m' => exact h.error hx

/-- **Repetition.** A property that every turn keeps while it goes on holds when the budget is used
up, and otherwise the turn that ends the repetition decides. -/
theorem meets_iterate {turn : Exec (Option α)} {I : Machine → Prop}
    (hturn : ∀ m', I m' →
      Meets m' turn (fun r m'' => r.elim (I m'') fun a => post a m'') fails)
    (hfuel : ∀ m', I m' → fails .outOfFuel m') (fuel : Nat) (hm : I m) :
    Meets m (iterate turn fuel) post fails := by
  induction fuel generalizing m with
  | zero => exact meets_throw (hfuel m hm)
  | succ fuel ih =>
    refine meets_bind (hturn m hm) fun r m' hr => ?_
    cases r with
    | some a => exact meets_pure hr
    | none => exact ih hr

end Exec

/-! ## Entering blocks and calls -/

/-- The state in which the statements of a block are executed: a fresh scope inside the current
one. -/
def Machine.enterBlock (m : Machine) : Machine :=
  { m with store := (m.store.childScope m.scope).2, scope := (m.store.childScope m.scope).1 }

/-- The state in which the body of a call is executed: a fresh scope with the given variables inside
the scope of the declaration, one call deeper. -/
def Machine.enterCall (m : Machine) (bindings : Bindings) (closure : ScopeId) : Machine :=
  { m with
    store := (m.store.newScope { bindings, parent := some closure }).2
    scope := (m.store.newScope { bindings, parent := some closure }).1
    depth := m.depth + 1 }

namespace Exec

variable {α β : Type} {m : Machine} {post : α → Machine → Prop}
  {fails : Failure RuntimeError → Machine → Prop}

theorem meets_inBlock {x : Exec α}
    (h : Meets m.enterBlock x (fun a m' => post a { m' with scope := m.scope })
      (fun f m' => fails f { m' with scope := m.scope })) :
    Meets m (inBlock x) post fails :=
  meets_get_bind (meets_alter_bind (meets_within h))

/-- The part of a call from its fresh scope on: the body, with the scope put back and one call less,
and what follows. -/
theorem meets_inCall_bind {x : Exec β} {f : β → Exec α} {bindings : Bindings} {closure : ScopeId}
    (mid : β → Machine → Prop)
    (h : Meets (m.enterCall bindings closure) x
      (fun b m' => mid b { m' with scope := m.scope, depth := m'.depth - 1 })
      (fun e m' => fails e { m' with scope := m.scope, depth := m'.depth - 1 }))
    (hf : ∀ b m', mid b m' → Meets m' (f b) post fails) :
    Meets m (do
      let scope ← alter fun s => s.newScope { bindings, parent := some closure }
      let b ← deeper (within scope x)
      f b) post fails :=
  meets_alter_bind (meets_bind (meets_deeper (meets_within h)) hf)

end Exec

end Chalk
