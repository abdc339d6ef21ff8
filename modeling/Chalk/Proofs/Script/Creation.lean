import Chalk.Proofs.Script.Moment

/-!
# Where functions come from

Every function in the store was made by a declaration that the run came to. Functions are numbered
in the order in which they are made, so a function is made at the moment where the number of
functions is its own number.

## Main definitions

* `Moment.Makes` — the moments at which a function is made
* `Store.Made` — the functions that were made between two stores

## Main results

* `Script.run_made` — the functions that a run makes
-/

namespace Chalk

/-- At the moment, the declaration is about to make the function with the given number. -/
inductive Moment.Makes (decl : Func) (id : FunctionId) : Moment → Prop where
  | intro {m : Machine} {rest : Moment} (h : id = ⟨m.store.functions.size⟩) :
      Makes decl id ((.step (.newFunction decl), m) :: rest)

theorem Moment.Makes.append {decl : Func} {id : FunctionId} {μ : Moment} (h : μ.Makes decl id)
    (rest : Moment) : (μ ++ rest).Makes decl id := by
  cases h with
  | intro h => exact .intro h

/-- Every function that the store `t` has and the store `s` does not have was made at one of the
moments. -/
def Store.Made (H : Moment → Prop) (s t : Store) : Prop :=
  ∀ id : FunctionId, s.functions.size ≤ id.index → id.index < t.functions.size →
    ∃ μ decl, H μ ∧ μ.Makes decl id

namespace Store

variable {H H' : Moment → Prop} {s t u : Store}

theorem Made.of_functions_eq (h : t.functions = s.functions) : Made H s t :=
  fun _ hs ht => absurd (h ▸ ht) (Nat.not_lt.mpr hs)

theorem Made.refl (H : Moment → Prop) (s : Store) : Made H s s := .of_functions_eq rfl

theorem Made.trans (h : Made H s t) (h' : Made H t u) : Made H s u := by
  intro id hs hu
  by_cases ht : id.index < t.functions.size
  · exact h id hs ht
  · exact h' id (Nat.not_lt.mp ht) hu

/-- The moments of a part of a run are moments of the run. -/
theorem Made.lift (h : Made H' s t) {rest : Moment} (hH : ∀ μ, H' μ → H (μ ++ rest)) :
    Made H s t := by
  intro id hs ht
  obtain ⟨μ, decl, hμ, hmakes⟩ := h id hs ht
  exact ⟨_, decl, hH μ hμ, hmakes.append rest⟩

theorem Made.mono (h : Made H' s t) (hH : ∀ μ, H' μ → H μ) : Made H s t := by
  intro id hs ht
  obtain ⟨μ, decl, hμ, hmakes⟩ := h id hs ht
  exact ⟨μ, decl, hH μ hμ, hmakes⟩

end Store

section Runs

open Store Script

variable {α β : Type} {H : Moment → Prop} {m : Machine} {fuel : Nat}

theorem Exec.made_bind {x : Exec β} {f : β → Exec α} (hx : Made H m.store (x.after m).store)
    (hf : ∀ b m', x m = .ok b m' → Made H m'.store ((f b).after m').store) :
    Made H m.store ((x >>= f).after m).store := by
  cases hresult : x m with
  | ok b m' =>
    rw [after_eq_of_ok hresult] at hx
    rw [Exec.after, bind_eq_of_ok hresult]
    exact hx.trans (hf b m' hresult)
  | error failure m' =>
    rw [after_eq_of_error hresult] at hx
    rwa [after_eq_of_error (bind_eq_of_error hresult)]

/-- Asking whether to stop leaves the state as it is. -/
theorem Exec.made_checkCancelled_bind {span : Span} {f : Unit → Exec α}
    (hf : Exec.checkCancelled span m = .ok () m → Made H m.store ((f ()).after m).store) :
    Made H m.store ((Exec.checkCancelled span >>= f).after m).store := by
  cases hset : m.cancellation.isSet with
  | true =>
    rw [after_eq_of_error (bind_eq_of_error (Exec.checkCancelled_of_isSet hset))]
    exact .refl H _
  | false =>
    have hpoll : Exec.checkCancelled span m = .ok () m := Exec.checkCancelled_of_not_isSet hset
    rw [Exec.after, Exec.bind_eq_of_ok hpoll]
    exact hf hpoll

theorem Exec.made_update {span : Span} {f : Store → Outcome α}
    (h : ∀ s, (f s).store.functions = s.functions) :
    Made H m.store ((update span f).after m).store := by
  have hm := h m.store
  refine .of_functions_eq ?_
  rw [Exec.after, update]
  cases hf : f m.store <;> rw [hf] at hm <;> exact hm

theorem Exec.after_fetch (name : String) (span : Span) (m : Machine) :
    (fetch name span).after m = m := by
  have hrun : fetch name span m = liftAt span (m.store.getVariable m.scope name) m := rfl
  rw [Exec.after, hrun]
  cases m.store.getVariable m.scope name <;> rfl

theorem Store.functions_define (s : Store) (id : ScopeId) (name : String) (binding : Binding) :
    (s.define id name binding).store.functions = s.functions := by
  rw [define]
  split <;> rfl

theorem Store.functions_assign (s : Store) (id : ScopeId) (name : String) (value : Value) :
    (s.assign id name value).store.functions = s.functions := by
  rw [assign]
  repeat' split
  all_goals rfl

/-- A step makes a function only if it is the declaration of a function. -/
theorem Step.made (s : Step α) (fuel : Nat) (m : Machine) :
    Made (· = [(.step s, m)]) m.store ((s.perform fuel).after m).store := by
  cases s with
  | operate span op => exact Exec.made_update fun s => (op.same s).functions
  | write id index value span =>
    exact Exec.made_update fun s => (s.sameCode_writeElement id index value).functions
  | compare left right =>
    cases h : m.store.equal? fuel left right with
    | some answer =>
      rw [Step.perform, Exec.after_eq_of_ok (Exec.compare_of_some h)]
      exact .refl _ _
    | none =>
      rw [Step.perform, Exec.after_eq_of_error (Exec.compare_of_none h)]
      exact .refl _ _
  | fetch name span | this span =>
    rw [Step.perform, Exec.after_fetch]
    exact .refl _ _
  | define name binding span =>
    exact Exec.made_update fun s => s.functions_define m.scope name binding
  | assign name value span =>
    exact Exec.made_update fun s => s.functions_assign m.scope name value
  | newFunction decl =>
    intro id hs ht
    refine ⟨_, decl, rfl, .intro ?_⟩
    have hid : id.index < m.store.functions.size + 1 := by
      rw [← Array.size_push]
      exact ht
    obtain ⟨index⟩ := id
    exact congrArg FunctionId.mk (Nat.le_antisymm (Nat.le_of_lt_succ hid) hs)
  | newClass decl => exact .of_functions_eq rfl
  | print | read => exact .refl _ _

theorem Exec.Repeats.snoc {turn : Exec (Option α)} {n : Nat} {m₁ m₂ : Machine}
    (h : Repeats turn n m m₁) (last : turn m₁ = .ok none m₂) : Repeats turn (n + 1) m m₂ := by
  induction h with
  | zero => exact .succ last .zero
  | succ first _ ih => exact .succ first (ih last)

/-- The turns of a loop that are left make functions at moments of the loop. -/
theorem Script.made_iterate {turn : Script (Option Signal)}
    (hturn : ∀ m, Made (Reaches fuel turn m) m.store ((turn.run fuel).after m).store)
    {left n : Nat} {m' : Machine} (hleft : n + left = fuel)
    (hdone : Exec.Repeats (turn.run fuel) n m m') :
    Made (Reaches fuel (loop turn) m) m'.store
      ((Exec.iterate (turn.run fuel) left).after m').store := by
  induction left generalizing n m' with
  | zero => exact .refl _ _
  | succ left ih =>
    refine Exec.made_bind ((hturn m').mono fun μ hμ => .loop (by omega) hdone hμ) ?_
    intro result m'' hresult
    cases result with
    | some a => exact .refl _ _
    | none => exact ih (by omega) (hdone.snoc hresult)

theorem Script.made_turn {span : Span} {conditional : Bool} {condition : Script Bool}
    {body increment : Script Signal}
    (hcondition : ∀ m, Made (Reaches fuel condition m) m.store
      ((condition.run fuel).after m).store)
    (hbody : ∀ m, Made (Reaches fuel body m) m.store ((body.run fuel).after m).store)
    (hincrement : ∀ m, Made (Reaches fuel increment m) m.store
      ((increment.run fuel).after m).store) (m : Machine) :
    Made (Reaches fuel (turn span conditional condition body increment) m) m.store
      (((turn span conditional condition body increment).run fuel).after m).store := by
  refine Exec.made_checkCancelled_bind fun hpoll => Exec.made_bind ?_ fun goOn m₁ hdecides => ?_
  · cases conditional with
    | true => exact (hcondition m).lift fun μ hμ => .condition hpoll hμ
    | false => exact .refl _ _
  · cases goOn with
    | false => exact .refl _ _
    | true =>
      refine Exec.made_bind ?_ fun signal m₂ hdone => ?_
      · rw [store_after_inBlock]
        exact (hbody m₁.enterBlock).lift fun μ hμ => .loopBody hpoll hdecides hμ
      · cases hafter : signal.afterBody with
        | some last => exact .refl _ _
        | none =>
          refine Exec.made_bind ?_ fun _ m₃ _ => .refl _ _
          exact (hincrement m₂).lift fun μ hμ => .increment hpoll hdecides hdone hafter hμ

/-- **Every function that a run makes is made at a moment that the run comes to.** -/
theorem Script.run_made (fuel : Nat) (x : Script α) (m : Machine) :
    Made (Reaches fuel x m) m.store ((x.run fuel).after m).store := by
  revert m
  refine run_induction (motive := fun fuel _ x => ∀ m,
    Made (Reaches fuel x m) m.store ((x.run fuel).after m).store)
    ?pure ?bind ?look ?step ?statement ?loop ?turn ?inBlock ?exhausted ?call ?inCall fuel x
  case pure => exact fun a m => .refl _ _
  case bind =>
    intro fuel α β x f ihx ihf m
    exact Exec.made_bind ((ihx m).mono fun μ hμ => .first hμ) fun b m' done =>
      (ihf b m').mono fun μ hμ => .next done hμ
  case look =>
    intro fuel α next ih m
    exact (ih m.scope m.store m).mono fun μ hμ => .look hμ
  case step =>
    intro fuel α s m
    exact (s.made fuel m).mono fun μ hμ => hμ ▸ .step
  case statement =>
    intro fuel α s x ih m
    exact Exec.made_checkCancelled_bind fun poll => (ih m).lift fun μ hμ => .statement poll hμ
  case loop =>
    intro fuel x ih m
    exact made_iterate ih (Nat.zero_add fuel) .zero
  case turn =>
    intro fuel span conditional condition body increment ihc ihb ihi m
    exact made_turn ihc ihb ihi m
  case inBlock =>
    intro fuel α x ih m
    show Made _ _ ((Exec.inBlock (x.run fuel)).after m).store
    rw [store_after_inBlock]
    exact (ih m.enterBlock).mono fun μ hμ => .inBlock hμ
  case exhausted => exact fun callable arguments span m => .refl _ _
  case call =>
    intro fuel callable arguments span ih m
    rw [run_call]
    exact (ih m).mono fun μ hμ => .call hμ
  case inCall =>
    intro fuel α activation decl arguments span body ih m
    by_cases room : m.depth < m.maxDepth
    · have hrun : (inCall activation decl arguments span body).run fuel m = _ :=
        run_inCall_room room
      cases hframe : m.store.frame decl activation.this? arguments with
      | error e =>
        rw [hframe] at hrun
        rw [Exec.after_eq_of_error hrun]
        exact .refl _ _
      | ok bindings =>
        rw [hframe] at hrun
        rw [store_after_of_leaving hrun fun _ => rfl]
        exact (ih (m.enterCall bindings (m.store.closure activation))).lift
          fun μ hμ => .body room hframe hμ
    · rw [Exec.after_eq_of_error (run_inCall_full (Nat.not_lt.mp room))]
      exact .refl _ _

end Runs

end Chalk
