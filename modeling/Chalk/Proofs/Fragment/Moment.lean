import Chalk.Proofs.Fragment.Run

/-!
# The moments of a run in a fragment

What holds at each moment of a run in a fragment, seen from its end. A name that the fragment does
not have means what it meant when the body around the moment began, since blocks and loops do not
bind it; and whatever is in the store at the moment is still there at the end of the run, so two
moments of one run can be compared there.

## Main definitions

* `Machine.Agrees` — later states, in which the names outside a fragment mean the same
* `Moment.Settled` — what holds at a moment of a run, seen from its end

## Main results

* `Script.Reaches.settled` — the moments of a run in a fragment are settled
-/

namespace Chalk

/-! ## Names outside a fragment -/

/-- A later state, in which the names that a fragment does not have mean the same. -/
structure Machine.Agrees (F : Fragment) (m m' : Machine) : Prop where
  retains : m.store.Retains F m'.store
  lookup : ∀ name, F.names name = false →
    m'.store.lookup m'.scope name = m.store.lookup m.scope name

namespace Machine

variable {F : Fragment} {m m' m'' : Machine}

theorem Agrees.refl (F : Fragment) (m : Machine) : m.Agrees F m :=
  ⟨.refl F m.store, fun _ _ => rfl⟩

theorem Agrees.trans (h : m.Agrees F m') (h' : m'.Agrees F m'') : m.Agrees F m'' :=
  ⟨h.retains.trans h'.retains, fun name hname => (h'.lookup name hname).trans (h.lookup name hname)⟩

theorem Stays.agrees (h : m.Stays F m') (hm : m.Within F) : m.Agrees F m' where
  retains := h.retains
  lookup name hname := by
    rw [h.scope]
    exact h.retains.lookup_eq hm.store hm.scope hname

/-- A name that is not bound in a fresh scope means what it means in the scope around it. -/
theorem lookup_fresh (hm : m.Within F) {bindings : Bindings} {parent : ScopeId} {name : String}
    (hparent : parent.index < m.store.scopes.size) (hname : F.names name = false)
    (hbindings : bindings.get? name = none) :
    (m.store.newScope { bindings, parent := some parent }).2.lookup
      (m.store.newScope { bindings, parent := some parent }).1 name =
        m.store.lookup parent name := by
  have hfresh := Store.scope_newScope m.store { bindings, parent := some parent }
  have hlt : parent.index < (m.store.newScope { bindings, parent := some parent }).1.index :=
    hparent
  rw [Store.lookup_of_parent (by rw [hfresh]; exact hbindings) (by rw [hfresh]) hlt]
  exact (Store.retains_newScope m.store _).lookup_eq hm.store hparent hname

theorem agrees_enterBlock (hm : m.Within F) : m.Agrees F m.enterBlock where
  retains := Store.retains_newScope m.store _
  lookup _ hname := lookup_fresh hm hm.scope hname rfl

end Machine

/-! ## Settled moments -/

/-- The state is the one in which a body begins, and the declaration of the body is in the
fragment. -/
def Machine.Begins (F : Fragment) (activation : Activation) (decl : Func) (m : Machine) : Prop :=
  ∃ (m₀ : Machine) (arguments : List Value) (bindings : Bindings),
    m₀.Within F ∧ Stmt.withinFunc F decl = true ∧
      m₀.store.frame decl activation.this? arguments = .ok bindings ∧
        m = m₀.enterCall bindings (m₀.store.closure activation)

/-- At the end there is the function that the step makes, if it makes one. -/
def Step.Settled (final : Store) (m : Machine) : {α : Type} → Step α → Prop
  | _, .newFunction decl =>
    m.store.functions.size < final.functions.size ∧
      final.function ⟨m.store.functions.size⟩ = { decl, scope := m.scope }
  | _, _ => True

/-- What a note says about the state in which it begins, and about the store at the end. -/
def Note.Settled (F : Fragment) (final : Store) (m : Machine) : Note → Prop
  | .step s => s.Settled final m
  | .call _ decl _ => Stmt.withinFunc F decl = true
  | .body activation decl => m.Begins F activation decl
  | _ => True

/-- A moment of a run in a fragment that begins in the state `m` and leaves the store `final`
behind. -/
structure Moment.Settled (F : Fragment) (final : Store) (m : Machine) (μ : Moment) : Prop where
  within : ∀ n ∈ μ, n.2.Within F
  retains : ∀ n ∈ μ, n.2.store.Retains F final
  settled : ∀ n ∈ μ, n.1.Settled F final n.2
  agrees : (μ.frame m).Agrees F (μ.state m)

namespace Moment

variable {F : Fragment} {final final' : Store} {m m' : Machine} {μ rest : Moment} {n : Note}

theorem Settled.nil (F : Fragment) (final : Store) (m : Machine) : Settled F final m [] where
  within _ h := absurd h List.not_mem_nil
  retains _ h := absurd h List.not_mem_nil
  settled _ h := absurd h List.not_mem_nil
  agrees := .refl F m

theorem Settled.cons (h : Settled F final m μ) (hm' : m'.Within F)
    (hretains : m'.store.Retains F final) (hn : n.Settled F final m')
    (hagrees : (frame m ((n, m') :: μ)).Agrees F m') : Settled F final m ((n, m') :: μ) where
  within := List.forall_mem_cons.mpr ⟨hm', h.within⟩
  retains := List.forall_mem_cons.mpr ⟨hretains, h.retains⟩
  settled := List.forall_mem_cons.mpr ⟨hn, h.settled⟩
  agrees := hagrees

/-- What is there at the end of a part of a run is there at the end of the run. -/
theorem Settled.later (h : Settled F final m μ) (hlater : final.Retains F final') :
    Settled F final' m μ where
  within := h.within
  retains n hn := (h.retains n hn).trans hlater
  settled := by
    intro ⟨n, m'⟩ hn
    have hsettled := h.settled _ hn
    cases n with
    | step s =>
      cases s with
      | newFunction decl =>
        obtain ⟨hlt, hfunction⟩ := hsettled
        exact ⟨Nat.lt_of_lt_of_le hlt hlater.functions, (hlater.function _ hlt).trans hfunction⟩
      | _ => trivial
    | _ => exact hsettled
  agrees := h.agrees

/-- A moment of what follows is a moment of the whole. -/
theorem Settled.after (h : Settled F final m' μ) (hagrees : m.Agrees F m') :
    Settled F final m μ :=
  { h with
    agrees := by
      have hinside := h.agrees
      cases μ with
      | nil => exact .refl F m
      | cons n μ =>
        rw [frame] at hinside ⊢
        cases hbody : body? (n :: μ) with
        | none =>
          rw [hbody] at hinside
          exact hagrees.trans hinside
        | some found =>
          rw [hbody] at hinside
          exact hinside }

theorem Settled.append (h : Settled F final m' μ) (hrest : Settled F final m ((n, m') :: rest)) :
    Settled F final m (μ ++ (n, m') :: rest) where
  within := List.forall_mem_append.mpr ⟨h.within, hrest.within⟩
  retains := List.forall_mem_append.mpr ⟨h.retains, hrest.retains⟩
  settled := List.forall_mem_append.mpr ⟨h.settled, hrest.settled⟩
  agrees := by
    have hinside := h.agrees
    rw [state_append_cons, frame, body?_append]
    rw [frame] at hinside
    cases hbody : body? μ with
    | none =>
      rw [hbody] at hinside
      exact hrest.agrees.trans hinside
    | some found =>
      rw [hbody] at hinside
      exact hinside

end Moment

/-! ## Runs -/

section Runs

open Machine Moment Script

variable {α β : Type} {F : Fragment} {fuel : Nat} {m m' : Machine}

theorem Exec.Stays.after {x : Exec α} (h : Stays F m x) : m.Stays F (x.after m) :=
  Meets.after h (fun _ _ hstays => hstays) fun _ _ hstays => hstays

theorem Exec.Stays.ok {x : Exec α} {a : α} (h : Stays F m x) (hx : x m = .ok a m') :
    m.Stays F m' :=
  Meets.ok h hx

/-- What the first part of a sequence leaves behind is there at the end. -/
theorem Exec.retains_bind {x : Exec β} {f : β → Exec α}
    (hf : ∀ b m', x m = .ok b m' → Stays F m' (f b)) :
    (x.after m).store.Retains F ((x >>= f).after m).store := by
  cases hresult : x m with
  | ok b m' =>
    rw [after_eq_of_ok hresult, Exec.after, bind_eq_of_ok hresult]
    exact (hf b m' hresult).after.retains
  | error failure m' =>
    rw [after_eq_of_error hresult, after_eq_of_error (bind_eq_of_error hresult)]
    exact .refl F _

theorem Step.settled_after (s : Step α) (m : Machine) :
    s.Settled ((s.perform fuel).after m).store m := by
  cases s with
  | newFunction decl =>
    refine ⟨?_, Store.function_newFunction m.store { decl, scope := m.scope }⟩
    show m.store.functions.size < (m.store.functions.push _).size
    rw [Array.size_push]
    exact Nat.lt_succ_self _
  | _ => trivial

namespace Script

theorem stays_decides {conditional : Bool} {condition : Script Bool} {calls : Bool}
    (hx : condition.Within F calls) (hm : m.Within F) :
    Exec.Stays F m (Exec.decides conditional (condition.run fuel)) := by
  cases conditional with
  | true => exact run_stays fuel condition calls m hx hm
  | false => exact Exec.meets_pure (.refl hm)

section Turns

variable {span : Span} {conditional calls : Bool} {condition : Script Bool}
  {body increment : Script Signal}

/-- What the condition of a loop leaves behind is there at the end of the turn. -/
theorem retains_condition (hx : (turn span conditional condition body increment).Within F calls)
    (hm : m.Within F) (poll : Exec.checkCancelled span m = .ok () m) :
    ((Exec.decides conditional (condition.run fuel)).after m).store.Retains F
      (((turn span conditional condition body increment).run fuel).after m).store := by
  obtain ⟨-, hcondition, hbody, hincrement⟩ := hx
  have hrun : (turn span conditional condition body increment).run fuel m = _ :=
    Exec.bind_eq_of_ok poll
  rw [Exec.after_congr hrun]
  refine Exec.retains_bind fun goOn m' hgoOn => ?_
  exact Exec.stays_afterCondition ((stays_decides hcondition hm).ok hgoOn).within
    (fun m' hm' => run_stays fuel body calls m' hbody hm')
    (fun m' hm' => run_stays fuel increment calls m' hincrement hm') goOn

/-- What the body of a loop leaves behind is there at the end of the turn. -/
theorem retains_loopBody (hx : (turn span conditional condition body increment).Within F calls)
    (hm' : m'.Within F) (poll : Exec.checkCancelled span m = .ok () m)
    (holds : Exec.decides conditional (condition.run fuel) m = .ok true m') :
    ((body.run fuel).after m'.enterBlock).store.Retains F
      (((turn span conditional condition body increment).run fuel).after m).store := by
  obtain ⟨-, -, hbody, hincrement⟩ := hx
  have hrun : (turn span conditional condition body increment).run fuel m = _ :=
    (Exec.bind_eq_of_ok poll).trans (Exec.bind_eq_of_ok holds)
  rw [Exec.after_congr hrun, ← store_after_inBlock]
  refine Exec.retains_bind fun signal m'' hdone => ?_
  have hblock := Exec.stays_inBlock hm' (run_stays fuel body calls _ hbody (within_enterBlock hm'))
  exact Exec.stays_afterBody (hblock.ok hdone).within
    (fun m' hm' => run_stays fuel increment calls m' hincrement hm') signal

/-- What the increment of a loop leaves behind is there at the end of the turn. -/
theorem retains_increment {m'' : Machine} {signal : Signal}
    (hx : (turn span conditional condition body increment).Within F calls) (hm'' : m''.Within F)
    (poll : Exec.checkCancelled span m = .ok () m)
    (holds : Exec.decides conditional (condition.run fuel) m = .ok true m')
    (done : Exec.inBlock (body.run fuel) m' = .ok signal m'') (goesOn : signal.afterBody = none) :
    ((increment.run fuel).after m'').store.Retains F
      (((turn span conditional condition body increment).run fuel).after m).store := by
  have hrun : (turn span conditional condition body increment).run fuel m = _ :=
    (Exec.bind_eq_of_ok poll).trans ((Exec.bind_eq_of_ok holds).trans (Exec.bind_eq_of_ok done))
  rw [Exec.after_congr hrun, goesOn]
  refine Exec.retains_bind fun _ m₁ hdone => Exec.meets_pure (.refl ?_)
  exact ((run_stays fuel increment calls m'' hx.2.2.2 hm'').ok hdone).within

end Turns

theorem stays_repeats {turn : Exec (Option α)} {n : Nat} (h : Exec.Repeats turn n m m')
    (hturn : ∀ m, m.Within F → Exec.Stays F m turn) (hm : m.Within F) : m.Stays F m' := by
  induction h with
  | zero => exact .refl hm
  | succ first _ ih =>
    have hfirst := (hturn _ hm).ok first
    exact hfirst.trans (ih hfirst.within)

/-- What a turn of a loop leaves behind is there at the end of the loop. -/
theorem retains_loop {x : Script (Option Signal)} {calls : Bool} {n : Nat}
    (hx : x.Within F calls) (hm' : m'.Within F) (left : n < fuel)
    (turns : Exec.Repeats (x.run fuel) n m m') :
    ((x.run fuel).after m').store.Retains F (((loop x).run fuel).after m).store := by
  obtain ⟨k, hk⟩ : ∃ k, fuel - n = k + 1 := ⟨fuel - n - 1, by omega⟩
  have hrun : (loop x).run fuel m = Exec.iterate (x.run fuel) (k + 1) m' := by
    rw [← hk]
    exact iterate_of_repeats turns left
  rw [Exec.after_congr hrun]
  refine Exec.retains_bind fun result m'' hresult => ?_
  have hm'' := ((run_stays fuel x calls m' hx hm').ok hresult).within
  cases result with
  | some a => exact Exec.meets_pure (.refl hm'')
  | none =>
    exact Exec.stays_iterate hm'' (fun m' hm' => run_stays fuel x calls m' hx hm') k

/-- A note that begins where the run begins. -/
theorem settled_here {x : Script α} {calls : Bool} {n : Note} (hx : x.Within F calls)
    (hm : m.Within F) (hn : n.Settled F ((x.run fuel).after m).store m) :
    Moment.Settled F ((x.run fuel).after m).store m [(n, m)] := by
  refine .cons (.nil F _ m) hm (run_stays fuel x calls m hx hm).after.retains hn ?_
  cases n <;> exact .refl F m

/-- **The moments of a run in a fragment are settled.** -/
theorem Reaches.settled {x : Script α} {μ : Moment} (h : Reaches fuel x m μ) (calls : Bool)
    (hx : x.Within F calls) (hm : m.Within F) :
    μ.Settled F ((x.run fuel).after m).store m := by
  induction h generalizing calls with
  | start => exact .nil F _ _
  | @first fuel _ _ x f m _ _ ih =>
    refine (ih calls hx.1 hm).later (Exec.retains_bind fun b m' hdone => ?_)
    have hm' := ((run_stays fuel x calls m hx.1 hm).ok hdone).within
    exact run_stays fuel (f b) calls m' (hx.2 b) hm'
  | @next fuel _ _ x f m m' b _ done _ ih =>
    have hstays := (run_stays fuel x calls m hx.1 hm).ok done
    rw [Exec.after_congr (run_bind_ok done)]
    exact (ih calls (hx.2 b) hstays.within).after (hstays.agrees hm)
  | @look _ _ next m _ _ ih => exact ih calls (hx m.scope m.store hm.store) hm
  | @step fuel _ s m => exact settled_here hx hm (s.settled_after m)
  | @statement fuel _ s x m _ poll _ ih =>
    have hinside := ih calls hx hm
    rw [← Exec.after_congr (run_statement_ok poll)] at hinside
    exact hinside.append (settled_here hx hm trivial)
  | @loop fuel n turn m m' _ left turns _ ih =>
    have hstays := stays_repeats turns (fun m hm => run_stays fuel turn calls m hx.2 hm) hm
    have hinside := (ih calls hx.2 hstays.within).later (retains_loop hx.2 hstays.within left turns)
    exact hinside.after (hstays.agrees hm)
  | turn poll => exact settled_here hx hm trivial
  | @condition fuel span condition body increment m _ poll _ ih =>
    have hinside := (ih calls hx.2.1 hm).later (retains_condition hx hm poll)
    exact hinside.append (.cons (settled_here hx hm trivial) hm
      (run_stays fuel _ calls m hx hm).after.retains trivial (.refl F m))
  | @loopBody fuel span conditional condition body increment m m' _ poll holds _ ih =>
    have hstays := (stays_decides hx.2.1 hm).ok holds
    have hblock := within_enterBlock hstays.within
    have hretains := retains_loopBody hx hstays.within poll holds
    refine ((ih calls hx.2.2.1 hblock).later hretains).append
      (.cons (settled_here hx hm trivial) hblock ?_ trivial ?_)
    · exact (run_stays fuel body calls _ hx.2.2.1 hblock).after.retains.trans hretains
    · exact (hstays.agrees hm).trans (agrees_enterBlock hstays.within)
  | @increment fuel _ _ _ body _ m _ _ _ _ poll holds done goesOn _ ih =>
    have hholds := (stays_decides hx.2.1 hm).ok holds
    have hbody := run_stays fuel body calls _ hx.2.2.1 (within_enterBlock hholds.within)
    have hstays := hholds.trans ((Exec.stays_inBlock hholds.within hbody).ok done)
    have hinside := (ih calls hx.2.2.2 hstays.within).later
      (retains_increment hx hstays.within poll holds done goesOn)
    exact (hinside.after (hstays.agrees hm)).append (settled_here hx hm trivial)
  | @inBlock fuel _ x m _ _ ih =>
    have hinside := ih calls hx (within_enterBlock hm)
    rw [← store_after_inBlock] at hinside
    exact hinside.after (agrees_enterBlock hm)
  | @call fuel callable arguments span m _ _ ih =>
    rw [run_call]
    exact ih calls (within_ofCall callable arguments span) hm
  | binding room => exact settled_here hx hm hx.1
  | @body fuel _ activation decl arguments span body m bindings _ room bound _ ih =>
    have hbegins : (m.enterCall bindings (m.store.closure activation)).Begins F activation decl :=
      ⟨m, arguments, bindings, hm, hx.1, bound, rfl⟩
    have hm' : (m.enterCall bindings (m.store.closure activation)).Within F :=
      within_enterCall hm (hm.store.closure_lt activation)
    have hrun : (inCall activation decl arguments span body).run fuel m = _ :=
      run_inCall_room room
    rw [bound] at hrun
    have hstore := store_after_of_leaving hrun fun _ => rfl
    have hinside := ih true hx.2 hm'
    have hretains := (run_stays fuel body true _ hx.2 hm').after.retains
    rw [← hstore] at hinside hretains
    exact hinside.append (.cons (settled_here hx hm hx.1) hm' hretains hbegins (.refl F _))

end Script

end Runs

end Chalk
