import Chalk.Proofs.Composition
import Chalk.Proofs.Environment

/-!
# What an action leaves as it was

Blocks, loops and calls move to other scopes and count calls, and a failure can leave any number of
them at once. However an action ends, the state that it leaves behind has the scope and the depth of
calls that it started with. The scopes that were there before stay, and each holds the same names
with the same types as before, except for the names that the action may declare in the scope it
started in.

## Main definitions

* `Store.slot` — what a scope says of a name, its value apart
* `Machine.Keeps` — what an action leaves as it was
* `Machine.AtRest` — states between programs

## Main results

* `Exec.Composed.keeps` — actions composed of the operations of a run
* `Machine.control_restored` — the scope and the depth of calls after statements, expressions, calls
  and programs
-/

namespace Chalk

/-- What a scope says of a name: the declared type and whether it is a constant. -/
def Store.slot (s : Store) (id : ScopeId) (name : String) : Option (TypeTag × Bool) :=
  ((s.scope id).bindings.get? name).map fun b => (b.tag, b.constant)

namespace Store

variable {s t : Store} {id scope : ScopeId} {name other : String} {binding : Binding}
  {value : Value}

theorem slot_of_scopes_eq (h : t.scopes = s.scopes) (id : ScopeId) (name : String) :
    t.slot id name = s.slot id name := by
  rw [slot, slot, Store.scope, Store.scope, h]

theorem slot_newScope (s : Store) (fresh : Scope) (name : String)
    (h : id.index < s.scopes.size) : (s.newScope fresh).2.slot id name = s.slot id name := by
  rw [slot, slot, scope_newScope_of_lt h]

/-- A declaration says something of its own name in its own scope only. -/
theorem slot_define (h : s.define scope name binding = .ok () t) (hne : id ≠ scope ∨ other ≠ name) :
    t.slot id other = s.slot id other := by
  obtain ⟨-, rfl⟩ := define_eq_ok h
  rw [slot, slot, get?_setBindings_of_ne hne]

/-- An assignment changes nothing but a value. -/
theorem slot_assign (h : s.assign scope name value = .ok () t) (id : ScopeId) (other : String) :
    t.slot id other = s.slot id other := by
  obtain ⟨holder, old, -, hold, -, -, rfl⟩ := assign_eq_ok h
  by_cases hhere : id = holder ∧ other = name
  · obtain ⟨rfl, rfl⟩ := hhere
    rw [slot, slot, scope_setBindings_self (index_lt_of_get? hold), Bindings.get?_set_self, hold]
    rfl
  · rw [slot, slot, get?_setBindings_of_ne (Decidable.not_and_iff_not_or_not.mp hhere)]

end Store

namespace Machine

/-- What an action leaves as it was, if it declares no names but those in `names` in the scope that
it starts in. -/
structure Keeps (names : String → Prop) (m m' : Machine) : Prop where
  scope : m'.scope = m.scope
  depth : m'.depth = m.depth
  scopes : m.store.scopes.size ≤ m'.store.scopes.size
  slots : ∀ id name, id.index < m.store.scopes.size → (id = m.scope → ¬ names name) →
    m'.store.slot id name = m.store.slot id name

variable {names inner : String → Prop} {m m' m'' : Machine}

theorem Keeps.refl (names : String → Prop) (m : Machine) : m.Keeps names m :=
  ⟨rfl, rfl, Nat.le_refl _, fun _ _ _ _ => rfl⟩

theorem Keeps.trans (h : m.Keeps names m') (h' : m'.Keeps names m'') : m.Keeps names m'' where
  scope := h'.scope.trans h.scope
  depth := h'.depth.trans h.depth
  scopes := Nat.le_trans h.scopes h'.scopes
  slots id name hid hname :=
    (h'.slots id name (Nat.lt_of_lt_of_le hid h.scopes) (by rwa [h.scope])).trans
      (h.slots id name hid hname)

theorem Keeps.of_scopes_eq {store : Store} (h : store.scopes = m.store.scopes) :
    m.Keeps names { m with store } :=
  ⟨rfl, rfl, Nat.le_of_eq (congrArg Array.size h.symm),
    fun id name _ _ => Store.slot_of_scopes_eq h id name⟩

/-- What happens inside a block or a call is declared in the scope that was made for it, so the
scopes that were there before are the same when it is left. -/
theorem Keeps.leave {entered : Machine} {fresh : Scope} {depth : Nat}
    (h : entered.Keeps inner m') (hstore : entered.store = (m.store.newScope fresh).2)
    (hscope : entered.scope = (m.store.newScope fresh).1) (hdepth : depth = m.depth) :
    m.Keeps names { m' with scope := m.scope, depth } := by
  have hsize : entered.store.scopes.size = m.store.scopes.size + 1 := by
    rw [hstore, Store.newScope, Array.size_push]
  refine ⟨rfl, hdepth, ?_, fun id name hid _ => ?_⟩
  · show m.store.scopes.size ≤ m'.store.scopes.size
    have hgrown := h.scopes
    omega
  · have hold : id ≠ entered.scope := by
      rintro rfl
      rw [hscope] at hid
      exact Nat.lt_irrefl _ hid
    have hsame := h.slots id name (by omega) fun heq => absurd heq hold
    rw [hstore, Store.slot_newScope m.store fresh name hid] at hsame
    exact hsame

end Machine

namespace Exec

open Machine

variable {α β : Type} {names inner : String → Prop} {m : Machine}

/-- Both endings of the action keep what an action that declares `names` keeps. -/
def Keeping (names : String → Prop) (m : Machine) (x : Exec α) : Prop :=
  Meets m x (fun _ m' => m.Keeps names m') fun _ m' => m.Keeps names m'

theorem keeping_bind {x : Exec β} {f : β → Exec α} (hx : Keeping names m x)
    (hf : ∀ b m', Keeping names m' (f b)) : Keeping names m (x >>= f) := by
  refine meets_bind hx fun b m' hkeeps => ?_
  exact (hf b m').mono (fun _ _ h => hkeeps.trans h) fun _ _ h => hkeeps.trans h

theorem keeping_update {span : Span} {f : Store → Outcome α}
    (hok : ∀ a s, f m.store = .ok a s → m.Keeps names { m with store := s })
    (herror : ∀ e s, f m.store = .error e s → m.Keeps names { m with store := s }) :
    Keeping names m (update span f) :=
  meets_update hok herror

theorem keeping_define {name : String} {binding : Binding} {span : Span} (h : names name) :
    Keeping names m (define name binding span) := by
  refine meets_get_bind (keeping_update (fun _ s hdone => ?_) fun _ s hfail => ?_)
  · obtain ⟨-, rfl⟩ := Store.define_eq_ok hdone
    refine ⟨rfl, rfl, Nat.le_of_eq (Store.size_setBindings ..).symm, fun id other _ hother => ?_⟩
    refine Store.slot_define hdone ?_
    by_cases hid : id = m.scope
    · refine .inr ?_
      rintro rfl
      exact hother hid h
    · exact .inl hid
  · rw [Store.define_eq_error hfail]
    exact .refl names m

theorem keeping_assign {scope : ScopeId} {name : String} {value : Value} {span : Span} :
    Keeping names m (update span fun s => s.assign scope name value) := by
  refine keeping_update (fun _ s hdone => ?_) fun _ s hfail => ?_
  · refine ⟨rfl, rfl, ?_, fun id other _ _ => Store.slot_assign hdone id other⟩
    obtain ⟨holder, old, -, -, -, -, rfl⟩ := Store.assign_eq_ok hdone
    exact Nat.le_of_eq (Store.size_setBindings ..).symm
  · rw [Store.assign_eq_error hfail]
    exact .refl names m

theorem keeping_inBlock {x : Exec α} (h : ∀ m', Keeping inner m' x) :
    Keeping names m (inBlock x) := by
  have hleave : ∀ m', m.enterBlock.Keeps inner m' → m.Keeps names { m' with scope := m.scope } :=
    fun m' hin => hin.leave rfl rfl hin.depth
  exact meets_inBlock ((h m.enterBlock).mono (fun _ => hleave) fun _ => hleave)

theorem keeping_inCall {x : Exec α} {span : Span}
    {frame : Store → Except (Failure Fault) Bindings} {closure : ScopeId}
    (h : ∀ m', Keeping inner m' x) : Keeping names m (inCall span frame closure x) := by
  refine meets_get_bind ?_
  split
  · exact meets_fault (.refl names m)
  · refine meets_query_bind (fun bindings _ => ?_) fun _ _ => .refl names m
    refine meets_alter_bind (meets_deeper (meets_within ?_))
    -- The body ends at the depth that it starts at, so counting down gives the one outside.
    have hleave : ∀ m', (m.enterCall bindings closure).Keeps inner m' →
        m.Keeps names { m' with scope := m.scope, depth := m'.depth - 1 } :=
      fun m' hin => hin.leave rfl rfl (Nat.sub_eq_of_eq_add hin.depth)
    exact (h (m.enterCall bindings closure)).mono (fun _ => hleave) fun _ => hleave

/-- **Actions keep the control state and what is declared**, apart from the names that they may
declare in their own scope. -/
theorem Composed.keeps {x : Exec α} (h : Composed names x) (m : Machine) : Keeping names m x := by
  induction h generalizing m with
  | pure a => exact meets_pure (.refl _ m)
  | throw failure => exact meets_throw (.refl _ m)
  | bind _ _ ihx ihf => exact keeping_bind (ihx m) fun b m' => ihf b m'
  | look _ ih => exact meets_get_bind (ih m.scope m.store m)
  | alter same => exact Keeps.of_scopes_eq (same m.store)
  | @update _ _ _ f same =>
    refine keeping_update (fun a s hdone => .of_scopes_eq ?_) fun e s hfail => .of_scopes_eq ?_
    · have hsame := same m.store
      rwa [hdone] at hsame
    · have hsame := same m.store
      rwa [hfail] at hsame
  | define allowed => exact keeping_define allowed
  | assign => exact keeping_assign
  | print | read => exact ⟨rfl, rfl, Nat.le_refl _, fun _ _ _ _ => rfl⟩
  | checkCancelled => exact meets_checkCancelled (.refl _ m) (.refl _ m)
  | inBlock _ ih => exact keeping_inBlock ih
  | inCall _ ih => exact keeping_inCall ih

theorem Composed.keeps_after {x : Exec α} (h : Composed names x) (m : Machine) :
    m.Keeps names (x.after m) :=
  (h.keeps m).after (fun _ _ hkeeps => hkeeps) fun _ _ hkeeps => hkeeps

end Exec

/-! ## Between programs -/

namespace Machine

/-- The states in which a host can start a program: a fresh one, what a program leaves behind when
it has ended or failed, and what the host makes of either. The host has no way to move to another
scope or to count calls. -/
inductive AtRest : Machine → Prop where
  | start (maxDepth : Nat) (answers : List String) (cancellation : Cancellation) :
      AtRest (Machine.initial maxDepth answers cancellation)
  | program {m : Machine} (h : AtRest m) (fuel : Nat) (statements : List Stmt) :
      AtRest ((execute fuel statements).after m)
  | host {m : Machine} (h : AtRest m) (store : Store) (maxDepth : Nat) (answers : List String)
      (transcript : Array Event) (cancellation : Cancellation) :
      AtRest { m with store, maxDepth, answers, transcript, cancellation }

/-- **Every program starts in the outermost scope and outside of all calls**, whatever was run
before and however it ended. -/
theorem AtRest.control {m : Machine} (h : m.AtRest) : m.scope = Store.globals ∧ m.depth = 0 := by
  induction h with
  | start => exact ⟨rfl, rfl⟩
  | program _ fuel statements ih =>
    have hkeeps := (execute_composed fuel statements).keeps_after
    exact ⟨(hkeeps _).scope.trans ih.1, (hkeeps _).depth.trans ih.2⟩
  | host _ _ _ _ _ _ ih => exact ih

/-- **The control state is restored on every exit.** From any state, a statement, an expression, a
call or a program leaves behind the scope and the depth of calls that it found, however it ends. So
the states between programs are all in the outermost scope and outside of all calls. -/
theorem control_restored :
    (∀ (m : Machine) (calls fuel : Nat),
      (∀ s : Stmt, ((s.execute (invoke calls) fuel).after m).scope = m.scope ∧
        ((s.execute (invoke calls) fuel).after m).depth = m.depth) ∧
      (∀ e : Expr, ((e.evaluate (invoke calls) fuel).after m).scope = m.scope ∧
        ((e.evaluate (invoke calls) fuel).after m).depth = m.depth) ∧
      (∀ callable arguments span,
        ((invoke calls callable arguments span).after m).scope = m.scope ∧
          ((invoke calls callable arguments span).after m).depth = m.depth) ∧
      ∀ program, ((execute fuel program).after m).scope = m.scope ∧
        ((execute fuel program).after m).depth = m.depth) ∧
    ∀ m : Machine, m.AtRest → m.scope = Store.globals ∧ m.depth = 0 := by
  have hcontrol : ∀ {α : Type} {names : String → Prop} {x : Exec α} (m : Machine),
      Exec.Composed names x → (x.after m).scope = m.scope ∧ (x.after m).depth = m.depth :=
    fun m hx => ⟨(hx.keeps_after m).scope, (hx.keeps_after m).depth⟩
  refine ⟨fun m calls fuel => ⟨fun s => ?_, fun e => ?_, ?_, fun program => ?_⟩,
    fun m hm => hm.control⟩
  · exact hcontrol m (s.execute_composed (invoke_composed calls) fun _ hname => hname)
  · exact hcontrol m (e.evaluate_composed (invoke_composed calls) fun _ => False)
  · intro callable arguments span
    exact hcontrol m (invoke_composed calls (fun _ => False) callable arguments span)
  · exact hcontrol m (execute_composed fuel program)

/-- A function with a loop in whose body a name is missing, and a call of it. -/
def failsInside : List Stmt :=
  [.function ⟨"f", [], .void, [.whileLoop (.boolean true {}) [.print (.name "x" {}) {}] {}], {}⟩ {},
    .eval (.call (.name "f" {}) [] {}) {}]

theorem control_failsInside :
    ((execute 5 failsInside).after (Machine.initial 200 [] .never)).AtRest ∧
      ((execute 5 failsInside).after (Machine.initial 200 [] .never)).scope = Store.globals ∧
      ((execute 5 failsInside).after (Machine.initial 200 [] .never)).depth = 0 ∧
      ((execute 5 failsInside).after (Machine.initial 200 [] .never)).store.scopes.size = 3 := by
  have hrest : ((execute 5 failsInside).after (Machine.initial 200 [] .never)).AtRest :=
    .program (.start 200 [] .never) 5 failsInside
  obtain ⟨hscope, hdepth⟩ := control_restored.2 _ hrest
  exact ⟨hrest, hscope, hdepth, by with_unfolding_all rfl⟩

end Machine

end Chalk
