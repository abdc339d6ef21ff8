import Chalk.Proofs.Contract
import Chalk.Proofs.Preservation

/-!
# How the state of a run evolves

`Machine.Evolves` lists, once, everything that a run can do to its state: allocate an object, make
one of the five operations that change the store, print, read, and enter and leave blocks and calls.
A block or a call is one step from the outside: what happens inside it evolves from the state with
the fresh scope, and the current scope and the depth of calls are put back when it is left.

Every action of the evaluator evolves the state in this sense, whatever program it runs and however
it ends (`Exec.Evolves`). A property of all runs is then a property of these steps, proved
by induction on `Machine.Evolves` and never again by induction on programs.

## Main definitions

* `Machine.Closed`, `Machine.Extends` — states without dangling references, and later states
* `Machine.Evolves` — what a run can do to its state
* `Exec.Evolves` — actions that evolve the state and give known values

## Main results

* `Machine.Evolves.closed`, `Machine.Evolves.extends` — the two basic properties of every run
* `Stmt.execute_evolves`, `Expr.evaluate_evolves`, `invoke_evolves`, `execute_evolves` — evaluation
  evolves the state
-/

namespace Chalk

namespace Machine

/-- A state whose store has no dangling references and has the current scope. -/
structure Closed (m : Machine) : Prop where
  store : m.store.Closed
  scope : m.scope.index < m.store.scopes.size

/-- What a later state `m'` of a run has in common with `m`: the current scope, the depth of calls
and its bound are the same, and the store is a later one. -/
structure Extends (m m' : Machine) : Prop where
  store : m.store.Extends m'.store
  scope : m'.scope = m.scope
  depth : m'.depth = m.depth
  maxDepth : m'.maxDepth = m.maxDepth

/-- What a run can do to its state. -/
inductive Evolves : Machine → Machine → Prop where
  | refl (m : Machine) : Evolves m m
  | trans {a b c : Machine} (first : Evolves a b) (second : Evolves b c) : Evolves a c
  | newList {m : Machine} {elements : Array Value} (known : ∀ v ∈ elements, m.store.Knows v) :
      Evolves m { m with store := (m.store.newList elements).2 }
  | newDict {m : Machine} {entries : Entries}
      (known : ∀ entry ∈ entries, m.store.Knows entry.1 ∧ m.store.Knows entry.2) :
      Evolves m { m with store := (m.store.newDict entries).2 }
  | newFunction {m : Machine} (decl : Func) :
      Evolves m { m with store := (m.store.newFunction { decl, scope := m.scope }).2 }
  | newClass {m : Machine} (decl : Class) :
      Evolves m { m with store := (m.store.newClass { decl, scope := m.scope }).2 }
  | instantiate {m : Machine} {id : ClassId} (known : id.index < m.store.classes.size) :
      Evolves m { m with store := (m.store.instantiate id).2 }
  | define {m : Machine} {name : String} {binding : Binding} {store : Store}
      (known : m.store.Knows binding.value)
      (done : m.store.define m.scope name binding = .ok () store) : Evolves m { m with store }
  | assign {m : Machine} {name : String} {value : Value} {store : Store}
      (known : m.store.Knows value) (done : m.store.assign m.scope name value = .ok () store) :
      Evolves m { m with store }
  | writeItem {m : Machine} {fuel : Nat} {container index value : Value} {store : Store}
      (knownIndex : m.store.Knows index) (known : m.store.Knows value)
      (done : m.store.writeItem fuel container index value = .ok () store) :
      Evolves m { m with store }
  | writeField {m : Machine} {id : InstanceId} {name : String} {value : Value} {store : Store}
      (known : m.store.Knows value) (done : m.store.writeField id name value = .ok () store) :
      Evolves m { m with store }
  | callMethod {m : Machine} {fuel : Nat} {method : Method} {receiver result : Value}
      {arguments : List Value} {store : Store} (known : ∀ v ∈ arguments, m.store.Knows v)
      (done : m.store.callMethod fuel method receiver arguments = .ok result store) :
      Evolves m { m with store }
  | print {m : Machine} (text : String) :
      Evolves m { m with
        transcript := m.transcript.push (.print text), cancellation := m.cancellation.tick }
  | read {m : Machine} (prompt : String) :
      Evolves m { m with
        transcript := m.transcript.push (.read prompt), answers := m.answers.tail }
  | block {m m' : Machine} (inside : Evolves m.enterBlock m') :
      Evolves m { m' with scope := m.scope }
  | call {m m' : Machine} {decl : Func} {this : Option Value} {arguments : List Value}
      {bindings : Bindings} {closure : ScopeId}
      (known : ∀ v ∈ arguments, m.store.Knows v) (knownThis : ∀ v, this = some v → m.store.Knows v)
      (knownScope : closure.index < m.store.scopes.size)
      (bound : m.store.frame decl this arguments = .ok bindings)
      (inside : Evolves (m.enterCall bindings closure) m') :
      Evolves m { m' with scope := m.scope, depth := m'.depth - 1 }

/-! ## Runs lead to later states -/

theorem Extends.refl (m : Machine) : m.Extends m := ⟨.refl _, rfl, rfl, rfl⟩

theorem Extends.trans {a b c : Machine} (h : a.Extends b) (h' : b.Extends c) : a.Extends c :=
  ⟨h.store.trans h'.store, h'.scope.trans h.scope, h'.depth.trans h.depth,
    h'.maxDepth.trans h.maxDepth⟩

theorem Extends.ofStore {m : Machine} {store : Store} (h : m.store.Extends store) :
    m.Extends { m with store } :=
  ⟨h, rfl, rfl, rfl⟩

theorem extends_enterBlock (m : Machine) : m.store.Extends m.enterBlock.store :=
  Store.extends_newScope m.store _

theorem extends_enterCall (m : Machine) (bindings : Bindings) (closure : ScopeId) :
    m.store.Extends (m.enterCall bindings closure).store :=
  Store.extends_newScope m.store _

/-- **A run leads to a later state.** In particular the current scope and the depth of calls are the
same again when an action has ended. -/
theorem Evolves.extends {m m' : Machine} (h : m.Evolves m') : m.Extends m' := by
  induction h with
  | refl m => exact .refl m
  | trans _ _ ih₁ ih₂ => exact ih₁.trans ih₂
  | newList => exact .ofStore (Store.extends_newList _ _)
  | newDict => exact .ofStore (Store.extends_newDict _ _)
  | newFunction => exact .ofStore (Store.extends_newFunction _ _)
  | newClass => exact .ofStore (Store.extends_newClass _ _)
  | instantiate => exact .ofStore (Store.extends_newInstance _ _)
  | define _ done => exact .ofStore (Store.extends_define done)
  | assign _ done => exact .ofStore (Store.extends_assign done)
  | writeItem _ _ done => exact .ofStore (Store.extends_writeItem done)
  | writeField _ done => exact .ofStore (Store.extends_writeField done)
  | callMethod _ done => exact .ofStore (Store.extends_callMethod done)
  | print | read => exact ⟨.refl _, rfl, rfl, rfl⟩
  | @block m m' _ ih => exact ⟨(extends_enterBlock m).trans ih.store, rfl, ih.depth, ih.maxDepth⟩
  | @call m m' _ _ _ bindings closure _ _ _ _ _ ih =>
    exact ⟨(extends_enterCall m bindings closure).trans ih.store, rfl,
      Nat.sub_eq_of_eq_add ih.depth, ih.maxDepth⟩

/-! ## Runs keep states closed -/

theorem Closed.ofStore {m : Machine} {store : Store} (hm : m.Closed) (hstore : store.Closed)
    (hext : m.store.Extends store) : Closed { m with store } :=
  ⟨hstore, Nat.lt_of_lt_of_le hm.scope hext.scopes⟩

theorem Closed.enterBlock {m : Machine} (hm : m.Closed) : m.enterBlock.Closed where
  store := hm.store.newScope (fun parent hparent => by cases hparent; exact hm.scope)
    fun entry hmem => absurd hmem List.not_mem_nil
  scope := by simp [Machine.enterBlock, Store.childScope, Store.newScope]

theorem Closed.enterCall {m : Machine} (hm : m.Closed) {bindings : Bindings} {closure : ScopeId}
    (hclosure : closure.index < m.store.scopes.size)
    (hbindings : ∀ entry ∈ bindings, m.store.Knows entry.2.value) :
    (m.enterCall bindings closure).Closed where
  store := hm.store.newScope (fun parent hparent => by cases hparent; exact hclosure) hbindings
  scope := by simp [Machine.enterCall, Store.newScope]

/-- The variables of a call with known arguments hold known values. -/
theorem knows_frame {s : Store} {decl : Func} {this : Option Value} {arguments : List Value}
    {bindings : Bindings} (hargs : ∀ v ∈ arguments, s.Knows v)
    (hthis : ∀ v, this = some v → s.Knows v) (h : s.frame decl this arguments = .ok bindings) :
    ∀ entry ∈ bindings, s.Knows entry.2.value := by
  intro entry hmem
  rcases (Store.frame_values h entry hmem).2 with hreceiver | hargument
  · exact hthis _ hreceiver
  · exact hargs _ hargument

/-- **A run of a closed state keeps it closed.** -/
theorem Evolves.closed {m m' : Machine} (h : m.Evolves m') (hm : m.Closed) : m'.Closed := by
  induction h with
  | refl m => exact hm
  | trans _ _ ih₁ ih₂ => exact ih₂ (ih₁ hm)
  | newList known => exact hm.ofStore (hm.store.newList known) (Store.extends_newList _ _)
  | newDict known => exact hm.ofStore (hm.store.newDict known) (Store.extends_newDict _ _)
  | newFunction => exact hm.ofStore (hm.store.newFunction hm.scope) (Store.extends_newFunction _ _)
  | newClass => exact hm.ofStore (hm.store.newClass hm.scope) (Store.extends_newClass _ _)
  | instantiate known =>
    exact hm.ofStore (hm.store.instantiate known) (Store.extends_newInstance _ _)
  | define known done => exact hm.ofStore (hm.store.define known done) (Store.extends_define done)
  | assign known done => exact hm.ofStore (hm.store.assign known done) (Store.extends_assign done)
  | writeItem knownIndex known done =>
    exact hm.ofStore (hm.store.writeItem knownIndex known done) (Store.extends_writeItem done)
  | writeField known done =>
    exact hm.ofStore (hm.store.writeField known done) (Store.extends_writeField done)
  | callMethod known done =>
    exact hm.ofStore (hm.store.callMethod known done).1 (Store.extends_callMethod done)
  | print | read => exact ⟨hm.store, hm.scope⟩
  | @block m m' inside ih =>
    have hext := (extends_enterBlock m).trans inside.extends.store
    exact ⟨(ih hm.enterBlock).store, Nat.lt_of_lt_of_le hm.scope hext.scopes⟩
  | @call m m' _ _ _ bindings closure known knownThis knownScope bound inside ih =>
    have hin := hm.enterCall knownScope (knows_frame known knownThis bound)
    have hext := (extends_enterCall m bindings closure).trans inside.extends.store
    exact ⟨(ih hin).store, Nat.lt_of_lt_of_le hm.scope hext.scopes⟩

end Machine

/-! ## Actions that evolve the state -/

/-- The action evolves the state, and a result that it gives satisfies `val` in the store that it
leaves behind. -/
def Exec.Evolves {α : Type} (m : Machine) (x : Exec α) (val : α → Store → Prop) : Prop :=
  Meets m x (fun a m' => m.Evolves m' ∧ val a m'.store) (fun _ m' => m.Evolves m')

namespace Exec

variable {α β : Type} {m : Machine} {val : α → Store → Prop}

theorem evolves_pure {a : α} (h : val a m.store) : Evolves m (pure a) val :=
  meets_pure ⟨.refl m, h⟩

theorem evolves_throw {failure : Failure RuntimeError} :
    Evolves m (throw failure : Exec α) val :=
  meets_throw (.refl m)

theorem evolves_fault {f : Fault} {span : Span} : Evolves m (fault f span : Exec α) val :=
  meets_fault (.refl m)

/-- Sequencing: the second action starts in a closed state that is later than the first one. -/
theorem evolves_bind {x : Exec β} {f : β → Exec α} {mid : β → Store → Prop} (hm : m.Closed)
    (hx : Evolves m x mid)
    (hf : ∀ b m', m.Extends m' → m'.Closed → mid b m'.store → Evolves m' (f b) val) :
    Evolves m (x >>= f) val := by
  refine meets_bind (hx.mono (fun b m' h => h) fun _ m' h => h) ?_
  rintro b m' ⟨hev, hmid⟩
  refine (hf b m' hev.extends (hev.closed hm) hmid).mono ?_ fun _ _ h => hev.trans h
  rintro a m'' ⟨hev', ha⟩
  exact ⟨hev.trans hev', ha⟩

theorem evolves_get_bind {f : Machine → Exec α} (h : Evolves m (f m) val) :
    Evolves m (get >>= f) val := h

theorem evolves_store_bind {f : Store → Exec α} (h : Evolves m (f m.store) val) :
    Evolves m (store >>= f) val := h

/-- Sequencing after an allocation. -/
theorem evolves_alter_bind {f : Store → β × Store} {g : β → Exec α}
    (h : m.Evolves { m with store := (f m.store).2 })
    (hg : Evolves { m with store := (f m.store).2 } (g (f m.store).1) val) :
    Evolves m (alter f >>= g) val :=
  meets_alter_bind (hg.mono (fun _ _ h' => ⟨h.trans h'.1, h'.2⟩) fun _ _ h' => h.trans h')

theorem evolves_query {span : Span} {f : Store → Except (Failure Fault) α}
    (h : ∀ a, f m.store = .ok a → val a m.store) : Evolves m (query span f) val :=
  meets_query (fun a ha => ⟨.refl m, h a ha⟩) fun _ _ => .refl m

theorem evolves_update {span : Span} {f : Store → Outcome α}
    (hok : ∀ a s, f m.store = .ok a s → m.Evolves { m with store := s } ∧ val a s)
    (herror : ∀ e s, f m.store = .error e s → s = m.store) : Evolves m (update span f) val := by
  refine meets_update hok fun e s h => ?_
  rw [herror e s h]
  exact .refl m

theorem evolves_checkCancelled {span : Span} :
    Evolves m (checkCancelled span) fun _ _ => True :=
  meets_checkCancelled ⟨.refl m, trivial⟩ (.refl m)

theorem evolves_inBlock {x : Exec α} (h : Evolves m.enterBlock x val) :
    Evolves m (inBlock x) val :=
  meets_inBlock (h.mono (fun _ _ h' => ⟨.block h'.1, h'.2⟩) fun _ _ h' => .block h')

theorem evolves_iterate {turn : Exec (Option α)} (hm : m.Closed)
    (hturn : ∀ m', m.Extends m' → m'.Closed →
      Evolves m' turn fun r s => ∀ a, r = some a → val a s) (fuel : Nat) :
    Evolves m (iterate turn fuel) val := by
  refine meets_iterate (I := fun m' => m.Evolves m') (fun m' hev => ?_) (fun _ h => h) fuel
    (.refl m)
  refine (hturn m' hev.extends (hev.closed hm)).mono (fun r m'' h => ?_) fun _ _ h => hev.trans h
  cases r with
  | none => exact hev.trans h.1
  | some a => exact ⟨hev.trans h.1, h.2 a rfl⟩

end Exec

end Chalk
