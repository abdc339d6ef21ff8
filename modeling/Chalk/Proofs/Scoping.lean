import Chalk.Proofs.Evaluation
import Chalk.Proofs.Failure
import Chalk.Proofs.Lexical

/-!
# States that fit a place of a checked program

The check of a program works with a `Context`: the names that it takes to be declared at a place. A
run works with a scope, and a name that the check lets pass may still be missing there, because a
function or class counts as declared in its whole block and is bound only when its declaration is
executed. `Store.Serves` says how far the two agree: what is visible is bound or declared in a block
around the place, and what is bound at the place can be looked up.

A function runs long after its declaration, so its scope has to serve the place of the declaration
then. It does, since names stay bound; `Store.Checked` says so of every function and method in the
store, and `Machine.Fits` adds it to what a state needs in order to go on from a place.

## Main definitions

* `Store.Serves` — a scope agrees with the context of a place
* `Store.Checked` — the functions and methods of a store have passed the check
* `Machine.Fits` — a state in which execution can go on from a place
* `Clashes` — an assignment writes into a list that its index contains
* `Excused` — the failures that a checked program can end with
* `Exec.Checked` — actions that keep the functions checked and fail only with an excuse

## Main results

* `Store.Serves.later`, `Store.Serves.enterBlock`, `Store.Serves.enterCall` — later stores, blocks
  and calls
* `Exec.checked_bind`, `Exec.checked_inBlock`, `Exec.checked_iterate` — the rules for actions
-/

namespace Chalk

/-! ## Scopes and contexts -/

/-- A scope agrees with the context of a place. -/
structure Store.Serves (s : Store) (scope : ScopeId) (c : Context) (p : Place) : Prop where
  visible : ∀ name ∈ c.visible, name ∈ p.bound ∨ Hoisted p.blocks name
  bound : ∀ name ∈ p.bound, (s.lookup scope name).isSome
  this : c.inMethod → (s.lookup scope "this").isSome

namespace Store

variable {s t : Store} {scope : ScopeId} {c : Context} {p : Place}

theorem Serves.later (h : s.Serves scope c p) (hext : s.Extends t) : t.Serves scope c p where
  visible := h.visible
  bound name hname := hext.isSome_lookup (h.bound name hname)
  this hmethod := hext.isSome_lookup (h.this hmethod)

theorem Serves.declare (h : s.Serves scope c p) {names : List String}
    (hnames : ∀ name ∈ names, (s.lookup scope name).isSome) :
    s.Serves scope (c.declare names) (p.declare names) where
  visible name hname := by
    rcases List.mem_append.mp hname with hnew | hold
    · exact .inl (List.mem_append_left _ hnew)
    · exact (h.visible name hold).imp_left (List.mem_append_right _)
  bound name hname := by
    rcases List.mem_append.mp hname with hnew | hold
    · exact hnames name hnew
    · exact h.bound name hold
  this := h.this

theorem Serves.enterLoop (h : s.Serves scope c p) : s.Serves scope c.enterLoop p :=
  ⟨h.visible, h.bound, h.this⟩

/-- Names of functions and classes that the blocks around a place declare may be visible there. -/
theorem Serves.declareHoisted (h : s.Serves scope c p) {names : List String}
    (hnames : ∀ name ∈ names, Hoisted p.blocks name) : s.Serves scope (c.declare names) p where
  visible name hname := by
    rcases List.mem_append.mp hname with hnew | hold
    · exact .inr (hnames name hnew)
    · exact h.visible name hold
  bound := h.bound
  this := h.this

theorem Serves.enter (h : s.Serves scope c p) (body : List Stmt) :
    s.Serves scope c (p.enter body) where
  visible name hname := (h.visible name hname).imp_right fun hh => hh.cons body
  bound := h.bound
  this := h.this

/-- At the start of a block its functions and classes become visible. -/
theorem Serves.hoist (h : s.Serves scope c p) (body : List Stmt) :
    s.Serves scope (c.declare (body.flatMap Stmt.hoisted)) (p.enter body) :=
  (h.enter body).declareHoisted fun _ hname => hoisted_of_mem_flatMap hname p.blocks

/-- A name can be looked up in a fresh scope if it is bound there or can be looked up in the scope
around it. -/
theorem isSome_lookup_newScope {bindings : Bindings} {parent : ScopeId} {name : String}
    (hparent : parent.index < s.scopes.size)
    (h : (bindings.get? name).isSome ∨ (s.lookup parent name).isSome) :
    ((s.newScope { bindings, parent := some parent }).2.lookup
      (s.newScope { bindings, parent := some parent }).1 name).isSome := by
  have hscope := scope_newScope s { bindings, parent := some parent }
  have hext := extends_newScope s { bindings, parent := some parent }
  have hlt : parent.index < (s.newScope { bindings, parent := some parent }).1.index := hparent
  generalize s.newScope { bindings, parent := some parent } = fresh at *
  cases hb : bindings.get? name with
  | some b =>
    rw [lookup_of_bound (by rw [hscope]; exact hb)]
    rfl
  | none =>
    rw [hb] at h
    rw [lookup_of_parent (by rw [hscope]; exact hb) (by rw [hscope]) hlt]
    exact hext.isSome_lookup (h.resolve_left nofun)

end Store

theorem Store.Serves.enterBlock {m : Machine} {c : Context} {p : Place}
    (h : m.store.Serves m.scope c p) (hm : m.Closed) :
    m.enterBlock.store.Serves m.enterBlock.scope c p where
  visible := h.visible
  bound name hname := isSome_lookup_newScope hm.scope (.inr (h.bound name hname))
  this hmethod := isSome_lookup_newScope hm.scope (.inr (h.this hmethod))

/-- The fresh scope of a call serves the place inside the function: the parameters are bound, and so
is `this` in a method. -/
theorem Store.Serves.enterCall {m : Machine} {c : Context} {p : Place} {closure : ScopeId}
    {decl : Func} {isMethod : Bool} {bindings : Bindings} (h : m.store.Serves closure c p)
    (hclosure : closure.index < m.store.scopes.size)
    (hparams : ∀ param ∈ decl.params, (bindings.get? param.name).isSome)
    (hthis : isMethod → (bindings.get? "this").isSome) :
    (m.enterCall bindings closure).store.Serves (m.enterCall bindings closure).scope
      (c.enterFunction decl.params isMethod) (p.declare decl.paramNames) where
  visible name hname := by
    rcases List.mem_append.mp hname with hparam | hold
    · exact .inl (List.mem_append_left _ hparam)
    · exact (h.visible name hold).imp_left (List.mem_append_right _)
  bound name hname := by
    rcases List.mem_append.mp hname with hparam | hold
    · obtain ⟨param, hmem, rfl⟩ := List.mem_map.mp hparam
      exact isSome_lookup_newScope hclosure (.inl (hparams param hmem))
    · exact isSome_lookup_newScope hclosure (.inr (h.bound name hold))
  this hmethod := by
    rcases Bool.or_eq_true_iff.mp hmethod with houter | hinner
    · exact isSome_lookup_newScope hclosure (.inr (h.this houter))
    · exact isSome_lookup_newScope hclosure (.inl (hthis hinner))

/-! ## Checked functions -/

/-- A function has passed the check at the place of its declaration, and its scope serves that
place. -/
def Store.CheckedFunc (program : List Stmt) (s : Store) (scope : ScopeId) (isMethod : Bool)
    (decl : Func) : Prop :=
  ∃ c p, s.Serves scope c p ∧ Stmt.violationsFunc c isMethod decl = [] ∧
    StandsAt program ((p.declare decl.paramNames).enter decl.body) decl.body

/-- All functions and methods of a store have passed the check. -/
structure Store.Checked (program : List Stmt) (s : Store) : Prop where
  functions : ∀ id : FunctionId, id.index < s.functions.size →
    s.CheckedFunc program (s.function id).scope false (s.function id).decl
  methods : ∀ id : ClassId, id.index < s.classes.size → ∀ method ∈ (s.classObject id).decl.methods,
    s.CheckedFunc program (s.classObject id).scope true method

namespace Store

variable {program : List Stmt} {s t : Store}

theorem CheckedFunc.later {scope : ScopeId} {isMethod : Bool} {decl : Func}
    (h : s.CheckedFunc program scope isMethod decl) (hext : s.Extends t) :
    t.CheckedFunc program scope isMethod decl := by
  obtain ⟨c, p, hserves, hrest⟩ := h
  exact ⟨c, p, hserves.later hext, hrest⟩

/-- A later store with the same functions and classes. -/
theorem Checked.later (h : s.Checked program) (hext : s.Extends t)
    (hfunctions : t.functions.size = s.functions.size)
    (hclasses : t.classes.size = s.classes.size) : t.Checked program where
  functions id hid := by
    rw [hfunctions] at hid
    rw [hext.function id hid]
    exact (h.functions id hid).later hext
  methods id hid method hmethod := by
    rw [hclasses] at hid
    rw [hext.classObject id hid] at hmethod ⊢
    exact (h.methods id hid method hmethod).later hext

theorem Checked.newFunction (h : s.Checked program) {closure : Closure}
    (hnew : s.CheckedFunc program closure.scope false closure.decl) :
    (s.newFunction closure).2.Checked program where
  functions id hid := by
    have hext := extends_newFunction s closure
    rcases index_newFunction_cases hid with hold | rfl
    · rw [hext.function id hold]
      exact (h.functions id hold).later hext
    · rw [function_newFunction]
      exact hnew.later hext
  methods id hid method hmethod :=
    (h.methods id hid method hmethod).later (extends_newFunction s closure)

theorem Checked.newClass (h : s.Checked program) {object : ClassObject}
    (hnew : ∀ method ∈ object.decl.methods, s.CheckedFunc program object.scope true method) :
    (s.newClass object).2.Checked program where
  functions id hid := (h.functions id hid).later (extends_newClass s object)
  methods id hid method hmethod := by
    have hext := extends_newClass s object
    rcases index_newClass_cases hid with hold | rfl
    · rw [hext.classObject id hold] at hmethod ⊢
      exact (h.methods id hold method hmethod).later hext
    · rw [classObject_newClass] at hmethod ⊢
      exact (hnew method hmethod).later hext

theorem Checked.define (h : s.Checked program) {id : ScopeId} {name : String} {binding : Binding}
    (hdone : s.define id name binding = .ok () t) : t.Checked program := by
  have hext := extends_define hdone
  obtain ⟨-, rfl⟩ := define_eq_ok hdone
  exact h.later hext rfl rfl

theorem Checked.assign (h : s.Checked program) {id : ScopeId} {name : String} {value : Value}
    (hdone : s.assign id name value = .ok () t) : t.Checked program := by
  have hext := extends_assign hdone
  obtain ⟨holder, old, -, -, -, -, rfl⟩ := assign_eq_ok hdone
  exact h.later hext rfl rfl

theorem Checked.writeItem (h : s.Checked program) {fuel : Nat} {container index value : Value}
    (hdone : s.writeItem fuel container index value = .ok () t) : t.Checked program := by
  have hext := extends_writeItem hdone
  rcases writeItem_eq_ok hdone with ⟨id, place, -, rfl⟩ | ⟨id, entries, -, -, rfl⟩
  · exact h.later hext rfl rfl
  · exact h.later hext rfl rfl

theorem Checked.writeField (h : s.Checked program) {id : InstanceId} {name : String} {value : Value}
    (hdone : s.writeField id name value = .ok () t) : t.Checked program := by
  have hext := extends_writeField hdone
  obtain ⟨field, -, -, rfl⟩ := writeField_eq_ok hdone
  exact h.later hext rfl rfl

theorem Checked.callMethod (h : s.Checked program) {fuel : Nat} {method : Method}
    {receiver v : Value} {arguments : List Value}
    (hdone : s.callMethod fuel method receiver arguments = .ok v t) : t.Checked program := by
  have hext := extends_callMethod hdone
  rcases callMethod_eq_ok hdone with ⟨id, -, rfl⟩ | ⟨id, -, rfl⟩ | ⟨-, rfl⟩ | ⟨id, -, rfl⟩ |
    ⟨id, place, entry, -, -, rfl⟩
  · exact h.later hext rfl rfl
  · exact h.later hext rfl rfl
  · exact h
  · exact h.later hext rfl rfl
  · exact h.later hext rfl rfl

end Store

/-! ## States and failures -/

/-- A state in which execution can go on from a place that has passed the check. -/
structure Machine.Fits (program : List Stmt) (c : Context) (p : Place) (m : Machine) : Prop where
  closed : m.Closed
  checked : m.store.Checked program
  serves : m.store.Serves m.scope c p

/-- The assignment `container[position] = value`, started in `m₀`, comes to write into a list that
is in use: its parts have been evaluated in order, up to the state `m`, the container to a list and
the position to a value that is no number and contains this list. -/
def Clashes (container position value : Expr) (calls budget : Nat) (m₀ m : Machine) : Prop :=
  ∃ (m₁ m₂ : Machine) (id : ListId) (index v : Value),
    container.evaluate (invoke calls) budget m₀ = .ok (.list id) m₁ ∧
    position.evaluate (invoke calls) budget m₁ = .ok index m₂ ∧
    value.evaluate (invoke calls) budget m₂ = .ok v m ∧
    (∀ x, index ≠ .number x) ∧ m.store.Contains index (.list id)

/-- The failures that a checked program can end with. If a name is not there, it is the name of a
function or class of a block around the reference, and it is not among those that are bound at that
place; the scope of the reference, which has all of those, does not have it. A jump is never out of
place. If a list is in use, an assignment of the program comes to write into it. -/
def Excused (program : List Stmt) (s : Store) : Failure RuntimeError → Prop
  | .fault ⟨.undefinedVariable name, span⟩ =>
    ∃ p, RefersAt program p (name, span) ∧ Hoisted p.blocks name ∧ name ∉ p.bound ∧
      ∃ scope, (∀ other ∈ p.bound, (s.lookup scope other).isSome) ∧ s.lookup scope name = none
  | .fault ⟨.controlFlowEscape _ _, _⟩ => False
  | .listInUse =>
    ∃ p container position value span rest,
      StandsAt program p (.assign (.index container position) value span :: rest) ∧
        ∃ calls budget m₀ m, Clashes container position value calls budget m₀ m ∧ m.store = s
  | _ => True

theorem excused_fault {program : List Stmt} {s : Store} {f : Fault} (h : f.Plain) (span : Span) :
    Excused program s (.fault ⟨f, span⟩) := by
  cases f with
  | undefinedVariable | controlFlowEscape => exact h.elim
  | _ => trivial

theorem excused_at {program : List Stmt} {s : Store} {f : Failure Fault} (h : f.Plain)
    (span : Span) : Excused program s (f.at span) := by
  cases f with
  | fault f => exact excused_fault h span
  | listInUse => exact h.elim
  | outOfFuel => trivial

/-- A visible name that is not found has an excuse. -/
theorem Machine.Fits.excused {program : List Stmt} {c : Context} {p : Place} {m : Machine}
    (hm : m.Fits program c p) {name : String} {span : Span} (hvisible : c.resolve name span = [])
    (hrefers : RefersAt program p (name, span)) (hnone : m.store.lookup m.scope name = none) :
    Excused program m.store (.fault ⟨.undefinedVariable name, span⟩) := by
  have hmem : name ∈ c.visible := by
    rw [Context.resolve] at hvisible
    split at hvisible
    · exact List.contains_iff_mem.mp ‹_›
    · cases hvisible
  have hunbound : name ∉ p.bound := by
    intro hbound
    have hsome := hm.serves.bound name hbound
    rw [hnone] at hsome
    cases hsome
  exact ⟨p, hrefers, (hm.serves.visible name hmem).resolve_left hunbound, hunbound, m.scope,
    hm.serves.bound, hnone⟩

namespace Machine.Fits

variable {program : List Stmt} {c : Context} {p : Place} {m m' : Machine}

theorem later (hm : m.Fits program c p) (hext : m.Extends m') (hclosed : m'.Closed)
    (hchecked : m'.store.Checked program) : m'.Fits program c p where
  closed := hclosed
  checked := hchecked
  serves := by
    rw [hext.scope]
    exact hm.serves.later hext.store

theorem enterBlock (hm : m.Fits program c p) : m.enterBlock.Fits program c p where
  closed := hm.closed.enterBlock
  checked := hm.checked.later (extends_enterBlock m) rfl rfl
  serves := hm.serves.enterBlock hm.closed

theorem declare (hm : m.Fits program c p) {names : List String}
    (hnames : ∀ name ∈ names, (m.store.lookup m.scope name).isSome) :
    m.Fits program (c.declare names) (p.declare names) :=
  ⟨hm.closed, hm.checked, hm.serves.declare hnames⟩

theorem enterLoop (hm : m.Fits program c p) : m.Fits program c.enterLoop p :=
  ⟨hm.closed, hm.checked, hm.serves.enterLoop⟩

theorem enter (hm : m.Fits program c p) (body : List Stmt) :
    m.Fits program c (p.enter body) :=
  ⟨hm.closed, hm.checked, hm.serves.enter body⟩

theorem hoist (hm : m.Fits program c p) (body : List Stmt) :
    m.Fits program (c.declare (body.flatMap Stmt.hoisted)) (p.enter body) :=
  ⟨hm.closed, hm.checked, hm.serves.hoist body⟩

end Machine.Fits

/-! ## Actions -/

/-- The action keeps the functions of the store checked and gives a result that satisfies `post`, or
fails with an excuse. -/
def Exec.Checked {α : Type} (program : List Stmt) (m : Machine) (x : Exec α)
    (post : α → Machine → Prop) : Prop :=
  Meets m x (fun a m' => m'.store.Checked program ∧ post a m')
    (fun f m' => Excused program m'.store f)

namespace Exec

variable {α β : Type} {program : List Stmt} {c : Context} {p : Place} {m : Machine}
  {post : α → Machine → Prop}

theorem checked_pure {a : α} (hm : m.store.Checked program) (h : post a m) :
    Checked program m (pure a) post :=
  meets_pure ⟨hm, h⟩

theorem checked_fault {f : Fault} {span : Span} (h : f.Plain) :
    Checked program m (fault f span : Exec α) post :=
  meets_fault (excused_fault h span)

/-- Sequencing: the second action starts in a later state, which fits the place again. -/
theorem checked_bind {x : Exec β} {f : β → Exec α} {val : β → Store → Prop}
    {mid : β → Machine → Prop} (hm : m.Fits program c p) (hev : Evolves m x val)
    (hx : Checked program m x mid)
    (hf : ∀ b m', m.Extends m' → m'.Fits program c p → val b m'.store → mid b m' →
      Checked program m' (f b) post) :
    Checked program m (x >>= f) post := by
  refine meets_bind ((hev.and hx).mono (fun _ _ h => h) fun _ _ h => h.2) ?_
  rintro b m' ⟨⟨hevolves, hval⟩, hchecked, hmid⟩
  have hext := hevolves.extends
  exact hf b m' hext (hm.later hext (hevolves.closed hm.closed) hchecked) hval hmid

/-- The result of an action can be kept. -/
theorem Checked.result {x : Exec α} (h : Checked program m x post) :
    Checked program m x fun a m' => x m = .ok a m' :=
  (Meets.result h).mono (fun _ _ h' => ⟨h'.2.1, h'.1⟩) fun _ _ h' => h'

theorem checked_get_bind {f : Machine → Exec α} (h : Checked program m (f m) post) :
    Checked program m (get >>= f) post := h

theorem checked_store_bind {f : Store → Exec α} (h : Checked program m (f m.store) post) :
    Checked program m (store >>= f) post := h

theorem checked_query {span : Span} {f : Store → Except (Failure Fault) α}
    (hm : m.store.Checked program) (hfails : ∀ e, f m.store = .error e → e.Plain)
    (hpost : ∀ a, post a m) : Checked program m (query span f) post :=
  meets_query (fun a _ => ⟨hm, hpost a⟩) fun e he => excused_at (hfails e he) span

theorem checked_checkCancelled {span : Span} (hm : m.store.Checked program) :
    Checked program m (checkCancelled span) fun _ _ => True :=
  meets_checkCancelled ⟨hm, trivial⟩ trivial

theorem checked_inBlock {x : Exec α} {P : α → Prop}
    (h : Checked program m.enterBlock x fun a _ => P a) :
    Checked program m (inBlock x) fun a _ => P a :=
  meets_inBlock h

theorem checked_iterate {turn : Exec (Option α)} {val : Option α → Store → Prop} {P : α → Prop}
    (hm : m.Fits program c p) (hev : ∀ m', m'.Fits program c p → Evolves m' turn val)
    (hturn : ∀ m', m'.Fits program c p →
      Checked program m' turn fun r _ => ∀ a, r = some a → P a) (fuel : Nat) :
    Checked program m (iterate turn fuel) fun a _ => P a := by
  refine meets_iterate (I := fun m' => m'.Fits program c p) (fun m' hm' => ?_)
    (fun _ _ => trivial) fuel hm
  refine ((hev m' hm').and (hturn m' hm')).mono ?_ fun _ _ h => h.2
  rintro r m'' ⟨⟨hevolves, -⟩, hchecked, hresult⟩
  cases r with
  | none => exact hm'.later hevolves.extends (hevolves.closed hm'.closed) hchecked
  | some a => exact ⟨hchecked, hresult a rfl⟩

end Exec

end Chalk
