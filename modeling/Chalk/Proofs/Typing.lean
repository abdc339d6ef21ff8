import Chalk.Proofs.Evaluation

/-!
# Types of variables and fields

Types are checked when a value enters a slot and never again. That is enough: a value keeps its
type, because an instance keeps its class and a class its name, so what fitted a slot once fits it
for good. `Store.Typed` says that every variable and every field holds a value of its type, and that
an instance has one field for each name its class declares, with the type of the last declaration of
that name.

Both halves are stated at one store and preserved by each write for the same reason: what a later
store holds was there before, or has just been checked (`Store.Typed.later`).

## Main definitions

* `ClassOf.fieldTag?` — the type that a class declares for a field
* `Store.TypedInstance`, `Store.Typed` — instances and stores that keep to the declared types

## Main results

* `ClassOf.lookup_initialFields` — a fresh instance has the declared fields
* `Machine.Evolves.typed` — a run keeps the store typed
* `callFunction_returns`, `invoke_returns` — a call gives back a value of the declared type
-/

namespace Chalk

/-! ## Declared fields -/

/-- The type that a class declares for a field. Of several declarations of one name the last
counts. -/
def ClassOf.fieldTag? (decl : Class) (name : String) : Option TypeTag :=
  (decl.fields.reverse.find? fun slot => slot.name == name).map Slot.tag

theorem mem_map_fst_setField {fields : List (String × Field)} {name other : String} {field : Field}
    (h : other ∈ (setField fields name field).map Prod.fst) :
    other = name ∨ other ∈ fields.map Prod.fst := by
  obtain ⟨entry, hentry, rfl⟩ := List.mem_map.mp h
  rcases mem_setField hentry with rfl | hold
  · exact .inl rfl
  · exact .inr (List.mem_map_of_mem hold)

/-- Replacing or adding a field keeps the names distinct. -/
theorem nodup_setField {fields : List (String × Field)} (name : String) (field : Field)
    (h : (fields.map Prod.fst).Nodup) : ((setField fields name field).map Prod.fst).Nodup := by
  induction fields with
  | nil => exact List.nodup_cons.mpr ⟨List.not_mem_nil, List.nodup_nil⟩
  | cons head rest ih =>
    obtain ⟨other, old⟩ := head
    obtain ⟨hother, hrest⟩ := List.nodup_cons.mp h
    rw [setField]
    split
    · rename_i heq
      rw [beq_iff_eq.mp heq] at hother
      exact List.nodup_cons.mpr ⟨hother, hrest⟩
    · rename_i hne
      refine List.nodup_cons.mpr ⟨fun hmem => ?_, ih hrest⟩
      rcases mem_map_fst_setField hmem with heq | hold
      · exact hne (beq_iff_eq.mpr heq)
      · exact hother hold

/-- The fields of a fresh instance have distinct names. -/
theorem ClassOf.nodup_initialFields (decl : Class) :
    (decl.initialFields.map Prod.fst).Nodup := by
  rw [initialFields]
  refine List.foldlRecOn (motive := fun fields : List (String × Field) =>
    (fields.map Prod.fst).Nodup) decl.fields _ List.nodup_nil fun fields h slot _ => ?_
  exact nodup_setField slot.name _ h

/-- Declaring fields one after the other leaves a field as it is unless a later declaration has its
name. -/
theorem lookup_foldl_setField (slots : List Slot) (fields : List (String × Field)) (name : String) :
    ((slots.foldl (fun fields slot => setField fields slot.name ⟨slot.tag, .null⟩) fields).lookup
      name).map Field.tag =
      ((slots.reverse.find? fun slot => slot.name == name).map Slot.tag).or
        ((fields.lookup name).map Field.tag) := by
  induction slots generalizing fields with
  | nil => rfl
  | cons slot rest ih =>
    rw [List.foldl_cons, ih, List.reverse_cons, List.find?_append, Option.map_or, Option.or_assoc]
    congr 1
    by_cases heq : slot.name = name
    · rw [heq, lookup_setField_self]
      simp [heq]
    · rw [lookup_setField_of_ne (Ne.symm heq)]
      simp [heq]

/-- **A fresh instance has the declared fields**, each with the type of its last declaration. -/
theorem ClassOf.lookup_initialFields (decl : Class) (name : String) :
    (decl.initialFields.lookup name).map Field.tag = decl.fieldTag? name := by
  rw [initialFields, lookup_foldl_setField]
  exact Option.or_none

/-! ## Typed stores -/

namespace Store

variable {s t : Store}

/-- An instance has exactly the fields that its class declares, with their types, and each holds a
value of its type. -/
structure TypedInstance (s : Store) (i : Instance) : Prop where
  distinct : (i.fields.map Prod.fst).Nodup
  declared : ∀ name, (i.fields.lookup name).map Field.tag =
    (s.classObject i.owner).decl.fieldTag? name
  conforms : ∀ entry ∈ i.fields, s.conforms entry.2.tag entry.2.value

/-- Every variable holds a value of its type, and every instance keeps to its class. -/
structure Typed (s : Store) : Prop where
  bindings : ∀ id, ∀ entry ∈ (s.scope id).bindings, s.conforms entry.2.tag entry.2.value
  instances : ∀ id i, s.instance? id = some i → s.TypedInstance i

theorem TypedInstance.later {i : Instance} (h : s.TypedInstance i) (hs : s.Closed)
    (hext : s.Extends t) (howner : i.owner.index < s.classes.size)
    (hknown : ∀ entry ∈ i.fields, s.Knows entry.2.value) : t.TypedInstance i where
  distinct := h.distinct
  declared name := by
    rw [hext.classObject i.owner howner]
    exact h.declared name
  conforms entry hentry := by
    rw [hext.conforms_eq hs (hknown entry hentry)]
    exact h.conforms entry hentry

/-- A later store is typed if what it holds is typed in the earlier one. -/
theorem Typed.later (hs : s.Closed) (hext : s.Extends t)
    (hbindings : ∀ id, ∀ entry ∈ (t.scope id).bindings,
      s.Knows entry.2.value ∧ s.conforms entry.2.tag entry.2.value)
    (hinstances : ∀ id i, t.instance? id = some i → s.TypedInstance i ∧
      i.owner.index < s.classes.size ∧ ∀ entry ∈ i.fields, s.Knows entry.2.value) :
    t.Typed where
  bindings id entry hentry := by
    obtain ⟨hknown, hconf⟩ := hbindings id entry hentry
    rw [hext.conforms_eq hs hknown]
    exact hconf
  instances id i hi := by
    obtain ⟨htyped, howner, hknown⟩ := hinstances id i hi
    exact htyped.later hs hext howner hknown

theorem Typed.binding (h : s.Typed) (hs : s.Closed) {id : ScopeId} {entry : String × Binding}
    (hentry : entry ∈ (s.scope id).bindings) :
    s.Knows entry.2.value ∧ s.conforms entry.2.tag entry.2.value :=
  ⟨hs.values _ (.binding hentry), h.bindings id entry hentry⟩

theorem Typed.instance (h : s.Typed) (hs : s.Closed) {id : InstanceId} {i : Instance}
    (hi : s.instance? id = some i) : s.TypedInstance i ∧ i.owner.index < s.classes.size ∧
      ∀ entry ∈ i.fields, s.Knows entry.2.value :=
  ⟨h.instances id i hi, hs.owners id i hi, fun _ hentry => hs.values _ (.field hi hentry)⟩

/-- A write that leaves variables and instances alone. -/
theorem Typed.of_slots_eq (h : s.Typed) (hs : s.Closed) (hext : s.Extends t)
    (hscope : ∀ id, t.scope id = s.scope id) (hinstance : ∀ id, t.instance? id = s.instance? id) :
    t.Typed := by
  refine .later hs hext (fun id entry hentry => ?_) fun id i hi => ?_
  · rw [hscope] at hentry
    exact h.binding hs hentry
  · rw [hinstance] at hi
    exact h.instance hs hi

/-- A write to the variables of one scope. -/
theorem Typed.setBindings (h : s.Typed) (hs : s.Closed) {id : ScopeId} {name : String}
    {binding : Binding} (hknown : s.Knows binding.value)
    (hconf : s.conforms binding.tag binding.value) :
    (s.setBindings id ((s.scope id).bindings.set name binding)).Typed := by
  have hext : s.Extends (s.setBindings id ((s.scope id).bindings.set name binding)) :=
    extends_setBindings fun _ => Bindings.isSome_get?_set
  refine .later hs hext (fun other entry hentry => ?_) fun _ i hi => h.instance hs hi
  rcases scope_setBindings_cases s id other ((s.scope id).bindings.set name binding) with
    heq | ⟨-, heq⟩
  · rw [heq] at hentry
    exact h.binding hs hentry
  · rw [heq] at hentry
    rcases Bindings.mem_set hentry with rfl | hold
    · exact ⟨hknown, hconf⟩
    · exact h.binding hs hold

/-- A fresh scope whose variables are typed. -/
theorem Typed.newScope (h : s.Typed) (hs : s.Closed) {fresh : Scope}
    (hfresh : ∀ entry ∈ fresh.bindings,
      s.Knows entry.2.value ∧ s.conforms entry.2.tag entry.2.value) :
    (s.newScope fresh).2.Typed := by
  refine .later hs (extends_newScope s fresh) (fun id entry hentry => ?_)
    fun _ i hi => h.instance hs hi
  rcases scope_newScope_cases s fresh id with heq | ⟨-, heq⟩
  · rw [heq] at hentry
    exact h.binding hs hentry
  · rw [heq] at hentry
    exact hfresh entry hentry

/-! ## Operations on typed stores -/

theorem conforms_null (s : Store) (tag : TypeTag) : s.conforms tag .null = true := by
  cases tag <;> rfl

theorem Typed.instantiate (h : s.Typed) (hs : s.Closed) {id : ClassId}
    (hid : id.index < s.classes.size) : (s.instantiate id).2.Typed := by
  refine .later hs (extends_newInstance s _) (fun _ entry hentry => h.binding hs hentry)
    fun other i hi => ?_
  rw [Store.instantiate, instance?_newInstance] at hi
  split at hi
  · cases hi
    refine ⟨⟨ClassOf.nodup_initialFields _, ClassOf.lookup_initialFields _, ?_⟩, hid, ?_⟩
    · intro entry hentry
      rw [initialFields_null _ entry hentry]
      exact conforms_null s _
    · intro entry hentry
      rw [initialFields_null _ entry hentry]
      trivial
  · exact h.instance hs hi

theorem Typed.define (h : s.Typed) (hs : s.Closed) {id : ScopeId} {name : String}
    {binding : Binding} (hknown : s.Knows binding.value)
    (hdone : s.define id name binding = .ok () t) : t.Typed := by
  obtain ⟨hconf, rfl⟩ := define_eq_ok hdone
  exact h.setBindings hs hknown hconf

/-- An assignment checks the value against the type of the variable and keeps that type. -/
theorem Typed.assign (h : s.Typed) (hs : s.Closed) {id : ScopeId} {name : String} {value : Value}
    (hknown : s.Knows value) (hdone : s.assign id name value = .ok () t) : t.Typed := by
  obtain ⟨holder, old, -, -, -, hconf, rfl⟩ := assign_eq_ok hdone
  have hconf' : s.conforms ({ old with value } : Binding).tag value := hconf
  exact h.setBindings hs hknown hconf'

/-- Writing a field checks the value against the type of the field and keeps that type. -/
theorem Typed.writeField (h : s.Typed) (hs : s.Closed) {id : InstanceId} {name : String}
    {value : Value} (hknown : s.Knows value) (hdone : s.writeField id name value = .ok () t) :
    t.Typed := by
  have hext := extends_writeField hdone
  obtain ⟨field, hfield, hconf, rfl⟩ := writeField_eq_ok hdone
  refine .later hs hext (fun _ entry hentry => h.binding hs hentry) fun other i hi => ?_
  rw [instance?_setFields] at hi
  obtain ⟨old, hold, rfl⟩ := Option.map_eq_some_iff.mp hi
  split
  · rename_i heq
    subst heq
    obtain ⟨htyped, howner, hvalues⟩ := h.instance hs hold
    have hfields : s.fields other = old.fields := by rw [fields, hold]; rfl
    rw [field?, hfields] at hfield
    rw [hfields]
    refine ⟨⟨nodup_setField name _ htyped.distinct, fun name' => ?_, ?_⟩, howner, ?_⟩
    · rw [← htyped.declared name']
      by_cases hname : name' = name
      · rw [hname, lookup_setField_self, hfield]
        rfl
      · rw [lookup_setField_of_ne hname]
    · intro entry hentry
      rcases mem_setField hentry with rfl | hmem
      · exact hconf
      · exact htyped.conforms entry hmem
    · intro entry hentry
      rcases mem_setField hentry with rfl | hmem
      · exact hknown
      · exact hvalues entry hmem
  · exact h.instance hs hold

theorem Typed.writeItem (h : s.Typed) (hs : s.Closed) {fuel : Nat} {container index value : Value}
    (hdone : s.writeItem fuel container index value = .ok () t) : t.Typed := by
  have hext := extends_writeItem hdone
  rcases writeItem_eq_ok hdone with ⟨id, place, -, rfl⟩ | ⟨id, entries, -, -, rfl⟩
  · exact h.of_slots_eq hs hext (fun _ => rfl) fun _ => rfl
  · exact h.of_slots_eq hs hext (fun _ => rfl) fun _ => rfl

theorem Typed.callMethod (h : s.Typed) (hs : s.Closed) {fuel : Nat} {method : Method}
    {receiver v : Value} {arguments : List Value}
    (hdone : s.callMethod fuel method receiver arguments = .ok v t) : t.Typed := by
  have hext := extends_callMethod hdone
  rcases callMethod_eq_ok hdone with ⟨id, -, rfl⟩ | ⟨id, -, rfl⟩ | ⟨-, rfl⟩ | ⟨id, -, rfl⟩ |
    ⟨id, place, entry, -, -, rfl⟩
  · exact h.of_slots_eq hs hext (fun _ => rfl) fun _ => rfl
  · exact h.of_slots_eq hs hext (fun _ => rfl) fun _ => rfl
  · exact h
  · exact h.of_slots_eq hs hext (fun _ => rfl) fun _ => rfl
  · exact h.of_slots_eq hs hext (fun _ => rfl) fun _ => rfl

theorem typed_initial : Store.initial.Typed where
  bindings id entry hentry := by
    rcases id with ⟨_ | n⟩
    · simp only [Store.initial, scope, Native.all] at hentry
      cases List.mem_singleton.mp hentry
      rfl
    · simp [Store.initial, scope] at hentry
  instances id i hi := by simp [Store.initial, instance?] at hi

end Store

/-! ## Runs -/

namespace Machine

theorem typed_enterBlock {m : Machine} (hm : m.Closed) (ht : m.store.Typed) :
    m.enterBlock.store.Typed :=
  ht.newScope hm.store fun _ hentry => absurd hentry List.not_mem_nil

theorem typed_enterCall {m : Machine} (hm : m.Closed) (ht : m.store.Typed) {decl : Func}
    {this : Option Value} {arguments : List Value} {bindings : Bindings} (closure : ScopeId)
    (hargs : ∀ v ∈ arguments, m.store.Knows v) (hthis : ∀ v, this = some v → m.store.Knows v)
    (hbound : m.store.frame decl this arguments = .ok bindings) :
    (m.enterCall bindings closure).store.Typed :=
  ht.newScope hm.store fun entry hentry =>
    ⟨knows_frame hargs hthis hbound entry hentry, (Store.frame_values hbound entry hentry).1⟩

/-- **A run keeps the store typed.** -/
theorem Evolves.typed {m m' : Machine} (h : m.Evolves m') (hm : m.Closed) (ht : m.store.Typed) :
    m'.store.Typed := by
  induction h with
  | refl | print | read => exact ht
  | trans first _ ih₁ ih₂ => exact ih₂ (first.closed hm) (ih₁ hm ht)
  | newList =>
    exact ht.of_slots_eq hm.store (Store.extends_newList _ _) (fun _ => rfl) fun _ => rfl
  | newDict =>
    exact ht.of_slots_eq hm.store (Store.extends_newDict _ _) (fun _ => rfl) fun _ => rfl
  | newFunction =>
    exact ht.of_slots_eq hm.store (Store.extends_newFunction _ _) (fun _ => rfl) fun _ => rfl
  | newClass =>
    exact ht.of_slots_eq hm.store (Store.extends_newClass _ _) (fun _ => rfl) fun _ => rfl
  | instantiate known => exact ht.instantiate hm.store known
  | define known done => exact ht.define hm.store known done
  | assign known done => exact ht.assign hm.store known done
  | writeItem _ _ done => exact ht.writeItem hm.store done
  | writeField known done => exact ht.writeField hm.store known done
  | callMethod _ done => exact ht.callMethod hm.store done
  | block _ ih => exact ih hm.enterBlock (typed_enterBlock hm ht)
  | call known knownThis knownScope bound _ ih =>
    exact ih (hm.enterCall knownScope (knows_frame known knownThis bound))
      (typed_enterCall hm ht _ known knownThis bound)

end Machine

/-! ## Results of calls -/

/-- What a call of a function may give back: null if nothing is declared, and otherwise a value of
the declared type. -/
def Store.Returns (s : Store) (decl : Func) (v : Value) : Prop :=
  if decl.returns = .void then v = .null else s.conforms decl.returns v

theorem Store.returns_result {s : Store} {decl : Func} {signal : Signal} {v : Value}
    (h : s.result decl signal = .ok v) : s.Returns decl v := by
  rw [Store.result.eq_def] at h
  rw [Store.Returns]
  split at h
  · split at h
    · cases h
    · rename_i hvoid
      rw [if_neg (by simpa using hvoid)]
      split at h
      · cases h
        assumption
      · cases h
  · split at h
    · rename_i hvoid
      cases h
      rw [if_pos (by simpa using hvoid)]
    · cases h
  · split at h
    · rename_i hvoid
      cases h
      rw [if_pos (by simpa using hvoid)]
    · cases h
  · cases h
  · cases h

open Exec in
/-- **A call gives back a value of the declared type**, however its body is run. -/
theorem callFunction_returns (run : List Stmt → Exec Signal) (decl : Func) (closure : ScopeId)
    (this : Option Value) (arguments : List Value) (span : Span) (m : Machine) :
    Meets m (callFunction run decl closure this arguments span)
      (fun v m' => m'.store.Returns decl v) fun _ _ => True := by
  rw [callFunction]
  refine meets_get_bind ?_
  split
  · exact meets_fault trivial
  · refine meets_query_bind (fun bindings _ => ?_) fun _ _ => trivial
    refine meets_inCall_bind (fun _ _ => True) (meets_trivial _ _) fun signal m₁ _ => ?_
    refine meets_store_bind ?_
    split
    · exact meets_pure (Store.returns_result ‹_›)
    · exact meets_fault trivial

/-- The declaration that a call of a function or method runs. -/
def Store.declaration? (s : Store) : Callable → Option Func
  | .function id => some (s.function id).decl
  | .method receiver name => s.instanceMethod? receiver name
  | _ => none

open Exec in
theorem invoke_returns {callable : Callable} {decl : Func} {m : Machine}
    (hdecl : m.store.declaration? callable = some decl) (fuel : Nat) (arguments : List Value)
    (span : Span) :
    Meets m (invoke fuel callable arguments span) (fun v m' => m'.store.Returns decl v)
      fun _ _ => True := by
  cases fuel with
  | zero => exact meets_throw trivial
  | succ fuel =>
    rw [invoke.eq_def]
    refine meets_store_bind ?_
    split
    · exact meets_fault trivial
    · cases callable with
      | native _ | classObject _ | builtin _ _ => cases hdecl
      | function id =>
        cases hdecl
        exact callFunction_returns _ _ _ _ _ _ _
      | method receiver name =>
        refine meets_store_bind ?_
        split
        · rename_i hmethod
          rw [Store.declaration?, hmethod] at hdecl
          cases hdecl
          exact callFunction_returns _ _ _ _ _ _ _
        · exact meets_fault trivial

end Chalk
