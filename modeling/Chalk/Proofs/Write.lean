import Chalk.Proofs.Reference

/-!
# Writes

The operations of the language change the store through ten writes: four replace the contents of an
object and six add a fresh one. Each of them leads to a later store, and to one without dangling
references if what it writes has none.

A write touches one table. What can be read from the others is the same by computation, so each
proof below is about that table only.

## Main definitions

* `Store.AddsKnown` — a write puts nothing into the store that the store does not know

## Main results

* `Store.extends_setBindings`, `Store.extends_newScope` and their likes — later stores
* `Store.Closed.knows_of_addsKnown` — a later store without dangling references
-/

namespace Chalk

namespace Store

variable {s t : Store}

/-! ## What a reader finds after a write -/

theorem list_modifyList_cases (s : Store) (id other : ListId) (f : Array Value → Array Value) :
    (s.modifyList id f).list other = s.list other ∨
      (s.modifyList id f).list other = f (s.list id) := by
  by_cases hne : other = id
  · subst hne
    by_cases hlt : other.index < s.lists.size
    · exact .inr (list_modifyList_self hlt)
    · refine .inl ?_
      simp [list, modifyList, Nat.le_of_not_lt hlt]
  · exact .inl (list_modifyList_of_ne hne)

theorem dict_setDict_cases (s : Store) (id other : DictId) (entries : Entries) :
    (s.setDict id entries).dict other = s.dict other ∨
      (s.setDict id entries).dict other = entries := by
  by_cases hne : other = id
  · subst hne
    by_cases hlt : other.index < s.dicts.size
    · exact .inr (dict_setDict_self hlt)
    · refine .inl ?_
      simp [dict, setDict, Nat.le_of_not_lt hlt]
  · exact .inl (dict_setDict_of_ne hne)

theorem scope_setBindings_cases (s : Store) (id other : ScopeId) (bindings : Bindings) :
    (s.setBindings id bindings).scope other = s.scope other ∨
      other = id ∧ (s.setBindings id bindings).scope other = { s.scope id with bindings } := by
  by_cases hne : other = id
  · subst hne
    by_cases hlt : other.index < s.scopes.size
    · exact .inr ⟨rfl, scope_setBindings_self hlt⟩
    · refine .inl ?_
      simp [scope, setBindings, Nat.le_of_not_lt hlt]
  · exact .inl (scope_setBindings_of_ne hne)

theorem instance?_setFields (s : Store) (id other : InstanceId) (fields : List (String × Field)) :
    (s.setFields id fields).instance? other =
      (s.instance? other).map fun i => if other = id then { i with fields } else i := by
  by_cases hne : other = id
  · subst hne
    simp [instance?, setFields, Array.getElem?_modify]
  · have hi : id.index ≠ other.index := fun he => hne (by cases id; cases other; simp_all)
    simp [instance?, setFields, Array.getElem?_modify, hi, hne]

theorem list_newList_cases (s : Store) (elements : Array Value) (id : ListId) :
    (s.newList elements).2.list id = s.list id ∨ (s.newList elements).2.list id = elements := by
  simp only [list, newList, Array.getElem?_push]
  split
  · exact .inr rfl
  · exact .inl rfl

theorem dict_newDict_cases (s : Store) (entries : Entries) (id : DictId) :
    (s.newDict entries).2.dict id = s.dict id ∨ (s.newDict entries).2.dict id = entries := by
  simp only [dict, newDict, Array.getElem?_push]
  split
  · exact .inr rfl
  · exact .inl rfl

theorem instance?_newInstance (s : Store) (i : Instance) (id : InstanceId) :
    (s.newInstance i).2.instance? id =
      if id.index = s.instances.size then some i else s.instance? id := by
  simp only [instance?, newInstance, Array.getElem?_push]

theorem function_newFunction_of_lt {c : Closure} {id : FunctionId}
    (h : id.index < s.functions.size) : (s.newFunction c).2.function id = s.function id := by
  simp [function, newFunction, Array.getElem?_push, Nat.ne_of_lt h]

/-- A function after one more was added is an old one or the new one. -/
theorem index_newFunction_cases {c : Closure} {id : FunctionId}
    (h : id.index < (s.newFunction c).2.functions.size) :
    id.index < s.functions.size ∨ id = (s.newFunction c).1 := by
  obtain ⟨index⟩ := id
  simp only [newFunction, Array.size_push, FunctionId.mk.injEq] at h ⊢
  omega

@[simp] theorem function_newFunction (s : Store) (c : Closure) :
    (s.newFunction c).2.function (s.newFunction c).1 = c := by
  simp [function, newFunction]

theorem classObject_newClass_of_lt {c : ClassObject} {id : ClassId}
    (h : id.index < s.classes.size) : (s.newClass c).2.classObject id = s.classObject id := by
  simp [classObject, newClass, Array.getElem?_push, Nat.ne_of_lt h]

theorem index_newClass_cases {c : ClassObject} {id : ClassId}
    (h : id.index < (s.newClass c).2.classes.size) :
    id.index < s.classes.size ∨ id = (s.newClass c).1 := by
  obtain ⟨index⟩ := id
  simp only [newClass, Array.size_push, ClassId.mk.injEq] at h ⊢
  omega

@[simp] theorem classObject_newClass (s : Store) (c : ClassObject) :
    (s.newClass c).2.classObject (s.newClass c).1 = c := by
  simp [classObject, newClass]

theorem scope_newScope_cases (s : Store) (fresh : Scope) (id : ScopeId) :
    (s.newScope fresh).2.scope id = s.scope id ∨
      id.index = s.scopes.size ∧ (s.newScope fresh).2.scope id = fresh := by
  simp only [scope, newScope, Array.getElem?_push]
  split
  · exact .inr ⟨‹_›, rfl⟩
  · exact .inl rfl

theorem scope_of_size_le {id : ScopeId} (h : s.scopes.size ≤ id.index) : s.scope id = {} := by
  simp [scope, h]

/-! ## Later stores -/

theorem extends_modifyList (s : Store) (id : ListId) (f : Array Value → Array Value) :
    s.Extends (s.modifyList id f) :=
  { Extends.refl s with lists := by simp [modifyList] }

theorem extends_setDict (s : Store) (id : DictId) (entries : Entries) :
    s.Extends (s.setDict id entries) :=
  { Extends.refl s with dicts := by simp [setDict] }

theorem extends_setFields (s : Store) (id : InstanceId) (fields : List (String × Field)) :
    s.Extends (s.setFields id fields) :=
  { Extends.refl s with
    instances := by simp [setFields]
    owner := fun other _ => by
      rw [instance?_setFields, Option.map_map]
      congr 1
      funext i
      simp only [Function.comp_apply]
      split <;> rfl }

/-- Replacing the variables of a scope leads to a later store if no name is lost. -/
theorem extends_setBindings {id : ScopeId} {bindings : Bindings}
    (h : ∀ name, ((s.scope id).bindings.get? name).isSome → (bindings.get? name).isSome) :
    s.Extends (s.setBindings id bindings) :=
  { Extends.refl s with
    scopes := by simp [setBindings]
    parent := fun other _ => by
      rcases scope_setBindings_cases s id other bindings with heq | ⟨rfl, heq⟩ <;> rw [heq]
    names := fun other name hn => by
      rcases scope_setBindings_cases s id other bindings with heq | ⟨rfl, heq⟩
      · rw [heq]
        exact hn
      · rw [heq]
        exact h name hn }

theorem extends_newList (s : Store) (elements : Array Value) : s.Extends (s.newList elements).2 :=
  { Extends.refl s with lists := by simp [newList] }

theorem extends_newDict (s : Store) (entries : Entries) : s.Extends (s.newDict entries).2 :=
  { Extends.refl s with dicts := by simp [newDict] }

theorem extends_newInstance (s : Store) (i : Instance) : s.Extends (s.newInstance i).2 :=
  { Extends.refl s with
    instances := by simp [newInstance]
    owner := fun id hid => by rw [instance?_newInstance, if_neg (Nat.ne_of_lt hid)] }

theorem extends_newFunction (s : Store) (c : Closure) : s.Extends (s.newFunction c).2 :=
  { Extends.refl s with
    functions := by simp [newFunction]
    function := fun _ hid => function_newFunction_of_lt hid }

theorem extends_newClass (s : Store) (c : ClassObject) : s.Extends (s.newClass c).2 :=
  { Extends.refl s with
    classes := by simp [newClass]
    classObject := fun _ hid => classObject_newClass_of_lt hid }

theorem extends_newScope (s : Store) (fresh : Scope) : s.Extends (s.newScope fresh).2 :=
  { Extends.refl s with
    scopes := by simp [newScope]
    parent := fun _ hid => by rw [scope_newScope_of_lt hid]
    names := fun id name hn => by
      rcases scope_newScope_cases s fresh id with heq | ⟨hid, -⟩
      · rw [heq]
        exact hn
      · rw [scope_of_size_le (Nat.le_of_eq hid.symm)] at hn
        cases hn }

/-! ## Fresh objects are known -/

theorem knows_newList (s : Store) (elements : Array Value) :
    (s.newList elements).2.Knows (.list (s.newList elements).1) := by
  simp [Knows, newList]

theorem knows_newDict (s : Store) (entries : Entries) :
    (s.newDict entries).2.Knows (.dict (s.newDict entries).1) := by
  simp [Knows, newDict]

theorem knows_newInstance (s : Store) (i : Instance) :
    (s.newInstance i).2.Knows (.instance (s.newInstance i).1) := by
  simp [Knows, newInstance]

theorem knows_newFunction (s : Store) (c : Closure) :
    (s.newFunction c).2.Knows (.callable (.function (s.newFunction c).1)) := by
  simp [Knows, KnowsCallable, newFunction]

theorem knows_newClass (s : Store) (c : ClassObject) :
    (s.newClass c).2.Knows (.callable (.classObject (s.newClass c).1)) := by
  simp [Knows, KnowsCallable, newClass]

/-! ## Stores without dangling references -/

/-- Everything that stands in `t` stood in `s` at the same place, or is known to `s`. -/
structure AddsKnown (s t : Store) : Prop where
  element : ∀ id v, v ∈ t.list id → v ∈ s.list id ∨ s.Knows v
  entry : ∀ id entry, entry ∈ t.dict id →
    entry ∈ s.dict id ∨ s.Knows entry.1 ∧ s.Knows entry.2
  field : ∀ id i entry, t.instance? id = some i → entry ∈ i.fields →
    (∃ j, s.instance? id = some j ∧ entry ∈ j.fields) ∨ s.Knows entry.2.value
  binding : ∀ id entry, entry ∈ (t.scope id).bindings →
    entry ∈ (s.scope id).bindings ∨ s.Knows entry.2.value

theorem AddsKnown.refl (s : Store) : s.AddsKnown s where
  element _ _ := .inl
  entry _ _ := .inl
  field _ i _ hi hmem := .inl ⟨i, hi, hmem⟩
  binding _ _ := .inl

/-- A later store knows what stands in it if nothing unknown was added. -/
theorem Closed.knows_of_addsKnown (hs : s.Closed) (hext : s.Extends t) (hadds : s.AddsKnown t) :
    ∀ v, t.Holds v → t.Knows v := by
  intro v hv
  refine hext.knows ?_
  cases hv with
  | element hmem => exact (hadds.element _ _ hmem).elim (fun h => hs.values _ (.element h)) id
  | key hmem => exact (hadds.entry _ _ hmem).elim (fun h => hs.values _ (.key h)) And.left
  | value hmem => exact (hadds.entry _ _ hmem).elim (fun h => hs.values _ (.value h)) And.right
  | field hi hmem =>
    rcases hadds.field _ _ _ hi hmem with ⟨j, hj, hold⟩ | hnew
    · exact hs.values _ (.field hj hold)
    · exact hnew
  | binding hmem => exact (hadds.binding _ _ hmem).elim (fun h => hs.values _ (.binding h)) id

theorem Closed.modifyList (hs : s.Closed) {id : ListId} {f : Array Value → Array Value}
    (h : ∀ v ∈ f (s.list id), s.Knows v) : (s.modifyList id f).Closed := by
  have hadds : s.AddsKnown (s.modifyList id f) :=
    { AddsKnown.refl s with
      element := fun other v hmem => by
        rcases list_modifyList_cases s id other f with heq | heq <;> rw [heq] at hmem
        · exact .inl hmem
        · exact .inr (h v hmem) }
  exact { hs with values := hs.knows_of_addsKnown (extends_modifyList s id f) hadds }

theorem Closed.setDict (hs : s.Closed) {id : DictId} {entries : Entries}
    (h : ∀ entry ∈ entries, s.Knows entry.1 ∧ s.Knows entry.2) : (s.setDict id entries).Closed := by
  have hadds : s.AddsKnown (s.setDict id entries) :=
    { AddsKnown.refl s with
      entry := fun other entry hmem => by
        rcases dict_setDict_cases s id other entries with heq | heq <;> rw [heq] at hmem
        · exact .inl hmem
        · exact .inr (h entry hmem) }
  exact { hs with values := hs.knows_of_addsKnown (extends_setDict s id entries) hadds }

theorem Closed.setFields (hs : s.Closed) {id : InstanceId} {fields : List (String × Field)}
    (h : ∀ entry ∈ fields, s.Knows entry.2.value) : (s.setFields id fields).Closed := by
  have hadds : s.AddsKnown (s.setFields id fields) :=
    { AddsKnown.refl s with
      field := fun other i entry hi hmem => by
        rw [instance?_setFields] at hi
        obtain ⟨j, hj, rfl⟩ := Option.map_eq_some_iff.mp hi
        split at hmem
        · exact .inr (h entry hmem)
        · exact .inl ⟨j, hj, hmem⟩ }
  exact { hs with
    values := hs.knows_of_addsKnown (extends_setFields s id fields) hadds
    owners := fun other i hi => by
      rw [instance?_setFields] at hi
      obtain ⟨j, hj, rfl⟩ := Option.map_eq_some_iff.mp hi
      split <;> exact hs.owners other j hj }

theorem Closed.setBindings (hs : s.Closed) {id : ScopeId} {bindings : Bindings}
    (hnames : ∀ name, ((s.scope id).bindings.get? name).isSome → (bindings.get? name).isSome)
    (h : ∀ entry ∈ bindings, s.Knows entry.2.value) : (s.setBindings id bindings).Closed := by
  have hext := extends_setBindings hnames
  have hadds : s.AddsKnown (s.setBindings id bindings) :=
    { AddsKnown.refl s with
      binding := fun other entry hmem => by
        rcases scope_setBindings_cases s id other bindings with heq | ⟨-, heq⟩ <;> rw [heq] at hmem
        · exact .inl hmem
        · exact .inr (h entry hmem) }
  exact { hs with
    values := hs.knows_of_addsKnown hext hadds
    functions := fun f hf => Nat.lt_of_lt_of_le (hs.functions f hf) hext.scopes
    classes := fun c hc => Nat.lt_of_lt_of_le (hs.classes c hc) hext.scopes
    parents := fun other parent hp => by
      rcases scope_setBindings_cases s id other bindings with heq | ⟨rfl, heq⟩ <;>
        exact hs.parents other parent (by rw [heq] at hp; exact hp) }

theorem Closed.newList (hs : s.Closed) {elements : Array Value}
    (h : ∀ v ∈ elements, s.Knows v) : (s.newList elements).2.Closed := by
  have hadds : s.AddsKnown (s.newList elements).2 :=
    { AddsKnown.refl s with
      element := fun id v hmem => by
        rcases list_newList_cases s elements id with heq | heq <;> rw [heq] at hmem
        · exact .inl hmem
        · exact .inr (h v hmem) }
  exact { hs with values := hs.knows_of_addsKnown (extends_newList s elements) hadds }

theorem Closed.newDict (hs : s.Closed) {entries : Entries}
    (h : ∀ entry ∈ entries, s.Knows entry.1 ∧ s.Knows entry.2) :
    (s.newDict entries).2.Closed := by
  have hadds : s.AddsKnown (s.newDict entries).2 :=
    { AddsKnown.refl s with
      entry := fun id entry hmem => by
        rcases dict_newDict_cases s entries id with heq | heq <;> rw [heq] at hmem
        · exact .inl hmem
        · exact .inr (h entry hmem) }
  exact { hs with values := hs.knows_of_addsKnown (extends_newDict s entries) hadds }

theorem Closed.newInstance (hs : s.Closed) {i : Instance} (howner : i.owner.index < s.classes.size)
    (h : ∀ entry ∈ i.fields, s.Knows entry.2.value) : (s.newInstance i).2.Closed := by
  have hadds : s.AddsKnown (s.newInstance i).2 :=
    { AddsKnown.refl s with
      field := fun id j entry hj hmem => by
        rw [instance?_newInstance] at hj
        split at hj
        · cases hj
          exact .inr (h entry hmem)
        · exact .inl ⟨j, hj, hmem⟩ }
  exact { hs with
    values := hs.knows_of_addsKnown (extends_newInstance s i) hadds
    owners := fun id j hj => by
      rw [instance?_newInstance] at hj
      split at hj
      · cases hj
        exact howner
      · exact hs.owners id j hj }

theorem Closed.newFunction (hs : s.Closed) {c : Closure} (h : c.scope.index < s.scopes.size) :
    (s.newFunction c).2.Closed :=
  { hs with
    values := hs.knows_of_addsKnown (extends_newFunction s c) { AddsKnown.refl s with }
    functions := fun id hid => by
      rcases index_newFunction_cases hid with hlt | rfl
      · rw [function_newFunction_of_lt hlt]
        exact hs.functions id hlt
      · rw [function_newFunction]
        exact h }

theorem Closed.newClass (hs : s.Closed) {c : ClassObject} (h : c.scope.index < s.scopes.size) :
    (s.newClass c).2.Closed :=
  have hext := extends_newClass s c
  { hs with
    values := hs.knows_of_addsKnown hext { AddsKnown.refl s with }
    owners := fun id i hi => Nat.lt_of_lt_of_le (hs.owners id i hi) hext.classes
    classes := fun id hid => by
      rcases index_newClass_cases hid with hlt | rfl
      · rw [classObject_newClass_of_lt hlt]
        exact hs.classes id hlt
      · rw [classObject_newClass]
        exact h }

theorem Closed.newScope (hs : s.Closed) {fresh : Scope}
    (hparent : ∀ parent, fresh.parent = some parent → parent.index < s.scopes.size)
    (h : ∀ entry ∈ fresh.bindings, s.Knows entry.2.value) : (s.newScope fresh).2.Closed := by
  have hext := extends_newScope s fresh
  have hadds : s.AddsKnown (s.newScope fresh).2 :=
    { AddsKnown.refl s with
      binding := fun id entry hmem => by
        rcases scope_newScope_cases s fresh id with heq | ⟨-, heq⟩ <;> rw [heq] at hmem
        · exact .inl hmem
        · exact .inr (h entry hmem) }
  exact { hs with
    values := hs.knows_of_addsKnown hext hadds
    functions := fun f hf => Nat.lt_of_lt_of_le (hs.functions f hf) hext.scopes
    classes := fun c hc => Nat.lt_of_lt_of_le (hs.classes c hc) hext.scopes
    parents := fun id parent hp => by
      rcases scope_newScope_cases s fresh id with heq | ⟨hid, heq⟩
      · exact hs.parents id parent (heq ▸ hp)
      · rw [hid]
        exact hparent parent (heq ▸ hp) }

end Store

end Chalk
