import Chalk.Store.Object
import Chalk.Store.Scope

/-!
# References and later stores

A reference is a number into a table of the store, and nothing in its type says that the table is
that long. `Store.Closed` is the property that makes references meaningful: everything that a store
holds refers to something in the store, and scopes lead outward. `Store.Extends` is what every
later store has in common with an earlier one. Tables only grow, declarations stay as they are, an
instance keeps its class, and a name that is bound in a scope stays bound there.

Both are stated through the reading functions of the store, which are total; so are the lemmas for
each write, which say what a reader can find afterwards.

## Main definitions

* `Store.Knows` — the store has what a value refers to
* `Store.Holds` — a value stands in a list, a dict, a field or a variable
* `Store.Closed`, `Store.Extends` — stores without dangling references, and later stores

## Main results

* `Store.Extends.knows`, `Store.Extends.conforms_eq` — what is known stays known, with its type
* `Store.Extends.isSome_lookup` — what can be looked up stays so
* `Store.Closed.knows_lookup` — a variable holds a known value
-/

namespace Chalk

namespace Store

variable {s t u : Store}

/-! ## Known values -/

/-- The store has what a callable refers to. -/
def KnowsCallable (s : Store) : Callable → Prop
  | .native _ => True
  | .function id => id.index < s.functions.size
  | .classObject id => id.index < s.classes.size
  | .method receiver _ => receiver.index < s.instances.size
  | .builtin (.list id) _ => id.index < s.lists.size
  | .builtin (.dict id) _ => id.index < s.dicts.size
  | .builtin (.string _) _ => True

/-- The store has what a value refers to. -/
def Knows (s : Store) : Value → Prop
  | .list id => id.index < s.lists.size
  | .dict id => id.index < s.dicts.size
  | .instance id => id.index < s.instances.size
  | .callable callable => s.KnowsCallable callable
  | _ => True

/-- A value stands somewhere in the store. -/
inductive Holds (s : Store) : Value → Prop where
  | element {id : ListId} {v : Value} (h : v ∈ s.list id) : Holds s v
  | key {id : DictId} {entry : Value × Value} (h : entry ∈ s.dict id) : Holds s entry.1
  | value {id : DictId} {entry : Value × Value} (h : entry ∈ s.dict id) : Holds s entry.2
  | field {id : InstanceId} {i : Instance} {entry : String × Field} (hi : s.instance? id = some i)
      (h : entry ∈ i.fields) : Holds s entry.2.value
  | binding {id : ScopeId} {entry : String × Binding} (h : entry ∈ (s.scope id).bindings) :
      Holds s entry.2.value

/-- A store without dangling references, whose scopes lead outward. -/
structure Closed (s : Store) : Prop where
  values : ∀ v, s.Holds v → s.Knows v
  owners : ∀ id i, s.instance? id = some i → i.owner.index < s.classes.size
  functions : ∀ id : FunctionId, id.index < s.functions.size →
    (s.function id).scope.index < s.scopes.size
  classes : ∀ id : ClassId, id.index < s.classes.size →
    (s.classObject id).scope.index < s.scopes.size
  parents : ∀ id parent, (s.scope id).parent = some parent → parent.index < id.index

/-! ## Later stores -/

/-- What a later store `t` has in common with the store `s` that it came from. -/
structure Extends (s t : Store) : Prop where
  lists : s.lists.size ≤ t.lists.size
  dicts : s.dicts.size ≤ t.dicts.size
  instances : s.instances.size ≤ t.instances.size
  functions : s.functions.size ≤ t.functions.size
  classes : s.classes.size ≤ t.classes.size
  scopes : s.scopes.size ≤ t.scopes.size
  function : ∀ id : FunctionId, id.index < s.functions.size → t.function id = s.function id
  classObject : ∀ id : ClassId, id.index < s.classes.size → t.classObject id = s.classObject id
  owner : ∀ id : InstanceId, id.index < s.instances.size →
    (t.instance? id).map Instance.owner = (s.instance? id).map Instance.owner
  parent : ∀ id : ScopeId, id.index < s.scopes.size → (t.scope id).parent = (s.scope id).parent
  names : ∀ id name, ((s.scope id).bindings.get? name).isSome →
    ((t.scope id).bindings.get? name).isSome

theorem Extends.refl (s : Store) : s.Extends s where
  lists := Nat.le_refl _
  dicts := Nat.le_refl _
  instances := Nat.le_refl _
  functions := Nat.le_refl _
  classes := Nat.le_refl _
  scopes := Nat.le_refl _
  function _ _ := rfl
  classObject _ _ := rfl
  owner _ _ := rfl
  parent _ _ := rfl
  names _ _ h := h

theorem Extends.trans (h : s.Extends t) (h' : t.Extends u) : s.Extends u where
  lists := Nat.le_trans h.lists h'.lists
  dicts := Nat.le_trans h.dicts h'.dicts
  instances := Nat.le_trans h.instances h'.instances
  functions := Nat.le_trans h.functions h'.functions
  classes := Nat.le_trans h.classes h'.classes
  scopes := Nat.le_trans h.scopes h'.scopes
  function id hid := by
    rw [h'.function id (Nat.lt_of_lt_of_le hid h.functions), h.function id hid]
  classObject id hid := by
    rw [h'.classObject id (Nat.lt_of_lt_of_le hid h.classes), h.classObject id hid]
  owner id hid := by
    rw [h'.owner id (Nat.lt_of_lt_of_le hid h.instances), h.owner id hid]
  parent id hid := by
    rw [h'.parent id (Nat.lt_of_lt_of_le hid h.scopes), h.parent id hid]
  names id name hn := h'.names id name (h.names id name hn)

theorem Extends.knowsCallable (h : s.Extends t) {c : Callable} (hc : s.KnowsCallable c) :
    t.KnowsCallable c := by
  cases c with
  | native f => trivial
  | function id => exact Nat.lt_of_lt_of_le hc h.functions
  | classObject id => exact Nat.lt_of_lt_of_le hc h.classes
  | method receiver name => exact Nat.lt_of_lt_of_le hc h.instances
  | builtin receiver method =>
    cases receiver with
    | list id => exact Nat.lt_of_lt_of_le hc h.lists
    | string content => trivial
    | dict id => exact Nat.lt_of_lt_of_le hc h.dicts

/-- What is known stays known. -/
theorem Extends.knows (h : s.Extends t) {v : Value} (hv : s.Knows v) : t.Knows v := by
  match v, hv with
  | .list _, hv => exact Nat.lt_of_lt_of_le hv h.lists
  | .dict _, hv => exact Nat.lt_of_lt_of_le hv h.dicts
  | .instance _, hv => exact Nat.lt_of_lt_of_le hv h.instances
  | .callable _, hv => exact h.knowsCallable hv
  | .null, _ | .number _, _ | .string _, _ | .boolean _, _ => trivial

theorem exists_instance (id : InstanceId) (h : id.index < s.instances.size) :
    ∃ i, s.instance? id = some i :=
  ⟨s.instances[id.index], Array.getElem?_eq_getElem h⟩

theorem index_lt_of_instance? {id : InstanceId} {i : Instance} (h : s.instance? id = some i) :
    id.index < s.instances.size :=
  (Array.getElem?_eq_some_iff.mp h).1

/-- A known instance keeps its class. -/
theorem Extends.exists_instance? (h : s.Extends t) {id : InstanceId} {i : Instance}
    (hi : s.instance? id = some i) : ∃ j, t.instance? id = some j ∧ j.owner = i.owner := by
  have howner := h.owner id (index_lt_of_instance? hi)
  rw [hi, Option.map_some] at howner
  exact Option.map_eq_some_iff.mp howner

theorem Extends.instanceClass_eq (h : s.Extends t) (hs : s.Closed) {id : InstanceId}
    (hid : id.index < s.instances.size) : t.instanceClass id = s.instanceClass id := by
  obtain ⟨i, hi⟩ := exists_instance id hid
  obtain ⟨j, hj, howner⟩ := h.exists_instance? hi
  simp only [instanceClass, hi, hj, howner, className, h.classObject _ (hs.owners id i hi)]

/-- A known value keeps its type. -/
theorem Extends.conforms_eq (h : s.Extends t) (hs : s.Closed) {tag : TypeTag} {v : Value}
    (hv : s.Knows v) : t.conforms tag v = s.conforms tag v := by
  match v, hv with
  | .instance _, hv => cases tag <;> simp only [conforms, h.instanceClass_eq hs hv]
  | .null, _ | .number _, _ | .string _, _ | .boolean _, _ | .list _, _ | .dict _, _
  | .callable _, _ => cases tag <;> rfl

/-! ## Looking up names -/

theorem lookup_of_bound {id : ScopeId} {name : String} {b : Binding}
    (h : (s.scope id).bindings.get? name = some b) : s.lookup id name = some b := by
  rw [lookup, holder?, h]
  exact h

theorem lookup_of_parent {id parent : ScopeId} {name : String}
    (hb : (s.scope id).bindings.get? name = none) (hp : (s.scope id).parent = some parent)
    (hlt : parent.index < id.index) : s.lookup id name = s.lookup parent name := by
  rw [lookup, lookup, holder?, hb]
  simp only [hp, hlt, if_true]

theorem lookup_of_root {id : ScopeId} {name : String}
    (hb : (s.scope id).bindings.get? name = none) (hp : (s.scope id).parent = none) :
    s.lookup id name = none := by
  rw [lookup, holder?, hb]
  simp only [hp, Option.bind_none]

/-- A name that can be looked up is bound in the scope, or can be looked up in the scope around
it. -/
theorem lookup_cases {id : ScopeId} {name : String} {b : Binding} (h : s.lookup id name = some b) :
    (s.scope id).bindings.get? name = some b ∨
      (s.scope id).bindings.get? name = none ∧ ∃ parent, (s.scope id).parent = some parent ∧
        parent.index < id.index ∧ s.lookup parent name = some b := by
  cases hb : (s.scope id).bindings.get? name with
  | some b' => rw [lookup_of_bound hb] at h; exact .inl h
  | none =>
    refine .inr ⟨rfl, ?_⟩
    cases hp : (s.scope id).parent with
    | none => rw [lookup_of_root hb hp] at h; cases h
    | some parent =>
      by_cases hlt : parent.index < id.index
      · exact ⟨parent, rfl, hlt, by rw [← lookup_of_parent hb hp hlt, h]⟩
      · rw [lookup, holder?, hb] at h
        simp only [hp, hlt, if_false, Option.bind_none] at h
        cases h

theorem index_lt_of_parent {id parent : ScopeId} (h : (s.scope id).parent = some parent) :
    id.index < s.scopes.size := by
  by_cases hid : id.index < s.scopes.size
  · exact hid
  · rw [scope, Array.getElem?_eq_none (Nat.le_of_not_lt hid)] at h
    cases h

/-- **What can be looked up stays so**, though an inner variable may come to hide it. -/
theorem Extends.isSome_lookup (h : s.Extends t) {id : ScopeId} {name : String}
    (hn : (s.lookup id name).isSome) : (t.lookup id name).isSome := by
  obtain ⟨b, hb⟩ := Option.isSome_iff_exists.mp hn
  clear hn
  induction hk : id.index using Nat.strongRecOn generalizing id with
  | ind k ih =>
    rcases lookup_cases hb with hbound | ⟨-, parent, hp, hlt, hparent⟩
    · obtain ⟨c, hc⟩ := Option.isSome_iff_exists.mp (h.names id name (by rw [hbound]; rfl))
      rw [lookup_of_bound hc]
      rfl
    · have hp' : (t.scope id).parent = some parent := by
        rw [h.parent id (index_lt_of_parent hp), hp]
      cases hc : (t.scope id).bindings.get? name with
      | some c => rw [lookup_of_bound hc]; rfl
      | none =>
        rw [lookup_of_parent hc hp' hlt]
        exact ih parent.index (hk ▸ hlt) hparent rfl

theorem mem_of_get? {b : Bindings} {name : String} {binding : Binding}
    (h : b.get? name = some binding) : (name, binding) ∈ b := by
  obtain ⟨before, rest, rfl, -⟩ := List.lookup_eq_some_iff.mp h
  exact List.mem_append_right _ List.mem_cons_self

theorem exists_mem_of_lookup {id : ScopeId} {name : String} {b : Binding}
    (h : s.lookup id name = some b) : ∃ holder, (name, b) ∈ (s.scope holder).bindings := by
  cases hh : s.holder? name id with
  | none => rw [lookup, hh] at h; cases h
  | some holder =>
    rw [lookup, hh] at h
    exact ⟨holder, mem_of_get? h⟩

/-- A variable holds a known value. -/
theorem Closed.knows_lookup (hs : s.Closed) {id : ScopeId} {name : String} {b : Binding}
    (h : s.lookup id name = some b) : s.Knows b.value := by
  obtain ⟨holder, hmem⟩ := exists_mem_of_lookup h
  exact hs.values _ (.binding hmem)

end Store

end Chalk
