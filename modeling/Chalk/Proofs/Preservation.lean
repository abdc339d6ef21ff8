import Chalk.Proofs.Operation

/-!
# Operations on stores without dangling references

The readers of a closed store give known values, and the operations that change it lead to a later
store that is closed again, provided that they are given known values.

## Main results

* `Store.Closed.knows_getVariable`, `Store.Closed.knows_element`, `Store.Closed.knows_member` — the
  readers
* `Store.extends_define` and its likes — every success leads to a later store
* `Store.Closed.define` and its likes — every success keeps the store closed
-/

namespace Chalk

namespace Store

variable {s t : Store}

/-! ## Readers -/

theorem Closed.knows_getVariable (hs : s.Closed) {id : ScopeId} {name : String} {v : Value}
    (h : s.getVariable id name = .ok v) : s.Knows v := by
  rw [getVariable] at h
  split at h
  · cases h
    exact hs.knows_lookup ‹_›
  · cases h

/-- A variable that is not found is the only fault of reading a name. -/
theorem getVariable_eq_error {id : ScopeId} {name : String} {f : Failure Fault}
    (h : s.getVariable id name = .error f) :
    s.lookup id name = none ∧ f = .fault (.undefinedVariable name) := by
  rw [getVariable] at h
  split at h
  · cases h
  · cases h
    exact ⟨‹_›, rfl⟩

theorem Closed.knows_fields (hs : s.Closed) {id : InstanceId} {entry : String × Field}
    (h : entry ∈ s.fields id) : s.Knows entry.2.value := by
  rw [fields] at h
  cases hi : s.instance? id with
  | none =>
    rw [hi] at h
    exact absurd h List.not_mem_nil
  | some i =>
    rw [hi] at h
    exact hs.values _ (.field hi h)

theorem Closed.knows_field? (hs : s.Closed) {id : InstanceId} {name : String} {field : Field}
    (h : s.field? id name = some field) : s.Knows field.value := by
  obtain ⟨before, rest, heq, -⟩ := List.lookup_eq_some_iff.mp h
  have hmem : (name, field) ∈ s.fields id := by
    rw [heq]
    exact List.mem_append_right _ List.mem_cons_self
  exact hs.knows_fields hmem

theorem knows_builtinMethod? {receiver v : Value} {name : String} (hr : s.Knows receiver)
    (h : builtinMethod? receiver name = some v) : s.Knows v := by
  rw [builtinMethod?] at h
  obtain ⟨r, hr', h⟩ := Option.bind_eq_some_iff.mp h
  obtain ⟨method, -, h⟩ := Option.bind_eq_some_iff.mp h
  cases h
  match receiver, hr, hr' with
  | .list _, hr, rfl => exact hr
  | .string _, _, rfl => trivial
  | .dict _, hr, rfl => exact hr

theorem Closed.knows_member (hs : s.Closed) {receiver v : Value} {name : String}
    (hr : s.Knows receiver) (h : s.member receiver name = .ok v) : s.Knows v := by
  rw [member, member?.eq_def] at h
  split at h
  · rename_i hfound
    cases h
    split at hfound
    · rename_i id
      rcases Option.or_eq_some_iff.mp hfound with hfield | ⟨-, hmethod⟩
      · obtain ⟨field, hlookup, rfl⟩ := Option.map_eq_some_iff.mp hfield
        exact hs.knows_field? hlookup
      · obtain ⟨decl, -, rfl⟩ := Option.map_eq_some_iff.mp hmethod
        exact hr
    · exact knows_builtinMethod? hr hfound
  · cases h

theorem Closed.knows_getItem (hs : s.Closed) {fuel : Nat} {id : DictId} {key v : Value}
    (h : s.getItem fuel id key = .ok v) : s.Knows v := by
  rw [getItem] at h
  split at h
  · cases h
  · rename_i hget
    cases h
    rw [Entries.get?] at hget
    split at hget
    · cases hget
    · simp only [Except.ok.injEq, Option.map_eq_some_iff] at hget
      obtain ⟨entry, hentry, rfl⟩ := hget
      exact hs.values _ (.value (List.mem_of_getElem? hentry))
    · cases hget
  · cases h

theorem Closed.knows_element (hs : s.Closed) {fuel : Nat} {container index v : Value}
    (h : s.element fuel container index = .ok v) : s.Knows v := by
  rw [element.eq_def] at h
  split at h
  · rename_i id
    cases hp : s.position index (s.list id).size with
    | error f => rw [hp] at h; cases h
    | ok place =>
      rw [hp] at h
      cases h
      dsimp only
      cases hv : (s.list id)[place]? with
      | none => trivial
      | some v => exact hs.values _ (.element (Array.mem_of_getElem? hv))
  · rename_i content
    cases hp : s.position index content.length with
    | error f => rw [hp] at h; cases h
    | ok place =>
      rw [hp] at h
      cases h
      dsimp only
      cases content.toList[place]? <;> trivial
  · exact hs.knows_getItem h
  · cases h

theorem numeric_eq_ok {op : BinaryOp} {left right v : Value}
    {apply : Float → Float → Except (Failure Fault) Value}
    (h : s.numeric op left right apply = .ok v) : ∃ a b, apply a b = .ok v := by
  rw [numeric.eq_def] at h
  split at h
  · exact ⟨_, _, h⟩
  · cases h

/-- Operators give numbers, texts and truth values. -/
theorem knows_binary {fuel : Nat} {op : BinaryOp} {left right v : Value}
    (h : s.binary fuel op left right = .ok v) : s.Knows v := by
  cases op with
  | equal | notEqual =>
    simp only [binary, equalValue] at h
    split at h <;> cases h
    trivial
  | add =>
    simp only [binary, add] at h
    split at h
    · cases h
      trivial
    · cases h
      trivial
    · cases h
      trivial
    · cases h
  | div | mod =>
    obtain ⟨a, b, h⟩ := numeric_eq_ok h
    split at h <;> cases h
    trivial
  | sub | mul | pow | less | lessEqual | greater | greaterEqual =>
    obtain ⟨a, b, h⟩ := numeric_eq_ok h
    cases h
    trivial

theorem knows_unary {op : UnaryOp} {operand v : Value} (h : s.unary op operand = .ok v) :
    s.Knows v := by
  rw [unary.eq_def] at h
  split at h <;> cases h <;> trivial

/-! ## Operations lead to later stores -/

theorem extends_define {id : ScopeId} {name : String} {binding : Binding}
    (h : s.define id name binding = .ok () t) : s.Extends t := by
  obtain ⟨-, rfl⟩ := define_eq_ok h
  exact extends_setBindings fun _ => Bindings.isSome_get?_set

theorem extends_assign {id : ScopeId} {name : String} {value : Value}
    (h : s.assign id name value = .ok () t) : s.Extends t := by
  obtain ⟨holder, old, -, -, -, -, rfl⟩ := assign_eq_ok h
  exact extends_setBindings fun _ => Bindings.isSome_get?_set

theorem extends_writeItem {fuel : Nat} {container index value : Value}
    (h : s.writeItem fuel container index value = .ok () t) : s.Extends t := by
  rcases writeItem_eq_ok h with ⟨id, place, -, rfl⟩ | ⟨id, entries, -, -, rfl⟩
  · exact extends_modifyList s id _
  · exact extends_setDict s id entries

theorem extends_writeField {id : InstanceId} {name : String} {value : Value}
    (h : s.writeField id name value = .ok () t) : s.Extends t := by
  obtain ⟨field, -, -, rfl⟩ := writeField_eq_ok h
  exact extends_setFields s id _

theorem extends_callMethod {fuel : Nat} {method : Method} {receiver v : Value}
    {arguments : List Value} (h : s.callMethod fuel method receiver arguments = .ok v t) :
    s.Extends t := by
  rcases callMethod_eq_ok h with ⟨id, -, rfl⟩ | ⟨id, -, rfl⟩ | ⟨-, rfl⟩ | ⟨id, -, rfl⟩ |
    ⟨id, place, entry, -, -, rfl⟩
  · exact extends_modifyList s id _
  · exact extends_modifyList s id _
  · exact .refl _
  · exact extends_newList s _
  · exact extends_setDict s id _

/-! ## Operations on closed stores -/

theorem Closed.define (hs : s.Closed) {id : ScopeId} {name : String} {binding : Binding}
    (hv : s.Knows binding.value) (h : s.define id name binding = .ok () t) : t.Closed := by
  obtain ⟨-, rfl⟩ := define_eq_ok h
  refine hs.setBindings (fun _ => Bindings.isSome_get?_set) fun entry hmem => ?_
  rcases Bindings.mem_set hmem with rfl | hold
  · exact hv
  · exact hs.values _ (.binding hold)

theorem Closed.assign (hs : s.Closed) {id : ScopeId} {name : String} {value : Value}
    (hv : s.Knows value) (h : s.assign id name value = .ok () t) : t.Closed := by
  obtain ⟨holder, old, -, -, -, -, rfl⟩ := assign_eq_ok h
  refine hs.setBindings (fun _ => Bindings.isSome_get?_set) fun entry hmem => ?_
  rcases Bindings.mem_set hmem with rfl | hold
  · exact hv
  · exact hs.values _ (.binding hold)

/-- The entries of a dict after an insertion of known values are known. -/
theorem knows_insert {fuel : Nat} {entries entries' : Entries} {key value : Value}
    (hentries : ∀ entry ∈ entries, s.Knows entry.1 ∧ s.Knows entry.2) (hk : s.Knows key)
    (hv : s.Knows value) (h : Entries.insert s fuel entries key value = .ok entries') :
    ∀ entry ∈ entries', s.Knows entry.1 ∧ s.Knows entry.2 := by
  intro entry hmem
  rcases Entries.mem_insert h hmem with hold | ⟨old, hold, rfl⟩ | rfl
  · exact hentries entry hold
  · exact ⟨(hentries old hold).1, hv⟩
  · exact ⟨hk, hv⟩

theorem Closed.knows_entries (hs : s.Closed) {id : DictId} :
    ∀ entry ∈ s.dict id, s.Knows entry.1 ∧ s.Knows entry.2 := fun _ hmem =>
  ⟨hs.values _ (.key hmem), hs.values _ (.value hmem)⟩

theorem Closed.writeItem (hs : s.Closed) {fuel : Nat} {container index value : Value}
    (hi : s.Knows index) (hv : s.Knows value)
    (h : s.writeItem fuel container index value = .ok () t) : t.Closed := by
  rcases writeItem_eq_ok h with ⟨id, place, -, rfl⟩ | ⟨id, entries, -, hins, rfl⟩
  · refine hs.modifyList fun v hmem => ?_
    rcases Array.mem_or_eq_of_mem_setIfInBounds hmem with hold | rfl
    · exact hs.values v (.element hold)
    · exact hv
  · exact hs.setDict (knows_insert hs.knows_entries hi hv hins)

theorem Closed.writeField (hs : s.Closed) {id : InstanceId} {name : String} {value : Value}
    (hv : s.Knows value) (h : s.writeField id name value = .ok () t) : t.Closed := by
  obtain ⟨field, -, -, rfl⟩ := writeField_eq_ok h
  refine hs.setFields fun entry hmem => ?_
  rcases mem_setField hmem with rfl | hold
  · exact hv
  · exact hs.knows_fields hold

theorem Closed.callMethod (hs : s.Closed) {fuel : Nat} {method : Method} {receiver v : Value}
    {arguments : List Value} (hargs : ∀ a ∈ arguments, s.Knows a)
    (h : s.callMethod fuel method receiver arguments = .ok v t) : t.Closed ∧ t.Knows v := by
  rcases callMethod_eq_ok h with ⟨id, rfl, rfl⟩ | ⟨id, hback, rfl⟩ | ⟨hv, rfl⟩ | ⟨id, rfl, rfl⟩ |
    ⟨id, place, entry, hentry, rfl, rfl⟩
  · refine ⟨hs.modifyList fun v hmem => ?_, trivial⟩
    rcases Array.mem_append.mp hmem with hold | hnew
    · exact hs.values v (.element hold)
    · exact hargs v (List.mem_toArray.mp hnew)
  · refine ⟨hs.modifyList fun v hmem => ?_, ?_⟩
    · have hold : v ∈ (s.list id).toList := List.dropLast_subset _ (Array.mem_toList_iff.mpr hmem)
      exact hs.values v (.element (Array.mem_toList_iff.mp hold))
    · exact (extends_modifyList s id _).knows (hs.values v (.element (Array.mem_of_back? hback)))
  · refine ⟨hs, ?_⟩
    rcases hv with ⟨x, rfl⟩ | ⟨b, rfl⟩ <;> trivial
  · refine ⟨hs.newList fun v hmem => ?_, ?_⟩
    · obtain ⟨entry, hentry, rfl⟩ := List.mem_map.mp (List.mem_toArray.mp hmem)
      exact hs.values _ (.key hentry)
    · exact knows_newList s _
  · refine ⟨hs.setDict fun e hmem => hs.knows_entries e (List.mem_of_mem_eraseIdx hmem), ?_⟩
    exact (extends_setDict s id _).knows (hs.values _ (.value (List.mem_of_getElem? hentry)))

/-- Fresh fields are null. -/
theorem initialFields_null (decl : Class) :
    ∀ entry ∈ decl.initialFields, entry.2.value = .null := by
  rw [ClassOf.initialFields]
  refine List.foldlRecOn (motive := fun fields : List (String × Field) =>
    ∀ entry ∈ fields, entry.2.value = .null) decl.fields _
    (fun entry hmem => absurd hmem List.not_mem_nil) ?_
  intro fields hfields slot _ entry hmem
  rcases mem_setField hmem with rfl | hold
  · rfl
  · exact hfields entry hold

theorem Closed.instantiate (hs : s.Closed) {id : ClassId} (hid : id.index < s.classes.size) :
    (s.instantiate id).2.Closed :=
  hs.newInstance hid fun entry hmem => by
    rw [initialFields_null _ entry hmem]
    trivial

end Store

end Chalk
