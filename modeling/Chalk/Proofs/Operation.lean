import Chalk.Proofs.Write
import Chalk.Eval.Expression
import Chalk.Eval.Call

/-!
# What the operations of the store do

Each operation that may change the store is taken apart once: when it succeeds, which write it makes
and what it has checked before; when it fails, that it leaves the store as it was. Everything that
is said later about runs rests on these statements and not on the definitions of the operations.

## Main results

* `Store.define_eq_ok`, `Store.assign_eq_ok`, `Store.writeItem_eq_ok`, `Store.writeField_eq_ok`,
  `Store.callMethod_eq_ok` — the write behind a success
* `Store.define_eq_error` and its likes — a failure changes nothing
* `Store.frame_values`, `Store.isSome_get?_param_frame` — the variables of a call
-/

namespace Chalk

/-! ## Variables, fields and entries -/

namespace Bindings

theorem mem_set {b : Bindings} {name : String} {binding : Binding} {entry : String × Binding}
    (h : entry ∈ b.set name binding) : entry = (name, binding) ∨ entry ∈ b := by
  induction b with
  | nil => exact .inl (List.mem_singleton.mp h)
  | cons head rest ih =>
    obtain ⟨other, old⟩ := head
    rw [set] at h
    split at h
    · rcases List.mem_cons.mp h with rfl | hrest
      · exact .inl rfl
      · exact .inr (List.mem_cons_of_mem _ hrest)
    · rcases List.mem_cons.mp h with rfl | hrest
      · exact .inr List.mem_cons_self
      · exact (ih hrest).imp_right (List.mem_cons_of_mem _)

theorem isSome_get?_set {b : Bindings} {name other : String} {binding : Binding}
    (h : (b.get? other).isSome) : ((b.set name binding).get? other).isSome := by
  by_cases hne : other = name
  · rw [hne, get?_set_self]
    rfl
  · rw [get?_set_of_ne hne]
    exact h

end Bindings

theorem mem_setField {fields : List (String × Field)} {name : String} {field : Field}
    {entry : String × Field} (h : entry ∈ setField fields name field) :
    entry = (name, field) ∨ entry ∈ fields := by
  induction fields with
  | nil => exact .inl (List.mem_singleton.mp h)
  | cons head rest ih =>
    obtain ⟨other, old⟩ := head
    rw [setField] at h
    split at h
    · rcases List.mem_cons.mp h with rfl | hrest
      · exact .inl rfl
      · exact .inr (List.mem_cons_of_mem _ hrest)
    · rcases List.mem_cons.mp h with rfl | hrest
      · exact .inr List.mem_cons_self
      · exact (ih hrest).imp_right (List.mem_cons_of_mem _)

namespace Entries

/-- An entry after an insertion was there before, or has the key of one that was there before and
the new value, or is the new key with the new value. -/
theorem mem_insert {s : Store} {fuel : Nat} {entries entries' : Entries} {key value : Value}
    (h : insert s fuel entries key value = .ok entries') {entry : Value × Value}
    (hmem : entry ∈ entries') :
    entry ∈ entries ∨ (∃ old ∈ entries, entry = (old.1, value)) ∨ entry = (key, value) := by
  rw [insert] at h
  split at h
  · cases h
  · cases h
    rw [setValue] at hmem
    obtain ⟨i, hi, rfl⟩ := List.mem_iff_getElem.mp hmem
    rw [List.getElem_modify]
    split
    · exact .inr (.inl ⟨_, List.getElem_mem _, rfl⟩)
    · exact .inl (List.getElem_mem _)
  · cases h
    rcases List.mem_append.mp hmem with hold | hnew
    · exact .inl hold
    · exact .inr (.inr (List.mem_singleton.mp hnew))

end Entries

namespace Store

variable {s t : Store}

/-! ## Successful operations -/

theorem declareIn_eq_ok {bindings bindings' : Bindings} {name : String} {binding : Binding}
    (h : s.declareIn bindings name binding = .ok bindings') :
    s.conforms binding.tag binding.value ∧ bindings' = bindings.set name binding := by
  rw [declareIn] at h
  split at h
  · cases h
  · split at h
    · cases h
      exact ⟨‹_›, rfl⟩
    · cases h

theorem define_eq_ok {id : ScopeId} {name : String} {binding : Binding}
    (h : s.define id name binding = .ok () t) :
    s.conforms binding.tag binding.value ∧
      t = s.setBindings id ((s.scope id).bindings.set name binding) := by
  rw [define] at h
  split at h
  · cases h
  · cases h
    obtain ⟨hconf, rfl⟩ := declareIn_eq_ok ‹_›
    exact ⟨hconf, rfl⟩

theorem assign_eq_ok {id : ScopeId} {name : String} {value : Value}
    (h : s.assign id name value = .ok () t) :
    ∃ holder old, s.holder? name id = some holder ∧
      (s.scope holder).bindings.get? name = some old ∧ old.constant = false ∧
      s.conforms old.tag value ∧
      t = s.setBindings holder ((s.scope holder).bindings.set name { old with value }) := by
  rw [assign] at h
  split at h
  · cases h
  · rename_i holder hholder
    split at h
    · cases h
    · rename_i old hold
      split at h
      · cases h
      · rename_i hconst
        split at h
        · rename_i hconf
          cases h
          exact ⟨holder, old, hholder, hold, by simpa using hconst, hconf, rfl⟩
        · cases h

theorem writeItem_eq_ok {fuel : Nat} {container index value : Value}
    (h : s.writeItem fuel container index value = .ok () t) :
    (∃ id place, container = .list id ∧
        t = s.modifyList id fun elements => elements.setIfInBounds place value) ∨
      ∃ id entries, container = .dict id ∧
        Entries.insert s fuel (s.dict id) index value = .ok entries ∧ t = s.setDict id entries := by
  rw [writeItem.eq_def] at h
  split at h
  · rw [writeElement.eq_def] at h
    split at h
    · split at h
      · cases h
      · cases h
        exact .inl ⟨_, _, rfl, rfl⟩
    · split at h <;> cases h
  · rw [insertItem_eq_insert] at h
    split at h
    · cases h
    · cases h
      exact .inr ⟨_, _, rfl, ‹_›, rfl⟩
  · cases h

theorem writeField_eq_ok {id : InstanceId} {name : String} {value : Value}
    (h : s.writeField id name value = .ok () t) :
    ∃ field, s.field? id name = some field ∧ s.conforms field.tag value ∧
      t = s.setFields id (setField (s.fields id) name { field with value }) := by
  rw [writeField] at h
  split at h
  · cases h
  · split at h
    · cases h
      exact ⟨_, ‹_›, ‹_›, rfl⟩
    · cases h

theorem removeItem_eq_ok {fuel : Nat} {id : DictId} {key v : Value}
    (h : s.removeItem fuel id key = .ok v t) :
    ∃ place entry, (s.dict id)[place]? = some entry ∧ v = entry.2 ∧
      t = s.setDict id ((s.dict id).eraseIdx place) := by
  rw [removeItem] at h
  split at h
  · cases h
  · cases h
  · split at h
    · cases h
    · cases h
      exact ⟨_, _, ‹_›, rfl, rfl⟩

/-- What a built-in method does when it succeeds: it appends to a list or takes the last element
off it, leaves the store alone and gives a number or a truth value, puts the keys of a dict into a
fresh list, or takes an entry out of a dict. -/
theorem callMethod_eq_ok {fuel : Nat} {method : Method} {receiver v : Value}
    {arguments : List Value} (h : s.callMethod fuel method receiver arguments = .ok v t) :
    (∃ id, v = .null ∧ t = s.modifyList id fun elements => elements ++ arguments.toArray) ∨
      (∃ id, (s.list id).back? = some v ∧ t = s.modifyList id Array.pop) ∨
      (((∃ x, v = .number x) ∨ ∃ b, v = .boolean b) ∧ t = s) ∨
      (∃ id, v = .list (s.newList (Entries.keys (s.dict id)).toArray).1 ∧
        t = (s.newList (Entries.keys (s.dict id)).toArray).2) ∨
      ∃ id place entry, (s.dict id)[place]? = some entry ∧ v = entry.2 ∧
        t = s.setDict id ((s.dict id).eraseIdx place) := by
  rw [callMethod.eq_def] at h
  split at h
  · cases h
    exact .inl ⟨_, rfl, rfl⟩
  · split at h
    · cases h
      exact .inr (.inl ⟨_, ‹_›, rfl⟩)
    · cases h
  · cases h
    exact .inr (.inr (.inl ⟨.inl ⟨_, rfl⟩, rfl⟩))
  · split at h
    · cases h
      exact .inr (.inr (.inl ⟨.inl ⟨_, rfl⟩, rfl⟩))
    · cases h
  · split at h
    · cases h
      exact .inr (.inr (.inl ⟨.inr ⟨_, rfl⟩, rfl⟩))
    · cases h
  · cases h
    exact .inr (.inr (.inl ⟨.inl ⟨_, rfl⟩, rfl⟩))
  · cases h
    exact .inr (.inr (.inr (.inl ⟨_, rfl, rfl⟩)))
  · exact .inr (.inr (.inr (.inr ⟨_, removeItem_eq_ok h⟩)))
  · cases h

/-! ## Failing operations -/

theorem define_eq_error {id : ScopeId} {name : String} {binding : Binding} {f : Failure Fault}
    (h : s.define id name binding = .error f t) : t = s := by
  rw [define] at h
  split at h <;> cases h
  rfl

theorem assign_eq_error {id : ScopeId} {name : String} {value : Value} {f : Failure Fault}
    (h : s.assign id name value = .error f t) : t = s := by
  rw [assign] at h
  repeat' split at h
  all_goals cases h
  all_goals rfl

theorem writeItem_eq_error {fuel : Nat} {container index value : Value} {f : Failure Fault}
    (h : s.writeItem fuel container index value = .error f t) : t = s := by
  rw [writeItem.eq_def] at h
  simp only [writeElement, insertItem] at h
  repeat' split at h
  all_goals cases h
  all_goals rfl

theorem writeField_eq_error {id : InstanceId} {name : String} {value : Value} {f : Failure Fault}
    (h : s.writeField id name value = .error f t) : t = s := by
  rw [writeField] at h
  repeat' split at h
  all_goals cases h
  all_goals rfl

theorem removeItem_eq_error {fuel : Nat} {id : DictId} {key : Value} {f : Failure Fault}
    (h : s.removeItem fuel id key = .error f t) : t = s := by
  rw [removeItem] at h
  repeat' split at h
  all_goals cases h
  all_goals rfl

theorem callMethod_eq_error {fuel : Nat} {method : Method} {receiver : Value}
    {arguments : List Value} {f : Failure Fault}
    (h : s.callMethod fuel method receiver arguments = .error f t) : t = s := by
  rw [callMethod.eq_def] at h
  split at h
  · cases h
  · split at h <;> cases h
    rfl
  · cases h
  · split at h <;> cases h
    rfl
  · split at h <;> cases h
    rfl
  · cases h
  · cases h
  · exact removeItem_eq_error h
  · cases h
    rfl

end Store

/-! ## The variables of a call -/

/-- A property that every step of a fold keeps holds of its result. -/
theorem foldlM_ok_of_step {α β ε : Type} {f : β → α → Except ε β} {P : β → Prop} {l : List α}
    {b b' : β} (h : l.foldlM f b = .ok b') (hb : P b)
    (hstep : ∀ b a b', a ∈ l → P b → f b a = .ok b' → P b') : P b' := by
  induction l generalizing b with
  | nil =>
    cases h
    exact hb
  | cons a rest ih =>
    rw [List.foldlM_cons] at h
    cases hf : f b a with
    | error e => rw [hf] at h; cases h
    | ok c =>
      rw [hf] at h
      exact ih h (hstep b a c List.mem_cons_self hb hf) fun b a' b' hmem =>
        hstep b a' b' (List.mem_cons_of_mem _ hmem)

/-- A fold that fails fails at one of its elements, after steps that keep a property. -/
theorem foldlM_error_of_step {α β ε : Type} {f : β → α → Except ε β} {P : β → Prop} {l : List α}
    {b : β} {e : ε} (h : l.foldlM f b = .error e) (hb : P b)
    (hstep : ∀ b a b', a ∈ l → P b → f b a = .ok b' → P b') :
    ∃ b a, a ∈ l ∧ P b ∧ f b a = .error e := by
  induction l generalizing b with
  | nil => cases h
  | cons a rest ih =>
    rw [List.foldlM_cons] at h
    cases hf : f b a with
    | error e' =>
      rw [hf] at h
      cases h
      exact ⟨b, a, List.mem_cons_self, hb, hf⟩
    | ok c =>
      rw [hf] at h
      obtain ⟨b, a', hmem, hP, herror⟩ := ih h (hstep b a c List.mem_cons_self hb hf)
        fun b a' b' hmem => hstep b a' b' (List.mem_cons_of_mem _ hmem)
      exact ⟨b, a', List.mem_cons_of_mem _ hmem, hP, herror⟩

/-- What a step of a fold establishes for its element, and the others keep, holds of the result for
every element. -/
theorem foldlM_ok_forall_mem {α β ε : Type} {f : β → α → Except ε β} {Q : α → β → Prop}
    {l : List α} {b b' : β} (h : l.foldlM f b = .ok b') (hnew : ∀ b a b', f b a = .ok b' → Q a b')
    (hkeep : ∀ b a a' b', Q a b → f b a' = .ok b' → Q a b') : ∀ a ∈ l, Q a b' := by
  induction l generalizing b with
  | nil => exact fun a hmem => absurd hmem List.not_mem_nil
  | cons head rest ih =>
    rw [List.foldlM_cons] at h
    cases hf : f b head with
    | error e => rw [hf] at h; cases h
    | ok c =>
      rw [hf] at h
      intro a hmem
      rcases List.mem_cons.mp hmem with rfl | hrest
      · exact foldlM_ok_of_step h (hnew b a c hf) fun b a' b' _ hq => hkeep b a a' b' hq
      · exact ih h a hrest

namespace Store

variable {s : Store} {decl : Func} {this : Option Value} {arguments : List Value}
  {bindings : Bindings}

/-- The variables of a call with one more parameter bound. -/
def bindParam (s : Store) (decl : Func) (bindings : Bindings) (pair : Slot × Value) :
    Except (Failure Fault) Bindings :=
  if s.conforms pair.1.tag pair.2 then
    s.declareIn bindings pair.1.name { value := pair.2, tag := pair.1.tag, constant := false }
  else
    throw (.fault (.argumentType decl.name pair.1.name pair.1.tag.text (s.typeName pair.2)))

/-- The variables of a call before its parameters: `this`, if there is a receiver. -/
def receiverBindings : Option Value → Bindings
  | none => []
  | some value => [("this", { value, tag := .object, constant := true })]

theorem conforms_object (s : Store) (v : Value) : s.conforms .object v = true := by
  cases v <;> rfl

/-- Binding the receiver never fails, so the variables of a call are a fold over the parameters. -/
theorem frame_eq (s : Store) (decl : Func) (this : Option Value) (arguments : List Value) :
    s.frame decl this arguments =
      (decl.params.zip arguments).foldlM (s.bindParam decl) (receiverBindings this) := by
  cases this with
  | none => rfl
  | some value =>
    have h : s.declareIn [] "this" { value, tag := .object, constant := true } =
        .ok (receiverBindings (some value)) := by
      simp [declareIn, conforms_object, Bindings.get?, Bindings.set, receiverBindings]
    rw [frame]
    simp only [h]
    rfl

theorem bindParam_eq_ok {b b' : Bindings} {pair : Slot × Value}
    (h : s.bindParam decl b pair = .ok b') :
    s.conforms pair.1.tag pair.2 ∧
      b' = b.set pair.1.name { value := pair.2, tag := pair.1.tag, constant := false } := by
  rw [bindParam] at h
  split at h
  · exact declareIn_eq_ok h
  · cases h

/-- Variables of a call that cannot be bound fail at one of the parameters. -/
theorem exists_bindParam_eq_error {f : Failure Fault} (h : s.frame decl this arguments = .error f) :
    ∃ b pair, pair ∈ decl.params.zip arguments ∧ s.bindParam decl b pair = .error f := by
  rw [frame_eq] at h
  obtain ⟨b, pair, hpair, -, hfails⟩ := foldlM_error_of_step (P := fun _ => True) h trivial
    fun _ _ _ _ _ _ => trivial
  exact ⟨b, pair, hpair, hfails⟩

/-- The variables of a call hold the receiver and the arguments, and each value fits the type of its
variable. -/
theorem frame_values (h : s.frame decl this arguments = .ok bindings) :
    ∀ entry ∈ bindings, s.conforms entry.2.tag entry.2.value ∧
      (this = some entry.2.value ∨ entry.2.value ∈ arguments) := by
  rw [frame_eq] at h
  refine foldlM_ok_of_step (P := fun b => ∀ entry ∈ b, s.conforms entry.2.tag entry.2.value ∧
    (this = some entry.2.value ∨ entry.2.value ∈ arguments)) h ?_ ?_
  · intro entry hmem
    cases this with
    | none => exact absurd hmem List.not_mem_nil
    | some value =>
      cases List.mem_singleton.mp hmem
      exact ⟨conforms_object s value, .inl rfl⟩
  · intro b pair b' hpair hb hstep entry hmem
    obtain ⟨hconf, rfl⟩ := bindParam_eq_ok hstep
    rcases Bindings.mem_set hmem with rfl | hold
    · exact ⟨hconf, .inr (List.of_mem_zip hpair).2⟩
    · exact hb entry hold

/-- The receiver of a call is bound to `this`. -/
theorem isSome_get?_this_frame (h : s.frame decl this arguments = .ok bindings)
    (hthis : this.isSome) : (bindings.get? "this").isSome := by
  rw [frame_eq] at h
  refine foldlM_ok_of_step (P := fun b : Bindings => (b.get? "this").isSome) h ?_ ?_
  · cases this with
    | none => cases hthis
    | some value => rfl
  · intro b pair b' _ hb hstep
    obtain ⟨-, rfl⟩ := bindParam_eq_ok hstep
    exact Bindings.isSome_get?_set hb

/-- Every parameter of a call with enough arguments is bound. -/
theorem isSome_get?_param_frame (h : s.frame decl this arguments = .ok bindings)
    (hlength : decl.params.length ≤ arguments.length) :
    ∀ param ∈ decl.params, (bindings.get? param.name).isSome := by
  rw [frame_eq] at h
  have hall := foldlM_ok_forall_mem (Q := fun pair b => (b.get? pair.1.name).isSome) h
    (fun b pair b' hstep => by
      obtain ⟨-, rfl⟩ := bindParam_eq_ok hstep
      rw [Bindings.get?_set_self]
      rfl)
    (fun b pair pair' b' hq hstep => by
      obtain ⟨-, rfl⟩ := bindParam_eq_ok hstep
      exact Bindings.isSome_get?_set hq)
  intro param hparam
  rw [← List.map_fst_zip hlength] at hparam
  obtain ⟨pair, hmem, rfl⟩ := List.mem_map.mp hparam
  exact hall pair hmem

end Store

end Chalk
