import Chalk.Proofs.Bisimulation
import Chalk.Proofs.Reachable

/-!
# What makes two callables equal

A callable stands for an object: a built-in function, a declared function or class with its scope, a
method of an instance, a built-in method of a list, a dict or a text. Two callables should be equal
if they stand for the same one, whatever lists and dicts hold at the moment. That is so with one
exception. Two built-in methods of one name whose receivers are different lists, or different dicts,
are equal as long as the receivers are, and this can change with what is written into them.

What such a comparison depends on is said by a frame: a comparison reads only the lists and dicts
that it can come to from its two values (`Store.equalIn?_congr`), so a write anywhere else leaves it
as it was, its ending included.

## Main definitions

* `Callable.Twins` — the exception
* `Store.AgreesFrom` — stores that hold the same in everything that can be come to from a value

## Main results

* `Store.equalIn?_congr` — the frame of a comparison
* `Store.equal?_callables` — callables are compared by identity, but for twins
-/

namespace Chalk

section Tests

variable {α : Type} {first second : α → Option Bool} {xs : List α}

theorem allWhile_congr (h : ∀ x ∈ xs, first x = second x) :
    allWhile first xs = allWhile second xs := by
  induction xs with
  | nil => rfl
  | cons x xs ih =>
    obtain ⟨hx, hxs⟩ := List.forall_mem_cons.mp h
    rw [allWhile, allWhile, hx, ih hxs]

theorem anyWhile_congr (h : ∀ x ∈ xs, first x = second x) :
    anyWhile first xs = anyWhile second xs := by
  induction xs with
  | nil => rfl
  | cons x xs ih =>
    obtain ⟨hx, hxs⟩ := List.forall_mem_cons.mp h
    rw [anyWhile, anyWhile, hx, ih hxs]

end Tests

/-- Two different lists, or two different dicts. -/
inductive Receiver.Separate : Receiver → Receiver → Prop where
  | lists {a b : ListId} (differ : a ≠ b) : Separate (.list a) (.list b)
  | dicts {a b : DictId} (differ : a ≠ b) : Separate (.dict a) (.dict b)

theorem Receiver.Separate.ne {r r' : Receiver} (h : r.Separate r') : r ≠ r' := by
  cases h with
  | lists differ | dicts differ => simpa using differ

/-- Two built-in methods of one name whose receivers are two different lists, or two different
dicts. -/
inductive Callable.Twins : Callable → Callable → Receiver → Receiver → Prop where
  | of {r r' : Receiver} (method : Method) (separate : r.Separate r') :
      Twins (.builtin r method) (.builtin r' method) r r'

namespace Store

open Relation

variable {s t : Store} {v w u : Value}

/-! ## What a comparison reads -/

/-- The two stores hold the same in every list and dict that a comparison can come to from the
value. -/
structure AgreesFrom (s t : Store) (v : Value) : Prop where
  list : ∀ id, ReflTransGen s.LeadsInto v (.list id) → t.list id = s.list id
  dict : ∀ id, ReflTransGen s.LeadsInto v (.dict id) → t.dict id = s.dict id

theorem AgreesFrom.of_leadsInto (h : s.AgreesFrom t v) (hu : s.LeadsInto v u) :
    s.AgreesFrom t u where
  list id hid := h.list id (.head hu hid)
  dict id hid := h.dict id (.head hu hid)

/-- **A comparison reads only what it can come to**: stores that agree there answer alike, with any
budget. -/
theorem equalIn?_congr (n : Nat) (active : List (Node × Node)) (hv : s.AgreesFrom t v)
    (hw : s.AgreesFrom t w) : t.equalIn? n active v w = s.equalIn? n active v w := by
  induction n generalizing active v w with
  | zero => rfl
  | succ n ih =>
    rcases v with _ | _ | _ | _ | a | a | _ | (_ | _ | _ | _ | ⟨r, method⟩) <;>
    rcases w with _ | _ | _ | _ | b | b | _ | (_ | _ | _ | _ | ⟨r', method'⟩) <;>
    try rfl
    · rw [equalIn?_list, equalIn?_list, hv.list a .refl, hw.list b .refl]
      congr 2
      refine allWhile_congr fun pair hpair => ?_
      obtain ⟨hx, hy⟩ := List.of_mem_zip hpair
      exact ih _ (hv.of_leadsInto (.part (.element (Array.mem_toList_iff.mp hx))))
        (hw.of_leadsInto (.part (.element (Array.mem_toList_iff.mp hy))))
    · rw [equalIn?_dict, equalIn?_dict, hv.dict a .refl, hw.dict b .refl]
      congr 2
      refine allWhile_congr fun entry hentry => anyWhile_congr fun other hother => ?_
      rw [agree?, agree?,
        ih _ (hv.of_leadsInto (.part (.key hentry))) (hw.of_leadsInto (.part (.key hother))),
        ih _ (hv.of_leadsInto (.part (.value hentry))) (hw.of_leadsInto (.part (.value hother)))]
    · rw [equalIn?_builtin, equalIn?_builtin, compare?, compare?,
        ih _ (hv.of_leadsInto (.receiver r method)) (hw.of_leadsInto (.receiver r' method'))]

theorem agreesFrom_modifyList {id : ListId} (f : Array Value → Array Value)
    (h : ¬ReflTransGen s.LeadsInto v (.list id)) : s.AgreesFrom (s.modifyList id f) v where
  list _ hother := list_modifyList_of_ne fun heq => h (heq ▸ hother)
  dict _ _ := rfl

/-! ## Callables -/

theorem name_of_instanceMethod? {r : InstanceId} {name : String} {decl : Func}
    (h : s.instanceMethod? r name = some decl) : decl.name = name := by
  obtain ⟨i, -, hmethod⟩ := Option.bind_eq_some_iff.mp h
  have hname := List.find?_some hmethod
  exact beq_iff_eq.mp hname

/-- Two methods are the same if they are one declaration bound to one instance. -/
theorem method_eq_iff {r r' : InstanceId} {name name' : String} {decl : Func}
    (h : s.instanceMethod? r name = some decl) :
    Callable.method r name = .method r' name' ↔
      r = r' ∧ s.instanceMethod? r' name' = some decl := by
  constructor
  · intro heq
    cases heq
    exact ⟨rfl, h⟩
  · rintro ⟨rfl, h'⟩
    rw [← name_of_instanceMethod? h, ← name_of_instanceMethod? h']

/-- Receivers are compared by identity, and texts by what they say, unless they are separate. -/
theorem equal?_receivers {r r' : Receiver} (h : ¬r.Separate r') (n : Nat) :
    s.equal? (n + 1) r.toValue r'.toValue = some (decide (r = r')) := by
  rw [equal?]
  cases r with
  | list a =>
    cases r' with
    | list b =>
      have hab : a = b := Decidable.not_not.mp fun hne => h (.lists hne)
      rw [Receiver.toValue, Receiver.toValue, equalIn?_list, if_pos (.inl hab), hab]
      simp
    | string _ | dict _ => rfl
  | dict a =>
    cases r' with
    | dict b =>
      have hab : a = b := Decidable.not_not.mp fun hne => h (.dicts hne)
      rw [Receiver.toValue, Receiver.toValue, equalIn?_dict, if_pos (.inl hab), hab]
      simp
    | string _ | list _ => rfl
  | string a =>
    cases r' with
    | string b =>
      rw [Receiver.toValue, Receiver.toValue, equalIn?]
      simp [Bool.beq_eq_decide_eq]
    | list _ | dict _ => rfl

/-- Built-in methods of one name are compared by their receivers, from the start. -/
theorem equal?_builtin (r r' : Receiver) (method : Method) (n : Nat) :
    s.equal? (n + 1) (.callable (.builtin r method)) (.callable (.builtin r' method)) =
      s.equal? n r.toValue r'.toValue := by
  rw [equal?, equalIn?_builtin, if_pos rfl]
  rfl

/-- Callables that are no twins are compared by identity. -/
theorem equal?_of_not_twins {f g : Callable} (h : ∀ r r', ¬f.Twins g r r') (n : Nat) :
    s.equal? (n + 2) (.callable f) (.callable g) = some (decide (f = g)) := by
  cases f with
  | builtin r method =>
    cases g with
    | builtin r' method' =>
      by_cases hmethod : method = method'
      · subst hmethod
        rw [equal?_builtin, equal?_receivers fun hseparate => h r r' (.of method hseparate)]
        simp
      · rw [equal?, equalIn?_builtin, if_neg hmethod]
        simp [hmethod]
    | _ => rfl
  | _ => cases g <;> rfl

/-- **Callables are compared by identity, but for twins.** Two callables that are no twins compare
as equal exactly if they are the same, in whatever store they are compared: the same built-in
function, function or class, one declaration bound to one instance, or built-in methods of one name
of the very same list or dict or of equal texts. Twins are never the same, and they compare as
equal exactly if their receivers do; so their answer can change, but only with what is written into
a list or dict that a comparison can come to from them. -/
theorem equal?_callables (s : Store) (f g : Callable) :
    ((∀ r r', ¬f.Twins g r r') →
      ∀ n, s.equal? (n + 2) (.callable f) (.callable g) = some (decide (f = g))) ∧
    (∀ r name r' name' decl, s.instanceMethod? r name = some decl →
      (Callable.method r name = .method r' name' ↔
        r = r' ∧ s.instanceMethod? r' name' = some decl)) ∧
    (∀ r r', f.Twins g r r' → f ≠ g ∧
      ∀ n, s.equal? (n + 1) (.callable f) (.callable g) = s.equal? n r.toValue r'.toValue) ∧
    ∀ t : Store, s.AgreesFrom t (.callable f) → s.AgreesFrom t (.callable g) →
      ∀ n, t.equal? n (.callable f) (.callable g) = s.equal? n (.callable f) (.callable g) := by
  refine ⟨fun h n => equal?_of_not_twins h n, fun _ _ _ _ _ h => method_eq_iff h, ?_, ?_⟩
  · rintro _ _ ⟨method, hseparate⟩
    exact ⟨by simpa using hseparate.ne, equal?_builtin _ _ method⟩
  · exact fun t hf hg n => equalIn?_congr n [] hf hg

/-- A method without parameters that does nothing. -/
def idleMethod (name : String) : Func := ⟨name, [], .void, [], {}⟩

/-- Two lists that hold the same, a third one, and an instance with two methods. -/
def lookalikes : Store where
  lists := #[#[.boolean true], #[.boolean true], #[]]
  classes := #[⟨⟨"C", [], [idleMethod "m", idleMethod "n"], {}⟩, globals⟩]
  instances := #[⟨⟨0⟩, []⟩]

/-- Nothing leads into the third list but itself and its methods. -/
theorem lookalikes_avoids_third {v : Value} (hlist : v ≠ .list ⟨2⟩)
    (hmethod : ∀ method, v ≠ .callable (.builtin (.list ⟨2⟩) method)) :
    ¬ReflTransGen lookalikes.LeadsInto v (.list ⟨2⟩) := by
  intro h
  induction h using ReflTransGen.head_induction_on with
  | refl => exact hlist rfl
  | head hinto _ ih =>
    cases hinto with
    | part hpart =>
      cases hpart with
      | @element id _ hmem =>
        rcases id with ⟨_ | _ | _ | n⟩ <;> simp_all [lookalikes, list]
      | key hentry | value hentry => simp [lookalikes, dict] at hentry
    | receiver r method =>
      refine ih (fun heq => ?_) fun _ => ?_
      · cases r <;> cases heq
        exact hmethod method rfl
      · cases r <;> simp [Receiver.toValue]

theorem equal?_callables_lookalikes :
    lookalikes.equal? 2 (.callable (.method ⟨0⟩ "m")) (.callable (.method ⟨0⟩ "m")) = some true ∧
    Callable.method ⟨0⟩ "m" ≠ .method ⟨0⟩ "n" ∧
    lookalikes.equal? 3 (.callable (.builtin (.list ⟨0⟩) .listAppend))
      (.callable (.builtin (.list ⟨1⟩) .listAppend)) = lookalikes.equal? 2 (.list ⟨0⟩) (.list ⟨1⟩) ∧
    (lookalikes.modifyList ⟨2⟩ fun elements => elements.push .null).equal? 3
      (.callable (.builtin (.list ⟨0⟩) .listAppend))
      (.callable (.builtin (.list ⟨1⟩) .listAppend)) = some true := by
  have hmethods : ∀ r r', ¬Callable.Twins (.method ⟨0⟩ "m") (.method ⟨0⟩ "m") r r' :=
    fun _ _ htwins => by cases htwins
  have hdiffer : (⟨0⟩ : ListId) ≠ ⟨1⟩ := by decide
  have htwins : Callable.Twins (.builtin (.list ⟨0⟩) .listAppend)
      (.builtin (.list ⟨1⟩) .listAppend) (.list ⟨0⟩) (.list ⟨1⟩) := .of _ (.lists hdiffer)
  have hdecl : lookalikes.instanceMethod? ⟨0⟩ "m" = some (idleMethod "m") := rfl
  have hother : lookalikes.instanceMethod? ⟨0⟩ "n" ≠ some (idleMethod "m") := by
    simp [lookalikes, idleMethod, instanceMethod?, instance?, classMethod?, classObject]
  obtain ⟨-, hsame, hreceivers, hframe⟩ := equal?_callables lookalikes
    (.builtin (.list ⟨0⟩) .listAppend) (.builtin (.list ⟨1⟩) .listAppend)
  refine ⟨(equal?_callables lookalikes _ _).1 hmethods 0,
    fun heq => hother ((hsame _ _ _ _ _ hdecl).mp heq).2, (hreceivers _ _ htwins).2 2, ?_⟩
  have havoids : ∀ id : ListId, id ≠ ⟨2⟩ → ¬ReflTransGen lookalikes.LeadsInto
      (.callable (.builtin (.list id) .listAppend)) (.list ⟨2⟩) := fun id hid =>
    lookalikes_avoids_third (by simp) (by simpa using hid)
  rw [hframe _ (agreesFrom_modifyList _ (havoids ⟨0⟩ (by decide)))
    (agreesFrom_modifyList _ (havoids ⟨1⟩ (by decide)))]
  rfl

end Store

/-- Two empty lists. -/
def emptyLists : List Stmt :=
  [.declare false .list "a" (some (.list [] {})) {},
    .declare false .list "b" (some (.list [] {})) {}]

/-- A value goes into the first one. -/
def fillFirst : List Stmt :=
  [.eval (.call (.field (.name "a" {}) "append" {}) [.boolean true {}] {}) {}]

/-- A program can build two lists whose built-in methods are equal, and become different when
something is written into one of the lists. -/
theorem equal?_methodsOfLists :
    ∃ m m' : Machine, m.Reachable ∧ m.Evolves m' ∧
      m.store.equal? 3 (.callable (.builtin (.list ⟨0⟩) .listAppend))
        (.callable (.builtin (.list ⟨1⟩) .listAppend)) = some true ∧
      m'.store.equal? 3 (.callable (.builtin (.list ⟨0⟩) .listAppend))
        (.callable (.builtin (.list ⟨1⟩) .listAppend)) = some false := by
  have hreach : ((execute 10 emptyLists).after (Machine.initial 200 [] .never)).Reachable :=
    .program (.start 200 [] .never) 10 emptyLists
  refine ⟨_, _, hreach, (execute_evolves 10 fillFirst hreach.sound.closed).after, ?_, ?_⟩
  · with_unfolding_all rfl
  · with_unfolding_all rfl

end Chalk
