import Mathlib
import Chalk.Eval.Expression
import Chalk.Proofs.Contract
import Chalk.Store.Method

/-!
# Dicts as ordered maps

A dict is a list of entries that is searched from the front. Filled with keys that do not change, it
is a finite map with an order: what it holds is settled by the accesses made to it, whatever else
has happened to the store.

Keys that do not change are null, truth values, texts, and numbers other than NaN. Two of them may
be equal without being the same, as zero and minus zero are, and the dict keeps the one that came
first. Only what is inserted has to be of this kind: a dict may be searched for any value.

What a dict is expected to hold is read off its history, and not by doing the accesses once more: a
key has the value of the last insertion if no removal came after it, and it stands where the
insertion stands that did not find it and that no removal has undone.

## Main definitions

* `Value.isScalar`, `Value.same` — keys that do not change, and when they are equal
* `Access` — what is done to a dict
* `lastWritten`, `standing` — the values and the order of the keys, by the history alone
* `Store.Accessed` — a dict with its history
* `Store.OrderedMap` — what a dict does next, by the history alone

## Main results

* `Entries.Holds.step` — one access
* `Store.Accessed.holds` — all accesses
* `Store.orderedMap_of_accessed` — dicts are ordered maps
-/

namespace Chalk

/-! ## Keys that do not change -/

namespace Value

/-- Null, truth values, texts, and numbers other than NaN. -/
def isScalar : Value → Bool
  | null | string _ | boolean _ => true
  | number x => !x.isNaN
  | _ => false

/-- Equality of values that refer to nothing. -/
def same : Value → Value → Bool
  | null, null => true
  | number a, number b => a == b
  | string a, string b => a == b
  | boolean a, boolean b => a == b
  | _, _ => false

theorem same_comm (v w : Value) : v.same w = w.same v := by
  cases v <;> cases w <;> first | rfl | exact BEq.comm

theorem same_self {v : Value} (h : v.isScalar) : v.same v = true := by
  cases v with
  | number x =>
    rw [isScalar, Float.isNaN_eq_decide_eq_nan, Bool.not_eq_true', decide_eq_false_iff_not] at h
    exact Float.beq_self_iff.mpr h
  | null => rfl
  | string _ | boolean _ => exact beq_self_eq_true _
  | _ => cases h

/-- Equal values are equal to the same values. -/
theorem same_congr {v w : Value} (h : v.same w = true) (u : Value) : v.same u = w.same u := by
  cases v <;> cases w <;>
    first
    | (cases u <;> first | rfl | exact BEq.congr_left h)
    | cases h

theorem same_congr_right {v w : Value} (h : v.same w = true) (u : Value) :
    u.same v = u.same w := by
  rw [same_comm u v, same_comm u w, same_congr h]

end Value

/-- The comparison of a key that does not change does not look into the store. -/
theorem Store.equalIn?_of_isScalar (s : Store) (fuel : Nat) (active : List (Node × Node))
    {v : Value} (hv : v.isScalar) (w : Value) :
    s.equalIn? (fuel + 1) active v w = some (v.same w) := by
  cases v <;> first | (cases w <;> rfl) | cases hv

theorem Store.equal?_of_isScalar (s : Store) (fuel : Nat) {v : Value} (hv : v.isScalar)
    (w : Value) : s.equal? (fuel + 1) v w = some (v.same w) :=
  s.equalIn?_of_isScalar fuel [] hv w

/-! ## Accesses -/

/-- What is done to a dict. -/
inductive Access where
  | insert (key value : Value)
  | remove (key : Value)
  | read (key : Value)
  | keys
deriving DecidableEq, Inhabited

namespace Access

/-- Makes an access to a dict, the way a program does. -/
def perform (s : Store) (fuel : Nat) (id : DictId) : Access → Outcome Value
  | insert key value =>
    match s.writeItem fuel (.dict id) key value with
    | .ok () s => .ok .null s
    | .error failure s => .error failure s
  | remove key => s.callMethod fuel .dictRemove (.dict id) [key]
  | read key =>
    match s.element fuel (.dict id) key with
    | .ok value => .ok value s
    | .error failure => .error failure s
  | keys => s.callMethod fuel .dictKeys (.dict id) []

/-- The key that an access inserts. -/
def inserted? : Access → Option Value
  | insert key _ => some key
  | _ => none

/-- Whether an access removes a key. -/
def removes (key : Value) : Access → Bool
  | remove other => other.same key
  | _ => false

/-- What an access leaves of a key, unless it leaves it alone: a value, or nothing. -/
def effect? (key : Value) : Access → Option (Option Value)
  | insert other value => if other.same key then some (some value) else none
  | remove other => if other.same key then some none else none
  | _ => none

end Access

/-- The value that was written last for a key and not removed since. The history starts with the
first access. -/
def lastWritten (key : Value) (history : List Access) : Option Value :=
  (history.reverse.findSome? (Access.effect? key)).join

/-- The keys that have been there since some of the accesses `after`, in order: the insertion of the
key did not find it, and the key was not removed later on. -/
def standing (before : List Access) : List Access → List Value
  | [] => []
  | a :: after =>
    (a.inserted?.filter fun key =>
        (lastWritten key before).isNone && !after.any (Access.removes key)).toList ++
      standing (before ++ [a]) after

theorem lastWritten_append_singleton (key : Value) (history : List Access) (a : Access) :
    lastWritten key (history ++ [a]) =
      match a.effect? key with
      | some left => left
      | none => lastWritten key history := by
  rw [lastWritten, List.reverse_append, List.reverse_singleton, List.singleton_append,
    List.findSome?_cons]
  cases a.effect? key <;> rfl

/-- One more access takes out what it removes, and puts what it inserts at the end, unless it was
there. -/
theorem standing_append_singleton (before after : List Access) (a : Access) :
    standing before (after ++ [a]) =
      (standing before after).filter (fun key => !a.removes key) ++
        (a.inserted?.filter fun key => (lastWritten key (before ++ after)).isNone).toList := by
  induction after generalizing before with
  | nil => simp [standing]
  | cons b after ih =>
    have hfirst : (b.inserted?.filter fun key => (lastWritten key before).isNone &&
          !(after ++ [a]).any (Access.removes key)).toList =
        (b.inserted?.filter fun key => (lastWritten key before).isNone &&
          !after.any (Access.removes key)).toList.filter (fun key => !a.removes key) := by
      cases b.inserted? with
      | none => rfl
      | some key =>
        cases habsent : (lastWritten key before).isNone <;>
          cases hlater : after.any (Access.removes key) <;>
            cases ha : a.removes key <;> simp [Option.filter, habsent, hlater, ha]
    rw [List.cons_append, standing, standing, hfirst, ih, List.filter_append, List.append_assoc,
      List.append_assoc, List.singleton_append]

theorem Access.removes_congr (a : Access) {key key' : Value} (h : key.same key' = true) :
    a.removes key = a.removes key' := by
  cases a with
  | remove other => exact Value.same_congr_right h other
  | _ => rfl

/-- An access that inserts nothing leaves alone what it does not remove. -/
theorem Access.effect?_of_inserted?_eq_none {a : Access} (h : a.inserted? = none) (key : Value) :
    a.effect? key = if a.removes key then some none else none := by
  cases a with
  | insert => cases h
  | remove other => rfl
  | _ => rfl

/-! ## What entries hold -/

namespace Entries

variable {s : Store} {fuel : Nat} {entries before after : Entries}
  {key other old value : Value} {history : List Access}

theorem keys_split (before after : Entries) (other value : Value) :
    keys (before ++ (other, value) :: after) = before.keys ++ other :: after.keys := by
  rw [keys, List.map_append, List.map_cons]
  rfl

/-- The value of the first entry with an equal key. -/
def lookup? (entries : Entries) (key : Value) : Option Value :=
  (List.find? (fun entry => entry.1.same key) entries).map Prod.snd

theorem lookup?_eq_none (h : ∀ entry ∈ entries, entry.1.same key = false) :
    entries.lookup? key = none := by
  rw [lookup?, List.find?_eq_none.mpr fun entry hentry => by rw [h entry hentry]; nofun]
  rfl

theorem lookup?_split (before after : Entries) (other value key : Value) :
    lookup? (before ++ (other, value) :: after) key =
      (before.lookup? key).or (if other.same key then some value else after.lookup? key) := by
  rw [lookup?, List.find?_append, Option.map_or, List.find?_cons]
  cases other.same key <;> rfl

/-- The entries are what the history says. -/
structure Holds (entries : Entries) (history : List Access) : Prop where
  scalar : ∀ key ∈ entries.keys, key.isScalar
  distinct : entries.keys.Pairwise fun key key' => key.same key' = false
  order : entries.keys = standing [] history
  values : ∀ key, entries.lookup? key = lastWritten key history

namespace Holds

theorem nil : Holds [] [] := ⟨nofun, .nil, rfl, fun _ => rfl⟩

/-- Entries beside one with an equal key do not have the key. -/
theorem same_eq_false (h : Holds (before ++ (other, old) :: after) history)
    (hkey : other.same key = true) : ∀ entry ∈ before ++ after, entry.1.same key = false := by
  have hdistinct := h.distinct
  rw [keys, List.pairwise_map, List.pairwise_append, List.pairwise_cons] at hdistinct
  obtain ⟨-, ⟨hafter, -⟩, hbefore⟩ := hdistinct
  intro entry hentry
  rw [← Value.same_congr_right hkey]
  rcases List.mem_append.mp hentry with hmem | hmem
  · exact hbefore entry hmem _ List.mem_cons_self
  · rw [Value.same_comm]
    exact hafter entry hmem

/-- The value of a key is that of its entry. -/
theorem lastWritten_eq (h : Holds (before ++ (other, old) :: after) history)
    (hkey : other.same key = true) : lastWritten key history = some old := by
  have hbefore : before.lookup? key = none :=
    lookup?_eq_none fun entry hentry => h.same_eq_false hkey entry (List.mem_append_left _ hentry)
  rw [← h.values, lookup?_split, hbefore, if_pos hkey, Option.none_or]

/-- A key that was written and not removed has an entry, and any other key has none. -/
theorem absent_or_split (h : Holds entries history) (key : Value) :
    (lastWritten key history = none ∧ ∀ entry ∈ entries, entry.1.same key = false) ∨
      ∃ before other old after, lastWritten key history = some old ∧
        entries = before ++ (other, old) :: after ∧ other.same key = true := by
  rw [← h.values, lookup?]
  cases hfind : List.find? (fun entry => entry.1.same key) entries with
  | none =>
    exact .inl ⟨rfl, fun entry hentry =>
      Bool.eq_false_iff.mpr (List.find?_eq_none.mp hfind entry hentry)⟩
  | some entry =>
    obtain ⟨hkey, before, after, hsplit, -⟩ := List.find?_eq_some_iff_append.mp hfind
    exact .inr ⟨before, entry.1, entry.2, after, rfl, hsplit, hkey⟩

/-! ### One access

Insertions either find their key or do not. The other accesses take out the entries that they
remove, which may be none. -/

/-- A new key comes last. -/
theorem append (h : Holds entries history) (hkey : key.isScalar)
    (habsent : ∀ entry ∈ entries, entry.1.same key = false) (value : Value) :
    Holds (entries ++ [(key, value)]) (history ++ [.insert key value]) := by
  have hnone : lastWritten key history = none := (h.values key).symm.trans (lookup?_eq_none habsent)
  have hkeys : keys (entries ++ [(key, value)]) = entries.keys ++ [key] := keys_split entries [] _ _
  refine ⟨?_, ?_, ?_, fun key' => ?_⟩
  · rw [hkeys]
    exact List.forall_mem_append.mpr ⟨h.scalar, List.forall_mem_singleton.mpr hkey⟩
  · rw [hkeys, List.pairwise_append]
    refine ⟨h.distinct, List.pairwise_singleton _ _, ?_⟩
    rintro other hother _ hmem
    rw [List.mem_singleton.mp hmem]
    obtain ⟨entry, hentry, rfl⟩ := List.mem_map.mp hother
    exact habsent entry hentry
  · rw [hkeys, standing_append_singleton, ← h.order]
    simp [Access.removes, Access.inserted?, Option.filter, hnone]
  · rw [lookup?_split, lastWritten_append_singleton, Access.effect?]
    cases hsame : key.same key' with
    | true =>
      have habsent' : entries.lookup? key' = none := lookup?_eq_none fun entry hentry => by
        rw [← Value.same_congr_right hsame]
        exact habsent entry hentry
      rw [habsent']
      rfl
    | false => exact Option.or_none.trans (h.values key')

/-- A key that is there keeps its place, and stays what it was. -/
theorem overwrite (h : Holds (before ++ (other, old) :: after) history)
    (hkey : other.same key = true) (value : Value) :
    Holds (before ++ (other, value) :: after) (history ++ [.insert key value]) := by
  have hkeys : keys (before ++ (other, value) :: after) =
      keys (before ++ (other, old) :: after) := by
    rw [keys_split, keys_split]
  refine ⟨hkeys ▸ h.scalar, hkeys ▸ h.distinct, ?_, fun key' => ?_⟩
  · rw [hkeys, standing_append_singleton, ← h.order]
    simp [Access.removes, Access.inserted?, Option.filter, h.lastWritten_eq hkey]
  · rw [lastWritten_append_singleton, Access.effect?, ← Value.same_congr hkey, ← h.values,
      lookup?_split, lookup?_split]
    cases hsame : other.same key' with
    | true =>
      have hbefore : before.lookup? key' = none := lookup?_eq_none fun entry hentry =>
        h.same_eq_false hsame entry (List.mem_append_left _ hentry)
      rw [hbefore]
      rfl
    | false => rfl

/-- What is not removed stays, in the same order. -/
theorem filter (h : Holds entries history) {a : Access} (ha : a.inserted? = none) :
    Holds (List.filter (fun entry => !a.removes entry.1) entries) (history ++ [a]) := by
  have hkeys : keys (List.filter (fun entry => !a.removes entry.1) entries) =
      entries.keys.filter fun key => !a.removes key := by
    rw [keys, keys, List.filter_map]
    rfl
  refine ⟨?_, ?_, ?_, fun key => ?_⟩
  · rw [hkeys]
    exact fun key hmem => h.scalar key (List.mem_of_mem_filter hmem)
  · rw [hkeys]
    exact h.distinct.filter _
  · rw [hkeys, standing_append_singleton, ← h.order, ha]
    exact (List.append_nil _).symm
  · rw [lastWritten_append_singleton, Access.effect?_of_inserted?_eq_none ha, ← h.values]
    -- an entry with an equal key is removed if and only if the key is
    cases hremoves : a.removes key with
    | true =>
      refine lookup?_eq_none fun entry hentry => Bool.eq_false_iff.mpr fun hsame => ?_
      have hkept : (!a.removes entry.1) = true := (List.mem_filter.mp hentry).2
      rw [a.removes_congr hsame, hremoves] at hkept
      cases hkept
    | false =>
      have hkept : (fun entry : Value × Value =>
          decide ((!a.removes entry.1) = true ∧ entry.1.same key = true)) =
          fun entry => entry.1.same key := by
        funext entry
        cases hsame : entry.1.same key with
        | true => rw [a.removes_congr hsame, hremoves]; rfl
        | false => simp
      rw [lookup?, List.find?_filter, hkept]
      rfl

/-- A key that is there is taken out, and nothing else. -/
theorem remove (h : Holds (before ++ (other, old) :: after) history)
    (hkey : other.same key = true) : Holds (before ++ after) (history ++ [.remove key]) := by
  have hfilter := h.filter (a := .remove key) rfl
  have hout : ¬(!(Access.remove key).removes (other, old).1) = true := by
    rw [Access.removes, Value.same_comm, hkey]
    nofun
  have hkept : ∀ entry ∈ before ++ after, (!(Access.remove key).removes entry.1) = true := by
    intro entry hentry
    rw [Access.removes, Value.same_comm, h.same_eq_false hkey entry hentry]
    rfl
  rwa [List.filter_append, List.filter_cons, if_neg hout, ← List.filter_append,
    List.filter_eq_self.mpr hkept] at hfilter

end Holds

/-! ### Searching -/

theorem findFrom_eq_none {test : Value → Option Bool} (start : Nat)
    (h : ∀ entry ∈ entries, test entry.1 = some false) :
    findFrom test entries start = .ok none := by
  induction entries generalizing start with
  | nil => rfl
  | cons entry rest ih =>
    obtain ⟨hentry, hrest⟩ := List.forall_mem_cons.mp h
    rw [findFrom, hentry]
    exact ih (start + 1) hrest

theorem findFrom_eq_some {test : Value → Option Bool} (start : Nat)
    (h : ∀ entry ∈ before, test entry.1 = some false) (hother : test other = some true) :
    findFrom test (before ++ (other, old) :: after) start = .ok (some (start + before.length)) := by
  induction before generalizing start with
  | nil =>
    rw [List.nil_append, findFrom, hother]
    rfl
  | cons entry rest ih =>
    obtain ⟨hentry, hrest⟩ := List.forall_mem_cons.mp h
    rw [List.cons_append, findFrom, hentry, List.length_cons, Nat.add_comm rest.length,
      ← Nat.add_assoc]
    exact ih (start + 1) hrest

theorem Holds.find?_eq_none (h : Holds entries history)
    (habsent : ∀ entry ∈ entries, entry.1.same key = false) :
    find? s (fuel + 1) entries key = .ok none := by
  refine findFrom_eq_none 0 fun entry hentry => ?_
  rw [s.equal?_of_isScalar fuel (h.scalar _ (List.mem_map_of_mem hentry)), habsent entry hentry]

theorem Holds.find?_eq_some (h : Holds (before ++ (other, old) :: after) history)
    (hkey : other.same key = true) :
    find? s (fuel + 1) (before ++ (other, old) :: after) key = .ok (some before.length) := by
  rw [← Nat.zero_add before.length]
  have hequal : ∀ entry ∈ before ++ (other, old) :: after,
      s.equal? (fuel + 1) entry.1 key = some (entry.1.same key) := fun entry hentry =>
    s.equal?_of_isScalar fuel (h.scalar _ (List.mem_map_of_mem hentry)) key
  refine findFrom_eq_some 0 (fun entry hentry => ?_) ?_
  · rw [hequal entry (List.mem_append_left _ hentry),
      h.same_eq_false hkey entry (List.mem_append_left _ hentry)]
  · rw [hequal (other, old) (by simp), hkey]

theorem Holds.equal?_eq_true (h : Holds (before ++ (other, old) :: after) history)
    (hkey : other.same key = true) : s.equal? (fuel + 1) other key = some true := by
  rw [s.equal?_of_isScalar fuel (h.scalar other (by rw [keys_split]; simp)), hkey]

theorem Holds.insert_absent (h : Holds entries history)
    (habsent : ∀ entry ∈ entries, entry.1.same key = false) (value : Value) :
    Entries.insert s (fuel + 1) entries key value = .ok (entries ++ [(key, value)]) := by
  rw [Entries.insert, h.find?_eq_none habsent]

theorem Holds.insert_split (h : Holds (before ++ (other, old) :: after) history)
    (hkey : other.same key = true) (value : Value) :
    Entries.insert s (fuel + 1) (before ++ (other, old) :: after) key value =
      .ok (before ++ (other, value) :: after) := by
  rw [Entries.insert, h.find?_eq_some hkey]
  simp [setValue, List.modify_eq_take_cons_drop]

/-- An insertion is never refused, and adds to the history. -/
theorem Holds.exists_insert (h : Holds entries history) (hkey : key.isScalar) (value : Value) :
    ∃ grown, Entries.insert s (fuel + 1) entries key value = .ok grown ∧
      Holds grown (history ++ [.insert key value]) := by
  rcases h.absent_or_split key with ⟨-, habsent⟩ | ⟨before, other, old, after, -, rfl, hsame⟩
  · exact ⟨_, h.insert_absent habsent value, h.append hkey habsent value⟩
  · exact ⟨_, h.insert_split hsame value, h.overwrite hsame value⟩

theorem Holds.get?_split (h : Holds (before ++ (other, old) :: after) history)
    (hkey : other.same key = true) :
    get? s (fuel + 1) (before ++ (other, old) :: after) key = .ok (some old) := by
  rw [get?, h.find?_eq_some hkey]
  simp

end Entries

/-! ## Accesses to a dict -/

section Accesses

variable {s : Store} {fuel : Nat} {id : DictId} {history : List Access}

namespace Store

/-- A dict and all that has been done to it: an expression makes it, from the values of its parts,
it is accessed, and other things happen that leave it alone. No comparison is out of budget. -/
inductive Accessed (id : DictId) : List Access → Store → Prop where
  | literal {invoke : Invoke} {fuel : Nat} {items : List (Expr × Expr)} {span : Span}
      {pairs : List (Value × Value)} {m m' m'' : Machine}
      (parts : Expr.evaluateList invoke (fuel + 1)
        (items.flatMap fun item => [item.1, item.2]) m =
          .ok (pairs.flatMap fun pair => [pair.1, pair.2]) m')
      (done : (Expr.dict items span).evaluate invoke (fuel + 1) m = .ok (.dict id) m'')
      (scalar : ∀ pair ∈ pairs, pair.1.isScalar) :
      Accessed id (pairs.map fun pair => .insert pair.1 pair.2) m''.store
  | access {history : List Access} {s : Store} (earlier : Accessed id history s) (fuel : Nat)
      (a : Access) (scalar : ∀ key ∈ a.inserted?, key.isScalar) :
      Accessed id (history ++ [a]) (a.perform s (fuel + 1) id).store
  | elsewhere {history : List Access} {s t : Store} (earlier : Accessed id history s)
      (known : id.index < t.dicts.size) (kept : t.dict id = s.dict id) : Accessed id history t

/-- What a dict does next, by its history alone. -/
structure OrderedMap (s : Store) (id : DictId) (history : List Access) : Prop where
  /-- No two stored keys are equal. -/
  distinct : ∀ fuel, (s.dict id).Pairwise fun entry entry' =>
    s.equal? (fuel + 1) entry.1 entry'.1 = some false
  /-- The entries are settled by the history: the keys in the order in which they came to stay, each
  with what was written last. By which way the keys came in makes no difference. -/
  entries : (s.dict id).map (fun entry => (entry.1, some entry.2)) =
    (standing [] history).map fun key => (key, lastWritten key history)
  /-- The keys are listed in this order. -/
  keys : ∀ fuel, Access.keys.perform s fuel id =
    .ok (.list (s.newList (standing [] history).toArray).1)
      (s.newList (standing [] history).toArray).2
  /-- A read gives what was written last. -/
  read : ∀ fuel key, (Access.read key).perform s (fuel + 1) id =
    match lastWritten key history with
    | some value => .ok value s
    | none => .error (.fault (.missingKey (s.repr key))) s
  /-- An insertion of an equal key changes the value and nothing else, and a new key comes last. -/
  insert : ∀ fuel key value,
    match lastWritten key history with
    | some old => ∃ before other after,
      s.dict id = before ++ (other, old) :: after ∧ s.equal? (fuel + 1) other key = some true ∧
        (Access.insert key value).perform s (fuel + 1) id =
          .ok .null (s.setDict id (before ++ (other, value) :: after))
    | none => (Access.insert key value).perform s (fuel + 1) id =
        .ok .null (s.setDict id (s.dict id ++ [(key, value)]))
  /-- A removal gives the value and takes the entry out, and nothing else. -/
  remove : ∀ fuel key,
    match lastWritten key history with
    | some old => ∃ before other after,
      s.dict id = before ++ (other, old) :: after ∧ s.equal? (fuel + 1) other key = some true ∧
        (Access.remove key).perform s (fuel + 1) id =
          .ok old (s.setDict id (before ++ after))
    | none => (Access.remove key).perform s (fuel + 1) id =
        .error (.fault (.missingKey (s.repr key))) s
  /-- An insertion into the dict does what an insertion into its entries does. -/
  paths : ∀ fuel key value, Entries.insert s fuel (s.dict id) key value =
    match s.writeItem fuel (.dict id) key value with
    | .ok () t => .ok (t.dict id)
    | .error failure _ => .error failure

end Store

namespace Access

variable {key other old value : Value} {entries before after : Entries}

theorem perform_insert (h : Entries.insert s fuel (s.dict id) key value = .ok entries) :
    (insert key value).perform s fuel id = .ok .null (s.setDict id entries) := by
  rw [perform, Store.writeItem, Store.insertItem_eq_insert, h]

theorem perform_remove_absent (h : Entries.find? s fuel (s.dict id) key = .ok none) :
    (remove key).perform s fuel id = .error (.fault (.missingKey (s.repr key))) s := by
  rw [perform, Store.callMethod, List.head?_cons, Option.getD_some, Store.removeItem, h]

theorem perform_remove_split (hsplit : s.dict id = before ++ (other, old) :: after)
    (h : Entries.find? s fuel (s.dict id) key = .ok (some before.length)) :
    (remove key).perform s fuel id = .ok old (s.setDict id (before ++ after)) := by
  rw [perform, Store.callMethod, List.head?_cons, Option.getD_some, Store.removeItem, h, hsplit]
  simp [List.eraseIdx_append_of_length_le]

end Access

/-- **One access**: the dict stays known, and holds what the longer history says. -/
theorem Entries.Holds.step (h : Entries.Holds (s.dict id) history) (hid : id.index < s.dicts.size)
    (a : Access) (scalar : ∀ key ∈ a.inserted?, key.isScalar) :
    id.index < (a.perform s (fuel + 1) id).store.dicts.size ∧
      Entries.Holds ((a.perform s (fuel + 1) id).store.dict id) (history ++ [a]) := by
  have hset : ∀ entries, Entries.Holds entries (history ++ [a]) →
      id.index < (s.setDict id entries).dicts.size ∧
        Entries.Holds ((s.setDict id entries).dict id) (history ++ [a]) := by
    intro entries hentries
    rw [Store.dict_setDict_self hid]
    exact ⟨by simpa [Store.setDict] using hid, hentries⟩
  have hkeep : a.inserted? = none → (∀ entry ∈ s.dict id, a.removes entry.1 = false) →
      Entries.Holds (s.dict id) (history ++ [a]) := by
    intro hnone hkept
    have hfilter := h.filter hnone
    rwa [List.filter_eq_self.mpr fun entry hentry => by rw [hkept entry hentry]; rfl] at hfilter
  cases a with
  | insert key value =>
    obtain ⟨grown, hinsert, hgrown⟩ := h.exists_insert (scalar key rfl) value
    rw [Access.perform_insert hinsert]
    exact hset grown hgrown
  | remove key =>
    rcases h.absent_or_split key with ⟨-, habsent⟩ | ⟨before, other, old, after, -, hsplit, hkey⟩
    · rw [Access.perform_remove_absent (h.find?_eq_none habsent)]
      exact ⟨hid, hkeep rfl fun entry hentry => (Value.same_comm _ _).trans (habsent entry hentry)⟩
    · rw [Access.perform_remove_split hsplit (hsplit ▸ (hsplit ▸ h).find?_eq_some hkey)]
      exact hset _ (Entries.Holds.remove (hsplit ▸ h) hkey)
  | read key =>
    have hstore : ((Access.read key).perform s (fuel + 1) id).store = s := by
      rw [Access.perform]
      cases s.element (fuel + 1) (.dict id) key <;> rfl
    rw [hstore]
    exact ⟨hid, hkeep rfl fun _ _ => rfl⟩
  | keys => exact ⟨hid, hkeep rfl fun _ _ => rfl⟩

/-- **Entries that hold what the history says make an ordered map.** -/
theorem Entries.Holds.orderedMap (h : Entries.Holds (s.dict id) history)
    (hid : id.index < s.dicts.size) : s.OrderedMap id history where
  distinct fuel := by
    refine (List.pairwise_map.mp h.distinct).imp_of_mem fun {entry entry'} hentry _ hne => ?_
    rw [s.equal?_of_isScalar fuel (h.scalar _ (List.mem_map_of_mem hentry)), hne]
  entries := by
    rw [← h.order, Entries.keys, List.map_map]
    refine List.map_congr_left fun entry hentry => ?_
    have hself := Value.same_self (h.scalar entry.1 (List.mem_map_of_mem hentry))
    obtain ⟨before, after, hsplit⟩ := List.append_of_mem hentry
    rw [hsplit] at h
    rw [Function.comp, h.lastWritten_eq hself]
  keys fuel := by
    rw [← h.order]
    rfl
  read fuel key := by
    rw [Access.perform, Store.element, Store.getItem]
    rcases h.absent_or_split key with
      ⟨hnone, habsent⟩ | ⟨before, other, old, after, hsome, hsplit, hkey⟩
    · rw [hnone, Entries.get?, h.find?_eq_none habsent]
    · rw [hsplit] at h ⊢
      rw [hsome, h.get?_split hkey]
  insert fuel key value := by
    rcases h.absent_or_split key with
      ⟨hnone, habsent⟩ | ⟨before, other, old, after, hsome, hsplit, hkey⟩
    · rw [hnone]
      exact Access.perform_insert (h.insert_absent habsent value)
    · rw [hsome]
      rw [hsplit] at h
      exact ⟨before, other, after, hsplit, h.equal?_eq_true hkey,
        Access.perform_insert (hsplit ▸ h.insert_split hkey value)⟩
  remove fuel key := by
    rcases h.absent_or_split key with
      ⟨hnone, habsent⟩ | ⟨before, other, old, after, hsome, hsplit, hkey⟩
    · rw [hnone]
      exact Access.perform_remove_absent (h.find?_eq_none habsent)
    · rw [hsome]
      rw [hsplit] at h
      exact ⟨before, other, after, hsplit, h.equal?_eq_true hkey,
        Access.perform_remove_split hsplit (hsplit ▸ h.find?_eq_some hkey)⟩
  paths fuel key value := by
    rw [Store.writeItem, Store.insertItem_eq_insert]
    cases Entries.insert s fuel (s.dict id) key value with
    | error failure => rfl
    | ok entries => exact congrArg Except.ok (Store.dict_setDict_self hid).symm

end Accesses

/-! ## Dict expressions -/

section DictExpressions

variable {invoke : Invoke} {fuel : Nat} {items : List (Expr × Expr)} {span : Span}
  {pairs : List (Value × Value)} {m m' : Machine}

theorem Exec.bind_eq_ok {x : Exec β} {f : β → Exec α} {a : α} (h : (x >>= f) m = .ok a m') :
    ∃ b mid, x m = .ok b mid ∧ f b mid = .ok a m' := by
  cases hx : x m with
  | ok b mid =>
    rw [Exec.bind_eq_of_ok hx] at h
    exact ⟨b, mid, rfl, h⟩
  | error failure mid =>
    have herror : (x >>= f) m = .error failure mid := by
      show EStateM.bind x f m = _
      rw [EStateM.bind, hx]
    rw [herror] at h
    cases h

theorem Exec.query_of_ok {f : Store → Except (Failure Fault) α} {a : α}
    (h : f m.store = .ok a) : Exec.query span f m = .ok a m := by
  show Exec.liftAt span (f m.store) m = .ok a m
  rw [h]
  rfl

theorem Expr.evaluateList_cons_eq_ok {e : Expr} {es : List Expr} {values : List Value}
    (h : Expr.evaluateList invoke fuel (e :: es) m = .ok values m') :
    ∃ value mid rest, e.evaluate invoke fuel m = .ok value mid ∧
      Expr.evaluateList invoke fuel es mid = .ok rest m' ∧ values = value :: rest := by
  rw [Expr.evaluateList] at h
  obtain ⟨value, mid, hvalue, h⟩ := Exec.bind_eq_ok h
  obtain ⟨rest, _, hrest, h⟩ := Exec.bind_eq_ok h
  cases h
  exact ⟨value, mid, rest, hvalue, hrest, rfl⟩

/-- The values of the parts of a dict expression are inserted in order. -/
theorem Entries.Holds.evaluateEntries {entries : Entries} {history : List Access}
    (h : entries.Holds history)
    (parts : Expr.evaluateList invoke (fuel + 1) (items.flatMap fun item => [item.1, item.2]) m =
      .ok (pairs.flatMap fun pair => [pair.1, pair.2]) m')
    (scalar : ∀ pair ∈ pairs, pair.1.isScalar) :
    ∃ filled, Expr.evaluateEntries invoke (fuel + 1) items entries m = .ok filled m' ∧
      filled.Holds (history ++ pairs.map fun pair => .insert pair.1 pair.2) := by
  induction items generalizing m pairs entries history with
  | nil =>
    cases pairs with
    | nil =>
      cases parts
      rw [List.map_nil, List.append_nil]
      exact ⟨entries, rfl, h⟩
    | cons pair pairs => cases parts
  | cons item items ih =>
    obtain ⟨_, mid, values, hkey, hbehind, hvalues⟩ := Expr.evaluateList_cons_eq_ok parts
    obtain ⟨_, mid', rest, hvalue, hrest, rfl⟩ := Expr.evaluateList_cons_eq_ok hbehind
    cases pairs with
    | nil => cases hvalues
    | cons pair pairs =>
      cases hvalues
      obtain ⟨hfirst, hothers⟩ := List.forall_mem_cons.mp scalar
      obtain ⟨grown, hinsert, hgrown⟩ := h.exists_insert hfirst pair.2
      obtain ⟨filled, hfilled, hholds⟩ := ih hgrown hrest hothers
      rw [List.append_assoc] at hholds
      refine ⟨filled, ?_, hholds⟩
      rw [Expr.evaluateEntries, Exec.bind_eq_of_ok hkey, Exec.bind_eq_of_ok hvalue,
        Exec.bind_eq_of_ok (Exec.query_of_ok hinsert), hfilled]

/-- A dict expression whose parts have values has one, too: a fresh dict with these entries. -/
theorem Expr.evaluate_dict
    (parts : Expr.evaluateList invoke (fuel + 1) (items.flatMap fun item => [item.1, item.2]) m =
      .ok (pairs.flatMap fun pair => [pair.1, pair.2]) m')
    (scalar : ∀ pair ∈ pairs, pair.1.isScalar) :
    ∃ entries, (Expr.dict items span).evaluate invoke (fuel + 1) m =
        .ok (.dict (m'.store.newDict entries).1)
          { m' with store := (m'.store.newDict entries).2 } ∧
      entries.Holds (pairs.map fun pair => .insert pair.1 pair.2) := by
  obtain ⟨entries, hentries, hholds⟩ := Entries.Holds.nil.evaluateEntries parts scalar
  refine ⟨entries, ?_, hholds⟩
  rw [Expr.evaluate, Exec.bind_eq_of_ok hentries]
  rfl

end DictExpressions

namespace Store

variable {s : Store} {id : DictId} {history : List Access}

/-- **All accesses**: the dict is known, and holds what its history says. -/
theorem Accessed.holds (h : Accessed id history s) :
    id.index < s.dicts.size ∧ Entries.Holds (s.dict id) history := by
  induction h with
  | @literal invoke fuel items span pairs m m' m'' parts done scalar =>
    obtain ⟨entries, hvalue, hholds⟩ := Expr.evaluate_dict parts scalar
    rw [hvalue] at done
    cases done
    exact ⟨by simp [Store.newDict], (m'.store.dict_newDict entries).symm ▸ hholds⟩
  | access _ fuel a scalar ih => exact ih.2.step ih.1 a scalar
  | elsewhere _ known kept ih => exact ⟨known, kept ▸ ih.2⟩

/-- **Dicts are insertion-ordered maps**, whatever has been done to them. -/
theorem orderedMap_of_accessed (h : Accessed id history s) : s.OrderedMap id history :=
  h.holds.2.orderedMap h.holds.1

/-- Minus zero is written over zero, zero is removed, and minus zero is inserted again. -/
def zeros : List Access :=
  [.insert (.number 0.0) (.string "x"), .insert (.string "b") (.boolean true),
    .insert (.number (-0.0)) (.string "y"), .remove (.number 0.0),
    .insert (.number (-0.0)) (.string "z")]

theorem exists_accessed_zeros : ∃ s : Store, s.Accessed ⟨0⟩ zeros := by
  have hkey : ∀ key ∈ some (Value.number (-0.0)), key.isScalar := by decide +kernel
  have hmade : Accessed ⟨0⟩ _ _ := @Accessed.literal ⟨0⟩ (fun _ _ _ => return .null) 0
    [(.number 0.0 {}, .string "x" {}), (.string "b" {}, .boolean true {})] {}
    [(.number 0.0, .string "x"), (.string "b", .boolean true)] (Machine.initial 200 []) _ _ rfl rfl
    (by decide +kernel)
  have hoverwritten := hmade.access 0 (.insert (.number (-0.0)) (.string "y")) hkey
  have hremoved := hoverwritten.access 0 (.remove (.number 0.0)) nofun
  exact ⟨_, hremoved.access 0 (.insert (.number (-0.0)) (.string "z")) hkey⟩

theorem orderedMap_of_accessed_zeros :
    ∃ s : Store, Access.keys.perform s 0 ⟨0⟩ =
        .ok (.list (s.newList #[.string "b", .number (-0.0)]).1)
          (s.newList #[.string "b", .number (-0.0)]).2 ∧
      (Access.read (.number 0.0)).perform s 1 ⟨0⟩ = .ok (.string "z") s := by
  obtain ⟨s, h⟩ := exists_accessed_zeros
  have hmap := orderedMap_of_accessed h
  have hkeys := hmap.keys 0
  have hread := hmap.read 0 (.number 0.0)
  have hstanding : standing [] zeros = [.string "b", .number (-0.0)] := by decide +kernel
  have hlast : lastWritten (.number 0.0) zeros = some (.string "z") := by decide +kernel
  rw [hstanding] at hkeys
  rw [hlast] at hread
  exact ⟨s, hkeys, hread⟩

end Store

end Chalk
