import Chalk.Proofs.Contract
import Chalk.Eval.Call

/-!
# When a comparison ends

Comparing two values asks for other comparisons: of elements, of keys and values, and of the
receivers of two built-in methods. Lists and dicts keep the pairs that are being compared, and a
pair that comes up again is not compared again; so a comparison that never meets built-in methods
ends, whatever contains itself. The comparison of two receivers starts without these pairs, and that
is the one way for a comparison to come back to itself.

`Store.Asks` says which comparisons a comparison makes, in the order in which it makes them: an
element is compared only if all elements before it are equal, and an entry of a dict only if the
entries before it have been found and the candidates before it differ. A comparison has an answer
for some budget exactly if it does not lead to a comparison of receivers that leads back to itself
(`Store.equal?_ends_iff`).

## Main definitions

* `Comparison`, `Store.Answers` — a comparison, and its answer for a large enough budget
* `Store.Asks`, `Store.LeadsTo` — the comparisons that a comparison makes, directly and in the end

## Main results

* `Store.ends_of_asks`, `Store.exists_answer_of_asks` — a comparison ends if and only if those that
  it asks for do
* `Store.ends_of_restarts` — between two comparisons of receivers there are finitely many others
* `Store.equal?_ends_iff` — the comparisons that end
* `Store.MethodFree.equal?_ends` — all of them do unless a list or dict holds a built-in method
-/

namespace Chalk

/-! ## Partial tests

A test with a budget has no answer while the budget is too small, and keeps its answer from then
on. -/

section Tests

variable {α : Type} {test : Nat → α → Option Bool}

/-- The second test has all answers of the first. -/
def Refines (first second : α → Option Bool) : Prop :=
  ∀ x b, first x = some b → second x = some b

/-- A larger budget keeps the answers of a test. -/
def Grows (test : Nat → α → Option Bool) : Prop := ∀ n m, n ≤ m → Refines (test n) (test m)

/-- The answer of a test for a large enough budget. -/
def Settles (test : Nat → α → Option Bool) (x : α) (b : Bool) : Prop := ∃ n, test n x = some b

/-- A settled test has no other answer, for any budget. -/
theorem Settles.eq (hgrows : Grows test) {x : α} {b b' : Bool} {n : Nat} (h : Settles test x b)
    (h' : test n x = some b') : b' = b := by
  obtain ⟨m, hm⟩ := h
  have hb := hgrows _ _ (Nat.le_max_left m n) _ _ hm
  have hb' := hgrows _ _ (Nat.le_max_right m n) _ _ h'
  rw [hb] at hb'
  exact (Option.some.inj hb').symm

theorem allWhile_cons_eq_some {test : α → Option Bool} {x : α} {xs : List α} {b : Bool} :
    allWhile test (x :: xs) = some b ↔
      test x = some false ∧ b = false ∨ test x = some true ∧ allWhile test xs = some b := by
  rw [allWhile]
  rcases test x with _ | _ | _ <;> simp [eq_comm]

theorem anyWhile_cons_eq_some {test : α → Option Bool} {x : α} {xs : List α} {b : Bool} :
    anyWhile test (x :: xs) = some b ↔
      test x = some true ∧ b = true ∨ test x = some false ∧ anyWhile test xs = some b := by
  rw [anyWhile]
  rcases test x with _ | _ | _ <;> simp [eq_comm]

theorem bothWhile_eq_some {first second : Option Bool} {b : Bool} :
    bothWhile first second = some b ↔
      first = some false ∧ b = false ∨ first = some true ∧ second = some b := by
  rcases first with _ | _ | _ <;> simp [bothWhile, eq_comm]

theorem Refines.allWhile {first second : α → Option Bool} (h : Refines first second) :
    Refines (allWhile first) (allWhile second) := by
  intro xs b hb
  induction xs with
  | nil => exact hb
  | cons x xs ih =>
    rw [allWhile_cons_eq_some] at hb ⊢
    rcases hb with ⟨hx, rfl⟩ | ⟨hx, hxs⟩
    · exact .inl ⟨h _ _ hx, rfl⟩
    · exact .inr ⟨h _ _ hx, ih hxs⟩

theorem Refines.anyWhile {first second : α → Option Bool} (h : Refines first second) :
    Refines (anyWhile first) (anyWhile second) := by
  intro xs b hb
  induction xs with
  | nil => exact hb
  | cons x xs ih =>
    rw [anyWhile_cons_eq_some] at hb ⊢
    rcases hb with ⟨hx, rfl⟩ | ⟨hx, hxs⟩
    · exact .inl ⟨h _ _ hx, rfl⟩
    · exact .inr ⟨h _ _ hx, ih hxs⟩

theorem Refines.bothWhile {first first' second second' : α → Option Bool} (h : Refines first first')
    (h' : Refines second second') :
    Refines (fun x => bothWhile (first x) (second x))
      fun x => bothWhile (first' x) (second' x) := by
  intro x b hb
  rw [bothWhile_eq_some] at hb ⊢
  rcases hb with ⟨hx, rfl⟩ | ⟨hx, hx'⟩
  · exact .inl ⟨h _ _ hx, rfl⟩
  · exact .inr ⟨h _ _ hx, h' _ _ hx'⟩

/-- A test of all elements settles if each element does that comes up, which it does if the test
holds for all before it. -/
theorem settles_allWhile (hgrows : Grows test) {xs : List α}
    (h : ∀ before x rest, xs = before ++ x :: rest → (∀ y ∈ before, Settles test y true) →
      ∃ b, Settles test x b) : ∃ b, Settles (fun n xs => allWhile (test n) xs) xs b := by
  induction xs with
  | nil => exact ⟨true, 0, rfl⟩
  | cons x xs ih =>
    obtain ⟨b, n, hx⟩ := h [] x xs rfl nofun
    cases b with
    | false => exact ⟨false, n, allWhile_cons_eq_some.mpr (.inl ⟨hx, rfl⟩)⟩
    | true =>
      obtain ⟨b, m, hxs⟩ := ih fun before y rest heq hbefore =>
        h (x :: before) y rest (by rw [heq]; rfl) (List.forall_mem_cons.mpr ⟨⟨n, hx⟩, hbefore⟩)
      refine ⟨b, max n m, allWhile_cons_eq_some.mpr (.inr ⟨?_, ?_⟩)⟩
      · exact hgrows _ _ (Nat.le_max_left n m) _ _ hx
      · exact (hgrows _ _ (Nat.le_max_right n m)).allWhile _ _ hxs

/-- A search settles if each element does that comes up, which it does if the test fails for all
before it. -/
theorem settles_anyWhile (hgrows : Grows test) {xs : List α}
    (h : ∀ before x rest, xs = before ++ x :: rest → (∀ y ∈ before, Settles test y false) →
      ∃ b, Settles test x b) : ∃ b, Settles (fun n xs => anyWhile (test n) xs) xs b := by
  induction xs with
  | nil => exact ⟨false, 0, rfl⟩
  | cons x xs ih =>
    obtain ⟨b, n, hx⟩ := h [] x xs rfl nofun
    cases b with
    | true => exact ⟨true, n, anyWhile_cons_eq_some.mpr (.inl ⟨hx, rfl⟩)⟩
    | false =>
      obtain ⟨b, m, hxs⟩ := ih fun before y rest heq hbefore =>
        h (x :: before) y rest (by rw [heq]; rfl) (List.forall_mem_cons.mpr ⟨⟨n, hx⟩, hbefore⟩)
      refine ⟨b, max n m, anyWhile_cons_eq_some.mpr (.inr ⟨?_, ?_⟩)⟩
      · exact hgrows _ _ (Nat.le_max_left n m) _ _ hx
      · exact (hgrows _ _ (Nat.le_max_right n m)).anyWhile _ _ hxs

/-- Within a test of all elements that has an answer, an element that comes up has one. -/
theorem exists_of_allWhile (hgrows : Grows test) {n : Nat} {before rest : List α} {x : α} {b : Bool}
    (h : allWhile (test n) (before ++ x :: rest) = some b)
    (hbefore : ∀ y ∈ before, Settles test y true) : ∃ b', test n x = some b' := by
  induction before with
  | nil =>
    rcases allWhile_cons_eq_some.mp h with ⟨hx, -⟩ | ⟨hx, -⟩
    · exact ⟨false, hx⟩
    · exact ⟨true, hx⟩
  | cons y before ih =>
    obtain ⟨hy, hbefore⟩ := List.forall_mem_cons.mp hbefore
    rcases allWhile_cons_eq_some.mp h with ⟨hfalse, -⟩ | ⟨-, hrest⟩
    · cases hy.eq hgrows hfalse
    · exact ih hrest hbefore

/-- Within a search that has an answer, an element that comes up has one. -/
theorem exists_of_anyWhile (hgrows : Grows test) {n : Nat} {before rest : List α} {x : α} {b : Bool}
    (h : anyWhile (test n) (before ++ x :: rest) = some b)
    (hbefore : ∀ y ∈ before, Settles test y false) : ∃ b', test n x = some b' := by
  induction before with
  | nil =>
    rcases anyWhile_cons_eq_some.mp h with ⟨hx, -⟩ | ⟨hx, -⟩
    · exact ⟨true, hx⟩
    · exact ⟨false, hx⟩
  | cons y before ih =>
    obtain ⟨hy, hbefore⟩ := List.forall_mem_cons.mp hbefore
    rcases anyWhile_cons_eq_some.mp h with ⟨htrue, -⟩ | ⟨-, hrest⟩
    · cases hy.eq hgrows htrue
    · exact ih hrest hbefore

end Tests

/-! ## Comparisons -/

/-- A comparison: two values, and the pairs of lists and dicts that count as equal. -/
structure Comparison where
  active : List (Node × Node)
  left : Value
  right : Value

namespace Store

/-- The answer of a comparison, if the budget suffices. -/
def compare? (s : Store) (fuel : Nat) (c : Comparison) : Option Bool :=
  s.equalIn? fuel c.active c.left c.right

/-- The answer of a comparison for a large enough budget. -/
def Answers (s : Store) (c : Comparison) (b : Bool) : Prop := Settles s.compare? c b

/-- The comparison has an answer for some budget. -/
def Ends (s : Store) (c : Comparison) : Prop := ∃ b, s.Answers c b

/-- Whether two elements of lists are equal. -/
def samePair? (s : Store) (active : List (Node × Node)) (fuel : Nat) (pair : Value × Value) :
    Option Bool :=
  s.equalIn? fuel active pair.1 pair.2

/-- Whether two entries of dicts are equal, the keys first. -/
def agree? (s : Store) (active : List (Node × Node)) (entry : Value × Value) (fuel : Nat)
    (other : Value × Value) : Option Bool :=
  bothWhile (s.equalIn? fuel active entry.1 other.1) (s.equalIn? fuel active entry.2 other.2)

/-- Whether some entry is equal to the given one. -/
def occurs? (s : Store) (active : List (Node × Node)) (entries : Entries) (fuel : Nat)
    (entry : Value × Value) : Option Bool :=
  anyWhile (s.agree? active entry fuel) entries

variable {s : Store}

theorem equalIn?_list (s : Store) (fuel : Nat) (active : List (Node × Node)) (a b : ListId) :
    s.equalIn? (fuel + 1) active (.list a) (.list b) =
      if a = b ∨ (.list a, .list b) ∈ active then some true
      else if (s.list a).size = (s.list b).size then
        allWhile (s.samePair? ((.list a, .list b) :: active) fuel)
          ((s.list a).toList.zip (s.list b).toList)
      else some false := by
  rw [equalIn?]
  simp only [Bool.or_eq_true, beq_iff_eq, List.contains_iff_mem, Array.length_toList]
  rfl

theorem equalIn?_dict (s : Store) (fuel : Nat) (active : List (Node × Node)) (a b : DictId) :
    s.equalIn? (fuel + 1) active (.dict a) (.dict b) =
      if a = b ∨ (.dict a, .dict b) ∈ active then some true
      else if (s.dict a).length = (s.dict b).length then
        allWhile (s.occurs? ((.dict a, .dict b) :: active) (s.dict b) fuel) (s.dict a)
      else some false := by
  rw [equalIn?]
  simp only [Bool.or_eq_true, beq_iff_eq, List.contains_iff_mem, entriesEqual?]
  rfl

theorem equalIn?_builtin (s : Store) (fuel : Nat) (active : List (Node × Node))
    (r r' : Receiver) (method method' : Method) :
    s.equalIn? (fuel + 1) active (.callable (.builtin r method))
        (.callable (.builtin r' method')) =
      if method = method' then s.compare? fuel ⟨[], r.toValue, r'.toValue⟩ else some false := by
  rw [equalIn?]
  simp only [beq_iff_eq]
  rfl

/-- Two values that are neither two lists, two dicts nor two built-in methods are compared at
once. -/
theorem shape_cases (s : Store) (left right : Value) :
    (∃ a b, left = .list a ∧ right = .list b) ∨ (∃ a b, left = .dict a ∧ right = .dict b) ∨
      (∃ r r' method method', left = .callable (.builtin r method) ∧
        right = .callable (.builtin r' method')) ∨
      ∃ answer, ∀ fuel active, s.equalIn? (fuel + 1) active left right = some answer := by
  rcases left with _ | _ | _ | _ | a | a | _ | (_ | _ | _ | _ | ⟨r, method⟩) <;>
  rcases right with _ | _ | _ | _ | b | b | _ | (_ | _ | _ | _ | ⟨r', method'⟩) <;>
  first
  | exact .inr (.inr (.inr ⟨_, fun _ _ => rfl⟩))
  | exact .inl ⟨a, b, rfl, rfl⟩
  | exact .inr (.inl ⟨a, b, rfl, rfl⟩)
  | exact .inr (.inr (.inl ⟨r, r', method, method', rfl, rfl⟩))

theorem refines_samePair? {n m : Nat} (h : Refines (s.compare? n) (s.compare? m))
    (active : List (Node × Node)) : Refines (s.samePair? active n) (s.samePair? active m) :=
  fun pair => h ⟨active, pair.1, pair.2⟩

theorem refines_agree? {n m : Nat} (h : Refines (s.compare? n) (s.compare? m))
    (active : List (Node × Node)) (entry : Value × Value) :
    Refines (s.agree? active entry n) (s.agree? active entry m) :=
  Refines.bothWhile (fun other => h ⟨active, entry.1, other.1⟩)
    fun other => h ⟨active, entry.2, other.2⟩

theorem refines_occurs? {n m : Nat} (h : Refines (s.compare? n) (s.compare? m))
    (active : List (Node × Node)) (entries : Entries) :
    Refines (s.occurs? active entries n) (s.occurs? active entries m) :=
  fun entry => (refines_agree? h active entry).anyWhile entries

/-- **A larger budget keeps the answer of a comparison.** -/
theorem grows_compare? (s : Store) : Grows s.compare? := by
  intro n
  induction n with
  | zero => exact fun _ _ _ _ h => nomatch h
  | succ n ih =>
    intro m hle c b h
    obtain ⟨m, rfl⟩ : ∃ k, m = k + 1 := ⟨m - 1, by omega⟩
    have hrefines := ih m (by omega)
    obtain ⟨active, left, right⟩ := c
    rw [compare?] at h ⊢
    rcases s.shape_cases left right with ⟨a, a', rfl, rfl⟩ | ⟨a, a', rfl, rfl⟩ |
      ⟨r, r', method, method', rfl, rfl⟩ | ⟨answer, hanswer⟩
    · rw [equalIn?_list] at h ⊢
      split at h
      · rwa [if_pos ‹_›]
      · rw [if_neg ‹_›]
        split at h
        · rw [if_pos ‹_›]
          exact (refines_samePair? hrefines _).allWhile _ _ h
        · rwa [if_neg ‹_›]
    · rw [equalIn?_dict] at h ⊢
      split at h
      · rwa [if_pos ‹_›]
      · rw [if_neg ‹_›]
        split at h
        · rw [if_pos ‹_›]
          exact (refines_occurs? hrefines _ _).allWhile _ _ h
        · rwa [if_neg ‹_›]
    · rw [equalIn?_builtin] at h ⊢
      split at h
      · rw [if_pos ‹_›]
        exact hrefines _ _ h
      · rwa [if_neg ‹_›]
    · rw [hanswer] at h ⊢
      exact h

theorem grows_samePair? (s : Store) (active : List (Node × Node)) : Grows (s.samePair? active) :=
  fun n m hle => refines_samePair? (s.grows_compare? n m hle) active

theorem grows_agree? (s : Store) (active : List (Node × Node)) (entry : Value × Value) :
    Grows (s.agree? active entry) :=
  fun n m hle => refines_agree? (s.grows_compare? n m hle) active entry

theorem grows_occurs? (s : Store) (active : List (Node × Node)) (entries : Entries) :
    Grows (s.occurs? active entries) :=
  fun n m hle => refines_occurs? (s.grows_compare? n m hle) active entries

/-! ## The comparisons that a comparison makes -/

/-- The comparison of two dicts comes to compare two of their entries: the entries before the first
one have been found, and the candidates before the second one differ from the first one. -/
structure ComesTo (s : Store) (active : List (Node × Node)) (left right : Entries)
    (entry other : Value × Value) : Prop where
  found : ∃ before rest, left = before ++ entry :: rest ∧
    ∀ e ∈ before, Settles (s.occurs? active right) e true
  differ : ∃ before rest, right = before ++ other :: rest ∧
    ∀ o ∈ before, Settles (s.agree? active entry) o false

theorem ComesTo.mem {active : List (Node × Node)} {left right : Entries}
    {entry other : Value × Value} (h : s.ComesTo active left right entry other) : entry ∈ left := by
  obtain ⟨before, rest, hleft, -⟩ := h.found
  rw [hleft]
  exact List.mem_append_right _ List.mem_cons_self

/-- The comparisons that a comparison makes directly. -/
inductive Asks (s : Store) : Comparison → Comparison → Prop where
  | element {active : List (Node × Node)} {a b : ListId} {before rest : List (Value × Value)}
      {pair : Value × Value} (hnew : ¬(a = b ∨ (.list a, .list b) ∈ active))
      (hsize : (s.list a).size = (s.list b).size)
      (hpairs : (s.list a).toList.zip (s.list b).toList = before ++ pair :: rest)
      (hbefore : ∀ p ∈ before, Settles (s.samePair? ((.list a, .list b) :: active)) p true) :
      Asks s ⟨active, .list a, .list b⟩ ⟨(.list a, .list b) :: active, pair.1, pair.2⟩
  | key {active : List (Node × Node)} {a b : DictId} {entry other : Value × Value}
      (hnew : ¬(a = b ∨ (.dict a, .dict b) ∈ active))
      (hsize : (s.dict a).length = (s.dict b).length)
      (hcomes : s.ComesTo ((.dict a, .dict b) :: active) (s.dict a) (s.dict b) entry other) :
      Asks s ⟨active, .dict a, .dict b⟩ ⟨(.dict a, .dict b) :: active, entry.1, other.1⟩
  | value {active : List (Node × Node)} {a b : DictId} {entry other : Value × Value}
      (hnew : ¬(a = b ∨ (.dict a, .dict b) ∈ active))
      (hsize : (s.dict a).length = (s.dict b).length)
      (hcomes : s.ComesTo ((.dict a, .dict b) :: active) (s.dict a) (s.dict b) entry other)
      (hkey : s.Answers ⟨(.dict a, .dict b) :: active, entry.1, other.1⟩ true) :
      Asks s ⟨active, .dict a, .dict b⟩ ⟨(.dict a, .dict b) :: active, entry.2, other.2⟩
  | receiver {active : List (Node × Node)} {r r' : Receiver} {method : Method} :
      Asks s ⟨active, .callable (.builtin r method), .callable (.builtin r' method)⟩
        ⟨[], r.toValue, r'.toValue⟩

/-- Two entries settle if their keys do and, for equal keys, their values. -/
theorem settles_agree? {active : List (Node × Node)} {entry other : Value × Value}
    (hkey : s.Ends ⟨active, entry.1, other.1⟩)
    (hvalue : s.Answers ⟨active, entry.1, other.1⟩ true → s.Ends ⟨active, entry.2, other.2⟩) :
    ∃ b, Settles (s.agree? active entry) other b := by
  obtain ⟨b, n, hn⟩ := hkey
  cases b with
  | false => exact ⟨false, n, bothWhile_eq_some.mpr (.inl ⟨hn, rfl⟩)⟩
  | true =>
    obtain ⟨b, m, hm⟩ := hvalue ⟨n, hn⟩
    refine ⟨b, max n m, bothWhile_eq_some.mpr (.inr ⟨?_, ?_⟩)⟩
    · exact s.grows_compare? _ _ (Nat.le_max_left n m) _ _ hn
    · exact s.grows_compare? _ _ (Nat.le_max_right n m) _ _ hm

/-- **A comparison ends if those that it makes do.** -/
theorem ends_of_asks {c : Comparison} (h : ∀ d, s.Asks c d → s.Ends d) : s.Ends c := by
  obtain ⟨active, left, right⟩ := c
  rcases s.shape_cases left right with ⟨a, a', rfl, rfl⟩ | ⟨a, a', rfl, rfl⟩ |
    ⟨r, r', method, method', rfl, rfl⟩ | ⟨answer, hanswer⟩
  · by_cases hold : a = a' ∨ (.list a, .list a') ∈ active
    · exact ⟨true, 1, by rw [compare?, equalIn?_list, if_pos hold]⟩
    · by_cases hsize : (s.list a).size = (s.list a').size
      · have hpairs := settles_allWhile (s.grows_samePair? ((.list a, .list a') :: active))
          fun before pair rest heq hbefore => h _ (.element hold hsize heq hbefore)
        obtain ⟨b, n, hn⟩ := hpairs
        refine ⟨b, n + 1, ?_⟩
        rw [compare?, equalIn?_list, if_neg hold, if_pos hsize]
        exact hn
      · exact ⟨false, 1, by rw [compare?, equalIn?_list, if_neg hold, if_neg hsize]⟩
  · by_cases hold : a = a' ∨ (.dict a, .dict a') ∈ active
    · exact ⟨true, 1, by rw [compare?, equalIn?_dict, if_pos hold]⟩
    · by_cases hsize : (s.dict a).length = (s.dict a').length
      · have hentries := settles_allWhile
          (s.grows_occurs? ((.dict a, .dict a') :: active) (s.dict a'))
          fun before entry rest heq hbefore => settles_anyWhile (s.grows_agree? _ entry)
            fun before' other rest' heq' hbefore' => by
              have hcomes : s.ComesTo ((.dict a, .dict a') :: active) (s.dict a) (s.dict a') entry
                  other := ⟨⟨before, rest, heq, hbefore⟩, before', rest', heq', hbefore'⟩
              exact settles_agree? (h _ (.key hold hsize hcomes))
                fun hkey => h _ (.value hold hsize hcomes hkey)
        obtain ⟨b, n, hn⟩ := hentries
        refine ⟨b, n + 1, ?_⟩
        rw [compare?, equalIn?_dict, if_neg hold, if_pos hsize]
        exact hn
      · exact ⟨false, 1, by rw [compare?, equalIn?_dict, if_neg hold, if_neg hsize]⟩
  · by_cases heq : method = method'
    · subst heq
      obtain ⟨b, n, hn⟩ := h _ .receiver
      exact ⟨b, n + 1, by rw [compare?, equalIn?_builtin, if_pos rfl]; exact hn⟩
    · exact ⟨false, 1, by rw [compare?, equalIn?_builtin, if_neg heq]⟩
  · exact ⟨answer, 1, hanswer 0 active⟩

/-- Within a comparison of dicts that has an answer, two entries that it comes to have one. -/
theorem exists_of_comesTo {n : Nat} {active : List (Node × Node)} {left right : Entries}
    {entry other : Value × Value} {b : Bool}
    (h : allWhile (s.occurs? active right n) left = some b)
    (hcomes : s.ComesTo active left right entry other) :
    ∃ b', s.agree? active entry n other = some b' := by
  obtain ⟨⟨before, rest, hleft, hfound⟩, before', rest', hright, hdiffer⟩ := hcomes
  rw [hleft] at h
  obtain ⟨b', hentry⟩ := exists_of_allWhile (s.grows_occurs? active right) h hfound
  rw [occurs?, hright] at hentry
  exact exists_of_anyWhile (s.grows_agree? active entry) hentry hdiffer

/-- **A comparison that has an answer has answers for those that it makes**, with a smaller
budget. -/
theorem exists_answer_of_asks {c d : Comparison} (h : s.Asks c d) {n : Nat} {b : Bool}
    (hanswer : s.compare? (n + 1) c = some b) : ∃ b', s.compare? n d = some b' := by
  cases h with
  | element hnew hsize hpairs hbefore =>
    rw [compare?, equalIn?_list, if_neg hnew, if_pos hsize, hpairs] at hanswer
    exact exists_of_allWhile (s.grows_samePair? _) hanswer hbefore
  | key hnew hsize hcomes =>
    rw [compare?, equalIn?_dict, if_neg hnew, if_pos hsize] at hanswer
    obtain ⟨b', hentry⟩ := exists_of_comesTo hanswer hcomes
    rcases bothWhile_eq_some.mp hentry with ⟨hkey, -⟩ | ⟨hkey, -⟩
    · exact ⟨false, hkey⟩
    · exact ⟨true, hkey⟩
  | value hnew hsize hcomes hequal =>
    rw [compare?, equalIn?_dict, if_neg hnew, if_pos hsize] at hanswer
    obtain ⟨b', hentry⟩ := exists_of_comesTo hanswer hcomes
    rcases bothWhile_eq_some.mp hentry with ⟨hkey, -⟩ | ⟨-, hvalue⟩
    · cases hequal.eq s.grows_compare? hkey
    · exact ⟨b', hvalue⟩
  | receiver =>
    rw [compare?, equalIn?_builtin, if_pos rfl] at hanswer
    exact ⟨b, hanswer⟩

/-! ## Pairs of lists and dicts -/

/-- The lists and dicts of a store. -/
def nodes (s : Store) : List Node :=
  (List.range s.lists.size).map (fun i => .list ⟨i⟩) ++
    (List.range s.dicts.size).map fun i => .dict ⟨i⟩

/-- The pairs of lists and dicts of a store. -/
def nodePairs (s : Store) : List (Node × Node) :=
  s.nodes.flatMap fun left => s.nodes.map fun right => (left, right)

theorem mem_nodePairs {left right : Node} (hleft : left ∈ s.nodes) (hright : right ∈ s.nodes) :
    (left, right) ∈ s.nodePairs :=
  List.mem_flatMap.mpr ⟨left, hleft, List.mem_map.mpr ⟨right, hright, rfl⟩⟩

theorem list_mem_nodes {id : ListId} (h : 0 < (s.list id).size) : Node.list id ∈ s.nodes := by
  have hlt : id.index < s.lists.size := by
    refine Nat.lt_of_not_le fun hge => ?_
    rw [list, Array.getElem?_eq_none hge] at h
    exact absurd h (Nat.lt_irrefl 0)
  refine List.mem_append_left _ (List.mem_map.mpr ?_)
  exact ⟨id.index, List.mem_range.mpr hlt, rfl⟩

theorem dict_mem_nodes {id : DictId} (h : 0 < (s.dict id).length) : Node.dict id ∈ s.nodes := by
  have hlt : id.index < s.dicts.size := by
    refine Nat.lt_of_not_le fun hge => ?_
    rw [dict, Array.getElem?_eq_none hge] at h
    exact absurd h (Nat.lt_irrefl 0)
  refine List.mem_append_right _ (List.mem_map.mpr ?_)
  exact ⟨id.index, List.mem_range.mpr hlt, rfl⟩

end Store

section Unseen

variable {α : Type} [DecidableEq α]

/-- The number of items that have not been seen. -/
def unseen (items seen : List α) : Nat := items.countP fun item => !seen.contains item

theorem unseen_cons_lt {items seen : List α} {item : α} (hmem : item ∈ items)
    (hnew : item ∉ seen) : unseen items (item :: seen) < unseen items seen := by
  have hle : ∀ rest : List α, unseen rest (item :: seen) ≤ unseen rest seen := by
    refine fun rest => List.countP_mono_left fun other _ hother => ?_
    simp only [Bool.not_eq_true', List.contains_eq_mem, decide_eq_false_iff_not] at hother ⊢
    exact fun hold => hother (List.mem_cons_of_mem _ hold)
  induction items with
  | nil => cases hmem
  | cons other rest ih =>
    rw [unseen, unseen, List.countP_cons, List.countP_cons]
    by_cases heq : item = other
    · have hfirst := hle rest
      rw [unseen, unseen] at hfirst
      have hself : (item :: seen).contains other = true := by simp [heq]
      have hother : seen.contains other = false := by simpa [← heq] using hnew
      rw [hself, hother]
      simp only [Bool.not_true, Bool.not_false, Bool.false_eq_true, if_true, if_false]
      omega
    · have hrest := ih ((List.mem_cons.mp hmem).resolve_left heq)
      rw [unseen, unseen] at hrest
      have hother : (item :: seen).contains other = seen.contains other := by
        simp [List.contains_eq_mem, Ne.symm heq]
      rw [hother]
      omega

end Unseen

/-- The value is a built-in method of a list, a dict or a text. -/
def Value.IsMethod : Value → Prop
  | .callable (.builtin _ _) => True
  | _ => False

/-- A list or dict as a value. -/
def Node.toValue : Node → Value
  | list id => .list id
  | dict id => .dict id

/-! ## Comparisons between two comparisons of receivers -/

namespace Store

variable {s : Store}

/-- What a comparison asks for: it opens a new pair of lists or dicts of the store and goes on with
that pair active, or it compares the receivers of two built-in methods from the start. -/
theorem asks_cases {c d : Comparison} (h : s.Asks c d) :
    (∃ pair ∈ s.nodePairs, pair ∉ c.active ∧ c.left = pair.1.toValue ∧
      c.right = pair.2.toValue ∧ d.active = pair :: c.active) ∨
    ∃ r r' : Receiver, (∃ method, c.left = .callable (.builtin r method)) ∧
      d = ⟨[], r.toValue, r'.toValue⟩ := by
  cases h with
  | @element active a b before rest pair hnew hsize hpairs hbefore =>
    have hpos : 0 < (s.list a).size := by
      have hlength := congrArg List.length hpairs
      simp only [List.length_zip, Array.length_toList, List.length_append, List.length_cons]
        at hlength
      omega
    have hpos' : 0 < (s.list b).size := hsize ▸ hpos
    exact .inl ⟨(.list a, .list b), mem_nodePairs (list_mem_nodes hpos) (list_mem_nodes hpos'),
      fun hmem => hnew (.inr hmem), rfl, rfl, rfl⟩
  | @key active a b _ _ hnew hsize hcomes | @value active a b _ _ hnew hsize hcomes =>
    have hpos : 0 < (s.dict a).length := List.length_pos_of_mem hcomes.mem
    have hpos' : 0 < (s.dict b).length := hsize ▸ hpos
    exact .inl ⟨(.dict a, .dict b), mem_nodePairs (dict_mem_nodes hpos) (dict_mem_nodes hpos'),
      fun hmem => hnew (.inr hmem), rfl, rfl, rfl⟩
  | receiver => exact .inr ⟨_, _, ⟨_, rfl⟩, rfl⟩

open Relation

/-- Making the first comparison leads to making the second one. -/
def LeadsTo (s : Store) (c d : Comparison) : Prop := c = d ∨ TransGen s.Asks c d

theorem LeadsTo.refl (s : Store) (c : Comparison) : s.LeadsTo c c := .inl rfl

theorem LeadsTo.transGen {c d e : Comparison} (h : s.LeadsTo c d) (hasks : s.Asks d e) :
    TransGen s.Asks c e := by
  rcases h with rfl | h
  · exact .single hasks
  · exact .tail h hasks

theorem LeadsTo.trans {c d e : Comparison} (h : s.LeadsTo c d) (h' : s.LeadsTo d e) :
    s.LeadsTo c e := by
  rcases h with rfl | h
  · exact h'
  · rcases h' with rfl | h'
    · exact .inr h
    · exact .inr (h.trans h')

/-- **A comparison ends if the comparisons of receivers do that it leads to.** Every other
comparison opens one more pair of lists or dicts, and the store has finitely many. -/
theorem ends_of_restarts {c : Comparison}
    (h : ∀ (d : Comparison) (r r' : Receiver), s.LeadsTo c d →
      s.Asks d ⟨[], r.toValue, r'.toValue⟩ → s.Ends ⟨[], r.toValue, r'.toValue⟩) : s.Ends c := by
  induction hk : unseen s.nodePairs c.active using Nat.strongRecOn generalizing c with
  | ind k ih =>
    refine ends_of_asks fun d hd => ?_
    rcases asks_cases hd with ⟨pair, hmem, hnew, -, -, hactive⟩ | ⟨r, r', -, rfl⟩
    · refine ih _ ?_ (fun e r r' he => h e r r' (.trans (.inr (.single hd)) he)) rfl
      rw [← hk, hactive]
      exact unseen_cons_lt hmem hnew
    · exact h c r r' (.refl s c) hd

/-- **A comparison ends unless it leads to a loop.** The comparisons of receivers on the way are
kept in `seen`: one that comes up again would be a loop, and there are finitely many. -/
theorem ends_of_no_loop {c : Comparison} (seen : List (Node × Node))
    (hseen : ∀ pair ∈ seen, s.LeadsTo ⟨[], pair.1.toValue, pair.2.toValue⟩ c)
    (hloop : ∀ v w, s.LeadsTo c ⟨[], v, w⟩ → ¬TransGen s.Asks ⟨[], v, w⟩ ⟨[], v, w⟩) :
    s.Ends c := by
  induction hk : unseen s.nodePairs seen using Nat.strongRecOn generalizing c seen with
  | ind k ih =>
    refine ends_of_restarts fun d r r' hd hasks => ?_
    have hreach : s.LeadsTo c _ := .inr (hd.transGen hasks)
    by_cases hopen : ∃ e, s.Asks ⟨[], r.toValue, r'.toValue⟩ e
    · obtain ⟨e, he⟩ := hopen
      rcases asks_cases he with ⟨pair, hmem, -, hleft, hright, -⟩ | ⟨q, -, ⟨method, hleft⟩, -⟩
      · change r.toValue = _ at hleft
        change r'.toValue = _ at hright
        rw [hleft, hright] at hasks hreach ⊢
        have hnew : pair ∉ seen := fun hold =>
          hloop _ _ hreach (((hseen pair hold).trans hd).transGen hasks)
        refine ih _ ?_ (pair :: seen) ?_ (fun v w h => hloop v w (hreach.trans h)) rfl
        · rw [← hk]
          exact unseen_cons_lt hmem hnew
        · refine List.forall_mem_cons.mpr ⟨.refl s _, fun other hother => ?_⟩
          exact .inr (((hseen other hother).trans hd).transGen hasks)
      · cases r <;> cases hleft
    · exact ends_of_asks fun e he => absurd ⟨e, he⟩ hopen

/-! ## Loops have no answer -/

theorem exists_answer_of_transGen {c d : Comparison} (h : TransGen s.Asks c d) {n : Nat} {b : Bool}
    (hanswer : s.compare? n c = some b) : ∃ k, k < n ∧ ∃ b', s.compare? k d = some b' := by
  induction h with
  | single hasks =>
    cases n with
    | zero => cases hanswer
    | succ n => exact ⟨n, Nat.lt_succ_self n, exists_answer_of_asks hasks hanswer⟩
  | tail _ hasks ih =>
    obtain ⟨k, hk, b', hb'⟩ := ih
    cases k with
    | zero => cases hb'
    | succ k => exact ⟨k, by omega, exists_answer_of_asks hasks hb'⟩

/-- A comparison that leads back to itself has no answer: it would have one for ever smaller
budgets. -/
theorem not_answer_of_loop {c : Comparison} (h : TransGen s.Asks c c) (n : Nat) (b : Bool) :
    s.compare? n c ≠ some b := by
  induction n using Nat.strongRecOn generalizing b with
  | ind n ih =>
    intro hanswer
    obtain ⟨k, hk, b', hb'⟩ := exists_answer_of_transGen h hanswer
    exact ih k hk b' hb'

theorem Ends.of_leadsTo {c d : Comparison} (h : s.Ends c) (hd : s.LeadsTo c d) : s.Ends d := by
  rcases hd with rfl | htrans
  · exact h
  · obtain ⟨b, n, hn⟩ := h
    obtain ⟨k, -, b', hb'⟩ := exists_answer_of_transGen htrans hn
    exact ⟨b', k, hb'⟩

/-! ## The comparisons that end -/

theorem Ends.eventually {v w : Value} (h : s.Ends ⟨[], v, w⟩) :
    ∃ answer fuel, ∀ n, fuel ≤ n → s.equal? n v w = some answer := by
  obtain ⟨answer, fuel, hfuel⟩ := h
  exact ⟨answer, fuel, fun n hn => s.grows_compare? fuel n hn _ _ hfuel⟩

/-- **A comparison ends exactly if it does not lead to a loop.** Two values have an answer, the same
for every large enough budget, if and only if comparing them does not lead to a comparison from the
start, of these values or of the receivers of two built-in methods, that leads back to itself. -/
theorem equal?_ends_iff (s : Store) (v w : Value) :
    (∃ answer fuel, ∀ n, fuel ≤ n → s.equal? n v w = some answer) ↔
      ¬∃ r r', s.LeadsTo ⟨[], v, w⟩ ⟨[], r, r'⟩ ∧ TransGen s.Asks ⟨[], r, r'⟩ ⟨[], r, r'⟩ := by
  constructor
  · rintro ⟨answer, fuel, hfuel⟩ ⟨r, r', hreach, hloop⟩
    have hends : s.Ends ⟨[], v, w⟩ := ⟨answer, fuel, hfuel fuel (Nat.le_refl fuel)⟩
    obtain ⟨b, n, hn⟩ := hends.of_leadsTo hreach
    exact not_answer_of_loop hloop n b hn
  · intro hloop
    have hends : s.Ends ⟨[], v, w⟩ := by
      refine ends_of_no_loop [] (fun pair hpair => absurd hpair List.not_mem_nil) ?_
      exact fun r r' hreach htrans => hloop ⟨r, r', hreach, htrans⟩
    exact hends.eventually

/-- No list and no dict holds a built-in method. Variables and fields may. -/
structure MethodFree (s : Store) : Prop where
  elements : ∀ id, ∀ v ∈ s.list id, ¬v.IsMethod
  entries : ∀ id, ∀ entry ∈ s.dict id, ¬entry.1.IsMethod ∧ ¬entry.2.IsMethod

theorem MethodFree.not_isMethod_of_asks (hs : s.MethodFree) {c d : Comparison} (h : s.Asks c d) :
    ¬d.left.IsMethod := by
  cases h with
  | @element active a b before rest pair hnew hsize hpairs hbefore =>
    have hmem : pair ∈ (s.list a).toList.zip (s.list b).toList := by
      rw [hpairs]
      exact List.mem_append_right _ List.mem_cons_self
    exact hs.elements a _ (Array.mem_toList_iff.mp (List.of_mem_zip hmem).1)
  | key _ _ hcomes => exact (hs.entries _ _ hcomes.mem).1
  | value _ _ hcomes => exact (hs.entries _ _ hcomes.mem).2
  | @receiver active r r' method => cases r <;> exact id

theorem active_ne_nil_of_asks {c d : Comparison} (h : s.Asks c d) (hc : ¬c.left.IsMethod) :
    d.active ≠ [] := by
  rcases asks_cases h with ⟨pair, -, -, -, -, hactive⟩ | ⟨r, r', ⟨method, hleft⟩, -⟩
  · rw [hactive]
    exact List.cons_ne_nil _ _
  · rw [hleft] at hc
    exact absurd trivial hc

/-- Only the first comparison can be one of built-in methods there, so nothing that follows starts
from the beginning again. -/
theorem MethodFree.not_loop (hs : s.MethodFree) (v w : Value) :
    ¬TransGen s.Asks ⟨[], v, w⟩ ⟨[], v, w⟩ := by
  have hway : ∀ d, TransGen s.Asks ⟨[], v, w⟩ d →
      ¬d.left.IsMethod ∧ (¬v.IsMethod → d.active ≠ []) := by
    intro d h
    induction h with
    | single hasks => exact ⟨hs.not_isMethod_of_asks hasks, active_ne_nil_of_asks hasks⟩
    | tail _ hasks ih =>
      exact ⟨hs.not_isMethod_of_asks hasks, fun _ => active_ne_nil_of_asks hasks ih.1⟩
  intro hloop
  obtain ⟨hleft, hactive⟩ := hway _ hloop
  exact hactive hleft rfl

/-- **Without built-in methods in lists and dicts every comparison ends**, also of lists and dicts
that contain themselves or each other. -/
theorem MethodFree.equal?_ends (hs : s.MethodFree) (v w : Value) :
    ∃ answer fuel, ∀ n, fuel ≤ n → s.equal? n v w = some answer := by
  have hends : s.Ends ⟨[], v, w⟩ := by
    refine ends_of_no_loop [] (fun pair hpair => absurd hpair List.not_mem_nil) ?_
    exact fun r r' _ => hs.not_loop r r'
  exact hends.eventually

/-- Two lists that each hold a method of their own are compared without end. -/
theorem loop_of_own_method {a b : ListId} {method : Method} (hne : a ≠ b)
    (ha : s.list a = #[.callable (.builtin (.list a) method)])
    (hb : s.list b = #[.callable (.builtin (.list b) method)]) :
    TransGen s.Asks ⟨[], .list a, .list b⟩ ⟨[], .list a, .list b⟩ := by
  have helement : s.Asks ⟨[], .list a, .list b⟩ ⟨[(.list a, .list b)],
      .callable (.builtin (.list a) method), .callable (.builtin (.list b) method)⟩ := by
    refine @Asks.element s [] a b [] [] (_, _) ?_ ?_ ?_ fun p hp => absurd hp List.not_mem_nil
    · rintro (heq | hmem)
      · exact hne heq
      · cases hmem
    · rw [ha, hb]
      rfl
    · rw [ha, hb]
      rfl
  exact .tail (.single helement) .receiver

end Store

/-- Two lists, each with its own `append` as its only element. -/
def ownMethods : List Stmt :=
  [.declare false .list "a" (some (.list [] {})) {},
    .declare false .list "b" (some (.list [] {})) {},
    .eval (.call (.field (.name "a" {}) "append" {}) [.field (.name "a" {}) "append" {}] {}) {},
    .eval (.call (.field (.name "b" {}) "append" {}) [.field (.name "b" {}) "append" {}] {}) {}]

/-- A program can build two lists whose comparison does not end. -/
theorem equal?_ownMethods :
    ¬∃ fuel, (((execute 10 ownMethods).after (Machine.initial 200 [] .never)).store.equal? fuel
      (.list ⟨0⟩) (.list ⟨1⟩)).isSome := by
  have hlists : ((execute 10 ownMethods).after (Machine.initial 200 [] .never)).store.lists =
      #[#[.callable (.builtin (.list ⟨0⟩) .listAppend)],
        #[.callable (.builtin (.list ⟨1⟩) .listAppend)]] := by
    with_unfolding_all rfl
  generalize ((execute 10 ownMethods).after (Machine.initial 200 [] .never)).store = s at hlists ⊢
  rintro ⟨fuel, hsome⟩
  obtain ⟨answer, hanswer⟩ := Option.isSome_iff_exists.mp hsome
  have hne : (⟨0⟩ : ListId) ≠ ⟨1⟩ := by decide
  have hloop := Store.loop_of_own_method hne (by rw [Store.list, hlists]; rfl)
    (by rw [Store.list, hlists]; rfl)
  exact Store.not_answer_of_loop hloop fuel answer hanswer

end Chalk
