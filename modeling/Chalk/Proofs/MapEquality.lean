import Mathlib
import Chalk.Proofs.OrderedMap
import Chalk.Proofs.Symmetry

/-!
# Equality of dicts as equality of maps

Two dicts are compared from the left: they have equally many entries, and every entry of the first
has an equal one in the second. For keys that do not change this is equality of maps. Stored keys
are pairwise different, so the entries that are found are different ones, and since there are
equally many of them on both sides, none of the second dict is left out.

Values may be anything, as long as those of equal keys can be compared. They are compared while
some pairs of lists and dicts count as equal already, which may be none: two dicts that are compared
as values count as equal themselves.

With a large enough budget all comparisons have an answer. Then nothing depends on the order in
which entries are looked at, and the answer is a plain truth value of the two lists of entries.

## Main definitions

* `Entries.Agree` — two entries whose keys are equal and whose values are related

## Main results

* `Entries.Holds.agree_iff` — equally many entries that agree make the same map
* `Store.entriesEqual?_iff_sameMap` — the comparison of two dicts with a history
-/

namespace Chalk

/-! ## Tests that are settled -/

section Tests

variable {α : Type} {test : α → Option Bool} {answer : α → Bool} {xs : List α}

theorem allWhile_eq_all (h : ∀ x ∈ xs, test x = some (answer x)) :
    allWhile test xs = some (xs.all answer) := by
  induction xs with
  | nil => rfl
  | cons x xs ih =>
    obtain ⟨hx, hxs⟩ := List.forall_mem_cons.mp h
    rw [allWhile, hx, List.all_cons]
    cases answer x with
    | true => exact ih hxs
    | false => rfl

theorem anyWhile_eq_any (h : ∀ x ∈ xs, test x = some (answer x)) :
    anyWhile test xs = some (xs.any answer) := by
  induction xs with
  | nil => rfl
  | cons x xs ih =>
    obtain ⟨hx, hxs⟩ := List.forall_mem_cons.mp h
    rw [anyWhile, hx, List.any_cons]
    cases answer x with
    | true => rfl
    | false => exact ih hxs

end Tests

/-! ## Entries that agree -/

namespace Entries

variable {left right : Entries} {history history' : List Access} {R : Value → Value → Prop}

/-- The keys are equal, and the values are related. -/
def Agree (R : Value → Value → Prop) (entry other : Value × Value) : Prop :=
  entry.1.same other.1 = true ∧ R entry.2 other.2

/-- No two entries agree with one and the same. -/
theorem Holds.apart (h : left.Holds history) (R : Value → Value → Prop) :
    left.Pairwise fun entry entry' => ∀ other, Agree R entry other → ¬Agree R entry' other := by
  refine (List.pairwise_map.mp h.distinct).imp fun {entry entry'} hne other hentry hentry' => ?_
  rw [Value.same_congr hentry.1, Value.same_comm, hentry'.1] at hne
  cases hne

/-- In the same map, every entry is found. -/
theorem Holds.exists_agree (h : left.Holds history) (h' : right.Holds history')
    (hsame : ∀ key, Option.Rel R (lastWritten key history) (lastWritten key history')) :
    ∀ entry ∈ left, ∃ other ∈ right, Agree R entry other := by
  intro entry hentry
  have hscalar := h.scalar entry.1 (List.mem_map_of_mem hentry)
  obtain ⟨before, after, rfl⟩ := List.append_of_mem hentry
  have hleft := h.lastWritten_eq (Value.same_self hscalar)
  have hrel := hsame entry.1
  rcases h'.absent_or_split entry.1 with
    ⟨hnone, -⟩ | ⟨before', key, value, after', hsome, rfl, hkey⟩
  · rw [hleft, hnone] at hrel
    cases hrel
  · rw [hleft, hsome] at hrel
    cases hrel with
    | some hvalue => exact ⟨(key, value), by simp, (Value.same_comm _ _).trans hkey, hvalue⟩

/-- **Entries that agree make the same map.** There are equally many of them and every one of the
first has one in the second that agrees, if and only if for every key the same has been written
last, up to what is related, or nothing has on both sides. -/
theorem Holds.agree_iff (h : left.Holds history) (h' : right.Holds history') :
    (left.length = right.length ∧ ∀ entry ∈ left, ∃ other ∈ right, Agree R entry other) ↔
      ∀ key, Option.Rel R (lastWritten key history) (lastWritten key history') := by
  constructor
  · rintro ⟨hlength, hfound⟩ key
    rcases h.absent_or_split key with
      ⟨hnone, habsent⟩ | ⟨before, other, old, after, hsome, rfl, hkey⟩
    · rcases h'.absent_or_split key with
        ⟨hnone', -⟩ | ⟨before', other', old', after', -, rfl, hkey'⟩
      · rw [hnone, hnone']
        exact .none
      · -- the entry on the right has been found by one on the left, since there are equally many
        obtain ⟨entry, hentry, hagree⟩ := exists_partner_of_length_eq hlength hfound (h.apart R)
          (other', old') (by simp)
        have hthere := (Value.same_congr hagree.1 key).trans hkey'
        rw [habsent entry hentry] at hthere
        cases hthere
    · obtain ⟨⟨other', old'⟩, hmem, hagree⟩ := hfound (other, old) (by simp)
      obtain ⟨before', after', rfl⟩ := List.append_of_mem hmem
      have hkey' : other'.same key = true := (Value.same_congr hagree.1 key).symm.trans hkey
      rw [hsome, h'.lastWritten_eq hkey']
      exact .some hagree.2
  · intro hsame
    have hflip : ∀ key, Option.Rel (flip R) (lastWritten key history') (lastWritten key history) :=
      fun key => by
        have hrel := hsame key
        revert hrel
        generalize lastWritten key history = l, lastWritten key history' = r
        rintro (hlr | _)
        · exact .some hlr
        · exact .none
    have hfound := h.exists_agree h' hsame
    have hfound' := h'.exists_agree h hflip
    exact ⟨Nat.le_antisymm (length_le_of_partners hfound (h.apart R))
      (length_le_of_partners hfound' (h'.apart (flip R))), hfound⟩

end Entries

namespace Store

variable {s : Store} {left right : Entries} {active : List (Node × Node)}

open Entries

/-! ## The comparison of entries -/

/-- The answer of a comparison is whether its values compare as equal. -/
theorem eq_decide_answers {c : Comparison} [Decidable (s.Answers c true)] {n : Nat} {answer : Bool}
    (h : s.compare? n c = some answer) : answer = decide (s.Answers c true) := by
  cases answer with
  | true => exact (decide_eq_true ⟨n, h⟩).symm
  | false => exact (decide_eq_false fun htrue => nomatch htrue.eq s.grows_compare? h).symm

open Filter Classical in
/-- One budget suffices for the values of all equal keys. -/
theorem exists_budget (hends : ∀ entry ∈ left, ∀ other ∈ right, entry.1.same other.1 = true →
      s.Ends ⟨active, entry.2, other.2⟩) :
    ∃ fuel, ∀ n, fuel ≤ n → ∀ entry ∈ left, ∀ other ∈ right, entry.1.same other.1 = true →
      s.equalIn? n active entry.2 other.2 =
        some (decide (s.Answers ⟨active, entry.2, other.2⟩ true)) := by
  refine eventually_atTop.mp ?_
  refine (eventually_all_finite left.finite_toSet).mpr fun entry hentry => ?_
  refine (eventually_all_finite right.finite_toSet).mpr fun other hother => ?_
  by_cases hsame : entry.1.same other.1 = true
  · obtain ⟨answer, fuel, hfuel⟩ := hends entry hentry other hother hsame
    refine eventually_atTop.mpr ⟨fuel, fun n hn _ => ?_⟩
    have hanswer := s.grows_compare? fuel n hn _ _ hfuel
    rw [← eq_decide_answers hanswer]
    exact hanswer
  · exact .of_forall fun _ h => absurd h hsame

open Classical in
/-- With a budget that suffices for the values of equal keys, the answer is whether there are
equally many entries and each one finds one that agrees. -/
theorem entriesEqual?_eq_decide {fuel : Nat} {R : Value → Value → Prop}
    (hkeys : ∀ entry ∈ left, entry.1.isScalar)
    (hvalues : ∀ entry ∈ left, ∀ other ∈ right, entry.1.same other.1 = true →
      s.equalIn? (fuel + 1) active entry.2 other.2 = some (decide (R entry.2 other.2))) :
    entriesEqual? (s.equalIn? (fuel + 1) active) left right =
      some (decide (left.length = right.length ∧
        ∀ entry ∈ left, ∃ other ∈ right, Agree R entry other)) := by
  have hentries : allWhile (s.occurs? active right (fuel + 1)) left =
      some (left.all fun entry => right.any fun other => decide (Agree R entry other)) := by
    refine allWhile_eq_all fun entry hentry => anyWhile_eq_any fun other hother => ?_
    rw [agree?, s.equalIn?_of_isScalar fuel active (hkeys entry hentry)]
    cases hsame : entry.1.same other.1 with
    | false => simp [bothWhile, Agree, hsame]
    | true => simp [bothWhile, Agree, hsame, hvalues entry hentry other hother hsame]
  show (if left.length == right.length then
    allWhile (s.occurs? active right (fuel + 1)) left else some false) = _
  rw [hentries]
  have hall : (left.all fun entry => right.any fun other => decide (Agree R entry other)) =
      decide (∀ entry ∈ left, ∃ other ∈ right, Agree R entry other) := by
    rw [Bool.eq_iff_iff, List.all_eq_true, decide_eq_true_iff]
    simp only [List.any_eq_true, decide_eq_true_iff]
  by_cases hlength : left.length = right.length
  · rw [if_pos (beq_iff_eq.mpr hlength), hall]
    simp only [hlength, true_and]
  · rw [if_neg (by rwa [beq_iff_eq]), decide_eq_false fun h => hlength h.1]

/-- **The comparison of dicts is equality of maps.** Whatever has been done to two dicts, if the
values of equal keys can be compared, then so can the entries, and they are equal if and only if
both dicts have the same keys up to equality and the values of every key are equal. In which order
the entries stand makes no difference.

No pairs are `active` when two dicts are compared by themselves, and when they are compared as
values, this pair of dicts is. -/
theorem entriesEqual?_iff_sameMap {a b : DictId} {history history' : List Access}
    (ha : Accessed a history s) (hb : Accessed b history' s)
    (hends : ∀ key v w, lastWritten key history = some v → lastWritten key history' = some w →
      s.Ends ⟨active, v, w⟩) :
    ∃ answer fuel, (∀ n left right, fuel ≤ n → left.Perm (s.dict a) → right.Perm (s.dict b) →
        entriesEqual? (s.equalIn? n active) left right = some answer) ∧
      (answer = true ↔ ∀ key, Option.Rel (fun v w => s.Answers ⟨active, v, w⟩ true)
        (lastWritten key history) (lastWritten key history')) := by
  classical
  have hleft := ha.holds.2
  have hright := hb.holds.2
  have hvalues : ∀ entry ∈ s.dict a, ∀ other ∈ s.dict b, entry.1.same other.1 = true →
      s.Ends ⟨active, entry.2, other.2⟩ := by
    intro entry hentry other hother hsame
    have hscalar := hright.scalar other.1 (List.mem_map_of_mem hother)
    obtain ⟨before, after, hsplit⟩ := List.append_of_mem hentry
    obtain ⟨before', after', hsplit'⟩ := List.append_of_mem hother
    rw [hsplit] at hleft
    rw [hsplit'] at hright
    exact hends other.1 _ _ (hleft.lastWritten_eq hsame)
      (hright.lastWritten_eq (Value.same_self hscalar))
  obtain ⟨fuel, hfuel⟩ := exists_budget hvalues
  have hiff := hleft.agree_iff (R := fun v w => s.Answers ⟨active, v, w⟩ true) hright
  refine ⟨decide _, fuel + 1, ?_, decide_eq_true_iff.trans hiff⟩
  intro n left right hn hperm hperm'
  obtain ⟨n, rfl⟩ : ∃ k, n = k + 1 := ⟨n - 1, by omega⟩
  rw [entriesEqual?_eq_decide (R := fun v w => s.Answers ⟨active, v, w⟩ true)
    (fun entry hentry =>
      hleft.scalar entry.1 (List.mem_map_of_mem (hperm.mem_iff.mp hentry)))
    (fun entry hentry other hother => hfuel (n + 1) (by omega) entry (hperm.mem_iff.mp hentry)
      other (hperm'.mem_iff.mp hother))]
  simp only [hperm.length_eq, hperm'.length_eq, hperm.mem_iff, hperm'.mem_iff]

/-- Two dicts with the same keys in a different order, and with lists of their own. -/
def twins : Store where
  lists := #[#[.boolean true], #[.boolean true]]
  dicts := #[[(.number 0.0, .list ⟨0⟩), (.string "c", .boolean true)],
    [(.string "c", .boolean true), (.number (-0.0), .list ⟨1⟩)]]

theorem twins_methodFree : twins.MethodFree where
  elements := by
    rintro ⟨_ | _ | n⟩ v hv <;> simp [twins, list] at hv
    all_goals rcases hv with rfl; exact id
  entries := by
    rintro ⟨_ | _ | n⟩ entry hentry <;> simp [twins, dict] at hentry
    all_goals rcases hentry with rfl | rfl <;> exact ⟨id, id⟩

/-- The history of the first of the two. -/
def elderHistory : List Access :=
  [.insert (.number 0.0) (.list ⟨0⟩), .insert (.string "b") (.boolean true),
    .remove (.string "b"), .insert (.string "c") (.boolean true)]

/-- The history of the second. -/
def youngerHistory : List Access :=
  [.insert (.string "c") (.boolean true), .insert (.number (-0.0)) (.list ⟨1⟩)]

theorem accessed_twins :
    Accessed ⟨0⟩ elderHistory twins ∧ Accessed ⟨1⟩ youngerHistory twins := by
  have hmade : Accessed ⟨0⟩ _ _ := @Accessed.literal ⟨0⟩ (fun _ _ _ => return .null) 0
    [(.number 0.0 {}, .list [.boolean true {}] {}), (.string "b" {}, .boolean true {})] {}
    [(.number 0.0, .list ⟨0⟩), (.string "b", .boolean true)] (Machine.initial 200 []) _ _ rfl rfl
    (by decide +kernel)
  have hremoved := hmade.access 0 (.remove (.string "b")) nofun
  have helder := hremoved.access 0 (.insert (.string "c") (.boolean true)) (by decide)
  have hyounger : Accessed ⟨1⟩ youngerHistory twins := @Accessed.literal ⟨1⟩
    (fun _ _ _ => return .null) 0
    [(.string "c" {}, .boolean true {}), (.number (-0.0) {}, .list [.boolean true {}] {})] {}
    [(.string "c", .boolean true), (.number (-0.0), .list ⟨1⟩)]
    { Machine.initial 200 [] with store :=
      { lists := #[#[.boolean true]]
        dicts := #[[(.number 0.0, .list ⟨0⟩), (.string "c", .boolean true)]] } }
    _ _ rfl rfl (by decide +kernel)
  exact ⟨helder.elsewhere (by decide) rfl, hyounger⟩

theorem sameMap_twins :
    Accessed ⟨0⟩ elderHistory twins ∧ Accessed ⟨1⟩ youngerHistory twins ∧
      ∀ key, Option.Rel (fun v w => twins.Answers ⟨[], v, w⟩ true)
        (lastWritten key elderHistory) (lastWritten key youngerHistory) := by
  obtain ⟨helder, hyounger⟩ := accessed_twins
  have hends : ∀ key v w, lastWritten key elderHistory = some v →
      lastWritten key youngerHistory = some w → twins.Ends ⟨[], v, w⟩ := by
    intro key v w hv _
    rcases helder.holds.2.absent_or_split key with
      ⟨hnone, -⟩ | ⟨before, other, old, after, hsome, hsplit, -⟩
    · rw [hv] at hnone
      cases hnone
    · obtain rfl : v = old := Option.some.inj (hv.symm.trans hsome)
      have hmem : (other, v) ∈ twins.dict ⟨0⟩ := by
        rw [hsplit]
        simp
      exact (twins_methodFree.methodless (twins_methodFree.entries ⟨0⟩ _ hmem).2).ends w
  obtain ⟨answer, fuel, hanswer, hiff⟩ := entriesEqual?_iff_sameMap helder hyounger hends
  have htrue : entriesEqual? (twins.equalIn? (fuel + 3) []) (twins.dict ⟨0⟩) (twins.dict ⟨1⟩) =
      some true := rfl
  rw [hanswer _ _ _ (Nat.le_add_right fuel 3) (.refl _) (.refl _)] at htrue
  exact ⟨helder, hyounger, hiff.mp (Option.some.inj htrue)⟩

end Store

end Chalk
