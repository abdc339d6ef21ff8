import Mathlib
import Chalk.Proofs.Bisimulation
import Chalk.Proofs.Reachable

/-!
# When equality is symmetric

Two dicts are compared from the left: they have equally many entries, and every entry of the first
has an equal one in the second. If no two keys of the first dict are equal to one and the same
value, then different entries find different ones, and since there are equally many, none of the
second is left out: the comparison could as well have been made from the right.

Dicts are filled so that no key is equal to another one when it comes in. Keys are values like any
other, though, and a list that is a key can change. A dict with two equal keys compares as equal to
one that has another key besides, and not the other way round.

## Main definitions

* `Store.Unambiguous` — no dict in a value has two keys that are alike to one value

## Main results

* `Store.Alike.symm` — what is alike from the left is so from the right
* `Store.equal?_comm` — the answers of two comparisons of the same values
-/

namespace Chalk

section Partners

variable {α β : Type} [DecidableEq β] {M : α → β → Prop} {xs : List α} {ys : List β}

/-- If everything in a list finds a partner in another list, and no two the same one, then the
partners are a part of that list, in some order. -/
theorem exists_partners_subperm (hfound : ∀ x ∈ xs, ∃ y ∈ ys, M x y)
    (hapart : xs.Pairwise fun x x' => ∀ y, M x y → ¬M x' y) :
    ∃ zs, zs.Subperm ys ∧ List.Forall₂ M xs zs := by
  induction xs generalizing ys with
  | nil => exact ⟨[], List.nil_subperm, .nil⟩
  | cons x xs ih =>
    obtain ⟨hx, hxs⟩ := List.pairwise_cons.mp hapart
    obtain ⟨⟨y, hy, hxy⟩, hfound⟩ := List.forall_mem_cons.mp hfound
    have hrest : ∀ x' ∈ xs, ∃ y' ∈ ys.erase y, M x' y' := by
      intro x' hx'
      obtain ⟨y', hy', hxy'⟩ := hfound x' hx'
      have hne : y' ≠ y := fun heq => hx x' hx' y hxy (heq ▸ hxy')
      exact ⟨y', (List.mem_erase_of_ne hne).mpr hy', hxy'⟩
    obtain ⟨zs, hsubperm, hpartners⟩ := ih hrest hxs
    refine ⟨y :: zs, ?_, .cons hxy hpartners⟩
    exact ((List.subperm_cons y).mpr hsubperm).trans (List.perm_cons_erase hy).symm.subperm

/-- A list in which everything finds a partner in another list, and no two the same one, is not
longer than that list. -/
theorem length_le_of_partners (hfound : ∀ x ∈ xs, ∃ y ∈ ys, M x y)
    (hapart : xs.Pairwise fun x x' => ∀ y, M x y → ¬M x' y) : xs.length ≤ ys.length := by
  obtain ⟨zs, hsubperm, hpartners⟩ := exists_partners_subperm hfound hapart
  exact hpartners.length_eq ▸ hsubperm.length_le

/-- A list in which everything finds a partner in a list of the same length, and no two of it the
same one, leaves none of that list without a partner. -/
theorem exists_partner_of_length_eq (hlength : xs.length = ys.length)
    (hfound : ∀ x ∈ xs, ∃ y ∈ ys, M x y)
    (hapart : xs.Pairwise fun x x' => ∀ y, M x y → ¬M x' y) : ∀ y ∈ ys, ∃ x ∈ xs, M x y := by
  obtain ⟨zs, hsubperm, hpartners⟩ := exists_partners_subperm hfound hapart
  have hperm : zs.Perm ys :=
    hsubperm.perm_of_length_le (Nat.le_of_eq (hlength.symm.trans hpartners.length_eq))
  intro y hy
  obtain ⟨i, hi, rfl⟩ := List.getElem_of_mem (hperm.mem_iff.mpr hy)
  have hi' : i < xs.length := hpartners.length_eq ▸ hi
  exact ⟨xs[i], List.getElem_mem hi', hpartners.get hi' hi⟩

end Partners

namespace Store

open Relation

variable {s : Store} {v w : Value}

/-- No two keys are related to one value. -/
def Apart (R : Value → Value → Prop) (entries : Entries) : Prop :=
  entries.Pairwise fun entry entry' => ∀ u, R entry.1 u → ¬R entry'.1 u

/-- Values that match from the left match from the right, if the keys of a dict on the left are
apart. -/
theorem Matches.flip {R : Value → Value → Prop} (h : s.Matches R v w)
    (hapart : ∀ a, v = .dict a → Apart R (s.dict a)) : s.Matches (fun x y => R y x) w v := by
  cases v with
  | number a =>
    cases w with
    | number b => exact BEq.symm h
    | _ => exact False.elim h
  | list a =>
    cases w with
    | list b => exact h.imp Eq.symm List.Forall₂.flip
    | _ => exact False.elim h
  | dict a =>
    cases w with
    | dict b =>
      refine h.imp Eq.symm fun ⟨hlength, hall⟩ => ⟨hlength.symm, ?_⟩
      refine exists_partner_of_length_eq hlength hall ((hapart a rfl).imp ?_)
      exact fun hkeys other hentry hentry' => hkeys other.1 hentry.1 hentry'.1
    | _ => exact False.elim h
  | callable f =>
    cases w with
    | callable g =>
      cases f with
      | builtin r method => exact False.elim h
      | _ =>
        cases g with
        | builtin r method => cases h
        | _ => exact Eq.symm h
    | _ => cases f <;> exact False.elim h
  | _ =>
    cases w with
    | callable g => exact False.elim h
    | _ => first | exact Eq.symm h | exact h

/-- No dict that a comparison can come to from a value has two keys that are alike to one value. -/
def Unambiguous (s : Store) (v : Value) : Prop :=
  ∀ id, ReflTransGen s.LeadsInto v (.dict id) → Apart s.Alike (s.dict id)

theorem Unambiguous.of_leadsInto {u : Value} (hv : s.Unambiguous v) (h : s.LeadsInto v u) :
    s.Unambiguous u :=
  fun id hid => hv id (.head h hid)

/-- **What is alike from the left is alike from the right**, if the value on the left is
unambiguous. -/
theorem Alike.symm (h : s.Alike v w) (hv : s.Unambiguous v) : s.Alike w v := by
  refine ⟨fun x y => s.Alike y x ∧ s.Unambiguous y, ?_, h, hv⟩
  rintro x y ⟨halike, hy⟩
  have hmatches : s.MatchesAny (fun a b => s.Alike a b ∧ s.Unambiguous a) y x :=
    halike.matches.mono fun a b hinto hab => ⟨hab, hy.of_leadsInto hinto⟩
  rcases hmatches with hmatches | ⟨r, r', method, rfl, rfl, hreceivers⟩
  · refine .inl (hmatches.flip fun a ha => ?_)
    subst ha
    exact (hy a .refl).imp fun hkeys u hu hu' => hkeys u hu.1 hu'.1
  · exact .inr ⟨r', r, method, rfl, rfl, hreceivers⟩

/-- **Equality is symmetric on unambiguous values**: where the comparisons of two such values end,
they have the same answer. -/
theorem equal?_comm {n n' : Nat} {answer answer' : Bool} (hv : s.Unambiguous v)
    (hw : s.Unambiguous w) (h : s.equal? n v w = some answer)
    (h' : s.equal? n' w v = some answer') : answer = answer' := by
  rw [Bool.eq_iff_iff, equal?_eq_some_iff_alike h, equal?_eq_some_iff_alike h']
  exact ⟨fun halike => halike.symm hv, fun halike => halike.symm hw⟩

/-- Only a text is alike to a text. -/
theorem Alike.eq_string {content : String} (h : s.Alike (.string content) v) :
    v = .string content := by
  rcases h.matches with hmatches | ⟨_, _, _, hleft, _⟩
  · cases v with
    | string other => exact congrArg Value.string (Eq.symm hmatches)
    | _ => exact False.elim hmatches
  · cases hleft

/-- Two dicts with the same entries in another order. -/
def reordered : Store where
  dicts := #[[(.string "x", .boolean true), (.string "y", .boolean false)],
    [(.string "y", .boolean false), (.string "x", .boolean true)]]

theorem reordered_unambiguous (v : Value) : reordered.Unambiguous v := by
  have hkeys : ∀ a b u, a ≠ b → reordered.Alike (.string a) u → ¬reordered.Alike (.string b) u := by
    intro a b u hne ha hb
    exact hne (Value.string.inj (ha.eq_string.symm.trans hb.eq_string))
  have hapart : ∀ a b x y, a ≠ b → Apart reordered.Alike [(.string a, x), (.string b, y)] := by
    intro a b x y hne
    refine List.pairwise_pair.mpr fun u => hkeys a b u hne
  rintro ⟨_ | _ | n⟩ -
  · exact hapart _ _ _ _ (by decide)
  · exact hapart _ _ _ _ (by decide)
  · exact .nil

theorem equal?_reordered :
    reordered.equal? 2 (.dict ⟨0⟩) (.dict ⟨1⟩) = some true ∧
      ∀ n answer, reordered.equal? n (.dict ⟨1⟩) (.dict ⟨0⟩) = some answer → true = answer := by
  have h : reordered.equal? 2 (.dict ⟨0⟩) (.dict ⟨1⟩) = some true := rfl
  refine ⟨h, fun n answer h' => ?_⟩
  exact equal?_comm (reordered_unambiguous _) (reordered_unambiguous _) h h'

end Store

/-- A dict whose two keys become equal when one of them changes, and a dict that has this key and
another one. -/
def movedKey : List Stmt :=
  [.declare false .list "key" (some (.list [] {})) {},
    .declare false .dict "a" (some (.dict
      [(.list [.boolean true {}] {}, .string "here" {}),
        (.name "key" {}, .string "here" {})] {})) {},
    .eval (.call (.field (.name "key" {}) "append" {}) [.boolean true {}] {}) {},
    .declare false .dict "b" (some (.dict
      [(.list [.boolean true {}] {}, .string "here" {}), (.list [] {}, .string "here" {})] {})) {}]

/-- A program can build two dicts that are equal from the left and different from the right. -/
theorem equal?_movedKey :
    ∃ m : Machine, m.Reachable ∧ m.store.equal? 5 (.dict ⟨0⟩) (.dict ⟨1⟩) = some true ∧
      m.store.equal? 5 (.dict ⟨1⟩) (.dict ⟨0⟩) = some false := by
  refine ⟨_, .program (.start 200 [] .never) 10 movedKey, ?_, ?_⟩
  · with_unfolding_all rfl
  · with_unfolding_all rfl

end Chalk
