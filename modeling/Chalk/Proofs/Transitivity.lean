import Mathlib
import Chalk.Proofs.Bisimulation

/-!
# When equality is transitive

Equality of values composes: what is alike to something that is alike to a third value is alike to
that value. The comparisons behind the three answers have little in common. Each goes into other
pairs of lists and dicts, and each stops at other pairs, where it finds one and the same list or a
pair that it has met before. What composes is what they decide, the greatest relation of matching
values.

A list or dict matches itself without a look at its parts, which need not be equal to themselves: a
list that holds NaN is equal to itself and to no copy of itself. So the parts of matching values are
related by one step or by two.

Nothing is asked of the keys of dicts, unlike for symmetry. An entry finds one of the second dict,
and that finds one of the third.

## Main definitions

* `Store.InOneOrTwo` — related by one step or by two

## Main results

* `Store.Alike.trans` — what is alike to something alike to a value is alike to it
* `Store.equal?_trans` — the answers of three comparisons
-/

namespace Chalk

theorem forall₂_comp {α β γ : Type} {R : α → β → Prop} {S : β → γ → Prop} {xs : List α}
    {ys : List β} {zs : List γ} (h : List.Forall₂ R xs ys) (h' : List.Forall₂ S ys zs) :
    List.Forall₂ (fun x z => ∃ y, R x y ∧ S y z) xs zs := by
  induction h generalizing zs with
  | nil =>
    cases h'
    exact .nil
  | cons hxy _ ih =>
    cases h' with
    | cons hyz hrest => exact .cons ⟨_, hxy, hyz⟩ (ih hrest)

namespace Store

variable {s : Store} {v w u : Value}

/-- Two values are related, or both are to a value between them. -/
def InOneOrTwo (R : Value → Value → Prop) (x z : Value) : Prop :=
  R x z ∨ ∃ y, R x y ∧ R y z

/-- A value that is no number, list or dict matches itself only. -/
theorem Matches.eq_or_compound {R : Value → Value → Prop} (h : s.Matches R v w) :
    v = w ∨ (∃ a b, v = .number a ∧ w = .number b) ∨ (∃ a b, v = .list a ∧ w = .list b) ∨
      ∃ a b, v = .dict a ∧ w = .dict b := by
  rcases v with _ | a | _ | _ | a | a | _ | (_ | _ | _ | _ | _) <;>
  rcases w with _ | b | _ | _ | b | b | _ | _ <;>
  first
  | exact False.elim h
  | exact .inr (.inl ⟨a, b, rfl, rfl⟩)
  | exact .inr (.inr (.inl ⟨a, b, rfl, rfl⟩))
  | exact .inr (.inr (.inr ⟨a, b, rfl, rfl⟩))
  | (cases h; exact .inl rfl)

/-- **Matching composes**: the parts of the outer values are related directly, where one of the two
matches is that of a list or dict with itself, or through the parts of the value between them. -/
theorem Matches.trans {R : Value → Value → Prop} (h : s.Matches R v w) (h' : s.Matches R w u) :
    s.Matches (InOneOrTwo R) v u := by
  rcases h.eq_or_compound with rfl | ⟨a, b, rfl, rfl⟩ | ⟨a, b, rfl, rfl⟩ | ⟨a, b, rfl, rfl⟩
  · exact h'.mono fun _ _ _ => .inl
  · cases u with
    | number c => exact BEq.trans h h'
    | _ => exact False.elim h'
  · cases u with
    | list c =>
      obtain rfl | hab := eq_or_ne a b
      · exact h'.mono fun _ _ _ => .inl
      obtain rfl | hbc := eq_or_ne b c
      · exact h.mono fun _ _ _ => .inl
      have hall := forall₂_comp (h.resolve_left hab) (h'.resolve_left hbc)
      exact .inr (hall.imp fun _ _ => .inr)
    | _ => exact False.elim h'
  · cases u with
    | dict c =>
      obtain rfl | hab := eq_or_ne a b
      · exact h'.mono fun _ _ _ => .inl
      obtain rfl | hbc := eq_or_ne b c
      · exact h.mono fun _ _ _ => .inl
      obtain ⟨hlength, hall⟩ := h.resolve_left hab
      obtain ⟨hlength', hall'⟩ := h'.resolve_left hbc
      refine .inr ⟨hlength.trans hlength', fun entry hentry => ?_⟩
      obtain ⟨mid, hmid, hkey, hvalue⟩ := hall entry hentry
      obtain ⟨other, hother, hkey', hvalue'⟩ := hall' mid hmid
      exact ⟨other, hother, .inr ⟨mid.1, hkey, hkey'⟩, .inr ⟨mid.2, hvalue, hvalue'⟩⟩
    | _ => exact False.elim h'

/-- A built-in method matches only as one, and nothing else does. -/
theorem MatchesAny.trans {R : Value → Value → Prop} (h : s.MatchesAny R v w)
    (h' : s.MatchesAny R w u) : s.MatchesAny (InOneOrTwo R) v u := by
  rcases h with h | ⟨r, r', method, rfl, rfl, hreceivers⟩
  · rcases h' with h' | ⟨r, r', method, rfl, rfl, -⟩
    · exact .inl (h.trans h')
    · rcases h.eq_or_compound with rfl | ⟨_, _, -, hw⟩ | ⟨_, _, -, hw⟩ | ⟨_, _, -, hw⟩
      · exact False.elim h
      all_goals cases hw
  · rcases h' with h' | ⟨r₁, r₂, method', hleft, rfl, hreceivers'⟩
    · exact False.elim h'
    · cases hleft
      exact .inr ⟨r, r₂, method, rfl, rfl, .inr ⟨r'.toValue, hreceivers, hreceivers'⟩⟩

/-- **What is alike composes.** -/
theorem Alike.trans (h : s.Alike v w) (h' : s.Alike w u) : s.Alike v u := by
  refine ⟨InOneOrTwo s.Alike, ?_, .inr ⟨w, h, h'⟩⟩
  rintro x z (hxz | ⟨y, hxy, hyz⟩)
  · exact hxz.matches.mono fun _ _ _ => .inl
  · exact hxy.matches.trans hyz.matches

/-- **Equality is transitive.** If a value that contains no built-in method is equal to a second
one, and that is equal to a third, then the comparison of the first and the third ends and says that
they are equal, whatever contains itself, is shared, or is a key twice. -/
theorem equal?_trans {n m : Nat} (hv : s.Methodless v) (h : s.equal? n v w = some true)
    (h' : s.equal? m w u = some true) :
    ∃ fuel, ∀ k, fuel ≤ k → s.equal? k v u = some true := by
  obtain ⟨answer, fuel, hanswer⟩ := (hv.ends u).eventually
  have hvw : s.Alike v w := (equal?_eq_some_iff_alike h).mp rfl
  have hwu : s.Alike w u := (equal?_eq_some_iff_alike h').mp rfl
  have htrue : answer = true :=
    (equal?_eq_some_iff_alike (hanswer fuel (Nat.le_refl fuel))).mpr (hvw.trans hwu)
  exact ⟨fuel, htrue ▸ hanswer⟩

/-- Three lists that go on for ever in the same way, after one, two and three of them, with a dict
in each of two whose keys have become equal. -/
def spirals : Store where
  lists := #[#[.dict ⟨0⟩, .list ⟨0⟩],
    #[.dict ⟨1⟩, .list ⟨2⟩], #[.dict ⟨0⟩, .list ⟨1⟩],
    #[.dict ⟨0⟩, .list ⟨4⟩], #[.dict ⟨1⟩, .list ⟨5⟩], #[.dict ⟨1⟩, .list ⟨3⟩],
    #[.boolean true], #[.boolean true]]
  dicts := #[[(.list ⟨6⟩, .null), (.list ⟨7⟩, .null)], [(.list ⟨7⟩, .null), (.list ⟨6⟩, .null)]]

theorem spirals_methodFree : spirals.MethodFree where
  elements := by
    rintro ⟨_ | _ | _ | _ | _ | _ | _ | _ | n⟩ v hv <;> simp [spirals, list] at hv
    all_goals rcases hv with rfl | rfl <;> exact id
  entries := by
    rintro ⟨_ | _ | n⟩ entry hentry <;> simp [spirals, dict] at hentry
    all_goals rcases hentry with rfl | rfl <;> exact ⟨id, id⟩

theorem equal?_trans_spirals :
    spirals.equal? 9 (.list ⟨0⟩) (.list ⟨1⟩) = some true ∧
      spirals.equal? 9 (.list ⟨1⟩) (.list ⟨3⟩) = some true ∧
      ∃ fuel, ∀ k, fuel ≤ k → spirals.equal? k (.list ⟨0⟩) (.list ⟨3⟩) = some true :=
  ⟨rfl, rfl, equal?_trans (spirals_methodFree.methodless id) (w := .list ⟨1⟩) (n := 9) (m := 9)
    rfl rfl⟩

end Store

end Chalk
