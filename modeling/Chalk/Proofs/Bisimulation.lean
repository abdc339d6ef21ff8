import Chalk.Proofs.Containment
import Mathlib.Data.List.Forall2

/-!
# What equality decides

Two values are equal if nothing that can be seen by going into them tells them apart. That is the
greatest relation between values whose related values match: lists by their elements in order, dicts
by an entry of the second for every entry of the first, everything else at once. It is a greatest
relation and no recursion, since lists and dicts can contain themselves.

The comparison takes a pair to be equal while it is being compared and forgets this when the pair is
done. Nothing goes wrong there: if everything about a pair matches under the assumption that the
pair is related, then the pair can be related (`Store.AlikeUpTo.assume`), and the assumption is used
only inside the comparison that made it. A comparison that fails is right for a simpler reason,
because assumptions only help.

Built-in methods are compared by their receivers, from the start. The answer is still a greatest
relation whenever there is one; what such a comparison can fail to do is to end.

## Main definitions

* `Store.Matches` — values that match, given which of their parts are related
* `Store.Bisimilar` — the greatest relation of matching values
* `Store.Alike` — the same, where built-in methods match by their receivers

## Main results

* `Store.AlikeUpTo.assume` — a pair may be assumed while it is compared
* `Store.granted_of_compare?`, `Store.not_alike_of_compare?` — the two answers of a comparison
* `Store.equal?_eq_some_iff_alike` — the answer of every comparison that ends
* `Store.equal?_iff_bisimilar` — values that contain no built-in method
-/

namespace Chalk

namespace Store

open Relation

variable {s : Store}

/-! ## Matching values -/

/-- Two values match, where `R` says which of their parts are related. -/
def Matches (s : Store) (R : Value → Value → Prop) : Value → Value → Prop
  | .null, .null => True
  | .number a, .number b => (a == b) = true
  | .string a, .string b => a = b
  | .boolean a, .boolean b => a = b
  | .list a, .list b => a = b ∨ List.Forall₂ R (s.list a).toList (s.list b).toList
  | .dict a, .dict b =>
    a = b ∨ (s.dict a).length = (s.dict b).length ∧
      ∀ entry ∈ s.dict a, ∃ other ∈ s.dict b, R entry.1 other.1 ∧ R entry.2 other.2
  | .instance a, .instance b => a = b
  | .callable (.builtin _ _), _ => False
  | .callable f, .callable g => f = g
  | _, _ => False

/-- Two built-in methods match if they are the same method and their receivers are related. -/
def MatchesMethod (R : Value → Value → Prop) (v w : Value) : Prop :=
  ∃ r r' method, v = .callable (.builtin r method) ∧ w = .callable (.builtin r' method) ∧
    R r.toValue r'.toValue

/-- Two values match, also as built-in methods. -/
def MatchesAny (s : Store) (R : Value → Value → Prop) (v w : Value) : Prop :=
  s.Matches R v w ∨ MatchesMethod R v w

/-- The values that a comparison goes on to from a value: its parts, or the receiver of a built-in
method. -/
inductive LeadsInto (s : Store) : Value → Value → Prop where
  | part {v u : Value} (h : s.HasPart v u) : LeadsInto s v u
  | receiver (r : Receiver) (method : Method) :
      LeadsInto s (.callable (.builtin r method)) r.toValue

/-- Only how the parts of the first value are related matters. -/
theorem Matches.mono {R R' : Value → Value → Prop} {v w : Value} (h : s.Matches R v w)
    (hR : ∀ x y, s.HasPart v x → R x y → R' x y) : s.Matches R' v w := by
  cases v with
  | list a =>
    cases w with
    | list b =>
      refine h.imp_right fun hall => ?_
      have hparts : ∀ x ∈ (s.list a).toList, s.HasPart (.list a) x :=
        fun x hx => .element (Array.mem_toList_iff.mp hx)
      exact ((List.forall₂_and_left ..).mpr ⟨hparts, hall⟩).imp fun x y hxy => hR x y hxy.1 hxy.2
    | _ => exact h
  | dict a =>
    cases w with
    | dict b =>
      refine h.imp_right fun ⟨hlength, hall⟩ => ⟨hlength, fun entry hentry => ?_⟩
      obtain ⟨other, hother, hkey, hvalue⟩ := hall entry hentry
      exact ⟨other, hother, hR _ _ (.key hentry) hkey, hR _ _ (.value hentry) hvalue⟩
    | _ => exact h
  | callable f => cases f <;> cases w <;> exact h
  | _ => cases w <;> exact h

theorem MatchesAny.mono {R R' : Value → Value → Prop} {v w : Value} (h : s.MatchesAny R v w)
    (hR : ∀ x y, s.LeadsInto v x → R x y → R' x y) : s.MatchesAny R' v w := by
  rcases h with h | ⟨r, r', method, rfl, rfl, h⟩
  · exact .inl (h.mono fun x y hpart => hR x y (.part hpart))
  · exact .inr ⟨r, r', method, rfl, rfl, hR _ _ (.receiver r method) h⟩

/-! ## Greatest relations -/

/-- The greatest relation `R` whose related values satisfy `F R`: what is related by some such
relation. -/
def Greatest (F : (Value → Value → Prop) → Value → Value → Prop) (v w : Value) : Prop :=
  ∃ R : Value → Value → Prop, (∀ x y, R x y → F R x y) ∧ R v w

/-- The greatest relation whose related values match. -/
def Bisimilar (s : Store) : Value → Value → Prop := Greatest s.Matches

/-- The greatest relation whose related values match, also as built-in methods. -/
def Alike (s : Store) : Value → Value → Prop := Greatest s.MatchesAny

/-- The greatest relation whose related values match up to pairs that are assumed to be related. -/
def AlikeUpTo (s : Store) (assumed : Value → Value → Prop) : Value → Value → Prop :=
  Greatest fun R => s.MatchesAny fun x y => R x y ∨ assumed x y

/-- Values of the greatest relation match, with their parts in the greatest relation. -/
theorem Bisimilar.matches {v w : Value} (h : s.Bisimilar v w) : s.Matches s.Bisimilar v w := by
  obtain ⟨R, hR, hvw⟩ := h
  exact (hR v w hvw).mono fun x y _ hxy => ⟨R, hR, hxy⟩

theorem Alike.matches {v w : Value} (h : s.Alike v w) : s.MatchesAny s.Alike v w := by
  obtain ⟨R, hR, hvw⟩ := h
  exact (hR v w hvw).mono fun x y _ hxy => ⟨R, hR, hxy⟩

theorem AlikeUpTo.matches {assumed : Value → Value → Prop} {v w : Value}
    (h : s.AlikeUpTo assumed v w) :
    s.MatchesAny (fun x y => s.AlikeUpTo assumed x y ∨ assumed x y) v w := by
  obtain ⟨R, hR, hvw⟩ := h
  exact (hR v w hvw).mono fun x y _ hxy => hxy.imp_left fun h => ⟨R, hR, h⟩

/-- **A pair may be assumed while it is compared.** If a pair matches up to the assumptions and
itself, then it is alike up to the assumptions. -/
theorem AlikeUpTo.assume {assumed more : Value → Value → Prop} {v w : Value}
    (hmore : ∀ x y, more x y → assumed x y ∨ x = v ∧ y = w)
    (h : s.MatchesAny (fun x y => s.AlikeUpTo more x y ∨ more x y) v w) :
    s.AlikeUpTo assumed v w := by
  have hinto : ∀ x y, s.AlikeUpTo more x y ∨ more x y →
      (s.AlikeUpTo more x y ∨ x = v ∧ y = w) ∨ assumed x y := by
    rintro x y (halike | hxy)
    · exact .inl (.inl halike)
    · exact (hmore x y hxy).symm.imp_left .inr
  refine ⟨fun x y => s.AlikeUpTo more x y ∨ x = v ∧ y = w, ?_, .inr ⟨rfl, rfl⟩⟩
  rintro x y (halike | ⟨rfl, rfl⟩)
  · exact halike.matches.mono fun x y _ => hinto x y
  · exact h.mono fun x y _ => hinto x y

/-- What matches whatever its parts are is alike. -/
theorem AlikeUpTo.of_matches {assumed : Value → Value → Prop} {v w : Value}
    (h : ∀ R, s.MatchesAny R v w) : s.AlikeUpTo assumed v w :=
  .assume (fun _ _ => .inl) (h _)

theorem Alike.of_upTo {assumed : Value → Value → Prop} {v w : Value}
    (h : s.AlikeUpTo assumed v w) (hnone : ∀ x y, ¬assumed x y) : s.Alike v w := by
  obtain ⟨R, hR, hvw⟩ := h
  exact ⟨R, fun x y hxy => (hR x y hxy).mono fun x y _ h => h.resolve_right (hnone x y), hvw⟩

theorem Alike.upTo {v w : Value} (h : s.Alike v w) (assumed : Value → Value → Prop) :
    s.AlikeUpTo assumed v w := by
  obtain ⟨R, hR, hvw⟩ := h
  exact ⟨R, fun x y hxy => (hR x y hxy).mono fun x y _ h => .inl h, hvw⟩

end Store

/-! ## The answers of partial tests -/

section Tests

variable {α : Type} {test : α → Option Bool} {xs : List α}

theorem of_allWhile_true (h : allWhile test xs = some true) : ∀ x ∈ xs, test x = some true := by
  induction xs with
  | nil => exact fun x hx => absurd hx List.not_mem_nil
  | cons x xs ih =>
    rcases allWhile_cons_eq_some.mp h with ⟨-, hfalse⟩ | ⟨hx, hxs⟩
    · cases hfalse
    · exact List.forall_mem_cons.mpr ⟨hx, ih hxs⟩

theorem of_allWhile_false (h : allWhile test xs = some false) : ∃ x ∈ xs, test x = some false := by
  induction xs with
  | nil => cases h
  | cons x xs ih =>
    rcases allWhile_cons_eq_some.mp h with ⟨hx, -⟩ | ⟨-, hxs⟩
    · exact ⟨x, List.mem_cons_self, hx⟩
    · obtain ⟨y, hy, htest⟩ := ih hxs
      exact ⟨y, List.mem_cons_of_mem _ hy, htest⟩

theorem of_anyWhile_true (h : anyWhile test xs = some true) : ∃ x ∈ xs, test x = some true := by
  induction xs with
  | nil => cases h
  | cons x xs ih =>
    rcases anyWhile_cons_eq_some.mp h with ⟨hx, -⟩ | ⟨-, hxs⟩
    · exact ⟨x, List.mem_cons_self, hx⟩
    · obtain ⟨y, hy, htest⟩ := ih hxs
      exact ⟨y, List.mem_cons_of_mem _ hy, htest⟩

theorem of_anyWhile_false (h : anyWhile test xs = some false) : ∀ x ∈ xs, test x = some false := by
  induction xs with
  | nil => exact fun x hx => absurd hx List.not_mem_nil
  | cons x xs ih =>
    rcases anyWhile_cons_eq_some.mp h with ⟨-, htrue⟩ | ⟨hx, hxs⟩
    · cases htrue
    · exact List.forall_mem_cons.mpr ⟨hx, ih hxs⟩

end Tests

namespace Store

variable {s : Store}

/-! ## The answers of comparisons -/

/-- Two values that are neither two lists, two dicts nor two built-in methods are compared at once,
by whether they match. -/
theorem shape_matches (s : Store) (left right : Value) :
    (∃ a b, left = .list a ∧ right = .list b) ∨ (∃ a b, left = .dict a ∧ right = .dict b) ∨
      (∃ r r' method method', left = .callable (.builtin r method) ∧
        right = .callable (.builtin r' method')) ∨
      ∃ answer, (∀ fuel active, s.equalIn? (fuel + 1) active left right = some answer) ∧
        ∀ R, answer = true ↔ s.MatchesAny R left right := by
  rcases left with _ | _ | _ | _ | a | a | _ | (_ | _ | _ | _ | ⟨r, method⟩) <;>
  rcases right with _ | _ | _ | _ | b | b | _ | (_ | _ | _ | _ | ⟨r', method'⟩) <;>
  first
  | exact .inl ⟨a, b, rfl, rfl⟩
  | exact .inr (.inl ⟨a, b, rfl, rfl⟩)
  | exact .inr (.inr (.inl ⟨r, r', method, method', rfl, rfl⟩))
  | exact .inr (.inr (.inr ⟨_, fun _ _ => rfl, fun R => by
      simp [MatchesAny, Matches, MatchesMethod]⟩))

/-- The pairs that a comparison takes to be equal. -/
def Assumed (active : List (Node × Node)) (v w : Value) : Prop :=
  ∃ pair ∈ active, v = pair.1.toValue ∧ w = pair.2.toValue

/-- Values that are taken to be equal or alike up to that. -/
def Granted (s : Store) (active : List (Node × Node)) (v w : Value) : Prop :=
  s.AlikeUpTo (Assumed active) v w ∨ Assumed active v w

/-- A pair of lists or dicts that matches while it is assumed is alike. -/
theorem Granted.of_matches {active : List (Node × Node)} (pair : Node × Node)
    (h : s.MatchesAny (s.Granted (pair :: active)) pair.1.toValue pair.2.toValue) :
    s.Granted active pair.1.toValue pair.2.toValue := by
  refine .inl (.assume (fun x y hxy => ?_) h)
  obtain ⟨other, hother, rfl, rfl⟩ := hxy
  rcases List.mem_cons.mp hother with rfl | hmem
  · exact .inr ⟨rfl, rfl⟩
  · exact .inl ⟨other, hmem, rfl, rfl⟩

/-- One and the same list or dict, or a pair that is taken to be equal. -/
theorem Granted.of_known {active : List (Node × Node)} {x y : Node} (h : x = y ∨ (x, y) ∈ active) :
    s.Granted active x.toValue y.toValue := by
  rcases h with rfl | hmem
  · cases x with
    | list | dict => exact .inl (.of_matches fun R => .inl (.inl rfl))
  · exact .inr ⟨_, hmem, rfl, rfl⟩

theorem Granted.alike {v w : Value} (h : s.Granted [] v w) : s.Alike v w := by
  have hnone : ∀ x y, ¬Assumed [] x y := fun x y ⟨_, hmem, _⟩ => absurd hmem List.not_mem_nil
  exact .of_upTo (h.resolve_right (hnone v w)) hnone

/-- **What compares as equal is alike**, up to the pairs that are being compared. The induction is
on the budget: a part is compared with one unit less and one assumption more. -/
theorem granted_of_compare? {n : Nat} {c : Comparison} (h : s.compare? n c = some true) :
    s.Granted c.active c.left c.right := by
  induction n generalizing c with
  | zero => cases h
  | succ n ih =>
    obtain ⟨active, left, right⟩ := c
    rw [compare?] at h
    rcases s.shape_matches left right with ⟨a, b, rfl, rfl⟩ | ⟨a, b, rfl, rfl⟩ |
      ⟨r, r', method, method', rfl, rfl⟩ | ⟨answer, hanswer, hmatches⟩
    · rw [equalIn?_list] at h
      split at h
      · rename_i hknown
        exact Granted.of_known (hknown.imp_left (congrArg Node.list))
      · split at h
        · rename_i hsize
          refine Granted.of_matches (.list a, .list b) (.inl (.inr ?_))
          refine List.forall₂_iff_zip.mpr ⟨by simpa using hsize, fun {x y} hmem => ?_⟩
          exact ih (c := ⟨_, x, y⟩) (of_allWhile_true h (x, y) hmem)
        · cases h
    · rw [equalIn?_dict] at h
      split at h
      · rename_i hknown
        exact Granted.of_known (hknown.imp_left (congrArg Node.dict))
      · split at h
        · rename_i hlength
          refine Granted.of_matches (.dict a, .dict b) (.inl (.inr ⟨hlength, ?_⟩))
          intro entry hentry
          obtain ⟨other, hother, hagree⟩ := of_anyWhile_true (of_allWhile_true h entry hentry)
          rcases bothWhile_eq_some.mp hagree with ⟨-, hfalse⟩ | ⟨hkey, hvalue⟩
          · cases hfalse
          · exact ⟨other, hother, ih (c := ⟨_, _, _⟩) hkey, ih (c := ⟨_, _, _⟩) hvalue⟩
        · cases h
    · rw [equalIn?_builtin] at h
      split at h
      · rename_i hmethod
        subst hmethod
        -- receivers are compared without assumptions, so what is known of them holds under any
        have hreceivers : s.Alike r.toValue r'.toValue := (ih h).alike
        refine .inl (.assume (fun _ _ => .inl) (.inr ⟨r, r', method, rfl, rfl, .inl ?_⟩))
        exact hreceivers.upTo (Assumed active)
      · cases h
    · rw [hanswer] at h
      cases h
      exact .inl (.of_matches fun R => (hmatches R).mp rfl)

/-- **What compares as different is not alike**, whatever was assumed. -/
theorem not_alike_of_compare? {n : Nat} {c : Comparison} (h : s.compare? n c = some false) :
    ¬s.Alike c.left c.right := by
  induction n generalizing c with
  | zero => cases h
  | succ n ih =>
    obtain ⟨active, left, right⟩ := c
    rw [compare?] at h
    intro halike
    have hmatch := halike.matches
    rcases s.shape_matches left right with ⟨a, b, rfl, rfl⟩ | ⟨a, b, rfl, rfl⟩ |
      ⟨r, r', method, method', rfl, rfl⟩ | ⟨answer, hanswer, hmatches⟩
    · rw [equalIn?_list] at h
      split at h
      · cases h
      · rename_i hnew
        rcases hmatch with (heq | hall) | ⟨_, _, _, hbuiltin, _⟩
        · exact hnew (.inl heq)
        · split at h
          · obtain ⟨⟨x, y⟩, hmem, hdiffer⟩ := of_allWhile_false h
            exact ih (c := ⟨_, x, y⟩) hdiffer ((List.forall₂_iff_zip.mp hall).2 hmem)
          · rename_i hsize
            exact hsize (by simpa using hall.length_eq)
        · cases hbuiltin
    · rw [equalIn?_dict] at h
      split at h
      · cases h
      · rename_i hnew
        rcases hmatch with (heq | ⟨hlength, hall⟩) | ⟨_, _, _, hbuiltin, _⟩
        · exact hnew (.inl heq)
        · rw [if_pos hlength] at h
          obtain ⟨entry, hentry, hmissing⟩ := of_allWhile_false h
          obtain ⟨other, hother, hkey, hvalue⟩ := hall entry hentry
          rcases bothWhile_eq_some.mp (of_anyWhile_false hmissing other hother) with
            ⟨hdiffer, -⟩ | ⟨-, hdiffer⟩
          · exact ih (c := ⟨_, _, _⟩) hdiffer hkey
          · exact ih (c := ⟨_, _, _⟩) hdiffer hvalue
        · cases hbuiltin
    · rw [equalIn?_builtin] at h
      rcases hmatch with hmatch | ⟨_, _, _, hleft, hright, hreceivers⟩
      · exact hmatch
      · cases hleft
        cases hright
        rw [if_pos rfl] at h
        exact ih h hreceivers
    · rw [hanswer] at h
      cases h
      exact absurd ((hmatches _).mpr hmatch) Bool.false_ne_true

/-- **A comparison that ends says whether two values are alike.** -/
theorem equal?_eq_some_iff_alike {n : Nat} {v w : Value} {answer : Bool}
    (h : s.equal? n v w = some answer) : answer = true ↔ s.Alike v w := by
  cases answer with
  | true => exact iff_of_true rfl (granted_of_compare? (c := ⟨[], v, w⟩) h).alike
  | false => exact iff_of_false Bool.false_ne_true (not_alike_of_compare? (c := ⟨[], v, w⟩) h)

/-! ## Values without built-in methods -/

/-- The value contains no built-in method. -/
def Methodless (s : Store) (v : Value) : Prop := ∀ u, s.Contains v u → ¬u.IsMethod

theorem Methodless.not_isMethod {v : Value} (h : s.Methodless v) : ¬v.IsMethod := h v .refl

theorem Methodless.part {v u : Value} (h : s.Methodless v) (hpart : s.HasPart v u) :
    s.Methodless u :=
  fun x hx => h x (.head hpart hx)

theorem MethodFree.methodless (hs : s.MethodFree) {v : Value} (hv : ¬v.IsMethod) :
    s.Methodless v := by
  intro u hu
  induction hu with
  | refl => exact hv
  | tail _ hpart _ =>
    cases hpart with
    | element hmem => exact hs.elements _ _ hmem
    | key hmem => exact (hs.entries _ _ hmem).1
    | value hmem => exact (hs.entries _ _ hmem).2

/-- A comparison goes on with a part of its first value, unless that is a built-in method. -/
theorem hasPart_of_asks {c d : Comparison} (h : s.Asks c d) (hc : ¬c.left.IsMethod) :
    s.HasPart c.left d.left := by
  cases h with
  | @element active a b before rest pair hnew hsize hpairs hbefore =>
    have hmem : pair ∈ (s.list a).toList.zip (s.list b).toList := by
      rw [hpairs]
      exact List.mem_append_right _ List.mem_cons_self
    exact .element (Array.mem_toList_iff.mp (List.of_mem_zip hmem).1)
  | key _ _ hcomes => exact .key hcomes.mem
  | value _ _ hcomes => exact .value hcomes.mem
  | receiver => exact absurd trivial hc

theorem Methodless.of_leadsTo {c d : Comparison} (hc : s.Methodless c.left)
    (h : s.LeadsTo c d) : s.Methodless d.left := by
  rcases h with rfl | htrans
  · exact hc
  · induction htrans with
    | single hasks => exact hc.part (hasPart_of_asks hasks hc.not_isMethod)
    | tail _ hasks ih => exact ih.part (hasPart_of_asks hasks ih.not_isMethod)

/-- No receivers come to be compared, so only new pairs of lists and dicts do. -/
theorem Methodless.ends {v : Value} (hv : s.Methodless v) (w : Value) : s.Ends ⟨[], v, w⟩ := by
  refine ends_of_restarts fun d r r' hd hasks => ?_
  have hleft : s.Methodless d.left := hv.of_leadsTo (c := ⟨[], v, w⟩) hd
  exact absurd rfl (active_ne_nil_of_asks hasks hleft.not_isMethod)

/-- Built-in methods aside, the two greatest relations are the same. -/
theorem Methodless.alike_iff_bisimilar {v w : Value} (hv : s.Methodless v) :
    s.Alike v w ↔ s.Bisimilar v w := by
  constructor
  · intro h
    refine ⟨fun x y => s.Alike x y ∧ s.Methodless x, ?_, h, hv⟩
    rintro x y ⟨halike, hx⟩
    rcases halike.matches with hmatches | ⟨_, _, _, rfl, _⟩
    · exact hmatches.mono fun a b hpart hab => ⟨hab, hx.part hpart⟩
    · exact absurd trivial hx.not_isMethod
  · rintro ⟨R, hR, hvw⟩
    exact ⟨R, fun x y hxy => .inl (hR x y hxy), hvw⟩

/-- **Equality is the greatest bisimulation.** The comparison of two values that contain no built-in
method ends, whatever contains itself, and says whether the greatest relation of matching values
relates them. -/
theorem equal?_iff_bisimilar {v : Value} (hv : s.Methodless v) (w : Value) :
    ∃ answer fuel, (∀ n, fuel ≤ n → s.equal? n v w = some answer) ∧
      (answer = true ↔ s.Bisimilar v w) := by
  obtain ⟨answer, fuel, hanswer⟩ := (hv.ends w).eventually
  refine ⟨answer, fuel, hanswer, ?_⟩
  rw [← hv.alike_iff_bisimilar]
  exact equal?_eq_some_iff_alike (hanswer fuel (Nat.le_refl fuel))

/-- Two lists that contain each other, and a list that contains itself. -/
def rings : Store where
  lists := #[#[.list ⟨1⟩], #[.list ⟨0⟩], #[.list ⟨2⟩]]

theorem rings_methodFree : rings.MethodFree where
  elements := by
    rintro ⟨_ | _ | _ | n⟩ v hv <;> simp_all [rings, list, Value.IsMethod]
  entries := by
    intro id entry hentry
    cases hentry

theorem bisimilar_rings :
    rings.Methodless (.list ⟨0⟩) ∧ rings.Bisimilar (.list ⟨0⟩) (.list ⟨2⟩) := by
  have hv : rings.Methodless (.list ⟨0⟩) := rings_methodFree.methodless id
  obtain ⟨answer, fuel, hanswer, hiff⟩ := equal?_iff_bisimilar hv (.list ⟨2⟩)
  have htrue : rings.equal? (fuel + 3) (.list ⟨0⟩) (.list ⟨2⟩) = some true := rfl
  rw [hanswer _ (Nat.le_add_right fuel 3)] at htrue
  exact ⟨hv, hiff.mp (Option.some.inj htrue)⟩

end Store

end Chalk
