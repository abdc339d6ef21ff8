import Chalk.Proofs.Comparison
import Mathlib.Logic.Relation

/-!
# What a value contains

A list has its elements as parts, and a dict its keys and values. What is found by going from part
to part is contained in the value, which contains itself; instances and callables have no parts
here, whatever they refer to.

A list is opened while a value is printed exactly if the value contains it. Printing does not open
a list or dict a second time inside itself, and it carries a budget, the number of lists and dicts
of the store. Neither hides anything: a way into the value that comes to the same list twice can be
cut short, and a way that never does is no longer than the budget.

## Main definitions

* `Store.HasPart`, `Store.Contains` — parts, and parts of parts

## Main results

* `Store.opens_iff_contains` — the lists that are opened when a value is printed
-/

namespace Chalk

namespace Store

open Relation

variable {s : Store}

/-- The second value is an element of the first one, or one of its keys and values. -/
inductive HasPart (s : Store) : Value → Value → Prop where
  | element {id : ListId} {v : Value} (h : v ∈ s.list id) : HasPart s (.list id) v
  | key {id : DictId} {entry : Value × Value} (h : entry ∈ s.dict id) :
      HasPart s (.dict id) entry.1
  | value {id : DictId} {entry : Value × Value} (h : entry ∈ s.dict id) :
      HasPart s (.dict id) entry.2

/-- The second value is found by going into lists and dicts, starting at the first one. -/
def Contains (s : Store) : Value → Value → Prop := ReflTransGen s.HasPart

/-- What has parts is a list or a dict of the store. -/
theorem HasPart.exists_node {v u : Value} (h : s.HasPart v u) :
    ∃ node ∈ s.nodes, v = node.toValue := by
  cases h with
  | @element id _ h =>
    exact ⟨.list id, list_mem_nodes (Array.size_pos_of_mem h), rfl⟩
  | @key id _ h | @value id _ h =>
    exact ⟨.dict id, dict_mem_nodes (List.length_pos_of_mem h), rfl⟩

/-! ## Ways that avoid what is open -/

/-- The second value is found from the first one without going into one of the given lists and
dicts. -/
def ContainsPast (s : Store) (opened : List Node) : Value → Value → Prop :=
  ReflTransGen fun v u => s.HasPart v u ∧ ∀ node ∈ opened, v ≠ node.toValue

/-- A way to a value can be cut short at its last visit to a list or dict. -/
theorem ContainsPast.cut {opened : List Node} {v t : Value} (h : s.ContainsPast opened v t)
    (node : Node) :
    s.ContainsPast (node :: opened) v t ∨
      ∃ u, s.HasPart node.toValue u ∧ s.ContainsPast (node :: opened) u t := by
  induction h using ReflTransGen.head_induction_on with
  | refl => exact .inl .refl
  | @head a c hstep _ ih =>
    rcases ih with hpast | hpart
    · by_cases ha : a = node.toValue
      · exact .inr ⟨c, ha ▸ hstep.1, hpast⟩
      · exact .inl (.head ⟨hstep.1, List.forall_mem_cons.mpr ⟨ha, hstep.2⟩⟩ hpast)
    · exact .inr hpart

/-- A way to another value starts at a list or dict that is not open yet, and goes on from one of
its parts without coming back. -/
theorem ContainsPast.exists_part {opened : List Node} {v t : Value}
    (h : s.ContainsPast opened v t) (hne : v ≠ t) :
    ∃ node ∈ s.nodes, v = node.toValue ∧ node ∉ opened ∧
      ∃ u, s.HasPart v u ∧ s.ContainsPast (node :: opened) u t := by
  rcases ReflTransGen.cases_head h with rfl | ⟨c, ⟨hpart, hopened⟩, hrest⟩
  · exact absurd rfl hne
  · obtain ⟨node, hnode, rfl⟩ := hpart.exists_node
    have hnew : node ∉ opened := fun hmem => hopened node hmem rfl
    rcases ContainsPast.cut hrest node with hpast | hcut
    · exact ⟨node, hnode, rfl, hnew, c, hpart, hpast⟩
    · exact ⟨node, hnode, rfl, hnew, hcut⟩

/-! ## What is opened by printing -/

theorem contains_of_opensIn {target : ListId} {fuel : Nat} {opened : List Node} {v : Value}
    (h : s.opensIn target fuel opened v = true) : s.Contains v (.list target) := by
  induction fuel generalizing opened v with
  | zero => cases h
  | succ fuel ih =>
    cases v with
    | list id =>
      simp only [opensIn, Bool.and_eq_true, Bool.or_eq_true, beq_iff_eq, List.any_eq_true] at h
      rcases h with ⟨-, rfl | ⟨u, hu, hopens⟩⟩
      · exact .refl
      · exact .head (.element (Array.mem_toList_iff.mp hu)) (ih hopens)
    | dict id =>
      simp only [opensIn, Bool.and_eq_true, List.any_eq_true, Bool.or_eq_true] at h
      obtain ⟨-, entry, hentry, hkey | hvalue⟩ := h
      · exact .head (.key hentry) (ih hkey)
      · exact .head (.value hentry) (ih hvalue)
    | _ => cases h

/-- Each list or dict on the way is opened once, so a budget for those that are not open yet
suffices. -/
theorem opensIn_of_containsPast {target : ListId} {fuel : Nat} {opened : List Node} {v : Value}
    (h : s.ContainsPast opened v (.list target)) (htarget : .list target ∉ opened)
    (hfuel : unseen s.nodes opened < fuel) : s.opensIn target fuel opened v = true := by
  induction fuel generalizing opened v with
  | zero => exact absurd hfuel (Nat.not_lt_zero _)
  | succ fuel ih =>
    by_cases hv : v = .list target
    · subst hv
      simp [opensIn, htarget]
    · obtain ⟨node, hnode, rfl, hnew, u, hpart, hpast⟩ := h.exists_part hv
      have htarget' : .list target ∉ node :: opened := by
        rintro (_ | ⟨_, hmem⟩)
        · exact hv rfl
        · exact htarget hmem
      have hfuel' : unseen s.nodes (node :: opened) < fuel :=
        Nat.lt_of_lt_of_le (unseen_cons_lt hnode hnew) (Nat.le_of_lt_succ hfuel)
      have hopens := ih hpast htarget' hfuel'
      cases node with
      | list id =>
        cases hpart with
        | element hmem =>
          simp only [Node.toValue, opensIn, Bool.and_eq_true, Bool.not_eq_true', Bool.or_eq_true,
            List.contains_eq_mem, decide_eq_false_iff_not, List.any_eq_true]
          exact ⟨hnew, .inr ⟨u, Array.mem_toList_iff.mpr hmem, hopens⟩⟩
      | dict id =>
        simp only [Node.toValue, opensIn, Bool.and_eq_true, Bool.not_eq_true', Bool.or_eq_true,
          List.contains_eq_mem, decide_eq_false_iff_not, List.any_eq_true]
        cases hpart with
        | key hmem => exact ⟨hnew, _, hmem, .inl hopens⟩
        | value hmem => exact ⟨hnew, _, hmem, .inr hopens⟩

theorem unseen_nodes_le (s : Store) (opened : List Node) : unseen s.nodes opened ≤ s.nodeCount := by
  refine Nat.le_trans List.countP_le_length ?_
  simp [nodes, nodeCount]

/-- **Printing a value opens the lists that it contains**, each of them, and no other. -/
theorem opens_iff_contains (s : Store) (target : ListId) (v : Value) :
    s.opens target v = true ↔ s.Contains v (.list target) := by
  refine ⟨contains_of_opensIn, fun h => ?_⟩
  have hpast : s.ContainsPast [] v (.list target) :=
    ReflTransGen.mono (fun _ _ hpart => ⟨hpart, fun _ hmem => absurd hmem List.not_mem_nil⟩) _ _ h
  exact opensIn_of_containsPast hpast List.not_mem_nil (Nat.lt_succ_of_le (s.unseen_nodes_le []))

end Store

end Chalk
