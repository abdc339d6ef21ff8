import Chalk.Proofs.Containment
import Mathlib.Data.List.Forall2

/-!
# The text of a value and its unfolding

Seen from a value, a store is a tree: below a list stand its elements, and below a dict its keys and
values. A list that is shared stands there more than once, and one that contains itself has no end.
The text of a value is the text of this tree, cut off where it comes back to a list or dict that is
open, which is one that has been entered on the way from the root.

The tree that is printed is said by its places, and not by how it is made: whatever it shows at a
place is what the value has there, and a list or dict is shown as a mark if and only if it is open
at this place. There is one such tree for every value, since the way to a place cannot enter more
lists and dicts than the store has without coming back.

Printing keeps the open lists and dicts in one sequence that it passes on from part to part. It
gives back the sequence that it was given, so that a list is open below itself only, and one that is
shared is printed as often as it occurs.

## Main definitions

* `Store.parts`, `follow?` — the parts of a value, and what stands at a place
* `Tree` — what a printed value looks like
* `Store.OpenAt` — the lists and dicts that are open at a place
* `Store.Unfolds` — the tree that shows a value

## Main results

* `Store.exists_unfolds` — there is one tree for every value
* `Store.print?_of_unfolds` — printing a value prints this tree
* `Store.render_eq_unfolding` — the text of a value, with what is marked in it
-/

namespace Chalk

/-! ## Places -/

section Places

variable {α : Type} {parts : α → List α}

/-- What stands at a place: it is found by going from part to part, by their positions. -/
def follow? (parts : α → List α) : α → List Nat → Option α
  | a, [] => some a
  | a, i :: place => (parts a)[i]?.bind fun part => follow? parts part place

theorem follow?_cons_of_part {a part : α} {i : Nat} (h : (parts a)[i]? = some part)
    (place : List Nat) : follow? parts a (i :: place) = follow? parts part place := by
  rw [follow?, h, Option.bind_some]

theorem follow?_append (a : α) (place place' : List Nat) :
    follow? parts a (place ++ place') =
      (follow? parts a place).bind fun b => follow? parts b place' := by
  induction place generalizing a with
  | nil => rfl
  | cons i place ih =>
    rw [List.cons_append, follow?, follow?]
    cases (parts a)[i]? with
    | none => rfl
    | some part => exact ih part

/-- If everything is related to one thing only, then every sequence is related to one sequence
only. -/
theorem exists_forall₂_iff {β : Type} {R : α → β → Prop} {as : List α}
    (h : ∀ a ∈ as, ∃ b, ∀ b', R a b' ↔ b' = b) :
    ∃ bs, ∀ bs', List.Forall₂ R as bs' ↔ bs' = bs := by
  induction as with
  | nil => exact ⟨[], fun bs' => List.forall₂_nil_left_iff⟩
  | cons a as ih =>
    obtain ⟨hfirst, hothers⟩ := List.forall_mem_cons.mp h
    obtain ⟨b, hb⟩ := hfirst
    obtain ⟨bs, hbs⟩ := ih hothers
    refine ⟨b :: bs, fun bs' => ?_⟩
    cases bs' with
    | nil => simp
    | cons b' bs' => rw [List.forall₂_cons, hb, hbs, List.cons.injEq]

end Places

/-! ## Trees -/

/-- What a printed value looks like. -/
inductive Tree where
  /-- A value without parts. -/
  | leaf (text : String)
  /-- A list or dict that is open. -/
  | mark (node : Node)
  /-- A list with its elements, or a dict with its keys and values in turn. -/
  | written (node : Node) (parts : List Tree)

namespace Tree

def parts : Tree → List Tree
  | written _ parts => parts
  | _ => []

/-- Keys and values in turn, put together. -/
def entryTexts : List String → List String
  | key :: value :: texts => (key ++ ": " ++ value) :: entryTexts texts
  | texts => texts

mutual

def text : Tree → String
  | leaf text => text
  | mark (.list _) => "[...]"
  | mark (.dict _) => "\x7b...\x7d"
  | written (.list _) parts => "[" ++ ", ".intercalate (texts parts) ++ "]"
  | written (.dict _) parts => "\x7b" ++ ", ".intercalate (entryTexts (texts parts)) ++ "\x7d"

def texts : List Tree → List String
  | [] => []
  | t :: ts => t.text :: texts ts

end

theorem texts_eq_map (ts : List Tree) : texts ts = ts.map text := by
  induction ts with
  | nil => rfl
  | cons t ts ih => rw [texts, ih, List.map_cons]

theorem forall₂_entryTexts {P : Value → String → Prop} {entries : Entries} {texts : List String}
    (h : List.Forall₂ P (entries.flatMap fun entry => [entry.1, entry.2]) texts) :
    List.Forall₂ (fun entry text => ∃ key value, P entry.1 key ∧ P entry.2 value ∧
      text = key ++ ": " ++ value) entries (entryTexts texts) := by
  induction entries generalizing texts with
  | nil =>
    cases h
    exact .nil
  | cons entry entries ih =>
    obtain ⟨key, rest, hkey, hrest, rfl⟩ := List.forall₂_cons_left_iff.mp h
    obtain ⟨value, others, hvalue, hothers, rfl⟩ := List.forall₂_cons_left_iff.mp hrest
    exact .cons ⟨key, value, hkey, hvalue, rfl⟩ (ih hothers)

end Tree

theorem Node.toValue_injective : Function.Injective Node.toValue := by
  rintro (a | a) (b | b) h <;> cases h <;> rfl

namespace Store

open Relation

variable {s : Store} {opened : List Node} {v w : Value} {node : Node} {t : Tree}

/-! ## The unfolding of a value -/

/-- The parts of a value in order: the elements of a list, or the keys and values of a dict. -/
def parts (s : Store) : Value → List Value
  | .list id => (s.list id).toList
  | .dict id => (s.dict id).flatMap fun entry => [entry.1, entry.2]
  | _ => []

theorem hasPart_of_mem_parts (h : w ∈ s.parts v) : s.HasPart v w := by
  cases v with
  | list id => exact .element (Array.mem_toList_iff.mp h)
  | dict id =>
    obtain ⟨entry, hentry, hmem⟩ := List.mem_flatMap.mp h
    rcases List.mem_cons.mp hmem with rfl | hmem
    · exact .key hentry
    · rw [List.mem_singleton.mp hmem]
      exact .value hentry
  | _ => cases h

/-- What stands below a value is contained in it. -/
theorem contains_of_follow? {place : List Nat} (h : follow? s.parts v place = some w) :
    s.Contains v w := by
  induction place generalizing v with
  | nil =>
    cases h
    exact .refl
  | cons i place ih =>
    obtain ⟨part, hpart, hrest⟩ := Option.bind_eq_some_iff.mp h
    exact .head (hasPart_of_mem_parts (List.mem_of_getElem? hpart)) (ih hrest)

/-- The list or dict is open at a place: it has been open before, or it stands on the way from the
root to the place, and not at the place itself. -/
def OpenAt (s : Store) (opened : List Node) (v : Value) (place : List Nat) (node : Node) : Prop :=
  node ∈ opened ∨ ∃ before i after, place = before ++ i :: after ∧
    follow? s.parts v before = some node.toValue

/-- How a value is shown, by which lists and dicts are open. -/
def Looks (s : Store) (isOpen : Node → Prop) (v : Value) : Tree → Prop
  | .leaf text => s.plain? v = some text
  | .mark node => v = node.toValue ∧ isOpen node
  | .written node ts => v = node.toValue ∧ ¬isOpen node ∧ ts.length = (s.parts v).length

/-- The tree shows a value: at every place it shows what the value has there. -/
def Unfolds (s : Store) (opened : List Node) (v : Value) (t : Tree) : Prop :=
  ∀ place u, follow? Tree.parts t place = some u →
    ∃ w, follow? s.parts v place = some w ∧ s.Looks (s.OpenAt opened v place) w u

/-! ## Trees that show a value -/

theorem plain?_toValue (s : Store) (node : Node) : s.plain? node.toValue = none := by
  cases node <;> rfl

theorem exists_plain_or_node (s : Store) (v : Value) :
    (∃ text, s.plain? v = some text) ∨ ∃ node : Node, v = node.toValue := by
  cases v with
  | list id => exact .inr ⟨.list id, rfl⟩
  | dict id => exact .inr ⟨.dict id, rfl⟩
  | _ => exact .inl ⟨_, rfl⟩

theorem openAt_nil : s.OpenAt opened v [] node ↔ node ∈ opened := by
  refine ⟨fun h => ?_, .inl⟩
  rcases h with hmem | ⟨before, i, after, hplace, -⟩
  · exact hmem
  · simp at hplace

/-- Below a list or dict it is open itself, and apart from that the same as above. -/
theorem openAt_cons {i : Nat} (h : (s.parts node.toValue)[i]? = some w) (place : List Nat) :
    s.OpenAt opened node.toValue (i :: place) = s.OpenAt (node :: opened) w place := by
  funext other
  refine propext ⟨fun hopen => ?_, fun hopen => ?_⟩
  · rcases hopen with hmem | ⟨before, j, after, hplace, hthere⟩
    · exact .inl (List.mem_cons_of_mem _ hmem)
    · cases before with
      | nil =>
        rw [Node.toValue_injective (Option.some.inj hthere)]
        exact .inl List.mem_cons_self
      | cons i' before =>
        obtain ⟨rfl, rfl⟩ := List.cons.inj hplace
        rw [follow?_cons_of_part h] at hthere
        exact .inr ⟨before, j, after, rfl, hthere⟩
  · rcases hopen with hmem | ⟨before, j, after, rfl, hthere⟩
    · rcases List.mem_cons.mp hmem with rfl | hmem
      · exact .inr ⟨[], i, place, rfl, rfl⟩
      · exact .inl hmem
    · exact .inr ⟨i :: before, j, after, rfl, (follow?_cons_of_part h before).trans hthere⟩

/-- At its root, the tree shows the value. -/
theorem Unfolds.looks (h : s.Unfolds opened v t) : s.Looks (s.OpenAt opened v []) v t := by
  obtain ⟨_, hroot, hlooks⟩ := h [] t rfl
  cases hroot
  exact hlooks

/-- A tree without parts shows a value if it does so at its root. -/
theorem unfolds_of_parts_eq_nil (h : t.parts = []) (hlooks : s.Looks (s.OpenAt opened v []) v t) :
    s.Unfolds opened v t := by
  intro place u hu
  cases place with
  | nil =>
    cases hu
    exact ⟨v, rfl, hlooks⟩
  | cons i place =>
    rw [follow?, h] at hu
    cases hu

theorem unfolds_iff_leaf {text : String} (h : s.plain? v = some text) :
    s.Unfolds opened v t ↔ t = .leaf text := by
  have hnode : ∀ node : Node, v ≠ node.toValue := by
    rintro node rfl
    rw [plain?_toValue] at h
    cases h
  refine ⟨fun hunfolds => ?_, fun ht => ht ▸ unfolds_of_parts_eq_nil rfl h⟩
  have hlooks := hunfolds.looks
  cases t with
  | leaf text' => rw [Option.some.inj (hlooks.symm.trans h)]
  | mark node => exact absurd hlooks.1 (hnode node)
  | written node ts => exact absurd hlooks.1 (hnode node)

theorem unfolds_iff_mark (h : node ∈ opened) :
    s.Unfolds opened node.toValue t ↔ t = .mark node := by
  refine ⟨fun hunfolds => ?_,
    fun ht => ht ▸ unfolds_of_parts_eq_nil rfl ⟨rfl, openAt_nil.mpr h⟩⟩
  have hlooks := hunfolds.looks
  cases t with
  | leaf text => exact absurd (hlooks.symm.trans (plain?_toValue s node)) nofun
  | mark other => rw [Node.toValue_injective hlooks.1]
  | written other ts =>
    obtain rfl := Node.toValue_injective hlooks.1
    exact absurd (openAt_nil.mpr h) hlooks.2.1

/-- The tree of a list or dict that is not open: its parts are shown while it is open itself. -/
theorem unfolds_iff_written (h : node ∉ opened) :
    s.Unfolds opened node.toValue t ↔ ∃ ts, t = .written node ts ∧
      List.Forall₂ (s.Unfolds (node :: opened)) (s.parts node.toValue) ts := by
  constructor
  · intro hunfolds
    have hlooks := hunfolds.looks
    cases t with
    | leaf text => exact absurd (hlooks.symm.trans (plain?_toValue s node)) nofun
    | mark other =>
      obtain rfl := Node.toValue_injective hlooks.1
      exact absurd (openAt_nil.mp hlooks.2) h
    | written other ts =>
      obtain rfl := Node.toValue_injective hlooks.1
      refine ⟨ts, rfl, List.forall₂_iff_get.mpr ⟨hlooks.2.2.symm, fun i hi hi' => ?_⟩⟩
      intro place u hu
      have hpart := List.getElem?_eq_getElem hi
      have htree : (Tree.written node ts).parts[i]? = some ts[i] := List.getElem?_eq_getElem hi'
      obtain ⟨w, hw, hshown⟩ := hunfolds (i :: place) u
        ((follow?_cons_of_part htree place).trans hu)
      rw [follow?_cons_of_part hpart] at hw
      rw [openAt_cons hpart] at hshown
      exact ⟨w, hw, hshown⟩
  · rintro ⟨ts, rfl, hparts⟩ place u hu
    cases place with
    | nil =>
      cases hu
      exact ⟨node.toValue, rfl, rfl, fun hopen => h (openAt_nil.mp hopen), hparts.length_eq.symm⟩
    | cons i place =>
      obtain ⟨part, hpart, hu⟩ := Option.bind_eq_some_iff.mp hu
      obtain ⟨hi', rfl⟩ := List.getElem?_eq_some_iff.mp hpart
      have hi : i < (s.parts node.toValue).length := hparts.length_eq ▸ hi'
      have hvalue := List.getElem?_eq_getElem hi
      obtain ⟨w, hw, hshown⟩ := (List.forall₂_iff_get.mp hparts).2 i hi hi' place u hu
      rw [follow?_cons_of_part hvalue, openAt_cons hvalue]
      exact ⟨w, hw, hshown⟩

/-- Fewer lists and dicts are left to be opened below one that has parts. -/
theorem unseen_cons_lt_of_mem_parts (h : node ∉ opened) (hpart : w ∈ s.parts node.toValue) :
    unseen s.nodes (node :: opened) < unseen s.nodes opened := by
  obtain ⟨other, hmem, heq⟩ := (hasPart_of_mem_parts hpart).exists_node
  exact unseen_cons_lt (Node.toValue_injective heq ▸ hmem) h

/-- **Every value is shown by one tree**, whatever is open. -/
theorem exists_unfolds (s : Store) (opened : List Node) (v : Value) :
    ∃ t, ∀ t', s.Unfolds opened v t' ↔ t' = t := by
  -- the induction is on the number of lists and dicts that are not open
  induction hn : unseen s.nodes opened using Nat.strongRecOn generalizing opened v with
  | _ n ih =>
    subst hn
    rcases s.exists_plain_or_node v with ⟨text, htext⟩ | ⟨node, rfl⟩
    · exact ⟨.leaf text, fun t' => unfolds_iff_leaf htext⟩
    · by_cases hopen : node ∈ opened
      · exact ⟨.mark node, fun t' => unfolds_iff_mark hopen⟩
      · obtain ⟨ts, hts⟩ := exists_forall₂_iff fun w hw =>
          ih _ (unseen_cons_lt_of_mem_parts hopen hw) (node :: opened) w rfl
        refine ⟨.written node ts, fun t' => ?_⟩
        rw [unfolds_iff_written hopen]
        constructor
        · rintro ⟨ts', rfl, hts'⟩
          rw [(hts ts').mp hts']
        · rintro rfl
          exact ⟨ts, rfl, (hts ts).mpr rfl⟩

end Store

/-! ## Printing -/

namespace Printer

variable {α : Type} {print? : α → Printer → Option Printer} {opened : List Node} {p : Printer}

/-- The thing is printed as this text while these lists and dicts are open, and they stay open. -/
def Prints (print? : α → Printer → Option Printer) (opened : List Node) (a : α) (text : String) :
    Prop :=
  ∀ p : Printer, p.opened = opened → print? a p = some (p.write text)

theorem write_write (p : Printer) (text text' : String) :
    (p.write text).write text' = p.write (text ++ text') := by
  rw [write, write, write, String.append_assoc]

theorem leave_write_enter (p : Printer) (node : Node) (text : String) :
    ((p.enter node).write text).leave = p.write text := rfl

theorem foldlM_eq_some {items : List α} {texts : List String}
    (h : List.Forall₂ (Prints print? opened) items texts) (hp : p.opened = opened)
    (first : String) :
    items.foldlM (fun p item => print? item (p.write ", ")) (p.write first) =
      some (p.write (", ".intercalate (first :: texts))) := by
  induction h generalizing first with
  | nil => rfl
  | @cons item text items texts hitem _ ih =>
    rw [List.foldlM_cons, hitem ((p.write first).write ", ") hp, write_write, write_write,
      ← String.append_assoc]
    -- both sides put the texts together from the left
    exact ih (first ++ ", " ++ text)

/-- Things that are printed one by one are printed in order. -/
theorem separated?_eq_some {items : List α} {texts : List String}
    (h : List.Forall₂ (Prints print? opened) items texts) (hp : p.opened = opened) :
    separated? print? items p = some (p.write (", ".intercalate texts)) := by
  cases h with
  | nil =>
    show some p = some (p.write "")
    rw [write, String.append_empty]
  | @cons item text items texts hitem hitems =>
    rw [separated?, hitem p hp]
    exact foldlM_eq_some hitems hp text

end Printer

namespace Store

open Relation Printer

variable {s : Store} {v : Value} {p : Printer} {t : Tree} {n : Nat}

theorem print?_of_plain {text : String} (h : s.plain? v = some text) (n : Nat) (p : Printer) :
    s.print? n v p = some (p.write text) := by
  cases v with
  | list _ | dict _ => cases h
  | _ => rw [print?, h, Option.map_some] <;> exact nofun

theorem print?_mark {node : Node} (h : node ∈ p.opened) :
    s.print? (n + 1) node.toValue p = some (p.write (Tree.mark node).text) := by
  cases node <;> exact if_pos (List.contains_iff_mem.mpr h)

/-- A list or dict is printed if its parts are, while it is open itself. -/
theorem print?_written {node : Node} {ts : List Tree} (h : node ∉ p.opened)
    (hparts : List.Forall₂ (fun w t => Prints (s.print? n) (node :: p.opened) w t.text)
      (s.parts node.toValue) ts) :
    s.print? (n + 1) node.toValue p = some (p.write (Tree.written node ts).text) := by
  have hnew : p.opened.contains node = false := by
    rwa [List.contains_eq_mem, decide_eq_false_iff_not]
  have htexts : List.Forall₂ (Prints (s.print? n) (node :: p.opened)) (s.parts node.toValue)
      (Tree.texts ts) := by
    rw [Tree.texts_eq_map]
    exact List.forall₂_map_right_iff.mpr hparts
  cases node with
  | list id =>
    have hitems : List.Forall₂ (Prints (s.print? n) (.list id :: p.opened)) (s.list id).toList
        (Tree.texts ts) := htexts
    rw [Node.toValue, print?, hnew, if_neg Bool.false_ne_true, separated?_eq_some hitems rfl,
      Option.bind_eq_bind, Option.bind_some, write_write, leave_write_enter, write_write]
    rfl
  | dict id =>
    have hentries : List.Forall₂ (Prints (pair? (s.print? n)) (.dict id :: p.opened)) (s.dict id)
        (Tree.entryTexts (Tree.texts ts)) := by
      refine (Tree.forall₂_entryTexts htexts).imp ?_
      rintro entry _ ⟨key, value, hkey, hvalue, rfl⟩ q hq
      rw [pair?, hkey q hq, Option.bind_eq_bind, Option.bind_some,
        hvalue ((q.write key).write ": ") hq, write_write, write_write, String.append_assoc]
    rw [Node.toValue, print?, hnew, if_neg Bool.false_ne_true, separated?_eq_some hentries rfl,
      Option.bind_eq_bind, Option.bind_some, write_write, write_write, leave_write_enter]
    rfl

/-- **Printing a value prints the tree that shows it**, if the budget suffices for the lists and
dicts that are not open. -/
theorem print?_of_unfolds (h : s.Unfolds p.opened v t) (hn : unseen s.nodes p.opened < n) :
    s.print? n v p = some (p.write t.text) := by
  induction n generalizing p v t with
  | zero => exact absurd hn (Nat.not_lt_zero _)
  | succ n ih =>
    rcases s.exists_plain_or_node v with ⟨text, htext⟩ | ⟨node, rfl⟩
    · obtain rfl := (unfolds_iff_leaf htext).mp h
      exact print?_of_plain htext _ p
    · by_cases hopen : node ∈ p.opened
      · obtain rfl := (unfolds_iff_mark hopen).mp h
        exact print?_mark hopen
      · obtain ⟨ts, rfl, hparts⟩ := (unfolds_iff_written hopen).mp h
        refine print?_written hopen (List.forall₂_iff_get.mpr ?_)
        obtain ⟨hlength, hget⟩ := List.forall₂_iff_get.mp hparts
        refine ⟨hlength, fun i hi hi' q hq => ih (hq ▸ hget i hi hi') ?_⟩
        rw [hq]
        exact Nat.lt_of_lt_of_le (unseen_cons_lt_of_mem_parts hopen (List.get_mem _ ⟨i, hi⟩))
          (Nat.le_of_lt_succ hn)

/-- If nothing is open at the root, then a mark stands below its list or dict. -/
theorem Unfolds.transGen_of_mark (h : s.Unfolds [] v t) {place : List Nat} {node : Node}
    (hmark : follow? Tree.parts t place = some (.mark node)) :
    TransGen s.HasPart node.toValue node.toValue := by
  obtain ⟨w, hw, rfl, hmem | ⟨before, i, after, rfl, hthere⟩⟩ := h place _ hmark
  · cases hmem
  · rw [follow?_append, hthere, Option.bind_some] at hw
    obtain ⟨part, hpart, hrest⟩ := Option.bind_eq_some_iff.mp hw
    exact .head' (hasPart_of_mem_parts (List.mem_of_getElem? hpart)) (contains_of_follow? hrest)

/-- **Every value has a text, that of its unfolding.** Whatever is open, one tree shows the value,
in which a list or dict is marked if and only if it is open where it stands. Printing has a result,
it adds the text of this tree, and leaves open what has been open. In the text of a value, only what
contains itself is marked. -/
theorem render_eq_unfolding (s : Store) (v : Value) :
    (∀ p : Printer, ∃ t, (∀ t', s.Unfolds p.opened v t' ↔ t' = t) ∧
      ∀ n, s.nodeCount < n → s.print? n v p = some ⟨p.opened, p.text ++ t.text⟩) ∧
    ∃ t, (∀ t', s.Unfolds [] v t' ↔ t' = t) ∧ s.render v = t.text ∧
      ∀ place node, follow? Tree.parts t place = some (.mark node) →
        TransGen s.HasPart node.toValue node.toValue := by
  refine ⟨fun p => ?_, ?_⟩
  · obtain ⟨t, ht⟩ := s.exists_unfolds p.opened v
    exact ⟨t, ht, fun n hn =>
      print?_of_unfolds ((ht t).mpr rfl) (Nat.lt_of_le_of_lt (s.unseen_nodes_le _) hn)⟩
  · obtain ⟨t, ht⟩ := s.exists_unfolds [] v
    have hunfolds := (ht t).mpr rfl
    refine ⟨t, ht, ?_, fun place node => hunfolds.transGen_of_mark⟩
    rw [render, print?_of_unfolds (p := {}) hunfolds (Nat.lt_succ_of_le (s.unseen_nodes_le _))]
    exact String.empty_append

-- a list that holds another one twice, which holds the first one
example : ({ lists := #[#[.list ⟨1⟩, .list ⟨1⟩], #[.list ⟨0⟩]] } : Store).render (.list ⟨0⟩) =
    "[[[...]], [[...]]]" := by
  decide +kernel

end Store

end Chalk
