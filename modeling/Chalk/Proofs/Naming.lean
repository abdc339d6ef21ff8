import Chalk.Proofs.Acceptance
import Chalk.Proofs.Fragment
import Chalk.Proofs.Scanning

/-!
# The names in a program

Every name that a program declares or assigns to stands in its source as a name, and a reserved word
is not a name. So a program that is read from a source does not declare `this`, neither as a
variable nor as a parameter, a function or a class, and does not assign to it.

## Main definitions

* `Fragment.unreserved` — the programs that leave `this` alone

## Main results

* `Stmt.WrittenBlock.within` — the names of a program are among those that it is written with
* `StandsAt.within` — the blocks around a place of a program
* `within_of_parse` — programs that are read from a source
-/

namespace Chalk

/-! ## Names of a program and names of its source -/

variable {F : Fragment} {ks : List Kind}

/-- All names among the kinds belong to the fragment. -/
def Kind.Admitted (F : Fragment) (ks : List Kind) : Prop :=
  ∀ id, Kind.identifier id ∈ ks → F.names id = true

namespace Kind.Admitted

variable {more : List Kind}

theorem left (h : Kind.Admitted F (ks ++ more)) : Kind.Admitted F ks :=
  fun id hid => h id (List.mem_append_left _ hid)

theorem right (h : Kind.Admitted F (ks ++ more)) : Kind.Admitted F more :=
  fun id hid => h id (List.mem_append_right _ hid)

theorem tail {kind : Kind} (h : Kind.Admitted F (kind :: ks)) : Kind.Admitted F ks :=
  fun id hid => h id (List.mem_cons_of_mem _ hid)

end Kind.Admitted

theorem subset_commas {kss : List (List Kind)} {ks : List Kind} (h : ks ∈ kss) :
    ks ⊆ commas kss := by
  match kss with
  | [item] =>
    cases List.mem_singleton.mp h
    exact List.Subset.refl _
  | item :: next :: items =>
    rcases List.mem_cons.mp h with rfl | hrest
    · exact List.subset_append_left _ _
    · exact fun kind hkind =>
        List.mem_append_right _ (List.mem_cons_of_mem _ (subset_commas hrest hkind))

theorem Expr.Written.identifier_mem {e : Expr} {id : String} {span : Span} {admitted : Nat}
    {ks : List Kind} (h : e.Written admitted ks) (he : e = .name id span) :
    Kind.identifier id ∈ ks := by
  match h with
  | .extra inside =>
    exact List.mem_append_left _ (List.mem_cons_of_mem _ (inside.identifier_mem he))
  | .name .. =>
    cases he
    exact List.mem_singleton_self _
  | .number .. | .string .. | .boolean .. | .receiver .. | .list .. | .dict .. | .binary ..
  | .logical .. | .unary .. | .call .. | .field .. | .index .. => cases he

theorem Stmt.WrittenClause.within {s : Stmt} {ks : List Kind} (h : s.WrittenClause ks)
    (hks : Kind.Admitted F ks) : s.within F = true := by
  cases h with
  | declare constant _ name span => exact hks name (by simp)
  | declareAs constant _ name _ span => exact hks name (by simp)
  | @assign target _ _ _ writtenTarget _ span =>
    cases target with
    | name id span => exact hks id (List.mem_append_left _ (writtenTarget.identifier_mem rfl))
    | _ => rfl
  | eval => rfl

theorem Stmt.withinOption_of_written {s : Option Stmt} {ks : List Kind}
    (h : WrittenOption Stmt.WrittenClause s ks) (hks : Kind.Admitted F ks) :
    Stmt.withinOption F s = true := by
  cases h with
  | none => rfl
  | some h => exact h.within hks

mutual

theorem Stmt.Written.within (hloops : F.loops = true) {s : Stmt} {ks : List Kind}
    (h : s.Written ks) (hks : Kind.Admitted F ks) : s.within F = true := by
  match h with
  | .clause written => exact written.within hks.left
  | .print .. | .breakLoop _ | .skip _ | .giveBack .. => rfl
  | .branch _ body elifs otherwise _ =>
    simp only [Stmt.within, Bool.and_eq_true]
    exact ⟨⟨body.within hloops hks.left.left.left.right.tail,
      elifs.within hloops hks.left.left.right⟩, otherwise.within hloops hks.left.right⟩
  | .whileLoop _ body _ =>
    simp only [Stmt.within, Bool.and_eq_true]
    exact ⟨hloops, body.within hloops hks.left.right.tail⟩
  | .forLoop init _ increment body _ =>
    simp only [Stmt.within, Bool.and_eq_true]
    exact ⟨⟨⟨hloops, Stmt.withinOption_of_written init hks.left.left.left.left.left.right⟩,
      Stmt.withinOption_of_written increment hks.left.left.left.right.tail⟩,
      body.within hloops hks.left.right⟩
  | .function written _ =>
    simp only [Stmt.within, Bool.and_eq_true]
    exact written.within hloops hks
  | .classDef written _ =>
    simp only [Stmt.within, Bool.and_eq_true]
    exact written.within hloops hks

/-- **The names of a program are among those that it is written with.** -/
theorem Stmt.WrittenBlock.within (hloops : F.loops = true) {body : List Stmt} {ks : List Kind}
    (h : Stmt.WrittenBlock body ks) (hks : Kind.Admitted F ks) :
    Stmt.withinSeq F body = true := by
  match h with
  | .nil => rfl
  | .cons first others =>
    simp only [Stmt.withinSeq, Bool.and_eq_true]
    exact ⟨first.within hloops hks.left, others.within hloops hks.right⟩

theorem Stmt.WrittenElifs.within (hloops : F.loops = true) {elifs : List (BranchOf Stmt)}
    {ks : List Kind} (h : Stmt.WrittenElifs elifs ks) (hks : Kind.Admitted F ks) :
    Stmt.withinElifs F elifs = true := by
  match h with
  | .nil => rfl
  | .cons _ body others =>
    simp only [Stmt.withinElifs, Bool.and_eq_true]
    exact ⟨body.within hloops hks.left.right.tail, others.within hloops hks.right⟩

theorem Stmt.WrittenElse.within (hloops : F.loops = true) {otherwise : Option (List Stmt)}
    {ks : List Kind} (h : Stmt.WrittenElse otherwise ks) (hks : Kind.Admitted F ks) :
    Stmt.withinElse F otherwise = true := by
  match h with
  | .none => rfl
  | .some body => exact body.within hloops hks.tail

theorem Stmt.WrittenFunc.within (hloops : F.loops = true) {decl : FuncOf Stmt} {ks : List Kind}
    (h : Stmt.WrittenFunc decl ks) (hks : Kind.Admitted F ks) :
    F.names decl.name = true ∧ Stmt.withinFunc F decl = true := by
  match h with
  | .mk name _ _ body _ =>
    simp only [Stmt.withinFunc, Bool.and_eq_true, List.all_eq_true]
    refine ⟨hks name (by simp), fun param hparam => ?_, body.within hloops hks.left.right⟩
    have hkinds : param.kinds ⊆ commas _ := subset_commas (List.mem_map_of_mem hparam)
    exact hks.left.left.left.right param.name (hkinds (by simp [Slot.kinds]))

theorem Stmt.WrittenMembers.within (hloops : F.loops = true) {fields : List Slot}
    {methods : List (FuncOf Stmt)} {ks : List Kind} (h : Stmt.WrittenMembers fields methods ks)
    (hks : Kind.Admitted F ks) : Stmt.withinMethods F methods = true := by
  match h with
  | .nil => rfl
  | .field _ others => exact others.within hloops hks.right
  | .method first others =>
    simp only [Stmt.withinMethods, Bool.and_eq_true]
    exact ⟨(first.within hloops hks.left).2, others.within hloops hks.right⟩

theorem Stmt.WrittenClass.within (hloops : F.loops = true) {decl : ClassOf Stmt} {ks : List Kind}
    (h : Stmt.WrittenClass decl ks) (hks : Kind.Admitted F ks) :
    F.names decl.name = true ∧ Stmt.withinClass F decl = true := by
  match h with
  | .mk name _ members _ => exact ⟨hks name (by simp), members.within hloops hks.left.right⟩

end

/-! ## Places in a program -/

theorem Stmt.within_of_mem {body : List Stmt} {s : Stmt} (h : Stmt.withinSeq F body = true)
    (hs : s ∈ body) : s.within F = true := by
  induction body with
  | nil => cases hs
  | cons first rest ih =>
    simp only [Stmt.withinSeq, Bool.and_eq_true] at h
    rcases List.mem_cons.mp hs with rfl | hrest
    · exact h.1
    · exact ih h.2 hrest

theorem Stmt.withinSeq_of_mem_elifs {elifs : List (BranchOf Stmt)}
    (h : Stmt.withinElifs F elifs = true) {body : List Stmt}
    (hbody : body ∈ elifs.map BranchOf.body) : Stmt.withinSeq F body = true := by
  induction elifs with
  | nil => cases hbody
  | cons first rest ih =>
    obtain ⟨condition, inner⟩ := first
    simp only [Stmt.withinElifs, Bool.and_eq_true] at h
    rcases List.mem_cons.mp hbody with rfl | hrest
    · exact h.1
    · exact ih h.2 hrest

theorem Stmt.withinSeq_of_mem_blocks {s : Stmt} (h : s.within F = true) {names : List String}
    {body : List Stmt} (hbody : (names, body) ∈ s.blocks) : Stmt.withinSeq F body = true := by
  cases s with
  | branch condition first elifs otherwise span =>
    simp only [Stmt.within, Bool.and_eq_true] at h
    simp only [Stmt.blocks, List.mem_map, Prod.mk.injEq] at hbody
    obtain ⟨block, hblock, -, rfl⟩ := hbody
    rcases List.mem_append.mp hblock with hfirst | hlast
    · rcases List.mem_cons.mp hfirst with rfl | helif
      · exact h.1.1
      · exact Stmt.withinSeq_of_mem_elifs h.1.2 helif
    · obtain rfl := Option.mem_toList.mp hlast
      exact h.2
  | whileLoop condition inner span =>
    simp only [Stmt.within, Bool.and_eq_true] at h
    cases List.mem_singleton.mp hbody
    exact h.2
  | forLoop init condition increment inner span =>
    simp only [Stmt.within, Bool.and_eq_true] at h
    cases List.mem_singleton.mp hbody
    exact h.2
  | function decl span =>
    simp only [Stmt.within, Stmt.withinFunc_eq, Bool.and_eq_true] at h
    cases List.mem_singleton.mp hbody
    exact h.2.2
  | classDef decl span =>
    simp only [Stmt.within, Bool.and_eq_true] at h
    simp only [Stmt.blocks, List.mem_map, Prod.mk.injEq] at hbody
    obtain ⟨method, hmethod, -, rfl⟩ := hbody
    have hdecl := Stmt.withinFunc_of_mem h.2 hmethod
    rw [Stmt.withinFunc_eq, Bool.and_eq_true] at hdecl
    exact hdecl.2
  | _ => cases hbody

theorem Stmt.within_of_mem_clauses {s : Stmt} (h : s.within F = true) {names : List String}
    {t : Stmt} (ht : (names, t) ∈ s.clauses) : t.within F = true := by
  cases s with
  | forLoop init condition increment inner span =>
    simp only [Stmt.within, Bool.and_eq_true] at h
    simp only [Stmt.clauses, List.mem_append, List.mem_map, Prod.mk.injEq] at ht
    rcases ht with ⟨t, hmem, -, rfl⟩ | ⟨t, hmem, -, rfl⟩
    · obtain rfl := Option.mem_toList.mp hmem
      exact h.1.1.2
    · obtain rfl := Option.mem_toList.mp hmem
      exact h.1.2
  | _ => cases ht

/-- The blocks around a place are in the fragment, and so is what stands there. -/
theorem StandsAt.within {program rest : List Stmt} {p : Place} (h : StandsAt program p rest)
    (hprogram : Stmt.withinSeq F program = true) :
    (∀ block ∈ p.blocks, Stmt.withinSeq F block = true) ∧ Stmt.withinSeq F rest = true := by
  induction h with
  | start => exact ⟨fun block hblock => List.mem_singleton.mp hblock ▸ hprogram, hprogram⟩
  | next _ ih =>
    obtain ⟨hblocks, hrest⟩ := ih
    simp only [Stmt.withinSeq, Bool.and_eq_true] at hrest
    exact ⟨hblocks, hrest.2⟩
  | block _ hbody ih =>
    obtain ⟨hblocks, hrest⟩ := ih
    simp only [Stmt.withinSeq, Bool.and_eq_true] at hrest
    have hinner := Stmt.withinSeq_of_mem_blocks hrest.1 hbody
    exact ⟨List.forall_mem_cons.mpr ⟨hinner, hblocks⟩, hinner⟩
  | @clause _ _ t _ _ _ ht ih =>
    obtain ⟨hblocks, hrest⟩ := ih
    simp only [Stmt.withinSeq, Bool.and_eq_true] at hrest
    have hclause : Stmt.withinSeq F [t] = true := by
      simp only [Stmt.withinSeq, Bool.and_true]
      exact Stmt.within_of_mem_clauses hrest.1 ht
    exact ⟨List.forall_mem_cons.mpr ⟨hclause, hblocks⟩, hclause⟩

/-- The functions and classes around a place have names of the fragment. -/
theorem RefersAt.names_of_hoisted {program : List Stmt} {p : Place} {reference : String × Span}
    (h : RefersAt program p reference) (hprogram : Stmt.withinSeq F program = true)
    {name : String} (hname : Hoisted p.blocks name) : F.names name = true := by
  obtain ⟨q, s, rest, hstands, -, rfl⟩ := h
  obtain ⟨block, hblock, d, hd, hname⟩ := hname
  have hdecl := Stmt.within_of_mem ((hstands.within hprogram).1 block hblock) hd
  cases d with
  | function decl span | classDef decl span =>
    simp only [Stmt.within, Bool.and_eq_true] at hdecl
    exact List.mem_singleton.mp hname ▸ hdecl.1
  | _ => cases hname

/-! ## Reserved words -/

/-- The programs that neither declare `this` nor assign to it. -/
def Fragment.unreserved : Fragment := { names := fun name => name != "this" }

theorem Kind.ofWord_ne_this (word : List Char) : Kind.ofWord word ≠ .identifier "this" := by
  intro h
  rw [Kind.ofWord] at h
  split at h
  · cases h
  · rename_i hword
    injection h with hname
    have hthis : word = "this".toList := by rw [← hname, String.toList_ofList]
    rw [hthis] at hword
    exact absurd hword (by decide)

theorem IsLexeme.ne_this {text : List Char} {kind : Kind} (h : IsLexeme text kind) :
    kind ≠ .identifier "this" := by
  cases h with
  | word => exact Kind.ofWord_ne_this _
  | _ => exact nofun

theorem Tokenized.ne_this {before text : List Char} {ts : List Token}
    (h : Tokenized before text ts) : ∀ t ∈ ts, t.kind ≠ .identifier "this" := by
  induction h with
  | stop => simp
  | token _ isLexeme _ ih => exact List.forall_mem_cons.mpr ⟨isLexeme.ne_this, ih⟩

/-- **A program that is read from a source leaves `this` alone.** -/
theorem within_of_parse {source : List Char} {ts : List Token} (hts : tokenize source = .ok ts)
    (h : (parse ts).failure = none) : Stmt.withinSeq .unreserved (parse ts).statements = true := by
  have hlexed := lexed_tokenize source
  rw [hts] at hlexed
  have hwritten : Stmt.WrittenBlock (parse ts).statements (Input.ofTokens ts).kinds :=
    writtenBlock_of_parseStatements (Nat.le_of_eq (List.length_map _)) h
  refine hwritten.within rfl fun id hid => ?_
  obtain ⟨t, ht, hkind⟩ := List.mem_map.mp hid
  have hmem : t ∈ ts := (List.takeWhile_sublist _).subset ht
  simpa [Fragment.unreserved, hkind] using hlexed.ne_this t hmem

end Chalk
