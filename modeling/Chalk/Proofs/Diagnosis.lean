import Chalk.Proofs.Occurrence

/-!
# All violations, each at its place

The violations of a part are its own, if its enclosures do not keep the rule that it is under, and
those of the parts inside it, one after the other (`Part.violations_eq`). So a list of violations is
a list of places in the order of their paths, and which places these are depends on nothing but what
encloses each of them.

## Main definitions

* `Enclosure.enter`, `Context.of` — the context that enclosures give
* `Part.violations` — the violations that are found in a part
* `Located` — violations with their paths

## Main results

* `Rule.keptIn_of_iff` — a context knows what the enclosures tell
* `Part.violations_eq` — violations are found part by part
* `Part.located_violations` — the violations of a part with their paths
* `Part.Edited.violatesAt_iff` — a change at one place shows at no other
* `violations_located` — the violations that are reported are exactly the ones that there are
-/

namespace Chalk

/-! ## Contexts -/

/-- The context inside an enclosure. -/
def Enclosure.enter : Enclosure → Context → Context
  | .block before here after, c =>
    (c.declare ((before ++ here :: after).flatMap Stmt.hoisted)).declare
      (before.reverse.flatMap Stmt.declared)
  | .loopBody, c => c.enterLoop
  | .loop init, c => c.declare ((init.map Stmt.declared).getD [])
  | .function decl, c => c.enterFunction decl.params false
  | .method decl, c => c.enterFunction decl.params true
  | .named name, c => c.declare [name]

/-- The context at a place with the given enclosures. -/
def Context.of (around : List Enclosure) : Context := around.foldr Enclosure.enter .start

/-- Whether a rule is kept in a context. -/
def Rule.keptIn (c : Context) : Rule → Bool
  | .breakOutsideLoop | .skipOutsideLoop => c.inLoop
  | .returnOutsideFunction => c.inFunction
  | .thisOutsideMethod => c.inMethod
  | .undefinedVariable name => c.visible.contains name

theorem Stmt.mem_declared {s : Stmt} {name : String} :
    name ∈ s.declared ↔ name ∈ s.hoisted ∨ s.variable? = some name := by
  cases s <;> simp [Stmt.declared, Stmt.hoisted, Stmt.variable?, eq_comm]

section Kept

variable {e : Enclosure} {around : List Enclosure} {c : Context}

theorem Context.of_cons : Context.of (e :: around) = e.enter (Context.of around) := rfl

theorem Rule.kept_jump_cons :
    (∃ inner outer, e :: around = inner ++ .loopBody :: outer ∧ ∀ x ∈ inner, ¬ x.IsBody) ↔
      e = .loopBody ∨ ¬ e.IsBody ∧
        ∃ inner outer, around = inner ++ .loopBody :: outer ∧ ∀ x ∈ inner, ¬ x.IsBody := by
  constructor
  · rintro ⟨_ | ⟨first, inner⟩, outer, heq, hinner⟩
    · exact .inl (List.cons.inj heq).1
    · obtain ⟨rfl, rfl⟩ := List.cons.inj heq
      obtain ⟨hfirst, hinner⟩ := List.forall_mem_cons.mp hinner
      exact .inr ⟨hfirst, inner, outer, rfl, hinner⟩
  · rintro (rfl | ⟨hfirst, inner, outer, rfl, hinner⟩)
    · exact ⟨[], around, rfl, nofun⟩
    · exact ⟨e :: inner, outer, rfl, List.forall_mem_cons.mpr ⟨hfirst, hinner⟩⟩

theorem Context.inLoop_of : (Context.of around).inLoop = true ↔
    ∃ inner outer, around = inner ++ .loopBody :: outer ∧ ∀ x ∈ inner, ¬ x.IsBody := by
  induction around with
  | nil => simp [Context.of, Context.start]
  | cons e around ih =>
    rw [Rule.kept_jump_cons, ← ih, Context.of_cons]
    cases e <;> simp [Enclosure.enter, Enclosure.IsBody, Context.declare, Context.enterLoop,
      Context.enterFunction]

theorem Context.inFunction_of :
    (Context.of around).inFunction = true ↔ ∃ e ∈ around, e.IsBody := by
  induction around with
  | nil => simp [Context.of, Context.start]
  | cons e around ih =>
    rw [List.exists_mem_cons_iff, ← ih, Context.of_cons]
    cases e <;> simp [Enclosure.enter, Enclosure.IsBody, Context.declare, Context.enterLoop,
      Context.enterFunction]

theorem Context.inMethod_of :
    (Context.of around).inMethod = true ↔ ∃ decl, .method decl ∈ around := by
  induction around with
  | nil => simp [Context.of, Context.start]
  | cons e around ih =>
    simp only [List.mem_cons, exists_or, ← ih, Context.of_cons]
    cases e <;> simp [Enclosure.enter, Context.declare, Context.enterLoop, Context.enterFunction]

/-- Inside an enclosure those names are visible that it declares, besides those outside. -/
theorem Enclosure.mem_visible_enter {name : String} :
    name ∈ (e.enter c).visible ↔ e.Declares name ∨ name ∈ c.visible := by
  cases e with
  | block before here after =>
    have hbefore : (∃ s ∈ before, name ∈ s.declared) ∨
          (∃ s ∈ before ++ here :: after, name ∈ s.hoisted) ↔
        (∃ s ∈ before ++ here :: after, name ∈ s.hoisted) ∨
          ∃ s ∈ before, s.variable? = some name := by
      constructor
      · rintro (⟨s, hs, hname⟩ | hwhole)
        · rcases Stmt.mem_declared.mp hname with hhoisted | hvariable
          · exact .inl ⟨s, List.mem_append_left _ hs, hhoisted⟩
          · exact .inr ⟨s, hs, hvariable⟩
        · exact .inl hwhole
      · rintro (hwhole | ⟨s, hs, hvariable⟩)
        · exact .inr hwhole
        · exact .inl ⟨s, hs, Stmt.mem_declared.mpr (.inr hvariable)⟩
    rw [Enclosure.Declares, ← hbefore, or_assoc]
    simp only [Enclosure.enter, Context.declare]
    rw [List.mem_append, List.mem_append, List.mem_flatMap, List.mem_flatMap]
    simp only [List.mem_reverse]
  | loopBody => simp [Enclosure.enter, Enclosure.Declares, Context.enterLoop]
  | loop init => cases init <;> simp [Enclosure.enter, Enclosure.Declares, Context.declare]
  | named own => simp [Enclosure.enter, Enclosure.Declares, Context.declare, eq_comm]
  | function decl | method decl =>
    simp [Enclosure.enter, Enclosure.Declares, Context.enterFunction]

theorem Context.mem_visible_of {name : String} :
    name ∈ (Context.of around).visible ↔
      name ∈ Native.all.map Native.name ∨ ∃ e ∈ around, e.Declares name := by
  induction around with
  | nil => simp [Context.of, Context.start]
  | cons e around ih =>
    rw [Context.of_cons, Enclosure.mem_visible_enter, ih, List.exists_mem_cons_iff]
    exact or_left_comm

/-- **A context knows what the enclosures tell.** -/
theorem Rule.keptIn_of_iff (rule : Rule) :
    rule.keptIn (Context.of around) = true ↔ rule.Kept around := by
  cases rule with
  | breakOutsideLoop | skipOutsideLoop => exact Context.inLoop_of
  | returnOutsideFunction => exact Context.inFunction_of
  | thisOutsideMethod => exact Context.inMethod_of
  | undefinedVariable name =>
    rw [Rule.keptIn, List.contains_iff_mem]
    exact Context.mem_visible_of

end Kept

/-! ## Violations part by part -/

/-- The violations that are found in a part. -/
def Part.violations (c : Context) : Part → List Violation
  | .program statements =>
    Stmt.violationsSeq (c.declare (statements.flatMap Stmt.hoisted)) statements
  | .stmt s => s.violations c
  | .target t => t.violations c
  | .expr e => e.violations c

/-- The violation that a part is itself. -/
def Part.own (c : Context) (p : Part) : List Violation :=
  (p.rule?.filter fun v => !v.rule.keptIn c).toList

section Parts

variable {c : Context}

/-- The violations in parts that are given with their enclosures. -/
def Part.violationsAll (c : Context) (parts : List (List Enclosure × Part)) : List Violation :=
  parts.flatMap fun part => part.2.violations (part.1.foldr Enclosure.enter c)

theorem Part.violationsAll_append (parts others : List (List Enclosure × Part)) :
    Part.violationsAll c (parts ++ others) =
      Part.violationsAll c parts ++ Part.violationsAll c others :=
  List.flatMap_append

theorem Part.violationsAll_exprs (es : List Expr) :
    Part.violationsAll c (Part.exprs es) = Expr.violationsList c es := by
  induction es with
  | nil => rfl
  | cons e es ih => rw [Expr.violationsList, ← ih]; rfl

theorem Part.violationsAll_entries (entries : List (Expr × Expr)) :
    Part.violationsAll c (Part.exprs (entries.flatMap fun entry => [entry.1, entry.2])) =
      Expr.violationsEntries c entries := by
  rw [Part.violationsAll_exprs]
  induction entries with
  | nil => rfl
  | cons entry entries ih =>
    rw [Expr.violationsEntries, ← ih, List.flatMap_cons, List.append_assoc]
    rfl

theorem Part.violationsAll_blockFrom (outer : List Enclosure) (before after : List Stmt) :
    Part.violationsAll c (Part.blockFrom outer before after) =
      Stmt.violationsSeq (((outer.foldr Enclosure.enter c).declare
        ((before ++ after).flatMap Stmt.hoisted)).declare (before.reverse.flatMap Stmt.declared))
        after := by
  induction after generalizing before with
  | nil => rfl
  | cons s after ih =>
    have hnext := ih (before ++ [s])
    rw [← List.append_cons] at hnext
    rw [Part.blockFrom, ← List.singleton_append, Part.violationsAll_append, hnext]
    simp [Part.violationsAll, Part.violations, Stmt.violationsSeq, Enclosure.enter, Context.declare]

theorem Part.violationsAll_block (outer : List Enclosure) (body : List Stmt) :
    Part.violationsAll c (Part.block outer body) =
      Stmt.violationsSeq ((outer.foldr Enclosure.enter c).declare (body.flatMap Stmt.hoisted))
        body :=
  Part.violationsAll_blockFrom outer [] body

theorem Part.violationsAll_elifs (elifs : List Branch) :
    Part.violationsAll c (elifs.flatMap fun branch =>
      Part.exprs [branch.condition] ++ Part.block [] branch.body) =
      Stmt.violationsElifs c elifs := by
  induction elifs with
  | nil => rfl
  | cons branch rest ih =>
    obtain ⟨condition, body⟩ := branch
    rw [List.flatMap_cons, Part.violationsAll_append, Part.violationsAll_append,
      Part.violationsAll_exprs, Part.violationsAll_block, ih, Stmt.violationsElifs,
      Expr.violationsList, Expr.violationsList, List.append_nil]
    rfl

theorem Part.violationsAll_methods (name : String) (methods : List Func) :
    Part.violationsAll c (methods.flatMap fun method =>
      Part.block [.method method, .named name] method.body) =
      Stmt.violationsMethods (c.declare [name]) methods := by
  induction methods with
  | nil => rfl
  | cons method rest ih =>
    obtain ⟨own, params, returns, body, span⟩ := method
    rw [List.flatMap_cons, Part.violationsAll_append, Part.violationsAll_block, ih,
      Stmt.violationsMethods]
    rfl

theorem Part.own_eq_nil {p : Part} (h : p.rule? = none) : p.own c = [] := by
  rw [Part.own, h]
  rfl

theorem Part.own_eq_require {p : Part} {rule : Rule} {span : Span}
    (h : p.rule? = some ⟨rule, span⟩) :
    p.own c = Context.require (rule.keptIn c) rule span := by
  rw [Part.own, h]
  cases hkept : rule.keptIn c <;> simp [Context.require, hkept]

theorem Context.resolve_eq_require (id : String) (span : Span) :
    c.resolve id span =
      Context.require ((Rule.undefinedVariable id).keptIn c) (.undefinedVariable id) span := rfl

theorem Target.violations_eq (t : Target) :
    t.violations c = (Part.target t).own c ++ Part.violationsAll c (Part.target t).inner := by
  cases t with
  | name id span =>
    rw [Part.own_eq_require rfl, ← Context.resolve_eq_require]
    exact (List.append_nil _).symm
  | index container position =>
    rw [Part.own_eq_nil rfl, Part.inner, Part.violationsAll_exprs]
    simp [Target.violations, Expr.violationsList]
  | field object id =>
    rw [Part.own_eq_nil rfl, Part.inner, Part.violationsAll_exprs]
    simp [Target.violations, Expr.violationsList]

theorem Expr.violations_eq (e : Expr) :
    e.violations c = (Part.expr e).own c ++ Part.violationsAll c (Part.expr e).inner := by
  cases e with
  | name id span =>
    rw [Part.own_eq_require rfl, ← Context.resolve_eq_require]
    exact (List.append_nil _).symm
  | receiver span =>
    rw [Part.own_eq_require rfl]
    exact (List.append_nil _).symm
  | dict entries span =>
    rw [Part.own_eq_nil rfl, Part.inner, Part.violationsAll_entries]
    rfl
  | number | string | boolean => rfl
  | list | binary | logical | unary | call | field | index =>
    rw [Part.own_eq_nil rfl, Part.inner, Part.violationsAll_exprs]
    simp [Expr.violations, Expr.violationsList]

theorem Stmt.violations_eq (s : Stmt) :
    s.violations c = (Part.stmt s).own c ++ Part.violationsAll c (Part.stmt s).inner := by
  cases s with
  | breakLoop span | skip span =>
    rw [Part.own_eq_require rfl]
    exact (List.append_nil _).symm
  | giveBack value span =>
    rw [Part.own_eq_require rfl, Part.inner, Part.violationsAll_exprs]
    cases value <;>
      simp [Stmt.violations, Expr.violationsOption, Expr.violationsList, Rule.keptIn]
  | declare constant tag name initial span =>
    rw [Part.own_eq_nil rfl, Part.inner, Part.violationsAll_exprs]
    cases initial <;> simp [Stmt.violations, Expr.violationsOption, Expr.violationsList]
  | print value span | eval value span =>
    rw [Part.own_eq_nil rfl, Part.inner, Part.violationsAll_exprs]
    simp [Stmt.violations, Expr.violationsList]
  | assign t value span =>
    rw [Part.own_eq_nil rfl, Part.inner, ← List.singleton_append, Part.violationsAll_append,
      Part.violationsAll_exprs]
    simp [Stmt.violations, Part.violationsAll, Part.violations, Expr.violationsList]
  | branch condition body elifs otherwise span =>
    rw [Part.own_eq_nil rfl, Part.inner, Part.violationsAll_append, Part.violationsAll_append,
      Part.violationsAll_append, Part.violationsAll_exprs, Part.violationsAll_block,
      Part.violationsAll_elifs]
    have helse : Part.violationsAll c (otherwise.toList.flatMap (Part.block [])) =
        Stmt.violationsElse c otherwise := by
      cases otherwise with
      | none => rfl
      | some body =>
        rw [Option.toList_some, List.flatMap_singleton, Part.violationsAll_block]
        rfl
    rw [helse]
    simp [Stmt.violations, Expr.violationsList]
  | whileLoop condition body span =>
    rw [Part.own_eq_nil rfl, Part.inner, Part.violationsAll_append, Part.violationsAll_exprs,
      Part.violationsAll_block]
    simp [Stmt.violations, Expr.violationsList, Enclosure.enter]
  | forLoop init condition increment body span =>
    rw [Part.own_eq_nil rfl, Part.inner, Part.violationsAll_append, Part.violationsAll_append,
      Part.violationsAll_append, Part.violationsAll_block]
    cases init <;> cases condition <;> cases increment <;>
      simp [Stmt.violations, Stmt.violationsOption, Expr.violationsOption, Part.violationsAll,
        Part.violations, Enclosure.enter]
  | function decl span =>
    obtain ⟨name, params, returns, body, span⟩ := decl
    rw [Part.own_eq_nil rfl, Part.inner, Part.violationsAll_block]
    rfl
  | classDef decl span =>
    obtain ⟨name, fields, methods, span⟩ := decl
    rw [Part.own_eq_nil rfl, Part.inner, Part.violationsAll_methods]
    rfl

/-- **The violations of a part are its own and those of the parts inside it**, in their order. -/
theorem Part.violations_eq (p : Part) :
    p.violations c = p.own c ++ Part.violationsAll c p.inner := by
  cases p with
  | program statements =>
    rw [Part.own_eq_nil rfl, Part.inner, Part.violationsAll_block]
    rfl
  | stmt s => exact s.violations_eq
  | target t => exact t.violations_eq
  | expr e => exact e.violations_eq

end Parts

/-! ## Paths of violations -/

/-- The violations are those at the places that `P` describes, in the order of their paths. -/
def Located (vs : List Violation) (P : List Nat → Violation → Prop) : Prop :=
  ∃ located : List (List Nat × Violation), located.map Prod.snd = vs ∧
    (located.map Prod.fst).Pairwise (· < ·) ∧ ∀ path v, (path, v) ∈ located ↔ P path v

section Located

variable {vs ws : List Violation} {P Q : List Nat → Violation → Prop}

theorem Located.congr (h : Located vs P) (hiff : ∀ path v, P path v ↔ Q path v) :
    Located vs Q := by
  obtain ⟨located, hvs, hsorted, hmem⟩ := h
  exact ⟨located, hvs, hsorted, fun path v => (hmem path v).trans (hiff path v)⟩

theorem located_nil (h : ∀ path v, ¬ P path v) : Located [] P :=
  ⟨[], rfl, .nil, fun path v => iff_of_false List.not_mem_nil (h path v)⟩

theorem located_singleton (v : Violation) : Located [v] fun path w => path = [] ∧ w = v :=
  ⟨[([], v)], rfl, List.pairwise_singleton _ _, fun path w => by simp⟩

theorem Located.append (h : Located vs P) (h' : Located ws Q)
    (hlt : ∀ path v path' v', P path v → Q path' v' → path < path') :
    Located (vs ++ ws) fun path v => P path v ∨ Q path v := by
  obtain ⟨located, rfl, hsorted, hmem⟩ := h
  obtain ⟨located', rfl, hsorted', hmem'⟩ := h'
  refine ⟨located ++ located', List.map_append, ?_, fun path v => ?_⟩
  · rw [List.map_append, List.pairwise_append]
    refine ⟨hsorted, hsorted', ?_⟩
    simp only [List.mem_map, Prod.exists, exists_and_right, exists_eq_right]
    rintro path ⟨v, hv⟩ path' ⟨v', hv'⟩
    exact hlt path v path' v' ((hmem path v).mp hv) ((hmem' path' v').mp hv')
  · rw [List.mem_append, hmem, hmem']

/-- One more step in front of all paths. -/
theorem Located.below (h : Located vs P) (i : Nat) :
    Located vs fun path v => ∃ rest, path = i :: rest ∧ P rest v := by
  obtain ⟨located, rfl, hsorted, hmem⟩ := h
  refine ⟨located.map fun place => (i :: place.1, place.2), by simp, ?_, fun path v => ?_⟩
  · rw [List.map_map, List.pairwise_map]
    rw [List.pairwise_map] at hsorted
    exact hsorted.imp fun hlt => List.cons_lt_cons_iff.mpr (.inr ⟨rfl, hlt⟩)
  · simp only [List.mem_map, Prod.exists, Prod.mk.injEq, ← hmem]
    constructor
    · rintro ⟨rest, w, hw, rfl, rfl⟩
      exact ⟨rest, rfl, hw⟩
    · rintro ⟨rest, rfl, hv⟩
      exact ⟨rest, v, hv, rfl, rfl⟩

end Located

section Paths

variable {p q : Part} {around : List Enclosure} {path : List Nat} {v : Violation}

theorem Part.violatesAt_nil :
    p.ViolatesAt around [] v ↔ p.rule? = some v ∧ ¬ v.rule.Kept around := by
  constructor
  · rintro ⟨_, _, ⟨⟩, hrule, hbroken⟩
    exact ⟨hrule, hbroken⟩
  · rintro ⟨hrule, hbroken⟩
    exact ⟨[], p, .here p, hrule, hbroken⟩

theorem Part.violatesAt_cons {i : Nat} :
    p.ViolatesAt around (i :: path) v ↔
      ∃ part, p.inner[i]? = some part ∧ part.2.ViolatesAt (part.1 ++ around) path v := by
  constructor
  · rintro ⟨_, r, ⟨⟩ | ⟨hpart, hbelow⟩, hrule, hbroken⟩
    rw [List.append_assoc] at hbroken
    exact ⟨_, hpart, _, r, hbelow, hrule, hbroken⟩
  · rintro ⟨⟨outer, q⟩, hpart, inner, r, hbelow, hrule, hbroken⟩
    rw [← List.append_assoc] at hbroken
    exact ⟨_, r, .inside hpart hbelow, hrule, hbroken⟩

/-- The own violation of a part is at the start of all paths. -/
theorem Part.located_own (p : Part) (around : List Enclosure) :
    Located (p.own (Context.of around)) fun path v =>
      path = [] ∧ p.rule? = some v ∧ ¬ v.rule.Kept around := by
  cases hrule : p.rule? with
  | none =>
    rw [Part.own_eq_nil hrule]
    exact located_nil fun path v => by simp
  | some v =>
    rw [Part.own_eq_require hrule]
    by_cases hkept : v.rule.Kept around
    · rw [(Rule.keptIn_of_iff v.rule).mpr hkept]
      refine located_nil ?_
      rintro _ _ ⟨-, ⟨⟩, hbroken⟩
      exact hbroken hkept
    · have hbroken : v.rule.keptIn (Context.of around) = false :=
        Bool.eq_false_iff.mpr fun h => hkept ((Rule.keptIn_of_iff v.rule).mp h)
      rw [hbroken]
      refine (located_singleton v).congr fun path w => and_congr_right fun _ => ?_
      constructor
      · rintro rfl
        exact ⟨rfl, hkept⟩
      · rintro ⟨⟨⟩, -⟩
        rfl

/-- The violations of several parts, the first of which has the given number. -/
theorem Part.located_all {parts : List (List Enclosure × Part)} (n : Nat)
    (h : ∀ part ∈ parts, Located (part.2.violations (Context.of (part.1 ++ around)))
      (part.2.ViolatesAt (part.1 ++ around))) :
    Located (Part.violationsAll (Context.of around) parts) fun path v =>
      ∃ i rest part, path = (n + i) :: rest ∧ parts[i]? = some part ∧
        part.2.ViolatesAt (part.1 ++ around) rest v := by
  induction parts generalizing n with
  | nil => exact located_nil fun path v => by simp
  | cons part parts ih =>
    obtain ⟨hpart, hparts⟩ := List.forall_mem_cons.mp h
    have hfirst := hpart.below n
    rw [Context.of, List.foldr_append] at hfirst
    refine (hfirst.append (ih (n + 1) hparts) ?_).congr fun path v => ?_
    · rintro _ v _ v' ⟨rest, rfl, -⟩ ⟨i, rest', -, rfl, -⟩
      exact List.cons_lt_cons_iff.mpr (.inl (by omega))
    · constructor
      · rintro (⟨rest, rfl, hv⟩ | ⟨i, rest, q, rfl, hq, hv⟩)
        · exact ⟨0, rest, part, rfl, rfl, hv⟩
        · exact ⟨i + 1, rest, q, by rw [Nat.add_right_comm]; rfl, hq, hv⟩
      · rintro ⟨_ | i, rest, q, rfl, hq, hv⟩
        · cases hq
          exact .inl ⟨rest, rfl, hv⟩
        · exact .inr ⟨i, rest, q, by rw [Nat.add_right_comm]; rfl, hq, hv⟩

/-- **The violations that are found in a part are those that there are, in the order of their
paths.** -/
theorem Part.located_violations (p : Part) (around : List Enclosure) :
    Located (p.violations (Context.of around)) (p.ViolatesAt around) := by
  have hinner : ∀ part ∈ p.inner, Located (part.2.violations (Context.of (part.1 ++ around)))
      (part.2.ViolatesAt (part.1 ++ around)) := fun part hpart =>
    have := Part.sizeOf_lt_of_mem_inner hpart
    part.2.located_violations (part.1 ++ around)
  rw [Part.violations_eq]
  refine ((p.located_own around).append (Part.located_all 0 hinner) ?_).congr fun path v => ?_
  · rintro _ v _ v' ⟨rfl, -⟩ ⟨i, rest, -, rfl, -⟩
    exact List.nil_lt_cons _ _
  · cases path with
    | nil => simp [Part.violatesAt_nil]
    | cons i path => simp [Part.violatesAt_cons]
termination_by sizeOf p

end Paths

/-! ## Changes at one place -/

namespace Enclosure.Alike

variable {e e' : Enclosure}

@[refl] theorem refl (e : Enclosure) : e.Alike e := by
  cases e with
  | block => exact .block rfl rfl
  | loopBody => exact .loopBody
  | loop => exact .loop rfl
  | function => exact .function rfl
  | method => exact .method rfl
  | named name => exact .named name

theorem isBody_iff (h : e.Alike e') : e.IsBody ↔ e'.IsBody := by
  cases h <;> exact Iff.rfl

theorem loopBody_iff (h : e.Alike e') : e = .loopBody ↔ e' = .loopBody := by
  cases h <;> simp

theorem method_iff (h : e.Alike e') : (∃ decl, .method decl = e) ↔ ∃ decl, .method decl = e' := by
  cases h <;> simp

theorem declares_iff (h : e.Alike e') (name : String) : e.Declares name ↔ e'.Declares name := by
  cases h with
  | block hoisted declared =>
    simp only [Enclosure.Declares, ← List.mem_flatMap, hoisted]
    rw [← List.mem_filterMap, ← List.mem_filterMap, declared]
  | loopBody => exact Iff.rfl
  | loop declared =>
    have hmem : name ∈ _ ↔ name ∈ _ := iff_of_eq (congrArg (name ∈ ·) declared)
    simpa [Enclosure.Declares] using hmem
  | function params | method params => simp only [Enclosure.Declares, params]
  | named => exact Iff.rfl

end Enclosure.Alike

section Changes

variable {around around' : List Enclosure}

theorem Rule.kept_jump_iff (h : List.Forall₂ Enclosure.Alike around around') :
    (∃ inner outer, around = inner ++ .loopBody :: outer ∧ ∀ x ∈ inner, ¬ x.IsBody) ↔
      ∃ inner outer, around' = inner ++ .loopBody :: outer ∧ ∀ x ∈ inner, ¬ x.IsBody := by
  induction h with
  | nil => exact Iff.rfl
  | cons hfirst _ ih =>
    rw [Rule.kept_jump_cons, Rule.kept_jump_cons, hfirst.loopBody_iff, hfirst.isBody_iff, ih]

theorem Enclosure.exists_iff_of_alike {P : Enclosure → Prop}
    (hP : ∀ {e e' : Enclosure}, e.Alike e' → (P e ↔ P e'))
    (h : List.Forall₂ Enclosure.Alike around around') :
    (∃ e ∈ around, P e) ↔ ∃ e ∈ around', P e := by
  induction h with
  | nil => exact Iff.rfl
  | cons hfirst _ ih => rw [List.exists_mem_cons_iff, List.exists_mem_cons_iff, hP hfirst, ih]

/-- Rules are kept alike in alike enclosures. -/
theorem Rule.kept_iff_of_alike (h : List.Forall₂ Enclosure.Alike around around') (rule : Rule) :
    rule.Kept around ↔ rule.Kept around' := by
  cases rule with
  | breakOutsideLoop | skipOutsideLoop => exact Rule.kept_jump_iff h
  | returnOutsideFunction => exact Enclosure.exists_iff_of_alike Enclosure.Alike.isBody_iff h
  | thisOutsideMethod =>
    have hiff := Enclosure.exists_iff_of_alike Enclosure.Alike.method_iff h
    simpa [Rule.Kept] using hiff
  | undefinedVariable name =>
    exact or_congr_right (Enclosure.exists_iff_of_alike (fun he => he.declares_iff name) h)

theorem Part.violatesAt_iff_of_alike (h : List.Forall₂ Enclosure.Alike around around') (p : Part)
    (path : List Nat) (v : Violation) :
    p.ViolatesAt around path v ↔ p.ViolatesAt around' path v := by
  have hkept : ∀ inner : List Enclosure,
      v.rule.Kept (inner ++ around) ↔ v.rule.Kept (inner ++ around') := fun inner =>
    Rule.kept_iff_of_alike (List.rel_append (List.forall₂_same.mpr fun e _ => .refl e) h) v.rule
  simp only [Part.ViolatesAt, hkept]

/-- **A change at one place shows at no other**: outside of the parts that differ the same rules are
broken. -/
theorem Part.Edited.violatesAt_iff {p p' : Part} {place : List Nat} (hedited : p.Edited p' place)
    (h : List.Forall₂ Enclosure.Alike around around') {path : List Nat} (hpath : ¬ place <+: path)
    (v : Violation) : p.ViolatesAt around path v ↔ p'.ViolatesAt around' path v := by
  induction hedited generalizing around around' path with
  | here => exact absurd List.nil_prefix hpath
  | @inside p p' q q' i place outer outer' hrule hpart hpart' halike _ hothers ih =>
    cases path with
    | nil => rw [Part.violatesAt_nil, Part.violatesAt_nil, hrule, Rule.kept_iff_of_alike h]
    | cons j path =>
      rw [Part.violatesAt_cons, Part.violatesAt_cons]
      by_cases hj : j = i
      · subst hj
        have hbelow : ¬ place <+: path := fun hprefix =>
          hpath (List.cons_prefix_cons.mpr ⟨rfl, hprefix⟩)
        simp only [hpart, hpart', Option.some.injEq, exists_eq_left']
        exact ih (List.rel_append halike h) hbelow
      · have hsame := hothers j hj
        generalize p.inner[j]? = x at hsame
        generalize p'.inner[j]? = y at hsame
        cases hsame with
        | none => simp
        | some hrel =>
          simp only [Option.some.injEq, exists_eq_left']
          rw [hrel.1]
          exact Part.violatesAt_iff_of_alike (List.rel_append hrel.2 h) _ _ _

end Changes

/-- **The violations that are reported are exactly the ones that there are**: they are found in the
order of their paths, one for each place where a rule is broken, and a rule is broken at a place if
what encloses this place does not keep it. Two programs that differ at one place only break the same
rules at all others. -/
theorem violations_located (program : List Stmt) :
    (∃ located : List (List Nat × Violation),
      violations program = located.map Prod.snd ∧ (located.map Prod.fst).Pairwise (· < ·) ∧
        ∀ path v, (path, v) ∈ located ↔ ViolatesAt program path v) ∧
      ∀ program' place, (Part.program program).Edited (.program program') place →
        ∀ path v, ¬ place <+: path → (ViolatesAt program path v ↔ ViolatesAt program' path v) := by
  refine ⟨?_, fun program' place hedited path v hpath => hedited.violatesAt_iff .nil hpath v⟩
  obtain ⟨located, hviolations, hsorted, hmem⟩ := (Part.program program).located_violations []
  exact ⟨located, hviolations.symm, hsorted, hmem⟩

/-- A function that leaves a loop around it, in a loop whose condition is not known, and a name that
is assigned to before it is declared. -/
def scatteredProgram (first : Expr) : List Stmt :=
  [.print first {},
    .whileLoop (.name "go" {}) [.function ⟨"f", [], .void, [.breakLoop {}], {}⟩ {}] {},
    .assign (.name "x" {}) (.receiver {}) {},
    .declare false .number "x" none {}]

theorem edited_scatteredProgram (first other : Expr) :
    (Part.program (scatteredProgram first)).Edited (.program (scatteredProgram other)) [0] := by
  refine .inside rfl rfl rfl (.cons (.block rfl rfl) .nil) (.here rfl) fun j hj => ?_
  match j with
  | 1 | 2 | 3 => exact .some ⟨rfl, .cons (.block rfl rfl) .nil⟩
  | _ + 4 => exact .none

theorem violations_located_scatteredProgram :
    violations (scatteredProgram (.name "a" {})) =
        [⟨.undefinedVariable "a", {}⟩, ⟨.undefinedVariable "go", {}⟩, ⟨.breakOutsideLoop, {}⟩,
          ⟨.undefinedVariable "x", {}⟩, ⟨.thisOutsideMethod, {}⟩] ∧
      (∃ located : List (List Nat × Violation),
        violations (scatteredProgram (.name "a" {})) = located.map Prod.snd ∧
          (located.map Prod.fst).Pairwise (· < ·) ∧
          ∀ path v, (path, v) ∈ located ↔
            ViolatesAt (scatteredProgram (.name "a" {})) path v) ∧
      ∀ v, ViolatesAt (scatteredProgram (.name "a" {})) [1, 1, 0] v ↔
        ViolatesAt (scatteredProgram (.boolean true {})) [1, 1, 0] v := by
  have hlocated := violations_located (scatteredProgram (.name "a" {}))
  exact ⟨by decide, hlocated.1, fun v =>
    hlocated.2 _ [0] (edited_scatteredProgram _ _) [1, 1, 0] v (by decide)⟩

end Chalk
