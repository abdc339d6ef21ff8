import Chalk.Proofs.Rendering
import Chalk.Program.Violation
import Mathlib.Data.List.Forall2

/-!
# Parallel trees

Two trees are parallel if they differ in their spans only and the spans at the same place
correspond. What corresponds is a parameter: any relation between spans will do, as long as joining
spans keeps it, because the functions that build trees and walk over them do nothing with spans but
join them and pass them on.

Two correspondences matter. If all spans correspond, parallel trees are the same up to spans. If the
spans of a set correspond to themselves, a tree that is parallel to itself has all its spans in that
set. So one statement about parallel trees says both that positions have no influence and that no
position is invented.

The spans of declared slots, functions and classes take no part: nothing reads them.

## Main definitions

* `Correspondence` — a relation between spans that joining keeps
* `Correspondence.all`, `Correspondence.inside` — the two that matter
* `Expr.Parallel`, `Stmt.Parallel`, `FuncOf.Parallel`, `ClassOf.Parallel` — parallel trees

## Main results

* `Stmt.bareBlock_eq_of_parallel` — parallel programs are the same up to spans
* `violations_parallel` — the violations of parallel programs are parallel
-/

namespace Chalk

/-! ## Correspondences -/

/-- A relation between spans that joining spans keeps. -/
structure Correspondence where
  rel : Span → Span → Prop
  through {a b c d : Span} : rel a b → rel c d → rel (a.through c) (b.through d)

namespace Correspondence

/-- All spans correspond. -/
def all : Correspondence where
  rel _ _ := True
  through _ _ := trivial

/-- The spans of a set correspond to themselves. -/
def inside (good : Span → Prop) (h : ∀ a b, good a → good b → good (a.through b)) :
    Correspondence where
  rel a b := a = b ∧ good a
  through := by
    rintro a _ c _ ⟨rfl, ha⟩ ⟨rfl, hc⟩
    exact ⟨rfl, h a c ha hc⟩

end Correspondence

variable {R : Correspondence}

/-! ## Expressions -/

mutual

/-- Expressions that differ in their spans only, which correspond. -/
inductive Expr.Parallel (R : Correspondence) : Expr → Expr → Prop where
  | number {value : Float} {a b : Span} (span : R.rel a b) :
      Parallel R (.number value a) (.number value b)
  | string {content : String} {a b : Span} (span : R.rel a b) :
      Parallel R (.string content a) (.string content b)
  | boolean {value : Bool} {a b : Span} (span : R.rel a b) :
      Parallel R (.boolean value a) (.boolean value b)
  | name {id : String} {a b : Span} (span : R.rel a b) : Parallel R (.name id a) (.name id b)
  | receiver {a b : Span} (span : R.rel a b) : Parallel R (.receiver a) (.receiver b)
  | list {es fs : List Expr} {a b : Span} (items : List.Forall₂ (Expr.Parallel R) es fs)
      (span : R.rel a b) : Parallel R (.list es a) (.list fs b)
  | dict {es fs : List (Expr × Expr)} {a b : Span}
      (entries : List.Forall₂ (Expr.ParallelEntry R) es fs) (span : R.rel a b) :
      Parallel R (.dict es a) (.dict fs b)
  | binary {op : BinaryOp} {e f e' f' : Expr} {a b : Span} (left : Parallel R e f)
      (right : Parallel R e' f') (span : R.rel a b) :
      Parallel R (.binary op e e' a) (.binary op f f' b)
  | logical {op : LogicalOp} {e f e' f' : Expr} {a b : Span} (left : Parallel R e f)
      (right : Parallel R e' f') (span : R.rel a b) :
      Parallel R (.logical op e e' a) (.logical op f f' b)
  | unary {op : UnaryOp} {e f : Expr} {a b : Span} (operand : Parallel R e f) (span : R.rel a b) :
      Parallel R (.unary op e a) (.unary op f b)
  | call {e f : Expr} {es fs : List Expr} {a b : Span} (callee : Parallel R e f)
      (arguments : List.Forall₂ (Expr.Parallel R) es fs) (span : R.rel a b) :
      Parallel R (.call e es a) (.call f fs b)
  | field {e f : Expr} {id : String} {a b : Span} (object : Parallel R e f) (span : R.rel a b) :
      Parallel R (.field e id a) (.field f id b)
  | index {e f e' f' : Expr} {a b : Span} (container : Parallel R e f)
      (position : Parallel R e' f') (span : R.rel a b) :
      Parallel R (.index e e' a) (.index f f' b)

/-- Entries of dicts that differ in their spans only, which correspond. -/
inductive Expr.ParallelEntry (R : Correspondence) : Expr × Expr → Expr × Expr → Prop where
  | mk {e f e' f' : Expr} (key : Expr.Parallel R e f) (value : Expr.Parallel R e' f') :
      ParallelEntry R (e, e') (f, f')

end

theorem Expr.Parallel.span {e f : Expr} (h : e.Parallel R f) : R.rel e.span f.span := by
  cases h <;> assumption

theorem Expr.Parallel.mkBinary {e f e' f' : Expr} (left : e.Parallel R f) (right : e'.Parallel R f')
    (op : BinaryOp) : (Expr.mkBinary op e e').Parallel R (.mkBinary op f f') :=
  .binary left right (R.through left.span right.span)

theorem Expr.Parallel.mkLogical {e f e' f' : Expr} (left : e.Parallel R f)
    (right : e'.Parallel R f') (op : LogicalOp) :
    (Expr.mkLogical op e e').Parallel R (.mkLogical op f f') :=
  .logical left right (R.through left.span right.span)

/-- Targets of assignments that differ in their spans only, which correspond. -/
inductive Target.Parallel (R : Correspondence) : Target → Target → Prop where
  | name {id : String} {a b : Span} (span : R.rel a b) : Parallel R (.name id a) (.name id b)
  | index {e f e' f' : Expr} (container : e.Parallel R f) (position : e'.Parallel R f') :
      Parallel R (.index e e') (.index f f')
  | field {e f : Expr} {id : String} (object : e.Parallel R f) :
      Parallel R (.field e id) (.field f id)

theorem Expr.Parallel.toTarget? {e f : Expr} (h : e.Parallel R f) :
    Option.Rel (Target.Parallel R) e.toTarget? f.toTarget? := by
  cases h with
  | name span => exact .some (.name span)
  | index container position => exact .some (.index container position)
  | field object => exact .some (.field object)
  | _ => exact .none

/-! ## Statements -/

/-- Slots that differ in their spans only. -/
def Slot.Parallel (a b : Slot) : Prop := a.name = b.name ∧ a.tag = b.tag

mutual

/-- Statements that differ in their spans only, which correspond. -/
inductive Stmt.Parallel (R : Correspondence) : Stmt → Stmt → Prop where
  | declare {constant : Bool} {tag : TypeTag} {name : String} {e f : Option Expr} {a b : Span}
      (initial : Option.Rel (Expr.Parallel R) e f) (span : R.rel a b) :
      Stmt.Parallel R (.declare constant tag name e a) (.declare constant tag name f b)
  | assign {t u : Target} {e f : Expr} {a b : Span} (target : t.Parallel R u)
      (value : e.Parallel R f) (span : R.rel a b) : Stmt.Parallel R (.assign t e a) (.assign u f b)
  | print {e f : Expr} {a b : Span} (value : e.Parallel R f) (span : R.rel a b) :
      Stmt.Parallel R (.print e a) (.print f b)
  | branch {e f : Expr} {ss ts : List Stmt} {es fs : List (BranchOf Stmt)}
      {o p : Option (List Stmt)} {a b : Span} (condition : e.Parallel R f)
      (body : List.Forall₂ (Stmt.Parallel R) ss ts)
      (elifs : List.Forall₂ (BranchOf.Parallel R) es fs)
      (otherwise : Option.Rel (List.Forall₂ (Stmt.Parallel R)) o p) (span : R.rel a b) :
      Stmt.Parallel R (.branch e ss es o a) (.branch f ts fs p b)
  | whileLoop {e f : Expr} {ss ts : List Stmt} {a b : Span} (condition : e.Parallel R f)
      (body : List.Forall₂ (Stmt.Parallel R) ss ts) (span : R.rel a b) :
      Stmt.Parallel R (.whileLoop e ss a) (.whileLoop f ts b)
  | forLoop {i j k l : Option Stmt} {e f : Option Expr} {ss ts : List Stmt} {a b : Span}
      (init : Option.Rel (Stmt.Parallel R) i j) (condition : Option.Rel (Expr.Parallel R) e f)
      (increment : Option.Rel (Stmt.Parallel R) k l) (body : List.Forall₂ (Stmt.Parallel R) ss ts)
      (span : R.rel a b) : Stmt.Parallel R (.forLoop i e k ss a) (.forLoop j f l ts b)
  | breakLoop {a b : Span} (span : R.rel a b) : Stmt.Parallel R (.breakLoop a) (.breakLoop b)
  | skip {a b : Span} (span : R.rel a b) : Stmt.Parallel R (.skip a) (.skip b)
  | giveBack {e f : Option Expr} {a b : Span} (value : Option.Rel (Expr.Parallel R) e f)
      (span : R.rel a b) : Stmt.Parallel R (.giveBack e a) (.giveBack f b)
  | function {f g : FuncOf Stmt} {a b : Span} (decl : FuncOf.Parallel R f g) (span : R.rel a b) :
      Stmt.Parallel R (.function f a) (.function g b)
  | classDef {c d : ClassOf Stmt} {a b : Span} (decl : ClassOf.Parallel R c d) (span : R.rel a b) :
      Stmt.Parallel R (.classDef c a) (.classDef d b)
  | eval {e f : Expr} {a b : Span} (value : e.Parallel R f) (span : R.rel a b) :
      Stmt.Parallel R (.eval e a) (.eval f b)

/-- Conditions with blocks that differ in their spans only, which correspond. -/
inductive BranchOf.Parallel (R : Correspondence) : BranchOf Stmt → BranchOf Stmt → Prop where
  | mk {e f : Expr} {ss ts : List Stmt} (condition : e.Parallel R f)
      (body : List.Forall₂ (Stmt.Parallel R) ss ts) : BranchOf.Parallel R ⟨e, ss⟩ ⟨f, ts⟩

/-- Functions that differ in their spans only; those in their bodies correspond. -/
inductive FuncOf.Parallel (R : Correspondence) : FuncOf Stmt → FuncOf Stmt → Prop where
  | mk {name : String} {ps qs : List Slot} {returns : TypeTag} {ss ts : List Stmt} {a b : Span}
      (params : List.Forall₂ Slot.Parallel ps qs) (body : List.Forall₂ (Stmt.Parallel R) ss ts) :
      FuncOf.Parallel R ⟨name, ps, returns, ss, a⟩ ⟨name, qs, returns, ts, b⟩

/-- Classes that differ in their spans only; those in the bodies of their methods correspond. -/
inductive ClassOf.Parallel (R : Correspondence) : ClassOf Stmt → ClassOf Stmt → Prop where
  | mk {name : String} {ps qs : List Slot} {ms ns : List (FuncOf Stmt)} {a b : Span}
      (fields : List.Forall₂ Slot.Parallel ps qs)
      (methods : List.Forall₂ (FuncOf.Parallel R) ms ns) :
      ClassOf.Parallel R ⟨name, ps, ms, a⟩ ⟨name, qs, ns, b⟩

end

/-- Blocks of parallel statements. -/
abbrev Stmt.ParallelBlock (R : Correspondence) : List Stmt → List Stmt → Prop :=
  List.Forall₂ (Stmt.Parallel R)

theorem Stmt.Parallel.span {s t : Stmt} (h : s.Parallel R t) : R.rel s.span t.span := by
  cases h <;> assumption

theorem Stmt.Parallel.withSpan {s t : Stmt} (h : s.Parallel R t) {a b : Span} (span : R.rel a b) :
    (s.withSpan a).Parallel R (t.withSpan b) := by
  cases h <;> constructor <;> assumption

namespace FuncOf.Parallel

variable {f g : Func}

theorem name_eq (h : f.Parallel R g) : f.name = g.name := by
  cases h
  rfl

theorem returns_eq (h : f.Parallel R g) : f.returns = g.returns := by
  cases h
  rfl

theorem params (h : f.Parallel R g) : List.Forall₂ Slot.Parallel f.params g.params := by
  cases h
  assumption

theorem body (h : f.Parallel R g) : Stmt.ParallelBlock R f.body g.body := by
  cases h
  assumption

end FuncOf.Parallel

namespace ClassOf.Parallel

variable {c d : Class}

theorem name_eq (h : c.Parallel R d) : c.name = d.name := by
  cases h
  rfl

theorem fields (h : c.Parallel R d) : List.Forall₂ Slot.Parallel c.fields d.fields := by
  cases h
  assumption

theorem methods (h : c.Parallel R d) : List.Forall₂ (FuncOf.Parallel R) c.methods d.methods := by
  cases h
  assumption

end ClassOf.Parallel

/-! ## Trees up to spans -/

mutual

theorem Expr.bare_eq_of_parallel : (e : Expr) → {f : Expr} → e.Parallel R f → e.bare = f.bare
  | .number .., _, .number _ => rfl
  | .string .., _, .string _ => rfl
  | .boolean .., _, .boolean _ => rfl
  | .name .., _, .name _ => rfl
  | .receiver .., _, .receiver _ => rfl
  | .list es _, _, .list items _ => by
    rw [Expr.bare, Expr.bare, Expr.bareList_eq_of_parallel es items]
  | .dict es _, _, .dict entries _ => by
    rw [Expr.bare, Expr.bare, Expr.bareEntries_eq_of_parallel es entries]
  | .binary _ e e' _, _, .binary left right _ => by
    rw [Expr.bare, Expr.bare, Expr.bare_eq_of_parallel e left, Expr.bare_eq_of_parallel e' right]
  | .logical _ e e' _, _, .logical left right _ => by
    rw [Expr.bare, Expr.bare, Expr.bare_eq_of_parallel e left, Expr.bare_eq_of_parallel e' right]
  | .unary _ e _, _, .unary operand _ => by
    rw [Expr.bare, Expr.bare, Expr.bare_eq_of_parallel e operand]
  | .call e es _, _, .call callee arguments _ => by
    rw [Expr.bare, Expr.bare, Expr.bare_eq_of_parallel e callee,
      Expr.bareList_eq_of_parallel es arguments]
  | .field e _ _, _, .field object _ => by
    rw [Expr.bare, Expr.bare, Expr.bare_eq_of_parallel e object]
  | .index e e' _, _, .index container position _ => by
    rw [Expr.bare, Expr.bare, Expr.bare_eq_of_parallel e container,
      Expr.bare_eq_of_parallel e' position]
termination_by structural x => x

theorem Expr.bareList_eq_of_parallel : (es : List Expr) → {fs : List Expr} →
    List.Forall₂ (Expr.Parallel R) es fs → Expr.bareList es = Expr.bareList fs
  | [], _, .nil => rfl
  | e :: es, _, .cons first others => by
    rw [Expr.bareList, Expr.bareList, Expr.bare_eq_of_parallel e first,
      Expr.bareList_eq_of_parallel es others]
termination_by structural x => x

theorem Expr.bareEntries_eq_of_parallel : (es : List (Expr × Expr)) → {fs : List (Expr × Expr)} →
    List.Forall₂ (Expr.ParallelEntry R) es fs → Expr.bareEntries es = Expr.bareEntries fs
  | [], _, .nil => rfl
  | (e, e') :: es, _, .cons (.mk key value) others => by
    rw [Expr.bareEntries, Expr.bareEntries, Expr.bare_eq_of_parallel e key,
      Expr.bare_eq_of_parallel e' value, Expr.bareEntries_eq_of_parallel es others]
termination_by structural x => x

end

theorem Expr.Parallel.bare_eq {e f : Expr} (h : e.Parallel R f) : e.bare = f.bare :=
  Expr.bare_eq_of_parallel e h

theorem Expr.map_bare_eq_of_parallel {e f : Option Expr} (h : Option.Rel (Expr.Parallel R) e f) :
    e.map Expr.bare = f.map Expr.bare := by
  cases h with
  | none => rfl
  | some h => exact congrArg some h.bare_eq

theorem Target.Parallel.bare_eq {t u : Target} (h : t.Parallel R u) : t.bare = u.bare := by
  cases h with
  | name => rfl
  | index container position =>
    rw [Target.bare, Target.bare, container.bare_eq, position.bare_eq]
  | field object => rw [Target.bare, Target.bare, object.bare_eq]

theorem Slot.map_bare_eq_of_parallel {ps qs : List Slot} (h : List.Forall₂ Slot.Parallel ps qs) :
    ps.map Slot.bare = qs.map Slot.bare := by
  induction h with
  | nil => rfl
  | cons first _ ih =>
    rw [List.map_cons, List.map_cons, ih, Slot.bare, Slot.bare, first.1, first.2]

mutual

theorem Stmt.bare_eq_of_parallel : (s : Stmt) → {t : Stmt} → s.Parallel R t → s.bare = t.bare
  | .declare .., _, .declare initial _ => by
    rw [Stmt.bare, Stmt.bare, Expr.map_bare_eq_of_parallel initial]
  | .assign .., _, .assign target value _ => by
    rw [Stmt.bare, Stmt.bare, target.bare_eq, value.bare_eq]
  | .print .., _, .print value _ => by rw [Stmt.bare, Stmt.bare, value.bare_eq]
  | .branch _ ss es o _, _, .branch condition body elifs otherwise _ => by
    rw [Stmt.bare, Stmt.bare, condition.bare_eq, Stmt.bareBlock_eq_of_parallel ss body,
      Stmt.bareElifs_eq_of_parallel es elifs, Stmt.bareElse_eq_of_parallel o otherwise]
  | .whileLoop _ ss _, _, .whileLoop condition body _ => by
    rw [Stmt.bare, Stmt.bare, condition.bare_eq, Stmt.bareBlock_eq_of_parallel ss body]
  | .forLoop i _ k ss _, _, .forLoop init condition increment body _ => by
    rw [Stmt.bare, Stmt.bare, Stmt.bareOption_eq_of_parallel i init,
      Expr.map_bare_eq_of_parallel condition, Stmt.bareOption_eq_of_parallel k increment,
      Stmt.bareBlock_eq_of_parallel ss body]
  | .breakLoop _, _, .breakLoop _ => rfl
  | .skip _, _, .skip _ => rfl
  | .giveBack .., _, .giveBack value _ => by
    rw [Stmt.bare, Stmt.bare, Expr.map_bare_eq_of_parallel value]
  | .function f _, _, .function decl _ => by
    rw [Stmt.bare, Stmt.bare, Stmt.bareFunc_eq_of_parallel f decl]
  | .classDef c _, _, .classDef decl _ => by
    rw [Stmt.bare, Stmt.bare, Stmt.bareClass_eq_of_parallel c decl]
  | .eval .., _, .eval value _ => by rw [Stmt.bare, Stmt.bare, value.bare_eq]
termination_by structural x => x

/-- **Parallel programs are the same up to spans.** -/
theorem Stmt.bareBlock_eq_of_parallel : (ss : List Stmt) → {ts : List Stmt} →
    Stmt.ParallelBlock R ss ts → Stmt.bareBlock ss = Stmt.bareBlock ts
  | [], _, .nil => rfl
  | s :: ss, _, .cons first others => by
    rw [Stmt.bareBlock, Stmt.bareBlock, Stmt.bare_eq_of_parallel s first,
      Stmt.bareBlock_eq_of_parallel ss others]
termination_by structural x => x

theorem Stmt.bareOption_eq_of_parallel : (s : Option Stmt) → {t : Option Stmt} →
    Option.Rel (Stmt.Parallel R) s t → Stmt.bareOption s = Stmt.bareOption t
  | none, _, .none => rfl
  | some s, _, .some h => by
    rw [Stmt.bareOption, Stmt.bareOption, Stmt.bare_eq_of_parallel s h]
termination_by structural x => x

theorem Stmt.bareElifs_eq_of_parallel : (es : List (BranchOf Stmt)) → {fs : List (BranchOf Stmt)} →
    List.Forall₂ (BranchOf.Parallel R) es fs → Stmt.bareElifs es = Stmt.bareElifs fs
  | [], _, .nil => rfl
  | ⟨_, ss⟩ :: es, _, .cons (.mk condition body) others => by
    rw [Stmt.bareElifs, Stmt.bareElifs, condition.bare_eq, Stmt.bareBlock_eq_of_parallel ss body,
      Stmt.bareElifs_eq_of_parallel es others]
termination_by structural x => x

theorem Stmt.bareElse_eq_of_parallel : (o : Option (List Stmt)) → {p : Option (List Stmt)} →
    Option.Rel (Stmt.ParallelBlock R) o p → Stmt.bareElse o = Stmt.bareElse p
  | none, _, .none => rfl
  | some ss, _, .some h => by
    rw [Stmt.bareElse, Stmt.bareElse, Stmt.bareBlock_eq_of_parallel ss h]
termination_by structural x => x

theorem Stmt.bareFunc_eq_of_parallel : (f : FuncOf Stmt) → {g : FuncOf Stmt} →
    f.Parallel R g → Stmt.bareFunc f = Stmt.bareFunc g
  | ⟨_, _, _, ss, _⟩, _, .mk params body => by
    rw [Stmt.bareFunc, Stmt.bareFunc, Slot.map_bare_eq_of_parallel params,
      Stmt.bareBlock_eq_of_parallel ss body]
termination_by structural x => x

theorem Stmt.bareMethods_eq_of_parallel : (ms : List (FuncOf Stmt)) → {ns : List (FuncOf Stmt)} →
    List.Forall₂ (FuncOf.Parallel R) ms ns → Stmt.bareMethods ms = Stmt.bareMethods ns
  | [], _, .nil => rfl
  | f :: ms, _, .cons first others => by
    rw [Stmt.bareMethods, Stmt.bareMethods, Stmt.bareFunc_eq_of_parallel f first,
      Stmt.bareMethods_eq_of_parallel ms others]
termination_by structural x => x

theorem Stmt.bareClass_eq_of_parallel : (c : ClassOf Stmt) → {d : ClassOf Stmt} →
    c.Parallel R d → Stmt.bareClass c = Stmt.bareClass d
  | ⟨_, _, ms, _⟩, _, .mk fields methods => by
    rw [Stmt.bareClass, Stmt.bareClass, Slot.map_bare_eq_of_parallel fields,
      Stmt.bareMethods_eq_of_parallel ms methods]
termination_by structural x => x

end

/-! ## Violations -/

/-- The same rule is broken, at spans that correspond. -/
def Violation.Parallel (R : Correspondence) (v w : Violation) : Prop :=
  v.rule = w.rule ∧ R.rel v.span w.span

/-- The same rules are broken in the same order, at spans that correspond. -/
abbrev Violation.ParallelList (R : Correspondence) : List Violation → List Violation → Prop :=
  List.Forall₂ (Violation.Parallel R)

namespace Context

theorem parallel_require {condition : Bool} {rule : Rule} {a b : Span} (span : R.rel a b) :
    Violation.ParallelList R (require condition rule a) (require condition rule b) := by
  rw [require, require]
  split
  · exact .nil
  · exact .cons ⟨rfl, span⟩ .nil

theorem parallel_resolve (c : Context) (name : String) {a b : Span} (span : R.rel a b) :
    Violation.ParallelList R (c.resolve name a) (c.resolve name b) :=
  parallel_require span

theorem enterFunction_eq_of_parallel (c : Context) {ps qs : List Slot}
    (h : List.Forall₂ Slot.Parallel ps qs) (isMethod : Bool) :
    c.enterFunction ps isMethod = c.enterFunction qs isMethod := by
  have hnames : ps.map Slot.name = qs.map Slot.name := by
    induction h with
    | nil => rfl
    | cons first _ ih => rw [List.map_cons, List.map_cons, first.1, ih]
  rw [enterFunction, enterFunction, hnames]

end Context

theorem Stmt.Parallel.declared_eq {s t : Stmt} (h : s.Parallel R t) : s.declared = t.declared := by
  cases h with
  | function decl => exact congrArg (fun name => [name]) decl.name_eq
  | classDef decl => exact congrArg (fun name => [name]) decl.name_eq
  | _ => rfl

theorem Stmt.declared_eq_of_parallel {s t : Option Stmt} (h : Option.Rel (Stmt.Parallel R) s t) :
    s.map Stmt.declared = t.map Stmt.declared := by
  cases h with
  | none => rfl
  | some h => exact congrArg some h.declared_eq

theorem Stmt.ParallelBlock.hoisted_eq {ss ts : List Stmt} (h : Stmt.ParallelBlock R ss ts) :
    ss.flatMap Stmt.hoisted = ts.flatMap Stmt.hoisted := by
  induction h with
  | nil => rfl
  | cons first _ ih =>
    rw [List.flatMap_cons, List.flatMap_cons, ih]
    cases first with
    | function decl => rw [Stmt.hoisted, Stmt.hoisted, decl.name_eq]
    | classDef decl => rw [Stmt.hoisted, Stmt.hoisted, decl.name_eq]
    | _ => rfl

mutual

theorem Expr.violations_parallel (c : Context) : (e : Expr) → {f : Expr} → e.Parallel R f →
    Violation.ParallelList R (e.violations c) (f.violations c)
  | .number .., _, .number _ => .nil
  | .string .., _, .string _ => .nil
  | .boolean .., _, .boolean _ => .nil
  | .name id _, _, .name span => c.parallel_resolve id span
  | .receiver _, _, .receiver span => Context.parallel_require span
  | .list es _, _, .list items _ => Expr.violationsList_parallel c es items
  | .dict es _, _, .dict entries _ => Expr.violationsEntries_parallel c es entries
  | .binary _ e e' _, _, .binary left right _ =>
    List.rel_append (Expr.violations_parallel c e left) (Expr.violations_parallel c e' right)
  | .logical _ e e' _, _, .logical left right _ =>
    List.rel_append (Expr.violations_parallel c e left) (Expr.violations_parallel c e' right)
  | .unary _ e _, _, .unary operand _ => by
    rw [Expr.violations, Expr.violations]
    exact Expr.violations_parallel c e operand
  | .call e es _, _, .call callee arguments _ =>
    List.rel_append (Expr.violations_parallel c e callee)
      (Expr.violationsList_parallel c es arguments)
  | .field e _ _, _, .field object _ => by
    rw [Expr.violations, Expr.violations]
    exact Expr.violations_parallel c e object
  | .index e e' _, _, .index container position _ =>
    List.rel_append (Expr.violations_parallel c e container)
      (Expr.violations_parallel c e' position)
termination_by structural x => x

theorem Expr.violationsList_parallel (c : Context) : (es : List Expr) → {fs : List Expr} →
    List.Forall₂ (Expr.Parallel R) es fs →
    Violation.ParallelList R (Expr.violationsList c es) (Expr.violationsList c fs)
  | [], _, .nil => .nil
  | e :: es, _, .cons first others =>
    List.rel_append (Expr.violations_parallel c e first)
      (Expr.violationsList_parallel c es others)
termination_by structural x => x

theorem Expr.violationsEntries_parallel (c : Context) :
    (es : List (Expr × Expr)) → {fs : List (Expr × Expr)} →
    List.Forall₂ (Expr.ParallelEntry R) es fs →
    Violation.ParallelList R (Expr.violationsEntries c es) (Expr.violationsEntries c fs)
  | [], _, .nil => .nil
  | (e, e') :: es, _, .cons (.mk key value) others =>
    List.rel_append
      (List.rel_append (Expr.violations_parallel c e key) (Expr.violations_parallel c e' value))
      (Expr.violationsEntries_parallel c es others)
termination_by structural x => x

end

theorem Expr.violationsOption_parallel (c : Context) {e f : Option Expr}
    (h : Option.Rel (Expr.Parallel R) e f) :
    Violation.ParallelList R (Expr.violationsOption c e) (Expr.violationsOption c f) := by
  cases h with
  | none => exact .nil
  | some h => exact Expr.violations_parallel c _ h

theorem Target.violations_parallel (c : Context) {t u : Target} (h : t.Parallel R u) :
    Violation.ParallelList R (t.violations c) (u.violations c) := by
  cases h with
  | name span => exact c.parallel_resolve _ span
  | index container position =>
    exact List.rel_append (Expr.violations_parallel c _ container)
      (Expr.violations_parallel c _ position)
  | field object => exact Expr.violations_parallel c _ object

mutual

theorem Stmt.violations_parallel (c : Context) : (s : Stmt) → {t : Stmt} → s.Parallel R t →
    Violation.ParallelList R (s.violations c) (t.violations c)
  | .declare .., _, .declare initial _ => Expr.violationsOption_parallel c initial
  | .assign .., _, .assign target value _ =>
    List.rel_append (Target.violations_parallel c target) (Expr.violations_parallel c _ value)
  | .print .., _, .print value _ => Expr.violations_parallel c _ value
  | .branch _ ss es o _, _, .branch condition body elifs otherwise _ => by
    rw [Stmt.violations, Stmt.violations, Stmt.ParallelBlock.hoisted_eq body]
    refine List.rel_append (List.rel_append (List.rel_append ?_ ?_) ?_) ?_
    · exact Expr.violations_parallel c _ condition
    · exact Stmt.violationsSeq_parallel _ ss body
    · exact Stmt.violationsElifs_parallel c es elifs
    · exact Stmt.violationsElse_parallel c o otherwise
  | .whileLoop _ ss _, _, .whileLoop condition body _ => by
    rw [Stmt.violations, Stmt.violations, Stmt.ParallelBlock.hoisted_eq body]
    exact List.rel_append (Expr.violations_parallel c _ condition)
      (Stmt.violationsSeq_parallel _ ss body)
  | .forLoop i _ k ss _, _, .forLoop init condition increment body _ => by
    rw [Stmt.violations, Stmt.violations, Stmt.ParallelBlock.hoisted_eq body,
      Stmt.declared_eq_of_parallel init]
    refine List.rel_append (List.rel_append (List.rel_append ?_ ?_) ?_) ?_
    · exact Stmt.violationsOption_parallel c i init
    · exact Expr.violationsOption_parallel _ condition
    · exact Stmt.violationsSeq_parallel _ ss body
    · exact Stmt.violationsOption_parallel _ k increment
  | .breakLoop _, _, .breakLoop span => Context.parallel_require span
  | .skip _, _, .skip span => Context.parallel_require span
  | .giveBack .., _, .giveBack value span =>
    List.rel_append (Context.parallel_require span) (Expr.violationsOption_parallel c value)
  | .function f _, _, .function decl _ => by
    rw [Stmt.violations, Stmt.violations, decl.name_eq]
    exact Stmt.violationsFunc_parallel _ false f decl
  | .classDef d _, _, .classDef decl _ => by
    rw [Stmt.violations, Stmt.violations, decl.name_eq]
    exact Stmt.violationsClass_parallel _ d decl
  | .eval .., _, .eval value _ => Expr.violations_parallel c _ value
termination_by structural x => x

theorem Stmt.violationsOption_parallel (c : Context) : (s : Option Stmt) → {t : Option Stmt} →
    Option.Rel (Stmt.Parallel R) s t →
    Violation.ParallelList R (Stmt.violationsOption c s) (Stmt.violationsOption c t)
  | none, _, .none => .nil
  | some s, _, .some h => Stmt.violations_parallel c s h
termination_by structural x => x

theorem Stmt.violationsSeq_parallel (c : Context) : (ss : List Stmt) → {ts : List Stmt} →
    Stmt.ParallelBlock R ss ts →
    Violation.ParallelList R (Stmt.violationsSeq c ss) (Stmt.violationsSeq c ts)
  | [], _, .nil => .nil
  | s :: ss, _, .cons first others => by
    rw [Stmt.violationsSeq, Stmt.violationsSeq, first.declared_eq]
    exact List.rel_append (Stmt.violations_parallel c s first)
      (Stmt.violationsSeq_parallel _ ss others)
termination_by structural x => x

theorem Stmt.violationsElifs_parallel (c : Context) :
    (es : List (BranchOf Stmt)) → {fs : List (BranchOf Stmt)} →
    List.Forall₂ (BranchOf.Parallel R) es fs →
    Violation.ParallelList R (Stmt.violationsElifs c es) (Stmt.violationsElifs c fs)
  | [], _, .nil => .nil
  | ⟨_, ss⟩ :: es, _, .cons (.mk condition body) others => by
    rw [Stmt.violationsElifs, Stmt.violationsElifs, Stmt.ParallelBlock.hoisted_eq body]
    refine List.rel_append (List.rel_append ?_ ?_) ?_
    · exact Expr.violations_parallel c _ condition
    · exact Stmt.violationsSeq_parallel _ ss body
    · exact Stmt.violationsElifs_parallel c es others
termination_by structural x => x

theorem Stmt.violationsElse_parallel (c : Context) :
    (o : Option (List Stmt)) → {p : Option (List Stmt)} → Option.Rel (Stmt.ParallelBlock R) o p →
    Violation.ParallelList R (Stmt.violationsElse c o) (Stmt.violationsElse c p)
  | none, _, .none => .nil
  | some ss, _, .some body => by
    rw [Stmt.violationsElse, Stmt.violationsElse, Stmt.ParallelBlock.hoisted_eq body]
    exact Stmt.violationsSeq_parallel _ ss body
termination_by structural x => x

theorem Stmt.violationsFunc_parallel (c : Context) (isMethod : Bool) :
    (f : FuncOf Stmt) → {g : FuncOf Stmt} → f.Parallel R g →
    Violation.ParallelList R (Stmt.violationsFunc c isMethod f) (Stmt.violationsFunc c isMethod g)
  | ⟨_, _, _, ss, _⟩, _, .mk params body => by
    rw [Stmt.violationsFunc, Stmt.violationsFunc, Stmt.ParallelBlock.hoisted_eq body,
      c.enterFunction_eq_of_parallel params]
    exact Stmt.violationsSeq_parallel _ ss body
termination_by structural x => x

theorem Stmt.violationsMethods_parallel (c : Context) :
    (ms : List (FuncOf Stmt)) → {ns : List (FuncOf Stmt)} →
    List.Forall₂ (FuncOf.Parallel R) ms ns →
    Violation.ParallelList R (Stmt.violationsMethods c ms) (Stmt.violationsMethods c ns)
  | [], _, .nil => .nil
  | f :: ms, _, .cons first others =>
    List.rel_append (Stmt.violationsFunc_parallel c true f first)
      (Stmt.violationsMethods_parallel c ms others)
termination_by structural x => x

theorem Stmt.violationsClass_parallel (c : Context) :
    (d : ClassOf Stmt) → {d' : ClassOf Stmt} → d.Parallel R d' →
    Violation.ParallelList R (Stmt.violationsClass c d) (Stmt.violationsClass c d')
  | ⟨_, _, ms, _⟩, _, .mk _ methods => Stmt.violationsMethods_parallel c ms methods
termination_by structural x => x

end

/-- **The violations of parallel programs are parallel.** -/
theorem violations_parallel {ss ts : List Stmt} (h : Stmt.ParallelBlock R ss ts) :
    Violation.ParallelList R (violations ss) (violations ts) := by
  rw [violations, violations, h.hoisted_eq]
  exact Stmt.violationsSeq_parallel _ ss h

end Chalk
