import Chalk.Program.Violation

/-!
# Places in a program

Where a statement stands, read off the program alone. A program is a block, and so are the bodies of
branches, loops, functions and methods; each clause of a `for` loop is a block of its own.
A place has the blocks around it, the innermost first, and the names that are bound when a run comes
by: the built-in functions, the parameters and loop variables around it, and whatever the statements
before it in its blocks declare. What a block declares further down is not among them.

## Main definitions

* `Place` — the blocks around a place, and the names bound there
* `StandsAt` — the rest of a block stands at a place
* `Expr.references`, `Stmt.references` — the names that are read or assigned, with their spans
* `RefersAt` — a name is read or assigned at a place
* `Hoisted` — a function or class of that name is declared in one of some blocks
-/

namespace Chalk

/-! ## Blocks -/

/-- The blocks around a place, the innermost first, and the names that are bound there. -/
structure Place where
  blocks : List (List Stmt)
  bound : List String

namespace Place

/-- The start of a program. -/
def outermost (program : List Stmt) : Place :=
  { blocks := [program], bound := Native.all.map Native.name }

/-- A place where more names are bound. -/
def declare (p : Place) (names : List String) : Place := { p with bound := names ++ p.bound }

/-- The start of a block. -/
def enter (p : Place) (body : List Stmt) : Place := { p with blocks := body :: p.blocks }

end Place

/-- The names that a `for` loop binds before its first turn. -/
def Stmt.loopNames : Stmt → List String
  | .forLoop init _ _ _ _ => (init.map Stmt.declared).getD []
  | _ => []

/-- The names of the parameters of a function. -/
def FuncOf.paramNames (decl : Func) : List String := decl.params.map Slot.name

/-- The blocks directly inside a statement, each with the names that are bound on entering it. -/
def Stmt.blocks (s : Stmt) : List (List String × List Stmt) :=
  match s with
  | .branch _ body elifs otherwise _ =>
    (body :: elifs.map BranchOf.body ++ otherwise.toList).map fun block => ([], block)
  | .whileLoop _ body _ => [([], body)]
  | .forLoop _ _ _ body _ => [(s.loopNames, body)]
  | .function decl _ => [(decl.paramNames, decl.body)]
  | .classDef decl _ => decl.methods.map fun method => (method.paramNames, method.body)
  | _ => []

section Branches

variable {condition : Expr} {body : List Stmt} {elifs : List (BranchOf Stmt)}
  {otherwise : Option (List Stmt)} {span : Span}

theorem Stmt.elif_mem_blocks {branch : BranchOf Stmt} (h : branch ∈ elifs) :
    ([], branch.body) ∈ (Stmt.branch condition body elifs otherwise span).blocks := by
  refine List.mem_map.mpr ⟨branch.body, List.mem_append_left _ ?_, rfl⟩
  exact List.mem_cons_of_mem _ (List.mem_map.mpr ⟨branch, h, rfl⟩)

theorem Stmt.else_mem_blocks {block : List Stmt} (h : otherwise = some block) :
    ([], block) ∈ (Stmt.branch condition body elifs otherwise span).blocks := by
  refine List.mem_map.mpr ⟨block, List.mem_append_right _ ?_, rfl⟩
  rw [h]
  exact List.mem_singleton.mpr rfl

end Branches

/-- The clauses of a statement, each with the names that are bound before it. -/
def Stmt.clauses (s : Stmt) : List (List String × Stmt) :=
  match s with
  | .forLoop init _ increment _ _ =>
    init.toList.map (fun t => ([], t)) ++ increment.toList.map fun t => (s.loopNames, t)
  | _ => []

/-- The statements are the rest of a block of the program, from the given place on. -/
inductive StandsAt (program : List Stmt) : Place → List Stmt → Prop where
  | start : StandsAt program (.outermost program) program
  | next {p : Place} {s : Stmt} {rest : List Stmt} (h : StandsAt program p (s :: rest)) :
      StandsAt program (p.declare s.declared) rest
  | block {p : Place} {s : Stmt} {rest body : List Stmt} {names : List String}
      (h : StandsAt program p (s :: rest)) (hbody : (names, body) ∈ s.blocks) :
      StandsAt program ((p.declare names).enter body) body
  | clause {p : Place} {s t : Stmt} {rest : List Stmt} {names : List String}
      (h : StandsAt program p (s :: rest)) (ht : (names, t) ∈ s.clauses) :
      StandsAt program ((p.declare names).enter [t]) [t]

/-- A block that binds no names on entering it. -/
theorem StandsAt.inner {program : List Stmt} {p : Place} {s : Stmt} {rest body : List Stmt}
    (h : StandsAt program p (s :: rest)) (hbody : ([], body) ∈ s.blocks) :
    StandsAt program (p.enter body) body :=
  h.block hbody

/-- A function or class of that name is declared in one of the blocks. -/
def Hoisted (blocks : List (List Stmt)) (name : String) : Prop :=
  ∃ block ∈ blocks, ∃ d ∈ block, name ∈ d.hoisted

theorem Hoisted.cons {blocks : List (List Stmt)} {name : String} (h : Hoisted blocks name)
    (body : List Stmt) : Hoisted (body :: blocks) name := by
  obtain ⟨block, hblock, d, hd, hname⟩ := h
  exact ⟨block, List.mem_cons_of_mem _ hblock, d, hd, hname⟩

theorem hoisted_of_mem_flatMap {body : List Stmt} {name : String}
    (h : name ∈ body.flatMap Stmt.hoisted) (blocks : List (List Stmt)) :
    Hoisted (body :: blocks) name := by
  obtain ⟨d, hd, hname⟩ := List.mem_flatMap.mp h
  exact ⟨body, List.mem_cons_self, d, hd, hname⟩

/-- Functions and classes of a block are declared in one of the blocks around each place in it. -/
theorem StandsAt.hoisted {program : List Stmt} {p : Place} {ss : List Stmt}
    (h : StandsAt program p ss) {s : Stmt} (hs : s ∈ ss) {name : String}
    (hname : name ∈ s.hoisted) : Hoisted p.blocks name := by
  induction h with
  | start => exact ⟨program, List.mem_cons_self, s, hs, hname⟩
  | next _ ih => exact ih (List.mem_cons_of_mem _ hs)
  | @block _ _ _ body => exact ⟨body, List.mem_cons_self, s, hs, hname⟩
  | @clause _ _ t => exact ⟨[t], List.mem_cons_self, s, hs, hname⟩

/-! ## References -/

mutual

/-- The names that an expression reads, with their spans. -/
def Expr.references : Expr → List (String × Span)
  | .number .. => []
  | .string .. => []
  | .boolean .. => []
  | .name id span => [(id, span)]
  | .receiver _ => []
  | .list items _ => Expr.referencesList items
  | .dict entries _ => Expr.referencesEntries entries
  | .binary _ left right _ => left.references ++ right.references
  | .logical _ left right _ => left.references ++ right.references
  | .unary _ operand _ => operand.references
  | .call callee arguments _ => callee.references ++ Expr.referencesList arguments
  | .field object _ _ => object.references
  | .index container position _ => container.references ++ position.references

/-- The names that some expressions read. -/
def Expr.referencesList : List Expr → List (String × Span)
  | [] => []
  | e :: es => e.references ++ Expr.referencesList es

/-- The names that the entries of a dict read. -/
def Expr.referencesEntries : List (Expr × Expr) → List (String × Span)
  | [] => []
  | (key, value) :: entries => key.references ++ value.references ++ Expr.referencesEntries entries

end

/-- The names that an expression reads, if there is one. -/
def Expr.referencesOption : Option Expr → List (String × Span)
  | none => []
  | some e => e.references

/-- The names that the target of an assignment reads or assigns. -/
def Target.references : Target → List (String × Span)
  | .name id span => [(id, span)]
  | .index container position => container.references ++ position.references
  | .field object _ => object.references

/-- The names that a statement reads or assigns itself, outside the statements inside it. -/
def Stmt.references : Stmt → List (String × Span)
  | .declare _ _ _ initial _ => Expr.referencesOption initial
  | .assign target value _ => target.references ++ value.references
  | .print value _ => value.references
  | .branch condition _ elifs _ _ =>
    condition.references ++ elifs.flatMap fun branch => branch.condition.references
  | .whileLoop condition _ _ => condition.references
  | .forLoop _ condition _ _ _ => Expr.referencesOption condition
  | .giveBack value _ => Expr.referencesOption value
  | .eval value _ => value.references
  | .breakLoop _ => []
  | .skip _ => []
  | .function .. => []
  | .classDef .. => []

/-- A statement of the program reads or assigns a name at a place, which for the condition of a
`for` loop lies after its declaration. -/
def RefersAt (program : List Stmt) (p : Place) (reference : String × Span) : Prop :=
  ∃ q s rest, StandsAt program q (s :: rest) ∧ reference ∈ s.references ∧
    p = q.declare s.loopNames

/-- The conditions of all branches stand at the place of the first. -/
theorem StandsAt.refersAt_elif {program rest body : List Stmt} {p : Place} {condition : Expr}
    {elifs : List (BranchOf Stmt)} {otherwise : Option (List Stmt)} {span : Span}
    (h : StandsAt program p (.branch condition body elifs otherwise span :: rest))
    {branch : BranchOf Stmt} (hbranch : branch ∈ elifs) :
    ∀ r ∈ branch.condition.references, RefersAt program p r :=
  fun _ hr => ⟨p, _, rest, h,
    List.mem_append_right _ (List.mem_flatMap.mpr ⟨branch, hbranch, hr⟩), rfl⟩

end Chalk
