import Chalk.Program.Violation
import Mathlib.Data.List.Forall2

/-!
# Parts of a program and what encloses them

A program is a tree of parts: statements, targets of assignments and expressions. A part has a path,
which says at each step which of the parts inside to go to; the paths in lexicographic order are the
order in which the program is checked. On the way down to a part lie its enclosures: blocks with the
statements in front of the part, bodies of loops, functions and methods, and `for` loops behind
their first clause.

What a rule asks for is said by the enclosures alone. A jump out of a loop asks for the body of a
loop that is nearer than any function; a name asks for an enclosure that declares it.

## Main definitions

* `Part`, `Part.inner` — parts, and those directly inside one
* `Enclosure` — what encloses a part
* `Part.At` — the part at a path, with its enclosures
* `Part.rule?` — the rule that a part must keep
* `Rule.Kept` — what the rules ask for
* `ViolatesAt` — a program breaks a rule at a path
* `Part.Edited` — two parts that differ at one path only

## Main results

* `Part.sizeOf_lt_of_mem_inner` — parts inside a part are smaller
-/

namespace Chalk

/-! ## Parts -/

/-- A part of a program. -/
inductive Part where
  | program (statements : List Stmt)
  | stmt (s : Stmt)
  | target (t : Target)
  | expr (e : Expr)

/-- What encloses a part. -/
inductive Enclosure where
  /-- A block: the statement that the part is in, and those in front of it and behind. -/
  | block (before : List Stmt) (here : Stmt) (after : List Stmt)
  /-- The body of a loop. -/
  | loopBody
  /-- A `for` loop behind its first clause. -/
  | loop (init : Option Stmt)
  | function (decl : Func)
  | method (decl : Func)
  /-- A function or class of the given name. -/
  | named (name : String)

/-- The statements of a block behind the given ones. -/
def Part.blockFrom (outer : List Enclosure) (before : List Stmt) :
    List Stmt → List (List Enclosure × Part)
  | [] => []
  | s :: after =>
    (.block before s after :: outer, .stmt s) :: Part.blockFrom outer (before ++ [s]) after

/-- The statements of a block. -/
def Part.block (outer : List Enclosure) (body : List Stmt) : List (List Enclosure × Part) :=
  Part.blockFrom outer [] body

/-- Expressions that are enclosed by nothing of the part that they are in. -/
def Part.exprs (es : List Expr) : List (List Enclosure × Part) := es.map fun e => ([], .expr e)

/-- The parts directly inside a part, in the order in which they are checked, each with its
enclosures up to there, the innermost first. The body of a `for` loop is checked before the last
clause. -/
def Part.inner : Part → List (List Enclosure × Part)
  | .program statements => Part.block [] statements
  | .stmt (.declare _ _ _ initial _) => Part.exprs initial.toList
  | .stmt (.assign t value _) => ([], .target t) :: Part.exprs [value]
  | .stmt (.print value _) => Part.exprs [value]
  | .stmt (.branch condition body elifs otherwise _) =>
    Part.exprs [condition] ++ Part.block [] body ++
      (elifs.flatMap fun branch => Part.exprs [branch.condition] ++ Part.block [] branch.body) ++
      otherwise.toList.flatMap (Part.block [])
  | .stmt (.whileLoop condition body _) =>
    Part.exprs [condition] ++ Part.block [.loopBody] body
  | .stmt (.forLoop init condition increment body _) =>
    (init.toList.map fun s => ([], .stmt s)) ++
      (condition.toList.map fun e => ([.loop init], .expr e)) ++
      Part.block [.loopBody, .loop init] body ++
      increment.toList.map fun s => ([.loop init], .stmt s)
  | .stmt (.breakLoop _) => []
  | .stmt (.skip _) => []
  | .stmt (.giveBack value _) => Part.exprs value.toList
  | .stmt (.function decl _) => Part.block [.function decl, .named decl.name] decl.body
  | .stmt (.classDef decl _) =>
    decl.methods.flatMap fun method => Part.block [.method method, .named decl.name] method.body
  | .stmt (.eval value _) => Part.exprs [value]
  | .target (.name ..) => []
  | .target (.index container position) => Part.exprs [container, position]
  | .target (.field object _) => Part.exprs [object]
  | .expr (.list items _) => Part.exprs items
  | .expr (.dict entries _) => Part.exprs (entries.flatMap fun entry => [entry.1, entry.2])
  | .expr (.binary _ left right _) => Part.exprs [left, right]
  | .expr (.logical _ left right _) => Part.exprs [left, right]
  | .expr (.unary _ operand _) => Part.exprs [operand]
  | .expr (.call callee arguments _) => Part.exprs (callee :: arguments)
  | .expr (.field object _ _) => Part.exprs [object]
  | .expr (.index container position _) => Part.exprs [container, position]
  | .expr (.number ..) => []
  | .expr (.string ..) => []
  | .expr (.boolean ..) => []
  | .expr (.name ..) => []
  | .expr (.receiver _) => []

/-- The part at a path, with its enclosures, the innermost first. -/
inductive Part.At : Part → List Nat → List Enclosure → Part → Prop where
  | here (p : Part) : Part.At p [] [] p
  | inside {p q r : Part} {i : Nat} {path : List Nat} {outer inner : List Enclosure}
      (part : p.inner[i]? = some (outer, q)) (below : q.At path inner r) :
      Part.At p (i :: path) (inner ++ outer) r

/-! ## Sizes of parts -/

theorem Part.exists_of_mem_exprs {part : List Enclosure × Part} {es : List Expr}
    (h : part ∈ Part.exprs es) : ∃ e ∈ es, part.2 = .expr e := by
  obtain ⟨e, he, rfl⟩ := List.mem_map.mp h
  exact ⟨e, he, rfl⟩

theorem Part.exists_of_mem_blockFrom {part : List Enclosure × Part} {outer : List Enclosure}
    {before after : List Stmt} (h : part ∈ Part.blockFrom outer before after) :
    ∃ s ∈ after, part.2 = .stmt s := by
  induction after generalizing before with
  | nil => cases h
  | cons s after ih =>
    rcases List.mem_cons.mp h with rfl | h
    · exact ⟨s, List.mem_cons_self, rfl⟩
    · obtain ⟨t, ht, hpart⟩ := ih h
      exact ⟨t, List.mem_cons_of_mem _ ht, hpart⟩

theorem Part.sizeOf_le_of_mem_block {part : List Enclosure × Part} {outer : List Enclosure}
    {body : List Stmt} (h : part ∈ Part.block outer body) : sizeOf part.2 ≤ sizeOf body := by
  obtain ⟨s, hs, hpart⟩ := Part.exists_of_mem_blockFrom h
  have hlt := List.sizeOf_lt_of_mem hs
  rw [hpart, Part.stmt.sizeOf_spec]
  omega

theorem Part.sizeOf_lt_of_mem_exprs {part : List Enclosure × Part} {es : List Expr} {n : Nat}
    (h : part ∈ Part.exprs es) (hn : ∀ e ∈ es, sizeOf e < n) : sizeOf part.2 < n + 1 := by
  obtain ⟨e, he, hpart⟩ := Part.exists_of_mem_exprs h
  have hlt := hn e he
  rw [hpart, Part.expr.sizeOf_spec]
  omega

theorem Part.sizeOf_lt_of_mem_exprs_option {part : List Enclosure × Part} {e : Option Expr}
    {n : Nat} (h : part ∈ Part.exprs e.toList) (hn : sizeOf e ≤ n) : sizeOf part.2 < n + 1 := by
  refine Part.sizeOf_lt_of_mem_exprs h fun e' he => ?_
  cases Option.mem_toList.mp he
  rw [Option.some.sizeOf_spec] at hn
  omega

theorem Expr.sizeOf_lt_of_mem_entries {e : Expr} {entries : List (Expr × Expr)}
    (h : e ∈ entries.flatMap fun entry => [entry.1, entry.2]) : sizeOf e < sizeOf entries := by
  obtain ⟨⟨key, value⟩, hentry, he⟩ := List.mem_flatMap.mp h
  have hlt := List.sizeOf_lt_of_mem hentry
  rw [Prod.mk.sizeOf_spec] at hlt
  simp only [List.mem_cons, List.not_mem_nil, or_false] at he
  obtain rfl | rfl := he <;> omega

theorem Part.sizeOf_lt_of_mem_expr {e : Expr} {part : List Enclosure × Part}
    (h : part ∈ (Part.expr e).inner) : sizeOf part.2 < sizeOf e + 1 := by
  cases e with
  | number | string | boolean | name | receiver => cases h
  | dict entries span =>
    refine Part.sizeOf_lt_of_mem_exprs h fun e he => ?_
    have hlt := Expr.sizeOf_lt_of_mem_entries he
    rw [Expr.dict.sizeOf_spec]
    omega
  | list items span =>
    refine Part.sizeOf_lt_of_mem_exprs h fun e he => ?_
    have hlt := List.sizeOf_lt_of_mem he
    rw [Expr.list.sizeOf_spec]
    omega
  | call callee arguments span =>
    refine Part.sizeOf_lt_of_mem_exprs h fun e he => ?_
    rw [Expr.call.sizeOf_spec]
    rcases List.mem_cons.mp he with rfl | he
    · omega
    · have hlt := List.sizeOf_lt_of_mem he
      omega
  | binary | logical | unary | field | index =>
    refine Part.sizeOf_lt_of_mem_exprs h ?_
    simp
    omega

theorem Part.sizeOf_lt_of_mem_target {t : Target} {part : List Enclosure × Part}
    (h : part ∈ (Part.target t).inner) : sizeOf part.2 < sizeOf t + 1 := by
  cases t with
  | name => cases h
  | index | field =>
    refine Part.sizeOf_lt_of_mem_exprs h ?_
    simp
    omega

theorem Part.sizeOf_lt_of_mem_stmt {s : Stmt} {part : List Enclosure × Part}
    (h : part ∈ (Part.stmt s).inner) : sizeOf part.2 < sizeOf s + 1 := by
  cases s with
  | breakLoop | skip => cases h
  | declare constant tag name initial span =>
    refine Part.sizeOf_lt_of_mem_exprs_option h ?_
    rw [Stmt.declare.sizeOf_spec]
    omega
  | giveBack value span =>
    refine Part.sizeOf_lt_of_mem_exprs_option h ?_
    rw [Stmt.giveBack.sizeOf_spec]
    omega
  | print | eval =>
    refine Part.sizeOf_lt_of_mem_exprs h ?_
    simp
    omega
  | assign t value span =>
    rcases List.mem_cons.mp h with rfl | h
    · simp
      omega
    · refine Part.sizeOf_lt_of_mem_exprs h ?_
      simp
      omega
  | function decl span =>
    obtain ⟨name, params, returns, body, span'⟩ := decl
    have hle := Part.sizeOf_le_of_mem_block h
    simp at hle ⊢
    omega
  | whileLoop condition body span =>
    rcases List.mem_append.mp h with h | h
    · refine Part.sizeOf_lt_of_mem_exprs h ?_
      simp
      omega
    · have hle := Part.sizeOf_le_of_mem_block h
      rw [Stmt.whileLoop.sizeOf_spec]
      omega
  | classDef decl span =>
    obtain ⟨name, fields, methods, span'⟩ := decl
    obtain ⟨⟨_, _, _, body, _⟩, hmethod, h⟩ := List.mem_flatMap.mp h
    have hlt := List.sizeOf_lt_of_mem hmethod
    have hle := Part.sizeOf_le_of_mem_block h
    simp at hlt hle ⊢
    omega
  | forLoop init condition increment body span =>
    simp only [Part.inner, List.mem_append, List.mem_map, Option.mem_toList] at h
    rw [Stmt.forLoop.sizeOf_spec]
    rcases h with ((⟨s, rfl, rfl⟩ | ⟨e, rfl, rfl⟩) | h) | ⟨s, rfl, rfl⟩
    · simp
      omega
    · simp
      omega
    · have hle := Part.sizeOf_le_of_mem_block h
      omega
    · simp
      omega
  | branch condition body elifs otherwise span =>
    simp only [Part.inner, List.mem_append, List.mem_flatMap, Option.mem_toList] at h
    rw [Stmt.branch.sizeOf_spec]
    rcases h with ((h | h) | ⟨⟨condition', body'⟩, hbranch, h | h⟩) | ⟨body', rfl, h⟩
    · refine Part.sizeOf_lt_of_mem_exprs h ?_
      simp
      omega
    · have hle := Part.sizeOf_le_of_mem_block h
      omega
    · have hlt := List.sizeOf_lt_of_mem hbranch
      refine Part.sizeOf_lt_of_mem_exprs h ?_
      simp at hlt ⊢
      omega
    · have hlt := List.sizeOf_lt_of_mem hbranch
      have hle := Part.sizeOf_le_of_mem_block h
      simp at hlt hle ⊢
      omega
    · have hle := Part.sizeOf_le_of_mem_block h
      simp
      omega

/-- Parts inside a part are smaller. -/
theorem Part.sizeOf_lt_of_mem_inner {p : Part} {part : List Enclosure × Part}
    (h : part ∈ p.inner) : sizeOf part.2 < sizeOf p := by
  cases p with
  | program statements =>
    have hle := Part.sizeOf_le_of_mem_block h
    rw [Part.program.sizeOf_spec]
    omega
  | stmt s =>
    rw [Part.stmt.sizeOf_spec, Nat.add_comm]
    exact Part.sizeOf_lt_of_mem_stmt h
  | target t =>
    rw [Part.target.sizeOf_spec, Nat.add_comm]
    exact Part.sizeOf_lt_of_mem_target h
  | expr e =>
    rw [Part.expr.sizeOf_spec, Nat.add_comm]
    exact Part.sizeOf_lt_of_mem_expr h

/-! ## What the rules ask for -/

/-- The rule that a part must keep, as the violation that it is otherwise. -/
def Part.rule? : Part → Option Violation
  | .stmt (.breakLoop span) => some ⟨.breakOutsideLoop, span⟩
  | .stmt (.skip span) => some ⟨.skipOutsideLoop, span⟩
  | .stmt (.giveBack _ span) => some ⟨.returnOutsideFunction, span⟩
  | .expr (.receiver span) => some ⟨.thisOutsideMethod, span⟩
  | .expr (.name id span) => some ⟨.undefinedVariable id, span⟩
  | .target (.name id span) => some ⟨.undefinedVariable id, span⟩
  | _ => none

/-- The body of a function or method. -/
def Enclosure.IsBody : Enclosure → Prop
  | .function _ | .method _ => True
  | _ => False

/-- The name of the variable that a statement declares. -/
def Stmt.variable? : Stmt → Option String
  | .declare _ _ name _ _ => some name
  | _ => none

/-- The enclosure declares the name: as a function or class anywhere in a block, as a variable in
front of the part, in the first clause of a loop, as a parameter, or as its own name. -/
def Enclosure.Declares (name : String) : Enclosure → Prop
  | .block before here after =>
    (∃ s ∈ before ++ here :: after, name ∈ s.hoisted) ∨ ∃ s ∈ before, s.variable? = some name
  | .loopBody => False
  | .loop init => ∃ s ∈ init, name ∈ s.declared
  | .function decl | .method decl => ∃ slot ∈ decl.params, slot.name = name
  | .named own => own = name

/-- What a rule asks for of the enclosures of a part, the innermost first. -/
def Rule.Kept (around : List Enclosure) : Rule → Prop
  | .breakOutsideLoop | .skipOutsideLoop =>
    ∃ inner outer, around = inner ++ .loopBody :: outer ∧ ∀ e ∈ inner, ¬ e.IsBody
  | .returnOutsideFunction => ∃ e ∈ around, e.IsBody
  | .thisOutsideMethod => ∃ decl, .method decl ∈ around
  | .undefinedVariable name =>
    name ∈ Native.all.map Native.name ∨ ∃ e ∈ around, e.Declares name

/-- A part breaks a rule at a path, if it has the given enclosures itself. -/
def Part.ViolatesAt (p : Part) (around : List Enclosure) (path : List Nat) (v : Violation) :
    Prop :=
  ∃ inner q, p.At path inner q ∧ q.rule? = some v ∧ ¬ v.rule.Kept (inner ++ around)

/-- A program breaks a rule at a path. -/
def ViolatesAt (program : List Stmt) (path : List Nat) (v : Violation) : Prop :=
  (Part.program program).ViolatesAt [] path v

/-! ## Programs that differ at one place -/

/-- The names that a part declares for the block it stands in, in front of itself and behind. -/
def Part.names : Part → List String × Option String
  | .stmt s => (s.hoisted, s.variable?)
  | _ => ([], none)

/-- Two enclosures that agree in all that rules ask for. -/
inductive Enclosure.Alike : Enclosure → Enclosure → Prop where
  | block {before before' after after' : List Stmt} {here here' : Stmt}
      (hoisted : (before ++ here :: after).flatMap Stmt.hoisted =
        (before' ++ here' :: after').flatMap Stmt.hoisted)
      (declared : before.filterMap Stmt.variable? = before'.filterMap Stmt.variable?) :
      Enclosure.Alike (.block before here after) (.block before' here' after')
  | loopBody : Enclosure.Alike .loopBody .loopBody
  | loop {init init' : Option Stmt}
      (declared : init.toList.flatMap Stmt.declared = init'.toList.flatMap Stmt.declared) :
      Enclosure.Alike (.loop init) (.loop init')
  | function {decl decl' : Func} (params : decl.params = decl'.params) :
      Enclosure.Alike (.function decl) (.function decl')
  | method {decl decl' : Func} (params : decl.params = decl'.params) :
      Enclosure.Alike (.method decl) (.method decl')
  | named (name : String) : Enclosure.Alike (.named name) (.named name)

/-- Two parts that differ only inside the parts at a path, which declare the same names. -/
inductive Part.Edited : Part → Part → List Nat → Prop where
  | here {p p' : Part} (names : p.names = p'.names) : Part.Edited p p' []
  | inside {p p' q q' : Part} {i : Nat} {path : List Nat} {outer outer' : List Enclosure}
      (rule : p.rule? = p'.rule?)
      (part : p.inner[i]? = some (outer, q)) (part' : p'.inner[i]? = some (outer', q'))
      (alike : List.Forall₂ Enclosure.Alike outer outer') (edited : q.Edited q' path)
      (others : ∀ j, j ≠ i → Option.Rel
        (fun x y => x.2 = y.2 ∧ List.Forall₂ Enclosure.Alike x.1 y.1) p.inner[j]? p'.inner[j]?) :
      Part.Edited p p' (i :: path)

end Chalk
