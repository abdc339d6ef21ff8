import Chalk.Program.Parser
import Chalk.Token.Lexer

/-!
# Moved regions

A text that is put behind another one keeps its tokens and its tree; only the regions of source that
they carry are moved. A relocation moves regions so that joined regions stay joined. It acts on
everything that carries regions: tokens, expressions, statements and errors.

## Main definitions

* `Relocation`, `Relocation.id`, `Relocation.shift` — how regions are moved
* `Expr.relocate`, `Stmt.relocate` — trees with all their regions moved

## Main results

* `Expr.relocate_id`, `Stmt.relocate_id` — moving by nothing
* `Expr.span_relocate`, `Stmt.relocate_withSpan` and others — how relocation goes with what the
  parser does to trees
-/

namespace Chalk

/-- A way to move regions that goes with joining them. -/
structure Relocation where
  move : Span → Span
  through : ∀ a b, move (a.through b) = (move a).through (move b)

namespace Relocation

/-- Nothing is moved. -/
def id : Relocation := ⟨fun span => span, fun _ _ => rfl⟩

/-- Everything is moved by some bytes and some lines. -/
def shift (bytes lines : Nat) : Relocation where
  move span := ⟨span.start + bytes, span.stop + bytes, span.line + lines, span.column⟩
  through a b := by simp [Span.through, Nat.add_max_add_right]

@[simp] theorem move_id (span : Span) : id.move span = span := rfl

end Relocation

/-- The token at its new place. -/
def Token.relocate (r : Relocation) (t : Token) : Token := { t with span := r.move t.span }

/-- The error at its new place. -/
def LexError.relocate (r : Relocation) (e : LexError) : LexError := { e with span := r.move e.span }

/-- The error at its new place. -/
def ParseError.relocate (r : Relocation) (e : ParseError) : ParseError :=
  { e with span := r.move e.span }

@[simp] theorem Token.kind_relocate (r : Relocation) (t : Token) : (t.relocate r).kind = t.kind :=
  rfl

@[simp] theorem Token.relocate_id (t : Token) : t.relocate .id = t := rfl

/-! ## Expressions -/

mutual

/-- The expression with all its regions moved. -/
def Expr.relocate (r : Relocation) : Expr → Expr
  | .number value span => .number value (r.move span)
  | .string content span => .string content (r.move span)
  | .boolean value span => .boolean value (r.move span)
  | .name id span => .name id (r.move span)
  | .receiver span => .receiver (r.move span)
  | .list items span => .list (Expr.relocateList r items) (r.move span)
  | .dict entries span => .dict (Expr.relocateEntries r entries) (r.move span)
  | .binary op left right span =>
    .binary op (left.relocate r) (right.relocate r) (r.move span)
  | .logical op left right span =>
    .logical op (left.relocate r) (right.relocate r) (r.move span)
  | .unary op operand span => .unary op (operand.relocate r) (r.move span)
  | .call callee arguments span =>
    .call (callee.relocate r) (Expr.relocateList r arguments) (r.move span)
  | .field object id span => .field (object.relocate r) id (r.move span)
  | .index container position span =>
    .index (container.relocate r) (position.relocate r) (r.move span)

/-- The expressions with all their regions moved. -/
def Expr.relocateList (r : Relocation) : List Expr → List Expr
  | [] => []
  | e :: es => e.relocate r :: Expr.relocateList r es

/-- The entries of a dict with all their regions moved. -/
def Expr.relocateEntries (r : Relocation) : List (Expr × Expr) → List (Expr × Expr)
  | [] => []
  | (key, value) :: entries => (key.relocate r, value.relocate r) :: Expr.relocateEntries r entries

end

/-- The entry of a dict with all its regions moved. -/
def Expr.relocateEntry (r : Relocation) (entry : Expr × Expr) : Expr × Expr :=
  (entry.1.relocate r, entry.2.relocate r)

/-- The target with all its regions moved. -/
def Target.relocate (r : Relocation) : Target → Target
  | .name id span => .name id (r.move span)
  | .index container position => .index (container.relocate r) (position.relocate r)
  | .field object id => .field (object.relocate r) id

/-- The parameter or field with its region moved. -/
def Slot.relocate (r : Relocation) (slot : Slot) : Slot := { slot with span := r.move slot.span }

/-! ## Statements -/

mutual

/-- The statement with all its regions moved. -/
def Stmt.relocate (r : Relocation) : Stmt → Stmt
  | .declare constant tag name initial span =>
    .declare constant tag name (initial.map (Expr.relocate r)) (r.move span)
  | .assign target value span => .assign (target.relocate r) (value.relocate r) (r.move span)
  | .print value span => .print (value.relocate r) (r.move span)
  | .branch condition body elifs otherwise span =>
    .branch (condition.relocate r) (Stmt.relocateBlock r body) (Stmt.relocateElifs r elifs)
      (Stmt.relocateElse r otherwise) (r.move span)
  | .whileLoop condition body span =>
    .whileLoop (condition.relocate r) (Stmt.relocateBlock r body) (r.move span)
  | .forLoop init condition increment body span =>
    .forLoop (Stmt.relocateOption r init) (condition.map (Expr.relocate r))
      (Stmt.relocateOption r increment) (Stmt.relocateBlock r body) (r.move span)
  | .breakLoop span => .breakLoop (r.move span)
  | .skip span => .skip (r.move span)
  | .giveBack value span => .giveBack (value.map (Expr.relocate r)) (r.move span)
  | .function decl span => .function (Stmt.relocateFunc r decl) (r.move span)
  | .classDef decl span => .classDef (Stmt.relocateClass r decl) (r.move span)
  | .eval value span => .eval (value.relocate r) (r.move span)

/-- The block with all its regions moved. -/
def Stmt.relocateBlock (r : Relocation) : List Stmt → List Stmt
  | [] => []
  | s :: rest => s.relocate r :: Stmt.relocateBlock r rest

/-- The clause of a `for` with all its regions moved. -/
def Stmt.relocateOption (r : Relocation) : Option Stmt → Option Stmt
  | none => none
  | some s => some (s.relocate r)

/-- The `elif` branches with all their regions moved. -/
def Stmt.relocateElifs (r : Relocation) : List (BranchOf Stmt) → List (BranchOf Stmt)
  | [] => []
  | ⟨condition, body⟩ :: rest =>
    ⟨condition.relocate r, Stmt.relocateBlock r body⟩ :: Stmt.relocateElifs r rest

/-- The `else` block with all its regions moved. -/
def Stmt.relocateElse (r : Relocation) : Option (List Stmt) → Option (List Stmt)
  | none => none
  | some body => some (Stmt.relocateBlock r body)

/-- The function with all its regions moved. -/
def Stmt.relocateFunc (r : Relocation) : FuncOf Stmt → FuncOf Stmt
  | ⟨name, params, returns, body, span⟩ =>
    ⟨name, params.map (Slot.relocate r), returns, Stmt.relocateBlock r body, r.move span⟩

/-- The methods with all their regions moved. -/
def Stmt.relocateMethods (r : Relocation) : List (FuncOf Stmt) → List (FuncOf Stmt)
  | [] => []
  | method :: rest => Stmt.relocateFunc r method :: Stmt.relocateMethods r rest

/-- The class with all its regions moved. -/
def Stmt.relocateClass (r : Relocation) : ClassOf Stmt → ClassOf Stmt
  | ⟨name, fields, methods, span⟩ =>
    ⟨name, fields.map (Slot.relocate r), Stmt.relocateMethods r methods, r.move span⟩

end

/-- The branch with all its regions moved. -/
def Stmt.relocateBranch (r : Relocation) (branch : BranchOf Stmt) : BranchOf Stmt :=
  ⟨branch.condition.relocate r, Stmt.relocateBlock r branch.body⟩

/-- What was parsed, with all its regions moved. -/
def Parsed.relocate (r : Relocation) (p : Parsed) : Parsed :=
  ⟨p.statements.map (Stmt.relocate r), p.failure.map (ParseError.relocate r)⟩

section Maps

variable (r : Relocation)

theorem Expr.relocateList_eq_map (es : List Expr) :
    Expr.relocateList r es = es.map (Expr.relocate r) := by
  induction es with
  | nil => rfl
  | cons e es ih => rw [Expr.relocateList, ih, List.map_cons]

theorem Expr.relocateEntries_eq_map (entries : List (Expr × Expr)) :
    Expr.relocateEntries r entries = entries.map (Expr.relocateEntry r) := by
  induction entries with
  | nil => rfl
  | cons entry entries ih => rw [Expr.relocateEntries, ih, List.map_cons]; rfl

theorem Stmt.relocateBlock_eq_map (ss : List Stmt) :
    Stmt.relocateBlock r ss = ss.map (Stmt.relocate r) := by
  induction ss with
  | nil => rfl
  | cons s ss ih => rw [Stmt.relocateBlock, ih, List.map_cons]

theorem Stmt.relocateOption_eq_map (s : Option Stmt) :
    Stmt.relocateOption r s = s.map (Stmt.relocate r) := by
  cases s <;> rfl

theorem Stmt.relocateElifs_eq_map (elifs : List (BranchOf Stmt)) :
    Stmt.relocateElifs r elifs = elifs.map (Stmt.relocateBranch r) := by
  induction elifs with
  | nil => rfl
  | cons branch elifs ih => rw [Stmt.relocateElifs, ih, List.map_cons]; rfl

theorem Stmt.relocateElse_eq_map (otherwise : Option (List Stmt)) :
    Stmt.relocateElse r otherwise = otherwise.map (Stmt.relocateBlock r) := by
  cases otherwise <;> rfl

theorem Stmt.relocateMethods_eq_map (methods : List (FuncOf Stmt)) :
    Stmt.relocateMethods r methods = methods.map (Stmt.relocateFunc r) := by
  induction methods with
  | nil => rfl
  | cons method methods ih => rw [Stmt.relocateMethods, ih, List.map_cons]

/-! ## Relocation and what the parser does to trees -/

@[simp] theorem Expr.span_relocate (e : Expr) : (e.relocate r).span = r.move e.span := by
  cases e <;> rfl

theorem Expr.relocate_mkBinary (op : BinaryOp) (left right : Expr) :
    (Expr.mkBinary op left right).relocate r =
      .mkBinary op (left.relocate r) (right.relocate r) := by
  simp only [Expr.mkBinary, Expr.relocate, Expr.span_relocate, r.through]

theorem Expr.relocate_mkLogical (op : LogicalOp) (left right : Expr) :
    (Expr.mkLogical op left right).relocate r =
      .mkLogical op (left.relocate r) (right.relocate r) := by
  simp only [Expr.mkLogical, Expr.relocate, Expr.span_relocate, r.through]

theorem Expr.toTarget?_relocate (e : Expr) :
    (e.relocate r).toTarget? = e.toTarget?.map (Target.relocate r) := by
  cases e <;> rfl

theorem Stmt.relocate_withSpan (s : Stmt) (span : Span) :
    (s.withSpan span).relocate r = (s.relocate r).withSpan (r.move span) := by
  cases s <;> rfl

end Maps

/-! ## Moving by nothing -/

mutual

theorem Expr.relocate_id (e : Expr) : e.relocate .id = e := by
  match e with
  | .number .. | .string .. | .boolean .. | .name .. | .receiver .. => rfl
  | .list items span => rw [Expr.relocate, Expr.relocateList_id, Relocation.move_id]
  | .dict entries span => rw [Expr.relocate, Expr.relocateEntries_id, Relocation.move_id]
  | .binary op left right span | .logical op left right span =>
    rw [Expr.relocate, left.relocate_id, right.relocate_id, Relocation.move_id]
  | .unary op operand span => rw [Expr.relocate, operand.relocate_id, Relocation.move_id]
  | .call callee arguments span =>
    rw [Expr.relocate, callee.relocate_id, Expr.relocateList_id, Relocation.move_id]
  | .field object id span => rw [Expr.relocate, object.relocate_id, Relocation.move_id]
  | .index container position span =>
    rw [Expr.relocate, container.relocate_id, position.relocate_id, Relocation.move_id]

theorem Expr.relocateList_id (es : List Expr) : Expr.relocateList .id es = es := by
  match es with
  | [] => rfl
  | e :: es => rw [Expr.relocateList, e.relocate_id, Expr.relocateList_id es]

theorem Expr.relocateEntries_id (entries : List (Expr × Expr)) :
    Expr.relocateEntries .id entries = entries := by
  match entries with
  | [] => rfl
  | (key, value) :: entries =>
    rw [Expr.relocateEntries, key.relocate_id, value.relocate_id, Expr.relocateEntries_id entries]

end

theorem Expr.map_relocate_id (e : Option Expr) : e.map (Expr.relocate .id) = e := by
  cases e with
  | none => rfl
  | some e => rw [Option.map_some, e.relocate_id]

theorem Target.relocate_id (target : Target) : target.relocate .id = target := by
  cases target with
  | name => rfl
  | index container position =>
    rw [Target.relocate, container.relocate_id, position.relocate_id]
  | field object id => rw [Target.relocate, object.relocate_id]

theorem Slot.map_relocate_id (slots : List Slot) : slots.map (Slot.relocate .id) = slots :=
  List.map_id' slots

mutual

theorem Stmt.relocate_id (s : Stmt) : s.relocate .id = s := by
  match s with
  | .declare constant tag name initial span =>
    rw [Stmt.relocate, Expr.map_relocate_id, Relocation.move_id]
  | .assign target value span =>
    rw [Stmt.relocate, target.relocate_id, value.relocate_id, Relocation.move_id]
  | .print value span | .eval value span =>
    rw [Stmt.relocate, value.relocate_id, Relocation.move_id]
  | .branch condition body elifs otherwise span =>
    rw [Stmt.relocate, condition.relocate_id, Stmt.relocateBlock_id body,
      Stmt.relocateElifs_id elifs, Stmt.relocateElse_id otherwise, Relocation.move_id]
  | .whileLoop condition body span =>
    rw [Stmt.relocate, condition.relocate_id, Stmt.relocateBlock_id body, Relocation.move_id]
  | .forLoop init condition increment body span =>
    rw [Stmt.relocate, Stmt.relocateOption_id init, Expr.map_relocate_id,
      Stmt.relocateOption_id increment, Stmt.relocateBlock_id body, Relocation.move_id]
  | .breakLoop .. | .skip .. => rfl
  | .giveBack value span => rw [Stmt.relocate, Expr.map_relocate_id, Relocation.move_id]
  | .function decl span => rw [Stmt.relocate, Stmt.relocateFunc_id decl, Relocation.move_id]
  | .classDef decl span => rw [Stmt.relocate, Stmt.relocateClass_id decl, Relocation.move_id]

theorem Stmt.relocateBlock_id (ss : List Stmt) : Stmt.relocateBlock .id ss = ss := by
  match ss with
  | [] => rfl
  | s :: rest => rw [Stmt.relocateBlock, s.relocate_id, Stmt.relocateBlock_id rest]

theorem Stmt.relocateOption_id (s : Option Stmt) : Stmt.relocateOption .id s = s := by
  match s with
  | none => rfl
  | some s => rw [Stmt.relocateOption, s.relocate_id]

theorem Stmt.relocateElifs_id (elifs : List (BranchOf Stmt)) :
    Stmt.relocateElifs .id elifs = elifs := by
  match elifs with
  | [] => rfl
  | ⟨condition, body⟩ :: rest =>
    rw [Stmt.relocateElifs, condition.relocate_id, Stmt.relocateBlock_id body,
      Stmt.relocateElifs_id rest]

theorem Stmt.relocateElse_id (otherwise : Option (List Stmt)) :
    Stmt.relocateElse .id otherwise = otherwise := by
  match otherwise with
  | none => rfl
  | some body => rw [Stmt.relocateElse, Stmt.relocateBlock_id body]

theorem Stmt.relocateFunc_id (decl : FuncOf Stmt) : Stmt.relocateFunc .id decl = decl := by
  match decl with
  | ⟨name, params, returns, body, span⟩ =>
    rw [Stmt.relocateFunc, Slot.map_relocate_id, Stmt.relocateBlock_id body, Relocation.move_id]

theorem Stmt.relocateMethods_id (methods : List (FuncOf Stmt)) :
    Stmt.relocateMethods .id methods = methods := by
  match methods with
  | [] => rfl
  | method :: rest =>
    rw [Stmt.relocateMethods, Stmt.relocateFunc_id method, Stmt.relocateMethods_id rest]

theorem Stmt.relocateClass_id (decl : ClassOf Stmt) : Stmt.relocateClass .id decl = decl := by
  match decl with
  | ⟨name, fields, methods, span⟩ =>
    rw [Stmt.relocateClass, Slot.map_relocate_id, Stmt.relocateMethods_id methods,
      Relocation.move_id]

end

end Chalk
