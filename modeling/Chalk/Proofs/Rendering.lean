import Chalk.Program
import Chalk.Token

/-!
# Programs as sequences of tokens

A program can be written down as the kinds of its tokens. Expressions come with a rank that says how
loosely their parts hang together, from atoms to alternatives, and a place in an expression says
which rank it admits; an expression of a higher rank is put in parentheses, and no other one is.

| rank | expressions | admitted as operands |
|---|---|---|
| 0 | literals, names, lists, dicts | |
| 1 | calls, fields, elements | 1 |
| 2 | `-`, `not` | 2 |
| 3 | `^` | 2 on the left, 3 on the right |
| 4 | `*`, `/`, `%` | 4 on the left, 3 on the right |
| 5 | `+`, `-` | 5 on the left, 4 on the right |
| 6 | comparisons | 6 on the left, 5 on the right |
| 7 | `and` | 7 on the left, 6 on the right |
| 8 | `or` | 8 on the left, 7 on the right |

Not every tree is one of a program: the clauses of a `for` are declarations, assignments or
expressions, only results of functions are `void`, and the two words that name built-in types do not
name classes.

## Main definitions

* `Expr.bare`, `Stmt.bare` — trees without the regions of source that they were read from
* `Expr.rank`, `Expr.kinds`, `Stmt.kinds` — how trees are written
* `Stmt.wellFormed` — the trees of programs
-/

namespace Chalk

/-! ## Trees without spans -/

mutual

/-- The expression without its spans. -/
def Expr.bare : Expr → Expr
  | .number value _ => .number value {}
  | .string content _ => .string content {}
  | .boolean value _ => .boolean value {}
  | .name id _ => .name id {}
  | .receiver _ => .receiver {}
  | .list items _ => .list (Expr.bareList items) {}
  | .dict entries _ => .dict (Expr.bareEntries entries) {}
  | .binary op left right _ => .binary op left.bare right.bare {}
  | .logical op left right _ => .logical op left.bare right.bare {}
  | .unary op operand _ => .unary op operand.bare {}
  | .call callee arguments _ => .call callee.bare (Expr.bareList arguments) {}
  | .field object id _ => .field object.bare id {}
  | .index container position _ => .index container.bare position.bare {}

/-- The expressions without their spans. -/
def Expr.bareList : List Expr → List Expr
  | [] => []
  | e :: es => e.bare :: Expr.bareList es

/-- The entries of a dict without their spans. -/
def Expr.bareEntries : List (Expr × Expr) → List (Expr × Expr)
  | [] => []
  | (key, value) :: entries => (key.bare, value.bare) :: Expr.bareEntries entries

end

theorem Expr.bareList_eq_map (es : List Expr) : Expr.bareList es = es.map Expr.bare := by
  induction es with
  | nil => rfl
  | cons e es ih => rw [Expr.bareList, ih, List.map_cons]

theorem Expr.bareEntries_eq_map (entries : List (Expr × Expr)) :
    Expr.bareEntries entries = entries.map fun entry => (entry.1.bare, entry.2.bare) := by
  induction entries with
  | nil => rfl
  | cons entry entries ih => rw [Expr.bareEntries, ih, List.map_cons]

/-- The target without its spans. -/
def Target.bare : Target → Target
  | .name id _ => .name id {}
  | .index container position => .index container.bare position.bare
  | .field object id => .field object.bare id

/-- The parameter or field without its span. -/
def Slot.bare (slot : Slot) : Slot := { slot with span := {} }

mutual

/-- The statement without its spans. -/
def Stmt.bare : Stmt → Stmt
  | .declare constant tag name initial _ => .declare constant tag name (initial.map Expr.bare) {}
  | .assign target value _ => .assign target.bare value.bare {}
  | .print value _ => .print value.bare {}
  | .branch condition body elifs otherwise _ =>
    .branch condition.bare (Stmt.bareBlock body) (Stmt.bareElifs elifs) (Stmt.bareElse otherwise) {}
  | .whileLoop condition body _ => .whileLoop condition.bare (Stmt.bareBlock body) {}
  | .forLoop init condition increment body _ =>
    .forLoop (Stmt.bareOption init) (condition.map Expr.bare) (Stmt.bareOption increment)
      (Stmt.bareBlock body) {}
  | .breakLoop _ => .breakLoop {}
  | .skip _ => .skip {}
  | .giveBack value _ => .giveBack (value.map Expr.bare) {}
  | .function decl _ => .function (Stmt.bareFunc decl) {}
  | .classDef decl _ => .classDef (Stmt.bareClass decl) {}
  | .eval value _ => .eval value.bare {}

/-- The block without its spans. -/
def Stmt.bareBlock : List Stmt → List Stmt
  | [] => []
  | s :: rest => s.bare :: Stmt.bareBlock rest

/-- The clause of a `for` without its spans. -/
def Stmt.bareOption : Option Stmt → Option Stmt
  | none => none
  | some s => some s.bare

/-- The `elif` branches without their spans. -/
def Stmt.bareElifs : List (BranchOf Stmt) → List (BranchOf Stmt)
  | [] => []
  | ⟨condition, body⟩ :: rest => ⟨condition.bare, Stmt.bareBlock body⟩ :: Stmt.bareElifs rest

/-- The `else` block without its spans. -/
def Stmt.bareElse : Option (List Stmt) → Option (List Stmt)
  | none => none
  | some body => some (Stmt.bareBlock body)

/-- The function without its spans. -/
def Stmt.bareFunc : FuncOf Stmt → FuncOf Stmt
  | ⟨name, params, returns, body, _⟩ =>
    ⟨name, params.map Slot.bare, returns, Stmt.bareBlock body, {}⟩

/-- The methods without their spans. -/
def Stmt.bareMethods : List (FuncOf Stmt) → List (FuncOf Stmt)
  | [] => []
  | method :: rest => Stmt.bareFunc method :: Stmt.bareMethods rest

/-- The class without its spans. -/
def Stmt.bareClass : ClassOf Stmt → ClassOf Stmt
  | ⟨name, fields, methods, _⟩ => ⟨name, fields.map Slot.bare, Stmt.bareMethods methods, {}⟩

end

theorem Stmt.bareOption_eq_map (s : Option Stmt) : Stmt.bareOption s = s.map Stmt.bare := by
  cases s <;> rfl

/-! ## Operators -/

/-- The token of an operator. -/
def BinaryOp.kind : BinaryOp → Kind
  | equal => .symbol .equalEqual
  | notEqual => .symbol .bangEqual
  | less => .symbol .less
  | lessEqual => .symbol .lessEqual
  | greater => .symbol .greater
  | greaterEqual => .symbol .greaterEqual
  | add => .symbol .plus
  | sub => .symbol .minus
  | mul => .symbol .star
  | div => .symbol .slash
  | mod => .symbol .percent
  | pow => .symbol .caret

/-- The rank of expressions with an operator. -/
def BinaryOp.rank : BinaryOp → Nat
  | pow => 3
  | mul | div | mod => 4
  | add | sub => 5
  | equal | notEqual | less | lessEqual | greater | greaterEqual => 6

/-- The rank that an operator admits on its left. Powers group to the right, all others to the
left. -/
def BinaryOp.leftRank : BinaryOp → Nat
  | pow => 2
  | op => op.rank

/-- The rank that an operator admits on its right. -/
def BinaryOp.rightRank : BinaryOp → Nat
  | pow => 3
  | op => op.rank - 1

/-- The token of a logical operator. -/
def LogicalOp.kind : LogicalOp → Kind
  | and => .keyword .andKw
  | or => .keyword .orKw

/-- The rank of expressions with a logical operator, which is the one that the operator admits on
its left. -/
def LogicalOp.rank : LogicalOp → Nat
  | and => 7
  | or => 8

/-- The token of a prefix operator. -/
def UnaryOp.kind : UnaryOp → Kind
  | negate => .symbol .minus
  | not => .keyword .notKw

/-! ## Expressions -/

/-- How loosely the parts of an expression hang together. -/
def Expr.rank : Expr → Nat
  | .call .. | .field .. | .index .. => 1
  | .unary .. => 2
  | .binary op .. => op.rank
  | .logical op .. => op.rank
  | _ => 0

/-- An expression of rank `own` at a place that admits the given rank. -/
def enclosed (own admitted : Nat) (ks : List Kind) : List Kind :=
  if admitted < own then .symbol .leftParen :: ks ++ [.symbol .rightParen] else ks

/-- Some items with commas between them. -/
def commas : List (List Kind) → List Kind
  | [] => []
  | [item] => item
  | item :: items => item ++ .symbol .comma :: commas items

mutual

/-- The tokens of an expression at a place that admits the given rank. -/
def Expr.kinds : Expr → Nat → List Kind
  | .number value _, _ => [.number value]
  | .string content _, _ => [.string content]
  | .boolean value _, _ => [.keyword (if value then .trueKw else .falseKw)]
  | .name id _, _ => [.identifier id]
  | .receiver _, _ => [.keyword .thisKw]
  | .list items _, _ =>
    .symbol .leftBracket :: commas (Expr.kindsList items) ++ [.symbol .rightBracket]
  | .dict entries _, _ =>
    .symbol .leftBrace :: commas (Expr.kindsEntries entries) ++ [.symbol .rightBrace]
  | .binary op left right _, admitted =>
    enclosed op.rank admitted (left.kinds op.leftRank ++ op.kind :: right.kinds op.rightRank)
  | .logical op left right _, admitted =>
    enclosed op.rank admitted (left.kinds op.rank ++ op.kind :: right.kinds (op.rank - 1))
  | .unary op operand _, admitted => enclosed 2 admitted (op.kind :: operand.kinds 2)
  | .call callee arguments _, admitted =>
    enclosed 1 admitted (callee.kinds 1 ++
      .symbol .leftParen :: commas (Expr.kindsList arguments) ++ [.symbol .rightParen])
  | .field object id _, admitted =>
    enclosed 1 admitted (object.kinds 1 ++ [.symbol .dot, .identifier id])
  | .index container position _, admitted =>
    enclosed 1 admitted (container.kinds 1 ++
      .symbol .leftBracket :: position.kinds 8 ++ [.symbol .rightBracket])

/-- The tokens of some expressions at places that admit every rank. -/
def Expr.kindsList : List Expr → List (List Kind)
  | [] => []
  | e :: es => e.kinds 8 :: Expr.kindsList es

/-- The tokens of the entries of a dict. -/
def Expr.kindsEntries : List (Expr × Expr) → List (List Kind)
  | [] => []
  | (key, value) :: entries =>
    (key.kinds 8 ++ .symbol .colon :: value.kinds 8) :: Expr.kindsEntries entries

end

theorem Expr.kindsList_eq_map (es : List Expr) :
    Expr.kindsList es = es.map fun e => e.kinds 8 := by
  induction es with
  | nil => rfl
  | cons e es ih => rw [Expr.kindsList, ih, List.map_cons]

theorem Expr.kindsEntries_eq_map (entries : List (Expr × Expr)) :
    Expr.kindsEntries entries =
      entries.map fun entry => entry.1.kinds 8 ++ .symbol .colon :: entry.2.kinds 8 := by
  induction entries with
  | nil => rfl
  | cons entry entries ih => rw [Expr.kindsEntries, ih, List.map_cons]

/-! ## Statements -/

/-- The token of a type. -/
def TypeTag.kind : TypeTag → Kind
  | number => .keyword .numberKw
  | string => .keyword .stringKw
  | boolean => .keyword .booleanKw
  | list => .keyword .listKw
  | dict => .keyword .dictKw
  | void => .keyword .voidKw
  | object => .identifier "object"
  | function => .identifier "function"
  | named name => .identifier name

/-- The target of an assignment as an expression. -/
def Target.toExpr : Target → Expr
  | .name id span => .name id span
  | .index container position => .index container position {}
  | .field object id => .field object id {}

/-- The tokens of a parameter. -/
def Slot.kinds (slot : Slot) : List Kind := [slot.tag.kind, .identifier slot.name]

/-- The tokens of a field of a class. -/
def Slot.fieldKinds (slot : Slot) : List Kind :=
  .keyword .setKw :: slot.kinds ++ [.symbol .semicolon]

/-- The tokens of a part that may be missing. -/
def optional {α : Type} (f : α → List Kind) : Option α → List Kind
  | none => []
  | some x => f x

/-- The tokens of a declaration, an assignment or an expression, without a semicolon. No other
statement is written that way. -/
def Stmt.clauseKinds : Stmt → List Kind
  | .declare constant tag name initial _ =>
    .keyword .setKw :: (if constant then [.keyword .constKw] else []) ++
      [tag.kind, .identifier name] ++ optional (fun e => .symbol .equal :: e.kinds 8) initial
  | .assign target value _ => target.toExpr.kinds 8 ++ .symbol .equal :: value.kinds 8
  | .eval value _ => value.kinds 8
  | _ => []

mutual

/-- The tokens of a statement. -/
def Stmt.kinds : Stmt → List Kind
  | .declare constant tag name initial span =>
    (Stmt.declare constant tag name initial span).clauseKinds ++ [.symbol .semicolon]
  | .assign target value span => (Stmt.assign target value span).clauseKinds ++ [.symbol .semicolon]
  | .eval value span => (Stmt.eval value span).clauseKinds ++ [.symbol .semicolon]
  | .print value _ => .keyword .printKw :: value.kinds 8 ++ [.symbol .semicolon]
  | .branch condition body elifs otherwise _ =>
    .keyword .ifKw :: condition.kinds 8 ++ .keyword .thenKw :: Stmt.kindsBlock body ++
      Stmt.kindsElifs elifs ++ Stmt.kindsElse otherwise ++ [.keyword .endIfKw]
  | .whileLoop condition body _ =>
    .keyword .whileKw :: condition.kinds 8 ++ .keyword .doKw :: Stmt.kindsBlock body ++
      [.keyword .endWhileKw]
  | .forLoop init condition increment body _ =>
    [.keyword .forKw, .symbol .leftParen] ++ optional Stmt.clauseKinds init ++
      .symbol .semicolon :: optional (fun e => e.kinds 8) condition ++
      .symbol .semicolon :: optional Stmt.clauseKinds increment ++
      [.symbol .rightParen, .keyword .doKw] ++ Stmt.kindsBlock body ++ [.keyword .endForKw]
  | .breakLoop _ => [.keyword .breakKw, .symbol .semicolon]
  | .skip _ => [.keyword .skipKw, .symbol .semicolon]
  | .giveBack value _ =>
    .keyword .returnKw :: optional (fun e => e.kinds 8) value ++ [.symbol .semicolon]
  | .function decl _ => Stmt.kindsFunc decl
  | .classDef decl _ => Stmt.kindsClass decl

/-- The tokens of a block. -/
def Stmt.kindsBlock : List Stmt → List Kind
  | [] => []
  | s :: rest => s.kinds ++ Stmt.kindsBlock rest

/-- The tokens of the `elif` branches of an `if`. -/
def Stmt.kindsElifs : List (BranchOf Stmt) → List Kind
  | [] => []
  | ⟨condition, body⟩ :: rest =>
    .keyword .elifKw :: condition.kinds 8 ++ .keyword .thenKw :: Stmt.kindsBlock body ++
      Stmt.kindsElifs rest

/-- The tokens of the `else` block of an `if`. -/
def Stmt.kindsElse : Option (List Stmt) → List Kind
  | none => []
  | some body => .keyword .elseKw :: Stmt.kindsBlock body

/-- The tokens of a function or method. -/
def Stmt.kindsFunc : FuncOf Stmt → List Kind
  | ⟨name, params, returns, body, _⟩ =>
    [.keyword .funcKw, returns.kind, .identifier name, .symbol .leftParen] ++
      commas (params.map Slot.kinds) ++ [.symbol .rightParen, .keyword .doKw] ++
      Stmt.kindsBlock body ++ [.keyword .endFuncKw]

/-- The tokens of the methods of a class. -/
def Stmt.kindsMethods : List (FuncOf Stmt) → List Kind
  | [] => []
  | method :: rest => Stmt.kindsFunc method ++ Stmt.kindsMethods rest

/-- The tokens of a class: its fields, then its methods. -/
def Stmt.kindsClass : ClassOf Stmt → List Kind
  | ⟨name, fields, methods, _⟩ =>
    [.keyword .classKw, .identifier name] ++ fields.flatMap Slot.fieldKinds ++
      Stmt.kindsMethods methods ++ [.keyword .endClassKw]

end

/-! ## Trees of programs -/

/-- The type can be the result of a function. -/
def TypeTag.canReturn : TypeTag → Bool
  | named name => name != "object" && name != "function"
  | _ => true

/-- The type can be the type of a variable, a parameter or a field. -/
def TypeTag.canDeclare (tag : TypeTag) : Bool := tag != .void && tag.canReturn

mutual

/-- The statement can stand in a program. -/
def Stmt.wellFormed : Stmt → Bool
  | .declare _ tag _ _ _ => tag.canDeclare
  | .branch _ body elifs otherwise _ =>
    Stmt.wellFormedBlock body && Stmt.wellFormedElifs elifs && Stmt.wellFormedElse otherwise
  | .whileLoop _ body _ => Stmt.wellFormedBlock body
  | .forLoop init _ increment body _ =>
    Stmt.wellFormedClause init && Stmt.wellFormedClause increment && Stmt.wellFormedBlock body
  | .function decl _ => Stmt.wellFormedFunc decl
  | .classDef decl _ => Stmt.wellFormedClass decl
  | _ => true

/-- The statements can stand in a block. -/
def Stmt.wellFormedBlock : List Stmt → Bool
  | [] => true
  | s :: rest => s.wellFormed && Stmt.wellFormedBlock rest

/-- The statement can be a clause of a `for`. -/
def Stmt.wellFormedClause : Option Stmt → Bool
  | none => true
  | some (.declare _ tag _ _ _) => tag.canDeclare
  | some (.assign ..) => true
  | some (.eval ..) => true
  | some _ => false

/-- The branches can stand in an `if`. -/
def Stmt.wellFormedElifs : List (BranchOf Stmt) → Bool
  | [] => true
  | ⟨_, body⟩ :: rest => Stmt.wellFormedBlock body && Stmt.wellFormedElifs rest

/-- The block can stand in an `if`. -/
def Stmt.wellFormedElse : Option (List Stmt) → Bool
  | none => true
  | some body => Stmt.wellFormedBlock body

/-- The function can stand in a program. -/
def Stmt.wellFormedFunc : FuncOf Stmt → Bool
  | ⟨_, params, returns, body, _⟩ =>
    params.all (fun slot => slot.tag.canDeclare) && returns.canReturn && Stmt.wellFormedBlock body

/-- The methods can stand in a class. -/
def Stmt.wellFormedMethods : List (FuncOf Stmt) → Bool
  | [] => true
  | method :: rest => Stmt.wellFormedFunc method && Stmt.wellFormedMethods rest

/-- The class can stand in a program. -/
def Stmt.wellFormedClass : ClassOf Stmt → Bool
  | ⟨_, fields, methods, _⟩ =>
    fields.all (fun slot => slot.tag.canDeclare) && Stmt.wellFormedMethods methods

end

/-! ## The end of the input -/

theorem endOfInput_not_mem_commas {items : List (List Kind)}
    (h : ∀ item ∈ items, Kind.endOfInput ∉ item) : .endOfInput ∉ commas items := by
  match items with
  | [] => exact List.not_mem_nil
  | [item] => exact h item List.mem_cons_self
  | item :: other :: items =>
    obtain ⟨hitem, hitems⟩ := List.forall_mem_cons.mp h
    simp only [commas, List.mem_append, List.mem_cons, reduceCtorEq, false_or, not_or]
    exact ⟨hitem, endOfInput_not_mem_commas hitems⟩

theorem endOfInput_not_mem_enclosed {own admitted : Nat} {ks : List Kind}
    (h : Kind.endOfInput ∉ ks) : .endOfInput ∉ enclosed own admitted ks := by
  rw [enclosed]
  split
  · simpa using h
  · exact h

mutual

/-- No token of an expression marks the end of the input. -/
theorem Expr.endOfInput_not_mem_kinds (e : Expr) (admitted : Nat) :
    .endOfInput ∉ e.kinds admitted := by
  match e with
  | .number .. | .string .. | .boolean .. | .name .. | .receiver .. => simp [Expr.kinds]
  | .list items _ =>
    have hitems := endOfInput_not_mem_commas (Expr.endOfInput_not_mem_kindsList items)
    simpa [Expr.kinds] using hitems
  | .dict entries _ =>
    have hentries := endOfInput_not_mem_commas (Expr.endOfInput_not_mem_kindsEntries entries)
    simpa [Expr.kinds] using hentries
  | .binary op left right _ =>
    rw [Expr.kinds]
    refine endOfInput_not_mem_enclosed ?_
    have hleft := left.endOfInput_not_mem_kinds op.leftRank
    have hright := right.endOfInput_not_mem_kinds op.rightRank
    cases op <;> simp [hleft, hright, BinaryOp.kind]
  | .logical op left right _ =>
    rw [Expr.kinds]
    refine endOfInput_not_mem_enclosed ?_
    have hleft := left.endOfInput_not_mem_kinds op.rank
    have hright := right.endOfInput_not_mem_kinds (op.rank - 1)
    cases op <;> simp [hleft, hright, LogicalOp.kind]
  | .unary op operand _ =>
    rw [Expr.kinds]
    refine endOfInput_not_mem_enclosed ?_
    have hoperand := operand.endOfInput_not_mem_kinds 2
    cases op <;> simp [hoperand, UnaryOp.kind]
  | .call callee arguments _ =>
    rw [Expr.kinds]
    refine endOfInput_not_mem_enclosed ?_
    have hcallee := callee.endOfInput_not_mem_kinds 1
    have harguments := endOfInput_not_mem_commas (Expr.endOfInput_not_mem_kindsList arguments)
    simp [hcallee, harguments]
  | .field object id _ =>
    rw [Expr.kinds]
    refine endOfInput_not_mem_enclosed ?_
    simp [object.endOfInput_not_mem_kinds 1]
  | .index container position _ =>
    rw [Expr.kinds]
    refine endOfInput_not_mem_enclosed ?_
    simp [container.endOfInput_not_mem_kinds 1, position.endOfInput_not_mem_kinds 8]

theorem Expr.endOfInput_not_mem_kindsList (es : List Expr) :
    ∀ ks ∈ Expr.kindsList es, .endOfInput ∉ ks := by
  match es with
  | [] => exact fun ks hks => absurd hks List.not_mem_nil
  | e :: es =>
    exact List.forall_mem_cons.mpr
      ⟨e.endOfInput_not_mem_kinds 8, Expr.endOfInput_not_mem_kindsList es⟩

theorem Expr.endOfInput_not_mem_kindsEntries (entries : List (Expr × Expr)) :
    ∀ ks ∈ Expr.kindsEntries entries, .endOfInput ∉ ks := by
  match entries with
  | [] => exact fun ks hks => absurd hks List.not_mem_nil
  | (key, value) :: entries =>
    refine List.forall_mem_cons.mpr ⟨?_, Expr.endOfInput_not_mem_kindsEntries entries⟩
    simp [key.endOfInput_not_mem_kinds 8, value.endOfInput_not_mem_kinds 8]

end

theorem endOfInput_not_mem_optional {α : Type} {f : α → List Kind} (h : ∀ x, Kind.endOfInput ∉ f x)
    (x : Option α) : .endOfInput ∉ optional f x := by
  cases x with
  | none => exact List.not_mem_nil
  | some x => exact h x

theorem Slot.endOfInput_not_mem_kinds (slot : Slot) : .endOfInput ∉ slot.kinds := by
  cases htag : slot.tag <;> simp [Slot.kinds, TypeTag.kind, htag]

theorem Stmt.endOfInput_not_mem_clauseKinds (s : Stmt) : .endOfInput ∉ s.clauseKinds := by
  cases s with
  | declare constant tag name initial span =>
    have hinitial : Kind.endOfInput ∉ optional (fun e => .symbol .equal :: e.kinds 8) initial :=
      endOfInput_not_mem_optional (fun e => by simp [e.endOfInput_not_mem_kinds 8]) initial
    cases constant <;> cases tag <;> simp [Stmt.clauseKinds, TypeTag.kind, hinitial]
  | assign target value span =>
    simp [Stmt.clauseKinds, target.toExpr.endOfInput_not_mem_kinds 8,
      value.endOfInput_not_mem_kinds 8]
  | eval value span => exact value.endOfInput_not_mem_kinds 8
  | _ => exact List.not_mem_nil

mutual

/-- No token of a statement marks the end of the input. -/
theorem Stmt.endOfInput_not_mem_kinds (s : Stmt) : .endOfInput ∉ s.kinds := by
  match s with
  | .declare constant tag name initial span =>
    simp [Stmt.kinds, Stmt.endOfInput_not_mem_clauseKinds]
  | .assign target value span => simp [Stmt.kinds, Stmt.endOfInput_not_mem_clauseKinds]
  | .eval value span => simp [Stmt.kinds, Stmt.endOfInput_not_mem_clauseKinds]
  | .print value _ => simp [Stmt.kinds, value.endOfInput_not_mem_kinds 8]
  | .branch condition body elifs otherwise _ =>
    simp [Stmt.kinds, condition.endOfInput_not_mem_kinds 8, Stmt.endOfInput_not_mem_kindsBlock body,
      Stmt.endOfInput_not_mem_kindsElifs elifs, Stmt.endOfInput_not_mem_kindsElse otherwise]
  | .whileLoop condition body _ =>
    simp [Stmt.kinds, condition.endOfInput_not_mem_kinds 8, Stmt.endOfInput_not_mem_kindsBlock body]
  | .forLoop init condition increment body _ =>
    have hclause := endOfInput_not_mem_optional Stmt.endOfInput_not_mem_clauseKinds
    have hcondition := endOfInput_not_mem_optional (fun e => Expr.endOfInput_not_mem_kinds e 8)
    simp [Stmt.kinds, hclause, hcondition, Stmt.endOfInput_not_mem_kindsBlock body]
  | .breakLoop _ | .skip _ => simp [Stmt.kinds]
  | .giveBack value _ =>
    have hvalue := endOfInput_not_mem_optional (fun e => Expr.endOfInput_not_mem_kinds e 8) value
    simp [Stmt.kinds, hvalue]
  | .function decl _ => exact Stmt.endOfInput_not_mem_kindsFunc decl
  | .classDef decl _ => exact Stmt.endOfInput_not_mem_kindsClass decl

theorem Stmt.endOfInput_not_mem_kindsBlock (body : List Stmt) :
    .endOfInput ∉ Stmt.kindsBlock body := by
  match body with
  | [] => exact List.not_mem_nil
  | s :: rest =>
    simp [Stmt.kindsBlock, s.endOfInput_not_mem_kinds, Stmt.endOfInput_not_mem_kindsBlock rest]

theorem Stmt.endOfInput_not_mem_kindsElifs (branches : List (BranchOf Stmt)) :
    .endOfInput ∉ Stmt.kindsElifs branches := by
  match branches with
  | [] => exact List.not_mem_nil
  | ⟨condition, body⟩ :: rest =>
    simp [Stmt.kindsElifs, condition.endOfInput_not_mem_kinds 8,
      Stmt.endOfInput_not_mem_kindsBlock body, Stmt.endOfInput_not_mem_kindsElifs rest]

theorem Stmt.endOfInput_not_mem_kindsElse (otherwise : Option (List Stmt)) :
    .endOfInput ∉ Stmt.kindsElse otherwise := by
  match otherwise with
  | none => exact List.not_mem_nil
  | some body => simp [Stmt.kindsElse, Stmt.endOfInput_not_mem_kindsBlock body]

theorem Stmt.endOfInput_not_mem_kindsFunc (decl : FuncOf Stmt) :
    .endOfInput ∉ Stmt.kindsFunc decl := by
  match decl with
  | ⟨name, params, returns, body, span⟩ =>
    have hparams : Kind.endOfInput ∉ commas (params.map Slot.kinds) := by
      refine endOfInput_not_mem_commas fun ks hks => ?_
      obtain ⟨slot, -, rfl⟩ := List.mem_map.mp hks
      exact slot.endOfInput_not_mem_kinds
    cases returns <;>
      simp [Stmt.kindsFunc, TypeTag.kind, hparams, Stmt.endOfInput_not_mem_kindsBlock body]

theorem Stmt.endOfInput_not_mem_kindsMethods (methods : List (FuncOf Stmt)) :
    .endOfInput ∉ Stmt.kindsMethods methods := by
  match methods with
  | [] => exact List.not_mem_nil
  | method :: rest =>
    simp [Stmt.kindsMethods, Stmt.endOfInput_not_mem_kindsFunc method,
      Stmt.endOfInput_not_mem_kindsMethods rest]

theorem Stmt.endOfInput_not_mem_kindsClass (decl : ClassOf Stmt) :
    .endOfInput ∉ Stmt.kindsClass decl := by
  match decl with
  | ⟨name, fields, methods, span⟩ =>
    have hfields : Kind.endOfInput ∉ fields.flatMap Slot.fieldKinds := by
      simp [Slot.fieldKinds, Slot.endOfInput_not_mem_kinds]
    simp only [Stmt.kindsClass, List.mem_append, List.mem_cons, reduceCtorEq, List.not_mem_nil,
      false_or, or_false, not_or]
    exact ⟨hfields, Stmt.endOfInput_not_mem_kindsMethods methods⟩

end

end Chalk
