import Chalk.Proofs.Rendering

/-!
# The grammar of programs

A program can be written in more ways than one: any expression may stand in more parentheses than it
needs, the word `do` may stand after the name of a class, and the fields and methods of a class may
alternate. `Stmt.WrittenBlock` relates a program to all the sequences of kinds that it can be
written as.

The relation follows `Stmt.kindsBlock` clause by clause, with one more clause for expressions: a
pair of parentheses may be added around an expression wherever one stands, the targets of
assignments included. The parentheses that an expression needs at its place are still there. So the
kinds of a program are one way to write it, and every other way has more parentheses around
expressions, more words `do`, or another order between fields and methods, and differs in nothing
else.

## Main definitions

* `Expr.Written` — the ways to write an expression at a place that admits a given rank
* `Stmt.Written`, `Stmt.WrittenBlock` — the ways to write statements and programs

## Main results

* `Expr.written_kinds`, `Stmt.writtenBlock_kindsBlock` — trees are written as their kinds
* `Expr.Written.mono`, `Expr.Written.parens` — an expression at another place
-/

namespace Chalk

/-! ## Ways to write an expression -/

mutual

/-- The expression can be written as the given kinds at a place that admits the given rank. -/
inductive Expr.Written : Expr → Nat → List Kind → Prop where
  /-- One more pair of parentheses. -/
  | extra {e : Expr} {admitted : Nat} {ks : List Kind} (inside : Expr.Written e admitted ks) :
      Expr.Written e admitted (.symbol .leftParen :: ks ++ [.symbol .rightParen])
  | number (value : Float) (span : Span) (admitted : Nat) :
      Expr.Written (.number value span) admitted [.number value]
  | string (content : String) (span : Span) (admitted : Nat) :
      Expr.Written (.string content span) admitted [.string content]
  | boolean (value : Bool) (span : Span) (admitted : Nat) :
      Expr.Written (.boolean value span) admitted [.keyword (if value then .trueKw else .falseKw)]
  | name (id : String) (span : Span) (admitted : Nat) :
      Expr.Written (.name id span) admitted [.identifier id]
  | receiver (span : Span) (admitted : Nat) :
      Expr.Written (.receiver span) admitted [.keyword .thisKw]
  | list {items : List Expr} {kss : List (List Kind)} (written : Expr.WrittenList items kss)
      (span : Span) (admitted : Nat) :
      Expr.Written (.list items span) admitted
        (.symbol .leftBracket :: commas kss ++ [.symbol .rightBracket])
  | dict {entries : List (Expr × Expr)} {kss : List (List Kind)}
      (written : Expr.WrittenEntries entries kss) (span : Span) (admitted : Nat) :
      Expr.Written (.dict entries span) admitted
        (.symbol .leftBrace :: commas kss ++ [.symbol .rightBrace])
  | binary {op : BinaryOp} {left right : Expr} {ls rs : List Kind}
      (writtenLeft : Expr.Written left op.leftRank ls)
      (writtenRight : Expr.Written right op.rightRank rs) (span : Span) (admitted : Nat) :
      Expr.Written (.binary op left right span) admitted
        (enclosed op.rank admitted (ls ++ op.kind :: rs))
  | logical {op : LogicalOp} {left right : Expr} {ls rs : List Kind}
      (writtenLeft : Expr.Written left op.rank ls)
      (writtenRight : Expr.Written right (op.rank - 1) rs) (span : Span) (admitted : Nat) :
      Expr.Written (.logical op left right span) admitted
        (enclosed op.rank admitted (ls ++ op.kind :: rs))
  | unary {op : UnaryOp} {operand : Expr} {ks : List Kind} (written : Expr.Written operand 2 ks)
      (span : Span) (admitted : Nat) :
      Expr.Written (.unary op operand span) admitted (enclosed 2 admitted (op.kind :: ks))
  | call {callee : Expr} {arguments : List Expr} {ks : List Kind} {kss : List (List Kind)}
      (written : Expr.Written callee 1 ks) (writtenArguments : Expr.WrittenList arguments kss)
      (span : Span) (admitted : Nat) :
      Expr.Written (.call callee arguments span) admitted
        (enclosed 1 admitted (ks ++
          .symbol .leftParen :: commas kss ++ [.symbol .rightParen]))
  | field {object : Expr} {ks : List Kind} (written : Expr.Written object 1 ks) (id : String)
      (span : Span) (admitted : Nat) :
      Expr.Written (.field object id span) admitted
        (enclosed 1 admitted (ks ++ [.symbol .dot, .identifier id]))
  | index {container position : Expr} {ks ps : List Kind} (written : Expr.Written container 1 ks)
      (writtenPosition : Expr.Written position 8 ps) (span : Span) (admitted : Nat) :
      Expr.Written (.index container position span) admitted
        (enclosed 1 admitted (ks ++ .symbol .leftBracket :: ps ++ [.symbol .rightBracket]))

/-- The expressions can be written as the given items. -/
inductive Expr.WrittenList : List Expr → List (List Kind) → Prop where
  | nil : Expr.WrittenList [] []
  | cons {e : Expr} {es : List Expr} {ks : List Kind} {kss : List (List Kind)}
      (first : Expr.Written e 8 ks) (rest : Expr.WrittenList es kss) :
      Expr.WrittenList (e :: es) (ks :: kss)

/-- The entries of a dict can be written as the given items. -/
inductive Expr.WrittenEntries : List (Expr × Expr) → List (List Kind) → Prop where
  | nil : Expr.WrittenEntries [] []
  | cons {key value : Expr} {entries : List (Expr × Expr)} {ks vs : List Kind}
      {kss : List (List Kind)} (writtenKey : Expr.Written key 8 ks)
      (writtenValue : Expr.Written value 8 vs) (rest : Expr.WrittenEntries entries kss) :
      Expr.WrittenEntries ((key, value) :: entries) ((ks ++ .symbol .colon :: vs) :: kss)

end

mutual

/-- Without parentheses that it does not need an expression is written as its kinds. -/
theorem Expr.written_kinds (e : Expr) (admitted : Nat) : e.Written admitted (e.kinds admitted) := by
  match e with
  | .number .. => exact .number ..
  | .string .. => exact .string ..
  | .boolean .. => exact .boolean ..
  | .name .. => exact .name ..
  | .receiver .. => exact .receiver ..
  | .list items _ => exact .list (Expr.writtenList_kindsList items) _ _
  | .dict entries _ => exact .dict (Expr.writtenEntries_kindsEntries entries) _ _
  | .binary _ left right _ => exact .binary (left.written_kinds _) (right.written_kinds _) _ _
  | .logical _ left right _ => exact .logical (left.written_kinds _) (right.written_kinds _) _ _
  | .unary _ operand _ => exact .unary (operand.written_kinds _) _ _
  | .call callee arguments _ =>
    exact .call (callee.written_kinds _) (Expr.writtenList_kindsList arguments) _ _
  | .field object _ _ => exact .field (object.written_kinds _) _ _ _
  | .index container position _ =>
    exact .index (container.written_kinds _) (position.written_kinds _) _ _

theorem Expr.writtenList_kindsList (es : List Expr) : Expr.WrittenList es (Expr.kindsList es) := by
  match es with
  | [] => exact .nil
  | e :: es => exact .cons (e.written_kinds 8) (Expr.writtenList_kindsList es)

theorem Expr.writtenEntries_kindsEntries (entries : List (Expr × Expr)) :
    Expr.WrittenEntries entries (Expr.kindsEntries entries) := by
  match entries with
  | [] => exact .nil
  | (key, value) :: entries =>
    exact .cons (key.written_kinds 8) (value.written_kinds 8)
      (Expr.writtenEntries_kindsEntries entries)

end

/-! ## Other places for an expression -/

theorem enclosed_of_le {own admitted : Nat} {ks : List Kind} (h : own ≤ admitted) :
    enclosed own admitted ks = ks :=
  if_neg (Nat.not_lt.mpr h)

@[simp] theorem enclosed_self (own : Nat) (ks : List Kind) : enclosed own own ks = ks :=
  enclosed_of_le (Nat.le_refl own)

theorem enclosed_of_lt {own admitted : Nat} {ks : List Kind} (h : admitted < own) :
    enclosed own admitted ks = .symbol .leftParen :: ks ++ [.symbol .rightParen] :=
  if_pos h

/-- At a place that admits more, the parentheses that were needed are extra ones. -/
theorem Expr.written_enclosed_of_le {e : Expr} {own admitted admitted' : Nat} {ks : List Kind}
    (h : ∀ place, e.Written place (enclosed own place ks)) (hle : admitted ≤ admitted') :
    e.Written admitted' (enclosed own admitted ks) := by
  have hplace := h admitted'
  by_cases hown : own ≤ admitted
  · rw [enclosed_of_le (Nat.le_trans hown hle)] at hplace
    rwa [enclosed_of_le hown]
  · rw [enclosed_of_lt (Nat.lt_of_not_le hown)]
    by_cases hown' : own ≤ admitted'
    · rw [enclosed_of_le hown'] at hplace
      exact .extra hplace
    · rwa [enclosed_of_lt (Nat.lt_of_not_le hown')] at hplace

/-- **What can be written at a place can be written at one that admits more.** -/
theorem Expr.Written.mono {e : Expr} {admitted admitted' : Nat} {ks : List Kind}
    (h : e.Written admitted ks) (hle : admitted ≤ admitted') : e.Written admitted' ks := by
  match h with
  | .extra inside => exact .extra (inside.mono hle)
  | .number .. => exact .number ..
  | .string .. => exact .string ..
  | .boolean .. => exact .boolean ..
  | .name .. => exact .name ..
  | .receiver .. => exact .receiver ..
  | .list written .. => exact .list written ..
  | .dict written .. => exact .dict written ..
  | .binary left right .. => exact written_enclosed_of_le (.binary left right _) hle
  | .logical left right .. => exact written_enclosed_of_le (.logical left right _) hle
  | .unary operand .. => exact written_enclosed_of_le (.unary operand _) hle
  | .call callee arguments .. => exact written_enclosed_of_le (.call callee arguments _) hle
  | .field object .. => exact written_enclosed_of_le (.field object _ _) hle
  | .index container position .. => exact written_enclosed_of_le (.index container position _) hle

theorem Expr.written_parens_of_enclosed {e : Expr} {own : Nat} {ks : List Kind}
    (h : ∀ place, e.Written place (enclosed own place ks)) (admitted : Nat) :
    e.Written 0 (.symbol .leftParen :: enclosed own admitted ks ++ [.symbol .rightParen]) := by
  have hplace := h 0
  by_cases hown : own ≤ 0
  · rw [enclosed_of_le hown] at hplace
    rw [enclosed_of_le (Nat.le_trans hown (Nat.zero_le _))]
    exact .extra hplace
  · rw [enclosed_of_lt (Nat.lt_of_not_le hown)] at hplace
    by_cases hadmitted : own ≤ admitted
    · rwa [enclosed_of_le hadmitted]
    · rw [enclosed_of_lt (Nat.lt_of_not_le hadmitted)]
      exact .extra hplace

/-- **In parentheses an expression can stand everywhere**: they are the ones that it needs there, or
extra ones. -/
theorem Expr.Written.parens {e : Expr} {admitted : Nat} {ks : List Kind}
    (h : e.Written admitted ks) :
    e.Written 0 (.symbol .leftParen :: ks ++ [.symbol .rightParen]) := by
  match h with
  | .extra inside => exact .extra inside.parens
  | .number .. => exact .extra (.number ..)
  | .string .. => exact .extra (.string ..)
  | .boolean .. => exact .extra (.boolean ..)
  | .name .. => exact .extra (.name ..)
  | .receiver .. => exact .extra (.receiver ..)
  | .list written .. => exact .extra (.list written ..)
  | .dict written .. => exact .extra (.dict written ..)
  | .binary left right .. => exact written_parens_of_enclosed (.binary left right _) _
  | .logical left right .. => exact written_parens_of_enclosed (.logical left right _) _
  | .unary operand .. => exact written_parens_of_enclosed (.unary operand _) _
  | .call callee arguments .. => exact written_parens_of_enclosed (.call callee arguments _) _
  | .field object .. => exact written_parens_of_enclosed (.field object _ _) _
  | .index container position .. =>
    exact written_parens_of_enclosed (.index container position _) _

/-- An expression that is assigned to is written as the target. -/
theorem Expr.Written.toTarget {e : Expr} {admitted : Nat} {ks : List Kind} {target : Target}
    (h : e.Written admitted ks) (htarget : e.toTarget? = some target) :
    target.toExpr.Written admitted ks := by
  match h with
  | .extra inside => exact .extra (inside.toTarget htarget)
  | .name .. =>
    cases htarget
    exact .name ..
  | .index container position .. =>
    cases htarget
    exact .index container position ..
  | .field object .. =>
    cases htarget
    exact .field object ..
  | .number .. | .string .. | .boolean .. | .receiver .. | .list .. | .dict .. | .binary ..
  | .logical .. | .unary .. | .call .. => cases htarget

/-! ## Ways to write a program -/

/-- The declaration, assignment or expression can be written as the given kinds, without a
semicolon. No other statement can. -/
inductive Stmt.WrittenClause : Stmt → List Kind → Prop where
  | declare (constant : Bool) {tag : TypeTag} (canDeclare : tag.canDeclare = true) (name : String)
      (span : Span) :
      Stmt.WrittenClause (.declare constant tag name none span)
        (.keyword .setKw :: (if constant then [.keyword .constKw] else []) ++
          [tag.kind, .identifier name])
  | declareAs (constant : Bool) {tag : TypeTag} (canDeclare : tag.canDeclare = true) (name : String)
      {initial : Expr} {ks : List Kind} (written : initial.Written 8 ks) (span : Span) :
      Stmt.WrittenClause (.declare constant tag name (some initial) span)
        (.keyword .setKw :: (if constant then [.keyword .constKw] else []) ++
          [tag.kind, .identifier name] ++ .symbol .equal :: ks)
  | assign {target : Target} {value : Expr} {ts ks : List Kind}
      (writtenTarget : target.toExpr.Written 8 ts) (written : value.Written 8 ks) (span : Span) :
      Stmt.WrittenClause (.assign target value span) (ts ++ .symbol .equal :: ks)
  | eval {value : Expr} {ks : List Kind} (written : value.Written 8 ks) (span : Span) :
      Stmt.WrittenClause (.eval value span) ks

/-- A part that may be missing can be written as the given kinds. -/
inductive WrittenOption {α : Type} (written : α → List Kind → Prop) : Option α → List Kind → Prop
  where
  | none : WrittenOption written none []
  | some {x : α} {ks : List Kind} (h : written x ks) : WrittenOption written (some x) ks

mutual

/-- The statement can be written as the given kinds. -/
inductive Stmt.Written : Stmt → List Kind → Prop where
  | clause {s : Stmt} {ks : List Kind} (written : s.WrittenClause ks) :
      Stmt.Written s (ks ++ [.symbol .semicolon])
  | print {value : Expr} {ks : List Kind} (written : value.Written 8 ks) (span : Span) :
      Stmt.Written (.print value span) (.keyword .printKw :: ks ++ [.symbol .semicolon])
  | branch {condition : Expr} {body : List Stmt} {elifs : List (BranchOf Stmt)}
      {otherwise : Option (List Stmt)} {cs bs es os : List Kind}
      (writtenCondition : condition.Written 8 cs) (writtenBody : Stmt.WrittenBlock body bs)
      (writtenElifs : Stmt.WrittenElifs elifs es) (writtenElse : Stmt.WrittenElse otherwise os)
      (span : Span) :
      Stmt.Written (.branch condition body elifs otherwise span)
        (.keyword .ifKw :: cs ++ .keyword .thenKw :: bs ++ es ++ os ++ [.keyword .endIfKw])
  | whileLoop {condition : Expr} {body : List Stmt} {cs bs : List Kind}
      (writtenCondition : condition.Written 8 cs) (writtenBody : Stmt.WrittenBlock body bs)
      (span : Span) :
      Stmt.Written (.whileLoop condition body span)
        (.keyword .whileKw :: cs ++ .keyword .doKw :: bs ++ [.keyword .endWhileKw])
  | forLoop {init : Option Stmt} {condition : Option Expr} {increment : Option Stmt}
      {body : List Stmt} {is cs ns bs : List Kind}
      (writtenInit : WrittenOption Stmt.WrittenClause init is)
      (writtenCondition : WrittenOption (fun e => Expr.Written e 8) condition cs)
      (writtenIncrement : WrittenOption Stmt.WrittenClause increment ns)
      (writtenBody : Stmt.WrittenBlock body bs) (span : Span) :
      Stmt.Written (.forLoop init condition increment body span)
        ([.keyword .forKw, .symbol .leftParen] ++ is ++ .symbol .semicolon :: cs ++
          .symbol .semicolon :: ns ++ [.symbol .rightParen, .keyword .doKw] ++ bs ++
          [.keyword .endForKw])
  | breakLoop (span : Span) :
      Stmt.Written (.breakLoop span) [.keyword .breakKw, .symbol .semicolon]
  | skip (span : Span) : Stmt.Written (.skip span) [.keyword .skipKw, .symbol .semicolon]
  | giveBack {value : Option Expr} {ks : List Kind}
      (written : WrittenOption (fun e => Expr.Written e 8) value ks) (span : Span) :
      Stmt.Written (.giveBack value span) (.keyword .returnKw :: ks ++ [.symbol .semicolon])
  | function {decl : FuncOf Stmt} {ks : List Kind} (written : Stmt.WrittenFunc decl ks)
      (span : Span) : Stmt.Written (.function decl span) ks
  | classDef {decl : ClassOf Stmt} {ks : List Kind} (written : Stmt.WrittenClass decl ks)
      (span : Span) : Stmt.Written (.classDef decl span) ks

/-- The block can be written as the given kinds. -/
inductive Stmt.WrittenBlock : List Stmt → List Kind → Prop where
  | nil : Stmt.WrittenBlock [] []
  | cons {s : Stmt} {rest : List Stmt} {ks more : List Kind} (first : Stmt.Written s ks)
      (others : Stmt.WrittenBlock rest more) : Stmt.WrittenBlock (s :: rest) (ks ++ more)

/-- The `elif` branches of an `if` can be written as the given kinds. -/
inductive Stmt.WrittenElifs : List (BranchOf Stmt) → List Kind → Prop where
  | nil : Stmt.WrittenElifs [] []
  | cons {condition : Expr} {body : List Stmt} {rest : List (BranchOf Stmt)}
      {cs bs more : List Kind} (writtenCondition : condition.Written 8 cs)
      (writtenBody : Stmt.WrittenBlock body bs) (others : Stmt.WrittenElifs rest more) :
      Stmt.WrittenElifs (⟨condition, body⟩ :: rest)
        (.keyword .elifKw :: cs ++ .keyword .thenKw :: bs ++ more)

/-- The `else` block of an `if` can be written as the given kinds. -/
inductive Stmt.WrittenElse : Option (List Stmt) → List Kind → Prop where
  | none : Stmt.WrittenElse none []
  | some {body : List Stmt} {ks : List Kind} (written : Stmt.WrittenBlock body ks) :
      Stmt.WrittenElse (some body) (.keyword .elseKw :: ks)

/-- The function or method can be written as the given kinds. -/
inductive Stmt.WrittenFunc : FuncOf Stmt → List Kind → Prop where
  | mk (name : String) {params : List Slot} {returns : TypeTag} {body : List Stmt} {ks : List Kind}
      (canDeclare : ∀ slot ∈ params, slot.tag.canDeclare = true)
      (canReturn : returns.canReturn = true) (written : Stmt.WrittenBlock body ks) (span : Span) :
      Stmt.WrittenFunc ⟨name, params, returns, body, span⟩
        ([.keyword .funcKw, returns.kind, .identifier name, .symbol .leftParen] ++
          commas (params.map Slot.kinds) ++ [.symbol .rightParen, .keyword .doKw] ++ ks ++
          [.keyword .endFuncKw])

/-- The fields and methods of a class can be written as the given kinds. Both keep their order, and
alternate in any way. -/
inductive Stmt.WrittenMembers : List Slot → List (FuncOf Stmt) → List Kind → Prop where
  | nil : Stmt.WrittenMembers [] [] []
  | field {slot : Slot} {fields : List Slot} {methods : List (FuncOf Stmt)} {more : List Kind}
      (canDeclare : slot.tag.canDeclare = true) (others : Stmt.WrittenMembers fields methods more) :
      Stmt.WrittenMembers (slot :: fields) methods (slot.fieldKinds ++ more)
  | method {decl : FuncOf Stmt} {fields : List Slot} {methods : List (FuncOf Stmt)}
      {ks more : List Kind} (first : Stmt.WrittenFunc decl ks)
      (others : Stmt.WrittenMembers fields methods more) :
      Stmt.WrittenMembers fields (decl :: methods) (ks ++ more)

/-- The class can be written as the given kinds. The word `do` may stand after its name. -/
inductive Stmt.WrittenClass : ClassOf Stmt → List Kind → Prop where
  | mk (name : String) (withDo : Bool) {fields : List Slot} {methods : List (FuncOf Stmt)}
      {ks : List Kind} (written : Stmt.WrittenMembers fields methods ks) (span : Span) :
      Stmt.WrittenClass ⟨name, fields, methods, span⟩
        ([.keyword .classKw, .identifier name] ++ (if withDo then [.keyword .doKw] else []) ++ ks ++
          [.keyword .endClassKw])

end

theorem writtenOption_optional {α : Type} {written : α → List Kind → Prop} {f : α → List Kind}
    {x : Option α} (h : ∀ y, x = some y → written y (f y)) :
    WrittenOption written x (optional f x) := by
  cases x with
  | none => exact .none
  | some y => exact .some (h y rfl)

theorem Stmt.writtenClause_clauseKinds {s : Stmt} (h : Stmt.wellFormedClause (some s) = true) :
    s.WrittenClause s.clauseKinds := by
  cases s with
  | declare constant tag name initial span =>
    cases initial with
    | none =>
      rw [Stmt.clauseKinds, optional, List.append_nil]
      exact .declare constant h name span
    | some e => exact .declareAs constant h name (e.written_kinds 8) span
  | assign target value span =>
    exact .assign (target.toExpr.written_kinds 8) (value.written_kinds 8) span
  | eval value span => exact .eval (value.written_kinds 8) span
  | _ => cases h

/-- The fields of a class can be written in front of its methods. -/
theorem Stmt.WrittenMembers.fields_append {fields : List Slot} {methods : List (FuncOf Stmt)}
    {ks : List Kind} (hfields : ∀ slot ∈ fields, slot.tag.canDeclare = true)
    (h : Stmt.WrittenMembers [] methods ks) :
    Stmt.WrittenMembers fields methods (fields.flatMap Slot.fieldKinds ++ ks) := by
  induction fields with
  | nil => exact h
  | cons slot fields ih =>
    obtain ⟨hslot, hfields⟩ := List.forall_mem_cons.mp hfields
    rw [List.flatMap_cons, List.append_assoc]
    exact .field hslot (ih hfields)

mutual

theorem Stmt.written_kinds (s : Stmt) (h : s.wellFormed = true) : s.Written s.kinds := by
  match s with
  | .declare .. => exact .clause (Stmt.writtenClause_clauseKinds h)
  | .assign .. => exact .clause (Stmt.writtenClause_clauseKinds rfl)
  | .eval .. => exact .clause (Stmt.writtenClause_clauseKinds rfl)
  | .print value _ => exact .print (value.written_kinds 8) _
  | .branch condition body elifs otherwise _ =>
    simp only [Stmt.wellFormed, Bool.and_eq_true] at h
    exact .branch (condition.written_kinds 8) (Stmt.writtenBlock_kindsBlock body h.1.1)
      (Stmt.writtenElifs_kindsElifs elifs h.1.2) (Stmt.writtenElse_kindsElse otherwise h.2) _
  | .whileLoop condition body _ =>
    exact .whileLoop (condition.written_kinds 8) (Stmt.writtenBlock_kindsBlock body h) _
  | .forLoop init condition increment body _ =>
    simp only [Stmt.wellFormed, Bool.and_eq_true] at h
    refine .forLoop (writtenOption_optional ?_)
      (writtenOption_optional fun e _ => e.written_kinds 8) (writtenOption_optional ?_)
      (Stmt.writtenBlock_kindsBlock body h.2) _
    · rintro s rfl
      exact Stmt.writtenClause_clauseKinds h.1.1
    · rintro s rfl
      exact Stmt.writtenClause_clauseKinds h.1.2
  | .breakLoop _ => exact .breakLoop _
  | .skip _ => exact .skip _
  | .giveBack value _ =>
    exact .giveBack (writtenOption_optional fun e _ => e.written_kinds 8) _
  | .function decl _ => exact .function (Stmt.writtenFunc_kindsFunc decl h) _
  | .classDef ⟨name, fields, methods, span⟩ _ =>
    simp only [Stmt.wellFormed, Stmt.wellFormedClass, Bool.and_eq_true, List.all_eq_true] at h
    have hmembers := (Stmt.writtenMembers_kindsMethods methods h.2).fields_append h.1
    rw [Stmt.kinds, Stmt.kindsClass, List.append_assoc [_, _]]
    exact .classDef (.mk name false hmembers span) _

/-- **Without parentheses that it does not need a program is written as its kinds.** -/
theorem Stmt.writtenBlock_kindsBlock (body : List Stmt) (h : Stmt.wellFormedBlock body = true) :
    Stmt.WrittenBlock body (Stmt.kindsBlock body) := by
  match body with
  | [] => exact .nil
  | s :: rest =>
    simp only [Stmt.wellFormedBlock, Bool.and_eq_true] at h
    exact .cons (s.written_kinds h.1) (Stmt.writtenBlock_kindsBlock rest h.2)

theorem Stmt.writtenElifs_kindsElifs (branches : List (BranchOf Stmt))
    (h : Stmt.wellFormedElifs branches = true) :
    Stmt.WrittenElifs branches (Stmt.kindsElifs branches) := by
  match branches with
  | [] => exact .nil
  | ⟨condition, body⟩ :: rest =>
    simp only [Stmt.wellFormedElifs, Bool.and_eq_true] at h
    exact .cons (condition.written_kinds 8) (Stmt.writtenBlock_kindsBlock body h.1)
      (Stmt.writtenElifs_kindsElifs rest h.2)

theorem Stmt.writtenElse_kindsElse (otherwise : Option (List Stmt))
    (h : Stmt.wellFormedElse otherwise = true) :
    Stmt.WrittenElse otherwise (Stmt.kindsElse otherwise) := by
  match otherwise with
  | none => exact .none
  | some body => exact .some (Stmt.writtenBlock_kindsBlock body h)

theorem Stmt.writtenFunc_kindsFunc (decl : FuncOf Stmt) (h : Stmt.wellFormedFunc decl = true) :
    Stmt.WrittenFunc decl (Stmt.kindsFunc decl) := by
  match decl with
  | ⟨name, params, returns, body, span⟩ =>
    simp only [Stmt.wellFormedFunc, Bool.and_eq_true, List.all_eq_true] at h
    exact .mk name h.1.1 h.1.2 (Stmt.writtenBlock_kindsBlock body h.2) span

theorem Stmt.writtenMembers_kindsMethods (methods : List (FuncOf Stmt))
    (h : Stmt.wellFormedMethods methods = true) :
    Stmt.WrittenMembers [] methods (Stmt.kindsMethods methods) := by
  match methods with
  | [] => exact .nil
  | method :: rest =>
    simp only [Stmt.wellFormedMethods, Bool.and_eq_true] at h
    exact .method (Stmt.writtenFunc_kindsFunc method h.1)
      (Stmt.writtenMembers_kindsMethods rest h.2)

end

end Chalk
