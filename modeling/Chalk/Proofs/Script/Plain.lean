import Chalk.Proofs.Script.Program

/-!
# Plain scripts

Expressions compute. Their scripts neither declare nor assign names, make no functions and classes,
and have no loops; what they can do beyond steps is to make calls.

## Main definitions

* `Script.Plain` — scripts of plain steps and calls

## Main results

* `Expr.plain_script` — the script of an expression is plain
-/

namespace Chalk

/-- A step that neither declares nor assigns a name, nor makes a function or class. -/
def Step.Plain : {α : Type} → Step α → Prop
  | _, .define .. => False
  | _, .assign .. => False
  | _, .newFunction _ => False
  | _, .newClass _ => False
  | _, _ => True

/-- A script of plain steps. If `calls` is set, it may make calls as well. -/
def Script.Plain (calls : Bool) : {α : Type} → Script α → Prop
  | _, .pure _ => True
  | _, .bind x f => x.Plain calls ∧ ∀ b, (f b).Plain calls
  | _, .look next => ∀ scope s, (next scope s).Plain calls
  | _, .step s => s.Plain
  | _, .call .. => calls = true
  | _, _ => False

section Walk

open Script

variable {α β : Type} {calls : Bool}

theorem Script.Plain.bind {x : Script β} {f : β → Script α} (hx : x.Plain calls)
    (hf : ∀ b, (f b).Plain calls) : (x >>= f).Plain calls :=
  ⟨hx, hf⟩

theorem Script.Plain.look {next : ScopeId → Store → Script α}
    (h : ∀ scope s, (next scope s).Plain calls) : (Script.look next).Plain calls :=
  h

theorem Script.plain_find (key : Value) (entries : Entries) (start : Nat) :
    (find key entries start).Plain calls := by
  induction entries generalizing start with
  | nil => exact trivial
  | cons entry rest ih =>
    refine .bind trivial fun b => ?_
    split
    · exact trivial
    · exact ih (start + 1)

theorem Script.plain_insert (entries : Entries) (key value : Value) :
    (insert entries key value).Plain calls := by
  refine .bind (plain_find key entries 0) fun place => ?_
  split <;> exact trivial

theorem Script.plain_binary (op : BinaryOp) (left right : Value) (span : Span) :
    (binary op left right span).Plain calls := by
  rw [binary]
  split
  · exact .bind trivial fun _ => trivial
  · exact trivial

theorem Script.plain_element (container index : Value) (span : Span) :
    (element container index span).Plain calls := by
  cases container with
  | dict id => exact .look fun _ s => .bind (plain_find index (s.dict id) 0) fun _ => trivial
  | _ => exact trivial

theorem Script.plain_writeItem (container index value : Value) (span : Span) :
    (writeItem container index value span).Plain calls := by
  cases container with
  | dict id =>
    exact .look fun _ s => .bind (plain_insert (s.dict id) index value) fun _ => trivial
  | _ => exact trivial

theorem Script.plain_callMethod (method : Method) (receiver : Value) (arguments : List Value)
    (span : Span) : (callMethod method receiver arguments span).Plain calls := by
  rw [callMethod.eq_def]
  split
  · split
    · exact .look fun _ _ => .bind (plain_find _ _ 0) fun _ => trivial
    · exact trivial
  · exact trivial

theorem Script.plain_logicalOperand (op : LogicalOp) (span : Span) (value : Value) :
    (logicalOperand op span value).Plain calls := by
  cases value <;> exact trivial

theorem Script.plain_callValue (callee : Value) (arguments : List Value) (span : Span) :
    (callValue callee arguments span).Plain true := by
  cases callee with
  | callable callable => exact rfl
  | _ => exact trivial

mutual

theorem Expr.plain_script (e : Expr) : e.script.Plain true := by
  match e with
  | .number .. | .string .. | .boolean .. | .name .. | .receiver .. => exact trivial
  | .list items _ =>
    exact .bind (Expr.plain_scriptList items) fun _ => .bind trivial fun _ => trivial
  | .dict entries _ =>
    exact .bind (Expr.plain_scriptEntries entries []) fun _ => .bind trivial fun _ => trivial
  | .binary op left right span =>
    exact .bind left.plain_script fun _ => .bind right.plain_script fun _ =>
      plain_binary op _ _ span
  | .logical op left right _ =>
    refine .bind left.plain_script fun _ => .bind (plain_logicalOperand op _ _) fun _ => ?_
    split
    · exact trivial
    · exact trivial
    · exact .bind right.plain_script fun _ => .bind (plain_logicalOperand op _ _) fun _ => trivial
  | .unary op operand span => exact .bind operand.plain_script fun _ => trivial
  | .call callee arguments span =>
    exact .bind callee.plain_script fun _ => .bind (Expr.plain_scriptList arguments) fun _ =>
      plain_callValue _ _ span
  | .field object id span => exact .bind object.plain_script fun _ => trivial
  | .index container position span =>
    exact .bind container.plain_script fun _ => .bind position.plain_script fun _ =>
      plain_element _ _ span

theorem Expr.plain_scriptList (es : List Expr) : (Expr.scriptList es).Plain true := by
  match es with
  | [] => exact trivial
  | e :: es =>
    exact .bind e.plain_script fun _ => .bind (Expr.plain_scriptList es) fun _ => trivial

theorem Expr.plain_scriptEntries (es : List (Expr × Expr)) (done : Entries) :
    (Expr.scriptEntries es done).Plain true := by
  match es with
  | [] => exact trivial
  | (key, value) :: rest =>
    exact .bind key.plain_script fun _ => .bind value.plain_script fun _ =>
      .bind (plain_insert done _ _) fun done => Expr.plain_scriptEntries rest done

end

theorem Expr.plain_scriptCondition (e : Expr) : e.scriptCondition.Plain true :=
  .bind e.plain_script fun value => by cases value <;> exact trivial

theorem Expr.plain_scriptConditionOption (e : Option Expr) :
    (Expr.scriptConditionOption e).Plain true := by
  cases e with
  | none => exact trivial
  | some e => exact e.plain_scriptCondition

end Walk

end Chalk
