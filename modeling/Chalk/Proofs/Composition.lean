import Chalk.Program.Violation
import Chalk.Proofs.Evaluation

/-!
# What actions are composed of

Every action of the evaluator is put together from a few operations: it looks at the current scope
and at the store, makes objects and changes them, declares and assigns variables, prints, reads,
asks whether the run has to stop, and performs other actions in a block or in a call. It looks at
nothing else of the state and touches the current scope and the depth of calls in no other way.

`Exec.Composed` lists these operations, together with the names that an action may declare in the
scope that it starts in. Expressions declare nothing there, a statement declares at most its own
name, and what happens in a block or a call is declared in a scope of its own. A property of all
actions is then proved by induction on `Exec.Composed`; it needs no assumption on the state, and the
trees of programs are walked through only here.

## Main definitions

* `Exec.inCall` — an action in the scope of a call
* `Exec.Composed` — actions composed of the operations of a run

## Main results

* `Expr.evaluate_composed`, `Stmt.execute_composed`, `invoke_composed`, `execute_composed` — the
  actions of the evaluator
-/

namespace Chalk

namespace Exec

/-- An action in the scope of a call, one call deeper, unless there are too many calls already. The
variables of the call are made by `frame`. -/
def inCall {α : Type} (span : Span) (frame : Store → Except (Failure Fault) Bindings)
    (closure : ScopeId) (action : Exec α) : Exec α := do
  let m ← get
  if m.maxDepth ≤ m.depth then fault (.callDepthExceeded m.maxDepth) span
  else
    let bindings ← query span frame
    let scope ← alter fun s => s.newScope { bindings, parent := some closure }
    deeper (within scope action)

/-- Actions composed of the operations of a run. Of the names that it declares, those in `names` are
the ones that it may declare in the scope it starts in. -/
inductive Composed : (String → Prop) → {α : Type} → Exec α → Prop where
  | pure {names : String → Prop} {α : Type} (a : α) : Composed names (pure a : Exec α)
  | throw {names : String → Prop} {α : Type} (failure : Failure RuntimeError) :
      Composed names (throw failure : Exec α)
  | bind {names : String → Prop} {α β : Type} {x : Exec β} {f : β → Exec α}
      (first : Composed names x) (next : ∀ b, Composed names (f b)) : Composed names (x >>= f)
  | look {names : String → Prop} {α : Type} {f : ScopeId → Store → Exec α}
      (next : ∀ scope store, Composed names (f scope store)) :
      Composed names (get >>= fun m => f m.scope m.store)
  /-- Objects are made and changed without any effect on scopes. -/
  | alter {names : String → Prop} {α : Type} {f : Store → α × Store}
      (same : ∀ s, (f s).2.scopes = s.scopes) : Composed names (alter f)
  | update {names : String → Prop} {α : Type} {span : Span} {f : Store → Outcome α}
      (same : ∀ s, (f s).store.scopes = s.scopes) : Composed names (update span f)
  | define {names : String → Prop} {name : String} {binding : Binding} {span : Span}
      (allowed : names name) : Composed names (define name binding span)
  | assign {names : String → Prop} {scope : ScopeId} {name : String} {value : Value} {span : Span} :
      Composed names (Exec.update span fun s => s.assign scope name value)
  | print {names : String → Prop} (text : String) : Composed names (print text)
  | read {names : String → Prop} (prompt : String) : Composed names (read prompt)
  | checkCancelled {names : String → Prop} (span : Span) : Composed names (checkCancelled span)
  | inBlock {names inner : String → Prop} {α : Type} {x : Exec α} (inside : Composed inner x) :
      Composed names (inBlock x)
  | inCall {names inner : String → Prop} {α : Type} {x : Exec α} {span : Span}
      {frame : Store → Except (Failure Fault) Bindings} {closure : ScopeId}
      (inside : Composed inner x) : Composed names (inCall span frame closure x)

variable {names : String → Prop} {α : Type}

theorem Composed.fault (f : Fault) (span : Span) : Composed names (fault f span : Exec α) :=
  .throw _

theorem Composed.liftAt (span : Span) (r : Except (Failure Fault) α) :
    Composed names (liftAt span r) := by
  cases r with
  | ok a => exact .pure a
  | error failure => exact .throw _

theorem Composed.store_bind {f : Store → Exec α} (next : ∀ s, Composed names (f s)) :
    Composed names (store >>= f) :=
  .look (f := fun _ s => f s) fun _ s => next s

theorem Composed.query (span : Span) (f : Store → Except (Failure Fault) α) :
    Composed names (query span f) :=
  .store_bind fun s => .liftAt span (f s)

theorem Composed.iterate {turn : Exec (Option α)} (hturn : Composed names turn) (fuel : Nat) :
    Composed names (iterate turn fuel) := by
  induction fuel with
  | zero => exact .throw _
  | succ fuel ih =>
    refine .bind hturn fun r => ?_
    cases r with
    | some a => exact .pure a
    | none => exact ih

end Exec

open Exec

/-! ## Operations on objects leave scopes alone -/

namespace Store

theorem scopes_writeItem (s : Store) (fuel : Nat) (container index value : Value) :
    (s.writeItem fuel container index value).store.scopes = s.scopes := by
  cases h : s.writeItem fuel container index value with
  | ok _ t =>
    obtain ⟨id, place, -, rfl⟩ | ⟨id, entries, -, -, rfl⟩ := writeItem_eq_ok h <;> rfl
  | error f t => rw [writeItem_eq_error h]; rfl

theorem scopes_writeField (s : Store) (id : InstanceId) (name : String) (value : Value) :
    (s.writeField id name value).store.scopes = s.scopes := by
  cases h : s.writeField id name value with
  | ok _ t =>
    obtain ⟨field, -, -, rfl⟩ := writeField_eq_ok h
    rfl
  | error f t => rw [writeField_eq_error h]; rfl

theorem scopes_callMethod (s : Store) (fuel : Nat) (method : Method) (receiver : Value)
    (arguments : List Value) :
    (s.callMethod fuel method receiver arguments).store.scopes = s.scopes := by
  cases h : s.callMethod fuel method receiver arguments with
  | ok v t =>
    obtain ⟨id, -, rfl⟩ | ⟨id, -, rfl⟩ | ⟨-, rfl⟩ | ⟨id, -, rfl⟩ | ⟨id, place, entry, -, -, rfl⟩ :=
      callMethod_eq_ok h <;> rfl
  | error f t => rw [callMethod_eq_error h]; rfl

end Store

/-! ## Expressions -/

/-- Calls made this way are composed of the operations of a run, and declare nothing in the scope
that they are made in. -/
def Invoke.Composed (invoke : Invoke) : Prop :=
  ∀ (names : String → Prop) (callable : Callable) (arguments : List Value) (span : Span),
    Exec.Composed names (invoke callable arguments span)

section Trees

variable {invoke : Invoke} {fuel : Nat} {names : String → Prop}

theorem composed_logicalOperand (op : LogicalOp) (span : Span) (v : Value) :
    Exec.Composed names (logicalOperand op span v) := by
  rw [logicalOperand.eq_def]
  split
  · exact .pure _
  · exact .store_bind fun _ => .fault _ span

theorem composed_callValue (hinv : invoke.Composed) (callee : Value) (arguments : List Value)
    (span : Span) : Exec.Composed names (callValue invoke callee arguments span) := by
  rw [callValue.eq_def]
  split
  · exact hinv names _ arguments span
  · exact .store_bind fun _ => .fault _ span

mutual

theorem Expr.evaluate_composed (hinv : invoke.Composed) (names : String → Prop) (e : Expr) :
    Exec.Composed names (e.evaluate invoke fuel) := by
  match e with
  | .number .. | .string .. | .boolean .. => exact .pure _
  | .name id span =>
    exact .look (f := fun scope s => liftAt span (s.getVariable scope id)) fun _ _ => .liftAt span _
  | .receiver span =>
    exact .look (f := fun scope s => liftAt span (s.getVariable scope "this"))
      fun _ _ => .liftAt span _
  | .list items _ =>
    rw [Expr.evaluate]
    refine .bind (Expr.evaluateList_composed hinv names items) fun values => ?_
    exact .bind (.alter fun _ => rfl) fun _ => .pure _
  | .dict entries _ =>
    rw [Expr.evaluate]
    refine .bind (Expr.evaluateEntries_composed hinv names entries []) fun entries => ?_
    exact .bind (.alter fun _ => rfl) fun _ => .pure _
  | .binary op left right span =>
    rw [Expr.evaluate]
    refine .bind (left.evaluate_composed hinv names) fun a => ?_
    exact .bind (right.evaluate_composed hinv names) fun b => .query span _
  | .logical op left right _ =>
    rw [Expr.evaluate]
    refine .bind (left.evaluate_composed hinv names) fun v => ?_
    refine .bind (composed_logicalOperand op left.span v) fun a => ?_
    split
    · exact .pure _
    · exact .pure _
    · refine .bind (right.evaluate_composed hinv names) fun w => ?_
      exact .bind (composed_logicalOperand op right.span w) fun b => .pure _
  | .unary op operand span =>
    rw [Expr.evaluate]
    exact .bind (operand.evaluate_composed hinv names) fun a => .query span _
  | .call callee arguments span =>
    rw [Expr.evaluate]
    refine .bind (callee.evaluate_composed hinv names) fun f => ?_
    refine .bind (Expr.evaluateList_composed hinv names arguments) fun values => ?_
    exact composed_callValue hinv f values span
  | .field object id span =>
    rw [Expr.evaluate]
    exact .bind (object.evaluate_composed hinv names) fun receiver => .query span _
  | .index container position span =>
    rw [Expr.evaluate]
    refine .bind (container.evaluate_composed hinv names) fun a => ?_
    exact .bind (position.evaluate_composed hinv names) fun b => .query span _

theorem Expr.evaluateList_composed (hinv : invoke.Composed) (names : String → Prop)
    (es : List Expr) : Exec.Composed names (Expr.evaluateList invoke fuel es) := by
  match es with
  | [] => exact .pure _
  | e :: es =>
    rw [Expr.evaluateList]
    refine .bind (e.evaluate_composed hinv names) fun v => ?_
    exact .bind (Expr.evaluateList_composed hinv names es) fun vs => .pure _

theorem Expr.evaluateEntries_composed (hinv : invoke.Composed) (names : String → Prop)
    (es : List (Expr × Expr)) (done : Entries) :
    Exec.Composed names (Expr.evaluateEntries invoke fuel es done) := by
  match es with
  | [] => exact .pure _
  | (key, value) :: rest =>
    rw [Expr.evaluateEntries]
    refine .bind (key.evaluate_composed hinv names) fun k => ?_
    refine .bind (value.evaluate_composed hinv names) fun v => ?_
    refine .bind (.query key.span _) fun done => ?_
    exact Expr.evaluateEntries_composed hinv names rest done

end

theorem Expr.condition_composed (hinv : invoke.Composed) (names : String → Prop) (e : Expr) :
    Exec.Composed names (e.condition invoke fuel) := by
  rw [Expr.condition]
  refine .bind (e.evaluate_composed hinv names) fun v => ?_
  split
  · exact .pure _
  · exact .store_bind fun _ => .fault _ e.span

theorem Expr.conditionOption_composed (hinv : invoke.Composed) (names : String → Prop)
    (condition : Option Expr) :
    Exec.Composed names (Expr.conditionOption invoke fuel condition) := by
  cases condition with
  | none => exact .pure _
  | some e => exact e.condition_composed hinv names

/-! ## Statements -/

theorem Target.assign_composed (hinv : invoke.Composed) (target : Target) (value : Expr) :
    Exec.Composed names (target.assign invoke fuel value) := by
  cases target with
  | name id span =>
    refine .bind (value.evaluate_composed hinv names) fun v => ?_
    exact .look (f := fun scope _ => Exec.update span fun s => s.assign scope id v)
      fun _ _ => .assign
  | index container position =>
    refine .bind (container.evaluate_composed hinv names) fun c => ?_
    refine .bind (position.evaluate_composed hinv names) fun i => ?_
    refine .bind (value.evaluate_composed hinv names) fun v => ?_
    exact .update fun s => s.scopes_writeItem fuel c i v
  | field object id =>
    refine .bind (object.evaluate_composed hinv names) fun receiver => ?_
    refine .bind (value.evaluate_composed hinv names) fun v => ?_
    split
    · exact .update fun s => s.scopes_writeField _ id v
    · exact .store_bind fun _ => .fault _ object.span

theorem Stmt.loopTurn_composed (hinv : invoke.Composed) {condition : Option Expr}
    {increment : Option Stmt} {body : List Stmt} {span : Span} {inner : String → Prop}
    (hbody : Exec.Composed inner (Stmt.executeSeq invoke fuel body))
    (hincrement : Exec.Composed names (Stmt.executeOption invoke fuel increment)) :
    Exec.Composed names (Stmt.loopTurn invoke fuel condition increment body span) := by
  rw [Stmt.loopTurn]
  refine .bind (.checkCancelled span) fun _ => ?_
  refine .bind (Expr.conditionOption_composed hinv names condition) fun goOn => ?_
  split
  · refine .bind (.inBlock hbody) fun signal => ?_
    split
    · exact .pure _
    · exact .bind hincrement fun _ => .pure _
  · exact .pure _

mutual

/-- **A statement declares at most its own name** in the scope that it is executed in. -/
theorem Stmt.execute_composed (hinv : invoke.Composed) (s : Stmt) {names : String → Prop}
    (hnames : ∀ name ∈ s.declared, names name) : Exec.Composed names (s.execute invoke fuel) := by
  match s with
  | .declare constant tag name (some e) span =>
    rw [Stmt.execute]
    refine .bind (e.evaluate_composed hinv names) fun v => ?_
    exact .bind (.define (hnames name List.mem_cons_self)) fun _ => .pure _
  | .declare constant tag name none span =>
    exact .bind (.pure _) fun v =>
      .bind (.define (hnames name List.mem_cons_self)) fun _ => .pure _
  | .assign target value _ =>
    rw [Stmt.execute]
    exact .bind (target.assign_composed hinv value) fun _ => .pure _
  | .print value _ =>
    rw [Stmt.execute]
    refine .bind (value.evaluate_composed hinv names) fun v => .store_bind fun s => ?_
    exact .bind (.print _) fun _ => .pure _
  | .branch condition body elifs otherwise _ =>
    rw [Stmt.execute]
    refine .bind (condition.condition_composed hinv names) fun b => ?_
    split
    · exact .inBlock (Stmt.executeSeq_composed hinv body)
    · exact Stmt.executeElifs_composed hinv names elifs
        (Stmt.executeElse_composed hinv names otherwise)
  | .whileLoop condition body span =>
    rw [Stmt.execute_whileLoop]
    exact .iterate (Stmt.loopTurn_composed hinv (Stmt.executeSeq_composed hinv body) (.pure _)) fuel
  | .forLoop init condition increment body span =>
    rw [Stmt.execute_forLoop]
    refine .inBlock (.bind (Stmt.executeOption_composed hinv init) fun _ => ?_)
    exact .iterate (Stmt.loopTurn_composed hinv (Stmt.executeSeq_composed hinv body)
      (Stmt.executeOption_composed hinv increment)) fuel
  | .breakLoop _ => exact .pure _
  | .skip _ => exact .pure _
  | .giveBack (some e) _ =>
    rw [Stmt.execute]
    exact .bind (e.evaluate_composed hinv names) fun v => .pure _
  | .giveBack none _ => exact .pure _
  | .function decl span =>
    refine .look (f := fun scope _ => do
      let id ← Exec.alter fun s => s.newFunction { decl, scope }
      Exec.define decl.name
        { value := .callable (.function id), tag := .function, constant := false } span
      pure Signal.normal) fun scope _ => ?_
    refine .bind (.alter fun _ => rfl) fun id => ?_
    exact .bind (.define (hnames decl.name List.mem_cons_self)) fun _ => .pure _
  | .classDef decl span =>
    refine .look (f := fun scope _ => do
      let id ← Exec.alter fun s => s.newClass { decl, scope }
      Exec.define decl.name
        { value := .callable (.classObject id), tag := .function, constant := false } span
      pure Signal.normal) fun scope _ => ?_
    refine .bind (.alter fun _ => rfl) fun id => ?_
    exact .bind (.define (hnames decl.name List.mem_cons_self)) fun _ => .pure _
  | .eval value _ =>
    rw [Stmt.execute]
    exact .bind (value.evaluate_composed hinv names) fun _ => .pure _

theorem Stmt.executeOption_composed (hinv : invoke.Composed) (s : Option Stmt) :
    Exec.Composed (fun _ => True) (Stmt.executeOption invoke fuel s) := by
  match s with
  | none => exact .pure _
  | some s => exact s.execute_composed hinv fun _ _ => trivial

theorem Stmt.executeSeq_composed (hinv : invoke.Composed) (ss : List Stmt) :
    Exec.Composed (fun _ => True) (Stmt.executeSeq invoke fuel ss) := by
  match ss with
  | [] => exact .pure _
  | s :: rest =>
    rw [Stmt.executeSeq]
    refine .bind (s.execute_composed hinv fun _ _ => trivial) fun signal => ?_
    split
    · exact Stmt.executeSeq_composed hinv rest
    · exact .pure _

theorem Stmt.executeElifs_composed (hinv : invoke.Composed) (names : String → Prop)
    (elifs : List (BranchOf Stmt)) {otherwise : Exec Signal}
    (hotherwise : Exec.Composed names otherwise) :
    Exec.Composed names (Stmt.executeElifs invoke fuel otherwise elifs) := by
  match elifs with
  | [] => exact hotherwise
  | ⟨condition, body⟩ :: rest =>
    rw [Stmt.executeElifs]
    refine .bind (condition.condition_composed hinv names) fun b => ?_
    split
    · exact .inBlock (Stmt.executeSeq_composed hinv body)
    · exact Stmt.executeElifs_composed hinv names rest hotherwise

theorem Stmt.executeElse_composed (hinv : invoke.Composed) (names : String → Prop)
    (otherwise : Option (List Stmt)) :
    Exec.Composed names (Stmt.executeElse invoke fuel otherwise) := by
  match otherwise with
  | none => exact .pure _
  | some body => exact .inBlock (Stmt.executeSeq_composed hinv body)

end

end Trees

/-! ## Calls -/

section Calls

variable {names inner : String → Prop} {run : List Stmt → Exec Signal}

/-- A call is its body in the scope of the call, and then the check of what it gives back. -/
theorem callFunction_eq (run : List Stmt → Exec Signal) (decl : Func) (closure : ScopeId)
    (this : Option Value) (arguments : List Value) (span : Span) :
    callFunction run decl closure this arguments span = (do
      let signal ←
        Exec.inCall span (fun s => s.frame decl this arguments) closure (run decl.body)
      match (← Exec.store).result decl signal with
      | .ok value => return value
      | .error f => Exec.fault f span) := by
  rw [callFunction, Exec.inCall, bind_assoc]
  congr 1
  funext m
  split
  · rfl
  · rw [bind_assoc]
    rfl

theorem callFunction_composed (hrun : ∀ body, Exec.Composed inner (run body)) (decl : Func)
    (closure : ScopeId) (this : Option Value) (arguments : List Value) (span : Span) :
    Exec.Composed names (callFunction run decl closure this arguments span) := by
  rw [callFunction_eq]
  refine .bind (.inCall (hrun decl.body)) fun signal => .store_bind fun s => ?_
  split
  · exact .pure _
  · exact .fault _ span

theorem callClass_composed (hrun : ∀ body, Exec.Composed inner (run body)) (id : ClassId)
    (arguments : List Value) (span : Span) :
    Exec.Composed names (callClass run id arguments span) := by
  rw [callClass]
  refine .bind (.alter fun _ => rfl) fun object => .store_bind fun s => ?_
  split
  · exact .bind (callFunction_composed hrun _ _ _ arguments span) fun _ => .pure _
  · exact .pure _

theorem callNative_composed (f : Native) (arguments : List Value) :
    Exec.Composed names (callNative f arguments) := by
  cases f with
  | input => exact .store_bind fun s => .bind (.read _) fun _ => .pure _

theorem callBound_composed (hrun : ∀ body, Exec.Composed inner (run body)) (receiver : InstanceId)
    (name : String) (arguments : List Value) (span : Span) :
    Exec.Composed names (callBound run receiver name arguments span) := by
  rw [callBound]
  refine .store_bind fun s => ?_
  split
  · exact callFunction_composed hrun _ _ _ arguments span
  · exact .fault _ span

/-- **Calls are composed of the operations of a run**, by induction on the budget of nested
calls. -/
theorem invoke_composed (fuel : Nat) : (invoke fuel).Composed := by
  induction fuel with
  | zero => exact fun _ _ _ _ => .throw _
  | succ fuel ih =>
    intro names callable arguments span
    have hrun : ∀ body,
        Exec.Composed (fun _ => True) (Stmt.executeSeq (invoke fuel) fuel body) :=
      fun body => Stmt.executeSeq_composed ih body
    rw [invoke]
    refine .store_bind fun s => ?_
    split
    · exact .fault _ span
    · cases callable with
      | native f => exact callNative_composed f arguments
      | builtin receiver method =>
        exact .update fun s => s.scopes_callMethod fuel method receiver.toValue arguments
      | function id => exact callFunction_composed hrun _ _ _ arguments span
      | method receiver name => exact callBound_composed hrun receiver name arguments span
      | classObject id => exact callClass_composed hrun id arguments span

/-- **Programs are composed of the operations of a run.** -/
theorem execute_composed (fuel : Nat) (program : List Stmt) :
    Exec.Composed (fun _ => True) (execute fuel program) := by
  induction program with
  | nil => exact .pure _
  | cons s rest ih =>
    refine .bind (.checkCancelled s.span) fun _ => ?_
    refine .bind (s.execute_composed (invoke_composed fuel) fun _ _ => trivial) fun signal => ?_
    split
    · exact .fault _ s.span
    · exact ih

end Calls

end Chalk
