import Chalk.Proofs.Script.Expression

/-!
# The scripts of statements, calls and programs

The script of a statement, of a call and of a program, up to the script that a whole run performs.
A script leaves calls open; `Script.run` fills them with the calls of a run, each of which performs
the script of the call with the rest of the budget.

## Main definitions

* `Stmt.script` — the script of a statement
* `Script.activate`, `Script.ofCall` — the scripts of a body and of a call
* `Script.ofProgram` — the script of a program
* `Script.run` — a script with the calls of a run

## Main results

* `Stmt.perform_script` — the script of a statement does what its execution does
* `Script.invoke_succ`, `Script.run_ofProgram` — calls and programs
-/

namespace Chalk

/-! ## Statements -/

/-- The script of an assignment. -/
def Target.script (value : Expr) : Target → Script Unit
  | .name id span => do
    let v ← value.script
    .step (.assign id v span)
  | .index container position => do
    let c ← container.script
    let i ← position.script
    let v ← value.script
    Script.writeItem c i v (container.span.through position.span)
  | .field object id => do
    let receiver ← object.script
    let v ← value.script
    match receiver with
    | .instance i => .step (.operate object.span {
        apply := fun s => s.writeField i id v
        same := fun s => s.sameCode_writeField i id v
        ordinary := Store.ordinary_writeField })
    | other =>
      Script.fault object.span fun s => .notAssignable (s.typeName other) ("field '" ++ id ++ "'")

mutual

/-- The script of a statement. -/
def Stmt.script : Stmt → Script Signal
  | .declare constant tag name initial span => do
    let value ←
      match initial with
      | some e => e.script
      | none => pure .null
    .step (.define name { value, tag, constant } span)
    return .normal
  | .assign target value _ => do
    target.script value
    return .normal
  | .print value _ => do
    let v ← value.script
    .look fun _ s => do
      .step (.print (s.render v ++ "\n"))
      return .normal
  | .branch condition body elifs otherwise _ => do
    if ← condition.scriptCondition then .inBlock (Stmt.scriptSeq body)
    else Stmt.scriptElifs (Stmt.scriptElse otherwise) elifs
  | .whileLoop condition body span =>
    .loop (.turn span true condition.scriptCondition (Stmt.scriptSeq body) (return .normal))
  | .forLoop init condition increment body span =>
    .inBlock do
      let _ ← Stmt.scriptOption init
      .loop (.turn span condition.isSome (Expr.scriptConditionOption condition)
        (Stmt.scriptSeq body) (Stmt.scriptOption increment))
  | .breakLoop _ => return .breakLoop
  | .skip _ => return .skip
  | .giveBack value _ => do
    match value with
    | some e => return .giveBack (some (← e.script))
    | none => return .giveBack none
  | .function decl span => do
    let id ← .step (.newFunction decl)
    .step (.define decl.name
      { value := .callable (.function id), tag := .function, constant := false } span)
    return .normal
  | .classDef decl span => do
    let id ← .step (.newClass decl)
    .step (.define decl.name
      { value := .callable (.classObject id), tag := .function, constant := false } span)
    return .normal
  | .eval value _ => do
    let _ ← value.script
    return .normal

/-- The script of a statement that may be missing. -/
def Stmt.scriptOption : Option Stmt → Script Signal
  | none => return .normal
  | some s => s.script

/-- The script of statements in order. -/
def Stmt.scriptSeq : List Stmt → Script Signal
  | [] => return .normal
  | s :: rest => do
    match ← s.script with
    | .normal => Stmt.scriptSeq rest
    | signal => return signal

/-- The script of the `elif` branches of an `if`. -/
def Stmt.scriptElifs (otherwise : Script Signal) : List (BranchOf Stmt) → Script Signal
  | [] => otherwise
  | ⟨condition, body⟩ :: rest => do
    if ← condition.scriptCondition then .inBlock (Stmt.scriptSeq body)
    else Stmt.scriptElifs otherwise rest

/-- The script of an `else` block that may be missing. -/
def Stmt.scriptElse : Option (List Stmt) → Script Signal
  | none => return .normal
  | some body => .inBlock (Stmt.scriptSeq body)

end

section Statements

open Script

variable {invoke : Invoke} {fuel : Nat}

theorem Target.perform_script (target : Target) (value : Expr) :
    (target.script value).perform invoke fuel = target.assign invoke fuel value := by
  cases target with
  | name id span =>
    simp only [Target.script, Target.assign, perform_bind, value.perform_script]
    rfl
  | index container position =>
    simp only [Target.script, Target.assign, perform_bind, container.perform_script,
      position.perform_script, value.perform_script, perform_writeItem]
  | field object id =>
    simp only [Target.script, Target.assign, perform_bind, object.perform_script,
      value.perform_script]
    congr 1
    funext receiver
    congr 1
    funext v
    cases receiver <;> rfl

mutual

/-- **The script of a statement does what its execution does.** -/
theorem Stmt.perform_script (s : Stmt) :
    s.script.perform invoke fuel = s.execute invoke fuel := by
  match s with
  | .declare constant tag name (some e) span =>
    simp only [Stmt.script, Stmt.execute, perform_bind, e.perform_script]
    rfl
  | .declare constant tag name none span => rfl
  | .assign target value _ =>
    simp only [Stmt.script, Stmt.execute, perform_bind, target.perform_script, perform_pure]
  | .print value _ =>
    simp only [Stmt.script, Stmt.execute, perform_bind, value.perform_script]
    rfl
  | .branch condition body elifs otherwise _ =>
    simp only [Stmt.script, Stmt.execute, perform_bind, condition.perform_scriptCondition]
    congr 1
    funext b
    cases b with
    | true => exact congrArg Exec.inBlock (Stmt.perform_scriptSeq body)
    | false => exact Stmt.perform_scriptElifs elifs (Stmt.perform_scriptElse otherwise)
  | .whileLoop condition body span =>
    rw [Stmt.execute_whileLoop, Stmt.script, perform, perform, condition.perform_scriptCondition,
      Stmt.perform_scriptSeq body]
    rfl
  | .forLoop init condition increment body span =>
    have hcondition : Exec.decides condition.isSome
        ((Expr.scriptConditionOption condition).perform invoke fuel) =
          Expr.conditionOption invoke fuel condition := by
      cases condition with
      | none => rfl
      | some e => exact e.perform_scriptCondition
    rw [Stmt.execute_forLoop, Stmt.script, perform, perform_bind, Stmt.perform_scriptOption init,
      perform, perform, hcondition, Stmt.perform_scriptSeq body,
      Stmt.perform_scriptOption increment]
    rfl
  | .breakLoop _ => rfl
  | .skip _ => rfl
  | .giveBack (some e) _ =>
    simp only [Stmt.script, Stmt.execute, perform_bind, e.perform_script, perform_pure]
  | .giveBack none _ => rfl
  | .function decl span => rfl
  | .classDef decl span => rfl
  | .eval value _ =>
    simp only [Stmt.script, Stmt.execute, perform_bind, value.perform_script, perform_pure]

theorem Stmt.perform_scriptOption (s : Option Stmt) :
    (Stmt.scriptOption s).perform invoke fuel = Stmt.executeOption invoke fuel s := by
  match s with
  | none => rfl
  | some s => exact s.perform_script

theorem Stmt.perform_scriptSeq (ss : List Stmt) :
    (Stmt.scriptSeq ss).perform invoke fuel = Stmt.executeSeq invoke fuel ss := by
  match ss with
  | [] => rfl
  | s :: rest =>
    simp only [Stmt.scriptSeq, Stmt.executeSeq, perform_bind, s.perform_script]
    congr 1
    funext signal
    cases signal with
    | normal => exact Stmt.perform_scriptSeq rest
    | _ => rfl

theorem Stmt.perform_scriptElifs (elifs : List (BranchOf Stmt)) {otherwise : Script Signal}
    {action : Exec Signal} (h : otherwise.perform invoke fuel = action) :
    (Stmt.scriptElifs otherwise elifs).perform invoke fuel =
      Stmt.executeElifs invoke fuel action elifs := by
  match elifs with
  | [] => exact h
  | ⟨condition, body⟩ :: rest =>
    simp only [Stmt.scriptElifs, Stmt.executeElifs, perform_bind, condition.perform_scriptCondition]
    congr 1
    funext b
    cases b with
    | true => exact congrArg Exec.inBlock (Stmt.perform_scriptSeq body)
    | false => exact Stmt.perform_scriptElifs rest h

theorem Stmt.perform_scriptElse (otherwise : Option (List Stmt)) :
    (Stmt.scriptElse otherwise).perform invoke fuel =
      Stmt.executeElse invoke fuel otherwise := by
  match otherwise with
  | none => rfl
  | some body => exact congrArg Exec.inBlock (Stmt.perform_scriptSeq body)

end

end Statements

/-! ## Calls and programs -/

theorem Signal.escape?_ne_cancelled (signal : Signal) {f : Fault} (h : signal.escape? = some f) :
    f ≠ .cancelled := by
  cases signal with
  | normal => cases h
  | _ => cases h; rintro ⟨⟩

/-- What a call gives back, checked against the declared type. -/
def Store.checkedResult (decl : Func) (signal : Signal) (s : Store) :
    Except (Failure Fault) Value :=
  match s.result decl signal with
  | .ok value => .ok value
  | .error f => .error (.fault f)

/-- The fresh instance of a class has the class as its owner. -/
theorem Store.instance?_instantiate (s : Store) (id : ClassId) :
    (s.instantiate id).2.instance? (s.instantiate id).1 =
      some { owner := id, fields := (s.classObject id).decl.initialFields } := by
  rw [instantiate, instance?_newInstance]
  exact if_pos rfl

namespace Script

/-- Runs the body of a function or method and checks what it gives back. -/
def activate (activation : Activation) (decl : Func) (arguments : List Value) (span : Span) :
    Script Value := do
  let signal ← inCall activation decl arguments span (Stmt.scriptSeq decl.body)
  query span (Store.checkedResult decl signal) fun s e h => by
    rw [Store.checkedResult] at h
    split at h <;> cases h
    rename_i hresult
    rintro rfl
    exact s.result_ne_cancelled hresult

/-- Calls a class. -/
def callClass (id : ClassId) (arguments : List Value) (span : Span) : Script Value := do
  let object ← alter fun s => s.instantiate id
  look fun _ s =>
    match s.initializer? id with
    | some init => do
      let _ ← activate (.method object) init arguments span
      return .instance object
    | none => return .instance object

/-- Calls a method of an instance. -/
def callBound (receiver : InstanceId) (name : String) (arguments : List Value) (span : Span) :
    Script Value :=
  look fun _ s =>
    match s.instance? receiver, s.instanceMethod? receiver name with
    | some _, some decl => activate (.method receiver) decl arguments span
    | _, _ => fault span fun s => .unknownMember (s.instanceClass receiver) name

/-- The script of a call. -/
def ofCall (callable : Callable) (arguments : List Value) (span : Span) : Script Value :=
  look fun _ s =>
    if arguments.length != s.arity callable then
      fault span fun s =>
        .arityMismatch (s.callableName callable) (s.arity callable) arguments.length
    else
      match callable with
      | .native .input => do
        let answer ← step (.read ((arguments.head?.map s.render).getD ""))
        return .string answer
      | .builtin receiver method => callMethod method receiver.toValue arguments span
      | .function id => activate (.function id) (s.function id).decl arguments span
      | .method receiver name => callBound receiver name arguments span
      | .classObject id => callClass id arguments span

/-- The script of a program. -/
def ofProgram : List Stmt → Script Unit
  | [] => return ()
  | s :: rest => do
    let signal ← statement s s.script
    match h : signal.escape? with
    | some f => fault s.span (fun _ => f) fun _ => signal.escape?_ne_cancelled h
    | none => ofProgram rest

/-- Performs a script, with the calls of a run. -/
def run (fuel : Nat) {α : Type} (x : Script α) : Exec α := x.perform (invoke fuel) fuel

variable {inv : Invoke} {fuel : Nat}

theorem query_checkedResult (decl : Func) (signal : Signal) (span : Span) :
    Exec.query span (Store.checkedResult decl signal) = (do
      match (← Exec.store).result decl signal with
      | .ok value => return value
      | .error f => Exec.fault f span) := by
  funext m
  show Exec.liftAt span (Store.checkedResult decl signal m.store) m =
    (match m.store.result decl signal with
      | .ok value => (Pure.pure value : Exec Value)
      | .error f => Exec.fault f span) m
  rw [Store.checkedResult]
  cases m.store.result decl signal <;> rfl

/-- An activation is the call of its declaration in the scope that it was declared in. -/
theorem perform_activate (activation : Activation) (decl : Func) (arguments : List Value)
    (span : Span) (m : Machine) :
    (activate activation decl arguments span).perform inv fuel m =
      callFunction (Stmt.executeSeq inv fuel) decl (m.store.closure activation) activation.this?
        arguments span m := by
  rw [callFunction_eq, activate, perform_bind]
  simp only [perform_query, query_checkedResult, perform, Stmt.perform_scriptSeq]
  rfl

theorem perform_callClass (id : ClassId) (arguments : List Value) (span : Span) :
    (callClass id arguments span).perform inv fuel =
      Chalk.callClass (Stmt.executeSeq inv fuel) id arguments span := by
  funext m
  let m' : Machine := { m with store := (m.store.instantiate id).2 }
  have hclosure : m'.store.closure (.method (m.store.instantiate id).1) =
      (m'.store.classObject id).scope := by
    rw [Store.closure, m.store.instance?_instantiate id]
  show (match m'.store.initializer? id with
      | some init => _
      | none => _ : Script Value).perform inv fuel m' =
    (match m'.store.initializer? id with
      | some init => do
        let _ ← callFunction (Stmt.executeSeq inv fuel) init (m'.store.classObject id).scope
          (some (.instance (m.store.instantiate id).1)) arguments span
        Pure.pure (Value.instance (m.store.instantiate id).1)
      | none => Pure.pure (Value.instance (m.store.instantiate id).1) : Exec Value) m'
  cases m'.store.initializer? id with
  | none => rfl
  | some init =>
    have hactivate : (activate (.method (m.store.instantiate id).1) init arguments span).perform
        inv fuel m' = _ := perform_activate _ init arguments span m'
    rw [hclosure] at hactivate
    show EStateM.bind _ _ m' = EStateM.bind _ _ m'
    rw [EStateM.bind, EStateM.bind, hactivate]
    rfl

theorem perform_callBound (receiver : InstanceId) (name : String) (arguments : List Value)
    (span : Span) :
    (callBound receiver name arguments span).perform inv fuel =
      Chalk.callBound (Stmt.executeSeq inv fuel) receiver name arguments span := by
  funext m
  show (match m.store.instance? receiver, m.store.instanceMethod? receiver name with
      | some _, some decl => activate (.method receiver) decl arguments span
      | _, _ => fault span fun s => .unknownMember (s.instanceClass receiver) name
        : Script Value).perform inv fuel m =
    (match m.store.instance? receiver, m.store.instanceMethod? receiver name with
      | some object, some decl =>
        callFunction (Stmt.executeSeq inv fuel) decl (m.store.classObject object.owner).scope
          (some (.instance receiver)) arguments span
      | _, _ => Exec.fault (.unknownMember (m.store.instanceClass receiver) name) span
        : Exec Value) m
  cases hobject : m.store.instance? receiver with
  | none => rfl
  | some object =>
    cases m.store.instanceMethod? receiver name with
    | none => rfl
    | some decl =>
      have hactivate : (activate (.method receiver) decl arguments span).perform inv fuel m = _ :=
        perform_activate _ decl arguments span m
      rw [Store.closure, hobject] at hactivate
      exact hactivate

/-- **A call with some budget left performs its script with the rest.** -/
theorem invoke_succ (fuel : Nat) (callable : Callable) (arguments : List Value) (span : Span) :
    invoke (fuel + 1) callable arguments span = (ofCall callable arguments span).run fuel := by
  funext m
  rw [invoke, run]
  show (ite _ _ _ : Exec Value) m = (ite _ _ _ : Script Value).perform (invoke fuel) fuel m
  split
  · rfl
  · cases callable with
    | native f => cases f; rfl
    | builtin receiver method =>
      exact congrFun (perform_callMethod method receiver.toValue arguments span).symm m
    | function id => exact (perform_activate (.function id) _ arguments span m).symm
    | method receiver name =>
      exact congrFun (perform_callBound receiver name arguments span).symm m
    | classObject id => exact congrFun (perform_callClass id arguments span).symm m

/-- **The script of a program does what its execution does.** -/
theorem run_ofProgram (fuel : Nat) (program : List Stmt) :
    (ofProgram program).run fuel = execute fuel program := by
  induction program with
  | nil => rfl
  | cons s rest ih =>
    rw [ofProgram, execute, run, perform_bind, perform, s.perform_script, bind_assoc]
    congr 1
    funext _
    congr 1
    funext signal
    cases signal with
    | normal => exact ih
    | _ => rfl

end Script

end Chalk
