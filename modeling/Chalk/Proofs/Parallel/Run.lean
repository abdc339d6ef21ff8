import Chalk.Proofs.Evaluation
import Chalk.Proofs.Parallel.Store

/-!
# Parallel programs run alike

Two states of runs are parallel if their stores are and everything else is the same. An action and
its counterpart run in lockstep from parallel states: they end with the same result or with the same
failure, at spans that correspond, and leave parallel states. There is one rule for each combinator
of `Exec`; evaluation then follows the trees of parallel programs, and a call passes from parallel
declarations to their bodies.

## Main definitions

* `Machine.Parallel`, `Failure.Parallel` — parallel states and failures
* `Exec.Parallel` — two actions that do the same in parallel states

## Main results

* `Expr.evaluate_parallel`, `Stmt.execute_parallel`, `invoke_parallel` — evaluation
* `execute_parallel` — whole programs
-/

namespace Chalk

variable {R : Correspondence}

/-- States of runs with parallel stores, in which everything else is the same. -/
structure Machine.Parallel (R : Correspondence) (m n : Machine) : Prop where
  store : m.store.Parallel R n.store
  scope : m.scope = n.scope
  depth : m.depth = n.depth
  maxDepth : m.maxDepth = n.maxDepth
  answers : m.answers = n.answers
  transcript : m.transcript = n.transcript
  cancellation : m.cancellation = n.cancellation

/-- The same failure; a fault is raised at spans that correspond. -/
inductive Failure.Parallel (R : Correspondence) :
    Failure RuntimeError → Failure RuntimeError → Prop where
  | fault {f : Fault} {a b : Span} (span : R.rel a b) :
      Failure.Parallel R (.fault ⟨f, a⟩) (.fault ⟨f, b⟩)
  | listInUse : Failure.Parallel R .listInUse .listInUse
  | outOfFuel : Failure.Parallel R .outOfFuel .outOfFuel

theorem Failure.parallel_at (f : Failure Fault) {a b : Span} (span : R.rel a b) :
    Failure.Parallel R (f.at a) (f.at b) := by
  cases f with
  | fault => exact .fault span
  | listInUse => exact .listInUse
  | outOfFuel => exact .outOfFuel

namespace Exec

variable {α β : Type}

/-- Both actions end with the same result or with parallel failures, in parallel states. -/
inductive EndParallel (R : Correspondence) : EStateM.Result (Failure RuntimeError) Machine α →
    EStateM.Result (Failure RuntimeError) Machine α → Prop where
  | ok {a : α} {m n : Machine} (state : m.Parallel R n) : EndParallel R (.ok a m) (.ok a n)
  | error {f g : Failure RuntimeError} {m n : Machine} (failure : f.Parallel R g)
      (state : m.Parallel R n) : EndParallel R (.error f m) (.error g n)

/-- Both actions do the same in parallel states. -/
def Parallel (R : Correspondence) (x y : Exec α) : Prop :=
  ∀ m n : Machine, m.Parallel R n → EndParallel R (x m) (y n)

/-! ## Results, failures and sequencing -/

theorem parallel_pure (a : α) : Parallel R (pure a) (pure a) := fun _ _ hmn => .ok hmn

theorem parallel_throw {f g : Failure RuntimeError} (h : f.Parallel R g) :
    Parallel R (throw f : Exec α) (throw g) :=
  fun _ _ hmn => .error h hmn

theorem parallel_fault (f : Fault) {a b : Span} (span : R.rel a b) :
    Parallel R (fault f a : Exec α) (fault f b) :=
  parallel_throw (.fault span)

theorem Parallel.bind {x y : Exec β} {f g : β → Exec α} (hx : Parallel R x y)
    (hf : ∀ b, Parallel R (f b) (g b)) : Parallel R (x >>= f) (y >>= g) := by
  intro m n hmn
  have hends := hx m n hmn
  change EndParallel R (EStateM.bind x f m) (EStateM.bind y g n)
  rw [EStateM.bind, EStateM.bind]
  generalize x m = r at hends
  generalize y n = r' at hends
  cases hends with
  | ok state => exact hf _ _ _ state
  | error failure state => exact .error failure state

theorem parallel_ite {c : Prop} [Decidable c] {x y x' y' : Exec α} (hthen : Parallel R x y)
    (helse : Parallel R x' y') : Parallel R (if c then x else x') (if c then y else y') := by
  split
  · exact hthen
  · exact helse

/-! ## Reading the state -/

theorem parallel_get_bind {f g : Machine → Exec α}
    (h : ∀ m n : Machine, m.Parallel R n → Parallel R (f m) (g n)) :
    Parallel R (get >>= f) (get >>= g) :=
  fun m n hmn => h m n hmn m n hmn

theorem parallel_store_bind {f g : Store → Exec α}
    (h : ∀ s t : Store, s.Parallel R t → Parallel R (f s) (g t)) :
    Parallel R (store >>= f) (store >>= g) :=
  fun m n hmn => h m.store n.store hmn.store m n hmn

theorem parallel_liftAt (r : Except (Failure Fault) α) {a b : Span} (span : R.rel a b) :
    Parallel R (liftAt a r) (liftAt b r) := by
  cases r with
  | ok => exact parallel_pure _
  | error f => exact parallel_throw (f.parallel_at span)

theorem parallel_query {f g : Store → Except (Failure Fault) α} {a b : Span} (span : R.rel a b)
    (h : ∀ s t : Store, s.Parallel R t → f s = g t) : Parallel R (query a f) (query b g) := by
  refine parallel_store_bind fun s t hst => ?_
  rw [h s t hst]
  exact parallel_liftAt _ span

theorem parallel_checkCancelled {a b : Span} (span : R.rel a b) :
    Parallel R (checkCancelled a) (checkCancelled b) := by
  refine parallel_get_bind fun m n hmn => ?_
  rw [hmn.cancellation]
  exact parallel_ite (parallel_fault _ span) (parallel_pure _)

/-! ## Changing the state -/

theorem parallel_alter {f g : Store → α × Store}
    (h : ∀ s t : Store, s.Parallel R t → Store.Parallel.Allocates R (f s) (g t)) :
    Parallel R (alter f) (alter g) := by
  intro m n hmn
  obtain ⟨hresult, hstore⟩ := h m.store n.store hmn.store
  change EndParallel R (.ok (f m.store).1 { m with store := (f m.store).2 })
    (.ok (g n.store).1 { n with store := (g n.store).2 })
  rw [hresult]
  exact .ok { hmn with store := hstore }

theorem parallel_update {f g : Store → Outcome α} {a b : Span} (span : R.rel a b)
    (h : ∀ s t : Store, s.Parallel R t → Outcome.Parallel R (f s) (g t)) :
    Parallel R (update a f) (update b g) := by
  intro m n hmn
  have hends := h m.store n.store hmn.store
  simp only [update]
  generalize f m.store = r at hends
  generalize g n.store = r' at hends
  cases hends with
  | ok store => exact .ok { hmn with store }
  | error store => exact .error (Failure.parallel_at _ span) { hmn with store }

theorem parallel_print (text : String) : Parallel R (print text) (print text) :=
  fun _ _ hmn => .ok { hmn with
    transcript := congrArg (Array.push · (.print text)) hmn.transcript
    cancellation := congrArg Cancellation.tick hmn.cancellation }

theorem parallel_read (prompt : String) : Parallel R (read prompt) (read prompt) := by
  intro m n hmn
  change EndParallel R
    (.ok (m.answers.headD "") { m with
      transcript := m.transcript.push (.read prompt), answers := m.answers.tail })
    (.ok (n.answers.headD "") { n with
      transcript := n.transcript.push (.read prompt), answers := n.answers.tail })
  rw [hmn.answers, hmn.transcript]
  exact .ok { hmn with transcript := rfl, answers := rfl }

/-! ## Scopes, calls and repetition -/

theorem Parallel.within {x y : Exec α} (h : Parallel R x y) (scope : ScopeId) :
    Parallel R (within scope x) (within scope y) := by
  intro m n hmn
  have hends := h { m with scope } { n with scope } { hmn with scope := rfl }
  rw [Exec.within, Exec.within]
  generalize x { m with scope } = r at hends
  generalize y { n with scope } = r' at hends
  cases hends with
  | ok state => exact .ok { state with scope := hmn.scope }
  | error failure state => exact .error failure { state with scope := hmn.scope }

theorem Parallel.deeper {x y : Exec α} (h : Parallel R x y) : Parallel R (deeper x) (deeper y) := by
  intro m n hmn
  have hends := h { m with depth := m.depth + 1 } { n with depth := n.depth + 1 }
    { hmn with depth := congrArg (· + 1) hmn.depth }
  rw [Exec.deeper, Exec.deeper]
  generalize x { m with depth := m.depth + 1 } = r at hends
  generalize y { n with depth := n.depth + 1 } = r' at hends
  cases hends with
  | ok state => exact .ok { state with depth := congrArg (· - 1) state.depth }
  | error failure state => exact .error failure { state with depth := congrArg (· - 1) state.depth }

theorem Parallel.inBlock {x y : Exec α} (h : Parallel R x y) :
    Parallel R (inBlock x) (inBlock y) := by
  refine parallel_get_bind fun m n hmn => ?_
  rw [hmn.scope]
  exact (parallel_alter fun s t hst => hst.newScope _).bind fun scope => h.within scope

theorem Parallel.iterate {x y : Exec (Option α)} (h : Parallel R x y) (fuel : Nat) :
    Parallel R (iterate x fuel) (iterate y fuel) := by
  induction fuel with
  | zero => exact parallel_throw .outOfFuel
  | succ fuel ih =>
    refine h.bind fun r => ?_
    cases r with
    | some a => exact parallel_pure a
    | none => exact ih

end Exec

/-! ## Expressions -/

/-- Calls that are made alike at spans that correspond. -/
def Invoke.Parallel (R : Correspondence) (call : Invoke) : Prop :=
  ∀ callable arguments a b, R.rel a b →
    Exec.Parallel R (call callable arguments a) (call callable arguments b)

namespace Exec

theorem parallel_logicalOperand (op : LogicalOp) (value : Value) {a b : Span} (span : R.rel a b) :
    Parallel R (logicalOperand op a value) (logicalOperand op b value) := by
  cases value with
  | boolean => exact parallel_pure _
  | _ =>
    refine parallel_store_bind fun s t hst => ?_
    rw [hst.typeName_eq]
    exact parallel_fault _ span

theorem parallel_callValue {call : Invoke} (hcall : call.Parallel R) (callee : Value)
    (arguments : List Value) {a b : Span} (span : R.rel a b) :
    Parallel R (callValue call callee arguments a) (callValue call callee arguments b) := by
  cases callee with
  | callable c => exact hcall c arguments a b span
  | _ =>
    refine parallel_store_bind fun s t hst => ?_
    rw [hst.typeName_eq]
    exact parallel_fault _ span

end Exec

section Evaluation

variable {call : Invoke} {fuel : Nat}

open Exec

mutual

/-- **Parallel expressions are evaluated alike.** -/
theorem Expr.evaluate_parallel (hcall : call.Parallel R) :
    (e : Expr) → {f : Expr} → e.Parallel R f →
      Exec.Parallel R (e.evaluate call fuel) (f.evaluate call fuel)
  | .number .., _, .number _ => parallel_pure _
  | .string .., _, .string _ => parallel_pure _
  | .boolean .., _, .boolean _ => parallel_pure _
  | .name .., _, .name span => by
    refine parallel_get_bind fun m n hmn => ?_
    rw [hmn.scope, hmn.store.getVariable_eq]
    exact parallel_liftAt _ span
  | .receiver .., _, .receiver span => by
    refine parallel_get_bind fun m n hmn => ?_
    rw [hmn.scope, hmn.store.getVariable_eq]
    exact parallel_liftAt _ span
  | .list es _, _, .list items _ => by
    refine (Expr.evaluateList_parallel hcall es items).bind fun values => ?_
    exact (parallel_alter fun s t hst => hst.newList _).bind fun id => parallel_pure _
  | .dict es _, _, .dict entries _ => by
    refine (Expr.evaluateEntries_parallel hcall es entries []).bind fun done => ?_
    exact (parallel_alter fun s t hst => hst.newDict _).bind fun id => parallel_pure _
  | .binary _ e e' _, _, .binary left right span => by
    refine (Expr.evaluate_parallel hcall e left).bind fun a => ?_
    refine (Expr.evaluate_parallel hcall e' right).bind fun b => ?_
    exact parallel_query span fun s t hst => hst.binary_eq fuel _ a b
  | .logical op e e' _, _, .logical left right span => by
    refine (Expr.evaluate_parallel hcall e left).bind fun a => ?_
    refine (parallel_logicalOperand op a left.span).bind fun truth => ?_
    split
    · exact parallel_pure _
    · exact parallel_pure _
    · refine (Expr.evaluate_parallel hcall e' right).bind fun b => ?_
      exact (parallel_logicalOperand op b right.span).bind fun truth => parallel_pure _
  | .unary _ e _, _, .unary operand span => by
    refine (Expr.evaluate_parallel hcall e operand).bind fun a => ?_
    exact parallel_query span fun s t hst => hst.unary_eq _ a
  | .call e es _, _, .call callee arguments span => by
    refine (Expr.evaluate_parallel hcall e callee).bind fun f => ?_
    refine (Expr.evaluateList_parallel hcall es arguments).bind fun values => ?_
    exact parallel_callValue hcall f values span
  | .field e _ _, _, .field object span => by
    refine (Expr.evaluate_parallel hcall e object).bind fun receiver => ?_
    exact parallel_query span fun s t hst => hst.member_eq receiver _
  | .index e e' _, _, .index container position span => by
    refine (Expr.evaluate_parallel hcall e container).bind fun a => ?_
    refine (Expr.evaluate_parallel hcall e' position).bind fun b => ?_
    exact parallel_query span fun s t hst => hst.element_eq fuel a b
termination_by structural e => e

theorem Expr.evaluateList_parallel (hcall : call.Parallel R) :
    (es : List Expr) → {fs : List Expr} → List.Forall₂ (Expr.Parallel R) es fs →
      Exec.Parallel R (Expr.evaluateList call fuel es) (Expr.evaluateList call fuel fs)
  | [], _, .nil => parallel_pure _
  | e :: es, _, .cons first others => by
    refine (Expr.evaluate_parallel hcall e first).bind fun value => ?_
    exact (Expr.evaluateList_parallel hcall es others).bind fun values => parallel_pure _
termination_by structural es => es

theorem Expr.evaluateEntries_parallel (hcall : call.Parallel R) :
    (es : List (Expr × Expr)) → {fs : List (Expr × Expr)} →
      List.Forall₂ (Expr.ParallelEntry R) es fs → (done : Entries) →
      Exec.Parallel R (Expr.evaluateEntries call fuel es done)
        (Expr.evaluateEntries call fuel fs done)
  | [], _, .nil, done => parallel_pure done
  | (e, e') :: es, _, .cons (.mk key value) others, done => by
    refine (Expr.evaluate_parallel hcall e key).bind fun k => ?_
    refine (Expr.evaluate_parallel hcall e' value).bind fun v => ?_
    refine (parallel_query key.span fun s t hst => hst.insert_eq fuel done k v).bind fun done => ?_
    exact Expr.evaluateEntries_parallel hcall es others done
termination_by structural es => es

end

theorem Expr.condition_parallel (hcall : call.Parallel R) {e f : Expr} (h : e.Parallel R f) :
    Exec.Parallel R (e.condition call fuel) (f.condition call fuel) := by
  refine (Expr.evaluate_parallel hcall e h).bind fun value => ?_
  cases value with
  | boolean => exact parallel_pure _
  | _ =>
    refine parallel_store_bind fun s t hst => ?_
    rw [hst.typeName_eq]
    exact parallel_fault _ h.span

theorem Expr.conditionOption_parallel (hcall : call.Parallel R) {e f : Option Expr}
    (h : Option.Rel (Expr.Parallel R) e f) :
    Exec.Parallel R (Expr.conditionOption call fuel e) (Expr.conditionOption call fuel f) := by
  cases h with
  | none => exact parallel_pure true
  | some h => exact Expr.condition_parallel hcall h

/-! ## Statements -/

theorem Exec.parallel_define (name : String) (binding : Binding) {a b : Span} (span : R.rel a b) :
    Exec.Parallel R (define name binding a) (define name binding b) := by
  refine parallel_get_bind fun m n hmn => ?_
  rw [hmn.scope]
  exact parallel_update span fun s t hst => hst.define _ name binding

theorem Target.assign_parallel (hcall : call.Parallel R) {e f : Expr} (hvalue : e.Parallel R f)
    {t u : Target} (h : t.Parallel R u) :
    Exec.Parallel R (t.assign call fuel e) (u.assign call fuel f) := by
  cases h with
  | name span =>
    refine (Expr.evaluate_parallel hcall e hvalue).bind fun v => ?_
    refine parallel_get_bind fun m n hmn => ?_
    rw [hmn.scope]
    exact parallel_update span fun s t hst => hst.assign _ _ v
  | index container position =>
    refine (Expr.evaluate_parallel hcall _ container).bind fun c => ?_
    refine (Expr.evaluate_parallel hcall _ position).bind fun i => ?_
    refine (Expr.evaluate_parallel hcall e hvalue).bind fun v => ?_
    exact parallel_update (R.through container.span position.span) fun s t hst =>
      hst.writeItem fuel c i v
  | field object =>
    refine (Expr.evaluate_parallel hcall _ object).bind fun receiver => ?_
    refine (Expr.evaluate_parallel hcall e hvalue).bind fun v => ?_
    cases receiver with
    | «instance» i => exact parallel_update object.span fun s t hst => hst.writeField i _ v
    | _ =>
      refine parallel_store_bind fun s t hst => ?_
      rw [hst.typeName_eq]
      exact parallel_fault _ object.span

theorem Stmt.loopTurn_parallel (hcall : call.Parallel R) {e f : Option Expr} {k l : Option Stmt}
    {ss ts : List Stmt} {a b : Span} (condition : Option.Rel (Expr.Parallel R) e f)
    (hincrement : Exec.Parallel R (Stmt.executeOption call fuel k) (Stmt.executeOption call fuel l))
    (hbody : Exec.Parallel R (Stmt.executeSeq call fuel ss) (Stmt.executeSeq call fuel ts))
    (span : R.rel a b) :
    Exec.Parallel R (Stmt.loopTurn call fuel e k ss a) (Stmt.loopTurn call fuel f l ts b) := by
  refine (parallel_checkCancelled span).bind fun _ => ?_
  refine (Expr.conditionOption_parallel hcall condition).bind fun goOn => ?_
  refine parallel_ite ?_ (parallel_pure _)
  refine hbody.inBlock.bind fun signal => ?_
  cases signal.afterBody with
  | some last => exact parallel_pure _
  | none => exact hincrement.bind fun _ => parallel_pure _

mutual

/-- **Parallel statements are executed alike.** -/
theorem Stmt.execute_parallel (hcall : call.Parallel R) :
    (s : Stmt) → {t : Stmt} → s.Parallel R t →
      Exec.Parallel R (s.execute call fuel) (t.execute call fuel)
  | .declare .., _, .declare initial span => by
    cases initial with
    | none =>
      refine (parallel_pure _).bind fun value => ?_
      exact (parallel_define _ _ span).bind fun _ => parallel_pure _
    | some h =>
      refine (Expr.evaluate_parallel hcall _ h).bind fun value => ?_
      exact (parallel_define _ _ span).bind fun _ => parallel_pure _
  | .assign .., _, .assign target value _ =>
    (Target.assign_parallel hcall value target).bind fun _ => parallel_pure _
  | .print .., _, .print value _ => by
    refine (Expr.evaluate_parallel hcall _ value).bind fun v => ?_
    refine parallel_store_bind fun s t hst => ?_
    rw [hst.render_eq]
    exact (parallel_print _).bind fun _ => parallel_pure _
  | .branch _ ss es o _, _, .branch condition body elifs otherwise _ => by
    refine (Expr.condition_parallel hcall condition).bind fun _ => parallel_ite ?_ ?_
    · exact (Stmt.executeSeq_parallel hcall ss body).inBlock
    · exact Stmt.executeElifs_parallel hcall (Stmt.executeElse_parallel hcall o otherwise) es elifs
  | .whileLoop _ ss _, _, .whileLoop condition body span => by
    rw [Stmt.execute_whileLoop, Stmt.execute_whileLoop]
    have hbody := Stmt.executeSeq_parallel hcall ss body
    exact (Stmt.loopTurn_parallel hcall (.some condition) (parallel_pure _) hbody span).iterate fuel
  | .forLoop i _ k ss _, _, .forLoop init condition increment body span => by
    rw [Stmt.execute_forLoop, Stmt.execute_forLoop]
    have hincrement := Stmt.executeOption_parallel hcall k increment
    have hbody := Stmt.executeSeq_parallel hcall ss body
    refine Exec.Parallel.inBlock ?_
    refine (Stmt.executeOption_parallel hcall i init).bind fun _ => ?_
    exact (Stmt.loopTurn_parallel hcall condition hincrement hbody span).iterate fuel
  | .breakLoop _, _, .breakLoop _ => parallel_pure _
  | .skip _, _, .skip _ => parallel_pure _
  | .giveBack .., _, .giveBack value _ => by
    cases value with
    | none => exact parallel_pure _
    | some h => exact (Expr.evaluate_parallel hcall _ h).bind fun v => parallel_pure _
  | .function f _, .function g _, .function decl span => by
    refine parallel_get_bind fun m n hmn => ?_
    rw [hmn.scope, decl.name_eq]
    have hclosure : Closure.Parallel R ⟨f, n.scope⟩ ⟨g, n.scope⟩ := ⟨decl, rfl⟩
    refine (parallel_alter fun s t hst => hst.newFunction hclosure).bind fun id => ?_
    exact (parallel_define _ _ span).bind fun _ => parallel_pure _
  | .classDef c _, .classDef d _, .classDef decl span => by
    refine parallel_get_bind fun m n hmn => ?_
    rw [hmn.scope, decl.name_eq]
    have hclass : ClassObject.Parallel R ⟨c, n.scope⟩ ⟨d, n.scope⟩ := ⟨decl, rfl⟩
    refine (parallel_alter fun s t hst => hst.newClass hclass).bind fun id => ?_
    exact (parallel_define _ _ span).bind fun _ => parallel_pure _
  | .eval .., _, .eval value _ =>
    (Expr.evaluate_parallel hcall _ value).bind fun _ => parallel_pure _
termination_by structural s => s

theorem Stmt.executeOption_parallel (hcall : call.Parallel R) :
    (s : Option Stmt) → {t : Option Stmt} → Option.Rel (Stmt.Parallel R) s t →
      Exec.Parallel R (Stmt.executeOption call fuel s) (Stmt.executeOption call fuel t)
  | none, _, .none => parallel_pure _
  | some s, _, .some h => Stmt.execute_parallel hcall s h
termination_by structural s => s

theorem Stmt.executeSeq_parallel (hcall : call.Parallel R) :
    (ss : List Stmt) → {ts : List Stmt} → Stmt.ParallelBlock R ss ts →
      Exec.Parallel R (Stmt.executeSeq call fuel ss) (Stmt.executeSeq call fuel ts)
  | [], _, .nil => parallel_pure _
  | s :: ss, _, .cons first others => by
    refine (Stmt.execute_parallel hcall s first).bind fun signal => ?_
    cases signal with
    | normal => exact Stmt.executeSeq_parallel hcall ss others
    | _ => exact parallel_pure _
termination_by structural ss => ss

theorem Stmt.executeElifs_parallel (hcall : call.Parallel R) {x y : Exec Signal}
    (hxy : Exec.Parallel R x y) :
    (es : List (BranchOf Stmt)) → {fs : List (BranchOf Stmt)} →
      List.Forall₂ (BranchOf.Parallel R) es fs →
      Exec.Parallel R (Stmt.executeElifs call fuel x es) (Stmt.executeElifs call fuel y fs)
  | [], _, .nil => hxy
  | ⟨_, ss⟩ :: es, _, .cons (.mk condition body) others => by
    refine (Expr.condition_parallel hcall condition).bind fun _ => parallel_ite ?_ ?_
    · exact (Stmt.executeSeq_parallel hcall ss body).inBlock
    · exact Stmt.executeElifs_parallel hcall hxy es others
termination_by structural es => es

theorem Stmt.executeElse_parallel (hcall : call.Parallel R) :
    (o : Option (List Stmt)) → {p : Option (List Stmt)} → Option.Rel (Stmt.ParallelBlock R) o p →
      Exec.Parallel R (Stmt.executeElse call fuel o) (Stmt.executeElse call fuel p)
  | none, _, .none => parallel_pure _
  | some ss, _, .some body => (Stmt.executeSeq_parallel hcall ss body).inBlock
termination_by structural o => o

end

end Evaluation

/-! ## Calls -/

section Calls

open Exec

variable {run : List Stmt → Exec Signal}

/-- Bodies that are run alike if they are parallel. -/
def RunsParallel (R : Correspondence) (run : List Stmt → Exec Signal) : Prop :=
  ∀ ss ts, Stmt.ParallelBlock R ss ts → Exec.Parallel R (run ss) (run ts)

theorem callFunction_parallel (hrun : RunsParallel R run) {f g : Func} (hfg : f.Parallel R g)
    (closure : ScopeId) (this : Option Value) (arguments : List Value) {a b : Span}
    (span : R.rel a b) :
    Exec.Parallel R (callFunction run f closure this arguments a)
      (callFunction run g closure this arguments b) := by
  refine parallel_get_bind fun m n hmn => ?_
  rw [hmn.depth, hmn.maxDepth]
  refine parallel_ite (parallel_fault _ span) ?_
  have hframe := fun s t (hst : Store.Parallel R s t) => hst.frame_eq hfg this arguments
  refine (parallel_query span hframe).bind fun bindings => ?_
  refine (parallel_alter fun s t hst => hst.newScope _).bind fun scope => ?_
  refine ((hrun _ _ hfg.body).within scope).deeper.bind fun signal => ?_
  refine parallel_store_bind fun s t hst => ?_
  rw [hst.result_eq hfg]
  cases t.result g signal with
  | ok value => exact parallel_pure value
  | error f => exact parallel_fault f span

theorem callClass_parallel (hrun : RunsParallel R run) (id : ClassId) (arguments : List Value)
    {a b : Span} (span : R.rel a b) :
    Exec.Parallel R (callClass run id arguments a) (callClass run id arguments b) := by
  refine (parallel_alter fun s t hst => hst.instantiate id).bind fun object => ?_
  refine parallel_store_bind fun s t hst => ?_
  have hinit := hst.classMethod? id "init"
  rw [Store.initializer?, Store.initializer?, (hst.classObject id).2]
  generalize s.classMethod? id "init" = f at hinit
  generalize t.classMethod? id "init" = g at hinit
  cases hinit with
  | none => exact parallel_pure _
  | some hfg =>
    exact (callFunction_parallel hrun hfg _ _ arguments span).bind fun _ => parallel_pure _

theorem callBound_parallel (hrun : RunsParallel R run) (receiver : InstanceId) (name : String)
    (arguments : List Value) {a b : Span} (span : R.rel a b) :
    Exec.Parallel R (callBound run receiver name arguments a)
      (callBound run receiver name arguments b) := by
  refine parallel_store_bind fun s t hst => ?_
  have hmethod := hst.instanceMethod? receiver name
  rw [hst.instance?_eq, hst.instanceClass_eq]
  generalize s.instanceMethod? receiver name = f at hmethod
  generalize t.instanceMethod? receiver name = g at hmethod
  cases t.instance? receiver with
  | none => exact parallel_fault _ span
  | some object =>
    cases hmethod with
    | none => exact parallel_fault _ span
    | some hfg =>
      simp only [(hst.classObject object.owner).2]
      exact callFunction_parallel hrun hfg _ _ arguments span

theorem callNative_parallel (f : Native) (arguments : List Value) :
    Exec.Parallel R (callNative f arguments) (callNative f arguments) := by
  cases f with
  | input =>
    refine parallel_store_bind fun s t hst => ?_
    have hrender : s.render = t.render := funext hst.render_eq
    rw [hrender]
    exact (parallel_read _).bind fun _ => parallel_pure _

/-- **Calls are made alike.** -/
theorem invoke_parallel (fuel : Nat) : (invoke fuel).Parallel R := by
  induction fuel with
  | zero => exact fun _ _ _ _ _ => parallel_throw .outOfFuel
  | succ fuel ih =>
    intro callable arguments a b span
    have hrun : RunsParallel R (Stmt.executeSeq (invoke fuel) fuel) :=
      fun ss ts h => Stmt.executeSeq_parallel ih ss h
    refine parallel_store_bind fun s t hst => ?_
    rw [hst.arity_eq, hst.callableName_eq]
    refine parallel_ite (parallel_fault _ span) ?_
    cases callable with
    | native f => exact callNative_parallel f arguments
    | builtin receiver method =>
      exact parallel_update span fun s t hst => hst.callMethod fuel method _ arguments
    | function id =>
      obtain ⟨hdecl, hscope⟩ := hst.function id
      simp only [hscope]
      exact callFunction_parallel hrun hdecl _ none arguments span
    | method receiver name => exact callBound_parallel hrun receiver name arguments span
    | classObject id => exact callClass_parallel hrun id arguments span

/-- **Parallel programs are executed alike.** -/
theorem execute_parallel (fuel : Nat) {ss ts : List Stmt} (h : Stmt.ParallelBlock R ss ts) :
    Exec.Parallel R (execute fuel ss) (execute fuel ts) := by
  induction h with
  | nil => exact parallel_pure _
  | cons first _ ih =>
    refine (parallel_checkCancelled first.span).bind fun _ => ?_
    refine (Stmt.execute_parallel (invoke_parallel fuel) _ first).bind fun signal => ?_
    cases signal.escape? with
    | none => exact ih
    | some f => exact parallel_fault f first.span

end Calls

theorem Machine.parallel_initial (maxDepth : Nat) (answers : List String)
    (cancellation : Cancellation) :
    (Machine.initial maxDepth answers cancellation).Parallel R
      (Machine.initial maxDepth answers cancellation) :=
  ⟨⟨rfl, rfl, rfl, rfl, .nil, .nil⟩, rfl, rfl, rfl, rfl, rfl, rfl⟩

end Chalk
