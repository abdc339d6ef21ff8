import Chalk.Proofs.Script.Program

/-!
# The moments of a run

What goes on in the middle of a run. A moment is a stack of notes, the innermost first: the step
that is about to be made, the calls, turns of loops and statements around it, each with the state in
which it began. `Script.Reaches` says which moments a run comes to. It follows the script in the way
`Script.perform` does: the second part of a sequence is reached in the state that the first part
leaves behind, the inside of a block or call in the state on entering it, and nothing is reached
behind a failure.

## Main definitions

* `Note`, `Moment` — what is going on, and everything that is going on at once
* `Moment.body?`, `Moment.frame` — the innermost body at a moment, and the state in which it began
* `Script.Reaches` — the moments that a run comes to
* `Moment.Nested` — how the notes of a moment follow from each other

## Main results

* `Script.run_induction` — induction over scripts, and over the budget for calls
* `Script.Reaches.fails` — a step that fails ends the run
* `Script.Reaches.nested` — the moments that a run comes to are nested
-/

namespace Chalk

/-! ## Moments -/

/-- What is going on in a run: a step, a statement of the program itself, a turn of a loop, the
condition or the body of a loop, the call of a function or method, or its body. -/
inductive Note : Type 1 where
  | step {α : Type} (s : Step α)
  | statement (s : Stmt)
  | turn
  | condition
  | loopBody
  | call (activation : Activation) (decl : Func) (arguments : List Value)
  | body (activation : Activation) (decl : Func)

/-- Everything that is going on at once, the innermost first, each with the state in which it
began. -/
abbrev Moment := List (Note × Machine)

namespace Moment

/-- The state at a moment of a run that started in the given state. -/
def state (m : Machine) : Moment → Machine
  | [] => m
  | (_, m') :: _ => m'

@[simp] theorem state_append_cons (m : Machine) (μ : Moment) (n : Note) (m' : Machine)
    (rest : Moment) : state m (μ ++ (n, m') :: rest) = state m' μ := by
  cases μ <;> rfl

/-- The innermost body that is open, with the state in which it began. -/
def body? : Moment → Option (Activation × Func × Machine)
  | [] => none
  | (.body activation decl, m) :: _ => some (activation, decl, m)
  | _ :: rest => body? rest

/-- The state in which the innermost body began, or else the run itself. -/
def frame (m : Machine) (μ : Moment) : Machine := (μ.body?.map fun found => found.2.2).getD m

theorem body?_append (μ rest : Moment) : (μ ++ rest).body? = μ.body?.or rest.body? := by
  induction μ with
  | nil => rfl
  | cons n μ ih =>
    obtain ⟨note, m⟩ := n
    cases note with
    | body => rfl
    | _ => exact ih

theorem mem_of_body? {μ : Moment} {activation : Activation} {decl : Func} {m : Machine}
    (h : μ.body? = some (activation, decl, m)) : (.body activation decl, m) ∈ μ := by
  induction μ with
  | nil => cases h
  | cons n μ ih =>
    obtain ⟨note, m'⟩ := n
    cases note with
    | body =>
      cases h
      exact List.mem_cons_self
    | _ => exact List.mem_cons_of_mem _ (ih h)

end Moment

/-! ## Reaching a moment -/

/-- The action, repeated `n` times, goes on each time and leads from one state to another. -/
inductive Exec.Repeats {α : Type} (turn : Exec (Option α)) : Nat → Machine → Machine → Prop where
  | zero {m : Machine} : Repeats turn 0 m m
  | succ {n : Nat} {m m' m'' : Machine} (first : turn m = .ok none m')
      (rest : Repeats turn n m' m'') : Repeats turn (n + 1) m m''

theorem Exec.checkCancelled_of_isSet {span : Span} {m : Machine}
    (h : m.cancellation.isSet = true) :
    checkCancelled span m = .error (.fault ⟨.cancelled, span⟩) m := by
  show (ite _ _ _ : Exec Unit) m = _
  rw [if_pos h]
  rfl

theorem Exec.checkCancelled_of_not_isSet {span : Span} {m : Machine}
    (h : m.cancellation.isSet = false) : checkCancelled span m = .ok () m := by
  show (ite _ _ _ : Exec Unit) m = _
  rw [if_neg (by simp [h])]
  rfl

theorem Exec.checkCancelled_eq_ok {span : Span} {m m' : Machine} {u : Unit}
    (h : checkCancelled span m = .ok u m') : m' = m ∧ m.cancellation.isSet = false := by
  cases hset : m.cancellation.isSet with
  | true =>
    rw [checkCancelled_of_isSet hset] at h
    cases h
  | false =>
    rw [checkCancelled_of_not_isSet hset] at h
    cases h
    exact ⟨rfl, rfl⟩

namespace Script

/-- The run of a script, started in the given state, comes to a moment. The empty moment says only
that the run has begun. -/
inductive Reaches : Nat → {α : Type} → Script α → Machine → Moment → Prop where
  | start {fuel : Nat} {α : Type} {x : Script α} {m : Machine} : Reaches fuel x m []
  | first {fuel : Nat} {α β : Type} {x : Script β} {f : β → Script α} {m : Machine} {μ : Moment}
      (inside : Reaches fuel x m μ) : Reaches fuel (bind x f) m μ
  | next {fuel : Nat} {α β : Type} {x : Script β} {f : β → Script α} {m m' : Machine} {b : β}
      {μ : Moment} (done : x.run fuel m = .ok b m') (inside : Reaches fuel (f b) m' μ) :
      Reaches fuel (bind x f) m μ
  | look {fuel : Nat} {α : Type} {next : ScopeId → Store → Script α} {m : Machine} {μ : Moment}
      (inside : Reaches fuel (next m.scope m.store) m μ) : Reaches fuel (look next) m μ
  | step {fuel : Nat} {α : Type} {s : Step α} {m : Machine} :
      Reaches fuel (step s) m [(.step s, m)]
  | statement {fuel : Nat} {α : Type} {s : Stmt} {x : Script α} {m : Machine} {μ : Moment}
      (poll : Exec.checkCancelled s.span m = .ok () m) (inside : Reaches fuel x m μ) :
      Reaches fuel (statement s x) m (μ ++ [(.statement s, m)])
  | loop {fuel n : Nat} {turn : Script (Option Signal)} {m m' : Machine} {μ : Moment}
      (left : n < fuel) (turns : Exec.Repeats (turn.run fuel) n m m')
      (inside : Reaches fuel turn m' μ) : Reaches fuel (loop turn) m μ
  | turn {fuel : Nat} {span : Span} {conditional : Bool} {condition : Script Bool}
      {body increment : Script Signal} {m : Machine}
      (poll : Exec.checkCancelled span m = .ok () m) :
      Reaches fuel (turn span conditional condition body increment) m [(.turn, m)]
  | condition {fuel : Nat} {span : Span} {condition : Script Bool}
      {body increment : Script Signal} {m : Machine} {μ : Moment}
      (poll : Exec.checkCancelled span m = .ok () m) (inside : Reaches fuel condition m μ) :
      Reaches fuel (turn span true condition body increment) m
        (μ ++ [(.condition, m), (.turn, m)])
  | loopBody {fuel : Nat} {span : Span} {conditional : Bool} {condition : Script Bool}
      {body increment : Script Signal} {m m' : Machine} {μ : Moment}
      (poll : Exec.checkCancelled span m = .ok () m)
      (holds : Exec.decides conditional (condition.run fuel) m = .ok true m')
      (inside : Reaches fuel body m'.enterBlock μ) :
      Reaches fuel (turn span conditional condition body increment) m
        (μ ++ [(.loopBody, m'.enterBlock), (.turn, m)])
  | increment {fuel : Nat} {span : Span} {conditional : Bool} {condition : Script Bool}
      {body increment : Script Signal} {m m' m'' : Machine} {signal : Signal} {μ : Moment}
      (poll : Exec.checkCancelled span m = .ok () m)
      (holds : Exec.decides conditional (condition.run fuel) m = .ok true m')
      (done : Exec.inBlock (body.run fuel) m' = .ok signal m'') (goesOn : signal.afterBody = none)
      (inside : Reaches fuel increment m'' μ) :
      Reaches fuel (turn span conditional condition body increment) m (μ ++ [(.turn, m)])
  | inBlock {fuel : Nat} {α : Type} {x : Script α} {m : Machine} {μ : Moment}
      (inside : Reaches fuel x m.enterBlock μ) : Reaches fuel (inBlock x) m μ
  | call {fuel : Nat} {callable : Callable} {arguments : List Value} {span : Span} {m : Machine}
      {μ : Moment} (inside : Reaches fuel (ofCall callable arguments span) m μ) :
      Reaches (fuel + 1) (call callable arguments span) m μ
  | binding {fuel : Nat} {α : Type} {activation : Activation} {decl : Func}
      {arguments : List Value} {span : Span} {body : Script α} {m : Machine}
      (room : m.depth < m.maxDepth) :
      Reaches fuel (inCall activation decl arguments span body) m
        [(.call activation decl arguments, m)]
  | body {fuel : Nat} {α : Type} {activation : Activation} {decl : Func} {arguments : List Value}
      {span : Span} {body : Script α} {m : Machine} {bindings : Bindings} {μ : Moment}
      (room : m.depth < m.maxDepth)
      (bound : m.store.frame decl activation.this? arguments = .ok bindings)
      (inside : Reaches fuel body (m.enterCall bindings (m.store.closure activation)) μ) :
      Reaches fuel (inCall activation decl arguments span body) m
        (μ ++ [(.body activation decl, m.enterCall bindings (m.store.closure activation)),
          (.call activation decl arguments, m)])

/-! ## Runs of scripts -/

variable {α β : Type} {fuel : Nat}

theorem run_composed (fuel : Nat) (x : Script α) : Exec.Composed (fun _ => True) (x.run fuel) :=
  x.perform_composed (invoke_composed fuel)

theorem run_call (callable : Callable) (arguments : List Value) (span : Span) :
    (call callable arguments span).run (fuel + 1) = (ofCall callable arguments span).run fuel :=
  invoke_succ fuel callable arguments span

/-- Induction over what is performed: over the tree of a script, and for calls over the budget. -/
theorem run_induction {motive : Nat → {α : Type} → Script α → Prop}
    (pure : ∀ {fuel : Nat} {α : Type} (a : α), motive fuel (.pure a))
    (bind : ∀ {fuel : Nat} {α β : Type} (x : Script β) (f : β → Script α), motive fuel x →
      (∀ b, motive fuel (f b)) → motive fuel (.bind x f))
    (look : ∀ {fuel : Nat} {α : Type} (next : ScopeId → Store → Script α),
      (∀ scope s, motive fuel (next scope s)) → motive fuel (.look next))
    (step : ∀ {fuel : Nat} {α : Type} (s : Step α), motive fuel (.step s))
    (statement : ∀ {fuel : Nat} {α : Type} (s : Stmt) (x : Script α), motive fuel x →
      motive fuel (.statement s x))
    (loop : ∀ {fuel : Nat} (x : Script (Option Signal)), motive fuel x → motive fuel (.loop x))
    (turn : ∀ {fuel : Nat} (span : Span) (conditional : Bool) (condition : Script Bool)
      (body increment : Script Signal), motive fuel condition → motive fuel body →
      motive fuel increment → motive fuel (.turn span conditional condition body increment))
    (inBlock : ∀ {fuel : Nat} {α : Type} (x : Script α), motive fuel x → motive fuel (.inBlock x))
    (exhausted : ∀ (callable : Callable) (arguments : List Value) (span : Span),
      motive 0 (.call callable arguments span))
    (call : ∀ {fuel : Nat} (callable : Callable) (arguments : List Value) (span : Span),
      motive fuel (ofCall callable arguments span) →
        motive (fuel + 1) (.call callable arguments span))
    (inCall : ∀ {fuel : Nat} {α : Type} (activation : Activation) (decl : Func)
      (arguments : List Value) (span : Span) (body : Script α), motive fuel body →
      motive fuel (.inCall activation decl arguments span body))
    (fuel : Nat) {α : Type} (x : Script α) : motive fuel x := by
  have tree : ∀ (fuel : Nat),
      (∀ callable arguments span, motive fuel (.call callable arguments span)) →
      ∀ {α : Type} (x : Script α), motive fuel x := by
    intro fuel hcall α x
    induction x with
    | pure a => exact pure a
    | bind x f ihx ihf => exact bind x f ihx ihf
    | look next ih => exact look next ih
    | step s => exact step s
    | statement s x ih => exact statement s x ih
    | loop x ih => exact loop x ih
    | turn span conditional condition body increment ihc ihb ihi =>
      exact turn span conditional condition body increment ihc ihb ihi
    | inBlock x ih => exact inBlock x ih
    | call callable arguments span => exact hcall callable arguments span
    | inCall activation decl arguments span body ih =>
      exact inCall activation decl arguments span body ih
  induction fuel generalizing α with
  | zero => exact tree 0 exhausted x
  | succ fuel ih =>
    exact tree (fuel + 1) (fun callable arguments span => call callable arguments span (ih _)) x

/-! ## The parts of a run

How the run of a script comes from the runs of its parts, for each way to put scripts together. -/

section Parts

variable {m m' m'' : Machine} {failure : Failure RuntimeError}

theorem run_bind_ok {x : Script β} {f : β → Script α} {b : β} (h : x.run fuel m = .ok b m') :
    (bind x f).run fuel m = (f b).run fuel m' :=
  Exec.bind_eq_of_ok h

theorem run_bind_error {x : Script β} {f : β → Script α} (h : x.run fuel m = .error failure m') :
    (bind x f).run fuel m = .error failure m' :=
  Exec.bind_eq_of_error h

theorem run_statement_ok {s : Stmt} {x : Script α}
    (poll : Exec.checkCancelled s.span m = .ok () m) :
    (statement s x).run fuel m = x.run fuel m :=
  Exec.bind_eq_of_ok poll

/-- The same ending, in a state that is put right on leaving a block or call. -/
def leaving (restore : Machine → Machine) :
    EStateM.Result (Failure RuntimeError) Machine α →
      EStateM.Result (Failure RuntimeError) Machine α
  | .ok a after => .ok a (restore after)
  | .error failure after => .error failure (restore after)

theorem leaving_leaving (outer inner : Machine → Machine)
    (r : EStateM.Result (Failure RuntimeError) Machine α) :
    leaving outer (leaving inner r) = leaving (fun after => outer (inner after)) r := by
  cases r <;> rfl

theorem run_inBlock_apply (x : Script α) (m : Machine) :
    (inBlock x).run fuel m =
      leaving (fun after => { after with scope := m.scope }) (x.run fuel m.enterBlock) := rfl

/-- Leaving a block or call does not change the store. -/
theorem store_after_of_leaving {x y : Exec α} {entered : Machine}
    {restore : Machine → Machine} (h : y m = leaving restore (x entered))
    (hrestore : ∀ m, (restore m).store = m.store) :
    (y.after m).store = (x.after entered).store := by
  rw [Exec.after, Exec.after, h]
  cases x entered <;> exact hrestore _

theorem store_after_inBlock (x : Exec α) (m : Machine) :
    ((Exec.inBlock x).after m).store = (x.after m.enterBlock).store := by
  have hrun : Exec.inBlock x m =
      leaving (fun after => { after with scope := m.scope }) (x m.enterBlock) := rfl
  exact store_after_of_leaving hrun fun _ => rfl

section Calls

variable {activation : Activation} {decl : Func} {arguments : List Value} {span : Span}
  {body : Script α} {bindings : Bindings} {frame : Store → Except (Failure Fault) Bindings}
  {closure : ScopeId} {x : Exec α}

theorem inCall_full (full : m.maxDepth ≤ m.depth) :
    Exec.inCall span frame closure x m =
      .error (.fault ⟨.callDepthExceeded m.maxDepth, span⟩) m := by
  show (ite _ _ _ : Exec α) m = _
  rw [if_pos full]
  rfl

/-- Where there is room for a call, it binds the parameters and runs the body in a scope of its own,
one call deeper. -/
theorem inCall_room (room : m.depth < m.maxDepth) :
    Exec.inCall span frame closure x m =
      match frame m.store with
      | .error e => .error (e.at span) m
      | .ok bindings =>
        leaving (fun after => { after with scope := m.scope, depth := after.depth - 1 })
          (x (m.enterCall bindings closure)) := by
  show (ite _ _ _ : Exec α) m = _
  rw [if_neg (Nat.not_le.mpr room), Exec.query_bind_apply]
  cases frame m.store with
  | error e => rfl
  | ok bindings =>
    exact leaving_leaving (fun after => { after with depth := after.depth - 1 })
      (fun after => { after with scope := m.scope }) (x (m.enterCall bindings closure))

theorem run_inCall_full (full : m.maxDepth ≤ m.depth) :
    (inCall activation decl arguments span body).run fuel m =
      .error (.fault ⟨.callDepthExceeded m.maxDepth, span⟩) m :=
  inCall_full full

theorem run_inCall_room (room : m.depth < m.maxDepth) :
    (inCall activation decl arguments span body).run fuel m =
      match m.store.frame decl activation.this? arguments with
      | .error e => .error (e.at span) m
      | .ok bindings =>
        leaving (fun after => { after with scope := m.scope, depth := after.depth - 1 })
          (body.run fuel (m.enterCall bindings (m.store.closure activation))) :=
  inCall_room room

end Calls

section Loops

variable {turn : Exec (Option α)} {n : Nat}

theorem iterate_of_repeats (h : Exec.Repeats turn n m m') (hn : n < fuel) :
    Exec.iterate turn fuel m = Exec.iterate turn (fuel - n) m' := by
  induction h generalizing fuel with
  | zero => rfl
  | @succ n m m' m'' first rest ih =>
    obtain ⟨fuel, rfl⟩ : ∃ k, fuel = k + 1 := ⟨fuel - 1, by omega⟩
    rw [Exec.iterate, Exec.bind_eq_of_ok first, Nat.add_sub_add_right]
    exact ih (by omega)

theorem iterate_of_repeats_error (h : Exec.Repeats turn n m m') (hn : n < fuel)
    (hfail : turn m' = .error failure m'') : Exec.iterate turn fuel m = .error failure m'' := by
  obtain ⟨k, hk⟩ : ∃ k, fuel - n = k + 1 := ⟨fuel - n - 1, by omega⟩
  rw [iterate_of_repeats h hn, hk, Exec.iterate, Exec.bind_eq_of_error hfail]

end Loops

end Parts

/-! ## Failures -/

/-- **A step that fails ends the run.** A failure is not absorbed by anything around the step. -/
theorem Reaches.fails {x : Script α} {m m' : Machine} {μ : Moment} {s : Step β}
    {failure : Failure RuntimeError} (h : Reaches fuel x m μ)
    (hhead : μ.head? = some (.step s, m'))
    (hfail : ∀ budget, ∃ m'', s.perform budget m' = .error failure m'') :
    ∃ m'', x.run fuel m = .error failure m'' := by
  -- Inside a statement, a loop or a call, the step is the innermost note of the inner moment.
  have inner : ∀ {μ : Moment} {n : Note × Machine} {rest : Moment},
      (μ ++ n :: rest).head? = some (.step s, m') → n.1 ≠ .step s →
        μ.head? = some (.step s, m') := by
    intro μ n rest hμ hn
    cases μ with
    | nil => exact absurd (congrArg Prod.fst (Option.some.inj hμ)) hn
    | cons first μ => exact hμ
  induction h with
  | start => cases hhead
  | first _ ih =>
    obtain ⟨m'', hx⟩ := ih hhead
    exact ⟨m'', run_bind_error hx⟩
  | next done _ ih =>
    obtain ⟨m'', hx⟩ := ih hhead
    exact ⟨m'', (run_bind_ok done).trans hx⟩
  | look _ ih => exact ih hhead
  | @step fuel _ s' m =>
    cases hhead
    exact hfail fuel
  | statement poll _ ih =>
    obtain ⟨m'', hx⟩ := ih (inner hhead nofun)
    exact ⟨m'', (run_statement_ok poll).trans hx⟩
  | loop left turns _ ih =>
    obtain ⟨m'', hx⟩ := ih hhead
    exact ⟨m'', iterate_of_repeats_error turns left hx⟩
  | turn => cases hhead
  | condition poll _ ih =>
    obtain ⟨m'', hx⟩ := ih (inner hhead nofun)
    exact ⟨m'', (Exec.bind_eq_of_ok poll).trans (Exec.bind_eq_of_error hx)⟩
  | loopBody poll holds _ ih =>
    obtain ⟨m'', hx⟩ := ih (inner hhead nofun)
    exact ⟨_, (Exec.bind_eq_of_ok poll).trans ((Exec.bind_eq_of_ok holds).trans
      (Exec.bind_eq_of_error (congrArg (leaving _) hx)))⟩
  | increment poll holds done goesOn _ ih =>
    obtain ⟨m'', hx⟩ := ih (inner hhead nofun)
    refine ⟨m'', (Exec.bind_eq_of_ok poll).trans ((Exec.bind_eq_of_ok holds).trans
      ((Exec.bind_eq_of_ok done).trans ?_))⟩
    rw [goesOn]
    exact Exec.bind_eq_of_error hx
  | inBlock _ ih =>
    obtain ⟨m'', hx⟩ := ih hhead
    exact ⟨_, congrArg (leaving _) hx⟩
  | call _ ih =>
    obtain ⟨m'', hx⟩ := ih hhead
    exact ⟨m'', by rw [run_call, hx]⟩
  | binding => cases hhead
  | body room bound _ ih =>
    obtain ⟨m'', hx⟩ := ih (inner hhead nofun)
    exact ⟨_, by rw [run_inCall_room room, bound]; exact congrArg (leaving _) hx⟩

end Script

/-! ## How moments are nested -/

/-- The notes of a moment are nested as the script has them. Where a note begins, the run has gone
on in the way that `Leads` says from where the one around it began. The condition of a loop begins
at once, a body in the scope that the call has made for it, and a statement or a turn only if the
run has not been asked to stop. -/
inductive Moment.Nested (Leads : Machine → Machine → Prop) (m : Machine) : Moment → Prop where
  | nil : Nested Leads m []
  | step {α : Type} {s : Step α} {m' : Machine} {μ : Moment} (around : Nested Leads m μ)
      (leads : Leads (μ.state m) m') : Nested Leads m ((.step s, m') :: μ)
  | statement {s : Stmt} {m' : Machine} {μ : Moment} (around : Nested Leads m μ)
      (leads : Leads (μ.state m) m') (going : m'.cancellation.isSet = false) :
      Nested Leads m ((.statement s, m') :: μ)
  | turn {m' : Machine} {μ : Moment} (around : Nested Leads m μ) (leads : Leads (μ.state m) m')
      (going : m'.cancellation.isSet = false) : Nested Leads m ((.turn, m') :: μ)
  | condition {m' : Machine} {μ : Moment} (around : Nested Leads m ((.turn, m') :: μ)) :
      Nested Leads m ((.condition, m') :: (.turn, m') :: μ)
  | loopBody {m' m'' : Machine} {μ : Moment} (around : Nested Leads m ((.turn, m') :: μ))
      (leads : Leads m' m'') : Nested Leads m ((.loopBody, m'') :: (.turn, m') :: μ)
  | call {activation : Activation} {decl : Func} {arguments : List Value} {m' : Machine}
      {μ : Moment} (around : Nested Leads m μ) (leads : Leads (μ.state m) m')
      (room : m'.depth < m'.maxDepth) :
      Nested Leads m ((.call activation decl arguments, m') :: μ)
  | body {activation : Activation} {decl : Func} {arguments : List Value} {m' : Machine}
      {bindings : Bindings} {μ : Moment}
      (around : Nested Leads m ((.call activation decl arguments, m') :: μ))
      (bound : m'.store.frame decl activation.this? arguments = .ok bindings) :
      Nested Leads m
        ((.body activation decl, m'.enterCall bindings (m'.store.closure activation)) ::
          (.call activation decl arguments, m') :: μ)

namespace Moment

variable {Leads : Machine → Machine → Prop} {m m' : Machine}

theorem Nested.append {n : Note} {rest μ : Moment} (h : Nested Leads m' μ)
    (hrest : Nested Leads m ((n, m') :: rest)) : Nested Leads m (μ ++ (n, m') :: rest) := by
  have inside : ∀ {μ : Moment} {m''}, Leads (state m' μ) m'' →
      Leads (state m (μ ++ (n, m') :: rest)) m'' := by
    intro μ m'' h
    rwa [state_append_cons]
  induction h with
  | nil => exact hrest
  | step _ leads ih => exact .step ih (inside leads)
  | statement _ leads going ih => exact .statement ih (inside leads) going
  | turn _ leads going ih => exact .turn ih (inside leads) going
  | condition _ ih => exact .condition ih
  | loopBody _ leads ih => exact .loopBody ih leads
  | call _ leads room ih => exact .call ih (inside leads) room
  | body _ bound ih => exact .body ih bound

/-- A moment of what follows is a moment of the whole. -/
theorem Nested.after {μ : Moment} (h : Nested Leads m' μ) (hleads : Leads m m')
    (htrans : ∀ {a b c}, Leads a b → Leads b c → Leads a c) : Nested Leads m μ := by
  -- Only the outermost note looks at where the whole begins.
  have first : ∀ {μ : Moment} {m''}, Leads (state m' μ) m'' → Leads (state m μ) m'' := by
    intro μ m'' h
    cases μ with
    | nil => exact htrans hleads h
    | cons n μ => exact h
  induction h with
  | nil => exact .nil
  | step _ leads ih => exact .step ih (first leads)
  | statement _ leads going ih => exact .statement ih (first leads) going
  | turn _ leads going ih => exact .turn ih (first leads) going
  | condition _ ih => exact .condition ih
  | loopBody _ leads ih => exact .loopBody ih leads
  | call _ leads room ih => exact .call ih (first leads) room
  | body _ bound ih => exact .body ih bound

end Moment

section Nesting

open Moment

variable {Leads : Machine → Machine → Prop}

theorem Exec.Repeats.leads {α : Type} {turn : Exec (Option α)} {n : Nat} {m m' : Machine}
    (h : Repeats turn n m m') (hrefl : ∀ m, Leads m m)
    (htrans : ∀ {a b c}, Leads a b → Leads b c → Leads a c)
    (hturn : ∀ {a m m'}, turn m = .ok a m' → Leads m m') : Leads m m' := by
  induction h with
  | zero => exact hrefl _
  | succ first _ ih => exact htrans (hturn first) ih

/-- **The moments that a run comes to are nested**, if every part of it that is completed, and the
entry into a block, leads on. -/
theorem Script.Reaches.nested {α : Type} {fuel : Nat} {x : Script α} {m : Machine} {μ : Moment}
    (h : Reaches fuel x m μ) (hrefl : ∀ m, Leads m m)
    (htrans : ∀ {a b c}, Leads a b → Leads b c → Leads a c)
    (hrun : ∀ {fuel : Nat} {α : Type} {x : Script α} {m m' : Machine} {a : α},
      x.run fuel m = .ok a m' → Leads m m')
    (hblock : ∀ m : Machine, Leads m m.enterBlock) : Nested Leads m μ := by
  have holds : ∀ {fuel : Nat} {conditional : Bool} {condition : Script Bool} {m m' : Machine},
      Exec.decides conditional (condition.run fuel) m = .ok true m' → Leads m m' := by
    intro fuel conditional condition m m' h
    cases conditional with
    | true => exact hrun h
    | false => cases h; exact hrefl m
  have going : ∀ {span : Span} {m : Machine}, Exec.checkCancelled span m = .ok () m →
      m.cancellation.isSet = false := fun poll => (Exec.checkCancelled_eq_ok poll).2
  induction h with
  | start => exact .nil
  | first _ ih => exact ih
  | next done _ ih => exact ih.after (hrun done) htrans
  | look _ ih => exact ih
  | step => exact .step .nil (hrefl _)
  | statement poll _ ih => exact ih.append (.statement .nil (hrefl _) (going poll))
  | loop _ turns _ ih => exact ih.after (turns.leads hrefl htrans hrun) htrans
  | turn poll => exact .turn .nil (hrefl _) (going poll)
  | condition poll _ ih => exact ih.append (.condition (.turn .nil (hrefl _) (going poll)))
  | loopBody poll hholds _ ih =>
    exact ih.append (.loopBody (.turn .nil (hrefl _) (going poll))
      (htrans (holds hholds) (hblock _)))
  | @increment fuel _ _ _ body _ _ _ _ signal _ poll hholds done _ _ ih =>
    have hrest := hrun (show (Script.inBlock body).run fuel _ = .ok signal _ from done)
    exact (ih.after (htrans (holds hholds) hrest) htrans).append
      (.turn .nil (hrefl _) (going poll))
  | inBlock _ ih => exact ih.after (hblock _) htrans
  | call _ ih => exact ih
  | binding room => exact .call .nil (hrefl _) room
  | body room bound _ ih => exact ih.append (.body (.call .nil (hrefl _) room) bound)

end Nesting

end Chalk
