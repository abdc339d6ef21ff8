import Chalk.Diagnostic
import Chalk.Eval.Call

/-!
# Runs of a source text

A source is compiled and, if nothing is wrong with it, executed. Diagnostics are printed like any
other output.

## Main definitions

* `Report` — how a run ended and what it showed
* `Ending` — a report, or the reason why there is none
* `run` — the run of a source text
-/

namespace Chalk

/-- How a run ended. -/
inductive Status where
  | completed | compileFailed | runtimeFailed | cancelled
deriving DecidableEq, Inhabited

/-- The outcome of a run: how it ended, what went wrong, and everything it printed and asked. -/
structure Report where
  status : Status
  errors : List Diagnostic
  transcript : Array Event
deriving DecidableEq, Inhabited

/-- Whether a run completed. -/
def Report.isSuccess (r : Report) : Bool := r.status == .completed

/-- Everything that was printed. -/
def printed (transcript : Array Event) : String :=
  transcript.foldl (fun text event =>
    match event with
    | .print more => text ++ more
    | .read _ => text) ""

/-- Every prompt, in order. -/
def prompts (transcript : Array Event) : List String :=
  transcript.toList.filterMap fun
    | .read prompt => some prompt
    | .print _ => none

/-- What can be set for a run: the answers to its prompts, the most calls that may be active at
once, and when it is cancelled. -/
structure Options where
  answers : List String := []
  maxCallDepth : Nat := 200
  cancellation : Cancellation := .never
deriving DecidableEq, Inhabited

/-- The diagnostic of a fault. -/
def Diagnostic.ofRuntimeError (e : RuntimeError) : Diagnostic := about e.message e.span

/-- The printed form of a diagnostic. -/
def Diagnostic.event (d : Diagnostic) : Event := .print (d.text ++ "\n")

/-- The status of a run that ended with a fault. -/
def Status.ofFault (f : Fault) : Status := if f = .cancelled then .cancelled else .runtimeFailed

/-- How a run ends: with a report, because a list is in use, or because the budget is used up. The
last two come with the transcript up to that point. -/
inductive Ending where
  | report (report : Report)
  | listInUse (transcript : Array Event)
  | outOfFuel (transcript : Array Event)
deriving DecidableEq, Inhabited

/-- Everything that a run showed. -/
def Ending.transcript : Ending → Array Event
  | report r => r.transcript
  | listInUse transcript => transcript
  | outOfFuel transcript => transcript

/-- The end of a run whose execution has come to a result. -/
def Ending.ofResult : EStateM.Result (Failure RuntimeError) Machine Unit → Ending
  | .ok _ m => report ⟨.completed, [], m.transcript⟩
  | .error (.fault e) m =>
    let d := Diagnostic.ofRuntimeError e
    report ⟨.ofFault e.fault, [d], m.transcript.push d.event⟩
  | .error .listInUse m => listInUse m.transcript
  | .error .outOfFuel m => outOfFuel m.transcript

/-- The report on a source that is not executed because something is wrong with it. -/
def Report.ofErrors (errors : List Diagnostic) : Report :=
  ⟨.compileFailed, errors, (errors.map Diagnostic.event).toArray⟩

/-- Runs a source text. -/
def run (fuel : Nat) (source : List Char) (options : Options := {}) : Ending :=
  let compiled := compile source
  if compiled.isSuccess then
    let m := Machine.initial options.maxCallDepth options.answers options.cancellation
    Ending.ofResult (execute fuel compiled.statements m)
  else .report (.ofErrors compiled.errors)

end Chalk
