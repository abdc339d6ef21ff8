import Chalk.Run
import Chalk.Settings

/-!
# The command line

The command line takes options and at most one source file, reads settings and source, and either
checks the source or runs it. Without a file, or with the file `-`, the source is read from
standard input. The whole command is a function of its arguments, the files that could be read and
the bytes of standard input.

## Main definitions

* `Command` — what the arguments ask for
* `Console` — the world that a command sees
* `Console.plan` — what is settled before a program runs
* `Console.reply` — what a command prints, and its exit code
* `Task.unanswered?` — where a run that asks for more answers has to wait

## Conversations

A run is a function of its answers, so a conversation needs no state of its own: a run with more
answers goes on where a run with fewer of them had to guess, and a run with more fuel goes on where
one with less had to stop. `Task.unanswered?` finds the first prompt that has no answer yet.
-/

namespace Chalk

/-! ## Arguments -/

/-- The summary of the options. -/
def usage : String := "usage: pseudocode [--check] [--config FILE] [-v] [FILE]"

/-- What the arguments ask for: only a check or a run, a settings file, and the source file. -/
structure Command where
  checkOnly : Bool := false
  settingsPath : Option String := none
  sourcePath : Option String := none
deriving DecidableEq, Inhabited

/-- The outcome of reading the arguments. -/
inductive Parameters where
  | command (command : Command)
  | help
  | wrong (message : String)
deriving DecidableEq, Inhabited

/-- Whether an argument asks for more messages about the run: a dash and one or more letters `v`.
Such messages are not part of the output. -/
def isVerbosity (argument : String) : Bool :=
  match argument.toList with
  | '-' :: 'v' :: rest => rest.all (· == 'v')
  | _ => false

/-- Whether an argument is an option. A dash alone is a file. -/
def isOption (argument : String) : Bool :=
  argument.toList.head? == some '-' && argument != "-"

/-- Reads the arguments from left to right. The first that asks for help or is wrong decides. -/
def Command.ofArguments (c : Command) : List String → Parameters
  | [] => .command c
  | "--check" :: rest => ofArguments { c with checkOnly := true } rest
  | argument :: rest =>
    if argument == "--config" || argument == "-c" then
      match rest with
      | [] => .wrong ("Missing config path after " ++ argument)
      | path :: rest => ofArguments { c with settingsPath := some path } rest
    else if argument == "--help" || argument == "-h" then .help
    else if isVerbosity argument then ofArguments c rest
    else if isOption argument then .wrong ("Unknown option '" ++ argument ++ "'\n" ++ usage)
    else if c.sourcePath.isSome then .wrong "Only one input file is supported"
    else ofArguments { c with sourcePath := some argument } rest

/-! ## Standard input -/

/-- The bytes of a line feed and of a carriage return. -/
def isLineEnd (b : UInt8) : Bool := b == 10 || b == 13

/-- The lines of standard input. A line ends after a line feed; what follows the last one is a line
too, unless it is empty. -/
def inputLines : List UInt8 → List (List UInt8)
  | [] => []
  | b :: rest =>
    if b == 10 then [b] :: inputLines rest
    else
      match inputLines rest with
      | [] => [[b]]
      | line :: lines => (b :: line) :: lines

/-- The text of some bytes, if they are valid. -/
def decodeText? (bytes : List UInt8) : Option String :=
  String.fromUTF8? ⟨bytes.toArray⟩

/-- The answer that a line of standard input gives: its text without line ends, and no text if the
line is not valid. -/
def lineAnswer (line : List UInt8) : String :=
  match decodeText? line with
  | none => ""
  | some _ => (decodeText? ((line.reverse.dropWhile isLineEnd).reverse)).getD ""

/-! ## Replies -/

/-- What a command prints, an error message if there is one, and its exit code. -/
structure Reply where
  exitCode : Nat
  output : String
  error : Option String := none
deriving DecidableEq, Inhabited

/-- The reply of a command that cannot be carried out. -/
def Reply.failed (message : String) : Reply :=
  { exitCode := 1, output := "", error := some message }

/-- The exit code of a run that ended because a list is in use. -/
def abortedExitCode : Nat := 101

/-- What an event adds to standard output. Prompts are shown unless the settings say otherwise. -/
def Settings.shownText (settings : Settings) : Event → String
  | .print text => text
  | .read prompt => if settings.echoPrompts then prompt else ""

/-- What some events add to standard output. -/
def Settings.shown (settings : Settings) (transcript : Array Event) : String :=
  transcript.foldl (fun text event => text ++ settings.shownText event) ""

/-- The reply of a check. -/
def checkReply (source : String) : Reply :=
  let compiled := compile source.toList
  { exitCode := if compiled.isSuccess then 0 else 1
    output := compiled.errors.foldl (fun text d => text ++ d.text ++ "\n") "" }

/-- The exit code of a run. -/
def Ending.exitCode : Ending → Nat
  | report r => if r.isSuccess then 0 else 1
  | listInUse _ => abortedExitCode
  | outOfFuel _ => abortedExitCode

/-! ## Runs -/

/-- A source that is to be run with some settings. -/
structure Task where
  settings : Settings
  source : String
deriving DecidableEq, Inhabited

namespace Task

/-- The run of a task with some answers. -/
def run (task : Task) (fuel : Nat) (answers : List String) : Ending :=
  Chalk.run fuel task.source.toList { answers, maxCallDepth := task.settings.maxCallDepth }

/-- The reply of a run. -/
def reply (task : Task) (ending : Ending) : Reply :=
  { exitCode := ending.exitCode, output := task.settings.shown ending.transcript }

/-- The place of the first prompt after `answered` others, if there is one. -/
def unanswered? (answered : Nat) : List Event → Option Nat
  | [] => none
  | .print _ :: rest => (unanswered? answered rest).map (· + 1)
  | .read _ :: rest =>
    match answered with
    | 0 => some 0
    | n + 1 => (unanswered? n rest).map (· + 1)

end Task

/-! ## Commands -/

/-- The world that a command sees: what reading a file gives, and standard input. -/
structure Console where
  file? : String → Option (List UInt8)
  input : List UInt8

/-- What is settled before a program runs: a reply that needs no run, or a task with the answers
that standard input has for it. -/
inductive Plan where
  | reply (reply : Reply)
  | run (task : Task) (answers : List String)
deriving DecidableEq, Inhabited

/-- Whether the source is read from standard input. -/
def Command.readsInput (command : Command) : Bool :=
  command.sourcePath.isNone || command.sourcePath == some "-"

namespace Console

/-- The settings that a command uses. -/
def settings (c : Console) (path : Option String) : Except String Settings :=
  match path with
  | none => .ok {}
  | some path =>
    match (c.file? path).bind decodeText? with
    | none => .error ("failed to read config " ++ path)
    | some text =>
      match Settings.parse? text.toList with
      | none => .error ("in " ++ path)
      | some settings => .ok settings

/-- The source that a command works on. -/
def source (c : Console) (command : Command) : Except String String :=
  if command.readsInput then
    match decodeText? c.input with
    | none => .error "Reading stdin"
    | some text => .ok text
  else
    let path := command.sourcePath.getD ""
    match (c.file? path).bind decodeText? with
    | none => .error ("Reading " ++ path)
    | some text => .ok text

/-- The answers that standard input gives to a run. There are none if the source was read from
it. -/
def answers (c : Console) (command : Command) : List String :=
  if command.readsInput then [] else (inputLines c.input).map lineAnswer

/-- What some arguments settle. Settings are read before the source. -/
def plan (c : Console) (arguments : List String) : Plan :=
  match Command.ofArguments {} arguments with
  | .help => .reply { exitCode := 0, output := usage ++ "\n" }
  | .wrong message => .reply (.failed message)
  | .command command =>
    match c.settings command.settingsPath with
    | .error message => .reply (.failed message)
    | .ok settings =>
      match c.source command with
      | .error message => .reply (.failed message)
      | .ok source =>
        if command.checkOnly then .reply (checkReply source)
        else .run { settings, source } (c.answers command)

/-- The reply to some arguments. -/
def reply (c : Console) (fuel : Nat) (arguments : List String) : Reply :=
  match c.plan arguments with
  | .reply reply => reply
  | .run task answers => task.reply (task.run fuel answers)

end Console

end Chalk
