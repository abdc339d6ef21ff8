import Chalk.Console

/-!
# The program

Reads arguments, files and standard input, hands them to `Console.plan`, and shows the reply. A run
is shown as it goes on: each prompt appears before its answer is read.
-/

namespace Chalk

/-- The bytes of a stream up to its end. -/
partial def readToEnd (stream : IO.FS.Stream) (bytes : ByteArray := .empty) : IO ByteArray := do
  let more ← stream.read 65536
  if more.isEmpty then return bytes
  readToEnd stream (bytes ++ more)

/-- The bytes of a file, if it can be read. -/
def readFile? (path : String) : IO (Option (List UInt8)) := do
  try
    return some (← IO.FS.readBinFile path).toList
  catch _ =>
    return none

/-- The files that a command names, and standard input if the source is read from it. -/
def openConsole (arguments : List String) : IO Console := do
  match Command.ofArguments {} arguments with
  | .command command =>
    let paths := command.settingsPath.toList ++ command.sourcePath.toList
    let files ← paths.mapM fun path => do return (path, ← readFile? path)
    let input ← if command.readsInput then readToEnd (← IO.getStdin) else pure .empty
    return { file? := fun path => (files.lookup path).join, input := input.toList }
  | _ => return { file? := fun _ => none, input := [] }

/-- The bytes of the next line of a stream, with those in `line` before it. -/
partial def readLine (stream : IO.FS.Stream) (line : ByteArray := .empty) : IO ByteArray := do
  let next ← stream.read 1
  let line := line ++ next
  if next.isEmpty || next.data.contains 10 then return line
  readLine stream line

/-- Writes a text at once. -/
def write (text : String) : IO Unit := do
  let out ← IO.getStdout
  out.putStr text
  out.flush

/-- Runs a task with the answers so far, shows what is new after the first `shown` events, and goes
on with one more answer or more fuel until the run ends. `asking` says that standard input may have
more answers. -/
partial def converse (task : Task) (answers : List String) (asking : Bool) (fuel shown : Nat) :
    IO Nat := do
  let ending := task.run fuel answers
  let events := ending.transcript
  match if asking then Task.unanswered? answers.length events.toList else none with
  | some place =>
    write (task.settings.shown (events.extract shown (place + 1)))
    let line ← readLine (← IO.getStdin)
    if line.isEmpty then converse task answers false fuel (place + 1)
    else converse task (answers ++ [lineAnswer line.toList]) true fuel (place + 1)
  | none =>
    write (task.settings.shown (events.extract shown events.size))
    match ending with
    | .outOfFuel _ => converse task answers asking (2 * fuel) events.size
    | _ => return ending.exitCode

/-- Carries out a command. -/
def perform (arguments : List String) : IO Nat := do
  match (← openConsole arguments).plan arguments with
  | .reply reply =>
    write reply.output
    if let some message := reply.error then
      (← IO.getStderr).putStrLn ("Error: " ++ message)
    return reply.exitCode
  | .run task answers => converse task answers true 1024 0

end Chalk

/-- The command line. -/
def main (arguments : List String) : IO UInt32 := do
  return (← Chalk.perform arguments).toUInt32
