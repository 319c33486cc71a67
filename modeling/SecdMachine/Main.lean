import SecdMachine.CommandLine
import Std.Time

/-!
# SecdMachine.Main

The executable: reads the files that the command line names, follows the plan,
and writes what comes of it.
-/

namespace SecdMachine.CommandLine

/-- The reason of an input or output error. -/
def reasonOf : IO.Error → String
  | .noFileOrDirectory .. => FileError.noSuchFile
  | .inappropriateType .. => FileError.isADirectory
  | .permissionDenied .. => "permission denied"
  | e => toString e

/-- Reads a file. -/
def readFile (path : String) : IO (Except FileError String) := do
  try
    return .ok (← IO.FS.readFile path)
  catch e =>
    match e with
    | .inappropriateType .. => return .error ⟨"read", path, FileError.isADirectory⟩
    | e => return .error ⟨"open", path, reasonOf e⟩

/-- Why a file cannot be written, if it cannot. -/
def probeWrite (path : String) : IO (Option FileError) := do
  try
    let _ ← IO.FS.Handle.mk path .append
    return none
  catch e => return some ⟨"open", path, reasonOf e⟩

/-- The files that the command line names. -/
def readFiles (arguments : List String) : IO Files := do
  let paths := match Flags.read arguments with
    | .ok f => f.config :: f.arguments
    | .error _ => []
  let contents ← (paths.filter (· != "")).mapM fun path => return (path, ← readFile path)
  return {
    read := fun path =>
      (contents.lookup path).getD (.error ⟨"open", path, FileError.noSuchFile⟩)
    writeError? := fun _ => none }

/-- The time of day. -/
def currentClock : IO String := do
  try
    let now ← Std.Time.PlainTime.now
    return Journal.clockText now.hour.val.toNat now.minute.val.toNat
  catch _ => return Journal.clockText 0 0

/-- Shows the console and performs the lines that are entered, until one of them
quits or the input ends. -/
partial def converse (c : Console) : IO Console := do
  let input ← IO.getStdin
  let output ← IO.getStdout
  output.putStr c.display
  output.putStr c.prompt
  output.flush
  let line ← input.getLine
  if line.isEmpty then return c.shown
  else
    match c.shown.enter line with
    | (c', true) => return c'
    | (c', false) => converse c'

/-- Writes what a command line led to. -/
def emit (r : Result) : IO UInt32 := do
  (← IO.getStdout).putStr r.stdout
  (← IO.getStderr).putStr r.stderr
  match r.written with
  | some (path, content) => IO.FS.writeFile path content
  | none => pure ()
  return r.exit.toUInt32

/-- Runs a session, taking lines from the standard input in interactive mode. -/
def perform (clock : String) (files : Files) (s : Session) : IO UInt32 := do
  let (c, shown) ←
    if s.settings.interactive then do
      (← IO.getStdout).putStr Banner.logo
      let c ← converse s.console
      pure (c, Console.ending c.palette c.trace)
    else pure s.console.batch
  let failure ← if s.dump = "" then pure none else probeWrite s.dump
  emit (s.conclude clock { files with writeError? := fun _ => failure } c shown)

end SecdMachine.CommandLine

/-- The entry point of the program. -/
def main (arguments : List String) : IO UInt32 := do
  let clock ← SecdMachine.CommandLine.currentClock
  let files ← SecdMachine.CommandLine.readFiles arguments
  match SecdMachine.CommandLine.plan clock files arguments with
  | .finished r => SecdMachine.CommandLine.emit r
  | .session s => SecdMachine.CommandLine.perform clock files s
