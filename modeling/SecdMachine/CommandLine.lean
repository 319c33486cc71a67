import SecdMachine.Assembly
import SecdMachine.CommandLine.Files
import SecdMachine.CommandLine.Flags
import SecdMachine.Console
import SecdMachine.Examples
import SecdMachine.Journal
import SecdMachine.Settings

/-!
# SecdMachine.CommandLine

What the program does with its command line.

1. The flags are read, then the settings, then the program; the first of these
   that goes wrong ends it with status 1 and nothing on the standard output.
2. Flags override settings.  Until both are known, errors are in colour.
3. A run ends with status 0 if the machine halted, 2 if the budget ran out,
   and 1 otherwise; if the history was to be written to a file and cannot be,
   with 1.

A command line comes to a result at once, or to a session, which is a console
with what is to be done when it ends.  A session runs as a batch, or takes
lines of input.
-/

namespace SecdMachine.CommandLine

/-- What a command line leads to. -/
structure Result where
  exit : Nat
  stdout : String := ""
  stderr : String := ""
  /-- A file to write, by its path and content. -/
  written : Option (String × String) := none
deriving DecidableEq, Repr

/-- A run that is about to start. -/
structure Session where
  settings : Settings
  console : Console
  /-- Where to write the history, empty if nowhere. -/
  dump : String
  /-- The journal so far. -/
  journal : String

/-- What a command line comes to. -/
inductive Plan where
  | finished (r : Result)
  | session (s : Session)

/-! ## Settings -/

/-- The text of an error in a settings file. -/
def settingsErrorText : Settings.Error → String
  | .malformed => "config: malformed document"
  | .invalid issues => Settings.issuesMessage issues

/-- Reads the settings file of a path; an empty path gives the defaults. -/
def loadSettings (files : Files) (path : String) : Except String Settings :=
  if path = "" then .ok {}
  else
    match files.read path with
    | .error e => .error ("config: " ++ e.text)
    | .ok text =>
      match Settings.read text with
      | .ok s => .ok s
      | .error e => .error (settingsErrorText e)

/-- Settings with the flags that override them. -/
def overrideSettings (s : Settings) (f : Flags) : Settings :=
  { s with
    interactive := f.interactive.getD s.interactive
    maxSteps := f.maxSteps.getD s.maxSteps
    colour := (f.mono.map (!·)).getD s.colour }

/-! ## Programs -/

/-- The example that is run if nothing else is asked for. -/
def defaultExample : String := "add"

/-- The name and text of the program to run: that of a file, or else a built-in
example. -/
def loadProgram (files : Files) (f : Flags) : Except String (String × String) :=
  match f.arguments with
  | [] =>
    let name := if f.exampleName = "" then defaultExample else f.exampleName
    match Examples.find? name with
    | some text => .ok ("example " ++ name, text)
    | none => .error ("there is no example called " ++ Fault.emph name ++ ", try -list")
  | [path] =>
    if f.exampleName = "" then
      match files.read path with
      | .ok text => .ok (path, text)
      | .error e => .error e.text
    else .error "can't run both a file and an example"
  | paths =>
    .error ("expected at most one program file, got " ++ Numeral.natural paths.length)

/-- The list of the built-in examples. -/
def exampleList : String :=
  Text.unlines (Examples.names.map fun n => Banner.bullet ++ n ++ " : " ++ Examples.summary n)

/-! ## Plans -/

/-- The result of an error. -/
def refusal (p : Palette) (journal message : String) : Plan :=
  .finished { exit := 1, stderr := journal ++ p.errorHeader ++ message ++ "\n" }

/-- The plan of flags and settings. -/
def planWith (clock : String) (files : Files) (f : Flags) (settings : Settings) : Plan :=
  let journal := Journal.render settings.level clock [Journal.configured f.config settings]
  let palette := Palette.ofColour settings.colour
  if f.list then .finished { exit := 0, stdout := exampleList, stderr := journal }
  else
    match loadProgram files f with
    | .error message => refusal palette journal message
    | .ok (source, text) =>
      match Program.assemble source text with
      | .error reports =>
        .finished { exit := 1, stderr := journal ++ Report.listing palette reports }
      | .ok program =>
        .session {
          settings := settings
          console := .start palette settings.clearScreen program settings.maxSteps
          dump := f.dump
          journal := journal }

/-- The plan of a command line at the time of day `clock`. -/
def plan (clock : String) (files : Files) (arguments : List String) : Plan :=
  match Flags.read arguments with
  | .error e => .finished { exit := 1, stderr := e.message ++ Flags.usage }
  | .ok f =>
    match loadSettings files f.config with
    | .error message => refusal .ansi "" message
    | .ok s => planWith clock files f (overrideSettings s f)

/-! ## Sessions -/

/-- The exit status of an outcome. -/
def exitStatus : Trace.Status → Nat
  | .halted => 0
  | .aborted => 2
  | .failed | .running => 1

namespace Session

/-- The result of a session that has come to an end with the given console,
after `shown` was displayed. -/
def conclude (clock : String) (files : Files) (s : Session) (c : Console) (shown : String) :
    Result :=
  let journal :=
    s.journal ++ Journal.render s.settings.level clock (Journal.ofTrace c.trace)
  let result : Result :=
    { exit := exitStatus c.trace.status, stdout := shown, stderr := journal }
  if s.dump = "" then result
  else
    match files.writeError? s.dump with
    | some e =>
      { result with
        exit := 1
        stderr := journal ++ c.palette.errorHeader ++ e.text ++ "\n" }
    | none => { result with written := some (s.dump, c.trace.dump) }

/-- Runs a session as a batch. -/
def batch (clock : String) (files : Files) (s : Session) : Result :=
  let (c, shown) := s.console.batch
  s.conclude clock files c shown

/-- What is displayed while lines are entered until one of them quits, and the
console after it. -/
def displayLines (c : Console) : List String → Console × List String
  | [] => (c.shown, [c.display])
  | line :: rest =>
    match c.shown.enter line with
    | (c', true) => (c', [c.display])
    | (c', false) =>
      let (c'', shown) := displayLines c' rest
      (c'', c.display :: shown)

/-- Runs a session with lines of input. -/
def interact (clock : String) (files : Files) (s : Session) (input : List String) : Result :=
  let (c, shown) := displayLines s.console input
  s.conclude clock files c
    (Banner.logo ++ Text.concat shown ++ Console.ending c.palette c.trace)

end Session

/-- Does what a command line asks for, where `input` is what is typed in
interactive mode. -/
def run (clock : String) (files : Files) (input arguments : List String) : Result :=
  match plan clock files arguments with
  | .finished r => r
  | .session s =>
    if s.settings.interactive then s.interact clock files input else s.batch clock files

end SecdMachine.CommandLine
