import SecdMachine.Banner
import SecdMachine.State.Printer
import SecdMachine.Text.Wrap
import SecdMachine.Trace.Changes

/-!
# SecdMachine.Console

The console moves through a trace by commands and shows what it finds there.

1. A command changes the trace and leaves notes; it shows nothing itself.
2. Showing gives the state under the cursor, and below it the notes that have
   come up since the last time, each once.
3. Running to the end leaves one note, however many steps it takes.
4. A batch run shows every state that is not halted from the cursor on, and
   then how the run ended.
-/

namespace SecdMachine

/-! ## Commands -/

/-- A command of the console. -/
inductive Command where
  | next
  | previous
  | changes
  | run
  | explain
  | help
  | quit
  /-- A line that is no command. -/
  | unknown (line : String)
deriving DecidableEq, Repr

/-- Reads a command; white space around it does not count. -/
def Command.ofLine (line : String) : Command :=
  match Text.trimString line with
  | "" => .next
  | "n" => .next
  | "p" => .previous
  | "d" => .changes
  | "r" => .run
  | "e" => .explain
  | "h" => .help
  | "q" => .quit
  | other => .unknown other

/-- A console over a trace. -/
structure Console where
  palette : Palette
  /-- Whether showing clears the screen first. -/
  clearScreen : Bool
  trace : Trace
  /-- The notes since the last time something was shown, in order. -/
  notes : List String := []

namespace Console

/-- The list of the commands. -/
def helpText : String :=
  "\nConsole commands are:\n\n" ++
    Banner.bullet ++ "n or <return>  step forward\n" ++
    Banner.bullet ++ "p              step back through the history\n" ++
    Banner.bullet ++ "d              show what the last step changed\n" ++
    Banner.bullet ++ "r              run to the end\n" ++
    Banner.bullet ++ "e              explain the error that stopped the run\n" ++
    Banner.bullet ++ "h              show this help\n" ++
    Banner.bullet ++ "q              quit\n\n"

/-- The column that explanations are wrapped at. -/
def margin : Int := 84

/-- The console over a trace that has not taken a step. -/
def start (palette : Palette) (clearScreen : Bool) (program : Program) (budget : Int) :
    Console where
  palette := palette
  clearScreen := clearScreen
  trace := .start program budget

/-! ## Notes -/

/-- The console with one more note. -/
def note (c : Console) (s : String) : Console :=
  { c with notes := c.notes ++ [s] }

/-- The console with a note of something that cannot be done. -/
def noteError (c : Console) (s : String) : Console :=
  c.note (c.palette.errorHeader ++ s ++ "\n")

/-- An error that ended a run: in full if the machine failed, in one line if
the budget ran out. -/
def describeFailure (p : Palette) (r : Report) : String :=
  if Trace.isBudgetReport r then r.headline p else r.describe p

/-- Why the cursor does not move forward. -/
def stopNote (p : Palette) (t : Trace) : String :=
  match t.error with
  | some r => describeFailure p r
  | none => p.paint .yellow "The machine has halted." ++ "\n"

/-- What the step into the state under the cursor changed. -/
def changesNote (t : Trace) (changes : List Json.Change) : String :=
  "--- changes made by step " ++ Numeral.natural t.cursor ++ "\n" ++
    Text.unlines (changes.map (Banner.bullet ++ ·.text))

/-! ## Performing commands -/

/-- Performs a command. -/
def perform (c : Console) : Command → Console
  | .next =>
    match c.trace.next with
    | (t, true) => { c with trace := t }
    | (t, false) => { c with trace := t }.note (stopNote c.palette t)
  | .previous =>
    match c.trace.prev with
    | (t, true) => { c with trace := t }
    | (_, false) => c.noteError "already at the first state."
  | .changes =>
    if c.trace.cursor = 0 then c.noteError "this is the initial state, no step led to it."
    else
      match c.trace.changes? c.trace.cursor with
      | some changes => c.note (changesNote c.trace changes)
      | none => c.noteError (Trace.noStepMessage c.trace.cursor)
  | .run =>
    let t := c.trace.run
    { c with trace := t }.note (stopNote c.palette t)
  | .explain =>
    match c.trace.error with
    | some r => c.note (Text.wrap 0 margin r.explanation ++ "\n")
    | none => c.noteError "there is no error to explain."
  | .help => c.note helpText
  | .quit => c
  | .unknown line =>
    c.noteError ("unknown command " ++ Fault.emph line ++ ", 'h' lists the commands.")

/-- Performs the command on a line.  The flag tells whether it was to quit. -/
def enter (c : Console) (line : String) : Console × Bool :=
  (c.perform (.ofLine line), Command.ofLine line = .quit)

/-! ## Showing -/

/-- The state under the cursor of a trace, under its number. -/
def stateBlock (p : Palette) (t : Trace) : String :=
  "\n" ++ Numeral.natural t.cursor ++ Banner.rule ++ "\n\n" ++ t.current.describe p t.program

/-- What showing displays. -/
def display (c : Console) : String :=
  (if c.clearScreen then Banner.clearScreen else "") ++ stateBlock c.palette c.trace ++
    (if c.trace.current.isHalted then c.trace.current.describeResult ++ "\n" else "") ++
    Text.concat c.notes

/-- The console after its notes have been shown. -/
def shown (c : Console) : Console :=
  { c with notes := [] }

/-- The prompt, in the colour of the run's status. -/
def prompt (c : Console) : String :=
  let text := "step " ++ Numeral.natural c.trace.cursor ++ "/" ++
    Numeral.natural c.trace.steps ++ " " ++ Banner.arrow
  match c.trace.status with
  | .failed | .aborted => c.palette.paint .red text
  | .halted => c.palette.paint .green text
  | .running => text

/-! ## Runs -/

/-- How a run ended: the result, or the error, if any, and that the run was
given up. -/
def ending (p : Palette) (t : Trace) : String :=
  match t.status with
  | .halted => t.last.describeResult ++ "\n"
  | .failed | .aborted => ((t.error.map (describeFailure p)).getD "") ++ "Abort.\n"
  | .running => "Abort.\n"

/-- Moves a trace forward at most `n` times, or until it does not move or is at
a halted state, and gives the state before each move. -/
def batchFor (p : Palette) : Nat → Trace → Trace × List String
  | 0, t => (t, [])
  | n + 1, t =>
    let block := stateBlock p t
    match t.next with
    | (t', false) => (t', [block])
    | (t', true) =>
      if t'.current.isHalted then (t', [block])
      else
        let (t'', blocks) := batchFor p n t'
        (t'', block :: blocks)

/-- Runs to the end and gives what is shown on the way: every state from the
cursor on, and how the run ended. -/
def batch (c : Console) : Console × String :=
  let (t, blocks) := batchFor c.palette (c.trace.remaining + 1) c.trace
  ({ c with trace := t }, Text.concat blocks ++ ending c.palette t)

end Console

end SecdMachine
