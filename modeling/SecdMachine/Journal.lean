import SecdMachine.Settings
import SecdMachine.Text.Quoted
import SecdMachine.Trace

/-!
# SecdMachine.Journal

The journal of a run: a line for each step, for what ended the run, and for
its outcome.  An entry has a message and named fields, in the order of their
names but with the error first.  A level of the settings shows its own entries
and those that tell less.
-/

namespace SecdMachine.Journal

/-- The levels that entries are made at. -/
inductive Level where
  | trace
  | debug
deriving DecidableEq, Repr

/-- The value of a field. -/
inductive Datum where
  | text (s : String)
  | number (n : Int)
  | bool (b : Bool)
deriving DecidableEq, Repr

/-- An entry of the journal. -/
structure Entry where
  level : Level
  message : String
  fields : List (String × Datum)
deriving DecidableEq, Repr

/-! ## Text -/

/-- Whether an entry of a level is shown under a setting. -/
def isShown (setting : Settings.Level) : Level → Bool
  | .trace => setting = .trace
  | .debug => setting = .trace || setting = .debug

/-- Text between terminal codes. -/
def painted (code : String) (s : String) : String :=
  "\x1b[" ++ code ++ "m" ++ s ++ "\x1b[0m"

/-- The tag of a level. -/
def Level.tag : Level → String
  | .trace => painted "35" "TRC"
  | .debug => painted "33" "DBG"

/-- Whether a text has to be quoted: if it holds white space, quotes,
backslashes or anything that is not printable ASCII. -/
def needsQuotes (s : String) : Bool :=
  s.toList.any fun c =>
    c.toNat < 0x20 || 0x7E < c.toNat || c == ' ' || c == '\\' || c == '"'

/-- The text of a value. -/
def Datum.render : Datum → String
  | .text s => if needsQuotes s then Text.quoteString s else s
  | .number n => Numeral.decimal n
  | .bool b => if b then "true" else "false"

/-- The text of a field. -/
def renderField (field : String × Datum) : String :=
  painted "36" (field.1 ++ "=") ++
    (if field.1 = "error" then painted "31" field.2.render else field.2.render)

/-- A time of day on a twelve-hour clock. -/
def clockText (hour minute : Nat) : String :=
  let h := if hour % 12 = 0 then 12 else hour % 12
  let tens := if minute < 10 then "0" else ""
  Numeral.natural h ++ ":" ++ tens ++ Numeral.natural minute ++
    (if hour < 12 then "AM" else "PM")

/-- The line of an entry made at the time of day `clock`. -/
def Entry.render (clock : String) (e : Entry) : String :=
  painted "90" clock ++ " " ++ e.level.tag ++ " " ++ e.message ++
    Text.concat (e.fields.map (" " ++ renderField ·)) ++ "\n"

/-- The lines of the entries that are shown under a setting. -/
def render (setting : Settings.Level) (clock : String) (entries : List Entry) : String :=
  Text.concat ((entries.filter (isShown setting ·.level)).map (Entry.render clock))

/-! ## Entries -/

/-- The entry about the settings of a run. -/
def configured (path : String) (settings : Settings) : Entry where
  level := .debug
  message := "configured"
  fields := [("config", .text path), ("interactive", .bool settings.interactive),
    ("max_steps", .number settings.maxSteps)]

/-- The entry about the operation that is about to be executed, if there is
one. -/
def stepEntry (p : Program) (s : State) : List Entry :=
  match p.code[s.pc]? with
  | none => []
  | some op =>
    [{ level := .trace
       message := "step"
       fields := [("env_depth", .number s.env.length), ("opcode", .text op.mnemonic),
         ("pc", .number s.pc), ("stack_depth", .number s.stack.length)] }]

/-- The entry about a machine that has just halted. -/
def haltEntry (s : State) : List Entry :=
  match s.result with
  | none => []
  | some v =>
    [{ level := .debug
       message := "halted"
       fields := [("pc", .number s.pc), ("result", .text v.describe)] }]

/-- The entries about the steps between the states of a history. -/
def historyEntries (p : Program) : List State → List Entry
  | s :: s' :: rest => stepEntry p s ++ haltEntry s' ++ historyEntries p (s' :: rest)
  | _ => []

/-- The entries about what ended a run. -/
def errorEntries (t : Trace) (r : Report) : List Entry :=
  if Trace.isBudgetReport r then
    [{ level := .debug
       message := "step budget exceeded"
       fields := [("steps", .number t.steps)] }]
  else
    stepEntry t.program t.last ++
      [{ level := .debug
         message := r.message
         fields := [("error", .text r.id), ("pc", .number t.last.pc)] },
       { level := .debug
         message := "machine failed"
         fields := [("error", .text r.text), ("steps", .number t.steps)] }]

/-- The entry about the outcome of a run that halted. -/
def outcomeEntry (o : Trace.Outcome) : List Entry :=
  match o.result with
  | none => []
  | some v =>
    [{ level := .debug
       message := "run halted"
       fields := [("result", .text v.describe), ("steps", .number o.steps)] }]

/-- The entries about a whole run. -/
def ofTrace (t : Trace) : List Entry :=
  historyEntries t.program t.history.toList ++
    (match t.error with
      | some r => errorEntries t r
      | none => []) ++
    outcomeEntry t.outcome

end SecdMachine.Journal
