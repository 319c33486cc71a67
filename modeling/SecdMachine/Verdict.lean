import SecdMachine.Assembly
import SecdMachine.Settings
import SecdMachine.Trace

/-!
# SecdMachine.Verdict

What becomes of a program text, in one line: whether it can be loaded, and
what it halts with when it is run with the default budget.
-/

namespace SecdMachine

/-- The source name of a text that is judged by itself. -/
def Verdict.source : String := "test"

/-- A verdict on a program text. -/
structure Verdict where
  /-- The value that the program halted with, or the identifiers of what went
  wrong. -/
  result : String
  /-- The text of what went wrong. -/
  error : Option String := none
  /-- What the error is known by: the identifier of a fault that ended the
  run, or the text of what is wrong with the program; empty without error. -/
  errorId : String := ""
deriving DecidableEq, Repr

namespace Verdict

/-- The verdict on loading a text: `ok`, or the identifiers of the faults. -/
def ofLoading (text : String) : Verdict :=
  match Program.assemble source text with
  | .ok _ => { result := "ok" }
  | .error reports =>
    { result := Text.join ", " (reports.map Report.id)
      error := some (Report.summary reports)
      errorId := Report.summary reports }

/-- The verdict on running a text: the value that it halts with, or the
identifier of the first fault. -/
def ofRunning (text : String) : Verdict :=
  match Program.assemble source text with
  | .error reports =>
    { result := (reports.head?.map Report.id).getD ""
      error := some (Report.summary reports)
      errorId := Report.summary reports }
  | .ok program =>
    let outcome := (Trace.start program ({} : Settings).maxSteps).run.outcome
    match outcome.result, outcome.error with
    | some v, _ => { result := v.describe }
    | none, some r => { result := r.id, error := some r.text, errorId := r.id }
    | none, none => { result := "" }

end Verdict

end SecdMachine
