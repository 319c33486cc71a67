import SecdMachine.Json.Patch
import SecdMachine.Trace

/-!
# SecdMachine.Trace.Changes

What a step did, as the difference between the documents of two states, and
the document of a whole history.
-/

namespace SecdMachine.Trace

/-- The changes that the step into the state with an index made.  There is no
such step for the initial state and outside the history. -/
def changes? (t : Trace) (i : Int) : Option (List Json.Change) :=
  if i = 0 then none
  else
    match t.at? (i - 1), t.at? i with
    | some before, some after => some (Json.changes before.document after.document)
    | _, _ => none

/-- What is said of an index that no step leads to. -/
def noStepMessage (i : Int) : String :=
  "no step leads to state " ++ Numeral.decimal i

/-- The document of a history: its states with their numbers. -/
def document (t : Trace) : Json :=
  .array (t.history.toList.mapIdx fun i s =>
    .object [("step", .number i), ("state", s.document)])

/-- The text of the document of a history. -/
def dump (t : Trace) : String :=
  t.document.indented 0 ++ "\n"

end SecdMachine.Trace
