import SecdMachine.Fault
import SecdMachine.Palette
import SecdMachine.Statement
import SecdMachine.Value.Printer

/-!
# SecdMachine.Report

A fault together with where it arose: the statement, and for faults of the
machine what was on the stack and in the environment.  A report has a
one-line text, an explanation, and a description that shows everything it
carries; a list of reports has a one-line summary and a numbered listing.
-/

namespace SecdMachine

/-- A fault with its circumstances, each of which may be missing. -/
structure Report where
  fault : Fault
  statement : Option Statement := none
  stack : Option (List Value) := none
  env : Option (List Value) := none
deriving DecidableEq, Repr

namespace Report

/-- The identifier of the fault. -/
def id (r : Report) : String :=
  r.fault.id

/-- The message of the fault, without its place. -/
def message (r : Report) : String :=
  r.fault.message

/-- The text of the statement, empty if there is none. -/
def instruction (r : Report) : String :=
  (r.statement.map Statement.text).getD ""

/-- The message of the fault and its place. -/
def text (r : Report) : String :=
  r.message ++ (r.statement.map Statement.position).getD ""

/-- What the fault means and how to mend it. -/
def explanation (r : Report) : String :=
  r.fault.explanation r.instruction

/-- The text of the report as a sentence after the error header. -/
def headline (p : Palette) (r : Report) : String :=
  p.errorHeader ++ r.text ++ ".\n"

/-- Values one to a line under a heading, or nothing if there are none to
show. -/
def valuesUnder (heading : String) (vs : Option (List Value)) : String :=
  match vs with
  | none => ""
  | some vs => heading ++ Value.describeLines vs

/-- The heading of the values of a stack. -/
def stackHeading : String := "--- stk (from bottom to top)\n"

/-- The heading of the values of an environment. -/
def envHeading : String := "--- env (from bottom to top)\n"

/-- The report with the instruction and the contents of the machine. -/
def describe (p : Palette) (r : Report) : String :=
  r.headline p ++
    (if r.instruction = "" then ""
      else "\n--- instruction\n" ++ p.paint .cyan r.instruction ++ "\n") ++
    valuesUnder stackHeading r.stack ++ valuesUnder envHeading r.env

/-! ## Lists of reports -/

/-- One line for a list of reports: the text of the first, and how many
follow it. -/
def summary : List Report → String
  | [] => "no errors"
  | [r] => r.text
  | r :: rest => r.text ++ " (and " ++ Numeral.natural rest.length ++ " more)"

/-- The headlines of the reports, numbered from `i`. -/
def listingFrom (p : Palette) (i : Nat) : List Report → String
  | [] => ""
  | r :: rest =>
    "[" ++ Numeral.natural i ++ "] " ++ r.headline p ++ listingFrom p (i + 1) rest

/-- The headlines of the reports, numbered from 0. -/
def listing (p : Palette) (rs : List Report) : String :=
  listingFrom p 0 rs

/-- The explanation of the report with the given number, empty if there is no
such report. -/
def explanationAt (rs : List Report) (i : Int) : String :=
  if i < 0 then "" else (rs[i.toNat]?.map explanation).getD ""

end Report

end SecdMachine
