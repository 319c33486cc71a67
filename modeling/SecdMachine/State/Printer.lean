import SecdMachine.Program
import SecdMachine.Report
import SecdMachine.State

/-!
# SecdMachine.State.Printer

A state as the console shows it: the program with the current location
marked, then the stack and the environment, each from the bottom up.
-/

namespace SecdMachine.State

/-- The lines of a program with the one at the current location painted. -/
def describeProgram (p : Palette) (program : Program) (current : Nat) : String :=
  Text.unlines ((program.listing current).mapIdx fun i line =>
    if i = current then p.paint .cyan line else line)

/-- A state of a program. -/
def describe (p : Palette) (program : Program) (s : State) : String :=
  if s.isHalted then p.paint .green "HALTED!" ++ "\n"
  else
    "--- pc\n" ++ describeProgram p program s.pc ++
      Report.stackHeading ++ Value.describeLines s.stack ++
      Report.envHeading ++ Value.describeLines s.env

/-- The value that the machine halted with, undefined if it has not. -/
def describeResult (s : State) : String :=
  "HALTED, return value = " ++ (s.result.getD .undefined).describe

end SecdMachine.State
