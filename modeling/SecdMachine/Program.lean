import SecdMachine.Operation
import SecdMachine.Statement

/-!
# SecdMachine.Program

An assembled program: its operations, the constants and the locations of the
labels that they refer to, and the statements that they were assembled from.
-/

namespace SecdMachine

/-- A program.  Operation `i` was assembled from statement `i`. -/
structure Program where
  code : List Operation
  constants : List Value := []
  /-- The labels and the locations of their lines. -/
  labels : List (String × Nat) := []
  statements : List Statement := []
  /-- Where execution starts. -/
  main : Nat := 0
deriving DecidableEq, Repr

namespace Program

/-- The number of operations. -/
def size (p : Program) : Nat :=
  p.code.length

/-- The location of a label. -/
def location? (p : Program) (name : String) : Option Nat :=
  p.labels.lookup name

/-- The statement at a location, or the empty one where there is none. -/
def statementAt (p : Program) (location : Nat) : Statement :=
  p.statements[location]?.getD {}

/-! ## Labels -/

/-- Labels are in order of location, and labels of one location in the order
of their names. -/
def labelLE (a b : String × Nat) : Bool :=
  a.2 < b.2 || (a.2 == b.2 && a.1 ≤ b.1)

/-- The labels with their locations, in order of location. -/
def sortedLabels (p : Program) : List (String × Nat) :=
  p.labels.mergeSort labelLE

/-- The names of the labels, in order of location. -/
def labelNames (p : Program) : List String :=
  p.sortedLabels.map (·.1)

/-! ## Listings -/

/-- The line of a listing for the statement with index `i` out of `count`:
the current location is marked, and labels are outdented. -/
def listingLine (count current i : Nat) (s : Statement) : String :=
  (if i = current then "> " else "  ") ++
    Text.padLeft (Numeral.natural count).length (Numeral.natural i) ++ ": " ++
    (if s.kind = .label then "" else "    ") ++ s.text

/-- One line for each statement, numbered by location, with a mark at the
current location. -/
def listing (p : Program) (current : Nat) : List String :=
  p.statements.mapIdx (listingLine p.statements.length current)

/-- One line for each operation. -/
def describeCode (p : Program) : List String :=
  p.code.mapIdx fun i op =>
    Text.padLeft 6 (describeLocation i ++ " : ") ++ op.describe

end Program

end SecdMachine
