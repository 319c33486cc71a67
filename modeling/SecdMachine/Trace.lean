import SecdMachine.Step

/-!
# SecdMachine.Trace

A trace is the history of a run with a cursor that moves through it.  New
states are computed only when the cursor moves past the end of the history,
at most as many as the budget allows; the history never shrinks, and an
error that ended the run stays.

1. At the end of the history a halted machine goes nowhere, whatever the
   budget.
2. Otherwise an error, once it has arisen, is met again each time.
3. Otherwise the budget is checked before a step is taken, so a budget below
   one allows none.
-/

namespace SecdMachine

/-- How far a run has come: it can go on, it has halted, the machine failed,
or the budget ran out. -/
inductive Trace.Status where
  | running
  | halted
  | failed
  | aborted
deriving DecidableEq, Repr

/-- The name of a status. -/
def Trace.Status.name : Trace.Status → String
  | .running => "running"
  | .halted => "halted"
  | .failed => "failed"
  | .aborted => "aborted"

/-- The history of a run of a program, with a cursor. -/
structure Trace where
  program : Program
  /-- How many steps the run may take. -/
  budget : Int
  /-- The states that the run went through, the initial one first. -/
  history : Array State
  cursor : Nat
  /-- What ended the run, unless the machine halted. -/
  error : Option Report := none
  cursor_lt : cursor < history.size
deriving DecidableEq, Repr

/-- How a run ended or how far it has come. -/
structure Trace.Outcome where
  status : Trace.Status
  /-- The value that the machine halted with. -/
  result : Option Value
  steps : Nat
  error : Option Report
deriving DecidableEq, Repr

namespace Trace

/-! ## Views -/

/-- The trace of a run that has not taken a step. -/
def start (program : Program) (budget : Int) : Trace where
  program := program
  budget := budget
  history := #[program.initial]
  cursor := 0
  cursor_lt := by simp

/-- The number of states in the history. -/
def size (t : Trace) : Nat :=
  t.history.size

/-- The number of steps taken. -/
def steps (t : Trace) : Nat :=
  t.history.size - 1

theorem size_pos (t : Trace) : 0 < t.history.size :=
  Nat.lt_of_le_of_lt (Nat.zero_le _) t.cursor_lt

/-- The state with an index. -/
def at? (t : Trace) (i : Int) : Option State :=
  if i < 0 then none else t.history[i.toNat]?

/-- The state under the cursor. -/
def current (t : Trace) : State :=
  getElem t.history t.cursor t.cursor_lt

/-- The last state of the history. -/
def last (t : Trace) : State :=
  getElem t.history (t.history.size - 1) (Nat.sub_lt t.size_pos Nat.one_pos)

/-- Whether a report says that the budget ran out. -/
def isBudgetReport (r : Report) : Bool :=
  match r.fault with
  | .budgetExceeded _ => true
  | _ => false

/-- The status of the run, whatever the place of the cursor. -/
def status (t : Trace) : Status :=
  if t.last.isHalted then .halted
  else match t.error with
    | none => .running
    | some r => if isBudgetReport r then .aborted else .failed

/-- The outcome of the run as far as it has come. -/
def outcome (t : Trace) : Outcome where
  status := t.status
  result := t.last.result
  steps := t.steps
  error := t.error

/-! ## Moves -/

/-- The report that the budget ran out. -/
def budgetReport (t : Trace) : Report where
  fault := .budgetExceeded t.budget
  statement := some {}

/-- Moves the cursor forward by one state, which is computed if the cursor is
at the end of the history.  The flag tells whether the cursor moved; if it
did not, the machine has halted or the trace carries the error. -/
def next (t : Trace) : Trace × Bool :=
  if h : t.cursor + 1 < t.history.size then
    ({ t with cursor := t.cursor + 1, cursor_lt := h }, true)
  else if t.last.isHalted then (t, false)
  else if t.error.isSome then (t, false)
  else if t.budget ≤ t.steps then ({ t with error := some t.budgetReport }, false)
  else
    match t.program.step t.last with
    | .ok s =>
      ({ t with
          history := t.history.push s
          cursor := t.cursor + 1
          cursor_lt := by
            have := t.cursor_lt
            simp only [Array.size_push]
            omega }, true)
    | .error (.fault f) => ({ t with error := some (t.program.report t.last f) }, false)
    | .error .stuck => (t, false)

/-- The error that a move forward meets.  There is none if the cursor moves, and
none if it stays because the machine has halted. -/
def nextError (t : Trace) : Option Report :=
  if t.next.2 || t.last.isHalted then none else t.next.1.error

/-- Moves the cursor back by one state.  The flag tells whether it moved. -/
def prev (t : Trace) : Trace × Bool :=
  if t.cursor = 0 then (t, false)
  else
    ({ t with
        cursor := t.cursor - 1
        cursor_lt := Nat.lt_of_le_of_lt (Nat.sub_le _ _) t.cursor_lt }, true)

/-- An upper bound on how often the cursor can still move forward: the states
ahead of it, and the steps that the budget leaves. -/
def remaining (t : Trace) : Nat :=
  (t.history.size - 1 - t.cursor) + (t.budget - t.steps).toNat

/-- Moves the cursor forward at most `n` times, or until it does not move. -/
def runFor : Nat → Trace → Trace
  | 0, t => t
  | n + 1, t =>
    match t.next with
    | (t', true) => runFor n t'
    | (t', false) => t'

/-- Moves the cursor forward until it does not move. -/
def run (t : Trace) : Trace :=
  t.runFor (t.remaining + 1)

end Trace

end SecdMachine
