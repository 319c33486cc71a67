import SecdMachine.Json
import SecdMachine.Value.Document

/-!
# SecdMachine.State

A state of the machine: the program counter, the stack, the environment, and
the result once the machine has halted.  A halted state keeps the contents
of the state that halted.
-/

namespace SecdMachine

/-- A state of the machine.  The stack and the environment have the most
recent value first. -/
structure State where
  pc : Nat
  stack : List Value := []
  env : List Value := []
  /-- The value that the machine halted with. -/
  result : Option Value := none
deriving DecidableEq, Repr, Inhabited

namespace State

/-- Whether the machine has halted. -/
def isHalted (s : State) : Bool :=
  s.result.isSome

/-- The document of a state, with its fields in the order of their names. -/
def document (s : State) : Json :=
  match s.result with
  | none =>
    .object [("env", Value.listDocument s.env), ("pc", .number s.pc),
      ("stack", Value.listDocument s.stack)]
  | some v =>
    .object [("env", Value.listDocument s.env), ("halted", .bool true), ("pc", .number s.pc),
      ("result", v.document), ("stack", Value.listDocument s.stack)]

end State

end SecdMachine
