import SecdMachine.Program
import SecdMachine.Report
import SecdMachine.State

/-!
# SecdMachine.Step

The step of the machine.

A call takes its argument and the function below it off the stack, leaves the
caller's environment and the return address in their place, and runs the
function in its own environment extended by the argument.  A function of a
frame also finds the frame itself, below its argument, and through it its
siblings.  A return needs exactly its result above what the call left.

A step stops with a fault, which is reported, or gets stuck on an operation
or value that is malformed: a constant that the program does not have, or a
focused function that its frame does not have.
-/

namespace SecdMachine

/-- Why the machine makes no step. -/
inductive Stop where
  | fault (f : Fault)
  | stuck
deriving DecidableEq, Repr

namespace State

/-- The state after an operation that does not jump. -/
def advance (s : State) (stack env : List Value) : State where
  pc := s.pc + 1
  stack := stack
  env := env

/-- What a call leaves on the stack for its return, above the rest of the
caller's stack. -/
def callFrame (s : State) (rest : List Value) : List Value :=
  .returnAddress (s.pc + 1) :: .savedEnv s.env :: rest

/-- The fault of an operation that finds too few values on the stack. -/
def underflow (s : State) (op : Operation) : Stop :=
  .fault (.underflow op.mnemonic op.arity s.stack.length)

end State

/-- The entry point of a frame with an index, counting from 1. -/
def entryAt? (entries : List Nat) (index : Int) : Option Nat :=
  if index < 1 then none else entries[(index - 1).toNat]?

namespace Operation

/-- Executes an operation on a state, with the given constants. -/
def execute (constants : List Value) (s : State) (op : Operation) : Except Stop State :=
  match op with
  | .label => .ok (s.advance s.stack s.env)
  | .const index =>
    match constants[index]? with
    | some v => .ok (s.advance (v :: s.stack) s.env)
    | none => .error .stuck
  | .access position =>
    match Value.fromTop? s.env position with
    | some v => .ok (s.advance (v :: s.stack) s.env)
    | none => .error (.fault (.accessRange position s.env.length))
  | .closure entry => .ok (s.advance (.closure entry s.env :: s.stack) s.env)
  | .closures entries => .ok (s.advance s.stack (.frame entries s.env :: s.env))
  | .focus index =>
    match s.stack with
    | .frame entries env :: rest =>
      if entries.length < index then .error (.fault (.focusRange index entries.length))
      else .ok (s.advance (.focused index entries env :: rest) s.env)
    | v :: _ => .error (.fault (.focusType v.typeName))
    | _ => .error (s.underflow op)
  | .apply =>
    match s.stack with
    | arg :: .closure entry env :: rest =>
      .ok { pc := entry, stack := s.callFrame rest, env := arg :: env }
    | _ :: fn :: _ => .error (.fault (.applyType fn.typeName))
    | _ => .error (s.underflow op)
  | .applyn =>
    match s.stack with
    | arg :: .focused index entries env :: rest =>
      match entryAt? entries index with
      | some entry =>
        .ok { pc := entry, stack := s.callFrame rest, env := arg :: .frame entries env :: env }
      | none => .error .stuck
    | _ :: fn :: _ => .error (.fault (.applynType fn.typeName))
    | _ => .error (s.underflow op)
  | .ret =>
    match s.stack with
    | v :: .returnAddress location :: .savedEnv env :: rest =>
      .ok { pc := location, stack := v :: rest, env := env }
    | _ :: address :: saved :: _ =>
      .error (.fault (.returnType address.typeName saved.typeName))
    | _ => .error (s.underflow op)
  | .arith f =>
    match s.stack with
    | .int r :: .int l :: rest =>
      if Numeral.fits (f.eval l r) then .ok (s.advance (.int (f.eval l r) :: rest) s.env)
      else .error (.fault (.overflow op.mnemonic))
    | r :: l :: _ => .error (.fault (.arithmeticType op.mnemonic l.typeName r.typeName))
    | _ => .error (s.underflow op)
  | .eq =>
    match s.stack with
    | r :: l :: rest =>
      if l.isScalar && r.isScalar then .ok (s.advance (.bool (l = r) :: rest) s.env)
      else .error (.fault (.equalityType l.typeName r.typeName))
    | _ => .error (s.underflow op)
  | .brfl target =>
    match s.stack with
    | .bool true :: rest => .ok (s.advance rest s.env)
    | .bool false :: rest => .ok { pc := target, stack := rest, env := s.env }
    | v :: _ => .error (.fault (.branchType v.typeName))
    | _ => .error (s.underflow op)
  | .br target => .ok { pc := target, stack := s.stack, env := s.env }
  | .halt =>
    match s.stack with
    | v :: _ => .ok { s with result := some v }
    | _ => .error (s.underflow op)
  | .unknown _ => .error (.fault (.operationUnknown op.mnemonic))

end Operation

namespace Program

/-- The state that a run starts from: at the main label, with nothing on the
stack or in the environment. -/
def initial (p : Program) : State where
  pc := p.main

/-- The successor of a state.  A halted state has none, nor has one whose
program counter is outside the program. -/
def step (p : Program) (s : State) : Except Stop State :=
  if s.isHalted then .error (.fault .alreadyHalted)
  else
    match p.code[s.pc]? with
    | none => .error (.fault (.outsideProgram s.pc))
    | some op => op.execute p.constants s

/-- The report of a fault of the machine in a state. -/
def report (p : Program) (s : State) (f : Fault) : Report where
  fault := f
  statement := some (p.statementAt s.pc)
  stack := some s.stack
  env := some s.env

end Program

end SecdMachine
