import SecdMachine.Value.Printer

/-!
# SecdMachine.Operation

The opcodes of the assembly language and the operations of the machine.

An opcode is what a statement names: it has a mnemonic, the shape of its
arguments, and the number of values that it takes from the stack.  An
operation is an opcode with its arguments worked out: labels are locations,
and literals are indices into the constants of the program.  Besides these
there is the operation of a label line, which does nothing, and operations
of codes that the machine does not know.
-/

namespace SecdMachine

/-! ## Opcodes -/

/-- The three operations of integer arithmetic. -/
inductive Arithmetic where
  | add
  | sub
  | mul
deriving DecidableEq, Repr

/-- The mathematical result of arithmetic. -/
def Arithmetic.eval : Arithmetic → Int → Int → Int
  | .add, l, r => l + r
  | .sub, l, r => l - r
  | .mul, l, r => l * r

/-- The opcodes of the assembly language. -/
inductive Opcode where
  | const
  | access
  | closure
  | closures
  | focus
  | apply
  | applyn
  | ret
  | arith (f : Arithmetic)
  | eq
  | brfl
  | br
  | halt
deriving DecidableEq, Repr

/-- What an opcode takes as its arguments. -/
inductive Opcode.Shape where
  /-- No arguments. -/
  | none
  /-- One literal. -/
  | literal
  /-- One position in the environment, after a dollar sign. -/
  | position
  /-- One positive number. -/
  | index
  /-- One label. -/
  | label
  /-- One or more labels. -/
  | labels
deriving DecidableEq, Repr

namespace Opcode

/-- All opcodes. -/
def all : List Opcode :=
  [.const, .access, .closure, .closures, .focus, .apply, .applyn, .ret, .arith .add, .arith .sub,
    .arith .mul, .eq, .brfl, .br, .halt]

/-- How an opcode is written. -/
def mnemonic : Opcode → String
  | .const => "const"
  | .access => "access"
  | .closure => "closure"
  | .closures => "closures"
  | .focus => "focus"
  | .apply => "apply"
  | .applyn => "applyn"
  | .ret => "return"
  | .arith .add => "add"
  | .arith .sub => "sub"
  | .arith .mul => "mul"
  | .eq => "eq"
  | .brfl => "brfl"
  | .br => "br"
  | .halt => "halt"

/-- The opcode that is written as `name`. -/
def ofMnemonic? (name : String) : Option Opcode :=
  all.find? (·.mnemonic = name)

/-- The shape of an opcode's arguments. -/
def shape : Opcode → Shape
  | .const => .literal
  | .access => .position
  | .focus => .index
  | .closure | .brfl | .br => .label
  | .closures => .labels
  | .apply | .applyn | .ret | .arith _ | .eq | .halt => .none

/-- How many values an opcode takes from the stack. -/
def arity : Opcode → Nat
  | .const | .access | .closure | .closures | .br => 0
  | .focus | .brfl | .halt => 1
  | .apply | .applyn | .arith _ | .eq => 2
  | .ret => 3

theorem mem_all (o : Opcode) : o ∈ all := by
  cases o <;> simp [all]
  case arith f => cases f <;> simp

theorem ofMnemonic?_mnemonic (o : Opcode) : ofMnemonic? o.mnemonic = some o := by
  cases o <;> try rfl
  case arith f => cases f <;> rfl

theorem mnemonic_of_ofMnemonic? {name : String} {o : Opcode} (h : ofMnemonic? name = some o) :
    o.mnemonic = name := by
  simpa using List.find?_some h

end Opcode

/-! ## Operations -/

/-- An operation of the machine. -/
inductive Operation where
  /-- Does nothing; it marks the place of a label. -/
  | label
  /-- Pushes the constant with an index. -/
  | const (index : Nat)
  /-- Pushes the value at a position of the environment, counting from 1. -/
  | access (position : Nat)
  /-- Pushes a closure of an entry point. -/
  | closure (entry : Nat)
  /-- Binds a frame of entry points. -/
  | closures (entries : List Nat)
  /-- Selects a function of the frame on the stack, counting from 1. -/
  | focus (index : Nat)
  /-- Calls a closure. -/
  | apply
  /-- Calls a focused function. -/
  | applyn
  /-- Returns from a call. -/
  | ret
  /-- Replaces two integers by the result of arithmetic. -/
  | arith (f : Arithmetic)
  /-- Replaces two scalars by whether they are equal. -/
  | eq
  /-- Jumps if the top of the stack is false. -/
  | brfl (target : Nat)
  /-- Jumps. -/
  | br (target : Nat)
  /-- Halts with the top of the stack. -/
  | halt
  /-- An operation that the machine does not know. -/
  | unknown (code : Nat)
deriving DecidableEq, Repr, Inhabited

namespace Operation

/-- The opcode of an operation, which a label and an unknown operation do not
have. -/
def opcode? : Operation → Option Opcode
  | .label => none
  | .const _ => some .const
  | .access _ => some .access
  | .closure _ => some .closure
  | .closures _ => some .closures
  | .focus _ => some .focus
  | .apply => some .apply
  | .applyn => some .applyn
  | .ret => some .ret
  | .arith f => some (.arith f)
  | .eq => some .eq
  | .brfl _ => some .brfl
  | .br _ => some .br
  | .halt => some .halt
  | .unknown _ => none

/-- The name of an operation. -/
def mnemonic : Operation → String
  | .label => "label"
  | .unknown code => "op" ++ Numeral.natural code
  | op => (op.opcode?.map Opcode.mnemonic).getD ""

/-- How many values an operation takes from the stack. -/
def arity (op : Operation) : Nat :=
  (op.opcode?.map Opcode.arity).getD 0

/-- The arguments of an operation: locations, positions, or the index of a
constant. -/
def arguments : Operation → List Nat
  | .const n | .access n | .closure n | .focus n | .brfl n | .br n => [n]
  | .closures ns => ns
  | _ => []

/-- The operation with a numeric code and arguments, of which no more are read
than it takes.  There is none if the code takes an argument and has none. -/
def ofCode? (code : Nat) (args : List Nat) : Option Operation :=
  match code with
  | 0 => some .label
  | 1 => args.head?.map .const
  | 2 => args.head?.map .access
  | 3 => args.head?.map .closure
  | 4 => some (.closures args)
  | 5 => args.head?.map .focus
  | 6 => some .apply
  | 7 => some .applyn
  | 8 => some .ret
  | 9 => some (.arith .add)
  | 10 => some (.arith .sub)
  | 11 => some (.arith .mul)
  | 12 => some .eq
  | 13 => args.head?.map .brfl
  | 14 => args.head?.map .br
  | 15 => some .halt
  | _ => some (.unknown code)

/-- An operation as code listings show it. -/
def describe : Operation → String
  | .label => "labl"
  | .const index => "cnst c" ++ Numeral.natural index
  | .access position => "accs $" ++ Numeral.natural position
  | .closure entry => "clos " ++ describeLocation entry
  | .closures entries => "clss" ++ Text.concat (entries.map (" " ++ describeLocation ·))
  | .focus index => "focs " ++ Numeral.natural index
  | .apply => "appl"
  | .applyn => "apln"
  | .ret => "retn"
  | .arith .add => "addi"
  | .arith .sub => "subi"
  | .arith .mul => "muli"
  | .eq => "equi"
  | .brfl target => "brfl " ++ describeLocation target
  | .br target => "jmp " ++ describeLocation target
  | .halt => "halt"
  | .unknown _ => "indescribable thing"

end Operation

end SecdMachine
