import SecdMachine.Fault

/-!
# SecdMachine.Fault.Arguments

Faults as an identifier with a list of arguments, the form in which they are
named from outside.  An argument is a text, an integer, a location or a
character; where a message quotes an argument as a text, any kind will do
and is written plainly.

Main statement: the identifier and the arguments of a fault give the fault
back (`ofArguments?_arguments`).
-/

namespace SecdMachine

/-- An argument of a fault.  A character is given by its code point, and a
number that is no code point stands for the replacement character. -/
inductive Fault.Argument where
  | text (s : String)
  | integer (n : Int)
  | location (n : Nat)
  | character (code : Int)
deriving DecidableEq, Repr

namespace Fault

/-- The character with a code point, or the replacement character if there is
none. -/
def charOfCode (code : Int) : Char :=
  if h : 0 ≤ code ∧ code.toNat.isValidChar then ⟨code.toNat.toUInt32, by
    have := h.2
    rcases this with h | ⟨h₁, h₂⟩
    · left; simp; omega
    · right; simp; omega⟩
  else '\uFFFD'

namespace Argument

/-- An argument written plainly. -/
def plain : Argument → String
  | .text s => s
  | .integer n => Numeral.decimal n
  | .location n => Numeral.natural n
  | .character code => Numeral.decimal code

end Argument

/-- The arguments of a fault. -/
def arguments : Fault → List Argument
  | .labelRedefined name line => [.text name, .integer line]
  | .mainMissing => []
  | .labelMalformed text => [.text text]
  | .labelUndefined name => [.text name]
  | .illegalCharacter c => [.character c.toNat]
  | .accessArgument text => [.text text]
  | .argumentCount opcode expected given => [.text opcode, .text expected, .integer given]
  | .constArgument text => [.text text]
  | .focusArgument text => [.text text]
  | .opcodeUnknown name => [.text name]
  | .tooManyFaults count => [.integer count]
  | .budgetExceeded budget => [.integer budget]
  | .accessRange index size => [.integer index, .integer size]
  | .applyType got => [.text got]
  | .applynType got => [.text got]
  | .arithmeticType opcode left right => [.text opcode, .text left, .text right]
  | .branchType got => [.text got]
  | .equalityType left right => [.text left, .text right]
  | .focusRange index size => [.integer index, .integer size]
  | .focusType got => [.text got]
  | .alreadyHalted => []
  | .operationUnknown name => [.text name]
  | .overflow opcode => [.text opcode]
  | .outsideProgram location => [.location location]
  | .returnType address env => [.text address, .text env]
  | .underflow opcode needed held => [.text opcode, .integer needed, .integer held]

/-- The identifiers of all faults, in alphabetical order. -/
def ids : List String :=
  ["label/dup", "label/main", "label/name", "label/undef", "lex/char", "parse/access",
    "parse/args", "parse/const", "parse/focus", "parse/opcode", "parse/threshold",
    "trace/budget", "vm/access", "vm/apply/type", "vm/applyn/type", "vm/arith/type",
    "vm/brfl/type", "vm/eq/type", "vm/focus/range", "vm/focus/type", "vm/halted", "vm/opcode",
    "vm/overflow", "vm/pc", "vm/return/type", "vm/underflow"]

/-! ## Reading arguments -/

/-- A fault of one text. -/
def ofText (f : String → Fault) : List Argument → Option Fault
  | a :: _ => some (f a.plain)
  | _ => none

/-- A fault of two texts. -/
def ofTexts (f : String → String → Fault) : List Argument → Option Fault
  | a :: b :: _ => some (f a.plain b.plain)
  | _ => none

/-- A fault of one integer. -/
def ofInteger (f : Int → Fault) : List Argument → Option Fault
  | .integer m :: _ => some (f m)
  | _ => none

/-- A fault of two integers. -/
def ofIntegers (f : Int → Int → Fault) : List Argument → Option Fault
  | .integer m :: .integer n :: _ => some (f m n)
  | _ => none

/-- The fault of an illegal character, which any number may name. -/
def ofCharacter : List Argument → Option Fault
  | .character code :: _ => some (.illegalCharacter (charOfCode code))
  | .integer code :: _ => some (.illegalCharacter (charOfCode code))
  | .location code :: _ => some (.illegalCharacter (charOfCode code))
  | _ => none

/-- The fault of a label that was defined before. -/
def ofRedefinition : List Argument → Option Fault
  | a :: .integer line :: _ => some (.labelRedefined a.plain line)
  | _ => none

/-- The fault of a wrong number of arguments. -/
def ofArgumentCount : List Argument → Option Fault
  | a :: .text expected :: .integer given :: _ => some (.argumentCount a.plain expected given)
  | _ => none

/-- The fault of operands that are no integers. -/
def ofArithmetic : List Argument → Option Fault
  | a :: b :: c :: _ => some (.arithmeticType a.plain b.plain c.plain)
  | _ => none

/-- The fault of a program counter outside the program. -/
def ofLocation : List Argument → Option Fault
  | .location location :: _ => some (.outsideProgram location)
  | _ => none

/-- The fault of a stack with too few values. -/
def ofUnderflow : List Argument → Option Fault
  | a :: .integer needed :: .integer held :: _ => some (.underflow a.plain needed held)
  | _ => none

/-- The fault with an identifier and arguments.  There is none if the
identifier is not known, if arguments are missing, or if one that is a number
or a word of the message is of another kind; further arguments are ignored. -/
def ofArguments? (id : String) (args : List Argument) : Option Fault :=
  match id with
  | "label/dup" => ofRedefinition args
  | "label/main" => some .mainMissing
  | "label/name" => ofText .labelMalformed args
  | "label/undef" => ofText .labelUndefined args
  | "lex/char" => ofCharacter args
  | "parse/access" => ofText .accessArgument args
  | "parse/args" => ofArgumentCount args
  | "parse/const" => ofText .constArgument args
  | "parse/focus" => ofText .focusArgument args
  | "parse/opcode" => ofText .opcodeUnknown args
  | "parse/threshold" => ofInteger .tooManyFaults args
  | "trace/budget" => ofInteger .budgetExceeded args
  | "vm/access" => ofIntegers .accessRange args
  | "vm/apply/type" => ofText .applyType args
  | "vm/applyn/type" => ofText .applynType args
  | "vm/arith/type" => ofArithmetic args
  | "vm/brfl/type" => ofText .branchType args
  | "vm/eq/type" => ofTexts .equalityType args
  | "vm/focus/range" => ofIntegers .focusRange args
  | "vm/focus/type" => ofText .focusType args
  | "vm/halted" => some .alreadyHalted
  | "vm/opcode" => ofText .operationUnknown args
  | "vm/overflow" => ofText .overflow args
  | "vm/pc" => ofLocation args
  | "vm/return/type" => ofTexts .returnType args
  | "vm/underflow" => ofUnderflow args
  | _ => none

theorem charOfCode_toNat (c : Char) : charOfCode c.toNat = c := by
  have hv : c.toNat.isValidChar := c.valid
  simp only [charOfCode, Int.toNat_natCast, Int.natCast_nonneg, hv, and_self, dite_true]
  apply Char.ext
  exact UInt32.ofNat_toNat

/-- A fault is determined by its identifier and its arguments. -/
theorem ofArguments?_arguments (f : Fault) : ofArguments? f.id f.arguments = some f := by
  cases f
  case illegalCharacter c => exact congrArg (some ∘ Fault.illegalCharacter) (charOfCode_toNat c)
  all_goals rfl

end Fault

end SecdMachine
