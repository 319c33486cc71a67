import SecdMachine.Numeral
import SecdMachine.Text.Quoted

/-!
# SecdMachine.Fault

Everything that can go wrong, as a cause.  The faults of loading are raised
before any step is taken, `budgetExceeded` when a run has used up its steps,
and the rest by the machine.

Each fault has an identifier, a one-line message and an explanation.  Names
and texts inside a message stand in single quotes.
-/

namespace SecdMachine

/-- What went wrong. -/
inductive Fault where
  /-- A label is defined a second time; the first time was at `line`. -/
  | labelRedefined (name : String) (line : Int)
  /-- No label is named `main`. -/
  | mainMissing
  /-- A label is not an identifier and a colon. -/
  | labelMalformed (text : String)
  /-- An operation names a label that is not defined. -/
  | labelUndefined (name : String)
  /-- A statement holds a character that is neither a tab nor graphic. -/
  | illegalCharacter (c : Char)
  /-- An argument of `access` is no position. -/
  | accessArgument (text : String)
  /-- An opcode has a wrong number of arguments. -/
  | argumentCount (opcode expected : String) (given : Int)
  /-- An argument of `const` is no literal. -/
  | constArgument (text : String)
  /-- An argument of `focus` is no position. -/
  | focusArgument (text : String)
  /-- A statement begins with no opcode. -/
  | opcodeUnknown (name : String)
  /-- Loading gave up after `count` faults. -/
  | tooManyFaults (count : Int)
  /-- A run did not end within its budget. -/
  | budgetExceeded (budget : Int)
  /-- The environment has no value at an index. -/
  | accessRange (index size : Int)
  /-- The value below the argument of `apply` is no closure. -/
  | applyType (got : String)
  /-- The value below the argument of `applyn` is no focused function. -/
  | applynType (got : String)
  /-- An operand of arithmetic is no integer. -/
  | arithmeticType (opcode left right : String)
  /-- The condition of a branch is no boolean. -/
  | branchType (got : String)
  /-- An operand of `eq` is neither an integer nor a boolean. -/
  | equalityType (left right : String)
  /-- A frame has no function at an index. -/
  | focusRange (index size : Int)
  /-- The operand of `focus` is no frame. -/
  | focusType (got : String)
  /-- The machine has halted. -/
  | alreadyHalted
  /-- The machine does not know an operation. -/
  | operationUnknown (name : String)
  /-- A result of arithmetic is no machine integer. -/
  | overflow (opcode : String)
  /-- The program counter is outside the program. -/
  | outsideProgram (location : Nat)
  /-- What stands below the result of a return is no call. -/
  | returnType (address env : String)
  /-- The stack holds fewer values than an operation takes. -/
  | underflow (opcode : String) (needed held : Int)
deriving DecidableEq, Repr

namespace Fault

/-- A text in single quotes. -/
def emph (s : String) : String :=
  "'" ++ s ++ "'"

/-- A number in single quotes. -/
def emphNumber (n : Int) : String :=
  emph (Numeral.decimal n)

/-- The identifier of a fault: the stage that raises it and the cause. -/
def id : Fault → String
  | .labelRedefined _ _ => "label/dup"
  | .mainMissing => "label/main"
  | .labelMalformed _ => "label/name"
  | .labelUndefined _ => "label/undef"
  | .illegalCharacter _ => "lex/char"
  | .accessArgument _ => "parse/access"
  | .argumentCount _ _ _ => "parse/args"
  | .constArgument _ => "parse/const"
  | .focusArgument _ => "parse/focus"
  | .opcodeUnknown _ => "parse/opcode"
  | .tooManyFaults _ => "parse/threshold"
  | .budgetExceeded _ => "trace/budget"
  | .accessRange _ _ => "vm/access"
  | .applyType _ => "vm/apply/type"
  | .applynType _ => "vm/applyn/type"
  | .arithmeticType _ _ _ => "vm/arith/type"
  | .branchType _ => "vm/brfl/type"
  | .equalityType _ _ => "vm/eq/type"
  | .focusRange _ _ => "vm/focus/range"
  | .focusType _ => "vm/focus/type"
  | .alreadyHalted => "vm/halted"
  | .operationUnknown _ => "vm/opcode"
  | .overflow _ => "vm/overflow"
  | .outsideProgram _ => "vm/pc"
  | .returnType _ _ => "vm/return/type"
  | .underflow _ _ _ => "vm/underflow"

/-- The message of a fault. -/
def message : Fault → String
  | .labelRedefined name _ => "redefining label " ++ emph name
  | .mainMissing => "no " ++ emph "main" ++ " label"
  | .labelMalformed text => "malformed label " ++ emph text
  | .labelUndefined name => "no such label " ++ emph name
  | .illegalCharacter c => "invalid character " ++ Text.quoteChar c
  | .accessArgument text =>
    "argument of " ++ emph "access" ++ " should be " ++ emph "$" ++
      " followed by a positive integer, not " ++ emph text
  | .argumentCount opcode expected given =>
    emph opcode ++ " takes " ++ expected ++ ", not " ++ emphNumber given
  | .constArgument text => "can't parse " ++ emph text ++ " as an integer or boolean literal"
  | .focusArgument text =>
    "argument of " ++ emph "focus" ++ " should be a positive integer, not " ++ emph text
  | .opcodeUnknown name => "unknown opcode " ++ emph name
  | .tooManyFaults count => "too many errors, giving up after " ++ emphNumber count
  | .budgetExceeded budget => "step budget of " ++ emphNumber budget ++ " steps exceeded"
  | .accessRange index size =>
    "environment index out of range: " ++ emph ("access $" ++ Numeral.decimal index) ++
      " but the environment holds " ++ emphNumber size ++ " values"
  | .applyType got => emph "apply" ++ " expects a closure below its argument, got " ++ emph got
  | .applynType got =>
    emph "applyn" ++ " expects a focused function below its argument, got " ++ emph got
  | .arithmeticType opcode left right =>
    emph opcode ++ " expects two ints, got " ++ emph left ++ " and " ++ emph right
  | .branchType got => emph "brfl" ++ " expects a bool, got " ++ emph got
  | .equalityType left right =>
    emph "eq" ++ " can't compare " ++ emph left ++ " with " ++ emph right
  | .focusRange index size =>
    emph ("focus " ++ Numeral.decimal index) ++ " selects past the end of a frame of " ++
      emphNumber size ++ " functions"
  | .focusType got => emph "focus" ++ " expects a recursive frame, got " ++ emph got
  | .alreadyHalted => "the machine has halted and can't be stepped"
  | .operationUnknown name => "unknown opcode " ++ emph name
  | .overflow opcode => "integer overflow in " ++ emph opcode
  | .outsideProgram location =>
    "program counter " ++ emph ("@" ++ Numeral.natural location) ++ " is outside the program"
  | .returnType address env =>
    emph "return" ++ " expects a return address and a saved environment below its result, got " ++
      emph address ++ " and " ++ emph env
  | .underflow opcode needed held =>
    "stack underflow: " ++ emph opcode ++ " needs " ++ emphNumber needed ++
      " values but the stack holds " ++ emphNumber held

/-- The explanation of a fault that arose at the statement with the given
text. -/
def explanation (instruction : String) : Fault → String
  | .labelRedefined name line =>
    "The label " ++ emph name ++ " was already defined at line " ++ emphNumber line ++
      ". Each label names exactly one place in the program, so it can only be defined once."
  | .mainMissing =>
    "Execution starts at the label " ++ emph "main" ++
      ", so a program without one can't be run."
  | .labelMalformed _ =>
    "A label is a single identifier immediately followed by a colon, e.g. " ++ emph "main:" ++ "."
  | .labelUndefined name =>
    "The instruction " ++ emph instruction ++ " refers to the label " ++ emph name ++
      ", which isn't defined anywhere in the program."
  | .illegalCharacter _ => "Programs may only contain printable characters, tabs and newlines."
  | .accessArgument _ =>
    "The argument of " ++ emph "access" ++ " says how far down the environment to look: " ++
      emph "$1" ++ " is the most recently bound value, " ++ emph "$2" ++
      " the one before it, and so on."
  | .argumentCount _ _ _ =>
    "Each opcode takes a fixed number of arguments, except " ++ emph "closures" ++
      " which takes one label for each function in the group."
  | .constArgument _ =>
    "The argument of " ++ emph "const" ++ " should be an integer such as " ++ emph "42" ++ ", " ++
      emph "-7" ++ " or " ++ emph "0x2A" ++ ", or one of " ++ emph "True" ++ " and " ++
      emph "False" ++ "."
  | .focusArgument _ =>
    "The argument of " ++ emph "focus" ++ " selects one function of a group defined by " ++
      emph "closures" ++ ", counting from 1."
  | .opcodeUnknown _ =>
    "The opcodes are const, access, closure, closures, focus, apply, applyn, return, " ++
      "add, sub, mul, eq, brfl, br and halt."
  | .tooManyFaults _ => "Fix the errors shown and try again."
  | .budgetExceeded _ =>
    "The program didn't halt within the permitted number of steps. Either it doesn't " ++
      "terminate or it needs a larger budget, which can be set with " ++ emph "-max" ++
      " or with " ++ emph "max_steps" ++ " in the configuration file."
  | .accessRange _ _ =>
    emph "access $n" ++ " reads the nth most recently bound value, so the environment must " ++
      "hold at least n values."
  | .applyType _ =>
    "Functions made by " ++ emph "closures" ++ " and selected by " ++ emph "focus" ++
      " must be called with " ++ emph "applyn" ++ "; " ++ emph "apply" ++
      " is for closures made by " ++ emph "closure" ++ "."
  | .applynType _ =>
    emph "applyn" ++ " calls a function selected from a recursive frame with " ++ emph "focus" ++
      "."
  | .arithmeticType _ _ _ => "Arithmetic is only defined on integers."
  | .branchType _ =>
    emph "brfl" ++ " branches if the top of the stack is false, so it must be a boolean, " ++
      "such as the result of " ++ emph "eq" ++ "."
  | .equalityType _ _ =>
    emph "eq" ++ " compares ints and bools. Values of different types are never equal, and " ++
      "functions and machine bookkeeping can't be compared at all."
  | .focusRange _ _ =>
    "A frame made by " ++ emph "closures" ++ " holds one function per label, counting from 1."
  | .focusType _ =>
    "Recursive frames are made by " ++ emph "closures" ++ " and are usually fetched with " ++
      emph "access" ++ " just before " ++ emph "focus" ++ "."
  | .alreadyHalted => "A halted machine has no next state."
  | .operationUnknown _ =>
    "The step engine was handed an operation it doesn't know how to execute."
  | .overflow _ => "The result of the arithmetic doesn't fit in a machine integer."
  | .outsideProgram _ =>
    "Control ran off the end of the program. Every path should finish with " ++ emph "halt" ++
      " or " ++ emph "return" ++ "."
  | .returnType _ _ =>
    "Calls push the caller's environment and return address onto the stack. A function must " ++
      "leave exactly one result above them before it returns."
  | .underflow _ _ _ =>
    "Each opcode consumes a fixed number of values from the top of the stack."

end Fault

end SecdMachine
