import SecdMachine.Numeral
import SecdMachine.Text.Quoted

/-!
# SecdMachine.CommandLine.Flags

The flags of the command line.

1. A flag starts with one dash or two.  Its value follows an equals sign, or
   is the next argument; the value of a switch only follows an equals sign,
   and a switch without one is on.
2. Reading stops at the first argument that is no flag, which includes a
   single dash, or after a double dash.
3. Of a flag that is given several times the last one counts.
-/

namespace SecdMachine.CommandLine

/-- The flags that were given, and the arguments after them. -/
structure Flags where
  interactive : Option Bool := none
  maxSteps : Option Int := none
  config : String := ""
  exampleName : String := ""
  list : Bool := false
  dump : String := ""
  mono : Option Bool := none
  arguments : List String := []
deriving DecidableEq, Repr

/-- Why the flags cannot be read. -/
inductive Flags.Error where
  /-- The help was asked for. -/
  | help
  /-- An argument is no flag although it starts like one. -/
  | badSyntax (argument : String)
  /-- There is no flag of a name. -/
  | undefined (name : String)
  /-- The value of a flag is missing. -/
  | missingValue (name : String)
  /-- The value of a switch is no boolean. -/
  | badSwitch (name value : String)
  /-- The value of a flag is no integer. -/
  | badInteger (name value : String) (cause : Numeral.Error)
deriving DecidableEq, Repr

namespace Flags

/-! ## Messages -/

/-- How a cause is named in a message. -/
def causeText : Numeral.Error → String
  | .malformed => "parse error"
  | .outOfRange => "value out of range"

/-- The line that says what is wrong with the flags. -/
def Error.message : Error → String
  | .help => ""
  | .badSyntax argument => "bad flag syntax: " ++ argument ++ "\n"
  | .undefined name => "flag provided but not defined: -" ++ name ++ "\n"
  | .missingValue name => "flag needs an argument: -" ++ name ++ "\n"
  | .badSwitch name value =>
    "invalid boolean value " ++ Text.quoteString value ++ " for -" ++ name ++ ": parse error\n"
  | .badInteger name value cause =>
    "invalid value " ++ Text.quoteString value ++ " for flag -" ++ name ++ ": " ++
      causeText cause ++ "\n"

/-- What the program is for and how it is called. -/
def help : String :=
  "\nUsage: secd [-i] [-max n] [-config file] [-dump file] [-mono]\n" ++
    "            [-example name | -list | <file>]\n\n" ++
    "With no file and no example, the built-in example 'add' is run.\n\n"

/-- The help with a list of the flags. -/
def usage : String :=
  help ++
    "  -config string\n    \ta YAML configuration file\n" ++
    "  -dump string\n    \twrite the trace to this file as JSON\n" ++
    "  -example string\n    \trun the named built-in example\n" ++
    "  -i\tinteractive mode\n" ++
    "  -list\n    \tlist the built-in examples\n" ++
    "  -max int\n    \tthe step budget (default 1000)\n" ++
    "  -mono\n    \tdon't use colour\n"

/-! ## Names -/

/-- The switches. -/
inductive Switch where
  | interactive
  | list
  | mono
deriving DecidableEq, Repr

/-- The switch with a name. -/
def Switch.ofName? (name : String) : Option Switch :=
  match name with
  | "i" => some .interactive
  | "list" => some .list
  | "mono" => some .mono
  | _ => none

/-- The flags that take a value. -/
inductive Parameter where
  | config
  | dump
  | exampleName
  | maxSteps
deriving DecidableEq, Repr

/-- The flag with a value that has a name. -/
def Parameter.ofName? (name : String) : Option Parameter :=
  match name with
  | "config" => some .config
  | "dump" => some .dump
  | "example" => some .exampleName
  | "max" => some .maxSteps
  | _ => none

/-! ## Setting flags -/

/-- Reads the value of a switch. -/
def readSwitch? (value : String) : Option Bool :=
  if value ∈ ["1", "t", "T", "true", "TRUE", "True"] then some true
  else if value ∈ ["0", "f", "F", "false", "FALSE", "False"] then some false
  else none

/-- The flags with a switch on or off. -/
def setSwitch (f : Flags) (b : Bool) : Switch → Flags
  | .interactive => { f with interactive := some b }
  | .list => { f with list := b }
  | .mono => { f with mono := some b }

/-- The flags with a switch as its value says; a missing value turns it on. -/
def withSwitch (f : Flags) (name : String) (switch : Switch) (value? : Option String) :
    Except Error Flags :=
  match value? with
  | none => .ok (f.setSwitch true switch)
  | some value =>
    match readSwitch? value with
    | some b => .ok (f.setSwitch b switch)
    | none => .error (.badSwitch name value)

/-- The flags with the value of a parameter. -/
def withParameter (f : Flags) (name value : String) : Parameter → Except Error Flags
  | .config => .ok { f with config := value }
  | .dump => .ok { f with dump := value }
  | .exampleName => .ok { f with exampleName := value }
  | .maxSteps =>
    match Numeral.readInteger value.toList with
    | .ok n => .ok { f with maxSteps := some n }
    | .error cause => .error (.badInteger name value cause)

/-! ## Reading -/

/-- What an argument is by its looks. -/
inductive Shape where
  /-- It is no flag. -/
  | argument
  /-- It ends the flags. -/
  | terminator
  /-- It is a flag, with or without a value. -/
  | flag (name : String) (value? : Option String)
  /-- It starts like a flag but is none. -/
  | malformed
deriving DecidableEq, Repr

/-- The shape of an argument that starts with dashes, by what follows them. -/
def shapeOfName (cs : List Char) : Shape :=
  match cs with
  | [] | '-' :: _ | '=' :: _ => .malformed
  | cs =>
    .flag (String.ofList (cs.takeWhile (· != '=')))
      (match cs.dropWhile (· != '=') with
        | _ :: value => some (String.ofList value)
        | [] => none)

/-- The shape of an argument. -/
def shapeOf (argument : String) : Shape :=
  match argument.toList with
  | ['-', '-'] => .terminator
  | '-' :: '-' :: cs => shapeOfName cs
  | '-' :: c :: cs => shapeOfName (c :: cs)
  | _ => .argument

/-- Reads flags after those that are given as `f`. -/
def readFrom (f : Flags) : List String → Except Error Flags
  | [] => .ok f
  | a :: rest =>
    match shapeOf a with
    | .argument => .ok { f with arguments := a :: rest }
    | .terminator => .ok { f with arguments := rest }
    | .malformed => .error (.badSyntax a)
    | .flag name value? =>
      match Switch.ofName? name, Parameter.ofName? name with
      | some switch, _ =>
        match f.withSwitch name switch value? with
        | .ok f' => readFrom f' rest
        | .error e => .error e
      | none, some parameter =>
        match value?, rest with
        | some value, rest =>
          match f.withParameter name value parameter with
          | .ok f' => readFrom f' rest
          | .error e => .error e
        | none, value :: rest =>
          match f.withParameter name value parameter with
          | .ok f' => readFrom f' rest
          | .error e => .error e
        | none, [] => .error (.missingValue name)
      | none, none =>
        if name = "help" ∨ name = "h" then .error .help else .error (.undefined name)

/-- Reads the flags of a command line. -/
def read (arguments : List String) : Except Error Flags :=
  readFrom {} arguments

end Flags

end SecdMachine.CommandLine
