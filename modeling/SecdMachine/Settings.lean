import SecdMachine.Numeral
import SecdMachine.Text.Words
import SecdMachine.Yaml.Value

/-!
# SecdMachine.Settings

The settings of a run, read from a YAML mapping over the defaults.

1. Every key must be one of the five settings.
2. The step budget is an integer of at least 1; a fraction with an integral
   value is one.  Three settings are booleans, and the level of the journal is
   one of six words.
3. Every key that breaks these rules is an issue, and the issues are reported
   together.
4. A document that is malformed, gives a setting twice, or holds a number that
   does not fit the step budget, is refused without a list of issues.
-/

namespace SecdMachine

/-- How much the journal tells. -/
inductive Settings.Level where
  | trace
  | debug
  | info
  | warn
  | error
  | disabled
deriving DecidableEq, Repr

/-- The settings of a run. -/
structure Settings where
  /-- The step budget. -/
  maxSteps : Int := 1000
  interactive : Bool := false
  clearScreen : Bool := true
  colour : Bool := true
  level : Settings.Level := .warn
deriving DecidableEq, Repr

namespace Settings

/-! ## Levels -/

/-- All levels, from the most talkative down. -/
def Level.all : List Level :=
  [.trace, .debug, .info, .warn, .error, .disabled]

/-- The name of a level. -/
def Level.name : Level → String
  | .trace => "trace"
  | .debug => "debug"
  | .info => "info"
  | .warn => "warn"
  | .error => "error"
  | .disabled => "disabled"

/-- The level with a name. -/
def Level.ofName? (name : String) : Option Level :=
  Level.all.find? (·.name = name)

theorem Level.ofName?_name (l : Level) : Level.ofName? l.name = some l := by
  cases l <;> rfl

/-! ## Keys -/

/-- The keys of a settings file. -/
inductive Key where
  | maxSteps
  | interactive
  | clearScreen
  | colour
  | level
deriving DecidableEq, Repr

/-- All keys. -/
def Key.all : List Key :=
  [.maxSteps, .interactive, .clearScreen, .colour, .level]

/-- How a key is written. -/
def Key.name : Key → String
  | .maxSteps => "max_steps"
  | .interactive => "interactive"
  | .clearScreen => "clear_screen"
  | .colour => "colour"
  | .level => "log_level"

/-- The key that is written as `name`. -/
def Key.ofName? (name : String) : Option Key :=
  Key.all.find? (·.name = name)

theorem Key.ofName?_name (k : Key) : Key.ofName? k.name = some k := by
  cases k <;> rfl

/-- The type of a key's value. -/
def Key.typeName : Key → String
  | .maxSteps => "integer"
  | .interactive | .clearScreen | .colour => "boolean"
  | .level => "string"

/-! ## Issues -/

/-- What is wrong with an entry of a settings file. -/
inductive Issue where
  /-- The key is not one of the settings. -/
  | unknownKey (name : String)
  /-- The value is of a type that the setting does not take. -/
  | wrongType (key : Key) (given : String)
  /-- The step budget is below 1. -/
  | budgetTooSmall
  /-- The word is no level. -/
  | unknownLevel
deriving DecidableEq, Repr

/-- The text of an issue. -/
def Issue.text : Issue → String
  | .unknownKey name => "(root): Additional property " ++ name ++ " is not allowed"
  | .wrongType key given =>
    key.name ++ ": Invalid type. Expected: " ++ key.typeName ++ ", given: " ++ given
  | .budgetTooSmall => Key.maxSteps.name ++ ": Must be greater than or equal to 1"
  | .unknownLevel =>
    Key.level.name ++ ": " ++ Key.level.name ++ " must be one of the following: " ++
      Text.join ", " (Level.all.map fun l => "\"" ++ l.name ++ "\"")

/-- Why a settings file is refused. -/
inductive Error where
  /-- The text is no document that settings can be read from. -/
  | malformed
  /-- The texts of the issues with its entries, in alphabetical order. -/
  | invalid (issues : List String)
deriving DecidableEq, Repr

/-- The message of a list of issues. -/
def issuesMessage (issues : List String) : String :=
  if issues.isEmpty then "config: invalid configuration"
  else "config validation failed: " ++ Text.join "; " issues

/-! ## Values -/

/-- The name of the type of a value. -/
def typeName : Yaml.Value → String
  | .null => "null"
  | .bool _ => "boolean"
  | .integer _ => "integer"
  | .double (some _) => "integer"
  | .double none => "number"
  | .string _ => "string"
  | .sequence _ => "array"
  | .mapping _ => "object"
  | .other => "other"

/-- The integer that a value stands for. -/
def integer? : Yaml.Value → Option Int
  | .integer n => some n
  | .double n => n
  | _ => none

/-- The boolean that a value stands for. -/
def boolean? : Yaml.Value → Option Bool
  | .bool b => some b
  | _ => none

/-- The string that a value stands for. -/
def string? : Yaml.Value → Option String
  | .string s => some s
  | _ => none

/-- The issue with the value of a key, if there is one. -/
def valueIssue? (key : Key) (value : Yaml.Value) : Option Issue :=
  match key with
  | .maxSteps =>
    match integer? value with
    | some n => if n < 1 then some .budgetTooSmall else none
    | none => some (.wrongType key (typeName value))
  | .interactive | .clearScreen | .colour =>
    match boolean? value with
    | some _ => none
    | none => some (.wrongType key (typeName value))
  | .level =>
    match string? value with
    | some s => if (Level.ofName? s).isSome then none else some .unknownLevel
    | none => some (.wrongType key (typeName value))

/-- The issue with a field, if there is one. -/
def issue? (field : String × Yaml.Value) : Option Issue :=
  match Key.ofName? field.1 with
  | some key => valueIssue? key field.2
  | none => some (.unknownKey field.1)

/-! ## Reading -/

/-- The step budget of an integral value.  One that is written as an integer
must be a machine integer.  A double may be as large as 2^63, which is one
more than the greatest machine integer and wraps around to the least. -/
def budget? : Yaml.Value → Option Int
  | .integer n => if n ≤ Numeral.maxInt then some n else none
  | .double (some n) =>
    if n ≤ Numeral.maxInt then some n
    else if n = Numeral.maxInt + 1 then some Numeral.minInt
    else none
  | _ => none

/-- The settings with the value of one field; `none` if a step budget does not
fit. -/
def set? (s : Settings) (field : String × Yaml.Value) : Option Settings :=
  match Key.ofName? field.1 with
  | some .maxSteps => (budget? field.2).map fun n => { s with maxSteps := n }
  | some .interactive =>
    some { s with interactive := (boolean? field.2).getD s.interactive }
  | some .clearScreen =>
    some { s with clearScreen := (boolean? field.2).getD s.clearScreen }
  | some .colour => some { s with colour := (boolean? field.2).getD s.colour }
  | some .level =>
    some { s with level := ((string? field.2).bind Level.ofName?).getD s.level }
  | none => some s

/-- Settings from the fields of a document.  Of a field that is given twice the
last one is checked for issues; then it is one too many. -/
def ofFields (fields : Yaml.Fields) : Except Error Settings :=
  let latest := fields.latest
  let issues := (latest.filterMap issue?).map Issue.text
  if issues.isEmpty then
    if latest.length < fields.length then .error .malformed
    else
      match fields.foldlM set? {} with
      | some s => .ok s
      | none => .error .malformed
  else .error (.invalid (issues.mergeSort fun a b => decide (a ≤ b)))

/-- The settings with those of the fields that they can take.  Of a setting that is
given twice the first value is taken. -/
def overlay (fields : Yaml.Fields) : Settings :=
  (Yaml.Fields.latest fields.reverse).foldl (fun s f => (set? s f).getD s) {}

/-- Reads settings from the text of a settings file.  Beside an error there are the
settings that have been read so far: the defaults, unless the fields were without an
issue. -/
def parse (text : String) : Settings × Option Error :=
  match Yaml.read? text with
  | none => ({}, some .malformed)
  | some fields =>
    match ofFields fields with
    | .ok s => (s, none)
    | .error .malformed => (overlay fields, some .malformed)
    | .error e => ({}, some e)

/-- The settings of a settings file, or why it is refused. -/
def read (text : String) : Except Error Settings :=
  match parse text with
  | (s, none) => .ok s
  | (_, some e) => .error e

end Settings

end SecdMachine
