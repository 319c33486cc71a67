import SecdMachine.Program
import SecdMachine.Report

/-!
# SecdMachine.Assembly

From program text to a program, or to the list of everything that is wrong
with it.

1. Every statement takes one location.  A label names the location of its own
   line, whose operation does nothing.
2. Faults are reported in three rounds: illegal characters, then labels that
   are malformed or defined twice, then the operations, statement by
   statement.
3. The last round gives up at the first statement before which a limit of
   faults, normally `threshold`, was reached.
4. A program must define the label `main`; that it does not is reported last.
-/

namespace SecdMachine

/-- A label with its location, and the line it was defined on. -/
structure Label where
  name : String
  location : Nat
  line : Nat
deriving DecidableEq, Repr

namespace Assembly

/-- Loading normally gives up after this many faults. -/
def threshold : Nat := 8

/-- The label that execution starts at. -/
def mainLabel : String := "main"

/-- The report of a fault at a statement. -/
def reportAt (s : Statement) (f : Fault) : Report where
  fault := f
  statement := some s

/-! ## Illegal characters -/

/-- The report of a statement that holds an illegal character, the first one
if it holds several. -/
def illegalReport? (s : Statement) : Option Report :=
  (Statement.illegalChar? s.text.toList).map fun c => reportAt s (.illegalCharacter c)

/-- The reports of illegal characters, one for each illegal statement. -/
def illegalReports (statements : List Statement) : List Report :=
  statements.filterMap illegalReport?

/-! ## Labels -/

/-- Whether a text is an identifier: letters, underscores and, after the first
character, decimal digits. -/
def isIdentifier : List Char → Bool
  | [] => false
  | c :: cs =>
    (c == '_' || Text.isLetter c) &&
      cs.all fun c => c == '_' || Text.isLetter c || Text.isDecimalDigit c

/-- The label with a name. -/
def findLabel? (labels : List Label) (name : String) : Option Label :=
  labels.find? (·.name = name)

/-- What the label statements of a text come to. -/
structure Labelling where
  /-- The labels in the order of their definitions. -/
  labels : List Label
  reports : List Report
deriving DecidableEq, Repr

/-- Continues a labelling with statements that start at location `i`. -/
def labelsFrom (i : Nat) (known : List Label) : List Statement → Labelling
  | [] => ⟨known, []⟩
  | s :: rest =>
    let report (f : Fault) : Labelling :=
      let l := labelsFrom (i + 1) known rest
      { l with reports := reportAt s f :: l.reports }
    if s.kind = .label then
      if isIdentifier s.labelName.toList then
        match findLabel? known s.labelName with
        | some first => report (.labelRedefined s.labelName first.line)
        | none => labelsFrom (i + 1) (known ++ [⟨s.labelName, i, s.line⟩]) rest
      else report (.labelMalformed s.text)
    else labelsFrom (i + 1) known rest

/-! ## Operations -/

/-- Reads the literal of a constant: an integer or a boolean. -/
def readLiteral? (text : String) : Option Value :=
  if text = "True" ∨ text = "true" then some (.bool true)
  else if text = "False" ∨ text = "false" then some (.bool false)
  else (Numeral.readInteger text.toList).toOption.map .int

/-- Reads a position in the environment: a dollar sign and a positive
number. -/
def readPosition? (text : String) : Option Nat :=
  match text.toList with
  | '$' :: cs => Numeral.positive? cs
  | _ => none

/-- An operation, with the constant that it refers to if it is a `const`. -/
structure Assembled where
  operation : Operation
  constants : List Value := []
deriving DecidableEq, Repr

/-- The operation of an opcode without arguments. -/
def plainOperation : Opcode → Operation
  | .apply => .apply
  | .applyn => .applyn
  | .ret => .ret
  | .arith f => .arith f
  | .eq => .eq
  | .halt => .halt
  | _ => .label

/-- The operation of an opcode that takes one label. -/
def labelOperation (location : Nat) : Opcode → Operation
  | .closure => .closure location
  | .brfl => .brfl location
  | .br => .br location
  | _ => .label

/-- The locations of labels, or a fault for each that is not defined. -/
def locations (labels : List Label) : List String → Except (List Fault) (List Nat)
  | [] => .ok []
  | name :: rest =>
    match findLabel? labels name, locations labels rest with
    | some l, .ok ls => .ok (l.location :: ls)
    | some _, .error fs => .error fs
    | none, .ok _ => .error [.labelUndefined name]
    | none, .error fs => .error (.labelUndefined name :: fs)

/-- Assembles an opcode with its arguments; `pool` is the index of the next
constant. -/
def assembleOpcode (labels : List Label) (pool : Nat) (o : Opcode) (args : List String) :
    Except (List Fault) Assembled :=
  match o.shape, args with
  | .none, [] => .ok { operation := plainOperation o }
  | .none, args => .error [.argumentCount o.mnemonic "no arguments" args.length]
  | .labels, [] => .error [.argumentCount o.mnemonic "at least one argument" 0]
  | .labels, args => (locations labels args).map fun ls => { operation := .closures ls }
  | .literal, [a] =>
    match readLiteral? a with
    | some v => .ok { operation := .const pool, constants := [v] }
    | none => .error [.constArgument a]
  | .position, [a] =>
    match readPosition? a with
    | some n => .ok { operation := .access n }
    | none => .error [.accessArgument a]
  | .index, [a] =>
    match Numeral.positive? a.toList with
    | some n => .ok { operation := .focus n }
    | none => .error [.focusArgument a]
  | .label, [a] =>
    match findLabel? labels a with
    | some l => .ok { operation := labelOperation l.location o }
    | none => .error [.labelUndefined a]
  | _, args => .error [.argumentCount o.mnemonic "one argument" args.length]

/-- Assembles a statement; `pool` is the index of the next constant.  An
illegal statement, which has been reported already, counts as a label. -/
def assembleStatement (labels : List Label) (pool : Nat) (s : Statement) :
    Except (List Fault) Assembled :=
  match s.kind with
  | .label | .illegal => .ok { operation := .label }
  | .operation =>
    match Opcode.ofMnemonic? s.mnemonic with
    | some o => assembleOpcode labels pool o s.arguments
    | none => .error [.opcodeUnknown s.mnemonic]

/-- What the statements of a text are assembled to. -/
structure Draft where
  code : List Operation := []
  constants : List Value := []
  reports : List Report := []
deriving DecidableEq, Repr

/-- Assembles statements in order, where `found` faults and `pool` constants
came before them, and gives up after `limit` faults. -/
def assembleAll (limit : Nat) (labels : List Label) (found pool : Nat) : List Statement → Draft
  | [] => {}
  | s :: rest =>
    if limit ≤ found then
      { reports := [reportAt s (.tooManyFaults found)] }
    else
      match assembleStatement labels pool s with
      | .error fs =>
        let d := assembleAll limit labels (found + fs.length) pool rest
        { d with reports := fs.map (reportAt s) ++ d.reports }
      | .ok t =>
        let d := assembleAll limit labels found (pool + t.constants.length) rest
        { d with code := t.operation :: d.code, constants := t.constants ++ d.constants }

/-! ## Programs -/

/-- The report of a program without a main label. -/
def mainReport (source : String) : Report :=
  reportAt { source := source } .mainMissing

/-- Assembles statements that were read from a source, giving up after `limit`
faults. -/
def ofStatements (limit : Nat) (source : String) (statements : List Statement) :
    Except (List Report) Program :=
  let illegal := illegalReports statements
  let labelling := labelsFrom 0 [] statements
  let found := illegal ++ labelling.reports
  let draft := assembleAll limit labelling.labels found.length 0 statements
  let reports := found ++ draft.reports
  match findLabel? labelling.labels mainLabel with
  | none => .error (reports ++ [mainReport source])
  | some main =>
    if reports.isEmpty then
      .ok {
        code := draft.code
        constants := draft.constants
        labels := labelling.labels.map fun l => (l.name, l.location)
        statements := statements
        main := main.location }
    else .error reports

end Assembly

/-- Assembles a program text, giving up after `limit` faults. -/
def Program.assembleWithin (limit : Nat) (source text : String) :
    Except (List Report) Program :=
  Assembly.ofStatements limit source (Statement.read source text)

/-- Assembles a program text. -/
def Program.assemble (source text : String) : Except (List Report) Program :=
  Program.assembleWithin Assembly.threshold source text

end SecdMachine
