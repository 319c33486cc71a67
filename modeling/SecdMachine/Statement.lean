import SecdMachine.Numeral
import SecdMachine.Text.Category
import SecdMachine.Text.Words

/-!
# SecdMachine.Statement

Statements, the units that a program text is cut into.

1. A line ends at a line feed, and its first `##` and all after it is a
   comment.
2. The statements of a line are separated by semicolons; white space around a
   statement does not belong to it.
3. An empty statement, and one that starts with `#`, is dropped.
4. A statement that holds anything but tabs and graphic characters is
   illegal; of the others, one that ends in a colon is a label and the rest
   are operations.

Main statements: no statement is empty or starts with `#` (`mem_pieces`), and
two groups of lines are read one after the other (`ofLines_append`).
-/

namespace SecdMachine

/-- What a statement is. -/
inductive Statement.Kind where
  | operation
  | label
  | illegal
deriving DecidableEq, Repr, Inhabited

/-- A statement with the place it was read from.  The empty statement stands
for a place that has no text; line 0 stands for no line, and an empty source
for no source. -/
structure Statement where
  kind : Statement.Kind := .operation
  text : String := ""
  line : Nat := 0
  source : String := ""
deriving DecidableEq, Repr, Inhabited

namespace Statement

/-! ## The parts of a statement -/

/-- The words of a statement. -/
def fields (s : Statement) : List String :=
  (Text.words s.text.toList).map String.ofList

/-- The first word of a statement, which names an opcode. -/
def mnemonic (s : Statement) : String :=
  s.fields.headD ""

/-- The words after the first. -/
def arguments (s : Statement) : List String :=
  s.fields.tail

/-- The text without one colon at its end. -/
def dropColon (cs : List Char) : List Char :=
  if cs.getLast? = some ':' then cs.dropLast else cs

/-- The name that a label statement defines: its text without the colon. -/
def labelName (s : Statement) : String :=
  String.ofList (Text.trim (dropColon s.text.toList))

/-! ## Kinds -/

/-- The characters that a statement may hold. -/
def isLegal (c : Char) : Bool :=
  c == '\t' || Text.isGraphic c

/-- The first character of a text that a statement may not hold. -/
def illegalChar? (cs : List Char) : Option Char :=
  cs.find? (!isLegal ·)

/-- The kind of the statement with the given text. -/
def kindOf (cs : List Char) : Kind :=
  if (illegalChar? cs).isSome then .illegal
  else if cs.getLast? = some ':' then .label
  else .operation

/-! ## Cutting a text into statements -/

/-- The part of a line before its comment. -/
def beforeComment : List Char → List Char
  | '#' :: '#' :: _ => []
  | c :: cs => c :: beforeComment cs
  | [] => []

theorem beforeComment_eq_self {cs : List Char} (h : ∀ c ∈ cs, c ≠ '#') :
    beforeComment cs = cs := by
  induction cs with
  | nil => rfl
  | cons c cs ih =>
    rw [beforeComment]
    · rw [ih fun d hd => h d (List.mem_cons_of_mem c hd)]
    · exact fun _ he => absurd he (h c List.mem_cons_self)

/-- Whether a trimmed piece of a line is a statement. -/
def isContent : List Char → Bool
  | [] => false
  | c :: _ => c != '#'

/-- The texts of the statements of a line. -/
def pieces (line : List Char) : List (List Char) :=
  ((Text.splitWhere (· == ';') (beforeComment line)).map Text.trim).filter isContent

theorem mem_pieces {line piece : List Char} (h : piece ∈ pieces line) :
    piece ≠ [] ∧ piece.head? ≠ some '#' := by
  have := (List.mem_filter.mp h).2
  cases piece with
  | nil => simp [isContent] at this
  | cons c cs => simpa [isContent] using this

/-- The statement with the given text and place. -/
def ofChars (source : String) (line : Nat) (cs : List Char) : Statement where
  kind := kindOf cs
  text := String.ofList cs
  line := line
  source := source

/-- The statements of consecutive lines, the first of which has the given
number. -/
def ofLines (source : String) : Nat → List (List Char) → List Statement
  | _, [] => []
  | n, line :: rest => (pieces line).map (ofChars source n) ++ ofLines source (n + 1) rest

theorem ofLines_append (source : String) (n : Nat) (as bs : List (List Char)) :
    ofLines source n (as ++ bs) = ofLines source n as ++ ofLines source (n + as.length) bs := by
  induction as generalizing n with
  | nil => simp [ofLines]
  | cons a as ih => simp [ofLines, ih, Nat.add_assoc, Nat.add_comm 1]

/-- Cuts a program text into its statements. -/
def read (source text : String) : List Statement :=
  ofLines source 1 (Text.lines text.toList)

/-! ## Describing a place -/

/-- Where a statement stands, as it follows an error message. -/
def position (s : Statement) : String :=
  if s.source = "" then ""
  else if 0 < s.line then
    " at line " ++ Numeral.natural s.line ++ " of '" ++ s.source ++ "'"
  else " in '" ++ s.source ++ "'"

end Statement

end SecdMachine
