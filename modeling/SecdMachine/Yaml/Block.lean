import SecdMachine.Yaml.Cell

/-!
# SecdMachine.Yaml.Block

Block scalars: the indented lines after a bar or a greater-than sign.

1. The header may name how the line breaks at the end are treated: all are
   kept after a plus sign, none after a minus sign, and otherwise one.  It may
   also name the indentation; a comment may follow.
2. Without a named indentation, the longest run of spaces up to the first line
   with text gives it, but it is deeper than that of the block around.
3. After a bar the lines stay as they are.  After a greater-than sign, a single
   line break reads as a space between two lines that do not start with white
   space.
-/

namespace SecdMachine.Yaml

/-! ## Headers -/

/-- How the line breaks at the end of a block scalar are treated. -/
inductive Chomping where
  | strip
  | clip
  | keep
deriving DecidableEq, Repr

/-- The chomping that a sign stands for. -/
def Chomping.ofSign? (c : Char) : Option Chomping :=
  if c = '+' then some .keep else if c = '-' then some .strip else none

/-- The indentation that a digit stands for, which is not zero. -/
def indentDigit? (c : Char) : Option Nat :=
  if '1' ≤ c ∧ c ≤ '9' then some (c.toNat - '0'.toNat) else none

/-- The header of a block scalar. -/
structure Header where
  chomping : Chomping
  /-- How much deeper than the block around the lines are indented, if that is
  said. -/
  indent : Option Nat
  rest : List Cell
deriving DecidableEq, Repr

/-- Reads an indentation digit, if there is a digit. -/
def readIndent? (cs : List Cell) : Option (Option Nat × List Cell) :=
  if (charAt 0 cs).isDigit then (indentDigit? (charAt 0 cs)).map fun n => (some n, cs.drop 1)
  else some (none, cs)

/-- Reads a sign, if there is one. -/
def readSign (cs : List Cell) : Option Chomping × List Cell :=
  match Chomping.ofSign? (charAt 0 cs) with
  | some s => (some s, cs.drop 1)
  | none => (none, cs)

/-- Reads the header of a block scalar: a sign and a digit, in either order. -/
def readHeader? (cs : List Cell) : Option Header :=
  match readSign cs with
  | (some sign, rest) =>
    (readIndent? rest).bind fun (indent, rest) => (nextLine? rest).map fun rest =>
      ⟨sign, indent, rest⟩
  | (none, rest) =>
    (readIndent? rest).bind fun (indent, rest) =>
      let (sign, rest) := if indent.isSome then readSign rest else (none, rest)
      (nextLine? rest).map fun rest => ⟨sign.getD .clip, indent, rest⟩

/-! ## Lines -/

/-- Skips empty lines and the spaces before the first text, and finds the
longest run of spaces.  Gives the line breaks, last first. -/
def findIndent? (longest : Nat) (breaks : List Char) :
    List Cell → Option (Nat × List Char × List Cell)
  | [] => none
  | c :: cs =>
    if c.char = ' ' then findIndent? longest breaks cs
    else if c.char = '\t' then none
    else if isBreak c.char then
      findIndent? (max longest c.column) (breakChar c.char :: breaks) cs
    else some (max longest c.column, breaks, c :: cs)

/-- The text of a block scalar so far.  Characters are kept last first. -/
structure Lines where
  text : List Char := []
  /-- The break after the last line with text. -/
  first : Option Char := none
  /-- The breaks of the empty lines after it. -/
  more : List Char := []
  /-- Whether the last line starts with white space. -/
  indented : Bool := false
deriving DecidableEq, Repr

/-- Starts a line with the character `c`. -/
def Lines.start (literal : Bool) (l : Lines) (c : Char) : Lines :=
  let text :=
    if !literal && !l.indented && !isWhite c && l.first == some '\n' then
      if l.more.isEmpty then ' ' :: l.text else l.text
    else l.first.toList ++ l.text
  ⟨c :: (l.more ++ text), none, [], isWhite c⟩

/-- The text, with the line breaks at its end treated as the header says. -/
def Lines.finish (chomping : Chomping) (l : Lines) : List Char :=
  match chomping with
  | .strip => l.text.reverse
  | .clip => (l.first.toList ++ l.text).reverse
  | .keep => (l.more ++ (l.first.toList ++ l.text)).reverse

/-- Reads the lines of a block scalar; `inLine` tells whether the text of a
line has started. -/
def readLines? (literal : Bool) (indent : Nat) (inLine : Bool) (l : Lines) :
    List Cell → Option (Lines × List Cell)
  | [] => none
  | c :: cs =>
    if inLine then
      if c.char = endChar then some (l, c :: cs)
      else if isBreak c.char then
        readLines? literal indent false { l with first := some (breakChar c.char) } cs
      else readLines? literal indent true { l with text := c.char :: l.text } cs
    else if c.column < indent && c.char = ' ' then readLines? literal indent false l cs
    else if c.column < indent && c.char = '\t' then none
    else if isBreak c.char then
      readLines? literal indent false { l with more := breakChar c.char :: l.more } cs
    else if c.column = indent && c.char ≠ endChar then
      readLines? literal indent true (l.start literal c.char) cs
    else some (l, c :: cs)

/-- Reads a block scalar after its first character, inside a block at the
indentation `outer`, which is -1 outside all blocks. -/
def readBlock? (literal : Bool) (outer : Int) (cs : List Cell) :
    Option (List Char × List Cell) :=
  (readHeader? cs).bind fun h =>
    let result :=
      match h.indent with
      | some n => readLines? literal (outer.toNat + n) false {} h.rest
      | none =>
        (findIndent? 0 [] h.rest).bind fun (longest, breaks, rest) =>
          readLines? literal (max longest (max (outer + 1).toNat 1)) false
            { more := breaks } rest
    result.map fun (l, rest) => (l.finish h.chomping, rest)

end SecdMachine.Yaml
