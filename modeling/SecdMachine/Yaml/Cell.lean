/-!
# SecdMachine.Yaml.Cell

The text of a YAML stream as a list of characters that know where they stand.
Structure in YAML hangs on lines and columns, so they are computed once, and
all readers walk down the same list.

1. A line ends at a line feed, a carriage return, both together, or at one of
   the characters next line, line separator and paragraph separator.  The
   first three read as one line feed.
2. A text is read in blocks of 512 bytes.  A block with a character that no
   stream may hold cannot be read; what comes before it can.
3. The end of the text is a cell of its own (`endChar`), so that a reader sees
   where it is.  A list that stops without it belongs to a text that cannot be
   read any further.
4. A byte-order mark at the start is not part of the text.
-/

namespace SecdMachine.Yaml

/-! ## Characters -/

/-- The character of the cell that ends a text. -/
def endChar : Char := '\x00'

/-- Whether a character is white space within a line. -/
def isWhite (c : Char) : Bool :=
  c == ' ' || c == '\t'

/-- Whether a character ends a line. -/
def isBreak (c : Char) : Bool :=
  c == '\n' || c == '\r' || c == '\u0085' || c == '\u2028' || c == '\u2029'

/-- Whether a line ends here, or the text does. -/
def endsLine (c : Char) : Bool :=
  isBreak c || c == endChar

/-- Whether a word ends here: at white space, and with its line. -/
def endsWord (c : Char) : Bool :=
  isWhite c || endsLine c

/-- Whether a character may be part of a name: an ASCII letter or digit, a
hyphen or an underscore. -/
def isNameChar (c : Char) : Bool :=
  c.isAlphanum || c == '-' || c == '_'

/-- What a line break reads as: a line feed, but the two separators stay. -/
def breakChar (c : Char) : Char :=
  if c = '\u2028' ∨ c = '\u2029' then c else '\n'

/-- The value of a hexadecimal digit. -/
def hexDigit? (c : Char) : Option Nat :=
  if '0' ≤ c ∧ c ≤ '9' then some (c.toNat - '0'.toNat)
  else if 'a' ≤ c ∧ c ≤ 'f' then some (c.toNat - 'a'.toNat + 10)
  else if 'A' ≤ c ∧ c ≤ 'F' then some (c.toNat - 'A'.toNat + 10)
  else none

/-! ## Reading a text -/

/-- Whether a stream may hold a character: no controls but tab and the line
breaks, and none of the last two code points of the basic plane. -/
def isAllowed (c : Char) : Bool :=
  let n := c.toNat
  n == 0x09 || n == 0x0A || n == 0x0D || (0x20 ≤ n && n ≤ 0x7E) || n == 0x85 ||
    (0xA0 ≤ n && n ≤ 0xFFFD) || 0x10000 ≤ n

/-- The number of bytes in a block. -/
def blockSize : Nat := 512

/-- The mark that may stand at the start of a text. -/
def byteOrderMark : Char := '\uFEFF'

/-- The blocks of a text that can be read, and whether they are all of it;
`used` is the size of the current block so far, and `block` its characters,
last first. -/
def blocksFrom (used : Nat) (block : List Char) : List Char → List (List Char) × Bool
  | [] => ([block.reverse], true)
  | c :: cs =>
    if blockSize < used + c.utf8Size then
      if isAllowed c then
        let (blocks, whole) := blocksFrom c.utf8Size [c] cs
        (block.reverse :: blocks, whole)
      else ([block.reverse], false)
    else if isAllowed c then blocksFrom (used + c.utf8Size) (c :: block) cs
    else ([], false)

/-- The blocks of a text that can be read, without a byte-order mark at its
start, and whether they are all of it. -/
def blocks : List Char → List (List Char) × Bool
  | c :: cs =>
    if c = byteOrderMark then blocksFrom c.utf8Size [] cs else blocksFrom 0 [] (c :: cs)
  | [] => ([], true)

/-! ## Cells -/

/-- Where a character stands: its line, its column, and how many characters
come before it. -/
structure Place where
  line : Nat
  column : Nat
  index : Nat
deriving DecidableEq, Repr

/-- A character and where it stands. -/
structure Cell extends Place where
  char : Char
deriving DecidableEq, Repr

/-- The cells of a text that starts at `p`; the end is among them if `whole`
is set. -/
def cellsFrom (whole : Bool) (p : Place) : List Char → List Cell
  | [] => if whole then [⟨p, endChar⟩] else []
  | '\r' :: '\n' :: cs => ⟨p, '\n'⟩ :: cellsFrom whole ⟨p.line + 1, 0, p.index + 2⟩ cs
  | c :: cs =>
    if isBreak c then
      ⟨p, if c = '\r' then '\n' else c⟩ :: cellsFrom whole ⟨p.line + 1, 0, p.index + 1⟩ cs
    else ⟨p, c⟩ :: cellsFrom whole ⟨p.line, p.column + 1, p.index + 1⟩ cs

/-- The character of the cell `k` places on. -/
def charAt (k : Nat) (cs : List Cell) : Char :=
  match cs.drop k with
  | c :: _ => c.char
  | [] => endChar

/-- Whether a document marker, three times the same character, starts a
line here. -/
def startsMarker (mark : Char) : List Cell → Bool
  | [] => false
  | c :: cs =>
    c.column == 0 && c.char == mark && charAt 0 cs == mark && charAt 1 cs == mark &&
      endsWord (charAt 2 cs)

/-- Whether a document starts or ends here. -/
def atMarker (cs : List Cell) : Bool :=
  startsMarker '-' cs || startsMarker '.' cs

/-- The rest of a line after white space. -/
def dropWhite (cs : List Cell) : List Cell :=
  cs.dropWhile (isWhite ·.char)

/-- What is left from the end of the line on. -/
def dropLine (cs : List Cell) : List Cell :=
  cs.dropWhile (!endsLine ·.char)

/-- Goes to the line after the current one, on which only white space and a
comment may be left. -/
def nextLine? (cs : List Cell) : Option (List Cell) :=
  let rest := dropWhite cs
  let rest := if charAt 0 rest = '#' then dropLine rest else rest
  if isBreak (charAt 0 rest) then some (rest.drop 1)
  else if charAt 0 rest = endChar then some rest
  else none

end SecdMachine.Yaml
