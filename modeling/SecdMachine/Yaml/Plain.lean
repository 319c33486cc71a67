import SecdMachine.Yaml.Folding

/-!
# SecdMachine.Yaml.Plain

Plain scalars, which no quotes delimit.

1. A plain scalar ends at a colon before white space, at a number sign after
   white space, and at a document marker; inside brackets also at a comma, a
   question mark or a bracket.
2. Outside brackets its lines are indented to at least the column `indent`.
   There, and in the white space before, no tab may stand in for the
   indentation.
-/

namespace SecdMachine.Yaml

/-- The characters that end a plain scalar inside brackets. -/
def isFlowIndicator (c : Char) : Bool :=
  c == ',' || c == '?' || c == '[' || c == ']' || c == '\x7b' || c == '\x7d'

/-- The characters that no plain scalar starts with, but for a dash, question
mark or colon that something follows. -/
def isIndicator (c : Char) : Bool :=
  isFlowIndicator c || c == '-' || c == ':' || c == '#' || c == '&' || c == '*' || c == '!' ||
    c == '|' || c == '>' || c == '\'' || c == '"' || c == '%' || c == '@' || c.toNat == 0x60

/-- Whether a plain scalar starts here, inside brackets or not. -/
def startsPlain (flow : Bool) (cs : List Cell) : Bool :=
  let c := charAt 0 cs
  let next := charAt 1 cs
  !(isIndicator c || endsWord c) || (c == '-' && !isWhite next) ||
    (!flow && (c == '?' || c == ':') && !endsWord next)

/-- Whether a plain scalar ends before the character `c` that follows the gap
`g`. -/
def endsPlain (flow : Bool) (indent : Nat) (g : Gap) (c : Cell) (cs : List Cell) : Bool :=
  c.char == endChar ||
    (!g.isEmpty && ((!flow && c.column < indent) || c.char == '#' || atMarker (c :: cs))) ||
    (c.char == ':' && endsWord (charAt 0 cs)) || (flow && isFlowIndicator c.char)

/-- A plain scalar that has been read. -/
structure Plain where
  text : List Char
  /-- Whether a line ended after it. -/
  broken : Bool
  rest : List Cell
deriving DecidableEq, Repr

/-- Reads the rest of a plain scalar after `text`, which is kept last character
first, and the gap `g`. -/
def readPlainFrom (flow : Bool) (indent : Nat) (text : List Char) (g : Gap) :
    List Cell → Option Plain
  | [] => none
  | c :: cs =>
    if isWhite c.char || isBreak c.char then
      if c.char == '\t' && g.broken && c.column < indent then none
      else readPlainFrom flow indent text (g.add c.char) cs
    else if endsPlain flow indent g c cs then some ⟨text.reverse, g.broken, c :: cs⟩
    else readPlainFrom flow indent (c.char :: g.flush text) {} cs

/-- Reads a plain scalar. -/
def readPlain (flow : Bool) (indent : Nat) (cs : List Cell) : Option Plain :=
  readPlainFrom flow indent [] {} cs

end SecdMachine.Yaml
