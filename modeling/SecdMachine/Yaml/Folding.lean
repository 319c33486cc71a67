import SecdMachine.Yaml.Cell

/-!
# SecdMachine.Yaml.Folding

White space and line breaks between two words of a scalar, and how they read:

1. white space without a line break reads as it is;
2. one line break reads as a space, and white space on either side of it is
   dropped;
3. of several line breaks the first is dropped, and the others stay;
4. a separator that comes first stays, and so does what follows it.
-/

namespace SecdMachine.Yaml

/-- What stands between two words.  Characters are kept last first. -/
structure Gap where
  /-- White space before the first line break. -/
  spaces : List Char := []
  /-- Whether a line ended. -/
  broken : Bool := false
  /-- The first line break, unless an escape took it away. -/
  first : Option Char := none
  /-- Further line breaks. -/
  more : List Char := []
deriving DecidableEq, Repr

namespace Gap

/-- Whether nothing stands between. -/
def isEmpty (g : Gap) : Bool :=
  g.spaces.isEmpty && !g.broken

/-- The gap with one more white-space character or line break. -/
def add (g : Gap) (c : Char) : Gap :=
  if isWhite c then
    if g.broken then g else { g with spaces := c :: g.spaces }
  else if g.broken then { g with more := breakChar c :: g.more }
  else ⟨[], true, some (breakChar c), []⟩

/-- A text, last character first, with what the gap after it reads as. -/
def flush (g : Gap) (text : List Char) : List Char :=
  if g.broken then
    match g.first with
    | none => g.more ++ text
    | some '\n' => if g.more.isEmpty then ' ' :: text else g.more ++ text
    | some c => g.more ++ c :: text
  else g.spaces ++ text

end Gap

end SecdMachine.Yaml
