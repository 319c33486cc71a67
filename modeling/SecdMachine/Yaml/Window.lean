import SecdMachine.Yaml.Cell

/-!
# SecdMachine.Yaml.Window

The part of a text that is at hand while the text is read.

1. Blocks are fetched when a reader looks at characters that are not at hand.
   The window then starts at the place that the reader looks from, and ends
   with the last block that it needed.
2. The end of the text counts as a character.  A look beyond it finds one more
   of them.
3. A look into a block that cannot be read fails.
4. It is kept whether the window starts with a byte-order mark; while it does,
   lines between tokens lose their first characters.
-/

namespace SecdMachine.Yaml

/-- The part of a text that is at hand. -/
structure Window where
  /-- Whether it starts with a byte-order mark. -/
  marked : Bool := false
  /-- The index at which it ends. -/
  stop : Nat := 0
  /-- The lengths of the blocks after it. -/
  blocks : List Nat
  /-- Whether the text ends with them.  Otherwise it cannot be read any
  further. -/
  whole : Bool
deriving DecidableEq, Repr

namespace Window

/-- Where a window ends once the characters before the index `goal` have been
fetched, and the lengths of the blocks after it. -/
def fetch (whole : Bool) (goal stop : Nat) : List Nat → Option (Nat × List Nat)
  | [] => if whole then some (stop + 1, []) else none
  | n :: ns => if goal ≤ stop + n then some (stop + n, ns) else fetch whole goal (stop + n) ns

/-- Looks at `n` characters from the cell `c` on. -/
def look (w : Window) (n : Nat) (c : Cell) : Option Window :=
  if c.index + n ≤ w.stop then some w
  else
    (fetch w.whole (c.index + n) w.stop w.blocks).map fun (stop, blocks) =>
      ⟨c.char == byteOrderMark, stop, blocks, w.whole⟩

/-- Looks at `n` characters. -/
def lookAhead (w : Window) (n : Nat) : List Cell → Option Window
  | [] => none
  | c :: _ => w.look n c

/-- Goes to the index `goal`, character by character, and looks at both
characters of a line break.  Where `escapes` is set, a percent sign starts an
escape of three characters, but not in a comment. -/
def passFrom (goal : Nat) (escapes : Bool) (w : Window) : List Cell → Option Window
  | [] => none
  | c :: cs =>
    if c.index < goal then
      let n := if isBreak c.char then 2 else if escapes && c.char = '%' then 3 else 1
      (w.look n c).bind fun w => passFrom goal (escapes && c.char ≠ '#') w cs
    else w.look 1 c

/-- Goes from `cs` to what is left at `rest`, character by character. -/
def pass (w : Window) (escapes : Bool) (cs rest : List Cell) : Option Window :=
  match rest with
  | [] => none
  | c :: _ => passFrom c.index escapes w cs

/-- The window at the start of a text, which shows nothing yet. -/
def ofBlocks (blocks : List (List Char)) (whole : Bool) : Window :=
  { blocks := blocks.map List.length, whole := whole }

end Window

end SecdMachine.Yaml
