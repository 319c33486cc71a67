/-!
# SecdMachine.Palette

The terminal codes that rendered text is painted with.  A palette is passed
to everything that paints: `Palette.ansi` has the ANSI colour codes,
`Palette.plain` has empty codes, so painting with it leaves the text as it
is (`paint_plain`).
-/

namespace SecdMachine

/-- The code that starts each colour, and the one that ends all of them. -/
structure Palette where
  reset : String
  red : String
  green : String
  yellow : String
  cyan : String
  gray : String
deriving DecidableEq, Repr

/-- The colours that text is painted in. -/
inductive Colour where
  | red
  | green
  | yellow
  | cyan
  | gray
deriving DecidableEq, Repr

namespace Palette

/-- The ANSI colour codes. -/
def ansi : Palette where
  reset := "\x1b[0m"
  red := "\x1b[31m"
  green := "\x1b[32m"
  yellow := "\x1b[33m"
  cyan := "\x1b[36m"
  gray := "\x1b[37m"

/-- No codes at all. -/
def plain : Palette where
  reset := ""
  red := ""
  green := ""
  yellow := ""
  cyan := ""
  gray := ""

/-- The palette of a display with or without colour. -/
def ofColour (colour : Bool) : Palette :=
  if colour then ansi else plain

/-- The code that starts a colour. -/
def code (p : Palette) : Colour → String
  | .red => p.red
  | .green => p.green
  | .yellow => p.yellow
  | .cyan => p.cyan
  | .gray => p.gray

/-- The text between the code of a colour and the reset code. -/
def paint (p : Palette) (c : Colour) (s : String) : String :=
  p.code c ++ s ++ p.reset

@[simp] theorem paint_plain (c : Colour) (s : String) : plain.paint c s = s := by
  cases c <;> simp [paint, code, plain]

/-- What stands in front of every error message. -/
def errorHeader (p : Palette) : String :=
  p.paint .red "Error" ++ ": "

end Palette

end SecdMachine
