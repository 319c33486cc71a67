/-!
# SecdMachine.Banner

The fixed texts of the display: the logo, the rule above each state, bullets
and the prompt.
-/

namespace SecdMachine.Banner

/-- The version of the program. -/
def version : String := "0.1.0"

/-- What stands in front of an item of a list. -/
def bullet : String := "  ▪ "

/-- What the prompt ends with. -/
def arrow : String := "→ "

/-- The terminal codes that clear the screen. -/
def clearScreen : String := "\x1b[H\x1b[J"

/-- The line above each state, after its number. -/
def rule : String := String.ofList (List.replicate 32 '=')

/-- The logo: the title in a box. -/
def logo : String :=
  let title := " SECD machine, version " ++ version ++ " "
  let bar := String.ofList (List.replicate title.length '═')
  "\n  ╔" ++ bar ++ "╗\n  ║" ++ title ++ "║\n  ╚" ++ bar ++ "╝\n\n"

end SecdMachine.Banner
