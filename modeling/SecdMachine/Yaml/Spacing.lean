import SecdMachine.Yaml.Window

/-!
# SecdMachine.Yaml.Spacing

What stands between two tokens: white space, line breaks and comments.

1. A comment on the line of a token is skipped with the token.
2. At the end of a comment another one is looked for, over white space and
   line breaks.  What stands before it is skipped, tabs too.  Both kinds of
   comments are looked for at most 512 characters ahead.
3. While the window starts with a byte-order mark, each line between two tokens
   loses its first character, whatever it is.  Where that is a line break, the
   next line moves one column to the right.
-/

namespace SecdMachine.Yaml

/-- How far ahead a comment is looked for. -/
def commentReach : Nat := 512

/-! ## Comments on the line of a token -/

/-- Skips a comment that follows something on its line. -/
def skipLineComment (w : Window) (cs : List Cell) : Option (Window × List Cell) :=
  match cs, dropWhite cs with
  | c :: _, d :: ds =>
    (w.look (min (d.index - c.index + 1) commentReach) c).bind fun w =>
      if d.char = '#' ∧ d.index < c.index + commentReach then
        (w.pass false cs (dropLine ds)).map fun w => (w, dropLine ds)
      else some (w, cs)
  | c :: _, [] => (w.look commentReach c).map fun w => (w, cs)
  | [], _ => none

/-! ## Lines between tokens -/

/-- How many characters are looked at for another comment at the end `c` of
one, and the index at which it starts, if there is one. -/
def nextComment (c : Cell) (cs : List Cell) : Nat × Option Nat :=
  if c.char = '\n' then
    match cs.dropWhile fun d => isWhite d.char || d.char == '\n' with
    | [] => (commentReach, none)
    | d :: _ =>
      let n := d.index - c.index + 1
      if commentReach < n then (commentReach, none)
      else if d.char = '#' then (n, some d.index)
      else if isBreak d.char then (min (n + 1) commentReach, none)
      else (n, none)
  else (2, none)

/-- Where a reader is between two tokens: at the start of a line or of the
whole, further on in a line, in a comment, or before the comment that starts at
an index. -/
inductive Spot where
  | start
  | line
  | comment
  | before (index : Nat)
deriving DecidableEq, Repr

/-- Moves a line one column to the right. -/
def shiftLine : List Cell → List Cell
  | [] => []
  | c :: cs =>
    { c with column := c.column + 1 } :: if isBreak c.char then cs else shiftLine cs

/-- Whether a line break consists of two characters. -/
def isPair (c : Cell) (cs : List Cell) : Bool :=
  match cs with
  | [] => false
  | d :: _ => d.index == c.index + 2

/-- What comes after the space between two tokens. -/
structure Spacing where
  /-- Whether a key may start. -/
  keyAllowed : Bool
  window : Window
  rest : List Cell
deriving DecidableEq, Repr

/-- Goes to the next token.  Spaces, line breaks and comments are skipped, and
tabs where no key may start.  Outside brackets (`flow` is not set) a key may
start on a new line.  Where `shifted` is set, the current line has been moved
to the right. -/
def skipSpacing (flow keyAllowed shifted : Bool) (spot : Spot) (w : Window) :
    List Cell → Option Spacing
  | [] => none
  | c :: cs =>
    (w.look 1 c).bind fun w =>
      let drops := spot == .start && c.column == 0 && w.marked
      if drops && c.char != endChar && !isPair c cs then
        skipSpacing flow keyAllowed (isBreak c.char) .line w cs
      else
        match spot with
        | .comment =>
          if c.char = endChar then some ⟨keyAllowed, w, c :: cs⟩
          else if isBreak c.char then
            let (n, next) := nextComment c cs
            (w.look n c).bind fun w =>
              match next with
              | some index => skipSpacing flow keyAllowed false (.before index) w cs
              | none => skipSpacing flow (!flow || keyAllowed) false .start w cs
          else skipSpacing flow keyAllowed shifted .comment w cs
        | .before index =>
          if c.index < index then
            (w.look (if isBreak c.char then 2 else 1) c).bind fun w =>
              skipSpacing flow keyAllowed false spot w cs
          else skipSpacing flow keyAllowed false .comment w cs
        | _ =>
          if c.char = ' ' || (c.char = '\t' && (flow || !keyAllowed)) then
            skipSpacing flow keyAllowed shifted .line w cs
          else if c.char = '#' then skipSpacing flow keyAllowed shifted .comment w cs
          else if isBreak c.char then
            (w.look (if drops then 3 else 2) c).bind fun w =>
              skipSpacing flow (!flow || keyAllowed) false .start w cs
          else some ⟨keyAllowed, w, if shifted then shiftLine (c :: cs) else c :: cs⟩

end SecdMachine.Yaml
