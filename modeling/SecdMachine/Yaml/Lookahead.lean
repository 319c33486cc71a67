import SecdMachine.Yaml.Quoted
import SecdMachine.Yaml.Window

/-!
# SecdMachine.Yaml.Lookahead

How far the readers of scalars look ahead.

1. Where a word may start, at the start and after a gap, four characters are
   looked at: a document marker has three, and something follows it.
2. After a character of a word two are looked at, since the second can tell
   whether the first ends the scalar.
3. In a gap white space is looked at by itself, and a line break by twos.
4. In double quotes, the digits of an escape are looked at together, and so are
   a backslash and the line break after it.
-/

namespace SecdMachine.Yaml

/-- What a reader of a scalar has just passed. -/
inductive Passed where
  /-- The start of the scalar. -/
  | start
  /-- A character of a word. -/
  | word
  /-- White space or a line break. -/
  | gap
  /-- A line break that an escape took away. -/
  | join
  /-- The first of two characters that belong together. -/
  | half
  /-- What comes before `left` digits of an escape. -/
  | digits (left : Nat)
deriving DecidableEq, Repr

namespace Passed

/-- How many characters are looked at where the character `c` follows, in a
scalar that is inside the given quotes. -/
def reach (quote : Option Char) (p : Passed) (c : Char) : Nat :=
  match p with
  | .start => 4
  | .word => 2
  | .gap => if isWhite c then 1 else if isBreak c then 2 else 4
  | .join => if isWhite c || quote == some c then 1 else if isBreak c then 2 else 4
  | .half => 1
  | .digits left => left

/-- What has been passed with the character `c`. -/
def next (quote : Option Char) (p : Passed) (c : Char) : Passed :=
  match p with
  | .half =>
    if quote = some '"' then
      if isBreak c then .join
      else
        match escapeWidth? c with
        | some width => .digits width
        | none => .word
    else .word
  | .digits left => if 1 < left then .digits (left - 1) else .word
  | _ =>
    if isWhite c || isBreak c then .gap
    else if (quote = some '"' && c = '\\') || (quote = some '\'' && c = '\'') then .half
    else .word

end Passed

namespace Window

/-- Goes over a scalar to the index `goal`.  There the reader looks no further
than it has to if `last` holds. -/
def passScalarFrom (goal : Nat) (quote : Option Char) (last : Cell → Bool) (p : Passed)
    (w : Window) : List Cell → Option Window
  | [] => none
  | c :: cs =>
    let n := p.reach quote c.char
    if c.index < goal then
      let joins := quote == some '"' && c.char == '\\' && p != .half && isBreak (charAt 0 cs)
      (w.look (if joins then max n 3 else n) c).bind fun w =>
        passScalarFrom goal quote last (p.next quote c.char) w cs
    else w.look (if last c then 1 else n) c

/-- Goes over a plain scalar from `cs` to what is left at `rest`.  Nothing more
is looked at where indentation ends the scalar. -/
def passPlain (w : Window) (flow : Bool) (indent : Nat) (cs rest : List Cell) : Option Window :=
  match rest with
  | [] => none
  | c :: _ => passScalarFrom c.index none (fun d => !flow && d.column < indent) .start w cs

/-- Goes over a scalar in quotes from `cs`, after the opening quote, to what is
left at `rest`, after the closing one. -/
def passQuoted (w : Window) (quote : Char) (cs rest : List Cell) : Option Window :=
  match rest with
  | [] => none
  | c :: _ => passScalarFrom c.index (some quote) (fun _ => true) .start w cs

end Window

end SecdMachine.Yaml
