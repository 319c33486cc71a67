import SecdMachine.Yaml.Folding

/-!
# SecdMachine.Yaml.Quoted

Quoted scalars.  In single quotes, a quote is written twice; in double quotes,
a backslash starts an escape.  Line breaks inside quotes are folded, but for
one after a backslash, which is dropped with the white space that follows.  No
document marker may start a line inside quotes.

A reader gets what follows the opening quote, and gives the text and what
follows the closing quote.
-/

namespace SecdMachine.Yaml

/-! ## Single quotes -/

/-- Reads the rest of a text in single quotes after `text`, which is kept last
character first, and the gap `g`. -/
def singleQuotedFrom (text : List Char) (g : Gap) : List Cell → Option (List Char × List Cell)
  | [] => none
  | c :: cs =>
    if c.char = endChar || atMarker (c :: cs) then none
    else if isWhite c.char || isBreak c.char then singleQuotedFrom text (g.add c.char) cs
    else if c.char = '\'' then
      match cs with
      | d :: ds =>
        if d.char = '\'' then singleQuotedFrom ('\'' :: g.flush text) {} ds
        else some ((g.flush text).reverse, d :: ds)
      | [] => none
    else singleQuotedFrom (c.char :: g.flush text) {} cs

/-- Reads a text in single quotes after the opening quote. -/
def singleQuoted (cs : List Cell) : Option (List Char × List Cell) :=
  singleQuotedFrom [] {} cs

/-! ## Double quotes -/

/-- The character that an escape of one letter stands for. -/
def simpleEscape? (c : Char) : Option Char :=
  match c with
  | '0' => some '\x00'
  | 'a' => some '\x07'
  | 'b' => some '\x08'
  | 't' | '\t' => some '\t'
  | 'n' => some '\n'
  | 'v' => some '\x0b'
  | 'f' => some '\x0c'
  | 'r' => some '\r'
  | 'e' => some '\x1b'
  | ' ' => some ' '
  | '"' => some '"'
  | '\'' => some '\''
  | '\\' => some '\\'
  | 'N' => some '\u0085'
  | '_' => some '\u00a0'
  | 'L' => some '\u2028'
  | 'P' => some '\u2029'
  | _ => none

/-- The number of hexadecimal digits after the letter of an escape. -/
def escapeWidth? (c : Char) : Option Nat :=
  match c with
  | 'x' => some 2
  | 'u' => some 4
  | 'U' => some 8
  | _ => none

/-- Where a reader of a text in double quotes is: in the text, after a
backslash, or in an escape with `left` digits to come after `value`. -/
inductive Escape where
  | none
  | letter
  | digits (left value : Nat)
deriving DecidableEq, Repr

/-- Reads the rest of a text in double quotes after `text`, which is kept last
character first, and the gap `g`. -/
def doubleQuotedFrom (text : List Char) (g : Gap) (e : Escape) :
    List Cell → Option (List Char × List Cell)
  | [] => none
  | c :: cs =>
    match e with
    | .none =>
      if c.char = endChar || atMarker (c :: cs) then none
      else if isWhite c.char || isBreak c.char then doubleQuotedFrom text (g.add c.char) .none cs
      else if c.char = '"' then some ((g.flush text).reverse, cs)
      else if c.char = '\\' then doubleQuotedFrom (g.flush text) {} .letter cs
      else doubleQuotedFrom (c.char :: g.flush text) {} .none cs
    | .letter =>
      if isBreak c.char then doubleQuotedFrom text ⟨[], true, none, []⟩ .none cs
      else
        match simpleEscape? c.char, escapeWidth? c.char with
        | some d, _ => doubleQuotedFrom (d :: text) {} .none cs
        | none, some width => doubleQuotedFrom text {} (.digits width 0) cs
        | none, none => none
    | .digits left value =>
      match hexDigit? c.char with
      | none => none
      | some d =>
        if 1 < left then doubleQuotedFrom text {} (.digits (left - 1) (value * 16 + d)) cs
        else if (value * 16 + d).isValidChar then
          doubleQuotedFrom (Char.ofNat (value * 16 + d) :: text) {} .none cs
        else none

/-- Reads a text in double quotes after the opening quote. -/
def doubleQuoted (cs : List Cell) : Option (List Char × List Cell) :=
  doubleQuotedFrom [] {} .none cs

end SecdMachine.Yaml
