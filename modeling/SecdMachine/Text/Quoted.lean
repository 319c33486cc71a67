import SecdMachine.Text.Category

/-!
# SecdMachine.Text.Quoted

Quoted text: a character in single quotes, or a string in double quotes, with
everything that cannot be shown written as an escape.

1. The quote in use and the backslash are written after a backslash.
2. Printable characters are written as they are.
3. Bell, backspace, form feed, line feed, carriage return, tab and vertical
   tab have an escape of one letter.
4. Other characters are written in lower-case hexadecimal: two digits for the
   ASCII controls, four in the basic plane, eight above it.
-/

namespace SecdMachine.Text

/-- The hexadecimal digits of `n`, with zeros in front to at least `width`
digits. -/
def hexadecimal (width n : Nat) : List Char :=
  let ds := Nat.toDigits 16 n
  List.replicate (width - ds.length) '0' ++ ds

/-- The letter of a one-letter escape. -/
def escapeLetter? (c : Char) : Option Char :=
  match c.toNat with
  | 7 => some 'a'
  | 8 => some 'b'
  | 9 => some 't'
  | 10 => some 'n'
  | 11 => some 'v'
  | 12 => some 'f'
  | 13 => some 'r'
  | _ => none

/-- One character as it stands inside quotes of the kind `quote`. -/
def escape (quote c : Char) : List Char :=
  if c = quote ∨ c = '\\' then ['\\', c]
  else if isPrintable c then [c]
  else match escapeLetter? c with
    | some letter => ['\\', letter]
    | none =>
      if c.toNat < 0x20 ∨ c.toNat = 0x7F then '\\' :: 'x' :: hexadecimal 2 c.toNat
      else if c.toNat < 0x10000 then '\\' :: 'u' :: hexadecimal 4 c.toNat
      else '\\' :: 'U' :: hexadecimal 8 c.toNat

/-- A character in single quotes. -/
def quoteChar (c : Char) : String :=
  String.ofList ('\'' :: escape '\'' c ++ ['\''])

/-- A string in double quotes. -/
def quoteString (s : String) : String :=
  String.ofList ('"' :: s.toList.flatMap (escape '"') ++ ['"'])

end SecdMachine.Text
