/-!
# SecdMachine.Text.Base64

Reading base-64 text and UTF-8 octets.

1. Four digits stand for three octets.  Line breaks between digits do not
   count.  The last group may stand for fewer octets, and is then filled up to
   four with equals signs.
2. An octet that no character in UTF-8 contains reads as the replacement
   character.
-/

namespace SecdMachine.Text

/-! ## Base 64 -/

/-- The value of a digit of base 64. -/
def base64Digit? (c : Char) : Option Nat :=
  if 'A' ≤ c ∧ c ≤ 'Z' then some (c.toNat - 'A'.toNat)
  else if 'a' ≤ c ∧ c ≤ 'z' then some (c.toNat - 'a'.toNat + 26)
  else if '0' ≤ c ∧ c ≤ '9' then some (c.toNat - '0'.toNat + 52)
  else if c = '+' then some 62
  else if c = '/' then some 63
  else none

/-- The octets of digits in groups of four. -/
def base64Groups? : List Char → Option (List Nat)
  | [] => some []
  | [a, b, '=', '='] =>
    match base64Digit? a, base64Digit? b with
    | some a, some b => some [(a * 64 + b) / 16]
    | _, _ => none
  | [a, b, c, '='] =>
    match base64Digit? a, base64Digit? b, base64Digit? c with
    | some a, some b, some c =>
      let n := (a * 64 + b) * 64 + c
      some [n / 1024, n / 4 % 256]
    | _, _, _ => none
  | a :: b :: c :: d :: rest =>
    match base64Digit? a, base64Digit? b, base64Digit? c, base64Digit? d with
    | some a, some b, some c, some d =>
      let n := ((a * 64 + b) * 64 + c) * 64 + d
      (base64Groups? rest).map fun os => n / 65536 :: n / 256 % 256 :: n % 256 :: os
    | _, _, _, _ => none
  | _ => none

/-- The octets of a text in base 64. -/
def base64? (cs : List Char) : Option (List Nat) :=
  base64Groups? (cs.filter fun c => c != '\n' && c != '\r')

/-! ## Octets -/

/-- The value of a continuation octet. -/
def continuation? (octet : Nat) : Option Nat :=
  if 0x80 ≤ octet ∧ octet < 0xC0 then some (octet - 0x80) else none

/-- The value of the `n` continuation octets after a value. -/
def continued? (value : Nat) : Nat → List Nat → Option Nat
  | 0, _ => some value
  | _ + 1, [] => none
  | n + 1, o :: os => (continuation? o).bind fun v => continued? (value * 64 + v) n os

/-- The character that octets start with, and the number of octets after its
first one. -/
def firstChar? : List Nat → Option (Char × Nat)
  | [] => none
  | o :: os =>
    let read (value n least : Nat) : Option (Char × Nat) :=
      (continued? value n os).bind fun v =>
        if least ≤ v ∧ v.isValidChar then some (Char.ofNat v, n) else none
    if o < 0x80 then some (Char.ofNat o, 0)
    else if o < 0xC0 then none
    else if o < 0xE0 then read (o - 0xC0) 1 0x80
    else if o < 0xF0 then read (o - 0xE0) 2 0x800
    else if o < 0xF8 then read (o - 0xF0) 3 0x10000
    else none

/-- The characters of octets, of which the first `skip` have been read. -/
def ofOctetsFrom : Nat → List Nat → List Char
  | _, [] => []
  | skip + 1, _ :: os => ofOctetsFrom skip os
  | 0, o :: os =>
    match firstChar? (o :: os) with
    | some (c, n) => c :: ofOctetsFrom n os
    | none => '\uFFFD' :: ofOctetsFrom 0 os

/-- The characters of octets in UTF-8. -/
def ofOctets (os : List Nat) : List Char :=
  ofOctetsFrom 0 os

end SecdMachine.Text
