/-!
# SecdMachine.Numeral

Integers as they are written and read.

A literal is an optional sign and a numeral.  The numeral is hexadecimal,
octal or binary after `0x`, `0o` or `0b` (in either case), octal after any
other leading `0`, and decimal otherwise.  A single underscore may stand
between two digits, or between the radix mark and a digit; the leading `0` of
an octal numeral counts as a mark.  Values lie in the signed 64-bit range.

Reading goes from left to right, so a numeral that leaves the 64-bit range
before its first wrong character is out of range and not malformed.

A position (`positive?`) is a plain decimal numeral, above zero and below
2^32.
-/

namespace SecdMachine.Numeral

/-! ## Writing -/

/-- The decimal digits of a natural number. -/
def natural (n : Nat) : String :=
  String.ofList (Nat.toDigits 10 n)

/-- The decimal form of an integer, with a minus sign below zero. -/
def decimal : Int → String
  | .ofNat n => natural n
  | .negSucc n => "-" ++ natural (n + 1)

/-! ## Machine integers -/

/-- The least machine integer. -/
def minInt : Int := -9223372036854775808

/-- The greatest machine integer. -/
def maxInt : Int := 9223372036854775807

/-- The greatest unsigned 64-bit number. -/
def maxWord : Nat := 18446744073709551615

/-- Whether an integer is in the signed 64-bit range. -/
def fits (n : Int) : Bool :=
  minInt ≤ n && n ≤ maxInt

theorem fits_iff {n : Int} :
    fits n = true ↔ -9223372036854775808 ≤ n ∧ n ≤ 9223372036854775807 := by
  rw [fits, Bool.and_eq_true, decide_eq_true_eq, decide_eq_true_eq, minInt, maxInt]

/-! ## Reading literals -/

/-- Why a text is no literal. -/
inductive Error where
  | malformed
  | outOfRange
deriving DecidableEq, Repr

/-- The value of a digit, where the letters of either case follow the nine. -/
def digitValue? (c : Char) : Option Nat :=
  if '0' ≤ c ∧ c ≤ '9' then some (c.toNat - '0'.toNat)
  else if 'a' ≤ c ∧ c ≤ 'z' then some (c.toNat - 'a'.toNat + 10)
  else if 'A' ≤ c ∧ c ≤ 'Z' then some (c.toNat - 'A'.toNat + 10)
  else none

/-- The value of a digit of the given radix. -/
def digit? (radix : Nat) (c : Char) : Option Nat :=
  (digitValue? c).filter (· < radix)

/-- The radix that a letter after a leading zero marks. -/
def radixMark? (c : Char) : Option Nat :=
  if c = 'x' ∨ c = 'X' then some 16
  else if c = 'o' ∨ c = 'O' then some 8
  else if c = 'b' ∨ c = 'B' then some 2
  else none

/-- A numeral without its radix mark. -/
structure Body where
  radix : Nat
  /-- Whether a mark, which may be followed by an underscore, came first. -/
  marked : Bool
  digits : List Char
deriving DecidableEq, Repr

/-- Separates the radix mark of a numeral from its digits.  A mark of two
characters is one only if something follows it. -/
def Body.ofChars : List Char → Body
  | '0' :: m :: c :: cs =>
    match radixMark? m with
    | some radix => ⟨radix, true, c :: cs⟩
    | none => ⟨8, true, m :: c :: cs⟩
  | '0' :: cs => ⟨8, true, cs⟩
  | cs => ⟨10, false, cs⟩

/-- Whether every underscore stands between two digits, and the last
character is a digit; `afterDigit` tells whether what came before ends in a
digit. -/
def wellSpaced (afterDigit : Bool) : List Char → Bool
  | [] => afterDigit
  | c :: cs => if c = '_' then afterDigit && wellSpaced false cs else wellSpaced true cs

/-- Continues the value `acc` with more digits, skipping underscores, up to
the value `limit`. -/
def magnitude (radix limit : Nat) (acc : Nat) : List Char → Except Error Nat
  | [] => .ok acc
  | c :: cs =>
    if c = '_' then magnitude radix limit acc cs
    else match digit? radix c with
      | none => .error .malformed
      | some d =>
        if limit < acc * radix + d then .error .outOfRange
        else magnitude radix limit (acc * radix + d) cs

/-- Reads a numeral without sign, in the unsigned 64-bit range. -/
def readNatural (cs : List Char) : Except Error Nat :=
  let body := Body.ofChars cs
  match magnitude body.radix maxWord 0 body.digits with
  | .error e => .error e
  | .ok n => if wellSpaced body.marked body.digits then .ok n else .error .malformed

/-- An integer if it is in the signed 64-bit range. -/
def checked (n : Int) : Except Error Int :=
  if fits n then .ok n else .error .outOfRange

/-- Reads an integer literal. -/
def readInteger : List Char → Except Error Int
  | '-' :: cs => (readNatural cs).bind fun n => checked (-n)
  | '+' :: cs => (readNatural cs).bind fun n => checked n
  | cs => (readNatural cs).bind fun n => checked n

/-! ## Reading positions -/

/-- Reads a decimal numeral of at least one digit, without sign, underscores
or mark. -/
def readDigits? : List Char → Option Nat
  | [] => none
  | cs =>
    if cs.all (fun c => '0' ≤ c && c ≤ '9') then
      some (cs.foldl (fun n c => n * 10 + (c.toNat - '0'.toNat)) 0)
    else
      none

/-- Reads a decimal numeral above zero and below 2^32. -/
def positive? (cs : List Char) : Option Nat :=
  (readDigits? cs).filter fun n => 0 < n && n < 4294967296

end SecdMachine.Numeral
