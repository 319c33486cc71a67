/-!
# SecdMachine.Yaml.Timestamp

Dates and times in plain scalars.

1. A date is a year of four digits, a month and a day of one or two digits,
   with hyphens between them.
2. A time is an hour, a minute and a second of one or two digits, with colons
   between them.  A point or comma and digits may follow.
3. A date stands alone, or a time follows it: after a `T` with a time zone, or
   after spaces without one.  A time zone is a `Z`, or a sign and an hour and a
   minute of two digits.
4. Days, hours, minutes and seconds are in range; a time zone may be up to 24
   hours and 60 minutes away.
-/

namespace SecdMachine.Yaml

/-- A point in time: what a timestamp needs to be written again. -/
structure Timestamp where
  year : Nat
  month : Nat
  day : Nat
  /-- Minutes from the time zone to universal time. -/
  offset : Nat
deriving DecidableEq, Repr

namespace Timestamp

/-- The value of a decimal digit. -/
def digit? (c : Char) : Option Nat :=
  if '0' ≤ c ∧ c ≤ '9' then some (c.toNat - '0'.toNat) else none

/-- Reads a number of one or two digits, as many as there are. -/
def number? : List Char → Option (Nat × List Char)
  | [] => none
  | a :: cs =>
    (digit? a).map fun x =>
      match cs with
      | b :: rest =>
        match digit? b with
        | some y => (x * 10 + y, rest)
        | none => (x, cs)
      | [] => (x, cs)

/-- Reads a number of two digits. -/
def twoDigits? : List Char → Option (Nat × List Char)
  | a :: b :: rest =>
    match digit? a, digit? b with
    | some x, some y => some (x * 10 + y, rest)
    | _, _ => none
  | _ => none

/-- What follows a character that has to come first. -/
def after? (c : Char) : List Char → Option (List Char)
  | d :: rest => if c = d then some rest else none
  | [] => none

/-- Whether a year has a leap day. -/
def isLeap (year : Nat) : Bool :=
  year % 4 == 0 && (year % 100 != 0 || year % 400 == 0)

/-- The number of days of a month. -/
def daysIn (year month : Nat) : Nat :=
  match month with
  | 2 => if isLeap year then 29 else 28
  | 4 | 6 | 9 | 11 => 30
  | _ => 31

/-- Reads a date. -/
def date? : List Char → Option (Timestamp × List Char)
  | a :: b :: cs => do
    let (century, _) ← twoDigits? [a, b]
    let (year, rest) ← twoDigits? cs
    let rest ← after? '-' rest
    let (month, rest) ← number? rest
    let rest ← after? '-' rest
    let (day, rest) ← number? rest
    let year := century * 100 + year
    guard (1 ≤ month && month ≤ 12 && 1 ≤ day && day ≤ daysIn year month)
    pure (⟨year, month, day, 0⟩, rest)
  | _ => none

/-- Skips the fraction of a second, if there is one. -/
def dropFraction : List Char → List Char
  | c :: d :: cs =>
    if (c = '.' ∨ c = ',') ∧ (digit? d).isSome then cs.dropWhile fun e => (digit? e).isSome
    else c :: d :: cs
  | cs => cs

/-- Reads a time, and gives what follows it. -/
def time? (cs : List Char) : Option (List Char) := do
  let (hour, rest) ← number? cs
  let rest ← after? ':' rest
  let (minute, rest) ← number? rest
  let rest ← after? ':' rest
  let (second, rest) ← number? rest
  guard (hour < 24 && minute < 60 && second < 60)
  pure (dropFraction rest)

/-- Reads a time zone up to the end of the text. -/
def zone? : List Char → Option Nat
  | ['Z'] => some 0
  | sign :: cs => do
    guard (sign == '+' || sign == '-')
    let (hour, rest) ← twoDigits? cs
    let rest ← after? ':' rest
    let (minute, rest) ← twoDigits? rest
    guard (hour ≤ 24 && minute ≤ 60 && rest.isEmpty)
    pure (hour * 60 + minute)
  | [] => none

/-- Reads a timestamp. -/
def read? (cs : List Char) : Option Timestamp := do
  let (t, rest) ← date? cs
  match rest with
  | [] => pure t
  | c :: cs =>
    if c = 'T' ∨ c = 't' then
      let rest ← time? cs
      let offset ← zone? rest
      pure { t with offset := offset }
    else if c = ' ' then
      let rest ← time? (cs.dropWhile (· == ' '))
      guard rest.isEmpty
      pure t
    else none

/-- Whether a timestamp can be written as a standard date and time: its time
zone is less than a day away. -/
def isStandard (t : Timestamp) : Bool :=
  t.offset < 24 * 60

end Timestamp

end SecdMachine.Yaml
