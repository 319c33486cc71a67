import SecdMachine.Double
import SecdMachine.Numeral
import SecdMachine.Text.Base64
import SecdMachine.Yaml.Timestamp

/-!
# SecdMachine.Yaml.Scalar

What a YAML scalar stands for.

1. The spellings of null, the booleans, infinity and not-a-number are fixed
   words.
2. A word that starts with a digit may be a timestamp.
3. A word that starts with a digit or a sign is an integer if, without its
   underscores, it is an integer literal of 64 bits, signed or unsigned.  In
   binary and octal literals the sign may also follow the radix mark.
4. Otherwise, or if it starts with a point, it is a number if it is a decimal
   fraction that a double can hold.
5. Everything else is a string.
6. A tag of one of these kinds demands a scalar of that kind, where an integer
   may serve as a fraction.  A tag for octets demands base 64.  With any other
   tag a scalar is a string.
-/

namespace SecdMachine.Yaml

/-- The value of a scalar. -/
inductive Scalar where
  | null
  | bool (b : Bool)
  /-- A number that is written as an integer. -/
  | integer (n : Int)
  /-- A number that is written as a fraction and read as a double: its value
  if that is an integer. -/
  | double (n : Option Int)
  /-- An infinity, or not a number. -/
  | notFinite
  | timestamp (t : Timestamp)
  | string (s : String)
deriving DecidableEq, Repr

/-! ## Decimal fractions -/

/-- A decimal fraction: an integer times a power of ten. -/
structure Decimal where
  negative : Bool
  digits : Nat
  exponent : Int
deriving DecidableEq, Repr

/-- Whether a character is an ASCII digit. -/
def isDigit (c : Char) : Bool :=
  '0' ≤ c && c ≤ '9'

/-- The number with the given digits. -/
def ofDigits (cs : List Char) : Nat :=
  cs.foldl (fun n c => n * 10 + (c.toNat - '0'.toNat)) 0

/-- Separates a sign, if there is one, from what follows it. -/
def splitSign : List Char → Bool × List Char
  | '-' :: cs => (true, cs)
  | '+' :: cs => (false, cs)
  | cs => (false, cs)

/-- Reads the exponent of a fraction, which may be missing, up to the end. -/
def readExponent? : List Char → Option Int
  | [] => some 0
  | c :: cs =>
    if c = 'e' ∨ c = 'E' then
      let (negative, ds) := splitSign cs
      if !ds.isEmpty && ds.all isDigit then
        some (if negative then -(ofDigits ds : Int) else ofDigits ds)
      else none
    else none

/-- The digits after a point, if there is one, and what follows them. -/
def splitFraction : List Char → List Char × List Char
  | '.' :: cs => (cs.takeWhile isDigit, cs.dropWhile isDigit)
  | cs => ([], cs)

/-- Reads a decimal fraction: digits with or without a point, and an
exponent. -/
def readDecimal? (cs : List Char) : Option Decimal :=
  let (negative, unsigned) := splitSign cs
  let whole := unsigned.takeWhile isDigit
  let (fraction, rest) := splitFraction (unsigned.dropWhile isDigit)
  if whole.isEmpty && fraction.isEmpty then none
  else
    (readExponent? rest).map fun e =>
      ⟨negative, ofDigits (whole ++ fraction), e - fraction.length⟩

/-- The magnitude of a decimal fraction as a double, unless it is too large
for one.  Whatever lies below the least double is zero. -/
def Decimal.magnitude? (d : Decimal) : Option Double.Dyadic :=
  if d.digits = 0 then some ⟨0, 0⟩
  else
    let size : Int := (Nat.toDigits 10 d.digits).length + d.exponent
    if 310 < size then none
    else if size < -330 then some ⟨0, 0⟩
    else
      let m := Double.ofRatio (d.digits * Nat.pow 10 d.exponent.toNat)
        (Nat.pow 10 (-d.exponent).toNat)
      match m.toNat? with
      | some n => if n < Nat.pow 2 1024 then some m else none
      | none => some m

/-- Reads a decimal fraction as a double. -/
def readDouble? (cs : List Char) : Option Scalar :=
  (readDecimal? cs).bind fun d =>
    d.magnitude?.map fun m =>
      .double (m.toNat?.map fun n => if d.negative then -(n : Int) else n)

/-! ## Plain scalars -/

/-- The scalars that are fixed words. -/
def words : List (String × Scalar) :=
  ["", "~", "null", "Null", "NULL"].map (·, .null) ++
    ["true", "True", "TRUE"].map (·, .bool true) ++
    ["false", "False", "FALSE"].map (·, .bool false) ++
    [".nan", ".NaN", ".NAN", ".inf", ".Inf", ".INF", "+.inf", "+.Inf", "+.INF", "-.inf", "-.Inf",
      "-.INF"].map (·, .notFinite)

/-- Reads an integer: a literal, whose underscores count for nothing. -/
def readInteger? (cs : List Char) : Option Scalar :=
  match Numeral.readInteger cs with
  | .ok n => some (.integer n)
  | .error _ =>
    match Numeral.readNatural cs with
    | .ok n => some (.integer n)
    | .error _ => none

/-- Reads an integer whose sign follows its radix mark. -/
def readMarked? : List Char → Option Scalar
  | '0' :: m :: sign :: c :: cs =>
    let radix := if m = 'b' then some 2 else if m = 'o' then some 8 else none
    match radix, Numeral.magnitude (radix.getD 10) Numeral.maxWord 0 (c :: cs) with
    | some _, .ok n =>
      let value : Option Int :=
        if sign = '+' then some n else if sign = '-' then some (-n) else none
      (value.filter Numeral.fits).map .integer
    | _, _ => none
  | _ => none

/-- Whether every underscore stands between two digits; `afterDigit` tells
whether a digit came before. -/
def separatesDigits (afterDigit : Bool) : List Char → Bool
  | [] => true
  | '_' :: c :: cs => afterDigit && isDigit c && separatesDigits true cs
  | ['_'] => false
  | c :: cs => separatesDigits (isDigit c) cs

/-- Reads a number; a timestamp comes first if `timestamps` is set. -/
def readNumber? (timestamps : Bool) : List Char → Option Scalar
  | [] => none
  | c :: cs =>
    let digits := (c :: cs).filter (· != '_')
    if c = '.' then
      if separatesDigits false (c :: cs) then readDouble? digits else none
    else if isDigit c || c == '+' || c == '-' then
      match if timestamps then Timestamp.read? (c :: cs) else none with
      | some t => some (.timestamp t)
      | none =>
        ((readInteger? digits).orElse fun _ => readDouble? digits).orElse fun _ =>
          readMarked? digits
    else none

/-- The scalar that a word stands for. -/
def ofWord (timestamps : Bool) (cs : List Char) : Scalar :=
  match words.lookup (String.ofList cs) with
  | some s => s
  | none => (readNumber? timestamps cs).getD (.string (String.ofList cs))

namespace Scalar

/-- The scalar that a plain word stands for. -/
def ofPlain (cs : List Char) : Scalar :=
  ofWord true cs

/-! ## Tags -/

/-- The tag of a scalar. -/
def tag : Scalar → String
  | .null => "!!null"
  | .bool _ => "!!bool"
  | .integer _ => "!!int"
  | .double _ | .notFinite => "!!float"
  | .timestamp _ => "!!timestamp"
  | .string _ => "!!str"

/-- The tags that demand a scalar of their kind. -/
def kindTags : List String :=
  ["!!null", "!!bool", "!!int", "!!float", "!!timestamp"]

/-- The scalar that a word with a tag stands for. -/
def ofTagged? (tag : String) (cs : List Char) : Option Scalar :=
  if tag = "!!binary" then
    (Text.base64? cs).map fun os => .string (String.ofList (Text.ofOctets os))
  else if kindTags.contains tag then
    match ofWord (tag == "!!timestamp") cs with
    | .integer n =>
      if tag = "!!float" && n ≤ Numeral.maxInt then some (.double (some (Double.read n)))
      else if tag = "!!int" then some (.integer n)
      else none
    | s => if s.tag = tag then some s else none
  else some (.string (String.ofList cs))

/-- The scalar that a text stands for: a plain word without a tag, a string in
quotes, or a text with a tag. -/
def resolve? (tag : Option String) (plain : Bool) (cs : List Char) : Option Scalar :=
  match tag with
  | some t => ofTagged? t cs
  | none => some (if plain then ofPlain cs else .string (String.ofList cs))

end Scalar

end SecdMachine.Yaml
