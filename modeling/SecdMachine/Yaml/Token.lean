import SecdMachine.Yaml.Cell

/-!
# SecdMachine.Yaml.Token

The tokens of a YAML stream, and the readers of those that are built from
names: anchors, aliases, tags and directives.

1. The name of an anchor consists of ASCII letters and digits, hyphens and
   underscores.
2. A tag is a handle and a suffix, or a text in angle brackets.  An escape in
   it stands for an octet, and the octets make up characters.
3. There are two directives: the version of the language, and the text that a
   tag handle stands for.
-/

namespace SecdMachine.Yaml

/-- A token of a YAML stream. -/
inductive Token where
  | streamEnd
  /-- The version of the language that a document is written in. -/
  | version (major minor : Nat)
  /-- The text that a tag handle stands for. -/
  | handle (name text : String)
  | documentStart
  | documentEnd
  | blockSequenceStart
  | blockMappingStart
  | blockEnd
  | flowSequenceStart
  | flowSequenceEnd
  | flowMappingStart
  | flowMappingEnd
  | blockEntry
  | flowEntry
  | key
  | value
  | alias (name : String)
  | anchor (name : String)
  | tag (handle suffix : String)
  | scalar (plain : Bool) (text : String)
deriving DecidableEq, Repr

/-! ## Names -/

/-- The name that a text starts with, and the rest. -/
def splitName (cs : List Cell) : List Char × List Cell :=
  ((cs.takeWhile (isNameChar ·.char)).map (·.char), cs.dropWhile (isNameChar ·.char))

/-- The characters that may follow the name of an anchor. -/
def endsAnchor (c : Char) : Bool :=
  endsWord c || c == '?' || c == ':' || c == ',' || c == ']' || c == '\x7d' || c == '%' ||
    c == '@' || c.toNat == 0x60

/-- Reads the name of an anchor or an alias. -/
def readAnchor? (cs : List Cell) : Option (String × List Cell) :=
  let (name, rest) := splitName cs
  if !name.isEmpty && endsAnchor (charAt 0 rest) then some (String.ofList name, rest) else none

/-! ## Tags -/

/-- The characters of a tag, of which the percent sign starts an escape. -/
def isTagChar (c : Char) : Bool :=
  isNameChar c || c == ';' || c == '/' || c == '?' || c == ':' || c == '@' || c == '&' ||
    c == '=' || c == '+' || c == '$' || c == ',' || c == '.' || c == '!' || c == '~' ||
    c == '*' || c == '\'' || c == '(' || c == ')' || c == '[' || c == ']' || c == '%'

/-- The number of octets of a character in UTF-8, by its first octet. -/
def octetCount? (octet : Nat) : Option Nat :=
  if octet < 0x80 then some 1
  else if octet < 0xC0 then none
  else if octet < 0xE0 then some 2
  else if octet < 0xF0 then some 3
  else if octet < 0xF8 then some 4
  else none

/-- Reads the characters of a tag after `text`, which is kept last character
first.  An escape stands for an octet; `left` octets are still to come. -/
def readTagCharsFrom (left : Nat) (text : List Char) : List Cell → Option (List Char × List Cell)
  | [] => none
  | c :: cs =>
    if c.char = '%' then
      match cs with
      | a :: b :: rest =>
        match hexDigit? a.char, hexDigit? b.char with
        | some x, some y =>
          let octet := x * 16 + y
          if 0 < left then
            if octet / 64 = 2 then readTagCharsFrom (left - 1) (Char.ofNat octet :: text) rest
            else none
          else
            match octetCount? octet with
            | some n => readTagCharsFrom (n - 1) (Char.ofNat octet :: text) rest
            | none => none
        | _, _ => none
      | _ => none
    else if 0 < left then none
    else if isTagChar c.char then readTagCharsFrom 0 (c.char :: text) cs
    else some (text.reverse, c :: cs)

/-- Reads at least one character of a tag. -/
def readTagChars? (cs : List Cell) : Option (List Char × List Cell) :=
  (readTagCharsFrom 0 [] cs).filter fun (text, _) => !text.isEmpty

/-- The handle that a tag starts with: an exclamation mark, a name and, if
there is one, another exclamation mark. -/
def splitHandle (cs : List Cell) : List Char × List Cell :=
  let (name, rest) := splitName (cs.drop 1)
  if charAt 0 rest = '!' then ('!' :: name ++ ['!'], rest.drop 1) else ('!' :: name, rest)

/-- Reads a tag: in angle brackets, after a handle of two marks, or after the
handle of one mark.  A lone mark is a tag of its own. -/
def readTagBody? (cs : List Cell) : Option (Token × List Cell) :=
  if charAt 1 cs = '<' then
    (readTagChars? (cs.drop 2)).bind fun (text, rest) =>
      if charAt 0 rest = '>' then some (.tag "" (String.ofList text), rest.drop 1) else none
  else
    let (handle, rest) := splitHandle cs
    if 1 < handle.length && handle.getLast? == some '!' then
      (readTagChars? rest).map fun (text, rest) =>
        (.tag (String.ofList handle) (String.ofList text), rest)
    else
      (readTagCharsFrom 0 (handle.drop 1).reverse rest).map fun (text, rest) =>
        (if text.isEmpty then .tag "" "!" else .tag "!" (String.ofList text), rest)

/-- Reads a tag, which white space ends. -/
def readTag? (cs : List Cell) : Option (Token × List Cell) :=
  (readTagBody? cs).filter fun (_, rest) => endsWord (charAt 0 rest)

/-! ## Directives -/

/-- Reads a number of one or two digits. -/
def readVersionNumber? (cs : List Cell) : Option (Nat × List Cell) :=
  let digits := (cs.takeWhile (·.char.isDigit)).map (·.char)
  if digits.isEmpty || 2 < digits.length then none
  else
    some (digits.foldl (fun n c => n * 10 + (c.toNat - '0'.toNat)) 0,
      cs.dropWhile (·.char.isDigit))

/-- Reads the version of the language. -/
def readVersion? (cs : List Cell) : Option (Token × List Cell) :=
  (readVersionNumber? (dropWhite cs)).bind fun (major, rest) =>
    if charAt 0 rest = '.' then
      (readVersionNumber? (rest.drop 1)).map fun (minor, rest) => (.version major minor, rest)
    else none

/-- Reads a tag handle and the text that it stands for. -/
def readHandle? (cs : List Cell) : Option (Token × List Cell) :=
  let cs := dropWhite cs
  let (name, rest) := splitHandle cs
  if charAt 0 cs = '!' && name.getLast? == some '!' && isWhite (charAt 0 rest) then
    (readTagChars? (dropWhite rest)).bind fun (text, rest) =>
      if endsWord (charAt 0 rest) then
        some (.handle (String.ofList name) (String.ofList text), rest)
      else none
  else none

/-- Reads a directive after its percent sign, to the end of its line. -/
def readDirective? (cs : List Cell) : Option (Token × List Cell) :=
  let (name, rest) := splitName cs
  if endsWord (charAt 0 rest) then
    let result :=
      if name = "YAML".toList then readVersion? rest
      else if name = "TAG".toList then readHandle? rest
      else none
    result.bind fun (token, rest) => (nextLine? rest).map fun rest => (token, rest)
  else none

end SecdMachine.Yaml
