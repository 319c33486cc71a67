import SecdMachine.Numeral
import SecdMachine.Text.Quoted
import SecdMachine.Text.Words

/-!
# SecdMachine.Json

JSON documents of integers, booleans, strings, arrays and objects, and their
compact and indented texts.  The fields of an object are kept in the order
in which they are written; documents of values and states are built with
their fields in the order of their names.
-/

namespace SecdMachine

/-- A JSON document. -/
inductive Json where
  | bool (b : Bool)
  | number (n : Int)
  | string (s : String)
  | array (items : List Json)
  | object (fields : List (String × Json))
deriving Repr, Inhabited

namespace Json

/-! ## Parts of the text -/

/-- A character inside a JSON string. -/
def escapeChar (c : Char) : List Char :=
  if c = '"' ∨ c = '\\' then ['\\', c]
  else if c.toNat < 0x20 then '\\' :: 'u' :: Text.hexadecimal 4 c.toNat
  else [c]

/-- A JSON string with its quotes. -/
def quote (s : String) : String :=
  "\"" ++ String.ofList (s.toList.flatMap escapeChar) ++ "\""

/-- The text of a boolean. -/
def boolText (b : Bool) : String :=
  if b then "true" else "false"

/-- A line feed and the indentation of the given depth, two spaces a level. -/
def newline (depth : Nat) : String :=
  "\n" ++ String.ofList (List.replicate (2 * depth) ' ')

/-- An array or object over several lines, with its parts one level deeper
than itself; without parts, on one line. -/
def block (opening closing : String) (depth : Nat) : List String → String
  | [] => opening ++ closing
  | parts =>
    opening ++ Text.join "," (parts.map (newline (depth + 1) ++ ·)) ++ newline depth ++ closing

/-! ## Compact text -/

mutual
/-- The text of a document without any white space. -/
def compact : Json → String
  | .bool b => boolText b
  | .number n => Numeral.decimal n
  | .string s => quote s
  | .array items => "[" ++ Text.join "," (compactItems items) ++ "]"
  | .object fields => "\x7b" ++ Text.join "," (compactFields fields) ++ "\x7d"

/-- The texts of the items of an array. -/
def compactItems : List Json → List String
  | [] => []
  | j :: js => compact j :: compactItems js

/-- The texts of the fields of an object. -/
def compactFields : List (String × Json) → List String
  | [] => []
  | (k, j) :: fs => (quote k ++ ":" ++ compact j) :: compactFields fs
end

theorem compactItems_eq_map (js : List Json) : compactItems js = js.map compact := by
  induction js with
  | nil => rfl
  | cons j js ih => simp [compactItems, ih]

theorem compactFields_eq_map (fs : List (String × Json)) :
    compactFields fs = fs.map fun f => quote f.1 ++ ":" ++ compact f.2 := by
  induction fs with
  | nil => rfl
  | cons f fs ih => simp [compactFields, ih]

/-! ## Indented text -/

mutual
/-- The text of a document with each item and field on a line of its own, as
it stands at the given depth. -/
def indented (depth : Nat) : Json → String
  | .bool b => boolText b
  | .number n => Numeral.decimal n
  | .string s => quote s
  | .array items => block "[" "]" depth (indentedItems (depth + 1) items)
  | .object fields => block "\x7b" "\x7d" depth (indentedFields (depth + 1) fields)

/-- The indented texts of the items of an array. -/
def indentedItems (depth : Nat) : List Json → List String
  | [] => []
  | j :: js => indented depth j :: indentedItems depth js

/-- The indented texts of the fields of an object. -/
def indentedFields (depth : Nat) : List (String × Json) → List String
  | [] => []
  | (k, j) :: fs => (quote k ++ ": " ++ indented depth j) :: indentedFields depth fs
end

theorem indentedItems_eq_map (depth : Nat) (js : List Json) :
    indentedItems depth js = js.map (indented depth) := by
  induction js with
  | nil => rfl
  | cons j js ih => simp [indentedItems, ih]

theorem indentedFields_eq_map (depth : Nat) (fs : List (String × Json)) :
    indentedFields depth fs = fs.map fun f => quote f.1 ++ ": " ++ indented depth f.2 := by
  induction fs with
  | nil => rfl
  | cons f fs ih => simp [indentedFields, ih]

/-! ## Numbers -/

mutual
/-- The document with `f` applied to each of its numbers. -/
def mapNumbers (f : Int → Int) : Json → Json
  | .bool b => .bool b
  | .number n => .number (f n)
  | .string s => .string s
  | .array items => .array (mapNumbersItems f items)
  | .object fields => .object (mapNumbersFields f fields)

/-- The same for the items of an array. -/
def mapNumbersItems (f : Int → Int) : List Json → List Json
  | [] => []
  | j :: js => mapNumbers f j :: mapNumbersItems f js

/-- The same for the fields of an object. -/
def mapNumbersFields (f : Int → Int) : List (String × Json) → List (String × Json)
  | [] => []
  | (k, j) :: fs => (k, mapNumbers f j) :: mapNumbersFields f fs
end

theorem mapNumbersItems_eq_map (f : Int → Int) (js : List Json) :
    mapNumbersItems f js = js.map (mapNumbers f) := by
  induction js with
  | nil => rfl
  | cons j js ih => simp [mapNumbersItems, ih]

theorem mapNumbersFields_eq_map (f : Int → Int) (fs : List (String × Json)) :
    mapNumbersFields f fs = fs.map fun (k, j) => (k, mapNumbers f j) := by
  induction fs with
  | nil => rfl
  | cons field fs ih => simp [mapNumbersFields, ih]

end Json

end SecdMachine
