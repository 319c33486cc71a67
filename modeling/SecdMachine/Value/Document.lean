import SecdMachine.Json
import SecdMachine.Value

/-!
# SecdMachine.Value.Document

The JSON document of a value: an object that names the value's type, with the
payload in fields of its own.  Fields are in the order of their names, and
environments run from the bottom up.
-/

namespace SecdMachine.Value

/-- A list of locations as an array. -/
def locationsDocument (locations : List Nat) : Json :=
  .array (locations.map fun l : Nat => .number l)

mutual
/-- The document of a value. -/
def document : Value → Json
  | .int n => .object [("type", .string "int"), ("value", .number n)]
  | .bool b => .object [("type", .string "bool"), ("value", .bool b)]
  | .closure entry env =>
    .object [("env", .array (documents env).reverse), ("pc", .number entry),
      ("type", .string "closure")]
  | .frame entries env =>
    .object [("env", .array (documents env).reverse), ("fns", locationsDocument entries),
      ("type", .string "recursive frame")]
  | .focused index entries env =>
    .object [("env", .array (documents env).reverse), ("fns", locationsDocument entries),
      ("index", .number index), ("type", .string "focused function")]
  | .returnAddress location =>
    .object [("pc", .number location), ("type", .string "return address")]
  | .savedEnv env =>
    .object [("env", .array (documents env).reverse), ("type", .string "saved environment")]
  | .undefined => .object [("type", .string "undefined")]
  | .unknown => .object [("type", .string "unknown")]

/-- The documents of the values of a list, in the order of the list. -/
def documents : List Value → List Json
  | [] => []
  | v :: vs => document v :: documents vs
end

theorem documents_eq_map (vs : List Value) : documents vs = vs.map document := by
  induction vs with
  | nil => rfl
  | cons v vs ih => simp [documents, ih]

/-- The document of a stack or environment. -/
def listDocument (vs : List Value) : Json :=
  .array (vs.reverse.map document)

end SecdMachine.Value
