import SecdMachine.Numeral
import SecdMachine.Text.Words
import SecdMachine.Value

/-!
# SecdMachine.Value.Printer

The text of a value as states and reports show it.  Locations are written
after an `@`, and a stack or environment as a bracketed list from the bottom
up.
-/

namespace SecdMachine

/-- A location in a program, `@7`. -/
def describeLocation (location : Nat) : String :=
  "@" ++ Numeral.natural location

/-- Several locations, separated by spaces. -/
def describeLocations (locations : List Nat) : String :=
  Text.join " " (locations.map describeLocation)

namespace Value

/-- The texts of a list, bracketed and separated by commas. -/
def bracket (items : List String) : String :=
  "[" ++ Text.join ", " items ++ "]"

mutual
/-- The text of a value. -/
def describe : Value → String
  | .int n => Numeral.decimal n
  | .bool true => "true"
  | .bool false => "false"
  | .closure entry env =>
    "closure(" ++ describeLocation entry ++ ", " ++ bracket (describeEach env).reverse ++ ")"
  | .frame entries env =>
    "frame(" ++ describeLocations entries ++ ", " ++ bracket (describeEach env).reverse ++ ")"
  | .focused index entries env =>
    "focus " ++ Numeral.decimal index ++ " of (" ++ describeLocations entries ++ ", " ++
      bracket (describeEach env).reverse ++ ")"
  | .returnAddress location => "return " ++ describeLocation location
  | .savedEnv env => "saved " ++ bracket (describeEach env).reverse
  | .undefined => "undefined"
  | .unknown => "undefined"

/-- The texts of the values of a list, in the order of the list. -/
def describeEach : List Value → List String
  | [] => []
  | v :: vs => describe v :: describeEach vs
end

theorem describeEach_eq_map (vs : List Value) : describeEach vs = vs.map describe := by
  induction vs with
  | nil => rfl
  | cons v vs ih => simp [describeEach, ih]

/-- The text of a stack or environment as one bracketed list. -/
def describeList (vs : List Value) : String :=
  bracket (vs.reverse.map describe)

/-- The environment inside a value is shown as a list of its own. -/
theorem bracket_describeEach (env : List Value) :
    bracket (describeEach env).reverse = describeList env := by
  rw [describeEach_eq_map, describeList, List.map_reverse]

theorem describe_int (n : Int) : (int n).describe = Numeral.decimal n := rfl

theorem describe_closure (entry : Nat) (env : List Value) :
    (closure entry env).describe =
      "closure(" ++ describeLocation entry ++ ", " ++ describeList env ++ ")" := by
  rw [← bracket_describeEach]
  rfl

theorem describe_frame (entries : List Nat) (env : List Value) :
    (frame entries env).describe =
      "frame(" ++ describeLocations entries ++ ", " ++ describeList env ++ ")" := by
  rw [← bracket_describeEach]
  rfl

theorem describe_focused (index : Int) (entries : List Nat) (env : List Value) :
    (focused index entries env).describe =
      "focus " ++ Numeral.decimal index ++ " of (" ++ describeLocations entries ++ ", " ++
        describeList env ++ ")" := by
  rw [← bracket_describeEach]
  rfl

theorem describe_returnAddress (location : Nat) :
    (returnAddress location).describe = "return " ++ describeLocation location := rfl

theorem describe_savedEnv (env : List Value) :
    (savedEnv env).describe = "saved " ++ describeList env := by
  rw [← bracket_describeEach]
  rfl

/-- The text of a stack or environment with one value on each line. -/
def describeLines (vs : List Value) : String :=
  Text.unlines (vs.reverse.map describe)

end Value

end SecdMachine
