import SecdMachine.Double
import SecdMachine.Json

/-!
# SecdMachine.Json.Patch

The difference between two documents as a list of changes, each of which
removes, replaces or adds the value at a path.  Numbers are compared and
written as double-precision numbers.

1. Values of different kinds, and unequal scalars, are replaced.
2. The fields of two objects are gone through in the order of their names: a
   field of both is compared, a field of only one is removed or added.
3. Of two arrays, what the second lacks at its end is removed first, always at
   the index where the second ends; then the common items are compared, and
   what the first lacks is added at the end.
-/

namespace SecdMachine

/-- One step of a path into a document. -/
inductive Json.Step where
  | key (name : String)
  | index (i : Nat)
  | last
deriving DecidableEq, Repr

/-- A path into a document, from the outside in. -/
abbrev Json.Path := List Json.Step

/-- A change to a document. -/
inductive Json.Change where
  | remove (path : Json.Path)
  | replace (path : Json.Path) (value : Json)
  | add (path : Json.Path) (value : Json)
deriving Repr

namespace Json

/-! ## Differences -/

mutual
/-- The changes that turn the first document, which stands at `path`, into the
second. -/
def diff (path : Path) : Json → Json → List Change
  | .bool a, b =>
    match b with
    | .bool b' => if a = b' then [] else [.replace path b]
    | _ => [.replace path b]
  | .number a, b =>
    match b with
    | .number b' => if a = b' then [] else [.replace path b]
    | _ => [.replace path b]
  | .string a, b =>
    match b with
    | .string b' => if a = b' then [] else [.replace path b]
    | _ => [.replace path b]
  | .array as, b =>
    match b with
    | .array bs =>
      List.replicate (as.length - bs.length) (.remove (path ++ [.index bs.length])) ++
        diffItems path 0 as bs
    | _ => [.replace path b]
  | .object as, b =>
    match b with
    | .object bs => diffFields path as bs
    | _ => [.replace path b]

/-- The changes to the common items of two arrays from index `i` on, and the
additions of the items that only the second has. -/
def diffItems (path : Path) (i : Nat) : List Json → List Json → List Change
  | [], bs => bs.map fun b => .add (path ++ [.last]) b
  | _ :: _, [] => []
  | a :: as, b :: bs => diff (path ++ [.index i]) a b ++ diffItems path (i + 1) as bs

/-- The changes between two lists of fields, both in the order of their
names. -/
def diffFields (path : Path) : List (String × Json) → List (String × Json) → List Change
  | [], bs => bs.map fun (k, b) => .add (path ++ [.key k]) b
  | (k, a) :: as, bs =>
    (bs.takeWhile (·.1 < k)).map (fun (k', b) => .add (path ++ [.key k']) b) ++
      match bs.dropWhile (·.1 < k) with
      | [] => .remove (path ++ [.key k]) :: diffFields path as []
      | (k', b) :: rest =>
        if k' = k then diff (path ++ [.key k]) a b ++ diffFields path as rest
        else .remove (path ++ [.key k]) :: diffFields path as ((k', b) :: rest)
end

/-! ## Text -/

/-- The name of a field inside a path, where `~` and `/` are escaped. -/
def escapeKey (name : String) : String :=
  String.ofList (name.toList.flatMap fun c =>
    if c = '~' then ['~', '0'] else if c = '/' then ['~', '1'] else [c])

/-- The text of one step of a path. -/
def Step.text : Step → String
  | .key name => "/" ++ escapeKey name
  | .index i => "/" ++ Numeral.natural i
  | .last => "/-"

/-- The text of a path. -/
def Path.text (path : Path) : String :=
  Text.concat (path.map Step.text)

/-- The compact text of a document whose numbers are doubles. -/
def compactDoubles (j : Json) : String :=
  (j.mapNumbers Double.written).compact

/-- The text of a change. -/
def Change.text : Change → String
  | .remove path => "remove " ++ Path.text path
  | .replace path value => "replace " ++ Path.text path ++ " " ++ compactDoubles value
  | .add path value => "add " ++ Path.text path ++ " " ++ compactDoubles value

/-- The changes that turn one document into another when the numbers of both
are read as doubles. -/
def changes (before after : Json) : List Change :=
  diff [] (before.mapNumbers Double.read) (after.mapNumbers Double.read)

end Json

end SecdMachine
