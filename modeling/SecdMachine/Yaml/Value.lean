import SecdMachine.Yaml.Node
import SecdMachine.Yaml.Scalar

/-!
# SecdMachine.Yaml.Value

What the nodes of a document stand for.

1. The keys of a mapping are written differently from one another.  In a
   mapping inside the document they are strings; in the document itself every
   scalar key counts as its text, and an entry whose key is null is passed
   over.
2. An entry with the key `<<` merges: its value is a mapping, or a sequence of
   mappings, whose fields are added for names that have none yet.
3. Of two fields with one name, which an alias can bring about, the last one
   counts.
4. The values that count can be written as data: numbers are finite, timestamps
   standard, and nothing is nested too deeply.
5. A document may not consist mostly of what its aliases repeat (`Effort`).
-/

namespace SecdMachine.Yaml

/-- A value. -/
inductive Value where
  | null
  | bool (b : Bool)
  /-- A number that is written as an integer. -/
  | integer (n : Int)
  /-- A number that is written as a fraction and read as a double: its value
  if that is an integer. -/
  | double (n : Option Int)
  | string (s : String)
  | sequence (items : List Value)
  | mapping (fields : List (String × Value))
  /-- A value that cannot be written as data. -/
  | other
deriving Repr

/-- The fields of a mapping. -/
abbrev Fields := List (String × Value)

/-- The last field of each name. -/
def Fields.latest : Fields → Fields
  | [] => []
  | f :: fs => if fs.any (·.1 == f.1) then latest fs else f :: latest fs

/-- Fields with different names are all the last of their name. -/
theorem Fields.latest_eq_self {fs : Fields} (h : (fs.map (·.1)).Nodup) :
    Fields.latest fs = fs := by
  induction fs with
  | nil => rfl
  | cons f fs ih =>
    simp only [List.map_cons, List.nodup_cons, List.mem_map, not_exists, not_and] at h
    have hf : fs.any (·.1 == f.1) = false := by simpa using fun a b hab => h.1 (a, b) hab
    simp [latest, hf, ih h.2]

/-! ## Effort -/

/-- How many nodes have been read, and how many of them because of an alias. -/
structure Effort where
  nodes : Nat := 0
  repeated : Nat := 0
deriving DecidableEq, Repr

/-- Whether aliases repeat too much: more than 99 of 100 nodes of a document of
up to 400000 nodes, and less in larger ones, down to 10 of 100 from 4000000
nodes on.  Small documents may repeat what they want. -/
def Effort.isExcessive (e : Effort) : Bool :=
  100 < e.repeated && 1000 < e.nodes &&
    (if e.nodes ≤ 400000 then 99 * e.nodes < 100 * e.repeated
    else if 4000000 ≤ e.nodes then e.nodes < 10 * e.repeated
    else
      (99 * 3600000 - 89 * (e.nodes - 400000)) * e.nodes < 100 * 3600000 * e.repeated)

/-- A computation that reads nodes, and may fail. -/
abbrev Visit := StateT Effort Option

/-- Counts a node; `repeated` tells whether it belongs to an alias. -/
def visit (repeated : Bool) : Visit Unit := fun e =>
  let e : Effort := ⟨e.nodes + 1, if repeated then e.repeated + 1 else e.repeated⟩
  if e.isExcessive then none else some ((), e)

/-! ## Keys -/

/-- Whether a key merges its value into the mapping. -/
def Node.isMerge : Node → Bool
  | .scalar tag plain text =>
    text == "<<" && (tag == some "!!merge" || (tag == none && plain))
  | _ => false

/-- Whether two keys count as the same. -/
def Node.sameKey : Node → Node → Bool
  | .scalar _ _ s, .scalar _ _ t => s == t
  | .sequence _, .sequence _ => true
  | .mapping _, .mapping _ => true
  | .alias s _, .alias t _ => s == t
  | .alias s _, .circle t => s == t
  | .circle s, .alias t _ => s == t
  | .circle s, .circle t => s == t
  | _, _ => false

/-- Whether no two keys of a mapping count as the same. -/
def distinctKeys : List (Node × Node) → Bool
  | [] => true
  | (k, _) :: es => es.all (fun e => !k.sameKey e.1) && distinctKeys es

/-- Whether the tag of a key is that of strings, or that of merging. -/
def Node.isStringKey : Node → Bool
  | .scalar (some tag) _ _ => tag == "!!str" || tag == "!!merge"
  | .scalar none plain text =>
    !plain || text == "<<" || (Scalar.ofPlain text.toList).tag == "!!str"
  | .alias _ target => target.isStringKey
  | _ => false

/-- The name of a field: the text of its key, and none if the key is null. -/
def Node.fieldName (repeated : Bool) : Node → Visit (Option String)
  | .scalar tag plain text => do
    visit repeated
    match ← Scalar.resolve? tag plain text.toList with
    | .null => pure none
    | .string s => pure (some s)
    | _ => pure (some text)
  | .alias _ target => do
    visit repeated
    target.fieldName true
  | _ => failure

/-- The string that a key stands for, if it stands for one. -/
def Node.keyString (repeated : Bool) : Node → Visit (Option String)
  | .scalar tag plain text => do
    visit repeated
    match ← Scalar.resolve? tag plain text.toList with
    | .string s => pure (some s)
    | _ => pure none
  | .alias _ target => do
    visit repeated
    target.keyString true
  | _ => failure

/-- The strings among the keys of a mapping. -/
def keyStrings (repeated : Bool) : List (Node × Node) → Visit (List String)
  | [] => pure []
  | (k, _) :: es => do
    let name ← k.keyString repeated
    return name.toList ++ (← keyStrings repeated es)

/-! ## Values -/

/-- The value of a scalar with the given text.  A timestamp is a string. -/
def Scalar.toValue (text : String) : Scalar → Value
  | .null => .null
  | .bool b => .bool b
  | .integer n => .integer n
  | .double n => .double n
  | .notFinite => .other
  | .timestamp t => if t.isStandard then .string text else .other
  | .string s => .string s

/-- The fields of a mapping: its own, and those that it merges for the names
that are not among its keys. -/
def joinFields (repeated : Bool) (entries : List (Node × Node)) (own : Visit Fields)
    (merged : List String → Visit Fields) : Visit Fields := do
  if distinctKeys entries then
    let fields ← own
    if entries.any (·.1.isMerge) then
      let seen ← keyStrings repeated entries
      return fields ++ (← merged seen)
    else pure fields
  else failure

/-- The fields of a mapping that is itself merged: its own, and those that it
merges for names that are neither among these nor in `seen`. -/
def joinMerged (seen : List String) (entries : List (Node × Node)) (own : Visit Fields)
    (merged : List String → Visit Fields) : Visit Fields := do
  if distinctKeys entries then
    let fields ← own
    return fields ++ (← merged (fields.map (·.1) ++ seen))
  else failure

mutual
/-- The value of a node. -/
def Node.value (repeated : Bool) : Node → Visit Value
  | .scalar tag plain text => do
    visit repeated
    let s ← Scalar.resolve? tag plain text.toList
    return s.toValue text
  | .sequence items => do
    visit repeated
    return .sequence (← values repeated items)
  | .mapping entries => do
    visit repeated
    let fields ← joinFields repeated entries (fieldsOf repeated none entries)
      fun seen => mergedFields repeated seen entries
    return if entries.all (·.1.isStringKey) then .mapping (Fields.latest fields) else .other
  | .alias _ target => do
    visit repeated
    target.value true
  | .circle _ => failure

/-- The values of the items of a sequence. -/
def values (repeated : Bool) : List Node → Visit (List Value)
  | [] => pure []
  | n :: ns => do
    let v ← n.value repeated
    return v :: (← values repeated ns)

/-- The fields that entries stand for, but for those that they merge.  If
`seen` are the names of the fields of the mapping that they are merged into,
fields with those names, or with the name of an earlier one, are passed
over. -/
def fieldsOf (repeated : Bool) (seen : Option (List String)) :
    List (Node × Node) → Visit Fields
  | [] => pure []
  | (k, v) :: es => do
    if k.isMerge then fieldsOf repeated seen es
    else
      match ← k.fieldName repeated with
      | none => fieldsOf repeated seen es
      | some name =>
        if (seen.getD []).contains name then fieldsOf repeated seen es
        else
          let value ← v.value repeated
          return (name, value) :: (← fieldsOf repeated (seen.map (name :: ·)) es)

/-- The fields that an entry of a mapping merges, but for those in `seen`. -/
def mergedFields (repeated : Bool) (seen : List String) :
    List (Node × Node) → Visit Fields
  | [] => pure []
  | (k, v) :: es =>
    if k.isMerge then v.mergeFields repeated false seen else mergedFields repeated seen es

/-- The fields of a node whose fields are merged, but for those in `seen`: a
mapping, an alias of one or, unless it is itself an item, a sequence of
these. -/
def Node.mergeFields (repeated isItem : Bool) (seen : List String) : Node → Visit Fields
  | .mapping entries => do
    visit repeated
    joinMerged seen entries (fieldsOf repeated (some seen) entries)
      fun seen => mergedFields repeated seen entries
  | .alias _ (.mapping entries) => do
    visit repeated
    visit true
    joinMerged seen entries (fieldsOf true (some seen) entries)
      fun seen => mergedFields true seen entries
  | .sequence items => if isItem then failure else mergeItems repeated seen items
  | _ => failure

/-- The fields of nodes whose fields are merged, the first ones first. -/
def mergeItems (repeated : Bool) (seen : List String) : List Node → Visit Fields
  | [] => pure []
  | n :: ns => do
    let fields ← n.mergeFields repeated true seen
    return fields ++ (← mergeItems repeated (fields.map (·.1) ++ seen) ns)
end

/-! ## Documents -/

mutual
/-- How deeply a value is nested, if it can be written as data. -/
def Value.depth? : Value → Option Nat
  | .sequence items => (depthOfItems? items).map (· + 1)
  | .mapping fields => (depthOfFields? fields).map (· + 1)
  | .other => none
  | _ => some 0

/-- How deeply the items of a sequence are nested. -/
def depthOfItems? : List Value → Option Nat
  | [] => some 0
  | v :: vs => v.depth?.bind fun n => (depthOfItems? vs).map (max n)

/-- How deeply the fields of a mapping are nested. -/
def depthOfFields? : List (String × Value) → Option Nat
  | [] => some 0
  | (_, v) :: fs => v.depth?.bind fun n => (depthOfFields? fs).map (max n)
end

/-- How deeply a value may be nested. -/
def maxDepth : Nat := 10000

/-- The fields of a document, which is a mapping or null. -/
def fieldsOfNode : Node → Visit Fields
  | .mapping entries => do
    visit false
    joinFields false entries (fieldsOf false none entries)
      fun seen => mergedFields false seen entries
  | .scalar tag plain text => do
    visit false
    if (← Scalar.resolve? tag plain text.toList) = .null then pure [] else failure
  | _ => failure

/-- The fields of the first document of a stream.  There are none if there is
no document, and no answer if the text is malformed, or if its values cannot be
read as data. -/
def read? (text : String) : Option Fields :=
  match firstDocument? text with
  | none => none
  | some none => some []
  | some (some n) =>
    (((fieldsOfNode n).run {}).map (·.1)).filter fun fields =>
      (Value.mapping (Fields.latest fields)).depth?.any (· ≤ maxDepth)

end SecdMachine.Yaml
