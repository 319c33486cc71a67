import SecdMachine.Json.Patch
import SecdMachine.Proofs.Dump

/-!
# SecdMachine.Proofs.Patch

Differences between documents are patches.

The operations of a patch remove, replace or add a value at the place that a
pointer leads to, and fail where there is no such place (`Json.Action.apply`).
They are read from lines, with the numbers of their values as doubles
(`Json.Edit.read?`), and made one after the other (`Json.patch?`).

`Json.Turns` says that changes turn one document into another, each finding the
place that it names.  Changes of an item or a field are changes of the array or
object around it (`Turns.item`, `Turns.field`), and the difference of two
documents at a path is their difference at the root, moved there
(`diff_under`).  So the argument goes along the first document: the items in
front of those that are still to be compared are the second document's already
(`turns_diffItems`), and so are the fields, whose order keeps the places of
later additions (`turns_diffFields`).

The lines of a patch are read back as its changes (`Change.Sound.read?_text`),
so the lines of a difference turn the one document into the other
(`patch?_changes`).
-/

namespace SecdMachine

namespace Json

/-! ## operations of a patch -/

/-- What an operation of a patch does at the place that it points to. -/
inductive Action where
  | remove
  | replace (value : Json)
  | add (value : Json)

/-- The index of an item: a decimal numeral without leading zeros. -/
def itemIndex? (part : String) : Option Nat :=
  (Numeral.readDigits? part.toList).filter fun i => Numeral.natural i = part

/-- The fields with the value of a name changed. -/
def setField (name : String) (value : Json) (fields : List (String × Json)) :
    List (String × Json) :=
  fields.map fun f => if f.1 = name then (name, value) else f

/-- The fields with the value of a name changed, or put in where the order of the names has it. -/
def addField (name : String) (value : Json) : List (String × Json) → List (String × Json)
  | [] => [(name, value)]
  | f :: fs =>
    if f.1 < name then f :: addField name value fs
    else if f.1 = name then (name, value) :: fs
    else (name, value) :: f :: fs

/-- Acts on an item of an array, where `-` is the place behind the last. -/
def Action.onItem (part : String) (items : List Json) : Action → Option (List Json)
  | .remove =>
    (itemIndex? part).bind fun i =>
      if i < items.length then some (items.eraseIdx i) else none
  | .replace value =>
    (itemIndex? part).bind fun i =>
      if i < items.length then some (items.set i value) else none
  | .add value =>
    if part = "-" then some (items ++ [value])
    else
      (itemIndex? part).bind fun i =>
        if i ≤ items.length then some (items.insertIdx i value) else none

/-- Acts on a field of an object. -/
def Action.onField (name : String) (fields : List (String × Json)) :
    Action → Option (List (String × Json))
  | .remove =>
    if name ∈ fields.map Prod.fst then some (fields.filter (·.1 ≠ name)) else none
  | .replace value =>
    if name ∈ fields.map Prod.fst then some (setField name value fields) else none
  | .add value => some (addField name value fields)

/-- Acts on the place in a document that a pointer leads to. -/
def Action.apply (action : Action) : List String → Json → Option Json
  | [], _ =>
    match action with
    | .remove => none
    | .replace value | .add value => some value
  | [part], .array items => (action.onItem part items).map .array
  | [name], .object fields => (action.onField name fields).map .object
  | part :: rest, .array items => do
    let i ← itemIndex? part
    let item ← items[i]?
    return .array (items.set i (← action.apply rest item))
  | name :: rest, .object fields => do
    let value ← fields.lookup name
    return .object (setField name (← action.apply rest value) fields)
  | _ :: _, _ => none

/-- An operation of a patch: what it does, and the parts of its pointer. -/
structure Edit where
  action : Action
  pointer : List String

/-- Makes edits, one after the other. -/
def edit? (j : Json) (es : List Edit) : Option Json :=
  es.foldlM (fun j e => e.action.apply e.pointer j) j

/-! ## lines -/

/-- Reads a part of a pointer, in which `~1` stands for a slash and `~0` for a tilde. -/
def unescape? : List Char → Option (List Char)
  | [] => some []
  | '~' :: '0' :: cs => (unescape? cs).map ('~' :: ·)
  | '~' :: '1' :: cs => (unescape? cs).map ('/' :: ·)
  | c :: cs => if c = '~' then none else (unescape? cs).map (c :: ·)

/-- Reads a pointer: parts with a slash before each. -/
def readPointer? : List Char → Option (List String)
  | [] => some []
  | c :: cs =>
    if c = '/' then
      (Text.splitWhere (· == '/') cs).mapM fun part => (unescape? part).map String.ofList
    else none

/-- The text before the first space, and the text behind it. -/
def cutAtSpace (cs : List Char) : List Char × List Char :=
  (cs.takeWhile (· != ' '), (cs.dropWhile (· != ' ')).tail)

/-- Reads a JSON text with its numbers as doubles. -/
def readDoubles? (text : String) : Option Json :=
  (read? text).map (mapNumbers Double.read)

/-- Reads a line: the name of the action, the pointer, and the value if the action has one. -/
def Edit.read? (line : String) : Option Edit :=
  let (name, rest) := cutAtSpace line.toList
  let (pointer, value) := cutAtSpace rest
  match String.ofList name with
  | "remove" => (readPointer? rest).map fun pointer => ⟨.remove, pointer⟩
  | "replace" => do
    return ⟨.replace (← readDoubles? (String.ofList value)), ← readPointer? pointer⟩
  | "add" => do
    return ⟨.add (← readDoubles? (String.ofList value)), ← readPointer? pointer⟩
  | _ => none

/-- Reads the lines of a patch and makes its edits. -/
def patch? (j : Json) (lines : List String) : Option Json :=
  (lines.mapM Edit.read?).bind j.edit?

/-! ## regular documents -/

/-- Fields in the order of their names. -/
def Ordered (fields : List (String × Json)) : Prop :=
  fields.Pairwise fun f g => f.1 < g.1

/-- Documents of doubles: the fields of an object are in the order of their names, which
hold no space. -/
inductive Regular : Json → Prop where
  | bool (b : Bool) : Regular (.bool b)
  | number {n : Int} (h : Double.read n = n) : Regular (.number n)
  | string (s : String) : Regular (.string s)
  | array {items : List Json} (h : ∀ j ∈ items, Regular j) : Regular (.array items)
  | object {fields : List (String × Json)} (ordered : Ordered fields)
      (spaceless : ∀ f ∈ fields, ' ' ∉ f.1.toList) (h : ∀ f ∈ fields, Regular f.2) :
      Regular (.object fields)

/-- A regular document holds doubles, so that writing its numbers and reading them
changes nothing. -/
theorem Regular.read_written {j : Json} (h : j.Regular) :
    (j.mapNumbers Double.written).mapNumbers Double.read = j := by
  induction h with
  | bool b => rfl
  | string s => rfl
  | number h => simp only [mapNumbers, Double.read_written h]
  | @array items h ih =>
      simp only [mapNumbers, mapNumbersItems_eq_map, List.map_map]
      congr 1
      conv => rhs; rw [← List.map_id items]
      exact List.map_congr_left ih
  | @object fields _ _ _ ih =>
      simp only [mapNumbers, mapNumbersFields_eq_map, List.map_map]
      congr 1
      conv => rhs; rw [← List.map_id fields]
      refine List.map_congr_left fun f hf => ?_
      simp [ih f hf]

/-- A regular document is read back from its compact text. -/
theorem readDoubles?_compactDoubles {j : Json} (h : j.Regular) :
    readDoubles? (compactDoubles j) = some j := by
  rw [readDoubles?, compactDoubles, read?_compact, Option.map_some, h.read_written]

/-! ## changes as edits -/

/-- The part of a pointer that a step is written as, before it is escaped. -/
def Step.part : Step → String
  | .key name => name
  | .index i => Numeral.natural i
  | .last => "-"

/-- A change as an operation of a patch. -/
def Change.edit : Change → Edit
  | .remove path => ⟨.remove, path.map Step.part⟩
  | .replace path value => ⟨.replace value, path.map Step.part⟩
  | .add path value => ⟨.add value, path.map Step.part⟩

/-- The document after a change. -/
def Change.apply (c : Change) (j : Json) : Option Json :=
  c.edit.action.apply c.edit.pointer j

/-- The same change to a document that stands in a larger one. -/
def Change.under (outer : Path) : Change → Change
  | .remove path => .remove (outer ++ path)
  | .replace path value => .replace (outer ++ path) value
  | .add path value => .add (outer ++ path) value

/-- A path whose names hold no space. -/
def Path.Spaceless (path : Path) : Prop :=
  ∀ name, .key name ∈ path → ' ' ∉ name.toList

/-- The changes of a patch: only a replacement can be of the whole document, since the others
are made to an array or object around their place. -/
def Change.Sound : Change → Prop
  | .remove path => path.Spaceless ∧ path ≠ []
  | .replace path value => path.Spaceless ∧ value.Regular
  | .add path value => path.Spaceless ∧ value.Regular ∧ path ≠ []

/-- `Turns cs a b`: the changes `cs` turn the document `a` into `b`. -/
inductive Turns : List Change → Json → Json → Prop where
  | nil (a : Json) : Turns [] a a
  | cons {c : Change} {cs : List Change} {a a' b : Json} (hc : c.Sound) (h : c.apply a = some a')
      (rest : Turns cs a' b) : Turns (c :: cs) a b

variable {c : Change} {cs ds : List Change} {a b d : Json}

/-- Patches one after the other. -/
theorem Turns.append (h : Turns cs a b) (h' : Turns ds b d) : Turns (cs ++ ds) a d := by
  induction h with
  | nil a => exact h'
  | cons hc h rest ih => exact .cons hc h (ih h')

/-! ## changes inside a document -/

/-- The decimal form of an index is read as the index. -/
theorem itemIndex?_natural (i : Nat) : itemIndex? (Numeral.natural i) = some i := by
  simp [itemIndex?, Numeral.toList_natural, Numeral.readDigits?_toDigits]

/-- A change inside a larger document has the pointer of its place in front. -/
theorem Change.edit_under (outer : Path) (c : Change) :
    (c.under outer).edit = ⟨c.edit.action, outer.map Step.part ++ c.edit.pointer⟩ := by
  cases c <;> simp [under, edit]

/-- A sound change replaces the whole document, or its pointer has a first part. -/
theorem Change.Sound.cases (h : c.Sound) :
    (∃ value, c = .replace [] value) ∨ ∃ part pointer, c.edit.pointer = part :: pointer := by
  cases c with
  | remove path | add path =>
      cases path with
      | nil => simp [Sound] at h
      | cons s path => exact .inr ⟨s.part, path.map Step.part, rfl⟩
  | replace path value =>
      cases path with
      | nil => exact .inl ⟨value, rfl⟩
      | cons s path => exact .inr ⟨s.part, path.map Step.part, rfl⟩

/-- A sound change is sound inside a larger document. -/
theorem Change.Sound.under (h : c.Sound) {outer : Path} (houter : outer.Spaceless) :
    (c.under outer).Sound := by
  have hspaceless {path : Path} (hpath : path.Spaceless) : Path.Spaceless (outer ++ path) := by
    intro name hname
    exact (List.mem_append.mp hname).elim (houter name) (hpath name)
  cases c with
  | remove path => exact ⟨hspaceless h.1, List.append_ne_nil_of_right_ne_nil outer h.2⟩
  | replace path value => exact ⟨hspaceless h.1, h.2⟩
  | add path value =>
      exact ⟨hspaceless h.1, h.2.1, List.append_ne_nil_of_right_ne_nil outer h.2.2⟩

/-- Setting a field that stands in one place only changes it there. -/
theorem setField_append {before after : List (String × Json)} {name : String}
    (hbefore : ∀ f ∈ before, f.1 ≠ name) (hafter : ∀ f ∈ after, f.1 ≠ name) (a value : Json) :
    setField name value (before ++ (name, a) :: after) = before ++ (name, value) :: after := by
  have hself : ∀ fields : List (String × Json), (∀ f ∈ fields, f.1 ≠ name) →
      setField name value fields = fields := by
    intro fields hfields
    unfold setField
    conv => rhs; rw [← List.map_id fields]
    exact List.map_congr_left fun f hf => if_neg (hfields f hf)
  have hsplit : setField name value (before ++ (name, a) :: after) =
      setField name value before ++ (name, value) :: setField name value after := by
    simp [setField]
  rw [hsplit, hself before hbefore, hself after hafter]

/-- A field is found behind others of other names. -/
theorem lookup_append {before : List (String × Json)} {name : String}
    (hbefore : ∀ f ∈ before, f.1 ≠ name) (a : Json) (after : List (String × Json)) :
    (before ++ (name, a) :: after).lookup name = some a := by
  induction before with
  | nil => simp
  | cons f fs ih =>
      have hne : (name == f.1) = false :=
        beq_eq_false_iff_ne.mpr (hbefore f List.mem_cons_self).symm
      rw [List.cons_append, List.lookup_cons, hne]
      exact ih fun g hg => hbefore g (List.mem_cons_of_mem f hg)

/-- A change of an item, made inside the array. -/
theorem Change.apply_under_index (hc : c.Sound) (h : c.apply a = some b)
    (before after : List Json) :
    (c.under [.index before.length]).apply (.array (before ++ a :: after)) =
      some (.array (before ++ b :: after)) := by
  have hindex := itemIndex?_natural before.length
  rw [apply, edit_under]
  obtain ⟨value, rfl⟩ | ⟨part, pointer, hpointer⟩ := hc.cases
  · cases h
    simp [edit, Step.part, Action.apply, Action.onItem, hindex]
  · rw [apply, hpointer] at h
    simp only [hpointer, List.map_cons, List.map_nil, List.cons_append, List.nil_append, Step.part]
    rw [Action.apply, hindex]
    · simp [h]
    · exact nofun

/-- A change of a field, made inside the object. -/
theorem Change.apply_under_key (hc : c.Sound) (h : c.apply a = some b)
    {before after : List (String × Json)} {name : String} (hbefore : ∀ f ∈ before, f.1 ≠ name)
    (hafter : ∀ f ∈ after, f.1 ≠ name) :
    (c.under [.key name]).apply (.object (before ++ (name, a) :: after)) =
      some (.object (before ++ (name, b) :: after)) := by
  have hset := setField_append hbefore hafter a
  have hlookup := lookup_append hbefore a after
  rw [apply, edit_under]
  obtain ⟨value, rfl⟩ | ⟨part, pointer, hpointer⟩ := hc.cases
  · cases h
    simp [edit, Step.part, Action.apply, Action.onField, hset]
  · rw [apply, hpointer] at h
    simp only [hpointer, List.map_cons, List.map_nil, List.cons_append, List.nil_append, Step.part]
    rw [Action.apply, hlookup]
    · simp [h, hset]
    · exact nofun

/-- A patch of an item, made inside the array. -/
theorem Turns.item (h : Turns cs a b) (before after : List Json) :
    Turns (cs.map (Change.under [.index before.length])) (.array (before ++ a :: after))
      (.array (before ++ b :: after)) := by
  induction h with
  | nil a => exact .nil _
  | cons hc h rest ih =>
      exact .cons (hc.under (by simp [Path.Spaceless]))
        (Change.apply_under_index hc h before after) ih

/-- A patch of a field, made inside the object. -/
theorem Turns.field (h : Turns cs a b) {before after : List (String × Json)} {name : String}
    (hspaceless : ' ' ∉ name.toList) (hbefore : ∀ f ∈ before, f.1 ≠ name)
    (hafter : ∀ f ∈ after, f.1 ≠ name) :
    Turns (cs.map (Change.under [.key name])) (.object (before ++ (name, a) :: after))
      (.object (before ++ (name, b) :: after)) := by
  induction h with
  | nil a => exact .nil _
  | cons hc h rest ih =>
      exact .cons (hc.under (by simp [Path.Spaceless, hspaceless]))
        (Change.apply_under_key hc h hbefore hafter) ih

/-! ## changes of arrays -/

/-- Removing the item at one index again and again leaves the items before it. -/
theorem turns_removals (as : List Json) (n : Nat) :
    Turns (List.replicate (as.length - n) (.remove [.index n])) (.array as)
      (.array (as.take n)) := by
  have hremove (items : List Json) : ∀ rest : List Json,
      Turns (List.replicate rest.length (.remove [.index items.length])) (.array (items ++ rest))
        (.array items) := by
    intro rest
    induction rest with
    | nil => simpa using Turns.nil _
    | cons j rest ih =>
        refine .cons (by simp [Change.Sound, Path.Spaceless]) ?_ ih
        simp [Change.apply, Change.edit, Step.part, Action.apply, Action.onItem,
          itemIndex?_natural, List.eraseIdx_append_of_length_le]
  by_cases hle : as.length ≤ n
  · rw [Nat.sub_eq_zero_of_le hle, List.take_of_length_le hle]
    exact .nil _
  · have hlength : (as.take n).length = n := List.length_take_of_le (by omega)
    have h := hremove (as.take n) (as.drop n)
    rwa [List.take_append_drop, hlength, List.length_drop] at h

/-- Items are appended one by one, each behind the last one. -/
theorem turns_appends {bs : List Json} (h : ∀ j ∈ bs, j.Regular) (items : List Json) :
    Turns (bs.map fun b => .add [.last] b) (.array items) (.array (items ++ bs)) := by
  induction bs generalizing items with
  | nil => simpa using Turns.nil _
  | cons b bs ih =>
      have hrest := ih (fun j hj => h j (List.mem_cons_of_mem b hj)) (items ++ [b])
      rw [List.append_assoc, List.singleton_append] at hrest
      refine .cons ?_ ?_ hrest
      · simp [Change.Sound, Path.Spaceless, h b List.mem_cons_self]
      · simp [Change.apply, Change.edit, Step.part, Action.apply, Action.onItem]

/-! ## differences -/

/-- The difference at a path is the difference at the root, moved to the path. -/
theorem diff_under (outer : Path) (a b : Json) (path : Path) :
    diff (outer ++ path) a b = (diff path a b).map (Change.under outer) := by
  induction a using induction generalizing b path with
  | bool x | number x | string x =>
      cases b <;> simp only [diff] <;> first | rfl | (split <;> rfl)
  | array as ih =>
      have hitems : ∀ i bs, diffItems (outer ++ path) i as bs =
          (diffItems path i as bs).map (Change.under outer) := by
        induction as with
        | nil => simp [diffItems, Change.under]
        | cons a as ih' =>
            intro i bs
            cases bs with
            | nil => rfl
            | cons b bs =>
                have hrest := ih' fun j hj => ih j (List.mem_cons_of_mem a hj)
                simp only [diffItems, List.append_assoc, ih a List.mem_cons_self, hrest,
                  List.map_append]
      cases b with
      | array bs => simp [diff, hitems, Change.under]
      | bool | number | string | object => simp [diff, Change.under]
  | object as ih =>
      have hfields : ∀ bs, diffFields (outer ++ path) as bs =
          (diffFields path as bs).map (Change.under outer) := by
        induction as with
        | nil => simp [diffFields, Change.under]
        | cons f as ih' =>
            intro bs
            obtain ⟨name, a⟩ := f
            have hrest := ih' fun f hf => ih f (List.mem_cons_of_mem _ hf)
            rw [diffFields, diffFields]
            cases bs.dropWhile (·.1 < name) with
            | nil => simp [hrest, Change.under]
            | cons g rest =>
                obtain ⟨name', b⟩ := g
                simp only
                split
                · have ha : diff (outer ++ (path ++ [.key name])) a b = _ :=
                    ih (name, a) List.mem_cons_self b (path ++ [.key name])
                  simp [hrest, ha, Function.comp_def, Change.under]
                · simp [hrest, Change.under]
      cases b with
      | object bs => simp [diff, hfields]
      | bool | number | string | array => simp [diff, Change.under]

/-! ## changes of objects -/

variable {before after as bs : List (String × Json)} {name : String}

/-- In an object with ordered names, no two fields have one name. -/
theorem Ordered.ne_name (h : Ordered (before ++ (name, a) :: after)) :
    (∀ f ∈ before, f.1 ≠ name) ∧ ∀ f ∈ after, f.1 ≠ name := by
  obtain ⟨_, hafter, hbefore⟩ := List.pairwise_append.mp h
  refine ⟨fun f hf he => ?_, fun f hf he => ?_⟩
  · have hlt : f.1 < name := hbefore f hf (name, a) List.mem_cons_self
    exact String.lt_irrefl name (he ▸ hlt)
  · have hlt : name < f.1 := (List.pairwise_cons.mp hafter).1 f hf
    exact String.lt_irrefl name (he ▸ hlt)

/-- A new value leaves the names in order. -/
theorem Ordered.replace (h : Ordered (before ++ (name, a) :: after)) (b : Json) :
    Ordered (before ++ (name, b) :: after) := by
  unfold Ordered at h ⊢
  rw [← List.pairwise_map (f := Prod.fst) (R := (· < ·))] at h ⊢
  simpa using h

/-- Fields of smaller names may go in front of a field. -/
theorem Ordered.insert_smaller {smaller : List (String × Json)}
    (h : Ordered (before ++ (name, a) :: after)) (hbefore : Ordered (before ++ smaller))
    (hsmaller : ∀ f ∈ smaller, f.1 < name) : Ordered (before ++ smaller ++ (name, a) :: after) := by
  obtain ⟨_, hgreater, hcross⟩ := List.pairwise_append.mp h
  refine List.pairwise_append.mpr ⟨hbefore, hgreater, fun f hf g hg => ?_⟩
  cases List.mem_append.mp hf with
  | inl hf => exact hcross f hf g hg
  | inr hf =>
      cases List.mem_cons.mp hg with
      | inl hg => exact hg ▸ hsmaller f hf
      | inr hg => exact String.lt_trans (hsmaller f hf) ((List.pairwise_cons.mp hgreater).1 g hg)

/-- A field is added at its place in the order of names. -/
theorem addField_append {value : Json} (h : Ordered (before ++ (name, value) :: after)) :
    addField name value (before ++ after) = before ++ (name, value) :: after := by
  induction before with
  | nil =>
      cases after with
      | nil => rfl
      | cons f fs =>
        have hlt : name < f.1 := (List.pairwise_cons.mp h).1 f List.mem_cons_self
        have hne : f.1 ≠ name := h.ne_name.2 f List.mem_cons_self
        simp [addField, hne, String.lt_asymm hlt]
  | cons f fs ih =>
      obtain ⟨hlt, hrest⟩ := List.pairwise_cons.mp h
      have hf : f.1 < name := hlt (name, value) (by simp)
      simp [addField, hf, ih hrest]

/-- The fields that are missing at one place are added one by one. -/
theorem turns_additions (before after : List (String × Json))
    (hbs : ∀ f ∈ bs, ' ' ∉ f.1.toList ∧ f.2.Regular) (h : Ordered (before ++ (bs ++ after))) :
    Turns (bs.map fun f => .add [.key f.1] f.2) (.object (before ++ after))
      (.object (before ++ (bs ++ after))) := by
  induction bs generalizing before with
  | nil => exact .nil _
  | cons b bs ih =>
      obtain ⟨hspaceless, hregular⟩ := hbs b List.mem_cons_self
      have hb : Ordered (before ++ b :: after) := h.sublist (by simp)
      have hadd := addField_append hb
      have hrest := ih (before ++ [b]) (fun f hf => hbs f (List.mem_cons_of_mem b hf))
        (by simpa using h)
      simp only [List.append_assoc, List.singleton_append] at hrest
      refine .cons ?_ ?_ hrest
      · simp [Change.Sound, Path.Spaceless, hspaceless, hregular]
      · simp [Change.apply, Change.edit, Step.part, Action.apply, Action.onField, hadd]

/-- A field that is not in the other object is removed. -/
theorem turns_removal (hspaceless : ' ' ∉ name.toList)
    (h : Ordered (before ++ (name, a) :: after)) :
    Turns [.remove [.key name]] (.object (before ++ (name, a) :: after))
      (.object (before ++ after)) := by
  obtain ⟨hbefore, hafter⟩ := h.ne_name
  refine .cons ?_ ?_ (.nil _)
  · simp [Change.Sound, Path.Spaceless, hspaceless]
  · have hself : ∀ fields : List (String × Json), (∀ f ∈ fields, f.1 ≠ name) →
        fields.filter (fun f => !decide (f.1 = name)) = fields := by
      intro fields hfields
      exact List.filter_eq_self.mpr (by simpa using hfields)
    simp [Change.apply, Change.edit, Step.part, Action.apply, Action.onField,
      hself before hbefore, hself after hafter]

/-- **Objects**: the differences of the fields turn the one object into the other,
behind fields that they share already. -/
theorem turns_diffFields (before : List (String × Json))
    (ih : ∀ f ∈ as, ∀ b : Json, b.Regular → Turns (diff [] f.2 b) f.2 b)
    (has : ∀ f ∈ as, ' ' ∉ f.1.toList) (hbs : ∀ f ∈ bs, ' ' ∉ f.1.toList ∧ f.2.Regular)
    (ha : Ordered (before ++ as)) (hb : Ordered (before ++ bs)) :
    Turns (diffFields [] as bs) (.object (before ++ as)) (.object (before ++ bs)) := by
  induction as generalizing before bs with
  | nil =>
      rw [diffFields]
      simpa using turns_additions before [] hbs (by simpa using hb)
  | cons f as ih' =>
      obtain ⟨name, a⟩ := f
      have hname := has (name, a) List.mem_cons_self
      have hrest (before : List (String × Json)) {bs : List (String × Json)} :=
        @ih' bs before (fun f hf => ih f (List.mem_cons_of_mem _ hf))
          (fun f hf => has f (List.mem_cons_of_mem _ hf))
      have hsplit := List.takeWhile_append_dropWhile (p := (·.1 < name)) (l := bs)
      have hsmaller : ∀ f ∈ bs.takeWhile (·.1 < name), f.1 < name := by
        simpa using List.all_eq_true.mp (List.all_takeWhile (p := (·.1 < name)) (l := bs))
      rw [diffFields]
      generalize bs.takeWhile (·.1 < name) = smaller at *
      generalize bs.dropWhile (·.1 < name) = greater at *
      subst hsplit
      have hmid := ha.insert_smaller (hb.sublist (by simp)) hsmaller
      have hafter : Ordered (before ++ smaller ++ as) := hmid.sublist (by simp)
      have hgreater : ∀ f ∈ greater, ' ' ∉ f.1.toList ∧ f.2.Regular :=
        fun f hf => hbs f (List.mem_append_right smaller hf)
      rw [← List.append_assoc] at hb ⊢
      have hadditions : Turns (smaller.map fun f => .add [.key f.1] f.2)
          (.object (before ++ (name, a) :: as))
          (.object (before ++ smaller ++ (name, a) :: as)) := by
        rw [List.append_assoc] at hmid ⊢
        exact turns_additions _ _ (fun f hf => hbs f (List.mem_append_left greater hf)) hmid
      refine hadditions.append ?_
      cases greater with
      | nil => exact (turns_removal hname hmid).append (hrest _ nofun hafter hb)
      | cons g greater =>
          obtain ⟨name', b⟩ := g
          obtain ⟨hg, hgreater'⟩ := List.forall_mem_cons.mp hgreater
          simp only
          split
          · next hsame =>
              subst hsame
              obtain ⟨hne, hne'⟩ := hmid.ne_name
              have hfield := (ih (name', a) List.mem_cons_self b hg.2).field hname hne hne'
              rw [← diff_under, List.append_nil] at hfield
              refine hfield.append ?_
              have hrest' := hrest (before ++ smaller ++ [(name', b)]) hgreater'
              simp only [List.append_assoc _ [(name', b)], List.singleton_append] at hrest'
              exact hrest' (hmid.replace b) hb
          · exact (turns_removal hname hmid).append (hrest _ hgreater hafter hb)

/-- **Arrays**: the differences of the items turn the items of the one array into those
of the other, as far as both go. -/
theorem turns_diffItems {as bs : List Json}
    (ih : ∀ j ∈ as, ∀ b : Json, b.Regular → Turns (diff [] j b) j b)
    (hbs : ∀ j ∈ bs, j.Regular) (before : List Json) :
    Turns (diffItems [] before.length as bs) (.array (before ++ as.take bs.length))
      (.array (before ++ bs)) := by
  induction as generalizing before bs with
  | nil =>
      rw [diffItems]
      simpa using turns_appends hbs before
  | cons a as ih' =>
      cases bs with
      | nil => exact .nil _
      | cons b bs =>
          have hitem := (ih a List.mem_cons_self b (hbs b List.mem_cons_self)).item before
            (as.take bs.length)
          have hrest := ih' (fun j hj => ih j (List.mem_cons_of_mem a hj))
            (fun j hj => hbs j (List.mem_cons_of_mem b hj)) (before ++ [b])
          rw [← diff_under, List.append_nil] at hitem
          simp only [List.length_append, List.length_singleton, List.append_assoc,
            List.singleton_append] at hrest
          exact hitem.append hrest

theorem turns_replace (h : b.Regular) (a : Json) : Turns [.replace [] b] a b :=
  .cons ⟨nofun, h⟩ rfl (.nil b)

/-- A replacement is left out only where nothing would change. -/
theorem turns_ite {p : Prop} [Decidable p] (h : p → a = b) (hb : b.Regular) :
    Turns (if p then [] else [.replace [] b]) a b := by
  split
  · next hp => exact h hp ▸ .nil a
  · exact turns_replace hb a

/-- **Differences are patches**: the changes between two documents turn the first into the
second. -/
theorem turns_diff (ha : a.Regular) (hb : b.Regular) : Turns (diff [] a b) a b := by
  induction ha generalizing b with
  | bool x =>
      cases b with
      | bool y => exact turns_ite (congrArg Json.bool) hb
      | number | string | array | object => exact turns_replace hb _
  | number hn =>
      cases b with
      | number y => exact turns_ite (congrArg Json.number) hb
      | bool | string | array | object => exact turns_replace hb _
  | string s =>
      cases b with
      | string y => exact turns_ite (congrArg Json.string) hb
      | bool | number | array | object => exact turns_replace hb _
  | @array as has ih =>
      cases b with
      | array bs =>
          cases hb with
          | array hbs =>
              exact (turns_removals as bs.length).append
                (turns_diffItems (fun j hj _ => ih j hj) hbs [])
      | bool | number | string | object => exact turns_replace hb _
  | @object as hordered hspaceless has ih =>
      cases b with
      | object bs =>
          cases hb with
          | object hordered' hspaceless' hbs =>
              exact turns_diffFields [] (fun f hf _ => ih f hf) hspaceless
                (fun f hf => ⟨hspaceless' f hf, hbs f hf⟩) hordered hordered'
      | bool | number | string | array => exact turns_replace hb _

/-! ## reading the lines back -/

/-- A word is cut off at the space behind it. -/
theorem cutAtSpace_append {w : List Char} (h : ' ' ∉ w) (rest : List Char) :
    cutAtSpace (w ++ ' ' :: rest) = (w, rest) := by
  have hw : ∀ c ∈ w, (c != ' ') = true := by
    intro c hc
    exact bne_iff_ne.mpr fun he => h (he ▸ hc)
  simp [cutAtSpace, List.takeWhile_append_of_pos hw, List.dropWhile_append_of_pos hw]

/-- A name is read back from its escaped form. -/
theorem unescape?_escapeKey (name : String) :
    unescape? (escapeKey name).toList = some name.toList := by
  rw [escapeKey, String.toList_ofList]
  induction name.toList with
  | nil => rfl
  | cons c cs ih =>
      rw [List.flatMap_cons]
      by_cases htilde : c = '~'
      · subst htilde
        simp [unescape?, ih]
      · by_cases hslash : c = '/'
        · subst hslash
          simp [unescape?, ih]
        · rw [if_neg htilde, if_neg hslash, List.singleton_append, unescape?]
          · simp [htilde, ih]
          · exact fun _ he => absurd he htilde
          · exact fun _ he => absurd he htilde

/-- An escaped name has no slash, and no new characters but those of the escapes. -/
theorem mem_escapeKey {name : String} {c : Char} (h : c ∈ (escapeKey name).toList) :
    c ≠ '/' ∧ (c ∈ name.toList ∨ c = '~' ∨ c = '0' ∨ c = '1') := by
  rw [escapeKey, String.toList_ofList, List.mem_flatMap] at h
  obtain ⟨d, hd, hc⟩ := h
  grind

/-- Digits need no escapes. -/
theorem escapeKey_natural (i : Nat) : escapeKey (Numeral.natural i) = Numeral.natural i := by
  have hdigits : ∀ c ∈ Nat.toDigits 10 i, c ≠ '~' ∧ c ≠ '/' := by
    intro c hc
    have hdigit := Numeral.isDigit_of_mem_toDigits hc
    constructor <;> (rintro rfl; revert hdigit; decide)
  rw [escapeKey, Numeral.toList_natural, Numeral.natural]
  congr 1
  generalize Nat.toDigits 10 i = digits at hdigits ⊢
  induction digits with
  | nil => rfl
  | cons c cs ih =>
      obtain ⟨⟨htilde, hslash⟩, hcs⟩ := List.forall_mem_cons.mp hdigits
      rw [List.flatMap_cons, if_neg htilde, if_neg hslash, ih hcs, List.singleton_append]

/-- The text of a step is a slash and its escaped part. -/
theorem Step.text_eq (s : Step) : s.text = "/" ++ escapeKey s.part := by
  cases s with
  | key name => rfl
  | index i => rw [text, part, escapeKey_natural]
  | last => decide

theorem toList_text (path : Path) :
    path.text.toList = path.flatMap fun s => '/' :: (escapeKey s.part).toList := by
  rw [Path.text, Text.toList_concat, List.flatMap_map]
  simp [Step.text_eq]

/-- The text of a path, cut at its slashes, gives the escaped parts. -/
theorem splitWhere_parts (s : Step) (path : Path) :
    Text.splitWhere (· == '/')
        ((escapeKey s.part).toList ++ path.flatMap fun s => '/' :: (escapeKey s.part).toList) =
      (s :: path).map fun s => (escapeKey s.part).toList := by
  have hone (s : Step) :
      Text.splitWhere (· == '/') (escapeKey s.part).toList = [(escapeKey s.part).toList] :=
    Text.splitWhere_eq_singleton fun c hc => by simpa using (mem_escapeKey hc).1
  induction path generalizing s with
  | nil => simpa using hone s
  | cons s' path ih =>
      rw [List.flatMap_cons, List.cons_append, Text.splitWhere_append rfl, hone, ih s']
      rfl

/-- **Pointers** are read back from their texts. -/
theorem readPointer?_text (path : Path) :
    readPointer? path.text.toList = some (path.map Step.part) := by
  rw [toList_text]
  cases path with
  | nil => rfl
  | cons s path =>
      have hparts : ((s :: path).map Step.part).map (fun part => (escapeKey part).toList) =
          (s :: path).map fun s => (escapeKey s.part).toList :=
        List.map_map
      rw [List.flatMap_cons, List.cons_append, readPointer?, if_pos rfl, splitWhere_parts, ← hparts]
      exact mapM_map_eq_some fun part _ => by simp [unescape?_escapeKey]

/-- A path of names without spaces has no space in its text. -/
theorem Path.Spaceless.not_mem_text {path : Path} (h : path.Spaceless) :
    ' ' ∉ path.text.toList := by
  rw [toList_text, List.mem_flatMap]
  rintro ⟨s, hs, hc⟩
  obtain hc : ' ' ∈ s.part.toList := by
    simpa using (mem_escapeKey (List.mem_of_ne_of_mem (by decide) hc)).2
  cases s with
  | key name => exact h name hs hc
  | last => revert hc; decide
  | index i =>
      have hdigit := Numeral.isDigit_of_mem_toDigits (Numeral.toList_natural i ▸ hc)
      revert hdigit
      decide

/-- **Lines** are read back as the changes that they are the texts of. -/
theorem Change.Sound.read?_text (h : c.Sound) : Edit.read? c.text = some c.edit := by
  cases c with
  | remove path =>
      have htext : (Change.remove path).text.toList =
          "remove".toList ++ ' ' :: path.text.toList := by
        simp [text]
      simp only [Edit.read?, htext, cutAtSpace_append (w := "remove".toList) (by decide)]
      simp [readPointer?_text, edit]
  | replace path value =>
      obtain ⟨hpath, hvalue⟩ := h
      have htext : (Change.replace path value).text.toList =
          "replace".toList ++
            ' ' :: (path.text.toList ++ ' ' :: (compactDoubles value).toList) := by
        simp [text]
      simp only [Edit.read?, htext, cutAtSpace_append (w := "replace".toList) (by decide),
        cutAtSpace_append hpath.not_mem_text]
      simp [readPointer?_text, edit, readDoubles?_compactDoubles hvalue]
  | add path value =>
      obtain ⟨hpath, hvalue, _⟩ := h
      have htext : (Change.add path value).text.toList =
          "add".toList ++ ' ' :: (path.text.toList ++ ' ' :: (compactDoubles value).toList) := by
        simp [text]
      simp only [Edit.read?, htext, cutAtSpace_append (w := "add".toList) (by decide),
        cutAtSpace_append hpath.not_mem_text]
      simp [readPointer?_text, edit, readDoubles?_compactDoubles hvalue]

/-- What changes do, their lines do. -/
theorem Turns.patch? (h : Turns cs a b) : a.patch? (cs.map Change.text) = some b := by
  have hread : (cs.map Change.text).mapM Edit.read? = some (cs.map Change.edit) := by
    induction h with
    | nil a => rfl
    | cons hc h rest ih => simp [hc.read?_text, ih]
  have hedit : a.edit? (cs.map Change.edit) = some b := by
    clear hread
    induction h with
    | nil a => rfl
    | cons hc h rest ih =>
        rw [Change.apply] at h
        simp only [edit?, List.map_cons, List.foldlM_cons, h]
        exact ih
  rw [Json.patch?, hread, Option.bind_some, hedit]

/-- **Patches**: the lines of the changes between two documents, made to the first with its
numbers read as doubles, give the second with its numbers read as doubles. -/
theorem patch?_changes (ha : (a.mapNumbers Double.read).Regular)
    (hb : (b.mapNumbers Double.read).Regular) :
    (a.mapNumbers Double.read).patch? ((changes a b).map Change.text) =
      some (b.mapNumbers Double.read) :=
  (turns_diff ha hb).patch?

end Json

end SecdMachine
