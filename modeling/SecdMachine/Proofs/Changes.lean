import SecdMachine.Proofs.Navigation
import SecdMachine.Proofs.Patch

/-!
# SecdMachine.Proofs.Changes

The changes of a step turn the state before it into the state after it.

The documents of values and states are regular once their numbers are read as
doubles (`Value.regular_document`, `State.regular_document`): each type of value
has its own fields, all of them in the order of their names.  So the lines that a
trace tells of a step are a patch between the two states
(`Trace.changes_patch_states`).  Doubles hold the integers up to 2^53, and with
such integers alone nothing is lost when they are read (`mapNumbers_eq_self`).
-/

namespace SecdMachine

/-! ## numbers of a document -/

namespace Json

mutual
/-- The numbers of a document, at any depth. -/
def numbers : Json → List Int
  | .bool _ | .string _ => []
  | .number n => [n]
  | .array items => numbersOfItems items
  | .object fields => numbersOfFields fields

/-- The same for the items of an array. -/
def numbersOfItems : List Json → List Int
  | [] => []
  | j :: js => numbers j ++ numbersOfItems js

/-- The same for the fields of an object. -/
def numbersOfFields : List (String × Json) → List Int
  | [] => []
  | (_, j) :: fs => numbers j ++ numbersOfFields fs
end

/-- The numbers of an array are those of its items. -/
theorem numbersOfItems_eq_flatMap (js : List Json) : numbersOfItems js = js.flatMap numbers := by
  induction js with
  | nil => rfl
  | cons j js ih => simp [numbersOfItems, ih]

/-- The numbers of an object are those of its values. -/
theorem numbersOfFields_eq_flatMap (fs : List (String × Json)) :
    numbersOfFields fs = fs.flatMap fun f => numbers f.2 := by
  induction fs with
  | nil => rfl
  | cons f fs ih => simp [numbersOfFields, ih]

/-- The compact text of a document is read as the document with its numbers made
doubles. -/
theorem readDoubles?_compact (j : Json) :
    readDoubles? j.compact = some (j.mapNumbers Double.read) := by
  rw [readDoubles?, read?_compact, Option.map_some]

/-- A document whose numbers stay stays. -/
theorem mapNumbers_eq_self {f : Int → Int} {j : Json} (h : ∀ n ∈ j.numbers, f n = n) :
    j.mapNumbers f = j := by
  induction j using induction with
  | bool | string => rfl
  | number n => rw [mapNumbers, h n List.mem_cons_self]
  | array items ih =>
      rw [numbers, numbersOfItems_eq_flatMap] at h
      have hitems : ∀ j ∈ items, mapNumbers f j = id j := fun j hj =>
        ih j hj fun n hn => h n (List.mem_flatMap.mpr ⟨j, hj, hn⟩)
      rw [mapNumbers, mapNumbersItems_eq_map, List.map_congr_left hitems, List.map_id]
  | object fields ih =>
      rw [numbers, numbersOfFields_eq_flatMap] at h
      have hfields : ∀ g ∈ fields, (g.1, mapNumbers f g.2) = id g := by
        intro g hg
        rw [ih g hg fun n hn => h n (List.mem_flatMap.mpr ⟨g, hg, hn⟩)]
        rfl
      rw [mapNumbers, mapNumbersFields_eq_map, List.map_congr_left hfields, List.map_id]

/-- Objects are regular if their names are in order and the values under them are regular. -/
theorem regular_read_object {fields : List (String × Json)} (names : List String)
    (hnames : fields.map Prod.fst = names) (ordered : names.Pairwise (· < ·))
    (spaceless : ∀ name ∈ names, ' ' ∉ name.toList)
    (h : ∀ f ∈ fields, (f.2.mapNumbers Double.read).Regular) :
    ((object fields).mapNumbers Double.read).Regular := by
  subst hnames
  rw [mapNumbers, mapNumbersFields_eq_map]
  refine .object ?_ (fun f hf => ?_) fun f hf => ?_
  · rw [Ordered, List.pairwise_map]
    exact List.pairwise_map.mp ordered
  all_goals obtain ⟨g, hg, rfl⟩ := List.mem_map.mp hf
  · exact spaceless g.1 (List.mem_map_of_mem hg)
  · exact h g hg

/-- An array is regular, read as doubles, if its items are. -/
theorem regular_read_array {items : List Json}
    (h : ∀ j ∈ items, (j.mapNumbers Double.read).Regular) :
    ((array items).mapNumbers Double.read).Regular := by
  rw [mapNumbers, mapNumbersItems_eq_map]
  exact .array (by simpa using h)

theorem regular_read_number (n : Int) : ((number n).mapNumbers Double.read).Regular :=
  .number (Double.read_read n)

theorem regular_read_string (s : String) : ((string s).mapNumbers Double.read).Regular :=
  .string s

theorem regular_read_bool (b : Bool) : ((bool b).mapNumbers Double.read).Regular :=
  .bool b

end Json

/-! ## documents of values and states -/

namespace Value

open Json

theorem regular_locationsDocument (locations : List Nat) :
    ((locationsDocument locations).mapNumbers Double.read).Regular := by
  refine regular_read_array fun j hj => ?_
  obtain ⟨l, _, rfl⟩ := List.mem_map.mp hj
  exact regular_read_number l

/-- The document of a list is regular if those of its members are. -/
theorem regular_listDocument {vs : List Value}
    (h : ∀ v ∈ vs, (v.document.mapNumbers Double.read).Regular) :
    ((listDocument vs).mapNumbers Double.read).Regular := by
  refine regular_read_array fun j hj => ?_
  obtain ⟨v, hv, rfl⟩ := List.mem_map.mp hj
  exact h v (List.mem_reverse.mp hv)

/-- The document of any value is regular, read as doubles. -/
theorem regular_document (v : Value) : (v.document.mapNumbers Double.read).Regular := by
  induction v using Value.induction with
  | step v ih =>
      have henv : ((listDocument v.environment).mapNumbers Double.read).Regular :=
        regular_listDocument ih
      cases v with
      | int n =>
          refine regular_read_object ["type", "value"] rfl (by decide) (by decide) ?_
          simp [regular_read_number, regular_read_string]
      | bool b =>
          refine regular_read_object ["type", "value"] rfl (by decide) (by decide) ?_
          simp [regular_read_bool, regular_read_string]
      | closure entry env =>
          rw [document, array_documents]
          refine regular_read_object ["env", "pc", "type"] rfl (by decide) (by decide) ?_
          simpa [regular_read_number, regular_read_string, environment] using henv
      | frame entries env =>
          rw [document, array_documents]
          refine regular_read_object ["env", "fns", "type"] rfl (by decide) (by decide) ?_
          simpa [regular_read_string, regular_locationsDocument, environment] using henv
      | focused index entries env =>
          rw [document, array_documents]
          refine regular_read_object ["env", "fns", "index", "type"] rfl (by decide) (by decide) ?_
          simpa [regular_read_number, regular_read_string, regular_locationsDocument,
            environment] using henv
      | returnAddress location =>
          refine regular_read_object ["pc", "type"] rfl (by decide) (by decide) ?_
          simp [regular_read_number, regular_read_string]
      | savedEnv env =>
          rw [document, array_documents]
          refine regular_read_object ["env", "type"] rfl (by decide) (by decide) ?_
          simpa [regular_read_string, environment] using henv
      | undefined | unknown =>
          refine regular_read_object ["type"] rfl (by decide) (by decide) ?_
          simp [regular_read_string]

end Value

/-- The document of any state is regular, read as doubles. -/
theorem State.regular_document (s : State) : (s.document.mapNumbers Double.read).Regular := by
  have hlist (vs : List Value) : ((Value.listDocument vs).mapNumbers Double.read).Regular :=
    Value.regular_listDocument fun v _ => v.regular_document
  unfold document
  split
  · refine Json.regular_read_object ["env", "pc", "stack"] rfl (by decide) (by decide) ?_
    simp [Json.regular_read_number, hlist]
  · refine Json.regular_read_object ["env", "halted", "pc", "result", "stack"] rfl (by decide)
      (by decide) ?_
    simp [Json.regular_read_number, Json.regular_read_bool, Value.regular_document, hlist]

namespace Trace

variable {t : Trace} {i : Int}

/-- A trace has no state before its first one and none behind its last one. -/
theorem at?_eq_none_iff : t.at? i = none ↔ i < 0 ∨ t.size ≤ i := by
  unfold at? size
  split
  · next hneg => simp [hneg]
  · next hpos =>
      rw [Array.getElem?_eq_none_iff]
      omega

/-- A trace has a state at every index from that of the first state to the last. -/
theorem exists_at? (hpos : 0 ≤ i) (hlt : i < t.size) : ∃ s, t.at? i = some s := by
  refine Option.ne_none_iff_exists'.mp fun hnone => ?_
  have := at?_eq_none_iff.mp hnone
  omega

/-- The changes at an index are those from the state before it. -/
theorem changes?_of_at? {before after : State} (hne : i ≠ 0)
    (hbefore : t.at? (i - 1) = some before) (hafter : t.at? i = some after) :
    t.changes? i = some (Json.changes before.document after.document) := by
  rw [changes?, if_neg hne, hbefore, hafter]

/-- Changes are told of the steps into all states but the first. -/
theorem changes?_eq_none_iff : t.changes? i = none ↔ i < 1 ∨ t.size ≤ i := by
  by_cases hin : 1 ≤ i ∧ i < t.size
  · obtain ⟨before, hbefore⟩ := exists_at? (t := t) (i := i - 1) (by omega) (by omega)
    obtain ⟨after, hafter⟩ := exists_at? (t := t) (i := i) (by omega) (by omega)
    rw [changes?_of_at? (by omega) hbefore hafter]
    simp
    omega
  · have hout : i < 1 ∨ t.size ≤ i := by omega
    refine iff_of_true ?_ hout
    unfold changes?
    split
    · rfl
    · next hne =>
        have hnone : t.at? i = none := at?_eq_none_iff.mpr (by omega)
        cases t.at? (i - 1) with
        | none => rfl
        | some before => rw [hnone]

/-- **Changes are patches**: changes are told of exactly the states of the
history but the first.  Their lines, made one after the other to the state before
the step, all find their places and give the state after it, where the texts of
both are read with their numbers as doubles.  If no integer in the two states
is greater than 2^53 in magnitude, they make the very document of the one out of
that of the other. -/
theorem changes_patch_states (t : Trace) (i : Int) :
    (t.changes? i = none ↔ i < 1 ∨ t.size ≤ i) ∧
    (1 ≤ i → i < t.size → ∃ before after cs a b,
      t.at? (i - 1) = some before ∧ t.at? i = some after ∧ t.changes? i = some cs ∧
      Json.readDoubles? before.document.compact = some a ∧
      Json.readDoubles? after.document.compact = some b ∧
      a.patch? (cs.map Json.Change.text) = some b ∧
      ((∀ n ∈ before.document.numbers ++ after.document.numbers, n.natAbs ≤ Nat.pow 2 53) →
        before.document.patch? (cs.map Json.Change.text) = some after.document)) := by
  refine ⟨changes?_eq_none_iff, fun hpos hlt => ?_⟩
  obtain ⟨before, hbefore⟩ := exists_at? (t := t) (i := i - 1) (by omega) (by omega)
  obtain ⟨after, hafter⟩ := exists_at? (t := t) (i := i) (by omega) hlt
  have hpatch := Json.patch?_changes before.regular_document after.regular_document
  refine ⟨before, after, _, _, _, hbefore, hafter, changes?_of_at? (by omega) hbefore hafter,
    Json.readDoubles?_compact _, Json.readDoubles?_compact _, hpatch, fun hsmall => ?_⟩
  have hexact {s : State} (h : ∀ n ∈ s.document.numbers, n.natAbs ≤ Nat.pow 2 53) :
      s.document.mapNumbers Double.read = s.document :=
    Json.mapNumbers_eq_self fun n hn => Double.read_of_le (h n hn)
  rwa [hexact fun n hn => hsmall n (List.mem_append_left _ hn),
    hexact fun n hn => hsmall n (List.mem_append_right _ hn)] at hpatch

/-- The return from the first call of `twoCalls`: the caller's environment is put
back, and the result takes the place of the frame of the call. -/
theorem changes_patch_states_twoCalls :
    ∃ t before after, t = (start .twoCalls 100).moves [.run, .prev] ∧
      t.at? 10 = some before ∧ t.at? 11 = some after ∧
      before.document.patch? ["remove /env/1", "replace /pc 8", "remove /stack/2",
        "remove /stack/2", "remove /stack/1/env", "replace /stack/1/type \"int\"",
        "add /stack/1/value 9"] = some after.document := by
  generalize ht : (start .twoCalls 100).moves [.run, .prev] = t
  have hfacts : 11 < t.size ∧
      (t.changes? 11).map (·.map Json.Change.text) =
        some ["remove /env/1", "replace /pc 8", "remove /stack/2", "remove /stack/2",
          "remove /stack/1/env", "replace /stack/1/type \"int\"", "add /stack/1/value 9"] ∧
      (∀ i ∈ [10, 11], ∀ s ∈ t.at? i, ∀ n ∈ s.document.numbers, n.natAbs ≤ Nat.pow 2 53) := by
    rw [← ht]
    decide +kernel
  obtain ⟨hlt, hlines, hsmall⟩ := hfacts
  obtain ⟨before, after, cs, _, _, hbefore, hafter, hcs, _, _, _, hpatch⟩ :=
    (changes_patch_states t 11).2 (by decide) (by omega)
  rw [hcs] at hlines
  refine ⟨t, before, after, rfl, hbefore, hafter, ?_⟩
  rw [← Option.some.inj hlines]
  refine hpatch fun n hn => ?_
  cases List.mem_append.mp hn with
  | inl hn => exact hsmall 10 (by simp) before hbefore n hn
  | inr hn => exact hsmall 11 (by simp) after hafter n hn

end Trace

end SecdMachine
