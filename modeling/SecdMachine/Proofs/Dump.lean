import SecdMachine.Proofs.Contents
import SecdMachine.Proofs.JsonText
import SecdMachine.Trace.Changes

/-!
# SecdMachine.Proofs.Dump

What the texts of values, states and histories say.

Documents are read by the names of their fields, in any order: the type of a
value says which fields hold its payload, a state has halted if the field
`halted` is there, and a history is a list of states with their numbers.
Integers are read exactly.  A value nests other values only in its environment,
so that one induction (`Value.induction`) carries the values of all types.

A value, a state and a whole history are read back from their texts
(`Value.read?_compact`, `State.read?_compact` and `Trace.readDump?_dump`), so no
two of them have the same text.
-/

namespace SecdMachine

/-! ## parts of documents -/

namespace Json

/-- The integer that a document is. -/
def integer? : Json → Option Int
  | .number n => some n
  | _ => none

/-- The location, or the number of a step, that a document is. -/
def natural? : Json → Option Nat
  | .number (.ofNat n) => some n
  | _ => none

/-- The boolean that a document is. -/
def boolean? : Json → Option Bool
  | .bool b => some b
  | _ => none

/-- The text that a document is. -/
def text? : Json → Option String
  | .string s => some s
  | _ => none

/-- The items of an array, each read as a value of its own. -/
def items? {α : Type} (item? : Json → Option α) : Json → Option (List α)
  | .array items => items.mapM item?
  | _ => none

/-- What the field of a name is read as. -/
def field? {α : Type} (fields : List (String × Json)) (name : String) (read? : Json → Option α) :
    Option α :=
  (fields.lookup name).bind read?

end Json

/-- What is read back item by item is read back as a list. -/
theorem mapM_map_eq_some {α β : Type} {f : β → Option α} {g : α → β} {xs : List α}
    (h : ∀ x ∈ xs, f (g x) = some x) : (xs.map g).mapM f = some xs := by
  induction xs with
  | nil => rfl
  | cons x xs ih =>
      have hx := h x List.mem_cons_self
      have hxs := ih fun y hy => h y (List.mem_cons_of_mem x hy)
      simp [hx, hxs]

/-- What is read back from its text has a text of its own. -/
theorem injective_of_read {α : Type} {text : α → String} {read? : String → Option α}
    (h : ∀ a, read? (text a) = some a) : Function.Injective text := by
  intro a b htext
  have hread := congrArg read? htext
  rw [h a, h b] at hread
  exact Option.some.inj hread

/-! ## values -/

namespace Value

/-- The value with the given fields, apart from the values nested in it: `env?`
is what its environment has been read as. -/
def ofFields? (fields : List (String × Json)) (env? : Option (List Value)) : Option Value :=
  match Json.field? fields "type" Json.text? with
  | some "int" => (Json.field? fields "value" Json.integer?).map .int
  | some "bool" => (Json.field? fields "value" Json.boolean?).map .bool
  | some "closure" => do
    return .closure (← Json.field? fields "pc" Json.natural?) (← env?)
  | some "recursive frame" => do
    return .frame (← Json.field? fields "fns" (Json.items? Json.natural?)) (← env?)
  | some "focused function" => do
    return .focused (← Json.field? fields "index" Json.integer?)
      (← Json.field? fields "fns" (Json.items? Json.natural?)) (← env?)
  | some "return address" => (Json.field? fields "pc" Json.natural?).map .returnAddress
  | some "saved environment" => env?.map .savedEnv
  | some "undefined" => some .undefined
  | some "unknown" => some .unknown
  | _ => none

mutual
/-- Reads the document of a value. -/
def ofDocument? : Json → Option Value
  | .object fields => ofFields? fields (environment? fields)
  | _ => none

/-- Reads the environment of a value from its fields. -/
def environment? : List (String × Json) → Option (List Value)
  | [] => none
  | (name, j) :: fields => if name = "env" then ofListDocument? j else environment? fields

/-- Reads the document of a stack or environment, which runs from the bottom
up. -/
def ofListDocument? : Json → Option (List Value)
  | .array items => (ofDocuments? items).map List.reverse
  | _ => none

/-- Reads the documents of values. -/
def ofDocuments? : List Json → Option (List Value)
  | [] => some []
  | j :: js => do return (← ofDocument? j) :: (← ofDocuments? js)
end

theorem ofDocuments?_eq_mapM (js : List Json) : ofDocuments? js = js.mapM ofDocument? := by
  induction js with
  | nil => rfl
  | cons j js ih => simp [ofDocuments?, ih]

/-- A list of values is read back if each of them is. -/
theorem ofListDocument?_listDocument {vs : List Value}
    (h : ∀ v ∈ vs, ofDocument? v.document = some v) :
    ofListDocument? (listDocument vs) = some vs := by
  have hitems : (vs.reverse.map document).mapM ofDocument? = some vs.reverse :=
    mapM_map_eq_some fun v hv => h v (List.mem_reverse.mp hv)
  rw [listDocument, ofListDocument?, ofDocuments?_eq_mapM, hitems, Option.map_some,
    List.reverse_reverse]

/-- A list is written from its end. -/
theorem array_documents (vs : List Value) :
    Json.array (documents vs).reverse = listDocument vs := by
  rw [documents_eq_map, ← List.map_reverse, listDocument]

theorem items?_locationsDocument (locations : List Nat) :
    Json.items? Json.natural? (locationsDocument locations) = some locations :=
  mapM_map_eq_some fun _ _ => rfl

/-- An environment is read back if its values are. -/
theorem environment?_eq_some (env : List Value) (h : ∀ v ∈ env, ofDocument? v.document = some v)
    (fields : List (String × Json)) :
    environment? (("env", listDocument env) :: fields) = some env := by
  rw [environment?, if_pos rfl, ofListDocument?_listDocument h]

/-- **Values** are read back from their documents. -/
theorem ofDocument?_document (v : Value) : ofDocument? v.document = some v := by
  induction v using Value.induction with
  | step v ih =>
      cases v with
      | int | bool | returnAddress | undefined | unknown => rfl
      | closure entry env | savedEnv env =>
          rw [document, array_documents, ofDocument?, environment?_eq_some env ih]
          rfl
      | frame entries env | focused index entries env =>
          have hfns := items?_locationsDocument entries
          rw [document, array_documents, ofDocument?, environment?_eq_some env ih]
          simp [ofFields?, Json.field?, List.lookup_cons, Json.text?, Json.integer?, hfns]

/-- Reads the text of a value. -/
def read? (text : String) : Option Value :=
  (Json.read? text).bind ofDocument?

/-- A value is read back from its compact document. -/
theorem read?_compact (v : Value) : read? v.document.compact = some v := by
  rw [read?, Json.read?_compact, Option.bind_some, ofDocument?_document]

/-- **Stacks and environments** are read back. -/
theorem ofListDocument?_eq_some (vs : List Value) :
    ofListDocument? (listDocument vs) = some vs :=
  ofListDocument?_listDocument fun v _ => ofDocument?_document v

end Value

/-! ## states -/

namespace State

/-- Reads the document of a state.  It has a result exactly if it says that the
machine has halted. -/
def ofDocument? : Json → Option State
  | .object fields => do
    let pc ← Json.field? fields "pc" Json.natural?
    let stack ← Json.field? fields "stack" Value.ofListDocument?
    let env ← Json.field? fields "env" Value.ofListDocument?
    match fields.lookup "halted" with
    | none => return { pc, stack, env }
    | some (.bool true) =>
      return { pc, stack, env, result := some (← Json.field? fields "result" Value.ofDocument?) }
    | some _ => none
  | _ => none

/-- **States** are read back from their documents. -/
theorem ofDocument?_document (s : State) : ofDocument? s.document = some s := by
  obtain ⟨pc, stack, env, result⟩ := s
  have hstack := Value.ofListDocument?_eq_some stack
  have henv := Value.ofListDocument?_eq_some env
  cases result with
  | none => simp [document, ofDocument?, Json.field?, List.lookup_cons, Json.natural?, hstack, henv]
  | some v =>
      have hresult := Value.ofDocument?_document v
      simp [document, ofDocument?, Json.field?, List.lookup_cons, Json.natural?, hstack, henv,
        hresult]

/-- Reads the text of a state. -/
def read? (text : String) : Option State :=
  (Json.read? text).bind ofDocument?

/-- A state is read back from its compact document. -/
theorem read?_compact (s : State) : read? s.document.compact = some s := by
  rw [read?, Json.read?_compact, Option.bind_some, ofDocument?_document]

end State

/-! ## histories -/

namespace Trace

/-- The document of a state with its number. -/
def entryDocument (entry : Nat × State) : Json :=
  .object [("step", .number entry.1), ("state", entry.2.document)]

/-- Reads the document of a state with its number. -/
def entry? : Json → Option (Nat × State)
  | .object fields => do
    return (← Json.field? fields "step" Json.natural?,
      ← Json.field? fields "state" State.ofDocument?)
  | _ => none

/-- An entry of a dump is read back with its number. -/
theorem entry?_entryDocument (entry : Nat × State) : entry? (entryDocument entry) = some entry := by
  have hstate := State.ofDocument?_document entry.2
  simp [entryDocument, entry?, Json.field?, List.lookup_cons, Json.natural?, hstate]

/-- The states of the history with their numbers. -/
def entries (t : Trace) : List (Nat × State) :=
  t.history.toList.mapIdx fun i s => (i, s)

theorem document_eq (t : Trace) : t.document = .array (t.entries.map entryDocument) := by
  rw [document, entries]
  congr 1
  exact List.ext_getElem? fun i => by simp [entryDocument, Function.comp_def]

/-- Reads the text of a history. -/
def readDump? (text : String) : Option (List (Nat × State)) :=
  (Json.read? text).bind (Json.items? entry?)

/-- **Histories** are read back from their dumps. -/
theorem readDump?_dump (t : Trace) : readDump? t.dump = some t.entries := by
  have hspace : Json.Separates "\n" [] := Json.separates_spaces nofun (by simp [Json.isSpace])
  rw [readDump?, dump, Json.read?_indented_append _ 0 hspace, Option.bind_some, document_eq]
  exact mapM_map_eq_some fun entry _ => entry?_entryDocument entry

/-- The entries of a dump are the states of the history. -/
theorem map_snd_entries (t : Trace) : t.entries.map Prod.snd = t.history.toList := by
  exact List.ext_getElem? fun i => by simp [entries, Function.comp_def]

/-- **Dumps determine what they show**: from its text a value is read back as it
was, however deep it nests others and whatever its integers; so is a state, with
its result if it has halted, and from the dump of a trace each state of its
history with its number, in order.  So different values and states have
different texts, and two dumps are the same exactly if the histories are. -/
theorem dump_determines_history :
    (∀ v : Value, Value.read? v.document.compact = some v) ∧
    (∀ s : State, State.read? s.document.compact = some s) ∧
    (∀ t : Trace, readDump? t.dump = some (t.history.toList.mapIdx fun i s => (i, s))) ∧
    Function.Injective (fun v : Value => v.document.compact) ∧
    Function.Injective (fun s : State => s.document.compact) ∧
    ∀ t u : Trace, t.dump = u.dump ↔ t.history = u.history := by
  refine ⟨Value.read?_compact, State.read?_compact, readDump?_dump,
    injective_of_read Value.read?_compact, injective_of_read State.read?_compact,
    fun t u => ⟨fun h => ?_, fun h => ?_⟩⟩
  · have hentries : t.entries = u.entries := by
      rw [← Option.some.injEq, ← readDump?_dump, ← readDump?_dump, h]
    rw [← Array.toList_inj, ← map_snd_entries, ← map_snd_entries, hentries]
  · rw [dump, dump, document, document, h]

end Trace

end SecdMachine
