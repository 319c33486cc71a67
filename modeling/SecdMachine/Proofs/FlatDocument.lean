import SecdMachine.Yaml.Value

/-!
# SecdMachine.Proofs.FlatDocument

Documents in which nothing is nested: a mapping from scalars to scalars, null, or no
document at all (`Flat`).

Their nodes are read without an alias, so that no effort is too much (`Gives`), and
what an entry comes to depends on its two scalars only: `Reads` says which fields a
list of entries stands for.  A scalar comes from its text as a word or as a string, but
for strings in base 64 (`Leaf.scalar?_cases`).  A flat mapping is read as these fields,
unless two of its keys are written alike or one of them merges, which no scalar can be
used for (`read?_eq_some_iff`).
-/

namespace SecdMachine.Yaml

/-! ## flat documents -/

/-- A scalar as it stands in a document. -/
structure Leaf where
  tag : Option String
  plain : Bool
  text : String
deriving DecidableEq, Repr

namespace Leaf

/-- The node of a scalar. -/
def node (l : Leaf) : Node :=
  .scalar l.tag l.plain l.text

/-- What a scalar stands for, unless its tag demands something else. -/
def scalar? (l : Leaf) : Option Scalar :=
  Scalar.resolve? l.tag l.plain l.text.toList

/-- The value of a scalar. -/
def value? (l : Leaf) : Option Value :=
  l.scalar?.map (Scalar.toValue l.text)

/-- The name that a scalar gives to a field if it is a key: that of a string is the
string, null gives none, and all others are called by their text. -/
def name? (l : Leaf) : Option (Option String) :=
  l.scalar?.map fun
    | .null => none
    | .string s => some s
    | _ => some l.text

end Leaf

/-- A key of a flat mapping with its value. -/
structure Entry where
  key : Leaf
  value : Leaf
deriving DecidableEq, Repr

/-- The nodes of an entry. -/
def Entry.nodes (e : Entry) : Node × Node :=
  (e.key.node, e.value.node)

/-- `Flat doc entries`: the document, if there is one, is null or a mapping from
scalars to scalars with the given entries, and no two keys stand for the same
scalar. -/
inductive Flat : Option Node → List Entry → Prop where
  | missing : Flat none []
  | null {l : Leaf} (h : l.scalar? = some .null) : Flat (some l.node) []
  | mapping {entries : List Entry}
      (distinct : entries.Pairwise fun e e' =>
        e.key.scalar? = none ∨ e.key.scalar? ≠ e'.key.scalar?) :
      Flat (some (.mapping (entries.map Entry.nodes))) entries

/-- In a flat document, no two keys stand for the same scalar. -/
theorem Flat.distinct {doc : Option Node} {entries : List Entry} (h : Flat doc entries) :
    entries.Pairwise fun e e' => e.key.scalar? = none ∨ e.key.scalar? ≠ e'.key.scalar? := by
  cases h with
  | missing | null => exact .nil
  | mapping distinct => exact distinct

/-- The scalar of a node. -/
def Leaf.ofNode? : Node → Option Leaf
  | .scalar tag plain text => some ⟨tag, plain, text⟩
  | _ => none

/-- The entries of a mapping from scalars to scalars. -/
def entries? : Node → Option (List Entry)
  | .mapping nodes => nodes.mapM fun kv => do
    return ⟨← Leaf.ofNode? kv.1, ← Leaf.ofNode? kv.2⟩
  | _ => none

/-- What is read off a node as a scalar is the scalar of the node. -/
theorem Leaf.node_of_ofNode? {n : Node} {l : Leaf} (h : ofNode? n = some l) : n = l.node := by
  cases n with
  | scalar tag plain text =>
      cases h
      rfl
  | _ => cases h

/-- A mapping is made of the nodes of its entries. -/
theorem mapping_of_entries? {n : Node} {entries : List Entry} (h : entries? n = some entries) :
    n = .mapping (entries.map Entry.nodes) := by
  cases n with
  | mapping nodes =>
      rw [entries?] at h
      refine congrArg Node.mapping ?_
      induction nodes generalizing entries with
      | nil =>
          cases h
          rfl
      | cons kv nodes ih =>
          simp only [List.mapM_cons, Option.bind_eq_bind, Option.pure_def,
            Option.bind_eq_some_iff, Option.some.injEq] at h
          obtain ⟨_, ⟨key, hkey, value, hvalue, rfl⟩, rest, hrest, rfl⟩ := h
          rw [List.map_cons, ← ih hrest, Entry.nodes, ← Leaf.node_of_ofNode? hkey,
            ← Leaf.node_of_ofNode? hvalue]
  | _ => cases h

/-- A text whose first document is a mapping from scalars to scalars. -/
theorem firstDocument?_of_entries? {text : String} {entries : List Entry}
    (h : ((firstDocument? text).bind fun doc => doc.bind entries?) = some entries) :
    firstDocument? text = some (some (.mapping (entries.map Entry.nodes))) := by
  obtain ⟨doc, hdoc, h⟩ := Option.bind_eq_some_iff.mp h
  obtain ⟨n, rfl, hn⟩ := Option.bind_eq_some_iff.mp h
  rw [hdoc, mapping_of_entries? hn]

/-- `Reads entries fields`: the fields are those that the entries stand for. -/
inductive Reads : List Entry → Fields → Prop where
  | nil : Reads [] []
  | null {e : Entry} {es : List Entry} {fs : Fields} (hkey : e.key.name? = some none)
      (rest : Reads es fs) : Reads (e :: es) fs
  | field {e : Entry} {es : List Entry} {fs : Fields} {name : String} {v : Value}
      (hkey : e.key.name? = some (some name)) (hvalue : e.value.value? = some v)
      (rest : Reads es fs) : Reads (e :: es) ((name, v) :: fs)

variable {entries : List Entry} {fields : Fields}

/-- A field is there if and only if an entry stands for it. -/
theorem Reads.mem_iff (h : Reads entries fields) {name : String} {v : Value} :
    (name, v) ∈ fields ↔
      ∃ e ∈ entries, e.key.name? = some (some name) ∧ e.value.value? = some v := by
  induction h with
  | nil => simp
  | null hkey _ ih => simp [ih, hkey]
  | field hkey hvalue _ ih =>
      simp only [List.mem_cons, ih, Prod.mk.injEq, exists_eq_or_imp, hkey, hvalue,
        Option.some.injEq]
      grind

/-- Every key has been read, and every value of a key that gives a name. -/
theorem Reads.exists_of_mem (h : Reads entries fields) {e : Entry} (he : e ∈ entries) :
    e.key.name? = some none ∨
      ∃ name v, e.key.name? = some (some name) ∧ e.value.value? = some v := by
  induction h with
  | nil => cases he
  | null hkey _ ih =>
      cases he with
      | head => exact .inl hkey
      | tail _ he => exact ih he
  | field hkey hvalue _ ih =>
      cases he with
      | head => exact .inr ⟨_, _, hkey, hvalue⟩
      | tail _ he => exact ih he

/-- Entries stand for fields if every key is null or gives a name with a value. -/
theorem exists_reads
    (h : ∀ e ∈ entries, e.key.name? = some none ∨
      ∃ name v, e.key.name? = some (some name) ∧ e.value.value? = some v) :
    ∃ fields, Reads entries fields := by
  induction entries with
  | nil => exact ⟨[], .nil⟩
  | cons e es ih =>
      obtain ⟨fields, hfields⟩ := ih fun e' he' => h e' (List.mem_cons_of_mem e he')
      obtain hkey | ⟨name, v, hkey, hvalue⟩ := h e List.mem_cons_self
      · exact ⟨fields, .null hkey hfields⟩
      · exact ⟨_, .field hkey hvalue hfields⟩

/-! ## the last field of each name -/

/-- The last fields of each name are among the fields, in their order. -/
theorem latest_sublist : List.Sublist (Fields.latest fields) fields := by
  induction fields with
  | nil => exact .slnil
  | cons f fs ih =>
      rw [Fields.latest]
      split
      · exact ih.cons f
      · exact ih.cons_cons f

/-- Every name has a last field. -/
theorem exists_mem_latest {f : String × Value} (h : f ∈ fields) :
    ∃ g ∈ Fields.latest fields, g.1 = f.1 := by
  induction fields generalizing f with
  | nil => cases h
  | cons g gs ih =>
      rw [Fields.latest]
      split
      · next hany =>
          cases h with
          | head =>
              obtain ⟨g', hg', hname⟩ := List.any_eq_true.mp hany
              obtain ⟨g'', hg'', hname'⟩ := ih hg'
              exact ⟨g'', hg'', hname'.trans (beq_iff_eq.mp hname)⟩
          | tail _ h => exact ih h
      · cases h with
        | head => exact ⟨_, List.mem_cons_self, rfl⟩
        | tail _ h =>
            obtain ⟨g', hg', hname⟩ := ih h
            exact ⟨g', List.mem_cons_of_mem _ hg', hname⟩

/-- The last fields have different names. -/
theorem nodup_latest : ((Fields.latest fields).map (·.1)).Nodup := by
  induction fields with
  | nil => exact .nil
  | cons f fs ih =>
      rw [Fields.latest]
      split
      · exact ih
      · next hany =>
          rw [List.map_cons, List.nodup_cons]
          refine ⟨fun hmem => ?_, ih⟩
          obtain ⟨g, hg, hname⟩ := List.mem_map.mp hmem
          exact hany (List.any_eq_true.mpr ⟨g, latest_sublist.subset hg, beq_iff_eq.mpr hname⟩)

/-! ## scalars and their texts -/

/-- Reading a double comes to a double, if to anything. -/
theorem of_readDouble? {cs : List Char} {s : Scalar} (h : readDouble? cs = some s) :
    ∃ n, s = .double n := by
  obtain ⟨d, _, h⟩ := Option.bind_eq_some_iff.mp h
  obtain ⟨m, _, h⟩ := Option.map_eq_some_iff.mp h
  exact ⟨_, h.symm⟩

/-- Reading an integer comes to an integer, if to anything. -/
theorem of_readInteger? {cs : List Char} {s : Scalar} (h : readInteger? cs = some s) :
    ∃ n, s = .integer n := by
  unfold readInteger? at h
  split at h
  · exact ⟨_, (Option.some.inj h).symm⟩
  · split at h
    · exact ⟨_, (Option.some.inj h).symm⟩
    · cases h

/-- A number behind a radix mark is an integer. -/
theorem of_readMarked? {cs : List Char} {s : Scalar} (h : readMarked? cs = some s) :
    ∃ n, s = .integer n := by
  unfold readMarked? at h
  split at h
  · dsimp only at h
    split at h
    · obtain ⟨n, _, h⟩ := Option.map_eq_some_iff.mp h
      exact ⟨n, h.symm⟩
    · cases h
  · cases h

/-- What starts like a number is a timestamp, an integer or a double. -/
theorem of_readNumber? {timestamps : Bool} {cs : List Char} {s : Scalar}
    (h : readNumber? timestamps cs = some s) :
    (∃ t, s = .timestamp t) ∨ (∃ n, s = .integer n) ∨ ∃ n, s = .double n := by
  cases cs with
  | nil => cases h
  | cons c cs =>
      simp only [readNumber?] at h
      split at h
      · split at h
        · exact .inr (.inr (of_readDouble? h))
        · cases h
      · split at h
        · split at h
          · exact .inl ⟨_, (Option.some.inj h).symm⟩
          · simp only [Option.orElse_eq_or, Option.or_eq_some_iff] at h
            obtain (h | ⟨_, h⟩) | ⟨_, h⟩ := h
            · exact .inr (.inl (of_readInteger? h))
            · exact .inr (.inr (of_readDouble? h))
            · exact .inr (.inl (of_readMarked? h))
        · cases h

/-- A number is not null. -/
theorem readNumber?_ne_null {timestamps : Bool} {cs : List Char} :
    readNumber? timestamps cs ≠ some .null := by
  intro h
  have := of_readNumber? h
  simp at this

/-- A number is not a string. -/
theorem readNumber?_ne_string {timestamps : Bool} {cs : List Char} {t : String} :
    readNumber? timestamps cs ≠ some (.string t) := by
  intro h
  have := of_readNumber? h
  simp at this

/-- The words for null. -/
def nullWords : List String := ["", "~", "null", "Null", "NULL"]

/-- Of the plain words, only those listed stand for null. -/
theorem ofWord_eq_null {timestamps : Bool} {cs : List Char} (h : ofWord timestamps cs = .null) :
    String.ofList cs ∈ nullWords := by
  unfold ofWord at h
  split at h
  · next s hs =>
      obtain ⟨before, after, hwords, _⟩ := List.lookup_eq_some_iff.mp hs
      have hmem : (String.ofList cs, s) ∈ words := by simp [hwords]
      have hall : ∀ p ∈ words, p.2 = .null → p.1 ∈ nullWords := by decide
      exact hall _ hmem h
  · cases hnumber : readNumber? timestamps cs with
    | none => simp [hnumber] at h
    | some s =>
        rw [hnumber, Option.getD_some] at h
        exact absurd (h ▸ hnumber) readNumber?_ne_null

/-- A word that is a string is the string of its characters. -/
theorem ofWord_eq_string {timestamps : Bool} {cs : List Char} {t : String}
    (h : ofWord timestamps cs = .string t) : t = String.ofList cs := by
  unfold ofWord at h
  split at h
  · next s hs =>
      obtain ⟨before, after, hwords, _⟩ := List.lookup_eq_some_iff.mp hs
      have hmem : (String.ofList cs, s) ∈ words := by simp [hwords]
      have hall : ∀ p ∈ words, p.2.tag ≠ "!!str" := by decide
      exact absurd (congrArg Scalar.tag h) (hall _ hmem)
  · cases hnumber : readNumber? timestamps cs with
    | none =>
        rw [hnumber, Option.getD_none] at h
        exact (Scalar.string.inj h).symm
    | some s =>
        rw [hnumber, Option.getD_some] at h
        exact absurd (h ▸ hnumber) readNumber?_ne_string

namespace Leaf

variable {l : Leaf} {s : Scalar} {t : String}

/-- Where a scalar can come from. -/
theorem scalar?_cases (h : l.scalar? = some s) :
    (∃ os, Text.base64? l.text.toList = some os ∧ s = .string (String.ofList (Text.ofOctets os))) ∨
    (∃ timestamps, ofWord timestamps l.text.toList = s ∨
      (∃ m, ofWord timestamps l.text.toList = .integer m) ∧ ∃ n, s = .double n) ∨
    s = .string l.text := by
  have htext : Scalar.string (String.ofList l.text.toList) = .string l.text := by
    rw [String.ofList_toList]
  unfold scalar? Scalar.resolve? at h
  cases htag : l.tag with
  | none =>
      simp only [htag] at h
      split at h
      · exact .inr (.inl ⟨true, .inl (Option.some.inj h)⟩)
      · exact .inr (.inr ((Option.some.inj h).symm.trans htext))
  | some tag =>
      simp only [htag, Scalar.ofTagged?] at h
      split at h
      · obtain ⟨os, hos, h⟩ := Option.map_eq_some_iff.mp h
        exact .inl ⟨os, hos, h.symm⟩
      · split at h
        · refine .inr (.inl ⟨tag == "!!timestamp", ?_⟩)
          split at h
          · next n hn =>
              split at h
              · exact .inr ⟨⟨n, hn⟩, _, (Option.some.inj h).symm⟩
              · split at h
                · exact .inl (hn.trans (Option.some.inj h))
                · cases h
          · split at h
            · exact .inl (Option.some.inj h)
            · cases h
        · exact .inr (.inr ((Option.some.inj h).symm.trans htext))

/-- A scalar that is null has one of the words for it as its text. -/
theorem text_of_null (h : l.scalar? = some .null) : l.text ∈ nullWords := by
  obtain ⟨os, _, hs⟩ | ⟨timestamps, hword | ⟨_, n, hs⟩⟩ | hs := scalar?_cases h
  · cases hs
  · have hmem := ofWord_eq_null hword
    rwa [String.ofList_toList] at hmem
  · cases hs
  · cases hs

/-- The string of a scalar is its text, or what its text encodes in base 64. -/
theorem text_of_string (h : l.scalar? = some (.string t)) :
    l.text = t ∨ (Text.base64? l.text.toList).map
      (fun os => String.ofList (Text.ofOctets os)) = some t := by
  obtain ⟨os, hos, hs⟩ | ⟨timestamps, hword | ⟨_, n, hs⟩⟩ | hs := scalar?_cases h
  · cases hs
    exact .inr (by rw [hos]; rfl)
  · have htext := ofWord_eq_string hword
    rw [String.ofList_toList] at htext
    exact .inl htext.symm
  · cases hs
  · exact .inl (Scalar.string.inj hs).symm

/-- A text that is a string as a plain word is one with any tag, and in quotes. -/
theorem exists_string_of_text (hword : ∀ timestamps, ofWord timestamps l.text.toList = .string t)
    (h : l.scalar? = some s) : ∃ u, s = .string u := by
  obtain ⟨os, _, hs⟩ | ⟨timestamps, hs | ⟨⟨m, hm⟩, _⟩⟩ | hs := scalar?_cases h
  · exact ⟨_, hs⟩
  · exact ⟨t, hs.symm.trans (hword timestamps)⟩
  · cases hm.symm.trans (hword timestamps)
  · exact ⟨_, hs⟩

end Leaf

/-! ## reading without aliases -/

/-- `Gives m o`: where no node has been read because of an alias, the computation comes
to `o`, and reads none either. -/
def Gives {α : Type} (m : Visit α) (o : Option α) : Prop :=
  ∀ n : Nat, ∃ n' : Nat, m ⟨n, 0⟩ = o.map fun a => (a, ⟨n', 0⟩)

section Gives

variable {α β : Type} {m : Visit α} {o : Option α} {f : α → Visit β} {g : α → Option β}

theorem gives_pure (a : α) : Gives (pure a) (some a) := fun n => ⟨n, rfl⟩

theorem gives_lift (o : Option α) : Gives (liftM o) o := fun n => ⟨n, by cases o <;> rfl⟩

theorem gives_visit : Gives (visit false) (some ()) := fun n => ⟨n + 1, rfl⟩

/-- One computation after the other gives what their results do. -/
theorem Gives.bind (hm : Gives m o) (hf : ∀ a, Gives (f a) (g a)) :
    Gives (m >>= f) (o.bind g) := by
  intro n
  obtain ⟨n', hn'⟩ := hm n
  have hbind : (m >>= f) ⟨n, 0⟩ = (m ⟨n, 0⟩).bind fun r => f r.1 r.2 := rfl
  rw [hbind, hn']
  cases o with
  | none => exact ⟨n, rfl⟩
  | some a => exact hf a n'

end Gives

/-- Scalars are read as what they stand for. -/
theorem gives_value (l : Leaf) : Gives (l.node.value false) l.value? := by
  have hvalue : l.value? = l.scalar?.bind fun s => some (s.toValue l.text) := Option.map_eq_bind
  rw [Leaf.node, Node.value, hvalue]
  exact gives_visit.bind fun _ => (gives_lift l.scalar?).bind fun s => gives_pure _

/-- The name of a field is read off its key. -/
theorem gives_fieldName (l : Leaf) : Gives (l.node.fieldName false) l.name? := by
  have hname : l.name? = l.scalar?.bind fun s => some (match s with
    | .null => none
    | .string s => some s
    | _ => some l.text) := Option.map_eq_bind
  rw [Leaf.node, Node.fieldName, hname]
  refine gives_visit.bind fun _ => (gives_lift l.scalar?).bind fun s => ?_
  cases s <;> exact gives_pure _

/-- The fields that entries stand for, none of which merges. -/
def fields? : List Entry → Option Fields
  | [] => some []
  | e :: es =>
    e.key.name?.bind fun
      | none => fields? es
      | some name => e.value.value?.bind fun v => (fields? es).bind fun fs => some ((name, v) :: fs)

/-- The fields that are computed are those that the entries stand for. -/
theorem fields?_eq_some_iff : fields? entries = some fields ↔ Reads entries fields := by
  constructor
  · intro h
    induction entries generalizing fields with
    | nil =>
        cases h
        exact .nil
    | cons e es ih =>
        obtain ⟨o, hkey, h⟩ := Option.bind_eq_some_iff.mp h
        cases o with
        | none => exact .null hkey (ih h)
        | some name =>
            obtain ⟨v, hvalue, h⟩ := Option.bind_eq_some_iff.mp h
            obtain ⟨fs, hfs, h⟩ := Option.bind_eq_some_iff.mp h
            cases h
            exact .field hkey hvalue (ih hfs)
  · intro h
    induction h with
    | nil => rfl
    | null hkey _ ih => simp only [fields?, hkey, Option.bind_some, ih]
    | field hkey hvalue _ ih => simp only [fields?, hkey, hvalue, Option.bind_some, ih]

/-- A mapping without merge keys gives the fields of its entries. -/
theorem gives_fieldsOf (h : ∀ e ∈ entries, e.key.node.isMerge = false) :
    Gives (fieldsOf false none (entries.map Entry.nodes)) (fields? entries) := by
  induction entries with
  | nil =>
      rw [List.map_nil, fieldsOf]
      exact gives_pure []
  | cons e es ih =>
      obtain ⟨he, hes⟩ := List.forall_mem_cons.mp h
      rw [List.map_cons, Entry.nodes, fieldsOf, if_neg (by simp [he]), fields?]
      refine (gives_fieldName e.key).bind fun o => ?_
      cases o with
      | none => exact ih hes
      | some name =>
          exact (gives_value e.value).bind fun v => (ih hes).bind fun fs => gives_pure _

/-! ## keys -/

/-- Keys count as the same if they are written alike. -/
theorem distinctKeys_iff :
    distinctKeys (entries.map Entry.nodes) = true ↔
      entries.Pairwise fun e e' => e.key.text ≠ e'.key.text := by
  induction entries with
  | nil => simp [distinctKeys]
  | cons e es ih =>
      simp [distinctKeys, Entry.nodes, Leaf.node, Node.sameKey] at ih ⊢
      simp [ih]

/-- A key that merges is called `<<`. -/
theorem Leaf.name?_of_isMerge {l : Leaf} (h : l.node.isMerge = true) :
    l.name? = some (some "<<") := by
  obtain ⟨tag, plain, text⟩ := l
  simp only [node, Node.isMerge, Bool.and_eq_true, Bool.or_eq_true, beq_iff_eq] at h
  obtain ⟨rfl, rfl | ⟨rfl, rfl⟩⟩ := h
  · cases plain <;> decide +kernel
  · decide +kernel

/-- A scalar cannot be merged. -/
theorem mergedFields_eq_none (h : ∃ e ∈ entries, e.key.node.isMerge = true) (seen : List String)
    (effort : Effort) : mergedFields false seen (entries.map Entry.nodes) effort = none := by
  induction entries with
  | nil => simp at h
  | cons e es ih =>
      rw [List.map_cons, Entry.nodes, mergedFields]
      split
      · rfl
      · next he => exact ih (by simpa [he] using h)

/-- A computation fails with what follows it. -/
theorem bind_eq_none {α β : Type} {f : α → Visit β} (h : ∀ a effort, f a effort = none)
    (m : Visit α) (effort : Effort) : (m >>= f) effort = none := by
  have hbind : (m >>= f) effort = (m effort).bind fun r => f r.1 r.2 := rfl
  rw [hbind]
  cases m effort with
  | none => rfl
  | some r => exact h r.1 r.2

/-- A mapping of scalars with a merge key has no fields, for a scalar cannot be
merged. -/
theorem joinFields_eq_none (h : ∃ e ∈ entries, e.key.node.isMerge = true) (own : Visit Fields)
    (effort : Effort) :
    joinFields false (entries.map Entry.nodes) own
      (fun seen => mergedFields false seen (entries.map Entry.nodes)) effort = none := by
  have hany : (entries.map Entry.nodes).any (·.1.isMerge) = true := by
    simpa [Entry.nodes] using h
  rw [joinFields]
  by_cases hdistinct : distinctKeys (entries.map Entry.nodes) = true
  · rw [if_pos hdistinct]
    simp only [hany, if_true]
    refine bind_eq_none (fun fs => bind_eq_none (fun seen e => ?_) _) own effort
    have hbind : (mergedFields false seen (entries.map Entry.nodes) >>= fun merged =>
        pure (fs ++ merged) : Visit Fields) e =
      (mergedFields false seen (entries.map Entry.nodes) e).bind fun r =>
        some (fs ++ r.1, r.2) := rfl
    rw [hbind, mergedFields_eq_none h]
    rfl
  · rw [if_neg hdistinct]
    rfl

/-! ## reading -/

/-- Where no key merges, a flat mapping is read as its fields if its keys are written
differently, and not at all otherwise. -/
theorem gives_joinFields (h : ∀ e ∈ entries, e.key.node.isMerge = false)
    (merged : List String → Visit Fields) :
    Gives (joinFields false (entries.map Entry.nodes)
        (fieldsOf false none (entries.map Entry.nodes)) merged)
      (if distinctKeys (entries.map Entry.nodes) then fields? entries else none) := by
  have hany : (entries.map Entry.nodes).any (·.1.isMerge) = false := by
    simpa [Entry.nodes] using h
  rw [joinFields]
  split
  · simp only [hany, Bool.false_eq_true, if_false]
    have hbind := (gives_fieldsOf h).bind fun fs => gives_pure fs
    rwa [Option.bind_fun_some] at hbind
  · exact fun n => ⟨n, rfl⟩

/-- The values of scalars are nested in no way. -/
theorem depth?_of_value? {l : Leaf} {v : Value} (h : l.value? = some v) :
    v = .other ∧ v.depth? = none ∨ v ≠ .other ∧ v.depth? = some 0 := by
  obtain ⟨s, _, rfl⟩ := Option.map_eq_some_iff.mp h
  cases s with
  | timestamp t =>
      rw [Scalar.toValue]
      split
      · exact .inr ⟨nofun, by rw [Value.depth?] <;> nofun⟩
      · exact .inl ⟨rfl, by rw [Value.depth?]⟩
  | notFinite => exact .inl ⟨rfl, by rw [Scalar.toValue, Value.depth?]⟩
  | null | bool | integer | double | string =>
      exact .inr ⟨nofun, by rw [Scalar.toValue, Value.depth?] <;> nofun⟩

/-- Fields of scalars can be written as data if each of them can. -/
theorem isData_iff (h : ∀ f ∈ fields, ∃ l : Leaf, l.value? = some f.2) :
    (Value.mapping fields).depth?.any (· ≤ maxDepth) = true ↔ ∀ f ∈ fields, f.2 ≠ .other := by
  have hdepth : depthOfFields? fields = some 0 ∧ (∀ f ∈ fields, f.2 ≠ .other) ∨
      depthOfFields? fields = none ∧ ¬ ∀ f ∈ fields, f.2 ≠ .other := by
    induction fields with
    | nil => exact .inl ⟨by rw [depthOfFields?], nofun⟩
    | cons f fs ih =>
        obtain ⟨⟨l, hl⟩, hfs⟩ := List.forall_mem_cons.mp h
        obtain ⟨name, v⟩ := f
        rw [List.forall_mem_cons, depthOfFields?]
        obtain ⟨hother, hv⟩ | ⟨hother, hv⟩ := depth?_of_value? hl
        · exact .inr ⟨by rw [hv]; rfl, fun hall => hall.1 hother⟩
        · obtain ⟨hrest, hall⟩ | ⟨hrest, hall⟩ := ih hfs
          · exact .inl ⟨by rw [hv, hrest]; rfl, hother, hall⟩
          · exact .inr ⟨by rw [hv, hrest]; rfl, fun h => hall h.2⟩
  rw [Value.depth?]
  obtain ⟨hfields, hall⟩ | ⟨hfields, hall⟩ := hdepth
  · rw [hfields]
    exact iff_of_true rfl hall
  · rw [hfields]
    exact iff_of_false (by simp) hall

/-- What a flat document comes to, before it is asked whether it can be written as
data. -/
theorem exists_gives_fieldsOfNode {n : Node} (h : Flat (some n) entries) :
    ∃ o, Gives (fieldsOfNode n) o ∧ ∀ fs, o = some fs ↔
      entries.Pairwise (fun e e' => e.key.text ≠ e'.key.text) ∧
      (∀ e ∈ entries, e.key.node.isMerge = false) ∧ Reads entries fs := by
  cases h with
  | @null l hnull =>
      have hread (s : Scalar) : Gives (if s = .null then pure [] else failure : Visit Fields)
          (if s = .null then some [] else none) := by
        split
        · exact gives_pure []
        · exact fun n => ⟨n, rfl⟩
      refine ⟨_, gives_visit.bind fun _ => (gives_lift l.scalar?).bind hread, fun fs => ?_⟩
      rw [hnull, ← fields?_eq_some_iff]
      simp [fields?]
  | mapping =>
      by_cases hmerge : ∀ e ∈ entries, e.key.node.isMerge = false
      · refine ⟨_, gives_visit.bind fun _ => gives_joinFields hmerge _, fun fs => ?_⟩
        rw [Option.bind_some, Option.ite_none_right_eq_some, distinctKeys_iff,
          fields?_eq_some_iff, and_iff_right hmerge]
      · refine ⟨none, fun n => ⟨n, ?_⟩, fun fs => iff_of_false nofun fun h => hmerge h.2.1⟩
        exact bind_eq_none (fun _ => joinFields_eq_none (by simpa using hmerge) _) _ _

/-- **Flat documents**: a flat document is read as the fields that its entries stand
for, if its keys are written differently and none of them merges, and all values that
count can be written as data. -/
theorem read?_eq_some_iff {text : String} {doc : Option Node}
    (hdoc : firstDocument? text = some doc) (hflat : Flat doc entries) :
    read? text = some fields ↔
      entries.Pairwise (fun e e' => e.key.text ≠ e'.key.text) ∧
      (∀ e ∈ entries, e.key.node.isMerge = false) ∧ Reads entries fields ∧
      ∀ f ∈ Fields.latest fields, f.2 ≠ .other := by
  have hdata (h : Reads entries fields) :
      (Value.mapping fields.latest).depth?.any (· ≤ maxDepth) = true ↔
        ∀ f ∈ Fields.latest fields, f.2 ≠ .other := by
    refine isData_iff fun f hf => ?_
    have hmem : (f.1, f.2) ∈ fields := latest_sublist.subset hf
    obtain ⟨e, _, _, hvalue⟩ := h.mem_iff.mp hmem
    exact ⟨e.value, hvalue⟩
  rw [read?, hdoc]
  cases doc with
  | none =>
      cases hflat
      constructor
      · rintro ⟨rfl⟩
        exact ⟨.nil, nofun, .nil, nofun⟩
      · rintro ⟨_, _, h, _⟩
        cases h
        rfl
  | some n =>
      obtain ⟨o, hgives, ho⟩ := exists_gives_fieldsOfNode hflat
      obtain ⟨n', hrun⟩ := hgives 0
      have hmap : ((fieldsOfNode n).run {}).map (·.1) = o := by
        have heffort : (fieldsOfNode n).run {} = fieldsOfNode n ⟨0, 0⟩ := rfl
        rw [heffort, hrun, Option.map_map]
        exact Option.map_id'
      simp only [hmap, Option.filter_eq_some_iff, ho]
      grind

end SecdMachine.Yaml
