import SecdMachine.Proofs.Changes
import SecdMachine.Proofs.Filling
import SecdMachine.Proofs.LoadReports
import SecdMachine.Proofs.Presentation
import SecdMachine.Proofs.PrintedForm
import SecdMachine.Proofs.Rejoining

/-!
# SecdMachine.Proofs.Codeless

Texts in which no terminal code can begin.

Every terminal code begins with the escape character, and a text without this
character is codeless.  Numbers, values and the lines that tell of changes are
codeless, whatever they are of: their letters come from fixed words and digits, and
JSON writes control characters as escapes.  Messages and explanations of faults quote
texts, so that they are codeless if these are (`Fault.Codeless`).

What a fault quotes comes from a statement without illegal characters, and the escape
character is illegal; where it is the illegal character itself, it is written as an
escape too.  So all reports of loading have codeless texts as long as the source has a
codeless name (`Assembly.codeless_text_of_mem`), and the reports that end a run quote
nothing but names of types and opcodes (`Trace.Valid.codeless`).
-/

namespace SecdMachine

/-- The text does not hold the character that terminal codes begin with. -/
def Codeless (s : String) : Prop :=
  '\x1b' ∉ s.toList

variable {s t sep : String} {ss : List String} {cs : List Char}

/-! ## texts -/

theorem codeless_ofList (h : '\x1b' ∉ cs) : Codeless (String.ofList cs) := by
  rwa [Codeless, String.toList_ofList]

theorem codeless_empty : Codeless "" :=
  codeless_ofList List.not_mem_nil

/-- Two texts put together are codeless if and only if both are. -/
@[simp] theorem codeless_append : Codeless (s ++ t) ↔ Codeless s ∧ Codeless t := by
  simp [Codeless]

/-- What is taken from a codeless text is codeless. -/
theorem Codeless.of_subset (h : Codeless s) (hsubset : cs ⊆ s.toList) :
    Codeless (String.ofList cs) :=
  codeless_ofList fun hmem => h (hsubset hmem)

/-- Codeless texts put together are codeless. -/
theorem codeless_concat (h : ∀ s ∈ ss, Codeless s) : Codeless (Text.concat ss) := by
  rw [Codeless, Text.toList_concat, List.mem_flatMap]
  rintro ⟨s, hs, hmem⟩
  exact h s hs hmem

/-- Codeless texts with a codeless separator between them are codeless. -/
theorem codeless_join (hsep : Codeless sep) (h : ∀ s ∈ ss, Codeless s) :
    Codeless (Text.join sep ss) := fun hmem =>
  (Text.mem_toList_join hmem).elim hsep fun ⟨s, hs, hc⟩ => h s hs hc

/-- Codeless lines make a codeless text. -/
theorem codeless_unlines (h : ∀ s ∈ ss, Codeless s) : Codeless (Text.unlines ss) := by
  refine codeless_concat fun t ht => ?_
  obtain ⟨s, hs, rfl⟩ := List.mem_map.mp ht
  exact codeless_append.mpr ⟨h s hs, codeless_ofList (by decide)⟩

theorem codeless_spaces (n : Nat) : Codeless (String.ofList (List.replicate n ' ')) :=
  codeless_ofList fun hmem => absurd (List.eq_of_mem_replicate hmem) (by decide)

/-- Padding keeps a text codeless. -/
theorem codeless_padLeft (n : Nat) (h : Codeless s) : Codeless (Text.padLeft n s) :=
  codeless_append.mpr ⟨codeless_spaces _, h⟩

/-- A wrapped text consists of words and white space. -/
theorem codeless_wrap (left : Nat) (right : Int) (h : Codeless s) :
    Codeless (Text.wrap left right s) := by
  obtain ⟨layouts, hfilled, hprinted⟩ := Text.exists_layouts_wrap left right s
  have hwords : ∀ w ∈ layouts.flatten.flatten, Codeless w := by
    intro w hw
    rw [Text.flatten_layouts hfilled] at hw
    obtain ⟨ws, hws, hw⟩ := List.mem_flatten.mp hw
    obtain ⟨line, hline, rfl⟩ := List.mem_map.mp hws
    obtain ⟨word, hword, rfl⟩ := List.mem_map.mp hw
    have hstands : word <:+: s.toList :=
      (Text.isInfix_of_mem_splitWhere (List.mem_of_mem_filter hword)).trans
        (Text.isInfix_of_mem_splitWhere hline)
    exact h.of_subset hstands.subset
  rw [hprinted]
  refine codeless_unlines fun t ht => ?_
  obtain ⟨l, hl, rfl⟩ := List.mem_map.mp ht
  exact codeless_append.mpr ⟨codeless_spaces left, codeless_join (codeless_ofList (by decide))
    fun w hw => hwords w (List.mem_flatten.mpr ⟨l, hl, hw⟩)⟩

/-! ## numbers and characters -/

/-- Digits of any radix up to sixteen are codeless. -/
theorem not_mem_toDigits {b : Nat} (hlow : 1 < b) (hhigh : b ≤ 16) (n : Nat) :
    '\x1b' ∉ Nat.toDigits b n := by
  have hdigit : ∀ d < 16, Nat.digitChar d ≠ '\x1b' := by decide
  induction n using Nat.strongRecOn with
  | ind n ih =>
      by_cases hlt : n < b
      · rw [Nat.toDigits_of_lt_base hlt, List.mem_singleton]
        exact (hdigit n (by omega)).symm
      · have hless : n / b < n := Nat.div_lt_self (by omega) hlow
        have hmod : n % b < b := Nat.mod_lt n (by omega)
        rw [Nat.toDigits_of_base_le hlow (by omega), List.mem_append, List.mem_singleton, not_or]
        exact ⟨ih _ hless, (hdigit _ (by omega)).symm⟩

/-- The decimal digits of a natural number are codeless. -/
theorem codeless_natural (n : Nat) : Codeless (Numeral.natural n) :=
  codeless_ofList (not_mem_toDigits (by decide) (by decide) n)

/-- An integer in decimal is codeless, with its sign. -/
theorem codeless_decimal (n : Int) : Codeless (Numeral.decimal n) := by
  cases n with
  | ofNat n => exact codeless_natural n
  | negSucc n => exact codeless_append.mpr ⟨codeless_ofList (by decide), codeless_natural _⟩

/-- Hexadecimal digits are codeless, padded or not. -/
theorem not_mem_hexadecimal (width n : Nat) : '\x1b' ∉ Text.hexadecimal width n := by
  rw [Text.hexadecimal, List.mem_append, not_or]
  exact ⟨fun hmem => absurd (List.eq_of_mem_replicate hmem) (by decide),
    not_mem_toDigits (by decide) (by decide) n⟩

/-- The escape character is no exception: a character in quotes is codeless. -/
theorem codeless_quoteChar (c : Char) : Codeless (Text.quoteChar c) := by
  have hletter : '\x1b' ∉ Text.escape '\'' c := by
    have hhex := not_mem_hexadecimal
    unfold Text.escape
    split
    · next hc => rcases hc with rfl | rfl <;> decide
    · split
      · next hprintable =>
          rw [List.mem_singleton]
          rintro rfl
          revert hprintable
          decide +kernel
      · split
        · next letter hsome =>
            revert hsome
            unfold Text.escapeLetter?
            split <;> simp +contextual
            all_goals rintro rfl; decide
        · split
          · simp [hhex]
          · split <;> simp [hhex]
  rw [Text.quoteChar]
  exact codeless_ofList (by simpa using hletter)

/-! ## values and operations -/

theorem codeless_describeLocation (location : Nat) : Codeless (describeLocation location) :=
  codeless_append.mpr ⟨codeless_ofList (by decide), codeless_natural location⟩

/-- A list of locations is codeless in print. -/
theorem codeless_describeLocations (locations : List Nat) :
    Codeless (describeLocations locations) := by
  refine codeless_join (codeless_ofList (by decide)) fun t ht => ?_
  obtain ⟨location, _, rfl⟩ := List.mem_map.mp ht
  exact codeless_describeLocation location

namespace Value

theorem codeless_typeName (v : Value) : Codeless v.typeName := by
  cases v <;> exact codeless_ofList (by decide)

/-- A list of values is codeless in print if its members are. -/
theorem codeless_describeList {vs : List Value} (h : ∀ v ∈ vs, Codeless v.describe) :
    Codeless (describeList vs) := by
  refine codeless_append.mpr ⟨codeless_append.mpr ⟨codeless_ofList (by decide), ?_⟩,
    codeless_ofList (by decide)⟩
  refine codeless_join (codeless_ofList (by decide)) fun t ht => ?_
  obtain ⟨v, hv, rfl⟩ := List.mem_map.mp ht
  exact h v (List.mem_reverse.mp hv)

/-- **Values**: the printed form of any value is codeless. -/
theorem codeless_describe (v : Value) : Codeless v.describe := by
  induction v using Value.induction with
  | step v ih =>
      have henv : Codeless (describeList v.environment) := codeless_describeList ih
      cases v with
      | int n => exact codeless_decimal n
      | bool b => cases b <;> exact codeless_ofList (by decide)
      | closure entry env =>
          rw [describe_closure]
          simp only [codeless_append, codeless_describeLocation]
          refine ⟨⟨⟨⟨?_, trivial⟩, ?_⟩, henv⟩, ?_⟩ <;> exact codeless_ofList (by decide)
      | frame entries env =>
          rw [describe_frame]
          simp only [codeless_append, codeless_describeLocations]
          refine ⟨⟨⟨⟨?_, trivial⟩, ?_⟩, henv⟩, ?_⟩ <;> exact codeless_ofList (by decide)
      | focused index entries env =>
          rw [describe_focused]
          simp only [codeless_append, codeless_decimal, codeless_describeLocations]
          refine ⟨⟨⟨⟨⟨⟨?_, trivial⟩, ?_⟩, trivial⟩, ?_⟩, henv⟩, ?_⟩ <;>
            exact codeless_ofList (by decide)
      | returnAddress location =>
          exact codeless_append.mpr ⟨codeless_ofList (by decide), codeless_describeLocation _⟩
      | savedEnv env =>
          rw [describe_savedEnv]
          exact codeless_append.mpr ⟨codeless_ofList (by decide), henv⟩
      | undefined | unknown =>
          rw [describe]
          exact codeless_ofList (by decide)

/-- A list of values is codeless with one value to a line, too. -/
theorem codeless_describeLines (vs : List Value) : Codeless (describeLines vs) := by
  refine codeless_unlines fun t ht => ?_
  obtain ⟨v, _, rfl⟩ := List.mem_map.mp ht
  exact v.codeless_describe

end Value

/-- The mnemonics of the table are codeless. -/
theorem Opcode.codeless_mnemonic (o : Opcode) : Codeless o.mnemonic := by
  rcases o with _ | _ | _ | _ | _ | _ | _ | _ | ⟨_ | _ | _⟩ | _ | _ | _ | _ <;>
    exact codeless_ofList (by decide)

/-- The mnemonic of any operation is codeless, of one with an unknown code as well. -/
theorem Operation.codeless_mnemonic (op : Operation) : Codeless op.mnemonic := by
  cases hopcode : op.opcode? with
  | some o =>
      rw [mnemonic_of_opcode? hopcode]
      exact o.codeless_mnemonic
  | none =>
      cases op with
      | label => exact codeless_ofList (by decide)
      | unknown code =>
          exact codeless_append.mpr ⟨codeless_ofList (by decide), codeless_natural code⟩
      | _ => cases hopcode

/-! ## documents -/

namespace Json

/-- A JSON string is codeless: control characters are written as escapes. -/
theorem codeless_quote (s : String) : Codeless (quote s) := by
  have hchar (c : Char) : '\x1b' ∉ escapeChar c := by
    have hhex := not_mem_hexadecimal 4 c.toNat
    unfold escapeChar
    split
    · next hc => rcases hc with rfl | rfl <;> decide
    · split
      · simp [hhex]
      · next hlow =>
          rw [List.mem_singleton]
          rintro rfl
          exact hlow (by decide)
  refine codeless_append.mpr ⟨codeless_append.mpr ⟨codeless_ofList (by decide), ?_⟩,
    codeless_ofList (by decide)⟩
  refine codeless_ofList fun hmem => ?_
  obtain ⟨c, _, hc⟩ := List.mem_flatMap.mp hmem
  exact hchar c hc

/-- The compact text of any document is codeless. -/
theorem codeless_compact (j : Json) : Codeless j.compact := by
  have hbetween {opening closing : String} {parts : List String} (hopening : Codeless opening)
      (hclosing : Codeless closing) (hparts : ∀ t ∈ parts, Codeless t) :
      Codeless (opening ++ Text.join "," parts ++ closing) :=
    codeless_append.mpr ⟨codeless_append.mpr
      ⟨hopening, codeless_join (codeless_ofList (by decide)) hparts⟩, hclosing⟩
  induction j using induction with
  | bool b => cases b <;> exact codeless_ofList (by decide)
  | number n => exact codeless_decimal n
  | string s => exact codeless_quote s
  | array items ih =>
      rw [compact, compactItems_eq_map]
      refine hbetween (codeless_ofList (by decide)) (codeless_ofList (by decide)) fun t ht => ?_
      obtain ⟨j, hj, rfl⟩ := List.mem_map.mp ht
      exact ih j hj
  | object fields ih =>
      rw [compact, compactFields_eq_map]
      refine hbetween (codeless_ofList (by decide)) (codeless_ofList (by decide)) fun t ht => ?_
      obtain ⟨f, hf, rfl⟩ := List.mem_map.mp ht
      exact codeless_append.mpr
        ⟨codeless_append.mpr ⟨codeless_quote f.1, codeless_ofList (by decide)⟩, ih f hf⟩

/-- `Named P j`: all names of fields, at any depth of `j`, have the property `P`. -/
inductive Named (P : String → Prop) : Json → Prop where
  | bool (b : Bool) : Named P (.bool b)
  | number (n : Int) : Named P (.number n)
  | string (s : String) : Named P (.string s)
  | array {items : List Json} (h : ∀ j ∈ items, Named P j) : Named P (.array items)
  | object {fields : List (String × Json)} (names : ∀ f ∈ fields, P f.1)
      (h : ∀ f ∈ fields, Named P f.2) : Named P (.object fields)

variable {P : String → Prop} {a b : Json}

/-- What is done to the numbers of a document leaves its names as they are. -/
theorem Named.mapNumbers (h : a.Named P) (f : Int → Int) : (a.mapNumbers f).Named P := by
  induction h with
  | bool b => exact .bool b
  | number n => exact .number (f n)
  | string s => exact .string s
  | array h ih =>
      rw [Json.mapNumbers, mapNumbersItems_eq_map]
      exact .array (by simpa using ih)
  | object names h ih =>
      rw [Json.mapNumbers, mapNumbersFields_eq_map]
      refine .object (fun g hg => ?_) fun g hg => ?_ <;>
        obtain ⟨g', hg', rfl⟩ := List.mem_map.mp hg
      · exact names g' hg'
      · exact ih g' hg'

/-- The path of a change. -/
def Change.path : Change → Path
  | .remove path | .replace path _ | .add path _ => path

/-- The names in a path have the property `P`. -/
def Path.Named (P : String → Prop) (path : Path) : Prop :=
  ∀ name, .key name ∈ path → P name

theorem Path.named_nil : Path.Named P [] := by
  simp [Named]

variable {path : Path}

/-- A path goes on with a name that has the property. -/
theorem Path.Named.key (h : path.Named P) {name : String} (hname : P name) :
    Path.Named P (path ++ [Step.key name]) := by
  intro name' hmem
  rw [List.mem_append, List.mem_singleton, Step.key.injEq] at hmem
  obtain hbefore | rfl := hmem
  · exact h name' hbefore
  · exact hname

theorem Path.Named.index (h : path.Named P) (i : Nat) :
    Path.Named P (path ++ [Step.index i]) := by
  simpa [Named] using h

theorem Path.Named.last (h : path.Named P) : Path.Named P (path ++ [Step.last]) := by
  simpa [Named] using h

theorem Path.Named.replace (h : path.Named P) (b : Json) :
    ∀ c ∈ [Change.replace path b], c.path.Named P := by
  simpa [Change.path] using h

/-- A replacement that may be left out stays at the path. -/
theorem Path.Named.replace_unless (h : path.Named P) (b : Json) (p : Prop) [Decidable p] :
    ∀ c ∈ if p then [] else [Change.replace path b], c.path.Named P := by
  split
  · exact List.forall_mem_nil _
  · exact h.replace b

/-- The changes between two arrays have named paths if those between their items do. -/
theorem named_path_diffItems {as bs : List Json}
    (ih : ∀ a ∈ as, ∀ b path, b.Named P → path.Named P → ∀ c ∈ diff path a b, c.path.Named P)
    (hbs : ∀ b ∈ bs, b.Named P) (hpath : path.Named P) (i : Nat) :
    ∀ c ∈ diffItems path i as bs, c.path.Named P := by
  induction as generalizing bs i with
  | nil =>
      intro c hc
      rw [diffItems] at hc
      obtain ⟨b, _, rfl⟩ := List.mem_map.mp hc
      exact hpath.last
  | cons a as ih' =>
      cases bs with
      | nil => exact List.forall_mem_nil _
      | cons b bs =>
          rw [List.forall_mem_cons] at ih hbs
          rw [diffItems, List.forall_mem_append]
          exact ⟨ih.1 b _ hbs.1 (hpath.index i), ih' ih.2 hbs.2 (i + 1)⟩

/-- The changes between two objects have named paths if those between their fields
do. -/
theorem named_path_diffFields {as bs : List (String × Json)}
    (ih : ∀ f ∈ as, ∀ b path, b.Named P → path.Named P → ∀ c ∈ diff path f.2 b, c.path.Named P)
    (has : ∀ f ∈ as, P f.1) (hbs : ∀ f ∈ bs, P f.1 ∧ f.2.Named P) (hpath : path.Named P) :
    ∀ c ∈ diffFields path as bs, c.path.Named P := by
  have hadditions {fs : List (String × Json)} (hfs : ∀ f ∈ fs, P f.1 ∧ f.2.Named P) :
      ∀ c ∈ fs.map fun f => Change.add (path ++ [Step.key f.1]) f.2, c.path.Named P := by
    intro c hc
    obtain ⟨f, hf, rfl⟩ := List.mem_map.mp hc
    exact hpath.key (hfs f hf).1
  induction as generalizing bs with
  | nil =>
      rw [diffFields]
      exact hadditions hbs
  | cons f as ih' =>
      obtain ⟨name, a⟩ := f
      rw [List.forall_mem_cons] at ih has
      have hrest {bs : List (String × Json)} (hbs : ∀ f ∈ bs, P f.1 ∧ f.2.Named P) :=
        ih' ih.2 has.2 hbs
      have hsmaller : ∀ f ∈ bs.takeWhile (·.1 < name), P f.1 ∧ f.2.Named P := fun f hf =>
        hbs f ((List.takeWhile_sublist _).mem hf)
      have hgreater : ∀ f ∈ bs.dropWhile (·.1 < name), P f.1 ∧ f.2.Named P := fun f hf =>
        hbs f ((List.dropWhile_sublist _).mem hf)
      rw [diffFields, List.forall_mem_append]
      refine ⟨hadditions hsmaller, ?_⟩
      cases hdrop : bs.dropWhile (·.1 < name) with
      | nil => exact List.forall_mem_cons.mpr ⟨hpath.key has.1, hrest (List.forall_mem_nil _)⟩
      | cons g greater =>
          obtain ⟨name', b⟩ := g
          rw [hdrop] at hgreater
          obtain ⟨hg, hgreater'⟩ := List.forall_mem_cons.mp hgreater
          dsimp only
          split
          · exact List.forall_mem_append.mpr ⟨ih.1 b _ hg.2 (hpath.key has.1), hrest hgreater'⟩
          · exact List.forall_mem_cons.mpr ⟨hpath.key has.1, hrest hgreater⟩

/-- **Differences** take the names in their paths from the documents. -/
theorem named_path_diff (ha : a.Named P) (hb : b.Named P) (hpath : path.Named P) :
    ∀ c ∈ diff path a b, c.path.Named P := by
  induction ha generalizing b path with
  | bool x =>
      cases b with
      | bool y => exact hpath.replace_unless _ _
      | number | string | array | object => exact hpath.replace _
  | number x =>
      cases b with
      | number y => exact hpath.replace_unless _ _
      | bool | string | array | object => exact hpath.replace _
  | string x =>
      cases b with
      | string y => exact hpath.replace_unless _ _
      | bool | number | array | object => exact hpath.replace _
  | @array as has ih =>
      cases hb with
      | array hbs =>
          rw [diff, List.forall_mem_append]
          refine ⟨fun c hc => ?_,
            named_path_diffItems (fun a ha b path hb hpath => ih a ha hb hpath) hbs hpath 0⟩
          rw [List.eq_of_mem_replicate hc]
          exact hpath.index _
      | bool | number | string | object => exact hpath.replace _
  | @object as names has ih =>
      cases hb with
      | object names' hbs =>
          exact named_path_diffFields (fun f hf b path hb hpath => ih f hf hb hpath) names
            (fun f hf => ⟨names' f hf, hbs f hf⟩) hpath
      | bool | number | string | array => exact hpath.replace _

/-- A path of codeless names is codeless in print: the rest of it is digits and
slashes. -/
theorem codeless_path (h : path.Named Codeless) : Codeless path.text := by
  rw [Codeless, toList_text, List.mem_flatMap]
  rintro ⟨s, hs, hmem⟩
  obtain hmem : '\x1b' ∈ s.part.toList := by
    simpa using (mem_escapeKey (List.mem_of_ne_of_mem (by decide) hmem)).2
  cases s with
  | key name => exact h name hs hmem
  | index i => exact codeless_natural i hmem
  | last => revert hmem; decide

/-- The line of a change at a path of codeless names is codeless. -/
theorem codeless_change {c : Change} (h : c.path.Named Codeless) : Codeless c.text := by
  have hvalue (j : Json) : Codeless (compactDoubles j) := codeless_compact _
  cases c with
  | remove path => exact codeless_append.mpr ⟨codeless_ofList (by decide), codeless_path h⟩
  | replace path value | add path value =>
      simp only [Change.text, codeless_append]
      exact ⟨⟨⟨codeless_ofList (by decide), codeless_path h⟩, codeless_ofList (by decide)⟩,
        hvalue value⟩

end Json

/-- The names of fields in the documents of values and states. -/
def documentNames : List String :=
  ["env", "fns", "halted", "index", "pc", "result", "stack", "type", "value"]

/-- The names of fields in states and values are codeless. -/
theorem codeless_of_mem_documentNames {name : String} (h : name ∈ documentNames) :
    Codeless name := by
  have hall : ∀ name ∈ documentNames, '\x1b' ∉ name.toList := by decide +kernel
  exact hall name h

namespace Value

open Json

theorem named_locationsDocument (locations : List Nat) :
    (locationsDocument locations).Named (· ∈ documentNames) := by
  refine .array fun j hj => ?_
  obtain ⟨l, _, rfl⟩ := List.mem_map.mp hj
  exact .number l

/-- The document of a list has the names that those of its members have. -/
theorem named_listDocument {vs : List Value}
    (h : ∀ v ∈ vs, v.document.Named (· ∈ documentNames)) :
    (listDocument vs).Named (· ∈ documentNames) := by
  refine .array fun j hj => ?_
  obtain ⟨v, hv, rfl⟩ := List.mem_map.mp hj
  exact h v (List.mem_reverse.mp hv)

/-- The names in the document of a value are those listed, at any depth. -/
theorem named_document (v : Value) : v.document.Named (· ∈ documentNames) := by
  induction v using Value.induction with
  | step v ih =>
      have henv := named_listDocument ih
      have hlocations := named_locationsDocument
      cases v with
      | int | bool | returnAddress | undefined | unknown =>
          refine .object (by simp [documentNames]) ?_
          simp [Named.bool, Named.number, Named.string]
      | closure entry env | frame entries env | focused index entries env | savedEnv env =>
          rw [document, array_documents]
          refine .object (by simp [documentNames]) ?_
          simpa [Named.number, Named.string, hlocations, environment] using henv

end Value

/-- The names in the document of a state are those listed. -/
theorem State.named_document (s : State) : s.document.Named (· ∈ documentNames) := by
  have hlist (vs : List Value) : (Value.listDocument vs).Named (· ∈ documentNames) :=
    Value.named_listDocument fun v _ => v.named_document
  unfold document
  split <;> refine .object (by simp [documentNames]) ?_
  · simp [Json.Named.number, hlist]
  · simp [Json.Named.number, Json.Named.bool, Value.named_document, hlist]

/-- **Changes**: the lines that tell of a step are codeless. -/
theorem Trace.codeless_change_of_mem {t : Trace} {i : Int} {cs : List Json.Change}
    (h : t.changes? i = some cs) : ∀ c ∈ cs, Codeless c.text := by
  unfold changes? at h
  split at h
  · cases h
  · split at h
    · next before after _ _ =>
        cases h
        intro c hc
        have hnamed := Json.named_path_diff (before.named_document.mapNumbers Double.read)
          (after.named_document.mapNumbers Double.read) Json.Path.named_nil c hc
        exact Json.codeless_change fun name hname =>
          codeless_of_mem_documentNames (hnamed name hname)
    · cases h

/-! ## faults -/

/-- The texts that a fault quotes are codeless. -/
def Fault.Codeless (f : Fault) : Prop :=
  ∀ s, .text s ∈ f.arguments → SecdMachine.Codeless s

/-- A text in quotes is codeless if and only if the text is. -/
theorem codeless_emph : Codeless (Fault.emph s) ↔ Codeless s := by
  have hquote : Codeless "'" := codeless_ofList (by decide)
  simp [Fault.emph, hquote]

theorem codeless_emphNumber (n : Int) : Codeless (Fault.emphNumber n) :=
  codeless_emph.mpr (codeless_decimal n)

namespace Fault

variable {f : Fault}

/-- The message of a fault is codeless if what the fault quotes is. -/
theorem Codeless.message (h : f.Codeless) : SecdMachine.Codeless f.message := by
  unfold Codeless at h
  unfold Fault.message
  cases f <;> simp only [arguments, List.mem_cons, List.not_mem_nil, Argument.text.injEq, or_false,
      forall_eq, forall_eq_or_imp, reduceCtorEq] at h <;>
    simp only [codeless_append, codeless_emph, codeless_emphNumber, codeless_decimal,
      codeless_natural, codeless_quoteChar, h, and_true, true_and] <;>
    and_intros <;> exact codeless_ofList (by decide)

/-- The explanation of a fault is codeless if what it quotes is, the statement
included. -/
theorem Codeless.explanation (h : f.Codeless) {instruction : String}
    (hinstruction : SecdMachine.Codeless instruction) :
    SecdMachine.Codeless (f.explanation instruction) := by
  unfold Codeless at h
  unfold Fault.explanation
  cases f <;> simp only [arguments, List.mem_cons, List.not_mem_nil, Argument.text.injEq, or_false,
      forall_eq, forall_eq_or_imp, reduceCtorEq] at h <;>
    simp only [codeless_append, codeless_emph, codeless_emphNumber, hinstruction, h, and_true] <;>
    and_intros <;> exact codeless_ofList (by decide)

end Fault

/-! ## statements -/

/-- What a fault of one quoted text takes. -/
theorem Fault.codeless_of_arguments {f : Fault} {s : String} (hf : f.arguments = [.text s])
    (h : SecdMachine.Codeless s) : f.Codeless := by
  simpa [Codeless, hf] using h

theorem Opcode.Shape.codeless_expected (shape : Opcode.Shape) : Codeless shape.expected := by
  cases shape <;> exact codeless_ofList (by decide)

/-- The fault of a codeless argument is codeless: it quotes nothing else. -/
theorem Opcode.Shape.codeless_fault? {shape : Opcode.Shape} {names : List String} {f : Fault}
    (h : Codeless s) (hf : shape.fault? names s = some f) : f.Codeless := by
  cases shape with
  | none => cases hf
  | literal | position | index | label | labels =>
      simp only [fault?, Option.ite_none_left_eq_some, Option.some.injEq] at hf
      obtain ⟨_, rfl⟩ := hf
      exact Fault.codeless_of_arguments rfl h

/-- The faults of codeless arguments are codeless: what else they quote is fixed. -/
theorem Opcode.codeless_faults {o : Opcode} {names args : List String}
    (h : ∀ a ∈ args, Codeless a) : ∀ f ∈ o.faults names args, f.Codeless := by
  intro f hf
  unfold faults at hf
  split at hf
  · obtain ⟨a, ha, hfault⟩ := List.mem_filterMap.mp hf
    exact Shape.codeless_fault? (h a ha) hfault
  · obtain rfl := List.mem_singleton.mp hf
    simp [Fault.Codeless, Fault.arguments, o.codeless_mnemonic, o.shape.codeless_expected]

/-- The escape character may not stand in a statement. -/
theorem codeless_of_legal (h : Statement.illegalChar? s.toList = none) : Codeless s := by
  intro hmem
  have hlegal := Statement.illegalChar?_eq_none_iff.mp h _ hmem
  revert hlegal
  decide +kernel

namespace Statement

variable {st : Statement}

/-- The position of a statement is codeless if the name of its source is. -/
theorem codeless_position (h : Codeless st.source) : Codeless st.position := by
  unfold position
  split
  · exact codeless_empty
  · split
    · simp only [codeless_append, codeless_natural, h, and_true]
      and_intros <;> exact codeless_ofList (by decide)
    · simp only [codeless_append, h, and_true]
      and_intros <;> exact codeless_ofList (by decide)

/-- The words of a statement are parts of its text. -/
theorem codeless_of_mem_fields (h : Codeless st.text) : ∀ w ∈ st.fields, Codeless w := by
  intro w hw
  obtain ⟨word, hword, rfl⟩ := List.mem_map.mp hw
  have hstands := Text.isInfix_of_mem_splitWhere (List.mem_of_mem_filter hword)
  exact h.of_subset hstands.subset

/-- The mnemonic that a statement gives is codeless if its text is. -/
theorem codeless_mnemonic (h : Codeless st.text) : Codeless st.mnemonic := by
  have hfields := codeless_of_mem_fields h
  unfold mnemonic
  cases hcut : st.fields with
  | nil => exact codeless_empty
  | cons w ws => exact hfields w (hcut ▸ List.mem_cons_self)

/-- The name that a label gives is codeless if the text of the statement is. -/
theorem codeless_labelName (h : Codeless st.text) : Codeless st.labelName := by
  have hstands : Text.trim (dropColon st.text.toList) ⊆ st.text.toList := by
    refine List.Subset.trans (Text.trim_isInfix _).subset ?_
    unfold dropColon
    split
    · exact (List.dropLast_prefix _).subset
    · exact List.Subset.refl _
  exact h.of_subset hstands

/-- The fault of an illegal character is codeless, even if it is the escape
character. -/
theorem codeless_characterFaults : ∀ f ∈ st.characterFaults, f.Codeless := by
  intro f hf
  obtain ⟨c, _, rfl⟩ := List.mem_map.mp hf
  simp [Fault.Codeless, Fault.arguments]

/-- The faults of a label quote its name or its text, both codeless in a legal
statement. -/
theorem codeless_labelFaults (h : st.kind ≠ .illegal → Codeless st.text)
    (before : List Statement) : ∀ f ∈ st.labelFaults before, f.Codeless := by
  intro f hf
  unfold labelFaults at hf
  split at hf
  · next hkind =>
      have htext : Codeless st.text := h (by simp [hkind])
      split at hf
      · obtain ⟨first, _, rfl⟩ := List.mem_map.mp hf
        simpa [Fault.Codeless, Fault.arguments] using codeless_labelName htext
      · obtain rfl := List.mem_singleton.mp hf
        exact Fault.codeless_of_arguments rfl htext
  · cases hf

/-- The faults of an operation are codeless, since they quote words of the statement. -/
theorem codeless_operationFaults (h : st.kind ≠ .illegal → Codeless st.text)
    (names : List String) : ∀ f ∈ st.operationFaults names, f.Codeless := by
  intro f hf
  unfold operationFaults at hf
  split at hf
  · next hkind =>
      have htext : Codeless st.text := h (by simp [hkind])
      split at hf
      · exact Opcode.codeless_faults
          (fun a ha => codeless_of_mem_fields htext a (List.mem_of_mem_tail ha)) f hf
      · obtain rfl := List.mem_singleton.mp hf
        exact Fault.codeless_of_arguments rfl (codeless_mnemonic htext)
  · cases hf

/-- A statement that was read has a codeless text, unless it is illegal. -/
theorem codeless_of_mem_read {source text : String} (h : st ∈ read source text)
    (hkind : st.kind ≠ .illegal) : Codeless st.text := by
  refine codeless_of_legal (Option.eq_none_iff_forall_ne_some.mpr fun c hc => hkind ?_)
  rw [kind_eq_of_mem_read h, kindOf, hc]
  rfl

/-- A statement that was read names the source it was read from. -/
theorem source_of_mem_read {source text : String} (h : st ∈ read source text) :
    st.source = source := by
  unfold read at h
  generalize Text.lines text.toList = lines at h
  generalize 1 = n at h
  induction lines generalizing n with
  | nil => cases h
  | cons line lines ih =>
      cases List.mem_append.mp h with
      | inl hhere =>
          obtain ⟨cs, _, rfl⟩ := List.mem_map.mp hhere
          rfl
      | inr hlater => exact ih (n + 1) hlater

end Statement

/-! ## reports -/

/-- The report quotes codeless texts, and so is the statement that it is of. -/
structure Report.Codeless (r : Report) : Prop where
  fault : r.fault.Codeless
  statement : ∀ st ∈ r.statement, SecdMachine.Codeless st.text ∧ SecdMachine.Codeless st.source

namespace Report

variable {r : Report}

/-- The text of a report is codeless if its fault and the name of its source are. -/
theorem codeless_text (hfault : r.fault.Codeless)
    (hsource : ∀ st ∈ r.statement, SecdMachine.Codeless st.source) :
    SecdMachine.Codeless r.text := by
  refine codeless_append.mpr ⟨hfault.message, ?_⟩
  cases hst : r.statement with
  | none => exact codeless_empty
  | some st => exact Statement.codeless_position (hsource st hst)

theorem Codeless.text (h : r.Codeless) : SecdMachine.Codeless r.text :=
  codeless_text h.fault fun st hst => (h.statement st hst).2

/-- The statement that a codeless report shows is codeless. -/
theorem Codeless.instruction (h : r.Codeless) : SecdMachine.Codeless r.instruction := by
  unfold Report.instruction
  cases hst : r.statement with
  | none => exact codeless_empty
  | some st => exact (h.statement st hst).1

theorem Codeless.explanation (h : r.Codeless) : SecdMachine.Codeless r.explanation :=
  h.fault.explanation h.instruction

end Report

namespace Assembly

variable {limit : Nat} {source text : String} {sts : List Statement}

/-- **Run case**: the faults that the assembler reports of operations are codeless. -/
theorem codeless_fault_of_assembleAll (h : ∀ st ∈ sts, st.kind ≠ .illegal → Codeless st.text)
    {labels : List Label} {found pool : Nat} :
    ∀ r ∈ (assembleAll limit labels found pool sts).reports, r.fault.Codeless := by
  induction sts generalizing found pool with
  | nil => exact List.forall_mem_nil _
  | cons st sts ih =>
      rw [List.forall_mem_cons] at h
      by_cases hfound : found < limit
      · obtain ⟨pool', hreports⟩ := reports_assembleAll_cons labels pool st sts hfound
        rw [hreports, List.forall_mem_append]
        refine ⟨fun r hr => ?_, ih h.2⟩
        obtain ⟨f, hf, rfl⟩ := List.mem_map.mp hr
        exact Statement.codeless_operationFaults h.1 _ f hf
      · rw [assembleAll, if_pos (Nat.not_lt.mp hfound)]
        intro r hr
        obtain rfl := List.mem_singleton.mp hr
        simp [reportAt, Fault.Codeless, Fault.arguments]

/-- The faults reported of a text are codeless, whichever check they come from. -/
theorem codeless_fault_of_errorsOf (h : ∀ st ∈ sts, st.kind ≠ .illegal → Codeless st.text) :
    ∀ r ∈ errorsOf (ofStatements limit source sts), r.fault.Codeless := by
  have hreported {f : Nat → Statement → List Fault}
      (hf : ∀ i, ∀ st ∈ sts, ∀ fault ∈ f i st, fault.Codeless) :
      ∀ r ∈ reported f 0 sts, r.fault.Codeless := by
    intro r hr
    obtain ⟨i, st, hst, fault, hfault, rfl⟩ := mem_reported.mp hr
    exact hf i st (List.mem_of_getElem? hst) fault hfault
  rw [errorsOf_ofStatements]
  simp only [List.forall_mem_append]
  refine ⟨⟨⟨?_, ?_⟩, codeless_fault_of_assembleAll h⟩, ?_⟩
  · exact hreported fun _ st _ => st.codeless_characterFaults
  · exact hreported fun i st hst => Statement.codeless_labelFaults (h st hst) _
  · unfold mainReports
    split
    · exact List.forall_mem_nil _
    · simp [mainReport, reportAt, Fault.Codeless, Fault.arguments]

/-- **Loading**: whatever is reported of a text, the reports have codeless texts. -/
theorem codeless_text_of_mem (hsource : Codeless source) {rs : List Report}
    (h : Program.assembleWithin limit source text = .error rs) : ∀ r ∈ rs, Codeless r.text := by
  intro r hr
  have hfault : r.fault.Codeless := by
    refine codeless_fault_of_errorsOf (fun st hst => Statement.codeless_of_mem_read hst) r
      (?_ : r ∈ errorsOf (Program.assembleWithin limit source text))
    rw [h]
    exact hr
  refine Report.codeless_text hfault fun st hst => ?_
  obtain ⟨st', hst', f, rfl⟩ | rfl := isOf_or_eq_of_ofStatements h hr
  · obtain rfl := Option.some.inj hst
    rwa [Statement.source_of_mem_read hst']
  · obtain rfl := Option.some.inj hst
    exact hsource

end Assembly

/-! ## runs -/

/-- The statements of a program have codeless texts and come from a source with a
codeless name. -/
def Program.Codeless (p : Program) : Prop :=
  ∀ st ∈ p.statements, SecdMachine.Codeless st.text ∧ SecdMachine.Codeless st.source

namespace Program

variable {p : Program}

/-- A program assembled from a source with a codeless name is codeless. -/
theorem codeless_of_assemble {source text : String} (hsource : SecdMachine.Codeless source)
    (h : assemble source text = .ok p) : p.Codeless := by
  have hassembles := Assembly.assembles_of_ofStatements h
  intro st hst
  rw [hassembles.statements] at hst
  have hlegal := Assembly.illegalReports_eq_nil_iff.mp hassembles.legal st hst
  exact ⟨codeless_of_legal hlegal, Statement.source_of_mem_read hst ▸ hsource⟩

/-- The statement at any location is codeless, also where the program has none. -/
theorem Codeless.statementAt (h : p.Codeless) (location : Nat) :
    SecdMachine.Codeless (p.statementAt location).text ∧
      SecdMachine.Codeless (p.statementAt location).source := by
  unfold Program.statementAt
  cases hst : p.statements[location]? with
  | none => exact ⟨codeless_empty, codeless_empty⟩
  | some st => exact h st (List.mem_of_getElem? hst)

/-- The faults of the machine quote names of types and opcodes only. -/
theorem codeless_fault_of_step {s : State} {f : Fault} (h : p.step s = .error (.fault f)) :
    f.Codeless := by
  have htype := Value.codeless_typeName
  obtain ⟨_, hf⟩ | ⟨_, _, hf⟩ | ⟨_, op, _, hstops⟩ := step_eq_error_cases h
  · cases hf
    simp [Fault.Codeless, Fault.arguments]
  · cases hf
    simp [Fault.Codeless, Fault.arguments]
  · cases hstops <;>
      simp [Fault.Codeless, Fault.arguments, Operation.codeless_mnemonic, htype]

end Program

/-- **Runs**: what ends a run is a codeless report. -/
theorem Trace.Valid.codeless {t : Trace} (h : t.Valid) (hp : t.program.Codeless) {r : Report}
    (hr : t.error = some r) : r.Codeless := by
  obtain ⟨_, ⟨rfl, _⟩ | ⟨_, f, hf, rfl⟩⟩ := h.error r hr
  · refine ⟨by simp [budgetReport, Fault.Codeless, Fault.arguments], fun st hst => ?_⟩
    obtain rfl := Option.some.inj hst
    exact ⟨codeless_empty, codeless_empty⟩
  · refine ⟨Program.codeless_fault_of_step hf, fun st hst => ?_⟩
    obtain rfl := Option.some.inj hst
    exact hp.statementAt _

end SecdMachine
