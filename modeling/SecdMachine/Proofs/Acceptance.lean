import Mathlib.Algebra.Group.Nat.Defs
import SecdMachine.Proofs.Layout

/-!
# SecdMachine.Proofs.Acceptance

The texts that are accepted.

The assembly enforces its grammar piece by piece, in three rounds and with a
report for each thing that is wrong.  Here the grammar is said at once, on the
statements that a text is cut into (`Grammatical`), and without the rounds:

1. a statement holds tabs and graphic characters only;
2. a statement that ends in a colon defines a label, by an identifier, and no
   two define the same one;
3. one of them defines `main`;
4. every other statement is an opcode with arguments of its shape.

What arguments an opcode takes is a table of the assembly, and so is what characters
an identifier is made of.  Both are written out: the operations opcode by opcode
(`Statement.isOperation_iff_operationFields`), and the identifiers character by
character (`Assembly.isIdentifier_iff`).

A text is accepted exactly if its statements follow it, and whatever the
number of faults after which the assembly gives up (`accepted_iff_grammatical`).
The link between the two is `Assembly.Assembles`: what the assembly gives out
does not depend on that number (`ofStatements_eq_ok_iff`).
-/

namespace SecdMachine

/-! ## the grammar -/

/-- Whether a statement ends in a colon, and so defines a label. -/
def Statement.endsInColon (s : Statement) : Bool :=
  s.text.toList.getLast? = some ':'

/-- The names of the labels that statements define, in order. -/
def definedNames (ss : List Statement) : List String :=
  (ss.filter Statement.endsInColon).map Statement.labelName

/-- What holds of the characters of a list is decided by going through the list,
and never through all the characters there are. -/
local instance (priority := high) decidableForallMemChars {P : Char → Prop} [DecidablePred P]
    (cs : List Char) : Decidable (∀ c ∈ cs, P c) :=
  List.decidableBAll P cs

/-- A decimal numeral above zero and below 2^32. -/
def Numeral.IsPosition (cs : List Char) : Prop :=
  (cs ≠ [] ∧ ∀ c ∈ cs, c.isDigit = true) ∧
    0 < Nat.ofDigitChars 10 cs 0 ∧ Nat.ofDigitChars 10 cs 0 < 2 ^ 32

instance (cs : List Char) : Decidable (Numeral.IsPosition cs) :=
  inferInstanceAs (Decidable (_ ∧ _))

/-- There is exactly one argument, and it has a property. -/
def OneArgument (P : String → Prop) : List String → Prop
  | [a] => P a
  | _ => False

/-- There is one argument if the list has one member. -/
theorem oneArgument_iff {P : String → Prop} {args : List String} :
    OneArgument P args ↔ ∃ a, args = [a] ∧ P a := by
  match args with
  | [] => simp [OneArgument]
  | [a] => simp [OneArgument]
  | _ :: _ :: _ => simp [OneArgument]

instance {P : String → Prop} [DecidablePred P] : DecidablePred (OneArgument P)
  | [] => .isFalse id
  | [a] => inferInstanceAs (Decidable (P a))
  | _ :: _ :: _ => .isFalse id

/-- The arguments that an opcode of a shape takes, where `names` are the labels
that are defined. -/
def Opcode.Shape.Takes (names : List String) : Opcode.Shape → List String → Prop
  | .none, args => args = []
  | .literal, args => OneArgument (fun a => (Assembly.readLiteral? a).isSome = true) args
  | .position, args =>
    OneArgument (fun a => a.toList.head? = some '$' ∧ Numeral.IsPosition a.toList.tail) args
  | .index, args => OneArgument (fun a => Numeral.IsPosition a.toList) args
  | .label, args => OneArgument (· ∈ names) args
  | .labels, args => args ≠ [] ∧ ∀ a ∈ args, a ∈ names

instance (names : List String) (args : List String) :
    (sh : Opcode.Shape) → Decidable (sh.Takes names args)
  | .none => inferInstanceAs (Decidable (args = []))
  | .literal => inferInstanceAs (Decidable (OneArgument _ args))
  | .position => inferInstanceAs (Decidable (OneArgument _ args))
  | .index => inferInstanceAs (Decidable (OneArgument _ args))
  | .label => inferInstanceAs (Decidable (OneArgument _ args))
  | .labels => inferInstanceAs (Decidable (_ ∧ _))

/-- An opcode with arguments of its shape, where `names` are the labels that are
defined. -/
def Statement.IsOperation (names : List String) (s : Statement) : Prop :=
  ∃ (o : Opcode) (args : List String), s.fields = o.mnemonic :: args ∧ o.shape.Takes names args

instance (names : List String) (s : Statement) : Decidable (s.IsOperation names) :=
  decidable_of_iff
    (∃ o ∈ Opcode.all, s.fields.head? = some o.mnemonic ∧ o.shape.Takes names s.fields.tail) <| by
      constructor
      · rintro ⟨o, _, hhead, htakes⟩
        obtain ⟨args, hfields⟩ := List.head?_eq_some_iff.mp hhead
        rw [hfields] at htakes
        exact ⟨o, args, hfields, htakes⟩
      · rintro ⟨o, args, hfields, htakes⟩
        rw [hfields]
        exact ⟨o, Opcode.mem_all o, rfl, htakes⟩

/-- The statements of a program. -/
structure Grammatical (ss : List Statement) : Prop where
  legal : ∀ s ∈ ss, ∀ c ∈ s.text.toList, c = '\t' ∨ Text.isGraphic c = true
  identifiers : ∀ name ∈ definedNames ss, Assembly.isIdentifier name.toList = true
  distinct : (definedNames ss).Nodup
  main : "main" ∈ definedNames ss
  operations : ∀ s ∈ ss, s.endsInColon = false → s.IsOperation (definedNames ss)

instance (ss : List Statement) : Decidable (Grammatical ss) :=
  decidable_of_iff
    ((∀ s ∈ ss, ∀ c ∈ s.text.toList, c = '\t' ∨ Text.isGraphic c = true) ∧
      (∀ name ∈ definedNames ss, Assembly.isIdentifier name.toList = true) ∧
      (definedNames ss).Nodup ∧ "main" ∈ definedNames ss ∧
      ∀ s ∈ ss, s.endsInColon = false → s.IsOperation (definedNames ss))
    ⟨fun ⟨hlegal, hidentifiers, hdistinct, hmain, hoperations⟩ =>
        ⟨hlegal, hidentifiers, hdistinct, hmain, hoperations⟩,
      fun h => ⟨h.legal, h.identifiers, h.distinct, h.main, h.operations⟩⟩

/-! ## numerals -/

/-- The digits of a position, read from the left. -/
theorem Numeral.readDigits?_eq_some_iff {cs : List Char} {n : Nat} :
    Numeral.readDigits? cs = some n ↔
      (cs ≠ [] ∧ ∀ c ∈ cs, c.isDigit = true) ∧ n = Nat.ofDigitChars 10 cs 0 := by
  have hvalue : cs.foldl (fun n c => n * 10 + (c.toNat - '0'.toNat)) 0 =
      Nat.ofDigitChars 10 cs 0 := by
    simp only [Nat.ofDigitChars, Nat.mul_comm]
  cases cs with
  | nil => simp [Numeral.readDigits?]
  | cons c cs =>
      simp only [Numeral.readDigits?, hvalue]
      split
      · next hall =>
          have hdigits : ∀ d ∈ c :: cs, d.isDigit = true := List.all_eq_true.mp hall
          rw [Option.some.injEq]
          exact ⟨fun h => ⟨⟨List.cons_ne_nil c cs, hdigits⟩, h.symm⟩, fun h => h.2.symm⟩
      · next hall =>
          exact ⟨nofun, fun h => absurd (List.all_eq_true.mpr h.1.2) hall⟩

/-- A position is read as the number that its digits spell. -/
theorem Numeral.positive?_eq_some_iff {cs : List Char} {n : Nat} :
    Numeral.positive? cs = some n ↔
      Numeral.IsPosition cs ∧ n = Nat.ofDigitChars 10 cs 0 := by
  simp only [Numeral.positive?, Option.filter_eq_some_iff, Numeral.readDigits?_eq_some_iff,
    Numeral.IsPosition, Bool.and_eq_true, decide_eq_true_eq]
  constructor
  · rintro ⟨⟨hdigits, rfl⟩, hrange⟩
    exact ⟨⟨hdigits, hrange⟩, rfl⟩
  · rintro ⟨⟨hdigits, hrange⟩, rfl⟩
    exact ⟨⟨hdigits, rfl⟩, hrange⟩

/-! ## kinds of statements -/

namespace Statement

variable {s : Statement}

/-- A statement that was read has the kind of its text. -/
theorem kind_eq_of_mem_read {source text : String} (h : s ∈ read source text) :
    s.kind = kindOf s.text.toList := by
  have hlines : ∀ (n : Nat) (lines : List (List Char)), s ∈ ofLines source n lines →
      s.kind = kindOf s.text.toList := by
    intro n lines
    induction lines generalizing n with
    | nil => exact nofun
    | cons line rest ih =>
        intro hmem
        rw [ofLines] at hmem
        cases List.mem_append.mp hmem with
        | inl hhere =>
            obtain ⟨cs, _, rfl⟩ := List.mem_map.mp hhere
            simp only [ofChars, String.toList_ofList]
        | inr hlater => exact ih (n + 1) hlater
  exact hlines 1 _ h

/-- The legal characters are tabs and graphic characters. -/
theorem illegalChar?_eq_none_iff {cs : List Char} :
    illegalChar? cs = none ↔ ∀ c ∈ cs, c = '\t' ∨ Text.isGraphic c = true := by
  simp [illegalChar?, isLegal, Decidable.or_iff_not_imp_left]

/-- A statement of legal characters is a label if it ends in a colon, and an
operation otherwise. -/
theorem kind_eq_of_legal (hkind : s.kind = kindOf s.text.toList)
    (hlegal : illegalChar? s.text.toList = none) :
    s.kind = if s.endsInColon then .label else .operation := by
  rw [hkind, kindOf, hlegal]
  simp [endsInColon]

/-- The opcode that a statement begins with is its first field. -/
theorem ofMnemonic?_eq_some_iff {o : Opcode} :
    Opcode.ofMnemonic? s.mnemonic = some o ↔ s.fields = o.mnemonic :: s.arguments := by
  unfold mnemonic arguments
  cases hfields : s.fields with
  | nil =>
      -- No opcode has an empty name.
      exact ⟨fun h => absurd h (by decide +revert), nofun⟩
  | cons m args =>
      rw [List.headD_cons, List.tail_cons, List.cons.injEq, and_iff_left rfl]
      constructor
      · intro h
        exact (Opcode.mnemonic_of_ofMnemonic? h).symm
      · rintro rfl
        exact Opcode.ofMnemonic?_mnemonic o

/-- A statement is an operation if its first word is a mnemonic whose opcode takes the
others. -/
theorem isOperation_iff {names : List String} :
    s.IsOperation names ↔
      ∃ o, Opcode.ofMnemonic? s.mnemonic = some o ∧ o.shape.Takes names s.arguments := by
  simp only [ofMnemonic?_eq_some_iff]
  constructor
  · rintro ⟨o, args, hfields, htakes⟩
    obtain rfl : s.arguments = args := by rw [arguments, hfields, List.tail_cons]
    exact ⟨o, hfields, htakes⟩
  · rintro ⟨o, hfields, htakes⟩
    exact ⟨o, s.arguments, hfields, htakes⟩

end Statement

/-! ## operations, opcode by opcode -/

/-- `OperationFields names fields`: the fields are those of an operation, where
`names` are the labels that are defined.  What literals there are is said in
`Assembly.readLiteral?_eq_some_iff`. -/
inductive OperationFields (names : List String) : List String → Prop where
  | const {a : String} (h : (Assembly.readLiteral? a).isSome = true) :
      OperationFields names ["const", a]
  | access {a : String} (hdollar : a.toList.head? = some '$')
      (h : Numeral.IsPosition a.toList.tail) : OperationFields names ["access", a]
  | focus {a : String} (h : Numeral.IsPosition a.toList) : OperationFields names ["focus", a]
  | label {m a : String} (hm : m ∈ ["closure", "brfl", "br"]) (h : a ∈ names) :
      OperationFields names [m, a]
  | closures {args : List String} (hne : args ≠ []) (h : ∀ a ∈ args, a ∈ names) :
      OperationFields names ("closures" :: args)
  | plain {m : String}
      (hm : m ∈ ["apply", "applyn", "return", "add", "sub", "mul", "eq", "halt"]) :
      OperationFields names [m]

/-- The mnemonics of the opcodes that take arguments of a shape. -/
def Opcode.mnemonicsOf : Opcode.Shape → List String
  | .none => ["apply", "applyn", "return", "add", "sub", "mul", "eq", "halt"]
  | .literal => ["const"]
  | .position => ["access"]
  | .index => ["focus"]
  | .label => ["closure", "brfl", "br"]
  | .labels => ["closures"]

/-- The mnemonics of a shape are those of the opcodes that have it. -/
theorem Opcode.mem_mnemonicsOf_iff {sh : Opcode.Shape} {m : String} :
    m ∈ mnemonicsOf sh ↔ ∃ o : Opcode, o.mnemonic = m ∧ o.shape = sh := by
  have hlisted : ∀ m ∈ mnemonicsOf sh, ∃ o ∈ all, o.mnemonic = m ∧ o.shape = sh := by
    cases sh <;> decide
  have hall : ∀ o ∈ all, o.mnemonic ∈ mnemonicsOf o.shape := by
    decide
  constructor
  · intro hm
    obtain ⟨o, _, ho⟩ := hlisted m hm
    exact ⟨o, ho⟩
  · rintro ⟨o, rfl, rfl⟩
    exact hall o (mem_all o)

/-- **Operations, opcode by opcode**: a statement is an operation exactly if its
fields are `const` and a literal, `access` and a position behind a dollar sign,
`focus` and a position, `closure`, `brfl` or `br` and a label that is defined,
`closures` and one or more of them, or one of the other eight mnemonics alone. -/
theorem Statement.isOperation_iff_operationFields {names : List String} {s : Statement} :
    s.IsOperation names ↔ OperationFields names s.fields := by
  constructor
  · rintro ⟨o, args, hfields, htakes⟩
    have hm : o.mnemonic ∈ Opcode.mnemonicsOf o.shape :=
      Opcode.mem_mnemonicsOf_iff.mpr ⟨o, rfl, rfl⟩
    rw [hfields]
    generalize o.mnemonic = m, o.shape = sh at hm htakes ⊢
    cases sh with
    | none =>
        obtain rfl : args = [] := htakes
        exact .plain hm
    | literal =>
        obtain rfl := List.mem_singleton.mp hm
        obtain ⟨a, rfl, ha⟩ := oneArgument_iff.mp htakes
        exact .const ha
    | position =>
        obtain rfl := List.mem_singleton.mp hm
        obtain ⟨a, rfl, hdollar, ha⟩ := oneArgument_iff.mp htakes
        exact .access hdollar ha
    | index =>
        obtain rfl := List.mem_singleton.mp hm
        obtain ⟨a, rfl, ha⟩ := oneArgument_iff.mp htakes
        exact .focus ha
    | label =>
        obtain ⟨a, rfl, ha⟩ := oneArgument_iff.mp htakes
        exact .label hm ha
    | labels =>
        obtain rfl := List.mem_singleton.mp hm
        exact .closures htakes.1 htakes.2
  · have hoperation (sh : Opcode.Shape) {m : String} {args : List String}
        (hm : m ∈ Opcode.mnemonicsOf sh) (hfields : s.fields = m :: args)
        (htakes : sh.Takes names args) : s.IsOperation names := by
      obtain ⟨o, rfl, rfl⟩ := Opcode.mem_mnemonicsOf_iff.mp hm
      exact ⟨o, args, hfields, htakes⟩
    intro h
    generalize hfields : s.fields = fields at h
    cases h with
    | const h => exact hoperation .literal (List.mem_singleton_self _) hfields h
    | access hdollar h =>
        exact hoperation .position (List.mem_singleton_self _) hfields ⟨hdollar, h⟩
    | focus h => exact hoperation .index (List.mem_singleton_self _) hfields h
    | label hm h => exact hoperation .label hm hfields h
    | closures hne h =>
        exact hoperation .labels (List.mem_singleton_self _) hfields ⟨hne, h⟩
    | plain hm => exact hoperation .none hm hfields rfl

/-! ## identifiers -/

/-- Of the first 128 characters, the letters are those from `A` to `Z` and from `a`
to `z`, and the decimal digits those from `0` to `9`. -/
theorem Text.letters_digits_ascii {c : Char} (h : c.toNat < 128) :
    (isLetter c = true ↔ 'A' ≤ c ∧ c ≤ 'Z' ∨ 'a' ≤ c ∧ c ≤ 'z') ∧
      (isDecimalDigit c = true ↔ '0' ≤ c ∧ c ≤ '9') := by
  have htables : ∀ n < 128,
      inRanges letterRanges n = (65 ≤ n && n ≤ 90 || 97 ≤ n && n ≤ 122) ∧
      inRanges digitRanges n = (48 ≤ n && n ≤ 57) := by
    decide +kernel
  obtain ⟨hletters, hdigits⟩ := htables _ h
  have hbasic : c.toNat < 0x10000 := by omega
  rw [isLetter, isDecimalDigit, inTable, inTable, if_pos hbasic, if_pos hbasic, hletters, hdigits]
  simp [Char.le_def, UInt32.le_iff_toNat_le]

/-- **Identifiers**: a letter or an underscore, and behind it letters, underscores and
decimal digits. -/
theorem Assembly.isIdentifier_iff {cs : List Char} :
    isIdentifier cs = true ↔
      ∃ c rest, cs = c :: rest ∧ (c = '_' ∨ Text.isLetter c = true) ∧
        ∀ d ∈ rest, d = '_' ∨ Text.isLetter d = true ∨ Text.isDecimalDigit d = true := by
  cases cs with
  | nil => simp [isIdentifier]
  | cons c rest =>
      constructor
      · intro h
        exact ⟨c, rest, rfl, by simpa [isIdentifier, or_assoc] using h⟩
      · rintro ⟨_, _, hcons, h⟩
        cases hcons
        simpa [isIdentifier, or_assoc] using h

namespace Assembly

variable {labels : List Label} {pool : Nat}

/-! ## labels -/

/-- The names of the label statements, in order. -/
def labelledNames (ss : List Statement) : List String :=
  (ss.filter (·.kind = .label)).map Statement.labelName

/-- The labels of the label statements, in order, where the first statement has
location `i`. -/
def labelEntries (i : Nat) (ss : List Statement) : List Label :=
  ((ss.zipIdx i).filter (·.1.kind = .label)).map fun e => ⟨e.1.labelName, e.2, e.1.line⟩

/-- A label statement puts its name in front of those after it. -/
theorem labelledNames_cons (s : Statement) (ss : List Statement) :
    labelledNames (s :: ss) =
      if s.kind = .label then s.labelName :: labelledNames ss else labelledNames ss := by
  unfold labelledNames
  split
  · next hkind => simp [hkind]
  · next hkind => simp [hkind]

/-- A label statement puts its entry in front, and every statement takes one place. -/
theorem labelEntries_cons (i : Nat) (s : Statement) (ss : List Statement) :
    labelEntries i (s :: ss) =
      if s.kind = .label then ⟨s.labelName, i, s.line⟩ :: labelEntries (i + 1) ss
      else labelEntries (i + 1) ss := by
  unfold labelEntries
  split
  · next hkind => simp [List.zipIdx_cons, hkind]
  · next hkind => simp [List.zipIdx_cons, hkind]

/-- The entries of the labels have their names. -/
theorem map_name_labelEntries (i : Nat) (ss : List Statement) :
    (labelEntries i ss).map Label.name = labelledNames ss := by
  induction ss generalizing i with
  | nil => rfl
  | cons s ss ih =>
      rw [labelEntries_cons, labelledNames_cons]
      split
      · rw [List.map_cons, ih]
      · exact ih (i + 1)

/-- A table does not find the names that it does not have. -/
theorem findLabel?_eq_none_iff {name : String} :
    findLabel? labels name = none ↔ name ∉ labels.map Label.name := by
  simp [findLabel?]

theorem exists_findLabel?_iff {name : String} :
    (∃ l, findLabel? labels name = some l) ↔ name ∈ labels.map Label.name := by
  rw [← Option.ne_none_iff_exists', ne_eq, findLabel?_eq_none_iff, Decidable.not_not]

/-- The second round reports nothing exactly if the names of labels are
identifiers, different from each other and from those already known. -/
theorem reports_labelsFrom_eq_nil_iff {i : Nat} {known : List Label} {ss : List Statement} :
    (labelsFrom i known ss).reports = [] ↔
      (∀ name ∈ labelledNames ss, isIdentifier name.toList = true) ∧
      (labelledNames ss).Nodup ∧ ∀ name ∈ labelledNames ss, name ∉ known.map Label.name := by
  induction ss generalizing i known with
  | nil => simp [labelsFrom, labelledNames]
  | cons s ss ih =>
      rw [labelsFrom, labelledNames_cons]
      by_cases hkind : s.kind = .label
      · rw [if_pos hkind, if_pos hkind]
        by_cases hident : isIdentifier s.labelName.toList = true
        · rw [if_pos hident]
          cases hfind : findLabel? known s.labelName with
          | some first =>
              have hknown := exists_findLabel?_iff.mp ⟨first, hfind⟩
              exact ⟨fun h => absurd h (List.cons_ne_nil _ _),
                fun h => absurd hknown (h.2.2 _ List.mem_cons_self)⟩
          | none =>
              have hnew := findLabel?_eq_none_iff.mp hfind
              simp only [ih, List.map_append, List.map_cons, List.map_nil, List.mem_append,
                List.mem_singleton, List.forall_mem_cons, List.nodup_cons, hident, hnew]
              grind
        · rw [if_neg hident]
          simp [hident]
      · rw [if_neg hkind, if_neg hkind]
        exact ih

/-- Without a report of the second round, its labels are those of the label
statements. -/
theorem labels_labelsFrom {i : Nat} {known : List Label} {ss : List Statement}
    (h : (labelsFrom i known ss).reports = []) :
    (labelsFrom i known ss).labels = known ++ labelEntries i ss := by
  induction ss generalizing i known with
  | nil => simp [labelsFrom, labelEntries]
  | cons s ss ih =>
      rw [labelsFrom] at h ⊢
      rw [labelEntries_cons]
      split at h
      · next hkind =>
          rw [if_pos hkind, if_pos hkind]
          split at h
          · next hident =>
              rw [if_pos hident]
              cases hfind : findLabel? known s.labelName with
              | some first => simp [hfind] at h
              | none =>
                  simp only [hfind] at h
                  simp only [ih h, List.append_assoc, List.singleton_append]
          · exact absurd h (List.cons_ne_nil _ _)
      · next hkind =>
          rw [if_neg hkind, if_neg hkind]
          exact ih h

/-! ## operations -/

/-- Labels have locations exactly if all of them are defined. -/
theorem exists_locations_iff {names : List String} :
    (∃ ls, locations labels names = .ok ls) ↔ ∀ name ∈ names, name ∈ labels.map Label.name := by
  induction names with
  | nil => exact ⟨fun _ => nofun, fun _ => ⟨[], rfl⟩⟩
  | cons name names ih =>
      rw [List.forall_mem_cons, ← ih, ← exists_findLabel?_iff, locations]
      cases findLabel? labels name with
      | none => cases locations labels names <;> simp
      | some l => cases locations labels names <;> simp

/-- A position in a list is a positive number behind a dollar sign. -/
theorem readPosition?_eq_some_iff {a : String} {n : Nat} :
    readPosition? a = some n ↔
      a.toList.head? = some '$' ∧ Numeral.positive? a.toList.tail = some n := by
  unfold readPosition?
  split
  · next cs ha => simp [ha]
  · next hne =>
      refine ⟨nofun, fun h => ?_⟩
      obtain ⟨cs, hcs⟩ := List.head?_eq_some_iff.mp h.1
      exact absurd hcs (hne cs)

/-- An opcode can be assembled exactly if it has arguments of its shape. -/
theorem exists_encodes_iff {o : Opcode} {args : List String} :
    (∃ t, Encodes labels pool o args t) ↔ o.shape.Takes (labels.map Label.name) args := by
  constructor
  · rintro ⟨t, h⟩
    cases h with
    | plain ho => rw [ho]; rfl
    | closures hne hls => exact ⟨hne, exists_locations_iff.mp ⟨_, hls⟩⟩
    | const hv => exact Option.isSome_iff_exists.mpr ⟨_, hv⟩
    | access hn =>
        obtain ⟨hdollar, hpos⟩ := readPosition?_eq_some_iff.mp hn
        exact ⟨hdollar, (Numeral.positive?_eq_some_iff.mp hpos).1⟩
    | focus hn => exact (Numeral.positive?_eq_some_iff.mp hn).1
    | jump ho hl => rw [ho]; exact exists_findLabel?_iff.mp ⟨_, hl⟩
  · intro h
    cases ho : o.shape with
    | none =>
        rw [ho] at h
        obtain rfl : args = [] := h
        exact ⟨_, .plain ho⟩
    | labels =>
        rw [ho] at h
        obtain rfl : o = .closures := by cases o <;> simp_all [Opcode.shape]
        obtain ⟨ls, hls⟩ := exists_locations_iff.mpr h.2
        exact ⟨_, .closures h.1 hls⟩
    | literal =>
        rw [ho] at h
        obtain rfl : o = .const := by cases o <;> simp_all [Opcode.shape]
        obtain ⟨a, rfl, ha⟩ := oneArgument_iff.mp h
        obtain ⟨v, hv⟩ := Option.isSome_iff_exists.mp ha
        exact ⟨_, .const hv⟩
    | position =>
        rw [ho] at h
        obtain rfl : o = .access := by cases o <;> simp_all [Opcode.shape]
        obtain ⟨a, rfl, hdollar, hpos⟩ := oneArgument_iff.mp h
        have hn := Numeral.positive?_eq_some_iff.mpr ⟨hpos, rfl⟩
        exact ⟨_, .access (readPosition?_eq_some_iff.mpr ⟨hdollar, hn⟩)⟩
    | index =>
        rw [ho] at h
        obtain rfl : o = .focus := by cases o <;> simp_all [Opcode.shape]
        obtain ⟨a, rfl, hpos⟩ := oneArgument_iff.mp h
        exact ⟨_, .focus (Numeral.positive?_eq_some_iff.mpr ⟨hpos, rfl⟩)⟩
    | label =>
        rw [ho] at h
        obtain ⟨a, rfl, ha⟩ := oneArgument_iff.mp h
        obtain ⟨l, hl⟩ := exists_findLabel?_iff.mpr ha
        exact ⟨_, .jump ho hl⟩

/-- A statement can be assembled exactly if it is an operation with its
arguments, or none at all. -/
theorem exists_assembleStatement_iff {s : Statement} :
    (∃ t, assembleStatement labels pool s = .ok t) ↔
      (s.kind = .operation → s.IsOperation (labels.map Label.name)) := by
  unfold assembleStatement
  cases s.kind with
  | label => exact ⟨fun _ => nofun, fun _ => ⟨_, rfl⟩⟩
  | illegal => exact ⟨fun _ => nofun, fun _ => ⟨_, rfl⟩⟩
  | operation =>
      simp only [true_implies, Statement.isOperation_iff]
      cases Opcode.ofMnemonic? s.mnemonic with
      | none => simp
      | some o => simp [assembleOpcode_eq_ok_iff, exists_encodes_iff]

/-- Statements can be assembled, one after the other, exactly if each of them
can be: what one of them brings does not matter to another. -/
theorem exists_yields_iff {ss : List Statement} :
    (∃ code constants, Yields labels pool ss code constants) ↔
      ∀ s ∈ ss, s.kind = .operation → s.IsOperation (labels.map Label.name) := by
  induction ss generalizing pool with
  | nil => exact ⟨fun _ => nofun, fun _ => ⟨[], [], .nil pool⟩⟩
  | cons s ss ih =>
      have hs : (∃ t, assembleStatement labels pool s = .ok t) ↔ _ := exists_assembleStatement_iff
      rw [List.forall_mem_cons, ← hs]
      constructor
      · rintro ⟨_, _, h⟩
        cases h with
        | cons head tail => exact ⟨⟨_, head⟩, ih.mp ⟨_, _, tail⟩⟩
      · rintro ⟨⟨t, head⟩, hrest⟩
        obtain ⟨code, constants, tail⟩ := ih.mpr hrest
        exact ⟨_, _, .cons head tail⟩

/-! ## programs -/

/-- The last round does not give up on statements that can be assembled. -/
theorem assembleAll_of_yields {limit : Nat} {ss : List Statement} {code : List Operation}
    {constants : List Value} (hlimit : 0 < limit) (h : Yields labels pool ss code constants) :
    assembleAll limit labels 0 pool ss = ⟨code, constants, []⟩ := by
  induction h with
  | nil pool => rfl
  | cons head tail ih =>
      rw [assembleAll, if_neg (Nat.not_le.mpr hlimit), head]
      simp only [ih]

/-- **The limit does not matter**: with any number of faults to give up after,
the same statements are accepted, and the same program comes out. -/
theorem ofStatements_eq_ok_iff {limit : Nat} {source : String} {ss : List Statement}
    {p : Program} (hlimit : 0 < limit) : ofStatements limit source ss = .ok p ↔ Assembles ss p := by
  refine ⟨assembles_of_ofStatements, fun h => ?_⟩
  obtain ⟨main, hmain, hlocation⟩ := h.main
  unfold ofStatements
  simp only [h.legal, h.labelled, List.append_nil, List.length_nil,
    assembleAll_of_yields hlimit h.yields, hmain, List.isEmpty_nil, if_true]
  rw [← h.labels, ← hlocation, ← h.statements]

/-- Statements that are not accepted are reported. -/
theorem ne_nil_of_ofStatements {limit : Nat} {source : String} {ss : List Statement}
    {reports : List Report} (h : ofStatements limit source ss = .error reports) :
    reports ≠ [] := by
  unfold ofStatements at h
  simp only at h
  split at h
  · cases h
    exact List.append_ne_nil_of_right_ne_nil _ (List.cons_ne_nil _ _)
  · split at h
    · cases h
    · next hne =>
        cases h
        exact mt List.isEmpty_iff.mpr hne

/-- Nothing is reported in the first round if all characters are legal. -/
theorem illegalReports_eq_nil_iff {ss : List Statement} :
    illegalReports ss = [] ↔ ∀ s ∈ ss, Statement.illegalChar? s.text.toList = none := by
  simp [illegalReports, illegalReport?]

/-- Some program is made of statements exactly if they hold legal characters
only, their labels are different identifiers, one of them is `main`, and the
operations have their arguments. -/
theorem exists_assembles_iff {ss : List Statement} :
    (∃ p, Assembles ss p) ↔
      (∀ s ∈ ss, Statement.illegalChar? s.text.toList = none) ∧
      (∀ name ∈ labelledNames ss, isIdentifier name.toList = true) ∧
      (labelledNames ss).Nodup ∧ mainLabel ∈ labelledNames ss ∧
      ∀ s ∈ ss, s.kind = .operation → s.IsOperation (labelledNames ss) := by
  have hnames (h : (labelsFrom 0 [] ss).reports = []) :
      (labelsFrom 0 [] ss).labels.map Label.name = labelledNames ss := by
    rw [labels_labelsFrom h, List.nil_append, map_name_labelEntries]
  constructor
  · rintro ⟨p, hlegal, hlabelled, hyields, _, _, main, hmain, _⟩
    obtain ⟨hidentifiers, hdistinct, _⟩ := reports_labelsFrom_eq_nil_iff.mp hlabelled
    rw [← hnames hlabelled] at *
    exact ⟨illegalReports_eq_nil_iff.mp hlegal, hidentifiers, hdistinct,
      exists_findLabel?_iff.mp ⟨main, hmain⟩, exists_yields_iff.mp ⟨_, _, hyields⟩⟩
  · rintro ⟨hlegal, hidentifiers, hdistinct, hmain, hoperations⟩
    have hlabelled : (labelsFrom 0 [] ss).reports = [] :=
      reports_labelsFrom_eq_nil_iff.mpr ⟨hidentifiers, hdistinct, fun _ _ => List.not_mem_nil⟩
    rw [← hnames hlabelled] at hmain hoperations
    obtain ⟨main, hmain⟩ := exists_findLabel?_iff.mpr hmain
    obtain ⟨code, constants, hyields⟩ := exists_yields_iff.mpr hoperations
    exact ⟨⟨code, constants, _, ss, main.location⟩, illegalReports_eq_nil_iff.mpr hlegal,
      hlabelled, hyields, rfl, rfl, main, hmain, rfl⟩

/-- On statements that were read, the grammar says what is needed to make a
program of them. -/
theorem exists_assembles_iff_grammatical {source text : String} :
    (∃ p, Assembles (Statement.read source text) p) ↔
      Grammatical (Statement.read source text) := by
  rw [exists_assembles_iff]
  have hkinds : ∀ {s : Statement}, s ∈ Statement.read source text →
      Statement.illegalChar? s.text.toList = none →
        s.kind = if s.endsInColon then .label else .operation := fun hs hlegal =>
    Statement.kind_eq_of_legal (Statement.kind_eq_of_mem_read hs) hlegal
  generalize Statement.read source text = ss at hkinds ⊢
  have hnames (hlegal : ∀ s ∈ ss, Statement.illegalChar? s.text.toList = none) :
      labelledNames ss = definedNames ss := by
    have hfilter : ss.filter (·.kind = .label) = ss.filter Statement.endsInColon := by
      refine List.filter_congr fun s hs => ?_
      rw [hkinds hs (hlegal s hs)]
      cases s.endsInColon <;> rfl
    rw [labelledNames, definedNames, hfilter]
  have hoperation {s : Statement} (hs : s ∈ ss)
      (hlegal : Statement.illegalChar? s.text.toList = none) :
      s.kind = .operation ↔ s.endsInColon = false := by
    rw [hkinds hs hlegal]
    cases s.endsInColon <;> simp
  constructor
  · rintro ⟨hlegal, hidentifiers, hdistinct, hmain, hoperations⟩
    rw [hnames hlegal] at *
    exact ⟨fun s hs => Statement.illegalChar?_eq_none_iff.mp (hlegal s hs), hidentifiers,
      hdistinct, hmain,
      fun s hs hcolon => hoperations s hs ((hoperation hs (hlegal s hs)).mpr hcolon)⟩
  · intro h
    have hlegal : ∀ s ∈ ss, Statement.illegalChar? s.text.toList = none :=
      fun s hs => Statement.illegalChar?_eq_none_iff.mpr (h.legal s hs)
    rw [hnames hlegal]
    exact ⟨hlegal, h.identifiers, h.distinct, h.main,
      fun s hs hkind => h.operations s hs ((hoperation hs (hlegal s hs)).mp hkind)⟩

end Assembly

namespace Program

/-- **Acceptance**: a text is accepted exactly if its statements follow the
grammar; otherwise it is refused with at least one report.  The number of
faults after which the assembly gives up has no influence on which texts are
accepted, nor on the programs that they come to. -/
theorem accepted_iff_grammatical (source text : String) :
    ((∃ p, Program.assemble source text = .ok p) ↔
      Grammatical (Statement.read source text)) ∧
    (¬ Grammatical (Statement.read source text) →
      ∃ reports, Program.assemble source text = .error reports ∧ reports ≠ []) ∧
    (∀ limit p, 0 < limit →
      (Program.assembleWithin limit source text = .ok p ↔
        Program.assemble source text = .ok p)) := by
  have hassembles : ∀ limit p, 0 < limit →
      (Program.assembleWithin limit source text = .ok p ↔
        Assembly.Assembles (Statement.read source text) p) :=
    fun _ _ hlimit => Assembly.ofStatements_eq_ok_iff hlimit
  have hthreshold : 0 < Assembly.threshold := by decide
  have haccepted : (∃ p, Program.assemble source text = .ok p) ↔
      Grammatical (Statement.read source text) := by
    rw [← Assembly.exists_assembles_iff_grammatical]
    exact exists_congr fun p => hassembles _ p hthreshold
  refine ⟨haccepted, fun hnot => ?_, fun limit p hlimit => ?_⟩
  · cases h : Program.assemble source text with
    | ok p => exact absurd (haccepted.mp ⟨p, h⟩) hnot
    | error reports => exact ⟨reports, rfl, Assembly.ne_nil_of_ofStatements h⟩
  · rw [hassembles limit p hlimit, Program.assemble, hassembles _ p hthreshold]

/-- `twoCallsText` is grammatical, so that it is accepted even by an assembly
that gives up after one fault.  With a focus on no function and a closure of no
label, a text is not. -/
theorem accepted_iff_grammatical_twoCalls :
    Grammatical (Statement.read "test" twoCallsText) ∧
    Program.assembleWithin 1 "test" twoCallsText = .ok twoCalls ∧
    ¬ Grammatical (Statement.read "test" "main:; focus 0; closure f; halt") ∧
    ∃ reports, Program.assemble "test" "main:; focus 0; closure f; halt" = .error reports ∧
      reports ≠ [] := by
  have hnot : ¬ Grammatical (Statement.read "test" "main:; focus 0; closure f; halt") := by
    decide +kernel
  obtain ⟨haccepted, _, hlimit⟩ := accepted_iff_grammatical "test" twoCallsText
  exact ⟨haccepted.mp ⟨_, assemble_twoCallsText⟩,
    (hlimit 1 twoCalls Nat.one_pos).mpr assemble_twoCallsText, hnot,
    (accepted_iff_grammatical _ _).2.1 hnot⟩

end Program

end SecdMachine
