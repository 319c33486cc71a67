import Mathlib.Data.List.Forall2
import SecdMachine.Proofs.Correspondence

/-!
# SecdMachine.Proofs.Relocation

Statements at other places, with other literals.

When a text is changed, its statements move to other locations, and the
literals of its constants may be written differently.  `Statement.Matches`
relates the statements, and a function on locations says where they moved to.
The operations that they are assembled to are the same, with the locations in
them moved (`Operation.relocate`), as long as labels are found where they moved
to (`Assembly.Relocates`), and the constants are those that the new literals
denote (`Yields.relocate`).

Labels are found there if no two of them have the same name
(`relocates_labelEntries`).  So statements that match those of a program one by
one make the same program, but for its constants (`Assembles.of_matches`).
-/

namespace SecdMachine

/-! ## operations at other places -/

namespace Operation

/-- The operation with the locations in it moved. -/
def relocate (φ : Nat → Nat) : Operation → Operation
  | .closure entry => .closure (φ entry)
  | .closures entries => .closures (entries.map φ)
  | .brfl target => .brfl (φ target)
  | .br target => .br (φ target)
  | .label => .label
  | .const index => .const index
  | .access position => .access position
  | .focus index => .focus index
  | .apply => .apply
  | .applyn => .applyn
  | .ret => .ret
  | .arith f => .arith f
  | .eq => .eq
  | .halt => .halt
  | .unknown code => .unknown code

/-- Nothing moves where no location does. -/
@[simp] theorem relocate_id (op : Operation) : op.relocate id = op := by
  cases op <;> simp [relocate]

/-- A moved operation has the opcode that it had. -/
@[simp] theorem opcode?_relocate (φ : Nat → Nat) (op : Operation) :
    (op.relocate φ).opcode? = op.opcode? := by
  cases op <;> rfl

@[simp] theorem mnemonic_relocate (φ : Nat → Nat) (op : Operation) :
    (op.relocate φ).mnemonic = op.mnemonic := by
  cases op <;> rfl

@[simp] theorem arity_relocate (φ : Nat → Nat) (op : Operation) :
    (op.relocate φ).arity = op.arity := by
  simp [arity]

end Operation

/-! ## matching statements -/

namespace Statement

/-- The value that a `const` statement brings. -/
def literal? (s : Statement) : Option Value :=
  if s.isConst then
    match s.arguments with
    | [a] => Assembly.readLiteral? a
    | _ => none
  else none

/-- Statements of one kind with the same text, except that the literals of
constants may differ. -/
structure Matches (s s' : Statement) : Prop where
  kind : s'.kind = s.kind
  text : s'.text = s.text ∨ (s.literal?.isSome = true ∧ s'.literal?.isSome = true)

variable {s s' : Statement}

/-- A statement matches itself. -/
theorem Matches.refl (s : Statement) : s.Matches s :=
  ⟨rfl, .inl rfl⟩

/-- The literal of a statement depends on its kind and text only. -/
theorem literal?_eq_of_text (hkind : s'.kind = s.kind) (htext : s'.text = s.text) :
    s'.literal? = s.literal? := by
  cases s
  cases s'
  cases hkind
  cases htext
  rfl

/-- The literal of a statement is what the one argument of a constant denotes. -/
theorem literal?_eq_some_iff {v : Value} :
    s.literal? = some v ↔
      s.isConst = true ∧ ∃ a, s.arguments = [a] ∧ Assembly.readLiteral? a = some v := by
  unfold literal?
  split
  · next hconst =>
      split
      · next a ha => simp [hconst, ha]
      · next hne => simpa [hconst] using fun a ha => absurd ha (hne a)
  · next hconst => simp [hconst]

/-- Statements that match bring the same number of constants. -/
theorem Matches.length_literal? (h : s.Matches s') :
    s'.literal?.toList.length = s.literal?.toList.length := by
  obtain htext | ⟨hs, hs'⟩ := h.text
  · rw [literal?_eq_of_text h.kind htext]
  · obtain ⟨v, hv⟩ := Option.isSome_iff_exists.mp hs
    obtain ⟨v', hv'⟩ := Option.isSome_iff_exists.mp hs'
    simp [hv, hv']

/-- Label statements match only with the same text. -/
theorem Matches.labelName (h : s.Matches s') (hkind : s.kind = .label) :
    s'.labelName = s.labelName := by
  obtain htext | ⟨hs, _⟩ := h.text
  · simp only [Statement.labelName, htext]
  · obtain ⟨v, hv⟩ := Option.isSome_iff_exists.mp hs
    have hconst := (literal?_eq_some_iff.mp hv).1
    simp [isConst, hkind] at hconst

end Statement

namespace Assembly

variable {φ : Nat → Nat} {labels labels' : List Label} {pool : Nat} {o : Opcode}
  {args : List String} {t : Assembled} {s s' : Statement} {ss ss' : List Statement}
  {code code' : List Operation} {constants constants' : List Value} {p p' : Program}

/-! ## labels at other places -/

/-- `Relocates φ labels labels'`: the labels of one table are found in the other,
moved by `φ`. -/
def Relocates (φ : Nat → Nat) (labels labels' : List Label) : Prop :=
  ∀ name l, findLabel? labels name = some l →
    ∃ l', findLabel? labels' name = some l' ∧ l'.location = φ l.location

/-- Statements that moved by `φ` have their labels moved by `φ`. -/
theorem relocates_labelEntries (hnodup : (labelledNames ss').Nodup)
    (h : ∀ i s, ss[i]? = some s → ∃ s', ss'[φ i]? = some s' ∧ s.Matches s') :
    Relocates φ (labelEntries 0 ss) (labelEntries 0 ss') := by
  intro name l hl
  obtain ⟨hmem, rfl⟩ := findLabel?_eq_some hl
  obtain ⟨i, s, hs, hkind, rfl⟩ := mem_labelEntries.mp hmem
  obtain ⟨s', hs', hmatches⟩ := h i s hs
  have hmem' : ⟨s'.labelName, φ i, s'.line⟩ ∈ labelEntries 0 ss' :=
    mem_labelEntries.mpr ⟨φ i, s', hs', by rw [hmatches.kind, hkind], rfl⟩
  rw [← map_name_labelEntries 0] at hnodup
  exact ⟨_, (findLabel?_eq_some_iff hnodup).mpr ⟨hmem', hmatches.labelName hkind⟩, rfl⟩

/-- A list of names is found at the moved places. -/
theorem Relocates.locations (h : Relocates φ labels labels') {names : List String} {ls : List Nat}
    (hls : locations labels names = .ok ls) :
    Assembly.locations labels' names = .ok (ls.map φ) := by
  induction names generalizing ls with
  | nil =>
      cases hls
      rfl
  | cons name names ih =>
      rw [Assembly.locations] at hls ⊢
      split at hls
      · next l ls' hl hls' =>
          cases hls
          obtain ⟨l', hl', hlocation⟩ := h name l hl
          simp [hl', ih hls', hlocation]
      · cases hls
      · cases hls
      · cases hls

/-! ## statements at other places -/

/-- What an operation encodes moves with the labels it names. -/
theorem Encodes.relocate (h : Encodes labels pool o args t) (hl : Relocates φ labels labels') :
    Encodes labels' pool o args { t with operation := t.operation.relocate φ } := by
  cases h with
  | plain ho =>
      have hop : (plainOperation o).relocate φ = plainOperation o := by cases o <;> rfl
      simp only [hop]
      exact .plain ho
  | closures hne hls => exact .closures hne (hl.locations hls)
  | const hv => exact .const hv
  | access hn => exact .access hn
  | focus hn => exact .focus hn
  | @jump o a l ho hfind =>
      obtain ⟨l', hfind', hlocation⟩ := hl a l hfind
      have hop : (labelOperation l.location o).relocate φ = labelOperation l'.location o := by
        rw [hlocation]
        cases o <;> rfl
      simp only [hop]
      exact .jump ho hfind'

/-- The constant that a statement brings is the value of its literal. -/
theorem constants_eq (h : assembleStatement labels pool s = .ok t) :
    t.constants = s.literal?.toList := by
  have hlength := Assembly.length_constants h
  by_cases hconst : s.isConst = true
  · have hkind : s.kind = .operation ∧ s.mnemonic = Opcode.const.mnemonic := by
      simpa [Statement.isConst] using hconst
    obtain ⟨o, ho, he⟩ := encodes_of_operation hkind.1 h
    obtain rfl : o = .const := by
      rw [← Opcode.mnemonic_inj, Opcode.mnemonic_of_ofMnemonic? ho, hkind.2]
    generalize hargs : s.arguments = args at he
    cases he with
    | const hv => rw [Statement.literal?_eq_some_iff.mpr ⟨hconst, _, hargs, hv⟩]; rfl
    | plain ho => cases ho
    | jump ho => cases ho
  · rw [if_neg hconst, List.length_eq_zero_iff] at hlength
    rw [hlength, Statement.literal?, if_neg hconst]
    rfl

/-- A matching statement is assembled to the same operation, moved. -/
theorem assembleStatement_relocate (h : assembleStatement labels pool s = .ok t)
    (hs : s.Matches s') (hl : Relocates φ labels labels') :
    assembleStatement labels' pool s' = .ok ⟨t.operation.relocate φ, s'.literal?.toList⟩ := by
  suffices hop : ∃ t', assembleStatement labels' pool s' = .ok t' ∧
      t'.operation = t.operation.relocate φ by
    obtain ⟨⟨operation, constants⟩, ht', rfl⟩ := hop
    rw [ht', ← constants_eq ht']
  obtain htext | ⟨hv, hv'⟩ := hs.text
  · have hmnemonic : s'.mnemonic = s.mnemonic := by
      simp only [Statement.mnemonic, Statement.fields, htext]
    have harguments : s'.arguments = s.arguments := by
      simp only [Statement.arguments, Statement.fields, htext]
    unfold assembleStatement at h ⊢
    rw [hs.kind, hmnemonic, harguments]
    cases hkind : s.kind with
    | label | illegal =>
        simp only [hkind] at h
        cases h
        exact ⟨_, rfl, rfl⟩
    | operation =>
        simp only [hkind] at h ⊢
        cases ho : Opcode.ofMnemonic? s.mnemonic with
        | none => simp [ho] at h
        | some o =>
            simp only [ho] at h ⊢
            have he := (assembleOpcode_eq_ok_iff.mp h).relocate hl
            exact ⟨_, assembleOpcode_eq_ok_iff.mpr he, rfl⟩
  · -- Both are constants, at the same index.
    have hconst (labels : List Label) {s : Statement} (hv : s.literal?.isSome = true) :
        ∃ v, assembleStatement labels pool s = .ok ⟨.const pool, [v]⟩ := by
      obtain ⟨v, hv⟩ := Option.isSome_iff_exists.mp hv
      obtain ⟨hconst, a, ha, hread⟩ := Statement.literal?_eq_some_iff.mp hv
      obtain ⟨hkind, hmnemonic⟩ : s.kind = .operation ∧ s.mnemonic = Opcode.const.mnemonic := by
        simpa [Statement.isConst] using hconst
      refine ⟨v, ?_⟩
      unfold assembleStatement
      simp only [hkind, hmnemonic, Opcode.ofMnemonic?_mnemonic, ha]
      exact assembleOpcode_eq_ok_iff.mpr (.const hread)
    obtain ⟨v, hs⟩ := hconst labels hv
    obtain ⟨v', hs'⟩ := hconst labels' hv'
    rw [h] at hs
    cases hs
    exact ⟨_, hs', rfl⟩

/-! ## lists of statements -/

/-- Matching statements are assembled to the same operations, moved. -/
theorem Yields.relocate (h : Yields labels pool ss code constants)
    (hss : List.Forall₂ Statement.Matches ss ss') (hl : Relocates φ labels labels') :
    Yields labels' pool ss' (code.map (Operation.relocate φ))
      (ss'.filterMap Statement.literal?) := by
  induction h generalizing ss' with
  | nil pool =>
      cases hss
      exact .nil pool
  | @cons pool s ss t code constants head tail ih =>
      cases hss with
      | @cons _ s' _ ss' hs hss =>
          have hlength : t.constants.length = s'.literal?.toList.length := by
            rw [constants_eq head, hs.length_literal?]
          have htail := ih hss
          rw [hlength] at htail
          have hcons := Yields.cons (assembleStatement_relocate head hs hl) htail
          rw [List.map_cons]
          cases hv : s'.literal? with
          | none => simpa [hv] using hcons
          | some v => simpa [hv] using hcons

/-- The constants of a program are the literals of its statements. -/
theorem Yields.constants_eq (h : Yields labels pool ss code constants) :
    constants = ss.filterMap Statement.literal? := by
  induction h with
  | nil pool => rfl
  | @cons pool s ss t code constants head tail ih =>
      rw [Assembly.constants_eq head, ih]
      cases hv : s.literal? with
      | none => simp [hv]
      | some v => simp [hv]

/-- With one table of labels, statements are assembled to one code only. -/
theorem Yields.code_eq (h : Yields labels pool ss code constants)
    (h' : Yields labels pool ss code' constants') : code' = code := by
  induction h generalizing code' constants' with
  | nil pool =>
      cases h'
      rfl
  | cons head tail ih =>
      cases h' with
      | cons head' tail' =>
          rw [head] at head'
          cases head'
          rw [ih tail']

/-- Statements one after the other are assembled one after the other. -/
theorem yields_append_iff :
    Yields labels pool (ss ++ ss') code constants ↔
      ∃ c c' k k', code = c ++ c' ∧ constants = k ++ k' ∧ Yields labels pool ss c k ∧
        Yields labels (pool + k.length) ss' c' k' := by
  induction ss generalizing pool code constants with
  | nil =>
      constructor
      · intro h
        exact ⟨[], code, [], constants, rfl, rfl, .nil pool, h⟩
      · rintro ⟨c, c', k, k', rfl, rfl, h, h'⟩
        cases h
        exact h'
  | cons s ss ih =>
      constructor
      · intro h
        cases h with
        | @cons _ _ _ t _ _ head tail =>
            obtain ⟨c, c', k, k', rfl, rfl, h, h'⟩ := ih.mp tail
            refine ⟨t.operation :: c, c', t.constants ++ k, k', rfl, by simp, .cons head h, ?_⟩
            rwa [List.length_append, ← Nat.add_assoc]
      · rintro ⟨c, c', k, k', rfl, rfl, h, h'⟩
        cases h with
        | @cons _ _ _ t c k head tail =>
            rw [List.length_append, ← Nat.add_assoc] at h'
            rw [List.append_assoc]
            exact .cons head (ih.mpr ⟨c, c', k, k', rfl, rfl, tail, h'⟩)

/-! ## programs -/

/-- The labels of a program are identifiers. -/
theorem Assembles.identifiers (h : Assembles ss p) :
    ∀ name ∈ labelledNames ss, isIdentifier name.toList = true :=
  (reports_labelsFrom_eq_nil_iff.mp h.labelled).1

/-- The labels of a program are distinct. -/
theorem Assembles.nodup (h : Assembles ss p) : (labelledNames ss).Nodup :=
  (reports_labelsFrom_eq_nil_iff.mp h.labelled).2.1

/-- The code of a program refers to the labels where they stand. -/
theorem Assembles.yields_labelEntries (h : Assembles ss p) :
    Yields (labelEntries 0 ss) 0 ss p.code p.constants := by
  rw [← h.labels_eq]
  exact h.yields

/-- A program starts at its label `main`. -/
theorem Assembles.findLabel?_main (h : Assembles ss p) :
    ∃ l, findLabel? (labelEntries 0 ss) mainLabel = some l ∧ p.main = l.location := by
  rw [← h.labels_eq]
  exact h.main

/-- Statements that are assembled one after the other, with labels in order, make
a program. -/
theorem exists_assembles_of_yields {l : Label}
    (hlegal : ∀ s ∈ ss, Statement.illegalChar? s.text.toList = none)
    (hidentifiers : ∀ name ∈ labelledNames ss, isIdentifier name.toList = true)
    (hnodup : (labelledNames ss).Nodup) (hyields : Yields (labelEntries 0 ss) 0 ss code constants)
    (hmain : findLabel? (labelEntries 0 ss) mainLabel = some l) :
    ∃ p, Assembles ss p ∧ p.code = code ∧ p.constants = constants ∧ p.main = l.location := by
  have hlabelled : (labelsFrom 0 [] ss).reports = [] :=
    reports_labelsFrom_eq_nil_iff.mpr ⟨hidentifiers, hnodup, fun _ _ => List.not_mem_nil⟩
  have hlabels : (labelsFrom 0 [] ss).labels = labelEntries 0 ss := by
    rw [labels_labelsFrom hlabelled, List.nil_append]
  rw [← hlabels] at hyields hmain
  exact ⟨⟨code, constants, _, ss, l.location⟩,
    ⟨illegalReports_eq_nil_iff.mpr hlegal, hlabelled, hyields, rfl, rfl, l, hmain, rfl⟩,
    rfl, rfl, rfl⟩

/-- Statements that match define the same labels. -/
theorem labelledNames_of_matches (hss : List.Forall₂ Statement.Matches ss ss') :
    labelledNames ss' = labelledNames ss := by
  induction hss with
  | nil => rfl
  | @cons s s' ss ss' hs hss ih =>
      rw [labelledNames_cons, labelledNames_cons, hs.kind, ih]
      split
      · next hkind => rw [hs.labelName hkind]
      · rfl

/-- **Other literals**: statements that match those of a program make a program
that differs from it in the constants only. -/
theorem Assembles.of_matches (h : Assembles ss p) (hss : List.Forall₂ Statement.Matches ss ss')
    (hlegal : ∀ s ∈ ss', Statement.illegalChar? s.text.toList = none) :
    ∃ p', Assembles ss' p' ∧ p'.code = p.code ∧
      p'.constants = ss'.filterMap Statement.literal? ∧ p'.main = p.main := by
  have hnames := labelledNames_of_matches hss
  have hnodup : (labelledNames ss').Nodup := hnames ▸ h.nodup
  have hplaces : ∀ (i : Nat) (s : Statement), ss[i]? = some s →
      ∃ s', ss'[id i]? = some s' ∧ s.Matches s' := by
    intro i s hs
    obtain ⟨hi, rfl⟩ := List.getElem?_eq_some_iff.mp hs
    have hi' : i < ss'.length := hss.length_eq ▸ hi
    exact ⟨ss'[i], List.getElem?_eq_getElem hi', hss.get hi hi'⟩
  have hl := relocates_labelEntries hnodup hplaces
  obtain ⟨l, hmain, hlocation⟩ := h.findLabel?_main
  obtain ⟨l', hmain', hlocation'⟩ := hl _ _ hmain
  have hyields := h.yields_labelEntries.relocate hss hl
  simp only [funext Operation.relocate_id, List.map_id'] at hyields
  obtain ⟨p', hp', hcode, hconstants, hp'main⟩ :=
    exists_assembles_of_yields hlegal (hnames ▸ h.identifiers) hnodup hyields hmain'
  refine ⟨p', hp', hcode, hconstants, ?_⟩
  rw [hp'main, hlocation, hlocation']
  rfl

end Assembly

end SecdMachine
