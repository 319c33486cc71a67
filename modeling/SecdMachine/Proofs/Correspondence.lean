import SecdMachine.Proofs.Acceptance

/-!
# SecdMachine.Proofs.Correspondence

An assembled program says what its text says.

Locations, the indices of constants and the arguments of operations are worked
out in two rounds over growing tables.  What they come to is said here from the
statements alone: a label is at the index of its statement, a constant has as
its index the number of `const` statements before its own
(`Yields.at`), and the arguments of an operation are the locations, numbers or
index that the words of its statement stand for (`Opcode.Shape.Denotes`).  The
main statement is `assembled_faithfully`.
-/

namespace SecdMachine

/-! ## what a statement stands for -/

/-- Whether a statement brings a constant. -/
def Statement.isConst (s : Statement) : Bool :=
  s.kind = .operation && s.mnemonic = Opcode.const.mnemonic

/-- `sh.Denotes p index args ns`: in the program `p`, the arguments `args` of an
opcode of the shape `sh` stand for the numbers `ns`; if it brings a constant, it
is the one with the given index. -/
def Opcode.Shape.Denotes (p : Program) (index : Nat) :
    Opcode.Shape → List String → List Nat → Prop
  | .none, args, ns => args = [] ∧ ns = []
  | .literal, args, ns =>
    ns = [index] ∧
      OneArgument (fun a => ∃ v, Assembly.readLiteral? a = some v ∧ p.constants[index]? = some v)
        args
  | .position, args, ns =>
    OneArgument
      (fun a => a.toList.head? = some '$' ∧ ns = [Nat.ofDigitChars 10 a.toList.tail 0]) args
  | .index, args, ns => OneArgument (fun a => ns = [Nat.ofDigitChars 10 a.toList 0]) args
  | .label, args, ns | .labels, args, ns => args.map p.location? = ns.map some

theorem Opcode.mnemonic_inj {o o' : Opcode} : o.mnemonic = o'.mnemonic ↔ o = o' := by
  refine ⟨fun h => ?_, congrArg Opcode.mnemonic⟩
  rw [← Option.some.injEq, ← Opcode.ofMnemonic?_mnemonic o, h, Opcode.ofMnemonic?_mnemonic]

/-- The name of an operation is that of its opcode. -/
theorem Operation.mnemonic_of_opcode? {op : Operation} {o : Opcode} (h : op.opcode? = some o) :
    op.mnemonic = o.mnemonic := by
  cases op with
  | label | unknown => cases h
  | const | access | closure | closures | focus | apply | applyn | ret | arith | eq | brfl | br
  | halt => cases h; rfl

namespace Assembly

variable {labels : List Label} {pool : Nat} {o : Opcode} {args : List String} {t : Assembled}

/-! ## opcodes -/

/-- An opcode is assembled to an operation of its own. -/
theorem Encodes.opcode?_operation (h : Encodes labels pool o args t) :
    t.operation.opcode? = some o := by
  cases h with
  | closures | const | access | focus => rfl
  | plain ho => cases o <;> first | rfl | cases ho
  | jump ho hl => cases o <;> first | rfl | cases ho

theorem Encodes.length_constants (h : Encodes labels pool o args t) :
    t.constants.length = if o = .const then 1 else 0 := by
  cases h with
  | closures | const | access | focus => rfl
  | plain ho => cases o <;> first | rfl | cases ho
  | jump ho hl => cases o <;> first | rfl | cases ho

/-- The arguments of an opcode are assembled to what they stand for. -/
theorem Encodes.denotes {p : Program} (h : Encodes labels pool o args t)
    (hlabels : ∀ name, p.location? name = (findLabel? labels name).map Label.location)
    (hconst : ∀ v ∈ t.constants, p.constants[pool]? = some v) :
    o.shape.Denotes p pool args t.operation.arguments := by
  cases h with
  | plain ho =>
      rw [ho]
      refine ⟨rfl, ?_⟩
      cases o <;> rfl
  | closures hne hls =>
      have hlocations := map_location_of_locations hls
      simpa only [Opcode.shape, Opcode.Shape.Denotes, Operation.arguments, funext hlabels]
        using hlocations
  | @const a v hv => exact ⟨rfl, v, hv, hconst v List.mem_cons_self⟩
  | access hn =>
      obtain ⟨hdollar, hpos⟩ := readPosition?_eq_some_iff.mp hn
      exact ⟨hdollar, by rw [(Numeral.positive?_eq_some_iff.mp hpos).2]; rfl⟩
  | focus hn => exact congrArg (fun n => [n]) (Numeral.positive?_eq_some_iff.mp hn).2
  | @jump o a l ho hl =>
      have hlocation : p.location? a = some l.location := by rw [hlabels, hl]; rfl
      have harguments : (labelOperation l.location o).arguments = [l.location] := by
        cases o <;> first | rfl | cases ho
      rw [ho, harguments]
      simp only [Opcode.Shape.Denotes, List.map_cons, List.map_nil, hlocation]

/-! ## statements -/

variable {s : Statement} {ss : List Statement} {code : List Operation} {constants : List Value}

/-- An operation is assembled to its opcode. -/
theorem encodes_of_operation (hkind : s.kind = .operation)
    (h : assembleStatement labels pool s = .ok t) :
    ∃ o, Opcode.ofMnemonic? s.mnemonic = some o ∧ Encodes labels pool o s.arguments t := by
  unfold assembleStatement at h
  rw [hkind] at h
  simp only at h
  split at h
  · next o ho => exact ⟨o, ho, assembleOpcode_eq_ok_iff.mp h⟩
  · cases h

/-- A `const` statement brings one constant, and any other none. -/
theorem length_constants (h : assembleStatement labels pool s = .ok t) :
    t.constants.length = if s.isConst then 1 else 0 := by
  by_cases hkind : s.kind = .operation
  · obtain ⟨o, ho, he⟩ := encodes_of_operation hkind h
    have hconst : s.isConst = decide (o = .const) := by
      have hmnemonic : s.mnemonic = Opcode.const.mnemonic ↔ o = .const := by
        rw [← Opcode.mnemonic_of_ofMnemonic? ho, Opcode.mnemonic_inj]
      simp [Statement.isConst, hkind, hmnemonic]
    simp only [he.length_constants, hconst, decide_eq_true_eq]
  · have hlabel : t = { operation := .label } := by
      unfold assembleStatement at h
      cases hk : s.kind with
      | operation => exact absurd hk hkind
      | label => simp only [hk] at h; cases h; rfl
      | illegal => simp only [hk] at h; cases h; rfl
    simp [hlabel, Statement.isConst, hkind]

/-- There is one constant for each `const` statement. -/
theorem Yields.length_constants (h : Yields labels pool ss code constants) :
    constants.length = ss.countP Statement.isConst := by
  induction h with
  | nil pool => rfl
  | cons head tail ih =>
      rw [List.length_append, List.countP_cons, ih, Assembly.length_constants head, Nat.add_comm]

/-- **Statement by statement**: the operation at a location is assembled from
the statement there, and its constant, if it has one, has as many constants
before it as there are `const` statements before that statement. -/
theorem Yields.at (h : Yields labels pool ss code constants) {i : Nat} (hs : ss[i]? = some s) :
    ∃ t, assembleStatement labels (pool + (ss.take i).countP Statement.isConst) s = .ok t ∧
      code[i]? = some t.operation ∧
      ∀ v ∈ t.constants, constants[(ss.take i).countP Statement.isConst]? = some v := by
  induction h generalizing i with
  | nil pool => cases hs
  | @cons pool s' ss t code constants head tail ih =>
      have hlength := Assembly.length_constants head
      cases i with
      | zero =>
          cases hs
          refine ⟨t, head, rfl, fun v hv => ?_⟩
          -- One constant at most: the one at the front.
          match hconstants : t.constants with
          | [] => rw [hconstants] at hv; cases hv
          | [w] =>
              rw [hconstants, List.mem_singleton] at hv
              rw [hv]
              rfl
          | _ :: _ :: _ =>
              rw [hconstants] at hlength
              simp only [List.length_cons] at hlength
              split at hlength <;> omega
      | succ i =>
          obtain ⟨t', hassemble, hcode, hconst⟩ := ih (i := i) hs
          rw [List.take_succ_cons, List.countP_cons]
          refine ⟨t', ?_, hcode, fun v hv => ?_⟩
          · rw [← hlength, Nat.add_comm _ t.constants.length, ← Nat.add_assoc]
            exact hassemble
          · rw [← hlength, List.getElem?_append_right (Nat.le_add_left _ _), Nat.add_sub_cancel]
            exact hconst v hv

/-! ## labels -/

/-- The location of a label is looked up by its name. -/
theorem lookup_map_labels (labels : List Label) (name : String) :
    (labels.map fun l => (l.name, l.location)).lookup name =
      (findLabel? labels name).map Label.location := by
  induction labels with
  | nil => rfl
  | cons l labels ih =>
      rw [List.map_cons, List.lookup_cons, findLabel?, List.find?_cons]
      by_cases hname : l.name = name
      · simp [hname]
      · have hname' : (name == l.name) = false := beq_eq_false_iff_ne.mpr (Ne.symm hname)
        simp only [hname', hname, decide_false]
        exact ih

/-- Labels of different names are found by their names. -/
theorem findLabel?_eq_some_iff {name : String} {l : Label}
    (hnodup : (labels.map Label.name).Nodup) :
    findLabel? labels name = some l ↔ l ∈ labels ∧ l.name = name := by
  refine ⟨findLabel?_eq_some, ?_⟩
  rintro ⟨hmem, rfl⟩
  induction labels with
  | nil => cases hmem
  | cons l' labels ih =>
      rw [List.map_cons, List.nodup_cons] at hnodup
      rw [findLabel?, List.find?_cons]
      cases List.mem_cons.mp hmem with
      | inl heq => simp [heq]
      | inr hmem =>
          have hne : l'.name ≠ l.name := by
            intro heq
            exact hnodup.1 (heq ▸ List.mem_map_of_mem hmem)
          simp only [hne, decide_false]
          exact ih hnodup.2 hmem

theorem mem_labelEntries {l : Label} :
    l ∈ labelEntries 0 ss ↔
      ∃ i s, ss[i]? = some s ∧ s.kind = .label ∧ l = ⟨s.labelName, i, s.line⟩ := by
  simp only [labelEntries, List.mem_map, List.mem_filter, decide_eq_true_eq]
  constructor
  · rintro ⟨⟨s, i⟩, ⟨hmem, hkind⟩, rfl⟩
    exact ⟨i, s, List.mem_zipIdx_iff_getElem?.mp hmem, hkind, rfl⟩
  · rintro ⟨i, s, hs, hkind, rfl⟩
    exact ⟨(s, i), ⟨List.mem_zipIdx_iff_getElem?.mpr hs, hkind⟩, rfl⟩

/-- Labels are in order of location. -/
theorem pairwise_labelEntries (i : Nat) (ss : List Statement) :
    (labelEntries i ss).Pairwise fun l l' => l.location < l'.location := by
  have hrange : ((ss.zipIdx i).map Prod.snd).Pairwise (· < ·) := by
    rw [List.zipIdx_map_snd]
    exact List.pairwise_lt_range'
  exact List.pairwise_map.mpr ((List.pairwise_map.mp hrange).filter _)

/-! ## programs -/

namespace Assembles

variable {p : Program} {i : Nat}

theorem labels_eq (h : Assembles ss p) : (labelsFrom 0 [] ss).labels = labelEntries 0 ss := by
  rw [labels_labelsFrom h.labelled, List.nil_append]

theorem location?_eq (h : Assembles ss p) (name : String) :
    p.location? name = (findLabel? (labelEntries 0 ss) name).map Label.location := by
  rw [Program.location?, h.labels, lookup_map_labels, h.labels_eq]

theorem location?_main (h : Assembles ss p) : p.location? mainLabel = some p.main := by
  obtain ⟨l, hl, hmain⟩ := h.main
  rw [h.location?_eq, ← h.labels_eq, hl, hmain]
  rfl

/-- A name has a location exactly if the statement there defines it. -/
theorem location?_eq_some_iff (h : Assembles ss p) {name : String} :
    p.location? name = some i ↔
      ∃ s, ss[i]? = some s ∧ s.kind = .label ∧ s.labelName = name := by
  have hnodup : ((labelEntries 0 ss).map Label.name).Nodup := by
    rw [map_name_labelEntries]
    exact (reports_labelsFrom_eq_nil_iff.mp h.labelled).2.1
  rw [h.location?_eq, Option.map_eq_some_iff]
  constructor
  · rintro ⟨l, hl, rfl⟩
    obtain ⟨hmem, rfl⟩ := findLabel?_eq_some hl
    obtain ⟨i, s, hs, hkind, rfl⟩ := mem_labelEntries.mp hmem
    exact ⟨s, hs, hkind, rfl⟩
  · rintro ⟨s, hs, hkind, rfl⟩
    have hmem : ⟨s.labelName, i, s.line⟩ ∈ labelEntries 0 ss :=
      mem_labelEntries.mpr ⟨i, s, hs, hkind, rfl⟩
    exact ⟨_, (findLabel?_eq_some_iff hnodup).mpr ⟨hmem, rfl⟩, rfl⟩

/-- The labels are in order of location as they stand. -/
theorem labelNames_eq (h : Assembles ss p) : p.labelNames = labelledNames ss := by
  have hsorted : p.labels.Pairwise fun a b => Program.labelLE a b = true := by
    rw [h.labels, h.labels_eq, List.pairwise_map]
    refine (pairwise_labelEntries 0 ss).imp fun hlt => ?_
    simp [Program.labelLE, hlt]
  rw [Program.labelNames, Program.sortedLabels, List.mergeSort_of_pairwise hsorted, h.labels,
    h.labels_eq, List.map_map, ← map_name_labelEntries 0]
  rfl

/-- A label statement becomes a label. -/
theorem code_of_label (h : Assembles ss p) (hs : ss[i]? = some s) (hkind : s.kind = .label) :
    p.code[i]? = some .label := by
  obtain ⟨t, ht, hcode, _⟩ := h.yields.at hs
  unfold assembleStatement at ht
  rw [hkind] at ht
  cases ht
  exact hcode

/-- Any other statement becomes an operation of its opcode, with the arguments
that its words stand for. -/
theorem code_of_operation (h : Assembles ss p) (hs : ss[i]? = some s)
    (hkind : s.kind = .operation) :
    ∃ op o, p.code[i]? = some op ∧ op.opcode? = some o ∧ s.fields = o.mnemonic :: s.arguments ∧
      o.shape.Denotes p ((ss.take i).countP Statement.isConst) s.arguments op.arguments := by
  obtain ⟨t, ht, hcode, hconst⟩ := h.yields.at hs
  obtain ⟨o, ho, he⟩ := encodes_of_operation hkind ht
  rw [Nat.zero_add] at he
  refine ⟨t.operation, o, hcode, he.opcode?_operation, Statement.ofMnemonic?_eq_some_iff.mp ho,
    he.denotes (fun name => ?_) hconst⟩
  rw [h.location?_eq, h.labels_eq]

end Assembles

end Assembly

namespace Program

/-- **Correspondence**: an accepted program has one operation for each statement
of its text.  Its label table is that of the label statements, in their order,
and execution starts at the label `main`; the operation of a statement does
nothing exactly if the statement is a label; every other operation has the
opcode that its statement names, and the arguments that its words stand for.
The constants are those of the `const` statements, in their order. -/
theorem assembled_faithfully {source text : String} {p : Program}
    (hp : Program.assemble source text = .ok p) :
    p.statements = Statement.read source text ∧ p.code.length = p.statements.length ∧
    (∀ name i, p.location? name = some i ↔
      ∃ s, p.statements[i]? = some s ∧ s.kind = .label ∧ s.labelName = name) ∧
    p.location? "main" = some p.main ∧
    p.labelNames = (p.statements.filter (·.kind = .label)).map Statement.labelName ∧
    (∀ (i : Nat) (s : Statement), p.statements[i]? = some s →
      (p.code[i]? = some .label ↔ s.kind = .label)) ∧
    (∀ (i : Nat) (s : Statement), p.statements[i]? = some s → s.kind ≠ .label →
      ∃ (op : Operation) (o : Opcode) (args : List String), p.code[i]? = some op ∧
        s.fields = op.mnemonic :: args ∧ op.opcode? = some o ∧
        o.shape.Denotes p ((p.statements.take i).countP Statement.isConst) args op.arguments) ∧
    p.constants.length = p.statements.countP Statement.isConst := by
  have h := Assembly.assembles_of_ofStatements hp
  have hoperation : ∀ {i : Nat} {s : Statement}, (Statement.read source text)[i]? = some s →
      s.kind ≠ .label → s.kind = .operation := by
    intro i s hs hkind
    have hmem := List.mem_of_getElem? hs
    have hlegal := Assembly.illegalReports_eq_nil_iff.mp h.legal s hmem
    rw [Statement.kind_eq_of_legal (Statement.kind_eq_of_mem_read hmem) hlegal] at hkind ⊢
    cases hcolon : s.endsInColon with
    | true => simp [hcolon] at hkind
    | false => rfl
  rw [h.statements]
  refine ⟨rfl, h.yields.length_code, fun _ _ => h.location?_eq_some_iff, h.location?_main,
    h.labelNames_eq, fun i s hs => ⟨fun hcode => ?_, h.code_of_label hs⟩, fun i s hs hkind => ?_,
    h.yields.length_constants⟩
  · refine Decidable.byContradiction fun hkind => ?_
    obtain ⟨op, o, hop, hopcode, _⟩ := h.code_of_operation hs (hoperation hs hkind)
    rw [hcode] at hop
    cases hop
    cases hopcode
  · obtain ⟨op, o, hop, hopcode, hfields, hargs⟩ := h.code_of_operation hs (hoperation hs hkind)
    rw [← Operation.mnemonic_of_opcode? hopcode] at hfields
    exact ⟨op, o, s.arguments, hop, hfields, hopcode, hargs⟩

/-- In `twoCalls` the label `f` is behind the statements that refer to it, and
`const 9`, with no `const` before it, brings the constant 0. -/
theorem assembled_faithfully_twoCalls :
    twoCalls.location? "f" = some 11 ∧
    (∃ s, twoCalls.statements[11]? = some s ∧ s.kind = .label ∧ s.labelName = "f") ∧
    ∃ (s : Statement) (op : Operation) (o : Opcode) (args : List String),
      twoCalls.statements[6]? = some s ∧ s.text = "const 9" ∧ twoCalls.code[6]? = some op ∧
      s.fields = op.mnemonic :: args ∧ op.opcode? = some o ∧
      o.shape.Denotes twoCalls ((twoCalls.statements.take 6).countP Statement.isConst) args
        op.arguments := by
  obtain ⟨_, _, hlocation, _, _, _, hoperations, _⟩ :=
    assembled_faithfully assemble_twoCallsText
  have hf : twoCalls.location? "f" = some 11 := by decide +kernel
  have hs : twoCalls.statements[6]? = some ⟨.operation, "const 9", 1, "test"⟩ := by decide +kernel
  obtain ⟨op, o, args, hop⟩ := hoperations 6 _ hs (by decide)
  exact ⟨hf, (hlocation "f" 11).mp hf, _, op, o, args, hs, rfl, hop⟩

end Program

end SecdMachine
