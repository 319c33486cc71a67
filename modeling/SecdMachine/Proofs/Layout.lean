import SecdMachine.Assembly

/-!
# SecdMachine.Proofs.Layout

What an assembled program looks like.

A text is accepted only if no round of the assembly reports anything, so
every statement has given its operation, one after the other
(`Assembly.Yields`, `Assembly.Assembles`).  From this follows what the step
of the machine relies on (`Program.WellFormed`): there is one operation for
each statement, every location in an operation is the place of a label line,
every index is one of a constant, functions are selected from 1 on, and no
operation is unknown to the machine.
-/

namespace SecdMachine

/-! ## well-formed programs -/

/-- Whether a value is one that a literal can denote. -/
def Value.IsLiteral : Value → Prop
  | .int n => Numeral.fits n = true
  | .bool _ => True
  | _ => False

/-- Whether the arguments of an operation are in order, for a program whose
label lines have the locations `labelled` and that has `pool` constants. -/
def Operation.Resolved (labelled : Nat → Prop) (pool : Nat) : Operation → Prop
  | .const index => index < pool
  | .closure location | .brfl location | .br location => labelled location
  | .closures locations => ∀ l ∈ locations, labelled l
  | .focus index => 0 < index
  | .unknown _ => False
  | .label | .access _ | .apply | .applyn | .ret | .arith _ | .eq | .halt => True

/-- A location that is the place of a label line. -/
def Program.IsLabel (p : Program) (location : Nat) : Prop :=
  ∃ s, p.statements[location]? = some s ∧ s.kind = .label

/-- What the machine relies on in a program. -/
structure Program.WellFormed (p : Program) : Prop where
  length_code : p.code.length = p.statements.length
  resolved : ∀ op ∈ p.code, op.Resolved p.IsLabel p.constants.length
  literal : ∀ v ∈ p.constants, v.IsLiteral
  main : p.IsLabel p.main

/-- More constants, and more label lines, do no harm. -/
theorem Operation.Resolved.mono {labelled labelled' : Nat → Prop} {m n : Nat} {op : Operation}
    (h : op.Resolved labelled m) (hl : ∀ l, labelled l → labelled' l) (hle : m ≤ n) :
    op.Resolved labelled' n := by
  cases op with
  | const index => exact Nat.lt_of_lt_of_le h hle
  | closure location => exact hl location h
  | brfl location => exact hl location h
  | br location => exact hl location h
  | closures locations => exact fun l hmem => hl l (h l hmem)
  | focus index => exact h
  | unknown code => exact h
  | label | access | apply | applyn | ret | arith | eq | halt => trivial

/-- The place of a label line is inside the program. -/
theorem Program.WellFormed.lt_size {p : Program} (h : p.WellFormed) {location : Nat}
    (hl : p.IsLabel location) : location < p.size := by
  obtain ⟨s, hs, _⟩ := hl
  rw [Program.size, h.length_code]
  exact (List.getElem?_eq_some_iff.mp hs).1

namespace Assembly

/-! ## numerals and literals -/

theorem pos_of_positive? {cs : List Char} {n : Nat} (h : Numeral.positive? cs = some n) :
    0 < n := by
  obtain ⟨_, hn⟩ := Option.filter_eq_some_iff.mp h
  simp only [Bool.and_eq_true, decide_eq_true_eq] at hn
  exact hn.1

/-- What is read as an integer is a machine integer. -/
theorem fits_of_readInteger {cs : List Char} {n : Int} (h : Numeral.readInteger cs = .ok n) :
    Numeral.fits n = true := by
  -- All three ways of reading end in the same check.
  have hchecked : ∀ {m : Int}, Numeral.checked m = .ok n → Numeral.fits n = true := by
    intro m hm
    unfold Numeral.checked at hm
    split at hm
    · next hfits => cases hm; exact hfits
    · contradiction
  have hbind : ∀ {ds : List Char} {f : Nat → Int},
      ((Numeral.readNatural ds).bind fun k => Numeral.checked (f k)) = .ok n →
        Numeral.fits n = true := by
    intro ds f hb
    cases hr : Numeral.readNatural ds with
    | error e => rw [hr] at hb; contradiction
    | ok k => rw [hr] at hb; exact hchecked hb
  unfold Numeral.readInteger at h
  split at h <;> exact hbind h

/-- What is read as a literal is an integer or a Boolean. -/
theorem isLiteral_of_readLiteral? {text : String} {v : Value} (h : readLiteral? text = some v) :
    v.IsLiteral := by
  unfold readLiteral? at h
  split at h
  · cases h; trivial
  · split at h
    · cases h; trivial
    · obtain ⟨n, hn, rfl⟩ := Option.map_eq_some_iff.mp h
      cases hr : Numeral.readInteger text.toList with
      | error e => rw [hr] at hn; contradiction
      | ok m =>
          rw [hr] at hn
          cases hn
          exact fits_of_readInteger hr

/-! ## labels -/

theorem findLabel?_eq_some {labels : List Label} {name : String} {l : Label}
    (h : findLabel? labels name = some l) : l ∈ labels ∧ l.name = name :=
  ⟨List.mem_of_find?_eq_some h, by simpa using List.find?_some h⟩

/-- Every label that is found was known before, or names the place of its own
line. -/
theorem mem_labelsFrom {ss : List Statement} {known : List Label} {i : Nat} {l : Label}
    (h : l ∈ (labelsFrom i known ss).labels) :
    l ∈ known ∨ ∃ j s, ss[j]? = some s ∧ s.kind = .label ∧ l.name = s.labelName ∧
      l.location = i + j := by
  induction ss generalizing i known with
  | nil => exact .inl h
  | cons s ss ih =>
      have hlater : ∀ {known' : List Label}, l ∈ (labelsFrom (i + 1) known' ss).labels →
          l ∈ known' ∨ ∃ j s', (s :: ss)[j]? = some s' ∧ s'.kind = .label ∧
            l.name = s'.labelName ∧ l.location = i + j := by
        intro known' h'
        obtain h' | ⟨j, s', hs', hkind, hname, hloc⟩ := ih h'
        · exact .inl h'
        · exact .inr ⟨j + 1, s', hs', hkind, hname, by omega⟩
      rw [labelsFrom] at h
      split at h
      · next hkind =>
          split at h
          · split at h
            · exact hlater h
            · obtain h | h := hlater h
              · obtain h | h := List.mem_append.mp h
                · exact .inl h
                · rw [List.mem_singleton.mp h]
                  exact .inr ⟨0, s, rfl, hkind, rfl, rfl⟩
              · exact .inr h
          · exact hlater h
      · exact hlater h

/-- The locations of labels, name by name. -/
theorem map_location_of_locations {labels : List Label} {names : List String} {ls : List Nat}
    (h : locations labels names = .ok ls) :
    names.map (fun name => (findLabel? labels name).map Label.location) = ls.map some := by
  induction names generalizing ls with
  | nil => cases h; rfl
  | cons name names ih =>
      rw [locations] at h
      split at h
      · next l ls' hl hls =>
          cases h
          rw [List.map_cons, List.map_cons, hl, ih hls]
          rfl
      · cases h
      · cases h
      · cases h

/-- Labels that are looked up have a location of the table. -/
theorem exists_label_of_mem_locations {labels : List Label} {names : List String} {ls : List Nat}
    (h : locations labels names = .ok ls) {location : Nat} (hmem : location ∈ ls) :
    ∃ l ∈ labels, l.location = location := by
  have hmap :
      some location ∈ names.map (fun name => (findLabel? labels name).map Label.location) := by
    rw [map_location_of_locations h]
    exact List.mem_map_of_mem hmem
  obtain ⟨name, _, hname⟩ := List.mem_map.mp hmap
  obtain ⟨l, hl, hloc⟩ := Option.map_eq_some_iff.mp hname
  exact ⟨l, (findLabel?_eq_some hl).1, hloc⟩

/-! ## operations -/

/-- `Encodes labels pool o args t`: the opcode `o` with the arguments `args`
is assembled to `t`, where `pool` is the index of the next constant. -/
inductive Encodes (labels : List Label) (pool : Nat) :
    Opcode → List String → Assembled → Prop where
  | plain {o : Opcode} (ho : o.shape = .none) :
      Encodes labels pool o [] { operation := plainOperation o }
  | closures {args : List String} {ls : List Nat} (hne : args ≠ [])
      (hls : locations labels args = .ok ls) :
      Encodes labels pool .closures args { operation := .closures ls }
  | const {a : String} {v : Value} (hv : readLiteral? a = some v) :
      Encodes labels pool .const [a] { operation := .const pool, constants := [v] }
  | access {a : String} {n : Nat} (hn : readPosition? a = some n) :
      Encodes labels pool .access [a] { operation := .access n }
  | focus {a : String} {n : Nat} (hn : Numeral.positive? a.toList = some n) :
      Encodes labels pool .focus [a] { operation := .focus n }
  | jump {o : Opcode} {a : String} {l : Label} (ho : o.shape = .label)
      (hl : findLabel? labels a = some l) :
      Encodes labels pool o [a] { operation := labelOperation l.location o }

variable {labels : List Label} {pool : Nat}

/-- Labels that are not found are reported. -/
theorem ne_nil_of_locations {names : List String} {fs : List Fault}
    (h : locations labels names = .error fs) : fs ≠ [] := by
  induction names generalizing fs with
  | nil => cases h
  | cons name names ih =>
      rw [locations] at h
      split at h
      · cases h
      · next hfs => cases h; exact ih hfs
      · cases h; exact List.cons_ne_nil _ _
      · cases h; exact List.cons_ne_nil _ _

/-- An opcode that is not assembled has a fault. -/
theorem ne_nil_of_assembleOpcode {o : Opcode} {args : List String} {fs : List Fault}
    (h : assembleOpcode labels pool o args = .error fs) : fs ≠ [] := by
  unfold assembleOpcode at h
  split at h
  · cases h
  · cases h; exact List.cons_ne_nil _ _
  · cases h; exact List.cons_ne_nil _ _
  · next args _ _ _ _ =>
      cases hls : locations labels args with
      | error gs => rw [hls] at h; cases h; exact ne_nil_of_locations hls
      | ok ls => rw [hls] at h; cases h
  -- The shapes of one argument have one fault each.
  iterate 4
    · split at h
      · cases h
      · cases h; exact List.cons_ne_nil _ _
  · cases h; exact List.cons_ne_nil _ _

/-- An opcode is assembled exactly as one of the rules says. -/
theorem assembleOpcode_eq_ok_iff {o : Opcode} {args : List String} {t : Assembled} :
    assembleOpcode labels pool o args = .ok t ↔ Encodes labels pool o args t := by
  constructor
  · intro h
    unfold assembleOpcode at h
    split at h
    · next ho => cases h; exact .plain ho
    · cases h
    · cases h
    · next args _ _ ho hne =>
        obtain rfl : o = .closures := by cases o <;> simp_all [Opcode.shape]
        cases hls : locations labels args with
        | error fs => rw [hls] at h; cases h
        | ok ls => rw [hls] at h; cases h; exact .closures hne hls
    · next a ho =>
        obtain rfl : o = .const := by cases o <;> simp_all [Opcode.shape]
        split at h
        · next v hv => cases h; exact .const hv
        · cases h
    · next a ho =>
        obtain rfl : o = .access := by cases o <;> simp_all [Opcode.shape]
        split at h
        · next n hn => cases h; exact .access hn
        · cases h
    · next a ho =>
        obtain rfl : o = .focus := by cases o <;> simp_all [Opcode.shape]
        split at h
        · next n hn => cases h; exact .focus hn
        · cases h
    · next a ho =>
        split at h
        · next l hl => cases h; exact .jump ho hl
        · cases h
    · cases h
  · intro h
    cases h with
    | plain ho => simp only [assembleOpcode, ho]
    | @closures args ls hne hls =>
        cases args with
        | nil => exact absurd rfl hne
        | cons a args => simp only [assembleOpcode, Opcode.shape, hls, Except.map]
    | const hv => simp only [assembleOpcode, Opcode.shape, hv]
    | access hn => simp only [assembleOpcode, Opcode.shape, hn]
    | focus hn => simp only [assembleOpcode, Opcode.shape, hn]
    | jump ho hl => simp only [assembleOpcode, ho, hl]

/-- What an opcode is assembled to has its arguments in order. -/
theorem Encodes.resolved {o : Opcode} {args : List String} {t : Assembled}
    (h : Encodes labels pool o args t) :
    t.operation.Resolved (fun location => ∃ l ∈ labels, l.location = location)
      (pool + t.constants.length) := by
  cases h with
  | plain ho => cases o <;> trivial
  | closures hne hls => exact fun l hl => exists_label_of_mem_locations hls hl
  | const hv => exact Nat.lt_succ_self pool
  | access hn => trivial
  | focus hn => exact pos_of_positive? hn
  | @jump _ a l ho hl =>
      have hlabel : ∃ l' ∈ labels, l'.location = l.location :=
        ⟨l, (findLabel?_eq_some hl).1, rfl⟩
      cases o <;> first | exact hlabel | cases ho

/-- The constant that an opcode brings is a literal. -/
theorem Encodes.isLiteral {o : Opcode} {args : List String} {t : Assembled}
    (h : Encodes labels pool o args t) : ∀ v ∈ t.constants, v.IsLiteral := by
  cases h with
  | const hv => simpa using isLiteral_of_readLiteral? hv
  | plain | closures | access | focus | jump => exact nofun

/-- A statement that is assembled is a label line, or an opcode with its
arguments. -/
theorem encodes_of_assembleStatement {s : Statement} {t : Assembled}
    (h : assembleStatement labels pool s = .ok t) :
    t = { operation := .label } ∨
      ∃ o, Opcode.ofMnemonic? s.mnemonic = some o ∧ Encodes labels pool o s.arguments t := by
  unfold assembleStatement at h
  split at h
  · cases h; exact .inl rfl
  · cases h; exact .inl rfl
  · split at h
    · next o ho => exact .inr ⟨o, ho, assembleOpcode_eq_ok_iff.mp h⟩
    · cases h

/-- A statement that is not assembled has a fault. -/
theorem ne_nil_of_assembleStatement {s : Statement} {fs : List Fault}
    (h : assembleStatement labels pool s = .error fs) : fs ≠ [] := by
  unfold assembleStatement at h
  split at h
  · cases h
  · cases h
  · split at h
    · exact ne_nil_of_assembleOpcode h
    · cases h; exact List.cons_ne_nil _ _

/-! ## programs -/

/-- `Yields labels pool ss code constants`: the statements `ss` are assembled,
one after the other, to the operations `code`; `constants` are the constants
that they bring, the first of which has the index `pool`. -/
inductive Yields (labels : List Label) :
    Nat → List Statement → List Operation → List Value → Prop where
  | nil (pool : Nat) : Yields labels pool [] [] []
  | cons {pool : Nat} {s : Statement} {ss : List Statement} {t : Assembled}
      {code : List Operation} {constants : List Value}
      (head : assembleStatement labels pool s = .ok t)
      (tail : Yields labels (pool + t.constants.length) ss code constants) :
      Yields labels pool (s :: ss) (t.operation :: code) (t.constants ++ constants)

/-- Without a report, every statement has been assembled. -/
theorem yields_of_reports_eq_nil {ss : List Statement} {limit found : Nat}
    (h : (assembleAll limit labels found pool ss).reports = []) :
    Yields labels pool ss (assembleAll limit labels found pool ss).code
      (assembleAll limit labels found pool ss).constants := by
  induction ss generalizing found pool with
  | nil => exact .nil pool
  | cons s ss ih =>
      rw [assembleAll] at h ⊢
      split at h
      · contradiction
      · next hfound =>
          rw [if_neg hfound]
          cases ha : assembleStatement labels pool s with
          | error fs =>
              simp only [ha] at h
              exact absurd (List.append_eq_nil_iff.mp h).1
                (mt List.map_eq_nil_iff.mp (ne_nil_of_assembleStatement ha))
          | ok t =>
              simp only [ha] at h
              exact .cons ha (ih h)

/-- One operation for each statement. -/
theorem Yields.length_code {ss : List Statement} {code : List Operation} {constants : List Value}
    (h : Yields labels pool ss code constants) : code.length = ss.length := by
  induction h with
  | nil pool => rfl
  | cons head tail ih => rw [List.length_cons, List.length_cons, ih]

/-- Operations refer to labels of the table and to constants that are there. -/
theorem Yields.resolved {ss : List Statement} {code : List Operation} {constants : List Value}
    (h : Yields labels pool ss code constants) :
    ∀ op ∈ code, op.Resolved (fun location => ∃ l ∈ labels, l.location = location)
      (pool + constants.length) := by
  induction h with
  | nil pool => exact nofun
  | @cons pool s ss t code constants head tail ih =>
      rw [List.length_append, ← Nat.add_assoc]
      refine List.forall_mem_cons.mpr ⟨?_, ih⟩
      obtain rfl | ⟨o, _, he⟩ := encodes_of_assembleStatement head
      · trivial
      · exact he.resolved.mono (fun _ hl => hl) (Nat.le_add_right _ _)

/-- Only literals are kept as constants. -/
theorem Yields.isLiteral {ss : List Statement} {code : List Operation} {constants : List Value}
    (h : Yields labels pool ss code constants) : ∀ v ∈ constants, v.IsLiteral := by
  induction h with
  | nil pool => exact nofun
  | @cons pool s ss t code constants head tail ih =>
      refine List.forall_mem_append.mpr ⟨?_, ih⟩
      obtain rfl | ⟨o, _, he⟩ := encodes_of_assembleStatement head
      · exact nofun
      · exact he.isLiteral

/-- `Assembles ss p`: the statements `ss` are without a fault, and `p` is what
they come to. -/
structure Assembles (ss : List Statement) (p : Program) : Prop where
  legal : illegalReports ss = []
  labelled : (labelsFrom 0 [] ss).reports = []
  yields : Yields (labelsFrom 0 [] ss).labels 0 ss p.code p.constants
  labels : p.labels = (labelsFrom 0 [] ss).labels.map fun l => (l.name, l.location)
  statements : p.statements = ss
  main : ∃ l, findLabel? (labelsFrom 0 [] ss).labels mainLabel = some l ∧ p.main = l.location

/-- A program is made only of statements without a fault. -/
theorem assembles_of_ofStatements {limit : Nat} {source : String} {ss : List Statement}
    {p : Program} (h : ofStatements limit source ss = .ok p) : Assembles ss p := by
  unfold ofStatements at h
  simp only at h
  split at h
  · cases h
  · next main hmain =>
      split at h
      · next hreports =>
          obtain ⟨hfound, hdraft⟩ := List.append_eq_nil_iff.mp (List.isEmpty_iff.mp hreports)
          obtain ⟨hlegal, hlabelled⟩ := List.append_eq_nil_iff.mp hfound
          cases h
          exact ⟨hlegal, hlabelled, yields_of_reports_eq_nil hdraft, rfl, rfl, main, hmain, rfl⟩
      · cases h

/-- A label of an assembled program is the place of a label line. -/
theorem Assembles.isLabel {ss : List Statement} {p : Program} (h : Assembles ss p) {l : Label}
    (hl : l ∈ (labelsFrom 0 [] ss).labels) : p.IsLabel l.location := by
  obtain hl | ⟨j, s, hs, hkind, _, hloc⟩ := mem_labelsFrom hl
  · exact absurd hl List.not_mem_nil
  · refine ⟨s, ?_, hkind⟩
    rw [h.statements, hloc, Nat.zero_add]
    exact hs

/-- Assembled programs are well-formed. -/
theorem Assembles.wellFormed {ss : List Statement} {p : Program} (h : Assembles ss p) :
    p.WellFormed where
  length_code := by rw [h.yields.length_code, h.statements]
  resolved := by
    intro op hop
    refine (h.yields.resolved op hop).mono ?_ (Nat.le_of_eq (Nat.zero_add _))
    rintro location ⟨l, hl, rfl⟩
    exact h.isLabel hl
  literal := h.yields.isLiteral
  main := by
    obtain ⟨l, hl, hmain⟩ := h.main
    rw [hmain]
    exact h.isLabel (findLabel?_eq_some hl).1

end Assembly

/-- **Layout**: what is assembled from a text is well formed. -/
theorem Program.wellFormed_of_assemble {source text : String} {p : Program}
    (h : Program.assemble source text = .ok p) : p.WellFormed :=
  (Assembly.assembles_of_ofStatements h).wellFormed

/-! ## a program with two calls -/

/-- A text in which a function of a frame is called twice with one argument,
the second time with more in the environment and less on the stack. -/
def Program.twoCallsText : String :=
  "main:; closures f; access $1; focus 1; access $1; focus 1; const 9
  applyn; closures f; applyn; halt
  f:; access $1; return"

/-- What `twoCallsText` is assembled to. -/
def Program.twoCalls : Program where
  code := [.label, .closures [11], .access 1, .focus 1, .access 1, .focus 1, .const 0,
    .applyn, .closures [11], .applyn, .halt, .label, .access 1, .ret]
  constants := [.int 9]
  labels := [("main", 0), ("f", 11)]
  statements := Statement.read "test" twoCallsText
  main := 0

/-- Whether a text is assembled to a program can be decided without its reports. -/
theorem Program.assemble_eq_ok_iff {source text : String} {p : Program} :
    Program.assemble source text = .ok p ↔ (Program.assemble source text).toOption = some p := by
  cases Program.assemble source text with
  | error reports => simp [Except.toOption]
  | ok p' => simp [Except.toOption]

theorem Program.assemble_twoCallsText : Program.assemble "test" twoCallsText = .ok twoCalls :=
  Program.assemble_eq_ok_iff.mpr (by decide +kernel)

end SecdMachine
