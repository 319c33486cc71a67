import SecdMachine.Proofs.Arithmetic
import SecdMachine.Proofs.Literals
import SecdMachine.Proofs.Rejoining

/-!
# SecdMachine.Proofs.Constants

Constants in a text.

A constant fits in anywhere: its line is one statement (`read_const`), which follows
the grammar whatever labels there are, and statements that follow the grammar still
do with it among them (`Grammatical.insert`).  The operation of a statement that
brings a value pushes it (`Assembles.step_const`).

The printed form of an integer or a boolean is a literal of it
(`readLiteral?_describe`), so what the machine shows of such a value can be put into
a program again.  With the texts that are literals, this is `literals_denote`.
-/

namespace SecdMachine

/-! ## one operation more -/

namespace Statement

variable {before after : List Statement}

theorem definedNames_append (ss ss' : List Statement) :
    definedNames (ss ++ ss') = definedNames ss ++ definedNames ss' := by
  rw [definedNames, List.filter_append, List.map_append]
  rfl

theorem definedNames_map_moveDown (k : Nat) (ss : List Statement) :
    definedNames (ss.map (moveDown k)) = definedNames ss := by
  rw [definedNames, List.filter_map, List.map_map]
  rfl

/-- The grammar has nothing to do with lines. -/
theorem grammatical_moveDown {k : Nat} :
    Grammatical (before ++ after.map (moveDown k)) ↔ Grammatical (before ++ after) := by
  have hnames :
      definedNames (before ++ after.map (moveDown k)) = definedNames (before ++ after) := by
    rw [definedNames_append, definedNames_append, definedNames_map_moveDown]
  have hall {P : Statement → Prop} (hP : ∀ s, P (s.moveDown k) ↔ P s) :
      (∀ s ∈ before ++ after.map (moveDown k), P s) ↔ ∀ s ∈ before ++ after, P s := by
    simp only [List.forall_mem_append, List.forall_mem_map, hP]
  have hlegal := hall (P := fun s => ∀ c ∈ s.text.toList, c = '\t' ∨ Text.isGraphic c = true)
    fun _ => Iff.rfl
  have hoperations := hall (P := fun s => s.endsInColon = false →
    s.IsOperation (definedNames (before ++ after))) fun _ => Iff.rfl
  constructor
  · rintro ⟨h, hidentifiers, hdistinct, hmain, hoperation⟩
    rw [hnames] at hidentifiers hdistinct hmain hoperation
    exact ⟨hlegal.mp h, hidentifiers, hdistinct, hmain, hoperations.mp hoperation⟩
  · rintro ⟨h, hidentifiers, hdistinct, hmain, hoperation⟩
    rw [← hnames] at hidentifiers hdistinct hmain
    exact ⟨hlegal.mpr h, hidentifiers, hdistinct, hmain,
      hnames ▸ hoperations.mpr hoperation⟩

end Statement

/-- An operation fits in anywhere. -/
theorem Grammatical.insert {s : Statement} {before after : List Statement}
    (h : Grammatical (before ++ after))
    (hlegal : ∀ c ∈ s.text.toList, c = '\t' ∨ Text.isGraphic c = true)
    (hcolon : s.endsInColon = false) (hs : s.IsOperation (definedNames (before ++ after))) :
    Grammatical (before ++ s :: after) := by
  have hnames : definedNames (before ++ s :: after) = definedNames (before ++ after) := by
    simp [definedNames, hcolon]
  have hmem {P : Statement → Prop} (hP : ∀ r ∈ before ++ after, P r) (hsP : P s) :
      ∀ r ∈ before ++ s :: after, P r := by
    grind
  exact ⟨hmem h.legal hlegal, hnames ▸ h.identifiers, hnames ▸ h.distinct, hnames ▸ h.main,
    hnames ▸ hmem h.operations fun _ => hs⟩

/-! ## the line of a constant -/

namespace Statement

variable {lit : String} {v : Value}

/-- A line with a constant alone is its statement. -/
theorem read_const (h : Assembly.readLiteral? lit = some v) (source : String) :
    read source ("const " ++ lit) = [ofChars source 1 ("const " ++ lit).toList] := by
  have hline : '\n' ∉ ("    const " ++ lit).toList := fun hc =>
    (of_mem_const h (.inl rfl) hc).2.2.2.1 rfl
  have hpiece : IsPiece ("const " ++ lit).toList :=
    isPiece_of_mem_pieces hline (by rw [pieces_const h]; exact List.mem_cons_self)
  have hlines : Text.lines ("const " ++ lit).toList = [("const " ++ lit).toList] :=
    Text.splitWhere_eq_singleton fun c hc => by
      simpa using (of_mem_const h (.inr rfl) hc).2.2.2.1
  rw [read, hlines, ofLines, pieces_eq_singleton hpiece]
  rfl

/-- Between two lines, the line of a constant is one statement more. -/
theorem read_insert_const (h : Assembly.readLiteral? lit = some v) (source a b : String) :
    ∃ line k, read source (a ++ "\n" ++ ("const " ++ lit) ++ "\n" ++ b) =
      read source a ++ ofChars source line ("const " ++ lit).toList ::
        (read source b).map (moveDown k) := by
  have hfront : read source (a ++ "\n" ++ ("const " ++ lit)) = read source a ++
      [ofChars source (1 + (a.toList.count '\n' + 1)) ("const " ++ lit).toList] := by
    rw [read_append_newline, read_const h]
    rfl
  exact ⟨_, _, by rw [read_append_newline, hfront, List.append_assoc, List.singleton_append]⟩

/-- The statement of a constant is an operation, whatever labels there are. -/
theorem isOperation_const (h : Assembly.readLiteral? lit = some v) (source : String)
    (line : Nat) (names : List String) :
    (ofChars source line ("const " ++ lit).toList).IsOperation names :=
  ⟨.const, [lit], fields_const h source line, Option.isSome_iff_exists.mpr ⟨v, h⟩⟩

theorem legal_const (h : Assembly.readLiteral? lit = some v) (source : String) (line : Nat) :
    ∀ c ∈ (ofChars source line ("const " ++ lit).toList).text.toList,
      c = '\t' ∨ Text.isGraphic c = true := by
  intro c hc
  rw [ofChars, String.toList_ofList] at hc
  exact .inr (of_mem_const h (.inr rfl) hc).1

theorem endsInColon_const (h : Assembly.readLiteral? lit = some v) (source : String)
    (line : Nat) : (ofChars source line ("const " ++ lit).toList).endsInColon = false := by
  rw [endsInColon, decide_eq_false_iff_not]
  intro hlast
  rw [ofChars, String.toList_ofList] at hlast
  exact (of_mem_const h (.inr rfl) (List.mem_of_getLast? hlast)).2.2.2.2 rfl

end Statement

namespace Assembly

/-- The operation of a statement that brings a value pushes it. -/
theorem Assembles.step_const {ss : List Statement} {p : Program} {t : Statement} {v : Value}
    (h : Assembles ss p) {s : State} (ht : ss[s.pc]? = some t) (hv : t.literal? = some v)
    (hrunning : s.isHalted = false) : p.step s = .ok (s.advance (v :: s.stack) s.env) := by
  obtain ⟨hconst, a, hargs, hread⟩ := Statement.literal?_eq_some_iff.mp hv
  obtain ⟨t', hassemble, hcode, hconstants⟩ := h.yields.at ht
  rw [Statement.isConst, Bool.and_eq_true, decide_eq_true_eq, decide_eq_true_eq] at hconst
  obtain ⟨hkind, hmnemonic⟩ := hconst
  unfold assembleStatement at hassemble
  rw [hkind, hmnemonic, hargs, Opcode.ofMnemonic?_mnemonic] at hassemble
  simp only [assembleOpcode, Opcode.shape, hread] at hassemble
  cases hassemble
  rw [Program.step_eq_execute hrunning hcode, Operation.execute, Nat.zero_add,
    hconstants v List.mem_cons_self]

end Assembly

namespace Program

variable {source a b lit : String} {p : Program} {v : Value}

/-- **Constants fit in**: a text that is accepted is accepted with the line of a
constant between any two of its lines, and the operation of that line pushes the
value that its literal denotes. -/
theorem assemble_insert_const (h : Assembly.readLiteral? lit = some v)
    (hp : assemble source (a ++ "\n" ++ b) = .ok p) :
    ∃ p', assemble source (a ++ "\n" ++ ("const " ++ lit) ++ "\n" ++ b) = .ok p' ∧
      ∀ s : State, s.isHalted = false → s.pc = (Statement.read source a).length →
        p'.step s = .ok (s.advance (v :: s.stack) s.env) := by
  obtain ⟨line, k, hread⟩ := Statement.read_insert_const h source a b
  have hold : Grammatical (Statement.read source (a ++ "\n" ++ b)) :=
    Assembly.exists_assembles_iff_grammatical.mp ⟨p, Assembly.assembles_of_ofStatements hp⟩
  rw [Statement.read_append_newline, Statement.grammatical_moveDown] at hold
  have hnew : Grammatical (Statement.read source
      (a ++ "\n" ++ ("const " ++ lit) ++ "\n" ++ b)) := by
    rw [hread]
    exact (Statement.grammatical_moveDown.mpr hold).insert (Statement.legal_const h source line)
      (Statement.endsInColon_const h source line) (Statement.isOperation_const h source line _)
  obtain ⟨p', hp'⟩ := Assembly.exists_assembles_iff_grammatical.mpr hnew
  refine ⟨p', (Assembly.ofStatements_eq_ok_iff (by decide)).mpr hp', fun s hrunning hpc => ?_⟩
  rw [hread] at hp'
  refine hp'.step_const ?_ (Statement.literal?_const h source line) hrunning
  rw [hpc, List.getElem?_append_right (Nat.le_refl _), Nat.sub_self, List.getElem?_cons_zero]

end Program

/-! ## printed values -/

namespace Assembly

/-- The printed form of an integer or a boolean is a literal of it. -/
theorem readLiteral?_describe {v : Value} (h : v.IsLiteral) : readLiteral? v.describe = some v := by
  cases v with
  | int n =>
      rw [Value.describe]
      exact readLiteral?_decimal h
  | bool b => cases b <;> rfl
  | closure | frame | focused | returnAddress | savedEnv | undefined | unknown => exact h.elim

/-- **Literals denote what they spell**.  A spelling of an integer, with or without a
sign, in any of the four radices and with or without underscores, is read as this
integer if it is in the signed 64-bit range, and refused if it is not; but for the
spellings of integers in that range, four words are read as the booleans, and no
other text is a literal.  Printing is undone by reading: the printed form of an
integer or a boolean is a literal of it, and in a text that is accepted, a line with
the constant of this literal may be put anywhere, and pushes the value. -/
theorem literals_denote :
    (∀ (text : String) (n : Int), Numeral.Spells text.toList n →
      readLiteral? text = if -2 ^ 63 ≤ n ∧ n < 2 ^ 63 then some (.int n) else none) ∧
    (∀ (text : String) (v : Value), readLiteral? text = some v ↔
      (∃ n, v = .int n ∧ Numeral.Spells text.toList n ∧ -2 ^ 63 ≤ n ∧ n < 2 ^ 63) ∨
      (v = .bool true ∧ (text = "True" ∨ text = "true")) ∨
      (v = .bool false ∧ (text = "False" ∨ text = "false"))) ∧
    (∀ v : Value, v.IsLiteral →
      readLiteral? v.describe = some v ∧
      ∀ (source a b : String) (p : Program), Program.assemble source (a ++ "\n" ++ b) = .ok p →
        ∃ p', Program.assemble source (a ++ "\n" ++ ("const " ++ v.describe) ++ "\n" ++ b) =
            .ok p' ∧
          ∀ s : State, s.isHalted = false → s.pc = (Statement.read source a).length →
            p'.step s = .ok (s.advance (v :: s.stack) s.env)) := by
  refine ⟨fun text n hspells => ?_, fun text v => ?_, fun v hv => ?_⟩
  · simp only [readLiteral?_of_spells hspells, Numeral.fits_iff_pow]
  · simp only [readLiteral?_eq_some_iff, Numeral.fits_iff_pow]
  · have hread := readLiteral?_describe hv
    exact ⟨hread, fun source a b p => Program.assemble_insert_const hread⟩

/-- The least machine integer in hexadecimal is a literal, and the number above the
greatest one, in decimal, is not.  Its printed form can be put between two lines. -/
theorem literals_denote_limits :
    Numeral.Spells "-0x8000_0000_0000_0000".toList (-2 ^ 63) ∧
    readLiteral? "-0x8000_0000_0000_0000" = some (.int (-2 ^ 63)) ∧
    Numeral.Spells "9223372036854775808".toList (2 ^ 63) ∧
    readLiteral? "9223372036854775808" = none ∧
    (Value.int (-2 ^ 63)).IsLiteral ∧
    readLiteral? (Value.int (-2 ^ 63)).describe = some (.int (-2 ^ 63)) ∧
    ∃ p p', Program.assemble "test" ("main:" ++ "\n" ++ "halt") = .ok p ∧
      Program.assemble "test"
        ("main:" ++ "\n" ++ ("const " ++ (Value.int (-2 ^ 63)).describe) ++ "\n" ++ "halt") =
          .ok p' ∧
      p'.step { pc := 1 } = .ok { pc := 2, stack := [.int (-2 ^ 63)] } := by
  obtain ⟨hspelled, _, hprinted⟩ := literals_denote
  have hleast : Numeral.Spells "-0x8000_0000_0000_0000".toList (-2 ^ 63) :=
    Numeral.spells_of_readInteger (by decide +kernel)
  have hdecimal : Numeral.decimal (2 ^ 63) = "9223372036854775808" := by decide +kernel
  have habove : Numeral.Spells "9223372036854775808".toList (2 ^ 63) :=
    hdecimal ▸ Numeral.spells_decimal (2 ^ 63)
  have hread := hspelled _ _ hleast
  have hrefused := hspelled _ _ habove
  rw [if_pos (by decide)] at hread
  rw [if_neg (by decide)] at hrefused
  have hsome : (Program.assemble "test" ("main:" ++ "\n" ++ "halt")).toOption.isSome = true := by
    decide +kernel
  obtain ⟨p, hp⟩ := Option.isSome_iff_exists.mp hsome
  rw [← Program.assemble_eq_ok_iff] at hp
  have hliteral : (Value.int (-2 ^ 63)).IsLiteral := Numeral.fits_iff_pow.mpr (by decide)
  obtain ⟨hdescribe, hinsert⟩ := hprinted _ hliteral
  obtain ⟨p', hp', hstep⟩ := hinsert "test" "main:" "halt" p hp
  exact ⟨hleast, hread, habove, hrefused, hliteral, hdescribe, p, p', hp, hp',
    hstep { pc := 1 } rfl (by decide +kernel)⟩

end Assembly

end SecdMachine
