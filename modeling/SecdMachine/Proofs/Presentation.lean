import SecdMachine.Fault.Arguments
import SecdMachine.Proofs.Navigation

/-!
# SecdMachine.Proofs.Presentation

Every report can be presented.

Named from outside, a fault is an identifier with arguments of any number and
kind, and its message and its explanation take what they need of them: an
argument is quoted whatever it is, or has to be a word, a number, a location or
a character.  The table `Fault.creators` says for each identifier what the two
texts take, and an identifier with arguments names a fault exactly if both can
be made of them (`isSome_ofArguments?`).  What they make of the arguments is said in
`SecdMachine.Proofs.Wording`.

Whatever is read, assembled and run, every report has a statement, a known
identifier and arguments that both of its texts take: reports of loading are of
one of the statements, or of the source (`isOf_or_eq_of_ofStatements`), and those
of a run of the statement at the program counter (`Program.statement_report`).
-/

namespace SecdMachine

namespace Fault

/-! ## what texts take -/

/-- How a text uses an argument. -/
inductive Use where
  /-- Quoted, whatever its kind. -/
  | quoted
  /-- Put as it is, which only a text can be. -/
  | word
  /-- Written as an integer. -/
  | number
  /-- Written as a location. -/
  | location
  /-- Written as a character, which any number may name. -/
  | character
deriving DecidableEq, Repr

/-- Whether an argument can be used in a way. -/
def Use.accepts : Use → Argument → Bool
  | .quoted, _ => true
  | .word, .text _ => true
  | .number, .integer _ => true
  | .location, .location _ => true
  | .character, .text _ => false
  | .character, _ => true
  | _, _ => false

/-- Whether there is an argument for each use in turn, of a kind that it
accepts. -/
def fits : List Use → List Argument → Bool
  | [], _ => true
  | u :: us, a :: args => u.accepts a && fits us args
  | _ :: _, [] => false

/-- What the message and the explanation of a fault take. -/
structure Creator where
  message : List Use := []
  explanation : List Use := []
deriving DecidableEq, Repr

/-- Whether both texts can be made of arguments. -/
def Creator.takes (c : Creator) (args : List Argument) : Bool :=
  fits c.message args && fits c.explanation args

/-- What the texts of each fault take, by its identifier. -/
def creators : List (String × Creator) :=
  [("label/dup", { message := [.quoted], explanation := [.quoted, .number] }),
    ("label/main", {}),
    ("label/name", { message := [.quoted] }),
    ("label/undef", { message := [.quoted], explanation := [.quoted] }),
    ("lex/char", { message := [.character] }),
    ("parse/access", { message := [.quoted] }),
    ("parse/args", { message := [.quoted, .word, .number] }),
    ("parse/const", { message := [.quoted] }),
    ("parse/focus", { message := [.quoted] }),
    ("parse/opcode", { message := [.quoted] }),
    ("parse/threshold", { message := [.number] }),
    ("trace/budget", { message := [.number] }),
    ("vm/access", { message := [.number, .number] }),
    ("vm/apply/type", { message := [.quoted] }),
    ("vm/applyn/type", { message := [.quoted] }),
    ("vm/arith/type", { message := [.quoted, .quoted, .quoted] }),
    ("vm/brfl/type", { message := [.quoted] }),
    ("vm/eq/type", { message := [.quoted, .quoted] }),
    ("vm/focus/range", { message := [.number, .number] }),
    ("vm/focus/type", { message := [.quoted] }),
    ("vm/halted", {}),
    ("vm/opcode", { message := [.quoted] }),
    ("vm/overflow", { message := [.quoted] }),
    ("vm/pc", { message := [.location] }),
    ("vm/return/type", { message := [.quoted, .quoted] }),
    ("vm/underflow", { message := [.quoted, .number, .number] })]

/-- Each identifier has one creator, and there are no others. -/
theorem map_fst_creators : creators.map Prod.fst = ids := rfl

/-! ## arguments that name a fault -/

section

variable (args : List Argument)

/-- A fault of one text takes the arguments that fit one quoted text. -/
theorem isSome_ofText (f : String → Fault) : (ofText f args).isSome = fits [.quoted] args := by
  cases args <;> rfl

/-- A fault of two texts takes the arguments that fit two quoted texts. -/
theorem isSome_ofTexts (f : String → String → Fault) :
    (ofTexts f args).isSome = fits [.quoted, .quoted] args := by
  rcases args with _ | ⟨_, _ | _⟩ <;> rfl

/-- A fault of one number takes the arguments that fit one number. -/
theorem isSome_ofInteger (f : Int → Fault) :
    (ofInteger f args).isSome = fits [.number] args := by
  rcases args with _ | ⟨_ | _ | _ | _, _⟩ <;> rfl

/-- A fault of two numbers takes the arguments that fit two numbers. -/
theorem isSome_ofIntegers (f : Int → Int → Fault) :
    (ofIntegers f args).isSome = fits [.number, .number] args := by
  rcases args with _ | ⟨_ | _ | _ | _, _ | ⟨_ | _ | _ | _, _⟩⟩ <;> rfl

theorem isSome_ofCharacter : (ofCharacter args).isSome = fits [.character] args := by
  rcases args with _ | ⟨_ | _ | _ | _, _⟩ <;> rfl

/-- The arguments of a redefinition have to fit its message and its explanation. -/
theorem isSome_ofRedefinition :
    (ofRedefinition args).isSome = (fits [.quoted] args && fits [.quoted, .number] args) := by
  rcases args with _ | ⟨_, _ | ⟨_ | _ | _ | _, _⟩⟩ <;> rfl

theorem isSome_ofArgumentCount :
    (ofArgumentCount args).isSome = fits [.quoted, .word, .number] args := by
  rcases args with _ | ⟨_, _ | ⟨_ | _ | _ | _, _ | ⟨_ | _ | _ | _, _⟩⟩⟩ <;> rfl

theorem isSome_ofArithmetic :
    (ofArithmetic args).isSome = fits [.quoted, .quoted, .quoted] args := by
  rcases args with _ | ⟨_, _ | ⟨_, _ | _⟩⟩ <;> rfl

theorem isSome_ofLocation : (ofLocation args).isSome = fits [.location] args := by
  rcases args with _ | ⟨_ | _ | _ | _, _⟩ <;> rfl

/-- An underflow takes a mnemonic and two numbers. -/
theorem isSome_ofUnderflow :
    (ofUnderflow args).isSome = fits [.quoted, .number, .number] args := by
  rcases args with _ | ⟨_, _ | ⟨_ | _ | _ | _, _ | ⟨_ | _ | _ | _, _⟩⟩⟩ <;> rfl

end

/-- **Naming a fault**: an identifier with arguments names a fault exactly if there
is a creator for it, and both of its texts can be made of the arguments. -/
theorem isSome_ofArguments? (id : String) (args : List Argument) :
    (ofArguments? id args).isSome = (creators.lookup id).any (·.takes args) := by
  unfold ofArguments?
  split
  case h_27 =>
      have hnone : creators.lookup id = none := by
        simp_all [List.lookup_eq_none_iff, creators]
      rw [hnone, Option.isSome_none, Option.any_none]
  all_goals
    simp [creators, List.lookup_cons, Creator.takes, fits, isSome_ofText, isSome_ofTexts,
      isSome_ofInteger, isSome_ofIntegers, isSome_ofCharacter, isSome_ofRedefinition,
      isSome_ofArgumentCount, isSome_ofArithmetic, isSome_ofLocation, isSome_ofUnderflow]

/-- The arguments of a fault are as many as its texts take, and of the kinds that
they take. -/
theorem exists_creator (f : Fault) :
    ∃ c, creators.lookup f.id = some c ∧ fits c.message f.arguments = true ∧
      fits c.explanation f.arguments = true ∧
      f.arguments.length = max c.message.length c.explanation.length := by
  have htakes : (creators.lookup f.id).any (·.takes f.arguments) = true := by
    rw [← isSome_ofArguments?, ofArguments?_arguments, Option.isSome_some]
  have hlength : ∀ c, creators.lookup f.id = some c →
      f.arguments.length = max c.message.length c.explanation.length := by
    cases f <;> simp [id, creators, List.lookup_cons, arguments]
  cases hc : creators.lookup f.id with
  | none =>
      rw [hc] at htakes
      cases htakes
  | some c =>
      rw [hc] at htakes
      obtain ⟨hmessage, hexplanation⟩ := Bool.and_eq_true_iff.mp htakes
      exact ⟨c, rfl, hmessage, hexplanation, hlength c hc⟩

end Fault

/-! ## reports that can be presented -/

/-- A report can be presented: it has a statement; there is a creator for its
identifier, which finds the arguments that its message and its explanation take,
and no more; and identifier and arguments name its fault. -/
structure Report.Presentable (r : Report) : Prop where
  placed : r.statement.isSome = true
  created : ∃ c, Fault.creators.lookup r.id = some c ∧
    Fault.fits c.message r.fault.arguments = true ∧
    Fault.fits c.explanation r.fault.arguments = true ∧
    r.fault.arguments.length = max c.message.length c.explanation.length
  named : Fault.ofArguments? r.id r.fault.arguments = some r.fault

/-- A report with a statement is presentable. -/
theorem Report.presentable_of_statement {r : Report} {s : Statement}
    (h : r.statement = some s) : r.Presentable where
  placed := by rw [h, Option.isSome_some]
  created := r.fault.exists_creator
  named := r.fault.ofArguments?_arguments

/-- Where a list has a report, it is explained as that report is. -/
theorem Report.explanationAt_of_getElem? {rs : List Report} {i : Nat} {r : Report}
    (h : rs[i]? = some r) : Report.explanationAt rs i = r.explanation := by
  have hpos : ¬ (i : Int) < 0 := by omega
  rw [explanationAt, if_neg hpos, Int.toNat_natCast, h, Option.map_some, Option.getD_some]

/-! ## what loading reports -/

namespace Assembly

/-- The report is of a fault at one of the statements. -/
def IsOf (ss : List Statement) (r : Report) : Prop :=
  ∃ s ∈ ss, ∃ f, r = reportAt s f

/-- A report of one of some statements is a report of one of more. -/
theorem IsOf.cons {s : Statement} {ss : List Statement} {r : Report} (h : IsOf ss r) :
    IsOf (s :: ss) r := by
  obtain ⟨s', hs', f, hr⟩ := h
  exact ⟨s', List.mem_cons_of_mem s hs', f, hr⟩

theorem isOf_head (s : Statement) (ss : List Statement) (f : Fault) :
    IsOf (s :: ss) (reportAt s f) :=
  ⟨s, List.mem_cons_self, f, rfl⟩

/-- A report of one of some statements is presentable. -/
theorem IsOf.presentable {ss : List Statement} {r : Report} (h : IsOf ss r) : r.Presentable := by
  obtain ⟨s, _, f, rfl⟩ := h
  exact Report.presentable_of_statement rfl

/-- Illegal characters are reported of the statements that hold them. -/
theorem isOf_illegalReports {ss : List Statement} {r : Report} (h : r ∈ illegalReports ss) :
    IsOf ss r := by
  obtain ⟨s, hs, hr⟩ := List.mem_filterMap.mp h
  obtain ⟨c, _, rfl⟩ := Option.map_eq_some_iff.mp hr
  exact ⟨s, hs, _, rfl⟩

/-- Faults of labels are reported of statements of the text. -/
theorem isOf_labelsFrom {i : Nat} {known : List Label} {ss : List Statement} {r : Report}
    (h : r ∈ (labelsFrom i known ss).reports) : IsOf ss r := by
  induction ss generalizing i known with
  | nil => cases h
  | cons s rest ih =>
      -- A label that is kept adds no report, one that is not adds its own.
      rw [labelsFrom] at h
      simp only at h
      split at h
      · split at h
        · split at h
          · obtain rfl | h := List.mem_cons.mp h
            · exact isOf_head s rest _
            · exact (ih h).cons
          · exact (ih h).cons
        · obtain rfl | h := List.mem_cons.mp h
          · exact isOf_head s rest _
          · exact (ih h).cons
      · exact (ih h).cons

/-- **Run case**: faults of operations are reported of statements of the text. -/
theorem isOf_assembleAll {limit : Nat} {labels : List Label} {found pool : Nat}
    {ss : List Statement} {r : Report}
    (h : r ∈ (assembleAll limit labels found pool ss).reports) : IsOf ss r := by
  induction ss generalizing found pool with
  | nil => cases h
  | cons s rest ih =>
      rw [assembleAll] at h
      split at h
      · obtain rfl := List.mem_singleton.mp h
        exact isOf_head s rest _
      · split at h
        · obtain h | h := List.mem_append.mp h
          · obtain ⟨f, _, rfl⟩ := List.mem_map.mp h
            exact isOf_head s rest f
          · exact (ih h).cons
        · exact (ih h).cons

/-- What is wrong with statements is wrong at one of them, unless it is that there
is no main label. -/
theorem isOf_or_eq_of_ofStatements {limit : Nat} {source : String} {ss : List Statement}
    {rs : List Report} (h : ofStatements limit source ss = .error rs) {r : Report}
    (hr : r ∈ rs) : IsOf ss r ∨ r = mainReport source := by
  have hreports : r ∈ illegalReports ss ++ (labelsFrom 0 [] ss).reports ++
      (assembleAll limit (labelsFrom 0 [] ss).labels
        (illegalReports ss ++ (labelsFrom 0 [] ss).reports).length 0 ss).reports → IsOf ss r := by
    intro hr
    obtain hr | hr := List.mem_append.mp hr
    · obtain hr | hr := List.mem_append.mp hr
      · exact isOf_illegalReports hr
      · exact isOf_labelsFrom hr
    · exact isOf_assembleAll hr
  unfold ofStatements at h
  simp only at h
  split at h
  · cases h
    obtain hr | hr := List.mem_append.mp hr
    · exact .inl (hreports hr)
    · exact .inr (List.mem_singleton.mp hr)
  · split at h
    · cases h
    · cases h
      exact .inl (hreports hr)

end Assembly

/-! ## what a run reports -/

/-- A step that fails is reported at the statement of the operation that failed.
Behind the last operation there is none, and there the fault is that the program was
left. -/
theorem Program.statement_report {p : Program} {s : State} {f : Fault} (hp : p.WellFormed)
    (hs : p.Reachable s) (hstep : p.step s = .error (.fault f)) :
    (∃ st, p.statements[s.pc]? = some st ∧ (p.report s f).statement = some st) ∨
      (s.pc = p.size ∧ f = .outsideProgram p.size) := by
  have hplaced (hlt : s.pc < p.size) :
      ∃ st, p.statements[s.pc]? = some st ∧ (p.report s f).statement = some st := by
    have hst := List.getElem?_eq_getElem (hp.length_code ▸ hlt : s.pc < p.statements.length)
    exact ⟨_, hst, by rw [report, statementAt, hst, Option.getD_some]⟩
  obtain ⟨hhalted, _⟩ | ⟨_, hpc, he⟩ | ⟨f', he, _, hinside, _⟩ :=
    stop_cases hp (wellFormed_of_reachable hp hs) hstep
  · exact .inl (hplaced (pc_lt_of_isHalted hs hhalted))
  · cases he
    exact .inr ⟨hpc, rfl⟩
  · cases he
    exact .inl (hplaced (pc_lt_of_fault hs hstep hinside))

namespace Trace

/-- What ends a run is a presentable report. -/
theorem Valid.presentable {t : Trace} (h : t.Valid) {r : Report} (hr : t.error = some r) :
    r.Presentable := by
  obtain ⟨_, ⟨rfl, _⟩ | ⟨_, f, _, rfl⟩⟩ := h.error r hr
  · exact Report.presentable_of_statement rfl
  · exact Report.presentable_of_statement rfl

/-- An error that a step gives is the one the trace ends with. -/
theorem error_of_nextError {t : Trace} {r : Report} (h : t.nextError = some r) :
    t.next.1.error = some r := by
  unfold nextError at h
  split at h
  · cases h
  · exact h

end Trace

/-- **Presentable reports**: whatever the text and its source, after however many
faults loading gives up, every report of an illegal character and every report of
loading can be presented, and the explanation at its place in the list is its own.
If a program comes out, so can every fault of a step be presented; from a state
that the program reaches there is no other way to fail.  So can, whatever the
budget and the moves, the error of a trace and the one that a move forward
meets. -/
theorem raised_reports_presentable (source text : String) (limit : Nat) :
    (∀ r ∈ Assembly.illegalReports (Statement.read source text), r.Presentable) ∧
    (∀ rs, Program.assembleWithin limit source text = .error rs →
      ∀ (i : Nat) (r : Report), rs[i]? = some r →
        r.Presentable ∧ Report.explanationAt rs i = r.explanation) ∧
    ∀ p, Program.assembleWithin limit source text = .ok p →
      (∀ s f, p.step s = .error (.fault f) → (p.report s f).Presentable) ∧
      (∀ s, p.Reachable s → p.step s ≠ .error .stuck) ∧
      ∀ (budget : Int) (ms : List Trace.Move) (t : Trace), (Trace.start p budget).moves ms = t →
        (∀ r, t.error = some r → r.Presentable) ∧
        ∀ r, t.nextError = some r → r.Presentable := by
  refine ⟨fun r hr => (Assembly.isOf_illegalReports hr).presentable, fun rs hrs i r hr => ?_,
    fun p hp => ⟨fun s f _ => Report.presentable_of_statement rfl, fun s hs => ?_,
      fun budget ms t ht => ⟨fun r hr => ?_, fun r hr => ?_⟩⟩⟩
  · refine ⟨?_, Report.explanationAt_of_getElem? hr⟩
    obtain h | rfl := Assembly.isOf_or_eq_of_ofStatements hrs (List.mem_of_getElem? hr)
    · exact h.presentable
    · exact Report.presentable_of_statement rfl
  · exact Program.step_ne_stuck (Assembly.assembles_of_ofStatements hp).wellFormed hs
  · have hvalid := Trace.valid_moves p budget ms
    rw [ht] at hvalid
    exact hvalid.presentable hr
  · have hvalid := (Trace.forward_next t).valid (ht ▸ Trace.valid_moves p budget ms)
    exact hvalid.presentable (Trace.error_of_nextError hr)

/-- A text with a label that is defined twice and a literal that is none, and the
end of a run of `twoCalls` with a budget of two steps. -/
theorem raised_reports_presentable_twoCalls :
    (∃ rs, Program.assembleWithin 8 "test" "f:; const x; f:" = .error rs ∧
      rs.map Report.id = ["label/dup", "parse/const", "label/main"] ∧
      ∀ (i : Nat) (r : Report), rs[i]? = some r →
        r.Presentable ∧ Report.explanationAt rs i = r.explanation) ∧
    ∃ r, ((Trace.start .twoCalls 2).moves [.run, .prev, .next]).nextError = some r ∧
      r.id = "trace/budget" ∧ r.Presentable := by
  constructor
  · have hids : (match Program.assembleWithin 8 "test" "f:; const x; f:" with
        | .ok _ => []
        | .error rs => rs.map Report.id) = ["label/dup", "parse/const", "label/main"] := by
      decide +kernel
    cases hrs : Program.assembleWithin 8 "test" "f:; const x; f:" with
    | ok p =>
        rw [hrs] at hids
        cases hids
    | error rs =>
        rw [hrs] at hids
        exact ⟨rs, rfl, hids, (raised_reports_presentable "test" "f:; const x; f:" 8).2.1 rs hrs⟩
  · have hr : ((Trace.start .twoCalls 2).moves [.run, .prev, .next]).nextError =
        some (Trace.start .twoCalls 2).budgetReport := by decide +kernel
    obtain ⟨_, _, hrun⟩ := raised_reports_presentable "test" Program.twoCallsText Assembly.threshold
    obtain ⟨_, _, hmoves⟩ := hrun .twoCalls Program.assemble_twoCallsText
    exact ⟨_, hr, rfl, (hmoves 2 [.run, .prev, .next] _ rfl).2 _ hr⟩

end SecdMachine
