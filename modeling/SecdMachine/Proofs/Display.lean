import SecdMachine.Proofs.Monochrome

/-!
# SecdMachine.Proofs.Display

What stands on the screen, line by line.

The console puts its texts together from pieces, some of which end in line feeds and
some of which are painted.  Here the lines of each text are said as a list: those of a
state under its number (`Console.blockLines`), and those of the error that ended a run
(`Console.failureLines`).  Without colours, the text is these lines with a line feed
behind each (`stateBlock_plain`, `describeFailure_plain`); with colours, they are what
is left once the codes of colours are deleted (`erase_stateBlock`,
`erase_describeFailure`).

A block says what it is of: the number of the state, whether the machine has halted,
and if it has not, the location that is marked, the stack and the environment
(`eq_of_numbered`).
-/

namespace SecdMachine

open Text

/-! ## headings -/

/-- Values under a heading, one on each line, from the bottom of the stack or
environment up. -/
def Value.lines (heading : String) (vs : List Value) : List String :=
  heading :: vs.reverse.map describe

theorem Value.unlines_lines {heading text : String} (h : text = heading ++ "\n")
    (vs : List Value) : unlines (lines heading vs) = text ++ describeLines vs := by
  rw [lines, unlines_cons, h, describeLines]

theorem Report.stackHeading_eq : stackHeading = "--- stk (from bottom to top)" ++ "\n" := rfl

theorem Report.envHeading_eq : envHeading = "--- env (from bottom to top)" ++ "\n" := rfl

/-! ## states -/

/-- **Listings** have a line for each statement, in order.  It ends in the text of the
statement, and begins with the mark exactly if the statement is at the current
location. -/
theorem Program.getElem?_listing {p : Program} {i : Nat} {st : Statement}
    (h : p.statements[i]? = some st) (current : Nat) :
    ∃ front, (p.listing current)[i]? = some (front ++ st.text) ∧
      ((front ++ st.text).toList.head? = some '>' ↔ i = current) := by
  have hmark := head?_listingLine p.statements.length i st current
  have hline : (p.listing current)[i]? =
      some (listingLine p.statements.length current i st) := by
    rw [listing, List.getElem?_mapIdx, h, Option.map_some]
  rw [listingLine] at hmark hline
  refine ⟨_, hline, ?_⟩
  rw [hmark]
  split <;> simp_all

/-- The lines that show a state. -/
def State.lines (p : Program) (s : State) : List String :=
  if s.isHalted then ["HALTED!"]
  else
    "--- pc" :: p.listing s.pc ++ Value.lines "--- stk (from bottom to top)" s.stack ++
      Value.lines "--- env (from bottom to top)" s.env

/-- **States** are shown line by line. -/
theorem State.describe_plain (p : Program) (s : State) :
    s.describe .plain p = unlines (s.lines p) := by
  have hpc : "--- pc\n" = "--- pc" ++ "\n" := rfl
  rw [describe, lines]
  split
  · simp [unlines]
  · rw [unlines_append, unlines_append, unlines_cons, describeProgram_plain, hpc,
      Value.unlines_lines Report.stackHeading_eq, Value.unlines_lines Report.envHeading_eq]
    simp only [String.append_assoc]

theorem State.head?_describe (p : Program) (s : State) :
    (s.describe .plain p).toList.head? = some (if s.isHalted then 'H' else '-') := by
  unfold describe
  split <;> simp

/-! ## errors -/

/-- The lines of a report without its explanation: its text, then the instruction, the
stack and the environment, each if the report has it. -/
def Report.lines (r : Report) : List String :=
  ["Error: " ++ r.text ++ "."] ++
    (if r.instruction = "" then [] else ["", "--- instruction", r.instruction]) ++
    (r.stack.map (Value.lines "--- stk (from bottom to top)")).getD [] ++
    (r.env.map (Value.lines "--- env (from bottom to top)")).getD []

theorem Report.unlines_valuesUnder {heading text : String} (h : text = heading ++ "\n")
    (vs : Option (List Value)) :
    unlines ((vs.map (Value.lines heading)).getD []) = valuesUnder text vs := by
  cases vs with
  | none => rfl
  | some vs => exact Value.unlines_lines h vs

/-- The headline of a report is one line. -/
theorem Report.headline_plain (r : Report) :
    r.headline .plain = unlines ["Error: " ++ r.text ++ "."] := by
  have hheader : Palette.errorHeader .plain = "Error: " := rfl
  have hstop : ".\n" = "." ++ "\n" := rfl
  rw [headline, hheader, hstop, unlines_cons, unlines_nil]
  simp only [String.append_assoc, String.append_empty]

/-- **Reports** are described line by line. -/
theorem Report.describe_plain (r : Report) : r.describe .plain = unlines r.lines := by
  have hinstruction : (if r.instruction = "" then ""
        else "\n--- instruction\n" ++ Palette.plain.paint .cyan r.instruction ++ "\n") =
      unlines (if r.instruction = "" then [] else ["", "--- instruction", r.instruction]) := by
    have hheading : "\n--- instruction\n" = "" ++ "\n" ++ ("--- instruction" ++ "\n") := rfl
    split
    · rfl
    · rw [unlines_cons, unlines_cons, unlines_cons, unlines_nil, Palette.paint_plain, hheading]
      simp only [String.append_assoc, String.append_empty]
  rw [describe, lines, unlines_append, unlines_append, unlines_append, headline_plain,
    unlines_valuesUnder stackHeading_eq, unlines_valuesUnder envHeading_eq, hinstruction]

/-- A step that fails is reported by its message and its place, the statement of the
operation that failed, and the stack and the environment that it failed on. -/
theorem Program.lines_report {p : Program} {s : State} (f : Fault) {st : Statement}
    (h : p.statements[s.pc]? = some st) (hne : st.text ≠ "") :
    (p.report s f).lines =
      ["Error: " ++ (f.message ++ st.position) ++ ".", "", "--- instruction", st.text] ++
        Value.lines "--- stk (from bottom to top)" s.stack ++
        Value.lines "--- env (from bottom to top)" s.env := by
  have hstatement : (p.report s f).statement = some st := by
    rw [report, statementAt, h, Option.getD_some]
  have hinstruction : (p.report s f).instruction = st.text := by
    rw [Report.instruction, hstatement, Option.map_some, Option.getD_some]
  rw [Report.lines, Report.text, hinstruction, if_neg hne, hstatement]
  rfl

namespace Console

variable {t : Trace} {r : Report}

/-! ## blocks -/

/-- The lines of a block: a number under an empty line, an empty line, and the state. -/
def blockLines (p : Program) (i : Nat) (s : State) : List String :=
  ["", Numeral.natural i ++ Banner.rule, ""] ++ s.lines p

theorem numbered_plain (p : Program) (i : Nat) (s : State) :
    numbered .plain p i s = unlines (blockLines p i s) := by
  have hfeeds : "\n\n" = "\n" ++ ("" ++ "\n") := rfl
  rw [numbered, blockLines, unlines_append, unlines_cons, unlines_cons, unlines_cons,
    State.describe_plain, hfeeds]
  simp [unlines, String.append_assoc]

/-- **Blocks** are shown line by line. -/
theorem stateBlock_plain (t : Trace) :
    stateBlock .plain t = unlines (blockLines t.program t.cursor t.current) :=
  numbered_plain t.program t.cursor t.current

/-- Blocks with colours are the same lines, once the colours are deleted. -/
theorem erase_stateBlock (hp : t.program.Codeless) :
    Palette.erase (stateBlock .ansi t) = unlines (blockLines t.program t.cursor t.current) := by
  rw [(fades_stateBlock hp).erase, stateBlock_plain]

/-- The lines of an error that ended a run: its text alone if the budget ran out. -/
def failureLines (r : Report) : List String :=
  if Trace.isBudgetReport r then ["Error: " ++ r.text ++ "."] else r.lines

/-- **Errors** are shown line by line. -/
theorem describeFailure_plain (r : Report) :
    describeFailure .plain r = unlines (failureLines r) := by
  rw [describeFailure, failureLines]
  split
  · exact r.headline_plain
  · exact r.describe_plain

/-- Errors with colours are the same lines, once the colours are deleted. -/
theorem erase_describeFailure (h : r.Codeless) :
    Palette.erase (describeFailure .ansi r) = unlines (failureLines r) := by
  rw [(fades_describeFailure h).erase, describeFailure_plain]

/-! ## what a block is of -/

variable {p : Program} {i j : Nat} {s u : State}

/-- **Blocks are told apart**: two blocks of states of a program are the same, without
colours, only if they have the same number, either both states have halted or neither
has, and if they have not they are at the same location, with the same stack and
environment. -/
theorem eq_of_numbered (hp : p.WellFormed) (hs : p.Reachable s) (hu : p.Reachable u)
    (h : numbered .plain p i s = numbered .plain p j u) :
    i = j ∧ s.isHalted = u.isHalted ∧
      (s.isHalted = false → s.pc = u.pc ∧ s.stack = u.stack ∧ s.env = u.env) := by
  have hrule (rest : List Char) : Text.Ended (Banner.rule.toList ++ rest) := by
    have hfirst : Banner.rule.toList = '=' :: List.replicate 31 '=' := String.toList_ofList
    rw [hfirst]
    exact ended_cons (by decide)
  rw [numbered, numbered, ← String.toList_inj] at h
  simp only [String.toList_append, List.append_assoc, List.append_right_inj] at h
  obtain ⟨hnumber, hrest⟩ := Numeral.told_natural i j _ _ trivial (hrule _) (hrule _) h
  simp only [List.append_right_inj, String.toList_inj] at hrest
  have hhalted : s.isHalted = u.isHalted := by
    have hhead := congrArg (·.toList.head?) hrest
    simp only [State.head?_describe] at hhead
    cases hs' : s.isHalted <;> cases hu' : u.isHalted <;> simp_all
  exact ⟨hnumber, hhalted, fun hrunning =>
    Program.eq_of_describe hp hs hu hrunning (hhalted ▸ hrunning) hrest⟩

end Console

end SecdMachine
