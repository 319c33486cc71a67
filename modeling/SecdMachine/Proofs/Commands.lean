import SecdMachine.Console
import SecdMachine.Proofs.Outcome

/-!
# SecdMachine.Proofs.Commands

What a console does over a session.

A session is any sequence of lines entered and displays asked for
(`Console.Action`).  Of a line only two things matter: how it moves the trace
(`Console.move?`), and what it has to say of the trace as it is then
(`Console.remarks`), which depends neither on what was said before nor on
whether the screen is cleared.  Both are said once for all commands
(`perform_eq`), and carried through a session by induction on its actions.  Over a
session, each thing that a line has to say is shown once (`shownNotes_append_notes`).

Running to the end is the command to step forward, repeated until the cursor
stays (`Console.StepsOn`); all of its rounds but the last have nothing to say
(`stepsOn_run`).
-/

namespace SecdMachine

namespace Console

variable {c : Console}

/-! ## sessions -/

/-- What can be done with a console: a line is entered, or a display is asked
for. -/
inductive Action where
  | enter (line : String)
  | display
deriving DecidableEq, Repr

/-- The console after an action. -/
def act (c : Console) : Action → Console
  | .enter line => (c.enter line).1
  | .display => c.shown

/-- What an action writes.  Entering a line gives a console and a flag, and no
output. -/
def output (c : Console) : Action → String
  | .enter _ => ""
  | .display => c.display

/-- The console after a session. -/
def session (c : Console) (as : List Action) : Console :=
  as.foldl act c

theorem session_append (c : Console) (as bs : List Action) :
    c.session (as ++ bs) = (c.session as).session bs :=
  List.foldl_append

/-! ## commands and moves -/

/-- How a line moves a trace, if it does. -/
def move? (line : String) : Option Trace.Move :=
  match Text.trimString line with
  | "" | "n" => some .next
  | "p" => some .prev
  | "r" => some .run
  | _ => none

/-- How an action moves a trace, if it does. -/
def Action.move? : Action → Option Trace.Move
  | .enter line => Console.move? line
  | .display => none

/-- How a command moves a trace, if it does. -/
def commandMove? : Command → Option Trace.Move
  | .next => some .next
  | .previous => some .prev
  | .run => some .run
  | .changes | .explain | .help | .quit | .unknown _ => none

theorem commandMove?_ofLine (line : String) : commandMove? (.ofLine line) = move? line := by
  unfold Command.ofLine move?
  generalize Text.trimString line = word
  split <;> try rfl
  split <;> first | contradiction | rfl

theorem ofLine_eq_quit_iff (line : String) :
    Command.ofLine line = .quit ↔ Text.trimString line = "q" := by
  unfold Command.ofLine
  split <;> simp_all

/-! ## what commands have to say -/

/-- What a command has to say of a trace. -/
def remarks (p : Palette) (t : Trace) (cmd : Command) : List String :=
  (perform { palette := p, clearScreen := false, trace := t } cmd).notes

/-- What lines have to say of a trace, each of it as the lines before have left
it. -/
def remarksOn (p : Palette) (t : Trace) : List String → List String
  | [] => []
  | line :: lines =>
    remarks p t (.ofLine line) ++ remarksOn p (t.moves (move? line).toList) lines

/-- **What a command does**: it moves the trace, or leaves it alone, and adds what
it has to say to the notes. -/
theorem perform_eq (c : Console) (cmd : Command) :
    c.perform cmd =
      { c with
        trace := c.trace.moves (commandMove? cmd).toList
        notes := c.notes ++ remarks c.palette c.trace cmd } := by
  unfold remarks
  cases cmd with
  | next =>
      cases hnext : c.trace.next with
      | mk t moved =>
          cases moved <;> simp [perform, note, commandMove?, Trace.moves, Trace.move, hnext]
  | previous =>
      cases hprev : c.trace.prev with
      | mk t moved =>
          cases moved with
          | true => simp [perform, commandMove?, Trace.moves, Trace.move, hprev]
          | false =>
              have hstay := Trace.prev_of_stay (congrArg Prod.snd hprev)
              rw [hprev] at hstay
              simp [perform, noteError, note, commandMove?, Trace.moves, Trace.move, hprev, hstay]
  | changes =>
      simp only [perform]
      split
      · rfl
      · cases c.trace.changes? c.trace.cursor <;> rfl
  | explain =>
      simp only [perform]
      cases c.trace.error <;> rfl
  | run | help | unknown => rfl
  | quit => simp [perform, commandMove?, Trace.moves]

theorem enter_eq (c : Console) (line : String) :
    (c.enter line).1 =
      { c with
        trace := c.trace.moves (move? line).toList
        notes := c.notes ++ remarks c.palette c.trace (.ofLine line) } := by
  rw [enter, perform_eq, commandMove?_ofLine]

/-- The flag of a line tells whether it asks to quit. -/
theorem enter_quit_iff (c : Console) (line : String) :
    (c.enter line).2 = true ↔ Text.trimString line = "q" := by
  rw [← ofLine_eq_quit_iff, enter, decide_eq_true_iff]

/-! ## running on -/

/-- `StepsOn c d`: the command to step forward, performed on `c` until the cursor
stays, ends in `d`. -/
inductive StepsOn : Console → Console → Prop where
  | stay {c : Console} (h : c.trace.next.2 = false) : StepsOn c (c.perform .next)
  | move {c d : Console} (h : c.trace.next.2 = true) (rest : StepsOn (c.perform .next) d) :
      StepsOn c d

/-- Stepping forward has nothing to say while the cursor moves, and one thing
when it stays. -/
theorem stepsOn_of_completes {t u : Trace} (h : Trace.Completes t u) (ht : c.trace = t) :
    StepsOn c ({ c with trace := u }.note (stopNote c.palette u)) := by
  induction h generalizing c with
  | @stay t u h =>
      rw [← ht] at h
      have hlast : c.perform .next = { c with trace := u }.note (stopNote c.palette u) := by
        rw [perform, h]
      rw [← hlast]
      exact .stay (congrArg Prod.snd h)
  | @move t u v h rest ih =>
      rw [← ht] at h
      have hnext : c.perform .next = { c with trace := u } := by
        rw [perform, h]
      refine .move (congrArg Prod.snd h) ?_
      rw [hnext]
      exact ih rfl

/-- **Running** to the end is stepping forward until the cursor stays. -/
theorem stepsOn_run (c : Console) : StepsOn c (c.perform .run) :=
  stepsOn_of_completes (Trace.completes_run c.trace) rfl

/-! ## what a session leaves -/

/-- **Step case**: an action moves the trace as it says, and changes no setting. -/
theorem act_eq (c : Console) (a : Action) :
    c.act a = { c with trace := c.trace.moves a.move?.toList, notes := (c.act a).notes } := by
  cases a with
  | enter line => rw [act, enter_eq, Action.move?]
  | display => rfl

/-- **Run case**: so does a session. -/
theorem session_eq (c : Console) (as : List Action) :
    c.session as =
      { c with
        trace := c.trace.moves (as.filterMap Action.move?)
        notes := (c.session as).notes } := by
  induction as generalizing c with
  | nil => rfl
  | cons a as ih =>
      have hmoves : c.trace.moves ((a :: as).filterMap Action.move?) =
          (c.trace.moves a.move?.toList).moves (as.filterMap Action.move?) := by
        rw [Trace.moves, Trace.moves, Trace.moves, ← List.foldl_append]
        cases hmove : a.move? <;> simp [hmove]
      have hsession : c.session (a :: as) = (c.act a).session as := rfl
      rw [hmoves, hsession]
      have h := ih (c.act a)
      generalize (c.act a).session as = d at h ⊢
      rw [h, act_eq]

/-- Lines add what they have to say to the notes, one after the other. -/
theorem session_enter_notes (c : Console) (lines : List String) :
    (c.session (lines.map .enter)).notes = c.notes ++ remarksOn c.palette c.trace lines := by
  induction lines generalizing c with
  | nil => exact (List.append_nil _).symm
  | cons line lines ih =>
      have hsession : c.session ((line :: lines).map .enter) =
          (c.enter line).1.session (lines.map .enter) := rfl
      rw [hsession, ih, enter_eq, remarksOn, List.append_assoc]

/-- The line that an action enters, if it does. -/
def Action.line? : Action → Option String
  | .enter line => some line
  | .display => none

/-- The notes that the displays of a session show, in order. -/
def shownNotes (c : Console) : List Action → List String
  | [] => []
  | .enter line :: as => shownNotes (c.enter line).1 as
  | .display :: as => c.notes ++ shownNotes c.shown as

/-- **Nothing is lost**: what the lines of a session have to say is shown by its
displays, each of it once and in order, but for what is pending at its end. -/
theorem shownNotes_append_notes (c : Console) (as : List Action) :
    shownNotes c as ++ (c.session as).notes =
      c.notes ++ remarksOn c.palette c.trace (as.filterMap Action.line?) := by
  induction as generalizing c with
  | nil => exact (List.append_nil _).symm
  | cons a as ih =>
      have hsession : c.session (a :: as) = (c.act a).session as := rfl
      rw [hsession]
      cases a with
      | enter line =>
          have hline : Action.line? (.enter line) = some line := rfl
          rw [shownNotes, List.filterMap_cons_some hline, remarksOn, act, ih, enter_eq,
            List.append_assoc]
      | display =>
          have hline : Action.line? .display = none := rfl
          rw [shownNotes, List.filterMap_cons_none hline, act, List.append_assoc, ih]
          rfl

/-- All notes of a session have been shown: it has not begun, or ends with a
display. -/
def Fresh (as : List Action) : Prop :=
  as = [] ∨ ∃ before, as = before ++ [.display]

theorem Fresh.notes {as : List Action} (h : Fresh as) (hc : c.notes = []) :
    (c.session as).notes = [] := by
  obtain rfl | ⟨before, rfl⟩ := h
  · exact hc
  · rw [session_append]
    rfl

/-- A session is one whose notes have all been shown, and lines after it. -/
theorem exists_fresh (as : List Action) :
    ∃ (before : List Action) (lines : List String),
      as = before ++ lines.map .enter ∧ Fresh before := by
  induction as with
  | nil => exact ⟨[], [], rfl, .inl rfl⟩
  | cons a as ih =>
      obtain ⟨before, lines, rfl, rfl | ⟨earlier, rfl⟩⟩ := ih
      · cases a with
        | enter line => exact ⟨[], line :: lines, rfl, .inl rfl⟩
        | display => exact ⟨[.display], lines, rfl, .inr ⟨[], rfl⟩⟩
      · exact ⟨a :: (earlier ++ [.display]), lines, rfl, .inr ⟨a :: earlier, rfl⟩⟩

/-- A run has one thing to say: the error that it ended with, if the machine has
not halted, and otherwise that it has. -/
theorem remarks_run (p : Palette) {t : Trace} (h : t.run.Finished) :
    (∃ r, t.run.error = some r ∧ t.run.last.isHalted = false ∧
      remarks p t .run = [describeFailure p r]) ∨
    (t.run.error = none ∧ t.run.last.isHalted = true ∧
      remarks p t .run = [p.paint .yellow "The machine has halted." ++ "\n"]) := by
  have hremarks : remarks p t .run = [stopNote p t.run] := rfl
  rw [hremarks, stopNote]
  cases herror : t.run.error with
  | none => exact .inr ⟨rfl, h.ended herror, rfl⟩
  | some r => exact .inl ⟨r, rfl, (h.valid.error r herror).1, rfl⟩

/-- **Sessions**: whatever is done with the console of an assembled program, its
trace is the one from the start after the moves of the lines entered.  Entering a
line writes nothing, and asks to quit exactly if the line says `q`.  A display
writes the code that clears the screen, if it is to; the state under the cursor;
the result, if that state is halted; and what the lines since the last display
had to say, in order.  To run is to step forward until the cursor stays, and has
one thing to say: the error that ended the run, or that the machine has halted. -/
theorem session_faithful {source text : String} {p : Program}
    (hp : Program.assemble source text = .ok p) (palette : Palette) (clearScreen : Bool)
    (budget : Int) (as : List Action)
    (hc : (start palette clearScreen p budget).session as = c) :
    c.trace = (Trace.start p budget).moves (as.filterMap Action.move?) ∧
    (∀ line, c.output (.enter line) = "" ∧
      ((c.enter line).2 = true ↔ Text.trimString line = "q")) ∧
    (∃ (before : List Action) (lines : List String),
      as = before ++ lines.map .enter ∧ Fresh before) ∧
    (∀ (before : List Action) (lines : List String), as = before ++ lines.map .enter →
      Fresh before →
      c.output .display =
        (if clearScreen then Banner.clearScreen else "") ++ stateBlock palette c.trace ++
          (if c.trace.current.isHalted then c.trace.current.describeResult ++ "\n" else "") ++
          Text.concat (remarksOn palette
            ((Trace.start p budget).moves (before.filterMap Action.move?)) lines)) ∧
    ∀ line, Text.trimString line = "r" →
      StepsOn c (c.enter line).1 ∧
      ((∃ r, c.trace.run.error = some r ∧ c.trace.run.last.isHalted = false ∧
          remarks palette c.trace (.ofLine line) = [describeFailure palette r]) ∨
        (c.trace.run.error = none ∧ c.trace.run.last.isHalted = true ∧
          remarks palette c.trace (.ofLine line) =
            [palette.paint .yellow "The machine has halted." ++ "\n"])) := by
  have hsession := session_eq (start palette clearScreen p budget) as
  rw [hc] at hsession
  have htrace : c.trace = (Trace.start p budget).moves (as.filterMap Action.move?) :=
    congrArg Console.trace hsession
  refine ⟨htrace, fun line => ⟨rfl, c.enter_quit_iff line⟩, exists_fresh as,
    fun before lines has hfresh => ?_, fun line hline => ?_⟩
  · have hpalette : c.palette = palette := congrArg Console.palette hsession
    have hclear : c.clearScreen = clearScreen := congrArg Console.clearScreen hsession
    have hbefore := session_eq (start palette clearScreen p budget) before
    have hnotes : c.notes = remarksOn palette
        ((Trace.start p budget).moves (before.filterMap Action.move?)) lines := by
      rw [← hc, has, session_append, session_enter_notes, hfresh.notes rfl, List.nil_append,
        hbefore]
      rfl
    rw [output, display, hpalette, hclear, hnotes]
  · have hrun : Command.ofLine line = .run := by
      rw [Command.ofLine, hline]
      rfl
    have hfinished : c.trace.run.Finished := by
      rw [htrace]
      exact Trace.finished_run (Program.wellFormed_of_assemble hp) budget _
    rw [enter, hrun]
    exact ⟨c.stepsOn_run, remarks_run palette hfinished⟩

/-- A session over `twoCalls` with a budget of two steps: a move back that cannot
be made is noted before the display, and an unknown command and the end of the
run after it, while the step forward between them has nothing to say. -/
theorem session_faithful_twoCalls :
    ∃ c, (start .ansi false .twoCalls 2).session
        [.enter "p", .display, .enter " n ", .enter "x", .enter "r"] = c ∧
      c.trace = (Trace.start .twoCalls 2).moves [.prev, .next, .run] ∧
      c.trace.steps = 2 ∧
      (remarksOn .ansi ((Trace.start .twoCalls 2).moves [.prev]) [" n ", "x", "r"]).length = 2 ∧
      c.output .display =
        stateBlock .ansi c.trace ++ Text.concat (remarksOn .ansi
          ((Trace.start .twoCalls 2).moves [.prev]) [" n ", "x", "r"]) ∧
      StepsOn c (c.enter "r ").1 ∧
      remarks .ansi c.trace (.ofLine "r ") = [describeFailure .ansi c.trace.budgetReport] := by
  generalize hc : (start .ansi false .twoCalls 2).session
    [.enter "p", .display, .enter " n ", .enter "x", .enter "r"] = c
  obtain ⟨htrace, _, _, hdisplay, hrun⟩ :=
    session_faithful Program.assemble_twoCallsText .ansi false 2 _ hc
  have hmoves : List.filterMap Action.move? [.enter "p", .display, .enter " n ", .enter "x",
      .enter "r"] = [.prev, .next, .run] := by decide +kernel
  rw [hmoves] at htrace
  have hfacts : c.trace.steps = 2 ∧ c.trace.current.isHalted = false ∧
      c.trace.run.error = some c.trace.budgetReport := by
    rw [htrace]
    decide +kernel
  obtain ⟨hsteps, hrunning, herror⟩ := hfacts
  have hshown := hdisplay [.enter "p", .display] [" n ", "x", "r"] rfl (.inr ⟨[.enter "p"], rfl⟩)
  have hbefore : List.filterMap Action.move? [.enter "p", .display] = [.prev] := by decide +kernel
  rw [hbefore, hrunning] at hshown
  obtain ⟨hstepsOn, hremark⟩ := hrun "r " (by decide +kernel)
  refine ⟨c, rfl, htrace, hsteps, by decide +kernel, ?_, hstepsOn, ?_⟩
  · simpa using hshown
  · obtain ⟨r, hr, _, hremark⟩ | ⟨hnone, _⟩ := hremark
    · rw [hremark, Option.some.inj (hr.symm.trans herror)]
    · rw [herror] at hnone
      cases hnone

end Console

end SecdMachine
