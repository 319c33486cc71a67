import SecdMachine.CommandLine
import SecdMachine.Proofs.Batch
import SecdMachine.Proofs.Dump

/-!
# SecdMachine.Proofs.ExitStatus

What a command line leads to.

A command line is refused, lists the examples, or runs a program, and there is
nothing else (`refused_or_lists_or_runs`).  What it asks for is tried in order:
flags, settings, list, program, assembly.

In a batch, the exit status and the dump are those of a run of the program from
the start, with the budget that the flags or else the settings give
(`Session.agrees_conclude`).  An empty path for the dump counts as none, so that
nothing is written and nothing can fail.
-/

namespace SecdMachine.CommandLine

variable {files : Files} {arguments : List String} {f : Flags} {s : Settings} {p : Program}

/-! ## what a command line asks for -/

/-- A command line that is refused: its flags or its settings cannot be read, or
it asks for a program that there is not or that cannot be assembled. -/
inductive Refused (files : Files) (arguments : List String) : Prop where
  | flags {e : Flags.Error} (h : Flags.read arguments = .error e) : Refused files arguments
  | settings {f : Flags} {e : String} (hflags : Flags.read arguments = .ok f)
      (h : loadSettings files f.config = .error e) : Refused files arguments
  | program {f : Flags} {s : Settings} {e : String} (hflags : Flags.read arguments = .ok f)
      (hsettings : loadSettings files f.config = .ok s) (hlist : f.list = false)
      (h : loadProgram files f = .error e) : Refused files arguments
  | assembly {f : Flags} {s : Settings} {source text : String} {rs : List Report}
      (hflags : Flags.read arguments = .ok f) (hsettings : loadSettings files f.config = .ok s)
      (hlist : f.list = false) (hprogram : loadProgram files f = .ok (source, text))
      (h : Program.assemble source text = .error rs) : Refused files arguments

/-- A command line that asks for the list of the examples. -/
inductive Lists (files : Files) (arguments : List String) : Prop where
  | intro {f : Flags} {s : Settings} (hflags : Flags.read arguments = .ok f)
      (hsettings : loadSettings files f.config = .ok s) (hlist : f.list = true) :
      Lists files arguments

/-- A command line that runs a program, with its flags and settings. -/
structure Runs (files : Files) (arguments : List String) (f : Flags) (s : Settings)
    (p : Program) : Prop where
  flags : Flags.read arguments = .ok f
  settings : loadSettings files f.config = .ok s
  list : f.list = false
  program : ∃ source text, loadProgram files f = .ok (source, text) ∧
    Program.assemble source text = .ok p

/-- There is nothing else that a command line can come to. -/
theorem refused_or_lists_or_runs (files : Files) (arguments : List String) :
    Refused files arguments ∨ Lists files arguments ∨ ∃ f s p, Runs files arguments f s p := by
  cases hflags : Flags.read arguments with
  | error e => exact .inl (.flags hflags)
  | ok f =>
      cases hsettings : loadSettings files f.config with
      | error e => exact .inl (.settings hflags hsettings)
      | ok s =>
          cases hlist : f.list with
          | true => exact .inr (.inl ⟨hflags, hsettings, hlist⟩)
          | false =>
              cases hprogram : loadProgram files f with
              | error e => exact .inl (.program hflags hsettings hlist hprogram)
              | ok st =>
                  obtain ⟨source, text⟩ := st
                  cases hassemble : Program.assemble source text with
                  | error rs =>
                      exact .inl (.assembly hflags hsettings hlist hprogram hassemble)
                  | ok p =>
                      exact .inr (.inr ⟨f, s, p, hflags, hsettings, hlist,
                        source, text, hprogram, hassemble⟩)

/-! ## plans -/

theorem plan_of_settings {clock : String} (hflags : Flags.read arguments = .ok f)
    (hsettings : loadSettings files f.config = .ok s) :
    plan clock files arguments = planWith clock files f (overrideSettings s f) := by
  simp only [plan, hflags, hsettings]

theorem plan_of_refused (clock : String) (h : Refused files arguments) :
    ∃ r, plan clock files arguments = .finished r ∧
      r.exit = 1 ∧ r.stdout = "" ∧ r.written = none := by
  cases h with
  | flags h =>
      simp only [plan, h]
      exact ⟨_, rfl, rfl, rfl, rfl⟩
  | settings hflags h =>
      simp only [plan, hflags, h]
      exact ⟨_, rfl, rfl, rfl, rfl⟩
  | program hflags hsettings hlist h =>
      simp only [plan_of_settings hflags hsettings, planWith, hlist, h]
      exact ⟨_, rfl, rfl, rfl, rfl⟩
  | assembly hflags hsettings hlist hprogram h =>
      simp only [plan_of_settings hflags hsettings, planWith, hlist, hprogram, h]
      exact ⟨_, rfl, rfl, rfl, rfl⟩

theorem plan_of_lists (clock : String) (h : Lists files arguments) :
    ∃ r, plan clock files arguments = .finished r ∧
      r.exit = 0 ∧ r.stdout = exampleList ∧ r.written = none := by
  obtain ⟨hflags, hsettings, hlist⟩ := h
  simp only [plan_of_settings hflags hsettings, planWith, hlist]
  exact ⟨_, rfl, rfl, rfl, rfl⟩

theorem plan_of_runs (clock : String) (h : Runs files arguments f s p) :
    ∃ session, plan clock files arguments = .session session ∧
      session.settings = overrideSettings s f ∧ session.dump = f.dump ∧
      session.console.trace = .start p (f.maxSteps.getD s.maxSteps) := by
  obtain ⟨source, text, hprogram, hassemble⟩ := h.program
  simp only [plan_of_settings h.flags h.settings, planWith, h.list, hprogram, hassemble]
  exact ⟨_, rfl, rfl, rfl, rfl⟩

/-! ## results of runs -/

/-- The exit status of a run that has come to its end tells how it ended. -/
theorem exitStatus_iff {t : Trace} (h : t.Finished) :
    (exitStatus t.status = 0 ↔ t.outcome.status = .halted) ∧
    (exitStatus t.status = 2 ↔ t.outcome.status = .aborted) ∧
    (exitStatus t.status = 1 ↔ t.outcome.status = .failed) := by
  have hstatus : t.status = t.outcome.status := rfl
  rw [hstatus]
  obtain ⟨_, houtcome⟩ | ⟨_, _, houtcome⟩ | ⟨_, _, f, _, houtcome⟩ := h.cases <;>
    simp [houtcome, exitStatus]

/-- A result agrees with a trace that has come to its end: it is a failure if the
dump is asked for and cannot be written, and otherwise its exit status tells how
the run ended; and the dump, which is written if it is asked for and can be, holds
the states of the run, the last of which is halted exactly if the exit status is
zero. -/
structure Agrees (files : Files) (dump : String) (t : Trace) (result : Result) : Prop where
  unwritable : dump ≠ "" → (files.writeError? dump).isSome = true → result.exit = 1
  status : dump = "" ∨ files.writeError? dump = none →
    (result.exit = 0 ↔ t.outcome.status = .halted) ∧
    (result.exit = 2 ↔ t.outcome.status = .aborted) ∧
    (result.exit = 1 ↔ t.outcome.status = .failed)
  written : result.written.isSome = true ↔ dump ≠ "" ∧ files.writeError? dump = none
  states : ∀ path content, result.written = some (path, content) →
    path = dump ∧ t.size = t.outcome.steps + 1 ∧
    Trace.readDump? content = some (t.history.toList.mapIdx fun i s => (i, s)) ∧
    (t.last.isHalted = true ↔ result.exit = 0)

/-- A session ends with a result that agrees with its trace. -/
theorem Session.agrees_conclude (clock : String) (files : Files) (session : Session)
    {c : Console} (shown : String) (h : c.trace.Finished) :
    Agrees files session.dump c.trace (session.conclude clock files c shown) := by
  have hstatus := exitStatus_iff h
  have hlast : c.trace.last.isHalted = true ↔ exitStatus c.trace.status = 0 :=
    h.valid.status_iff.1.symm.trans hstatus.1.symm
  unfold conclude
  by_cases hdump : session.dump = ""
  · simp only [if_pos hdump]
    exact ⟨fun hne => absurd hdump hne, fun _ => hstatus, ⟨nofun, fun h => absurd hdump h.1⟩, nofun⟩
  · simp only [if_neg hdump]
    cases hwrite : files.writeError? session.dump with
    | some e =>
        have hfails : files.writeError? session.dump ≠ none := by
          rw [hwrite]
          exact nofun
        exact ⟨fun _ _ => rfl, fun hor => (hor.elim hdump hfails).elim,
          ⟨nofun, fun hand => absurd hand.2 hfails⟩, nofun⟩
    | none =>
        refine ⟨fun _ hsome => ?_, fun _ => hstatus, ⟨fun _ => ⟨hdump, hwrite⟩, fun _ => rfl⟩,
          fun path content hwritten => ?_⟩
        · rw [hwrite] at hsome
          cases hsome
        · cases hwritten
          exact ⟨rfl, c.trace.size_eq, Trace.readDump?_dump c.trace, hlast⟩

/-- **Exit status**: a command line is refused, lists the examples or runs a
program.  One that is refused exits with 1 and nothing on the standard output; a
list exits with 0, and its plan is finished before anything runs.  A program that
runs as a batch agrees with a run from the start with the budget of the flags, or
of the settings if they give none: it exits with 1 if the dump is asked for and
cannot be written, and otherwise with 0 if the machine halted, 2 if the budget
was spent and 1 if the machine failed; and a dump that is written holds the
states of the run, the last of which is halted exactly if the exit status is
zero. -/
theorem exit_status_agrees (clock : String) (files : Files) (input arguments : List String)
    {result : Result} (hresult : run clock files input arguments = result) :
    (Refused files arguments ∨ Lists files arguments ∨ ∃ f s p, Runs files arguments f s p) ∧
    (Refused files arguments → result.exit = 1 ∧ result.stdout = "" ∧ result.written = none) ∧
    (Lists files arguments → plan clock files arguments = .finished result ∧
      result.exit = 0 ∧ result.stdout = exampleList ∧ result.written = none) ∧
    ∀ f s p, Runs files arguments f s p → f.interactive.getD s.interactive = false →
      Agrees files f.dump (Trace.start p (f.maxSteps.getD s.maxSteps)).run result := by
  refine ⟨refused_or_lists_or_runs files arguments, fun h => ?_, fun h => ?_,
    fun f s p h hbatch => ?_⟩
  · obtain ⟨r, hplan, hr⟩ := plan_of_refused clock h
    rw [run, hplan] at hresult
    exact hresult ▸ hr
  · obtain ⟨r, hplan, hr⟩ := plan_of_lists clock h
    rw [run, hplan] at hresult
    subst hresult
    exact ⟨hplan, hr⟩
  · obtain ⟨session, hplan, hsettings, hdump, htrace⟩ := plan_of_runs clock h
    have hinteractive : session.settings.interactive = false := by
      rw [hsettings]
      exact hbatch
    obtain ⟨source, text, _, hassemble⟩ := h.program
    have hwf := Program.wellFormed_of_assemble hassemble
    have hend : session.console.batch.1.trace =
        (Trace.start p (f.maxSteps.getD s.maxSteps)).run := by
      rw [Console.batch_trace, htrace]
      · rw [htrace]
        exact hwf
      · rw [htrace]
        exact Trace.valid_start p _
    have hfinished := Trace.finished_run hwf (f.maxSteps.getD s.maxSteps) []
    simp only [run, hplan, hinteractive] at hresult
    rw [← hresult, ← hdump, ← hend]
    refine session.agrees_conclude clock files _ ?_
    rw [hend]
    exact hfinished

/-- `twoCalls`, run from a file with a budget of seventeen steps, which the flags
give, and dumped. -/
theorem exit_status_agrees_twoCalls :
    ∃ result, run "" (.ofDirectory [("test", Program.twoCallsText)]) []
        ["-max", "17", "-dump=out", "test"] = result ∧
      (Trace.start .twoCalls 17).run.outcome.status = .halted ∧ result.exit = 0 ∧
      ∃ content, result.written = some ("out", content) ∧
        (Trace.start .twoCalls 17).run.size = 18 ∧
        Trace.readDump? content =
          some ((Trace.start .twoCalls 17).run.history.toList.mapIdx fun i s => (i, s)) := by
  generalize hresult : run "" (.ofDirectory [("test", Program.twoCallsText)]) []
    ["-max", "17", "-dump=out", "test"] = result
  obtain ⟨_, _, _, hruns⟩ := exit_status_agrees _ _ _ _ hresult
  have hagrees := hruns { maxSteps := some 17, dump := "out", arguments := ["test"] } {} .twoCalls
    ⟨rfl, rfl, rfl, "test", Program.twoCallsText, rfl, Program.assemble_twoCallsText⟩ rfl
  have hwritable : (Files.ofDirectory [("test", Program.twoCallsText)]).writeError? "out" = none :=
    rfl
  have hrun : (Trace.start .twoCalls 17).run.outcome.status = .halted ∧
      (Trace.start .twoCalls 17).run.size = 18 := by decide +kernel
  have hzero := (hagrees.status (.inr hwritable)).1.mpr hrun.1
  obtain ⟨⟨path, content⟩, hwritten⟩ :=
    Option.isSome_iff_exists.mp (hagrees.written.mpr ⟨nofun, hwritable⟩)
  obtain ⟨rfl, _, hread, _⟩ := hagrees.states path content hwritten
  exact ⟨result, rfl, hrun.1, hzero, content, hwritten, hrun.2, hread⟩

/-- The dump of an empty path cannot be written, and is not asked for either. -/
theorem empty_dump_path_exits_zero :
    ¬ ∀ (files : Files) (path : String), (files.writeError? path).isSome = true →
      (run "" files [] ["-example", "inc", "-dump", path]).exit = 1 := by
  intro h
  have hone := h (.ofDirectory []) "" (by decide +kernel)
  have hzero : (run "" (.ofDirectory []) [] ["-example", "inc", "-dump", ""]).exit = 0 := by
    decide +kernel
  rw [hzero] at hone
  cases hone

end SecdMachine.CommandLine
