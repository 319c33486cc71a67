import SecdMachine.Proofs.Navigation

/-!
# SecdMachine.Proofs.Outcome

What a run comes to.

Wherever the cursor of a trace was left, a run from there brings the trace to
its end (`Trace.Finished`).  The history then holds exactly the states of the
machine within the budget (`Finished.getElem?_eq_some_iff`), so that nothing of
what was done before can be seen in it.

There are three ways to end: in a halted state, in a state from which a step
fails, or, when the budget is spent, in a state that is neither.  Each is told
from the states of the machine alone (`Finished.outcome_of_isHalted`,
`Finished.outcome_of_fault` and `Finished.outcome_of_budget`), and in the first
two no step leads on, so that a larger budget ends there as well.
-/

namespace SecdMachine

/-- A run goes through all the states before its last. -/
theorem Program.exists_after_of_le {p : Program} {s t : State} {m n : Nat} (hmn : m ≤ n)
    (h : p.after n s = .ok t) : ∃ u, p.after m s = .ok u := by
  induction hmn generalizing t with
  | refl => exact ⟨t, h⟩
  | step _ ih =>
      obtain ⟨r, hr, _⟩ := Program.after_succ_eq_ok_iff.mp h
      exact ih hr

namespace Trace

variable {t u : Trace} {n : Nat} {s : State} {f : Fault}

/-! ## finished runs -/

/-- The run of a trace has come to its end, and the cursor is there. -/
structure Finished (t : Trace) : Prop where
  valid : t.Valid
  cursor : t.cursor = t.steps
  ended : t.error = none → t.last.isHalted = true

/-- A move forward stays only where the run has come to its end. -/
theorem Forward.finished (h : Forward t u false) (hp : t.program.WellFormed) (ht : t.Valid) :
    u.Finished := by
  have hvalid := h.valid ht
  have hsize := t.size_eq
  cases h with
  | halted hend hhalted => exact ⟨ht, by omega, fun _ => hhalted⟩
  | again hend hrunning herror =>
      exact ⟨ht, by omega, fun hnone => absurd (herror.symm.trans hnone) nofun⟩
  | exhausted hend | failed hend =>
      refine ⟨hvalid, ?_, nofun⟩
      change t.cursor = t.steps
      omega
  | stuck hend hrunning hstep => exact absurd hstep (Program.step_ne_stuck hp ht.reachable_last)

/-- A trace that has been completed is finished. -/
theorem Completes.finished (h : Completes t u) (hp : t.program.WellFormed) (ht : t.Valid) :
    u.Finished := by
  induction h with
  | @stay t u h =>
      have hforward := forward_next t
      rw [h] at hforward
      exact hforward.finished hp ht
  | @move t u v h rest ih =>
      have hforward := forward_next t
      rw [h] at hforward
      have hprogram : u.program = t.program := hforward.extends.program
      exact ih (hprogram ▸ hp) (hforward.valid ht)

/-- A trace whose cursor is at a halted state has come to its end. -/
theorem Valid.finished_of_current (h : t.Valid) (hhalted : t.current.isHalted = true) :
    t.Finished := by
  have hcurrent : t.history[t.cursor]? = some t.current := Array.getElem?_eq_getElem t.cursor_lt
  have hcursor : t.cursor = t.steps := h.eq_steps_of_isHalted hcurrent hhalted
  have hlast : t.last = t.current := by
    rw [hcursor, t.getElem?_steps] at hcurrent
    exact Option.some.inj hcurrent
  exact ⟨h, hcursor, fun _ => hlast ▸ hhalted⟩

/-- Whatever the moves from the start, a run ends. -/
theorem finished_run {p : Program} (hp : p.WellFormed) (budget : Int) (ms : List Move) :
    ((start p budget).moves ms).run.Finished := by
  have hprogram := (extends_moves (start p budget) ms).program
  exact (completes_run _).finished (hprogram ▸ hp) (valid_moves p budget ms)

/-- The ways to end. -/
theorem Finished.cases (h : t.Finished) :
    (t.last.isHalted = true ∧ t.outcome = ⟨.halted, t.last.result, t.steps, none⟩) ∨
    (t.last.isHalted = false ∧ t.steps = t.budget.toNat ∧
      t.outcome = ⟨.aborted, none, t.steps, some t.budgetReport⟩) ∨
    (t.last.isHalted = false ∧ t.steps < t.budget.toNat ∧
      ∃ f, t.program.step t.last = .error (.fault f) ∧
        t.outcome = ⟨.failed, none, t.steps, some (t.program.report t.last f)⟩) := by
  obtain ⟨hhalted, haborted, hfailed, _⟩ := h.valid.status_iff
  have hresult : t.last.isHalted = false → t.last.result = none := by
    simp [State.isHalted]
  unfold outcome
  cases herror : t.error with
  | none =>
      have hlast := h.ended herror
      exact .inl ⟨hlast, by rw [hhalted.mpr hlast]⟩
  | some r =>
      obtain ⟨hrunning, ⟨rfl, hsteps⟩ | ⟨hsteps, f, hstep, rfl⟩⟩ := h.valid.error r herror
      · refine .inr (.inl ⟨hrunning, hsteps, ?_⟩)
        rw [haborted.mpr herror, hresult hrunning]
      · refine .inr (.inr ⟨hrunning, hsteps, f, hstep, ?_⟩)
        rw [hfailed.mpr ⟨f, hstep, herror⟩, hresult hrunning]

/-! ## the states within the budget -/

/-- A run does not end before the budget is spent if the machine can go on. -/
theorem Finished.le_steps (h : t.Finished) (hn : n ≤ t.budget.toNat)
    (hs : t.program.after n t.program.initial = .ok s) : n ≤ t.steps := by
  refine Nat.le_of_not_lt fun hlt => ?_
  obtain ⟨s', hs'⟩ := Program.exists_after_of_le hlt hs
  rw [Program.after_succ h.valid.reached_last] at hs'
  -- The machine goes on from the last state, which no way to end allows.
  obtain ⟨hhalted, _⟩ | ⟨_, hsteps, _⟩ | ⟨_, _, f, hstep, _⟩ := h.cases
  · rw [(Program.step_eq_ok_iff.mp hs').1] at hhalted
    contradiction
  · omega
  · rw [hstep] at hs'
    contradiction

/-- **The history of a run**: the states of the machine, cut at the budget. -/
theorem Finished.getElem?_eq_some_iff (h : t.Finished) :
    t.history[n]? = some s ↔
      n ≤ t.budget.toNat ∧ t.program.after n t.program.initial = .ok s := by
  have hsize := t.size_eq
  constructor
  · intro hs
    have hlt := (Array.getElem?_eq_some_iff.mp hs).1
    have hle := h.valid.steps_le
    exact ⟨by omega, h.valid.reached n s hs⟩
  · rintro ⟨hn, hs⟩
    have hle := h.le_steps hn hs
    have hlt : n < t.history.size := by omega
    have hget := Array.getElem?_eq_getElem hlt
    rw [hget, ← Except.ok.inj ((h.valid.reached n _ hget).symm.trans hs)]

/-- A larger budget extends the history. -/
theorem Finished.history_prefix (ht : t.Finished) (hu : u.Finished)
    (hprogram : u.program = t.program) (hbudget : t.budget ≤ u.budget) :
    t.history.toList <+: u.history.toList := by
  rw [List.prefix_iff_getElem?]
  intro i hi
  have hs := Array.getElem?_eq_getElem (Array.length_toList ▸ hi)
  obtain ⟨hle, hafter⟩ := ht.getElem?_eq_some_iff.mp hs
  rw [Array.getElem?_toList, Array.getElem_toList, hu.getElem?_eq_some_iff, hprogram]
  exact ⟨by omega, hafter⟩

/-! ## outcomes -/

/-- The state in which the budget is spent, or from which no step leads on, is
the last. -/
theorem Finished.eq_last (h : t.Finished) (hn : n ≤ t.budget.toNat)
    (hs : t.program.after n t.program.initial = .ok s)
    (hend : n = t.budget.toNat ∨ ∃ e, t.program.step s = .error e) :
    t.steps = n ∧ t.last = s := by
  have hget := h.getElem?_eq_some_iff.mpr ⟨hn, hs⟩
  have hsize := t.size_eq
  have hle := h.valid.steps_le
  have hsteps : t.steps = n := by
    refine Nat.le_antisymm (Nat.le_of_not_lt fun hlt => ?_) (h.le_steps hn hs)
    obtain hspent | ⟨e, hstep⟩ := hend
    · omega
    · have hnext := Array.getElem?_eq_getElem (show n + 1 < t.history.size by omega)
      rw [h.valid.step hget hnext] at hstep
      contradiction
  rw [← hsteps, t.getElem?_steps] at hget
  exact ⟨hsteps, Option.some.inj hget⟩

/-- A run that halts within its budget has its result as the outcome. -/
theorem Finished.outcome_of_isHalted (h : t.Finished) (hn : n ≤ t.budget.toNat)
    (hs : t.program.after n t.program.initial = .ok s) (hhalted : s.isHalted = true) :
    t.outcome = ⟨.halted, s.result, n, none⟩ := by
  have hstep : t.program.step s = .error (.fault .alreadyHalted) := by
    rw [Program.step, if_pos hhalted]
  obtain ⟨rfl, rfl⟩ := h.eq_last hn hs (.inr ⟨_, hstep⟩)
  obtain ⟨_, houtcome⟩ | ⟨hrunning, _⟩ | ⟨hrunning, _⟩ := h.cases
  · exact houtcome
  · rw [hhalted] at hrunning
    contradiction
  · rw [hhalted] at hrunning
    contradiction

/-- A run that fails within its budget has its fault as the outcome. -/
theorem Finished.outcome_of_fault (h : t.Finished) (hn : n < t.budget.toNat)
    (hs : t.program.after n t.program.initial = .ok s) (hrunning : s.isHalted = false)
    (hstep : t.program.step s = .error (.fault f)) :
    t.outcome = ⟨.failed, none, n, some (t.program.report s f)⟩ := by
  obtain ⟨rfl, rfl⟩ := h.eq_last (Nat.le_of_lt hn) hs (.inr ⟨_, hstep⟩)
  obtain ⟨hhalted, _⟩ | ⟨_, hsteps, _⟩ | ⟨_, _, f', hstep', houtcome⟩ := h.cases
  · rw [hhalted] at hrunning
    contradiction
  · omega
  · cases hstep.symm.trans hstep'
    exact houtcome

/-- A run that uses up its budget is aborted. -/
theorem Finished.outcome_of_budget (h : t.Finished)
    (hs : t.program.after t.budget.toNat t.program.initial = .ok s)
    (hrunning : s.isHalted = false) :
    t.outcome = ⟨.aborted, none, t.budget.toNat, some t.budgetReport⟩ := by
  obtain ⟨hsteps, rfl⟩ := h.eq_last (Nat.le_refl _) hs (.inl rfl)
  obtain ⟨hhalted, _⟩ | ⟨_, _, houtcome⟩ | ⟨_, hlt, _⟩ := h.cases
  · rw [hhalted] at hrunning
    contradiction
  · rw [houtcome, hsteps]
  · omega

/-- A larger budget changes an outcome only if the budget was spent. -/
theorem Finished.outcome_eq (ht : t.Finished) (hu : u.Finished)
    (hprogram : u.program = t.program) (hbudget : t.budget ≤ u.budget)
    (hspent : t.outcome.status = .aborted → u.budget = t.budget) : u.outcome = t.outcome := by
  have hlast := ht.valid.reached_last
  have hle := ht.valid.steps_le
  obtain ⟨hhalted, houtcome⟩ | ⟨hrunning, hsteps, houtcome⟩ | ⟨hrunning, hlt, f, hstep, houtcome⟩ :=
    ht.cases
  · rw [← hprogram] at hlast
    rw [houtcome, hu.outcome_of_isHalted (by omega) hlast hhalted]
  · have hsame : u.budget = t.budget := hspent (by rw [houtcome])
    rw [hsteps, ← hprogram, ← hsame] at hlast
    rw [houtcome, hu.outcome_of_budget hlast hrunning, hsteps, hsame, budgetReport, budgetReport,
      hsame]
  · rw [← hprogram] at hlast hstep
    rw [houtcome, hu.outcome_of_fault (by omega) hlast hrunning hstep, hprogram]

/-- All that is left of a run is what the program and the budget say. -/
theorem Finished.eq (ht : t.Finished) (hu : u.Finished) (hprogram : u.program = t.program)
    (hbudget : u.budget = t.budget) : u = t := by
  have hhistory : u.history = t.history := by
    refine Array.ext_getElem? fun i => Option.ext fun s => ?_
    rw [ht.getElem?_eq_some_iff, hu.getElem?_eq_some_iff, hprogram, hbudget]
  have herror : u.error = t.error :=
    congrArg Outcome.error (ht.outcome_eq hu hprogram (by omega) fun _ => hbudget)
  have hcursor : u.cursor = t.cursor := by
    rw [hu.cursor, ht.cursor, steps, steps, hhistory]
  obtain ⟨program, budget, history, cursor, error, hlt⟩ := u
  cases hprogram
  cases hbudget
  cases hhistory
  cases herror
  cases hcursor
  rfl

/-- **Runs, cut at the budget**: whatever the moves before it, a run comes to its
end and leaves the trace as a run from the start does, with the cursor at the
last state.  If the machine halts within the budget, the outcome is the result,
after as many steps; otherwise, if a step within the budget fails, the outcome
is its fault, after the steps before it; otherwise it is that the budget is
spent, after all of its steps.  A larger budget changes only the last of these,
and there it extends the history. -/
theorem run_cut_at_budget {source text : String} {p : Program}
    (hp : Program.assemble source text = .ok p) (budget : Int) (ms : List Move)
    (ht : (start p budget).moves ms = t) :
    Completes t t.run ∧ t.run = (start p budget).run ∧ t.run.cursor + 1 = t.run.size ∧
    (∀ n s, n ≤ budget.toNat → p.after n p.initial = .ok s → s.isHalted = true →
      t.run.outcome = ⟨.halted, s.result, n, none⟩) ∧
    ((∀ n s, n ≤ budget.toNat → p.after n p.initial = .ok s → s.isHalted = false) →
      (∀ n s e, n < budget.toNat → p.after n p.initial = .ok s → p.step s = .error e →
        ∃ f, e = .fault f ∧ t.run.outcome = ⟨.failed, none, n, some (p.report s f)⟩) ∧
      ((∀ n s, n < budget.toNat → p.after n p.initial = .ok s → ∃ s', p.step s = .ok s') →
        t.run.outcome = ⟨.aborted, none, budget.toNat,
          some { fault := .budgetExceeded budget, statement := some {} }⟩)) ∧
    ∀ budget', budget ≤ budget' →
      (t.run.outcome.status = .halted ∨ t.run.outcome.status = .failed →
        (start p budget').run.outcome = t.run.outcome) ∧
      t.run.history.toList <+: (start p budget').run.history.toList := by
  have hwf := Program.wellFormed_of_assemble hp
  have hfinished := finished_run hwf budget ms
  rw [ht] at hfinished
  have hfresh (budget : Int) : (start p budget).run.Finished := finished_run hwf budget []
  have hprogram : t.run.program = p := by
    rw [run_program, ← ht, moves_program]
    rfl
  have hbudget : t.run.budget = budget := by
    rw [run_budget, ← ht, moves_budget]
    rfl
  have hcompletes := completes_run t
  generalize t.run = u at hfinished hprogram hbudget hcompletes ⊢
  subst hprogram hbudget
  have heq : u = (start u.program u.budget).run :=
    (hfresh u.budget).eq hfinished (run_program (start _ _)).symm (run_budget (start _ _)).symm
  refine ⟨hcompletes, heq, ?_,
    fun n s hn hs hhalted => hfinished.outcome_of_isHalted hn hs hhalted,
    fun hrunning => ⟨fun n s e hn hs hstep => ?_, fun hsteps => ?_⟩, fun budget' hle => ⟨?_, ?_⟩⟩
  · rw [hfinished.cursor]
    exact u.size_eq.symm
  · cases e with
    | stuck => exact absurd hstep (Program.step_ne_stuck hwf ⟨n, hs⟩)
    | fault f =>
        have hs' := hrunning n s (Nat.le_of_lt hn) hs
        exact ⟨f, rfl, hfinished.outcome_of_fault hn hs hs' hstep⟩
  · have hlast := hfinished.valid.reached_last
    obtain ⟨hhalted, _⟩ | ⟨_, hspent, houtcome⟩ | ⟨_, hlt, f, hstep, _⟩ := hfinished.cases
    · rw [hrunning u.steps u.last hfinished.valid.steps_le hlast] at hhalted
      contradiction
    · rw [houtcome, hspent]
      rfl
    · obtain ⟨s', hs'⟩ := hsteps u.steps u.last hlt hlast
      rw [hs'] at hstep
      contradiction
  · intro hstatus
    refine hfinished.outcome_eq (hfresh budget') (run_program _) ?_ fun haborted => ?_
    · rw [run_budget]
      exact hle
    · rw [haborted] at hstatus
      obtain h | h := hstatus <;> contradiction
  · refine hfinished.history_prefix (hfresh budget') (run_program _) ?_
    rw [run_budget]
    exact hle

/-- `twoCalls` halts on the last of seventeen steps, also after moves back and
forth and with any larger budget.  A budget below zero allows no step at all. -/
theorem run_cut_at_budget_twoCalls :
    ((start .twoCalls 17).moves [.next, .next, .prev]).run.outcome =
      ⟨.halted, some (.int 9), 17, none⟩ ∧
    ((start .twoCalls 17).moves [.next, .next, .prev]).run = (start .twoCalls 17).run ∧
    (∀ budget, 17 ≤ budget →
      (start .twoCalls budget).run.outcome = ⟨.halted, some (.int 9), 17, none⟩) ∧
    ((start .twoCalls (-1)).moves [.run]).run.outcome =
      ⟨.aborted, none, 0, some { fault := .budgetExceeded (-1), statement := some {} }⟩ := by
  obtain ⟨s, hs, hresult⟩ : ∃ s, Program.twoCalls.after 17 Program.twoCalls.initial = .ok s ∧
      s.result = some (.int 9) := ⟨_, rfl, rfl⟩
  have hhalted : s.isHalted = true := by rw [State.isHalted, hresult, Option.isSome_some]
  obtain ⟨_, hsame, _, houtcome, _, hlarger⟩ :=
    run_cut_at_budget Program.assemble_twoCallsText 17 [.next, .next, .prev] rfl
  obtain ⟨_, _, _, _, hunhalted, _⟩ :=
    run_cut_at_budget Program.assemble_twoCallsText (-1) [.run] rfl
  have h17 := houtcome 17 s (Nat.le_refl _) hs hhalted
  rw [hresult] at h17
  refine ⟨h17, hsame, fun budget hle => ?_, (hunhalted fun n s hn hs => ?_).2 fun n s hn => ?_⟩
  · rw [(hlarger budget hle).1 (.inl (congrArg Outcome.status h17)), h17]
  · cases Nat.le_zero.mp hn
    cases hs
    rfl
  · exact absurd hn (Nat.not_lt_zero n)

end Trace

end SecdMachine
