import SecdMachine.Proofs.Safety
import SecdMachine.Trace

/-!
# SecdMachine.Proofs.Navigation

Moving through a trace.

A trace is moved forward, back and to its end in any order (`Trace.Move`).
What one move forward can do is said once (`Trace.Forward`), and everything
else goes through it.  A run is the move forward, repeated until the cursor
stays: `Trace.Completes` is this loop without a bound on its rounds, and the
bound that `Trace.run` computes is enough for it (`completes_run`).

A move never takes back anything (`Trace.Extends`), and from the start on it
keeps what a trace stands for (`Trace.Valid`): the history is made of steps of
the machine, no more than the budget allows, and an error is the one that
ended them.
-/

namespace SecdMachine

namespace Trace

variable {t u v : Trace} {b : Bool}

/-! ## moves -/

/-- The moves of a trace. -/
inductive Move where
  | next
  | prev
  | run
deriving DecidableEq, Repr

/-- The trace after a move. -/
def move (t : Trace) : Move → Trace
  | .next => t.next.1
  | .prev => t.prev.1
  | .run => t.run

/-- The trace after moves, one after the other. -/
def moves (t : Trace) (ms : List Move) : Trace :=
  ms.foldl move t

/-- `Forward t u b`: a move forward leads from `t` to `u`, and `b` tells whether
the cursor has moved. -/
inductive Forward (t : Trace) : Trace → Bool → Prop where
  | retrace (h : t.cursor + 1 < t.history.size) :
      Forward t { t with cursor := t.cursor + 1, cursor_lt := h } true
  | halted (hend : t.cursor + 1 = t.history.size) (hhalted : t.last.isHalted = true) :
      Forward t t false
  | again {r : Report} (hend : t.cursor + 1 = t.history.size)
      (hrunning : t.last.isHalted = false) (herror : t.error = some r) : Forward t t false
  | exhausted (hend : t.cursor + 1 = t.history.size) (hrunning : t.last.isHalted = false)
      (herror : t.error = none) (hbudget : t.budget ≤ t.steps) :
      Forward t { t with error := some t.budgetReport } false
  | advance {s : State} (hend : t.cursor + 1 = t.history.size)
      (hrunning : t.last.isHalted = false) (herror : t.error = none)
      (hbudget : t.steps < t.budget) (hstep : t.program.step t.last = .ok s)
      (hlt : t.cursor + 1 < (t.history.push s).size) :
      Forward t { t with history := t.history.push s, cursor := t.cursor + 1, cursor_lt := hlt }
        true
  | failed {f : Fault} (hend : t.cursor + 1 = t.history.size)
      (hrunning : t.last.isHalted = false) (herror : t.error = none)
      (hbudget : t.steps < t.budget) (hstep : t.program.step t.last = .error (.fault f)) :
      Forward t { t with error := some (t.program.report t.last f) } false
  | stuck (hend : t.cursor + 1 = t.history.size) (hrunning : t.last.isHalted = false)
      (hstep : t.program.step t.last = .error .stuck) : Forward t t false

/-- A move forward does what one of the rules says. -/
theorem forward_next (t : Trace) : Forward t t.next.1 t.next.2 := by
  have hlt := t.cursor_lt
  unfold next
  split
  · next h => exact .retrace h
  · next hnot =>
      have hend : t.cursor + 1 = t.history.size := by omega
      split
      · next hhalted => exact .halted hend hhalted
      · next hrunning =>
          have hrunning : t.last.isHalted = false := Bool.eq_false_iff.mpr hrunning
          split
          · next herror =>
              obtain ⟨r, hr⟩ := Option.isSome_iff_exists.mp herror
              exact .again hend hrunning hr
          · next herror =>
              have herror : t.error = none := by simpa using herror
              split
              · next hbudget => exact .exhausted hend hrunning herror hbudget
              · next hbudget =>
                  have hbudget : t.steps < t.budget := by omega
                  split
                  · next s hstep => exact .advance hend hrunning herror hbudget hstep _
                  · next f hstep => exact .failed hend hrunning herror hbudget hstep
                  · next hstep => exact .stuck hend hrunning hstep

/-! ## runs -/

/-- `Completes t u`: moving forward from `t` until the cursor stays ends in
`u`. -/
inductive Completes : Trace → Trace → Prop where
  | stay {t u : Trace} (h : t.next = (u, false)) : Completes t u
  | move {t u v : Trace} (h : t.next = (u, true)) (rest : Completes u v) : Completes t v

/-- Each time that the cursor moves forward, it can do so less often. -/
theorem remaining_of_forward (h : Forward t u true) : u.remaining < t.remaining := by
  have hlt := t.cursor_lt
  cases h with
  | retrace h =>
      simp only [remaining, steps]
      omega
  | advance hend hrunning herror hbudget hstep hlt' =>
      simp only [remaining, steps, Array.size_push] at hbudget ⊢
      omega

/-- With enough rounds, the loop ends by itself. -/
theorem completes_runFor {n : Nat} (h : t.remaining < n) : Completes t (t.runFor n) := by
  induction n generalizing t with
  | zero => omega
  | succ n ih =>
      rw [runFor]
      cases hnext : t.next with
      | mk u moved =>
          cases moved with
          | false => exact .stay hnext
          | true =>
              have hforward := forward_next t
              rw [hnext] at hforward
              have hless : u.remaining < t.remaining := remaining_of_forward hforward
              exact .move hnext (ih (by omega))

/-- **Runs end**: the loop of a run comes to its end, which is what `run`
gives. -/
theorem completes_run (t : Trace) : Completes t t.run :=
  completes_runFor (Nat.lt_succ_self _)

/-- What a move forward keeps, a run keeps. -/
theorem Completes.induction {motive : Trace → Prop}
    (next : ∀ t, motive t → motive t.next.1) (h : Completes t u) (ht : motive t) : motive u := by
  induction h with
  | stay h =>
      have hu := next _ ht
      rwa [h] at hu
  | move h rest ih =>
      have hu := next _ ht
      rw [h] at hu
      exact ih hu

/-- What moves forward and back keep, holds after any moves. -/
theorem moves_induction {motive : Trace → Prop} (next : ∀ t, motive t → motive t.next.1)
    (prev : ∀ t, motive t → motive t.prev.1) (ms : List Move) (ht : motive t) :
    motive (t.moves ms) := by
  induction ms generalizing t with
  | nil => exact ht
  | cons m ms ih =>
      refine ih ?_
      cases m with
      | next => exact next t ht
      | prev => exact prev t ht
      | run => exact (completes_run t).induction next ht

/-! ## nothing is taken back -/

/-- `Extends t u`: the trace `u` is of the same run as `t`, and has all of its
history and its error. -/
structure Extends (t u : Trace) : Prop where
  program : u.program = t.program
  budget : u.budget = t.budget
  history : t.history.toList <+: u.history.toList
  error : ∀ r, t.error = some r → u.error = some r

theorem Extends.refl (t : Trace) : Extends t t :=
  ⟨rfl, rfl, List.prefix_rfl, fun _ hr => hr⟩

/-- Histories that grow twice have grown. -/
theorem Extends.trans (h : Extends t u) (h' : Extends u v) : Extends t v where
  program := h'.program.trans h.program
  budget := h'.budget.trans h.budget
  history := h.history.trans h'.history
  error := fun r hr => h'.error r (h.error r hr)

/-- A move forward takes nothing back. -/
theorem Forward.extends (h : Forward t u b) : Extends t u := by
  cases h with
  | retrace => exact ⟨rfl, rfl, List.prefix_rfl, fun _ hr => hr⟩
  | halted | again | stuck => exact .refl t
  | exhausted hend hrunning herror | failed hend hrunning herror =>
      exact ⟨rfl, rfl, List.prefix_rfl, fun r hr => absurd (herror.symm.trans hr) nofun⟩
  | advance hend hrunning herror hbudget hstep hlt =>
      refine ⟨rfl, rfl, ?_, fun _ hr => hr⟩
      rw [Array.toList_push]
      exact List.prefix_append _ _

/-- A move back leaves the history as it is. -/
theorem extends_prev (t : Trace) : Extends t t.prev.1 := by
  unfold prev
  split
  · exact .refl t
  · exact ⟨rfl, rfl, List.prefix_rfl, fun _ hr => hr⟩

/-- A move back that stays where it is changes nothing. -/
theorem prev_of_stay (h : t.prev.2 = false) : t.prev.1 = t := by
  unfold prev at h ⊢
  split at h
  · next hzero => rw [if_pos hzero]
  · cases h

/-- Moves take nothing back. -/
theorem extends_moves (t : Trace) (ms : List Move) : Extends t (t.moves ms) :=
  moves_induction (motive := Extends t) (fun u hu => hu.trans (forward_next u).extends)
    (fun u hu => hu.trans (extends_prev u)) ms (.refl t)

@[simp] theorem moves_program (t : Trace) (ms : List Move) : (t.moves ms).program = t.program :=
  (extends_moves t ms).program

@[simp] theorem moves_budget (t : Trace) (ms : List Move) : (t.moves ms).budget = t.budget :=
  (extends_moves t ms).budget

@[simp] theorem run_program (t : Trace) : t.run.program = t.program :=
  moves_program t [.run]

@[simp] theorem run_budget (t : Trace) : t.run.budget = t.budget :=
  moves_budget t [.run]

/-! ## what a trace stands for -/

/-- The history of a trace is that of the machine from the start on, with at most
as many steps as the budget allows, and its error is what ended them. -/
structure Valid (t : Trace) : Prop where
  reached : ∀ (i : Nat) (s : State), t.history[i]? = some s →
    t.program.after i t.program.initial = .ok s
  steps_le : t.steps ≤ t.budget.toNat
  error : ∀ r, t.error = some r → t.last.isHalted = false ∧
    ((r = t.budgetReport ∧ t.steps = t.budget.toNat) ∨
      (t.steps < t.budget.toNat ∧ ∃ f, t.program.step t.last = .error (.fault f) ∧
        r = t.program.report t.last f))

/-- The last state is the one after all the steps that were made. -/
theorem getElem?_steps (t : Trace) : t.history[t.steps]? = some t.last :=
  Array.getElem?_eq_getElem _

/-- A history has one state more than steps. -/
theorem size_eq (t : Trace) : t.history.size = t.steps + 1 := by
  have hpos := t.size_pos
  unfold steps
  omega

/-- The machine reaches the last state in as many steps as were made. -/
theorem Valid.reached_last (h : t.Valid) : t.program.after t.steps t.program.initial = .ok t.last :=
  h.reached t.steps t.last t.getElem?_steps

/-- A new trace stands for a run without steps. -/
theorem valid_start (p : Program) (budget : Int) : (start p budget).Valid where
  reached := by
    intro i s hs
    cases i with
    | zero => exact congrArg Except.ok (Option.some.inj hs)
    | succ i => cases hs
  steps_le := Nat.zero_le _
  error := fun _ hr => nomatch hr

/-- Where the cursor is does not matter to what a trace stands for. -/
theorem Valid.of_eq (h : t.Valid) (hprogram : u.program = t.program)
    (hbudget : u.budget = t.budget) (hhistory : u.history = t.history)
    (herror : u.error = t.error) : u.Valid := by
  obtain ⟨program, budget, history, cursor, error, cursor_lt⟩ := u
  cases hprogram
  cases hbudget
  cases hhistory
  cases herror
  exact ⟨h.reached, h.steps_le, h.error⟩

/-- A move back keeps what a trace stands for. -/
theorem valid_prev (h : t.Valid) : t.prev.1.Valid := by
  unfold prev
  split
  · exact h
  · exact h.of_eq rfl rfl rfl rfl

/-- **Step case**: a move forward keeps what a trace stands for. -/
theorem Forward.valid (h : Forward t u b) (ht : t.Valid) : u.Valid := by
  have hle := ht.steps_le
  cases h with
  | halted | again | stuck => exact ht
  | retrace h => exact ht.of_eq rfl rfl rfl rfl
  | exhausted hend hrunning herror hbudget =>
      refine ⟨ht.reached, hle, fun r hr => ?_⟩
      cases hr
      refine ⟨hrunning, .inl ⟨rfl, ?_⟩⟩
      change t.steps = t.budget.toNat
      omega
  | @failed f hend hrunning herror hbudget hstep =>
      refine ⟨ht.reached, hle, fun r hr => ?_⟩
      cases hr
      refine ⟨hrunning, .inr ⟨?_, f, hstep, rfl⟩⟩
      change t.steps < t.budget.toNat
      omega
  | @advance s hend hrunning herror hbudget hstep hlt =>
      -- The one state that is new is a step away from the last one before.
      refine ⟨fun i a ha => ?_, ?_, fun r hr => absurd (herror.symm.trans hr) nofun⟩
      · rw [Array.getElem?_push, t.size_eq] at ha
        split at ha
        · next hi =>
            cases ha
            rw [hi, Program.after_succ ht.reached_last]
            exact hstep
        · exact ht.reached i a ha
      · have hsize := t.size_eq
        simp only [steps, Array.size_push]
        omega

/-- **Run case**: so do any moves from the start. -/
theorem valid_moves (p : Program) (budget : Int) (ms : List Move) :
    ((start p budget).moves ms).Valid :=
  moves_induction (fun t ht => (forward_next t).valid ht) (fun _ ht => valid_prev ht) ms
    (valid_start p budget)

/-- The history begins with the initial state. -/
theorem Valid.initial (h : t.Valid) : t.history[0]? = some t.program.initial := by
  have hs := Array.getElem?_eq_getElem t.size_pos
  rw [hs, ← Except.ok.inj (h.reached 0 _ hs)]

/-- Neighbours in the history are one step apart. -/
theorem Valid.step (h : t.Valid) {i : Nat} {s s' : State} (hs : t.history[i]? = some s)
    (hs' : t.history[i + 1]? = some s') : t.program.step s = .ok s' := by
  rw [← Program.after_succ (h.reached i s hs)]
  exact h.reached (i + 1) s' hs'

theorem Valid.reachable_last (h : t.Valid) : t.program.Reachable t.last :=
  ⟨t.steps, h.reached_last⟩

/-- A halted state has no successor, so it is the last. -/
theorem Valid.eq_steps_of_isHalted (h : t.Valid) {i : Nat} {s : State}
    (hs : t.history[i]? = some s) (hhalted : s.isHalted = true) : i = t.steps := by
  have hi := (Array.getElem?_eq_some_iff.mp hs).1
  have hsize := t.size_eq
  refine Decidable.byContradiction fun hne => ?_
  have hlt : i + 1 < t.history.size := by omega
  have hrunning := (Program.step_eq_ok_iff.mp (h.step hs (Array.getElem?_eq_getElem hlt))).1
  rw [hhalted] at hrunning
  contradiction

end Trace

/-! ## errors and status -/

namespace Program

variable {p : Program} {s : State} {f : Fault}

/-- A step of a reachable state is never stuck. -/
theorem step_ne_stuck (hp : p.WellFormed) (hs : p.Reachable s) : p.step s ≠ .error .stuck := by
  intro h
  obtain ⟨_, he⟩ | ⟨_, _, he⟩ | ⟨f, he, _⟩ :=
    stop_cases hp (wellFormed_of_reachable hp hs) h <;> cases he

/-- The fault of a step of a running state is one of the machine, which has not
halted and knows of no budget. -/
theorem fault_of_step (hrunning : s.isHalted = false) (h : p.step s = .error (.fault f)) :
    f ≠ .alreadyHalted ∧ ∀ budget, f ≠ .budgetExceeded budget := by
  obtain ⟨hhalted, _⟩ | ⟨_, _, he⟩ | ⟨_, op, _, hstops⟩ := step_eq_error_cases h
  · rw [hrunning] at hhalted
    contradiction
  · cases he
    exact ⟨nofun, nofun⟩
  · generalize he : Stop.fault f = e at hstops
    cases hstops with
    | noConstant | noEntry => cases he
    | underflow | accessRange | focusType | focusRange | applyType | applynType | returnType
    | arithmeticType | overflow | equalityType | branchType | unknown =>
        cases he
        exact ⟨nofun, nofun⟩

end Program

namespace Trace

variable {t u : Trace} {b : Bool}

/-- The error of a valid trace is never that the machine has halted: it is not
asked to go on from there. -/
theorem Valid.fault_ne_alreadyHalted (h : t.Valid) {r : Report} (hr : t.error = some r) :
    r.fault ≠ .alreadyHalted := by
  obtain ⟨hrunning, ⟨rfl, _⟩ | ⟨_, f, hstep, rfl⟩⟩ := h.error r hr
  · exact nofun
  · exact (Program.fault_of_step hrunning hstep).1

/-- The status of a valid trace says what its last state and its error say. -/
theorem Valid.status_iff (h : t.Valid) :
    (t.status = .halted ↔ t.last.isHalted = true) ∧
    (t.status = .aborted ↔ t.error = some t.budgetReport) ∧
    (t.status = .failed ↔ ∃ f, t.program.step t.last = .error (.fault f) ∧
      t.error = some (t.program.report t.last f)) ∧
    (t.status = .running ↔ t.last.isHalted = false ∧ t.error = none) := by
  unfold status
  cases hhalted : t.last.isHalted with
  | true =>
      have hnone : t.error = none := by
        refine Option.eq_none_iff_forall_ne_some.mpr fun r hr => ?_
        rw [(h.error r hr).1] at hhalted
        contradiction
      simp [hnone]
  | false =>
      cases herror : t.error with
      | none => simp
      | some r =>
          obtain ⟨_, ⟨rfl, _⟩ | ⟨_, f, hstep, rfl⟩⟩ := h.error r herror
          · have hne : ∀ f, t.program.step t.last = .error (.fault f) →
                t.budgetReport ≠ t.program.report t.last f := by
              intro f hstep heq
              exact (Program.fault_of_step hhalted hstep).2 _ (congrArg Report.fault heq).symm
            have hbudget : isBudgetReport t.budgetReport = true := rfl
            simpa [hbudget] using hne
          · have hne := (Program.fault_of_step hhalted hstep).2
            have hbudget : isBudgetReport (t.program.report t.last f) = false := by
              unfold isBudgetReport
              split
              · next budget hfault => exact absurd hfault (hne budget)
              · rfl
            have hreport : t.program.report t.last f ≠ t.budgetReport := fun heq =>
              hne _ (congrArg Report.fault heq)
            simp [hbudget, hreport, hstep]

/-- A move forward that stays where it is meets an error, unless the machine has
halted. -/
theorem nextError_eq_none_iff (hp : t.program.WellFormed) (ht : t.Valid)
    (h : t.next.2 = false) : t.nextError = none ↔ t.last.isHalted = true := by
  have hforward := forward_next t
  unfold nextError
  rw [h] at hforward ⊢
  rw [Bool.false_or]
  generalize t.next.1 = u at hforward ⊢
  cases hforward with
  | halted hend hhalted => simp [hhalted]
  | again hend hrunning herror => simp [hrunning, herror]
  | exhausted hend hrunning | failed hend hrunning => simp [hrunning]
  | stuck hend hrunning hstep => exact absurd hstep (Program.step_ne_stuck hp ht.reachable_last)

/-- A move forward that stays where it is leaves cursor and history alone. -/
theorem Forward.of_stay (h : Forward t u false) : u.cursor = t.cursor ∧ u.history = t.history := by
  cases h with
  | halted | again | exhausted | failed | stuck => exact ⟨rfl, rfl⟩

/-- A move forward goes to the next state of the history, or to a new one at its
end. -/
theorem Forward.of_move (h : Forward t u true) :
    u.cursor = t.cursor + 1 ∧
      (u.history = t.history ∨ t.cursor + 1 = t.size ∧ ∃ s, u.history = t.history.push s) := by
  cases h with
  | retrace => exact ⟨rfl, .inl rfl⟩
  | advance hend => exact ⟨rfl, .inr ⟨hend, _, rfl⟩⟩

/-- A move back undoes a move forward on the cursor. -/
theorem prev_of_cursor_eq (h : u.cursor = t.cursor + 1) :
    u.prev.2 = true ∧ u.prev.1.cursor = t.cursor := by
  have hne : u.cursor ≠ 0 := by omega
  unfold prev
  rw [if_neg hne]
  refine ⟨rfl, ?_⟩
  change u.cursor - 1 = t.cursor
  omega

/-- **Navigation**: whatever the moves from the start, the history begins with
the initial state, each state follows from the one before it, only the last can
be halted, and there are no more steps than the budget allows.  Later moves
extend the history and keep the error; the error is that the budget is spent, or
that of a step from the last state, which has not halted.  A move forward that
stays changes neither cursor nor history and meets an error exactly if the
machine has not halted; one that moves goes on by one state, which is new only
at the end of the history, and a move back undoes it.  The status says what the
last state and the error say. -/
theorem navigation_consistent {source text : String} {p : Program}
    (hp : Program.assemble source text = .ok p) (budget : Int) (ms : List Move)
    (ht : (start p budget).moves ms = t) :
    t.program = p ∧ t.budget = budget ∧
    t.history[0]? = some p.initial ∧
    (∀ (i : Nat) (s s' : State), t.history[i]? = some s → t.history[i + 1]? = some s' →
      p.step s = .ok s') ∧
    t.cursor < t.size ∧
    (∀ (i : Nat) (s : State), t.history[i]? = some s → s.isHalted = true → i + 1 = t.size) ∧
    (t.steps : Int) ≤ max budget 0 ∧
    (∀ ms', t.history.toList <+: (t.moves ms').history.toList ∧
      ∀ r, t.error = some r → (t.moves ms').error = some r) ∧
    (∀ r, t.error = some r → t.last.isHalted = false ∧ r.fault ≠ .alreadyHalted ∧
      ((r = t.budgetReport ∧ (t.steps : Int) = max budget 0) ∨
        ∃ f, p.step t.last = .error (.fault f) ∧ r = p.report t.last f)) ∧
    (t.next.2 = false → t.next.1.cursor = t.cursor ∧ t.next.1.history = t.history ∧
      (t.nextError = none ↔ t.last.isHalted = true)) ∧
    (t.next.2 = true → t.next.1.cursor = t.cursor + 1 ∧
      (t.next.1.history = t.history ∨
        t.cursor + 1 = t.size ∧ ∃ s, t.next.1.history = t.history.push s) ∧
      t.next.1.prev.2 = true ∧ t.next.1.prev.1.cursor = t.cursor) ∧
    (t.status = .halted ↔ t.last.isHalted = true) ∧
    (t.status = .aborted ↔ t.error = some t.budgetReport) ∧
    (t.status = .failed ↔ ∃ f, p.step t.last = .error (.fault f) ∧
      t.error = some (p.report t.last f)) ∧
    (t.status = .running ↔ t.last.isHalted = false ∧ t.error = none) := by
  have hvalid := valid_moves p budget ms
  have hextends := extends_moves (start p budget) ms
  rw [ht] at hvalid hextends
  have hprogram : t.program = p := hextends.program
  have hbudget : t.budget = budget := hextends.budget
  have hwf := Program.wellFormed_of_assemble hp
  rw [← hprogram] at hwf
  subst hprogram hbudget
  have hsize := t.size_eq
  have hle := hvalid.steps_le
  have hforward := forward_next t
  refine ⟨rfl, rfl, hvalid.initial, fun _ _ _ => hvalid.step, t.cursor_lt, fun i s hs hhalted => ?_,
    by omega, fun ms' => ⟨(extends_moves t ms').history, (extends_moves t ms').error⟩,
    fun r hr => ?_, fun hstay => ?_, fun hmove => ?_, hvalid.status_iff⟩
  · rw [hvalid.eq_steps_of_isHalted hs hhalted]
    exact hsize.symm
  · refine ⟨(hvalid.error r hr).1, hvalid.fault_ne_alreadyHalted hr, ?_⟩
    obtain ⟨hreport, hsteps⟩ | ⟨_, hstep⟩ := (hvalid.error r hr).2
    · exact .inl ⟨hreport, by omega⟩
    · exact .inr hstep
  · rw [hstay] at hforward
    obtain ⟨hcursor, hhistory⟩ := hforward.of_stay
    exact ⟨hcursor, hhistory, nextError_eq_none_iff hwf hvalid hstay⟩
  · rw [hmove] at hforward
    obtain ⟨hcursor, hhistory⟩ := hforward.of_move
    exact ⟨hcursor, hhistory, prev_of_cursor_eq hcursor⟩

/-- With a budget of two steps, a run of `twoCalls` is aborted, and stays so after
a move back. -/
theorem navigation_consistent_twoCalls :
    ∃ t, (start .twoCalls 2).moves [.next, .prev, .run, .prev] = t ∧ t.cursor = 1 ∧
      t.steps = 2 ∧ t.error = some t.budgetReport ∧ t.status = .aborted ∧
      t.last.isHalted = false ∧ t.history[0]? = some Program.twoCalls.initial ∧
      t.next.2 = true ∧ t.next.1.cursor = 2 ∧ t.next.1.prev.1.cursor = 1 := by
  generalize ht : (start .twoCalls 2).moves [.next, .prev, .run, .prev] = t
  have hfacts : t.cursor = 1 ∧ t.steps = 2 ∧ t.error = some t.budgetReport ∧ t.next.2 = true := by
    rw [← ht]
    decide +kernel
  obtain ⟨hcursor, hsteps, hr, hmoves⟩ := hfacts
  obtain ⟨_, _, hinitial, _, _, _, _, _, herror, _, hmove, _, haborted, _⟩ :=
    navigation_consistent Program.assemble_twoCallsText 2 _ ht
  obtain ⟨hforward, _, _, hback⟩ := hmove hmoves
  rw [hcursor] at hforward hback
  exact ⟨t, rfl, hcursor, hsteps, hr, haborted.mpr hr, (herror _ hr).1, hinitial, hmoves,
    hforward, hback⟩

end Trace

end SecdMachine
