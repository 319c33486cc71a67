import Mathlib.Data.List.Forall2
import SecdMachine.Proofs.Commands

/-!
# SecdMachine.Proofs.Batch

What a batch run shows, and where it ends.

The loop of a batch is not the loop of a run: it shows the state under the cursor
in each round, and stops at a halted state instead of trying to go on from there.
`Console.Batches` is this loop without a bound on its rounds, and the bound that
`Console.batch` computes is enough for it (`batches_batch`).

It ends where a run ends (`Batches.finished`), so that the two leave the same
trace behind (`batch_trace`).  Each round moves the cursor by one, so what is
shown are the states from the cursor on, up to the last one that has not halted
(`Batches.exists_lastShown`).  A batch that begins at a halted state shows that
one state all the same.
-/

namespace SecdMachine

namespace Console

variable {p : Palette} {t u : Trace} {bs : List String} {c : Console}

/-! ## the loop -/

/-- `Batches p t u bs`: showing the state under the cursor of `t` and moving
forward, until the cursor stays or comes to a halted state, ends in `u` and shows
`bs` on the way. -/
inductive Batches (p : Palette) : Trace → Trace → List String → Prop where
  | stay {t u : Trace} (h : t.next = (u, false)) : Batches p t u [stateBlock p t]
  | halt {t u : Trace} (h : t.next = (u, true)) (hhalted : u.current.isHalted = true) :
      Batches p t u [stateBlock p t]
  | move {t u v : Trace} {bs : List String} (h : t.next = (u, true))
      (hrunning : u.current.isHalted = false) (rest : Batches p u v bs) :
      Batches p t v (stateBlock p t :: bs)

/-- With enough rounds, the loop ends by itself. -/
theorem batches_batchFor {n : Nat} (hn : t.remaining < n) :
    Batches p t (batchFor p n t).1 (batchFor p n t).2 := by
  induction n generalizing t with
  | zero => omega
  | succ n ih =>
      have hforward := Trace.forward_next t
      rw [batchFor]
      cases hnext : t.next with
      | mk u moved =>
          rw [hnext] at hforward
          cases moved with
          | false => exact .stay hnext
          | true =>
              cases hhalted : u.current.isHalted with
              | true => simpa [hhalted] using .halt hnext hhalted
              | false =>
                  have hless : u.remaining < t.remaining := Trace.remaining_of_forward hforward
                  simpa [hhalted] using .move hnext hhalted (ih (by omega))

/-- **Batches end**: the loop of a batch comes to its end, which is what `batch`
gives, with what it shows and then how the run ended. -/
theorem batches_batch (c : Console) :
    ∃ u bs, Batches c.palette c.trace u bs ∧
      c.batch = ({ c with trace := u }, Text.concat bs ++ ending c.palette u) :=
  ⟨_, _, batches_batchFor (Nat.lt_succ_self c.trace.remaining), rfl⟩

/-! ## where the loop ends -/

theorem forward_of_next {moved : Bool} (h : t.next = (u, moved)) : t.Forward u moved := by
  have hforward := Trace.forward_next t
  rw [h] at hforward
  exact hforward

/-- A batch stops early only where a run would stop in the next round. -/
theorem Batches.finished (h : Batches p t u bs) (hp : t.program.WellFormed) (ht : t.Valid) :
    u.Finished ∧ t.Extends u := by
  induction h with
  | @stay t u h =>
      have hforward := forward_of_next h
      exact ⟨hforward.finished hp ht, hforward.extends⟩
  | @halt t u h hhalted =>
      -- The batch stops here; a run would try once more, and stay.
      have hforward := forward_of_next h
      exact ⟨(hforward.valid ht).finished_of_current hhalted, hforward.extends⟩
  | @move t u v bs h hrunning rest ih =>
      have hforward := forward_of_next h
      have hprogram : u.program = t.program := hforward.extends.program
      obtain ⟨hfinished, hextends⟩ := ih (hprogram ▸ hp) (hforward.valid ht)
      exact ⟨hfinished, hforward.extends.trans hextends⟩

/-- A batch ends where a run ends. -/
theorem Batches.eq_run (h : Batches p t u bs) (hp : t.program.WellFormed) (ht : t.Valid) :
    u = t.run := by
  obtain ⟨hfinished, hextends⟩ := h.finished hp ht
  refine ((Trace.completes_run t).finished hp ht).eq hfinished ?_ ?_
  · rw [Trace.run_program]
    exact hextends.program
  · rw [Trace.run_budget]
    exact hextends.budget

/-- **Batches** end where runs end. -/
theorem batch_trace (hp : c.trace.program.WellFormed) (ht : c.trace.Valid) :
    c.batch.1.trace = c.trace.run := by
  obtain ⟨u, bs, hbatches, hbatch⟩ := c.batches_batch
  rw [hbatch]
  exact hbatches.eq_run hp ht

/-! ## what the loop shows -/

/-- A state of a program under its number. -/
def numbered (p : Palette) (program : Program) (i : Nat) (s : State) : String :=
  "\n" ++ Numeral.natural i ++ Banner.rule ++ "\n\n" ++ s.describe p program

/-- `Shows p t i n bs`: the blocks `bs` are those of the `n` states of the history
of `t` from the state `i` on, each once and in order. -/
def Shows (p : Palette) (t : Trace) (i n : Nat) (bs : List String) : Prop :=
  List.Forall₂ (fun i b => ∃ s, t.history[i]? = some s ∧ b = numbered p t.program i s)
    (List.range' i n) bs

/-- `LastShown t i m`: the state `m` is the last one that a batch shows if it begins
at the state `i`: the last of the history that has not halted or, if the state `i`
has halted, that one. -/
inductive LastShown (t : Trace) (i : Nat) : Nat → Prop where
  | running {m : Nat} {r s : State} (hr : t.history[i]? = some r) (hrunning : r.isHalted = false)
      (hs : t.history[m]? = some s) (hlast : s.isHalted = false)
      (hlater : ∀ n s', m < n → t.history[n]? = some s' → s'.isHalted = true) : LastShown t i m
  | halted {r : State} (hr : t.history[i]? = some r) (hhalted : r.isHalted = true) :
      LastShown t i i

/-- A state with one after it has not halted. -/
theorem running_of_lt_steps (ht : t.Valid) {i : Nat} {s : State} (hs : t.history[i]? = some s)
    (hi : i < t.steps) : s.isHalted = false :=
  Bool.eq_false_iff.mpr fun hhalted =>
    absurd (ht.eq_steps_of_isHalted hs hhalted) (Nat.ne_of_lt hi)

/-- The state under the cursor stays in the history. -/
theorem getElem?_of_extends (h : t.Extends u) : u.history[t.cursor]? = some t.current := by
  have hcurrent : t.history[t.cursor]? = some t.current := Array.getElem?_eq_getElem t.cursor_lt
  rw [← Array.getElem?_toList] at hcurrent ⊢
  have hlt := (List.getElem?_eq_some_iff.mp hcurrent).1
  obtain ⟨later, hlater⟩ := h.history
  rw [← hlater, List.getElem?_append_left hlt, hcurrent]

/-- The block of the state under the cursor comes before those of the states after
it. -/
theorem Shows.cons {n : Nat} (h : t.Extends u) (rest : Shows p u (t.cursor + 1) n bs) :
    Shows p u t.cursor (n + 1) (stateBlock p t :: bs) := by
  rw [Shows, List.range'_succ]
  refine .cons ⟨t.current, getElem?_of_extends h, ?_⟩ rest
  rw [h.program]
  rfl

/-! ## the last state shown -/

/-- At the end of the history there is nothing more to show. -/
theorem lastShown_of_eq_steps {i : Nat} {s : State} (hs : u.history[i]? = some s)
    (hend : i = u.steps) : LastShown u i i := by
  cases hhalted : s.isHalted with
  | true => exact .halted hs hhalted
  | false =>
      refine .running hs hhalted hs hhalted fun n s' hn hs' => ?_
      have hlt := (Array.getElem?_eq_some_iff.mp hs').1
      have hsize := u.size_eq
      omega

/-- Before a halted state, there is nothing more to show either. -/
theorem lastShown_of_isHalted (hu : u.Valid) {i : Nat} {s : State} (hs : u.history[i]? = some s)
    (hcursor : u.cursor = i + 1) (hhalted : u.current.isHalted = true) : LastShown u i i := by
  have hend := (hu.finished_of_current hhalted).cursor
  have hrunning := running_of_lt_steps hu hs (by omega)
  refine .running hs hrunning hs hrunning fun n s' hn hs' => ?_
  have hlt := (Array.getElem?_eq_some_iff.mp hs').1
  have hsize := u.size_eq
  have hcurrent : u.history[u.cursor]? = some u.current := Array.getElem?_eq_getElem u.cursor_lt
  have heq : n = u.cursor := by omega
  rw [heq, hcurrent] at hs'
  exact Option.some.inj hs' ▸ hhalted

/-- Before a state that has not halted, the last state shown is the same. -/
theorem LastShown.of_succ (hu : u.Valid) {i m : Nat} {r s : State} (h : LastShown u (i + 1) m)
    (hr : u.history[i]? = some r) (hs : u.history[i + 1]? = some s)
    (hrunning : s.isHalted = false) : LastShown u i m := by
  cases h with
  | halted hs' hhalted =>
      cases hs.symm.trans hs'
      rw [hrunning] at hhalted
      contradiction
  | running _ _ hm hlast hlater =>
      have hlt := (Array.getElem?_eq_some_iff.mp hs).1
      have hsize := u.size_eq
      exact .running hr (running_of_lt_steps hu hr (by omega)) hm hlast hlater

/-- If the batch does not begin at the end of the history, the last state shown is
the last one of the history, or the one before it if that has halted. -/
theorem LastShown.add_one_eq (ht : t.Valid) {i m : Nat} (h : LastShown t i m)
    (hi : i < t.steps) : m + 1 = if t.last.isHalted then t.steps else t.steps + 1 := by
  cases h with
  | halted hr hhalted =>
      rw [running_of_lt_steps ht hr hi] at hhalted
      contradiction
  | running _ _ hm hrunning hlater =>
      have hlt := (Array.getElem?_eq_some_iff.mp hm).1
      have hsize := t.size_eq
      split
      · next hlast =>
          have hne : m ≠ t.steps := by
            rintro rfl
            rw [t.getElem?_steps] at hm
            rw [Option.some.inj hm, hrunning] at hlast
            contradiction
          refine Nat.le_antisymm (by omega) (Nat.le_of_not_lt fun hbefore => ?_)
          have hnext := Array.getElem?_eq_getElem (show m + 1 < t.history.size by omega)
          have hhalted := hlater (m + 1) _ (Nat.lt_succ_self m) hnext
          rw [running_of_lt_steps ht hnext hbefore] at hhalted
          contradiction
      · next hlast =>
          refine Nat.le_antisymm (by omega) (Nat.le_of_not_lt fun hbefore => hlast ?_)
          exact hlater t.steps t.last (by omega) t.getElem?_steps

/-- **What a batch shows**: each state once, in order, from the cursor on. -/
theorem Batches.exists_lastShown (h : Batches p t u bs) (hp : t.program.WellFormed)
    (ht : t.Valid) :
    ∃ m, LastShown u t.cursor m ∧ t.cursor ≤ m ∧ Shows p u t.cursor (m + 1 - t.cursor) bs := by
  induction h with
  | @stay t u h =>
      have hforward := forward_of_next h
      have hend := (hforward.finished hp ht).cursor
      rw [hforward.of_stay.1] at hend
      refine ⟨t.cursor, lastShown_of_eq_steps (getElem?_of_extends hforward.extends) hend,
        Nat.le_refl _, ?_⟩
      rw [Nat.add_sub_cancel_left]
      exact .cons hforward.extends .nil
  | @halt t u h hhalted =>
      have hforward := forward_of_next h
      refine ⟨t.cursor, lastShown_of_isHalted (hforward.valid ht)
        (getElem?_of_extends hforward.extends) hforward.of_move.1 hhalted, Nat.le_refl _, ?_⟩
      rw [Nat.add_sub_cancel_left]
      exact .cons hforward.extends .nil
  | @move t u v bs h hrunning rest ih =>
      have hforward := forward_of_next h
      have hcursor := hforward.of_move.1
      have hvalid := hforward.valid ht
      have hprogram : u.program = t.program := hforward.extends.program
      obtain ⟨hfinished, hrest⟩ := rest.finished (hprogram ▸ hp) hvalid
      have hextends := hforward.extends.trans hrest
      obtain ⟨m, hlast, hle, hshows⟩ := ih (hprogram ▸ hp) hvalid
      have hnext := getElem?_of_extends hrest
      rw [hcursor] at hlast hle hshows hnext
      refine ⟨m, hlast.of_succ hfinished.valid (getElem?_of_extends hextends) hnext hrunning,
        by omega, ?_⟩
      have hcount : m + 1 - t.cursor = m + 1 - (t.cursor + 1) + 1 := by omega
      rw [hcount]
      exact hshows.cons hextends

/-! ## how a batch ends -/

/-- What a batch says at the end: the result, if the machine has halted, and
otherwise the error, and that the run was given up. -/
theorem ending_of_finished (p : Palette) (h : t.Finished) :
    (t.last.isHalted = true ∧ ending p t = t.last.describeResult ++ "\n") ∨
    (t.last.isHalted = false ∧ ∃ r, t.error = some r ∧
      ending p t = describeFailure p r ++ "Abort.\n") := by
  have hstatus : t.status = t.outcome.status := rfl
  have herror : t.error = t.outcome.error := rfl
  unfold ending
  obtain ⟨hlast, houtcome⟩ | ⟨hlast, _, houtcome⟩ | ⟨hlast, _, f, _, houtcome⟩ := h.cases
  · rw [hstatus, houtcome]
    exact .inl ⟨hlast, rfl⟩
  · rw [hstatus, herror, houtcome]
    exact .inr ⟨hlast, _, rfl, rfl⟩
  · rw [hstatus, herror, houtcome]
    exact .inr ⟨hlast, _, rfl, rfl⟩

/-- **Batch runs**: whatever was done with the console of an assembled program
before, its batch comes to an end and leaves the trace as a run does, with the same
outcome and nothing else changed.  It shows each state under its number, once and in
order, from the cursor on up to the last one that has not halted, or the one that it
began at if that has halted; and then the result, if the machine has halted, and
otherwise the error, and that the run was given up. -/
theorem batch_shows_states {source text : String} {program : Program}
    (hp : Program.assemble source text = .ok program) (palette : Palette) (clearScreen : Bool)
    (budget : Int) (as : List Action)
    (hc : (start palette clearScreen program budget).session as = c) :
    ∃ bs m, Batches palette c.trace c.trace.run bs ∧
      c.batch = ({ c with trace := c.trace.run },
        Text.concat bs ++ ending palette c.trace.run) ∧
      c.batch.1.trace.outcome = c.trace.run.outcome ∧
      LastShown c.trace.run c.trace.cursor m ∧ c.trace.cursor ≤ m ∧
      Shows palette c.trace.run c.trace.cursor (m + 1 - c.trace.cursor) bs ∧
      ((c.trace.run.last.isHalted = true ∧
          ending palette c.trace.run = c.trace.run.last.describeResult ++ "\n") ∨
        (c.trace.run.last.isHalted = false ∧ ∃ r, c.trace.run.error = some r ∧
          ending palette c.trace.run = describeFailure palette r ++ "Abort.\n")) := by
  have hsession := session_eq (start palette clearScreen program budget) as
  rw [hc] at hsession
  obtain rfl : palette = c.palette := (congrArg Console.palette hsession).symm
  have htrace : c.trace = (Trace.start program budget).moves (as.filterMap Action.move?) :=
    congrArg Console.trace hsession
  have hvalid : c.trace.Valid := htrace ▸ Trace.valid_moves program budget _
  have hwf : c.trace.program.WellFormed := by
    rw [htrace, Trace.moves_program]
    exact Program.wellFormed_of_assemble hp
  obtain ⟨u, bs, hbatches, hbatch⟩ := c.batches_batch
  obtain ⟨m, hlast, hle, hshows⟩ := hbatches.exists_lastShown hwf hvalid
  have hfinished := (hbatches.finished hwf hvalid).1
  obtain rfl := hbatches.eq_run hwf hvalid
  exact ⟨bs, m, hbatches, hbatch, by rw [hbatch], hlast, hle, hshows,
    ending_of_finished c.palette hfinished⟩

/-- A batch over `twoCalls` that begins two states before the end, to which the
machine has been run before: it shows the states 15 and 16, and then the result of
state 17. -/
theorem batch_shows_states_twoCalls :
    ∃ c bs, (start .ansi false .twoCalls 17).session [.enter "r", .enter "p", .enter "p"] = c ∧
      Batches .ansi c.trace c.trace.run bs ∧ LastShown c.trace.run 15 16 ∧
      Shows .ansi c.trace.run 15 2 bs ∧
      c.batch = ({ c with trace := c.trace.run },
        Text.concat bs ++ (c.trace.run.last.describeResult ++ "\n")) := by
  generalize hc : (start .ansi false .twoCalls 17).session
    [.enter "r", .enter "p", .enter "p"] = c
  obtain ⟨bs, m, hbatches, hbatch, _, hlast, hle, hshows, hend⟩ :=
    batch_shows_states Program.assemble_twoCallsText .ansi false 17 _ hc
  have hsession := session_eq (start .ansi false .twoCalls 17)
    [.enter "r", .enter "p", .enter "p"]
  rw [hc] at hsession
  have hvalid : c.trace.run.Valid := by
    rw [congrArg Console.trace hsession]
    exact (Trace.finished_run (Program.wellFormed_of_assemble Program.assemble_twoCallsText)
      17 _).valid
  have hfacts : c.trace.cursor = 15 ∧ c.trace.run.steps = 17 ∧
      c.trace.run.last.isHalted = true := by
    rw [← hc]
    decide +kernel
  obtain ⟨hcursor, hsteps, hhalted⟩ := hfacts
  have hm := hlast.add_one_eq hvalid (by omega)
  rw [if_pos hhalted, hsteps] at hm
  obtain rfl : m = 16 := by omega
  rw [hcursor] at hlast hshows
  obtain ⟨_, hresult⟩ | ⟨hrunning, _⟩ := hend
  · exact ⟨c, bs, rfl, hbatches, hlast, hshows, by rw [hbatch, hresult]⟩
  · rw [hhalted] at hrunning
    contradiction

end Console

end SecdMachine
