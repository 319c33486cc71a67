import SecdMachine.Proofs.Rules

/-!
# SecdMachine.Proofs.Run

Runs of the machine: the state after a number of steps (`Program.after`), the
states that a run from the start goes through (`Program.Reachable`), the
operations that it executes on the way (`Program.executed`), and how it ends
(`Program.HaltsWith`, `Program.FailsWith`), if it does (`Program.RunsForever`).

What holds at the start and is kept by every step holds of every reachable
state (`reachable_induction`), so that an invariant needs its two cases only.
-/

namespace SecdMachine

namespace Program

variable {p : Program} {s t u : State} {n : Nat}

/-! ## the state after a number of steps -/

/-- The state after `n` steps from a state, or why one of them is not made. -/
def after (p : Program) : Nat → State → Except Stop State
  | 0, s => .ok s
  | n + 1, s =>
    match p.after n s with
    | .ok t => p.step t
    | .error e => .error e

@[simp] theorem after_zero (p : Program) (s : State) : p.after 0 s = .ok s := rfl

/-- One more step at the end of a run. -/
theorem after_succ (h : p.after n s = .ok t) : p.after (n + 1) s = p.step t := by
  simp only [after, h]

/-- The last of several steps is made from where the others lead. -/
theorem after_succ_eq_ok_iff :
    p.after (n + 1) s = .ok u ↔ ∃ t, p.after n s = .ok t ∧ p.step t = .ok u := by
  cases h : p.after n s with
  | error e => simp [after, h]
  | ok t => simp [after, h]

/-- A run goes on from where it has come to. -/
theorem after_add (p : Program) (m n : Nat) (s : State) :
    p.after (m + n) s = (p.after m s).bind (p.after n) := by
  induction n with
  | zero => cases p.after m s <;> rfl
  | succ n ih =>
      rw [← Nat.add_assoc, after, ih]
      cases p.after m s <;> rfl

/-- A run goes on from the state that it has reached. -/
theorem after_add_of_ok {m : Nat} (h : p.after m s = .ok t) :
    p.after (m + n) s = p.after n t := by
  rw [after_add, h]
  rfl

/-! ## reachable states -/

/-- The states that a run from the start goes through. -/
def Reachable (p : Program) (s : State) : Prop :=
  ∃ n, p.after n p.initial = .ok s

/-- A step leads from reachable states to reachable ones. -/
theorem Reachable.step (hs : p.Reachable s) (h : p.step s = .ok t) : p.Reachable t := by
  obtain ⟨n, hn⟩ := hs
  exact ⟨n + 1, by rw [after_succ hn, h]⟩

/-- What holds of the initial state and is kept by the steps between
reachable states holds of every reachable state. -/
theorem reachable_induction {motive : State → Prop} (initial : motive p.initial)
    (step : ∀ s t, p.Reachable s → motive s → p.step s = .ok t → motive t)
    (h : p.Reachable s) : motive s := by
  obtain ⟨n, hn⟩ := h
  induction n generalizing s with
  | zero =>
      cases hn
      exact initial
  | succ n ih =>
      obtain ⟨r, hr, hstep⟩ := after_succ_eq_ok_iff.mp hn
      exact step r s ⟨n, hr⟩ (ih hr) hstep

/-! ## executed operations -/

/-- The operations that the first `n` steps from a state execute, in order. -/
def executed (p : Program) : Nat → State → List Operation
  | 0, _ => []
  | n + 1, s =>
    p.executed n s ++
      match p.after n s with
      | .ok t => p.code[t.pc]?.toList
      | .error _ => []

/-- One more step executes the operation that the program counter is at. -/
theorem executed_succ {op : Operation} (h : p.after n s = .ok t)
    (hop : p.code[t.pc]? = some op) : p.executed (n + 1) s = p.executed n s ++ [op] := by
  simp only [executed, h, hop, Option.toList]

/-! ## how runs end -/

/-- A run from the start halts with a value. -/
def HaltsWith (p : Program) (v : Value) : Prop :=
  ∃ n s, p.after n p.initial = .ok s ∧ s.result = some v

/-- A run from the start comes to a step that fails with the fault of an
identifier. -/
def FailsWith (p : Program) (id : String) : Prop :=
  ∃ n s f, p.after n p.initial = .ok s ∧ p.step s = .error (.fault f) ∧ f.id = id

/-- A run from the start never ends. -/
def RunsForever (p : Program) : Prop :=
  ∀ n, ∃ s, p.after n p.initial = .ok s

/-- A program runs forever if no state that it reaches is one where it ends. -/
theorem runsForever_iff :
    p.RunsForever ↔ ∀ n s e, p.after n p.initial = .ok s → p.step s ≠ .error e := by
  constructor
  · intro h n s e hs hstep
    obtain ⟨t, ht⟩ := h (n + 1)
    rw [after_succ hs, hstep] at ht
    cases ht
  · intro h n
    induction n with
    | zero => exact ⟨p.initial, rfl⟩
    | succ n ih =>
        obtain ⟨s, hs⟩ := ih
        rw [after_succ hs]
        cases hstep : p.step s with
        | ok t => exact ⟨t, rfl⟩
        | error e => exact absurd hstep (h n s e hs)

end Program

end SecdMachine
