import SecdMachine.Proofs.Calls

/-!
# SecdMachine.Proofs.Framing

The frame rule of the machine: whatever lies below the values that a run gets to,
it is left as it is and changes nothing.

An operation looks no deeper into the stack than its arity.  What it does it also
does with more values at the bottom (`Operation.Executes.under`), and what stops it
also stops it then, unless it found too few values (`Operation.Stops.under`).  The
same holds of a step, and by induction on their number of the steps of a run
(`Program.after_under`), through calls, returns and the end of the run alike.
-/

namespace SecdMachine

namespace Operation

variable {constants : List Value} {op : Operation} {s : State} {e : Stop}

/-- **Frame rule**, for what stops an operation: it stops it with more values at the
bottom of the stack too, unless there were too few. -/
theorem Stops.under (bottom : List Value) (h : op.Stops constants s e)
    (henough : op.arity ≤ s.stack.length) : op.Stops constants (s.under bottom) e := by
  have hcons : ∀ {stack : List Value}, s.stack = stack →
      (s.under bottom).stack = stack ++ bottom := by
    intro stack hstack
    rw [State.stack_under, hstack]
  cases h with
  | underflow hlength => exact absurd henough (Nat.not_le.mpr hlength)
  | noConstant hindex => exact .noConstant hindex
  | accessRange hposition => exact .accessRange hposition
  | focusType hstack hv => exact .focusType (hcons hstack) hv
  | focusRange hstack hindex => exact .focusRange (hcons hstack) hindex
  | applyType hstack hfn => exact .applyType (hcons hstack) hfn
  | applynType hstack hfn => exact .applynType (hcons hstack) hfn
  | noEntry hstack hindex => exact .noEntry (hcons hstack) hindex
  | returnType hstack hframe => exact .returnType (hcons hstack) hframe
  | arithmeticType hstack hint => exact .arithmeticType (hcons hstack) hint
  | overflow hstack hfits => exact .overflow (hcons hstack) hfits
  | equalityType hstack hscalar => exact .equalityType (hcons hstack) hscalar
  | branchType hstack hv => exact .branchType (hcons hstack) hv
  | unknown _ code => exact .unknown (s.under bottom) code

end Operation

/-- The stack was too short for an operation. -/
def Stop.IsUnderflow (e : Stop) : Prop :=
  ∃ f, e = .fault f ∧ f.id = "vm/underflow"

namespace Program

variable {p : Program} {s t u : State} {e : Stop} {n : Nat}

/-! ## steps -/

theorem step_under (bottom : List Value) (h : p.step s = .ok t) :
    p.step (s.under bottom) = .ok (t.under bottom) := by
  obtain ⟨hrunning, op, hop, hexec⟩ := step_eq_ok_iff.mp h
  exact step_eq_ok_iff.mpr ⟨hrunning, op, hop, hexec.under bottom⟩

/-- A step that is not made for want of values is the only one that more values at the
bottom of the stack can help. -/
theorem step_under_error (bottom : List Value) (h : p.step s = .error e)
    (hnot : ¬ e.IsUnderflow) : p.step (s.under bottom) = .error e := by
  obtain ⟨hhalted, rfl⟩ | ⟨hrunning, hpc, rfl⟩ | ⟨hrunning, op, hop, hstops⟩ :=
    step_eq_error_cases h
  · simp only [step, State.isHalted_under, hhalted, if_true]
  · have hnone : p.code[s.pc]? = none := List.getElem?_eq_none hpc
    simp only [step, State.isHalted_under, hrunning, State.pc_under, hnone, Bool.false_eq_true,
      if_false]
  · have henough : op.arity ≤ s.stack.length := by
      refine Nat.le_of_not_lt fun hlt => hnot ?_
      exact ⟨_, hstops.eq_underflow_iff.mpr hlt, rfl⟩
    have hstops' := hstops.under bottom henough
    have hstep : p.step (s.under bottom) = op.execute p.constants (s.under bottom) :=
      step_eq_execute hrunning hop
    rw [hstep, Operation.execute_of_stops hstops']

/-! ## runs -/

/-- **Run case**: the steps of a run are made with more values at the bottom of the
stack. -/
theorem after_under (bottom : List Value) (h : p.after n s = .ok t) :
    p.after n (s.under bottom) = .ok (t.under bottom) := by
  induction n generalizing t with
  | zero =>
      cases h
      rfl
  | succ n ih =>
      obtain ⟨r, hr, hstep⟩ := after_succ_eq_ok_iff.mp h
      rw [after_succ (ih hr), step_under bottom hstep]

/-- **Converse**: a run that is made with more values at the bottom of the stack is
made without them, unless it underflows on the way. -/
theorem after_of_under {bottom : List Value} (h : p.after n (s.under bottom) = .ok u) :
    (∃ t, p.after n s = .ok t ∧ u = t.under bottom) ∨
    ∃ m t e, m < n ∧ p.after m s = .ok t ∧ p.step t = .error e ∧ e.IsUnderflow := by
  induction n generalizing u with
  | zero =>
      cases h
      exact .inl ⟨s, rfl, rfl⟩
  | succ n ih =>
      obtain ⟨r, hr, hstep⟩ := after_succ_eq_ok_iff.mp h
      obtain ⟨t, ht, rfl⟩ | ⟨m, t, e, hm, hunderflow⟩ := ih hr
      · cases ht' : p.step t with
        | ok t' =>
            rw [step_under bottom ht'] at hstep
            refine .inl ⟨t', ?_, (Except.ok.inj hstep).symm⟩
            rw [after_succ ht, ht']
        | error e =>
            refine .inr ⟨n, t, e, Nat.lt_succ_self n, ht, ht', ?_⟩
            refine Classical.byContradiction fun hnot => ?_
            rw [step_under_error bottom ht' hnot] at hstep
            cases hstep
      · exact .inr ⟨m, t, e, Nat.lt_succ_of_lt hm, hunderflow⟩

/-- **Frame rule**: whatever lies under the stack of a state, any number of steps that
succeed from there succeed, and lead to the same program counter, environment and
result, halted or not, with that same bottom under the stack.  A step after them that
fails for another reason than underflow fails with the same fault, and its report
differs in nothing but the bottom of the stack that it shows.  The other way round,
steps that succeed with something under the stack succeed without it, unless one of
them underflows. -/
theorem run_framed (p : Program) (s : State) (bottom : List Value) (n : Nat) :
    (∀ t, p.after n s = .ok t →
      ∃ u, p.after n (s.under bottom) = .ok u ∧ u.pc = t.pc ∧ u.env = t.env ∧
        u.isHalted = t.isHalted ∧ u.result = t.result ∧ u.stack = t.stack ++ bottom) ∧
    (∀ t f, p.after n s = .ok t → p.step t = .error (.fault f) → f.id ≠ "vm/underflow" →
      ∃ u, p.after n (s.under bottom) = .ok u ∧ p.step u = .error (.fault f) ∧
        p.report u f = { p.report t f with stack := some (t.stack ++ bottom) }) ∧
    ∀ u, p.after n (s.under bottom) = .ok u →
      (∃ t, p.after n s = .ok t ∧ u = t.under bottom) ∨
      ∃ m t f, m < n ∧ p.after m s = .ok t ∧ p.step t = .error (.fault f) ∧
        f.id = "vm/underflow" := by
  refine ⟨fun t ht => ?_, fun t f ht hf hid => ?_, fun u hu => ?_⟩
  · exact ⟨t.under bottom, after_under bottom ht, rfl, rfl, rfl, rfl, rfl⟩
  · have hnot : ¬ Stop.IsUnderflow (.fault f) := by
      rintro ⟨g, hg, hunderflow⟩
      cases hg
      exact hid hunderflow
    exact ⟨t.under bottom, after_under bottom ht, step_under_error bottom hf hnot, rfl⟩
  · obtain hmade | ⟨m, t, _, hm, ht, hstep, f, rfl, hid⟩ := after_of_under hu
    · exact .inl hmade
    · exact .inr ⟨m, t, f, hm, ht, hstep, hid⟩

/-- The inner call of `twoCalls`, made over an integer: with a boolean below that too,
it comes back all the same, and then `applyn` finds the integer where it expects a
function. -/
theorem run_framed_twoCalls :
    ∃ u, twoCalls.after 5
        (State.under ⟨7, [.int 9, .focused 1 [11] [], .int 5], [.frame [11] []], none⟩
          [.bool true]) = .ok u ∧
      u.pc = 9 ∧ u.stack = [.int 9, .int 5, .bool true] ∧
      twoCalls.step u = .error (.fault (.applynType "int")) := by
  obtain ⟨hruns, hfails, _⟩ := run_framed twoCalls
    ⟨7, [.int 9, .focused 1 [11] [], .int 5], [.frame [11] []], none⟩ [.bool true] 5
  obtain ⟨u, hu, hpc, _, _, _, hstack⟩ := hruns _ rfl
  obtain ⟨u', hu', hfault, _⟩ := hfails _ (.applynType "int") rfl rfl (by decide)
  obtain rfl : u = u' := Except.ok.inj (hu.symm.trans hu')
  exact ⟨u, hu, hpc, hstack, hfault⟩

end Program

end SecdMachine
