import SecdMachine.Proofs.Layout
import SecdMachine.Proofs.Run

/-!
# SecdMachine.Proofs.Calls

Calls and their callers.

A call leaves the caller's environment and a return address on the stack, in
one and the same stack with the operands of everything that is called from
there.  Nothing but the types of values keeps them apart, and this is enough:

* what an operation does, it does whatever lies below the values that it
  takes (`Executes.under`);
* an operation that reaches down into what a call has left fails, unless it
  is a return with exactly one value above it, or the end of the whole run
  (`Executes.under_callFrame`).

So the caller's part of the stack stays as it is until the call returns to
the caller (`call_isolated`), and what a call comes to is settled by the
function and its argument (`call_lexical`).
-/

namespace SecdMachine

/-! ## operations and the bottom of the stack -/

namespace Operation

variable {constants : List Value} {op : Operation} {s t u : State}

/-- **Frame rule**: what an operation does, it also does with more values at
the bottom of the stack. -/
theorem Executes.under (bottom : List Value) (h : op.Executes constants s t) :
    op.Executes constants (s.under bottom) (t.under bottom) := by
  have hcons : ∀ {stack : List Value}, s.stack = stack →
      (s.under bottom).stack = stack ++ bottom := by
    intro stack hstack
    rw [State.stack_under, hstack]
  cases h with
  | label => exact .label (s.under bottom)
  | const hv => exact .const hv
  | access hv => exact .access hv
  | closure _ entry => exact .closure (s.under bottom) entry
  | closures _ entries => exact .closures (s.under bottom) entries
  | focus hstack hindex => exact .focus (hcons hstack) hindex
  | @call _ _ u arg fn rest hstack hu =>
      have hunder : (u.under (s.callFrame rest)).under bottom =
          u.under ((s.under bottom).callFrame (rest ++ bottom)) := by
        simp [State.under, State.callFrame]
      rw [hunder]
      exact .call (hcons hstack) hu
  | ret hstack => exact .ret (hcons hstack)
  | arith hstack hfits => exact .arith (hcons hstack) hfits
  | eq hstack hl hr => exact .eq (hcons hstack) hl hr
  | brflTrue target hstack => exact .brflTrue target (hcons hstack)
  | brflFalse target hstack => exact .brflFalse target (hcons hstack)
  | br _ target => exact .br (s.under bottom) target
  | halt hstack => exact .halt (hcons hstack)

/-- Who takes one value off a stack that lies on what a call has left takes one
that lies above it, or the return address. -/
theorem top_of_append_callFrame {caller : State} {top rest vs : List Value} {v : Value}
    (h : top ++ caller.callFrame rest = v :: vs) :
    (top = [] ∧ v = .returnAddress (caller.pc + 1)) ∨
    ∃ top', top = v :: top' ∧ vs = top' ++ caller.callFrame rest := by
  cases List.append_eq_cons_iff.mp h with
  | inl hnil => exact .inl ⟨hnil.1, (List.cons.inj hnil.2).1.symm⟩
  | inr hcons => exact .inr hcons

/-- Who takes two values takes two that lie above it, or finds a part of it as
the second. -/
theorem second_of_append_callFrame {caller : State} {top rest vs : List Value} {v w : Value}
    (h : top ++ caller.callFrame rest = v :: w :: vs) :
    (w = .savedEnv caller.env ∨ top = [v] ∧ w = .returnAddress (caller.pc + 1)) ∨
    ∃ top', top = v :: w :: top' ∧ vs = top' ++ caller.callFrame rest := by
  cases List.append_eq_cons_iff.mp h with
  | inl hnil => exact .inl (.inl (List.cons.inj (List.cons.inj hnil.2).2).1.symm)
  | inr hcons =>
      obtain ⟨top', rfl, htop'⟩ := hcons
      obtain ⟨rfl, hw⟩ | ⟨top'', rfl, hvs⟩ := top_of_append_callFrame htop'.symm
      · exact .inl (.inr ⟨rfl, hw⟩)
      · exact .inr ⟨top'', rfl, hvs⟩

/-- An operation above what a call has left does not touch it, unless it is a
return with one value above it, or halts the machine right there. -/
theorem Executes.under_callFrame {caller : State} {rest : List Value}
    (h : op.Executes constants (u.under (caller.callFrame rest)) t) :
    (∃ u', op.Executes constants u u' ∧ t = u'.under (caller.callFrame rest)) ∨
    (op = .ret ∧ ∃ v, u.stack = [v] ∧ t = caller.advance (v :: rest) caller.env) ∨
    (op = .halt ∧ u.stack = [] ∧
      t = { u.under (caller.callFrame rest) with
            result := some (.returnAddress (caller.pc + 1)) }) := by
  cases h with
  | label => exact .inl ⟨_, .label u, rfl⟩
  | const hv => exact .inl ⟨_, .const hv, rfl⟩
  | access hv => exact .inl ⟨_, .access hv, rfl⟩
  | closure _ entry => exact .inl ⟨_, .closure u entry, rfl⟩
  | closures _ entries => exact .inl ⟨_, .closures u entries, rfl⟩
  | br _ target => exact .inl ⟨_, .br u target, rfl⟩
  | focus hstack hindex =>
      obtain ⟨_, hv⟩ | ⟨top, htop, rfl⟩ := top_of_append_callFrame hstack
      · cases hv
      · exact .inl ⟨_, .focus htop hindex, rfl⟩
  | brflTrue target hstack =>
      obtain ⟨_, hv⟩ | ⟨top, htop, rfl⟩ := top_of_append_callFrame hstack
      · cases hv
      · exact .inl ⟨_, .brflTrue target htop, rfl⟩
  | brflFalse target hstack =>
      obtain ⟨_, hv⟩ | ⟨top, htop, rfl⟩ := top_of_append_callFrame hstack
      · cases hv
      · exact .inl ⟨_, .brflFalse target htop, rfl⟩
  | halt hstack =>
      obtain ⟨htop, rfl⟩ | ⟨top, htop, rfl⟩ := top_of_append_callFrame hstack
      · exact .inr (.inr ⟨rfl, htop, rfl⟩)
      · exact .inl ⟨_, .halt htop, rfl⟩
  | @call _ _ callee arg fn rest' hstack hu =>
      obtain (rfl | ⟨_, rfl⟩) | ⟨top, htop, rfl⟩ := second_of_append_callFrame hstack
      · cases op <;> cases hu
      · cases op <;> cases hu
      · refine .inl ⟨_, .call htop hu, ?_⟩
        simp [State.under, State.callFrame]
  | arith hstack hfits =>
      obtain (hw | ⟨_, hw⟩) | ⟨top, htop, rfl⟩ := second_of_append_callFrame hstack
      · cases hw
      · cases hw
      · exact .inl ⟨_, .arith htop hfits, rfl⟩
  | eq hstack hl hr =>
      obtain (rfl | ⟨_, rfl⟩) | ⟨top, htop, rfl⟩ := second_of_append_callFrame hstack
      · cases hl
      · cases hl
      · exact .inl ⟨_, .eq htop hl hr, rfl⟩
  | @ret _ v location env rest' hstack =>
      obtain (hw | ⟨htop, hw⟩) | ⟨top, htop, hrest⟩ := second_of_append_callFrame hstack
      · cases hw
      · rw [State.stack_under, htop] at hstack
        cases hstack
        exact .inr (.inl ⟨rfl, v, htop, rfl⟩)
      · obtain ⟨_, hv⟩ | ⟨top', rfl, rfl⟩ := top_of_append_callFrame hrest.symm
        · cases hv
        · exact .inl ⟨_, .ret htop, rfl⟩

end Operation

/-! ## the caller during a call -/

namespace Program

variable {p : Program} {s s₁ t u : State} {op : Operation} {n : Nat}

/-- A step above what a call has left keeps it, or is the return that ends the
call. -/
theorem suffix_or_returns_of_step {caller : State} {rest : List Value}
    (hframe : caller.callFrame rest <:+ s.stack) (h : p.step s = .ok t) :
    caller.callFrame rest <:+ t.stack ∨
    ∃ v, p.code[s.pc]? = some .ret ∧ s.stack = v :: caller.callFrame rest ∧
      t = caller.advance (v :: rest) caller.env := by
  obtain ⟨top, htop⟩ := hframe
  obtain ⟨_, op, hop, hexec⟩ := step_eq_ok_iff.mp h
  have hunder : s = { s with stack := top : State }.under (caller.callFrame rest) := by
    rw [State.under, htop]
  rw [hunder] at hexec
  obtain ⟨u, _, rfl⟩ | ⟨rfl, v, hv, rfl⟩ | ⟨rfl, _, rfl⟩ := hexec.under_callFrame
  · exact .inl (List.suffix_append u.stack _)
  · have htop' : top = [v] := hv
    refine .inr ⟨v, hop, ?_, rfl⟩
    rw [← htop, htop']
    rfl
  · exact .inl (List.suffix_append top _)

/-- A call that succeeds starts its function above what it leaves. -/
theorem step_call (hcall : op.isCall = true) (hop : p.code[s.pc]? = some op)
    (h : p.step s = .ok t) :
    ∃ arg fn rest u, s.stack = arg :: fn :: rest ∧ op.callee? fn arg = some u ∧
      t = u.under (s.callFrame rest) := by
  obtain ⟨_, op', hop', hexec⟩ := step_eq_ok_iff.mp h
  obtain rfl : op = op' := Option.some.inj (hop.symm.trans hop')
  cases hexec with
  | @call _ _ u arg fn rest hstack hu => exact ⟨arg, fn, rest, u, hstack, hu, rfl⟩
  | label | const | access | closure | closures | focus | ret | arith | eq | brflTrue | brflFalse
  | br | halt => cases hcall

theorem not_callFrame_suffix (s : State) (v : Value) (rest : List Value) :
    ¬ s.callFrame rest <:+ v :: rest := by
  intro h
  have hlength := h.length_le
  simp only [State.callFrame, List.length_cons] at hlength
  omega

/-- **Isolation of calls**: from a call on, every state has what the call left
and the caller's stack below it at the bottom of its stack, up to a first
state that has not, if there is one; that state is the result of a return with
exactly one value above what the call left, and it is the caller's state
behind the call, with that value in place of the function and its argument. -/
theorem call_isolated (hcall : op.isCall = true) (hop : p.code[s.pc]? = some op)
    (h : p.step s = .ok s₁) :
    ∃ arg fn rest, s.stack = arg :: fn :: rest ∧
      ∀ n t, p.after n s₁ = .ok t →
        (∀ m u, m ≤ n → p.after m s₁ = .ok u → s.callFrame rest <:+ u.stack) ∨
        ∃ m u v, m < n ∧
          (∀ i w, i ≤ m → p.after i s₁ = .ok w → s.callFrame rest <:+ w.stack) ∧
          p.after m s₁ = .ok u ∧ p.code[u.pc]? = some .ret ∧
          u.stack = v :: s.callFrame rest ∧
          p.after (m + 1) s₁ = .ok { pc := s.pc + 1, stack := v :: rest, env := s.env } ∧
          ¬ s.callFrame rest <:+ v :: rest := by
  obtain ⟨arg, fn, rest, callee, hstack, hcallee, rfl⟩ := step_call hcall hop h
  refine ⟨arg, fn, rest, hstack, fun n => ?_⟩
  induction n with
  | zero =>
      intro t ht
      refine .inl fun m u hm hu => ?_
      rw [Nat.le_zero.mp hm] at hu
      cases hu
      exact List.suffix_append callee.stack _
  | succ n ih =>
      intro t ht
      obtain ⟨u, hu, hstep⟩ := after_succ_eq_ok_iff.mp ht
      cases ih u hu with
      | inr hreturned =>
          obtain ⟨m, w, v, hm, hreturned⟩ := hreturned
          exact .inr ⟨m, w, v, by omega, hreturned⟩
      | inl hkept =>
          cases suffix_or_returns_of_step (hkept n u (Nat.le_refl n) hu) hstep with
          | inl hsuffix =>
              refine .inl fun m w hm hw => ?_
              by_cases hmn : m ≤ n
              · exact hkept m w hmn hw
              · obtain rfl : m = n + 1 := by omega
                rw [ht] at hw
                cases hw
                exact hsuffix
          | inr hreturn =>
              obtain ⟨v, hret, hustack, rfl⟩ := hreturn
              exact .inr ⟨n, u, v, Nat.lt_succ_self n, hkept, hu, hret, hustack, ht,
                not_callFrame_suffix s v rest⟩

/-- The first call of `twoCalls` keeps its caller's function on the stack, up
to the return that leads behind it. -/
theorem call_isolated_twoCalls :
    ∃ s s₁, twoCalls.after 7 twoCalls.initial = .ok s ∧ twoCalls.step s = .ok s₁ ∧
      ∃ arg fn rest, s.stack = arg :: fn :: rest ∧
        ∀ n t, twoCalls.after n s₁ = .ok t → s.callFrame rest <:+ t.stack ∨
          ∃ m u v, m < n ∧ twoCalls.after m s₁ = .ok u ∧ u.stack = v :: s.callFrame rest ∧
            twoCalls.after (m + 1) s₁ = .ok { pc := 8, stack := v :: rest, env := s.env } := by
  have hstep : twoCalls.step ⟨7, [.int 9, .focused 1 [11] [], .focused 1 [11] []],
      [.frame [11] []], none⟩ = .ok ⟨11, [.returnAddress 8, .savedEnv [.frame [11] []],
        .focused 1 [11] []], [.int 9, .frame [11] []], none⟩ := rfl
  obtain ⟨arg, fn, rest, hstack, hrun⟩ := call_isolated (by decide) rfl hstep
  refine ⟨_, _, rfl, hstep, arg, fn, rest, hstack, fun n t ht => ?_⟩
  obtain hkept | ⟨m, u, v, hm, _, hu, _, hv, hback, _⟩ := hrun n t ht
  · exact .inl (hkept n t (Nat.le_refl n) ht)
  · exact .inr ⟨m, u, v, hm, hu, hv, hback⟩

/-! ## two runs of one call -/

/-- In the state `s` the program calls the function `fn` with the argument
`arg`, by the operation `op`. -/
structure CallsAt (p : Program) (op : Operation) (fn arg : Value) (s : State) : Prop where
  isCall : op.isCall = true
  running : s.isHalted = false
  operation : p.code[s.pc]? = some op
  stack : s.stack = arg :: fn :: s.stack.drop 2

/-- In each of the first `n` states after `s`, what the call in `s` left is
still at the bottom of the stack. -/
def InCall (p : Program) (s : State) (n : Nat) : Prop :=
  ∀ m, 0 < m → m ≤ n → ∃ t, p.after m s = .ok t ∧ s.callFrame (s.stack.drop 2) <:+ t.stack

/-- The call in `s` returns to its caller after `k` steps, with the value `v`. -/
def CallReturns (p : Program) (s : State) (k : Nat) (v : Value) : Prop :=
  p.InCall s (k - 1) ∧
    p.after k s = .ok { pc := s.pc + 1, stack := v :: s.stack.drop 2, env := s.env }

/-- The machine halts in the call in `s`, after `k` steps. -/
def CallHalts (p : Program) (s : State) (k : Nat) : Prop :=
  p.InCall s k ∧ ∃ t, p.after k s = .ok t ∧ t.isHalted = true

/-- The machine fails in the call in `s`, or in making it, at step `k + 1`. -/
def CallFails (p : Program) (s : State) (k : Nat) : Prop :=
  p.InCall s k ∧ ∃ t e, p.after k s = .ok t ∧ t.isHalted = false ∧ p.step t = .error e

/-- Two states that are alike but for the bottoms of their stacks, and perhaps
for what they halted with. -/
inductive Alike (bottom₁ bottom₂ : List Value) : State → State → Prop where
  | under (u : State) : Alike bottom₁ bottom₂ (u.under bottom₁) (u.under bottom₂)
  | halted (u : State) (v₁ v₂ : Value) :
      Alike bottom₁ bottom₂ { u.under bottom₁ with result := some v₁ }
        { u.under bottom₂ with result := some v₂ }

variable {bottom₁ bottom₂ rest₁ rest₂ : List Value} {s₂ t₁ t₂ c₁ c₂ : State} {fn arg : Value}

theorem Alike.symm (h : Alike bottom₁ bottom₂ t₁ t₂) : Alike bottom₂ bottom₁ t₂ t₁ := by
  cases h with
  | under u => exact .under u
  | halted u v₁ v₂ => exact .halted u v₂ v₁

/-- Of two states that are alike, one has halted if the other has. -/
theorem Alike.isHalted_eq (h : Alike bottom₁ bottom₂ t₁ t₂) : t₁.isHalted = t₂.isHalted := by
  cases h with
  | under u => rfl
  | halted u v₁ v₂ => rfl

theorem Alike.suffix (h : Alike bottom₁ bottom₂ t₁ t₂) : bottom₁ <:+ t₁.stack := by
  cases h with
  | under u => exact List.suffix_append u.stack _
  | halted u v₁ v₂ => exact List.suffix_append u.stack _

/-- Two calls in states that are alike but for their callers go on alike, or
return with the same value, each to its own caller. -/
theorem Alike.step (h : Alike (c₁.callFrame rest₁) (c₂.callFrame rest₂) t₁ t₂)
    (hstep : p.step t₁ = .ok t) :
    (∃ t', p.step t₂ = .ok t' ∧ Alike (c₁.callFrame rest₁) (c₂.callFrame rest₂) t t') ∨
    ∃ v, t = c₁.advance (v :: rest₁) c₁.env ∧
      p.step t₂ = .ok (c₂.advance (v :: rest₂) c₂.env) := by
  obtain ⟨hrunning, op, hop, hexec⟩ := step_eq_ok_iff.mp hstep
  cases h with
  | halted u v₁ v₂ => cases hrunning
  | under u =>
      have hstep₂ : ∀ {t' : State}, op.Executes p.constants (u.under (c₂.callFrame rest₂)) t' →
          p.step (u.under (c₂.callFrame rest₂)) = .ok t' := fun hexec₂ =>
        step_eq_ok_iff.mpr ⟨hrunning, op, hop, hexec₂⟩
      obtain ⟨u', hu', rfl⟩ | ⟨rfl, v, hv, rfl⟩ | ⟨rfl, hnil, rfl⟩ := hexec.under_callFrame
      · exact .inl ⟨_, hstep₂ (hu'.under _), .under u'⟩
      · have hstack : (u.under (c₂.callFrame rest₂)).stack = v :: c₂.callFrame rest₂ := by
          rw [State.stack_under, hv]
          rfl
        exact .inr ⟨v, rfl, hstep₂ (.ret hstack)⟩
      · have hstack : (u.under (c₂.callFrame rest₂)).stack = c₂.callFrame rest₂ := by
          rw [State.stack_under, hnil]
          rfl
        exact .inl ⟨_, hstep₂ (.halt hstack), .halted u _ _⟩

/-- Of two calls in states that are alike but for their callers, both fail or
none. -/
theorem Alike.step_error (h : Alike (c₁.callFrame rest₁) (c₂.callFrame rest₂) t₁ t₂) {e : Stop}
    (hstep : p.step t₁ = .error e) : ∃ e', p.step t₂ = .error e' := by
  cases hstep₂ : p.step t₂ with
  | error e' => exact ⟨e', rfl⟩
  | ok t =>
      obtain ⟨t', ht', _⟩ | ⟨v, _, ht'⟩ := h.symm.step hstep₂
      · rw [hstep] at ht'; cases ht'
      · rw [hstep] at ht'; cases ht'

/-- A call succeeds if its function is of the right kind, and then starts it. -/
theorem CallsAt.step_eq_ok_iff (h : p.CallsAt op fn arg s) :
    p.step s = .ok t ↔
      ∃ u, op.callee? fn arg = some u ∧ t = u.under (s.callFrame (s.stack.drop 2)) := by
  constructor
  · intro hstep
    obtain ⟨arg', fn', rest, u, hstack, hu, rfl⟩ := step_call h.isCall h.operation hstep
    have hparts := h.stack
    rw [hstack] at hparts
    cases hparts
    exact ⟨u, hu, by rw [hstack]; rfl⟩
  · rintro ⟨u, hu, rfl⟩
    exact Program.step_eq_ok_iff.mpr ⟨h.running, op, h.operation, .call h.stack hu⟩

theorem InCall.mono {m : Nat} (h : p.InCall s n) (hle : m ≤ n) : p.InCall s m :=
  fun i hpos hi => h i hpos (Nat.le_trans hi hle)

/-- Two calls of one function with one argument go on alike for as long as the
first is not over. -/
theorem alike_of_inCall (h₁ : p.CallsAt op fn arg s₁) (h₂ : p.CallsAt op fn arg s₂)
    (h : p.InCall s₁ (n + 1)) :
    ∃ t₁ t₂, p.after (n + 1) s₁ = .ok t₁ ∧ p.after (n + 1) s₂ = .ok t₂ ∧
      Alike (s₁.callFrame (s₁.stack.drop 2)) (s₂.callFrame (s₂.stack.drop 2)) t₁ t₂ := by
  induction n with
  | zero =>
      obtain ⟨t₁, ht₁, _⟩ := h 1 Nat.one_pos (Nat.le_refl 1)
      obtain ⟨u, hu, rfl⟩ := h₁.step_eq_ok_iff.mp ht₁
      exact ⟨_, _, ht₁, h₂.step_eq_ok_iff.mpr ⟨u, hu, rfl⟩, .under u⟩
  | succ n ih =>
      obtain ⟨t₁, t₂, ht₁, ht₂, halike⟩ := ih (h.mono (Nat.le_succ _))
      obtain ⟨t, ht, hsuffix⟩ := h (n + 2) (by omega) (Nat.le_refl _)
      rw [after_succ ht₁] at ht
      obtain ⟨t', ht', halike'⟩ | ⟨v, rfl, _⟩ := halike.step ht
      · exact ⟨t, t', by rw [after_succ ht₁, ht], by rw [after_succ ht₂, ht'], halike'⟩
      · exact absurd hsuffix (not_callFrame_suffix s₁ v _)

/-- A call lasts as long from one caller as from another. -/
theorem InCall.of_callsAt (h₁ : p.CallsAt op fn arg s₁) (h₂ : p.CallsAt op fn arg s₂)
    (h : p.InCall s₁ n) : p.InCall s₂ n := by
  intro m hpos hm
  obtain ⟨m, rfl⟩ := Nat.exists_eq_succ_of_ne_zero (Nat.ne_of_gt hpos)
  obtain ⟨t₁, t₂, _, ht₂, halike⟩ := alike_of_inCall h₁ h₂ (h.mono hm)
  exact ⟨t₂, ht₂, halike.symm.suffix⟩

/-- **Returns**: a call of the same function with the same argument returns the same. -/
theorem CallReturns.of_callsAt {k : Nat} {v : Value} (h₁ : p.CallsAt op fn arg s₁)
    (h₂ : p.CallsAt op fn arg s₂) (h : p.CallReturns s₁ k v) : p.CallReturns s₂ k v := by
  obtain ⟨hin, hafter⟩ := h
  refine ⟨hin.of_callsAt h₁ h₂, ?_⟩
  match k with
  | 0 =>
      have hpc : s₁.pc = s₁.pc + 1 := congrArg State.pc (Except.ok.inj hafter)
      omega
  | 1 =>
      -- The call itself leaves its frame behind, so it is not back yet.
      obtain ⟨u, _, hu⟩ := h₁.step_eq_ok_iff.mp hafter
      have hstack : v :: s₁.stack.drop 2 = u.stack ++ s₁.callFrame (s₁.stack.drop 2) :=
        congrArg State.stack hu
      exact absurd (hstack ▸ List.suffix_append u.stack _) (not_callFrame_suffix s₁ v _)
  | n + 2 =>
      obtain ⟨t₁, t₂, ht₁, ht₂, halike⟩ := alike_of_inCall h₁ h₂ hin
      rw [after_succ ht₁] at hafter
      rw [after_succ ht₂]
      obtain ⟨t, _, halike'⟩ | ⟨w, hw, hstep⟩ := halike.step hafter
      · exact absurd halike'.suffix (not_callFrame_suffix s₁ v _)
      · have hvw : v :: s₁.stack.drop 2 = w :: s₁.stack.drop 2 := congrArg State.stack hw
        rw [hstep, (List.cons.inj hvw).1]
        rfl

/-- **Halts**: a call of the same function with the same argument halts alike. -/
theorem CallHalts.of_callsAt {k : Nat} (h₁ : p.CallsAt op fn arg s₁)
    (h₂ : p.CallsAt op fn arg s₂) (h : p.CallHalts s₁ k) : p.CallHalts s₂ k := by
  obtain ⟨hin, t, ht, hhalted⟩ := h
  refine ⟨hin.of_callsAt h₁ h₂, ?_⟩
  match k with
  | 0 =>
      cases ht
      rw [h₁.running] at hhalted
      cases hhalted
  | n + 1 =>
      obtain ⟨t₁, t₂, ht₁, ht₂, halike⟩ := alike_of_inCall h₁ h₂ hin
      obtain rfl : t = t₁ := Except.ok.inj (ht.symm.trans ht₁)
      exact ⟨t₂, ht₂, by rw [← halike.isHalted_eq, hhalted]⟩

/-- **Failures**: a call of the same function with the same argument fails alike. -/
theorem CallFails.of_callsAt {k : Nat} (h₁ : p.CallsAt op fn arg s₁)
    (h₂ : p.CallsAt op fn arg s₂) (h : p.CallFails s₁ k) : p.CallFails s₂ k := by
  obtain ⟨hin, t, e, ht, hrunning, hstep⟩ := h
  refine ⟨hin.of_callsAt h₁ h₂, ?_⟩
  match k with
  | 0 =>
      cases ht
      cases hstep₂ : p.step s₂ with
      | error e' => exact ⟨s₂, e', rfl, h₂.running, hstep₂⟩
      | ok t =>
          -- The function is of the right kind for the one call and so for the other.
          obtain ⟨u, hu, _⟩ := h₂.step_eq_ok_iff.mp hstep₂
          rw [h₁.step_eq_ok_iff.mpr ⟨u, hu, rfl⟩] at hstep
          cases hstep
  | n + 1 =>
      obtain ⟨t₁, t₂, ht₁, ht₂, halike⟩ := alike_of_inCall h₁ h₂ hin
      obtain rfl : t = t₁ := Except.ok.inj (ht.symm.trans ht₁)
      obtain ⟨e', he'⟩ := halike.step_error hstep
      exact ⟨t₂, e', ht₂, by rw [← halike.isHalted_eq, hrunning], he'⟩

/-- **Lexical scoping**: what a call comes to, and when, depends on the
function and its argument, not on the state that it is made in. -/
theorem call_lexical (h₁ : p.CallsAt op fn arg s₁) (h₂ : p.CallsAt op fn arg s₂) :
    (∀ k v, p.CallReturns s₁ k v → p.CallReturns s₂ k v) ∧
    (∀ k, p.CallHalts s₁ k → p.CallHalts s₂ k) ∧
    (∀ k, p.CallFails s₁ k → p.CallFails s₂ k) :=
  ⟨fun _ _ h => h.of_callsAt h₁ h₂, fun _ h => h.of_callsAt h₁ h₂, fun _ h => h.of_callsAt h₁ h₂⟩

/-- The two calls of `twoCalls` are made in different states, and both return
after four steps with the argument. -/
theorem call_lexical_twoCalls :
    ∃ s₁ s₂, twoCalls.after 7 twoCalls.initial = .ok s₁ ∧
      twoCalls.after 12 twoCalls.initial = .ok s₂ ∧ s₁.pc ≠ s₂.pc ∧ s₁.env ≠ s₂.env ∧
      twoCalls.CallReturns s₁ 4 (.int 9) ∧ twoCalls.CallReturns s₂ 4 (.int 9) := by
  have h₁ : twoCalls.CallsAt .applyn (.focused 1 [11] []) (.int 9)
      ⟨7, [.int 9, .focused 1 [11] [], .focused 1 [11] []], [.frame [11] []], none⟩ :=
    ⟨rfl, rfl, rfl, rfl⟩
  have h₂ : twoCalls.CallsAt .applyn (.focused 1 [11] []) (.int 9)
      ⟨9, [.int 9, .focused 1 [11] []], [.frame [11] [.frame [11] []], .frame [11] []], none⟩ :=
    ⟨rfl, rfl, rfl, rfl⟩
  have hreturns : twoCalls.CallReturns
      ⟨7, [.int 9, .focused 1 [11] [], .focused 1 [11] []], [.frame [11] []], none⟩ 4 (.int 9) := by
    refine ⟨fun m hpos hm => ?_, rfl⟩
    match m with
    | 1 => exact ⟨_, rfl, List.suffix_append [] _⟩
    | 2 => exact ⟨_, rfl, List.suffix_append [] _⟩
    | 3 => exact ⟨_, rfl, List.suffix_append [Value.int 9] _⟩
  exact ⟨_, _, rfl, rfl, by decide, by decide, hreturns, (call_lexical h₁ h₂).1 4 (.int 9) hreturns⟩

end Program

end SecdMachine
