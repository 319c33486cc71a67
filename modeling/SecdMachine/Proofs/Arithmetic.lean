import Mathlib.Algebra.Ring.Int.Defs
import SecdMachine.Proofs.Safety

/-!
# SecdMachine.Proofs.Arithmetic

Machine integers never wrap around.

An integer comes into a state as a literal, which is read within the signed 64-bit
range, or as the result of arithmetic, which is pushed only if it lies there.  Both
are part of what it means for a program and for the values of a step to be well
formed, so the integers of a reachable state are in range at every depth.

Arithmetic itself is exact: what it pushes is the mathematical result, and where
that is out of range it stops with an overflow (`step_arith`).  The limits are not
symmetric, so the least integer can be reached by a subtraction, but not negated.
-/

namespace SecdMachine

theorem Numeral.fits_iff_pow {n : Int} : fits n = true ↔ -2 ^ 63 ≤ n ∧ n < 2 ^ 63 := by
  rw [fits_iff]
  omega

namespace Program

variable {p : Program} {s : State}

/-! ## integers in states -/

/-- Well-formed integers are machine integers. -/
theorem inRange_of_wellFormed {v : Value} (h : v.WellFormed p) :
    ∀ n, v = .int n → -2 ^ 63 ≤ n ∧ n < 2 ^ 63 := by
  rintro n rfl
  exact Numeral.fits_iff_pow.mp h

/-! ## steps of arithmetic -/

/-- A step of arithmetic pushes the mathematical result, or overflows. -/
theorem step_arith {f : Arithmetic} {l r : Int} {rest : List Value}
    (hrunning : s.isHalted = false) (hop : p.code[s.pc]? = some (.arith f))
    (hstack : s.stack = .int r :: .int l :: rest) :
    p.step s =
      if Numeral.fits (f.eval l r) then .ok (s.advance (.int (f.eval l r) :: rest) s.env)
      else .error (.fault (.overflow (Operation.arith f).mnemonic)) := by
  rw [step_eq_execute hrunning hop]
  cases hfits : Numeral.fits (f.eval l r) with
  | true => exact Operation.execute_eq_ok_iff.mpr (.arith hstack hfits)
  | false => exact Operation.execute_of_stops (.overflow hstack hfits)

/-- **Machine integers**: in every state that an assembled program reaches, every
integer, at any depth, is in the signed 64-bit range.  In a running state at an
addition, subtraction or multiplication of two integers, the step succeeds exactly
if the mathematical result `n` is in range; then `n` replaces the operands, and the
rest of the stack and the environment stay.  Otherwise it overflows. -/
theorem integers_never_wrap {source text : String} (hp : Program.assemble source text = .ok p)
    (hs : p.Reachable s) :
    s.Everywhere (fun v => ∀ n, v = .int n → -2 ^ 63 ≤ n ∧ n < 2 ^ 63) ∧
    ∀ (f : Arithmetic) (l r : Int) (rest : List Value),
      s.isHalted = false → p.code[s.pc]? = some (.arith f) →
      s.stack = .int r :: .int l :: rest →
      ∀ n, (n = match f with | .add => l + r | .sub => l - r | .mul => l * r) →
        ((∃ t, p.step s = .ok t) ↔ -2 ^ 63 ≤ n ∧ n < 2 ^ 63) ∧
        (-2 ^ 63 ≤ n ∧ n < 2 ^ 63 →
          p.step s = .ok { pc := s.pc + 1, stack := .int n :: rest, env := s.env }) ∧
        (¬ (-2 ^ 63 ≤ n ∧ n < 2 ^ 63) →
          p.step s = .error (.fault (.overflow (Operation.arith f).mnemonic)) ∧
            (Fault.overflow (Operation.arith f).mnemonic).id = "vm/overflow") := by
  have hsafe := wellFormed_of_reachable (wellFormed_of_assemble hp) hs
  refine ⟨fun v hv => (hsafe.values v hv).mono fun w => inRange_of_wellFormed, ?_⟩
  intro f l r rest hrunning hop hstack n hn
  have heval : f.eval l r = n := by
    rw [hn]
    cases f <;> rfl
  have hstep := step_arith hrunning hop hstack
  rw [heval] at hstep
  rw [← Numeral.fits_iff_pow, hstep]
  cases hfits : Numeral.fits n with
  | true => exact ⟨⟨fun _ => rfl, fun _ => ⟨_, rfl⟩⟩, fun _ => rfl, fun h => absurd rfl h⟩
  | false => exact ⟨⟨nofun, nofun⟩, nofun, fun _ => ⟨rfl, rfl⟩⟩

/-! ## a program at the limits -/

/-- A text that subtracts down to the least machine integer, and then negates it. -/
def limitsText : String :=
  "main:; const -9223372036854775807; const 1; sub; const -1; mul; halt"

/-- What `limitsText` is assembled to. -/
def limits : Program where
  code := [.label, .const 0, .const 1, .arith .sub, .const 2, .arith .mul, .halt]
  constants := [.int (-9223372036854775807), .int 1, .int (-1)]
  labels := [("main", 0)]
  statements := Statement.read "test" limitsText
  main := 0

theorem assemble_limitsText : Program.assemble "test" limitsText = .ok limits :=
  Program.assemble_eq_ok_iff.mpr (by decide +kernel)

/-- The subtraction reaches the least machine integer exactly, and its negation
overflows. -/
theorem integers_never_wrap_limits :
    ∃ s t, limits.after 3 limits.initial = .ok s ∧
      s.stack = [.int 1, .int (-9223372036854775807)] ∧
      limits.step s = .ok { pc := 4, stack := [.int (-2 ^ 63)], env := [] } ∧
      limits.after 5 limits.initial = .ok t ∧ t.stack = [.int (-1), .int (-2 ^ 63)] ∧
      t.Everywhere (fun v => ∀ n, v = .int n → -2 ^ 63 ≤ n ∧ n < 2 ^ 63) ∧
      (¬ ∃ u, limits.step t = .ok u) ∧
      limits.step t = .error (.fault (.overflow "mul")) := by
  have hs : limits.after 3 limits.initial =
      .ok ⟨3, [.int 1, .int (-9223372036854775807)], [], none⟩ := rfl
  have ht : limits.after 5 limits.initial = .ok ⟨5, [.int (-1), .int (-2 ^ 63)], [], none⟩ := rfl
  obtain ⟨_, hsub⟩ := integers_never_wrap assemble_limitsText ⟨3, hs⟩
  obtain ⟨_, hexact, _⟩ := hsub .sub (-9223372036854775807) 1 [] rfl rfl rfl _ rfl
  obtain ⟨hrange, hmul⟩ := integers_never_wrap assemble_limitsText ⟨5, ht⟩
  obtain ⟨hsucceeds, _, hoverflows⟩ := hmul .mul (-2 ^ 63) (-1) [] rfl rfl rfl _ rfl
  have hout : ¬ (-2 ^ 63 ≤ (-2 ^ 63 : Int) * -1 ∧ (-2 ^ 63 : Int) * -1 < 2 ^ 63) := by decide
  exact ⟨_, _, hs, rfl, hexact (by decide), ht, rfl, hrange, mt hsucceeds.mp hout,
    (hoverflows hout).1⟩

end Program

end SecdMachine
