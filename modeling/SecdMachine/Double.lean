/-!
# SecdMachine.Double

Numbers read as double-precision numbers, in exact arithmetic.  A double has
53 significant bits, so reading rounds to the nearest multiple of a power of
two, a tie going to the even multiple.

A natural number reads as another natural number (`nearest`), and a fraction
as a multiple of a power of two (`ofRatio`).  A double that is a natural
number is written with the fewest significant decimal digits that read back
as it, and zeros in the remaining places (`shortest`).

Main statements: natural numbers below 2^53 are doubles (`nearest_eq_self`),
what is read is a double (`nearest_nearest`, `read_read`), and a double reads
back from the digits that it is written with (`nearest_shortest`,
`read_written`).
-/

namespace SecdMachine.Double

/-! ## Reading -/

/-- The quotient rounded to the nearest natural number, a tie going to the
even one. -/
def roundDiv (num den : Nat) : Nat :=
  let q := num / den
  let r := num % den
  if 2 * r < den ∨ (2 * r = den ∧ q % 2 = 0) then q else q + 1

theorem roundDiv_one (n : Nat) : roundDiv n 1 = n := by
  simp [roundDiv, Nat.mod_one]

/-- A multiple is divided exactly. -/
theorem roundDiv_mul {den : Nat} (hden : 0 < den) (q : Nat) : roundDiv (q * den) den = q := by
  have hquot : q * den / den = q := Nat.mul_div_cancel q hden
  have hrem : q * den % den = 0 := Nat.mul_mod_left q den
  simp only [roundDiv, hquot, hrem]
  rw [if_pos (.inl (by omega))]

/-- Rounding goes up by one at most. -/
theorem roundDiv_le (num den : Nat) : roundDiv num den ≤ num / den + 1 := by
  unfold roundDiv
  dsimp only
  split <;> omega

/-- The distance between the doubles around `n`: the power of two that leaves
53 significant bits. -/
def spacing (n : Nat) : Nat :=
  Nat.pow 2 (n.log2 + 1 - 53)

theorem spacing_pos (n : Nat) : 0 < spacing n :=
  Nat.two_pow_pos _

/-- The double nearest to `n`. -/
def nearest (n : Nat) : Nat :=
  roundDiv n (spacing n) * spacing n

/-- Small natural numbers are doubles. -/
theorem nearest_eq_self {n : Nat} (h : n < Nat.pow 2 53) : nearest n = n := by
  have hs : spacing n = 1 := by
    by_cases hn : n = 0
    · subst hn; decide
    · have : n.log2 < 53 := (Nat.log2_lt hn).mpr h
      rw [spacing, show n.log2 + 1 - 53 = 0 by omega]
  rw [nearest, hs, roundDiv_one, Nat.mul_one]

/-- A multiple of the distance between the doubles around it is one of them. -/
theorem nearest_of_dvd {n : Nat} (h : spacing n ∣ n) : nearest n = n := by
  obtain ⟨q, hq⟩ := h
  have hround : roundDiv n (spacing n) = q := by
    conv => lhs; arg 1; rw [hq, Nat.mul_comm]
    exact roundDiv_mul (spacing_pos n) q
  rw [nearest, hround, Nat.mul_comm, ← hq]

/-- A power of two times a number of 53 bits is a double. -/
theorem nearest_mul_two_pow {q : Nat} (hq : q < Nat.pow 2 53) (k : Nat) :
    nearest (q * Nat.pow 2 k) = q * Nat.pow 2 k := by
  generalize hn : q * Nat.pow 2 k = n
  have hlog : n.log2 + 1 - 53 ≤ k := by
    by_cases hzero : n = 0
    · simp [hzero]
    · have hlt : n < 2 ^ (53 + k) := by
        rw [← hn, Nat.pow_eq, Nat.pow_add]
        exact Nat.mul_lt_mul_of_pos_right hq (Nat.two_pow_pos k)
      have := (Nat.log2_lt hzero).mpr hlt
      omega
  have hdvd : spacing n ∣ Nat.pow 2 k := Nat.pow_dvd_pow 2 hlog
  refine nearest_of_dvd ?_
  rw [← hn] at hdvd ⊢
  exact Nat.dvd_mul_left_of_dvd hdvd q

/-- Above the greatest double of a power of two stands the least of the next,
so that a number is rounded to at most 2^53 times the distance. -/
theorem roundDiv_spacing_le (n : Nat) : roundDiv n (spacing n) ≤ Nat.pow 2 53 := by
  have hquot : n / spacing n < 2 ^ 53 := by
    have hpow : (2 : Nat) ^ 53 * spacing n = 2 ^ (53 + (n.log2 + 1 - 53)) :=
      (Nat.pow_add 2 53 _).symm
    rw [Nat.div_lt_iff_lt_mul (spacing_pos n), hpow]
    exact Nat.lt_of_lt_of_le Nat.lt_log2_self (Nat.pow_le_pow_right (by decide) (by omega))
  exact Nat.le_trans (roundDiv_le n (spacing n)) hquot

/-- **Doubles stay**: the double nearest to a number is the nearest to itself. -/
theorem nearest_nearest (n : Nat) : nearest (nearest n) = nearest n := by
  cases Nat.lt_or_eq_of_le (roundDiv_spacing_le n) with
  | inl hlt => exact nearest_mul_two_pow hlt _
  | inr heq =>
    have hn : nearest n = Nat.pow 2 52 * Nat.pow 2 (n.log2 + 1 - 53 + 1) := by
      have hpow : Nat.pow 2 (n.log2 + 1 - 53 + 1) = Nat.pow 2 (n.log2 + 1 - 53) * 2 := rfl
      rw [nearest, heq, spacing, hpow]
      simp only [Nat.pow_eq]
      omega
    rw [hn, nearest_mul_two_pow (by decide)]

/-- A power of two times a natural number, where the power may be negative. -/
structure Dyadic where
  multiple : Nat
  exponent : Int
deriving DecidableEq, Repr

/-- The value of a dyadic number that is a natural number. -/
def Dyadic.toNat? (d : Dyadic) : Option Nat :=
  if 0 ≤ d.exponent then some (d.multiple * Nat.pow 2 d.exponent.toNat)
  else if d.multiple % Nat.pow 2 (-d.exponent).toNat = 0 then
    some (d.multiple / Nat.pow 2 (-d.exponent).toNat)
  else none

/-- The exponent of the greatest power of two that is not above a positive
fraction. -/
def binaryExponent (num den : Nat) : Int :=
  let d : Int := (num.log2 : Int) - (den.log2 : Int)
  if den * Nat.pow 2 d.toNat ≤ num * Nat.pow 2 (-d).toNat then d else d - 1

/-- The double nearest to a positive fraction, whatever its size. -/
def ofRatio (num den : Nat) : Dyadic :=
  let e := max (binaryExponent num den - 52) (-1074)
  ⟨roundDiv (num * Nat.pow 2 (-e).toNat) (den * Nat.pow 2 e.toNat), e⟩

/-! ## Writing -/

/-- The natural number nearest to the double `n` that has at least `k` zeros
at its end if one of those reads back as `n`, else the same with fewer
zeros. -/
def shortestFrom (n : Nat) : Nat → Nat
  | 0 => n
  | k + 1 =>
    let u := Nat.pow 10 (k + 1)
    let below := n / u * u
    let above := below + u
    if nearest below = n then
      if nearest above = n ∧ above - n < n - below then above else below
    else if nearest above = n then above
    else shortestFrom n k

/-- The natural number with the fewest significant digits that reads as the
double `n`. -/
def shortest (n : Nat) : Nat :=
  shortestFrom n (Nat.toDigits 10 n).length

/-- Whatever number of digits the search starts at, what it finds reads as the
double. -/
theorem nearest_shortestFrom {n : Nat} (hn : nearest n = n) (k : Nat) :
    nearest (shortestFrom n k) = n := by
  induction k with
  | zero => exact hn
  | succ k ih =>
    simp only [shortestFrom]
    split
    · split
      · next h => exact h.1
      · next h _ => exact h
    · split
      · next h => exact h
      · exact ih

/-- **Doubles are read back** from what they are written as. -/
theorem nearest_shortest {n : Nat} (hn : nearest n = n) : nearest (shortest n) = n :=
  nearest_shortestFrom hn _

/-! ## Integers -/

/-- Applies a function of magnitudes to an integer. -/
def onMagnitude (f : Nat → Nat) (n : Int) : Int :=
  if n < 0 then -(f n.natAbs : Int) else (f n.natAbs : Int)

/-- The double nearest to an integer. -/
def read (n : Int) : Int :=
  onMagnitude nearest n

/-- The integer whose decimal digits are those that a double is written
with. -/
def written (n : Int) : Int :=
  onMagnitude shortest n

theorem natAbs_read (n : Int) : (read n).natAbs = nearest n.natAbs := by
  unfold read onMagnitude
  split <;> omega

/-- An integer whose magnitude is a double is one. -/
theorem read_eq_self {n : Int} (h : nearest n.natAbs = n.natAbs) : read n = n := by
  rw [read, onMagnitude, h]
  split <;> omega

theorem read_read (n : Int) : read (read n) = read n := by
  refine read_eq_self ?_
  rw [natAbs_read, nearest_nearest]

/-- Integers of magnitude up to 2^53 are doubles. -/
theorem read_of_le {n : Int} (h : n.natAbs ≤ Nat.pow 2 53) : read n = n := by
  refine read_eq_self ?_
  cases Nat.lt_or_eq_of_le h with
  | inl hlt => exact nearest_eq_self hlt
  | inr heq => rw [heq]; decide

/-- A double is read back from what it is written as. -/
theorem read_written {n : Int} (h : read n = n) : read (written n) = n := by
  have hn : nearest n.natAbs = n.natAbs := by rw [← natAbs_read, h]
  have hback := nearest_shortest hn
  unfold written read onMagnitude
  by_cases hneg : n < 0
  · -- Only zero is read as zero, so what is written has the sign of `n`.
    have hne : shortest n.natAbs ≠ 0 := by
      intro hzero
      rw [hzero, show nearest 0 = 0 by decide] at hback
      omega
    have habs : (-(shortest n.natAbs : Int)).natAbs = shortest n.natAbs := by omega
    rw [if_pos hneg, if_pos (by omega), habs, hback]
    omega
  · have habs : (shortest n.natAbs : Int).natAbs = shortest n.natAbs := by omega
    rw [if_neg hneg, if_neg (by omega), habs, hback]
    omega

end SecdMachine.Double
