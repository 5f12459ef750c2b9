import Mathlib

/-! # Rounding to the nearest integer, ties to even

The rounding of Python's `round` and of its timestamp conversion, on exact
rationals.  It is monotone, fixes the integers and never leaves the interval
between the two integers around its argument.
-/
namespace Store

/-- The nearest integer; a tie goes to the even neighbour. -/
def roundHalfEven (q : ℚ) : ℤ :=
  let n := ⌊q⌋
  if q - n < 1 / 2 then n
  else if 1 / 2 < q - n then n + 1
  else if n % 2 = 0 then n else n + 1

/-- The result is one of the two neighbours. -/
theorem roundHalfEven_mem (q : ℚ) : ⌊q⌋ ≤ roundHalfEven q ∧ roundHalfEven q ≤ ⌊q⌋ + 1 := by
  unfold roundHalfEven
  simp only
  split_ifs <;> omega

/-- Rounding keeps order. -/
theorem roundHalfEven_mono {p q : ℚ} (h : p ≤ q) : roundHalfEven p ≤ roundHalfEven q := by
  have hfloor : ⌊p⌋ ≤ ⌊q⌋ := Int.floor_mono h
  rcases lt_or_eq_of_le hfloor with hlt | heq
  · have hp := (roundHalfEven_mem p).2
    have hq := (roundHalfEven_mem q).1
    omega
  · -- In one unit interval only the fractional parts differ, and they are ordered.
    unfold roundHalfEven
    simp only [heq]
    split_ifs <;> first | omega | (exfalso; linarith)

end Store
