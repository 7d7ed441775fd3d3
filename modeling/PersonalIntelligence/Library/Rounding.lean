import Mathlib.Data.Rat.Floor
import Mathlib.Data.List.Sort
import Mathlib.Algebra.Order.Field.Basic
import Mathlib.Tactic.Linarith

/-!
# Rounding to a number of decimals

Python's `round(x, 3)` rounds to the nearest multiple of `1/1000`, and a tie goes
to the even multiple.  Read over the rationals it is `roundHalfEven` on the scaled
argument.

Everything a bound on a rounded score needs is one characterisation on each side:
`roundHalfEven x ≤ n` says that `x` is below `n + 1/2`, or exactly there with `n`
even.  At an even bound, such as `1000`, the tie is inside.
-/

namespace Rounding

/-- The nearest integer, ties to even. -/
def roundHalfEven (x : ℚ) : ℤ :=
  if x - ⌊x⌋ < 1 / 2 then ⌊x⌋
  else if 1 / 2 < x - ⌊x⌋ then ⌊x⌋ + 1
  else if ⌊x⌋ % 2 = 0 then ⌊x⌋ else ⌊x⌋ + 1

/-- `round(x, 3)`. -/
def round3 (x : ℚ) : ℚ := roundHalfEven (x * 1000) / 1000

/-- The rounded value is at most half a unit away. -/
theorem roundHalfEven_near (x : ℚ) :
    x - 1 / 2 ≤ roundHalfEven x ∧ (roundHalfEven x : ℚ) ≤ x + 1 / 2 := by
  have hlo := Int.floor_le x
  have hhi := Int.lt_floor_add_one x
  unfold roundHalfEven
  split_ifs with h₁ h₂ h₃ <;> push_cast <;> constructor <;> linarith

/-- **An even bound.**  The rounded value stays below an even `n` exactly up to
`n + 1/2`, the tie included. -/
theorem roundHalfEven_le_iff {n : ℤ} (hn : n % 2 = 0) (x : ℚ) :
    roundHalfEven x ≤ n ↔ x ≤ n + 1 / 2 := by
  have hlo := Int.floor_le x
  have hhi := Int.lt_floor_add_one x
  constructor
  · intro h
    have hq : (roundHalfEven x : ℚ) ≤ n := by exact_mod_cast h
    have := (roundHalfEven_near x).1
    linarith
  · intro h
    have hfl : (⌊x⌋ : ℚ) < n + 1 := by linarith
    have hfl' : ⌊x⌋ ≤ n := by
      have : ⌊x⌋ < n + 1 := by exact_mod_cast hfl
      omega
    rcases lt_or_eq_of_le hfl' with hlt | heq
    · unfold roundHalfEven
      split_ifs <;> omega
    · have hx : x - ⌊x⌋ ≤ 1 / 2 := by rw [heq]; linarith
      unfold roundHalfEven
      rw [if_neg (not_lt.mpr hx), heq, if_pos hn]
      split_ifs <;> exact le_refl n

/-- Rounding a nonnegative number keeps it nonnegative. -/
theorem roundHalfEven_nonneg {x : ℚ} (hx : 0 ≤ x) : 0 ≤ roundHalfEven x := by
  have h := (roundHalfEven_near x).1
  have hq : (-1 : ℚ) < roundHalfEven x := by linarith
  have : (-1 : ℤ) < roundHalfEven x := by exact_mod_cast hq
  omega

theorem round3_nonneg {x : ℚ} (hx : 0 ≤ x) : 0 ≤ round3 x := by
  have h : 0 ≤ roundHalfEven (x * 1000) := roundHalfEven_nonneg (by linarith)
  have hq : (0 : ℚ) ≤ roundHalfEven (x * 1000) := by exact_mod_cast h
  exact div_nonneg hq (by norm_num)

/-- A value rounded to three decimals is at most `1` up to and including
`1.0005`. -/
theorem round3_le_one_iff (x : ℚ) : round3 x ≤ 1 ↔ x ≤ 2001 / 2000 := by
  unfold round3
  rw [div_le_one (by norm_num)]
  have h := roundHalfEven_le_iff (n := 1000) (by norm_num) (x * 1000)
  constructor
  · intro hx
    have := h.mp (by exact_mod_cast hx)
    push_cast at this
    linarith
  · intro hx
    have := h.mpr (by push_cast; linarith)
    exact_mod_cast this

/-- Rounding stays inside the unit interval. -/
theorem round3_mem_unit {x : ℚ} (h0 : 0 ≤ x) (h1 : x ≤ 1) : 0 ≤ round3 x ∧ round3 x ≤ 1 :=
  ⟨round3_nonneg h0, (round3_le_one_iff x).mpr (by linarith)⟩

/-- `statistics.median`: the middle of the sorted data, or the mean of the two
middle values. -/
def median (data : List ℚ) : ℚ :=
  let sorted := data.mergeSort fun x y => decide (x ≤ y)
  let n := sorted.length
  if n % 2 = 1 then sorted.getD (n / 2) 0
  else (sorted.getD (n / 2 - 1) 0 + sorted.getD (n / 2) 0) / 2

end Rounding
