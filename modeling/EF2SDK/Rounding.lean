import Mathlib.Algebra.Order.Ring.Abs
import Mathlib.Data.Nat.Cast.Order.Field
import Mathlib.Tactic.FieldSimp
import Mathlib.Tactic.Linarith

/-!
# Rounding

`IsNearestAway n d r` : `r` is the integer nearest to `n / d`, and of the two nearest the one
further from zero. There is one such `r` (`IsNearestAway.unique`), the rounding of `-n` is `-r`
(`IsNearestAway.neg`), and a multiple of `d` is rounded to its factor (`isNearestAway_mul`).
Where `n` is not negative, adding half of `d` and rounding down gives it (`isNearestAway_half`).

A ratio `n / d` kept in `s`-ths, rounded down, is short of the ratio by less than one of them, and
`k` steps of it are short of `k` times the ratio by at most `k` of them (`steps_drift`).
-/

set_option autoImplicit false

namespace Rounding

/-! ## To the nearest integer -/

section Nearest

variable {n d h r r' : ℤ}

/-- The integer nearest to `n / d`, ties away from zero. -/
structure IsNearestAway (n d r : ℤ) : Prop where
  nearest : 2 * |n - d * r| ≤ d
  away : 2 * |n - d * r| = d → |n| < |d * r|

theorem IsNearestAway.le (hr : IsNearestAway n d r) (hr' : IsNearestAway n d r') (hd : 0 < d) :
    r ≤ r' := by
  by_contra! hlt
  have hmul : d * (r' + 1) ≤ d * r := mul_le_mul_of_nonneg_left hlt hd.le
  rw [mul_add, mul_one] at hmul
  -- `n` is half way between two multiples, one of which is no further from zero
  have hsign : 0 ≤ d * r' ∨ d * r ≤ 0 ∨ d * r' + 2 * d ≤ d * r := by
    rcases le_or_gt 0 r' with hr' | hr'
    · exact Or.inl (mul_nonneg hd.le hr')
    · rcases le_or_gt r 0 with hr | hr
      · exact Or.inr (Or.inl (mul_nonpos_of_nonneg_of_nonpos hd.le hr))
      · refine Or.inr (Or.inr ?_)
        have htwo : d * (r' + 2) ≤ d * r := mul_le_mul_of_nonneg_left (by omega) hd.le
        rwa [mul_add, mul_comm d 2] at htwo
  obtain ⟨hnear, haway⟩ := hr
  obtain ⟨hnear', haway'⟩ := hr'
  simp only [abs_eq_max_neg] at *
  omega

theorem IsNearestAway.unique (hr : IsNearestAway n d r) (hr' : IsNearestAway n d r')
    (hd : 0 < d) : r = r' :=
  le_antisymm (hr.le hr' hd) (hr'.le hr hd)

theorem IsNearestAway.neg (hr : IsNearestAway n d r) : IsNearestAway (-n) d (-r) := by
  have hneg : -n - d * -r = -(n - d * r) := by
    rw [mul_neg]
    omega
  constructor
  · rw [hneg, abs_neg]
    exact hr.nearest
  · rw [hneg, mul_neg, abs_neg, abs_neg, abs_neg]
    exact hr.away

theorem isNearestAway_mul (hd : 0 < d) (r : ℤ) : IsNearestAway (d * r) d r := by
  constructor
  · rw [sub_self, abs_zero]
    exact hd.le
  · rw [sub_self, abs_zero, mul_zero]
    exact fun h => absurd h hd.ne

/-- Half of the denominator is added before rounding down. -/
theorem isNearestAway_half (hn : 0 ≤ n) (hh : 0 < h) :
    IsNearestAway n (2 * h) ((n + h) / (2 * h)) := by
  have hdiv : 2 * h * ((n + h) / (2 * h)) + (n + h) % (2 * h) = n + h := Int.mul_ediv_add_emod _ _
  have hmod : 0 ≤ (n + h) % (2 * h) := Int.emod_nonneg _ (by omega)
  have hlt : (n + h) % (2 * h) < 2 * h := Int.emod_lt_of_pos _ (by omega)
  constructor
  · rw [abs_eq_max_neg]
    omega
  · rw [abs_eq_max_neg, abs_eq_max_neg, abs_eq_max_neg]
    omega

end Nearest

/-! ## Down -/

section Down

variable (K : Type*) [Field K] [LinearOrder K] [IsStrictOrderedRing K]

theorem div_le_add_one (n d : ℕ) : (n : K) / d ≤ (n / d : ℕ) + 1 := by
  rcases Nat.eq_zero_or_pos d with rfl | hd
  · simp
  · have hlt : n < d * (n / d + 1) := Nat.lt_mul_div_succ n hd
    rw [div_le_iff₀ (Nat.cast_pos.2 hd), mul_comm]
    exact_mod_cast hlt.le

/-- Multiples of a quotient that was rounded down. -/
theorem abs_mul_div_sub_le (k n d : ℕ) : |(k : K) * (n / d : ℕ) - k * (n / d)| ≤ k := by
  have hle : ((n / d : ℕ) : K) ≤ n / d := Nat.cast_div_le
  have hge : (n : K) / d ≤ (n / d : ℕ) + 1 := div_le_add_one K n d
  rw [← mul_sub, abs_mul, Nat.abs_cast]
  exact mul_le_of_le_one_right (Nat.cast_nonneg k) (abs_le.2 ⟨by linarith, by linarith⟩)

/-- Multiples of a ratio that is kept in `s`-ths. -/
theorem steps_drift {s : ℕ} (hs : 0 < s) (k n d : ℕ) :
    |(k : K) * (n * s / d : ℕ) / s - k * (n / d)| ≤ k / s := by
  have hpos : (0 : K) < s := Nat.cast_pos.2 hs
  have hscale : (k : K) * (n / d) = k * ((n * s : ℕ) / d) / s := by
    rw [Nat.cast_mul]
    field_simp
  rw [hscale, ← sub_div, abs_div, abs_of_pos hpos]
  exact div_le_div_of_nonneg_right (abs_mul_div_sub_le K k (n * s) d) hpos.le

end Down

end Rounding
