import Mathlib.Algebra.CharP.Two
import Mathlib.Algebra.Field.ZMod
import Mathlib.Algebra.Polynomial.Div
import Mathlib.Algebra.Polynomial.FieldDivision
import Mathlib.Data.Nat.Bitwise
import Mathlib.Tactic.LinearCombination

/-!
# Polynomials over the field of two elements

A number is a polynomial over `ZMod 2` whose coefficients are its bits (`bitPoly`) : exclusive
or is the sum, and a shift is the product with a power of `X`.

A register of `n` bits into which the bits of a message are shifted one after the other, with a
feedback into the bits of `t`, divides by `X ^ n + t` (`step`). It holds the remainder of the
message times `X ^ n` (`IsRemainder`), whatever the message. Remainders add up
(`IsRemainder.xor`), and no burst of at most `n` bits has the remainder 0, so that messages which
differ inside of one have different remainders (`IsRemainder.ne_of_burst`).
-/

set_option autoImplicit false

namespace EF2SDK.BitPolynomials

open Polynomial

variable {n t r s m k x y : ℕ} {b : Bool}

/-! ## Numbers as polynomials -/

/-- A bit as an element of the field. -/
def bit (b : Bool) : ZMod 2 :=
  if b then 1 else 0

@[simp] theorem bit_false : bit false = 0 :=
  rfl

@[simp] theorem bit_true : bit true = 1 :=
  rfl

theorem bit_xor (b c : Bool) : bit (b ^^ c) = bit b + bit c := by
  cases b <;> cases c <;> decide

/-- The polynomial whose coefficients are the bits of a number. -/
noncomputable def bitPoly (x : ℕ) : (ZMod 2)[X] :=
  ∑ i ∈ Finset.range x, monomial i (bit (x.testBit i))

@[simp] theorem coeff_bitPoly (x i : ℕ) : (bitPoly x).coeff i = bit (x.testBit i) := by
  rw [bitPoly, finsetSum_coeff]
  simp only [coeff_monomial]
  rw [Finset.sum_ite_eq', ite_eq_left_iff, Finset.mem_range]
  intro hi
  have hlt : x < 2 ^ i := Nat.lt_of_le_of_lt (Nat.le_of_not_lt hi) Nat.lt_two_pow_self
  rw [Nat.testBit_lt_two_pow hlt, bit_false]

@[simp] theorem bitPoly_zero : bitPoly 0 = 0 := by
  ext i
  simp

theorem bitPoly_xor (x y : ℕ) : bitPoly (x ^^^ y) = bitPoly x + bitPoly y := by
  ext i
  simp [bit_xor]

theorem bitPoly_mul_two_pow (x k : ℕ) : bitPoly (x * 2 ^ k) = bitPoly x * X ^ k := by
  ext i
  rw [coeff_bitPoly, coeff_mul_X_pow', Nat.testBit_mul_two_pow]
  split
  · next h => simp [h]
  · next h => simp [h]

theorem bitPoly_two_pow (k : ℕ) : bitPoly (2 ^ k) = X ^ k := by
  ext i
  rw [coeff_bitPoly, coeff_X_pow, Nat.testBit_two_pow]
  by_cases h : k = i
  · simp [h]
  · simp [h, Ne.symm h]

theorem bitPoly_injective : Function.Injective bitPoly := by
  intro x y h
  refine Nat.eq_of_testBit_eq fun i => ?_
  have hcoeff := congrArg (fun p => p.coeff i) h
  simp only [coeff_bitPoly] at hcoeff
  cases hx : x.testBit i <;> cases hy : y.testBit i <;> simp_all

theorem degree_bitPoly_lt (h : x < 2 ^ n) : (bitPoly x).degree < n := by
  refine (degree_lt_iff_coeff_zero _ _).2 fun i hi => ?_
  have hlt : x < 2 ^ i := Nat.lt_of_lt_of_le h (Nat.pow_le_pow_right (by decide) hi)
  rw [coeff_bitPoly, Nat.testBit_lt_two_pow hlt, bit_false]

/-- A bit shifted in. -/
theorem bitPoly_bit (x : ℕ) (b : Bool) :
    bitPoly (2 * x + b.toNat) = X * bitPoly x + C (bit b) := by
  have hb := b.toNat_lt
  have hhalf : (2 * x + b.toNat) / 2 = x := by omega
  have hlow : (2 * x + b.toNat) % 2 = b.toNat := by omega
  ext i
  cases i with
  | zero =>
    rw [coeff_bitPoly, Nat.testBit_zero, hlow]
    cases b <;> simp
  | succ i =>
    rw [coeff_bitPoly, Nat.testBit_succ, hhalf, coeff_add, coeff_X_mul, coeff_bitPoly,
      coeff_C_succ, add_zero]

/-! ## Division by a register -/

/-- The divisor of a register of `n` bits with its feedback into the bits of `t`. -/
noncomputable def generator (n t : ℕ) : (ZMod 2)[X] :=
  X ^ n + bitPoly t

/-- A bit of the message shifted into the register `r`. -/
def step (n t : ℕ) (b : Bool) (r : ℕ) : ℕ :=
  let shifted := 2 * r % 2 ^ n
  if r.testBit (n - 1) ^^ b then shifted ^^^ t else shifted

/-- What is lost by shifting is the highest bit. -/
theorem bitPoly_shifted (hn : 0 < n) (hr : r < 2 ^ n) :
    bitPoly (2 * r % 2 ^ n) + C (bit (r.testBit (n - 1))) * X ^ n = X * bitPoly r := by
  ext i
  rw [coeff_add, coeff_bitPoly, coeff_C_mul, coeff_X_pow, Nat.testBit_mod_two_pow]
  cases i with
  | zero =>
    simp [Nat.testBit_zero, hn.ne]
  | succ i =>
    rw [coeff_X_mul, coeff_bitPoly, Nat.testBit_succ, Nat.mul_div_cancel_left _ (by decide)]
    rcases Nat.lt_trichotomy (i + 1) n with hlt | rfl | hgt
    · simp [hlt, hlt.ne]
    · simp
    · have hzero : r.testBit i = false :=
        Nat.testBit_lt_two_pow (Nat.lt_of_lt_of_le hr (Nat.pow_le_pow_right (by decide) (by omega)))
      simp [hzero, hgt.ne', Nat.not_lt.2 hgt.le]

theorem bitPoly_step (hn : 0 < n) (hr : r < 2 ^ n) (b : Bool) :
    bitPoly (step n t b r) = X * bitPoly r + C (bit b) * X ^ n
      + C (bit (r.testBit (n - 1) ^^ b)) * generator n t := by
  have hdouble : (X ^ n : (ZMod 2)[X]) + X ^ n = 0 := CharTwo.add_self_eq_zero _
  rw [← bitPoly_shifted hn hr, step, generator]
  generalize r.testBit (n - 1) = high
  cases high <;> cases b <;> simp [bitPoly_xor]
  · linear_combination -hdouble
  · linear_combination -hdouble
  · linear_combination -hdouble

theorem step_lt (ht : t < 2 ^ n) (b : Bool) : step n t b r < 2 ^ n := by
  have hshifted : 2 * r % 2 ^ n < 2 ^ n := Nat.mod_lt _ (Nat.two_pow_pos n)
  rw [step]
  split
  · exact Nat.xor_lt_two_pow hshifted ht
  · exact hshifted

/-- The register holds the remainder of the message `m` times `X ^ n`. -/
structure IsRemainder (n t r m : ℕ) : Prop where
  lt : r < 2 ^ n
  dvd : generator n t ∣ bitPoly r + bitPoly m * X ^ n

section Remainders

variable {r' m' : ℕ}

theorem monic_generator (ht : t < 2 ^ n) : (generator n t).Monic :=
  monic_X_pow_add (degree_bitPoly_lt ht)

theorem degree_generator (ht : t < 2 ^ n) : (generator n t).degree = n := by
  rw [generator, add_comm, degree_add_eq_right_of_degree_lt, degree_X_pow]
  rw [degree_X_pow]
  exact degree_bitPoly_lt ht

theorem eq_zero_of_dvd (ht : t < 2 ^ n) (hx : x < 2 ^ n) (h : generator n t ∣ bitPoly x) :
    x = 0 := by
  by_contra hne
  refine (monic_generator ht).not_dvd_of_degree_lt ?_ ?_ h
  · rw [← bitPoly_zero]
    exact fun heq => hne (bitPoly_injective heq)
  · rw [degree_generator ht]
    exact degree_bitPoly_lt hx

theorem IsRemainder.zero : IsRemainder n t 0 0 where
  lt := Nat.two_pow_pos n
  dvd := by simp

theorem IsRemainder.step (h : IsRemainder n t r m) (hn : 0 < n) (ht : t < 2 ^ n) (b : Bool) :
    IsRemainder n t (step n t b r) (2 * m + b.toNat) where
  lt := step_lt ht b
  dvd := by
    have hdouble : (C (bit b) * X ^ n : (ZMod 2)[X]) + C (bit b) * X ^ n = 0 :=
      CharTwo.add_self_eq_zero _
    have hsum : bitPoly (BitPolynomials.step n t b r) + bitPoly (2 * m + b.toNat) * X ^ n
        = X * (bitPoly r + bitPoly m * X ^ n)
          + C (bit (r.testBit (n - 1) ^^ b)) * generator n t := by
      rw [bitPoly_step hn h.lt, bitPoly_bit]
      linear_combination hdouble
    rw [hsum]
    exact dvd_add (h.dvd.mul_left X) (dvd_mul_left _ _)

/-- The remainder of polynomial division. -/
theorem IsRemainder.eq_modByMonic (h : IsRemainder n t r m) (ht : t < 2 ^ n) :
    bitPoly r = (bitPoly m * X ^ n) %ₘ generator n t := by
  have hself : bitPoly r %ₘ generator n t = bitPoly r := by
    rw [modByMonic_eq_self_iff (monic_generator ht), degree_generator ht]
    exact degree_bitPoly_lt h.lt
  have hzero : (bitPoly r - bitPoly m * X ^ n) %ₘ generator n t = 0 := by
    rw [modByMonic_eq_zero_iff_dvd (monic_generator ht), CharTwo.sub_eq_add]
    exact h.dvd
  rw [sub_modByMonic, hself, sub_eq_zero] at hzero
  exact hzero

/-- Remainders add up. -/
theorem IsRemainder.xor (h : IsRemainder n t r m) (h' : IsRemainder n t r' m') :
    IsRemainder n t (r ^^^ r') (m ^^^ m') where
  lt := Nat.xor_lt_two_pow h.lt h'.lt
  dvd := by
    rw [bitPoly_xor, bitPoly_xor, add_mul, add_add_add_comm]
    exact dvd_add h.dvd h'.dvd

theorem IsRemainder.unique (ht : t < 2 ^ n) (h : IsRemainder n t r m)
    (h' : IsRemainder n t r' m) : r = r' := by
  have hxor := h.xor h'
  rw [Nat.xor_self] at hxor
  exact Nat.eq_of_xor_eq_zero (eq_zero_of_dvd ht hxor.lt (by simpa using hxor.dvd))

/-- No burst of at most `n` bits has the remainder 0, where the divisor has a constant term. -/
theorem IsRemainder.burst_eq_zero (ht : t < 2 ^ n) (hodd : t.testBit 0 = true) (hn : 0 < n)
    (hx : x < 2 ^ n) (h : IsRemainder n t 0 (x * 2 ^ k)) : x = 0 := by
  have hdvd : generator n t ∣ bitPoly x * X ^ (k + n) := by
    simpa [bitPoly_mul_two_pow, mul_assoc, ← pow_add] using h.dvd
  have hX : Irreducible (X : (ZMod 2)[X]) := irreducible_X
  have hcoprime : IsCoprime X (generator n t) := by
    refine hX.coprime_iff_not_dvd.2 fun hX => ?_
    rw [X_dvd_iff, generator, coeff_add, coeff_X_pow, if_neg hn.ne, coeff_bitPoly, hodd] at hX
    exact absurd hX (by decide)
  exact eq_zero_of_dvd ht hx (hcoprime.pow_left.symm.dvd_of_dvd_mul_right hdvd)

/-- A number whose bits lie in `n` consecutive positions. -/
theorem burst_eq (h : ∀ i, x.testBit i = true → k ≤ i ∧ i < k + n) :
    x / 2 ^ k < 2 ^ n ∧ x / 2 ^ k * 2 ^ k = x := by
  refine ⟨Nat.lt_pow_two_of_testBit _ fun i hi => ?_, Nat.eq_of_testBit_eq fun i => ?_⟩
  · rw [Nat.testBit_div_two_pow, ← Bool.not_eq_true]
    intro hbit
    have := h _ hbit
    omega
  · rw [Nat.testBit_mul_two_pow, Nat.testBit_div_two_pow]
    by_cases hk : k ≤ i
    · rw [decide_eq_true hk, Bool.true_and, Nat.sub_add_cancel hk]
    · rw [decide_eq_false hk, Bool.false_and, eq_comm, ← Bool.not_eq_true]
      exact fun hbit => hk (h i hbit).1

/-- Messages that differ inside of `n` consecutive bits only do not have the same remainder. -/
theorem IsRemainder.ne_of_burst (ht : t < 2 ^ n) (hodd : t.testBit 0 = true) (hn : 0 < n)
    (h : IsRemainder n t r m) (h' : IsRemainder n t r' m') (hne : m ≠ m')
    (hburst : ∀ i, m.testBit i ≠ m'.testBit i → k ≤ i ∧ i < k + n) : r ≠ r' := by
  rintro rfl
  have hxor := h.xor h'
  obtain ⟨hlt, heq⟩ := burst_eq fun i hi => hburst i <| by
    rwa [Nat.testBit_xor, bne_iff_ne] at hi
  rw [Nat.xor_self, ← heq] at hxor
  have hzero := hxor.burst_eq_zero ht hodd hn hlt
  rw [hzero, Nat.zero_mul] at heq
  exact hne (Nat.eq_of_xor_eq_zero heq.symm)

end Remainders

end EF2SDK.BitPolynomials
