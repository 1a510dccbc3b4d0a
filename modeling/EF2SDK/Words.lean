import Mathlib.Algebra.Group.Nat.Defs

/-!
# Machine words

Words are natural numbers, reduced where the source's unsigned arithmetic may wrap. A shift
followed by an `or` of the bits shifted in is an addition.
-/

set_option autoImplicit false

namespace EF2SDK

variable {a b i x : ℕ}

/-- Reduce to 32 bits. -/
def u32 (x : ℕ) : ℕ :=
  x % 2 ^ 32

/-- Reduce to 64 bits. -/
def u64 (x : ℕ) : ℕ :=
  x % 2 ^ 64

theorem u32_of_lt (h : x < 2 ^ 32) : u32 x = x :=
  Nat.mod_eq_of_lt h

theorem u64_of_lt (h : x < 2 ^ 64) : u64 x = x :=
  Nat.mod_eq_of_lt h

theorem shiftLeft_or_eq_add (h : b < 2 ^ i) : a <<< i ||| b = a * 2 ^ i + b := by
  rw [← Nat.shiftLeft_add_eq_or_of_lt h, Nat.shiftLeft_eq]

/-! ## Words of the source's types -/

section Types

variable {x y s : UInt32} {n k : ℕ}

theorem toNat_add_of_lt (h : x.toNat + y.toNat < 2 ^ 32) : (x + y).toNat = x.toNat + y.toNat := by
  rw [UInt32.toNat_add, Nat.mod_eq_of_lt h]

theorem toNat_add_one (h : x.toNat + 1 < 2 ^ 32) : (x + 1).toNat = x.toNat + 1 :=
  toNat_add_of_lt h

theorem toNat_add_ofNat (h : x.toNat + n < 2 ^ 32) : (x + .ofNat n).toNat = x.toNat + n := by
  have hn : (UInt32.ofNat n).toNat = n := UInt32.toNat_ofNat_of_lt' (by rw [UInt32.size]; omega)
  rw [toNat_add_of_lt (by rwa [hn]), hn]

theorem toNat_or_add (hx : x.toNat = 2 ^ n * k) (hy : y.toNat < 2 ^ n) :
    (x ||| y).toNat = 2 ^ n * k + y.toNat := by
  rw [UInt32.toNat_or, hx, Nat.two_pow_add_eq_or_of_lt hy]

theorem toNat_shiftLeft_eq (hs : s.toNat = n) (hn : n < 32) (hx : 2 ^ n * x.toNat < 2 ^ 32) :
    (x <<< s).toNat = 2 ^ n * x.toNat := by
  rw [UInt32.toNat_shiftLeft, hs, Nat.mod_eq_of_lt hn, Nat.shiftLeft_eq, Nat.mul_comm,
    Nat.mod_eq_of_lt hx]

theorem toNat_shiftRight_eq (hs : s.toNat = n) (hn : n < 32) :
    (x >>> s).toNat = x.toNat / 2 ^ n := by
  rw [UInt32.toNat_shiftRight, hs, Nat.mod_eq_of_lt hn, Nat.shiftRight_eq_div_pow]

theorem toNat_and_mask (hy : y.toNat = 2 ^ n - 1) : (x &&& y).toNat = x.toNat % 2 ^ n := by
  rw [UInt32.toNat_and, hy, Nat.and_two_pow_sub_one_eq_mod]

theorem toNat_and_mask8 (x : UInt8) {y : UInt8} (hy : y.toNat = 2 ^ n - 1) :
    (x &&& y).toNat = x.toNat % 2 ^ n := by
  rw [UInt8.toNat_and, hy, Nat.and_two_pow_sub_one_eq_mod]

end Types

end EF2SDK
