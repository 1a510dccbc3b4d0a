import Mathlib.Data.List.GetD
import Mathlib.Data.Nat.Digits.Defs
import EF2SDK.BitFields

/-!
# Numbers written in bytes

A string of bytes is a number with its highest byte first. A field of the number that lies in
some of the bytes is a field of the number that these bytes make (`field_number`).
-/

set_option autoImplicit false

namespace EF2SDK.BitFields

variable {l m r : List UInt8} {j w k t : ℕ}

/-- The number that the bytes make, the highest one first. -/
def number (bytes : List UInt8) : ℕ :=
  Nat.ofDigits 256 (bytes.map UInt8.toNat).reverse

@[simp] theorem number_nil : number [] = 0 :=
  rfl

@[simp] theorem number_singleton (b : UInt8) : number [b] = b.toNat := by
  simp [number]

theorem number_append (l r : List UInt8) :
    number (l ++ r) = number r + number l * 2 ^ (8 * r.length) := by
  rw [number, List.map_append, List.reverse_append, Nat.ofDigits_append, List.length_reverse,
    List.length_map, Nat.pow_mul, Nat.mul_comm]
  rfl

theorem number_cons (b : UInt8) (l : List UInt8) :
    number (b :: l) = number l + b.toNat * 2 ^ (8 * l.length) := by
  rw [← List.singleton_append, number_append, number_singleton]

theorem number_lt (l : List UInt8) : number l < 2 ^ (8 * l.length) := by
  have hlt : number l < 256 ^ (l.map UInt8.toNat).reverse.length := by
    refine Nat.ofDigits_lt_base_pow_length (by decide) fun x hx => ?_
    obtain ⟨b, -, rfl⟩ := List.mem_map.1 (List.mem_reverse.1 hx)
    exact b.toNat_lt
  rwa [List.length_reverse, List.length_map, show 256 = 2 ^ 8 by rfl, ← Nat.pow_mul] at hlt

/-- Strings of one length are told apart by their numbers. -/
theorem number_inj (h : l.length = r.length) (heq : number l = number r) : l = r := by
  have hlt : ∀ bytes : List UInt8, ∀ x ∈ (bytes.map UInt8.toNat).reverse, x < 256 := by
    intro bytes x hx
    obtain ⟨b, -, rfl⟩ := List.mem_map.1 (List.mem_reverse.1 hx)
    exact b.toNat_lt
  have hdigits := Nat.ofDigits_inj_of_len_eq (by decide) (by simpa using h) (hlt l) (hlt r) heq
  exact (List.map_inj_right fun _ _ => UInt8.toNat_inj.1).1 (List.reverse_inj.1 hdigits)

theorem add_mul_two_pow_xor {x y a b p : ℕ} (hx : x < 2 ^ p) (hy : y < 2 ^ p) :
    (x + a * 2 ^ p) ^^^ (y + b * 2 ^ p) = (x ^^^ y) + (a ^^^ b) * 2 ^ p := by
  refine Nat.eq_of_testBit_eq fun i => ?_
  rw [Nat.testBit_xor, Nat.add_comm x, Nat.add_comm y, Nat.add_comm (x ^^^ y), Nat.mul_comm a,
    Nat.mul_comm b, Nat.mul_comm (a ^^^ b), Nat.testBit_two_pow_mul_add a hx,
    Nat.testBit_two_pow_mul_add b hy, Nat.testBit_two_pow_mul_add _ (Nat.xor_lt_two_pow hx hy)]
  split
  · exact (Nat.testBit_xor _ _ _).symm
  · exact (Nat.testBit_xor _ _ _).symm

/-- The exclusive or of two strings, byte by byte. -/
theorem number_zipWith_xor (h : l.length = r.length) :
    number (List.zipWith (· ^^^ ·) l r) = number l ^^^ number r := by
  induction l generalizing r with
  | nil =>
    obtain rfl := List.length_eq_zero_iff.1 h.symm
    rfl
  | cons b l ih =>
    obtain ⟨c, r, rfl⟩ := List.exists_cons_of_length_eq_add_one h.symm
    have hlength : l.length = r.length := Nat.succ.inj h
    rw [List.zipWith_cons_cons, number_cons, number_cons, number_cons, List.length_zipWith,
      ih hlength, hlength, Nat.min_self, UInt8.toNat_xor]
    exact (add_mul_two_pow_xor (hlength ▸ number_lt l) (number_lt r)).symm

/-- A field inside of some bytes does not depend on the bytes around them. -/
theorem field_number_append (h : j + w ≤ 8 * m.length) :
    field (number (l ++ m ++ r)) (8 * r.length + j) w = field (number m) j w := by
  have hdrop : number (l ++ m ++ r) / 2 ^ (8 * r.length)
      = number m + number l * 2 ^ (8 * m.length) := by
    rw [number_append, Nat.add_mul_div_right _ _ (Nat.two_pow_pos _),
      Nat.div_eq_of_lt (number_lt r), Nat.zero_add, number_append]
  rw [← field_add_of_le h, field, field, Nat.pow_add, ← Nat.div_div_eq_div_mul, hdrop]

theorem take_drop_eq_map (h : k + t ≤ l.length) :
    (l.drop k).take t = (List.range t).map fun i => l.getD (k + i) 0 := by
  apply List.ext_getElem
  · simp
    omega
  · intro i h₁ h₂
    have hi : k + i < l.length := by
      simp at h₁
      omega
    simp [hi]

/-- A field that lies in the `t` bytes from the byte `k` on. -/
theorem field_number (h : k + t ≤ l.length) (hj : j + w ≤ 8 * t) :
    field (number l) (8 * (l.length - (k + t)) + j) w
      = field (number ((List.range t).map fun i => l.getD (k + i) 0)) j w := by
  have hl : l = l.take k ++ (l.drop k).take t ++ l.drop (k + t) := by
    rw [List.append_assoc, ← List.drop_drop, List.take_append_drop, List.take_append_drop]
  have hlength : ((l.drop k).take t).length = t := by
    simp
    omega
  have hfield := field_number_append (l := l.take k) (r := l.drop (k + t)) (hlength.symm ▸ hj)
  rw [List.length_drop, ← hl] at hfield
  rw [← take_drop_eq_map h]
  exact hfield

end EF2SDK.BitFields
