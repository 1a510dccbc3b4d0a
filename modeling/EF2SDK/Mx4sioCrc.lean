import EF2SDK.BitPolynomials
import EF2SDK.ByteNumbers
import EF2SDK.Mx4sio
import EF2SDK.Words

/-!
# The check byte of an SD command

`mx_crc7` shifts the bits of a message through a register of seven bits, the highest bit of
each byte first. The register is the low part of a byte, and the feedback goes into its bits
0 and 3. Whatever the message, the register holds the remainder of the message's polynomial times
`X ^ 7` by `X ^ 7 + X ^ 3 + 1` (`mxCrc7_isRemainder`).

A command's packet ends with the remainder of its five bytes. Two packets whose bytes differ only
inside of seven consecutive bits do not have the same last byte (`mxCrc7_remainder`).
-/

set_option autoImplicit false

namespace EF2SDK.IopStorage

open BitFields (number)
open BitPolynomials (IsRemainder bitPoly)
open Polynomial (X)

variable {crc v : UInt8} {m k : ℕ}

/-! ## The register -/

theorem and_mask_ne_zero {x y : UInt8} {i : ℕ} (hy : y.toNat = 2 ^ i) :
    (x &&& y != 0) = x.toNat.testBit i := by
  have hand : (x &&& y).toNat = (x.toNat.testBit i).toNat * 2 ^ i := by
    rw [UInt8.toNat_and, hy, Nat.and_two_pow]
  rw [Bool.eq_iff_iff, bne_iff_ne, ne_eq, ← UInt8.toNat_inj, hand]
  cases x.toNat.testBit i <;> simp

/-- A round of the loop is a step of the register, on the highest bit of the byte. -/
theorem mxCrc7Bit_eq (crc v : UInt8) :
    (mxCrc7Bit (crc, v)).1.toNat = BitPolynomials.step 7 9 (v.toNat.testBit 7) crc.toNat := by
  have hshifted : (crc <<< 1 &&& 0x7F).toNat = 2 * crc.toNat % 2 ^ 7 := by
    rw [toNat_and_mask8 _ (n := 7) rfl, UInt8.toNat_shiftLeft]
    change crc.toNat <<< 1 % 2 ^ 8 % 2 ^ 7 = _
    rw [Nat.shiftLeft_eq]
    omega
  rw [mxCrc7Bit, BitPolynomials.step]
  dsimp only
  rw [and_mask_ne_zero (i := 6) rfl, and_mask_ne_zero (i := 7) rfl]
  split
  · rw [UInt8.toNat_xor, hshifted]
    rfl
  · exact hshifted

theorem mxCrc7Bit_snd (crc v : UInt8) :
    (mxCrc7Bit (crc, v)).2.toNat = 2 * v.toNat % 2 ^ 8 := by
  change (v <<< 1).toNat = _
  rw [UInt8.toNat_shiftLeft, Nat.mul_comm]
  exact congrArg (· % 2 ^ 8) (Nat.shiftLeft_eq _ 1)

/-- The rounds of a byte shift its bits in, the highest one first. -/
theorem mxCrc7_rounds (h : IsRemainder 7 9 crc.toNat m) (hk : k ≤ 8) :
    IsRemainder 7 9 (Nat.repeat mxCrc7Bit k (crc, v)).1.toNat (m * 2 ^ k + v.toNat / 2 ^ (8 - k)) ∧
      (Nat.repeat mxCrc7Bit k (crc, v)).2.toNat = v.toNat * 2 ^ k % 2 ^ 8 := by
  induction k with
  | zero =>
    have hv : v.toNat / 2 ^ 8 = 0 := Nat.div_eq_of_lt v.toNat_lt
    refine ⟨?_, ?_⟩
    · rw [Nat.sub_zero, hv, Nat.pow_zero, Nat.mul_one, Nat.add_zero]
      exact h
    · rw [Nat.pow_zero, Nat.mul_one]
      exact (Nat.mod_eq_of_lt v.toNat_lt).symm
  | succ k ih =>
    obtain ⟨hremainder, hshifted⟩ := ih (Nat.le_of_succ_le hk)
    rw [Nat.repeat]
    generalize Nat.repeat mxCrc7Bit k (crc, v) = s at *
    -- the highest bit of what is left of the byte is the next one of the byte
    have hbit : s.2.toNat.testBit 7 = v.toNat.testBit (7 - k) := by
      rw [hshifted, Nat.testBit_mod_two_pow, Nat.testBit_mul_two_pow]
      simp
      omega
    have hnext : 2 * (m * 2 ^ k + v.toNat / 2 ^ (8 - k)) + (v.toNat.testBit (7 - k)).toNat
        = m * 2 ^ (k + 1) + v.toNat / 2 ^ (8 - (k + 1)) := by
      rw [Nat.toNat_testBit, show 8 - k = 7 - k + 1 by omega, show 8 - (k + 1) = 7 - k by omega,
        Nat.pow_succ, Nat.pow_succ, ← Nat.div_div_eq_div_mul, ← Nat.mul_assoc]
      omega
    refine ⟨?_, ?_⟩
    · rw [mxCrc7Bit_eq s.1 s.2, ← hnext, hbit]
      exact hremainder.step (by decide) (by decide) _
    · have hdouble : v.toNat * 2 ^ (k + 1) = 2 * (v.toNat * 2 ^ k) := by
        rw [Nat.pow_succ, ← Nat.mul_assoc, Nat.mul_comm]
      rw [mxCrc7Bit_snd s.1 s.2, hshifted, hdouble]
      omega

/-- A byte of the message. -/
theorem mxCrc7_byte (h : IsRemainder 7 9 crc.toNat m) (v : UInt8) :
    IsRemainder 7 9 (Nat.repeat mxCrc7Bit 8 (crc, v)).1.toNat (m * 2 ^ 8 + v.toNat) := by
  have hrounds := (mxCrc7_rounds (v := v) h (Nat.le_refl 8)).1
  rwa [Nat.sub_self, Nat.pow_zero, Nat.div_one] at hrounds

/-- The register after a message, from any remainder on. -/
theorem mxCrc7_foldl (h : IsRemainder 7 9 crc.toNat m) (data : List UInt8) :
    IsRemainder 7 9
      (data.foldl (fun crc v => (Nat.repeat mxCrc7Bit 8 (crc, v)).1) crc).toNat
      (m * 2 ^ (8 * data.length) + number data) := by
  induction data generalizing crc m with
  | nil => simpa using h
  | cons v data ih =>
    have hnumber : (m * 2 ^ 8 + v.toNat) * 2 ^ (8 * data.length) + number data
        = m * 2 ^ (8 * (data.length + 1)) + number (v :: data) := by
      rw [BitFields.number_cons, Nat.mul_succ, Nat.pow_add, Nat.add_mul]
      ring
    rw [List.length_cons, ← hnumber]
    exact ih (mxCrc7_byte h v)

theorem mxCrc7_isRemainder (data : List UInt8) :
    IsRemainder 7 9 (mxCrc7 data).toNat (number data) := by
  have hzero : IsRemainder 7 9 (0 : UInt8).toNat 0 := IsRemainder.zero
  have hfold := mxCrc7_foldl hzero data
  rwa [Nat.zero_mul, Nat.zero_add] at hfold

/-! ## Messages and packets -/

theorem generator_eq : BitPolynomials.generator 7 9 = X ^ 7 + X ^ 3 + 1 := by
  rw [BitPolynomials.generator, show 9 = 2 ^ 3 ^^^ 2 ^ 0 by decide, BitPolynomials.bitPoly_xor,
    BitPolynomials.bitPoly_two_pow, BitPolynomials.bitPoly_two_pow, pow_zero, add_assoc]

/-- The last byte of a packet keeps the remainder whole. -/
theorem toNat_checkByte (h : crc.toNat < 2 ^ 7) :
    ((crc <<< 1) ||| 1).toNat = 2 * crc.toNat + 1 := by
  rw [UInt8.toNat_or, UInt8.toNat_shiftLeft]
  change crc.toNat <<< 1 % 2 ^ 8 ||| 1 = _
  rw [Nat.mod_eq_of_lt (by rw [Nat.shiftLeft_eq]; omega), shiftLeft_or_eq_add (by decide)]
  omega

/-- The CRC of a message is a remainder of polynomial division, is linear, and tells commands
apart that differ inside of seven consecutive bits only. -/
theorem mxCrc7_remainder :
    (∀ data, bitPoly (mxCrc7 data).toNat
      = (bitPoly (number data) * X ^ 7) %ₘ (X ^ 7 + X ^ 3 + 1)) ∧
    (∀ l r, l.length = r.length →
      mxCrc7 (List.zipWith (· ^^^ ·) l r) = mxCrc7 l ^^^ mxCrc7 r) ∧
    ∀ command argument command' argument' k,
      let payload := mxPacketBody command argument
      let payload' := mxPacketBody command' argument'
      payload ≠ payload' →
      (∀ i, (number payload).testBit i ≠ (number payload').testBit i → k ≤ i ∧ i < k + 7) →
      (mxPacket command argument).getD 5 0 ≠ (mxPacket command' argument').getD 5 0 := by
  refine ⟨fun data => ?_, fun l r h => ?_, fun command argument command' argument' k => ?_⟩
  · rw [← generator_eq]
    exact (mxCrc7_isRemainder data).eq_modByMonic (by decide)
  · have hxor := (mxCrc7_isRemainder l).xor (mxCrc7_isRemainder r)
    rw [← BitFields.number_zipWith_xor h, ← UInt8.toNat_xor] at hxor
    exact UInt8.toNat_inj.1 ((mxCrc7_isRemainder _).unique (by decide) hxor)
  · intro payload payload' hne hburst heq
    have hcrc := mxCrc7_isRemainder payload
    have hcrc' := mxCrc7_isRemainder payload'
    have hnumber : number payload ≠ number payload' := fun h => hne (BitFields.number_inj rfl h)
    refine hcrc.ne_of_burst (by decide) (by decide) (by decide) hcrc' hnumber hburst ?_
    have hbyte := congrArg UInt8.toNat heq
    change ((mxCrc7 payload <<< 1) ||| 1).toNat = ((mxCrc7 payload' <<< 1) ||| 1).toNat at hbyte
    rw [toNat_checkByte hcrc.lt, toNat_checkByte hcrc'.lt] at hbyte
    omega

example : mxPacket (sdCmd 0) 0 = [0x40, 0, 0, 0, 0, 0x95] := by
  decide +kernel

end EF2SDK.IopStorage
