import Mathlib.Data.List.Range
import Mathlib.Logic.Function.Basic
import EF2SDK.Words

/-!
# Packing of 4-bit texture indices

`ef2_video_pack_indices4` of `src/ee/gs/video.c` : two palette indices go into a byte, the even
one into the low nibble. The function stores one byte after the other, `packedByte` of the
index array, as many as half the pixels rounded up (`packIndices4_eq_fill`).

The number of bytes that it compares with the buffer's size is computed in 32 bits, and is 0
for the largest count of pixels : there the buffer is not checked, and only there
(`packIndices4_packs_iff`).
-/

set_option autoImplicit false

namespace EF2SDK.Video

/-- A byte buffer, with the offsets that were stored to. -/
structure Buffer where
  bytes : UInt32 → UInt8
  written : List UInt32

def Buffer.store (packed : Buffer) (offset : UInt32) (value : UInt8) : Buffer where
  bytes := Function.update packed.bytes offset value
  written := packed.written ++ [offset]

/-- The loop of `ef2_video_pack_indices4`. -/
def packPairs (indices : UInt32 → UInt8) (pairs pair : UInt32) (packed : Buffer) : Buffer :=
  if pair < pairs then
    let low := indices (pair * 2) &&& 0x0F
    let high := indices (pair * 2 + 1) &&& 0x0F
    packPairs indices pairs (pair + 1) (packed.store pair (low ||| (high <<< 4)))
  else
    packed
termination_by pairs.toNat - pair.toNat
decreasing_by
  have hpair : pair.toNat < pairs.toNat := ‹_›
  have := pairs.toNat_lt
  rw [UInt32.toNat_add, Nat.mod_eq_of_lt (by simpa using by omega)]
  simp only [UInt32.toNat_one]
  omega

/-- `ef2_video_pack_indices4` : the result, and the buffer. -/
def packIndices4 (packed : Option Buffer) (packedSize : UInt32)
    (indices : Option (UInt32 → UInt8)) (pixelCount : UInt32) : ℤ × Option Buffer :=
  match packed, indices with
  | some packed, some indices =>
    let required := (pixelCount + 1) >>> 1
    if packedSize < required then
      (-2, some packed)
    else
      let packed := packPairs indices (pixelCount >>> 1) 0 packed
      let packed :=
        if pixelCount &&& 1 ≠ 0 then
          packed.store (pixelCount >>> 1) (indices (pixelCount - 1) &&& 0x0F)
        else
          packed
      (required.toInt32.toInt, some packed)
  | packed, _ => (-1, packed)

/-! ## Filling a buffer -/

/-- The first `n` bytes stored, one after the other. -/
def Buffer.fill (packed : Buffer) (f : UInt32 → UInt8) : ℕ → Buffer
  | 0 => packed
  | n + 1 => (packed.fill f n).store (UInt32.ofNat n) (f (UInt32.ofNat n))

section Fill

variable {packed : Buffer} {f : UInt32 → UInt8} {n : ℕ}

theorem Buffer.written_fill :
    (packed.fill f n).written = packed.written ++ (List.range n).map UInt32.ofNat := by
  induction n with
  | zero => simp [fill]
  | succ n ih => simp [fill, store, ih, List.range_succ]

theorem Buffer.bytes_fill {i : ℕ} (hi : i < n) (hn : n ≤ 2 ^ 32) :
    (packed.fill f n).bytes (UInt32.ofNat i) = f (UInt32.ofNat i) := by
  induction n with
  | zero => exact absurd hi (Nat.not_lt_zero i)
  | succ n ih =>
    by_cases h : UInt32.ofNat i = UInt32.ofNat n
    · rw [h]
      exact Function.update_self _ _ _
    · have hne : i ≠ n := fun heq => h (heq ▸ rfl)
      exact (Function.update_of_ne h _ _).trans (ih (by omega) (by omega))

end Fill

/-! ## The bytes -/

/-- The byte of an offset : two indices, or the last one alone. -/
def packedByte (indices : UInt32 → UInt8) (count offset : UInt32) : UInt8 :=
  let low := indices (offset * 2) &&& 0x0F
  let high := if offset * 2 + 1 < count then indices (offset * 2 + 1) &&& 0x0F else 0
  low ||| (high <<< 4)

section Packing

variable {packed : Buffer} {indices : UInt32 → UInt8} {count pairs : UInt32} {k : ℕ}

theorem toNat_pair (h : k < 2 ^ 31) : (UInt32.ofNat k * 2).toNat = 2 * k ∧
    (UInt32.ofNat k * 2 + 1).toNat = 2 * k + 1 := by
  simp only [UInt32.toNat_add, UInt32.toNat_mul, UInt32.toNat_ofNat']
  simp
  omega

theorem packedByte_pair (indices : UInt32 → UInt8) (h : 2 * k + 1 < count.toNat) :
    packedByte indices count (UInt32.ofNat k)
      = indices (UInt32.ofNat k * 2) &&& (0x0F : UInt8) |||
        (indices (UInt32.ofNat k * 2 + 1) &&& (0x0F : UInt8)) <<< (4 : UInt8) := by
  have hlt : UInt32.ofNat k * 2 + 1 < count := by
    rw [UInt32.lt_iff_toNat_lt, (toNat_pair (by have := count.toNat_lt; omega)).2]
    exact h
  simp only [packedByte, if_pos hlt]

theorem packedByte_last (indices : UInt32 → UInt8) (h : count.toNat = 2 * k + 1) :
    packedByte indices count (UInt32.ofNat k) = indices (count - 1) &&& 0x0F := by
  have hpair := toNat_pair (k := k) (by have := count.toNat_lt; omega)
  have hlt : ¬UInt32.ofNat k * 2 + 1 < count := by
    rw [UInt32.lt_iff_toNat_lt, hpair.2, h]
    exact Nat.lt_irrefl _
  have hlast : UInt32.ofNat k * 2 = count - 1 := by
    apply UInt32.toNat_inj.1
    rw [hpair.1, UInt32.toNat_sub_of_le _ _ (UInt32.le_iff_toNat_le.2 (by simp [h])), h]
    rfl
  simp [packedByte, hlast]

/-- The loop stores the bytes of the pairs. -/
theorem packPairs_eq_fill (hpairs : pairs.toNat = count.toNat / 2) (h : k ≤ pairs.toNat) :
    packPairs indices pairs (UInt32.ofNat k) (packed.fill (packedByte indices count) k)
      = packed.fill (packedByte indices count) pairs.toNat := by
  have hlt := pairs.toNat_lt
  have htoNat : (UInt32.ofNat k).toNat = k :=
    UInt32.toNat_ofNat_of_lt' (Nat.lt_of_le_of_lt h hlt)
  induction hleft : pairs.toNat - k generalizing k with
  | zero =>
    rw [packPairs, if_neg fun hk => by rw [UInt32.lt_iff_toNat_lt, htoNat] at hk; omega]
    rw [Nat.le_antisymm h (Nat.sub_eq_zero_iff_le.1 hleft)]
  | succ left ih =>
    rw [packPairs, if_pos (by rw [UInt32.lt_iff_toNat_lt, htoNat]; omega)]
    have hnext : UInt32.ofNat k + 1 = UInt32.ofNat (k + 1) := by
      rw [UInt32.ofNat_add]
      rfl
    dsimp only
    rw [← packedByte_pair indices (show 2 * k + 1 < count.toNat by omega), hnext]
    exact ih (by omega) (UInt32.toNat_ofNat_of_lt' (by simp [UInt32.size]; omega)) (by omega)

theorem odd_iff : count &&& 1 ≠ 0 ↔ count.toNat % 2 = 1 := by
  rw [Ne, ← UInt32.toNat_inj, UInt32.toNat_and]
  simp [Nat.and_one_is_mod]

variable (packed indices count) in
/-- The function fails, or stores the bytes of the image from the first on. -/
theorem packIndices4_eq_fill (packedSize : UInt32) :
    packIndices4 (some packed) packedSize (some indices) count
      = if packedSize < (count + 1) >>> 1 then (-2, some packed)
        else (((count + 1) >>> 1).toInt32.toInt,
          some (packed.fill (packedByte indices count) ((count.toNat + 1) / 2))) := by
  have hpairs : (count >>> 1).toNat = count.toNat / 2 :=
    toNat_shiftRight_eq (n := 1) rfl (by decide)
  have hloop : packPairs indices (count >>> 1) 0 packed
      = packed.fill (packedByte indices count) (count.toNat / 2) := by
    rw [← hpairs]
    exact packPairs_eq_fill hpairs (Nat.zero_le _)
  rw [packIndices4]
  refine congrArg _ ?_
  dsimp only
  rw [hloop]
  split
  · next h =>
    have hodd := odd_iff.1 h
    have hsucc : (count.toNat + 1) / 2 = count.toNat / 2 + 1 := by omega
    have hoffset : count >>> 1 = UInt32.ofNat (count.toNat / 2) := by
      rw [← hpairs, UInt32.ofNat_toNat]
    rw [hsucc, Buffer.fill, ← hoffset, hoffset, packedByte_last indices (by omega)]
  · next h =>
    have heven : ¬count.toNat % 2 = 1 := fun hodd => h (odd_iff.2 hodd)
    rw [show (count.toNat + 1) / 2 = count.toNat / 2 by omega]

end Packing

/-! ## Packed images -/

section Images

variable {packed : Buffer} {indices : UInt32 → UInt8} {count : UInt32} {n i : ℕ}

/-- The bytes hold the image : an even index in the low nibble, an odd one in the high nibble,
and nothing in the nibble that is left. -/
structure HoldsImage (bytes : UInt32 → UInt8) (indices : UInt32 → UInt8) (count : ℕ) : Prop where
  even : ∀ i < count, i % 2 = 0 →
    (bytes (UInt32.ofNat (i / 2))).toNat % 16 = (indices (UInt32.ofNat i)).toNat % 16
  odd : ∀ i < count, i % 2 = 1 →
    (bytes (UInt32.ofNat (i / 2))).toNat / 16 = (indices (UInt32.ofNat i)).toNat % 16
  unused : count % 2 = 1 → (bytes (UInt32.ofNat (count / 2))).toNat / 16 = 0

theorem toNat_or_nibble (low high : UInt8) :
    (low &&& (0x0F : UInt8) ||| (high &&& (0x0F : UInt8)) <<< (4 : UInt8)).toNat
      = high.toNat % 16 * 16 + low.toNat % 16 := by
  have hlow : (low &&& (0x0F : UInt8)).toNat = low.toNat % 16 :=
    toNat_and_mask8 low (n := 4) rfl
  have hhigh : (high &&& (0x0F : UInt8)).toNat = high.toNat % 16 :=
    toNat_and_mask8 high (n := 4) rfl
  have hshift : (high.toNat % 16) <<< 4 < 2 ^ 8 := by
    rw [Nat.shiftLeft_eq]
    omega
  rw [UInt8.toNat_or, UInt8.toNat_shiftLeft, hlow, hhigh, Nat.or_comm]
  change (high.toNat % 16) <<< 4 % 2 ^ 8 ||| _ = _
  have hnibble : low.toNat % 16 < 2 ^ 4 := Nat.mod_lt _ (by decide)
  rw [Nat.mod_eq_of_lt hshift, shiftLeft_or_eq_add hnibble]
  rfl

/-- The byte of two indices. -/
theorem toNat_packedByte_pair (h : 2 * n + 1 < count.toNat) :
    (packedByte indices count (UInt32.ofNat n)).toNat
      = (indices (UInt32.ofNat (2 * n + 1))).toNat % 16 * 16
        + (indices (UInt32.ofNat (2 * n))).toNat % 16 := by
  have hlow : UInt32.ofNat n * 2 = UInt32.ofNat (2 * n) := by
    rw [Nat.mul_comm, UInt32.ofNat_mul]
    rfl
  have hhigh : UInt32.ofNat n * 2 + 1 = UInt32.ofNat (2 * n + 1) := by
    rw [hlow, UInt32.ofNat_add]
    rfl
  rw [packedByte_pair indices h, toNat_or_nibble, hhigh, hlow]

/-- The byte of the last index of an image of odd length. -/
theorem toNat_packedByte_last (h : count.toNat = 2 * n + 1) :
    (packedByte indices count (UInt32.ofNat n)).toNat
      = (indices (UInt32.ofNat (2 * n))).toNat % 16 := by
  have hlast : count - 1 = UInt32.ofNat (2 * n) := by
    rw [← UInt32.ofNat_toNat (x := count), h, UInt32.ofNat_add]
    exact UInt32.add_sub_cancel _ _
  rw [packedByte_last indices h, hlast]
  exact toNat_and_mask8 _ (n := 4) rfl

theorem holdsImage_fill :
    HoldsImage (packed.fill (packedByte indices count) ((count.toNat + 1) / 2)).bytes indices
      count.toNat := by
  have hsize : (count.toNat + 1) / 2 ≤ 2 ^ 32 := by
    have := count.toNat_lt
    omega
  refine ⟨fun i hi heven => ?_, fun i hi hodd => ?_, fun hodd => ?_⟩
  · rw [Buffer.bytes_fill (by omega) hsize]
    by_cases hpair : 2 * (i / 2) + 1 < count.toNat
    · rw [toNat_packedByte_pair hpair, show 2 * (i / 2) = i by omega]
      omega
    · rw [toNat_packedByte_last (by omega), show 2 * (i / 2) = i by omega, Nat.mod_mod]
  · rw [Buffer.bytes_fill (by omega) hsize, toNat_packedByte_pair (by omega),
      show 2 * (i / 2) + 1 = i by omega]
    omega
  · rw [Buffer.bytes_fill (by omega) hsize, toNat_packedByte_last (by omega)]
    omega

/-- The number of bytes that the function computes is right, but for the largest count. -/
theorem toNat_required (h : count ≠ 0xFFFFFFFF) :
    ((count + 1) >>> 1).toNat = (count.toNat + 1) / 2 := by
  have hne : count.toNat ≠ 2 ^ 32 - 1 := fun heq => h (UInt32.toNat_inj.1 heq)
  have hlt := count.toNat_lt
  rw [toNat_shiftRight_eq (n := 1) rfl (by decide), UInt32.toNat_add]
  simp only [UInt32.toNat_one]
  omega

theorem toInt_toInt32 {x : UInt32} (h : x.toNat < 2 ^ 31) : x.toInt32.toInt = x.toNat := by
  have hint : (UInt32.ofNat x.toNat).toInt32.toInt = x.toNat := Int32.toInt_ofNat_of_lt h
  rwa [UInt32.ofNat_toNat] at hint

end Images

/-! ## What the function is for -/

/-- The call fails and stores nothing, or it stores inside of the buffer only, and the buffer then
holds the image, in as many bytes as the result says. -/
def Packs (packed : Option Buffer) (packedSize : UInt32) (indices : Option (UInt32 → UInt8))
    (count : UInt32) (r : ℤ × Option Buffer) : Prop :=
  (r.1 < 0 ∧ r.2 = packed) ∨
    ∃ before after written image, packed = some before ∧ r.2 = some after ∧
      indices = some image ∧ after.written = before.written ++ written ∧
      (∀ offset ∈ written, offset < packedSize) ∧ HoldsImage after.bytes image count.toNat ∧
      r.1 = ((count.toNat + 1) / 2 : ℕ)

theorem packIndices4_packs_iff (packed : Option Buffer) (packedSize : UInt32)
    (indices : Option (UInt32 → UInt8)) (count : UInt32) :
    Packs packed packedSize indices count (packIndices4 packed packedSize indices count) ↔
      packed = none ∨ indices = none ∨ count ≠ 0xFFFFFFFF := by
  cases packed with
  | none => exact iff_of_true (Or.inl ⟨show (-1 : ℤ) < 0 by decide, rfl⟩) (Or.inl rfl)
  | some packed =>
    cases indices with
    | none => exact iff_of_true (Or.inl ⟨show (-1 : ℤ) < 0 by decide, rfl⟩) (Or.inr (Or.inl rfl))
    | some indices =>
      rw [packIndices4_eq_fill]
      by_cases hcount : count = 0xFFFFFFFF
      · subst hcount
        refine iff_of_false ?_ (by simp)
        rintro (⟨hneg, -⟩ | ⟨_, _, _, _, -, -, -, -, -, -, hresult⟩)
        · exact absurd hneg (by simp)
        · exact absurd hresult (by simp)
      · have hrequired := toNat_required hcount
        refine iff_of_true ?_ (Or.inr (Or.inr hcount))
        split
        · exact Or.inl ⟨show (-2 : ℤ) < 0 by decide, rfl⟩
        · next hsize =>
          refine Or.inr ⟨packed, _, _, indices, rfl, rfl, rfl, Buffer.written_fill, ?_,
            holdsImage_fill, ?_⟩
          · intro offset hoffset
            obtain ⟨i, hi, rfl⟩ := List.mem_map.1 hoffset
            refine UInt32.lt_of_lt_of_le ?_ (UInt32.not_lt.1 hsize)
            rw [UInt32.lt_iff_toNat_lt, hrequired]
            exact Nat.lt_of_le_of_lt (Nat.mod_le _ _) (List.mem_range.1 hi)
          · have := count.toNat_lt
            have hne : count.toNat ≠ 2 ^ 32 - 1 := fun heq => hcount (UInt32.toNat_inj.1 heq)
            dsimp only
            rw [toInt_toInt32 (by omega), hrequired]

/-- With the largest count of pixels, a buffer of 16 bytes is overrun, and the result is 0. -/
theorem packIndices4_overruns :
    let r := packIndices4 (some ⟨fun _ => 0, []⟩) 16 (some fun _ => 0) 0xFFFFFFFF
    r.1 = 0 ∧ (∃ after, r.2 = some after ∧ 16 ∈ after.written) ∧
      ¬Packs (some ⟨fun _ => 0, []⟩) 16 (some fun _ => 0) 0xFFFFFFFF r := by
  dsimp only
  rw [packIndices4_eq_fill, if_neg (by decide)]
  refine ⟨rfl, ⟨_, rfl, ?_⟩, ?_⟩
  · rw [Buffer.written_fill]
    exact List.mem_append_right _ (List.mem_map.2 ⟨16, List.mem_range.2 (by decide), rfl⟩)
  · rintro (⟨hneg, -⟩ | ⟨_, _, _, _, -, -, -, -, -, -, hresult⟩)
    · exact absurd hneg (by simp)
    · exact absurd hresult (by simp)

end EF2SDK.Video
