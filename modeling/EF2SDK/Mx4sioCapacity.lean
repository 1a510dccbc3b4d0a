import EF2SDK.ByteNumbers
import EF2SDK.Mx4sio
import EF2SDK.Words

/-!
# The capacity that a CSD register declares

The SD specification names the fields of the register by the bits of one number of 128 bits, the
first byte highest (`csdBits`), and gives the capacity of the card in them (`sdSectorCount`).
`mx_csd_sector_count` reads them out of the bytes, several of which hold parts of two fields,
and computes in 32 bits.

The largest register of structure 1 declares `2 ^ 32` sectors and is the only one of which the
number does not fit : there the product wraps to 0, so that the function returns the number of
sectors where it fits and 0 elsewhere (`mxCsdSectorCount_exact`).
-/

set_option autoImplicit false

namespace EF2SDK.IopStorage

open BitFields (field number)

/-! ## The specification -/

/-- The bits from `low` to `high` of the register. -/
def csdBits (csd : List UInt8) (high low : ℕ) : ℕ :=
  field (number csd) low (high + 1 - low)

/-- The number of 512-byte sectors, from `CSD_STRUCTURE`, `C_SIZE`, `C_SIZE_MULT` and
`READ_BL_LEN`. -/
def sdSectorCount (csd : List UInt8) : ℕ :=
  if csdBits csd 127 126 = 0 then
    (csdBits csd 73 62 + 1) * 2 ^ (csdBits csd 49 47 + 2) * 2 ^ csdBits csd 83 80 / 512
  else if csdBits csd 127 126 = 1 then
    (csdBits csd 69 48 + 1) * 1024
  else
    0

/-! ## The fields -/

section Fields

variable {csd : List UInt8} {x y s : UInt32} {n k : ℕ}

/-- Bits that lie in the `t` bytes from the byte `k` on. -/
theorem csdBits_eq (h : csd.length = 16) (k t j : ℕ) {high low : ℕ} (hkt : k + t ≤ 16)
    (hlow : low = 8 * (16 - (k + t)) + j) (hhigh : j + (high + 1 - low) ≤ 8 * t) :
    csdBits csd high low
      = number ((List.range t).map fun i => csd.getD (k + i) 0) / 2 ^ j % 2 ^ (high + 1 - low) := by
  have hfield := BitFields.field_number (h.symm ▸ hkt) hhigh
  rwa [h, ← hlow] at hfield

theorem toNat_byte_mask (b : UInt8) (hy : y.toNat = 2 ^ n - 1) :
    (b.toUInt32 &&& y).toNat = b.toNat % 2 ^ n := by
  rw [toNat_and_mask hy, UInt8.toNat_toUInt32]

theorem toNat_byte_shiftRight (b : UInt8) (hs : s.toNat = n) (hn : n < 32) :
    (b.toUInt32 >>> s).toNat = b.toNat / 2 ^ n := by
  rw [toNat_shiftRight_eq hs hn, UInt8.toNat_toUInt32]

theorem toNat_byte_shiftLeft (b : UInt8) (hs : s.toNat = n) (hn : n ≤ 24) :
    (b.toUInt32 <<< s).toNat = 2 ^ n * b.toNat := by
  have hlt : 2 ^ n * b.toNat < 2 ^ 32 :=
    calc 2 ^ n * b.toNat
      _ < 2 ^ n * 2 ^ 8 := (Nat.mul_lt_mul_left (Nat.two_pow_pos n)).2 b.toNat_lt
      _ ≤ 2 ^ 24 * 2 ^ 8 := Nat.mul_le_mul_right _ (Nat.pow_le_pow_right (by decide) hn)
  rw [toNat_shiftLeft_eq hs (by omega) (by rwa [UInt8.toNat_toUInt32]), UInt8.toNat_toUInt32]

/-- The masked byte that stands highest in a field. -/
theorem toNat_high (b : UInt8) (hy : y.toNat = 2 ^ k - 1) (hs : s.toNat = n) (hn : n ≤ 24) :
    ((b.toUInt32 &&& y) <<< s).toNat = 2 ^ n * (b.toNat % 2 ^ k) := by
  have hmask : b.toUInt32 &&& y = (UInt8.ofNat (b.toNat % 2 ^ k)).toUInt32 := by
    apply UInt32.toNat_inj.1
    rw [toNat_byte_mask b hy, UInt8.toNat_toUInt32, UInt8.toNat_ofNat_of_lt']
    exact Nat.lt_of_le_of_lt (Nat.mod_le _ _) b.toNat_lt
  rw [hmask, toNat_byte_shiftLeft _ hs hn, ← UInt8.toNat_toUInt32, ← hmask, toNat_byte_mask b hy]

/-- The bits of a byte that stand lowest in a field. -/
theorem toNat_low (b : UInt8) (hs : s.toNat = n) (hy : y.toNat = 2 ^ k - 1) (hn : n + k = 8)
    (hk : 0 < k) : ((b.toUInt32 >>> s) &&& y).toNat = b.toNat / 2 ^ n := by
  rw [toNat_and_mask hy, toNat_byte_shiftRight b hs (by omega)]
  refine Nat.mod_eq_of_lt (Nat.div_lt_of_lt_mul ?_)
  rw [← Nat.pow_add, hn]
  exact b.toNat_lt

/-- A byte behind the bits that stand above it. -/
theorem toNat_or_byte {high byte : ℕ} (hx : x.toNat = 2 ^ n * (2 ^ 8 * high))
    (hy : y.toNat = 2 ^ n * byte) (hbyte : byte < 2 ^ 8) :
    (x ||| y).toNat = 2 ^ n * (2 ^ 8 * high + byte) := by
  have hlt : y.toNat < 2 ^ (n + 8) := by
    rw [hy, Nat.pow_add]
    exact (Nat.mul_lt_mul_left (Nat.two_pow_pos n)).2 hbyte
  rw [← Nat.mul_assoc, ← Nat.pow_add] at hx
  rw [toNat_or_add hx hlt, hy, Nat.pow_add, Nat.mul_assoc, Nat.mul_add]

/-! ## The fields in the code -/

/-- `CSD_STRUCTURE`. -/
theorem toNat_structure (h : csd.length = 16) :
    (((csd.getD 0 0).toUInt32 >>> 6) &&& 3).toNat = csdBits csd 127 126 := by
  have hlt := (csd.getD 0 0).toNat_lt
  rw [csdBits_eq h 0 1 6 (by decide) rfl (by decide), toNat_low _ (n := 6) (k := 2) rfl rfl rfl
    (by decide)]
  change _ = number [csd.getD 0 0] / 2 ^ 6 % 2 ^ 2
  rw [BitFields.number_singleton]
  omega

/-- `READ_BL_LEN`. -/
theorem toNat_readBlockShift (h : csd.length = 16) :
    ((csd.getD 5 0).toUInt32 &&& 0x0F).toNat = csdBits csd 83 80 := by
  rw [csdBits_eq h 5 1 0 (by decide) rfl (by decide), toNat_byte_mask _ (n := 4) rfl]
  change _ = number [csd.getD 5 0] / 2 ^ 0 % 2 ^ 4
  rw [BitFields.number_singleton]
  omega

/-- `C_SIZE` of structure 1. -/
theorem toNat_cSize_one (h : csd.length = 16) :
    ((((csd.getD 7 0).toUInt32 &&& 0x3F) <<< 16) ||| ((csd.getD 8 0).toUInt32 <<< 8) |||
      (csd.getD 9 0).toUInt32).toNat = csdBits csd 69 48 := by
  rw [csdBits_eq h 7 3 0 (by decide) rfl (by decide)]
  change _ = number [csd.getD 7 0, csd.getD 8 0, csd.getD 9 0] / 2 ^ 0 % 2 ^ 22
  generalize csd.getD 7 0 = a, csd.getD 8 0 = b, csd.getD 9 0 = c
  have ha := toNat_high a (k := 6) (n := 16) (y := 0x3F) (s := 16) rfl rfl (by decide)
  have hb := toNat_byte_shiftLeft b (n := 8) (s := 8) rfl (by decide)
  have hblt := b.toNat_lt
  have hab := toNat_or_byte (n := 8) (ha.trans (Nat.mul_assoc (2 ^ 8) (2 ^ 8) _)) hb hblt
  have hc := c.toNat_lt
  rw [toNat_or_add hab (by rwa [UInt8.toNat_toUInt32]), UInt8.toNat_toUInt32]
  simp only [BitFields.number_cons, BitFields.number_nil, List.length_cons, List.length_nil]
  omega

/-- `C_SIZE` of structure 0. -/
theorem toNat_cSize_zero (h : csd.length = 16) :
    ((((csd.getD 6 0).toUInt32 &&& 0x03) <<< 10) ||| ((csd.getD 7 0).toUInt32 <<< 2) |||
      (((csd.getD 8 0).toUInt32 >>> 6) &&& 0x03)).toNat = csdBits csd 73 62 := by
  rw [csdBits_eq h 6 3 6 (by decide) rfl (by decide)]
  change _ = number [csd.getD 6 0, csd.getD 7 0, csd.getD 8 0] / 2 ^ 6 % 2 ^ 12
  generalize csd.getD 6 0 = a, csd.getD 7 0 = b, csd.getD 8 0 = c
  have ha := toNat_high a (k := 2) (n := 10) (y := 0x03) (s := 10) rfl rfl (by decide)
  have hb := toNat_byte_shiftLeft b (n := 2) (s := 2) rfl (by decide)
  have hblt := b.toNat_lt
  have hab := toNat_or_byte (n := 2) (ha.trans (Nat.mul_assoc (2 ^ 2) (2 ^ 8) _)) hb hblt
  have hc := c.toNat_lt
  have hlow := toNat_low c (n := 6) (k := 2) (s := 6) (y := 0x03) rfl rfl rfl (by decide)
  rw [toNat_or_add hab (by rw [hlow]; omega), hlow]
  simp only [BitFields.number_cons, BitFields.number_nil, List.length_cons, List.length_nil]
  omega

/-- `C_SIZE_MULT`. -/
theorem toNat_cSizeMult (h : csd.length = 16) :
    ((((csd.getD 9 0).toUInt32 &&& 0x03) <<< 1) |||
      (((csd.getD 10 0).toUInt32 >>> 7) &&& 1)).toNat = csdBits csd 49 47 := by
  rw [csdBits_eq h 9 2 7 (by decide) rfl (by decide)]
  change _ = number [csd.getD 9 0, csd.getD 10 0] / 2 ^ 7 % 2 ^ 3
  generalize csd.getD 9 0 = a, csd.getD 10 0 = b
  have ha := toNat_high a (k := 2) (n := 1) (y := 0x03) (s := 1) rfl rfl (by decide)
  have hb := b.toNat_lt
  have hlow := toNat_low b (n := 7) (k := 1) (s := 7) (y := 1) rfl rfl rfl (by decide)
  rw [toNat_or_add ha (by rw [hlow]; omega), hlow]
  simp only [BitFields.number_cons, BitFields.number_nil, List.length_cons, List.length_nil]
  omega

end Fields

/-! ## The number of sectors -/

section Capacity

variable {csd : List UInt8} {units : UInt32} {shift : ℕ}

theorem csdBits_lt (csd : List UInt8) (high low : ℕ) :
    csdBits csd high low < 2 ^ (high + 1 - low) :=
  Nat.mod_lt _ (Nat.two_pow_pos _)

/-- Multiplying by a power of two and counting in units of 512. -/
theorem mul_two_pow_div (n : ℕ) {e : ℕ} :
    n * 2 ^ e / 512 = if 9 ≤ e then n * 2 ^ (e - 9) else n / 2 ^ (9 - e) := by
  split
  · next h =>
    obtain ⟨d, rfl⟩ := Nat.exists_eq_add_of_le h
    rw [Nat.pow_add, Nat.mul_left_comm, Nat.add_sub_cancel_left]
    exact Nat.mul_div_cancel_left _ (by decide)
  · next h =>
    have hpow : 512 = 2 ^ (9 - e) * 2 ^ e := by
      rw [← Nat.pow_add, Nat.sub_add_cancel (by omega)]
    rw [hpow, Nat.mul_div_mul_right _ _ (Nat.two_pow_pos e)]

/-- The shift of the code, in a case for each direction. -/
theorem toNat_shifted {e : ℕ} (hunits : units.toNat ≤ 2 ^ 12) (he : 2 ≤ e) (he' : e ≤ 24) :
    (if 0 ≤ (e : ℤ) - 9 then
        if 32 ≤ (e : ℤ) - 9 ∨ 0xFFFFFFFF >>> UInt32.ofNat ((e : ℤ) - 9).toNat < units then 0
        else units <<< UInt32.ofNat ((e : ℤ) - 9).toNat
      else if (e : ℤ) - 9 ≤ -32 then 0
      else units >>> UInt32.ofNat (-((e : ℤ) - 9)).toNat).toNat
      = units.toNat * 2 ^ e / 512 := by
  rw [mul_two_pow_div]
  by_cases h : 9 ≤ e
  · have hofNat : (UInt32.ofNat ((e : ℤ) - 9).toNat).toNat = e - 9 := by
      rw [UInt32.toNat_ofNat_of_lt' (by simp only [UInt32.size]; omega)]
      omega
    have hpow : 2 ^ (e - 9) ≤ 2 ^ 15 := Nat.pow_le_pow_right (by decide) (by omega)
    have hfits : ¬(32 ≤ (e : ℤ) - 9 ∨
        0xFFFFFFFF >>> UInt32.ofNat ((e : ℤ) - 9).toNat < units) := by
      rw [not_or, UInt32.lt_iff_toNat_lt, toNat_shiftRight_eq hofNat (by omega)]
      refine ⟨by omega, Nat.not_lt.2 (hunits.trans ?_)⟩
      refine (Nat.le_div_iff_mul_le (Nat.two_pow_pos _)).2 ?_
      calc 2 ^ 12 * 2 ^ (e - 9)
        _ ≤ 2 ^ 12 * 2 ^ 15 := Nat.mul_le_mul_left _ hpow
        _ ≤ _ := by decide
    have hlt : 2 ^ (e - 9) * units.toNat < 2 ^ 32 :=
      calc 2 ^ (e - 9) * units.toNat
        _ ≤ 2 ^ 15 * 2 ^ 12 := Nat.mul_le_mul hpow hunits
        _ < 2 ^ 32 := by decide
    rw [if_pos (by omega), if_neg hfits, if_pos h, toNat_shiftLeft_eq hofNat (by omega) hlt,
      Nat.mul_comm]
  · have hofNat : (UInt32.ofNat (-((e : ℤ) - 9)).toNat).toNat = 9 - e := by
      rw [UInt32.toNat_ofNat_of_lt' (by simp only [UInt32.size]; omega)]
      omega
    rw [if_neg (by omega), if_neg (by omega), if_neg h, toNat_shiftRight_eq hofNat (by omega)]

theorem mxCsdSectorCount_zero (h : csd.length = 16) (hzero : csdBits csd 127 126 = 0) :
    (mxCsdSectorCount csd).toNat = sdSectorCount csd := by
  have hstructure := toNat_structure h
  have hsize := toNat_cSize_zero h
  have hsizeLt := csdBits_lt csd 73 62
  have hmultLt := csdBits_lt csd 49 47
  have hblockLt := csdBits_lt csd 83 80
  have hif : ((csd.getD 0 0).toUInt32 >>> 6) &&& 3 = 0 :=
    UInt32.toNat_inj.1 (hstructure.trans hzero)
  have hshift : ((csdBits csd 49 47 : ℕ) : ℤ) + 2 + (csdBits csd 83 80 : ℕ)
      = ((csdBits csd 49 47 + 2 + csdBits csd 83 80 : ℕ) : ℤ) := by
    push_cast
    rfl
  rw [mxCsdSectorCount, sdSectorCount, if_pos hzero]
  dsimp only
  rw [hif, if_neg (by decide), if_pos rfl, toNat_cSizeMult h, toNat_readBlockShift h, hshift]
  generalize ((csd.getD 6 0).toUInt32 &&& 3) <<< 10 ||| (csd.getD 7 0).toUInt32 <<< 2 |||
    (csd.getD 8 0).toUInt32 >>> 6 &&& 3 = cSize at *
  have hunits : (cSize + 1).toNat = csdBits csd 73 62 + 1 := by
    rw [toNat_add_one (by omega), hsize]
  rw [toNat_shifted (by omega) (by omega) (by omega), hunits, Nat.pow_add, Nat.mul_assoc]

theorem mxCsdSectorCount_one (h : csd.length = 16) (hone : csdBits csd 127 126 = 1) :
    (mxCsdSectorCount csd).toNat = sdSectorCount csd % 2 ^ 32 := by
  have hif : ((csd.getD 0 0).toUInt32 >>> 6) &&& 3 = 1 :=
    UInt32.toNat_inj.1 ((toNat_structure h).trans hone)
  have hne : ¬csdBits csd 127 126 = 0 := by
    rw [hone]
    decide
  rw [mxCsdSectorCount, sdSectorCount, if_neg hne, if_pos hone]
  dsimp only
  rw [if_pos hif, UInt32.toNat_mul, UInt32.toNat_add, toNat_cSize_one h, UInt32.toNat_one]
  simp

theorem mxCsdSectorCount_other (h : csd.length = 16) (hzero : csdBits csd 127 126 ≠ 0)
    (hone : csdBits csd 127 126 ≠ 1) : mxCsdSectorCount csd = 0 ∧ sdSectorCount csd = 0 := by
  have hstructure := toNat_structure h
  have hif : ((csd.getD 0 0).toUInt32 >>> 6) &&& 3 ≠ 1 :=
    fun heq => hone (hstructure.symm.trans (congrArg UInt32.toNat heq))
  have hif' : ((csd.getD 0 0).toUInt32 >>> 6) &&& 3 ≠ 0 :=
    fun heq => hzero (hstructure.symm.trans (congrArg UInt32.toNat heq))
  rw [mxCsdSectorCount, sdSectorCount, if_neg hzero, if_neg hone]
  dsimp only
  rw [if_neg hif, if_neg hif']
  exact ⟨rfl, rfl⟩

/-- A register of structure 1 declares at most `2 ^ 32` sectors. -/
theorem sdSectorCount_one_le (hone : csdBits csd 127 126 = 1) : sdSectorCount csd ≤ 2 ^ 32 := by
  have hsize := csdBits_lt csd 69 48
  have hne : ¬csdBits csd 127 126 = 0 := by
    rw [hone]
    decide
  rw [sdSectorCount, if_neg hne, if_pos hone]
  omega

/-- The number of sectors that the register declares, and 0 where a word does not hold it. -/
theorem mxCsdSectorCount_exact (csd : Vector UInt8 16) :
    (mxCsdSectorCount csd.toList).toNat
      = if sdSectorCount csd.toList < 2 ^ 32 then sdSectorCount csd.toList else 0 := by
  have hlength : csd.toList.length = 16 := csd.length_toList
  by_cases hzero : csdBits csd.toList 127 126 = 0
  · have heq := mxCsdSectorCount_zero hlength hzero
    rw [if_pos (heq ▸ UInt32.toNat_lt _), heq]
  by_cases hone : csdBits csd.toList 127 126 = 1
  · have hle := sdSectorCount_one_le hone
    rw [mxCsdSectorCount_one hlength hone]
    split
    · next hlt => exact Nat.mod_eq_of_lt hlt
    · next hlt => rw [Nat.le_antisymm hle (Nat.le_of_not_lt hlt), Nat.mod_self]
  · obtain ⟨hcode, hspec⟩ := mxCsdSectorCount_other hlength hzero hone
    rw [hcode, hspec]
    rfl

end Capacity

end EF2SDK.IopStorage
