import EF2SDK.Rounding
import Mathlib.Logic.Function.Basic

/-!
# The audio mixer

`ef2_audio_mix_s16` of `src/ee/audio/audio.c` adds a source scaled by a Q15 gain to a
destination. The products and sums are signed 64-bit integers, whose overflow C leaves
undefined (`Fault.overflow`).

The scaled sample is rounded to the nearest integer, ties away from zero (`scale_eq`), and no
gain makes it overflow. `mixS16_exact` : each sample is the exact sum, saturated.
-/

set_option autoImplicit false

namespace EF2SDK.Audio

open Rounding

/-- `EF2_AUDIO_Q15_ONE`. -/
abbrev q15One : ℤ := 32768

/-- What ends the mixer early. -/
inductive Fault
  | overflow
  deriving DecidableEq

/-- The result of an operation on `ef2_s64`. -/
def s64 (x : ℤ) : Except Fault ℤ :=
  if -2 ^ 63 ≤ x ∧ x < 2 ^ 63 then .ok x else .error .overflow

/-- `ef2_audio_saturate_s16`. -/
def saturateS16 (value : ℤ) : Int16 :=
  if value > 32767 then 32767 else if value < -32768 then -32768 else .ofInt value

/-- `scaled` in a round of the loop : a source sample times the gain, rounded. -/
def scale (source : Int16) (gainQ15 : Int32) : Except Fault ℤ := do
  let scaled ← s64 (source.toInt * gainQ15.toInt)
  if scaled ≥ 0 then
    let sum ← s64 (scaled + q15One / 2)
    pure (sum >>> (15 : ℕ))
  else
    let negated ← s64 (-scaled)
    let sum ← s64 (negated + q15One / 2)
    s64 (-(sum >>> (15 : ℕ)))

/-- The loop of `ef2_audio_mix_s16`. -/
def mixLoop (destination source : ℕ → Int16) (gainQ15 : Int32) :
    (sampleCount : ℕ) → Except Fault (ℕ → Int16)
  | 0 => .ok destination
  | i + 1 => do
    let destination ← mixLoop destination source gainQ15 i
    let scaled ← scale (source i) gainQ15
    let mixed ← s64 ((destination i).toInt + scaled)
    pure (Function.update destination i (saturateS16 mixed))

/-- `ef2_audio_mix_s16`; a null pointer is `none`. What it leaves in the destination. -/
def mixS16 (destination source : Option (ℕ → Int16)) (sampleCount : UInt32) (gainQ15 : Int32) :
    Except Fault (Option (ℕ → Int16)) :=
  match destination, source with
  | some destination, some source =>
    (mixLoop destination source gainQ15 sampleCount.toNat).map some
  | destination, _ => .ok destination

/-! ## One sample -/

variable {x r : ℤ}

theorem s64_of_mem (hlo : -2 ^ 63 ≤ x) (hhi : x < 2 ^ 63) : s64 x = .ok x :=
  if_pos ⟨hlo, hhi⟩

/-- A value brought into the range of 16 bits. -/
def clamp16 (x : ℤ) : ℤ :=
  max (-32768) (min 32767 x)

theorem saturateS16_toInt (x : ℤ) : (saturateS16 x).toInt = clamp16 x := by
  unfold saturateS16 clamp16
  split_ifs with hhi hlo
  · rw [min_eq_left (by omega), max_eq_right (by decide)]
    rfl
  · rw [min_eq_right (by omega), max_eq_left (by omega)]
    rfl
  · rw [min_eq_right (by omega), max_eq_right (by omega)]
    exact Int16.toInt_ofInt_of_le (by omega) (by omega)

/-- The product of a sample and a gain, far from the ends of 64 bits. -/
theorem abs_product_le (source : Int16) (gain : Int32) :
    |source.toInt * gain.toInt| ≤ 2 ^ 46 := by
  have hs : |source.toInt| ≤ 2 ^ 15 := abs_le.2 ⟨source.le_toInt, source.toInt_lt.le⟩
  have hg : |gain.toInt| ≤ 2 ^ 31 := abs_le.2 ⟨gain.le_toInt, gain.toInt_lt.le⟩
  calc |source.toInt * gain.toInt| = |source.toInt| * |gain.toInt| := abs_mul _ _
    _ ≤ 2 ^ 15 * 2 ^ 31 := mul_le_mul hs hg (abs_nonneg _) (by decide)
    _ = 2 ^ 46 := by decide

/-- Half of the unit is added to a product, and the sum shifted, without an overflow. -/
theorem half_up {m : ℤ} (hm : 0 ≤ m) (hle : m ≤ 2 ^ 46) :
    s64 (m + q15One / 2) = .ok (m + 2 ^ 14) ∧
      IsNearestAway m (2 ^ 15) ((m + 2 ^ 14) >>> (15 : ℕ)) ∧
      0 ≤ (m + 2 ^ 14) >>> (15 : ℕ) ∧ (m + 2 ^ 14) >>> (15 : ℕ) ≤ 2 ^ 32 := by
  have hshift : (m + 2 ^ 14) >>> (15 : ℕ) = (m + 2 ^ 14) / (2 * 2 ^ 14) :=
    Int.shiftRight_eq_div_pow _ 15
  refine ⟨s64_of_mem ?_ ?_, ?_, ?_, ?_⟩
  · show -2 ^ 63 ≤ m + 16384
    omega
  · show m + 16384 < 2 ^ 63
    omega
  · rw [hshift]
    exact isNearestAway_half hm (show (0 : ℤ) < 2 ^ 14 by decide)
  · omega
  · omega

/-- The rounding of a scaled sample, and its size. -/
theorem scale_eq (source : Int16) (gain : Int32) :
    ∃ r, scale source gain = .ok r ∧
      IsNearestAway (source.toInt * gain.toInt) (2 ^ 15) r ∧ |r| ≤ 2 ^ 32 := by
  obtain ⟨n, hn⟩ : ∃ n, n = source.toInt * gain.toInt := ⟨_, rfl⟩
  have hle := abs_product_le source gain
  rw [← hn, abs_le] at hle
  unfold scale
  rw [← hn, s64_of_mem (by omega) (by omega)]
  change ∃ r, (if n ≥ 0 then _ else _) = _ ∧ _
  split_ifs with hsign
  · obtain ⟨hsum, hround, hnonneg, hbound⟩ := half_up hsign hle.2
    refine ⟨_, ?_, hround, abs_le.2 ⟨by omega, hbound⟩⟩
    rw [hsum]
    rfl
  · obtain ⟨hsum, hround, hnonneg, hbound⟩ := half_up (m := -n) (by omega) (by omega)
    obtain ⟨q, hq⟩ : ∃ q, q = (-n + 2 ^ 14) >>> (15 : ℕ) := ⟨_, rfl⟩
    rw [← hq] at hround hnonneg hbound
    refine ⟨-q, ?_, ?_, abs_le.2 ⟨by omega, by omega⟩⟩
    · rw [s64_of_mem (by omega) (by omega)]
      change (s64 (-n + q15One / 2) >>= _) = _
      rw [hsum]
      change s64 (-((-n + 2 ^ 14) >>> (15 : ℕ))) = _
      rw [← hq]
      exact s64_of_mem (by omega) (by omega)
    · simpa using hround.neg

/-! ## All samples -/

/-- What a source sample adds to its destination sample : its product with the gain, rounded. -/
def IsContribution (source : Int16) (gain : Int32) (r : ℤ) : Prop :=
  IsNearestAway (source.toInt * gain.toInt) (2 ^ 15) r

theorem mixLoop_eq (destination source : ℕ → Int16) (gain : Int32) (n : ℕ) :
    ∃ mixed, mixLoop destination source gain n = .ok mixed ∧ (∀ i ≥ n, mixed i = destination i) ∧
      ∀ i < n, ∀ r, IsContribution (source i) gain r →
        (mixed i).toInt = clamp16 ((destination i).toInt + r) := by
  induction n with
  | zero => exact ⟨destination, rfl, fun _ _ => rfl, fun i hi => absurd hi (Nat.not_lt_zero i)⟩
  | succ n ih =>
    obtain ⟨before, hloop, hkept, hmixed⟩ := ih
    obtain ⟨q, hscale, hround, hbound⟩ := scale_eq (source n) gain
    have hlo := (destination n).le_toInt
    have hhi := (destination n).toInt_lt
    rw [abs_le] at hbound
    refine ⟨Function.update before n (saturateS16 ((destination n).toInt + q)), ?_, ?_, ?_⟩
    · rw [mixLoop, hloop]
      change (scale (source n) gain >>= _) = _
      rw [hscale]
      change (s64 ((before n).toInt + q) >>= _) = _
      rw [hkept n le_rfl, s64_of_mem (by omega) (by omega)]
      rfl
    · intro i hi
      rw [Function.update_of_ne (by omega), hkept i (by omega)]
    · intro i hi r hr
      rcases Nat.lt_succ_iff_lt_or_eq.1 hi with hlt | rfl
      · rw [Function.update_of_ne (by omega), hmixed i hlt r hr]
      · rw [Function.update_self, saturateS16_toInt, hround.unique hr (by decide)]

theorem toInt_neg_of_ne {gain : Int32} (h : gain ≠ Int32.minValue) :
    (-gain).toInt = -gain.toInt := by
  have hlo := gain.le_toInt
  have hhi := gain.toInt_lt
  have hne : gain.toInt ≠ -2 ^ 31 := fun heq => h (Int32.toInt_inj.1 heq)
  rw [Int32.toInt_neg]
  exact Int.bmod_eq_of_le (by omega) (by omega)

theorem mixS16_eq (destination source : ℕ → Int16) (count : UInt32) (gain : Int32) :
    ∃ mixed, mixS16 (some destination) (some source) count gain = .ok (some mixed) ∧
      (∀ i ≥ count.toNat, mixed i = destination i) ∧
      ∀ i < count.toNat, ∀ r, IsContribution (source i) gain r →
        (mixed i).toInt = clamp16 ((destination i).toInt + r) := by
  obtain ⟨mixed, hloop, hmixed⟩ := mixLoop_eq destination source gain count.toNat
  refine ⟨mixed, ?_, hmixed⟩
  rw [mixS16, hloop]
  rfl

theorem isContribution_one (source : Int16) : IsContribution source 32768 source.toInt := by
  have hone := isNearestAway_mul (show (0 : ℤ) < 2 ^ 15 by decide) source.toInt
  rw [mul_comm] at hone
  exact hone

theorem isContribution_zero (source : Int16) : IsContribution source 0 0 := by
  have hmul := isNearestAway_mul (show (0 : ℤ) < 2 ^ 15 by decide) 0
  rw [mul_zero] at hmul
  rw [IsContribution, Int32.toInt_zero, mul_zero]
  exact hmul

theorem IsContribution.neg {source : Int16} {gain : Int32} (hr : IsContribution source gain r)
    (hmin : gain ≠ Int32.minValue) : IsContribution source (-gain) (-r) := by
  rw [IsContribution, toInt_neg_of_ne hmin, mul_neg]
  exact IsNearestAway.neg hr

theorem clamp16_toInt (x : Int16) : clamp16 x.toInt = x.toInt := by
  have hlo := x.le_toInt
  have hhi := x.toInt_lt
  rw [clamp16]
  omega

/-- A contribution that takes its destination sample out of the range of 16 bits in neither
direction. -/
def Unsaturated (destination : Int16) (r : ℤ) : Prop :=
  clamp16 (destination.toInt + r) = destination.toInt + r ∧
    clamp16 (destination.toInt - r) = destination.toInt - r

/-- Each destination sample becomes the saturated sum of itself and the source sample times the
gain, rounded to the nearest integer, ties away from zero; nothing overflows on the way. The gain
32768 adds the source, the gain 0 changes nothing, and the opposite gain makes the opposite
contributions. -/
theorem mixS16_exact (destination source : ℕ → Int16) (count : UInt32) (gain : Int32) :
    ∃ mixed, mixS16 (some destination) (some source) count gain = .ok (some mixed) ∧
      (∀ i ≥ count.toNat, mixed i = destination i) ∧
      (∀ i < count.toNat, ∃ r, IsContribution (source i) gain r ∧
        (mixed i).toInt = clamp16 ((destination i).toInt + r)) ∧
      (gain = 32768 → ∀ i < count.toNat,
        (mixed i).toInt = clamp16 ((destination i).toInt + (source i).toInt)) ∧
      (gain = 0 → mixed = destination) ∧
      (gain ≠ Int32.minValue → ∃ opposite,
        mixS16 (some destination) (some source) count (-gain) = .ok (some opposite) ∧
        ∀ i < count.toNat, ∀ r, IsContribution (source i) gain r →
          IsContribution (source i) (-gain) (-r) ∧
          (Unsaturated (destination i) r → (opposite i).toInt - (destination i).toInt
            = -((mixed i).toInt - (destination i).toInt))) := by
  obtain ⟨mixed, hrun, hkept, hmixed⟩ := mixS16_eq destination source count gain
  refine ⟨mixed, hrun, hkept, fun i hi => ?_, ?_, ?_, fun hmin => ?_⟩
  · obtain ⟨r, -, hr, -⟩ := scale_eq (source i) gain
    exact ⟨r, hr, hmixed i hi r hr⟩
  · rintro rfl i hi
    exact hmixed i hi _ (isContribution_one (source i))
  · rintro rfl
    funext i
    rcases Nat.lt_or_ge i count.toNat with hi | hi
    · have hsame := hmixed i hi 0 (isContribution_zero (source i))
      rw [add_zero, clamp16_toInt] at hsame
      exact Int16.toInt_inj.1 hsame
    · exact hkept i hi
  · obtain ⟨opposite, hrun', -, hopposite⟩ := mixS16_eq destination source count (-gain)
    refine ⟨opposite, hrun', fun i hi r hr => ?_⟩
    have hneg : IsContribution (source i) (-gain) (-r) := hr.neg hmin
    refine ⟨hneg, fun hsat => ?_⟩
    rw [hmixed i hi r hr, hopposite i hi (-r) hneg, ← sub_eq_add_neg, hsat.1, hsat.2]
    omega

end EF2SDK.Audio
