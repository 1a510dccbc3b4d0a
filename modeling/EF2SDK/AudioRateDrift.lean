import EF2SDK.AudioRateBounds
import EF2SDK.Rounding
import Mathlib.Algebra.Order.Ring.Rat

/-!
# The drift of the rate converter

Init takes all rates that are not zero : the step it stores is their ratio in 2^-32 frames,
rounded down, and no less than one unit (`rateConverterInit_accepts`).

The position of the next output frame is the frames consumed and the phase. A call moves it by
a step for each frame that it makes (`Call.process_moves`), in the 64 bits of the phase at all
rates, and without a turn of the phase below 2^31 input frames a step. So after `k` frames it is
`k` steps (`Totals.Kept`), which is at most `k` units from `k` times the ratio
(`rateConverter_drift`).
-/

set_option autoImplicit false

namespace EF2SDK.Audio

variable {c : RateConverter} {frames room phase : ℕ} {call : Call}

/-! ## Init -/

theorem rateConverterInit_accepts (c₀ : RateConverter) {inputRate outputRate channels mode : ℕ}
    (hin : inputRate < 2 ^ 32) (hout : outputRate < 2 ^ 32) (hinput : 0 < inputRate)
    (houtput : 0 < outputRate) (hchannels : channels = 1 ∨ channels = 2)
    (hmode : mode = resampleNearest ∨ mode = resampleLinear) :
    0 < inputRate * 2 ^ 32 / outputRate ∧
      rateConverterInit c₀ inputRate outputRate channels mode =
        (0, ⟨inputRate, outputRate, channels, mode, 0, inputRate * 2 ^ 32 / outputRate⟩) := by
  have hunit : outputRate ≤ inputRate * 2 ^ 32 :=
    hout.le.trans (Nat.le_mul_of_pos_left _ hinput)
  have hpos : 0 < inputRate * 2 ^ 32 / outputRate := Nat.div_pos hunit houtput
  refine ⟨hpos, ?_⟩
  unfold rateConverterInit
  rw [if_neg (by omega), if_neg (by omega), if_neg (by omega), divU64U32_step hin hout]
  dsimp only
  rw [if_neg hpos.ne']

/-! ## One call -/

/-- The loop's phase is inside the window until the last step. -/
theorem phase_lt_of_frameIndices (hstep : c.stepQ32 < 2 ^ 63) (hframes : frames ≤ 2 ^ 31)
    (hphase : phase < 2 ^ 64 - 2 ^ 32) (hpos : 0 < (frameIndices c frames room phase).length) :
    phase + (frameIndices c frames room phase).length * c.stepQ32 <
      (frames - 1) * 2 ^ 32 + c.stepQ32 := by
  induction room generalizing phase with
  | zero => exact absurd hpos (Nat.lt_irrefl 0)
  | succ room ih =>
    rw [frameIndices_succ hphase] at hpos ⊢
    split_ifs at hpos ⊢ with hstop
    · exact absurd hpos (Nat.lt_irrefl 0)
    · have hnext : u64 (phase + c.stepQ32) = phase + c.stepQ32 := u64_of_lt (by omega)
      have hrest := @ih (phase + c.stepQ32) (by omega)
      rw [hnext, List.length_cons, Nat.add_mul, Nat.one_mul]
      rcases Nat.eq_zero_or_pos (frameIndices c frames room (phase + c.stepQ32)).length with h | h
      · rw [h, Nat.zero_mul]
        omega
      · have := hrest h
        omega

/-- So no step turns the phase. -/
theorem phase_end_of_frameIndices (hstep : c.stepQ32 < 2 ^ 63) (hframes : frames ≤ 2 ^ 31)
    (hphase : phase < 2 ^ 63) :
    ((frameIndices c frames room phase).length = 0 ∨
      phase + (frameIndices c frames room phase).length * c.stepQ32 <
        (frames - 1) * 2 ^ 32 + c.stepQ32) ∧
    u64 (phase + (frameIndices c frames room phase).length * c.stepQ32) =
      phase + (frameIndices c frames room phase).length * c.stepQ32 := by
  rcases Nat.eq_zero_or_pos (frameIndices c frames room phase).length with h | h
  · refine ⟨Or.inl h, ?_⟩
    rw [h, Nat.zero_mul, u64_of_lt (by omega)]
  · have hlt := phase_lt_of_frameIndices hstep hframes (by omega) h
    exact ⟨Or.inr hlt, u64_of_lt (by omega)⟩

/-- At equal rates a step is one frame, and the phase stays zero. -/
def EqualAligned (c : RateConverter) : Prop :=
  c.inputRate = c.outputRate → c.stepQ32 = 2 ^ 32 ∧ c.phaseQ32 = 0

/-- What a call consumes, and the phase that it leaves, are a step for each frame it makes. -/
theorem Call.process_moves (h : Reached c) (haligned : EqualAligned c)
    (hfits : call.Fits c.channels) :
    ∃ n k phase output', call.process c = ⟨n, { c with phaseQ32 := phase }, output', k⟩ ∧
      (c.inputRate = c.outputRate → phase = 0) ∧
      k * 2 ^ 32 + phase = u64 (c.phaseQ32 + n * c.stepQ32) ∧
      (c.stepQ32 < 2 ^ 63 → c.phaseQ32 < 2 ^ 63 →
        phase < 2 ^ 63 ∧ k * 2 ^ 32 + phase = c.phaseQ32 + n * c.stepQ32) := by
  obtain ⟨hframes, hcapacity⟩ := hfits.le h.channels
  have hphase := h.phase
  obtain ⟨-, hproc, -⟩ | ⟨hrate, n, output', hn, -, -, hproc, -⟩ |
    ⟨hrate, hfew, hroom, n, phase, k, output', hn, hend, hk, hproc⟩ :=
    call.process_cases (c := c) (by omega) (by omega)
  · refine ⟨0, 0, c.phaseQ32, call.output, hproc, fun hrate => (haligned hrate).2, ?_,
      fun _ hlt => ⟨hlt, by omega⟩⟩
    rw [Nat.zero_mul, Nat.zero_mul, Nat.zero_add, Nat.add_zero, u64_of_lt (by omega)]
  · obtain ⟨hstep, hzero⟩ := haligned hrate
    refine ⟨n, n, 0, output', hproc, fun _ => rfl, ?_, fun _ _ => ⟨Nat.two_pow_pos 63, ?_⟩⟩
    · rw [hstep, hzero, Nat.zero_add, Nat.add_zero, u64_of_lt (by omega)]
    · rw [hstep, hzero, Nat.zero_add, Nat.add_zero]
  · have hle : k * 2 ^ 32 ≤ phase := by
      split_ifs at hk <;> omega
    refine ⟨n, k, phase - k * 2 ^ 32, output', hproc, fun heq => absurd heq hrate, ?_,
      fun hstep hlt => ?_⟩
    · rw [← hend]
      omega
    · obtain ⟨hturn, hexact⟩ :=
        @phase_end_of_frameIndices c call.frames call.capacity c.phaseQ32 hstep hframes hlt
      rw [← hn] at hturn hexact
      rw [← hend] at hexact
      have hstill : n = 0 → phase = c.phaseQ32 := fun h0 => by
        rw [hexact, h0, Nat.zero_mul, Nat.add_zero]
      refine ⟨?_, by omega⟩
      split_ifs at hk <;> omega

/-! ## A run of calls -/

/-- A converter, and the totals of the calls on it. -/
structure Totals where
  converter : RateConverter
  consumed : ℕ
  produced : ℕ

/-- The position of the next output frame, in 2^-32 input frames. -/
def Totals.position (s : Totals) : ℕ :=
  s.consumed * 2 ^ 32 + s.converter.phaseQ32

/-- One call, with buffers that fit the address space. -/
def totalsNext (s : Totals) (call : Call) : Option Totals :=
  if call.Fits s.converter.channels then
    let r := call.process s.converter
    some ⟨r.converter, s.consumed + r.consumed, s.produced + r.produced⟩
  else none

/-- The position is a step for each frame made. -/
structure Totals.Kept (c : RateConverter) (s : Totals) : Prop where
  converter : s.converter = { c with phaseQ32 := s.converter.phaseQ32 }
  reached : Reached s.converter
  aligned : EqualAligned s.converter
  position : u64 s.position = u64 (s.produced * c.stepQ32)
  exact : c.stepQ32 < 2 ^ 63 →
    s.converter.phaseQ32 < 2 ^ 63 ∧ s.position = s.produced * c.stepQ32

theorem Totals.Kept.next {s s' : Totals} (h : s.Kept c) (hs : totalsNext s call = some s') :
    s'.Kept c := by
  obtain ⟨hfits, hs⟩ := Option.ite_none_right_eq_some.1 hs
  obtain ⟨n, k, phase, output', hproc, hequal, hmove, hexact⟩ :=
    call.process_moves h.reached h.aligned hfits
  have hreached : Reached (call.process s.converter).converter := h.reached.process hfits
  have hstep : s.converter.stepQ32 = c.stepQ32 := by rw [h.converter]
  rw [hproc] at hs hreached
  obtain rfl := Option.some.inj hs
  rw [hstep] at hmove hexact
  refine ⟨by rw [h.converter], hreached, fun hrate => ⟨(h.aligned hrate).1, hequal hrate⟩, ?_,
    fun hlt => ?_⟩
  · have hpos := h.position
    unfold Totals.position at hpos ⊢
    calc u64 ((s.consumed + k) * 2 ^ 32 + phase)
      _ = u64 (s.consumed * 2 ^ 32 + u64 (s.converter.phaseQ32 + n * c.stepQ32)) := by
        rw [← hmove, Nat.add_mul, Nat.add_assoc]
      _ = u64 (u64 (s.consumed * 2 ^ 32 + s.converter.phaseQ32) + n * c.stepQ32) := by
        rw [u64_u64_add, Nat.add_comm, u64_u64_add]
        congr 1
        omega
      _ = u64 ((s.produced + n) * c.stepQ32) := by rw [hpos, u64_u64_add, Nat.add_mul]
  · obtain ⟨hphase, hposition⟩ := h.exact hlt
    obtain ⟨hphase', hmove'⟩ := hexact hlt hphase
    refine ⟨hphase', ?_⟩
    unfold Totals.position at hposition ⊢
    dsimp only
    rw [Nat.add_mul, Nat.add_assoc, hmove', ← Nat.add_assoc, hposition, Nat.add_mul]

theorem Totals.kept_init {inputRate outputRate : UInt32} {channels : UInt8} {mode : ℕ}
    {c₀ : RateConverter}
    (hinit : rateConverterInit c₀ inputRate.toNat outputRate.toNat channels.toNat mode = (0, c)) :
    Totals.Kept c ⟨c, 0, 0⟩ := by
  have hreached := reached_reset hinit
  obtain ⟨rfl, hpos, -⟩ := rateConverterInit_eq inputRate.toNat_lt outputRate.toNat_lt hinit
  refine ⟨rfl, hreached, fun hrate => ⟨?_, rfl⟩, ?_, fun _ => ⟨Nat.two_pow_pos 63, ?_⟩⟩
  · dsimp only at hrate ⊢
    rw [hrate, Nat.mul_div_cancel_left _ hpos]
  · rw [Totals.position, Nat.zero_mul, Nat.zero_mul, Nat.zero_add]
  · rw [Totals.position, Nat.zero_mul, Nat.zero_mul, Nat.zero_add]

/-- The divider divides, so that init stores the ratio rounded down, and `k` steps are at most
`k` units from `k` times the ratio. The position of the next output frame is that many steps. -/
theorem rateConverter_drift (c₀ : RateConverter) {inputRate outputRate : UInt32}
    {channels : UInt8} {mode : ℕ} (hinput : inputRate ≠ 0) (houtput : outputRate ≠ 0)
    (hchannels : channels = 1 ∨ channels = 2)
    (hmode : mode = resampleNearest ∨ mode = resampleLinear) :
    (∀ (numerator : UInt64) (denominator : UInt32), denominator ≠ 0 →
      divU64U32 numerator.toNat denominator.toNat = numerator.toNat / denominator.toNat) ∧
    ∃ c, rateConverterInit c₀ inputRate.toNat outputRate.toNat channels.toNat mode = (0, c) ∧
      c.stepQ32 = inputRate.toNat * 2 ^ 32 / outputRate.toNat ∧ c.stepQ32 ≠ 0 ∧
      (∀ k : ℕ, |(k : ℚ) * c.stepQ32 / 2 ^ 32 - k * ((inputRate.toNat : ℚ) / outputRate.toNat)| ≤
        (k : ℚ) / 2 ^ 32) ∧
      ∀ (calls : List Call) (s : Totals), Schedule.run totalsNext ⟨c, 0, 0⟩ calls = some s →
        u64 s.position = u64 (s.produced * c.stepQ32) ∧
        (inputRate.toNat / outputRate.toNat < 2 ^ 31 → s.position = s.produced * c.stepQ32) := by
  refine ⟨fun numerator denominator _ => divU64U32_eq numerator.toNat_lt denominator.toNat_lt, ?_⟩
  have hin : 0 < inputRate.toNat := Nat.pos_of_ne_zero fun h => hinput (UInt32.toNat_inj.1 h)
  have hout : 0 < outputRate.toNat := Nat.pos_of_ne_zero fun h => houtput (UInt32.toNat_inj.1 h)
  have hchannels' : channels.toNat = 1 ∨ channels.toNat = 2 := by
    rcases hchannels with rfl | rfl
    · exact Or.inl rfl
    · exact Or.inr rfl
  obtain ⟨hpos, hinit⟩ := rateConverterInit_accepts c₀ inputRate.toNat_lt outputRate.toNat_lt hin
    hout hchannels' hmode
  refine ⟨_, hinit, rfl, hpos.ne', fun k => ?_, fun calls s hrun => ?_⟩
  · exact_mod_cast Rounding.steps_drift ℚ (Nat.two_pow_pos 32) k inputRate.toNat outputRate.toNat
  · have hkept := Schedule.run_invariant_of_step
      (fun u call u' hu hi => Totals.Kept.next hu hi) (Totals.kept_init hinit) hrun
    exact ⟨hkept.position, fun hratio => (hkept.exact (step_lt_of_ratio hout hratio)).2⟩

/-- A second of 48000 Hz from 44100 Hz. -/
theorem rateConverter_drift_second : ∃ c,
    rateConverterInit ⟨0, 0, 0, 0, 0, 0⟩ 44100 48000 2 resampleLinear = (0, c) ∧
      |(48000 : ℚ) * c.stepQ32 / 2 ^ 32 - 44100| ≤ 48000 / 2 ^ 32 := by
  obtain ⟨-, c, hinit, -, -, hdrift, -⟩ :=
    @rateConverter_drift ⟨0, 0, 0, 0, 0, 0⟩ 44100 48000 2 resampleLinear (by decide) (by decide)
      (Or.inr rfl) (Or.inr rfl)
  refine ⟨c, hinit, ?_⟩
  have hratio : (48000 : ℚ) * (44100 / 48000) = 44100 := by norm_num
  rw [← hratio]
  exact_mod_cast hdrift 48000

end EF2SDK.Audio
