import EF2SDK.AudioRateStream

/-!
# The output of a rate converter follows its source

Every output sample is the source read at a multiple of the step (`StreamInv.out`), also where the
rates are equal and a call copies its window. A position is read between the two samples around
it, so no sample leaves the range of 16 bits, and later positions are read higher in a channel
that rises and lower in one that falls (`rateConverter_monotone`). The chunks do not matter,
since they do not move the positions.
-/

set_option autoImplicit false

namespace EF2SDK.Audio

open Interpolation

variable {c : RateConverter} {input output : ℕ → Int16} {mode : ℕ} {y : ℕ → ℤ}

/-! ## The source at a position -/

theorem interpolate_mem (mode : ℕ) (y : ℕ → ℤ) (pos : ℕ) :
    min (y (pos / 2 ^ 32)) (y (pos / 2 ^ 32 + 1)) ≤ interpolate mode y pos ∧
      interpolate mode y pos ≤ max (y (pos / 2 ^ 32)) (y (pos / 2 ^ 32 + 1)) := by
  unfold interpolate
  split_ifs
  · exact nearest_mem y
  · exact linear_mem (by decide) (by decide) (by decide) y

theorem interpolate_monotone (hy : Monotone y) : Monotone (interpolate mode y) := by
  unfold interpolate
  split_ifs
  · exact nearest_monotone hy
  · exact linear_monotone (by decide) (by decide) (by decide) hy

theorem interpolate_antitone (hy : Antitone y) : Antitone (interpolate mode y) := by
  unfold interpolate
  split_ifs
  · exact nearest_antitone hy
  · exact linear_antitone (by decide) (by decide) (by decide) hy

/-- At a whole frame, the source itself is read. -/
theorem interpolate_whole (mode : ℕ) (y : ℕ → ℤ) (k : ℕ) :
    interpolate mode y (k * 2 ^ 32) = y k := by
  have hdiv : k * 2 ^ 32 / 2 ^ 32 = k := Nat.mul_div_cancel k (Nat.two_pow_pos 32)
  have hmod : k * 2 ^ 32 % 2 ^ 32 = 0 := Nat.mul_mod_left k _
  unfold interpolate nearest linear
  rw [hdiv, hmod, if_pos (show 2 * 0 < 2 ^ 32 by decide)]
  split_ifs
  · rfl
  · rw [Nat.zero_div, Nat.cast_zero, mul_zero, Int.zero_ediv, add_zero]

/-! ## Equal rates -/

theorem copySamples_eq (count i : ℕ) :
    copySamples input output count i = if i < count then input i else output i := by
  induction count with
  | zero => rw [copySamples, if_neg (Nat.not_lt_zero i)]
  | succ count ih =>
    rw [copySamples]
    by_cases hi : i = count
    · rw [hi, Function.update_self, if_pos (Nat.lt_succ_self count)]
    · rw [Function.update_of_ne hi, ih]
      by_cases hlt : i < count
      · rw [if_pos hlt, if_pos (Nat.lt_succ_of_lt hlt)]
      · rw [if_neg hlt, if_neg (by omega)]

/-- Where the rates are equal a call copies `j` frames. -/
theorem process_copy {inputFrames capacity : ℕ} (hrate : c.inputRate = c.outputRate)
    (hframes : inputFrames < 2 ^ 31) (hchannels : c.channels = 1 ∨ c.channels = 2)
    (hphase : c.phaseQ32 = 0) :
    ∃ j ≤ inputFrames, ∃ output', process c input inputFrames output capacity = ⟨j, c, output', j⟩ ∧
      ∀ i < j, ∀ ch < c.channels,
        channelOf c.channels ch output' i = channelOf c.channels ch input i := by
  have hconverter : { c with phaseQ32 := 0 } = c := by rw [← hphase]
  unfold process
  by_cases h0 : capacity = 0 ∨ inputFrames = 0
  · rw [if_pos h0]
    exact ⟨0, Nat.zero_le _, output, rfl, by simp⟩
  · rw [if_neg h0, if_pos hrate, hconverter]
    obtain ⟨j, hj⟩ : ∃ j, j = (if inputFrames > capacity then capacity else inputFrames) := ⟨_, rfl⟩
    have hle : j ≤ inputFrames := by
      rw [hj]
      split_ifs <;> omega
    rw [← hj]
    refine ⟨j, hle, _, rfl, fun i hi ch hch => ?_⟩
    have hsample : i * c.channels + ch < j * c.channels := by
      calc i * c.channels + ch
        _ < i * c.channels + c.channels := Nat.add_lt_add_left hch _
        _ = (i + 1) * c.channels := by rw [Nat.add_mul, Nat.one_mul]
        _ ≤ j * c.channels := Nat.mul_le_mul_right _ hi
    have hfits : j * c.channels < 2 ^ 32 := by
      rcases hchannels with h | h <;> rw [h] <;> omega
    rw [channelOf, copySamples_eq, u32_of_lt hfits, if_pos hsample, channelOf]

/-! ## Every rate -/

variable {x : ℕ → ℕ → Int16} {s s' : Stream} {call : Call}

theorem StreamInv.next_copy (hrate : c.inputRate = c.outputRate) (hstep : c.stepQ32 = 2 ^ 32)
    (hchannels : c.channels = 1 ∨ c.channels = 2)
    (h : StreamInv c x s ∧ s.converter.phaseQ32 = 0) (hs : Audio.next x s call = some s') :
    StreamInv c x s' ∧ s'.converter.phaseQ32 = 0 := by
  obtain ⟨⟨hframes, -, hwindow⟩, hs⟩ := Option.ite_none_right_eq_some.1 hs
  obtain ⟨hinv, hphase⟩ := h
  have hconv := hinv.converter
  have hpos := hinv.position
  obtain ⟨d, hd⟩ : ∃ d, d = s.converter := ⟨_, rfl⟩
  rw [← hd] at hconv hphase hpos hwindow hs
  have hdc : d.channels = c.channels := by rw [hconv]
  obtain ⟨j, hj, output', hproc, hframe⟩ :=
    @process_copy d call.input call.output call.frames call.capacity (by rw [hconv]; exact hrate)
      hframes (hdc ▸ hchannels) hphase
  rw [hproc] at hs
  obtain rfl := Option.some.inj hs
  -- with a phase of zero and a step of one frame, the totals are equal
  have htotal : s.consumed = s.produced := by
    rw [hphase, hstep, Nat.add_zero] at hpos
    exact Nat.eq_of_mul_eq_mul_right (Nat.two_pow_pos 32) hpos
  have hinv' : StreamInv c x ⟨{ s.converter with phaseQ32 := 0 }, s.consumed + j, s.produced + j,
      s.out ++ (List.range j).map (frameOf s.converter.channels output')⟩ := by
    refine hinv.append (Nat.two_pow_pos 63) ?_ fun i hi => ?_
    · rw [← hd, hphase, hstep, Nat.zero_add, Nat.add_zero]
    · unfold frameOf idealFrame
      rw [List.map_map, ← hd, hdc]
      refine List.map_congr_left fun ch hch => ?_
      have hch : ch < d.channels := hdc ▸ List.mem_range.1 hch
      rw [Function.comp_apply, ← hdc, hframe i hi ch hch, hwindow i (by omega) ch hch, hstep,
        interpolate_whole, htotal]
  have hreset : { s.converter with phaseQ32 := 0 } = d := by rw [← hd, ← hphase]
  rw [hreset, ← hd] at hinv'
  exact ⟨hinv', hphase⟩

/-- What init and the ratio say about a converter. -/
theorem rateConverterInit_step {c₀ : RateConverter} {inputRate outputRate channels mode : ℕ}
    (hin : inputRate < 2 ^ 32) (hout : outputRate < 2 ^ 32)
    (hinit : rateConverterInit c₀ inputRate outputRate channels mode = (0, c))
    (hratio : inputRate / outputRate < 2 ^ 31) :
    c.phaseQ32 = 0 ∧ c.stepQ32 < 2 ^ 63 ∧ (c.channels = 1 ∨ c.channels = 2) ∧
      (c.inputRate = c.outputRate → c.stepQ32 = 2 ^ 32) := by
  obtain ⟨rfl, hpos, hchannels⟩ := rateConverterInit_eq hin hout hinit
  refine ⟨rfl, step_lt_of_ratio hpos hratio, hchannels, fun hrate => ?_⟩
  obtain rfl : inputRate = outputRate := hrate
  exact Nat.mul_div_cancel_left _ hpos

/-- Every stream of an accepted converter keeps its invariant, at equal rates and at others. -/
theorem streamInv_of_run {c₀ : RateConverter} {inputRate outputRate channels mode : ℕ}
    (hin : inputRate < 2 ^ 32) (hout : outputRate < 2 ^ 32)
    (hinit : rateConverterInit c₀ inputRate outputRate channels mode = (0, c))
    (hratio : inputRate / outputRate < 2 ^ 31) {calls : List Call}
    (hrun : Schedule.run (Audio.next x) ⟨c, 0, 0, []⟩ calls = some s) : StreamInv c x s := by
  obtain ⟨hphase, hstep, hchannels, hequal⟩ := rateConverterInit_step hin hout hinit hratio
  have hstart : StreamInv c x ⟨c, 0, 0, []⟩ := by
    refine ⟨rfl, ?_, ?_, rfl⟩
    · show c.phaseQ32 < 2 ^ 63
      rw [hphase]
      exact Nat.two_pow_pos 63
    · show 0 * 2 ^ 32 + c.phaseQ32 = 0 * c.stepQ32
      rw [hphase, Nat.zero_mul, Nat.zero_mul]
  by_cases hrate : c.inputRate = c.outputRate
  · have hinv : StreamInv c x s ∧ s.converter.phaseQ32 = 0 :=
      Schedule.run_invariant_of_step
        (fun u call u' hu hi => StreamInv.next_copy hrate (hequal hrate) hchannels hu hi)
        ⟨hstart, hphase⟩ hrun
    exact hinv.1
  · exact Schedule.run_invariant_of_step
      (fun u call u' hu hi => hu.next hrate hstep hchannels hi) hstart hrun

/-- One channel of the whole output. -/
def Stream.channel (s : Stream) (ch : ℕ) : List ℤ :=
  s.out.map fun frame => (frame.getD ch 0).toInt

/-- A channel of a stream : the source read at the multiples of the step. -/
theorem StreamInv.channel (h : StreamInv c x s) {ch : ℕ} (hch : ch < c.channels) :
    s.channel ch = (List.range s.produced).map fun k =>
      interpolate c.mode (fun j => (x j ch).toInt) (k * c.stepQ32) := by
  have hget : ∀ frame : List Int16,
      (frame.getD ch 0).toInt = (frame.map Int16.toInt).getD ch 0 := by
    intro frame
    rw [List.getD_eq_getElem?_getD, List.getD_eq_getElem?_getD, List.getElem?_map]
    cases frame[ch]? <;> rfl
  calc s.channel ch
    _ = (s.out.map (·.map Int16.toInt)).map (·.getD ch 0) := by
      rw [List.map_map]
      exact List.map_congr_left fun frame _ => hget frame
    _ = (List.range s.produced).map fun k => (idealFrame c x k).getD ch 0 := by
      rw [h.out, List.map_map]
      rfl
    _ = _ := by
      refine List.map_congr_left fun k _ => ?_
      rw [idealFrame, List.getD_eq_getElem?_getD, List.getElem?_map, List.getElem?_range hch]
      rfl

/-- Every sample of the output is the source read at its position, between the two samples
around it, and a channel that rises or falls does so in the output, over every call. -/
theorem rateConverter_monotone {c₀ c : RateConverter} {inputRate outputRate : UInt32}
    {channels : UInt8} {mode : ℕ}
    (hinit : rateConverterInit c₀ inputRate.toNat outputRate.toNat channels.toNat mode = (0, c))
    (hratio : inputRate.toNat / outputRate.toNat < 2 ^ 31) {calls : List Call}
    (hrun : Schedule.run (Audio.next x) ⟨c, 0, 0, []⟩ calls = some s) {ch : ℕ}
    (hch : ch < channels.toNat) :
    s.channel ch = (List.range s.produced).map (fun k =>
        interpolate mode (fun j => (x j ch).toInt) (k * c.stepQ32)) ∧
    (∀ k < s.produced, ∃ v, (s.channel ch)[k]? = some v ∧
      min (x (k * c.stepQ32 / 2 ^ 32) ch).toInt (x (k * c.stepQ32 / 2 ^ 32 + 1) ch).toInt ≤ v ∧
      v ≤ max (x (k * c.stepQ32 / 2 ^ 32) ch).toInt (x (k * c.stepQ32 / 2 ^ 32 + 1) ch).toInt) ∧
    (Monotone (fun j => (x j ch).toInt) → (s.channel ch).Pairwise (· ≤ ·)) ∧
    (Antitone (fun j => (x j ch).toInt) → (s.channel ch).Pairwise (· ≥ ·)) := by
  have hinv := streamInv_of_run inputRate.toNat_lt outputRate.toNat_lt hinit hratio hrun
  obtain ⟨hc, -, -⟩ := rateConverterInit_eq inputRate.toNat_lt outputRate.toNat_lt hinit
  have hmode : c.mode = mode := by rw [hc]
  have hchannel := hinv.channel (show ch < c.channels by rw [hc]; exact hch)
  rw [hmode] at hchannel
  refine ⟨hchannel, fun k hk => ?_, fun hx => ?_, fun hx => ?_⟩
  · refine ⟨_, ?_, interpolate_mem mode (fun j => (x j ch).toInt) (k * c.stepQ32)⟩
    rw [hchannel, List.getElem?_map, List.getElem?_range hk]
    rfl
  · rw [hchannel, List.pairwise_map]
    refine List.pairwise_lt_range.imp fun hlt => ?_
    exact interpolate_monotone hx (Nat.mul_le_mul_right _ hlt.le)
  · rw [hchannel, List.pairwise_map]
    refine List.pairwise_lt_range.imp fun hlt => ?_
    exact interpolate_antitone hx (Nat.mul_le_mul_right _ hlt.le)

/-- A ramp that ends, in two windows. -/
theorem rateConverter_ramp_rises : ∃ s,
    Schedule.run (Audio.next fun j => ramp (min j 6)) ⟨rampConverter, 0, 0, []⟩
        [rampChunk 0 4 3, rampChunk 1 5 9] = some s ∧
      s.produced = 8 ∧ (s.channel 1).Pairwise (· ≤ ·) := by
  have hrun : (Schedule.run (Audio.next fun j => ramp (min j 6)) ⟨rampConverter, 0, 0, []⟩
      [rampChunk 0 4 3, rampChunk 1 5 9]).map Stream.produced = some 8 := by decide +kernel
  obtain ⟨s, hs, hproduced⟩ := Option.map_eq_some_iff.1 hrun
  have hinit : rateConverterInit ⟨0, 0, 0, 0, 0, 0⟩ (32000 : UInt32).toNat (48000 : UInt32).toNat
      (2 : UInt8).toNat resampleLinear = (0, rampConverter) := by decide +kernel
  have hrises : Monotone fun j => (ramp (min j 6) 1).toInt := by
    have hfirst : ∀ j < 6, (ramp (min j 6) 1).toInt ≤ (ramp (min (j + 1) 6) 1).toInt := by decide
    refine monotone_nat_of_le_succ fun j => ?_
    rcases Nat.lt_or_ge j 6 with hj | hj
    · exact hfirst j hj
    · rw [min_eq_right hj, min_eq_right (Nat.le_succ_of_le hj)]
  have hstream := rateConverter_monotone hinit (by decide) hs (show 1 < 2 by decide)
  exact ⟨s, hs, hproduced, hstream.2.2.1 hrises⟩

end EF2SDK.Audio
