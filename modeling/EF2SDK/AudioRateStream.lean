import EF2SDK.AudioRate
import EF2SDK.Interpolation
import EF2SDK.Schedule

/-!
# The stream a rate converter makes

A source is converted in chunks : each call is given a window of the source that begins at
the frame the calls before it have consumed, and an output buffer (`next`). The position of
the next output frame in the source, counted in 2^-32 frames, is the frames consumed plus the
phase, and each output frame moves it by one step (`StreamInv`). A call that stops for lack
of input or of room keeps that account, for it gives back as consumed only frames the
phase has passed (`process_eq`).

`rateConverter_stream` : every output frame is the source read at a multiple of the step, so
the output does not depend on the chunks.
-/

set_option autoImplicit false

namespace EF2SDK.Audio

open Interpolation

/-! ## The divider -/

variable {n d bit q r : ℕ}

/-- The bits divided so far : their value is `q` times the denominator, with remainder `r`. -/
theorem divLoop_eq (hd : d < 2 ^ 32) (hr : r < d) (hn : n / 2 ^ bit = q * d + r) :
    divLoop n d bit (q * 2 ^ bit) r = n / d := by
  induction bit generalizing q r with
  | zero =>
    rw [divLoop, Nat.pow_zero, Nat.mul_one]
    rw [Nat.pow_zero, Nat.div_one] at hn
    rw [hn, Nat.mul_comm, Nat.mul_add_div (by omega), Nat.div_eq_of_lt hr, Nat.add_zero]
  | succ bit ih =>
    obtain ⟨β, hβ⟩ : ∃ β, β = n / 2 ^ bit % 2 := ⟨_, rfl⟩
    have hhalf : n / 2 ^ bit / 2 = q * d + r := by
      rw [Nat.div_div_eq_div_mul, ← Nat.pow_succ, hn]
    have hbits : n / 2 ^ bit = 2 * (q * d + r) + β := by omega
    have hnext : u64 (r <<< 1) ||| (n >>> bit) % 2 = 2 * r + β := by
      rw [Nat.shiftRight_eq_div_pow, ← hβ, u64_of_lt (by rw [Nat.shiftLeft_eq]; omega),
        shiftLeft_or_eq_add (by omega), Nat.mul_comm, Nat.pow_one]
    have hpow : q * 2 ^ (bit + 1) = 2 * q * 2 ^ bit := by
      rw [Nat.pow_succ, Nat.mul_comm (2 ^ bit), ← Nat.mul_assoc, Nat.mul_comm q]
    rw [divLoop, hnext]
    split_ifs with hge
    · have hset : q * 2 ^ (bit + 1) ||| 1 <<< bit = (2 * q + 1) * 2 ^ bit := by
        rw [← Nat.shiftLeft_eq, shiftLeft_or_eq_add, Nat.one_shiftLeft, hpow, Nat.add_mul,
          Nat.one_mul]
        rw [Nat.one_shiftLeft]
        exact Nat.pow_lt_pow_right (by decide) (Nat.lt_succ_self bit)
      rw [hset]
      refine ih (by omega) ?_
      rw [hbits, Nat.add_mul, Nat.mul_assoc]
      omega
    · rw [hpow]
      refine ih (by omega) ?_
      rw [hbits, Nat.mul_assoc]
      omega

/-- The freestanding divider divides. -/
theorem divU64U32_eq (hn : n < 2 ^ 64) (hd : d < 2 ^ 32) : divU64U32 n d = n / d := by
  unfold divU64U32
  split_ifs with h0
  · rw [h0, Nat.div_zero]
  · have hloop : divLoop n d 64 (0 * 2 ^ 64) 0 = n / d := divLoop_eq hd (by omega) (by omega)
    rwa [Nat.zero_mul] at hloop

variable {inputRate outputRate : ℕ}

/-- The step that init stores. -/
theorem divU64U32_step (hin : inputRate < 2 ^ 32) (hout : outputRate < 2 ^ 32) :
    divU64U32 (u64 (inputRate <<< 32)) outputRate = inputRate * 2 ^ 32 / outputRate := by
  rw [Nat.shiftLeft_eq, u64_of_lt (by omega), divU64U32_eq (by omega) hout]

theorem step_lt_of_ratio (hpos : 0 < outputRate) (hratio : inputRate / outputRate < 2 ^ 31) :
    inputRate * 2 ^ 32 / outputRate < 2 ^ 63 := by
  have hlt : inputRate < 2 ^ 31 * outputRate := (Nat.div_lt_iff_lt_mul hpos).1 hratio
  exact (Nat.div_lt_iff_lt_mul hpos).2 (by omega)

/-! ## One frame -/

/-- The sample at a position in 2^-32 frames : the nearest one, or a linear interpolation with
the fraction rounded to 16 bits. -/
def interpolate (mode : ℕ) (x : ℕ → ℤ) (pos : ℕ) : ℤ :=
  if mode = resampleNearest then nearest (2 ^ 32) x pos else linear (2 ^ 32) (2 ^ 16) x pos

theorem interpolate_window (mode : ℕ) (x : ℕ → ℤ) (k pos : ℕ) :
    interpolate mode (fun j => x (k + j)) pos = interpolate mode x (k * 2 ^ 32 + pos) := by
  unfold interpolate
  rw [nearest_window (by decide), linear_window (by decide)]

theorem resample_toInt (mode : ℕ) (y : ℕ → Int16) (pos : ℕ) :
    (resample mode (pos % 2 ^ 32) (y (pos / 2 ^ 32)) (y (pos / 2 ^ 32 + 1))).toInt =
      interpolate mode (fun j => (y j).toInt) pos := by
  unfold resample interpolate
  split_ifs with hmode hhalf
  · rw [nearest, if_pos (by omega)]
  · rw [nearest, if_neg (by omega)]
  · have hmem : _ ∧ linear (2 ^ 32) (2 ^ 16) (fun j => (y j).toInt) pos ≤ _ :=
      linear_mem (by decide) (by decide) (by decide) fun j => (y j).toInt
    have ha := (y (pos / 2 ^ 32)).minValue_le_toInt
    have ha' := (y (pos / 2 ^ 32)).toInt_le
    have hb := (y (pos / 2 ^ 32 + 1)).minValue_le_toInt
    have hb' := (y (pos / 2 ^ 32 + 1)).toInt_le
    have hlin : linear (2 ^ 32) (2 ^ 16) (fun j => (y j).toInt) pos = (y (pos / 2 ^ 32)).toInt +
        ((y (pos / 2 ^ 32 + 1)).toInt - (y (pos / 2 ^ 32)).toInt) *
          ((pos % 2 ^ 32 / 2 ^ 16 : ℕ) : ℤ) / 65536 := rfl
    have hmin : Int16.minValue.toInt = -32768 := rfl
    have hmax : Int16.maxValue.toInt = 32767 := rfl
    rw [Nat.shiftRight_eq_div_pow, ← hlin]
    refine Int16.toInt_ofInt_of_le ?_ ?_
    · omega
    · omega

variable {c : RateConverter} {input output : ℕ → Int16} {inputIndex fraction produced : ℕ}

/-- The samples one frame writes, and the ones it leaves. -/
theorem writeFrame_eq {m y : ℕ} (hroom : produced * c.channels + m ≤ 2 ^ 32)
    (hindex : (inputIndex + 1) * c.channels + m ≤ 2 ^ 32) (hpos : inputIndex + 1 < 2 ^ 32) :
    writeFrame c input inputIndex fraction produced output m y =
      if produced * c.channels ≤ y ∧ y < produced * c.channels + m then
        resample c.mode fraction (input (inputIndex * c.channels + (y - produced * c.channels)))
          (input ((inputIndex + 1) * c.channels + (y - produced * c.channels)))
      else output y := by
  induction m with
  | zero => rw [writeFrame, if_neg (by omega)]
  | succ m ih =>
    have hle : inputIndex * c.channels ≤ (inputIndex + 1) * c.channels :=
      Nat.mul_le_mul_right _ (by omega)
    rw [writeFrame, u32_of_lt (by omega), u32_of_lt hpos, u32_of_lt (by omega),
      u32_of_lt (by omega)]
    by_cases hy : y = produced * c.channels + m
    · rw [hy, Function.update_self, if_pos (by omega), Nat.add_sub_cancel_left]
    · rw [Function.update_of_ne hy, ih (by omega) (by omega)]
      by_cases hin : produced * c.channels ≤ y ∧ y < produced * c.channels + m
      · rw [if_pos hin, if_pos (by omega)]
      · rw [if_neg hin, if_neg (by omega)]

/-! ## One call -/

/-- One channel of a buffer of interleaved samples. -/
def channelOf (channels channel : ℕ) (buffer : ℕ → Int16) (j : ℕ) : Int16 :=
  buffer (j * channels + channel)

/-- The frames the loop makes : one for each step of the phase, as long as the window holds the
two frames around it. -/
theorem convertLoop_eq {inputFrames room phase : ℕ} (hframes : inputFrames < 2 ^ 31)
    (hstep : c.stepQ32 < 2 ^ 63) (hchannels : c.channels = 1 ∨ c.channels = 2)
    (hphase : phase < 2 ^ 64 - 2 ^ 32) (hroom : produced + room < 2 ^ 31) :
    ∃ j ≤ room, ∃ output', convertLoop c input inputFrames room produced phase output =
        (produced + j, phase + j * c.stepQ32, output') ∧
      (∀ i < j, (phase + i * c.stepQ32) / 2 ^ 32 + 1 < inputFrames) ∧
      (j < room → inputFrames ≤ (phase + j * c.stepQ32) / 2 ^ 32 + 1) ∧
      (∀ i < j, ∀ ch < c.channels, (channelOf c.channels ch output' (produced + i)).toInt =
        interpolate c.mode (fun k => (channelOf c.channels ch input k).toInt)
          (phase + i * c.stepQ32)) ∧
      ∀ y < produced * c.channels, output' y = output y := by
  induction room generalizing produced phase output with
  | zero =>
    refine ⟨0, Nat.le_refl 0, output, ?_, by simp, by simp, by simp, fun _ _ => rfl⟩
    rw [convertLoop, Nat.zero_mul]
    rfl
  | succ room ih =>
    have hindex : u32 (phase >>> 32) = phase / 2 ^ 32 := by
      rw [Nat.shiftRight_eq_div_pow, u32_of_lt (by omega)]
    have hnext : u32 (phase / 2 ^ 32 + 1) = phase / 2 ^ 32 + 1 := u32_of_lt (by omega)
    rw [convertLoop, hindex, hnext]
    split_ifs with hge
    · refine ⟨0, Nat.zero_le _, output, ?_, by simp, fun _ => ?_, by simp, fun _ _ => rfl⟩
      · rw [Nat.zero_mul]
        rfl
      · simpa using hge
    · rw [u32_of_lt (show produced + 1 < 2 ^ 32 by omega),
        u64_of_lt (show phase + c.stepQ32 < 2 ^ 64 by omega)]
      obtain ⟨written, hwritten⟩ : ∃ o, o =
          writeFrame c input (phase / 2 ^ 32) (u32 phase) produced output c.channels := ⟨_, rfl⟩
      have hwrite : ∀ y, written y = if produced * c.channels ≤ y ∧
          y < produced * c.channels + c.channels then
          resample c.mode (u32 phase)
            (input (phase / 2 ^ 32 * c.channels + (y - produced * c.channels)))
            (input ((phase / 2 ^ 32 + 1) * c.channels + (y - produced * c.channels)))
          else output y := by
        intro y
        rw [hwritten]
        refine writeFrame_eq ?_ ?_ (by omega)
        · rcases hchannels with h | h <;> rw [h] <;> omega
        · rcases hchannels with h | h <;> rw [h] <;> omega
      rw [← hwritten]
      obtain ⟨j, hj, output', hloop, hin, hstop, hframe, hkeep⟩ :=
        @ih written (produced + 1) (phase + c.stepQ32) (by omega) (by omega)
      have hshift : ∀ i, phase + c.stepQ32 + i * c.stepQ32 = phase + (i + 1) * c.stepQ32 := by
        intro i
        rw [Nat.add_mul, Nat.one_mul]
        omega
      refine ⟨j + 1, by omega, output', ?_, ?_, fun hj' => ?_, ?_, ?_⟩
      · rw [hloop, hshift, Nat.add_assoc, Nat.add_comm 1 j]
      · intro i hi
        cases i with
        | zero => simpa using by omega
        | succ i => exact hshift i ▸ hin i (by omega)
      · exact hshift j ▸ hstop (by omega)
      · intro i hi ch hch
        cases i with
        | zero =>
          -- the frame written in this round, which the later rounds leave alone
          have hy : produced * c.channels + ch < (produced + 1) * c.channels := by
            rw [Nat.add_mul, Nat.one_mul]
            omega
          rw [Nat.zero_mul, Nat.add_zero, ← resample_toInt, channelOf, Nat.add_zero, hkeep _ hy,
            hwrite, if_pos (by omega), Nat.add_sub_cancel_left]
          rfl
        | succ i =>
          have := hframe i (by omega) ch hch
          rwa [hshift, Nat.add_assoc, Nat.add_comm 1 i] at this
      · intro y hy
        rw [hkeep y (by rw [Nat.add_mul]; omega), hwrite, if_neg (by omega)]

/-- What a call does to a converter whose rates differ : it makes `j` frames and gives back all
but the frames its phase has passed. -/
theorem process_eq {inputFrames capacity : ℕ} (hrate : c.inputRate ≠ c.outputRate)
    (hframes : inputFrames < 2 ^ 31) (hcapacity : capacity < 2 ^ 31)
    (hstep : c.stepQ32 < 2 ^ 63) (hchannels : c.channels = 1 ∨ c.channels = 2)
    (hphase : c.phaseQ32 < 2 ^ 63) :
    ∃ j k phase output', process c input inputFrames output capacity =
        ⟨j, { c with phaseQ32 := phase }, output', k⟩ ∧
      k * 2 ^ 32 + phase = c.phaseQ32 + j * c.stepQ32 ∧ phase < 2 ^ 63 ∧
      (∀ i < j, (c.phaseQ32 + i * c.stepQ32) / 2 ^ 32 + 1 < inputFrames) ∧
      ∀ i < j, ∀ ch < c.channels, (channelOf c.channels ch output' i).toInt =
        interpolate c.mode (fun k => (channelOf c.channels ch input k).toInt)
          (c.phaseQ32 + i * c.stepQ32) := by
  unfold process
  split_ifs with h0 hlt
  · exact ⟨0, 0, c.phaseQ32, output, rfl, by simp, hphase, by simp, by simp⟩
  · exact ⟨0, 0, c.phaseQ32, output, rfl, by simp, hphase, by simp, by simp⟩
  · obtain ⟨j, -, output', hloop, hin, -, hframe, -⟩ := @convertLoop_eq c input output 0
      inputFrames capacity c.phaseQ32 hframes hstep hchannels (by omega) (by omega)
    obtain ⟨phase, hend⟩ : ∃ phase, phase = c.phaseQ32 + j * c.stepQ32 := ⟨_, rfl⟩
    -- the phase passed the window by less than one step, or was past it before the call
    have hpassed : phase < (inputFrames - 1) * 2 ^ 32 + c.stepQ32 ∨ phase = c.phaseQ32 := by
      cases j with
      | zero => simp [hend]
      | succ j =>
        have hlast := hin j (Nat.lt_succ_self j)
        rw [Nat.add_mul, Nat.one_mul] at hend
        omega
    have hconsumed : ∀ {k}, k = (if phase >>> 32 ≥ inputFrames then inputFrames - 1
        else u32 (phase >>> 32)) → k * 2 ^ 32 ≤ phase ∧ phase - k * 2 ^ 32 < 2 ^ 63 := by
      intro k hk
      rw [Nat.shiftRight_eq_div_pow, u32_of_lt (by omega)] at hk
      split_ifs at hk <;> omega
    rw [hloop, Nat.zero_add, ← hend]
    dsimp only
    obtain ⟨k, hk⟩ : ∃ k, k = (if phase >>> 32 ≥ inputFrames then inputFrames - 1
        else u32 (phase >>> 32)) := ⟨_, rfl⟩
    obtain ⟨hle, hrest⟩ := hconsumed hk
    have hphase' : u64 (phase + 2 ^ 64 - u64 (k <<< 32)) = phase - k * 2 ^ 32 := by
      rw [Nat.shiftLeft_eq, u64_of_lt (show k * 2 ^ 32 < 2 ^ 64 by omega), u64]
      omega
    rw [← hk, hphase']
    refine ⟨j, k, _, output', rfl, by omega, hrest, hin, ?_⟩
    simpa using hframe

/-! ## A stream of calls -/

/-- The arguments of one call : the window and its length, the output buffer as it was and
its length. -/
structure Call where
  input : ℕ → Int16
  frames : ℕ
  output : ℕ → Int16
  capacity : ℕ

/-- The converter, the totals of its calls, and the frames they made, a list of samples each. -/
structure Stream where
  converter : RateConverter
  consumed : ℕ
  produced : ℕ
  out : List (List Int16)

/-- The window holds the frames of `x` from `start` on. -/
def IsWindow (x : ℕ → ℕ → Int16) (start channels : ℕ) (call : Call) : Prop :=
  ∀ j < call.frames, ∀ ch < channels, channelOf channels ch call.input j = x (start + j) ch

/-- The lengths are below 2^31 frames, and the window begins where the last call left off. -/
def Legal (x : ℕ → ℕ → Int16) (s : Stream) (call : Call) : Prop :=
  call.frames < 2 ^ 31 ∧ call.capacity < 2 ^ 31 ∧
    IsWindow x s.consumed s.converter.channels call

instance (x : ℕ → ℕ → Int16) (s : Stream) (call : Call) : Decidable (Legal x s call) := by
  unfold Legal IsWindow
  infer_instance

/-- The frame `k` of an output buffer. -/
def frameOf (channels : ℕ) (output : ℕ → Int16) (k : ℕ) : List Int16 :=
  (List.range channels).map fun ch => channelOf channels ch output k

/-- One call, its output appended to the stream. -/
def next (x : ℕ → ℕ → Int16) (s : Stream) (call : Call) : Option Stream :=
  if Legal x s call then
    let r := process s.converter call.input call.frames call.output call.capacity
    some ⟨r.converter, s.consumed + r.consumed, s.produced + r.produced,
      s.out ++ (List.range r.produced).map (frameOf s.converter.channels r.output)⟩
  else none

/-- The frame `k` of the ideal output : every channel of `x` read at `k` steps. -/
def idealFrame (c : RateConverter) (x : ℕ → ℕ → Int16) (k : ℕ) : List ℤ :=
  (List.range c.channels).map fun ch =>
    interpolate c.mode (fun j => (x j ch).toInt) (k * c.stepQ32)

/-- The invariant of a stream : its totals account for the phase, its output is ideal. -/
structure StreamInv (c : RateConverter) (x : ℕ → ℕ → Int16) (s : Stream) : Prop where
  converter : s.converter = { c with phaseQ32 := s.converter.phaseQ32 }
  phase_lt : s.converter.phaseQ32 < 2 ^ 63
  position : s.consumed * 2 ^ 32 + s.converter.phaseQ32 = s.produced * c.stepQ32
  out : s.out.map (·.map Int16.toInt) = (List.range s.produced).map (idealFrame c x)

variable {x : ℕ → ℕ → Int16} {s s' : Stream} {call : Call}

/-- An interpolation reads the two samples around its position. -/
theorem interpolate_congr {mode pos : ℕ} {y z : ℕ → ℤ} (h : y (pos / 2 ^ 32) = z (pos / 2 ^ 32))
    (h' : y (pos / 2 ^ 32 + 1) = z (pos / 2 ^ 32 + 1)) :
    interpolate mode y pos = interpolate mode z pos := by
  unfold interpolate nearest linear
  rw [h, h']

/-- A call that accounts for the phase and makes ideal frames. -/
theorem StreamInv.append (h : StreamInv c x s) {j k phase : ℕ} {output' : ℕ → Int16}
    (hlt : phase < 2 ^ 63) (hcount : k * 2 ^ 32 + phase = s.converter.phaseQ32 + j * c.stepQ32)
    (hframes : ∀ i < j, (frameOf s.converter.channels output' i).map Int16.toInt =
      idealFrame c x (s.produced + i)) :
    StreamInv c x ⟨{ s.converter with phaseQ32 := phase }, s.consumed + k, s.produced + j,
      s.out ++ (List.range j).map (frameOf s.converter.channels output')⟩ where
  converter := by rw [h.converter]
  phase_lt := hlt
  position := by
    rw [Nat.add_mul, Nat.add_assoc, hcount, ← Nat.add_assoc, h.position, ← Nat.add_mul]
  out := by
    rw [List.map_append, h.out, List.range_add, List.map_append, List.map_map, List.map_map]
    refine congrArg _ (List.map_congr_left fun i hi => ?_)
    exact hframes i (List.mem_range.1 hi)

theorem StreamInv.next (hrate : c.inputRate ≠ c.outputRate) (hstep : c.stepQ32 < 2 ^ 63)
    (hchannels : c.channels = 1 ∨ c.channels = 2) (h : StreamInv c x s)
    (hs : next x s call = some s') : StreamInv c x s' := by
  obtain ⟨⟨hframes, hcapacity, hwindow⟩, hs⟩ := Option.ite_none_right_eq_some.1 hs
  have hconv := h.converter
  have hpos := h.position
  obtain ⟨d, hd⟩ : ∃ d, d = s.converter := ⟨_, rfl⟩
  rw [← hd] at hconv hpos hwindow hs
  have hdc : d.channels = c.channels := by rw [hconv]
  have hdm : d.mode = c.mode := by rw [hconv]
  have hds : d.stepQ32 = c.stepQ32 := by rw [hconv]
  obtain ⟨j, k, phase, output', hproc, hcount, hlt, hin, hframe⟩ :=
    @process_eq d call.input call.output call.frames call.capacity (by rw [hconv]; exact hrate)
      hframes hcapacity (hds ▸ hstep) (hdc ▸ hchannels) (hd ▸ h.phase_lt)
  rw [hproc, hd] at hs
  obtain rfl := Option.some.inj hs
  refine h.append hlt (by rw [← hd, hcount, hds]) fun i hi => ?_
  have hpos' : (s.produced + i) * c.stepQ32 =
      s.consumed * 2 ^ 32 + (d.phaseQ32 + i * d.stepQ32) := by
    rw [Nat.add_mul, ← hpos, ← hds, Nat.add_assoc]
  unfold frameOf idealFrame
  rw [List.map_map, ← hd, hdc]
  refine List.map_congr_left fun ch hch => ?_
  have hch : ch < d.channels := hdc ▸ List.mem_range.1 hch
  have hwin := hin i hi
  rw [Function.comp_apply, ← hdc, hframe i hi ch hch, hpos', hdm, ← interpolate_window]
  refine interpolate_congr ?_ ?_
  · rw [hwindow _ (by omega) ch hch]
  · rw [hwindow _ (by omega) ch hch]

/-- A converter that init accepts. -/
theorem rateConverterInit_eq {c₀ : RateConverter} {channels : ℕ} {mode : ℕ}
    (hin : inputRate < 2 ^ 32) (hout : outputRate < 2 ^ 32)
    (h : rateConverterInit c₀ inputRate outputRate channels mode = (0, c)) :
    c = ⟨inputRate, outputRate, channels, mode, 0, inputRate * 2 ^ 32 / outputRate⟩ ∧
      0 < outputRate ∧ (channels = 1 ∨ channels = 2) := by
  unfold rateConverterInit at h
  split_ifs at h with hrates hch hmode
  · simp at h
  · simp at h
  · simp at h
  · obtain ⟨-, rfl⟩ := Prod.mk.inj h
    rw [divU64U32_step hin hout]
    exact ⟨rfl, by omega, by omega⟩

/-- Whatever the chunks, the output is the source read at the multiples of the step : the totals
account for the phase after every call, and two streams of one source agree as far as both
go. -/
theorem rateConverter_stream {c₀ c : RateConverter} {inputRate outputRate : UInt32}
    {channels : UInt8} {mode : ℕ}
    (hinit : rateConverterInit c₀ inputRate.toNat outputRate.toNat channels.toNat mode = (0, c))
    (hne : inputRate ≠ outputRate) (hratio : inputRate.toNat / outputRate.toNat < 2 ^ 31)
    {calls : List Call} (hrun : Schedule.run (Audio.next x) ⟨c, 0, 0, []⟩ calls = some s) :
    s.consumed * 2 ^ 32 + s.converter.phaseQ32 = s.produced * c.stepQ32 ∧
    s.out.map (·.map Int16.toInt) = (List.range s.produced).map (idealFrame c x) ∧
    ∀ (calls' : List Call) (s' : Stream),
      Schedule.run (Audio.next x) ⟨c, 0, 0, []⟩ calls' = some s' → s.produced ≤ s'.produced →
      s.out = s'.out.take s.produced := by
  obtain ⟨hc, hpos, hchannels⟩ :=
    rateConverterInit_eq inputRate.toNat_lt outputRate.toNat_lt hinit
  have hrate : c.inputRate ≠ c.outputRate := by
    rw [hc]
    exact fun h => hne (UInt32.toNat_inj.1 h)
  have hchannels : c.channels = 1 ∨ c.channels = 2 := by rwa [hc]
  have hstep : c.stepQ32 < 2 ^ 63 := by
    rw [hc]
    exact step_lt_of_ratio hpos hratio
  have hinv : ∀ {calls : List Call} {s : Stream},
      Schedule.run (Audio.next x) ⟨c, 0, 0, []⟩ calls = some s → StreamInv c x s := by
    intro calls s hrun
    refine Schedule.run_invariant_of_step
      (fun u call u' hu hi => hu.next hrate hstep hchannels hi) ⟨rfl, ?_, ?_, rfl⟩ hrun
    · show c.phaseQ32 < 2 ^ 63
      rw [hc]
      exact Nat.two_pow_pos 63
    · show 0 * 2 ^ 32 + c.phaseQ32 = 0 * c.stepQ32
      rw [hc, Nat.zero_mul, Nat.zero_mul]
      rfl
  obtain ⟨-, -, hposition, hout⟩ := hinv hrun
  refine ⟨hposition, hout, fun calls' s' hrun' hle => ?_⟩
  have hout' := (hinv hrun').out
  have htake : (List.range s'.produced).take s.produced = List.range s.produced := by
    rw [List.take_range, Nat.min_eq_left hle]
  have hinj : Function.Injective (fun f : List Int16 => f.map Int16.toInt) :=
    List.map_injective_iff.2 fun a b hab => Int16.toInt_inj.1 hab
  refine List.map_injective_iff.2 hinj ?_
  rw [hout, List.map_take, hout', ← List.map_take, htake]

/-- A stereo ramp, given in two overlapping windows. -/
def ramp (j ch : ℕ) : Int16 :=
  .ofNat (1000 * j + ch)

def rampChunk (start frames capacity : ℕ) : Call :=
  ⟨fun i => ramp (start + i / 2) (i % 2), frames, fun _ => 0, capacity⟩

/-- From 32000 to 48000 Hz, linear. -/
def rampConverter : RateConverter :=
  (rateConverterInit ⟨0, 0, 0, 0, 0, 0⟩ 32000 48000 2 resampleLinear).2

theorem rateConverter_ramp : ∃ s,
    Schedule.run (Audio.next ramp) ⟨rampConverter, 0, 0, []⟩ [rampChunk 0 4 3, rampChunk 1 5 9] =
      some s ∧ s.produced = 8 ∧
    s.out.map (·.map Int16.toInt) = (List.range 8).map (idealFrame rampConverter ramp) := by
  have hrun : (Schedule.run (Audio.next ramp) ⟨rampConverter, 0, 0, []⟩
      [rampChunk 0 4 3, rampChunk 1 5 9]).map Stream.produced = some 8 := by decide +kernel
  obtain ⟨s, hs, hproduced⟩ := Option.map_eq_some_iff.1 hrun
  have hinit : rateConverterInit ⟨0, 0, 0, 0, 0, 0⟩ (32000 : UInt32).toNat (48000 : UInt32).toNat
      (2 : UInt8).toNat resampleLinear = (0, rampConverter) := by decide +kernel
  have hstream := rateConverter_stream hinit (by decide) (by decide) hs
  exact ⟨s, hs, hproduced, hproduced ▸ hstream.2.1⟩

end EF2SDK.Audio
