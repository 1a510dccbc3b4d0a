import EF2SDK.AudioRateBounds
import EF2SDK.AudioRateMonotone

/-!
# The exact-rate copy of the rate converter

Where the rates are equal, `ef2_audio_rate_converter_process_s16` copies its window and leaves its
general loop aside. The step that init computes for such rates is 2^32, a whole frame, with
which the loop copies too : a call makes the same frames, all but the last one of its window
(`process_copies`, `processGeneral_copies`).

The frames that are made and the frames that are consumed stay equal on both paths, so neither
skips or repeats one (`Copied`). `copy_refines_general` : the streams agree frame for frame,
whatever the chunks, and over the same chunks the loop is behind by one frame at most.
-/

set_option autoImplicit false

namespace EF2SDK.Audio

/-- `ef2_audio_rate_converter_process_s16` without the test for equal rates. -/
def processGeneral (c : RateConverter) (input : ℕ → Int16) (inputFrames : ℕ) (output : ℕ → Int16)
    (capacity : ℕ) : Processed :=
  if capacity = 0 ∨ inputFrames = 0 then ⟨0, c, output, 0⟩
  else if inputFrames < 2 then ⟨0, c, output, 0⟩
  else
    let (produced, phase, output) := convertLoop c input inputFrames capacity 0 c.phaseQ32 output
    let consumed64 := phase >>> 32
    let consumed := if consumed64 ≥ inputFrames then inputFrames - 1 else u32 consumed64
    ⟨produced, { c with phaseQ32 := u64 (phase + 2 ^ 64 - u64 (consumed <<< 32)) }, output,
      consumed⟩

/-- The code takes this path where the rates differ. -/
theorem process_eq_general {c : RateConverter} (h : c.inputRate ≠ c.outputRate)
    (input : ℕ → Int16) (inputFrames : ℕ) (output : ℕ → Int16) (capacity : ℕ) :
    process c input inputFrames output capacity =
      processGeneral c input inputFrames output capacity := by
  rw [process, if_neg h]
  rfl

variable {c : RateConverter} {input output : ℕ → Int16} {frames capacity room produced : ℕ}

/-! ## One call -/

/-- A whole position is read without its right neighbour. -/
theorem resample_whole (mode : ℕ) (a b : Int16) : resample mode 0 a b = a := by
  unfold resample
  rw [if_pos (show 0 < 0x80000000 by decide)]
  split_ifs
  · rfl
  · rw [Nat.zero_shiftRight, Nat.cast_zero, mul_zero, Int.zero_ediv, add_zero, Int16.ofInt_toInt]

theorem writeFrame_whole {m : ℕ} (hfits : produced * c.channels + m ≤ 2 ^ 32) :
    writeFrame c input produced 0 produced (copySamples input output (produced * c.channels)) m =
      copySamples input output (produced * c.channels + m) := by
  induction m with
  | zero => rfl
  | succ m ih =>
    rw [writeFrame, ih (by omega), resample_whole, u32_of_lt (by omega)]
    rfl

/-- With a step of one frame, the loop copies all frames but the last. -/
theorem convertLoop_whole (hstep : c.stepQ32 = 2 ^ 32) (hchannels : 0 < c.channels)
    (hfits : frames * c.channels ≤ 2 ^ 31) (hlt : produced < frames) :
    ∃ n, n = produced + min room (frames - 1 - produced) ∧
      convertLoop c input frames room produced (produced * 2 ^ 32)
        (copySamples input output (produced * c.channels)) =
          (n, n * 2 ^ 32, copySamples input output (n * c.channels)) := by
  have hframes : frames ≤ frames * c.channels := Nat.le_mul_of_pos_right frames hchannels
  induction room generalizing produced with
  | zero => exact ⟨produced, by omega, rfl⟩
  | succ room ih =>
    have hindex : u32 ((produced * 2 ^ 32) >>> 32) = produced := by
      rw [Nat.shiftRight_eq_div_pow, Nat.mul_div_cancel _ (Nat.two_pow_pos 32),
        u32_of_lt (by omega)]
    have hfraction : u32 (produced * 2 ^ 32) = 0 := Nat.mul_mod_left _ _
    have hnext : u32 (produced + 1) = produced + 1 := u32_of_lt (by omega)
    rw [convertLoop, hindex, hfraction, hnext]
    split_ifs with hlast
    · exact ⟨produced, by omega, rfl⟩
    · have hframe : (produced + 1) * c.channels ≤ frames * c.channels :=
        Nat.mul_le_mul_right _ hlt
      rw [Nat.add_mul, Nat.one_mul] at hframe
      have hphase : u64 (produced * 2 ^ 32 + c.stepQ32) = (produced + 1) * 2 ^ 32 := by
        rw [hstep, Nat.add_mul, Nat.one_mul, u64_of_lt (by omega)]
      rw [writeFrame_whole (by omega), hphase, ← Nat.succ_mul]
      obtain ⟨n, hn, hloop⟩ := ih (show produced + 1 < frames by omega)
      exact ⟨n, by omega, hloop⟩

/-- What a call does that copies `n` frames. -/
def Copies (c : RateConverter) (call : Call) (r : Processed) (n : ℕ) : Prop :=
  r = ⟨n, c, copySamples call.input call.output (n * c.channels), n⟩

/-- The general loop on a call. -/
def Call.processGeneral (call : Call) (c : RateConverter) : Processed :=
  Audio.processGeneral c call.input call.frames call.output call.capacity

/-- A converter that init has made for equal rates, between two calls. -/
structure Exact (c : RateConverter) : Prop where
  rate : c.inputRate = c.outputRate
  step : c.stepQ32 = 2 ^ 32
  phase : c.phaseQ32 = 0
  channels : 0 < c.channels

variable {call : Call}

theorem Exact.withPhase (h : Exact c) : { c with phaseQ32 := 0 } = c := by
  rw [← h.phase]

theorem process_copies (h : Exact c) (hfits : call.Fits c.channels) :
    Copies c call (call.process c) (min call.frames call.capacity) := by
  unfold Copies Call.process process
  by_cases h0 : call.capacity = 0 ∨ call.frames = 0
  · have hmin : min call.frames call.capacity = 0 := by omega
    rw [if_pos h0, hmin, Nat.zero_mul]
    rfl
  · have hmin : (if call.frames > call.capacity then call.capacity else call.frames) =
        min call.frames call.capacity := by
      split_ifs <;> omega
    have hle : min call.frames call.capacity * c.channels ≤ call.frames * c.channels :=
      Nat.mul_le_mul_right _ (min_le_left _ _)
    have hbytes := hfits.1
    rw [if_neg h0, if_pos h.rate, hmin, h.withPhase]
    dsimp only
    rw [u32_of_lt (by omega)]

/-- The last frame of the window is kept for the next call. -/
theorem processGeneral_copies (h : Exact c) (hfits : call.Fits c.channels) :
    Copies c call (call.processGeneral c) (min (call.frames - 1) call.capacity) := by
  have hbytes := hfits.1
  have hframes := (hfits.le h.channels).1
  unfold Copies Call.processGeneral processGeneral
  by_cases h0 : call.capacity = 0 ∨ call.frames = 0
  · have hmin : min (call.frames - 1) call.capacity = 0 := by omega
    rw [if_pos h0, hmin, Nat.zero_mul]
    rfl
  · rw [if_neg h0]
    by_cases hfew : call.frames < 2
    · have hmin : min (call.frames - 1) call.capacity = 0 := by omega
      rw [if_pos hfew, hmin, Nat.zero_mul]
      rfl
    · obtain ⟨n, hn, hloop⟩ := @convertLoop_whole c call.input call.output call.frames
        call.capacity 0 h.step h.channels (by omega) (by omega)
      rw [Nat.zero_mul, Nat.zero_mul] at hloop
      change convertLoop c call.input call.frames call.capacity 0 0 call.output = _ at hloop
      rw [Nat.zero_add, Nat.sub_zero, Nat.min_comm] at hn
      have hlt : n < call.frames := by omega
      have hconsumed : (n * 2 ^ 32) >>> 32 = n := by
        rw [Nat.shiftRight_eq_div_pow, Nat.mul_div_cancel _ (Nat.two_pow_pos 32)]
      have hshift : u64 (n <<< 32) = n * 2 ^ 32 := by
        rw [Nat.shiftLeft_eq, u64_of_lt (by omega)]
      have hphase : u64 (n * 2 ^ 32 + 2 ^ 64 - u64 (n <<< 32)) = 0 := by
        rw [hshift, Nat.add_sub_cancel_left]
        rfl
      rw [if_neg hfew, h.phase, hloop]
      dsimp only
      rw [hconsumed, if_neg (by omega), u32_of_lt (by omega), hphase, h.withPhase, ← hn]

/-! ## A stream of calls -/

/-- The frames before `n` of a source. -/
def sourceFrames (x : ℕ → ℕ → Int16) (channels n : ℕ) : List (List Int16) :=
  (List.range n).map fun k => (List.range channels).map (x k)

/-- What a call adds to a stream. -/
def Stream.add (s : Stream) (r : Processed) : Stream :=
  ⟨r.converter, s.consumed + r.consumed, s.produced + r.produced,
    s.out ++ (List.range r.produced).map (frameOf s.converter.channels r.output)⟩

/-- The buffers of a call fit the address space, and its window begins where the stream's last
call left off. -/
def Continues (x : ℕ → ℕ → Int16) (s : Stream) (call : Call) : Prop :=
  call.Fits s.converter.channels ∧ IsWindow x s.consumed s.converter.channels call

instance (x : ℕ → ℕ → Int16) (s : Stream) (call : Call) : Decidable (Continues x s call) := by
  unfold Continues IsWindow
  infer_instance

/-- One call, made by `f`. -/
def feed (f : Call → RateConverter → Processed) (x : ℕ → ℕ → Int16) (s : Stream) (call : Call) :
    Option Stream :=
  if Continues x s call then some (s.add (f call s.converter)) else none

/-- Two streams of one source. -/
structure Streams where
  copied : Stream
  looped : Stream

/-- One chunk : a call of the code and one of the general loop, with room for as many frames and
up to the same frame of the source. -/
def feedBoth (x : ℕ → ℕ → Int16) (p : Streams) (chunk : Call × Call) : Option Streams :=
  if Continues x p.copied chunk.1 ∧ Continues x p.looped chunk.2 ∧
      chunk.1.capacity = chunk.2.capacity ∧
      p.copied.consumed + chunk.1.frames = p.looped.consumed + chunk.2.frames then
    some ⟨p.copied.add (chunk.1.process p.copied.converter),
      p.looped.add (chunk.2.processGeneral p.looped.converter)⟩
  else none

/-- A stream of copied frames : as many were consumed as made. -/
structure Copied (c : RateConverter) (x : ℕ → ℕ → Int16) (s : Stream) : Prop where
  converter : s.converter = c
  consumed : s.consumed = s.produced
  out : s.out = sourceFrames x c.channels s.produced

variable {x : ℕ → ℕ → Int16} {s : Stream}

theorem frameOf_copySamples {start n k : ℕ} (hwindow : IsWindow x start c.channels call)
    (hn : n ≤ call.frames) (hk : k < n) :
    frameOf c.channels (copySamples call.input output (n * c.channels)) k =
      (List.range c.channels).map (x (start + k)) := by
  refine List.map_congr_left fun ch hch => ?_
  have hch : ch < c.channels := List.mem_range.1 hch
  have hsample : k * c.channels + ch < n * c.channels := by
    calc k * c.channels + ch
      _ < k * c.channels + c.channels := Nat.add_lt_add_left hch _
      _ = (k + 1) * c.channels := (Nat.succ_mul k c.channels).symm
      _ ≤ n * c.channels := Nat.mul_le_mul_right _ hk
  rw [channelOf, copySamples_eq, if_pos hsample]
  exact hwindow k (by omega) ch hch

/-- A call that copies frames of its window continues the stream. -/
theorem Copied.add {r : Processed} {n : ℕ} (h : Copied c x s) (hcall : Continues x s call)
    (hn : n ≤ call.frames) (hr : Copies c call r n) : Copied c x (s.add r) := by
  obtain ⟨hconverter, hconsumed, hout⟩ := h
  have hwindow := hcall.2
  rw [hconverter] at hwindow
  subst hr
  refine ⟨rfl, congrArg (· + n) hconsumed, ?_⟩
  rw [Stream.add, hconverter, hout, sourceFrames, sourceFrames, List.range_add, List.map_append,
    List.map_map]
  refine congrArg _ (List.map_congr_left fun k hk => ?_)
  rw [frameOf_copySamples hwindow hn (List.mem_range.1 hk), hconsumed]
  rfl

/-- A run of calls that each copy frames of their windows. -/
theorem copied_of_run {f : Call → RateConverter → Processed}
    (hf : ∀ call : Call, call.Fits c.channels → ∃ n ≤ call.frames, Copies c call (f call c) n)
    {calls : List Call} (hrun : Schedule.run (feed f x) ⟨c, 0, 0, []⟩ calls = some s) :
    Copied c x s := by
  refine Schedule.run_invariant_of_step (fun u call u' hu hi => ?_) ⟨rfl, rfl, rfl⟩ hrun
  obtain ⟨hcall, hi⟩ := Option.ite_none_right_eq_some.1 hi
  obtain rfl := Option.some.inj hi
  obtain ⟨n, hn, hcopies⟩ := hf call (hu.converter ▸ hcall.1)
  exact hu.add hcall hn (hu.converter ▸ hcopies)

/-! ## Two streams -/

theorem length_sourceFrames (x : ℕ → ℕ → Int16) (channels n : ℕ) :
    (sourceFrames x channels n).length = n := by
  rw [sourceFrames, List.length_map, List.length_range]

theorem take_sourceFrames (x : ℕ → ℕ → Int16) (channels : ℕ) {m n : ℕ} (h : m ≤ n) :
    (sourceFrames x channels n).take m = sourceFrames x channels m := by
  rw [sourceFrames, ← List.map_take, List.take_range, Nat.min_eq_left h, sourceFrames]

/-- Two streams of copied frames agree as far as both go. -/
theorem Copied.agree {s' : Stream} (h : Copied c x s) (h' : Copied c x s') :
    s.out.take s'.produced = s'.out.take s.produced := by
  have htake : ∀ {m n : ℕ}, (sourceFrames x c.channels n).take m =
      sourceFrames x c.channels (min m n) := by
    intro m n
    rcases Nat.le_total m n with hle | hle
    · rw [take_sourceFrames x c.channels hle, Nat.min_eq_left hle]
    · rw [List.take_of_length_le ((length_sourceFrames x c.channels n).trans_le hle),
        Nat.min_eq_right hle]
  rw [h.out, h'.out, htake, htake, Nat.min_comm]

/-- The general loop is behind by one frame at most. -/
structure Behind (c : RateConverter) (x : ℕ → ℕ → Int16) (p : Streams) : Prop where
  copied : Copied c x p.copied
  looped : Copied c x p.looped
  le : p.looped.produced ≤ p.copied.produced
  lt : p.copied.produced ≤ p.looped.produced + 1

theorem Behind.feed {p p' : Streams} {chunk : Call × Call} (hc : Exact c) (h : Behind c x p)
    (hp : feedBoth x p chunk = some p') : Behind c x p' := by
  obtain ⟨⟨hcall, hcall', hroom, hend⟩, hp⟩ := Option.ite_none_right_eq_some.1 hp
  obtain rfl := Option.some.inj hp
  obtain ⟨hcopied, hlooped, hle, hlt⟩ := h
  have hfits := hcopied.converter ▸ hcall.1
  have hfits' := hlooped.converter ▸ hcall'.1
  have hr := process_copies hc hfits
  have hr' := processGeneral_copies hc hfits'
  have hnext := hcopied.add hcall (min_le_left _ _) hr
  have hnext' := hlooped.add hcall' ((min_le_left _ _).trans (Nat.sub_le _ _)) hr'
  have hn := congrArg Processed.produced hr
  have hn' := congrArg Processed.produced hr'
  rw [hcopied.consumed, hlooped.consumed] at hend
  rw [hcopied.converter, hlooped.converter]
  refine ⟨hnext, hnext', ?_, ?_⟩
  · simp only [Stream.add, hn, hn']
    omega
  · simp only [Stream.add, hn, hn']
    omega

/-- A stream that is behind by one frame at most lacks at most the last frame. -/
theorem Behind.held {p : Streams} (h : Behind c x p) :
    ∃ held, held.length ≤ 1 ∧ p.copied.out = p.looped.out ++ held := by
  refine ⟨p.copied.out.drop p.looped.produced, ?_, ?_⟩
  · have hlt := h.lt
    rw [List.length_drop, h.copied.out, length_sourceFrames]
    omega
  · rw [h.looped.out, ← take_sourceFrames x c.channels h.le, ← h.copied.out, List.take_append_drop]

/-- What init makes of equal rates. -/
theorem exact_of_init {c₀ : RateConverter} {rate : UInt32} {channels mode : ℕ}
    (hinit : rateConverterInit c₀ rate.toNat rate.toNat channels mode = (0, c)) : Exact c := by
  obtain ⟨rfl, hpos, hchannels⟩ := rateConverterInit_eq rate.toNat_lt rate.toNat_lt hinit
  have hstep : rate.toNat * 2 ^ 32 / rate.toNat = 2 ^ 32 := Nat.mul_div_cancel_left _ hpos
  exact ⟨rfl, hstep, rfl, show 0 < channels by omega⟩

/-- At equal rates the step is one frame, and the code's copy makes the stream that the general loop
would make with it : a call makes the frames that the loop makes of its window, and at most one
more, the window's last; whatever the chunks, the two streams agree as far as both go; and over the
same chunks the loop holds back one frame at most. -/
theorem copy_refines_general {c₀ c : RateConverter} {rate : UInt32} {channels : UInt8} {mode : ℕ}
    (hinit : rateConverterInit c₀ rate.toNat rate.toNat channels.toNat mode = (0, c)) :
    c.stepQ32 = 2 ^ 32 ∧
    (∀ call : Call, call.Fits c.channels → ∃ n n',
      Copies c call (call.process c) n ∧ Copies c call (call.processGeneral c) n' ∧
      (n = n' ∨ n = n' + 1 ∧ n = call.frames)) ∧
    (∀ x calls s calls' s', Schedule.run (feed Call.process x) ⟨c, 0, 0, []⟩ calls = some s →
      Schedule.run (feed Call.processGeneral x) ⟨c, 0, 0, []⟩ calls' = some s' →
      s.out.take s'.produced = s'.out.take s.produced) ∧
    ∀ x chunks p, Schedule.run (feedBoth x) ⟨⟨c, 0, 0, []⟩, ⟨c, 0, 0, []⟩⟩ chunks = some p →
      ∃ held, held.length ≤ 1 ∧ p.copied.out = p.looped.out ++ held := by
  have hc := exact_of_init hinit
  have hcopies : ∀ call : Call, call.Fits c.channels →
      ∃ n ≤ call.frames, Copies c call (call.process c) n :=
    fun call hfits => ⟨_, min_le_left _ _, process_copies hc hfits⟩
  have hloops : ∀ call : Call, call.Fits c.channels →
      ∃ n ≤ call.frames, Copies c call (call.processGeneral c) n :=
    fun call hfits => ⟨_, (min_le_left _ _).trans (Nat.sub_le _ _), processGeneral_copies hc hfits⟩
  refine ⟨hc.step, fun call hfits => ?_, fun x calls s calls' s' hrun hrun' => ?_,
    fun x chunks p hrun => ?_⟩
  · refine ⟨_, _, process_copies hc hfits, processGeneral_copies hc hfits, ?_⟩
    omega
  · exact (copied_of_run hcopies hrun).agree (copied_of_run hloops hrun')
  · have hbehind : Behind c x p :=
      Schedule.run_invariant_of_step (fun u chunk u' hu hi => Behind.feed hc hu hi)
        ⟨⟨rfl, rfl, rfl⟩, ⟨rfl, rfl, rfl⟩, le_rfl, Nat.zero_le _⟩ hrun
    exact hbehind.held

/-- Stereo at 48000 Hz. -/
def exactConverter : RateConverter :=
  (rateConverterInit ⟨0, 0, 0, 0, 0, 0⟩ 48000 48000 2 resampleLinear).2

theorem copy_refines_general_ramp : ∃ p,
    Schedule.run (feedBoth ramp) ⟨⟨exactConverter, 0, 0, []⟩, ⟨exactConverter, 0, 0, []⟩⟩
        [(rampChunk 0 4 9, rampChunk 0 4 9), (rampChunk 4 3 2, rampChunk 3 4 2)] = some p ∧
      p.copied.produced = 6 ∧ p.looped.produced = 5 ∧
      ∃ held, held.length ≤ 1 ∧ p.copied.out = p.looped.out ++ held := by
  have hinit : rateConverterInit ⟨0, 0, 0, 0, 0, 0⟩ (48000 : UInt32).toNat (48000 : UInt32).toNat
      (2 : UInt8).toNat resampleLinear = (0, exactConverter) := by decide +kernel
  have hrun : (Schedule.run (feedBoth ramp)
      ⟨⟨exactConverter, 0, 0, []⟩, ⟨exactConverter, 0, 0, []⟩⟩
      [(rampChunk 0 4 9, rampChunk 0 4 9), (rampChunk 4 3 2, rampChunk 3 4 2)]).map
        (fun p => (p.copied.produced, p.looped.produced)) = some (6, 5) := by decide +kernel
  obtain ⟨p, hp, hproduced⟩ := Option.map_eq_some_iff.1 hrun
  obtain ⟨hcopied, hlooped⟩ := Prod.mk.inj hproduced
  exact ⟨p, hp, hcopied, hlooped, (copy_refines_general hinit).2.2.2 ramp _ p hp⟩

end EF2SDK.Audio
