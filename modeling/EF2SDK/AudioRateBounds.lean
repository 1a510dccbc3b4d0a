import EF2SDK.AudioRateStream

/-!
# The bounds of the rate converter

Which frames of its input `ef2_audio_rate_converter_process_s16` reads, and what it reports.
The loop stops before an index whose successor is not below `input_frames`, but the successor
is computed in 32 bits : the index `2^32 - 1` has the successor 0 and passes. A phase of that
index is out of reach at the start of a call (`Reached`) and inside the window, and a step
goes there only from a phase less than one frame above the distance `2^64 - step`
(`mem_frameIndices_iff`).

`process_bounds_iff` : in every state that calls reach, a call keeps its bounds exactly when
it does not step onto that index.
-/

set_option autoImplicit false

namespace EF2SDK.Audio

variable {c : RateConverter} {input input' output : ℕ → Int16}
  {frames capacity room produced phase i : ℕ} {call : Call}

/-! ## The frames that are read -/

/-- `input_index` in the rounds of the loop, with `room` output frames left. -/
def frameIndices (c : RateConverter) (inputFrames : ℕ) : (room phase : ℕ) → List ℕ
  | 0, _ => []
  | room + 1, phase =>
    let inputIndex := u32 (phase >>> 32)
    if u32 (inputIndex + 1) ≥ inputFrames then []
    else inputIndex :: frameIndices c inputFrames room (u64 (phase + c.stepQ32))

/-- The source frames that a call reads : both endpoints of every interpolation, or the frames
it copies. -/
def usedFrames (c : RateConverter) (inputFrames capacity : ℕ) : List ℕ :=
  if capacity = 0 ∨ inputFrames = 0 then []
  else if c.inputRate = c.outputRate then
    List.range (if inputFrames > capacity then capacity else inputFrames)
  else if inputFrames < 2 then []
  else
    (frameIndices c inputFrames capacity c.phaseQ32).flatMap fun index => [index, u32 (index + 1)]

/-- The two inputs have the same samples in a frame. -/
def SameFrame (channels : ℕ) (input input' : ℕ → Int16) (index : ℕ) : Prop :=
  ∀ channel < channels, input (u32 (index * channels + channel)) =
    input' (u32 (index * channels + channel))

theorem writeFrame_congr {inputIndex fraction m : ℕ} (hm : m ≤ c.channels)
    (h : SameFrame c.channels input input' inputIndex)
    (h' : SameFrame c.channels input input' (u32 (inputIndex + 1))) :
    writeFrame c input inputIndex fraction produced output m =
      writeFrame c input' inputIndex fraction produced output m := by
  induction m with
  | zero => rfl
  | succ m ih => rw [writeFrame, writeFrame, ih (by omega), h m hm, h' m hm]

theorem convertLoop_congr (h : ∀ i ∈ frameIndices c frames room phase,
      SameFrame c.channels input input' i ∧ SameFrame c.channels input input' (u32 (i + 1))) :
    convertLoop c input frames room produced phase output =
      convertLoop c input' frames room produced phase output := by
  induction room generalizing produced phase output with
  | zero => rfl
  | succ room ih =>
    unfold frameIndices at h
    unfold convertLoop
    dsimp only at h ⊢
    split_ifs at h ⊢ with hstop
    · rfl
    · obtain ⟨⟨hleft, hright⟩, hrest⟩ := List.forall_mem_cons.1 h
      rw [writeFrame_congr le_rfl hleft hright]
      exact ih hrest

theorem copySamples_congr {m : ℕ} (h : ∀ i < m, input i = input' i) :
    copySamples input output m = copySamples input' output m := by
  induction m with
  | zero => rfl
  | succ m ih =>
    rw [copySamples, copySamples, ih fun i hi => h i (by omega), h m (Nat.lt_succ_self m)]

/-- A sample is in the frame that its index divided by the channels gives. -/
theorem sample_eq (hchannels : 0 < c.channels) (hi : i < 2 ^ 32)
    (h : SameFrame c.channels input input' (i / c.channels)) : input i = input' i := by
  have hsample := h (i % c.channels) (Nat.mod_lt i hchannels)
  rwa [Nat.mul_comm, Nat.div_add_mod, u32_of_lt hi] at hsample

/-- A call reads no other frames. -/
theorem process_congr (hchannels : 0 < c.channels)
    (h : ∀ i ∈ usedFrames c frames capacity, SameFrame c.channels input input' i)
    (hfits : frames * c.channels < 2 ^ 32) :
    process c input frames output capacity = process c input' frames output capacity := by
  unfold usedFrames at h
  unfold process
  by_cases hnone : capacity = 0 ∨ frames = 0
  · rw [if_pos hnone, if_pos hnone]
  · rw [if_neg hnone] at h ⊢
    rw [if_neg hnone]
    by_cases hrate : c.inputRate = c.outputRate
    · rw [if_pos hrate] at h ⊢
      rw [if_pos hrate]
      obtain ⟨n, hn⟩ : ∃ n, n = (if frames > capacity then capacity else frames) := ⟨_, rfl⟩
      have hle : n ≤ frames := by
        rw [hn]
        split_ifs with hgt
        · exact hgt.le
        · exact le_rfl
      have hsize : n * c.channels < 2 ^ 32 := (Nat.mul_le_mul_right _ hle).trans_lt hfits
      rw [← hn] at h ⊢
      dsimp only
      rw [u32_of_lt hsize, copySamples_congr fun i hi => sample_eq hchannels (hi.trans hsize)
        (h _ (List.mem_range.2 (Nat.div_lt_of_lt_mul (by rwa [Nat.mul_comm]))))]
    · rw [if_neg hrate] at h ⊢
      rw [if_neg hrate]
      by_cases hfew : frames < 2
      · rw [if_pos hfew, if_pos hfew]
      · rw [if_neg hfew] at h ⊢
        rw [if_neg hfew, convertLoop_congr fun i hi => ⟨h i ?_, h _ ?_⟩]
        · exact List.mem_flatMap.2 ⟨i, hi, List.mem_cons_self⟩
        · exact List.mem_flatMap.2 ⟨i, hi, List.mem_cons_of_mem _ List.mem_cons_self⟩

/-! ## The loop -/

theorem u64_u64_add (a b : ℕ) : u64 (u64 a + b) = u64 (a + b) :=
  Nat.mod_add_mod a (2 ^ 64) b

/-- The loop makes a frame for each index it reads, a step of the phase apart. -/
theorem convertLoop_count (hphase : phase < 2 ^ 64) (hroom : produced + room < 2 ^ 32) :
    ∃ output', convertLoop c input frames room produced phase output =
      (produced + (frameIndices c frames room phase).length,
        u64 (phase + (frameIndices c frames room phase).length * c.stepQ32), output') := by
  induction room generalizing produced phase output with
  | zero => exact ⟨output, by simp [convertLoop, frameIndices, u64_of_lt hphase]⟩
  | succ room ih =>
    unfold convertLoop frameIndices
    dsimp only
    split_ifs with hstop
    · exact ⟨output, by simp [u64_of_lt hphase]⟩
    · rw [u32_of_lt (show produced + 1 < 2 ^ 32 by omega)]
      have hnext : u64 (phase + c.stepQ32) < 2 ^ 64 := Nat.mod_lt _ (by decide)
      obtain ⟨output', hloop⟩ := @ih
        (writeFrame c input (u32 (phase >>> 32)) (u32 phase) produced output c.channels)
        (produced + 1) (u64 (phase + c.stepQ32)) hnext (by omega)
      refine ⟨output', hloop.trans (Prod.ext ?_ (Prod.ext ?_ rfl))⟩
      · simp only [List.length_cons]
        omega
      · simp only [List.length_cons, u64_u64_add, Nat.add_mul, Nat.one_mul]
        exact congrArg u64 (by omega)

theorem length_frameIndices_le : (frameIndices c frames room phase).length ≤ room := by
  induction room generalizing phase with
  | zero => exact le_rfl
  | succ room ih =>
    unfold frameIndices
    dsimp only
    split_ifs
    · exact Nat.zero_le _
    · exact Nat.succ_le_succ ih

/-- Every index read passed the guard. -/
theorem guard_of_mem (h : i ∈ frameIndices c frames room phase) :
    i < 2 ^ 32 ∧ u32 (i + 1) < frames := by
  induction room generalizing phase with
  | zero => exact absurd h List.not_mem_nil
  | succ room ih =>
    unfold frameIndices at h
    dsimp only at h
    split_ifs at h with hstop
    · exact absurd h List.not_mem_nil
    · obtain rfl | hrest := List.mem_cons.1 h
      · exact ⟨Nat.mod_lt _ (by decide), Nat.lt_of_not_le hstop⟩
      · exact ih hrest

/-- Both endpoints of the interpolations are in the window, but for the index whose successor
wraps. -/
theorem endpoints_lt_iff (hframes : frames < 2 ^ 32) :
    (∀ i ∈ frameIndices c frames room phase, i < frames ∧ u32 (i + 1) < frames) ↔
      2 ^ 32 - 1 ∉ frameIndices c frames room phase := by
  constructor
  · intro h hmem
    have := (h _ hmem).1
    omega
  · intro hnot i hi
    obtain ⟨hlt, hguard⟩ := guard_of_mem hi
    have hne : i ≠ 2 ^ 32 - 1 := fun heq => hnot (heq ▸ hi)
    refine ⟨?_, hguard⟩
    rw [u32_of_lt (by omega)] at hguard
    omega

/-! ## The index whose successor wraps -/

/-- The distance that a step of the phase falls short of a full turn. -/
def RateConverter.shortfall (c : RateConverter) : ℕ :=
  2 ^ 64 - c.stepQ32

/-- One round of the loop, from a phase whose index has a successor. -/
theorem frameIndices_succ (hphase : phase < 2 ^ 64 - 2 ^ 32) :
    frameIndices c frames (room + 1) phase =
      if frames ≤ phase / 2 ^ 32 + 1 then []
      else phase / 2 ^ 32 :: frameIndices c frames room (u64 (phase + c.stepQ32)) := by
  have hindex : u32 (phase >>> 32) = phase / 2 ^ 32 := by
    rw [Nat.shiftRight_eq_div_pow, u32_of_lt (by omega)]
  rw [frameIndices, hindex, u32_of_lt (show phase / 2 ^ 32 + 1 < 2 ^ 32 by omega)]

/-- The round from the index whose successor wraps passes the guard. -/
theorem mem_frameIndices_of_wrap (hframes : 0 < frames) (hphase : phase < 2 ^ 64)
    (hge : 2 ^ 64 - 2 ^ 32 ≤ phase) :
    2 ^ 32 - 1 ∈ frameIndices c frames room phase ↔ 0 < room := by
  cases room with
  | zero => simp [frameIndices]
  | succ room =>
    have hindex : u32 (phase >>> 32) = 2 ^ 32 - 1 := by
      rw [Nat.shiftRight_eq_div_pow, u32_of_lt (by omega)]
      omega
    have hguard : ¬u32 (2 ^ 32 - 1 + 1) ≥ frames := Nat.not_le.2 hframes
    rw [frameIndices, hindex, if_neg hguard]
    exact iff_of_true List.mem_cons_self (Nat.succ_pos room)

/-- From a phase in the window, `phase / shortfall` turns lead down to a phase below the
shortfall, and the step after them goes past the window. -/
theorem mem_frameIndices_iff (hstep : c.stepQ32 ≤ 2 ^ 64 - 2 ^ 32) (hframes : frames ≤ 2 ^ 31)
    (hpos : 0 < frames) (hphase : phase < 2 ^ 64 - 2 ^ 32) :
    2 ^ 32 - 1 ∈ frameIndices c frames room phase ↔
      phase / 2 ^ 32 + 1 < frames ∧ phase / c.shortfall + 1 < room ∧
        c.shortfall ≤ phase % c.shortfall + 2 ^ 32 := by
  obtain ⟨d, hd⟩ : ∃ d, d = c.shortfall := ⟨_, rfl⟩
  have hturn : c.stepQ32 = 2 ^ 64 - d ∧ 2 ^ 32 ≤ d ∧ d ≤ 2 ^ 64 := by
    rw [hd, RateConverter.shortfall]
    omega
  rw [← hd]
  induction room generalizing phase with
  | zero => simp [frameIndices]
  | succ room ih =>
    rw [frameIndices_succ hphase]
    by_cases hstop : frames ≤ phase / 2 ^ 32 + 1
    · rw [if_pos hstop]
      exact iff_of_false List.not_mem_nil fun h => absurd h.1 (Nat.not_lt.2 hstop)
    · have hne : 2 ^ 32 - 1 ≠ phase / 2 ^ 32 := by omega
      rw [if_neg hstop, List.mem_cons, or_iff_right hne, hturn.1]
      by_cases hlt : phase < d
      · rw [u64_of_lt (by omega), Nat.div_eq_of_lt hlt, Nat.mod_eq_of_lt hlt]
        by_cases hwrap : d ≤ phase + 2 ^ 32
        · rw [mem_frameIndices_of_wrap hpos (by omega) (by omega)]
          omega
        · -- the step stays short of the index, and what is in the window after it does so again
          have hshort : phase + (2 ^ 64 - d) < 2 ^ 64 - 2 ^ 32 := by omega
          refine (ih hshort).trans (iff_of_false ?_ (by omega))
          rintro ⟨hwindow, -, hnext⟩
          rw [Nat.mod_eq_of_lt (by omega)] at hnext
          omega
      · have hdown : u64 (phase + (2 ^ 64 - d)) = phase - d := by
          rw [u64]
          omega
        have hbelow : phase - d < 2 ^ 64 - 2 ^ 32 := by omega
        have hdiv : phase / d = (phase - d) / d + 1 := Nat.div_eq_sub_div (by omega) (by omega)
        have hmod : phase % d = (phase - d) % d := Nat.mod_eq_sub_mod (by omega)
        rw [hdown, hdiv, hmod]
        refine (ih hbelow).trans ?_
        omega

/-! ## One call -/

/-- A call whose window has an interpolation to make and whose buffer has room. -/
theorem process_count (hrate : c.inputRate ≠ c.outputRate) (hfew : 2 ≤ frames)
    (hcapacity : 0 < capacity) (hlt : capacity < 2 ^ 32) (hphase : c.phaseQ32 < 2 ^ 64) :
    ∃ n phase k output', n = (frameIndices c frames capacity c.phaseQ32).length ∧
      phase = u64 (c.phaseQ32 + n * c.stepQ32) ∧
      k = (if frames ≤ phase / 2 ^ 32 then frames - 1 else phase / 2 ^ 32) ∧
      process c input frames output capacity =
        ⟨n, { c with phaseQ32 := phase - k * 2 ^ 32 }, output', k⟩ := by
  obtain ⟨output', hloop⟩ :=
    @convertLoop_count c input output frames capacity 0 c.phaseQ32 hphase (by omega)
  rw [Nat.zero_add] at hloop
  generalize (frameIndices c frames capacity c.phaseQ32).length = n at hloop ⊢
  obtain ⟨phase, hend⟩ : ∃ phase, phase = u64 (c.phaseQ32 + n * c.stepQ32) := ⟨_, rfl⟩
  have hword : phase < 2 ^ 64 := hend ▸ Nat.mod_lt _ (by decide)
  have hindex : u32 (phase >>> 32) = phase / 2 ^ 32 := by
    rw [Nat.shiftRight_eq_div_pow, u32_of_lt (by omega)]
  have hrest (k : ℕ) (hk : k ≤ phase / 2 ^ 32) :
      u64 (phase + 2 ^ 64 - u64 (k <<< 32)) = phase - k * 2 ^ 32 := by
    rw [Nat.shiftLeft_eq, u64_of_lt (show k * 2 ^ 32 < 2 ^ 64 by omega), u64]
    omega
  refine ⟨n, phase, _, output', rfl, hend, rfl, ?_⟩
  unfold process
  rw [if_neg (by omega), if_neg hrate, if_neg (by omega), hloop, ← hend]
  dsimp only
  rw [hindex, Nat.shiftRight_eq_div_pow, hrest]
  split_ifs
  · omega
  · exact le_rfl

/-- The loop makes no frame where the index is at the last frame of the window or past it. -/
theorem le_of_frameIndices_nil (hroom : 0 < room) (hphase : phase < 2 ^ 64 - 2 ^ 32)
    (h : (frameIndices c frames room phase).length = 0) : frames ≤ phase / 2 ^ 32 + 1 := by
  obtain ⟨room, rfl⟩ : ∃ r, room = r + 1 := ⟨room - 1, by omega⟩
  rw [frameIndices_succ hphase] at h
  by_contra hlt
  rw [if_neg hlt] at h
  exact absurd h (Nat.succ_ne_zero _)

/-- One call on buffers of its own. -/
def Call.process (call : Call) (c : RateConverter) : Processed :=
  Audio.process c call.input call.frames call.output call.capacity

/-- The samples of both buffers, two bytes each, fit the address space. -/
def Call.Fits (call : Call) (channels : ℕ) : Prop :=
  call.frames * channels * 2 ≤ 2 ^ 32 ∧ call.capacity * channels * 2 ≤ 2 ^ 32

instance (call : Call) (channels : ℕ) : Decidable (call.Fits channels) :=
  inferInstanceAs (Decidable (_ ∧ _))

/-- The call reads frames of its window only, reports no more frames than it was given, and
moves where it can. -/
structure KeepsBounds (c : RateConverter) (call : Call) : Prop where
  used : ∀ i ∈ usedFrames c call.frames call.capacity, i < call.frames
  produced : (call.process c).produced ≤ call.capacity
  consumed : (call.process c).consumed ≤ call.frames
  progress : 2 ≤ call.frames → 1 ≤ call.capacity →
    1 ≤ (call.process c).produced + (call.process c).consumed

/-- The call steps onto the frame index `2^32 - 1`. -/
def Overruns (c : RateConverter) (call : Call) : Prop :=
  c.inputRate ≠ c.outputRate ∧ c.phaseQ32 / 2 ^ 32 + 1 < call.frames ∧
    c.phaseQ32 / c.shortfall + 1 < call.capacity ∧
    c.shortfall ≤ c.phaseQ32 % c.shortfall + 2 ^ 32

instance (c : RateConverter) (call : Call) : Decidable (Overruns c call) :=
  inferInstanceAs (Decidable (_ ∧ _))

/-- What a converter keeps from init on : its step and channels, and an index that has a
successor. -/
structure Reached (c : RateConverter) : Prop where
  channels : 0 < c.channels
  step : c.stepQ32 ≤ 2 ^ 64 - 2 ^ 32
  phase : c.phaseQ32 < 2 ^ 64 - 2 ^ 32

theorem Call.Fits.le (h : call.Fits c.channels) (hc : 0 < c.channels) :
    call.frames ≤ 2 ^ 31 ∧ call.capacity ≤ 2 ^ 31 := by
  have hframes := Nat.le_mul_of_pos_right call.frames hc
  have hcapacity := Nat.le_mul_of_pos_right call.capacity hc
  obtain ⟨h₁, h₂⟩ := h
  omega

/-- Only a step of 2^31 frames or more goes that far. -/
theorem Overruns.le_step (h : Overruns c call) (hc : 0 < c.channels)
    (hfits : call.Fits c.channels) : 2 ^ 63 ≤ c.stepQ32 := by
  obtain ⟨-, hwindow, -, hshort⟩ := h
  have hframes := (hfits.le hc).1
  have hmod := Nat.mod_le c.phaseQ32 c.shortfall
  unfold RateConverter.shortfall at hmod hshort
  omega

/-- A call does nothing, copies, or converts. -/
theorem Call.process_cases (call : Call) (hlt : call.capacity < 2 ^ 32)
    (hphase : c.phaseQ32 < 2 ^ 64) :
    (¬(0 < call.capacity ∧ 2 ≤ call.frames) ∧ call.process c = ⟨0, c, call.output, 0⟩ ∧
      usedFrames c call.frames call.capacity = []) ∨
    (c.inputRate = c.outputRate ∧ ∃ n output', n ≤ call.frames ∧ n ≤ call.capacity ∧ 0 < n ∧
      call.process c = ⟨n, { c with phaseQ32 := 0 }, output', n⟩ ∧
      usedFrames c call.frames call.capacity = List.range n) ∨
    c.inputRate ≠ c.outputRate ∧ 2 ≤ call.frames ∧ 0 < call.capacity ∧
      ∃ n phase k output', n = (frameIndices c call.frames call.capacity c.phaseQ32).length ∧
        phase = u64 (c.phaseQ32 + n * c.stepQ32) ∧
        k = (if call.frames ≤ phase / 2 ^ 32 then call.frames - 1 else phase / 2 ^ 32) ∧
        call.process c = ⟨n, { c with phaseQ32 := phase - k * 2 ^ 32 }, output', k⟩ := by
  by_cases hnone : call.capacity = 0 ∨ call.frames = 0
  · refine Or.inl ⟨by omega, ?_, ?_⟩
    · rw [Call.process, Audio.process, if_pos hnone]
    · rw [usedFrames, if_pos hnone]
  · by_cases hrate : c.inputRate = c.outputRate
    · refine Or.inr (Or.inl ⟨hrate,
        if call.frames > call.capacity then call.capacity else call.frames,
        copySamples call.input call.output (u32 ((if call.frames > call.capacity then
          call.capacity else call.frames) * c.channels)), ?_, ?_, ?_, ?_, ?_⟩)
      · split_ifs <;> omega
      · split_ifs <;> omega
      · split_ifs <;> omega
      · rw [Call.process, Audio.process, if_neg hnone, if_pos hrate]
      · rw [usedFrames, if_neg hnone, if_pos hrate]
    · by_cases hfew : call.frames < 2
      · refine Or.inl ⟨by omega, ?_, ?_⟩
        · rw [Call.process, Audio.process, if_neg hnone, if_neg hrate, if_pos hfew]
        · rw [usedFrames, if_neg hnone, if_neg hrate, if_pos hfew]
      · have hmove : 2 ≤ call.frames ∧ 0 < call.capacity := by omega
        exact Or.inr (Or.inr ⟨hrate, hmove.1, hmove.2,
          process_count hrate hmove.1 hmove.2 hlt hphase⟩)

theorem Reached.withPhase (h : Reached c) (hphase : phase < 2 ^ 64 - 2 ^ 32) :
    Reached { c with phaseQ32 := phase } :=
  ⟨h.channels, h.step, hphase⟩

/-- A call hands back the frames before the phase's index, all but one where the index is past
the window. -/
theorem Reached.process (h : Reached c) (hfits : call.Fits c.channels) :
    Reached (call.process c).converter := by
  obtain ⟨hframes, hcapacity⟩ := hfits.le h.channels
  have hphase := h.phase
  obtain ⟨-, hproc, -⟩ | ⟨-, n, output', -, -, -, hproc, -⟩ |
    ⟨-, hfew, -, n, phase, k, output', -, hend, hk, hproc⟩ :=
    call.process_cases (c := c) (by omega) (by omega)
  · rw [hproc]
    exact h
  · rw [hproc]
    exact h.withPhase (by decide)
  · have hword : phase < 2 ^ 64 := hend ▸ Nat.mod_lt _ (by decide)
    have hrest : phase - k * 2 ^ 32 < 2 ^ 64 - 2 ^ 32 := by
      split_ifs at hk
      · omega
      · omega
    rw [hproc]
    exact h.withPhase hrest

theorem Reached.keepsBounds_iff (h : Reached c) (hfits : call.Fits c.channels) :
    KeepsBounds c call ↔ ¬Overruns c call := by
  obtain ⟨hframes, hcapacity⟩ := hfits.le h.channels
  have hphase := h.phase
  obtain ⟨hstill, hproc, hused⟩ | ⟨hrate, n, output', hn, hn', hpos, hproc, hused⟩ |
    ⟨hrate, hfew, hroom, n, phase, k, output', hn, hend, hk, hproc⟩ :=
    call.process_cases (c := c) (by omega) (by omega)
  · refine iff_of_true ⟨?_, ?_, ?_, ?_⟩ ?_
    · rw [hused]
      exact fun i hi => absurd hi List.not_mem_nil
    · rw [hproc]
      exact Nat.zero_le _
    · rw [hproc]
      exact Nat.zero_le _
    · exact fun hfew hroom => absurd ⟨hroom, hfew⟩ hstill
    · rintro ⟨-, hwindow, hturns, -⟩
      exact hstill ⟨(Nat.zero_le _).trans_lt hturns, by omega⟩
  · refine iff_of_true ⟨?_, ?_, ?_, ?_⟩ fun hover => hover.1 hrate
    · rw [hused]
      exact fun i hi => (List.mem_range.1 hi).trans_le hn
    · rw [hproc]
      exact hn'
    · rw [hproc]
      exact hn
    · rw [hproc]
      exact fun _ _ => Nat.le_add_right_of_le hpos
  · have hcall : ¬(call.capacity = 0 ∨ call.frames = 0) := by omega
    have hindices : (∀ i ∈ usedFrames c call.frames call.capacity, i < call.frames) ↔
        ¬Overruns c call := by
      rw [usedFrames, if_neg hcall, if_neg hrate, if_neg (by omega), Overruns,
        and_iff_right hrate, ← mem_frameIndices_iff h.step hframes (by omega) hphase,
        ← endpoints_lt_iff (by omega), List.forall_mem_flatMap]
      simp only [List.forall_mem_cons, List.not_mem_nil, false_imp_iff, implies_true, and_true]
    refine ⟨fun hb => hindices.1 hb.used, fun hover => ⟨hindices.2 hover, ?_, ?_, ?_⟩⟩
    · rw [hproc, hn]
      exact length_frameIndices_le
    · rw [hproc]
      simp only
      split_ifs at hk <;> omega
    · rw [hproc]
      intro _ _
      by_cases hzero : n = 0
      · have hend' : phase = c.phaseQ32 := by
          rw [hend, hzero, Nat.zero_mul, Nat.add_zero, u64_of_lt (by omega)]
        have hlast := le_of_frameIndices_nil hroom hphase (hn.symm.trans hzero)
        rw [hend'] at hk
        simp only
        split_ifs at hk <;> omega
      · exact Nat.le_add_right_of_le (Nat.pos_of_ne_zero hzero)

/-! ## Every call -/

/-- A call on a converter, its buffers in the address space. -/
def convertNext (c : RateConverter) (call : Call) : Option RateConverter :=
  if call.Fits c.channels then some (call.process c).converter else none

theorem reached_reset {c₀ : RateConverter} {inputRate outputRate : UInt32} {channels mode : ℕ}
    (hinit : rateConverterInit c₀ inputRate.toNat outputRate.toNat channels mode = (0, c)) :
    Reached (rateConverterReset c) := by
  obtain ⟨rfl, hpos, hchannels⟩ :=
    rateConverterInit_eq inputRate.toNat_lt outputRate.toNat_lt hinit
  have hrate := inputRate.toNat_lt
  have hstep : inputRate.toNat * 2 ^ 32 / outputRate.toNat ≤ 2 ^ 64 - 2 ^ 32 :=
    (Nat.div_le_self _ _).trans (by omega)
  have hzero : 0 < 2 ^ 64 - 2 ^ 32 := by decide
  exact ⟨by simp only [rateConverterReset]; omega, hstep, hzero⟩

/-- Every call on every converter that calls reach from reset, and `usedFrames` are the frames that
such a call depends on. -/
theorem process_bounds_iff {c₀ c c' : RateConverter} {inputRate outputRate : UInt32}
    {channels : UInt8} {mode : ℕ}
    (hinit : rateConverterInit c₀ inputRate.toNat outputRate.toNat channels.toNat mode = (0, c))
    {calls : List Call} (hrun : Schedule.run convertNext (rateConverterReset c) calls = some c')
    {call : Call} (hfits : call.Fits c'.channels) :
    (KeepsBounds c' call ↔ ¬Overruns c' call) ∧
      ∀ input', (∀ i ∈ usedFrames c' call.frames call.capacity,
        SameFrame c'.channels call.input input' i) →
          call.process c' = { call with input := input' }.process c' := by
  have hreached : Reached c' := by
    refine Schedule.run_invariant_of_step (fun u call u' hu hi => ?_) (reached_reset hinit) hrun
    obtain ⟨hfits, hi⟩ := Option.ite_none_right_eq_some.1 hi
    obtain rfl := Option.some.inj hi
    exact hu.process hfits
  refine ⟨hreached.keepsBounds_iff hfits, fun input' hsame => ?_⟩
  exact process_congr hreached.channels hsame (by have hwindow := hfits.1; omega)

/-- From 4294967295 to 1 Hz. -/
def steepConverter : RateConverter :=
  (rateConverterInit ⟨0, 0, 0, 0, 0, 0⟩ 0xFFFFFFFF 1 1 resampleNearest).2

/-- The second of two frames is made from the index `2^32 - 1`. -/
theorem steep_overruns : ∃ call : Call,
    rateConverterInit ⟨0, 0, 0, 0, 0, 0⟩ 0xFFFFFFFF 1 1 resampleNearest = (0, steepConverter) ∧
      call.Fits steepConverter.channels ∧
      2 ^ 32 - 1 ∈ usedFrames (rateConverterReset steepConverter) call.frames call.capacity ∧
      ¬KeepsBounds (rateConverterReset steepConverter) call := by
  have hused : 2 ^ 32 - 1 ∈ usedFrames (rateConverterReset steepConverter) 2 2 := by
    decide +kernel
  refine ⟨⟨fun _ => 0, 2, fun _ => 0, 2⟩, by decide +kernel, by decide, hused, fun h => ?_⟩
  exact absurd (h.used _ hused) (by decide)

/-- From 96000 to 48000 Hz. -/
def halfConverter : RateConverter :=
  (rateConverterInit ⟨0, 0, 0, 0, 0, 0⟩ 96000 48000 2 resampleLinear).2

theorem process_bounds_iff_half : ∃ c',
    Schedule.run convertNext (rateConverterReset halfConverter) [rampChunk 0 4 3] = some c' ∧
      KeepsBounds c' (rampChunk 3 4 5) := by
  have hinit : rateConverterInit ⟨0, 0, 0, 0, 0, 0⟩ (96000 : UInt32).toNat (48000 : UInt32).toNat
      (2 : UInt8).toNat resampleLinear = (0, halfConverter) := by decide +kernel
  have hrun : Schedule.run convertNext (rateConverterReset halfConverter) [rampChunk 0 4 3] =
      some ⟨96000, 48000, 2, resampleLinear, 2 ^ 32, 2 ^ 33⟩ := by decide +kernel
  exact ⟨_, hrun, (process_bounds_iff hinit hrun (by decide)).1.2 (by decide)⟩

end EF2SDK.Audio
