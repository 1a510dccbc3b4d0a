import EF2SDK.DoubleBuffer
import EF2SDK.IopAudioQueue
import EF2SDK.IopPlayback

/-!
# The blocks the SPU2 plays

`copy_render_to_spu` lays a render block out as the SPU2 plays it : of every 512 samples the
first 256 are the left ones (`layout`, which `heard` undoes). The two blocks of `g_spu_buffer`
are a double buffer. Its reader is the DMA channel, the interrupt is the flip and a finished copy
is the fill (`Matches`, kept by the steps of the system as `Matches.unit`, `Matches.interrupt`,
`Matches.copied` and the lemmas between them say). A copy only writes the block the channel does
not read, so what the channel reads of a block is what the block held as a whole.
-/

set_option autoImplicit false

namespace EF2SDK.IopPlayback

open IopAudio (Frame silence Request State blockFrames)

/-! ## The layout of a block -/

/-- The samples of a block. -/
abbrev blockSamples : ℕ := 1024

/-- The frame whose sample is at `k` of a block. -/
def frameIndex (k : ℕ) : ℕ :=
  k / 512 * 256 + k % 256

/-- The sample at `k` of the block that plays `frames`. -/
def sampleAt (frames : List Frame) (k : ℕ) : Int16 :=
  let frame := frames.getD (frameIndex k) silence
  if k / 256 % 2 = 0 then frame.left else frame.right

/-- The block that plays `frames`. -/
def layout (frames : List Frame) : List Int16 :=
  (List.range blockSamples).map (sampleAt frames)

/-- A block of silence. -/
def silentBlock : List Frame :=
  List.replicate blockFrames silence

theorem sampleAt_silentBlock (k : ℕ) : sampleAt silentBlock k = 0 := by
  have hframe : silentBlock.getD (frameIndex k) silence = silence := by
    simp only [silentBlock, List.getD_eq_getElem?_getD, List.getElem?_replicate]
    split <;> rfl
  rw [sampleAt, hframe]
  split <;> rfl

/-! ## The memory -/

section Memory

variable {memory memory' : ℕ → Int16} {address n k : ℕ} {frames : List Frame}

theorem readSamples_add :
    readSamples memory address (n + k) =
      readSamples memory address n ++ readSamples memory (address + 2 * n) k := by
  simp only [readSamples, List.range_add, List.map_append, List.map_map]
  congr 1
  apply List.map_congr_left
  intro i _
  simp [Nat.mul_add, Nat.add_assoc]

theorem readSamples_congr
    (h : ∀ i < n, memory (address + 2 * i) = memory' (address + 2 * i)) :
    readSamples memory address n = readSamples memory' address n :=
  List.map_congr_left fun i hi => h i (List.mem_range.1 hi)

theorem readSamples_eq_layout
    (h : ∀ k < blockSamples, memory (address + 2 * k) = sampleAt frames k) :
    readSamples memory address blockSamples = layout frames :=
  List.map_congr_left fun k hk => h k (List.mem_range.1 hk)

/-- A longer read starts with a shorter one. -/
theorem readSamples_prefix (h : n ≤ k) :
    readSamples memory address n <+: readSamples memory address k := by
  obtain ⟨d, rfl⟩ := Nat.exists_eq_add_of_le h
  exact ⟨_, readSamples_add.symm⟩

end Memory

namespace System

variable (s : System)

/-- What a block of `g_spu_buffer` holds. -/
def block (b : ℕ) : List Int16 :=
  readSamples s.memory (s.blockAddress b) blockSamples

theorem blockAddress_eq (b : ℕ) : s.blockAddress b = s.spuBuffer + 2048 * b := by
  rw [blockAddress, Nat.shiftLeft_eq, Nat.mul_comm]

/-- A cleared block plays silence. -/
theorem readSamples_clearSpuBuffer {b : ℕ} (hb : b ≤ 1) :
    readSamples s.clearSpuBuffer (s.blockAddress b) blockSamples = layout silentBlock := by
  apply readSamples_eq_layout
  intro k hk
  rw [sampleAt_silentBlock, clearSpuBuffer, blockAddress_eq]
  exact if_pos (by simp only [blockSamples, spuBufferBytes] at *; omega)

/-- The driver's address of a block does not wrap. -/
theorem u32_blockAddress (h : s.spuBuffer + spuBufferBytes ≤ 2 ^ 32) {b : ℕ} (hb : b ≤ 1) :
    u32 (s.spuBuffer + u32 (2048 * b)) = s.blockAddress b := by
  simp only [spuBufferBytes] at h
  rw [blockAddress_eq, u32_of_lt (x := 2048 * b) (by omega), u32_of_lt (by omega)]

/-! ## The copy loop -/

/-- The frames of the render block. -/
def renderFrames : List Frame :=
  (List.range blockFrames).map s.audio.render

theorem getD_renderFrames {i : ℕ} (hi : i < blockFrames) :
    s.renderFrames.getD i silence = s.audio.render i := by
  simp [renderFrames, List.getD_eq_getElem?_getD, hi]

/-- A turn of the loop writes the four samples at `i` of the block's quarters. -/
theorem copyFrames_apply (block : ℕ) {i k : ℕ} (hi : i < 256) (hk : k < blockSamples) :
    s.copyFrames block i (block + 2 * k) =
      if k % 256 = i then sampleAt s.renderFrames k else s.memory (block + 2 * k) := by
  simp only [blockSamples] at hk
  simp only [copyFrames, Function.update_apply, sampleAt]
  have hquarter : k / 256 = 0 ∨ k / 256 = 1 ∨ k / 256 = 2 ∨ k / 256 = 3 := by omega
  by_cases hki : k % 256 = i
  · have hframe : frameIndex k < blockFrames := by
      simp only [frameIndex, blockFrames]
      omega
    rw [if_pos hki, s.getD_renderFrames hframe, frameIndex]
    rcases hquarter with hq | hq | hq | hq
    · obtain rfl : k = i := by omega
      have hf : k / 512 * 256 + k % 256 = k := by omega
      rw [if_neg (by omega), if_neg (by omega), if_neg (by omega), if_pos rfl, if_pos (by omega),
        hf]
    · obtain rfl : k = 256 + i := by omega
      have hf : (256 + i) / 512 * 256 + (256 + i) % 256 = i := by omega
      rw [if_neg (by omega), if_neg (by omega), if_pos (by omega), if_neg (by omega), hf]
    · obtain rfl : k = 512 + i := by omega
      have hf : (512 + i) / 512 * 256 + (512 + i) % 256 = i + 256 := by omega
      rw [if_neg (by omega), if_pos (by omega), if_pos (by omega), hf]
    · obtain rfl : k = 768 + i := by omega
      have hf : (768 + i) / 512 * 256 + (768 + i) % 256 = i + 256 := by omega
      rw [if_pos (by omega), if_neg (by omega), hf]
  · rw [if_neg hki, if_neg (by omega), if_neg (by omega), if_neg (by omega), if_neg (by omega)]

/-- A turn of the loop writes nothing outside its block. -/
theorem copyFrames_of_outside {block i x : ℕ} (hi : i < 256)
    (hx : x < block ∨ block + 2048 ≤ x) : s.copyFrames block i x = s.memory x := by
  simp only [copyFrames, Function.update_apply]
  rw [if_neg (by omega), if_neg (by omega), if_neg (by omega), if_neg (by omega)]

end System

/-! ## The service's part of a step -/

section Service

variable {a b : State}

/-- What the RPC thread leaves alone of what the play thread works with. -/
theorem rpcStep_kept (h : a.rpcStep = some b) :
    b.play = a.play ∧ b.render = a.render ∧ b.transferSema = a.transferSema ∧
      b.started = a.started := by
  cases hpc : a.rpc <;> simp only [State.rpcStep, hpc] at h
  case idle => cases h
  all_goals try split at h
  all_goals
    first
      | obtain ⟨m, hm, rfl⟩ := Option.map_eq_some_iff.1 h
      | obtain rfl := Option.some.inj h
    exact ⟨rfl, rfl, rfl, rfl⟩

/-- A request that is not INIT, START or STOP. -/
def Plain : Request → Prop
  | .init _ | .start _ | .stop _ => False
  | _ => True

theorem rpcHandler_kept {r : Request} (hr : Plain r) :
    (a.rpcHandler r).play = a.play ∧ (a.rpcHandler r).render = a.render ∧
      (a.rpcHandler r).transferSema = a.transferSema ∧
      (a.rpcHandler r).started = a.started := by
  cases r with
  | init | start | stop => exact hr.elim
  | submit length v =>
    simp only [State.rpcHandler, State.audioSubmit]
    split_ifs <;> exact ⟨rfl, rfl, rfl, rfl⟩
  | setVolume length value =>
    simp only [State.rpcHandler, State.audioSetVolume]
    split_ifs <;> exact ⟨rfl, rfl, rfl, rfl⟩
  | pause =>
    simp only [State.rpcHandler, State.audioPause]
    split_ifs <;> exact ⟨rfl, rfl, rfl, rfl⟩
  | resume =>
    simp only [State.rpcHandler, State.audioResume]
    split_ifs <;> exact ⟨rfl, rfl, rfl, rfl⟩
  | setLatency length value =>
    simp only [State.rpcHandler, State.audioSetLatencyMs]
    split_ifs <;> exact ⟨rfl, rfl, rfl, rfl⟩
  | stats | flush | other => exact ⟨rfl, rfl, rfl, rfl⟩

end Service

/-! ## The double buffer -/

/-- The play thread copies a block, with interrupts off. -/
theorem System.interruptsOn_eq_false {s : System} {b i : ℕ} (h : s.copy = .copy b i) :
    s.interruptsOn = false := by
  rw [System.interruptsOn, h]

variable {s t : System} {d : DoubleBuffer.State (List Int16)}

/-- While the loop runs the two blocks are the halves of `d`. The channel has read as much of the
active one as its units say, and a copy under way has written its block as far as it is. -/
structure Matches (s : System) (d : DoubleBuffer.State (List Int16)) : Prop where
  bufferAddress : s.spu2.bufferAddress = s.spuBuffer
  blockBytes : s.spu2.blockBytes = 2048
  activeBlock : s.spu2.activeBlock = d.active.toNat
  channel : s.spu2.dmaStart = !s.spu2.interrupt
  addr : s.spu2.dmaStart → s.spu2.dmaAddr = s.blockAddress d.active.toNat ∧ s.spu2.dmaSize = 32
  units : s.spu2.dmaStart → s.spu2.dmaUnits ≤ 32
  current : s.spu2.current =
    if s.spu2.dmaStart then
      readSamples s.memory (s.blockAddress d.active.toNat) (unitSamples * s.spu2.dmaUnits)
    else []
  shown : d.shown = s.spu2.finished ++ if s.spu2.dmaStart then [d.halves d.active] else []
  active : s.block d.active.toNat = d.halves d.active
  idle : s.interruptsOn → s.block (!d.active).toNat = d.halves !d.active
  copying : ∀ b i, s.copy = .copy b i → b = (!d.active).toNat ∧ i ≤ 256 ∧
    ∀ k < blockSamples, k % 256 < i →
      s.memory (s.blockAddress b + 2 * k) = sampleAt s.renderFrames k

namespace Matches

/-- A step that touches neither the driver nor the buffer, with no copy under way. -/
theorem frame (h : Matches s d) (hspu2 : t.spu2 = s.spu2) (hmemory : t.memory = s.memory)
    (hbuffer : t.spuBuffer = s.spuBuffer) (hs : s.interruptsOn) (ht : t.interruptsOn) :
    Matches t d where
  bufferAddress := by rw [hspu2, hbuffer, h.bufferAddress]
  blockBytes := hspu2 ▸ h.blockBytes
  activeBlock := hspu2 ▸ h.activeBlock
  channel := hspu2 ▸ h.channel
  addr := by
    rw [hspu2, System.blockAddress, hbuffer]
    exact h.addr
  units := hspu2 ▸ h.units
  current := by
    rw [hspu2, hmemory, System.blockAddress, hbuffer]
    exact h.current
  shown := hspu2 ▸ h.shown
  active := by
    rw [System.block, hmemory, System.blockAddress, hbuffer]
    exact h.active
  idle _ := by
    rw [System.block, hmemory, System.blockAddress, hbuffer]
    exact h.idle hs
  copying b i hcopy := by
    rw [System.interruptsOn_eq_false hcopy] at ht
    cases ht

/-- The channel reads the next unit of the active block. -/
theorem unit (h : Matches s d) (hstart : s.spu2.dmaStart) (hlt : s.spu2.dmaUnits < s.spu2.dmaSize) :
    Matches { s with spu2 := { s.spu2 with
      current := s.spu2.current ++
        readSamples s.memory (s.spu2.dmaAddr + 64 * s.spu2.dmaUnits) unitSamples
      dmaUnits := s.spu2.dmaUnits + 1 } } d := by
  obtain ⟨haddr, hsize⟩ := h.addr hstart
  rw [hsize] at hlt
  refine { h with units := fun _ => hlt, current := ?_ }
  have hcurrent := h.current
  rw [if_pos hstart] at hcurrent
  have hoffset : 64 * s.spu2.dmaUnits = 2 * (unitSamples * s.spu2.dmaUnits) := by
    simp only [unitSamples]
    omega
  show s.spu2.current ++ _ = _
  rw [if_pos hstart, hcurrent, haddr, hoffset, ← readSamples_add]
  rfl

/-- The channel has read the active block as a whole. -/
theorem finish (h : Matches s d) (hstart : s.spu2.dmaStart)
    (hge : ¬s.spu2.dmaUnits < s.spu2.dmaSize) :
    Matches { s with spu2 := { s.spu2 with
      dmaStart := false
      interrupt := true
      finished := s.spu2.finished ++ [s.spu2.current]
      current := [] } } d := by
  have hunits : s.spu2.dmaUnits = 32 := by
    rw [(h.addr hstart).2] at hge
    exact Nat.le_antisymm (h.units hstart) (Nat.not_lt.1 hge)
  have hcurrent : s.spu2.current = d.halves d.active := by
    rw [h.current, if_pos hstart, hunits, ← h.active]
    rfl
  have hshown := h.shown
  rw [if_pos hstart, ← hcurrent] at hshown
  exact { h with
    channel := rfl
    addr := fun hfalse => by cases hfalse
    units := fun hfalse => by cases hfalse
    current := rfl
    shown := by simpa using hshown }

/-- The interrupt hands the channel the other block. -/
theorem interrupt (h : Matches s d) (hfits : s.spuBuffer + spuBufferBytes ≤ 2 ^ 32)
    (hon : s.interruptsOn) (hpending : s.spu2.interrupt) (hrunning : s.spu2.running) :
    Matches s.handleInterrupt d.flip := by
  have hother : s.spu2.activeBlock ^^^ 1 = (!d.active).toNat := by
    rw [h.activeBlock]
    cases d.active <;> rfl
  have hstopped : s.spu2.dmaStart = false := by rw [h.channel, hpending, Bool.not_true]
  have hspu2 : s.handleInterrupt.spu2 =
      { s.spu2 with
        interrupt := false
        activeBlock := (!d.active).toNat
        dmaAddr := s.blockAddress (!d.active).toNat
        dmaSize := 32
        dmaStart := true
        dmaUnits := 0
        current := [] } := by
    simp only [System.handleInterrupt, Spu2.dmaInterrupt, hrunning, not_true_eq_false, if_false,
      Spu2.startDmaBlock, h.bufferAddress, h.blockBytes, hother]
    rw [s.u32_blockAddress hfits (Bool.toNat_le _)]
    rfl
  have hidle := h.idle hon
  have hshown := h.shown
  rw [hstopped, if_neg Bool.false_ne_true, List.append_nil] at hshown
  constructor
  case bufferAddress => rw [hspu2]; exact h.bufferAddress
  case blockBytes => rw [hspu2]; exact h.blockBytes
  case activeBlock => rw [hspu2]; rfl
  case channel => rw [hspu2]; rfl
  case addr => rw [hspu2]; exact fun _ => ⟨rfl, rfl⟩
  case units => rw [hspu2]; exact fun _ => Nat.zero_le _
  case current => rw [hspu2]; rfl
  case shown =>
    rw [hspu2]
    exact congrArg (· ++ [d.halves !d.active]) hshown
  case active => exact hidle
  case idle =>
    intro _
    rw [DoubleBuffer.State.flip, Bool.not_not]
    exact h.active
  case copying =>
    intro b i hcopy
    have hoff : s.interruptsOn = false := System.interruptsOn_eq_false hcopy
    rw [hoff] at hon
    cases hon

/-- `ef2_spu2_start_loop` starts with a cleared buffer. -/
theorem start (hfits : s.spuBuffer + spuBufferBytes ≤ 2 ^ 32) (hon : s.interruptsOn)
    (hpending : s.spu2.interrupt = false) (hmemory : s.memory = t.clearSpuBuffer)
    (hbuffer : t.spuBuffer = s.spuBuffer) {u : Spu2}
    (hspu2 : s.spu2 = ({ u with
      bufferAddress := s.spuBuffer
      blockBytes := spuBufferBytes / 2
      activeBlock := 0
      dmaStart := false
      running := true
      finished := [] } : Spu2).startDmaBlock 0) {x : List Int16} (hx : x = layout silentBlock) :
    Matches s (DoubleBuffer.start x) := by
  have hblock : ∀ b ≤ 1, s.block b = x := by
    intro b hb
    rw [hx, System.block, hmemory, System.blockAddress, ← hbuffer]
    exact t.readSamples_clearSpuBuffer hb
  have haddr := s.u32_blockAddress hfits (Nat.zero_le 1)
  have hinterrupt : u.interrupt = false := by
    rw [hspu2] at hpending
    exact hpending
  have hsize : u32 (spuBufferBytes / 2 + 63) / 64 % 2 ^ 16 = 32 := by decide
  rw [Spu2.startDmaBlock] at hspu2
  constructor
  case bufferAddress => rw [hspu2]
  case blockBytes => rw [hspu2]; rfl
  case activeBlock => rw [hspu2]; rfl
  case channel => rw [hspu2]; exact (congrArg Bool.not hinterrupt).symm
  case addr => rw [hspu2]; exact fun _ => ⟨haddr, hsize⟩
  case units => rw [hspu2]; exact fun _ => Nat.zero_le _
  case current => rw [hspu2]; rfl
  case shown => rw [hspu2]; rfl
  case active => exact hblock 0 (Nat.zero_le 1)
  case idle => exact fun _ => hblock 1 (Nat.le_refl 1)
  case copying =>
    intro b i hcopy
    rw [System.interruptsOn_eq_false hcopy] at hon
    cases hon

theorem active_eq (h : Matches s d) : s.spu2.active = d.active.toNat := by
  rw [Spu2.active, h.activeBlock]
  cases d.active <;> rfl

/-- Interrupts go off and the play thread reads which block is active. -/
theorem suspend (h : Matches s d) :
    Matches { s with copy := .copy (1 - s.spu2.active) 0 } d := by
  refine { h with idle := ?_, copying := ?_ }
  · intro hon
    cases hon
  · intro b i hcopy
    obtain ⟨rfl, rfl⟩ := CopyPc.copy.inj hcopy
    refine ⟨?_, Nat.zero_le _, fun k _ hk => absurd hk (Nat.not_lt_zero _)⟩
    rw [h.active_eq]
    cases d.active <;> rfl

/-- One turn of the copy writes the idle block, where the channel does not read. -/
theorem turn (h : Matches s d) {b i : ℕ} (hcopy : s.copy = .copy b i) (hi : i < 256)
    {m : ℕ → Int16} (hm : m = s.copyFrames (s.blockAddress b) i) :
    Matches { s with memory := m, copy := .copy b (i + 1) } d := by
  obtain ⟨rfl, -, hwritten⟩ := h.copying b i hcopy
  have hkept : ∀ k < blockSamples,
      m (s.blockAddress d.active.toNat + 2 * k) =
        s.memory (s.blockAddress d.active.toNat + 2 * k) := by
    intro k hk
    rw [hm]
    apply s.copyFrames_of_outside hi
    rw [s.blockAddress_eq, s.blockAddress_eq]
    simp only [blockSamples] at hk
    cases d.active <;> simp only [Bool.not_true, Bool.not_false, Bool.toNat_true, Bool.toNat_false]
      <;> omega
  have hnew : ∀ k < blockSamples, k % 256 < i + 1 →
      m (s.blockAddress (!d.active).toNat + 2 * k) = sampleAt s.renderFrames k := by
    intro k hk hki
    rw [hm, s.copyFrames_apply _ hi hk]
    split
    case isTrue => rfl
    case isFalse hne => exact hwritten k hk (by omega)
  have hsame (n : ℕ) (hn : n ≤ blockSamples) :
      readSamples m (s.blockAddress d.active.toNat) n =
        readSamples s.memory (s.blockAddress d.active.toNat) n :=
    readSamples_congr fun k hk => hkept k (Nat.lt_of_lt_of_le hk hn)
  refine { h with current := ?_, active := ?_, idle := ?_, copying := ?_ }
  · show s.spu2.current = _
    rw [h.current]
    split
    case isTrue hstart =>
      have hunits := h.units hstart
      exact (hsame _ (by simp only [unitSamples, blockSamples]; omega)).symm
    case isFalse => rfl
  · exact (hsame _ (Nat.le_refl _)).trans h.active
  · intro hon
    cases hon
  · intro c j hcj
    obtain ⟨rfl, rfl⟩ := CopyPc.copy.inj hcj
    exact ⟨rfl, hi, hnew⟩

/-- The copy is done : the idle half is filled. -/
theorem copied (h : Matches s d) {b i : ℕ} (hcopy : s.copy = .copy b i) (hi : ¬i < 256)
    {x : List Int16} (hx : x = layout s.renderFrames) :
    Matches { s with copy := .none } (d.fill x) := by
  obtain ⟨rfl, -, hwritten⟩ := h.copying b i hcopy
  have hactive := d.fill_active x
  have hidle : s.block (!d.active).toNat = (d.fill x).halves !d.active := by
    rw [d.fill_idle, hx]
    exact readSamples_eq_layout fun k hk => hwritten k hk (by omega)
  have hshown := h.shown
  rw [← hactive] at hshown
  exact { h with
    active := h.active.trans hactive.symm
    shown := hshown
    idle := fun _ => hidle
    copying := fun c j hcj => by cases hcj }

end Matches

end EF2SDK.IopPlayback
