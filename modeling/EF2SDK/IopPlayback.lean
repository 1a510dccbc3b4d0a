import EF2SDK.IopAudio

/-!
# The playback of the audio service

`src/iop/audio/src/spu2_direct.c` and the play thread of `main.c` with its copy to the SPU2's
buffer. The DMA channel reads one block of `g_spu_buffer` a unit at a time and raises its
interrupt after the last one. `ef2_spu2_dma_interrupt` starts the other block and signals the
play thread, which renders a block (`IopAudio.State.playStep`) and copies it to the block that
is not active, with interrupts off.

A step of this system is a step of one of the service's threads, one turn of the copy loop, one
unit of the DMA channel or the interrupt handler. An interrupt that is pending is taken before a
thread moves on, unless interrupts are off, and then no other thread moves either. `audio_start`
is one step : it waits for nothing, and nothing signals the play thread before it is done.
Of the SPU2's registers only the DMA channel's are kept. They are written once for a block, and
the mixer's are constants. The volume is in `IopAudio.State.updateVolume`.
-/

set_option autoImplicit false

namespace EF2SDK.IopPlayback

open IopAudio

/-! ## The SPU2 driver -/

/-- The bytes of `g_spu_buffer`. -/
abbrev spuBufferBytes : ℕ := 4096

/-- The samples the channel reads as one unit : `EF2_SPU2_DMA_MODE` is set to 16 words. -/
abbrev unitSamples : ℕ := 32

/-- `n` samples of the memory, from an address on. -/
def readSamples (memory : ℕ → Int16) (address n : ℕ) : List Int16 :=
  (List.range n).map fun k => memory (address + 2 * k)

/-- The globals of `spu2_direct.c` and the DMA channel. `dmaStart` is the start bit of its
control register, `dmaUnits` how far it is and `interrupt` whether it waits for its handler.
`finished` and `current` are for the statements : what the channel has read since the loop was
started. -/
structure Spu2 where
  activeBlock : ℕ
  running : Bool
  bufferAddress : ℕ
  blockBytes : ℕ
  initialized : Bool
  dmaAddr : ℕ
  dmaSize : ℕ
  dmaStart : Bool
  dmaUnits : ℕ
  interrupt : Bool
  finished : List (List Int16)
  current : List Int16

/-- What the interrupt manager answers to `ef2_spu2_init`. -/
structure IntrAnswers where
  registerIntrHandler : ℤ
  enableIntr : ℤ

namespace Spu2

variable (u : Spu2)

/-- `ef2_spu2_init` with its result. The callback is always `transfer_complete`. -/
def init (k : IntrAnswers) : Spu2 × ℤ :=
  if u.initialized then (u, 0)
  else if k.registerIntrHandler ≠ 0 then (u, -1)
  else if k.enableIntr ≠ 0 then (u, -2)
  else ({ u with activeBlock := 0, running := false, initialized := true }, 0)

/-- `ef2_spu2_start_dma_block`. -/
def startDmaBlock (block : ℕ) : Spu2 :=
  { u with
    dmaAddr := u32 (u.bufferAddress + u32 (u.blockBytes * block))
    dmaSize := u32 (u.blockBytes + 63) / 64 % 2 ^ 16
    dmaStart := true
    dmaUnits := 0
    current := [] }

/-- `ef2_spu2_dma_interrupt`, and whether it calls the callback. -/
def dmaInterrupt : Spu2 × Bool :=
  let u := { u with interrupt := false }
  if ¬u.running then (u, false)
  else
    let u := { u with activeBlock := u.activeBlock ^^^ 1 }
    (u.startDmaBlock u.activeBlock, true)

/-- `ef2_spu2_start_loop` with its result. -/
def startLoop (buffer totalBytes : ℕ) : Spu2 × ℤ :=
  if ¬u.initialized ∨ buffer = 0 then (u, -1)
  else if totalBytes < 128 ∨ totalBytes &&& 127 ≠ 0 then (u, -2)
  else
    let u := { u with
      bufferAddress := buffer
      blockBytes := totalBytes / 2
      activeBlock := 0
      dmaStart := false
      running := true
      finished := [] }
    (u.startDmaBlock 0, 0)

/-- `ef2_spu2_stop` with its result. -/
def stop : Spu2 × ℤ :=
  if ¬u.initialized then (u, -1)
  else ({ u with running := false, dmaStart := false }, 0)

/-- `ef2_spu2_active_block`. -/
def active : ℕ :=
  u.activeBlock &&& 1

/-- The DMA channel reads a unit ; after the last one it stops and raises its interrupt. -/
def dmaStep (memory : ℕ → Int16) : Option Spu2 :=
  if ¬u.dmaStart then none
  else if u.dmaUnits < u.dmaSize then
    some { u with
      current := u.current ++ readSamples memory (u.dmaAddr + 64 * u.dmaUnits) unitSamples
      dmaUnits := u.dmaUnits + 1 }
  else
    some { u with
      dmaStart := false
      interrupt := true
      finished := u.finished ++ [u.current]
      current := [] }

end Spu2

/-! ## The system -/

/-- Where the play thread is between `fill_render_block` and its next wait. -/
inductive CopyPc
  /-- Not there : `IopAudio.PlayPc` says where it is. -/
  | none
  /-- At `CpuSuspendIntr`. -/
  | suspend
  /-- In `copy_render_to_spu`, interrupts off. -/
  | copy (idleBlock i : ℕ)

/-- What `fill_render_block` made : a block, whose first `take` frames come from the queue. -/
structure Render where
  take : ℕ
  frames : List Frame

/-- The frames of a render block that come from the queue. -/
def Render.taken (r : Render) : List Frame :=
  r.frames.take r.take

/-- The audio service with its SPU2 driver and the memory the two share : `spuBuffer` is the
address of `g_spu_buffer`. `renders` is for the statements : the blocks rendered so far, of
which the first `mark` were before the last `audio_start`. -/
structure System where
  audio : State
  spu2 : Spu2
  memory : ℕ → Int16
  spuBuffer : ℕ
  copy : CopyPc
  renders : List Render
  mark : ℕ

/-- The system after the module was loaded. -/
def boot (spuBuffer spuVolume : ℕ) : System where
  audio := IopAudio.boot spuVolume
  spu2 := ⟨0, false, 0, 0, false, 0, 0, false, 0, false, [], []⟩
  memory := fun _ => 0
  spuBuffer := spuBuffer
  copy := .none
  renders := []
  mark := 0

namespace System

variable (s : System)

/-- `clear_bytes(g_spu_buffer, sizeof(g_spu_buffer))`. -/
def clearSpuBuffer : ℕ → Int16 := fun x =>
  if s.spuBuffer ≤ x ∧ x < s.spuBuffer + spuBufferBytes then 0 else s.memory x

/-- `rpc_handler` up to `fill_reply`, with the driver's answers to INIT, START and STOP. -/
def rpcHandler (k : IntrAnswers) : Request → System
  | .init o =>
    if ¬s.audio.initialized ∧ o.ringMutex ∧ o.spaceSema ∧ o.transferSema then
      let (spu2, result) := s.spu2.init k
      { s with
        audio := s.audio.rpcHandler (.init { o with spu2 := result })
        spu2 := spu2
        memory := if result < 0 then s.memory else s.clearSpuBuffer }
    else { s with audio := s.audio.rpcHandler (.init o) }
  | .start r =>
    if s.audio.initialized ∧ ¬s.audio.started then
      let (spu2, result) := s.spu2.startLoop s.spuBuffer spuBufferBytes
      { s with
        audio := s.audio.rpcHandler (.start result)
        spu2 := spu2
        memory := s.clearSpuBuffer
        mark := if result < 0 then s.mark else s.renders.length }
    else { s with audio := s.audio.rpcHandler (.start r) }
  | .stop r =>
    if s.audio.initialized ∧ s.audio.started then
      let (spu2, result) := s.spu2.stop
      { s with audio := s.audio.rpcHandler (.stop result), spu2 := spu2 }
    else { s with audio := s.audio.rpcHandler (.stop r) }
  | r => { s with audio := s.audio.rpcHandler r }

/-- The address of a block of `g_spu_buffer`. -/
def blockAddress (block : ℕ) : ℕ :=
  s.spuBuffer + block <<< 11

/-- One turn of the loop of `copy_render_to_spu`. -/
def copyFrames (block i : ℕ) : ℕ → Int16 :=
  let m := Function.update s.memory (block + 2 * i) (s.audio.render i).left
  let m := Function.update m (block + 512 + 2 * i) (s.audio.render i).right
  let m := Function.update m (block + 1024 + 2 * i) (s.audio.render (i + 256)).left
  Function.update m (block + 1536 + 2 * i) (s.audio.render (i + 256)).right

/-- The block `fill_render_block` has made with this step, if it has. -/
def rendered : List Render :=
  match s.audio.play with
  | .render take i =>
    if i < blockFrames then [] else [⟨take, (List.range blockFrames).map s.audio.render⟩]
  | _ => []

/-- The play thread's next step. -/
def playStep : Option System :=
  match s.copy with
  | .none =>
    s.audio.playStep.map fun audio =>
      { s with
        audio := audio
        copy := match audio.play with
          | .waitTransfer => .suspend
          | _ => .none
        renders := s.renders ++ s.rendered }
  | .suspend => some { s with copy := .copy (1 - s.spu2.active) 0 }
  | .copy idleBlock i =>
    if i < 256 then
      some { s with
        memory := s.copyFrames (s.blockAddress idleBlock) i
        copy := .copy idleBlock (i + 1) }
    else some { s with copy := .none }

/-- Interrupts are on. -/
def interruptsOn : Bool :=
  match s.copy with
  | .copy _ _ => false
  | _ => true

/-- The CPU may run a thread other than one that has interrupts off. -/
def Schedules : Prop :=
  s.interruptsOn ∧ ¬s.spu2.interrupt

instance : Decidable s.Schedules :=
  inferInstanceAs (Decidable (_ ∧ _))

/-- The interrupt of the DMA channel. -/
def handleInterrupt : System :=
  let (spu2, callback) := s.spu2.dmaInterrupt
  { s with
    spu2 := spu2
    audio := if callback then s.audio.transferComplete else s.audio }

end System

/-- What happens next. -/
inductive Choice
  | request (r : Request) (k : IntrAnswers)
  | rpc
  | play
  | dma
  | interrupt

/-- One step of the system. -/
def next (s : System) : Choice → Option System
  | .request r k =>
    match s.audio.rpc with
    | .idle => if s.Schedules then some (s.rpcHandler k r) else none
    | _ => none
  | .rpc => if s.Schedules then s.audio.rpcStep.map fun audio => { s with audio := audio } else none
  | .play => if s.Schedules ∨ ¬s.interruptsOn then s.playStep else none
  | .dma => (s.spu2.dmaStep s.memory).map fun spu2 => { s with spu2 := spu2 }
  | .interrupt => if s.interruptsOn ∧ s.spu2.interrupt then some s.handleInterrupt else none

end EF2SDK.IopPlayback
