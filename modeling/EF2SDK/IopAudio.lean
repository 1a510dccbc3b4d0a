import EF2SDK.RingBuffer
import EF2SDK.Schedule
import EF2SDK.Words
import Mathlib.Data.Int.Notation

/-!
# The audio service

`src/iop/audio/src/main.c` : the RPC thread runs `rpc_handler` on one request at a time, the
play thread runs `fill_render_block` after each SPU2 transfer, and the two share a ring of
frames under the semaphore `g_ring_mutex`.

A choice moves one thread by one step, or lets a request or a transfer interrupt arrive. A
step is one semaphore call, one frame copied, or the assignments between two of those.
The assignments of a request that touches no shared frame are one step. What the kernel
and the SPU2 driver answer is part of the request. Copying a render block to the SPU2's
buffer is left out : it reads nothing but the block.

A semaphore counts to one. The kernel hands a signalled semaphore to a waiting thread ; here
the signal raises the count and the thread's own wait lowers it, so a thread waits exactly
while the count is zero.
-/

set_option autoImplicit false

namespace EF2SDK.IopAudio

/-- `EF2AUDIO_RING_FRAMES`. -/
abbrev ringFrames : ℕ := 4096

/-- `EF2AUDIO_BLOCK_FRAMES`. -/
abbrev blockFrames : ℕ := 512

/-- `EF2_AUDIO_RPC_MAX_FRAMES`. -/
abbrev rpcMaxFrames : ℕ := 512

/-- `EF2AUDIO_MAX_VOLUME`, and `EF2_SPU2_MAX_VOLUME` of the SPU2 driver. -/
abbrev maxVolume : ℕ := 0x3FFF

/-! ## Semaphores -/

/-- The count of a semaphore, `none` while its handle is negative. -/
abbrev Sema := Option ℕ

/-- `WaitSema`, not enabled at zero. On a negative handle it fails at once, which the code
ignores. -/
def Sema.wait : Sema → Option Sema
  | none => some none
  | some 0 => none
  | some (n + 1) => some (some n)

/-- `SignalSema` and `iSignalSema` : a full semaphore stays full. -/
def Sema.signal (m : Sema) : Sema :=
  m.map fun n => min (n + 1) 1

/-- `create_semaphore(initial, 1)`. -/
def createSemaphore (initial : ℕ) (created : Bool) : Sema :=
  if created then some initial else none

/-! ## The state -/

/-- A stereo frame. -/
structure Frame where
  left : Int16
  right : Int16
  deriving DecidableEq

/-- The frame of two zero samples. -/
def silence : Frame := ⟨0, 0⟩

/-- `g_ring` with its indexes. `stored` and `rendered` are for the statements : the frames
submits have stored and render blocks have played since the last flush. -/
structure Ring where
  slots : ℕ → Frame
  readFrame : ℕ
  writeFrame : ℕ
  queuedFrames : ℕ
  stored : List Frame
  rendered : List Frame

/-- `ef2_audio_rpc_submit`. -/
structure Submit where
  frames : ℕ
  samples : ℕ → Frame

/-- `ef2_audio_rpc_reply`. -/
structure Reply where
  result : ℤ
  queuedFrames : ℕ
  capacityFrames : ℕ
  underruns : ℕ
  overruns : ℕ
  latencyMs : ℕ
  volume : ℕ
  flags : ℕ
  deriving DecidableEq

/-- Where the RPC thread is. `source`, `count` and `i` are the locals of `audio_submit`. -/
inductive RpcPc
  | idle
  /-- `StartThread` has returned in `audio_initialize`. -/
  | threadStarted
  /-- At the test of the while loop. -/
  | submitLoop (v : Submit) (source : ℕ)
  /-- The mutex is held, before the space is computed. -/
  | submitSpace (v : Submit) (source : ℕ)
  /-- The overrun is counted, the mutex still held. -/
  | submitFull (v : Submit) (source : ℕ)
  /-- At `WaitSema(g_space_sema)`. -/
  | submitWait (v : Submit) (source : ℕ)
  | submitCopy (v : Submit) (source count i : ℕ)
  | submitUnlock (v : Submit) (source : ℕ)
  | flushLock
  | flushReset
  | flushUnlock
  | flushSignal
  /-- At `fill_reply(result)`. -/
  | reply (result : ℤ)

/-- Where the play thread is. `take` and `i` are the locals of `fill_render_block`. -/
inductive PlayPc
  | notStarted
  | waitTransfer
  | lock
  | computeTake
  | render (take i : ℕ)
  | underrun (take : ℕ)
  | unlock (take : ℕ)
  | signalSpace

/-- The module's globals and its two threads. `render` is `g_render_left` with
`g_render_right`, `spuVolume` the SPU2's volume registers. -/
structure State where
  ring : Ring
  underruns : ℕ
  overruns : ℕ
  render : ℕ → Frame
  ringMutex : Sema
  spaceSema : Sema
  transferSema : Sema
  initialized : Bool
  started : Bool
  paused : Bool
  volume : ℕ
  queueLimitFrames : ℕ
  spuVolume : ℕ
  lastReply : Reply
  rpc : RpcPc
  play : PlayPc

/-- The module after loading, with whatever volume the SPU2 was left at. -/
def boot (spuVolume : ℕ) : State where
  ring := ⟨fun _ => silence, 0, 0, 0, [], []⟩
  underruns := 0
  overruns := 0
  render := fun _ => silence
  ringMutex := none
  spaceSema := none
  transferSema := none
  initialized := false
  started := false
  paused := false
  volume := maxVolume
  queueLimitFrames := ringFrames
  spuVolume := spuVolume
  lastReply := ⟨0, 0, 0, 0, 0, 0, 0, 0⟩
  rpc := .idle
  play := .notStarted

/-! ## The ring -/

namespace Ring

variable (r : Ring)

/-- The ring's content, from `g_read_frame`. -/
def contents : List Frame :=
  RingBuffer.contents ringFrames r.slots r.readFrame r.queuedFrames

/-- One turn of the copy loop of `audio_submit`. -/
def write (i : ℕ) (frame : Frame) : Ring :=
  { r with slots := Function.update r.slots ((r.writeFrame + i) % ringFrames) frame }

/-- The assignments after the copy loop of `audio_submit`. -/
def advance (count : ℕ) (frames : ℕ → Frame) : Ring where
  slots := r.slots
  readFrame := r.readFrame
  writeFrame := (r.writeFrame + count) % ringFrames
  queuedFrames := r.queuedFrames + count
  stored := r.stored ++ (List.range count).map frames
  rendered := r.rendered

/-- The frame `fill_render_block` puts at `i` of the render block. -/
def renderFrame (take i : ℕ) : Frame :=
  if i < take then r.slots ((r.readFrame + i) % ringFrames) else silence

/-- The assignments after the loop of `fill_render_block`. -/
def consume (take : ℕ) (block : ℕ → Frame) : Ring :=
  if take ≠ 0 then
    { slots := r.slots
      readFrame := (r.readFrame + take) % ringFrames
      writeFrame := r.writeFrame
      queuedFrames := r.queuedFrames - take
      stored := r.stored
      rendered := r.rendered ++ (List.range take).map block }
  else r

/-- The assignments of `audio_flush`. -/
def flush : Ring :=
  ⟨r.slots, 0, 0, 0, [], []⟩

/-- What `audio_initialize` does to the ring. -/
def clear : Ring :=
  ⟨fun _ => silence, 0, 0, 0, r.stored, r.rendered⟩

end Ring

/-! ## Requests -/

/-- What the kernel and the SPU2 driver answer to the calls of `audio_initialize`. -/
structure InitOutcome where
  ringMutex : Bool
  spaceSema : Bool
  transferSema : Bool
  spu2 : ℤ
  createThread : ℤ
  startThread : ℤ

/-- A request with its length and what the buffer holds, and the SPU2 driver's answer to
`ef2_spu2_start_loop` or `ef2_spu2_stop`. `other` is any function number without a case. -/
inductive Request
  | init (outcome : InitOutcome)
  | submit (length : ℤ) (v : Submit)
  | start (transferResult : ℤ)
  | stats
  | setVolume (length : ℤ) (value : ℕ)
  | pause
  | resume
  | stop (result : ℤ)
  | flush
  | setLatency (length : ℤ) (value : ℕ)
  | other

namespace State

variable (s : State)

/-- The handler has its result. -/
def answer (result : ℤ) : State :=
  { s with rpc := .reply result }

/-- `update_volume`, with the clamp of `ef2_spu2_set_volume`. -/
def updateVolume : State :=
  { s with spuVolume := min (if s.started ∧ ¬s.paused then s.volume else 0) maxVolume }

/-- The semaphores of `audio_initialize`. -/
def createSemaphores (o : InitOutcome) : State :=
  { s with
    ringMutex := createSemaphore 1 o.ringMutex
    spaceSema := createSemaphore 0 o.spaceSema
    transferSema := createSemaphore 0 o.transferSema }

/-- The buffers and counters of `audio_initialize`. -/
def clearBuffers : State :=
  { s with
    ring := s.ring.clear
    render := fun _ => silence
    underruns := 0
    overruns := 0 }.updateVolume

/-- `audio_initialize`. -/
def audioInitialize (o : InitOutcome) : State :=
  if s.initialized then s.answer 0
  else
    let s := s.createSemaphores o
    if s.ringMutex.isNone ∨ s.spaceSema.isNone ∨ s.transferSema.isNone then s.answer (-1)
    else if o.spu2 < 0 then s.answer (-2)
    else
      let s := s.clearBuffers
      if o.createThread < 0 then s.answer (-3)
      else if o.startThread < 0 then s.answer (-4)
      else { s with play := .waitTransfer, rpc := .threadStarted }

/-- `audio_submit` up to its loop. -/
def audioSubmit (v : Submit) : State :=
  if ¬s.initialized then s.answer (-1)
  else if v.frames > rpcMaxFrames then s.answer (-2)
  else { s with rpc := .submitLoop v 0 }

/-- `audio_start`. -/
def audioStart (transferResult : ℤ) : State :=
  if ¬s.initialized then s.answer (-1)
  else if s.started then s.answer 0
  else if transferResult < 0 then { s.updateVolume with started := false }.updateVolume.answer (-2)
  else { s.updateVolume with started := true, paused := false }.updateVolume.answer 0

/-- `audio_pause`. -/
def audioPause : State :=
  if ¬s.initialized ∨ ¬s.started then s.answer (-1)
  else { s with paused := true }.updateVolume.answer 0

/-- `audio_resume`. -/
def audioResume : State :=
  if ¬s.initialized ∨ ¬s.started then s.answer (-1)
  else { s with paused := false }.updateVolume.answer 0

/-- `audio_stop`. -/
def audioStop (result : ℤ) : State :=
  if ¬s.initialized then s.answer (-1)
  else if ¬s.started then { s with paused := false }.updateVolume.answer 0
  else if result < 0 then s.answer (-2)
  else { s with started := false, paused := false }.updateVolume.answer 0

/-- `audio_set_volume`. -/
def audioSetVolume (volume : ℕ) : State :=
  if volume > maxVolume then s.answer (-1)
  else { s with volume := volume }.updateVolume.answer 0

/-- The queue limit `audio_set_latency_ms` computes. -/
def latencyFrames (latencyMs : ℕ) : ℕ :=
  let frames := (latencyMs * 48 + blockFrames - 1) / blockFrames * blockFrames
  let frames := if frames < blockFrames then blockFrames else frames
  if frames > ringFrames then ringFrames else frames

/-- `audio_set_latency_ms`. -/
def audioSetLatencyMs (latencyMs : ℕ) : State :=
  if latencyMs = 0 ∨ latencyMs > 1000 then s.answer (-1)
  else
    { s with
      queueLimitFrames := latencyFrames latencyMs
      spaceSema := s.spaceSema.signal }.answer 0

/-- `fill_reply`. -/
def fillReply (result : ℤ) : Reply where
  result := result
  queuedFrames := s.ring.queuedFrames
  capacityFrames := s.queueLimitFrames
  underruns := s.underruns
  overruns := s.overruns
  latencyMs := u32 (s.queueLimitFrames * 1000 + 47999) / 48000
  volume := s.volume
  flags := (if s.started then 1 else 0) ||| (if s.paused then 2 else 0)

/-- `rpc_handler` up to `fill_reply`. -/
def rpcHandler : Request → State
  | .init o => s.audioInitialize o
  | .submit length v =>
    if length < 4 then s.answer (-10)
    else if v.frames > rpcMaxFrames ∨ length.toNat < u32 (4 + u32 (v.frames * 2 * 2)) then
      s.answer (-11)
    else s.audioSubmit v
  | .start transferResult => s.audioStart transferResult
  | .stats => s.answer 0
  | .setVolume length value => if length < 4 then s.answer (-12) else s.audioSetVolume value
  | .pause => s.audioPause
  | .resume => s.audioResume
  | .stop result => s.audioStop result
  | .flush => { s with rpc := .flushLock }
  | .setLatency length value => if length < 4 then s.answer (-13) else s.audioSetLatencyMs value
  | .other => s.answer (-100)

/-! ## Steps -/

/-- The space `audio_submit` finds. -/
def space : ℕ :=
  if s.ring.queuedFrames ≥ s.queueLimitFrames then 0
  else s.queueLimitFrames - s.ring.queuedFrames

/-- The frames `audio_submit` copies into that space. -/
def submitCount (v : Submit) (source : ℕ) : ℕ :=
  if v.frames - source > s.space then s.space else v.frames - source

/-- The frames `fill_render_block` takes. -/
def renderTake : ℕ :=
  if s.paused then 0
  else if s.ring.queuedFrames > blockFrames then blockFrames else s.ring.queuedFrames

/-- The RPC thread's next step ; `none` while it waits, for a request too. -/
def rpcStep : Option State :=
  match s.rpc with
  | .idle => none
  | .threadStarted => some { s with initialized := true, rpc := .reply 0 }
  | .submitLoop v source =>
    if source < v.frames then
      s.ringMutex.wait.map fun m => { s with ringMutex := m, rpc := .submitSpace v source }
    else some (s.answer v.frames)
  | .submitSpace v source =>
    if s.space = 0 then
      some { s with overruns := u32 (s.overruns + 1), rpc := .submitFull v source }
    else some { s with rpc := .submitCopy v source (s.submitCount v source) 0 }
  | .submitFull v source =>
    some { s with ringMutex := s.ringMutex.signal, rpc := .submitWait v source }
  | .submitWait v source =>
    s.spaceSema.wait.map fun m => { s with spaceSema := m, rpc := .submitLoop v source }
  | .submitCopy v source count i =>
    if i < count then
      some { s with
        ring := s.ring.write i (v.samples (source + i))
        rpc := .submitCopy v source count (i + 1) }
    else
      some { s with
        ring := s.ring.advance count fun j => v.samples (source + j)
        rpc := .submitUnlock v (source + count) }
  | .submitUnlock v source =>
    some { s with ringMutex := s.ringMutex.signal, rpc := .submitLoop v source }
  | .flushLock => s.ringMutex.wait.map fun m => { s with ringMutex := m, rpc := .flushReset }
  | .flushReset => some { s with ring := s.ring.flush, rpc := .flushUnlock }
  | .flushUnlock => some { s with ringMutex := s.ringMutex.signal, rpc := .flushSignal }
  | .flushSignal => some { s with spaceSema := s.spaceSema.signal, rpc := .reply 0 }
  | .reply result => some { s with lastReply := s.fillReply result, rpc := .idle }

/-- The play thread's next step ; `none` while it waits. -/
def playStep : Option State :=
  match s.play with
  | .notStarted => none
  | .waitTransfer => s.transferSema.wait.map fun m => { s with transferSema := m, play := .lock }
  | .lock => s.ringMutex.wait.map fun m => { s with ringMutex := m, play := .computeTake }
  | .computeTake => some { s with play := .render s.renderTake 0 }
  | .render take i =>
    if i < blockFrames then
      some { s with
        render := Function.update s.render i (s.ring.renderFrame take i)
        play := .render take (i + 1) }
    else some { s with ring := s.ring.consume take s.render, play := .underrun take }
  | .underrun take =>
    -- `g_paused` is read again, and a pause may have come since the first read
    some { s with
      underruns := if ¬s.paused ∧ take < blockFrames then u32 (s.underruns + 1) else s.underruns
      play := .unlock take }
  | .unlock take =>
    some { s with
      ringMutex := s.ringMutex.signal
      play := if take ≠ 0 then .signalSpace else .waitTransfer }
  | .signalSpace => some { s with spaceSema := s.spaceSema.signal, play := .waitTransfer }

/-- `transfer_complete`. -/
def transferComplete : State :=
  { s with transferSema := s.transferSema.signal }

end State

/-- What happens next. -/
inductive Choice
  | request (r : Request)
  | rpc
  | play
  | transfer

/-- One step. A request is taken when the RPC thread has answered the last one. -/
def next (s : State) : Choice → Option State
  | .request r =>
    match s.rpc with
    | .idle => some (s.rpcHandler r)
    | _ => none
  | .rpc => s.rpcStep
  | .play => s.playStep
  | .transfer => some s.transferComplete

/-- A request is handled at once. -/
theorem next_request {s t : State} {r : Request} (h : next s (.request r) = some t) :
    s.rpc = .idle ∧ s.rpcHandler r = t := by
  rw [next] at h
  split at h
  · next hidle => exact ⟨hidle, Option.some.inj h⟩
  · cases h

end EF2SDK.IopAudio
