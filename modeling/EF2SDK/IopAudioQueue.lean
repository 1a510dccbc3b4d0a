import EF2SDK.IopAudio

/-!
# The audio queue

The ring is a first-in first-out queue : the frames rendered since the last flush,
followed by the ring's content, are the frames stored since then (`Ring.WellFormed`).
Submits append to the queue, render blocks take from its front, and a flush empties it.

The two threads work on the ring only while they hold `g_ring_mutex`, and never both at
once (`Exclusive`). So what a thread has copied so far stays copied while the other one
moves (`RpcPc.Copied`, `PlayPc.Copied`), and each operation of the queue may be read as one
step. A latency change only moves the limit below which a submit copies, which is never
above the size of the ring.
-/

set_option autoImplicit false

namespace EF2SDK.IopAudio

/-! ## The operations of the queue -/

namespace Ring

variable {r : Ring}

/-- The indexes are in range and agree with the count, and the queue is exact. -/
structure WellFormed (r : Ring) : Prop where
  read_lt : r.readFrame < ringFrames
  write_lt : r.writeFrame < ringFrames
  queued_le : r.queuedFrames ≤ ringFrames
  write_eq : r.writeFrame = (r.readFrame + r.queuedFrames) % ringFrames
  fifo : r.rendered ++ r.contents = r.stored

namespace WellFormed

/-- Copying a frame behind the queue does not change it. -/
theorem write {i : ℕ} (h : r.WellFormed) (frame : Frame) (hi : r.queuedFrames + i < ringFrames) :
    (r.write i frame).WellFormed where
  read_lt := h.read_lt
  write_lt := h.write_lt
  queued_le := h.queued_le
  write_eq := h.write_eq
  fifo := by
    have hcontents : (r.write i frame).contents = r.contents := by
      simp only [Ring.contents, Ring.write, h.write_eq]
      exact RingBuffer.contents_update frame hi
    rw [hcontents]
    exact h.fifo

/-- Advancing past the copied frames appends them to the queue. -/
theorem advance {count : ℕ} {frames : ℕ → Frame} (h : r.WellFormed)
    (hcount : r.queuedFrames + count ≤ ringFrames)
    (hcopied : ∀ j < count, r.slots ((r.writeFrame + j) % ringFrames) = frames j) :
    (r.advance count frames).WellFormed where
  read_lt := h.read_lt
  write_lt := Nat.mod_lt _ (by decide)
  queued_le := hcount
  write_eq := by
    simp only [Ring.advance, h.write_eq, Nat.mod_add_mod, Nat.add_assoc]
  fifo := by
    have hcontents : (r.advance count frames).contents =
        r.contents ++ (List.range count).map frames := by
      rw [h.write_eq] at hcopied
      exact RingBuffer.contents_append hcopied
    rw [hcontents, ← List.append_assoc]
    exact congrArg (· ++ _) h.fifo

/-- Taking the copied frames off the front moves them to what was rendered. -/
theorem consume {take : ℕ} {block : ℕ → Frame} (h : r.WellFormed)
    (htake : take ≤ r.queuedFrames)
    (hcopied : ∀ j < take, block j = r.slots ((r.readFrame + j) % ringFrames)) :
    (r.consume take block).WellFormed := by
  rw [Ring.consume]
  split
  · constructor
    · exact Nat.mod_lt _ (by decide)
    · exact h.write_lt
    · exact (Nat.sub_le _ _).trans h.queued_le
    · simp only [h.write_eq, Nat.mod_add_mod, Nat.add_assoc, Nat.add_sub_of_le htake]
    · have hfront := RingBuffer.contents_take hcopied
      simp only [Ring.contents, hfront, List.append_assoc]
      rw [RingBuffer.contents_drop htake]
      exact h.fifo
  · exact h

/-- An empty ring from slot zero on. -/
theorem of_empty (hread : r.readFrame = 0) (hwrite : r.writeFrame = 0)
    (hqueued : r.queuedFrames = 0) (hfifo : r.rendered = r.stored) : r.WellFormed := by
  constructor <;> simp [hread, hwrite, hqueued, hfifo, Ring.contents]

end WellFormed

end Ring

/-! ## The mutex -/

namespace Sema

variable {m m' : Sema} {k : ℕ}

/-- The semaphore, once created, is free or held by exactly one of `k` holders. -/
def Guards (m : Sema) (k : ℕ) : Prop :=
  ∀ n, m = some n → n + k = 1

theorem Guards.wait (h : m.Guards k) (hwait : m.wait = some m') : m'.Guards (k + 1) := by
  match m with
  | none =>
    obtain rfl : none = m' := by simpa [Sema.wait] using hwait
    simp [Guards]
  | some 0 => simp [Sema.wait] at hwait
  | some (n + 1) =>
    obtain rfl : some n = m' := by simpa [Sema.wait] using hwait
    intro j hj
    have hn := h (n + 1) rfl
    simp only [Option.some.injEq] at hj
    omega

theorem Guards.signal (h : m.Guards (k + 1)) : m.signal.Guards k := by
  match m with
  | none => simp [Sema.signal, Guards]
  | some n =>
    intro j hj
    have hn := h n rfl
    simp only [Sema.signal, Option.map_some, Option.some.injEq] at hj
    omega

theorem guards_createSemaphore (created : Bool) : (createSemaphore 1 created).Guards 0 := by
  cases created <;> simp [createSemaphore, Guards]

@[simp] theorem isSome_signal : m.signal.isSome = m.isSome := by
  cases m <;> rfl

theorem isSome_of_wait (h : m.wait = some m') : m'.isSome = m.isSome := by
  match m with
  | none =>
    obtain rfl : none = m' := by simpa [Sema.wait] using h
    rfl
  | some 0 => simp [Sema.wait] at h
  | some (n + 1) =>
    obtain rfl : some n = m' := by simpa [Sema.wait] using h
    rfl

end Sema

/-- The RPC thread is between a wait and a signal of the mutex. -/
def RpcPc.holds : RpcPc → ℕ
  | .submitSpace _ _ | .submitFull _ _ | .submitCopy _ _ _ _ | .submitUnlock _ _
  | .flushReset | .flushUnlock => 1
  | .idle | .threadStarted | .submitLoop _ _ | .submitWait _ _ | .flushLock | .flushSignal
  | .reply _ => 0

/-- The play thread is between a wait and a signal of the mutex. -/
def PlayPc.holds : PlayPc → ℕ
  | .computeTake | .render _ _ | .underrun _ | .unlock _ => 1
  | .notStarted | .waitTransfer | .lock | .signalSpace => 0

/-- The RPC thread runs `audio_submit`, or is about to finish a successful INIT. -/
def RpcPc.NeedsPlay : RpcPc → Prop
  | .threadStarted | .submitLoop _ _ | .submitSpace _ _ | .submitFull _ _ | .submitWait _ _
  | .submitCopy _ _ _ _ | .submitUnlock _ _ => True
  | .idle | .flushLock | .flushReset | .flushUnlock | .flushSignal | .reply _ => False

variable {s t : State}

/-- At most one thread holds the mutex, and it exists before the threads share the ring. -/
structure Exclusive (s : State) : Prop where
  guards : s.ringMutex.Guards (s.rpc.holds + s.play.holds)
  created : s.play ≠ .notStarted → s.ringMutex.isSome ∧ s.spaceSema.isSome
  initialized : s.initialized → s.play ≠ .notStarted
  running : s.play ≠ .notStarted → s.initialized ∨ s.rpc = .threadStarted
  needs : s.rpc.NeedsPlay → s.play ≠ .notStarted

theorem Exclusive.holds_le (h : Exclusive s) (hplay : s.play ≠ .notStarted) :
    s.rpc.holds + s.play.holds ≤ 1 := by
  obtain ⟨n, hn⟩ := Option.isSome_iff_exists.1 (h.created hplay).1
  have hsum := h.guards n hn
  omega

/-! ## The invariant -/

/-- What a submit has copied so far is in the free part of the ring. -/
def RpcPc.Copied (r : Ring) : RpcPc → Prop
  | .submitCopy v source count i =>
    i ≤ count ∧ r.queuedFrames + count ≤ ringFrames ∧
      ∀ j < i, r.slots ((r.writeFrame + j) % ringFrames) = v.samples (source + j)
  | _ => True

/-- What a render block has copied so far is the front of the queue, then silence. -/
def PlayPc.Copied (r : Ring) (block : ℕ → Frame) : PlayPc → Prop
  | .render take i =>
    i ≤ blockFrames ∧ take ≤ blockFrames ∧ take ≤ r.queuedFrames ∧
      ∀ j < i, block j = r.renderFrame take j
  | _ => True

/-- The invariant of the two threads. Nothing is queued before the play thread exists. -/
structure Inv (s : State) : Prop extends Exclusive s where
  limit_le : s.queueLimitFrames ≤ ringFrames
  wellFormed : s.ring.WellFormed
  rpcCopied : s.rpc.Copied s.ring
  playCopied : s.play.Copied s.ring s.render
  unused : s.play = .notStarted → s.ring.rendered = [] ∧ s.ring.stored = []

theorem Inv.of_boot (spuVolume : ℕ) : Inv (boot spuVolume) where
  guards := by simp [boot, Sema.Guards]
  created := by simp [boot]
  initialized := by simp [boot]
  running := by simp [boot]
  needs := by simp [boot, RpcPc.NeedsPlay]
  limit_le := Nat.le_refl _
  wellFormed := Ring.WellFormed.of_empty rfl rfl rfl rfl
  rpcCopied := trivial
  playCopied := trivial
  unused _ := ⟨rfl, rfl⟩

theorem RpcPc.copied_of_holds_eq_zero {pc : RpcPc} (r : Ring) (h : pc.holds = 0) :
    pc.Copied r := by
  cases pc <;> trivial

theorem PlayPc.copied_of_holds_eq_zero {pc : PlayPc} (r : Ring) (block : ℕ → Frame)
    (h : pc.holds = 0) : pc.Copied r block := by
  cases pc <;> trivial

/-! ## What a step can do -/

/-- A step leaves the mutex alone, takes it or releases it, as its program counter says. -/
def MutexStep (m m' : Sema) (holds holds' : ℕ) : Prop :=
  m' = m ∧ holds' = holds ∨ m.wait = some m' ∧ holds' = holds + 1 ∨
    m' = m.signal ∧ holds = holds' + 1

theorem MutexStep.guards {m m' : Sema} {holds holds' other : ℕ} (h : MutexStep m m' holds holds')
    (hguards : m.Guards (holds + other)) : m'.Guards (holds' + other) := by
  rcases h with ⟨rfl, rfl⟩ | ⟨hwait, rfl⟩ | ⟨rfl, rfl⟩
  · exact hguards
  · rw [Nat.add_right_comm]
    exact hguards.wait hwait
  · rw [Nat.add_right_comm] at hguards
    exact hguards.signal

theorem MutexStep.isSome {m m' : Sema} {holds holds' : ℕ} (h : MutexStep m m' holds holds') :
    m'.isSome = m.isSome := by
  rcases h with ⟨rfl, -⟩ | ⟨hwait, -⟩ | ⟨rfl, -⟩
  · rfl
  · exact Sema.isSome_of_wait hwait
  · exact Sema.isSome_signal

/-- The RPC thread is about to start a copy, or to work on the ring. -/
def RpcPc.Works : RpcPc → Prop
  | .submitSpace _ _ | .submitCopy _ _ _ _ | .flushReset => True
  | _ => False

/-- The play thread is about to start a copy, or to work on the ring. -/
def PlayPc.Works : PlayPc → Prop
  | .computeTake | .render _ _ => True
  | _ => False

/-- What a step of the RPC thread can do outside `RpcPc.Works`. -/
structure RpcFrame (s t : State) : Prop where
  mutex : MutexStep s.ringMutex t.ringMutex s.rpc.holds t.rpc.holds
  space : t.spaceSema.isSome = s.spaceSema.isSome
  play : t.play = s.play
  render : t.render = s.render
  limit : t.queueLimitFrames = s.queueLimitFrames
  started : t.started = s.started
  paused : t.paused = s.paused
  initialized : s.rpc ≠ .threadStarted ∧ t.initialized = s.initialized ∨
    s.rpc = .threadStarted ∧ t.initialized = true
  needs : t.rpc.NeedsPlay → s.rpc.NeedsPlay
  ring : t.ring = s.ring ∨ s.rpc.holds = 1
  copied : ¬s.rpc.Works → t.ring = s.ring ∧ t.rpc.Copied s.ring

theorem rpcFrame (hstep : s.rpcStep = some t) : RpcFrame s t := by
  cases hpc : s.rpc <;> simp only [State.rpcStep, hpc] at hstep
  case idle => cases hstep
  all_goals try split at hstep
  all_goals
    first
      | obtain ⟨m, hm, rfl⟩ := Option.map_eq_some_iff.1 hstep
      | obtain rfl := Option.some.inj hstep
  all_goals
    constructor <;> first
      | rfl
      | exact Sema.isSome_of_wait hm
      | simp_all [MutexStep, RpcPc.holds, RpcPc.NeedsPlay, RpcPc.Works, RpcPc.Copied, State.answer]

/-- What a step of the play thread can do outside `PlayPc.Works`. -/
structure PlayFrame (s t : State) : Prop where
  mutex : MutexStep s.ringMutex t.ringMutex s.play.holds t.play.holds
  space : t.spaceSema.isSome = s.spaceSema.isSome
  running : s.play ≠ .notStarted ∧ t.play ≠ .notStarted
  rpc : t.rpc = s.rpc
  initialized : t.initialized = s.initialized
  limit : t.queueLimitFrames = s.queueLimitFrames
  started : t.started = s.started
  paused : t.paused = s.paused
  ring : t.ring = s.ring ∨ s.play.holds = 1
  copied : ¬s.play.Works → t.ring = s.ring ∧ t.play.Copied s.ring t.render

theorem playFrame (hstep : s.playStep = some t) : PlayFrame s t := by
  cases hpc : s.play <;> simp only [State.playStep, hpc] at hstep
  case notStarted => cases hstep
  all_goals try split at hstep
  all_goals
    first
      | obtain ⟨m, hm, rfl⟩ := Option.map_eq_some_iff.1 hstep
      | obtain rfl := Option.some.inj hstep
  all_goals
    constructor <;> first
      | rfl
      | exact Sema.isSome_of_wait hm
      | simp_all [MutexStep, PlayPc.holds, PlayPc.Works, PlayPc.Copied]

/-! ## Mutual exclusion -/

theorem Exclusive.rpcStep (h : Exclusive s) (hstep : s.rpcStep = some t) : Exclusive t := by
  have hframe := rpcFrame hstep
  constructor <;> rw [hframe.play]
  · exact hframe.mutex.guards h.guards
  · rw [hframe.mutex.isSome, hframe.space]
    exact h.created
  · intro hinit
    rcases hframe.initialized with ⟨-, heq⟩ | ⟨hpc, -⟩
    · exact h.initialized (heq ▸ hinit)
    · exact h.needs (by rw [hpc]; trivial)
  · intro hrun
    rcases hframe.initialized with ⟨hpc, heq⟩ | ⟨-, hinit⟩
    · exact Or.inl (heq ▸ (h.running hrun).resolve_right hpc)
    · exact Or.inl hinit
  · exact fun hneeds => h.needs (hframe.needs hneeds)

theorem Exclusive.playStep (h : Exclusive s) (hstep : s.playStep = some t) : Exclusive t := by
  have hframe := playFrame hstep
  obtain ⟨hrun, hrun'⟩ := hframe.running
  constructor
  · rw [hframe.rpc, Nat.add_comm]
    exact hframe.mutex.guards (Nat.add_comm _ _ ▸ h.guards)
  · intro _
    rw [hframe.mutex.isSome, hframe.space]
    exact h.created hrun
  · exact fun _ => hrun'
  · intro _
    rw [hframe.initialized, hframe.rpc]
    exact h.running hrun
  · exact fun _ => hrun'

/-! ## Steps of the RPC thread -/

theorem space_add_queued_le (h : s.queueLimitFrames ≤ ringFrames)
    (hspace : s.space ≠ 0) (v : Submit) (source : ℕ) :
    s.ring.queuedFrames + s.submitCount v source ≤ ringFrames := by
  have hcount : s.submitCount v source ≤ s.space := by
    rw [State.submitCount]
    split <;> omega
  rw [State.space] at hspace hcount
  split at hspace
  · exact absurd rfl hspace
  · rw [if_neg ‹_›] at hcount
    omega

/-- What a step of the RPC thread does to the queue. -/
theorem Inv.rpcStep_queue (h : Inv s) (hstep : s.rpcStep = some t) :
    t.ring.WellFormed ∧ t.rpc.Copied t.ring ∧
      (s.play = .notStarted → t.ring.rendered = [] ∧ t.ring.stored = []) := by
  cases hpc : s.rpc with
  | submitSpace v source =>
    simp only [State.rpcStep, hpc] at hstep
    split at hstep
    · obtain rfl := Option.some.inj hstep
      exact ⟨h.wellFormed, trivial, h.unused⟩
    · obtain rfl := Option.some.inj hstep
      have hcount := space_add_queued_le h.limit_le ‹_› v source
      exact ⟨h.wellFormed, ⟨Nat.zero_le _, hcount, by simp⟩, h.unused⟩
  | submitCopy v source count i =>
    have hcopied := h.rpcCopied
    rw [hpc] at hcopied
    obtain ⟨hi, hroom, hcopied⟩ := hcopied
    have hrun : s.play ≠ .notStarted := h.needs (by rw [hpc]; trivial)
    simp only [State.rpcStep, hpc] at hstep
    split at hstep
    case isTrue hlt =>
      obtain rfl := Option.some.inj hstep
      have hring := h.wellFormed.write (v.samples (source + i)) (i := i) (by omega)
      refine ⟨hring, ⟨hlt, hroom, ?_⟩, fun hns => absurd hns hrun⟩
      exact RingBuffer.written_update (f := fun j => v.samples (source + j)) (by omega) hcopied
    case isFalse hge =>
      obtain rfl := Option.some.inj hstep
      obtain rfl : i = count := by omega
      exact ⟨h.wellFormed.advance hroom hcopied, trivial, fun hns => absurd hns hrun⟩
  | flushReset =>
    simp only [State.rpcStep, hpc] at hstep
    obtain rfl := Option.some.inj hstep
    exact ⟨Ring.WellFormed.of_empty rfl rfl rfl rfl, trivial, fun _ => ⟨rfl, rfl⟩⟩
  | _ =>
    obtain ⟨hring, hcopied⟩ := (rpcFrame hstep).copied (by simp [hpc, RpcPc.Works])
    rw [hring]
    exact ⟨h.wellFormed, hcopied, h.unused⟩

theorem Inv.rpcStep (h : Inv s) (hstep : s.rpcStep = some t) : Inv t := by
  have hframe := rpcFrame hstep
  obtain ⟨hwell, hcopied, hunused⟩ := h.rpcStep_queue hstep
  refine ⟨h.toExclusive.rpcStep hstep, hframe.limit ▸ h.limit_le, hwell, hcopied, ?_, ?_⟩
  · rw [hframe.play, hframe.render]
    rcases hframe.ring with hring | hholds
    · rw [hring]
      exact h.playCopied
    · -- the mutex keeps the play thread out of its copy loop
      apply PlayPc.copied_of_holds_eq_zero
      by_cases hrun : s.play = .notStarted
      · rw [hrun]
        rfl
      · have hle := h.holds_le hrun
        omega
  · rw [hframe.play]
    exact hunused

/-! ## Steps of the play thread -/

theorem renderTake_le : s.renderTake ≤ s.ring.queuedFrames ∧ s.renderTake ≤ blockFrames := by
  rw [State.renderTake]
  split
  · exact ⟨Nat.zero_le _, Nat.zero_le _⟩
  · split <;> omega

/-- What a step of the play thread does to the queue. -/
theorem Inv.playStep_queue (h : Inv s) (hstep : s.playStep = some t) :
    t.ring.WellFormed ∧ t.play.Copied t.ring t.render := by
  cases hpc : s.play with
  | computeTake =>
    simp only [State.playStep, hpc] at hstep
    obtain rfl := Option.some.inj hstep
    exact ⟨h.wellFormed, Nat.zero_le _, renderTake_le.2, renderTake_le.1, by simp⟩
  | render take i =>
    have hcopied := h.playCopied
    rw [hpc] at hcopied
    obtain ⟨hi, hblock, htake, hcopied⟩ := hcopied
    simp only [State.playStep, hpc] at hstep
    split at hstep
    case isTrue hlt =>
      obtain rfl := Option.some.inj hstep
      exact ⟨h.wellFormed, hlt, hblock, htake, RingBuffer.copied_update hcopied⟩
    case isFalse hge =>
      obtain rfl := Option.some.inj hstep
      refine ⟨h.wellFormed.consume htake ?_, trivial⟩
      intro j hj
      rw [hcopied j (by omega), Ring.renderFrame, if_pos hj]
  | _ =>
    obtain ⟨hring, hcopied⟩ := (playFrame hstep).copied (by simp [hpc, PlayPc.Works])
    rw [hring]
    exact ⟨h.wellFormed, hcopied⟩

theorem Inv.playStep (h : Inv s) (hstep : s.playStep = some t) : Inv t := by
  have hframe := playFrame hstep
  obtain ⟨hwell, hcopied⟩ := h.playStep_queue hstep
  refine ⟨h.toExclusive.playStep hstep, hframe.limit ▸ h.limit_le, hwell, ?_, hcopied, ?_⟩
  · rw [hframe.rpc]
    rcases hframe.ring with hring | hholds
    · rw [hring]
      exact h.rpcCopied
    · -- the mutex keeps the RPC thread out of its copy loop
      apply RpcPc.copied_of_holds_eq_zero
      have hle := h.holds_le hframe.running.1
      omega
  · exact fun hns => absurd hns hframe.running.2

/-! ## Requests -/

theorem latencyFrames_le (latencyMs : ℕ) : State.latencyFrames latencyMs ≤ ringFrames := by
  simp only [State.latencyFrames]
  split_ifs <;> omega

/-- What a request other than INIT leaves alone. -/
structure RequestFrame (s t : State) : Prop where
  ring : t.ring = s.ring
  render : t.render = s.render
  mutex : t.ringMutex = s.ringMutex
  space : t.spaceSema.isSome = s.spaceSema.isSome
  play : t.play = s.play
  initialized : t.initialized = s.initialized
  limit : s.queueLimitFrames ≤ ringFrames → t.queueLimitFrames ≤ ringFrames
  holds : t.rpc.holds = 0
  needs : t.rpc.NeedsPlay → s.initialized

namespace RequestFrame

theorem answer (result : ℤ) : RequestFrame s (s.answer result) :=
  ⟨rfl, rfl, rfl, rfl, rfl, rfl, id, rfl, False.elim⟩

theorem audioSubmit (v : Submit) : RequestFrame s (s.audioSubmit v) := by
  rw [State.audioSubmit]
  split_ifs with hinit
  · exact answer _
  · exact ⟨rfl, rfl, rfl, rfl, rfl, rfl, id, rfl, fun _ => hinit⟩
  · exact answer _

/-- The volume is none of it. -/
theorem of_updateVolume {t : State} (h : RequestFrame s.updateVolume t) : RequestFrame s t :=
  ⟨h.ring, h.render, h.mutex, h.space, h.play, h.initialized, h.limit, h.holds, h.needs⟩

theorem audioStart (transferResult : ℤ) : RequestFrame s (s.audioStart transferResult) := by
  rw [State.audioStart]
  split_ifs
  · exact answer _
  · exact of_updateVolume ⟨rfl, rfl, rfl, rfl, rfl, rfl, id, rfl, False.elim⟩
  · exact of_updateVolume ⟨rfl, rfl, rfl, rfl, rfl, rfl, id, rfl, False.elim⟩
  · exact answer _

theorem audioPause : RequestFrame s s.audioPause := by
  rw [State.audioPause]
  split_ifs <;> exact ⟨rfl, rfl, rfl, rfl, rfl, rfl, id, rfl, False.elim⟩

theorem audioResume : RequestFrame s s.audioResume := by
  rw [State.audioResume]
  split_ifs <;> exact ⟨rfl, rfl, rfl, rfl, rfl, rfl, id, rfl, False.elim⟩

theorem audioStop (result : ℤ) : RequestFrame s (s.audioStop result) := by
  rw [State.audioStop]
  split_ifs <;> exact ⟨rfl, rfl, rfl, rfl, rfl, rfl, id, rfl, False.elim⟩

theorem audioSetVolume (volume : ℕ) : RequestFrame s (s.audioSetVolume volume) := by
  rw [State.audioSetVolume]
  split_ifs <;> exact ⟨rfl, rfl, rfl, rfl, rfl, rfl, id, rfl, False.elim⟩

theorem audioSetLatencyMs (latencyMs : ℕ) : RequestFrame s (s.audioSetLatencyMs latencyMs) := by
  rw [State.audioSetLatencyMs]
  split_ifs
  · exact answer _
  · exact ⟨rfl, rfl, rfl, Sema.isSome_signal, rfl, rfl, fun _ => latencyFrames_le latencyMs, rfl,
      False.elim⟩

theorem rpcHandler (r : Request) (hr : ∀ o, r ≠ .init o) : RequestFrame s (s.rpcHandler r) := by
  cases r with
  | init o => exact absurd rfl (hr o)
  | submit length v =>
    rw [State.rpcHandler]
    split_ifs
    · exact answer _
    · exact answer _
    · exact audioSubmit v
  | start transferResult => exact audioStart transferResult
  | stats => exact answer _
  | setVolume length value =>
    rw [State.rpcHandler]
    split_ifs
    · exact answer _
    · exact audioSetVolume value
  | pause => exact audioPause
  | resume => exact audioResume
  | stop result => exact audioStop result
  | flush => exact ⟨rfl, rfl, rfl, rfl, rfl, rfl, id, rfl, False.elim⟩
  | setLatency length value =>
    rw [State.rpcHandler]
    split_ifs
    · exact answer _
    · exact audioSetLatencyMs value
  | other => exact answer _

end RequestFrame

theorem Inv.request (h : Inv s) (hidle : s.rpc = .idle) (hframe : RequestFrame s t) : Inv t where
  guards := by
    have hguards := h.guards
    rw [hidle] at hguards
    rw [hframe.mutex, hframe.holds, hframe.play]
    exact hguards
  created := by
    rw [hframe.play, hframe.mutex, hframe.space]
    exact h.created
  initialized := by
    rw [hframe.initialized, hframe.play]
    exact h.initialized
  running := by
    intro hrun
    rw [hframe.play] at hrun
    rw [hframe.initialized]
    exact Or.inl ((h.running hrun).resolve_right (by simp [hidle]))
  needs := by
    rw [hframe.play]
    exact fun hneeds => h.initialized (hframe.needs hneeds)
  limit_le := hframe.limit h.limit_le
  wellFormed := hframe.ring ▸ h.wellFormed
  rpcCopied := RpcPc.copied_of_holds_eq_zero _ hframe.holds
  playCopied := by
    rw [hframe.ring, hframe.render, hframe.play]
    exact h.playCopied
  unused := by
    rw [hframe.ring, hframe.play]
    exact h.unused

theorem Inv.createSemaphores (h : Inv s) (hidle : s.rpc = .idle) (hns : s.play = .notStarted)
    (o : InitOutcome) : Inv (s.createSemaphores o) :=
  { h with
    guards := by
      simpa [State.createSemaphores, hidle, hns, RpcPc.holds, PlayPc.holds] using
        Sema.guards_createSemaphore o.ringMutex
    created := fun hrun => absurd hns hrun }

theorem Inv.clearBuffers (h : Inv s) (hns : s.play = .notStarted) (hidle : s.rpc = .idle) :
    Inv s.clearBuffers := by
  obtain ⟨hrendered, hstored⟩ := h.unused hns
  exact { h with
    wellFormed := Ring.WellFormed.of_empty rfl rfl rfl (hrendered.trans hstored.symm)
    rpcCopied := RpcPc.copied_of_holds_eq_zero _ (congrArg RpcPc.holds hidle)
    playCopied := PlayPc.copied_of_holds_eq_zero _ _ (congrArg PlayPc.holds hns) }

/-- Before the play thread exists, INIT may fail anywhere : the queue is empty. -/
theorem Inv.audioInitialize (h : Inv s) (hidle : s.rpc = .idle) (o : InitOutcome) :
    Inv (s.audioInitialize o) := by
  rw [State.audioInitialize]
  split
  · exact h.request hidle (RequestFrame.answer 0)
  case isFalse hinit =>
    have hns : s.play = .notStarted := by
      by_contra hrun
      rcases h.running hrun with hini | hpc
      · exact hinit hini
      · simp [hidle] at hpc
    have hsemas := h.createSemaphores hidle hns o
    have hclear := hsemas.clearBuffers hns hidle
    dsimp only
    split_ifs with hmissing
    · exact hsemas.request hidle (RequestFrame.answer _)
    · exact hsemas.request hidle (RequestFrame.answer _)
    · exact hclear.request hidle (RequestFrame.answer _)
    · exact hclear.request hidle (RequestFrame.answer _)
    · have hcreated : (s.createSemaphores o).ringMutex.isSome ∧
          (s.createSemaphores o).spaceSema.isSome := by
        simp only [not_or, Bool.not_eq_true, Option.isNone_eq_false_iff] at hmissing
        exact ⟨hmissing.1, hmissing.2.1⟩
      have hguards : (s.createSemaphores o).ringMutex.Guards (s.rpc.holds + s.play.holds) :=
        hclear.guards
      rw [hidle, hns] at hguards
      exact { hclear with
        guards := hguards
        created := fun _ => hcreated
        initialized := fun hini => absurd hini hinit
        running := fun _ => Or.inr rfl
        needs := fun _ => by simp
        rpcCopied := trivial
        playCopied := trivial
        unused := fun hstarted => by cases hstarted }

/-! ## Every run -/

theorem Inv.next (h : Inv s) (c : Choice) (hnext : next s c = some t) : Inv t := by
  cases c with
  | request r =>
    obtain ⟨hidle, rfl⟩ := next_request hnext
    cases r with
    | init o => exact h.audioInitialize hidle o
    | _ => exact h.request hidle (RequestFrame.rpcHandler _ (by simp))
  | rpc => exact h.rpcStep hnext
  | play => exact h.playStep hnext
  | transfer =>
    obtain rfl := Option.some.inj hnext
    exact { h with }

theorem Inv.of_run {spuVolume : ℕ} {is : List Choice}
    (hrun : Schedule.run IopAudio.next (boot spuVolume) is = some s) : Inv s :=
  Schedule.run_invariant_of_step (fun _ c _ h hnext => h.next c hnext) (Inv.of_boot spuVolume) hrun

/-- In every reachable state, the mutex free or not, the indexes agree and the frames
rendered since the last flush followed by the ring's content are the frames stored since. -/
theorem queue_exact {spuVolume : ℕ} {is : List Choice}
    (hrun : Schedule.run next (boot spuVolume) is = some s) :
    s.ring.readFrame < ringFrames ∧ s.ring.writeFrame < ringFrames ∧
      s.ring.queuedFrames ≤ ringFrames ∧
      s.ring.writeFrame = (s.ring.readFrame + s.ring.queuedFrames) % ringFrames ∧
      s.ring.rendered ++ s.ring.contents = s.ring.stored :=
  have h := (Inv.of_run hrun).wellFormed
  ⟨h.read_lt, h.write_lt, h.queued_le, h.write_eq, h.fifo⟩

/-- INIT, a submit of three frames, START, and one block rendered. -/
def blockRun : List Choice :=
  (Choice.request (.init ⟨true, true, true, 0, 1, 0⟩) :: List.replicate 2 .rpc) ++
    (Choice.request (.submit 16 ⟨3, fun i => ⟨.ofNat i, 7⟩⟩) :: List.replicate 9 .rpc) ++
    (Choice.request (.start 0) :: .rpc :: .transfer :: List.replicate 517 .play)

theorem queue_exact_blockRun : ∃ s, Schedule.run next (boot 0) blockRun = some s ∧
    s.ring.rendered = [⟨0, 7⟩, ⟨1, 7⟩, ⟨2, 7⟩] ∧ s.ring.readFrame < ringFrames ∧
    s.ring.rendered ++ s.ring.contents = s.ring.stored := by
  have hrendered : (Schedule.run next (boot 0) blockRun).map (fun s => s.ring.rendered) =
      some [⟨0, 7⟩, ⟨1, 7⟩, ⟨2, 7⟩] := by decide +kernel
  obtain ⟨s, hs, hr⟩ := Option.map_eq_some_iff.1 hrendered
  obtain ⟨hread, -, -, -, hfifo⟩ := queue_exact hs
  exact ⟨s, hs, hr, hread, hfifo⟩

end EF2SDK.IopAudio
