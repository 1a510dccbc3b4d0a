import EF2SDK.IopPlaybackBlocks

/-!
# Steps of the playback

What each choice can do, as one inversion lemma for each : `next_request` with `requestCases`,
`next_rpc`, `next_dma`, `next_interrupt`, and `next_play` with `playCases` for the part of the
play thread that `IopAudio` models. A step of the system is a step of the audio service or
leaves the service alone (`next_service`), so what holds of every run of the service holds here.
-/

set_option autoImplicit false

namespace EF2SDK.IopPlayback

open IopAudio (Frame silence Request State PlayPc blockFrames)

/-! ## Steps of the play thread -/

/-- The thread has rendered a block and has not got to its copy. -/
def Rendered : PlayPc → Prop
  | .underrun _ | .unlock _ | .signalSpace => True
  | _ => False

/-- The play thread is between `fill_render_block` and its next wait. -/
def CopyPc.Busy : CopyPc → Prop
  | .none => False
  | _ => True

/-- The play thread holds a block that it has rendered and not copied. -/
def System.Holds (s : System) : Prop :=
  s.copy.Busy ∨ Rendered s.audio.play

section Service

variable {a b : State}

/-- What the play thread's step can do, by where it is. -/
inductive PlayCases (a b : State) : Prop
  | wait (hplay : a.play = .waitTransfer) (hnext : b.play = .lock) (hring : b.ring = a.ring)
      (hsema : a.transferSema.wait = some b.transferSema)
  | before (hplay : a.play ≠ .waitTransfer) (hrendered : ¬Rendered a.play)
      (hrender : ∀ take i, a.play = .render take i → i < blockFrames)
      (hnext : b.play ≠ .waitTransfer) (hnext' : ¬Rendered b.play) (hring : b.ring = a.ring)
      (hsema : b.transferSema = a.transferSema)
  | take (take i : ℕ) (hplay : a.play = .render take i) (hi : ¬i < blockFrames)
      (hnext : b.play = .underrun take) (hring : b.ring = a.ring.consume take a.render)
      (hrender : b.render = a.render) (hsema : b.transferSema = a.transferSema)
  | after (hplay : Rendered a.play) (hnext : Rendered b.play ∨ b.play = .waitTransfer)
      (hring : b.ring = a.ring) (hrender : b.render = a.render)
      (hsema : b.transferSema = a.transferSema)

theorem playCases (h : a.playStep = some b) : PlayCases a b := by
  cases hpc : a.play with
  | notStarted => simp [State.playStep, hpc] at h
  | waitTransfer =>
    simp only [State.playStep, hpc] at h
    obtain ⟨m, hm, rfl⟩ := Option.map_eq_some_iff.1 h
    exact .wait hpc rfl rfl hm
  | lock =>
    simp only [State.playStep, hpc] at h
    obtain ⟨m, hm, rfl⟩ := Option.map_eq_some_iff.1 h
    exact .before (by simp [hpc]) (by simp [hpc, Rendered]) (by simp [hpc]) (by simp) id rfl rfl
  | computeTake =>
    simp only [State.playStep, hpc] at h
    obtain rfl := Option.some.inj h
    exact .before (by simp [hpc]) (by simp [hpc, Rendered]) (by simp [hpc]) (by simp) id rfl rfl
  | render take i =>
    simp only [State.playStep, hpc] at h
    split at h
    case isTrue hlt =>
      obtain rfl := Option.some.inj h
      refine .before (by simp [hpc]) (by simp [hpc, Rendered]) ?_ (by simp) id rfl rfl
      intro take' i' heq
      rw [hpc] at heq
      obtain ⟨-, rfl⟩ := PlayPc.render.inj heq
      exact hlt
    case isFalse hge =>
      obtain rfl := Option.some.inj h
      exact .take take i hpc hge rfl rfl rfl rfl
  | underrun take =>
    simp only [State.playStep, hpc] at h
    obtain rfl := Option.some.inj h
    exact .after (by simp [hpc, Rendered]) (.inl trivial) rfl rfl rfl
  | unlock take =>
    simp only [State.playStep, hpc] at h
    obtain rfl := Option.some.inj h
    refine .after (by simp [hpc, Rendered]) ?_ rfl rfl rfl
    by_cases htake : take ≠ 0
    · exact .inl (by simp [htake, Rendered])
    · exact .inr (by simp [htake])
  | signalSpace =>
    simp only [State.playStep, hpc] at h
    obtain rfl := Option.some.inj h
    exact .after (by simp [hpc, Rendered]) (.inr rfl) rfl rfl rfl

end Service

/-! ## What a step can do -/

variable {s t : System}

theorem next_request {r : Request} {k : IntrAnswers} (h : next s (.request r k) = some t) :
    s.audio.rpc = .idle ∧ s.Schedules ∧ t = s.rpcHandler k r := by
  simp only [next] at h
  split at h
  case h_1 hidle =>
    obtain ⟨hs, ht⟩ := Option.ite_none_right_eq_some.1 h
    exact ⟨hidle, hs, (Option.some.inj ht).symm⟩
  case h_2 => cases h

theorem next_rpc (h : next s .rpc = some t) :
    s.Schedules ∧ ∃ a, s.audio.rpcStep = some a ∧ t = { s with audio := a } := by
  obtain ⟨hs, ht⟩ := Option.ite_none_right_eq_some.1 h
  obtain ⟨a, ha, rfl⟩ := Option.map_eq_some_iff.1 ht
  exact ⟨hs, a, ha, rfl⟩

theorem next_interrupt (h : next s .interrupt = some t) :
    s.interruptsOn ∧ s.spu2.interrupt ∧ t = s.handleInterrupt := by
  obtain ⟨⟨hon, hpending⟩, ht⟩ := Option.ite_none_right_eq_some.1 h
  exact ⟨hon, hpending, (Option.some.inj ht).symm⟩

/-- The DMA channel reads a unit, or has read its block. -/
theorem next_dma (h : next s .dma = some t) :
    s.spu2.dmaStart ∧
      (s.spu2.dmaUnits < s.spu2.dmaSize ∧
          t = { s with spu2 := { s.spu2 with
            current := s.spu2.current ++
              readSamples s.memory (s.spu2.dmaAddr + 64 * s.spu2.dmaUnits) unitSamples
            dmaUnits := s.spu2.dmaUnits + 1 } } ∨
        ¬s.spu2.dmaUnits < s.spu2.dmaSize ∧
          t = { s with spu2 := { s.spu2 with
            dmaStart := false
            interrupt := true
            finished := s.spu2.finished ++ [s.spu2.current]
            current := [] } }) := by
  obtain ⟨u, hu, rfl⟩ := Option.map_eq_some_iff.1 h
  rw [Spu2.dmaStep] at hu
  split at hu
  case isTrue => cases hu
  case isFalse hstart =>
    refine ⟨by simpa using hstart, ?_⟩
    split at hu
    case isTrue hlt => exact .inl ⟨hlt, by rw [← Option.some.inj hu]⟩
    case isFalse hge => exact .inr ⟨hge, by rw [← Option.some.inj hu]⟩

/-- A step of the play thread, in `fill_render_block` or in the copy. -/
inductive PlayStep (s t : System) : Prop
  | thread (a : State) (hcopy : s.copy = .none) (ha : s.audio.playStep = some a)
      (ht : t = { s with
        audio := a
        copy := match a.play with
          | .waitTransfer => .suspend
          | _ => .none
        renders := s.renders ++ s.rendered })
  | suspend (hcopy : s.copy = .suspend) (ht : t = { s with copy := .copy (1 - s.spu2.active) 0 })
  | turn (b i : ℕ) (hcopy : s.copy = .copy b i) (hi : i < 256)
      (ht : t = { s with
        memory := s.copyFrames (s.blockAddress b) i
        copy := .copy b (i + 1) })
  | copied (b i : ℕ) (hcopy : s.copy = .copy b i) (hi : ¬i < 256)
      (ht : t = { s with copy := .none })

theorem next_play (h : next s .play = some t) : PlayStep s t := by
  obtain ⟨-, ht⟩ := Option.ite_none_right_eq_some.1 h
  rw [System.playStep] at ht
  split at ht
  case h_1 hcopy =>
    obtain ⟨a, ha, rfl⟩ := Option.map_eq_some_iff.1 ht
    exact .thread a hcopy ha rfl
  case h_2 hcopy => exact .suspend hcopy (Option.some.inj ht).symm
  case h_3 b i hcopy =>
    split at ht
    case isTrue hi => exact .turn b i hcopy hi (Option.some.inj ht).symm
    case isFalse hi => exact .copied b i hcopy hi (Option.some.inj ht).symm

/-- A step of `fill_render_block` or of the wait before it, in the terms of the system. -/
inductive ThreadCases (s t : System) : Prop
  | wait (hplay : s.audio.play = .waitTransfer) (hnext : t.audio.play = .lock)
      (hcopy : t.copy = .none) (hrenders : t.renders = s.renders)
      (hring : t.audio.ring = s.audio.ring)
      (hsema : s.audio.transferSema.wait = some t.audio.transferSema)
  | before (hplay : s.audio.play ≠ .waitTransfer) (hs : ¬s.Holds) (ht : ¬t.Holds)
      (hnext : t.audio.play ≠ .waitTransfer) (hcopy : t.copy = .none)
      (hrenders : t.renders = s.renders) (hring : t.audio.ring = s.audio.ring)
      (hsema : t.audio.transferSema = s.audio.transferSema)
  | take (take i : ℕ) (hplay : s.audio.play = .render take i) (hi : ¬i < blockFrames)
      (hs : ¬s.Holds) (ht : t.Holds) (hcopy : t.copy = .none)
      (hrenders : t.renders = s.renders ++ [⟨take, s.renderFrames⟩])
      (hrender : t.renderFrames = s.renderFrames)
      (hring : t.audio.ring = s.audio.ring.consume take s.audio.render)
      (hsema : t.audio.transferSema = s.audio.transferSema)
  | after (hplay : s.audio.play ≠ .waitTransfer) (hs : s.Holds) (ht : t.Holds)
      (hwaits : t.copy.Busy → t.audio.play = .waitTransfer) (hrenders : t.renders = s.renders)
      (hrender : t.renderFrames = s.renderFrames) (hring : t.audio.ring = s.audio.ring)
      (hsema : t.audio.transferSema = s.audio.transferSema)

theorem threadCases {a : State} (hcopy : s.copy = .none) (ha : s.audio.playStep = some a)
    (ht : t = { s with
      audio := a
      copy := match a.play with
        | .waitTransfer => .suspend
        | _ => .none
      renders := s.renders ++ s.rendered }) : ThreadCases s t := by
  have hholds : s.Holds ↔ Rendered s.audio.play := by
    rw [System.Holds, hcopy]
    exact or_iff_right id
  have hcopyNone (hne : a.play ≠ .waitTransfer) : t.copy = .none := by
    rw [ht]
    cases hpc : a.play <;> first | exact absurd hpc hne | rfl
  have hbusy (hb : t.copy.Busy) : a.play = .waitTransfer := by
    by_contra hne
    rw [hcopyNone hne] at hb
    exact hb
  have hrenders (h : ∀ take i, s.audio.play = .render take i → i < blockFrames) :
      t.renders = s.renders := by
    rw [ht]
    simp only [System.rendered]
    split
    case h_1 take i hpc => rw [if_pos (h take i hpc), List.append_nil]
    case h_2 => exact List.append_nil _
  have hplay : t.audio = a := by rw [ht]
  have hsame (h : a.render = s.audio.render) : t.renderFrames = s.renderFrames := by
    rw [System.renderFrames, System.renderFrames, hplay, h]
  rcases playCases ha with ⟨hpc, hnext, hring, hsema⟩ |
      ⟨hpc, hrendered, hrender, hnext, hnext', hring, hsema⟩ |
      ⟨take, i, hpc, hi, hnext, hring, hrender, hsema⟩ | ⟨hpc, hnext, hring, hrender, hsema⟩
  · refine .wait hpc (hplay ▸ hnext) (hcopyNone (by simp [hnext])) (hrenders ?_) (hplay ▸ hring)
      (hplay ▸ hsema)
    intro take i heq
    rw [hpc] at heq
    cases heq
  · refine .before hpc (fun h => hrendered (hholds.1 h)) ?_ (hplay ▸ hnext) (hcopyNone hnext)
      (hrenders hrender) (hplay ▸ hring) (hplay ▸ hsema)
    rintro (hb | hb)
    · exact hnext (hbusy hb)
    · exact hnext' (hplay ▸ hb)
  · refine .take take i hpc hi ?_ (.inr ?_) (hcopyNone (by simp [hnext])) ?_ (hsame hrender)
      (hplay ▸ hring) (hplay ▸ hsema)
    · rw [hholds, hpc]
      exact id
    · rw [hplay, hnext]
      trivial
    · rw [ht]
      simp only [System.rendered, hpc, if_neg hi]
      rfl
  · refine .after (fun heq => by simp [heq, Rendered] at hpc) (hholds.2 hpc) ?_
      (fun hb => hplay ▸ hbusy hb) (hrenders fun take i heq => by simp [heq, Rendered] at hpc)
      (hsame hrender) (hplay ▸ hring) (hplay ▸ hsema)
    rcases hnext with hnext | hnext
    · exact .inr (hplay ▸ hnext)
    · refine .inl ?_
      rw [ht, hnext]
      trivial

/-! ## Requests -/

/-- INIT leaves the settings of the playback alone, and starts the play thread at its wait. -/
theorem audioInitialize_kept (a : State) (o : IopAudio.InitOutcome) :
    (a.audioInitialize o).started = a.started ∧
      (a.audioInitialize o).initialized = a.initialized ∧
      (a.audioInitialize o).ring.rendered = a.ring.rendered ∧
      ((a.audioInitialize o).play = a.play ∨ (a.audioInitialize o).play = .waitTransfer) ∧
      (a.initialized → a.audioInitialize o = a.answer 0) := by
  simp only [State.audioInitialize]
  split_ifs with hinit
  · exact ⟨rfl, rfl, rfl, .inl rfl, fun _ => rfl⟩
  · exact ⟨rfl, rfl, rfl, .inl rfl, fun h => absurd h hinit⟩
  · exact ⟨rfl, rfl, rfl, .inl rfl, fun h => absurd h hinit⟩
  · exact ⟨rfl, rfl, rfl, .inl rfl, fun h => absurd h hinit⟩
  · exact ⟨rfl, rfl, rfl, .inl rfl, fun h => absurd h hinit⟩
  · exact ⟨rfl, rfl, rfl, .inr rfl, fun h => absurd h hinit⟩

/-- What a request may change of what the playback works with. -/
inductive RequestCases (s t : System) (r : Request) : Prop
  | kept (hspu2 : t.spu2 = s.spu2) (hmemory : t.memory = s.memory) (hmark : t.mark = s.mark)
      (hplay : t.audio.play = s.audio.play) (hrender : t.audio.render = s.audio.render)
      (hsema : t.audio.transferSema = s.audio.transferSema)
      (hstarted : t.audio.started = s.audio.started)
  /-- INIT before the service is initialized. -/
  | init (hinit : s.audio.initialized = false) (hrunning : t.spu2.running = true → s.spu2.running)
      (hdma : t.spu2.dmaStart = s.spu2.dmaStart)
      (hfinished : t.spu2.finished = s.spu2.finished) (hcurrent : t.spu2.current = s.spu2.current)
      (hmark : t.mark = s.mark)
      (hplay : t.audio.play = s.audio.play ∨ t.audio.play = .waitTransfer)
      (hstarted : t.audio.started = s.audio.started)
  /-- START that the driver refuses. -/
  | refused (hstarted : s.audio.started = false) (hstarted' : t.audio.started = false)
      (hspu2 : t.spu2 = s.spu2) (hmark : t.mark = s.mark)
      (hplay : t.audio.play = s.audio.play) (hrender : t.audio.render = s.audio.render)
  | start (hr : ∃ result, r = .start result) (hinit : s.audio.initialized)
      (hstarted : s.audio.started = false)
      (hstarted' : t.audio.started = true) (hmemory : t.memory = s.clearSpuBuffer)
      (hspu2 : t.spu2 = ({ s.spu2 with
        bufferAddress := s.spuBuffer
        blockBytes := spuBufferBytes / 2
        activeBlock := 0
        dmaStart := false
        running := true
        finished := [] } : Spu2).startDmaBlock 0)
      (hmark : t.mark = s.renders.length)
      (hplay : t.audio.play = s.audio.play) (hrender : t.audio.render = s.audio.render)
      (hsema : t.audio.transferSema = s.audio.transferSema)
  /-- STOP. -/
  | stop (hstarted' : t.audio.started = false) (hrunning : t.spu2.running = false)
      (hdma : t.spu2.dmaStart = false)
      (hfinished : t.spu2.finished = s.spu2.finished) (hcurrent : t.spu2.current = s.spu2.current)
      (hmark : t.mark = s.mark)
      (hplay : t.audio.play = s.audio.play) (hrender : t.audio.render = s.audio.render)

/-- What every request leaves alone, and what the service's part of it is. -/
structure RequestFrame (s t : System) : Prop where
  spuBuffer : t.spuBuffer = s.spuBuffer
  copy : t.copy = s.copy
  renders : t.renders = s.renders
  interrupt : t.spu2.interrupt = s.spu2.interrupt
  initialized : t.audio.initialized = s.audio.initialized
  rendered : t.audio.ring.rendered = s.audio.ring.rendered
  service : ∃ r, t.audio = s.audio.rpcHandler r

theorem spu2_init_frame (u : Spu2) (k : IntrAnswers) :
    (u.init k).1.interrupt = u.interrupt ∧ (u.init k).1.finished = u.finished ∧
      (u.init k).1.current = u.current ∧ (u.init k).1.dmaStart = u.dmaStart ∧
      ((u.init k).1.running = true → u.running) := by
  rw [Spu2.init]
  split_ifs
  · exact ⟨rfl, rfl, rfl, rfl, id⟩
  · exact ⟨rfl, rfl, rfl, rfl, id⟩
  · exact ⟨rfl, rfl, rfl, rfl, id⟩
  · exact ⟨rfl, rfl, rfl, rfl, fun h => by cases h⟩

theorem service_frame (a : State) (r : Request) :
    (a.rpcHandler r).initialized = a.initialized ∧
      (a.rpcHandler r).ring.rendered = a.ring.rendered := by
  have hother (r : Request) (hr : ∀ o, r ≠ .init o) :
      (a.rpcHandler r).initialized = a.initialized ∧
        (a.rpcHandler r).ring.rendered = a.ring.rendered :=
    have hframe := IopAudio.RequestFrame.rpcHandler (s := a) r hr
    ⟨hframe.initialized, congrArg _ hframe.ring⟩
  cases r with
  | init o =>
    obtain ⟨-, hinit, hrendered, -, -⟩ := audioInitialize_kept a o
    exact ⟨hinit, hrendered⟩
  | _ => exact hother _ (by simp)

theorem rpcHandler_plain {r : Request} (s : System) (k : IntrAnswers) (hr : Plain r) :
    s.rpcHandler k r = { s with audio := s.audio.rpcHandler r } := by
  cases r with
  | init | start | stop => exact hr.elim
  | _ => rfl

theorem requestFrame (s : System) (k : IntrAnswers) (r : Request) :
    RequestFrame s (s.rpcHandler k r) := by
  have hservice (r') {c : System} (hc : c.audio = s.audio.rpcHandler r')
      (hbuffer : c.spuBuffer = s.spuBuffer) (hcopy : c.copy = s.copy)
      (hrenders : c.renders = s.renders) (hinterrupt : c.spu2.interrupt = s.spu2.interrupt) :
      RequestFrame s c := by
    obtain ⟨hinit, hrendered⟩ := service_frame s.audio r'
    exact ⟨hbuffer, hcopy, hrenders, hinterrupt, hc ▸ hinit, hc ▸ hrendered, r', hc⟩
  by_cases hplain : Plain r
  · rw [rpcHandler_plain s k hplain]
    exact hservice r rfl rfl rfl rfl rfl
  cases r with
  | init o =>
    obtain ⟨hinterrupt, -⟩ := spu2_init_frame s.spu2 k
    simp only [System.rpcHandler]
    split
    · exact hservice (.init { o with spu2 := (s.spu2.init k).2 }) rfl rfl rfl rfl hinterrupt
    · exact hservice (.init o) rfl rfl rfl rfl rfl
  | start result =>
    have hinterrupt : (s.spu2.startLoop s.spuBuffer spuBufferBytes).1.interrupt =
        s.spu2.interrupt := by
      rw [Spu2.startLoop]
      split_ifs <;> rfl
    simp only [System.rpcHandler]
    split
    · exact hservice (.start (s.spu2.startLoop s.spuBuffer spuBufferBytes).2) rfl rfl rfl rfl
        hinterrupt
    · exact hservice (.start result) rfl rfl rfl rfl rfl
  | stop result =>
    have hinterrupt : s.spu2.stop.1.interrupt = s.spu2.interrupt := by
      rw [Spu2.stop]
      split_ifs <;> rfl
    simp only [System.rpcHandler]
    split
    · exact hservice (.stop s.spu2.stop.2) rfl rfl rfl rfl hinterrupt
    · exact hservice (.stop result) rfl rfl rfl rfl rfl
  | _ => exact absurd trivial hplain

theorem requestCases (s : System) (k : IntrAnswers) (r : Request) :
    RequestCases s (s.rpcHandler k r) r := by
  by_cases hplain : Plain r
  · obtain ⟨hplay, hrender, hsema, hstarted⟩ := rpcHandler_kept (a := s.audio) hplain
    rw [rpcHandler_plain s k hplain]
    exact .kept rfl rfl rfl hplay hrender hsema hstarted
  · cases r with
    | init o =>
      obtain ⟨-, hfinished, hcurrent, hdma, hrunning⟩ := spu2_init_frame s.spu2 k
      by_cases hinit : s.audio.initialized
      · have hkept := (audioInitialize_kept s.audio o).2.2.2.2 hinit
        have heq : s.rpcHandler k (.init o) = { s with audio := s.audio.answer 0 } := by
          simp only [System.rpcHandler, hinit, not_true_eq_false, false_and, if_false]
          rw [State.rpcHandler, hkept]
        rw [heq]
        exact .kept rfl rfl rfl rfl rfl rfl rfl
      · have hfalse : s.audio.initialized = false := by simpa using hinit
        simp only [System.rpcHandler]
        split
        · obtain ⟨hstarted, -, -, hplay, -⟩ :=
            audioInitialize_kept s.audio { o with spu2 := (s.spu2.init k).2 }
          exact .init hfalse hrunning hdma hfinished hcurrent rfl hplay hstarted
        · obtain ⟨hstarted, -, -, hplay, -⟩ := audioInitialize_kept s.audio o
          exact .init hfalse id rfl rfl rfl rfl hplay hstarted
    | start result =>
      simp only [System.rpcHandler]
      split
      case isTrue hready =>
        obtain ⟨hinit, hstarted⟩ := hready
        have hstarted' : s.audio.started = false := by simpa using hstarted
        simp only [Spu2.startLoop]
        split
        · refine .refused hstarted' ?_ rfl rfl ?_ ?_ <;>
            simp [State.rpcHandler, State.audioStart, hinit, hstarted', State.updateVolume,
              State.answer]
        · rw [if_neg (by decide)]
          refine .start ⟨result, rfl⟩ hinit hstarted' ?_ rfl rfl rfl ?_ ?_ ?_ <;>
            simp [State.rpcHandler, State.audioStart, hinit, hstarted', State.updateVolume,
              State.answer]
      case isFalse hready =>
        have hsame : s.audio.rpcHandler (.start result) = s.audio.answer 0 ∨
            s.audio.rpcHandler (.start result) = s.audio.answer (-1) := by
          by_cases hinit : s.audio.initialized = true
          · have hstarted : s.audio.started = true := by
              by_contra hstarted
              exact hready ⟨hinit, hstarted⟩
            exact .inl (by simp [State.rpcHandler, State.audioStart, hinit, hstarted])
          · exact .inr (by simp [State.rpcHandler, State.audioStart, hinit])
        rcases hsame with heq | heq <;> rw [heq] <;> exact .kept rfl rfl rfl rfl rfl rfl rfl
    | stop result =>
      simp only [System.rpcHandler]
      split
      case isTrue hready =>
        obtain ⟨hinit, hstarted⟩ := hready
        simp only [Spu2.stop]
        split
        · have heq : s.audio.rpcHandler (.stop (-1)) = s.audio.answer (-2) := by
            simp [State.rpcHandler, State.audioStop, hinit, hstarted]
          rw [heq]
          exact .kept rfl rfl rfl rfl rfl rfl rfl
        · refine .stop ?_ rfl rfl rfl rfl rfl ?_ ?_ <;>
            simp [State.rpcHandler, State.audioStop, hinit, hstarted, State.updateVolume,
              State.answer]
      case isFalse hready =>
        have hkept : (s.audio.audioStop result).play = s.audio.play ∧
            (s.audio.audioStop result).render = s.audio.render ∧
            (s.audio.audioStop result).transferSema = s.audio.transferSema ∧
            (s.audio.audioStop result).started = s.audio.started := by
          by_cases hinit : s.audio.initialized = true
          · have hstarted : s.audio.started = false := by
              by_contra hstarted
              exact hready ⟨hinit, by simpa using hstarted⟩
            simp [State.audioStop, hinit, hstarted, State.updateVolume, State.answer]
          · simp [State.audioStop, hinit, State.answer]
        obtain ⟨hplay, hrender, hsema, hstarted⟩ := hkept
        exact .kept rfl rfl rfl hplay hrender hsema hstarted
    | _ => exact absurd trivial hplain

/-! ## The service -/

/-- A step of the system is a step of the audio service, or leaves the service alone. -/
theorem next_service {c : Choice} (h : next s c = some t) :
    t.audio = s.audio ∨ ∃ c', IopAudio.next s.audio c' = some t.audio := by
  cases c with
  | request r k =>
    obtain ⟨hidle, -, rfl⟩ := next_request h
    obtain ⟨r', hr'⟩ := (requestFrame s k r).service
    refine .inr ⟨.request r', ?_⟩
    rw [IopAudio.next, hidle, hr']
  | rpc =>
    obtain ⟨-, a, ha, rfl⟩ := next_rpc h
    exact .inr ⟨.rpc, ha⟩
  | play =>
    rcases next_play h with ⟨a, -, ha, rfl⟩ | ⟨-, rfl⟩ | ⟨b, i, -, -, rfl⟩ | ⟨b, i, -, -, rfl⟩
    · exact .inr ⟨.play, ha⟩
    · exact .inl rfl
    · exact .inl rfl
    · exact .inl rfl
  | dma =>
    obtain ⟨-, ⟨-, rfl⟩ | ⟨-, rfl⟩⟩ := next_dma h <;> exact .inl rfl
  | interrupt =>
    obtain ⟨-, -, rfl⟩ := next_interrupt h
    by_cases hrunning : s.spu2.running
    · exact .inr ⟨.transfer, by simp [IopAudio.next, System.handleInterrupt, Spu2.dmaInterrupt,
        hrunning]⟩
    · exact .inl (by simp [System.handleInterrupt, Spu2.dmaInterrupt, hrunning])

end EF2SDK.IopPlayback
