import EF2SDK.IopPlaybackSteps

/-!
# The invariant of the playback

`Inv` holds in every reachable state, whether the loop runs or not : the driver runs exactly while
the service is started, an idle channel has no interrupt pending, a block that waits for its copy
was rendered, and the render blocks say what the queue gave. A rendered block is what it took from
the queue and then silence (`Render.WellFormed`), and what the last ones took is what the queue
gave since the last flush.
-/

set_option autoImplicit false

namespace EF2SDK.IopPlayback

open IopAudio (Frame silence Request State PlayPc blockFrames)

/-! ## The invariant -/

/-- A block of the render's frames, then silence. -/
structure Render.WellFormed (r : Render) : Prop where
  length_frames : r.frames.length = blockFrames
  take_le : r.take ≤ blockFrames
  silent : r.frames = r.taken ++ List.replicate (blockFrames - r.take) silence

/-- What holds in every reachable state, whether the loop runs or not. -/
structure Inv (s : System) : Prop where
  audio : IopAudio.Inv s.audio
  fits : s.spuBuffer + spuBufferBytes ≤ 2 ^ 32
  running : s.spu2.running = s.audio.started
  stopped : s.spu2.running = false → s.spu2.dmaStart = false ∧ s.spu2.interrupt = false
  initialized : s.audio.started → s.audio.initialized
  waiting : s.copy.Busy → s.audio.play = .waitTransfer
  held : s.Holds → ∃ r ∈ s.renders, r.frames = s.renderFrames
  rendered : ∀ r ∈ s.renders, r.WellFormed
  fifo : ∃ k ≤ s.renders.length,
    s.audio.ring.rendered = (s.renders.drop k).flatMap Render.taken
  mark_le : s.mark ≤ s.renders.length

variable {s t : System}

theorem Inv.of_boot {spuBuffer : ℕ} (hfits : spuBuffer + spuBufferBytes ≤ 2 ^ 32)
    (spuVolume : ℕ) : Inv (boot spuBuffer spuVolume) where
  audio := IopAudio.Inv.of_boot spuVolume
  fits := hfits
  running := rfl
  stopped _ := ⟨rfl, rfl⟩
  initialized h := by cases h
  waiting := False.elim
  held h := (h.elim id id).elim
  rendered r hr := by cases hr
  fifo := ⟨0, Nat.le_refl 0, rfl⟩
  mark_le := Nat.le_refl 0

theorem Inv.service (h : Inv s) {c : Choice} (hnext : next s c = some t) :
    IopAudio.Inv t.audio := by
  rcases next_service hnext with heq | ⟨c', hc'⟩
  · rw [heq]
    exact h.audio
  · exact h.audio.next c' hc'

/-! ## The invariant is kept -/

/-- The play thread is idle when a request finds the service not initialized. -/
theorem Inv.notStarted (h : Inv s) (hidle : s.audio.rpc = .idle)
    (hinit : s.audio.initialized = false) : s.audio.play = .notStarted := by
  by_contra hrun
  rcases h.audio.running hrun with hi | hpc
  · rw [hinit] at hi
    cases hi
  · simp [hidle] at hpc

/-- Nothing plays before the play thread exists. -/
theorem Inv.uninitialized (h : Inv s) (hidle : s.audio.rpc = .idle)
    (hinit : s.audio.initialized = false) :
    s.audio.play = .notStarted ∧ s.audio.started = false ∧ ¬s.copy.Busy := by
  have hns := h.notStarted hidle hinit
  refine ⟨hns, ?_, fun hb => ?_⟩
  · by_contra hne
    rw [h.initialized (by simpa using hne)] at hinit
    cases hinit
  · have hwait := h.waiting hb
    rw [hns] at hwait
    cases hwait

theorem holds_congr (hcopy : t.copy = s.copy) (hplay : t.audio.play = s.audio.play) :
    t.Holds ↔ s.Holds := by
  rw [System.Holds, System.Holds, hcopy, hplay]

theorem renderFrames_congr (hrender : t.audio.render = s.audio.render) :
    t.renderFrames = s.renderFrames := by
  rw [System.renderFrames, System.renderFrames, hrender]

/-- A request that leaves the play thread alone. -/
theorem Inv.of_kept (h : Inv s) (hservice : IopAudio.Inv t.audio) (hf : RequestFrame s t)
    (hplay : t.audio.play = s.audio.play) (hrender : t.audio.render = s.audio.render)
    (hrunning : t.spu2.running = t.audio.started)
    (hstopped : t.spu2.running = false → t.spu2.dmaStart = false ∧ t.spu2.interrupt = false)
    (hinit : t.audio.started → t.audio.initialized) (hmark : t.mark ≤ s.renders.length) :
    Inv t where
  audio := hservice
  fits := hf.spuBuffer ▸ h.fits
  running := hrunning
  stopped := hstopped
  initialized := hinit
  waiting hb := by
    rw [hf.copy] at hb
    rw [hplay, h.waiting hb]
  held hh := by
    rw [hf.renders, renderFrames_congr hrender]
    exact h.held ((holds_congr hf.copy hplay).1 hh)
  rendered := hf.renders ▸ h.rendered
  fifo := by
    rw [hf.renders, hf.rendered]
    exact h.fifo
  mark_le := hf.renders ▸ hmark

theorem Inv.request (h : Inv s) {r : Request} {k : IntrAnswers}
    (hnext : next s (.request r k) = some t) : Inv t := by
  have hservice := h.service hnext
  obtain ⟨hidle, ⟨-, hpending⟩, rfl⟩ := next_request hnext
  have hf := requestFrame s k r
  have hinterrupt : (s.rpcHandler k r).spu2.interrupt = false := by
    rw [hf.interrupt]
    simpa using hpending
  rcases requestCases s k r with
    ⟨hspu2, -, hmark, hplay, hrender, -, hstarted⟩ |
    ⟨hinit, hrunning, hdma, -, -, hmark, hplay, hstarted⟩ |
    ⟨hs, hs', hspu2, hmark, hplay, hrender⟩ |
    ⟨-, hinit, -, hs', -, hspu2, hmark, hplay, hrender, -⟩ |
    ⟨hs', hrunning, hdma, -, -, hmark, hplay, hrender⟩
  · refine h.of_kept hservice hf hplay hrender ?_ ?_ ?_ (hmark ▸ h.mark_le)
    · rw [hspu2, hstarted, h.running]
    · rw [hspu2]
      exact h.stopped
    · rw [hstarted, hf.initialized]
      exact h.initialized
  · obtain ⟨hns, hstopped, hcopy⟩ := h.uninitialized hidle hinit
    have hrendered : ¬Rendered (s.rpcHandler k r).audio.play := by
      rcases hplay with hp | hp <;> rw [hp]
      · rw [hns]
        exact id
      · exact id
    have hrun : s.spu2.running = false := h.running.trans hstopped
    refine ⟨hservice, hf.spuBuffer ▸ h.fits, ?_, ?_, ?_, ?_, ?_, hf.renders ▸ h.rendered, ?_, ?_⟩
    · rw [hstarted, hstopped]
      by_contra hne
      have hrun' := hrunning (by simpa using hne)
      rw [hrun] at hrun'
      cases hrun'
    · exact fun _ => ⟨hdma.trans (h.stopped hrun).1, hinterrupt⟩
    · rw [hstarted, hstopped]
      nofun
    · exact fun hb => absurd (hf.copy ▸ hb) hcopy
    · exact fun hh => (hh.elim (fun hb => hcopy (hf.copy ▸ hb)) hrendered).elim
    · rw [hf.renders, hf.rendered]
      exact h.fifo
    · rw [hf.renders, hmark]
      exact h.mark_le
  · refine h.of_kept hservice hf hplay hrender ?_ ?_ ?_ (hmark ▸ h.mark_le)
    · rw [hspu2, h.running, hs, hs']
    · rw [hspu2]
      exact h.stopped
    · rw [hs']
      nofun
  · refine h.of_kept hservice hf hplay hrender ?_ ?_ ?_ (Nat.le_of_eq hmark)
    · rw [hspu2, hs']
      rfl
    · rw [hspu2]
      nofun
    · rw [hf.initialized]
      exact fun _ => hinit
  · refine h.of_kept hservice hf hplay hrender ?_ ?_ ?_ (hmark ▸ h.mark_le)
    · rw [hrunning, hs']
    · exact fun _ => ⟨hdma, hinterrupt⟩
    · rw [hs']
      nofun

/-- The RPC thread takes nothing off the queue, but a flush forgets what was taken. -/
theorem rpcStep_rendered {a b : State} (h : a.rpcStep = some b) :
    b.ring.rendered = a.ring.rendered ∨ b.ring.rendered = [] := by
  cases hpc : a.rpc <;> simp only [State.rpcStep, hpc] at h
  case idle => cases h
  all_goals try split at h
  all_goals
    first
      | obtain ⟨m, hm, rfl⟩ := Option.map_eq_some_iff.1 h
      | obtain rfl := Option.some.inj h
    first
      | exact .inl rfl
      | exact .inr rfl

theorem Inv.rpc (h : Inv s) (hnext : next s .rpc = some t) : Inv t := by
  have hservice := h.service hnext
  obtain ⟨-, a, ha, rfl⟩ := next_rpc hnext
  obtain ⟨hplay, hrender, -, hstarted⟩ := rpcStep_kept ha
  refine ⟨hservice, h.fits, h.running.trans hstarted.symm, h.stopped, ?_, ?_, ?_, h.rendered, ?_,
    h.mark_le⟩
  · intro hs
    rcases (IopAudio.rpcFrame ha).initialized with ⟨-, heq⟩ | ⟨-, heq⟩
    · exact heq ▸ h.initialized (hstarted ▸ hs)
    · exact heq
  · exact fun hb => hplay.trans (h.waiting hb)
  · intro hh
    rw [renderFrames_congr (s := s) hrender]
    exact h.held ((holds_congr (s := s) (t := { s with audio := a }) rfl hplay).1 hh)
  · obtain ⟨k, hk, hrendered⟩ := h.fifo
    rcases rpcStep_rendered ha with heq | heq
    · exact ⟨k, hk, heq.trans hrendered⟩
    · exact ⟨s.renders.length, Nat.le_refl _, by simp [heq]⟩

theorem Inv.dma (h : Inv s) (hnext : next s .dma = some t) : Inv t := by
  have hservice := h.service hnext
  obtain ⟨hstart, hstep⟩ := next_dma hnext
  have hrunning : s.spu2.running ≠ false := by
    intro hstopped
    rw [(h.stopped hstopped).1] at hstart
    cases hstart
  obtain ⟨-, rfl⟩ | ⟨-, rfl⟩ := hstep <;>
    exact { h with stopped := fun hstopped => absurd hstopped hrunning }

/-- The interrupt only touches the semaphore of the service. -/
theorem handleInterrupt_audio (s : System) :
    s.handleInterrupt.audio =
      { s.audio with
        transferSema :=
          if s.spu2.running then s.audio.transferSema.signal else s.audio.transferSema } := by
  by_cases hrunning : s.spu2.running <;>
    simp [System.handleInterrupt, Spu2.dmaInterrupt, hrunning, State.transferComplete]

theorem handleInterrupt_running (s : System) :
    s.handleInterrupt.spu2.running = s.spu2.running := by
  by_cases hrunning : s.spu2.running <;>
    simp [System.handleInterrupt, Spu2.dmaInterrupt, hrunning, Spu2.startDmaBlock]

theorem Inv.interrupt (h : Inv s) (hnext : next s .interrupt = some t) : Inv t := by
  have hservice := h.service hnext
  obtain ⟨-, hpending, rfl⟩ := next_interrupt hnext
  have haudio := handleInterrupt_audio s
  refine ⟨hservice, h.fits, ?_, ?_, ?_, ?_, ?_, h.rendered, ?_, h.mark_le⟩
  · rw [handleInterrupt_running, haudio]
    exact h.running
  · rw [handleInterrupt_running]
    intro hstopped
    rw [(h.stopped hstopped).2] at hpending
    cases hpending
  · rw [haudio]
    exact h.initialized
  · rw [haudio]
    exact h.waiting
  · intro hh
    rw [renderFrames_congr (s := s) (by rw [haudio])]
    exact h.held ((holds_congr (s := s) (t := s.handleInterrupt) rfl (by rw [haudio])).1 hh)
  · rw [haudio]
    exact h.fifo

/-- The block that `fill_render_block` has made. -/
theorem wellFormed_take (h : Inv s) {take i : ℕ} (hplay : s.audio.play = .render take i)
    (hi : ¬i < blockFrames) : Render.WellFormed ⟨take, s.renderFrames⟩ ∧
      Render.taken ⟨take, s.renderFrames⟩ = (List.range take).map s.audio.render := by
  have hcopied := h.audio.playCopied
  rw [hplay] at hcopied
  obtain ⟨hle, htake, -, hcopied⟩ := hcopied
  obtain ⟨d, hd⟩ := Nat.exists_eq_add_of_le htake
  have htaken : Render.taken ⟨take, s.renderFrames⟩ = (List.range take).map s.audio.render := by
    rw [Render.taken, System.renderFrames, ← List.map_take, List.take_range, Nat.min_eq_left htake]
  refine ⟨⟨by simp [System.renderFrames], htake, ?_⟩, htaken⟩
  rw [htaken]
  simp only [System.renderFrames]
  rw [hd, List.range_add, List.map_append, List.map_map, Nat.add_sub_cancel_left]
  congr 1
  rw [List.eq_replicate_iff]
  refine ⟨by simp, fun x hx => ?_⟩
  obtain ⟨j, hj, rfl⟩ := List.mem_map.1 hx
  have hj := List.mem_range.1 hj
  exact (hcopied (take + j) (by omega)).trans (if_neg (by omega))

theorem Inv.thread (h : Inv s) (hservice : IopAudio.Inv t.audio) (hcases : ThreadCases s t)
    (hspu2 : t.spu2 = s.spu2) (hbuffer : t.spuBuffer = s.spuBuffer) (hmark : t.mark = s.mark)
    (hstarted : t.audio.started = s.audio.started)
    (hinit : t.audio.initialized = s.audio.initialized) : Inv t := by
  have hrunning : t.spu2.running = t.audio.started := by rw [hspu2, hstarted, h.running]
  have hinitialized : t.audio.started → t.audio.initialized := by
    rw [hstarted, hinit]
    exact h.initialized
  have hfits : t.spuBuffer + spuBufferBytes ≤ 2 ^ 32 := hbuffer ▸ h.fits
  have hstopped : t.spu2.running = false → t.spu2.dmaStart = false ∧ t.spu2.interrupt = false :=
    hspu2 ▸ h.stopped
  rcases hcases with ⟨hplay, hnext, hcopy, hrenders, hring, -⟩ |
      ⟨-, -, ht, -, hcopy, hrenders, hring, -⟩ |
      ⟨take, i, hplay, hi, -, ht, hcopy, hrenders, hrender, hring, -⟩ |
      ⟨-, hs, ht, hwaits, hrenders, hrender, hring, -⟩
  · refine ⟨hservice, hfits, hrunning, hstopped, hinitialized, ?_, ?_, ?_, ?_, ?_⟩
    · rw [hcopy]
      exact False.elim
    · rw [System.Holds, hcopy, hnext]
      exact fun hh => (hh.elim id id).elim
    · exact hrenders ▸ h.rendered
    · rw [hrenders, hring]
      exact h.fifo
    · rw [hrenders, hmark]
      exact h.mark_le
  · refine ⟨hservice, hfits, hrunning, hstopped, hinitialized, ?_, fun hh => absurd hh ht, ?_, ?_,
      ?_⟩
    · rw [hcopy]
      exact False.elim
    · exact hrenders ▸ h.rendered
    · rw [hrenders, hring]
      exact h.fifo
    · rw [hrenders, hmark]
      exact h.mark_le
  · obtain ⟨hwell, htaken⟩ := wellFormed_take h hplay hi
    refine ⟨hservice, hfits, hrunning, hstopped, hinitialized, ?_, fun _ => ?_, ?_, ?_, ?_⟩
    · rw [hcopy]
      exact False.elim
    · rw [hrenders, hrender]
      exact ⟨⟨take, s.renderFrames⟩, List.mem_concat_self, by dsimp only⟩
    · rw [hrenders]
      intro r hr
      rcases List.mem_append.1 hr with hr | hr
      · exact h.rendered r hr
      · rw [List.mem_singleton.1 hr]
        exact hwell
    · obtain ⟨k, hk, hrendered⟩ := h.fifo
      refine ⟨k, by rw [hrenders, List.length_append]; omega, ?_⟩
      rw [hrenders, hring, List.drop_append_of_le_length hk, List.flatMap_append, ← hrendered,
        List.flatMap_singleton, htaken, IopAudio.Ring.consume]
      split
      case isTrue => rfl
      case isFalse hzero =>
        obtain rfl : take = 0 := by omega
        simp
    · rw [hrenders, hmark, List.length_append]
      exact Nat.le_add_right_of_le h.mark_le
  · refine ⟨hservice, hfits, hrunning, hstopped, hinitialized, hwaits, fun _ => ?_, ?_, ?_, ?_⟩
    · rw [hrenders, hrender]
      exact h.held hs
    · exact hrenders ▸ h.rendered
    · rw [hrenders, hring]
      exact h.fifo
    · rw [hrenders, hmark]
      exact h.mark_le

theorem Inv.play (h : Inv s) (hnext : next s .play = some t) : Inv t := by
  have hservice := h.service hnext
  rcases next_play hnext with ⟨a, hcopy, ha, ht⟩ | ⟨hcopy, rfl⟩ | ⟨b, i, hcopy, -, rfl⟩ |
      ⟨b, i, hcopy, -, rfl⟩
  · have hframe := IopAudio.playFrame ha
    exact h.thread hservice (threadCases hcopy ha ht) (by rw [ht]) (by rw [ht]) (by rw [ht])
      (by rw [ht]; exact hframe.started) (by rw [ht]; exact hframe.initialized)
  · have hbusy : s.copy.Busy := by rw [hcopy]; trivial
    exact { h with
      waiting := fun _ => h.waiting hbusy
      held := fun _ => h.held (.inl hbusy) }
  · have hbusy : s.copy.Busy := by rw [hcopy]; trivial
    exact { h with
      waiting := fun _ => h.waiting hbusy
      held := fun _ => h.held (.inl hbusy) }
  · have hbusy : s.copy.Busy := by rw [hcopy]; trivial
    exact { h with
      waiting := False.elim
      held := fun _ => h.held (.inl hbusy) }

theorem Inv.next (h : Inv s) {c : Choice} (hnext : next s c = some t) : Inv t := by
  cases c with
  | request r k => exact h.request hnext
  | rpc => exact h.rpc hnext
  | play => exact h.play hnext
  | dma => exact h.dma hnext
  | interrupt => exact h.interrupt hnext

end EF2SDK.IopPlayback
