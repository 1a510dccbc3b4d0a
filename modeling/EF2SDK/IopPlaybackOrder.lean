import EF2SDK.IopPlaybackInv

/-!
# What the SPU2 plays

Whenever the interrupts and the threads come, the DMA channel reads a block as a whole : a block
of silence or one that `fill_render_block` made, never parts of two (`blocks_whole`). Where the
play thread keeps up with the channel, so that an interrupt finds it waiting for the next
transfer (`KeepsUp`), the channel reads two blocks of silence and then every rendered block in
order, each one once, and is at most one block behind (`playback_exact`).

Both follow the double buffer along a run. `evolves` says how a step moves it while the loop
runs, and `starts` how the loop starts.
-/

set_option autoImplicit false

namespace EF2SDK.IopPlayback

open IopAudio (Frame silence Request State PlayPc blockFrames)

variable {s t : System} {d d' : DoubleBuffer.State (List Int16)}

/-! ## The double buffer along a run -/

/-- A step that the double buffer and the render blocks do not notice. -/
structure Quiet (s t : System) : Prop where
  renders : t.renders = s.renders
  mark : t.mark = s.mark
  play : t.audio.play = s.audio.play
  render : t.audio.render = s.audio.render
  sema : t.audio.transferSema = s.audio.transferSema
  busy : t.copy.Busy ↔ s.copy.Busy

/-- How the double buffer moves with a step. -/
inductive Evolution (s : System) (c : Choice) (t : System)
    (d : DoubleBuffer.State (List Int16)) : DoubleBuffer.State (List Int16) → Prop
  | quiet (h : Quiet s t) : Evolution s c t d d
  | thread (h : ThreadCases s t) (hcopy : s.copy = .none) (hmark : t.mark = s.mark) :
      Evolution s c t d d
  | copied (h : s.copy.Busy) (hcopy : t.copy = .none) (haudio : t.audio = s.audio)
      (hrenders : t.renders = s.renders) (hmark : t.mark = s.mark) {x : List Int16}
      (hx : x = layout s.renderFrames) : Evolution s c t d (d.fill x)
  | interrupt (hc : c = .interrupt) (hcopy : t.copy = s.copy)
      (hplay : t.audio.play = s.audio.play)
      (hsema : t.audio.transferSema = s.audio.transferSema.signal)
      (hrenders : t.renders = s.renders) (hmark : t.mark = s.mark) : Evolution s c t d d.flip

/-- The loop has stopped, and what the channel has read is kept. -/
structure Stops (s t : System) : Prop where
  running : t.spu2.running = false
  finished : t.spu2.finished = s.spu2.finished
  current : t.spu2.current = s.spu2.current
  renders : t.renders = s.renders
  mark : t.mark = s.mark

theorem interruptsOn_congr (h : t.copy = s.copy) : t.interruptsOn = s.interruptsOn := by
  rw [System.interruptsOn, System.interruptsOn, h]

theorem evolves_request (h : Inv s) (hm : Matches s d) (hrunning : s.spu2.running) {r : Request}
    {k : IntrAnswers} (hnext : next s (.request r k) = some t) :
    Stops s t ∨ Matches t d ∧ Quiet s t := by
  obtain ⟨-, ⟨hon, -⟩, rfl⟩ := next_request hnext
  have hf := requestFrame s k r
  have hstarted : s.audio.started = true := h.running.symm.trans hrunning
  rcases requestCases s k r with
    ⟨hspu2, hmemory, hmark, hplay, hrender, hsema, -⟩ | ⟨hinit, -, -, -, -, -, -, -⟩ |
    ⟨hs, -, -, -, -, -⟩ | ⟨-, -, hs, -, -, -, -, -, -, -⟩ |
    ⟨-, hstop, -, hfinished, hcurrent, hmark, -, -⟩
  · have hon' : (s.rpcHandler k r).interruptsOn := (interruptsOn_congr hf.copy).trans hon
    exact .inr ⟨hm.frame hspu2 hmemory hf.spuBuffer hon hon',
      hf.renders, hmark, hplay, hrender, hsema, by rw [hf.copy]⟩
  · rw [h.initialized hstarted] at hinit
    cases hinit
  · rw [hstarted] at hs
    cases hs
  · rw [hstarted] at hs
    cases hs
  · exact .inl ⟨hstop, hfinished, hcurrent, hf.renders, hmark⟩

theorem evolves_play (hm : Matches s d) (hnext : next s .play = some t) :
    ∃ d', Matches t d' ∧ Evolution s .play t d d' := by
  rcases next_play hnext with ⟨a, hcopy, ha, ht⟩ | ⟨hcopy, rfl⟩ | ⟨b, i, hcopy, hi, rfl⟩ |
      ⟨b, i, hcopy, hi, rfl⟩
  · have hon : s.interruptsOn := by
      rw [System.interruptsOn, hcopy]
    have hon' : t.interruptsOn := by
      rw [System.interruptsOn, ht]
      cases a.play <;> rfl
    exact ⟨d, hm.frame (by rw [ht]) (by rw [ht]) (by rw [ht]) hon hon',
      .thread (threadCases hcopy ha ht) hcopy (by rw [ht])⟩
  · refine ⟨d, hm.suspend, .quiet ⟨rfl, rfl, rfl, rfl, rfl, ?_⟩⟩
    rw [hcopy]
    exact Iff.rfl
  · refine ⟨d, hm.turn hcopy hi rfl, .quiet ⟨rfl, rfl, rfl, rfl, rfl, ?_⟩⟩
    rw [hcopy]
    exact Iff.rfl
  · have hbusy : s.copy.Busy := by
      rw [hcopy]
      trivial
    refine ⟨_, hm.copied hcopy hi rfl, ?_⟩
    exact Evolution.copied (t := { s with copy := .none }) hbusy rfl rfl rfl rfl rfl

/-- A step of the running system stops the loop, or moves the double buffer. -/
theorem evolves (h : Inv s) (hm : Matches s d) (hrunning : s.spu2.running) {c : Choice}
    (hnext : next s c = some t) :
    Stops s t ∨ ∃ d', Matches t d' ∧ Evolution s c t d d' := by
  cases c with
  | request r k =>
    rcases evolves_request h hm hrunning hnext with hstop | ⟨hm', hquiet⟩
    · exact .inl hstop
    · exact .inr ⟨d, hm', .quiet hquiet⟩
  | rpc =>
    obtain ⟨⟨hon, -⟩, a, ha, rfl⟩ := next_rpc hnext
    obtain ⟨hplay, hrender, hsema, -⟩ := rpcStep_kept ha
    exact .inr ⟨d, hm.frame rfl rfl rfl hon hon, .quiet ⟨rfl, rfl, hplay, hrender, hsema, Iff.rfl⟩⟩
  | play => exact .inr (evolves_play hm hnext)
  | dma =>
    obtain ⟨hstart, ⟨hlt, rfl⟩ | ⟨hge, rfl⟩⟩ := next_dma hnext
    · exact .inr ⟨d, hm.unit hstart hlt, .quiet ⟨rfl, rfl, rfl, rfl, rfl, Iff.rfl⟩⟩
    · exact .inr ⟨d, hm.finish hstart hge, .quiet ⟨rfl, rfl, rfl, rfl, rfl, Iff.rfl⟩⟩
  | interrupt =>
    obtain ⟨hon, hpending, rfl⟩ := next_interrupt hnext
    have haudio := handleInterrupt_audio s
    rw [if_pos hrunning] at haudio
    exact .inr ⟨d.flip, hm.interrupt h.fits hon hpending hrunning,
      .interrupt rfl rfl (by rw [haudio]) (by rw [haudio]) rfl rfl⟩

/-- The loop does not run, and what the channel has read is kept. -/
structure Rests (s t : System) : Prop where
  running : t.spu2.running = false
  finished : t.spu2.finished = s.spu2.finished
  current : t.spu2.current = s.spu2.current
  mark : t.mark = s.mark
  renders : s.renders <+: t.renders

/-- The loop starts, with a buffer of silence. -/
structure Starts (s t : System) (c : Choice) : Prop where
  choice : ∃ result k, c = .request (.start result) k
  ready : s.audio.initialized ∧ s.audio.started = false
  matched : Matches t (DoubleBuffer.start (layout silentBlock))
  mark : t.mark = t.renders.length
  play : t.audio.play = s.audio.play
  sema : t.audio.transferSema = s.audio.transferSema
  copy : t.copy = s.copy
  render : t.audio.render = s.audio.render

theorem prefix_of_renders (h : t.renders = s.renders) : s.renders <+: t.renders :=
  h ▸ List.prefix_rfl

theorem ThreadCases.renders (h : ThreadCases s t) : s.renders <+: t.renders := by
  rcases h with ⟨-, -, -, hr, -⟩ | ⟨-, -, -, -, -, hr, -⟩ | ⟨take, i, -, -, -, -, -, hr, -⟩ |
      ⟨-, -, -, -, hr, -⟩
  · exact prefix_of_renders hr
  · exact prefix_of_renders hr
  · exact hr ▸ List.prefix_append _ _
  · exact prefix_of_renders hr

/-- A step of the stopped system leaves it stopped, or starts the loop. -/
theorem starts (h : Inv s) (hstopped : s.spu2.running = false) {c : Choice}
    (hnext : next s c = some t) : Rests s t ∨ Starts s t c := by
  obtain ⟨hdma, hpending⟩ := h.stopped hstopped
  cases c with
  | request r k =>
    obtain ⟨-, ⟨hon, -⟩, rfl⟩ := next_request hnext
    have hf := requestFrame s k r
    have hrenders : s.renders <+: (s.rpcHandler k r).renders := prefix_of_renders hf.renders
    rcases requestCases s k r with
      ⟨hspu2, -, hmark, -, -, -, -⟩ | ⟨-, hrun, -, hfinished, hcurrent, hmark, -, -⟩ |
      ⟨-, -, hspu2, hmark, -, -⟩ |
      ⟨⟨result, rfl⟩, hinit, hs, -, hmemory, hspu2, hmark, hplay, hrender, hsema⟩ |
      ⟨-, hrun, -, hfinished, hcurrent, hmark, -, -⟩
    · exact .inl ⟨hspu2 ▸ hstopped, by rw [hspu2], by rw [hspu2], hmark, hrenders⟩
    · refine .inl ⟨?_, hfinished, hcurrent, hmark, hrenders⟩
      by_contra hne
      have hrun' := hrun (by simpa using hne)
      rw [hstopped] at hrun'
      cases hrun'
    · exact .inl ⟨hspu2 ▸ hstopped, by rw [hspu2], by rw [hspu2], hmark, hrenders⟩
    · refine .inr ⟨⟨result, k, rfl⟩, ⟨hinit, hs⟩, ?_, by rw [hmark, hf.renders], hplay, hsema,
        hf.copy, hrender⟩
      exact Matches.start (by rw [hf.spuBuffer]; exact h.fits)
        ((interruptsOn_congr hf.copy).trans hon) (hf.interrupt.trans hpending) hmemory
        hf.spuBuffer.symm (by rw [hf.spuBuffer]; exact hspu2) rfl
    · exact .inl ⟨hrun, hfinished, hcurrent, hmark, hrenders⟩
  | rpc =>
    obtain ⟨-, a, -, rfl⟩ := next_rpc hnext
    exact .inl ⟨hstopped, rfl, rfl, rfl, List.prefix_rfl⟩
  | play =>
    rcases next_play hnext with ⟨a, hcopy, ha, ht⟩ | ⟨-, rfl⟩ | ⟨b, i, -, -, rfl⟩ |
        ⟨b, i, -, -, rfl⟩
    · have hspu2 : t.spu2 = s.spu2 := by rw [ht]
      have hmark : t.mark = s.mark := by rw [ht]
      exact .inl ⟨hspu2 ▸ hstopped, by rw [hspu2], by rw [hspu2], hmark,
        (threadCases hcopy ha ht).renders⟩
    · exact .inl ⟨hstopped, rfl, rfl, rfl, List.prefix_rfl⟩
    · exact .inl ⟨hstopped, rfl, rfl, rfl, List.prefix_rfl⟩
    · exact .inl ⟨hstopped, rfl, rfl, rfl, List.prefix_rfl⟩
  | dma =>
    obtain ⟨hstart, -⟩ := next_dma hnext
    rw [hdma] at hstart
    cases hstart
  | interrupt =>
    obtain ⟨-, hp, -⟩ := next_interrupt hnext
    rw [hpending] at hp
    cases hp

/-- The blocks rendered since the loop was started. -/
def System.session (s : System) : List Render :=
  s.renders.drop s.mark

/-- The blocks of silence and of what was rendered so far. -/
def System.blocks (s : System) : List (List Int16) :=
  (silentBlock :: s.renders.map Render.frames).map layout

/-- Every block the channel has read is one of these, and so is the one it reads now as far as
it has got. -/
structure Whole (s : System) : Prop where
  finished : ∀ b ∈ s.spu2.finished, b ∈ s.blocks
  current : ∃ b ∈ s.blocks, s.spu2.current <+: b

theorem blocks_subset (h : s.renders <+: t.renders) : s.blocks ⊆ t.blocks := by
  obtain ⟨rs, hrs⟩ := h
  rw [System.blocks, System.blocks, ← hrs, List.map_append, List.map_cons, List.map_cons,
    List.map_append]
  exact List.cons_subset_cons _ (List.subset_append_left _ _)

theorem silent_mem_blocks (s : System) : layout silentBlock ∈ s.blocks :=
  List.mem_cons_self

theorem Matches.prefix_current (h : Matches s d) : s.spu2.current <+: d.halves d.active := by
  rw [h.current]
  split
  case isTrue hstart =>
    rw [← h.active]
    have hunits := h.units hstart
    exact readSamples_prefix (by simp only [unitSamples, blockSamples]; omega)
  case isFalse => exact List.nil_prefix

theorem Matches.whole (h : Matches s d) (hd : DoubleBuffer.ShowsOnly d s.blocks) : Whole s where
  finished b hb := by
    apply hd.shown
    rw [h.shown]
    exact List.mem_append_left _ hb
  current := ⟨_, hd.halves _, h.prefix_current⟩

/-- The double buffer only ever shows these blocks while the loop runs. -/
structure ShowsWhole (s : System) : Prop where
  running : s.spu2.running = true → ∃ d, Matches s d ∧ DoubleBuffer.ShowsOnly d s.blocks
  stopped : s.spu2.running = false → Whole s

theorem ShowsWhole.whole (h : ShowsWhole s) : Whole s := by
  by_cases hrunning : s.spu2.running = true
  · obtain ⟨d, hm, hd⟩ := h.running hrunning
    exact hm.whole hd
  · exact h.stopped (by simpa using hrunning)

theorem Whole.congr (h : Whole s) (hfinished : t.spu2.finished = s.spu2.finished)
    (hcurrent : t.spu2.current = s.spu2.current) (hrenders : s.renders <+: t.renders) :
    Whole t where
  finished b hb := blocks_subset hrenders (h.finished b (hfinished ▸ hb))
  current := by
    obtain ⟨b, hb, hprefix⟩ := h.current
    exact ⟨b, blocks_subset hrenders hb, hcurrent ▸ hprefix⟩

theorem Evolution.showsOnly (h : Inv s) {c : Choice} (he : Evolution s c t d d')
    (hd : DoubleBuffer.ShowsOnly d s.blocks) : DoubleBuffer.ShowsOnly d' t.blocks := by
  cases he with
  | quiet hq => exact hd.mono (blocks_subset (prefix_of_renders hq.renders))
  | thread hthread => exact hd.mono (blocks_subset hthread.renders)
  | copied hbusy _ _ hrenders _ hx =>
    obtain ⟨r, hr, hframes⟩ := h.held (.inl hbusy)
    have hsub : s.blocks ⊆ t.blocks := blocks_subset (prefix_of_renders hrenders)
    refine (hd.mono hsub).fill (hsub ?_)
    rw [hx, ← hframes]
    exact List.mem_map_of_mem (List.mem_cons_of_mem _ (List.mem_map_of_mem hr))
  | interrupt _ _ _ _ hrenders => exact (hd.mono (blocks_subset (prefix_of_renders hrenders))).flip

theorem ShowsWhole.of_stopped (hstopped : s.spu2.running = false) (h : Whole s) :
    ShowsWhole s where
  running hrunning := by
    rw [hstopped] at hrunning
    cases hrunning
  stopped _ := h

theorem ShowsWhole.next (h : Inv s) (hw : ShowsWhole s) {c : Choice}
    (hnext : next s c = some t) : ShowsWhole t := by
  by_cases hrunning : s.spu2.running = true
  · obtain ⟨d, hm, hd⟩ := hw.running hrunning
    rcases evolves h hm hrunning hnext with hstop | ⟨d', hm', he⟩
    · exact .of_stopped hstop.running
        (hw.whole.congr hstop.finished hstop.current (prefix_of_renders hstop.renders))
    · have hd' := he.showsOnly h hd
      exact ⟨fun _ => ⟨d', hm', hd'⟩, fun _ => hm'.whole hd'⟩
  · rcases starts h (by simpa using hrunning) hnext with hrest | hstart
    · exact .of_stopped hrest.running
        (hw.whole.congr hrest.finished hrest.current hrest.renders)
    · have hd := DoubleBuffer.ShowsOnly.start (silent_mem_blocks t)
      exact ⟨fun _ => ⟨_, hstart.matched, hd⟩, fun _ => hstart.matched.whole hd⟩

/-- The play thread waits for the next transfer, with nothing left to copy. -/
def System.Waits (s : System) : Prop :=
  s.audio.play = .waitTransfer ∧ s.copy = .none ∧ s.audio.transferSema = some 0

instance (s : System) : Decidable s.Waits :=
  match hplay : s.audio.play, hcopy : s.copy with
  | .waitTransfer, .none =>
    decidable_of_iff (s.audio.transferSema = some 0) (by simp [System.Waits, hplay, hcopy])
  | .waitTransfer, .suspend | .waitTransfer, .copy _ _ =>
    isFalse fun h => by simp [System.Waits, hcopy] at h
  | .notStarted, _ | .lock, _ | .computeTake, _ | .render _ _, _ | .underrun _, _ | .unlock _, _
  | .signalSpace, _ => isFalse fun h => by simp [System.Waits, hplay] at h

/-- The play thread keeps up : it waits when the loop starts and whenever a block has been
played. -/
def KeepsUp (s : System) : Choice → Prop
  | .interrupt => s.spu2.running = true → s.Waits
  | .request (.start _) _ => s.audio.initialized ∧ s.audio.started = false → s.Waits
  | _ => True

instance (s : System) : DecidablePred (KeepsUp s)
  | .interrupt => inferInstanceAs (Decidable (_ → _))
  | .request (.start _) _ => inferInstanceAs (Decidable (_ → _))
  | .request (.init _) _ | .request (.submit _ _) _ | .request .stats _
  | .request (.setVolume _ _) _ | .request .pause _ | .request .resume _ | .request (.stop _) _
  | .request .flush _ | .request (.setLatency _ _) _ | .request .other _ | .rpc | .play | .dma =>
    isTrue trivial

/-- The blocks that play what was rendered. -/
def layouts (rs : List Render) : List (List Int16) :=
  rs.map fun r => layout r.frames

/-- Where the double buffer is, by where the play thread is. -/
structure InStep (s : System) (d : DoubleBuffer.State (List Int16)) : Prop where
  sema : s.audio.transferSema = some 0 ∨
    s.audio.transferSema = some 1 ∧ s.audio.play = .waitTransfer ∧ s.copy = .none
  ready : s.Waits → d.Ready (layout silentBlock) (layouts s.session)
  due : ¬s.Waits → ¬s.Holds → d.Due (layout silentBlock) (layouts s.session)
  held : s.Holds → ∃ front r, s.session = front ++ [r] ∧ r.frames = s.renderFrames ∧
    d.Due (layout silentBlock) (layouts front)

theorem CopyPc.busy_iff {c : CopyPc} : c.Busy ↔ c ≠ .none := by
  cases c <;> simp [CopyPc.Busy]

theorem not_waits_of_holds (h : s.Holds) : ¬s.Waits := by
  rintro ⟨hplay, hcopy, -⟩
  rw [System.Holds, hplay, hcopy] at h
  exact h.elim id id

theorem session_congr (hrenders : t.renders = s.renders) (hmark : t.mark = s.mark) :
    t.session = s.session := by
  rw [System.session, System.session, hrenders, hmark]

namespace InStep

theorem quiet (h : InStep s d) (hq : Quiet s t) : InStep t d := by
  have hcopy : t.copy = .none ↔ s.copy = .none := by
    have hbusy := hq.busy
    rw [CopyPc.busy_iff, CopyPc.busy_iff] at hbusy
    exact not_iff_not.1 hbusy
  have hwaits : t.Waits ↔ s.Waits := by
    rw [System.Waits, System.Waits, hq.play, hq.sema, hcopy]
  have hholds : t.Holds ↔ s.Holds := by
    rw [System.Holds, System.Holds, hq.play, hq.busy]
  have hsession := session_congr hq.renders hq.mark
  constructor
  · rw [hq.sema, hq.play, hcopy]
    exact h.sema
  · rw [hwaits, hsession]
    exact h.ready
  · rw [hwaits, hholds, hsession]
    exact h.due
  · rw [hholds, hsession, renderFrames_congr hq.render]
    exact h.held

theorem thread (h : InStep s d) (hinv : Inv s) (ht : ThreadCases s t) (hcopy : s.copy = .none)
    (hmark : t.mark = s.mark) : InStep t d := by
  rcases ht with ⟨hplay, hnext, hcopy', hrenders, -, hsema⟩ |
      ⟨hplay, hs, ht, hnext, hcopy', hrenders, -, hsema⟩ |
      ⟨take, i, hplay, -, hs, ht, hcopy', hrenders, hrender, -, hsema⟩ |
      ⟨hplay, hs, ht, -, hrenders, hrender, -, hsema⟩
  · -- the transfer the thread waited for has been signalled
    have htoken : s.audio.transferSema = some 1 := by
      rcases h.sema with hzero | ⟨hone, -, -⟩
      · rw [hzero] at hsema
        cases hsema
      · exact hone
    have hzero : t.audio.transferSema = some 0 := by
      rw [htoken] at hsema
      exact (Option.some.inj hsema).symm
    have hs : ¬s.Waits := fun hw => by
      rw [hw.2.2] at htoken
      cases htoken
    have hs' : ¬s.Holds := by
      rw [System.Holds, hcopy, hplay]
      exact fun hh => hh.elim id id
    have hw : ¬t.Waits := fun hw => by
      rw [hw.1] at hnext
      cases hnext
    have hh : ¬t.Holds := by
      rw [System.Holds, hcopy', hnext]
      exact fun hh => hh.elim id id
    refine ⟨.inl hzero, fun h' => absurd h' hw, fun _ _ => ?_, fun h' => absurd h' hh⟩
    rw [session_congr hrenders hmark]
    exact h.due hs hs'
  · have hzero := h.sema.resolve_right fun hone => hplay hone.2.1
    refine ⟨.inl (hsema.trans hzero), fun hw => absurd hw.1 hnext, fun _ _ => ?_,
      fun h' => absurd h' ht⟩
    rw [session_congr hrenders hmark]
    exact h.due (fun hw => hplay hw.1) hs
  · have hwait : s.audio.play ≠ .waitTransfer := by
      simp [hplay]
    have hzero := h.sema.resolve_right fun hone => hwait hone.2.1
    have hsession : t.session = s.session ++ [⟨take, s.renderFrames⟩] := by
      rw [System.session, System.session, hrenders, hmark,
        List.drop_append_of_le_length hinv.mark_le]
    refine ⟨.inl (hsema.trans hzero), fun hw => absurd hw (not_waits_of_holds ht),
      fun _ hh => absurd ht hh, fun _ => ⟨s.session, _, hsession, ?_, ?_⟩⟩
    · rw [hrender]
    · exact h.due (fun hw => hwait hw.1) hs
  · have hzero := h.sema.resolve_right fun hone => hplay hone.2.1
    refine ⟨.inl (hsema.trans hzero), fun hw => absurd hw (not_waits_of_holds ht),
      fun _ hh => absurd ht hh, fun _ => ?_⟩
    rw [session_congr hrenders hmark, hrender]
    exact h.held hs

theorem copied (h : InStep s d) (hinv : Inv s) (hbusy : s.copy.Busy) (hcopy : t.copy = .none)
    (haudio : t.audio = s.audio) (hrenders : t.renders = s.renders) (hmark : t.mark = s.mark)
    {x : List Int16} (hx : x = layout s.renderFrames) : InStep t (d.fill x) := by
  have hzero := h.sema.resolve_right fun hone => CopyPc.busy_iff.1 hbusy hone.2.2
  have hplay := hinv.waiting hbusy
  have hwaits : t.Waits := ⟨haudio ▸ hplay, hcopy, haudio ▸ hzero⟩
  refine ⟨.inl (haudio ▸ hzero), fun _ => ?_, fun hw => absurd hwaits hw,
    fun hh => absurd hwaits (not_waits_of_holds hh)⟩
  obtain ⟨front, r, hsession, hframes, hdue⟩ := h.held (.inl hbusy)
  have hready := hdue.fill x
  rwa [session_congr hrenders hmark, hsession, layouts, List.map_append, List.map_singleton,
    hframes, ← hx]

theorem interrupt (h : InStep s d) (hwaits : s.Waits) (hcopy : t.copy = s.copy)
    (hplay : t.audio.play = s.audio.play)
    (hsema : t.audio.transferSema = s.audio.transferSema.signal)
    (hrenders : t.renders = s.renders) (hmark : t.mark = s.mark) : InStep t d.flip := by
  obtain ⟨hplay', hcopy', hzero⟩ := hwaits
  have hone : t.audio.transferSema = some 1 := by
    rw [hsema, hzero]
    rfl
  have hw : ¬t.Waits := fun hw => by
    rw [hw.2.2] at hone
    cases hone
  have hh : ¬t.Holds := by
    rw [System.Holds, hcopy, hcopy', hplay, hplay']
    exact fun hh => hh.elim id id
  refine ⟨.inr ⟨hone, hplay.trans hplay', hcopy.trans hcopy'⟩, fun h' => absurd h' hw,
    fun _ _ => ?_, fun h' => absurd h' hh⟩
  rw [session_congr hrenders hmark]
  exact (h.ready ⟨hplay', hcopy', hzero⟩).flip

theorem evolution (h : InStep s d) (hinv : Inv s) {c : Choice} (hc : c = .interrupt → s.Waits)
    (he : Evolution s c t d d') : InStep t d' := by
  cases he with
  | quiet hq => exact h.quiet hq
  | thread ht hcopy hmark => exact h.thread hinv ht hcopy hmark
  | copied hbusy hcopy haudio hrenders hmark hx =>
    exact h.copied hinv hbusy hcopy haudio hrenders hmark hx
  | interrupt hint hcopy hplay hsema hrenders hmark =>
    exact h.interrupt (hc hint) hcopy hplay hsema hrenders hmark

/-- What the reader was shown is the start of what it is to be shown, and at most one rendered
block is not shown yet. -/
theorem shown (h : InStep s d) :
    d.shown <+: layout silentBlock :: layout silentBlock :: layouts s.session ∧
      s.session.length + 1 ≤ d.shown.length ∧ d.shown.length ≤ s.session.length + 2 := by
  have hlength (rs : List Render) : (layouts rs).length = rs.length := List.length_map ..
  by_cases hheld : s.Holds
  · obtain ⟨front, r, hsession, -, hdue⟩ := h.held hheld
    have hshown := hdue.length_shown
    rw [hlength] at hshown
    rw [hsession, List.length_append, List.length_singleton]
    refine ⟨?_, by omega, by omega⟩
    refine hdue.shown_prefix.trans ⟨layouts [r], ?_⟩
    simp [layouts]
  · by_cases hwaits : s.Waits
    · have hready := h.ready hwaits
      have hshown := hready.length_shown
      rw [hlength] at hshown
      exact ⟨hready.shown_prefix, by omega, by omega⟩
    · have hdue := h.due hwaits hheld
      have hshown := hdue.length_shown
      rw [hlength] at hshown
      exact ⟨hdue.shown_prefix, by omega, by omega⟩

end InStep

/-- What the channel has read since the loop was started, in order. -/
def Spu2.read (u : Spu2) : List Int16 :=
  u.finished.flatten ++ u.current

/-- What the channel is to read : two blocks of silence and the rendered blocks in order. -/
def System.toRead (s : System) : List Int16 :=
  (layout silentBlock :: layout silentBlock :: layouts s.session).flatten

theorem prefix_flatten {α : Type*} {xs ys : List (List α)} (h : xs <+: ys) :
    xs.flatten <+: ys.flatten := by
  obtain ⟨zs, rfl⟩ := h
  exact ⟨zs.flatten, List.flatten_append.symm⟩

theorem Matches.prefix_read (h : Matches s d) : s.spu2.read <+: d.shown.flatten := by
  rw [h.shown, List.flatten_append, Spu2.read]
  refine (List.prefix_append_right_inj _).2 ?_
  have hcurrent := h.prefix_current
  have hidle := h.current
  split
  case isTrue => simpa using hcurrent
  case isFalse hstopped =>
    rw [hidle, if_neg hstopped]
    exact List.nil_prefix

/-- The double buffer is in step while the loop runs, and what was read is right ever after. -/
structure PlaysInStep (s : System) : Prop where
  running : s.spu2.running = true → ∃ d, Matches s d ∧ InStep s d
  stopped : s.spu2.running = false → s.spu2.read <+: s.toRead

theorem PlaysInStep.prefix_read (h : PlaysInStep s) : s.spu2.read <+: s.toRead := by
  by_cases hrunning : s.spu2.running = true
  · obtain ⟨d, hm, hd⟩ := h.running hrunning
    exact hm.prefix_read.trans (prefix_flatten hd.shown.1)
  · exact h.stopped (by simpa using hrunning)

theorem PlaysInStep.of_stopped (h : PlaysInStep s) (hinv : Inv s)
    (hstopped : t.spu2.running = false) (hfinished : t.spu2.finished = s.spu2.finished)
    (hcurrent : t.spu2.current = s.spu2.current) (hmark : t.mark = s.mark)
    (hrenders : s.renders <+: t.renders) : PlaysInStep t where
  running hrunning := by
    rw [hstopped] at hrunning
    cases hrunning
  stopped _ := by
    have hread : t.spu2.read = s.spu2.read := by
      rw [Spu2.read, Spu2.read, hfinished, hcurrent]
    have hmore : layouts s.session <+: layouts t.session := by
      obtain ⟨rs, hrs⟩ := hrenders
      rw [System.session, System.session, hmark, ← hrs,
        List.drop_append_of_le_length hinv.mark_le, layouts, layouts, List.map_append]
      exact List.prefix_append _ _
    rw [hread]
    refine h.prefix_read.trans (prefix_flatten ?_)
    exact (List.prefix_cons_inj _).2 ((List.prefix_cons_inj _).2 hmore)

theorem PlaysInStep.next (h : PlaysInStep s) (hinv : Inv s) {c : Choice} (hok : KeepsUp s c)
    (hnext : next s c = some t) : PlaysInStep t := by
  by_cases hrunning : s.spu2.running = true
  · obtain ⟨d, hm, hd⟩ := h.running hrunning
    rcases evolves hinv hm hrunning hnext with hstop | ⟨d', hm', he⟩
    · exact h.of_stopped hinv hstop.running hstop.finished hstop.current hstop.mark
        (prefix_of_renders hstop.renders)
    · have hd' : InStep t d' := by
        refine hd.evolution hinv ?_ he
        rintro rfl
        exact hok hrunning
      exact ⟨fun _ => ⟨d', hm', hd'⟩, fun _ => hm'.prefix_read.trans (prefix_flatten hd'.shown.1)⟩
  · rcases starts hinv (by simpa using hrunning) hnext with hrest | hstart
    · exact h.of_stopped hinv hrest.running hrest.finished hrest.current hrest.mark hrest.renders
    · obtain ⟨result, k, rfl⟩ := hstart.choice
      have hwaits : t.Waits := by
        rw [System.Waits, hstart.play, hstart.copy, hstart.sema]
        exact hok hstart.ready
      have hsession : t.session = [] := by
        rw [System.session, hstart.mark, List.drop_length]
      have hd : InStep t (DoubleBuffer.start (layout silentBlock)) := by
        refine ⟨.inl hwaits.2.2, fun _ => ?_, fun hw => absurd hwaits hw,
          fun hh => absurd hwaits (not_waits_of_holds hh)⟩
        rw [hsession]
        exact DoubleBuffer.ready_start _
      exact ⟨fun _ => ⟨_, hstart.matched, hd⟩,
        fun _ => hstart.matched.prefix_read.trans (prefix_flatten hd.shown.1)⟩

end EF2SDK.IopPlayback
