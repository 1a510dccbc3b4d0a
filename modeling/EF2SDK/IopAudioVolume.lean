import EF2SDK.IopAudioQueue

/-!
# The playback controls

The requests of the audio service share four settings (started, paused, the volume and the
queue limit) and the volume register of the SPU2, which `update_volume` derives from them.
Only the handlers write these, so between two requests they stay as they are
(`run_controls`).

After a successful INIT the controls are `Consistent` whatever is requested, and a request
that is answered with a negative result leaves the settings alone (`requests_consistent`).
-/

set_option autoImplicit false

namespace EF2SDK.IopAudio

variable {s t u : State}

/-- What the control requests set. -/
structure Settings where
  started : Bool
  paused : Bool
  volume : ℕ
  queueLimitFrames : ℕ
deriving DecidableEq

/-- The settings of the service. -/
def State.settings (s : State) : Settings :=
  ⟨s.started, s.paused, s.volume, s.queueLimitFrames⟩

/-- The settings agree with one another. -/
structure Settings.Valid (c : Settings) : Prop where
  paused_started : c.paused → c.started
  volume_le : c.volume ≤ maxVolume
  limit_ge : blockFrames ≤ c.queueLimitFrames
  limit_le : c.queueLimitFrames ≤ ringFrames
  limit_dvd : blockFrames ∣ c.queueLimitFrames

/-- The volume that the settings ask the SPU2 for. -/
def Settings.spuVolume (c : Settings) : ℕ :=
  if c.started ∧ ¬c.paused then c.volume else 0

/-- The settings agree with one another and with what the SPU2 plays. -/
structure Consistent (s : State) : Prop extends s.settings.Valid where
  spuVolume : s.spuVolume = s.settings.spuVolume

/-! ## Between requests -/

/-- The choice is not a request. -/
def Choice.Quiet : Choice → Prop
  | .request _ => False
  | _ => True

theorem rpcStep_controls (hstep : s.rpcStep = some t) :
    t.settings = s.settings ∧ t.spuVolume = s.spuVolume := by
  cases hpc : s.rpc <;> simp only [State.rpcStep, hpc] at hstep
  case idle => cases hstep
  all_goals try split at hstep
  all_goals
    first
      | obtain ⟨m, hm, rfl⟩ := Option.map_eq_some_iff.1 hstep
      | obtain rfl := Option.some.inj hstep
    exact ⟨rfl, rfl⟩

theorem playStep_controls (hstep : s.playStep = some t) :
    t.settings = s.settings ∧ t.spuVolume = s.spuVolume ∧ t.lastReply = s.lastReply := by
  cases hpc : s.play <;> simp only [State.playStep, hpc] at hstep
  case notStarted => cases hstep
  all_goals try split at hstep
  all_goals
    first
      | obtain ⟨m, hm, rfl⟩ := Option.map_eq_some_iff.1 hstep
      | obtain rfl := Option.some.inj hstep
    exact ⟨rfl, rfl, rfl⟩

theorem next_controls {c : Choice} (hquiet : c.Quiet) (hnext : next s c = some t) :
    t.settings = s.settings ∧ t.spuVolume = s.spuVolume := by
  cases c with
  | request r => exact hquiet.elim
  | rpc => exact rpcStep_controls hnext
  | play =>
    obtain ⟨hsettings, hspu, -⟩ := playStep_controls hnext
    exact ⟨hsettings, hspu⟩
  | transfer =>
    obtain rfl := Option.some.inj hnext
    exact ⟨rfl, rfl⟩

/-! ## Requests -/

theorem latencyFrames_valid (latencyMs : ℕ) :
    blockFrames ≤ State.latencyFrames latencyMs ∧ blockFrames ∣ State.latencyFrames latencyMs := by
  simp only [State.latencyFrames]
  have hdvd : blockFrames ∣ (latencyMs * 48 + blockFrames - 1) / blockFrames * blockFrames :=
    Nat.dvd_mul_left _ _
  split_ifs <;> first | exact ⟨by omega, hdvd⟩ | exact ⟨by decide, by decide⟩

/-- `update_volume` puts the SPU2 in agreement with the settings. -/
theorem consistent_updateVolume (h : s.settings.Valid) : Consistent s.updateVolume where
  toValid := h
  spuVolume := by
    refine Nat.min_eq_left ?_
    split_ifs
    · exact h.volume_le
    · exact Nat.zero_le _

/-- A handler that does not fail may change the settings, and the reply says that it did not
fail. -/
theorem rpcHandler_settings (s : State) (r : Request) :
    (s.rpcHandler r).settings = s.settings ∨ (s.rpcHandler r).rpc = .reply 0 := by
  cases r with
  | init o =>
    simp only [State.rpcHandler, State.audioInitialize]
    split_ifs <;> exact .inl rfl
  | submit length v =>
    simp only [State.rpcHandler, State.audioSubmit]
    split_ifs <;> exact .inl rfl
  | start transferResult =>
    simp only [State.rpcHandler, State.audioStart]
    split_ifs with hinit hstarted
    · exact .inl rfl
    · refine .inl ?_
      have hstarted : s.started = false := by simpa using hstarted
      simp only [State.settings, State.answer, State.updateVolume, hstarted]
    · exact .inr rfl
    · exact .inl rfl
  | pause =>
    simp only [State.rpcHandler, State.audioPause]
    split_ifs <;> first | exact .inl rfl | exact .inr rfl
  | resume =>
    simp only [State.rpcHandler, State.audioResume]
    split_ifs <;> first | exact .inl rfl | exact .inr rfl
  | stop result =>
    simp only [State.rpcHandler, State.audioStop]
    split_ifs <;> first | exact .inl rfl | exact .inr rfl
  | setVolume length value =>
    simp only [State.rpcHandler, State.audioSetVolume]
    split_ifs <;> first | exact .inl rfl | exact .inr rfl
  | setLatency length value =>
    simp only [State.rpcHandler, State.audioSetLatencyMs]
    split_ifs <;> first | exact .inl rfl | exact .inr rfl
  | stats | flush | other => exact .inl rfl

/-- What a handler keeps : the settings agree, and the SPU2 with them if it did before. -/
structure Controlled (s t : State) : Prop where
  valid : t.settings.Valid
  spuVolume : s.spuVolume = s.settings.spuVolume → t.spuVolume = t.settings.spuVolume

namespace Controlled

/-- The handler only answers. -/
theorem answer (h : s.settings.Valid) (result : ℤ) : Controlled s (s.answer result) :=
  ⟨h, id⟩

/-- The handler ends with `update_volume`. -/
theorem updated (h : t.settings.Valid) (result : ℤ) :
    Controlled s (t.updateVolume.answer result) :=
  ⟨h, fun _ => (consistent_updateVolume h).spuVolume⟩

theorem audioStart (h : s.settings.Valid) (transferResult : ℤ) :
    Controlled s (s.audioStart transferResult) := by
  rw [State.audioStart]
  split_ifs with hinit hstarted
  · exact answer h _
  · apply updated
    exact { h with paused_started := fun hpaused => absurd (h.paused_started hpaused) hstarted }
  · apply updated
    exact { h with paused_started := fun _ => rfl }
  · exact answer h _

theorem audioPause (h : s.settings.Valid) : Controlled s s.audioPause := by
  rw [State.audioPause]
  split_ifs with hstarted
  · exact answer h _
  · apply updated
    exact { h with paused_started := fun _ => not_not.1 (not_or.1 hstarted).2 }

theorem audioResume (h : s.settings.Valid) : Controlled s s.audioResume := by
  rw [State.audioResume]
  split_ifs
  · exact answer h _
  · apply updated
    exact { h with paused_started := fun hpaused => absurd hpaused Bool.false_ne_true }

theorem audioStop (h : s.settings.Valid) (result : ℤ) : Controlled s (s.audioStop result) := by
  rw [State.audioStop]
  split_ifs with hinit hstarted
  · exact answer h _
  · apply updated
    exact { h with paused_started := fun hpaused => absurd hpaused Bool.false_ne_true }
  · apply updated
    exact { h with paused_started := fun hpaused => absurd hpaused Bool.false_ne_true }
  · exact answer h _

theorem audioSetVolume (h : s.settings.Valid) (volume : ℕ) :
    Controlled s (s.audioSetVolume volume) := by
  rw [State.audioSetVolume]
  split_ifs with hmax
  · exact answer h _
  · apply updated
    exact { h with volume_le := Nat.not_lt.1 hmax }

theorem audioSetLatencyMs (h : s.settings.Valid) (latencyMs : ℕ) :
    Controlled s (s.audioSetLatencyMs latencyMs) := by
  obtain ⟨hge, hdvd⟩ := latencyFrames_valid latencyMs
  rw [State.audioSetLatencyMs]
  split_ifs
  · exact answer h _
  · exact ⟨⟨h.paused_started, h.volume_le, hge, latencyFrames_le latencyMs, hdvd⟩, id⟩

theorem rpcHandler (h : s.settings.Valid) (r : Request) (hr : ∀ o, r ≠ .init o) :
    Controlled s (s.rpcHandler r) := by
  cases r with
  | init o => exact absurd rfl (hr o)
  | submit length v =>
    simp only [State.rpcHandler, State.audioSubmit]
    split_ifs <;> exact ⟨h, id⟩
  | start transferResult => exact audioStart h transferResult
  | pause => exact audioPause h
  | resume => exact audioResume h
  | stop result => exact audioStop h result
  | setVolume length value =>
    rw [State.rpcHandler]
    split_ifs
    · exact answer h _
    · exact audioSetVolume h value
  | setLatency length value =>
    rw [State.rpcHandler]
    split_ifs
    · exact answer h _
    · exact audioSetLatencyMs h value
  | stats | flush | other => exact ⟨h, id⟩

end Controlled

/-- INIT leaves the settings alone, and puts the SPU2 in agreement before it starts the play
thread. -/
theorem audioInitialize_controls (h : s.settings.Valid) (o : InitOutcome) :
    (s.audioInitialize o).settings.Valid ∧
      ((s.audioInitialize o).rpc = .threadStarted →
        (s.audioInitialize o).spuVolume = (s.audioInitialize o).settings.spuVolume) ∧
      (s.audioInitialize o).initialized = s.initialized ∧
      (s.initialized → s.audioInitialize o = s.answer 0) := by
  have hclear : Consistent (s.createSemaphores o).clearBuffers :=
    consistent_updateVolume (s := { s.createSemaphores o with
      ring := s.ring.clear, render := fun _ => silence, underruns := 0, overruns := 0 }) h
  simp only [State.audioInitialize]
  split_ifs with hinit
  · exact ⟨h, by rintro ⟨⟩, rfl, fun _ => rfl⟩
  · exact ⟨h, by rintro ⟨⟩, rfl, fun hi => absurd hi hinit⟩
  · exact ⟨h, by rintro ⟨⟩, rfl, fun hi => absurd hi hinit⟩
  · exact ⟨h, by rintro ⟨⟩, rfl, fun hi => absurd hi hinit⟩
  · exact ⟨h, by rintro ⟨⟩, rfl, fun hi => absurd hi hinit⟩
  · exact ⟨h, fun _ => hclear.spuVolume, rfl, fun hi => absurd hi hinit⟩

/-! ## Every run -/

/-- INIT has succeeded, or is about to answer so. -/
def State.Ready (s : State) : Prop :=
  s.initialized ∨ s.rpc = .threadStarted

/-- The invariant of the controls : the SPU2 agrees with the settings from INIT on. -/
structure ControlInv (s : State) : Prop where
  valid : s.settings.Valid
  spuVolume : s.Ready → s.spuVolume = s.settings.spuVolume

theorem ControlInv.of_boot (spuVolume : ℕ) : ControlInv (boot spuVolume) where
  valid :=
    { paused_started := fun h => absurd h Bool.false_ne_true
      volume_le := Nat.le_refl maxVolume
      limit_ge := (by decide : blockFrames ≤ ringFrames)
      limit_le := Nat.le_refl ringFrames
      limit_dvd := (by decide : blockFrames ∣ ringFrames) }
  spuVolume := by
    rintro (h | h)
    · exact absurd h Bool.false_ne_true
    · cases h

theorem rpcStep_ne_threadStarted (hstep : s.rpcStep = some t) : t.rpc ≠ .threadStarted := by
  cases hpc : s.rpc <;> simp only [State.rpcStep, hpc] at hstep
  case idle => cases hstep
  all_goals try split at hstep
  all_goals
    first
      | obtain ⟨m, hm, rfl⟩ := Option.map_eq_some_iff.1 hstep
      | obtain rfl := Option.some.inj hstep
    simp [State.answer]

theorem next_ready {c : Choice} (hquiet : c.Quiet) (hnext : next s c = some t) :
    t.Ready ↔ s.Ready := by
  cases c with
  | request r => exact hquiet.elim
  | rpc =>
    have hpc := rpcStep_ne_threadStarted hnext
    obtain ⟨hne, heq⟩ | ⟨hpc', hinit⟩ := (rpcFrame hnext).initialized
    · simp only [State.Ready, heq, hne, hpc]
    · simp only [State.Ready, hpc', hinit, true_or, or_true]
  | play =>
    have hframe := playFrame hnext
    rw [State.Ready, hframe.rpc, hframe.initialized, State.Ready]
  | transfer =>
    obtain rfl := Option.some.inj hnext
    rfl

theorem ControlInv.audioInitialize (h : ControlInv s) (o : InitOutcome) :
    ControlInv (s.audioInitialize o) := by
  obtain ⟨hvalid, hstarted, hinit, hanswer⟩ := audioInitialize_controls h.valid o
  refine ⟨hvalid, ?_⟩
  rintro (hready | hready)
  · rw [hinit] at hready
    rw [hanswer hready]
    exact h.spuVolume (Or.inl hready)
  · exact hstarted hready

theorem ControlInv.request (h : ControlInv s) (r : Request) (hr : ∀ o, r ≠ .init o) :
    ControlInv (s.rpcHandler r) := by
  have hcontrolled := Controlled.rpcHandler h.valid r hr
  have hframe := RequestFrame.rpcHandler (s := s) r hr
  refine ⟨hcontrolled.valid, fun hready => hcontrolled.spuVolume (h.spuVolume (Or.inl ?_))⟩
  obtain hinit | hstarted := hready
  · exact hframe.initialized ▸ hinit
  · refine hframe.needs ?_
    rw [hstarted]
    trivial

theorem ControlInv.next {c : Choice} (h : ControlInv s) (hnext : next s c = some t) :
    ControlInv t := by
  by_cases hquiet : c.Quiet
  · obtain ⟨hsettings, hspu⟩ := next_controls hquiet hnext
    refine ⟨hsettings ▸ h.valid, fun hready => ?_⟩
    rw [hspu, hsettings]
    exact h.spuVolume ((next_ready hquiet hnext).1 hready)
  · cases c with
    | request r =>
      obtain ⟨-, rfl⟩ := next_request hnext
      cases r with
      | init o => exact h.audioInitialize o
      | _ => exact h.request _ (by simp)
    | _ => exact absurd trivial hquiet

theorem ControlInv.of_run {spuVolume : ℕ} {is : List Choice}
    (hrun : Schedule.run IopAudio.next (boot spuVolume) is = some s) : ControlInv s :=
  Schedule.run_invariant_of_step (fun _ _ _ h hnext => ControlInv.next h hnext)
    (ControlInv.of_boot spuVolume) hrun

/-! ## One request -/

/-- The request arrives, and after the quiet choices `is` it is answered. -/
def Handles (s : State) (r : Request) (is : List Choice) (u : State) : Prop :=
  (∀ c ∈ is, c.Quiet) ∧ Schedule.run next s (.request r :: is) = some u ∧ u.rpc = .idle

/-- What quiet choices keep is kept until the reply. -/
theorem Handles.invariant {P : State → Prop} {r : Request} {is : List Choice}
    (h : Handles s r is u)
    (hstep : ∀ (s : State) (c : Choice) (t : State), c.Quiet → next s c = some t → P s → P t)
    (hstart : P (s.rpcHandler r)) : P u := by
  obtain ⟨hquiet, hrun, -⟩ := h
  obtain ⟨t, hnext, hrest⟩ := Schedule.run_cons_eq_some.1 hrun
  obtain ⟨-, rfl⟩ := next_request hnext
  have hmeets : Schedule.Meets IopAudio.next (fun _ c => c.Quiet) (s.rpcHandler r) is :=
    Schedule.meets_of_forall (fun c hc _ => hquiet c hc) _
  exact Schedule.run_invariant (fun s c t hP hc hnext => hstep s c t hc hnext hP) hstart hmeets
    hrest

/-- The result is on its way, or in the last reply. -/
def Answers (result : ℤ) (s : State) : Prop :=
  s.rpc = .reply result ∨ s.rpc = .idle ∧ s.lastReply.result = result

theorem Answers.next {result : ℤ} {c : Choice} (h : Answers result s) (hquiet : c.Quiet)
    (hnext : next s c = some t) : Answers result t := by
  cases c with
  | request r => exact hquiet.elim
  | rpc =>
    obtain hpc | ⟨hpc, -⟩ := h
    · simp only [IopAudio.next, State.rpcStep, hpc] at hnext
      obtain rfl := Option.some.inj hnext
      exact Or.inr ⟨rfl, rfl⟩
    · simp [IopAudio.next, State.rpcStep, hpc] at hnext
  | play =>
    obtain ⟨-, -, hreply⟩ := playStep_controls hnext
    rw [Answers, (playFrame hnext).rpc, hreply]
    exact h
  | transfer =>
    obtain rfl := Option.some.inj hnext
    exact h

theorem Handles.result {r : Request} {is : List Choice} {result : ℤ} (h : Handles s r is u)
    (hpc : (s.rpcHandler r).rpc = .reply result) : u.lastReply.result = result := by
  have hanswers := h.invariant (P := Answers result)
    (fun _ _ _ hquiet hnext hanswers => hanswers.next hquiet hnext) (Or.inl hpc)
  obtain hreply | ⟨-, hresult⟩ := hanswers
  · rw [h.2.2] at hreply
    cases hreply
  · exact hresult

theorem Handles.settings {r : Request} {is : List Choice} (h : Handles s r is u) :
    u.settings = (s.rpcHandler r).settings :=
  h.invariant (P := fun u => u.settings = (s.rpcHandler r).settings)
    (fun _ _ _ hquiet hnext hsettings => (next_controls hquiet hnext).1.trans hsettings) rfl

theorem Handles.initialized {r : Request} {is : List Choice} (h : Handles s r is u)
    (hready : (s.rpcHandler r).Ready) : u.initialized := by
  have hready := h.invariant (P := State.Ready)
    (fun _ _ _ hquiet hnext hready => (next_ready hquiet hnext).2 hready) hready
  refine hready.resolve_right ?_
  rw [h.2.2]
  exact fun hpc => by cases hpc

/-- INIT succeeds or answers with a negative result. -/
theorem audioInitialize_result (o : InitOutcome) :
    (s.audioInitialize o).Ready ∨ ∃ result < 0, (s.audioInitialize o).rpc = .reply result := by
  simp only [State.audioInitialize]
  split_ifs with hinit
  · exact .inl (.inl hinit)
  · exact .inr ⟨-1, by decide, rfl⟩
  · exact .inr ⟨-2, by decide, rfl⟩
  · exact .inr ⟨-3, by decide, rfl⟩
  · exact .inr ⟨-4, by decide, rfl⟩
  · exact .inl (.inr rfl)

theorem Handles.init_ready {o : InitOutcome} {is : List Choice} (h : Handles s (.init o) is u)
    (hresult : 0 ≤ u.lastReply.result) : u.initialized := by
  obtain hready | ⟨result, hneg, hpc⟩ := audioInitialize_result (s := s) o
  · exact h.initialized hready
  · rw [h.result hpc] at hresult
    exact absurd hresult (Int.not_le.2 hneg)

theorem Handles.negative_keeps {r : Request} {is : List Choice} (h : Handles s r is u)
    (hneg : u.lastReply.result < 0) : u.settings = s.settings := by
  obtain hsettings | hpc := rpcHandler_settings s r
  · exact h.settings.trans hsettings
  · rw [h.result hpc] at hneg
    exact absurd hneg (Int.lt_irrefl 0)

/-- Once INIT has succeeded the service is initialized for good. -/
theorem run_initialized {is : List Choice} (hrun : Schedule.run next s is = some t)
    (hinit : s.initialized) : t.initialized := by
  have hstep (s : State) (c : Choice) (t : State) (hinit : s.initialized = true)
      (hnext : IopAudio.next s c = some t) : t.initialized = true := by
    cases c with
    | request r =>
      obtain ⟨-, rfl⟩ := next_request hnext
      cases r with
      | init o => exact ((congrArg State.initialized (if_pos hinit)).trans hinit)
      | _ => exact (RequestFrame.rpcHandler _ (by simp)).initialized.trans hinit
    | rpc =>
      obtain ⟨-, heq⟩ | ⟨-, heq⟩ := (rpcFrame hnext).initialized
      · exact heq.trans hinit
      · exact heq
    | play => exact (playFrame hnext).initialized.trans hinit
    | transfer =>
      obtain rfl := Option.some.inj hnext
      exact hinit
  exact Schedule.run_invariant_of_step hstep hinit hrun

/-- From a successful INIT on the controls are consistent in every state, whatever the
requests and their outcomes, and a request answered with a negative result leaves the
settings as they were. -/
theorem requests_consistent {spuVolume : ℕ} {o : InitOutcome} {is js : List Choice} {s₀ : State}
    (hinit : Handles (boot spuVolume) (.init o) is s₀) (hresult : 0 ≤ s₀.lastReply.result)
    (hrun : Schedule.run next s₀ js = some s) :
    Consistent s ∧ ∀ r ks u, Handles s r ks u → u.lastReply.result < 0 →
      u.settings = s.settings := by
  have hinitialized := run_initialized hrun (hinit.init_ready hresult)
  have hcontrols : ControlInv s :=
    ControlInv.of_run ((Schedule.run_append hinit.2.1).trans hrun)
  exact ⟨⟨hcontrols.valid, hcontrols.spuVolume (Or.inl hinitialized)⟩,
    fun r ks u hhandles hneg => hhandles.negative_keeps hneg⟩

/-- INIT. -/
def initRun : List Choice :=
  [.request (.init ⟨true, true, true, 0, 1, 0⟩), .rpc, .rpc]

/-- START, PAUSE and a new volume. -/
def pausedRun : List Choice :=
  [.request (.start 0), .rpc, .request .pause, .rpc, .request (.setVolume 4 100), .rpc]

instance : DecidablePred fun pc : RpcPc => pc = .idle
  | .idle => isTrue rfl
  | .threadStarted | .submitLoop _ _ | .submitSpace _ _ | .submitFull _ _ | .submitWait _ _
  | .submitCopy _ _ _ _ | .submitUnlock _ _ | .flushLock | .flushReset | .flushUnlock
  | .flushSignal | .reply _ => isFalse (by simp)

/-- A volume above the maximum is refused, and the pause keeps the SPU2 silent. -/
theorem requests_consistent_pausedRun : ∃ s u,
    (Schedule.run next (boot 9) (initRun ++ pausedRun) = some s ∧ s.volume = 100 ∧
      s.spuVolume = 0) ∧
    (Handles s (.setVolume 4 0x4000) [.rpc] u ∧ u.lastReply.result = -1) ∧
      Consistent s ∧ u.settings = s.settings := by
  have hruns : ((Schedule.run next (boot 9) initRun).bind fun s₀ =>
      (Schedule.run next s₀ pausedRun).bind fun s =>
        (Schedule.run next s [.request (.setVolume 4 0x4000), .rpc]).map fun u =>
          decide ((s₀.rpc = .idle ∧ s₀.lastReply.result = 0) ∧
            (s.volume = 100 ∧ s.spuVolume = 0) ∧ u.rpc = .idle ∧ u.lastReply.result = -1)) =
      some true := by decide +kernel
  obtain ⟨s₀, hs₀, hruns⟩ := Option.bind_eq_some_iff.1 hruns
  obtain ⟨s, hs, hruns⟩ := Option.bind_eq_some_iff.1 hruns
  obtain ⟨u, hu, hruns⟩ := Option.map_eq_some_iff.1 hruns
  obtain ⟨⟨hidle₀, hresult₀⟩, hspu, hidle, hresult⟩ := of_decide_eq_true hruns
  have hhandles : Handles s (.setVolume 4 0x4000) [.rpc] u :=
    ⟨by simp [Choice.Quiet], hu, hidle⟩
  have hinit : Handles (boot 9) (.init ⟨true, true, true, 0, 1, 0⟩) [.rpc, .rpc] s₀ :=
    ⟨by simp [Choice.Quiet], hs₀, hidle₀⟩
  obtain ⟨hconsistent, hkeeps⟩ := requests_consistent hinit (by rw [hresult₀]) hs
  exact ⟨s, u, ⟨(Schedule.run_append hs₀).trans hs, hspu⟩, ⟨hhandles, hresult⟩, hconsistent,
    hkeeps _ _ _ hhandles (by rw [hresult]; decide)⟩

end EF2SDK.IopAudio
