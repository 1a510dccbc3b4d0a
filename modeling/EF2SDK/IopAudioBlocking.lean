import EF2SDK.IopAudioQueue

/-!
# Submits that wait for good

A submit that finds the queue full waits on `g_space_sema` for a render block to take
frames. While playback is paused or not started no block takes any, and the requests that
would make room, FLUSH and SET_LATENCY with their own signal of `g_space_sema`, RESUME and
START, are handled by the thread that waits : `fullRun` fills the queue before START and
stops the service.

A submit never waits in such a state when it fits : its frames and the queued ones are
within the limit (`Fits`). This is exact (`submit_not_stuck_iff`) : once the mutex is free, a
submit that does not fit gets stuck by its own steps alone.
-/

set_option autoImplicit false

namespace EF2SDK.IopAudio

variable {s t : State}

/-- At `WaitSema(g_space_sema)`. -/
def RpcPc.AtWait : RpcPc → Prop
  | .submitWait _ _ => True
  | _ => False

/-- Render blocks take frames. -/
def State.Playing (s : State) : Prop :=
  s.started ∧ ¬s.paused

/-- The RPC thread is blocked in `audio_submit`, with playback paused or not started. -/
def Stuck (s : State) : Prop :=
  s.rpc.AtWait ∧ s.spaceSema = some 0 ∧ ¬s.Playing

instance : DecidablePred RpcPc.AtWait
  | .submitWait _ _ => isTrue trivial
  | .idle | .threadStarted | .submitLoop _ _ | .submitSpace _ _ | .submitFull _ _
  | .submitCopy _ _ _ _ | .submitUnlock _ _ | .flushLock | .flushReset | .flushUnlock
  | .flushSignal | .reply _ => isFalse not_false

instance : DecidablePred State.Playing := fun s =>
  inferInstanceAs (Decidable (s.started = true ∧ ¬s.paused = true))

instance : DecidablePred Stuck := fun s =>
  inferInstanceAs (Decidable (s.rpc.AtWait ∧ s.spaceSema = some 0 ∧ ¬s.Playing))

/-- INIT, a limit of 512 frames, a submit of 512 frames, and a submit of one more. -/
def fullRun : List Choice :=
  (Choice.request (.init ⟨true, true, true, 0, 1, 0⟩) :: List.replicate 2 .rpc) ++
    (Choice.request (.setLatency 4 1) :: .rpc ::
    .request (.submit 2052 ⟨512, fun _ => silence⟩) :: List.replicate 518 .rpc) ++
    (Choice.request (.submit 8 ⟨1, fun _ => silence⟩) :: List.replicate 7 .rpc)

/-- The service is stuck before it was ever started. -/
theorem fullRun_stuck : ∃ s, Schedule.run next (boot 0) fullRun = some s ∧ Stuck s := by
  have hstuck : (Schedule.run next (boot 0) fullRun).map (fun s => decide (Stuck s)) =
      some true := by decide +kernel
  obtain ⟨s, hs, ht⟩ := Option.map_eq_some_iff.1 hstuck
  exact ⟨s, hs, of_decide_eq_true ht⟩

/-! ## Submits that fit -/

/-- The request reaches the loop of `audio_submit`. -/
def State.Accepts (s : State) (length : ℤ) (v : Submit) : Prop :=
  s.initialized ∧ 4 ≤ length ∧ v.frames ≤ rpcMaxFrames ∧ 4 + 4 * v.frames ≤ length.toNat

/-- A submit accepted while playback is paused or not started fits in the queue. -/
def Fits (s : State) : Choice → Prop
  | .request (.submit length v) => s.Accepts length v → ¬s.Playing → v.frames ≠ 0 →
      s.ring.queuedFrames + v.frames ≤ s.queueLimitFrames
  | _ => True

instance (s : State) (length : ℤ) (v : Submit) : Decidable (s.Accepts length v) :=
  inferInstanceAs (Decidable (s.initialized = true ∧ 4 ≤ length ∧ _))

instance (s : State) : ∀ c, Decidable (Fits s c)
  | .request (.submit length v) =>
    inferInstanceAs (Decidable (s.Accepts length v → ¬s.Playing → v.frames ≠ 0 →
      s.ring.queuedFrames + v.frames ≤ s.queueLimitFrames))
  | .rpc | .play | .transfer => isTrue trivial
  | .request (.init _) | .request (.start _) | .request .stats | .request (.setVolume _ _)
  | .request .pause | .request .resume | .request (.stop _) | .request .flush
  | .request (.setLatency _ _) | .request .other => isTrue trivial

/-- The frames a submit has left fit in the queue. -/
def Submit.Room (v : Submit) (source queued limit : ℕ) : Prop :=
  v.frames ≤ source ∨ queued + (v.frames - source) ≤ limit

/-- While playback is paused or not started, what is left of a submit fits : so it does not
find the queue full. -/
def RpcPc.Room (queued limit : ℕ) : RpcPc → Prop
  | .submitLoop v source | .submitUnlock v source => v.Room source queued limit
  | .submitSpace v source => source < v.frames ∧ v.Room source queued limit
  | .submitCopy v source count _ => source + count ≤ v.frames ∧ v.Room source queued limit
  | .submitFull _ _ | .submitWait _ _ => False
  | _ => True

/-- The invariant of the runs whose submits fit. -/
def HasRoom (s : State) : Prop :=
  ¬s.Playing → s.rpc.Room s.ring.queuedFrames s.queueLimitFrames

theorem HasRoom.not_stuck (h : HasRoom s) : ¬Stuck s := by
  rintro ⟨hwait, -, hplaying⟩
  have hroom := h hplaying
  cases hpc : s.rpc <;> simp_all [RpcPc.AtWait, RpcPc.Room]

theorem RpcPc.Room.mono {pc : RpcPc} {queued queued' limit : ℕ} (h : pc.Room queued limit)
    (hle : queued' ≤ queued) : pc.Room queued' limit := by
  cases pc <;> simp only [RpcPc.Room, Submit.Room] at h ⊢ <;> omega

theorem Ring.queuedFrames_consume_le {r : Ring} (take : ℕ) (block : ℕ → Frame) :
    (r.consume take block).queuedFrames ≤ r.queuedFrames := by
  rw [Ring.consume]
  split
  · exact Nat.sub_le _ _
  · exact Nat.le_refl _

/-- The play thread only takes frames. -/
theorem playStep_queuedFrames (hstep : s.playStep = some t) :
    t.ring.queuedFrames ≤ s.ring.queuedFrames := by
  cases hpc : s.play with
  | render take i =>
    simp only [State.playStep, hpc] at hstep
    split at hstep
    · obtain rfl := Option.some.inj hstep
      exact Nat.le_refl _
    · obtain rfl := Option.some.inj hstep
      exact Ring.queuedFrames_consume_le take s.render
  | computeTake =>
    simp only [State.playStep, hpc] at hstep
    obtain rfl := Option.some.inj hstep
    exact Nat.le_refl _
  | _ =>
    rw [((playFrame hstep).copied (by simp [hpc, PlayPc.Works])).1]

theorem HasRoom.playStep (h : HasRoom s) (hstep : s.playStep = some t) : HasRoom t := by
  have hframe := playFrame hstep
  intro hplaying
  rw [State.Playing, hframe.started, hframe.paused] at hplaying
  rw [hframe.rpc, hframe.limit]
  exact (h hplaying).mono (playStep_queuedFrames hstep)

/-- What is left of a submit fits at each of its steps. -/
theorem HasRoom.rpcStep (h : HasRoom s) (hstep : s.rpcStep = some t) : HasRoom t := by
  have hframe := rpcFrame hstep
  intro hplaying
  rw [State.Playing, hframe.started, hframe.paused] at hplaying
  have hroom := h hplaying
  rw [hframe.limit]
  cases hpc : s.rpc with
  | submitLoop v source =>
    rw [hpc] at hroom
    simp only [State.rpcStep, hpc] at hstep
    split at hstep
    case isTrue hlt =>
      obtain ⟨m, hm, rfl⟩ := Option.map_eq_some_iff.1 hstep
      exact ⟨hlt, hroom⟩
    case isFalse =>
      obtain rfl := Option.some.inj hstep
      trivial
  | submitSpace v source =>
    rw [hpc] at hroom
    obtain ⟨hlt, hfits⟩ := hroom
    have hspace : v.frames - source ≤ s.space := by
      rw [State.space]
      simp only [Submit.Room] at hfits
      split <;> omega
    simp only [State.rpcStep, hpc] at hstep
    rw [if_neg (by omega)] at hstep
    obtain rfl := Option.some.inj hstep
    refine ⟨?_, hfits⟩
    rw [State.submitCount, if_neg (by omega)]
    omega
  | submitCopy v source count i =>
    rw [hpc] at hroom
    simp only [State.rpcStep, hpc] at hstep
    split at hstep
    · obtain rfl := Option.some.inj hstep
      exact hroom
    · obtain rfl := Option.some.inj hstep
      obtain ⟨hle, hfits⟩ := hroom
      simp only [RpcPc.Room, Submit.Room, Ring.advance] at hfits ⊢
      omega
  | submitUnlock v source =>
    rw [hpc] at hroom
    simp only [State.rpcStep, hpc] at hstep
    obtain rfl := Option.some.inj hstep
    exact hroom
  | submitFull v source =>
    rw [hpc] at hroom
    exact hroom.elim
  | submitWait v source =>
    rw [hpc] at hroom
    exact hroom.elim
  | idle => simp [State.rpcStep, hpc] at hstep
  | _ =>
    simp only [State.rpcStep, hpc] at hstep
    first
      | obtain rfl := Option.some.inj hstep
      | obtain ⟨m, hm, rfl⟩ := Option.map_eq_some_iff.1 hstep
    trivial

/-! ## Requests -/

theorem submitBytes_eq {frames : ℕ} (h : frames ≤ rpcMaxFrames) :
    u32 (4 + u32 (frames * 2 * 2)) = 4 + 4 * frames := by
  have hmax : rpcMaxFrames < 2 ^ 20 := by decide
  rw [u32_of_lt (x := frames * 2 * 2) (by omega), u32_of_lt (by omega)]
  omega

theorem rpcHandler_submit {length : ℤ} {v : Submit} (h : s.Accepts length v) :
    s.rpcHandler (.submit length v) = { s with rpc := .submitLoop v 0 } := by
  obtain ⟨hinit, hlength, hframes, hbytes⟩ := h
  rw [State.rpcHandler, if_neg (by omega), submitBytes_eq hframes, if_neg (by omega),
    State.audioSubmit, if_neg (not_not.2 hinit), if_neg (by omega)]

theorem rpcHandler_submit_of_not_accepts {length : ℤ} {v : Submit} (h : ¬s.Accepts length v) :
    ∃ result, s.rpcHandler (.submit length v) = s.answer result := by
  rw [State.rpcHandler]
  split_ifs with hlength hbytes
  · exact ⟨_, rfl⟩
  · exact ⟨_, rfl⟩
  · have hframes : v.frames ≤ rpcMaxFrames := by omega
    rw [submitBytes_eq hframes] at hbytes
    have hinit : ¬s.initialized := fun hinit => h ⟨hinit, by omega, hframes, by omega⟩
    rw [State.audioSubmit, if_pos hinit]
    exact ⟨_, rfl⟩

/-- The other requests do not enter `audio_submit`. -/
theorem rpcHandler_room (r : Request) (hr : ∀ length v, r ≠ .submit length v) (queued limit : ℕ) :
    (s.rpcHandler r).rpc.Room queued limit := by
  cases r with
  | submit length v => exact absurd rfl (hr length v)
  | init o =>
    simp only [State.rpcHandler, State.audioInitialize]
    split_ifs <;> trivial
  | start transferResult =>
    simp only [State.rpcHandler, State.audioStart]
    split_ifs <;> trivial
  | pause =>
    simp only [State.rpcHandler, State.audioPause]
    split_ifs <;> trivial
  | resume =>
    simp only [State.rpcHandler, State.audioResume]
    split_ifs <;> trivial
  | stop result =>
    simp only [State.rpcHandler, State.audioStop]
    split_ifs <;> trivial
  | setVolume length value =>
    simp only [State.rpcHandler, State.audioSetVolume]
    split_ifs <;> trivial
  | setLatency length value =>
    simp only [State.rpcHandler, State.audioSetLatencyMs]
    split_ifs <;> trivial
  | stats => trivial
  | flush => trivial
  | other => trivial

theorem HasRoom.request {r : Request} (hfits : Fits s (.request r)) :
    HasRoom (s.rpcHandler r) := by
  intro hplaying
  cases r with
  | submit length v =>
    by_cases haccepts : s.Accepts length v
    · rw [rpcHandler_submit haccepts] at hplaying ⊢
      by_cases hframes : v.frames = 0
      · exact Or.inl hframes.le
      · exact Or.inr (hfits haccepts hplaying hframes)
    · obtain ⟨result, hanswer⟩ := rpcHandler_submit_of_not_accepts haccepts
      rw [hanswer]
      trivial
  | _ => exact rpcHandler_room _ (by simp) _ _

theorem HasRoom.next {c : Choice} (h : HasRoom s) (hfits : Fits s c)
    (hnext : next s c = some t) : HasRoom t := by
  cases c with
  | request r =>
    obtain ⟨-, rfl⟩ := next_request hnext
    exact HasRoom.request hfits
  | rpc => exact h.rpcStep hnext
  | play => exact h.playStep hnext
  | transfer =>
    obtain rfl := Option.some.inj hnext
    exact h

theorem HasRoom.of_idle (h : s.rpc = .idle) : HasRoom s := by
  intro _
  rw [h]
  trivial

/-- A run whose submits fit when they find playback paused or not started never reaches a
state in which the service waits for room that only another request could make. -/
theorem never_stuck {spuVolume : ℕ} {is : List Choice}
    (hfits : Schedule.Meets next Fits (boot spuVolume) is)
    (hrun : Schedule.run next (boot spuVolume) is = some s) : ¬Stuck s :=
  (Schedule.run_invariant (fun _ _ _ h hfits hnext => HasRoom.next h hfits hnext)
    (HasRoom.of_idle rfl) hfits hrun).not_stuck

/-- Started first, the same requests do not get stuck. -/
def startedRun : List Choice :=
  (Choice.request (.init ⟨true, true, true, 0, 1, 0⟩) :: List.replicate 2 .rpc) ++
    (Choice.request (.setLatency 4 1) :: .rpc :: .request (.start 0) :: .rpc ::
    .request (.submit 2052 ⟨512, fun _ => silence⟩) :: List.replicate 518 .rpc) ++
    (Choice.request (.submit 8 ⟨1, fun _ => silence⟩) :: List.replicate 7 .rpc)

theorem never_stuck_startedRun : ∃ s, Schedule.run next (boot 0) startedRun = some s ∧
    s.rpc.AtWait ∧ ¬Stuck s := by
  have hwait : (Schedule.run next (boot 0) startedRun).map (fun s => decide s.rpc.AtWait) =
      some true := by decide +kernel
  obtain ⟨s, hs, hw⟩ := Option.map_eq_some_iff.1 hwait
  exact ⟨s, hs, of_decide_eq_true hw, never_stuck (by decide +kernel) hs⟩

/-! ## A submit that does not fit -/

/-- The RPC thread gets stuck by its own steps. -/
def GetsStuck (s : State) : Prop :=
  ∃ k t, Schedule.run next s (List.replicate k .rpc) = some t ∧ Stuck t

theorem GetsStuck.of_rpcStep (hstep : s.rpcStep = some t) (h : GetsStuck t) : GetsStuck s := by
  obtain ⟨k, u, hrun, hstuck⟩ := h
  exact ⟨k + 1, u, Schedule.run_cons_eq_some.2 ⟨t, hstep, hrun⟩, hstuck⟩

/-- One look at a full queue : count an overrun, release the mutex and wait. -/
theorem GetsStuck.of_submitWait {v : Submit} {source : ℕ} (hpc : s.rpc = .submitSpace v source)
    (hmutex : s.ringMutex = some 0) (hfull : s.queueLimitFrames ≤ s.ring.queuedFrames)
    (h : GetsStuck { s with
      ringMutex := some 1
      overruns := u32 (s.overruns + 1)
      rpc := .submitWait v source }) : GetsStuck s := by
  have hspace : s.space = 0 := by rw [State.space, if_pos hfull]
  refine .of_rpcStep
    (t := { s with overruns := u32 (s.overruns + 1), rpc := .submitFull v source }) ?_
    (.of_rpcStep ?_ h)
  · simp [State.rpcStep, hpc, hspace]
  · simp [State.rpcStep, hmutex, Sema.signal]

/-- A submit with frames left, the mutex in hand and a full queue. Each token of
`g_space_sema` lets it look once more : the induction is on the tokens. -/
theorem getsStuck_of_full {v : Submit} {source n : ℕ} (hsource : source < v.frames)
    (hpc : s.rpc = .submitSpace v source) (hmutex : s.ringMutex = some 0)
    (hspace : s.spaceSema = some n) (hfull : s.queueLimitFrames ≤ s.ring.queuedFrames)
    (hplaying : ¬s.Playing) : GetsStuck s := by
  refine .of_submitWait hpc hmutex hfull ?_
  induction n generalizing s with
  | zero => exact ⟨0, _, rfl, trivial, hspace, hplaying⟩
  | succ n ih =>
    refine .of_rpcStep
      (t := { s with
        ringMutex := some 1
        overruns := u32 (s.overruns + 1)
        spaceSema := some n
        rpc := .submitLoop v source }) ?_ ?_
    · simp [State.rpcStep, hspace, Sema.wait]
    · refine .of_rpcStep
        (t := { s with
          ringMutex := some 0
          overruns := u32 (s.overruns + 1)
          spaceSema := some n
          rpc := .submitSpace v source }) ?_ ?_
      · simp [State.rpcStep, hsource, Sema.wait]
      · exact .of_submitWait rfl rfl hfull (ih rfl rfl rfl hfull hplaying)

/-- A submit copying what fills the queue, with more frames left after that. The induction is
on the frames to copy. -/
theorem getsStuck_of_copy {v : Submit} {source count i n : ℕ} (hsource : source + count < v.frames)
    (hpc : s.rpc = .submitCopy v source count i) (hmutex : s.ringMutex = some 0)
    (hspace : s.spaceSema = some n)
    (hfull : s.queueLimitFrames ≤ s.ring.queuedFrames + count) (hplaying : ¬s.Playing) :
    GetsStuck s := by
  induction hd : count - i generalizing s i with
  | zero =>
    refine .of_rpcStep
      (t := { s with
        ring := s.ring.advance count fun j => v.samples (source + j)
        rpc := .submitUnlock v (source + count) }) ?_ (.of_rpcStep
      (t := { s with
        ring := s.ring.advance count fun j => v.samples (source + j)
        ringMutex := some 1
        rpc := .submitLoop v (source + count) }) ?_ (.of_rpcStep
      (t := { s with
        ring := s.ring.advance count fun j => v.samples (source + j)
        ringMutex := some 0
        rpc := .submitSpace v (source + count) }) ?_ ?_))
    · simp only [State.rpcStep, hpc, if_neg (show ¬i < count by omega)]
    · simp [State.rpcStep, hmutex, Sema.signal]
    · simp [State.rpcStep, hsource, Sema.wait]
    · exact getsStuck_of_full hsource rfl rfl hspace hfull hplaying
  | succ d ih =>
    refine .of_rpcStep
      (t := { s with
        ring := s.ring.write i (v.samples (source + i))
        rpc := .submitCopy v source count (i + 1) }) ?_ ?_
    · simp only [State.rpcStep, hpc, if_pos (show i < count by omega)]
    · exact ih rfl hmutex hspace hfull hplaying (by omega)

/-- A submit that does not fit, from the state in which it is accepted. -/
theorem getsStuck_of_submitLoop {v : Submit} {n : ℕ} (hpc : s.rpc = .submitLoop v 0)
    (hmutex : s.ringMutex = some 1) (hspace : s.spaceSema = some n) (hframes : v.frames ≠ 0)
    (hover : s.queueLimitFrames < s.ring.queuedFrames + v.frames) (hplaying : ¬s.Playing) :
    GetsStuck s := by
  have hpos : 0 < v.frames := Nat.pos_of_ne_zero hframes
  refine .of_rpcStep (t := { s with ringMutex := some 0, rpc := .submitSpace v 0 }) ?_ ?_
  · simp [State.rpcStep, hpc, hpos, hmutex, Sema.wait]
  · by_cases hfull : s.queueLimitFrames ≤ s.ring.queuedFrames
    · exact getsStuck_of_full hpos rfl rfl hspace hfull hplaying
    · have hroom : s.space = s.queueLimitFrames - s.ring.queuedFrames := by
        rw [State.space, if_neg hfull]
      have hcount : s.submitCount v 0 = s.queueLimitFrames - s.ring.queuedFrames := by
        rw [State.submitCount, if_pos (by omega), hroom]
      refine .of_rpcStep
        (t := { s with
          ringMutex := some 0
          rpc := .submitCopy v 0 (s.submitCount v 0) 0 }) ?_ ?_
      · have hne : s.space ≠ 0 := by omega
        exact if_neg hne
      · exact getsStuck_of_copy (by omega) rfl rfl hspace (by dsimp only; omega) hplaying

/-- Which submits get stuck : with the mutex free and the RPC thread idle, a submit never
waits for good, whatever the threads do before the next request, exactly when it fits. -/
theorem submit_not_stuck_iff {length : ℤ} {v : Submit} (h : Inv s) (hidle : s.rpc = .idle)
    (hmutex : s.ringMutex = some 1) :
    (∀ is t, (∀ r, Choice.request r ∉ is) →
      Schedule.run next s (.request (.submit length v) :: is) = some t → ¬Stuck t) ↔
      Fits s (.request (.submit length v)) := by
  have hnext : next s (.request (.submit length v)) = some (s.rpcHandler (.submit length v)) := by
    rw [next, hidle]
  constructor
  · intro hnever haccepts hplaying hframes
    by_contra hover
    rw [rpcHandler_submit haccepts] at hnext
    have hcreated := h.created (h.initialized haccepts.1)
    obtain ⟨n, hspace⟩ := Option.isSome_iff_exists.1 hcreated.2
    obtain ⟨k, t, hrun, hstuck⟩ := getsStuck_of_submitLoop (s := { s with rpc := .submitLoop v 0 })
      rfl hmutex hspace hframes (by dsimp only; omega) hplaying
    refine hnever (List.replicate k .rpc) t ?_ ?_ hstuck
    · intro r hmem
      simpa using List.eq_of_mem_replicate hmem
    · exact Schedule.run_cons_eq_some.2 ⟨_, hnext, hrun⟩
  · intro hfits is t hquiet hrun
    obtain ⟨u, hu, hrest⟩ := Schedule.run_cons_eq_some.1 hrun
    have hmeets : Schedule.Meets next Fits u is := by
      apply Schedule.meets_of_forall
      intro c hc w
      cases c with
      | request r => exact absurd hc (hquiet r)
      | _ => trivial
    exact (Schedule.run_invariant (fun _ _ _ h hfits hnext => HasRoom.next h hfits hnext)
      ((HasRoom.of_idle hidle).next hfits hu) hmeets hrest).not_stuck

end EF2SDK.IopAudio
