import EF2SDK.IopAudioBlocking

/-!
# The wake-ups of a waiting submit

A submit that finds the queue full releases the mutex and then waits on `g_space_sema`, so
a render block may take frames in between, before the semaphore has a waiter. The wake-up
is not lost : from the moment a block has taken frames the play thread is on its way to
`SignalSema(g_space_sema)` (`PlayPc.Signals`), and its signal leaves a token, also where it
finds the semaphore full. So once there is room, a submit at its wait has a token or gets
one from the play thread's next steps (`no_lost_wakeup`), however old the token is.
-/

set_option autoImplicit false

namespace EF2SDK.IopAudio

variable {s t : State}

/-- The play thread has taken frames and has still to signal it. -/
def PlayPc.Signals : PlayPc → Prop
  | .underrun take | .unlock take => take ≠ 0
  | .signalSpace => True
  | _ => False

instance : DecidablePred PlayPc.Signals
  | .underrun take => inferInstanceAs (Decidable (take ≠ 0))
  | .unlock take => inferInstanceAs (Decidable (take ≠ 0))
  | .signalSpace => isTrue trivial
  | .notStarted | .waitTransfer | .lock | .computeTake | .render _ _ => isFalse not_false

/-- There is a token for the waiting submit, or one to come. -/
def State.Awaited (s : State) : Prop :=
  s.spaceSema = some 1 ∨ s.play.Signals

/-- A submit that has found the queue full has found it so, and one that waits while there
is room is awaited. -/
def Woken (s : State) : Prop :=
  match s.rpc with
  | .submitFull _ _ => s.queueLimitFrames ≤ s.ring.queuedFrames
  | .submitWait _ _ => s.ring.queuedFrames < s.queueLimitFrames → s.Awaited
  | _ => True

theorem Woken.awaited (h : Woken s) (hwait : s.rpc.AtWait)
    (hroom : s.ring.queuedFrames < s.queueLimitFrames) : s.Awaited := by
  cases hpc : s.rpc with
  | submitWait v source =>
    rw [Woken, hpc] at h
    exact h hroom
  | _ =>
    rw [hpc] at hwait
    exact hwait.elim

/-! ## Steps of the RPC thread -/

theorem le_queued_of_space_eq_zero (h : s.space = 0) :
    s.queueLimitFrames ≤ s.ring.queuedFrames := by
  rw [State.space] at h
  split at h <;> omega

/-- The queue is full from the test on until the mutex is released. -/
theorem Woken.rpcStep (h : Woken s) (hstep : s.rpcStep = some t) : Woken t := by
  cases hpc : s.rpc with
  | submitSpace v source =>
    simp only [State.rpcStep, hpc] at hstep
    split at hstep
    case isTrue hspace =>
      obtain rfl := Option.some.inj hstep
      exact le_queued_of_space_eq_zero hspace
    case isFalse =>
      obtain rfl := Option.some.inj hstep
      trivial
  | submitFull v source =>
    rw [Woken, hpc] at h
    simp only [State.rpcStep, hpc] at hstep
    obtain rfl := Option.some.inj hstep
    exact fun hroom => absurd h (Nat.not_le.2 hroom)
  | idle => simp [State.rpcStep, hpc] at hstep
  | _ =>
    simp only [State.rpcStep, hpc] at hstep
    try split at hstep
    all_goals
      first
        | obtain rfl := Option.some.inj hstep
        | obtain ⟨m, hm, rfl⟩ := Option.map_eq_some_iff.1 hstep
      trivial

/-! ## Steps of the play thread -/

theorem Sema.signal_eq_some_one {m : Sema} (h : m.isSome) : m.signal = some 1 := by
  obtain ⟨n, rfl⟩ := Option.isSome_iff_exists.1 h
  exact congrArg some (Nat.min_eq_right (Nat.succ_pos n))

/-- A step of the play thread takes no token, and takes no frame without signalling it. -/
theorem playStep_awaited (hspace : s.spaceSema.isSome) (hstep : s.playStep = some t) :
    (s.Awaited → t.Awaited) ∧ (t.ring = s.ring ∨ t.Awaited) := by
  cases hpc : s.play with
  | notStarted => simp [State.playStep, hpc] at hstep
  | waitTransfer | lock =>
    simp only [State.playStep, hpc] at hstep
    obtain ⟨m, hm, rfl⟩ := Option.map_eq_some_iff.1 hstep
    refine ⟨fun hs => Or.inl (hs.resolve_right ?_), Or.inl rfl⟩
    rw [hpc]
    exact id
  | computeTake =>
    simp only [State.playStep, hpc] at hstep
    obtain rfl := Option.some.inj hstep
    refine ⟨fun hs => Or.inl (hs.resolve_right ?_), Or.inl rfl⟩
    rw [hpc]
    exact id
  | render take i =>
    simp only [State.playStep, hpc] at hstep
    have htoken (hs : s.Awaited) : s.spaceSema = some 1 := hs.resolve_right (by
      rw [hpc]
      exact id)
    split at hstep
    · obtain rfl := Option.some.inj hstep
      exact ⟨fun hs => Or.inl (htoken hs), Or.inl rfl⟩
    · obtain rfl := Option.some.inj hstep
      refine ⟨fun hs => Or.inl (htoken hs), ?_⟩
      by_cases htake : take = 0
      · exact Or.inl (if_neg (not_not.2 htake))
      · exact Or.inr (Or.inr htake)
  | underrun take =>
    simp only [State.playStep, hpc] at hstep
    obtain rfl := Option.some.inj hstep
    refine ⟨fun hs => hs.imp_right fun hsignals => ?_, Or.inl rfl⟩
    rwa [hpc] at hsignals
  | unlock take =>
    simp only [State.playStep, hpc] at hstep
    obtain rfl := Option.some.inj hstep
    refine ⟨fun hs => hs.imp_right fun hsignals => ?_, Or.inl rfl⟩
    rw [hpc] at hsignals
    change (if take ≠ 0 then PlayPc.signalSpace else .waitTransfer).Signals
    rw [if_pos (show take ≠ 0 from hsignals)]
    trivial
  | signalSpace =>
    simp only [State.playStep, hpc] at hstep
    obtain rfl := Option.some.inj hstep
    exact ⟨fun _ => Or.inl (Sema.signal_eq_some_one hspace), Or.inl rfl⟩

/-- The mutex keeps the play thread from the queue while a submit has it full. -/
theorem Woken.playStep (h : Woken s) (hinv : Inv s) (hstep : s.playStep = some t) : Woken t := by
  have hframe := playFrame hstep
  obtain ⟨hkept, hring⟩ := playStep_awaited (hinv.created hframe.running.1).2 hstep
  rw [Woken, hframe.rpc, hframe.limit]
  rw [Woken] at h
  cases hpc : s.rpc with
  | submitFull v source =>
    rw [hpc] at h
    have hholds : t.ring = s.ring := hframe.ring.resolve_right fun hplay => by
      have hle := hinv.holds_le hframe.running.1
      rw [hpc, hplay] at hle
      exact absurd hle (Nat.not_succ_le_self 1)
    rw [hholds]
    exact h
  | submitWait v source =>
    rw [hpc] at h
    intro hroom
    obtain hring | hawaited := hring
    · rw [hring] at hroom
      exact hkept (h hroom)
    · exact hawaited
  | _ => trivial

/-! ## Every run -/

theorem Woken.of_room {queued limit : ℕ} (h : s.rpc.Room queued limit) : Woken s := by
  rw [Woken]
  split
  case h_1 hpc => exact (hpc ▸ h : (RpcPc.submitFull _ _).Room queued limit).elim
  case h_2 hpc => exact (hpc ▸ h : (RpcPc.submitWait _ _).Room queued limit).elim
  case h_3 => trivial

/-- A request does not wait at once. -/
theorem Woken.request (r : Request) : Woken (s.rpcHandler r) := by
  cases r with
  | submit length v =>
    by_cases haccepts : s.Accepts length v
    · rw [rpcHandler_submit haccepts]
      trivial
    · obtain ⟨result, hanswer⟩ := rpcHandler_submit_of_not_accepts haccepts
      rw [hanswer]
      trivial
  | _ => exact .of_room (rpcHandler_room _ (by simp) 0 0)

theorem Woken.next {c : Choice} (h : Inv s ∧ Woken s) (hnext : next s c = some t) : Woken t := by
  cases c with
  | request r =>
    obtain ⟨-, rfl⟩ := next_request hnext
    exact Woken.request r
  | rpc => exact h.2.rpcStep hnext
  | play => exact h.2.playStep h.1 hnext
  | transfer =>
    obtain rfl := Option.some.inj hnext
    exact h.2

theorem Woken.of_run {spuVolume : ℕ} {is : List Choice}
    (hrun : Schedule.run IopAudio.next (boot spuVolume) is = some s) : Woken s :=
  have hstep (s : State) (c : Choice) (t : State) (h : Inv s ∧ Woken s)
      (hnext : IopAudio.next s c = some t) : Inv t ∧ Woken t :=
    ⟨h.1.next c hnext, Woken.next h hnext⟩
  (Schedule.run_invariant_of_step hstep ⟨Inv.of_boot spuVolume, trivial⟩ hrun).2

/-! ## The token arrives -/

/-- By `k` steps of its own the play thread leaves a token, the RPC thread where it is. -/
def Arrives (k : ℕ) (s : State) : Prop :=
  ∃ t, Schedule.run next s (List.replicate k .play) = some t ∧ t.rpc = s.rpc ∧
    t.spaceSema = some 1

theorem Arrives.of_step {k : ℕ} (h : Arrives k t) (hstep : s.playStep = some t) :
    Arrives (k + 1) s := by
  obtain ⟨u, hrun, hrpc, htoken⟩ := h
  have hnext : next s .play = some t := hstep
  refine ⟨u, ?_, hrpc.trans (playFrame hstep).rpc, htoken⟩
  rw [List.replicate_succ, Schedule.run_cons, hnext]
  exact hrun

theorem arrives_signalSpace (hpc : s.play = .signalSpace) (hspace : s.spaceSema.isSome) :
    Arrives 1 s :=
  Arrives.of_step (k := 0) (t := { s with
    spaceSema := s.spaceSema.signal
    play := .waitTransfer })
    ⟨_, rfl, rfl, Sema.signal_eq_some_one hspace⟩ (by simp only [State.playStep, hpc])

theorem arrives_unlock {take : ℕ} (hpc : s.play = .unlock take) (htake : take ≠ 0)
    (hspace : s.spaceSema.isSome) : Arrives 2 s :=
  (arrives_signalSpace (s := { s with ringMutex := s.ringMutex.signal, play := .signalSpace })
    rfl hspace).of_step (by simp only [State.playStep, hpc, if_pos htake])

/-- The play thread on its way to the signal gets there by at most three steps. -/
theorem PlayPc.Signals.arrives (h : s.play.Signals) (hspace : s.spaceSema.isSome) :
    ∃ k ≤ 3, Arrives k s := by
  cases hpc : s.play with
  | signalSpace => exact ⟨1, by decide, arrives_signalSpace hpc hspace⟩
  | unlock take =>
    rw [hpc] at h
    exact ⟨2, by decide, arrives_unlock hpc h hspace⟩
  | underrun take =>
    rw [hpc] at h
    obtain ⟨t, hstep⟩ : ∃ t, s.playStep = some t ∧ t.play = .unlock take ∧
        t.spaceSema = s.spaceSema := by
      simp only [State.playStep, hpc]
      exact ⟨_, rfl, rfl, rfl⟩
    exact ⟨3, by decide, (arrives_unlock hstep.2.1 h (hstep.2.2 ▸ hspace)).of_step hstep.1⟩
  | _ =>
    rw [hpc] at h
    exact h.elim

/-- In every reachable state in which a submit that found the queue full is at its wait
although there is room, the semaphore has a token or the play thread is about to signal it,
and then the token is there after at most three steps of the play thread. -/
theorem no_lost_wakeup {spuVolume : ℕ} {is : List Choice}
    (hrun : Schedule.run next (boot spuVolume) is = some s) (hwait : s.rpc.AtWait)
    (hroom : s.ring.queuedFrames < s.queueLimitFrames) :
    s.spaceSema = some 1 ∨ s.play.Signals ∧ ∃ k ≤ 3, Arrives k s := by
  refine ((Woken.of_run hrun).awaited hwait hroom).imp_right fun hsignals => ⟨hsignals, ?_⟩
  have hinv := Inv.of_run hrun
  refine hsignals.arrives (hinv.created ?_).2
  intro hns
  rw [hns] at hsignals
  exact hsignals

/-- The second submit finds the queue full, and a block takes the frames while it is at its
wait. -/
def takenRun : List Choice :=
  startedRun ++ .transfer :: List.replicate 516 .play

theorem no_lost_wakeup_takenRun : ∃ s, Schedule.run next (boot 0) takenRun = some s ∧
    s.rpc.AtWait ∧ s.ring.queuedFrames = 0 ∧ s.spaceSema = some 0 ∧ ∃ k ≤ 3, Arrives k s := by
  have hstate : (Schedule.run next (boot 0) takenRun).map (fun s =>
      decide (s.rpc.AtWait ∧ s.ring.queuedFrames = 0 ∧ s.ring.queuedFrames < s.queueLimitFrames ∧
        s.spaceSema = some 0)) = some true := by decide +kernel
  obtain ⟨s, hs, ht⟩ := Option.map_eq_some_iff.1 hstate
  obtain ⟨hwait, hqueued, hroom, hspace⟩ := of_decide_eq_true ht
  refine ⟨s, hs, hwait, hqueued, hspace, ?_⟩
  obtain htoken | ⟨-, harrives⟩ := no_lost_wakeup hs hwait hroom
  · rw [hspace] at htoken
    cases htoken
  · exact harrives

end EF2SDK.IopAudio
