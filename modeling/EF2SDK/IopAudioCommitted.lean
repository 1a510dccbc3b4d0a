import EF2SDK.IopAudioBlocking
import EF2SDK.IopAudioVolume

/-!
# What the audio service has taken

A submit stores its frames a few at a time, with waits in between. What the service has taken,
`State.committed`, counts the frames of the submit under way as well. So it changes with the
request and with nothing after it : no step of the two threads changes it (`next_committed`), an
accepted submit appends its frames, a flush empties it, and every other request leaves it alone
(`rpcHandler_committed`). A service that is idle has stored all that it has taken.
-/

set_option autoImplicit false

namespace EF2SDK.IopAudio

variable {s t : State}

/-- The frames of a submit from a frame on. -/
def Submit.rest (v : Submit) (source : ℕ) : List Frame :=
  (List.range (v.frames - source)).map fun j => v.samples (source + j)

theorem Submit.rest_add {v : Submit} {source count : ℕ} (h : source + count ≤ v.frames) :
    v.rest source =
      (List.range count).map (fun j => v.samples (source + j)) ++ v.rest (source + count) := by
  have hsplit : v.frames - source = count + (v.frames - (source + count)) := by omega
  simp only [Submit.rest]
  rw [hsplit, List.range_add, List.map_append, List.map_map]
  congr 1
  apply List.map_congr_left
  intro j _
  simp [Nat.add_assoc]

theorem Submit.rest_of_le {v : Submit} {source : ℕ} (h : v.frames ≤ source) :
    v.rest source = [] := by
  rw [Submit.rest, Nat.sub_eq_zero_of_le h]
  rfl

/-- The frames taken since the last flush : those in the queue, and those that the submit under
way has still to put there. -/
def State.committed (s : State) : List Frame :=
  match s.rpc with
  | .submitLoop v source | .submitSpace v source | .submitFull v source | .submitWait v source
  | .submitCopy v source _ _ | .submitUnlock v source => s.ring.stored ++ v.rest source
  | .flushLock | .flushReset => []
  | .idle | .threadStarted | .flushUnlock | .flushSignal | .reply _ => s.ring.stored

theorem State.committed_of_idle (h : s.rpc = .idle) : s.committed = s.ring.stored := by
  rw [State.committed, h]

/-- A submit copies no more than it has left. -/
def RpcPc.Within : RpcPc → Prop
  | .submitSpace v source => source < v.frames
  | .submitCopy v source count _ => source + count ≤ v.frames
  | _ => True

/-! ## Steps of the threads -/

theorem submitCount_le (v : Submit) (source : ℕ) : s.submitCount v source ≤ v.frames - source := by
  rw [State.submitCount]
  split <;> omega

theorem rpcStep_committed (h : s.rpc.Within) (hstep : s.rpcStep = some t) :
    t.committed = s.committed ∧ t.rpc.Within := by
  cases hpc : s.rpc with
  | idle => simp [State.rpcStep, hpc] at hstep
  | submitLoop v source =>
    simp only [State.rpcStep, hpc] at hstep
    split at hstep
    case isTrue hlt =>
      obtain ⟨m, -, rfl⟩ := Option.map_eq_some_iff.1 hstep
      exact ⟨by simp only [State.committed, hpc], hlt⟩
    case isFalse hge =>
      obtain rfl := Option.some.inj hstep
      refine ⟨?_, trivial⟩
      simp only [State.committed, State.answer, hpc]
      rw [Submit.rest_of_le (Nat.not_lt.1 hge), List.append_nil]
  | submitSpace v source =>
    rw [hpc] at h
    simp only [State.rpcStep, hpc] at hstep
    split at hstep
    · obtain rfl := Option.some.inj hstep
      exact ⟨by simp only [State.committed, hpc], trivial⟩
    · obtain rfl := Option.some.inj hstep
      refine ⟨by simp only [State.committed, hpc], ?_⟩
      have hle := submitCount_le (s := s) v source
      have hlt : source < v.frames := h
      show source + s.submitCount v source ≤ v.frames
      omega
  | submitCopy v source count i =>
    rw [hpc] at h
    simp only [State.rpcStep, hpc] at hstep
    split at hstep
    · obtain rfl := Option.some.inj hstep
      exact ⟨by simp only [State.committed, hpc, Ring.write], h⟩
    · obtain rfl := Option.some.inj hstep
      refine ⟨?_, trivial⟩
      simp only [State.committed, hpc, Ring.advance]
      rw [Submit.rest_add h, List.append_assoc]
  | _ =>
    simp only [State.rpcStep, hpc] at hstep
    first
      | obtain ⟨m, -, rfl⟩ := Option.map_eq_some_iff.1 hstep
      | obtain rfl := Option.some.inj hstep
    exact ⟨by simp only [State.committed, hpc, Ring.flush], trivial⟩

theorem playStep_stored (hstep : s.playStep = some t) : t.ring.stored = s.ring.stored := by
  cases hpc : s.play <;> simp only [State.playStep, hpc] at hstep
  case notStarted => cases hstep
  all_goals try split at hstep
  all_goals
    first
      | obtain ⟨m, hm, rfl⟩ := Option.map_eq_some_iff.1 hstep
      | obtain rfl := Option.some.inj hstep
    first
      | rfl
      | simp only [Ring.consume]
        split <;> rfl

/-- No step of the threads changes what the service has taken. -/
theorem next_committed {c : Choice} (h : s.rpc.Within) (hquiet : c.Quiet)
    (hnext : next s c = some t) : t.committed = s.committed ∧ t.rpc.Within := by
  cases c with
  | request r => exact hquiet.elim
  | rpc => exact rpcStep_committed h hnext
  | play =>
    have hrpc := (playFrame hnext).rpc
    rw [State.committed, hrpc, playStep_stored hnext]
    exact ⟨rfl, h⟩
  | transfer =>
    obtain rfl := Option.some.inj hnext
    exact ⟨rfl, h⟩

/-! ## Requests -/

/-- What a request makes of what the service has taken. -/
def Request.take (s : State) (before : List Frame) : Request → List Frame
  | .submit length v => if s.Accepts length v then before ++ v.rest 0 else before
  | .flush => []
  | _ => before

theorem rpcHandler_committed (hidle : s.rpc = .idle) (r : Request) :
    (s.rpcHandler r).committed = r.take s s.committed ∧ (s.rpcHandler r).rpc.Within := by
  rw [State.committed_of_idle hidle]
  cases r with
  | submit length v =>
    rw [Request.take]
    split
    case isTrue haccepts =>
      rw [rpcHandler_submit haccepts]
      exact ⟨rfl, trivial⟩
    case isFalse haccepts =>
      obtain ⟨result, hresult⟩ := rpcHandler_submit_of_not_accepts haccepts
      rw [hresult]
      exact ⟨rfl, trivial⟩
  | init o =>
    simp only [State.rpcHandler, State.audioInitialize]
    split_ifs <;> exact ⟨rfl, trivial⟩
  | start transferResult =>
    simp only [State.rpcHandler, State.audioStart]
    split_ifs <;> exact ⟨rfl, trivial⟩
  | setVolume length value =>
    simp only [State.rpcHandler, State.audioSetVolume]
    split_ifs <;> exact ⟨rfl, trivial⟩
  | pause =>
    simp only [State.rpcHandler, State.audioPause]
    split_ifs <;> exact ⟨rfl, trivial⟩
  | resume =>
    simp only [State.rpcHandler, State.audioResume]
    split_ifs <;> exact ⟨rfl, trivial⟩
  | stop result =>
    simp only [State.rpcHandler, State.audioStop]
    split_ifs <;> exact ⟨rfl, trivial⟩
  | setLatency length value =>
    simp only [State.rpcHandler, State.audioSetLatencyMs]
    split_ifs <;> exact ⟨rfl, trivial⟩
  | stats | flush | other => exact ⟨rfl, trivial⟩

theorem run_committed {is : List Choice} (h : s.rpc.Within) (hquiet : ∀ c ∈ is, c.Quiet)
    (hrun : Schedule.run next s is = some t) : t.committed = s.committed ∧ t.rpc.Within := by
  have hstep (u : State) (c : Choice) (w : State) (hu : u.committed = s.committed ∧ u.rpc.Within)
      (hc : c.Quiet) (hnext : next u c = some w) : w.committed = s.committed ∧ w.rpc.Within := by
    obtain ⟨heq, hwithin⟩ := next_committed hu.2 hc hnext
    exact ⟨heq.trans hu.1, hwithin⟩
  exact Schedule.run_invariant hstep ⟨rfl, h⟩
    (Schedule.meets_of_forall (fun c hc _ => hquiet c hc) s) hrun

/-- A request and the steps after it, with or without the reply. -/
theorem request_committed {r : Request} {is : List Choice} (hquiet : ∀ c ∈ is, c.Quiet)
    (hrun : Schedule.run next s (.request r :: is) = some t) :
    t.committed = r.take s s.committed ∧ t.rpc.Within := by
  obtain ⟨u, hnext, hrest⟩ := Schedule.run_cons_eq_some.1 hrun
  obtain ⟨hidle, rfl⟩ := next_request hnext
  obtain ⟨heq, hwithin⟩ := rpcHandler_committed hidle r
  obtain ⟨heq', hwithin'⟩ := run_committed hwithin hquiet hrest
  exact ⟨heq'.trans heq, hwithin'⟩

/-! ## The result of a submit -/

/-- The service works on the submit `v`, or has answered it with its number of frames. -/
def Serves (v : Submit) (s : State) : Prop :=
  match s.rpc with
  | .submitLoop w _ | .submitSpace w _ | .submitFull w _ | .submitWait w _ | .submitCopy w _ _ _
  | .submitUnlock w _ => w = v
  | .reply result => result = v.frames
  | .idle => s.lastReply.result = v.frames
  | _ => False

theorem Serves.next {v : Submit} {c : Choice} (h : Serves v s) (hquiet : c.Quiet)
    (hnext : next s c = some t) : Serves v t := by
  cases c with
  | request r => exact hquiet.elim
  | rpc =>
    have hstep : s.rpcStep = some t := hnext
    cases hpc : s.rpc with
    | idle => simp [State.rpcStep, hpc] at hstep
    | submitLoop w source =>
      simp only [Serves, hpc] at h
      subst h
      simp only [State.rpcStep, hpc] at hstep
      split at hstep
      · obtain ⟨m, -, rfl⟩ := Option.map_eq_some_iff.1 hstep
        rfl
      · obtain rfl := Option.some.inj hstep
        rfl
    | submitSpace w source =>
      simp only [Serves, hpc] at h
      simp only [State.rpcStep, hpc] at hstep
      split at hstep <;> obtain rfl := Option.some.inj hstep <;> exact h
    | submitCopy w source count i =>
      simp only [Serves, hpc] at h
      simp only [State.rpcStep, hpc] at hstep
      split at hstep <;> obtain rfl := Option.some.inj hstep <;> exact h
    | submitWait w source =>
      simp only [Serves, hpc] at h
      simp only [State.rpcStep, hpc] at hstep
      obtain ⟨m, -, rfl⟩ := Option.map_eq_some_iff.1 hstep
      exact h
    | submitFull | submitUnlock | reply =>
      simp only [Serves, hpc] at h
      simp only [State.rpcStep, hpc] at hstep
      obtain rfl := Option.some.inj hstep
      exact h
    | threadStarted | flushLock | flushReset | flushUnlock | flushSignal =>
      simp only [Serves, hpc] at h
  | play =>
    obtain ⟨-, -, hreply⟩ := playStep_controls hnext
    rw [Serves, (playFrame hnext).rpc, hreply]
    exact h
  | transfer =>
    obtain rfl := Option.some.inj hnext
    exact h

theorem rpcHandler_submit_negative {length : ℤ} {v : Submit} (h : ¬s.Accepts length v) :
    ∃ result < 0, (s.rpcHandler (.submit length v)).rpc = .reply result := by
  rw [State.rpcHandler]
  split_ifs with hlength hbytes
  · exact ⟨_, by decide, rfl⟩
  · exact ⟨_, by decide, rfl⟩
  · have hframes : v.frames ≤ rpcMaxFrames := by omega
    rw [submitBytes_eq hframes] at hbytes
    have hinit : ¬s.initialized := fun hinit => h ⟨hinit, by omega, hframes, by omega⟩
    rw [State.audioSubmit, if_pos hinit]
    exact ⟨_, by decide, rfl⟩

/-- Any other submit is answered with a negative result. -/
theorem Handles.submit_refused {length : ℤ} {v : Submit} {is : List Choice}
    (h : Handles s (.submit length v) is t) (hrefused : ¬s.Accepts length v) :
    t.lastReply.result < 0 := by
  obtain ⟨result, hneg, hpc⟩ := rpcHandler_submit_negative hrefused
  rw [h.result hpc]
  exact hneg

end EF2SDK.IopAudio
