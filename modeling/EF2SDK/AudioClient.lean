import EF2SDK.IopAudioCommitted
import EF2SDK.StateSteps

/-!
# The client of the audio service

`src/ee/audio/iop_backend.c` : each call of the API sends a request over the SIF RPC and waits for
the reply, and `ef2_audio_device_submit_48k_stereo_s16` sends its frames in chunks. What a call to
`ef2_sif_call` comes to is told by a link (`Link`). It may fail before the request arrives or after
it, so a failed call may have been handled and may still be under way (`Answered`).

In every run of the service between the calls the frames the service has taken are told by the
calls' results alone (`Effect`, `client_log`) : a submit that returns a number has delivered all of
its frames, in order behind those of the submits before it, and one that fails a prefix of them,
which ends with a chunk. No chunk is delivered twice.
-/

set_option autoImplicit false

namespace EF2SDK.AudioClient

open IopAudio (Frame State Submit Reply Request Choice rpcMaxFrames)

/-! ## Calls -/

/-- A request as the client sends it. -/
inductive Message
  | init
  | submit (length : ℤ) (v : Submit)
  | start
  | stats
  | setVolume (length : ℤ) (value : ℕ)
  | pause
  | resume
  | stop
  | flush
  | setLatency (length : ℤ) (value : ℕ)

/-- What `ef2_sif_call` returns, and the reply buffer after it. -/
structure CallOutcome where
  result : ℤ
  reply : Reply

/-- What the call after `k` others comes to. -/
abbrev Link := ℕ → CallOutcome

/-- `g_audio_bound`. `sent` is for the statements : the requests sent so far. -/
structure Client where
  bound : Bool
  sent : List Message

/-- `ef2_sif_call`. -/
def sifCall (link : Link) (m : Message) : StateM Client CallOutcome := fun c =>
  (link c.sent.length, { c with sent := c.sent ++ [m] })

/-- `audio_rpc_simple`, and `audio_rpc_control` with its value in the request. -/
def audioRpc (link : Link) (m : Message) : StateM Client ℤ := do
  let o ← sifCall link m
  if o.result < 0 then pure o.result else pure o.reply.result

/-! ## The API -/

/-- What `ef2_sif_init`, the two tries of `ef2_iop_exec_module_buffer_ex` with what the module
started with, `ef2_iop_enable_module_buffer` and `ef2_sif_bind` answer. -/
structure InitAnswers where
  sifInit : ℤ
  exec : ℤ
  modres : ℤ
  enable : ℤ
  execAgain : ℤ
  modresAgain : ℤ
  bind : ℤ
  server : Bool

/-- The module is loaded, at the second try if loading had to be enabled : what it started with. -/
def loadModule (a : InitAnswers) : Except ℤ ℤ :=
  if a.exec < 0 then
    if a.enable < 0 then .error (-2000 + a.enable)
    else if a.execAgain < 0 then .error (-2500 + a.execAgain)
    else .ok a.modresAgain
  else .ok a.modres

/-- `ef2_audio_device_init`. -/
def deviceInit (link : Link) (a : InitAnswers) : StateM Client ℤ :=
  if a.sifInit < 0 then pure (-1000 + a.sifInit)
  else
    match loadModule a with
    | .error result => pure result
    | .ok modres =>
      if modres ≠ 0 then pure (-2800 - modres % 256)
      else if a.bind < 0 ∨ ¬a.server then pure (-3000 + if a.bind < 0 then a.bind else -9)
      else do
        modify fun c => { c with bound := true }
        let result ← audioRpc link .init
        if result < 0 then pure (-4000 + result) else pure 0

/-- `(int)frames`. -/
def asInt (frames : ℕ) : ℤ :=
  (UInt32.ofNat frames).toInt32.toInt

/-- The frames of the next chunk. -/
def chunkFrames (frames offset : ℕ) : ℕ :=
  if frames - offset > rpcMaxFrames then rpcMaxFrames else frames - offset

/-- The request for the chunk at `offset`. -/
def submitMessage (samples : ℕ → Frame) (frames offset : ℕ) : Message :=
  let count := chunkFrames frames offset
  .submit (4 + count * 2 * 2) ⟨count, fun i => samples (offset + i)⟩

theorem chunkFrames_pos {frames offset : ℕ} (h : offset < frames) :
    0 < chunkFrames frames offset := by
  rw [chunkFrames]
  split
  · decide
  · omega

theorem chunkFrames_le {frames offset : ℕ} :
    chunkFrames frames offset ≤ rpcMaxFrames ∧ chunkFrames frames offset ≤ frames - offset := by
  rw [chunkFrames]
  split <;> omega

/-- The loop of `ef2_audio_device_submit_48k_stereo_s16`. -/
def submitLoop (link : Link) (samples : ℕ → Frame) (frames offset : ℕ) : StateM Client ℤ :=
  if offset < frames then do
    let o ← sifCall link (submitMessage samples frames offset)
    if o.result < 0 then pure o.result
    else if o.reply.result < 0 then pure o.reply.result
    else submitLoop link samples frames (offset + chunkFrames frames offset)
  else pure (asInt frames)
termination_by frames - offset
decreasing_by
  have := chunkFrames_pos ‹offset < frames›
  omega

/-- A call that is made once the client is bound. -/
def whenBound (x : StateM Client ℤ) : StateM Client ℤ := do
  if ¬(← get).bound then pure (-1) else x

/-- `ef2_audio_device_submit_48k_stereo_s16`. -/
def deviceSubmit (link : Link) (samples : Option (ℕ → Frame)) (frames : ℕ) : StateM Client ℤ :=
  match samples with
  | none => pure (-1)
  | some samples => whenBound (submitLoop link samples frames 0)

/-- `EF2_AUDIO_VOLUME_MAX`. -/
def volumeMax : ℕ := 0x3FFF

/-- `ef2_audio_device_set_volume`. -/
def deviceSetVolume (link : Link) (volume : ℕ) : StateM Client ℤ :=
  if volume > volumeMax then pure (-1) else whenBound (audioRpc link (.setVolume 4 volume))

/-- `ef2_audio_device_set_latency_ms`. -/
def deviceSetLatencyMs (link : Link) (latencyMs : ℕ) : StateM Client ℤ :=
  if latencyMs = 0 then pure (-1) else whenBound (audioRpc link (.setLatency 4 latencyMs))

/-- `ef2_audio_device_get_stats`, up to the fields it copies from the reply. -/
def deviceGetStats (link : Link) (stats : Bool) : StateM Client ℤ :=
  if ¬stats then pure (-1)
  else whenBound do
    let result ← audioRpc link .stats
    if result < 0 then pure result else pure 0

/-- A call of the API. -/
inductive Op
  | init (a : InitAnswers)
  | submit (samples : Option (ℕ → Frame)) (frames : ℕ)
  | start
  | pause
  | resume
  | stop
  | flush
  | setVolume (volume : ℕ)
  | setLatencyMs (latencyMs : ℕ)
  | getStats (stats : Bool)

/-- What the call does. -/
def Op.run (link : Link) : Op → StateM Client ℤ
  | .init a => deviceInit link a
  | .submit samples frames => deviceSubmit link samples frames
  | .start => whenBound (audioRpc link .start)
  | .pause => whenBound (audioRpc link .pause)
  | .resume => whenBound (audioRpc link .resume)
  | .stop => whenBound (audioRpc link .stop)
  | .flush => whenBound (audioRpc link .flush)
  | .setVolume volume => deviceSetVolume link volume
  | .setLatencyMs latencyMs => deviceSetLatencyMs link latencyMs
  | .getStats stats => deviceGetStats link stats

/-! ## The service on the other side -/

/-- The message of a request, without what the service's driver and kernel answer. -/
def message : Request → Option Message
  | .init _ => some .init
  | .submit length v => some (.submit length v)
  | .start _ => some .start
  | .stats => some .stats
  | .setVolume length value => some (.setVolume length value)
  | .pause => some .pause
  | .resume => some .resume
  | .stop _ => some .stop
  | .flush => some .flush
  | .setLatency length value => some (.setLatency length value)
  | .other => none

/-- What a call comes to on the service's side. A call that fails was handled, perhaps not to
its end, or never arrived. -/
inductive Answered (s : State) (m : Message) (o : CallOutcome) (t : State) : Prop
  | answered (r : Request) (is : List Choice) (hm : message r = some m)
      (h : IopAudio.Handles s r is t) (ho : 0 ≤ o.result) (hreply : o.reply = t.lastReply)
  | lost (r : Request) (is : List Choice) (hm : message r = some m)
      (hquiet : ∀ c ∈ is, c.Quiet)
      (hrun : Schedule.run IopAudio.next s (.request r :: is) = some t) (ho : o.result < 0)
  | refused (hsame : t = s) (ho : o.result < 0)

/-- The service's run from the call after `k` others on : between the calls its threads and the
SPU2 move, and the calls come to what the link says. -/
inductive Exchanges (link : Link) : ℕ → State → List Message → State → Prop
  | done (k : ℕ) (s : State) : Exchanges link k s [] s
  | quiet {k : ℕ} {s t u : State} {ms : List Message} (c : Choice) (hquiet : c.Quiet)
      (hnext : IopAudio.next s c = some t) (rest : Exchanges link k t ms u) :
      Exchanges link k s ms u
  | call {k : ℕ} {s t u : State} {m : Message} {ms : List Message}
      (answered : Answered s m (link k) t) (rest : Exchanges link (k + 1) t ms u) :
      Exchanges link k s (m :: ms) u

/-! ## What the calls make of what the service has taken -/

/-- The first `n` of the samples. -/
def framesTo (samples : ℕ → Frame) (n : ℕ) : List Frame :=
  (List.range n).map samples

/-- What a call with this result has made of the frames taken since the last flush. A submit that
fails has delivered a prefix of its frames, which is all of them or ends with a chunk. -/
def Effect (op : Op) (result : ℤ) (before after : List Frame) : Prop :=
  match op with
  | .submit (some samples) frames =>
    ∃ n ≤ frames, after = before ++ framesTo samples n ∧
      if 0 ≤ result then n = frames ∧ result = asInt frames else n = frames ∨ rpcMaxFrames ∣ n
  | .flush => if 0 ≤ result then after = [] else after = [] ∨ after = before
  | _ => after = before

/-- The effects of calls one after the other. -/
inductive Effects : List (Op × ℤ) → List Frame → List Frame → Prop
  | nil (before : List Frame) : Effects [] before before
  | cons {op : Op} {result : ℤ} {rest : List (Op × ℤ)} {before between after : List Frame}
      (effect : Effect op result before between) (effects : Effects rest between after) :
      Effects ((op, result) :: rest) before after

variable {link : Link} {s t u : State} {k : ℕ} {ms ms' : List Message} {m : Message}
  {o : CallOutcome}

/-- The exchange of more requests is one exchange after the other. -/
theorem exchanges_append (h : Exchanges link k s (ms ++ ms') u) :
    ∃ t, Exchanges link k s ms t ∧ Exchanges link (k + ms.length) t ms' u := by
  induction ms generalizing k s with
  | nil => exact ⟨s, .done k s, h⟩
  | cons m ms ih =>
    generalize hall : m :: ms ++ ms' = all at h
    induction h with
    | done => cases hall
    | quiet c hquiet hnext _ ih' =>
      obtain ⟨t, hfirst, hrest⟩ := ih' ih hall
      exact ⟨t, .quiet c hquiet hnext hfirst, hrest⟩
    | call answered rest =>
      rw [List.cons_append] at hall
      obtain ⟨rfl, rfl⟩ := List.cons.inj hall
      obtain ⟨t, hfirst, hrest⟩ := ih rest
      refine ⟨t, .call answered hfirst, ?_⟩
      rwa [List.length_cons, Nat.add_comm ms.length, ← Nat.add_assoc]

theorem exchanges_nil (h : Exchanges link k s ms t) (hms : ms = []) (hw : s.rpc.Within) :
    t.committed = s.committed ∧ t.rpc.Within := by
  induction h with
  | done => exact ⟨rfl, hw⟩
  | quiet c hquiet hnext _ ih =>
    obtain ⟨heq, hw'⟩ := IopAudio.next_committed hw hquiet hnext
    obtain ⟨heq', hw''⟩ := ih hms hw'
    exact ⟨heq'.trans heq, hw''⟩
  | call => cases hms

/-- The first request of an exchange, behind steps that change nothing. -/
theorem exchanges_cons (h : Exchanges link k s (m :: ms) u) (hw : s.rpc.Within) :
    ∃ s' t, s'.committed = s.committed ∧ s'.rpc.Within ∧ Answered s' m (link k) t ∧
      Exchanges link (k + 1) t ms u := by
  generalize hall : m :: ms = all at h
  induction h with
  | done => cases hall
  | quiet c hquiet hnext _ ih =>
    obtain ⟨heq, hw'⟩ := IopAudio.next_committed hw hquiet hnext
    obtain ⟨s', t, heq', hrest⟩ := ih hw' hall
    exact ⟨s', t, heq'.trans heq, hrest⟩
  | call answered rest =>
    obtain ⟨rfl, rfl⟩ := List.cons.inj hall
    exact ⟨_, _, rfl, hw, answered, rest⟩

/-- A call either does nothing and fails, or the service takes what its request makes it take. -/
theorem Answered.committed (h : Answered s m o t) (hw : s.rpc.Within) :
    t.rpc.Within ∧
      (o.result < 0 ∧ t.committed = s.committed ∨
        ∃ r, message r = some m ∧ t.committed = r.take s s.committed ∧
          (0 ≤ o.result → ∃ is, IopAudio.Handles s r is t ∧ o.reply = t.lastReply)) := by
  cases h with
  | answered r is hm h ho hreply =>
    obtain ⟨heq, hw'⟩ := IopAudio.request_committed h.1 h.2.1
    exact ⟨hw', .inr ⟨r, hm, heq, fun _ => ⟨is, h, hreply⟩⟩⟩
  | lost r is hm hquiet hrun ho =>
    obtain ⟨heq, hw'⟩ := IopAudio.request_committed hquiet hrun
    exact ⟨hw', .inr ⟨r, hm, heq, fun hnonneg => absurd ho (Int.not_lt.2 hnonneg)⟩⟩
  | refused hsame ho =>
    subst hsame
    exact ⟨hw, .inl ⟨ho, rfl⟩⟩

/-! ## What a computation of the client does -/

/-- Along every exchange of the requests that the computation sends, its result and what the
service has taken before and after satisfy `P`. -/
def Does (link : Link) (x : StateM Client ℤ) (P : ℤ → List Frame → List Frame → Prop) : Prop :=
  ∀ c : Client, ∃ ms, (x c).2.sent = c.sent ++ ms ∧
    ∀ s t : State, s.rpc.Within → Exchanges link c.sent.length s ms t →
      P (x c).1 s.committed t.committed ∧ t.rpc.Within

namespace Does

variable {x : StateM Client ℤ} {P Q : ℤ → List Frame → List Frame → Prop}

theorem mono (h : Does link x P) (hPQ : ∀ r before after, P r before after → Q r before after) :
    Does link x Q := fun c => by
  obtain ⟨ms, hsent, hms⟩ := h c
  exact ⟨ms, hsent, fun s t hw he => ⟨hPQ _ _ _ (hms s t hw he).1, (hms s t hw he).2⟩⟩

theorem pure {r : ℤ} (h : ∀ before, P r before before) :
    Does link (Pure.pure r : StateM Client ℤ) P := fun c =>
  ⟨[], (List.append_nil _).symm, fun s t hw he => by
    obtain ⟨heq, hw'⟩ := exchanges_nil he rfl hw
    rw [heq]
    exact ⟨h _, hw'⟩⟩

theorem whenBound (h : Does link x P) (hunbound : ∀ before, P (-1) before before) :
    Does link (whenBound x) P := fun c => by
  by_cases hbound : c.bound
  · have hrun : AudioClient.whenBound x c = x c := by
      rw [AudioClient.whenBound, bind_apply, get_apply, ite_run, if_neg (not_not.2 hbound)]
    rw [hrun]
    exact h c
  · have hrun : AudioClient.whenBound x c = (Pure.pure (-1) : StateM Client ℤ) c := by
      rw [AudioClient.whenBound, bind_apply, get_apply, ite_run, if_pos hbound]
    rw [hrun]
    exact Does.pure hunbound c

/-- What the client notes for itself. -/
theorem bound (h : Does link x P) :
    Does link ((modify fun c => { c with bound := true }) >>= fun _ => x) P := fun c =>
  h { c with bound := true }

/-- The result is looked at once more. -/
theorem result {f : ℤ → StateM Client ℤ} (h : Does link x P)
    (hf : ∀ r, ∃ r', f r = Pure.pure r' ∧ ∀ before after, P r before after → Q r' before after) :
    Does link (x >>= f) Q := fun c => by
  obtain ⟨ms, hsent, hms⟩ := h c
  obtain ⟨r', hr', hPQ⟩ := hf (x c).1
  refine ⟨ms, ?_, fun s t hw he => ?_⟩
  · rw [bind_apply, hr']
    exact hsent
  · rw [bind_apply, hr']
    exact ⟨hPQ _ _ (hms s t hw he).1, (hms s t hw he).2⟩

/-- One call, and what the client does with its outcome. -/
theorem call {f : CallOutcome → StateM Client ℤ}
    (R : CallOutcome → List Frame → List Frame → Prop)
    (hcall : ∀ (s t : State) (o : CallOutcome), s.rpc.Within → Answered s m o t →
      R o s.committed t.committed)
    (hrest : ∀ o before, Does link (f o) fun r between after => R o before between →
      P r before after) : Does link (sifCall link m >>= f) P := fun c => by
  obtain ⟨ms, hsent, hms⟩ :=
    hrest (link c.sent.length) [] { c with sent := c.sent ++ [m] }
  refine ⟨m :: ms, ?_, fun s t hw he => ?_⟩
  · rw [List.append_cons]
    exact hsent
  · obtain ⟨s', u, heq, hw', hanswered, he'⟩ := exchanges_cons he hw
    obtain ⟨ms', hsent', hms'⟩ :=
      hrest (link c.sent.length) s'.committed { c with sent := c.sent ++ [m] }
    obtain rfl : ms' = ms := List.append_cancel_left (hsent'.symm.trans hsent)
    have hlength : (c.sent ++ [m]).length = c.sent.length + 1 := List.length_append
    have hall := hms' u t (hanswered.committed hw').1 (hlength ▸ he')
    rw [← heq]
    exact ⟨hall.1 (hcall s' u _ hw' hanswered), hall.2⟩

end Does

/-! ## The calls -/

/-- Requests that leave the frames taken alone. -/
def Message.Keeps : Message → Prop
  | .submit _ _ | .flush => False
  | _ => True

theorem take_of_keeps {r : Request} (hm : message r = some m) (hkeeps : m.Keeps)
    (before : List Frame) : r.take s before = before := by
  cases r <;> first
    | rfl
    | (obtain rfl := Option.some.inj hm; exact hkeeps.elim)

theorem does_audioRpc (hkeeps : m.Keeps) :
    Does link (audioRpc link m) fun _ before after => after = before := by
  refine Does.call (fun _ before after => after = before) ?_ ?_
  · intro s t o hw h
    obtain ⟨-, ⟨-, heq⟩ | ⟨r, hm, heq, -⟩⟩ := h.committed hw
    · exact heq
    · rw [heq, take_of_keeps hm hkeeps]
  · intro o before
    split <;> exact Does.pure fun _ h => h

theorem does_flush :
    Does link (audioRpc link .flush) fun result before after =>
      if 0 ≤ result then after = [] else after = [] ∨ after = before := by
  refine Does.call (fun o before after => o.result < 0 ∧ after = before ∨ after = []) ?_ ?_
  · intro s t o hw h
    obtain ⟨-, hkept | ⟨r, hm, heq, -⟩⟩ := h.committed hw
    · exact .inl hkept
    · refine .inr (heq.trans ?_)
      cases r <;> first
        | rfl
        | cases hm
  · intro o before
    split
    case isTrue hneg =>
      refine Does.pure fun between h => ?_
      rw [if_neg (Int.not_le.2 hneg)]
      exact h.symm.imp_right And.right
    case isFalse hnonneg =>
      refine Does.pure fun between h => ?_
      have hempty := h.resolve_left fun hkept => hnonneg hkept.1
      split
      · exact hempty
      · exact .inl hempty

/-- What a submit's chunk at `offset` may come to. -/
theorem answered_chunk {samples : ℕ → Frame} {frames offset : ℕ} (hw : s.rpc.Within)
    (h : Answered s (submitMessage samples frames offset) o t) :
    t.committed = s.committed ∧ (0 ≤ o.result → o.reply.result < 0) ∨
      t.committed = s.committed ++
          (List.range (chunkFrames frames offset)).map fun j => samples (offset + j) := by
  obtain ⟨-, ⟨hneg, heq⟩ | ⟨r, hm, heq, hreply⟩⟩ := h.committed hw
  · exact .inl ⟨heq, fun hnonneg => absurd hneg (Int.not_lt.2 hnonneg)⟩
  · cases r with
    | submit length v =>
      obtain ⟨rfl, rfl⟩ := Message.submit.inj (Option.some.inj hm)
      rw [Request.take] at heq
      split at heq
      · refine .inr (heq.trans ?_)
        simp [Submit.rest]
      case isFalse hrefused =>
        refine .inl ⟨heq, fun hnonneg => ?_⟩
        obtain ⟨is, hhandles, hlast⟩ := hreply hnonneg
        rw [hlast]
        exact hhandles.submit_refused hrefused
    | other => cases hm
    | _ => cases Option.some.inj hm

/-- What the loop of a submit does from an offset on. -/
def SubmitEffect (samples : ℕ → Frame) (frames offset : ℕ) (result : ℤ)
    (before after : List Frame) : Prop :=
  ∃ n, offset ≤ n ∧ n ≤ frames ∧
    after = before ++ (List.range (n - offset)).map (fun j => samples (offset + j)) ∧
    if 0 ≤ result then n = frames ∧ result = asInt frames else n = frames ∨ rpcMaxFrames ∣ n

theorem SubmitEffect.none {samples : ℕ → Frame} {frames offset : ℕ} {result : ℤ}
    (hle : offset ≤ frames) (hoffset : rpcMaxFrames ∣ offset ∨ offset = frames)
    (hneg : result < 0) (before : List Frame) :
    SubmitEffect samples frames offset result before before := by
  refine ⟨offset, Nat.le_refl _, hle, by simp, ?_⟩
  rw [if_neg (Int.not_le.2 hneg)]
  exact hoffset.symm

theorem SubmitEffect.chunk {samples : ℕ → Frame} {frames offset count : ℕ} {result : ℤ}
    {before after : List Frame}
    (h : SubmitEffect samples frames (offset + count) result
      (before ++ (List.range count).map fun j => samples (offset + j)) after) :
    SubmitEffect samples frames offset result before after := by
  obtain ⟨n, hle, hn, hafter, hresult⟩ := h
  refine ⟨n, by omega, hn, ?_, hresult⟩
  have hsplit : n - offset = count + (n - (offset + count)) := by omega
  rw [hafter, hsplit, List.range_add, List.map_append, List.map_map, List.append_assoc]
  congr 2
  apply List.map_congr_left
  intro j _
  simp [Nat.add_assoc]

theorem chunk_aligned {frames offset : ℕ} (hlt : offset < frames) (h : rpcMaxFrames ∣ offset) :
    rpcMaxFrames ∣ offset + chunkFrames frames offset ∨
      offset + chunkFrames frames offset = frames := by
  rw [chunkFrames]
  split
  · exact .inl (Nat.dvd_add h (Nat.dvd_refl _))
  · exact .inr (by omega)

theorem submitLoop_of_lt {samples : ℕ → Frame} {frames offset : ℕ} (h : offset < frames) :
    submitLoop link samples frames offset =
      sifCall link (submitMessage samples frames offset) >>= fun o =>
        if o.result < 0 then pure o.result
        else if o.reply.result < 0 then pure o.reply.result
        else submitLoop link samples frames (offset + chunkFrames frames offset) := by
  rw [submitLoop, if_pos h]

theorem does_submitLoop (samples : ℕ → Frame) (frames offset : ℕ) (hle : offset ≤ frames)
    (hoffset : rpcMaxFrames ∣ offset ∨ offset = frames) :
    Does link (submitLoop link samples frames offset) (SubmitEffect samples frames offset) := by
  induction hleft : frames - offset using Nat.strong_induction_on generalizing offset with
  | h left ih =>
    by_cases hlt : offset < frames
    · rw [submitLoop_of_lt hlt]
      refine Does.call (fun o before after =>
        after = before ∧ (0 ≤ o.result → o.reply.result < 0) ∨
          after = before ++
            (List.range (chunkFrames frames offset)).map fun j => samples (offset + j))
        (fun s t o hw h => answered_chunk hw h) ?_
      have hpos := chunkFrames_pos hlt
      have hchunk : chunkFrames frames offset ≤ frames - offset := chunkFrames_le.2
      have hnext := chunk_aligned hlt (hoffset.resolve_right (Nat.ne_of_lt hlt))
      have hrest := ih (frames - (offset + chunkFrames frames offset)) (by omega)
        (offset + chunkFrames frames offset) (by omega) hnext rfl
      -- a chunk that the service has taken is delivered, whether the client knows it or not
      have htaken (result : ℤ) (hneg : result < 0) (before between : List Frame)
          (h : between = before ∨ between = before ++
            (List.range (chunkFrames frames offset)).map fun j => samples (offset + j)) :
          SubmitEffect samples frames offset result before between := by
        rcases h with rfl | rfl
        · exact .none hle hoffset hneg _
        · exact (SubmitEffect.none (by omega) hnext hneg _).chunk
      intro o before
      split
      case isTrue hneg =>
        exact Does.pure fun between h => htaken _ hneg _ _ (h.imp_left And.left)
      case isFalse hnonneg =>
        split
        case isTrue hneg =>
          exact Does.pure fun between h => htaken _ hneg _ _ (h.imp_left And.left)
        case isFalse hreply =>
          refine hrest.mono fun result between after heffect h => ?_
          obtain rfl := h.resolve_left fun hkept => hreply (hkept.2 (Int.not_lt.1 hnonneg))
          exact heffect.chunk
    · obtain rfl : offset = frames := by omega
      rw [submitLoop, if_neg (Nat.lt_irrefl _)]
      refine Does.pure fun before => ⟨offset, Nat.le_refl _, Nat.le_refl _, by simp, ?_⟩
      split
      · exact ⟨rfl, rfl⟩
      · exact .inl rfl

theorem does_deviceInit (a : InitAnswers) :
    Does link (deviceInit link a) fun _ before after => after = before := by
  rw [deviceInit]
  split
  · exact Does.pure fun _ => rfl
  · split
    · exact Does.pure fun _ => rfl
    · split_ifs
      · exact Does.pure fun _ => rfl
      · exact Does.pure fun _ => rfl
      · exact Does.pure fun _ => rfl
      · refine ((does_audioRpc (m := .init) trivial).result fun r => ?_).bound
        by_cases hneg : r < 0
        · exact ⟨-4000 + r, if_pos hneg, fun _ _ h => h⟩
        · exact ⟨0, if_neg hneg, fun _ _ h => h⟩

theorem does_deviceSubmit (samples : ℕ → Frame) (frames : ℕ) :
    Does link (deviceSubmit link (some samples) frames)
      (Effect (.submit (some samples) frames)) := by
  have hloop : Does link (submitLoop link samples frames 0) (SubmitEffect samples frames 0) :=
    does_submitLoop samples frames 0 (Nat.zero_le _) (.inl (Nat.dvd_zero _))
  refine Does.whenBound (hloop.mono fun result before after h => ?_) fun before => ?_
  · obtain ⟨n, -, hn, hafter, hresult⟩ := h
    exact ⟨n, hn, by simpa [framesTo] using hafter, hresult⟩
  · exact ⟨0, Nat.zero_le _, by simp [framesTo], .inr (Nat.dvd_zero _)⟩

/-- Every call has its effect. -/
theorem does_run (link : Link) (op : Op) : Does link (op.run link) (Effect op) := by
  have hsimple (m : Message) (hkeeps : m.Keeps) :
      Does link (whenBound (audioRpc link m)) fun _ before after => after = before :=
    (does_audioRpc hkeeps).whenBound fun _ => rfl
  cases op with
  | init a => exact does_deviceInit a
  | submit samples frames =>
    cases samples with
    | none => exact Does.pure fun _ => rfl
    | some samples => exact does_deviceSubmit samples frames
  | flush => exact does_flush.whenBound fun _ => .inr rfl
  | setVolume volume =>
    rw [Op.run, deviceSetVolume]
    split
    · exact Does.pure fun _ => rfl
    · exact hsimple _ trivial
  | setLatencyMs latencyMs =>
    rw [Op.run, deviceSetLatencyMs]
    split
    · exact Does.pure fun _ => rfl
    · exact hsimple _ trivial
  | getStats stats =>
    rw [Op.run, deviceGetStats]
    split
    · exact Does.pure fun _ => rfl
    · refine ((does_audioRpc (m := .stats) trivial).result fun r => ?_).whenBound fun _ => rfl
      by_cases hneg : r < 0
      · exact ⟨r, if_pos hneg, fun _ _ h => h⟩
      · exact ⟨0, if_neg hneg, fun _ _ h => h⟩
  | _ => exact hsimple _ trivial

/-! ## Every history of calls -/

/-- The calls in order, with their results. -/
def runOps (link : Link) : List Op → StateM Client (List ℤ)
  | [] => pure []
  | op :: ops => do
    let result ← op.run link
    let results ← runOps link ops
    pure (result :: results)

theorem runOps_cons (op : Op) (ops : List Op) (c : Client) :
    runOps link (op :: ops) c =
      ((op.run link c).1 :: (runOps link ops (op.run link c).2).1,
        (runOps link ops (op.run link c).2).2) :=
  rfl

theorem runOps_effects (link : Link) (ops : List Op) (c : Client) :
    ∃ ms, (runOps link ops c).2.sent = c.sent ++ ms ∧
      ∀ s t : State, s.rpc.Within → Exchanges link c.sent.length s ms t →
        Effects (ops.zip (runOps link ops c).1) s.committed t.committed ∧ t.rpc.Within := by
  induction ops generalizing c with
  | nil =>
    refine ⟨[], (List.append_nil _).symm, fun s t hw he => ?_⟩
    obtain ⟨heq, hw'⟩ := exchanges_nil he rfl hw
    rw [heq]
    exact ⟨.nil _, hw'⟩
  | cons op ops ih =>
    obtain ⟨ms, hsent, hop⟩ := does_run link op c
    obtain ⟨ms', hsent', hops⟩ := ih (op.run link c).2
    rw [runOps_cons]
    refine ⟨ms ++ ms', by rw [hsent', hsent, List.append_assoc], fun s t hw he => ?_⟩
    obtain ⟨u, hfirst, hrest⟩ := exchanges_append he
    obtain ⟨heffect, hw'⟩ := hop s u hw hfirst
    rw [hsent, List.length_append] at hops
    obtain ⟨heffects, hw''⟩ := hops u t hw' hrest
    exact ⟨.cons heffect heffects, hw''⟩

/-- The service's queue is exact along an exchange too. -/
theorem exchanges_inv (h : Exchanges link k s ms t) (hinv : IopAudio.Inv s) : IopAudio.Inv t := by
  induction h with
  | done => exact hinv
  | quiet c _ hnext _ ih => exact ih (hinv.next c hnext)
  | call answered _ ih =>
    refine ih ?_
    have hstep (s : State) (c : Choice) (t : State) (hs : IopAudio.Inv s)
        (hnext : IopAudio.next s c = some t) : IopAudio.Inv t := hs.next c hnext
    cases answered with
    | answered r is _ h _ _ => exact Schedule.run_invariant_of_step hstep hinv h.2.1
    | lost r is _ _ hrun _ => exact Schedule.run_invariant_of_step hstep hinv hrun
    | refused hsame _ => exact hsame ▸ hinv

/-- In every history of calls, whatever the link does to each of them and however the service's
threads move in between : the frames taken since the last flush are what the results of the calls
say. Once the service is idle they are what it has played followed by its queue. -/
theorem client_log {link : Link} {ops : List Op} {c : Client} {spuVolume : ℕ} {t : State}
    (hc : c.sent = [])
    (h : Exchanges link 0 (IopAudio.boot spuVolume) (runOps link ops c).2.sent t) :
    Effects (ops.zip (runOps link ops c).1) [] t.committed ∧
      (t.rpc = .idle → t.ring.rendered ++ t.ring.contents = t.committed) := by
  obtain ⟨ms, hsent, heffects⟩ := runOps_effects link ops c
  rw [hc, List.nil_append] at hsent
  rw [hc] at heffects
  rw [hsent] at h
  refine ⟨(heffects (IopAudio.boot spuVolume) t trivial h).1, fun hidle => ?_⟩
  rw [State.committed_of_idle hidle]
  exact (exchanges_inv h (IopAudio.Inv.of_boot spuVolume)).wellFormed.fifo

/-- INIT succeeds, and the reply to the submit of three frames is lost. -/
def lossyLink : Link
  | 0 => ⟨0, ⟨0, 0, 4096, 0, 0, 86, 0x3FFF, 0⟩⟩
  | _ => ⟨-116, ⟨0, 0, 0, 0, 0, 0, 0, 0⟩⟩

/-- A left sample of its own for every frame. -/
def rampSamples (i : ℕ) : Frame :=
  ⟨.ofNat i, 7⟩

/-- INIT with every answer good, and a submit. -/
def lossyOps : List Op :=
  [.init ⟨0, 0, 0, 0, 0, 0, 0, true⟩, .submit (some rampSamples) 3]

theorem lossyOps_run : runOps lossyLink lossyOps ⟨false, []⟩ =
    ([0, -116], ⟨true, [.init, submitMessage rampSamples 3 0]⟩) := by
  have hinit : (Op.init ⟨0, 0, 0, 0, 0, 0, 0, true⟩).run lossyLink ⟨false, []⟩ =
      (0, ⟨true, [.init]⟩) := rfl
  have hsubmit : (Op.submit (some rampSamples) 3).run lossyLink ⟨true, [.init]⟩ =
      (-116, ⟨true, [.init, submitMessage rampSamples 3 0]⟩) := by
    rw [Op.run, deviceSubmit, submitLoop_of_lt (by decide)]
    rfl
  rw [lossyOps, runOps_cons, hinit, runOps_cons, hsubmit]
  rfl

theorem client_log_lossyLink : ∃ t : State, t.committed = framesTo rampSamples 3 ∧ t.rpc = .idle ∧
    Effects (lossyOps.zip [0, -116]) [] t.committed ∧
    t.ring.rendered ++ t.ring.contents = t.committed := by
  have hruns : ((Schedule.run IopAudio.next (IopAudio.boot 0)
      [.request (.init ⟨true, true, true, 0, 1, 0⟩), .rpc, .rpc]).bind fun s =>
        (Schedule.run IopAudio.next s
          (.request (.submit 16 ⟨3, fun i => rampSamples (0 + i)⟩) :: List.replicate 9 .rpc)).map
          fun t => decide (s.rpc = .idle ∧ s.lastReply = (lossyLink 0).reply ∧
            t.rpc = .idle ∧ t.committed = framesTo rampSamples 3)) = some true := by
    decide +kernel
  obtain ⟨s, hs, hruns⟩ := Option.bind_eq_some_iff.1 hruns
  obtain ⟨t, ht, hruns⟩ := Option.map_eq_some_iff.1 hruns
  obtain ⟨hidle, hreply, hidle', hcommitted⟩ := of_decide_eq_true hruns
  have hexchange : Exchanges lossyLink 0 (IopAudio.boot 0)
      (runOps lossyLink lossyOps ⟨false, []⟩).2.sent t := by
    rw [lossyOps_run]
    refine .call (.answered _ _ rfl ⟨?_, hs, hidle⟩ (by decide) hreply.symm)
      (.call (.lost _ _ rfl ?_ ht (by decide)) (.done _ _))
    · simp [Choice.Quiet]
    · simp [Choice.Quiet]
  obtain ⟨heffects, hlog⟩ := client_log rfl hexchange
  rw [lossyOps_run] at heffects
  exact ⟨t, hcommitted, hidle', heffects, hlog hidle'⟩

end EF2SDK.AudioClient
