import EF2SDK.SifRpc

/-!
# Which reply completes a call

`g_rpc_wait_done` says that some RPC_END has arrived, not which. A call that gave up on
its request (`-4`) leaves the request in flight, and the RPC_END that answers it later
completes whatever invocation waits by then : `staleReplyRun` is a call that returns `0`
on the reply to the call before it.

A call completes on its own reply in every run where no other RPC_END arrives between
the moment a call clears the flag and the arrival of its own RPC_END
(`OwnReplyFirst`). The invariant is `ReplyInv` : the flag is clear when the request is
sent, and once it is set the request of the waiting call has been answered. The
condition is tight : another reply in that window completes the call at its next poll
(`staleReply_completes`).
-/

set_option autoImplicit false

namespace EF2SDK.Sif

variable {s t : State}

/-- Whether the RPC_END of the request `reply` may arrive at this point : once a call has
cleared the flag, only after its own request is answered, or as its answer. -/
def ReplyAllowed (answered : List ℕ) (reply : Option ℕ) : Pc → Prop
  | .prepare ⟨_, .call _, _⟩ _ [] => False
  | .wait ⟨_, .call _, _⟩ seq _ => seq ∈ answered ∨ reply = some seq
  | _ => True

instance (answered : List ℕ) (reply : Option ℕ) :
    ∀ pc, Decidable (ReplyAllowed answered reply pc)
  | .prepare ⟨_, .call _, _⟩ _ [] => isFalse id
  | .wait ⟨_, .call _, _⟩ _ _ => inferInstanceAs (Decidable (_ ∨ _))
  | .prepare ⟨_, .call _, _⟩ _ (_ :: _) | .prepare ⟨_, .bind _, _⟩ _ _
  | .wait ⟨_, .bind _, _⟩ _ _ | .idle | .alloc _ | .check _ _ | .reject _ _ | .detach _
  | .returned _ _ _ => isTrue trivial

/-- No RPC_END other than the waiting call's own arrives after the flag is cleared and
before its own : a condition on which reply arrives in which state. -/
def OwnReplyFirst (s : State) : Choice → Prop
  | .rpcEnd i _ => ReplyAllowed s.answered (s.inFlight[i]?.map Request.seq) s.pc
  | _ => True

instance (s : State) : ∀ c, Decidable (OwnReplyFirst s c)
  | .rpcEnd _ _ => inferInstanceAs (Decidable (ReplyAllowed _ _ _))
  | .invoke _ _ | .cpu | .send _ => isTrue trivial

/-- What the flag says at the point a call stands at. Clearing it is the last statement
before the request is sent. -/
def FlagInv (done : Bool) (answered : List ℕ) : Pc → Prop
  | .prepare ⟨_, .call _, _⟩ _ todo =>
    todo.getLast? = some .clearDone ∨ todo = [] ∧ done = false
  | .wait ⟨_, .call _, _⟩ seq _ => done = true → seq ∈ answered
  | .check ⟨_, .call _, _⟩ _ => False
  | .returned (.call _) result seq => result = 0 → ∃ q, seq = some q ∧ q ∈ answered
  | _ => True

/-- The invariant of the flag. -/
def ReplyInv (s : State) : Prop :=
  FlagInv s.waitDone s.answered s.pc

theorem ReplyInv.of_initial (h : Initial s) : ReplyInv s := by
  rw [ReplyInv, h.pc]
  trivial

/-! ## The steps keep the invariant -/

theorem ReplyInv.enter {client : Option ClientId} {op : Op} : ReplyInv (s.enter client op) := by
  rcases client with _ | c <;> cases op with
  | bind sid => trivial
  | call args =>
    simp only [State.enter]
    try split
    all_goals simp [ReplyInv, FlagInv]

/-- The statement that clears the flag is still to come, or it was the last one. -/
theorem getLast?_exec {v : Invocation} {p : Fin rpcPacketCount} {st : Stmt} {todo : List Stmt}
    (h : (st :: todo).getLast? = some .clearDone) :
    todo.getLast? = some .clearDone ∨ todo = [] ∧ (s.exec v p st).waitDone = false := by
  cases todo with
  | nil =>
    obtain rfl : st = .clearDone := by simpa using h
    exact Or.inr ⟨rfl, rfl⟩
  | cons st' todo => exact Or.inl (by rwa [List.getLast?_cons_cons] at h)

theorem ReplyInv.waitFlag {v : Invocation} {seq outer : ℕ}
    (h : FlagInv s.waitDone s.answered (.wait v seq outer)) :
    ReplyInv (s.waitFlag v seq outer) := by
  obtain ⟨c, op, attempt⟩ := v
  unfold State.waitFlag
  cases op with
  | bind sid => split_ifs <;> trivial
  | call args =>
    split_ifs with hlt hdone
    · exact fun _ => ⟨seq, rfl, h hdone⟩
    · exact h
    · simp [ReplyInv, FlagInv]

theorem ReplyInv.bindRound {v : Invocation} {seq : ℕ}
    (h : FlagInv s.waitDone s.answered (.check v seq)) : ReplyInv (s.bindRound v seq) := by
  obtain ⟨c, op, attempt⟩ := v
  unfold State.bindRound
  cases op with
  | bind sid => split_ifs <;> trivial
  | call args => exact h.elim

theorem ReplyInv.returned_of_ne {op : Op} {result : ℤ} {seq : Option ℕ} (h : result ≠ 0) :
    ReplyInv { s with pc := .returned op result seq } := by
  cases op with
  | bind sid => trivial
  | call args => exact fun h0 => absurd h0 h

theorem ReplyInv.cpu (hs : ReplyInv s) (h : s.cpu = some t) : ReplyInv t := by
  rw [ReplyInv] at hs
  simp only [State.cpu] at h
  cases hpc : s.pc with
  | idle => simp [hpc] at h
  | returned op result seq => simp [hpc] at h
  | alloc v =>
    simp only [hpc, Option.some.injEq] at h
    subst h
    rcases s.rpcAllocPacket with _ | ⟨p, u⟩
    · exact ReplyInv.returned_of_ne (by decide)
    · obtain ⟨c, op, attempt⟩ := v
      cases op with
      | bind sid => trivial
      | call args => exact Or.inl rfl
  | prepare v p todo =>
    cases todo with
    | nil => simp [hpc] at h
    | cons st todo =>
      simp only [hpc, Option.some.injEq] at h
      rw [hpc] at hs
      subst h
      obtain ⟨c, op, attempt⟩ := v
      cases op with
      | bind sid => trivial
      | call args => exact getLast?_exec (hs.resolve_right (by simp))
  | wait v seq outer =>
    simp only [hpc, Option.some.injEq] at h
    rw [hpc] at hs
    exact h ▸ ReplyInv.waitFlag hs
  | check v seq =>
    simp only [hpc, Option.some.injEq] at h
    rw [hpc] at hs
    exact h ▸ ReplyInv.bindRound hs
  | reject v p =>
    simp only [hpc, Option.some.injEq] at h
    subst h
    trivial
  | detach v =>
    simp only [hpc, Option.some.injEq] at h
    exact h ▸ ReplyInv.returned_of_ne (by decide)

theorem ReplyInv.sendCmd {accepted : Bool} (hs : ReplyInv s) (h : s.sendCmd accepted = some t) :
    ReplyInv t := by
  unfold State.sendCmd at h
  split at h
  · next v p hpc =>
    obtain rfl := Option.some.inj h
    rw [ReplyInv, hpc] at hs
    cases accepted with
    | false => trivial
    | true =>
      obtain ⟨c, op, attempt⟩ := v
      cases op with
      | bind sid => trivial
      | call args =>
        have hdone : s.waitDone = false := (hs.resolve_left (by simp)).2
        intro h'
        simp [hdone] at h'
  · simp at h

@[simp] theorem endClient_pc (c : ClientId) (op : Op) (e : EndPacket) :
    (s.endClient c op e).pc = s.pc := by
  unfold State.endClient
  cases op <;> dsimp only <;> split <;> rfl

/-- The effect of an RPC_END on what the invariant reads. -/
theorem cmdRpcEnd_eq_some {i : ℕ} {e : EndPacket} (h : s.cmdRpcEnd i e = some t) :
    ∃ r, s.inFlight[i]? = some r ∧ t.waitDone = true ∧ t.answered = s.answered ++ [r.seq] ∧
      t.inFlight = s.inFlight.eraseIdx i ∧ t.pc = s.pc := by
  obtain ⟨r, hr, rfl⟩ := Option.map_eq_some_iff.1 h
  refine ⟨r, hr, rfl, rfl, rfl, ?_⟩
  cases r.content.client <;> simp

/-- An allowed reply sets the flag and keeps what it says. While a call prepares its
request any reply may set it : the statement that clears it is still to come. -/
theorem FlagInv.reply {done : Bool} {answered : List ℕ} {q : ℕ} {pc : Pc}
    (h : FlagInv done answered pc) (hok : ReplyAllowed answered (some q) pc) :
    FlagInv true (answered ++ [q]) pc := by
  cases pc with
  | idle => trivial
  | alloc v => trivial
  | prepare v p todo =>
    obtain ⟨c, op, attempt⟩ := v
    cases op with
    | bind sid => trivial
    | call args =>
      cases todo with
      | nil => exact hok.elim
      | cons st todo => exact Or.inl (h.resolve_right (by simp))
  | wait v seq outer =>
    obtain ⟨c, op, attempt⟩ := v
    cases op with
    | bind sid => trivial
    | call args =>
      intro _
      rcases hok with hok | hok
      · exact List.mem_append_left _ hok
      · obtain rfl := Option.some.inj hok
        simp
  | check v seq =>
    obtain ⟨c, op, attempt⟩ := v
    cases op with
    | bind sid => trivial
    | call args => exact h
  | reject v p => trivial
  | detach v => trivial
  | returned op result seq =>
    cases op with
    | bind sid => trivial
    | call args =>
      intro h0
      obtain ⟨r, hr, hmem⟩ := h h0
      exact ⟨r, hr, List.mem_append_left _ hmem⟩

theorem ReplyInv.cmdRpcEnd {i : ℕ} {e : EndPacket} (hs : ReplyInv s)
    (hok : OwnReplyFirst s (.rpcEnd i e)) (h : s.cmdRpcEnd i e = some t) : ReplyInv t := by
  obtain ⟨r, hr, hdone, hans, -, hpc⟩ := cmdRpcEnd_eq_some h
  simp only [OwnReplyFirst, hr, Option.map_some] at hok
  rw [ReplyInv, hpc, hdone, hans]
  exact hs.reply hok

theorem ReplyInv.next {c : Choice} (hs : ReplyInv s) (hok : OwnReplyFirst s c)
    (h : next s c = some t) : ReplyInv t := by
  cases c with
  | invoke client op =>
    simp only [Sif.next] at h
    split at h
    · exact Option.some.inj h ▸ ReplyInv.enter
    · exact Option.some.inj h ▸ ReplyInv.enter
    · simp at h
  | cpu => exact hs.cpu h
  | send accepted => exact hs.sendCmd h
  | rpcEnd i e => exact hs.cmdRpcEnd hok h

/-- In a run where no other reply overtakes the waiting invocation's own, `ef2_sif_call`
returns `0` only after the RPC_END of its own request arrived. -/
theorem sifCall_answered {s₀ : State} {is : List Choice} (h₀ : Initial s₀)
    (hok : Schedule.Meets Sif.next OwnReplyFirst s₀ is)
    (hrun : Schedule.run Sif.next s₀ is = some s) {args : CallArgs} {seq : Option ℕ}
    (hret : s.pc = .returned (.call args) 0 seq) : ∃ q, seq = some q ∧ q ∈ s.answered := by
  have hinv : ReplyInv s :=
    Schedule.run_invariant (fun _ _ _ hi hc hn => hi.next hc hn) (.of_initial h₀) hok hrun
  rw [ReplyInv, hret] at hinv
  exact hinv rfl

/-- Outside the condition : another reply while a call waits makes its next poll return
`0`, with the call's own request still unanswered. -/
theorem staleReply_completes {c : ClientId} {args : CallArgs} {attempt seq outer i : ℕ}
    {r : Request} (hpc : s.pc = .wait ⟨c, .call args, attempt⟩ seq outer)
    (houter : outer < waitFlagLimit) (hseq : seq ∉ s.answered) (hr : s.inFlight[i]? = some r)
    (hne : r.seq ≠ seq) (e : EndPacket) :
    ∃ t, Schedule.run Sif.next s [.rpcEnd i e, .cpu] = some t ∧
      t.pc = .returned (.call args) 0 (some seq) ∧ seq ∉ t.answered := by
  obtain ⟨u, hu⟩ : ∃ u, s.cmdRpcEnd i e = some u := by simp [State.cmdRpcEnd, hr]
  obtain ⟨r', hr', hdone, hans, -, hupc⟩ := cmdRpcEnd_eq_some hu
  obtain rfl : r = r' := Option.some.inj (hr.symm.trans hr')
  refine ⟨{ u with pc := .returned (.call args) 0 (some seq) }, ?_, rfl, ?_⟩
  · simp [Schedule.run_cons, Sif.next, hu, State.cpu, hupc, hpc, State.waitFlag, houter, hdone]
  · simp [hans, hseq, Ne.symm hne]

/-! ## Runs -/

/-- `ef2_sif_bind` on client `0`, answered at once with the server address `0x1000`. -/
def bindRun : List Choice :=
  .invoke (some 0) (.bind 0x80000003) :: List.replicate 7 .cpu ++
    [.send true, .rpcEnd 0 ⟨0x1000, 0x2000, 0⟩, .cpu, .cpu]

/-- The arguments of the IOP heap's allocation call. -/
def allocArgs : CallArgs := ⟨1, 4, 0x3000, 4⟩

/-- `ef2_sif_call` on client `0` up to its first poll. -/
def callRun : List Choice :=
  .invoke (some 0) (.call allocArgs) :: List.replicate 4 .cpu ++ [.send true]

/-- A bound client calls, and the reply to its call arrives while it waits. -/
theorem sifCall_answered_run : ∃ s, Schedule.run Sif.next boot
    (bindRun ++ callRun ++ [.rpcEnd 0 ⟨0, 0, 0⟩, .cpu]) = some s ∧
    ∃ q, some 1 = some q ∧ q ∈ s.answered := by
  obtain ⟨s, hrun, hret⟩ : ∃ s, Schedule.run Sif.next boot
      (bindRun ++ callRun ++ [.rpcEnd 0 ⟨0, 0, 0⟩, .cpu]) = some s ∧
      s.pc = .returned (.call allocArgs) 0 (some 1) :=
    Option.map_eq_some_iff.1 (by decide)
  exact ⟨s, hrun, sifCall_answered initial_boot (by decide) hrun hret⟩

/-- The polls of an invocation whose flag stays clear, up to the `-4` it returns. -/
theorem run_waitFlag_timeout {v : Invocation} {seq : ℕ} (hpc : s.pc = .wait v seq 0)
    (hdone : s.waitDone = false) :
    Schedule.run Sif.next s (List.replicate (waitFlagLimit + 1) .cpu) =
      some { s with pc := .returned v.op (-4) (some seq) } := by
  have hpoll : Schedule.run Sif.next { s with pc := .wait v seq 0 }
      (List.replicate waitFlagLimit .cpu) = some { s with pc := .wait v seq waitFlagLimit } :=
    Schedule.run_replicate (g := fun n => { s with pc := .wait v seq n }) fun n hn => by
      simp [Sif.next, State.cpu, State.waitFlag, hn, hdone]
  rw [← hpc] at hpoll
  rw [List.replicate_succ', Schedule.run_append hpoll, Schedule.run_singleton]
  simp [Sif.next, State.cpu, State.waitFlag]

/-- Replay a run that times out in its middle : the polls are skipped. -/
theorem run_timeout_append (s₀ : State) (is js : List Choice) (v : Invocation) (seq : ℕ)
    {P : State → Prop}
    (hwait : (Schedule.run Sif.next s₀ is).map (fun u => (u.pc, u.waitDone)) =
      some (.wait v seq 0, false))
    (hrest : ∃ s, ((Schedule.run Sif.next s₀ is).bind fun u =>
      Schedule.run Sif.next { u with pc := .returned v.op (-4) (some seq) } js) = some s ∧ P s) :
    ∃ s, Schedule.run Sif.next s₀ (is ++ List.replicate (waitFlagLimit + 1) .cpu ++ js) = some s ∧
      P s := by
  obtain ⟨u, hu, heq⟩ := Option.map_eq_some_iff.1 hwait
  obtain ⟨hpc, hdone⟩ := Prod.mk.inj heq
  obtain ⟨s, hs, hP⟩ := hrest
  rw [hu, Option.bind_some] at hs
  refine ⟨s, ?_, hP⟩
  rw [List.append_assoc, Schedule.run_append hu,
    Schedule.run_append (run_waitFlag_timeout hpc hdone), hs]

/-- A call gives up on request `1`, and the next call on the same client, request `2`,
is completed by the reply to request `1`. -/
def staleReplyRun : List Choice :=
  bindRun ++ callRun ++ List.replicate (waitFlagLimit + 1) .cpu ++
    (callRun ++ [.rpcEnd 0 ⟨0, 0, 0⟩, .cpu])

theorem staleReplyRun_returns : ∃ s, Schedule.run Sif.next boot staleReplyRun = some s ∧
    s.pc = .returned (.call allocArgs) 0 (some 2) ∧ 2 ∉ s.answered := by
  obtain ⟨s, hrun, heq⟩ := run_timeout_append boot (bindRun ++ callRun)
    (callRun ++ [.rpcEnd 0 ⟨0, 0, 0⟩, .cpu]) ⟨0, .call allocArgs, 0⟩ 1
    (P := fun s => (s.pc, s.answered) = (.returned (.call allocArgs) 0 (some 2), [0, 1]))
    (by decide) (Option.map_eq_some_iff.1 (by decide))
  obtain ⟨hpc, hans⟩ := Prod.mk.inj heq
  exact ⟨s, hrun, hpc, by simp [hans]⟩

end EF2SDK.Sif
