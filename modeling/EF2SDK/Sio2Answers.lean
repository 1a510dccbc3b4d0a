import EF2SDK.Sio2

/-!
# The answers of the SIO2

A transfer that timed out can still be answered. `OwnAnswer` says of a run that no such answer
comes between the last poll of a later transfer's drain and the end of its reads. Then the
semaphore says of a waiting transfer that its own answer is there (`Owns`), and what it reads is
that answer (`transfer_exact`). An answer that comes earlier is drained. One that comes while the
transfer waits ends its wait, though the device has not answered it (`lateAnswer_taken`).

In a run in which no transfer times out the device owes an answer only to the transfer that waits
(`Awaited`), so that every call gets its own (`transfer_served`).
-/

set_option autoImplicit false

namespace EF2SDK.Sio2

open IopPad (Command)

variable {n : ℕ} {s t : State n}

/-! ## Whose answer is there -/

/-- Whether an answer may come at this point of a thread. -/
def AnswerAllowed (id : ℕ) : Pc → Prop
  | .program _ | .feed _ _ | .collect _ _ | .read _ _ _ => False
  | .poll _ own _ => id = own
  | .idle | .acquire _ | .drain _ | .release _ _ | .returned _ _ => True

instance (id : ℕ) : ∀ pc, Decidable (AnswerAllowed id pc)
  | .program _ | .feed _ _ | .collect _ _ | .read _ _ _ => isFalse fun h => h
  | .poll _ _ _ => inferInstanceAs (Decidable (_ = _))
  | .idle | .acquire _ | .drain _ | .release _ _ | .returned _ _ => isTrue trivial

/-- No answer but its own comes after a transfer's drain and before the end of its reads. -/
def OwnAnswer (s : State n) : Choice n → Prop
  | .answer id _ => ∀ i, AnswerAllowed id (s.threads i)
  | .call _ _ | .thread _ => True

instance (s : State n) : ∀ c, Decidable (OwnAnswer s c)
  | .answer id _ => inferInstanceAs (Decidable (∀ i, AnswerAllowed id (s.threads i)))
  | .call _ _ | .thread _ => isTrue trivial

/-- The reply is the device's answer to a transfer that the command was loaded into. -/
def Answered (started : List Setup) (answered : List (ℕ × Answer)) (c : Command) (r : Reply) :
    Prop :=
  ∃ id a, started[id]? = some (loaded c c.size) ∧ (id, a) ∈ answered ∧ r = a.reply c.size

/-- What the semaphore and the receive registers say at the point where a thread stands. -/
def Owns (s : State n) : Pc → Prop
  | .program _ | .feed _ _ => s.irqSema = 0
  | .poll _ id _ => 0 < s.irqSema → (id, s.recv) ∈ s.answered
  | .collect _ id => (id, s.recv) ∈ s.answered
  | .read _ id r => ∃ a, (id, a) ∈ s.answered ∧ r = a.reply r.output.length ∧
      s.recv.bytes = fun k => a.bytes (r.output.length + k)
  | .release c (.ok r) | .returned c (.ok r) => Answered s.started s.answered c r
  | .idle | .acquire _ | .drain _ | .release _ (.error _) | .returned _ (.error _) => True

theorem Answered.mono {started started' : List Setup} {answered answered' : List (ℕ × Answer)}
    {c : Command} {r : Reply} (h : Answered started answered c r)
    (hstarted : started <+: started') (hanswered : answered <+: answered') :
    Answered started' answered' c r := by
  obtain ⟨id, a, hid, ha, hr⟩ := h
  exact ⟨id, a, getElem?_of_prefix hstarted hid, hanswered.subset ha, hr⟩

/-- Outside, only what was returned counts. -/
theorem Owns.outside {pc : Pc} (h : Owns s pc) (hout : ¬pc.Inside)
    (hstarted : s.started <+: t.started) (hanswered : s.answered <+: t.answered) : Owns t pc := by
  cases pc with
  | idle | acquire c => trivial
  | returned c r =>
    cases r with
    | error e => trivial
    | ok r => exact Answered.mono h hstarted hanswered
  | drain c | program c => exact absurd trivial hout
  | feed c k => exact absurd trivial hout
  | poll c id k => exact absurd trivial hout
  | collect c id => exact absurd trivial hout
  | read c id r => exact absurd trivial hout
  | release c r => exact absurd trivial hout

theorem Owns.mono {pc : Pc} (h : Owns s pc) (hsema : t.irqSema = s.irqSema)
    (hrecv : t.recv = s.recv) (hstarted : s.started <+: t.started)
    (hanswered : s.answered <+: t.answered) : Owns t pc := by
  cases pc with
  | idle | acquire c | drain c => trivial
  | program c => exact hsema.trans h
  | feed c k => exact hsema.trans h
  | poll c id k =>
    intro hpos
    rw [hrecv]
    exact hanswered.subset (h (hsema ▸ hpos))
  | collect c id =>
    rw [Owns, hrecv]
    exact hanswered.subset h
  | read c id r =>
    obtain ⟨a, ha, hr, hbytes⟩ := h
    exact ⟨a, hanswered.subset ha, hr, hrecv ▸ hbytes⟩
  | release c r | returned c r =>
    cases r with
    | error e => trivial
    | ok r => exact Answered.mono h hstarted hanswered

/-- The invariant of the runs whose answers are in time. -/
structure Exact (s : State n) : Prop extends Whole s where
  owns : ∀ i, Owns s (s.threads i)

theorem Exact.of_boot : Exact (boot n) where
  toWhole := .of_boot
  owns _ := trivial

/-- A step of one thread, beside which the others are outside or see no change. -/
theorem Exact.goto (h : Exact s) {i : Fin n} {u : State n} {pc : Pc}
    (hwhole : Whole (u.goto i pc)) (hthreads : u.threads = s.threads) (hpc : Owns (u.goto i pc) pc)
    (hothers : (s.threads i).Inside ∨ u.irqSema = s.irqSema ∧ u.recv = s.recv)
    (hstarted : s.started <+: u.started) (hanswered : s.answered <+: u.answered) :
    Exact (u.goto i pc) where
  toWhole := hwhole
  owns j := by
    by_cases hj : j = i
    · rw [hj, goto_self]
      exact hpc
    · rw [goto_of_ne u hj, hthreads]
      rcases hothers with hi | ⟨hsema, hrecv⟩
      · exact (h.owns j).outside (h.guards.outside hi hj) hstarted hanswered
      · exact (h.owns j).mono hsema hrecv hstarted hanswered

/-- A step of the thread inside. -/
theorem Exact.inside (h : Exact s) {i : Fin n} {u : State n} {pc : Pc}
    (hwhole : Whole (u.goto i pc)) (hin : (s.threads i).Inside) (hthreads : u.threads = s.threads)
    (hstarted : s.started <+: u.started) (hanswered : u.answered = s.answered)
    (hpc : Owns (u.goto i pc) pc) : Exact (u.goto i pc) :=
  h.goto hwhole hthreads hpc (Or.inl hin) hstarted (hanswered ▸ List.prefix_rfl)

theorem Exact.call (h : Exact s) {i : Fin n} {c : Command} (hnext : s.call i c = some t) :
    Exact t := by
  have hwhole := h.toWhole.call hnext
  rw [State.call] at hnext
  split at hnext
  case h_3 => cases hnext
  all_goals
    obtain rfl := Option.some.inj hnext
    refine h.goto hwhole rfl ?_ (Or.inr ⟨rfl, rfl⟩) List.prefix_rfl List.prefix_rfl
    split <;> trivial

/-- A byte more of an answer. -/
theorem reply_push (a : Answer) (k : ℕ) :
    { a.reply k with output := (a.reply k).output ++ [a.bytes k] } = a.reply (k + 1) := by
  simp only [Answer.reply, List.range_succ, List.map_append, List.map_singleton]

theorem length_reply (a : Answer) (k : ℕ) : (a.reply k).output.length = k := by
  rw [Answer.reply, List.length_map, List.length_range]

theorem Exact.thread (h : Exact s) {i : Fin n} (hnext : s.thread i = some t) : Exact t := by
  have hwhole := h.toWhole.thread hnext
  obtain ⟨u, pc, hstatement, rfl⟩ := thread_cases hnext
  have hloads := h.loads i
  have howns := h.owns i
  generalize hpc : s.threads i = pc₀ at hstatement hloads howns
  cases hstatement with
  | acquire =>
    exact h.goto hwhole rfl trivial (Or.inr ⟨rfl, rfl⟩) List.prefix_rfl List.prefix_rfl
  | discard | expire => exact h.inside hwhole (hpc ▸ trivial) rfl List.prefix_rfl rfl trivial
  | drained hzero =>
    exact h.inside hwhole (hpc ▸ trivial) rfl List.prefix_rfl rfl (Nat.eq_zero_of_not_pos hzero)
  | program | feed => exact h.inside hwhole (hpc ▸ trivial) rfl List.prefix_rfl rfl howns
  | start =>
    exact h.inside hwhole (hpc ▸ trivial) rfl (List.prefix_append _ _) rfl
      fun hpos => absurd howns (Nat.ne_of_gt hpos)
  | completed hpos =>
    exact h.inside hwhole (hpc ▸ trivial) rfl List.prefix_rfl rfl (howns hpos)
  | wait hlt hzero =>
    exact h.inside hwhole (hpc ▸ trivial) rfl List.prefix_rfl rfl fun hpos => absurd hpos hzero
  | collect =>
    refine h.inside hwhole (hpc ▸ trivial) rfl List.prefix_rfl rfl ⟨s.recv, howns, rfl, ?_⟩
    funext k
    rw [length_reply, Nat.zero_add]
    rfl
  | @read c id r hlt =>
    obtain ⟨a, ha, hr, hbytes⟩ := howns
    have hnow : s.recv.bytes 0 = a.bytes r.output.length := congrFun hbytes 0
    have hreply : { r with output := r.output ++ [s.recv.bytes 0] } =
        a.reply (r.output.length + 1) := by
      rw [hnow, ← reply_push, ← hr]
    refine h.inside hwhole (hpc ▸ trivial) rfl List.prefix_rfl rfl ⟨a, ha, ?_, ?_⟩
    · rw [hreply, length_reply]
    · funext k
      rw [hreply, length_reply]
      exact (congrFun hbytes (k + 1)).trans (congrArg a.bytes (by omega))
  | @finish c id r hge =>
    obtain ⟨-, hstarted, hle⟩ := hloads
    obtain ⟨a, ha, hr, -⟩ := howns
    have hlength : r.output.length = c.size := Nat.le_antisymm hle (Nat.not_lt.1 hge)
    exact h.inside hwhole (hpc ▸ trivial) rfl List.prefix_rfl rfl
      ⟨id, a, hstarted, ha, hlength ▸ hr⟩
  | @release c r =>
    refine h.inside hwhole (hpc ▸ trivial) rfl List.prefix_rfl rfl ?_
    cases r with
    | error e => trivial
    | ok r => exact howns

/-- An answer in time. -/
theorem Owns.answer {id : ℕ} {a : Answer} {pc : Pc} (h : Owns s pc) (hok : AnswerAllowed id pc)
    (hrecv : t.recv = a) (hstarted : t.started = s.started)
    (hanswered : t.answered = s.answered ++ [(id, a)]) : Owns t pc := by
  cases pc with
  | idle | acquire c | drain c => trivial
  | program c | feed c k | collect c own | read c own r => exact hok.elim
  | poll c own k =>
    obtain rfl : id = own := hok
    intro _
    rw [hrecv, hanswered]
    exact List.mem_concat_self
  | release c r | returned c r =>
    cases r with
    | error e => trivial
    | ok r =>
      exact Answered.mono h (hstarted ▸ List.prefix_rfl) (hanswered ▸ List.prefix_append _ _)

theorem Exact.next (h : Exact s) {c : Choice n} (hok : OwnAnswer s c)
    (hnext : next s c = some t) : Exact t := by
  have hwhole := h.toWhole.next hnext
  cases c with
  | call i c => exact h.call hnext
  | thread i => exact h.thread hnext
  | answer id a =>
    simp only [Sio2.next, State.answer] at hnext
    split at hnext
    · obtain rfl := Option.some.inj hnext
      exact ⟨hwhole, fun i => (h.owns i).answer (hok i) rfl rfl rfl⟩
    · cases hnext

/-- In a run in which no answer to another transfer comes after a transfer's drain, a transfer
that returns data returns what the device answered to its command. -/
theorem transfer_exact (choices : List (Choice n))
    (hrun : Schedule.run next (boot n) choices = some t)
    (hown : Schedule.Meets next OwnAnswer (boot n) choices) (i : Fin n) (c : Command) (r : Reply)
    (hpc : t.threads i = .returned c (.ok r)) :
    ∃ id a, t.started[id]? = some (loaded c c.size) ∧ (id, a) ∈ t.answered
      ∧ r = a.reply c.size := by
  have h : Exact t :=
    Schedule.run_invariant (fun _ _ _ hs hok hn => hs.next hok hn) .of_boot hown hrun
  have howns := h.owns i
  rw [hpc] at howns
  exact howns

/-- The first of two calls has the answer to its command. -/
theorem transfer_exact_twoCalls : ∃ t, Schedule.run next (boot 2) twoCalls = some t ∧
    ∃ id a, t.started[id]? = some (loaded pollByte 1) ∧ (id, a) ∈ t.answered
      ∧ allOnes.reply 1 = a.reply 1 :=
  ⟨_, rfl, transfer_exact twoCalls rfl (by decide) 0 pollByte (allOnes.reply 1) rfl⟩

/-- Outside the condition : a waiting transfer takes the answer to another for its own, with its
own still to come. -/
theorem lateAnswer_taken {i : Fin n} {c : Command} {own k id : ℕ} {a : Answer}
    (hpc : s.threads i = .poll c own k) (hk : k < timeoutPolls) (hid : id < s.started.length)
    (hopen : id ∉ s.answered.map Prod.fst) (hne : id ≠ own)
    (hown : own ∉ s.answered.map Prod.fst) :
    ∃ t, Schedule.run next s [.answer id a, .thread i, .thread i] = some t
      ∧ t.threads i = .read c own (a.reply 0) ∧ own ∉ t.answered.map Prod.fst := by
  refine ⟨{ s with irqSema := 0, recv := a, answered := s.answered ++ [(id, a)] }.goto i
    (.read c own (a.reply 0)), ?_, Function.update_self _ _ _, ?_⟩
  · simp [Schedule.run_cons, Sio2.next, State.answer, hid, hopen, State.thread, hpc, hk,
      State.goto]
  · simp [State.goto, hown, Ne.symm hne]

/-! ## Runs without a timeout -/

/-- The thread does not give up its wait. -/
def Pc.InTime : Pc → Prop
  | .poll _ _ k => k < timeoutPolls
  | _ => True

instance : ∀ pc : Pc, Decidable pc.InTime
  | .poll _ _ _ => inferInstanceAs (Decidable (_ < _))
  | .idle | .acquire _ | .drain _ | .program _ | .feed _ _ | .collect _ _ | .read _ _ _
  | .release _ _ | .returned _ _ => isTrue trivial

/-- The step is not the end of a wait in vain. -/
def InTime (s : State n) : Choice n → Prop
  | .thread i => (s.threads i).InTime
  | .call _ _ | .answer _ _ => True

instance (s : State n) : ∀ c, Decidable (InTime s c)
  | .thread i => inferInstanceAs (Decidable (s.threads i).InTime)
  | .call _ _ | .answer _ _ => isTrue trivial

/-- A transfer that is not answered is waited for. -/
def Awaited (s : State n) : Prop :=
  ∀ id < s.started.length, id ∉ s.answered.map Prod.fst → ∃ i c k, s.threads i = .poll c id k

/-- Nothing else can be answered while a transfer waits. -/
theorem Awaited.ownAnswer (h : Awaited s) (hwhole : Whole s) {id : ℕ} {a : Answer}
    (hnext : next s (.answer id a) = some t) : OwnAnswer s (.answer id a) := by
  have hopen : id < s.started.length ∧ id ∉ s.answered.map Prod.fst := by
    simp only [Sio2.next, State.answer] at hnext
    split at hnext
    · assumption
    · cases hnext
  obtain ⟨i, c, k, hpc⟩ := h id hopen.1 hopen.2
  have hin : (s.threads i).Inside := hpc ▸ trivial
  intro j
  by_cases hj : j = i
  · rw [hj, hpc]
    exact rfl
  · have hout := hwhole.guards.outside hin hj
    cases hpc' : s.threads j with
    | idle | acquire c | returned c r => trivial
    | drain c | program c | feed c k | poll c id k | collect c id | read c id r | release c r =>
      exact absurd (hpc' ▸ trivial) hout

/-- A step of a thread that does not wait, and starts nothing. -/
theorem Awaited.goto (h : Awaited s) {i : Fin n} {u : State n} {pc : Pc}
    (hpoll : ∀ c id k, s.threads i ≠ .poll c id k) (hthreads : u.threads = s.threads)
    (hstarted : u.started = s.started) (hanswered : u.answered = s.answered) :
    Awaited (u.goto i pc) := by
  intro id hid hopen
  obtain ⟨j, c, k, hj⟩ := h id (hstarted ▸ hid) (hanswered ▸ hopen)
  have hji : j ≠ i := by
    rintro rfl
    exact hpoll c id k hj
  exact ⟨j, c, k, by rw [goto_of_ne u hji, hthreads, hj]⟩

theorem Awaited.thread (h : Awaited s) (hexact : Exact s) {i : Fin n} (hok : InTime s (.thread i))
    (hnext : s.thread i = some t) : Awaited t := by
  obtain ⟨u, pc, hstatement, rfl⟩ := thread_cases hnext
  have howns := hexact.owns i
  -- the thread that waits is the only one inside
  have hwaits : (s.threads i).Inside → ∀ id < s.started.length, id ∉ s.answered.map Prod.fst →
      ∃ c k, s.threads i = .poll c id k := by
    intro hin id hid hopen
    obtain ⟨j, c, k, hj⟩ := h id hid hopen
    obtain rfl := hexact.guards.unique (hj ▸ trivial : (s.threads j).Inside) hin
    exact ⟨c, k, hj⟩
  generalize hpc : s.threads i = pc₀ at hstatement howns hwaits
  cases hstatement with
  | acquire | discard | drained | program | feed | collect | read | finish | release =>
    exact h.goto (fun c id k hpoll => by rw [hpc] at hpoll; cases hpoll) rfl rfl rfl
  | @start c k hge =>
    intro id hid hopen
    obtain hlt | rfl : id < s.started.length ∨ id = s.started.length := by
      rw [State.goto, List.length_append, List.length_singleton] at hid
      omega
    · obtain ⟨c', k', hpoll⟩ := hwaits trivial id hlt hopen
      cases hpoll
    · exact ⟨i, c, 0, goto_self _ _ _⟩
  | @completed c own k hpos =>
    intro id hid hopen
    obtain ⟨c', k', hpoll⟩ := hwaits trivial id hid hopen
    obtain ⟨-, rfl, -⟩ := Pc.poll.inj hpoll
    exact absurd (List.mem_map_of_mem (howns hpos)) hopen
  | @wait c own k hlt hzero =>
    intro id hid hopen
    obtain ⟨c', k', hpoll⟩ := hwaits trivial id hid hopen
    obtain ⟨-, rfl, -⟩ := Pc.poll.inj hpoll
    exact ⟨i, c, k + 1, goto_self _ _ _⟩
  | expire hge =>
    rw [InTime, hpc] at hok
    exact absurd hok hge

/-- A result other than a reply is that of a rejected command. -/
def Pc.Served : Pc → Prop
  | .release c (.error _) | .returned c (.error _) => Rejected c
  | _ => True

/-- The invariant of the runs without a timeout. -/
structure Prompt (s : State n) : Prop extends Exact s where
  awaited : Awaited s
  served : ∀ i, (s.threads i).Served

theorem Prompt.of_boot : Prompt (boot n) where
  toExact := .of_boot
  awaited id hid := absurd hid (Nat.not_lt_zero id)
  served _ := trivial

theorem served_goto (h : ∀ i, (s.threads i).Served) {i : Fin n} {u : State n} {pc : Pc}
    (hthreads : u.threads = s.threads) (hpc : pc.Served) (j : Fin n) :
    ((u.goto i pc).threads j).Served := by
  by_cases hj : j = i
  · rw [hj, goto_self]
    exact hpc
  · rw [goto_of_ne u hj, hthreads]
    exact h j

theorem Prompt.call (h : Prompt s) {i : Fin n} {c : Command} (hnext : s.call i c = some t) :
    Prompt t := by
  have hexact := h.toExact.call hnext
  have hserved : (if Rejected c then Pc.returned c (.error (-1)) else .acquire c).Served := by
    split
    · assumption
    · trivial
  rw [State.call] at hnext
  split at hnext
  case h_3 => cases hnext
  all_goals
    next hpc =>
      obtain rfl := Option.some.inj hnext
      refine ⟨hexact, h.awaited.goto (fun c id k hpoll => ?_) rfl rfl rfl,
        served_goto h.served rfl hserved⟩
      rw [hpc] at hpoll
      cases hpoll

theorem Statement.served {u : State n} {pc pc' : Pc} (h : Statement s pc u pc')
    (hserved : pc.Served) (hok : pc.InTime) : pc'.Served := by
  cases h with
  | expire hge => exact absurd hok hge
  | @release c r =>
    cases r with
    | error e => exact hserved
    | ok r => trivial
  | acquire | discard | drained | program | feed | start | completed | wait | collect | read
  | finish => trivial

theorem Prompt.next (h : Prompt s) {c : Choice n} (hok : InTime s c) (hnext : next s c = some t) :
    Prompt t := by
  cases c with
  | call i c => exact h.call hnext
  | thread i =>
    refine ⟨h.toExact.thread hnext, h.awaited.thread h.toExact hok hnext, ?_⟩
    obtain ⟨u, pc, hstatement, rfl⟩ := thread_cases hnext
    exact served_goto h.served hstatement.threads (hstatement.served (h.served i) hok)
  | answer id a =>
    refine ⟨h.toExact.next (h.awaited.ownAnswer h.toWhole hnext) hnext, ?_, ?_⟩
    all_goals
      simp only [Sio2.next, State.answer] at hnext
      split at hnext
      case isFalse => cases hnext
      obtain rfl := Option.some.inj hnext
    · intro id' hid hopen
      rw [List.map_append, List.mem_append, not_or] at hopen
      exact h.awaited id' hid hopen.1
    · exact h.served

/-- In a run without a timeout, every call that is accepted returns what the device answered to its
command. -/
theorem transfer_served (choices : List (Choice n))
    (hrun : Schedule.run next (boot n) choices = some t)
    (hok : Schedule.Meets next InTime (boot n) choices) (i : Fin n) (c : Command)
    (r : Except ℤ Reply) (hpc : t.threads i = .returned c r) :
    if Rejected c then r = .error (-1)
    else ∃ id a, t.started[id]? = some (loaded c c.size) ∧ (id, a) ∈ t.answered
      ∧ r = .ok (a.reply c.size) := by
  have h : Prompt t :=
    Schedule.run_invariant (fun _ _ _ hs hok hn => hs.next hok hn) .of_boot hok hrun
  have hresult := h.loads i
  have howns := h.owns i
  have hserved := h.served i
  rw [hpc] at hresult howns hserved
  cases r with
  | error e =>
    have hrejected : Rejected c := hserved
    rw [if_pos hrejected]
    obtain ⟨-, rfl⟩ | ⟨hvalid, -⟩ := hresult
    · rfl
    · exact absurd hrejected hvalid
  | ok r =>
    rw [if_neg hresult.1]
    obtain ⟨id, a, hid, ha, rfl⟩ := howns
    exact ⟨id, a, hid, ha, rfl⟩

theorem transfer_served_twoCalls : ∃ t, Schedule.run next (boot 2) twoCalls = some t ∧
    ∃ id a, t.started[id]? = some (loaded pollByte 1) ∧ (id, a) ∈ t.answered
      ∧ Except.ok (allOnes.reply 1) = (.ok (a.reply 1) : Except ℤ Reply) := by
  have hserved := transfer_served twoCalls rfl (by decide) 0 pollByte (.ok (allOnes.reply 1)) rfl
  rw [if_neg (by decide)] at hserved
  exact ⟨_, rfl, hserved⟩

end EF2SDK.Sio2
