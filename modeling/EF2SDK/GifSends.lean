import EF2SDK.Gif
import EF2SDK.GifDma
import EF2SDK.Words

/-!
# The transport sends as the DMA channel does

`ef2_gif_dma_send_qwords` is in the transport poll by poll, beside the controller and in front of
the FIFO (`Gif`), and in `GifDma` as one call, with its statistics. From a packet on until the DMA
layer gives the CPU back (`Polls`), the transport does what the call does on the bits that the polls
read : they agree on the counters, on STR and on the result (`submitQwords_sends`).
-/

set_option autoImplicit false

namespace EF2SDK.Gif

open GifDma (Machine Hardware Stats)

/-! ## The polls -/

/-- The CPU is in a wait of the DMA layer. -/
def Waiting (s : State) : Prop :=
  ∃ p after timeout, s.pc = .wait p after timeout

/-- The steps up to the one after which the CPU is in no wait, with STR as each poll read it. -/
inductive Polls : State → List Bool → State → Prop
  | done {s : State} (h : ¬Waiting s) : Polls s [] s
  | poll {s u s' : State} {polls : List Bool} (h : Waiting s) (hstep : next s .cpu = some u)
      (hrest : Polls u polls s') : Polls s (s.channel.str :: polls) s'
  | controller {s u s' : State} {polls : List Bool} (h : Waiting s)
      (hstep : next s .deliver = some u ∨ next s .finish = some u) (hrest : Polls u polls s') :
      Polls s polls s'

/-- The hardware finishes a transfer before the polls that read a clear STR, the first of them being
poll `n`. -/
def Reads (hw : Hardware) (n : ℕ) (polls : List Bool) : Prop :=
  ∀ k b, polls[k]? = some b → hw.finishes (n + k) = !b

/-- The channel has the counters of the transport, and has not seen a transfer end before it did. -/
structure Counts (s : State) (m : Machine) : Prop where
  initialized : m.initialized = s.dma.initialized
  active : m.active = s.dma.active
  submissions : m.stats.submissions.toNat = s.dma.submissions
  completions : m.stats.completions.toNat = s.dma.completions
  qwordsSubmitted : m.stats.qwordsSubmitted.toNat = s.dma.qwordsSubmitted
  waitCalls : m.stats.waitCalls.toNat = s.dma.waitCalls
  timeouts : m.stats.timeouts.toNat = s.dma.timeouts
  str : s.channel.str = true → m.str = true

variable {hw : Hardware} {s u s' : State} {m m' : Machine} {p : Packet} {after : After}
  {polls : List Bool} {b : Bool} {n timeout : ℕ} {waitStart count : UInt32}

theorem Reads.head (h : Reads hw n (b :: polls)) : hw.finishes n = !b :=
  h 0 b rfl

theorem Reads.tail (h : Reads hw n (b :: polls)) : Reads hw (n + 1) polls := by
  intro k b' hk
  rw [Nat.add_right_comm]
  exact h (k + 1) b' hk

theorem Polls.of_not_waiting (h : Polls s polls s') (hs : ¬Waiting s) : polls = [] ∧ s' = s := by
  cases h with
  | done => exact ⟨rfl, rfl⟩
  | poll hwaiting => exact absurd hwaiting hs
  | controller hwaiting => exact absurd hwaiting hs

/-- The controller's steps leave the CPU and the counters, and never set STR. -/
theorem controller_step (hstep : next s .deliver = some u ∨ next s .finish = some u) :
    u.pc = s.pc ∧ u.dma = s.dma ∧ (u.channel.str = true → s.channel.str = true) := by
  rcases hstep with hstep | hstep
  · obtain ⟨c, hc, rfl⟩ := Option.map_eq_some_iff.1 hstep
    rw [Channel.deliver] at hc
    split at hc
    · cases hc
    · obtain rfl := Option.some.inj hc
      exact ⟨rfl, rfl, id⟩
  · obtain ⟨c, hc, rfl⟩ := Option.map_eq_some_iff.1 hstep
    rw [Channel.finish] at hc
    split at hc
    · obtain rfl := Option.some.inj hc
      exact ⟨rfl, rfl, fun h => absurd h Bool.false_ne_true⟩
    · cases hc

theorem Counts.controller (h : Counts s m) (hdma : u.dma = s.dma)
    (hstr : u.channel.str = true → s.channel.str = true) : Counts u m where
  initialized := hdma ▸ h.initialized
  active := hdma ▸ h.active
  submissions := hdma ▸ h.submissions
  completions := hdma ▸ h.completions
  qwordsSubmitted := hdma ▸ h.qwordsSubmitted
  waitCalls := hdma ▸ h.waitCalls
  timeouts := hdma ▸ h.timeouts
  str := fun hu => h.str (hstr hu)

/-! ## The waits -/

theorem toNat_succ (x : UInt32) : (x + 1).toNat = u32 (x.toNat + 1) :=
  UInt32.toNat_add x 1

/-- The poll reads what the transport's does. -/
theorem readStr_poll (h : Counts s m) (hread : hw.finishes m.polls = !s.channel.str) :
    ∃ m', GifDma.readStr hw m = (s.channel.str, m') ∧ Counts s m' ∧ m'.str = s.channel.str ∧
      m'.polls = m.polls + 1 := by
  unfold GifDma.readStr
  rw [bind_apply, get_apply]
  dsimp only
  cases hstr : s.channel.str with
  | true =>
    rw [hstr] at hread
    rw [if_neg (by simp [hread])]
    refine ⟨{ m with polls := m.polls + 1 }, ?_, { h with }, h.str hstr, rfl⟩
    rw [bind_apply, pure_apply, h.str hstr]
    rfl
  | false =>
    rw [hstr] at hread
    by_cases hm : m.str = true
    · rw [if_pos ⟨hm, hread⟩]
      exact ⟨_, rfl, { h with str := fun hs => absurd (hstr.symm.trans hs) (by decide) }, rfl, rfl⟩
    · have hclear : m.str = false := Bool.eq_false_iff.2 hm
      rw [if_neg fun hboth => hm hboth.1]
      refine ⟨{ m with polls := m.polls + 1 }, ?_, { h with }, hclear, rfl⟩
      rw [bind_apply, pure_apply, hclear]
      rfl

/-- The counters and the clock as a wait begins. -/
def beginWait (m : Machine) : Machine :=
  { m with
    readings := m.readings + 1
    stats := { m.stats with waitCalls := m.stats.waitCalls + 1 } }

/-- `ef2_gif_dma_wait` from a poll on. -/
def restOfWait (hw : Hardware) (waitStart : UInt32) (timeout : ℕ) : StateM Machine ℤ := do
  if ← GifDma.waitLoop hw timeout then
    let now ← GifDma.cpuCount hw
    GifDma.modifyStats fun stats =>
      { stats with
        waitTicks := stats.waitTicks.record (GifDma.cpuCountElapsed waitStart now) }
    modify fun m => if m.active then GifDma.complete now m else m
    pure 0
  else
    let now ← GifDma.cpuCount hw
    GifDma.modifyStats fun stats =>
      { stats with
        waitTicks := stats.waitTicks.record (GifDma.cpuCountElapsed waitStart now)
        timeouts := stats.timeouts + 1 }
    pure (-1)

theorem dmaWait_eq (hw : Hardware) (m : Machine) :
    GifDma.dmaWait hw GifDma.defaultTimeout m =
      restOfWait hw (hw.count m.readings) dmaDefaultTimeout (beginWait m) :=
  rfl

theorem waitLoop_idle (hread : GifDma.readStr hw m = (false, m')) (timeout : ℕ) :
    GifDma.waitLoop hw (timeout + 1) m = (true, m') := by
  rw [GifDma.waitLoop, bind_apply, hread]
  rfl

theorem waitLoop_busy (hread : GifDma.readStr hw m = (true, m')) (timeout : ℕ) :
    GifDma.waitLoop hw (timeout + 1) m =
      if timeout = 0 then (false, m') else GifDma.waitLoop hw timeout m' := by
  rw [GifDma.waitLoop, bind_apply, hread]
  dsimp only
  rw [ite_run, if_pos rfl, ite_run]
  rfl

/-- The channel is still at work. -/
theorem restOfWait_busy (hread : GifDma.readStr hw m = (true, m')) (htimeout : timeout ≠ 0)
    (waitStart : UInt32) :
    restOfWait hw waitStart (timeout + 1) m = restOfWait hw waitStart timeout m' := by
  unfold restOfWait
  rw [bind_apply, bind_apply, waitLoop_busy hread, if_neg htimeout]

/-- It was the last poll. -/
theorem restOfWait_timeout (hread : GifDma.readStr hw m = (true, m')) (h : Counts s m')
    (waitStart : UInt32) : ∃ m'', restOfWait hw waitStart 1 m = (-1, m'') ∧
      Counts { s with dma := { s.dma with timeouts := u32 (s.dma.timeouts + 1) } } m'' := by
  unfold restOfWait
  rw [bind_apply, waitLoop_busy hread, if_pos rfl]
  refine ⟨_, rfl, { h with timeouts := ?_ }⟩
  rw [← h.timeouts]
  exact toNat_succ _

/-- The channel is idle, and the transfer that was active is counted. -/
theorem restOfWait_idle (hread : GifDma.readStr hw m = (false, m')) (h : Counts s m')
    (timeout : ℕ) (waitStart : UInt32) :
    ∃ m'', restOfWait hw waitStart (timeout + 1) m = (0, m'') ∧ Counts s.dmaIdle m'' ∧
      m''.polls = m'.polls := by
  unfold restOfWait
  rw [bind_apply, waitLoop_idle hread]
  refine ⟨_, rfl, ?_⟩
  rw [State.dmaIdle, ← h.active]
  change Counts _ (if m'.active = true then GifDma.complete _ _ else _) ∧
    (if m'.active = true then GifDma.complete _ _ else _ : Machine).polls = m'.polls
  by_cases hactive : m'.active = true
  · rw [if_pos hactive, if_pos hactive]
    refine ⟨{ h with active := rfl, completions := ?_ }, rfl⟩
    rw [← h.completions]
    exact toNat_succ _
  · rw [if_neg hactive, if_neg hactive]
    exact ⟨{ h with }, rfl⟩

/-! ## The sends -/

/-- The rest of `ef2_gif_dma_send_qwords` once the channel is idle for a start. -/
def startAndWait (hw : Hardware) (count : UInt32) : StateM Machine ℤ := do
  let now ← GifDma.cpuCount hw
  modify (GifDma.start now count)
  GifDma.dmaWait hw GifDma.defaultTimeout

/-- The rest of `ef2_gif_dma_send_qwords`, from a poll in one of its waits on. -/
def restOfSend (hw : Hardware) (count : UInt32) (after : After) (waitStart : UInt32)
    (timeout : ℕ) : StateM Machine ℤ := do
  match after with
  | .init =>
    if (← restOfWait hw waitStart timeout) < 0 then pure (-4)
    else
      modify fun m => { m with str := false, initialized := true }
      if (← GifDma.dmaWait hw GifDma.defaultTimeout) < 0 then pure (-5)
      else startAndWait hw count
  | .submit =>
    if (← restOfWait hw waitStart timeout) < 0 then pure (-5) else startAndWait hw count
  | .complete => restOfWait hw waitStart timeout

/-- The packet is sent, or is handed back for the FIFO. -/
def Sent (p : Packet) (s : State) (call : ℤ × Machine) : Prop :=
  Counts s call.2 ∧ (call.1 = 0 ∧ s.pc = .idle ∨ call.1 < 0 ∧ s.pc = .fifo p.qwords)

theorem Counts.beginWait (h : Counts s m) (p : Packet) (after : After) :
    Counts (s.dmaWait p after) (beginWait m) where
  initialized := h.initialized
  active := h.active
  submissions := h.submissions
  completions := h.completions
  qwordsSubmitted := h.qwordsSubmitted
  waitCalls := by
    rw [State.dmaWait, ← h.waitCalls]
    exact toNat_succ _
  timeouts := h.timeouts
  str := h.str

theorem Counts.init (h : Counts s m) :
    Counts s.dmaInit { m with str := false, initialized := true } :=
  { h with
    initialized := rfl
    str := fun hs => nomatch hs }

theorem Counts.start (h : Counts s m) (hcount : count.toNat = p.count) (now : UInt32) :
    Counts (s.dmaStart p) (GifDma.start now count { m with readings := m.readings + 1 }) :=
  { h with
    active := rfl
    submissions := by
      rw [State.dmaStart, ← h.submissions]
      exact toNat_succ _
    qwordsSubmitted := by
      rw [State.dmaStart, ← h.qwordsSubmitted, ← hcount]
      exact UInt32.toNat_add _ _
    str := fun _ => rfl }

/-- A wait that times out hands the packet back. -/
theorem restOfSend_timeout (hwait : restOfWait hw waitStart timeout m = (-1, m'))
    (h : Counts s m') (p : Packet) (count : UInt32) (after : After) :
    Sent p (s.fallback p) (restOfSend hw count after waitStart timeout m) := by
  cases after with
  | complete =>
    rw [restOfSend, hwait]
    exact ⟨{ h with }, Or.inr ⟨show (-1 : ℤ) < 0 by decide, rfl⟩⟩
  | submit =>
    rw [restOfSend, bind_apply, hwait]
    exact ⟨{ h with }, Or.inr ⟨show (-5 : ℤ) < 0 by decide, rfl⟩⟩
  | init =>
    rw [restOfSend, bind_apply, hwait]
    exact ⟨{ h with }, Or.inr ⟨show (-4 : ℤ) < 0 by decide, rfl⟩⟩

theorem restOfSend_busy (hread : GifDma.readStr hw m = (true, m')) (htimeout : timeout ≠ 0)
    (count : UInt32) (after : After) (waitStart : UInt32) :
    restOfSend hw count after waitStart (timeout + 1) m =
      restOfSend hw count after waitStart timeout m' := by
  have hwait := restOfWait_busy hread htimeout waitStart
  cases after with
  | complete => exact hwait
  | submit => rw [restOfSend, restOfSend, bind_apply, bind_apply, hwait]
  | init => rw [restOfSend, restOfSend, bind_apply, bind_apply, hwait]

/-- After the first wait of `ef2_gif_dma_init`, the one for the start. -/
theorem restOfSend_init (hwait : restOfWait hw waitStart timeout m = (0, m'))
    (h : Counts s m') (p : Packet) (count : UInt32) :
    ∃ m'' waitStart', restOfSend hw count .init waitStart timeout m =
        restOfSend hw count .submit waitStart' dmaDefaultTimeout m'' ∧
      Counts (s.dmaInit.dmaWait p .submit) m'' ∧ m''.polls = m'.polls := by
  refine ⟨beginWait { m' with str := false, initialized := true }, hw.count m'.readings, ?_,
    h.init.beginWait p .submit, rfl⟩
  rw [restOfSend, bind_apply, hwait]
  rfl

/-- After that one, the transfer is started. -/
theorem restOfSend_submit (hwait : restOfWait hw waitStart timeout m = (0, m'))
    (h : Counts s m') {p : Packet} (hcount : count.toNat = p.count) :
    ∃ m'' waitStart', restOfSend hw count .submit waitStart timeout m =
        restOfSend hw count .complete waitStart' dmaDefaultTimeout m'' ∧
      Counts ((s.dmaStart p).dmaWait p .complete) m'' ∧ m''.polls = m'.polls := by
  refine ⟨beginWait (GifDma.start (hw.count m'.readings) count
    { m' with readings := m'.readings + 1 }), hw.count (m'.readings + 1), ?_,
    (h.start hcount _).beginWait p .complete, rfl⟩
  rw [restOfSend, bind_apply, hwait]
  rfl

/-- In a wait, the rest of the call is what the transport does up to the last of its waits. -/
theorem Polls.sent (h : Polls s polls s') (hpc : s.pc = .wait p after (timeout + 1))
    (hcount : count.toNat = p.count) (hm : Counts s m) (hreads : Reads hw m.polls polls) :
    Sent p s' (restOfSend hw count after waitStart (timeout + 1) m) := by
  induction h generalizing after timeout m waitStart with
  | done hdone => exact absurd ⟨p, after, timeout + 1, hpc⟩ hdone
  | controller _ hstep _ ih =>
    obtain ⟨hpc', hdma, hstr⟩ := controller_step hstep
    exact ih (hpc'.trans hpc) (hm.controller hdma hstr) hreads
  | @poll s u s' polls _ hstep hrest ih =>
    obtain ⟨m₁, hread, hm₁, -, hpolls⟩ := readStr_poll hm hreads.head
    have hreads' : Reads hw m₁.polls polls := hpolls ▸ hreads.tail
    have hstep' : s.cpuStep = some u := hstep
    rw [State.cpuStep, hpc] at hstep'
    cases hstr : s.channel.str with
    | true =>
      rw [hstr] at hread
      simp only [hstr] at hstep'
      by_cases hlast : timeout = 0
      · subst hlast
        obtain ⟨m₂, hwait, hm₂⟩ := restOfWait_timeout hread hm₁ waitStart
        obtain rfl := Option.some.inj hstep'
        obtain ⟨-, rfl⟩ := hrest.of_not_waiting fun ⟨_, _, _, h⟩ => nomatch h
        exact restOfSend_timeout hwait hm₂ p count after
      · obtain ⟨t, rfl⟩ := Nat.exists_eq_succ_of_ne_zero hlast
        obtain rfl := Option.some.inj hstep'
        rw [restOfSend_busy hread hlast]
        exact ih rfl { hm₁ with } hreads'
    | false =>
      rw [hstr] at hread
      simp only [hstr] at hstep'
      obtain ⟨m₂, hwait, hm₂, hpolls₂⟩ := restOfWait_idle hread hm₁ timeout waitStart
      cases after with
      | complete =>
        obtain rfl := Option.some.inj hstep'
        obtain ⟨-, rfl⟩ := hrest.of_not_waiting fun ⟨_, _, _, h⟩ => nomatch h
        rw [restOfSend, hwait]
        exact ⟨{ hm₂ with }, Or.inl ⟨rfl, rfl⟩⟩
      | submit =>
        obtain rfl := Option.some.inj hstep'
        obtain ⟨m₃, waitStart', hsend, hm₃, hpolls₃⟩ := restOfSend_submit hwait hm₂ hcount
        rw [hsend]
        exact ih rfl hm₃ (hpolls₃.trans hpolls₂ ▸ hreads')
      | init =>
        obtain rfl := Option.some.inj hstep'
        obtain ⟨m₃, waitStart', hsend, hm₃, hpolls₃⟩ := restOfSend_init hwait hm₂ p count
        rw [hsend]
        exact ih rfl hm₃ (hpolls₃.trans hpolls₂ ▸ hreads')

/-- Some hardware makes the polls read what they read. -/
theorem exists_reads (clock : ℕ → UInt32) (n : ℕ) (polls : List Bool) :
    ∃ finishes, Reads ⟨finishes, clock⟩ n polls := by
  refine ⟨fun k => !polls.getD (k - n) false, fun k b hk => ?_⟩
  dsimp only
  rw [Nat.add_sub_cancel_left, List.getD_eq_getElem?_getD, hk, Option.getD_some]

/-- `ef2_gif_dma_send_qwords`, over the submission. -/
def andWait (hw : Hardware) (x : StateM Machine ℤ) : StateM Machine ℤ := do
  let result ← x
  if result < 0 then pure result else GifDma.dmaWait hw GifDma.defaultTimeout

/-- An error of the submission is the error of the send. -/
theorem andWait_ite (hw : Hardware) (x y : StateM Machine ℤ) {e : ℤ} (he : e < 0) (m : Machine) :
    andWait hw (x >>= fun r => if r < 0 then pure e else y) m =
      if (x m).1 < 0 then (e, (x m).2) else andWait hw y (x m).2 := by
  rw [andWait, bind_apply, bind_apply]
  by_cases hx : (x m).1 < 0
  · rw [if_pos hx, if_pos hx, pure_apply, if_pos he]
    rfl
  · rw [if_neg hx, if_neg hx]
    rfl

/-- The call, from the first poll of its first wait on. -/
theorem sendQwords_eq (hw : Hardware) {packet : UInt32} (hpacket : packet ≠ 0)
    (haligned : packet &&& 0x0F = 0) (hcount : count ≠ 0) (hfew : ¬count > 0xFFFF) (m : Machine) :
    GifDma.sendQwords hw packet count m =
      restOfSend hw count (if m.initialized then .submit else .init) (hw.count m.readings)
        dmaDefaultTimeout (beginWait m) := by
  have hsubmit : GifDma.submitQwords hw packet count = _ :=
    (if_neg hcount).trans <| (if_neg hpacket).trans <| (if_neg (not_not.2 haligned)).trans <|
      if_neg hfew
  change andWait hw (GifDma.submitQwords hw packet count) m = _
  rw [hsubmit, andWait_ite hw _ _ (by decide)]
  cases hm : m.initialized with
  | true =>
    have hinit : GifDma.dmaInit hw m = (0, m) := by
      rw [GifDma.dmaInit, bind_apply, get_apply]
      dsimp only
      rw [ite_run, if_pos hm]
      rfl
    rw [hinit, if_neg (show ¬(0 : ℤ) < 0 by decide), andWait_ite hw _ _ (by decide), dmaWait_eq,
      if_pos rfl, restOfSend, bind_apply, ite_run]
    rfl
  | false =>
    have hinit : GifDma.dmaInit hw m =
        (restOfWait hw (hw.count m.readings) dmaDefaultTimeout >>= fun r =>
          if r < 0 then pure (-1)
          else do
            modify fun m => { m with str := false, initialized := true }
            pure 0) (beginWait m) := by
      rw [GifDma.dmaInit, bind_apply, get_apply]
      dsimp only
      rw [ite_run, if_neg (by rw [hm]; decide)]
      rfl
    rw [hinit, bind_apply, if_neg Bool.false_ne_true, restOfSend, bind_apply]
    by_cases hwait : (restOfWait hw (hw.count m.readings) dmaDefaultTimeout (beginWait m)).1 < 0
    · rw [if_pos hwait, if_pos hwait]
      rfl
    · rw [if_neg hwait, if_neg hwait]
      exact (if_neg (show ¬(0 : ℤ) < 0 by decide)).trans (andWait_ite hw _ _ (by decide) _)

/-- What the transport does with a packet that it sends through the DMA channel is what
`ef2_gif_dma_send_qwords` does, on hardware that answers the polls as the transport's were. The
counters and STR are those of the call, and the packet is left to the FIFO exactly if the call
fails. -/
theorem submitQwords_sends (hsubmit : next s (.submit p) = some u) (havailable : s.available = true)
    (hpolls : Polls u polls s') {packet : UInt32} (hpacket : packet.toNat = p.address)
    (hcount : count.toNat = p.count) (hm : Counts s m) :
    (∀ clock, ∃ finishes, Reads ⟨finishes, clock⟩ m.polls polls) ∧
      ∀ hw, Reads hw m.polls polls → Sent p s' (GifDma.sendQwords hw packet count m) := by
  refine ⟨fun clock => exists_reads clock m.polls polls, fun hw hreads => ?_⟩
  obtain rfl : s.submitQwords p = u := by
    rw [next] at hsubmit
    split at hsubmit
    · exact Option.some.inj hsubmit
    · cases hsubmit
  have hm' : Counts { s with submitted := s.submitted ++ p.qwords } m := { hm with }
  rw [State.submitQwords, if_pos havailable, State.dmaSubmit] at hpolls
  by_cases hzero : p.count = 0
  · rw [if_pos hzero] at hpolls
    have hcount₀ : count = 0 := UInt32.toNat_inj.1 (hcount.trans hzero)
    have hsend : GifDma.sendQwords hw packet count m =
        restOfSend hw count .complete (hw.count m.readings) dmaDefaultTimeout (beginWait m) := by
      change andWait hw (GifDma.submitQwords hw packet count) m = _
      rw [GifDma.submitQwords, if_pos hcount₀]
      rfl
    rw [hsend]
    exact hpolls.sent rfl hcount (hm'.beginWait p .complete) hreads
  rw [if_neg hzero, if_neg p.nonnull, if_neg (not_not.2 p.aligned)] at hpolls
  have hcount₀ : count ≠ 0 := fun h => hzero (hcount.symm.trans (congrArg UInt32.toNat h))
  have hpacket₀ : packet ≠ 0 := fun h => p.nonnull (hpacket.symm.trans (congrArg UInt32.toNat h))
  have haligned : packet &&& 0x0F = 0 := by
    rw [← UInt32.toNat_inj, toNat_and_mask (n := 4) rfl, hpacket]
    exact p.aligned
  have hmany : count > 0xFFFF ↔ p.count > 0xFFFF := by
    rw [gt_iff_lt, UInt32.lt_iff_toNat_lt, hcount]
    rfl
  by_cases hfew : p.count > 0xFFFF
  · rw [if_pos hfew] at hpolls
    obtain ⟨-, rfl⟩ := hpolls.of_not_waiting fun ⟨_, _, _, h⟩ => nomatch h
    have hsend : GifDma.sendQwords hw packet count m = (-3, m) := by
      change andWait hw (GifDma.submitQwords hw packet count) m = _
      rw [GifDma.submitQwords, if_neg hcount₀, if_neg hpacket₀, if_neg (not_not.2 haligned),
        if_pos (hmany.2 hfew)]
      rfl
    rw [hsend]
    exact ⟨{ hm with }, Or.inr ⟨show (-3 : ℤ) < 0 by decide, rfl⟩⟩
  · rw [if_neg hfew] at hpolls
    rw [sendQwords_eq hw hpacket₀ haligned hcount₀ (mt hmany.1 hfew), hm'.initialized]
    cases hinit : s.dma.initialized with
    | true =>
      rw [if_pos hinit] at hpolls
      exact hpolls.sent rfl hcount (hm'.beginWait p .submit) hreads
    | false =>
      rw [if_neg (by rw [hinit]; decide)] at hpolls
      exact hpolls.sent rfl hcount (hm'.beginWait p .init) hreads

end EF2SDK.Gif
