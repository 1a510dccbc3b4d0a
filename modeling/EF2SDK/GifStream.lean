import EF2SDK.Gif
import EF2SDK.Schedule

/-!
# What the GIF receives

The controller delivers the packet of a started transfer, however long the CPU waits for
it. `ef2_gif_dma_send_qwords` answers -1 both for a transfer that was never started and
for one whose completion wait expired, and `ef2_video_submit_qwords` then writes the packet
to the FIFO : after an expired completion wait the GIF receives it twice (`lateRun`).

In a complete run, one at whose end the CPU is idle and nothing is pending, the stream is
the concatenation of the packets exactly when no completion wait of a nonempty packet
expired (`stream_exact_iff`). Without such a wait the stream is exact at every step
(`Exact`) ; each of them adds the packet's length to what the GIF receives too much
(`surplus`).
-/

set_option autoImplicit false

namespace EF2SDK.Gif

variable {s t : State}

section Fields

variable (s : State) (p : Packet) (after : After)

@[simp] theorem channel_dmaWait : (s.dmaWait p after).channel = s.channel :=
  rfl

@[simp] theorem submitted_dmaWait : (s.dmaWait p after).submitted = s.submitted :=
  rfl

@[simp] theorem pc_dmaWait : (s.dmaWait p after).pc = .wait p after dmaDefaultTimeout :=
  rfl

@[simp] theorem channel_fallback : (s.fallback p).channel = s.channel :=
  rfl

@[simp] theorem submitted_fallback : (s.fallback p).submitted = s.submitted :=
  rfl

@[simp] theorem pc_fallback : (s.fallback p).pc = .fifo p.qwords :=
  rfl

@[simp] theorem channel_dmaIdle : s.dmaIdle.channel = s.channel := by
  rw [State.dmaIdle]
  split <;> rfl

@[simp] theorem submitted_dmaIdle : s.dmaIdle.submitted = s.submitted := by
  rw [State.dmaIdle]
  split <;> rfl

end Fields

/-! ## The stream of a step -/

/-- The qwords that the CPU has yet to hand over. -/
def Pc.toSend : Pc → List Qword
  | .idle => []
  | .wait p .init _ | .wait p .submit _ => p.qwords
  | .wait _ .complete _ => []
  | .fifo left => left

/-- The completion wait of a started packet. -/
def Pc.Completing : Pc → Prop
  | .wait p .complete _ => p.qwords ≠ []
  | _ => False

/-- The completion wait of a started packet is at its last poll, and STR is set. -/
def Pc.Expiring (str : Bool) : Pc → Prop
  | .wait p .complete timeout => str ∧ timeout - 1 = 0 ∧ p.qwords ≠ []
  | _ => False

/-- No completion wait of a started packet expires in this step. -/
def NotExpiring (s : State) : Choice → Prop
  | .cpu => ¬s.pc.Expiring s.channel.str
  | _ => True

/-- What the GIF receives too much by this step. -/
def surplus (s : State) : Choice → ℕ
  | .cpu =>
    match s.pc with
    | .wait p .complete timeout => if s.channel.str ∧ timeout - 1 = 0 then p.qwords.length else 0
    | _ => 0
  | _ => 0

theorem surplus_eq_zero_iff (c : Choice) : surplus s c = 0 ↔ NotExpiring s c := by
  cases c with
  | cpu =>
    rw [NotExpiring, surplus]
    cases hpc : s.pc with
    | wait p after timeout =>
      cases after with
      | complete =>
        by_cases hlast : s.channel.str ∧ timeout - 1 = 0 <;> simp_all [Pc.Expiring]
      | _ => simp [Pc.Expiring]
    | _ => simp [Pc.Expiring]
  | _ => simp [surplus, NotExpiring]

/-- What a step of the CPU does to the channel and to the qwords it has yet to hand over. -/
inductive CpuEffect (s t : State) : Prop
  | keep (hchannel : t.channel = s.channel) (hsend : t.pc.toSend = s.pc.toSend)
      (hwait : s.pc.Completing → t.pc.Completing ∨ s.channel.str = false)
      (hsurplus : surplus s .cpu = 0)
  | start (p : Packet) (hclear : s.channel.str = false)
      (hchannel : t.channel = { s.channel with str := true, pending := p.qwords })
      (hsend : s.pc.toSend = p.qwords) (hsent : t.pc.toSend = [])
      (hwait : p.qwords ≠ [] → t.pc.Completing) (hsurplus : surplus s .cpu = 0)
  | write (q : Qword) (hsend : s.pc.toSend = q :: t.pc.toSend)
      (hchannel : t.channel = { s.channel with received := s.channel.received ++ [q] })
      (hwait : ¬s.pc.Completing) (hsurplus : surplus s .cpu = 0)
  | resend (p : Packet) (hchannel : t.channel = s.channel) (hsent : s.pc.toSend = [])
      (hsend : t.pc.toSend = p.qwords) (hwait : s.pc.Completing → p.qwords ≠ [])
      (hsurplus : surplus s .cpu = p.qwords.length)

theorem submitted_cpuStep (hstep : s.cpuStep = some t) : t.submitted = s.submitted := by
  rw [State.cpuStep] at hstep
  split at hstep
  · cases hstep
  · split_ifs at hstep
    · cases hstep
      rfl
    · cases hstep
      rfl
    · split at hstep <;> cases hstep <;> simp [State.dmaInit, State.dmaStart]
  · cases hstep
    rfl
  · cases hstep
    rfl

theorem cpuStep_effect (hstep : s.cpuStep = some t) : CpuEffect s t := by
  cases hpc : s.pc with
  | idle => simp [State.cpuStep, hpc] at hstep
  | fifo left =>
    cases left with
    | nil =>
      simp only [State.cpuStep, hpc, Option.some.injEq] at hstep
      subst hstep
      exact .keep rfl (by simp [hpc, Pc.toSend]) (by simp [hpc, Pc.Completing])
        (by simp [surplus, hpc])
    | cons q left =>
      simp only [State.cpuStep, hpc, Option.some.injEq] at hstep
      subst hstep
      exact .write q (by simp [hpc, Pc.toSend]) rfl (by simp [hpc, Pc.Completing])
        (by simp [surplus, hpc])
  | wait p after timeout =>
    simp only [State.cpuStep, hpc] at hstep
    split at hstep
    case isTrue hstr =>
      split at hstep
      case isTrue hlast =>
        cases hstep
        cases after with
        | complete =>
          exact .resend p rfl (by simp [hpc, Pc.toSend]) (by simp [Pc.toSend])
            (by simp [hpc, Pc.Completing]) (by simp [surplus, hpc, hstr, hlast])
        | _ =>
          exact .keep rfl (by simp [hpc, Pc.toSend]) (by simp [hpc, Pc.Completing])
            (by simp [surplus, hpc])
      case isFalse hlast =>
        cases hstep
        cases after <;> exact .keep rfl (by simp [hpc, Pc.toSend]) (by rw [hpc]; exact Or.inl)
          (by simp [surplus, hpc, hlast])
    case isFalse hstr =>
      have hclear : s.channel.str = false := by simpa using hstr
      cases after with
      | init =>
        cases hstep
        refine .keep ?_ (by simp [hpc, Pc.toSend]) (by simp [hpc, Pc.Completing])
          (by simp [surplus, hpc])
        simp [State.dmaInit, ← hclear]
      | submit =>
        cases hstep
        exact .start p hclear (by simp [State.dmaStart]) (by simp [hpc, Pc.toSend])
          (by simp [Pc.toSend]) (by simp [Pc.Completing]) (by simp [surplus, hpc])
      | complete =>
        cases hstep
        exact .keep (by simp) (by simp [hpc, Pc.toSend]) (fun _ => Or.inr hclear)
          (by simp [surplus, hpc, hclear])

/-- What `ef2_video_submit_qwords` starts with : the packet is to be handed over. -/
structure SubmitEffect (p : Packet) (s t : State) : Prop where
  channel : t.channel = s.channel
  toSend : t.pc.toSend = p.qwords
  submitted : t.submitted = s.submitted ++ p.qwords

theorem submitQwords_effect (s : State) (p : Packet) : SubmitEffect p s (s.submitQwords p) := by
  have hsubmit : ∀ u : State, (u.dmaSubmit p).channel = u.channel ∧
      (u.dmaSubmit p).pc.toSend = p.qwords ∧ (u.dmaSubmit p).submitted = u.submitted := by
    intro u
    rw [State.dmaSubmit]
    split_ifs with hcount
    · have hempty : p.qwords = [] := List.length_eq_zero_iff.1 hcount
      exact ⟨rfl, hempty.symm, rfl⟩
    all_goals exact ⟨rfl, rfl, rfl⟩
  rw [State.submitQwords]
  dsimp only
  split
  · obtain ⟨hchannel, hsend, hsubmitted⟩ := hsubmit { s with submitted := s.submitted ++ p.qwords }
    exact ⟨hchannel, hsend, hsubmitted⟩
  · exact ⟨rfl, rfl, rfl⟩

/-- A move of the controller. -/
inductive ChannelEffect (c c' : Channel) : Prop
  | deliver (q : Qword) (hpending : c.pending = q :: c'.pending)
      (hreceived : c'.received = c.received ++ [q]) (hstr : c'.str = c.str)
  | finish (hpending : c.pending = []) (hpending' : c'.pending = [])
      (hreceived : c'.received = c.received)

theorem deliver_effect {c c' : Channel} (h : c.deliver = some c') : ChannelEffect c c' := by
  rw [Channel.deliver] at h
  split at h
  · cases h
  case h_2 q pending hpending =>
    cases h
    exact .deliver q hpending rfl rfl

theorem finish_effect {c c' : Channel} (h : c.finish = some c') : ChannelEffect c c' := by
  rw [Channel.finish] at h
  split at h
  case h_1 hpending =>
    cases h
    exact .finish hpending hpending rfl
  · cases h

/-- A step is one of the CPU, a packet given to it, or a move of the controller. -/
theorem next_cases {c : Choice} (hnext : next s c = some t) :
    (c = .cpu ∧ s.cpuStep = some t) ∨
      (∃ p, c = .submit p ∧ s.pc = .idle ∧ SubmitEffect p s t) ∨
      (c ≠ .cpu ∧ (∀ p, c ≠ .submit p) ∧
        ∃ c', ChannelEffect s.channel c' ∧ t = { s with channel := c' }) := by
  cases c with
  | cpu => exact Or.inl ⟨rfl, hnext⟩
  | submit p =>
    rw [next] at hnext
    split at hnext
    case h_1 hidle =>
      cases hnext
      exact Or.inr (Or.inl ⟨p, rfl, hidle, submitQwords_effect s p⟩)
    case h_2 => cases hnext
  | deliver =>
    obtain ⟨c', hc', rfl⟩ := Option.map_eq_some_iff.1 hnext
    exact Or.inr (Or.inr ⟨by simp, by simp, c', deliver_effect hc', rfl⟩)
  | finish =>
    obtain ⟨c', hc', rfl⟩ := Option.map_eq_some_iff.1 hnext
    exact Or.inr (Or.inr ⟨by simp, by simp, c', finish_effect hc', rfl⟩)

/-! ## Runs in which no completion wait expires -/

/-- The stream is exact : what was received, what is pending and what is still to be handed
over make up what was submitted. Only a transfer that is waited for is pending. -/
structure Exact (s : State) : Prop where
  stream : s.channel.received ++ s.channel.pending ++ s.pc.toSend = s.submitted
  busy : s.channel.pending ≠ [] → s.channel.str
  awaited : s.channel.pending ≠ [] → s.pc.Completing

theorem Exact.of_initial (h : Initial s) : Exact s where
  stream := by simp [h.idle, h.pending, h.received, h.submitted, Pc.toSend]
  busy := by simp [h.pending]
  awaited := by simp [h.pending]

theorem Exact.cpuStep (h : Exact s) (hnot : ¬s.pc.Expiring s.channel.str)
    (hstep : s.cpuStep = some t) : Exact t := by
  have hsubmitted := submitted_cpuStep hstep
  have hquiet : surplus s .cpu = 0 := (surplus_eq_zero_iff .cpu).2 hnot
  obtain ⟨hstream, hbusy, hawaited⟩ := h
  cases cpuStep_effect hstep with
  | keep hchannel hsend hwait _ =>
    constructor
    · rw [hchannel, hsend, hsubmitted, hstream]
    · rwa [hchannel]
    · rw [hchannel]
      intro hpending
      exact (hwait (hawaited hpending)).resolve_right (by simp [hbusy hpending])
  | start p hclear hchannel hsend hsent hwait _ =>
    have hnone : s.channel.pending = [] := by
      by_contra hpending
      simp [hbusy hpending] at hclear
    constructor
    · rw [hchannel, hsent, hsubmitted, ← hstream, hsend, hnone]
      simp
    · exact fun _ => by rw [hchannel]
    · rw [hchannel]
      exact hwait
  | write q hsend hchannel hwait _ =>
    have hnone : s.channel.pending = [] := by
      by_contra hpending
      exact hwait (hawaited hpending)
    constructor
    · rw [hchannel, hsubmitted, ← hstream, hsend, hnone]
      simp
    · rwa [hchannel]
    · rw [hchannel]
      exact absurd hnone
  | resend p hchannel hsent hsend hwait hsurplus =>
    have hempty : p.qwords = [] := List.length_eq_zero_iff.1 (hsurplus ▸ hquiet)
    have hnone : s.channel.pending = [] := by
      by_contra hpending
      exact hwait (hawaited hpending) hempty
    constructor
    · rw [hchannel, hsend, hempty, hsubmitted, ← hstream, hsent]
    · rwa [hchannel]
    · rw [hchannel]
      exact absurd hnone

theorem Exact.submit {p : Packet} (h : Exact s) (hidle : s.pc = .idle)
    (heffect : SubmitEffect p s t) : Exact t := by
  have hnone : s.channel.pending = [] := by
    by_contra hpending
    have hcompleting := h.awaited hpending
    rw [hidle] at hcompleting
    exact hcompleting
  constructor
  · rw [heffect.channel, heffect.toSend, heffect.submitted, ← h.stream, hidle]
    simp [Pc.toSend, hnone]
  · rw [heffect.channel]
    exact h.busy
  · rw [heffect.channel]
    exact absurd hnone

theorem Exact.channel {c : Channel} (h : Exact s) (heffect : ChannelEffect s.channel c) :
    Exact { s with channel := c } := by
  cases heffect with
  | deliver q hpending hreceived hstr =>
    have hbusy : s.channel.pending ≠ [] := by simp [hpending]
    constructor
    · rw [← h.stream, hpending, hreceived]
      simp
    · exact fun _ => hstr.trans (h.busy hbusy)
    · exact fun _ => h.awaited hbusy
  | finish hpending hpending' hreceived =>
    constructor
    · rw [← h.stream, hpending, hpending', hreceived]
    · exact absurd hpending'
    · exact absurd hpending'

theorem Exact.next {c : Choice} (h : Exact s) (hnot : NotExpiring s c)
    (hnext : next s c = some t) : Exact t := by
  rcases next_cases hnext with ⟨rfl, hstep⟩ | ⟨p, rfl, hidle, heffect⟩ | ⟨-, -, c', heffect, rfl⟩
  · exact h.cpuStep hnot hstep
  · exact h.submit hidle heffect
  · exact h.channel heffect

/-! ## Counting the surplus -/

/-- The qwords received, pending and still to be handed over. -/
def State.total (s : State) : ℕ :=
  s.channel.received.length + s.channel.pending.length + s.pc.toSend.length

/-- In every run, STR is set while something is pending, and nothing is lost. -/
structure Sane (s : State) : Prop where
  busy : s.channel.pending ≠ [] → s.channel.str
  submitted_le : s.submitted.length ≤ s.total

theorem Sane.of_initial (h : Initial s) : Sane s where
  busy := by simp [h.pending]
  submitted_le := by simp [h.submitted]

theorem Sane.cpuStep (h : Sane s) (hstep : s.cpuStep = some t) :
    (t.channel.pending ≠ [] → t.channel.str) ∧ t.total = s.total + surplus s .cpu := by
  have hbusy := h.busy
  cases cpuStep_effect hstep with
  | keep hchannel hsend _ hsurplus =>
    rw [hchannel, hsurplus, State.total, State.total, hchannel, hsend]
    exact ⟨hbusy, rfl⟩
  | start p hclear hchannel hsend hsent _ hsurplus =>
    have hnone : s.channel.pending = [] := by
      by_contra hpending
      simp [hbusy hpending] at hclear
    rw [hsurplus, State.total, State.total, hchannel, hsend, hsent, hnone]
    exact ⟨fun _ => rfl, by simp⟩
  | write q hsend hchannel _ hsurplus =>
    rw [hsurplus, State.total, State.total, hchannel, hsend]
    exact ⟨hbusy, by simp; omega⟩
  | resend p hchannel hsent hsend _ hsurplus =>
    rw [hsurplus, State.total, State.total, hchannel, hsend, hsent]
    exact ⟨hbusy, by simp⟩

/-- Each step raises what is received too much by its surplus. -/
theorem Sane.next {c : Choice} (h : Sane s) (hnext : next s c = some t) :
    Sane t ∧ t.total - t.submitted.length = s.total - s.submitted.length + surplus s c := by
  have hle := h.submitted_le
  rcases next_cases hnext with ⟨rfl, hstep⟩ | ⟨p, rfl, hidle, heffect⟩ |
    ⟨hcpu, hsubmit, c', heffect, rfl⟩
  · obtain ⟨hbusy, htotal⟩ := h.cpuStep hstep
    have hsubmitted := submitted_cpuStep hstep
    refine ⟨⟨hbusy, ?_⟩, ?_⟩ <;> rw [hsubmitted] <;> omega
  · have htotal : t.total = s.total + p.qwords.length := by
      rw [State.total, State.total, heffect.channel, heffect.toSend, hidle]
      simp [Pc.toSend]
    have hsubmitted : t.submitted.length = s.submitted.length + p.qwords.length := by
      simp [heffect.submitted]
    refine ⟨⟨by rw [heffect.channel]; exact h.busy, ?_⟩, ?_⟩
    · omega
    · simp only [surplus]
      omega
  · have hnone : surplus s c = 0 := by
      cases c with
      | cpu => exact absurd rfl hcpu
      | _ => rfl
    have htotal : ({ s with channel := c' } : State).total = s.total := by
      cases heffect with
      | deliver q hpending hreceived _ =>
        simp [State.total, hpending, hreceived]
        omega
      | finish hpending hpending' hreceived => simp [State.total, hpending, hpending', hreceived]
    refine ⟨⟨?_, htotal ▸ hle⟩, by rw [htotal, hnone]; rfl⟩
    cases heffect with
    | deliver q hpending _ hstr => exact fun _ => hstr.trans (h.busy (by simp [hpending]))
    | finish _ hpending' _ => exact absurd hpending'

/-- In a run at whose end the CPU is idle and nothing is pending, the GIF has received the
concatenation of the packets exactly when no completion wait of a started packet expired. -/
theorem stream_exact_iff {is : List Choice} (hs : Initial s)
    (hrun : Schedule.run next s is = some t) (hidle : t.pc = .idle)
    (hdone : t.channel.pending = []) :
    t.channel.received = t.submitted ↔ Schedule.Meets next NotExpiring s is := by
  constructor
  · intro hexact
    have hweight : t.total - t.submitted.length =
        s.total - s.submitted.length + Schedule.weight next surplus s is :=
      Schedule.run_weight (μ := fun u : State => u.total - u.submitted.length)
        (fun u c v hu hnext => (Sane.next hu hnext).1)
        (fun u c v hu hnext => (Sane.next hu hnext).2) (Sane.of_initial hs) hrun
    have htotal : t.total = t.submitted.length := by
      simp [State.total, hidle, hdone, hexact, Pc.toSend]
    have hzero : Schedule.weight next surplus s is = 0 := by omega
    exact ((Schedule.weight_eq_zero_iff hrun).1 hzero).mono fun u c => (surplus_eq_zero_iff c).1
  · intro hmeets
    have h := Schedule.run_invariant (fun u c v hu hnot hnext => Exact.next hu hnot hnext)
      (Exact.of_initial hs) hmeets hrun
    simpa [hidle, hdone, Pc.toSend] using h.stream

/-- The transport with DMA available and nothing sent. -/
def ready : State where
  dma := ⟨true, false, 0, 0, 0, 0, 0⟩
  channel := ⟨false, [], []⟩
  available := true
  fallbacks := 0
  pc := .idle
  submitted := []

theorem initial_ready : Initial ready :=
  ⟨rfl, rfl, rfl, rfl⟩

/-- A packet of one qword. -/
def onePacket : Packet :=
  ⟨0x100000, [⟨1, 2⟩], by decide, by decide⟩

/-- A packet by DMA, delivered before the completion wait expires. -/
def promptRun : List Choice :=
  [.submit onePacket, .cpu, .cpu, .deliver, .finish, .cpu]

theorem stream_exact_promptRun : ∃ t, Schedule.run next ready promptRun = some t ∧
    t.channel.received = [⟨1, 2⟩] ∧ Schedule.Meets next NotExpiring ready promptRun :=
  ⟨_, rfl, rfl, (stream_exact_iff initial_ready rfl rfl rfl).1 rfl⟩

/-! ## A packet received twice -/

/-- The polls of a wait up to its last one, while STR stays set. -/
theorem run_polls {p : Packet} {after : After} {timeout : ℕ} (hstr : s.channel.str)
    (hpc : s.pc = .wait p after (timeout + 1)) :
    Schedule.run next s (List.replicate timeout .cpu) = some { s with pc := .wait p after 1 } := by
  induction timeout generalizing s with
  | zero =>
    rw [Nat.zero_add] at hpc
    rw [← hpc]
    rfl
  | succ timeout ih =>
    refine Schedule.run_cons_eq_some.2 ⟨{ s with pc := .wait p after (timeout + 1) }, ?_, ?_⟩
    · simp [next, State.cpuStep, hpc, hstr]
    · exact ih hstr rfl

/-- The packet's transfer is started and its completion wait begins. -/
def started : State :=
  (({ ready with submitted := onePacket.qwords }.dmaWait onePacket .submit).dmaStart
    onePacket).dmaWait onePacket .complete

/-- The completion wait expires before the controller has delivered the packet. -/
def lateRun : List Choice :=
  [.submit onePacket, .cpu] ++ (List.replicate (dmaDefaultTimeout - 1) .cpu ++
    [.cpu, .cpu, .cpu, .deliver])

/-- The GIF receives the packet by the FIFO and by DMA. -/
theorem lateRun_not_exact : Initial ready ∧ ∃ t, Schedule.run next ready lateRun = some t ∧
    t.pc = .idle ∧ t.channel.pending = [] ∧ t.channel.received ≠ t.submitted := by
  have hstart : Schedule.run next ready [.submit onePacket, .cpu] = some started := rfl
  have hpolls : Schedule.run next started (List.replicate (dmaDefaultTimeout - 1) .cpu) =
      some { started with pc := .wait onePacket .complete 1 } := run_polls rfl rfl
  have hrest : ∃ t, Schedule.run next { started with pc := .wait onePacket .complete 1 }
      [.cpu, .cpu, .cpu, .deliver] = some t ∧ t.pc = .idle ∧ t.channel.pending = [] ∧
        t.channel.received ≠ t.submitted := ⟨_, rfl, rfl, rfl, by decide⟩
  obtain ⟨t, ht, hfacts⟩ := hrest
  refine ⟨initial_ready, t, ?_, hfacts⟩
  rw [lateRun, Schedule.run_append hstart, Schedule.run_append hpolls, ht]

end EF2SDK.Gif
