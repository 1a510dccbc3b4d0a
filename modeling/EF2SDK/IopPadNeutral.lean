import EF2SDK.IopPadSent
import EF2SDK.Schedule

/-!
# Disconnected slots

A reply that reports a slot without a pad should report it neutral, whatever was plugged in
before. The driver resets a slot in two places, and neither resets everything : where no pad
answers the poll, the pressures stay, and where the slot cannot be selected, everything but the
buttons stays. A slot that was never connected, or was reset completely, is neutral and stays
so; a connected one has an identifier other than 0. The replies are therefore neutral exactly
as long as no poll fails to select a connected slot, and none loses a pad whose last reply had
pressures. A pad that is connected later is then polled without motor values and configured
afresh (`repliesNeutral_iff`).
-/

set_option autoImplicit false

namespace EF2SDK.IopPad

variable {m m' : Machine} {port slot : ℕ}

/-! ## Neutral slots -/

/-- The port is reported as one without a pad. -/
structure Neutral (p : PortReply) : Prop where
  buttons : p.buttons = 0
  rawId : p.rawId = 0
  rightX : p.rightX = 0x80
  rightY : p.rightY = 0x80
  leftX : p.leftX = 0x80
  leftY : p.leftY = 0x80
  pressure : ∀ i < 12, p.pressure i = 0
  rumbleSupported : p.rumbleSupported = false
  rumbleSmall : p.rumbleSmall = false
  rumbleLarge : p.rumbleLarge = 0

/-- A port that is reported without a pad is reported neutral. -/
def ReportedNeutral (p : PortReply) : Prop :=
  p.connected = false → Neutral p

/-- The states that the driver should keep : neutral and not configured, or connected with an
identifier. -/
structure Good (s : PadState) : Prop where
  neutral : ReportedNeutral (fillRpcPort s)
  fresh : s.connected = false → s.configAttempted = false
  id : s.connected = true → s.id ≠ 0

/-- The pressures are all released. -/
def Released (s : PadState) : Prop :=
  ∀ i < 12, s.pressure i = 0

/-- What a poll must not do : fail to select a connected slot, or lose a pad whose pressures are
not released. -/
def PollKeeps (m : Machine) (port slot : ℕ) : Prop :=
  let s := m.ports port slot
  let (selected, n) := m.selection port slot
  if selected then firstReply m.outcomes n s.attempts = none → Released s else s.connected = false

/-- The endpoint, if good, stays good when `ok` holds, and else is not reported neutral. -/
abbrev Checked (port slot : ℕ) (ok : Prop) (m m' : Machine) : Prop :=
  Rewrites port slot (fun s s' => Good s → (ok → Good s')
    ∧ (ReportedNeutral (fillRpcPort s') → ok)) m m'

theorem pollSlot_checked (hport : port < portCount) (hslot : slot < slotCountMax) (m : Machine) :
    Checked port slot (PollKeeps m port slot) m (m.pollSlot port slot).1 := by
  have hselect := (selectEndpoint_quiet m port slot).toKeeps
  obtain ⟨hresult, htransfers, houtcomes⟩ := selectEndpoint_eq hport hslot m
  rw [Machine.pollSlot, PollKeeps]
  dsimp only
  by_cases hfailed : (m.selectEndpoint port slot).2 < 0
  · rw [if_pos hfailed, hresult.1 hfailed, if_neg Bool.false_ne_true]
    refine .after_keeps hselect (.setPort fun hgood => ?_)
    rw [← hselect.ports]
    refine ⟨fun hdisconnected => ?_, fun hafter => ?_⟩
    · have hneutral := hgood.neutral hdisconnected
      exact ⟨fun _ => { hneutral with buttons := rfl }, fun _ => hgood.fresh hdisconnected,
        fun h => absurd h Bool.false_ne_true⟩
    · have hid : _ = (0 : UInt8) := (hafter rfl).rawId
      by_contra hconnected
      exact hgood.id (by simpa using hconnected) hid
  · have hsucceeds : (m.selection port slot).1 = true := by
      simpa using mt hresult.2 hfailed
    rw [if_neg hfailed, if_pos hsucceeds, ← htransfers, ← houtcomes, ← hselect.ports]
    cases hfind : (m.selectEndpoint port slot).1.findPad port slot with
    | mk m₂ o =>
      have hfinds := findPad_finds hfind
      have htries := findPad_tries hport hfind
      cases o with
      | error e =>
        rw [forall_prop_of_true htries.firstReply_eq_none]
        have hkeeps := hselect.trans (hfinds.failed e rfl)
        refine .after_keeps hkeeps (.setPort fun hgood => ?_)
        rw [hselect.ports, ← hkeeps.ports]
        refine ⟨fun hreleased => ⟨fun _ => ?_, fun _ => rfl, fun h => absurd h Bool.false_ne_true⟩,
          fun hafter => (hafter rfl).pressure⟩
        exact ⟨rfl, rfl, rfl, rfl, rfl, rfl, hreleased, rfl, rfl, rfl⟩
      | ok r =>
        have hfirst : firstReply (m.selectEndpoint port slot).1.outcomes
            (m.selectEndpoint port slot).1.transfers
            ((m.selectEndpoint port slot).1.ports port slot).attempts ≠ none := by
          intro hnone
          obtain ⟨-, -, _, -, hr⟩ := htries.failed hnone
          cases hr
        obtain ⟨hid, hfound⟩ := hfinds.found r rfl
        refine .after_keeps hselect
          (hfound.trans (padFound_connects _ _ hid hfound.state.1) fun _ _ s' _ hs' _ => ?_)
        have hconnected : ¬s'.connected = false := by rw [hs'.connected]; decide
        exact ⟨fun _ => ⟨fun h => absurd h hconnected, fun h => absurd h hconnected,
          fun _ => hs'.id⟩, fun _ hnone => absurd hnone hfirst⟩

/-! ## Pads connected later -/

/-- From `m` to `m'` a pad that is connected at the endpoint starts afresh : it is polled without
motor values, its motors are off, and it is configured if its identifier calls for it. -/
structure ConnectsAfresh (port slot : ℕ) (m m' : Machine) : Prop where
  sent : ∃ es, m'.log = m.log ++ es ∧ (∀ e ∈ es, e.port = port ∧ e.slot = slot → e.Silent) ∧
    ((m'.ports port slot).connected = true → shouldConfigurePad (m'.ports port slot).id = true →
      ∃ e ∈ es, (e.port = port ∧ e.slot = slot) ∧ e.command.input = bytes [1, 0x43, 0, 1])
  motors : (m'.ports port slot).connected = true →
    (m'.ports port slot).rumbleSmall = false ∧ (m'.ports port slot).rumbleLarge = 0

/-- From `m` to `m'` the endpoint is not worked on. -/
structure Untouched (port slot : ℕ) (m m' : Machine) : Prop where
  state : m'.ports port slot = m.ports port slot
  sent : ∃ es, m'.log = m.log ++ es ∧ ∀ e ∈ es, ¬(e.port = port ∧ e.slot = slot)

namespace ConnectsAfresh

variable {m₁ m₂ m₃ : Machine}

theorem of_disconnected {silent : Prop} (h : Sends port slot silent m m') (hsilent : silent)
    (hafter : (m'.ports port slot).connected = false) : ConnectsAfresh port slot m m' := by
  have hnot : ¬(m'.ports port slot).connected = true := by rw [hafter]; decide
  obtain ⟨es, hlog, hes⟩ := h
  exact ⟨⟨es, hlog, fun e he _ => (hes e he).2.2 hsilent, fun h => absurd h hnot⟩,
    fun h => absurd h hnot⟩

theorem of_untouched (h : Untouched port slot m m')
    (hdisconnected : (m.ports port slot).connected = false) : ConnectsAfresh port slot m m' := by
  have hnot : ¬(m'.ports port slot).connected = true := by rw [h.state, hdisconnected]; decide
  obtain ⟨es, hlog, hes⟩ := h.sent
  exact ⟨⟨es, hlog, fun e he hfor => absurd hfor (hes e he), fun h => absurd h hnot⟩,
    fun h => absurd h hnot⟩

theorem then_untouched (h : ConnectsAfresh port slot m₁ m₂) (h' : Untouched port slot m₂ m₃) :
    ConnectsAfresh port slot m₁ m₃ := by
  obtain ⟨es, hlog, hsilent, hconfigured⟩ := h.sent
  obtain ⟨es', hlog', hother⟩ := h'.sent
  refine ⟨⟨es ++ es', by rw [hlog', hlog, List.append_assoc], fun e he hfor => ?_, ?_⟩, ?_⟩
  · exact (List.mem_append.1 he).elim (hsilent e · hfor) fun he => absurd hfor (hother e he)
  · rw [h'.state]
    intro hconnected hpad
    obtain ⟨e, he, hfacts⟩ := hconfigured hconnected hpad
    exact ⟨e, List.mem_append_left _ he, hfacts⟩
  · rw [h'.state]
    exact h.motors

theorem after_untouched (h : Untouched port slot m₁ m₂) (h' : ConnectsAfresh port slot m₂ m₃) :
    ConnectsAfresh port slot m₁ m₃ := by
  obtain ⟨es, hlog, hother⟩ := h.sent
  obtain ⟨es', hlog', hsilent, hconfigured⟩ := h'.sent
  refine ⟨⟨es ++ es', by rw [hlog', hlog, List.append_assoc], fun e he hfor => ?_, ?_⟩, h'.motors⟩
  · exact (List.mem_append.1 he).elim (fun he => absurd hfor (hother e he)) (hsilent e · hfor)
  · intro hconnected hpad
    obtain ⟨e, he, hfacts⟩ := hconfigured hconnected hpad
    exact ⟨e, List.mem_append_right _ he, hfacts⟩

end ConnectsAfresh

theorem pollSlot_afresh (hport : port < portCount) (hgood : Good (m.ports port slot))
    (hdisconnected : (m.ports port slot).connected = false) :
    ConnectsAfresh port slot m (m.pollSlot port slot).1 := by
  have hneutral := hgood.neutral hdisconnected
  have hquiet := selectEndpoint_quiet m port slot
  have hmotors : ((m.selectEndpoint port slot).1.ports port slot).rumbleSupported = false := by
    rw [hquiet.ports]
    exact hneutral.rumbleSupported
  have hselect : Sends port slot True m (m.selectEndpoint port slot).1 := .of_log hquiet.log
  rw [Machine.pollSlot]
  dsimp only
  split
  · exact .of_disconnected (hselect.trans (.of_log rfl)) trivial (by simp [Machine.setPort])
  · cases hfind : (m.selectEndpoint port slot).1.findPad port slot with
    | mk m₂ o =>
      have hfound := hselect.trans ((findPad_sends hport hfind).mono fun _ => hmotors)
      cases o with
      | error e =>
        exact .of_disconnected (hfound.trans (.of_log rfl)) trivial
          (by simp [Machine.padLost, Machine.setPort])
      | ok r =>
        obtain ⟨hid, -, -, hid', hsetup⟩ := (findPad_finds hfind).found r rfl
        rw [hquiet.ports] at hsetup
        obtain ⟨hsent, henters⟩ := padFound_afresh hport (m.ports port slot).connected
          (m.ports port slot).id hid hid' (hsetup.configAttempted.trans (hgood.fresh hdisconnected))
          (hsetup.rumbleSupported.trans hneutral.rumbleSupported)
        have hconnects := (padFound_connects (m.ports port slot).connected
          (m.ports port slot).id hid hid').state
        obtain ⟨es, hlog, hes⟩ := hfound.trans hsent
        refine ⟨⟨es, hlog, fun e he _ => (hes e he).2.2 trivial, fun _ hpad => ?_⟩, fun _ =>
          ⟨hconnects.rumbleSmall.trans (hsetup.rumbleSmall.trans hneutral.rumbleSmall),
            hconnects.rumbleLarge.trans (hsetup.rumbleLarge.trans hneutral.rumbleLarge)⟩⟩
        obtain ⟨es', hlog', e, he, hto, hslot, hinput⟩ := Enters.after_sends hfound (henters hpad)
        rw [List.append_cancel_left (hlog.symm.trans hlog')]
        exact ⟨e, he, ⟨hto, hslot⟩, hinput⟩

/-- A poll leaves the other endpoints alone. -/
theorem pollSlot_untouched (hport : port < portCount) (hslot : slot < slotCountMax) (m : Machine)
    {p q : ℕ} (hne : ¬(p = port ∧ q = slot)) : Untouched p q m (m.pollSlot port slot).1 := by
  obtain ⟨es, hlog, hes⟩ := pollSlot_sends hport m slot
  refine ⟨(pollSlot_checked hport hslot m).others p q hne, es, hlog, fun e he hfor => hne ?_⟩
  exact ⟨hfor.1.symm.trans (hes e he).1, hfor.2.symm.trans (hes e he).2.1⟩

/-! ## Requests -/

/-- Every endpoint is in a good state. -/
def AllGood (m : Machine) : Prop :=
  ∀ port slot, Good (m.ports port slot)

theorem Checked.allGood {ok : Prop} (h : Checked port slot ok m m') (hm : AllGood m) (hok : ok) :
    AllGood m' := by
  intro p q
  by_cases hpq : p = port ∧ q = slot
  · obtain ⟨rfl, rfl⟩ := hpq
    exact (h.state (hm p q)).1 hok
  · rw [h.others p q hpq]
    exact hm p q

/-- The functions whose reply carries the endpoint that they are about. -/
def Function.onEndpoint : Function → Bool
  | .pollSlot | .setRumble | .setRumbleSlot => true
  | .init | .poll | .refreshTopology | .other => false

/-- The ports that the reply to `r` reports : slot 0 of both ports, and the endpoint of a request
on one that succeeded. -/
def reported (r : Request) (reply : RpcReply) : List PortReply :=
  [reply.port 0, reply.port 1] ++
    if r.function.onEndpoint ∧ reply.result = 0 then [reply.slotState] else []

/-- The reply to `r` reports every slot without a pad neutral. -/
def RepliesNeutral (m : Machine) (r : Request) : Prop :=
  ∀ p ∈ reported r (m.rpcHandler r).reply, ReportedNeutral p

/-- The reply to `r` reports every slot without a pad neutral, and a pad that `r` finds on such a
slot starts afresh. -/
structure HandlesNeutral (m : Machine) (r : Request) : Prop where
  neutral : RepliesNeutral m r
  afresh : ∀ port slot, (m.ports port slot).connected = false →
    ConnectsAfresh port slot m (m.rpcHandler r)

/-- Each poll that `r` makes meets `P`, a condition on the state before it and its endpoint. -/
def EachPoll (P : Machine → ℕ → ℕ → Prop) (m : Machine) (r : Request) : Prop :=
  match r.function with
  | .poll => Request.size ≤ r.length →
      Schedule.Meets (fun m port => some (if r.names port then (m.pollSlot port 0).1 else m))
        (fun m port => r.names port → P m port 0) (m.result 0) (List.range portCount)
  | .pollSlot => Request.size ≤ r.length → r.port < portCount → r.slot < slotCountMax →
      r.slot < m.slotCount r.port → P (m.result 0) r.port r.slot
  | _ => True

/-- What the switch makes of good slots : good ones if `ok` holds, and else one that is not
reported neutral. A reported endpoint is one of the slots. -/
structure Handles (r : Request) (ok : Prop) (m m' : Machine) : Prop where
  allGood : ok → AllGood m'
  slotState : r.function.onEndpoint → m'.reply.result = 0 →
    ∃ port slot, m'.reply.slotState = fillRpcPort (m'.ports port slot)
  checks : (∀ port < portCount, ReportedNeutral (fillRpcPort (m'.ports port 0))) →
    (r.function.onEndpoint → m'.reply.result = 0 → ReportedNeutral m'.reply.slotState) → ok

variable {r : Request}

/-- A request that polls nothing and is about no endpoint, or fails. -/
theorem Handles.of_keeps {ok : Prop} (hm : AllGood m) (hports : m'.ports = m.ports)
    (hfails : r.function.onEndpoint → m'.reply.result ≠ 0) (hok : ok) : Handles r ok m m' where
  allGood _ port slot := by rw [hports]; exact hm port slot
  slotState hon hresult := absurd hresult (hfails hon)
  checks _ _ := hok

theorem rpcPoll_handles (hm : AllGood m) (hr : r.function = .poll) :
    Handles r (Request.size ≤ r.length →
      Schedule.Meets (fun m port => some (if r.names port then (m.pollSlot port 0).1 else m))
        (fun m port => r.names port → PollKeeps m port 0) m (List.range portCount))
      m (m.rpcPoll r) := by
  have hon : ¬r.function.onEndpoint := by rw [hr]; decide
  have hstep (m : Machine) {port : ℕ} (hport : port < portCount) :
      Checked port 0 (r.names port → PollKeeps m port 0) m
        (if r.names port then (m.pollSlot port 0).1 else m) := by
    split
    case isTrue hnamed =>
      rw [forall_prop_of_true hnamed]
      exact pollSlot_checked hport (by decide) m
    case isFalse hnamed =>
      exact .of_keeps (.refl m) fun s hs => ⟨fun _ => hs, fun _ hnamed' => absurd hnamed' hnamed⟩
  rw [Machine.rpcPoll]
  split
  case isTrue hshort =>
    exact .of_keeps hm rfl (fun h => absurd h hon) fun hlong => absurd hshort (Int.not_lt.2 hlong)
  case isFalse hlong =>
    rw [forall_prop_of_true (Int.not_lt.1 hlong), show List.range portCount = [0, 1] from rfl]
    have hfirst := hstep m (show 0 < portCount by decide)
    have hsecond := hstep (if r.names 0 then (m.pollSlot 0 0).1 else m)
      (show 1 < portCount by decide)
    simp only [Schedule.Meets, Option.some.injEq, forall_eq', and_true, List.foldl_cons,
      List.foldl_nil]
    refine ⟨fun hok => hsecond.allGood (hfirst.allGood hm hok.1) hok.2,
      fun h => absurd h hon, fun hports _ => ⟨?_, ?_⟩⟩
    · refine (hfirst.state (hm 0 0)).2 ?_
      rw [← hsecond.others 0 0 (by decide)]
      exact hports 0 (by decide)
    · refine (hsecond.state ?_).2 (hports 1 (by decide))
      rw [hfirst.others 1 0 (by decide)]
      exact hm 1 0

theorem rpcPollSlot_handles (hm : AllGood m) (hresult : m.reply.result = 0)
    (hr : r.function = .pollSlot) :
    Handles r (Request.size ≤ r.length → r.port < portCount → r.slot < slotCountMax →
      r.slot < m.slotCount r.port → PollKeeps m r.port r.slot) m (m.rpcPollSlot r) := by
  obtain ⟨result, hneg, hrun, hbad⟩ | ⟨⟨hlong, hport, hslot, hcount⟩, hrun⟩ := m.rpcPollSlot_cases r
  · rw [hrun]
    exact .of_keeps hm rfl (fun _ => Int.ne_of_lt hneg) fun hlong hport hslot hcount =>
      absurd ⟨hlong, hport, hslot, hcount⟩ hbad
  · rw [hrun, forall_prop_of_true hlong, forall_prop_of_true hport, forall_prop_of_true hslot,
      forall_prop_of_true hcount]
    have hpoll := pollSlot_checked hport hslot m
    refine ⟨hpoll.allGood hm, fun _ _ => ⟨r.port, r.slot, rfl⟩, fun _ hslotState => ?_⟩
    refine (hpoll.state (hm r.port r.slot)).2 (hslotState (by rw [hr]; rfl) ?_)
    exact (congrArg RpcReply.result hpoll.reply).trans hresult

/-- Only a connected pad is given motor values. -/
theorem rpcSetRumble_handles (hm : AllGood m) (port slot : ℕ) :
    Handles r True m (m.rpcSetRumble r port slot) := by
  rw [Machine.rpcSetRumble]
  split_ifs with hshort hslot hconnected hsupported
  · exact .of_keeps hm rfl (fun _ => by simp [Machine.result]) trivial
  · exact .of_keeps hm rfl (fun _ => by simp [Machine.result]) trivial
  · have hset : Checked port slot True m (m.setPort port slot { m.ports port slot with
        rumbleSmall := r.smallMotor ≠ 0
        rumbleLarge := r.largeMotor }) := by
      refine .setPort fun hgood => ⟨fun _ => ⟨fun h => ?_, hgood.fresh, hgood.id⟩, fun _ => trivial⟩
      exact absurd (hconnected.symm.trans h) (by decide)
    exact ⟨hset.allGood hm, fun _ _ => ⟨port, slot, rfl⟩, fun _ _ => trivial⟩
  · exact .of_keeps hm rfl (fun _ => by simp [Machine.result]) trivial
  · exact .of_keeps hm rfl (fun _ => by simp [Machine.result]) trivial

theorem refreshTopology_quiet (m : Machine) : Quiet m m.refreshTopology :=
  (refreshTopologyPort_quiet m 0).trans (refreshTopologyPort_quiet _ 1)

/-- The switch. -/
theorem dispatch_handles (hm : AllGood m) (r : Request) :
    Handles r (EachPoll PollKeeps m r) (m.result 0) ((m.result 0).dispatch r) := by
  have hm' : AllGood (m.result 0) := hm
  have hquiet {m' : Machine} (hr : r.function.onEndpoint = false)
      (h : m'.ports = (m.result 0).ports) : Handles r True (m.result 0) m' :=
    .of_keeps hm' h (fun hon => absurd (hr.symm.trans hon) (by decide)) trivial
  rw [Machine.dispatch, EachPoll]
  cases hr : r.function with
  | init | refreshTopology => exact hquiet (by rw [hr]; rfl) (refreshTopology_quiet _).ports
  | poll => exact rpcPoll_handles hm' hr
  | pollSlot => exact rpcPollSlot_handles hm' rfl hr
  | setRumble | setRumbleSlot => exact rpcSetRumble_handles hm' _ _
  | other => exact hquiet (by rw [hr]; rfl) rfl

/-- What a request without polls does. -/
theorem Untouched.of_same (hports : m'.ports port slot = m.ports port slot)
    (hlog : m'.log = m.log) : Untouched port slot m m' :=
  ⟨hports, [], by rw [hlog, List.append_nil], by simp⟩

/-- The two polls of a POLL request are for different endpoints. -/
theorem rpcPoll_afresh (hm : AllGood m) (r : Request)
    (hdisconnected : (m.ports port slot).connected = false) :
    ConnectsAfresh port slot m (m.rpcPoll r) := by
  have hafresh {m : Machine} {p : ℕ} (hp : p < portCount) (hgood : Good (m.ports p 0))
      (hdisconnected : (m.ports p 0).connected = false) :
      ConnectsAfresh p 0 m (if r.names p then (m.pollSlot p 0).1 else m) := by
    split
    · exact pollSlot_afresh hp hgood hdisconnected
    · exact .of_untouched (.of_same rfl rfl) hdisconnected
  have huntouched (m : Machine) {p : ℕ} (hp : p < portCount) (hne : ¬(port = p ∧ slot = 0)) :
      Untouched port slot m (if r.names p then (m.pollSlot p 0).1 else m) := by
    split
    · exact pollSlot_untouched hp (show 0 < slotCountMax by decide) m hne
    · exact .of_same rfl rfl
  have hzero : 0 < portCount := by decide
  have hone : 1 < portCount := by decide
  rw [Machine.rpcPoll]
  split
  · exact .of_untouched (.of_same rfl rfl) hdisconnected
  · rw [show List.range portCount = [0, 1] from rfl, List.foldl_cons, List.foldl_cons,
      List.foldl_nil]
    by_cases hfirst : port = 0 ∧ slot = 0
    · obtain ⟨rfl, rfl⟩ := hfirst
      exact (hafresh hzero (hm 0 0) hdisconnected).then_untouched
        (huntouched _ hone fun h => absurd h.1 Nat.zero_ne_one)
    · have hbefore := huntouched m hzero hfirst
      by_cases hsecond : port = 1 ∧ slot = 0
      · obtain ⟨rfl, rfl⟩ := hsecond
        refine .after_untouched hbefore (hafresh hone ?_ ?_)
        · rw [hbefore.state]
          exact hm 1 0
        · rw [hbefore.state]
          exact hdisconnected
      · refine (ConnectsAfresh.of_untouched hbefore hdisconnected).then_untouched ?_
        exact huntouched _ hone hsecond

theorem rpcPollSlot_afresh (hm : AllGood m) (r : Request)
    (hdisconnected : (m.ports port slot).connected = false) :
    ConnectsAfresh port slot m (m.rpcPollSlot r) := by
  obtain ⟨result, -, hrun, -⟩ | ⟨⟨-, hport, hslot, -⟩, hrun⟩ := m.rpcPollSlot_cases r
  · rw [hrun]
    exact .of_untouched (.of_same rfl rfl) hdisconnected
  · rw [hrun]
    by_cases hfor : port = r.port ∧ slot = r.slot
    · obtain ⟨rfl, rfl⟩ := hfor
      exact (pollSlot_afresh hport (hm _ _) hdisconnected).then_untouched (.of_same rfl rfl)
    · exact (ConnectsAfresh.of_untouched (pollSlot_untouched hport hslot m hfor)
        hdisconnected).then_untouched (.of_same rfl rfl)

/-- Only a connected pad is given motor values. -/
theorem rpcSetRumble_afresh (r : Request) (p q : ℕ)
    (hdisconnected : (m.ports port slot).connected = false) :
    ConnectsAfresh port slot m (m.rpcSetRumble r p q) := by
  refine .of_untouched ?_ hdisconnected
  rw [Machine.rpcSetRumble]
  split_ifs with hshort hslot hconnected hsupported
  · exact .of_same rfl rfl
  · exact .of_same rfl rfl
  · refine .of_same ?_ rfl
    have hne : ¬(port = p ∧ slot = q) := by
      rintro ⟨rfl, rfl⟩
      exact absurd (hconnected.symm.trans hdisconnected) (by decide)
    exact (Rewrites.setPort (R := fun _ _ => True) trivial).others port slot hne
  · exact .of_same rfl rfl
  · exact .of_same rfl rfl

theorem rpcHandler_afresh (hm : AllGood m) (r : Request)
    (hdisconnected : (m.ports port slot).connected = false) :
    ConnectsAfresh port slot m (m.rpcHandler r) := by
  have hm' : AllGood (m.result 0) := hm
  have hdispatch : ConnectsAfresh port slot (m.result 0) ((m.result 0).dispatch r) := by
    have hquiet := refreshTopology_quiet (m.result 0)
    rw [Machine.dispatch]
    cases r.function with
    | init | refreshTopology =>
      exact .of_untouched (.of_same (congrFun (congrFun hquiet.ports _) _) hquiet.log)
        hdisconnected
    | poll => exact rpcPoll_afresh hm' r hdisconnected
    | pollSlot => exact rpcPollSlot_afresh hm' r hdisconnected
    | setRumble | setRumbleSlot => exact rpcSetRumble_afresh r _ _ hdisconnected
    | other => exact .of_untouched (.of_same rfl rfl) hdisconnected
  exact ⟨hdispatch.sent, hdispatch.motors⟩

/-- One request. -/
theorem rpcHandler_spec_of_allGood (hm : AllGood m) (r : Request) :
    (EachPoll PollKeeps m r → AllGood (m.rpcHandler r)) ∧
      (HandlesNeutral m r ↔ EachPoll PollKeeps m r) := by
  have hhandles := dispatch_handles hm r
  have hreported : RepliesNeutral m r ↔
      (ReportedNeutral (fillRpcPort (((m.result 0).dispatch r).ports 0 0))
        ∧ ReportedNeutral (fillRpcPort (((m.result 0).dispatch r).ports 1 0)))
      ∧ (r.function.onEndpoint → ((m.result 0).dispatch r).reply.result = 0 →
        ReportedNeutral ((m.result 0).dispatch r).reply.slotState) := by
    change (∀ p ∈ [fillRpcPort _, fillRpcPort _] ++ (if r.function.onEndpoint
      ∧ ((m.result 0).dispatch r).reply.result = 0 then [_] else []), ReportedNeutral p) ↔ _
    by_cases hslot : r.function.onEndpoint ∧ ((m.result 0).dispatch r).reply.result = 0
    · simp only [hslot, and_self, if_true, List.cons_append, List.nil_append,
        List.forall_mem_cons, List.not_mem_nil, false_implies, implies_true, and_true,
        forall_const, and_assoc]
      exact Iff.rfl
    · rw [if_neg hslot]
      simp only [List.append_nil, List.forall_mem_cons, List.not_mem_nil, false_implies,
        implies_true, and_true]
      exact (and_iff_left fun hon hresult => absurd ⟨hon, hresult⟩ hslot).symm
  have hiff : HandlesNeutral m r ↔ RepliesNeutral m r :=
    ⟨HandlesNeutral.neutral, fun h => ⟨h, fun _ _ => rpcHandler_afresh hm r⟩⟩
  refine ⟨hhandles.allGood, (hiff.trans hreported).trans ⟨fun h => ?_, fun hok => ?_⟩⟩
  · refine hhandles.checks (fun port hport => ?_) h.2
    match port, hport with
    | 0, _ => exact h.1.1
    | 1, _ => exact h.1.2
  · have hgood := hhandles.allGood hok
    refine ⟨⟨(hgood 0 0).neutral, (hgood 1 0).neutral⟩, fun hon hresult => ?_⟩
    obtain ⟨port, slot, hslotState⟩ := hhandles.slotState hon hresult
    rw [hslotState]
    exact (hgood port slot).neutral

/-- Over every sequence of requests and every outcome of the transfers : every reply reports the
slots without a pad neutral, and a pad connected later starts afresh, exactly when no poll fails
to select a connected slot, and none loses a pad whose pressures are not released. -/
theorem repliesNeutral_iff (outcomes : ℕ → Outcome) (rs : List Request) :
    Schedule.Meets next HandlesNeutral (boot outcomes) rs ↔
      Schedule.Meets next (EachPoll PollKeeps) (boot outcomes) rs := by
  refine Schedule.meets_congr (fun m r hm => (rpcHandler_spec_of_allGood hm r).2) ?_ ?_ rs
  · intro m r m' hm hok hnext
    obtain rfl := Option.some.inj hnext
    exact (rpcHandler_spec_of_allGood hm r).1 hok
  · intro port slot
    exact ⟨fun _ => ⟨rfl, rfl, rfl, rfl, rfl, rfl, fun _ _ => rfl, rfl, rfl, rfl⟩,
      fun _ => rfl, nofun⟩

/-- A pad whose identifier 0x59 has a full packet answers two polls, with the first pressure at 1.
Every other transfer times out. -/
def unpluggedOutcomes (i : ℕ) : Outcome :=
  if i < 2 then
    ⟨true, 0, 0, bytes [0xFF, 0x59, 0x5A, 0xFF, 0xFF, 0x80, 0x80, 0x80, 0x80, 1]⟩
  else ⟨false, 0, 0, bytes []⟩

/-- A poll of port 0. -/
def pollFirst : Request :=
  ⟨.poll, 12, 1, 0, 0, 0, 0⟩

/-- After two polls, the reply reports the port without a pad and with its first pressure at 1. -/
theorem unpluggedRun_not_neutral :
    ¬Schedule.Meets next HandlesNeutral (boot unpluggedOutcomes) [pollFirst, pollFirst] := by
  intro h
  have hport := (h.2 _ rfl).1.neutral _ List.mem_cons_self
  have hlost : ((((boot unpluggedOutcomes).rpcHandler pollFirst).rpcHandler
      pollFirst).reply.port 0).connected = false := by
    decide +kernel
  have hpressure : ((((boot unpluggedOutcomes).rpcHandler pollFirst).rpcHandler
      pollFirst).reply.port 0).pressure 0 = 1 := by
    decide +kernel
  exact absurd (hpressure.symm.trans ((hport hlost).pressure 0 (by decide))) (by decide)

end EF2SDK.IopPad
