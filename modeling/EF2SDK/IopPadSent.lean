import EF2SDK.IopPadRewrites

/-!
# What is sent to a pad

The pad transfers of a poll are for its endpoint. As long as the motors are not supported, the
polls among them carry no motor values (`Sends`); a pad that was not configured is asked to enter
the configuration mode if its identifier calls for it (`Enters`).
-/

set_option autoImplicit false

namespace EF2SDK.IopPad

variable {m m' : Machine} {port slot : ℕ}

/-- If the transfer is a poll, it carries no motor values. -/
def PadTransfer.Silent (e : PadTransfer) : Prop :=
  e.command.input 1 = 0x42 → e.command.input = bytes [1, 0x42]

/-- From `m` to `m'` pad transfers are made for one endpoint, without motor values if `silent`
holds. -/
def Sends (port slot : ℕ) (silent : Prop) (m m' : Machine) : Prop :=
  ∃ es, m'.log = m.log ++ es ∧ ∀ e ∈ es, e.port = port ∧ e.slot = slot ∧ (silent → e.Silent)

/-- A pad transfer that is made for the endpoint asks the pad to enter the configuration mode. -/
def Enters (port slot : ℕ) (m m' : Machine) : Prop :=
  ∃ es, m'.log = m.log ++ es ∧
    ∃ e ∈ es, e.port = port ∧ e.slot = slot ∧ e.command.input = bytes [1, 0x43, 0, 1]

namespace Sends

variable {silent silent' : Prop} {m₁ m₂ m₃ : Machine}

theorem of_log (h : m'.log = m.log) : Sends port slot silent m m' :=
  ⟨[], by rw [h, List.append_nil], by simp⟩

theorem trans (h : Sends port slot silent m₁ m₂) (h' : Sends port slot silent m₂ m₃) :
    Sends port slot silent m₁ m₃ := by
  obtain ⟨es, hlog, hes⟩ := h
  obtain ⟨es', hlog', hes'⟩ := h'
  refine ⟨es ++ es', by rw [hlog', hlog, List.append_assoc], fun e he => ?_⟩
  exact (List.mem_append.1 he).elim (hes e) (hes' e)

theorem mono (h : Sends port slot silent m m') (hsilent : silent' → silent) :
    Sends port slot silent' m m' := by
  obtain ⟨es, hlog, hes⟩ := h
  exact ⟨es, hlog, fun e he => ⟨(hes e he).1, (hes e he).2.1, fun h => (hes e he).2.2 (hsilent h)⟩⟩

end Sends

theorem Enters.trans_sends {silent : Prop} {m₁ m₂ m₃ : Machine} (h : Enters port slot m₁ m₂)
    (h' : Sends port slot silent m₂ m₃) : Enters port slot m₁ m₃ := by
  obtain ⟨es, hlog, e, he, hfacts⟩ := h
  obtain ⟨es', hlog', -⟩ := h'
  exact ⟨es ++ es', by rw [hlog', hlog, List.append_assoc], e, List.mem_append_left _ he, hfacts⟩

theorem Enters.after_sends {silent : Prop} {m₁ m₂ m₃ : Machine}
    (h : Sends port slot silent m₁ m₂) (h' : Enters port slot m₂ m₃) : Enters port slot m₁ m₃ := by
  obtain ⟨es, hlog, -⟩ := h
  obtain ⟨es', hlog', e, he, hfacts⟩ := h'
  exact ⟨es ++ es', by rw [hlog', hlog, List.append_assoc], e, List.mem_append_right _ he, hfacts⟩

section Sent

variable {silent : Prop} {idHint previousId : UInt8} {input : ℕ → UInt8}
  {size : ℕ} {r : PollReply}

theorem transferPad_logs (hport : port < portCount) (hsize : 3 ≤ size ∧ size ≤ 32)
    {timingProfile stat70Bit : Bool} {o : Except ℤ Outcome}
    (h : m.transferPad port slot timingProfile stat70Bit input size = (m', o)) :
    ∃ e, m'.log = m.log ++ [e] ∧ e.port = port ∧ e.slot = slot ∧ e.command.input = input := by
  have hport' : port < 2 := hport
  rw [Machine.transferPad, if_neg (by omega)] at h
  dsimp only at h
  refine ⟨⟨port, slot, m.slotCount port, m.multitap port,
    Machine.padCommand port timingProfile stat70Bit input size⟩, ?_, rfl, rfl, rfl⟩
  split at h
  case h_1 hraw =>
    cases h
    exact (transferRaw_quiet hraw).log
  case h_2 hraw =>
    split_ifs at h <;> cases h <;> exact (transferRaw_quiet hraw).log

theorem silent_pollInput {s : PadState} (h : s.rumbleSupported = false) (idHint : UInt8)
    (size : ℕ) : pollInput s idHint size = bytes [1, 0x42] :=
  if_neg fun hmotors => absurd hmotors.2.2 (by rw [h]; decide)

theorem tryProfile_sends (hport : port < portCount) {timingProfile stat70Bit : Bool}
    {o : Except ℤ PollReply}
    (h : m.tryProfile port slot idHint timingProfile stat70Bit = (m', o)) :
    Sends port slot ((m.ports port slot).rumbleSupported = false) m m' := by
  have hpoll {m' : Machine} {o : Except ℤ (PollReply × Bool)}
      (h : m.transferPoll port slot idHint timingProfile stat70Bit = (m', o)) :
      Sends port slot ((m.ports port slot).rumbleSupported = false) m m' := by
    have hsize : 3 ≤ (if idHint = 0 then 5 else packetSizeForId idHint) ∧
        (if idHint = 0 then 5 else packetSizeForId idHint) ≤ 32 := by
      have hid := packetSizeForId_mem idHint
      split_ifs <;> omega
    have hsent {m' : Machine} {size : ℕ} {o : Except ℤ Outcome} (hsize : 3 ≤ size ∧ size ≤ 32)
        (h : m.transferPad port slot timingProfile stat70Bit
          (pollInput (m.ports port slot) idHint size) size = (m', o)) :
        Sends port slot ((m.ports port slot).rumbleSupported = false) m m' := by
      obtain ⟨e, hlog, he, hslot, hinput⟩ := transferPad_logs hport hsize h
      refine ⟨[e], hlog, fun e' he' => ?_⟩
      rw [List.mem_singleton.1 he']
      exact ⟨he, hslot, fun hsilent _ => hinput.trans (silent_pollInput hsilent _ _)⟩
    rw [Machine.transferPoll] at h
    dsimp only at h
    split at h
    case h_1 hpad =>
      cases h
      exact hsent hsize hpad
    case h_2 hpad =>
      split_ifs at h <;> cases h <;> exact hsent hsize hpad
  rw [Machine.tryProfile] at h
  split at h
  case h_1 hfailed =>
    cases h
    exact hpoll hfailed
  case h_2 hfound =>
    cases h
    exact (hpoll hfound).trans (.of_log rfl)

theorem findPad_sends (hport : port < portCount) {o : Except ℤ PollReply}
    (h : m.findPad port slot = (m', o)) :
    Sends port slot ((m.ports port slot).rumbleSupported = false) m m' := by
  refine (Machine.findPad_of_attempts (F := fun m m' o => Finds port slot m m' o ∧
    Sends port slot ((m.ports port slot).rumbleSupported = false) m m')
    (fun h => ⟨tryProfile_finds h, tryProfile_sends hport h⟩) ?_ h).2
  rintro m₁ m₂ m₃ e o ⟨hfirst, hsent⟩ ⟨hsecond, hsent'⟩
  rw [(hfirst.failed e rfl).ports] at hsent'
  exact ⟨hfirst.orElse hsecond, hsent.trans hsent'⟩

theorem pollFull_sends (hport : port < portCount) {full : PollReply}
    (h : m.pollFull port slot previousId r = (m', full)) :
    Sends port slot ((m.ports port slot).rumbleSupported = false) m m' := by
  rw [Machine.pollFull] at h
  split at h
  · dsimp only at h
    split at h
    case h_1 hfull =>
      cases h
      exact tryProfile_sends hport hfull
    case h_2 hfull =>
      cases h
      exact (tryProfile_sends hport hfull).trans (.of_log rfl)
  · cases h
    exact .of_log rfl

theorem transferCommand_logs (hport : port < portCount) {o : Except ℤ (ℕ → UInt8)}
    (h : m.transferCommand port slot input size = (m', o)) (hsize : 3 ≤ size ∧ size ≤ 32) :
    ∃ e, m'.log = m.log ++ [e] ∧ e.port = port ∧ e.slot = slot ∧ e.command.input = input := by
  rw [Machine.transferCommand] at h
  dsimp only at h
  split at h
  case h_1 hpad =>
    cases h
    exact transferPad_logs hport hsize hpad
  case h_2 hpad =>
    cases h
    obtain ⟨e, hlog, hfacts⟩ := transferPad_logs hport hsize hpad
    exact ⟨e, hlog, hfacts⟩

theorem transferCommand_sends (hport : port < portCount) {o : Except ℤ (ℕ → UInt8)}
    (h : m.transferCommand port slot input size = (m', o)) (hsize : 3 ≤ size ∧ size ≤ 32)
    (hinput : input 1 ≠ 0x42) : Sends port slot silent m m' := by
  obtain ⟨e, hlog, hport, hslot, hsent⟩ := transferCommand_logs hport h hsize
  refine ⟨[e], hlog, fun e' he' => ?_⟩
  rw [List.mem_singleton.1 he']
  exact ⟨hport, hslot, fun _ hpoll => absurd (hsent ▸ hpoll) hinput⟩

theorem configureOnce_sends (hport : port < portCount) :
    Sends port slot silent m (m.configureOnce port slot previousId) :=
  Machine.configureOnce_along (R := Sends port slot silent) Sends.trans
    (transferCommand_sends hport) (fun _ _ _ _ _ => .of_log rfl) m previousId

/-- A pad that was not configured is asked to enter the configuration mode. -/
theorem configureOnce_enters (hport : port < portCount)
    (hfresh : (m.ports port slot).configAttempted = false)
    (hpad : shouldConfigurePad (m.ports port slot).id = true) :
    Enters port slot m (m.configureOnce port slot previousId) := by
  have henters (m : Machine) : Enters port slot m (m.configureDualshock port slot).1 :=
    Machine.configureDualshock_enters (R := Sends port slot True) (S := Enters port slot)
      Sends.trans (transferCommand_sends hport) (fun _ _ _ _ _ => .of_log rfl)
      (fun h hsize => by
        obtain ⟨e, hlog, hfacts⟩ := transferCommand_logs hport h hsize
        exact ⟨[e], hlog, e, List.mem_singleton_self e, hfacts⟩)
      Enters.trans_sends m
  have hset (s : PadState) : Sends port slot True m (m.setPort port slot s) := .of_log rfl
  rw [Machine.configureOnce]
  split
  · rw [if_pos ⟨Bool.false_ne_true, hpad⟩]
    exact .after_sends (hset _) (henters _)
  · rw [if_pos ⟨by rw [hfresh]; exact Bool.false_ne_true, hpad⟩]
    exact .after_sends (hset _) (henters _)

theorem padFound_sends (hport : port < portCount) {wasConnected : Bool} :
    Sends port slot False m (m.padFound port slot wasConnected previousId r) := by
  rw [Machine.padFound]
  exact (((pollFull_sends hport rfl).mono False.elim).trans (configureOnce_sends hport)).trans
    (.of_log rfl)

/-- What a pad is sent that is found on an endpoint whose setup was reset. -/
theorem padFound_afresh (hport : port < portCount) (wasConnected : Bool) (previousId : UInt8)
    (hid : r.reply 1 ≠ 0)
    (hm : (m.ports port slot).id ≠ 0) (hfresh : (m.ports port slot).configAttempted = false)
    (hmotors : (m.ports port slot).rumbleSupported = false) :
    Sends port slot True m (m.padFound port slot wasConnected previousId r) ∧
      (shouldConfigurePad
          ((m.padFound port slot wasConnected previousId r).ports port slot).id = true →
        Enters port slot m (m.padFound port slot wasConnected previousId r)) := by
  obtain ⟨m', hm'⟩ : ∃ m', m' = m.padFound port slot wasConnected previousId r := ⟨_, rfl⟩
  rw [← hm']
  rw [Machine.padFound] at hm'
  cases hfull : m.pollFull port slot previousId r with
  | mk m₂ full =>
    have hpolled : Sends port slot True m m₂ :=
      (pollFull_sends hport hfull).mono fun _ => hmotors
    have hconfigured : Sends port slot True m₂ (m₂.configureOnce port slot previousId) :=
      configureOnce_sends hport
    obtain ⟨-, -, -, hsetup⟩ := pollFull_identified hid hm hfull
    rw [hfull] at hm'
    have hlog : m'.log = (m₂.configureOnce port slot previousId).log := by
      rw [hm']
      rfl
    have hsame : (m'.ports port slot).id = (m₂.ports port slot).id := by
      rw [hm', ← (configureOnce_keepsId m₂ previousId).state.id]
      simp only [Machine.setPort, Function.update_self, parseReply]
    refine ⟨(hpolled.trans hconfigured).trans (.of_log hlog), fun hpad => ?_⟩
    rw [hsame] at hpad
    exact (Enters.after_sends hpolled (configureOnce_enters hport
      (hsetup.configAttempted.trans hfresh) hpad)).trans_sends
      (Sends.of_log hlog : Sends port slot True _ m')

/-- A poll makes pad transfers for its endpoint only. -/
theorem pollSlot_sends (hport : port < portCount) (m : Machine) (slot : ℕ) :
    Sends port slot False m (m.pollSlot port slot).1 := by
  have hselect : Sends port slot False m (m.selectEndpoint port slot).1 :=
    .of_log (selectEndpoint_quiet m port slot).log
  rw [Machine.pollSlot]
  dsimp only
  split
  · exact hselect.trans (.of_log rfl)
  · split
    case h_1 hfind =>
      exact (hselect.trans ((findPad_sends hport hfind).mono False.elim)).trans (.of_log rfl)
    case h_2 hfind =>
      exact (hselect.trans ((findPad_sends hport hfind).mono False.elim)).trans
        (padFound_sends hport)

end Sent

end EF2SDK.IopPad
