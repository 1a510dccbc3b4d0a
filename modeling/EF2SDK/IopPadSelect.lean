import EF2SDK.IopPadOutcomes
import EF2SDK.Schedule

/-!
# The selected slot

The driver skips the select command when `g_selected_slot` names the slot it wants, so its
pad transfers reach the slot exactly if that cache tells what the Multitap has selected
(`SyncedAt`). A select that succeeds writes both. `refresh_topology_port` writes 0 to the cache
and sends no select command : if the Multitap is at another slot, the next poll of slot 0
polls that other pad (`staleRun`).

The cache is out of step after a request exactly when a reset was wrong and nothing has
repaired it (`ResetsRight`) : a refresh found a Multitap at another slot than 0, or a select
failed, rediscovery found the Multitap again, and the second select failed too.
`padsSelected_iff` reads this over every sequence of requests.
-/

set_option autoImplicit false

namespace EF2SDK.IopPad

variable {m m' : Machine} {port slot : ℕ}

/-! ## Pad transfers -/

/-- From `m` to `m'` the driver only works on one endpoint : what is known about the slots
is kept, and each pad transfer logged is for that endpoint. -/
structure Drives (port slot : ℕ) (m m' : Machine) : Prop where
  slotCount : m'.slotCount = m.slotCount
  selectedSlot : m'.selectedSlot = m.selectedSlot
  multitap : m'.multitap = m.multitap
  log : ∃ es, m'.log = m.log ++ es ∧ ∀ e ∈ es, e.slot = slot ∧
    e.slotCount = m.slotCount port ∧ e.selected = m.multitap port

namespace Drives

theorem of_eq (hcount : m'.slotCount = m.slotCount) (hselected : m'.selectedSlot = m.selectedSlot)
    (htap : m'.multitap = m.multitap) (hlog : m'.log = m.log) : Drives port slot m m' :=
  ⟨hcount, hselected, htap, [], by simp [hlog], by simp⟩

theorem refl (m : Machine) : Drives port slot m m :=
  of_eq rfl rfl rfl rfl

theorem setPort (m : Machine) (s : PadState) : Drives port slot m (m.setPort port slot s) :=
  of_eq rfl rfl rfl rfl

theorem trans {m₁ m₂ m₃ : Machine} (h : Drives port slot m₁ m₂) (h' : Drives port slot m₂ m₃) :
    Drives port slot m₁ m₃ := by
  obtain ⟨es, hes, hmem⟩ := h.log
  obtain ⟨es', hes', hmem'⟩ := h'.log
  refine ⟨h'.slotCount.trans h.slotCount, h'.selectedSlot.trans h.selectedSlot,
    h'.multitap.trans h.multitap, es ++ es', by rw [hes', hes, List.append_assoc], ?_⟩
  intro e he
  rcases List.mem_append.1 he with he | he
  · exact hmem e he
  · rw [← h.slotCount, ← h.multitap]
    exact hmem' e he

end Drives

/-- A pad transfer for the endpoint is logged, at the slot selected in `m`. -/
def Issued (port slot : ℕ) (m m' : Machine) : Prop :=
  ∃ e ∈ m'.log, e.slot = slot ∧ e.slotCount = m.slotCount port ∧ e.selected = m.multitap port

/-- The driver works on one endpoint, and polls it at least once. -/
structure Polls (port slot : ℕ) (m m' : Machine) : Prop extends Drives port slot m m' where
  issued : port < portCount → Issued port slot m m'

theorem Polls.trans_drives {m₁ m₂ m₃ : Machine} (h : Polls port slot m₁ m₂)
    (h' : Drives port slot m₂ m₃) : Polls port slot m₁ m₃ where
  toDrives := h.toDrives.trans h'
  issued hport := by
    obtain ⟨e, he, hfacts⟩ := h.issued hport
    obtain ⟨es, hes, -⟩ := h'.log
    exact ⟨e, by rw [hes]; exact List.mem_append_left _ he, hfacts⟩

section PadPhase

variable {timingProfile stat70Bit : Bool} {idHint previousId : UInt8} {input : ℕ → UInt8}
  {size : ℕ} {result : ℤ} {r : PollReply}

theorem transferRaw_drives {c : Command} {o : Except ℤ Outcome} (h : m.transferRaw c = (m', o)) :
    Drives port slot m m' := by
  rw [Machine.transferRaw] at h
  split at h
  · cases h
    exact .refl m
  · dsimp only at h
    split at h <;> cases h <;> exact .of_eq rfl rfl rfl rfl

/-- The log entry of a pad transfer. -/
theorem logged_polls (m : Machine) (c : Command) : Polls port slot m { m with
    log := m.log ++ [⟨port, slot, m.slotCount port, m.multitap port, c⟩] } where
  slotCount := rfl
  selectedSlot := rfl
  multitap := rfl
  log := ⟨_, rfl, by simp⟩
  issued _ := ⟨_, List.mem_append_right _ (List.mem_singleton.2 rfl), rfl, rfl, rfl⟩

theorem transferPad_polls {o : Except ℤ Outcome} (hsize : 3 ≤ size ∧ size ≤ 32)
    (h : m.transferPad port slot timingProfile stat70Bit input size = (m', o)) :
    Polls port slot m m' := by
  rw [Machine.transferPad] at h
  split at h
  case isTrue hbad =>
    cases h
    refine ⟨.refl m, fun hport => ?_⟩
    simp only [portCount] at hport
    omega
  case isFalse =>
    dsimp only at h
    split at h
    case h_1 hraw =>
      cases h
      exact (logged_polls m _).trans_drives (transferRaw_drives hraw)
    case h_2 hraw =>
      split_ifs at h <;> cases h <;>
        exact (logged_polls m _).trans_drives (transferRaw_drives hraw)

theorem transferPoll_polls {o : Except ℤ (PollReply × Bool)}
    (h : m.transferPoll port slot idHint timingProfile stat70Bit = (m', o)) :
    Polls port slot m m' := by
  have hsize : 3 ≤ (if idHint = 0 then 5 else packetSizeForId idHint) ∧
      (if idHint = 0 then 5 else packetSizeForId idHint) ≤ 32 := by
    have hid := packetSizeForId_mem idHint
    split_ifs <;> omega
  rw [Machine.transferPoll] at h
  dsimp only at h
  split at h
  case h_1 hpad =>
    cases h
    exact transferPad_polls hsize hpad
  case h_2 hpad =>
    split_ifs at h <;> cases h <;> exact transferPad_polls hsize hpad

theorem tryProfile_polls {o : Except ℤ PollReply}
    (h : m.tryProfile port slot idHint timingProfile stat70Bit = (m', o)) :
    Polls port slot m m' := by
  rw [Machine.tryProfile] at h
  split at h
  case h_1 hpoll =>
    cases h
    exact transferPoll_polls hpoll
  case h_2 hpoll =>
    cases h
    exact (transferPoll_polls hpoll).trans_drives (.setPort _ _)

theorem findPad_polls {o : Except ℤ PollReply} (h : m.findPad port slot = (m', o)) :
    Polls port slot m m' :=
  Machine.findPad_of_attempts (F := fun m m' _ => Polls port slot m m') tryProfile_polls
    (fun hfirst hsecond => hfirst.trans_drives hsecond.toDrives) h

theorem transferCommand_drives {o : Except ℤ (ℕ → UInt8)}
    (h : m.transferCommand port slot input size = (m', o)) (hsize : 3 ≤ size ∧ size ≤ 32) :
    Drives port slot m m' := by
  rw [Machine.transferCommand] at h
  dsimp only at h
  split at h
  case h_1 hpad =>
    cases h
    exact (transferPad_polls hsize hpad).toDrives
  case h_2 hpad =>
    cases h
    exact (transferPad_polls hsize hpad).toDrives.trans (.setPort _ _)

theorem pollFull_drives {full : PollReply}
    (h : m.pollFull port slot previousId r = (m', full)) : Drives port slot m m' := by
  rw [Machine.pollFull] at h
  split at h
  · dsimp only at h
    split at h
    case h_1 hfull =>
      cases h
      exact (tryProfile_polls hfull).toDrives
    case h_2 hfull =>
      cases h
      exact (tryProfile_polls hfull).toDrives.trans (.setPort _ _)
  · cases h
    exact .refl m

theorem configureOnce_drives : Drives port slot m (m.configureOnce port slot previousId) :=
  Machine.configureOnce_along (R := Drives port slot) Drives.trans
    (fun h hsize _ => transferCommand_drives h hsize) (fun _ _ _ _ _ => .setPort _ _) m previousId

theorem padFound_drives {wasConnected : Bool} :
    Drives port slot m (m.padFound port slot wasConnected previousId r) := by
  rw [Machine.padFound]
  exact ((pollFull_drives rfl).trans configureOnce_drives).trans (.setPort _ _)

end PadPhase

/-! ## Selection -/

/-- The cache tells what the Multitap of a port has selected. -/
def SyncedAt (m : Machine) (port : ℕ) : Prop :=
  1 < m.slotCount port → m.selectedSlot port = m.multitap port

/-- Each pad transfer on a port with a Multitap found its slot selected. -/
def PadsSelected (m : Machine) : Prop :=
  ∀ e ∈ m.log, 1 < e.slotCount → e.selected = e.slot

/-- Port 0 has a Multitap of four slots, which is found, moved to slot 2 and found again ;
every other transfer times out. -/
def staleOutcomes (i : ℕ) : Outcome :=
  if i = 0 ∨ i = 6 then ⟨true, 0, 0, bytes [0, 0, 0, 4, 0, 0x5A]⟩
  else if i = 2 then ⟨true, 0, 0, bytes [0, 0, 0, 0, 0, 2]⟩
  else ⟨false, 0, 0, bytes []⟩

/-- INIT, a poll of slot 2, REFRESH_TOPOLOGY, and a poll of slot 0. -/
def staleRun : List Request :=
  [⟨.init, 12, 0, 0, 0, 0, 0⟩, ⟨.pollSlot, 12, 0, 0, 2, 0, 0⟩,
    ⟨.refreshTopology, 12, 0, 0, 0, 0, 0⟩, ⟨.pollSlot, 12, 0, 0, 0, 0, 0⟩]

/-- The second poll is meant for slot 0 and polls slot 2. -/
theorem staleRun_not_padsSelected : ∃ m,
    Schedule.run next (boot staleOutcomes) staleRun = some m ∧ ¬PadsSelected m := by
  have hlog : (Schedule.run next (boot staleOutcomes) staleRun).map
      (fun m => m.log.map fun e => (e.slot, e.slotCount, e.selected)) =
      some [(2, 4, 2), (2, 4, 2), (2, 4, 2), (0, 4, 2), (0, 4, 2), (0, 4, 2)] := by
    decide +kernel
  obtain ⟨m, hm, hmap⟩ := Option.map_eq_some_iff.1 hlog
  refine ⟨m, hm, fun hpads => ?_⟩
  have hmem : (0, 4, 2) ∈ m.log.map fun e => (e.slot, e.slotCount, e.selected) := by
    rw [hmap]
    decide
  obtain ⟨e, he, hfacts⟩ := List.mem_map.1 hmem
  have hselected := hpads e he
  simp only [Prod.mk.injEq] at hfacts
  omega

/-- A refresh resets the cache to 0 : if its query finds a Multitap, slot 0 is selected. -/
def RefreshRight (m : Machine) (port : ℕ) : Prop :=
  1 < (m.outcomes m.transfers).slotsFound → m.multitap port = 0

/-- A selection that fails resets the cache to 0 : if rediscovery finds the Multitap and the
second select fails too, slot 0 is selected. The first select ends before transfer `n`, which is
the query, and the second one before transfer `n'`. -/
def SelectRight (m : Machine) (port slot : ℕ) : Prop :=
  slot < m.slotCount port → 1 < m.slotCount port → m.selectedSlot port ≠ slot →
    ∀ n n', selectResult m.outcomes slot 3 m.transfers = (false, n) →
      1 < (m.outcomes n).slotsFound →
      selectResult m.outcomes slot 3 (n + 1) = (false, n') →
      let tap := tapAfter m.outcomes slot (m.multitap port) m.transfers n
      tapAfter m.outcomes slot tap (n + 1) n' = 0

/-- From `m` to `m'` nothing changes for the other ports. -/
structure Elsewhere (port : ℕ) (m m' : Machine) : Prop where
  slotCount : ∀ q ≠ port, m'.slotCount q = m.slotCount q
  selectedSlot : ∀ q ≠ port, m'.selectedSlot q = m.selectedSlot q
  multitap : ∀ q ≠ port, m'.multitap q = m.multitap q

/-- Nothing changes for the other ports, and no pad transfer is made. -/
structure OnPort (port : ℕ) (m m' : Machine) : Prop extends Elsewhere port m m' where
  log : m'.log = m.log

theorem Elsewhere.trans {m₁ m₂ m₃ : Machine} (h : Elsewhere port m₁ m₂)
    (h' : Elsewhere port m₂ m₃) : Elsewhere port m₁ m₃ where
  slotCount q hq := (h'.slotCount q hq).trans (h.slotCount q hq)
  selectedSlot q hq := (h'.selectedSlot q hq).trans (h.selectedSlot q hq)
  multitap q hq := (h'.multitap q hq).trans (h.multitap q hq)

theorem Elsewhere.syncedAt_iff {q : ℕ} (h : Elsewhere port m m') (hq : q ≠ port) :
    SyncedAt m' q ↔ SyncedAt m q := by
  rw [SyncedAt, SyncedAt, h.slotCount q hq, h.selectedSlot q hq, h.multitap q hq]

theorem Drives.elsewhere (h : Drives port slot m m') : Elsewhere port m m' where
  slotCount q _ := congrFun h.slotCount q
  selectedSlot q _ := congrFun h.selectedSlot q
  multitap q _ := congrFun h.multitap q

theorem Drives.syncedAt_iff (h : Drives port slot m m') (q : ℕ) :
    SyncedAt m' q ↔ SyncedAt m q := by
  rw [SyncedAt, SyncedAt, h.slotCount, h.selectedSlot, h.multitap]

theorem OnPort.trans {m₁ m₂ m₃ : Machine} (h : OnPort port m₁ m₂) (h' : OnPort port m₂ m₃) :
    OnPort port m₁ m₃ where
  toElsewhere := h.toElsewhere.trans h'.toElsewhere
  log := h'.log.trans h.log

theorem OnPort.refl (m : Machine) : OnPort port m m :=
  ⟨⟨fun _ _ => rfl, fun _ _ => rfl, fun _ _ => rfl⟩, rfl⟩

/-- `m'` differs from `m` in what the Multitaps have selected, and in the transfers made. -/
structure Tapped (m m' : Machine) : Prop where
  slotCount : m'.slotCount = m.slotCount
  selectedSlot : m'.selectedSlot = m.selectedSlot
  log : m'.log = m.log

theorem transferRaw_tapped {c : Command} {o : Except ℤ Outcome}
    (h : m.transferRaw c = (m', o)) : Tapped m m' ∧ m'.multitap = m.multitap := by
  rw [Machine.transferRaw] at h
  split at h
  · cases h
    exact ⟨⟨rfl, rfl, rfl⟩, rfl⟩
  · dsimp only at h
    split at h <;> cases h <;> exact ⟨⟨rfl, rfl, rfl⟩, rfl⟩

theorem mtapGetSlotCount_tapped (m : Machine) (port : ℕ) :
    Tapped m (m.mtapGetSlotCount port).1 ∧ (m.mtapGetSlotCount port).1.multitap = m.multitap := by
  rw [Machine.mtapGetSlotCount]
  split
  · exact ⟨⟨rfl, rfl, rfl⟩, rfl⟩
  · dsimp only
    split
    case h_1 hraw => exact transferRaw_tapped hraw
    case h_2 hraw => split_ifs <;> exact transferRaw_tapped hraw

theorem transferRaw_ok {c : Command} {o : Outcome} (h : m.transferRaw c = (m', .ok o)) :
    o = m.outcomes m.transfers ∧ o.completed := by
  rw [Machine.transferRaw] at h
  split at h
  · simp at h
  · dsimp only at h
    split at h
    · simp at h
    case isFalse hcompleted =>
      simp only [Prod.mk.injEq, Except.ok.injEq] at h
      obtain ⟨-, rfl⟩ := h
      exact ⟨rfl, not_not.1 hcompleted⟩

/-- What a select does : only the Multitap of the port may move, and it is at the slot when
the select succeeds. -/
structure Selects (port slot : ℕ) (m m' : Machine) (result : ℤ) : Prop extends Tapped m m' where
  others : ∀ q ≠ port, m'.multitap q = m.multitap q
  selected : 0 ≤ result → m'.multitap port = slot

theorem Selects.of_tapped {m₁ m₂ m₃ : Machine} {result : ℤ} (h : Tapped m₁ m₂)
    (hothers : ∀ q ≠ port, m₂.multitap q = m₁.multitap q) (h' : Selects port slot m₂ m₃ result) :
    Selects port slot m₁ m₃ result where
  slotCount := h'.slotCount.trans h.slotCount
  selectedSlot := h'.selectedSlot.trans h.selectedSlot
  log := h'.log.trans h.log
  others q hq := (h'.others q hq).trans (hothers q hq)
  selected := h'.selected

/-- The induction is on the attempts left. -/
theorem selectAttempts_selects (attempts : ℕ) (m : Machine) :
    Selects port slot m (Machine.selectAttempts port slot attempts m).1
      (Machine.selectAttempts port slot attempts m).2 := by
  induction attempts generalizing m with
  | zero => exact ⟨⟨rfl, rfl, rfl⟩, fun _ _ => rfl, fun h => by simp [Machine.selectAttempts] at h⟩
  | succ attempts ih =>
    rw [Machine.selectAttempts]
    generalize hmoved : (if (m.outcomes m.transfers).acknowledges slot then
      Function.update m.multitap port slot else m.multitap) = tap
    have hothers : ∀ q ≠ port, tap q = m.multitap q := by
      intro q hq
      rw [← hmoved]
      split
      · exact Function.update_of_ne hq _ _
      · rfl
    split
    case h_1 hraw =>
      obtain ⟨htapped, htap⟩ := transferRaw_tapped hraw
      exact .of_tapped ⟨htapped.slotCount, htapped.selectedSlot, htapped.log⟩
        (by rw [htap]; exact hothers) (ih _)
    case h_2 hraw =>
      obtain ⟨htapped, htap⟩ := transferRaw_tapped hraw
      obtain ⟨ho, hcompleted⟩ := transferRaw_ok hraw
      have hstep : ∀ {m₃ : Machine} {result : ℤ}, Selects port slot _ m₃ result →
          Selects port slot m m₃ result :=
        .of_tapped ⟨htapped.slotCount, htapped.selectedSlot, htapped.log⟩
          (by rw [htap]; exact hothers)
      split_ifs with hdevice hreject hack
      · exact hstep (ih _)
      · exact hstep ⟨⟨rfl, rfl, rfl⟩, fun _ _ => rfl, by simp⟩
      · refine hstep ⟨⟨rfl, rfl, rfl⟩, fun _ _ => rfl, fun _ => ?_⟩
        have hacknowledges : (m.outcomes m.transfers).acknowledges slot := by
          rw [← show _ = m.outcomes m.transfers from ho]
          simp [Outcome.acknowledges, hcompleted, hack]
        rw [if_pos hacknowledges] at hmoved
        rw [htap, ← hmoved]
        exact Function.update_self _ _ _
      · exact hstep (ih _)

theorem mtapSelectSlot_selects (m : Machine) (port slot : ℕ) :
    Selects port slot m (m.mtapSelectSlot port slot).1 (m.mtapSelectSlot port slot).2 := by
  rw [Machine.mtapSelectSlot]
  split
  · exact ⟨⟨rfl, rfl, rfl⟩, fun _ _ => rfl, fun h => by simp at h⟩
  · exact selectAttempts_selects 3 m

theorem Selects.onPort {result : ℤ} (h : Selects port slot m m' result) : OnPort port m m' where
  slotCount q _ := congrFun h.slotCount q
  selectedSlot q _ := congrFun h.selectedSlot q
  multitap := h.others
  log := h.log

section Refresh

variable (m : Machine) (port : ℕ)

@[simp] theorem multitap_refreshTopologyPort :
    (m.refreshTopologyPort port).multitap = m.multitap :=
  (mtapGetSlotCount_tapped m port).2

@[simp] theorem log_refreshTopologyPort : (m.refreshTopologyPort port).log = m.log :=
  (mtapGetSlotCount_tapped m port).1.log

@[simp] theorem selectedSlot_refreshTopologyPort :
    (m.refreshTopologyPort port).selectedSlot port = 0 :=
  Function.update_self _ _ _

theorem refreshTopologyPort_onPort : OnPort port m (m.refreshTopologyPort port) where
  slotCount q hq := by
    rw [← (mtapGetSlotCount_tapped m port).1.slotCount]
    exact Function.update_of_ne hq _ _
  selectedSlot q hq := by
    rw [← (mtapGetSlotCount_tapped m port).1.selectedSlot]
    exact Function.update_of_ne hq _ _
  multitap q _ := by rw [multitap_refreshTopologyPort]
  log := log_refreshTopologyPort m port

theorem syncedAt_refreshTopologyPort (hport : port < portCount) :
    SyncedAt (m.refreshTopologyPort port) port ↔ RefreshRight m port := by
  rw [SyncedAt, RefreshRight, selectedSlot_refreshTopologyPort, multitap_refreshTopologyPort,
    (refreshTopologyPort_eq hport m).2, eq_comm]

end Refresh

/-- What the outcomes say of a selection that fails, said of the driver. -/
theorem selectRight_iff (hport : port < portCount) (hslot : slot < slotCountMax) (m : Machine) :
    let rediscovered := (m.mtapSelectSlot port slot).1.refreshTopologyPort port
    SelectRight m port slot ↔
      (slot < m.slotCount port → 1 < m.slotCount port → m.selectedSlot port ≠ slot →
        (m.mtapSelectSlot port slot).2 < 0 → 1 < rediscovered.slotCount port →
        (rediscovered.mtapSelectSlot port slot).2 < 0 →
        (rediscovered.mtapSelectSlot port slot).1.multitap port = 0) := by
  intro rediscovered
  have hfirst := mtapSelectSlot_eq hport hslot m
  obtain ⟨houtcomes, htransfers, hfound, hsecond⟩ := reselect_eq hport hslot m
  have htap : rediscovered.multitap port = tapAfter m.outcomes slot (m.multitap port) m.transfers
      (selectResult m.outcomes slot 3 m.transfers).2 := by
    rw [← hfirst.transfers, ← hfirst.multitap]
    exact congrFun (multitap_refreshTopologyPort _ port) port
  have hafter := hsecond.multitap
  rw [hsecond.transfers, houtcomes, htransfers, show _ = _ from htap] at hafter
  rw [SelectRight, hfirst.result, hfound, hsecond.result, houtcomes, htransfers,
    show _ = _ from hafter]
  refine imp_congr_right fun _ => imp_congr_right fun _ => imp_congr_right fun _ =>
    ⟨fun h hfailed hmany hfailed' => ?_, fun h n n' hfailed hmany hfailed' => ?_⟩
  · exact h _ _ (Prod.ext hfailed rfl) hmany (Prod.ext hfailed' rfl)
  · rw [hfailed] at h
    have := h rfl hmany
    rw [hfailed'] at this
    exact this rfl

theorem onPort_selected (m : Machine) : OnPort port m (m.selected port slot) where
  slotCount _ _ := rfl
  selectedSlot _ hq := Function.update_of_ne hq _ _
  multitap _ _ := rfl
  log := rfl

theorem selectEndpoint_onPort (m : Machine) (port slot : ℕ) :
    OnPort port m (m.selectEndpoint port slot).1 := by
  exact Machine.selectEndpoint_along OnPort.refl OnPort.trans
    (fun m => (mtapSelectSlot_selects m port slot).onPort)
    (fun m => refreshTopologyPort_onPort m port) onPort_selected m

/-- What `select_endpoint` does, from a port whose cache is right. -/
structure SelectsEndpoint (port slot : ℕ) (m m' : Machine) (result : ℤ) : Prop where
  selected : 0 ≤ result → 1 < m'.slotCount port → m'.multitap port = slot
  synced_iff : SyncedAt m' port ↔ SelectRight m port slot
  reset : ¬SyncedAt m' port → m'.selectedSlot port = 0

/-- A selection that ends with both the cache and the Multitap at the slot. -/
theorem SelectsEndpoint.of_selected {result : ℤ} (hselected : m'.selectedSlot port = slot)
    (htap : m'.multitap port = slot) (hright : SelectRight m port slot) :
    SelectsEndpoint port slot m m' result where
  selected _ _ := htap
  synced_iff := iff_of_true (fun _ => hselected.trans htap.symm) hright
  reset hsynced := absurd (fun _ => hselected.trans htap.symm) hsynced

/-- A selection that ends with the port without a Multitap. -/
theorem SelectsEndpoint.of_native {result : ℤ} (hcount : m'.slotCount port ≤ 1)
    (hright : SelectRight m port slot) : SelectsEndpoint port slot m m' result where
  selected _ hmany := absurd hmany (Nat.not_lt.2 hcount)
  synced_iff := iff_of_true (fun hmany => absurd hmany (Nat.not_lt.2 hcount)) hright
  reset hsynced := absurd (fun hmany => absurd hmany (Nat.not_lt.2 hcount)) hsynced

/-- The cases are the ways through `select_endpoint` ; only the last one, in which both
selects fail, may leave the cache wrong. -/
theorem selectEndpoint_selects (hport : port < portCount) (hslot : slot < slotCountMax)
    (hsynced : SyncedAt m port) :
    SelectsEndpoint port slot m (m.selectEndpoint port slot).1 (m.selectEndpoint port slot).2 := by
  have hright := selectRight_iff hport hslot m
  dsimp only at hright
  rw [Machine.selectEndpoint]
  split
  case isTrue hslot =>
    exact ⟨by simp, iff_of_true hsynced fun hlt => absurd hlt (Nat.not_lt.2 hslot),
      absurd hsynced⟩
  case isFalse hslot =>
    split
    case isTrue hcount =>
      exact .of_native hcount fun _ hmany => absurd hmany (Nat.not_lt.2 hcount)
    case isFalse hcount =>
      split
      case isTrue hcached =>
        exact .of_selected hcached ((hsynced (Nat.not_le.1 hcount)).symm.trans hcached)
          fun _ _ hne => absurd hcached hne
      case isFalse hcached =>
        dsimp only
        split
        case isFalse hok =>
          have hfirst := mtapSelectSlot_selects m port slot
          exact .of_selected (Function.update_self _ _ _)
            (hfirst.selected (Int.not_lt.1 hok)) (hright.2 fun _ _ _ hfailed => absurd hfailed hok)
        case isTrue hfailed =>
          split
          case isTrue hnative =>
            exact .of_native hnative
              (hright.2 fun _ _ _ _ hmany => absurd hmany (Nat.not_lt.2 hnative))
          case isFalse hmany =>
            have hsecond := mtapSelectSlot_selects
              ((m.mtapSelectSlot port slot).1.refreshTopologyPort port) port slot
            split
            case isFalse hok =>
              exact .of_selected (Function.update_self _ _ _)
                (hsecond.selected (Int.not_lt.1 hok))
                (hright.2 fun _ _ _ _ _ hfailed => absurd hfailed hok)
            case isTrue hfailed' =>
              have hcache := congrFun hsecond.selectedSlot port
              rw [selectedSlot_refreshTopologyPort] at hcache
              have hmany' := Nat.not_le.1 hmany
              rw [← hsecond.slotCount] at hmany'
              refine ⟨fun h => absurd hfailed' (Int.not_lt.2 h), ?_, fun _ => hcache⟩
              rw [hright]
              constructor
              · intro h _ _ _ _ _ _
                exact (hcache ▸ (h hmany')).symm
              · intro hright _
                rw [hcache]
                exact (hright (Nat.not_le.1 hslot) (Nat.not_le.1 hcount) hcached hfailed
                  (Nat.not_le.1 hmany) hfailed').symm

/-! ## One port -/

/-- What a poll does after its selection. -/
theorem pollSlot_drives (m : Machine) (port slot : ℕ) :
    Drives port slot (m.selectEndpoint port slot).1 (m.pollSlot port slot).1 := by
  rw [Machine.pollSlot]
  dsimp only
  split
  · exact .setPort _ _
  · split
    case h_1 hfind => exact (findPad_polls hfind).toDrives.trans (.setPort _ _)
    case h_2 hfind => exact (findPad_polls hfind).toDrives.trans padFound_drives

theorem pollSlot_issued (hport : port < portCount) (hresult : 0 ≤ (m.selectEndpoint port slot).2) :
    Issued port slot (m.selectEndpoint port slot).1 (m.pollSlot port slot).1 := by
  rw [Machine.pollSlot]
  dsimp only
  rw [if_neg (Int.not_lt.2 hresult)]
  split
  case h_1 hfind => exact ((findPad_polls hfind).trans_drives (.setPort _ _)).issued hport
  case h_2 hfind => exact ((findPad_polls hfind).trans_drives padFound_drives).issued hport

theorem pollSlot_log_of_neg (hresult : (m.selectEndpoint port slot).2 < 0) :
    (m.pollSlot port slot).1.log = (m.selectEndpoint port slot).1.log := by
  rw [Machine.pollSlot]
  dsimp only
  rw [if_pos hresult]
  rfl

/-- An operation on a port, from a machine whose cache is right there : the cache is right
after it exactly when `ok` says so, else it was reset ; and its pad transfers find their
slot selected. -/
structure PortStep (step : Machine → ℕ → Machine) (ok : Machine → ℕ → Prop) : Prop where
  elsewhere : ∀ m port, Elsewhere port m (step m port)
  synced_iff : ∀ m {port}, port < portCount → SyncedAt m port →
    (SyncedAt (step m port) port ↔ ok m port)
  reset : ∀ m {port}, port < portCount → SyncedAt m port → ¬SyncedAt (step m port) port →
    (step m port).selectedSlot port = 0
  padsSelected : ∀ m {port}, port < portCount → SyncedAt m port → PadsSelected m →
    PadsSelected (step m port)

theorem refresh_portStep : PortStep Machine.refreshTopologyPort RefreshRight where
  elsewhere m port := (refreshTopologyPort_onPort m port).toElsewhere
  synced_iff m port hport _ := syncedAt_refreshTopologyPort m port hport
  reset m port _ _ _ := selectedSlot_refreshTopologyPort m port
  padsSelected m _ _ _ h := by rwa [PadsSelected, log_refreshTopologyPort]

theorem poll_portStep (hslot : slot < slotCountMax) :
    PortStep (fun m port => (m.pollSlot port slot).1) (SelectRight · · slot) where
  elsewhere m port :=
    (selectEndpoint_onPort m port slot).toElsewhere.trans (pollSlot_drives m port slot).elsewhere
  synced_iff m port hport hsynced :=
    ((pollSlot_drives m port slot).syncedAt_iff port).trans
      (selectEndpoint_selects hport hslot hsynced).synced_iff
  reset m port hport hsynced hafter := by
    rw [(pollSlot_drives m port slot).selectedSlot]
    rw [(pollSlot_drives m port slot).syncedAt_iff] at hafter
    exact (selectEndpoint_selects hport hslot hsynced).reset hafter
  padsSelected m port hport hsynced h := by
    have hselect : SelectsEndpoint port slot m _ _ := selectEndpoint_selects hport hslot hsynced
    have hlog := (selectEndpoint_onPort m port slot).log
    intro e he hmany
    by_cases hresult : (m.selectEndpoint port slot).2 < 0
    · rw [pollSlot_log_of_neg hresult, hlog] at he
      exact h e he hmany
    · obtain ⟨es, hpolled, hes⟩ := (pollSlot_drives m port slot).log
      rw [hpolled, hlog] at he
      rcases List.mem_append.1 he with he | he
      · exact h e he hmany
      · obtain ⟨hslot, hcount, hselected⟩ := hes e he
        rw [hselected, hslot]
        exact hselect.selected (Int.not_lt.1 hresult) (hcount ▸ hmany)

/-- An operation made only on the ports that `c` names. -/
theorem PortStep.ite {step : Machine → ℕ → Machine} {ok : Machine → ℕ → Prop}
    (h : PortStep step ok) (c : ℕ → Bool) :
    PortStep (fun m port => if c port then step m port else m) (fun m port => c port → ok m port)
    where
  elsewhere m port := by
    split
    · exact h.elsewhere m port
    · exact (OnPort.refl m).toElsewhere
  synced_iff m port hport hsynced := by
    split
    case isTrue hc => rw [h.synced_iff m hport hsynced, forall_prop_of_true hc]
    case isFalse hc => exact iff_of_true hsynced fun hc' => absurd hc' hc
  reset m port hport hsynced hafter := by
    split at hafter
    case isTrue hc =>
      rw [if_pos hc]
      exact h.reset m hport hsynced hafter
    case isFalse => exact absurd hsynced hafter
  padsSelected m port hport hsynced hpads := by
    split
    · exact h.padsSelected m hport hsynced hpads
    · exact hpads

/-! ## Both ports -/

/-- The cache is right on both ports. -/
def Synced (m : Machine) : Prop :=
  ∀ port < portCount, SyncedAt m port

/-- What a request does, from a machine whose cache is right. -/
structure RequestSpec (m m' : Machine) (ok : Prop) : Prop where
  synced_iff : Synced m' ↔ ok
  reset : ∀ port < portCount, ¬SyncedAt m' port → m'.selectedSlot port = 0
  padsSelected : PadsSelected m → PadsSelected m'

theorem RequestSpec.of_same {ok : Prop} (hsynced : Synced m) (hok : ok)
    (hafter : ∀ port, SyncedAt m' port ↔ SyncedAt m port) (hlog : m'.log = m.log) :
    RequestSpec m m' ok where
  synced_iff := iff_of_true (fun port hport => (hafter port).2 (hsynced port hport)) hok
  reset port hport hlost := absurd ((hafter port).2 (hsynced port hport)) hlost
  padsSelected h := by rwa [PadsSelected, hlog]

namespace PortStep

variable {step : Machine → ℕ → Machine} {ok : Machine → ℕ → Prop}

theorem foldl_elsewhere (h : PortStep step ok) {ports : List ℕ} {q : ℕ} (hq : q ∉ ports)
    (m : Machine) : (SyncedAt (ports.foldl step m) q ↔ SyncedAt m q) ∧
      (ports.foldl step m).selectedSlot q = m.selectedSlot q := by
  induction ports generalizing m with
  | nil => exact ⟨Iff.rfl, rfl⟩
  | cons p ports ih =>
    obtain ⟨hqp, hrest⟩ := not_or.1 (mt List.mem_cons.2 hq)
    obtain ⟨hsynced, hselected⟩ := ih hrest (step m p)
    have hstep := h.elsewhere m p
    exact ⟨hsynced.trans (hstep.syncedAt_iff hqp), hselected.trans (hstep.selectedSlot q hqp)⟩

/-- The operation on one port after the other. The induction is on the ports. -/
theorem foldl_spec (h : PortStep step ok) {ports : List ℕ} (hnodup : ports.Nodup)
    (hports : ∀ p ∈ ports, p < portCount) (hsynced : ∀ p ∈ ports, SyncedAt m p) :
    ((∀ p ∈ ports, SyncedAt (ports.foldl step m) p) ↔
      Schedule.Meets (fun m p => some (step m p)) ok m ports) ∧
    (∀ p ∈ ports, ¬SyncedAt (ports.foldl step m) p → (ports.foldl step m).selectedSlot p = 0) ∧
    (PadsSelected m → PadsSelected (ports.foldl step m)) := by
  induction ports generalizing m with
  | nil => simp [Schedule.Meets]
  | cons p ports ih =>
    obtain ⟨hp, hrest⟩ := List.nodup_cons.1 hnodup
    have hhead := hsynced p List.mem_cons_self
    have htail : ∀ q ∈ ports, SyncedAt (step m p) q := by
      intro q hq
      rw [(h.elsewhere m p).syncedAt_iff (ne_of_mem_of_not_mem hq hp)]
      exact hsynced q (List.mem_cons_of_mem _ hq)
    have hport := hports p List.mem_cons_self
    obtain ⟨hiff, hreset, hpads⟩ :=
      ih hrest (fun q hq => hports q (List.mem_cons_of_mem _ hq)) htail
    obtain ⟨hkeep, hcache⟩ := h.foldl_elsewhere hp (step m p)
    refine ⟨?_, ?_, fun hm => hpads (h.padsSelected m hport hhead hm)⟩
    · rw [List.forall_mem_cons, List.foldl_cons, hiff, hkeep, h.synced_iff m hport hhead]
      simp [Schedule.Meets]
    · rw [List.foldl_cons]
      refine List.forall_mem_cons.2 ⟨fun hlost => ?_, hreset⟩
      rw [hcache]
      exact h.reset m hport hhead (mt hkeep.2 hlost)

theorem foldl_ports (h : PortStep step ok) (hsynced : Synced m) :
    RequestSpec m ((List.range portCount).foldl step m)
      (Schedule.Meets (fun m p => some (step m p)) ok m (List.range portCount)) := by
  obtain ⟨hiff, hreset, hpads⟩ := h.foldl_spec (List.nodup_range)
    (fun p hp => List.mem_range.1 hp) (fun p hp => hsynced p (List.mem_range.1 hp))
  exact ⟨by simpa only [Synced, List.mem_range] using hiff,
    by simpa only [List.mem_range] using hreset, hpads⟩

theorem onePort (h : PortStep step ok) (hsynced : Synced m) (hport : port < portCount) :
    RequestSpec m (step m port) (ok m port) := by
  have hother : ∀ q < portCount, q ≠ port → SyncedAt (step m port) q := fun q hq hne =>
    ((h.elsewhere m port).syncedAt_iff hne).2 (hsynced q hq)
  refine ⟨?_, ?_, h.padsSelected m hport (hsynced port hport)⟩
  · rw [← h.synced_iff m hport (hsynced port hport)]
    refine ⟨fun hafter => hafter port hport, fun hafter q hq => ?_⟩
    by_cases hne : q = port
    · exact hne ▸ hafter
    · exact hother q hq hne
  · intro q hq hlost
    by_cases hne : q = port
    · subst hne
      exact h.reset m hq (hsynced q hq) hlost
    · exact absurd (hother q hq hne) hlost

end PortStep

/-! ## Requests -/

/-- Where a request leaves the cache reset to 0, the Multitap has slot 0 selected. -/
def ResetsRight (m : Machine) (r : Request) : Prop :=
  match r.function with
  | .init | .refreshTopology =>
    Schedule.Meets (fun m port => some (m.refreshTopologyPort port)) RefreshRight (m.result 0)
      (List.range portCount)
  | .poll => Request.size ≤ r.length →
      Schedule.Meets (fun m port => some (if r.names port then (m.pollSlot port 0).1 else m))
        (fun m port => r.names port → SelectRight m port 0) (m.result 0) (List.range portCount)
  | .pollSlot => Request.size ≤ r.length → r.port < portCount → r.slot < slotCountMax →
      SelectRight (m.result 0) r.port r.slot
  | .setRumble | .setRumbleSlot | .other => True

theorem rpcPoll_spec (hsynced : Synced m) (r : Request) :
    RequestSpec m (m.rpcPoll r) (Request.size ≤ r.length →
      Schedule.Meets (fun m port => some (if r.names port then (m.pollSlot port 0).1 else m))
        (fun m port => r.names port → SelectRight m port 0) m (List.range portCount)) := by
  rw [Machine.rpcPoll]
  split
  case isTrue hshort =>
    exact .of_same hsynced (fun hlong => absurd hshort (Int.not_lt.2 hlong)) (fun _ => Iff.rfl) rfl
  case isFalse hlong =>
    rw [forall_prop_of_true (Int.not_lt.1 hlong)]
    exact ((poll_portStep (show 0 < slotCountMax by decide)).ite r.names).foldl_ports hsynced

theorem rpcPollSlot_spec (hsynced : Synced m) (r : Request) :
    RequestSpec m (m.rpcPollSlot r) (Request.size ≤ r.length → r.port < portCount →
      r.slot < slotCountMax → SelectRight m r.port r.slot) := by
  obtain ⟨result, -, hrun, hbad⟩ | ⟨⟨hlong, hport, hslot, -⟩, hrun⟩ := m.rpcPollSlot_cases r
  · rw [hrun]
    exact .of_same hsynced (fun hlong hport hslot hcount =>
      absurd ⟨hlong, hport, hslot, hcount⟩ hbad) (fun _ => Iff.rfl) rfl
  · rw [hrun, forall_prop_of_true hlong, forall_prop_of_true hport, forall_prop_of_true hslot]
    have hpoll := (poll_portStep hslot).onePort hsynced hport
    exact ⟨hpoll.synced_iff, hpoll.reset, hpoll.padsSelected⟩

theorem rpcSetRumble_spec (hsynced : Synced m) (r : Request) (port slot : ℕ) :
    RequestSpec m (m.rpcSetRumble r port slot) True := by
  rw [Machine.rpcSetRumble]
  split_ifs <;> exact .of_same hsynced trivial (fun _ => Iff.rfl) rfl

/-- One request. -/
theorem rpcHandler_spec (hsynced : Synced m) (r : Request) :
    RequestSpec m (m.rpcHandler r) (ResetsRight m r) := by
  have hdispatch : RequestSpec (m.result 0) ((m.result 0).dispatch r) (ResetsRight m r) := by
    have hsynced' : Synced (m.result 0) := hsynced
    obtain ⟨function, length, portMask, port, slot, smallMotor, largeMotor⟩ := r
    cases function with
    | init | refreshTopology => exact refresh_portStep.foldl_ports hsynced'
    | poll => exact rpcPoll_spec hsynced' _
    | pollSlot => exact rpcPollSlot_spec hsynced' _
    | setRumble | setRumbleSlot => exact rpcSetRumble_spec hsynced' _ _ _
    | other => exact .of_same hsynced' trivial (fun _ => Iff.rfl) rfl
  exact ⟨hdispatch.synced_iff, hdispatch.reset, hdispatch.padsSelected⟩

theorem selectEndpoint_cached (hslot : slot < m.slotCount port) (hmany : 1 < m.slotCount port)
    (hcache : m.selectedSlot port = slot) : m.selectEndpoint port slot = (m, 0) := by
  rw [Machine.selectEndpoint, if_neg (Nat.not_le.2 hslot), if_neg (Nat.not_le.2 hmany),
    if_pos hcache]

theorem rpcPollSlot_eq {r : Request} (hlength : Request.size ≤ r.length)
    (hport : r.port < portCount) (hslot : r.slot < slotCountMax)
    (hcount : r.slot < m.slotCount r.port) :
    m.rpcPollSlot r = (m.pollSlot r.port r.slot).1.fillSlotState r.port r.slot := by
  rw [Machine.rpcPollSlot, if_neg (by omega), if_neg (Nat.not_le.2 hcount)]

/-- After a wrong reset, polling slot 0 polls another pad. -/
theorem not_padsSelected_of_stale (hport : port < portCount) (hcache : m.selectedSlot port = 0)
    (hstale : ¬SyncedAt m port) :
    ¬PadsSelected (m.rpcHandler ⟨.pollSlot, 12, 0, port, 0, 0, 0⟩) := by
  obtain ⟨hmany, htap⟩ := Classical.not_imp.1 hstale
  have hslot : 0 < m.slotCount port := Nat.zero_lt_of_lt hmany
  have hselect : (m.result 0).selectEndpoint port 0 = (m.result 0, 0) :=
    selectEndpoint_cached hslot hmany hcache
  have hissued : Issued port 0 _ ((m.result 0).pollSlot port 0).1 :=
    pollSlot_issued hport (Int.le_of_eq (congrArg Prod.snd hselect).symm)
  rw [hselect] at hissued
  obtain ⟨e, he, heslot, hcount, hselected⟩ := hissued
  have hpoll : (m.result 0).rpcPollSlot ⟨.pollSlot, 12, 0, port, 0, 0, 0⟩ =
      ((m.result 0).pollSlot port 0).1.fillSlotState port 0 :=
    rpcPollSlot_eq (Int.le_refl 12) hport (Nat.zero_lt_succ 3) hslot
  have hmem : e ∈ (m.rpcHandler ⟨.pollSlot, 12, 0, port, 0, 0, 0⟩).log := by
    change e ∈ ((m.result 0).rpcPollSlot ⟨.pollSlot, 12, 0, port, 0, 0, 0⟩).log
    rw [hpoll]
    exact he
  intro hpads
  apply htap
  calc
    m.selectedSlot port = e.slot := hcache.trans heslot.symm
    _ = e.selected := (hpads e hmem (hcount ▸ hmany)).symm
    _ = m.multitap port := hselected

/-! ## Every sequence of requests -/

theorem synced_boot (outcomes : ℕ → Outcome) : Synced (boot outcomes) :=
  fun _ _ _ => rfl

/-- Over every sequence of requests and every outcome of the transfers : whatever request
comes next, each pad transfer finds its slot selected, in every state on the way, exactly
when no reset on the way was wrong. -/
theorem padsSelected_iff (outcomes : ℕ → Outcome) (rs : List Request) :
    Schedule.Always next (fun m => ∀ r, PadsSelected (m.rpcHandler r)) (boot outcomes) rs ↔
      Schedule.Meets next ResetsRight (boot outcomes) rs := by
  have hstep : ∀ m r m', Synced m ∧ PadsSelected m → ResetsRight m r → next m r = some m' →
      Synced m' ∧ PadsSelected m' := by
    rintro m r m' ⟨hsynced, hpads⟩ hok hnext
    obtain rfl := Option.some.inj hnext
    have hspec := rpcHandler_spec hsynced r
    exact ⟨hspec.synced_iff.2 hok, hspec.padsSelected hpads⟩
  refine Schedule.always_iff_meets hstep ?_ ?_ ⟨synced_boot outcomes, by simp [PadsSelected, boot]⟩
    (Schedule.run_some _ _ _)
  · rintro m ⟨hsynced, hpads⟩ r
    exact (rpcHandler_spec hsynced r).padsSelected hpads
  · rintro m r m' ⟨hsynced, -⟩ hnext hafter
    obtain rfl := Option.some.inj hnext
    have hspec := rpcHandler_spec hsynced r
    rw [← hspec.synced_iff]
    intro port hport
    by_contra hstale
    exact not_padsSelected_of_stale hport (hspec.reset port hport hstale) hstale (hafter _)

end EF2SDK.IopPad
