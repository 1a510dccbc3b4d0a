import EF2SDK.IopPad

/-!
# What the outcomes decide

How a poll goes is decided by the outcomes of its transfers : which attempt to select the slot
succeeds (`selectResult`), how many slots rediscovery finds (`Outcome.slotsFound`), and which of
the polls that look for a pad is answered first (`firstReply`). These functions read the outcomes
in the order of the transfers and run no part of the driver, so that what is asked of the pads and
Multitaps can be stated with them; `selectEndpoint_eq` and `findPad_tries` tell that the driver
goes by them.
-/

set_option autoImplicit false

namespace EF2SDK.IopPad

variable {m m' : Machine} {port slot : ℕ}

/-! ## Selection -/

/-- The slots that `refresh_topology_port` finds when its query has this outcome, 1 where it finds
no Multitap. -/
def Outcome.slotsFound (o : Outcome) : ℕ :=
  if o.completed ∧ ¬o.noDevice ∧ o.output 5 ≠ 0x66 ∧ 2 ≤ o.output 3 ∧ o.output 3 ≤ 4 then
    (o.output 3).toNat
  else 1

/-- What an attempt to select `slot` comes to : it succeeds, it is refused, or it is repeated. -/
def Outcome.selects (o : Outcome) (slot : ℕ) : Option Bool :=
  if ¬o.completed ∨ o.noDevice then none
  else if o.output 5 = 0x66 then some false
  else if o.output 5 = UInt8.ofNat slot then some true
  else none

/-- Whether one of the attempts to select `slot` succeeds, the first of which is the transfer
numbered `n`, with the number of the transfer after them. -/
def selectResult (outcomes : ℕ → Outcome) (slot : ℕ) : ℕ → ℕ → Bool × ℕ
  | 0, n => (false, n)
  | attempts + 1, n =>
    match (outcomes n).selects slot with
    | some succeeds => (succeeds, n + 1)
    | none => selectResult outcomes slot attempts (n + 1)

/-- The slot that a Multitap at `tap` has selected after the transfers from `n` up to `n'`, which
are attempts to select `slot`. -/
def tapAfter (outcomes : ℕ → Outcome) (slot tap n n' : ℕ) : ℕ :=
  if ∃ k < n', n ≤ k ∧ (outcomes k).acknowledges slot then slot else tap

theorem tapAfter_self (outcomes : ℕ → Outcome) (slot tap n : ℕ) :
    tapAfter outcomes slot tap n n = tap :=
  if_neg fun ⟨_, hlt, hle, _⟩ => absurd hle (Nat.not_le.2 hlt)

theorem tapAfter_of_lt {n n' : ℕ} (h : n < n') (outcomes : ℕ → Outcome) (slot tap : ℕ) :
    tapAfter outcomes slot tap n n' = tapAfter outcomes slot
      (if (outcomes n).acknowledges slot then slot else tap) (n + 1) n' := by
  rw [tapAfter, tapAfter]
  by_cases hn : (outcomes n).acknowledges slot
  · rw [if_pos ⟨n, h, Nat.le_refl n, hn⟩, if_pos hn, ite_self]
  · rw [if_neg hn]
    refine if_congr (exists_congr fun k => and_congr_right fun _ => ?_) rfl rfl
    refine and_congr_left fun hk => ⟨fun hle => ?_, Nat.le_of_succ_le⟩
    exact Nat.lt_of_le_of_ne hle fun heq => hn (heq ▸ hk)

theorem le_selectResult (outcomes : ℕ → Outcome) (slot attempts n : ℕ) :
    n ≤ (selectResult outcomes slot attempts n).2 := by
  induction attempts generalizing n with
  | zero => exact Nat.le_refl n
  | succ attempts ih =>
    rw [selectResult]
    split
    · exact Nat.le_succ n
    · exact Nat.le_of_succ_le (ih (n + 1))

/-- `select_endpoint` by the outcomes : whether it succeeds, with the number of the transfer after
it. -/
def Machine.selection (m : Machine) (port slot : ℕ) : Bool × ℕ :=
  if m.slotCount port ≤ slot then (false, m.transfers)
  else if m.slotCount port ≤ 1 ∨ m.selectedSlot port = slot then (true, m.transfers)
  else
    let first := selectResult m.outcomes slot 3 m.transfers
    if first.1 then first
    else if (m.outcomes first.2).slotsFound ≤ 1 then (slot = 0, first.2 + 1)
    else selectResult m.outcomes slot 3 (first.2 + 1)

theorem transferRaw_eq {c : Command} (h : ¬(c.logicalPort ≥ 4 ∨ c.size = 0 ∨ c.size > 32)) :
    m.transferRaw c = ({ m with transfers := m.transfers + 1 },
      if ¬(m.outcomes m.transfers).completed then .error (-2)
      else .ok (m.outcomes m.transfers)) := by
  rw [Machine.transferRaw, if_neg h]
  dsimp only
  split_ifs <;> rfl

/-- One transfer is made and no endpoint is rewritten. -/
structure OneTransfer (m m' : Machine) : Prop where
  ports : m'.ports = m.ports
  outcomes : m'.outcomes = m.outcomes
  transfers : m'.transfers = m.transfers + 1

/-! ## Replies by the outcomes -/

/-- `ef2_sio2_transfer_pad` accepts the outcome of its transfer. -/
def Outcome.answered (o : Outcome) : Bool :=
  o.completed ∧ ¬o.recv1 &&& (1 : UInt32) <<< 13 ≠ 0 ∧ ¬o.noDevice

/-- What `transfer_poll` makes of the outcome of its transfer. -/
def Outcome.pollReply (o : Outcome) (idHint : UInt8) (stat70Bit : Bool) : Option PollReply :=
  let size := if idHint = 0 then 5 else packetSizeForId idHint
  let output := fun i => if i < size then o.output i else 0
  let output := if stat70Bit then shiftStat70Reply output size else output
  if o.answered ∧ responseLooksLikePad output size then some ⟨output, size⟩ else none

/-- The polls that look for a pad : the identifier that sizes each, and its STAT70 bit. -/
def PadState.attempts (s : PadState) : List (UInt8 × Bool) :=
  let discovery := [(0, s.stat70Bit), (0, false), (0, true)]
  if s.connected then (s.id, s.stat70Bit) :: (s.id, false) :: discovery else discovery

/-- The first of the polls that is answered, with the number of its transfer. -/
def firstReply (outcomes : ℕ → Outcome) : ℕ → List (UInt8 × Bool) → Option (ℕ × PollReply)
  | _, [] => none
  | n, (idHint, stat70Bit) :: attempts =>
    match (outcomes n).pollReply idHint stat70Bit with
    | some r => some (n, r)
    | none => firstReply outcomes (n + 1) attempts

theorem id_ne_zero_of_looksLikePad {buffer : ℕ → UInt8} {size : ℕ}
    (h : responseLooksLikePad buffer size = true) : buffer 1 ≠ 0 := by
  simp only [responseLooksLikePad, decide_eq_true_eq] at h
  exact h.2.1

theorem Outcome.size_of_pollReply {o : Outcome} {idHint : UInt8} {stat70Bit : Bool} {r : PollReply}
    (h : o.pollReply idHint stat70Bit = some r) :
    r.size = (if idHint = 0 then 5 else packetSizeForId idHint) ∧ r.reply 1 ≠ 0 := by
  simp only [Outcome.pollReply, Option.ite_none_right_eq_some, Option.some.injEq] at h
  obtain ⟨⟨-, hlooks⟩, rfl⟩ := h
  exact ⟨rfl, id_ne_zero_of_looksLikePad hlooks⟩

theorem mem_of_firstReply {outcomes : ℕ → Outcome} {n k : ℕ} {r : PollReply}
    {attempts : List (UInt8 × Bool)} (h : firstReply outcomes n attempts = some (k, r)) :
    ∃ idHint stat70Bit, (idHint, stat70Bit) ∈ attempts ∧
      (outcomes k).pollReply idHint stat70Bit = some r := by
  induction attempts generalizing n with
  | nil => cases h
  | cons attempt attempts ih =>
    rw [firstReply] at h
    split at h
    case h_1 r' hreply =>
      cases h
      exact ⟨_, _, List.mem_cons_self, hreply⟩
    case h_2 =>
      obtain ⟨idHint, stat70Bit, hmem, hreply⟩ := ih h
      exact ⟨idHint, stat70Bit, List.mem_cons_of_mem _ hmem, hreply⟩

theorem or_two_lt (hport : port < portCount) : port ||| 2 < 4 := by
  match port, hport with
  | 0, _ => decide
  | 1, _ => decide

theorem mtapGetSlotCount_eq (hport : port < portCount) (m : Machine) :
    ∃ slots : ℤ, m.mtapGetSlotCount port = ({ m with transfers := m.transfers + 1 }, slots) ∧
      (if slots ≥ 2 ∧ slots ≤ slotCountMax then slots.toNat else 1) =
        (m.outcomes m.transfers).slotsFound := by
  have hlogical := or_two_lt hport
  obtain ⟨o, ho⟩ : ∃ o, o = m.outcomes m.transfers := ⟨_, rfl⟩
  rw [Machine.mtapGetSlotCount, if_neg (Nat.not_le.2 hport)]
  dsimp only
  rw [transferRaw_eq (by dsimp only; omega), ← ho, Outcome.slotsFound]
  by_cases hcompleted : o.completed
  · rw [if_neg (not_not.2 hcompleted)]
    dsimp only
    split_ifs with hdevice hreject hcount hfound <;>
      refine ⟨_, rfl, ?_⟩ <;>
      simp_all [slotCountMax, UInt8.le_iff_toNat_le, UInt8.lt_iff_toNat_lt]
    all_goals omega
  · rw [if_pos hcompleted, if_neg (by simp [hcompleted])]
    exact ⟨-2, rfl, rfl⟩

theorem refreshTopologyPort_eq (hport : port < portCount) (m : Machine) :
    OneTransfer m (m.refreshTopologyPort port) ∧
      (m.refreshTopologyPort port).slotCount port = (m.outcomes m.transfers).slotsFound := by
  obtain ⟨slots, hquery, hfound⟩ := mtapGetSlotCount_eq hport m
  rw [Machine.refreshTopologyPort, hquery]
  exact ⟨⟨rfl, rfl, rfl⟩, (Function.update_self _ _ _).trans hfound⟩

/-- What the attempts to select a slot do. -/
structure SelectsBy (port slot attempts : ℕ) (m m' : Machine) (result : ℤ) : Prop where
  ports : m'.ports = m.ports
  outcomes : m'.outcomes = m.outcomes
  transfers : m'.transfers = (selectResult m.outcomes slot attempts m.transfers).2
  result : result < 0 ↔ (selectResult m.outcomes slot attempts m.transfers).1 = false
  multitap : m'.multitap port = tapAfter m.outcomes slot (m.multitap port) m.transfers m'.transfers

/-- The machine after one attempt. -/
def attempted (port slot : ℕ) (m : Machine) : Machine :=
  { m with
    multitap := if (m.outcomes m.transfers).acknowledges slot then
        Function.update m.multitap port slot
      else m.multitap
    transfers := m.transfers + 1 }

theorem tapAfter_attempted (m : Machine) {n : ℕ} (h : m.transfers < n) :
    tapAfter m.outcomes slot ((attempted port slot m).multitap port) (m.transfers + 1) n =
      tapAfter m.outcomes slot (m.multitap port) m.transfers n := by
  have htap : (attempted port slot m).multitap port =
      if (m.outcomes m.transfers).acknowledges slot then slot else m.multitap port := by
    rw [attempted]
    dsimp only
    split
    · exact Function.update_self _ _ _
    · rfl
  rw [tapAfter_of_lt h, htap]

namespace SelectsBy

variable {attempts : ℕ} {m m' : Machine} {result : ℤ}

/-- The attempt decides the selection. -/
theorem ends {succeeds : Bool} (hresult : result < 0 ↔ succeeds = false)
    (hselects : (m.outcomes m.transfers).selects slot = some succeeds) :
    SelectsBy port slot (attempts + 1) m (attempted port slot m) result := by
  have hnext : selectResult m.outcomes slot (attempts + 1) m.transfers =
      (succeeds, m.transfers + 1) := by
    rw [selectResult, hselects]
  refine ⟨rfl, rfl, by rw [hnext]; rfl, by rw [hnext]; exact hresult, ?_⟩
  exact (tapAfter_self _ _ _ _).symm.trans (tapAfter_attempted m (Nat.lt_succ_self _))

/-- The attempt is repeated. -/
theorem repeats (hselects : (m.outcomes m.transfers).selects slot = none)
    (hrest : SelectsBy port slot attempts (attempted port slot m) m' result) :
    SelectsBy port slot (attempts + 1) m m' result := by
  have hnext : selectResult m.outcomes slot (attempts + 1) m.transfers =
      selectResult m.outcomes slot attempts (m.transfers + 1) := by
    rw [selectResult, hselects]
  have hlt : m.transfers + 1 ≤ m'.transfers :=
    hrest.transfers ▸ le_selectResult _ slot attempts (m.transfers + 1)
  refine ⟨hrest.ports, hrest.outcomes, ?_, ?_, ?_⟩
  · rw [hnext]
    exact hrest.transfers
  · rw [hnext]
    exact hrest.result
  · exact hrest.multitap.trans (tapAfter_attempted m hlt)

end SelectsBy

/-- The induction is on the attempts left. -/
theorem selectAttempts_eq (hport : port < portCount) (attempts : ℕ) (m : Machine) :
    SelectsBy port slot attempts m (Machine.selectAttempts port slot attempts m).1
      (Machine.selectAttempts port slot attempts m).2 := by
  have hlogical := or_two_lt hport
  induction attempts generalizing m with
  | zero =>
    exact ⟨rfl, rfl, rfl, iff_of_true (show (-4 : ℤ) < 0 by decide) rfl,
      (tapAfter_self _ _ _ _).symm⟩
  | succ attempts ih =>
    obtain ⟨o, ho⟩ : ∃ o, o = m.outcomes m.transfers := ⟨_, rfl⟩
    have hattempted : { m with
        multitap := if o.acknowledges slot then Function.update m.multitap port slot
          else m.multitap
        transfers := m.transfers + 1 } = attempted port slot m := by
      rw [ho]
      rfl
    have hends {succeeds : Bool} {result : ℤ} (hresult : result < 0 ↔ succeeds = false)
        (hselects : o.selects slot = some succeeds) :
        SelectsBy port slot (attempts + 1) m (attempted port slot m) result :=
      .ends hresult (ho ▸ hselects)
    have hrepeats (hselects : o.selects slot = none) :=
      SelectsBy.repeats (ho ▸ hselects) (ih (attempted port slot m))
    rw [Machine.selectAttempts, transferRaw_eq (by dsimp only; omega)]
    dsimp only
    rw [← ho, hattempted]
    by_cases hcompleted : o.completed
    · rw [if_neg (not_not.2 hcompleted)]
      dsimp only
      split_ifs with hdevice hreject hack
      · exact hrepeats (if_pos (Or.inr hdevice))
      · refine hends (iff_of_true (show (-3 : ℤ) < 0 by decide) rfl) ?_
        rw [Outcome.selects, if_neg (by simp [hcompleted, hdevice]), if_pos hreject]
      · refine hends (iff_of_false (Int.lt_irrefl 0) (show ¬true = false by decide)) ?_
        rw [Outcome.selects, if_neg (by simp [hcompleted, hdevice]), if_neg hreject, if_pos hack]
      · refine hrepeats ?_
        rw [Outcome.selects, if_neg (by simp [hcompleted, hdevice]), if_neg hreject, if_neg hack]
    · rw [if_pos hcompleted]
      exact hrepeats (if_pos (Or.inl hcompleted))

theorem mtapSelectSlot_eq (hport : port < portCount) (hslot : slot < slotCountMax) (m : Machine) :
    SelectsBy port slot 3 m (m.mtapSelectSlot port slot).1 (m.mtapSelectSlot port slot).2 := by
  have hport' : port < 2 := hport
  have hslot' : slot < 4 := hslot
  rw [Machine.mtapSelectSlot, if_neg (by omega)]
  exact selectAttempts_eq hport 3 m

/-- Rediscovery after a select that failed, and the second select. -/
theorem reselect_eq (hport : port < portCount) (hslot : slot < slotCountMax) (m : Machine) :
    let first := selectResult m.outcomes slot 3 m.transfers
    let m' := (m.mtapSelectSlot port slot).1.refreshTopologyPort port
    m'.outcomes = m.outcomes ∧ m'.transfers = first.2 + 1 ∧
      m'.slotCount port = (m.outcomes first.2).slotsFound ∧
      SelectsBy port slot 3 m' (m'.mtapSelectSlot port slot).1 (m'.mtapSelectSlot port slot).2 := by
  intro first m'
  have hfirst := mtapSelectSlot_eq hport hslot m
  obtain ⟨hrefresh, hcount⟩ := refreshTopologyPort_eq hport (m.mtapSelectSlot port slot).1
  rw [hfirst.outcomes, hfirst.transfers] at hcount
  exact ⟨hrefresh.outcomes.trans hfirst.outcomes,
    hrefresh.transfers.trans (congrArg (· + 1) hfirst.transfers), hcount,
    mtapSelectSlot_eq hport hslot m'⟩

/-- `select_endpoint` goes by the outcomes. -/
theorem selectEndpoint_eq (hport : port < portCount) (hslot : slot < slotCountMax) (m : Machine) :
    ((m.selectEndpoint port slot).2 < 0 ↔ (m.selection port slot).1 = false) ∧
      (m.selectEndpoint port slot).1.transfers = (m.selection port slot).2 ∧
      (m.selectEndpoint port slot).1.outcomes = m.outcomes := by
  have hfirst := mtapSelectSlot_eq hport hslot m
  obtain ⟨houtcomes, htransfers, hfound, hsecond⟩ := reselect_eq hport hslot m
  have hsucceeds : (0 : ℤ) < 0 ↔ true = false := iff_of_false (Int.lt_irrefl 0) Bool.noConfusion
  rw [Machine.selectEndpoint, Machine.selection]
  by_cases hmissing : m.slotCount port ≤ slot
  · rw [if_pos hmissing, if_pos hmissing]
    exact ⟨iff_of_true (show (-1 : ℤ) < 0 by decide) rfl, rfl, rfl⟩
  rw [if_neg hmissing, if_neg hmissing]
  by_cases hnative : m.slotCount port ≤ 1
  · rw [if_pos hnative, if_pos (Or.inl hnative), if_pos (show slot = 0 by omega)]
    exact ⟨hsucceeds, rfl, rfl⟩
  rw [if_neg hnative]
  by_cases hcached : m.selectedSlot port = slot
  · rw [if_pos hcached, if_pos (Or.inr hcached)]
    exact ⟨hsucceeds, rfl, rfl⟩
  rw [if_neg hcached, if_neg (not_or.2 ⟨hnative, hcached⟩)]
  dsimp only
  by_cases hfailed : (m.mtapSelectSlot port slot).2 < 0
  · have hfails : ¬(selectResult m.outcomes slot 3 m.transfers).1 = true := by
      rw [hfirst.result.1 hfailed]
      decide
    rw [if_pos hfailed, if_neg hfails, hfound]
    by_cases hnone : (m.outcomes (selectResult m.outcomes slot 3 m.transfers).2).slotsFound ≤ 1
    · rw [if_pos hnone, if_pos hnone]
      refine ⟨?_, htransfers, houtcomes⟩
      by_cases hzero : slot = 0 <;> simp [hzero]
    · rw [if_neg hnone, if_neg hnone, ← htransfers, ← houtcomes, ← hsecond.result]
      split
      case isTrue hfailed' =>
        exact ⟨iff_of_true hfailed' hfailed', hsecond.transfers, hsecond.outcomes⟩
      case isFalse hfailed' =>
        exact ⟨iff_of_false (Int.lt_irrefl 0) hfailed', hsecond.transfers, hsecond.outcomes⟩
  · have hfirst' : (selectResult m.outcomes slot 3 m.transfers).1 = true := by
      simpa using mt hfirst.result.2 hfailed
    rw [if_neg hfailed, if_pos hfirst', hfirst']
    exact ⟨hsucceeds, hfirst.transfers, hfirst.outcomes⟩

/-! ## The polls that look for a pad -/

theorem transferPad_eq (hport : port < portCount) (m : Machine) (slot : ℕ)
    (timingProfile stat70Bit : Bool) (input : ℕ → UInt8) {size : ℕ} (hsize : 5 ≤ size ∧ size ≤ 32) :
    ∃ m', OneTransfer m m' ∧ ∃ e < 0,
      m.transferPad port slot timingProfile stat70Bit input size =
        (m', if (m.outcomes m.transfers).answered then .ok (m.outcomes m.transfers)
          else .error e) := by
  have hport : port < 2 := hport
  obtain ⟨o, ho⟩ : ∃ o, o = m.outcomes m.transfers := ⟨_, rfl⟩
  obtain ⟨c, hc⟩ : ∃ c, c = Machine.padCommand port timingProfile stat70Bit input size := ⟨_, rfl⟩
  have hraw : ¬(c.logicalPort ≥ 4 ∨ c.size = 0 ∨ c.size > 32) := by
    rw [hc]
    simp only [Machine.padCommand]
    omega
  refine ⟨{ m with
    log := m.log ++ [⟨port, slot, m.slotCount port, m.multitap port, c⟩]
    transfers := m.transfers + 1 }, ⟨rfl, rfl, rfl⟩, ?_⟩
  rw [Machine.transferPad, if_neg (by omega), ← hc]
  dsimp only
  rw [transferRaw_eq hraw]
  dsimp only
  rw [← ho]
  by_cases hcompleted : o.completed
  · rw [if_neg (not_not.2 hcompleted)]
    dsimp only
    by_cases hrecv : o.recv1 &&& (1 : UInt32) <<< 13 ≠ 0
    · exact ⟨-3, by decide, by simp [hrecv, Outcome.answered]⟩
    · by_cases hdevice : o.noDevice
      · exact ⟨-4, by decide, by simp [hrecv, hdevice, Outcome.answered]⟩
      · exact ⟨-4, by decide, by simp [hcompleted, hrecv, hdevice, Outcome.answered]⟩
  · exact ⟨-2, by decide, by simp [hcompleted, Outcome.answered]⟩

theorem transferPoll_eq (hport : port < portCount) (m : Machine) (slot : ℕ) (idHint : UInt8)
    (timingProfile stat70Bit : Bool) :
    ∃ m', OneTransfer m m' ∧ ∃ e < 0,
      m.transferPoll port slot idHint timingProfile stat70Bit =
        (m', match (m.outcomes m.transfers).pollReply idHint stat70Bit with
          | some r => .ok (r, (m.outcomes m.transfers).stat70 port)
          | none => .error e) := by
  obtain ⟨size, hsize⟩ : ∃ size, size = if idHint = 0 then 5 else packetSizeForId idHint :=
    ⟨_, rfl⟩
  have hbounds : 5 ≤ size ∧ size ≤ 32 := by
    have := packetSizeForId_mem idHint
    rw [hsize]
    split_ifs <;> omega
  obtain ⟨m', hm', e, he, hpad⟩ := transferPad_eq hport m slot timingProfile stat70Bit
    (pollInput (m.ports port slot) idHint size) hbounds
  refine ⟨m', hm', ?_⟩
  simp only [Machine.transferPoll, Outcome.pollReply, ← hsize, hpad]
  by_cases hanswered : (m.outcomes m.transfers).answered
  · simp only [hanswered, if_true, true_and]
    refine ⟨-10, by decide, ?_⟩
    split_ifs <;> rfl
  · simp only [hanswered]
    exact ⟨e, he, rfl⟩

/-- `try_profile` fails, or records the pad that answered. -/
theorem tryProfile_eq (hport : port < portCount) (m : Machine) (slot : ℕ) (idHint : UInt8)
    (timingProfile stat70Bit : Bool) :
    ∃ m', OneTransfer m m' ∧
      match (m.outcomes m.transfers).pollReply idHint stat70Bit with
      | none => ∃ e < 0, m.tryProfile port slot idHint timingProfile stat70Bit = (m', .error e)
      | some r => m.tryProfile port slot idHint timingProfile stat70Bit =
          (m'.setPort port slot { m.ports port slot with
            stat70Bit := (m.outcomes m.transfers).stat70 port
            timingProfile := timingProfile
            id := r.reply 1 }, .ok r) := by
  obtain ⟨m', hm', e, he, hpoll⟩ := transferPoll_eq hport m slot idHint timingProfile stat70Bit
  refine ⟨m', hm', ?_⟩
  rw [Machine.tryProfile, hpoll, ← hm'.ports]
  cases (m.outcomes m.transfers).pollReply idHint stat70Bit with
  | none => exact ⟨e, he, rfl⟩
  | some r => rfl

/-- What the polls of `attempts` do, made one after the other until one is answered. -/
structure Tries (port slot : ℕ) (attempts : List (UInt8 × Bool)) (m m' : Machine)
    (o : Except ℤ PollReply) : Prop where
  outcomes : m'.outcomes = m.outcomes
  failed : firstReply m.outcomes m.transfers attempts = none →
    m'.ports = m.ports ∧ m'.transfers = m.transfers + attempts.length ∧ ∃ e < 0, o = .error e
  found : ∀ n r, firstReply m.outcomes m.transfers attempts = some (n, r) →
    o = .ok r ∧ m'.transfers = n + 1 ∧ (m'.ports port slot).id = r.reply 1 ∧
      (m'.ports port slot).stat70Bit = (m.outcomes n).stat70 port

theorem firstReply_append (outcomes : ℕ → Outcome) (n : ℕ) (attempts later : List (UInt8 × Bool)) :
    firstReply outcomes n (attempts ++ later) =
      (firstReply outcomes n attempts).or (firstReply outcomes (n + attempts.length) later) := by
  induction attempts generalizing n with
  | nil => rfl
  | cons attempt attempts ih =>
    rw [List.cons_append, firstReply, firstReply]
    split
    · rfl
    · rw [ih, List.length_cons, Nat.add_assoc, Nat.add_comm 1]

namespace Tries

variable {attempts later : List (UInt8 × Bool)} {m₁ m₂ m₃ : Machine} {r : PollReply} {e : ℤ}
  {o : Except ℤ PollReply}

theorem append (h : Tries port slot attempts m₁ m₂ (.ok r)) :
    Tries port slot (attempts ++ later) m₁ m₂ (.ok r) := by
  refine ⟨h.outcomes, fun hnone => ?_, fun n r' hsome => h.found n r' ?_⟩
  · rw [firstReply_append, Option.or_eq_none_iff] at hnone
    obtain ⟨-, -, _, -, hr⟩ := h.failed hnone.1
    cases hr
  · cases hfirst : firstReply m₁.outcomes m₁.transfers attempts with
    | none =>
      obtain ⟨-, -, _, -, hr⟩ := h.failed hfirst
      cases hr
    | some found =>
      rw [firstReply_append, hfirst, Option.some_or] at hsome
      rw [hsome]

theorem firstReply_eq_none (h : Tries port slot attempts m₁ m₂ (.error e)) :
    firstReply m₁.outcomes m₁.transfers attempts = none := by
  cases hfirst : firstReply m₁.outcomes m₁.transfers attempts with
  | none => rfl
  | some found => cases (h.found _ _ hfirst).1

theorem orElse (h : Tries port slot attempts m₁ m₂ (.error e))
    (h' : Tries port slot later m₂ m₃ o) :
    Tries port slot (attempts ++ later) m₁ m₃ o := by
  have hnone := h.firstReply_eq_none
  obtain ⟨hports, htransfers, -⟩ := h.failed hnone
  have happend : firstReply m₁.outcomes m₁.transfers (attempts ++ later) =
      firstReply m₂.outcomes m₂.transfers later := by
    rw [firstReply_append, hnone, Option.none_or, h.outcomes, htransfers]
  refine ⟨h'.outcomes.trans h.outcomes, fun hfailed => ?_, fun n r hfound => ?_⟩
  · obtain ⟨hports', htransfers', he⟩ := h'.failed (happend ▸ hfailed)
    refine ⟨hports'.trans hports, ?_, he⟩
    rw [htransfers', htransfers, List.length_append, Nat.add_assoc]
  · rw [← h.outcomes]
    exact h'.found n r (happend ▸ hfound)

end Tries

theorem tryProfile_tries (hport : port < portCount) {idHint : UInt8}
    {timingProfile stat70Bit : Bool} {o : Except ℤ PollReply}
    (h : m.tryProfile port slot idHint timingProfile stat70Bit = (m', o)) :
    Tries port slot [(idHint, stat70Bit)] m m' o := by
  obtain ⟨m₁, hm₁, htry⟩ := tryProfile_eq hport m slot idHint timingProfile stat70Bit
  cases hreply : (m.outcomes m.transfers).pollReply idHint stat70Bit with
  | none =>
    simp only [hreply] at htry
    obtain ⟨e, he, htry⟩ := htry
    cases htry.symm.trans h
    refine ⟨hm₁.outcomes, fun _ => ⟨hm₁.ports, hm₁.transfers, e, he, rfl⟩, fun n r hfound => ?_⟩
    simp [firstReply, hreply] at hfound
  | some r =>
    simp only [hreply] at htry
    cases htry.symm.trans h
    refine ⟨hm₁.outcomes, fun hnone => ?_, fun n r' hfound => ?_⟩
    · simp [firstReply, hreply] at hnone
    · simp only [firstReply, hreply, Option.some.injEq, Prod.mk.injEq] at hfound
      obtain ⟨rfl, rfl⟩ := hfound
      exact ⟨rfl, hm₁.transfers, by simp [Machine.setPort], by simp [Machine.setPort]⟩

theorem discoverPad_tries (hport : port < portCount) {o : Except ℤ PollReply}
    (h : m.discoverPad port slot = (m', o)) :
    Tries port slot [(0, (m.ports port slot).stat70Bit), (0, false), (0, true)] m m' o := by
  rw [Machine.discoverPad] at h
  split at h
  case h_1 hfirst =>
    cases h
    exact (tryProfile_tries hport hfirst).append
  case h_2 hfirst =>
    refine (tryProfile_tries hport hfirst).orElse ?_
    split at h
    case h_1 hsecond =>
      cases h
      exact (tryProfile_tries hport hsecond).append
    case h_2 hsecond =>
      exact (tryProfile_tries hport hsecond).orElse (tryProfile_tries hport h)

theorem findPad_tries (hport : port < portCount) {o : Except ℤ PollReply}
    (h : m.findPad port slot = (m', o)) :
    Tries port slot (m.ports port slot).attempts m m' o := by
  rw [Machine.findPad] at h
  rw [PadState.attempts]
  dsimp only at h ⊢
  split at h
  case isFalse hdisconnected =>
    rw [if_neg hdisconnected]
    exact discoverPad_tries hport h
  case isTrue hconnected =>
    rw [if_pos hconnected]
    split at h
    case h_1 hfirst =>
      cases h
      exact (tryProfile_tries hport hfirst).append
    case h_2 hfirst =>
      have htries := tryProfile_tries hport hfirst
      have hports := (htries.failed htries.firstReply_eq_none).1
      refine htries.orElse ?_
      rw [hports] at h
      split at h
      case h_1 hsecond =>
        cases h
        exact (tryProfile_tries hport hsecond).append
      case h_2 hsecond =>
        have htries' := tryProfile_tries hport hsecond
        have hports' := (htries'.failed htries'.firstReply_eq_none).1
        refine htries'.orElse ?_
        rw [← hports, ← hports']
        exact discoverPad_tries hport h

end EF2SDK.IopPad
