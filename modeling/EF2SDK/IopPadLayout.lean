import EF2SDK.IopPadNeutral

/-!
# The layout of a poll's reply

The identifier a pad answers with tells how long its packet is : 9 bytes carry the sticks and
21 the pressures as well. A reply that is parsed should be no longer, in these layouts, than its
own identifier announces. A poll asks for a packet of the length that an earlier identifier
announces : the one of the poll before, or the one of the reply that the poll is a follow-up of.
So a pad that answers a follow-up with a shorter layout than the one it announced, or answers with
a shorter layout than in the poll before and not to the follow-up, has bytes beyond its packet
read as sticks or pressures, and no other pad has (`layouts_followed_iff`).
-/

set_option autoImplicit false

namespace EF2SDK.IopPad

variable {m m' : Machine} {port slot : ℕ}

/-! ## The reply that is parsed -/

/-- The reply that `poll_slot` gives `parse_reply`. -/
def Machine.parsedReply (m : Machine) (port slot : ℕ) : Option PollReply :=
  let selected := m.selectEndpoint port slot
  if selected.2 < 0 then none
  else
    match selected.1.findPad port slot with
    | (_, .error _) => none
    | (m', .ok r) => some (m'.pollFull port slot (m.ports port slot).id r).2

/-- The reply that is parsed when the transfer after the one numbered `n` is the follow-up. -/
def followUp (outcomes : ℕ → Outcome) (n port : ℕ) (previousId : UInt8) (r : PollReply) :
    PollReply :=
  if r.reply 1 ≠ previousId ∨ r.size < packetSizeForId (r.reply 1) then
    ((outcomes (n + 1)).pollReply (r.reply 1) ((outcomes n).stat70 port)).getD r
  else r

theorem pollFull_eq (hport : port < portCount) {n : ℕ} {outcomes : ℕ → Outcome} {r : PollReply}
    (houtcomes : m.outcomes = outcomes) (htransfers : m.transfers = n + 1)
    (hid : (m.ports port slot).id = r.reply 1)
    (hstat70 : (m.ports port slot).stat70Bit = (outcomes n).stat70 port) (previousId : UInt8) :
    (m.pollFull port slot previousId r).2 = followUp outcomes n port previousId r ∧
      ((m.pollFull port slot previousId r).1.ports port slot).id =
        (followUp outcomes n port previousId r).reply 1 := by
  rw [Machine.pollFull, followUp]
  split_ifs with hfollow
  · dsimp only
    obtain ⟨m', hm', htry⟩ := tryProfile_eq hport m slot (r.reply 1)
      (m.ports port slot).timingProfile (m.ports port slot).stat70Bit
    rw [houtcomes, htransfers, hstat70] at htry
    rw [hstat70]
    cases hreply : (outcomes (n + 1)).pollReply (r.reply 1) ((outcomes n).stat70 port) with
    | none =>
      simp only [hreply] at htry
      obtain ⟨e, -, htry⟩ := htry
      rw [htry]
      exact ⟨rfl, by simp [Machine.setPort]⟩
    | some full =>
      simp only [hreply] at htry
      rw [htry]
      exact ⟨rfl, by simp [Machine.setPort]⟩
  · exact ⟨rfl, hid⟩

/-- What `poll_slot` parses, by the outcomes of the transfers. -/
theorem parsedReply_eq (hport : port < portCount) (hslot : slot < slotCountMax) (m : Machine) :
    m.parsedReply port slot =
      if (m.selection port slot).1 = false then none
      else
        (firstReply m.outcomes (m.selection port slot).2 (m.ports port slot).attempts).map
          fun found => followUp m.outcomes found.1 port (m.ports port slot).id found.2 := by
  obtain ⟨hresult, htransfers, houtcomes⟩ := selectEndpoint_eq hport hslot m
  rw [Machine.parsedReply, if_congr hresult.symm rfl rfl, ← htransfers, ← houtcomes]
  split_ifs with hselected
  · rfl
  · rw [← (selectEndpoint_quiet m port slot).ports]
    cases hfind : (m.selectEndpoint port slot).1.findPad port slot with
    | mk m' o =>
      have htries := findPad_tries hport hfind
      cases hfirst : firstReply (m.selectEndpoint port slot).1.outcomes
          (m.selectEndpoint port slot).1.transfers
          ((m.selectEndpoint port slot).1.ports port slot).attempts with
      | none =>
        obtain ⟨-, -, e, -, rfl⟩ := htries.failed hfirst
        rfl
      | some found =>
        obtain ⟨rfl, htransfers, hid, hstat70⟩ := htries.found _ _ hfirst
        rw [Option.map_some]
        exact congrArg some (pollFull_eq hport htries.outcomes htransfers hid hstat70 _).1

theorem padFound_parses (m : Machine) (port slot : ℕ) (wasConnected : Bool) (previousId : UInt8)
    (r : PollReply) :
    ∃ s, s.id = ((m.pollFull port slot previousId r).1.ports port slot).id ∧
      (m.padFound port slot wasConnected previousId r).ports port slot =
        parseReply s (m.pollFull port slot previousId r).2.reply
          (m.pollFull port slot previousId r).2.size := by
  obtain ⟨s, hs⟩ : ∃ s, s = ((m.pollFull port slot previousId r).1.configureOnce port slot
    previousId).ports port slot := ⟨_, rfl⟩
  refine ⟨{ s with
    connected := true
    frame := s.frame + 1
    reconnects := if wasConnected then s.reconnects else s.reconnects + 1 }, ?_, ?_⟩
  · rw [hs]
    exact (configureOnce_keepsId _ _).state.id
  · rw [hs, Machine.padFound]
    simp only [Machine.setPort, Function.update_self]

/-- A poll that succeeds parses a reply, whose identifier is the one on record, and no other poll
parses one. -/
theorem pollSlot_parses (hport : port < portCount) (m : Machine) (slot : ℕ) :
    (m.parsedReply port slot = none ∧ (m.pollSlot port slot).2 < 0) ∨
    ∃ r s, m.parsedReply port slot = some r ∧ (m.pollSlot port slot).2 = 0 ∧ s.id = r.reply 1 ∧
      (m.pollSlot port slot).1.ports port slot = parseReply s r.reply r.size := by
  rw [Machine.parsedReply, Machine.pollSlot]
  dsimp only
  split_ifs with hselected
  · exact Or.inl ⟨rfl, hselected⟩
  · cases hfind : (m.selectEndpoint port slot).1.findPad port slot with
    | mk m' o =>
      have htries := findPad_tries hport hfind
      cases hfirst : firstReply (m.selectEndpoint port slot).1.outcomes
          (m.selectEndpoint port slot).1.transfers
          ((m.selectEndpoint port slot).1.ports port slot).attempts with
      | none =>
        obtain ⟨-, -, e, he, rfl⟩ := htries.failed hfirst
        exact Or.inl ⟨rfl, he⟩
      | some found =>
        obtain ⟨rfl, htransfers, hid, hstat70⟩ := htries.found _ _ hfirst
        obtain ⟨hfull, hfullId⟩ := pollFull_eq hport htries.outcomes htransfers hid hstat70
          (m.ports port slot).id
        rw [← hfull] at hfullId
        obtain ⟨s, hs, hstate⟩ := padFound_parses m' port slot (m.ports port slot).connected
          (m.ports port slot).id found.2
        exact Or.inr ⟨_, s, rfl, rfl, hs.trans hfullId, hstate⟩

/-! ## Layouts -/

/-- A packet of `size'` bytes has the sticks and the pressures if one of `size` bytes has. -/
def Carries (size size' : ℕ) : Prop :=
  (9 ≤ size → 9 ≤ size') ∧ (21 ≤ size → 21 ≤ size')

theorem carries_of_le {size size' : ℕ} (h : size ≤ size') : Carries size size' :=
  ⟨fun h' => Nat.le_trans h' h, fun h' => Nat.le_trans h' h⟩

/-- What is published has the layout of its identifier, and `parse_reply` took it from a reply
`r` whose own identifier announces the bytes it took. -/
structure FollowsLayout (p : PortReply) (r : PollReply) : Prop where
  sticks : packetSizeForId p.rawId < 9 →
    p.rightX = 0x80 ∧ p.rightY = 0x80 ∧ p.leftX = 0x80 ∧ p.leftY = 0x80
  pressure : packetSizeForId p.rawId < 21 → ∀ i < 12, p.pressure i = 0
  announced : Carries r.size (packetSizeForId (r.reply 1))

/-- A poll that succeeds publishes what has the layout of its identifier. -/
def PollFollowsLayout (m : Machine) (port slot : ℕ) : Prop :=
  (m.pollSlot port slot).2 = 0 → ∃ r, m.parsedReply port slot = some r ∧
    FollowsLayout (fillRpcPort ((m.pollSlot port slot).1.ports port slot)) r

/-- The pad keeps to its layout within a poll : it answers a follow-up with the layout that it
announced, or a longer one, and where it does not answer the follow-up, the reply before had
announced the layout that it was asked for. -/
def PollKeepsLayout (m : Machine) (port slot : ℕ) : Prop :=
  let s := m.ports port slot
  let (selected, start) := m.selection port slot
  selected → ∀ n r, firstReply m.outcomes start s.attempts = some (n, r) →
    (r.reply 1 ≠ s.id ∨ r.size < packetSizeForId (r.reply 1)) →
      match (m.outcomes (n + 1)).pollReply (r.reply 1) ((m.outcomes n).stat70 port) with
      | some full => Carries (packetSizeForId (r.reply 1)) (packetSizeForId (full.reply 1))
      | none => Carries r.size (packetSizeForId (r.reply 1))

/-- A poll asks for a packet of the length of the recorded identifier, or for 5 bytes. -/
theorem PadState.hint_of_mem_attempts {s : PadState} {idHint : UInt8} {stat70Bit : Bool}
    (h : (idHint, stat70Bit) ∈ s.attempts) : idHint = s.id ∨ idHint = 0 := by
  simp only [PadState.attempts] at h
  split_ifs at h <;> simp at h <;> tauto

theorem followsLayout_parseReply_iff {s : PadState} {r : PollReply} (hid : s.id = r.reply 1) :
    FollowsLayout (fillRpcPort (parseReply s r.reply r.size)) r ↔
      Carries r.size (packetSizeForId (r.reply 1)) := by
  refine ⟨FollowsLayout.announced, fun h => ⟨fun hshort => ?_, fun hshort i _ => ?_, h⟩⟩
  · have hsize : ¬9 ≤ r.size := fun hlong =>
      absurd (h.1 hlong) (Nat.not_le.2 (hid ▸ hshort))
    simp only [fillRpcPort, parseReply, ge_iff_le, if_neg hsize, and_self]
  · have hsize : ¬21 ≤ r.size := fun hlong =>
      absurd (h.2 hlong) (Nat.not_le.2 (hid ▸ hshort))
    simp only [fillRpcPort, parseReply, ge_iff_le, if_neg hsize]

/-- Without a follow-up, the reply has the length that its identifier announces, or 5 bytes. -/
theorem carries_of_no_followUp {s : PadState} {outcomes : ℕ → Outcome} {n k : ℕ} {r : PollReply}
    (h : firstReply outcomes n s.attempts = some (k, r)) (hid : r.reply 1 = s.id) :
    Carries r.size (packetSizeForId (r.reply 1)) := by
  obtain ⟨idHint, stat70Bit, hmem, hreply⟩ := mem_of_firstReply h
  obtain ⟨hsize, -⟩ := Outcome.size_of_pollReply hreply
  have hfive := (packetSizeForId_mem (r.reply 1)).1
  refine carries_of_le ?_
  rw [hsize]
  split_ifs with hzero
  · exact hfive
  · obtain rfl | rfl := PadState.hint_of_mem_attempts hmem
    · exact Nat.le_of_eq (by rw [hid])
    · exact absurd rfl hzero

theorem carries_followUp_iff {s : PadState} {outcomes : ℕ → Outcome} {n k : ℕ} {r : PollReply}
    (h : firstReply outcomes n s.attempts = some (k, r)) (port : ℕ) :
    Carries (followUp outcomes k port s.id r).size
        (packetSizeForId ((followUp outcomes k port s.id r).reply 1)) ↔
      (r.reply 1 ≠ s.id ∨ r.size < packetSizeForId (r.reply 1) →
        match (outcomes (k + 1)).pollReply (r.reply 1) ((outcomes k).stat70 port) with
        | some full => Carries (packetSizeForId (r.reply 1)) (packetSizeForId (full.reply 1))
        | none => Carries r.size (packetSizeForId (r.reply 1))) := by
  rw [followUp]
  split_ifs with hfollow
  · rw [forall_prop_of_true hfollow]
    cases hfull : (outcomes (k + 1)).pollReply (r.reply 1) ((outcomes k).stat70 port) with
    | none => exact Iff.rfl
    | some full =>
      obtain ⟨_, _, -, hreply⟩ := mem_of_firstReply h
      rw [Option.getD_some, (Outcome.size_of_pollReply hfull).1,
        if_neg (Outcome.size_of_pollReply hreply).2]
  · refine ⟨fun _ hfollow' => absurd hfollow' hfollow, fun _ => carries_of_no_followUp h ?_⟩
    exact not_not.1 fun hid => hfollow (Or.inl hid)

/-- A poll publishes the layout of the pad's identifier exactly when the pad keeps to its layout. -/
theorem pollFollowsLayout_iff (hport : port < portCount) (hslot : slot < slotCountMax)
    (m : Machine) : PollFollowsLayout m port slot ↔ PollKeepsLayout m port slot := by
  have hparsed := parsedReply_eq hport hslot m
  obtain ⟨hnone, hfailed⟩ | ⟨r, s, hsome, hresult, hid, hstate⟩ := pollSlot_parses hport m slot
  · refine iff_of_true (fun hresult => absurd hresult (Int.ne_of_lt hfailed)) ?_
    rw [PollKeepsLayout]
    dsimp only
    intro hselected n r hfirst
    rw [hnone, if_neg (by rw [hselected]; decide), hfirst] at hparsed
    cases hparsed
  · have hpoll : PollFollowsLayout m port slot ↔ Carries r.size (packetSizeForId (r.reply 1)) := by
      rw [PollFollowsLayout, forall_prop_of_true hresult, hsome, hstate,
        ← followsLayout_parseReply_iff hid]
      simp
    rw [hsome] at hparsed
    have hselected : (m.selection port slot).1 = true := by
      by_contra hneg
      rw [if_pos (Bool.not_eq_true _ ▸ hneg)] at hparsed
      cases hparsed
    rw [if_neg (by rw [hselected]; decide)] at hparsed
    obtain ⟨⟨n, first⟩, hfirst, rfl⟩ := Option.map_eq_some_iff.1 hparsed.symm
    rw [hpoll, carries_followUp_iff hfirst port, PollKeepsLayout]
    dsimp only
    rw [forall_prop_of_true hselected]
    refine ⟨fun h n' r' hfirst' => ?_, fun h => h n first hfirst⟩
    obtain ⟨rfl, rfl⟩ := Prod.mk.inj (Option.some.inj (hfirst.symm.trans hfirst'))
    exact h

/-! ## Requests -/

theorem eachPoll_congr {P Q : Machine → ℕ → ℕ → Prop}
    (h : ∀ {port slot}, port < portCount → slot < slotCountMax →
      ∀ m, P m port slot ↔ Q m port slot) (m : Machine) (r : Request) :
    EachPoll P m r ↔ EachPoll Q m r := by
  rw [EachPoll, EachPoll]
  cases r.function with
  | poll =>
    have hnative : 0 < slotCountMax := by decide
    have hfirst := h (show 0 < portCount by decide) hnative
    have hsecond := h (show 1 < portCount by decide) hnative
    simp only [show List.range portCount = [0, 1] from rfl, Schedule.Meets, hfirst, hsecond]
  | pollSlot =>
    exact imp_congr_right fun _ => forall_congr' fun hport => forall_congr' fun hslot =>
      imp_congr_right fun _ => h hport hslot _
  | _ => exact Iff.rfl

/-- Over every sequence of requests and every outcome of the transfers : each poll that succeeds
publishes what has the layout of its identifier exactly when each pad keeps to its layout within
the poll. -/
theorem layouts_followed_iff (outcomes : ℕ → Outcome) (rs : List Request) :
    Schedule.Meets next (EachPoll PollFollowsLayout) (boot outcomes) rs ↔
      Schedule.Meets next (EachPoll PollKeepsLayout) (boot outcomes) rs :=
  Schedule.meets_congr
    (fun m r (_ : True) => eachPoll_congr pollFollowsLayout_iff m r)
    (fun _ _ _ _ _ _ => trivial) trivial rs

/-- A pad announces the analog identifier 0x73 and is switched to digital before the follow-up,
which it answers with 0x41 and five bytes; the line stays high for the others. Every other transfer
times out. -/
def switchedOutcomes (i : ℕ) : Outcome :=
  if i = 0 then ⟨true, 0, 0, bytes [0xFF, 0x73, 0x5A, 0xFF, 0xFF]⟩
  else if i = 1 then
    ⟨true, 0, 0, bytes [0xFF, 0x41, 0x5A, 0xFF, 0xFF, 0xFF, 0xFF, 0xFF, 0xFF]⟩
  else ⟨false, 0, 0, bytes []⟩

/-- The poll publishes a digital pad with its sticks in a corner. -/
theorem switchedRun_reads_sticks :
    ¬Schedule.Meets next (EachPoll PollFollowsLayout) (boot switchedOutcomes) [pollFirst] := by
  intro h
  have hpoll := (h.1 (by decide)).1 (by decide)
  obtain ⟨r, -, hlayout⟩ := hpoll (by decide +kernel)
  have hshort : packetSizeForId (fillRpcPort ((((boot switchedOutcomes).result 0).pollSlot 0
      0).1.ports 0 0)).rawId < 9 := by
    decide +kernel
  exact absurd (hlayout.sticks hshort).1 (by decide +kernel)

end EF2SDK.IopPad
