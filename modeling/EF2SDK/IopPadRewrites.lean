import EF2SDK.IopPadOutcomes

/-!
# What a poll rewrites

A poll works on one endpoint, and the selection before it on none (`Quiet`). A pad that is found
leaves its identifier in the endpoint (`Finds`) and the setup as it was (`KeepsSetup`), until it is
configured; afterwards the endpoint is connected, with the motors it had (`Connects`).
-/

set_option autoImplicit false

namespace EF2SDK.IopPad

variable {m m' : Machine} {port slot : ℕ}

/-! ## What is rewritten -/

/-- From `m` to `m'` the reply stays, and of the endpoints only one is rewritten, as `R` says. -/
structure Rewrites (port slot : ℕ) (R : PadState → PadState → Prop) (m m' : Machine) : Prop where
  reply : m'.reply = m.reply
  others : ∀ p q, ¬(p = port ∧ q = slot) → m'.ports p q = m.ports p q
  state : R (m.ports port slot) (m'.ports port slot)

/-- No endpoint is rewritten. -/
structure Keeps (m m' : Machine) : Prop where
  reply : m'.reply = m.reply
  ports : m'.ports = m.ports

/-- No endpoint is rewritten, and no pad transfer is made. -/
structure Quiet (m m' : Machine) : Prop extends Keeps m m' where
  log : m'.log = m.log

theorem Keeps.refl (m : Machine) : Keeps m m :=
  ⟨rfl, rfl⟩

theorem Keeps.trans {m₁ m₂ m₃ : Machine} (h : Keeps m₁ m₂) (h' : Keeps m₂ m₃) : Keeps m₁ m₃ :=
  ⟨h'.reply.trans h.reply, h'.ports.trans h.ports⟩

theorem Quiet.refl (m : Machine) : Quiet m m :=
  ⟨.refl m, rfl⟩

theorem Quiet.trans {m₁ m₂ m₃ : Machine} (h : Quiet m₁ m₂) (h' : Quiet m₂ m₃) : Quiet m₁ m₃ :=
  ⟨h.toKeeps.trans h'.toKeeps, h'.log.trans h.log⟩

namespace Rewrites

variable {R R' R'' : PadState → PadState → Prop} {m₁ m₂ m₃ : Machine}

theorem of_keeps (h : Keeps m m') (hR : ∀ s, R s s) : Rewrites port slot R m m' where
  reply := h.reply
  others p q _ := by rw [h.ports]
  state := by rw [h.ports]; exact hR _

theorem setPort {s : PadState} (h : R (m.ports port slot) s) :
    Rewrites port slot R m (m.setPort port slot s) where
  reply := rfl
  others p q hne := by
    by_cases hp : p = port
    · subst hp
      have hq : q ≠ slot := fun hq => hne ⟨rfl, hq⟩
      simp [Machine.setPort, hq]
    · simp [Machine.setPort, hp]
  state := by simpa [Machine.setPort] using h

theorem trans (h : Rewrites port slot R m₁ m₂) (h' : Rewrites port slot R' m₂ m₃)
    (hR : ∀ s t u, R s t → R' t u → R'' s u) : Rewrites port slot R'' m₁ m₃ where
  reply := h'.reply.trans h.reply
  others p q hne := (h'.others p q hne).trans (h.others p q hne)
  state := hR _ _ _ h.state h'.state

theorem after_keeps (h : Keeps m₁ m₂) (h' : Rewrites port slot R m₂ m₃) :
    Rewrites port slot R m₁ m₃ where
  reply := h'.reply.trans h.reply
  others p q hne := by rw [h'.others p q hne, h.ports]
  state := by rw [← h.ports]; exact h'.state

end Rewrites

/-- The setup of an endpoint is kept : its motors, and whether it was configured. -/
structure KeepsSetup (s s' : PadState) : Prop where
  configAttempted : s'.configAttempted = s.configAttempted
  rumbleSupported : s'.rumbleSupported = s.rumbleSupported
  rumbleSmall : s'.rumbleSmall = s.rumbleSmall
  rumbleLarge : s'.rumbleLarge = s.rumbleLarge

theorem KeepsSetup.trans {s s' s'' : PadState} (h : KeepsSetup s s') (h' : KeepsSetup s' s'') :
    KeepsSetup s s'' :=
  ⟨h'.configAttempted.trans h.configAttempted, h'.rumbleSupported.trans h.rumbleSupported,
    h'.rumbleSmall.trans h.rumbleSmall, h'.rumbleLarge.trans h.rumbleLarge⟩

/-! ## Transfers -/

section Transfers

variable {timingProfile stat70Bit : Bool} {idHint previousId : UInt8} {input : ℕ → UInt8}
  {size : ℕ} {r : PollReply}

theorem transferRaw_quiet {c : Command} {o : Except ℤ Outcome}
    (h : m.transferRaw c = (m', o)) : Quiet m m' := by
  rw [Machine.transferRaw] at h
  split at h
  · cases h
    exact .refl m
  · dsimp only at h
    split at h <;> cases h <;> exact ⟨⟨rfl, rfl⟩, rfl⟩

theorem transferPad_keeps {o : Except ℤ Outcome}
    (h : m.transferPad port slot timingProfile stat70Bit input size = (m', o)) : Keeps m m' := by
  have hlogged (log : List PadTransfer) : Keeps m { m with log := log } := ⟨rfl, rfl⟩
  rw [Machine.transferPad] at h
  split at h
  · cases h
    exact .refl m
  · dsimp only at h
    split at h
    case h_1 hraw =>
      cases h
      exact (hlogged _).trans (transferRaw_quiet hraw).toKeeps
    case h_2 hraw =>
      split_ifs at h <;> cases h <;> exact (hlogged _).trans (transferRaw_quiet hraw).toKeeps

/-- A poll rewrites nothing, and what answers it has an identifier. -/
theorem transferPoll_keeps {o : Except ℤ (PollReply × Bool)}
    (h : m.transferPoll port slot idHint timingProfile stat70Bit = (m', o)) :
    Keeps m m' ∧ ∀ r stat70, o = .ok (r, stat70) → r.reply 1 ≠ 0 := by
  rw [Machine.transferPoll] at h
  dsimp only at h
  split at h
  case h_1 hpad =>
    cases h
    exact ⟨transferPad_keeps hpad, fun _ _ h => by cases h⟩
  case h_2 hpad =>
    split_ifs at h <;> cases h <;>
      refine ⟨transferPad_keeps hpad, fun r stat70 h => ?_⟩ <;> cases h <;>
      exact id_ne_zero_of_looksLikePad ‹responseLooksLikePad _ _ = true›

/-- The endpoint has the identifier of a pad, and keeps its setup. -/
abbrev Identified (port slot : ℕ) (m m' : Machine) : Prop :=
  Rewrites port slot (fun s s' => s'.id ≠ 0 ∧ KeepsSetup s s') m m'

/-- What an attempt to find a pad does : nothing when it fails, and else the endpoint has the
identifier that was read. -/
structure Finds (port slot : ℕ) (m m' : Machine) (o : Except ℤ PollReply) : Prop where
  failed : ∀ e, o = .error e → Keeps m m'
  found : ∀ r, o = .ok r → r.reply 1 ≠ 0 ∧ Identified port slot m m'

theorem Finds.after_keeps {m₁ m₂ m₃ : Machine} {o : Except ℤ PollReply} (h : Keeps m₁ m₂)
    (h' : Finds port slot m₂ m₃ o) : Finds port slot m₁ m₃ o where
  failed e he := h.trans (h'.failed e he)
  found r hr := ⟨(h'.found r hr).1, .after_keeps h (h'.found r hr).2⟩

theorem tryProfile_finds {o : Except ℤ PollReply}
    (h : m.tryProfile port slot idHint timingProfile stat70Bit = (m', o)) :
    Finds port slot m m' o := by
  rw [Machine.tryProfile] at h
  split at h
  case h_1 hpoll =>
    cases h
    exact ⟨fun _ _ => (transferPoll_keeps hpoll).1, fun _ h => by cases h⟩
  case h_2 hpoll =>
    cases h
    obtain ⟨hkeeps, hid⟩ := transferPoll_keeps hpoll
    refine ⟨fun _ h => (by cases h), fun r h => ?_⟩
    cases h
    exact ⟨hid _ _ rfl, .after_keeps hkeeps (.setPort ⟨hid _ _ rfl, rfl, rfl, rfl, rfl⟩)⟩

/-- A second attempt is made where the first fails. -/
theorem Finds.orElse {m₁ m₂ m₃ : Machine} {e : ℤ} {o : Except ℤ PollReply}
    (h : Finds port slot m₁ m₂ (.error e)) (h' : Finds port slot m₂ m₃ o) :
    Finds port slot m₁ m₃ o :=
  h'.after_keeps (h.failed e rfl)

theorem findPad_finds {o : Except ℤ PollReply} (h : m.findPad port slot = (m', o)) :
    Finds port slot m m' o :=
  Machine.findPad_of_attempts tryProfile_finds Finds.orElse h

/-- A state keeps the identifier and the motors. -/
structure SameId (s s' : PadState) : Prop where
  id : s'.id = s.id
  rumbleSmall : s'.rumbleSmall = s.rumbleSmall
  rumbleLarge : s'.rumbleLarge = s.rumbleLarge

/-- The endpoint keeps its identifier and its motors. -/
abbrev KeepsId (port slot : ℕ) (m m' : Machine) : Prop :=
  Rewrites port slot SameId m m'

theorem KeepsId.trans {m₁ m₂ m₃ : Machine} (h : KeepsId port slot m₁ m₂)
    (h' : KeepsId port slot m₂ m₃) : KeepsId port slot m₁ m₃ :=
  Rewrites.trans h h' fun _ _ _ hst htu =>
    ⟨htu.id.trans hst.id, htu.rumbleSmall.trans hst.rumbleSmall,
      htu.rumbleLarge.trans hst.rumbleLarge⟩

theorem transferCommand_keepsId {o : Except ℤ (ℕ → UInt8)}
    (h : m.transferCommand port slot input size = (m', o)) : KeepsId port slot m m' := by
  rw [Machine.transferCommand] at h
  dsimp only at h
  split at h
  case h_1 hpad =>
    cases h
    exact .of_keeps (transferPad_keeps hpad) fun _ => ⟨rfl, rfl, rfl⟩
  case h_2 hpad =>
    cases h
    exact .after_keeps (transferPad_keeps hpad) (.setPort ⟨rfl, rfl, rfl⟩)

theorem pollFull_identified {full : PollReply} (hid : r.reply 1 ≠ 0)
    (hm : (m.ports port slot).id ≠ 0) (h : m.pollFull port slot previousId r = (m', full)) :
    Identified port slot m m' := by
  rw [Machine.pollFull] at h
  split at h
  · dsimp only at h
    split at h
    case h_1 hfull =>
      cases h
      exact ((tryProfile_finds hfull).found _ rfl).2
    case h_2 hfull =>
      cases h
      exact .after_keeps ((tryProfile_finds hfull).failed _ rfl)
        (.setPort ⟨hid, rfl, rfl, rfl, rfl⟩)
  · cases h
    exact ⟨rfl, fun _ _ _ => rfl, hm, rfl, rfl, rfl, rfl⟩

theorem configureOnce_keepsId (m : Machine) (previousId : UInt8) :
    KeepsId port slot m (m.configureOnce port slot previousId) :=
  Machine.configureOnce_along (R := KeepsId port slot) KeepsId.trans
    (fun h _ _ => transferCommand_keepsId h)
    (fun _ _ hid hsmall hlarge => Rewrites.setPort ⟨hid, hsmall, hlarge⟩) m previousId

/-- The endpoint is connected with an identifier, and its motors are kept. -/
structure Connects (s s' : PadState) : Prop where
  connected : s'.connected = true
  id : s'.id ≠ 0
  rumbleSmall : s'.rumbleSmall = s.rumbleSmall
  rumbleLarge : s'.rumbleLarge = s.rumbleLarge

theorem padFound_connects (wasConnected : Bool) (previousId : UInt8) (hid : r.reply 1 ≠ 0)
    (hm : (m.ports port slot).id ≠ 0) :
    Rewrites port slot Connects m (m.padFound port slot wasConnected previousId r) := by
  cases hfull : m.pollFull port slot previousId r with
  | mk m₂ full =>
    have hconfigured : KeepsId port slot m₂ (m₂.configureOnce port slot previousId) :=
      configureOnce_keepsId m₂ previousId
    have hfound {m₃ : Machine}
        (h : Rewrites port slot (fun s s' => s'.connected = true ∧ SameId s s') m₂ m₃) :
        Rewrites port slot Connects m m₃ :=
      (pollFull_identified hid hm hfull).trans h fun _ _ _ hs ht =>
        ⟨ht.1, ht.2.id.trans_ne hs.1, ht.2.rumbleSmall.trans hs.2.rumbleSmall,
          ht.2.rumbleLarge.trans hs.2.rumbleLarge⟩
    rw [Machine.padFound, hfull]
    refine hfound (Rewrites.trans hconfigured (Rewrites.setPort
      (R := fun s s' => s'.connected = true ∧ SameId s s') ⟨rfl, rfl, rfl, rfl⟩)
      fun _ _ _ hs ht => ?_)
    exact ⟨ht.1, ht.2.id.trans hs.id, ht.2.rumbleSmall.trans hs.rumbleSmall,
      ht.2.rumbleLarge.trans hs.rumbleLarge⟩

end Transfers

/-! ## Selection -/

theorem mtapGetSlotCount_quiet (m : Machine) (port : ℕ) :
    Quiet m (m.mtapGetSlotCount port).1 := by
  rw [Machine.mtapGetSlotCount]
  split
  · exact .refl m
  · dsimp only
    split
    case h_1 hraw => exact transferRaw_quiet hraw
    case h_2 hraw => split_ifs <;> exact transferRaw_quiet hraw

theorem refreshTopologyPort_quiet (m : Machine) (port : ℕ) :
    Quiet m (m.refreshTopologyPort port) :=
  have h := mtapGetSlotCount_quiet m port
  ⟨⟨h.reply, h.ports⟩, h.log⟩

theorem selectAttempts_quiet (attempts : ℕ) (m : Machine) :
    Quiet m (Machine.selectAttempts port slot attempts m).1 := by
  induction attempts generalizing m with
  | zero => exact .refl m
  | succ attempts ih =>
    have hmoved (multitap : ℕ → ℕ) : Quiet m { m with multitap := multitap } := ⟨⟨rfl, rfl⟩, rfl⟩
    rw [Machine.selectAttempts]
    split
    case h_1 hraw => exact ((hmoved _).trans (transferRaw_quiet hraw)).trans (ih _)
    case h_2 hraw =>
      have hquiet := (hmoved _).trans (transferRaw_quiet hraw)
      split_ifs
      · exact hquiet.trans (ih _)
      · exact hquiet
      · exact hquiet
      · exact hquiet.trans (ih _)

theorem mtapSelectSlot_quiet (m : Machine) (port slot : ℕ) :
    Quiet m (m.mtapSelectSlot port slot).1 := by
  rw [Machine.mtapSelectSlot]
  split
  · exact .refl m
  · exact selectAttempts_quiet 3 m

theorem selectEndpoint_quiet (m : Machine) (port slot : ℕ) :
    Quiet m (m.selectEndpoint port slot).1 := by
  exact Machine.selectEndpoint_along Quiet.refl Quiet.trans
    (fun m => mtapSelectSlot_quiet m port slot) (fun m => refreshTopologyPort_quiet m port)
    (fun _ => ⟨⟨rfl, rfl⟩, rfl⟩) m

end EF2SDK.IopPad
