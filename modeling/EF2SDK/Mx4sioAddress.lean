import EF2SDK.Mx4sio
import EF2SDK.Words

/-!
# Where a sector is on the card

The card reads six bytes sent at once as a command with a 32-bit argument. A transfer sends
exactly one such packet once the card is ready, and the address it carries is the sector's
own number for a card typed SDHC and 512 times that number for the others, which is exact as
long as the product fits (`addressesExactly_iff`). The size of the card is read from its CSD,
independently of its type, and may be declared so large that it does not.
-/

set_option autoImplicit false

namespace EF2SDK.IopStorage

/-! ## What the card reads -/

/-- The command and the argument that the card reads from the bytes of an exchange. -/
def cardCommand (tx : List UInt8) : Option (UInt8 × UInt32) :=
  match tx.map reverseBits with
  | [command, a₃, a₂, a₁, a₀, _] => some (command, UInt32.ofNat
      (a₃.toNat * 2 ^ 24 + a₂.toNat * 2 ^ 16 + a₁.toNat * 2 ^ 8 + a₀.toNat))
  | _ => none

/-- The commands in a part of the log. -/
def commands (log : List Exchange) : List (UInt8 × UInt32) :=
  log.filterMap fun e => cardCommand e.request.tx

theorem reverseBits_reverseBits (b : UInt8) : reverseBits (reverseBits b) = b := by
  have h : ∀ v : BitVec 8, reverseBits (reverseBits ⟨v⟩) = ⟨v⟩ := by decide
  exact h b.toBitVec

theorem ofNat_bytes (a : UInt32) :
    UInt32.ofNat ((a >>> 24).toUInt8.toNat * 2 ^ 24 + (a >>> 16).toUInt8.toNat * 2 ^ 16
      + (a >>> 8).toUInt8.toNat * 2 ^ 8 + a.toUInt8.toNat) = a := by
  have ha := a.toNat_lt
  apply UInt32.toNat_inj.mp
  simp only [UInt32.toNat_ofNat', UInt32.toNat_toUInt8, UInt32.toNat_shiftRight,
    Nat.shiftRight_eq_div_pow]
  simp
  omega

/-- The card reads what `mx_send_command` was given. -/
theorem cardCommand_mxPacket (command : UInt8) (argument : UInt32) :
    cardCommand ((mxPacket command argument).map reverseBits) = some (command, argument) := by
  simp only [cardCommand, mxPacket, mxPacketBody, List.map_cons, List.map_nil,
    List.cons_append, List.nil_append, reverseBits_reverseBits, ofNat_bytes]

theorem cardCommand_of_length {tx : List UInt8} (h : tx.length ≠ 6) :
    cardCommand (tx.map reverseBits) = none := by
  unfold cardCommand
  split
  · rename_i heq
    have := congrArg List.length heq
    simp at this
    omega
  · rfl

/-! ## The commands a step sends -/

/-- The log grows by exchanges that carry the commands `cs`, and what decides the addressing
stays. -/
structure Emits (cs : List (UInt8 × UInt32)) (b b' : Backend) : Prop where
  cardType : b'.mxCardType = b.mxCardType
  sectorCount : b'.mxSectorCount = b.mxSectorCount
  initialized : b'.mxInitialized = b.mxInitialized
  log : ∃ l, b'.log = b.log ++ l ∧ commands l = cs

/-- No command is sent. -/
abbrev Quiet : Backend → Backend → Prop :=
  Emits []

theorem Emits.append {cs ds : List (UInt8 × UInt32)} {b₁ b₂ b₃ : Backend}
    (h₁ : Emits cs b₁ b₂) (h₂ : Emits ds b₂ b₃) : Emits (cs ++ ds) b₁ b₃ := by
  obtain ⟨l₁, hl₁, rfl⟩ := h₁.log
  obtain ⟨l₂, hl₂, rfl⟩ := h₂.log
  exact
    { cardType := h₂.cardType.trans h₁.cardType
      sectorCount := h₂.sectorCount.trans h₁.sectorCount
      initialized := h₂.initialized.trans h₁.initialized
      log := ⟨l₁ ++ l₂, by rw [hl₂, hl₁, List.append_assoc], by simp [commands]⟩ }

instance : Std.Refl Quiet where
  refl _ := ⟨rfl, rfl, rfl, [], by simp, rfl⟩

instance : IsTrans Backend Quiet where
  trans _ _ _ h₁ h₂ := h₁.append h₂

variable {device : Device}

theorem emits_exchange (q : Request) (b : Backend) :
    Emits (cardCommand q.tx).toList b (b.exchange device q) := by
  refine ⟨rfl, rfl, rfl, _, rfl, ?_⟩
  cases hc : cardCommand q.tx <;> simp [commands, hc]

theorem emits_mxExchange {tx : List UInt8} {rxSize : ℕ} (h : ¬(256 < tx.length ∨ 256 < rxSize))
    (b : Backend) :
    Emits (cardCommand (tx.map reverseBits)).toList b (mxExchange device tx rxSize b).2 := by
  rw [mxExchange_run tx rxSize h]
  exact emits_exchange (mxRequest b.mxBaud tx rxSize) b

/-- What is not six bytes long is no command. -/
theorem quiet_mxExchange {tx : List UInt8} (h : tx.length ≠ 6) (rxSize : ℕ) :
    Steps Quiet (mxExchange device tx rxSize) := by
  intro b
  by_cases hsize : 256 < tx.length ∨ 256 < rxSize
  · rw [mxExchange, if_pos hsize]
    exact refl_of Quiet b
  · have hb : Emits _ b (mxExchange device tx rxSize b).2 := emits_mxExchange hsize b
    rwa [cardCommand_of_length h] at hb

theorem quiet_mxDummy : Steps Quiet (mxDummy device) :=
  steps_mxDummy (quiet_mxExchange (by decide) 1)

theorem quiet_mxReceiveByte : Steps Quiet (mxReceiveByte device) :=
  steps_mxReceiveByte (quiet_mxExchange (by decide) 1)

theorem quiet_mxWaitNotEqual (value : UInt8) (attempts : ℕ) :
    Steps Quiet (mxWaitNotEqual device value attempts) :=
  steps_mxWaitNotEqual (quiet_mxExchange (by decide) 1) value attempts

theorem quiet_mxWaitEqual (value : UInt8) (attempts : ℕ) :
    Steps Quiet (mxWaitEqual device value attempts) :=
  steps_mxWaitEqual (quiet_mxExchange (by decide) 1) value attempts

/-- `mx_send_command` sends its command and nothing else. -/
theorem emits_mxSendCommand (command : UInt8) (argument : UInt32) (b : Backend) :
    Emits [(command, argument)] b (mxSendCommand device command argument b).2 := by
  have hdummy : Steps Quiet
      (if command ≠ sdCmd 0 then mxDummy device else pure 0 : StateM Backend ℤ) :=
    Steps.ite quiet_mxDummy (Steps.pure _)
  have hrest (exchanged : ℤ × List UInt8) : Steps Quiet
      (if exchanged.1 < 0 then pure (-1) else mxWaitNotEqual device 0xFF 256) :=
    Steps.ite (Steps.pure _) (quiet_mxWaitNotEqual _ _)
  have hpacket (b : Backend) :
      Emits [(command, argument)] b (mxExchange device (mxPacket command argument) 0 b).2 := by
    have hb : Emits _ b (mxExchange device (mxPacket command argument) 0 b).2 :=
      emits_mxExchange (by simp [mxPacket, mxPacketBody]) b
    rwa [cardCommand_mxPacket] at hb
  exact ((hdummy b).append (hpacket _)).append (hrest _ _)

/-! ## A transfer sends one command -/

/-- `mx_read_sector` or `mx_write_sector`, with its arguments. -/
inductive Transfer where
  | read (sector : UInt32)
  | write (sector : UInt32) (data : Vector UInt8 512)

namespace Transfer

def sector : Transfer → UInt32
  | read sector => sector
  | write sector _ => sector

/-- `SD_CMD17` or `SD_CMD24`. -/
def command : Transfer → UInt8
  | read _ => sdCmd 17
  | write _ _ => sdCmd 24

/-- The backend after the transfer. -/
def exec (device : Device) (b : Backend) : Transfer → Backend
  | read sector => (mxReadSector device sector b).2
  | write sector data => (mxWriteSector device sector data b).2

end Transfer

/-- The driver has a card and the sector is on it. -/
def Accepts (b : Backend) (sector : UInt32) : Prop :=
  b.mxInitialized = true ∧ sector < b.mxSectorCount

/-- The card lets a transfer begin. -/
def Ready (device : Device) (b : Backend) : Prop :=
  0 ≤ (mxWaitEqual device 0xFF 4096 b).1

instance (b : Backend) (sector : UInt32) : Decidable (Accepts b sector) :=
  inferInstanceAs (Decidable (_ ∧ _))

instance (b : Backend) : Decidable (Ready device b) :=
  inferInstanceAs (Decidable (_ ≤ _))

/-- How both transfers begin : nothing is sent unless the sector is accepted and the card is
ready, and then the command is. -/
theorem emits_begin {α : Type} (command : UInt8) (sector : UInt32) (rejected late : α)
    {rest : ℤ → StateM Backend α} (hrest : ∀ response, Steps Quiet (rest response))
    (b : Backend) :
    Emits (if Accepts b sector ∧ Ready device b then
        [(command, mxAddress b.mxCardType sector)] else []) b
      (((do
        let b ← get
        if b.mxInitialized = false ∨ b.mxSectorCount ≤ sector then
          pure rejected
        else do
          let waited ← mxWaitEqual device 0xFF 4096
          if waited < 0 then
            pure late
          else do
            let response ← mxSendCommand device command (mxAddress b.mxCardType sector)
            rest response) : StateM Backend α) b).2 := by
  change Emits _ b ((if b.mxInitialized = false ∨ b.mxSectorCount ≤ sector then _ else _ :
    StateM Backend α) b).2
  by_cases haccepts : Accepts b sector
  · have hguard : ¬(b.mxInitialized = false ∨ b.mxSectorCount ≤ sector) := by
      simpa [Accepts] using haccepts
    rw [if_neg hguard, bind_apply]
    by_cases hready : Ready device b
    · rw [if_pos ⟨haccepts, hready⟩, if_neg (Int.not_lt.mpr hready)]
      have hwaited : Quiet b (mxWaitEqual device 0xFF 4096 b).2 := quiet_mxWaitEqual 0xFF 4096 b
      exact (hwaited.append (emits_mxSendCommand _ _ _)).append (hrest _ _)
    · rw [if_neg fun h => hready h.2, if_pos (Int.not_le.mp hready)]
      exact quiet_mxWaitEqual 0xFF 4096 b
  · have hguard : b.mxInitialized = false ∨ b.mxSectorCount ≤ sector := by
      simpa [Accepts, imp_iff_not_or] using haccepts
    rw [if_pos hguard, if_neg fun h => haccepts h.1]
    exact refl_of Quiet b

/-- What a transfer sends : its command, with the sector's address. -/
theorem emits_exec (t : Transfer) (b : Backend) :
    Emits (if Accepts b t.sector ∧ Ready device b then
        [(t.command, mxAddress b.mxCardType t.sector)] else []) b (t.exec device b) := by
  have hexchange {tx : List UInt8} (h : tx.length ≠ 6) (rxSize : ℕ) :
      Steps Quiet (mxExchange device tx rxSize) :=
    quiet_mxExchange h rxSize
  cases t with
  | read sector =>
    refine emits_begin (sdCmd 17) sector (-1, []) (-2, []) (fun response => ?_) b
    exact Steps.ite (Steps.pure _) <| Steps.bind (quiet_mxWaitEqual _ _) fun _ =>
      Steps.ite (Steps.pure _) <| Steps.bind (hexchange (by decide) _) fun _ =>
      Steps.ite (Steps.pure _) <| Steps.bind (hexchange (by decide) _) fun _ =>
      Steps.ite (Steps.pure _) <| Steps.bind (hexchange (by decide) _) fun _ =>
      Steps.ite (Steps.pure _) <| Steps.bind quiet_mxDummy fun _ => Steps.pure _
  | write sector data =>
    refine emits_begin (sdCmd 24) sector (-1) (-2) (fun response => ?_) b
    exact Steps.ite (Steps.pure _) <| Steps.bind (hexchange (by decide) _) fun _ =>
      Steps.ite (Steps.pure _) <| Steps.bind (hexchange (by simp) _) fun _ =>
      Steps.ite (Steps.pure _) <| Steps.bind (hexchange (by simp) _) fun _ =>
      Steps.ite (Steps.pure _) <| Steps.bind (hexchange (by decide) _) fun _ =>
      Steps.ite (Steps.pure _) <| Steps.bind quiet_mxReceiveByte fun _ =>
      Steps.ite (Steps.pure _) <| Steps.ite (Steps.pure _) <|
      Steps.bind (quiet_mxWaitEqual _ _) fun _ =>
      Steps.ite (Steps.pure _) <| Steps.bind quiet_mxDummy fun _ => Steps.pure _

/-- The arguments a transfer sends with `SD_CMD17` and `SD_CMD24`. -/
def addressed (device : Device) (b : Backend) (t : Transfer) : List UInt32 :=
  (commands ((t.exec device b).log.drop b.log.length)).filterMap fun c =>
    if c.1 = sdCmd 17 ∨ c.1 = sdCmd 24 then some c.2 else none

theorem addressed_eq (b : Backend) (t : Transfer) :
    addressed device b t
      = if Accepts b t.sector ∧ Ready device b then [mxAddress b.mxCardType t.sector] else [] := by
  have hemits : Emits _ b (t.exec device b) := emits_exec t b
  obtain ⟨l, hl, hcommands⟩ := hemits.log
  have hcommand : t.command = sdCmd 17 ∨ t.command = sdCmd 24 := by
    cases t
    · exact Or.inl rfl
    · exact Or.inr rfl
  rw [addressed, hl, List.drop_left, hcommands]
  split
  · simp [hcommand]
  · rfl

/-! ## The identified card -/

/-- `mx_initialize` returns 0 only with the driver ready and the size that a CSD declares. -/
def Identified (result : ℤ) (b : Backend) : Prop :=
  result = 0 → b.mxInitialized = true ∧ b.mxSectorCount ≠ 0
    ∧ ∃ csd, b.mxSectorCount = mxCsdSectorCount csd

theorem identified_of_ne {result : ℤ} (h : result ≠ 0) (b : Backend) : Identified result b :=
  fun h' => absurd h' h

theorem mxReadGeometry_identified : Triple (fun _ => True) (mxReadGeometry device) Identified := by
  refine Triple.last fun _ => Triple.last fun reg =>
    Triple.ite (fun _ => Triple.pure fun _ _ => identified_of_ne (by decide) _) fun _ b _ => ?_
  simp only [bind_apply]
  split
  · exact fun hresult => absurd hresult (show (-9 : ℤ) ≠ 0 by decide)
  · exact fun _ => ⟨rfl, ‹_›, reg.2, rfl⟩

theorem mxInitialize_identified : Triple (fun _ => True) (mxInitialize device) Identified :=
  Triple.last fun _ => Triple.last fun _ =>
    Triple.ite (fun _ => Triple.pure fun _ _ => identified_of_ne (by decide) _) fun _ =>
    Triple.last fun _ =>
    Triple.ite (fun _ => Triple.pure fun _ _ => identified_of_ne (by decide) _) fun _ =>
    Triple.last fun _ => Triple.last fun _ =>
    Triple.ite (fun h => Triple.pure fun _ _ => identified_of_ne (by omega) _) fun _ =>
    mxReadGeometry_identified

/-- Transfers after one another, each with what answers during it. -/
def serve (b : Backend) (ts : List (Device × Transfer)) : Backend :=
  ts.foldl (fun b t => t.2.exec t.1 b) b

theorem accepts_serve (b : Backend) (ts : List (Device × Transfer)) (sector : UInt32) :
    (Accepts (serve b ts) sector ↔ Accepts b sector)
      ∧ (serve b ts).mxCardType = b.mxCardType := by
  induction ts generalizing b with
  | nil => exact ⟨Iff.rfl, rfl⟩
  | cons t ts ih =>
    have hemits : Emits _ b (t.2.exec t.1 b) := emits_exec t.2 b
    obtain ⟨haccepts, htype⟩ := ih (t.2.exec t.1 b)
    refine ⟨haccepts.trans ?_, htype.trans hemits.cardType⟩
    rw [Accepts, Accepts, hemits.initialized, hemits.sectorCount]

/-! ## The address of a sector -/

/-- Where a sector is : a card typed SDHC counts sectors, the others count bytes. -/
def location (cardType : CardType) (sector : UInt32) : ℕ :=
  if cardType = .sdhc then sector.toNat else 512 * sector.toNat

/-- Every transfer of the sector, whenever it is made, is addressed to where the sector is. -/
def AddressesExactly (b : Backend) (sector : UInt32) : Prop :=
  ∀ ts device t, t.sector = sector →
    ∀ a ∈ addressed device (serve b ts) t, a.toNat = location b.mxCardType sector

/-- Transfers of different sectors, whenever they are made, are addressed differently. -/
def AddressesApart (b : Backend) : Prop :=
  ∀ ts ts' device device' t t', t.sector ≠ t'.sector →
    ∀ a ∈ addressed device (serve b ts) t, ∀ a' ∈ addressed device' (serve b ts') t', a ≠ a'

theorem mem_addressed {b : Backend} {ts : List (Device × Transfer)} {t : Transfer} {a : UInt32}
    (h : a ∈ addressed device (serve b ts) t) :
    Accepts b t.sector ∧ a = mxAddress b.mxCardType t.sector := by
  obtain ⟨haccepts, htype⟩ := accepts_serve b ts t.sector
  rw [addressed_eq, htype] at h
  split at h
  · next hsent => exact ⟨haccepts.mp hsent.1, List.mem_singleton.mp h⟩
  · exact absurd h List.not_mem_nil

/-- A card that is always ready : every exchange completes and reads ones. -/
def idle : Device := fun _ _ => some fun _ => 0xFF

theorem ready_idle (b : Backend) : Ready idle b :=
  Int.le_refl 0

theorem addressed_idle {b : Backend} {t : Transfer} (h : Accepts b t.sector) :
    addressed idle (serve b []) t = [mxAddress b.mxCardType t.sector] := by
  rw [addressed_eq]
  exact if_pos ⟨h, ready_idle b⟩

/-- The address is exact while 512 times the sector's number fits. -/
theorem mxAddress_eq_location_iff (cardType : CardType) (sector : UInt32) :
    (mxAddress cardType sector).toNat = location cardType sector
      ↔ cardType = .sdhc ∨ sector.toNat < 2 ^ 23 := by
  by_cases htype : cardType = .sdhc
  · simp [mxAddress, location, htype]
  · have hsector := sector.toNat_lt
    simp only [mxAddress, location, if_pos htype, htype, false_or,
      UInt32.toNat_shiftLeft, Nat.shiftLeft_eq]
    simp
    omega

theorem location_injective {cardType : CardType} {s s' : UInt32}
    (h : location cardType s = location cardType s') : s = s' := by
  apply UInt32.toNat_inj.mp
  unfold location at h
  split at h <;> omega

theorem addressesExactly_iff {b : Backend} {sector : UInt32} (h : Accepts b sector) :
    AddressesExactly b sector ↔ b.mxCardType = .sdhc ∨ sector.toNat < 2 ^ 23 := by
  rw [← mxAddress_eq_location_iff]
  constructor
  · intro hexact
    refine hexact [] idle (.read sector) rfl _ ?_
    rw [addressed_idle h]
    exact List.mem_singleton_self _
  · rintro heq ts device t rfl a ha
    rw [(mem_addressed ha).2, heq]

theorem addressesApart_iff {b : Backend} (h : b.mxInitialized = true) :
    AddressesApart b ↔ b.mxCardType = .sdhc ∨ b.mxSectorCount.toNat ≤ 2 ^ 23 := by
  constructor
  · intro hapart
    by_contra hwraps
    obtain ⟨htype, hcount⟩ := not_or.mp hwraps
    have haccepts (sector : UInt32) (hs : sector.toNat ≤ 2 ^ 23) : Accepts b sector :=
      ⟨h, by rw [UInt32.lt_iff_toNat_lt]; omega⟩
    have hsame : mxAddress b.mxCardType 0 = mxAddress b.mxCardType 0x800000 := by
      simp only [mxAddress, ne_eq, htype, not_false_eq_true, if_true]
      rfl
    refine hapart [] [] idle idle (.read 0) (.read 0x800000) (by decide) _ ?_ _ ?_ hsame
    · rw [addressed_idle (haccepts 0 (by decide))]
      exact List.mem_singleton_self _
    · rw [addressed_idle (haccepts 0x800000 (by decide))]
      exact List.mem_singleton_self _
  · intro hfits ts ts' device device' t t' hne a ha a' ha' heq
    have hlocation {t : Transfer} (hacc : Accepts b t.sector) :
        (mxAddress b.mxCardType t.sector).toNat = location b.mxCardType t.sector := by
      have hlt := UInt32.lt_iff_toNat_lt.mp hacc.2
      exact (mxAddress_eq_location_iff _ _).mpr (hfits.imp id (by omega))
    obtain ⟨hacc, rfl⟩ := mem_addressed ha
    obtain ⟨hacc', rfl⟩ := mem_addressed ha'
    have hnat := congrArg UInt32.toNat heq
    rw [hlocation hacc, hlocation hacc'] at hnat
    exact hne (location_injective hnat)

/-- A card is addressed correctly exactly where the byte addresses fit. -/
theorem sectors_addressed_iff (device : Device) (b : Backend)
    (h : (mxInitialize device b).1 = 0) :
    let c := (mxInitialize device b).2
    (∀ sector < c.mxSectorCount,
      AddressesExactly c sector ↔ c.mxCardType = .sdhc ∨ sector.toNat < 2 ^ 23)
    ∧ (AddressesApart c ↔ c.mxCardType = .sdhc ∨ c.mxSectorCount.toNat ≤ 2 ^ 23) := by
  obtain ⟨hready, -⟩ := mxInitialize_identified b trivial h
  exact ⟨fun sector hs => addressesExactly_iff ⟨hready, hs⟩, addressesApart_iff hready⟩

/-- A version 2 card that powers up at once, with its OCR and its CSD. -/
def card (ocr csd : List UInt8) : Device := fun log _ =>
  let answers := [[], [], [0x01], [], [], [0x01], [0, 0, 0x01, 0xAA], [], [], [], [0x01], [], [],
    [0], [], [], [0], ocr, [], [], [], [0], [0xFE], csd]
  some fun i => reverseBits ((answers.getD log.length []).getD i 0xFF)

/-- A card of 8 GiB that counts sectors. -/
abbrev largeCard : Device :=
  card [0xC0] [0x40, 0, 0, 0, 0, 0, 0, 0, 0x3F, 0xFF]

/-- A card that declares 4.5 MiB more than 4 GiB, and counts bytes. -/
abbrev wideCard : Device :=
  card [0x80] [0x40, 0, 0, 0, 0, 0, 0, 0, 0x20, 0x08]

theorem sectors_addressed_largeCard :
    (mxInitialize largeCard boot).1 = 0
    ∧ AddressesExactly (mxInitialize largeCard boot).2 0x800000
    ∧ AddressesApart (mxInitialize largeCard boot).2 := by
  have hinit : (mxInitialize largeCard boot).1 = 0 := by decide +kernel
  obtain ⟨hexact, hapart⟩ := sectors_addressed_iff largeCard boot hinit
  exact ⟨hinit, (hexact 0x800000 (by decide +kernel)).mpr (Or.inl (by decide +kernel)),
    hapart.mpr (Or.inl (by decide +kernel))⟩

/-- Sector `2 ^ 23` of `wideCard` is accepted and addressed like sector 0. -/
theorem wideCard_not_exact :
    let c := (mxInitialize wideCard boot).2
    (mxInitialize wideCard boot).1 = 0 ∧ 0x800000 < c.mxSectorCount
    ∧ addressed idle c (.write 0x800000 (.replicate 512 0)) = [0]
    ∧ ¬AddressesExactly c 0x800000 ∧ ¬AddressesApart c := by
  have haccepts : Accepts (mxInitialize wideCard boot).2 0x800000 := by decide +kernel
  have htype : (mxInitialize wideCard boot).2.mxCardType = .sdv2 := by decide +kernel
  have hcount : (mxInitialize wideCard boot).2.mxSectorCount = 0x802400 := by decide +kernel
  refine ⟨by decide +kernel, haccepts.2, ?_, ?_, ?_⟩
  · exact (addressed_idle haccepts).trans (by rw [htype]; rfl)
  · rw [addressesExactly_iff haccepts, htype]
    decide
  · rw [addressesApart_iff haccepts.1, htype, hcount]
    decide

end EF2SDK.IopStorage
