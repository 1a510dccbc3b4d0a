import EF2SDK.ScanProbes
import EF2SDK.StorageCalls

/-!
# What the exchanges of a transfer show

What a transfer moved is read off the exchanges with the device, and not off the results of the
driver. A card takes the block behind a write command when its data response accepts it
(`sectorsWritten`), and behind a read command it gives the block after its token
(`sectorsRead`). An emulated card takes or gives what lies between the header and the footer
of a file command, and its footer counts the bytes (`FileRead`, `FileWritten`).

A call that succeeds shows exactly the sector or the chunk that it was made for. A call that
fails may have been carried out all the same : its last exchanges may not have been answered. It
shows at most its own sector, and sends no bytes of a file but its own.
-/

set_option autoImplicit false

namespace EF2SDK.IopStorage

/-! ## Sectors -/

/-- The exchanges with the card that were answered. -/
def mxAnswered (l : List Exchange) : List Exchange :=
  l.filter fun e => e.request.port = mxPort && e.answer.isSome

/-- What the card reads, in its own bit order. -/
def Exchange.sent (e : Exchange) : List UInt8 :=
  e.request.tx.map reverseBits

/-- What the card answers, in its own bit order. -/
def Exchange.given (e : Exchange) : List UInt8 :=
  (e.answer.getD []).map reverseBits

/-- The two halves of a block, when the data response after the CRC accepts them. -/
def halvesTaken : List Exchange → Option (List UInt8)
  | first :: second :: _crc :: response :: _ =>
    if response.given.getD 0 0xFF &&& 0x1F = 0x05 then some (first.sent ++ second.sent) else none
  | _ => none

/-- The block that the card takes, behind the token. -/
def blockTaken : List Exchange → Option (List UInt8)
  | [] => none
  | token :: l => if token.sent = [0xFE] then halvesTaken l else blockTaken l

/-- The two halves of a block. -/
def halvesGiven : List Exchange → Option (List UInt8)
  | first :: second :: _ => some (first.given ++ second.given)
  | _ => none

/-- The block that the card gives, behind the token. -/
def blockGiven : List Exchange → Option (List UInt8)
  | [] => none
  | token :: l => if token.given = [0xFE] then halvesGiven l else blockGiven l

/-- The blocks behind the packets of a command, with the command's arguments. -/
def sectorsMoved (command : UInt8) (block : List Exchange → Option (List UInt8)) :
    List Exchange → List (UInt32 × List UInt8)
  | [] => []
  | e :: l =>
    (match cardCommand e.request.tx with
      | some (c, address) => if c = command then (block l).toList.map (Prod.mk address) else []
      | none => []) ++ sectorsMoved command block l

/-- The addresses and blocks that the card takes. -/
def sectorsWritten (l : List Exchange) : List (UInt32 × List UInt8) :=
  sectorsMoved (sdCmd 24) blockTaken (mxAnswered l)

/-- The addresses and blocks that the card gives. -/
def sectorsRead (l : List Exchange) : List (UInt32 × List UInt8) :=
  sectorsMoved (sdCmd 17) blockGiven (mxAnswered l)

section Decoding

variable {command c : UInt8} {address : UInt32} {block : List Exchange → Option (List UInt8)}
  {l l' : List Exchange} {e packet : Exchange}

@[simp] theorem mxAnswered_nil : mxAnswered [] = [] :=
  rfl

@[simp] theorem mxAnswered_append (l l' : List Exchange) :
    mxAnswered (l ++ l') = mxAnswered l ++ mxAnswered l' :=
  List.filter_append l l'

/-- What is not six bytes long is no command. -/
theorem cardCommand_of_sent (h : e.sent.length ≠ 6) : cardCommand e.request.tx = none := by
  have hback : e.request.tx = e.sent.map reverseBits := by
    simp [Exchange.sent, Function.comp_def, reverseBits_reverseBits]
  rw [hback]
  exact cardCommand_of_length h

theorem sectorsMoved_append (h : ∀ e ∈ l, e.sent.length ≠ 6) :
    sectorsMoved command block (l ++ l') = sectorsMoved command block l' := by
  induction l with
  | nil => rfl
  | cons e l ih =>
    obtain ⟨he, hl⟩ := List.forall_mem_cons.mp h
    rw [List.cons_append, sectorsMoved, cardCommand_of_sent he, ih hl, List.nil_append]

theorem sectorsMoved_of_quiet (h : ∀ e ∈ l, e.sent.length ≠ 6) :
    sectorsMoved command block l = [] := by
  have hall : sectorsMoved command block (l ++ []) = sectorsMoved command block [] :=
    sectorsMoved_append h
  rwa [List.append_nil] at hall

/-- One command among exchanges that are none. -/
theorem sectorsMoved_packet (hl : ∀ e ∈ l, e.sent.length ≠ 6)
    (hpacket : cardCommand packet.request.tx = some (c, address))
    (hl' : ∀ e ∈ l', e.sent.length ≠ 6) :
    sectorsMoved command block (l ++ packet :: l')
      = if c = command then (block l').toList.map (Prod.mk address) else [] := by
  rw [sectorsMoved_append hl, sectorsMoved, hpacket, sectorsMoved_of_quiet hl', List.append_nil]

theorem blockTaken_append (h : ∀ e ∈ l, e.sent ≠ [0xFE]) :
    blockTaken (l ++ l') = blockTaken l' := by
  induction l with
  | nil => rfl
  | cons e l ih =>
    obtain ⟨he, hl⟩ := List.forall_mem_cons.mp h
    rw [List.cons_append, blockTaken, if_neg he, ih hl]

theorem blockGiven_append (h : ∀ e ∈ l, e.given ≠ [0xFE]) :
    blockGiven (l ++ l') = blockGiven l' := by
  induction l with
  | nil => rfl
  | cons e l ih =>
    obtain ⟨he, hl⟩ := List.forall_mem_cons.mp h
    rw [List.cons_append, blockGiven, if_neg he, ih hl]

end Decoding

/-! ### The driver's exchanges -/

section Driver

variable {device : Device} {tx : List UInt8} {rxSize : ℕ}

/-- An exchange that is not answered, or one with the bytes of the result. -/
def Exchanged (tx : List UInt8) (rxSize : ℕ) (exchanged : ℤ × List UInt8)
    (l : List Exchange) : Prop :=
  (exchanged.1 < 0 ∧ mxAnswered l = []) ∨
    (exchanged.1 = 0 ∧ exchanged.2.length = rxSize ∧ ∃ e, mxAnswered l = [e] ∧
      e.request.tx = tx.map reverseBits ∧ e.sent = tx ∧ e.given = exchanged.2)

theorem traces_mxExchange (htx : tx.length ≤ 256) (hrx : rxSize ≤ 256) :
    Traces (mxExchange device tx rxSize) fun exchanged l _ => Exchanged tx rxSize exchanged l := by
  intro b
  have hsize : ¬(256 < tx.length ∨ 256 < rxSize) := by omega
  have hrequest : ¬(4 ≤ (mxRequest b.mxBaud tx rxSize).port
      ∨ 256 < (mxRequest b.mxBaud tx rxSize).tx.length
      ∨ 256 < (mxRequest b.mxBaud tx rxSize).rxSize) := by
    simpa [mxRequest, mxPort] using hsize
  have htraces : Traces (sio2Exchange device (mxRequest b.mxBaud tx rxSize)) _ :=
    traces_exchange hrequest
  obtain ⟨l, hl, answer, rfl, hanswer, hlength⟩ := htraces b
  have hlog : (mxExchange device tx rxSize b).2.log
      = b.log ++ [⟨mxRequest b.mxBaud tx rxSize, answer⟩] := by
    rw [mxExchange_run tx rxSize hsize, ← hl, sio2Exchange_run device hrequest]
  refine ⟨_, hlog, ?_⟩
  have hrun : (mxExchange device tx rxSize b).1
      = if (received answer).1 < 0 then ((received answer).1, [])
        else (0, (received answer).2.map reverseBits) := by
    rw [mxExchange, if_neg hsize]
    simp only [bind_apply, get_apply, hanswer]
    split <;> rfl
  rw [hrun]
  cases answer with
  | none => exact Or.inl ⟨by decide, rfl⟩
  | some rx =>
    refine Or.inr ⟨rfl, ?_, _, rfl, rfl, ?_, rfl⟩
    · simpa [received, mxRequest] using hlength rx rfl
    · simp [Exchange.sent, mxRequest, Function.comp_def, reverseBits_reverseBits]

theorem traces_mxDummy :
    Traces (mxDummy device) fun _ l _ => ∀ e ∈ mxAnswered l, e.sent = [0xFF] := by
  have hquiet {exchanged : ℤ × List UInt8} {l : List Exchange}
      (h : Exchanged [0xFF] 1 exchanged l) : ∀ e ∈ mxAnswered l, e.sent = [0xFF] := by
    obtain ⟨-, hl⟩ | ⟨-, -, e, hl, -, he, -⟩ := h
    · simp [hl]
    · simpa [hl] using he
  refine Traces.bind (traces_mxExchange (by decide) (by decide)) fun exchanged l _ h => ?_
  exact Traces.ite (fun _ => Traces.pure fun _ => by simpa using hquiet h)
    fun _ => Traces.pure fun _ => by simpa using hquiet h

/-- A byte that is not received, or one that the card gives. -/
def ByteReceived (received : ℤ × UInt8) (l : List Exchange) : Prop :=
  (received.1 < 0 ∧ mxAnswered l = []) ∨
    (received.1 = 0 ∧ ∃ e, mxAnswered l = [e] ∧ e.sent = [] ∧ e.given = [received.2])

theorem traces_mxReceiveByte :
    Traces (mxReceiveByte device) fun received l _ => ByteReceived received l := by
  refine Traces.bind (traces_mxExchange (by decide) (by decide)) fun exchanged l _ h => ?_
  refine Traces.ite (fun hneg => Traces.pure fun _ => ?_) fun hneg => Traces.pure fun _ => ?_
  · obtain ⟨-, hl⟩ | ⟨hzero, -⟩ := h
    · exact Or.inl ⟨by decide, by simpa using hl⟩
    · omega
  · obtain ⟨hneg', -⟩ | ⟨-, hlength, e, hl, -, hsent, hgiven⟩ := h
    · exact absurd hneg' hneg
    · obtain ⟨v, hv⟩ := List.length_eq_one_iff.mp hlength
      exact Or.inr ⟨rfl, e, by simpa using hl, hsent, by rw [hgiven, hv]; rfl⟩

/-- Nothing is sent while the driver waits for a value, and the value is what it receives last. -/
theorem traces_mxWaitEqual (value : UInt8) (attempts : ℕ) :
    Traces (mxWaitEqual device value attempts) fun waited l _ =>
      (∀ e ∈ mxAnswered l, e.sent = []) ∧
        (¬waited < 0 → ∃ before last, mxAnswered l = before ++ [last] ∧
          (∀ e ∈ before, e.given ≠ [value]) ∧ last.given = [value]) := by
  induction attempts with
  | zero => exact Traces.pure fun _ => ⟨by simp, fun h => absurd (by decide) h⟩
  | succ attempts ih =>
    refine Traces.bind traces_mxReceiveByte fun received l _ h => ?_
    refine Traces.ite (fun hneg => Traces.pure fun _ => ?_) fun hneg => ?_
    · obtain ⟨-, hl⟩ | ⟨hzero, -⟩ := h
      · exact ⟨by simp [hl], fun h => absurd (by decide) h⟩
      · omega
    obtain ⟨hneg', -⟩ | ⟨-, e, hl, hsent, hgiven⟩ := h
    · exact absurd hneg' hneg
    refine Traces.ite (fun hvalue => Traces.pure fun _ => ?_) fun hvalue => ih.mono ?_
    · exact ⟨by simp [hl, hsent], fun _ => ⟨[], e, by simp [hl], by simp, by rw [hgiven, hvalue]⟩⟩
    · rintro waited l' - ⟨hquiet, hlast⟩
      refine ⟨by simpa [hl, hsent] using hquiet, fun h => ?_⟩
      obtain ⟨before, last, hl', hbefore, hlast⟩ := hlast h
      exact ⟨e :: before, last, by simp [hl, hl'],
        List.forall_mem_cons.mpr ⟨by simpa [hgiven] using hvalue, hbefore⟩, hlast⟩

/-- While the driver waits for a response nothing is sent, and no token comes before the response
0. -/
theorem traces_mxWaitNotEqual (attempts : ℕ) :
    Traces (mxWaitNotEqual device 0xFF attempts) fun response l _ =>
      ∀ e ∈ mxAnswered l, e.sent = [] ∧ (response = 0 → e.given ≠ [0xFE]) := by
  induction attempts with
  | zero => exact Traces.pure fun _ => by simp
  | succ attempts ih =>
    refine Traces.bind traces_mxReceiveByte fun received l _ h => ?_
    refine Traces.ite (fun hneg => Traces.pure fun _ => ?_) fun hneg => ?_
    · obtain ⟨-, hl⟩ | ⟨hzero, -⟩ := h
      · simp [hl]
      · omega
    obtain ⟨hneg', -⟩ | ⟨-, e, hl, hsent, hgiven⟩ := h
    · exact absurd hneg' hneg
    refine Traces.ite (fun hvalue => Traces.pure fun _ => ?_) fun hvalue => ih.mono ?_
    · have hresponse : (received.2.toNat : ℤ) = 0 → received.2 ≠ 0xFE := by
        intro h heq
        rw [heq] at h
        exact absurd h (by decide)
      simpa [hl, hsent, hgiven] using hresponse
    · intro response l' _ hl'
      rw [not_not] at hvalue
      rw [mxAnswered_append, hl]
      exact List.forall_mem_cons.mpr ⟨⟨hsent, fun _ => by rw [hgiven, hvalue]; decide⟩, hl'⟩

/-- A command's exchanges : its packet and the wait for the response, or no packet. -/
def CommandSent (command : UInt8) (argument : UInt32) (response : ℤ) (l : List Exchange) : Prop :=
  (response < 0 ∧ ∀ e ∈ mxAnswered l, e.sent = [0xFF]) ∨
    ∃ before packet waits, mxAnswered l = before ++ packet :: waits ∧
      (∀ e ∈ before, e.sent = [0xFF]) ∧
      cardCommand packet.request.tx = some (command, argument) ∧
      ∀ e ∈ waits, e.sent = [] ∧ (response = 0 → e.given ≠ [0xFE])

theorem traces_mxSendCommand (command : UInt8) (argument : UInt32) :
    Traces (mxSendCommand device command argument) fun response l _ =>
      CommandSent command argument response l := by
  have hdummy : Traces (if command ≠ sdCmd 0 then mxDummy device else pure 0)
      fun _ l _ => ∀ e ∈ mxAnswered l, e.sent = [0xFF] :=
    Traces.ite (fun _ => traces_mxDummy) fun _ => Traces.pure fun _ => by simp
  refine Traces.bind hdummy fun _ before _ hbefore => ?_
  refine Traces.bind (traces_mxExchange (Nat.le_of_ble_eq_true rfl) (by decide))
    fun exchanged l _ h => ?_
  refine Traces.ite (fun hneg => Traces.pure fun _ => ?_) fun hneg => ?_
  · obtain ⟨-, hl⟩ | ⟨hzero, -⟩ := h
    · exact Or.inl ⟨by decide, by simpa [hl] using hbefore⟩
    · omega
  · obtain ⟨hneg', -⟩ | ⟨-, -, packet, hl, htx, -, -⟩ := h
    · exact absurd hneg' hneg
    · refine (traces_mxWaitNotEqual 256).mono fun response waits _ hwaits => ?_
      exact Or.inr ⟨mxAnswered before, packet, mxAnswered waits, by simp [hl], hbefore,
        by rw [htx, cardCommand_mxPacket], hwaits⟩

end Driver

/-! ### The two transfers -/

/-- No command is among the exchanges. -/
def NoCommand (l : List Exchange) : Prop :=
  ∀ e ∈ mxAnswered l, e.sent.length ≠ 6

/-- What follows a read command : no command, and the block of a result 0. -/
def ReadPhase (read : ℤ × List UInt8) (l : List Exchange) : Prop :=
  NoCommand l ∧ (read.1 = 0 → blockGiven (mxAnswered l) = some read.2)

/-- What follows a write command : no command and no other block, which is taken when the result
is 0. -/
def WritePhase (data : List UInt8) (result : ℤ) (l : List Exchange) : Prop :=
  NoCommand l ∧ (∀ x ∈ blockTaken (mxAnswered l), x = data) ∧
    (result = 0 → blockTaken (mxAnswered l) = some data)

/-- A read of the sector at `address` shows it when the result is 0, and never a write. -/
def ShowsRead (address : UInt32) (read : ℤ × List UInt8) (l : List Exchange) : Prop :=
  (read.1 = 0 → sectorsRead l = [(address, read.2)]) ∧ sectorsWritten l = []

/-- A write of the sector at `address` shows no other, and shows it when the result is 0. -/
def ShowsWritten (address : UInt32) (data : List UInt8) (result : ℤ) (l : List Exchange) : Prop :=
  (result = 0 → sectorsWritten l = [(address, data)]) ∧ sectorsWritten l <+: [(address, data)]

section Phases

variable {l₁ l₂ l₃ : List Exchange} {address : UInt32} {response : ℤ}

theorem noCommand_nil : NoCommand [] := by
  simp [NoCommand]

theorem noCommand_append : NoCommand (l₁ ++ l₂) ↔ NoCommand l₁ ∧ NoCommand l₂ := by
  rw [NoCommand, mxAnswered_append]
  exact List.forall_mem_append

theorem noCommand_of_sent {tx : List UInt8} (h : ∀ e ∈ mxAnswered l₁, e.sent = tx)
    (htx : tx.length ≠ 6) : NoCommand l₁ := fun e he =>
  h e he ▸ htx

/-- A transfer shows nothing when its command was not sent, and else the block behind it. -/
theorem sectorsMoved_transfer {sent : UInt8} (hwaits : ∀ e ∈ mxAnswered l₁, e.sent = [])
    (hcommand : CommandSent sent address response l₂) (hquiet : NoCommand l₃) :
    (response < 0 ∧ ∀ command block,
      sectorsMoved command block (mxAnswered (l₁ ++ (l₂ ++ l₃))) = []) ∨
    ∃ waits, (∀ e ∈ waits, e.sent = [] ∧ (response = 0 → e.given ≠ [0xFE])) ∧
      ∀ command block, sectorsMoved command block (mxAnswered (l₁ ++ (l₂ ++ l₃))) =
        if sent = command then (block (waits ++ mxAnswered l₃)).toList.map (Prod.mk address)
        else [] := by
  have hwaits' : ∀ e ∈ mxAnswered l₁, e.sent.length ≠ 6 := fun e he => by simp [hwaits e he]
  simp only [mxAnswered_append, sectorsMoved_append hwaits']
  obtain ⟨hneg, hdummies⟩ | ⟨before, packet, waits, hl₂, hbefore, hpacket, hlater⟩ := hcommand
  · have hdummies' : ∀ e ∈ mxAnswered l₂, e.sent.length ≠ 6 := fun e he => by
      simp [hdummies e he]
    refine Or.inl ⟨hneg, fun command block => ?_⟩
    rw [sectorsMoved_append hdummies', sectorsMoved_of_quiet hquiet]
  · have hbefore' : ∀ e ∈ before, e.sent.length ≠ 6 := fun e he => by simp [hbefore e he]
    have hquiet' : ∀ e ∈ waits ++ mxAnswered l₃, e.sent.length ≠ 6 :=
      List.forall_mem_append.mpr ⟨fun e he => by simp [(hlater e he).1], hquiet⟩
    refine Or.inr ⟨waits, hlater, fun command block => ?_⟩
    rw [hl₂, List.append_assoc, List.cons_append, sectorsMoved_packet hbefore' hpacket hquiet']

theorem showsRead_of {read : ℤ × List UInt8} (hwaits : ∀ e ∈ mxAnswered l₁, e.sent = [])
    (hcommand : CommandSent (sdCmd 17) address response l₂) (hrest : ReadPhase read l₃)
    (hresponse : read.1 = 0 → response = 0) : ShowsRead address read (l₁ ++ (l₂ ++ l₃)) := by
  obtain ⟨hquiet, hblock⟩ := hrest
  obtain ⟨hneg, hnone⟩ | ⟨waits, hlater, hmoved⟩ := sectorsMoved_transfer hwaits hcommand hquiet
  · refine ⟨fun hzero => ?_, hnone _ _⟩
    have := hresponse hzero
    omega
  · rw [ShowsRead, sectorsRead, sectorsWritten, hmoved, hmoved, if_pos rfl, if_neg (by decide)]
    refine ⟨fun hzero => ?_, rfl⟩
    rw [blockGiven_append fun e he => (hlater e he).2 (hresponse hzero), hblock hzero]
    rfl

theorem showsWritten_of {data : List UInt8} {result : ℤ}
    (hwaits : ∀ e ∈ mxAnswered l₁, e.sent = [])
    (hcommand : CommandSent (sdCmd 24) address response l₂) (hrest : WritePhase data result l₃)
    (hresponse : result = 0 → response = 0) :
    ShowsWritten address data result (l₁ ++ (l₂ ++ l₃)) := by
  obtain ⟨hquiet, hother, hblock⟩ := hrest
  rw [ShowsWritten, sectorsWritten]
  obtain ⟨hneg, hnone⟩ | ⟨waits, hlater, hmoved⟩ := sectorsMoved_transfer hwaits hcommand hquiet
  · rw [hnone]
    refine ⟨fun hzero => ?_, List.nil_prefix⟩
    have := hresponse hzero
    omega
  · rw [hmoved, if_pos rfl, blockTaken_append fun e he => by simp [(hlater e he).1]]
    refine ⟨fun hzero => by rw [hblock hzero]; rfl, ?_⟩
    cases htaken : blockTaken (mxAnswered l₃) with
    | none => exact List.nil_prefix
    | some x =>
      obtain rfl := hother x htaken
      exact List.prefix_rfl

end Phases

section Sectors

variable {device : Device}

/-- A computation that first reads the state. -/
theorem Traces.of_get {α : Type} {f : Backend → StateM Backend α} {b : Backend}
    {Q : α → List Exchange → Backend → Prop} (h : Traces (f b) Q) :
    ∃ l, ((get >>= f) b).2.log = b.log ++ l ∧ Q ((get >>= f) b).1 l ((get >>= f) b).2 :=
  h b

/-- An exchange that the driver returns after when it fails. -/
theorem traces_mxStep {α : Type} {tx : List UInt8} {rxSize : ℕ} {failed : α}
    {rest : ℤ × List UInt8 → StateM Backend α} {Q : α → List Exchange → Backend → Prop}
    (hquiet : tx.length ≠ 6) (htx : tx.length ≤ 256) (hrx : rxSize ≤ 256)
    (hfailed : ∀ l b, NoCommand l → mxAnswered l = [] → Q failed l b)
    (hrest : ∀ exchanged l e, NoCommand l → mxAnswered l = [e] → e.sent = tx →
      e.given = exchanged.2 → Traces (rest exchanged) fun a l' b => Q a (l ++ l') b) :
    Traces (do
      let exchanged ← mxExchange device tx rxSize
      if exchanged.1 < 0 then pure failed else rest exchanged) Q := by
  refine Traces.bind (traces_mxExchange htx hrx) fun exchanged l _ h => ?_
  refine Traces.ite (fun hneg => Traces.pure fun b => ?_) fun hneg => ?_
  · obtain ⟨-, hl⟩ | ⟨hzero, -⟩ := h
    · exact hfailed _ b (by simp [NoCommand, hl]) (by simpa using hl)
    · omega
  · obtain ⟨hneg', -⟩ | ⟨-, -, e, hl, -, hsent, hgiven⟩ := h
    · exact absurd hneg' hneg
    · exact hrest exchanged l e (by simpa [NoCommand, hl, hsent] using hquiet) hl hsent hgiven

/-- How both transfers begin : without a command, or with the command and what follows it. -/
theorem begin_shows {α : Type} {Q : α → List Exchange → Prop} (command : UInt8) (sector : UInt32)
    (rejected late : α) {rest : ℤ → StateM Backend α} (b : Backend)
    (hrejected : ∀ l, NoCommand l → Q rejected l) (hlate : ∀ l, NoCommand l → Q late l)
    (hrest : ∀ response l₁ l₂, (∀ e ∈ mxAnswered l₁, e.sent = []) →
      CommandSent command (mxAddress b.mxCardType sector) response l₂ →
      Traces (rest response) fun a l₃ _ => Q a (l₁ ++ (l₂ ++ l₃))) :
    let begun := ((do
      let b ← get
      if b.mxInitialized = false ∨ b.mxSectorCount ≤ sector then
        pure rejected
      else do
        let waited ← mxWaitEqual device 0xFF 4096
        if waited < 0 then
          pure late
        else do
          let response ← mxSendCommand device command (mxAddress b.mxCardType sector)
          rest response) : StateM Backend α) b
    ∃ l, begun.2.log = b.log ++ l ∧ Q begun.1 l := by
  refine Traces.of_get (Q := fun a l _ => Q a l) ?_
  refine Traces.ite (fun _ => Traces.pure fun _ => hrejected [] noCommand_nil) fun _ => ?_
  refine Traces.bind (traces_mxWaitEqual 0xFF 4096) fun waited l₁ _ ⟨hwaits, _⟩ => ?_
  refine Traces.ite (fun _ => Traces.pure fun _ => hlate _ ?_) fun _ => ?_
  · rw [List.append_nil]
    exact noCommand_of_sent hwaits (by decide)
  · exact Traces.bind (traces_mxSendCommand _ _) fun response l₂ _ hcommand =>
      hrest response l₁ l₂ hwaits hcommand

theorem ReadPhase.of_ne {result : ℤ} {data : List UInt8} {l : List Exchange} (h : result ≠ 0)
    (hl : NoCommand l) : ReadPhase (result, data) l :=
  ⟨hl, fun h' => absurd h' h⟩

/-- The exchanges of `mx_read_sector`. -/
theorem mxReadSector_shows (sector : UInt32) (b : Backend) :
    ∃ l, (mxReadSector device sector b).2.log = b.log ++ l ∧
      ShowsRead (mxAddress b.mxCardType sector) (mxReadSector device sector b).1 l := by
  have hquiet {result : ℤ} (h : result ≠ 0) (l : List Exchange) (hl : NoCommand l) :
      ShowsRead (mxAddress b.mxCardType sector) (result, []) l :=
    ⟨fun hzero => absurd hzero h, sectorsMoved_of_quiet hl⟩
  refine begin_shows (sdCmd 17) sector (-1, []) (-2, []) b (hquiet (by decide))
    (hquiet (by decide)) fun response l₁ l₂ hwaits hcommand => ?_
  refine Traces.mono (Q := fun read l _ => ReadPhase read l ∧ (read.1 = 0 → response = 0)) ?_
    fun _ _ _ h => showsRead_of hwaits hcommand h.1 h.2
  refine Traces.ite (fun _ => Traces.pure fun _ =>
    ⟨ReadPhase.of_ne (by decide) noCommand_nil, fun h => absurd h (by decide)⟩) fun hresponse => ?_
  refine Traces.mono (Q := fun read l _ => ReadPhase read l) ?_
    fun _ _ _ h => ⟨h, fun _ => not_not.mp hresponse⟩
  -- behind the response : the token, the two halves and the CRC
  refine Traces.bind (traces_mxWaitEqual 0xFE 100000) fun waited m₁ _ ⟨hsent, hlast⟩ => ?_
  have hm₁ : NoCommand m₁ := noCommand_of_sent hsent (by decide)
  refine Traces.ite (fun _ => Traces.pure fun _ => .of_ne (by decide) (by simpa using hm₁))
    fun hwaited => ?_
  obtain ⟨before, token, htoken, hbefore, hgiven⟩ := hlast hwaited
  refine traces_mxStep (by decide) (by decide) (by decide)
    (fun m _ hm _ => .of_ne (by decide) (by simp [noCommand_append, hm₁, hm]))
    fun first m₂ e₂ hm₂ he₂ _ hgiven₂ => ?_
  refine traces_mxStep (by decide) (by decide) (by decide)
    (fun m _ hm _ => .of_ne (by decide) (by simp [noCommand_append, hm₁, hm₂, hm]))
    fun second m₃ e₃ hm₃ he₃ _ hgiven₃ => ?_
  refine traces_mxStep (by decide) (by decide) (by decide)
    (fun m _ hm _ => .of_ne (by decide) (by simp [noCommand_append, hm₁, hm₂, hm₃, hm]))
    fun crc m₄ e₄ hm₄ _ _ _ => ?_
  refine Traces.bind traces_mxDummy fun _ m₅ _ hdummy => Traces.pure fun _ => ?_
  have hm₅ := noCommand_of_sent hdummy (by decide)
  refine ⟨by simp [noCommand_append, hm₁, hm₂, hm₃, hm₄, hm₅], fun _ => ?_⟩
  simp only [mxAnswered_append, htoken, he₂, he₃, List.append_assoc]
  rw [blockGiven_append hbefore, List.singleton_append, blockGiven, if_pos hgiven,
    List.singleton_append, List.singleton_append, halvesGiven, hgiven₂, hgiven₃]

theorem WritePhase.of_none {data : List UInt8} {result : ℤ} {l : List Exchange}
    (h : result ≠ 0) (hl : NoCommand l) (hblock : blockTaken (mxAnswered l) = none) :
    WritePhase data result l :=
  ⟨hl, by simp [hblock], fun h' => absurd h' h⟩

theorem WritePhase.of_some {data : List UInt8} {result : ℤ} {l : List Exchange}
    (hl : NoCommand l) (hblock : blockTaken (mxAnswered l) = some data) :
    WritePhase data result l :=
  ⟨hl, by simp [hblock], fun _ => hblock⟩

/-- The exchanges of `mx_write_sector`. -/
theorem mxWriteSector_shows (sector : UInt32) (data : Vector UInt8 512) (b : Backend) :
    ∃ l, (mxWriteSector device sector data b).2.log = b.log ++ l ∧
      ShowsWritten (mxAddress b.mxCardType sector) data.toList
        (mxWriteSector device sector data b).1 l := by
  have hquiet {result : ℤ} (h : result ≠ 0) (l : List Exchange) (hl : NoCommand l) :
      ShowsWritten (mxAddress b.mxCardType sector) data.toList result l := by
    have hnone : sectorsWritten l = [] := sectorsMoved_of_quiet hl
    exact ⟨fun hzero => absurd hzero h, hnone ▸ List.nil_prefix⟩
  refine begin_shows (sdCmd 24) sector (-1) (-2) b (hquiet (by decide)) (hquiet (by decide))
    fun response l₁ l₂ hwaits hcommand => ?_
  refine Traces.mono (Q := fun result l _ =>
    WritePhase data.toList result l ∧ (result = 0 → response = 0)) ?_
    fun _ _ _ h => showsWritten_of hwaits hcommand h.1 h.2
  refine Traces.ite (fun _ => Traces.pure fun _ =>
    ⟨.of_none (by decide) noCommand_nil rfl, fun h => absurd h (by decide)⟩) fun hresponse => ?_
  refine Traces.mono (Q := fun result l _ => WritePhase data.toList result l) ?_
    fun _ _ _ h => ⟨h, fun _ => not_not.mp hresponse⟩
  -- behind the response : the token, the two halves, the CRC and the data response
  refine traces_mxStep (by decide) (by decide) (by decide)
    (fun m _ hm he => .of_none (by decide) hm (by simp [he, blockTaken]))
    fun token m₁ e₁ hm₁ he₁ hsent₁ _ => ?_
  refine traces_mxStep (by simp) (by simp) (by decide)
    (fun m _ hm he => .of_none (by decide) (noCommand_append.mpr ⟨hm₁, hm⟩)
      (by simp [he₁, hsent₁, he, blockTaken, halvesTaken]))
    fun first m₂ e₂ hm₂ he₂ hsent₂ _ => ?_
  refine traces_mxStep (by simp) (by simp) (by decide)
    (fun m _ hm he => .of_none (by decide) (by simp [noCommand_append, hm₁, hm₂, hm])
      (by simp [he₁, hsent₁, he₂, he, blockTaken, halvesTaken]))
    fun second m₃ e₃ hm₃ he₃ hsent₃ _ => ?_
  refine traces_mxStep (by decide) (by decide) (by decide)
    (fun m _ hm he => .of_none (by decide) (by simp [noCommand_append, hm₁, hm₂, hm₃, hm])
      (by simp [he₁, hsent₁, he₂, he₃, he, blockTaken, halvesTaken]))
    fun crc m₄ e₄ hm₄ he₄ _ _ => ?_
  refine Traces.bind traces_mxReceiveByte fun received m₅ _ hreceived => ?_
  obtain ⟨hneg, he₅⟩ | ⟨hzero, e₅, he₅, hsent₅, hgiven₅⟩ := hreceived
  · have hm₅ : NoCommand m₅ := by simp [NoCommand, he₅]
    exact Traces.ite (fun _ => Traces.pure fun _ => .of_none (by decide)
      (by simp [noCommand_append, hm₁, hm₂, hm₃, hm₄, hm₅])
      (by simp [he₁, hsent₁, he₂, he₃, he₄, he₅, blockTaken, halvesTaken]))
      fun h => absurd hneg h
  have hm₅ : NoCommand m₅ := by simp [NoCommand, he₅, hsent₅]
  have hresponse' : e₅.given.getD 0 0xFF = received.2 := by rw [hgiven₅]; rfl
  refine Traces.ite (fun h => absurd h (by omega)) fun _ => ?_
  refine Traces.ite (fun h => Traces.pure fun _ => .of_none (by decide)
    (by simp [noCommand_append, hm₁, hm₂, hm₃, hm₄, hm₅]) ?_) fun haccepted => ?_
  · simp only [mxAnswered_append, mxAnswered_nil, he₁, he₂, he₃, he₄, he₅,
      List.singleton_append, blockTaken, halvesTaken, hsent₁, hresponse', if_pos, if_neg h]
  have hblock (m : List Exchange) :
      blockTaken (mxAnswered (m₁ ++ (m₂ ++ (m₃ ++ (m₄ ++ (m₅ ++ m)))))) = some data.toList := by
    simp only [mxAnswered_append, he₁, he₂, he₃, he₄, he₅, List.singleton_append, blockTaken,
      halvesTaken, hsent₁, hsent₂, hsent₃, hresponse', not_not.mp haccepted, if_pos,
      List.take_append_drop]
  refine Traces.bind (traces_mxWaitEqual 0xFF 0x80000) fun waited m₆ _ ⟨hquiet, _⟩ => ?_
  have hm₆ : NoCommand m₆ := noCommand_of_sent hquiet (by decide)
  refine Traces.ite (fun _ => Traces.pure fun _ => ?_) fun _ =>
    Traces.bind traces_mxDummy fun _ m₇ _ hdummy => Traces.pure fun _ => ?_
  · exact .of_some (by simp [noCommand_append, hm₁, hm₂, hm₃, hm₄, hm₅, hm₆]) (hblock _)
  · have hm₇ := noCommand_of_sent hdummy (by decide)
    exact .of_some (by simp [noCommand_append, hm₁, hm₂, hm₃, hm₄, hm₅, hm₆, hm₇]) (hblock _)

end Sectors

/-! ## Files -/

/-- A card acknowledges the header of a transfer. -/
def HeaderOk (header : List UInt8) : Prop :=
  header.getD 1 0 = mmceReply ∧ header.getD 9 0 = 0

/-- The pieces are received, each of its own length. -/
def receives (port : UInt32) (pieces : List (List UInt8)) : List Exchange :=
  pieces.map fun rx => ⟨mmceRequest port [] rx.length, some rx⟩

/-- The card is polled, with these answers. -/
def polls (port : UInt32) (answers : List (List UInt8)) : List Exchange :=
  answers.map fun rx => ⟨mmceRequest port [] 2, some rx⟩

/-- The pieces are sent. -/
def sends (port : UInt32) (pieces : List (List UInt8)) : List Exchange :=
  pieces.map fun tx => ⟨mmceRequest port tx 0, some []⟩

/-- Exactly the exchanges of a file read : the header, the bytes in pieces and the footer, which
counts the first `k` of the bytes, at most as many as asked for. -/
def FileRead (port : UInt32) (fd : ℤ) (size k : ℕ) (bytes : List UInt8) (l : List Exchange) :
    Prop :=
  ∃ (header footer : List UInt8) (pieces : List (List UInt8)),
    l = ⟨mmceRequest port (transferPacket 0x42 fd size) 10, some header⟩ ::
      (receives port pieces ++ [⟨mmceRequest port [] 6, some footer⟩]) ∧
    HeaderOk header ∧ pieces.flatten.length = size ∧ bytes = pieces.flatten.take k ∧
    (k : ℤ) = min (size : ℤ) (footerCount footer)

/-- Exactly the exchanges of a file write : the header, polls until the card is ready, the bytes
in pieces and the footer, which counts the first `k` of the bytes, at most all. -/
def FileWritten (port : UInt32) (fd : ℤ) (data : List UInt8) (k : ℕ) (l : List Exchange) : Prop :=
  ∃ (header footer : List UInt8) (answers pieces : List (List UInt8)),
    l = ⟨mmceRequest port (transferPacket 0x43 fd data.length) 10, some header⟩ ::
      (polls port answers ++ (sends port pieces ++ [⟨mmceRequest port [] 6, some footer⟩])) ∧
    HeaderOk header ∧ pieces.flatten = data ∧
    (k : ℤ) = min (data.length : ℤ) (footerCount footer)

/-- The bytes sent. -/
def bytesSent (l : List Exchange) : List UInt8 :=
  l.flatMap fun e => e.request.tx

/-- No other header than the one of a transfer of `data`, and no other bytes. -/
def SendsAtMost (command : UInt8) (fd : ℤ) (size : ℕ) (data : List UInt8) (l : List Exchange) :
    Prop :=
  l = [] ∨ ∃ header rest, l = header :: rest ∧
    header.request.tx = transferPacket command fd size ∧ bytesSent rest <+: data

theorem FileRead.length_eq {port : UInt32} {fd : ℤ} {size k : ℕ} {bytes : List UInt8}
    {l : List Exchange} (h : FileRead port fd size k bytes l) : bytes.length = k := by
  obtain ⟨header, footer, pieces, -, -, hsize, rfl, hk⟩ := h
  rw [List.length_take, hsize]
  omega

section Files

variable {device : Device} {port : UInt32} {info : DeviceInfo} {fd : ℤ}

@[simp] theorem bytesSent_append (l l' : List Exchange) :
    bytesSent (l ++ l') = bytesSent l ++ bytesSent l' :=
  List.flatMap_append

theorem traces_mmceExchange {tx : List UInt8} {rxSize : ℕ} (hport : port.toNat < 4)
    (htx : tx.length ≤ 256) (hrx : rxSize ≤ 256) :
    Traces (mmceExchange device port tx rxSize) fun exchanged l _ => ∃ answer,
      l = [⟨mmceRequest port tx rxSize, answer⟩] ∧ exchanged = received answer ∧
      ∀ rx, answer = some rx → rx.length = rxSize :=
  traces_exchange (by
    change ¬(4 ≤ port.toNat ∨ 256 < tx.length ∨ 256 < rxSize)
    omega)

theorem traces_mmceReceive (hport : port.toNat < 4) (left : ℕ) (data : List UInt8) :
    Traces (mmceReceive device port left data) fun received l _ => bytesSent l = [] ∧
      (received.1 = true → ∃ pieces, l = receives port pieces ∧
        received.2 = data ++ pieces.flatten ∧ pieces.flatten.length = left) := by
  induction left, data using mmceReceive.induct with
  | case1 left data hleft chunk ih =>
    have hchunk : (if 256 < left then 256 else left) ≤ 256 ∧
        (if 256 < left then 256 else left) ≤ left := by
      split <;> omega
    rw [mmceReceive, if_pos hleft]
    refine Traces.bind (traces_mmceExchange hport (by decide) hchunk.1) ?_
    rintro _ _ - ⟨answer, rfl, rfl, hlength⟩
    cases answer with
    | none =>
      exact Traces.ite (fun _ => Traces.pure fun _ => ⟨rfl, fun h => absurd h Bool.false_ne_true⟩)
        fun h => absurd (by decide) h
    | some rx =>
      refine Traces.ite (fun h => absurd h (by simp [received])) fun _ => ?_
      refine (ih (received (some rx))).mono ?_
      rintro result l - ⟨hsent, hpieces⟩
      refine ⟨by simpa [bytesSent, mmceRequest] using hsent, fun htrue => ?_⟩
      obtain ⟨pieces, rfl, hdata, hleft'⟩ := hpieces htrue
      refine ⟨rx :: pieces, ?_, by simp [hdata, received], ?_⟩
      · simp [receives, hlength rx rfl]
      · rw [List.flatten_cons, List.length_append, hleft', hlength rx rfl]
        exact Nat.add_sub_cancel' hchunk.2
  | case2 left data hleft =>
    rw [mmceReceive, if_neg hleft]
    have hzero : 0 = left := by omega
    exact Traces.pure fun _ => ⟨rfl, fun _ => ⟨[], rfl, by simp, hzero⟩⟩

theorem traces_mmceAwaitReady (hport : port.toNat < 4) (attempts : ℕ) :
    Traces (mmceAwaitReady device port attempts) fun ready l _ => bytesSent l = [] ∧
      (ready = some true → ∃ answers, l = polls port answers) := by
  induction attempts with
  | zero => exact Traces.pure fun _ => ⟨rfl, fun h => nomatch h⟩
  | succ attempts ih =>
    refine Traces.bind (traces_mmceExchange hport (by decide) (by decide)) ?_
    rintro _ _ - ⟨answer, rfl, rfl, -⟩
    cases answer with
    | none =>
      exact Traces.ite (fun _ => Traces.pure fun _ => ⟨rfl, fun h => nomatch h⟩)
        fun h => absurd (by decide) h
    | some rx =>
      refine Traces.ite (fun h => absurd h (by simp [received])) fun _ =>
        Traces.ite (fun _ => Traces.pure fun _ => ⟨rfl, fun _ => ⟨[rx], rfl⟩⟩) fun _ => ih.mono ?_
      rintro ready l - ⟨hsent, hpolls⟩
      refine ⟨by simpa [bytesSent, mmceRequest] using hsent, fun htrue => ?_⟩
      obtain ⟨answers, rfl⟩ := hpolls htrue
      exact ⟨rx :: answers, rfl⟩

theorem traces_mmceSend (hport : port.toNat < 4) (data : List UInt8) :
    Traces (mmceSend device port data) fun sent l _ => bytesSent l <+: data ∧
      (sent = true → ∃ pieces,
        l = sends port pieces ∧ pieces.flatten = data) := by
  induction data using mmceSend.induct with
  | case1 data hdata ih =>
    rw [mmceSend, if_pos hdata]
    refine Traces.bind (traces_mmceExchange hport (List.length_take_le _ _) (by decide)) ?_
    rintro _ _ - ⟨answer, rfl, rfl, hlength⟩
    cases answer with
    | none =>
      refine Traces.ite (fun _ => Traces.pure fun _ => ⟨?_, fun h => nomatch h⟩)
        fun h => absurd (by decide) h
      simpa [bytesSent, mmceRequest] using List.take_prefix 256 data
    | some rx =>
      obtain rfl := List.length_eq_zero_iff.mp (hlength rx rfl)
      refine Traces.ite (fun h => absurd h (by simp [received])) fun _ => ih.mono ?_
      rintro sent l - ⟨hsent, hpieces⟩
      refine ⟨?_, fun htrue => ?_⟩
      · have := (List.prefix_append_right_inj (data.take 256)).mpr hsent
        simpa [bytesSent, mmceRequest] using this
      · obtain ⟨pieces, rfl, hflat⟩ := hpieces htrue
        exact ⟨data.take 256 :: pieces, rfl, by rw [List.flatten_cons, hflat,
          List.take_append_drop]⟩
  | case2 data hdata =>
    rw [mmceSend, if_neg hdata]
    obtain rfl : data = [] := by simpa using hdata
    exact Traces.pure fun _ => ⟨List.nil_prefix, fun _ => ⟨[], rfl, rfl⟩⟩

theorem sendsAtMost_append {command : UInt8} {size : ℕ} {data : List UInt8} {header : Exchange}
    {rest : List Exchange} (hheader : header.request.tx = transferPacket command fd size)
    (hrest : bytesSent rest <+: data) : SendsAtMost command fd size data ([header] ++ rest) :=
  Or.inr ⟨header, rest, rfl, hheader, hrest⟩

/-- What both transfers go on after is an answer that acknowledges the header. -/
theorem exists_headerOk {answer : Option (List UInt8)}
    (h : ¬((received answer).1 < 0 ∨ (received answer).2.getD 1 0 ≠ mmceReply ∨
      (received answer).2.getD 9 0 ≠ 0)) : ∃ header, answer = some header ∧ HeaderOk header := by
  rw [not_or, not_or, not_not, not_not] at h
  cases answer with
  | none => exact absurd (by decide) h.1
  | some header => exact ⟨header, rfl, h.2⟩

theorem exists_of_received {answer : Option (List UInt8)} (h : ¬(received answer).1 < 0) :
    ∃ rx, answer = some rx := by
  cases answer with
  | none => exact absurd (by decide) h
  | some rx => exact ⟨rx, rfl⟩

/-- A negative result is no count. -/
theorem count_of_neg {result : ℤ} {P : ℕ → Prop} (h : result < 0) (k : ℕ) (hk : result = k) :
    P k :=
  absurd (hk ▸ h) (Int.not_lt.mpr (Int.natCast_nonneg k))

/-- Both transfers report the footer's count, at most the size. -/
theorem ite_lt_eq_min (size count : ℤ) :
    (if size < count then size else count) = min size count := by
  split <;> omega

variable (device info) in
/-- The exchanges of `ef2_storage_backend_mmce_read`. -/
theorem traces_backendMmceRead (fd : ℤ) (size : ℕ) :
    Traces (backendMmceRead device info fd size) fun read l _ =>
      (∀ k : ℕ, read.1 = k → FileRead info.physicalPort fd size k (read.2.take k) l) ∧
        SendsAtMost 0x42 fd size [] l := by
  have hneg {result : ℤ} {data : List UInt8} {l : List Exchange} (h : result < 0)
      (hl : SendsAtMost 0x42 fd size [] l) :
      (∀ k : ℕ, result = k → FileRead info.physicalPort fd size k (data.take k) l) ∧
        SendsAtMost 0x42 fd size [] l :=
    ⟨count_of_neg h, hl⟩
  refine Traces.ite (fun _ => Traces.pure fun _ => hneg (by decide) (Or.inl rfl)) fun hguard => ?_
  have hport : info.physicalPort.toNat < 4 := port_lt_of_valid (by simpa using (not_or.mp hguard).1)
  refine Traces.bind (traces_mmceExchange hport (Nat.le_of_ble_eq_true rfl) (by decide)) ?_
  rintro _ _ - ⟨answer, rfl, rfl, -⟩
  refine Traces.ite (fun _ => Traces.pure fun _ =>
    hneg (by decide) (sendsAtMost_append rfl List.nil_prefix)) fun hheader => ?_
  refine Traces.bind (traces_mmceReceive hport size []) fun result l _ ⟨hl, hpieces⟩ => ?_
  refine Traces.ite (fun _ => Traces.pure fun _ =>
    hneg (show (-3 : ℤ) < 0 by decide) (sendsAtMost_append rfl (by simp [hl]))) fun htrue => ?_
  refine Traces.bind (traces_mmceExchange hport (by decide) (by decide)) ?_
  rintro _ _ - ⟨footer, rfl, rfl, -⟩
  have hsent : SendsAtMost 0x42 fd size []
      ([⟨mmceRequest info.physicalPort (transferPacket 0x42 fd size) 10, answer⟩] ++
        (l ++ ([⟨mmceRequest info.physicalPort [] 6, footer⟩] ++ []))) :=
    sendsAtMost_append rfl (by rw [bytesSent_append, hl]; exact List.nil_prefix)
  refine Traces.ite (fun _ => Traces.pure fun _ => hneg (show (-4 : ℤ) < 0 by decide) hsent)
    fun hfooter => ?_
  refine Traces.ite (fun _ => Traces.pure fun _ => hneg (show (-5 : ℤ) < 0 by decide) hsent)
    fun hcount => Traces.pure fun _ => ⟨fun k hk => ?_, hsent⟩
  obtain ⟨pieces, rfl, hdata, hlength⟩ := hpieces (by simpa using htrue)
  obtain ⟨header, rfl, hok⟩ := exists_headerOk hheader
  obtain ⟨footer, rfl⟩ := exists_of_received hfooter
  exact ⟨header, footer, pieces, rfl, hok, hlength, by rw [hdata, List.nil_append],
    hk.symm.trans (ite_lt_eq_min _ _)⟩

variable (device info) in
/-- The exchanges of `ef2_storage_backend_mmce_write`. -/
theorem traces_backendMmceWrite (fd : ℤ) (data : List UInt8) :
    Traces (backendMmceWrite device info fd data) fun result l _ =>
      (∀ k : ℕ, result = k → FileWritten info.physicalPort fd data k l) ∧
        SendsAtMost 0x43 fd data.length data l := by
  have hneg {result : ℤ} {l : List Exchange} (h : result < 0)
      (hl : SendsAtMost 0x43 fd data.length data l) :
      (∀ k : ℕ, result = k → FileWritten info.physicalPort fd data k l) ∧
        SendsAtMost 0x43 fd data.length data l :=
    ⟨count_of_neg h, hl⟩
  refine Traces.ite (fun _ => Traces.pure fun _ => hneg (by decide) (Or.inl rfl)) fun hguard => ?_
  have hport : info.physicalPort.toNat < 4 := port_lt_of_valid (by simpa using (not_or.mp hguard).1)
  refine Traces.bind (traces_mmceExchange hport (Nat.le_of_ble_eq_true rfl) (by decide)) ?_
  rintro _ _ - ⟨answer, rfl, rfl, -⟩
  refine Traces.ite (fun _ => Traces.pure fun _ =>
    hneg (by decide) (sendsAtMost_append rfl List.nil_prefix)) fun hheader => ?_
  refine Traces.bind (traces_mmceAwaitReady hport 128) fun ready l _ ⟨hl, hpolls⟩ => ?_
  have hlate : SendsAtMost 0x43 fd data.length data
      ([⟨mmceRequest info.physicalPort (transferPacket 0x43 fd data.length) 10, answer⟩] ++
        (l ++ [])) :=
    sendsAtMost_append rfl (by simp [hl])
  match ready with
  | none => exact Traces.pure fun _ => hneg (by decide) hlate
  | some false => exact Traces.pure fun _ => hneg (by decide) hlate
  | some true =>
    refine Traces.bind (traces_mmceSend hport data) fun sent l' _ ⟨hl', hpieces⟩ => ?_
    refine Traces.ite (fun _ => Traces.pure fun _ =>
      hneg (by decide) (sendsAtMost_append rfl (by simpa [hl] using hl'))) fun htrue => ?_
    refine Traces.bind (traces_mmceExchange hport (by decide) (by decide)) ?_
    rintro _ _ - ⟨footer, rfl, rfl, -⟩
    have hsent : SendsAtMost 0x43 fd data.length data
        ([⟨mmceRequest info.physicalPort (transferPacket 0x43 fd data.length) 10, answer⟩] ++
          (l ++ (l' ++ ([⟨mmceRequest info.physicalPort [] 6, footer⟩] ++ [])))) :=
      sendsAtMost_append rfl (by
          rw [bytesSent_append, hl, bytesSent_append]
          simpa [bytesSent, mmceRequest] using hl')
    refine Traces.ite (fun _ => Traces.pure fun _ => hneg (by decide) hsent) fun hfooter =>
      Traces.ite (fun _ => Traces.pure fun _ => hneg (by decide) hsent) fun hcount =>
      Traces.pure fun _ => ⟨fun k hk => ?_, hsent⟩
    obtain ⟨answers, rfl⟩ := hpolls rfl
    obtain ⟨pieces, rfl, hflat⟩ := hpieces (by simpa using htrue)
    obtain ⟨header, rfl, hok⟩ := exists_headerOk hheader
    obtain ⟨footer, rfl⟩ := exists_of_received hfooter
    exact ⟨header, footer, answers, pieces, rfl, hok, hflat, hk.symm.trans (ite_lt_eq_min _ _)⟩

end Files

/-! ## Calls -/

section Calls

variable (device : Device) (info : DeviceInfo) (b : Backend)

/-- The argument of a command is where the sector is, as far as 32 bits hold it. -/
theorem mxAddress_eq_ofNat (cardType : CardType) (sector : UInt32) :
    mxAddress cardType sector = UInt32.ofNat (location cardType sector) := by
  rw [mxAddress, location]
  by_cases h : cardType = .sdhc
  · rw [if_neg (not_not.mpr h), if_pos h, UInt32.ofNat_toNat]
  · rw [if_pos h, if_neg h]
    apply UInt32.toNat_inj.mp
    simp [Nat.shiftLeft_eq, Nat.mul_comm]

theorem backendReadSector_shows (sector : UInt32) :
    ∃ l, (backendReadSector device info sector b).2.log = b.log ++ l ∧
      ShowsRead (UInt32.ofNat (location b.mxCardType sector))
        (backendReadSector device info sector b).1 l := by
  rw [backendReadSector, ← mxAddress_eq_ofNat]
  split
  · exact ⟨[], (List.append_nil _).symm, fun h => absurd h (show (-2 : ℤ) ≠ 0 by decide),
      rfl⟩
  · exact mxReadSector_shows sector b

theorem backendWriteSector_shows (sector : UInt32) (data : Vector UInt8 ioChunk) :
    ∃ l, (backendWriteSector device info sector data b).2.log = b.log ++ l ∧
      ShowsWritten (UInt32.ofNat (location b.mxCardType sector)) data.toList
        (backendWriteSector device info sector data b).1 l := by
  rw [backendWriteSector, ← mxAddress_eq_ofNat]
  split
  · exact ⟨[], (List.append_nil _).symm,
      fun h => absurd h (show (-2 : ℤ) ≠ 0 by decide), List.nil_prefix⟩
  · exact mxWriteSector_shows sector data b

theorem readSector_exchanges {device : Device} {info : DeviceInfo} {sector : UInt32}
    {bytes : List UInt8} {b b' : Backend}
    (h : backendReadSector device info sector b = ((0, bytes), b')) :
    ∃ l, b'.log = b.log ++ l ∧
      sectorsRead l = [(UInt32.ofNat (location b.mxCardType sector), bytes)] := by
  obtain ⟨l, hl, hread, -⟩ := backendReadSector_shows device info b sector
  rw [h] at hl hread
  exact ⟨l, hl, hread rfl⟩

theorem writeSector_exchanges {device : Device} {info : DeviceInfo} {sector : UInt32}
    {data : Vector UInt8 ioChunk} {b b' : Backend}
    (h : backendWriteSector device info sector data b = (0, b')) :
    ∃ l, b'.log = b.log ++ l ∧
      sectorsWritten l = [(UInt32.ofNat (location b.mxCardType sector), data.toList)] := by
  obtain ⟨l, hl, hwritten, -⟩ := backendWriteSector_shows device info b sector data
  rw [h] at hl hwritten
  exact ⟨l, hl, hwritten rfl⟩

theorem mmceRead_exchanges {device : Device} {info : DeviceInfo} {fd : ℤ} {size k : ℕ}
    {data : List UInt8} {b b' : Backend}
    (h : backendMmceRead device info fd size b = (((k : ℤ), data), b')) :
    ∃ l, b'.log = b.log ++ l ∧ FileRead info.physicalPort fd size k (data.take k) l := by
  obtain ⟨l, hl, hread, -⟩ := traces_backendMmceRead device info fd size b
  rw [h] at hl hread
  exact ⟨l, hl, hread k rfl⟩

theorem mmceWrite_exchanges {device : Device} {info : DeviceInfo} {fd : ℤ} {data : List UInt8}
    {k : ℕ} {b b' : Backend} (h : backendMmceWrite device info fd data b = ((k : ℤ), b')) :
    ∃ l, b'.log = b.log ++ l ∧ FileWritten info.physicalPort fd data k l := by
  obtain ⟨l, hl, hwritten, -⟩ := traces_backendMmceWrite device info fd data b
  rw [h] at hl hwritten
  exact ⟨l, hl, hwritten k rfl⟩

/-- The exchanges of a call that failed : none, or those that its device made of it. -/
theorem CallFailed.exchanges {device : Device} {devices : List DeviceInfo}
    {function : DeviceFunction} {request : RpcRequest} {call : Call} {b b' : Backend}
    {P : List Exchange → Prop} (h : CallFailed device devices function request b call b')
    (hnone : P []) (hcall : ∀ info, ∃ l,
      (deviceCall device function request info b).2.log = b.log ++ l ∧ P l) :
    ∃ l, b'.log = b.log ++ l ∧ P l := by
  obtain ⟨reply, -, -, rfl | ⟨info, -, rfl⟩⟩ := h
  · exact ⟨[], (List.append_nil _).symm, hnone⟩
  · exact hcall info

variable (request : RpcRequest)

theorem deviceCall_readSector_log :
    ∃ l, (deviceCall device .readSector request info b).2.log = b.log ++ l ∧
      sectorsWritten l = [] := by
  obtain ⟨l, hl, -, hwritten⟩ := backendReadSector_shows device info b request.sector
  exact ⟨l, hl, hwritten⟩

theorem deviceCall_writeSector_log :
    ∃ l, (deviceCall device .writeSector request info b).2.log = b.log ++ l ∧
      sectorsWritten l <+:
        [(UInt32.ofNat (location b.mxCardType request.sector), request.data.toList)] := by
  obtain ⟨l, hl, -, hwritten⟩ := backendWriteSector_shows device info b request.sector request.data
  rw [deviceCall]
  split
  · exact ⟨[], (List.append_nil _).symm, List.nil_prefix⟩
  · exact ⟨l, hl, hwritten⟩

theorem deviceCall_mmceRead_log :
    ∃ l, (deviceCall device .mmceRead request info b).2.log = b.log ++ l ∧
      SendsAtMost 0x42 request.fd request.dataSize.toNat [] l := by
  obtain ⟨l, hl, -, hsent⟩ := traces_backendMmceRead device info request.fd
    request.dataSize.toNat b
  rw [deviceCall]
  split
  · exact ⟨[], (List.append_nil _).symm, Or.inl rfl⟩
  · exact ⟨l, hl, hsent⟩

theorem deviceCall_mmceWrite_log :
    let data := request.data.toList.take request.dataSize.toNat
    ∃ l, (deviceCall device .mmceWrite request info b).2.log = b.log ++ l ∧
      SendsAtMost 0x43 request.fd data.length data l := by
  obtain ⟨l, hl, -, hsent⟩ := traces_backendMmceWrite device info request.fd
    (request.data.toList.take request.dataSize.toNat) b
  rw [deviceCall]
  split
  · exact ⟨[], (List.append_nil _).symm, Or.inl rfl⟩
  · exact ⟨l, hl, hsent⟩

end Calls

end EF2SDK.IopStorage
