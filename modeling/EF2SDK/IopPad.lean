import Mathlib.Data.Int.Notation
import Mathlib.Data.List.Basic
import Mathlib.Logic.Function.Basic

/-!
# The pad service

`src/iop/pad/src/main.c` over the SIO2 transfers of `src/iop/pad/src/sio2_direct.c` : pads
are polled one endpoint at a time, an endpoint is a port and a slot of its Multitap, and a
port without a Multitap has the one slot 0. The driver asks the Multitap to select a slot
unless it believes that slot to be selected (`g_selected_slot`).

The outcomes of the transfers, in the order they are made, are a function `outcomes`. A
Multitap changes its slot when it acknowledges a select command. A machine is the driver's
globals with the slot each Multitap has selected and the log of the pad transfers.

The module is resident, so the SIO2 is initialized. A buffer is a function of the byte's
index, and the arrays of the two ports are functions of the port. Delays are left out.
-/

set_option autoImplicit false

namespace EF2SDK.IopPad

/-- `EF2PAD_PORT_COUNT`. -/
abbrev portCount : ℕ := 2

/-- `EF2PAD_SLOT_COUNT`. -/
abbrev slotCountMax : ℕ := 4

/-- `EF2PAD_MAX_PACKET`. -/
abbrev maxPacket : ℕ := 32

/-- The bytes of a list, then zeros. -/
def bytes (l : List UInt8) (i : ℕ) : UInt8 :=
  l.getD i 0

/-! ## The state -/

/-- `ef2pad_port_state`, with flags for the bytes that are 0 or 1. -/
structure PadState where
  frame : UInt32
  buttons : UInt32
  errors : UInt32
  reconnects : UInt32
  connected : Bool
  id : UInt8
  timingProfile : Bool
  stat70Bit : Bool
  configAttempted : Bool
  rumbleSupported : Bool
  rumbleSmall : Bool
  rumbleLarge : UInt8
  rightX : UInt8
  rightY : UInt8
  leftX : UInt8
  leftY : UInt8
  pressure : ℕ → UInt8

/-- `ef2_pad_rpc_port_state`. -/
structure PortReply where
  frame : UInt32
  buttons : UInt32
  errors : UInt32
  reconnects : UInt32
  connected : Bool
  rawId : UInt8
  timingProfile : Bool
  rumbleSupported : Bool
  rumbleSmall : Bool
  rumbleLarge : UInt8
  rightX : UInt8
  rightY : UInt8
  leftX : UInt8
  leftY : UInt8
  pressure : ℕ → UInt8

/-- `ef2_pad_rpc_reply`. -/
structure RpcReply where
  result : ℤ
  slotCount : ℕ → ℕ
  port : ℕ → PortReply
  slotState : PortReply

/-- What the driver programs into the SIO2 for one transfer. -/
structure Command where
  logicalPort : ℕ
  ctrl1 : UInt32
  ctrl2 : UInt32
  regdata : UInt32
  input : ℕ → UInt8
  size : ℕ

/-- The outcome of one transfer : the wait for its interrupt may expire, else the registers
and the input FIFO are read. -/
structure Outcome where
  completed : Bool
  recv1 : UInt32
  recv2 : UInt32
  output : ℕ → UInt8

/-- A pad transfer : the endpoint it is meant for, the port's slot count as the driver knows
it, and the slot the port's Multitap has selected. -/
structure PadTransfer where
  port : ℕ
  slot : ℕ
  slotCount : ℕ
  selected : ℕ
  command : Command

/-- The driver's globals, with the hardware. -/
structure Machine where
  ports : ℕ → ℕ → PadState
  slotCount : ℕ → ℕ
  selectedSlot : ℕ → ℕ
  reply : RpcReply
  multitap : ℕ → ℕ
  outcomes : ℕ → Outcome
  transfers : ℕ
  log : List PadTransfer

/-- A cleared state with centred sticks, as `_start` sets it. -/
def PadState.start : PadState where
  frame := 0
  buttons := 0
  errors := 0
  reconnects := 0
  connected := false
  id := 0
  timingProfile := false
  stat70Bit := false
  configAttempted := false
  rumbleSupported := false
  rumbleSmall := false
  rumbleLarge := 0
  rightX := 0x80
  rightY := 0x80
  leftX := 0x80
  leftY := 0x80
  pressure := fun _ => 0

/-- `fill_rpc_port`. -/
def fillRpcPort (s : PadState) : PortReply where
  frame := s.frame
  buttons := s.buttons
  errors := s.errors
  reconnects := s.reconnects
  connected := s.connected
  rawId := s.id
  timingProfile := s.timingProfile
  rumbleSupported := s.rumbleSupported
  rumbleSmall := s.rumbleSmall
  rumbleLarge := s.rumbleLarge
  rightX := s.rightX
  rightY := s.rightY
  leftX := s.leftX
  leftY := s.leftY
  pressure := s.pressure

/-- The reply buffer after loading. -/
def PortReply.zero : PortReply :=
  ⟨0, 0, 0, 0, false, 0, false, false, false, 0, 0, 0, 0, 0, fun _ => 0⟩

/-- The service after `_start`, with each Multitap at slot 0. -/
def boot (outcomes : ℕ → Outcome) : Machine where
  ports := fun _ _ => .start
  slotCount := fun _ => 1
  selectedSlot := fun _ => 0
  reply := ⟨0, fun _ => 0, fun _ => .zero, .zero⟩
  multitap := fun _ => 0
  outcomes := outcomes
  transfers := 0
  log := []

/-! ## SIO2 transfers -/

/-- `RECV1` tells that no device answered. -/
def Outcome.noDevice (o : Outcome) : Bool :=
  o.recv1 &&& (1 : UInt32) <<< 16 ≠ 0

/-- The Multitap acknowledges the selection of `slot`. -/
def Outcome.acknowledges (o : Outcome) (slot : ℕ) : Bool :=
  o.completed ∧ o.output 5 = UInt8.ofNat slot

namespace Machine

variable (m : Machine)

/-- The state of an endpoint. -/
def setPort (port slot : ℕ) (s : PadState) : Machine :=
  { m with ports := Function.update m.ports port (Function.update (m.ports port) slot s) }

/-- `ef2_sio2_transfer_raw`. -/
def transferRaw (c : Command) : Machine × Except ℤ Outcome :=
  if c.logicalPort ≥ 4 ∨ c.size = 0 ∨ c.size > 32 then (m, .error (-1))
  else
    let o := m.outcomes m.transfers
    let m := { m with transfers := m.transfers + 1 }
    if ¬o.completed then (m, .error (-2)) else (m, .ok o)

/-- The command of `ef2_sio2_transfer_pad`. -/
def padCommand (port : ℕ) (timingProfile stat70Bit : Bool) (input : ℕ → UInt8) (size : ℕ) :
    Command where
  logicalPort := port
  ctrl1 := if stat70Bit then 0xFF060505 else if timingProfile then 0xFF600A0A else 0xFFC00505
  ctrl2 := if stat70Bit then 0x0002012C else 0x00020014
  regdata := (UInt32.ofNat size &&& 0x1FF) <<< 18 ||| (UInt32.ofNat size &&& 0x1FF) <<< 8 |||
    0x40 ||| (UInt32.ofNat port &&& 3)
  input := input
  size := size

/-- `ef2_sio2_transfer_pad`, called for the endpoint `(port, slot)` ; only the log reads the
slot. -/
def transferPad (port slot : ℕ) (timingProfile stat70Bit : Bool) (input : ℕ → UInt8) (size : ℕ) :
    Machine × Except ℤ Outcome :=
  if port ≥ 2 ∨ size < 3 ∨ size > 32 then (m, .error (-1))
  else
    let c := padCommand port timingProfile stat70Bit input size
    let e : PadTransfer := ⟨port, slot, m.slotCount port, m.multitap port, c⟩
    let m := { m with log := m.log ++ [e] }
    match m.transferRaw c with
    | (m, .error e) => (m, .error e)
    | (m, .ok o) =>
      if o.recv1 &&& (1 : UInt32) <<< 13 ≠ 0 then (m, .error (-3))
      else if o.noDevice then (m, .error (-4))
      else (m, .ok o)

/-- `ef2_sio2_mtap_get_slot_count`. -/
def mtapGetSlotCount (port : ℕ) : Machine × ℤ :=
  if port ≥ 2 then (m, -1)
  else
    let logicalPort := port ||| 2
    match m.transferRaw ⟨logicalPort, 0xFF020505, 0x00030064,
        (UInt32.ofNat logicalPort &&& 3) ||| 0x00180640, bytes [0x21, 0x12], 6⟩ with
    | (m, .error e) => (m, e)
    | (m, .ok o) =>
      if o.noDevice then (m, -3)
      else if o.output 5 = 0x66 then (m, -4)
      else if o.output 3 < 1 ∨ o.output 3 > 4 then (m, -5)
      else (m, (o.output 3).toNat)

/-- The attempts of `ef2_sio2_mtap_select_slot`. The Multitap moves when it acknowledges. -/
def selectAttempts (port slot : ℕ) : ℕ → Machine → Machine × ℤ
  | 0, m => (m, -4)
  | attempts + 1, m =>
    let logicalPort := port ||| 2
    let o := m.outcomes m.transfers
    let m := { m with
      multitap := if o.acknowledges slot then Function.update m.multitap port slot
        else m.multitap }
    match m.transferRaw ⟨logicalPort, 0xFF020505, 0x00030064,
        (UInt32.ofNat logicalPort &&& 3) ||| 0x001C0740,
        bytes [0x21, 0x21, UInt8.ofNat slot], 7⟩ with
    | (m, .error _) => selectAttempts port slot attempts m
    | (m, .ok o) =>
      if o.noDevice then selectAttempts port slot attempts m
      else if o.output 5 = 0x66 then (m, -3)
      else if o.output 5 = UInt8.ofNat slot then (m, 0)
      else selectAttempts port slot attempts m

/-- `ef2_sio2_mtap_select_slot`. -/
def mtapSelectSlot (port slot : ℕ) : Machine × ℤ :=
  if port ≥ 2 ∨ slot ≥ 4 then (m, -1) else selectAttempts port slot 3 m

/-! ## Selection -/

/-- `refresh_topology_port`. -/
def refreshTopologyPort (port : ℕ) : Machine :=
  let (m, slots) := m.mtapGetSlotCount port
  { m with
    slotCount := Function.update m.slotCount port
      (if slots ≥ 2 ∧ slots ≤ slotCountMax then slots.toNat else 1)
    selectedSlot := Function.update m.selectedSlot port 0 }

/-- `refresh_topology`. -/
def refreshTopology : Machine :=
  (List.range portCount).foldl refreshTopologyPort m

/-- `g_selected_slot[port] = slot`. -/
def selected (port slot : ℕ) : Machine :=
  { m with selectedSlot := Function.update m.selectedSlot port slot }

/-- `select_endpoint`. -/
def selectEndpoint (port slot : ℕ) : Machine × ℤ :=
  if slot ≥ m.slotCount port then (m, -1)
  else if m.slotCount port ≤ 1 then (m, if slot = 0 then 0 else -1)
  else if m.selectedSlot port = slot then (m, 0)
  else
    let (m, result) := m.mtapSelectSlot port slot
    if result < 0 then
      let m := m.refreshTopologyPort port
      if m.slotCount port ≤ 1 then (m, if slot = 0 then 0 else -1)
      else
        let (m, result) := m.mtapSelectSlot port slot
        if result < 0 then (m, result) else (m.selected port slot, 0)
    else (m.selected port slot, 0)

end Machine

/-! ## Polling -/

/-- `packet_size_for_id`. -/
def packetSizeForId (id : UInt8) : ℕ :=
  let size := (id &&& 0x0F).toNat * 2 + 3
  let size := if size < 5 then 5 else size
  if size > maxPacket then maxPacket else size

/-- The loop of `shift_stat70_reply`, from `i` down. -/
def shiftLoop : ℕ → (ℕ → UInt8) → ℕ → UInt8
  | 0, buffer => buffer
  | i + 1, buffer => shiftLoop i (Function.update buffer (i + 1) (buffer i))

/-- `shift_stat70_reply`. -/
def shiftStat70Reply (buffer : ℕ → UInt8) (size : ℕ) : ℕ → UInt8 :=
  if size = 0 then buffer else Function.update (shiftLoop (size - 1) buffer) 0 0xFF

/-- `response_looks_like_pad`. -/
def responseLooksLikePad (buffer : ℕ → UInt8) (size : ℕ) : Bool :=
  size ≥ 5 ∧ buffer 1 ≠ 0 ∧ buffer 1 ≠ 0xFF ∧ buffer 2 = 0x5A

/-- The STAT70 bit of a port. -/
def Outcome.stat70 (o : Outcome) (port : ℕ) : Bool :=
  (o.recv2 >>> UInt32.ofNat (4 + port)) &&& 1 ≠ 0

/-- What a successful poll reads. -/
structure PollReply where
  reply : ℕ → UInt8
  size : ℕ

/-- The poll command, with the motors folded in. -/
def pollInput (s : PadState) (idHint : UInt8) (size : ℕ) : ℕ → UInt8 :=
  if size ≥ 9 ∧ idHint ≠ 0 ∧ s.rumbleSupported then
    bytes [1, 0x42, 0, if s.rumbleSmall then 1 else 0, s.rumbleLarge, 0xFF, 0xFF, 0xFF, 0xFF]
  else bytes [1, 0x42]

/-- `config_reply_is_config`. -/
def configReplyIsConfig (reply : ℕ → UInt8) (size : ℕ) : Bool :=
  size ≥ 3 ∧ reply 1 = 0xF3

/-- `should_configure_pad`. -/
def shouldConfigurePad (id : UInt8) : Bool :=
  id = 0x41 ∨ id = 0x73 ∨ id = 0x79

/-- `parse_reply`. -/
def parseReply (s : PadState) (reply : ℕ → UInt8) (size : ℕ) : PadState :=
  let rawButtons := (reply 3).toUInt16 ||| (reply 4).toUInt16 <<< 8
  { s with
    buttons := (~~~rawButtons).toUInt32 &&& 0xFFFF
    rightX := if size ≥ 9 then reply 5 else 0x80
    rightY := if size ≥ 9 then reply 6 else 0x80
    leftX := if size ≥ 9 then reply 7 else 0x80
    leftY := if size ≥ 9 then reply 8 else 0x80
    pressure := fun i => if size ≥ 21 then reply (9 + i) else 0 }

namespace Machine

variable (m : Machine)

/-- `transfer_poll`, with the STAT70 bit to keep. -/
def transferPoll (port slot : ℕ) (idHint : UInt8) (timingProfile stat70Bit : Bool) :
    Machine × Except ℤ (PollReply × Bool) :=
  let size := if idHint = 0 then 5 else packetSizeForId idHint
  let input := pollInput (m.ports port slot) idHint size
  match m.transferPad port slot timingProfile stat70Bit input size with
  | (m, .error e) => (m, .error e)
  | (m, .ok o) =>
    let output := fun i => if i < size then o.output i else 0
    let output := if stat70Bit then shiftStat70Reply output size else output
    if ¬responseLooksLikePad output size then (m, .error (-10))
    else (m, .ok (⟨output, size⟩, o.stat70 port))

/-- `transfer_command`. -/
def transferCommand (port slot : ℕ) (input : ℕ → UInt8) (size : ℕ) :
    Machine × Except ℤ (ℕ → UInt8) :=
  let stat70Before := (m.ports port slot).stat70Bit
  match m.transferPad port slot false stat70Before input size with
  | (m, .error e) => (m, .error e)
  | (m, .ok o) =>
    let output := fun i => if i < size then o.output i else 0
    let output := if stat70Before then shiftStat70Reply output size else output
    (m.setPort port slot { m.ports port slot with stat70Bit := o.stat70 port }, .ok output)

/-- A step of `configure_dualshock` that wants a reply of the config mode. -/
def configCommand (port slot : ℕ) (input : List UInt8) (failed : ℤ) : Machine × ℤ :=
  match m.transferCommand port slot (bytes input) 9 with
  | (m, .error e) => (m, e)
  | (m, .ok reply) => (m, if configReplyIsConfig reply 9 then 0 else failed)

/-- `configure_dualshock`. -/
def configureDualshock (port slot : ℕ) : Machine × ℤ :=
  let size := packetSizeForId (m.ports port slot).id
  match m.transferCommand port slot (bytes [1, 0x43, 0, 1]) size with
  | (m, .error e) => (m, e)
  | (m, .ok _) =>
    let (m, analogResult) := m.configCommand port slot [1, 0x44, 0, 1, 3] (-20)
    let (m, _) := m.configCommand port slot [1, 0x4F, 0, 0xFF, 0xFF, 0x03] (-21)
    let (m, alignResult) :=
      m.configCommand port slot [1, 0x4D, 0, 0, 1, 0xFF, 0xFF, 0xFF, 0xFF] (-1)
    let m := m.setPort port slot { m.ports port slot with rumbleSupported := alignResult = 0 }
    match m.transferCommand port slot
        (bytes [1, 0x43, 0, 0, 0x5A, 0x5A, 0x5A, 0x5A, 0x5A]) 9 with
    | (m, .error e) => (m, if analogResult < 0 then analogResult else e)
    | (m, .ok _) => (m, if analogResult < 0 then analogResult else 0)

/-- `try_profile`. -/
def tryProfile (port slot : ℕ) (idHint : UInt8) (timingProfile stat70Bit : Bool) :
    Machine × Except ℤ PollReply :=
  match m.transferPoll port slot idHint timingProfile stat70Bit with
  | (m, .error e) => (m, .error e)
  | (m, .ok (r, nextStat70)) =>
    (m.setPort port slot { m.ports port slot with
      stat70Bit := nextStat70
      timingProfile := timingProfile
      id := r.reply 1 }, .ok r)

/-- `discover_pad`. -/
def discoverPad (port slot : ℕ) : Machine × Except ℤ PollReply :=
  match m.tryProfile port slot 0 false (m.ports port slot).stat70Bit with
  | (m, .ok r) => (m, .ok r)
  | (m, .error _) =>
    match m.tryProfile port slot 0 true false with
    | (m, .ok r) => (m, .ok r)
    | (m, .error _) => m.tryProfile port slot 0 false true

/-- The transfers of `poll_slot` that find the pad. -/
def findPad (port slot : ℕ) : Machine × Except ℤ PollReply :=
  let s := m.ports port slot
  if s.connected then
    match m.tryProfile port slot s.id s.timingProfile s.stat70Bit with
    | (m, .ok r) => (m, .ok r)
    | (m, .error _) =>
      let s := m.ports port slot
      match m.tryProfile port slot s.id (!s.timingProfile) false with
      | (m, .ok r) => (m, .ok r)
      | (m, .error _) => m.discoverPad port slot
  else m.discoverPad port slot

/-- `poll_slot` when no pad was found. -/
def padLost (port slot : ℕ) : Machine :=
  m.setPort port slot { m.ports port slot with
    errors := (m.ports port slot).errors + 1
    connected := false
    buttons := 0
    id := 0
    configAttempted := false
    rumbleSupported := false
    rumbleSmall := false
    rumbleLarge := 0
    rightX := 0x80
    rightY := 0x80
    leftX := 0x80
    leftY := 0x80 }

/-- The full-size poll `poll_slot` makes when the pad is new or answered a short packet. -/
def pollFull (port slot : ℕ) (previousId : UInt8) (r : PollReply) : Machine × PollReply :=
  if r.reply 1 ≠ previousId ∨ r.size < packetSizeForId (r.reply 1) then
    let s := m.ports port slot
    match m.tryProfile port slot (r.reply 1) s.timingProfile s.stat70Bit with
    | (m, .ok full) => (m, full)
    | (m, .error _) =>
      (m.setPort port slot { m.ports port slot with id := r.reply 1 }, r)
  else (m, r)

/-- The configuration `poll_slot` attempts once for each pad. -/
def configureOnce (port slot : ℕ) (previousId : UInt8) : Machine :=
  let s := m.ports port slot
  let s := if previousId ≠ 0 ∧ s.id = 0x41 ∧ previousId ≠ 0x41 then
    { s with configAttempted := false } else s
  if ¬s.configAttempted ∧ shouldConfigurePad s.id then
    ((m.setPort port slot { s with configAttempted := true }).configureDualshock port slot).1
  else m.setPort port slot s

/-- `poll_slot` once a pad was found. -/
def padFound (port slot : ℕ) (wasConnected : Bool) (previousId : UInt8) (r : PollReply) :
    Machine :=
  let (m, r) := m.pollFull port slot previousId r
  let m := m.configureOnce port slot previousId
  let s := m.ports port slot
  m.setPort port slot (parseReply { s with
    connected := true
    frame := s.frame + 1
    reconnects := if wasConnected then s.reconnects else s.reconnects + 1 } r.reply r.size)

/-- `poll_slot`. -/
def pollSlot (port slot : ℕ) : Machine × ℤ :=
  let wasConnected := (m.ports port slot).connected
  let previousId := (m.ports port slot).id
  match m.selectEndpoint port slot with
  | (m, result) =>
    if result < 0 then
      (m.setPort port slot { m.ports port slot with connected := false, buttons := 0 }, result)
    else
      match m.findPad port slot with
      | (m, .error e) => (m.padLost port slot, e)
      | (m, .ok r) => (m.padFound port slot wasConnected previousId r, 0)

end Machine

/-! ## Rules for the parts of a poll -/

theorem packetSizeForId_mem (id : UInt8) : 5 ≤ packetSizeForId id ∧ packetSizeForId id ≤ 32 := by
  simp only [packetSizeForId, maxPacket]
  split_ifs <;> omega

namespace Machine

variable {R : Machine → Machine → Prop} {F : Machine → Machine → Except ℤ PollReply → Prop}
  {port slot : ℕ} {m m' : Machine}

/-- What holds along each part of `select_endpoint`, and along nothing, holds along the whole. -/
theorem selectEndpoint_along (hrefl : ∀ m, R m m)
    (htrans : ∀ {m₁ m₂ m₃}, R m₁ m₂ → R m₂ m₃ → R m₁ m₃)
    (hselect : ∀ m : Machine, R m (m.mtapSelectSlot port slot).1)
    (hrefresh : ∀ m : Machine, R m (m.refreshTopologyPort port))
    (hselected : ∀ m : Machine, R m (m.selected port slot)) (m : Machine) :
    R m (m.selectEndpoint port slot).1 := by
  have hfirst := hselect m
  have hrediscovered := htrans hfirst (hrefresh _)
  have hsecond := htrans hrediscovered (hselect _)
  rw [selectEndpoint]
  dsimp only
  split_ifs
  · exact hrefl m
  · exact hrefl m
  · exact hrefl m
  · exact hrefl m
  · exact hrediscovered
  · exact hrediscovered
  · exact hsecond
  · exact htrans hsecond (hselected _)
  · exact htrans hfirst (hselected _)

/-- What holds of one attempt, and of a second attempt where the first fails, holds of
`discover_pad`. -/
theorem discoverPad_of_attempts {o : Except ℤ PollReply}
    (hattempt : ∀ {m m' idHint timingProfile stat70Bit o},
      m.tryProfile port slot idHint timingProfile stat70Bit = (m', o) → F m m' o)
    (horElse : ∀ {m₁ m₂ m₃ e o}, F m₁ m₂ (.error e) → F m₂ m₃ o → F m₁ m₃ o)
    (h : m.discoverPad port slot = (m', o)) : F m m' o := by
  rw [discoverPad] at h
  split at h
  case h_1 hfirst =>
    cases h
    exact hattempt hfirst
  case h_2 hfirst =>
    split at h
    case h_1 hsecond =>
      cases h
      exact horElse (hattempt hfirst) (hattempt hsecond)
    case h_2 hsecond =>
      exact horElse (hattempt hfirst) (horElse (hattempt hsecond) (hattempt h))

theorem findPad_of_attempts {o : Except ℤ PollReply}
    (hattempt : ∀ {m m' idHint timingProfile stat70Bit o},
      m.tryProfile port slot idHint timingProfile stat70Bit = (m', o) → F m m' o)
    (horElse : ∀ {m₁ m₂ m₃ e o}, F m₁ m₂ (.error e) → F m₂ m₃ o → F m₁ m₃ o)
    (h : m.findPad port slot = (m', o)) : F m m' o := by
  rw [findPad] at h
  dsimp only at h
  split at h
  · split at h
    case h_1 hfirst =>
      cases h
      exact hattempt hfirst
    case h_2 hfirst =>
      split at h
      case h_1 hsecond =>
        cases h
        exact horElse (hattempt hfirst) (hattempt hsecond)
      case h_2 hsecond =>
        exact horElse (hattempt hfirst)
          (horElse (hattempt hsecond) (discoverPad_of_attempts hattempt horElse h))
  · exact discoverPad_of_attempts hattempt horElse h

section Configure

variable {S : Machine → Machine → Prop}
  (htrans : ∀ {m₁ m₂ m₃}, R m₁ m₂ → R m₂ m₃ → R m₁ m₃)
  (htransfer : ∀ {m m' : Machine} {input size o}, m.transferCommand port slot input size = (m', o) →
    3 ≤ size ∧ size ≤ 32 → input 1 ≠ 0x42 → R m m')
  (hset : ∀ (m : Machine) s, s.id = (m.ports port slot).id →
    s.rumbleSmall = (m.ports port slot).rumbleSmall →
    s.rumbleLarge = (m.ports port slot).rumbleLarge → R m (m.setPort port slot s))
include htrans htransfer hset

/-- What holds along the first transfer of `configure_dualshock`, and is kept by the other
transfers and where the identifier and the motors are kept, holds along the whole. -/
theorem configureDualshock_enters
    (henter : ∀ {m m' : Machine} {size o},
      m.transferCommand port slot (bytes [1, 0x43, 0, 1]) size = (m', o) →
        3 ≤ size ∧ size ≤ 32 → S m m')
    (hthen : ∀ {m₁ m₂ m₃}, S m₁ m₂ → R m₂ m₃ → S m₁ m₃) (m : Machine) :
    S m (m.configureDualshock port slot).1 := by
  have hsize := packetSizeForId_mem (m.ports port slot).id
  have hcommand (m : Machine) (command : List UInt8) (failed : ℤ) (h : bytes command 1 ≠ 0x42) :
      R m (m.configCommand port slot command failed).1 := by
    rw [configCommand]
    split <;> exact htransfer ‹_› (by decide) h
  rw [configureDualshock]
  dsimp only
  split
  case h_1 hentered => exact henter hentered (by omega)
  case h_2 m _ hentered =>
    have hsetup := htrans (htrans
      (hcommand m [1, 0x44, 0, 1, 3] (-20) (by decide))
      (hcommand _ [1, 0x4F, 0, 0xFF, 0xFF, 0x03] (-21) (by decide)))
      (hcommand _ [1, 0x4D, 0, 0, 1, 0xFF, 0xFF, 0xFF, 0xFF] (-1) (by decide))
    refine hthen (henter hentered (by omega)) ?_
    split
    case h_1 hexit =>
      refine htrans (htrans hsetup (hset _ _ ?_ ?_ ?_))
        (htransfer hexit (by decide) (by decide)) <;> rfl
    case h_2 hexit =>
      refine htrans (htrans hsetup (hset _ _ ?_ ?_ ?_))
        (htransfer hexit (by decide) (by decide)) <;> rfl

theorem configureOnce_along (m : Machine) (previousId : UInt8) :
    R m (m.configureOnce port slot previousId) := by
  have hconfigure (m : Machine) : R m (m.configureDualshock port slot).1 :=
    configureDualshock_enters (R := R) (S := R) htrans htransfer hset
      (fun h hsize => htransfer h hsize (by decide)) htrans m
  rw [configureOnce]
  split_ifs
  · refine htrans (hset _ _ ?_ ?_ ?_) (hconfigure _) <;> rfl
  · exact hset _ _ rfl rfl rfl
  · refine htrans (hset _ _ ?_ ?_ ?_) (hconfigure _) <;> rfl
  · exact hset _ _ rfl rfl rfl

end Configure

end Machine

/-! ## Requests -/

/-- The function numbers `EF2_PAD_RPC_INIT` and on ; `other` is any number without a case. -/
inductive Function
  | init
  | poll
  | setRumble
  | pollSlot
  | refreshTopology
  | setRumbleSlot
  | other

/-- A call of `rpc_handler` : the function, the length and `ef2_pad_rpc_request`. -/
structure Request where
  function : Function
  length : ℤ
  portMask : UInt32
  port : ℕ
  slot : ℕ
  smallMotor : UInt8
  largeMotor : UInt8

namespace Request

/-- `sizeof(ef2_pad_rpc_request)`. -/
abbrev size : ℤ := 12

/-- The mask names the port. -/
def names (r : Request) (port : ℕ) : Bool :=
  r.portMask &&& (1 : UInt32) <<< UInt32.ofNat port ≠ 0

/-- The first port the mask names, else port 0. -/
def rumblePort (r : Request) : ℕ :=
  ((List.range portCount).find? r.names).getD 0

end Request

namespace Machine

variable (m : Machine)

/-- `g_rpc_reply.result`. -/
def result (value : ℤ) : Machine :=
  { m with reply := { m.reply with result := value } }

/-- `fill_rpc_port` into `g_rpc_reply.slot_state`. -/
def fillSlotState (port slot : ℕ) : Machine :=
  { m with reply := { m.reply with slotState := fillRpcPort (m.ports port slot) } }

/-- `EF2_PAD_RPC_POLL`. -/
def rpcPoll (r : Request) : Machine :=
  if r.length < Request.size then m.result (-1)
  else
    (List.range portCount).foldl
      (fun m port => if r.names port then (m.pollSlot port 0).1 else m) m

/-- `EF2_PAD_RPC_POLL_SLOT`. -/
def rpcPollSlot (r : Request) : Machine :=
  if r.length < Request.size ∨ r.port ≥ portCount ∨ r.slot ≥ slotCountMax then m.result (-1)
  else if r.slot ≥ m.slotCount r.port then m.result (-2)
  else (m.pollSlot r.port r.slot).1.fillSlotState r.port r.slot

/-- The request is refused, or it names a slot that is there. -/
theorem rpcPollSlot_cases (r : Request) :
    (∃ result < 0, m.rpcPollSlot r = m.result result ∧
      ¬(Request.size ≤ r.length ∧ r.port < portCount ∧ r.slot < slotCountMax ∧
        r.slot < m.slotCount r.port)) ∨
    (Request.size ≤ r.length ∧ r.port < portCount ∧ r.slot < slotCountMax ∧
      r.slot < m.slotCount r.port) ∧
      m.rpcPollSlot r = (m.pollSlot r.port r.slot).1.fillSlotState r.port r.slot := by
  rw [rpcPollSlot]
  split_ifs with hbad hcount
  · exact Or.inl ⟨-1, by decide, rfl, by omega⟩
  · exact Or.inl ⟨-2, by decide, rfl, by omega⟩
  · exact Or.inr ⟨by omega, rfl⟩

/-- `EF2_PAD_RPC_SET_RUMBLE` and `EF2_PAD_RPC_SET_RUMBLE_SLOT` for their endpoint. -/
def rpcSetRumble (r : Request) (port slot : ℕ) : Machine :=
  if r.length < Request.size then m.result (-1)
  else if port ≥ portCount ∨ slot ≥ slotCountMax ∨ slot ≥ m.slotCount port then m.result (-2)
  else if ¬(m.ports port slot).connected then m.result (-3)
  else if ¬(m.ports port slot).rumbleSupported then m.result (-4)
  else
    (m.setPort port slot { m.ports port slot with
      rumbleSmall := r.smallMotor ≠ 0
      rumbleLarge := r.largeMotor }).fillSlotState port slot

/-- `fill_topology_reply`, and the native slots. -/
def fillReply : Machine :=
  { m with reply := { m.reply with
      slotCount := m.slotCount
      port := fun port => fillRpcPort (m.ports port 0) } }

/-- The switch of `rpc_handler`. -/
def dispatch (r : Request) : Machine :=
  match r.function with
  | .init => m.refreshTopology
  | .poll => m.rpcPoll r
  | .pollSlot => m.rpcPollSlot r
  | .refreshTopology => m.refreshTopology
  | .setRumble => m.rpcSetRumble r r.rumblePort 0
  | .setRumbleSlot => m.rpcSetRumble r r.port r.slot
  | .other => m.result (-100)

/-- `rpc_handler`. -/
def rpcHandler (r : Request) : Machine :=
  ((m.result 0).dispatch r).fillReply

end Machine

/-- The service handles one request after the other. -/
def next (m : Machine) (r : Request) : Option Machine :=
  some (m.rpcHandler r)

end EF2SDK.IopPad
