import EF2SDK.MemoryCard

/-!
# The MMCE protocol

The multi-purpose memory card emulator's part of `src/iop/storage/src/storage_backends.c` :
the ping that identifies it, the 16-bit queries, the virtual card, channel and game ID
commands, and the file operations. Every command starts with `MMCE_ID` and is acknowledged
with `MMCE_REPLY` in the second byte read. Names are sent as they stand in memory, up to
and with their terminating NUL.
-/

set_option autoImplicit false

namespace EF2SDK.IopStorage

variable (device : Device)

/-- `MMCE_ID`. -/
abbrev mmceId : UInt8 := 0x8B

/-- `MMCE_REPLY`. -/
abbrev mmceReply : UInt8 := 0xAA

/-- `EF2_STORAGE_PATH_MAX`. -/
abbrev pathMax : ℕ := 240

/-- `EF2_STORAGE_GAME_ID_MAX`. -/
abbrev gameIdMax : ℕ := 250

/-- The arguments of an exchange with an MMCE, with `MMCE_CTRL1` and `MMCE_CTRL2`. -/
def mmceRequest (port : UInt32) (tx : List UInt8) (rxSize : ℕ) : Request where
  port := port.toNat
  ctrl1 := 0xFF020005
  ctrl2 := 0x0005FFFF
  baudSelect := 0
  tx := tx
  rxSize := rxSize
  timeoutPolls := 200000

def mmceExchange (port : UInt32) (tx : List UInt8) (rxSize : ℕ) :
    StateM Backend (ℤ × List UInt8) :=
  sio2Exchange device (mmceRequest port tx rxSize)

theorem mmceExchange_run {port : UInt32} {tx : List UInt8} {rxSize : ℕ}
    (hport : port.toNat < 4) (htx : tx.length ≤ 256) (hrx : rxSize ≤ 256) (b : Backend) :
    mmceExchange device port tx rxSize b
      = (received (device.answer b.log (mmceRequest port tx rxSize)),
          b.exchange device (mmceRequest port tx rxSize)) :=
  sio2Exchange_run device (by
    change ¬(4 ≤ port.toNat ∨ 256 < tx.length ∨ 256 < rxSize)
    omega) b

/-! ## Identification and settings -/

def pingRequest (port : UInt32) : Request :=
  mmceRequest port [mmceId, 0x01, 0xFF, 0, 0, 0, 0xFF] 7

/-- The result and the record. -/
def mmcePing (port : UInt32) (info : DeviceInfo) : StateM Backend (ℤ × DeviceInfo) := do
  let exchanged ← sio2Exchange device (pingRequest port)
  let rx := exchanged.2
  if exchanged.1 < 0 then
    pure (exchanged.1, info)
  else if rx.getD 1 0 ≠ mmceReply then
    pure (-10, info)
  else
    pure (0,
      { info with
        protocolVersion := (rx.getD 3 0).toUInt32
        productId := (rx.getD 4 0).toUInt32
        productRevision := (rx.getD 5 0).toUInt32 })

def mmceGetU16 (port : UInt32) (command : UInt8) : StateM Backend ℤ := do
  let exchanged ← mmceExchange device port [mmceId, command, 0xFF] 6
  let rx := exchanged.2
  if exchanged.1 < 0 then
    pure exchanged.1
  else if rx.getD 1 0 ≠ mmceReply then
    pure (-10)
  else
    pure (((rx.getD 3 0).toNat <<< 8) ||| (rx.getD 4 0).toNat : ℕ)

def mmceSetPacket (port : UInt32) (tx : List UInt8) : StateM Backend ℤ := do
  let exchanged ← mmceExchange device port tx 2
  if exchanged.1 < 0 then
    pure exchanged.1
  else if exchanged.2.getD 1 0 = mmceReply then
    pure 0
  else
    pure (-10)

def mmcePackOpenFlags (flags : UInt32) : UInt8 :=
  let access := flags &&& 3
  let packed := if access ≠ 0 then access - 1 else 0
  let packed := packed ||| ((flags &&& 0x100) >>> 5)
  let packed := packed ||| ((flags &&& 0xE00) >>> 4)
  packed.toUInt8

/-- `mmce_validate_device` succeeds. -/
def mmceValidDevice (info : DeviceInfo) : Bool :=
  info.kind = .mmce && !decide (info.physicalPort < 2) && !decide (3 < info.physicalPort)

theorem port_lt_of_valid {info : DeviceInfo} (h : mmceValidDevice info = true) :
    info.physicalPort.toNat < 4 := by
  simp only [mmceValidDevice, Bool.and_eq_true, Bool.not_eq_true', decide_eq_false_iff_not,
    UInt32.lt_iff_toNat_lt] at h
  exact Nat.lt_succ_of_le (Nat.not_lt.mp h.2)

/-- `ef2_storage_backend_mmce_status`, `_get_card` and `_get_channel`, by their command. -/
def backendMmceQuery (command : UInt8) (info : DeviceInfo) : StateM Backend ℤ :=
  if mmceValidDevice info = false then
    pure (-1)
  else
    mmceGetU16 device info.physicalPort command

def backendMmceStatus (info : DeviceInfo) : StateM Backend ℤ :=
  backendMmceQuery device 0x02 info

def backendMmceGetCard (info : DeviceInfo) : StateM Backend ℤ :=
  backendMmceQuery device 0x03 info

def backendMmceGetChannel (info : DeviceInfo) : StateM Backend ℤ :=
  backendMmceQuery device 0x05 info

def backendMmceSetCard (info : DeviceInfo) (type mode card : UInt32) : StateM Backend ℤ :=
  if mmceValidDevice info = false ∨ 1 < type ∨ 2 < mode ∨ 0xFFFF < card then
    pure (-1)
  else
    mmceSetPacket device info.physicalPort [mmceId, 0x04, 0xFF, type.toUInt8, mode.toUInt8,
      (card >>> 8).toUInt8, card.toUInt8, 0xFF]

def backendMmceSetChannel (info : DeviceInfo) (mode channel : UInt32) : StateM Backend ℤ :=
  if mmceValidDevice info = false ∨ 2 < mode ∨ 0xFFFF < channel then
    pure (-1)
  else
    mmceSetPacket device info.physicalPort [mmceId, 0x06, 0xFF, mode.toUInt8,
      (channel >>> 8).toUInt8, channel.toUInt8, 0xFF]

/-! ## Names -/

/-- `string_length` of the text in memory, which ends in zeros. -/
def stringLength : List UInt8 → ℕ → ℕ
  | c :: text, limit + 1 => if c ≠ 0 then stringLength text limit + 1 else 0
  | _, _ => 0

/-- The packet of `ef2_storage_backend_mmce_set_game_id`. -/
def gameIdPacket (gameId : List UInt8) (length : ℕ) : List UInt8 :=
  [mmceId, 0x08, 0xFF, UInt8.ofNat (length + 1)] ++ gameId.take length ++ [0, 0xFF]

def backendMmceSetGameId (info : DeviceInfo) (gameId : List UInt8) : StateM Backend ℤ :=
  if mmceValidDevice info = false then
    pure (-1)
  else
    let length := stringLength gameId (gameIdMax - 1)
    if gameIdMax < length + 1 then
      pure (-2)
    else
      mmceSetPacket device info.physicalPort (gameIdPacket gameId length)

/-- The packet that opens `ef2_storage_backend_mmce_open`. -/
def openPacket (flags : UInt32) : List UInt8 :=
  [mmceId, 0x40, 0xFF, mmcePackOpenFlags flags, 0xFF]

def backendMmceOpen (info : DeviceInfo) (path : List UInt8) (flags : UInt32) :
    StateM Backend ℤ :=
  if mmceValidDevice info = false then
    pure (-1)
  else do
    let length := stringLength path (pathMax - 1) + 1
    let header ← mmceExchange device info.physicalPort (openPacket flags) 5
    if header.1 < 0 ∨ header.2.getD 1 0 ≠ mmceReply then
      pure (-2)
    else do
      let sent ← mmceExchange device info.physicalPort (path.take length) length
      if sent.1 < 0 then
        pure (-3)
      else do
        let footer ← mmceExchange device info.physicalPort [] 3
        if footer.1 < 0 then
          pure (-4)
        else if footer.2.getD 1 0 = 0xFF then
          pure (-5)
        else
          pure (footer.2.getD 1 0).toNat

/-! ## Files -/

/-- `fd < 0 || fd > 255`. -/
def BadFd (fd : ℤ) : Prop :=
  fd < 0 ∨ 255 < fd

instance (fd : ℤ) : Decidable (BadFd fd) :=
  inferInstanceAs (Decidable (_ ∨ _))

def backendMmceClose (info : DeviceInfo) (fd : ℤ) : StateM Backend ℤ :=
  if mmceValidDevice info = false ∨ BadFd fd then
    pure (-1)
  else do
    let exchanged ← mmceExchange device info.physicalPort
      [mmceId, 0x41, 0xFF, UInt8.ofNat fd.toNat, 0xFF, 0xFF] 6
    if exchanged.1 < 0 ∨ exchanged.2.getD 1 0 ≠ mmceReply then
      pure (-2)
    else if exchanged.2.getD 4 0 = 0 then
      pure 0
    else
      pure (-3)

/-- The packet that opens a read (`0x42`) or a write (`0x43`) of `size` bytes. -/
def transferPacket (command : UInt8) (fd : ℤ) (size : ℕ) : List UInt8 :=
  [mmceId, command, 0xFF, 0, UInt8.ofNat fd.toNat, UInt8.ofNat (size >>> 24),
    UInt8.ofNat (size >>> 16), UInt8.ofNat (size >>> 8), UInt8.ofNat size, 0xFF]

/-- The signed big-endian word in bytes 1 to 4 of a footer. -/
def footerCount (footer : List UInt8) : ℤ :=
  let byte := fun i => (footer.getD i 0).toUInt32
  ((byte 1 <<< 24) ||| (byte 2 <<< 16) ||| (byte 3 <<< 8) ||| byte 4).toInt32.toInt

/-- The loop of `ef2_storage_backend_mmce_read`, with the bytes left and the bytes stored so
far. -/
def mmceReceive (port : UInt32) (left : ℕ) (data : List UInt8) :
    StateM Backend (Bool × List UInt8) :=
  if 0 < left then do
    let chunk := if 256 < left then 256 else left
    let exchanged ← mmceExchange device port [] chunk
    if exchanged.1 < 0 then
      pure (false, data)
    else
      mmceReceive port (left - chunk) (data ++ exchanged.2)
  else
    pure (true, data)
termination_by left
decreasing_by split <;> omega

/-- The result and the bytes stored in `data`. -/
def backendMmceRead (info : DeviceInfo) (fd : ℤ) (size : ℕ) :
    StateM Backend (ℤ × List UInt8) :=
  if mmceValidDevice info = false ∨ ioChunk < size ∨ BadFd fd then
    pure (-1, [])
  else do
    let header ← mmceExchange device info.physicalPort (transferPacket 0x42 fd size) 10
    if header.1 < 0 ∨ header.2.getD 1 0 ≠ mmceReply ∨ header.2.getD 9 0 ≠ 0 then
      pure (-2, [])
    else do
      let received ← mmceReceive device info.physicalPort size []
      if received.1 = false then
        pure (-3, received.2)
      else do
        let footer ← mmceExchange device info.physicalPort [] 6
        let bytesRead := footerCount footer.2
        if footer.1 < 0 then
          pure (-4, received.2)
        else if bytesRead < 0 then
          pure (-5, received.2)
        else
          pure (if size < bytesRead then size else bytesRead, received.2)

/-- The loop of `ef2_storage_backend_mmce_write` that waits for the device, `none` where the
function returns -3 and else whether the device became ready. -/
def mmceAwaitReady (port : UInt32) : ℕ → StateM Backend (Option Bool)
  | 0 => pure (some false)
  | attempts + 1 => do
    let ready ← mmceExchange device port [] 2
    if ready.1 < 0 then
      pure none
    else if ready.2.getD 1 0 ≠ 0 then
      pure (some true)
    else
      mmceAwaitReady port attempts

/-- The loop of `ef2_storage_backend_mmce_write` that sends the data, with what is left. -/
def mmceSend (port : UInt32) (data : List UInt8) : StateM Backend Bool :=
  if 0 < data.length then do
    let exchanged ← mmceExchange device port (data.take 256) 0
    if exchanged.1 < 0 then
      pure false
    else
      mmceSend port (data.drop 256)
  else
    pure true
termination_by data.length
decreasing_by
  rw [List.length_drop]
  omega

def backendMmceWrite (info : DeviceInfo) (fd : ℤ) (data : List UInt8) : StateM Backend ℤ :=
  let size := data.length
  if mmceValidDevice info = false ∨ ioChunk < size ∨ BadFd fd then
    pure (-1)
  else do
    let header ← mmceExchange device info.physicalPort (transferPacket 0x43 fd size) 10
    if header.1 < 0 ∨ header.2.getD 1 0 ≠ mmceReply ∨ header.2.getD 9 0 ≠ 0 then
      pure (-2)
    else do
      let ready ← mmceAwaitReady device info.physicalPort 128
      match ready with
      | none => pure (-3)
      | some false => pure (-4)
      | some true => do
        let sent ← mmceSend device info.physicalPort data
        if sent = false then
          pure (-5)
        else do
          let footer ← mmceExchange device info.physicalPort [] 6
          let bytesWritten := footerCount footer.2
          if footer.1 < 0 then
            pure (-6)
          else if bytesWritten < 0 then
            pure (-7)
          else
            pure (if size < bytesWritten then size else bytesWritten)

def backendMmceLseek (info : DeviceInfo) (fd offset whence : ℤ) : StateM Backend ℤ :=
  if mmceValidDevice info = false ∨ BadFd fd then
    pure (-1)
  else do
    let word := UInt32.ofInt offset
    let exchanged ← mmceExchange device info.physicalPort
      [mmceId, 0x44, 0xFF, UInt8.ofNat fd.toNat, (word >>> 24).toUInt8, (word >>> 16).toUInt8,
        (word >>> 8).toUInt8, word.toUInt8, (UInt32.ofInt whence).toUInt8] 14
    if exchanged.1 < 0 ∨ exchanged.2.getD 1 0 ≠ mmceReply then
      pure (-2)
    else
      pure (footerCount (exchanged.2.drop 8))

end EF2SDK.IopStorage
