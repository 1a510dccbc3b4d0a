import EF2SDK.IopStorage

/-!
# Native memory cards

The record in which `src/iop/storage/src/storage_backends.c` describes a device, and the
native PS2 memory card protocol : the terminator, the specification, which gives the card's
geometry, and page reads in chunks of 32 bytes. `mc_check_format` reads page 0 and compares
its start with the signature of a formatted card.

Every packet is answered with as many bytes as it has. A function that fills a part of a
device record in takes the record and returns it with its result.
-/

set_option autoImplicit false

namespace EF2SDK.IopStorage

/-! ## Device records -/

/-- `ef2_storage_kind`. -/
inductive Kind where
  | none
  | ps2MemoryCard
  | mmce
  | mx4sio
  deriving DecidableEq

/-- `ef2_storage_format_state`. -/
inductive FormatState where
  | unknown
  | unformatted
  | formatted
  deriving DecidableEq

/-- `EF2_STORAGE_CAP_MEMORY_CARD`. -/
abbrev capMemoryCard : UInt32 := 0x01

/-- `EF2_STORAGE_CAP_GEOMETRY`. -/
abbrev capGeometry : UInt32 := 0x02

/-- `EF2_STORAGE_CAP_BLOCK_READ`. -/
abbrev capBlockRead : UInt32 := 0x04

/-- `EF2_STORAGE_CAP_BLOCK_WRITE`. -/
abbrev capBlockWrite : UInt32 := 0x08

/-- `EF2_STORAGE_CAP_FILESYSTEM`. -/
abbrev capFilesystem : UInt32 := 0x10

/-- `EF2_STORAGE_CAP_VIRTUAL_CARDS`. -/
abbrev capVirtualCards : UInt32 := 0x20

/-- `EF2_STORAGE_CAP_GAME_ID`. -/
abbrev capGameId : UInt32 := 0x40

/-- `EF2_STORAGE_CAP_PAGE_READ`. -/
abbrev capPageRead : UInt32 := 0x80

/-- `EF2_STORAGE_IO_CHUNK`. -/
abbrev ioChunk : ℕ := 512

/-- `ef2_storage_device_info`, with the values that `clear_bytes` leaves. -/
structure DeviceInfo where
  kind : Kind := .none
  capabilities : UInt32 := 0
  physicalPort : UInt32 := 0
  pageSize : UInt32 := 0
  eraseBlockPages : UInt32 := 0
  pageCount : UInt32 := 0
  sectorSize : UInt32 := 0
  sectorCount : UInt32 := 0
  protocolVersion : UInt32 := 0
  productId : UInt32 := 0
  productRevision : UInt32 := 0
  cardFlags : UInt32 := 0
  formatted : FormatState := .unformatted
  currentCard : UInt32 := 0
  currentChannel : UInt32 := 0
  status : UInt32 := 0
  deriving DecidableEq

/-! ## Packets -/

variable (device : Device)

def xorEdc (data : List UInt8) : UInt8 :=
  data.foldl (· ^^^ ·) 0

/-- The arguments of an exchange with a native card : `MC_CTRL1`, `MC_CTRL2` and as many bytes
read as written. -/
def mcRequest (port : UInt32) (tx : List UInt8) (timeoutPolls : UInt32) : Request where
  port := port.toNat
  ctrl1 := 0xFF020405
  ctrl2 := 0x0005FFFF
  baudSelect := 0
  tx := tx
  rxSize := tx.length
  timeoutPolls := timeoutPolls

def terminatorRequest (port : UInt32) (terminator : UInt8) : Request :=
  mcRequest port [0x81, 0x27, terminator, 0, 0] 20000

def mcSetTerminator (port : UInt32) (terminator : UInt8) : StateM Backend ℤ := do
  let exchanged ← sio2Exchange device (terminatorRequest port terminator)
  if exchanged.1 < 0 then
    pure exchanged.1
  else if exchanged.2.getD 3 0 ≠ 0x2B then
    pure (-20)
  else if exchanged.2.getD 4 0 ≠ terminator then
    pure (-21)
  else
    pure 0

def specRequest (port : UInt32) : Request :=
  mcRequest port [0x81, 0x26, 0, 0, 0, 0, 0, 0, 0, 0, 0, 0, 0] 20000

/-- What `mc_get_spec` reads off the card's answer. -/
def DeviceInfo.setSpec (info : DeviceInfo) (rx : List UInt8) : DeviceInfo :=
  let byte := fun i => (rx.getD i 0).toUInt32
  { info with
    cardFlags := byte 2
    pageSize := byte 3 ||| (byte 4 <<< 8)
    eraseBlockPages := byte 5 ||| (byte 6 <<< 8)
    pageCount := byte 7 ||| (byte 8 <<< 8) ||| (byte 9 <<< 16) ||| (byte 10 <<< 24) }

/-- What `mc_get_spec` leaves : its result, the record and the terminator's result. -/
structure SpecResult where
  result : ℤ
  info : DeviceInfo
  terminator : ℤ

def mcGetSpec (port : UInt32) (info : DeviceInfo) : StateM Backend SpecResult := do
  let terminator ← mcSetTerminator device port 0x5A
  let exchanged ← sio2Exchange device (specRequest port)
  let rx := exchanged.2
  if exchanged.1 < 0 then
    pure ⟨exchanged.1, info, terminator⟩
  else if rx.getD 12 0 ≠ 0x5A ∧ rx.getD 12 0 ≠ 0x55 then
    pure ⟨-10, info, terminator⟩
  else if xorEdc ((rx.drop 3).take 8) ≠ rx.getD 11 0 then
    pure ⟨-11, info, terminator⟩
  else if (info.setSpec rx).pageSize = 0 ∨ (info.setSpec rx).pageCount = 0 then
    pure ⟨-12, info.setSpec rx, terminator⟩
  else
    pure ⟨0, info.setSpec rx, terminator⟩

/-! ## Page reads -/

def mcValidTerminator (value : UInt8) : Bool :=
  value = 0x55 || value = 0x5A

def selectRequest (port page : UInt32) : Request :=
  let address := [page.toUInt8, (page >>> 8).toUInt8, (page >>> 16).toUInt8, (page >>> 24).toUInt8]
  mcRequest port ([0x81, 0x23] ++ address ++ [xorEdc address, 0, 0]) 20000

def mcSelectReadPage (info : DeviceInfo) (page : UInt32) : StateM Backend ℤ := do
  let exchanged ← sio2Exchange device (selectRequest info.physicalPort page)
  if exchanged.1 < 0 then
    pure (-10)
  else if exchanged.2.getD 7 0 ≠ 0x2B then
    pure (-11)
  else if mcValidTerminator (exchanged.2.getD 8 0) = false then
    pure (-12)
  else
    pure 0

/-- `MC_PIO_READ_CHUNK`. -/
abbrev mcPioReadChunk : ℕ := 32

def chunkRequest (port : UInt32) (size : ℕ) : Request :=
  mcRequest port ([0x81, 0x43, UInt8.ofNat size] ++ List.replicate (size + 3) 0) 40000

/-- The data of a chunk's answer. -/
def chunkData (size : ℕ) (rx : List UInt8) : List UInt8 :=
  (rx.drop 4).take size

/-- The result and the bytes stored in `dest`. -/
def mcReadDataChunk (info : DeviceInfo) (size : ℕ) : StateM Backend (ℤ × List UInt8) :=
  if size = 0 ∨ mcPioReadChunk < size then
    pure (-20, [])
  else do
    let exchanged ← sio2Exchange device (chunkRequest info.physicalPort size)
    let rx := exchanged.2
    if exchanged.1 < 0 then
      pure (-21, [])
    else if rx.getD 3 0 ≠ 0x2B then
      pure (-22, [])
    else if xorEdc (chunkData size rx) ≠ rx.getD (4 + size) 0 then
      pure (-23, [])
    else if mcValidTerminator (rx.getD (5 + size) 0) = false then
      pure (-24, [])
    else
      pure (0, chunkData size rx)

def finishRequest (port : UInt32) : Request :=
  mcRequest port [0x81, 0x81, 0, 0] 20000

def mcFinishRead (info : DeviceInfo) : StateM Backend ℤ := do
  let exchanged ← sio2Exchange device (finishRequest info.physicalPort)
  if exchanged.1 < 0 then
    pure (-30)
  else if exchanged.2.getD 2 0 ≠ 0x2B then
    pure (-31)
  else if mcValidTerminator (exchanged.2.getD 3 0) = false then
    pure (-32)
  else
    pure 0

/-- The loop of `mc_read_page`, with the chunks left and the bytes stored so far. -/
def mcReadChunks (info : DeviceInfo) : ℕ → List UInt8 → StateM Backend (ℤ × List UInt8)
  | 0, data => pure (0, data)
  | chunks + 1, data => do
    let chunk ← mcReadDataChunk device info mcPioReadChunk
    if chunk.1 < 0 then
      pure (chunk.1, data)
    else
      mcReadChunks info chunks (data ++ chunk.2)

/-- The result and the bytes stored in `data`. -/
def mcReadPage (info : DeviceInfo) (page : UInt32) : StateM Backend (ℤ × List UInt8) :=
  if info.capabilities &&& capGeometry = 0 ∨ info.pageSize ≠ UInt32.ofNat ioChunk
      ∨ info.pageCount ≤ page then
    pure (-2, [])
  else do
    let selected ← mcSelectReadPage device info page
    if selected < 0 then
      pure (selected, [])
    else do
      let read ← mcReadChunks device info (ioChunk / mcPioReadChunk) []
      if read.1 < 0 then
        pure read
      else do
        let finished ← mcFinishRead device info
        pure (finished, read.2)

/-- `magic`, the start of a formatted card's page 0. -/
def formatMagic : List UInt8 :=
  "Sony PS2 Memory Card Format ".toList.map Char.toUInt8

example : formatMagic.length = 28 := by decide

/-- The result and the state stored in `formatted`. -/
def mcCheckFormat (info : DeviceInfo) : StateM Backend (ℤ × FormatState) := do
  let read ← mcReadPage device info 0
  if read.1 < 0 then
    pure (read.1, .unknown)
  else if ∀ i < formatMagic.length, read.2.getD i 0 = formatMagic.getD i 0 then
    pure (0, .formatted)
  else
    pure (0, .unformatted)

/-- `ef2_storage_backend_read_page`. -/
def backendReadPage (info : DeviceInfo) (page : UInt32) : StateM Backend (ℤ × List UInt8) :=
  if info.capabilities &&& capPageRead = 0 then
    pure (-2, [])
  else
    mcReadPage device info page

end EF2SDK.IopStorage
