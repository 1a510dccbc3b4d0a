import EF2SDK.StorageRpc

/-!
# The storage client

The EE side, `src/ee/storage/storage.c` : sector transfers and MMCE file transfers, which are
split into requests of one chunk each, and the calls that carry a name.

A `Storage` is the client's globals together with the server they talk to and the calls made.
What becomes of a call is decided by an arbitrary `Transport`, which knows every call made so
far; a request that is handled is handled by `rpc_handler`, with an arbitrary device behind it.
A buffer is a part of the EE's 32-bit address space.
-/

set_option autoImplicit false

namespace EF2SDK.IopStorage

/-! ## Calls -/

/-- What `ef2_sif_call` comes to. A request that timed out may have been handled. -/
inductive RpcOutcome where
  | noServer
  | noPacket
  | rejected
  | timedOut (handled : Bool)
  | answered
  deriving DecidableEq

namespace RpcOutcome

/-- The result of `ef2_sif_call`. -/
def result : RpcOutcome → ℤ
  | noServer => -1
  | noPacket => -2
  | rejected => -3
  | timedOut _ => -4
  | answered => 0

def handled : RpcOutcome → Bool
  | timedOut handled => handled
  | answered => true
  | _ => false

end RpcOutcome

/-- A call of the server, with the reply when one came. -/
structure Call where
  function : RpcFunction
  request : RpcRequest
  reply : Option RpcReply

/-- What becomes of the next call, after the calls made so far. -/
abbrev Transport := List Call → RpcOutcome

/-- `g_storage_bound`, `g_storage_device_count`, `g_storage_scan_diag` and `g_storage_reply`,
with the server and the calls made. -/
structure Storage where
  bound : Bool
  deviceCount : UInt32
  scanDiag : ScanDiag
  reply : RpcReply
  server : Server
  calls : List Call

variable (device : Device) (transport : Transport)

/-- `storage_rpc`. -/
def storageRpc (function : RpcFunction) (request : RpcRequest) : StateM Storage ℤ := fun s =>
  let outcome := transport s.calls
  let handled := rpcHandler device function request true s.server
  let server := if outcome.handled then handled.2 else s.server
  if outcome.result < 0 then
    (outcome.result,
      { s with
        reply := {}
        server := server
        calls := s.calls ++ [⟨function, request, none⟩] })
  else
    (handled.1.result,
      { s with
        deviceCount := handled.1.deviceCount
        scanDiag := handled.1.scanDiag
        reply := handled.1
        server := server
        calls := s.calls ++ [⟨function, request, some handled.1⟩] })

/-- What a call on a device comes to for the backends and for its result. -/
theorem storageRpc_onDevice (function : DeviceFunction) (request : RpcRequest) (s : Storage) :
    let called := storageRpc device transport (.onDevice function) request s
    match (if (transport s.calls).handled then s.server.devices[request.index.toNat]?
      else none) with
    | none => called.1 < 0 ∧ called.2.server.backend = s.server.backend
    | some info =>
      let handled := deviceCall device function request info s.server.backend
      (called.1 < 0 ∨ called.1 = handled.1.result) ∧ called.2.server.backend = handled.2 := by
  dsimp only
  simp only [storageRpc, rpcHandler_onDevice]
  cases transport s.calls with
  | timedOut handled =>
    cases handled with
    | false => exact ⟨show (-4 : ℤ) < 0 by decide, rfl⟩
    | true =>
      simp only [RpcOutcome.handled, if_true]
      cases s.server.devices[request.index.toNat]? with
      | none => exact ⟨show (-4 : ℤ) < 0 by decide, rfl⟩
      | some info => exact ⟨Or.inl (show (-4 : ℤ) < 0 by decide), rfl⟩
  | answered =>
    simp only [RpcOutcome.handled, if_true]
    cases s.server.devices[request.index.toNat]? with
    | none => exact ⟨show (-1 : ℤ) < 0 by decide, rfl⟩
    | some info => exact ⟨Or.inr rfl, rfl⟩
  | noServer => exact ⟨show (-1 : ℤ) < 0 by decide, rfl⟩
  | noPacket => exact ⟨show (-2 : ℤ) < 0 by decide, rfl⟩
  | rejected => exact ⟨show (-3 : ℤ) < 0 by decide, rfl⟩

/-- `(int)done`. -/
def toInt (done : ℕ) : ℤ :=
  (UInt32.ofNat done).toInt32.toInt

/-! ## Names -/

/-- A string in memory : its characters, before the terminating NUL. -/
structure CString where
  chars : List UInt8
  nonzero : 0 ∉ chars

/-- The loop of `storage_copy_string`, with the capacity left : what it stores. -/
def copyChars : List UInt8 → ℕ → List UInt8
  | c :: source, capacity + 2 => c :: copyChars source (capacity + 1)
  | _, _ => [0]

def storageCopyString (source : CString) (capacity : ℕ) : List UInt8 :=
  if capacity = 0 then [] else copyChars source.chars capacity

def gameIdRequest (index : UInt32) (gameId : CString) : RpcRequest where
  index := index
  path := padded pathMax (storageCopyString gameId pathMax)

/-- `ef2_storage_mmce_set_game_id`. -/
def mmceSetGameId (index : UInt32) (gameId : Option CString) : StateM Storage ℤ := do
  let s ← get
  match gameId with
  | none => pure (-1)
  | some gameId =>
    if s.bound = false then
      pure (-1)
    else
      storageRpc device transport (.onDevice .mmceSetGameId) (gameIdRequest index gameId)

def openRequest (index : UInt32) (path : CString) (flags : UInt32) : RpcRequest where
  index := index
  value0 := flags
  path := padded pathMax (storageCopyString path pathMax)

/-- `ef2_storage_mmce_open`. -/
def mmceOpen (index : UInt32) (path : Option CString) (flags : UInt32) : StateM Storage ℤ := do
  let s ← get
  match path with
  | none => pure (-1)
  | some path =>
    if s.bound = false then
      pure (-1)
    else do
      let result ← storageRpc device transport (.onDevice .mmceOpen)
        (openRequest index path flags)
      let s ← get
      pure (if result < 0 then result else s.reply.value)

/-! ## Transfers -/

/-- The EE's address space. -/
abbrev Memory := UInt32 → UInt8

/-- The bytes stored from the address on. -/
def storeBytes (mem : Memory) (address : UInt32) : List UInt8 → Memory
  | [] => mem
  | b :: bytes => storeBytes (Function.update mem address b) (address + 1) bytes

/-- The `n` bytes from the address on. -/
def loadBytes (mem : Memory) (address : UInt32) (n : ℕ) : List UInt8 :=
  (List.range n).map fun i => mem (address + UInt32.ofNat i)

/-- The first `n` bytes of a reply's data. -/
def RpcReply.bytes (reply : RpcReply) (n : ℕ) : List UInt8 :=
  (List.range n).map fun i => reply.data.toList.getD i 0

def readPageRequest (index page size : UInt32) : RpcRequest where
  index := index
  page := page
  dataSize := size

/-- `ef2_storage_read_page` : the result, and the memory. -/
def readPage (index page : UInt32) (buffer : Option UInt32) (size : UInt32) (mem : Memory) :
    StateM Storage (ℤ × Memory) := do
  let s ← get
  match buffer with
  | none => pure (-1, mem)
  | some buffer =>
    if s.bound = false ∨ size = 0 ∨ UInt32.ofNat ioChunk < size then
      pure (-1, mem)
    else do
      let result ← storageRpc device transport (.onDevice .readPage)
        (readPageRequest index page size)
      let s ← get
      if result < 0 then
        pure (result, mem)
      else if s.reply.dataSize ≠ size then
        pure (-2, mem)
      else
        pure (0, storeBytes mem buffer (s.reply.bytes size.toNat))

def readSectorRequest (index sector : UInt32) : RpcRequest where
  index := index
  sector := sector
  count := 1

/-- The loop of `ef2_storage_read_sectors` : the result, and the memory. -/
def readSectorsLoop (index sector buffer count : UInt32) (done : ℕ) (mem : Memory) :
    StateM Storage (ℤ × Memory) :=
  if done < count.toNat then do
    let result ← storageRpc device transport (.onDevice .readSector)
      (readSectorRequest index (sector + UInt32.ofNat done))
    let s ← get
    if result < 0 then
      pure (if done ≠ 0 then toInt done else result, mem)
    else if s.reply.dataSize ≠ UInt32.ofNat ioChunk then
      pure (if done ≠ 0 then toInt done else -2, mem)
    else
      readSectorsLoop index sector buffer count (done + 1)
        (storeBytes mem (buffer + UInt32.ofNat done * UInt32.ofNat ioChunk)
          (s.reply.bytes ioChunk))
  else
    pure (toInt done, mem)
termination_by count.toNat - done

/-- `ef2_storage_read_sectors`. -/
def readSectors (index sector : UInt32) (buffer : Option UInt32) (count : UInt32)
    (mem : Memory) : StateM Storage (ℤ × Memory) := do
  let s ← get
  match buffer with
  | none => pure (-1, mem)
  | some buffer =>
    if s.bound = false ∨ count = 0 then
      pure (-1, mem)
    else
      readSectorsLoop device transport index sector buffer count 0 mem

def writeSectorRequest (index sector : UInt32) (data : List UInt8) : RpcRequest where
  index := index
  sector := sector
  count := 1
  dataSize := UInt32.ofNat ioChunk
  data := padded ioChunk data

/-- The loop of `ef2_storage_write_sectors`. -/
def writeSectorsLoop (index sector buffer count : UInt32) (mem : Memory) (done : ℕ) :
    StateM Storage ℤ :=
  if done < count.toNat then do
    let result ← storageRpc device transport (.onDevice .writeSector)
      (writeSectorRequest index (sector + UInt32.ofNat done)
        (loadBytes mem (buffer + UInt32.ofNat done * UInt32.ofNat ioChunk) ioChunk))
    if result < 0 then
      pure (if done ≠ 0 then toInt done else result)
    else
      writeSectorsLoop index sector buffer count mem (done + 1)
  else
    pure (toInt done)
termination_by count.toNat - done

/-- `ef2_storage_write_sectors`. -/
def writeSectors (index sector : UInt32) (buffer : Option UInt32) (count : UInt32)
    (mem : Memory) : StateM Storage ℤ := do
  let s ← get
  match buffer with
  | none => pure (-1)
  | some buffer =>
    if s.bound = false ∨ count = 0 then
      pure (-1)
    else
      writeSectorsLoop device transport index sector buffer count mem 0

/-- `size - done`, at most `EF2_STORAGE_IO_CHUNK`. -/
def chunkSize (size done : ℕ) : ℕ :=
  if ioChunk < size - done then ioChunk else size - done

theorem chunkSize_pos {size done : ℕ} (h : done < size) : 0 < chunkSize size done := by
  rw [chunkSize]
  split
  · decide
  · exact Nat.sub_pos_of_lt h

def mmceReadRequest (index : UInt32) (fd : ℤ) (chunk : ℕ) : RpcRequest where
  index := index
  fd := fd
  dataSize := UInt32.ofNat chunk

/-- The loop of `ef2_storage_mmce_read` : the result, and the memory. -/
def mmceReadLoop (index : UInt32) (fd : ℤ) (buffer : UInt32) (size done : ℕ) (mem : Memory) :
    StateM Storage (ℤ × Memory) :=
  if done < size then do
    let chunk := chunkSize size done
    let result ← storageRpc device transport (.onDevice .mmceRead)
      (mmceReadRequest index fd chunk)
    let s ← get
    if result < 0 then
      pure (if done ≠ 0 then toInt done else result, mem)
    else do
      let mem := storeBytes mem (buffer + UInt32.ofNat done)
        (s.reply.bytes s.reply.dataSize.toNat)
      if s.reply.dataSize.toNat < chunk then
        pure (toInt (done + s.reply.dataSize.toNat), mem)
      else
        mmceReadLoop index fd buffer size (done + s.reply.dataSize.toNat) mem
  else
    pure (toInt done, mem)
termination_by size - done
decreasing_by
  have hchunk : 0 < chunkSize size done := chunkSize_pos ‹_›
  omega

/-- `ef2_storage_mmce_read`. -/
def mmceRead (index : UInt32) (fd : ℤ) (buffer : Option UInt32) (size : UInt32)
    (mem : Memory) : StateM Storage (ℤ × Memory) := do
  let s ← get
  match buffer with
  | none => pure (-1, mem)
  | some buffer =>
    if s.bound = false then
      pure (-1, mem)
    else
      mmceReadLoop device transport index fd buffer size.toNat 0 mem

def mmceWriteRequest (index : UInt32) (fd : ℤ) (data : List UInt8) : RpcRequest where
  index := index
  fd := fd
  dataSize := UInt32.ofNat data.length
  data := padded ioChunk data

/-- The loop of `ef2_storage_mmce_write`. -/
def mmceWriteLoop (index : UInt32) (fd : ℤ) (buffer : UInt32) (size : ℕ) (mem : Memory)
    (done : ℕ) : StateM Storage ℤ :=
  if done < size then do
    let chunk := chunkSize size done
    let result ← storageRpc device transport (.onDevice .mmceWrite)
      (mmceWriteRequest index fd (loadBytes mem (buffer + UInt32.ofNat done) chunk))
    let s ← get
    if result < 0 then
      pure (if done ≠ 0 then toInt done else result)
    else if s.reply.value ≤ 0 then
      pure (toInt done)
    else if s.reply.value.toNat < chunk then
      pure (toInt (done + s.reply.value.toNat))
    else
      mmceWriteLoop index fd buffer size mem (done + s.reply.value.toNat)
  else
    pure (toInt done)
termination_by size - done
decreasing_by omega

/-- `ef2_storage_mmce_write`. -/
def mmceWrite (index : UInt32) (fd : ℤ) (buffer : Option UInt32) (size : UInt32)
    (mem : Memory) : StateM Storage ℤ := do
  let s ← get
  match buffer with
  | none => pure (-1)
  | some buffer =>
    if s.bound = false then
      pure (-1)
    else
      mmceWriteLoop device transport index fd buffer size.toNat mem 0

end EF2SDK.IopStorage
