import EF2SDK.StorageScan

/-!
# The storage module's RPC server

`rpc_handler` of `src/iop/storage/src/main.c`. The server keeps the devices of the last scan
with its diagnostics, and answers every request with one reply, which also carries both. A
request that names a device is rejected when there is no such device or when the request is
not complete.
-/

set_option autoImplicit false

namespace EF2SDK.IopStorage

/-! ## Requests and replies -/

/-- The requests that name a device, from `EF2_STORAGE_RPC_GET_DEVICE` to
`EF2_STORAGE_RPC_READ_PAGE`. -/
inductive DeviceFunction where
  | getDevice
  | readSector
  | writeSector
  | mmceStatus
  | mmceGetCard
  | mmceSetCard
  | mmceGetChannel
  | mmceSetChannel
  | mmceSetGameId
  | mmceOpen
  | mmceClose
  | mmceRead
  | mmceWrite
  | mmceLseek
  | readPage
  deriving DecidableEq

/-- `EF2_STORAGE_RPC_INIT`, `EF2_STORAGE_RPC_SCAN`, the requests on a device, and any other
number. -/
inductive RpcFunction where
  | init
  | scan
  | onDevice (function : DeviceFunction)
  | other
  deriving DecidableEq

/-- The first `n` of the bytes, filled up with zeros. -/
def padded (n : ℕ) (bytes : List UInt8) : Vector UInt8 n :=
  Vector.ofFn fun i => bytes.getD i 0

theorem toList_padded {n : ℕ} {bytes : List UInt8} (h : bytes.length ≤ n) :
    (padded n bytes).toList = bytes ++ List.replicate (n - bytes.length) 0 := by
  apply List.ext_getElem
  · simp
    omega
  · intro i h₁ h₂
    rw [List.getElem_append]
    split
    · next hi => simp [padded, List.getElem?_eq_getElem hi]
    · next hi => simp [padded, List.getElem?_eq_none (Nat.le_of_not_lt hi)]

/-- `ef2_storage_rpc_request`, with the values that `storage_zero` leaves. -/
structure RpcRequest where
  index : UInt32 := 0
  sector : UInt32 := 0
  page : UInt32 := 0
  count : UInt32 := 0
  fd : ℤ := 0
  offset : ℤ := 0
  whence : ℤ := 0
  value0 : UInt32 := 0
  value1 : UInt32 := 0
  value2 : UInt32 := 0
  dataSize : UInt32 := 0
  path : Vector UInt8 pathMax := padded pathMax []
  data : Vector UInt8 ioChunk := padded ioChunk []

/-- `ef2_storage_rpc_reply`, with the values that `clear_bytes` leaves. -/
structure RpcReply where
  result : ℤ := 0
  deviceCount : UInt32 := 0
  value : ℤ := 0
  dataSize : UInt32 := 0
  device : DeviceInfo := {}
  scanDiag : ScanDiag := .zero
  data : Vector UInt8 ioChunk := padded ioChunk []

/-- A call that failed or that returns nothing else. -/
def RpcReply.ofResult (result : ℤ) : RpcReply where
  result := result

/-- A call whose value is also its result when it is negative. -/
def RpcReply.ofValue (value : ℤ) : RpcReply where
  value := value
  result := if value < 0 then value else 0

/-! ## The server -/

/-- The server's globals, with the backends'. -/
structure Server where
  backend : Backend
  devices : List DeviceInfo
  scanDiag : ScanDiag

/-- A backend function, called by the server. -/
def onBackend {α : Type} (x : StateM Backend α) : StateM Server α := fun s =>
  ((x s.backend).1, { s with backend := (x s.backend).2 })

/-- `EF2_STORAGE_MAX_DEVICES`. -/
abbrev maxDevices : ℕ := 3

variable (device : Device)

def scanDevices : StateM Server ℤ := do
  modify fun s => { s with devices := [], scanDiag := .zero }
  let scanned ← onBackend (backendScan device maxDevices)
  match scanned with
  | none => pure (-1)
  | some (devices, diag) => do
    modify fun s => { s with devices := devices, scanDiag := diag }
    pure 0

/-- `ef2_storage_backend_read_sector`. -/
def backendReadSector (info : DeviceInfo) (sector : UInt32) :
    StateM Backend (ℤ × List UInt8) :=
  if info.kind ≠ .mx4sio then
    pure (-2, [])
  else
    mxReadSector device sector

/-- `ef2_storage_backend_write_sector`. -/
def backendWriteSector (info : DeviceInfo) (sector : UInt32) (data : Vector UInt8 ioChunk) :
    StateM Backend ℤ :=
  if info.kind ≠ .mx4sio then
    pure (-2)
  else
    mxWriteSector device sector data

/-- The cases of the `switch` that need a device, for the device found. -/
def deviceCall (function : DeviceFunction) (request : RpcRequest) (info : DeviceInfo) :
    StateM Backend RpcReply :=
  match function with
  | .getDevice => pure { device := info }
  | .readPage =>
    if request.dataSize = 0 ∨ UInt32.ofNat ioChunk < request.dataSize then
      pure (.ofResult (-2))
    else do
      let read ← backendReadPage device info request.page
      pure
        { result := read.1
          dataSize := if read.1 = 0 then request.dataSize else 0
          data := padded ioChunk read.2 }
  | .readSector => do
    let read ← backendReadSector device info request.sector
    pure
      { result := read.1
        dataSize := if read.1 = 0 then UInt32.ofNat ioChunk else 0
        data := padded ioChunk read.2 }
  | .writeSector =>
    if request.dataSize ≠ UInt32.ofNat ioChunk then
      pure (.ofResult (-1))
    else
      RpcReply.ofResult <$> backendWriteSector device info request.sector request.data
  | .mmceStatus => RpcReply.ofValue <$> backendMmceStatus device info
  | .mmceGetCard => RpcReply.ofValue <$> backendMmceGetCard device info
  | .mmceSetCard =>
    RpcReply.ofResult <$>
      backendMmceSetCard device info request.value0 request.value1 request.value2
  | .mmceGetChannel => RpcReply.ofValue <$> backendMmceGetChannel device info
  | .mmceSetChannel =>
    RpcReply.ofResult <$> backendMmceSetChannel device info request.value0 request.value1
  | .mmceSetGameId =>
    RpcReply.ofResult <$> backendMmceSetGameId device info request.path.toList
  | .mmceOpen =>
    RpcReply.ofValue <$> backendMmceOpen device info request.path.toList request.value0
  | .mmceClose => RpcReply.ofResult <$> backendMmceClose device info request.fd
  | .mmceRead =>
    if UInt32.ofNat ioChunk < request.dataSize then
      pure (.ofResult (-1))
    else do
      let read ← backendMmceRead device info request.fd request.dataSize.toNat
      pure
        { result := if 0 ≤ read.1 then 0 else read.1
          dataSize := if 0 ≤ read.1 then UInt32.ofNat read.1.toNat else 0
          data := padded ioChunk read.2 }
  | .mmceWrite =>
    if UInt32.ofNat ioChunk < request.dataSize then
      pure (.ofResult (-1))
    else
      RpcReply.ofValue <$> backendMmceWrite device info request.fd
        (request.data.toList.take request.dataSize.toNat)
  | .mmceLseek =>
    RpcReply.ofValue <$>
      backendMmceLseek device info request.fd request.offset request.whence

/-- The `switch` of `rpc_handler`. A request shorter than `ef2_storage_rpc_request` names no
device. -/
def rpcSwitch (function : RpcFunction) (request : RpcRequest) (complete : Bool) :
    StateM Server RpcReply :=
  match function with
  | .init => pure (.ofResult 0)
  | .scan => RpcReply.ofResult <$> scanDevices device
  | .other => pure (.ofResult (-100))
  | .onDevice function => do
    let s ← get
    match if complete then s.devices[request.index.toNat]? else none with
    | none => pure (.ofResult (-1))
    | some info => onBackend (deviceCall device function request info)

def rpcHandler (function : RpcFunction) (request : RpcRequest) (complete : Bool) :
    StateM Server RpcReply := do
  let reply ← rpcSwitch device function request complete
  let s ← get
  pure { reply with deviceCount := UInt32.ofNat s.devices.length, scanDiag := s.scanDiag }

/-- A complete request on a device : without a device it is rejected, and else only the backends
are involved. -/
theorem rpcHandler_onDevice (function : DeviceFunction) (request : RpcRequest) (s : Server) :
    rpcHandler device (.onDevice function) request true s
      = match s.devices[request.index.toNat]? with
        | none =>
          ({ RpcReply.ofResult (-1) with
              deviceCount := UInt32.ofNat s.devices.length, scanDiag := s.scanDiag }, s)
        | some info =>
          let handled := deviceCall device function request info s.backend
          ({ handled.1 with
              deviceCount := UInt32.ofNat s.devices.length, scanDiag := s.scanDiag },
            { s with backend := handled.2 }) := by
  have hswitch : rpcSwitch device (.onDevice function) request true s
      = (match s.devices[request.index.toNat]? with
        | none => pure (RpcReply.ofResult (-1))
        | some info => onBackend (deviceCall device function request info) :
          StateM Server RpcReply) s :=
    rfl
  simp only [rpcHandler, bind_apply, hswitch]
  cases s.devices[request.index.toNat]? <;> rfl

end EF2SDK.IopStorage
