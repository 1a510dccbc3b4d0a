import EF2SDK.IopModules
import EF2SDK.Storage

/-!
# Sessions of the storage client

The rest of `src/ee/storage/storage.c` : the start of the client, which loads the storage module
into the IOP and binds its server, the scan, and the calls that make one request. With the
transfers they are the `ApiCall`s of a program. A `Session` is what they work on : the client, the
machine that its module is loaded into, and the memory of the EE, in which the program also
stores by itself.

A bind finds a server of its own, since a module that is loaded once more starts anew : which one
is found is arbitrary, and so is what becomes of the calls before it.
-/

set_option autoImplicit false

namespace EF2SDK.IopStorage

open ByteMemory

/-! ## Calls that make one request -/

section Requests

variable (device : Device) (transport : Transport)

/-- `ef2_storage_get_device` : the result, and what it stores. -/
def getDevice (index : UInt32) (info : Bool) : StateM Storage (ℤ × Option DeviceInfo) := do
  let s ← get
  if s.bound = false ∨ info = false ∨ s.deviceCount ≤ index then
    pure (-1, none)
  else do
    let result ← storageRpc device transport (.onDevice .getDevice) { index := index }
    let s ← get
    pure (if result < 0 then (result, none) else (0, some s.reply.device))

/-- `mmce_value_call` : the result, and what it stores. -/
def mmceValueCall (function : DeviceFunction) (index : UInt32) (value : Bool) :
    StateM Storage (ℤ × Option UInt32) := do
  let s ← get
  if s.bound = false then
    pure (-1, none)
  else do
    let result ← storageRpc device transport (.onDevice function) { index := index }
    let s ← get
    pure (if result < 0 then (result, none)
      else (0, if value then some (UInt32.ofInt s.reply.value) else none))

/-- `ef2_storage_mmce_get_status`. -/
def mmceGetStatus (index : UInt32) (status : Bool) : StateM Storage (ℤ × Option UInt32) :=
  mmceValueCall device transport .mmceStatus index status

/-- `ef2_storage_mmce_get_card`. -/
def mmceGetCard (index : UInt32) (card : Bool) : StateM Storage (ℤ × Option UInt32) :=
  mmceValueCall device transport .mmceGetCard index card

/-- `ef2_storage_mmce_get_channel`. -/
def mmceGetChannel (index : UInt32) (channel : Bool) : StateM Storage (ℤ × Option UInt32) :=
  mmceValueCall device transport .mmceGetChannel index channel

/-- `ef2_storage_mmce_set_card`. -/
def mmceSetCard (index type mode card : UInt32) : StateM Storage ℤ := do
  let s ← get
  if s.bound = false then
    pure (-1)
  else
    storageRpc device transport (.onDevice .mmceSetCard)
      { index := index, value0 := type, value1 := mode, value2 := card }

/-- `ef2_storage_mmce_set_channel`. -/
def mmceSetChannel (index mode channel : UInt32) : StateM Storage ℤ := do
  let s ← get
  if s.bound = false then
    pure (-1)
  else
    storageRpc device transport (.onDevice .mmceSetChannel)
      { index := index, value0 := mode, value1 := channel }

/-- `ef2_storage_mmce_close`. -/
def mmceClose (index : UInt32) (fd : ℤ) : StateM Storage ℤ := do
  let s ← get
  if s.bound = false then
    pure (-1)
  else
    storageRpc device transport (.onDevice .mmceClose) { index := index, fd := fd }

/-- `ef2_storage_mmce_lseek`. -/
def mmceLseek (index : UInt32) (fd offset whence : ℤ) : StateM Storage ℤ := do
  let s ← get
  if s.bound = false then
    pure (-1)
  else do
    let result ← storageRpc device transport (.onDevice .mmceLseek)
      { index := index, fd := fd, offset := offset, whence := whence }
    let s ← get
    pure (if result < 0 then result else s.reply.value)

end Requests

/-! ## The start -/

structure Session where
  machine : IopModules.Machine
  storage : Storage
  mem : Memory

/-- A step of the machine. -/
def onMachine {α : Type} (x : StateM IopModules.Machine α) : StateM Session α := fun s =>
  ((x s.machine).1, { s with machine := (x s.machine).2 })

/-- A step of the client. -/
def onStorage {α : Type} (x : StateM Storage α) : StateM Session α := fun s =>
  ((x s.storage).1, { s with storage := (x s.storage).2 })

section Start

variable (irx : Mem) (irxSize : ℕ) (found : ℕ → Server) (device : Device) (transport : Transport)

/-- The module is loaded by `ef2_storage_init` : its own result, or the result of the start when it
cannot be loaded, even after the loader is patched. -/
def loadModule : StateM IopModules.Machine (Except ℤ ℤ) := do
  let first ← IopModules.execModuleBufferEx (some irx) irxSize
  if first.1 < 0 then do
    let patched ← IopModules.enableModuleBuffer
    if patched < 0 then
      pure (.error (-2000 + patched))
    else do
      let second ← IopModules.execModuleBufferEx (some irx) irxSize
      pure (if second.1 < 0 then .error (-2500 + second.1) else .ok second.2)
  else
    pure (.ok first.2)

/-- `ef2_storage_init` up to its bind : `none` when the server is bound. -/
def connect : StateM IopModules.Machine (Option ℤ) := do
  let sif ← IopModules.rpc
  if sif.result < 0 then
    pure (some (-1000 + sif.result))
  else do
    let loaded ← loadModule irx irxSize
    match loaded with
    | .error result => pure (some result)
    | .ok moduleResult =>
      if moduleResult ≠ 0 then
        pure (some (-2800 - moduleResult % 256))
      else do
        let bind ← IopModules.rpc
        pure (if bind.result < 0 then some (-3000 + bind.result)
          else if bind.reply 0 = 0 then some (-3000 - 9)
          else none)

/-- `ef2_storage_init` with the server bound. -/
def startServer (server : Server) : StateM Storage ℤ := do
  modify fun s => { s with bound := true, server := server }
  let result ← storageRpc device transport .init {}
  if result < 0 then do
    modify fun s => { s with bound := false }
    pure (-4000 + result)
  else
    pure 0

/-- `ef2_storage_init`. -/
def storageInit : StateM Session ℤ := do
  let s ← get
  if s.storage.bound then
    pure 0
  else do
    let connected ← onMachine (connect irx irxSize)
    match connected with
    | some result => pure result
    | none =>
      let s ← get
      onStorage (startServer device transport (found s.machine.calls))

/-- `ef2_storage_scan`. -/
def storageScan : StateM Session ℤ := do
  let s ← get
  let started ← if s.storage.bound = false then storageInit irx irxSize found device transport
    else pure 0
  if started < 0 then
    pure started
  else
    onStorage (storageRpc device transport .scan {})

/-! ## Sessions -/

/-- A call on a device. A pointer that is only stored through is a `Bool`. -/
inductive Access where
  | getDevice (index : UInt32) (info : Bool)
  | readPage (index page : UInt32) (buffer : Option UInt32) (size : UInt32)
  | readSectors (index sector : UInt32) (buffer : Option UInt32) (count : UInt32)
  | writeSectors (index sector : UInt32) (buffer : Option UInt32) (count : UInt32)
  | getStatus (index : UInt32) (status : Bool)
  | getCard (index : UInt32) (card : Bool)
  | setCard (index type mode card : UInt32)
  | getChannel (index : UInt32) (channel : Bool)
  | setChannel (index mode channel : UInt32)
  | setGameId (index : UInt32) (gameId : Option CString)
  | openFile (index : UInt32) (path : Option CString) (flags : UInt32)
  | closeFile (index : UInt32) (fd : ℤ)
  | readFile (index : UInt32) (fd : ℤ) (buffer : Option UInt32) (size : UInt32)
  | writeFile (index : UInt32) (fd : ℤ) (buffer : Option UInt32) (size : UInt32)
  | seekFile (index : UInt32) (fd offset whence : ℤ)

/-- The calls of a program, with its own stores. -/
inductive ApiCall where
  | init
  | scan
  | access (a : Access)
  | store (address : UInt32) (bytes : List UInt8)

/-- The result of a call, with what it stores through a pointer other than a buffer. -/
structure Answer where
  result : ℤ
  value : Option UInt32 := none
  info : Option DeviceInfo := none

namespace Answer

def ofValue (answer : ℤ × Option UInt32) : Answer where
  result := answer.1
  value := answer.2

def ofInfo (answer : ℤ × Option DeviceInfo) : Answer where
  result := answer.1
  info := answer.2

end Answer

/-- A call that stores in no buffer. -/
def leaving {α : Type} (mem : Memory) (answer : α → Answer) (x : StateM Storage α) :
    StateM Storage (Answer × Memory) :=
  (fun r => (answer r, mem)) <$> x

/-- A call that stores in a buffer. -/
def storing (x : StateM Storage (ℤ × Memory)) : StateM Storage (Answer × Memory) :=
  (fun r => ({ result := r.1 }, r.2)) <$> x

/-- The answer of a call on a device, and the memory. -/
def Access.run (mem : Memory) : Access → StateM Storage (Answer × Memory)
  | getDevice index info => leaving mem .ofInfo (IopStorage.getDevice device transport index info)
  | readPage index page buffer size =>
    storing (IopStorage.readPage device transport index page buffer size mem)
  | readSectors index sector buffer count =>
    storing (IopStorage.readSectors device transport index sector buffer count mem)
  | writeSectors index sector buffer count =>
    leaving mem (⟨·, none, none⟩)
      (IopStorage.writeSectors device transport index sector buffer count mem)
  | getStatus index status => leaving mem .ofValue (mmceGetStatus device transport index status)
  | getCard index card => leaving mem .ofValue (mmceGetCard device transport index card)
  | setCard index type mode card =>
    leaving mem (⟨·, none, none⟩) (mmceSetCard device transport index type mode card)
  | getChannel index channel =>
    leaving mem .ofValue (mmceGetChannel device transport index channel)
  | setChannel index mode channel =>
    leaving mem (⟨·, none, none⟩) (mmceSetChannel device transport index mode channel)
  | setGameId index gameId =>
    leaving mem (⟨·, none, none⟩) (mmceSetGameId device transport index gameId)
  | openFile index path flags =>
    leaving mem (⟨·, none, none⟩) (mmceOpen device transport index path flags)
  | closeFile index fd => leaving mem (⟨·, none, none⟩) (mmceClose device transport index fd)
  | readFile index fd buffer size =>
    storing (mmceRead device transport index fd buffer size mem)
  | writeFile index fd buffer size =>
    leaving mem (⟨·, none, none⟩) (mmceWrite device transport index fd buffer size mem)
  | seekFile index fd offset whence =>
    leaving mem (⟨·, none, none⟩) (mmceLseek device transport index fd offset whence)

/-- A call of a session. -/
def ApiCall.run : ApiCall → StateM Session Answer
  | init => (⟨·, none, none⟩) <$> storageInit irx irxSize found device transport
  | scan => (⟨·, none, none⟩) <$> storageScan irx irxSize found device transport
  | access a => fun s =>
    let ran := a.run device transport s.mem s.storage
    (ran.1.1, { s with storage := ran.2, mem := ran.1.2 })
  | store address bytes => fun s =>
    ({ result := 0 }, { s with mem := storeBytes s.mem address bytes })

/-- The calls of a session, in order : the answers, and the session after them. -/
def runCalls : List ApiCall → StateM Session (List Answer)
  | [] => pure []
  | call :: calls => do
    let answer ← call.run irx irxSize found device transport
    let answers ← runCalls calls
    pure (answer :: answers)

end Start

/-- The client as the program is started. -/
def Storage.unbound (server : Server) : Storage where
  bound := false
  deviceCount := 0
  scanDiag := .zero
  reply := {}
  server := server
  calls := []

end EF2SDK.IopStorage
