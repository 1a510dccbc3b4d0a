import EF2SDK.MemoryCardReads
import EF2SDK.StorageNames
import EF2SDK.StorageSession

/-!
# The storage client as a link to the devices

What the storage API is for : its calls are those of the backends, made on the devices that the
server listed. A `Direct` machine has the devices and the memory at hand, without requests and
replies ; an operation on them may be cut off, before or after it is done (`attempt`), and its
size is what the caller asks for. Every session of a bound client over its link is the session of
the direct machine, with the same results, the same memory and the same devices at the end
(`session_direct`) : marshalling, splitting and the server's dispatch lose nothing and add
nothing.
-/

set_option autoImplicit false

namespace EF2SDK.IopStorage

/-! ## The direct machine -/

/-- The server's devices, what was last reported of them, the operations attempted, and the
memory. -/
structure Direct where
  server : Server
  deviceCount : UInt32
  scanDiag : ScanDiag
  attempts : ℕ
  mem : Memory

section Machine

variable (device : Device) (outcomes : ℕ → RpcOutcome)

/-- An operation, unless it is cut off : then its result is that of the link. -/
def attempt {α : Type} (op : StateM Server (Except ℤ α)) : StateM Direct (Except ℤ α) := fun d =>
  let outcome := outcomes d.attempts
  let done := op d.server
  let server := if outcome.handled then done.2 else d.server
  if outcome.result < 0 then
    (.error outcome.result, { d with server := server, attempts := d.attempts + 1 })
  else
    (done.1,
      { d with
        server := server
        deviceCount := UInt32.ofNat server.devices.length
        scanDiag := server.scanDiag
        attempts := d.attempts + 1 })

/-- An operation on a device, if there is one with the index. -/
def withDevice {α : Type} (index : UInt32) (op : DeviceInfo → StateM Backend α) :
    StateM Server (Except ℤ α) := fun s =>
  match s.devices[index.toNat]? with
  | none => (.error (-1), s)
  | some info => (.ok (op info s.backend).1, { s with backend := (op info s.backend).2 })

def onInfo {α : Type} (index : UInt32) (op : DeviceInfo → StateM Backend α) :
    StateM Direct (Except ℤ α) :=
  attempt outcomes (withDevice index op)

/-- The result of an operation, or of its failure. -/
def resultOf : Except ℤ ℤ → Answer
  | .error result => { result := result }
  | .ok result => { result := result }

/-- A query, whose value is stored unless it is an error. -/
def valueOf (wanted : Bool) : Except ℤ ℤ → Answer
  | .error result => { result := result }
  | .ok value =>
    if value < 0 then { result := value }
    else { result := 0, value := if wanted then some (UInt32.ofInt value) else none }

/-- The result of a transfer that ends before its time. -/
def shortened (done : ℕ) (result : ℤ) : ℤ :=
  if done ≠ 0 then toInt done else result

def Direct.store (d : Direct) (address : UInt32) (bytes : List UInt8) : Direct :=
  { d with mem := storeBytes d.mem address bytes }

/-- Sectors are read one by one. -/
def directReadSectors (index sector buffer : UInt32) : (left done : ℕ) → StateM Direct ℤ
  | 0, done => pure (toInt done)
  | left + 1, done => do
    let read ← onInfo outcomes index fun info =>
      backendReadSector device info (sector + UInt32.ofNat done)
    match read with
    | .error result => pure (shortened done result)
    | .ok (result, bytes) =>
      if result < 0 then
        pure (shortened done result)
      else do
        modify fun d => d.store (buffer + UInt32.ofNat done * UInt32.ofNat ioChunk) bytes
        directReadSectors index sector buffer left (done + 1)

/-- Sectors are written one by one. -/
def directWriteSectors (index sector buffer : UInt32) : (left done : ℕ) → StateM Direct ℤ
  | 0, done => pure (toInt done)
  | left + 1, done => do
    let d ← get
    let written ← onInfo outcomes index fun info =>
      backendWriteSector device info (sector + UInt32.ofNat done)
        (padded ioChunk (loadBytes d.mem (buffer + UInt32.ofNat done * UInt32.ofNat ioChunk)
          ioChunk))
    match written with
    | .error result => pure (shortened done result)
    | .ok result =>
      if result < 0 then
        pure (shortened done result)
      else
        directWriteSectors index sector buffer left (done + 1)

/-- A file is read in chunks, up to the first that is short. -/
def directReadFile (index : UInt32) (fd : ℤ) (buffer : UInt32) (size done : ℕ) :
    StateM Direct ℤ :=
  if done < size then do
    let read ← onInfo outcomes index fun info =>
      backendMmceRead device info fd (chunkSize size done)
    match read with
    | .error result => pure (shortened done result)
    | .ok (count, bytes) =>
      if count < 0 then
        pure (shortened done count)
      else do
        modify fun d => d.store (buffer + UInt32.ofNat done) (bytes.take count.toNat)
        if count < chunkSize size done then
          pure (toInt (done + count.toNat))
        else
          directReadFile index fd buffer size (done + chunkSize size done)
  else
    pure (toInt done)
termination_by size - done
decreasing_by
  have hchunk : 0 < chunkSize size done := chunkSize_pos ‹_›
  omega

/-- A file is written in chunks, up to the first that is short. -/
def directWriteFile (index : UInt32) (fd : ℤ) (buffer : UInt32) (size done : ℕ) :
    StateM Direct ℤ :=
  if done < size then do
    let d ← get
    let written ← onInfo outcomes index fun info =>
      backendMmceWrite device info fd
        (loadBytes d.mem (buffer + UInt32.ofNat done) (chunkSize size done))
    match written with
    | .error result => pure (shortened done result)
    | .ok count =>
      if count < 0 then
        pure (shortened done count)
      else if count < chunkSize size done then
        pure (toInt (done + count.toNat))
      else
        directWriteFile index fd buffer size (done + chunkSize size done)
  else
    pure (toInt done)
termination_by size - done
decreasing_by
  have hchunk : 0 < chunkSize size done := chunkSize_pos ‹_›
  omega

/-- A transfer that is refused without a buffer. -/
def withBuffer (buffer : Option UInt32) (transfer : UInt32 → StateM Direct ℤ) :
    StateM Direct Answer :=
  match buffer with
  | none => pure { result := -1 }
  | some buffer => (⟨·, none, none⟩) <$> transfer buffer

/-- A name that is refused when it is null. -/
def withName (name : Option CString) (op : CString → StateM Direct Answer) :
    StateM Direct Answer :=
  match name with
  | none => pure { result := -1 }
  | some name => op name

/-- A page is stored as far as the caller wants it. -/
def directReadPage (index page size : UInt32) (buffer : UInt32) : StateM Direct ℤ :=
  if size = 0 ∨ UInt32.ofNat ioChunk < size then
    pure (-1)
  else do
    let read ← onInfo outcomes index fun info => backendReadPage device info page
    match read with
    | .error result => pure result
    | .ok (result, bytes) =>
      if result < 0 then
        pure result
      else do
        modify fun d => d.store buffer (bytes.take size.toNat)
        pure 0

/-- The record of a device that was reported. -/
def directGetDevice (index : UInt32) (wanted : Bool) : StateM Direct Answer := do
  let d ← get
  if wanted = false ∨ d.deviceCount ≤ index then
    pure { result := -1 }
  else do
    let got ← onInfo outcomes index fun info => pure info
    match got with
    | .error result => pure { result := result }
    | .ok info => pure { result := 0, info := some info }

/-- A call on a device, made on the backends. A name is cut to `EF2_STORAGE_PATH_MAX`. -/
def Access.direct : Access → StateM Direct Answer
  | getDevice index info => directGetDevice outcomes index info
  | readPage index page buffer size =>
    withBuffer buffer fun buffer => directReadPage device outcomes index page size buffer
  | readSectors index sector buffer count =>
    withBuffer buffer fun buffer =>
      if count = 0 then pure (-1)
      else directReadSectors device outcomes index sector buffer count.toNat 0
  | writeSectors index sector buffer count =>
    withBuffer buffer fun buffer =>
      if count = 0 then pure (-1)
      else directWriteSectors device outcomes index sector buffer count.toNat 0
  | getStatus index status => valueOf status <$> onInfo outcomes index (backendMmceStatus device)
  | getCard index card => valueOf card <$> onInfo outcomes index (backendMmceGetCard device)
  | setCard index type mode card =>
    resultOf <$> onInfo outcomes index fun info => backendMmceSetCard device info type mode card
  | getChannel index channel =>
    valueOf channel <$> onInfo outcomes index (backendMmceGetChannel device)
  | setChannel index mode channel =>
    resultOf <$> onInfo outcomes index fun info =>
      backendMmceSetChannel device info mode channel
  | setGameId index gameId =>
    withName gameId fun gameId => resultOf <$> onInfo outcomes index fun info =>
      backendMmceSetGameId device info (gameId.cut ++ [0])
  | openFile index path flags =>
    withName path fun path => resultOf <$> onInfo outcomes index fun info =>
      backendMmceOpen device info (path.cut ++ [0]) flags
  | closeFile index fd =>
    resultOf <$> onInfo outcomes index fun info => backendMmceClose device info fd
  | readFile index fd buffer size =>
    withBuffer buffer fun buffer =>
      directReadFile device outcomes index fd buffer size.toNat 0
  | writeFile index fd buffer size =>
    withBuffer buffer fun buffer =>
      directWriteFile device outcomes index fd buffer size.toNat 0
  | seekFile index fd offset whence =>
    resultOf <$> onInfo outcomes index fun info =>
      backendMmceLseek device info fd offset whence

/-- The devices are scanned again. -/
def directScan : StateM Direct Answer :=
  resultOf <$> attempt outcomes (Except.ok <$> scanDevices device)

/-- A call of a session whose client is bound. -/
def ApiCall.direct : ApiCall → StateM Direct Answer
  | init => pure { result := 0 }
  | scan => directScan device outcomes
  | access a => a.direct device outcomes
  | store address bytes => fun d => ({ result := 0 }, d.store address bytes)

def runDirect : List ApiCall → StateM Direct (List Answer)
  | [] => pure []
  | call :: calls => do
    let answer ← call.direct device outcomes
    let answers ← runDirect calls
    pure (answer :: answers)

end Machine

/-! ## The link -/

/-- A link on which what becomes of a request depends on how many were made before it. -/
def link (outcomes : ℕ → RpcOutcome) : Transport := fun calls => outcomes calls.length

/-- The direct machine of a client and the memory. -/
def view (s : Storage) (mem : Memory) : Direct where
  server := s.server
  deviceCount := s.deviceCount
  scanDiag := s.scanDiag
  attempts := s.calls.length
  mem := mem

section Link

variable {device : Device} {outcomes : ℕ → RpcOutcome}

theorem RpcOutcome.eq_answered {outcome : RpcOutcome} (h : ¬outcome.result < 0) :
    outcome = .answered := by
  cases outcome with
  | answered => rfl
  | noServer => exact absurd (show (-1 : ℤ) < 0 by decide) h
  | noPacket => exact absurd (show (-2 : ℤ) < 0 by decide) h
  | rejected => exact absurd (show (-3 : ℤ) < 0 by decide) h
  | timedOut handled => exact absurd (show (-4 : ℤ) < 0 by decide) h

theorem attempt_cut {α : Type} {op : StateM Server (Except ℤ α)} {d : Direct}
    (h : (outcomes d.attempts).result < 0) :
    attempt outcomes op d =
      (.error (outcomes d.attempts).result,
        { d with
          server := if (outcomes d.attempts).handled then (op d.server).2 else d.server
          attempts := d.attempts + 1 }) :=
  if_pos h

theorem attempt_answered {α : Type} {op : StateM Server (Except ℤ α)} {d : Direct}
    (h : outcomes d.attempts = .answered) :
    attempt outcomes op d =
      ((op d.server).1,
        { d with
          server := (op d.server).2
          deviceCount := UInt32.ofNat (op d.server).2.devices.length
          scanDiag := (op d.server).2.scanDiag
          attempts := d.attempts + 1 }) := by
  rw [attempt, h]
  rfl

/-- A client that made one more call. -/
theorem view_call (bound : Bool) (count : UInt32) (diag : ScanDiag) (reply : RpcReply)
    (server : Server) (calls : List Call) (call : Call) (mem : Memory) :
    view ⟨bound, count, diag, reply, server, calls ++ [call]⟩ mem =
      ⟨server, count, diag, calls.length + 1, mem⟩ := by
  rw [view, List.length_append]
  rfl

theorem storageRpc_cut {transport : Transport} {function : RpcFunction} {request : RpcRequest}
    {s : Storage} (h : (transport s.calls).result < 0) :
    storageRpc device transport function request s =
      ((transport s.calls).result,
        { s with
          reply := {}
          server := if (transport s.calls).handled then
              (rpcHandler device function request true s.server).2 else s.server
          calls := s.calls ++ [⟨function, request, none⟩] }) :=
  if_pos h

theorem storageRpc_answered {transport : Transport} {function : RpcFunction}
    {request : RpcRequest} {s : Storage} (h : transport s.calls = .answered) :
    let handled := rpcHandler device function request true s.server
    storageRpc device transport function request s =
      (handled.1.result,
        { s with
          deviceCount := handled.1.deviceCount
          scanDiag := handled.1.scanDiag
          reply := handled.1
          server := handled.2
          calls := s.calls ++ [⟨function, request, some handled.1⟩] }) := by
  dsimp only
  rw [storageRpc, h]
  rfl

variable (device outcomes) in
/-- A request is an operation of the server : it is cut off, or the operation is done and its
result is in the reply. -/
theorem storageRpc_attempt {α : Type} {op : StateM Server (Except ℤ α)}
    {function : RpcFunction} {request : RpcRequest} (s : Storage) (mem : Memory)
    (hserver : (rpcHandler device function request true s.server).2 = (op s.server).2) :
    ∃ result s', storageRpc device (link outcomes) function request s = (result, s')
      ∧ s'.bound = s.bound ∧
      (result < 0 ∧ attempt outcomes op (view s mem) = (.error result, view s' mem)
      ∨ attempt outcomes op (view s mem) = ((op s.server).1, view s' mem)
        ∧ result = s'.reply.result
        ∧ s'.reply = (rpcHandler device function request true s.server).1) := by
  by_cases hcut : (outcomes s.calls.length).result < 0
  · refine ⟨_, _, storageRpc_cut hcut, rfl, Or.inl ⟨hcut, ?_⟩⟩
    rw [attempt_cut (d := view s mem) hcut, hserver, view_call]
    rfl
  · have hanswered := RpcOutcome.eq_answered hcut
    refine ⟨_, _, storageRpc_answered hanswered, rfl, Or.inr ⟨?_, rfl, rfl⟩⟩
    obtain ⟨hcount, hdiag⟩ := rpcHandler_known device function request s.server
    rw [attempt_answered (d := view s mem) hanswered, view_call, hcount, hdiag, hserver]
    rfl

section OnDevice

variable {α : Type} {op : DeviceInfo → StateM Backend α} {function : DeviceFunction}
  {request : RpcRequest}

theorem withDevice_of_none {index : UInt32} {s : Server} (h : s.devices[index.toNat]? = none) :
    withDevice index op s = (.error (-1), s) := by
  rw [withDevice, h]

theorem withDevice_of_some {index : UInt32} {s : Server} {info : DeviceInfo}
    (h : s.devices[index.toNat]? = some info) :
    withDevice index op s =
      (.ok (op info s.backend).1, { s with backend := (op info s.backend).2 }) := by
  rw [withDevice, h]

theorem rpcHandler_of_none {s : Server} (h : s.devices[request.index.toNat]? = none) :
    rpcHandler device (.onDevice function) request true s =
      ({ RpcReply.ofResult (-1) with
          deviceCount := UInt32.ofNat s.devices.length, scanDiag := s.scanDiag }, s) := by
  rw [rpcHandler_onDevice, h]

theorem rpcHandler_of_some {reply : α → RpcReply} {s : Server} {info : DeviceInfo}
    (hcall : deviceCall device function request info = reply <$> op info)
    (h : s.devices[request.index.toNat]? = some info) :
    rpcHandler device (.onDevice function) request true s =
      ({ reply (op info s.backend).1 with
          deviceCount := UInt32.ofNat s.devices.length, scanDiag := s.scanDiag },
        { s with backend := (op info s.backend).2 }) := by
  rw [rpcHandler_onDevice, h]
  dsimp only
  rw [hcall]
  rfl

variable (outcomes) in
/-- A request on a device is an operation on it. -/
theorem storageRpc_onInfo {reply : α → RpcReply}
    (hcall : ∀ info, deviceCall device function request info = reply <$> op info) (s : Storage)
    (mem : Memory) :
    ∃ result s', storageRpc device (link outcomes) (.onDevice function) request s = (result, s')
      ∧ s'.bound = s.bound ∧
      (result < 0 ∧ onInfo outcomes request.index op (view s mem) = (.error result, view s' mem)
      ∨ ∃ a info b, onInfo outcomes request.index op (view s mem) = (.ok a, view s' mem)
        ∧ a = (op info b).1 ∧ result = (reply a).result
        ∧ ∃ count diag,
          s'.reply = { reply a with deviceCount := count, scanDiag := diag }) := by
  cases hinfo : s.server.devices[request.index.toNat]? with
  | none =>
    have hhandled : rpcHandler device (.onDevice function) request true s.server = _ :=
      rpcHandler_of_none hinfo
    have hdevice : withDevice request.index op s.server = _ := withDevice_of_none hinfo
    have hserver : (rpcHandler device (.onDevice function) request true s.server).2 =
        (withDevice request.index op s.server).2 := by
      rw [hhandled, hdevice]
    obtain ⟨result, s', hcalled, hbound, hcut | ⟨hdone, hresult, hreply⟩⟩ :=
      storageRpc_attempt device outcomes s mem hserver
    · exact ⟨result, s', hcalled, hbound, Or.inl hcut⟩
    · rw [hreply, hhandled] at hresult
      rw [hdevice] at hdone
      subst hresult
      exact ⟨_, s', hcalled, hbound, Or.inl ⟨show (-1 : ℤ) < 0 by decide, hdone⟩⟩
  | some info =>
    have hhandled := rpcHandler_of_some (hcall info) hinfo
    have hdevice : withDevice request.index op s.server = _ := withDevice_of_some hinfo
    have hserver : (rpcHandler device (.onDevice function) request true s.server).2 =
        (withDevice request.index op s.server).2 := by
      rw [hhandled, hdevice]
    obtain ⟨result, s', hcalled, hbound, hcut | ⟨hdone, hresult, hreply⟩⟩ :=
      storageRpc_attempt device outcomes s mem hserver
    · exact ⟨result, s', hcalled, hbound, Or.inl hcut⟩
    · rw [hhandled] at hreply
      rw [hdevice] at hdone
      exact ⟨result, s', hcalled, hbound, Or.inr ⟨_, info, s.server.backend, hdone, rfl,
        by rw [hresult, hreply], _, _, hreply⟩⟩

end OnDevice

/-! ## Calls on a device -/

/-- From a bound client, the call and the operation have the same result, and leave the same
devices and the same memory. -/
def Simulates (x : Memory → StateM Storage (Answer × Memory)) (y : StateM Direct Answer) : Prop :=
  ∀ s mem, s.bound = true → ∃ answer mem' s', x mem s = ((answer, mem'), s')
    ∧ s'.bound = true ∧ y (view s mem) = (answer, view s' mem')

/-- A call that is refused in every state. -/
theorem Simulates.refused {x : Memory → StateM Storage (Answer × Memory)}
    (h : ∀ s mem, x mem s = (({ result := -1 }, mem), s)) :
    Simulates x (pure { result := -1 }) := fun s mem hbound =>
  ⟨_, _, _, h s mem, hbound, rfl⟩

/-- A call that stores in no buffer. -/
theorem simulates_leaving {α : Type} {answer : α → Answer} {x : Memory → StateM Storage α}
    {y : StateM Direct Answer}
    (h : ∀ s mem, s.bound = true → ∃ a s', x mem s = (a, s') ∧ s'.bound = true
      ∧ y (view s mem) = (answer a, view s' mem)) :
    Simulates (fun mem => leaving mem answer (x mem)) y := by
  intro s mem hbound
  obtain ⟨a, s', hx, hbound', hy⟩ := h s mem hbound
  refine ⟨answer a, mem, s', ?_, hbound', hy⟩
  dsimp only [leaving]
  rw [map_apply, hx]

/-- A call that stores in a buffer. -/
theorem simulates_storing {x : Memory → StateM Storage (ℤ × Memory)} {y : StateM Direct ℤ}
    (h : ∀ s mem, s.bound = true → ∃ result mem' s', x mem s = ((result, mem'), s')
      ∧ s'.bound = true ∧ y (view s mem) = (result, view s' mem')) :
    Simulates (fun mem => storing (x mem)) ((⟨·, none, none⟩) <$> y) := by
  intro s mem hbound
  obtain ⟨result, mem', s', hx, hbound', hy⟩ := h s mem hbound
  refine ⟨{ result := result }, mem', s', ?_, hbound', ?_⟩
  · dsimp only [storing]
    rw [map_apply, hx]
  · rw [map_apply, hy]

theorem RpcReply.result_ofValue {value : ℤ} (h : value < 0) :
    (RpcReply.ofValue value).result = value :=
  if_pos h

theorem RpcReply.ofValue_neg_iff (value : ℤ) :
    (RpcReply.ofValue value).result < 0 ↔ value < 0 := by
  rw [RpcReply.ofValue]
  dsimp only
  split <;> omega

section Requests

variable {op : DeviceInfo → StateM Backend ℤ} {function : DeviceFunction} {request : RpcRequest}

/-- A call that returns the result of its operation. -/
theorem simulates_result {x : StateM Storage ℤ}
    (hx : ∀ s, s.bound = true →
      x s = storageRpc device (link outcomes) (.onDevice function) request s)
    (hcall : ∀ info, deviceCall device function request info = RpcReply.ofResult <$> op info) :
    Simulates (fun mem => leaving mem (⟨·, none, none⟩) x)
      (resultOf <$> onInfo outcomes request.index op) := by
  refine simulates_leaving fun s mem hbound => ?_
  obtain ⟨result, s', hcalled, hbound', ⟨-, hcut⟩ | ⟨a, -, -, hdone, -, hresult, -⟩⟩ :=
    storageRpc_onInfo outcomes hcall s mem
  · refine ⟨result, s', (hx s hbound).trans hcalled, hbound'.trans hbound, ?_⟩
    rw [map_apply, hcut]
    rfl
  · refine ⟨result, s', (hx s hbound).trans hcalled, hbound'.trans hbound, ?_⟩
    rw [map_apply, hdone, hresult]
    rfl

/-- A call that returns the value of its operation. -/
theorem simulates_ofValue {x : StateM Storage ℤ}
    (hx : ∀ s, s.bound = true →
      let called := storageRpc device (link outcomes) (.onDevice function) request s
      x s = (if called.1 < 0 then called.1 else called.2.reply.value, called.2))
    (hcall : ∀ info, deviceCall device function request info = RpcReply.ofValue <$> op info) :
    Simulates (fun mem => leaving mem (⟨·, none, none⟩) x)
      (resultOf <$> onInfo outcomes request.index op) := by
  refine simulates_leaving fun s mem hbound => ?_
  obtain ⟨result, s', hcalled, hbound', ⟨hneg, hcut⟩ |
      ⟨a, -, -, hdone, -, hresult, count, diag, hreply⟩⟩ :=
    storageRpc_onInfo outcomes hcall s mem
  · refine ⟨result, s', ?_, hbound'.trans hbound, ?_⟩
    · rw [hx s hbound, hcalled]
      dsimp only
      rw [if_pos hneg]
    · rw [map_apply, hcut]
      rfl
  · refine ⟨a, s', ?_, hbound'.trans hbound, ?_⟩
    · rw [hx s hbound, hcalled, hresult, hreply]
      change (if (RpcReply.ofValue a).result < 0 then (RpcReply.ofValue a).result else a, s') = _
      by_cases hneg : a < 0
      · rw [if_pos ((RpcReply.ofValue_neg_iff a).2 hneg), RpcReply.result_ofValue hneg]
      · rw [if_neg fun h => hneg ((RpcReply.ofValue_neg_iff a).1 h)]
    · rw [map_apply, hdone]
      rfl

/-- A query. -/
theorem simulates_value {index : UInt32} {wanted : Bool}
    (hcall : ∀ info, deviceCall device function { index := index } info =
      RpcReply.ofValue <$> op info) :
    Simulates (fun mem => leaving mem Answer.ofValue
        (mmceValueCall device (link outcomes) function index wanted))
      (valueOf wanted <$> onInfo outcomes index op) := by
  refine simulates_leaving fun s mem hbound => ?_
  have hx : mmceValueCall device (link outcomes) function index wanted s =
      let called := storageRpc device (link outcomes) (.onDevice function) { index := index } s
      (if called.1 < 0 then (called.1, none)
        else (0, if wanted then some (UInt32.ofInt called.2.reply.value) else none), called.2) :=
    ite_unbound hbound _ _
  obtain ⟨result, s', hcalled, hbound', ⟨hneg, hcut⟩ |
      ⟨a, -, -, hdone, -, hresult, count, diag, hreply⟩⟩ :=
    storageRpc_onInfo outcomes hcall s mem
  · refine ⟨(result, none), s', ?_, hbound'.trans hbound, ?_⟩
    · rw [hx, hcalled]
      dsimp only
      rw [if_pos hneg]
    · rw [map_apply, hcut]
      rfl
  have hvalue : s'.reply.value = a := by
    rw [hreply]
    rfl
  rw [hx, hcalled, map_apply, hdone, hresult]
  dsimp only [valueOf]
  rw [hvalue]
  by_cases hneg : a < 0
  · rw [if_pos ((RpcReply.ofValue_neg_iff a).2 hneg), RpcReply.result_ofValue hneg, if_pos hneg]
    exact ⟨_, _, rfl, hbound'.trans hbound, rfl⟩
  · rw [if_neg fun h => hneg ((RpcReply.ofValue_neg_iff a).1 h), if_neg hneg]
    exact ⟨_, _, rfl, hbound'.trans hbound, rfl⟩

end Requests

/-- A device sees of a name what it is cut to. -/
theorem backendMmceSetGameId_cut (info : DeviceInfo) (gameId : CString) :
    backendMmceSetGameId device info (padded pathMax (storageCopyString gameId pathMax)).toList =
      backendMmceSetGameId device info (gameId.cut ++ [0]) := by
  obtain ⟨hlength, htake, -⟩ := sentName_eq gameId (gameIdMax - 1) (by decide)
  have hcut : stringLength (gameId.cut ++ [0]) (gameIdMax - 1) = gameId.cut.length :=
    stringLength_append [] gameId.zero_not_mem_cut
      (Nat.le_trans gameId.length_cut (by decide))
  rw [backendMmceSetGameId, backendMmceSetGameId, hlength, hcut]
  simp only [gameIdPacket, htake, List.take_left]

theorem backendMmceOpen_cut (info : DeviceInfo) (path : CString) (flags : UInt32) :
    backendMmceOpen device info (padded pathMax (storageCopyString path pathMax)).toList flags =
      backendMmceOpen device info (path.cut ++ [0]) flags := by
  obtain ⟨hlength, -, htake⟩ := sentName_eq path (pathMax - 1) (by decide)
  have hcut : stringLength (path.cut ++ [0]) (pathMax - 1) = path.cut.length :=
    stringLength_append [] path.zero_not_mem_cut path.length_cut
  have hall : (path.cut ++ [0]).take (path.cut.length + 1) = path.cut ++ [0] :=
    List.take_of_length_le (by simp)
  rw [backendMmceOpen, backendMmceOpen, hlength, hcut]
  simp only [htake, hall]

/-- The record that the server gives out. -/
theorem simulates_getDevice (index : UInt32) (wanted : Bool) :
    Simulates (fun mem => leaving mem Answer.ofInfo
        (getDevice device (link outcomes) index wanted))
      (directGetDevice outcomes index wanted) := by
  refine simulates_leaving fun s mem hbound => ?_
  have hcall : ∀ info, deviceCall device .getDevice { index := index } info =
      (fun info => ({ device := info } : RpcReply)) <$>
        (fun info => pure info : DeviceInfo → StateM Backend DeviceInfo) info :=
    fun _ => rfl
  rw [getDevice_bound device _ hbound, directGetDevice, bind_apply, get_apply]
  dsimp only
  rw [ite_run, show (view s mem).deviceCount = s.deviceCount from rfl]
  by_cases hout : wanted = false ∨ s.deviceCount ≤ index
  · rw [if_pos hout, if_pos hout]
    exact ⟨_, _, rfl, hbound, rfl⟩
  rw [if_neg hout, if_neg hout, bind_apply]
  obtain ⟨result, s', hcalled, hbound', ⟨hneg, hcut⟩ |
      ⟨info, -, -, hdone, -, hresult, count, diag, hreply⟩⟩ :=
    storageRpc_onInfo outcomes hcall s mem
  · rw [hcalled, hcut]
    dsimp only
    rw [if_pos hneg]
    exact ⟨_, _, rfl, hbound'.trans hbound, rfl⟩
  · rw [hcalled, hdone, hresult, hreply]
    exact ⟨_, _, rfl, hbound'.trans hbound, rfl⟩

/-! ## Transfers -/

theorem backendReadSector_result (info : DeviceInfo) (sector : UInt32) :
    Triple (fun _ => True) (backendReadSector device info sector) fun read _ =>
      read.1 ≤ 0 ∧ (read.1 = 0 → read.2.length = ioChunk) :=
  Triple.ite (fun _ => Triple.pure fun _ _ => by simp) fun _ b hb =>
    (mxReadSector_result device sector b hb).imp_right fun h hzero => (h hzero).1

theorem backendReadPage_result (info : DeviceInfo) (page : UInt32) :
    Triple (fun _ => True) (backendReadPage device info page) fun read _ =>
      read.1 ≤ 0 ∧ (read.1 = 0 → read.2.length = ioChunk) := by
  intro b _
  have hpage : Traces (backendReadPage device info page) _ := traces_backendReadPage
  obtain ⟨l, -, ⟨hzero, -, select, chunks, finish, hexchanges⟩ | hneg⟩ := hpage b
  · exact ⟨Int.le_of_eq hzero, fun _ => hexchanges.length_eq⟩
  · exact ⟨Int.le_of_lt hneg, fun hzero => absurd hzero (Int.ne_of_lt hneg)⟩

/-- The bytes of a reply whose data has at least as many. -/
theorem bytes_of_reply {reply : RpcReply} {data : List UInt8} {n : ℕ}
    (hdata : reply.data = padded ioChunk data) (hlength : data.length = ioChunk)
    (hn : n ≤ ioChunk) : reply.bytes n = data.take n :=
  RpcReply.bytes_eq hdata (Nat.le_of_eq hlength) (hlength ▸ hn)

variable (device outcomes) in
theorem readSectorsLoop_direct (index sector buffer count : UInt32) (left done : ℕ)
    (hleft : done + left = count.toNat) (s : Storage) (mem : Memory) (hbound : s.bound = true) :
    ∃ result mem' s',
      readSectorsLoop device (link outcomes) index sector buffer count done mem s =
        ((result, mem'), s')
      ∧ s'.bound = true
      ∧ directReadSectors device outcomes index sector buffer left done (view s mem) =
        (result, view s' mem') := by
  induction left generalizing done s mem with
  | zero =>
    rw [readSectorsLoop, if_neg (by omega)]
    exact ⟨toInt done, mem, s, rfl, hbound, rfl⟩
  | succ left ih =>
    have hcall : ∀ info, deviceCall device .readSector
        (readSectorRequest index (sector + UInt32.ofNat done)) info =
        (fun read : ℤ × List UInt8 =>
          ({ result := read.1
             dataSize := if read.1 = 0 then UInt32.ofNat ioChunk else 0
             data := padded ioChunk read.2 } : RpcReply)) <$>
          backendReadSector device info (sector + UInt32.ofNat done) :=
      fun _ => rfl
    rw [readSectorsLoop_round (by omega), directReadSectors, bind_apply]
    obtain ⟨result, s', hcalled, hbound', ⟨hneg, hcut⟩ |
        ⟨read, info, b, hdone, hread, hresult, known, diag, hreply⟩⟩ :=
      storageRpc_onInfo outcomes hcall s mem
    · rw [hcalled, show onInfo outcomes index _ (view s mem) = _ from hcut]
      dsimp only
      rw [if_pos hneg]
      exact ⟨_, mem, s', rfl, hbound'.trans hbound, rfl⟩
    · obtain ⟨hnonpos, hlength⟩ := backendReadSector_result info _ b trivial
      rw [← hread] at hnonpos hlength
      rw [hcalled, show onInfo outcomes index _ (view s mem) = _ from hdone]
      dsimp only
      rw [hresult]
      by_cases hneg : read.1 < 0
      · rw [if_pos hneg, if_pos hneg]
        exact ⟨_, mem, s', rfl, hbound'.trans hbound, rfl⟩
      · have hzero : read.1 = 0 := Int.le_antisymm hnonpos (Int.not_lt.1 hneg)
        have hsize : ¬s'.reply.dataSize ≠ UInt32.ofNat ioChunk := by
          rw [hreply, not_not]
          exact if_pos hzero
        have hbytes : s'.reply.bytes ioChunk = read.2 := by
          rw [bytes_of_reply (hreply ▸ rfl) (hlength hzero) (Nat.le_refl _), ← hlength hzero,
            List.take_length]
        rw [if_neg hneg, if_neg hsize, if_neg hneg, hbytes, bind_apply]
        exact ih (done + 1) (by omega) s' _ (hbound'.trans hbound)

/-- One sector. -/
theorem directWriteSectors_round (index sector buffer : UInt32) (left done : ℕ) (s : Storage)
    (mem : Memory) :
    directWriteSectors device outcomes index sector buffer (left + 1) done (view s mem) =
      let written := onInfo outcomes index (fun info =>
        backendWriteSector device info (sector + UInt32.ofNat done)
          (padded ioChunk (loadBytes mem
            (buffer + UInt32.ofNat done * UInt32.ofNat ioChunk) ioChunk))) (view s mem)
      match written.1 with
      | .error result => (shortened done result, written.2)
      | .ok result =>
        if result < 0 then (shortened done result, written.2)
        else directWriteSectors device outcomes index sector buffer left (done + 1) written.2 := by
  rw [directWriteSectors, bind_apply, get_apply, bind_apply]
  dsimp only
  change (match (onInfo outcomes index (fun info =>
      backendWriteSector device info (sector + UInt32.ofNat done)
        (padded ioChunk (loadBytes mem
          (buffer + UInt32.ofNat done * UInt32.ofNat ioChunk) ioChunk))) (view s mem)).1 with
    | .error result => pure (shortened done result)
    | .ok result =>
      if result < 0 then pure (shortened done result)
      else directWriteSectors device outcomes index sector buffer left (done + 1) :
    StateM Direct ℤ) (onInfo outcomes index (fun info =>
      backendWriteSector device info (sector + UInt32.ofNat done)
        (padded ioChunk (loadBytes mem
          (buffer + UInt32.ofNat done * UInt32.ofNat ioChunk) ioChunk))) (view s mem)).2 = _
  generalize onInfo outcomes index _ (view s mem) = written
  cases written.1 with
  | error result => rfl
  | ok result => exact ite_run _ _ _

variable (device outcomes) in
theorem writeSectorsLoop_direct (index sector buffer count : UInt32) (mem : Memory)
    (left done : ℕ) (hleft : done + left = count.toNat) (s : Storage) (hbound : s.bound = true) :
    ∃ result s',
      writeSectorsLoop device (link outcomes) index sector buffer count mem done s = (result, s')
      ∧ s'.bound = true
      ∧ directWriteSectors device outcomes index sector buffer left done (view s mem) =
        (result, view s' mem) := by
  induction left generalizing done s with
  | zero =>
    rw [writeSectorsLoop, if_neg (by omega)]
    exact ⟨toInt done, s, rfl, hbound, rfl⟩
  | succ left ih =>
    have hcall : ∀ info, deviceCall device .writeSector
        (writeSectorRequest index (sector + UInt32.ofNat done)
          (loadBytes mem (buffer + UInt32.ofNat done * UInt32.ofNat ioChunk) ioChunk)) info =
        RpcReply.ofResult <$> backendWriteSector device info (sector + UInt32.ofNat done)
          (padded ioChunk
            (loadBytes mem (buffer + UInt32.ofNat done * UInt32.ofNat ioChunk) ioChunk)) := by
      intro info
      rw [deviceCall]
      exact if_neg fun h => h rfl
    rw [writeSectorsLoop_round (by omega), directWriteSectors_round]
    obtain ⟨result, s', hcalled, hbound', ⟨hneg, hcut⟩ |
        ⟨written, -, -, hdone, -, hresult, -⟩⟩ :=
      storageRpc_onInfo outcomes hcall s mem
    · rw [hcalled, show onInfo outcomes index _ (view s mem) = _ from hcut]
      dsimp only
      rw [if_pos hneg]
      exact ⟨_, s', rfl, hbound'.trans hbound, rfl⟩
    · rw [hcalled, show onInfo outcomes index _ (view s mem) = _ from hdone]
      dsimp only
      rw [hresult]
      by_cases hneg : written < 0
      · rw [if_pos hneg, if_pos (show (RpcReply.ofResult written).result < 0 from hneg)]
        exact ⟨_, s', rfl, hbound'.trans hbound, rfl⟩
      · rw [if_neg hneg, if_neg (show ¬(RpcReply.ofResult written).result < 0 from hneg)]
        exact ih (done + 1) (by omega) s' (hbound'.trans hbound)

/-- A chunk fits a request. -/
theorem not_ioChunk_lt_chunkSize (size done : ℕ) :
    ¬UInt32.ofNat ioChunk < UInt32.ofNat (chunkSize size done) := by
  rw [UInt32.lt_iff_toNat_lt, toNat_chunkSize]
  exact Nat.not_lt.2 (chunkSize_le size done)

/-- A chunk is read as far as the device has it. -/
theorem deviceCall_mmceRead (info : DeviceInfo) (index : UInt32) (fd : ℤ) (size done : ℕ) :
    deviceCall device .mmceRead (mmceReadRequest index fd (chunkSize size done)) info =
      (fun read : ℤ × List UInt8 =>
        ({ result := if 0 ≤ read.1 then 0 else read.1
           dataSize := if 0 ≤ read.1 then UInt32.ofNat read.1.toNat else 0
           data := padded ioChunk read.2 } : RpcReply)) <$>
        backendMmceRead device info fd (chunkSize size done) := by
  rw [deviceCall]
  refine (if_neg (not_ioChunk_lt_chunkSize size done)).trans ?_
  dsimp only [mmceReadRequest]
  rw [toNat_chunkSize]
  rfl

variable (device outcomes) in
theorem mmceReadLoop_direct (index : UInt32) (fd : ℤ) (buffer : UInt32) (size done : ℕ)
    (s : Storage) (mem : Memory) (hbound : s.bound = true) :
    ∃ result mem' s',
      mmceReadLoop device (link outcomes) index fd buffer size done mem s = ((result, mem'), s')
      ∧ s'.bound = true
      ∧ directReadFile device outcomes index fd buffer size done (view s mem) =
        (result, view s' mem') := by
  induction hleft : size - done using Nat.strongRecOn generalizing done s mem with
  | _ left ih =>
  by_cases hlt : done < size
  · have hpos := chunkSize_pos hlt
    rw [mmceReadLoop_round hlt, directReadFile, if_pos hlt, bind_apply]
    obtain ⟨result, s', hcalled, hbound', ⟨hneg, hcut⟩ |
        ⟨read, info, b, hdone, hread, hresult, known, diag, hreply⟩⟩ :=
      storageRpc_onInfo outcomes (fun info => deviceCall_mmceRead info index fd size done) s mem
    · rw [hcalled, show onInfo outcomes index _ (view s mem) = _ from hcut]
      dsimp only
      rw [if_pos hneg]
      exact ⟨_, mem, s', rfl, hbound'.trans hbound, rfl⟩
    · have hcount := backendMmceRead_result device info fd (chunkSize size done) b trivial
      rw [← hread] at hcount
      rw [hcalled, show onInfo outcomes index _ (view s mem) = _ from hdone]
      dsimp only
      rw [hresult]
      by_cases hneg : read.1 < 0
      · simp only [if_neg (Int.not_le.2 hneg), if_pos hneg]
        exact ⟨_, mem, s', rfl, hbound'.trans hbound, rfl⟩
      · have hnonneg : 0 ≤ read.1 := Int.not_lt.1 hneg
        obtain ⟨hle, hlength⟩ := hcount hnonneg
        have hchunk := chunkSize_le size done
        have hsize : s'.reply.dataSize.toNat = read.1.toNat := by
          have hsmall : read.1.toNat < 2 ^ 32 := by
            have : ioChunk < 2 ^ 32 := by decide
            omega
          have hdata : s'.reply.dataSize = UInt32.ofNat read.1.toNat := by
            rw [hreply]
            exact if_pos hnonneg
          rw [hdata, UInt32.toNat_ofNat_of_lt' hsmall]
        have hbytes : s'.reply.bytes read.1.toNat = read.2.take read.1.toNat :=
          RpcReply.bytes_eq (hreply ▸ rfl) (hlength ▸ hchunk) (by omega)
        rw [if_neg hneg, if_pos hnonneg, if_neg (Int.lt_irrefl 0), hsize, hbytes, bind_apply,
          ite_run]
        by_cases hshort : read.1 < chunkSize size done
        · rw [if_pos hshort, if_pos (by omega)]
          exact ⟨_, _, s', rfl, hbound'.trans hbound, rfl⟩
        · have hfull : read.1.toNat = chunkSize size done := by omega
          rw [if_neg hshort, if_neg (by omega), hfull]
          exact ih (size - (done + chunkSize size done)) (by omega) _ s' _
            (hbound'.trans hbound) rfl
  · rw [mmceReadLoop, if_neg hlt, directReadFile, if_neg hlt]
    exact ⟨toInt done, mem, s, rfl, hbound, rfl⟩

/-- One chunk. -/
theorem directWriteFile_round {index : UInt32} {fd : ℤ} {buffer : UInt32} {size done : ℕ}
    (h : done < size) (s : Storage) (mem : Memory) :
    directWriteFile device outcomes index fd buffer size done (view s mem) =
      let written := onInfo outcomes index (fun info =>
        backendMmceWrite device info fd
          (loadBytes mem (buffer + UInt32.ofNat done) (chunkSize size done))) (view s mem)
      match written.1 with
      | .error result => (shortened done result, written.2)
      | .ok count =>
        if count < 0 then (shortened done count, written.2)
        else if count < chunkSize size done then (toInt (done + count.toNat), written.2)
        else directWriteFile device outcomes index fd buffer size (done + chunkSize size done)
          written.2 := by
  rw [directWriteFile, if_pos h, bind_apply, get_apply, bind_apply]
  dsimp only
  change (match (onInfo outcomes index (fun info =>
      backendMmceWrite device info fd
        (loadBytes mem (buffer + UInt32.ofNat done) (chunkSize size done))) (view s mem)).1 with
    | .error result => pure (shortened done result)
    | .ok count =>
      if count < 0 then pure (shortened done count)
      else if count < chunkSize size done then pure (toInt (done + count.toNat))
      else directWriteFile device outcomes index fd buffer size (done + chunkSize size done) :
    StateM Direct ℤ) (onInfo outcomes index (fun info =>
      backendMmceWrite device info fd
        (loadBytes mem (buffer + UInt32.ofNat done) (chunkSize size done))) (view s mem)).2 = _
  generalize onInfo outcomes index _ (view s mem) = written
  cases written.1 with
  | error result => rfl
  | ok count =>
    dsimp only
    rw [ite_run, ite_run]
    rfl

/-- A chunk is written as the caller has it. -/
theorem deviceCall_mmceWrite (info : DeviceInfo) (index : UInt32) (fd : ℤ) {bytes : List UInt8}
    (h : bytes.length ≤ ioChunk) :
    deviceCall device .mmceWrite (mmceWriteRequest index fd bytes) info =
      RpcReply.ofValue <$> backendMmceWrite device info fd bytes := by
  have hsize : (mmceWriteRequest index fd bytes).dataSize.toNat = bytes.length :=
    UInt32.toNat_ofNat_of_lt' (Nat.lt_of_le_of_lt h (by decide))
  have hfits : ¬UInt32.ofNat ioChunk < (mmceWriteRequest index fd bytes).dataSize := by
    rw [UInt32.lt_iff_toNat_lt, hsize]
    exact Nat.not_lt.2 h
  have hdata : (mmceWriteRequest index fd bytes).data.toList.take bytes.length = bytes := by
    rw [mmceWriteRequest, toList_padded h, List.take_left]
  rw [deviceCall]
  refine (if_neg hfits).trans ?_
  rw [hsize, hdata]
  rfl

variable (device outcomes) in
theorem mmceWriteLoop_direct (index : UInt32) (fd : ℤ) (buffer : UInt32) (size : ℕ)
    (mem : Memory) (done : ℕ) (s : Storage) (hbound : s.bound = true) :
    ∃ result s',
      mmceWriteLoop device (link outcomes) index fd buffer size mem done s = (result, s')
      ∧ s'.bound = true
      ∧ directWriteFile device outcomes index fd buffer size done (view s mem) =
        (result, view s' mem) := by
  induction hleft : size - done using Nat.strongRecOn generalizing done s with
  | _ left ih =>
  by_cases hlt : done < size
  · have hpos := chunkSize_pos hlt
    have hbytes := length_loadBytes mem (buffer + UInt32.ofNat done) (chunkSize size done)
    have hcall : ∀ info, deviceCall device .mmceWrite (mmceWriteRequest index fd
        (loadBytes mem (buffer + UInt32.ofNat done) (chunkSize size done))) info =
        RpcReply.ofValue <$> backendMmceWrite device info fd
          (loadBytes mem (buffer + UInt32.ofNat done) (chunkSize size done)) :=
      fun info => deviceCall_mmceWrite info index fd
        (Nat.le_trans (Nat.le_of_eq hbytes) (chunkSize_le size done))
    rw [mmceWriteLoop_round hlt, directWriteFile_round hlt]
    obtain ⟨result, s', hcalled, hbound', ⟨hneg, hcut⟩ |
        ⟨count, info, b, hdone, hwritten, hresult, known, diag, hreply⟩⟩ :=
      storageRpc_onInfo outcomes hcall s mem
    · rw [hcalled, show onInfo outcomes index _ (view s mem) = _ from hcut]
      dsimp only
      rw [if_pos hneg]
      exact ⟨_, s', rfl, hbound'.trans hbound, rfl⟩
    · have hle := backendMmceWrite_result device info fd
        (loadBytes mem (buffer + UInt32.ofNat done) (chunkSize size done)) b trivial
      rw [← hwritten, hbytes] at hle
      have hvalue : s'.reply.value = count := by
        rw [hreply]
        rfl
      rw [hcalled, show onInfo outcomes index _ (view s mem) = _ from hdone]
      dsimp only
      rw [hresult, hvalue, RpcReply.ofValue]
      dsimp only
      by_cases hneg : count < 0
      · simp only [if_pos hneg]
        exact ⟨_, s', rfl, hbound'.trans hbound, rfl⟩
      rw [if_neg hneg, if_neg (Int.lt_irrefl 0), if_neg hneg]
      by_cases hshort : count < chunkSize size done
      · rw [if_pos hshort]
        refine ⟨_, s', ?_, hbound'.trans hbound, rfl⟩
        split
        · next hzero =>
          rw [show count.toNat = 0 by omega]
          rfl
        · rw [if_pos (by omega)]
      · have hfull : count.toNat = chunkSize size done := by omega
        rw [if_neg hshort, if_neg (by omega), if_neg (by omega), hfull]
        exact ih (size - (done + chunkSize size done)) (by omega) _ s' (hbound'.trans hbound) rfl
  · rw [mmceWriteLoop, if_neg hlt, directWriteFile, if_neg hlt]
    exact ⟨toInt done, s, rfl, hbound, rfl⟩

theorem simulates_readPage (index page size buffer : UInt32) :
    Simulates (fun mem =>
        storing (readPage device (link outcomes) index page (some buffer) size mem))
      ((⟨·, none, none⟩) <$> directReadPage device outcomes index page size buffer) := by
  refine simulates_storing fun s mem hbound => ?_
  have hx : readPage device (link outcomes) index page (some buffer) size mem s =
      if size = 0 ∨ UInt32.ofNat ioChunk < size then ((-1, mem), s)
      else
        let called := storageRpc device (link outcomes) (.onDevice .readPage)
          (readPageRequest index page size) s
        if called.1 < 0 then ((called.1, mem), called.2)
        else if called.2.reply.dataSize ≠ size then ((-2, mem), called.2)
        else ((0, storeBytes mem buffer (called.2.reply.bytes size.toNat)), called.2) := by
    refine (ite_unbound_or hbound _ _).trans ?_
    simp only [bind_apply, ite_run]
    rfl
  rw [hx, directReadPage, ite_run]
  by_cases hsize : size = 0 ∨ UInt32.ofNat ioChunk < size
  · rw [if_pos hsize, if_pos hsize]
    exact ⟨_, mem, s, rfl, hbound, rfl⟩
  have hle : size.toNat ≤ ioChunk := by
    rw [not_or, UInt32.lt_iff_toNat_lt] at hsize
    exact Nat.not_lt.1 hsize.2
  have hcall : ∀ info, deviceCall device .readPage (readPageRequest index page size) info =
      (fun read : ℤ × List UInt8 =>
        ({ result := read.1
           dataSize := if read.1 = 0 then size else 0
           data := padded ioChunk read.2 } : RpcReply)) <$> backendReadPage device info page := by
    intro info
    rw [deviceCall]
    exact if_neg hsize
  rw [if_neg hsize, if_neg hsize, bind_apply]
  obtain ⟨result, s', hcalled, hbound', ⟨hneg, hcut⟩ |
      ⟨read, info, b, hdone, hread, hresult, known, diag, hreply⟩⟩ :=
    storageRpc_onInfo outcomes hcall s mem
  · rw [hcalled, show onInfo outcomes index _ (view s mem) = _ from hcut]
    dsimp only
    rw [if_pos hneg]
    exact ⟨_, mem, s', rfl, hbound'.trans hbound, rfl⟩
  · obtain ⟨hnonpos, hlength⟩ := backendReadPage_result info page b trivial
    rw [← hread] at hnonpos hlength
    rw [hcalled, show onInfo outcomes index _ (view s mem) = _ from hdone]
    dsimp only
    rw [hresult]
    by_cases hneg : read.1 < 0
    · rw [if_pos hneg, if_pos hneg]
      exact ⟨_, mem, s', rfl, hbound'.trans hbound, rfl⟩
    · have hzero : read.1 = 0 := Int.le_antisymm hnonpos (Int.not_lt.1 hneg)
      have hdata : ¬s'.reply.dataSize ≠ size := by
        rw [hreply, not_not]
        exact if_pos hzero
      have hbytes : s'.reply.bytes size.toNat = read.2.take size.toNat :=
        bytes_of_reply (hreply ▸ rfl) (hlength hzero) hle
      rw [if_neg hneg, if_neg hdata, if_neg hneg, hbytes]
      exact ⟨0, _, s', rfl, hbound'.trans hbound, rfl⟩

theorem simulates_readSectors (index sector buffer count : UInt32) :
    Simulates (fun mem =>
        storing (readSectors device (link outcomes) index sector (some buffer) count mem))
      ((⟨·, none, none⟩) <$> (if count = 0 then pure (-1)
        else directReadSectors device outcomes index sector buffer count.toNat 0)) := by
  refine simulates_storing fun s mem hbound => ?_
  have hx : readSectors device (link outcomes) index sector (some buffer) count mem s =
      if count = 0 then ((-1, mem), s)
      else readSectorsLoop device (link outcomes) index sector buffer count 0 mem s :=
    ite_unbound_or hbound _ _
  rw [hx]
  by_cases hcount : count = 0
  · rw [if_pos hcount, if_pos hcount]
    exact ⟨-1, mem, s, rfl, hbound, rfl⟩
  · rw [if_neg hcount, if_neg hcount]
    exact readSectorsLoop_direct device outcomes index sector buffer count count.toNat 0
      (Nat.zero_add _) s mem hbound

theorem simulates_writeSectors (index sector buffer count : UInt32) :
    Simulates (fun mem => leaving mem (⟨·, none, none⟩)
        (writeSectors device (link outcomes) index sector (some buffer) count mem))
      ((⟨·, none, none⟩) <$> (if count = 0 then pure (-1)
        else directWriteSectors device outcomes index sector buffer count.toNat 0)) := by
  refine simulates_leaving fun s mem hbound => ?_
  have hx : writeSectors device (link outcomes) index sector (some buffer) count mem s =
      if count = 0 then (-1, s)
      else writeSectorsLoop device (link outcomes) index sector buffer count mem 0 s :=
    ite_unbound_or hbound _ _
  rw [hx, map_apply]
  by_cases hcount : count = 0
  · rw [if_pos hcount, if_pos hcount]
    exact ⟨-1, s, rfl, hbound, rfl⟩
  · obtain ⟨result, s', hloop, hbound', hdirect⟩ := writeSectorsLoop_direct device outcomes
      index sector buffer count mem count.toNat 0 (Nat.zero_add _) s hbound
    rw [if_neg hcount, if_neg hcount, hdirect]
    exact ⟨result, s', hloop, hbound', rfl⟩

theorem simulates_readFile (index : UInt32) (fd : ℤ) (buffer size : UInt32) :
    Simulates (fun mem => storing (mmceRead device (link outcomes) index fd (some buffer) size mem))
      ((⟨·, none, none⟩) <$>
        directReadFile device outcomes index fd buffer size.toNat 0) := by
  refine simulates_storing fun s mem hbound => ?_
  have hx : mmceRead device (link outcomes) index fd (some buffer) size mem s =
      mmceReadLoop device (link outcomes) index fd buffer size.toNat 0 mem s :=
    ite_unbound hbound _ _
  rw [hx]
  exact mmceReadLoop_direct device outcomes index fd buffer size.toNat 0 s mem hbound

theorem simulates_writeFile (index : UInt32) (fd : ℤ) (buffer size : UInt32) :
    Simulates (fun mem => leaving mem (⟨·, none, none⟩)
        (mmceWrite device (link outcomes) index fd (some buffer) size mem))
      ((⟨·, none, none⟩) <$>
        directWriteFile device outcomes index fd buffer size.toNat 0) := by
  refine simulates_leaving fun s mem hbound => ?_
  have hx : mmceWrite device (link outcomes) index fd (some buffer) size mem s =
      mmceWriteLoop device (link outcomes) index fd buffer size.toNat mem 0 s :=
    ite_unbound hbound _ _
  obtain ⟨result, s', hloop, hbound', hdirect⟩ := mmceWriteLoop_direct device outcomes
    index fd buffer size.toNat mem 0 s hbound
  rw [hx, map_apply, hdirect]
  exact ⟨result, s', hloop, hbound', rfl⟩

variable (device outcomes) in
/-- Every call on a device is the operation on it. -/
theorem simulates_access (a : Access) :
    Simulates (fun mem => a.run device (link outcomes) mem) (a.direct device outcomes) := by
  cases a with
  | getDevice index info => exact simulates_getDevice index info
  | readPage index page buffer size =>
    cases buffer with
    | none => exact Simulates.refused fun s mem => rfl
    | some buffer => exact simulates_readPage index page size buffer
  | readSectors index sector buffer count =>
    cases buffer with
    | none => exact Simulates.refused fun s mem => rfl
    | some buffer => exact simulates_readSectors index sector buffer count
  | writeSectors index sector buffer count =>
    cases buffer with
    | none => exact Simulates.refused fun s mem => rfl
    | some buffer => exact simulates_writeSectors index sector buffer count
  | getStatus index status => exact simulates_value fun _ => rfl
  | getCard index card => exact simulates_value fun _ => rfl
  | setCard index type mode card =>
    exact simulates_result (fun s hbound => ite_unbound hbound _ _) fun _ => rfl
  | getChannel index channel => exact simulates_value fun _ => rfl
  | setChannel index mode channel =>
    exact simulates_result (fun s hbound => ite_unbound hbound _ _) fun _ => rfl
  | setGameId index gameId =>
    cases gameId with
    | none => exact Simulates.refused fun s mem => rfl
    | some gameId =>
      exact simulates_result (fun s hbound => ite_unbound hbound _ _) fun info =>
        congrArg (RpcReply.ofResult <$> ·) (backendMmceSetGameId_cut info gameId)
  | openFile index path flags =>
    cases path with
    | none => exact Simulates.refused fun s mem => rfl
    | some path =>
      have hx : ∀ s, s.bound = true →
          let called := storageRpc device (link outcomes) (.onDevice .mmceOpen)
            (openRequest index path flags) s
          mmceOpen device (link outcomes) index (some path) flags s =
            (if called.1 < 0 then called.1 else called.2.reply.value, called.2) :=
        fun s hbound => ite_unbound hbound _ _
      exact simulates_ofValue hx fun info =>
        congrArg (RpcReply.ofValue <$> ·) (backendMmceOpen_cut info path flags)
  | closeFile index fd =>
    exact simulates_result (fun s hbound => ite_unbound hbound _ _) fun _ => rfl
  | readFile index fd buffer size =>
    cases buffer with
    | none => exact Simulates.refused fun s mem => rfl
    | some buffer => exact simulates_readFile index fd buffer size
  | writeFile index fd buffer size =>
    cases buffer with
    | none => exact Simulates.refused fun s mem => rfl
    | some buffer => exact simulates_writeFile index fd buffer size
  | seekFile index fd offset whence =>
    have hx : ∀ s, s.bound = true →
        let called := storageRpc device (link outcomes) (.onDevice .mmceLseek)
          { index := index, fd := fd, offset := offset, whence := whence } s
        mmceLseek device (link outcomes) index fd offset whence s =
          (if called.1 < 0 then called.1 else called.2.reply.value, called.2) :=
      fun s hbound => ite_unbound hbound _ _
    exact simulates_ofValue hx fun _ => rfl

end Link

/-! ## Sessions -/

section Run

variable (irx : ByteMemory.Mem) (irxSize : ℕ) (found : ℕ → Server) (device : Device)
  (outcomes : ℕ → RpcOutcome)

/-- The direct machine of a session. -/
def Session.direct (s : Session) : Direct :=
  view s.storage s.mem

/-- A call of a bound session. -/
theorem run_direct (call : ApiCall) (s : Session) (hbound : s.storage.bound = true) :
    ∃ answer s', call.run irx irxSize found device (link outcomes) s = (answer, s')
      ∧ s'.storage.bound = true ∧ call.direct device outcomes s.direct = (answer, s'.direct) := by
  cases call with
  | init =>
    have hinit : storageInit irx irxSize found device (link outcomes) s = (0, s) := by
      rw [storageInit_eq, if_pos hbound]
    refine ⟨{ result := 0 }, s, ?_, hbound, rfl⟩
    rw [ApiCall.run, map_apply, hinit]
  | scan =>
    have hscan : storageScan irx irxSize found device (link outcomes) s =
        let scanned := storageRpc device (link outcomes) .scan {} s.storage
        (scanned.1, { s with storage := scanned.2 }) := by
      rw [storageScan_eq, storageInit_eq, if_pos hbound]
      rfl
    have hserver : (rpcHandler device .scan {} true s.storage.server).2 =
        ((Except.ok <$> scanDevices device : StateM Server (Except ℤ ℤ)) s.storage.server).2 :=
      rfl
    obtain ⟨result, s', hcalled, hbound', ⟨-, hcut⟩ | ⟨hdone, hresult, hreply⟩⟩ :=
      storageRpc_attempt device outcomes s.storage s.mem hserver
    · refine ⟨{ result := result }, { s with storage := s' }, ?_, hbound'.trans hbound, ?_⟩
      · rw [ApiCall.run, map_apply, hscan, hcalled]
      · rw [ApiCall.direct, directScan, map_apply, Session.direct, hcut]
        rfl
    · refine ⟨{ result := result }, { s with storage := s' }, ?_, hbound'.trans hbound, ?_⟩
      · rw [ApiCall.run, map_apply, hscan, hcalled]
      · rw [ApiCall.direct, directScan, map_apply, Session.direct, hdone, hresult, hreply]
        rfl
  | access a =>
    obtain ⟨answer, mem', s', hrun, hbound', hdirect⟩ :=
      simulates_access device outcomes a s.storage s.mem hbound
    refine ⟨answer, { s with storage := s', mem := mem' }, ?_, hbound', hdirect⟩
    dsimp only [ApiCall.run] at hrun ⊢
    rw [hrun]
  | store address bytes => exact ⟨_, _, rfl, hbound, rfl⟩

/-- A session over the link is the session of the direct machine, whichever of its requests are
lost, not answered or answered. -/
theorem session_direct (s : Session) (hbound : s.storage.bound = true) (calls : List ApiCall) :
    let ran := runCalls irx irxSize found device (link outcomes) calls s
    runDirect device outcomes calls s.direct = (ran.1, ran.2.direct) := by
  induction calls generalizing s with
  | nil => rfl
  | cons call calls ih =>
    obtain ⟨answer, s', hrun, hbound', hdirect⟩ :=
      run_direct irx irxSize found device outcomes call s hbound
    have hrest := ih s' hbound'
    dsimp only at hrest ⊢
    rw [runDirect, bind_apply, hdirect, bind_apply, hrest, runCalls, bind_apply, hrun, bind_apply]
    rfl

end Run

/-- A query and a scan without an answer. -/
theorem session_direct_scanned :
    let outcomes : ℕ → RpcOutcome := fun n => if n = 1 then .timedOut true else .answered
    let s : Session := ⟨readyMachine, scannedOne, fun _ => 0⟩
    let calls : List ApiCall := [.access (.getStatus 0 true), .scan]
    runDirect overcounting outcomes calls s.direct =
      ((runCalls (fun _ => 0) 16 (fun _ => freshServer) overcounting (link outcomes) calls s).1,
        (runCalls (fun _ => 0) 16 (fun _ => freshServer) overcounting (link outcomes) calls
          s).2.direct) :=
  session_direct _ _ _ _ _ _ (by decide) _

end EF2SDK.IopStorage
