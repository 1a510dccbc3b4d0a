import EF2SDK.ScanReport
import EF2SDK.StorageClient
import EF2SDK.StorageTransfers

/-!
# What the storage client knows of its server

The client keeps the number of devices and the diagnostics of the last reply, and its server has
those of the last scan. They differ only after a call that was not answered : an answer brings
what the server knows, a request on a device does not change it, and a scan or a start whose
answer is lost may (`settled`). Over any session the client stays that close to its server
(`session_known`), and what a scan found is what is listed afterwards, up to the next scan
(`scan_listed`).
-/

set_option autoImplicit false

namespace EF2SDK.IopStorage

/-! ## One request -/

section Request

variable (device : Device) (transport : Transport)

/-- What a call comes to : it fails, and the server has handled the request or not, or it is
answered. -/
theorem storageRpc_cases (function : RpcFunction) (request : RpcRequest) (s : Storage) :
    let handled := rpcHandler device function request true s.server
    (transport s.calls ≠ .answered ∧ ∃ result server, result < 0 ∧
      (server = s.server ∨ server = handled.2) ∧ storageRpc device transport function request s =
        (result,
          { s with
            reply := {}
            server := server
            calls := s.calls ++ [⟨function, request, none⟩] }))
    ∨ transport s.calls = .answered ∧ storageRpc device transport function request s =
        (handled.1.result,
          { s with
            deviceCount := handled.1.deviceCount
            scanDiag := handled.1.scanDiag
            reply := handled.1
            server := handled.2
            calls := s.calls ++ [⟨function, request, some handled.1⟩] }) := by
  dsimp only
  cases houtcome : transport s.calls with
  | answered =>
    refine Or.inr ⟨rfl, ?_⟩
    rw [storageRpc, houtcome]
    rfl
  | timedOut handled =>
    refine Or.inl ⟨by simp, -4, _, by decide, ?_, by rw [storageRpc, houtcome]; rfl⟩
    cases handled with
    | false => exact Or.inl rfl
    | true => exact Or.inr rfl
  | noServer =>
    exact Or.inl ⟨by simp, -1, _, by decide, Or.inl rfl, by rw [storageRpc, houtcome]; rfl⟩
  | noPacket =>
    exact Or.inl ⟨by simp, -2, _, by decide, Or.inl rfl, by rw [storageRpc, houtcome]; rfl⟩
  | rejected =>
    exact Or.inl ⟨by simp, -3, _, by decide, Or.inl rfl, by rw [storageRpc, houtcome]; rfl⟩

/-- A reply carries what the server knows. -/
theorem rpcHandler_known (function : RpcFunction) (request : RpcRequest) (server : Server) :
    let handled := rpcHandler device function request true server
    handled.1.deviceCount = UInt32.ofNat handled.2.devices.length
      ∧ handled.1.scanDiag = handled.2.scanDiag :=
  ⟨rfl, rfl⟩

/-- A request on a device does not change what the server knows. -/
theorem rpcHandler_keeps (function : DeviceFunction) (request : RpcRequest) (server : Server) :
    let handled := rpcHandler device (.onDevice function) request true server
    handled.2.devices = server.devices ∧ handled.2.scanDiag = server.scanDiag := by
  dsimp only
  rw [rpcHandler_onDevice]
  cases server.devices[request.index.toNat]? with
  | none => exact ⟨rfl, rfl⟩
  | some info => exact ⟨rfl, rfl⟩

/-- A scan publishes no more devices than the server has room for. -/
theorem scanDevices_eq (server : Server) :
    ∃ devices diag, (backendScan device maxDevices server.backend).1 = some (devices, diag)
      ∧ devices.length ≤ maxDevices
      ∧ scanDevices device server =
        (0, ⟨(backendScan device maxDevices server.backend).2, devices, diag⟩) := by
  have hcapacity : ¬maxDevices = 0 := by decide
  have hports : Traces (scanPorts device maxDevices [2, 3] [] .notAttempted) _ :=
    traces_scanPorts hcapacity
  obtain ⟨l, -, hreported⟩ := hports server.backend
  have hscan : backendScan device maxDevices server.backend =
      (some (scanPorts device maxDevices [2, 3] [] .notAttempted server.backend).1,
        (scanPorts device maxDevices [2, 3] [] .notAttempted server.backend).2) := by
    rw [backendScan, if_neg hcapacity]
    rfl
  refine ⟨_, _, congrArg Prod.fst hscan, hreported.count, ?_⟩
  have hcleared : (modify fun s : Server => { s with devices := [], scanDiag := .zero } :
      StateM Server PUnit) server = (⟨⟩, { server with devices := [], scanDiag := .zero }) :=
    rfl
  rw [scanDevices, bind_apply, hcleared, bind_apply, onBackend]
  dsimp only
  rw [hscan]
  rfl

end Request

/-! ## Calls on a device -/

theorem map_apply {σ α β : Type} (f : α → β) (x : StateM σ α) (s : σ) :
    (f <$> x) s = (f (x s).1, (x s).2) :=
  rfl

/-- What no request on a device changes. -/
def KeptByRequests (device : Device) (transport : Transport) (P : Storage → Prop) : Prop :=
  ∀ function request s, P s → P (storageRpc device transport (.onDevice function) request s).2

section Access

variable {device : Device} {transport : Transport} {P : Storage → Prop}

theorem KeptByRequests.rpc (h : KeptByRequests device transport P) (function : DeviceFunction)
    (request : RpcRequest) :
    Triple P (storageRpc device transport (.onDevice function) request) fun _ s => P s :=
  h function request

theorem KeptByRequests.value (h : KeptByRequests device transport P) (function : DeviceFunction)
    (index : UInt32) (value : Bool) :
    Triple P (mmceValueCall device transport function index value) fun _ s => P s := by
  refine Triple.bind (fun _ => P) (Triple.get fun _ hs => hs) fun s => ?_
  refine Triple.ite (fun _ => Triple.pure fun _ hs => hs) fun _ => ?_
  refine Triple.bind (fun _ => P) (h.rpc _ _) fun _ => ?_
  exact Triple.bind (fun _ => P) (Triple.get fun _ hs => hs) fun _ => Triple.pure fun _ hs => hs

theorem KeptByRequests.readSectorsLoop (h : KeptByRequests device transport P)
    (index sector buffer count : UInt32) (done : ℕ) (mem : Memory) :
    Triple P (readSectorsLoop device transport index sector buffer count done mem)
      fun _ s => P s := by
  intro s hs
  induction hleft : count.toNat - done generalizing done mem s with
  | zero =>
    rw [IopStorage.readSectorsLoop, if_neg (by omega)]
    exact hs
  | succ left ih =>
    rw [readSectorsLoop_round (by omega)]
    have hs' := h .readSector (readSectorRequest index (sector + UInt32.ofNat done)) s hs
    dsimp only
    split
    · exact hs'
    split
    · exact hs'
    · exact ih _ _ _ hs' (by omega)

theorem KeptByRequests.writeSectorsLoop (h : KeptByRequests device transport P)
    (index sector buffer count : UInt32) (mem : Memory) (done : ℕ) :
    Triple P (writeSectorsLoop device transport index sector buffer count mem done)
      fun _ s => P s := by
  intro s hs
  induction hleft : count.toNat - done generalizing done s with
  | zero =>
    rw [IopStorage.writeSectorsLoop, if_neg (by omega)]
    exact hs
  | succ left ih =>
    rw [writeSectorsLoop_round (by omega)]
    have hs' := h .writeSector (writeSectorRequest index (sector + UInt32.ofNat done)
      (loadBytes mem (buffer + UInt32.ofNat done * UInt32.ofNat ioChunk) ioChunk)) s hs
    dsimp only
    split
    · exact hs'
    · exact ih _ _ hs' (by omega)

theorem KeptByRequests.mmceReadLoop (h : KeptByRequests device transport P)
    (index : UInt32) (fd : ℤ) (buffer : UInt32) (size done : ℕ) (mem : Memory) :
    Triple P (mmceReadLoop device transport index fd buffer size done mem) fun _ s => P s := by
  intro s hs
  induction hleft : size - done using Nat.strongRecOn generalizing done mem s with
  | _ left ih =>
  by_cases hlt : done < size
  · rw [mmceReadLoop_round hlt]
    have hs' := h .mmceRead (mmceReadRequest index fd (chunkSize size done)) s hs
    have hpos := chunkSize_pos hlt
    dsimp only
    split
    · exact hs'
    split
    · exact hs'
    · exact ih _ (by omega) _ _ _ hs' rfl
  · rw [IopStorage.mmceReadLoop, if_neg hlt]
    exact hs

theorem KeptByRequests.mmceWriteLoop (h : KeptByRequests device transport P)
    (index : UInt32) (fd : ℤ) (buffer : UInt32) (size : ℕ) (mem : Memory) (done : ℕ) :
    Triple P (mmceWriteLoop device transport index fd buffer size mem done) fun _ s => P s := by
  intro s hs
  induction hleft : size - done using Nat.strongRecOn generalizing done s with
  | _ left ih =>
  by_cases hlt : done < size
  · rw [mmceWriteLoop_round hlt]
    have hs' := h .mmceWrite (mmceWriteRequest index fd
      (loadBytes mem (buffer + UInt32.ofNat done) (chunkSize size done))) s hs
    dsimp only
    split
    · exact hs'
    split
    · exact hs'
    split
    · exact hs'
    · exact ih _ (by omega) _ _ hs' rfl
  · rw [IopStorage.mmceWriteLoop, if_neg hlt]
    exact hs

/-- A call on a device is some requests. -/
theorem KeptByRequests.access (h : KeptByRequests device transport P) (a : Access)
    (mem : Memory) : Triple P (a.run device transport mem) fun _ s => P s := by
  have hstart {α : Type} {f : Storage → StateM Storage α}
      (hf : ∀ s, Triple P (f s) fun _ s => P s) : Triple P (get >>= f) fun _ s => P s :=
    Triple.bind (fun _ => P) (Triple.get fun _ hs => hs) hf
  have hrefused {α : Type} {p : Prop} [Decidable p] {a : α} {x : StateM Storage α}
      (hx : Triple P x fun _ s => P s) : Triple P (if p then pure a else x) fun _ s => P s :=
    Triple.ite (fun _ => Triple.pure fun _ hs => hs) fun _ => hx
  have hrequest {α : Type} (function : DeviceFunction) (request : RpcRequest)
      {f : ℤ → Storage → StateM Storage α} (hf : ∀ result s, Triple P (f result s) fun _ s => P s) :
      Triple P (storageRpc device transport (.onDevice function) request >>= fun result =>
        get >>= f result) fun _ s => P s :=
    Triple.bind (fun _ => P) (h.rpc function request) fun result => hstart (hf result)
  have hdone {α : Type} (a : α) : Triple P (pure a) fun _ s => P s :=
    Triple.pure fun _ hs => hs
  cases a with
  | getDevice index info =>
    exact hstart fun s => hrefused (hrequest _ _ fun _ _ => hdone _)
  | readPage index page buffer size =>
    refine hstart fun s => ?_
    cases buffer with
    | none => exact hdone _
    | some buffer =>
      exact hrefused (hrequest _ _ fun _ _ => hrefused (hrefused (hdone _)))
  | readSectors index sector buffer count =>
    refine hstart fun s => ?_
    cases buffer with
    | none => exact hdone _
    | some buffer => exact hrefused (h.readSectorsLoop _ _ _ _ _ _)
  | writeSectors index sector buffer count =>
    refine hstart fun s => ?_
    cases buffer with
    | none => exact hdone _
    | some buffer => exact hrefused (h.writeSectorsLoop _ _ _ _ _ _)
  | getStatus index status => exact h.value _ _ _
  | getCard index card => exact h.value _ _ _
  | setCard index type mode card => exact hstart fun s => hrefused (h.rpc _ _)
  | getChannel index channel => exact h.value _ _ _
  | setChannel index mode channel => exact hstart fun s => hrefused (h.rpc _ _)
  | setGameId index gameId =>
    refine hstart fun s => ?_
    cases gameId with
    | none => exact hdone _
    | some gameId => exact hrefused (h.rpc _ _)
  | openFile index path flags =>
    refine hstart fun s => ?_
    cases path with
    | none => exact hdone _
    | some path => exact hrefused (hrequest _ _ fun _ _ => hdone _)
  | closeFile index fd => exact hstart fun s => hrefused (h.rpc _ _)
  | readFile index fd buffer size =>
    refine hstart fun s => ?_
    cases buffer with
    | none => exact hdone _
    | some buffer => exact hrefused (h.mmceReadLoop _ _ _ _ _ _)
  | writeFile index fd buffer size =>
    refine hstart fun s => ?_
    cases buffer with
    | none => exact hdone _
    | some buffer => exact hrefused (h.mmceWriteLoop _ _ _ _ _ _)
  | seekFile index fd offset whence =>
    exact hstart fun s => hrefused (hrequest _ _ fun _ _ => hdone _)

variable (device transport) in
/-- Before the start, a call on a device does nothing. -/
theorem access_unbound {s : Storage} (h : s.bound = false) (a : Access) (mem : Memory) :
    a.run device transport mem s = (({ result := -1 }, mem), s) := by
  cases a with
  | readPage _ _ buffer _ =>
    cases buffer <;> simp [Access.run, storing, readPage, map_apply, bind_apply, get_apply,
      pure_apply, h]
  | readSectors _ _ buffer _ =>
    cases buffer <;> simp [Access.run, storing, readSectors, map_apply, bind_apply, get_apply,
      pure_apply, h]
  | writeSectors _ _ buffer _ =>
    cases buffer <;> simp [Access.run, leaving, writeSectors, map_apply, bind_apply, get_apply,
      pure_apply, h]
  | setGameId _ gameId =>
    cases gameId <;> simp [Access.run, leaving, mmceSetGameId, map_apply, bind_apply, get_apply,
      pure_apply, h]
  | openFile _ path _ =>
    cases path <;> simp [Access.run, leaving, mmceOpen, map_apply, bind_apply, get_apply,
      pure_apply, h]
  | readFile _ _ buffer _ =>
    cases buffer <;> simp [Access.run, storing, mmceRead, map_apply, bind_apply, get_apply,
      pure_apply, h]
  | writeFile _ _ buffer _ =>
    cases buffer <;> simp [Access.run, leaving, mmceWrite, map_apply, bind_apply, get_apply,
      pure_apply, h]
  | getDevice =>
    simp [Access.run, leaving, getDevice, Answer.ofInfo, map_apply, bind_apply, get_apply,
      pure_apply, h]
  | getStatus =>
    simp [Access.run, leaving, mmceGetStatus, mmceValueCall, Answer.ofValue, map_apply,
      bind_apply, get_apply, pure_apply, h]
  | getCard =>
    simp [Access.run, leaving, mmceGetCard, mmceValueCall, Answer.ofValue, map_apply, bind_apply,
      get_apply, pure_apply, h]
  | getChannel =>
    simp [Access.run, leaving, mmceGetChannel, mmceValueCall, Answer.ofValue, map_apply,
      bind_apply, get_apply, pure_apply, h]
  | setCard =>
    simp [Access.run, leaving, mmceSetCard, map_apply, bind_apply, get_apply, pure_apply, h]
  | setChannel =>
    simp [Access.run, leaving, mmceSetChannel, map_apply, bind_apply, get_apply, pure_apply, h]
  | closeFile =>
    simp [Access.run, leaving, mmceClose, map_apply, bind_apply, get_apply, pure_apply, h]
  | seekFile =>
    simp [Access.run, leaving, mmceLseek, map_apply, bind_apply, get_apply, pure_apply, h]

end Access

/-! ## What the client knows -/

/-- The client and its server agree on the devices and on the diagnostics. -/
structure Known (s : Storage) : Prop where
  count : s.deviceCount = UInt32.ofNat s.server.devices.length
  diag : s.scanDiag = s.server.scanDiag

def settledStep (settled : Bool) (call : Call) : Bool :=
  match call.reply, call.function with
  | some _, _ => true
  | none, .onDevice _ => settled
  | none, _ => false

/-- A call was answered, and no scan and no start after it went without an answer. -/
def settled (calls : List Call) : Bool :=
  calls.foldl settledStep false

def startedStep (started : Bool) (call : Call) : Bool :=
  if call.function = .init then call.reply.isSome else started

/-- The last start was answered. -/
def started (calls : List Call) : Bool :=
  calls.foldl startedStep false

/-- What every session keeps. -/
structure Kept (s : Storage) : Prop where
  bound_eq : s.bound = started s.calls
  ordered : ∀ i call, s.calls[i]? = some call →
    call.function = .init ∨ started (s.calls.take i) = true
  devices_le : s.server.devices.length ≤ maxDevices
  count_le : s.deviceCount.toNat ≤ maxDevices
  known : settled s.calls = true → Known s

section Sessions

variable {irx : ByteMemory.Mem} {irxSize : ℕ} {found : ℕ → Server} {device : Device}
  {transport : Transport}

theorem Kept.unbound {server : Server} (h : server.devices.length ≤ maxDevices) :
    Kept (Storage.unbound server) where
  bound_eq := rfl
  ordered i call hcall := by simp [Storage.unbound] at hcall
  devices_le := h
  count_le := Nat.zero_le _
  known hsettled := nomatch hsettled

/-- The history with one more call. -/
theorem ordered_append {calls : List Call} {call : Call}
    (h : ∀ i c, calls[i]? = some c → c.function = .init ∨ started (calls.take i) = true)
    (hcall : call.function = .init ∨ started calls = true) (i : ℕ) (c : Call)
    (hc : (calls ++ [call])[i]? = some c) :
    c.function = .init ∨ started ((calls ++ [call]).take i) = true := by
  rcases Nat.lt_trichotomy i calls.length with hlt | rfl | hgt
  · rw [List.getElem?_append_left hlt] at hc
    rw [List.take_append_of_le_length (Nat.le_of_lt hlt)]
    exact h i c hc
  · rw [List.getElem?_append_right (Nat.le_refl _), Nat.sub_self] at hc
    obtain rfl : call = c := by simpa using hc
    rwa [List.take_left]
  · rw [List.getElem?_eq_none (by simp; omega)] at hc
    cases hc

variable (device) in
/-- What the server knows after a request. -/
theorem devices_le_rpcHandler (function : RpcFunction) (request : RpcRequest) {server : Server}
    (h : server.devices.length ≤ maxDevices) :
    (rpcHandler device function request true server).2.devices.length ≤ maxDevices := by
  cases function with
  | init => exact h
  | other => exact h
  | scan =>
    obtain ⟨devices, diag, -, hle, hscan⟩ := scanDevices_eq device server
    have hserver : (rpcHandler device .scan request true server).2 =
        (scanDevices device server).2 := rfl
    rw [hserver, hscan]
    exact hle
  | onDevice function =>
    rw [(rpcHandler_keeps device function request server).1]
    exact h

/-- A scan or a request on a device of a bound client. -/
theorem Kept.storageRpc {s : Storage} (h : Kept s) (hbound : s.bound = true)
    {function : RpcFunction} (hfunction : function ≠ .init) (request : RpcRequest) :
    Kept (storageRpc device transport function request s).2
      ∧ (IopStorage.storageRpc device transport function request s).2.bound = true := by
  have hstarted : started s.calls = true := h.bound_eq ▸ hbound
  have hdevices := devices_le_rpcHandler device function request h.devices_le
  have hafter (reply : Option RpcReply) :
      started (s.calls ++ [⟨function, request, reply⟩]) = true := by
    rw [started, List.foldl_append, ← started, List.foldl_cons, List.foldl_nil, startedStep,
      if_neg hfunction, hstarted]
  obtain ⟨-, result, server, hneg, hserver, hcalled⟩ | ⟨-, hcalled⟩ :=
    storageRpc_cases device transport function request s
  · rw [hcalled]
    refine ⟨⟨hbound.trans (hafter none).symm, ordered_append h.ordered (Or.inr hstarted), ?_,
      h.count_le, ?_⟩, hbound⟩
    · rcases hserver with rfl | rfl
      · exact h.devices_le
      · exact hdevices
    · intro hsettled
      rw [settled, List.foldl_append, ← settled] at hsettled
      cases function with
      | init => exact absurd rfl hfunction
      | scan => cases hsettled
      | other => cases hsettled
      | onDevice function =>
        have hknown := h.known hsettled
        rcases hserver with rfl | rfl
        · exact ⟨hknown.count, hknown.diag⟩
        · obtain ⟨hd, hg⟩ := rpcHandler_keeps device function request s.server
          exact ⟨hknown.count.trans (by rw [hd]), hknown.diag.trans hg.symm⟩
  · obtain ⟨hcount, hdiag⟩ := rpcHandler_known device function request s.server
    rw [hcalled]
    refine ⟨⟨hbound.trans (hafter _).symm, ordered_append h.ordered (Or.inr hstarted), hdevices,
      ?_, fun _ => ⟨hcount, hdiag⟩⟩, hbound⟩
    dsimp only
    rw [hcount, UInt32.toNat_ofNat_of_lt' (Nat.lt_of_le_of_lt hdevices (by decide))]
    exact hdevices

variable (device transport) in
/-- A start is answered, or the client is not bound after it. -/
theorem startServer_cases (server : Server) (s : Storage) :
    let reply : RpcReply :=
      { deviceCount := UInt32.ofNat server.devices.length, scanDiag := server.scanDiag }
    (∃ result < 0, startServer device transport server s =
        (result,
          { s with
            bound := false
            reply := {}
            server := server
            calls := s.calls ++ [⟨.init, {}, none⟩] }))
    ∨ startServer device transport server s =
        (0,
          { bound := true
            deviceCount := reply.deviceCount
            scanDiag := reply.scanDiag
            reply := reply
            server := server
            calls := s.calls ++ [⟨.init, {}, some reply⟩] }) := by
  dsimp only
  have hstart : startServer device transport server s =
      let called := IopStorage.storageRpc device transport .init {}
        { s with bound := true, server := server }
      if called.1 < 0 then (-4000 + called.1, { called.2 with bound := false })
      else (0, called.2) := by
    simp only [startServer, bind_apply, ite_run]
    rfl
  rw [hstart]
  obtain ⟨-, result, server', hneg, hserver, hcalled⟩ | ⟨-, hcalled⟩ :=
    storageRpc_cases device transport .init {} { s with bound := true, server := server }
  · have hsame : server' = server := by
      rcases hserver with rfl | rfl
      · rfl
      · rfl
    rw [hcalled, hsame]
    dsimp only
    rw [if_pos hneg]
    exact Or.inl ⟨-4000 + result, by omega, rfl⟩
  · rw [hcalled]
    exact Or.inr rfl

theorem Kept.startServer {s : Storage} (h : Kept s) {server : Server}
    (hserver : server.devices.length ≤ maxDevices) :
    Kept (startServer device transport server s).2 := by
  have hafter (reply : Option RpcReply) :
      started (s.calls ++ [⟨.init, {}, reply⟩]) = reply.isSome := by
    rw [started, List.foldl_append]
    rfl
  obtain ⟨result, -, hstart⟩ | hstart :=
    startServer_cases device transport server s
  · rw [hstart]
    refine ⟨(hafter none).symm, ordered_append h.ordered (Or.inl rfl), hserver, h.count_le, ?_⟩
    intro hsettled
    rw [settled, List.foldl_append] at hsettled
    cases hsettled
  · rw [hstart]
    refine ⟨(hafter (some _)).symm, ordered_append h.ordered (Or.inl rfl), hserver, ?_,
      fun _ => ⟨rfl, rfl⟩⟩
    dsimp only
    rw [UInt32.toNat_ofNat_of_lt' (Nat.lt_of_le_of_lt hserver (by decide))]
    exact hserver

theorem loadModule_neg : Triple (fun _ => True) (loadModule irx irxSize)
    fun loaded _ => ∀ result, loaded = .error result → result < 0 := by
  refine Triple.last fun first => Triple.ite (fun _ => ?_) fun _ => ?_
  · refine Triple.last fun patched => Triple.ite (fun _ => ?_) fun _ => ?_
    · exact Triple.pure fun _ _ result h => by
        cases h
        omega
    · refine Triple.last fun second => Triple.pure fun _ _ result h => ?_
      split at h
      · cases h
        omega
      · cases h
  · exact Triple.pure fun _ _ result h => nomatch h

/-- Before its bind, a start fails with an error. -/
theorem connect_neg : Triple (fun _ => True) (connect irx irxSize)
    fun connected _ => ∀ result, connected = some result → result < 0 := by
  refine Triple.last fun sif => Triple.ite (fun _ => ?_) fun _ => ?_
  · exact Triple.pure fun _ _ result h => by
      cases h
      omega
  refine Triple.bind _ loadModule_neg fun loaded => ?_
  cases loaded with
  | error code => exact Triple.pure fun _ hcode result h => hcode result (by cases h; rfl)
  | ok moduleResult =>
    refine Triple.ite (fun _ => Triple.pure fun _ _ result h => ?_) fun _ => ?_
    · cases h
      omega
    · refine Triple.last fun bind => Triple.pure fun _ _ result h => ?_
      split at h
      · cases h
        omega
      · split at h
        · cases h
          decide
        · cases h

variable (irx irxSize found device transport) in
theorem storageInit_eq (s : Session) :
    storageInit irx irxSize found device transport s =
      if s.storage.bound = true then (0, s)
      else
        let connected := connect irx irxSize s.machine
        match connected.1 with
        | some result => (result, { s with machine := connected.2 })
        | none =>
          let ran := startServer device transport (found connected.2.calls) s.storage
          (ran.1, { s with machine := connected.2, storage := ran.2 }) := by
  change (if s.storage.bound = true then pure 0 else _ : StateM Session ℤ) s = _
  rw [ite_run]
  split
  · rfl
  · rw [bind_apply]
    dsimp only [onMachine]
    cases (connect irx irxSize s.machine).1 with
    | some result => rfl
    | none => rfl

variable (irx irxSize found device transport) in
/-- The start of a client : it is bound already, it cannot be connected, or its server is
started. -/
theorem storageInit_cases (s : Session) :
    let inited := storageInit irx irxSize found device transport s
    inited.2.mem = s.mem ∧
      (s.storage.bound = true ∧ inited = (0, s)
      ∨ s.storage.bound = false ∧ inited.1 < 0 ∧ inited.2.storage = s.storage
      ∨ s.storage.bound = false ∧ ∃ n,
        (inited.1, inited.2.storage) = startServer device transport (found n) s.storage) := by
  dsimp only
  rw [storageInit_eq]
  split
  · next hbound => exact ⟨rfl, Or.inl ⟨hbound, rfl⟩⟩
  · next hbound =>
    have hunbound : s.storage.bound = false := by simpa using hbound
    dsimp only
    split
    · next result hresult =>
      exact ⟨rfl, Or.inr (Or.inl ⟨hunbound, connect_neg _ trivial _ hresult, rfl⟩)⟩
    · exact ⟨rfl, Or.inr (Or.inr ⟨hunbound, _, rfl⟩)⟩

/-- A start that succeeds leaves the client bound, to the server that it had or to one it found. -/
theorem storageInit_bound {s : Session}
    (h : 0 ≤ (storageInit irx irxSize found device transport s).1) :
    let inited := storageInit irx irxSize found device transport s
    inited.2.storage.bound = true ∧
      (if s.storage.bound then inited.2.storage.server = s.storage.server
      else ∃ n, inited.2.storage.server = found n) := by
  dsimp only
  obtain ⟨-, ⟨hbound, hinited⟩ | ⟨-, hneg, -⟩ | ⟨hunbound, n, hinited⟩⟩ :=
    storageInit_cases irx irxSize found device transport s
  · rw [hinited]
    exact ⟨hbound, by rw [if_pos hbound]⟩
  · exact absurd hneg (Int.not_lt.2 h)
  · obtain ⟨code, hneg, hstart⟩ | hstart := startServer_cases device transport (found n) s.storage
    · rw [hstart] at hinited
      obtain ⟨hcode, -⟩ := Prod.mk.inj hinited
      exact absurd hneg (hcode ▸ Int.not_lt.2 h)
    · rw [hstart] at hinited
      rw [(Prod.mk.inj hinited).2, hunbound]
      exact ⟨rfl, n, rfl⟩

variable (irx irxSize found device transport) in
/-- A scan starts the client when it is not bound, and fails with the start. -/
theorem storageScan_eq (s : Session) :
    storageScan irx irxSize found device transport s =
      let inited := storageInit irx irxSize found device transport s
      if inited.1 < 0 then inited
      else
        let scanned := IopStorage.storageRpc device transport .scan {} inited.2.storage
        (scanned.1, { inited.2 with storage := scanned.2 }) := by
  cases hbound : s.storage.bound with
  | false =>
    simp only [storageScan, bind_apply, get_apply, hbound, if_true, ite_run]
    rfl
  | true =>
    rw [storageInit_eq, if_pos hbound]
    simp only [storageScan, bind_apply, get_apply, hbound, ite_run]
    rfl

theorem Kept.storageInit {s : Session} (h : Kept s.storage)
    (hfound : ∀ n, (found n).devices.length ≤ maxDevices) :
    Kept (storageInit irx irxSize found device transport s).2.storage := by
  obtain ⟨-, ⟨-, hinited⟩ | ⟨-, -, hsame⟩ | ⟨-, n, hinited⟩⟩ :=
    storageInit_cases irx irxSize found device transport s
  · rw [hinited]
    exact h
  · rw [hsame]
    exact h
  · rw [(Prod.mk.inj hinited).2]
    exact h.startServer (hfound n)

/-- A call of a program keeps the client close to its server. -/
theorem Kept.run {s : Session} (h : Kept s.storage)
    (hfound : ∀ n, (found n).devices.length ≤ maxDevices) (call : ApiCall) :
    Kept (call.run irx irxSize found device transport s).2.storage := by
  cases call with
  | init => exact h.storageInit hfound
  | scan =>
    have hinited : Kept (IopStorage.storageInit irx irxSize found device transport s).2.storage :=
      h.storageInit hfound
    refine (congrArg (fun r => Kept (Prod.snd r).storage)
      (storageScan_eq irx irxSize found device transport s)).mpr ?_
    dsimp only
    split
    · exact hinited
    · next hstarted =>
      have hbound := (storageInit_bound (Int.not_lt.1 hstarted)).1
      exact (hinited.storageRpc hbound (by simp) {}).1
  | access a =>
    cases hbound : s.storage.bound with
    | false =>
      have hsame := access_unbound device transport hbound a s.mem
      exact (congrArg (fun r => Kept r.2) hsame).mpr h
    | true =>
      have hkept : KeptByRequests device transport fun s => Kept s ∧ s.bound = true :=
        fun function request s hs => hs.1.storageRpc hs.2 (by simp) request
      exact (hkept.access a s.mem s.storage ⟨h, hbound⟩).1
  | store address bytes => exact h

variable (irx irxSize device transport) in
/-- After any session, whatever becomes of its calls : the client is bound exactly when its last
start was answered, nothing was asked of a server before that, and the client knows what its
server knows, unless a scan or a start after the last answer went without one. -/
theorem session_known (hfound : ∀ n, (found n).devices.length ≤ maxDevices)
    (machine : IopModules.Machine) (mem : Memory) (calls : List ApiCall) :
    Kept (runCalls irx irxSize found device transport calls
      ⟨machine, .unbound (found 0), mem⟩).2.storage := by
  have hrun : ∀ s : Session, Kept s.storage →
      Kept (runCalls irx irxSize found device transport calls s).2.storage := by
    induction calls with
    | nil => exact fun _ hs => hs
    | cons call calls ih => exact fun s hs => ih _ (hs.run hfound call)
  exact hrun _ (Kept.unbound (hfound 0))

/-! ## What a scan found -/

/-- The client and its server have these devices and diagnostics. -/
structure Listed (devices : List DeviceInfo) (diag : ScanDiag) (s : Storage) : Prop where
  bound : s.bound = true
  server_devices : s.server.devices = devices
  server_diag : s.server.scanDiag = diag
  count : s.deviceCount = UInt32.ofNat devices.length
  diag_eq : s.scanDiag = diag

variable {devices : List DeviceInfo} {diag : ScanDiag}

theorem keptByRequests_listed :
    KeptByRequests device transport (Listed devices diag) := by
  intro function request s hs
  obtain ⟨hdevices, hdiag⟩ := rpcHandler_keeps device function request s.server
  obtain ⟨-, result, server, hneg, hserver, hcalled⟩ | ⟨-, hcalled⟩ :=
    storageRpc_cases device transport (.onDevice function) request s
  · rw [hcalled]
    rcases hserver with rfl | rfl
    · exact ⟨hs.bound, hs.server_devices, hs.server_diag, hs.count, hs.diag_eq⟩
    · exact ⟨hs.bound, hdevices.trans hs.server_devices, hdiag.trans hs.server_diag, hs.count,
        hs.diag_eq⟩
  · obtain ⟨hcount, hknown⟩ := rpcHandler_known device (.onDevice function) request s.server
    rw [hcalled]
    refine ⟨hs.bound, hdevices.trans hs.server_devices, hdiag.trans hs.server_diag, ?_,
      hknown.trans (hdiag.trans hs.server_diag)⟩
    rw [hcount, hdevices, hs.server_devices]

variable (irx irxSize found device transport) in
/-- Only a scan changes what is listed. -/
theorem Listed.runCalls {calls : List ApiCall} (hcalls : .scan ∉ calls) {s : Session}
    (hs : Listed devices diag s.storage) :
    Listed devices diag (runCalls irx irxSize found device transport calls s).2.storage := by
  induction calls generalizing s with
  | nil => exact hs
  | cons call calls ih =>
    obtain ⟨hcall, hrest⟩ := List.ne_and_not_mem_of_not_mem_cons hcalls
    refine ih hrest ?_
    cases call with
    | scan => exact absurd rfl hcall
    | init =>
      refine (congrArg (fun r => Listed devices diag (Prod.snd r).storage)
        (storageInit_eq irx irxSize found device transport s)).mpr ?_
      rw [if_pos hs.bound]
      exact hs
    | access a => exact keptByRequests_listed.access a s.mem s.storage hs
    | store address bytes => exact hs

/-- A bound client that makes the call. -/
theorem ite_unbound {α : Type} {s : Storage} (hbound : s.bound = true) (a : α)
    (x : StateM Storage α) :
    (if s.bound = false then pure a else x : StateM Storage α) s = x s := by
  rw [if_neg (by rw [hbound]; decide)]

theorem ite_unbound_or {α : Type} {s : Storage} (hbound : s.bound = true) {p : Prop} [Decidable p]
    (a : α) (x : StateM Storage α) :
    (if s.bound = false ∨ p then pure a else x : StateM Storage α) s =
      if p then (a, s) else x s := by
  have hcond : (s.bound = false ∨ p) ↔ p := by
    simp [hbound]
  rw [ite_run, if_congr hcond rfl rfl]
  rfl

variable (device transport) in
theorem getDevice_bound {s : Storage} (hbound : s.bound = true) (index : UInt32) (wanted : Bool) :
    getDevice device transport index wanted s =
      if wanted = false ∨ s.deviceCount ≤ index then ((-1, none), s)
      else
        let called := storageRpc device transport (.onDevice .getDevice) { index := index } s
        (if called.1 < 0 then (called.1, none) else (0, some called.2.reply.device), called.2) :=
  ite_unbound_or hbound _ _

/-- A listed device is given out, or the call was not answered. -/
theorem Listed.getDevice {s : Storage} (hs : Listed devices diag s)
    (hle : devices.length ≤ maxDevices) (index : UInt32) :
    let got := (getDevice device transport index true s).1
    (got.1 < 0 ∧ got.2 = none ∧
      (devices.length ≤ index.toNat ∨ transport s.calls ≠ .answered))
    ∨ ∃ info, got = (0, some info) ∧ devices[index.toNat]? = some info := by
  have hcount : s.deviceCount.toNat = devices.length := by
    rw [hs.count, UInt32.toNat_ofNat_of_lt' (Nat.lt_of_le_of_lt hle (by decide))]
  have hcond : (true = false ∨ s.deviceCount ≤ index) ↔ s.deviceCount ≤ index := by
    simp
  dsimp only
  rw [getDevice_bound device transport hs.bound, if_congr hcond rfl rfl]
  split
  · next hout =>
    rw [UInt32.le_iff_toNat_le, hcount] at hout
    exact Or.inl ⟨show (-1 : ℤ) < 0 by decide, rfl, Or.inl hout⟩
  · next hin =>
    rw [UInt32.le_iff_toNat_le, hcount, Nat.not_le] at hin
    obtain ⟨hlost, result, server, hneg, -, hcalled⟩ | ⟨-, hcalled⟩ :=
      storageRpc_cases device transport (.onDevice .getDevice) { index := index } s
    · rw [hcalled]
      dsimp only
      rw [if_pos hneg]
      exact Or.inl ⟨hneg, rfl, Or.inr hlost⟩
    · obtain ⟨info, hinfo⟩ : ∃ info, s.server.devices[index.toNat]? = some info :=
        ⟨_, List.getElem?_eq_getElem (hs.server_devices ▸ hin)⟩
      rw [rpcHandler_onDevice] at hcalled
      dsimp only at hcalled
      rw [hinfo] at hcalled
      rw [hcalled]
      exact Or.inr ⟨info, rfl, hs.server_devices ▸ hinfo⟩

end Sessions

/-! ## A session -/

/-- A machine on which every call succeeds, and the module stays resident. -/
def readyMachine : IopModules.Machine where
  heapBound := false
  loadfileBound := false
  iop _ := 0
  outcomes n := ⟨1, fun i => if i = 0 then UInt32.ofNat (n + 1) else 0, fun _ => 0⟩
  calls := 0
  blocks := []

/-- The server of a module that was just started. -/
def freshServer : Server :=
  ⟨boot, [], .zero⟩

def freshSession : Session :=
  ⟨readyMachine, .unbound freshServer, fun _ => 0⟩

/-- A scan whose answer is lost, after the start of the client. -/
theorem session_known_fresh : Kept (runCalls (fun _ => 0) 16 (fun _ => freshServer) geometryOnly
    (fun calls => if calls.length = 1 then .timedOut true else .answered) [.scan, .init]
    freshSession).2.storage :=
  session_known (fun _ => 0) 16 geometryOnly _ (fun _ => by decide) readyMachine (fun _ => 0) _

end EF2SDK.IopStorage
