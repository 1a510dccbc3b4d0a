import EF2SDK.Storage

/-!
# The names that reach an MMCE

`ef2_storage_mmce_open` and `ef2_storage_mmce_set_game_id` copy the caller's name into the
path of the request, which holds 239 characters and the terminator; the handler passes it on,
and the backend sends it to the device with its terminator. Both backends measure the name
within limits that a name in a request never exceeds (`sentName_eq`), so that the test for a
too long game ID never rejects one. The device is therefore sent the name exactly when it has
at most 239 characters, and a prefix of it otherwise. It takes the name when it acknowledges the
header of an open and answers the packet with the name.
-/

set_option autoImplicit false

namespace EF2SDK.IopStorage

/-! ## The copy in the request -/

theorem copyChars_eq (source : List UInt8) (n : ℕ) :
    copyChars source (n + 1) = source.take n ++ [0] := by
  induction source generalizing n with
  | nil => simp [copyChars]
  | cons c source ih =>
    cases n with
    | zero => rfl
    | succ n => simp [copyChars, ih]

/-- The characters of a name that a request has room for. -/
def CString.cut (text : CString) : List UInt8 :=
  text.chars.take (pathMax - 1)

theorem CString.zero_not_mem_cut (text : CString) : 0 ∉ text.cut := fun h =>
  text.nonzero (List.mem_of_mem_take h)

theorem CString.length_cut (text : CString) : text.cut.length ≤ pathMax - 1 :=
  List.length_take_le _ _

/-- The path of a request : the name, cut, with its terminator. -/
theorem path_eq (text : CString) :
    ∃ zeros, (padded pathMax (storageCopyString text pathMax)).toList
      = text.cut ++ 0 :: zeros := by
  have hcopy : storageCopyString text pathMax = text.cut ++ [0] :=
    copyChars_eq text.chars (pathMax - 1)
  have hlen := text.length_cut
  refine ⟨List.replicate (pathMax - (text.cut ++ [0]).length) 0, ?_⟩
  rw [hcopy, toList_padded, List.append_assoc]
  · rfl
  · rw [List.length_append]
    exact Nat.add_le_add_right hlen 1

/-! ## What is measured and sent -/

theorem stringLength_append {text : List UInt8} (rest : List UInt8) (h : 0 ∉ text)
    {limit : ℕ} (hlimit : text.length ≤ limit) :
    stringLength (text ++ 0 :: rest) limit = text.length := by
  induction text generalizing limit with
  | nil => cases limit <;> rfl
  | cons c text ih =>
    rw [List.mem_cons, not_or] at h
    cases limit with
    | zero => exact absurd hlimit (Nat.not_succ_le_zero _)
    | succ limit =>
      rw [List.cons_append, stringLength, if_pos (Ne.symm h.1),
        ih h.2 (Nat.le_of_succ_le_succ hlimit), List.length_cons]

/-- Both backends find the end of a name in a request. -/
theorem sentName_eq (text : CString) (limit : ℕ) (hlimit : pathMax - 1 ≤ limit) :
    let path := (padded pathMax (storageCopyString text pathMax)).toList
    stringLength path limit = text.cut.length
      ∧ path.take text.cut.length = text.cut
      ∧ path.take (text.cut.length + 1) = text.cut ++ [0] := by
  obtain ⟨zeros, hpath⟩ := path_eq text
  dsimp only
  rw [hpath]
  refine ⟨stringLength_append zeros text.zero_not_mem_cut
    (Nat.le_trans text.length_cut hlimit), List.take_left, ?_⟩
  rw [show text.cut ++ 0 :: zeros = (text.cut ++ [0]) ++ zeros by simp]
  exact List.take_left' (by simp)

/-! ## The names in the exchanges -/

/-- The packet starts a game ID command (`0x08`) or an open (`0x40`). -/
def NameCommand (tx : List UInt8) : Prop :=
  tx.getD 0 0 = mmceId ∧ (tx.getD 1 0 = 0x08 ∨ tx.getD 1 0 = 0x40)

instance (tx : List UInt8) : Decidable (NameCommand tx) :=
  inferInstanceAs (Decidable (_ ∧ _))

/-- The names that a device reads from the packets it is sent : a game ID is announced with its
length, and the packet after that of an open is the path. -/
def namesSent : List (List UInt8) → List (List UInt8)
  | [] => []
  | tx :: packets =>
    if tx.getD 0 0 = mmceId ∧ tx.getD 1 0 = 0x08 then
      (tx.drop 4).take (tx.getD 3 0).toNat :: namesSent packets
    else if tx.getD 0 0 = mmceId ∧ tx.getD 1 0 = 0x40 then
      match packets with
      | [] => []
      | path :: packets => path :: namesSent packets
    else
      namesSent packets

/-- The packets of the exchanges that were answered : whether it reached the device is not known
of another packet. -/
def packetsTaken (exchanges : List Exchange) : List (List UInt8) :=
  (exchanges.filter fun e => e.answer.isSome).map fun e => e.request.tx

/-- The exchanges made between two states of the backends. -/
def exchangesMade (b b' : Backend) : List Exchange :=
  b'.log.drop b.log.length

variable {device : Device} {transport : Transport}

/-- The requests, made one after the other, with their answers. -/
def Backend.exchanges (device : Device) (b : Backend) : List Request → List Exchange
  | [] => []
  | q :: qs => ⟨q, device.answer b.log q⟩ :: (b.exchange device q).exchanges device qs

theorem packetsTaken_exchanges (b : Backend) (q : Request) (qs : List Request) :
    packetsTaken (b.exchanges device (q :: qs))
      = (if (device.answer b.log q).isSome then [q.tx] else [])
        ++ packetsTaken ((b.exchange device q).exchanges device qs) := by
  rw [Backend.exchanges, packetsTaken, List.filter_cons]
  split <;> rfl

theorem exchangesMade_self (b : Backend) : exchangesMade b b = [] :=
  List.drop_length

theorem exchangesMade_foldl (b : Backend) (qs : List Request) :
    exchangesMade b (qs.foldl (Backend.exchange device) b) = b.exchanges device qs := by
  have hlog (b : Backend) :
      (qs.foldl (Backend.exchange device) b).log = b.log ++ b.exchanges device qs := by
    induction qs generalizing b with
    | nil => exact (List.append_nil _).symm
    | cons q qs ih =>
      rw [List.foldl_cons, ih, Backend.exchanges]
      simp [Backend.exchange]
  rw [exchangesMade, hlog, List.drop_left]

theorem gameIdPacket_take {path text : List UInt8} (h : path.take text.length = text) :
    gameIdPacket path text.length = gameIdPacket text text.length := by
  rw [gameIdPacket, gameIdPacket, h, List.take_length]

/-- The game ID command, with the name that the request carries. -/
theorem namesSent_gameId (text : CString) :
    namesSent [gameIdPacket text.cut text.cut.length] = [text.cut ++ [0]] := by
  have hlen : text.cut.length ≤ 239 := text.length_cut
  have hsize : (UInt8.ofNat (text.cut.length + 1)).toNat = text.cut.length + 1 := by
    rw [UInt8.toNat_ofNat']
    exact Nat.mod_eq_of_lt (by omega)
  have htake : (text.cut ++ [0, 0xFF]).take (text.cut.length + 1) = text.cut ++ [0] := by
    rw [show text.cut ++ [0, 0xFF] = (text.cut ++ [0]) ++ [0xFF] by simp]
    exact List.take_left' (by simp)
  simp only [gameIdPacket, List.take_length, namesSent, List.cons_append, List.nil_append,
    List.drop_succ_cons, List.drop_zero, List.getD_cons_succ, List.getD_cons_zero, hsize, htake,
    and_self, if_true]

/-- The device takes the request and acknowledges it. -/
def Acknowledges (device : Device) (b : Backend) (q : Request) : Prop :=
  0 ≤ (received (device.answer b.log q)).1
    ∧ (received (device.answer b.log q)).2.getD 1 0 = mmceReply

instance (b : Backend) (q : Request) : Decidable (Acknowledges device b q) :=
  inferInstanceAs (Decidable (_ ∧ _))

theorem isSome_of_received {answer : Option (List UInt8)} (h : 0 ≤ (received answer).1) :
    answer.isSome := by
  cases answer with
  | none => exact absurd h (by decide)
  | some rx => rfl

theorem received_of_isSome {answer : Option (List UInt8)} (h : answer.isSome) :
    ¬(received answer).1 < 0 := by
  cases answer with
  | none => cases h
  | some rx => exact Int.lt_irrefl 0

theorem received_of_not_isSome {answer : Option (List UInt8)} (h : ¬answer.isSome) :
    (received answer).1 < 0 := by
  cases answer with
  | none => decide
  | some rx => exact absurd rfl h

variable (device) in
/-- The exchange of `ef2_storage_backend_mmce_set_game_id`. -/
theorem backendMmceSetGameId_exchanges {info : DeviceInfo} (h : mmceValidDevice info = true)
    {path : List UInt8} {n : ℕ} (hlength : stringLength path (gameIdMax - 1) = n) (hn : n ≤ 239)
    (b : Backend) :
    exchangesMade b (backendMmceSetGameId device info path b).2
      = b.exchanges device [mmceRequest info.physicalPort (gameIdPacket path n) 2] := by
  have hmax : ¬gameIdMax < n + 1 := Nat.not_lt.mpr (show n + 1 ≤ 250 by omega)
  have hpacket : (gameIdPacket path n).length ≤ 256 := by
    simp [gameIdPacket]
    omega
  simp only [backendMmceSetGameId, h, Bool.true_eq_false, if_false, hlength, hmax,
    mmceSetPacket, bind_apply, ite_run, pure_apply,
    mmceExchange_run device (port_lt_of_valid h) hpacket (show 2 ≤ 256 by decide)]
  split_ifs <;> exact exchangesMade_foldl b [_]

variable (device) in
/-- The exchanges of `ef2_storage_backend_mmce_open` : the header, the path once the header is
acknowledged, and the footer once the path is taken. -/
theorem backendMmceOpen_exchanges {info : DeviceInfo} (h : mmceValidDevice info = true)
    {path : List UInt8} {n : ℕ} (hlength : stringLength path (pathMax - 1) = n) (hn : n ≤ 239)
    (flags : UInt32) (b : Backend) :
    let header := mmceRequest info.physicalPort (openPacket flags) 5
    let name := mmceRequest info.physicalPort (path.take (n + 1)) (n + 1)
    let made := exchangesMade b (backendMmceOpen device info path flags b).2
    if Acknowledges device b header then
      if (device.answer (b.exchange device header).log name).isSome then
        made = b.exchanges device [header, name, mmceRequest info.physicalPort [] 3]
      else
        made = b.exchanges device [header, name]
    else
      made = b.exchanges device [header] := by
  intro header name made
  have hport := port_lt_of_valid h
  have htake : (path.take (n + 1)).length ≤ 256 :=
    Nat.le_trans (List.length_take_le _ _) (by omega)
  have hmade : made = exchangesMade b (backendMmceOpen device info path flags b).2 := rfl
  simp only [backendMmceOpen, h, Bool.true_eq_false, if_false, hlength, bind_apply, ite_run,
    pure_apply, mmceExchange_run device hport (show (openPacket flags).length ≤ 256 from
      Nat.le_of_ble_eq_true rfl) (show 5 ≤ 256 by decide),
    mmceExchange_run device hport htake (show n + 1 ≤ 256 by omega),
    mmceExchange_run device hport (show ([] : List UInt8).length ≤ 256 by decide)
      (show 3 ≤ 256 by decide)] at hmade
  by_cases hack : Acknowledges device b header
  · rw [if_neg (not_or.mpr ⟨Int.not_lt.mpr hack.1, not_not.mpr hack.2⟩)] at hmade
    rw [if_pos hack]
    by_cases htaken : (device.answer (b.exchange device header).log name).isSome
    · rw [if_neg (received_of_isSome htaken)] at hmade
      rw [if_pos htaken, hmade]
      split_ifs <;> exact exchangesMade_foldl b [_, _, _]
    · rw [if_pos (received_of_not_isSome htaken)] at hmade
      rw [if_neg htaken, hmade]
      exact exchangesMade_foldl b [_, _]
  · have hheader := not_and_or.mp hack
    rw [Int.not_le] at hheader
    rw [if_pos hheader] at hmade
    rw [if_neg hack, hmade]
    exact exchangesMade_foldl b [_]

/-! ## The two calls -/

/-- A call gets as far as a command : its request is handled, and it names an MMCE. -/
def ReachesMmce (transport : Transport) (index : UInt32) (s : Storage) : Prop :=
  s.bound = true ∧ (transport s.calls).handled = true
    ∧ ∃ info, s.server.devices[index.toNat]? = some info ∧ mmceValidDevice info = true

/-- A call that carries a name. -/
inductive NameCall where
  | setGameId (gameId : CString)
  | open (path : CString) (flags : UInt32)

namespace NameCall

def name : NameCall → CString
  | setGameId gameId => gameId
  | «open» path _ => path

/-- `ef2_storage_mmce_set_game_id` or `ef2_storage_mmce_open`. -/
def exec (device : Device) (transport : Transport) (index : UInt32) :
    NameCall → StateM Storage ℤ
  | setGameId gameId => mmceSetGameId device transport index (some gameId)
  | «open» path flags => mmceOpen device transport index (some path) flags

/-- The exchanges that the call makes with the devices. -/
def exchanges (device : Device) (transport : Transport) (index : UInt32) (c : NameCall)
    (s : Storage) : List Exchange :=
  exchangesMade s.server.backend (c.exec device transport index s).2.server.backend

/-- The request with the name. -/
def request (index : UInt32) : NameCall → DeviceFunction × RpcRequest
  | setGameId gameId => (.mmceSetGameId, gameIdRequest index gameId)
  | «open» path flags => (.mmceOpen, openRequest index path flags)

/-- The device `info` takes the characters `text` from the call : it answers the packet with them,
which for an open comes after a header that it acknowledges. -/
def TakenBy (device : Device) (b : Backend) (info : DeviceInfo) (text : List UInt8) :
    NameCall → Prop
  | setGameId _ =>
    (device.answer b.log (mmceRequest info.physicalPort (gameIdPacket text text.length) 2)).isSome
  | «open» _ flags =>
    let header := mmceRequest info.physicalPort (openPacket flags) 5
    Acknowledges device b header
      ∧ (device.answer (b.exchange device header).log
          (mmceRequest info.physicalPort (text ++ [0]) (text.length + 1))).isSome

/-- The device of the call takes the caller's name. -/
def Taken (device : Device) (index : UInt32) (s : Storage) (c : NameCall) : Prop :=
  ∀ info, s.server.devices[index.toNat]? = some info →
    c.TakenBy device s.server.backend info c.name.chars

end NameCall

/-- The call fails before a command with a name is sent, or one name reaches the device, which is
the caller's. -/
def NameExact (name : CString) (result : ℤ) (exchanges : List Exchange) : Prop :=
  (result < 0 ∧ ∀ e ∈ exchanges, ¬NameCommand e.request.tx)
    ∨ namesSent (packetsTaken exchanges) = [name.chars ++ [0]]

theorem nameCommand_openPacket (flags : UInt32) : NameCommand (openPacket flags) :=
  ⟨rfl, Or.inr rfl⟩

theorem nameCommand_gameIdPacket (gameId : List UInt8) (n : ℕ) :
    NameCommand (gameIdPacket gameId n) :=
  ⟨rfl, Or.inl rfl⟩

theorem namesSent_openPacket (flags : UInt32) (packets : List (List UInt8)) :
    namesSent (openPacket flags :: packets) = packets.head?.toList ++ namesSent packets.tail := by
  have hfirst : ¬((openPacket flags).getD 0 0 = mmceId ∧ (openPacket flags).getD 1 0 = 0x08) :=
    fun h => absurd h.2 (show (0x40 : UInt8) ≠ 0x08 by decide)
  cases packets <;> rw [namesSent, if_neg hfirst, if_pos ⟨rfl, rfl⟩] <;> rfl

variable (device) in
/-- A device that is no MMCE is sent nothing. -/
theorem deviceCall_of_invalid {info : DeviceInfo} (h : mmceValidDevice info = false)
    (c : NameCall) (index : UInt32) (b : Backend) :
    (deviceCall device (c.request index).1 (c.request index).2 info b).1.result = -1
      ∧ (deviceCall device (c.request index).1 (c.request index).2 info b).2 = b := by
  cases c with
  | setGameId gameId =>
    change (backendMmceSetGameId device info _ b).1 = -1
      ∧ (backendMmceSetGameId device info _ b).2 = b
    rw [backendMmceSetGameId, if_pos h]
    exact ⟨rfl, rfl⟩
  | «open» path flags =>
    change (RpcReply.ofValue (backendMmceOpen device info _ flags b).1).result = -1
      ∧ (backendMmceOpen device info _ flags b).2 = b
    rw [backendMmceOpen, if_pos h]
    exact ⟨rfl, rfl⟩

variable (device) in
/-- An MMCE is sent a command, and takes the name, cut to what a request holds, or none. -/
theorem deviceCall_exchanges {info : DeviceInfo} (h : mmceValidDevice info = true) (c : NameCall)
    (index : UInt32) (b : Backend) :
    let made :=
      exchangesMade b (deviceCall device (c.request index).1 (c.request index).2 info b).2
    (∃ e ∈ made, NameCommand e.request.tx)
      ∧ (c.TakenBy device b info c.name.cut → namesSent (packetsTaken made) = [c.name.cut ++ [0]])
      ∧ (¬c.TakenBy device b info c.name.cut → namesSent (packetsTaken made) = []) := by
  intro made
  cases c with
  | setGameId gameId =>
    obtain ⟨hlength, htake, -⟩ := sentName_eq gameId (gameIdMax - 1) (by decide)
    have hmade : made = b.exchanges device
        [mmceRequest info.physicalPort (gameIdPacket _ gameId.cut.length) 2] :=
      backendMmceSetGameId_exchanges device h hlength gameId.length_cut b
    rw [gameIdPacket_take htake] at hmade
    rw [hmade, packetsTaken_exchanges]
    have hby : (NameCall.setGameId gameId).TakenBy device b info gameId.cut
        ↔ (device.answer b.log
          (mmceRequest info.physicalPort (gameIdPacket gameId.cut gameId.cut.length) 2)).isSome :=
      Iff.rfl
    refine ⟨⟨_, List.mem_singleton_self _, nameCommand_gameIdPacket _ _⟩, fun htaken => ?_,
      fun hnot => ?_⟩
    · rw [if_pos (hby.1 htaken)]
      exact namesSent_gameId gameId
    · rw [if_neg (hby.not.1 hnot)]
      rfl
  | «open» path flags =>
    obtain ⟨hlength, -, htake⟩ := sentName_eq path (pathMax - 1) (by decide)
    have hmade := backendMmceOpen_exchanges device h hlength path.length_cut flags b
    dsimp only at hmade
    rw [htake] at hmade
    change if _ then if _ then made = _ else made = _ else made = _ at hmade
    have hcommand {qs : List Request} (h : made = b.exchanges device
        (mmceRequest info.physicalPort (openPacket flags) 5 :: qs)) :
        ∃ e ∈ made, NameCommand e.request.tx := by
      rw [h]
      exact ⟨_, List.mem_cons_self, nameCommand_openPacket flags⟩
    split at hmade
    · next hack =>
      have hheader := isSome_of_received hack.1
      split at hmade
      · next htaken =>
        refine ⟨hcommand hmade, fun _ => ?_, fun hnot => absurd ⟨hack, htaken⟩ hnot⟩
        rw [hmade, packetsTaken_exchanges, if_pos hheader, packetsTaken_exchanges,
          if_pos htaken, packetsTaken_exchanges]
        -- the footer sends nothing that could be read as a name
        split <;> exact namesSent_openPacket flags _
      · next hlost =>
        refine ⟨hcommand hmade, fun h => absurd h.2 hlost, fun _ => ?_⟩
        rw [hmade, packetsTaken_exchanges, if_pos hheader, packetsTaken_exchanges, if_neg hlost]
        exact namesSent_openPacket flags []
    · next hnack =>
      refine ⟨hcommand hmade, fun h => absurd h.1 hnack, fun _ => ?_⟩
      rw [hmade, packetsTaken_exchanges]
      split
      · exact namesSent_openPacket flags []
      · rfl

variable (device transport) in
/-- A bound call is its request : it fails when the request does. -/
theorem exec_of_bound {s : Storage} (h : s.bound = true) (c : NameCall) (index : UInt32) :
    let called :=
      storageRpc device transport (.onDevice (c.request index).1) (c.request index).2 s
    (called.1 < 0 → (c.exec device transport index s).1 < 0)
      ∧ (c.exec device transport index s).2 = called.2 := by
  have hbound : ¬s.bound = false := by rw [h]; decide
  intro called
  cases c with
  | setGameId gameId =>
    have hexec : NameCall.exec device transport index (.setGameId gameId) s = called := by
      change (if s.bound = false then pure (-1) else _ : StateM Storage ℤ) s = called
      rw [if_neg hbound]
      rfl
    rw [hexec]
    exact ⟨id, rfl⟩
  | «open» path flags =>
    have hexec : NameCall.exec device transport index (.open path flags) s
        = (if called.1 < 0 then called.1 else called.2.reply.value, called.2) := by
      change (if s.bound = false then pure (-1) else _ : StateM Storage ℤ) s = _
      rw [if_neg hbound]
      rfl
    rw [hexec]
    exact ⟨fun hneg => by rwa [if_pos hneg], rfl⟩

variable (device transport) in
/-- An unbound call does nothing. -/
theorem exec_of_unbound {s : Storage} (h : s.bound = false) (c : NameCall) (index : UInt32) :
    c.exec device transport index s = (-1, s) := by
  cases c with
  | setGameId gameId =>
    change (if s.bound = false then pure (-1) else _ : StateM Storage ℤ) s = _
    rw [if_pos h]
    rfl
  | «open» path flags =>
    change (if s.bound = false then pure (-1) else _ : StateM Storage ℤ) s = _
    rw [if_pos h]
    rfl

variable (device transport) in
/-- A call fails without having sent anything, or it sends a command. The name, cut to what a
request holds, arrives exactly if the device takes it. -/
theorem exec_exchanges (c : NameCall) (index : UInt32) (s : Storage) :
    let made := c.exchanges device transport index s
    ((c.exec device transport index s).1 < 0 ∧ made = [] ∧ ¬ReachesMmce transport index s)
      ∨ ReachesMmce transport index s ∧ (∃ e ∈ made, NameCommand e.request.tx)
        ∧ ∃ info, s.server.devices[index.toNat]? = some info
          ∧ (c.TakenBy device s.server.backend info c.name.cut
            → namesSent (packetsTaken made) = [c.name.cut ++ [0]])
          ∧ (¬c.TakenBy device s.server.backend info c.name.cut
            → namesSent (packetsTaken made) = []) := by
  intro made
  by_cases hbound : s.bound = true
  · obtain ⟨hfails, hstate⟩ :=
      exec_of_bound device transport hbound c index
    have hcalled :=
      storageRpc_onDevice device transport (c.request index).1 (c.request index).2 s
    have hindex : (c.request index).2.index = index := by
      cases c <;> rfl
    dsimp only at hfails hstate hcalled
    rw [hindex] at hcalled
    have hmade : made = exchangesMade s.server.backend _ :=
      congrArg (fun t => exchangesMade s.server.backend (Storage.server t).backend) hstate
    split at hcalled
    · next hnone =>
      refine Or.inl ⟨hfails hcalled.1, by rw [hmade, hcalled.2, exchangesMade_self], ?_⟩
      rintro ⟨-, hhandled, info, hinfo, -⟩
      rw [if_pos hhandled, hinfo] at hnone
      exact absurd hnone (by simp)
    · next info hsome =>
      obtain ⟨hhandled, hinfo⟩ : (transport s.calls).handled = true
          ∧ s.server.devices[index.toNat]? = some info := by
        split at hsome
        · exact ⟨‹_›, hsome⟩
        · exact absurd hsome (by simp)
      rw [hcalled.2] at hmade
      cases hvalid : mmceValidDevice info with
      | false =>
        obtain ⟨hresult, hsame⟩ := deviceCall_of_invalid device hvalid c index
          s.server.backend
        refine Or.inl ⟨hfails ?_, by rw [hmade, hsame, exchangesMade_self], ?_⟩
        · rw [hresult] at hcalled
          omega
        · rintro ⟨-, -, info', hinfo', hvalid'⟩
          rw [hinfo, Option.some.injEq] at hinfo'
          rw [hinfo', hvalid'] at hvalid
          cases hvalid
      | true =>
        obtain ⟨hcommand, hnames⟩ := deviceCall_exchanges device hvalid c index s.server.backend
        rw [hmade]
        exact Or.inr ⟨⟨hbound, hhandled, info, hinfo, hvalid⟩, hcommand, info, hinfo, hnames⟩
  · have hunbound : s.bound = false := by simpa using hbound
    have hexec := exec_of_unbound device transport hunbound c index
    refine Or.inl ⟨?_, ?_, fun h => hbound h.1⟩
    · rw [hexec]
      exact (show (-1 : ℤ) < 0 by decide)
    · change exchangesMade _ (c.exec device transport index s).2.server.backend = []
      rw [hexec, exchangesMade_self]

/-- The cut name is the name exactly when it fits. -/
theorem CString.cut_eq_iff (name : CString) :
    name.cut = name.chars ↔ name.chars.length < pathMax := by
  constructor
  · intro h
    rw [← h]
    exact Nat.lt_succ_of_le name.length_cut
  · exact fun h => List.take_of_length_le (Nat.le_of_lt_succ h)

/-- A call that gets as far as a command brings the caller's name to the device exactly when the
name fits and the device takes it. -/
theorem names_exact_iff (c : NameCall) (index : UInt32) (s : Storage) :
    NameExact c.name (c.exec device transport index s).1 (c.exchanges device transport index s)
      ↔ ¬ReachesMmce transport index s
        ∨ (c.name.chars.length < pathMax ∧ c.Taken device index s) := by
  rw [← CString.cut_eq_iff]
  rcases exec_exchanges device transport c index s with
    ⟨hfails, hempty, hnot⟩ | ⟨hreaches, ⟨e, hmem, he⟩, info, hinfo, htakes, hnone⟩
  · rw [hempty]
    exact iff_of_true (Or.inl ⟨hfails, by simp⟩) (Or.inl hnot)
  · have htaken : c.Taken device index s
        ↔ c.TakenBy device s.server.backend info c.name.chars := by
      simp [NameCall.Taken, hinfo]
    rw [NameExact, or_iff_right fun h => h.2 e hmem he, or_iff_right (not_not.mpr hreaches),
      htaken]
    by_cases hby : c.TakenBy device s.server.backend info c.name.cut
    · rw [htakes hby, List.cons.injEq, and_iff_left rfl, List.append_left_inj]
      exact ⟨fun hcut => ⟨hcut, hcut ▸ hby⟩, And.left⟩
    · rw [hnone hby]
      refine iff_of_false (List.cons_ne_nil _ _).symm ?_
      rintro ⟨hcut, h⟩
      exact hby (hcut.symm ▸ h)

/-- A name of 240 characters. -/
def longName : CString where
  chars := List.replicate 240 0x61
  nonzero h := absurd (List.eq_of_mem_replicate h) (by decide)

/-- An MMCE on the first port. -/
def oneMmce : Storage where
  bound := true
  deviceCount := 1
  scanDiag := .zero
  reply := {}
  server := ⟨boot, [{ kind := .mmce, physicalPort := 2 }], .zero⟩
  calls := []

/-- A device that acknowledges every command. -/
def acknowledging : Device := fun _ _ => some fun _ => mmceReply

theorem not_nameExact_of_longName {c : NameCall}
    (hc : c ∈ [NameCall.open longName 1, NameCall.setGameId longName]) :
    ¬NameExact c.name (c.exec acknowledging (fun _ => .answered) 0 oneMmce).1
      (c.exchanges acknowledging (fun _ => .answered) 0 oneMmce) := by
  have hname : c.name = longName := by
    simp only [List.mem_cons, List.not_mem_nil, or_false] at hc
    rcases hc with rfl | rfl <;> rfl
  have hby (info : DeviceInfo) :
      c.TakenBy acknowledging oneMmce.server.backend info c.name.cut := by
    simp only [List.mem_cons, List.not_mem_nil, or_false] at hc
    rcases hc with rfl | rfl
    · exact ⟨⟨Int.le_refl 0, rfl⟩, rfl⟩
    · exact rfl
  have hreaches : ReachesMmce (fun _ => .answered) 0 oneMmce := ⟨rfl, rfl, _, rfl, rfl⟩
  rcases exec_exchanges acknowledging (fun _ => .answered) c 0 oneMmce with
    ⟨-, -, hnot⟩ | ⟨-, ⟨e, hmem, he⟩, info, -, htakes, -⟩
  · exact absurd hreaches hnot
  · rintro (⟨-, hall⟩ | hexact)
    · exact hall e hmem he
    · rw [htakes (hby info), hname, List.cons.injEq, and_iff_left rfl] at hexact
      have hlong : longName.chars.length = 240 := List.length_replicate
      have hshort : longName.cut.length ≤ 239 := longName.length_cut
      have hlen := congrArg List.length hexact
      rw [List.length_append, List.length_append] at hlen
      omega

/-- Opened or set as the game ID, the long name reaches the device without its last character. -/
theorem longName_not_exact :
    (¬NameExact longName
        ((NameCall.open longName 1).exec acknowledging (fun _ => .answered) 0 oneMmce).1
        ((NameCall.open longName 1).exchanges acknowledging (fun _ => .answered) 0 oneMmce))
      ∧ ¬NameExact longName
        ((NameCall.setGameId longName).exec acknowledging (fun _ => .answered) 0 oneMmce).1
        ((NameCall.setGameId longName).exchanges acknowledging (fun _ => .answered) 0 oneMmce) :=
  ⟨not_nameExact_of_longName (List.mem_cons_self ..),
    not_nameExact_of_longName (List.mem_cons_of_mem _ (List.mem_singleton_self _))⟩

end EF2SDK.IopStorage
