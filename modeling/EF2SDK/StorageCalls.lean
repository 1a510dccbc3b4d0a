import Mathlib.Algebra.Group.Nat.Defs
import EF2SDK.Storage

/-!
# What a call of the storage module comes to

A call that transfers data fails, or is answered by the device it names (`storageRpc_outcome`),
and what its reply then holds is what the device's backend made of the request. A sector is
transferred whole, and is one that the card has : the driver rejects the sectors from the
card's count on, so that the number of a transferred sector is never the last word. A file
call moves no more bytes than it was asked for : the backends clamp the count that the device
declares.
-/

set_option autoImplicit false

namespace EF2SDK.IopStorage

/-! ## What the backends return -/

section Backends

variable (device : Device)

theorem sio2Exchange_length (q : Request) :
    Triple (fun _ => True) (sio2Exchange device q) fun exchanged _ =>
      ¬exchanged.1 < 0 → exchanged.2.length = q.rxSize := by
  refine Triple.ite (fun _ => Triple.pure fun _ _ h => absurd (by decide) h) fun _ b _ h => ?_
  cases hanswer : device.answer b.log q with
  | none => simp [hanswer] at h
  | some rx =>
    obtain ⟨f, -, rfl⟩ := Option.map_eq_some_iff.mp hanswer
    simp

theorem mxExchange_length (tx : List UInt8) (rxSize : ℕ) :
    Triple (fun _ => True) (mxExchange device tx rxSize) fun exchanged _ =>
      ¬exchanged.1 < 0 → exchanged.2.length = rxSize := by
  refine Triple.ite (fun _ => Triple.pure fun _ _ h => absurd (by decide) h) fun _ => ?_
  refine Triple.last fun b => Triple.bind _ (sio2Exchange_length device _) fun exchanged => ?_
  refine Triple.ite (fun h => Triple.pure fun _ _ h' => absurd h h') fun h => ?_
  refine Triple.pure fun _ hlength _ => ?_
  rw [List.length_map, hlength h, mxRequest]

/-- A sector is read whole, and is one that the card has. -/
theorem mxReadSector_result (sector : UInt32) :
    Triple (fun _ => True) (mxReadSector device sector) fun read _ =>
      read.1 ≤ 0 ∧ (read.1 = 0 → read.2.length = ioChunk ∧ sector.toNat + 1 < 2 ^ 32) := by
  refine Triple.last_check (fun _ _ => by simp) fun b hb => ?_
  have hsector : sector.toNat < b.mxSectorCount.toNat :=
    UInt32.not_le.mp fun h => hb (Or.inr h)
  have hcount := b.mxSectorCount.toNat_lt
  refine Triple.last_check (fun _ _ => by simp) fun _ _ => ?_
  refine Triple.last_check (fun _ _ => by simp) fun _ _ => ?_
  refine Triple.last_check (fun _ _ => by simp) fun _ _ => ?_
  refine Triple.bind _ (mxExchange_length device _ _) fun first => Triple.intro fun hfirst => ?_
  refine Triple.ite (fun _ => Triple.pure fun _ _ => by simp) fun h₁ => ?_
  refine Triple.bind _ (mxExchange_length device _ _) fun second =>
    Triple.intro fun hsecond => ?_
  refine Triple.ite (fun _ => Triple.pure fun _ _ => by simp) fun h₂ => ?_
  refine Triple.last_check (fun _ _ => by simp) fun _ _ => ?_
  refine Triple.last fun _ => Triple.pure fun _ _ => ⟨Int.le_refl _, fun _ => ⟨?_, by omega⟩⟩
  rw [List.length_append, hfirst h₁, hsecond h₂]

theorem mxWriteSector_result (sector : UInt32) (data : Vector UInt8 512) :
    Triple (fun _ => True) (mxWriteSector device sector data) fun result _ =>
      result ≤ 0 ∧ (result = 0 → sector.toNat + 1 < 2 ^ 32) := by
  refine Triple.last_check (fun _ _ => by simp) fun b hb => ?_
  have hsector : sector.toNat < b.mxSectorCount.toNat :=
    UInt32.not_le.mp fun h => hb (Or.inr h)
  have hcount := b.mxSectorCount.toNat_lt
  refine Triple.last_check (fun _ _ => by simp) fun _ _ => ?_
  refine Triple.last_check (fun _ _ => by simp) fun _ _ => ?_
  refine Triple.last_check (fun _ _ => by simp) fun _ _ => ?_
  refine Triple.last_check (fun _ _ => by simp) fun _ _ => ?_
  refine Triple.last_check (fun _ _ => by simp) fun _ _ => ?_
  refine Triple.last_check (fun _ _ => by simp) fun _ _ => ?_
  refine Triple.last_check (fun _ _ => by simp) fun _ _ => ?_
  refine Triple.ite (fun _ => Triple.pure fun _ _ => by simp) fun _ => ?_
  refine Triple.last_check (fun _ _ => by simp) fun _ _ => ?_
  exact Triple.last fun _ => Triple.pure fun _ _ => ⟨Int.le_refl _, fun _ => by omega⟩

theorem mmceReceive_length (port : UInt32) (left : ℕ) (data : List UInt8) :
    Triple (fun _ => True) (mmceReceive device port left data) fun received _ =>
      received.1 = true → received.2.length = data.length + left := by
  induction left, data using mmceReceive.induct with
  | case1 left data hleft chunk ih =>
    rw [mmceReceive, if_pos hleft]
    refine Triple.bind _ (sio2Exchange_length device _) fun exchanged =>
      Triple.intro fun hlength => ?_
    refine Triple.ite (fun _ => Triple.pure fun _ _ h => nomatch h) fun h => ?_
    intro b _ htrue
    have hchunk : (if 256 < left then 256 else left) ≤ left := by
      split
      · exact Nat.le_of_lt ‹_›
      · exact Nat.le_refl _
    refine (ih exchanged b trivial htrue).trans ?_
    rw [List.length_append, hlength h, Nat.add_assoc]
    exact congrArg _ (Nat.add_sub_cancel' hchunk)
  | case2 left data hleft =>
    rw [mmceReceive, if_neg hleft]
    have hzero : left = 0 := Nat.eq_zero_of_not_pos hleft
    exact Triple.pure fun _ _ _ => by rw [hzero]; rfl

/-- The count is one of bytes that were received, whatever the device declares. -/
theorem backendMmceRead_result (info : DeviceInfo) (fd : ℤ) (size : ℕ) :
    Triple (fun _ => True) (backendMmceRead device info fd size) fun read _ =>
      0 ≤ read.1 → read.1 ≤ size ∧ read.2.length = size := by
  refine Triple.ite (fun _ => Triple.pure fun _ _ => by simp) fun _ => ?_
  refine Triple.last_check (fun _ _ => by simp) fun _ _ => ?_
  refine Triple.bind _ (mmceReceive_length device _ _ _) fun received =>
    Triple.intro fun hreceived => ?_
  refine Triple.ite (fun _ => Triple.pure fun _ _ => by simp) fun htrue => ?_
  refine Triple.last fun footer => ?_
  refine Triple.ite (fun _ => Triple.pure fun _ _ => by simp) fun _ => ?_
  refine Triple.ite (fun _ => Triple.pure fun _ _ => by simp) fun _ => ?_
  refine Triple.pure fun _ _ _ => ⟨?_, ?_⟩
  · dsimp only
    split <;> omega
  · simpa using hreceived (by simpa using htrue)

theorem backendMmceWrite_result (info : DeviceInfo) (fd : ℤ) (data : List UInt8) :
    Triple (fun _ => True) (backendMmceWrite device info fd data) fun result _ =>
      result ≤ data.length := by
  refine Triple.ite (fun _ => Triple.pure fun _ _ => by omega) fun _ => ?_
  refine Triple.last_check (fun _ _ => by omega) fun _ _ => ?_
  refine Triple.last fun ready => ?_
  match ready with
  | none => exact Triple.pure fun _ _ => by omega
  | some false => exact Triple.pure fun _ _ => by omega
  | some true =>
    refine Triple.last_check (fun _ _ => by omega) fun _ _ => ?_
    refine Triple.last fun footer => ?_
    refine Triple.ite (fun _ => Triple.pure fun _ _ => by omega) fun _ => ?_
    refine Triple.ite (fun _ => Triple.pure fun _ _ => by omega) fun _ => ?_
    refine Triple.pure fun _ _ => ?_
    split <;> omega

end Backends

/-! ## Calls -/

/-- A call that failed : no reply came, or one with a negative result. The request may still
have been handled. -/
def CallFailed (device : Device) (devices : List DeviceInfo) (function : DeviceFunction)
    (request : RpcRequest) (b : Backend) (call : Call) (b' : Backend) : Prop :=
  ∃ reply, call = ⟨.onDevice function, request, reply⟩
    ∧ (∀ r ∈ reply, r.result < 0)
    ∧ (b' = b ∨ ∃ info, devices[request.index.toNat]? = some info
      ∧ b' = (deviceCall device function request info b).2)

/-- A call that the device of its request answered. -/
def CallAnswered (devices : List DeviceInfo) (function : DeviceFunction) (request : RpcRequest)
    (info : DeviceInfo) (call : Call) : Prop :=
  devices[request.index.toNat]? = some info
    ∧ ∃ reply, call = ⟨.onDevice function, request, some reply⟩ ∧ 0 ≤ reply.result

/-- A call fails, or its reply is what the device's backend makes of the request. -/
theorem storageRpc_outcome (device : Device) (transport : Transport)
    (function : DeviceFunction) (request : RpcRequest) (s : Storage) :
    let called := storageRpc device transport (.onDevice function) request s
    called.2.server.devices = s.server.devices ∧ ∃ call, called.2.calls = s.calls ++ [call] ∧
      (called.1 < 0 ∧ CallFailed device s.server.devices function request s.server.backend call
          called.2.server.backend
        ∨ 0 ≤ called.1 ∧ ∃ info handled,
          CallAnswered s.server.devices function request info call
            ∧ deviceCall device function request info s.server.backend
              = (handled, called.2.server.backend)
            ∧ called.1 = handled.result ∧ called.2.reply.value = handled.value
            ∧ called.2.reply.dataSize = handled.dataSize
            ∧ called.2.reply.data = handled.data) := by
  dsimp only
  simp only [storageRpc, rpcHandler_onDevice]
  cases transport s.calls with
  | timedOut handled =>
    cases handled with
    | false =>
      exact ⟨rfl, _, rfl, Or.inl ⟨show (-4 : ℤ) < 0 by decide, none, rfl, by simp, Or.inl rfl⟩⟩
    | true =>
      simp only [RpcOutcome.handled, if_true]
      cases hinfo : s.server.devices[request.index.toNat]? with
      | none =>
        exact ⟨rfl, _, rfl,
          Or.inl ⟨show (-4 : ℤ) < 0 by decide, none, rfl, by simp, Or.inl rfl⟩⟩
      | some info =>
        exact ⟨rfl, _, rfl, Or.inl ⟨show (-4 : ℤ) < 0 by decide, none, rfl, by simp,
          Or.inr ⟨info, hinfo, rfl⟩⟩⟩
  | answered =>
    simp only [RpcOutcome.handled, if_true]
    cases hinfo : s.server.devices[request.index.toNat]? with
    | none =>
      refine ⟨rfl, _, rfl, Or.inl ⟨show (-1 : ℤ) < 0 by decide, _, rfl, ?_, Or.inl rfl⟩⟩
      simp [RpcReply.ofResult]
    | some info =>
      refine ⟨rfl, _, rfl, ?_⟩
      by_cases hneg : (deviceCall device function request info s.server.backend).1.result < 0
      · exact Or.inl ⟨hneg, _, rfl, by simpa using hneg, Or.inr ⟨info, hinfo, rfl⟩⟩
      · exact Or.inr ⟨Int.not_lt.mp hneg, info, _, ⟨hinfo, _, rfl, Int.not_lt.mp hneg⟩, rfl,
          rfl, rfl, rfl, rfl⟩
  | noServer =>
    exact ⟨rfl, _, rfl, Or.inl ⟨show (-1 : ℤ) < 0 by decide, none, rfl, by simp, Or.inl rfl⟩⟩
  | noPacket =>
    exact ⟨rfl, _, rfl, Or.inl ⟨show (-2 : ℤ) < 0 by decide, none, rfl, by simp, Or.inl rfl⟩⟩
  | rejected =>
    exact ⟨rfl, _, rfl, Or.inl ⟨show (-3 : ℤ) < 0 by decide, none, rfl, by simp, Or.inl rfl⟩⟩

section Answers

variable {device : Device} {request : RpcRequest} {info : DeviceInfo} {b b' : Backend}
  {handled : RpcReply}

theorem readSector_answered
    (hhandled : deviceCall device .readSector request info b = (handled, b'))
    (h : 0 ≤ handled.result) :
    handled.dataSize = UInt32.ofNat ioChunk ∧ request.sector.toNat + 1 < 2 ^ 32 ∧
      ∃ bytes, handled.data = padded ioChunk bytes ∧ bytes.length = ioChunk
        ∧ backendReadSector device info request.sector b = ((0, bytes), b') := by
  have hread : Triple (fun _ => True) (backendReadSector device info request.sector) fun read _ =>
      read.1 ≤ 0 ∧ (read.1 = 0 → read.2.length = ioChunk ∧ request.sector.toNat + 1 < 2 ^ 32) :=
    Triple.ite (fun _ => Triple.pure fun _ _ => by simp) fun _ => mxReadSector_result device _
  obtain ⟨hnonpos, hzero⟩ := hread b trivial
  obtain ⟨rfl, rfl⟩ := Prod.mk.inj hhandled
  have hresult := Int.le_antisymm hnonpos h
  obtain ⟨hlength, hsector⟩ := hzero hresult
  refine ⟨if_pos hresult, hsector, _, rfl, hlength, ?_⟩
  exact Prod.ext (Prod.ext hresult rfl) rfl

theorem writeSector_answered
    (hhandled : deviceCall device .writeSector request info b = (handled, b'))
    (hsize : request.dataSize = UInt32.ofNat ioChunk) (h : 0 ≤ handled.result) :
    request.sector.toNat + 1 < 2 ^ 32
      ∧ backendWriteSector device info request.sector request.data b = (0, b') := by
  have hwrite : Triple (fun _ => True)
      (backendWriteSector device info request.sector request.data) fun result _ =>
      result ≤ 0 ∧ (result = 0 → request.sector.toNat + 1 < 2 ^ 32) :=
    Triple.ite (fun _ => Triple.pure fun _ _ => by simp) fun _ => mxWriteSector_result device _ _
  obtain ⟨hnonpos, hzero⟩ := hwrite b trivial
  rw [deviceCall, if_neg (not_not.mpr hsize)] at hhandled
  obtain ⟨rfl, rfl⟩ := Prod.mk.inj hhandled
  have hresult := Int.le_antisymm hnonpos h
  exact ⟨hzero hresult, Prod.ext hresult rfl⟩

theorem mmceRead_answered
    (hhandled : deviceCall device .mmceRead request info b = (handled, b'))
    (h : 0 ≤ handled.result) :
    ∃ data, handled.dataSize.toNat ≤ request.dataSize.toNat
      ∧ data.length = request.dataSize.toNat ∧ handled.data = padded ioChunk data
      ∧ backendMmceRead device info request.fd request.dataSize.toNat b
        = (((handled.dataSize.toNat : ℤ), data), b') := by
  have hread := backendMmceRead_result device info request.fd request.dataSize.toNat b trivial
  rw [deviceCall] at hhandled
  split at hhandled
  · obtain ⟨rfl, rfl⟩ := Prod.mk.inj hhandled
    exact absurd h (by decide)
  · change (let read := backendMmceRead device info request.fd request.dataSize.toNat b
      (({ result := if 0 ≤ read.1.1 then 0 else read.1.1
          dataSize := if 0 ≤ read.1.1 then UInt32.ofNat read.1.1.toNat else 0
          data := padded ioChunk read.1.2 } : RpcReply), read.2)) = (handled, b') at hhandled
    generalize backendMmceRead device info request.fd request.dataSize.toNat b = read at *
    obtain ⟨rfl, rfl⟩ := Prod.mk.inj hhandled
    have hnonneg : 0 ≤ read.1.1 := by
      by_contra hneg
      exact hneg (by simpa [if_neg hneg] using h)
    obtain ⟨hle, hlength⟩ := hread hnonneg
    have hcount := request.dataSize.toNat_lt
    have hsize : (UInt32.ofNat read.1.1.toNat).toNat = read.1.1.toNat :=
      UInt32.toNat_ofNat_of_lt' (by
        change read.1.1.toNat < 2 ^ 32
        omega)
    dsimp only
    rw [if_pos hnonneg, hsize]
    refine ⟨read.1.2, by omega, hlength, rfl, ?_⟩
    rw [Int.toNat_of_nonneg hnonneg]
    rfl

theorem mmceWrite_answered
    (hhandled : deviceCall device .mmceWrite request info b = (handled, b'))
    (h : 0 ≤ handled.result) :
    0 ≤ handled.value
      ∧ handled.value ≤ (request.data.toList.take request.dataSize.toNat).length
      ∧ backendMmceWrite device info request.fd
          (request.data.toList.take request.dataSize.toNat) b = (handled.value, b') := by
  have hwrite := backendMmceWrite_result device info request.fd
    (request.data.toList.take request.dataSize.toNat) b trivial
  rw [deviceCall] at hhandled
  split at hhandled
  · obtain ⟨rfl, rfl⟩ := Prod.mk.inj hhandled
    exact absurd h (by decide)
  · change (let written := (backendMmceWrite device info request.fd
        (request.data.toList.take request.dataSize.toNat)) b
      (RpcReply.ofValue written.1, written.2)) = (handled, b') at hhandled
    generalize backendMmceWrite device info request.fd
      (request.data.toList.take request.dataSize.toNat) b = written at *
    obtain ⟨rfl, rfl⟩ := Prod.mk.inj hhandled
    refine ⟨?_, hwrite, rfl⟩
    by_contra hneg
    have hvalue : written.1 < 0 := Int.not_le.mp hneg
    rw [RpcReply.ofValue] at h
    dsimp only at h
    rw [if_pos hvalue] at h
    exact hneg h

end Answers

/-- The bytes of a reply are those that the backend stored. -/
theorem RpcReply.bytes_eq {reply : RpcReply} {data : List UInt8} {n : ℕ}
    (hdata : reply.data = padded ioChunk data) (hlength : data.length ≤ ioChunk)
    (hn : n ≤ data.length) : reply.bytes n = data.take n := by
  rw [RpcReply.bytes, hdata, toList_padded hlength]
  apply List.ext_getElem
  · simp [hn]
  · intro i h₁ h₂
    have hi : i < data.length := by
      simp at h₂
      omega
    simp [List.getElem?_append_left hi, hi]

end EF2SDK.IopStorage
