import EF2SDK.ChunkedTransfer
import EF2SDK.StorageExchanges
import EF2SDK.Words

/-!
# What the storage client's transfers commit

The four transfers of `src/ee/storage/storage.c`, over every behaviour of the RPC layer and of
the devices. Each is a run of a chunked transfer whose calls the storage module handles
(`callProtocol`), and its result is the number of units that the exchanges of its answered calls
show to have been transferred, or not positive when that is none (`transfers_committed`). What is
read is stored from the buffer on, and nothing elsewhere. A sector number never wraps, since a
transferred sector is not the last word.

The call that failed is not counted, although the device may have carried it out : a write of two
sectors whose second reply is late reports one (`lateReply_undercounts`).
-/

set_option autoImplicit false

namespace EF2SDK.IopStorage

open ChunkedTransfer

/-! ## Memory -/

theorem storeBytes_append (mem : Memory) (address : UInt32) (xs ys : List UInt8) :
    storeBytes mem address (xs ++ ys)
      = storeBytes (storeBytes mem address xs) (address + UInt32.ofNat xs.length) ys := by
  induction xs generalizing mem address with
  | nil => simp [storeBytes]
  | cons x xs ih =>
    have hshift : address + UInt32.ofNat (x :: xs).length
        = address + 1 + UInt32.ofNat xs.length := by
      rw [List.length_cons, Nat.add_comm, UInt32.ofNat_add, UInt32.add_assoc]
      rfl
    rw [List.cons_append, storeBytes, ih, storeBytes, hshift]

/-- What is not among the bytes stored to keeps its value. -/
theorem storeBytes_of_ne {mem : Memory} {address x : UInt32} {bytes : List UInt8}
    (h : ∀ j < bytes.length, x ≠ address + UInt32.ofNat j) :
    storeBytes mem address bytes x = mem x := by
  induction bytes generalizing mem address with
  | nil => rfl
  | cons b bytes ih =>
    have hx : x ≠ address := by simpa using h 0 (Nat.succ_pos _)
    rw [storeBytes, ih, Function.update_of_ne hx]
    intro j hj
    have := h (j + 1) (Nat.succ_lt_succ hj)
    rwa [UInt32.ofNat_add, UInt32.add_comm (UInt32.ofNat j), ← UInt32.add_assoc] at this

@[simp] theorem length_loadBytes (mem : Memory) (address : UInt32) (n : ℕ) :
    (loadBytes mem address n).length = n := by
  simp [loadBytes]

theorem loadBytes_append (mem : Memory) (address : UInt32) (k m : ℕ) :
    loadBytes mem address (k + m)
      = loadBytes mem address k ++ loadBytes mem (address + UInt32.ofNat k) m := by
  simp only [loadBytes, List.range_add, List.map_append, List.map_map]
  congr 2
  funext i
  simp [UInt32.add_assoc]

/-- Bytes that do not reach around the address space are read back. -/
theorem loadBytes_storeBytes {mem : Memory} {address : UInt32} {bytes : List UInt8}
    (h : bytes.length ≤ 2 ^ 32) :
    loadBytes (storeBytes mem address bytes) address bytes.length = bytes := by
  induction bytes generalizing mem address with
  | nil => rfl
  | cons b bytes ih =>
    rw [List.length_cons] at h
    rw [List.length_cons, Nat.add_comm, loadBytes_append, storeBytes]
    have hne : ∀ j < bytes.length, address ≠ address + 1 + UInt32.ofNat j := by
      intro j hj heq
      have := congrArg UInt32.toNat heq
      have := address.toNat_lt
      simp at *
      omega
    have hfirst : loadBytes (storeBytes (Function.update mem address b) (address + 1) bytes)
        address 1 = [b] := by
      simp [loadBytes, storeBytes_of_ne hne]
    rw [hfirst, show address + UInt32.ofNat 1 = address + 1 from rfl,
      ih (Nat.le_of_succ_le h)]
    rfl

/-! ## The four transfers -/

/-- The transfer that calls `function` with the requests, by offset. `Done` is what the exchanges
of an answered call show when `k` units are transferred, `AtMost` what those of a failed one
show. -/
def callProtocol (device : Device) (devices : List DeviceInfo) (function : DeviceFunction)
    (request : ℕ → RpcRequest) (chunk : ℕ → ℕ)
    (Done : ℕ → DeviceInfo → Backend → ℕ → List UInt8 → List Exchange → Prop)
    (AtMost : ℕ → Backend → List Exchange → Prop) : Protocol Backend Call UInt8 where
  chunk := chunk
  Ok i b call k bytes b' :=
    ∃ info, CallAnswered devices function (request i) info call
      ∧ ∃ l, b'.log = b.log ++ l ∧ Done i info b k bytes l
  Failed i b call b' :=
    CallFailed device devices function (request i) b call b'
      ∧ ∃ l, b'.log = b.log ++ l ∧ AtMost i b l

/-- The address at which a card is asked for the `i`th sector from `sector` on. -/
def sectorAddress (b : Backend) (sector : UInt32) (i : ℕ) : UInt32 :=
  UInt32.ofNat (location b.mxCardType (sector + UInt32.ofNat i))

/-- Sectors are read one by one, the `i`th being `sector + i` : the card gives its bytes. -/
def sectorReads (device : Device) (devices : List DeviceInfo) (index sector : UInt32) :
    Protocol Backend Call UInt8 :=
  callProtocol device devices .readSector
    (fun i => readSectorRequest index (sector + UInt32.ofNat i)) (fun _ => 1)
    (fun i _ b k bytes l =>
      k = 1 ∧ (sector + UInt32.ofNat i).toNat = sector.toNat + i ∧ bytes.length = ioChunk
        ∧ sectorsRead l = [(sectorAddress b sector i, bytes)])
    fun _ _ l => sectorsWritten l = []

/-- Sectors are written one by one, the `i`th with the bytes at `i` sectors from `buffer` : the
card takes them. A failed call may have been carried out. -/
def sectorWrites (device : Device) (devices : List DeviceInfo) (index sector : UInt32)
    (mem : Memory) (buffer : UInt32) : Protocol Backend Call UInt8 :=
  let sectorBytes := fun i =>
    loadBytes mem (buffer + UInt32.ofNat i * UInt32.ofNat ioChunk) ioChunk
  callProtocol device devices .writeSector
    (fun i => writeSectorRequest index (sector + UInt32.ofNat i) (sectorBytes i)) (fun _ => 1)
    (fun i _ b k bytes l =>
      k = 1 ∧ (sector + UInt32.ofNat i).toNat = sector.toNat + i ∧ bytes = sectorBytes i
        ∧ sectorsWritten l = [(sectorAddress b sector i, bytes)])
    fun i b l => sectorsWritten l <+: [(sectorAddress b sector i, sectorBytes i)]

/-- A file is read in chunks : of what the device gives, the bytes it counts. -/
def fileReads (device : Device) (devices : List DeviceInfo) (index : UInt32) (fd : ℤ)
    (size : ℕ) : Protocol Backend Call UInt8 :=
  callProtocol device devices .mmceRead (fun i => mmceReadRequest index fd (chunkSize size i))
    (chunkSize size)
    (fun i info _ k bytes l => FileRead info.physicalPort fd (chunkSize size i) k bytes l)
    fun i _ l => SendsAtMost 0x42 fd (chunkSize size i) [] l

/-- A file is written in chunks : of what the device takes, the bytes it counts. Of a failed call
it may have taken any bytes that were sent. -/
def fileWrites (device : Device) (devices : List DeviceInfo) (index : UInt32) (fd : ℤ)
    (mem : Memory) (buffer : UInt32) (size : ℕ) : Protocol Backend Call UInt8 :=
  let bytesFrom := fun i => loadBytes mem (buffer + UInt32.ofNat i)
  callProtocol device devices .mmceWrite
    (fun i => mmceWriteRequest index fd (bytesFrom i (chunkSize size i))) (chunkSize size)
    (fun i info _ k bytes l =>
      FileWritten info.physicalPort fd (bytesFrom i (chunkSize size i)) k l
        ∧ bytes = bytesFrom i k)
    fun i _ l => SendsAtMost 0x43 fd (chunkSize size i) (bytesFrom i (chunkSize size i)) l

/-! ## Runs and results -/

theorem toInt_of_lt {n : ℕ} (h : n < 2 ^ 31) : toInt n = n :=
  Int32.toInt_ofNat_of_lt h

variable {p : Protocol Backend Call UInt8} {size offset n : ℕ} {s t u : Storage} {call : Call}
  {result : ℤ} {data : List UInt8}

/-- A run from an offset on, between two states of the client, and its result. -/
structure Transferred (p : Protocol Backend Call UInt8) (size offset : ℕ) (s t : Storage)
    (result : ℤ) (n : ℕ) (data : List UInt8) : Prop where
  runs : ∃ calls, t.calls = s.calls ++ calls
    ∧ Runs p size offset s.server.backend calls n data t.server.backend
  result_eq : n ≠ 0 → result = n
  result_nonpos : n = 0 → result ≤ 0

namespace Transferred

theorem of_toInt {calls : List Call} (hcalls : t.calls = s.calls ++ calls)
    (hruns : Runs p size offset s.server.backend calls n data t.server.backend)
    (hn : n < 2 ^ 31) : Transferred p size offset s t (toInt n) n data where
  runs := ⟨calls, hcalls, hruns⟩
  result_eq _ := toInt_of_lt hn
  result_nonpos h := by simp [h, toInt_of_lt]

theorem complete (hsize : size < 2 ^ 31) (h : offset = size) :
    Transferred p size offset s s (toInt offset) offset [] :=
  of_toInt (List.append_nil _).symm (.complete (Nat.le_of_eq h.symm)) (h ▸ hsize)

theorem failed (hsize : size < 2 ^ 31) (h : offset < size)
    (hcalls : t.calls = s.calls ++ [call])
    (hfailed : p.Failed offset s.server.backend call t.server.backend) (hresult : result < 0) :
    Transferred p size offset s t (if offset ≠ 0 then toInt offset else result) offset [] where
  runs := ⟨[call], hcalls, .failed h hfailed⟩
  result_eq hn := by rw [if_pos hn, toInt_of_lt (Nat.lt_trans h hsize)]
  result_nonpos hn := by
    rw [if_neg (not_not.mpr hn)]
    exact Int.le_of_lt hresult

theorem full {chunk : List UInt8} (h : offset < size) (hcalls : t.calls = s.calls ++ [call])
    (hok : p.Ok offset s.server.backend call (p.chunk offset) chunk t.server.backend)
    (hrest : Transferred p size (offset + p.chunk offset) t u result n data) :
    Transferred p size offset s u result n (chunk ++ data) := by
  obtain ⟨⟨calls, hcalls', hruns⟩, heq, hnonpos⟩ := hrest
  refine ⟨⟨call :: calls, ?_, .full h hok hruns⟩, heq, hnonpos⟩
  rw [hcalls', hcalls, List.append_assoc, List.singleton_append]

theorem short {k : ℕ} {chunk : List UInt8} (hsize : size < 2 ^ 31) (h : offset < size)
    (hcalls : t.calls = s.calls ++ [call])
    (hok : p.Ok offset s.server.backend call k chunk t.server.backend)
    (hk : k < p.chunk offset) (hchunk : offset + p.chunk offset ≤ size) :
    Transferred p size offset s t (toInt (offset + k)) (offset + k) chunk :=
  of_toInt hcalls (.short h hok hk) (by omega)

end Transferred

section Loops

variable {device : Device} {transport : Transport} {devices : List DeviceInfo}
  {index sector buffer count : UInt32} {fd : ℤ} {done : ℕ} {mem : Memory}

/-- One round of the loop. -/
theorem readSectorsLoop_round (h : done < count.toNat) :
    readSectorsLoop device transport index sector buffer count done mem s
      = let called := storageRpc device transport (.onDevice .readSector)
          (readSectorRequest index (sector + UInt32.ofNat done)) s
        if called.1 < 0 then
          ((if done ≠ 0 then toInt done else called.1, mem), called.2)
        else if called.2.reply.dataSize ≠ UInt32.ofNat ioChunk then
          ((if done ≠ 0 then toInt done else -2, mem), called.2)
        else
          readSectorsLoop device transport index sector buffer count (done + 1)
            (storeBytes mem (buffer + UInt32.ofNat done * UInt32.ofNat ioChunk)
              (called.2.reply.bytes ioChunk)) called.2 := by
  rw [readSectorsLoop, if_pos h]
  simp only [bind_apply, ite_run]
  rfl

variable (s device transport index sector buffer done mem) in
theorem readSectorsLoop_transferred (hcount : count.toNat < 2 ^ 31)
    (hsector : sector.toNat + done < 2 ^ 32) (hdone : done ≤ count.toNat)
    (hdevices : s.server.devices = devices) :
    let read := readSectorsLoop device transport index sector buffer count done mem s
    ∃ n data,
      Transferred (sectorReads device devices index sector) count.toNat done s read.2 read.1.1 n
          data
        ∧ read.1.2 = storeBytes mem (buffer + UInt32.ofNat done * UInt32.ofNat ioChunk) data := by
  induction hleft : count.toNat - done generalizing done mem s with
  | zero =>
    rw [readSectorsLoop, if_neg (by omega)]
    exact ⟨done, [], .complete hcount (by omega), rfl⟩
  | succ left ih =>
    have hlt : done < count.toNat := by omega
    rw [readSectorsLoop_round hlt]
    obtain ⟨hdevices', call, hcalls, houtcome⟩ := storageRpc_outcome device transport .readSector
      (readSectorRequest index (sector + UInt32.ofNat done)) s
    generalize storageRpc device transport (.onDevice .readSector)
      (readSectorRequest index (sector + UInt32.ofNat done)) s = called at *
    subst hdevices
    obtain ⟨hneg, hfailed⟩ | ⟨hnonneg, info, handled, hcall, hhandled, hresult, -, hsize, hdata⟩ :=
      houtcome
    · rw [if_pos hneg]
      have hnone := hfailed.exchanges (P := fun l => sectorsWritten l = []) rfl fun info =>
        deviceCall_readSector_log device info _ _
      exact ⟨done, [], .failed hcount hlt hcalls ⟨hfailed, hnone⟩ hneg, rfl⟩
    · obtain ⟨hsize', hnext, bytes, hdata', hlength, hbackend⟩ :=
        readSector_answered hhandled (hresult ▸ hnonneg)
      obtain ⟨l, hl, hread⟩ := readSector_exchanges hbackend
      have hbytes : called.2.reply.bytes ioChunk = bytes := by
        rw [RpcReply.bytes_eq (hdata.trans hdata') (Nat.le_of_eq hlength)
          (Nat.le_of_eq hlength.symm), ← hlength, List.take_length]
      have hposition := toNat_add_ofNat hsector
      have hnext' : sector.toNat + (done + 1) < 2 ^ 32 := by
        rw [← Nat.add_assoc, ← hposition]
        exact hnext
      have hoffset : buffer + UInt32.ofNat done * UInt32.ofNat ioChunk + UInt32.ofNat bytes.length
          = buffer + UInt32.ofNat (done + 1) * UInt32.ofNat ioChunk := by
        rw [hlength, UInt32.ofNat_add, UInt32.add_mul, UInt32.add_assoc]
        rfl
      rw [if_neg (Int.not_lt.mpr hnonneg), if_neg fun h : _ ≠ _ => h (hsize.trans hsize'), hbytes]
      obtain ⟨n, data, hrest, hmem⟩ := ih called.2 (done + 1)
        (storeBytes mem (buffer + UInt32.ofNat done * UInt32.ofNat ioChunk) bytes)
        hnext' hlt hdevices' (by omega)
      refine ⟨n, bytes ++ data,
        .full hlt hcalls ⟨info, hcall, l, hl, rfl, hposition, hlength, hread⟩ hrest, ?_⟩
      rw [hmem, storeBytes_append, hoffset]

/-- One round of the loop. -/
theorem writeSectorsLoop_round (h : done < count.toNat) :
    writeSectorsLoop device transport index sector buffer count mem done s
      = let called := storageRpc device transport (.onDevice .writeSector)
          (writeSectorRequest index (sector + UInt32.ofNat done)
            (loadBytes mem (buffer + UInt32.ofNat done * UInt32.ofNat ioChunk) ioChunk)) s
        if called.1 < 0 then
          (if done ≠ 0 then toInt done else called.1, called.2)
        else
          writeSectorsLoop device transport index sector buffer count mem (done + 1) called.2 := by
  rw [writeSectorsLoop, if_pos h]
  simp only [bind_apply, ite_run]
  rfl

/-- The bytes of a request for a sector are the sector's. -/
theorem writeSectorRequest_data {bytes : List UInt8} (h : bytes.length = ioChunk) :
    (writeSectorRequest index sector bytes).data.toList = bytes := by
  rw [writeSectorRequest, toList_padded (Nat.le_of_eq h), h, Nat.sub_self, List.replicate_zero,
    List.append_nil]

variable (s device transport index sector buffer done mem) in
theorem writeSectorsLoop_transferred (hcount : count.toNat < 2 ^ 31)
    (hsector : sector.toNat + done < 2 ^ 32) (hdone : done ≤ count.toNat)
    (hdevices : s.server.devices = devices) :
    let written := writeSectorsLoop device transport index sector buffer count mem done s
    ∃ n data,
      Transferred (sectorWrites device devices index sector mem buffer) count.toNat done s
        written.2 written.1 n data := by
  induction hleft : count.toNat - done generalizing done s with
  | zero =>
    rw [writeSectorsLoop, if_neg (by omega)]
    exact ⟨done, [], .complete hcount (by omega)⟩
  | succ left ih =>
    have hlt : done < count.toNat := by omega
    rw [writeSectorsLoop_round hlt]
    obtain ⟨hdevices', call, hcalls, houtcome⟩ := storageRpc_outcome device transport
      .writeSector (writeSectorRequest index (sector + UInt32.ofNat done)
        (loadBytes mem (buffer + UInt32.ofNat done * UInt32.ofNat ioChunk) ioChunk)) s
    generalize storageRpc device transport (.onDevice .writeSector)
      (writeSectorRequest index (sector + UInt32.ofNat done)
        (loadBytes mem (buffer + UInt32.ofNat done * UInt32.ofNat ioChunk) ioChunk)) s
      = called at *
    subst hdevices
    obtain ⟨hneg, hfailed⟩ | ⟨hnonneg, info, handled, hcall, hhandled, hresult, -, -, -⟩ :=
      houtcome
    · rw [if_pos hneg]
      have hsent := hfailed.exchanges
        (P := fun l => sectorsWritten l <+: [(sectorAddress s.server.backend sector done, _)])
        List.nil_prefix fun info => deviceCall_writeSector_log device info _ _
      rw [writeSectorRequest_data (length_loadBytes _ _ _)] at hsent
      exact ⟨done, [], .failed hcount hlt hcalls ⟨hfailed, hsent⟩ hneg⟩
    · obtain ⟨hnext, hbackend⟩ := writeSector_answered hhandled rfl (hresult ▸ hnonneg)
      obtain ⟨l, hl, hwritten⟩ := writeSector_exchanges hbackend
      rw [writeSectorRequest_data (length_loadBytes _ _ _)] at hwritten
      have hposition := toNat_add_ofNat hsector
      have hnext' : sector.toNat + (done + 1) < 2 ^ 32 := by
        rw [← Nat.add_assoc, ← hposition]
        exact hnext
      rw [if_neg (Int.not_lt.mpr hnonneg)]
      obtain ⟨n, data, hrest⟩ := ih called.2 (done + 1) hnext' hlt hdevices' (by omega)
      exact ⟨n, _,
        .full hlt hcalls ⟨info, hcall, l, hl, rfl, hposition, rfl, hwritten⟩ hrest⟩

variable {size : ℕ}

theorem chunkSize_le (size done : ℕ) : chunkSize size done ≤ ioChunk := by
  rw [chunkSize]
  split
  · exact Nat.le_refl _
  · exact Nat.not_lt.mp ‹_›

theorem add_chunkSize_le (h : done ≤ size) : done + chunkSize size done ≤ size := by
  have : chunkSize size done ≤ size - done := by
    rw [chunkSize]
    split
    · exact Nat.le_of_lt ‹_›
    · exact Nat.le_refl _
  omega

/-- A chunk's size fits a word. -/
theorem toNat_chunkSize (size done : ℕ) :
    (UInt32.ofNat (chunkSize size done)).toNat = chunkSize size done :=
  UInt32.toNat_ofNat_of_lt' (Nat.lt_of_le_of_lt (chunkSize_le size done) (by decide))

/-- One round of the loop. -/
theorem mmceReadLoop_round (h : done < size) :
    mmceReadLoop device transport index fd buffer size done mem s
      = let called := storageRpc device transport (.onDevice .mmceRead)
          (mmceReadRequest index fd (chunkSize size done)) s
        let k := called.2.reply.dataSize.toNat
        let mem' := storeBytes mem (buffer + UInt32.ofNat done) (called.2.reply.bytes k)
        if called.1 < 0 then
          ((if done ≠ 0 then toInt done else called.1, mem), called.2)
        else if k < chunkSize size done then
          ((toInt (done + k), mem'), called.2)
        else
          mmceReadLoop device transport index fd buffer size (done + k) mem' called.2 := by
  rw [mmceReadLoop, if_pos h]
  simp only [bind_apply, ite_run]
  rfl

variable (s device transport index buffer fd done mem) in
theorem mmceReadLoop_transferred (hsize : size < 2 ^ 31) (hdone : done ≤ size)
    (hdevices : s.server.devices = devices) :
    let read := mmceReadLoop device transport index fd buffer size done mem s
    ∃ n data,
      Transferred (fileReads device devices index fd size) size done s read.2 read.1.1 n data
        ∧ read.1.2 = storeBytes mem (buffer + UInt32.ofNat done) data := by
  induction hleft : size - done using Nat.strongRecOn generalizing done mem s with
  | _ left ih =>
  obtain hlt | hend := Nat.lt_or_eq_of_le hdone
  · rw [mmceReadLoop_round hlt]
    obtain ⟨hdevices', call, hcalls, houtcome⟩ := storageRpc_outcome device transport .mmceRead
      (mmceReadRequest index fd (chunkSize size done)) s
    generalize storageRpc device transport (.onDevice .mmceRead)
      (mmceReadRequest index fd (chunkSize size done)) s = called at *
    subst hdevices
    have hchunk : (mmceReadRequest index fd (chunkSize size done)).dataSize.toNat
        = chunkSize size done := toNat_chunkSize size done
    obtain ⟨hneg, hfailed⟩ | ⟨hnonneg, info, handled, hcall, hhandled, hresult, -, hcount, hdata⟩ :=
      houtcome
    · dsimp only
      rw [if_pos hneg]
      have hsent := hfailed.exchanges (P := SendsAtMost 0x42 fd _ []) (Or.inl rfl) fun info =>
        deviceCall_mmceRead_log device info _ _
      rw [hchunk] at hsent
      exact ⟨done, [], .failed hsize hlt hcalls ⟨hfailed, hsent⟩ hneg, rfl⟩
    · obtain ⟨data, hle, hlength, hdata', hbackend⟩ :=
        mmceRead_answered hhandled (hresult ▸ hnonneg)
      rw [← hcount] at hle hbackend
      rw [hchunk] at hle hlength hbackend
      obtain ⟨l, hl, hread⟩ := mmceRead_exchanges hbackend
      have hbytes : called.2.reply.bytes called.2.reply.dataSize.toNat
          = data.take called.2.reply.dataSize.toNat :=
        RpcReply.bytes_eq (hdata.trans hdata') (hlength ▸ chunkSize_le size done)
          (hlength.symm ▸ hle)
      dsimp only
      rw [if_neg (Int.not_lt.mpr hnonneg), hbytes]
      generalize called.2.reply.dataSize.toNat = k at *
      have hk : (data.take k).length = k := List.length_take_of_le (hlength.symm ▸ hle)
      have hok : (fileReads device s.server.devices index fd size).Ok done s.server.backend call k
          (data.take k) called.2.server.backend :=
        ⟨info, hcall, l, hl, hread⟩
      obtain hshort | hfull := Nat.lt_or_eq_of_le hle
      · rw [if_pos hshort]
        exact ⟨done + k, data.take k, .short hsize hlt hcalls hok hshort
          (add_chunkSize_le hdone), rfl⟩
      · have hpos := chunkSize_pos hlt
        have hend := add_chunkSize_le hdone
        rw [if_neg (by omega)]
        obtain ⟨n, rest, hrest, hmem⟩ := ih (size - (done + k)) (by omega) called.2
          (done + k) (storeBytes mem (buffer + UInt32.ofNat done) (data.take k)) (by omega)
          hdevices' rfl
        subst hfull
        refine ⟨n, _, .full hlt hcalls hok hrest, ?_⟩
        rw [hmem, storeBytes_append, hk, UInt32.ofNat_add, UInt32.add_assoc]
  · rw [mmceReadLoop, if_neg (by omega)]
    exact ⟨done, [], .complete hsize hend, rfl⟩

/-- One round of the loop. -/
theorem mmceWriteLoop_round (h : done < size) :
    mmceWriteLoop device transport index fd buffer size mem done s
      = let called := storageRpc device transport (.onDevice .mmceWrite)
          (mmceWriteRequest index fd
            (loadBytes mem (buffer + UInt32.ofNat done) (chunkSize size done))) s
        let value := called.2.reply.value
        if called.1 < 0 then
          (if done ≠ 0 then toInt done else called.1, called.2)
        else if value ≤ 0 then
          (toInt done, called.2)
        else if value.toNat < chunkSize size done then
          (toInt (done + value.toNat), called.2)
        else
          mmceWriteLoop device transport index fd buffer size mem (done + value.toNat)
            called.2 := by
  rw [mmceWriteLoop, if_pos h]
  simp only [bind_apply, ite_run]
  rfl

/-- The bytes of a request for a chunk are the chunk's. -/
theorem mmceWriteRequest_take {bytes : List UInt8} (h : bytes.length ≤ ioChunk) :
    (mmceWriteRequest index fd bytes).data.toList.take
      (mmceWriteRequest index fd bytes).dataSize.toNat = bytes := by
  have hsize : (UInt32.ofNat bytes.length).toNat = bytes.length :=
    UInt32.toNat_ofNat_of_lt' (Nat.lt_of_le_of_lt h (by decide))
  rw [mmceWriteRequest, hsize, toList_padded h, List.take_left]

variable (s device transport index buffer fd done mem) in
theorem mmceWriteLoop_transferred (hsize : size < 2 ^ 31) (hdone : done ≤ size)
    (hdevices : s.server.devices = devices) :
    let written := mmceWriteLoop device transport index fd buffer size mem done s
    ∃ n data,
      Transferred (fileWrites device devices index fd mem buffer size) size done s written.2
        written.1 n data := by
  induction hleft : size - done using Nat.strongRecOn generalizing done s with
  | _ left ih =>
  obtain hlt | hend := Nat.lt_or_eq_of_le hdone
  · rw [mmceWriteLoop_round hlt]
    obtain ⟨hdevices', call, hcalls, houtcome⟩ := storageRpc_outcome device transport .mmceWrite
      (mmceWriteRequest index fd
        (loadBytes mem (buffer + UInt32.ofNat done) (chunkSize size done))) s
    generalize storageRpc device transport (.onDevice .mmceWrite)
      (mmceWriteRequest index fd
        (loadBytes mem (buffer + UInt32.ofNat done) (chunkSize size done))) s = called at *
    subst hdevices
    obtain ⟨hneg, hfailed⟩ | ⟨hnonneg, info, handled, hcall, hhandled, hresult, hvalue, -, -⟩ :=
      houtcome
    · dsimp only
      rw [if_pos hneg]
      have hsent := hfailed.exchanges (P := fun l => SendsAtMost 0x43 fd _ _ l) (Or.inl rfl)
        fun info => deviceCall_mmceWrite_log device info _ _
      rw [mmceWriteRequest_take (by simp [chunkSize_le]), length_loadBytes] at hsent
      exact ⟨done, [], .failed hsize hlt hcalls ⟨hfailed, hsent⟩ hneg⟩
    · obtain ⟨hvalue₀, hle, hbackend⟩ := mmceWrite_answered hhandled (hresult ▸ hnonneg)
      rw [mmceWriteRequest_take (by simp [chunkSize_le])] at hle hbackend
      rw [length_loadBytes] at hle
      rw [← hvalue] at hvalue₀ hle hbackend
      dsimp only
      rw [if_neg (Int.not_lt.mpr hnonneg)]
      generalize called.2.reply.value = value at *
      obtain ⟨k, rfl⟩ := Int.eq_ofNat_of_zero_le hvalue₀
      obtain ⟨l, hl, hwritten⟩ := mmceWrite_exchanges hbackend
      have hk : k ≤ chunkSize size done := Int.ofNat_le.mp hle
      have hend := add_chunkSize_le hdone
      have hok : (fileWrites device s.server.devices index fd mem buffer size).Ok done
          s.server.backend call k (loadBytes mem (buffer + UInt32.ofNat done) k)
          called.2.server.backend :=
        ⟨info, hcall, l, hl, hwritten, rfl⟩
      rw [Int.toNat_natCast]
      by_cases hzero : (k : ℤ) ≤ 0
      · have hk₀ : k = 0 := by omega
        subst hk₀
        rw [if_pos hzero]
        exact ⟨_, _, .short hsize hlt hcalls hok (chunkSize_pos hlt) hend⟩
      rw [if_neg hzero]
      obtain hshort | hfull := Nat.lt_or_eq_of_le hk
      · rw [if_pos hshort]
        exact ⟨_, _, .short hsize hlt hcalls hok hshort hend⟩
      · rw [if_neg (by omega)]
        obtain ⟨n, rest, hrest⟩ := ih (size - (done + k)) (by omega) called.2 (done + k) (by omega)
          hdevices' rfl
        subst hfull
        exact ⟨n, _, .full hlt hcalls hok hrest⟩
  · rw [mmceWriteLoop, if_neg (by omega)]
    exact ⟨done, [], .complete hsize hend⟩

end Loops

/-! ## What a result says -/

/-- A positive result is the number of units that a run transferred, which is within the size;
after any other result, the run transferred none. -/
structure Committed (p : Protocol Backend Call UInt8) (unit size : ℕ) (s t : Storage)
    (result : ℤ) (data : List UInt8) : Prop where
  runs : ∃ calls, t.calls = s.calls ++ calls
    ∧ Runs p size 0 s.server.backend calls result.toNat data t.server.backend
  le_size : result ≤ size
  length_data : data.length = unit * result.toNat

theorem Transferred.committed (unit : ℕ) (h : Transferred p size 0 s t result n data)
    (hchunk : ∀ i < size, i + p.chunk i ≤ size)
    (hok : ∀ i b call k bytes b', p.Ok i b call k bytes b' → bytes.length = unit * k) :
    Committed p unit size s t result data := by
  obtain ⟨⟨calls, hcalls, hruns⟩, heq, hnonpos⟩ := h
  have hn : result.toNat = n := by
    by_cases h : n = 0
    · have := hnonpos h
      omega
    · have := heq h
      omega
  have hle := (hruns.le hchunk (Nat.zero_le _)).2
  have hlength := (hruns.length_data hok).2
  subst hn
  exact ⟨⟨calls, hcalls, hruns⟩, by omega, hlength⟩

/-- A read that was rejected, or one that stored what it committed from the buffer on, where it
is read back unless it reached around the address space, and nothing elsewhere. -/
def ReadCommitted (rejected : Prop) (p : Protocol Backend Call UInt8) (unit size : ℕ)
    (buffer : Option UInt32) (mem : Memory) (s : Storage) (read : (ℤ × Memory) × Storage) :
    Prop :=
  rejected ∧ read = ((-1, mem), s) ∨ ¬rejected ∧ ∃ address data, buffer = some address
    ∧ Committed p unit size s read.2 read.1.1 data
    ∧ read.1.2 = storeBytes mem address data
    ∧ (data.length ≤ 2 ^ 32 → loadBytes read.1.2 address data.length = data)
    ∧ ∀ x, (∀ j < unit * read.1.1.toNat, x ≠ address + UInt32.ofNat j) → read.1.2 x = mem x

/-- A write that was rejected, or one that committed the bytes from the buffer on. -/
def WriteCommitted (rejected : Prop) (p : UInt32 → Protocol Backend Call UInt8)
    (unit size : ℕ) (buffer : Option UInt32) (mem : Memory) (s : Storage)
    (written : ℤ × Storage) : Prop :=
  rejected ∧ written = (-1, s) ∨ ¬rejected ∧ ∃ address data, buffer = some address
    ∧ Committed (p address) unit size s written.2 written.1 data
    ∧ data = loadBytes mem address (unit * written.1.toNat)

theorem Committed.stored {unit : ℕ} {mem mem' : Memory} {address : UInt32}
    (h : Committed p unit size s t result data) (hmem : mem' = storeBytes mem address data) :
    (data.length ≤ 2 ^ 32 → loadBytes mem' address data.length = data)
      ∧ ∀ x, (∀ j < unit * result.toNat, x ≠ address + UInt32.ofNat j) → mem' x = mem x := by
  subst hmem
  refine ⟨loadBytes_storeBytes, fun x hx => storeBytes_of_ne fun j hj => hx j ?_⟩
  rwa [← h.length_data]

section Guarded

variable {rejected : Prop} [Decidable rejected] {unit : ℕ} {address : UInt32} {mem : Memory}

/-- A read that is its loop, unless it is rejected. -/
theorem readCommitted_ite {read : (ℤ × Memory) × Storage}
    (hchunk : ∀ i < size, i + p.chunk i ≤ size)
    (hok : ∀ i b call k bytes b', p.Ok i b call k bytes b' → bytes.length = unit * k)
    (hread : Transferred p size 0 s read.2 read.1.1 n data)
    (hmem : read.1.2 = storeBytes mem address data) :
    ReadCommitted (some address = none ∨ rejected) p unit size (some address) mem s
      (if rejected then ((-1, mem), s) else read) := by
  have hcommitted := hread.committed unit hchunk hok
  split
  · next h => exact Or.inl ⟨Or.inr h, rfl⟩
  · next h =>
    exact Or.inr ⟨by simpa using h, address, data, rfl, hcommitted, hmem, hcommitted.stored hmem⟩

/-- A write that is its loop, unless it is rejected : the bytes of its calls are one piece. -/
theorem writeCommitted_ite {p : UInt32 → Protocol Backend Call UInt8} {written : ℤ × Storage}
    (hchunk : ∀ i < size, i + (p address).chunk i ≤ size)
    (hok : ∀ i b call k bytes b', (p address).Ok i b call k bytes b' →
      bytes = loadBytes mem (address + UInt32.ofNat (unit * i)) (unit * k))
    (hwritten : Transferred (p address) size 0 s written.2 written.1 n data) :
    WriteCommitted (some address = none ∨ rejected) p unit size (some address) mem s
      (if rejected then (-1, s) else written) := by
  have hcommitted := hwritten.committed unit hchunk fun i b call k bytes b' h => by
    rw [hok i b call k bytes b' h, length_loadBytes]
  split
  · next h => exact Or.inl ⟨Or.inr h, rfl⟩
  · next h =>
    refine Or.inr ⟨by simpa using h, address, data, rfl, hcommitted, ?_⟩
    obtain ⟨calls, -, hruns⟩ := hcommitted.runs
    have hdata := (hruns.data_eq
      (fun i k => loadBytes mem (address + UInt32.ofNat (unit * i)) (unit * k)) hok
      (fun i => rfl)
      fun i k m => by
        rw [Nat.mul_add, Nat.mul_add, loadBytes_append, UInt32.ofNat_add, UInt32.add_assoc]).2
    rwa [Nat.mul_zero, Nat.sub_zero, show address + UInt32.ofNat 0 = address by simp] at hdata

end Guarded

section Transfers

variable (device : Device) (transport : Transport) (index sector : UInt32) (fd : ℤ)
  (buffer : Option UInt32) (mem : Memory) (s : Storage) {count size : UInt32}

theorem readSectors_committed (hcount : count.toNat < 2 ^ 31) :
    ReadCommitted (buffer = none ∨ s.bound = false ∨ count = 0)
      (sectorReads device s.server.devices index sector) ioChunk count.toNat buffer mem s
      (readSectors device transport index sector buffer count mem s) := by
  cases buffer with
  | none => exact Or.inl ⟨Or.inl rfl, rfl⟩
  | some address =>
    have hrun : readSectors device transport index sector (some address) count mem s
        = if s.bound = false ∨ count = 0 then ((-1, mem), s)
          else readSectorsLoop device transport index sector address count 0 mem s :=
      ite_run (pure (-1, mem)) _ s
    obtain ⟨n, data, hread, hmem⟩ := readSectorsLoop_transferred s device transport index
      sector address 0 mem hcount sector.toNat_lt (Nat.zero_le _) rfl
    rw [show address + UInt32.ofNat 0 * UInt32.ofNat ioChunk = address by simp] at hmem
    rw [hrun]
    refine readCommitted_ite (fun i hi => hi) ?_ hread hmem
    rintro i b call k bytes b' ⟨_, _, _, _, hk, _, hlength, _⟩
    rw [hlength, hk, Nat.mul_one]

/-- With a buffer it is its loop, unless nothing is to be written. -/
theorem writeSectors_run (address : UInt32) :
    writeSectors device transport index sector (some address) count mem s
      = if s.bound = false ∨ count = 0 then (-1, s)
        else writeSectorsLoop device transport index sector address count mem 0 s :=
  ite_run (pure (-1)) _ s

theorem writeSectors_committed (hcount : count.toNat < 2 ^ 31) :
    WriteCommitted (buffer = none ∨ s.bound = false ∨ count = 0)
      (sectorWrites device s.server.devices index sector mem) ioChunk count.toNat buffer mem s
      (writeSectors device transport index sector buffer count mem s) := by
  cases buffer with
  | none => exact Or.inl ⟨Or.inl rfl, rfl⟩
  | some address =>
    obtain ⟨n, data, hwritten⟩ := writeSectorsLoop_transferred s device transport index
      sector address 0 mem hcount sector.toNat_lt (Nat.zero_le _) rfl
    rw [writeSectors_run]
    refine writeCommitted_ite (fun i hi => hi) ?_ hwritten
    rintro i b call k bytes b' ⟨_, _, _, _, hk, _, hbytes, _⟩
    rw [hbytes, hk, Nat.mul_one, Nat.mul_comm, UInt32.ofNat_mul]

theorem mmceRead_committed (hsize : size.toNat < 2 ^ 31) :
    ReadCommitted (buffer = none ∨ s.bound = false)
      (fileReads device s.server.devices index fd size.toNat) 1 size.toNat buffer mem s
      (mmceRead device transport index fd buffer size mem s) := by
  cases buffer with
  | none => exact Or.inl ⟨Or.inl rfl, rfl⟩
  | some address =>
    have hrun : mmceRead device transport index fd (some address) size mem s
        = if s.bound = false then ((-1, mem), s)
          else mmceReadLoop device transport index fd address size.toNat 0 mem s :=
      ite_run (pure (-1, mem)) _ s
    obtain ⟨n, data, hread, hmem⟩ := mmceReadLoop_transferred s device transport index
      address fd 0 mem hsize (Nat.zero_le _) rfl
    rw [show address + UInt32.ofNat 0 = address by simp] at hmem
    rw [hrun]
    refine readCommitted_ite (fun i hi => add_chunkSize_le (Nat.le_of_lt hi)) ?_ hread hmem
    rintro i b call k bytes b' ⟨_, _, _, _, hread⟩
    rw [hread.length_eq, Nat.one_mul]

theorem mmceWrite_committed (hsize : size.toNat < 2 ^ 31) :
    WriteCommitted (buffer = none ∨ s.bound = false)
      (fun address => fileWrites device s.server.devices index fd mem address size.toNat) 1
      size.toNat buffer mem s (mmceWrite device transport index fd buffer size mem s) := by
  cases buffer with
  | none => exact Or.inl ⟨Or.inl rfl, rfl⟩
  | some address =>
    have hrun : mmceWrite device transport index fd (some address) size mem s
        = if s.bound = false then (-1, s)
          else mmceWriteLoop device transport index fd address size.toNat mem 0 s :=
      ite_run (pure (-1)) _ s
    obtain ⟨n, data, hwritten⟩ := mmceWriteLoop_transferred s device transport index
      address fd 0 mem hsize (Nat.zero_le _) rfl
    rw [hrun]
    refine writeCommitted_ite (fun i hi => add_chunkSize_le (Nat.le_of_lt hi)) ?_ hwritten
    rintro i b call k bytes b' ⟨_, _, _, _, _, hbytes⟩
    rw [hbytes, Nat.one_mul, Nat.one_mul]

/-- The four transfers, whatever becomes of their calls. -/
theorem transfers_committed (count size : UInt32) (hcount : count.toNat < 2 ^ 31)
    (hsize : size.toNat < 2 ^ 31) :
    ReadCommitted (buffer = none ∨ s.bound = false ∨ count = 0)
        (sectorReads device s.server.devices index sector) ioChunk count.toNat buffer mem s
        (readSectors device transport index sector buffer count mem s)
      ∧ WriteCommitted (buffer = none ∨ s.bound = false ∨ count = 0)
        (sectorWrites device s.server.devices index sector mem) ioChunk count.toNat buffer mem s
        (writeSectors device transport index sector buffer count mem s)
      ∧ ReadCommitted (buffer = none ∨ s.bound = false)
        (fileReads device s.server.devices index fd size.toNat) 1 size.toNat buffer mem s
        (mmceRead device transport index fd buffer size mem s)
      ∧ WriteCommitted (buffer = none ∨ s.bound = false)
        (fun address => fileWrites device s.server.devices index fd mem address size.toNat) 1
        size.toNat buffer mem s (mmceWrite device transport index fd buffer size mem s) :=
  ⟨readSectors_committed device transport index sector buffer mem s hcount,
    writeSectors_committed device transport index sector buffer mem s hcount,
    mmceRead_committed device transport index fd buffer mem s hsize,
    mmceWrite_committed device transport index fd buffer mem s hsize⟩

end Transfers

/-- A device that counts more bytes than it was asked for. -/
def overcounting : Device := fun _ q => some fun i =>
  if q.rxSize = 10 then if i = 1 then mmceReply else 0
  else if q.rxSize = 6 then 0x7F
  else UInt8.ofNat (i + 1)

/-- A client that was initialised and found one emulated card. -/
def scannedOne : Storage where
  bound := true
  deviceCount := 1
  scanDiag := .zero
  reply := {}
  server :=
    { backend := boot, devices := [{ kind := .mmce, physicalPort := 2 }], scanDiag := .zero }
  calls := []

/-- Three bytes are asked for, and three are stored. -/
theorem transfers_committed_overcounting :
    let read := mmceRead overcounting (fun _ => .answered) 0 5 (some 0x100000) 3 (fun _ => 0)
      scannedOne
    read.1.1 = 3
      ∧ ReadCommitted (some (0x100000 : UInt32) = none ∨ scannedOne.bound = false)
        (fileReads overcounting scannedOne.server.devices 0 5 3) 1 3 (some 0x100000)
        (fun _ => 0) scannedOne read :=
  ⟨by decide +kernel,
    (transfers_committed overcounting (fun _ => .answered) 0 0 5 (some 0x100000) (fun _ => 0)
      scannedOne 1 3 (by decide) (by decide)).2.2.1⟩

/-- A card that takes every block : it answers ready, a command with 0 and a CRC with an accepting
data response. -/
def takingCard : Device := fun log _ =>
  match (log.getLast?.map fun e => e.request.tx.length).getD 0 with
  | 6 => some fun _ => 0
  | 2 => some fun _ => reverseBits 0x05
  | _ => some fun _ => 0xFF

/-- A client that was initialised and found one card. -/
def mountedCard : Storage where
  bound := true
  deviceCount := 1
  scanDiag := .zero
  reply := {}
  server :=
    { backend := { boot with mxCardType := .sdhc, mxSectorCount := 100, mxInitialized := true }
      devices := [{ kind := .mx4sio, physicalPort := 3 }]
      scanDiag := .zero }
  calls := []

theorem loadBytes_zeros (address : UInt32) (n : ℕ) :
    loadBytes (fun _ => 0) address n = List.replicate n 0 := by
  rw [loadBytes, List.map_const', List.length_range]

theorem padded_zeros (n : ℕ) : padded n (List.replicate n 0) = Vector.replicate n 0 := by
  apply Vector.toList_inj.1
  rw [toList_padded (Nat.le_of_eq List.length_replicate), List.length_replicate, Nat.sub_self,
    List.replicate_zero, List.append_nil, Vector.toList_replicate]

/-- The second reply does not come in time, after its call was handled. -/
def lateReply : Transport := fun calls =>
  if calls.length = 1 then .timedOut true else .answered

/-- Two sectors are to be written, and the card takes both, but one is reported. -/
theorem lateReply_undercounts :
    let written := writeSectors takingCard lateReply 0 5 (some 0x100000) 2 (fun _ => 0) mountedCard
    written.1 = 1 ∧ sectorsWritten written.2.server.backend.log
      = [(5, List.replicate 512 0), (6, List.replicate 512 0)] := by
  have hfirst : 0 < (2 : UInt32).toNat := by decide
  have hsecond : 0 + 1 < (2 : UInt32).toNat := by decide
  rw [writeSectors_run, if_neg (by decide)]
  simp only [writeSectorsLoop_round hfirst, writeSectorsLoop_round hsecond, loadBytes_zeros,
    writeSectorRequest, padded_zeros]
  decide +kernel

end EF2SDK.IopStorage
