import Mathlib.Data.List.GetD
import EF2SDK.ScanProbes
import EF2SDK.StorageCalls

/-!
# Page reads of a native memory card

A page is read in eighteen exchanges : a select, sixteen chunks and a finish. The backend
reports success only when each of them was answered as the protocol asks, and the page is then
the chunks' data, one chunk after the other (`traces_backendReadPage`).

The check byte of a chunk makes the XOR of its 33 last bytes before the terminator zero
(`chunk_edc_iff`). One byte changed changes the XOR, so that no chunk with a single altered byte
passes, and no page is made of one (`page_reads_checked`).

On the EE side `ef2_storage_read_page` stores the page only after the backend's success came back
in the reply, and touches no memory else (`readPage_run`).
-/

set_option autoImplicit false

namespace EF2SDK.IopStorage

/-! ## The check byte -/

theorem foldl_xor (l : List UInt8) (a : UInt8) : l.foldl (· ^^^ ·) a = a ^^^ xorEdc l := by
  rw [xorEdc]
  induction l generalizing a with
  | nil => simp
  | cons b l ih => rw [List.foldl_cons, List.foldl_cons, ih, ih (0 ^^^ b), UInt8.zero_xor,
      UInt8.xor_assoc]

@[simp] theorem xorEdc_nil : xorEdc [] = 0 :=
  rfl

@[simp] theorem xorEdc_cons (b : UInt8) (l : List UInt8) : xorEdc (b :: l) = b ^^^ xorEdc l := by
  rw [xorEdc, List.foldl_cons, foldl_xor, UInt8.zero_xor]

theorem xorEdc_append (l r : List UInt8) : xorEdc (l ++ r) = xorEdc l ^^^ xorEdc r := by
  rw [xorEdc, List.foldl_append, foldl_xor]
  rfl

/-- A byte changed changes the XOR by the difference. -/
theorem xorEdc_set {l : List UInt8} {i : ℕ} (h : i < l.length) (value : UInt8) :
    xorEdc (l.set i value) = xorEdc l ^^^ (l.getD i 0 ^^^ value) := by
  induction l generalizing i with
  | nil => simp at h
  | cons b l ih =>
    cases i with
    | zero =>
      rw [List.set_cons_zero, xorEdc_cons, xorEdc_cons, List.getD_cons_zero,
        UInt8.xor_comm b (xorEdc l), UInt8.xor_assoc, ← UInt8.xor_assoc b b, UInt8.xor_self,
        UInt8.zero_xor, UInt8.xor_comm]
    | succ i =>
      rw [List.set_cons_succ, xorEdc_cons, xorEdc_cons, List.getD_cons_succ,
        ih (Nat.lt_of_succ_lt_succ h), UInt8.xor_assoc]

/-- The check byte is right when the chunk's data and it have the XOR zero. -/
theorem chunk_edc_iff (rx : List UInt8) :
    xorEdc (chunkData mcPioReadChunk rx) = rx.getD (4 + mcPioReadChunk) 0 ↔
      xorEdc ((rx.drop 4).take (mcPioReadChunk + 1)) = 0 := by
  have hedc : xorEdc ((rx.drop 4)[mcPioReadChunk]?).toList = rx.getD (4 + mcPioReadChunk) 0 := by
    rw [List.getElem?_drop, List.getD]
    cases rx[4 + mcPioReadChunk]? <;> simp
  rw [List.take_add_one, xorEdc_append, hedc, UInt8.xor_eq_zero_iff, chunkData]

/-- The answer to a request for a chunk, sent with a right check byte and altered on its way in
one byte of its data or its check byte. -/
def AlteredChunk (rx : List UInt8) : Prop :=
  ∃ (sent : List UInt8) (i : ℕ) (value : UInt8), sent.length = mcPioReadChunk + 6 ∧
    xorEdc (chunkData mcPioReadChunk sent) = sent.getD (4 + mcPioReadChunk) 0 ∧
    i ≤ mcPioReadChunk ∧ value ≠ sent.getD (4 + i) 0 ∧ rx = sent.set (4 + i) value

theorem AlteredChunk.not_ok {rx : List UInt8} (h : AlteredChunk rx) : ¬ChunkOk rx := by
  obtain ⟨sent, i, value, hlength, hsent, hi, hvalue, rfl⟩ := h
  rintro ⟨-, hedc, -⟩
  rw [chunk_edc_iff] at hsent hedc
  have hlt : i < ((sent.drop 4).take (mcPioReadChunk + 1)).length := by
    simp [hlength]
    omega
  have hbyte : ((sent.drop 4).take (mcPioReadChunk + 1)).getD i 0 = sent.getD (4 + i) 0 := by
    rw [List.getD, List.getElem?_take_of_lt (by omega), List.getElem?_drop]
    rfl
  rw [← List.set_drop, List.take_set, xorEdc_set hlt, hsent, UInt8.zero_xor,
    hbyte, UInt8.xor_eq_zero_iff] at hedc
  exact hvalue hedc.symm

/-! ## The backend -/

section Backends

variable {device : Device} {info : DeviceInfo} {pageNumber : UInt32} {l : List Exchange}
  {data select finish rx : List UInt8} {chunks : List (List UInt8)}

/-- The page's number in a select command : its four bytes, the lowest first, and their XOR. -/
structure NamesPage (tx : List UInt8) (pageNumber : UInt32) : Prop where
  byte : ∀ i < 4, (tx.getD (2 + i) 0).toNat = pageNumber.toNat / 2 ^ (8 * i) % 2 ^ 8
  edc : tx.getD 6 0 = tx.getD 2 0 ^^^ tx.getD 3 0 ^^^ tx.getD 4 0 ^^^ tx.getD 5 0

theorem selectRequest_namesPage (port pageNumber : UInt32) :
    NamesPage (selectRequest port pageNumber).tx pageNumber where
  byte i hi := by
    match i, hi with
    | 0, _ => simp [selectRequest, mcRequest]
    | 1, _ => simp [selectRequest, mcRequest, Nat.shiftRight_eq_div_pow]
    | 2, _ => simp [selectRequest, mcRequest, Nat.shiftRight_eq_div_pow]
    | 3, _ => simp [selectRequest, mcRequest, Nat.shiftRight_eq_div_pow]
  edc := by simp [selectRequest, mcRequest, UInt8.xor_assoc]

/-- A chunk's answer stands in the log as one of the chunks. -/
theorem ReadExchanges.mem_chunks {port : UInt32}
    (h : ReadExchanges l port pageNumber data select chunks finish)
    (hrx : ⟨chunkRequest port mcPioReadChunk, some rx⟩ ∈ l) : rx ∈ chunks := by
  rw [h.log, List.mem_append, List.mem_cons, chunkExchanges, List.mem_map,
    List.mem_singleton] at hrx
  rcases hrx with (hselect | ⟨rx', hrx', heq⟩) | hfinish
  · have := congrArg (fun e : Exchange => e.request.rxSize) hselect
    simp [chunkRequest, selectRequest, mcRequest, mcPioReadChunk] at this
  · exact Option.some.inj (Exchange.mk.inj heq).2 ▸ hrx'
  · have := congrArg (fun e : Exchange => e.request.timeoutPolls) hfinish
    simp [chunkRequest, finishRequest, mcRequest] at this

/-- The bytes of chunks one after the other. -/
theorem getD_flatMap_chunkData (h : ∀ rx ∈ chunks, rx.length = mcPioReadChunk + 6) {k i : ℕ}
    (hk : k < chunks.length) (hi : i < mcPioReadChunk) :
    (chunks.flatMap (chunkData mcPioReadChunk)).getD (mcPioReadChunk * k + i) 0
      = (chunks.getD k []).getD (4 + i) 0 := by
  induction chunks generalizing k with
  | nil => simp at hk
  | cons rx chunks ih =>
    obtain ⟨hrx, hchunks⟩ := List.forall_mem_cons.1 h
    have hlength := length_chunkData hrx
    rw [List.flatMap_cons]
    cases k with
    | zero =>
      rw [Nat.mul_zero, Nat.zero_add, List.getD_append _ _ _ _ (hlength.symm ▸ hi),
        List.getD_cons_zero, chunkData, List.getD, List.getElem?_take_of_lt hi,
        List.getElem?_drop]
      rfl
    | succ k =>
      rw [List.getD_append_right _ _ _ _ (by rw [hlength, Nat.mul_succ]; omega), hlength,
        List.getD_cons_succ, ← ih hchunks (Nat.lt_of_succ_lt_succ hk), Nat.mul_succ]
      congr 1
      omega

/-- Without a port to read from there is no exchange. -/
theorem mcReadPage_no_port (hport : ¬info.physicalPort.toNat < 4) (b : Backend) :
    (mcReadPage device info pageNumber b).2 = b ∧
      (mcReadPage device info pageNumber b).1.1 < 0 := by
  have hselect : mcSelectReadPage device info pageNumber b = (-10, b) := by
    have hexchange : sio2Exchange device (selectRequest info.physicalPort pageNumber)
        = pure (-1, []) :=
      if_pos (Or.inl (Nat.le_of_not_lt hport))
    rw [mcSelectReadPage, bind_apply, hexchange]
    rfl
  rw [mcReadPage, ite_run]
  split
  · exact ⟨rfl, show (-2 : ℤ) < 0 by decide⟩
  · rw [bind_apply, hselect]
    exact ⟨rfl, show (-10 : ℤ) < 0 by decide⟩

/-- A page read succeeds with the page that its exchanges brought, or fails. -/
theorem traces_backendReadPage : Traces (backendReadPage device info pageNumber) fun read l _ =>
    (read.1 = 0 ∧ pageNumber < info.pageCount ∧ ∃ select chunks finish,
      ReadExchanges l info.physicalPort pageNumber read.2 select chunks finish) ∨ read.1 < 0 := by
  refine Traces.ite (fun _ => Traces.pure fun _ => Or.inr (by decide)) fun _ => ?_
  by_cases hpage : info.pageCount ≤ pageNumber
  · rw [mcReadPage, if_pos (Or.inr (Or.inr hpage))]
    exact Traces.pure fun _ => Or.inr (by decide)
  by_cases hport : info.physicalPort.toNat < 4
  · refine (traces_mcReadPage hport).mono ?_
    rintro read l - ⟨-, ⟨hzero, hread⟩ | ⟨hneg, -⟩⟩
    · exact Or.inl ⟨hzero, UInt32.not_le.1 hpage, hread⟩
    · exact Or.inr hneg
  · intro b
    obtain ⟨hsame, hneg⟩ := mcReadPage_no_port hport b
    exact ⟨[], by rw [hsame, List.append_nil], Or.inr hneg⟩

end Backends

/-! ## The reply and the buffer -/

section Client

variable {device : Device} {transport : Transport} {info : DeviceInfo} {request : RpcRequest}
  {handled : RpcReply} {b b' : Backend} {index page size : UInt32} {buffer : Option UInt32}
  {mem : Memory} {s : Storage}

theorem readPage_answered
    (hhandled : deviceCall device .readPage request info b = (handled, b'))
    (h : 0 ≤ handled.result) :
    ∃ data, handled.dataSize = request.dataSize ∧ handled.data = padded ioChunk data ∧
      data.length = ioChunk ∧ backendReadPage device info request.page b = ((0, data), b') := by
  rw [deviceCall] at hhandled
  split at hhandled
  · obtain ⟨rfl, rfl⟩ := Prod.mk.inj hhandled
    exact absurd h (by decide)
  · obtain ⟨rfl, rfl⟩ := Prod.mk.inj hhandled
    obtain ⟨l, -, ⟨hzero, -, _, _, _, hread⟩ | hneg⟩ :=
      traces_backendReadPage b
    · exact ⟨_, if_pos hzero, rfl, hread.length_eq, Prod.ext (Prod.ext hzero rfl) rfl⟩
    · exact absurd h (Int.not_le.2 hneg)

/-- The buffer gets the page that the backend read, or memory stays as it is. -/
theorem readPage_run (device : Device) (transport : Transport) (index page : UInt32)
    (buffer : Option UInt32) (size : UInt32) (mem : Memory) (s : Storage) :
    let read := readPage device transport index page buffer size mem s
    (read.1.1 = 0 ∧ ∃ address info data, buffer = some address ∧
        s.server.devices[index.toNat]? = some info ∧
        backendReadPage device info page s.server.backend = ((0, data), read.2.server.backend) ∧
        read.1.2 = storeBytes mem address (data.take size.toNat)) ∨
      (read.1.1 ≠ 0 ∧ read.1.2 = mem) := by
  cases buffer with
  | none => exact Or.inr ⟨show (-1 : ℤ) ≠ 0 by decide, rfl⟩
  | some address =>
    have hrun : readPage device transport index page (some address) size mem s
        = if s.bound = false ∨ size = 0 ∨ UInt32.ofNat ioChunk < size then ((-1, mem), s)
          else
            let called := storageRpc device transport (.onDevice .readPage)
              (readPageRequest index page size) s
            if called.1 < 0 then ((called.1, mem), called.2)
            else if called.2.reply.dataSize ≠ size then ((-2, mem), called.2)
            else ((0, storeBytes mem address (called.2.reply.bytes size.toNat)), called.2) := by
      simp only [readPage, bind_apply, ite_run]
      rfl
    rw [hrun]
    split
    · exact Or.inr ⟨show (-1 : ℤ) ≠ 0 by decide, rfl⟩
    · next hguard =>
      obtain ⟨-, call, -, houtcome⟩ := storageRpc_outcome device transport .readPage
        (readPageRequest index page size) s
      generalize storageRpc device transport (.onDevice .readPage)
        (readPageRequest index page size) s = called at *
      obtain ⟨hneg, -⟩ | ⟨hnonneg, info, handled, hcall, hhandled, hresult, -, hsize, hdata⟩ :=
        houtcome
      · rw [if_pos hneg]
        exact Or.inr ⟨Int.ne_of_lt hneg, rfl⟩
      · obtain ⟨data, hsize', hdata', hlength, hbackend⟩ :=
          readPage_answered hhandled (hresult ▸ hnonneg)
        have hle : size.toNat ≤ data.length := by
          rw [hlength]
          exact Nat.le_of_not_lt fun h => hguard (Or.inr (Or.inr h))
        have hreply : called.2.reply.dataSize = size := hsize.trans hsize'
        rw [if_neg (Int.not_lt.2 hnonneg), if_neg (not_not.2 hreply)]
        refine Or.inl ⟨rfl, address, info, data, rfl, hcall.1, hbackend, ?_⟩
        rw [RpcReply.bytes_eq (hdata.trans hdata') (Nat.le_of_eq hlength) hle]

end Client

/-! ## A checked page -/

/-- A page read returns 0 only for a page that the card has, and after every one of its
exchanges was answered as the protocol asks; its bytes are those of the chunks. An altered chunk
makes it fail, and a failed read leaves the EE's memory as it is. -/
theorem page_reads_checked (device : Device) :
    (∀ info pageNumber b, let read := backendReadPage device info pageNumber b
      ∃ l, read.2.log = b.log ++ l ∧
        (read.1.1 = 0 → pageNumber < info.pageCount ∧
          NamesPage (selectRequest info.physicalPort pageNumber).tx pageNumber ∧
          ∃ select chunks finish,
            ReadExchanges l info.physicalPort pageNumber read.1.2 select chunks finish ∧
            chunks.length = 16 ∧ read.1.2.length = 512 ∧
            ∀ k < 16, ∀ i < 32,
              read.1.2.getD (32 * k + i) 0 = (chunks.getD k []).getD (4 + i) 0) ∧
        ∀ rx, AlteredChunk rx →
          ⟨chunkRequest info.physicalPort mcPioReadChunk, some rx⟩ ∈ l → read.1.1 ≠ 0) ∧
    ∀ transport index page buffer size mem s,
      let read := readPage device transport index page buffer size mem s
      (read.1.1 ≠ 0 → read.1.2 = mem) ∧
        (read.1.1 = 0 → ∃ address info data, buffer = some address ∧
          s.server.devices[index.toNat]? = some info ∧
          backendReadPage device info page s.server.backend
            = ((0, data), read.2.server.backend) ∧
          read.1.2 = storeBytes mem address (data.take size.toNat)) := by
  refine ⟨fun info pageNumber b => ?_, fun transport index page buffer size mem s => ?_⟩
  · obtain ⟨l, hl, hread⟩ :=
      traces_backendReadPage b
    refine ⟨l, hl, fun hzero => ?_, fun rx hrx hmem hzero => ?_⟩
    · obtain ⟨-, hpage, select, chunks, finish, h⟩ | hneg := hread
      · refine ⟨hpage, selectRequest_namesPage _ _, select, chunks, finish, h, h.count,
          h.length_eq, fun k hk i hi => ?_⟩
        rw [h.page_eq]
        exact getD_flatMap_chunkData (fun rx hrx => (h.chunks_ok rx hrx).2)
          (h.count.symm ▸ hk) hi
      · exact absurd hzero (Int.ne_of_lt hneg)
    · obtain ⟨-, -, select, chunks, finish, h⟩ | hneg := hread
      · exact hrx.not_ok (h.chunks_ok rx (h.mem_chunks hmem)).1
      · exact Int.ne_of_lt hneg hzero
  · obtain ⟨hzero, hread⟩ | ⟨hne, hmem⟩ :=
      readPage_run device transport index page buffer size mem s
    · exact ⟨fun h => absurd hzero h, fun _ => hread⟩
    · exact ⟨fun _ => hmem, fun h => absurd h hne⟩

/-- A card whose pages are blank. -/
def blankCard : Device := fun _ q => some fun i =>
  let command := q.tx.getD 1 0
  if i + 1 = q.rxSize then 0x55
  else if command = 0x23 ∧ i = 7 ∨ command = 0x43 ∧ i = 3 ∨ command = 0x81 ∧ i = 2 then 0x2B
  else 0

/-- Its record, with a single page. -/
def blankCardInfo : DeviceInfo where
  capabilities := capGeometry ||| capPageRead
  physicalPort := 2
  pageSize := UInt32.ofNat ioChunk
  pageCount := 1

example : (backendReadPage blankCard blankCardInfo 0 boot).1 = (0, List.replicate 512 0) := by
  decide +kernel

end EF2SDK.IopStorage
