import EF2SDK.Mx4sioAddress
import EF2SDK.StorageScan

/-!
# What the probes of a scan read off the devices

Every probe of the storage scan is a few exchanges, and its result says how they were
answered. `Traces` follows the exchanges that a computation adds to the log, with its result.

A probe that is one request reports success exactly when the request was answered as the
protocol asks (`PingOk`, `TerminatorOk`, `SpecOk`). Page 0 is read exactly when a select, sixteen
chunks and a finish were all answered so, one after the other (`PageRead`). The probe of an SD
card only makes exchanges of its own kind, and ends with a card ready exactly when it
reports success.
-/

set_option autoImplicit false

namespace EF2SDK.IopStorage

variable {α β : Type} {device : Device} {l l' : List Exchange} {q : Request} {port : UInt32}
  {info : DeviceInfo} {result : ℤ} {data page : List UInt8}

/-! ## Following the log -/

/-- The computation adds exchanges to the log, and `Q` holds of its result, of them and of the
last state. -/
def Traces (x : StateM Backend α) (Q : α → List Exchange → Backend → Prop) : Prop :=
  ∀ b, ∃ l, (x b).2.log = b.log ++ l ∧ Q (x b).1 l (x b).2

namespace Traces

variable {x : StateM Backend α} {Q Q' : α → List Exchange → Backend → Prop}

theorem mono (h : Traces x Q) (hQ : ∀ a l b, Q a l b → Q' a l b) : Traces x Q' := by
  intro b
  obtain ⟨l, hl, hq⟩ := h b
  exact ⟨l, hl, hQ _ _ _ hq⟩

theorem pure {a : α} (h : ∀ b, Q a [] b) : Traces (pure a : StateM Backend α) Q := fun b =>
  ⟨[], (List.append_nil _).symm, h b⟩

theorem bind {f : α → StateM Backend β} {M : α → List Exchange → Backend → Prop}
    {Q : β → List Exchange → Backend → Prop} (hx : Traces x M)
    (hf : ∀ a l b, M a l b → Traces (f a) fun c l' b' => Q c (l ++ l') b') :
    Traces (x >>= f) Q := by
  intro b
  obtain ⟨l, hl, hm⟩ := hx b
  obtain ⟨l', hl', hq⟩ := hf _ _ _ hm (x b).2
  refine ⟨l ++ l', ?_, hq⟩
  rw [bind_apply, hl', hl, List.append_assoc]

/-- A last step that only changes the result. -/
theorem map {f : α → β} {Q : β → List Exchange → Backend → Prop}
    (hx : Traces x fun a l b => Q (f a) l b) : Traces (x >>= fun a => Pure.pure (f a)) Q :=
  hx

theorem ite {p : Prop} [Decidable p] {y : StateM Backend α} (hx : p → Traces x Q)
    (hy : ¬p → Traces y Q) : Traces (if p then x else y) Q := by
  split
  · exact hx ‹_›
  · exact hy ‹_›

end Traces

/-- An exchange adds itself. -/
theorem traces_exchange (h : ¬(4 ≤ q.port ∨ 256 < q.tx.length ∨ 256 < q.rxSize)) :
    Traces (sio2Exchange device q) fun exchanged l _ => ∃ answer, l = [⟨q, answer⟩] ∧
      exchanged = received answer ∧ ∀ rx, answer = some rx → rx.length = q.rxSize := by
  intro b
  rw [sio2Exchange_run device h]
  refine ⟨_, rfl, _, rfl, rfl, fun rx hrx => ?_⟩
  obtain ⟨f, -, rfl⟩ := Option.map_eq_some_iff.1 hrx
  simp

theorem received_lt_zero {answer : Option (List UInt8)} :
    (received answer).1 < 0 ↔ answer = none := by
  cases answer <;> simp [received]

/-! ## Probes of one request -/

/-- The request was not made. -/
def NotMade (l : List Exchange) (q : Request) : Prop :=
  ∀ e ∈ l, e.request ≠ q

@[simp] theorem notMade_nil : NotMade [] q := by
  simp [NotMade]

@[simp] theorem notMade_append : NotMade (l ++ l') q ↔ NotMade l q ∧ NotMade l' q := by
  simp [NotMade, or_imp, forall_and]

/-- The request was answered as `P` asks. -/
def AnsweredSo (l : List Exchange) (q : Request) (P : List UInt8 → Prop) : Prop :=
  ∃ rx, ⟨q, some rx⟩ ∈ l ∧ P rx

theorem NotMade.not_answeredSo {P : List UInt8 → Prop} (h : NotMade l q) : ¬AnsweredSo l q P :=
  fun ⟨_, hrx, _⟩ => h _ hrx rfl

/-- The result of a probe : 0 exactly when its request was answered as `P` asks, -127 exactly
when it was not made. -/
structure Reports (l : List Exchange) (q : Request) (P : List UInt8 → Prop) (result : ℤ) :
    Prop where
  zero : result = 0 ↔ AnsweredSo l q P
  not_attempted : result = -127 ↔ NotMade l q

namespace Reports

variable {P : List UInt8 → Prop}

theorem of_notMade (h : NotMade l q) : Reports l q P (-127) :=
  ⟨iff_of_false (by decide) h.not_answeredSo, iff_of_true rfl h⟩

theorem of_accepted {rx : List UInt8} (h : P rx) : Reports [⟨q, some rx⟩] q P 0 :=
  ⟨iff_of_true rfl ⟨rx, List.mem_cons_self, h⟩,
    iff_of_false (by decide) fun hq => hq _ List.mem_cons_self rfl⟩

theorem of_rejected {answer : Option (List UInt8)} (h : ∀ rx, answer = some rx → ¬P rx)
    (hzero : result ≠ 0) (hne : result ≠ -127) : Reports [⟨q, answer⟩] q P result := by
  refine ⟨iff_of_false hzero ?_, iff_of_false hne fun hq => hq _ List.mem_cons_self rfl⟩
  rintro ⟨rx, hrx, hp⟩
  exact h rx (Exchange.mk.inj (List.mem_singleton.1 hrx)).2.symm hp

theorem of_unanswered : Reports [⟨q, none⟩] q P (-2) :=
  of_rejected (fun _ h => nomatch h) (by decide) (by decide)

/-- Exchanges that make other requests do not matter. -/
theorem append (h : Reports l q P result) (h' : NotMade l' q) : Reports (l ++ l') q P result := by
  refine ⟨h.zero.trans ?_, h.not_attempted.trans ?_⟩
  · refine exists_congr fun rx => and_congr_left fun _ => ?_
    rw [List.mem_append, or_iff_left fun hrx => h' _ hrx rfl]
  · rw [notMade_append, and_iff_left h']

theorem prepend (h : Reports l q P result) (h' : NotMade l' q) : Reports (l' ++ l) q P result := by
  refine ⟨h.zero.trans ?_, h.not_attempted.trans ?_⟩
  · refine exists_congr fun rx => and_congr_left fun _ => ?_
    rw [List.mem_append, or_iff_right fun hrx => h' _ hrx rfl]
  · rw [notMade_append, and_iff_right h']

end Reports

/-- The card of `mmce_ping` is an MMCE. -/
def PingOk (rx : List UInt8) : Prop :=
  rx.getD 1 0 = mmceReply

theorem traces_mmcePing (hport : port.toNat < 4) : Traces (mmcePing device port info)
    fun ping l _ => ∃ answer, l = [⟨pingRequest port, answer⟩] ∧
      Reports l (pingRequest port) PingOk ping.1 ∧
      ping.2.physicalPort = info.physicalPort ∧ ping.2.formatted = info.formatted := by
  refine Traces.bind (traces_exchange (by simp [pingRequest, mmceRequest]; omega)) ?_
  rintro _ _ - ⟨answer, rfl, rfl, -⟩
  cases answer with
  | none => exact Traces.pure fun _ => ⟨none, rfl, Reports.of_unanswered, rfl, rfl⟩
  | some rx =>
    refine Traces.ite (fun h => absurd h (by simp [received])) fun _ =>
      Traces.ite (fun h => Traces.pure fun _ => ⟨some rx, rfl, ?_, rfl, rfl⟩)
        fun h => Traces.pure fun _ => ⟨some rx, rfl, ?_, rfl, rfl⟩
    · exact Reports.of_rejected (fun _ hrx => Option.some.inj hrx ▸ h) (by simp) (by simp)
    · exact Reports.of_accepted (not_not.1 h)

/-- The card took the terminator. -/
def TerminatorOk (rx : List UInt8) : Prop :=
  rx.getD 3 0 = 0x2B ∧ rx.getD 4 0 = 0x5A

theorem traces_mcSetTerminator (hport : port.toNat < 4) :
    Traces (mcSetTerminator device port 0x5A) fun result l _ => ∃ answer,
      l = [⟨terminatorRequest port 0x5A, answer⟩] ∧
      Reports l (terminatorRequest port 0x5A) TerminatorOk result := by
  refine Traces.bind (traces_exchange (by simp [terminatorRequest, mcRequest]; omega)) ?_
  rintro _ _ - ⟨answer, rfl, rfl, -⟩
  cases answer with
  | none => exact Traces.pure fun _ => ⟨none, rfl, Reports.of_unanswered⟩
  | some rx =>
    refine Traces.ite (fun h => absurd h (by simp [received])) fun _ =>
      Traces.ite (fun h => Traces.pure fun _ => ⟨some rx, rfl, ?_⟩) fun h =>
      Traces.ite (fun h' => Traces.pure fun _ => ⟨some rx, rfl, ?_⟩)
        fun h' => Traces.pure fun _ => ⟨some rx, rfl, ?_⟩
    · exact Reports.of_rejected (fun _ hrx ok => h (Option.some.inj hrx ▸ ok.1)) (by decide)
        (by decide)
    · exact Reports.of_rejected (fun _ hrx ok => h' (Option.some.inj hrx ▸ ok.2)) (by decide)
        (by decide)
    · exact Reports.of_accepted ⟨not_not.1 h, not_not.1 h'⟩

/-- The card gave a geometry, with a valid check byte. -/
def SpecOk (rx : List UInt8) : Prop :=
  (rx.getD 12 0 = 0x5A ∨ rx.getD 12 0 = 0x55) ∧ xorEdc ((rx.drop 3).take 8) = rx.getD 11 0 ∧
    (DeviceInfo.setSpec {} rx).pageSize ≠ 0 ∧ (DeviceInfo.setSpec {} rx).pageCount ≠ 0

/-- The terminator and the specification, and the record filled in from an answer with a
valid check byte. -/
theorem traces_mcGetSpec (hport : port.toNat < 4) : Traces (mcGetSpec device port info)
    fun spec l _ => ∃ answer answer',
      l = [⟨terminatorRequest port 0x5A, answer⟩, ⟨specRequest port, answer'⟩] ∧
      Reports [⟨terminatorRequest port 0x5A, answer⟩] (terminatorRequest port 0x5A) TerminatorOk
        spec.terminator ∧
      Reports [⟨specRequest port, answer'⟩] (specRequest port) SpecOk spec.result ∧
      (spec.info = info ∨ ∃ rx, spec.info = info.setSpec rx) ∧
      (spec.result = 0 → ∃ rx, answer' = some rx ∧ SpecOk rx ∧ spec.info = info.setSpec rx) := by
  refine Traces.bind (traces_mcSetTerminator hport) ?_
  rintro terminator _ - ⟨answer, rfl, hterminator⟩
  refine Traces.bind (traces_exchange (by simp [specRequest, mcRequest]; omega)) ?_
  rintro _ _ - ⟨answer', rfl, rfl, -⟩
  cases answer' with
  | none =>
    exact Traces.pure fun _ => ⟨answer, none, rfl, hterminator, Reports.of_unanswered, Or.inl rfl,
      fun h => absurd h (by simp [received])⟩
  | some rx =>
    have hrejected : ∀ {r : ℤ}, ¬SpecOk rx → r ≠ 0 → r ≠ -127 →
        Reports [⟨specRequest port, some rx⟩] (specRequest port) SpecOk r :=
      fun h => Reports.of_rejected fun _ hrx => Option.some.inj hrx ▸ h
    refine Traces.ite (fun h => absurd h (by simp [received])) fun _ =>
      Traces.ite (fun h => Traces.pure fun _ => ⟨answer, some rx, rfl, hterminator, ?_, Or.inl rfl,
        fun h0 => absurd h0 (by simp)⟩) fun h =>
      Traces.ite (fun h' => Traces.pure fun _ => ⟨answer, some rx, rfl, hterminator, ?_, Or.inl rfl,
        fun h0 => absurd h0 (by simp)⟩) fun h' =>
      Traces.ite (fun h'' => Traces.pure fun _ => ⟨answer, some rx, rfl, hterminator, ?_,
        Or.inr ⟨rx, rfl⟩, fun h0 => absurd h0 (by simp)⟩) fun h'' =>
      Traces.pure fun _ => ⟨answer, some rx, rfl, hterminator, ?_, Or.inr ⟨rx, rfl⟩, fun _ => ?_⟩
    · exact hrejected (fun ok => ok.1.elim h.1 h.2) (by simp) (by simp)
    · exact hrejected (fun ok => h' ok.2.1) (by simp) (by simp)
    · exact hrejected (fun ok => h''.elim ok.2.2.1 ok.2.2.2) (by simp) (by simp)
    · exact Reports.of_accepted ⟨or_iff_not_and_not.2 h, not_not.1 h', (not_or.1 h'').1,
        (not_or.1 h'').2⟩
    · exact ⟨rx, rfl, ⟨or_iff_not_and_not.2 h, not_not.1 h', (not_or.1 h'').1,
        (not_or.1 h'').2⟩, rfl⟩

/-! ## Requests by their purpose -/

/-- What a request of the scan is made for. -/
inductive Probe where
  | ping
  | terminator
  | spec
  | page
  | query
  | sdCard
  deriving DecidableEq

/-- The purpose of a request, by its protocol and its command byte. -/
def Request.probe (q : Request) : Probe :=
  if q.ctrl2 = mxCtrl2 then .sdCard
  else if q.tx.getD 1 0 = 0x01 then .ping
  else if q.tx.getD 1 0 = 0x27 then .terminator
  else if q.tx.getD 1 0 = 0x26 then .spec
  else if q.tx.getD 1 0 = 0x02 ∨ q.tx.getD 1 0 = 0x03 ∨ q.tx.getD 1 0 = 0x05 then .query
  else .page

@[simp] theorem probe_pingRequest : (pingRequest port).probe = .ping :=
  rfl

@[simp] theorem probe_terminatorRequest {terminator : UInt8} :
    (terminatorRequest port terminator).probe = .terminator :=
  rfl

@[simp] theorem probe_specRequest : (specRequest port).probe = .spec :=
  rfl

@[simp] theorem probe_finishRequest : (finishRequest port).probe = .page :=
  rfl

/-- Only requests of one purpose, on one port. -/
def Only (probe : Probe) (port : UInt32) (l : List Exchange) : Prop :=
  ∀ e ∈ l, e.request.probe = probe ∧ e.request.port = port.toNat

variable {probe : Probe}

theorem only_nil : Only probe port [] := by
  simp [Only]

theorem only_singleton {answer : Option (List UInt8)} :
    Only probe port [⟨q, answer⟩] ↔ q.probe = probe ∧ q.port = port.toNat := by
  simp [Only]

theorem only_append : Only probe port (l ++ l') ↔ Only probe port l ∧ Only probe port l' :=
  List.forall_mem_append

theorem Only.notMade (h : Only probe port l) (hq : q.probe ≠ probe) : NotMade l q :=
  fun e he heq => hq (heq ▸ (h e he).1)

/-! ## Reading a page -/

/-- The card selected the page. -/
def SelectOk (rx : List UInt8) : Prop :=
  rx.getD 7 0 = 0x2B ∧ mcValidTerminator (rx.getD 8 0) = true

/-- The card gave a chunk, with a valid check byte. -/
def ChunkOk (rx : List UInt8) : Prop :=
  rx.getD 3 0 = 0x2B ∧
    xorEdc (chunkData mcPioReadChunk rx) = rx.getD (4 + mcPioReadChunk) 0 ∧
    mcValidTerminator (rx.getD (5 + mcPioReadChunk) 0) = true

/-- The card ended the read. -/
def FinishOk (rx : List UInt8) : Prop :=
  rx.getD 2 0 = 0x2B ∧ mcValidTerminator (rx.getD 3 0) = true

/-- The exchanges of the chunks, by their answers. -/
def chunkExchanges (port : UInt32) (chunks : List (List UInt8)) : List Exchange :=
  chunks.map fun rx => ⟨chunkRequest port mcPioReadChunk, some rx⟩

/-- The page was selected, read in chunks and finished, one right after the other, and every
answer was valid; its bytes are those of the chunks. -/
def PageRead (l : List Exchange) (port pageNumber : UInt32) (page : List UInt8) : Prop :=
  ∃ before select chunks finish after,
    l = before ++ (⟨selectRequest port pageNumber, some select⟩ :: chunkExchanges port chunks ++
      [⟨finishRequest port, some finish⟩]) ++ after ∧
    SelectOk select ∧ (∀ rx ∈ chunks, ChunkOk rx) ∧ FinishOk finish ∧
    chunks.length * mcPioReadChunk = ioChunk ∧ page.length = ioChunk ∧
    page = chunks.flatMap (chunkData mcPioReadChunk)

/-- Exactly the exchanges of such a read, by their answers. -/
structure ReadExchanges (l : List Exchange) (port pageNumber : UInt32) (page select : List UInt8)
    (chunks : List (List UInt8)) (finish : List UInt8) : Prop where
  log : l = ⟨selectRequest port pageNumber, some select⟩ :: chunkExchanges port chunks ++
    [⟨finishRequest port, some finish⟩]
  select_ok : SelectOk select
  count : chunks.length = ioChunk / mcPioReadChunk
  chunks_ok : ∀ rx ∈ chunks, ChunkOk rx ∧ rx.length = mcPioReadChunk + 6
  finish_ok : FinishOk finish
  page_eq : page = chunks.flatMap (chunkData mcPioReadChunk)

theorem length_chunkData {rx : List UInt8} (h : rx.length = mcPioReadChunk + 6) :
    (chunkData mcPioReadChunk rx).length = mcPioReadChunk := by
  simp [chunkData, h]

theorem length_flatMap_chunkData {chunks : List (List UInt8)}
    (h : ∀ rx ∈ chunks, rx.length = mcPioReadChunk + 6) :
    (chunks.flatMap (chunkData mcPioReadChunk)).length = chunks.length * mcPioReadChunk := by
  rw [List.length_flatMap, List.map_congr_left fun rx hrx => length_chunkData (h rx hrx)]
  simp

namespace ReadExchanges

variable {pageNumber : UInt32} {select finish : List UInt8} {chunks : List (List UInt8)}

theorem length_eq (h : ReadExchanges l port pageNumber page select chunks finish) :
    page.length = ioChunk := by
  rw [h.page_eq, length_flatMap_chunkData fun rx hrx => (h.chunks_ok rx hrx).2, h.count]
  rfl

theorem pageRead (h : ReadExchanges l port pageNumber page select chunks finish) :
    PageRead l port pageNumber page := by
  refine ⟨[], select, chunks, finish, [], by simpa using h.log, h.select_ok,
    fun rx hrx => (h.chunks_ok rx hrx).1, h.finish_ok, ?_, h.length_eq, h.page_eq⟩
  rw [h.count]
  rfl

end ReadExchanges

theorem PageRead.append {pageNumber : UInt32} (h : PageRead l port pageNumber page)
    (l₁ l₂ : List Exchange) : PageRead (l₁ ++ l ++ l₂) port pageNumber page := by
  obtain ⟨before, select, chunks, finish, after, rfl, hok⟩ := h
  exact ⟨l₁ ++ before, select, chunks, finish, after ++ l₂, by simp, hok⟩

theorem PageRead.finished {pageNumber : UInt32} (h : PageRead l port pageNumber page) :
    AnsweredSo l (finishRequest port) FinishOk := by
  obtain ⟨before, select, chunks, finish, after, rfl, -, -, hfinish, -⟩ := h
  exact ⟨finish, by simp, hfinish⟩

theorem traces_mcSelectReadPage {pageNumber : UInt32} (hport : info.physicalPort.toNat < 4) :
    Traces (mcSelectReadPage device info pageNumber) fun result l _ => ∃ answer,
      l = [⟨selectRequest info.physicalPort pageNumber, answer⟩] ∧
      (result = 0 ∧ (∃ rx, answer = some rx ∧ SelectOk rx) ∨ result < 0 ∧ result ≠ -127) := by
  refine Traces.bind (traces_exchange (by simp [selectRequest, mcRequest]; omega)) ?_
  rintro _ _ - ⟨answer, rfl, rfl, -⟩
  cases answer with
  | none =>
    exact Traces.ite (fun _ => Traces.pure fun _ => ⟨none, rfl, Or.inr (by decide)⟩)
      fun h => absurd (received_lt_zero.2 rfl) h
  | some rx =>
    refine Traces.ite (fun _ => Traces.pure fun _ => ⟨some rx, rfl, Or.inr (by decide)⟩) fun _ =>
      Traces.ite (fun _ => Traces.pure fun _ => ⟨some rx, rfl, Or.inr (by decide)⟩) fun h =>
      Traces.ite (fun _ => Traces.pure fun _ => ⟨some rx, rfl, Or.inr (by decide)⟩) fun h' =>
      Traces.pure fun _ => ⟨some rx, rfl, Or.inl ⟨rfl, rx, rfl, not_not.1 h, ?_⟩⟩
    exact Bool.not_eq_false _ ▸ h'

theorem traces_mcReadDataChunk (hport : info.physicalPort.toNat < 4) :
    Traces (mcReadDataChunk device info mcPioReadChunk) fun chunk l _ => ∃ answer,
      l = [⟨chunkRequest info.physicalPort mcPioReadChunk, answer⟩] ∧
      (chunk.1 = 0 ∧ (∃ rx, answer = some rx ∧ ChunkOk rx ∧
          rx.length = mcPioReadChunk + 6 ∧ chunk.2 = chunkData mcPioReadChunk rx) ∨
        chunk.1 < 0 ∧ chunk.1 ≠ -127) := by
  unfold mcReadDataChunk
  rw [if_neg (by decide)]
  refine Traces.bind (traces_exchange (by simp [chunkRequest, mcRequest, mcPioReadChunk]; omega)) ?_
  rintro _ _ - ⟨answer, rfl, rfl, hlength⟩
  cases answer with
  | none =>
    exact Traces.ite (fun _ => Traces.pure fun _ => ⟨none, rfl, Or.inr (by simp)⟩)
      fun h => absurd (received_lt_zero.2 rfl) h
  | some rx =>
    refine Traces.ite (fun _ => Traces.pure fun _ => ⟨some rx, rfl, Or.inr (by simp)⟩) fun _ =>
      Traces.ite (fun _ => Traces.pure fun _ => ⟨some rx, rfl, Or.inr (by simp)⟩) fun h =>
      Traces.ite (fun _ => Traces.pure fun _ => ⟨some rx, rfl, Or.inr (by simp)⟩) fun h' =>
      Traces.ite (fun _ => Traces.pure fun _ => ⟨some rx, rfl, Or.inr (by simp)⟩) fun h'' =>
      Traces.pure fun _ => ⟨some rx, rfl, Or.inl ⟨rfl, rx, rfl, ⟨not_not.1 h, not_not.1 h', ?_⟩,
        hlength rx rfl, rfl⟩⟩
    exact Bool.not_eq_false _ ▸ h''

theorem traces_mcFinishRead (hport : info.physicalPort.toNat < 4) :
    Traces (mcFinishRead device info) fun result l _ => ∃ answer,
      l = [⟨finishRequest info.physicalPort, answer⟩] ∧
      (result = 0 ∧ (∃ rx, answer = some rx ∧ FinishOk rx) ∨
        result < 0 ∧ result ≠ -127 ∧ ∀ rx, answer = some rx → ¬FinishOk rx) := by
  refine Traces.bind (traces_exchange (by simp [finishRequest, mcRequest]; omega)) ?_
  rintro _ _ - ⟨answer, rfl, rfl, -⟩
  cases answer with
  | none =>
    exact Traces.ite (fun _ => Traces.pure fun _ => ⟨none, rfl, Or.inr ⟨by decide, by decide,
      fun _ h => nomatch h⟩⟩) fun h => absurd (received_lt_zero.2 rfl) h
  | some rx =>
    refine Traces.ite (fun h => absurd h (by simp [received])) fun _ =>
      Traces.ite (fun h => Traces.pure fun _ => ⟨some rx, rfl, Or.inr ⟨by decide, by decide,
        fun _ hrx ok => h (Option.some.inj hrx ▸ ok.1)⟩⟩) fun h =>
      Traces.ite (fun h' => Traces.pure fun _ => ⟨some rx, rfl, Or.inr ⟨by decide, by decide,
        fun _ hrx ok => ?_⟩⟩) fun h' =>
      Traces.pure fun _ => ⟨some rx, rfl, Or.inl ⟨rfl, rx, rfl, not_not.1 h, ?_⟩⟩
    · obtain rfl := Option.some.inj hrx
      exact Bool.false_ne_true (h'.symm.trans ok.2)
    · exact Bool.not_eq_false _ ▸ h'

theorem only_selectRequest {pageNumber : UInt32} {answer : Option (List UInt8)} :
    Only .page port [⟨selectRequest port pageNumber, answer⟩] :=
  only_singleton.2 ⟨rfl, rfl⟩

theorem only_chunkRequest {answer : Option (List UInt8)} :
    Only .page port [⟨chunkRequest port mcPioReadChunk, answer⟩] :=
  only_singleton.2 ⟨rfl, rfl⟩

/-- The chunks left, after those in `data`. -/
theorem traces_mcReadChunks (hport : info.physicalPort.toNat < 4) (n : ℕ) (data : List UInt8) :
    Traces (mcReadChunks device info n data) fun read l _ =>
      Only .page info.physicalPort l ∧ NotMade l (finishRequest info.physicalPort) ∧
      (read.1 = 0 ∧ (∃ chunks, l = chunkExchanges info.physicalPort chunks ∧ chunks.length = n ∧
          (∀ rx ∈ chunks, ChunkOk rx ∧ rx.length = mcPioReadChunk + 6) ∧
          read.2 = data ++ chunks.flatMap (chunkData mcPioReadChunk)) ∨
        read.1 < 0 ∧ read.1 ≠ -127) := by
  induction n generalizing data with
  | zero =>
    exact Traces.pure fun _ => ⟨only_nil, notMade_nil, Or.inl ⟨rfl, [], rfl, rfl, by simp,
      by simp⟩⟩
  | succ n ih =>
    refine Traces.bind (traces_mcReadDataChunk hport) ?_
    rintro chunk _ - ⟨answer, rfl, hchunk⟩
    have hfinish : NotMade [⟨chunkRequest info.physicalPort mcPioReadChunk, answer⟩]
        (finishRequest info.physicalPort) := by
      intro e he heq
      have := congrArg Request.timeoutPolls (List.mem_singleton.1 he ▸ heq)
      simp [chunkRequest, finishRequest, mcRequest] at this
    rcases hchunk with ⟨hzero, rx, rfl, hok, hlength, hdata⟩ | ⟨hneg, hne⟩
    · refine Traces.ite (fun h => by omega) fun _ => (ih (data ++ chunk.2)).mono ?_
      rintro read l - ⟨honly, hnot, hread⟩
      refine ⟨only_append.2 ⟨only_chunkRequest, honly⟩, notMade_append.2 ⟨hfinish, hnot⟩, ?_⟩
      refine hread.imp_left ?_
      rintro ⟨hres, chunks, rfl, rfl, hall, hbytes⟩
      refine ⟨hres, rx :: chunks, rfl, rfl, List.forall_mem_cons.2 ⟨⟨hok, hlength⟩, hall⟩, ?_⟩
      rw [hbytes, hdata, List.flatMap_cons, List.append_assoc]
    · refine Traces.ite (fun _ => Traces.pure fun _ => ?_) fun h => absurd hneg h
      exact ⟨by simpa using only_chunkRequest, by simpa using hfinish, Or.inr ⟨hneg, hne⟩⟩

/-- The result of a page read says whether the page was read. -/
theorem traces_mcReadPage {pageNumber : UInt32} (hport : info.physicalPort.toNat < 4) :
    Traces (mcReadPage device info pageNumber) fun read l _ => Only .page info.physicalPort l ∧
      (read.1 = 0 ∧ (∃ select chunks finish,
          ReadExchanges l info.physicalPort pageNumber read.2 select chunks finish) ∨
        read.1 < 0 ∧ read.1 ≠ -127 ∧ ¬AnsweredSo l (finishRequest info.physicalPort) FinishOk) := by
  have hselect : ∀ answer, NotMade [⟨selectRequest info.physicalPort pageNumber, answer⟩]
      (finishRequest info.physicalPort) := by
    intro answer e he heq
    have := congrArg Request.rxSize (List.mem_singleton.1 he ▸ heq)
    simp [selectRequest, finishRequest, mcRequest] at this
  refine Traces.ite (fun _ => Traces.pure fun _ => ⟨only_nil, Or.inr ⟨by simp, by simp,
    notMade_nil.not_answeredSo⟩⟩) fun _ => ?_
  refine Traces.bind (traces_mcSelectReadPage hport) ?_
  rintro selected _ - ⟨answer, rfl, ⟨hzero, select, rfl, hselected⟩ | ⟨hneg, hne⟩⟩
  · refine Traces.ite (fun h => by omega) fun _ => ?_
    refine Traces.bind (traces_mcReadChunks hport _ _) ?_
    rintro read l - ⟨honly, hnot, ⟨hres, chunks, rfl, hn, hall, hbytes⟩ | ⟨hneg, hne⟩⟩
    · refine Traces.ite (fun h => by omega) fun _ => ?_
      refine Traces.bind (traces_mcFinishRead hport) ?_
      rintro finished _ - ⟨answer, rfl, hfinish⟩
      refine Traces.pure fun _ => ⟨?_, hfinish.imp ?_ ?_⟩
      · simp only [only_append, only_nil, and_true]
        exact ⟨only_selectRequest, honly, only_singleton.2 ⟨rfl, rfl⟩⟩
      · rintro ⟨hdone, rx, rfl, hok⟩
        exact ⟨hdone, select, chunks, rx, by simp, hselected, hn, hall, hok, hbytes⟩
      · rintro ⟨hneg, hne, hrejected⟩
        refine ⟨hneg, hne, fun ⟨rx, hrx, hok⟩ => ?_⟩
        simp only [List.append_nil, List.mem_append] at hrx
        rcases hrx with hrx | hrx | hrx
        · exact hselect _ _ hrx rfl
        · exact hnot _ hrx rfl
        · exact hrejected rx (Exchange.mk.inj (List.mem_singleton.1 hrx)).2.symm hok
    · refine Traces.ite (fun _ => Traces.pure fun _ => ?_) fun h => absurd hneg h
      simp only [List.append_nil, only_append]
      exact ⟨⟨only_selectRequest, honly⟩, Or.inr ⟨hneg, hne,
        (notMade_append.2 ⟨hselect _, hnot⟩).not_answeredSo⟩⟩
  · refine Traces.ite (fun _ => Traces.pure fun _ => ?_) fun h => absurd hneg h
    rw [List.append_nil]
    exact ⟨only_selectRequest, Or.inr ⟨hneg, hne, (hselect _).not_answeredSo⟩⟩

theorem prefix_iff_getD {p : List UInt8} (h : p.length ≤ data.length) :
    p <+: data ↔ ∀ i < p.length, data.getD i 0 = p.getD i 0 := by
  rw [List.prefix_iff_getElem]
  constructor
  · rintro ⟨_, hp⟩ i hi
    simp [List.getD, hi, Nat.lt_of_lt_of_le hi h, hp i hi]
  · intro hp
    refine ⟨h, fun i hi => ?_⟩
    have := hp i hi
    simp [List.getD, hi, Nat.lt_of_lt_of_le hi h] at this
    exact this.symm

/-- The format is known exactly when page 0 was read, and then it is the page's. -/
theorem traces_mcCheckFormat (hport : info.physicalPort.toNat < 4) :
    Traces (mcCheckFormat device info) fun format l _ => Only .page info.physicalPort l ∧
      (format.1 = 0 ∧ format.2 ≠ .unknown ∧ (∃ page, PageRead l info.physicalPort 0 page ∧
          (format.2 = .formatted ↔ formatMagic <+: page)) ∨
        format.1 ≠ 0 ∧ format.1 ≠ -127 ∧ format.2 = .unknown ∧
          ¬AnsweredSo l (finishRequest info.physicalPort) FinishOk) := by
  refine Traces.bind (traces_mcReadPage hport) ?_
  rintro read l - ⟨honly, ⟨hzero, _, _, _, hexchanges⟩ | ⟨hneg, hne, hfinish⟩⟩
  · have hread := hexchanges.pageRead
    have hlength : formatMagic.length ≤ read.2.length := by
      obtain ⟨_, _, _, _, _, -, -, -, -, -, hlen, -⟩ := hread
      rw [hlen]
      decide
    refine Traces.ite (fun h => by omega) fun _ => Traces.ite (fun h => Traces.pure fun _ => ?_)
      fun h => Traces.pure fun _ => ?_
    · rw [List.append_nil]
      exact ⟨honly, Or.inl ⟨rfl, by simp, read.2, hread,
        iff_of_true rfl ((prefix_iff_getD hlength).2 h)⟩⟩
    · rw [List.append_nil]
      exact ⟨honly, Or.inl ⟨rfl, by simp, read.2, hread,
        iff_of_false (by simp) fun hp => h ((prefix_iff_getD hlength).1 hp)⟩⟩
  · refine Traces.ite (fun _ => Traces.pure fun _ => ?_) fun h => absurd hneg h
    rw [List.append_nil]
    exact ⟨honly, Or.inr ⟨by simp only; omega, hne, rfl, hfinish⟩⟩

/-! ## The SD card -/

/-- The log grows by exchanges with the SD card. -/
def SdSteps (b b' : Backend) : Prop :=
  ∃ l, b'.log = b.log ++ l ∧ Only .sdCard 3 l

/-- The driver's readiness stays. -/
def KeepsReady (b b' : Backend) : Prop :=
  b'.mxInitialized = b.mxInitialized

instance : Std.Refl SdSteps where
  refl _ := ⟨[], (List.append_nil _).symm, only_nil⟩

instance : IsTrans Backend SdSteps where
  trans _ _ _ := by
    rintro ⟨l, hl, hl'⟩ ⟨r, hr, hr'⟩
    exact ⟨l ++ r, by rw [hr, hl, List.append_assoc], only_append.2 ⟨hl', hr'⟩⟩

instance : Std.Refl KeepsReady where
  refl _ := rfl

instance : IsTrans Backend KeepsReady where
  trans _ _ _ h h' := Eq.trans h' h

theorem sdSteps_mxExchange (tx : List UInt8) (rxSize : ℕ) :
    Steps SdSteps (mxExchange device tx rxSize) := by
  intro b
  by_cases hsize : 256 < tx.length ∨ 256 < rxSize
  · rw [mxExchange, if_pos hsize]
    exact refl_of SdSteps b
  · rw [mxExchange_run tx rxSize hsize]
    exact ⟨_, rfl, only_singleton.2 ⟨rfl, rfl⟩⟩

theorem keepsReady_mxExchange (tx : List UInt8) (rxSize : ℕ) :
    Steps KeepsReady (mxExchange device tx rxSize) := by
  intro b
  by_cases hsize : 256 < tx.length ∨ 256 < rxSize
  · rw [mxExchange, if_pos hsize]
    exact refl_of KeepsReady b
  · rw [mxExchange_run tx rxSize hsize]
    rfl

theorem Traces.of_steps {x : StateM Backend α} (h : Steps SdSteps x) :
    Traces x fun _ l _ => Only .sdCard 3 l :=
  h

theorem sdSteps_mxReadGeometry : Steps SdSteps (mxReadGeometry device) :=
  Steps.bind (Steps.modify fun b => refl_of SdSteps b) fun _ =>
    Steps.bind (steps_mxReadRegister sdSteps_mxExchange _) fun _ => Steps.ite (Steps.pure _) <|
    Steps.bind (Steps.modify fun b => refl_of SdSteps b) fun _ => Steps.ite (Steps.pure _) <|
    Steps.bind (Steps.modify fun b => refl_of SdSteps b) fun _ => Steps.pure _

variable (device) in
/-- `mx_initialize` begins with the dummy clocks. -/
theorem traces_mxInitialize_log : Traces (mxInitialize device) fun _ l _ =>
    Only .sdCard 3 l ∧ l ≠ [] := by
  have hfirst : Traces (mxExchange device (List.replicate 10 0xFF) 0) fun _ l _ =>
      Only .sdCard 3 l ∧ l ≠ [] := by
    intro b
    rw [mxExchange_run _ _ (by simp)]
    exact ⟨_, rfl, only_singleton.2 ⟨rfl, rfl⟩, by simp⟩
  have hstart : Traces (modify fun b : Backend =>
      { b with mxBaud := mxBaudSlow, mxInitialized := false, mxSectorCount := 0 })
      fun _ l _ => l = [] := fun b => ⟨[], (List.append_nil _).symm, rfl⟩
  refine Traces.bind hstart ?_
  rintro _ _ - rfl
  refine Traces.bind hfirst ?_
  rintro dummy l - ⟨honly, hne⟩
  refine (Traces.of_steps ?_).mono fun _ l' _ h =>
    ⟨only_append.2 ⟨only_nil, only_append.2 ⟨honly, h⟩⟩, by simp [hne]⟩
  exact Steps.ite (Steps.pure _) <| Steps.bind (steps_mxSendCommand sdSteps_mxExchange _ _) fun _ =>
    Steps.ite (Steps.pure _) <|
    Steps.bind (steps_mxSendCommandData sdSteps_mxExchange _ _ _) fun _ =>
    Steps.bind (Steps.ite
      (steps_mxIdentifyV2 sdSteps_mxExchange (fun b _ => refl_of SdSteps b) _)
      (steps_mxIdentifyV1 sdSteps_mxExchange (fun b _ => refl_of SdSteps b) _)) fun _ =>
    Steps.ite (Steps.pure _) sdSteps_mxReadGeometry

/-- A failed `mx_initialize` leaves the driver without a card. -/
def NotReady (result : ℤ) (b : Backend) : Prop :=
  result ≠ -127 ∧ (result ≠ 0 → b.mxInitialized = false)

theorem Steps.notReady {x : StateM Backend α} (h : Steps KeepsReady x) :
    Triple (fun b => b.mxInitialized = false) x fun _ b => b.mxInitialized = false :=
  fun b hb => (h b).trans hb

theorem mxReadGeometry_notReady :
    Triple (fun b => b.mxInitialized = false) (mxReadGeometry device) NotReady := by
  have hmodify : ∀ f : Backend → Backend, (∀ b, (f b).mxInitialized = b.mxInitialized) →
      Triple (fun b => b.mxInitialized = false) (modify f : StateM Backend PUnit)
        fun _ b => b.mxInitialized = false :=
    fun f hf => Triple.modify fun b hb => (hf b).trans hb
  refine Triple.bind _ (hmodify _ fun _ => rfl) fun _ =>
    Triple.bind _ (Steps.notReady (steps_mxReadRegister keepsReady_mxExchange _)) fun _ =>
    Triple.ite (fun _ => Triple.pure fun _ hb => ⟨by decide, fun _ => hb⟩) fun _ =>
    Triple.bind _ (hmodify _ fun _ => rfl) fun _ =>
    Triple.ite (fun _ => Triple.pure fun _ hb => ⟨by decide, fun _ => hb⟩) fun _ =>
    Triple.last fun _ => Triple.pure fun _ _ => ⟨by decide, fun h => absurd rfl h⟩

/-- The results of the identification. -/
def IdentifyResult (result : ℤ) (_ : Backend) : Prop :=
  -127 < result ∧ result ≤ 0

theorem mxSetBlockLength_result :
    Triple (fun _ => True) (mxSetBlockLength device) IdentifyResult :=
  Triple.last fun _ => Triple.last fun _ =>
    Triple.ite (fun _ => Triple.pure fun _ _ => by simp [IdentifyResult])
      fun _ => Triple.pure fun _ _ => by simp [IdentifyResult]

theorem mxIdentifyV2_result (response : ℤ) :
    Triple (fun _ => True) (mxIdentifyV2 device response) IdentifyResult := by
  refine Triple.last fun powered => ?_
  cases powered with
  | none => exact Triple.pure fun _ _ => by simp [IdentifyResult]
  | some response =>
    exact Triple.ite (fun _ => Triple.pure fun _ _ => by simp [IdentifyResult]) fun _ =>
      Triple.last fun _ => Triple.ite (fun _ => Triple.pure fun _ _ => by simp [IdentifyResult])
        fun _ => Triple.last fun _ => Triple.pure fun _ _ => by simp [IdentifyResult]

theorem mxIdentifyV1_result (response : ℤ) :
    Triple (fun _ => True) (mxIdentifyV1 device response) IdentifyResult :=
  Triple.last fun _ => Triple.ite (fun _ => Triple.last fun _ => mxSetBlockLength_result) fun _ =>
    Triple.last fun _ => Triple.ite (fun _ => Triple.pure fun _ _ => by simp [IdentifyResult])
      fun _ => Triple.last fun _ => mxSetBlockLength_result

variable (device) in
theorem mxInitialize_notReady : Triple (fun _ => True) (mxInitialize device) NotReady := by
  have hidentify : ∀ (p : Prop) [Decidable p] (response : ℤ),
      Triple (fun b => b.mxInitialized = false)
        (if p then mxIdentifyV2 device response else mxIdentifyV1 device response)
        fun result b => b.mxInitialized = false ∧ IdentifyResult result b := by
    intro p _ response b hb
    refine ⟨Steps.notReady (Steps.ite
      (steps_mxIdentifyV2 keepsReady_mxExchange (fun _ _ => rfl) _)
      (steps_mxIdentifyV1 keepsReady_mxExchange (fun _ _ => rfl) _)) b hb, ?_⟩
    exact Triple.ite (fun _ => mxIdentifyV2_result response)
      (fun _ => mxIdentifyV1_result response) b trivial
  refine Triple.bind (fun _ b => b.mxInitialized = false) (Triple.modify fun _ _ => rfl) fun _ =>
    Triple.bind _ (Steps.notReady (keepsReady_mxExchange _ _)) fun _ =>
    Triple.ite (fun _ => Triple.pure fun _ hb => ⟨by decide, fun _ => hb⟩) fun _ =>
    Triple.bind _ (Steps.notReady (steps_mxSendCommand keepsReady_mxExchange _ _)) fun _ =>
    Triple.ite (fun _ => Triple.pure fun _ hb => ⟨by decide, fun _ => hb⟩) fun _ =>
    Triple.bind _ (Steps.notReady (steps_mxSendCommandData keepsReady_mxExchange _ _ _)) fun _ =>
    Triple.bind _ (hidentify _ _) fun identified => ?_
  refine Triple.ite (fun h => Triple.pure fun _ hb => ⟨?_, fun _ => hb.1⟩) fun _ b hb =>
    mxReadGeometry_notReady b hb.1
  have := hb.2.1
  omega

variable (device) in
/-- `mx_initialize` makes exchanges with the SD card only, and its result says whether the
driver is ready, with a card that has sectors. -/
theorem traces_mxInitialize : Traces (mxInitialize device) fun result l b =>
    Only .sdCard 3 l ∧ l ≠ [] ∧ result ≠ -127 ∧ (result = 0 ↔ b.mxInitialized = true) ∧
      (result = 0 → b.mxSectorCount ≠ 0) := by
  intro b
  obtain ⟨l, hl, honly, hne⟩ := traces_mxInitialize_log device b
  obtain ⟨hrange, hfailed⟩ := mxInitialize_notReady device b trivial
  have hok : Identified _ (mxInitialize device b).2 := mxInitialize_identified b trivial
  refine ⟨l, hl, honly, hne, hrange, ⟨fun h => (hok h).1, fun h => ?_⟩, fun h => (hok h).2.1⟩
  by_contra hres
  exact Bool.false_ne_true ((hfailed hres).symm.trans h)

end EF2SDK.IopStorage
