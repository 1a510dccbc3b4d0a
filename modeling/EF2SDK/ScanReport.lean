import EF2SDK.ScanProbes

/-!
# What a scan publishes

The storage scan publishes a device for each port at most, and reports the result of each of
its probes. Along the scan of one port the record is filled in by the probes that succeed
(`CardRecord`, `Published`), and each result is the report of its own probe, because the
probes make different requests (`CardTrace`, `PortReport`).

`scan_reports` puts the two ports together : requests on different ports do not meet, so what
was reported for one of them stays true of all exchanges of the scan.
-/

set_option autoImplicit false

namespace EF2SDK.IopStorage

variable {α : Type} {device : Device} {l l' : List Exchange} {q : Request} {port port' : UInt32}
  {info d : DeviceInfo} {diag diag' : ScanDiag} {result : ℤ} {b : Backend}

/-! ## Exchanges of one port -/

/-- All exchanges are on the port. -/
def OnPort (port : UInt32) (l : List Exchange) : Prop :=
  ∀ e ∈ l, e.request.port = port.toNat

theorem onPort_append : OnPort port (l ++ l') ↔ OnPort port l ∧ OnPort port l' :=
  List.forall_mem_append

theorem Only.onPort {probe : Probe} (h : Only probe port l) : OnPort port l :=
  fun e he => (h e he).2

theorem OnPort.notMade (h : OnPort port l) (hq : q.port ≠ port.toNat) : NotMade l q :=
  fun e he heq => hq (heq ▸ h e he)

/-- No exchange is made for the purpose. -/
def Avoids (probe : Probe) (l : List Exchange) : Prop :=
  ∀ e ∈ l, e.request.probe ≠ probe

theorem avoids_nil {probe : Probe} : Avoids probe [] := by
  simp [Avoids]

theorem avoids_append {probe : Probe} :
    Avoids probe (l ++ l') ↔ Avoids probe l ∧ Avoids probe l' :=
  List.forall_mem_append

theorem Avoids.notMade {probe : Probe} (h : Avoids probe l) (hq : q.probe = probe) : NotMade l q :=
  fun e he heq => h e he (heq ▸ hq)

theorem Only.avoids {probe probe' : Probe} (h : Only probe port l) (hne : probe ≠ probe') :
    Avoids probe' l :=
  fun e he heq => hne ((h e he).1.symm.trans heq)

/-! ## The native card of a port -/

/-- The format probe reports success exactly when page 0 was read. -/
structure FormatReports (l : List Exchange) (port : UInt32) (result : ℤ) : Prop where
  read : result = 0 → ∃ page, PageRead l port 0 page
  finished : AnsweredSo l (finishRequest port) FinishOk → result = 0

theorem FormatReports.zero (h : FormatReports l port result) :
    result = 0 ↔ ∃ page, PageRead l port 0 page :=
  ⟨h.read, fun ⟨_, hpage⟩ => h.finished hpage.finished⟩

theorem answeredSo_append {P : List UInt8 → Prop} :
    AnsweredSo (l ++ l') q P ↔ AnsweredSo l q P ∨ AnsweredSo l' q P := by
  simp [AnsweredSo, or_and_right, exists_or]

theorem FormatReports.append (h : FormatReports l port result)
    (h' : NotMade l' (finishRequest port)) : FormatReports (l ++ l') port result := by
  refine ⟨fun hres => ?_, fun hfin => ?_⟩
  · obtain ⟨page, hpage⟩ := h.read hres
    exact ⟨page, hpage.append [] l'⟩
  · exact h.finished ((answeredSo_append.1 hfin).resolve_right h'.not_answeredSo)

theorem FormatReports.prepend (h : FormatReports l port result)
    (h' : NotMade l' (finishRequest port)) : FormatReports (l' ++ l) port result := by
  refine ⟨fun hres => ?_, fun hfin => ?_⟩
  · obtain ⟨page, hpage⟩ := h.read hres
    exact ⟨page, by simpa using hpage.append l' []⟩
  · exact h.finished ((answeredSo_append.1 hfin).resolve_left h'.not_answeredSo)

theorem FormatReports.of_notMade (h : NotMade l (finishRequest port)) (hne : result ≠ 0) :
    FormatReports l port result :=
  ⟨fun h0 => absurd h0 hne, fun hfin => absurd hfin h.not_answeredSo⟩

/-- What the record says about the card's geometry and format was read off the card. -/
structure CardRecord (l : List Exchange) (d : DeviceInfo) : Prop where
  page_read : d.capabilities &&& capPageRead ≠ 0 ↔ d.capabilities &&& capGeometry ≠ 0
  geometry : d.capabilities &&& capGeometry ≠ 0 → 0 < d.pageSize ∧ 0 < d.pageCount ∧
    AnsweredSo l (specRequest d.physicalPort) fun rx => SpecOk rx ∧
      d.pageSize = (DeviceInfo.setSpec {} rx).pageSize ∧
      d.pageCount = (DeviceInfo.setSpec {} rx).pageCount
  formatted : d.formatted ≠ .unknown → d.capabilities &&& capGeometry ≠ 0 ∧
    ∃ page, PageRead l d.physicalPort 0 page ∧ (d.formatted = .formatted ↔ formatMagic <+: page)

theorem AnsweredSo.append {P : List UInt8 → Prop} (h : AnsweredSo l q P)
    (l₁ l₂ : List Exchange) : AnsweredSo (l₁ ++ l ++ l₂) q P :=
  answeredSo_append.2 (Or.inl (answeredSo_append.2 (Or.inr h)))

/-- More exchanges change nothing of what the record says. -/
theorem CardRecord.append (h : CardRecord l d) (l₁ l₂ : List Exchange) :
    CardRecord (l₁ ++ l ++ l₂) d where
  page_read := h.page_read
  geometry hg := by
    obtain ⟨hsize, hcount, hspec⟩ := h.geometry hg
    exact ⟨hsize, hcount, hspec.append l₁ l₂⟩
  formatted hf := by
    obtain ⟨hg, page, hread, hmagic⟩ := h.formatted hf
    exact ⟨hg, page, hread.append l₁ l₂, hmagic⟩

/-- The results of the three stages of a native card, for the exchanges that were made. -/
structure CardReports (l : List Exchange) (port : UInt32) (t g f : ℤ) : Prop where
  terminator : Reports l (terminatorRequest port 0x5A) TerminatorOk t
  geometry : Reports l (specRequest port) SpecOk g
  format : FormatReports l port f
  format_not_attempted : f = -127 ↔ g ≠ 0

theorem CardReports.append {t g f : ℤ} (h : CardReports l port t g f)
    (ht : NotMade l' (terminatorRequest port 0x5A)) (hs : NotMade l' (specRequest port))
    (hf : NotMade l' (finishRequest port)) :
    CardReports (l ++ l') port t g f :=
  ⟨h.terminator.append ht, h.geometry.append hs, h.format.append hf, h.format_not_attempted⟩

theorem CardReports.prepend {t g f : ℤ} (h : CardReports l port t g f)
    (ht : NotMade l' (terminatorRequest port 0x5A)) (hs : NotMade l' (specRequest port))
    (hf : NotMade l' (finishRequest port)) :
    CardReports (l' ++ l) port t g f :=
  ⟨h.terminator.prepend ht, h.geometry.prepend hs, h.format.prepend hf, h.format_not_attempted⟩

/-- The exchanges of a native card's probe. -/
def CardExchanges (port : UInt32) (l : List Exchange) : Prop :=
  OnPort port l ∧ Avoids .ping l ∧ Avoids .sdCard l

theorem cardExchanges_append :
    CardExchanges port (l ++ l') ↔ CardExchanges port l ∧ CardExchanges port l' := by
  simp only [CardExchanges, onPort_append, avoids_append]
  tauto

theorem Only.cardExchanges {probe : Probe} (h : Only probe port l) (hping : probe ≠ .ping)
    (hsd : probe ≠ .sdCard) : CardExchanges port l :=
  ⟨h.onPort, h.avoids hping, h.avoids hsd⟩

/-- The specification, for a record that then claims no geometry. -/
structure SpecTrace (port : UInt32) (info : DeviceInfo) (l : List Exchange) (spec : SpecResult) :
    Prop where
  exchanges : CardExchanges port l
  finish : NotMade l (finishRequest port)
  terminator : Reports l (terminatorRequest port 0x5A) TerminatorOk spec.terminator
  geometry : Reports l (specRequest port) SpecOk spec.result
  info_eq : spec.info = info ∨ ∃ rx, spec.info = info.setSpec rx
  found : spec.result = 0 →
    AnsweredSo l (specRequest port) fun rx => SpecOk rx ∧ spec.info = info.setSpec rx

theorem specTrace_mcGetSpec (hport : port.toNat < 4) :
    Traces (mcGetSpec device port info) fun spec l _ => SpecTrace port info l spec := by
  refine (traces_mcGetSpec hport).mono ?_
  rintro spec _ - ⟨answer, answer', rfl, hterminator, hgeometry, hinfo, hfound⟩
  have hterm : Only .terminator port [⟨terminatorRequest port 0x5A, answer⟩] :=
    only_singleton.2 ⟨rfl, rfl⟩
  have hspec : Only .spec port [⟨specRequest port, answer'⟩] := only_singleton.2 ⟨rfl, rfl⟩
  have happend : [⟨terminatorRequest port 0x5A, answer⟩, ⟨specRequest port, answer'⟩] =
      [⟨terminatorRequest port 0x5A, answer⟩] ++ [(⟨specRequest port, answer'⟩ : Exchange)] := rfl
  rw [happend]
  exact
    { exchanges := cardExchanges_append.2 ⟨hterm.cardExchanges (by decide) (by decide),
        hspec.cardExchanges (by decide) (by decide)⟩
      finish := notMade_append.2 ⟨hterm.notMade (by simp), hspec.notMade (by simp)⟩
      terminator := hterminator.append (hspec.notMade (by simp))
      geometry := hgeometry.prepend (hterm.notMade (by simp))
      info_eq := hinfo
      found := fun h => by
        obtain ⟨rx, rfl, hok, heq⟩ := hfound h
        exact ⟨rx, by simp, hok, heq⟩ }

theorem SpecTrace.keeps {spec : SpecResult} (h : SpecTrace port info l spec) :
    spec.info.kind = info.kind ∧ spec.info.capabilities = info.capabilities ∧
      spec.info.physicalPort = info.physicalPort ∧ spec.info.formatted = info.formatted := by
  rcases h.info_eq with heq | ⟨rx, heq⟩ <;> rw [heq] <;> exact ⟨rfl, rfl, rfl, rfl⟩

/-- A record that claims nothing about a card. -/
theorem cardRecord_of_none (hr : d.capabilities &&& capPageRead = 0)
    (hg : d.capabilities &&& capGeometry = 0) (hf : d.formatted = .unknown) : CardRecord l d :=
  ⟨iff_of_false (fun h => h hr) fun h => h hg, fun h => absurd hg h, fun h => absurd hf h⟩

/-- A record with a geometry from the specification and a format from the page. -/
theorem SpecTrace.cardRecord {spec : SpecResult} (h : SpecTrace port info l spec)
    (h0 : spec.result = 0) (hp : d.physicalPort = port) (hsize : d.pageSize = spec.info.pageSize)
    (hcount : d.pageCount = spec.info.pageCount) (hr : d.capabilities &&& capPageRead ≠ 0)
    (hg : d.capabilities &&& capGeometry ≠ 0)
    (hf : d.formatted ≠ .unknown → ∃ page, PageRead l' port 0 page ∧
      (d.formatted = .formatted ↔ formatMagic <+: page)) : CardRecord (l ++ l') d := by
  obtain ⟨rx, hrx, hok, hinfo⟩ := h.found h0
  rw [hinfo] at hsize hcount
  refine ⟨iff_of_true hr hg, fun _ => ⟨?_, ?_, ?_⟩, fun hne => ⟨hg, ?_⟩⟩
  · rw [hsize]
    exact UInt32.pos_iff_ne_zero.2 hok.2.2.1
  · rw [hcount]
    exact UInt32.pos_iff_ne_zero.2 hok.2.2.2
  · rw [hp]
    exact answeredSo_append.2 (Or.inl ⟨rx, hrx, hok, hsize, hcount⟩)
  · obtain ⟨page, hpage, hmagic⟩ := hf hne
    refine ⟨page, ?_, hmagic⟩
    rw [hp]
    simpa using hpage.append l []

/-- The reports when the format probe followed. -/
theorem SpecTrace.reports {spec : SpecResult} (h : SpecTrace port info l spec)
    (h0 : spec.result = 0) (hl' : Only .page port l') (hf : FormatReports l' port result)
    (hne : result ≠ -127) :
    CardReports (l ++ l') port spec.terminator spec.result result where
  terminator := h.terminator.append (hl'.notMade (by simp))
  geometry := h.geometry.append (hl'.notMade (by simp))
  format := hf.prepend h.finish
  format_not_attempted := iff_of_false hne (not_not_intro h0)

/-- The reports when it did not. -/
theorem SpecTrace.reports_of_ne {spec : SpecResult} (h : SpecTrace port info l spec)
    (h0 : spec.result ≠ 0) : CardReports l port spec.terminator spec.result (-127) where
  terminator := h.terminator
  geometry := h.geometry
  format := FormatReports.of_notMade h.finish (by decide)
  format_not_attempted := iff_of_true rfl h0

theorem traces_scanFormat {i : ℕ} (hport : info.physicalPort.toNat < 4) :
    Traces (scanFormat device i info diag) fun card l _ => Only .page info.physicalPort l ∧
      ∃ result format, card = ({ info with formatted := format }, diag.setMcFormat i result) ∧
        FormatReports l info.physicalPort result ∧ result ≠ -127 ∧
        (format ≠ .unknown → ∃ page, PageRead l info.physicalPort 0 page ∧
          (format = .formatted ↔ formatMagic <+: page)) := by
  refine Traces.bind (traces_mcCheckFormat hport) ?_
  rintro format l - ⟨honly, hformat⟩
  refine Traces.pure fun _ => ?_
  rw [List.append_nil]
  refine ⟨honly, format.1, format.2, rfl, ?_⟩
  rcases hformat with ⟨hres, -, page, hpage, hmagic⟩ | ⟨hres, hne, hunknown, hfinish⟩
  · exact ⟨⟨fun _ => ⟨page, hpage⟩, fun _ => hres⟩, by omega, fun _ => ⟨page, hpage, hmagic⟩⟩
  · exact ⟨⟨fun h => absurd h hres, fun h => absurd h hfinish⟩, hne, fun h => absurd hunknown h⟩

/-! ## Diagnostics of the other port -/

/-- Only the results of the logical port `i` differ. -/
structure SameElsewhere (i : ℕ) (diag diag' : ScanDiag) : Prop where
  mmce : ∀ j ≠ i, diag'.mmceResult j = diag.mmceResult j
  terminator : ∀ j ≠ i, diag'.mcTerminatorResult j = diag.mcTerminatorResult j
  geometry : ∀ j ≠ i, diag'.mcGeometryResult j = diag.mcGeometryResult j
  format : ∀ j ≠ i, diag'.mcFormatResult j = diag.mcFormatResult j

theorem SameElsewhere.trans {i : ℕ} {diag'' : ScanDiag} (h : SameElsewhere i diag diag')
    (h' : SameElsewhere i diag' diag'') : SameElsewhere i diag diag'' where
  mmce j hj := (h'.mmce j hj).trans (h.mmce j hj)
  terminator j hj := (h'.terminator j hj).trans (h.terminator j hj)
  geometry j hj := (h'.geometry j hj).trans (h.geometry j hj)
  format j hj := (h'.format j hj).trans (h.format j hj)

theorem sameElsewhere_setMmce {i : ℕ} : SameElsewhere i diag (diag.setMmce i result) :=
  ⟨fun _ hj => if_neg hj, fun _ _ => rfl, fun _ _ => rfl, fun _ _ => rfl⟩

theorem sameElsewhere_setSpec {i : ℕ} {t g : ℤ} :
    SameElsewhere i diag ((diag.setMcTerminator i t).setMcGeometry i g) :=
  ⟨fun _ _ => rfl, fun _ hj => if_neg hj, fun _ hj => if_neg hj, fun _ _ => rfl⟩

theorem sameElsewhere_setMcFormat {i : ℕ} : SameElsewhere i diag (diag.setMcFormat i result) :=
  ⟨fun _ _ => rfl, fun _ _ => rfl, fun _ _ => rfl, fun _ hj => if_neg hj⟩

/-- What probing the native card of the logical port `i` leaves in the diagnostics. -/
structure CardTrace (i : ℕ) (port : UInt32) (l : List Exchange) (diag diag' : ScanDiag) :
    Prop where
  exchanges : CardExchanges port l
  reports : CardReports l port (diag'.mcTerminatorResult i) (diag'.mcGeometryResult i)
    (diag'.mcFormatResult i)
  mmce : diag'.mmceResult = diag.mmceResult
  mx4sio : diag'.mx4sioResult = diag.mx4sioResult
  elsewhere : SameElsewhere i diag diag'

theorem SpecTrace.cardTrace {spec : SpecResult} {i : ℕ} (h : SpecTrace port info l spec)
    (h0 : spec.result = 0) (hl' : Only .page port l') (hf : FormatReports l' port result)
    (hne : result ≠ -127) : CardTrace i port (l ++ l') diag
      (((diag.setMcTerminator i spec.terminator).setMcGeometry i spec.result).setMcFormat i
        result) where
  exchanges := cardExchanges_append.2 ⟨h.exchanges, hl'.cardExchanges (by decide) (by decide)⟩
  reports := by
    simpa [ScanDiag.setMcTerminator, ScanDiag.setMcGeometry, ScanDiag.setMcFormat]
      using h.reports h0 hl' hf hne
  mmce := rfl
  mx4sio := rfl
  elsewhere := sameElsewhere_setSpec.trans sameElsewhere_setMcFormat

theorem SpecTrace.cardTrace_of_ne {spec : SpecResult} {i : ℕ} (h : SpecTrace port info l spec)
    (h0 : spec.result ≠ 0) (hdiag : diag.mcFormatResult i = -127) : CardTrace i port l diag
      ((diag.setMcTerminator i spec.terminator).setMcGeometry i spec.result) where
  exchanges := h.exchanges
  reports := by
    simpa [ScanDiag.setMcTerminator, ScanDiag.setMcGeometry, hdiag] using h.reports_of_ne h0
  mmce := rfl
  mx4sio := rfl
  elsewhere := sameElsewhere_setSpec

/-! ## One port -/

/-- A published record says only what the devices answered. -/
structure Published (l : List Exchange) (d : DeviceInfo) : Prop extends CardRecord l d where
  kind : d.kind ≠ .none
  mmce : d.kind = .mmce → AnsweredSo l (pingRequest d.physicalPort) PingOk
  card : d.kind = .ps2MemoryCard → d.capabilities &&& capGeometry ≠ 0
  mx4sio : d.kind = .mx4sio → d.physicalPort = 3 ∧ d.sectorSize = 512 ∧ 0 < d.sectorCount

theorem Published.append (h : Published l d) (l₁ l₂ : List Exchange) :
    Published (l₁ ++ l ++ l₂) d where
  toCardRecord := h.toCardRecord.append l₁ l₂
  kind := h.kind
  mmce hk := (h.mmce hk).append l₁ l₂
  card := h.card
  mx4sio := h.mx4sio

/-- The capabilities of an MMCE before its card is known. -/
abbrev mmceCapabilities : UInt32 :=
  capMemoryCard ||| capFilesystem ||| capVirtualCards ||| capGameId

theorem mmceCapabilities_card :
    (mmceCapabilities ||| (capGeometry ||| capPageRead)) &&& capPageRead ≠ 0 ∧
    (mmceCapabilities ||| (capGeometry ||| capPageRead)) &&& capGeometry ≠ 0 := by
  decide

/-- The capabilities of a native card. -/
abbrev cardCapabilities : UInt32 :=
  capMemoryCard ||| capGeometry ||| capPageRead

theorem cardCapabilities_card : cardCapabilities &&& capPageRead ≠ 0 ∧
    cardCapabilities &&& capGeometry ≠ 0 := by
  decide

theorem traces_scanMmceCard (hport : port.toNat < 4) (hp : info.physicalPort = port)
    (hcaps : info.capabilities = mmceCapabilities)
    (hf : info.formatted = .unknown) (hdiag : diag.mcFormatResult (port - 2).toNat = -127) :
    Traces (scanMmceCard device port info diag) fun card l _ =>
      CardTrace (port - 2).toNat port l diag card.2 ∧ CardRecord l card.1 ∧
      card.1.kind = info.kind ∧ card.1.physicalPort = port := by
  refine Traces.bind (specTrace_mcGetSpec hport) ?_
  intro spec l _ hspec
  obtain ⟨hkind, hcaps', hp', hf'⟩ := hspec.keeps
  rw [hcaps] at hcaps'
  rw [hp] at hp'
  refine Traces.ite (fun h0 => (traces_scanFormat (by rwa [hp'])).mono ?_) fun h0 =>
    Traces.pure fun _ => ?_
  · rintro card l' - ⟨hpage, result, format, rfl, hreports, hne, hformat⟩
    dsimp only at hpage hreports hformat ⊢
    rw [hp'] at hpage hreports hformat
    refine ⟨hspec.cardTrace h0 hpage hreports hne, ?_, hkind, hp'⟩
    refine hspec.cardRecord h0 hp' rfl rfl ?_ ?_ hformat
    · rw [hcaps']
      exact mmceCapabilities_card.1
    · rw [hcaps']
      exact mmceCapabilities_card.2
  · rw [List.append_nil]
    refine ⟨hspec.cardTrace_of_ne h0 hdiag, cardRecord_of_none ?_ ?_ (hf'.trans hf), hkind, hp'⟩
    · rw [hcaps']
      decide
    · rw [hcaps']
      decide

theorem traces_mmceGetU16 {command : UInt8} (hport : port.toNat < 4)
    (hq : (mmceRequest port [mmceId, command, 0xFF] 6).probe = .query) :
    Traces (mmceGetU16 device port command) fun _ l _ => Only .query port l := by
  refine Traces.bind (traces_exchange (by simp [mmceRequest]; omega)) ?_
  rintro _ _ - ⟨answer, rfl, rfl, -⟩
  have honly : Only .query port ([⟨mmceRequest port [mmceId, command, 0xFF] 6, answer⟩] ++ []) :=
    only_singleton.2 ⟨hq, rfl⟩
  exact Traces.ite (fun _ => Traces.pure fun _ => honly) fun _ =>
    Traces.ite (fun _ => Traces.pure fun _ => honly) fun _ => Traces.pure fun _ => honly

/-- The queries change nothing of what the record says about the card. -/
theorem traces_scanMmceState (hport : port.toNat < 4) : Traces (scanMmceState device port info)
    fun info' l _ => Only .query port l ∧ ∃ card channel status, info' =
      { info with currentCard := card, currentChannel := channel, status := status } := by
  refine Traces.bind (traces_mmceGetU16 hport rfl) fun card l₁ _ h₁ =>
    Traces.bind (traces_mmceGetU16 hport rfl) fun channel l₂ _ h₂ =>
    Traces.bind (traces_mmceGetU16 hport rfl) fun status l₃ _ h₃ => Traces.pure fun _ => ?_
  refine ⟨?_, _, _, _, rfl⟩
  simp only [only_append]
  exact ⟨h₁, h₂, h₃, only_nil⟩

/-- The result of the SD card's probe. -/
structure SdReports (l : List Exchange) (result : ℤ) (b : Backend) : Prop where
  zero : result = 0 ↔ ¬Avoids .sdCard l ∧ b.mxInitialized = true
  not_attempted : result = -127 ↔ Avoids .sdCard l

theorem SdReports.of_avoids (h : Avoids .sdCard l) : SdReports l (-127) b :=
  ⟨iff_of_false (by decide) fun hn => hn.1 h, iff_of_true rfl h⟩

theorem traces_scanMx4sio : Traces (scanMx4sio device diag) fun probed l b => Only .sdCard 3 l ∧
    (∃ result, probed.2 = { diag with mx4sioResult := result } ∧ SdReports l result b) ∧
    ∀ d ∈ probed.1, d.kind = .mx4sio ∧ d.capabilities = capBlockRead ||| capBlockWrite ∧
      d.physicalPort = 3 ∧ d.formatted = .unknown ∧ d.sectorSize = 512 ∧ 0 < d.sectorCount := by
  intro b
  obtain ⟨l, hl, honly, hne, hrange, hzero, hcount⟩ := traces_mxInitialize device b
  have hsd : ¬Avoids .sdCard l := by
    obtain ⟨e, l, rfl⟩ := List.exists_cons_of_ne_nil hne
    exact fun h => h e List.mem_cons_self (honly e List.mem_cons_self).1
  have hreports : ∀ b', b'.mxInitialized = (mxInitialize device b).2.mxInitialized →
      SdReports l (mxInitialize device b).1 b' := by
    intro b' hb'
    refine ⟨?_, iff_of_false hrange hsd⟩
    rw [and_iff_right hsd, hb']
    exact hzero
  by_cases h0 : (mxInitialize device b).1 = 0
  · have hrun : scanMx4sio device diag b = ((some
        { kind := .mx4sio
          capabilities := capBlockRead ||| capBlockWrite
          physicalPort := UInt32.ofNat mxPort
          formatted := .unknown
          sectorSize := 512
          sectorCount := (mxInitialize device b).2.mxSectorCount
          productId := (mxInitialize device b).2.mxCardType.toUInt32 },
        { diag with mx4sioResult := (mxInitialize device b).1 }), (mxInitialize device b).2) := by
      simp only [scanMx4sio, bind_apply, ite_run, if_pos h0]
      rfl
    rw [hrun]
    refine ⟨l, hl, honly, ⟨_, rfl, hreports _ rfl⟩, fun d hd => ?_⟩
    obtain rfl := Option.mem_some_iff.1 hd
    exact ⟨rfl, rfl, rfl, rfl, rfl, UInt32.pos_iff_ne_zero.2 (hcount h0)⟩
  · have hrun : scanMx4sio device diag b = ((none,
        { diag with mx4sioResult := (mxInitialize device b).1 }), (mxInitialize device b).2) := by
      simp only [scanMx4sio, bind_apply, ite_run, if_neg h0]
      rfl
    rw [hrun]
    exact ⟨l, hl, honly, ⟨_, rfl, hreports _ rfl⟩, fun d hd => absurd hd (by simp)⟩

/-- What the scan of a port leaves. -/
structure PortTrace (port : UInt32) (l : List Exchange) (diag : ScanDiag) (probed : Probed)
    (b : Backend) : Prop where
  on_port : OnPort port l
  mmce : Reports l (pingRequest port) PingOk (probed.2.mmceResult (port - 2).toNat)
  card : CardReports l port (probed.2.mcTerminatorResult (port - 2).toNat)
    (probed.2.mcGeometryResult (port - 2).toNat) (probed.2.mcFormatResult (port - 2).toNat)
  sd : SdReports l probed.2.mx4sioResult b
  sd_port : port ≠ 3 → Avoids .sdCard l
  elsewhere : SameElsewhere (port - 2).toNat diag probed.2
  published : ∀ d ∈ probed.1, d.physicalPort = port ∧ Published l d

theorem SdReports.prepend (h : SdReports l result b) (h' : Avoids .sdCard l') :
    SdReports (l' ++ l) result b := by
  have hiff : Avoids .sdCard (l' ++ l) ↔ Avoids .sdCard l := by
    rw [avoids_append, and_iff_right h']
  exact ⟨by rw [hiff]; exact h.zero, by rw [hiff]; exact h.not_attempted⟩

/-- A port : the ping, the native card, and the queries or the SD card. -/
theorem CardTrace.portTrace {l₁ l₂ : List Exchange} {probe : Probe} {diag₀ : ScanDiag}
    {probed : Probed} (h : CardTrace (port - 2).toNat port l₁ diag diag')
    (hdiag₀ : SameElsewhere (port - 2).toNat diag₀ diag) (hl : Only .ping port l)
    (hping : Reports l (pingRequest port) PingOk (diag.mmceResult (port - 2).toNat))
    (hrest : Only probe port l₂) (hprobe : probe = .query ∨ probe = .sdCard ∧ port = 3)
    (hprobed : probed.2 = { diag' with mx4sioResult := result }) (hsd : SdReports l₂ result b)
    (hpublished : ∀ d ∈ probed.1, d.physicalPort = port ∧ Published (l ++ l₁ ++ l₂) d) :
    PortTrace port (l ++ l₁ ++ l₂) diag₀ probed b := by
  obtain ⟨hon, hnoping, hnosd⟩ := h.exchanges
  have hrest' : ∀ {q : Request}, q.probe ≠ .query → q.probe ≠ .sdCard → NotMade l₂ q :=
    fun hquery hcard => hrest.notMade (by rcases hprobe with rfl | ⟨rfl, -⟩ <;> assumption)
  have hbefore : Avoids .sdCard (l ++ l₁) := avoids_append.2 ⟨hl.avoids (by decide), hnosd⟩
  have hsame := hdiag₀.trans h.elsewhere
  refine ⟨?_, ?_, ?_, ?_, fun hne => ?_, ?_, hpublished⟩
  · exact onPort_append.2 ⟨onPort_append.2 ⟨hl.onPort, hon⟩, hrest.onPort⟩
  · rw [hprobed]
    dsimp only
    rw [h.mmce]
    exact (hping.append (hnoping.notMade rfl)).append (hrest' (by simp) (by simp))
  · rw [hprobed]
    exact (h.reports.prepend (hl.notMade (by simp)) (hl.notMade (by simp))
      (hl.notMade (by simp))).append (hrest' (by simp) (by simp)) (hrest' (by simp) (by simp))
      (hrest' (by simp) (by simp))
  · rw [hprobed]
    exact hsd.prepend hbefore
  · obtain rfl := hprobe.resolve_right fun h => hne h.2
    exact avoids_append.2 ⟨hbefore, hrest.avoids (by decide)⟩
  · rw [hprobed]
    exact ⟨hsame.mmce, hsame.terminator, hsame.geometry, hsame.format⟩

section

variable {diag₀ : ScanDiag} (hport : port.toNat < 4) (hp : info.physicalPort = port)
  (hf : info.formatted = .unknown) (hdiag : diag.mcFormatResult (port - 2).toNat = -127)
  (hsd : diag.mx4sioResult = -127) (hdiag₀ : SameElsewhere (port - 2).toNat diag₀ diag)
  (hl : Only .ping port l)
  (hping : Reports l (pingRequest port) PingOk (diag.mmceResult (port - 2).toNat))
include hport hp hf hdiag hsd hdiag₀ hl hping

/-- A port that answered the ping. -/
theorem traces_scanMmce (hok : AnsweredSo l (pingRequest port) PingOk) :
    Traces (scanMmce device port info diag) fun probed l' b =>
      PortTrace port (l ++ l') diag₀ probed b := by
  refine Traces.bind (traces_scanMmceCard hport hp rfl hf hdiag) ?_
  rintro ⟨card, diag'⟩ l₁ - ⟨htrace, hrecord, hkind, hp'⟩
  refine Traces.bind (traces_scanMmceState hport) ?_
  rintro _ l₂ - ⟨hquery, c, ch, st, rfl⟩
  refine Traces.pure fun _ => ?_
  dsimp only at htrace hrecord hkind hp' ⊢
  rw [List.append_nil, ← List.append_assoc]
  have hcard := hrecord.append l l₂
  refine htrace.portTrace hdiag₀ hl hping hquery (Or.inl rfl) rfl ?_ fun d hd => ?_
  · rw [htrace.mx4sio, hsd]
    exact SdReports.of_avoids (hquery.avoids (by decide))
  · obtain rfl := Option.mem_some_iff.1 hd
    exact ⟨hp',
      { page_read := hcard.page_read
        geometry := hcard.geometry
        formatted := hcard.formatted
        kind := by rw [hkind]; decide
        mmce := fun _ => by
          dsimp only
          rw [hp']
          simpa using hok.append [] (l₁ ++ l₂)
        card := fun h => by rw [hkind] at h; exact absurd h (by decide)
        mx4sio := fun h => by rw [hkind] at h; exact absurd h (by decide) }⟩

omit hf in
/-- A port that did not. -/
theorem traces_scanCard : Traces (scanCard device port info diag) fun probed l' b =>
    PortTrace port (l ++ l') diag₀ probed b := by
  refine Traces.bind (specTrace_mcGetSpec hport) ?_
  intro spec l₁ _ hspec
  obtain ⟨-, -, hp', -⟩ := hspec.keeps
  rw [hp] at hp'
  refine Traces.ite (fun h0 => ?_) fun h0 => ?_
  · -- a native card
    refine Traces.bind (traces_scanFormat (by rwa [hp'])) ?_
    rintro card l₂ - ⟨hpage, result, format, rfl, hreports, hne, hformat⟩
    refine Traces.pure fun b => ?_
    dsimp only at hpage hreports hformat ⊢
    rw [hp'] at hpage hreports hformat
    have hrecord := hspec.cardRecord h0 (d := { spec.info with
      kind := .ps2MemoryCard
      capabilities := cardCapabilities
      formatted := format }) hp' rfl rfl cardCapabilities_card.1 cardCapabilities_card.2 hformat
    rw [List.append_nil, ← List.append_nil (l ++ (l₁ ++ l₂))]
    refine (hspec.cardTrace h0 hpage hreports hne).portTrace hdiag₀ hl hping only_nil (Or.inl rfl)
      rfl (hsd ▸ SdReports.of_avoids avoids_nil) fun d hd => ?_
    obtain rfl := Option.mem_some_iff.1 hd
    refine ⟨hp', { toCardRecord := ?_, kind := ?_, mmce := ?_, card := ?_, mx4sio := ?_ }⟩
    · simpa using hrecord.append l []
    · exact fun h => nomatch h
    · exact fun h => nomatch h
    · exact fun _ => cardCapabilities_card.2
    · exact fun h => nomatch h
  · have htrace := hspec.cardTrace_of_ne (i := (port - 2).toNat) h0 hdiag
    refine Traces.ite (fun hmx => ?_) fun _ => ?_
    · -- the SD card
      refine traces_scanMx4sio.mono ?_
      rintro probed l₂ b ⟨honly, ⟨result, hres, hreports⟩, hfound⟩
      obtain rfl : port = 3 := hmx
      rw [← List.append_assoc]
      refine htrace.portTrace hdiag₀ hl hping honly (Or.inr ⟨rfl, rfl⟩) hres hreports fun d hd => ?_
      obtain ⟨hkind, hcaps, hthree, hformat, hsector, hcount⟩ := hfound d hd
      exact ⟨hthree,
        { toCardRecord := cardRecord_of_none (by rw [hcaps]; decide) (by rw [hcaps]; decide) hformat
          kind := by rw [hkind]; decide
          mmce := fun h => absurd (hkind.symm.trans h) (by decide)
          card := fun h => absurd (hkind.symm.trans h) (by decide)
          mx4sio := fun _ => ⟨hthree, hsector, hcount⟩ }⟩
    · -- nothing
      refine Traces.pure fun b => ?_
      rw [List.append_nil, ← List.append_nil (l ++ l₁)]
      exact htrace.portTrace hdiag₀ hl hping only_nil (Or.inl rfl) rfl
        (hsd ▸ SdReports.of_avoids avoids_nil) fun d hd => absurd hd (by simp)

end

/-- The scan of one port, which the diagnostics say nothing about yet. -/
theorem traces_scanPort (hport : port.toNat < 4)
    (hdiag : diag.mcFormatResult (port - 2).toNat = -127) (hsd : diag.mx4sioResult = -127) :
    Traces (scanPort device port diag) fun probed l b => PortTrace port l diag probed b := by
  refine Traces.bind (traces_mmcePing hport) ?_
  rintro ping _ - ⟨answer, rfl, hping, hp, hf⟩
  have honly : Only .ping port [⟨pingRequest port, answer⟩] := only_singleton.2 ⟨rfl, rfl⟩
  have hreports : Reports [⟨pingRequest port, answer⟩] (pingRequest port) PingOk
      ((diag.setMmce (port - 2).toNat ping.1).mmceResult (port - 2).toNat) := by
    simpa [ScanDiag.setMmce] using hping
  refine Traces.ite (fun h0 => ?_) fun _ => ?_
  · exact traces_scanMmce hport hp hf hdiag hsd sameElsewhere_setMmce honly hreports
      (hping.zero.1 h0)
  · exact traces_scanCard hport hp hdiag hsd sameElsewhere_setMmce honly hreports

/-! ## The whole scan -/

/-- The diagnostics of a port : every result is 0 exactly when its stage succeeded and -127
exactly when it was not attempted. The format is probed where the geometry was found. -/
structure PortReport (l : List Exchange) (port : UInt32) (diag : ScanDiag) : Prop where
  mmce : Reports l (pingRequest port) PingOk (diag.mmceResult (port - 2).toNat)
  terminator : Reports l (terminatorRequest port 0x5A) TerminatorOk
    (diag.mcTerminatorResult (port - 2).toNat)
  geometry : Reports l (specRequest port) SpecOk (diag.mcGeometryResult (port - 2).toNat)
  format_zero : diag.mcFormatResult (port - 2).toNat = 0 ↔ ∃ page, PageRead l port 0 page
  format_not_attempted : diag.mcFormatResult (port - 2).toNat = -127 ↔
    diag.mcGeometryResult (port - 2).toNat ≠ 0

theorem PortReport.of_reports
    (hmmce : Reports l (pingRequest port) PingOk (diag.mmceResult (port - 2).toNat))
    (hcard : CardReports l port (diag.mcTerminatorResult (port - 2).toNat)
      (diag.mcGeometryResult (port - 2).toNat) (diag.mcFormatResult (port - 2).toNat)) :
    PortReport l port diag :=
  ⟨hmmce, hcard.terminator, hcard.geometry, hcard.format.zero, hcard.format_not_attempted⟩

/-- A port that was not scanned. -/
theorem portReport_of_notMade (hmade : ∀ q : Request, q.port = port.toNat → NotMade l q)
    (hmmce : diag.mmceResult (port - 2).toNat = -127)
    (hterminator : diag.mcTerminatorResult (port - 2).toNat = -127)
    (hgeometry : diag.mcGeometryResult (port - 2).toNat = -127)
    (hformat : diag.mcFormatResult (port - 2).toNat = -127) : PortReport l port diag := by
  refine PortReport.of_reports ?_ ⟨?_, ?_, ?_, ?_⟩
  · exact hmmce ▸ Reports.of_notMade (hmade _ rfl)
  · exact hterminator ▸ Reports.of_notMade (hmade _ rfl)
  · exact hgeometry ▸ Reports.of_notMade (hmade _ rfl)
  · exact FormatReports.of_notMade (hmade _ rfl) (by rw [hformat]; decide)
  · rw [hformat, hgeometry]
    decide

/-- The first port's reports after the second port was scanned. -/
theorem PortTrace.report_append {probed : Probed} (h : PortTrace port l diag probed b)
    (hother : OnPort port' l') (hne : port.toNat ≠ port'.toNat)
    (hsame : SameElsewhere (port' - 2).toNat probed.2 diag')
    (hi : (port - 2).toNat ≠ (port' - 2).toNat) : PortReport (l ++ l') port diag' := by
  have hmade : ∀ q : Request, q.port = port.toNat → NotMade l' q :=
    fun q hq => hother.notMade (hq.trans_ne hne)
  refine PortReport.of_reports ?_ ?_
  · rw [hsame.mmce _ hi]
    exact h.mmce.append (hmade _ rfl)
  · rw [hsame.terminator _ hi, hsame.geometry _ hi, hsame.format _ hi]
    exact h.card.append (hmade _ rfl) (hmade _ rfl) (hmade _ rfl)

/-- The second port's reports, after the first. -/
theorem PortTrace.report_prepend {probed : Probed} (h : PortTrace port l diag probed b)
    (hother : OnPort port' l') (hne : port.toNat ≠ port'.toNat) :
    PortReport (l' ++ l) port probed.2 := by
  have hmade : ∀ q : Request, q.port = port.toNat → NotMade l' q :=
    fun q hq => hother.notMade (hq.trans_ne hne)
  exact PortReport.of_reports (h.mmce.prepend (hmade _ rfl))
    (h.card.prepend (hmade _ rfl) (hmade _ rfl) (hmade _ rfl))

/-- What a scan that returns 0 says of the exchanges it made. -/
structure ScanReported (capacity : ℕ) (l : List Exchange) (devices : List DeviceInfo)
    (diag : ScanDiag) (b : Backend) : Prop where
  count : devices.length ≤ capacity
  ports : (devices.map (·.physicalPort)).Sublist [2, 3]
  published : ∀ d ∈ devices, Published l d
  first : PortReport l 2 diag
  second : PortReport l 3 diag
  sd : SdReports l diag.mx4sioResult b

theorem ports_sublist {p : Option DeviceInfo} (h : ∀ d ∈ p, d.physicalPort = port) :
    (p.toList.map (·.physicalPort)).Sublist [port] := by
  cases p with
  | none => exact List.nil_sublist _
  | some d => simp [h d rfl]

theorem length_toList_le (p : Option α) : p.toList.length ≤ 1 := by
  cases p <;> simp

theorem traces_scanPorts {capacity : ℕ} (hcapacity : capacity ≠ 0) :
    Traces (scanPorts device capacity [2, 3] [] .notAttempted) fun scanned l b =>
      ScanReported capacity l scanned.1 scanned.2 b := by
  refine Traces.ite (fun _ => ?_) fun h => absurd (Nat.pos_of_ne_zero hcapacity) h
  refine Traces.bind (traces_scanPort (by decide) rfl rfl) ?_
  intro first l₁ b₁ h₁
  rw [List.nil_append]
  have hfirst := ports_sublist (p := first.1) fun d hd => (h₁.published d hd).1
  have hnosd : Avoids .sdCard l₁ := h₁.sd_port (by decide)
  have hpublished₁ : ∀ l₂, ∀ d ∈ first.1, Published (l₁ ++ l₂) d := fun l₂ d hd => by
    simpa using (h₁.published d hd).2.append [] l₂
  refine Traces.ite (fun _ => ?_) fun hfull => Traces.pure fun _ => ?_
  · have hformat : first.2.mcFormatResult ((3 : UInt32) - 2).toNat = -127 :=
      h₁.elsewhere.format 1 (by decide)
    refine Traces.map ((traces_scanPort (by decide) hformat
      (h₁.sd.not_attempted.2 hnosd)).mono fun second l₂ b h₂ => ?_)
    have hsecond := ports_sublist (p := second.1) fun d hd => (h₂.published d hd).1
    refine ⟨?_, ?_, fun d hd => ?_, ?_, ?_, ?_⟩
    · have hone := length_toList_le second.1
      simp only [List.length_append]
      omega
    · rw [List.map_append]
      exact hfirst.append hsecond
    · rcases List.mem_append.1 hd with hd | hd
      · exact hpublished₁ l₂ d (Option.mem_toList.1 hd)
      · simpa using (h₂.published d (Option.mem_toList.1 hd)).2.append l₁ []
    · exact h₁.report_append h₂.on_port (by decide) h₂.elsewhere (by decide)
    · exact h₂.report_prepend h₁.on_port (by decide)
    · exact h₂.sd.prepend hnosd
  · rw [List.append_nil]
    refine ⟨?_, ?_, fun d hd => ?_, ?_, ?_, ?_⟩
    · have hone := length_toList_le first.1
      show first.1.toList.length ≤ capacity
      omega
    · exact hfirst.trans (by simp)
    · simpa using hpublished₁ [] d (Option.mem_toList.1 hd)
    · exact PortReport.of_reports h₁.mmce h₁.card
    · refine portReport_of_notMade (fun q hq => h₁.on_port.notMade (hq.trans_ne (by decide)))
        ?_ ?_ ?_ ?_
      · exact h₁.elsewhere.mmce 1 (by decide)
      · exact h₁.elsewhere.terminator 1 (by decide)
      · exact h₁.elsewhere.geometry 1 (by decide)
      · exact h₁.elsewhere.format 1 (by decide)
    · rw [h₁.sd.not_attempted.2 hnosd]
      exact SdReports.of_avoids hnosd

/-- A scan that returns 0 publishes at most one device for each port, with what the devices
answered, and reports for each stage of each port whether it was attempted and whether it
succeeded. -/
theorem scan_reports (device : Device) (b : Backend) {capacity : ℕ} {devices : List DeviceInfo}
    {diag : ScanDiag} (h : (backendScan device capacity b).1 = some (devices, diag)) :
    ∃ l, (backendScan device capacity b).2.log = b.log ++ l ∧
      ScanReported capacity l devices diag (backendScan device capacity b).2 := by
  by_cases hcapacity : capacity = 0
  · rw [backendScan, if_pos hcapacity] at h
    exact nomatch h
  · have hscan : Traces (backendScan device capacity) fun scanned l b =>
        ∀ found ∈ scanned, ScanReported capacity l found.1 found.2 b := by
      rw [backendScan, if_neg hcapacity]
      refine Traces.map ((traces_scanPorts hcapacity).mono fun scanned l b hl found hfound => ?_)
      obtain rfl := Option.mem_some_iff.1 hfound
      exact hl
    obtain ⟨l, hl, hreported⟩ := hscan b
    exact ⟨l, hl, hreported _ h⟩

/-- Nothing on the first port, and on the second one a card with two pages of 512 bytes that
cannot be read. -/
def geometryOnly : Device := fun _ q =>
  if q.port = 3 ∧ q.tx.getD 1 0 = 0x26 then
    some fun i => [0, 0, 0, 0, 2, 16, 0, 2, 0, 0, 0, 16, 0x55].getD i 0
  else
    none

/-- The scan finds the card. -/
theorem scan_reports_geometryOnly : ∃ devices diag l,
    (backendScan geometryOnly 3 boot).1 = some (devices, diag) ∧
    devices.map (·.physicalPort) = [3] ∧ diag.mcGeometryResult 1 = 0 ∧
    ScanReported 3 l devices diag (backendScan geometryOnly 3 boot).2 := by
  have hscan : (backendScan geometryOnly 3 boot).1.map
      (fun found => (found.1.map (·.physicalPort), found.2.mcGeometryResult 1)) =
      some ([3], 0) := by decide +kernel
  obtain ⟨⟨devices, diag⟩, hfound, hview⟩ := Option.map_eq_some_iff.1 hscan
  obtain ⟨hports, hgeometry⟩ := Prod.mk.inj hview
  obtain ⟨l, -, hreported⟩ := scan_reports geometryOnly boot hfound
  exact ⟨devices, diag, l, hfound, hports, hgeometry, hreported⟩

end EF2SDK.IopStorage
