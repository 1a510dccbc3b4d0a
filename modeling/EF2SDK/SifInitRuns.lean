import Mathlib.Data.List.Induction
import Mathlib.Logic.Function.Iterate
import EF2SDK.SifInit

/-!
# What a successful initialisation of the SIF stands for

A run is any sequence of calls of `ef2_sif_init`, with interrupts between them, from the globals
as the program is loaded. A call that reports success should stand for two steps of the run
(`Complete`) : the SIF0 channel was enabled, and the IOP was sent the address of the packet
buffer.

A call that goes through both stages takes both steps, or fails (`sifInitCmd_complete`). But the
handler's id, which the first stage tests, is set before the steps are taken and is kept when
one of them fails. A later call then skips the whole stage (`Stale`), and when the second stage
goes through it reports success with a step missing. A run keeps its promise exactly when no
call of it does that (`inits_complete_iff`).
-/

set_option autoImplicit false

namespace EF2SDK.SifInit

/-! ## The two steps -/

/-- The SIF0 channel was enabled. -/
def Event.enablesSif0 (e : Event) : Bool :=
  match e.access with
  | .enableDmac channel => channel = dmacSif0 && 0 ≤ e.answer.value
  | _ => false

/-- The transfer carries the packet buffer's address, as CHANGE_SADDR or as the first
INIT_CMD. -/
def DmaTransfer.carriesAddress (layout : Layout) (t : DmaTransfer) : Bool :=
  match t.src with
  | .memory _ => false
  | .packet p => p.words = [layout.pktbuf]
    && (p.header.cid = cmdChangeSaddr || (p.header.cid = cmdInitCmd && p.header.opt = 0))

/-- The SIF DMA took a transfer of the packet buffer's address : it returned an id, not `0`. -/
def Event.sendsAddress (layout : Layout) (e : Event) : Bool :=
  match e.access with
  | .sifSetDma transfers => e.answer.value ≠ 0 && transfers.any (·.carriesAddress layout)
  | _ => false

/-- The channel was enabled and the address was sent. -/
def Complete (layout : Layout) (log : List Event) : Prop :=
  log.any Event.enablesSif0 ∧ log.any (·.sendsAddress layout)

instance (layout : Layout) (log : List Event) : Decidable (Complete layout log) :=
  inferInstanceAs (Decidable (_ ∧ _))

theorem any_mono {l l' : List Event} {p : Event → Bool} (h : l <+: l') (hl : l.any p) :
    l'.any p := by
  obtain ⟨e, he, hp⟩ := List.any_eq_true.mp hl
  exact List.any_eq_true.mpr ⟨e, h.subset he, hp⟩

theorem Complete.mono {layout : Layout} {l l' : List Event} (h : l <+: l')
    (hl : Complete layout l) : Complete layout l' :=
  ⟨any_mono h hl.1, any_mono h hl.2⟩

/-! ## Accesses -/

variable {kernel : Kernel} {layout : Layout} {s : Sif}

/-- What every access keeps. -/
structure Grows (s t : Sif) : Prop where
  log : s.log <+: t.log
  pktbuf : t.cmdData.pktbuf = s.cmdData.pktbuf
  sifInitialized : t.sifInitialized = s.sifInitialized

theorem Grows.refl (s : Sif) : Grows s s :=
  ⟨List.prefix_rfl, rfl, rfl⟩

theorem Grows.trans {s t u : Sif} (h₁ : Grows s t) (h₂ : Grows t u) : Grows s u :=
  ⟨h₁.log.trans h₂.log, h₂.pktbuf.trans h₁.pktbuf, h₂.sifInitialized.trans h₁.sifInitialized⟩

instance : Std.Refl Grows :=
  ⟨Grows.refl⟩

instance : IsTrans Sif Grows :=
  ⟨fun _ _ _ => Grows.trans⟩

theorem sifIrqHandler_grows (s : Sif) (p : CmdPacket) :
    Grows s (sifIrqHandler s p) ∧ (sifIrqHandler s p).log = s.log := by
  simp only [sifIrqHandler]
  split
  · exact ⟨.refl s, rfl⟩
  split
  · split
    · exact ⟨.refl s, rfl⟩
    · next handler _ =>
      cases handler with
      | changeAddr => exact ⟨⟨List.prefix_rfl, rfl, rfl⟩, rfl⟩
      | setSreg =>
        simp only [SysHandler.run]
        split <;> exact ⟨⟨List.prefix_rfl, rfl, rfl⟩, rfl⟩
      | rpcEnd => exact ⟨.refl s, rfl⟩
  · exact ⟨.refl s, rfl⟩

theorem foldl_sifIrqHandler_grows (packets : List CmdPacket) (s : Sif) :
    Grows s (packets.foldl sifIrqHandler s) ∧ (packets.foldl sifIrqHandler s).log = s.log := by
  induction packets generalizing s with
  | nil => exact ⟨.refl s, rfl⟩
  | cons p packets ih =>
    obtain ⟨hgrows, hlog⟩ := sifIrqHandler_grows s p
    exact ⟨hgrows.trans (ih _).1, (ih _).2.trans hlog⟩

theorem access_log (a : Access) :
    (access kernel a s).2.log = s.log ++ [⟨a, kernel s.log a⟩] :=
  (foldl_sifIrqHandler_grows _ _).2

theorem steps_access (a : Access) : Steps Grows (access kernel a) := fun s =>
  Grows.trans (t := { s with log := s.log ++ [⟨a, kernel s.log a⟩] })
    ⟨List.prefix_append _ _, rfl, rfl⟩ (foldl_sifIrqHandler_grows _ _).1

/-- An access that the kernel answers so that `p` holds of the event. -/
theorem any_access {p : Event → Bool} {a : Access} (h : p ⟨a, kernel s.log a⟩) :
    (access kernel a s).2.log.any p := by
  rw [access_log, List.any_append]
  simp [h]

theorem steps_sifSendCmd (cid : UInt32) (packet : CmdPacket)
    (packetSize extraSrc extraDest extraSize : UInt32) :
    Steps Grows (sifSendCmd kernel cid packet packetSize extraSrc extraDest extraSize) :=
  Steps.bind (steps_access _) fun _ => Steps.bind Steps.get fun _ =>
    Steps.ite (Steps.pure _) <|
      Steps.bind (Steps.ite (steps_access _) (Steps.pure _)) fun _ =>
      Steps.bind Steps.get fun _ => Steps.bind (steps_access _) fun _ =>
      Steps.bind (steps_access _) fun _ => Steps.pure _

theorem steps_awaitCmdinit (polls : ℕ) : Steps Grows (awaitCmdinit kernel polls) := by
  induction polls with
  | zero => exact Steps.pure _
  | succ polls ih =>
    exact Steps.bind (steps_access _) fun _ => Steps.ite (Steps.pure _) ih

theorem steps_waitFlag (polls : ℕ) : Steps Grows (waitFlag kernel polls) := by
  induction polls with
  | zero => exact Steps.pure _
  | succ polls ih =>
    exact Steps.bind (steps_access _) fun _ => Steps.bind Steps.get fun _ =>
      Steps.ite (Steps.pure _) ih

theorem steps_sifInitIop : Steps Grows (sifInitIop kernel layout) :=
  Steps.bind (steps_awaitCmdinit _) fun _ => Steps.ite (Steps.pure _) <|
    Steps.bind (steps_access _) fun _ =>
    Steps.bind (Steps.modify fun _ => ⟨List.prefix_rfl, rfl, rfl⟩) fun _ =>
    Steps.bind (steps_access _) fun _ => Steps.bind Steps.get fun _ =>
    Steps.ite (Steps.pure _) <| Steps.bind (steps_access _) fun _ =>
    Steps.bind (steps_access _) fun _ => Steps.bind (steps_sifSendCmd _ _ _ _ _ _) fun _ =>
    Steps.ite (Steps.pure _) (Steps.pure _)

theorem steps_sifEnableCmd : Steps Grows (sifEnableCmd kernel layout) :=
  Steps.bind (steps_access _) fun _ => Steps.ite (Steps.pure _) <|
    Steps.bind (steps_access _) fun _ =>
    Steps.bind (Steps.modify fun _ => ⟨List.prefix_rfl, rfl, rfl⟩) fun _ =>
    Steps.bind (steps_access _) fun _ => Steps.bind Steps.get fun _ =>
    Steps.ite (Steps.bind (steps_sifSendCmd _ _ _ _ _ _) fun _ =>
      Steps.ite (Steps.pure _) (Steps.pure _)) steps_sifInitIop

theorem steps_sifInitRpc : Steps Grows (sifInitRpc kernel) :=
  Steps.bind (steps_access _) fun _ => Steps.ite (Steps.pure _) <|
    Steps.bind (steps_sifSendCmd _ _ _ _ _ _) fun _ => Steps.ite (Steps.pure _) <|
    Steps.bind (steps_waitFlag _) fun _ => Steps.ite (Steps.pure _) <|
    Steps.bind (steps_access _) fun _ => Steps.pure _

/-! ## The command stage -/

/-- The packet buffer's address is in the command data. -/
def Cleared (layout : Layout) (s : Sif) : Prop :=
  s.cmdData.pktbuf = layout.pktbuf

/-- The SIF0 channel was enabled, too. -/
def Enabled (layout : Layout) (s : Sif) : Prop :=
  Cleared layout s ∧ s.log.any Event.enablesSif0

theorem cleared_keeps {α : Type} {x : StateM Sif α} (hx : Steps Grows x) :
    Triple (Cleared layout) x fun _ => Cleared layout := fun s hs =>
  (hx s).pktbuf.trans hs

theorem enabled_keeps {α : Type} {x : StateM Sif α} (hx : Steps Grows x) :
    Triple (Enabled layout) x fun _ => Enabled layout := fun s hs =>
  ⟨cleared_keeps hx s hs.1, any_mono (hx s).log hs.2⟩

/-- A command that carries the address is sent, or `ef2_sif_send_cmd` returns `0`. -/
theorem sifSendCmd_sends {cid : UInt32} (hcid : cid = cmdChangeSaddr ∨ cid = cmdInitCmd) :
    Triple (fun _ => True) (sifSendCmd kernel cid (changeAddrPacket layout.pktbuf) 20 0 0 0)
      fun sent t => sent ≠ 0 → t.log.any (·.sendsAddress layout) := by
  refine Triple.last fun _ => Triple.last fun _ => ?_
  refine Triple.ite (fun _ => Triple.pure fun _ _ h => absurd rfl h) fun _ => ?_
  refine Triple.last fun _ => Triple.last fun s => Triple.last fun _ => fun t _ hsent => ?_
  refine any_access ?_
  simp only [Event.sendsAddress, Bool.and_eq_true, decide_eq_true_eq, List.any_eq_true]
  refine ⟨fun h => hsent (congrArg Int32.toUInt32 h), _, List.mem_append_right _
    (List.mem_singleton_self _), ?_⟩
  simpa [DmaTransfer.carriesAddress, changeAddrPacket] using hcid

/-- The last step of the command stage : with the channel enabled, the address is sent or the
stage fails. -/
theorem sendAddress_complete {cid : UInt32} (hcid : cid = cmdChangeSaddr ∨ cid = cmdInitCmd)
    {code : ℤ} (hcode : code < 0) {b : Sif} (hb : Cleared layout b) :
    Triple (Enabled layout)
      (sifSendCmd kernel cid (changeAddrPacket b.cmdData.pktbuf) 20 0 0 0 >>= fun sent =>
        if sent = 0 then pure code else pure 0)
      fun result t => result < 0 ∨ Complete layout t.log := by
  rw [hb]
  refine Triple.bind
    (fun sent t => Enabled layout t ∧ (sent ≠ 0 → t.log.any (·.sendsAddress layout)))
    (fun s hs => ⟨enabled_keeps (steps_sifSendCmd _ _ _ _ _ _) s hs,
      sifSendCmd_sends hcid s trivial⟩) fun sent => ?_
  refine Triple.ite (fun _ => Triple.pure fun _ _ => Or.inl hcode) fun hsent => ?_
  exact Triple.pure fun _ ht => Or.inr ⟨ht.1.2, ht.2 hsent⟩

theorem sifInitIop_complete :
    Triple (Enabled layout) (sifInitIop kernel layout) fun result t =>
      result < 0 ∨ Complete layout t.log := by
  refine Triple.bind _ (enabled_keeps (steps_awaitCmdinit _)) fun ready => ?_
  refine Triple.ite (fun _ => Triple.pure fun _ _ => Or.inl (by decide)) fun _ => ?_
  refine Triple.bind _ (enabled_keeps (steps_access _)) fun subaddr => ?_
  refine Triple.bind (fun _ => Enabled layout) (Triple.modify fun _ h => h) fun _ => ?_
  refine Triple.bind _ (enabled_keeps (steps_access _)) fun _ => ?_
  refine Triple.bind (fun b t => Enabled layout t ∧ Cleared layout b)
    (Triple.get fun _ h => ⟨h, h.1⟩) fun b => Triple.of_and fun hb => ?_
  refine Triple.ite (fun _ => Triple.pure fun _ _ => Or.inl (by decide)) fun _ => ?_
  refine Triple.bind _ (enabled_keeps (steps_access _)) fun _ => ?_
  refine Triple.bind _ (enabled_keeps (steps_access _)) fun _ => ?_
  exact sendAddress_complete (Or.inr rfl) (by decide) hb

theorem sifEnableCmd_complete :
    Triple (Cleared layout) (sifEnableCmd kernel layout) fun result t =>
      result < 0 ∨ Complete layout t.log := by
  have henable : Triple (Cleared layout) (access kernel (.enableDmac dmacSif0))
      fun enabled t => ¬enabled < 0 → Enabled layout t := by
    intro s hs h
    have hvalue : 0 ≤ (kernel s.log (.enableDmac dmacSif0)).value := Int32.not_lt.mp h
    exact ⟨cleared_keeps (steps_access _) s hs,
      any_access (by simpa [Event.enablesSif0] using hvalue)⟩
  refine Triple.bind _ henable fun enabled => ?_
  refine Triple.ite (fun _ => Triple.pure fun _ _ => Or.inl (by decide)) fun hpos => ?_
  refine Triple.bind (fun _ => Enabled layout)
    (fun s hs => enabled_keeps (steps_access _) s (hs hpos)) fun subaddr => ?_
  refine Triple.bind (fun _ => Enabled layout) (Triple.modify fun _ h => h) fun _ => ?_
  refine Triple.bind _ (enabled_keeps (steps_access _)) fun _ => ?_
  refine Triple.bind (fun b t => Enabled layout t ∧ Cleared layout b)
    (Triple.get fun _ h => ⟨h, h.1⟩) fun b => Triple.of_and fun hb => ?_
  refine Triple.ite (fun _ => ?_) fun _ => sifInitIop_complete
  exact sendAddress_complete (Or.inl rfl) (by decide) hb

/-- A call that installs the handler takes both steps, or fails. -/
theorem sifInitCmd_complete :
    Triple (fun s => s.sif0HandlerId < 0) (sifInitCmd kernel layout) fun result t =>
      result < 0 ∨ Complete layout t.log := by
  have hskip {p : Prop} [Decidable p] (a : Access) :
      Steps Grows (if p then access kernel a else pure 0) :=
    Steps.ite (steps_access _) (Steps.pure _)
  refine Triple.bind (fun b _ => b.sif0HandlerId < 0) (Triple.get fun _ h => h) fun b =>
    Triple.intro fun hb => ?_
  refine Triple.ite (fun h => absurd h (Int32.not_le.mpr hb)) fun _ => ?_
  refine Triple.bind (fun _ => Cleared layout) (Triple.modify fun _ _ => rfl) fun _ => ?_
  refine Triple.bind _ (cleared_keeps (steps_access _)) fun _ => ?_
  refine Triple.bind _ (cleared_keeps (steps_access _)) fun stat => ?_
  refine Triple.bind _ (cleared_keeps (hskip _)) fun _ => ?_
  refine Triple.bind _ (cleared_keeps (steps_access _)) fun chcr => ?_
  refine Triple.bind _ (cleared_keeps (hskip _)) fun _ => ?_
  refine Triple.bind _ (cleared_keeps (steps_access _)) fun id => ?_
  refine Triple.bind (fun _ => Cleared layout) (Triple.modify fun _ h => h) fun _ => ?_
  exact Triple.ite (fun _ => Triple.pure fun _ _ => Or.inl (by decide)) fun _ =>
    sifEnableCmd_complete

/-! ## The RPC stage -/

/-- What makes the RPC stage go through : the RPCINIT register is set, or the DMA takes the
INIT_CMD packet and the IOP sets register 0 while the flag is polled. -/
def RpcUp (kernel : Kernel) (s : Sif) : Prop :=
  let ready := access kernel (.sifGetReg sysregRpcinit) s
  let sent := sifSendCmd kernel cmdInitCmd rpcInitPacket 16 0 0 0 ready.2
  ready.1 ≠ 0 ∨ sent.1 ≠ 0 ∧ ∃ polls < pollLimit,
    ((fun t => (interrupts kernel t).2)^[polls + 1] sent.2).sregs.get sregRpcinit ≠ 0

theorem waitFlag_iff (limit : ℕ) (s : Sif) :
    (waitFlag kernel limit s).1 = true ↔ ∃ polls < limit,
      ((fun t => (interrupts kernel t).2)^[polls + 1] s).sregs.get sregRpcinit ≠ 0 := by
  induction limit generalizing s with
  | zero => simp [waitFlag, pure_apply]
  | succ limit ih =>
    have hrun : waitFlag kernel (limit + 1) s
        = if (interrupts kernel s).2.sregs.get sregRpcinit ≠ 0 then
            (true, (interrupts kernel s).2)
          else waitFlag kernel limit (interrupts kernel s).2 :=
      ite_run (pure true) _ _
    rw [hrun, Nat.exists_lt_succ_left]
    by_cases h : (interrupts kernel s).2.sregs.get sregRpcinit ≠ 0
    · rw [if_pos h]
      exact iff_of_true rfl (Or.inl h)
    · rw [if_neg h, ih]
      exact (or_iff_right h).symm

theorem sifInitRpc_iff (s : Sif) : ¬(sifInitRpc kernel s).1 < 0 ↔ RpcUp kernel s := by
  have hrun : sifInitRpc kernel s
      = let ready := access kernel (.sifGetReg sysregRpcinit) s
        let sent := sifSendCmd kernel cmdInitCmd rpcInitPacket 16 0 0 0 ready.2
        let set := waitFlag kernel pollLimit sent.2
        if ready.1 ≠ 0 then (0, ready.2)
        else if sent.1 = 0 then (-1, sent.2)
        else if set.1 = false then (-2, set.2)
        else (0, (access kernel (.sifSetReg sysregRpcinit 1) set.2).2) := by
    simp only [sifInitRpc, bind_apply, ite_run]
    rfl
  rw [hrun, RpcUp]
  dsimp only
  rw [← waitFlag_iff]
  split
  · next h => exact iff_of_true (show ¬(0 : ℤ) < 0 by decide) (Or.inl h)
  · next h =>
    rw [or_iff_right h]
    split
    · next hsent => exact iff_of_false (show ¬¬(-1 : ℤ) < 0 by decide) fun h => h.1 hsent
    · next hsent =>
      rw [and_iff_right hsent]
      split
      · next hset => exact iff_of_false (show ¬¬(-2 : ℤ) < 0 by decide) (by simp [hset])
      · next hset => exact iff_of_true (show ¬(0 : ℤ) < 0 by decide) (by simpa using hset)

/-- The RPC stage takes neither of the two steps. -/
def SameSteps (layout : Layout) (s t : Sif) : Prop :=
  Complete layout t.log ↔ Complete layout s.log

instance : Std.Refl (SameSteps layout) :=
  ⟨fun _ => Iff.rfl⟩

instance : IsTrans Sif (SameSteps layout) :=
  ⟨fun _ _ _ h₁ h₂ => h₂.trans h₁⟩

theorem sameSteps_access {a : Access}
    (h : ∀ answer, Event.enablesSif0 ⟨a, answer⟩ = false
      ∧ Event.sendsAddress layout ⟨a, answer⟩ = false) :
    Steps (SameSteps layout) (access kernel a) := by
  intro s
  rw [SameSteps, Complete, access_log]
  simp [h, Complete]

theorem sameSteps_waitFlag (polls : ℕ) :
    Steps (SameSteps layout) (waitFlag kernel polls) := by
  induction polls with
  | zero => exact Steps.pure _
  | succ polls ih =>
    exact Steps.bind (sameSteps_access fun _ => ⟨rfl, rfl⟩) fun _ =>
      Steps.bind Steps.get fun _ => Steps.ite (Steps.pure _) ih

theorem sameSteps_sifInitRpc : Steps (SameSteps layout) (sifInitRpc kernel) := by
  have hsend : Steps (SameSteps layout) (sifSendCmd kernel cmdInitCmd rpcInitPacket 16 0 0 0) :=
    Steps.bind (sameSteps_access fun _ => ⟨rfl, rfl⟩) fun _ => Steps.bind Steps.get fun _ =>
      Steps.ite (Steps.pure _) <|
      Steps.bind (Steps.ite (sameSteps_access fun _ => ⟨rfl, rfl⟩) (Steps.pure _)) fun _ =>
      Steps.bind Steps.get fun _ =>
      Steps.bind (sameSteps_access fun _ => ⟨rfl, rfl⟩) fun _ =>
      Steps.bind (sameSteps_access fun answer => ⟨rfl, Bool.and_false _⟩) fun _ =>
      Steps.pure _
  exact Steps.bind (sameSteps_access fun _ => ⟨rfl, rfl⟩) fun _ => Steps.ite (Steps.pure _) <|
    Steps.bind hsend fun _ => Steps.ite (Steps.pure _) <|
    Steps.bind (sameSteps_waitFlag _) fun _ => Steps.ite (Steps.pure _) <|
    Steps.bind (sameSteps_access fun _ => ⟨rfl, rfl⟩) fun _ => Steps.pure _

/-! ## One call -/

/-- An earlier call installed the handler and stopped before both steps were taken. -/
def Stale (layout : Layout) (s : Sif) : Prop :=
  0 ≤ s.sif0HandlerId ∧ s.sifInitialized = false ∧ ¬Complete layout s.log

/-- A call that finds the SIF initialised changes nothing, and another goes through the two
stages. -/
theorem sifInit_run (s : Sif) :
    sifInit kernel layout s
      = let cmd := sifInitCmd kernel layout s
        let rpc := sifInitRpc kernel cmd.2
        if s.sifInitialized = true then (0, s)
        else if cmd.1 < 0 then (cmd.1 - 100, cmd.2)
        else if rpc.1 < 0 then (rpc.1 - 200, rpc.2)
        else (0, { rpc.2 with sifInitialized := true }) := by
  simp only [sifInit, bind_apply, ite_run]
  rfl

theorem sifInitCmd_of_installed (h : 0 ≤ s.sif0HandlerId) :
    sifInitCmd kernel layout s = (0, s) :=
  (ite_run (pure 0) _ s).trans (if_pos h)

theorem sifInit_complete_iff (hinit : s.sifInitialized = true → Complete layout s.log) :
    ((sifInit kernel layout s).1 = 0 → Complete layout (sifInit kernel layout s).2.log)
      ↔ ¬(Stale layout s ∧ RpcUp kernel s) := by
  rw [sifInit_run]
  dsimp only
  by_cases hdone : s.sifInitialized = true
  · rw [if_pos hdone]
    exact iff_of_true (fun _ => hinit hdone) fun h => absurd hdone (by simp [h.1.2.1])
  rw [if_neg hdone]
  by_cases hid : 0 ≤ s.sif0HandlerId
  · rw [sifInitCmd_of_installed hid]
    dsimp only
    rw [if_neg (by decide : ¬(0 : ℤ) < 0)]
    have hsame : Complete layout (sifInitRpc kernel s).2.log ↔ Complete layout s.log :=
      sameSteps_sifInitRpc s
    have hstale : Stale layout s ↔ ¬Complete layout s.log := by
      simp [Stale, hid, hdone]
    rw [hstale, ← sifInitRpc_iff]
    split
    · next hneg =>
      refine iff_of_true (fun h => ?_) fun h => h.2 hneg
      omega
    · next hpos =>
      dsimp only
      rw [hsame]
      exact ⟨fun h h' => h'.1 (h rfl), fun h _ => by_contra fun h' => h ⟨h', hpos⟩⟩
  · have hneg : s.sif0HandlerId < 0 := Int32.not_le.mp hid
    refine iff_of_true (fun hresult => ?_) fun h => hid h.1.1
    have hcmd : (sifInitCmd kernel layout s).1 < 0
        ∨ Complete layout (sifInitCmd kernel layout s).2.log := sifInitCmd_complete s hneg
    obtain hfailed | hcomplete := hcmd
    · rw [if_pos hfailed] at hresult
      dsimp only at hresult
      omega
    · have hrpc : Complete layout (sifInitRpc kernel (sifInitCmd kernel layout s).2).2.log :=
        hcomplete.mono (steps_sifInitRpc _).log
      split
      · exact hcomplete
      · split <;> exact hrpc

/-- The command stage does not touch `g_sif_initialized`. -/
theorem sifInitCmd_sifInitialized (s : Sif) :
    (sifInitCmd kernel layout s).2.sifInitialized = s.sifInitialized := by
  let R (s t : Sif) : Prop := t.sifInitialized = s.sifInitialized
  have : Std.Refl R := ⟨fun _ => rfl⟩
  have : IsTrans Sif R := ⟨fun _ _ _ h₁ h₂ => h₂.trans h₁⟩
  have haccess (a : Access) : Steps R (access kernel a) :=
    (steps_access a).mono Grows.sifInitialized
  have hcmd : Steps R (sifInitCmd kernel layout) :=
    Steps.bind Steps.get fun _ => Steps.ite (Steps.pure _) <|
      Steps.bind (Steps.modify fun _ => rfl) fun _ => Steps.bind (haccess _) fun _ =>
      Steps.bind (haccess _) fun _ =>
      Steps.bind (Steps.ite (haccess _) (Steps.pure _)) fun _ =>
      Steps.bind (haccess _) fun _ =>
      Steps.bind (Steps.ite (haccess _) (Steps.pure _)) fun _ =>
      Steps.bind (haccess _) fun _ => Steps.bind (Steps.modify fun _ => rfl) fun _ =>
      Steps.ite (Steps.pure _) (steps_sifEnableCmd.mono Grows.sifInitialized)
  exact hcmd s

/-- A call leaves the SIF initialised only when it was, or when it reports success. -/
theorem sifInit_initialized (h : (sifInit kernel layout s).2.sifInitialized = true) :
    s.sifInitialized = true ∧ (sifInit kernel layout s).2 = s
      ∨ (sifInit kernel layout s).1 = 0 := by
  rw [sifInit_run] at h ⊢
  dsimp only at h ⊢
  have hcmd : (sifInitCmd kernel layout s).2.sifInitialized = s.sifInitialized :=
    sifInitCmd_sifInitialized s
  have hrpc : (sifInitRpc kernel (sifInitCmd kernel layout s).2).2.sifInitialized
      = (sifInitCmd kernel layout s).2.sifInitialized := (steps_sifInitRpc _).sifInitialized
  by_cases hdone : s.sifInitialized = true
  · rw [if_pos hdone]
    exact Or.inl ⟨hdone, rfl⟩
  · rw [if_neg hdone] at h ⊢
    right
    split at h
    · exact absurd (hcmd.symm.trans h) hdone
    split at h
    · exact absurd (hcmd.symm.trans (hrpc.symm.trans h)) hdone
    · next h₁ h₂ => rw [if_neg h₁, if_neg h₂]

/-! ## Runs -/

/-- What happens next : a call of `ef2_sif_init`, or packets that arrive before one. -/
inductive Action where
  | init
  | interrupt (packets : List CmdPacket)

def act (kernel : Kernel) (layout : Layout) (s : Sif) : Action → Sif
  | .init => (sifInit kernel layout s).2
  | .interrupt packets => packets.foldl sifIrqHandler s

/-- The state after the actions, from the globals as the program is loaded. -/
def run (kernel : Kernel) (layout : Layout) (actions : List Action) : Sif :=
  actions.foldl (act kernel layout) boot

/-- `P` holds of the state before each call of a run. -/
def EveryCall (kernel : Kernel) (layout : Layout) (actions : List Action) (P : Sif → Prop) :
    Prop :=
  ∀ before after, actions = before ++ .init :: after → P (run kernel layout before)

theorem run_concat (actions : List Action) (a : Action) :
    run kernel layout (actions ++ [a]) = act kernel layout (run kernel layout actions) a := by
  rw [run, List.foldl_append]
  rfl

theorem everyCall_concat {P : Sif → Prop} {actions : List Action} {a : Action} :
    EveryCall kernel layout (actions ++ [a]) P
      ↔ EveryCall kernel layout actions P
        ∧ (a = .init → P (run kernel layout actions)) := by
  constructor
  · intro h
    refine ⟨fun before after heq => h before (after ++ [a]) (by simp [heq]), ?_⟩
    rintro rfl
    exact h actions [] rfl
  · rintro ⟨h, hlast⟩ before after heq
    obtain rfl | ⟨after, b, rfl⟩ := List.eq_nil_or_concat after
    · obtain ⟨rfl, hinit⟩ := List.append_inj' heq rfl
      exact hlast (List.singleton_inj.mp hinit)
    · refine h before after ?_
      have heq' : actions ++ [a] = (before ++ .init :: after) ++ [b] := by simpa using heq
      exact (List.append_inj' heq' rfl).1

/-- A call that reports success has both steps behind it. -/
def SuccessComplete (kernel : Kernel) (layout : Layout) (s : Sif) : Prop :=
  (sifInit kernel layout s).1 = 0 → Complete layout (sifInit kernel layout s).2.log

instance (kernel : Kernel) (layout : Layout) (s : Sif) :
    Decidable (SuccessComplete kernel layout s) :=
  inferInstanceAs (Decidable (_ → _))

/-- While every success so far was complete, an initialised SIF has both steps behind it. -/
theorem run_initialized {actions : List Action}
    (h : EveryCall kernel layout actions (SuccessComplete kernel layout)) :
    (run kernel layout actions).sifInitialized = true →
      Complete layout (run kernel layout actions).log := by
  induction actions using List.reverseRecOn with
  | nil => exact fun hboot => absurd hboot (show ¬boot.sifInitialized = true by decide)
  | append_singleton actions a ih =>
    obtain ⟨hactions, hlast⟩ := everyCall_concat.mp h
    rw [run_concat]
    cases a with
    | interrupt packets =>
      obtain ⟨hgrows, hlog⟩ :=
        foldl_sifIrqHandler_grows packets (run kernel layout actions)
      rw [act, hlog, hgrows.sifInitialized]
      exact ih hactions
    | init =>
      intro hdone
      obtain ⟨hbefore, hsame⟩ | hzero := sifInit_initialized hdone
      · rw [act, hsame]
        exact ih hactions hbefore
      · exact hlast rfl hzero

/-- Every success of a run is complete exactly when no call finds the command stage abandoned
half-way by an earlier one while the RPC stage goes through. -/
theorem inits_complete_iff (kernel : Kernel) (layout : Layout) (actions : List Action) :
    EveryCall kernel layout actions (SuccessComplete kernel layout)
      ↔ EveryCall kernel layout actions fun s => ¬(Stale layout s ∧ RpcUp kernel s) := by
  induction actions using List.reverseRecOn with
  | nil => exact iff_of_true (by simp [EveryCall]) (by simp [EveryCall])
  | append_singleton actions a ih =>
    rw [everyCall_concat, everyCall_concat, ← ih]
    refine and_congr_right fun h => forall_congr' fun _ => ?_
    exact sifInit_complete_iff (run_initialized h)

/-- A kernel of a console whose RPC layer an earlier program started, and whose SIF DMA is
busy. -/
def busyDma : Kernel := fun _ a =>
  match a with
  | .sifGetReg reg => ⟨if reg = sysregSubaddr then 0x1D000 else 1, []⟩
  | .enableDmac _ => ⟨1, []⟩
  | .addDmacHandler _ => ⟨1, []⟩
  | _ => ⟨0, []⟩

/-- The first call cannot send the address, and the second reports success without trying. -/
theorem inits_incomplete_busyDma :
    ¬∀ kernel layout actions,
      EveryCall kernel layout actions (SuccessComplete kernel layout) := by
  intro h
  have hsecond := h busyDma ⟨0x100000, 0x100080, 0x1000C0⟩ [.init, .init] [.init] [] rfl
  revert hsecond
  decide +kernel

end EF2SDK.SifInit
