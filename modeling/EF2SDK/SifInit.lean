import Mathlib.Data.Int.Notation
import Mathlib.Data.Nat.Notation
import EF2SDK.StateSteps

/-!
# The initialisation of the SIF

`ef2_sif_init` of `src/ee/sif/sif.c` and its two stages. `ef2_sif_init_cmd` installs the SIF0
interrupt handler, enables the DMAC channel and sends the IOP the address of the EE's packet
buffer; `ef2_sif_init_rpc` starts the IOP's RPC layer and waits for it. Either stage is skipped
when its guard finds that it was done : the handler's id for the first, the RPCINIT register
for the second.

What the stages reach for is an arbitrary `Kernel` : it knows every access made so far, answers
the next one, and decides which command packets the interrupt handler is given before the
access returns. Interrupts also arrive before each use of what the packets' handlers write
(`interrupts`). The accesses are logged with their answers.

The pool packets that `ef2_sif_init` frees, and what an RPC_END packet changes, belong to the
SIF-RPC client; nothing here reads them.
-/

set_option autoImplicit false

namespace EF2SDK.SifInit

/-! ## Command packets -/

/-- `EF2_SIF_CMD_SYSTEM`. -/
abbrev cmdSystem : UInt32 := 0x80000000

/-- `EF2_SIF_CMD_CHANGE_SADDR`. -/
abbrev cmdChangeSaddr : UInt32 := cmdSystem ||| 0

/-- `EF2_SIF_CMD_INIT_CMD`. -/
abbrev cmdInitCmd : UInt32 := cmdSystem ||| 2

/-- `ef2_sif_cmd_header`, with the values that `ef2_zero` leaves. -/
structure CmdHeader where
  sizes : UInt32 := 0
  dest : UInt32 := 0
  cid : UInt32 := 0
  opt : UInt32 := 0
  deriving DecidableEq

/-- A packet : its header and the words after it. -/
structure CmdPacket where
  header : CmdHeader
  words : List UInt32
  deriving DecidableEq

/-- `ef2_cmd_set_sizes`. -/
def cmdSizes (packetSize dataSize : UInt32) : UInt32 :=
  (packetSize &&& (0xFF : UInt32)) ||| ((dataSize &&& (0xFFFFFF : UInt32)) <<< (8 : UInt32))

/-- `ef2_cmd_packet_size`. -/
def CmdHeader.packetSize (header : CmdHeader) : UInt32 :=
  header.sizes &&& 0xFF

/-! ## The kernel and the hardware -/

/-- What is written back or transferred : memory of the caller, or a packet. -/
inductive Source where
  | memory (address : UInt32)
  | packet (packet : CmdPacket)
  deriving DecidableEq

/-- `ef2_sif_dma_transfer`. -/
structure DmaTransfer where
  src : Source
  dest : UInt32
  size : UInt32
  attr : UInt32
  deriving DecidableEq

/-- The kernel calls and the accesses to DMAC registers, with `ef2_cache_writeback_invalidate_range`
and the points where interrupts are let in. -/
inductive Access where
  | interrupts
  | flushCache
  | writebackInvalidate (src : Source) (size : UInt32)
  | readCommStat
  | writeCommStat (value : UInt32)
  | readSif0Chcr
  | sifSetDchain
  | addDmacHandler (channel : UInt32)
  | enableDmac (channel : UInt32)
  | sifGetReg (reg : UInt32)
  | sifSetReg (reg value : UInt32)
  | sifSetDma (transfers : List DmaTransfer)

/-- What an access returns, and the packets that are handled meanwhile. -/
structure Answer where
  value : Int32
  packets : List CmdPacket := []

structure Event where
  access : Access
  answer : Answer

/-- The answer to the next access, after those made so far. -/
abbrev Kernel := List Event → Access → Answer

/-! ## The globals -/

/-- `ef2_cmd_change_addr`, `ef2_cmd_set_sreg` and `ef2_cmd_rpc_end`. -/
inductive SysHandler where
  | changeAddr
  | setSreg
  | rpcEnd
  deriving DecidableEq

/-- `ef2_sif_cmd_data`, without the pointers to the arrays. -/
structure CmdData where
  pktbuf : UInt32 := 0
  unused : UInt32 := 0
  iopbuf : UInt32 := 0
  sysHandlerCount : UInt32 := 0

/-- `g_cmd_data`, `g_sys_handlers`, `g_sregs`, `g_sif0_handler_id` and `g_sif_initialized`, with
the accesses made. -/
structure Sif where
  cmdData : CmdData
  sysHandlers : Vector (Option SysHandler) 32
  sregs : Vector UInt32 32
  sif0HandlerId : Int32
  sifInitialized : Bool
  log : List Event

/-- The globals as the program is loaded. -/
def boot : Sif where
  cmdData := {}
  sysHandlers := .replicate 32 none
  sregs := .replicate 32 0
  sif0HandlerId := -1
  sifInitialized := false
  log := []

/-- The addresses of `g_cmd_packet_buffer`, `g_cmd_unused` and `g_cmd_data`. -/
structure Layout where
  cmdPacketBuffer : UInt32
  cmdUnused : UInt32
  cmdData : UInt32

/-- `ef2_uncached`. -/
def uncached (address : UInt32) : UInt32 :=
  address ||| 0x20000000

/-- The packet buffer's address, as the IOP is told. -/
def Layout.pktbuf (layout : Layout) : UInt32 :=
  uncached layout.cmdPacketBuffer

/-! ## Interrupts -/

/-- A system command's handler. -/
def SysHandler.run (handler : SysHandler) (packet : CmdPacket) (s : Sif) : Sif :=
  match handler with
  | changeAddr => { s with cmdData := { s.cmdData with iopbuf := packet.words.getD 0 0 } }
  | setSreg =>
    let sreg := (packet.words.getD 0 0).toNat
    if h : sreg < 32 then { s with sregs := s.sregs.set sreg (packet.words.getD 1 0) h } else s
  | rpcEnd => s

/-- `ef2_sif_irq_handler`, for the packet that lies in the packet buffer. -/
def sifIrqHandler (s : Sif) (packet : CmdPacket) : Sif :=
  let size := packet.header.packetSize
  if size = 0 ∨ 128 < size then
    s
  else
    let id := packet.header.cid &&& ~~~cmdSystem
    if packet.header.cid &&& cmdSystem ≠ 0 ∧ id < s.cmdData.sysHandlerCount then
      match (s.sysHandlers[id.toNat]?).join with
      | none => s
      | some handler => handler.run packet s
    else
      s

variable (kernel : Kernel) (layout : Layout)

/-- One access, with the interrupts that arrive before it returns. -/
def access (a : Access) : StateM Sif Int32 := fun s =>
  let answer := kernel s.log a
  (answer.value, answer.packets.foldl sifIrqHandler { s with log := s.log ++ [⟨a, answer⟩] })

/-- A point where interrupts arrive. -/
def interrupts : StateM Sif Int32 :=
  access kernel .interrupts

/-! ## Sending commands -/

/-- `EF2_SIF_DMA_ERT | EF2_SIF_DMA_INT_O`. -/
abbrev cmdDmaAttr : UInt32 := 0x40 ||| 0x04

/-- `ef2_sif_send_cmd`. -/
def sifSendCmd (cid : UInt32) (packet : CmdPacket)
    (packetSize extraSrc extraDest extraSize : UInt32) : StateM Sif UInt32 := do
  let _ ← interrupts kernel
  let s ← get
  if packetSize = 0 ∨ 112 < packetSize ∨ s.cmdData.iopbuf = 0 then
    pure 0
  else do
    let dest := if extraSize ≠ 0 then extraDest else 0
    let packet : CmdPacket :=
      { packet with
        header := { packet.header with
          cid := cid, dest := dest, sizes := cmdSizes packetSize extraSize } }
    let extra : List DmaTransfer :=
      if extraSize ≠ 0 then [⟨.memory extraSrc, extraDest, extraSize, 0⟩] else []
    let _ ← (if extraSize ≠ 0 then
        access kernel (.writebackInvalidate (.memory extraSrc) extraSize)
      else
        pure 0)
    let s ← get
    let _ ← access kernel (.writebackInvalidate (.packet packet) packetSize)
    let id ← access kernel
      (.sifSetDma (extra ++ [⟨.packet packet, s.cmdData.iopbuf, packetSize, cmdDmaAttr⟩]))
    pure id.toUInt32

/-! ## The command stage -/

/-- `EF2_DMAC_SIF0`. -/
abbrev dmacSif0 : UInt32 := 5

/-- `EF2_DMAC_STAT_SIF0`. -/
abbrev dmacStatSif0 : UInt32 := 0x20

/-- `EF2_DMAC_CHCR_STR`. -/
abbrev dmacChcrStr : UInt32 := 0x100

/-- `EF2_SIF_REG_SUBADDR`. -/
abbrev regSubaddr : UInt32 := 2

/-- `EF2_SIF_REG_SMFLAG`. -/
abbrev regSmflag : UInt32 := 4

/-- `EF2_SIF_SYSREG_SUBADDR`. -/
abbrev sysregSubaddr : UInt32 := 0x80000000 ||| 0

/-- `EF2_SIF_SYSREG_MAINADDR`. -/
abbrev sysregMainaddr : UInt32 := 0x80000000 ||| 1

/-- `EF2_SIF_SYSREG_RPCINIT`. -/
abbrev sysregRpcinit : UInt32 := 0x80000000 ||| 2

/-- `EF2_SIF_STAT_CMDINIT`. -/
abbrev statCmdinit : UInt32 := 0x00020000

/-- The number of times that registers and flags are looked at before they are given up. -/
abbrev pollLimit : ℕ := 0x02000000

/-- What `ef2_sif_init_cmd` stores before its first kernel call. -/
def clearCmdData (s : Sif) : Sif :=
  { s with
    cmdData :=
      { pktbuf := layout.pktbuf, unused := uncached layout.cmdUnused, sysHandlerCount := 32 }
    sysHandlers :=
      (((Vector.replicate 32 none).set 0 (some .changeAddr)).set 1 (some .setSreg)).set 8
        (some .rpcEnd)
    sregs := .replicate 32 0 }

/-- `ef2_sif_change_addr_packet`, which carries the packet buffer's address. -/
def changeAddrPacket (pktbuf : UInt32) : CmdPacket where
  header := {}
  words := [pktbuf]

/-- The loop that waits for `EF2_SIF_STAT_CMDINIT` : whether it was seen. -/
def awaitCmdinit : ℕ → StateM Sif Bool
  | 0 => pure false
  | polls + 1 => do
    let smflag ← access kernel (.sifGetReg regSmflag)
    if smflag.toUInt32 &&& statCmdinit ≠ 0 then
      pure true
    else
      awaitCmdinit polls

/-- The end of `ef2_sif_init_cmd` when an earlier program left no buffer of the IOP's. -/
def sifInitIop : StateM Sif ℤ := do
  let ready ← awaitCmdinit kernel pollLimit
  if ready = false then
    pure (-4)
  else do
    let subaddr ← access kernel (.sifGetReg regSubaddr)
    modify fun s => { s with cmdData := { s.cmdData with iopbuf := subaddr.toUInt32 } }
    let _ ← interrupts kernel
    let s ← get
    if s.cmdData.iopbuf = 0 then
      pure (-5)
    else do
      let _ ← access kernel (.sifSetReg sysregSubaddr s.cmdData.iopbuf)
      let _ ← access kernel (.sifSetReg sysregMainaddr layout.cmdData)
      let sent ← sifSendCmd kernel cmdInitCmd (changeAddrPacket s.cmdData.pktbuf) 20 0 0 0
      if sent = 0 then
        pure (-6)
      else
        pure 0

/-- The part of `ef2_sif_init_cmd` after the handler is installed. -/
def sifEnableCmd : StateM Sif ℤ := do
  let enabled ← access kernel (.enableDmac dmacSif0)
  if enabled < 0 then
    pure (-2)
  else do
    let subaddr ← access kernel (.sifGetReg sysregSubaddr)
    modify fun s => { s with cmdData := { s.cmdData with iopbuf := subaddr.toUInt32 } }
    let _ ← interrupts kernel
    let s ← get
    if s.cmdData.iopbuf ≠ 0 then do
      let sent ← sifSendCmd kernel cmdChangeSaddr (changeAddrPacket s.cmdData.pktbuf) 20 0 0 0
      if sent = 0 then
        pure (-3)
      else
        pure 0
    else
      sifInitIop kernel layout

/-- `ef2_sif_init_cmd`. -/
def sifInitCmd : StateM Sif ℤ := do
  let s ← get
  if 0 ≤ s.sif0HandlerId then
    pure 0
  else do
    modify (clearCmdData layout)
    let _ ← access kernel .flushCache
    let stat ← access kernel .readCommStat
    let _ ← (if stat.toUInt32 &&& dmacStatSif0 ≠ 0 then
        access kernel (.writeCommStat dmacStatSif0)
      else
        pure 0)
    let chcr ← access kernel .readSif0Chcr
    let _ ← (if chcr.toUInt32 &&& dmacChcrStr = 0 then access kernel .sifSetDchain else pure 0)
    let id ← access kernel (.addDmacHandler dmacSif0)
    modify fun s => { s with sif0HandlerId := id }
    if id < 0 then
      pure (-1)
    else
      sifEnableCmd kernel layout

/-! ## The RPC stage -/

/-- `EF2_SIF_SREG_RPCINIT`. -/
abbrev sregRpcinit : Fin 32 := 0

/-- `ef2_wait_flag` on `g_sregs[EF2_SIF_SREG_RPCINIT]` : whether it was set. -/
def waitFlag : ℕ → StateM Sif Bool
  | 0 => pure false
  | polls + 1 => do
    let _ ← interrupts kernel
    let s ← get
    if s.sregs.get sregRpcinit ≠ 0 then
      pure true
    else
      waitFlag polls

/-- The packet that starts the IOP's RPC layer. -/
def rpcInitPacket : CmdPacket where
  header := { opt := 1 }
  words := []

/-- `ef2_sif_init_rpc`. -/
def sifInitRpc : StateM Sif ℤ := do
  let ready ← access kernel (.sifGetReg sysregRpcinit)
  if ready ≠ 0 then
    pure 0
  else do
    let sent ← sifSendCmd kernel cmdInitCmd rpcInitPacket 16 0 0 0
    if sent = 0 then
      pure (-1)
    else do
      let set ← waitFlag kernel pollLimit
      if set = false then
        pure (-2)
      else do
        let _ ← access kernel (.sifSetReg sysregRpcinit 1)
        pure 0

/-- `ef2_sif_init`. -/
def sifInit : StateM Sif ℤ := do
  let s ← get
  if s.sifInitialized then
    pure 0
  else do
    let result ← sifInitCmd kernel layout
    if result < 0 then
      pure (result - 100)
    else do
      let result ← sifInitRpc kernel
      if result < 0 then
        pure (result - 200)
      else do
        modify fun s => { s with sifInitialized := true }
        pure 0

end EF2SDK.SifInit
