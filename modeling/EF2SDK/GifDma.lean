import EF2SDK.Profile
import EF2SDK.Schedule
import EF2SDK.StateSteps

/-!
# The GIF DMA channel and its statistics

`src/ee/gs/gif_dma.c` : a transfer is started once the channel is idle, and counted as completed by
the next wait that finds it idle again, be it the caller's own or the one of a later start. A
wait is bounded, and may be over before the transfer.

Whether the controller has cleared STR before a poll, and what COP0 Count reads, are arbitrary
streams. The log is for the statements : when a transfer is started, when the controller has made
the channel idle, and when a completion is counted. The transport makes these calls as well
(`GifSends`).
-/

set_option autoImplicit false

namespace EF2SDK.GifDma

open Profile

/-- `EF2_GIF_DMA_DEFAULT_TIMEOUT`. -/
abbrev defaultTimeout : UInt32 := 0x01000000

/-- `ef2_gif_dma_stats`. -/
structure Stats where
  submissions : UInt32
  completions : UInt32
  qwordsSubmitted : UInt32
  waitCalls : UInt32
  timeouts : UInt32
  transferTicks : ProfileCounter
  waitTicks : ProfileCounter
deriving DecidableEq

/-- Statistics and counters as they are reset, and as the program is loaded. -/
def Stats.zero : Stats :=
  ⟨0, 0, 0, 0, 0, ⟨0, 0, 0, 0, 0⟩, ⟨0, 0, 0, 0, 0⟩⟩

/-- What befalls a transfer. -/
inductive Event
  | started
  | idle
  | completed
deriving DecidableEq

/-- `g_gif_dma_initialized`, `g_gif_dma_active`, `g_gif_dma_active_start` and `g_gif_dma_stats`;
the channel's STR bit; the polls of it and the readings of COP0 Count made so far. -/
structure Machine where
  initialized : Bool
  active : Bool
  activeStart : UInt32
  stats : Stats
  str : Bool
  polls : ℕ
  readings : ℕ
  log : List Event

/-- The program as it is loaded, over a channel that may be at work. -/
def boot (str : Bool) : Machine :=
  ⟨false, false, 0, .zero, str, 0, 0, []⟩

/-- The hardware : whether the controller clears STR before a poll, and COP0 Count. -/
structure Hardware where
  finishes : ℕ → Bool
  count : ℕ → UInt32

variable (hw : Hardware)

/-- `ef2_cpu_count`. -/
def cpuCount : StateM Machine UInt32 := do
  let m ← get
  set { m with readings := m.readings + 1 }
  pure (hw.count m.readings)

/-- `ef2_cpu_count_elapsed`. -/
def cpuCountElapsed (start stop : UInt32) : UInt32 :=
  stop - start

/-- A poll of STR, which the controller may have cleared before. -/
def readStr : StateM Machine Bool := do
  let m ← get
  if m.str ∧ hw.finishes m.polls then
    set { m with polls := m.polls + 1, str := false, log := m.log ++ [Event.idle] }
    pure false
  else
    set { m with polls := m.polls + 1 }
    pure m.str

def modifyStats (f : Stats → Stats) : StateM Machine PUnit :=
  modify fun m => { m with stats := f m.stats }

/-- `ef2_gif_dma_reset_stats`. -/
def resetStats : StateM Machine PUnit := do
  modifyStats fun _ => .zero
  if (← get).active then
    let start ← cpuCount hw
    modify fun m => { m with activeStart := start }

/-- `ef2_gif_dma_get_stats`, into a buffer or into a null pointer. -/
def getStats (stats : Option Stats) : StateM Machine (ℤ × Option Stats) := do
  match stats with
  | none => pure (-1, none)
  | some _ => pure (0, some (← get).stats)

/-- The polls of `ef2_gif_dma_wait` : whether the channel is idle before `timeout` polls found it
at work. -/
def waitLoop : (timeout : ℕ) → StateM Machine Bool
  | 0 => pure false
  | timeout + 1 => do
    if ← readStr hw then
      if timeout = 0 then pure false else waitLoop timeout
    else
      pure true

/-- The transfer is counted as completed. -/
def complete (now : UInt32) (m : Machine) : Machine :=
  { m with
    stats := { m.stats with
      transferTicks := m.stats.transferTicks.record (cpuCountElapsed m.activeStart now)
      completions := m.stats.completions + 1 }
    active := false
    log := m.log ++ [.completed] }

/-- `ef2_gif_dma_wait`. -/
def dmaWait (timeout : UInt32) : StateM Machine ℤ := do
  let waitStart ← cpuCount hw
  modifyStats fun stats => { stats with waitCalls := stats.waitCalls + 1 }
  let timeout := if timeout = 0 then defaultTimeout else timeout
  if ← waitLoop hw timeout.toNat then
    let now ← cpuCount hw
    modifyStats fun stats =>
      { stats with waitTicks := stats.waitTicks.record (cpuCountElapsed waitStart now) }
    modify fun m => if m.active then complete now m else m
    pure 0
  else
    let now ← cpuCount hw
    modifyStats fun stats =>
      { stats with
        waitTicks := stats.waitTicks.record (cpuCountElapsed waitStart now)
        timeouts := stats.timeouts + 1 }
    pure (-1)

/-- `ef2_gif_dma_init`. -/
def dmaInit : StateM Machine ℤ := do
  if (← get).initialized then
    pure 0
  else if (← dmaWait hw defaultTimeout) < 0 then
    pure (-1)
  else
    modify fun m => { m with str := false, initialized := true }
    pure 0

/-- The transfer is started. -/
def start (now count : UInt32) (m : Machine) : Machine :=
  { m with
    activeStart := now
    active := true
    stats := { m.stats with
      submissions := m.stats.submissions + 1
      qwordsSubmitted := m.stats.qwordsSubmitted + count }
    str := true
    log := m.log ++ [.started] }

/-- `ef2_gif_dma_submit_qwords`, of a packet at an address. -/
def submitQwords (packet count : UInt32) : StateM Machine ℤ := do
  if count = 0 then
    pure 0
  else if packet = 0 then
    pure (-1)
  else if packet &&& 0x0F ≠ 0 then
    pure (-2)
  else if count > 0xFFFF then
    pure (-3)
  else if (← dmaInit hw) < 0 then
    pure (-4)
  else if (← dmaWait hw defaultTimeout) < 0 then
    pure (-5)
  else
    let now ← cpuCount hw
    modify (start now count)
    pure 0

/-- `ef2_gif_dma_send_qwords`. -/
def sendQwords (packet count : UInt32) : StateM Machine ℤ := do
  let result ← submitQwords hw packet count
  if result < 0 then
    pure result
  else
    dmaWait hw defaultTimeout

/-! ## Programs -/

/-- The calls a program makes. -/
inductive Call
  | init
  | submit (packet count : UInt32)
  | send (packet count : UInt32)
  | wait (timeout : UInt32)
  | resetStats
  | getStats (stats : Option Stats)

/-- The machine after a call. -/
def exec (m : Machine) : Call → Machine
  | .init => (dmaInit hw m).2
  | .submit packet count => (submitQwords hw packet count m).2
  | .send packet count => (sendQwords hw packet count m).2
  | .wait timeout => (dmaWait hw timeout m).2
  | .resetStats => (resetStats hw m).2
  | .getStats stats => (getStats stats m).2

def next (m : Machine) (call : Call) : Option Machine :=
  some (exec hw m call)

end EF2SDK.GifDma
