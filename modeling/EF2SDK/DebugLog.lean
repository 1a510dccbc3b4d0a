import EF2SDK.ByteMemory
import EF2SDK.DebugSio
import EF2SDK.RingBuffer

/-!
# The debug log

`src/ee/runtime/debug_log.c` : every byte written goes to a ring of 8192 bytes in RAM, and is
sent through the serial port (`DebugSio`) as long as that answers. The crash screen takes the end of
the log with `ef2_debug_copy_recent`.

`copyRecent_runCalls` : after any calls the log is a function of the bytes written since the
last reset, whatever the port does, and what is copied out is their end.
-/

set_option autoImplicit false

namespace EF2SDK.DebugLog

open ByteMemory RingBuffer
open DebugSio (Sio Regs sizeResult debugSioWrite debugSioInit)

/-! ## The log -/

/-- `EF2_DEBUG_RING_BYTES`. -/
abbrev ringBytes : ℕ := 8192

/-- `g_debug_ring`, `g_ring_head`, `g_ring_used` and `g_total_bytes`. -/
structure RamLog where
  ring : ℕ → UInt8
  head : ℕ
  used : ℕ
  total : ℕ

/-- The log and its serial mirror. -/
structure State where
  ram : RamLog
  sioActive : Bool
  sioFailures : ℕ
  sio : Sio
  regs : Regs

variable (isr : ℕ → UInt32)

/-- One round of `ring_write`. -/
def ringPut (r : RamLog) (x : UInt8) : RamLog where
  ring := Function.update r.ring r.head x
  head := (r.head + 1) % ringBytes
  used := if r.used < ringBytes then r.used + 1 else r.used
  total := if r.total ≠ 0xFFFFFFFF then r.total + 1 else r.total

/-- `ring_write`. -/
def ringWrite (r : RamLog) (data : List UInt8) : RamLog :=
  data.foldl ringPut r

/-- `ef2_debug_write_raw`, `none` being the null pointer. -/
def debugWriteRaw (data : Option (List UInt8)) (s : State) : ℤ × State :=
  match data with
  | none => (-1, s)
  | some data =>
    let s := { s with ram := ringWrite s.ram data }
    let s :=
      if s.sioActive then
        let (serialResult, sio) := debugSioWrite isr data s.sio
        if serialResult < 0 then
          { s with
            sio := sio
            sioActive := false
            sioFailures := if s.sioFailures ≠ 0xFFFFFFFF then s.sioFailures + 1 else s.sioFailures }
        else { s with sio := sio }
      else s
    (sizeResult data, s)

/-- The log with nothing in it. -/
def RamLog.empty : RamLog :=
  ⟨fun _ => 0, 0, 0, 0⟩

/-- `ef2_debug_reset`. -/
def debugReset (s : State) : State :=
  ⟨RamLog.empty, false, 0, s.sio, s.regs⟩

/-- `EF2_DEBUG_SIO_DEFAULT_BAUD`. -/
def sioDefaultBaud : UInt32 := 115200

/-- `ef2_debug_init`. -/
def debugInit (baudrate : UInt32) (s : State) : ℤ × State :=
  let s := debugReset s
  let baudrate := if baudrate = 0 then sioDefaultBaud else baudrate
  match debugSioInit baudrate s.regs s.sio with
  | some (sioResult, regs, sio) =>
    if sioResult = 0 then (0, { s with sio := sio, regs := regs, sioActive := true })
    else (0, { s with sio := sio, regs := regs, sioFailures := 1 })
  -- the division traps, with the log as it has been reset
  | none => (0, s)

/-- The loop of `ef2_debug_copy_recent` : `count` bytes of the ring from the slot `start` on. -/
def copyLoop (ring : ℕ → UInt8) (start destination : ℕ) (m : Mem) : (count : ℕ) → Mem
  | 0 => m
  | i + 1 => Function.update (copyLoop ring start destination m i) (destination + i)
      (ring ((start + i) % ringBytes))

/-- `ef2_debug_copy_recent` : the bytes it reports, and the memory. -/
def copyRecent (r : RamLog) (destination capacity : ℕ) (m : Mem) : ℕ × Mem :=
  if destination = 0 ∨ capacity = 0 then (0, m)
  else
    let count := if r.used ≥ capacity then u32 capacity - 1 else r.used
    let start := (r.head + ringBytes - r.used) % ringBytes
    let start := if count < r.used then (r.head + ringBytes - count) % ringBytes else start
    (count,
      Function.update (copyLoop r.ring start destination m count) (destination + count) 0)

/-! ## Calls -/

/-- A call of the log's owner. -/
inductive Call
  | reset
  | init (baudrate : UInt32)
  | writeRaw (data : Option (List UInt8))

/-- One call and its result. -/
def exec (s : State) : Call → ℤ × State
  | .reset => (0, debugReset s)
  | .init baudrate => debugInit baudrate s
  | .writeRaw data => debugWriteRaw isr data s

/-- Calls one after the other, with their results. -/
def runCalls : State → List Call → List ℤ × State
  | s, [] => ([], s)
  | s, call :: calls =>
    let (result, s) := exec isr s call
    let (results, s) := runCalls s calls
    (result :: results, s)

/-- The static variables before the first call. -/
def boot : State :=
  ⟨RamLog.empty, false, 0, ⟨0, 0, []⟩, ⟨0, 0, 0, 0⟩⟩

/-- The bytes written since the last reset, `w` being those written before the calls. -/
def written : (w : List UInt8) → List Call → List UInt8
  | w, [] => w
  | _, .reset :: calls => written [] calls
  | _, .init _ :: calls => written [] calls
  | w, .writeRaw data :: calls => written (w ++ data.getD []) calls

/-- The result of a call, which the serial port has no part in. -/
def Call.result : Call → ℤ
  | reset => 0
  | init _ => 0
  | writeRaw none => -1
  | writeRaw (some data) => sizeResult data

variable {isr} {s : State} {r : RamLog} {w data : List UInt8} {m : Mem} {call : Call}
  {calls : List Call}

/-! ## The log is the end of what was written -/

/-- The ring keeps the end of `w`. -/
def RamLog.Holds (r : RamLog) (w : List UInt8) : Prop :=
  Logs ringBytes r.ring r.head r.used w

theorem holds_empty : RamLog.empty.Holds [] :=
  Logs.nil (by decide)

theorem RamLog.Holds.write (h : r.Holds w) (data : List UInt8) :
    (ringWrite r data).Holds (w ++ data) := by
  induction data generalizing r w with
  | nil => simpa [ringWrite] using h
  | cons x data ih =>
    have hput : (ringPut r x).Holds (w ++ [x]) := h.push x
    simpa [ringWrite] using ih hput

variable (isr) in
/-- The mirror has no part in the log or in the result of a write. -/
theorem debugWriteRaw_ram (data : Option (List UInt8)) (s : State) :
    (debugWriteRaw isr data s).1 = (Call.writeRaw data).result ∧
    (debugWriteRaw isr data s).2.ram = ringWrite s.ram (data.getD []) := by
  cases data with
  | none => exact ⟨rfl, rfl⟩
  | some data =>
    refine ⟨rfl, ?_⟩
    unfold debugWriteRaw
    dsimp only
    split_ifs <;> rfl

theorem debugInit_ram (baudrate : UInt32) (s : State) :
    (debugInit baudrate s).1 = 0 ∧ (debugInit baudrate s).2.ram = RamLog.empty := by
  unfold debugInit
  dsimp only
  split
  · split <;> exact ⟨rfl, rfl⟩
  · exact ⟨rfl, rfl⟩

variable (isr calls) in
/-- The results of the calls and the log they leave. -/
theorem runCalls_ram (h : s.ram = ringWrite RamLog.empty w) :
    (runCalls isr s calls).1 = calls.map Call.result ∧
    (runCalls isr s calls).2.ram = ringWrite RamLog.empty (written w calls) := by
  induction calls generalizing s w with
  | nil => exact ⟨rfl, h⟩
  | cons call calls ih =>
    cases call with
    | reset =>
      obtain ⟨hres, hram⟩ := ih (s := debugReset s) (w := []) rfl
      exact ⟨congrArg (0 :: ·) hres, hram⟩
    | init baudrate =>
      obtain ⟨hzero, hempty⟩ := debugInit_ram baudrate s
      obtain ⟨hres, hram⟩ := ih (s := (debugInit baudrate s).2) (w := []) hempty
      exact ⟨congrArg₂ List.cons hzero hres, hram⟩
    | writeRaw data =>
      obtain ⟨hsize, hwrite⟩ := debugWriteRaw_ram isr data s
      obtain ⟨hres, hram⟩ := ih (s := (debugWriteRaw isr data s).2) (w := w ++ data.getD [])
        (by rw [hwrite, h, ringWrite, ringWrite, ringWrite, List.foldl_append])
      exact ⟨congrArg₂ List.cons hsize hres, hram⟩

/-! ## Copying the end of the log -/

theorem copyLoop_of_outside {ring : ℕ → UInt8} {start destination count x : ℕ}
    (h : x < destination ∨ destination + count ≤ x) :
    copyLoop ring start destination m count x = m x := by
  induction count with
  | zero => rfl
  | succ i ih => rw [copyLoop, Function.update_of_ne (by omega), ih (by omega)]

theorem copyLoop_eq {ring : ℕ → UInt8} {start destination count i : ℕ} (hi : i < count) :
    copyLoop ring start destination m count (destination + i) =
      ring ((start + i) % ringBytes) := by
  induction count with
  | zero => exact absurd hi i.not_lt_zero
  | succ n ih =>
    rw [copyLoop]
    rcases Nat.lt_succ_iff_lt_or_eq.1 hi with hlt | rfl
    · rw [Function.update_of_ne (by omega), ih hlt]
    · rw [Function.update_self]

/-- What `ef2_debug_copy_recent` reads off a ring that keeps the end of `w`, in both of its
start formulas. -/
theorem copyRecent_eq {destination capacity : ℕ} (h : r.Holds w) (hd : destination ≠ 0)
    (hc : 0 < capacity) : copyRecent r destination capacity m =
      (min ringBytes (min w.length (capacity - 1)),
        Function.update (copyLoop r.ring
          ((r.head + ringBytes - min ringBytes (min w.length (capacity - 1))) % ringBytes)
          destination m (min ringBytes (min w.length (capacity - 1))))
          (destination + min ringBytes (min w.length (capacity - 1))) 0) := by
  obtain ⟨n, hn⟩ : ∃ n, n = min ringBytes (min w.length (capacity - 1)) := ⟨_, rfl⟩
  have hused : r.used = min ringBytes w.length := h.count
  have hring : ringBytes = 8192 := rfl
  have hcount : (if r.used ≥ capacity then u32 capacity - 1 else r.used) = n := by
    split_ifs with hfull
    · rw [u32_of_lt (by omega)]
      omega
    · omega
  have hstart : (if n < r.used then (r.head + ringBytes - n) % ringBytes
      else (r.head + ringBytes - r.used) % ringBytes) = (r.head + ringBytes - n) % ringBytes := by
    split_ifs with hcut
    · rfl
    · rw [show r.used = n by omega]
  rw [← hn, copyRecent, if_neg (by omega)]
  dsimp only
  rw [hcount, hstart]

/-- After any calls the log is what the bytes written since the last reset make of it, the
results of the calls do not depend on the serial port, and `ef2_debug_copy_recent` reports and
stores the end of those bytes, a null byte after them, and nothing else. -/
theorem copyRecent_runCalls (isr : ℕ → UInt32) (calls : List Call) (m : Mem)
    (destination capacity : ℕ) (hd : destination ≠ 0) (hc : 0 < capacity) :
    (runCalls isr boot calls).1 = calls.map Call.result ∧
    (runCalls isr boot calls).2.ram = ringWrite RamLog.empty (written [] calls) ∧
    ∃ n m', copyRecent (runCalls isr boot calls).2.ram destination capacity m = (n, m') ∧
      n = min ringBytes (min (written [] calls).length (capacity - 1)) ∧
      (List.range n).map (fun i => m' (destination + i)) =
        (written [] calls).drop ((written [] calls).length - n) ∧
      m' (destination + n) = 0 ∧
      ∀ x, x < destination ∨ destination + n < x → m' x = m x := by
  obtain ⟨hres, hram⟩ := runCalls_ram isr calls (s := boot) (w := []) rfl
  obtain ⟨r, hr⟩ : ∃ r, r = (runCalls isr boot calls).2.ram := ⟨_, rfl⟩
  obtain ⟨w, hw⟩ : ∃ w, w = written [] calls := ⟨_, rfl⟩
  rw [← hr, ← hw] at hram ⊢
  have hholds : r.Holds w := hram ▸ holds_empty.write w
  refine ⟨hres, hram, _, _, copyRecent_eq hholds hd hc, rfl, ?_, Function.update_self .., ?_⟩
  · rw [← hholds.recent (m := min ringBytes (min w.length (capacity - 1)))
      (by rw [hholds.count]; omega)]
    refine List.map_congr_left fun i hi => ?_
    have hlt := List.mem_range.1 hi
    rw [Function.update_of_ne (by omega), copyLoop_eq hlt]
  · intro x hx
    rw [Function.update_of_ne (by omega), copyLoop_of_outside (by omega)]

/-- Three writes, the last two after a reset, and the end of them copied to four bytes. -/
theorem copyRecent_writes : ∃ m',
    copyRecent (runCalls (fun _ => 0x8000) boot [.writeRaw (some [1]), .init 0,
      .writeRaw (some [2, 3]), .writeRaw (some [4, 5])]).2.ram 64 4 (fun _ => 9) = (3, m') ∧
    (List.range 3).map (fun i => m' (64 + i)) = [3, 4, 5] := by
  obtain ⟨-, -, n, m', hcopy, rfl, hbytes, -⟩ := copyRecent_runCalls (fun _ => 0x8000)
    [.writeRaw (some [1]), .init 0, .writeRaw (some [2, 3]), .writeRaw (some [4, 5])]
    (fun _ => 9) 64 4 (by decide) (by decide)
  exact ⟨m', hcopy, hbytes⟩

end EF2SDK.DebugLog
