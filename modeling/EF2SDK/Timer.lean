import EF2SDK.FlagRegister
import EF2SDK.Schedule
import Mathlib.Data.Int.Notation
import Mathlib.Logic.Function.Basic
import Mathlib.Tactic.SplitIfs

/-!
# The EE timers

`ef2_timer_start`, `_stop` and `_ack` of `src/ee/kernel/timer.c` read the MODE register of a timer,
change what they read and write it back. Bits 10 and 11 are event flags, which a write clears
where it has a one; the timer may raise them at any moment, also between a call's read and its
write.

The code masks the flags out of what it read, and puts a flag in to acknowledge it. So no other
call clears a flag (`value_and_flag`), and the control bits that are written back are those that
were read, which the hardware does not change (`Inv`). `calls_keep_flags` : in every run, only
`ef2_timer_ack` clears a flag, the one it names, and each call changes the control bits that it
is there for.
-/

set_option autoImplicit false

namespace EF2SDK.Timer

open FlagRegister Schedule

/-- `EF2_TIMER_MODE_ENABLE`. -/
abbrev modeEnable : BitVec 32 := 0x00000080

/-- `EF2_TIMER_MODE_COMPARE_FLAG`. -/
abbrev modeCompareFlag : BitVec 32 := 0x00000400

/-- `EF2_TIMER_MODE_OVERFLOW_FLAG`. -/
abbrev modeOverflowFlag : BitVec 32 := 0x00000800

/-- `EF2_TIMER_MODE_EVENT_MASK`. -/
abbrev modeEventMask : BitVec 32 := modeCompareFlag ||| modeOverflowFlag

/-- `EF2_TIMER_EVENT_COMPARE`. -/
abbrev eventCompare : BitVec 32 := 1 <<< 0

/-- `EF2_TIMER_EVENT_OVERFLOW`. -/
abbrev eventOverflow : BitVec 32 := 1 <<< 1

/-- `ef2_timer_valid`. -/
def timerValid (timer : ℤ) : Bool :=
  timer ≥ 0 ∧ timer ≤ 2

/-- `ef2_timer_mode_control`. -/
def timerModeControl (mode : BitVec 32) : BitVec 32 :=
  mode &&& ~~~modeEventMask

/-! ## The calls -/

/-- What `ef2_timer_start` writes to MODE, having read `mode`. -/
def timerStart (mode : BitVec 32) : BitVec 32 :=
  timerModeControl mode ||| modeEnable

/-- What `ef2_timer_stop` writes to MODE, having read `mode`. -/
def timerStop (mode : BitVec 32) : BitVec 32 :=
  timerModeControl mode &&& ~~~modeEnable

/-- What `ef2_timer_ack` writes to MODE, having read `mode`. -/
def timerAck (events mode : BitVec 32) : BitVec 32 :=
  let mode := timerModeControl mode
  let mode := if events &&& eventCompare ≠ 0 then mode ||| modeCompareFlag else mode
  if events &&& eventOverflow ≠ 0 then mode ||| modeOverflowFlag else mode

/-- A call, of some timer. -/
inductive Op
  | start
  | stop
  | ack (events : BitVec 32)
deriving DecidableEq

def Op.value : Op → BitVec 32 → BitVec 32
  | start => timerStart
  | stop => timerStop
  | ack events => timerAck events

/-- Where the CPU is : in no call, about to read MODE, or about to write it, having read `mode`. -/
inductive Pc
  | idle
  | read (op : Op) (timer : ℤ)
  | write (op : Op) (timer : ℤ) (mode : BitVec 32)
deriving DecidableEq

/-- The MODE registers, where the CPU is, and what the last call returned. -/
structure Machine where
  mode : ℤ → BitVec 32
  pc : Pc
  ret : ℤ

/-- What happens next : a call is made, the CPU makes its next access, or a timer has events. -/
inductive Choice
  | call (op : Op) (timer : ℤ)
  | cpu
  | raise (timer : ℤ) (events : BitVec 32)

def next (s : Machine) : Choice → Option Machine
  | .call op timer =>
    match s.pc with
    | .idle =>
      some (if !timerValid timer then { s with ret := -1 } else { s with pc := .read op timer })
    | _ => none
  | .cpu =>
    match s.pc with
    | .idle => none
    | .read op timer => some { s with pc := .write op timer (s.mode timer) }
    | .write op timer mode =>
      some {
        mode := Function.update s.mode timer
          (write modeEventMask (s.mode timer) (op.value mode))
        pc := .idle
        ret := 0 }
  | .raise timer events =>
    some { s with
      mode := Function.update s.mode timer (raise modeEventMask (s.mode timer) events) }

/-! ## What a call writes -/

/-- The bit of `events` that names an event, and its flag. -/
def eventFlags : List (BitVec 32 × BitVec 32) :=
  [(eventCompare, modeCompareFlag), (eventOverflow, modeOverflowFlag)]

/-- What a call is to do with the control bits. -/
def Op.control : Op → BitVec 32 → BitVec 32
  | start, c => c ||| modeEnable
  | stop, c => c &&& ~~~modeEnable
  | ack _, c => c

variable {op : Op} {mode : BitVec 32}

theorem timerModeControl_self : timerModeControl (timerModeControl mode) = timerModeControl mode :=
  control_control

theorem timerModeControl_or (c c' : BitVec 32) :
    timerModeControl (c ||| c') = timerModeControl c ||| timerModeControl c' :=
  control_or

theorem timerModeControl_and (c c' : BitVec 32) :
    timerModeControl (c &&& c') = timerModeControl c &&& c' :=
  control_and

/-- A flag that is put in or not is no control bit. -/
theorem timerModeControl_ite {p : Prop} [Decidable p] {flag : BitVec 32}
    (hflag : timerModeControl flag = 0) : timerModeControl (if p then flag else 0) = 0 := by
  split_ifs
  · exact hflag
  · rfl

theorem timerAck_eq (events mode : BitVec 32) : timerAck events mode =
    timerModeControl mode ||| (if events &&& eventCompare ≠ 0 then modeCompareFlag else 0) |||
      (if events &&& eventOverflow ≠ 0 then modeOverflowFlag else 0) := by
  unfold timerAck
  split_ifs <;> simp

theorem timerModeControl_value :
    timerModeControl (op.value mode) = op.control (timerModeControl mode) := by
  cases op with
  | start =>
    show timerModeControl (timerModeControl mode ||| modeEnable) = _
    rw [timerModeControl_or, timerModeControl_self]
    rfl
  | stop =>
    show timerModeControl (timerModeControl mode &&& ~~~modeEnable) = _
    rw [timerModeControl_and, timerModeControl_self]
    rfl
  | ack events =>
    show timerModeControl (timerAck events mode) = timerModeControl mode
    rw [timerAck_eq, timerModeControl_or, timerModeControl_or, timerModeControl_self,
      timerModeControl_ite (by decide), timerModeControl_ite (by decide)]
    simp

theorem eq_of_mem_eventFlags {e : BitVec 32 × BitVec 32} (he : e ∈ eventFlags) :
    e = (eventCompare, modeCompareFlag) ∨ e = (eventOverflow, modeOverflowFlag) := by
  simpa [eventFlags] using he

theorem flag_and_eventMask {e : BitVec 32 × BitVec 32} (he : e ∈ eventFlags) :
    e.2 &&& modeEventMask = e.2 := by
  obtain rfl | rfl := eq_of_mem_eventFlags he
  · decide
  · decide

theorem modeEnable_and_flag {e : BitVec 32 × BitVec 32} (he : e ∈ eventFlags) :
    modeEnable &&& e.2 = 0 := by
  obtain rfl | rfl := eq_of_mem_eventFlags he
  · decide
  · decide

/-- A call writes a one to a flag only to acknowledge its event. -/
theorem value_and_flag {e : BitVec 32 × BitVec 32} (he : e ∈ eventFlags)
    (hvalue : op.value mode &&& e.2 ≠ 0) : ∃ events, op = .ack events ∧ events &&& e.1 ≠ 0 := by
  have hcontrol : timerModeControl mode &&& e.2 = 0 := control_and_flag (flag_and_eventMask he)
  have hor : ∀ c c' : BitVec 32, c &&& e.2 = 0 → c' &&& e.2 = 0 → (c ||| c') &&& e.2 = 0 := by
    intro c c' hc hc'
    rw [BitVec.and_or_distrib_right, hc, hc']
    rfl
  cases op with
  | start => exact absurd (hor _ _ hcontrol (modeEnable_and_flag he)) hvalue
  | stop =>
    refine absurd ?_ hvalue
    show timerModeControl mode &&& ~~~modeEnable &&& e.2 = 0
    rw [BitVec.and_assoc, BitVec.and_comm _ e.2, ← BitVec.and_assoc, hcontrol]
    exact BitVec.zero_and
  | ack events =>
    refine ⟨events, rfl, fun hevent => hvalue ?_⟩
    show timerAck events mode &&& e.2 = 0
    rw [timerAck_eq]
    obtain rfl | rfl := eq_of_mem_eventFlags he
    · rw [if_neg (not_not.2 hevent)]
      refine hor _ _ (hor _ _ hcontrol (by decide)) ?_
      split_ifs <;> decide
    · rw [if_neg (not_not.2 hevent)]
      refine hor _ _ (hor _ _ hcontrol ?_) (by decide)
      split_ifs <;> decide

/-! ## Every run -/

/-- The control bits that are about to be written back are those of the timer. -/
def Inv (s : Machine) : Prop :=
  ∀ op timer mode, s.pc = .write op timer mode →
    timerModeControl mode = timerModeControl (s.mode timer)

/-- The control bits of `timer` once the call in progress has ended, if they are `c` now. -/
def Pc.control (timer : ℤ) (c : BitVec 32) : Pc → BitVec 32
  | idle => c
  | read op t => if t = timer then op.control c else c
  | write op t _ => if t = timer then op.control c else c

/-- The control bits of `timer` after what happens, if they are `c` before it. -/
def Choice.control (timer : ℤ) (c : BitVec 32) : Choice → BitVec 32
  | call op t => if timerValid t ∧ t = timer then op.control c else c
  | _ => c

theorem timerModeControl_raise (s : Machine) (timer t : ℤ) (events : BitVec 32) :
    timerModeControl (Function.update s.mode timer
      (raise modeEventMask (s.mode timer) events) t) = timerModeControl (s.mode t) := by
  by_cases ht : t = timer
  · rw [ht, Function.update_self]
    exact control_raise
  · rw [Function.update_of_ne ht]

/-- What a step can do. -/
theorem next_cases {s s' : Machine} {i : Choice} (h : next s i = some s') :
    (∃ op timer, i = .call op timer ∧ s.pc = .idle ∧
      s' = if !timerValid timer then { s with ret := -1 } else { s with pc := .read op timer }) ∨
    (∃ op timer, i = .cpu ∧ s.pc = .read op timer ∧
      s' = { s with pc := .write op timer (s.mode timer) }) ∨
    (∃ op timer mode, i = .cpu ∧ s.pc = .write op timer mode ∧
      s' = ⟨Function.update s.mode timer (write modeEventMask (s.mode timer) (op.value mode)),
        .idle, 0⟩) ∨
    ∃ timer events, i = .raise timer events ∧
      s' = { s with
        mode := Function.update s.mode timer (raise modeEventMask (s.mode timer) events) } := by
  obtain ⟨mode, pc, ret⟩ := s
  cases i with
  | call op timer =>
    cases pc with
    | idle => exact Or.inl ⟨op, timer, rfl, rfl, (Option.some.inj h).symm⟩
    | read _ _ => exact nomatch h
    | write _ _ _ => exact nomatch h
  | cpu =>
    cases pc with
    | idle => exact nomatch h
    | read op timer => exact Or.inr (Or.inl ⟨op, timer, rfl, rfl, (Option.some.inj h).symm⟩)
    | write op timer mode' =>
      exact Or.inr (Or.inr (Or.inl ⟨op, timer, mode', rfl, rfl, (Option.some.inj h).symm⟩))
  | raise timer events =>
    exact Or.inr (Or.inr (Or.inr ⟨timer, events, rfl, (Option.some.inj h).symm⟩))

theorem Inv.next {s s' : Machine} {i : Choice} (h : Inv s) (hi : next s i = some s') : Inv s' := by
  obtain ⟨op, timer, -, hpc, rfl⟩ | ⟨op, timer, -, -, rfl⟩ | ⟨op, timer, mode, -, -, rfl⟩ |
    ⟨timer, events, -, rfl⟩ := next_cases hi
  · intro op' t mode' hwrite
    split_ifs at hwrite
    exact nomatch hpc.symm.trans hwrite
  · intro op' t mode' hwrite
    obtain ⟨rfl, rfl, rfl⟩ := Pc.write.inj hwrite
    rfl
  · exact fun _ _ _ hwrite => nomatch hwrite
  · intro op' t mode' hwrite
    rw [timerModeControl_raise]
    exact h op' t mode' hwrite

theorem control_next {s s' : Machine} {i : Choice} (h : Inv s) (hi : next s i = some s')
    (timer : ℤ) : s'.pc.control timer (timerModeControl (s'.mode timer)) =
      i.control timer (s.pc.control timer (timerModeControl (s.mode timer))) := by
  obtain ⟨op, t, rfl, hpc, rfl⟩ | ⟨op, t, rfl, hpc, rfl⟩ | ⟨op, t, mode, rfl, hpc, rfl⟩ |
    ⟨t, events, rfl, rfl⟩ := next_cases hi
  · cases hvalid : timerValid t with
    | false => simp [Choice.control, hpc, hvalid]
    | true => simp [Choice.control, Pc.control, hpc, hvalid]
  · simp [Choice.control, Pc.control, hpc]
  · rw [hpc]
    show timerModeControl (Function.update s.mode t _ timer) = if t = timer then _ else _
    by_cases ht : t = timer
    · subst ht
      rw [if_pos rfl, Function.update_self, ← h op t mode hpc, ← timerModeControl_value]
      exact control_write
    · rw [if_neg ht, Function.update_of_ne (Ne.symm ht)]
  · show s.pc.control timer _ = s.pc.control timer _
    rw [timerModeControl_raise]

/-- A pending event ends only where a call writes to acknowledge it. -/
theorem flag_next {s s' : Machine} {i : Choice} (hi : next s i = some s') {timer : ℤ}
    {e : BitVec 32 × BitVec 32} (he : e ∈ eventFlags) (hpending : s.mode timer &&& e.2 ≠ 0)
    (hcleared : s'.mode timer &&& e.2 = 0) :
    i = .cpu ∧ ∃ events mode, s.pc = .write (.ack events) timer mode ∧ events &&& e.1 ≠ 0 := by
  obtain ⟨op, t, rfl, hpc, rfl⟩ | ⟨op, t, rfl, hpc, rfl⟩ | ⟨op, t, mode, rfl, hpc, rfl⟩ |
    ⟨t, events, rfl, rfl⟩ := next_cases hi
  · refine absurd ?_ hpending
    split_ifs at hcleared
    · exact hcleared
    · exact hcleared
  · exact absurd hcleared hpending
  · by_cases ht : timer = t
    · subst ht
      simp only [Function.update_self] at hcleared
      have hvalue : op.value mode &&& e.2 ≠ 0 := by
        intro hzero
        rw [write_and_of_and_eq_zero (flag_and_eventMask he) hzero] at hcleared
        exact hpending hcleared
      obtain ⟨events, rfl, hevent⟩ := value_and_flag he hvalue
      exact ⟨rfl, events, mode, hpc, hevent⟩
    · simp only [Function.update_of_ne ht] at hcleared
      exact absurd hcleared hpending
  · refine absurd hcleared ?_
    by_cases ht : timer = t
    · subst ht
      simp only [Function.update_self]
      exact raise_and_ne_zero hpending
    · simpa only [Function.update_of_ne ht] using hpending

theorem inv_idle (mode : ℤ → BitVec 32) (ret : ℤ) : Inv ⟨mode, .idle, ret⟩ :=
  fun _ _ _ hwrite => nomatch hwrite

/-- In every run, from registers of any contents. A pending event ends only where `ef2_timer_ack`
that names it writes the register. The control bits are those at the start as the calls made since
change them, the one in progress included. -/
theorem calls_keep_flags (mode : ℤ → BitVec 32) (ret : ℤ) (is : List Choice) (s : Machine)
    (hrun : run next ⟨mode, .idle, ret⟩ is = some s) :
    (∀ i s', next s i = some s' → ∀ timer, ∀ e ∈ eventFlags, s.mode timer &&& e.2 ≠ 0 →
      s'.mode timer &&& e.2 = 0 → i = .cpu ∧
        ∃ events mode, s.pc = .write (.ack events) timer mode ∧ events &&& e.1 ≠ 0) ∧
    ∀ timer, s.pc.control timer (timerModeControl (s.mode timer)) =
      is.foldl (Choice.control timer) (timerModeControl (mode timer)) := by
  refine ⟨fun i s' hi timer e he => flag_next hi he, fun timer => ?_⟩
  exact run_foldl (fun s i s' => Inv.next) (fun s i s' h hi => control_next h hi timer)
    (inv_idle mode ret) hrun

/-- Timer 0 is stopped with a pending overflow, and started and acknowledged while events come. -/
def racing : List Choice :=
  [.call .stop 0, .cpu, .raise 0 0x400, .cpu, .call (.ack 1) 0, .cpu, .raise 0 0x400, .cpu,
    .call .start 0, .cpu, .raise 0 0x400, .cpu]

theorem calls_keep_flags_racing : ∃ s, run next ⟨fun _ => 0x9C3, .idle, 0⟩ racing = some s ∧
    s.mode 0 = 0xDC3 ∧ timerModeControl (s.mode 0) =
      racing.foldl (Choice.control 0) (timerModeControl 0x9C3) := by
  refine ⟨_, rfl, by decide, ?_⟩
  exact (calls_keep_flags (fun _ => 0x9C3) 0 racing _ rfl).2 0

end EF2SDK.Timer
