import Mathlib.Data.Nat.Notation

/-!
# Registers with flags that a write clears

Some bits of a register are event flags : the hardware raises them (`raise`), and a write clears
those that it has a one at (`write`). The other bits, the control bits, are written as they are.

A write leaves a flag that it has a zero at (`write_and_of_and_eq_zero`), so a register is written
back without losing an event when the flags are masked out of what was read, whatever was
raised since.
-/

set_option autoImplicit false

namespace FlagRegister

variable {w : ℕ} {flags flag old new events : BitVec w}

/-- The register after a write. -/
def write (flags old new : BitVec w) : BitVec w :=
  (new &&& ~~~flags) ||| (old &&& flags &&& ~~~new)

/-- The register after events. -/
def raise (flags old events : BitVec w) : BitVec w :=
  old ||| (events &&& flags)

/-- The bits that are no flags. -/
def control (flags mode : BitVec w) : BitVec w :=
  mode &&& ~~~flags

theorem control_write : control flags (write flags old new) = control flags new := by
  ext i hi
  simp only [control, write, BitVec.getElem_and, BitVec.getElem_or, BitVec.getElem_not]
  cases flags[i] <;> cases new[i] <;> simp

theorem control_raise : control flags (raise flags old events) = control flags old := by
  ext i hi
  simp only [control, raise, BitVec.getElem_and, BitVec.getElem_or, BitVec.getElem_not]
  cases flags[i] <;> simp

theorem control_control : control flags (control flags old) = control flags old := by
  rw [control, control, BitVec.and_assoc, BitVec.and_self]

theorem control_or : control flags (old ||| new) = control flags old ||| control flags new :=
  BitVec.and_or_distrib_right

theorem control_and : control flags (old &&& new) = control flags old &&& new := by
  rw [control, control, BitVec.and_assoc, BitVec.and_comm new, ← BitVec.and_assoc]

theorem control_and_flag (hflag : flag &&& flags = flag) : control flags old &&& flag = 0 := by
  rw [control, ← hflag, BitVec.and_comm flag, BitVec.and_assoc, ← BitVec.and_assoc _ flags,
    BitVec.not_and_self]
  simp

theorem write_and_of_and_eq_zero (hflag : flag &&& flags = flag) (hnew : new &&& flag = 0) :
    write flags old new &&& flag = old &&& flag := by
  ext i hi
  have hflag := congrArg (·[i]) hflag
  have hnew := congrArg (·[i]) hnew
  simp only [write, BitVec.getElem_and, BitVec.getElem_or, BitVec.getElem_not] at hflag hnew ⊢
  revert hflag hnew
  cases flags[i] <;> cases new[i] <;> cases flag[i] <;> simp

/-- Events only raise flags. -/
theorem raise_and_ne_zero (h : old &&& flag ≠ 0) : raise flags old events &&& flag ≠ 0 := by
  intro hzero
  refine h (BitVec.eq_of_getElem_eq fun i hi => ?_)
  have hbit := congrArg (·[i]) hzero
  simp only [raise, BitVec.getElem_and, BitVec.getElem_or] at hbit ⊢
  revert hbit
  cases old[i] <;> simp

end FlagRegister
