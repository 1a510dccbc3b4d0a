import EF2SDK.Crash
import Mathlib.Data.Nat.Count
import Mathlib.Order.Bounds.Basic

/-!
# The recent log on the crash screen

`recent_log_start` of `src/ee/runtime/crash.c` looks for the last lines of a text : it goes back
from the end until it has met `lines` newlines, and returns what follows the last one it met. The
scan ends on a newline or at the start (`scanBack_spec`), and may do both, with the first byte the
last newline that was due. The start is then returned as it is, with that newline in the text.

`recentLogStart_isLeast_iff` : it returns the longest suffix of fewer than `lines` newlines that
begins a line, but for this case.
-/

set_option autoImplicit false

namespace EF2SDK.CrashLog

/-- `'\n'`. -/
abbrev newline : UInt8 := 0x0A

/-! ## The scan -/

/-- The loop of `recent_log_start`, from `cursor` back. -/
def scanBack (buffer : ℕ → UInt8) : (cursor lines : ℕ) → ℕ
  | 0, _ => 0
  | cursor + 1, lines =>
    if lines = 0 then cursor + 1
    else scanBack buffer cursor (if buffer cursor = newline then lines - 1 else lines)

/-- `recent_log_start`, as an index of the buffer. -/
def recentLogStart (buffer : ℕ → UInt8) (length lines : ℕ) : ℕ :=
  let cursor := scanBack buffer length lines
  if cursor ≠ 0 ∧ buffer cursor = newline then cursor + 1 else cursor

variable {buffer : ℕ → UInt8} {length lines i : ℕ}

/-- The newlines of `buffer[start..length)`. -/
def newlines (buffer : ℕ → UInt8) (start length : ℕ) : ℕ :=
  Nat.count (fun k => buffer (start + k) = newline) (length - start)

/-- A suffix of fewer than `lines` newlines, from the start of the text or right after a newline. -/
structure StartsLines (buffer : ℕ → UInt8) (length lines i : ℕ) : Prop where
  le : i ≤ length
  few : newlines buffer i length < lines
  line : i = 0 ∨ buffer (i - 1) = newline

/-! ## Newlines -/

theorem newlines_add (buffer : ℕ → UInt8) (h : i ≤ length) :
    newlines buffer 0 i + newlines buffer i length = newlines buffer 0 length := by
  have hcount := Nat.count_add (fun k => buffer k = newline) i (length - i)
  rw [Nat.add_sub_cancel' h] at hcount
  simpa only [newlines, Nat.zero_add, Nat.sub_zero] using hcount.symm

theorem newlines_succ (buffer : ℕ → UInt8) (i : ℕ) :
    newlines buffer 0 (i + 1) = newlines buffer 0 i + if buffer i = newline then 1 else 0 := by
  simpa only [newlines, Nat.zero_add, Nat.sub_zero] using
    Nat.count_succ (fun k => buffer k = newline) i

theorem newlines_mono (buffer : ℕ → UInt8) : Monotone (newlines buffer 0) := by
  intro i j h
  rw [← newlines_add buffer h]
  exact Nat.le_add_right _ _

/-- The scan stops on the newline that was due, or at the start with newlines still due. -/
theorem scanBack_spec (buffer : ℕ → UInt8) (cursor : ℕ) (hlines : 0 < lines) :
    (scanBack buffer cursor lines < cursor ∧ buffer (scanBack buffer cursor lines) = newline ∧
      newlines buffer 0 cursor = newlines buffer 0 (scanBack buffer cursor lines) + lines) ∨
    scanBack buffer cursor lines = 0 ∧ newlines buffer 0 cursor < lines := by
  induction cursor generalizing lines with
  | zero => exact Or.inr ⟨rfl, hlines⟩
  | succ cursor ih =>
    rw [scanBack, if_neg hlines.ne', newlines_succ]
    by_cases hnewline : buffer cursor = newline
    · rw [if_pos hnewline, if_pos hnewline]
      rcases Nat.eq_zero_or_pos (lines - 1) with hlast | hmore
      · have hstop : scanBack buffer cursor (lines - 1) = cursor := by
          rw [hlast]
          cases cursor <;> rfl
        rw [hstop]
        exact Or.inl ⟨Nat.lt_succ_self cursor, hnewline, by omega⟩
      · rcases ih hmore with ⟨hlt, hstop, hcount⟩ | ⟨hstart, hcount⟩
        · exact Or.inl ⟨Nat.lt_succ_of_lt hlt, hstop, by omega⟩
        · exact Or.inr ⟨hstart, by omega⟩
    · rw [if_neg hnewline, if_neg hnewline]
      rcases ih hlines with ⟨hlt, hstop, hcount⟩ | ⟨hstart, hcount⟩
      · exact Or.inl ⟨Nat.lt_succ_of_lt hlt, hstop, hcount⟩
      · exact Or.inr ⟨hstart, hcount⟩

/-! ## The start of the recent log -/

/-- The text has `lines` newlines from the one at `i` on, so that no line before it will do. -/
theorem isLeast_succ (hlt : i < length) (hnewline : buffer i = newline)
    (hcount : newlines buffer 0 length = newlines buffer 0 i + lines) :
    IsLeast {j | StartsLines buffer length lines j} (i + 1) := by
  have hnext := newlines_succ buffer i
  rw [if_pos hnewline] at hnext
  have hrest := newlines_add buffer (show i + 1 ≤ length from hlt)
  refine ⟨⟨hlt, by omega, Or.inr hnewline⟩, fun j hj => ?_⟩
  by_contra hle
  have hbefore := newlines_mono buffer (show j ≤ i by omega)
  have hfrom := newlines_add buffer hj.le
  have hfew := hj.few
  omega

theorem recentLogStart_isLeast_iff (buffer : ℕ → UInt8) (length : ℕ) {lines : ℕ}
    (hlines : 0 < lines) :
    IsLeast {i | StartsLines buffer length lines i} (recentLogStart buffer length lines) ↔
      ¬(0 < length ∧ buffer 0 = newline ∧ newlines buffer 0 length = lines) := by
  have hspec := scanBack_spec buffer length hlines
  unfold recentLogStart
  generalize scanBack buffer length lines = cursor at hspec ⊢
  have hzero : newlines buffer 0 0 = 0 := rfl
  have hfirst := newlines_succ buffer 0
  dsimp only
  rcases hspec with ⟨hlt, hnewline, hcount⟩ | ⟨rfl, hcount⟩
  · by_cases hstart : cursor = 0
    · -- the newline that was due is the first byte
      subst hstart
      rw [if_neg fun h => h.1 rfl]
      refine iff_of_false (fun h => ?_) fun h => h ⟨hlt, hnewline, by omega⟩
      have hfew := h.1.few
      omega
    · rw [if_pos ⟨hstart, hnewline⟩]
      refine iff_of_true (isLeast_succ hlt hnewline hcount) ?_
      rintro ⟨-, hbyte, hall⟩
      rw [if_pos hbyte] at hfirst
      have hbefore := newlines_mono buffer (show 0 + 1 ≤ cursor by omega)
      omega
  · rw [if_neg fun h => h.1 rfl]
    refine iff_of_true ⟨⟨Nat.zero_le _, hcount, Or.inl rfl⟩, fun j _ => Nat.zero_le j⟩ ?_
    exact fun h => absurd h.2.2 hcount.ne

/-- Two lines out of three. -/
theorem recentLogStart_isLeast_two :
    IsLeast {i | StartsLines (fun i => if i % 4 = 3 then newline else 0x41) 11 2 i} 4 :=
  (recentLogStart_isLeast_iff (fun i => if i % 4 = 3 then newline else 0x41) 11
    (show 0 < 2 by decide)).2 (by decide)

/-- A log of nineteen empty lines, and the line of a crash with nothing in the registers. -/
def emptyLines : List UInt8 :=
  List.replicate 19 newline ++ Crash.crashLogFrame ⟨fun _ => 0, 0, 0, 0, 0, 0⟩

/-- All its twenty newlines are returned. -/
theorem recentLogStart_keeps_newline :
    emptyLines.length = 137 ∧ recentLogStart (emptyLines.getD · 0) 137 20 = 0 ∧
      newlines (emptyLines.getD · 0) 0 137 = 20 ∧
      ¬IsLeast {i | StartsLines (emptyLines.getD · 0) 137 20 i}
        (recentLogStart (emptyLines.getD · 0) 137 20) := by
  have hstart : recentLogStart (emptyLines.getD · 0) 137 20 = 0 := by decide +kernel
  have hall : newlines (emptyLines.getD · 0) 0 137 = 20 := by decide +kernel
  refine ⟨by decide +kernel, hstart, hall, fun h => ?_⟩
  have hfew := h.1.few
  rw [hstart, hall] at hfew
  exact absurd hfew (Nat.lt_irrefl 20)

end EF2SDK.CrashLog
