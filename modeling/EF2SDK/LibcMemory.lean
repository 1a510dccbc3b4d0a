import EF2SDK.ByteMemory
import EF2SDK.Words

/-!
# Moving memory

`ef2_memmove` of `src/ee/runtime/libc_memory.c` copies upwards to a lower address and downwards
to a higher one, so that no byte of the source is overwritten before it is read. Addresses are
words, and within ranges that do not wrap the loops are those of `ByteMemory`
(`moveUp_eq`, `moveDown_eq`).
-/

set_option autoImplicit false

namespace EF2SDK.LibcMemory

open ByteMemory

variable {m : Mem} {destination source size : UInt32} {n : ℕ}

/-- The first `n` rounds of the loop upwards. -/
def moveUp (m : Mem) (destination source : UInt32) : (n : ℕ) → Mem
  | 0 => m
  | i + 1 =>
    Function.update (moveUp m destination source i) (destination + .ofNat i).toNat
      (moveUp m destination source i (source + .ofNat i).toNat)

/-- The loop downwards, with `n` rounds to go. -/
def moveDown (m : Mem) (destination source : UInt32) : (n : ℕ) → Mem
  | 0 => m
  | i + 1 =>
    moveDown (Function.update m (destination + .ofNat i).toNat (m (source + .ofNat i).toNat))
      destination source i

/-- `ef2_memmove`. -/
def memmove (m : Mem) (destination source size : UInt32) : UInt32 × Mem :=
  if destination = source ∨ size = 0 then (destination, m)
  else if destination < source then (destination, moveUp m destination source size.toNat)
  else (destination, moveDown m destination source size.toNat)

theorem moveUp_eq (hd : destination.toNat + n ≤ 2 ^ 32) (hs : source.toNat + n ≤ 2 ^ 32) :
    moveUp m destination source n = copyBytes m destination.toNat source.toNat n := by
  induction n with
  | zero => rfl
  | succ i ih =>
    rw [moveUp, copyBytes, ih (by omega) (by omega), toNat_add_ofNat (by omega),
      toNat_add_ofNat (by omega)]

theorem moveDown_eq (hd : destination.toNat + n ≤ 2 ^ 32) (hs : source.toNat + n ≤ 2 ^ 32) :
    moveDown m destination source n = copyBytesDown m destination.toNat source.toNat n := by
  induction n generalizing m with
  | zero => rfl
  | succ i ih =>
    rw [moveDown, copyBytesDown, ih (by omega) (by omega), toNat_add_ofNat (by omega),
      toNat_add_ofNat (by omega)]

/-- The destination holds what the source held, and the rest of the memory is unchanged. -/
theorem memmove_moves (m : Mem) (destination source size : UInt32)
    (hd : destination.toNat + size.toNat ≤ 2 ^ 32) (hs : source.toNat + size.toNat ≤ 2 ^ 32) :
    (memmove m destination source size).1 = destination ∧
    (∀ i < size.toNat,
      (memmove m destination source size).2 (destination.toNat + i) = m (source.toNat + i)) ∧
    ∀ x, x < destination.toNat ∨ destination.toNat + size.toNat ≤ x →
      (memmove m destination source size).2 x = m x := by
  unfold memmove
  split_ifs with hnothing hlt
  · refine ⟨rfl, fun i hi => ?_, fun _ _ => rfl⟩
    obtain rfl | rfl := hnothing
    · rfl
    · exact absurd hi (Nat.not_lt_zero i)
  · have hle : destination.toNat ≤ source.toNat := Nat.le_of_lt (UInt32.lt_iff_toNat_lt.1 hlt)
    rw [moveUp_eq hd hs]
    exact ⟨rfl, fun i hi => copyBytes_of_le m hi hle, fun x hx => copyBytes_of_disjoint m _ hx⟩
  · have hle : source.toNat ≤ destination.toNat :=
      Nat.not_lt.1 (mt UInt32.lt_iff_toNat_lt.2 hlt)
    rw [moveDown_eq hd hs]
    exact ⟨rfl, fun i hi => copyBytesDown_of_le m hi hle,
      fun x hx => copyBytesDown_of_disjoint m _ hx⟩

/-- Ranges that overlap, up to the end of the address space. -/
theorem memmove_moves_overlap :
    (memmove (fun x => .ofNat (x + 9)) 0xFFFFFFFD 0xFFFFFFFB 3).2 0xFFFFFFFF = 6 ∧
    (memmove (fun x => .ofNat (x + 9)) 0xFFFFFFFD 0xFFFFFFFB 3).2 0xFFFFFFFC = 5 :=
  have hmoves := memmove_moves (fun x => .ofNat (x + 9)) 0xFFFFFFFD 0xFFFFFFFB 3 (by decide)
    (by decide)
  ⟨hmoves.2.1 2 (by decide), hmoves.2.2 0xFFFFFFFC (by decide)⟩

end EF2SDK.LibcMemory
