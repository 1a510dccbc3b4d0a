import EF2SDK.HeapLoan
import EF2SDK.HeapResize

/-!
# Allocating zeroed blocks

`checked_multiply_u32` adds up the left factor, doubled in every round, for the bits of the right
one, and gives up where the sum or the doubled factor leaves 32 bits. A doubled factor is only
made where a bit of the right one is left to use it, so the loop gives up exactly where the
product leaves 32 bits (`multiplyLoop_eq`).

`calloc_exact` : `ef2_calloc` returns null and changes nothing, or a block with room for the exact
product, whose bytes are zero.
-/

set_option autoImplicit false

namespace EF2SDK.Heap

open ByteMemory Chunks

variable {start stop count size bits left right result : ℕ} {s : State} {cs : List Chunk}

/-! ## The product -/

/-- The left factor is added where the low bit of the right one is set. -/
theorem add_low_bit (left right result : ℕ) :
    (if right % 2 ≠ 0 then result + left else result) = result + left * (right % 2) := by
  rcases Nat.mod_two_eq_zero_or_one right with hbit | hbit
  · rw [if_neg (by omega), hbit, Nat.mul_zero, Nat.add_zero]
  · rw [if_pos (by omega), hbit, Nat.mul_one]

/-- The guard is about the sum that would leave 32 bits. -/
theorem add_guard_iff (right : ℕ) (hleft : left < 2 ^ 32) (hresult : result < 2 ^ 32) :
    (right % 2 ≠ 0 ∧ result > 0xFFFFFFFF - left) ↔ 2 ^ 32 ≤ result + left * (right % 2) := by
  rcases Nat.mod_two_eq_zero_or_one right with hbit | hbit
  · rw [hbit, Nat.mul_zero]
    omega
  · rw [hbit, Nat.mul_one]
    omega

theorem mul_split (left right : ℕ) :
    left * right = 2 * left * (right / 2) + left * (right % 2) := by
  calc left * right = left * (2 * (right / 2) + right % 2) := by rw [Nat.div_add_mod]
    _ = 2 * left * (right / 2) + left * (right % 2) := by
      rw [Nat.mul_add, ← Nat.mul_assoc, Nat.mul_comm left 2]

/-- The product so far is `result`, and `left * right` is to go. -/
theorem multiplyLoop_eq (hleft : left < 2 ^ 32) (hright : right < 2 ^ bits)
    (hresult : result < 2 ^ 32) : multiplyLoop bits left right result =
      if result + left * right < 2 ^ 32 then some (result + left * right) else none := by
  induction bits generalizing left right result with
  | zero =>
    obtain rfl : right = 0 := by omega
    rw [multiplyLoop, Nat.mul_zero, Nat.add_zero, if_pos hresult]
  | succ bits ih =>
    have hsplit := mul_split left right
    have hguard := add_guard_iff right hleft hresult
    have hsum := add_low_bit left right result
    obtain ⟨half, hhalf⟩ : ∃ half, half = right / 2 := ⟨_, rfl⟩
    obtain ⟨added, hadded⟩ : ∃ added, added = left * (right % 2) := ⟨_, rfl⟩
    rw [← hadded] at hguard hsum
    rw [← hhalf, ← hadded] at hsplit
    unfold multiplyLoop
    by_cases h0 : right = 0
    · rw [if_pos h0, h0, Nat.mul_zero, Nat.add_zero, if_pos hresult]
    · rw [if_neg h0, hsum, ← hhalf]
      by_cases hover : 2 ^ 32 ≤ result + added
      · rw [if_pos (hguard.2 hover), if_neg (by omega)]
      · rw [if_neg (mt hguard.1 hover)]
        dsimp only
        by_cases hlast : half = 0
        · rw [hlast, Nat.mul_zero, Nat.zero_add] at hsplit
          rw [if_neg (not_not.2 hlast), hsplit, if_pos (by omega)]
        · have hdouble : 2 * left ≤ 2 * left * half := Nat.le_mul_of_pos_right _ (by omega)
          rw [if_pos hlast]
          by_cases htop : left > 0x7FFFFFFF
          · rw [if_pos htop, if_neg (by omega)]
          · rw [if_neg htop, ih (by omega) (by omega) (by omega), hsplit,
              Nat.add_comm (2 * left * half), ← Nat.add_assoc]

theorem checkedMultiply_eq (hcount : count < 2 ^ 32) (hsize : size < 2 ^ 32) :
    checkedMultiply count size =
      if count * size < 2 ^ 32 then some (count * size) else none := by
  rw [checkedMultiply, multiplyLoop_eq hcount hsize (by decide), Nat.zero_add]

/-! ## The block -/

/-- A block of at least `total` bytes with the payload `p`, which begins with `total` zeros. -/
structure Zeroed (total p : ℕ) (s : State) : Prop where
  nonnull : p ≠ 0
  usable : total ≤ heapUsableSize s p
  zeros : ∀ i < total, s.mem (p + i) = 0

/-- A filled allocation, in a heap that is tiled. -/
theorem Tiled.calloc (h : Tiled start stop s cs) (hcount : count < 2 ^ 32) (hsize : size < 2 ^ 32) :
    calloc s count size = some (0, s) ∨
      ∃ p s', calloc s count size = some (p, s') ∧ Zeroed (count * size) p s' := by
  unfold Heap.calloc
  rw [checkedMultiply_eq hcount hsize]
  split_ifs with h0 hfits
  · exact Or.inl rfl
  · obtain hnull | ⟨p, s₁, -, hp, hmalloc, -⟩ := malloc_outcome h (count * size)
    · left
      dsimp only
      rw [hnull]
      rfl
    · obtain ⟨cs₁, b, k, rfl, hroom, hb, hout⟩ := malloc_block h hp hmalloc
      have hfilled : Tiled start stop
          { s₁ with mem := fillBytes s₁.mem (b + 16) 0 (count * size) } cs₁ :=
        hout.tiled.write hb fun x hx =>
          fillBytes_of_disjoint s₁.mem 0 (by simp only at hx; omega)
      right
      refine ⟨b + 16, _, ?_, hp, hroom.trans (hfilled.usable hb).ge, fun i hi => ?_⟩
      · dsimp only
        rw [hmalloc, Option.map_some, if_neg hp]
      · exact fillBytes_of_lt s₁.mem (b + 16) 0 hi
  · exact Or.inl rfl

/-- `ef2_calloc` in every state of the heap : null, and nothing is changed, or a block with room
for the exact product that begins with as many zeros; null where the product is zero or leaves
32 bits, which is where `checked_multiply_u32` gives up. -/
theorem calloc_exact (h : Reachable s) (count size : UInt32) :
    (calloc s count.toNat size.toNat = some (0, s) ∨
      ∃ p s', calloc s count.toNat size.toNat = some (p, s') ∧
        Zeroed (count.toNat * size.toNat) p s') ∧
    (count.toNat * size.toNat = 0 ∨ 2 ^ 32 ≤ count.toNat * size.toNat →
      calloc s count.toNat size.toNat = some (0, s)) ∧
    checkedMultiply count.toNat size.toNat =
      if count.toNat * size.toNat < 2 ^ 32 then some (count.toNat * size.toNat) else none := by
  have hmul := checkedMultiply_eq count.toNat_lt size.toNat_lt
  refine ⟨?_, fun hnull => ?_, hmul⟩
  · obtain hready | ⟨memory, total, s₀, s₁, is, t, hinit, hrun, rfl⟩ := h
    · left
      have hmalloc : ∀ n, malloc s n = some (0, s) := fun n => if_pos (Or.inl hready)
      rw [calloc, hmul]
      split_ifs
      · rfl
      · dsimp only
        rw [hmalloc]
        rfl
      · rfl
    · obtain hnull | ⟨start, stop, -, -, cs, htiled, -⟩ := run_inv hinit hrun
      · exact Or.inl (calloc_of_first_null hnull.1 _ _)
      · exact htiled.calloc count.toNat_lt size.toNat_lt
  · rw [calloc, hmul]
    split_ifs with h0
    · rfl
    · rcases hnull with hzero | hover
      · exact absurd (Nat.mul_eq_zero.1 hzero) h0
      · omega
    · rfl

/-- Six elements of 16 bytes, in a heap with one block. -/
theorem calloc_exact_blockRun : ∃ t p s',
    Schedule.run next ⟨(heapInit boot 0x100000 8192).2, []⟩ blockRun = some t ∧
      calloc t.heap 6 16 = some (p, s') ∧ Zeroed 96 p s' := by
  have hinit : heapInit boot (0x100000 : UInt32).toNat (8192 : UInt32).toNat =
      (0, (heapInit boot 0x100000 8192).2) := Prod.ext (by decide +kernel) rfl
  have hrun : (Schedule.run next ⟨(heapInit boot 0x100000 8192).2, []⟩ blockRun).map (fun t =>
      (calloc t.heap 6 16).map Prod.fst) = some (some 0x100080) := by decide +kernel
  obtain ⟨t, ht, hvalue⟩ := Option.map_eq_some_iff.1 hrun
  have hreach : Reachable t.heap := Or.inr ⟨_, _, _, _, _, t, hinit, ht, rfl⟩
  obtain hnull | ⟨p, s', hres, hzeroed⟩ := (calloc_exact hreach 6 16).1
  · rw [show (6 : UInt32).toNat = 6 from rfl, show (16 : UInt32).toNat = 16 from rfl] at hnull
    rw [hnull] at hvalue
    have hzero : 0 = 0x100080 := Option.some.inj hvalue
    exact absurd hzero (by decide)
  · exact ⟨t, p, s', ht, hres, hzeroed⟩

end EF2SDK.Heap
