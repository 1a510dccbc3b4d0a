import Mathlib.Data.Int.Notation
import Mathlib.Data.List.Pairwise

/-!
# Ranges handed out by a cursor

Ranges are packed between two bounds when they lie between them and are pairwise disjoint. A
cursor that only moves up, and hands out what it moves over, keeps all ranges packed below
it (`Packed.append`).
-/

set_option autoImplicit false

namespace EF2SDK

/-- `size` bytes from `start` on. -/
structure Range where
  start : ℕ
  size : ℕ

namespace Range

/-- The address after the range. -/
def stop (r : Range) : ℕ :=
  r.start + r.size

/-- One range ends before the other begins. -/
def Disjoint (r s : Range) : Prop :=
  r.stop ≤ s.start ∨ s.stop ≤ r.start

end Range

/-- The ranges lie between `lo` and `hi` and are pairwise disjoint. -/
structure Packed (lo hi : ℕ) (rs : List Range) : Prop where
  le : lo ≤ hi
  within : ∀ r ∈ rs, lo ≤ r.start ∧ r.stop ≤ hi
  disjoint : rs.Pairwise Range.Disjoint

variable {lo mid hi : ℕ} {rs ss : List Range}

theorem packed_nil (h : lo ≤ hi) : Packed lo hi [] :=
  ⟨h, by simp, List.Pairwise.nil⟩

theorem packed_singleton {r : Range} (hlo : lo ≤ r.start) (hhi : r.stop ≤ hi) :
    Packed lo hi [r] :=
  ⟨by unfold Range.stop at hhi; omega, by simp [hlo, hhi], List.pairwise_singleton _ _⟩

/-- What lies below the cursor and what lies above it are packed together. -/
theorem Packed.append (h₁ : Packed lo mid rs) (h₂ : Packed mid hi ss) :
    Packed lo hi (rs ++ ss) := by
  refine ⟨Nat.le_trans h₁.le h₂.le, ?_,
    List.pairwise_append.mpr ⟨h₁.disjoint, h₂.disjoint, ?_⟩⟩
  · intro r hr
    rcases List.mem_append.mp hr with hr | hr
    · exact ⟨(h₁.within r hr).1, Nat.le_trans (h₁.within r hr).2 h₂.le⟩
    · exact ⟨Nat.le_trans h₁.le (h₂.within r hr).1, (h₂.within r hr).2⟩
  · intro r hr s hs
    exact Or.inl (Nat.le_trans (h₁.within r hr).2 (h₂.within s hs).1)

end EF2SDK
