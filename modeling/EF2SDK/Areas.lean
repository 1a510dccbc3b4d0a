import Mathlib.Algebra.Group.Int.Defs
import Mathlib.Data.Set.Basic

/-!
# Areas

Rectangles of points with whole coordinates, with their left and their upper edge and without
the other two. The intersection of two areas has the points of both (`Area.points_inter`).
-/

set_option autoImplicit false

namespace EF2SDK

structure Area where
  left : ℤ
  top : ℤ
  right : ℤ
  bottom : ℤ
  deriving DecidableEq

namespace Area

def points (a : Area) : Set (ℤ × ℤ) :=
  {p | (a.left ≤ p.1 ∧ p.1 < a.right) ∧ a.top ≤ p.2 ∧ p.2 < a.bottom}

def inter (a b : Area) : Area where
  left := max a.left b.left
  top := max a.top b.top
  right := min a.right b.right
  bottom := min a.bottom b.bottom

theorem points_inter (a b : Area) : (a.inter b).points = a.points ∩ b.points := by
  ext p
  simp only [points, inter, Set.mem_ofPred_eq, Set.mem_inter_iff]
  omega

theorem points_nonempty_iff {a : Area} :
    a.points.Nonempty ↔ a.left < a.right ∧ a.top < a.bottom := by
  constructor
  · rintro ⟨p, ⟨hleft, hright⟩, htop, hbottom⟩
    exact ⟨by omega, by omega⟩
  · rintro ⟨hcolumns, hrows⟩
    exact ⟨(a.left, a.top), ⟨Int.le_refl _, hcolumns⟩, Int.le_refl _, hrows⟩

end Area

end EF2SDK
