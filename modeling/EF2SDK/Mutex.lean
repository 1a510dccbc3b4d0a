import Mathlib.Logic.Function.Basic
import Mathlib.Data.Nat.Notation

/-!
# A binary semaphore

Parties take steps, and `f i` is where the party `i` stands. A semaphore of one permit guards the
places `P` of their programs (`Guards`) : it has its permit and nobody is at one, or it has none
and exactly one party is. A wait in front of them and a signal behind them keep it so
(`Guards.acquire`, `Guards.release`), as does every step that stays inside or outside
(`Guards.stay`), and no two parties are ever inside (`Guards.unique`). While it has no permit,
somebody is (`Guards.exists_inside`).
-/

set_option autoImplicit false

namespace Mutex

variable {ι τ : Type*} {count : ℕ} {P : τ → Prop} {f : ι → τ}

/-- The permit is there and nobody is inside, or it is gone and one party is inside. -/
def Guards (count : ℕ) (P : τ → Prop) (f : ι → τ) : Prop :=
  (count = 1 ∧ ∀ i, ¬P (f i)) ∨ (count = 0 ∧ ∃ i, ∀ j, P (f j) ↔ j = i)

theorem Guards.unique (h : Guards count P f) {i j : ι} (hi : P (f i)) (hj : P (f j)) : i = j := by
  obtain ⟨-, hnone⟩ | ⟨-, k, hk⟩ := h
  · exact absurd hi (hnone i)
  · exact ((hk i).1 hi).trans ((hk j).1 hj).symm

/-- Beside a party inside the others are outside. -/
theorem Guards.outside (h : Guards count P f) {i j : ι} (hi : P (f i)) (hj : j ≠ i) : ¬P (f j) :=
  fun hin => hj (h.unique hin hi)

theorem Guards.exists_inside (h : Guards count P f) (htaken : ¬0 < count) : ∃ i, P (f i) := by
  obtain ⟨rfl, -⟩ | ⟨-, i, hi⟩ := h
  · exact absurd Nat.zero_lt_one htaken
  · exact ⟨i, (hi i).2 rfl⟩

/-- With nobody inside, the permit is there. -/
theorem Guards.free (h : Guards count P f) (hout : ∀ i, ¬P (f i)) : 0 < count := by
  by_contra htaken
  obtain ⟨i, hi⟩ := h.exists_inside htaken
  exact hout i hi

variable [DecidableEq ι]

theorem Guards.stay (h : Guards count P f) {i : ι} {a : τ} (ha : P a ↔ P (f i)) :
    Guards count P (Function.update f i a) := by
  have hsame : ∀ j, P (Function.update f i a j) ↔ P (f j) := by
    intro j
    by_cases hj : j = i
    · rw [hj, Function.update_self]
      exact ha
    · rw [Function.update_of_ne hj]
  obtain ⟨hcount, hnone⟩ | ⟨hcount, k, hk⟩ := h
  · exact Or.inl ⟨hcount, fun j => mt (hsame j).1 (hnone j)⟩
  · exact Or.inr ⟨hcount, k, fun j => (hsame j).trans (hk j)⟩

/-- A wait that takes the permit. -/
theorem Guards.acquire (h : Guards count P f) (hcount : 0 < count) {i : ι} {a : τ} (ha : P a) :
    Guards (count - 1) P (Function.update f i a) := by
  obtain ⟨rfl, hnone⟩ | ⟨rfl, -⟩ := h
  · refine Or.inr ⟨rfl, i, fun j => ?_⟩
    by_cases hj : j = i
    · rw [hj, Function.update_self]
      exact iff_of_true ha rfl
    · rw [Function.update_of_ne hj]
      exact iff_of_false (hnone j) hj
  · exact absurd hcount (Nat.lt_irrefl 0)

/-- A signal that gives it back. -/
theorem Guards.release (h : Guards count P f) {i : ι} {a : τ} (hi : P (f i)) (ha : ¬P a) :
    Guards (min 1 (count + 1)) P (Function.update f i a) := by
  obtain ⟨-, hnone⟩ | ⟨rfl, k, hk⟩ := h
  · exact absurd hi (hnone i)
  · refine Or.inl ⟨rfl, fun j => ?_⟩
    by_cases hj : j = i
    · rw [hj, Function.update_self]
      exact ha
    · rw [Function.update_of_ne hj, hk, ← (hk i).1 hi]
      exact hj

end Mutex
