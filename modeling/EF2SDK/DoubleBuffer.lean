import Mathlib.Data.List.Basic
import Mathlib.Logic.Function.Basic

/-!
# Double buffers

A reader works through one half of a buffer, the active one, while the other is filled. A flip
hands it the other half. `shown` is what the reader was handed so far, the active half last.

In whatever order fills and flips come, the reader is only handed what the buffer was started
with or filled with (`ShowsOnly`). Where every flip finds exactly one fill since the last one,
it is handed the fills in order and each one once, after the two halves the buffer was started
with : such a run alternates between `State.Ready` and `State.Due`.
-/

set_option autoImplicit false

namespace DoubleBuffer

/-- What the two halves hold, and which of them is the active one. -/
structure State (α : Type*) where
  halves : Bool → α
  active : Bool
  shown : List α

variable {α : Type*} {s : State α} {a x : α} {xs ys : List α}

/-- Both halves hold `a`, and the reader is handed one of them. -/
def start (a : α) : State α :=
  ⟨fun _ => a, false, [a]⟩

/-- The other half becomes the active one. -/
def State.flip (s : State α) : State α where
  halves := s.halves
  active := !s.active
  shown := s.shown ++ [s.halves !s.active]

/-- The half that is not active gets new contents. -/
def State.fill (s : State α) (x : α) : State α :=
  { s with halves := Function.update s.halves (!s.active) x }

theorem State.fill_active (s : State α) (x : α) :
    (s.fill x).halves s.active = s.halves s.active := by
  simp [State.fill]

theorem State.fill_idle (s : State α) (x : α) : (s.fill x).halves (!s.active) = x := by
  simp [State.fill]

/-- The active half changes while the reader works through it. -/
def State.redraw (s : State α) (x : α) : State α :=
  { s with halves := Function.update s.halves s.active x }

/-! ## Any order -/

/-- The halves and what was shown are all among `xs`. -/
structure ShowsOnly (s : State α) (xs : List α) : Prop where
  halves : ∀ b, s.halves b ∈ xs
  shown : ∀ y ∈ s.shown, y ∈ xs

namespace ShowsOnly

theorem mono (h : ShowsOnly s xs) (hsub : xs ⊆ ys) : ShowsOnly s ys :=
  ⟨fun b => hsub (h.halves b), fun y hy => hsub (h.shown y hy)⟩

theorem start (ha : a ∈ xs) : ShowsOnly (DoubleBuffer.start a) xs :=
  ⟨fun _ => ha, fun _ hy => List.mem_singleton.1 hy ▸ ha⟩

theorem flip (h : ShowsOnly s xs) : ShowsOnly s.flip xs where
  halves := h.halves
  shown y hy := by
    rcases List.mem_append.1 hy with hy | hy
    · exact h.shown y hy
    · rw [List.mem_singleton.1 hy]
      exact h.halves _

theorem fill (h : ShowsOnly s xs) (hx : x ∈ xs) : ShowsOnly (s.fill x) xs where
  halves b := by
    simp only [State.fill, Function.update_apply]
    split
    · exact hx
    · exact h.halves b
  shown := h.shown

end ShowsOnly

/-! ## One fill for each flip -/

/-- The fills `xs` are shown in order but for the last one, which waits in the idle half. -/
def State.Ready (s : State α) (a : α) (xs : List α) : Prop :=
  s.shown ++ [s.halves !s.active] = a :: a :: xs

/-- The fills `xs` are all shown, and the idle half waits for the next. -/
def State.Due (s : State α) (a : α) (xs : List α) : Prop :=
  s.shown = a :: a :: xs

theorem ready_start (a : α) : (start a).Ready a [] :=
  rfl

theorem State.Ready.flip (h : s.Ready a xs) : s.flip.Due a xs :=
  h

theorem State.Due.fill (h : s.Due a xs) (x : α) : (s.fill x).Ready a (xs ++ [x]) := by
  have hidle : (s.fill x).halves (!(s.fill x).active) = x := s.fill_idle x
  rw [State.Ready, hidle]
  exact congrArg (· ++ [x]) h

theorem State.Ready.shown_prefix (h : s.Ready a xs) : s.shown <+: a :: a :: xs :=
  ⟨_, h⟩

theorem State.Due.shown_prefix (h : s.Due a xs) : s.shown <+: a :: a :: xs :=
  ⟨[], by rw [List.append_nil, h]⟩

theorem State.Ready.length_shown (h : s.Ready a xs) : s.shown.length = xs.length + 1 := by
  simpa using congrArg List.length h

theorem State.Due.length_shown (h : s.Due a xs) : s.shown.length = xs.length + 2 := by
  simpa using congrArg List.length h

end DoubleBuffer
