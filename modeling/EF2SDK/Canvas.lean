import EF2SDK.DoubleBuffer
import Mathlib.Tactic.SplitIfs

/-!
# A canvas

A canvas is two pictures, one of which is displayed. Painting changes a picture, the one that is
not displayed while double buffering is on, and the one that is displayed while it is off.
Presenting displays the other picture while double buffering is on.

While it is on, what is displayed is the picture as it was when it was last presented, whatever is
painted since (`displayed_run`).
-/

set_option autoImplicit false

variable {P : Type*}

/-- Two pictures, and whether double buffering is on. -/
structure Canvas (P : Type*) where
  buffers : DoubleBuffer.State P
  doubled : Bool

namespace Canvas

variable {c d : Canvas P}

/-- The half that is painted. -/
def target (c : Canvas P) : Bool :=
  if c.doubled then !c.buffers.active else c.buffers.active

/-- The picture that is painted. -/
def picture (c : Canvas P) : P :=
  c.buffers.halves c.target

/-- The picture that is displayed. -/
def displayed (c : Canvas P) : P :=
  c.buffers.halves c.buffers.active

def paint (c : Canvas P) (f : P → P) : Canvas P where
  buffers := if c.doubled then c.buffers.fill (f c.picture) else c.buffers.redraw (f c.picture)
  doubled := c.doubled

def present (c : Canvas P) : Canvas P where
  buffers := if c.doubled then c.buffers.flip else c.buffers
  doubled := c.doubled

def setDoubled (c : Canvas P) (doubled : Bool) : Canvas P :=
  { c with doubled := doubled }

theorem paint_active (c : Canvas P) (f : P → P) :
    (c.paint f).buffers.active = c.buffers.active := by
  rw [paint]
  dsimp only
  split_ifs <;> rfl

theorem paint_halves (c : Canvas P) (f : P → P) :
    (c.paint f).buffers.halves = Function.update c.buffers.halves c.target (f c.picture) := by
  rw [paint, target]
  dsimp only
  split_ifs <;> rfl

/-- The first half is painted, and the other one stays. -/
theorem paint_half (c : Canvas P) (f : P → P) (i : Bool) :
    (c.paint f).buffers.halves i =
      if i = c.target then f (c.buffers.halves i) else c.buffers.halves i := by
  rw [paint_halves, Function.update_apply]
  split_ifs with h
  · rw [h]
    rfl
  · rfl

theorem paint_displayed (h : c.doubled = true) (f : P → P) :
    (c.paint f).displayed = c.displayed := by
  have htarget : ¬c.buffers.active = c.target := by
    rw [target, if_pos h]
    simp
  rw [displayed, paint_active, paint_half, if_neg htarget]
  rfl

theorem present_displayed (h : c.doubled = true) : c.present.displayed = c.picture := by
  rw [displayed, present, picture, target, if_pos h, if_pos h]
  rfl

/-! ## Runs -/

/-- What is done to a canvas. -/
inductive Act (P : Type*) where
  | paint (f : P → P)
  | present
  | setDoubled (doubled : Bool)
  | stay

def act (c : Canvas P) : Act P → Canvas P
  | .paint f => c.paint f
  | .present => c.present
  | .setDoubled doubled => c.setDoubled doubled
  | .stay => c

def run (c : Canvas P) (acts : List (Act P)) : Canvas P :=
  acts.foldl act c

/-- The canvas is only painted. -/
def Act.Paints : Act P → Prop
  | .paint _ => True
  | .present => False
  | .setDoubled _ => False
  | .stay => True

/-- Double buffering stays as it is. -/
def Act.KeepsMode : Act P → Prop
  | .setDoubled _ => False
  | _ => True

theorem Act.Paints.keepsMode {a : Act P} (h : a.Paints) : a.KeepsMode := by
  cases a with
  | setDoubled => exact h
  | _ => trivial

theorem act_doubled {a : Act P} (h : a.KeepsMode) : (c.act a).doubled = c.doubled := by
  cases a with
  | setDoubled => exact absurd h id
  | _ => rfl

theorem act_displayed {a : Act P} (hdoubled : c.doubled = true) (h : a.Paints) :
    (c.act a).displayed = c.displayed := by
  cases a with
  | paint f => exact paint_displayed hdoubled f
  | stay => rfl
  | present => exact absurd h id
  | setDoubled => exact absurd h id

theorem run_doubled {acts : List (Act P)} (h : ∀ a ∈ acts, a.KeepsMode) :
    (c.run acts).doubled = c.doubled := by
  induction acts generalizing c with
  | nil => rfl
  | cons a acts ih =>
    obtain ⟨ha, hacts⟩ := List.forall_mem_cons.1 h
    exact (ih hacts).trans (act_doubled ha)

/-- While double buffering is on, what is displayed stays until something is presented. -/
theorem run_displayed {acts : List (Act P)} (hdoubled : c.doubled = true)
    (h : ∀ a ∈ acts, a.Paints) : (c.run acts).displayed = c.displayed := by
  induction acts generalizing c with
  | nil => rfl
  | cons a acts ih =>
    obtain ⟨ha, hacts⟩ := List.forall_mem_cons.1 h
    exact (ih ((act_doubled ha.keepsMode).trans hdoubled) hacts).trans (act_displayed hdoubled ha)

/-- What is displayed is the picture that was painted when it was last presented. -/
theorem displayed_run {before after : List (Act P)} (hdoubled : c.doubled = true)
    (hbefore : ∀ a ∈ before, a.KeepsMode) (hafter : ∀ a ∈ after, a.Paints) :
    (c.run (before ++ .present :: after)).displayed = (c.run before).picture := by
  have hmode : (c.run before).doubled = true := (run_doubled hbefore).trans hdoubled
  have hstay : ((c.run before).present.run after).displayed = (c.run before).present.displayed :=
    run_displayed hmode hafter
  rw [run, List.foldl_append, List.foldl_cons]
  exact hstay.trans (present_displayed hmode)

end Canvas
