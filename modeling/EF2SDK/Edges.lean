import Mathlib.Data.List.Basic
import Mathlib.Data.Nat.Notation

/-!
# Edges of sampled levels

A row of `w` levels is sampled from time to time. A sample carries the levels with the ones
that rose and the ones that fell since the sample before it (`Sample.after`), and the samples
of a history follow one another (`Follow`) from the levels before the first.

`Follow.fold` : folding the edges of a history gives its last levels back.
`Follow.alternate` : one level's edges in a history alternate, and the first one rises
where the level starts low (`Alternate.isChain`, `Alternate.head`).
-/

set_option autoImplicit false

namespace Edges

variable {w : ℕ}

/-- `w` levels with the edges since the sample before. -/
structure Sample (w : ℕ) where
  level : BitVec w
  rising : BitVec w
  falling : BitVec w
deriving DecidableEq

/-- The sample of `level` where the sample before it has `previous`. -/
def Sample.after (previous level : BitVec w) : Sample w :=
  ⟨level, level &&& ~~~previous, previous &&& ~~~level⟩

/-- The levels that the edges of a sample lead to. -/
def Sample.apply (s : Sample w) (previous : BitVec w) : BitVec w :=
  previous &&& ~~~s.falling ||| s.rising

theorem Sample.after_disjoint (previous level : BitVec w) :
    (Sample.after previous level).rising &&& (Sample.after previous level).falling = 0 := by
  ext i hi
  simp only [Sample.after, BitVec.getElem_and, BitVec.getElem_not, BitVec.ofNat_eq_ofNat,
    BitVec.getElem_zero]
  cases level[i] <;> simp

theorem Sample.after_apply (previous level : BitVec w) :
    (Sample.after previous level).apply previous = level := by
  ext i hi
  simp only [Sample.after, Sample.apply, BitVec.getElem_and, BitVec.getElem_not,
    BitVec.getElem_or]
  cases level[i] <;> cases previous[i] <;> rfl

/-- The levels after a history that starts from `start`. -/
def levelAfter (start : BitVec w) (history : List (Sample w)) : BitVec w :=
  (history.getLast?.map Sample.level).getD start

@[simp] theorem levelAfter_nil (start : BitVec w) : levelAfter start [] = start :=
  rfl

theorem levelAfter_cons (start : BitVec w) (s : Sample w) (history : List (Sample w)) :
    levelAfter start (s :: history) = levelAfter s.level history := by
  cases history with
  | nil => rfl
  | cons t history =>
    rw [levelAfter, levelAfter, List.getLast?_cons_cons, List.getLast?_cons, Option.map_some,
      Option.getD_some, Option.getD_some]

theorem levelAfter_append (start : BitVec w) (history later : List (Sample w)) :
    levelAfter start (history ++ later) = levelAfter (levelAfter start history) later := by
  induction history generalizing start with
  | nil => rfl
  | cons s history ih => rw [List.cons_append, levelAfter_cons, levelAfter_cons, ih]

/-- Each sample of the history is taken after the one before it, the first after `start`. -/
def Follow : BitVec w → List (Sample w) → Prop
  | _, [] => True
  | previous, s :: history => s = Sample.after previous s.level ∧ Follow s.level history

theorem follow_append {start : BitVec w} {history later : List (Sample w)} :
    Follow start (history ++ later) ↔
      Follow start history ∧ Follow (levelAfter start history) later := by
  induction history generalizing start with
  | nil => simp [Follow]
  | cons s history ih => rw [List.cons_append, Follow, Follow, ih, levelAfter_cons, and_assoc]

/-- A sample of a history with what is before it. -/
theorem Follow.sample {start : BitVec w} {before after : List (Sample w)} {s : Sample w}
    (h : Follow start (before ++ s :: after)) :
    s = Sample.after (levelAfter start before) s.level :=
  (follow_append.1 h).2.1

/-- The fold of the edges gives the levels back. -/
theorem Follow.fold {start : BitVec w} {history : List (Sample w)} (h : Follow start history) :
    history.foldl (fun level s => s.apply level) start = levelAfter start history := by
  induction history generalizing start with
  | nil => rfl
  | cons s history ih =>
    obtain ⟨hs, hrest⟩ := h
    have happly : s.apply start = s.level := by
      rw [hs, Sample.after_apply]
      rfl
    rw [List.foldl_cons, happly, ih hrest, levelAfter_cons]

/-! ## The edges of one level -/

/-- An edge of one level. -/
inductive Edge
  | rise
  | fall
deriving DecidableEq

/-- The edges of level `i` in one sample. -/
def Sample.edges (i : ℕ) (s : Sample w) : List Edge :=
  (if s.rising.getLsbD i then [.rise] else []) ++ (if s.falling.getLsbD i then [.fall] else [])

/-- The edges of level `i` in a history. -/
def edges (i : ℕ) (history : List (Sample w)) : List Edge :=
  history.flatMap (Sample.edges i)

/-- A low level rises and a high level falls. -/
def Alternate : Bool → List Edge → Prop
  | _, [] => True
  | false, .rise :: es => Alternate true es
  | true, .fall :: es => Alternate false es
  | _, _ => False

theorem Alternate.tail {high : Bool} {e : Edge} {es : List Edge} (h : Alternate high (e :: es)) :
    Alternate (!high) es := by
  cases high <;> cases e <;> first | exact h | exact h.elim

/-- The first edge of a low level rises. -/
theorem Alternate.head {e : Edge} {es : List Edge} (h : Alternate false es) (he : e ∈ es.head?) :
    e = .rise := by
  cases es with
  | nil => cases he
  | cons e' es =>
    obtain rfl := Option.some.inj he
    cases e' with
    | rise => rfl
    | fall => exact h.elim

theorem Alternate.isChain {high : Bool} {es : List Edge} (h : Alternate high es) :
    es.IsChain (· ≠ ·) := by
  induction es generalizing high with
  | nil => exact .nil
  | cons e es ih =>
    cases es with
    | nil => exact .singleton e
    | cons e' es =>
      refine .cons_cons ?_ (ih h.tail)
      rintro rfl
      cases high <;> cases e <;> exact h.elim

/-- The edges of level `i` from one sample to the next. -/
theorem Sample.edges_after (i : ℕ) (previous level : BitVec w) (hi : i < w) :
    (Sample.after previous level).edges i =
      match previous.getLsbD i, level.getLsbD i with
      | false, true => [.rise]
      | true, false => [.fall]
      | _, _ => [] := by
  simp only [Sample.edges, Sample.after, BitVec.getLsbD_and, BitVec.getLsbD_not, hi,
    decide_true, Bool.true_and]
  cases previous.getLsbD i <;> cases level.getLsbD i <;> rfl

theorem Follow.alternate {start : BitVec w} {history : List (Sample w)} (h : Follow start history)
    {i : ℕ} (hi : i < w) : Alternate (start.getLsbD i) (edges i history) := by
  induction history generalizing start with
  | nil => trivial
  | cons s history ih =>
    obtain ⟨hs, hrest⟩ := h
    rw [edges, List.flatMap_cons, hs, Sample.edges_after i _ _ hi]
    have hlater := ih hrest
    rw [edges] at hlater
    cases hp : start.getLsbD i <;> cases hl : s.level.getLsbD i <;> rw [hl] at hlater <;>
      exact hlater

end Edges
