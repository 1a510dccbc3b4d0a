import Mathlib.Algebra.Group.Nat.Defs
import Mathlib.Data.Int.ConditionallyCompleteOrder
import Mathlib.Tactic.Linarith
import Mathlib.Tactic.SplitIfs

/-!
# Interpolation at fixed-point positions

A stream of samples is read at positions counted in `q`-ths of a sample : the sample nearest
to the position (`nearest`), or a linear interpolation between the two samples around
it, with the fraction rounded down to a multiple of `h` (`linear`).

Reading a window of the stream is reading the stream at a shifted position
(`nearest_window`, `linear_window`). Either lies between the two samples around the position
(`nearest_mem`, `linear_mem`), and follows a stream that rises or falls (`nearest_monotone`,
`linear_monotone`, `linear_antitone`) : within a segment by the weight of its end, and from a
segment to a later one by the samples between them.
-/

set_option autoImplicit false

namespace Interpolation

variable {α : Type*} {q h pos c : ℕ}

/-- The sample nearest to the position, the later one half way. -/
def nearest (q : ℕ) (x : ℕ → α) (pos : ℕ) : α :=
  if 2 * (pos % q) < q then x (pos / q) else x (pos / q + 1)

/-- The samples around the position weighted by its fraction, in steps of `h`, rounded down. -/
def linear (q h : ℕ) (x : ℕ → ℤ) (pos : ℕ) : ℤ :=
  x (pos / q) + (x (pos / q + 1) - x (pos / q)) * ((pos % q / h : ℕ) : ℤ) / ((q / h : ℕ) : ℤ)

/-- The position of a window's sample in the stream. -/
theorem position_window (hq : 0 < q) :
    (c * q + pos) / q = c + pos / q ∧ (c * q + pos) % q = pos % q := by
  rw [Nat.mul_comm, Nat.mul_add_div hq, Nat.mul_add_mod]
  exact ⟨rfl, rfl⟩

theorem nearest_window (hq : 0 < q) (x : ℕ → α) :
    nearest q (fun j => x (c + j)) pos = nearest q x (c * q + pos) := by
  unfold nearest
  rw [(position_window hq).1, (position_window hq).2, Nat.add_assoc]

theorem linear_window (hq : 0 < q) (x : ℕ → ℤ) :
    linear q h (fun j => x (c + j)) pos = linear q h x (c * q + pos) := by
  unfold linear
  rw [(position_window hq).1, (position_window hq).2, Nat.add_assoc]

/-- A weighted difference stays between nothing and the whole difference. -/
theorem mul_ediv_mem {d w n : ℤ} (hw : 0 ≤ w) (hwn : w ≤ n) (hn : 0 < n) :
    min 0 d ≤ d * w / n ∧ d * w / n ≤ max 0 d := by
  rcases le_total 0 d with hd | hd
  · rw [min_eq_left hd, max_eq_right hd]
    refine ⟨Int.ediv_nonneg (mul_nonneg hd hw) hn.le, ?_⟩
    calc d * w / n ≤ d * n / n := Int.ediv_le_ediv hn (mul_le_mul_of_nonneg_left hwn hd)
      _ = d := Int.mul_ediv_cancel d hn.ne'
  · rw [min_eq_right hd, max_eq_left hd]
    constructor
    · calc d = d * n / n := (Int.mul_ediv_cancel d hn.ne').symm
        _ ≤ d * w / n := Int.ediv_le_ediv hn (mul_le_mul_of_nonpos_left hwn hd)
    · have hle : d * w / n ≤ 0 / n := Int.ediv_le_ediv hn (mul_nonpos_of_nonpos_of_nonneg hd hw)
      simpa using hle

/-- A linear interpolation lies between the two samples it is made of. -/
theorem linear_mem (hh : 0 < h) (hhq : h ∣ q) (hq : 0 < q) (x : ℕ → ℤ) :
    min (x (pos / q)) (x (pos / q + 1)) ≤ linear q h x pos ∧
      linear q h x pos ≤ max (x (pos / q)) (x (pos / q + 1)) := by
  have hn : 0 < q / h := Nat.div_pos (Nat.le_of_dvd hq hhq) hh
  have hw : pos % q / h ≤ q / h := Nat.div_le_div_right (Nat.mod_lt pos hq).le
  obtain ⟨hlo, hhi⟩ := mul_ediv_mem (d := x (pos / q + 1) - x (pos / q))
    (Int.natCast_nonneg (pos % q / h)) (Int.ofNat_le.2 hw) (Int.ofNat_lt.2 hn)
  unfold linear
  generalize (x (pos / q + 1) - x (pos / q)) * ((pos % q / h : ℕ) : ℤ) / ((q / h : ℕ) : ℤ) = e at *
  omega

/-- The sample nearest to the position is one of the two around it. -/
theorem nearest_mem (x : ℕ → ℤ) :
    min (x (pos / q)) (x (pos / q + 1)) ≤ nearest q x pos ∧
      nearest q x pos ≤ max (x (pos / q)) (x (pos / q + 1)) := by
  unfold nearest
  split_ifs <;> omega

/-! ## Streams that rise or fall -/

/-- A position is in the segment of an earlier one, behind it, or in a later segment. -/
theorem segment_cases {pos' : ℕ} (h : pos ≤ pos') :
    (pos / q = pos' / q ∧ pos % q ≤ pos' % q) ∨ pos / q + 1 ≤ pos' / q := by
  rcases Nat.eq_or_lt_of_le (Nat.div_le_div_right h : pos / q ≤ pos' / q) with hsame | hlater
  · refine Or.inl ⟨hsame, ?_⟩
    have hpos := Nat.div_add_mod pos q
    have hpos' := Nat.div_add_mod pos' q
    rw [← hsame] at hpos'
    omega
  · exact Or.inr hlater

theorem nearest_monotone [Preorder α] {x : ℕ → α} (hx : Monotone x) : Monotone (nearest q x) := by
  intro pos pos' h
  unfold nearest
  rcases segment_cases (q := q) h with ⟨hsame, hfraction⟩ | hlater
  · rw [hsame]
    split_ifs
    · exact le_rfl
    · exact hx (Nat.le_succ _)
    · omega
    · exact le_rfl
  · split_ifs <;> exact hx (by omega)

theorem nearest_antitone [Preorder α] {x : ℕ → α} (hx : Antitone x) : Antitone (nearest q x) :=
  nearest_monotone (α := αᵒᵈ) hx

/-- A weighted difference grows with the weight, upwards or downwards. -/
theorem mul_ediv_mono {d w w' n : ℤ} (hn : 0 < n) (hw : w ≤ w') :
    (0 ≤ d → d * w / n ≤ d * w' / n) ∧ (d ≤ 0 → d * w' / n ≤ d * w / n) :=
  ⟨fun hd => Int.ediv_le_ediv hn (mul_le_mul_of_nonneg_left hw hd),
    fun hd => Int.ediv_le_ediv hn (mul_le_mul_of_nonpos_left hw hd)⟩

/-- The weights of two positions in a segment. -/
theorem weights_le {f f' : ℕ} (hh : 0 < h) (hhq : h ∣ q) (hq : 0 < q) (hf : f ≤ f') :
    (0 : ℤ) < ((q / h : ℕ) : ℤ) ∧ ((f / h : ℕ) : ℤ) ≤ ((f' / h : ℕ) : ℤ) :=
  ⟨Int.ofNat_lt.2 (Nat.div_pos (Nat.le_of_dvd hq hhq) hh),
    Int.ofNat_le.2 (Nat.div_le_div_right hf)⟩

theorem linear_monotone (hh : 0 < h) (hhq : h ∣ q) (hq : 0 < q) {x : ℕ → ℤ} (hx : Monotone x) :
    Monotone (linear q h x) := by
  intro pos pos' hle
  rcases segment_cases (q := q) hle with ⟨hsame, hfraction⟩ | hlater
  · have hrise : x (pos' / q) ≤ x (pos' / q + 1) := hx (Nat.le_succ _)
    obtain ⟨hn, hw⟩ := weights_le hh hhq hq hfraction
    have hweight := (mul_ediv_mono hn hw).1 (sub_nonneg.2 hrise)
    unfold linear
    rw [hsame]
    omega
  · have hmem := (@linear_mem q h pos hh hhq hq x).2
    have hmem' := (@linear_mem q h pos' hh hhq hq x).1
    have hfirst : x (pos / q) ≤ x (pos / q + 1) := hx (Nat.le_succ _)
    have hbetween := hx hlater
    have hlast : x (pos' / q) ≤ x (pos' / q + 1) := hx (Nat.le_succ _)
    omega

theorem linear_antitone (hh : 0 < h) (hhq : h ∣ q) (hq : 0 < q) {x : ℕ → ℤ} (hx : Antitone x) :
    Antitone (linear q h x) := by
  intro pos pos' hle
  rcases segment_cases (q := q) hle with ⟨hsame, hfraction⟩ | hlater
  · have hfall : x (pos' / q + 1) ≤ x (pos' / q) := hx (Nat.le_succ _)
    obtain ⟨hn, hw⟩ := weights_le hh hhq hq hfraction
    have hweight := (mul_ediv_mono hn hw).2 (sub_nonpos.2 hfall)
    unfold linear
    rw [hsame]
    omega
  · have hmem := (@linear_mem q h pos hh hhq hq x).1
    have hmem' := (@linear_mem q h pos' hh hhq hq x).2
    have hfirst : x (pos / q + 1) ≤ x (pos / q) := hx (Nat.le_succ _)
    have hbetween := hx hlater
    have hlast : x (pos' / q + 1) ≤ x (pos' / q) := hx (Nat.le_succ _)
    omega

end Interpolation
