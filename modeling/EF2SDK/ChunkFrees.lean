import EF2SDK.Chunks
import Mathlib.Data.Finset.Insert

/-!
# Freeing a set of chunks

Freeing chunks one after another and coalescing each with the neighbours that are free at
that moment leaves a list that depends on the set of the freed chunks only (`freed`) : the
boundary of two chunks is gone when both are free in the end and one of them was freed, which
is when the later of the two is. A boundary between chunks that were free before stays.

`exists_freed_insert` : one more chunk, released in the list freed so far, gives the list
freed of one more chunk.
-/

set_option autoImplicit false

namespace Chunks

variable {h a b : ℕ} {c d e : Chunk} {l r cs : List Chunk} {F F' : Finset ℕ}

/-- A chunk once the chunks at `F` are freed. -/
def after (F : Finset ℕ) (a : ℕ) (c : Chunk) : Chunk :=
  ⟨c.size, c.used && decide (a ∉ F)⟩

/-- The list from `a` on once the chunks at `F` are freed. A boundary can go only where one of
its chunks was in use. -/
def freed (h : ℕ) (F : Finset ℕ) : ℕ → List Chunk → List Chunk
  | _, [] => []
  | a, c :: r =>
    if (after F a c).used = false ∧ (c.used || r.head?.any (·.used)) = true then
      absorb h (after F a c :: freed h F (a + (h + c.size)) r)
    else after F a c :: freed h F (a + (h + c.size)) r

theorem freed_cons : freed h F a (c :: r) =
    if (after F a c).used = false ∧ (c.used || r.head?.any (·.used)) = true then
      absorb h (after F a c :: freed h F (a + (h + c.size)) r)
    else after F a c :: freed h F (a + (h + c.size)) r :=
  rfl

theorem after_empty : after ∅ a c = c := by
  simp [after]

/-- Freeing nothing. -/
theorem freed_empty : freed h ∅ a cs = cs := by
  induction cs generalizing a with
  | nil => rfl
  | cons c r ih =>
    rw [freed_cons, ih, after_empty]
    split_ifs with hc
    · cases r with
      | nil => rfl
      | cons d r =>
        have hd : d.used = true := by simpa [hc.1] using hc.2
        rw [absorb_cons_cons, if_pos hd]
    · rfl

/-- Only the addresses from `a` on count. -/
theorem freed_congr (hF : ∀ x, a ≤ x → (x ∈ F ↔ x ∈ F')) : freed h F a cs = freed h F' a cs := by
  induction cs generalizing a with
  | nil => rfl
  | cons c r ih =>
    have hafter : after F a c = after F' a c := by
      unfold after
      simp only [hF a (Nat.le_refl a)]
    rw [freed_cons, freed_cons, hafter, ih fun x hx => hF x (by omega)]

/-! ## Releasing one more chunk -/

theorem release_cons_cons : release h (d :: e :: l) cs = d :: release h (e :: l) cs := by
  rcases List.eq_nil_or_concat' l with rfl | ⟨l, c, rfl⟩
  · show release h ([d] ++ [e]) cs = d :: release h ([] ++ [e]) cs
    rw [release_concat, release_concat]
    split_ifs <;> rfl
  · show release h ((d :: e :: l) ++ [c]) cs = d :: release h ((e :: l) ++ [c]) cs
    rw [release_concat, release_concat]
    split_ifs <;> rfl

/-- A free chunk takes in the one behind it before or after a release further on. -/
theorem absorb_release (hd : d.used = false) {n : ℕ} :
    absorb h (d :: release h (e :: l) (⟨n, false⟩ :: r)) =
      release h (absorb h (d :: e :: l)) (⟨n, false⟩ :: r) := by
  obtain ⟨m, r', habsorb, -⟩ := exists_absorb_eq (h := h) (c := ⟨n, false⟩) (r := r)
  have hone : ∀ d : Chunk, release h [d] (⟨n, false⟩ :: r) =
      if d.used then d :: ⟨m, false⟩ :: r' else ⟨d.size + (h + m), d.used⟩ :: r' := by
    intro d
    show release h ([] ++ [d]) (⟨n, false⟩ :: r) = _
    rw [release_concat, habsorb, absorb_cons_cons]
    split_ifs <;> simp_all
  rw [absorb_cons_cons]
  cases l with
  | nil =>
    by_cases he : e.used = true
    · rw [if_pos he, release_cons_cons, hone, if_pos he, absorb_cons_cons, if_pos he]
    · rw [if_neg he, hone, if_neg he, absorb_cons_cons, if_neg he, hone]
      simp only [hd, Bool.false_eq_true, if_false]
      congr 2
      omega
  | cons y l =>
    rw [release_cons_cons, absorb_cons_cons]
    by_cases he : e.used = true
    · rw [if_pos he, if_pos he, release_cons_cons, release_cons_cons]
    · rw [if_neg he, if_neg he, release_cons_cons]

theorem release_singleton : release h [d] cs =
    if d.used then d :: absorb h cs else absorb h (d :: absorb h cs) := by
  show release h ([] ++ [d]) cs = _
  rw [release_concat]
  rfl

theorem extent_absorb (hne : cs ≠ []) : extent h (absorb h cs) = extent h cs :=
  (headEdit_absorb hne).extent

theorem absorb_append : absorb h (d :: e :: l) ++ cs = absorb h (d :: e :: (l ++ cs)) := by
  rw [absorb_cons_cons, absorb_cons_cons]
  split_ifs <;> rfl

/-- One more chunk, released where the list freed so far has it. -/
theorem exists_freed_insert (hh : 0 < h) (hc : c.used = true) (hF : a + extent h l ∉ F) :
    ∃ l' r', extent h l' = extent h l ∧ freed h F a (l ++ c :: r) = l' ++ c :: r' ∧
      freed h (insert (a + extent h l) F) a (l ++ c :: r) =
        release h l' (⟨c.size, false⟩ :: r') := by
  induction l generalizing a with
  | nil =>
    rw [extent_nil, Nat.add_zero] at hF ⊢
    have hkeep : after F a c = c := by simp [after, hF]
    have hfree : after (insert a F) a c = ⟨c.size, false⟩ := by simp [after]
    have hrest : freed h (insert a F) (a + (h + c.size)) r = freed h F (a + (h + c.size)) r := by
      refine freed_congr fun x hx => ?_
      rw [Finset.mem_insert]
      exact or_iff_right (by omega)
    refine ⟨[], freed h F (a + (h + c.size)) r, rfl, ?_, ?_⟩
    · rw [List.nil_append, freed_cons, hkeep, if_neg (by simp [hc])]
      rfl
    · rw [List.nil_append, freed_cons, hfree, hrest, if_pos ⟨rfl, by simp [hc]⟩, release_nil]
  | cons d l ih =>
    obtain ⟨b, hb⟩ : ∃ b, b = a + extent h (d :: l) := ⟨_, rfl⟩
    have hb' : b = a + (h + d.size) + extent h l := by rw [hb, extent_cons, ← Nat.add_assoc]
    rw [← hb] at hF ⊢
    obtain ⟨l', r', hextent, hfreed, hinsert⟩ := ih (a := a + (h + d.size)) (hb' ▸ hF)
    rw [← hb'] at hinsert
    have hafter : after (insert b F) a d = after F a d := by
      have hne : a ≠ b := by omega
      simp [after, hne]
    rw [List.cons_append, freed_cons, freed_cons, hafter, hfreed, hinsert]
    obtain ⟨d', hd'⟩ : ∃ d', d' = after F a d := ⟨_, rfl⟩
    rw [← hd']
    have hspan : extent h (d' :: l') = extent h (d :: l) := by
      rw [extent_cons, extent_cons, hextent, hd']
      rfl
    cases l' with
    | nil =>
      -- the boundary on the left of the chunk
      obtain rfl : l = [] := by
        cases l with
        | nil => rfl
        | cons x l =>
          rw [extent_cons, extent_nil] at hextent
          omega
      refine ⟨[d'], r', hspan, ?_, ?_⟩
      · show (if _ then absorb h (d' :: c :: r') else d' :: c :: r') = d' :: c :: r'
        rw [absorb_cons_cons, if_pos hc, ite_self]
      · rw [release_nil, release_singleton]
        by_cases hd : d'.used = true
        · rw [if_neg (by simp [hd]), if_pos hd]
        · rw [if_pos ⟨by simpa using hd, by simp [hc]⟩, if_neg hd]
    | cons e l' =>
      split_ifs with hcond
      · refine ⟨absorb h (d' :: e :: l'), r', ?_, absorb_append.symm, absorb_release hcond.1⟩
        rw [extent_absorb (by simp), hspan]
      · exact ⟨d' :: e :: l', r', hspan, rfl, release_cons_cons.symm⟩

end Chunks
