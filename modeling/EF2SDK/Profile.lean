import Mathlib.Data.List.Induction
import Mathlib.Algebra.BigOperators.Group.List.Basic
import Mathlib.Algebra.GroupWithZero.Nat
import EF2SDK.Words

/-!
# Profile counters

`src/ee/kernel/profile.c` : a counter keeps the number of the ticks that were recorded, with the
last, the least and the greatest of them and their sum. A counter without samples takes its next
ticks for the least and the greatest.

The number of samples has 32 bits. When it wraps to 0 the counter looks like one without samples
and forgets its extremes, so they are those of the ticks recorded since then (`sinceWrap`), while
the sum goes on (`Recorded`). `records_summarized_iff` : the counter is right exactly where nothing
recorded before the last wrap is less or greater than all that came after it.
-/

set_option autoImplicit false

namespace EF2SDK.Profile

/-- `ef2_profile_counter`. -/
structure ProfileCounter where
  samples : UInt32
  lastTicks : UInt32
  minTicks : UInt32
  maxTicks : UInt32
  totalTicks : UInt64
deriving DecidableEq

/-- `ef2_profile_reset`; a null pointer is `none`. -/
def profileReset (counter : Option ProfileCounter) : Option ProfileCounter :=
  counter.map fun _ => ⟨0, 0, 0, 0, 0⟩

/-- `ef2_profile_record`, of a counter. -/
def ProfileCounter.record (counter : ProfileCounter) (ticks : UInt32) : ProfileCounter :=
  let counter :=
    if counter.samples = 0 then
      { counter with minTicks := ticks, maxTicks := ticks }
    else
      let counter :=
        if ticks < counter.minTicks then { counter with minTicks := ticks } else counter
      if ticks > counter.maxTicks then { counter with maxTicks := ticks } else counter
  { counter with
    lastTicks := ticks
    totalTicks := counter.totalTicks + ticks.toUInt64
    samples := counter.samples + 1 }

/-- `ef2_profile_record`; a null pointer is `none`. -/
def profileRecord (counter : Option ProfileCounter) (ticks : UInt32) : Option ProfileCounter :=
  counter.map (·.record ticks)

/-! ## Extremes -/

section Extremes

variable {α : Type} {r : α → α → Prop} {l l' : List α} {x m : α}

/-- An element of the list that is related to all its elements. -/
def Extreme (r : α → α → Prop) (l : List α) (m : α) : Prop :=
  m ∈ l ∧ ∀ x ∈ l, r m x

theorem extreme_singleton (hx : r x x) : Extreme r [x] x :=
  ⟨List.mem_singleton_self x, fun y hy => by rwa [List.mem_singleton.1 hy]⟩

/-- One more element, which replaces the extreme where it goes beyond it. -/
theorem Extreme.concat [IsTrans α r] {q : Prop} [Decidable q] (h : Extreme r l m) (hx : r x x)
    (hq : q → r x m) (hq' : ¬q → r m x) : Extreme r (l ++ [x]) (if q then x else m) := by
  obtain ⟨hmem, hall⟩ := h
  split_ifs with hbeyond
  · refine ⟨List.mem_append_right l (List.mem_singleton_self x), fun y hy => ?_⟩
    rcases List.mem_append.1 hy with hy | hy
    · exact trans_of r (hq hbeyond) (hall y hy)
    · rwa [List.mem_singleton.1 hy]
  · refine ⟨List.mem_append_left _ hmem, fun y hy => ?_⟩
    rcases List.mem_append.1 hy with hy | hy
    · exact hall y hy
    · rw [List.mem_singleton.1 hy]
      exact hq' hbeyond

/-- The extreme of the last elements is the one of all, where each of the others is related to by
one of them. -/
theorem Extreme.append_iff [IsTrans α r] (h : Extreme r l' m) :
    Extreme r (l ++ l') m ↔ ∀ x ∈ l, ∃ y ∈ l', r y x := by
  obtain ⟨hmem, hall⟩ := h
  constructor
  · exact fun hm x hx => ⟨m, hmem, hm.2 x (List.mem_append_left _ hx)⟩
  · refine fun hl => ⟨List.mem_append_right l hmem, fun x hx => ?_⟩
    rcases List.mem_append.1 hx with hx | hx
    · obtain ⟨y, hy, hyx⟩ := hl x hx
      exact trans_of r (hall y hy) hyx
    · exact hall x hx

end Extremes

/-! ## One record -/

variable {c : ProfileCounter} {ts : List UInt32} {t : UInt32}

theorem record_first (h : c.samples = 0) (t : UInt32) :
    c.record t = ⟨c.samples + 1, t, t, t, c.totalTicks + t.toUInt64⟩ := by
  rw [ProfileCounter.record, if_pos h]

theorem record_next (h : c.samples ≠ 0) (t : UInt32) :
    c.record t = ⟨c.samples + 1, t, if t < c.minTicks then t else c.minTicks,
      if t > c.maxTicks then t else c.maxTicks, c.totalTicks + t.toUInt64⟩ := by
  rw [ProfileCounter.record, if_neg h]
  dsimp only
  split_ifs <;> rfl

/-! ## Every record -/

/-- The records made before the number of samples was last 0. -/
def wrapStart (n : ℕ) : ℕ :=
  (n - 1) / 2 ^ 32 * 2 ^ 32

def beforeWrap (ts : List UInt32) : List UInt32 :=
  ts.take (wrapStart ts.length)

def sinceWrap (ts : List UInt32) : List UInt32 :=
  ts.drop (wrapStart ts.length)

/-- The counter says how many ticks were recorded, the last, the least and the greatest of them, and
their sum. -/
structure Summarizes (ts : List UInt32) (c : ProfileCounter) : Prop where
  least : ts ≠ [] → Extreme (· ≤ ·) ts c.minTicks
  greatest : ts ≠ [] → Extreme (· ≥ ·) ts c.maxTicks
  last : ∀ t ∈ ts.getLast?, c.lastTicks = t
  total : c.totalTicks.toNat = (ts.map UInt32.toNat).sum % 2 ^ 64
  samples : c.samples.toNat = ts.length % 2 ^ 32

/-- What a counter says after any number of records. -/
structure Recorded (ts : List UInt32) (c : ProfileCounter) : Prop where
  least : ts ≠ [] → Extreme (· ≤ ·) (sinceWrap ts) c.minTicks
  greatest : ts ≠ [] → Extreme (· ≥ ·) (sinceWrap ts) c.maxTicks
  last : ∀ t ∈ ts.getLast?, c.lastTicks = t
  total : c.totalTicks.toNat = (ts.map UInt32.toNat).sum % 2 ^ 64
  samples : c.samples.toNat = ts.length % 2 ^ 32

theorem sinceWrap_first (h : ts.length % 2 ^ 32 = 0) (t : UInt32) :
    sinceWrap (ts ++ [t]) = [t] := by
  have hstart : wrapStart (ts ++ [t]).length = ts.length := by
    rw [List.length_append, List.length_singleton, wrapStart]
    omega
  rw [sinceWrap, hstart, List.drop_left]

theorem sinceWrap_next (h : ts.length % 2 ^ 32 ≠ 0) (t : UInt32) :
    sinceWrap (ts ++ [t]) = sinceWrap ts ++ [t] := by
  have hstart : wrapStart (ts ++ [t]).length = wrapStart ts.length := by
    rw [List.length_append, List.length_singleton, wrapStart, wrapStart]
    omega
  have hle : wrapStart ts.length ≤ ts.length := by
    rw [wrapStart]
    omega
  rw [sinceWrap, hstart, List.drop_append_of_le_length hle, sinceWrap]

instance isTransLe : IsTrans UInt32 (· ≤ ·) :=
  ⟨fun _ _ _ => UInt32.le_trans⟩

instance isTransGe : IsTrans UInt32 (· ≥ ·) :=
  ⟨fun _ _ _ h h' => UInt32.le_trans h' h⟩

theorem Recorded.record (h : Recorded ts c) (t : UInt32) : Recorded (ts ++ [t]) (c.record t) := by
  have htotal : (c.totalTicks + t.toUInt64).toNat =
      ((ts ++ [t]).map UInt32.toNat).sum % 2 ^ 64 := by
    rw [List.map_append, List.sum_append, UInt64.toNat_add, h.total, UInt32.toNat_toUInt64]
    simp
  have hsamples : (c.samples + 1).toNat = (ts ++ [t]).length % 2 ^ 32 := by
    rw [UInt32.toNat_add, h.samples, List.length_append]
    simp
  have hlast : ∀ u ∈ (ts ++ [t]).getLast?, t = u := by
    simp
  by_cases hfirst : ts.length % 2 ^ 32 = 0
  · have hzero : c.samples = 0 := UInt32.toNat_inj.1 (h.samples.trans hfirst)
    rw [record_first hzero]
    refine ⟨fun _ => ?_, fun _ => ?_, hlast, htotal, hsamples⟩
    · rw [sinceWrap_first hfirst]
      exact extreme_singleton UInt32.le_rfl
    · rw [sinceWrap_first hfirst]
      exact extreme_singleton UInt32.le_rfl
  · have hne : ts ≠ [] := by
      rintro rfl
      exact hfirst rfl
    have hnext : c.samples ≠ 0 := by
      intro hzero
      have hsamples := h.samples
      rw [hzero] at hsamples
      exact hfirst hsamples.symm
    rw [record_next hnext]
    refine ⟨fun _ => ?_, fun _ => ?_, hlast, htotal, hsamples⟩
    · rw [sinceWrap_next hfirst]
      exact (h.least hne).concat UInt32.le_rfl UInt32.le_of_lt UInt32.not_lt.1
    · rw [sinceWrap_next hfirst]
      exact (h.greatest hne).concat UInt32.le_rfl UInt32.le_of_lt UInt32.not_lt.1

/-- A counter that was reset, after any number of records. -/
theorem recorded (c : ProfileCounter) (ts : List UInt32) :
    ∃ c', ts.foldl profileRecord (profileReset (some c)) = some c' ∧ Recorded ts c' := by
  induction ts using List.reverseRecOn with
  | nil => exact ⟨_, rfl, fun h => absurd rfl h, fun h => absurd rfl h, by simp, rfl, rfl⟩
  | append_singleton ts t ih =>
    obtain ⟨c', hfold, hrecorded⟩ := ih
    refine ⟨c'.record t, ?_, hrecorded.record t⟩
    rw [List.foldl_append, hfold]
    rfl

/-- No ticks recorded before the last wrap are less, or greater, than all that came after it. -/
def WrapKeepsExtremes (ts : List UInt32) : Prop :=
  ∀ t ∈ beforeWrap ts, (∃ u ∈ sinceWrap ts, u ≤ t) ∧ ∃ u ∈ sinceWrap ts, u ≥ t

/-- Up to 2^32 records, there is no wrap. -/
theorem wrapKeepsExtremes_of_length_le (h : ts.length ≤ 2 ^ 32) : WrapKeepsExtremes ts := by
  have hstart : wrapStart ts.length = 0 := by
    rw [wrapStart]
    omega
  intro t ht
  rw [beforeWrap, hstart] at ht
  exact absurd ht List.not_mem_nil

theorem Recorded.summarizes_iff (h : Recorded ts c) : Summarizes ts c ↔ WrapKeepsExtremes ts := by
  have hsplit : beforeWrap ts ++ sinceWrap ts = ts := List.take_append_drop _ ts
  have hextremes : ts ≠ [] → (WrapKeepsExtremes ts ↔
      Extreme (· ≤ ·) ts c.minTicks ∧ Extreme (· ≥ ·) ts c.maxTicks) := by
    intro hne
    have hleast := (h.least hne).append_iff (l := beforeWrap ts)
    have hgreatest := (h.greatest hne).append_iff (l := beforeWrap ts)
    rw [hsplit] at hleast hgreatest
    rw [hleast, hgreatest, ← forall₂_and]
    rfl
  constructor
  · intro hc
    by_cases hne : ts = []
    · subst hne
      exact wrapKeepsExtremes_of_length_le (Nat.zero_le _)
    · exact (hextremes hne).2 ⟨hc.least hne, hc.greatest hne⟩
  · intro hkeeps
    exact ⟨fun hne => ((hextremes hne).1 hkeeps).1, fun hne => ((hextremes hne).1 hkeeps).2, h.last,
      h.total, h.samples⟩

/-- Every sequence of records after a reset : the counter summarizes it exactly where the last wrap
of the number of samples loses no extreme, as where there are at most 2^32 records. -/
theorem records_summarized_iff (c : ProfileCounter) (ts : List UInt32) :
    ∃ c', ts.foldl profileRecord (profileReset (some c)) = some c' ∧
      (Summarizes ts c' ↔ WrapKeepsExtremes ts) := by
  obtain ⟨c', hfold, hrecorded⟩ := recorded c ts
  exact ⟨c', hfold, hrecorded.summarizes_iff⟩

/-- The ticks recorded right after a wrap become the least, whatever was recorded before. -/
theorem Recorded.forgets {u : UInt32} (h : Recorded (ts ++ [t]) c) (hwrap : ts.length % 2 ^ 32 = 0)
    (hu : u ∈ ts) (hlt : u < t) : ¬Summarizes (ts ++ [t]) c := by
  have hne : ts ++ [t] ≠ [] := List.append_ne_nil_of_right_ne_nil _ (List.cons_ne_nil t [])
  intro hc
  have hmin := (h.least hne).1
  have hle := (hc.least hne).2 u (List.mem_append_left _ hu)
  rw [sinceWrap_first hwrap, List.mem_singleton] at hmin
  rw [hmin] at hle
  exact absurd hlt (UInt32.not_lt.2 hle)

/-- 2^32 records of 5 ticks, and one of 7. -/
def wrappedTicks : List UInt32 :=
  List.replicate (2 ^ 32) 5 ++ [7]

/-- The counter says that 7 is the least. -/
theorem wrapped_forgets : ∃ c,
    wrappedTicks.foldl profileRecord (profileReset (some ⟨0, 0, 0, 0, 0⟩)) = some c ∧
      ¬Summarizes wrappedTicks c := by
  obtain ⟨c, hfold, hrecorded⟩ := recorded ⟨0, 0, 0, 0, 0⟩ wrappedTicks
  have hmem : (5 : UInt32) ∈ List.replicate (2 ^ 32) 5 := List.mem_replicate.2 ⟨by decide, rfl⟩
  refine ⟨c, hfold, hrecorded.forgets ?_ hmem (by decide)⟩
  rw [List.length_replicate, Nat.mod_self]

end EF2SDK.Profile
