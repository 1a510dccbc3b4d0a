import Mathlib.Data.List.Basic
import Mathlib.Data.List.Range
import Mathlib.Data.Nat.ModEq
import Mathlib.Logic.Function.Basic

/-!
# Ring buffers

A ring of `cap` slots is a function of the slot. It holds `n` elements from the slot
`read` on, wrapping at `cap` : `contents cap buf read n` is the queue they are.

A writer fills the slots after them and a reader takes elements from the front.
`contents_update` lets the writer work one slot at a time without changing the queue,
`contents_append` adds what was written, and `contents_drop` is the queue after a read.
The three are the operations of a queue of at most `cap` elements : `contents_append` is
`queue ++ new` and `contents_take` with `contents_drop` splits it at the front.

A log is a ring without a reader : a full one takes the next element in the place of the
oldest, and holds the end of what was ever written to it (`Logs`).
-/

set_option autoImplicit false

namespace RingBuffer

variable {α : Type*} {cap : ℕ} {buf buf' : ℕ → α} {read m n : ℕ}

/-- The `n` elements from the slot `read` on. -/
def contents (cap : ℕ) (buf : ℕ → α) (read n : ℕ) : List α :=
  (List.range n).map fun i => buf ((read + i) % cap)

@[simp] theorem length_contents : (contents cap buf read n).length = n := by
  simp [contents]

@[simp] theorem contents_zero : contents cap buf read 0 = [] :=
  rfl

theorem contents_congr (h : ∀ i < n, buf ((read + i) % cap) = buf' ((read + i) % cap)) :
    contents cap buf read n = contents cap buf' read n :=
  List.map_congr_left fun i hi => h i (List.mem_range.1 hi)

/-- A queue is its first `m` elements and the ones from the slot after them. -/
theorem contents_add :
    contents cap buf read (m + n) =
      contents cap buf read m ++ contents cap buf ((read + m) % cap) n := by
  rw [contents, List.range_add, List.map_append, List.map_map]
  congr 1
  apply List.map_congr_left
  intro i hi
  simp [Nat.add_assoc]

/-- Two slots of one lap are different. -/
theorem slot_ne {i j : ℕ} (hi : i < cap) (hj : j < cap) (h : i ≠ j) :
    (read + i) % cap ≠ (read + j) % cap := by
  intro hmod
  apply h
  have hij : i % cap = j % cap := Nat.ModEq.add_left_cancel' read hmod
  rwa [Nat.mod_eq_of_lt hi, Nat.mod_eq_of_lt hj] at hij

/-! ## Writing -/

/-- Writing the `i`-th slot after the queue does not change the queue. -/
theorem contents_update {i : ℕ} (x : α) (h : n + i < cap) :
    contents cap (Function.update buf (((read + n) % cap + i) % cap) x) read n =
      contents cap buf read n := by
  apply contents_congr
  intro j hj
  rw [Nat.mod_add_mod, Nat.add_assoc]
  exact Function.update_of_ne (slot_ne (by omega) h (by omega)) _ _

/-- The slots written so far : the next one is filled and the ones before it are kept. -/
theorem written_update {f : ℕ → α} {write i : ℕ} (hi : i < cap)
    (h : ∀ j < i, buf ((write + j) % cap) = f j) :
    ∀ j < i + 1, Function.update buf ((write + i) % cap) (f i) ((write + j) % cap) = f j := by
  intro j hj
  rcases Nat.lt_succ_iff_lt_or_eq.1 hj with hlt | rfl
  · rw [Function.update_of_ne (slot_ne (by omega) hi (by omega)), h j hlt]
  · rw [Function.update_self]

/-- The queue once `m` elements have been written after it. -/
theorem contents_append {f : ℕ → α}
    (h : ∀ j < m, buf (((read + n) % cap + j) % cap) = f j) :
    contents cap buf read (n + m) = contents cap buf read n ++ (List.range m).map f := by
  rw [contents_add]
  congr 1
  exact List.map_congr_left fun j hj => h j (List.mem_range.1 hj)

/-! ## Reading -/

/-- The places copied so far, in a block that is filled in order. -/
theorem copied_update {f : ℕ → α} {i : ℕ} (h : ∀ j < i, buf j = f j) :
    ∀ j < i + 1, Function.update buf i (f i) j = f j := by
  intro j hj
  rcases Nat.lt_succ_iff_lt_or_eq.1 hj with hlt | rfl
  · rw [Function.update_of_ne hlt.ne, h j hlt]
  · rw [Function.update_self]

/-- What a reader has copied from the front is the front of the queue. -/
theorem contents_take {f : ℕ → α} (h : ∀ j < m, f j = buf ((read + j) % cap)) :
    (List.range m).map f = contents cap buf read m :=
  List.map_congr_left fun j hj => h j (List.mem_range.1 hj)

/-- The first `m` elements of a queue and the queue after they are read. -/
theorem contents_drop (h : m ≤ n) :
    contents cap buf read m ++ contents cap buf ((read + m) % cap) (n - m) =
      contents cap buf read n := by
  rw [← contents_add, Nat.add_sub_of_le h]

/-! ## A ring that keeps the end of a stream -/

/-- A ring whose next slot is `head` keeps the last `n` elements of the stream `w`, the older
ones having been written over. -/
structure Logs (cap : ℕ) (buf : ℕ → α) (head n : ℕ) (w : List α) : Prop where
  head_lt : head < cap
  count : n = min cap w.length
  newest : ∀ k < n, w.reverse[k]? = some (buf ((head + (cap - 1 - k)) % cap))

theorem Logs.nil (h : 0 < cap) : Logs cap buf 0 0 [] :=
  ⟨h, by simp, fun k hk => absurd hk k.not_lt_zero⟩

/-- One more element, in the place of the oldest one if the ring is full. -/
theorem Logs.push {head : ℕ} {w : List α} (h : Logs cap buf head n w) (x : α) :
    Logs cap (Function.update buf head x) ((head + 1) % cap) (if n < cap then n + 1 else n)
      (w ++ [x]) := by
  have hhead := h.head_lt
  have hcount := h.count
  refine ⟨Nat.mod_lt _ (by omega), ?_, fun k hk => ?_⟩
  · rw [List.length_append, List.length_singleton]
    split_ifs <;> omega
  · have hk' : k < cap ∧ (k = 0 ∨ k - 1 < n) := by
      split_ifs at hk <;> omega
    rw [List.reverse_append, Nat.mod_add_mod]
    cases k with
    | zero =>
      have hslot : (head + 1 + (cap - 1 - 0)) % cap = head := by
        rw [show head + 1 + (cap - 1 - 0) = head + cap by omega, Nat.add_mod_right,
          Nat.mod_eq_of_lt hhead]
      rw [hslot, Function.update_self]
      rfl
    | succ k =>
      have hslot : head + 1 + (cap - 1 - (k + 1)) = head + (cap - 1 - k) := by omega
      have hne : (head + (cap - 1 - k)) % cap ≠ head := by
        intro heq
        have hself : (head + 0) % cap = head := by rw [Nat.add_zero, Nat.mod_eq_of_lt hhead]
        exact slot_ne (i := cap - 1 - k) (j := 0) (by omega) (by omega) (by omega)
          (heq.trans hself.symm)
      rw [hslot, Function.update_of_ne hne]
      exact h.newest k (by omega)

/-- The last `m` elements of the stream, read off the ring in order. -/
theorem Logs.recent {head : ℕ} {w : List α} (h : Logs cap buf head n w) (hm : m ≤ n) :
    contents cap buf ((head + cap - m) % cap) m = w.drop (w.length - m) := by
  have hhead := h.head_lt
  have hcount := h.count
  refine List.ext_getElem (by simp; omega) fun i hi _ => ?_
  rw [length_contents] at hi
  have hnew := h.newest (m - 1 - i) (by omega)
  rw [List.getElem?_reverse (by omega), show w.length - 1 - (m - 1 - i) = w.length - m + i by omega,
    show head + (cap - 1 - (m - 1 - i)) = head + cap - m + i by omega,
    List.getElem?_eq_some_iff] at hnew
  obtain ⟨_, hnew⟩ := hnew
  simp [contents, hnew]

end RingBuffer
