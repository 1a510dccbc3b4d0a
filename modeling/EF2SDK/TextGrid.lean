import Mathlib.Data.List.Basic
import Mathlib.Data.Nat.ModEq
import Mathlib.Tactic.SplitIfs

/-!
# A text in a grid of cells

A pen writes a text into a grid of `columns` columns, one character to a cell. It begins the next
row at a newline, and goes on in the next row when one is full; some characters are skipped, and
nothing is begun from the row `limit` on (`layout`).

So a line of `n` characters takes `rows columns n` rows of the grid, and its `i`-th character stands
in the row `i / columns` of them, in the column `i % columns` (`cell`). `mem_layout_iff` : the cells
above the limit have the characters of the lines that way, however the pen got there.
-/

set_option autoImplicit false

namespace TextGrid

variable {α : Type*}

section Layout

variable [DecidableEq α]

/-- The cells that the pen writes, from a row and a column on. -/
def layout (newline skip : α) (limit columns : ℕ) : List α → (row column : ℕ) → List ((ℕ × ℕ) × α)
  | [], _, _ => []
  | a :: text, row, column =>
    if row < limit then
      if a = skip then layout newline skip limit columns text row column
      else if a = newline then layout newline skip limit columns text (row + 1) 0
      else
        let c := if columns ≤ column then (row + 1, 0) else (row, column)
        (c, a) :: layout newline skip limit columns text c.1 (c.2 + 1)
    else []

/-- The lines of a text. -/
def lines (newline skip : α) (text : List α) : List (List α) :=
  (text.filter (· ≠ skip)).splitOn newline

end Layout

/-- The cell of the `i`-th character of a line that begins in the row `row`. -/
def cell (columns row i : ℕ) : ℕ × ℕ :=
  (row + i / columns, i % columns)

/-- The rows that a line of `n` characters takes. -/
def rows (columns n : ℕ) : ℕ :=
  (n - 1) / columns + 1

/-- The lines, the first of them in the row `row`, have the character `a` in the cell `c`. -/
def Stands (columns : ℕ) : (row : ℕ) → List (List α) → ℕ × ℕ → α → Prop
  | _, [], _, _ => False
  | row, l :: lines, c, a =>
    (∃ i, l[i]? = some a ∧ c = cell columns row i) ∨
      Stands columns (row + rows columns l.length) lines c a

/-- The pen, when `i` characters of a line that begins in the row `row` are written. -/
def pen (columns row i : ℕ) : ℕ × ℕ :=
  if i = 0 then (row, 0) else (row + (i - 1) / columns, (i - 1) % columns + 1)

variable {newline skip a : α} {limit columns row i : ℕ} {c : ℕ × ℕ} {text : List α}
  {ls : List (List α)}

/-! ## The pen -/

/-- The pen writes the next character of a line in its cell. -/
theorem cell_eq_pen (hcolumns : 0 < columns) (row i : ℕ) :
    cell columns row i =
      if columns ≤ (pen columns row i).2 then ((pen columns row i).1 + 1, 0)
      else pen columns row i := by
  cases i with
  | zero =>
    rw [pen, if_pos rfl, if_neg (Nat.not_le.2 hcolumns), cell, Nat.zero_div, Nat.zero_mod]
    rfl
  | succ k =>
    have hmod := Nat.mod_lt k hcolumns
    have hdiv := Nat.mod_add_div k columns
    rw [pen, if_neg (Nat.succ_ne_zero k), Nat.add_sub_cancel, cell]
    dsimp only
    split_ifs with hfull
    · obtain ⟨hd, hm⟩ := (Nat.div_mod_unique (a := k + 1) (d := k / columns + 1) (c := 0)
        hcolumns).2 ⟨by rw [Nat.mul_succ]; omega, hcolumns⟩
      rw [hd, hm, Nat.add_assoc]
    · obtain ⟨hd, hm⟩ := (Nat.div_mod_unique (a := k + 1) (d := k / columns)
        (c := k % columns + 1) hcolumns).2 ⟨by omega, by omega⟩
      rw [hd, hm]

theorem pen_succ (columns row i : ℕ) :
    pen columns row (i + 1) = ((cell columns row i).1, (cell columns row i).2 + 1) := by
  rw [pen, if_neg (Nat.succ_ne_zero i), Nat.add_sub_cancel, cell]

/-- The next line begins under the rows of this one. -/
theorem pen_newline (columns row i : ℕ) :
    (pen columns row i).1 + 1 = row + rows columns i := by
  rw [pen, rows]
  split_ifs with hzero
  · subst hzero
    rw [Nat.zero_sub, Nat.zero_div]
  · rw [Nat.add_assoc]

/-- Nothing stands above the first row. -/
theorem Stands.le (h : Stands columns row ls c a) : row ≤ c.1 := by
  induction ls generalizing row with
  | nil => exact h.elim
  | cons l ls ih =>
    rcases h with ⟨i, -, rfl⟩ | h
    · exact Nat.le_add_right _ _
    · exact Nat.le_trans (Nat.le_add_right _ _) (ih h)

/-- A cell has at most one character. -/
theorem Stands.unique {b : α} (ha : Stands columns row ls c a) (hb : Stands columns row ls c b) :
    a = b := by
  induction ls generalizing row with
  | nil => exact ha.elim
  | cons l ls ih =>
    have habove : ∀ {i : ℕ} {x : α}, l[i]? = some x →
        (cell columns row i).1 < row + rows columns l.length := fun {i x} hi => by
      obtain ⟨hlt, -⟩ := List.getElem?_eq_some_iff.1 hi
      have hle : i / columns ≤ (l.length - 1) / columns := Nat.div_le_div_right (by omega)
      simp only [cell, rows]
      omega
    rcases ha with ⟨i, hi, rfl⟩ | ha
    · rcases hb with ⟨j, hj, hij⟩ | hb
      · -- the row and the column are those of one index
        have hdiv : i / columns = j / columns := Nat.add_left_cancel (congrArg Prod.fst hij)
        have hmod : i % columns = j % columns := congrArg Prod.snd hij
        have hindex : i = j := by
          rw [← Nat.mod_add_div i columns, ← Nat.mod_add_div j columns, hdiv, hmod]
        subst hindex
        exact Option.some.inj (hi.symm.trans hj)
      · exact absurd hb.le (Nat.not_le.2 (habove hi))
    · rcases hb with ⟨j, hj, rfl⟩ | hb
      · exact absurd ha.le (Nat.not_le.2 (habove hj))
      · exact ih ha hb

/-- From the pen's row on there is nothing above it. -/
theorem pen_le {l : List α}
    (h : (∃ k, l[k]? = some a ∧ c = cell columns row (i + k)) ∨
      Stands columns (row + rows columns (i + l.length)) ls c a) :
    (pen columns row i).1 ≤ c.1 := by
  have hpen : (pen columns row i).1 ≤ row + i / columns := by
    rw [pen]
    split_ifs with hzero
    · exact Nat.le_add_right _ _
    · exact Nat.add_le_add_left (Nat.div_le_div_right (Nat.sub_le i 1)) row
  rcases h with ⟨k, -, rfl⟩ | h
  · exact Nat.le_trans hpen
      (Nat.add_le_add_left (Nat.div_le_div_right (Nat.le_add_right i k)) row)
  · have hnext := pen_newline columns row i
    have hmono : rows columns i ≤ rows columns (i + l.length) :=
      Nat.succ_le_succ (Nat.div_le_div_right (by omega))
    have hbelow := h.le
    omega

/-! ## The layout -/

section Decidable

variable [DecidableEq α]

theorem lines_ne_nil (newline skip : α) (text : List α) : lines newline skip text ≠ [] :=
  List.splitOn_ne_nil _ _

theorem lines_cons (newline : α) {skip b : α} (hskip : b ≠ skip) (text : List α) :
    lines newline skip (b :: text) =
      if b = newline then [] :: lines newline skip text
      else (lines newline skip text).modifyHead (b :: ·) := by
  rw [lines, List.filter_cons_of_pos (by simpa using hskip), List.splitOn_cons_eq_if_modifyHead]
  simp only [beq_iff_eq]
  rfl

/-- The rest of a text, of whose first line `i` characters are written. -/
theorem mem_layout_pen (hcolumns : 0 < columns) (hc : c.1 < limit) (text : List α) (row i : ℕ)
    {l : List α} (hlines : lines newline skip text = l :: ls) :
    (c, a) ∈ layout newline skip limit columns text (pen columns row i).1 (pen columns row i).2 ↔
      (∃ k, l[k]? = some a ∧ c = cell columns row (i + k)) ∨
        Stands columns (row + rows columns (i + l.length)) ls c a := by
  induction text generalizing row i l ls with
  | nil =>
    obtain ⟨rfl, rfl⟩ := List.cons.inj (show [[]] = l :: ls from hlines)
    simp [layout, Stands]
  | cons b text ih =>
    rw [layout]
    by_cases hrow : (pen columns row i).1 < limit
    · rw [if_pos hrow]
      by_cases hskip : b = skip
      · rw [if_pos hskip]
        refine ih row i ?_
        rw [← hlines, lines, lines, List.filter_cons_of_neg (by simpa using hskip)]
      rw [if_neg hskip]
      rw [lines_cons newline hskip] at hlines
      obtain ⟨l', ls', hrest⟩ := List.exists_cons_of_ne_nil (lines_ne_nil newline skip text)
      by_cases hnewline : b = newline
      · rw [if_pos hnewline] at hlines ⊢
        obtain ⟨rfl, rfl⟩ := List.cons.inj hlines
        have hnext := ih (row + rows columns i) 0 hrest
        rw [← pen_newline] at hnext
        rw [hrest, Stands, List.length_nil, Nat.add_zero, ← pen_newline]
        simpa [pen] using hnext
      · rw [if_neg hnewline] at hlines ⊢
        rw [hrest, List.modifyHead_cons] at hlines
        obtain ⟨rfl, rfl⟩ := List.cons.inj hlines
        have hnext := ih row (i + 1) hrest
        rw [pen_succ] at hnext
        dsimp only
        rw [Prod.mk.eta, ← cell_eq_pen hcolumns, List.mem_cons, hnext, Prod.mk.injEq,
          List.length_cons, Nat.add_assoc, Nat.add_comm 1, ← or_assoc]
        refine or_congr_left ⟨?_, ?_⟩
        · rintro (⟨rfl, rfl⟩ | ⟨k, hk, rfl⟩)
          · exact ⟨0, rfl, rfl⟩
          · exact ⟨k + 1, hk, by rw [Nat.add_assoc, Nat.add_comm 1]⟩
        · rintro ⟨k, hk, rfl⟩
          cases k with
          | zero => exact Or.inl ⟨rfl, (Option.some.inj hk).symm⟩
          | succ k => exact Or.inr ⟨k, hk, by rw [Nat.add_assoc, Nat.add_comm 1]⟩
    · -- the pen is at the limit, and what is left of the text stands there and below
      rw [if_neg hrow]
      refine iff_of_false (by simp) fun h => ?_
      have hle := pen_le h
      omega

/-- The cells above the limit have the characters of the lines. -/
theorem mem_layout_iff (hcolumns : 0 < columns) (hc : c.1 < limit) (text : List α) :
    (c, a) ∈ layout newline skip limit columns text row 0 ↔
      Stands columns row (lines newline skip text) c a := by
  obtain ⟨l, ls, hlines⟩ := List.exists_cons_of_ne_nil (lines_ne_nil newline skip text)
  have hpen := mem_layout_pen (a := a) hcolumns hc text row 0 hlines
  rw [hlines, Stands]
  simpa [pen] using hpen

/-- The cells are in the columns of the grid, and in rows from the pen's to the limit. -/
theorem layout_bounds (hcolumns : 0 < columns) {column : ℕ}
    (h : (c, a) ∈ layout newline skip limit columns text row column) :
    row ≤ c.1 ∧ c.1 ≤ limit ∧ c.2 < columns := by
  induction text generalizing row column with
  | nil => exact absurd h List.not_mem_nil
  | cons b text ih =>
    rw [layout] at h
    by_cases hrow : row < limit
    · rw [if_pos hrow] at h
      by_cases hskip : b = skip
      · rw [if_pos hskip] at h
        exact ih h
      rw [if_neg hskip] at h
      by_cases hnewline : b = newline
      · rw [if_pos hnewline] at h
        obtain ⟨hle, hlimit, hlt⟩ := ih h
        exact ⟨by omega, hlimit, hlt⟩
      · rw [if_neg hnewline] at h
        dsimp only at h
        split_ifs at h with hfull
        · rcases List.mem_cons.1 h with hhead | htail
          · obtain ⟨rfl, rfl⟩ := Prod.mk.inj hhead
            exact ⟨Nat.le_succ row, hrow, hcolumns⟩
          · obtain ⟨hle, hlimit, hlt⟩ := ih htail
            exact ⟨by omega, hlimit, hlt⟩
        · rcases List.mem_cons.1 h with hhead | htail
          · obtain ⟨rfl, rfl⟩ := Prod.mk.inj hhead
            exact ⟨Nat.le_refl row, Nat.le_of_lt hrow, Nat.not_le.1 hfull⟩
          · exact ih htail
    · rw [if_neg hrow] at h
      exact absurd h List.not_mem_nil

/-- The pen moves one column for a character at most. -/
theorem layout_length {column : ℕ}
    (h : (c, a) ∈ layout newline skip limit columns text row column) :
    c.2 < column + text.length := by
  induction text generalizing row column with
  | nil => exact absurd h List.not_mem_nil
  | cons b text ih =>
    rw [List.length_cons]
    rw [layout] at h
    split_ifs at h with hrow hskip heq hfull
    · exact Nat.lt_trans (ih h) (by omega)
    · exact Nat.lt_of_lt_of_le (ih h) (by omega)
    · rcases List.mem_cons.1 h with hhead | htail
      · obtain ⟨rfl, -⟩ := Prod.mk.inj hhead
        exact Nat.lt_of_lt_of_le (Nat.succ_pos _) (Nat.le_add_left _ _)
      · exact Nat.lt_of_lt_of_le (ih htail) (by omega)
    · rcases List.mem_cons.1 h with hhead | htail
      · obtain ⟨rfl, -⟩ := Prod.mk.inj hhead
        omega
      · exact Nat.lt_of_lt_of_le (ih htail) (by omega)
    · exact absurd h List.not_mem_nil

/-- The pen stays in its row as long as the row has room for the text. -/
theorem layout_row {column : ℕ} (hnewline : newline ∉ text)
    (hroom : column + text.length ≤ columns)
    (h : (c, a) ∈ layout newline skip limit columns text row column) : c.1 = row := by
  induction text generalizing column with
  | nil => exact absurd h List.not_mem_nil
  | cons b text ih =>
    rw [List.mem_cons, not_or] at hnewline
    rw [List.length_cons] at hroom
    rw [layout] at h
    split_ifs at h with hrow hskip heq hfull
    · exact ih hnewline.2 (by omega) h
    · exact absurd heq (Ne.symm hnewline.1)
    · omega
    · rcases List.mem_cons.1 h with hhead | htail
      · exact congrArg Prod.fst (Prod.mk.inj hhead).1
      · exact ih hnewline.2 (by omega) htail
    · exact absurd h List.not_mem_nil

/-- A text without newlines and without skipped characters is one line. -/
theorem lines_of_line (hnewline : newline ∉ text) (hskip : skip ∉ text) :
    lines newline skip text = [text] := by
  induction text with
  | nil => rfl
  | cons b text ih =>
    rw [List.mem_cons, not_or] at hnewline hskip
    rw [lines_cons newline (Ne.symm hskip.1), if_neg (Ne.symm hnewline.1),
      ih hnewline.2 hskip.2]
    rfl

end Decidable

/-- What stands in a row of its own. -/
theorem stands_line_iff (hlength : text.length ≤ columns) :
    Stands columns row [text] c a ↔ c.1 = row ∧ text[c.2]? = some a := by
  rw [Stands, Stands, or_false]
  constructor
  · rintro ⟨i, hi, rfl⟩
    obtain ⟨hlt, -⟩ := List.getElem?_eq_some_iff.1 hi
    have hcolumn : i < columns := by omega
    rw [cell, Nat.div_eq_of_lt hcolumn, Nat.mod_eq_of_lt hcolumn]
    exact ⟨rfl, hi⟩
  · rintro ⟨rfl, hi⟩
    obtain ⟨hlt, -⟩ := List.getElem?_eq_some_iff.1 hi
    have hcolumn : c.2 < columns := by omega
    refine ⟨c.2, hi, ?_⟩
    rw [cell, Nat.div_eq_of_lt hcolumn, Nat.mod_eq_of_lt hcolumn]
    rfl

end TextGrid
