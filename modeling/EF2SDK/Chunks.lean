import Mathlib.Data.List.Chain
import Mathlib.Data.List.Pairwise

/-!
# Chunked regions

A region cut into chunks, each a header of `h` bytes followed by a payload, is a list of
payload sizes with a mark for the ones in use : the address of a chunk is the start of the
region plus the spans of the chunks before it (`cells`). An edit replaces a few chunks in
the middle by others of the same total span, and leaves every other chunk where it was
(`mem_cells_middle`).

The three edits of a boundary-tag allocator work on the list from a chunk on : mark it
(`setUsed`), cut it in two (`split`), let it take in a free successor (`absorb`). Each
tiles the same region and moves no other chunk in use (`HeadEdit`).

`NoFreeNeighbours` is the property coalescing keeps : of two neighbouring chunks one is in
use.
-/

set_option autoImplicit false

namespace Chunks

structure Chunk where
  size : ℕ
  used : Bool
  deriving DecidableEq

variable {h a b : ℕ} {c d : Chunk} {l r cs : List Chunk}

/-- The bytes a list of chunks covers, headers included. -/
def extent (h : ℕ) : List Chunk → ℕ
  | [] => 0
  | c :: cs => h + c.size + extent h cs

@[simp] theorem extent_nil : extent h [] = 0 :=
  rfl

@[simp] theorem extent_cons : extent h (c :: cs) = h + c.size + extent h cs :=
  rfl

@[simp] theorem extent_append : extent h (l ++ r) = extent h l + extent h r := by
  induction l with
  | nil => simp
  | cons c l ih => simp [ih, Nat.add_assoc]

theorem length_mul_le_extent : cs.length * h ≤ extent h cs := by
  induction cs with
  | nil => simp
  | cons c cs ih =>
    rw [List.length_cons, extent_cons, Nat.add_mul]
    omega

/-- The chunks of the region from `a` on, with their addresses. -/
def cells (h : ℕ) : ℕ → List Chunk → List (ℕ × Chunk)
  | _, [] => []
  | a, c :: cs => (a, c) :: cells h (a + (h + c.size)) cs

@[simp] theorem cells_nil : cells h a [] = [] :=
  rfl

@[simp] theorem cells_cons :
    cells h a (c :: cs) = (a, c) :: cells h (a + (h + c.size)) cs :=
  rfl

@[simp] theorem cells_append :
    cells h a (l ++ r) = cells h a l ++ cells h (a + extent h l) r := by
  induction l generalizing a with
  | nil => simp
  | cons c l ih => simp [ih, Nat.add_assoc]

theorem exists_of_mem_cells (hb : (b, c) ∈ cells h a cs) :
    ∃ l r, cs = l ++ c :: r ∧ b = a + extent h l := by
  induction cs generalizing a with
  | nil => simp at hb
  | cons d cs ih =>
    rcases List.mem_cons.1 hb with heq | hb
    · obtain ⟨rfl, rfl⟩ := Prod.mk.inj heq
      exact ⟨[], cs, rfl, by simp⟩
    · obtain ⟨l, r, rfl, rfl⟩ := ih hb
      exact ⟨d :: l, r, rfl, by simp [Nat.add_assoc]⟩

/-- A chunk lies inside the region. -/
theorem bounds_of_mem_cells (hb : (b, c) ∈ cells h a cs) :
    a ≤ b ∧ b + (h + c.size) ≤ a + extent h cs := by
  obtain ⟨l, r, rfl, rfl⟩ := exists_of_mem_cells hb
  simp
  omega

/-- Two chunks of the region are the same one or do not overlap. -/
theorem cells_disjoint {b' : ℕ} {c' : Chunk} (hb : (b, c) ∈ cells h a cs)
    (hb' : (b', c') ∈ cells h a cs) :
    b = b' ∧ c = c' ∨ b + (h + c.size) ≤ b' ∨ b' + (h + c'.size) ≤ b := by
  induction cs generalizing a with
  | nil => simp at hb
  | cons d cs ih =>
    rcases List.mem_cons.1 hb with heq | hb <;> rcases List.mem_cons.1 hb' with heq' | hb'
    · obtain ⟨rfl, rfl⟩ := Prod.mk.inj heq
      obtain ⟨rfl, rfl⟩ := Prod.mk.inj heq'
      exact Or.inl ⟨rfl, rfl⟩
    · obtain ⟨rfl, rfl⟩ := Prod.mk.inj heq
      exact Or.inr (Or.inl (bounds_of_mem_cells hb').1)
    · obtain ⟨rfl, rfl⟩ := Prod.mk.inj heq'
      exact Or.inr (Or.inr (bounds_of_mem_cells hb).1)
    · exact ih hb hb'

/-- Two chunks at one address are the same one. -/
theorem eq_of_mem_cells (hh : 0 < h) {c' : Chunk} (hb : (b, c) ∈ cells h a cs)
    (hb' : (b, c') ∈ cells h a cs) : c = c' := by
  rcases cells_disjoint hb hb' with ⟨-, hc⟩ | hlt | hlt
  · exact hc
  · omega
  · omega

/-! ## Edits -/

/-- Mark the first chunk. -/
def setUsed (u : Bool) : List Chunk → List Chunk
  | [] => []
  | c :: r => ⟨c.size, u⟩ :: r

/-- Cut the first chunk down to `w` bytes, if the rest has room for a header and `g` bytes. -/
def split (h g w : ℕ) : List Chunk → List Chunk
  | [] => []
  | c :: r => if w + (h + g) ≤ c.size then ⟨w, c.used⟩ :: ⟨c.size - w - h, false⟩ :: r else c :: r

/-- Let the first chunk take in the second one, if that one is free. -/
def absorb (h : ℕ) : List Chunk → List Chunk
  | c :: d :: r => if d.used then c :: d :: r else ⟨c.size + (h + d.size), c.used⟩ :: r
  | cs => cs

@[simp] theorem setUsed_cons (u : Bool) : setUsed u (c :: r) = ⟨c.size, u⟩ :: r :=
  rfl

theorem split_cons (g w : ℕ) : split h g w (c :: r) =
    if w + (h + g) ≤ c.size then ⟨w, c.used⟩ :: ⟨c.size - w - h, false⟩ :: r else c :: r :=
  rfl

theorem absorb_cons_cons : absorb h (c :: d :: r) =
    if d.used then c :: d :: r else ⟨c.size + (h + d.size), c.used⟩ :: r :=
  rfl

/-- Coalesce a chunk just freed, the first of `cs`, with the free neighbours it has : the
one after it, then the last of the chunks `l` before it. -/
def release (h : ℕ) (l cs : List Chunk) : List Chunk :=
  match l.getLast? with
  | none => absorb h cs
  | some d => if d.used then l ++ absorb h cs else l.dropLast ++ absorb h (d :: absorb h cs)

@[simp] theorem release_nil : release h [] cs = absorb h cs :=
  rfl

@[simp] theorem release_concat : release h (l ++ [d]) cs =
    if d.used then l ++ d :: absorb h cs else l ++ absorb h (d :: absorb h cs) := by
  simp [release]

/-- The number of chunks in use. -/
def countUsed (cs : List Chunk) : ℕ :=
  cs.countP (·.used)

/-- What an edit of the first chunk leaves as it was : the region it tiles, and the chunks in
use apart from the first. -/
structure HeadEdit (h : ℕ) (cs cs' : List Chunk) : Prop where
  ne_nil : cs' ≠ []
  extent : extent h cs' = extent h cs
  used : ∀ {a b k}, b ≠ a → ((b, ⟨k, true⟩) ∈ cells h a cs' ↔ (b, ⟨k, true⟩) ∈ cells h a cs)

theorem HeadEdit.trans {cs' cs'' : List Chunk} (h₁ : HeadEdit h cs cs')
    (h₂ : HeadEdit h cs' cs'') : HeadEdit h cs cs'' :=
  ⟨h₂.ne_nil, h₂.extent.trans h₁.extent, fun hb => (h₂.used hb).trans (h₁.used hb)⟩

theorem headEdit_setUsed (u : Bool) (hne : cs ≠ []) : HeadEdit h cs (setUsed u cs) := by
  obtain ⟨c, r, rfl⟩ := List.exists_cons_of_ne_nil hne
  refine ⟨by simp [setUsed], rfl, fun hb => ?_⟩
  simp [setUsed, hb]

theorem headEdit_split (g w : ℕ) (hne : cs ≠ []) : HeadEdit h cs (split h g w cs) := by
  obtain ⟨c, r, rfl⟩ := List.exists_cons_of_ne_nil hne
  rw [split_cons]
  split_ifs with hw
  · have hsize : h + (w + (c.size - w - h)) = c.size := by omega
    refine ⟨by simp, by simp; omega, fun {a b k} hb => ?_⟩
    simp [hb, Nat.add_assoc, Nat.add_left_comm w h, hsize]
  · exact ⟨by simp, rfl, fun _ => Iff.rfl⟩

theorem headEdit_absorb (hne : cs ≠ []) : HeadEdit h cs (absorb h cs) := by
  obtain ⟨c, r, rfl⟩ := List.exists_cons_of_ne_nil hne
  rcases r with _ | ⟨d, r⟩
  · exact ⟨by simp [absorb], rfl, fun _ => Iff.rfl⟩
  · rw [absorb_cons_cons]
    split_ifs with hd
    · exact ⟨by simp, rfl, fun _ => Iff.rfl⟩
    · refine ⟨by simp, by simp; omega, fun {a b k} hb => ?_⟩
      have hne : (⟨k, true⟩ : Chunk) ≠ d := fun heq => hd (heq ▸ rfl)
      simp [hb, hne, Nat.add_assoc]

theorem exists_absorb_eq : ∃ k r', absorb h (c :: r) = ⟨k, c.used⟩ :: r' ∧ c.size ≤ k := by
  rcases r with _ | ⟨d, r⟩
  · exact ⟨c.size, [], rfl, Nat.le_refl _⟩
  · rw [absorb_cons_cons]
    split_ifs with hd
    · exact ⟨c.size, d :: r, rfl, Nat.le_refl _⟩
    · exact ⟨_, r, rfl, by omega⟩

/-- A free chunk that takes in another one moves no chunk in use. -/
theorem used_absorb_of_free (hc : c.used = false) {k : ℕ} :
    (b, ⟨k, true⟩) ∈ cells h a (absorb h (c :: r)) ↔ (b, ⟨k, true⟩) ∈ cells h a (c :: r) := by
  have hne : (⟨k, true⟩ : Chunk) ≠ c := fun heq => by simp [← heq] at hc
  rcases r with _ | ⟨d, r⟩
  · exact Iff.rfl
  · rw [absorb_cons_cons]
    split_ifs with hd
    · exact Iff.rfl
    · have hned : (⟨k, true⟩ : Chunk) ≠ d := fun heq => hd (heq ▸ rfl)
      simp [hc, hne, hned, Nat.add_assoc]

/-- Releasing a chunk moves no chunk in use. -/
theorem used_release {k n : ℕ} : (b, ⟨k, true⟩) ∈ cells h a (release h l (⟨n, false⟩ :: r)) ↔
    (b, ⟨k, true⟩) ∈ cells h a (l ++ ⟨n, false⟩ :: r) := by
  rcases List.eq_nil_or_concat' l with rfl | ⟨l, d, rfl⟩
  · exact used_absorb_of_free rfl
  · obtain ⟨m, r', habsorb, -⟩ := exists_absorb_eq (h := h) (c := ⟨n, false⟩) (r := r)
    have hright := used_absorb_of_free (h := h) (b := b)
      (a := a + extent h l + (h + d.size)) (c := ⟨n, false⟩) (r := r) rfl (k := k)
    rw [release_concat]
    split_ifs with hd
    · simp [hright]
    · rw [cells_append, List.mem_append, habsorb,
        used_absorb_of_free (by simpa using hd), ← habsorb, cells_cons, List.mem_cons, hright]
      simp

/-- In the whole region an edit keeps the chunks in use apart from the one edited. -/
theorem HeadEdit.used_append {cs' : List Chunk} (he : HeadEdit h cs cs') {k : ℕ}
    (hb : b ≠ a + Chunks.extent h l) :
    (b, ⟨k, true⟩) ∈ cells h a (l ++ cs') ↔ (b, ⟨k, true⟩) ∈ cells h a (l ++ cs) := by
  simp [he.used hb]

/-- The first chunk after a split : at most what it was, and at least the bytes asked for
if it had them. -/
theorem exists_split_eq (g w : ℕ) : ∃ k r', split h g w (c :: r) = ⟨k, c.used⟩ :: r' ∧
    k ≤ c.size ∧ (w ≤ c.size → w ≤ k) := by
  rw [split_cons]
  split_ifs with hw
  · exact ⟨w, _, rfl, by omega, fun _ => Nat.le_refl w⟩
  · exact ⟨c.size, r, rfl, Nat.le_refl _, id⟩

/-- An edit by multiples of the alignment keeps every size a multiple. -/
theorem dvd_split {g n w : ℕ} (hh : n ∣ h) (hw : n ∣ w) (hcs : ∀ c ∈ cs, n ∣ c.size) :
    ∀ c ∈ split h g w cs, n ∣ c.size := by
  rcases cs with _ | ⟨c, r⟩
  · simp [split]
  · have hc := hcs c List.mem_cons_self
    have hrest := Nat.dvd_sub (Nat.dvd_sub hc hw) hh
    have hr : ∀ d ∈ r, n ∣ d.size := fun d hd => hcs d (List.mem_cons_of_mem c hd)
    rw [split_cons]
    split_ifs
    · simpa [hw, hrest] using hr
    · exact hcs

theorem dvd_absorb {n : ℕ} (hh : n ∣ h) (hcs : ∀ c ∈ cs, n ∣ c.size) :
    ∀ c ∈ absorb h cs, n ∣ c.size := by
  rcases cs with _ | ⟨c, _ | ⟨d, r⟩⟩
  · exact hcs
  · exact hcs
  · have hc := hcs c (by simp)
    have hd := hcs d (by simp)
    have hsum := Nat.dvd_add hc (Nat.dvd_add hh hd)
    rw [absorb_cons_cons]
    split_ifs
    · exact hcs
    · simpa [hsum] using fun e he => hcs e (by simp [he])

theorem dvd_setUsed {n : ℕ} (u : Bool) (hcs : ∀ c ∈ cs, n ∣ c.size) :
    ∀ c ∈ setUsed u cs, n ∣ c.size := by
  rcases cs with _ | ⟨c, r⟩
  · exact hcs
  · simpa [setUsed] using hcs

/-! ## Counting the chunks in use -/

@[simp] theorem countUsed_append : countUsed (l ++ r) = countUsed l + countUsed r :=
  List.countP_append

theorem countUsed_split (g w : ℕ) : countUsed (split h g w cs) = countUsed cs := by
  rcases cs with _ | ⟨c, r⟩
  · rfl
  · rw [split_cons]
    split_ifs <;> simp [countUsed, List.countP_cons]

theorem countUsed_absorb : countUsed (absorb h cs) = countUsed cs := by
  rcases cs with _ | ⟨c, _ | ⟨d, r⟩⟩
  · rfl
  · rfl
  · rw [absorb_cons_cons]
    split_ifs with hd <;> simp [countUsed, List.countP_cons, hd]

theorem countUsed_setUsed_false (hc : c.used = true) :
    countUsed (setUsed false (c :: r)) + 1 = countUsed (c :: r) := by
  simp [countUsed, hc]

/-! ## Free bytes -/

/-- The payload bytes of the free chunks. -/
def freeBytes : List Chunk → ℕ
  | [] => 0
  | c :: cs => if c.used then freeBytes cs else c.size + freeBytes cs

/-- The payload of the largest free chunk, or `0`. -/
def largestFree : List Chunk → ℕ
  | [] => 0
  | c :: cs => if c.used then largestFree cs else max c.size (largestFree cs)

theorem freeBytes_le_extent : freeBytes cs ≤ extent h cs := by
  induction cs with
  | nil => simp [freeBytes]
  | cons c cs ih =>
    rw [freeBytes, extent_cons]
    split_ifs
    · omega
    · omega

/-! ## Free neighbours -/

/-- Of two neighbouring chunks one is in use. -/
def NoFreeNeighbours (cs : List Chunk) : Prop :=
  cs.IsChain fun c d => c.used = true ∨ d.used = true

/-- What the parts of a list around its seam must meet. -/
theorem noFreeNeighbours_append_cons : NoFreeNeighbours (l ++ c :: r) ↔
    NoFreeNeighbours l ∧ NoFreeNeighbours (c :: r) ∧
      ∀ d ∈ l.getLast?, d.used = true ∨ c.used = true := by
  simp [NoFreeNeighbours, List.isChain_append]

theorem noFreeNeighbours_cons : NoFreeNeighbours (c :: r) ↔
    (∀ d ∈ r.head?, c.used = true ∨ d.used = true) ∧ NoFreeNeighbours r :=
  List.isChain_cons

theorem noFreeNeighbours_iff : NoFreeNeighbours cs ↔
    ∀ l c d r, cs = l ++ c :: d :: r → c.used = true ∨ d.used = true := by
  constructor
  · rintro hn l c d r rfl
    exact (noFreeNeighbours_cons.1 (noFreeNeighbours_append_cons.1 hn).2.1).1 d rfl
  · intro h
    induction cs with
    | nil => exact List.isChain_nil
    | cons c cs ih =>
      refine noFreeNeighbours_cons.2 ⟨fun d hd => ?_, ih fun l e f r he => ?_⟩
      · obtain ⟨r, rfl⟩ : ∃ r, cs = d :: r := List.head?_eq_some_iff.1 hd
        exact h [] c d r rfl
      · exact h (c :: l) e f r (by rw [he]; rfl)

/-- A chunk in use separates whatever lies around it. -/
theorem noFreeNeighbours_of_used (hc : c.used = true) :
    NoFreeNeighbours (l ++ c :: r) ↔ NoFreeNeighbours l ∧ NoFreeNeighbours r := by
  simp [noFreeNeighbours_append_cons, noFreeNeighbours_cons, hc]

/-- A chunk may be cut and handed out when no free one follows it. -/
theorem NoFreeNeighbours.allocate {g w : ℕ} (hl : NoFreeNeighbours l) (hr : NoFreeNeighbours r)
    (hhead : ∀ d ∈ r.head?, d.used = true) :
    NoFreeNeighbours (l ++ setUsed true (split h g w (c :: r))) := by
  rw [split_cons]
  split_ifs
  · rw [setUsed_cons, noFreeNeighbours_of_used rfl]
    exact ⟨hl, noFreeNeighbours_cons.2 ⟨fun d hd => Or.inr (hhead d hd), hr⟩⟩
  · rw [setUsed_cons, noFreeNeighbours_of_used rfl]
    exact ⟨hl, hr⟩

/-- Cutting a chunk in use makes free neighbours exactly when it is cut before a free one. -/
theorem noFreeNeighbours_split {g w : ℕ} (hc : c.used = true) :
    NoFreeNeighbours (l ++ split h g w (c :: r)) ↔ NoFreeNeighbours l ∧ NoFreeNeighbours r ∧
      (w + (h + g) ≤ c.size → ∀ d ∈ r.head?, d.used = true) := by
  rw [split_cons]
  split_ifs with hw
  · rw [noFreeNeighbours_of_used (c := ⟨w, c.used⟩) hc, noFreeNeighbours_cons]
    simp [hw, and_comm]
  · simp [noFreeNeighbours_of_used hc, hw]

theorem exists_absorb_noFreeNeighbours (hr : NoFreeNeighbours r) : ∃ k r',
    absorb h (c :: r) = ⟨k, c.used⟩ :: r' ∧ NoFreeNeighbours r' ∧
      ∀ d ∈ r'.head?, d.used = true := by
  rcases r with _ | ⟨d, r⟩
  · exact ⟨c.size, [], rfl, hr, by simp⟩
  · rw [absorb_cons_cons]
    split_ifs with hd
    · exact ⟨c.size, d :: r, rfl, hr, by simpa using hd⟩
    · obtain ⟨hhead, hr⟩ := noFreeNeighbours_cons.1 hr
      exact ⟨_, r, rfl, hr, fun e he => (hhead e he).resolve_left hd⟩

/-- Releasing a chunk in use coalesces it with all its free neighbours. -/
theorem NoFreeNeighbours.release {k : ℕ} (hl : NoFreeNeighbours l) (hr : NoFreeNeighbours r) :
    NoFreeNeighbours (release h l (⟨k, false⟩ :: r)) := by
  obtain ⟨k', r', habsorb, hr', hhead⟩ :=
    exists_absorb_noFreeNeighbours (h := h) (c := ⟨k, false⟩) hr
  have hfree : ∀ n, NoFreeNeighbours (⟨n, false⟩ :: r') :=
    fun n => noFreeNeighbours_cons.2 ⟨fun d hd => Or.inr (hhead d hd), hr'⟩
  rcases List.eq_nil_or_concat' l with rfl | ⟨l, d, rfl⟩
  · rw [release_nil, habsorb]
    exact hfree k'
  · obtain ⟨hl, -, hlast⟩ := noFreeNeighbours_append_cons.1 hl
    rw [release_concat, habsorb]
    split_ifs with hd
    · exact (noFreeNeighbours_of_used hd).2 ⟨hl, hfree k'⟩
    · rw [absorb_cons_cons, if_neg (by simp)]
      refine noFreeNeighbours_append_cons.2 ⟨hl, ?_, fun e he => Or.inl ?_⟩
      · simpa [hd] using hfree (d.size + (h + k'))
      · exact (hlast e he).resolve_right hd

/-- The only tiling of a region by free chunks without free neighbours is one chunk. -/
theorem NoFreeNeighbours.eq_singleton (hn : NoFreeNeighbours cs)
    (hfree : ∀ c ∈ cs, c.used = false) (hne : cs ≠ []) : ∃ c, cs = [c] := by
  cases hn with
  | nil => exact (hne rfl).elim
  | singleton c => exact ⟨c, rfl⟩
  | cons_cons h _ => simp [hfree] at h

end Chunks
