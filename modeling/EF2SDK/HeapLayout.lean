import EF2SDK.Chunks
import EF2SDK.Heap

/-!
# The block list in memory

What a memory holds when its heap is laid out as a list of chunks (`Laid`) : at every chunk's
address a header with the chunk's size, the magic number of its mark, and the addresses of
the neighbouring chunks.

A header write reaches the one header it is given, so `split_block`, `merge_with_next` and a
new magic number are edits of the list at one chunk : the memory after them is laid out as
the edited list, and no byte outside the headers of the two lists has changed.
-/

set_option autoImplicit false

namespace EF2SDK.Heap

open ByteMemory Chunks

variable {m m' : Mem} {a b n prev v w x : ℕ} {c d : Chunk} {l r cs : List Chunk}

/-! ## One header -/

theorem magicFree_lt : magicFree < 2 ^ 32 := by decide

theorem magicAlloc_lt : magicAlloc < 2 ^ 32 := by decide

/-- The four words of a block header. -/
@[ext] structure Header where
  size : ℕ
  magic : ℕ
  previous : ℕ
  next : ℕ

/-- The header of the block at `b`. -/
def header (m : Mem) (b : ℕ) : Header :=
  ⟨blockSize m b, blockMagic m b, blockPrevious m b, blockNext m b⟩

theorem header_congr (h : ∀ x, b ≤ x → x < b + 16 → m' x = m x) : header m' b = header m b := by
  unfold header blockSize blockMagic blockPrevious blockNext
  rw [readU32_congr fun x hx hx' => h x (by omega) (by omega),
    readU32_congr fun x hx hx' => h x (by omega) (by omega),
    readU32_congr fun x hx hx' => h x (by omega) (by omega),
    readU32_congr fun x hx hx' => h x (by omega) (by omega)]

theorem header_setSize (hv : v < 2 ^ 32) :
    header (setSize m b v) b = { header m b with size := v } := by
  unfold header blockSize blockMagic blockPrevious blockNext setSize
  simp (disch := omega) only [readU32_writeU32, readU32_writeU32_of_disjoint]

theorem header_setMagic (hv : v < 2 ^ 32) :
    header (setMagic m b v) b = { header m b with magic := v } := by
  unfold header blockSize blockMagic blockPrevious blockNext setMagic
  simp (disch := omega) only [readU32_writeU32, readU32_writeU32_of_disjoint]

theorem header_setPrevious (hv : v < 2 ^ 32) :
    header (setPrevious m b v) b = { header m b with previous := v } := by
  unfold header blockSize blockMagic blockPrevious blockNext setPrevious
  simp (disch := omega) only [readU32_writeU32, readU32_writeU32_of_disjoint]

theorem header_setNext (hv : v < 2 ^ 32) :
    header (setNext m b v) b = { header m b with next := v } := by
  unfold header blockSize blockMagic blockPrevious blockNext setNext
  simp (disch := omega) only [readU32_writeU32, readU32_writeU32_of_disjoint]

theorem setSize_of_outside (h : x < b ∨ b + 16 ≤ x) : setSize m b v x = m x :=
  writeU32_of_disjoint m v (by omega)

theorem setMagic_of_outside (h : x < b ∨ b + 16 ≤ x) : setMagic m b v x = m x :=
  writeU32_of_disjoint m v (by omega)

theorem setPrevious_of_outside (h : x < b ∨ b + 16 ≤ x) : setPrevious m b v x = m x :=
  writeU32_of_disjoint m v (by omega)

theorem setNext_of_outside (h : x < b ∨ b + 16 ≤ x) : setNext m b v x = m x :=
  writeU32_of_disjoint m v (by omega)

/-- The headers a write of the header at `b` leaves alone. -/
theorem header_of_apart (hm : ∀ x, x < b ∨ b + 16 ≤ x → m' x = m x)
    (h : x + 16 ≤ b ∨ b + 16 ≤ x) : header m' x = header m x :=
  header_congr fun y hy hy' => hm y (by omega)

theorem header_setSize_of_apart (h : x + 16 ≤ b ∨ b + 16 ≤ x) :
    header (setSize m b v) x = header m x :=
  header_of_apart (fun _ => setSize_of_outside) h

theorem header_setMagic_of_apart (h : x + 16 ≤ b ∨ b + 16 ≤ x) :
    header (setMagic m b v) x = header m x :=
  header_of_apart (fun _ => setMagic_of_outside) h

theorem header_setPrevious_of_apart (h : x + 16 ≤ b ∨ b + 16 ≤ x) :
    header (setPrevious m b v) x = header m x :=
  header_of_apart (fun _ => setPrevious_of_outside) h

theorem header_setNext_of_apart (h : x + 16 ≤ b ∨ b + 16 ≤ x) :
    header (setNext m b v) x = header m x :=
  header_of_apart (fun _ => setNext_of_outside) h

/-- The header that `linkNextBack` writes, if there is one. -/
theorem header_linkNextBack (hn : (header m b).next ≠ 0) (hb : b < 2 ^ 32) :
    header (linkNextBack m b) (header m b).next =
      { header m (header m b).next with previous := b } := by
  have hnext : blockNext m b ≠ 0 := hn
  unfold linkNextBack
  rw [if_pos hnext]
  exact header_setPrevious hb

theorem linkNextBack_of_outside
    (h : (header m b).next ≠ 0 → x < (header m b).next ∨ (header m b).next + 16 ≤ x) :
    linkNextBack m b x = m x := by
  unfold linkNextBack
  split_ifs with hn
  · exact setPrevious_of_outside (h hn)
  · rfl

theorem header_linkNextBack_of_apart
    (h : (header m b).next ≠ 0 → x + 16 ≤ (header m b).next ∨ (header m b).next + 16 ≤ x) :
    header (linkNextBack m b) x = header m x :=
  header_congr fun y hy hy' => linkNextBack_of_outside fun hn => by have := h hn; omega

/-! ## The effect of `split_block` and `merge_with_next` on headers -/

/-- The headers after a split : the block's, the new one's, and that of the block after. -/
theorem header_splitBlock (hroom : w + 32 ≤ blockSize m b) (hb : b + 16 + blockSize m b < 2 ^ 32)
    (hn : blockNext m b ≠ 0 → b + 16 + blockSize m b ≤ blockNext m b) :
    header (splitBlock m b w) b = { header m b with size := w, next := b + 16 + w } ∧
    header (splitBlock m b w) (b + 16 + w) =
      ⟨blockSize m b - w - 16, magicFree, b, blockNext m b⟩ ∧
    (blockNext m b ≠ 0 → header (splitBlock m b w) (blockNext m b) =
      { header m (blockNext m b) with previous := b + 16 + w }) ∧
    ∀ x, (x < b ∨ b + 16 ≤ x) → (x < b + 16 + w ∨ b + 16 + w + 16 ≤ x) →
      (blockNext m b ≠ 0 → x < blockNext m b ∨ blockNext m b + 16 ≤ x) →
      splitBlock m b w x = m x := by
  have hnext : blockNext m b < 2 ^ 32 := readU32_lt m _
  -- the new block's header, written while the old one still stands
  obtain ⟨m₁, hm₁⟩ : ∃ m₁, m₁ = setPrevious (setMagic (setSize m (b + 16 + w)
    (blockSize m b - w - 16)) (b + 16 + w) magicFree) (b + 16 + w) b := ⟨_, rfl⟩
  have hkeep₁ : ∀ y, y + 16 ≤ b + 16 + w ∨ b + 16 + w + 16 ≤ y → header m₁ y = header m y := by
    intro y hy
    rw [hm₁, header_setPrevious_of_apart hy, header_setMagic_of_apart hy,
      header_setSize_of_apart hy]
  have hnext₁ : blockNext m₁ b = blockNext m b := congrArg Header.next (hkeep₁ b (by omega))
  obtain ⟨m₂, hm₂⟩ : ∃ m₂, m₂ = setNext m₁ (b + 16 + w) (blockNext m b) := ⟨_, rfl⟩
  have hnew : header m₂ (b + 16 + w) =
      ⟨blockSize m b - w - 16, magicFree, b, blockNext m b⟩ := by
    rw [hm₂, header_setNext hnext, hm₁, header_setPrevious (by omega), header_setMagic magicFree_lt,
      header_setSize (by omega)]
  have hkeep₂ : ∀ y, y + 16 ≤ b + 16 + w ∨ b + 16 + w + 16 ≤ y → header m₂ y = header m y := by
    intro y hy
    rw [hm₂, header_setNext_of_apart hy, hkeep₁ y hy]
  have hbytes₂ : ∀ y, y < b + 16 + w ∨ b + 16 + w + 16 ≤ y → m₂ y = m y := by
    intro y hy
    rw [hm₂, setNext_of_outside hy, hm₁, setPrevious_of_outside hy, setMagic_of_outside hy,
      setSize_of_outside hy]
  have hsplit : splitBlock m b w =
      setNext (setSize (linkNextBack m₂ (b + 16 + w)) b w) b (b + 16 + w) := by
    unfold splitBlock blockPayload headerSize heapAlignment
    rw [if_neg (by omega), if_neg (by omega)]
    simp only [← hm₁, hnext₁, ← hm₂]
  have hlink : (header m₂ (b + 16 + w)).next = blockNext m b := by rw [hnew]
  rw [hsplit]
  refine ⟨?_, ?_, fun hn0 => ?_, fun x hxb hxs hxn => ?_⟩
  · rw [header_setNext (by omega), header_setSize (by omega),
      header_linkNextBack_of_apart fun h => by rw [hlink] at h ⊢; have := hn h; omega,
      hkeep₂ b (by omega)]
  · rw [header_setNext_of_apart (by omega), header_setSize_of_apart (by omega),
      header_linkNextBack_of_apart fun h => by rw [hlink] at h ⊢; have := hn h; omega, hnew]
  · have hlt := hn hn0
    rw [header_setNext_of_apart (by omega), header_setSize_of_apart (by omega), ← hlink,
      header_linkNextBack (by rwa [hlink]) (by omega), hlink, hkeep₂ _ (by omega)]
  · rw [setNext_of_outside hxb, setSize_of_outside hxb,
      linkNextBack_of_outside fun h => by rw [hlink] at h ⊢; exact hxn h, hbytes₂ x hxs]

theorem splitBlock_of_lt (h : blockSize m b < w + 32) : splitBlock m b w = m := by
  unfold splitBlock headerSize heapAlignment
  by_cases hw : blockSize m b < w
  · rw [if_pos hw]
  · rw [if_neg hw, if_pos (by omega)]

theorem mergeWithNext_of_not_free
    (h : blockNext m b = 0 ∨ blockMagic m (blockNext m b) ≠ magicFree) :
    mergeWithNext m b = m := by
  unfold mergeWithNext
  rw [if_pos h]

/-- The headers after a merge with a free next block. -/
theorem header_mergeWithNext (hn0 : blockNext m b ≠ 0)
    (hfree : blockMagic m (blockNext m b) = magicFree)
    (hn : b + 16 ≤ blockNext m b)
    (hsize : blockSize m b + (16 + blockSize m (blockNext m b)) < 2 ^ 32)
    (hnn : blockNext m (blockNext m b) ≠ 0 → b + 16 ≤ blockNext m (blockNext m b))
    (hb : b < 2 ^ 32) :
    header (mergeWithNext m b) b = { header m b with
      size := blockSize m b + (16 + blockSize m (blockNext m b))
      next := blockNext m (blockNext m b) } ∧
    (blockNext m (blockNext m b) ≠ 0 →
      header (mergeWithNext m b) (blockNext m (blockNext m b)) =
        { header m (blockNext m (blockNext m b)) with previous := b }) ∧
    ∀ x, (x < b ∨ b + 16 ≤ x) → (blockNext m (blockNext m b) ≠ 0 →
      x < blockNext m (blockNext m b) ∨ blockNext m (blockNext m b) + 16 ≤ x) →
      mergeWithNext m b x = m x := by
  have hnext : blockNext m (blockNext m b) < 2 ^ 32 := readU32_lt m _
  obtain ⟨m₁, hm₁⟩ : ∃ m₁, m₁ = setSize m b (blockSize m b + (16 + blockSize m (blockNext m b))) :=
    ⟨_, rfl⟩
  have hnext₁ : blockNext m₁ (blockNext m b) = blockNext m (blockNext m b) := by
    rw [hm₁]
    exact congrArg Header.next (header_setSize_of_apart (Or.inr hn))
  obtain ⟨m₂, hm₂⟩ : ∃ m₂, m₂ = setNext m₁ b (blockNext m (blockNext m b)) := ⟨_, rfl⟩
  have hmerge : mergeWithNext m b = linkNextBack m₂ b := by
    unfold mergeWithNext
    rw [if_neg (by simp [hn0, hfree]), u32, Nat.mod_eq_of_lt hsize, ← hm₁]
    simp only [hnext₁, ← hm₂]
  have hblock : header m₂ b = { header m b with
      size := blockSize m b + (16 + blockSize m (blockNext m b))
      next := blockNext m (blockNext m b) } := by
    rw [hm₂, header_setNext hnext, hm₁, header_setSize hsize]
  have hkeep : ∀ y, y < b ∨ b + 16 ≤ y → m₂ y = m y := by
    intro y hy
    rw [hm₂, setNext_of_outside hy, hm₁, setSize_of_outside hy]
  have hlink : (header m₂ b).next = blockNext m (blockNext m b) := by rw [hblock]
  rw [hmerge]
  refine ⟨?_, fun hnn0 => ?_, fun x hxb hxn => ?_⟩
  · rw [header_linkNextBack_of_apart fun h => by rw [hlink] at h ⊢; exact Or.inl (hnn h), hblock]
  · have hlt := hnn hnn0
    rw [← hlink, header_linkNextBack (by rwa [hlink]) hb, hlink,
      header_of_apart hkeep (Or.inr hlt)]
  · rw [linkNextBack_of_outside fun h => by rw [hlink] at h ⊢; exact hxn h, hkeep x hxb]

/-! ## The layout -/

/-- The magic number of a used or free block. -/
def magicOf (used : Bool) : ℕ :=
  if used then magicAlloc else magicFree

theorem magicOf_lt (u : Bool) : magicOf u < 2 ^ 32 := by
  cases u
  · exact magicFree_lt
  · exact magicAlloc_lt

theorem magicOf_eq_free {u : Bool} : magicOf u = magicFree ↔ u = false := by
  cases u <;> decide

/-- What a link to the blocks `cs` from `a` on holds, `n` being what follows them. -/
def headAddr (a : ℕ) (cs : List Chunk) (n : ℕ) : ℕ :=
  match cs with
  | [] => n
  | _ :: _ => a

@[simp] theorem headAddr_nil : headAddr a [] n = n :=
  rfl

@[simp] theorem headAddr_cons : headAddr a (c :: cs) n = a :=
  rfl

theorem headAddr_append :
    headAddr a (l ++ r) n = headAddr a l (headAddr (a + extent 16 l) r n) := by
  cases l <;> rfl

theorem headAddr_eq_of_ne_zero (h : headAddr a cs 0 ≠ 0) : headAddr a cs 0 = a ∧ cs ≠ [] := by
  cases cs with
  | nil => exact (h rfl).elim
  | cons c cs => exact ⟨rfl, by simp⟩

/-- The last block of `cs` from `a` on, `prev` being what precedes them. -/
def lastAddr (prev a : ℕ) : List Chunk → ℕ
  | [] => prev
  | c :: cs => lastAddr a (a + (16 + c.size)) cs

@[simp] theorem lastAddr_concat : lastAddr prev a (l ++ [c]) = a + extent 16 l := by
  induction l generalizing prev a with
  | nil => rfl
  | cons d l ih => simp [lastAddr, ih, Nat.add_assoc]

/-- The blocks from `a` on are the chunks `cs`, linked both ways, between `prev` and `n`. -/
def Laid (m : Mem) (n : ℕ) : (prev a : ℕ) → List Chunk → Prop
  | _, _, [] => True
  | prev, a, c :: cs =>
    header m a = ⟨c.size, magicOf c.used, prev, headAddr (a + (16 + c.size)) cs n⟩ ∧
      Laid m n a (a + (16 + c.size)) cs

theorem laid_append : Laid m n prev a (l ++ r) ↔
    Laid m (headAddr (a + extent 16 l) r n) prev a l ∧
      Laid m n (lastAddr prev a l) (a + extent 16 l) r := by
  induction l generalizing prev a with
  | nil => simp [Laid, lastAddr]
  | cons c l ih => simp [Laid, lastAddr, ih, headAddr_append, and_assoc, Nat.add_assoc]

/-- The block at `b`, with the blocks before and after it. -/
theorem laid_middle (hb : b = a + extent 16 l) : Laid m n prev a (l ++ c :: r) ↔
    Laid m b prev a l ∧
    header m b = ⟨c.size, magicOf c.used, lastAddr prev a l, headAddr (b + (16 + c.size)) r n⟩ ∧
    Laid m n b (b + (16 + c.size)) r := by
  rw [laid_append, hb]
  rfl

/-- A layout is read off its headers. -/
theorem Laid.congr (h : Laid m n prev a cs)
    (hm : ∀ b c, (b, c) ∈ cells 16 a cs → header m' b = header m b) : Laid m' n prev a cs := by
  induction cs generalizing prev a with
  | nil => trivial
  | cons c cs ih =>
    obtain ⟨hc, hcs⟩ := h
    refine ⟨(hm a c (by simp)).trans hc, ih hcs fun b d hb => hm b d ?_⟩
    exact List.mem_cons_of_mem _ hb

/-- A new back link of the first block. -/
theorem Laid.relink {prev' : ℕ} (h : Laid m n prev a cs)
    (hfirst : cs ≠ [] → header m' a = { header m a with previous := prev' })
    (hrest : ∀ y, a + 16 ≤ y → header m' y = header m y) : Laid m' n prev' a cs := by
  cases cs with
  | nil => trivial
  | cons c cs =>
    obtain ⟨hc, hcs⟩ := h
    refine ⟨by rw [hfirst (by simp), hc], hcs.congr fun b d hb => hrest b ?_⟩
    have := bounds_of_mem_cells hb
    omega

theorem Laid.header_of_mem (h : Laid m n prev a cs) (hb : (b, c) ∈ cells 16 a cs) :
    blockSize m b = c.size ∧ blockMagic m b = magicOf c.used := by
  obtain ⟨l, r, rfl, rfl⟩ := exists_of_mem_cells hb
  obtain ⟨-, hc, -⟩ := laid_append.1 h
  exact ⟨congrArg Header.size hc, congrArg Header.magic hc⟩

/-- No byte of a header of `cs`. -/
def OutsideHeaders (a : ℕ) (cs : List Chunk) (x : ℕ) : Prop :=
  ∀ b c, (b, c) ∈ cells 16 a cs → x < b ∨ b + 16 ≤ x

theorem outsideHeaders_of_payload (hb : (b, c) ∈ cells 16 a cs) (hx : b + 16 ≤ x)
    (hx' : x < b + 16 + c.size) : OutsideHeaders a cs x := by
  intro b' c' hb'
  rcases cells_disjoint hb hb' with ⟨rfl, rfl⟩ | hlt | hlt <;> omega

@[simp] theorem outsideHeaders_cons : OutsideHeaders a (c :: cs) x ↔
    (x < a ∨ a + 16 ≤ x) ∧ OutsideHeaders (a + (16 + c.size)) cs x := by
  unfold OutsideHeaders
  constructor
  · intro h
    exact ⟨h a c (by simp), fun b d hb => h b d (List.mem_cons_of_mem _ hb)⟩
  · rintro ⟨ha, h⟩ b d hb
    rcases List.mem_cons.1 hb with heq | hb
    · obtain ⟨rfl, rfl⟩ := Prod.mk.inj heq
      exact ha
    · exact h b d hb

@[simp] theorem outsideHeaders_append : OutsideHeaders a (l ++ r) x ↔
    OutsideHeaders a l x ∧ OutsideHeaders (a + extent 16 l) r x := by
  induction l generalizing a with
  | nil => simp [OutsideHeaders]
  | cons c l ih => simp [ih, and_assoc, Nat.add_assoc]

/-- A new mark moves no header. -/
theorem outsideHeaders_setUsed {u : Bool} :
    OutsideHeaders a (setUsed u cs) x ↔ OutsideHeaders a cs x := by
  cases cs with
  | nil => rfl
  | cons c cs => simp

/-- Coalescing only removes headers. -/
theorem OutsideHeaders.absorb (h : OutsideHeaders a cs x) :
    OutsideHeaders a (absorb 16 cs) x := by
  rcases cs with _ | ⟨c, _ | ⟨d, r⟩⟩
  · exact h
  · exact h
  · rw [absorb_cons_cons]
    split_ifs
    · exact h
    · simp only [outsideHeaders_cons] at h ⊢
      exact ⟨h.1, by simpa [Nat.add_assoc, Nat.add_left_comm] using h.2.2⟩

theorem OutsideHeaders.at_middle (h : OutsideHeaders a (l ++ c :: r) x) :
    x < a + extent 16 l ∨ a + extent 16 l + 16 ≤ x :=
  h _ c (by simp)

/-! ## Edits of the layout -/

/-- The memory `m'` holds the list `cs'` where `m` held `cs`, and differs from it in headers
only. -/
structure Relaid (a : ℕ) (m : Mem) (cs : List Chunk) (m' : Mem) (cs' : List Chunk) : Prop where
  laid : Laid m' 0 0 a cs'
  frame : ∀ x, OutsideHeaders a cs x → OutsideHeaders a cs' x → m' x = m x

theorem Relaid.trans {m₁ m₂ : Mem} {cs₁ cs₂ : List Chunk} (h₁ : Relaid a m cs m₁ cs₁)
    (h₂ : Relaid a m₁ cs₁ m₂ cs₂)
    (hmid : ∀ x, OutsideHeaders a cs x → OutsideHeaders a cs₂ x → OutsideHeaders a cs₁ x) :
    Relaid a m cs m₂ cs₂ :=
  ⟨h₂.laid, fun x hx hx' =>
    (h₂.frame x (hmid x hx hx') hx').trans (h₁.frame x hx (hmid x hx hx'))⟩

/-- The payload of a block that both lists have, as far as it reaches in both. -/
theorem Relaid.payload {c' : Chunk} {cs' : List Chunk} (h : Relaid a m cs m' cs')
    (hb : (b, c) ∈ cells 16 a cs) (hb' : (b, c') ∈ cells 16 a cs') (hx : b + 16 ≤ x)
    (hxc : x < b + 16 + c.size) (hxc' : x < b + 16 + c'.size) : m' x = m x :=
  h.frame x (outsideHeaders_of_payload hb hx hxc) (outsideHeaders_of_payload hb' hx hxc')

/-- Blocks before the edited one are out of its reach. -/
theorem Laid.prefix (h : Laid m n prev a l)
    (hm : ∀ y, y + 16 ≤ a + extent 16 l → header m' y = header m y) : Laid m' n prev a l := by
  refine h.congr fun b c hb => hm b ?_
  have := bounds_of_mem_cells hb
  omega

theorem relaid_setMagic (u : Bool) (h : Laid m 0 0 a (l ++ cs)) (hne : cs ≠ []) :
    Relaid a m (l ++ cs) (setMagic m (a + extent 16 l) (magicOf u)) (l ++ setUsed u cs) := by
  obtain ⟨c, r, rfl⟩ := List.exists_cons_of_ne_nil hne
  obtain ⟨hl, hc, hr⟩ := (laid_middle rfl).1 h
  refine ⟨(laid_middle rfl).2 ⟨?_, ?_, ?_⟩, fun x hx _ => ?_⟩
  · exact hl.prefix fun y hy => header_setMagic_of_apart (Or.inl hy)
  · rw [header_setMagic (magicOf_lt u), hc]
  · refine hr.congr fun b d hb => header_setMagic_of_apart (Or.inr ?_)
    have := bounds_of_mem_cells hb
    omega
  · exact setMagic_of_outside hx.at_middle

theorem relaid_splitBlock (w : ℕ) (h : Laid m 0 0 a (l ++ cs)) (hne : cs ≠ [])
    (hend : a + extent 16 (l ++ cs) < 2 ^ 32) :
    Relaid a m (l ++ cs) (splitBlock m (a + extent 16 l) w) (l ++ split 16 16 w cs) := by
  obtain ⟨c, r, rfl⟩ := List.exists_cons_of_ne_nil hne
  obtain ⟨b, hb⟩ : ∃ b, b = a + extent 16 l := ⟨_, rfl⟩
  obtain ⟨hl, hc, hr⟩ := (laid_middle hb).1 h
  rw [← hb]
  rw [extent_append, extent_cons] at hend
  have hsize : blockSize m b = c.size := congrArg Header.size hc
  have hnext : blockNext m b = headAddr (b + (16 + c.size)) r 0 := congrArg Header.next hc
  rw [split_cons]
  split_ifs with hw
  · have hn : blockNext m b ≠ 0 → blockNext m b = b + (16 + c.size) ∧ r ≠ [] := by
      rw [hnext]
      exact headAddr_eq_of_ne_zero
    obtain ⟨hblock, hnew, hafter, hframe⟩ := header_splitBlock (m := m) (b := b) (w := w)
      (by omega) (by omega) (fun h0 => by have := hn h0; omega)
    have hspan : b + (16 + w) + (16 + (c.size - w - 16)) = b + (16 + c.size) := by omega
    refine ⟨(laid_middle hb).2 ⟨?_, ?_, ?_, ?_⟩, fun x hx hx' => ?_⟩
    · refine hl.prefix fun y hy => header_congr fun x hx hx' => hframe x ?_ ?_ fun h0 => ?_
      · omega
      · omega
      · have := hn h0
        omega
    · rw [hblock, hc, headAddr_cons, Nat.add_assoc b]
    · rw [hspan, ← Nat.add_assoc b 16 w, hnew, hsize, hnext]
      rfl
    · rw [hspan]
      refine hr.relink (fun hne => ?_) fun y hy => header_congr fun x hx hx' => hframe x ?_ ?_ ?_
      · obtain ⟨d, r', rfl⟩ := List.exists_cons_of_ne_nil hne
        rw [headAddr_cons] at hnext
        rw [← hnext, hafter (by omega), Nat.add_assoc b]
      · omega
      · omega
      · intro h0
        have := hn h0
        omega
    · have hxs := hx' (b + (16 + w)) ⟨c.size - w - 16, false⟩ (by simp [hb])
      refine hframe x (hb ▸ hx.at_middle) (by omega) fun h0 => ?_
      obtain ⟨hnb, hne⟩ := hn h0
      obtain ⟨d, r', rfl⟩ := List.exists_cons_of_ne_nil hne
      rw [hnb]
      exact hx _ d (by simp [hb])
  · rw [splitBlock_of_lt (by omega)]
    exact ⟨h, fun _ _ _ => rfl⟩

theorem relaid_mergeWithNext (h : Laid m 0 0 a (l ++ cs)) (hne : cs ≠ [])
    (hend : a + extent 16 (l ++ cs) < 2 ^ 32) (ha : 0 < a) :
    Relaid a m (l ++ cs) (mergeWithNext m (a + extent 16 l)) (l ++ absorb 16 cs) := by
  obtain ⟨c, r, rfl⟩ := List.exists_cons_of_ne_nil hne
  obtain ⟨b, hb⟩ : ∃ b, b = a + extent 16 l := ⟨_, rfl⟩
  obtain ⟨hl, hc, hr⟩ := (laid_middle hb).1 h
  rw [← hb]
  rw [extent_append, extent_cons] at hend
  have hnext : blockNext m b = headAddr (b + (16 + c.size)) r 0 := congrArg Header.next hc
  rcases r with _ | ⟨d, r⟩
  · rw [mergeWithNext_of_not_free (Or.inl hnext)]
    exact ⟨h, fun _ _ _ => rfl⟩
  · rw [headAddr_cons] at hnext
    rw [extent_cons] at hend
    obtain ⟨hd, hr⟩ := hr
    rw [← hnext] at hd hr
    have hmagic : blockMagic m (blockNext m b) = magicOf d.used := congrArg Header.magic hd
    rw [absorb_cons_cons]
    split_ifs with hused
    · rw [mergeWithNext_of_not_free (Or.inr (by simp [hmagic, magicOf_eq_free, hused]))]
      exact ⟨h, fun _ _ _ => rfl⟩
    · have hsize : blockSize m b = c.size := congrArg Header.size hc
      have hdsize : blockSize m (blockNext m b) = d.size := congrArg Header.size hd
      have hnn : blockNext m (blockNext m b) =
          headAddr (blockNext m b + (16 + d.size)) r 0 := congrArg Header.next hd
      have hn : blockNext m (blockNext m b) ≠ 0 →
          blockNext m (blockNext m b) = blockNext m b + (16 + d.size) ∧ r ≠ [] := by
        rw [hnn]
        exact headAddr_eq_of_ne_zero
      obtain ⟨hblock, hafter, hframe⟩ := header_mergeWithNext (m := m) (b := b) (by omega)
        (by simpa [hmagic, magicOf_eq_free] using hused) (by omega) (by omega)
        (fun h0 => by have := hn h0; omega) (by omega)
      have hspan : b + (16 + (c.size + (16 + d.size))) = blockNext m b + (16 + d.size) := by
        omega
      refine ⟨(laid_middle hb).2 ⟨?_, ?_, ?_⟩, fun x hx hx' => ?_⟩
      · refine hl.prefix fun y hy => header_congr fun x hx hx' => hframe x ?_ fun h0 => ?_
        · omega
        · have := hn h0
          omega
      · rw [hblock, hc, hsize, hdsize, hnn, hspan]
      · rw [hspan]
        refine hr.relink (fun hne => ?_) fun y hy => header_congr fun x hx hx' => hframe x ?_ ?_
        · obtain ⟨e, r', rfl⟩ := List.exists_cons_of_ne_nil hne
          rw [headAddr_cons] at hnn
          rw [← hnn, hafter (by omega)]
        · omega
        · intro h0
          have := hn h0
          omega
      · refine hframe x (hb ▸ hx.at_middle) fun h0 => ?_
        obtain ⟨hnb, hne⟩ := hn h0
        obtain ⟨e, r', rfl⟩ := List.exists_cons_of_ne_nil hne
        rw [hnb, hnext]
        exact hx _ e (by simp [hb])

end EF2SDK.Heap
