import EF2SDK.HeapLayout

/-!
# The allocator's calls on the block list

The state of a ready allocator is a list of chunks that tiles the initialized region
(`Tiled`). Each call is what it does to that list : `ef2_malloc` cuts and marks the first free
chunk that fits, `ef2_free` unmarks a chunk and coalesces it with its free neighbours, and
`ef2_realloc` cuts its chunk, lets it take in a free successor, or moves it.

Every edit keeps the tiling and the used chunks apart from the one it is at (`EditsAt`), and
the walks of the source end within `maxBlocks` blocks.
-/

set_option autoImplicit false

namespace EF2SDK.Heap

open ByteMemory Chunks

variable {start stop size w b x : ℕ} {s s' : State} {c d : Chunk} {l r cs cs' : List Chunk}

/-- The allocator's state is the block list `cs` from `start` up to `stop`. -/
structure Tiled (start stop : ℕ) (s : State) (cs : List Chunk) : Prop where
  ready : s.ready = true
  first : s.first = start
  pos : 0 < start
  aligned : 16 ∣ start
  laid : Laid s.mem 0 0 start cs
  ne_nil : cs ≠ []
  sizes : ∀ c ∈ cs, 16 ∣ c.size
  span : start + extent 16 cs = stop
  stop_lt : stop < 2 ^ 32
  total : start + (16 + s.total) = stop
  active : s.active = countUsed cs

/-- `s'` tiled by `cs'` comes from `s` tiled by `cs` by an edit at the block `b` : the other
used blocks stay, and only headers were written. -/
structure EditsAt (start stop b : ℕ) (s : State) (cs : List Chunk) (s' : State)
    (cs' : List Chunk) : Prop where
  tiled : Tiled start stop s' cs'
  relaid : Relaid start s.mem cs s'.mem cs'
  used : ∀ {p k}, p ≠ b →
    ((p, ⟨k, true⟩) ∈ cells 16 start cs' ↔ (p, ⟨k, true⟩) ∈ cells 16 start cs)

theorem Tiled.length_lt (h : Tiled start stop s cs) : cs.length < maxBlocks := by
  have hlen : cs.length * 16 ≤ extent 16 cs := length_mul_le_extent
  have hspan := h.span
  have hstop := h.stop_lt
  unfold maxBlocks
  omega

theorem Tiled.aligned_of_mem (h : Tiled start stop s cs) (hb : (b, c) ∈ cells 16 start cs) :
    16 ∣ b := by
  obtain ⟨l, r, rfl, rfl⟩ := exists_of_mem_cells hb
  refine Nat.dvd_add h.aligned ?_
  have hl : ∀ c ∈ l, 16 ∣ c.size := fun c hc => h.sizes c (List.mem_append_left _ hc)
  clear hb h
  induction l with
  | nil => simp
  | cons c l ih =>
    rw [extent_cons]
    exact Nat.dvd_add (Nat.dvd_add (Nat.dvd_refl 16) (hl c List.mem_cons_self))
      (ih fun d hd => hl d (List.mem_cons_of_mem c hd))

/-! ## Initialization -/

theorem alignUp_of_le (h : w + 15 < 2 ^ 32) : w ≤ alignUp w ∧ alignUp w < w + 16 := by
  unfold alignUp u32 heapAlignment
  omega

theorem dvd_alignUp (w : ℕ) : 16 ∣ alignUp w :=
  Nat.dvd_mul_left 16 _

/-- A successful `ef2_heap_init` writes the header of one free block over the aligned region. -/
theorem heapInit_eq {memory : ℕ} {s₀ : State} (h : heapInit s₀ memory size = (0, s)) :
    s.ready = true ∧ s.first = alignUp memory ∧ s.active = 0 ∧
    alignPtrDown (u32 (memory + size)) < 2 ^ 32 ∧ 16 ∣ alignPtrDown (u32 (memory + size)) ∧
    alignUp memory + (16 + s.total) = alignPtrDown (u32 (memory + size)) ∧ 16 ≤ s.total ∧
    header s.mem (alignUp memory) = ⟨s.total, magicFree, 0, 0⟩ := by
  unfold heapInit at h
  dsimp only at h
  split_ifs at h with h0 h2 h3
  · simp at h
  · simp at h
  · simp at h
  · obtain ⟨-, rfl⟩ := Prod.mk.inj h
    obtain ⟨a, ha⟩ : ∃ a, a = alignUp memory := ⟨_, rfl⟩
    obtain ⟨stop, hstop⟩ : ∃ stop, stop = alignPtrDown (u32 (memory + size)) := ⟨_, rfl⟩
    have hend : stop < 2 ^ 32 := by unfold alignPtrDown u32 heapAlignment at hstop; omega
    have hdvd : 16 ∣ stop := hstop ▸ Nat.dvd_mul_left 16 _
    rw [← ha, ← hstop] at h2 h3 ⊢
    unfold headerSize heapAlignment at h2
    have hheader : header (setNext (setPrevious (setMagic (setSize s₀.mem a (stop - a - headerSize))
        a magicFree) a 0) a 0) a = ⟨stop - a - 16, magicFree, 0, 0⟩ := by
      rw [header_setNext (by omega), header_setPrevious (by omega), header_setMagic magicFree_lt,
        header_setSize (by omega)]
    have htotal : blockSize (setNext (setPrevious (setMagic (setSize s₀.mem a
        (stop - a - headerSize)) a magicFree) a 0) a 0) a = stop - a - 16 :=
      congrArg Header.size hheader
    dsimp only
    rw [hheader, htotal]
    exact ⟨rfl, rfl, rfl, hend, hdvd, by omega, by omega, rfl⟩

/-- A successful `ef2_heap_init` makes one free block of the aligned region, unless the
rounding of its start wrapped to the null pointer. -/
theorem heapInit_tiled {memory : ℕ} {s₀ : State} (hm : memory < 2 ^ 32) (hs : size < 2 ^ 32)
    (h : heapInit s₀ memory size = (0, s)) :
    s.ready = true ∧ s.first = alignUp memory ∧ (0xFFFFFFF1 ≤ memory ∧ s.first = 0 ∨
      memory ≤ alignUp memory ∧ ∃ stop, stop ≤ memory + size ∧
        Tiled (alignUp memory) stop s [⟨stop - alignUp memory - 16, false⟩]) := by
  obtain ⟨hready, hfirst, hactive, hend, hdvd, htotal, -, hheader⟩ := heapInit_eq h
  have hpos : memory ≠ 0 := by
    rintro rfl
    simp [heapInit] at h
  obtain ⟨stop, hstop⟩ : ∃ stop, stop = alignPtrDown (u32 (memory + size)) := ⟨_, rfl⟩
  have haligned : 16 ∣ alignUp memory := dvd_alignUp memory
  rw [← hstop] at hend hdvd htotal
  refine ⟨hready, hfirst, ?_⟩
  rcases Nat.lt_or_ge (memory + 15) (2 ^ 32) with hlt | hge
  · right
    have hup := alignUp_of_le hlt
    have hsize : stop - alignUp memory - 16 = s.total := by omega
    refine ⟨hup.1, stop, ?_, ?_⟩
    · unfold alignPtrDown u32 heapAlignment at hstop
      omega
    rw [hsize]
    refine ⟨hready, hfirst, by omega, haligned, ⟨hheader, trivial⟩, by simp, ?_, ?_,
      hend, htotal, hactive⟩
    · simp
      omega
    · simp
      omega
  · left
    refine ⟨by omega, ?_⟩
    rw [hfirst]
    unfold alignUp u32 heapAlignment
    omega

/-! ## The search -/

/-- The search finds the first free block that fits, if there is one. -/
theorem findBlock_eq {m : Mem} {prev a fuel : ℕ} (h : Laid m 0 prev a cs) (ha : 0 < a)
    (hfuel : cs.length < fuel) :
    (findBlock m w fuel (headAddr a cs 0) = some 0 ∧
      ∀ c ∈ cs, c.used = false → c.size < w) ∨
    ∃ l c r, cs = l ++ c :: r ∧ c.used = false ∧ w ≤ c.size ∧
      (∀ d ∈ l, d.used = false → d.size < w) ∧
      findBlock m w fuel (headAddr a cs 0) = some (a + extent 16 l) := by
  induction cs generalizing prev a fuel with
  | nil =>
    obtain ⟨fuel, rfl⟩ := Nat.exists_eq_add_of_lt hfuel
    exact Or.inl ⟨by simp [findBlock], by simp⟩
  | cons c cs ih =>
    obtain ⟨fuel, rfl⟩ : ∃ k, fuel = k + 1 := ⟨fuel - 1, by simp at hfuel; omega⟩
    obtain ⟨hc, hcs⟩ := h
    have hmagic : blockMagic m a = magicOf c.used := congrArg Header.magic hc
    have hsize : blockSize m a = c.size := congrArg Header.size hc
    have hnext : blockNext m a = headAddr (a + (16 + c.size)) cs 0 := congrArg Header.next hc
    rw [headAddr_cons, findBlock, if_neg (by omega), hmagic, hsize, hnext]
    by_cases hfit : c.used = false ∧ w ≤ c.size
    · right
      refine ⟨[], c, cs, rfl, hfit.1, hfit.2, by simp, ?_⟩
      rw [if_neg]
      · rfl
      · rintro (hne | hlt)
        · exact hne (magicOf_eq_free.2 hfit.1)
        · omega
    · rw [if_pos]
      · have hskip : c.used = false → c.size < w := fun hf => by
          by_contra hle
          exact hfit ⟨hf, by omega⟩
        rcases ih hcs (by omega) (by simpa using hfuel) with ⟨h0, hnone⟩ | ⟨l, e, r, rfl, he⟩
        · exact Or.inl ⟨h0, List.forall_mem_cons.2 ⟨hskip, hnone⟩⟩
        · obtain ⟨hfree, hle, hfirst, hfind⟩ := he
          refine Or.inr ⟨c :: l, e, r, rfl, hfree, hle,
            List.forall_mem_cons.2 ⟨hskip, hfirst⟩, ?_⟩
          rw [hfind, extent_cons, Nat.add_assoc]
      · rw [Ne, magicOf_eq_free]
        by_cases hf : c.used = false
        · exact Or.inr (by by_contra hle; exact hfit ⟨hf, by omega⟩)
        · exact Or.inl hf

/-! ## Edits keep the tiling -/

/-- An edit at one block keeps the tiling, given the new count of used blocks. -/
theorem Tiled.edit {f : List Chunk} {m : ByteMemory.Mem} (active : ℕ)
    (h : Tiled start stop s (l ++ cs)) (he : HeadEdit 16 cs f)
    (hm : Relaid start s.mem (l ++ cs) m (l ++ f))
    (hsizes : (∀ d ∈ cs, 16 ∣ d.size) → ∀ d ∈ f, 16 ∣ d.size)
    (hactive : active = countUsed (l ++ f)) :
    EditsAt start stop (start + extent 16 l) s (l ++ cs)
      { s with mem := m, active := active } (l ++ f) where
  tiled :=
    { ready := h.ready
      first := h.first
      pos := h.pos
      aligned := h.aligned
      laid := hm.laid
      ne_nil := by simp [he.ne_nil]
      sizes := List.forall_mem_append.2 ⟨(List.forall_mem_append.1 h.sizes).1,
        hsizes (List.forall_mem_append.1 h.sizes).2⟩
      span := by rw [extent_append, he.extent, ← extent_append, h.span]
      stop_lt := h.stop_lt
      total := h.total
      active := hactive }
  relaid := hm
  used := he.used_append

theorem Tiled.end_lt (h : Tiled start stop s cs) : start + extent 16 cs < 2 ^ 32 :=
  h.span ▸ h.stop_lt

theorem Tiled.active_lt (h : Tiled start stop s cs) : s.active + 1 < 2 ^ 32 := by
  have hcount : countUsed cs ≤ cs.length := List.countP_le_length
  have hlen := h.length_lt
  have hactive := h.active
  unfold maxBlocks at hlen
  omega

/-! ## `ef2_malloc` -/

/-- The list from a free chunk on, after the chunk is cut to `w` bytes and marked. -/
def allocate (w : ℕ) (cs : List Chunk) : List Chunk :=
  setUsed true (split 16 16 w cs)

theorem exists_allocate_eq (hc : w ≤ c.size) : ∃ k r',
    allocate w (c :: r) = ⟨k, true⟩ :: r' ∧ w ≤ k := by
  obtain ⟨k, r', hsplit, -, hle⟩ := exists_split_eq (h := 16) (c := c) (r := r) 16 w
  exact ⟨k, r', by rw [allocate, hsplit, setUsed_cons], hle hc⟩

theorem headEdit_allocate (hne : cs ≠ []) : HeadEdit 16 cs (allocate w cs) :=
  (headEdit_split 16 w hne).trans (headEdit_setUsed true (headEdit_split 16 w hne).ne_nil)

theorem dvd_allocate (hw : 16 ∣ w) (hcs : ∀ c ∈ cs, 16 ∣ c.size) :
    ∀ c ∈ allocate w cs, 16 ∣ c.size :=
  dvd_setUsed true (dvd_split (Nat.dvd_refl 16) hw hcs)

theorem countUsed_allocate : countUsed (allocate w (c :: r)) =
    if c.used then countUsed (c :: r) else countUsed (c :: r) + 1 := by
  have hcount : countUsed (split 16 16 w (c :: r)) = countUsed (c :: r) := countUsed_split 16 w
  obtain ⟨k, r', hsplit, -⟩ := exists_split_eq (h := 16) (c := c) (r := r) 16 w
  rw [allocate]
  rw [hsplit] at hcount ⊢
  rw [← hcount]
  cases hc : c.used <;> simp [countUsed]

/-- Cutting a block and marking it used, in memory. -/
theorem relaid_allocate {m : ByteMemory.Mem} {a : ℕ} (w : ℕ) (h : Laid m 0 0 a (l ++ cs))
    (hne : cs ≠ []) (hend : a + extent 16 (l ++ cs) < 2 ^ 32) :
    Relaid a m (l ++ cs) (setMagic (splitBlock m (a + extent 16 l) w) (a + extent 16 l) magicAlloc)
      (l ++ allocate w cs) := by
  have hcut := relaid_splitBlock w h hne hend
  refine hcut.trans (relaid_setMagic true hcut.laid (headEdit_split 16 w hne).ne_nil) ?_
  intro x _ hx
  rw [outsideHeaders_append] at hx ⊢
  exact ⟨hx.1, outsideHeaders_setUsed.1 hx.2⟩

/-- `ef2_malloc` fails and changes nothing, or allocates at the first free block that fits. -/
theorem malloc_eq (h : Tiled start stop s cs) (size : ℕ) :
    malloc s size = some (0, s) ∨
    ∃ l c r s', cs = l ++ c :: r ∧ c.used = false ∧ size ≤ alignUp size ∧ alignUp size ≤ c.size ∧
      malloc s size = some (start + extent 16 l + 16, s') ∧
      EditsAt start stop (start + extent 16 l) s cs s' (l ++ allocate (alignUp size) (c :: r)) := by
  unfold malloc
  split_ifs with h0 hbig
  · exact Or.inl rfl
  · exact Or.inl rfl
  · have hup := alignUp_of_le (w := size) (by unfold heapAlignment at hbig; omega)
    have hhead : headAddr start cs 0 = s.first := by
      obtain ⟨c, r, rfl⟩ := List.exists_cons_of_ne_nil h.ne_nil
      exact h.first.symm
    rcases findBlock_eq (w := alignUp size) h.laid h.pos h.length_lt with
      ⟨hnone, -⟩ | ⟨l, c, r, rfl, hfree, hfit, -, hfind⟩
    · rw [hhead] at hnone
      rw [hnone]
      exact Or.inl rfl
    · rw [hhead] at hfind
      have hne : start + extent 16 l ≠ 0 := by have := h.pos; omega
      have hcons : c :: r ≠ [] := by simp
      rw [hfind, Option.map_some, if_neg hne]
      refine Or.inr ⟨l, c, r, _, rfl, hfree, hup.1, hfit, rfl, ?_⟩
      refine h.edit _ (headEdit_allocate hcons) (relaid_allocate _ h.laid hcons h.end_lt)
        (dvd_allocate (dvd_alignUp size)) ?_
      rw [u32, Nat.mod_eq_of_lt h.active_lt, h.active, countUsed_append, countUsed_append,
        countUsed_allocate, hfree]
      rfl

/-! ## `ef2_free` -/

theorem Tiled.prev_pos (h : Tiled start stop s cs) : start + extent 16 l ≠ 0 := by
  have := h.pos
  omega

theorem dvd_of_eq_append (h : Tiled start stop s (l ++ c :: r)) :
    16 ∣ start + extent 16 l :=
  h.aligned_of_mem (c := c) (by simp)

/-- The allocator after `ef2_free` has unmarked the block `b` and merged it with a free
successor. -/
def unmark (s : State) (b : ℕ) : State :=
  { s with
    mem := mergeWithNext (setMagic s.mem b magicFree) b
    active := if s.active ≠ 0 then s.active - 1 else s.active }

theorem unmark_edits (h : Tiled start stop s (l ++ c :: r)) (hc : c.used = true) :
    EditsAt start stop (start + extent 16 l) s (l ++ c :: r) (unmark s (start + extent 16 l))
      (l ++ absorb 16 (⟨c.size, false⟩ :: r)) := by
  have hcons : c :: r ≠ [] := by simp
  have hmark := relaid_setMagic false h.laid hcons
  have hmerge := relaid_mergeWithNext hmark.laid (by simp) (by simpa using h.end_lt) h.pos
  have hedit : HeadEdit 16 (c :: r) (absorb 16 (⟨c.size, false⟩ :: r)) :=
    (headEdit_setUsed false hcons).trans (headEdit_absorb (by simp))
  refine h.edit _ hedit (hmark.trans hmerge fun x hx _ => ?_) (fun hs => ?_) ?_
  · rw [outsideHeaders_append] at hx ⊢
    exact ⟨hx.1, outsideHeaders_setUsed.2 hx.2⟩
  · exact dvd_absorb (Nat.dvd_refl 16) (dvd_setUsed false hs)
  · have hcount := countUsed_setUsed_false (r := r) hc
    rw [h.active, countUsed_append, countUsed_append, countUsed_absorb, ← hcount, if_pos (by omega)]
    rfl

/-- The link back from the block at the seam. -/
theorem Tiled.previous_eq (h : Tiled start stop s (l ++ c :: r)) :
    blockPrevious s.mem (start + extent 16 l) = lastAddr 0 start l :=
  congrArg Header.previous ((laid_middle rfl).1 h.laid).2.1

theorem Tiled.magic_eq (h : Tiled start stop s (l ++ c :: r)) :
    blockMagic s.mem (start + extent 16 l) = magicOf c.used :=
  (h.laid.header_of_mem (by simp)).2

/-- `ef2_free` of a used block : the block before takes it in, if that one is free. -/
theorem free_unmark (h : Tiled start stop s (l ++ c :: r)) (hc : c.used = true)
    (hb : b = start + extent 16 l) : free s (b + 16) = { unmark s b with
      mem :=
        if lastAddr 0 start l ≠ 0
            ∧ blockMagic (unmark s b).mem (lastAddr 0 start l) = magicFree then
          mergeWithNext (unmark s b).mem (lastAddr 0 start l)
        else (unmark s b).mem } := by
  have hmagic : blockMagic s.mem b = magicAlloc := by rw [hb, h.magic_eq, hc]; rfl
  have halign : 16 ∣ b := hb ▸ dvd_of_eq_append h
  have hunmark := unmark_edits h hc
  obtain ⟨k, r', habsorb, -⟩ := exists_absorb_eq (h := 16) (c := ⟨c.size, false⟩) (r := r)
  rw [habsorb, ← hb] at hunmark
  have hprev := hunmark.tiled.previous_eq
  rw [← hb] at hprev
  unfold free payloadBlock heapAlignment headerSize
  rw [if_neg (by simp [h.ready]), if_neg (by omega), Nat.add_sub_cancel,
    if_neg (by simpa using hmagic), ← hprev]
  rfl

/-- `ef2_free` of a used block releases it. -/
theorem free_eq (h : Tiled start stop s (l ++ c :: r)) (hc : c.used = true) :
    EditsAt start stop (start + extent 16 l) s (l ++ c :: r)
      (free s (start + extent 16 l + 16)) (release 16 l (⟨c.size, false⟩ :: r)) := by
  obtain ⟨b, hb⟩ : ∃ b, b = start + extent 16 l := ⟨_, rfl⟩
  have hfree := free_unmark h hc hb
  have hunmark := unmark_edits h hc
  obtain ⟨k, r', habsorb, -⟩ := exists_absorb_eq (h := 16) (c := ⟨c.size, false⟩) (r := r)
  rw [habsorb, ← hb] at hunmark
  rw [← hb]
  rcases List.eq_nil_or_concat' l with rfl | ⟨l, d, rfl⟩
  · rw [release_nil, habsorb, hfree, if_neg (by simp [lastAddr])]
    exact hunmark
  · have htiled := hunmark.tiled
    rw [List.append_assoc, List.singleton_append] at htiled
    rw [lastAddr_concat, htiled.magic_eq] at hfree
    simp only [magicOf_eq_free] at hfree
    rw [release_concat, habsorb, hfree]
    cases hd : d.used with
    | true =>
      rw [if_neg (by simp), if_pos rfl]
      simpa using hunmark
    | false =>
      -- the block before is free, and takes in the freed one
      have hmerge := relaid_mergeWithNext htiled.laid (by simp) htiled.end_lt htiled.pos
      have hlast := htiled.edit (unmark s b).active (headEdit_absorb (by simp)) hmerge
        (dvd_absorb (Nat.dvd_refl 16)) (by
          rw [htiled.active, countUsed_append, countUsed_append, countUsed_absorb])
      rw [if_pos ⟨htiled.prev_pos, rfl⟩, if_neg (by simp)]
      refine ⟨hlast.tiled, ?_, fun {p k'} hp => ?_⟩
      · refine hunmark.relaid.trans (by simpa using hlast.relaid) fun x hx _ => ?_
        rw [outsideHeaders_append] at hx ⊢
        exact ⟨hx.1, habsorb ▸ OutsideHeaders.absorb (by simpa using hx.2)⟩
      · rw [← hunmark.used hp, List.append_assoc, List.singleton_append, cells_append,
          cells_append, List.mem_append, List.mem_append, used_absorb_of_free hd]

/-! ## Writes to a payload -/

/-- A write inside the payload of a block reaches no header. -/
theorem Tiled.write {m : ByteMemory.Mem} (h : Tiled start stop s cs)
    (hb : (b, c) ∈ cells 16 start cs)
    (hm : ∀ x, x < b + 16 ∨ b + 16 + c.size ≤ x → m x = s.mem x) :
    Tiled start stop { s with mem := m } cs := by
  refine { h with laid := h.laid.congr fun b' c' hb' => header_congr fun x hx hx' => hm x ?_ }
  rcases cells_disjoint hb hb' with ⟨rfl, -⟩ | hlt | hlt
  · omega
  · omega
  · omega

/-! ## `ef2_realloc` -/

/-- The source's checks on the pointer pass for a used block. -/
theorem realloc_live (h : Tiled start stop s (l ++ c :: r)) (hc : c.used = true)
    (hsize : size ≠ 0) (hb : b = start + extent 16 l) : realloc s (b + 16) size =
      if alignUp size ≤ c.size then
        some (b + 16, { s with mem := splitBlock s.mem b (alignUp size) })
      else if blockNext s.mem b ≠ 0 ∧ blockMagic s.mem (blockNext s.mem b) = magicFree ∧
          u32 (c.size + 16 + blockSize s.mem (blockNext s.mem b)) ≥ alignUp size then
        some (b + 16, { s with
          mem := setMagic (splitBlock (mergeWithNext s.mem b) b (alignUp size)) b magicAlloc })
      else
        (malloc s size).map fun (replacement, s) =>
          if replacement = 0 then (0, s)
          else (replacement, free { s with
            mem := copyBytes s.mem replacement (b + 16) (if c.size < size then c.size else size) }
            (b + 16)) := by
  have halign : 16 ∣ b := hb ▸ dvd_of_eq_append h
  have hmagic : blockMagic s.mem b = magicAlloc := by rw [hb, h.magic_eq, hc]; rfl
  have hbsize : blockSize s.mem b = c.size := hb ▸ (h.laid.header_of_mem (by simp)).1
  unfold realloc payloadBlock heapAlignment headerSize
  rw [if_neg (by omega), if_neg hsize, if_neg (by simp [h.ready]; omega), Nat.add_sub_cancel,
    if_neg (by simpa using hmagic)]
  simp only [hbsize]

/-- Shrinking cuts the block in place. -/
theorem realloc_shrink (h : Tiled start stop s (l ++ c :: r)) (hc : c.used = true)
    (hsize : size ≠ 0) (hle : alignUp size ≤ c.size) : ∃ s',
      realloc s (start + extent 16 l + 16) size = some (start + extent 16 l + 16, s') ∧
      EditsAt start stop (start + extent 16 l) s (l ++ c :: r) s'
        (l ++ split 16 16 (alignUp size) (c :: r)) := by
  refine ⟨_, by rw [realloc_live h hc hsize rfl, if_pos hle], ?_⟩
  refine h.edit s.active (headEdit_split 16 _ (by simp))
    (relaid_splitBlock _ h.laid (by simp) h.end_lt)
    (dvd_split (Nat.dvd_refl 16) (dvd_alignUp size)) ?_
  rw [h.active, countUsed_append, countUsed_append, countUsed_split]

/-- Growing into a free successor. -/
theorem realloc_grow (h : Tiled start stop s (l ++ c :: d :: r)) (hc : c.used = true)
    (hsize : size ≠ 0) (hlt : c.size < alignUp size) (hd : d.used = false)
    (hfit : alignUp size ≤ c.size + (16 + d.size)) : ∃ s',
      realloc s (start + extent 16 l + 16) size = some (start + extent 16 l + 16, s') ∧
      EditsAt start stop (start + extent 16 l) s (l ++ c :: d :: r) s'
        (l ++ allocate (alignUp size) (⟨c.size + (16 + d.size), true⟩ :: r)) := by
  obtain ⟨b, hb⟩ : ∃ b, b = start + extent 16 l := ⟨_, rfl⟩
  obtain ⟨-, hblock, hafter, -⟩ := (laid_middle hb).1 h.laid
  have hnext : blockNext s.mem b = b + (16 + c.size) := congrArg Header.next hblock
  have hdsize : blockSize s.mem (blockNext s.mem b) = d.size :=
    hnext ▸ congrArg Header.size hafter
  have hdmagic : blockMagic s.mem (blockNext s.mem b) = magicOf d.used :=
    hnext ▸ congrArg Header.magic hafter
  have hend := h.end_lt
  rw [extent_append, extent_cons, extent_cons] at hend
  have hfound : blockNext s.mem b ≠ 0 ∧ blockMagic s.mem (blockNext s.mem b) = magicFree ∧
      u32 (c.size + 16 + blockSize s.mem (blockNext s.mem b)) ≥ alignUp size := by
    refine ⟨by omega, by rw [hdmagic, hd]; rfl, ?_⟩
    rw [hdsize, u32, Nat.mod_eq_of_lt (by omega)]
    omega
  have habsorb : absorb 16 (c :: d :: r) = ⟨c.size + (16 + d.size), true⟩ :: r := by
    rw [absorb_cons_cons, hd, hc]
    rfl
  have hmerge := relaid_mergeWithNext h.laid (by simp) h.end_lt h.pos
  have hedit : HeadEdit 16 (c :: d :: r) (absorb 16 (c :: d :: r)) := headEdit_absorb (by simp)
  have hcount : countUsed (absorb 16 (c :: d :: r)) = countUsed (c :: d :: r) := countUsed_absorb
  have hdvd : (∀ e ∈ c :: d :: r, 16 ∣ e.size) → ∀ e ∈ absorb 16 (c :: d :: r), 16 ∣ e.size :=
    dvd_absorb (Nat.dvd_refl 16)
  rw [habsorb] at hmerge hedit hcount hdvd
  rw [← hb] at hmerge ⊢
  refine ⟨_, by rw [realloc_live h hc hsize hb, if_neg (by omega), if_pos hfound], ?_⟩
  have hcut := relaid_allocate (alignUp size) hmerge.laid (by simp)
    (by rw [extent_append, hedit.extent, ← extent_append]; exact h.end_lt)
  rw [← hb] at hcut
  have := h.edit s.active (hedit.trans (headEdit_allocate (w := alignUp size) hedit.ne_nil))
    (hmerge.trans hcut fun x hx _ => ?_) (fun hs => dvd_allocate (dvd_alignUp size) (hdvd hs)) ?_
  · rwa [← hb] at this
  · rw [outsideHeaders_append] at hx ⊢
    exact ⟨hx.1, habsorb ▸ hx.2.absorb⟩
  · rw [h.active, countUsed_append, countUsed_append, countUsed_allocate, hcount]
    rfl

/-- `ef2_realloc` allocates the free block `c₁` for the used block `c`, copies the payload and
frees `c`. -/
def Moves (start stop : ℕ) (s : State) (l : List Chunk) (c : Chunk) (r : List Chunk)
    (size : ℕ) : Prop :=
  ∃ l₁ c₁ r₁ s₁ l₂ r₂, l ++ c :: r = l₁ ++ c₁ :: r₁ ∧ c₁.used = false ∧
    alignUp size ≤ c₁.size ∧
    EditsAt start stop (start + extent 16 l₁) s (l ++ c :: r) s₁
      (l₁ ++ allocate (alignUp size) (c₁ :: r₁)) ∧
    l₁ ++ allocate (alignUp size) (c₁ :: r₁) = l₂ ++ c :: r₂ ∧
    extent 16 l₂ = extent 16 l ∧
    ∃ s₂ s', s₂ = { s₁ with
        mem :=
          copyBytes s₁.mem (start + extent 16 l₁ + 16) (start + extent 16 l + 16) c.size } ∧
      Tiled start stop s₂ (l₂ ++ c :: r₂) ∧
      realloc s (start + extent 16 l + 16) size = some (start + extent 16 l₁ + 16, s') ∧
      EditsAt start stop (start + extent 16 l) s₂ (l₂ ++ c :: r₂) s'
        (release 16 l₂ (⟨c.size, false⟩ :: r₂))

/-- With no room in place `ef2_realloc` allocates a new block, copies the old payload and
frees the old block, or fails and changes nothing. -/
theorem realloc_move (h : Tiled start stop s (l ++ c :: r)) (hc : c.used = true)
    (hsize : size ≠ 0) (hlt : c.size < alignUp size)
    (hr : ∀ d ∈ r.head?, d.used = false → c.size + (16 + d.size) < alignUp size) :
    realloc s (start + extent 16 l + 16) size = some (0, s) ∨ Moves start stop s l c r size := by
  obtain ⟨b, hb⟩ : ∃ b, b = start + extent 16 l := ⟨_, rfl⟩
  have hroom : ¬(blockNext s.mem b ≠ 0 ∧ blockMagic s.mem (blockNext s.mem b) = magicFree ∧
      u32 (c.size + 16 + blockSize s.mem (blockNext s.mem b)) ≥ alignUp size) := by
    obtain ⟨-, hblock, hafter⟩ := (laid_middle hb).1 h.laid
    have hnext : blockNext s.mem b = headAddr (b + (16 + c.size)) r 0 :=
      congrArg Header.next hblock
    rintro ⟨hne, hfree, hfit⟩
    rcases r with _ | ⟨d, r⟩
    · exact hne hnext
    · rw [headAddr_cons] at hnext
      have hdsize : blockSize s.mem (blockNext s.mem b) = d.size :=
        hnext ▸ congrArg Header.size hafter.1
      have hdmagic : blockMagic s.mem (blockNext s.mem b) = magicOf d.used :=
        hnext ▸ congrArg Header.magic hafter.1
      have hend := h.end_lt
      rw [extent_append, extent_cons, extent_cons] at hend
      rw [hdsize, u32, Nat.mod_eq_of_lt (by omega)] at hfit
      have := hr d rfl (magicOf_eq_free.1 (hdmagic ▸ hfree))
      omega
  have hreq := realloc_live h hc hsize hb
  rw [if_neg (by omega), if_neg hroom] at hreq
  rw [Moves, ← hb, hreq]
  rcases malloc_eq h size with hnull | ⟨l₁, c₁, r₁, s₁, hcs, hfree, hle, hfit, hmalloc, hedit⟩
  · left
    rw [hnull]
    rfl
  · right
    -- the old block is still there, away from the new one
    have hold : (b, c) ∈ cells 16 start (l ++ c :: r) := by simp [hb]
    have hnew : (start + extent 16 l₁, c₁) ∈ cells 16 start (l ++ c :: r) := by simp [hcs]
    have hne : b ≠ start + extent 16 l₁ := by
      rintro rfl
      have := eq_of_mem_cells (by decide) hold hnew
      rw [← this, hc] at hfree
      exact absurd hfree (by simp)
    obtain ⟨k, hck⟩ : ∃ k, c = ⟨k, true⟩ := ⟨c.size, by rw [← hc]⟩
    have hold₁ : (b, c) ∈ cells 16 start (l₁ ++ allocate (alignUp size) (c₁ :: r₁)) := by
      exact hck ▸ (hedit.used hne).2 (hck ▸ hold)
    obtain ⟨k', r', halloc, hk'⟩ := exists_allocate_eq (r := r₁) hfit
    have hnew₁ : (start + extent 16 l₁, ⟨k', true⟩) ∈
        cells 16 start (l₁ ++ allocate (alignUp size) (c₁ :: r₁)) := by simp [halloc]
    have hdvd : 16 ∣ c.size := h.sizes c (by simp)
    have hcopy : c.size < size := by
      unfold alignUp u32 heapAlignment at hlt
      omega
    obtain ⟨l₂, r₂, hcs₂, hb₂⟩ := exists_of_mem_cells hold₁
    have htiled := hedit.tiled.write hnew₁
      (m := copyBytes s₁.mem (start + extent 16 l₁ + 16) (b + 16) c.size)
      fun x hx => copyBytes_of_disjoint s₁.mem _ (by simp at hx; omega)
    rw [hcs₂] at htiled
    have hfreed := free_eq htiled hc
    rw [← hb₂] at hfreed
    refine ⟨l₁, c₁, r₁, s₁, l₂, r₂, hcs, hfree, hfit, hedit, hcs₂, by omega, _, _, rfl, htiled,
      ?_, hfreed⟩
    have hnull : start + extent 16 l₁ + 16 ≠ 0 := by omega
    simp only [hmalloc, Option.map_some, if_neg hnull, if_pos hcopy]

/-- The paths of `ef2_realloc` on a used block : it shrinks in place, grows into a free
successor, fails and changes nothing, or moves. -/
theorem realloc_cases (h : Tiled start stop s (l ++ c :: r)) (hc : c.used = true)
    (hsize : size ≠ 0) :
    (alignUp size ≤ c.size ∧ ∃ s',
      realloc s (start + extent 16 l + 16) size = some (start + extent 16 l + 16, s') ∧
      EditsAt start stop (start + extent 16 l) s (l ++ c :: r) s'
        (l ++ split 16 16 (alignUp size) (c :: r))) ∨
    c.size < alignUp size ∧
      ((∃ d r' s', r = d :: r' ∧ d.used = false ∧ alignUp size ≤ c.size + (16 + d.size) ∧
        realloc s (start + extent 16 l + 16) size = some (start + extent 16 l + 16, s') ∧
        EditsAt start stop (start + extent 16 l) s (l ++ c :: r) s'
          (l ++ allocate (alignUp size) (⟨c.size + (16 + d.size), true⟩ :: r'))) ∨
      realloc s (start + extent 16 l + 16) size = some (0, s) ∨ Moves start stop s l c r size) := by
  by_cases hle : alignUp size ≤ c.size
  · exact Or.inl ⟨hle, realloc_shrink h hc hsize hle⟩
  · have hlt := Nat.lt_of_not_le hle
    refine Or.inr ⟨hlt, ?_⟩
    by_cases hgrow : ∃ d r', r = d :: r' ∧ d.used = false ∧ alignUp size ≤ c.size + (16 + d.size)
    · obtain ⟨d, r, rfl, hd, hfit⟩ := hgrow
      obtain ⟨s', hgrown⟩ := realloc_grow h hc hsize hlt hd hfit
      exact Or.inl ⟨d, r, s', rfl, hd, hfit, hgrown⟩
    · refine Or.inr (realloc_move h hc hsize hlt fun d hd hfree => ?_)
      obtain ⟨r', rfl⟩ := List.head?_eq_some_iff.1 hd
      by_contra hroom
      exact hgrow ⟨d, r', rfl, hfree, Nat.le_of_not_lt hroom⟩

/-! ## `ef2_calloc` -/

/-- `ef2_calloc` fails and changes nothing, or is an allocation filled with zeros. -/
theorem calloc_eq (h : Tiled start stop s cs) (count size : ℕ) :
    calloc s count size = some (0, s) ∨
    ∃ total l c r s₁, checkedMultiply count size = some total ∧ cs = l ++ c :: r ∧
      c.used = false ∧ total ≤ alignUp total ∧ alignUp total ≤ c.size ∧
      EditsAt start stop (start + extent 16 l) s cs s₁ (l ++ allocate (alignUp total) (c :: r)) ∧
      calloc s count size = some (start + extent 16 l + 16,
        { s₁ with mem := fillBytes s₁.mem (start + extent 16 l + 16) 0 total }) := by
  unfold calloc
  split_ifs with h0
  · exact Or.inl rfl
  · cases hmul : checkedMultiply count size with
    | none => exact Or.inl rfl
    | some total =>
      rcases malloc_eq h total with hnull | ⟨l, c, r, s₁, hcs, hfree, hle, hfit, hmalloc, hedit⟩
      · left
        simp [hnull]
      · right
        exact ⟨total, l, c, r, s₁, rfl, hcs, hfree, hle, hfit, hedit, by simp [hmalloc]⟩

end EF2SDK.Heap
