import EF2SDK.HeapClient

/-!
# Free neighbours in the heap

The allocator keeps two free blocks from lying side by side by coalescing : `ef2_malloc` and a
growing `ef2_realloc` cut a block that no free one follows, and `ef2_free` merges the block
with its neighbours on both sides. A shrinking `ef2_realloc` cuts a block whatever
follows it, and leaves the remainder unmerged before a free block (`ShrinksBeforeFree`).

`coalesced_iff` : the heap has no free neighbours in any state of a run exactly when no call
of the run shrinks a block before a free one; and then, with every pointer freed, the heap
is one free block again. `shrinkRun_breaks` is a run that leaves it in two.
-/

set_option autoImplicit false

namespace EF2SDK.Heap

open ByteMemory Chunks

variable {start stop size b p ptr : ℕ} {s s' : State} {m : Mem} {c : Chunk}
  {l r cs cs' : List Chunk} {t t' : Client} {i : Request}

/-! ## One tiling for each state -/

theorem magicOf_injective {u u' : Bool} (h : magicOf u = magicOf u') : u = u' := by
  revert h
  cases u <;> cases u' <;> decide

/-- The headers determine the chunks of a region. -/
theorem Laid.unique {prev prev' a : ℕ} (h : Laid m 0 prev a cs) (h' : Laid m 0 prev' a cs')
    (he : extent 16 cs = extent 16 cs') : cs = cs' := by
  induction cs generalizing prev prev' a cs' with
  | nil =>
    cases cs' with
    | nil => rfl
    | cons c cs' =>
      rw [extent_nil, extent_cons] at he
      omega
  | cons c cs ih =>
    cases cs' with
    | nil =>
      rw [extent_nil, extent_cons] at he
      omega
    | cons c' cs' =>
      obtain ⟨hc, hcs⟩ := h
      obtain ⟨hc', hcs'⟩ := h'
      rw [hc] at hc'
      obtain ⟨hsize, hmagic, -, -⟩ := Header.mk.inj hc'
      have hcc : c = c' := by
        obtain ⟨k, u⟩ := c
        obtain ⟨k', u'⟩ := c'
        rw [show k = k' from hsize, show u = u' from magicOf_injective hmagic]
      subst hcc
      rw [extent_cons, extent_cons] at he
      rw [ih hcs hcs' (by omega)]

theorem Tiled.unique (h : Tiled start stop s cs) (h' : Tiled start stop s cs') : cs = cs' := by
  have hspan := h.span
  have hspan' := h'.span
  exact h.laid.unique h'.laid (by omega)

/-! ## What the calls leave side by side -/

/-- `s` is tiled without free neighbours. -/
def Coalescing (start stop : ℕ) (s : State) : Prop :=
  ∃ cs, Tiled start stop s cs ∧ NoFreeNeighbours cs

theorem head_used_of_free (hn : NoFreeNeighbours (l ++ c :: r)) (hc : c.used = false) :
    ∀ d ∈ r.head?, d.used = true :=
  fun d hd =>
    ((noFreeNeighbours_cons.1 (noFreeNeighbours_append_cons.1 hn).2.1).1 d hd).resolve_left
      (by simp [hc])

theorem allocated_coalescing {w : ℕ} (hn : NoFreeNeighbours (l ++ c :: r)) (hc : c.used = false) :
    NoFreeNeighbours (l ++ allocate w (c :: r)) :=
  NoFreeNeighbours.allocate (noFreeNeighbours_append_cons.1 hn).1
    (noFreeNeighbours_cons.1 (noFreeNeighbours_append_cons.1 hn).2.1).2 (head_used_of_free hn hc)

theorem malloc_coalescing (h : Tiled start stop s cs) (hn : NoFreeNeighbours cs)
    (hres : malloc s size = some (p, s')) : Coalescing start stop s' := by
  rcases malloc_eq h size with hfail | ⟨l, c, r, s₁, rfl, hc, -, -, hmalloc, hedit⟩
  · obtain ⟨-, rfl⟩ := Prod.mk.inj (Option.some.inj (hfail.symm.trans hres))
    exact ⟨cs, h, hn⟩
  · obtain ⟨-, rfl⟩ := Prod.mk.inj (Option.some.inj (hmalloc.symm.trans hres))
    exact ⟨_, hedit.tiled, allocated_coalescing hn hc⟩

theorem calloc_coalescing {count : ℕ} (h : Tiled start stop s cs) (hn : NoFreeNeighbours cs)
    (hres : calloc s count size = some (p, s')) : Coalescing start stop s' := by
  rcases calloc_eq h count size with
    hfail | ⟨total, l, c, r, s₁, -, rfl, hc, hle, hfit, hedit, hcalloc⟩
  · obtain ⟨-, rfl⟩ := Prod.mk.inj (Option.some.inj (hfail.symm.trans hres))
    exact ⟨cs, h, hn⟩
  · obtain ⟨-, rfl⟩ := Prod.mk.inj (Option.some.inj (hcalloc.symm.trans hres))
    obtain ⟨k, r', halloc, hk⟩ := exists_allocate_eq (r := r) hfit
    have hcell : (start + extent 16 l, ⟨k, true⟩) ∈
        cells 16 start (l ++ allocate (alignUp total) (c :: r)) := by simp [halloc]
    refine ⟨_, hedit.tiled.write hcell fun x hx => ?_, allocated_coalescing hn hc⟩
    exact fillBytes_of_disjoint s₁.mem 0 (by simp only at hx; omega)

theorem free_coalescing (h : Tiled start stop s cs) (hn : NoFreeNeighbours cs)
    (hp : ptr = 0 ∨ Held start cs ptr) : Coalescing start stop (free s ptr) := by
  rcases hp with rfl | ⟨b, k, rfl, hb⟩
  · rw [free_null]
    exact ⟨cs, h, hn⟩
  · obtain ⟨l, r, rfl, rfl⟩ := exists_of_mem_cells hb
    obtain ⟨hl, hr⟩ := (noFreeNeighbours_of_used rfl).1 hn
    exact ⟨_, (free_eq h rfl).tiled, hl.release hr⟩

/-- `ef2_realloc` is asked to shrink its block by enough to cut it, and the block after it is
free. -/
def ShrinksBeforeFree (s : State) : Request → Prop
  | .realloc ptr size =>
    ptr ≠ 0 ∧ size ≠ 0 ∧
      alignUp size.toNat + (headerSize + heapAlignment) ≤ blockSize s.mem (payloadBlock ptr) ∧
      blockNext s.mem (payloadBlock ptr) ≠ 0 ∧
      blockMagic s.mem (blockNext s.mem (payloadBlock ptr)) = magicFree
  | _ => False

instance (s : State) : DecidablePred (ShrinksBeforeFree s)
  | .malloc _ => inferInstanceAs (Decidable False)
  | .calloc _ _ => inferInstanceAs (Decidable False)
  | .realloc _ _ => inferInstanceAs (Decidable (_ ∧ _))
  | .free _ => inferInstanceAs (Decidable False)
  | .write _ _ => inferInstanceAs (Decidable False)

/-- The condition on the tiling. -/
theorem shrinksBeforeFree_iff {size : UInt32} {k : ℕ}
    (h : Tiled start stop s (l ++ ⟨k, true⟩ :: r)) (hsize : size ≠ 0) :
    ShrinksBeforeFree s (.realloc (start + extent 16 l + 16) size) ↔
      alignUp size.toNat + (16 + 16) ≤ k ∧ ∃ d ∈ r.head?, d.used = false := by
  have hblock : payloadBlock (start + extent 16 l + 16) = start + extent 16 l :=
    Nat.add_sub_cancel _ _
  have hbsize := (h.laid.header_of_mem
    (show (start + extent 16 l, ⟨k, true⟩) ∈ cells 16 start (l ++ ⟨k, true⟩ :: r) by simp)).1
  obtain ⟨-, hheader, hr⟩ := (laid_middle rfl).1 h.laid
  have hnext : blockNext s.mem (start + extent 16 l) =
    headAddr (start + extent 16 l + (16 + k)) r 0 := congrArg Header.next hheader
  rw [ShrinksBeforeFree, hblock, hbsize, hnext]
  cases r with
  | nil => simp
  | cons d r =>
    have hmagic : blockMagic s.mem (start + extent 16 l + (16 + k)) = magicOf d.used :=
      congrArg Header.magic hr.1
    rw [headAddr_cons, hmagic, magicOf_eq_free]
    simp [hsize, headerSize, heapAlignment]

/-- `ef2_realloc` of a live pointer leaves free neighbours exactly when it shrinks the block
before a free one. -/
theorem realloc_coalescing {size : UInt32} (h : Tiled start stop s cs)
    (hn : NoFreeNeighbours cs) (hp : Held start cs ptr) (hsize : size ≠ 0)
    (hres : realloc s ptr size.toNat = some (p, s')) :
    ∃ cs', Tiled start stop s' cs' ∧
      (NoFreeNeighbours cs' ↔ ¬ShrinksBeforeFree s (.realloc ptr size)) := by
  obtain ⟨b, k, rfl, hb⟩ := hp
  obtain ⟨l, r, rfl, rfl⟩ := exists_of_mem_cells hb
  obtain ⟨hl, hr⟩ := (noFreeNeighbours_of_used rfl).1 hn
  have hne : size.toNat ≠ 0 := fun h0 => hsize (UInt32.toNat_inj.1 h0)
  rw [shrinksBeforeFree_iff h hsize]
  rcases realloc_cases h rfl hne with ⟨-, s₁, hshrink, hedit⟩ | ⟨hlt, hcases⟩
  · obtain ⟨-, rfl⟩ := Prod.mk.inj (Option.some.inj (hshrink.symm.trans hres))
    refine ⟨_, hedit.tiled, ?_⟩
    rw [noFreeNeighbours_split rfl]
    simp [hl, hr]
  · have hno : ¬(alignUp size.toNat + (16 + 16) ≤ k ∧ ∃ d ∈ r.head?, d.used = false) := by
      rintro ⟨hk, -⟩
      simp only at hlt
      omega
    suffices hs : Coalescing start stop s' by
      obtain ⟨cs', ht, hcs'⟩ := hs
      exact ⟨cs', ht, fun _ => hno, fun _ => hcs'⟩
    rcases hcases with ⟨d, r, s₁, rfl, hd, -, hgrown, hedit⟩ | hfail |
      ⟨l₁, c₁, r₁, s₁, l₂, r₂, hcs, hfree, -, -, hcs₂, -, s₂, s₃, -, -, hmove, hrel⟩
    · obtain ⟨-, rfl⟩ := Prod.mk.inj (Option.some.inj (hgrown.symm.trans hres))
      obtain ⟨hhead, hr⟩ := noFreeNeighbours_cons.1 hr
      exact ⟨_, hedit.tiled, hl.allocate hr fun e he => (hhead e he).resolve_left (by simp [hd])⟩
    · obtain ⟨-, rfl⟩ := Prod.mk.inj (Option.some.inj (hfail.symm.trans hres))
      exact ⟨_, h, hn⟩
    · obtain ⟨-, rfl⟩ := Prod.mk.inj (Option.some.inj (hmove.symm.trans hres))
      have halloc := allocated_coalescing (w := alignUp size.toNat) (hcs ▸ hn) hfree
      rw [hcs₂] at halloc
      obtain ⟨hl₂, hr₂⟩ := (noFreeNeighbours_of_used rfl).1 halloc
      exact ⟨_, hrel.tiled, hl₂.release hr₂⟩

/-- What a request of the client does to a heap without free neighbours. -/
theorem exec_coalescing (h : Tiled start stop t.heap cs) (hn : NoFreeNeighbours cs)
    (hlive : ∀ p, p ∈ t.live ↔ Held start cs p) (hl : Legal t i) (hi : exec t i = some t') :
    ∃ cs', Tiled start stop t'.heap cs' ∧
      (NoFreeNeighbours cs' ↔ ¬ShrinksBeforeFree t.heap i) := by
  have hkept : ∀ {j : Request} {s : State}, ¬ShrinksBeforeFree t.heap j →
      Coalescing start stop s → ∃ cs', Tiled start stop s cs' ∧
        (NoFreeNeighbours cs' ↔ ¬ShrinksBeforeFree t.heap j) :=
    fun hj ⟨cs', ht, hcs'⟩ => ⟨cs', ht, fun _ => hj, fun _ => hcs'⟩
  cases i with
  | malloc size =>
    obtain ⟨⟨p, s'⟩, hres, rfl⟩ := Option.map_eq_some_iff.1 hi
    exact hkept not_false (malloc_coalescing h hn hres)
  | calloc count size =>
    obtain ⟨⟨p, s'⟩, hres, rfl⟩ := Option.map_eq_some_iff.1 hi
    exact hkept not_false (calloc_coalescing h hn hres)
  | realloc ptr size =>
    obtain ⟨⟨p, s'⟩, hres, rfl⟩ := Option.map_eq_some_iff.1 hi
    by_cases h0 : ptr = 0
    · rw [h0, realloc_null] at hres
      exact hkept (fun hs => hs.1 h0) (malloc_coalescing h hn hres)
    · have hheld := (hlive ptr).1 (hl.resolve_left h0)
      by_cases hsize : size = 0
      · rw [hsize] at hres
        obtain ⟨-, rfl⟩ :=
          Prod.mk.inj (Option.some.inj ((realloc_zero t.heap h0).symm.trans hres))
        exact hkept (fun hs => hs.2.1 hsize) (free_coalescing h hn (Or.inr hheld))
      · exact realloc_coalescing h hn hheld hsize hres
  | free ptr =>
    obtain rfl := Option.some.inj hi
    exact hkept not_false (free_coalescing h hn (hl.imp_right (hlive ptr).1))
  | write address value =>
    obtain rfl := Option.some.inj hi
    obtain ⟨p, hp, hle, hlt⟩ := hl
    obtain ⟨b, k, rfl, hb⟩ := (hlive p).1 hp
    rw [h.usable hb] at hlt
    refine hkept not_false ⟨cs, h.write hb fun x hx => ?_, hn⟩
    exact Function.update_of_ne (by simp only at hx; omega) _ _

/-! ## Blocks of the list -/

theorem Tiled.block_of_append (h : Tiled start stop s cs) :
    ∀ {l c r}, cs = l ++ c :: r → Block s (start + extent 16 l) := by
  intro l
  induction l using List.reverseRecOn with
  | nil =>
    rintro c r rfl
    have hfirst := Block.first (s := s) (by rw [h.first]; have := h.pos; omega)
    simpa [h.first] using hfirst
  | append_singleton l d ih =>
    rintro c r rfl
    have hblock := ih (c := d) (r := c :: r) (by simp)
    have hl := h.laid
    rw [List.append_assoc, List.singleton_append] at hl
    have hnext : blockNext s.mem (start + extent 16 l) =
        start + extent 16 l + (16 + d.size) :=
      congrArg Header.next ((laid_middle rfl).1 hl).2.1
    have hstep := Block.next hblock (by rw [hnext]; omega)
    rw [hnext] at hstep
    simpa [Nat.add_assoc] using hstep

/-- No two neighbouring blocks of the heap are both free. -/
def Coalesced (s : State) : Prop :=
  ∀ b b', Block s b → Block s b' → b' = b + (headerSize + blockSize s.mem b) →
    ¬(blockMagic s.mem b = magicFree ∧ blockMagic s.mem b' = magicFree)

theorem Tiled.coalesced (h : Tiled start stop s cs) :
    Coalesced s ↔ NoFreeNeighbours cs := by
  constructor
  · intro hc
    refine noFreeNeighbours_iff.2 fun l c d r hcs => ?_
    subst hcs
    have hd : l ++ c :: d :: r = (l ++ [c]) ++ d :: r := by simp
    have hb := h.block_of_append rfl
    have hb' := h.block_of_append hd
    have hcell : (start + extent 16 (l ++ [c]), d) ∈ cells 16 start (l ++ c :: d :: r) := by
      simp [Nat.add_assoc]
    have hsize := (h.laid.header_of_mem
      (show (start + extent 16 l, c) ∈ cells 16 start (l ++ c :: d :: r) by simp)).1
    have hfree := hc _ _ hb hb' (by rw [hsize]; simp [Nat.add_assoc])
    rw [h.magic_eq, (h.laid.header_of_mem hcell).2, magicOf_eq_free, magicOf_eq_free] at hfree
    simpa [or_iff_not_and_not] using hfree
  · rintro hn b b' hb hb' hnext ⟨hfree, hfree'⟩
    obtain ⟨c, hc⟩ := h.mem_of_block hb
    obtain ⟨c', hc'⟩ := h.mem_of_block hb'
    obtain ⟨l, r, rfl, rfl⟩ := exists_of_mem_cells hc
    rw [(h.laid.header_of_mem hc).1] at hnext
    rw [(h.laid.header_of_mem hc).2, magicOf_eq_free] at hfree
    rw [(h.laid.header_of_mem hc').2, magicOf_eq_free] at hfree'
    have hend := bounds_of_mem_cells hc'
    cases r with
    | nil =>
      simp [headerSize] at hend hnext
      omega
    | cons d r =>
      have hd : (b', d) ∈ cells 16 start (l ++ c :: d :: r) := by simp [hnext]
      rw [eq_of_mem_cells (by decide) hc' hd] at hfree'
      have := noFreeNeighbours_iff.1 hn l c d r rfl
      simp [hfree, hfree'] at this

/-! ## `ef2_heap_get_stats` -/

/-- The walk adds up the free bytes and keeps the largest free block. -/
theorem statsLoop_eq {prev a fuel bytes largest : ℕ} (h : Laid m 0 prev a cs) (ha : 0 < a)
    (hfuel : cs.length < fuel) (hbytes : bytes + freeBytes cs < 2 ^ 32) :
    statsLoop m fuel (headAddr a cs 0) bytes largest =
      some (bytes + freeBytes cs, max largest (largestFree cs)) := by
  induction cs generalizing prev a fuel bytes largest with
  | nil =>
    obtain ⟨fuel, rfl⟩ := Nat.exists_eq_add_of_lt hfuel
    simp [statsLoop, freeBytes, largestFree]
  | cons c cs ih =>
    obtain ⟨fuel, rfl⟩ : ∃ k, fuel = k + 1 := ⟨fuel - 1, by omega⟩
    obtain ⟨hc, hcs⟩ := h
    have hmagic : blockMagic m a = magicOf c.used := congrArg Header.magic hc
    have hsize : blockSize m a = c.size := congrArg Header.size hc
    have hnext : blockNext m a = headAddr (a + (16 + c.size)) cs 0 := congrArg Header.next hc
    have hlen : cs.length < fuel := by simpa using hfuel
    rw [headAddr_cons, statsLoop, if_neg (by omega), hnext, hsize, hmagic]
    rw [freeBytes] at hbytes ⊢
    rw [largestFree]
    cases hu : c.used with
    | true =>
      rw [hu, if_pos rfl] at hbytes
      rw [if_pos (by decide), if_pos rfl, if_pos rfl]
      exact ih hcs (by omega) hlen hbytes
    | false =>
      rw [hu, if_neg (by simp)] at hbytes
      have hmax : (if c.size > largest then c.size else largest) = max largest c.size := by
        rw [Nat.max_def]
        split_ifs <;> omega
      have hmagic : ¬(magicOf false ≠ magicFree) := by decide
      rw [if_neg hmagic, hmax, u32, Nat.mod_eq_of_lt (by omega), ih hcs (by omega) hlen (by omega),
        if_neg Bool.false_ne_true, if_neg Bool.false_ne_true, Nat.max_assoc, Nat.add_assoc]

theorem heapGetStats_eq (h : Tiled start stop s cs) : heapGetStats s =
    some (0, some ⟨s.total, freeBytes cs, largestFree cs, s.active⟩) := by
  have hhead : headAddr start cs 0 = s.first := by
    obtain ⟨c, r, rfl⟩ := List.exists_cons_of_ne_nil h.ne_nil
    exact h.first.symm
  have hend := h.end_lt
  have hfree : freeBytes cs ≤ extent 16 cs := freeBytes_le_extent
  have hloop : statsLoop s.mem maxBlocks (headAddr start cs 0) 0 0 =
      some (0 + freeBytes cs, max 0 (largestFree cs)) :=
    statsLoop_eq h.laid h.pos h.length_lt (by omega)
  rw [hhead] at hloop
  unfold heapGetStats
  rw [if_neg (by simp [h.ready]), hloop]
  simp

/-- A heap without free neighbours and without live pointers is one free block. -/
theorem stats_of_all_freed (h : Tiled start stop s cs) (hn : NoFreeNeighbours cs)
    (hfree : ∀ p, ¬Held start cs p) :
    heapGetStats s = some (0, some ⟨s.total, s.total, s.total, s.active⟩) := by
  have hall : ∀ c ∈ cs, c.used = false := by
    intro c hc
    obtain ⟨l, r, rfl⟩ := List.append_of_mem hc
    by_contra hu
    obtain ⟨k, u⟩ := c
    rw [Bool.not_eq_false] at hu
    dsimp only at hu
    exact hfree _ ⟨start + extent 16 l, k, rfl, by simp [hu]⟩
  obtain ⟨c, rfl⟩ := hn.eq_singleton hall h.ne_nil
  have hspan := h.span
  have htotal := h.total
  rw [extent_cons, extent_nil] at hspan
  have hsize : c.size = s.total := by omega
  rw [heapGetStats_eq h]
  simp [freeBytes, largestFree, hall c (by simp), hsize]

/-! ## Every run -/

/-- What coalescing keeps over a run. -/
def CoalescingInv (start stop : ℕ) (t : Client) : Prop :=
  ∃ cs, Tiled start stop t.heap cs ∧ (∀ p, p ∈ t.live ↔ Held start cs p) ∧ NoFreeNeighbours cs

theorem CoalescingInv.next (h : CoalescingInv start stop t) (hi : next t i = some t') :
    ∃ cs', Tiled start stop t'.heap cs' ∧ (∀ p, p ∈ t'.live ↔ Held start cs' p) ∧
      (NoFreeNeighbours cs' ↔ ¬ShrinksBeforeFree t.heap i) := by
  obtain ⟨cs, ht, hlive, hn⟩ := h
  obtain ⟨hl, hi⟩ := Option.ite_none_right_eq_some.1 hi
  obtain ⟨t'', he, ⟨cs', ht', hlive'⟩, -⟩ := Inv.exec ⟨cs, ht, hlive⟩ hl
  obtain rfl := Option.some.inj (he.symm.trans hi)
  obtain ⟨cs'', ht'', hn''⟩ := exec_coalescing ht hn hlive hl hi
  rw [ht''.unique ht'] at hn''
  exact ⟨cs', ht', hlive', hn''⟩

/-- The heap has no free neighbours in any state of a run exactly when no call of the run
shrinks a block before a free one; then, with every pointer freed, it is one free block. -/
theorem coalesced_iff {memory size : UInt32} {s₀ s : State} {is : List Request}
    (hinit : heapInit s₀ memory.toNat size.toNat = (0, s)) (hbase : memory.toNat ≤ 0xFFFFFFF0)
    (hrun : Schedule.run Heap.next ⟨s, []⟩ is = some t) :
    (Schedule.Always Heap.next (fun t => Coalesced t.heap) ⟨s, []⟩ is ↔
      Schedule.Meets Heap.next (fun t i => ¬ShrinksBeforeFree t.heap i) ⟨s, []⟩ is) ∧
    (Schedule.Meets Heap.next (fun t i => ¬ShrinksBeforeFree t.heap i) ⟨s, []⟩ is →
      t.live = [] → ∃ stats, heapGetStats t.heap = some (0, some stats) ∧
        stats.largestFreeBlock = stats.freeBytes ∧ stats.freeBytes = stats.totalBytes) := by
  obtain ⟨-, -, hcase⟩ := heapInit_tiled memory.toNat_lt size.toNat_lt hinit
  rcases hcase with ⟨hwrap, -⟩ | ⟨-, stop, -, htiled⟩
  · omega
  · have hinv : CoalescingInv (alignUp memory.toNat) stop ⟨s, []⟩ := by
      refine ⟨_, htiled, fun p => ?_, ?_⟩
      · simp [Held]
      · exact noFreeNeighbours_iff.2 fun l c d r h => by simp [List.cons_eq_append_iff] at h
    have hstep : ∀ u i u', CoalescingInv (alignUp memory.toNat) stop u →
        ¬ShrinksBeforeFree u.heap i → Heap.next u i = some u' →
        CoalescingInv (alignUp memory.toNat) stop u' := by
      intro u i u' hu hok hi
      obtain ⟨cs', ht, hlive, hn⟩ := hu.next hi
      exact ⟨cs', ht, hlive, hn.2 hok⟩
    refine ⟨Schedule.always_iff_meets hstep ?_ ?_ hinv hrun, fun hm hlive => ?_⟩
    · rintro u ⟨cs, ht, -, hn⟩
      exact ht.coalesced.2 hn
    · intro u i u' hu hi hc
      obtain ⟨cs', ht, -, hn⟩ := hu.next hi
      exact hn.1 (ht.coalesced.1 hc)
    · obtain ⟨cs, ht, hheld, hn⟩ := Schedule.run_invariant hstep hinv hm hrun
      exact ⟨_, stats_of_all_freed ht hn fun p hp => by simpa [hlive] using (hheld p).2 hp,
        rfl, rfl⟩

/-- Two blocks allocated, resized and freed. -/
theorem coalesced_moveRun : ∃ t,
    Schedule.run Heap.next ⟨(heapInit boot 0x100000 8192).2, []⟩ moveRun = some t ∧
    Schedule.Always Heap.next (fun t => Coalesced t.heap)
      ⟨(heapInit boot 0x100000 8192).2, []⟩ moveRun := by
  obtain ⟨t, ht⟩ := Option.isSome_iff_exists.1 (show (Schedule.run Heap.next
    ⟨(heapInit boot 0x100000 8192).2, []⟩ moveRun).isSome by decide +kernel)
  have hinit : heapInit boot (0x100000 : UInt32).toNat (8192 : UInt32).toNat =
      (0, (heapInit boot 0x100000 8192).2) := Prod.ext (by decide +kernel) rfl
  exact ⟨t, ht, (coalesced_iff hinit (by decide) ht).1.2 (by decide +kernel)⟩

/-- A block that is shrunk before the free rest of the heap, and freed. -/
def shrinkRun : List Request :=
  [.malloc 96, .realloc 0x100010 16, .free 0x100010]

/-- With every pointer freed, the heap is left in two neighbouring free blocks. -/
theorem shrinkRun_breaks : ∃ t,
    Schedule.run Heap.next ⟨(heapInit boot 0x100000 8192).2, []⟩ shrinkRun = some t ∧
    t.live = [] ∧ heapGetStats t.heap = some (0, some ⟨8176, 8160, 8064, 0⟩) ∧
    ¬Coalesced t.heap := by
  have hend : (Schedule.run Heap.next ⟨(heapInit boot 0x100000 8192).2, []⟩ shrinkRun).map
      (fun t => (t.live, heapGetStats t.heap)) =
      some ([], some (0, some ⟨8176, 8160, 8064, 0⟩)) := by decide +kernel
  have hblocks : (Schedule.run Heap.next ⟨(heapInit boot 0x100000 8192).2, []⟩ shrinkRun).map
      (fun t => (t.heap.first, blockSize t.heap.mem 0x100000, blockNext t.heap.mem 0x100000,
        blockMagic t.heap.mem 0x100000, blockMagic t.heap.mem 0x100070)) =
      some (0x100000, 96, 0x100070, magicFree, magicFree) := by decide +kernel
  obtain ⟨t, ht, hview⟩ := Option.map_eq_some_iff.1 hend
  rw [ht, Option.map_some, Option.some.injEq] at hblocks
  simp only [Prod.mk.injEq] at hview hblocks
  obtain ⟨hlive, hstats⟩ := hview
  obtain ⟨hfirst, hsize, hnext, hmagic, hmagic'⟩ := hblocks
  refine ⟨t, ht, hlive, hstats, fun hc => ?_⟩
  have hb : Block t.heap 0x100000 := by
    have := Block.first (s := t.heap) (by omega)
    rwa [hfirst] at this
  have hb' : Block t.heap 0x100070 := by
    have := Block.next hb (by omega)
    rwa [hnext] at this
  exact hc _ _ hb hb' (by rw [hsize]; rfl) ⟨hmagic, hmagic'⟩

end EF2SDK.Heap
