import Mathlib.Algebra.GroupWithZero.Nat
import EF2SDK.HeapCoalescing
import EF2SDK.HeapFrees

/-!
# The heap as a tiling of its region

What the chunk list of a run says in the source's own terms (`Tiles`) : the blocks lie one
after the other from the aligned start of the region to its aligned end, each linked to the
next and back. The sizes and headers then add up to the initialized total (`sum_sizes`).

The pointers of a client are the used chunks without repetition, so the counter
`g_heap_active` is their number. The block list is the one that a walk from `g_heap_first` visits.
It tiles the region exactly as long as the rounding of the region's start does not wrap to the
null pointer (`heap_tiles`), where the list is empty and the heap has no block.
-/

set_option autoImplicit false

namespace EF2SDK.Heap

open ByteMemory Chunks

variable {start stop total size a b p ptr : ℕ} {s s' : State} {m : Mem} {c : Chunk}
  {l r cs cs' : List Chunk} {t t' : Client} {i : Request}

/-! ## Addresses of a chunk list -/

/-- The addresses of the blocks from `a` on. -/
def addresses (a : ℕ) (cs : List Chunk) : List ℕ :=
  (cells 16 a cs).map Prod.fst

@[simp] theorem addresses_nil : addresses a [] = [] :=
  rfl

@[simp] theorem addresses_cons : addresses a (c :: cs) = a :: addresses (a + (16 + c.size)) cs :=
  rfl

theorem mem_addresses : b ∈ addresses a cs ↔ ∃ c, (b, c) ∈ cells 16 a cs := by
  simp [addresses]

/-- A split of the addresses is one of the chunks. -/
theorem addresses_eq_append {bs bs' : List ℕ} (h : addresses a cs = bs ++ b :: bs') :
    ∃ l c r, cs = l ++ c :: r ∧ b = a + extent 16 l ∧ bs' = addresses (b + (16 + c.size)) r := by
  induction bs generalizing a cs with
  | nil =>
    cases cs with
    | nil => simp at h
    | cons c cs =>
      obtain ⟨rfl, rfl⟩ := List.cons.inj h
      exact ⟨[], c, cs, rfl, by simp, rfl⟩
  | cons d bs ih =>
    cases cs with
    | nil => simp at h
    | cons c cs =>
      obtain ⟨l, e, r, rfl, rfl, hbs'⟩ := ih (List.cons.inj h).2
      exact ⟨c :: l, e, r, rfl, by simp [Nat.add_assoc], hbs'⟩

/-! ## The tiling in the source's terms -/

/-- The blocks `bs` fill the region from `start` to `stop` without a gap, linked both ways. -/
structure Tiles (start stop : ℕ) (s : State) (bs : List ℕ) : Prop where
  first : s.first = start
  head : bs.head? = some start
  no_previous : blockPrevious s.mem start = 0
  link : ∀ l b b' r, bs = l ++ b :: b' :: r → b' = blockPayload b + blockSize s.mem b ∧
    blockNext s.mem b = b' ∧ blockPrevious s.mem b' = b
  last : ∀ l b, bs = l ++ [b] → blockPayload b + blockSize s.mem b = stop ∧
    blockNext s.mem b = 0
  sizes : ∀ b ∈ bs, 16 ∣ blockSize s.mem b
  magics : ∀ b ∈ bs, blockMagic s.mem b = magicAlloc ∨ blockMagic s.mem b = magicFree

theorem tiles_of_laid (hfirst : s.first = start) (h : Laid s.mem 0 0 start cs) (hne : cs ≠ [])
    (hsizes : ∀ c ∈ cs, 16 ∣ c.size) (hspan : start + extent 16 cs = stop) :
    Tiles start stop s (addresses start cs) := by
  have hmem : ∀ b ∈ addresses start cs, ∃ c ∈ cs, blockSize s.mem b = c.size ∧
      blockMagic s.mem b = magicOf c.used := by
    intro b hb
    obtain ⟨c, hc⟩ := mem_addresses.1 hb
    obtain ⟨l, r, rfl, -⟩ := exists_of_mem_cells hc
    exact ⟨c, by simp, h.header_of_mem hc⟩
  refine ⟨hfirst, ?_, ?_, fun bs b b' bs' heq => ?_, fun bs b heq => ?_, fun b hb => ?_,
    fun b hb => ?_⟩
  · obtain ⟨c, r, rfl⟩ := List.exists_cons_of_ne_nil hne
    rfl
  · obtain ⟨c, r, rfl⟩ := List.exists_cons_of_ne_nil hne
    exact congrArg Header.previous h.1
  · obtain ⟨l, c, r, rfl, rfl, hr⟩ := addresses_eq_append heq
    obtain ⟨-, hc, hrest⟩ := (laid_middle rfl).1 h
    cases r with
    | nil => simp at hr
    | cons d r =>
      rw [addresses_cons] at hr
      obtain ⟨rfl, -⟩ := List.cons.inj hr
      refine ⟨?_, congrArg Header.next hc, congrArg Header.previous hrest.1⟩
      rw [show blockSize s.mem _ = c.size from congrArg Header.size hc]
      simp [blockPayload, headerSize, Nat.add_assoc]
  · obtain ⟨l, c, r, rfl, rfl, hr⟩ := addresses_eq_append heq
    obtain ⟨-, hc, -⟩ := (laid_middle rfl).1 h
    cases r with
    | nil =>
      refine ⟨?_, congrArg Header.next hc⟩
      rw [show blockSize s.mem _ = c.size from congrArg Header.size hc, ← hspan]
      simp [blockPayload, headerSize, Nat.add_assoc]
    | cons d r => simp at hr
  · obtain ⟨c, hc, hsize, -⟩ := hmem b hb
    exact hsize ▸ hsizes c hc
  · obtain ⟨c, -, -, hmagic⟩ := hmem b hb
    rw [hmagic]
    cases c.used
    · exact Or.inr rfl
    · exact Or.inl rfl

/-- Sizes and headers fill the region. -/
theorem Tiles.sum_sizes {bs : List ℕ} (h : Tiles start stop s bs) :
    start + headerSize * bs.length + (bs.map (blockSize s.mem)).sum = stop := by
  obtain ⟨r, rfl⟩ := List.head?_eq_some_iff.1 h.head
  have hlink := h.link
  have hlast := h.last
  clear h
  induction r generalizing start with
  | nil =>
    have := (hlast [] start rfl).1
    simp [blockPayload] at this ⊢
    omega
  | cons b r ih =>
    have hb := (hlink [] start b r rfl).1
    have hrest := ih (fun l c c' r heq => hlink (start :: l) c c' r (by rw [heq]; rfl))
      fun l c heq => hlast (start :: l) c (by rw [heq]; rfl)
    simp [blockPayload, headerSize] at hb hrest ⊢
    omega

/-! ## The live pointers are counted -/

/-- The payloads of the used blocks. -/
def payloads (a : ℕ) (cs : List Chunk) : List ℕ :=
  ((cells 16 a cs).filter (·.2.used)).map (blockPayload ·.1)

theorem mem_payloads : p ∈ payloads start cs ↔ Held start cs p := by
  simp only [payloads, List.mem_map, List.mem_filter, Prod.exists]
  constructor
  · rintro ⟨b, ⟨k, u⟩, ⟨hb, hu⟩, rfl⟩
    obtain rfl : u = true := hu
    exact ⟨b, k, rfl, hb⟩
  · rintro ⟨b, k, rfl, hb⟩
    exact ⟨b, ⟨k, true⟩, ⟨hb, rfl⟩, rfl⟩

theorem length_payloads : (payloads a cs).length = countUsed cs := by
  induction cs generalizing a with
  | nil => rfl
  | cons c cs ih =>
    have hcs := ih (a := a + (16 + c.size))
    unfold payloads countUsed at hcs ⊢
    rw [List.length_map] at hcs ⊢
    rw [cells_cons, List.filter_cons, List.countP_cons]
    split_ifs with hu
    · rw [List.length_cons, hcs]
    · rw [hcs, Nat.add_zero]

theorem nodup_payloads : (payloads a cs).Nodup := by
  induction cs generalizing a with
  | nil => exact List.nodup_nil
  | cons c cs ih =>
    have hcs := ih (a := a + (16 + c.size))
    unfold payloads at hcs ⊢
    rw [cells_cons, List.filter_cons]
    split_ifs with hu
    · refine List.nodup_cons.2 ⟨fun hmem => ?_, hcs⟩
      obtain ⟨b, k, hb, hcell⟩ := mem_payloads.1 hmem
      have hbounds := (bounds_of_mem_cells hcell).1
      have : a + 16 = b + 16 := hb
      omega
    · exact hcs

theorem length_live (h : Tiled start stop t.heap cs) (hlive : ∀ p, p ∈ t.live ↔ Held start cs p)
    (hn : t.live.Nodup) : t.heap.active = t.live.length := by
  have hperm : t.live.Perm (payloads start cs) :=
    (List.perm_ext_iff_of_nodup hn nodup_payloads).2 fun p => (hlive p).trans mem_payloads.symm
  rw [h.active, hperm.length_eq, length_payloads]

/-! ## Every run -/

theorem findBlock_ends (h : Tiled start stop s cs) (wanted : ℕ) :
    ∃ b, findBlock s.mem wanted maxBlocks s.first = some b := by
  have hhead : headAddr start cs 0 = s.first := by
    obtain ⟨c, r, rfl⟩ := List.exists_cons_of_ne_nil h.ne_nil
    exact h.first.symm
  rw [← hhead]
  rcases findBlock_eq (w := wanted) h.laid h.pos h.length_lt with
    ⟨hnone, -⟩ | ⟨l, c, r, -, -, -, -, hsome⟩
  · exact ⟨0, hnone⟩
  · exact ⟨_, hsome⟩

theorem map_fst_listing (prev : ℕ) : (listing prev a cs).map Prod.fst = addresses a cs := by
  induction cs generalizing prev a with
  | nil => rfl
  | cons c cs ih => rw [listing, List.map_cons, ih, addresses_cons]

/-- The addresses of the block list, from `g_heap_first` along the `next` links. -/
def blockAddresses (s : State) : Option (List ℕ) :=
  (blockList s).map fun bs => bs.map Prod.fst

/-- The block list tiles the region from `start` to `stop`, its sizes and headers add up to the
total, the counter of allocations is the number of live pointers, and every walk ends. -/
structure TilesRegion (start stop : ℕ) (t : Client) : Prop where
  blocks : ∃ bs, blockAddresses t.heap = some bs ∧ Tiles start stop t.heap bs ∧
    (bs.map (blockSize t.heap.mem)).sum + headerSize * (bs.length - 1) = t.heap.total
  distinct : t.live.Nodup
  active : t.heap.active = t.live.length
  searches : ∀ wanted, ∃ b, findBlock t.heap.mem wanted maxBlocks t.heap.first = some b
  stats : ∃ free largest, heapGetStats t.heap =
    some (0, some ⟨t.heap.total, free, largest, t.live.length⟩)

theorem Tiled.tilesRegion (h : Tiled start stop t.heap cs)
    (hlive : ∀ p, p ∈ t.live ↔ Held start cs p) (hn : t.live.Nodup) :
    TilesRegion start stop t := by
  have htiles := tiles_of_laid h.first h.laid h.ne_nil h.sizes h.span
  have hactive := length_live h hlive hn
  refine ⟨⟨addresses start cs, ?_, htiles, ?_⟩, hn, hactive, findBlock_ends h, _, _,
    hactive ▸ heapGetStats_eq h⟩
  · rw [blockAddresses, h.blockList_eq, Option.map_some, map_fst_listing]
  · have hsizes := htiles.sum_sizes
    have htotal := h.total
    obtain ⟨r, hr⟩ := List.head?_eq_some_iff.1 htiles.head
    rw [hr] at hsizes ⊢
    simp [headerSize] at hsizes ⊢
    omega

/-- The heap at the null pointer has no block. -/
theorem not_tilesRegion_of_null (hfirst : t.heap.first = 0) : ¬TilesRegion start stop t := by
  rintro ⟨⟨bs, hbs, htiles, -⟩, -⟩
  have hempty : blockAddresses t.heap = some [] := by
    rw [blockAddresses, blockList, hfirst]
    rfl
  obtain rfl := Option.some.inj (hempty.symm.trans hbs)
  cases htiles.head

/-- After every run the block list tiles the aligned region, exactly when the start of the region
is not rounded up to the null pointer. -/
theorem heap_tiles {memory size : UInt32} {s₀ : State} {is : List Request}
    (hinit : heapInit s₀ memory.toNat size.toNat = (0, s))
    (hrun : Schedule.run Heap.next ⟨s, []⟩ is = some t) :
    TilesRegion (alignUp memory.toNat) (alignPtrDown (u32 (memory.toNat + size.toNat))) t ↔
      memory ≤ 0xFFFFFFF0 := by
  rw [UInt32.le_iff_toNat_le, show (0xFFFFFFF0 : UInt32).toNat = 0xFFFFFFF0 from rfl]
  rcases run_counted hinit hrun with ⟨hwrap, hfirst, rfl⟩ | ⟨hle, cs, ht, hlive, hn⟩
  · exact iff_of_false (not_tilesRegion_of_null hfirst) (Nat.not_le.2 hwrap)
  · refine iff_of_true (ht.tilesRegion hlive hn) ?_
    have hspan := ht.span
    have hstop := ht.stop_lt
    obtain ⟨k, hk⟩ := dvd_alignUp memory.toNat
    omega

/-- Two blocks allocated, one moved, one freed and allocated again. -/
theorem heap_tiles_moveRun : ∃ t,
    Schedule.run Heap.next ⟨(heapInit boot 0x100000 8192).2, []⟩ moveRun = some t ∧
    TilesRegion 0x100000 0x102000 t := by
  obtain ⟨t, ht⟩ := Option.isSome_iff_exists.1 (show (Schedule.run Heap.next
    ⟨(heapInit boot 0x100000 8192).2, []⟩ moveRun).isSome by decide +kernel)
  have hinit : heapInit boot (0x100000 : UInt32).toNat (8192 : UInt32).toNat =
      (0, (heapInit boot 0x100000 8192).2) := Prod.ext (by decide +kernel) rfl
  exact ⟨t, ht, (heap_tiles hinit ht).2 (by decide)⟩

/-- A region of 4096 bytes at 0xFFFFFFF1 is accepted, with 4064 bytes in total, none of which are
free. -/
theorem wrappedHeap_not_tiled :
    (heapInit boot 0xFFFFFFF1 4096).1 = 0 ∧
      heapGetStats (heapInit boot 0xFFFFFFF1 4096).2 = some (0, some ⟨4064, 0, 0, 0⟩) ∧
      ¬TilesRegion (alignUp 0xFFFFFFF1) (alignPtrDown (u32 (0xFFFFFFF1 + 4096)))
        ⟨(heapInit boot 0xFFFFFFF1 4096).2, []⟩ :=
  ⟨by decide +kernel, by decide +kernel, not_tilesRegion_of_null (by decide +kernel)⟩

end EF2SDK.Heap
