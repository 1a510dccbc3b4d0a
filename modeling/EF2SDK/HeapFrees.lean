import EF2SDK.ChunkFrees
import EF2SDK.HeapClient
import Mathlib.Data.Finset.Lattice.Lemmas
import Mathlib.Data.Finset.Dedup

/-!
# The order of frees

`ef2_free` merges a block with the neighbours that are free at that moment, and leaves the
headers of absorbed blocks behind. Nevertheless the blocks that a sequence of frees builds are
those of the set of pointers it frees (`Frees`) : a header left behind keeps the magic number of
a free block, which makes every further free of its pointer do nothing (`magic_free`).

`frees_commute` : two sequences that free the same pointers, with repetitions, leave the same
block list and the same counter, in every heap that a client reaches.
-/

set_option autoImplicit false

namespace EF2SDK.Heap

open ByteMemory Chunks

variable {start stop a b p x : ℕ} {s s' : State} {m : Mem} {c d : Chunk} {l r cs : List Chunk}
  {F : Finset ℕ}

/-! ## Headers left behind -/

/-- A merge writes no magic number. -/
theorem magic_mergeWithNext (h : Laid m 0 0 a (l ++ c :: r)) (ha : 0 < a) (hb : b = a + extent 16 l)
    (halign : 16 ∣ b) (hsizes : ∀ d ∈ c :: r, 16 ∣ d.size)
    (hend : b + extent 16 (c :: r) < 2 ^ 32) (hx : 16 ∣ x) :
    blockMagic (mergeWithNext m b) x = blockMagic m x := by
  obtain ⟨-, hc, hr⟩ := (laid_middle hb).1 h
  have hnext : blockNext m b = headAddr (b + (16 + c.size)) r 0 := congrArg Header.next hc
  rw [extent_cons] at hend
  cases r with
  | nil => rw [mergeWithNext_of_not_free (Or.inl hnext)]
  | cons d r =>
    rw [headAddr_cons] at hnext
    rw [extent_cons] at hend
    obtain ⟨hd, -⟩ := hr
    rw [← hnext] at hd
    by_cases hfree : blockMagic m (blockNext m b) = magicFree
    · have hcsize : 16 ∣ c.size := hsizes c (by simp)
      have hdsize : 16 ∣ d.size := hsizes d (by simp)
      have hsize : blockSize m b = c.size := congrArg Header.size hc
      have hsize' : blockSize m (blockNext m b) = d.size := congrArg Header.size hd
      have hnn : blockNext m (blockNext m b) = headAddr (blockNext m b + (16 + d.size)) r 0 :=
        congrArg Header.next hd
      have hafter : blockNext m (blockNext m b) ≠ 0 →
          blockNext m (blockNext m b) = blockNext m b + (16 + d.size) := by
        rw [hnn]
        exact fun hne => (headAddr_eq_of_ne_zero hne).1
      obtain ⟨hblock, hlink, hframe⟩ := header_mergeWithNext (m := m) (b := b) (by omega) hfree
        (by omega) (by omega) (fun h0 => by have := hafter h0; omega) (by omega)
      by_cases hxb : x = b
      · rw [hxb]
        exact congrArg Header.magic hblock
      · by_cases hxn : blockNext m (blockNext m b) ≠ 0 ∧ x = blockNext m (blockNext m b)
        · rw [hxn.2]
          exact congrArg Header.magic (hlink hxn.1)
        · refine congrArg Header.magic
            (header_congr fun y hy hy' => hframe y (by omega) fun h0 => ?_)
          have hnn' := hafter h0
          have hne : x ≠ blockNext m (blockNext m b) := fun heq => hxn ⟨h0, heq⟩
          omega
    · rw [mergeWithNext_of_not_free (Or.inr hfree)]

/-- The magic numbers after a free. -/
theorem magic_free (h : Tiled start stop s (l ++ c :: r)) (hc : c.used = true)
    (hb : b = start + extent 16 l) (hx : 16 ∣ x) :
    blockMagic (free s (b + 16)).mem x = if x = b then magicFree else blockMagic s.mem x := by
  have halign : 16 ∣ b := hb ▸ dvd_of_eq_append h
  have hmark := relaid_setMagic false h.laid (List.cons_ne_nil c r)
  rw [setUsed_cons, ← hb] at hmark
  have hmarked : blockMagic (setMagic s.mem b magicFree) x =
      if x = b then magicFree else blockMagic s.mem x := by
    split_ifs with hxb
    · rw [hxb]
      exact congrArg Header.magic (header_setMagic magicFree_lt)
    · exact congrArg Header.magic (header_setMagic_of_apart (by omega))
  have hend : b + extent 16 ((⟨c.size, false⟩ : Chunk) :: r) < 2 ^ 32 := by
    have hend := h.end_lt
    rw [extent_append, ← Nat.add_assoc, ← hb] at hend
    exact hend
  have hsizes : ∀ d ∈ (⟨c.size, false⟩ : Chunk) :: r, 16 ∣ d.size := by
    intro d hd
    rcases List.mem_cons.1 hd with rfl | hd
    · exact h.sizes c (by simp)
    · exact h.sizes d (by simp [hd])
  have hunmark : blockMagic (unmark s b).mem x =
      if x = b then magicFree else blockMagic s.mem x :=
    (magic_mergeWithNext hmark.laid h.pos hb halign hsizes hend hx).trans hmarked
  rw [free_unmark h hc hb, ← hunmark]
  dsimp only
  rcases List.eq_nil_or_concat' l with rfl | ⟨l, d, rfl⟩
  · rw [if_neg (by simp [lastAddr])]
  · have htiled := (unmark_edits h hc).tiled
    rw [← hb, List.append_assoc, List.singleton_append] at htiled
    rw [lastAddr_concat]
    split_ifs
    · have hsizes : ∀ e ∈ d :: absorb 16 (⟨c.size, false⟩ :: r), 16 ∣ e.size :=
        fun e he => htiled.sizes e (List.mem_append_right l he)
      have hend := htiled.end_lt
      rw [extent_append, ← Nat.add_assoc] at hend
      exact magic_mergeWithNext htiled.laid htiled.pos rfl (dvd_of_eq_append htiled) hsizes hend hx
    · rfl

/-- A pointer that is no longer an allocation is not freed. -/
theorem free_of_magic (h : blockMagic s.mem b = magicFree) : free s (b + 16) = s := by
  have hmagic : blockMagic s.mem b ≠ magicAlloc := by
    rw [h]
    decide
  unfold free payloadBlock headerSize
  rw [Nat.add_sub_cancel]
  dsimp only
  rw [if_pos hmagic]
  split_ifs <;> rfl

/-! ## Sequences of frees -/

/-- The heap tiled by `cs`, with the blocks of `F` freed since. -/
structure Frees (start stop : ℕ) (cs : List Chunk) (F : Finset ℕ) (s : State) : Prop where
  tiled : Tiled start stop s (freed 16 F start cs)
  aligned : ∀ b ∈ F, 16 ∣ b
  stale : ∀ b ∈ F, blockMagic s.mem b = magicFree

theorem Tiled.frees (h : Tiled start stop s cs) : Frees start stop cs ∅ s :=
  ⟨by rwa [freed_empty], by simp, by simp⟩

theorem Frees.free (h : Frees start stop cs F s) (hp : (b, c) ∈ cells 16 start cs)
    (hc : c.used = true) : Frees start stop cs (insert b F) (free s (b + 16)) := by
  by_cases hF : b ∈ F
  · rw [free_of_magic (h.stale b hF), Finset.insert_eq_of_mem hF]
    exact h
  · obtain ⟨l, r, rfl, rfl⟩ := exists_of_mem_cells hp
    obtain ⟨l', r', hextent, hfreed, hinsert⟩ := exists_freed_insert (by decide) hc hF (r := r)
    have htiled := h.tiled
    rw [hfreed] at htiled
    rw [← hextent] at hinsert hF ⊢
    refine ⟨?_, fun x hx => ?_, fun x hx => ?_⟩
    · rw [hinsert]
      exact (free_eq htiled hc).tiled
    · rcases Finset.mem_insert.1 hx with rfl | hx
      · exact dvd_of_eq_append htiled
      · exact h.aligned x hx
    · rcases Finset.mem_insert.1 hx with rfl | hx
      · rw [magic_free htiled hc rfl (dvd_of_eq_append htiled), if_pos rfl]
      · rw [magic_free htiled hc rfl (h.aligned x hx), h.stale x hx, ite_self]

theorem Frees.foldl {ps : List ℕ} (h : Frees start stop cs F s) (hps : ∀ p ∈ ps, Held start cs p) :
    Frees start stop cs ((ps.map payloadBlock).toFinset ∪ F) (ps.foldl Heap.free s) := by
  induction ps generalizing F s with
  | nil =>
    rw [List.map_nil, List.toFinset_nil, Finset.empty_union]
    exact h
  | cons p ps ih =>
    obtain ⟨⟨b, k, rfl, hb⟩, hrest⟩ := List.forall_mem_cons.1 hps
    have hset : (((b + 16) :: ps).map payloadBlock).toFinset ∪ F =
        (ps.map payloadBlock).toFinset ∪ insert b F := by
      rw [List.map_cons, List.toFinset_cons, Finset.insert_union, Finset.union_insert]
      rfl
    rw [hset]
    exact ih (h.free hb rfl) hrest

/-- A pointer that was freed already. -/
theorem Frees.free_again (h : Frees start stop cs F s) (hb : b ∈ F) :
    Heap.free s (b + 16) = s :=
  free_of_magic (h.stale b hb)

/-! ## The block list -/

/-- The blocks from `block` on, with their headers. -/
def walk (m : Mem) : (fuel block : ℕ) → Option (List (ℕ × Header))
  | 0, _ => none
  | fuel + 1, block =>
    if block = 0 then some []
    else (walk m fuel (blockNext m block)).map ((block, header m block) :: ·)

/-- The block list of the heap, along the `next` links from `g_heap_first`. -/
def blockList (s : State) : Option (List (ℕ × Header)) :=
  walk s.mem maxBlocks s.first

/-- The blocks and headers of a chunk list. -/
def listing : (prev a : ℕ) → List Chunk → List (ℕ × Header)
  | _, _, [] => []
  | prev, a, c :: cs =>
    (a, ⟨c.size, magicOf c.used, prev, headAddr (a + (16 + c.size)) cs 0⟩) ::
      listing a (a + (16 + c.size)) cs

theorem walk_eq {prev fuel : ℕ} (h : Laid m 0 prev a cs) (ha : 0 < a) (hfuel : cs.length < fuel) :
    walk m fuel (headAddr a cs 0) = some (listing prev a cs) := by
  induction cs generalizing prev a fuel with
  | nil =>
    obtain ⟨fuel, rfl⟩ := Nat.exists_eq_add_of_lt hfuel
    simp [walk, listing]
  | cons c cs ih =>
    obtain ⟨fuel, rfl⟩ : ∃ k, fuel = k + 1 := ⟨fuel - 1, by omega⟩
    obtain ⟨hc, hcs⟩ := h
    have hnext : blockNext m a = headAddr (a + (16 + c.size)) cs 0 := congrArg Header.next hc
    have hlen : cs.length < fuel := by simpa using hfuel
    rw [headAddr_cons, walk, if_neg (by omega), hnext, ih hcs (by omega) hlen, hc]
    rfl

theorem Tiled.blockList_eq (h : Tiled start stop s cs) :
    blockList s = some (listing 0 start cs) := by
  have hhead : headAddr start cs 0 = s.first := by
    obtain ⟨c, r, rfl⟩ := List.exists_cons_of_ne_nil h.ne_nil
    exact h.first.symm
  rw [blockList, ← hhead]
  exact walk_eq h.laid h.pos h.length_lt

/-! ## Every order -/

/-- The allocator looks the same : its block list can be walked and is the same in both states,
and so are the static variables. -/
structure SameBlocks (s s' : State) : Prop where
  blocks : ∃ bs, blockList s = some bs ∧ blockList s' = some bs
  first : s'.first = s.first
  total : s'.total = s.total
  active : s'.active = s.active
  ready : s'.ready = s.ready

theorem Tiled.sameBlocks (h : Tiled start stop s cs) (h' : Tiled start stop s' cs) :
    SameBlocks s s' where
  blocks := ⟨_, h.blockList_eq, h'.blockList_eq⟩
  first := h'.first.trans h.first.symm
  total := by
    have htotal := h.total
    have htotal' := h'.total
    omega
  active := h'.active.trans h.active.symm
  ready := h'.ready.trans h.ready.symm

variable {t : Client}

/-- Whatever the order and the repetitions, frees of the same live pointers build the same
blocks, and a free of one of them again does nothing. -/
theorem frees_commute {memory size : UInt32} {s₀ : State} {is : List Request}
    (hinit : heapInit s₀ memory.toNat size.toNat = (0, s))
    (hrun : Schedule.run next ⟨s, []⟩ is = some t) {ps qs : List ℕ} (hps : ∀ p ∈ ps, p ∈ t.live)
    (hsame : ∀ p, p ∈ ps ↔ p ∈ qs) :
    SameBlocks (ps.foldl free t.heap) (qs.foldl free t.heap) ∧
      ∀ p ∈ ps, free (ps.foldl free t.heap) p = ps.foldl free t.heap := by
  rcases run_inv hinit hrun with ⟨hfirst, hlive⟩ | ⟨start, stop, -, -, cs, ht, hlive⟩
  · -- no pointer is live in a heap at the null pointer
    have hnil : ps = [] := List.eq_nil_iff_forall_not_mem.2 fun p hp => by
      simpa [hlive] using hps p hp
    subst hnil
    obtain rfl : qs = [] := List.eq_nil_iff_forall_not_mem.2 fun p hp => by
      simpa using (hsame p).2 hp
    have hwalk : blockList t.heap = some [] := by
      rw [blockList, hfirst]
      rfl
    exact ⟨⟨⟨[], hwalk, hwalk⟩, rfl, rfl, rfl, rfl⟩, by simp⟩
  · have hps : ∀ p ∈ ps, Held start cs p := fun p hp => (hlive p).1 (hps p hp)
    have hfp := ht.frees.foldl hps
    have hfq := ht.frees.foldl fun p hp => hps p ((hsame p).2 hp)
    have hset : (qs.map payloadBlock).toFinset = (ps.map payloadBlock).toFinset := by
      ext b
      simp only [List.mem_toFinset, List.mem_map, hsame]
    rw [hset] at hfq
    refine ⟨hfp.tiled.sameBlocks hfq.tiled, fun p hp => ?_⟩
    obtain ⟨b, k, rfl, -⟩ := hps p hp
    refine hfp.free_again (Finset.mem_union_left _ ?_)
    exact List.mem_toFinset.2 (List.mem_map.2 ⟨b + 16, hp, rfl⟩)

/-- Three neighbours freed from the left, and from both ends with a repetition. -/
theorem frees_commute_neighbours : ∃ t,
    Schedule.run next ⟨(heapInit boot 0x100000 8192).2, []⟩
      [.malloc 16, .malloc 32, .malloc 48] = some t ∧
    SameBlocks ([0x100010, 0x100030, 0x100060].foldl free t.heap)
      ([0x100060, 0x100010, 0x100060, 0x100030].foldl free t.heap) := by
  have hrun : (Schedule.run next ⟨(heapInit boot 0x100000 8192).2, []⟩
      [.malloc 16, .malloc 32, .malloc 48]).map Client.live =
        some [0x100060, 0x100030, 0x100010] := by decide +kernel
  obtain ⟨t, ht, hlive⟩ := Option.map_eq_some_iff.1 hrun
  have hinit : heapInit boot (0x100000 : UInt32).toNat (8192 : UInt32).toNat =
      (0, (heapInit boot 0x100000 8192).2) := Prod.ext (by decide +kernel) rfl
  refine ⟨t, ht, (frees_commute hinit ht ?_ ?_).1⟩
  · rw [hlive]
    decide
  · intro p
    simp only [List.mem_cons, List.not_mem_nil, or_false]
    omega

end EF2SDK.Heap
