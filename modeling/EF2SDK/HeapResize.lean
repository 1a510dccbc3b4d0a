import EF2SDK.HeapClient

/-!
# What `ef2_realloc` returns

`ef2_realloc` of a live pointer to `n` bytes fails and changes nothing, or returns a block of
at least `n` bytes with the old contents, whatever path it takes (`Reallocates`). That needs
`align_up` not to wrap : `ef2_malloc` refuses the sizes above `0xFFFFFFF0` for which it does,
`ef2_realloc` makes no such check, takes them for a size of 0 and shrinks the block.

`reallocates_iff` : in every state of a run, for exactly the sizes up to `0xFFFFFFF0`.
-/

set_option autoImplicit false

namespace EF2SDK.Heap

open ByteMemory Chunks

variable {start stop size n p q : ℕ} {s s' : State} {cs : List Chunk} {t : Client}

/-- The result of `ef2_realloc(p, n)` and the heap after it : null and the heap as it was, or
room for `n` bytes that starts with the old contents. -/
def Reallocates (s : State) (p n q : ℕ) (s' : State) : Prop :=
  q = 0 ∧ s' = s ∨
    q ≠ 0 ∧ n ≤ heapUsableSize s' q ∧
      ∀ i < min (heapUsableSize s p) n, s'.mem (q + i) = s.mem (p + i)

/-- The sizes that `align_up` wraps on are aligned to nothing. -/
theorem alignUp_of_wrap (h : 0xFFFFFFF0 < n) (hn : n < 2 ^ 32) : alignUp n = 0 := by
  unfold alignUp u32 heapAlignment
  omega

/-- No block is as large as the sizes that `align_up` wraps on. -/
theorem Tiled.size_le (h : Tiled start stop s cs) (hp : Held start cs p) :
    heapUsableSize s p ≤ 0xFFFFFFF0 := by
  obtain ⟨b, k, rfl, hb⟩ := hp
  have hend := bounds_of_mem_cells hb
  have hstop := h.end_lt
  rw [h.usable hb]
  simp only at hend
  omega

theorem reallocates_of_le (h : Tiled start stop s cs) (hp : Held start cs p) (hn : n ≠ 0)
    (hle : n ≤ 0xFFFFFFF0) :
    ∃ q s', realloc s p n = some (q, s') ∧ Reallocates s p n q s' := by
  obtain hfail | ⟨q, s', cs', hq, hres, -, hroom, hbytes⟩ := realloc_outcome h hp hn
  · exact ⟨0, s, hfail, Or.inl ⟨rfl, rfl⟩⟩
  · have hfits : n ≤ heapUsableSize s' q := (alignUp_of_le (by omega)).1.trans hroom
    exact ⟨q, s', hres, Or.inr ⟨hq, hfits, fun i hi => hbytes i (by omega)⟩⟩

/-- A size that `align_up` wraps on shrinks the block. -/
theorem not_reallocates_of_lt (h : Tiled start stop s cs) (hp : Held start cs p)
    (hlt : 0xFFFFFFF0 < n) (hn : n < 2 ^ 32) :
    ∃ s', realloc s p n = some (p, s') ∧ ¬Reallocates s p n p s' := by
  obtain ⟨b, k, rfl, hb⟩ := hp
  obtain ⟨l, r, rfl, rfl⟩ := exists_of_mem_cells hb
  have hwrap := alignUp_of_wrap hlt hn
  obtain ⟨s', hres, hedit⟩ := realloc_shrink h rfl (by omega) (hwrap.le.trans (Nat.zero_le k))
  obtain ⟨k', r', hsplit, -⟩ := exists_split_eq (h := 16) (c := ⟨k, true⟩) (r := r) 16 (alignUp n)
  obtain ⟨hout, -⟩ := resize_outcome h hedit hsplit
  have hheld := (hout.held _).2 (Or.inl ⟨rfl, by omega⟩)
  refine ⟨s', hres, ?_⟩
  rintro (⟨hnull, -⟩ | ⟨-, hfits, -⟩)
  · omega
  · exact absurd (hfits.trans (hout.tiled.size_le hheld)) (Nat.not_le.2 hlt)

/-- Every `ef2_realloc` of a live pointer, in every state of a run of a client that passes
null or live pointers and writes inside its live payloads. -/
theorem reallocates_iff {memory size : UInt32} {s₀ s : State} {is : List Request}
    (hinit : heapInit s₀ memory.toNat size.toNat = (0, s))
    (hrun : Schedule.run next ⟨s, []⟩ is = some t) (hp : p ∈ t.live) (n : UInt32) (hn : 0 < n) :
    ∃ q s', realloc t.heap p n.toNat = some (q, s') ∧
      (Reallocates t.heap p n.toNat q s' ↔ n ≤ 0xFFFFFFF0) := by
  obtain hnull | ⟨start, stop, -, -, cs, htiled, hlive⟩ := run_inv hinit hrun
  · rw [hnull.2] at hp
    exact absurd hp List.not_mem_nil
  · have hheld := (hlive p).1 hp
    by_cases hle : n ≤ 0xFFFFFFF0
    · have hne : n.toNat ≠ 0 := (UInt32.lt_iff_toNat_lt.1 hn).ne'
      obtain ⟨q, s', hres, hdone⟩ := reallocates_of_le htiled hheld hne hle
      exact ⟨q, s', hres, iff_of_true hdone hle⟩
    · obtain ⟨s', hres, hfails⟩ :=
        not_reallocates_of_lt htiled hheld (Nat.lt_of_not_le hle) n.toNat_lt
      exact ⟨p, s', hres, iff_of_false hfails hle⟩

/-- One block of 96 bytes. -/
def blockRun : List Request :=
  [.malloc 96]

theorem run_blockRun : ∃ t,
    Schedule.run next ⟨(heapInit boot 0x100000 8192).2, []⟩ blockRun = some t ∧
      t.live = [0x100010] ∧
      (realloc t.heap 0x100010 0xFFFFFFFF).map (fun (q, s') => (q, heapUsableSize s' q)) =
        some (0x100010, 0) := by
  have hrun : (Schedule.run next ⟨(heapInit boot 0x100000 8192).2, []⟩ blockRun).map (fun t =>
      (t.live, (realloc t.heap 0x100010 0xFFFFFFFF).map fun (q, s') => (q, heapUsableSize s' q))) =
        some ([0x100010], some (0x100010, 0)) := by decide +kernel
  obtain ⟨t, ht, hvalue⟩ := Option.map_eq_some_iff.1 hrun
  exact ⟨t, ht, Prod.mk.inj hvalue⟩

/-- `ef2_realloc(p, 0xFFFFFFFF)` returns `p` with no room at all. -/
theorem wraps_to_nothing : ∃ t s',
    Schedule.run next ⟨(heapInit boot 0x100000 8192).2, []⟩ blockRun = some t ∧
      0x100010 ∈ t.live ∧ realloc t.heap 0x100010 0xFFFFFFFF = some (0x100010, s') ∧
      ¬Reallocates t.heap 0x100010 0xFFFFFFFF 0x100010 s' := by
  obtain ⟨t, ht, hlive, hrealloc⟩ := run_blockRun
  obtain ⟨⟨q, s'⟩, hres, hvalue⟩ := Option.map_eq_some_iff.1 hrealloc
  obtain ⟨rfl, hroom⟩ := Prod.mk.inj hvalue
  refine ⟨t, s', ht, by rw [hlive]; exact List.mem_singleton_self _, hres, ?_⟩
  rintro (⟨hnull, -⟩ | ⟨-, hfits, -⟩)
  · exact absurd hnull (by decide)
  · rw [hroom] at hfits
    exact absurd hfits (by decide)

theorem reallocates_iff_blockRun : ∃ t,
    Schedule.run next ⟨(heapInit boot 0x100000 8192).2, []⟩ blockRun = some t ∧
      ∃ q s', realloc t.heap 0x100010 200 = some (q, s') ∧
        Reallocates t.heap 0x100010 200 q s' := by
  obtain ⟨t, ht, hlive, -⟩ := run_blockRun
  have hinit : heapInit boot (0x100000 : UInt32).toNat (8192 : UInt32).toNat =
      (0, (heapInit boot 0x100000 8192).2) := Prod.ext (by decide +kernel) rfl
  have hp : 0x100010 ∈ t.live := by rw [hlive]; exact List.mem_singleton_self _
  obtain ⟨q, s', hres, hiff⟩ := reallocates_iff hinit ht hp 200 (by decide)
  exact ⟨t, ht, q, s', hres, hiff.2 (by decide)⟩

end EF2SDK.Heap
