import EF2SDK.HeapCoalescing
import EF2SDK.HeapTiling

/-!
# Blocks on loan

The live allocations of a heap are the payloads of the blocks on its list that are marked
allocated (`Live`). A function that allocates a block, fills it and frees it before it
returns leaves the allocations of its callers as they were : the same ones are live, with
their sizes and bytes (`malloc_loan`).
-/

set_option autoImplicit false

namespace EF2SDK.Heap

open ByteMemory Chunks

variable {start stop size n p q x : ℕ} {s s' s₁ : State} {m : Mem} {cs : List Chunk}

/-! ## Live allocations -/

/-- The payload of an allocated block of the list. -/
def Live (s : State) (p : ℕ) : Prop :=
  ∃ b, Block s b ∧ blockMagic s.mem b = magicAlloc ∧ p = blockPayload b

theorem Tiled.live_iff (h : Tiled start stop s cs) : Live s p ↔ Held start cs p := by
  constructor
  · rintro ⟨b, hblock, hmagic, rfl⟩
    obtain ⟨⟨k, used⟩, hb⟩ := h.mem_of_block hblock
    obtain ⟨-, hheader⟩ := h.laid.header_of_mem hb
    cases used with
    | true => exact ⟨b, k, rfl, hb⟩
    | false => exact absurd (show magicFree = magicAlloc from hheader.symm.trans hmagic) (by decide)
  · rintro ⟨b, k, rfl, hb⟩
    obtain ⟨l, r, rfl, rfl⟩ := exists_of_mem_cells hb
    obtain ⟨-, hheader⟩ := h.laid.header_of_mem hb
    exact ⟨_, h.block_of_append rfl, hheader, rfl⟩

/-- The same allocations are live, with the same sizes and bytes. -/
structure SameLive (s s' : State) : Prop where
  live : ∀ p, Live s' p ↔ Live s p
  usable : ∀ p, Live s p → heapUsableSize s' p = heapUsableSize s p
  bytes : ∀ p x, Live s p → p ≤ x → x < p + heapUsableSize s p → s'.mem x = s.mem x

theorem SameLive.refl (s : State) : SameLive s s :=
  ⟨fun _ => Iff.rfl, fun _ _ => rfl, fun _ _ _ _ _ => rfl⟩

/-! ## A loan -/

/-- The block that `ef2_malloc` hands out has room for what was asked. -/
theorem malloc_block (h : Tiled start stop s cs) (hp : p ≠ 0)
    (hres : malloc s n = some (p, s₁)) : ∃ cs₁ b k, p = b + 16 ∧ n ≤ k ∧
      (b, ⟨k, true⟩) ∈ cells 16 start cs₁ ∧ Outcome start stop s cs 0 p s₁ cs₁ := by
  obtain hnull | ⟨l, c, r, s', rfl, hfree, hup, hfit, hmalloc, hedit⟩ := malloc_eq h n
  · obtain ⟨rfl, -⟩ := Prod.mk.inj (Option.some.inj (hnull.symm.trans hres))
    exact absurd rfl hp
  · obtain ⟨rfl, rfl⟩ := Prod.mk.inj (Option.some.inj (hmalloc.symm.trans hres))
    obtain ⟨k, r', halloc, hk⟩ := exists_allocate_eq (r := r) hfit
    refine ⟨_, start + extent 16 l, k, rfl, hup.trans hk, ?_,
      allocate_outcome h hfree hfit hedit fun _ _ => rfl⟩
    simp [halloc]

theorem tiled_loan (h : Tiled start stop s cs) (hp : p ≠ 0) (hres : malloc s n = some (p, s₁))
    (hm : ∀ x, x < p ∨ p + n ≤ x → m x = s₁.mem x) :
    SameLive s (free { s₁ with mem := m } p) := by
  obtain ⟨cs₁, b, k, rfl, hnk, hb, hout⟩ := malloc_block h hp hres
  have hfresh := malloc_fresh h hres
  have hheld : Held start cs₁ (b + 16) := ⟨b, k, rfl, hb⟩
  have hwritten : Tiled start stop { s₁ with mem := m } cs₁ :=
    hout.tiled.write hb fun x hx => hm x (by simp only at hx; omega)
  obtain ⟨cs₂, hfreed⟩ := free_outcome hwritten hheld
  -- a payload that was live is another one than the loan, and stays
  have hstays (q : ℕ) (hq : Held start cs q) : q ≠ b + 16 ∧ Held start cs₁ q :=
    ⟨fun heq => hfresh (heq ▸ hq), (hout.held q).2 (Or.inr ⟨hq, hq.pos⟩)⟩
  refine ⟨fun q => ?_, fun q hq => ?_, fun q x hq hx hx' => ?_⟩
  · rw [hfreed.tiled.live_iff, h.live_iff, hfreed.held, hout.held]
    constructor
    · rintro (⟨rfl, h0⟩ | ⟨⟨rfl, -⟩ | ⟨hq, -⟩, hne⟩)
      · exact absurd rfl h0
      · exact absurd rfl hne
      · exact hq
    · exact fun hq => Or.inr ⟨Or.inr ⟨hq, hq.pos⟩, (hstays q hq).1⟩
  · obtain ⟨hne, hq₁⟩ := hstays q (h.live_iff.1 hq)
    rw [hfreed.usable q hq₁ hne, ← hout.usable q (h.live_iff.1 hq) (h.live_iff.1 hq).pos]
    obtain ⟨b', k', rfl, hb'⟩ := hq₁
    rw [hwritten.usable hb', hout.tiled.usable hb']
  · obtain ⟨hne, hq₁⟩ := hstays q (h.live_iff.1 hq)
    have hsize := hout.usable q (h.live_iff.1 hq) (h.live_iff.1 hq).pos
    obtain ⟨b', k', rfl, hb'⟩ := hq₁
    rw [hout.tiled.usable hb'] at hsize
    rw [← hsize] at hx'
    rw [hfreed.bytes (b' + 16) x ⟨b', k', rfl, hb'⟩ hne hx (by rwa [hwritten.usable hb'])]
    refine (hm x ?_).trans
      (hout.bytes (b' + 16) x (h.live_iff.1 hq) (h.live_iff.1 hq).pos hx (by rwa [← hsize]))
    rcases cells_disjoint hb hb' with ⟨rfl, -⟩ | hlt | hlt
    · exact absurd rfl hne
    · simp only at hlt
      omega
    · simp only at hlt
      omega

/-! ## Every heap state -/

/-- The heap of a program : `ef2_heap_init` has not succeeded yet, or it has and a client that
passes null or live pointers and writes inside its live payloads has used the heap since. -/
def Reachable (s : State) : Prop :=
  s.ready = false ∨ ∃ (memory size : UInt32) (s₀ s₁ : State) (is : List Request) (t : Client),
    heapInit s₀ memory.toNat size.toNat = (0, s₁) ∧
      Schedule.run next ⟨s₁, []⟩ is = some t ∧ t.heap = s

/-- `ef2_malloc` returns null and changes nothing, or lends a block : whatever is written to
it until it is freed, the allocations are the same afterwards. -/
theorem malloc_loan (h : Reachable s) (n : ℕ) : malloc s n = some (0, s) ∨
    ∃ p s₁, p ≠ 0 ∧ malloc s n = some (p, s₁) ∧
      ∀ m : Mem, (∀ x, x < p ∨ p + n ≤ x → m x = s₁.mem x) →
        SameLive s (free { s₁ with mem := m } p) := by
  obtain hready | ⟨memory, size, s₀, s₁, is, t, hinit, hrun, rfl⟩ := h
  · exact Or.inl (if_pos (Or.inl hready))
  · obtain hnull | ⟨start, stop, -, -, cs, htiled, -⟩ := run_inv hinit hrun
    · exact Or.inl (malloc_of_first_null hnull.1 n)
    · obtain hfail | ⟨p, s', cs', hp, hmalloc, -⟩ := malloc_outcome htiled n
      · exact Or.inl hfail
      · exact Or.inr ⟨p, s', hp, hmalloc, fun m hm => tiled_loan htiled hp hmalloc hm⟩

end EF2SDK.Heap
