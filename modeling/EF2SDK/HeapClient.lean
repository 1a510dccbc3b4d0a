import EF2SDK.HeapOps
import EF2SDK.Schedule

/-!
# The heap under a client

A client calls the allocator with pointers it holds and writes to its payloads in between
(`next`). The pointers it holds are the payloads of the used blocks of the tiling, and each
call changes them in one of two ways : it fails and changes nothing, or it gives up the
pointer it was given, if any, and hands out the one it returns, if any (`Outcome`), keeping
the size and the bytes of every other payload.

`heap_safe` draws the consequences for every run : live payloads lie in the region, aligned,
apart from each other and from every header; a call changes no byte of a live payload but
the one it is given; `ef2_realloc` carries the old contents over. Every request of a client
that passes null or live pointers is answered.
-/

set_option autoImplicit false

namespace EF2SDK.Heap

open ByteMemory Chunks

variable {start stop size b k p ptr q x : ℕ} {s s' : State} {m m' m'' : Mem} {c : Chunk}
  {l r cs cs' cs'' : List Chunk} {P : ℕ → Prop}

/-! ## Used blocks that stay -/

/-- The used blocks at the addresses `P` are the same in both lists and keep their bytes. -/
structure Keeps (start : ℕ) (P : ℕ → Prop) (m : Mem) (cs : List Chunk) (m' : Mem)
    (cs' : List Chunk) : Prop where
  used : ∀ b k, P b → ((b, ⟨k, true⟩) ∈ cells 16 start cs' ↔ (b, ⟨k, true⟩) ∈ cells 16 start cs)
  bytes : ∀ b k x, P b → (b, ⟨k, true⟩) ∈ cells 16 start cs → b + 16 ≤ x → x < b + 16 + k →
    m' x = m x

theorem Keeps.mono {Q : ℕ → Prop} (h : Keeps start P m cs m' cs') (hQ : ∀ b, Q b → P b) :
    Keeps start Q m cs m' cs' :=
  ⟨fun b k hb => h.used b k (hQ b hb), fun b k x hb => h.bytes b k x (hQ b hb)⟩

theorem Keeps.trans (h₁ : Keeps start P m cs m' cs') (h₂ : Keeps start P m' cs' m'' cs'') :
    Keeps start P m cs m'' cs'' := by
  refine ⟨fun b k hb => (h₂.used b k hb).trans (h₁.used b k hb), fun b k x hb hc hx hx' => ?_⟩
  rw [h₂.bytes b k x hb ((h₁.used b k hb).2 hc) hx hx', h₁.bytes b k x hb hc hx hx']

theorem EditsAt.keeps (h : EditsAt start stop b s cs s' cs') :
    Keeps start (· ≠ b) s.mem cs s'.mem cs' :=
  ⟨fun _ _ hb => h.used hb, fun _ _ _ hb hc hx hx' =>
    h.relaid.payload hc ((h.used hb).2 hc) hx hx' hx'⟩

/-- A write inside one payload. -/
theorem keeps_write (hb : (b, c) ∈ cells 16 start cs)
    (hm : ∀ x, x < b + 16 ∨ b + 16 + c.size ≤ x → m' x = m x) :
    Keeps start (· ≠ b) m cs m' cs := by
  refine ⟨fun _ _ _ => Iff.rfl, fun b' k' x hne hb' hx hx' => hm x ?_⟩
  rcases cells_disjoint hb hb' with ⟨rfl, -⟩ | hlt | hlt
  · exact (hne rfl).elim
  · omega
  · simp only at hlt
    omega

/-- The bytes of a block that an edit leaves at its place, as far as it reaches before and
after. -/
theorem EditsAt.resized {k k' : ℕ} (h : EditsAt start stop b s cs s' cs')
    (hb : (b, ⟨k, true⟩) ∈ cells 16 start cs) (hb' : (b, ⟨k', true⟩) ∈ cells 16 start cs')
    {i : ℕ} (hi : i < min k k') : s'.mem (b + 16 + i) = s.mem (b + 16 + i) :=
  h.relaid.payload hb hb' (by omega) (by simp only; omega) (by simp only; omega)

/-! ## Pointers and calls -/

/-- `p` is the payload of a used block of `cs`. -/
def Held (start : ℕ) (cs : List Chunk) (p : ℕ) : Prop :=
  ∃ b k, p = b + 16 ∧ (b, ⟨k, true⟩) ∈ cells 16 start cs

theorem Tiled.usable (h : Tiled start stop s cs) (hb : (b, ⟨k, true⟩) ∈ cells 16 start cs) :
    heapUsableSize s (b + 16) = k := by
  obtain ⟨hsize, hmagic⟩ := h.laid.header_of_mem hb
  have hmagic : blockMagic s.mem b = magicAlloc := hmagic
  unfold heapUsableSize payloadBlock headerSize
  rw [if_neg (by simp [h.ready]), Nat.add_sub_cancel, if_neg (by simpa using hmagic), hsize]

/-- A successful call that was given the pointer `ptr` and returned `p`, null standing for
none. -/
structure Outcome (start stop : ℕ) (s : State) (cs : List Chunk) (ptr p : ℕ) (s' : State)
    (cs' : List Chunk) : Prop where
  tiled : Tiled start stop s' cs'
  held : ∀ q, Held start cs' q ↔ q = p ∧ p ≠ 0 ∨ Held start cs q ∧ q ≠ ptr
  usable : ∀ q, Held start cs q → q ≠ ptr → heapUsableSize s' q = heapUsableSize s q
  bytes : ∀ q x, Held start cs q → q ≠ ptr → q ≤ x → x < q + heapUsableSize s q →
    s'.mem x = s.mem x

theorem outcome_of_keeps (h : Tiled start stop s cs) (h' : Tiled start stop s' cs')
    (hk : Keeps start P s.mem cs s'.mem cs')
    (hold : ∀ b k, ¬P b → (b, ⟨k, true⟩) ∈ cells 16 start cs → b + 16 = ptr)
    (hnew : ∀ b k, ¬P b → (b, ⟨k, true⟩) ∈ cells 16 start cs' → b + 16 = p)
    (hp : p ≠ 0 → Held start cs' p) (hptr : Held start cs' ptr → ptr = p) :
    Outcome start stop s cs ptr p s' cs' := by
  have hstay : ∀ b k, (b, ⟨k, true⟩) ∈ cells 16 start cs → b + 16 ≠ ptr → P b := by
    intro b k hb hne
    by_contra hP
    exact hne (hold b k hP hb)
  refine ⟨h', fun q => ⟨?_, ?_⟩, ?_, ?_⟩
  · rintro ⟨b, k, rfl, hb⟩
    by_cases hP : P b
    · by_cases hq : b + 16 = ptr
      · have hpp := hptr ⟨b, k, hq.symm, hb⟩
        exact Or.inl ⟨hq.trans hpp, by omega⟩
      · exact Or.inr ⟨⟨b, k, rfl, (hk.used b k hP).1 hb⟩, hq⟩
    · have hpp := hnew b k hP hb
      exact Or.inl ⟨hpp, by omega⟩
  · rintro (⟨rfl, h0⟩ | ⟨⟨b, k, rfl, hb⟩, hne⟩)
    · exact hp h0
    · exact ⟨b, k, rfl, (hk.used b k (hstay b k hb hne)).2 hb⟩
  · rintro q ⟨b, k, rfl, hb⟩ hne
    rw [h.usable hb, h'.usable ((hk.used b k (hstay b k hb hne)).2 hb)]
  · rintro q x ⟨b, k, rfl, hb⟩ hne hx hx'
    rw [h.usable hb] at hx'
    exact hk.bytes b k x (hstay b k hb hne) hb hx hx'

/-! ## The calls -/

/-- What allocating at a free block does, `m` being the memory once the client got its
block. -/
theorem allocate_outcome {w : ℕ} (h : Tiled start stop s (l ++ c :: r)) (hc : c.used = false)
    (hw : w ≤ c.size)
    (he : EditsAt start stop (start + extent 16 l) s (l ++ c :: r) s'
      (l ++ allocate w (c :: r)))
    (hm : ∀ x, x < start + extent 16 l + 16 ∨ start + extent 16 l + 16 + w ≤ x →
      m x = s'.mem x) :
    Outcome start stop s (l ++ c :: r) 0 (start + extent 16 l + 16) { s' with mem := m }
      (l ++ allocate w (c :: r)) := by
  obtain ⟨b, hb⟩ : ∃ b, b = start + extent 16 l := ⟨_, rfl⟩
  obtain ⟨k, r', halloc, hk⟩ := exists_allocate_eq (r := r) hw
  have hcell : (b, ⟨k, true⟩) ∈ cells 16 start (l ++ allocate w (c :: r)) := by
    simp [halloc, hb]
  have hwrite : ∀ x, x < b + 16 ∨ b + 16 + k ≤ x → m x = s'.mem x :=
    fun x hx => hm x (by omega)
  have hfree : (b, c) ∈ cells 16 start (l ++ c :: r) := by simp [hb]
  rw [← hb] at he ⊢
  refine outcome_of_keeps h (he.tiled.write hcell hwrite)
    (he.keeps.trans (keeps_write hcell hwrite)) ?_ ?_ ?_ ?_
  · intro b' k' hb' hcell'
    rw [not_not.1 hb'] at hcell'
    have := eq_of_mem_cells (by decide) hfree hcell'
    simp [this] at hc
  · intro b' k' hb' _
    rw [not_not.1 hb']
  · exact fun _ => ⟨b, k, rfl, hcell⟩
  · rintro ⟨b', k', h0, -⟩
    omega

theorem malloc_outcome (h : Tiled start stop s cs) (size : ℕ) :
    malloc s size = some (0, s) ∨ ∃ p s' cs', p ≠ 0 ∧ malloc s size = some (p, s') ∧
      Outcome start stop s cs 0 p s' cs' := by
  rcases malloc_eq h size with hnull | ⟨l, c, r, s', rfl, hfree, -, hfit, hmalloc, hedit⟩
  · exact Or.inl hnull
  · exact Or.inr ⟨_, s', _, by omega, hmalloc,
      allocate_outcome h hfree hfit hedit fun _ _ => rfl⟩

theorem calloc_outcome (h : Tiled start stop s cs) (count size : ℕ) :
    calloc s count size = some (0, s) ∨ ∃ p s' cs', p ≠ 0 ∧ calloc s count size = some (p, s') ∧
      Outcome start stop s cs 0 p s' cs' := by
  rcases calloc_eq h count size with
    hnull | ⟨total, l, c, r, s', -, rfl, hfree, hle, hfit, hedit, hcalloc⟩
  · exact Or.inl hnull
  · exact Or.inr ⟨_, _, _, by omega, hcalloc, allocate_outcome h hfree hfit hedit
      fun x hx => fillBytes_of_disjoint s'.mem 0 (by omega)⟩

/-- A chunk that is released is not in use where it began. -/
theorem not_used_release (l r : List Chunk) (k n : ℕ) : (start + extent 16 l, ⟨n, true⟩) ∉
    cells 16 start (release 16 l (⟨k, false⟩ :: r)) := by
  intro hn
  rw [used_release] at hn
  have := eq_of_mem_cells (by decide) hn
    (show (start + extent 16 l, ⟨k, false⟩) ∈ cells 16 start (l ++ ⟨k, false⟩ :: r) by simp)
  simp at this

theorem free_outcome (h : Tiled start stop s cs) (hp : Held start cs ptr) :
    ∃ cs', Outcome start stop s cs ptr 0 (free s ptr) cs' := by
  obtain ⟨b, k, rfl, hb⟩ := hp
  obtain ⟨l, r, rfl, rfl⟩ := exists_of_mem_cells hb
  have hfree := free_eq h rfl
  have hgone : ∀ k', (start + extent 16 l, ⟨k', true⟩) ∉
      cells 16 start (release 16 l (⟨k, false⟩ :: r)) := not_used_release l r k
  refine ⟨_, outcome_of_keeps h hfree.tiled hfree.keeps ?_ ?_ (fun h0 => (h0 rfl).elim) ?_⟩
  · intro b' k' hb' _
    rw [not_not.1 hb']
  · intro b' k' hb' hcell
    rw [not_not.1 hb'] at hcell
    exact (hgone k' hcell).elim
  · rintro ⟨b', k', hb', hcell⟩
    rw [← Nat.add_right_cancel hb'] at hcell
    exact (hgone k' hcell).elim

/-- A block resized in place to `k'` bytes. -/
theorem resize_outcome {k' : ℕ} {f r' : List Chunk} (h : Tiled start stop s (l ++ ⟨k, true⟩ :: r))
    (he : EditsAt start stop (start + extent 16 l) s (l ++ ⟨k, true⟩ :: r) s' (l ++ f))
    (hf : f = ⟨k', true⟩ :: r') :
    Outcome start stop s (l ++ ⟨k, true⟩ :: r) (start + extent 16 l + 16)
      (start + extent 16 l + 16) s' (l ++ f) ∧
    heapUsableSize s' (start + extent 16 l + 16) = k' ∧
    ∀ i < min (heapUsableSize s (start + extent 16 l + 16))
        (heapUsableSize s' (start + extent 16 l + 16)),
      s'.mem (start + extent 16 l + 16 + i) = s.mem (start + extent 16 l + 16 + i) := by
  subst hf
  have hcell : (start + extent 16 l, ⟨k, true⟩) ∈ cells 16 start (l ++ ⟨k, true⟩ :: r) := by simp
  have hcell' : (start + extent 16 l, ⟨k', true⟩) ∈ cells 16 start (l ++ ⟨k', true⟩ :: r') := by
    simp
  refine ⟨outcome_of_keeps h he.tiled he.keeps ?_ ?_ (fun _ => ⟨_, k', rfl, hcell'⟩)
    (fun _ => rfl), he.tiled.usable hcell', fun i hi => ?_⟩
  · intro b' _ hb' _
    rw [not_not.1 hb']
  · intro b' _ hb' _
    rw [not_not.1 hb']
  · rw [h.usable hcell, he.tiled.usable hcell'] at hi
    exact he.resized hcell hcell' hi

/-- A block moved to a free block that fits. -/
theorem move_outcome {l₁ r₁ l₂ r₂ : List Chunk} {s₁ : State} {w : ℕ}
    (h : Tiled start stop s (l ++ ⟨k, true⟩ :: r))
    (hcs : l ++ ⟨k, true⟩ :: r = l₁ ++ c :: r₁) (hc : c.used = false) (hw : w ≤ c.size)
    (hk : k < w)
    (halloc : EditsAt start stop (start + extent 16 l₁) s (l ++ ⟨k, true⟩ :: r) s₁
      (l₁ ++ allocate w (c :: r₁)))
    (hcs₂ : l₁ ++ allocate w (c :: r₁) = l₂ ++ ⟨k, true⟩ :: r₂)
    (hl₂ : extent 16 l₂ = extent 16 l)
    (hfree : EditsAt start stop (start + extent 16 l) { s₁ with
      mem := copyBytes s₁.mem (start + extent 16 l₁ + 16) (start + extent 16 l + 16) k }
      (l₂ ++ ⟨k, true⟩ :: r₂) s' (release 16 l₂ (⟨k, false⟩ :: r₂))) :
    Outcome start stop s (l ++ ⟨k, true⟩ :: r) (start + extent 16 l + 16)
      (start + extent 16 l₁ + 16) s' (release 16 l₂ (⟨k, false⟩ :: r₂)) ∧
    w ≤ heapUsableSize s' (start + extent 16 l₁ + 16) ∧
    ∀ i < min (heapUsableSize s (start + extent 16 l + 16))
        (heapUsableSize s' (start + extent 16 l₁ + 16)),
      s'.mem (start + extent 16 l₁ + 16 + i) = s.mem (start + extent 16 l + 16 + i) := by
  obtain ⟨b, hb⟩ : ∃ b, b = start + extent 16 l := ⟨_, rfl⟩
  obtain ⟨b₁, hb₁⟩ : ∃ b₁, b₁ = start + extent 16 l₁ := ⟨_, rfl⟩
  rw [← hb₁] at halloc
  rw [← hb, ← hb₁] at hfree ⊢
  have hold : (b, ⟨k, true⟩) ∈ cells 16 start (l ++ ⟨k, true⟩ :: r) := by simp [hb]
  have hfree₁ : (b₁, c) ∈ cells 16 start (l ++ ⟨k, true⟩ :: r) := by simp [hcs, hb₁]
  have hne : b ≠ b₁ := by
    rintro rfl
    have := eq_of_mem_cells (by decide) hold hfree₁
    simp [← this] at hc
  obtain ⟨k', r', hhead, hk'⟩ := exists_allocate_eq (r := r₁) hw
  have hnew : (b₁, ⟨k', true⟩) ∈ cells 16 start (l₁ ++ allocate w (c :: r₁)) := by
    simp [hhead, hb₁]
  have hcopy : Keeps start (· ≠ b₁) s₁.mem (l₁ ++ allocate w (c :: r₁))
      (copyBytes s₁.mem (b₁ + 16) (b + 16) k) (l₁ ++ allocate w (c :: r₁)) :=
    keeps_write hnew fun x hx => copyBytes_of_disjoint s₁.mem _ (by simp only at hx; omega)
  rw [hcs₂] at hcopy hnew
  have hgone : ∀ n, (b, ⟨n, true⟩) ∉ cells 16 start (release 16 l₂ (⟨k, false⟩ :: r₂)) := by
    rw [hb, ← hl₂]
    exact not_used_release l₂ r₂ k
  have hnew' : (b₁, ⟨k', true⟩) ∈ cells 16 start (release 16 l₂ (⟨k, false⟩ :: r₂)) :=
    (hfree.used hne.symm).2 hnew
  have halloc' := hcs₂ ▸ halloc.keeps
  have hkeeps : Keeps start (fun q => q ≠ b ∧ q ≠ b₁) s.mem (l ++ ⟨k, true⟩ :: r) s'.mem
      (release 16 l₂ (⟨k, false⟩ :: r₂)) :=
    ((halloc'.trans hcopy).mono fun _ hq => hq.2).trans (hfree.keeps.mono fun _ hq => hq.1)
  refine ⟨outcome_of_keeps h hfree.tiled hkeeps ?_ ?_ (fun _ => ⟨b₁, k', rfl, hnew'⟩) ?_,
    hk'.trans (hfree.tiled.usable hnew').ge, ?_⟩
  · intro b' n hP hcell
    by_cases hb' : b' = b
    · rw [hb']
    · obtain rfl : b' = b₁ := by
        by_contra hb₁'
        exact hP ⟨hb', hb₁'⟩
      have := eq_of_mem_cells (by decide) hfree₁ hcell
      simp [this] at hc
  · intro b' n hP hcell
    by_cases hb' : b' = b₁
    · rw [hb']
    · obtain rfl : b' = b := by
        by_contra hbb
        exact hP ⟨hbb, hb'⟩
      exact (hgone n hcell).elim
  · rintro ⟨b', n, hb', hcell⟩
    rw [← Nat.add_right_cancel hb'] at hcell
    exact (hgone n hcell).elim
  · intro i hi
    rw [h.usable hold, hfree.tiled.usable hnew'] at hi
    have hik : i < k := by omega
    -- the free keeps the new payload, the copy filled it, the allocation kept the old one
    have hapart : b₁ + 16 + k ≤ b + 16 ∨ b + 16 + k ≤ b₁ + 16 := by
      have holds : (b, ⟨k, true⟩) ∈ cells 16 start (l₂ ++ ⟨k, true⟩ :: r₂) := by simp [hb, hl₂]
      rcases cells_disjoint holds hnew with ⟨hbb, -⟩ | hlt | hlt
      · exact (hne hbb).elim
      · simp only at hlt
        omega
      · simp only at hlt
        omega
    calc s'.mem (b₁ + 16 + i)
      _ = copyBytes s₁.mem (b₁ + 16) (b + 16) k (b₁ + 16 + i) :=
        hfree.keeps.bytes b₁ k' (b₁ + 16 + i) hne.symm hnew (by omega) (by omega)
      _ = s₁.mem (b + 16 + i) := copyBytes_of_lt s₁.mem hik hapart
      _ = s.mem (b + 16 + i) := halloc'.bytes b k (b + 16 + i) hne hold (by omega) (by omega)

theorem realloc_outcome (h : Tiled start stop s cs) (hp : Held start cs ptr) (hsize : size ≠ 0) :
    realloc s ptr size = some (0, s) ∨ ∃ p s' cs', p ≠ 0 ∧ realloc s ptr size = some (p, s') ∧
      Outcome start stop s cs ptr p s' cs' ∧ alignUp size ≤ heapUsableSize s' p ∧
      ∀ i < min (heapUsableSize s ptr) (heapUsableSize s' p), s'.mem (p + i) = s.mem (ptr + i) := by
  obtain ⟨b, k, rfl, hb⟩ := hp
  obtain ⟨l, r, rfl, rfl⟩ := exists_of_mem_cells hb
  rcases realloc_cases h rfl hsize with ⟨hle, s', hrealloc, hedit⟩ |
    ⟨hlt, ⟨d, r, s', rfl, -, hfit, hrealloc, hedit⟩ | hnull |
      ⟨l₁, c₁, r₁, s₁, l₂, r₂, hcs, hfree, hfit, hedit, hcs₂, hl₂, s₂, s', rfl, -, hrealloc, hrel⟩⟩
  · obtain ⟨k', r', hsplit, -, hk'⟩ :=
      exists_split_eq (h := 16) (c := ⟨k, true⟩) (r := r) 16 (alignUp size)
    obtain ⟨hout, hroom, hbytes⟩ := resize_outcome h hedit hsplit
    exact Or.inr ⟨_, s', _, by omega, hrealloc, hout, (hk' hle).trans hroom.ge, hbytes⟩
  · obtain ⟨k', r', halloc, hk'⟩ :=
      exists_allocate_eq (c := ⟨k + (16 + d.size), true⟩) (r := r) hfit
    obtain ⟨hout, hroom, hbytes⟩ := resize_outcome h hedit halloc
    exact Or.inr ⟨_, s', _, by omega, hrealloc, hout, hk'.trans hroom.ge, hbytes⟩
  · exact Or.inl hnull
  · obtain ⟨hout, hroom, hbytes⟩ := move_outcome h hcs hfree hfit hlt hedit hcs₂ hl₂ hrel
    exact Or.inr ⟨_, s', _, by omega, hrealloc, hout, hroom, hbytes⟩

/-! ## The client -/

/-- The allocator, and the non-null pointers its client holds. -/
structure Client where
  heap : State
  live : List ℕ

/-- A call of the allocator, or a write by the client. -/
inductive Request
  | malloc (size : UInt32)
  | calloc (count size : UInt32)
  | realloc (ptr : ℕ) (size : UInt32)
  | free (ptr : ℕ)
  | write (address : ℕ) (value : UInt8)

/-- The pointer a call is given, or null. -/
def Request.pointer : Request → ℕ
  | realloc ptr _ => ptr
  | free ptr => ptr
  | _ => 0

def Request.IsCall : Request → Prop
  | write _ _ => False
  | _ => True

/-- The client passes null or live pointers, and writes inside its live payloads. -/
def Legal (t : Client) : Request → Prop
  | .write address _ => ∃ p ∈ t.live, p ≤ address ∧ address < p + heapUsableSize t.heap p
  | i => i.pointer = 0 ∨ i.pointer ∈ t.live

instance (t : Client) : DecidablePred (Legal t)
  | .malloc _ => inferInstanceAs (Decidable (_ ∨ _))
  | .calloc _ _ => inferInstanceAs (Decidable (_ ∨ _))
  | .realloc _ _ => inferInstanceAs (Decidable (_ ∨ _))
  | .free _ => inferInstanceAs (Decidable (_ ∨ _))
  | .write _ _ => inferInstanceAs (Decidable (∃ _ ∈ _, _))

/-- The pointers the client holds once it got `p` for `ptr`, null standing for none. -/
def exchange (ptr p : ℕ) (live : List ℕ) : List ℕ :=
  if p = 0 then live.filter (· ≠ ptr) else p :: live.filter (· ≠ ptr)

/-- One request. A call that hands out nothing leaves the client what it has, but for
`ef2_free` and an `ef2_realloc` to no bytes, which take the pointer back. -/
def exec (t : Client) : Request → Option Client
  | .malloc size =>
    (malloc t.heap size.toNat).map fun (p, h) => ⟨h, exchange 0 p t.live⟩
  | .calloc count size =>
    (calloc t.heap count.toNat size.toNat).map fun (p, h) => ⟨h, exchange 0 p t.live⟩
  | .realloc ptr size =>
    (realloc t.heap ptr size.toNat).map fun (p, h) =>
      ⟨h, if p = 0 ∧ size ≠ 0 then t.live else exchange ptr p t.live⟩
  | .free ptr => some ⟨free t.heap ptr, exchange ptr 0 t.live⟩
  | .write address value =>
    some ⟨{ t.heap with mem := Function.update t.heap.mem address value }, t.live⟩

/-- One request of a client that keeps to the rules. -/
def next (t : Client) (i : Request) : Option Client :=
  if Legal t i then exec t i else none

/-- The tiling that the client's pointers are the used blocks of. -/
def Inv (start stop : ℕ) (t : Client) : Prop :=
  ∃ cs, Tiled start stop t.heap cs ∧ ∀ p, p ∈ t.live ↔ Held start cs p

/-- The live payloads a call was not given keep their place, size and bytes. -/
def OthersKept (t : Client) (ptr : ℕ) (t' : Client) : Prop :=
  ∀ q ∈ t.live, q ≠ ptr → q ∈ t'.live ∧ heapUsableSize t'.heap q = heapUsableSize t.heap q ∧
    ∀ x, q ≤ x → x < q + heapUsableSize t.heap q → t'.heap.mem x = t.heap.mem x

variable {t t' : Client} {i : Request}

theorem mem_exchange : q ∈ exchange ptr p t.live ↔ q = p ∧ p ≠ 0 ∨ q ∈ t.live ∧ q ≠ ptr := by
  unfold exchange
  split_ifs with h
  · simp [h]
  · simp [h]

theorem Held.pos (h : Held start cs p) : p ≠ 0 := by
  obtain ⟨b, k, rfl, -⟩ := h
  omega

/-- A successful call. -/
theorem Inv.of_outcome (h : ∀ p, p ∈ t.live ↔ Held start cs p)
    (ho : Outcome start stop t.heap cs ptr p s' cs') :
    Inv start stop ⟨s', exchange ptr p t.live⟩ ∧
      OthersKept t ptr ⟨s', exchange ptr p t.live⟩ := by
  refine ⟨⟨cs', ho.tiled, fun q => ?_⟩, fun q hq hne => ⟨?_, ?_, ?_⟩⟩
  · rw [mem_exchange, h, ho.held]
  · exact mem_exchange.2 (Or.inr ⟨hq, hne⟩)
  · exact ho.usable q ((h q).1 hq) hne
  · exact fun x => ho.bytes q x ((h q).1 hq) hne

/-- A call that fails, or one that is given nothing and returns nothing. -/
theorem Inv.of_unchanged (h : Tiled start stop t.heap cs ∧ ∀ p, p ∈ t.live ↔ Held start cs p)
    {live : List ℕ} (hlive : ∀ q, q ∈ live ↔ q ∈ t.live) :
    Inv start stop ⟨t.heap, live⟩ ∧ OthersKept t ptr ⟨t.heap, live⟩ :=
  ⟨⟨cs, h.1, fun q => (hlive q).trans (h.2 q)⟩,
    fun q hq _ => ⟨(hlive q).2 hq, rfl, fun _ _ _ => rfl⟩⟩

theorem mem_exchange_null (h : ∀ p, p ∈ t.live ↔ Held start cs p) :
    q ∈ exchange 0 0 t.live ↔ q ∈ t.live := by
  rw [mem_exchange]
  have := fun hq => ((h q).1 hq).pos
  tauto

/-- An allocating call. -/
theorem Inv.allocated {res : Option (ℕ × State)} (h : Tiled start stop t.heap cs)
    (hlive : ∀ p, p ∈ t.live ↔ Held start cs p)
    (hres : res = some (0, t.heap) ∨ ∃ p s' cs', p ≠ 0 ∧ res = some (p, s') ∧
      Outcome start stop t.heap cs 0 p s' cs') :
    ∃ t', (res.map fun (p, h) => (⟨h, exchange 0 p t.live⟩ : Client)) = some t' ∧
      Inv start stop t' ∧ OthersKept t 0 t' := by
  rcases hres with rfl | ⟨p, s', cs', -, rfl, hout⟩
  · exact ⟨_, rfl, Inv.of_unchanged ⟨h, hlive⟩ fun q => mem_exchange_null hlive⟩
  · exact ⟨_, rfl, Inv.of_outcome hlive hout⟩

theorem free_null (s : State) : free s 0 = s := by
  simp [free]

theorem realloc_null (s : State) (size : ℕ) : realloc s 0 size = malloc s size :=
  if_pos rfl

theorem realloc_zero (s : State) (hp : ptr ≠ 0) : realloc s ptr 0 = some (0, free s ptr) := by
  unfold realloc
  rw [if_neg hp, if_pos rfl]

/-- `ef2_realloc` of null is `ef2_malloc`. -/
theorem Inv.reallocated_null (h : Tiled start stop t.heap cs)
    (hlive : ∀ p, p ∈ t.live ↔ Held start cs p) (size : UInt32) :
    ∃ t', exec t (.realloc 0 size) = some t' ∧ Inv start stop t' ∧ OthersKept t 0 t' := by
  rcases malloc_outcome h size.toNat with hfail | ⟨p, s', cs', hp, hres, hout⟩
  · refine ⟨_, by rw [exec, realloc_null, hfail]; rfl, Inv.of_unchanged ⟨h, hlive⟩ fun q => ?_⟩
    split_ifs
    · exact Iff.rfl
    · exact mem_exchange_null hlive
  · refine ⟨_, ?_, Inv.of_outcome hlive hout⟩
    simp [exec, realloc_null, hres, hp]

/-- `ef2_realloc` of a live pointer. -/
theorem Inv.reallocated (h : Tiled start stop t.heap cs)
    (hlive : ∀ p, p ∈ t.live ↔ Held start cs p) (hptr : ptr ∈ t.live) (size : UInt32) :
    ∃ t', exec t (.realloc ptr size) = some t' ∧ Inv start stop t' ∧ OthersKept t ptr t' := by
  have hheld := (hlive ptr).1 hptr
  by_cases hsize : size = 0
  · obtain ⟨cs', hout⟩ := free_outcome h hheld
    refine ⟨_, ?_, Inv.of_outcome hlive hout⟩
    simp [exec, hsize, realloc_zero t.heap hheld.pos]
  · have hne : size.toNat ≠ 0 := fun h0 => hsize (UInt32.toNat_inj.1 h0)
    rcases realloc_outcome h hheld hne with hfail | ⟨p, s', cs', hp, hres, hout, -, -⟩
    · refine ⟨_, ?_, Inv.of_unchanged ⟨h, hlive⟩ fun q => Iff.rfl⟩
      simp [exec, hfail, hsize]
    · refine ⟨_, ?_, Inv.of_outcome hlive hout⟩
      simp [exec, hres, hp]

/-- Every request of a client that keeps to the rules is answered, and its answer keeps the
invariant and the other payloads. -/
theorem Inv.exec (h : Inv start stop t) (hl : Legal t i) : ∃ t', exec t i = some t' ∧
    Inv start stop t' ∧ (i.IsCall → OthersKept t i.pointer t') := by
  obtain ⟨cs, ht, hlive⟩ := h
  cases i with
  | malloc size =>
    obtain ⟨t', he, hinv, hkept⟩ := Inv.allocated ht hlive (malloc_outcome ht size.toNat)
    exact ⟨t', he, hinv, fun _ => hkept⟩
  | calloc count size =>
    obtain ⟨t', he, hinv, hkept⟩ :=
      Inv.allocated ht hlive (calloc_outcome ht count.toNat size.toNat)
    exact ⟨t', he, hinv, fun _ => hkept⟩
  | realloc ptr size =>
    by_cases h0 : ptr = 0
    · obtain ⟨t', he, hinv, hkept⟩ := Inv.reallocated_null ht hlive size
      exact h0 ▸ ⟨t', he, hinv, fun _ => hkept⟩
    · obtain ⟨t', he, hinv, hkept⟩ := Inv.reallocated ht hlive (hl.resolve_left h0) size
      exact ⟨t', he, hinv, fun _ => hkept⟩
  | free ptr =>
    by_cases h0 : ptr = 0
    · have hkept : Inv start stop ⟨free t.heap 0, exchange 0 0 t.live⟩ ∧
          OthersKept t 0 ⟨free t.heap 0, exchange 0 0 t.live⟩ := by
        rw [free_null]
        exact Inv.of_unchanged ⟨ht, hlive⟩ fun q => mem_exchange_null hlive
      exact h0 ▸ ⟨_, rfl, hkept.1, fun _ => hkept.2⟩
    · obtain ⟨cs', hout⟩ := free_outcome ht ((hlive ptr).1 (hl.resolve_left h0))
      have hkept := Inv.of_outcome hlive hout
      exact ⟨_, rfl, hkept.1, fun _ => hkept.2⟩
  | write address value =>
    obtain ⟨p, hp, hle, hlt⟩ := hl
    obtain ⟨b, k, rfl, hb⟩ := (hlive p).1 hp
    rw [ht.usable hb] at hlt
    refine ⟨_, rfl, ⟨cs, ht.write hb fun x hx => ?_, hlive⟩, fun hc => hc.elim⟩
    exact Function.update_of_ne (by simp only at hx; omega) _ _

/-! ## A heap at the null pointer -/

/-- `ef2_heap_init` rounded the start up to the null pointer : nothing can be allocated. -/
def NullHeap (t : Client) : Prop :=
  t.heap.first = 0 ∧ t.live = []

theorem malloc_of_first_null (h : s.first = 0) (size : ℕ) : malloc s size = some (0, s) := by
  unfold malloc
  rw [h]
  split_ifs <;> rfl

theorem calloc_of_first_null (h : s.first = 0) (count size : ℕ) :
    calloc s count size = some (0, s) := by
  unfold calloc
  split_ifs
  · rfl
  · cases checkedMultiply count size with
    | none => rfl
    | some total => simp [malloc_of_first_null h]

/-- Nothing a client of such a heap may ask for changes it. -/
theorem exec_of_first_null (h : s.first = 0) (hl : Legal ⟨s, []⟩ i) :
    exec ⟨s, []⟩ i = some ⟨s, []⟩ := by
  have hptr : ∀ ptr, ptr = 0 ∨ ptr ∈ ([] : List ℕ) → ptr = 0 := by simp
  cases i with
  | malloc size => simp [exec, malloc_of_first_null h, exchange]
  | calloc count size => simp [exec, calloc_of_first_null h, exchange]
  | realloc ptr size =>
    obtain rfl := hptr ptr hl
    simp [exec, realloc_null, malloc_of_first_null h, exchange]
  | free ptr =>
    obtain rfl := hptr ptr hl
    simp [exec, free_null, exchange]
  | write address value =>
    obtain ⟨p, hp, -⟩ := hl
    simp at hp

theorem NullHeap.exec (h : NullHeap t) (hl : Legal t i) :
    ∃ t', exec t i = some t' ∧ NullHeap t' := by
  obtain ⟨s, live⟩ := t
  obtain ⟨hfirst, rfl⟩ : s.first = 0 ∧ live = [] := h
  exact ⟨⟨s, []⟩, exec_of_first_null hfirst hl, hfirst, rfl⟩

/-! ## No pointer is held twice -/

theorem not_held_of_free (hc : c.used = false) :
    ¬Held start (l ++ c :: r) (start + extent 16 l + 16) := by
  rintro ⟨b, k, hb, hcell⟩
  obtain rfl := Nat.add_right_cancel hb
  have hfree : (start + extent 16 l, c) ∈ cells 16 start (l ++ c :: r) := by simp
  have := eq_of_mem_cells (by decide) hfree hcell
  simp [this] at hc

theorem not_held_null : ¬Held start cs 0 :=
  fun h => h.pos rfl

theorem malloc_fresh (h : Tiled start stop s cs) (hres : malloc s size = some (p, s')) :
    ¬Held start cs p := by
  rcases malloc_eq h size with hfail | ⟨l, c, r, s₁, rfl, hc, -, -, hmalloc, -⟩
  · obtain ⟨rfl, -⟩ := Prod.mk.inj (Option.some.inj (hfail.symm.trans hres))
    exact not_held_null
  · obtain ⟨rfl, -⟩ := Prod.mk.inj (Option.some.inj (hmalloc.symm.trans hres))
    exact not_held_of_free hc

theorem calloc_fresh {count : ℕ} (h : Tiled start stop s cs)
    (hres : calloc s count size = some (p, s')) : ¬Held start cs p := by
  rcases calloc_eq h count size with hfail | ⟨total, l, c, r, s₁, -, rfl, hc, -, -, -, hcalloc⟩
  · obtain ⟨rfl, -⟩ := Prod.mk.inj (Option.some.inj (hfail.symm.trans hres))
    exact not_held_null
  · obtain ⟨rfl, -⟩ := Prod.mk.inj (Option.some.inj (hcalloc.symm.trans hres))
    exact not_held_of_free hc

/-- `ef2_realloc` returns the pointer it is given, or one the client does not hold. -/
theorem realloc_fresh (h : Tiled start stop s cs) (hp : Held start cs ptr) (hsize : size ≠ 0)
    (hres : realloc s ptr size = some (p, s')) : Held start cs p → p = ptr := by
  obtain ⟨b, k, rfl, hb⟩ := hp
  obtain ⟨l, r, rfl, rfl⟩ := exists_of_mem_cells hb
  rcases realloc_cases h rfl hsize with ⟨-, s₁, hshrink, -⟩ |
    ⟨-, ⟨d, r', s₁, -, -, -, hgrown, -⟩ | hfail |
      ⟨l₁, c₁, r₁, s₁, l₂, r₂, hcs, hfree, -, -, -, -, s₂, s₃, -, -, hmove, -⟩⟩
  · obtain ⟨rfl, -⟩ := Prod.mk.inj (Option.some.inj (hshrink.symm.trans hres))
    exact fun _ => rfl
  · obtain ⟨rfl, -⟩ := Prod.mk.inj (Option.some.inj (hgrown.symm.trans hres))
    exact fun _ => rfl
  · obtain ⟨rfl, -⟩ := Prod.mk.inj (Option.some.inj (hfail.symm.trans hres))
    exact fun hheld => (not_held_null hheld).elim
  · obtain ⟨rfl, -⟩ := Prod.mk.inj (Option.some.inj (hmove.symm.trans hres))
    rw [hcs]
    exact fun hheld => (not_held_of_free hfree hheld).elim

theorem nodup_exchange {live : List ℕ} (h : live.Nodup) (hp : p ∈ live → p = ptr) :
    (exchange ptr p live).Nodup := by
  unfold exchange
  split_ifs
  · exact h.filter _
  · refine List.nodup_cons.2 ⟨fun hmem => ?_, h.filter _⟩
    obtain ⟨hlive, hne⟩ := List.mem_filter.1 hmem
    exact absurd (hp hlive) (by simpa using hne)

/-- A request keeps the live pointers without repetition. -/
theorem exec_nodup (h : Tiled start stop t.heap cs) (hlive : ∀ p, p ∈ t.live ↔ Held start cs p)
    (hn : t.live.Nodup) (hl : Legal t i) (hi : exec t i = some t') : t'.live.Nodup := by
  cases i with
  | malloc size =>
    obtain ⟨⟨p, s'⟩, hres, rfl⟩ := Option.map_eq_some_iff.1 hi
    exact nodup_exchange hn fun hp => (malloc_fresh h hres ((hlive p).1 hp)).elim
  | calloc count size =>
    obtain ⟨⟨p, s'⟩, hres, rfl⟩ := Option.map_eq_some_iff.1 hi
    exact nodup_exchange hn fun hp => (calloc_fresh h hres ((hlive p).1 hp)).elim
  | realloc ptr size =>
    obtain ⟨⟨p, s'⟩, hres, rfl⟩ := Option.map_eq_some_iff.1 hi
    dsimp only
    split_ifs with hfail
    · exact hn
    · refine nodup_exchange hn fun hp => ?_
      have hheld := (hlive p).1 hp
      by_cases h0 : ptr = 0
      · rw [h0, realloc_null] at hres
        exact (malloc_fresh h hres hheld).elim
      · by_cases hsize : size = 0
        · rw [hsize] at hres
          obtain ⟨rfl, -⟩ := Prod.mk.inj (Option.some.inj
            ((realloc_zero t.heap h0).symm.trans hres))
          exact (not_held_null hheld).elim
        · exact realloc_fresh h ((hlive ptr).1 (hl.resolve_left h0))
            (fun hz => hsize (UInt32.toNat_inj.1 hz)) hres hheld
  | free ptr =>
    obtain rfl := Option.some.inj hi
    exact nodup_exchange (p := 0) hn fun hp => (not_held_null ((hlive 0).1 hp)).elim
  | write address value =>
    obtain rfl := Option.some.inj hi
    exact hn

/-- The tiling, the client's pointers as its used blocks, and no pointer held twice. -/
def CountedInv (start stop : ℕ) (t : Client) : Prop :=
  ∃ cs, Tiled start stop t.heap cs ∧ (∀ p, p ∈ t.live ↔ Held start cs p) ∧ t.live.Nodup

theorem CountedInv.next (h : CountedInv start stop t) (hi : next t i = some t') :
    CountedInv start stop t' := by
  obtain ⟨cs, ht, hlive, hn⟩ := h
  obtain ⟨hl, hi⟩ := Option.ite_none_right_eq_some.1 hi
  obtain ⟨t'', he, ⟨cs', ht', hlive'⟩, -⟩ := Inv.exec ⟨cs, ht, hlive⟩ hl
  obtain rfl := Option.some.inj (he.symm.trans hi)
  exact ⟨cs', ht', hlive', exec_nodup ht hlive hn hl hi⟩

/-- A run leaves a heap at the null pointer as it was initialized, and keeps the invariant of
any other. -/
theorem run_counted {memory size : UInt32} {s₀ : State} {is : List Request}
    (hinit : heapInit s₀ memory.toNat size.toNat = (0, s))
    (hrun : Schedule.run Heap.next ⟨s, []⟩ is = some t) :
    (0xFFFFFFF1 ≤ memory.toNat ∧ s.first = 0 ∧ t = ⟨s, []⟩) ∨
    (memory.toNat ≤ alignUp memory.toNat ∧ CountedInv (alignUp memory.toNat)
      (alignPtrDown (u32 (memory.toNat + size.toNat))) t) := by
  obtain ⟨-, -, -, -, -, htotal, -⟩ := heapInit_eq hinit
  obtain ⟨-, -, hcase⟩ := heapInit_tiled memory.toNat_lt size.toNat_lt hinit
  rcases hcase with ⟨hwrap, hfirst⟩ | ⟨hle, stop, -, htiled⟩
  · left
    have hstay : ∀ u i u', u = ⟨s, []⟩ → Heap.next u i = some u' → u' = ⟨s, []⟩ := by
      rintro _ i u' rfl hi
      obtain ⟨hl, hi⟩ := Option.ite_none_right_eq_some.1 hi
      exact (Option.some.inj ((exec_of_first_null hfirst hl).symm.trans hi)).symm
    exact ⟨hwrap, hfirst, Schedule.run_invariant_of_step hstay rfl hrun⟩
  · right
    obtain rfl := htiled.total.symm.trans htotal
    exact ⟨hle, Schedule.run_invariant_of_step (fun _ _ _ hu hi => hu.next hi)
      ⟨_, htiled, by simp [Held], List.nodup_nil⟩ hrun⟩

theorem run_nodup {memory size : UInt32} {s₀ : State} {is : List Request}
    (hinit : heapInit s₀ memory.toNat size.toNat = (0, s))
    (hrun : Schedule.run Heap.next ⟨s, []⟩ is = some t) : t.live.Nodup := by
  rcases run_counted hinit hrun with ⟨-, -, rfl⟩ | ⟨-, -, -, -, hn⟩
  · exact List.nodup_nil
  · exact hn

/-! ## Safety of every run -/

/-- The blocks on the allocator's list. -/
inductive Block (s : State) : ℕ → Prop
  | first (h : s.first ≠ 0) : Block s s.first
  | next {b : ℕ} (hb : Block s b) (h : blockNext s.mem b ≠ 0) : Block s (blockNext s.mem b)

theorem Tiled.mem_of_block (h : Tiled start stop s cs) (hb : Block s b) :
    ∃ c, (b, c) ∈ cells 16 start cs := by
  induction hb with
  | first _ =>
    obtain ⟨c, r, rfl⟩ := List.exists_cons_of_ne_nil h.ne_nil
    exact ⟨c, by simp [h.first]⟩
  | next _ hne ih =>
    obtain ⟨c, hc⟩ := ih
    obtain ⟨l, r, rfl, rfl⟩ := exists_of_mem_cells hc
    have hnext : blockNext s.mem (start + extent 16 l) =
        headAddr (start + extent 16 l + (16 + c.size)) r 0 :=
      congrArg Header.next ((laid_middle rfl).1 h.laid).2.1
    rw [hnext] at hne ⊢
    obtain ⟨haddr, hr⟩ := headAddr_eq_of_ne_zero hne
    obtain ⟨d, r, rfl⟩ := List.exists_cons_of_ne_nil hr
    exact ⟨d, by simp⟩

/-- Where the live payloads lie, none of which is handed out twice. -/
structure Safe (memory size : ℕ) (t : Client) : Prop where
  distinct : t.live.Nodup
  inside : ∀ p ∈ t.live, memory ≤ p ∧ p + heapUsableSize t.heap p ≤ memory + size
  aligned : ∀ p ∈ t.live, p % 16 = 0
  payloads : ∀ p ∈ t.live, ∀ q ∈ t.live, p ≠ q →
    p + heapUsableSize t.heap p ≤ q ∨ q + heapUsableSize t.heap q ≤ p
  headers : ∀ p ∈ t.live, ∀ b, Block t.heap b →
    b + headerSize ≤ p ∨ p + heapUsableSize t.heap p ≤ b

theorem Inv.safe {memory : ℕ} (h : Inv start stop t) (hn : t.live.Nodup) (hstart : memory ≤ start)
    (hstop : stop ≤ memory + size) : Safe memory size t := by
  obtain ⟨cs, ht, hlive⟩ := h
  constructor
  · exact hn
  · intro p hp
    obtain ⟨b, k, rfl, hb⟩ := (hlive p).1 hp
    have hbounds := bounds_of_mem_cells hb
    rw [ht.span] at hbounds
    rw [ht.usable hb]
    simp only at hbounds
    omega
  · intro p hp
    obtain ⟨b, k, rfl, hb⟩ := (hlive p).1 hp
    have := ht.aligned_of_mem hb
    omega
  · intro p hp q hq hne
    obtain ⟨b, k, rfl, hb⟩ := (hlive p).1 hp
    obtain ⟨b', k', rfl, hb'⟩ := (hlive q).1 hq
    rw [ht.usable hb, ht.usable hb']
    rcases cells_disjoint hb hb' with ⟨rfl, -⟩ | hlt | hlt
    · exact (hne rfl).elim
    · left
      simp only at hlt
      omega
    · right
      simp only at hlt
      omega
  · intro p hp b' hb'
    obtain ⟨b, k, rfl, hb⟩ := (hlive p).1 hp
    obtain ⟨c, hc⟩ := ht.mem_of_block hb'
    unfold headerSize
    rw [ht.usable hb]
    rcases cells_disjoint hb hc with ⟨rfl, -⟩ | hlt | hlt
    · omega
    · right
      simp only at hlt
      omega
    · omega

/-- What holds in every state of a run. -/
theorem run_inv {memory size : UInt32} {s₀ s : State} {is : List Request}
    (hinit : heapInit s₀ memory.toNat size.toNat = (0, s))
    (hrun : Schedule.run next ⟨s, []⟩ is = some t) :
    NullHeap t ∨ ∃ start stop, memory.toNat ≤ start ∧ stop ≤ memory.toNat + size.toNat ∧
      Inv start stop t := by
  obtain ⟨-, -, hcase⟩ := heapInit_tiled memory.toNat_lt size.toNat_lt hinit
  rcases hcase with ⟨-, hfirst⟩ | ⟨hle, stop, hstop, htiled⟩
  · left
    refine Schedule.run_invariant_of_step (fun u i u' hu hi => ?_) ⟨hfirst, rfl⟩ hrun
    obtain ⟨hl, hi⟩ := Option.ite_none_right_eq_some.1 hi
    obtain ⟨u'', he, hu''⟩ := hu.exec hl
    obtain rfl := Option.some.inj (he.symm.trans hi)
    exact hu''
  · right
    refine ⟨_, stop, hle, hstop, ?_⟩
    refine Schedule.run_invariant_of_step (fun u i u' hu hi => ?_) ⟨_, htiled, fun p => ?_⟩ hrun
    · obtain ⟨hl, hi⟩ := Option.ite_none_right_eq_some.1 hi
      obtain ⟨u'', he, hu'', -⟩ := hu.exec hl
      obtain rfl := Option.some.inj (he.symm.trans hi)
      exact hu''
    · simp [Held]

/-- Every run of a client that passes null or live pointers and writes inside its live
payloads. -/
theorem heap_safe {memory size : UInt32} {s₀ s : State} {is : List Request}
    (hinit : heapInit s₀ memory.toNat size.toNat = (0, s))
    (hrun : Schedule.run next ⟨s, []⟩ is = some t) :
    Safe memory.toNat size.toNat t ∧
    (∀ i, Legal t i → ∃ t', next t i = some t') ∧
    (∀ i t', i.IsCall → next t i = some t' → OthersKept t i.pointer t') ∧
    ∀ p ∈ t.live, ∀ (n : UInt32) (q : ℕ) (h : State), realloc t.heap p n.toNat = some (q, h) →
      q ≠ 0 → ∀ j < min (heapUsableSize t.heap p) (heapUsableSize h q),
        h.mem (q + j) = t.heap.mem (p + j) := by
  have hdistinct := run_nodup hinit hrun
  rcases run_inv hinit hrun with hnull | ⟨start, stop, hstart, hstop, hinv⟩
  · have hlive := hnull.2
    refine ⟨⟨hdistinct, ?_, ?_, ?_, ?_⟩, fun i hl => ?_, fun i t' _ _ q hq => ?_, fun p hp => ?_⟩
    · simp [hlive]
    · simp [hlive]
    · simp [hlive]
    · simp [hlive]
    · obtain ⟨t', he, -⟩ := hnull.exec hl
      exact ⟨t', by rw [next, if_pos hl, he]⟩
    · simp [hlive] at hq
    · simp [hlive] at hp
  · refine ⟨hinv.safe hdistinct hstart hstop, fun i hl => ?_, fun i t' hc hi => ?_, ?_⟩
    · obtain ⟨t', he, -⟩ := hinv.exec hl
      exact ⟨t', by rw [next, if_pos hl, he]⟩
    · obtain ⟨hl, hi⟩ := Option.ite_none_right_eq_some.1 hi
      obtain ⟨t'', he, -, hkept⟩ := hinv.exec hl
      obtain rfl := Option.some.inj (he.symm.trans hi)
      exact hkept hc
    · intro p hp n q h hres hq
      obtain ⟨cs, ht, hlive⟩ := hinv
      by_cases hn : n.toNat = 0
      · rw [hn, realloc_zero t.heap ((hlive p).1 hp).pos] at hres
        exact (hq (Prod.mk.inj (Option.some.inj hres)).1.symm).elim
      · rcases realloc_outcome ht ((hlive p).1 hp) hn with
          hfail | ⟨q', s', cs', -, hres', -, -, hbytes⟩
        · rw [hfail] at hres
          exact (hq (Prod.mk.inj (Option.some.inj hres)).1.symm).elim
        · obtain ⟨rfl, rfl⟩ := Prod.mk.inj (Option.some.inj (hres'.symm.trans hres))
          exact hbytes

/-- The static variables before `ef2_heap_init`. -/
def boot : State :=
  ⟨fun _ => 0, 0, 0, 0, false⟩

/-- A run with a block that moves, and one that is allocated in its place. -/
def moveRun : List Request :=
  [.malloc 96, .malloc 16, .write 0x100010 7, .realloc 0x100010 200, .free 0x100080, .calloc 3 5]

theorem heap_safe_moveRun : ∃ t,
    Schedule.run next ⟨(heapInit boot 0x100000 8192).2, []⟩ moveRun = some t ∧
    t.live = [0x100010, 0x1000A0] ∧ Safe 0x100000 8192 t := by
  have hrun : (Schedule.run next ⟨(heapInit boot 0x100000 8192).2, []⟩ moveRun).map Client.live =
      some [0x100010, 0x1000A0] := by decide +kernel
  obtain ⟨t, ht, hlive⟩ := Option.map_eq_some_iff.1 hrun
  have hinit : heapInit boot (0x100000 : UInt32).toNat (8192 : UInt32).toNat =
      (0, (heapInit boot 0x100000 8192).2) := Prod.ext (by decide +kernel) rfl
  exact ⟨t, ht, hlive, (heap_safe hinit ht).1⟩

end EF2SDK.Heap
