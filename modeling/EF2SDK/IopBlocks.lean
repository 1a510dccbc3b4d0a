import EF2SDK.IopModules

/-!
# The blocks of the IOP heap

What becomes of a block that `ef2_iop_alloc` hands out to a function of `IopModules`.
`ef2_iop_get_romver` and `ef2_iop_exec_module_buffer_ex` free it on every path
(`getRomver_frees`, `execModuleBufferEx_frees`). `ef2_iop_enable_module_buffer` leaves its
block to the loader it has patched, but its exits between the allocation and the last of the
three transfers free nothing (`writePatch_of_not_written`).

`blocks_kept_iff` : its block is accounted for exactly when all three transfers are made.
-/

set_option autoImplicit false

namespace EF2SDK.IopModules

open ByteMemory

variable {m : Machine} {d : Dispatcher} {l : List ℕ} {p dest size address value x : ℕ}
  {iop source : Mem}

/-! ## Allocation and release -/

/-- The computation keeps the account of the blocks. -/
abbrev KeepsBlocks {α : Type} (x : StateM Machine α) : Prop :=
  ∀ l, Triple (fun m => m.blocks = l) x fun _ m => m.blocks = l

theorem rpc_keeps : KeepsBlocks rpc := fun _ _ h => h

theorem bindHeap_keeps : KeepsBlocks bindHeap := by
  intro l
  refine .bind (fun _ m => m.blocks = l) (.get fun _ h => h) fun m => .ite (fun _ => ?_) fun _ => ?_
  · exact .pure fun _ h => h
  · refine .bind _ (rpc_keeps l) fun o => .ite (fun _ => .pure fun _ h => h) fun _ => ?_
    exact .bind (fun _ m => m.blocks = l) (.modify fun _ h => h) fun _ => .pure fun _ h => h

theorem bindLoadfile_keeps : KeepsBlocks bindLoadfile := by
  intro l
  refine .bind (fun _ m => m.blocks = l) (.get fun _ h => h) fun m => .ite (fun _ => ?_) fun _ => ?_
  · exact .pure fun _ h => h
  · refine .bind _ (rpc_keeps l) fun o => .ite (fun _ => .pure fun _ h => h) fun _ => ?_
    exact .bind (fun _ m => m.blocks = l) (.modify fun _ h => h) fun _ => .pure fun _ h => h

/-- `ef2_iop_alloc` returns null, or a block that is on the account. -/
theorem iopAlloc_lends (l : List ℕ) : Triple (fun m => m.blocks = l) iopAlloc fun p m =>
    p < 2 ^ 32 ∧ m.blocks = if p = 0 then l else p :: l := by
  have hnull (m : Machine) (h : m.blocks = l) :
      0 < 2 ^ 32 ∧ m.blocks = if 0 = 0 then l else 0 :: l := ⟨by decide, h⟩
  refine .bind _ (bindHeap_keeps l) fun r => .ite (fun _ => .pure hnull) fun _ => ?_
  refine .bind _ (rpc_keeps l) fun o => .ite (fun _ => .pure hnull) fun _ => ?_
  refine .bind (fun _ m => m.blocks = if (o.reply 0).toNat = 0 then l else (o.reply 0).toNat :: l)
    (.modify fun m h => ?_) fun _ => .pure fun m h => ⟨(o.reply 0).toNat_lt, h⟩
  simp only [h]

/-- `ef2_iop_free` takes a block off the account. -/
theorem iopFree_frees (p : ℕ) (l : List ℕ) :
    Triple (fun m => m.blocks = p :: l) (iopFree p) fun _ m => m.blocks = l := by
  refine .bind (fun _ m => m.blocks = l) (.modify fun m h => ?_) fun _ => ?_
  · rw [h, List.erase_cons_head]
  · refine .bind _ (bindHeap_keeps l) fun r => .ite (fun _ => .pure fun _ h => h) fun _ => ?_
    exact .bind _ (rpc_keeps l) fun o =>
      .ite (fun _ => .pure fun _ h => h) fun _ => .pure fun _ h => h

/-- A block that is freed before the result is returned. -/
theorem freed {α : Type} (p : ℕ) (l : List ℕ) (result : α) :
    Triple (fun m => m.blocks = p :: l) (do
      let _ ← iopFree p
      return result) fun _ m => m.blocks = l :=
  .bind _ (iopFree_frees p l) fun _ => .pure fun _ h => h

/-- What follows an allocation, for null and for a block. -/
theorem allocated {α : Type} {l : List ℕ} {f : ℕ → StateM Machine α} {Q : α → Machine → Prop}
    (hnull : Triple (fun m => m.blocks = l) (f 0) Q)
    (hblock : ∀ p, p ≠ 0 → Triple (fun m => m.blocks = p :: l) (f p) Q) :
    Triple (fun m => m.blocks = l) (iopAlloc >>= f) Q := by
  refine .bind _ (iopAlloc_lends l) fun p => ?_
  by_cases hp : p = 0
  · rw [hp]
    exact fun m h => hnull m (h.2.trans (if_pos rfl))
  · exact fun m h => hblock p hp m (h.2.trans (if_neg hp))

/-! ## The functions that free their block -/

theorem getRomver_frees (romver : Bool) (capacity : ℕ) (l : List ℕ) :
    Triple (fun m => m.blocks = l) (getRomver romver capacity) fun _ m => m.blocks = l := by
  refine .ite (fun _ => .pure fun _ h => h) fun _ => ?_
  refine .bind _ (rpc_keeps l) fun o => .ite (fun _ => .pure fun _ h => h) fun _ => ?_
  refine allocated (.pure fun _ h => h) fun p hp => ?_
  rw [if_neg hp]
  refine .bind _ (rpc_keeps _) fun o => .ite (fun _ => freed p l _) fun _ => ?_
  refine .ite (fun _ => freed p l _) fun _ => ?_
  refine .bind (fun _ m => m.blocks = p :: l) (.get fun _ h => h) fun m => ?_
  refine .bind _ (iopFree_frees p l) fun _ => ?_
  split
  · exact .pure fun _ h => h
  · exact .pure fun _ h => h

theorem dmaToIop_keeps (source : Mem) (dest size : ℕ) :
    KeepsBlocks (dmaToIop source dest size) := by
  intro l
  refine .bind (fun _ m => m.blocks = l) (fun _ h => h) fun o => ?_
  refine .ite (fun _ => .pure fun _ h => h) fun _ => ?_
  exact .bind (fun _ m => m.blocks = l) (.modify fun _ h => h) fun _ => .pure fun _ h => h

theorem execModuleBufferEx_frees (module : Option Mem) (size : ℕ) (l : List ℕ) :
    Triple (fun m => m.blocks = l) (execModuleBufferEx module size) fun _ m => m.blocks = l := by
  cases module with
  | none => exact .pure fun _ h => h
  | some module =>
    refine .ite (fun _ => .pure fun _ h => h) fun _ => ?_
    refine .bind _ (bindLoadfile_keeps l) fun r => .ite (fun _ => .pure fun _ h => h) fun _ => ?_
    refine .bind _ (bindHeap_keeps l) fun r => .ite (fun _ => .pure fun _ h => h) fun _ => ?_
    refine allocated (.pure fun _ h => h) fun p hp => ?_
    rw [if_neg hp]
    refine .bind _ (dmaToIop_keeps module p size _) fun r => .ite (fun _ => freed p l _) fun _ => ?_
    refine .bind _ (rpc_keeps _) fun o => .bind _ (iopFree_frees p l) fun _ => ?_
    exact .ite (fun _ => .pure fun _ h => h) fun _ => .pure fun _ h => h

/-! ## The patch in memory -/

theorem transfer_of_lt {i : ℕ} (h : i < size) :
    transfer iop source dest size (dest + i) = source i := by
  rw [transfer, if_pos (by omega), Nat.add_sub_cancel_left]

theorem transfer_of_outside (h : x < dest ∨ dest + size ≤ x) :
    transfer iop source dest size x = iop x :=
  if_neg (by omega)

/-- Writing back a line of 64 bytes with one word changed changes the word. -/
theorem transfer_writeU32 (h : address % 64 ≤ 60) :
    transfer iop (writeU32 (fun i => iop (address / 64 * 64 + i)) (address % 64) value)
      (address / 64 * 64) 64 = writeU32 iop address value := by
  have haddress : address = address / 64 * 64 + address % 64 := by omega
  generalize address / 64 * 64 = aligned at haddress ⊢
  generalize address % 64 = offset at h haddress ⊢
  subst haddress
  funext x
  by_cases hx : aligned ≤ x ∧ x < aligned + 64
  · obtain ⟨i, rfl⟩ := Nat.exists_eq_add_of_le hx.1
    rw [transfer_of_lt (by omega)]
    simp only [writeU32, Nat.add_assoc, Nat.add_left_cancel_iff]
  · rw [transfer_of_outside (by omega), writeU32_of_disjoint _ _ (by omega)]

theorem writeWordDma_keeps (address value : ℕ) : KeepsBlocks (writeWordDma address value) := by
  intro l
  refine .ite (fun _ => .pure fun _ h => h) fun _ => ?_
  exact .bind (fun _ m => m.blocks = l) (.get fun _ h => h) fun m => dmaToIop_keeps _ _ _ l

/-- The `k`-th outcome from now on is that of an accepted transfer. -/
def Machine.Accepts (m : Machine) (k : ℕ) : Prop :=
  0 < (m.outcomes (m.calls + k)).result

instance (m : Machine) (k : ℕ) : Decidable (m.Accepts k) :=
  inferInstanceAs (Decidable (_ < _))

theorem dmaToIop_run (source : Mem) (dest size : ℕ) (m : Machine) :
    dmaToIop source dest size m =
      if (m.outcomes m.calls).result ≤ 0 then (-1, { m with calls := m.calls + 1 })
      else (0, { m with calls := m.calls + 1, iop := transfer m.iop source dest size }) := by
  rw [dmaToIop, bind_apply, ite_run]
  rfl

theorem writeWordDma_run (address value : ℕ) (m : Machine) :
    writeWordDma address value m =
      if address % 64 > 60 then (-1, m)
      else if (m.outcomes m.calls).result ≤ 0 then (-1, { m with calls := m.calls + 1 })
      else (0, { m with calls := m.calls + 1, iop := writeU32 m.iop address value }) := by
  rw [writeWordDma, ite_run]
  split
  · rfl
  · next h =>
    change dmaToIop _ _ _ m = _
    rw [dmaToIop_run, transfer_writeU32 (Nat.not_lt.1 h)]

/-- The three transfers of the patch, from the `k`-th outcome on, are made. -/
def Written (m : Machine) (k : ℕ) (d : Dispatcher) : Prop :=
  m.Accepts k ∧ (d.jumpTableEnd % 64 ≤ 60 ∧ m.Accepts (k + 1)) ∧
    d.checkAddress % 64 ≤ 60 ∧ m.Accepts (k + 2)

/-- The IOP's memory with the patch in the block at `p`, entered and checked for. -/
def patched (iop : Mem) (d : Dispatcher) (p : ℕ) : Mem :=
  writeU32 (writeU32 (transfer iop (wordBytes (patch d.exports p)) p patchSize) d.jumpTableEnd p)
    d.checkAddress 0x2C820007

theorem dmaToIop_accepted (ha : m.Accepts 0) : dmaToIop source dest size m =
    (0, { m with calls := m.calls + 1, iop := transfer m.iop source dest size }) := by
  have hresult : 0 < (m.outcomes m.calls).result := ha
  rw [dmaToIop_run, if_neg (Int.not_le.2 hresult)]

theorem dmaToIop_refused (ha : ¬m.Accepts 0) : (dmaToIop source dest size m).1 = -1 := by
  have hresult : ¬0 < (m.outcomes m.calls).result := ha
  rw [dmaToIop_run, if_pos (Int.not_lt.1 hresult)]

theorem writeWordDma_accepted (h : address % 64 ≤ 60 ∧ m.Accepts 0) :
    writeWordDma address value m =
      (0, { m with calls := m.calls + 1, iop := writeU32 m.iop address value }) := by
  have hresult : 0 < (m.outcomes m.calls).result := h.2
  rw [writeWordDma_run, if_neg (Nat.not_lt.2 h.1), if_neg (Int.not_le.2 hresult)]

theorem writeWordDma_refused (h : ¬(address % 64 ≤ 60 ∧ m.Accepts 0)) :
    (writeWordDma address value m).1 = -1 := by
  rw [writeWordDma_run]
  by_cases hoffset : address % 64 > 60
  · rw [if_pos hoffset]
  · have hresult : ¬0 < (m.outcomes m.calls).result := fun ha => h ⟨Nat.not_lt.1 hoffset, ha⟩
    rw [if_neg hoffset, if_pos (Int.not_lt.1 hresult)]

/-- A step that succeeds is followed by the rest. -/
theorem check_done {x f : StateM Machine ℤ} {code : ℤ} {m' : Machine} (h : x m = (0, m')) :
    (do if (← x) < 0 then return code else f : StateM Machine ℤ) m = f m' := by
  rw [bind_apply, h, ite_run, if_neg (Int.lt_irrefl 0)]

/-- A step that fails ends the call with its own result. -/
theorem check_failed {x f : StateM Machine ℤ} {code : ℤ} (h : (x m).1 = -1) :
    ((do if (← x) < 0 then return code else f : StateM Machine ℤ) m).1 = code := by
  rw [bind_apply, h, ite_run, if_pos (by decide), pure_apply]

theorem writePatch_of_written (h : Written m 0 d) : writePatch d p m =
    (0, { m with calls := m.calls + 3, iop := patched m.iop d p }) := by
  obtain ⟨h₀, h₁, h₂⟩ := h
  rw [writePatch, check_done (dmaToIop_accepted h₀), check_done (writeWordDma_accepted h₁),
    check_done (writeWordDma_accepted h₂)]
  rfl

/-- The exits after the allocation that free nothing. -/
theorem writePatch_of_not_written (h : ¬Written m 0 d) : (writePatch d p m).1 < 0 := by
  rw [writePatch]
  by_cases h₀ : m.Accepts 0
  · rw [check_done (dmaToIop_accepted h₀)]
    by_cases h₁ : d.jumpTableEnd % 64 ≤ 60 ∧ m.Accepts 1
    · rw [check_done (writeWordDma_accepted h₁)]
      have h₂ : ¬(d.checkAddress % 64 ≤ 60 ∧ m.Accepts 2) := fun h₂ => h ⟨h₀, h₁, h₂⟩
      rw [check_failed (writeWordDma_refused h₂)]
      decide
    · rw [check_failed (writeWordDma_refused h₁)]
      decide
  · rw [check_failed (dmaToIop_refused h₀)]
    decide

theorem writePatch_keeps (d : Dispatcher) (p : ℕ) : KeepsBlocks (writePatch d p) := by
  intro l
  refine .bind _ (dmaToIop_keeps _ p _ l) fun r => .ite (fun _ => .pure fun _ h => h) fun _ => ?_
  refine .bind _ (writeWordDma_keeps _ p l) fun r => .ite (fun _ => .pure fun _ h => h) fun _ => ?_
  refine .bind _ (writeWordDma_keeps _ _ l) fun r => .ite (fun _ => .pure fun _ h => h) fun _ => ?_
  exact .pure fun _ h => h

/-! ## The block of the patch -/

/-- The number of outcomes before that of `ef2_iop_alloc`'s call. -/
def Machine.bindCalls (m : Machine) : ℕ :=
  if m.heapBound then 0 else 1

/-- The block that the next allocation returns, `0` for null. -/
def Machine.block (m : Machine) : ℕ :=
  let o := m.outcomes (m.calls + m.bindCalls)
  if (¬m.heapBound ∧ (m.outcomes m.calls).result < 0) ∨ o.result < 0 then 0
  else (o.reply 0).toNat

theorem bindHeap_run (m : Machine) : bindHeap m =
    if m.heapBound then (0, m)
    else if (m.outcomes m.calls).result < 0 then (-1, (rpc m).2)
    else (0, { (rpc m).2 with heapBound := true }) := by
  rw [bindHeap, bind_apply, ite_run]
  refine if_congr Iff.rfl rfl ?_
  rw [bind_apply, ite_run]
  rfl

theorem bindHeap_outcomes (m : Machine) :
    (bindHeap m).2.calls = m.calls + m.bindCalls ∧ (bindHeap m).2.outcomes = m.outcomes := by
  rw [bindHeap_run, Machine.bindCalls]
  split
  · exact ⟨rfl, rfl⟩
  · split
    · exact ⟨rfl, rfl⟩
    · exact ⟨rfl, rfl⟩

theorem bindHeap_failed (m : Machine) :
    (bindHeap m).1 < 0 ↔ ¬m.heapBound ∧ (m.outcomes m.calls).result < 0 := by
  rw [bindHeap_run]
  by_cases hbound : m.heapBound
  · simp [hbound]
  · by_cases hresult : (m.outcomes m.calls).result < 0
    · simp [hbound, hresult]
    · simp [hbound, hresult]

theorem iopAlloc_run (m : Machine) : (iopAlloc m).1 = m.block ∧ (m.block ≠ 0 →
    (iopAlloc m).2.calls = m.calls + (m.bindCalls + 1) ∧ (iopAlloc m).2.outcomes = m.outcomes) := by
  obtain ⟨hcalls, houtcomes⟩ := bindHeap_outcomes m
  have hblock : m.block =
      let o := (bindHeap m).2.outcomes (bindHeap m).2.calls
      if (bindHeap m).1 < 0 ∨ o.result < 0 then 0 else (o.reply 0).toNat := by
    rw [hcalls, houtcomes]
    exact if_congr (or_congr_left (bindHeap_failed m).symm) rfl rfl
  rw [iopAlloc, bind_apply, ite_run, hblock, ← Nat.add_assoc, ← hcalls, ← houtcomes]
  by_cases hbind : (bindHeap m).1 < 0
  · simp only [hbind, true_or, if_true]
    exact ⟨rfl, fun h => absurd rfl h⟩
  · rw [if_neg hbind, bind_apply, ite_run]
    by_cases hresult : (rpc (bindHeap m).2).1.result < 0
    · rw [if_pos hresult]
      simp only [show ((bindHeap m).2.outcomes (bindHeap m).2.calls).result < 0 from hresult,
        or_true, if_true]
      exact ⟨rfl, fun h => absurd rfl h⟩
    · rw [if_neg hresult]
      simp only [show ¬((bindHeap m).2.outcomes (bindHeap m).2.calls).result < 0 from hresult,
        hbind, or_false, if_false]
      exact ⟨rfl, fun _ => ⟨rfl, rfl⟩⟩

/-- The block and the two words that the patch changes are apart. -/
structure Dispatcher.Apart (d : Dispatcher) (p : ℕ) : Prop where
  table : d.jumpTableEnd + 4 ≤ p ∨ p + patchSize ≤ d.jumpTableEnd
  check : d.checkAddress + 4 ≤ p ∨ p + patchSize ≤ d.checkAddress
  words : d.jumpTableEnd + 4 ≤ d.checkAddress ∨ d.checkAddress + 4 ≤ d.jumpTableEnd

/-- The block at `p` holds the patch, and is the entry for function 6 of a dispatcher that
accepts it. -/
structure Installed (d : Dispatcher) (p : ℕ) (iop : Mem) : Prop where
  patch : ∀ i < patchSize, iop (p + i) = wordBytes (patch d.exports p) i
  entry : readU32 iop d.jumpTableEnd = p
  accepts : readU32 iop d.checkAddress = 0x2C820007

theorem patched_installed (h : d.Apart p) (hp : p < 2 ^ 32) : Installed d p (patched iop d p) where
  patch i hi := by
    obtain ⟨htable, hcheck, -⟩ := h
    rw [patched, writeU32_of_disjoint _ _ (by omega), writeU32_of_disjoint _ _ (by omega),
      transfer_of_lt hi]
  entry := by rw [patched, readU32_writeU32_of_disjoint _ _ h.words, readU32_writeU32 _ _ hp]
  accepts := readU32_writeU32 _ _ (by decide)

/-! ## The exits after the allocation -/

/-- The block that the call allocated, if any, is freed or owned. -/
def NoLeak (m m' : Machine) (owned : ℕ → Prop) : Prop :=
  m'.blocks = m.blocks ∨ ∃ p, m'.blocks = p :: m.blocks ∧ owned p

/-- `ef2_iop_enable_module_buffer` returns `0` with the patch installed in the block. -/
def Enabled (m : Machine) (p : ℕ) : Prop :=
  (enableModuleBuffer m).1 = 0 ∧
    ∃ d, findDispatcher m.iop = .ok d ∧ Installed d p (enableModuleBuffer m).2.iop

/-- Where the code of LOADFILE takes the patch, the allocation returns null or the three
transfers after it are made. -/
def Completes (m : Machine) : Prop :=
  ∀ d, findDispatcher m.iop = .ok d → m.block = 0 ∨ Written m (m.bindCalls + 1) d

theorem enableModuleBuffer_of_error {result : ℤ} (h : findDispatcher m.iop = .error result) :
    enableModuleBuffer m = (result, m) := by
  rw [enableModuleBuffer, bind_apply, get_apply]
  simp only [h]
  rfl

theorem enableModuleBuffer_of_ok (h : findDispatcher m.iop = .ok d) :
    enableModuleBuffer m = if m.block = 0 then (-304, (iopAlloc m).2)
      else writePatch d m.block (iopAlloc m).2 := by
  rw [enableModuleBuffer, bind_apply, get_apply]
  simp only [h]
  rw [installPatch, bind_apply, ite_run, (iopAlloc_run m).1]
  rfl

theorem written_iopAlloc (hblock : m.block ≠ 0) :
    Written (iopAlloc m).2 0 d ↔ Written m (m.bindCalls + 1) d := by
  obtain ⟨hcalls, houtcomes⟩ := (iopAlloc_run m).2 hblock
  simp only [Written, Machine.Accepts, hcalls, houtcomes, Nat.add_assoc, Nat.zero_add,
    Nat.add_zero]

theorem iopAlloc_blocks (m : Machine) :
    m.block < 2 ^ 32 ∧
      (iopAlloc m).2.blocks = if m.block = 0 then m.blocks else m.block :: m.blocks := by
  have h := iopAlloc_lends m.blocks m rfl
  rwa [(iopAlloc_run m).1] at h

/-- The block of `ef2_iop_enable_module_buffer` is accounted for exactly when all three
transfers are made. -/
theorem enabled_iff (hok : findDispatcher m.iop = .ok d) (hblock : m.block ≠ 0)
    (hapart : d.Apart m.block) : NoLeak m (enableModuleBuffer m).2 (Enabled m) ↔
      Written m (m.bindCalls + 1) d := by
  obtain ⟨hp, hblocks⟩ := iopAlloc_blocks m
  rw [if_neg hblock] at hblocks
  have hrun := enableModuleBuffer_of_ok hok
  rw [if_neg hblock] at hrun
  have hkeeps : (enableModuleBuffer m).2.blocks = m.block :: m.blocks := by
    rw [hrun]
    exact writePatch_keeps d m.block _ _ hblocks
  rw [← written_iopAlloc hblock]
  constructor
  · rintro (hfreed | ⟨p, -, hzero, -⟩)
    · exact absurd (hkeeps.symm.trans hfreed) (List.cons_ne_self _ _)
    · by_contra hwritten
      have hresult := writePatch_of_not_written (p := m.block) hwritten
      rw [← hrun, hzero] at hresult
      exact Int.lt_irrefl 0 hresult
  · intro hwritten
    have hdone := hrun.trans (writePatch_of_written hwritten)
    refine .inr ⟨m.block, hkeeps, congrArg Prod.fst hdone, d, hok, ?_⟩
    rw [hdone]
    exact patched_installed hapart hp

theorem blocks_kept_iff (m : Machine)
    (hapart : ∀ d, findDispatcher m.iop = .ok d → m.block ≠ 0 → d.Apart m.block) :
    (∀ romver capacity, NoLeak m (getRomver romver capacity m).2 fun _ => False) ∧
      (∀ module size, NoLeak m (execModuleBufferEx module size m).2 fun _ => False) ∧
      (NoLeak m (enableModuleBuffer m).2 (Enabled m) ↔ Completes m) := by
  refine ⟨fun romver capacity => .inl (getRomver_frees romver capacity _ m rfl),
    fun module size => .inl (execModuleBufferEx_frees module size _ m rfl), ?_⟩
  cases hfind : findDispatcher m.iop with
  | error result =>
    have hcompletes : Completes m := fun d hd => by
      rw [hfind] at hd
      cases hd
    refine iff_of_true (.inl ?_) hcompletes
    rw [enableModuleBuffer_of_error hfind]
  | ok d =>
    have hcompletes : Completes m ↔ m.block = 0 ∨ Written m (m.bindCalls + 1) d := by
      refine ⟨fun h => h d hfind, fun h d' hd' => ?_⟩
      rw [hfind] at hd'
      cases hd'
      exact h
    rw [hcompletes]
    by_cases hblock : m.block = 0
    · refine iff_of_true (.inl ?_) (.inl hblock)
      rw [enableModuleBuffer_of_ok hfind, if_pos hblock]
      exact (iopAlloc_blocks m).2.trans (if_pos hblock)
    · rw [or_iff_right hblock]
      exact enabled_iff hfind hblock (hapart d hfind hblock)

/-- The words of a memory whose LOADFILE takes the patch. -/
def romWords : List (ℕ × ℕ) :=
  [(0x800, 0x1000), (0x804, 0x1400), (0x818, 0x4000), (0x81C, 0x600),
    (0x1018, 0x2000), (0x101C, 0x400),
    (0x1400, 0x64616F4C), (0x1404, 0x75646F4D), (0x1408, 0x7942656C), (0x140C, 0x4545),
    (0x2200, 0x830), (0x220C, 0x64616F6C), (0x2210, 0x65726F63), (0x2220, 0x3000),
    (0x3000, 0x3C020000), (0x3004, 0x24423100), (0x3100, 0x3200),
    (0x320C, 0x6C646F6D), (0x3210, 0x64616F), (0x3234, 0x5000), (0x323C, 0x6000),
    (0x44C4, 0x27BDFFE8), (0x44C8, 0x2C820006), (0x44CC, 0x14400003), (0x44D0, 0xAFBF0010),
    (0x44D8, 0x1021), (0x44DC, 0x41080), (0x44E8, 0x4700)]

def rom : Mem :=
  romWords.foldl (fun m word => writeU32 m word.1 word.2) fun _ => 0

/-- A machine on that memory whose allocation returns `0x8000`, with the results of the three
transfers. -/
def romMachine (ids : List ℤ) : Machine :=
  { heapBound := true, loadfileBound := true, iop := rom, calls := 0, blocks := [],
    outcomes := fun k => ⟨(0 :: ids).getD k 0, fun _ => 0x8000, rom⟩ }

theorem findDispatcher_rom : findDispatcher rom = .ok ⟨⟨0x5000, 0x6000⟩, 0x44C4, 0x4718⟩ := by
  have hfind : (findDispatcher rom).toOption = some ⟨⟨0x5000, 0x6000⟩, 0x44C4, 0x4718⟩ := by
    decide +kernel
  cases hrom : findDispatcher rom with
  | error result =>
    rw [hrom] at hfind
    cases hfind
  | ok d =>
    rw [hrom] at hfind
    exact congrArg Except.ok (Option.some.inj hfind)

theorem rom_apart (ids : List ℤ) (d : Dispatcher)
    (hd : findDispatcher (romMachine ids).iop = .ok d) : d.Apart (romMachine ids).block := by
  have hblock : (romMachine ids).block = 0x8000 := rfl
  cases findDispatcher_rom.symm.trans hd
  rw [hblock]
  exact ⟨by decide, by decide, by decide⟩

/-- With the first transfer refused the block stays allocated, and nothing refers to it. -/
theorem refused_leaks : ¬∀ m : Machine,
    (∀ d, findDispatcher m.iop = .ok d → m.block ≠ 0 → d.Apart m.block) →
      NoLeak m (enableModuleBuffer m).2 (Enabled m) := by
  intro h
  have hok : findDispatcher (romMachine [0]).iop = _ := findDispatcher_rom
  have hblock : (romMachine [0]).block ≠ 0 := by decide
  have hleak := h (romMachine [0]) fun d hd _ => rom_apart [0] d hd
  have hwritten := (enabled_iff hok hblock (rom_apart [0] _ hok)).1 hleak
  exact absurd hwritten.1 (by decide)

theorem blocks_kept_iff_rom :
    NoLeak (romMachine [1, 1, 1]) (enableModuleBuffer (romMachine [1, 1, 1])).2
      (Enabled (romMachine [1, 1, 1])) := by
  refine ((blocks_kept_iff _ fun d hd _ => rom_apart _ d hd).2.2).2 fun d hd => .inr ?_
  cases findDispatcher_rom.symm.trans hd
  refine ⟨?_, ⟨?_, ?_⟩, ?_, ?_⟩
  all_goals decide

end EF2SDK.IopModules
