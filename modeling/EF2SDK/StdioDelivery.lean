import EF2SDK.FormatRender
import EF2SDK.HeapLoan
import EF2SDK.Stdio

/-!
# What reaches the sink

A sink that takes some of what it is offered each time (`Accepts`) gets everything
`write_all` has (`writeAll_delivers`). `ef2_vfprintf` gives it the rendering of the format,
the same through either buffer (`formatAndWrite_eq`), and its block of the heap is on loan :
whatever the sink does, the heap's live allocations are the same before and after
(`vfprintf_delivers`).
-/

set_option autoImplicit false

namespace EF2SDK.Stdio

open Format (Arg render vsnprintf prints_render terminated)
open Heap (Reachable SameLive)

variable {σ : Type*} {write : σ → List UInt8 → ℤ × σ} {delivered : σ → List UInt8}

/-- The sink takes at least one byte of what it is offered, and keeps what it takes. -/
def Accepts (write : σ → List UInt8 → ℤ × σ) (delivered : σ → List UInt8) : Prop :=
  ∀ context data, data ≠ [] → ∃ n context', 0 < n ∧ n ≤ data.length ∧
    write context data = ((n : ℤ), context') ∧
    delivered context' = delivered context ++ data.take n

/-! ## Writing -/

theorem writeLoop_of_not_lt {data : List UInt8} {written : ℕ} (h : ¬written < data.length)
    (context : σ) : writeLoop write data written context = (some written, context) := by
  rw [writeLoop, dif_neg h]

/-- One round of the loop that a sink takes `n` bytes in. -/
theorem writeLoop_round {data : List UInt8} {written n : ℕ} {context context' : σ}
    (h : written < data.length) (hpos : 0 < n) (hn : n ≤ data.length - written)
    (hwrite : write context (data.drop written) = ((n : ℤ), context')) :
    writeLoop write data written context = writeLoop write data (written + n) context' := by
  rw [writeLoop, dif_pos h, hwrite]
  dsimp only
  rw [dif_neg (by omega), if_neg (by rw [Int.toNat_natCast]; omega), Int.toNat_natCast]

theorem writeLoop_delivers (h : Accepts write delivered) (data : List UInt8) (k : ℕ) :
    ∀ written context, data.length - written = k → written ≤ data.length →
      ∃ context', writeLoop write data written context = (some data.length, context') ∧
        delivered context' = delivered context ++ data.drop written := by
  induction k using Nat.strong_induction_on with
  | _ k ih =>
    intro written context hk hle
    by_cases hlt : written < data.length
    · have hne : data.drop written ≠ [] := by
        rw [Ne, List.drop_eq_nil_iff]
        omega
      obtain ⟨n, context₁, hpos, hn, hwrite, htaken⟩ := h context _ hne
      rw [List.length_drop] at hn
      obtain ⟨context', hrest, hdelivered⟩ :=
        ih (data.length - (written + n)) (by omega) (written + n) context₁ rfl (by omega)
      refine ⟨context', (writeLoop_round hlt hpos hn hwrite).trans hrest, ?_⟩
      rw [hdelivered, htaken, List.append_assoc, ← List.drop_drop, List.take_append_drop]
    · obtain rfl : written = data.length := by omega
      refine ⟨context, writeLoop_of_not_lt hlt context, ?_⟩
      rw [List.drop_length, List.append_nil]

/-- `write_all` delivers everything to a sink that takes some each time. -/
theorem writeAll_delivers (h : Accepts write delivered) (context : σ) {data : List UInt8}
    (hlen : data.length ≤ 0x7FFFFFFF) :
    ∃ context', writeAll (some ⟨some write⟩) context data = ((data.length : ℤ), context') ∧
      delivered context' = delivered context ++ data := by
  obtain ⟨context', hloop, hdelivered⟩ := writeLoop_delivers h data _ 0 context rfl (Nat.zero_le _)
  refine ⟨context', ?_, hdelivered⟩
  simp only [writeAll, hloop]
  rw [if_neg (Nat.not_lt.2 hlen)]

/-! ## One buffer or the other -/

theorem Memory.read_store (m : Memory) (bytes : ℕ → UInt8) (buffer : Buffer) :
    (m.store bytes buffer).read buffer = bytes := by
  cases buffer with
  | stack => rfl
  | heap address =>
    funext i
    simp only [Memory.store, Memory.read, Nat.le_add_right, if_true, Nat.add_sub_cancel_left]

theorem Memory.text_eq {m : Memory} {buffer : Buffer} {text : List UInt8}
    (h : ∀ i < text.length, m.read buffer i = text.getD i 0) :
    m.text buffer text.length = text := by
  refine List.ext_getElem (by simp [Memory.text]) fun i hi hi' => ?_
  simp only [Memory.text, List.getElem_map, List.getElem_range]
  rw [h i hi', List.getD_eq_getElem?_getD, List.getElem?_eq_getElem hi', Option.getD_some]

/-- The second half of `ef2_vfprintf`, in a buffer with room for the text and its
terminator. -/
theorem formatAndWrite_eq {format text : List UInt8} {args : List Arg}
    (htext : render format args = some text) (hlen : text.length < 0x7FFFFFFF) {capacity : UInt32}
    (hcapacity : capacity.toNat = text.length + 1) (m : Memory) (buffer : Buffer)
    (stream : File σ) (context : σ) :
    ∃ bytes : ℕ → UInt8, (∀ i > text.length, bytes i = m.read buffer i) ∧
      formatAndWrite m buffer capacity stream context format args =
        some (if (writeAll (some stream) context text).1 < 0 then -1 else (text.length : ℤ),
          (m.store bytes buffer).release buffer, (writeAll (some stream) context text).2) := by
  have hne : capacity ≠ 0 := by
    rintro rfl
    exact absurd hcapacity (by simp)
  have hroom : min text.length (capacity.toNat - 1) = text.length := by omega
  obtain ⟨bytes, hbytes⟩ :
      ∃ bytes, bytes = terminated capacity.toNat text (m.read buffer) := ⟨_, rfl⟩
  have hread : (m.store bytes buffer).text buffer text.length = text :=
    Memory.text_eq fun i hi => by
      rw [Memory.read_store, hbytes, terminated, hroom, if_pos hi]
  have hformat : vsnprintf (some (m.read buffer)) capacity format args =
      some ((text.length : ℤ), some bytes) := by
    rw [prints_render htext hlen.le, if_neg hne, hbytes]
    rfl
  refine ⟨bytes, fun i hi => ?_, ?_⟩
  · rw [hbytes, terminated, hroom, if_neg (by omega), if_neg (by omega)]
  · rw [formatAndWrite, hformat]
    simp only [Option.map_some, Option.getD_some, Int.toNat_natCast, hread]
    rw [if_neg (Int.not_lt.2 (Int.natCast_nonneg _))]
    split <;> rfl

/-! ## The whole call -/

/-- The heap hands out a block of `n` bytes. -/
def Supplies (heap : Heap.State) (n : ℕ) : Prop :=
  ∃ p s, p ≠ 0 ∧ Heap.malloc heap n = some (p, s)

theorem ofNat_add_one {n : ℕ} (h : n < 0x7FFFFFFF) : (UInt32.ofNat n + 1).toNat = n + 1 := by
  have hn : (UInt32.ofNat n).toNat = n := UInt32.toNat_ofNat_of_lt' (by rw [UInt32.size]; omega)
  rw [toNat_add_one (by omega), hn]

/-- The first half of `ef2_vfprintf` : the choice of the buffer. -/
theorem vfprintf_eq {format text : List UInt8} {args : List Arg}
    (htext : render format args = some text) (hlen : text.length < 0x7FFFFFFF) (m : Memory)
    (stream : File σ) (context : σ) :
    vfprintf m (some stream) context (some format) args =
      if text.length + 1 > stackBufferSize then
        (Heap.malloc m.heap (text.length + 1)).bind fun (buffer, heap) =>
          if buffer = 0 then some (-1, { m with heap := heap }, context)
          else formatAndWrite { m with heap := heap } (.heap buffer)
            (.ofNat text.length + 1) stream context format args
      else formatAndWrite m .stack (.ofNat text.length + 1) stream context format args := by
  rw [vfprintf, prints_render htext hlen.le]
  simp only [Option.bind_some, Int.toNat_natCast, ofNat_add_one hlen]
  exact if_neg (Int.not_lt.2 (Int.natCast_nonneg _))

/-- The block of the heap that `ef2_vfprintf` formats into is given back. -/
theorem sameLive_release {m : Memory} {p n : ℕ} {heap : Heap.State} {bytes : ℕ → UInt8}
    (hloan : ∀ m' : ByteMemory.Mem, (∀ x, x < p ∨ p + n ≤ x → m' x = heap.mem x) →
      SameLive m.heap (Heap.free { heap with mem := m' } p))
    (hrest : ∀ i ≥ n, bytes i = heap.mem (p + i)) :
    SameLive m.heap
      ((({ m with heap := heap }.store bytes (.heap p)).release (.heap p)).heap) := by
  refine hloan _ fun x hx => ?_
  dsimp only
  split_ifs with hle
  · rw [hrest (x - p) (by omega), Nat.add_sub_cancel' hle]
  · rfl

/-- What a call leaves : a result, the same live allocations, and for a sink that takes some
each time the whole text, unless the heap has no room for it. -/
structure Delivers (m : Memory) (stream : Option (File σ)) (context : σ) (text : List UInt8)
    (result : ℤ) (m' : Memory) (context' : σ) : Prop where
  sameLive : SameLive m.heap m'.heap
  delivered : ∀ write delivered, stream = some ⟨some write⟩ → Accepts write delivered →
    text.length ≤ 255 ∨ Supplies m.heap (text.length + 1) →
      result = text.length ∧ delivered context' = delivered context ++ text
  failed : ¬(text.length ≤ 255 ∨ Supplies m.heap (text.length + 1)) →
    result = -1 ∧ context' = context

/-- `write_all` makes the result. -/
theorem delivered_of_writeAll {stream : File σ} {context : σ} {text : List UInt8}
    (hlen : text.length < 0x7FFFFFFF) (hstream : stream = ⟨some write⟩)
    (h : Accepts write delivered) :
    (if (writeAll (some stream) context text).1 < 0 then -1 else (text.length : ℤ)) =
        text.length ∧
      delivered (writeAll (some stream) context text).2 = delivered context ++ text := by
  obtain ⟨context', hwrite, hdelivered⟩ := writeAll_delivers h context hlen.le
  rw [hstream, hwrite]
  exact ⟨if_neg (Int.not_lt.2 (Int.natCast_nonneg _)), hdelivered⟩

theorem vfprintf_stack {format text : List UInt8} {args : List Arg}
    (htext : render format args = some text) (hlen : text.length ≤ 255) (m : Memory)
    (stream : File σ) (context : σ) :
    ∃ result m' context',
      vfprintf m (some stream) context (some format) args = some (result, m', context') ∧
        Delivers m (some stream) context text result m' context' := by
  have hbound : text.length < 0x7FFFFFFF := by omega
  obtain ⟨bytes, -, hwrite⟩ := formatAndWrite_eq htext hbound (ofNat_add_one hbound) m .stack
    stream context
  rw [vfprintf_eq htext hbound, if_neg (Nat.not_lt.2 (Nat.succ_le_succ hlen))]
  refine ⟨_, _, _, hwrite, SameLive.refl _, fun write delivered hstream h _ => ?_, fun h => ?_⟩
  · exact delivered_of_writeAll hbound (Option.some.inj hstream) h
  · exact absurd (Or.inl hlen) h

theorem vfprintf_heap {format text : List UInt8} {args : List Arg}
    (htext : render format args = some text) (hlen : text.length < 0x7FFFFFFF)
    (hlong : 255 < text.length) {m : Memory} (hheap : Reachable m.heap) (stream : File σ)
    (context : σ) :
    ∃ result m' context',
      vfprintf m (some stream) context (some format) args = some (result, m', context') ∧
        Delivers m (some stream) context text result m' context' := by
  rw [vfprintf_eq htext hlen, if_pos (Nat.succ_lt_succ hlong)]
  obtain hnull | ⟨p, heap, hp, hmalloc, hloan⟩ := Heap.malloc_loan hheap (text.length + 1)
  · have hnone : ¬(text.length ≤ 255 ∨ Supplies m.heap (text.length + 1)) := by
      rintro (hle | ⟨p, s, hp, hs⟩)
      · omega
      · exact hp (Prod.mk.inj (Option.some.inj (hs.symm.trans hnull))).1
    rw [hnull]
    exact ⟨_, _, _, rfl, SameLive.refl _, fun _ _ _ _ hok => absurd hok hnone,
      fun _ => ⟨rfl, rfl⟩⟩
  · obtain ⟨bytes, hrest, hwrite⟩ := formatAndWrite_eq htext hlen (ofNat_add_one hlen)
      { m with heap := heap } (.heap p) stream context
    rw [hmalloc]
    refine ⟨_, _, _, (if_neg hp).trans hwrite, sameLive_release hloan fun i hi => hrest i hi,
      fun write delivered hstream h _ => ?_, fun h => ?_⟩
    · exact delivered_of_writeAll hlen (Option.some.inj hstream) h
    · exact absurd (Or.inr ⟨p, heap, hp, hmalloc⟩) h

/-- From every heap state, for every format with matching arguments and every stream,
`ef2_vfprintf` returns with the live allocations as they were ; a sink that takes some bytes
each time gets exactly the text, through either buffer, unless the heap has no room for it. -/
theorem vfprintf_delivers {m : Memory} (hheap : Reachable m.heap) {format text : List UInt8}
    {args : List Arg} (htext : render format args = some text) (hlen : text.length < 0x7FFFFFFF)
    (stream : Option (File σ)) (context : σ) :
    ∃ result m' context',
      vfprintf m stream context (some format) args = some (result, m', context') ∧
        Delivers m stream context text result m' context' := by
  cases stream with
  | none =>
    exact ⟨_, _, _, rfl, SameLive.refl _, fun _ _ hstream => (by cases hstream),
      fun _ => ⟨rfl, rfl⟩⟩
  | some stream =>
    by_cases hlong : 255 < text.length
    · exact vfprintf_heap htext hlen hlong hheap stream context
    · exact vfprintf_stack htext (Nat.not_lt.1 hlong) m stream context

/-- A sink that takes up to 31 bytes. -/
def take31 (taken data : List UInt8) : ℤ × List UInt8 :=
  (min 31 data.length, taken ++ data.take 31)

theorem take31_accepts : Accepts take31 id := by
  intro taken data hne
  have hpos := List.length_pos_iff.2 hne
  refine ⟨min 31 data.length, _, by omega, Nat.min_le_right _ _, Prod.ext (by simp [take31]) rfl,
    ?_⟩
  by_cases hle : data.length ≤ 31
  · simp [take31, Nat.min_eq_right hle, List.take_of_length_le hle]
  · simp [take31, Nat.min_eq_left (Nat.le_of_not_le hle)]

/-- `"%0300u"` with the argument 1, through a block of the heap. -/
theorem vfprintf_delivers_wide : ∃ m' : Memory,
    vfprintf ⟨(Heap.heapInit Heap.boot 0x100000 8192).2, fun _ => 0⟩ (some ⟨some take31⟩) []
      (some ("%0300u".toList.map Char.toUInt8)) [.int 1] =
        some (300, m', List.replicate 299 '0'.toUInt8 ++ ['1'.toUInt8]) ∧
      SameLive (Heap.heapInit Heap.boot 0x100000 8192).2 m'.heap := by
  have hinit : Heap.heapInit Heap.boot (0x100000 : UInt32).toNat (8192 : UInt32).toNat =
      (0, (Heap.heapInit Heap.boot 0x100000 8192).2) := Prod.ext (by decide +kernel) rfl
  have htext : render ("%0300u".toList.map Char.toUInt8) [.int 1] =
      some (List.replicate 299 '0'.toUInt8 ++ ['1'.toUInt8]) := by decide +kernel
  have hlen : (List.replicate 299 '0'.toUInt8 ++ ['1'.toUInt8]).length = 300 := by
    rw [List.length_append, List.length_replicate, List.length_singleton]
  have hmalloc : (Heap.malloc (Heap.heapInit Heap.boot 0x100000 8192).2 301).map Prod.fst =
      some 0x100010 := by decide +kernel
  obtain ⟨⟨p, heap⟩, hp, hfst⟩ := Option.map_eq_some_iff.1 hmalloc
  obtain ⟨result, m', context', hcall, hsame, hdelivers, -⟩ := vfprintf_delivers
    (m := ⟨(Heap.heapInit Heap.boot 0x100000 8192).2, fun _ => 0⟩)
    (Or.inr ⟨0x100000, 8192, Heap.boot, _, [], _, hinit, rfl, rfl⟩) htext (by omega)
    (some ⟨some take31⟩) []
  have hsupplies : Supplies (Heap.heapInit Heap.boot 0x100000 8192).2 301 := by
    refine ⟨p, heap, ?_, hp⟩
    rw [show p = 0x100010 from hfst]
    decide
  rw [hlen] at hdelivers
  obtain ⟨hresult, htaken⟩ := hdelivers take31 id rfl take31_accepts (Or.inr hsupplies)
  refine ⟨m', ?_, hsame⟩
  rw [hcall, hresult, show context' = _ from htaken]
  rfl

/-- `ef2_puts` delivers the text with a newline behind it. -/
theorem puts_delivers (h : Accepts write delivered) (context : σ) {text : List UInt8}
    (hlen : text.length < 0x7FFFFFFF) :
    ∃ context', puts ⟨some write⟩ context (some text) = ((text.length : ℤ) + 1, context') ∧
      delivered context' = delivered context ++ text ++ ['\n'.toUInt8] := by
  obtain ⟨context₁, hwrite, htext⟩ := writeAll_delivers h context hlen.le
  obtain ⟨context', hwrite', hline⟩ :=
    writeAll_delivers h context₁ (show ['\n'.toUInt8].length ≤ 0x7FFFFFFF by decide)
  refine ⟨context', ?_, by rw [hline, htext]⟩
  simp only [puts, hwrite, hwrite']
  rw [if_neg (Int.not_lt.2 (Int.natCast_nonneg _)), if_neg (by decide),
    if_neg (Nat.not_le.2 hlen)]

end EF2SDK.Stdio
