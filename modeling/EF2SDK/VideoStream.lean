import EF2SDK.GifTags
import EF2SDK.VideoDraw
import Mathlib.Data.List.Forall2

/-!
# What uploading emits

The stream of an upload, read as the GIF reads it. Each image is set up by a packet of register
writes and follows in `IMAGE` packets of at most `0x7FFF` qwords, which hold its bytes in order
(`Picture.SentAs`) ; a packet that flushes the texture cache ends the stream. The CLUT of an image
of 8 bits a pixel is sent from the driver's own buffer, where bits 3 and 4 of an index are
exchanged.
-/

set_option autoImplicit false

namespace EF2SDK.Video

open Gif (Qword)
open Gs
open BitFields (Fits)

variable (dma : ℕ → Bool) {v : State}

/-! ## Bytes -/

/-- The bytes of a doubleword, the least significant first. -/
def doublewordBytes (x : UInt64) : List UInt8 :=
  (List.range 8).map fun j => UInt8.ofNat (x.toNat / 256 ^ j)

/-- The bytes of a qword. -/
def qwordBytes (q : Qword) : List UInt8 :=
  doublewordBytes q.lo ++ doublewordBytes q.hi

/-- A byte above the bits that are there. -/
theorem toNat_or_byte {e s : UInt32} {p : ℕ} (he : e.toNat < 2 ^ p) (b : UInt8) (hs : s.toNat = p)
    (hp : p + 8 ≤ 32) : (e ||| b.toUInt32 <<< s).toNat = e.toNat + b.toNat * 2 ^ p ∧
      e.toNat + b.toNat * 2 ^ p < 2 ^ (p + 8) := by
  have hb := b.toNat_lt
  have hsum : e.toNat + b.toNat * 2 ^ p < 2 ^ (p + 8) := by
    calc e.toNat + b.toNat * 2 ^ p
      _ < 2 ^ p + b.toNat * 2 ^ p := Nat.add_lt_add_right he _
      _ = (b.toNat + 1) * 2 ^ p := by rw [Nat.add_mul, Nat.one_mul, Nat.add_comm]
      _ ≤ 2 ^ 8 * 2 ^ p := Nat.mul_le_mul_right _ hb
      _ = 2 ^ (p + 8) := by rw [Nat.pow_add, Nat.mul_comm]
  have hword : b.toNat * 2 ^ p < 2 ^ 32 :=
    Nat.lt_of_lt_of_le (Nat.lt_of_le_of_lt (Nat.le_add_left _ _) hsum)
      (Nat.pow_le_pow_right (by decide) hp)
  refine ⟨?_, hsum⟩
  rw [UInt32.toNat_or, UInt32.toNat_shiftLeft, UInt8.toNat_toUInt32, hs,
    Nat.mod_eq_of_lt (show p < 32 by omega), Nat.shiftLeft_eq, Nat.mod_eq_of_lt hword,
    Nat.or_comm, ← Nat.shiftLeft_eq, shiftLeft_or_eq_add he, Nat.add_comm, Nat.shiftLeft_eq]

theorem toNat_word (bytes : ℕ → UInt8) (i : ℕ) : (word bytes i).toNat =
    (bytes (4 * i)).toNat + (bytes (4 * i + 1)).toNat * 2 ^ 8 + (bytes (4 * i + 2)).toNat * 2 ^ 16
      + (bytes (4 * i + 3)).toNat * 2 ^ 24 := by
  have hfirst : (bytes (4 * i)).toUInt32.toNat = (bytes (4 * i)).toNat := UInt8.toNat_toUInt32 _
  obtain ⟨h₁, hlt₁⟩ := toNat_or_byte (e := (bytes (4 * i)).toUInt32) (s := 8) (p := 8)
    (hfirst ▸ (bytes (4 * i)).toNat_lt) (bytes (4 * i + 1)) rfl (by decide)
  rw [← h₁] at hlt₁
  obtain ⟨h₂, hlt₂⟩ := toNat_or_byte (s := 16) hlt₁ (bytes (4 * i + 2)) rfl (by decide)
  rw [← h₂] at hlt₂
  obtain ⟨h₃, -⟩ := toNat_or_byte (s := 24) hlt₂ (bytes (4 * i + 3)) rfl (by decide)
  rw [word, h₃, h₂, h₁, hfirst]

theorem toNat_doubleword (a b : UInt32) :
    (a.toUInt64 ||| b.toUInt64 <<< 32).toNat = a.toNat + b.toNat * 2 ^ 32 := by
  rw [BitFields.toNat_or_shiftLeft (p := 32) (w := 32) _ (.uInt32 b) rfl (by decide),
    UInt32.toNat_toUInt64]
  rw [UInt32.toNat_toUInt64]
  exact a.toNat_lt

theorem doublewordBytes_words (bytes : ℕ → UInt8) (i : ℕ) :
    doublewordBytes ((word bytes i).toUInt64 ||| (word bytes (i + 1)).toUInt64 <<< 32) =
      (List.range 8).map fun j => bytes (4 * i + j) := by
  rw [doublewordBytes, toNat_doubleword, toNat_word, toNat_word]
  refine List.map_congr_left fun j hj => UInt8.toNat_inj.1 ?_
  have hlt (j : ℕ) : (bytes (4 * i + j)).toNat < 2 ^ 8 := (bytes (4 * i + j)).toNat_lt
  have h₀ := hlt 0
  have h₁ := hlt 1
  have h₂ := hlt 2
  have h₃ := hlt 3
  have h₄ := hlt 4
  have h₅ := hlt 5
  have h₆ := hlt 6
  have h₇ := hlt 7
  have hj : j < 8 := List.mem_range.1 hj
  rw [UInt8.toNat_ofNat', Nat.mul_add]
  simp only [Nat.add_assoc, Nat.mul_one, Nat.reduceAdd]
  obtain rfl | rfl | rfl | rfl | rfl | rfl | rfl | rfl : j = 0 ∨ j = 1 ∨ j = 2 ∨ j = 3 ∨ j = 4 ∨
    j = 5 ∨ j = 6 ∨ j = 7 := by omega
  all_goals
    simp only [Nat.add_zero] at h₀ ⊢
    omega

theorem qwordBytes_words (bytes : ℕ → UInt8) (i : ℕ) :
    qwordBytes (qword (word bytes) i) = (List.range 16).map fun j => bytes (16 * i + j) := by
  have hhigh := doublewordBytes_words bytes (4 * i + 2)
  simp only [Nat.mul_add, ← Nat.mul_assoc, Nat.add_assoc] at hhigh
  rw [qwordBytes, qword, doublewordBytes_words, hhigh, show 16 = 8 + 8 from rfl, List.range_add,
    List.map_append, List.map_map]
  simp only [← Nat.mul_assoc]
  rfl

/-- The bytes of consecutive qwords are consecutive. -/
theorem bytes_qwords (bytes : ℕ → UInt8) (offset count : ℕ) :
    (qwords (word bytes) offset count).flatMap qwordBytes =
      (List.range (16 * count)).map fun j => bytes (16 * offset + j) := by
  induction count with
  | zero => rfl
  | succ count ih =>
    rw [qwords, List.range_succ, List.map_append, List.flatMap_append, ← qwords, ih,
      List.map_singleton, List.flatMap_singleton, qwordBytes_words, Nat.mul_add 16 count,
      List.range_add, List.map_append, List.map_map]
    simp only [Nat.mul_add, Nat.add_assoc]
    rfl

/-- The bytes of words. -/
def wordBytes (words : ℕ → UInt32) (k : ℕ) : UInt8 :=
  UInt8.ofNat ((words (k / 4)).toNat / 256 ^ (k % 4))

theorem wordBytes_at (words : ℕ → UInt32) (i : ℕ) {b : ℕ} (hb : b < 4) :
    (wordBytes words (4 * i + b)).toNat = (words i).toNat / 256 ^ b % 2 ^ 8 := by
  rw [wordBytes, UInt8.toNat_ofNat', Nat.mul_add_div (by decide), Nat.div_eq_of_lt hb,
    Nat.mul_add_mod, Nat.mod_eq_of_lt hb, Nat.add_zero]

theorem word_wordBytes (words : ℕ → UInt32) : word (wordBytes words) = words := by
  funext i
  apply UInt32.toNat_inj.1
  have hlt := (words i).toNat_lt
  have h₀ := wordBytes_at words i (b := 0) (by decide)
  have h₁ := wordBytes_at words i (b := 1) (by decide)
  have h₂ := wordBytes_at words i (b := 2) (by decide)
  have h₃ := wordBytes_at words i (b := 3) (by decide)
  rw [Nat.add_zero] at h₀
  rw [toNat_word]
  omega

theorem wordBytes_word (words : ℕ → UInt32) (bytes : ℕ → UInt8) {i j b : ℕ}
    (h : words i = word bytes j) (hb : b < 4) :
    wordBytes words (4 * i + b) = bytes (4 * j + b) := by
  have hlt (b : ℕ) : (bytes (4 * j + b)).toNat < 2 ^ 8 := (bytes (4 * j + b)).toNat_lt
  have h₀ := hlt 0
  have h₁ := hlt 1
  have h₂ := hlt 2
  have h₃ := hlt 3
  apply UInt8.toNat_inj.1
  rw [wordBytes_at words i hb, h, toNat_word]
  obtain rfl | rfl | rfl | rfl : b = 0 ∨ b = 1 ∨ b = 2 ∨ b = 3 := by omega
  all_goals
    simp only [Nat.add_zero] at h₀ ⊢
    omega

/-! ## Packets -/

/-- The computation returned 0, and submitted a stream that is read as the packets. -/
structure Sends (v : State) (r : ℤ × State) (packets : List (Tag × List Qword)) : Prop where
  result : r.1 = 0
  stream : ∃ stream, r.2.submitted = v.submitted ++ stream ∧ Reads stream packets

theorem sends_submitQwords {q : Qword} {data : List Qword}
    (h : data.length = (readTag q).count) (v : State) :
    Sends v (submitQwords dma (q :: data) v) [(readTag q, data)] :=
  ⟨rfl, _, submitQwords_submitted _ v, .packet h⟩

/-- A tag and its data may be submitted one after the other. -/
theorem sends_tag_data {q : Qword} {data : List Qword} (h : data.length = (readTag q).count)
    (v : State) :
    Sends v (submitQwords dma data (submitQwords dma [q] v).2) [(readTag q, data)] := by
  refine ⟨rfl, q :: data, ?_, .packet h⟩
  rw [submitQwords_submitted, submitQwords_submitted, List.append_assoc]
  rfl

theorem Sends.trans {u w : State} {result result' : ℤ} {packets packets' : List (Tag × List Qword)}
    (h : Sends v (result, u) packets) (h' : Sends u (result', w) packets') :
    Sends v (result', w) (packets ++ packets') := by
  obtain ⟨-, stream, hstream, hreads⟩ := h
  obtain ⟨hresult, stream', hstream', hreads'⟩ := h'
  refine ⟨hresult, stream ++ stream', ?_, hreads.append hreads'⟩
  rw [hstream', hstream, List.append_assoc]

/-! ## Images -/

/-- A packet of image data. -/
structure IsImage (p : Tag × List Qword) : Prop where
  flg : p.1.flg = gifFlgImage.toNat
  nloop : 1 ≤ p.1.nloop ∧ p.1.nloop ≤ gifImageMaxQwords
  length : p.2.length = p.1.nloop

theorem length_qwords (words : ℕ → UInt32) (offset count : ℕ) :
    (qwords words offset count).length = count := by
  rw [qwords, List.length_map, List.length_range]

theorem qwords_append (words : ℕ → UInt32) (offset m n : ℕ) :
    qwords words offset m ++ qwords words (offset + m) n = qwords words offset (m + n) := by
  rw [qwords, qwords, qwords, List.range_add, List.map_append, List.map_map]
  simp only [Nat.add_assoc]
  rfl

theorem uploadLoop_succ (pixels : ℕ → UInt32) (offset : ℕ) {remaining chunk : ℕ}
    (h : remaining ≠ 0) (hchunk : chunk = min remaining gifImageMaxQwords) (v : State) :
    uploadLoop dma pixels offset remaining v =
      uploadLoop dma pixels (offset + chunk) (remaining - chunk)
        (submitQwords dma (qwords pixels offset chunk) (submitQwords dma
          [⟨gifPackTag (UInt16.ofNat chunk) 1 0 0 gifFlgImage 0, 0⟩] v).2).2 := by
  rw [uploadLoop, dif_neg h, hchunk]
  rfl

/-- The loop sends the qwords in packets of image data. -/
theorem uploadLoop_sends (pixels : ℕ → UInt32) (remaining offset : ℕ) (v : State) :
    ∃ images, Sends v (uploadLoop dma pixels offset remaining v) images ∧
      (0 < remaining → images ≠ []) ∧ (∀ i ∈ images, IsImage i) ∧
      images.flatMap Prod.snd = qwords pixels offset remaining := by
  induction remaining using Nat.strong_induction_on generalizing offset v with
  | _ remaining ih =>
    by_cases hdone : remaining = 0
    · subst hdone
      refine ⟨[], ⟨?_, [], ?_, .nil⟩, nofun, nofun, rfl⟩ <;> rw [uploadLoop, dif_pos rfl]
      · rfl
      · exact (List.append_nil _).symm
    · obtain ⟨chunk, hchunk⟩ : ∃ chunk, chunk = min remaining gifImageMaxQwords := ⟨_, rfl⟩
      have hmax : gifImageMaxQwords = 0x7FFF := rfl
      have hbounds : 1 ≤ chunk ∧ chunk ≤ 0x7FFF ∧ chunk ≤ remaining := by omega
      obtain ⟨tag, htag⟩ : ∃ tag : Qword,
        tag = ⟨gifPackTag (UInt16.ofNat chunk) 1 0 0 gifFlgImage 0, 0⟩ := ⟨_, rfl⟩
      have hread : readTag tag = ⟨chunk, 1, 0, 0, 2, 0, 0⟩ :=
        htag ▸ readTag_imageTag (show chunk < 2 ^ 15 by omega)
      have hcount : (qwords pixels offset chunk).length = (readTag tag).count := by
        rw [length_qwords, hread]
        rfl
      have hsent := sends_tag_data dma hcount v
      obtain ⟨images, hsends, -, himages, hdata⟩ :=
        ih (remaining - chunk) (by omega) (offset + chunk)
          (submitQwords dma (qwords pixels offset chunk) (submitQwords dma [tag] v).2).2
      refine ⟨(readTag tag, qwords pixels offset chunk) :: images, ?_,
        fun _ => List.cons_ne_nil _ _, ?_, ?_⟩
      · rw [uploadLoop_succ dma pixels offset hdone hchunk, ← htag]
        exact hsent.trans hsends
      · refine List.forall_mem_cons.2 ⟨?_, himages⟩
        rw [hread]
        exact ⟨rfl, ⟨hbounds.1, hbounds.2.1⟩, length_qwords _ _ _⟩
      · rw [List.flatMap_cons, hdata, qwords_append, Nat.add_sub_cancel' hbounds.2.2]

/-- An image in the memory, and where the GS is to put it. -/
structure Picture where
  address : UInt16
  bufferWidth : UInt8
  psm : UInt8
  width : UInt16
  height : UInt16
  bytes : ℕ → UInt8

/-- The bits of a pixel in a format that is uploaded. -/
def bitsPerPixel (psm : UInt8) : ℕ :=
  if psm = psmt8 then 8 else if psm = psmt4 then 4 else 32

/-- The number of qwords that hold the image. -/
def Picture.qwordCount (p : Picture) : ℕ :=
  (p.width.toNat * p.height.toNat * bitsPerPixel p.psm + 127) / 128

/-- The packet that sets up the transfer of an image. -/
def Picture.setup (p : Picture) : Tag × List Qword :=
  (⟨4, 1, 0, 0, gifFlgPacked.toNat, 1, gifRegAd⟩,
    [gifAd (packBitbltbuf p.address p.bufferWidth p.psm) addrBitbltbuf,
      gifAd (packTrxpos 0 0) addrTrxpos,
      gifAd (packTrxreg p.width p.height) addrTrxreg,
      gifAd 0 addrTrxdir])

/-- The packets set up the image and hold its bytes in order, each once. -/
def Picture.SentAs (p : Picture) (packets : List (Tag × List Qword)) : Prop :=
  ∃ images, packets = p.setup :: images ∧ images ≠ [] ∧ (∀ i ∈ images, IsImage i) ∧
    (images.flatMap Prod.snd).flatMap qwordBytes = (List.range (16 * p.qwordCount)).map p.bytes

theorem uploadImage_sends (p : Picture) {transferBytes : UInt32}
    (hbytes : transferBytes.toNat = 16 * p.qwordCount) (hpos : 0 < p.qwordCount) (v : State) :
    ∃ packets, Sends v (uploadImage dma p.address p.bufferWidth p.psm p.width p.height
      (word p.bytes) transferBytes v) packets ∧ p.SentAs packets := by
  have hargs : ¬(transferBytes = 0 ∨ transferBytes &&& 0x0F ≠ 0) := by
    rintro (hzero | hmask)
    · rw [hzero] at hbytes
      exact absurd hbytes (Nat.ne_of_lt (Nat.mul_pos (by decide) hpos))
    · apply hmask
      apply UInt32.toNat_inj.1
      rw [UInt32.toNat_and, hbytes, show (0x0F : UInt32).toNat = 2 ^ 4 - 1 from rfl,
        Nat.and_two_pow_sub_one_eq_mod]
      exact Nat.mul_mod_right 16 _
  have hqwords : (transferBytes >>> 4).toNat = p.qwordCount := by
    rw [UInt32.toNat_shiftRight, hbytes, Nat.shiftRight_eq_div_pow]
    exact Nat.mul_div_cancel_left _ (by decide)
  have htag : readTag (adTag 4) = ⟨4, 1, 0, 0, 0, 1, gifRegAd⟩ := readTag_adTag (by decide)
  have hsetup := sends_submitQwords dma
    (show p.setup.2.length = (readTag (adTag 4)).count by rw [htag]; rfl) v
  obtain ⟨images, hsends, hne, himages, hdata⟩ := uploadLoop_sends dma (word p.bytes)
    p.qwordCount 0 (submitQwords dma (adTag 4 :: p.setup.2) v).2
  refine ⟨p.setup :: images, ?_, images, rfl, hne hpos, himages, ?_⟩
  · rw [htag] at hsetup
    have hrun := hsetup.trans hsends
    rw [uploadImage, if_neg hargs, hqwords]
    exact hrun
  · rw [hdata, bytes_qwords]
    simp only [Nat.mul_zero, Nat.zero_add]

/-- The packet that flushes the texture cache. -/
def flushPacket : Tag × List Qword :=
  (⟨1, 1, 0, 0, gifFlgPacked.toNat, 1, gifRegAd⟩, [gifAd 0 addrTexflush])

theorem flushTextureCache_sends (v : State) :
    Sends v (flushTextureCache dma v) [flushPacket] := by
  have htag : readTag (adTag 1) = ⟨1, 1, 0, 0, 0, 1, gifRegAd⟩ := readTag_adTag (by decide)
  have hflush := sends_submitQwords dma
    (show flushPacket.2.length = (readTag (adTag 1)).count by rw [htag]; rfl) v
  rw [htag] at hflush
  exact hflush

/-- The stream is read as the images, one after the other, and a flush. -/
def IsUpload (pictures : List Picture) (stream : List Qword) : Prop :=
  ∃ parts, List.Forall₂ Picture.SentAs pictures parts ∧
    parse stream = some (parts.flatten ++ [flushPacket])

/-! ## The CLUT -/

/-- An index with bits 3 and 4 exchanged. -/
def exchanged (i : ℕ) : ℕ :=
  if i.testBit 3 = i.testBit 4 then i else i ^^^ 0x18

theorem csm1Index_toNat : ∀ i < 256, (csm1Index (UInt32.ofNat i)).toNat = exchanged i := by
  decide +kernel

theorem exchanged_exchanged : ∀ i < 256, exchanged (exchanged i) = i := by
  decide +kernel

theorem exchanged_inj {i j : ℕ} (hi : i < 256) (hj : j < 256) (h : exchanged i = exchanged j) :
    i = j := by
  rw [← exchanged_exchanged i hi, h, exchanged_exchanged j hj]

/-- The loop puts each colour at its place and leaves the other places. -/
theorem prepareCsm1Loop_spec (palette : ℕ → UInt32) {rounds first : ℕ} (h : first + rounds ≤ 256)
    (stage : ℕ → UInt32) :
    (∀ i, first ≤ i → i < first + rounds →
      prepareCsm1Loop palette rounds (UInt32.ofNat first) stage (exchanged i) = palette i) ∧
    ∀ j, (∀ i, first ≤ i → i < first + rounds → exchanged i ≠ j) →
      prepareCsm1Loop palette rounds (UInt32.ofNat first) stage j = stage j := by
  induction rounds generalizing first stage with
  | zero => exact ⟨fun i hi hlt => by omega, fun _ _ => rfl⟩
  | succ rounds ih =>
    have hnext : UInt32.ofNat first + 1 = UInt32.ofNat (first + 1) := (UInt32.ofNat_add _ _).symm
    have hvalue : (UInt32.ofNat first).toNat = first := UInt32.toNat_ofNat_of_lt' (by
      change first < 2 ^ 32
      omega)
    have hplace := csm1Index_toNat first (by omega)
    rw [prepareCsm1Loop, hnext, hvalue, hplace]
    obtain ⟨hlater, hrest⟩ := ih (show first + 1 + rounds ≤ 256 by omega)
      fun j => if j = exchanged first then palette first else stage j
    constructor
    · intro i hi hlt
      rcases Nat.eq_or_lt_of_le hi with rfl | hi
      · rw [hrest _ fun k hk hlt hsame => absurd (exchanged_inj (by omega) (by omega) hsame)
          (by omega)]
        exact if_pos rfl
      · exact hlater i hi (by omega)
    · intro j hj
      rw [hrest j fun i hi hlt => hj i (by omega) (by omega)]
      exact if_neg fun hsame => hj first (Nat.le_refl _) (by omega) hsame.symm

/-! ## Uploads -/

/-- The checks of an upload : of its arguments and of the number of bytes it transfers, and
whether the texture and its CLUT fit the GS memory. -/
structure Accepted (texture : Option Texture) (sources : List Source) (width height : UInt16)
    (bytes : UInt32) (fits : Prop) : Prop where
  texture : texture ≠ none
  nonnull : ∀ s ∈ sources, s.address ≠ 0
  size : ¬badSize width height
  aligned : ∀ s ∈ sources, s.address &&& 0x0F = 0
  whole : bytes &&& 0x0F = 0
  fits : fits

/-- An upload that is accepted returns 0, and its stream is the one of these images. One that is
not returns an error and does nothing. -/
def Emitted (v : State) (accepted : Prop) (pictures : Texture → List Picture → Prop)
    (r : ℤ × Option Texture) (u : State) : Prop :=
  (¬accepted ∧ r.1 < 0 ∧ u = v) ∨ accepted ∧ ∃ t ps stream, r = (0, some t) ∧ pictures t ps ∧
    u.submitted = v.submitted ++ stream ∧ IsUpload ps stream

/-- Since `v`, these images have been sent. -/
def Sent (v : State) (ps : List Picture) (u : State) : Prop :=
  ∃ parts stream, List.Forall₂ Picture.SentAs ps parts ∧ u.submitted = v.submitted ++ stream ∧
    Reads stream parts.flatten

variable {accepted : Prop} {pictures : Texture → List Picture → Prop} {ps : List Picture}

theorem emitted_refused {error : ℤ} {texture : Option Texture} (h : error < 0) (hbad : ¬accepted) :
    Triple (· = v) (pure (error, texture)) (Emitted v accepted pictures) :=
  Triple.pure fun _ hu => Or.inl ⟨hbad, h, hu⟩

theorem sent_nil : Sent v [] v :=
  ⟨[], [], .nil, (List.append_nil _).symm, .nil⟩

/-- An image is sent, which does not fail. -/
theorem emitted_image (p : Picture) (n : ℕ) {transferBytes : UInt32} (hn : p.qwordCount = n)
    (hbytes : transferBytes.toNat = 16 * n) (hpos : 0 < n)
    {error : ℤ × Option Texture} {rest : StateM State (ℤ × Option Texture)}
    (hrest : Triple (Sent v (ps ++ [p])) rest (Emitted v accepted pictures)) :
    Triple (Sent v ps) (do
      let sent ← uploadImage dma p.address p.bufferWidth p.psm p.width p.height (word p.bytes)
        transferBytes
      if sent < 0 then
        pure error
      else
        rest) (Emitted v accepted pictures) := by
  rintro u ⟨parts, stream, hparts, hstream, hreads⟩
  obtain ⟨packets, ⟨hresult, stream', hstream', hreads'⟩, hsent⟩ :=
    uploadImage_sends dma p (hn ▸ hbytes) (hn ▸ hpos) u
  rw [bind_apply, ite_run, if_neg (by rw [hresult]; decide)]
  refine hrest _ ⟨parts ++ [packets], stream ++ stream', ?_, ?_, ?_⟩
  · exact List.rel_append hparts (.cons hsent .nil)
  · rw [hstream', hstream, List.append_assoc]
  · rw [List.flatten_append, List.flatten_singleton]
    exact hreads.append hreads'

/-- The texture cache is flushed, which does not fail, and the upload is done. -/
theorem emitted_flush {error : ℤ × Option Texture} {t : Texture} {f : State → State}
    (hf : ∀ u, (f u).submitted = u.submitted) (hok : accepted) (hps : pictures t ps) :
    Triple (Sent v ps) (do
      let flushed ← flushTextureCache dma
      if flushed < 0 then
        pure error
      else do
        modify f
        pure (0, some t)) (Emitted v accepted pictures) := by
  rintro u ⟨parts, stream, hparts, hstream, hreads⟩
  obtain ⟨hresult, stream', hstream', hreads'⟩ := flushTextureCache_sends dma u
  rw [bind_apply, ite_run, if_neg (by rw [hresult]; decide)]
  refine Or.inr ⟨hok, t, ps, stream ++ stream', rfl, hps, ?_, parts, hparts, ?_⟩
  · rw [← List.append_assoc, ← hstream, ← hstream']
    exact hf _
  · exact (hreads.append hreads').parse_eq

/-- The CLUT is prepared, and then read. -/
theorem emitted_prepareCsm1Clut (palette : Source)
    {rest : State → StateM State (ℤ × Option Texture)}
    (hrest : ∀ w, (∀ i < 256, w.clutStage (exchanged i) = word palette.bytes i) →
      Triple (Sent v ps) (rest w) (Emitted v accepted pictures)) :
    Triple (Sent v ps) (do
      prepareCsm1Clut (word palette.bytes)
      let w ← get
      rest w) (Emitted v accepted pictures) := by
  intro u hu
  obtain ⟨hplaced, -⟩ := prepareCsm1Loop_spec (word palette.bytes) (show 0 + 256 ≤ 256 by decide)
    u.clutStage
  rw [show UInt32.ofNat 0 = 0 from rfl] at hplaced
  obtain ⟨stage, hstage⟩ :
      ∃ stage, stage = prepareCsm1Loop (word palette.bytes) 256 0 u.clutStage :=
    ⟨_, rfl⟩
  rw [← hstage] at hplaced
  have hprepared : prepareCsm1Clut (word palette.bytes) u
      = (⟨⟩, { u with clutStage := stage }) := by
    rw [hstage]
    rfl
  rw [bind_apply, bind_apply, get_apply, hprepared]
  exact hrest { u with clutStage := stage } (fun i hi => hplaced i (Nat.zero_le i) (by omega)) _ hu

/-- The sizes of an upload, as numbers. -/
theorem area_toNat {width height : UInt16} (h : ¬badSize width height) :
    (width.toUInt32 * height.toUInt32).toNat = width.toNat * height.toNat ∧
      0 < width.toNat * height.toNat ∧ width.toNat * height.toNat ≤ 1048576 := by
  obtain ⟨hw0, hw, hh0, hh⟩ := toNat_le_of_not_badSize h
  have harea : width.toNat * height.toNat ≤ 1024 * 1024 := Nat.mul_le_mul hw hh
  refine ⟨?_, Nat.mul_pos hw0 hh0, harea⟩
  rw [UInt32.toNat_mul, UInt16.toNat_toUInt32, UInt16.toNat_toUInt32]
  exact Nat.mod_eq_of_lt (by omega)

theorem toNat_of_land_eq_zero {bytes : UInt32} (h : ¬bytes &&& 0x0F ≠ 0) : 16 ∣ bytes.toNat := by
  have hmask := congrArg UInt32.toNat (not_not.1 h)
  rw [UInt32.toNat_and, show (0x0F : UInt32).toNat = 2 ^ 4 - 1 from rfl,
    Nat.and_two_pow_sub_one_eq_mod] at hmask
  exact Nat.dvd_of_mod_eq_zero hmask

/-- The images of an upload of RGBA32 pixels. -/
def rgba32Pictures (pixels : Source) (width height : UInt16) (t : Texture) (ps : List Picture) :
    Prop :=
  ps = [⟨t.vramAddress, t.bufferWidth, psmct32, width, height, pixels.bytes⟩]

/-- The checks of `ef2_video_upload_rgba32`. -/
def rgba32Accepted (v : State) (texture : Option Texture) (pixels : Source)
    (width height : UInt16) : Prop :=
  let cursor := alignUp v.textureCursor texturePageBytes
  Accepted texture [pixels] width height (width.toUInt32 * height.toUInt32 * 4)
    (¬(cursor > vramBytes ∨ alignUp width.toUInt32 texturePageWidth *
      alignUp height.toUInt32 texturePageHeight * 4 > vramBytes - cursor))

theorem uploadRgba32_emitted (texture : Option Texture) (pixels : Source) (width height : UInt16)
    (v : State) :
    Triple (· = v) (uploadRgba32 dma texture pixels width height)
      (Emitted v (rgba32Accepted v texture pixels width height)
        (rgba32Pictures pixels width height)) := by
  refine Triple.ite (fun hbad => emitted_refused (by decide) fun h => ?_) fun hargs =>
    Triple.ite (fun hbad => emitted_refused (by decide) fun h => ?_) fun haligned =>
    Triple.ite (fun hbad => emitted_refused (by decide) fun h => hbad h.whole) fun hmult =>
    Triple.bind (fun w u => u = v ∧ w = v) (Triple.get fun u hu => ⟨hu, hu⟩) fun w =>
    Triple.of_and fun hw =>
    Triple.ite (fun hbad => emitted_refused (by decide) fun h => h.fits (hw ▸ hbad)) fun hfits => ?_
  · rcases hbad with hnone | hnull | hbad
    · exact h.texture hnone
    · exact h.nonnull pixels List.mem_cons_self hnull
    · exact h.size hbad
  · exact hbad (h.aligned pixels List.mem_cons_self)
  simp only [not_or, not_not] at hargs haligned
  obtain ⟨htexture, hnull, hsize⟩ := hargs
  have hok : rgba32Accepted v texture pixels width height :=
    ⟨htexture, List.forall_mem_singleton.2 hnull, hsize, List.forall_mem_singleton.2 haligned,
      not_not.1 hmult, hw ▸ hfits⟩
  obtain ⟨harea, hpos, hle⟩ := area_toNat hsize
  have hbytes : (width.toUInt32 * height.toUInt32 * 4).toNat = width.toNat * height.toNat * 4 := by
    rw [UInt32.toNat_mul, harea]
    exact Nat.mod_eq_of_lt (show width.toNat * height.toNat * 4 < 2 ^ 32 by omega)
  have hdvd := toNat_of_land_eq_zero hmult
  rw [hbytes] at hdvd
  rintro u rfl
  refine emitted_image dma ⟨_, _, psmct32, width, height, pixels.bytes⟩
    ((width.toNat * height.toNat * 32 + 127) / 128) rfl ?_ ?_ (emitted_flush dma ?_ hok ?_) u
    sent_nil
  · rw [hbytes]
    omega
  · omega
  · exact fun _ => rfl
  · rfl

/-- The checks of an upload of an indexed image : its CLUT is behind it. -/
def indexedAccepted (v : State) (texture : Option Texture) (indices palette : Source)
    (width height : UInt16) (bytes textureBytes clutBytes : UInt32) : Prop :=
  Accepted texture [indices, palette] width height bytes
    (¬alignUp (alignUp v.textureCursor texturePageBytes + textureBytes) 256 + clutBytes > vramBytes)

/-- The checks of `ef2_video_upload_indexed8`. -/
def indexed8Accepted (v : State) (texture : Option Texture) (indices palette : Source)
    (width height : UInt16) : Prop :=
  indexedAccepted v texture indices palette width height (width.toUInt32 * height.toUInt32)
    (alignUp width.toUInt32 128 * alignUp height.toUInt32 64) 1024

/-- The checks of `ef2_video_upload_indexed4`. -/
def indexed4Accepted (v : State) (texture : Option Texture) (packedIndices palette : Source)
    (width height : UInt16) : Prop :=
  indexedAccepted v texture packedIndices palette width height
    ((width.toUInt32 * height.toUInt32 + 1) >>> 1)
    ((alignUp width.toUInt32 128 * alignUp height.toUInt32 128) >>> 1) 256

/-- The checks as the uploads of indexed images make them. -/
theorem indexedAccepted_iff {texture : Option Texture} {indices palette : Source}
    {width height : UInt16} {bytes textureBytes clutBytes : UInt32} :
    indexedAccepted v texture indices palette width height bytes textureBytes clutBytes ↔
      ¬(texture = none ∨ indices.address = 0 ∨ palette.address = 0 ∨ badSize width height) ∧
      ¬(indices.address &&& 0x0F ≠ 0 ∨ palette.address &&& 0x0F ≠ 0) ∧ ¬bytes &&& 0x0F ≠ 0 ∧
      ¬alignUp (alignUp v.textureCursor texturePageBytes + textureBytes) 256 + clutBytes >
        vramBytes := by
  simp only [not_or, not_not]
  constructor
  · rintro ⟨htexture, hnull, hsize, haligned, hwhole, hfits⟩
    simp only [List.forall_mem_cons, List.not_mem_nil, false_implies, implies_true, and_true]
      at hnull haligned
    exact ⟨⟨htexture, hnull.1, hnull.2, hsize⟩, haligned, hwhole, hfits⟩
  · rintro ⟨⟨htexture, hindices, hpalette, hsize⟩, haligned, hwhole, hfits⟩
    refine ⟨htexture, ?_, hsize, ?_, hwhole, hfits⟩
    · exact List.forall_mem_cons.2 ⟨hindices, List.forall_mem_singleton.2 hpalette⟩
    · exact List.forall_mem_cons.2 ⟨haligned.1, List.forall_mem_singleton.2 haligned.2⟩

/-- An upload of an indexed image makes its checks, and goes on where they pass. -/
theorem emitted_indexed {texture : Option Texture} {indices palette : Source}
    {width height : UInt16} {bytes textureBytes clutBytes : UInt32}
    {rest : State → StateM State (ℤ × Option Texture)}
    (hrest : indexedAccepted v texture indices palette width height bytes textureBytes clutBytes →
      Triple (· = v) (rest v)
        (Emitted v (indexedAccepted v texture indices palette width height bytes textureBytes
          clutBytes) pictures)) :
    Triple (· = v) (do
      if texture = none ∨ indices.address = 0 ∨ palette.address = 0 ∨ badSize width height then
        pure (-1, texture)
      else if indices.address &&& 0x0F ≠ 0 ∨ palette.address &&& 0x0F ≠ 0 then
        pure (-2, texture)
      else if bytes &&& 0x0F ≠ 0 then
        pure (-3, texture)
      else do
        let w ← get
        if alignUp (alignUp w.textureCursor texturePageBytes + textureBytes) 256 + clutBytes >
            vramBytes then
          pure (-4, texture)
        else
          rest w)
      (Emitted v (indexedAccepted v texture indices palette width height bytes textureBytes
        clutBytes) pictures) := by
  refine Triple.ite (fun hbad => emitted_refused (by decide) fun h =>
      (indexedAccepted_iff.1 h).1 hbad) fun hargs =>
    Triple.ite (fun hbad => emitted_refused (by decide) fun h =>
      (indexedAccepted_iff.1 h).2.1 hbad) fun haligned =>
    Triple.ite (fun hbad => emitted_refused (by decide) fun h =>
      (indexedAccepted_iff.1 h).2.2.1 hbad) fun hmult =>
    Triple.bind (fun w u => u = v ∧ w = v) (Triple.get fun u hu => ⟨hu, hu⟩) fun w =>
    Triple.of_and ?_
  rintro rfl
  exact Triple.ite (fun hbad => emitted_refused (by decide) fun h =>
      (indexedAccepted_iff.1 h).2.2.2 hbad) fun hfits =>
    hrest (indexedAccepted_iff.2 ⟨hargs, haligned, hmult, hfits⟩)

/-- The images of an upload of 8 bits a pixel : in the CLUT, the place of a colour is its index
with bits 3 and 4 exchanged. -/
def indexed8Pictures (indices palette : Source) (width height : UInt16) (t : Texture)
    (ps : List Picture) : Prop :=
  ∃ clut : ℕ → UInt8,
    (∀ i < 256, ∀ b < 4, clut (4 * exchanged i + b) = palette.bytes (4 * i + b)) ∧
    ps = [⟨t.vramAddress, t.bufferWidth, psmt8, width, height, indices.bytes⟩,
      ⟨t.clutAddress, 1, psmct32, 16, 16, clut⟩]

theorem uploadIndexed8_emitted (texture : Option Texture) (indices palette : Source)
    (width height : UInt16) (v : State) :
    Triple (· = v) (uploadIndexed8 dma texture indices palette width height)
      (Emitted v (indexed8Accepted v texture indices palette width height)
        (indexed8Pictures indices palette width height)) := by
  refine emitted_indexed fun hok => ?_
  obtain ⟨harea, hpos, hle⟩ := area_toNat hok.size
  have hmult := (indexedAccepted_iff.1 hok).2.2.1
  have hdvd := toNat_of_land_eq_zero hmult
  rw [harea] at hdvd
  rintro u rfl
  refine emitted_image dma ⟨_, _, psmt8, width, height, indices.bytes⟩
    ((width.toNat * height.toNat * 8 + 127) / 128) rfl ?_ ?_ ?_ u sent_nil
  · rw [harea]
    omega
  · omega
  · refine emitted_prepareCsm1Clut palette fun w' hclut => ?_
    rw [← word_wordBytes w'.clutStage]
    refine emitted_image dma ⟨_, 1, psmct32, 16, 16, wordBytes w'.clutStage⟩
      (((16 : UInt16).toNat * (16 : UInt16).toNat * 32 + 127) / 128) rfl (by decide) (by decide)
      (emitted_flush dma ?_ hok ⟨wordBytes w'.clutStage, fun i hi b hb => ?_, rfl⟩)
    · exact fun _ => rfl
    · exact wordBytes_word _ _ (hclut i hi) hb

/-- The images of an upload of 4 bits a pixel. -/
def indexed4Pictures (packedIndices palette : Source) (width height : UInt16) (t : Texture)
    (ps : List Picture) : Prop :=
  ps = [⟨t.vramAddress, t.bufferWidth, psmt4, width, height, packedIndices.bytes⟩,
    ⟨t.clutAddress, 1, psmct32, 8, 2, palette.bytes⟩]

theorem uploadIndexed4_emitted (texture : Option Texture) (packedIndices palette : Source)
    (width height : UInt16) (v : State) :
    Triple (· = v) (uploadIndexed4 dma texture packedIndices palette width height)
      (Emitted v (indexed4Accepted v texture packedIndices palette width height)
        (indexed4Pictures packedIndices palette width height)) := by
  refine emitted_indexed fun hok => ?_
  obtain ⟨harea, hpos, hle⟩ := area_toNat hok.size
  have hmult := (indexedAccepted_iff.1 hok).2.2.1
  have hbytes : ((width.toUInt32 * height.toUInt32 + 1) >>> 1).toNat =
      (width.toNat * height.toNat + 1) / 2 := by
    rw [UInt32.toNat_shiftRight, UInt32.toNat_add, harea, Nat.shiftRight_eq_div_pow]
    change (width.toNat * height.toNat + 1) % 2 ^ 32 / 2 = _
    omega
  have hdvd := toNat_of_land_eq_zero hmult
  rw [hbytes] at hdvd
  rintro u rfl
  refine emitted_image dma ⟨_, _, psmt4, width, height, packedIndices.bytes⟩
    ((width.toNat * height.toNat * 4 + 127) / 128) rfl ?_ ?_
    (emitted_image dma ⟨_, 1, psmct32, 8, 2, palette.bytes⟩
      (((8 : UInt16).toNat * (2 : UInt16).toNat * 32 + 127) / 128) rfl (by decide) (by decide)
      (emitted_flush dma ?_ hok ?_)) u sent_nil
  · rw [hbytes]
    omega
  · omega
  · exact fun _ => rfl
  · rfl

/-- An upload whose checks pass returns 0, and what it submits is read by the GIF as its images and
a flush of the texture cache. Any other upload fails and submits nothing. -/
theorem uploads_emitted (dma : ℕ → Bool) (v : State) (texture : Option Texture)
    (source palette : Source) (width height : UInt16) :
    Emitted v (rgba32Accepted v texture source width height) (rgba32Pictures source width height)
        (uploadRgba32 dma texture source width height v).1
        (uploadRgba32 dma texture source width height v).2 ∧
      Emitted v (indexed8Accepted v texture source palette width height)
        (indexed8Pictures source palette width height)
        (uploadIndexed8 dma texture source palette width height v).1
        (uploadIndexed8 dma texture source palette width height v).2 ∧
      Emitted v (indexed4Accepted v texture source palette width height)
        (indexed4Pictures source palette width height)
        (uploadIndexed4 dma texture source palette width height v).1
        (uploadIndexed4 dma texture source palette width height v).2 :=
  ⟨uploadRgba32_emitted dma texture source width height v v rfl,
    uploadIndexed8_emitted dma texture source palette width height v v rfl,
    uploadIndexed4_emitted dma texture source palette width height v v rfl⟩

end EF2SDK.Video
