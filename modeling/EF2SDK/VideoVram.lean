import EF2SDK.Ranges
import EF2SDK.VideoInit
import EF2SDK.Words

/-!
# Textures do not overlap

The texture cursor starts behind the two framebuffers and only moves up, until it is reset.
Every upload takes a page-aligned image, and a block-aligned CLUT behind it, from between the
old cursor and the new one (`Placed`), so everything taken since the last reset is packed
between the framebuffers and the cursor, which stays inside the GS memory (`VramInv`). The
sizes that an upload accepts are too small for any of the 32-bit sums to wrap.
-/

set_option autoImplicit false

namespace EF2SDK.Video

open Gs

/-! ## Alignment -/

theorem land_two_pow_sub {x k n : ℕ} (hx : x < 2 ^ n) (hk : k ≤ n) :
    x &&& (2 ^ n - 2 ^ k) = x / 2 ^ k * 2 ^ k := by
  have hmask : 2 ^ n - 2 ^ k = (2 ^ (n - k) - 1) * 2 ^ k := by
    rw [Nat.sub_mul, Nat.one_mul, ← Nat.pow_add, Nat.sub_add_cancel hk]
  apply Nat.eq_of_testBit_eq
  intro i
  rw [hmask, Nat.testBit_and, Nat.testBit_mul_two_pow, Nat.testBit_mul_two_pow,
    Nat.testBit_two_pow_sub_one, Nat.testBit_div_two_pow]
  by_cases hi : k ≤ i
  · by_cases hn : i < n
    · simp [hi, show i - k < n - k by omega, Nat.sub_add_cancel hi]
    · have hlt : x < 2 ^ i := Nat.lt_of_lt_of_le hx (Nat.pow_le_pow_right (by omega) (by omega))
      simp [hi, Nat.sub_add_cancel hi, Nat.testBit_lt_two_pow hlt]
  · simp [hi]

theorem alignUp_toNat {value alignment : UInt32} {k : ℕ} (ha : alignment.toNat = 2 ^ k)
    (h : value.toNat + alignment.toNat ≤ 2 ^ 32) :
    (alignUp value alignment).toNat
      = (value.toNat + (alignment.toNat - 1)) / alignment.toNat * alignment.toNat := by
  have hpos : 0 < alignment.toNat := ha ▸ Nat.two_pow_pos k
  have hlt := alignment.toNat_lt
  have hk : k ≤ 32 := by
    by_contra hk
    have := Nat.pow_lt_pow_right (a := 2) (by omega) (Nat.lt_of_not_le hk)
    omega
  have hsum : (value + alignment - 1).toNat = value.toNat + (alignment.toNat - 1) := by
    rw [UInt32.toNat_sub, UInt32.toNat_add]
    simp
    omega
  have hmask : (~~~(alignment - 1)).toNat = 2 ^ 32 - 2 ^ k := by
    rw [UInt32.toNat_not, UInt32.toNat_sub_of_le]
    · simp
      omega
    · rw [UInt32.le_iff_toNat_le]
      exact hpos
  rw [alignUp, UInt32.toNat_and, hsum, hmask, land_two_pow_sub (by omega) hk, ha]

/-! ## Where a texture is -/

/-- The width and the height of a page in a pixel format. -/
def pageSize (psm : UInt8) : ℕ × ℕ :=
  if psm = psmt8 then (128, 64)
  else if psm = psmt4 then (128, 128)
  else (64, 32)

/-- The size of an image in whole pages. -/
def imageBytes (psm : UInt8) (width height : UInt16) : ℕ :=
  (width.toNat + (pageSize psm).1 - 1) / (pageSize psm).1
    * ((height.toNat + (pageSize psm).2 - 1) / (pageSize psm).2) * 8192

/-- The bytes of the GS memory that the image takes. -/
def imageRange (t : Texture) : Range where
  start := 256 * t.vramAddress.toNat
  size := imageBytes t.psm t.width t.height

/-- The bytes that the CLUT takes, if there is one : 256 colours, or 16 in their own block. -/
def clutRanges (t : Texture) : List Range :=
  if t.psm = psmt8 then [⟨256 * t.clutAddress.toNat, 1024⟩]
  else if t.psm = psmt4 then [⟨256 * t.clutAddress.toNat, 256⟩]
  else []

/-- Everything that a texture takes. -/
def ranges (t : Texture) : List Range :=
  imageRange t :: clutRanges t

/-- The texture lies between two positions of the cursor, aligned, at addresses that the
registers can hold. -/
structure Placed (c c' : UInt32) (t : Texture) : Prop where
  packed : Packed c.toNat c'.toNat (ranges t)
  start : (imageRange t).start = (c.toNat + 8191) / 8192 * 8192
  limit : c'.toNat ≤ 4194304
  page : 8192 ∣ (imageRange t).start
  block : ∀ r ∈ clutRanges t, 256 ∣ r.start
  vram : t.vramAddress.toNat < 2 ^ 14
  clut : t.clutAddress.toNat < 2 ^ 14

theorem toNat_le_of_not_badSize {width height : UInt16} (h : ¬badSize width height) :
    0 < width.toNat ∧ width.toNat ≤ 1024 ∧ 0 < height.toNat ∧ height.toNat ≤ 1024 := by
  simp only [badSize, not_or, ← UInt16.toNat_inj, gt_iff_lt, UInt16.lt_iff_toNat_lt] at h
  simp at h
  omega

section Placement

variable {c : UInt32} {t : Texture}

/-- The cursor is moved to a page boundary. -/
theorem pageCursor_toNat (h : c.toNat ≤ 4194304) :
    (alignUp c texturePageBytes).toNat = (c.toNat + 8191) / 8192 * 8192 :=
  alignUp_toNat (k := 13) rfl (show c.toNat + 8192 ≤ 2 ^ 32 by omega)

theorem paddedSize_toNat {size : UInt16} (h : size.toNat ≤ 1024) (page : UInt32) {k : ℕ}
    (hk : page.toNat = 2 ^ k) (hpage : page.toNat ≤ 1024) :
    (alignUp size.toUInt32 page).toNat
      = (size.toNat + (page.toNat - 1)) / page.toNat * page.toNat := by
  rw [alignUp_toNat hk (by simp; omega)]
  simp

theorem address_toNat {cursor : UInt32} (h : cursor.toNat < 4194304) :
    (cursor / 256).toUInt16.toNat = cursor.toNat / 256 := by
  simp only [UInt32.toNat_toUInt16, UInt32.toNat_div]
  simp
  omega

/-- A side of at most 1024 pixels, in pages. -/
theorem pages_le {size page : ℕ} (h0 : 0 < size) (hle : size ≤ 1024) (hdvd : page ∣ 1024) :
    0 < (size + (page - 1)) / page ∧ (size + (page - 1)) / page * page ≤ 1024 := by
  obtain ⟨m, hm⟩ := hdvd
  have hpos : 0 < page := Nat.pos_of_ne_zero fun h => by simp [h] at hm
  have hlt : (size + (page - 1)) / page < m + 1 := by
    rw [Nat.div_lt_iff_lt_mul hpos, Nat.add_mul, Nat.one_mul, Nat.mul_comm m]
    omega
  refine ⟨Nat.div_pos (by omega) hpos, ?_⟩
  rw [hm, Nat.mul_comm page]
  exact Nat.mul_le_mul_right page (by omega)

/-- The padded image has a whole number of pages. -/
theorem exists_pages {width height : UInt16} (hsize : ¬badSize width height) (psm : UInt8)
    (pw ph : UInt32) (area : ℕ) {j k : ℕ} (hpw : pw.toNat = 2 ^ j) (hph : ph.toNat = 2 ^ k)
    (harea : pw.toNat * ph.toNat = area) (hpage : pageSize psm = (pw.toNat, ph.toNat))
    (hw : pw.toNat ∣ 1024) (hh : ph.toNat ∣ 1024) :
    ∃ n, 0 < n ∧ imageBytes psm width height = n * 8192 ∧ n * area ≤ 1048576
      ∧ (alignUp width.toUInt32 pw * alignUp height.toUInt32 ph).toNat = n * area := by
  obtain ⟨hw0, hwle, hh0, hhle⟩ := toNat_le_of_not_badSize hsize
  obtain ⟨ha0, ha⟩ := pages_le hw0 hwle hw
  obtain ⟨hb0, hb⟩ := pages_le hh0 hhle hh
  have hle := Nat.mul_le_mul ha hb
  rw [Nat.mul_mul_mul_comm, harea] at hle
  refine ⟨_, Nat.mul_pos ha0 hb0, ?_, hle, ?_⟩
  · have hpred {page : ℕ} (size : ℕ) (h : 0 < page) : size + page - 1 = size + (page - 1) := by
      omega
    have hpwpos : 0 < pw.toNat := hpw ▸ Nat.two_pow_pos j
    have hphpos : 0 < ph.toNat := hph ▸ Nat.two_pow_pos k
    rw [imageBytes, hpage, hpred _ hpwpos, hpred _ hphpos]
  · rw [UInt32.toNat_mul, paddedSize_toNat hwle pw hpw (Nat.le_of_dvd (by decide) hw),
      paddedSize_toNat hhle ph hph (Nat.le_of_dvd (by decide) hh), Nat.mul_mul_mul_comm,
      harea]
    exact Nat.mod_eq_of_lt (by omega)

theorem imageStart_eq {cursor : UInt32} (h : cursor.toNat < 4194304) (hdvd : 8192 ∣ cursor.toNat)
    (hvram : t.vramAddress = (cursor / 256).toUInt16) :
    (imageRange t).start = cursor.toNat := by
  change 256 * t.vramAddress.toNat = cursor.toNat
  rw [hvram, address_toNat h]
  omega

/-- A page of RGBA32 is 64 by 32 pixels of 4 bytes. -/
theorem placed_rgba32 (hc : c.toNat ≤ 4194304) (hsize : ¬badSize t.width t.height)
    {cursor bytes : UInt32} (hcursor : cursor = alignUp c texturePageBytes)
    (hbytes : bytes = alignUp t.width.toUInt32 texturePageWidth
      * alignUp t.height.toUInt32 texturePageHeight * 4)
    (hfits : ¬(cursor > vramBytes ∨ bytes > vramBytes - cursor)) (hpsm : t.psm = psmct32)
    (hvram : t.vramAddress = (cursor / 256).toUInt16) (hclut : t.clutAddress = 0) :
    Placed c (cursor + bytes) t := by
  have hcursorN : cursor.toNat = (c.toNat + 8191) / 8192 * 8192 :=
    hcursor ▸ pageCursor_toNat hc
  obtain ⟨n, hn, himage, hle, harea⟩ := exists_pages hsize psmct32 texturePageWidth
    texturePageHeight 2048 (j := 6) (k := 5) rfl rfl rfl rfl (by decide) (by decide)
  have hbytesN : bytes.toNat = n * 8192 := by
    rw [hbytes, UInt32.toNat_mul, harea]
    change n * 2048 * 4 % 2 ^ 32 = n * 8192
    omega
  have hroom : cursor.toNat + n * 8192 ≤ 4194304 := by
    simp only [not_or, UInt32.not_lt, gt_iff_lt, UInt32.le_iff_toNat_le] at hfits
    rw [UInt32.toNat_sub_of_le _ _ (UInt32.le_iff_toNat_le.mpr hfits.1)] at hfits
    have hlimit : vramBytes.toNat = 4194304 := rfl
    omega
  have hstart : (imageRange t).start = cursor.toNat :=
    imageStart_eq (by omega) (by omega) hvram
  have hstop : (imageRange t).stop = cursor.toNat + n * 8192 := by
    rw [Range.stop, hstart, ← himage, ← hpsm]
    rfl
  have hend : (cursor + bytes).toNat = cursor.toNat + n * 8192 := by
    rw [toNat_add_of_lt (by omega), hbytesN]
  have hclutRanges : clutRanges t = [] := by
    rw [clutRanges, hpsm]
    rfl
  refine ⟨?_, by omega, by omega, by omega, by simp [hclutRanges], ?_, by simp [hclut]⟩
  · rw [ranges, hclutRanges]
    exact packed_singleton (by omega) (by omega)
  · rw [hvram, address_toNat (by omega)]
    omega

/-- An indexed image has pages of 8192 pixels, of one byte or of a nibble, and its CLUT
follows. -/
theorem placed_indexed (hc : c.toNat ≤ 4194304) {n : ℕ} (hn : 0 < n) (hle : n * 8192 ≤ 1048576)
    (himage : imageBytes t.psm t.width t.height = n * 8192)
    {cursor bytes clutCursor clutBytes : UInt32}
    (hcursor : cursor = alignUp c texturePageBytes) (hbytes : bytes.toNat = n * 8192)
    (hclutCursor : clutCursor = alignUp (cursor + bytes) 256) (hclutBytes : clutBytes.toNat ≤ 1024)
    (hfits : ¬clutCursor + clutBytes > vramBytes)
    (hranges : clutRanges t = [⟨256 * t.clutAddress.toNat, clutBytes.toNat⟩])
    (hpos : 0 < clutBytes.toNat) (hvram : t.vramAddress = (cursor / 256).toUInt16)
    (hclut : t.clutAddress = (clutCursor / 256).toUInt16) :
    Placed c (clutCursor + clutBytes) t := by
  have hcursorN : cursor.toNat = (c.toNat + 8191) / 8192 * 8192 :=
    hcursor ▸ pageCursor_toNat hc
  have hsum : (cursor + bytes).toNat = cursor.toNat + n * 8192 := by
    rw [toNat_add_of_lt (by omega), hbytes]
  have hclutN : clutCursor.toNat = cursor.toNat + n * 8192 := by
    rw [hclutCursor, alignUp_toNat (k := 8) rfl (show _ + 256 ≤ 2 ^ 32 by omega), hsum]
    change (cursor.toNat + n * 8192 + 255) / 256 * 256 = cursor.toNat + n * 8192
    omega
  have hend : (clutCursor + clutBytes).toNat = cursor.toNat + n * 8192 + clutBytes.toNat := by
    rw [toNat_add_of_lt (by omega), hclutN]
  have hroom : cursor.toNat + n * 8192 + clutBytes.toNat ≤ 4194304 := by
    rw [gt_iff_lt, UInt32.not_lt, UInt32.le_iff_toNat_le, hend] at hfits
    exact hfits
  have hstart : (imageRange t).start = cursor.toNat :=
    imageStart_eq (by omega) (by omega) hvram
  have hstop : (imageRange t).stop = cursor.toNat + n * 8192 := by
    rw [Range.stop, hstart]
    exact congrArg _ himage
  have hclutStart : 256 * t.clutAddress.toNat = cursor.toNat + n * 8192 := by
    rw [hclut, address_toNat (by omega)]
    omega
  refine ⟨?_, by omega, by omega, by omega, ?_, ?_, by omega⟩
  · have himagePacked : Packed c.toNat clutCursor.toNat [imageRange t] :=
      packed_singleton (by omega) (by omega)
    rw [ranges, hranges]
    exact himagePacked.append (packed_singleton (by simp; omega) (by simp [Range.stop]; omega))
  · rw [hranges]
    exact List.forall_mem_singleton.2 (Nat.dvd_mul_right 256 _)
  · rw [hvram, address_toNat (by omega)]
    omega

end Placement

/-! ## What an upload does -/

/-- A successful upload places its texture and moves the cursor behind it, a failed one leaves
everything. -/
def Uploaded (v : State) (r : ℤ × Option Texture) (v' : State) : Prop :=
  (r.1 ≠ 0 → Same v v') ∧
  (r.1 = 0 → ∃ t, r.2 = some t ∧ Placed v.textureCursor v'.textureCursor t
    ∧ v'.active = { v.active with textureCursor := v'.textureCursor })

variable {dma : ℕ → Bool} {v : State}

/-- An upload returns an error. -/
theorem uploaded_error {error : ℤ} {texture : Option Texture} (h : error ≠ 0) :
    Triple (Same v) (pure (error, texture)) (Uploaded v) :=
  Triple.pure fun _ hv => ⟨fun _ => hv, fun h0 => absurd h0 h⟩

/-- An upload moves the cursor and returns. -/
theorem uploaded_done {t : Texture} {cursor : UInt32} (h : Placed v.textureCursor cursor t) :
    Triple (Same v) (do
      modify fun v => { v with textureCursor := cursor }
      pure (0, some { t with valid := true }) : StateM State (ℤ × Option Texture)) (Uploaded v) :=
  fun _ hv => ⟨fun h0 => absurd rfl h0, fun _ => ⟨_, rfl, ⟨h.packed, h.start, h.limit, h.page,
    h.block, h.vram, h.clut⟩, congrArg (fun a : Active => { a with textureCursor := cursor }) hv⟩⟩

theorem triple_get : Triple (Same v) get fun u u' => Same v u' ∧ Same v u :=
  Triple.get fun _ h => ⟨h, h⟩

/-- A transfer of an upload, after which it gives up or goes on. -/
theorem uploaded_transfer {x : StateM State ℤ} (hx : Steps Same x) {error : ℤ} {t : Texture}
    (herror : error ≠ 0) {rest : StateM State (ℤ × Option Texture)}
    (hrest : Triple (Same v) rest (Uploaded v)) :
    Triple (Same v) (do
      let sent ← x
      if sent < 0 then
        pure (error, some t)
      else
        rest) (Uploaded v) :=
  Triple.bind _ (hx.triple v) fun _ => Triple.ite (fun _ => uploaded_error herror) fun _ => hrest

theorem uploadRgba32_uploaded (hv : v.textureCursor.toNat ≤ 4194304) (texture : Option Texture)
    (pixels : Source) (width height : UInt16) :
    Triple (Same v) (uploadRgba32 dma texture pixels width height) (Uploaded v) := by
  refine Triple.ite (fun _ => uploaded_error (by decide)) fun hargs =>
    Triple.ite (fun _ => uploaded_error (by decide)) fun _ =>
    Triple.ite (fun _ => uploaded_error (by decide)) fun _ =>
    Triple.bind _ triple_get fun u => Triple.of_and fun hu =>
    Triple.ite (fun _ => uploaded_error (by decide)) fun hfits => ?_
  have hsize : ¬badSize width height := fun h => hargs (Or.inr (Or.inr h))
  rw [hu.textureCursor] at hfits ⊢
  refine uploaded_transfer (same_uploadImage _ _ _ _ _ _ _) (by decide) <|
    uploaded_transfer same_flushTextureCache (by decide) <| uploaded_done ?_
  exact placed_rgba32 hv hsize rfl rfl hfits rfl rfl rfl

theorem uploadIndexed8_uploaded (hv : v.textureCursor.toNat ≤ 4194304)
    (texture : Option Texture) (indices palette : Source) (width height : UInt16) :
    Triple (Same v) (uploadIndexed8 dma texture indices palette width height) (Uploaded v) := by
  refine Triple.ite (fun _ => uploaded_error (by decide)) fun hargs =>
    Triple.ite (fun _ => uploaded_error (by decide)) fun _ =>
    Triple.ite (fun _ => uploaded_error (by decide)) fun _ =>
    Triple.bind _ triple_get fun u => Triple.of_and fun hu =>
    Triple.ite (fun _ => uploaded_error (by decide)) fun hfits => ?_
  have hsize : ¬badSize width height := fun h => hargs (Or.inr (Or.inr (Or.inr h)))
  rw [hu.textureCursor] at hfits ⊢
  refine uploaded_transfer (same_uploadImage _ _ _ _ _ _ _) (by decide) <|
    Triple.bind _ ((same_prepareCsm1Clut _).triple v) fun _ =>
    Triple.bind _ triple_get fun _ => Triple.of_and fun _ =>
    uploaded_transfer (same_uploadImage _ _ _ _ _ _ _) (by decide) <|
    uploaded_transfer same_flushTextureCache (by decide) <| uploaded_done ?_
  obtain ⟨n, hn, himage, hle, harea⟩ := exists_pages hsize psmt8 128 64 8192 (j := 7) (k := 6)
    rfl rfl rfl rfl (by decide) (by decide)
  refine placed_indexed hv hn hle ?_ rfl harea rfl ?_ hfits ?_ ?_ ?_ ?_
  · exact himage
  · decide
  · simp [clutRanges]
  · decide
  · rfl
  · rfl

theorem uploadIndexed4_uploaded (hv : v.textureCursor.toNat ≤ 4194304)
    (texture : Option Texture) (packedIndices palette : Source) (width height : UInt16) :
    Triple (Same v) (uploadIndexed4 dma texture packedIndices palette width height)
      (Uploaded v) := by
  refine Triple.ite (fun _ => uploaded_error (by decide)) fun hargs =>
    Triple.ite (fun _ => uploaded_error (by decide)) fun _ =>
    Triple.ite (fun _ => uploaded_error (by decide)) fun _ =>
    Triple.bind _ triple_get fun u => Triple.of_and fun hu =>
    Triple.ite (fun _ => uploaded_error (by decide)) fun hfits => ?_
  have hsize : ¬badSize width height := fun h => hargs (Or.inr (Or.inr (Or.inr h)))
  rw [hu.textureCursor] at hfits ⊢
  refine uploaded_transfer (same_uploadImage _ _ _ _ _ _ _) (by decide) <|
    uploaded_transfer (same_uploadImage _ _ _ _ _ _ _) (by decide) <|
    uploaded_transfer same_flushTextureCache (by decide) <| uploaded_done ?_
  obtain ⟨n, hn, himage, hle, harea⟩ := exists_pages hsize psmt4 128 128 16384 (j := 7) (k := 7)
    rfl rfl rfl rfl (by decide) (by decide)
  have hbytes : ((alignUp width.toUInt32 128 * alignUp height.toUInt32 128) >>> 1).toNat
      = n * 8192 := by
    rw [UInt32.toNat_shiftRight, harea, Nat.shiftRight_eq_div_pow,
      show 2 ^ ((1 : UInt32).toNat % 32) = 2 from rfl]
    omega
  refine placed_indexed hv hn (Nat.le_trans (Nat.mul_le_mul_left n (by decide)) hle) ?_ rfl hbytes
    rfl ?_ hfits ?_ ?_ ?_ ?_
  · exact himage
  · decide
  · rw [clutRanges, if_neg (show psmt4 ≠ psmt8 by decide), if_pos rfl]
    rfl
  · decide
  · rfl
  · rfl

/-! ## Runs -/

/-- A call that moves the texture cursor, with its arguments. -/
inductive VramCall where
  | uploadRgba32 (texture : Option Texture) (pixels : Source) (width height : UInt16)
  | uploadIndexed8 (texture : Option Texture) (indices palette : Source) (width height : UInt16)
  | uploadIndexed4 (texture : Option Texture) (packedIndices palette : Source)
      (width height : UInt16)
  | reset

/-- The call's result, with the texture record as it leaves it. A reset has no result and
reads as 0 without a texture. -/
def VramCall.exec (dma : ℕ → Bool) : VramCall → StateM State (ℤ × Option Texture)
  | .uploadRgba32 texture pixels width height => Video.uploadRgba32 dma texture pixels width height
  | .uploadIndexed8 texture indices palette width height =>
    Video.uploadIndexed8 dma texture indices palette width height
  | .uploadIndexed4 texture packedIndices palette width height =>
    Video.uploadIndexed4 dma texture packedIndices palette width height
  | .reset => do
    resetTextureAllocator
    pure (0, none)

/-- The driver, with the textures uploaded since the last reset. -/
structure Vram where
  video : State
  live : List Texture

/-- One call. -/
def Vram.call (dma : ℕ → Bool) (s : Vram) (c : VramCall) : Vram :=
  let r := (c.exec dma s.video).1
  let video := (c.exec dma s.video).2
  match c with
  | .reset => ⟨video, []⟩
  | _ => ⟨video, if r.1 = 0 then s.live ++ r.2.toList else s.live⟩

/-- The calls of a run, one after another. -/
def Vram.calls (dma : ℕ → Bool) (s : Vram) (cs : List VramCall) : Vram :=
  cs.foldl (Vram.call dma) s

variable (dma) in
/-- What a call does from every state in which the cursor is in the GS memory. -/
theorem VramCall.uploaded (c : VramCall) {v : State} (hv : v.textureCursor.toNat ≤ 4194304) :
    c = .reset ∨ Uploaded v (c.exec dma v).1 (c.exec dma v).2 := by
  cases c with
  | uploadRgba32 texture pixels width height =>
    exact Or.inr (uploadRgba32_uploaded hv texture pixels width height v (refl_of Same v))
  | uploadIndexed8 texture indices palette width height =>
    exact Or.inr (uploadIndexed8_uploaded hv texture indices palette width height v
      (refl_of Same v))
  | uploadIndexed4 texture packedIndices palette width height =>
    exact Or.inr (uploadIndexed4_uploaded hv texture packedIndices palette width height v
      (refl_of Same v))
  | reset => exact Or.inl rfl

/-- What holds after every run of calls from `v₀`. -/
structure VramInv (v₀ : State) (s : Vram) : Prop where
  active : s.video.active = { v₀.active with textureCursor := s.video.textureCursor }
  packed : Packed v₀.textureStart.toNat s.video.textureCursor.toNat (s.live.flatMap ranges)
  limit : s.video.textureCursor.toNat ≤ 4194304
  aligned : ∀ t ∈ s.live, 8192 ∣ (imageRange t).start ∧ ∀ r ∈ clutRanges t, 256 ∣ r.start
  addresses : ∀ t ∈ s.live, t.vramAddress.toNat < 2 ^ 14 ∧ t.clutAddress.toNat < 2 ^ 14

section Run

variable {v₀ : State} {s : Vram}

theorem VramInv.textureStart (h : VramInv v₀ s) : s.video.textureStart = v₀.textureStart :=
  congrArg Active.textureStart h.active

/-- A reset begins again. -/
theorem VramInv.reset (h : VramInv v₀ s) (hlimit : v₀.textureStart.toNat ≤ 4194304) :
    VramInv v₀ (s.call dma .reset) where
  active := congrArg (fun a : Active => { a with textureCursor := s.video.textureStart }) h.active
  packed := packed_nil (Nat.le_of_eq (congrArg UInt32.toNat h.textureStart.symm))
  limit := by
    change s.video.textureStart.toNat ≤ 4194304
    rwa [h.textureStart]
  aligned := by simp [Vram.call]
  addresses := by simp [Vram.call]

/-- An upload adds its texture, or changes nothing. -/
theorem VramInv.uploaded (h : VramInv v₀ s) {r : ℤ × Option Texture} {v' : State}
    (hr : Uploaded s.video r v') :
    VramInv v₀ ⟨v', if r.1 = 0 then s.live ++ r.2.toList else s.live⟩ := by
  by_cases hok : r.1 = 0
  · obtain ⟨t, ht, hplaced, hactive⟩ := hr.2 hok
    rw [if_pos hok, ht, Option.toList_some]
    refine ⟨?_, ?_, hplaced.limit, ?_, ?_⟩
    · rw [hactive, h.active]
    · rw [List.flatMap_append, List.flatMap_singleton]
      exact h.packed.append hplaced.packed
    · intro t' ht'
      rcases List.mem_append.mp ht' with hold | hnew
      · exact h.aligned t' hold
      · obtain rfl := List.mem_singleton.mp hnew
        exact ⟨hplaced.page, hplaced.block⟩
    · intro t' ht'
      rcases List.mem_append.mp ht' with hold | hnew
      · exact h.addresses t' hold
      · obtain rfl := List.mem_singleton.mp hnew
        exact ⟨hplaced.vram, hplaced.clut⟩
  · have hsame := hr.1 hok
    rw [if_neg hok]
    exact ⟨by rw [hsame, h.active, hsame.textureCursor], hsame.textureCursor.symm ▸ h.packed,
      hsame.textureCursor.symm ▸ h.limit, h.aligned, h.addresses⟩

theorem VramInv.call (h : VramInv v₀ s) (hlimit : v₀.textureStart.toNat ≤ 4194304)
    (c : VramCall) : VramInv v₀ (s.call dma c) := by
  rcases c.uploaded dma h.limit with rfl | hr
  · exact h.reset hlimit
  · cases c with
    | uploadRgba32 => exact h.uploaded hr
    | uploadIndexed8 => exact h.uploaded hr
    | uploadIndexed4 => exact h.uploaded hr
    | reset => exact h.reset hlimit

theorem VramInv.calls (h : VramInv v₀ s) (hlimit : v₀.textureStart.toNat ≤ 4194304)
    (cs : List VramCall) : VramInv v₀ (s.calls dma cs) := by
  induction cs generalizing s with
  | nil => exact h
  | cons c cs ih => exact ih (h.call hlimit c)

end Run

/-- A framebuffer of an accepted size is small enough to be doubled. -/
theorem framebufferSize_lt {width height defaultHeight pageHeight : UInt16}
    (h : sizeValid width height defaultHeight = true) (hdefault : defaultHeight.toNat ≤ 512)
    (hpage : 32 ≤ pageHeight.toNat) (hpage' : pageHeight.toNat ≤ 64) :
    (framebufferSize width height pageHeight).toNat < 2 ^ 31 := by
  obtain ⟨⟨-, hwidth⟩, -, hheight⟩ := sizeValid_bounds h
  have hcolumns : ((width.toUInt32 + 63) / 64).toNat ≤ 16 := by
    rw [UInt32.toNat_div, UInt32.toNat_add, UInt16.toNat_toUInt32]
    change (width.toNat + 63) % 2 ^ 32 / 64 ≤ 16
    omega
  have hrows : ((height.toUInt32 + pageHeight.toUInt32 - 1) / pageHeight.toUInt32).toNat ≤ 18 := by
    have hsum : (height.toUInt32 + pageHeight.toUInt32 - 1).toNat
        = height.toNat + pageHeight.toNat - 1 := by
      rw [UInt32.toNat_sub, UInt32.toNat_add, UInt16.toNat_toUInt32, UInt16.toNat_toUInt32]
      change (2 ^ 32 - 1 + (height.toNat + pageHeight.toNat) % 2 ^ 32) % 2 ^ 32 = _
      omega
    rw [UInt32.toNat_div, UInt16.toNat_toUInt32, hsum]
    exact Nat.div_le_of_le_mul (by omega)
  have hpages := Nat.mul_le_mul hcolumns hrows
  rw [framebufferSize, UInt32.toNat_mul, UInt32.toNat_mul]
  change _ % 2 ^ 32 * 8192 % 2 ^ 32 < 2 ^ 31
  omega

/-- Two framebuffers fit the GS memory. -/
theorem framebufferBytes_le {config : Option Config} {romver : ℤ × UInt8} {m : Mode}
    (hmode : acceptedMode config romver = some m) (hfits : m.Fits) :
    (m.framebufferBytes * 2).toNat = 2 * m.framebufferBytes.toNat ∧
      (m.framebufferBytes * 2).toNat ≤ 4194304 := by
  have hpage : 32 ≤ m.pageHeight.toNat ∧ m.pageHeight.toNat ≤ 64 := by
    rcases format_mem hmode with ⟨-, hp⟩ | ⟨-, hp⟩ <;> rw [hp] <;> decide
  have hlt : m.framebufferBytes.toNat < 2 ^ 31 :=
    framebufferSize_lt hfits.1 (picture_height_le _) hpage.1 hpage.2
  have hdouble : (m.framebufferBytes * 2).toNat = 2 * m.framebufferBytes.toNat := by
    rw [UInt32.toNat_mul]
    change m.framebufferBytes.toNat * 2 % 2 ^ 32 = _
    omega
  have hlimit : (m.framebufferBytes * 2).toNat ≤ 4194304 := by
    have hfit := (not_or.mp hfits.2.2).2
    rw [gt_iff_lt, UInt32.not_lt, UInt32.le_iff_toNat_le] at hfit
    exact hfit
  exact ⟨hdouble, hlimit⟩

variable (dma) in
/-- A successful `ef2_video_init` puts the cursor behind two framebuffers. -/
theorem vramInv_init {config : Option Config} {romver : ℤ × UInt8} {dmaInit : Bool} {v : State}
    (h : (init dma config romver dmaInit v).1 = 0) :
    let v₀ := (init dma config romver dmaInit v).2
    v₀.textureStart.toNat = 2 * v₀.layout.bytesPerBuffer.toNat
    ∧ v₀.textureStart.toNat ≤ 4194304 ∧ VramInv v₀ ⟨v₀, []⟩ := by
  obtain ⟨m, hmode, hfits, hactive⟩ := init_ok dma h
  have hstart : (init dma config romver dmaInit v).2.textureStart = m.framebufferBytes * 2 :=
    congrArg Active.textureStart hactive
  have hcursor : (init dma config romver dmaInit v).2.textureCursor = m.framebufferBytes * 2 :=
    congrArg Active.textureCursor hactive
  have hbytes : (init dma config romver dmaInit v).2.layout.bytesPerBuffer = m.framebufferBytes :=
    congrArg (fun a : Active => a.layout.bytesPerBuffer) hactive
  obtain ⟨hdouble, hlimit⟩ := framebufferBytes_le hmode hfits
  refine ⟨by rw [hstart, hbytes, hdouble], by rwa [hstart], rfl, ?_, by rwa [hcursor], by simp,
    by simp⟩
  exact packed_nil (Nat.le_of_eq (by rw [hstart, hcursor]))

/-- After a successful initialization and any run of calls, everything taken since the last
reset lies apart, between the framebuffers and the end of the GS memory, aligned and at
addresses that the registers hold; a further call takes the first page from the cursor on, or
fails and changes nothing. -/
theorem textures_packed (dma : ℕ → Bool) (config : Option Config) (romver : ℤ × UInt8)
    (dmaInit : Bool) (v : State) (h : (init dma config romver dmaInit v).1 = 0)
    (cs : List VramCall) :
    let v₀ := (init dma config romver dmaInit v).2
    let s := Vram.calls dma ⟨v₀, []⟩ cs
    (s.live.flatMap ranges).Pairwise Range.Disjoint
    ∧ (∀ r ∈ s.live.flatMap ranges, 2 * v₀.layout.bytesPerBuffer.toNat ≤ r.start
      ∧ r.stop ≤ 4194304)
    ∧ (∀ t ∈ s.live, 8192 ∣ (imageRange t).start ∧ (∀ r ∈ clutRanges t, 256 ∣ r.start)
      ∧ t.vramAddress.toNat < 2 ^ 14 ∧ t.clutAddress.toNat < 2 ^ 14)
    ∧ ∀ c : VramCall, let r := c.exec dma s.video
      (r.1.1 ≠ 0 → r.2.textureCursor = s.video.textureCursor
        ∧ getTextureVramFree r.2 = getTextureVramFree s.video)
      ∧ ∀ t, r.1 = (0, some t) →
        256 * t.vramAddress.toNat = (s.video.textureCursor.toNat + 8191) / 8192 * 8192 := by
  intro v₀ s
  obtain ⟨hstart, hlimit, hinit⟩ := vramInv_init dma h
  have hinv : VramInv v₀ s := hinit.calls hlimit cs
  refine ⟨hinv.packed.disjoint, fun r hr => ?_, fun t ht => ?_, fun c => ?_⟩
  · obtain ⟨hlo, hhi⟩ := hinv.packed.within r hr
    exact ⟨hstart ▸ hlo, Nat.le_trans hhi hinv.limit⟩
  · obtain ⟨hpage, hblock⟩ := hinv.aligned t ht
    exact ⟨hpage, hblock, hinv.addresses t ht⟩
  · rcases c.uploaded dma hinv.limit with rfl | ⟨herror, hok⟩
    · refine ⟨fun hr => absurd rfl hr, fun t ht => ?_⟩
      have hnone : none = some t := congrArg Prod.snd ht
      exact absurd hnone (by simp)
    refine ⟨fun hr => ?_, fun t ht => ?_⟩
    · have hcursor := (herror hr).textureCursor
      exact ⟨hcursor, by rw [getTextureVramFree, getTextureVramFree, hcursor]⟩
    · obtain ⟨t', ht', hplaced, -⟩ := hok (congrArg Prod.fst ht)
      obtain rfl := Option.some.inj (ht'.symm.trans (congrArg Prod.snd ht))
      exact hplaced.start

/-- A texture record before its first upload. -/
def blankTexture : Texture :=
  ⟨0, 0, 0, 0, 0, 0, 0, 0, 0, false, false⟩

/-- A source of zeros. -/
def blankSource : Source :=
  ⟨0x100000, fun _ => 0⟩

/-- A large image, one of 256 colours and one that no longer fits. -/
def uploadCalls : List VramCall :=
  [.uploadRgba32 (some blankTexture) blankSource 512 448,
    .uploadIndexed8 (some blankTexture) blankSource blankSource 100 64,
    .uploadRgba32 (some blankTexture) blankSource 1024 1024]

theorem textures_packed_uploadCalls :
    let v₀ := (init (fun _ => true) (some standardConfig) (0, 0) true boot).2
    let s := Vram.calls (fun _ => true) ⟨v₀, []⟩ uploadCalls
    (init (fun _ => true) (some standardConfig) (0, 0) true boot).1 = 0 ∧ s.live.length = 2
    ∧ (s.live.flatMap ranges).Pairwise Range.Disjoint := by
  have hinit : (init (fun _ => true) (some standardConfig) (0, 0) true boot).1 = 0 := by
    decide +kernel
  exact ⟨hinit, by decide +kernel,
    (textures_packed (fun _ => true) (some standardConfig) (0, 0) true boot hinit uploadCalls).1⟩

end EF2SDK.Video
