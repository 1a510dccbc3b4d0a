import EF2SDK.VideoTexture
import Mathlib.Data.Nat.Log

/-!
# What the registers hold of a texture

The record of an upload has a size of at most 1024 texels and addresses, a format and a buffer
width that fit their fields of `TEX0` (`Loaded.shaped`). The corners of the part that is
drawn are given to `UV` in sixteenths of a texel, in 14 bits : 1023 texels fit and 1024 do
not. So both drawing functions set every register to what its packing function is given,
unless the part reaches the last column or the last row of a texture of the full size
(`texels_exact_iff`).
-/

set_option autoImplicit false

namespace EF2SDK.Video

open Gif (Qword)
open Gs
open BitFields (fields)

variable {dma : ℕ → Bool} {v : State} {t : Texture} {x y width height : Int32}

/-! ## The allocator of a running driver -/

/-- No call but `ef2_video_init` changes the geometry, or it moves the texture cursor. -/
theorem Call.Ordinary.cases {c : Call} (h : c.Ordinary) (v : State) :
    SameGeometry v (c.exec dma v) ∨ ∃ u : VramCall, c.exec dma v = (u.exec dma v).2 := by
  cases c with
  | init config romver dmaInit => exact absurd rfl (h config romver dmaInit)
  | setBackground r g b => exact Or.inl rfl
  | setDoubleBuffering enabled => exact Or.inl (sameGeometry_setDoubleBuffering enabled v)
  | waitVsync csr timeout => exact Or.inl (same_waitVsync csr timeout v).sameGeometry
  | present csr => exact Or.inl (sameGeometry_present csr v)
  | drawRect x y width height r g b =>
    exact Or.inl (same_drawRect x y width height r g b v).sameGeometry
  | drawLine x0 y0 x1 y1 r g b => exact Or.inl (same_drawLine x0 y0 x1 y1 r g b v).sameGeometry
  | clear r g b => exact Or.inl (same_clear r g b v).sameGeometry
  | resetTextureAllocator => exact Or.inr ⟨.reset, rfl⟩
  | uploadRgba32 texture pixels width height =>
    exact Or.inr ⟨.uploadRgba32 texture pixels width height, rfl⟩
  | uploadIndexed8 texture indices palette width height =>
    exact Or.inr ⟨.uploadIndexed8 texture indices palette width height, rfl⟩
  | uploadIndexed4 texture packedIndices palette width height =>
    exact Or.inr ⟨.uploadIndexed4 texture packedIndices palette width height, rfl⟩
  | drawTextureRegion =>
    exact Or.inl (same_drawTextureRegion _ _ _ _ _ _ _ _ _ _ _ _ _ _ v).sameGeometry
  | drawTexture => exact Or.inl (same_drawTexture _ _ _ _ _ v).sameGeometry

/-- The texture allocator is in the GS memory. -/
structure Allocates (v : State) : Prop where
  start : v.textureStart.toNat ≤ 4194304
  cursor : v.textureCursor.toNat ≤ 4194304

theorem Allocates.of_geometry {v' : State} (hv : Allocates v) (h : SameGeometry v v') :
    Allocates v' := by
  have hstart : v'.textureStart = v.textureStart := congrArg Active.textureStart h
  have hcursor : v'.textureCursor = v.textureCursor := congrArg Active.textureCursor h
  exact ⟨hstart ▸ hv.start, hcursor ▸ hv.cursor⟩

theorem Allocates.exec (hv : Allocates v) {c : Call} (h : c.Ordinary) :
    Allocates (c.exec dma v) := by
  obtain hgeometry | ⟨u, hu⟩ := h.cases v
  · exact hv.of_geometry hgeometry
  · rw [hu]
    obtain rfl | ⟨herror, hok⟩ := u.uploaded dma hv.cursor
    · exact ⟨hv.start, hv.start⟩
    · by_cases hresult : (u.exec dma v).1.1 = 0
      · obtain ⟨t, -, hplaced, hactive⟩ := hok hresult
        have hstart : (u.exec dma v).2.textureStart = v.textureStart :=
          congrArg Active.textureStart hactive
        exact ⟨hstart ▸ hv.start, hplaced.limit⟩
      · exact hv.of_geometry (herror hresult).sameGeometry

theorem Allocates.calls {calls : List Call} (hv : Allocates v) (h : ∀ c ∈ calls, c.Ordinary) :
    Allocates (calls.foldl (Call.exec dma) v) := by
  induction calls generalizing v with
  | nil => exact hv
  | cons c calls ih =>
    obtain ⟨hc, hcalls⟩ := List.forall_mem_cons.1 h
    exact ih (hv.exec hc) hcalls

theorem Running.allocates (h : Running dma v) : Allocates v := by
  obtain ⟨config, romver, dmaInit, u, calls, hinit, hcalls, rfl⟩ := h
  obtain ⟨-, hstart, hinv⟩ := vramInv_init dma hinit
  exact Allocates.calls ⟨hstart, hinv.limit⟩ hcalls

/-! ## The records of uploads -/

/-- The loop doubles the power until it reaches the value. -/
theorem log2CeilLoop_toNat {value : UInt16} {rounds : ℕ} {power : UInt32} {exponent : UInt8}
    (hpower : power.toNat = 2 ^ exponent.toNat) (hrounds : exponent.toNat + rounds = 15)
    (hlo : exponent.toNat ≤ Nat.clog 2 value.toNat) (hhi : Nat.clog 2 value.toNat ≤ 15) :
    (log2CeilLoop value rounds power exponent).toNat = Nat.clog 2 value.toNat := by
  induction rounds generalizing power exponent with
  | zero =>
    change exponent.toNat = _
    omega
  | succ rounds ih =>
    rw [log2CeilLoop]
    split
    case isTrue hlt =>
      rw [UInt32.lt_iff_toNat_lt, UInt16.toNat_toUInt32, hpower,
        ← Nat.lt_clog_iff_pow_lt (by decide)] at hlt
      have hnext : (exponent + 1).toNat = exponent.toNat + 1 := by
        rw [UInt8.toNat_add]
        change (exponent.toNat + 1) % 2 ^ 8 = _
        omega
      have hbound : 2 ^ (exponent.toNat + 1) < 2 ^ 32 :=
        Nat.pow_lt_pow_right (by decide) (by omega)
      refine ih ?_ (by omega) (by omega)
      rw [UInt32.toNat_shiftLeft, Nat.shiftLeft_eq, hpower, hnext]
      exact Nat.mod_eq_of_lt hbound
    case isFalse hge =>
      rw [UInt32.lt_iff_toNat_lt, UInt16.toNat_toUInt32, hpower,
        ← Nat.lt_clog_iff_pow_lt (by decide)] at hge
      omega

theorem clog_le {value : UInt16} (h : value.toNat ≤ 1024) : Nat.clog 2 value.toNat ≤ 10 :=
  Nat.clog_le_of_le_pow h

theorem log2Ceil_toNat {value : UInt16} (h : value.toNat ≤ 1024) :
    (log2Ceil value).toNat = Nat.clog 2 value.toNat :=
  log2CeilLoop_toNat rfl rfl (Nat.zero_le _) (Nat.le_trans (clog_le h) (by decide))

/-- The record of an upload. -/
structure Shaped (t : Texture) : Prop where
  width : t.width.toNat ≤ 1024
  height : t.height.toNat ≤ 1024
  bufferWidth : t.bufferWidth.toNat ≤ 16
  psm : t.psm = psmct32 ∨ t.psm = psmt8 ∨ t.psm = psmt4
  clutPsm : t.clutPsm = psmct32
  widthLog2 : t.widthLog2 = log2Ceil t.width
  heightLog2 : t.heightLog2 = log2Ceil t.height
  direct : t.indexed = false → t.clutAddress = 0
  valid : t.valid = true

/-- Both drawing functions take the record. -/
theorem Shaped.drawable (h : Shaped t) : drawable (some t) = some t := by
  rw [Video.drawable, Option.filter_some, if_pos]
  simpa [h.valid, or_assoc] using h.psm

/-- A row of the padded image has at most 16 units of 64 texels. -/
theorem bufferWidth_le {size : UInt16} (h0 : 0 < size.toNat) (h : size.toNat ≤ 1024)
    (page : UInt32) {k : ℕ} (hk : page.toNat = 2 ^ k) (hpage : page.toNat ∣ 1024) :
    (alignUp size.toUInt32 page / 64).toUInt8.toNat ≤ 16 := by
  have hrow := (pages_le h0 h hpage).2
  rw [UInt32.toNat_toUInt8, UInt32.toNat_div,
    paddedSize_toNat h page hk (Nat.le_of_dvd (by decide) hpage)]
  change _ / 64 % 2 ^ 8 ≤ 16
  omega

/-- What a call that returns 0 leaves in the record. -/
def Shapes (r : ℤ × Option Texture) (_ : State) : Prop :=
  r.1 = 0 → ∃ t, r.2 = some t ∧ Shaped t

theorem shapes_error {P : State → Prop} {error : ℤ} {texture : Option Texture} (h : error ≠ 0) :
    Triple P (pure (error, texture)) Shapes :=
  Triple.pure fun _ _ h0 => absurd h0 h

theorem uploadRgba32_shapes (texture : Option Texture) (pixels : Source) (width height : UInt16) :
    Triple (fun _ => True) (uploadRgba32 dma texture pixels width height) Shapes := by
  refine Triple.ite (fun _ => shapes_error (by decide)) fun hargs =>
    Triple.ite (fun _ => shapes_error (by decide)) fun _ =>
    Triple.ite (fun _ => shapes_error (by decide)) fun _ => Triple.last fun _ =>
    Triple.ite (fun _ => shapes_error (by decide)) fun _ => Triple.last fun _ =>
    Triple.ite (fun _ => shapes_error (by decide)) fun _ => Triple.last fun _ =>
    Triple.ite (fun _ => shapes_error (by decide)) fun _ => Triple.last fun _ =>
    Triple.pure fun _ _ _ => ⟨_, rfl, ?_⟩
  obtain ⟨hpos, hwidth, -, hheight⟩ := toNat_le_of_not_badSize fun h => hargs (Or.inr (Or.inr h))
  exact ⟨hwidth, hheight, bufferWidth_le hpos hwidth texturePageWidth (k := 6) rfl (by decide),
    Or.inl rfl, rfl, rfl, rfl, fun _ => rfl, rfl⟩

theorem uploadIndexed8_shapes (texture : Option Texture) (indices palette : Source)
    (width height : UInt16) :
    Triple (fun _ => True) (uploadIndexed8 dma texture indices palette width height) Shapes := by
  refine Triple.ite (fun _ => shapes_error (by decide)) fun hargs =>
    Triple.ite (fun _ => shapes_error (by decide)) fun _ =>
    Triple.ite (fun _ => shapes_error (by decide)) fun _ => Triple.last fun _ =>
    Triple.ite (fun _ => shapes_error (by decide)) fun _ => Triple.last fun _ =>
    Triple.ite (fun _ => shapes_error (by decide)) fun _ => Triple.last fun _ =>
    Triple.last fun _ => Triple.last fun _ =>
    Triple.ite (fun _ => shapes_error (by decide)) fun _ => Triple.last fun _ =>
    Triple.ite (fun _ => shapes_error (by decide)) fun _ => Triple.last fun _ =>
    Triple.pure fun _ _ _ => ⟨_, rfl, ?_⟩
  obtain ⟨hpos, hwidth, -, hheight⟩ :=
    toNat_le_of_not_badSize fun h => hargs (Or.inr (Or.inr (Or.inr h)))
  exact ⟨hwidth, hheight, bufferWidth_le hpos hwidth 128 (k := 7) rfl (by decide),
    Or.inr (Or.inl rfl), rfl, rfl, rfl, fun h => absurd h (show true ≠ false by decide), rfl⟩

theorem uploadIndexed4_shapes (texture : Option Texture) (packedIndices palette : Source)
    (width height : UInt16) :
    Triple (fun _ => True) (uploadIndexed4 dma texture packedIndices palette width height)
      Shapes := by
  refine Triple.ite (fun _ => shapes_error (by decide)) fun hargs =>
    Triple.ite (fun _ => shapes_error (by decide)) fun _ =>
    Triple.ite (fun _ => shapes_error (by decide)) fun _ => Triple.last fun _ =>
    Triple.ite (fun _ => shapes_error (by decide)) fun _ => Triple.last fun _ =>
    Triple.ite (fun _ => shapes_error (by decide)) fun _ => Triple.last fun _ =>
    Triple.ite (fun _ => shapes_error (by decide)) fun _ => Triple.last fun _ =>
    Triple.ite (fun _ => shapes_error (by decide)) fun _ => Triple.last fun _ =>
    Triple.pure fun _ _ _ => ⟨_, rfl, ?_⟩
  obtain ⟨hpos, hwidth, -, hheight⟩ :=
    toNat_le_of_not_badSize fun h => hargs (Or.inr (Or.inr (Or.inr h)))
  exact ⟨hwidth, hheight, bufferWidth_le hpos hwidth 128 (k := 7) rfl (by decide),
    Or.inr (Or.inr rfl), rfl, rfl, rfl, fun h => absurd h (show true ≠ false by decide), rfl⟩

/-- The texture has been uploaded to a running driver. -/
def Loaded (dma : ℕ → Bool) (t : Texture) : Prop :=
  ∃ (u : State) (c : VramCall), Running dma u ∧ (c.exec dma u).1 = (0, some t)

/-- A reset leaves no texture record. -/
theorem ne_reset_of_result {c : VramCall} {u : State} (h : (c.exec dma u).1 = (0, some t)) :
    c ≠ .reset := by
  rintro rfl
  simp [VramCall.exec, bind_apply, pure_apply] at h

theorem Loaded.shaped (h : Loaded dma t) : Shaped t := by
  obtain ⟨u, c, -, hresult⟩ := h
  have hshapes : c = .reset ∨ Shapes (c.exec dma u).1 (c.exec dma u).2 := by
    cases c with
    | uploadRgba32 => exact Or.inr (uploadRgba32_shapes _ _ _ _ u trivial)
    | uploadIndexed8 => exact Or.inr (uploadIndexed8_shapes _ _ _ _ _ u trivial)
    | uploadIndexed4 => exact Or.inr (uploadIndexed4_shapes _ _ _ _ _ u trivial)
    | reset => exact Or.inl rfl
  obtain hreset | hshaped := hshapes
  · exact absurd hreset (ne_reset_of_result hresult)
  · obtain ⟨t', ht', hshaped⟩ := hshaped (congrArg Prod.fst hresult)
    obtain rfl := Option.some.inj (ht'.symm.trans (congrArg Prod.snd hresult))
    exact hshaped

theorem Loaded.placed (h : Loaded dma t) : ∃ c c', Placed c c' t := by
  obtain ⟨u, c, hu, hresult⟩ := h
  obtain hreset | ⟨-, hok⟩ := c.uploaded dma hu.allocates.cursor
  · exact absurd hreset (ne_reset_of_result hresult)
  · obtain ⟨t', ht', hplaced, -⟩ := hok (congrArg Prod.fst hresult)
    obtain rfl := Option.some.inj (ht'.symm.trans (congrArg Prod.snd hresult))
    exact ⟨_, _, hplaced⟩

/-! ## The registers -/

/-- The fields of `TEX0` for a texture : its address, the width of its buffer, its format, the
base 2 logarithms of its sizes, rounded up, and its CLUT. -/
def tex0Fields (t : Texture) (tfx : ℕ) : List ℕ :=
  [t.vramAddress.toNat, t.bufferWidth.toNat, t.psm.toNat, Nat.clog 2 t.width.toNat,
    Nat.clog 2 t.height.toNat, 1, tfx, t.clutAddress.toNat, t.clutPsm.toNat, 0, 0,
    if t.indexed then 1 else 0]

theorem tex0_fields (h : Loaded dma t) {tfx : UInt8} (htfx : tfx.toNat < 2 ^ 2) :
    fields tex0Layout (tex0 t tfx) = tex0Fields t tfx.toNat := by
  obtain ⟨_, _, hplaced⟩ := h.placed
  have hshaped := h.shaped
  have hpsm : t.psm.toNat < 2 ^ 6 := by
    obtain hpsm | hpsm | hpsm := hshaped.psm <;> rw [hpsm] <;> decide
  have hwidth := clog_le hshaped.width
  have hheight := clog_le hshaped.height
  have hbuffer := hshaped.bufferWidth
  have hclutPsm : t.clutPsm.toNat = 0 := congrArg UInt8.toNat hshaped.clutPsm
  have hshared (cbp : UInt16) (hcbp : cbp.toNat < 2 ^ 14) (cpsm cld : UInt8)
      (hcpsm : cpsm.toNat = 0) (hcld : cld.toNat < 2) :
      fields tex0Layout (packTex0Clut t.vramAddress t.bufferWidth t.psm t.widthLog2 t.heightLog2 1
          tfx cbp cpsm 0 0 cld) =
        [t.vramAddress.toNat, t.bufferWidth.toNat, t.psm.toNat, Nat.clog 2 t.width.toNat,
          Nat.clog 2 t.height.toNat, 1, tfx.toNat, cbp.toNat, 0, 0, 0, cld.toNat] := by
    rw [packTex0Clut_fields, hshaped.widthLog2, hshaped.heightLog2, log2Ceil_toNat hshaped.width,
      log2Ceil_toNat hshaped.height, Nat.mod_eq_of_lt hplaced.vram, Nat.mod_eq_of_lt hpsm,
      Nat.mod_eq_of_lt htfx, Nat.mod_eq_of_lt hcbp, hcpsm,
      Nat.mod_eq_of_lt (show t.bufferWidth.toNat < 2 ^ 6 by omega),
      Nat.mod_eq_of_lt (show Nat.clog 2 t.width.toNat < 2 ^ 4 by omega),
      Nat.mod_eq_of_lt (show Nat.clog 2 t.height.toNat < 2 ^ 4 by omega),
      Nat.mod_eq_of_lt (show cld.toNat < 2 ^ 3 by omega)]
    rfl
  rw [tex0, tex0Fields, hclutPsm]
  split
  case isTrue hindexed =>
    rw [hshared _ hplaced.clut _ _ hclutPsm (by decide)]
    rfl
  case isFalse hdirect =>
    have hclut : t.clutAddress.toNat = 0 :=
      congrArg UInt16.toNat (hshaped.direct (Bool.eq_false_of_not_eq_true hdirect))
    rw [packTex0_eq, hshared 0 (by decide) 0 0 rfl (by decide), hclut]
    rfl

/-- A corner in sixteenths of a texel, in the 14 bits of its field. -/
theorem corner_toNat {corner : UInt32} (h : corner.toNat ≤ 1024) :
    (corner <<< 4).toUInt16.toNat % 2 ^ 14 =
      if corner.toNat < 1024 then 16 * corner.toNat else 0 := by
  have hshift : (corner <<< 4).toUInt16.toNat = 16 * corner.toNat := by
    rw [UInt32.toNat_toUInt16, UInt32.toNat_shiftLeft, Nat.shiftLeft_eq]
    change corner.toNat * 16 % 2 ^ 32 % 2 ^ 16 = _
    omega
  rw [hshift]
  split <;> omega

theorem packUv_corner {a b : UInt32} (ha : a.toNat ≤ 1024) (hb : b.toNat ≤ 1024) :
    fields uvLayout (packUv (a <<< 4).toUInt16 (b <<< 4).toUInt16) =
        [16 * a.toNat, 16 * b.toNat] ↔
      a.toNat < 1024 ∧ b.toNat < 1024 := by
  rw [packUv_fields, corner_toNat ha, corner_toNat hb, List.cons_eq_cons, List.cons_eq_cons]
  split_ifs <;> simp <;> omega

/-- What `ef2_video_draw_texture` gives the registers, for the whole texture. -/
def wholeWrites (v : State) (t : Texture) (x y width height : Int32) : List (UInt64 × List ℕ) :=
  texturedWrites v (tex0Fields t 1) [] [primSprite.toNat, 0, 1, 0, 0, 0, 1, 0, 0]
    [0x80, 0x80, 0x80, 0x80, 0x3F800000] [0, 0] [(subpixels x).toNat, (subpixels y).toNat, 0]
    [16 * t.width.toNat, 16 * t.height.toNat]
    [(subpixels (x + width)).toNat, (subpixels (y + height)).toNat, 0]

/-- What `ef2_video_draw_texture_region` gives the registers, for a part of the texture. -/
def regionWrites (v : State) (t : Texture) (sourceX sourceY sourceWidth sourceHeight : UInt16)
    (x y width height : Int32) (r g b a : UInt8) (blend : Bool) : List (UInt64 × List ℕ) :=
  texturedWrites v (tex0Fields t 0) [(addrAlpha, [0, 1, 0, 1, 0x80])]
    [primSprite.toNat, 0, 1, 0, if blend then 1 else 0, 0, 1, 0, 0]
    [r.toNat, g.toNat, b.toNat, a.toNat, 0x3F800000] [16 * sourceX.toNat, 16 * sourceY.toNat]
    [(subpixels x).toNat, (subpixels y).toNat, 0]
    [16 * (sourceX.toNat + sourceWidth.toNat), 16 * (sourceY.toNat + sourceHeight.toNat)]
    [(subpixels (x + width)).toNat, (subpixels (y + height)).toNat, 0]

theorem texturedWrites_inj {tex0 prim rgbaq uv₀ uv₀' xyz₀ uv₁ uv₁' xyz₁ : List ℕ}
    {alpha : List (UInt64 × List ℕ)} :
    some (texturedWrites v tex0 alpha prim rgbaq uv₀ xyz₀ uv₁ xyz₁) =
        some (texturedWrites v tex0 alpha prim rgbaq uv₀' xyz₀ uv₁' xyz₁) ↔
      uv₀ = uv₀' ∧ uv₁ = uv₁' := by
  simp [texturedWrites]

theorem texturePacket_exact_iff (hv : Running dma v) (ht : Loaded dma t) :
    registerWrites (texturePacket v t x y width height) =
        some (wholeWrites v t x y width height) ↔
      t.width.toNat < 1024 ∧ t.height.toNat < 1024 := by
  have hshaped := ht.shaped
  have hcorner := packUv_corner (a := t.width.toUInt32) (b := t.height.toUInt32)
    (t.width.toNat_toUInt32 ▸ hshaped.width) (t.height.toNat_toUInt32 ▸ hshaped.height)
  rw [texturePacket, registerWrites_adTag rfl (by decide), texturedSprite_writes hv.fitted,
    tex0_fields ht (by decide), packPrimEx_fields, packRgbaq_fields, packXyz_fields,
    packXyz_fields]
  refine texturedWrites_inj.trans ?_
  rw [UInt16.toNat_toUInt32, UInt16.toNat_toUInt32] at hcorner
  rw [hcorner]
  exact and_iff_right (packUv_fields 0 0)

theorem regionPacket_exact_iff (hv : Running dma v) (ht : Loaded dma t)
    {sourceX sourceY sourceWidth sourceHeight : UInt16}
    (hsource : SourceAccepted t sourceX sourceY sourceWidth sourceHeight) (r g b a : UInt8)
    (blend : Bool) :
    registerWrites (regionPacket v t sourceX sourceY sourceWidth sourceHeight x y width height r g
        b a blend) =
        some (regionWrites v t sourceX sourceY sourceWidth sourceHeight x y width height r g b a
          blend) ↔
      sourceX.toNat + sourceWidth.toNat < 1024 ∧ sourceY.toNat + sourceHeight.toNat < 1024 := by
  obtain ⟨⟨hcolumns, hright⟩, hrows, hbottom⟩ := hsource
  have hwidth := ht.shaped.width
  have hheight := ht.shaped.height
  have hsum {start size : UInt16} (h : start.toNat + size.toNat ≤ 1024) :
      (start.toUInt32 + size.toUInt32).toNat = start.toNat + size.toNat := by
    rw [UInt32.toNat_add, UInt16.toNat_toUInt32, UInt16.toNat_toUInt32]
    exact Nat.mod_eq_of_lt (by omega)
  have hx : sourceX.toUInt32.toNat = sourceX.toNat := sourceX.toNat_toUInt32
  have hy : sourceY.toUInt32.toNat = sourceY.toNat := sourceY.toNat_toUInt32
  have hfirst := packUv_corner (a := sourceX.toUInt32) (b := sourceY.toUInt32)
    (by omega) (by omega)
  have hlast := packUv_corner (a := sourceX.toUInt32 + sourceWidth.toUInt32)
    (b := sourceY.toUInt32 + sourceHeight.toUInt32) (by rw [hsum] <;> omega)
    (by rw [hsum] <;> omega)
  rw [hx, hy] at hfirst
  rw [hsum (by omega), hsum (by omega)] at hlast
  have hblend : (if blend then 1 else 0 : UInt8).toNat % 2 = if blend then 1 else 0 := by
    cases blend <;> rfl
  rw [regionPacket, registerWrites_adTag rfl (by decide), texturedSprite_writes hv.fitted,
    tex0_fields ht (by decide), packPrimEx_fields, packRgbaq_fields, packXyz_fields,
    packXyz_fields, hblend]
  refine texturedWrites_inj.trans ?_
  rw [hfirst, hlast]
  exact and_iff_right ⟨by omega, by omega⟩

section Accepted

variable {texture : Option Texture} {sourceX sourceY sourceWidth sourceHeight : UInt16}
  {r g b a : UInt8} {blend : Bool}

theorem drawTexture_accepted (ht : drawable texture = some t)
    (hresult : (drawTexture dma texture x y width height v).1 = 0) :
    Passes v x y width height := by
  by_contra hfails
  obtain ⟨e, he, hcall⟩ := drawTexture_rejected ht hfails
  rw [hcall] at hresult
  exact absurd hresult (Int.ne_of_lt he)

theorem drawTextureRegion_accepted (ht : drawable texture = some t)
    (hresult : (drawTextureRegion dma texture sourceX sourceY sourceWidth sourceHeight x y width
      height r g b a blend v).1 = 0) :
    SourceAccepted t sourceX sourceY sourceWidth sourceHeight ∧ Passes v x y width height := by
  by_contra hfails
  obtain ⟨e, he, hcall⟩ := drawTextureRegion_rejected ht hfails
  rw [hcall] at hresult
  exact absurd hresult (Int.ne_of_lt he)

end Accepted

/-- When a running driver draws an uploaded texture, or a part of it, every register holds what
its packing function was given exactly if the part ends before the 1024th column and the
1024th row. -/
theorem texels_exact_iff (hv : Running dma v) (ht : Loaded dma t) (x y width height : Int32) :
    ((drawTexture dma (some t) x y width height v).1 = 0 →
      (Emits v (drawTexture dma (some t) x y width height v).2
          (fun packet => registerWrites packet = some (wholeWrites v t x y width height)) ↔
        t.width.toNat < 1024 ∧ t.height.toNat < 1024)) ∧
    ∀ (sourceX sourceY sourceWidth sourceHeight : UInt16) (r g b a : UInt8) (blend : Bool),
      let call := drawTextureRegion dma (some t) sourceX sourceY sourceWidth sourceHeight x y width
        height r g b a blend v
      call.1 = 0 →
        (Emits v call.2 (fun packet => registerWrites packet = some (regionWrites v t sourceX
            sourceY sourceWidth sourceHeight x y width height r g b a blend)) ↔
          sourceX.toNat + sourceWidth.toNat < 1024 ∧
            sourceY.toNat + sourceHeight.toNat < 1024) := by
  have hdrawable := ht.shaped.drawable
  constructor
  · intro hresult
    rw [drawTexture_run hdrawable (drawTexture_accepted hdrawable hresult),
      emits_submitQwords_iff]
    exact texturePacket_exact_iff hv ht
  · intro sourceX sourceY sourceWidth sourceHeight r g b a blend call hresult
    obtain ⟨hsource, hpasses⟩ := drawTextureRegion_accepted hdrawable hresult
    have hrun : call = submitQwords dma (regionPacket v t sourceX sourceY sourceWidth sourceHeight x
        y width height r g b a blend) v :=
      drawTextureRegion_run hdrawable hsource hpasses
    rw [hrun, emits_submitQwords_iff]
    exact regionPacket_exact_iff hv ht hsource r g b a blend

/-- A texture of 1024 columns. -/
def largeTexture : Texture :=
  { smallTexture with width := 1024, bufferWidth := 16, widthLog2 := 10 }

theorem loaded_smallTexture : Loaded (fun _ => true) smallTexture :=
  ⟨standardVideo, .uploadRgba32 (some blankTexture) blankSource 64 32, running_standard,
    by decide +kernel⟩

theorem loaded_largeTexture : Loaded (fun _ => true) largeTexture :=
  ⟨standardVideo, .uploadRgba32 (some blankTexture) blankSource 1024 32, running_standard,
    by decide +kernel⟩

theorem texels_exact_iff_small :
    Emits standardVideo (drawTexture (fun _ => true) (some smallTexture) 10 20 64 32
        standardVideo).2 (fun packet => registerWrites packet =
          some (wholeWrites standardVideo smallTexture 10 20 64 32)) ↔
      smallTexture.width.toNat < 1024 ∧ smallTexture.height.toNat < 1024 :=
  (texels_exact_iff running_standard loaded_smallTexture 10 20 64 32).1 (by decide +kernel)

/-- For a texture of 1024 columns, the right corner of the whole is 0 in its register. -/
theorem large_loses_corner :
    Running (fun _ => true) standardVideo ∧ Loaded (fun _ => true) largeTexture ∧
      (drawTexture (fun _ => true) (some largeTexture) 0 0 64 32 standardVideo).1 = 0 ∧
      writesTo addrUv (texturePacket standardVideo largeTexture 0 0 64 32) =
        some [[0, 0], [0, 512]] ∧
      ¬Emits standardVideo (drawTexture (fun _ => true) (some largeTexture) 0 0 64 32
          standardVideo).2 (fun packet => registerWrites packet =
            some (wholeWrites standardVideo largeTexture 0 0 64 32)) := by
  refine ⟨running_standard, loaded_largeTexture, by decide +kernel, by decide +kernel, ?_⟩
  rw [drawTexture_run rfl (by decide +kernel), emits_submitQwords_iff,
    texturePacket_exact_iff running_standard loaded_largeTexture]
  decide

end EF2SDK.Video
