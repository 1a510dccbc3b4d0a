import EF2SDK.VideoDraw

/-!
# What drawing a texture emits

`ef2_video_draw_texture_region` and `ef2_video_draw_texture` test that the rectangle they are
to fill is on the screen, and set the registers for a textured sprite (`texturedWrites`). They
compare the 32-bit sums of the position and the size with the size of the screen, so a
rectangle that reaches so far that a sum turns negative is taken for one that fits
(`drawTexture_onScreen_iff`).
-/

set_option autoImplicit false

namespace EF2SDK.Video

open Gif (Qword)
open Gs
open BitFields (fields)

variable {dma : ℕ → Bool} {v : State} {x y width height : Int32} {texture : Option Texture}
  {t : Texture}

/-! ## The packet -/

/-- The register writes of the packet of a textured sprite. -/
def texturedSprite (v : State) (tex0 : UInt64) (alpha : List Qword)
    (prim rgbaq uv₀ xyz₀ uv₁ xyz₁ : UInt64) : List Qword :=
  [gifAd (packFrame (drawFbp v) v.layout.bufferWidth v.layout.gsPsm 0) addrFrame,
    gifAd (packXyoffset 0 0) addrXyoffset,
    gifAd (packScissor 0 (v.width - 1) 0 (v.height - 1)) addrScissor,
    gifAd 0 addrTest,
    gifAd tex0 addrTex0,
    gifAd 0 addrTex1,
    gifAd 1 addrPrmodecont]
  ++ alpha
  ++ [gifAd prim addrPrim,
    gifAd rgbaq addrRgbaq,
    gifAd uv₀ addrUv,
    gifAd xyz₀ addrXyz2,
    gifAd uv₁ addrUv,
    gifAd xyz₁ addrXyz2]

/-- These register writes, with the values of their fields. -/
def texturedWrites (v : State) (tex0 : List ℕ) (alpha : List (UInt64 × List ℕ))
    (prim rgbaq uv₀ xyz₀ uv₁ xyz₁ : List ℕ) : List (UInt64 × List ℕ) :=
  [(addrFrame, [(drawFbp v).toNat, v.layout.bufferWidth.toNat, v.layout.gsPsm.toNat, 0]),
    (addrXyoffset, [0, 0]),
    (addrScissor, [0, v.width.toNat - 1, 0, v.height.toNat - 1]),
    (addrTest, [0]),
    (addrTex0, tex0),
    (addrTex1, [0]),
    (addrPrmodecont, [1])]
  ++ alpha
  ++ [(addrPrim, prim),
    (addrRgbaq, rgbaq),
    (addrUv, uv₀),
    (addrXyz2, xyz₀),
    (addrUv, uv₁),
    (addrXyz2, xyz₁)]

theorem frame_fields (hv : Fitted v) :
    fields frameLayout (packFrame (drawFbp v) v.layout.bufferWidth v.layout.gsPsm 0) =
      [(drawFbp v).toNat, v.layout.bufferWidth.toNat, v.layout.gsPsm.toNat, 0] := by
  rw [packFrame_fields, Nat.mod_eq_of_lt hv.fbp, Nat.mod_eq_of_lt hv.bufferWidth,
    Nat.mod_eq_of_lt hv.psm]
  rfl

theorem scissor_fields (hv : Fitted v) :
    fields scissorLayout (packScissor 0 (v.width - 1) 0 (v.height - 1)) =
      [0, v.width.toNat - 1, 0, v.height.toNat - 1] := by
  have hlast {size : UInt16} (hlo : 0 < size.toNat) (hhi : size.toNat ≤ 1024) :
      (size - 1).toNat % 2 ^ 11 = size.toNat - 1 := by
    rw [UInt16.toNat_sub_of_le]
    · change (size.toNat - 1) % 2 ^ 11 = _
      omega
    · rw [UInt16.le_iff_toNat_le]
      exact hlo
  have hwidth := hv.width
  have hheight := hv.height
  rw [packScissor_fields, hlast (by omega) (by omega), hlast (by omega) (by omega)]
  rfl

/-- The geometry of a running driver fits the registers. -/
theorem texturedSprite_writes (hv : Fitted v) (tex0 : UInt64) (alpha : List Qword)
    (prim rgbaq uv₀ xyz₀ uv₁ xyz₁ : UInt64) :
    (texturedSprite v tex0 alpha prim rgbaq uv₀ xyz₀ uv₁ xyz₁).map
        (fun q => (q.hi, fields (layout q.hi) q.lo)) =
      texturedWrites v (fields tex0Layout tex0)
        (alpha.map fun q => (q.hi, fields (layout q.hi) q.lo)) (fields primLayout prim)
        (fields rgbaqLayout rgbaq) (fields uvLayout uv₀) (fields xyzLayout xyz₀)
        (fields uvLayout uv₁) (fields xyzLayout xyz₁) := by
  rw [texturedWrites, ← frame_fields hv, ← scissor_fields hv, texturedSprite, List.map_append,
    List.map_append]
  rfl

theorem length_texturedSprite (v : State) (tex0 : UInt64) (alpha : List Qword)
    (prim rgbaq uv₀ xyz₀ uv₁ xyz₁ : UInt64) :
    (texturedSprite v tex0 alpha prim rgbaq uv₀ xyz₀ uv₁ xyz₁).length = 13 + alpha.length := by
  simp only [texturedSprite, List.length_append, List.length_cons, List.length_nil]
  omega

/-- A write to `ALPHA` is none to another register. -/
theorem filter_alpha {address : UInt64} {alpha : List Qword}
    (halpha : ∀ q ∈ alpha, q.hi = addrAlpha) (h : addrAlpha ≠ address) :
    (alpha.map fun q => (q.hi, fields (layout q.hi) q.lo)).filter
      (fun write => write.1 = address) = [] := by
  simpa using fun q hq => halpha q hq ▸ h

/-! ## The calls -/

/-- The test of both functions on the rectangle that they are to fill. -/
def Passes (v : State) (x y width height : Int32) : Prop :=
  ¬(width ≤ 0 ∨ height ≤ 0) ∧
    ¬(x < 0 ∨ y < 0 ∨ x + width > screen v.width ∨ y + height > screen v.height)

instance (v : State) (x y width height : Int32) : Decidable (Passes v x y width height) :=
  inferInstanceAs (Decidable (¬_ ∧ ¬_))

/-- The tests of `ef2_video_draw_texture_region` on the part of the texture. -/
def SourceAccepted (t : Texture) (sourceX sourceY sourceWidth sourceHeight : UInt16) : Prop :=
  (0 < sourceWidth.toNat ∧ sourceX.toNat + sourceWidth.toNat ≤ t.width.toNat) ∧
    0 < sourceHeight.toNat ∧ sourceY.toNat + sourceHeight.toNat ≤ t.height.toNat

/-- The packet of `ef2_video_draw_texture`. -/
def texturePacket (v : State) (t : Texture) (x y width height : Int32) : List Qword :=
  adTag 13 :: texturedSprite v (tex0 t 1) [] (packPrimEx primSprite 0 1 0 0 0 1 0 0)
    (packRgbaq 0x80 0x80 0x80 0x80) (packUv 0 0) (packXyz (subpixels x) (subpixels y) 0)
    (packUv (t.width.toUInt32 <<< 4).toUInt16 (t.height.toUInt32 <<< 4).toUInt16)
    (packXyz (subpixels (x + width)) (subpixels (y + height)) 0)

/-- The packet of `ef2_video_draw_texture_region`. -/
def regionPacket (v : State) (t : Texture) (sourceX sourceY sourceWidth sourceHeight : UInt16)
    (x y width height : Int32) (r g b a : UInt8) (blend : Bool) : List Qword :=
  adTag 14 :: texturedSprite v (tex0 t 0) [gifAd (packAlpha 0 1 0 1 0x80) addrAlpha]
    (packPrimEx primSprite 0 1 0 (if blend then 1 else 0) 0 1 0 0) (packRgbaq r g b a)
    (packUv (sourceX.toUInt32 <<< 4).toUInt16 (sourceY.toUInt32 <<< 4).toUInt16)
    (packXyz (subpixels x) (subpixels y) 0)
    (packUv ((sourceX.toUInt32 + sourceWidth.toUInt32) <<< 4).toUInt16
      ((sourceY.toUInt32 + sourceHeight.toUInt32) <<< 4).toUInt16)
    (packXyz (subpixels (x + width)) (subpixels (y + height)) 0)

theorem drawTexture_run (ht : drawable texture = some t) (h : Passes v x y width height) :
    drawTexture dma texture x y width height v =
      submitQwords dma (texturePacket v t x y width height) v := by
  rw [drawTexture, bind_apply]
  simp only [ht]
  exact (ite_run _ _ v).trans ((if_neg h.1).trans ((ite_run _ _ v).trans (if_neg h.2)))

theorem drawTexture_rejected (ht : drawable texture = some t) (h : ¬Passes v x y width height) :
    ∃ e < 0, drawTexture dma texture x y width height v = (e, v) := by
  rw [drawTexture, bind_apply]
  simp only [ht]
  by_cases hsize : width ≤ 0 ∨ height ≤ 0
  · exact ⟨-1, by decide, (ite_run _ _ v).trans (if_pos hsize)⟩
  · have hscreen := not_not.1 fun hscreen => h ⟨hsize, hscreen⟩
    exact ⟨-2, by decide, (ite_run _ _ v).trans ((if_neg hsize).trans
      ((ite_run _ _ v).trans (if_pos hscreen)))⟩

section Region

variable {sourceX sourceY sourceWidth sourceHeight : UInt16} {r g b a : UInt8} {blend : Bool}

theorem source_le_iff {start size limit : UInt16} :
    ¬start.toUInt32 + size.toUInt32 > limit.toUInt32 ↔
      start.toNat + size.toNat ≤ limit.toNat := by
  have hstart := start.toNat_lt
  have hsize := size.toNat_lt
  rw [gt_iff_lt, UInt32.not_lt, UInt32.le_iff_toNat_le, UInt32.toNat_add, UInt16.toNat_toUInt32,
    UInt16.toNat_toUInt32, UInt16.toNat_toUInt32, Nat.mod_eq_of_lt (by omega)]

theorem ne_zero_iff {size : UInt16} : size ≠ 0 ↔ 0 < size.toNat := by
  rw [Ne, ← UInt16.toNat_inj]
  exact Nat.pos_iff_ne_zero.symm

theorem drawTextureRegion_run (ht : drawable texture = some t)
    (hsource : SourceAccepted t sourceX sourceY sourceWidth sourceHeight)
    (h : Passes v x y width height) :
    drawTextureRegion dma texture sourceX sourceY sourceWidth sourceHeight x y width height r g b a
        blend v =
      submitQwords dma (regionPacket v t sourceX sourceY sourceWidth sourceHeight x y width height
        r g b a blend) v := by
  obtain ⟨⟨hwidth, hright⟩, hheight, hbottom⟩ := hsource
  have hsize : ¬(sourceWidth = 0 ∨ sourceHeight = 0 ∨ width ≤ 0 ∨ height ≤ 0) :=
    not_or.2 ⟨ne_zero_iff.2 hwidth, not_or.2 ⟨ne_zero_iff.2 hheight, h.1⟩⟩
  have hinside := not_or.2 ⟨source_le_iff.2 hright, source_le_iff.2 hbottom⟩
  rw [drawTextureRegion, bind_apply]
  simp only [ht]
  exact (ite_run _ _ v).trans <| (if_neg hsize).trans <| (ite_run _ _ v).trans <|
    (if_neg hinside).trans <| (ite_run _ _ v).trans (if_neg h.2)

theorem drawTextureRegion_rejected (ht : drawable texture = some t)
    (h : ¬(SourceAccepted t sourceX sourceY sourceWidth sourceHeight ∧
      Passes v x y width height)) :
    ∃ e < 0, drawTextureRegion dma texture sourceX sourceY sourceWidth sourceHeight x y width
      height r g b a blend v = (e, v) := by
  rw [drawTextureRegion, bind_apply]
  simp only [ht]
  by_cases hsize : sourceWidth = 0 ∨ sourceHeight = 0 ∨ width ≤ 0 ∨ height ≤ 0
  · exact ⟨-1, by decide, (ite_run _ _ v).trans (if_pos hsize)⟩
  by_cases hinside : sourceX.toUInt32 + sourceWidth.toUInt32 > t.width.toUInt32 ∨
      sourceY.toUInt32 + sourceHeight.toUInt32 > t.height.toUInt32
  · exact ⟨-2, by decide, (ite_run _ _ v).trans <| (if_neg hsize).trans <|
      (ite_run _ _ v).trans (if_pos hinside)⟩
  · obtain ⟨hwidth, hheight, hpositive⟩ := (not_or.1 hsize).imp_right not_or.1
    obtain ⟨hright, hbottom⟩ := not_or.1 hinside
    have hsource : SourceAccepted t sourceX sourceY sourceWidth sourceHeight :=
      ⟨⟨ne_zero_iff.1 hwidth, source_le_iff.1 hright⟩, ne_zero_iff.1 hheight,
        source_le_iff.1 hbottom⟩
    have hscreen := not_not.1 fun hscreen => h ⟨hsource, hpositive, hscreen⟩
    exact ⟨-3, by decide, (ite_run _ _ v).trans <| (if_neg hsize).trans <|
      (ite_run _ _ v).trans <| (if_neg hinside).trans <| (ite_run _ _ v).trans (if_pos hscreen)⟩

end Region

/-! ## The screen test -/

/-- A rectangle that is not on the screen, and that the test takes for one that is : it begins
on the screen, and each edge that leaves the screen is out of range for 32 bits. -/
def SlipsThrough (v : State) (x y width height : Int32) : Prop :=
  let a := asked x y width height
  (0 ≤ a.left ∧ a.left < a.right ∧ (a.right ≤ v.width.toNat ∨ 2 ^ 31 ≤ a.right)) ∧
    (0 ≤ a.top ∧ a.top < a.bottom ∧ (a.bottom ≤ v.height.toNat ∨ 2 ^ 31 ≤ a.bottom)) ∧
    Wraps x y width height

instance (v : State) (x y width height : Int32) : Decidable (SlipsThrough v x y width height) :=
  inferInstanceAs (Decidable (_ ∧ _ ∧ _))

theorem add_size_le_iff {size : UInt16} (h : 0 < width.toInt) :
    ¬x + width > screen size ↔
      x.toInt + width.toInt ≤ size.toNat ∨ 2 ^ 31 ≤ x.toInt + width.toInt := by
  have hx := x.toInt_lt
  have hwidth := width.toInt_lt
  have hsize := size.toNat_lt
  rw [gt_iff_lt, screen_lt_iff, toInt_add_size h]
  split <;> omega

theorem passes_iff :
    Passes v x y width height ↔
      OnScreen v (asked x y width height) ∨ SlipsThrough v x y width height := by
  have hW := v.width.toNat_lt
  have hH := v.height.toNat_lt
  have hx := x.toInt_lt
  have hy := y.toInt_lt
  by_cases hsize : 0 < width.toInt ∧ 0 < height.toInt
  · have htests : Passes v x y width height ↔ (0 ≤ x.toInt ∧ 0 ≤ y.toInt) ∧
        (x.toInt + width.toInt ≤ v.width.toNat ∨ 2 ^ 31 ≤ x.toInt + width.toInt) ∧
        (y.toInt + height.toInt ≤ v.height.toNat ∨ 2 ^ 31 ≤ y.toInt + height.toInt) := by
      rw [← add_size_le_iff hsize.1, ← add_size_le_iff hsize.2, Passes, le_zero_iff, le_zero_iff,
        lt_zero_iff, lt_zero_iff]
      constructor
      · rintro ⟨-, hscreen⟩
        obtain ⟨hleft, htop, hright, hbottom⟩ :=
          (not_or.1 hscreen).imp_right fun h => (not_or.1 h).imp_right not_or.1
        exact ⟨⟨by omega, by omega⟩, hright, hbottom⟩
      · rintro ⟨⟨hleft, htop⟩, hright, hbottom⟩
        exact ⟨by omega, not_or.2 ⟨by omega, not_or.2 ⟨by omega, not_or.2 ⟨hright, hbottom⟩⟩⟩⟩
    have honScreen : OnScreen v (asked x y width height) ↔
        (0 ≤ x.toInt ∧ x.toInt < x.toInt + width.toInt ∧
          x.toInt + width.toInt ≤ v.width.toNat) ∧
        0 ≤ y.toInt ∧ y.toInt < y.toInt + height.toInt ∧
          y.toInt + height.toInt ≤ v.height.toNat :=
      ⟨fun h => ⟨h.columns, h.rows⟩, fun h => ⟨h.1, h.2⟩⟩
    rw [htests, honScreen, SlipsThrough, Wraps]
    simp only [asked]
    omega
  · have hfails : ¬Passes v x y width height := by
      rw [Passes, le_zero_iff, le_zero_iff]
      rintro ⟨hpositive, -⟩
      omega
    refine iff_of_false hfails ?_
    rintro (⟨hcolumns, hrows⟩ | ⟨hcolumns, hrows, -⟩)
    · simp only [asked] at hcolumns hrows
      omega
    · simp only [asked] at hcolumns hrows
      omega

/-- A call draws exactly when it accepts the part of the texture and the rectangle is on the
screen, and then it fills the rectangle ; otherwise it returns an error and emits nothing. -/
def DrawsOnScreen (v : State) (a : Area) (accepted : Prop) (call : ℤ × State) : Prop :=
  (accepted ∧ OnScreen v a → Emits v call.2 (IsSprite a)) ∧
    (¬(accepted ∧ OnScreen v a) → call.1 < 0 ∧ call.2.submitted = v.submitted)

/-- Where a rectangle slips through, a packet is emitted. -/
theorem drawsOnScreen_iff {accepted : Prop} {packet : List Qword} {call : ℤ × State}
    (hrun : accepted → Passes v x y width height → call = submitQwords dma packet v)
    (hrejected : ¬(accepted ∧ Passes v x y width height) → ∃ e < 0, call = (e, v))
    (hpacket : packet ≠ [])
    (hsprite : OnScreen v (asked x y width height) → IsSprite (asked x y width height) packet) :
    DrawsOnScreen v (asked x y width height) accepted call ↔
      ¬(accepted ∧ SlipsThrough v x y width height) := by
  constructor
  · rintro ⟨-, hsilent⟩ ⟨haccepted, hslips⟩
    have hoff : ¬OnScreen v (asked x y width height) := by
      intro hon
      have hcolumns := hon.columns
      have hrows := hon.rows
      have hW := v.width.toNat_lt
      have hH := v.height.toNat_lt
      have hwraps := hslips.2.2
      simp only [Wraps] at hwraps
      simp only [asked] at hcolumns hrows
      omega
    have hsubmitted := (hsilent fun h => hoff h.2).2
    rw [hrun haccepted (passes_iff.2 (Or.inr hslips)), submitQwords_submitted,
      List.append_right_eq_self] at hsubmitted
    exact hpacket hsubmitted
  · intro h
    refine ⟨?_, fun hoff => ?_⟩
    · rintro ⟨haccepted, hon⟩
      rw [hrun haccepted (passes_iff.2 (Or.inl hon))]
      exact emits_submitQwords_iff.2 (hsprite hon)
    · have hfails : ¬(accepted ∧ Passes v x y width height) := by
        rintro ⟨haccepted, hpasses⟩
        obtain hon | hslips := passes_iff.1 hpasses
        · exact hoff ⟨haccepted, hon⟩
        · exact h ⟨haccepted, hslips⟩
      obtain ⟨e, he, hcall⟩ := hrejected hfails
      rw [hcall]
      exact ⟨he, rfl⟩

/-- The vertices of a rectangle on the screen. -/
theorem texturedSprite_isSprite (hv : Fitted v) (hon : OnScreen v (asked x y width height))
    {n : UInt16} {tex0 rgbaq uv₀ uv₁ : UInt64} {alpha : List Qword} {blend : UInt8}
    (halpha : ∀ q ∈ alpha, q.hi = addrAlpha) (hn : 13 + alpha.length = n.toNat)
    (hn' : n.toNat < 2 ^ 15) :
    IsSprite (asked x y width height)
      (adTag n :: texturedSprite v tex0 alpha (packPrimEx primSprite 0 1 0 blend 0 1 0 0) rgbaq uv₀
        (packXyz (subpixels x) (subpixels y) 0) uv₁
        (packXyz (subpixels (x + width)) (subpixels (y + height)) 0)) := by
  have hcolumns := hon.columns
  have hrows := hon.rows
  have hwidth := hv.width
  have hheight := hv.height
  simp only [asked] at hcolumns hrows
  have hright := (toInt_add_size (x := x) (by omega : 0 < width.toInt)).trans (if_pos (by omega))
  have hbottom := (toInt_add_size (x := y) (by omega : 0 < height.toInt)).trans (if_pos (by omega))
  refine ⟨⟨[0, 1, 0, blend.toNat % 2, 0, 1, 0, 0], ?_⟩, ?_⟩
  · rw [writesTo, registerWrites_adTag ((length_texturedSprite ..).trans hn) hn',
      texturedSprite]
    simp only [Option.map_some, List.map_append, List.filter_append,
      filter_alpha halpha (show addrAlpha ≠ addrPrim by decide), List.append_nil]
    change some [fields primLayout (packPrimEx primSprite 0 1 0 blend 0 1 0 0)] = _
    rw [packPrimEx_fields]
    rfl
  · rw [writesTo, registerWrites_adTag ((length_texturedSprite ..).trans hn) hn',
      texturedSprite]
    simp only [Option.map_some, List.map_append, List.filter_append,
      filter_alpha halpha (show addrAlpha ≠ addrXyz2 by decide), List.append_nil]
    change some [fields xyzLayout (packXyz _ _ 0), fields xyzLayout (packXyz _ _ 0)] = _
    rw [vertex_fields rfl rfl (by omega) (by omega),
      vertex_fields hright hbottom (by omega) (by omega)]
    rfl

/-- On a running driver, and for a valid texture, both functions draw exactly what is on the
screen, unless the rectangle slips through. -/
theorem drawTexture_onScreen_iff (hv : Running dma v) (ht : drawable texture = some t)
    (x y width height : Int32) :
    (DrawsOnScreen v (asked x y width height) True (drawTexture dma texture x y width height v) ↔
      ¬SlipsThrough v x y width height) ∧
    ∀ (sourceX sourceY sourceWidth sourceHeight : UInt16) (r g b a : UInt8) (blend : Bool),
      DrawsOnScreen v (asked x y width height)
          (SourceAccepted t sourceX sourceY sourceWidth sourceHeight)
          (drawTextureRegion dma texture sourceX sourceY sourceWidth sourceHeight x y width height
            r g b a blend v) ↔
        ¬(SourceAccepted t sourceX sourceY sourceWidth sourceHeight ∧
          SlipsThrough v x y width height) := by
  constructor
  · have hiff : DrawsOnScreen v (asked x y width height) True
        (drawTexture dma texture x y width height v) ↔
          ¬(True ∧ SlipsThrough v x y width height) :=
      drawsOnScreen_iff (fun _ => drawTexture_run ht)
        (fun h => drawTexture_rejected ht fun hpasses => h ⟨trivial, hpasses⟩)
        (List.cons_ne_nil _ _) fun hon => texturedSprite_isSprite hv.fitted hon (by simp) rfl
          (by decide)
    rwa [true_and] at hiff
  · intro sourceX sourceY sourceWidth sourceHeight r g b a blend
    exact drawsOnScreen_iff (drawTextureRegion_run ht) (drawTextureRegion_rejected ht)
      (List.cons_ne_nil _ _) fun hon => texturedSprite_isSprite hv.fitted hon (by simp [gifAd]) rfl
        (by decide)

/-- A texture of 64 by 32 pixels behind the framebuffers. -/
def smallTexture : Texture where
  vramAddress := 8960
  clutAddress := 0
  width := 64
  height := 32
  bufferWidth := 1
  psm := psmct32
  clutPsm := 0
  widthLog2 := 6
  heightLog2 := 5
  valid := true
  indexed := false

theorem drawTexture_onScreen_iff_small :
    ¬SlipsThrough standardVideo 10 20 64 32 ∧
      (DrawsOnScreen standardVideo (asked 10 20 64 32) True
          (drawTexture (fun _ => true) (some smallTexture) 10 20 64 32 standardVideo) ↔
        ¬SlipsThrough standardVideo 10 20 64 32) :=
  ⟨by decide +kernel, (drawTexture_onScreen_iff running_standard rfl 10 20 64 32).1⟩

/-- From the second column on, the widest rectangle passes for one on the screen. -/
theorem widest_slips_through :
    Running (fun _ => true) standardVideo ∧
      drawable (some smallTexture) = some smallTexture ∧
      ¬OnScreen standardVideo (asked 1 0 2147483647 1) ∧
      (drawTexture (fun _ => true) (some smallTexture) 1 0 2147483647 1 standardVideo).1 = 0 ∧
      ¬DrawsOnScreen standardVideo (asked 1 0 2147483647 1) True
        (drawTexture (fun _ => true) (some smallTexture) 1 0 2147483647 1 standardVideo) ∧
      ¬DrawsOnScreen standardVideo (asked 1 0 2147483647 1) (SourceAccepted smallTexture 0 0 64 32)
        (drawTextureRegion (fun _ => true) (some smallTexture) 0 0 64 32 1 0 2147483647 1 0 0 0 0
          false standardVideo) := by
  have hoff : ¬OnScreen standardVideo (asked 1 0 2147483647 1) := fun hon =>
    absurd hon.columns.2.2 (by decide +kernel)
  have hwhole : (drawTexture (fun _ => true) (some smallTexture) 1 0 2147483647 1
      standardVideo).1 = 0 := by
    decide +kernel
  have hregion : (drawTextureRegion (fun _ => true) (some smallTexture) 0 0 64 32 1 0 2147483647 1
      0 0 0 0 false standardVideo).1 = 0 := by
    decide +kernel
  refine ⟨running_standard, rfl, hoff, hwhole, fun hdraws => ?_, fun hdraws => ?_⟩
  · have herror := (hdraws.2 fun h => hoff h.2).1
    rw [hwhole] at herror
    exact absurd herror (by decide)
  · have herror := (hdraws.2 fun h => hoff h.2).1
    rw [hregion] at herror
    exact absurd herror (by decide)

end EF2SDK.Video
