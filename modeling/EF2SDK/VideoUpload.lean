import EF2SDK.Video

/-!
# Textures

The uploads of `src/ee/gs/video.c`. Each of the three formats pads the image to whole pages
of the GS memory, places it at the next page boundary after the texture cursor, and its CLUT
behind it; when both fit, it submits the packets of `ef2_video_upload_image` and moves the
cursor. The drawing of textures follows.

A source is a pointer with the bytes it points to. A texture record is passed as `none` for a
null pointer and returned as the call leaves it.
-/

set_option autoImplicit false

namespace EF2SDK.Video

open Gif (Qword)
open Gs

/-- `EF2_GIF_IMAGE_MAX_QWORDS`. -/
abbrev gifImageMaxQwords : ℕ := 0x7FFF

/-- `EF2_GS_TEXTURE_PAGE_WIDTH`. -/
abbrev texturePageWidth : UInt32 := 64

/-- `EF2_GS_TEXTURE_PAGE_HEIGHT`. -/
abbrev texturePageHeight : UInt32 := 32

/-- `ef2_video_texture`. -/
structure Texture where
  vramAddress : UInt16
  clutAddress : UInt16
  width : UInt16
  height : UInt16
  bufferWidth : UInt8
  psm : UInt8
  clutPsm : UInt8
  widthLog2 : UInt8
  heightLog2 : UInt8
  valid : Bool
  indexed : Bool
  deriving DecidableEq

/-- A pointer, with the bytes from there on. -/
structure Source where
  address : UInt32
  bytes : ℕ → UInt8

/-- The 32-bit word at an index, the least significant byte first. -/
def word (bytes : ℕ → UInt8) (i : ℕ) : UInt32 :=
  (bytes (4 * i)).toUInt32 ||| ((bytes (4 * i + 1)).toUInt32 <<< 8)
    ||| ((bytes (4 * i + 2)).toUInt32 <<< 16) ||| ((bytes (4 * i + 3)).toUInt32 <<< 24)

/-- The qword at an index of words. -/
def qword (words : ℕ → UInt32) (i : ℕ) : Qword where
  lo := (words (4 * i)).toUInt64 ||| ((words (4 * i + 1)).toUInt64 <<< 32)
  hi := (words (4 * i + 2)).toUInt64 ||| ((words (4 * i + 3)).toUInt64 <<< 32)

/-- `count` qwords from an index on. -/
def qwords (words : ℕ → UInt32) (offset count : ℕ) : List Qword :=
  (List.range count).map fun i => qword words (offset + i)

variable (dma : ℕ → Bool)

/-! ## Transfers -/

/-- The loop of `ef2_video_upload_image`. -/
def uploadLoop (pixels : ℕ → UInt32) (offset remaining : ℕ) : StateM State ℤ :=
  if _h : remaining = 0 then
    pure 0
  else do
    let chunk := min remaining gifImageMaxQwords
    let sent ← submitQwords dma
      [⟨gifPackTag (UInt16.ofNat chunk) 1 0 0 gifFlgImage 0, 0⟩]
    if sent < 0 then
      pure (-3)
    else do
      let sent ← submitQwords dma (qwords pixels offset chunk)
      if sent < 0 then
        pure (-4)
      else
        uploadLoop pixels (offset + chunk) (remaining - chunk)
termination_by remaining
decreasing_by
  change remaining - min remaining 0x7FFF < remaining
  omega

/-- `ef2_video_upload_image`. No caller passes a null pointer. -/
def uploadImage (destination : UInt16) (destinationWidth psm : UInt8) (width height : UInt16)
    (pixels : ℕ → UInt32) (transferBytes : UInt32) : StateM State ℤ := do
  if transferBytes = 0 ∨ transferBytes &&& 0x0F ≠ 0 then
    pure (-1)
  else do
    let sent ← submitQwords dma
      [adTag 4,
        gifAd (packBitbltbuf destination destinationWidth psm) addrBitbltbuf,
        gifAd (packTrxpos 0 0) addrTrxpos,
        gifAd (packTrxreg width height) addrTrxreg,
        gifAd 0 addrTrxdir]
    if sent < 0 then
      pure (-2)
    else
      uploadLoop dma pixels 0 (transferBytes >>> 4).toNat

/-- `ef2_video_flush_texture_cache`. -/
def flushTextureCache : StateM State ℤ :=
  submitQwords dma [adTag 1, gifAd 0 addrTexflush]

/-- Where `ef2_video_prepare_csm1_clut` puts a colour of the palette. -/
def csm1Index (i : UInt32) : UInt32 :=
  (i &&& ~~~(0x18 : UInt32)) ||| ((i &&& 0x08) <<< 1) ||| ((i &&& 0x10) >>> 1)

/-- `ef2_video_prepare_csm1_clut`, for the colours from `i` on, with the rounds left. -/
def prepareCsm1Loop (palette : ℕ → UInt32) : ℕ → UInt32 → (ℕ → UInt32) → ℕ → UInt32
  | 0, _, stage => stage
  | rounds + 1, i, stage =>
    prepareCsm1Loop palette rounds (i + 1) fun j =>
      if j = (csm1Index i).toNat then palette i.toNat else stage j

/-- `ef2_video_prepare_csm1_clut`. -/
def prepareCsm1Clut (palette : ℕ → UInt32) : StateM State PUnit :=
  modify fun v => { v with clutStage := prepareCsm1Loop palette 256 0 v.clutStage }

/-! ## Uploads -/

/-- The size of an upload is not accepted. -/
def badSize (width height : UInt16) : Prop :=
  width = 0 ∨ height = 0 ∨ width > 1024 ∨ height > 1024

instance (width height : UInt16) : Decidable (badSize width height) :=
  inferInstanceAs (Decidable (_ ∨ _ ∨ _ ∨ _))

/-- `ef2_video_upload_rgba32`. -/
def uploadRgba32 (texture : Option Texture) (pixels : Source) (width height : UInt16) :
    StateM State (ℤ × Option Texture) := do
  if texture = none ∨ pixels.address = 0 ∨ badSize width height then
    pure (-1, texture)
  else if pixels.address &&& 0x0F ≠ 0 then
    pure (-2, texture)
  else
    let transferBytes := width.toUInt32 * height.toUInt32 * 4
    if transferBytes &&& 0x0F ≠ 0 then
      pure (-3, texture)
    else do
      let paddedWidth := alignUp width.toUInt32 texturePageWidth
      let paddedHeight := alignUp height.toUInt32 texturePageHeight
      let allocationBytes := paddedWidth * paddedHeight * 4
      let v ← get
      let cursor := alignUp v.textureCursor texturePageBytes
      if cursor > vramBytes ∨ allocationBytes > vramBytes - cursor then
        pure (-4, texture)
      else do
        let tbw := (paddedWidth / 64).toUInt8
        let t : Texture :=
          { vramAddress := (cursor / 256).toUInt16
            clutAddress := 0
            width := width
            height := height
            bufferWidth := tbw
            psm := psmct32
            clutPsm := 0
            widthLog2 := log2Ceil width
            heightLog2 := log2Ceil height
            valid := false
            indexed := false }
        let sent ← uploadImage dma t.vramAddress t.bufferWidth psmct32 width height
          (word pixels.bytes) transferBytes
        if sent < 0 then
          pure (-5, some t)
        else do
          let flushed ← flushTextureCache dma
          if flushed < 0 then
            pure (-6, some t)
          else do
            modify fun v => { v with textureCursor := cursor + allocationBytes }
            pure (0, some { t with valid := true })

/-- `ef2_video_upload_indexed8`. -/
def uploadIndexed8 (texture : Option Texture) (indices palette : Source)
    (width height : UInt16) : StateM State (ℤ × Option Texture) := do
  if texture = none ∨ indices.address = 0 ∨ palette.address = 0 ∨ badSize width height then
    pure (-1, texture)
  else if indices.address &&& 0x0F ≠ 0 ∨ palette.address &&& 0x0F ≠ 0 then
    pure (-2, texture)
  else
    let indexBytes := width.toUInt32 * height.toUInt32
    if indexBytes &&& 0x0F ≠ 0 then
      pure (-3, texture)
    else do
      let paddedWidth := alignUp width.toUInt32 128
      let paddedHeight := alignUp height.toUInt32 64
      let textureBytes := paddedWidth * paddedHeight
      let v ← get
      let textureCursor := alignUp v.textureCursor texturePageBytes
      let clutCursor := alignUp (textureCursor + textureBytes) 256
      let endCursor := clutCursor + 1024
      if endCursor > vramBytes then
        pure (-4, texture)
      else do
        let tbw := (paddedWidth / 64).toUInt8
        let t : Texture :=
          { vramAddress := (textureCursor / 256).toUInt16
            clutAddress := (clutCursor / 256).toUInt16
            width := width
            height := height
            bufferWidth := tbw
            psm := psmt8
            clutPsm := psmct32
            widthLog2 := log2Ceil width
            heightLog2 := log2Ceil height
            valid := false
            indexed := true }
        let sent ← uploadImage dma t.vramAddress t.bufferWidth psmt8 width height
          (word indices.bytes) indexBytes
        if sent < 0 then
          pure (-5, some t)
        else do
          prepareCsm1Clut (word palette.bytes)
          let v ← get
          let sent ← uploadImage dma t.clutAddress 1 psmct32 16 16 v.clutStage 1024
          if sent < 0 then
            pure (-6, some t)
          else do
            let flushed ← flushTextureCache dma
            if flushed < 0 then
              pure (-7, some t)
            else do
              modify fun v => { v with textureCursor := endCursor }
              pure (0, some { t with valid := true })

/-- `ef2_video_upload_indexed4`. -/
def uploadIndexed4 (texture : Option Texture) (packedIndices palette : Source)
    (width height : UInt16) : StateM State (ℤ × Option Texture) := do
  if texture = none ∨ packedIndices.address = 0 ∨ palette.address = 0
      ∨ badSize width height then
    pure (-1, texture)
  else if packedIndices.address &&& 0x0F ≠ 0 ∨ palette.address &&& 0x0F ≠ 0 then
    pure (-2, texture)
  else
    let pixelCount := width.toUInt32 * height.toUInt32
    let packedBytes := (pixelCount + 1) >>> 1
    if packedBytes &&& 0x0F ≠ 0 then
      pure (-3, texture)
    else do
      let paddedWidth := alignUp width.toUInt32 128
      let paddedHeight := alignUp height.toUInt32 128
      let textureBytes := (paddedWidth * paddedHeight) >>> 1
      let v ← get
      let textureCursor := alignUp v.textureCursor texturePageBytes
      let clutCursor := alignUp (textureCursor + textureBytes) 256
      let endCursor := clutCursor + 256
      if endCursor > vramBytes then
        pure (-4, texture)
      else do
        let tbw := (paddedWidth / 64).toUInt8
        let t : Texture :=
          { vramAddress := (textureCursor / 256).toUInt16
            clutAddress := (clutCursor / 256).toUInt16
            width := width
            height := height
            bufferWidth := tbw
            psm := psmt4
            clutPsm := psmct32
            widthLog2 := log2Ceil width
            heightLog2 := log2Ceil height
            valid := false
            indexed := true }
        let sent ← uploadImage dma t.vramAddress t.bufferWidth psmt4 width height
          (word packedIndices.bytes) packedBytes
        if sent < 0 then
          pure (-5, some t)
        else do
          let sent ← uploadImage dma t.clutAddress 1 psmct32 8 2 (word palette.bytes) 64
          if sent < 0 then
            pure (-6, some t)
          else do
            let flushed ← flushTextureCache dma
            if flushed < 0 then
              pure (-7, some t)
            else do
              modify fun v => { v with textureCursor := endCursor }
              pure (0, some { t with valid := true })

/-! ## Drawing -/

/-- The TEX0 value of a texture : `tcc` is 1 and an indexed texture loads its CLUT. -/
def tex0 (texture : Texture) (tfx : UInt8) : UInt64 :=
  if texture.indexed then
    packTex0Clut texture.vramAddress texture.bufferWidth texture.psm texture.widthLog2
      texture.heightLog2 1 tfx texture.clutAddress texture.clutPsm 0 0 1
  else
    packTex0 texture.vramAddress texture.bufferWidth texture.psm texture.widthLog2
      texture.heightLog2 1 tfx

/-- A texture that the driver draws. -/
def drawable (texture : Option Texture) : Option Texture :=
  texture.filter fun t => t.valid && (t.psm = psmct32 || t.psm = psmt8 || t.psm = psmt4)

/-- `ef2_video_draw_texture_region`. -/
def drawTextureRegion (texture : Option Texture)
    (sourceX sourceY sourceWidth sourceHeight : UInt16) (x y width height : Int32)
    (r g b a : UInt8) (blend : Bool) : StateM State ℤ := do
  let v ← get
  match drawable texture with
  | none => pure (-1)
  | some t =>
    if sourceWidth = 0 ∨ sourceHeight = 0 ∨ width ≤ 0 ∨ height ≤ 0 then
      pure (-1)
    else if sourceX.toUInt32 + sourceWidth.toUInt32 > t.width.toUInt32
        ∨ sourceY.toUInt32 + sourceHeight.toUInt32 > t.height.toUInt32 then
      pure (-2)
    else if x < 0 ∨ y < 0 ∨ x + width > screen v.width ∨ y + height > screen v.height then
      pure (-3)
    else
      let right := x + width
      let bottom := y + height
      let u0 := (sourceX.toUInt32 <<< 4).toUInt16
      let v0 := (sourceY.toUInt32 <<< 4).toUInt16
      let u1 := ((sourceX.toUInt32 + sourceWidth.toUInt32) <<< 4).toUInt16
      let v1 := ((sourceY.toUInt32 + sourceHeight.toUInt32) <<< 4).toUInt16
      submitQwords dma
        [adTag 14,
          gifAd (packFrame (drawFbp v) v.layout.bufferWidth v.layout.gsPsm 0) addrFrame,
          gifAd (packXyoffset 0 0) addrXyoffset,
          gifAd (packScissor 0 (v.width - 1) 0 (v.height - 1)) addrScissor,
          gifAd 0 addrTest,
          gifAd (tex0 t 0) addrTex0,
          gifAd 0 addrTex1,
          gifAd 1 addrPrmodecont,
          gifAd (packAlpha 0 1 0 1 0x80) addrAlpha,
          gifAd (packPrimEx primSprite 0 1 0 (if blend then 1 else 0) 0 1 0 0) addrPrim,
          gifAd (packRgbaq r g b a) addrRgbaq,
          gifAd (packUv u0 v0) addrUv,
          gifAd (packXyz (subpixels x) (subpixels y) 0) addrXyz2,
          gifAd (packUv u1 v1) addrUv,
          gifAd (packXyz (subpixels right) (subpixels bottom) 0) addrXyz2]

/-- `ef2_video_draw_texture`. -/
def drawTexture (texture : Option Texture) (x y width height : Int32) : StateM State ℤ := do
  let v ← get
  match drawable texture with
  | none => pure (-1)
  | some t =>
    if width ≤ 0 ∨ height ≤ 0 then
      pure (-1)
    else if x < 0 ∨ y < 0 ∨ x + width > screen v.width ∨ y + height > screen v.height then
      pure (-2)
    else
      let right := x + width
      let bottom := y + height
      let u1 := (t.width.toUInt32 <<< 4).toUInt16
      let v1 := (t.height.toUInt32 <<< 4).toUInt16
      submitQwords dma
        [adTag 13,
          gifAd (packFrame (drawFbp v) v.layout.bufferWidth v.layout.gsPsm 0) addrFrame,
          gifAd (packXyoffset 0 0) addrXyoffset,
          gifAd (packScissor 0 (v.width - 1) 0 (v.height - 1)) addrScissor,
          gifAd 0 addrTest,
          gifAd (tex0 t 1) addrTex0,
          gifAd 0 addrTex1,
          gifAd 1 addrPrmodecont,
          gifAd (packPrimEx primSprite 0 1 0 0 0 1 0 0) addrPrim,
          gifAd (packRgbaq 0x80 0x80 0x80 0x80) addrRgbaq,
          gifAd (packUv 0 0) addrUv,
          gifAd (packXyz (subpixels x) (subpixels y) 0) addrXyz2,
          gifAd (packUv u1 v1) addrUv,
          gifAd (packXyz (subpixels right) (subpixels bottom) 0) addrXyz2]

end EF2SDK.Video
