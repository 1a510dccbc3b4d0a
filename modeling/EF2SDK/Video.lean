import EF2SDK.Gs
import EF2SDK.StateSteps
import Mathlib.Data.Int.Notation

/-!
# The video driver

The globals of `src/ee/gs/video.c`, their initialization and the functions that read or
change them without drawing. `ef2_video_init` checks its configuration, lays out two
framebuffers in the GS memory and gives the rest to textures.

Whether a DMA transfer is accepted is an arbitrary function `dma` of the number of transfers
tried before it : a refused transfer makes the driver write this and all later packets to the
FIFO, so a packet is always submitted. The ROM version, the outcome of `ef2_gif_dma_init` and
the reads of CSR are arguments. Times and the reserved fields are left out.
-/

set_option autoImplicit false

namespace EF2SDK.Video

open Gif (Qword)
open Gs

/-! ## Constants -/

/-- `EF2_GS_TEXTURE_PAGE_BYTES`. -/
abbrev texturePageBytes : UInt32 := 8192

/-- `EF2_VIDEO_AUTO`. -/
abbrev videoAuto : UInt32 := 0x00

/-- `EF2_VIDEO_NTSC`. -/
abbrev videoNtsc : UInt32 := 0x02

/-- `EF2_VIDEO_PAL`. -/
abbrev videoPal : UInt32 := 0x03

/-- `EF2_VIDEO_FIELD`. -/
abbrev videoField : UInt32 := 0

/-- `EF2_VIDEO_FB_RGBA32`. -/
abbrev fbRgba32 : UInt32 := 0

/-- `EF2_VIDEO_FB_RGB16`. -/
abbrev fbRgb16 : UInt32 := 1

/-! ## The state -/

/-- `ef2_video_config`. -/
structure Config where
  standard : UInt32
  interlaced : UInt8
  fieldMode : UInt32
  framebufferFormat : UInt32
  framebufferWidth : UInt16
  framebufferHeight : UInt16
  deriving DecidableEq

/-- `ef2_video_framebuffer_layout`. -/
structure Layout where
  format : UInt32
  width : UInt16
  height : UInt16
  bufferWidth : UInt8
  gsPsm : UInt8
  bytesPerBuffer : UInt32
  bufferBase : UInt32 × UInt32
  textureStart : UInt32
  deriving DecidableEq

/-- What the driver writes to the hardware besides packets. -/
inductive Output where
  | pmode (value : UInt64)
  | csr (value : UInt64)
  | imr (value : UInt64)
  | dispfb2 (value : UInt64)
  | display2 (value : UInt64)
  | bgcolor (value : UInt64)
  | gifReset
  | setGsCrt (interlace mode field : UInt32)

/-- The globals, with the number of DMA transfers tried, the qwords submitted and the other
writes, in order. -/
structure State where
  width : UInt16
  height : UInt16
  config : Config
  layout : Layout
  gifDmaAvailable : Bool
  gifDmaFallbacks : UInt32
  textureStart : UInt32
  textureCursor : UInt32
  framebufferBytes : UInt32
  framebufferBase : UInt32 × UInt32
  displayBuffer : UInt32
  drawBuffer : UInt32
  doubleBuffered : Bool
  presentCount : UInt32
  vsyncTimeouts : UInt32
  clutStage : ℕ → UInt32
  dmaSends : ℕ
  submitted : List Qword
  outputs : List Output

/-- The globals before the first `ef2_video_init`. -/
def boot : State where
  width := 0
  height := 0
  config := ⟨0, 0, 0, 0, 0, 0⟩
  layout := ⟨0, 0, 0, 0, 0, 0, (0, 0), 0⟩
  gifDmaAvailable := false
  gifDmaFallbacks := 0
  textureStart := 0
  textureCursor := 0
  framebufferBytes := 0
  framebufferBase := (0, 0)
  displayBuffer := 0
  drawBuffer := 0
  doubleBuffered := false
  presentCount := 0
  vsyncTimeouts := 0
  clutStage := fun _ => 0
  dmaSends := 0
  submitted := []
  outputs := []

variable (dma : ℕ → Bool)

/-! ## Helpers -/

/-- Write to the hardware. -/
def output (o : Output) : StateM State PUnit :=
  modify fun v => { v with outputs := v.outputs ++ [o] }

/-- `ef2_video_submit_qwords`. -/
def submitQwords (packet : List Qword) : StateM State ℤ := do
  modify fun v =>
    let v := { v with submitted := v.submitted ++ packet }
    if v.gifDmaAvailable then
      if dma v.dmaSends then
        { v with dmaSends := v.dmaSends + 1 }
      else
        { v with
          dmaSends := v.dmaSends + 1
          gifDmaFallbacks := v.gifDmaFallbacks + 1
          gifDmaAvailable := false }
    else v
  pure 0

/-- `ef2_video_frame_fbp`. -/
def frameFbp (v : State) (index : UInt32) : UInt16 :=
  let base := if index &&& 1 = 0 then v.framebufferBase.1 else v.framebufferBase.2
  (base / 8192).toUInt16

/-- `ef2_video_draw_fbp`. -/
def drawFbp (v : State) : UInt16 :=
  frameFbp v v.drawBuffer

/-- `ef2_video_program_display_buffer`. -/
def programDisplayBuffer (index : UInt32) : StateM State PUnit := do
  let v ← get
  output (.dispfb2 (packDispfb (frameFbp v index) v.layout.bufferWidth v.layout.gsPsm 0 0))

/-- `ef2_video_standard_valid`. -/
def standardValid (standard : UInt32) : Bool :=
  standard = videoNtsc || standard = videoPal

/-- `ef2_video_framebuffer_format_info` : the pixel format and the height of its pages. -/
def framebufferFormatInfo (format : UInt32) : Option (UInt8 × UInt16) :=
  if format = fbRgba32 then some (psmct32, 32)
  else if format = fbRgb16 then some (psmct16, 64)
  else none

/-- `ef2_video_detect_standard`, from what `ef2_iop_get_romver` returns and stores at index
4. -/
def detectStandard (romver : ℤ × UInt8) : Option UInt32 :=
  if romver.1 < 0 then none
  else some (if romver.2 = 'E'.toUInt8 then videoPal else videoNtsc)

/-- `ef2_align_up_u32`. -/
def alignUp (value alignment : UInt32) : UInt32 :=
  (value + alignment - 1) &&& ~~~(alignment - 1)

/-- The loop of `ef2_log2_ceil_u16`, with the rounds left until its exponent is 15. -/
def log2CeilLoop (value : UInt16) : ℕ → UInt32 → UInt8 → UInt8
  | 0, _, exponent => exponent
  | rounds + 1, power, exponent =>
    if power < value.toUInt32 then log2CeilLoop value rounds (power <<< 1) (exponent + 1)
    else exponent

/-- `ef2_log2_ceil_u16`. -/
def log2Ceil (value : UInt16) : UInt8 :=
  log2CeilLoop value 15 1 0

/-- `ef2_clamp_s32`. -/
def clamp (value low high : Int32) : Int32 :=
  if value < low then low
  else if high < value then high
  else value

/-! ## Drawing -/

/-- A width or a height of the screen as a signed coordinate. -/
def screen (size : UInt16) : Int32 :=
  size.toUInt32.toInt32

/-- A coordinate in sixteenths of a pixel. -/
def subpixels (x : Int32) : UInt16 :=
  (x.toUInt32 <<< 4).toUInt16

/-- `ef2_video_draw_two_vertex`. -/
def drawTwoVertex (primitive : UInt8) (x0 y0 x1 y1 : Int32) (r g b : UInt8) :
    StateM State ℤ := do
  let v ← get
  if v.width = 0 ∨ v.height = 0 then
    pure (-1)
  else
    let x0 := clamp x0 0 (screen v.width)
    let y0 := clamp y0 0 (screen v.height)
    let x1 := clamp x1 0 (screen v.width)
    let y1 := clamp y1 0 (screen v.height)
    submitQwords dma
      [adTag 8,
        gifAd (packFrame (drawFbp v) v.layout.bufferWidth v.layout.gsPsm 0) addrFrame,
        gifAd (packXyoffset 0 0) addrXyoffset,
        gifAd (packScissor 0 (v.width - 1) 0 (v.height - 1)) addrScissor,
        gifAd 0 addrTest,
        gifAd (packPrim primitive) addrPrim,
        gifAd (packRgbaq r g b 0x80) addrRgbaq,
        gifAd (packXyz (subpixels x0) (subpixels y0) 0) addrXyz2,
        gifAd (packXyz (subpixels x1) (subpixels y1) 0) addrXyz2]

/-- `ef2_video_draw_rect`. -/
def drawRect (x y width height : Int32) (r g b : UInt8) : StateM State ℤ := do
  let v ← get
  if width ≤ 0 ∨ height ≤ 0 then
    pure (-1)
  else if screen v.width ≤ x ∨ screen v.height ≤ y ∨ x + width ≤ 0 ∨ y + height ≤ 0 then
    pure 0
  else
    let right := clamp (x + width) 0 (screen v.width)
    let bottom := clamp (y + height) 0 (screen v.height)
    let x := clamp x 0 (screen v.width)
    let y := clamp y 0 (screen v.height)
    if right ≤ x ∨ bottom ≤ y then
      pure 0
    else
      drawTwoVertex dma primSprite x y right bottom r g b

/-- `ef2_video_draw_line`. -/
def drawLine (x0 y0 x1 y1 : Int32) (r g b : UInt8) : StateM State ℤ := do
  let v ← get
  if v.width = 0 ∨ v.height = 0 then
    pure (-1)
  else
    drawTwoVertex dma primLine x0 y0 x1 y1 r g b

/-- `ef2_video_clear`. -/
def clear (r g b : UInt8) : StateM State ℤ := do
  let v ← get
  if v.width = 0 ∨ v.height = 0 then
    pure (-1)
  else
    drawRect dma 0 0 (screen v.width) (screen v.height) r g b

/-- `ef2_video_set_background`. -/
def setBackground (r g b : UInt8) : StateM State PUnit :=
  output (.bgcolor (packBgcolor r g b))

/-! ## Initialization -/

/-- The size and the position of the picture for a standard : `default_height`, `dx` and
`dy`. -/
def picture (standard : UInt32) : UInt16 × UInt16 × UInt16 :=
  if standard = videoPal then (512, 680, 72) else (448, 656, 36)

/-- The standard that `ef2_video_init` uses. -/
def chosenStandard (config : Config) (romver : ℤ × UInt8) : UInt32 :=
  if config.standard = videoAuto then (detectStandard romver).getD videoNtsc
  else config.standard

/-- The width that `ef2_video_init` uses. -/
def chosenWidth (config : Config) : UInt16 :=
  if config.framebufferWidth ≠ 0 then config.framebufferWidth else 640

/-- The height that `ef2_video_init` uses. -/
def chosenHeight (config : Config) (standard : UInt32) : UInt16 :=
  if config.framebufferHeight ≠ 0 then config.framebufferHeight else (picture standard).1

/-- The part of `ef2_video_init` that programs the GS. -/
def programGs (standard : UInt32) (horizontalScale verticalScale : UInt32) (dmaInit : Bool) :
    StateM State ℤ := do
  output (.pmode 0)
  output (.csr ((1 : UInt64) <<< 9))
  output (.csr 0)
  output (.imr 0x00007F00)
  output .gifReset
  modify fun v => { v with gifDmaFallbacks := 0, gifDmaAvailable := dmaInit }
  output (.setGsCrt 1 standard videoField)
  setBackground 0 0 0
  let v ← get
  programDisplayBuffer v.displayBuffer
  output (.display2 (packDisplay (picture standard).2.1 (picture standard).2.2
    (horizontalScale - 1).toUInt8 (verticalScale - 1).toUInt8 2559 ((picture standard).1 - 1)))
  let cleared ← clear dma 0 0 0
  if cleared ≠ 0 then
    pure (-7)
  else do
    output (.pmode (packPmode 0 1 1 1 0 0xFF))
    pure 0

/-- The globals that `ef2_video_init` sets once the configuration is accepted. -/
def activate (config : Config) (standard framebufferBytes : UInt32) (psm : UInt8) (v : State) :
    State :=
  { v with
    framebufferBytes := framebufferBytes
    framebufferBase := (0, framebufferBytes)
    displayBuffer := 0
    drawBuffer := 0
    doubleBuffered := false
    presentCount := 0
    vsyncTimeouts := 0
    config :=
      { standard := standard
        interlaced := config.interlaced
        fieldMode := config.fieldMode
        framebufferFormat := config.framebufferFormat
        framebufferWidth := v.width
        framebufferHeight := v.height }
    layout :=
      { format := config.framebufferFormat
        width := v.width
        height := v.height
        bufferWidth := (v.width / 64).toUInt8
        gsPsm := psm
        bytesPerBuffer := framebufferBytes
        bufferBase := (0, framebufferBytes)
        textureStart := framebufferBytes * 2 }
    textureStart := framebufferBytes * 2
    textureCursor := framebufferBytes * 2 }

/-- The size of a framebuffer in whole pages. -/
def framebufferSize (width height pageHeight : UInt16) : UInt32 :=
  ((width.toUInt32 + 63) / 64)
    * ((height.toUInt32 + pageHeight.toUInt32 - 1) / pageHeight.toUInt32) * texturePageBytes

/-- The checks of `ef2_video_init` on the width and the height. -/
def sizeValid (width height defaultHeight : UInt16) : Bool :=
  !(width < 160 || width > 1024 || width &&& 63 ≠ 0 || height = 0 || height > defaultHeight
    || 2560 % width.toUInt32 ≠ 0 || defaultHeight.toUInt32 % height.toUInt32 ≠ 0)

/-- `ef2_video_init`. A null configuration is `none`. -/
def init (config : Option Config) (romver : ℤ × UInt8) (dmaInit : Bool) : StateM State ℤ :=
  match config with
  | none => pure (-1)
  | some config =>
    let standard := chosenStandard config romver
    if standardValid standard = false then
      pure (-2)
    else if config.interlaced = 0 ∨ config.fieldMode ≠ videoField then
      pure (-3)
    else
      match framebufferFormatInfo config.framebufferFormat with
      | none => pure (-4)
      | some (psm, pageHeight) => do
        modify fun v =>
          { v with width := chosenWidth config, height := chosenHeight config standard }
        let v ← get
        if sizeValid v.width v.height (picture standard).1 = false then
          pure (-5)
        else
          let horizontalScale := 2560 / v.width.toUInt32
          let verticalScale := (picture standard).1.toUInt32 / v.height.toUInt32
          if horizontalScale = 0 ∨ horizontalScale > 16 ∨ verticalScale = 0
              ∨ verticalScale > 4 then
            pure (-5)
          else
            let framebufferBytes := framebufferSize v.width v.height pageHeight
            if framebufferBytes = 0 ∨ framebufferBytes * 2 > vramBytes then
              pure (-6)
            else do
              modify (activate config standard framebufferBytes psm)
              programGs dma standard horizontalScale verticalScale dmaInit

/-! ## Reading and presenting -/

/-- `ef2_video_get_config`. -/
def getConfig (v : State) : Option Config :=
  if v.width = 0 ∨ v.height = 0 then none else some v.config

/-- `ef2_video_get_framebuffer_layout`. -/
def getFramebufferLayout (v : State) : Option Layout :=
  if v.width = 0 ∨ v.height = 0 then none else some v.layout

/-- `ef2_video_get_size`. -/
def getSize (v : State) : Option (UInt16 × UInt16) :=
  if v.width = 0 ∨ v.height = 0 then none else some (v.width, v.height)

/-- `ef2_video_set_double_buffering`. -/
def setDoubleBuffering (enabled : UInt32) : StateM State ℤ := fun v =>
  if v.width = 0 ∨ v.height = 0 then
    (-1, v)
  else if enabled ≠ 0 then
    if v.doubleBuffered = false then
      (0, { v with doubleBuffered := true, drawBuffer := 1 - v.displayBuffer })
    else
      (0, v)
  else
    (0, { v with doubleBuffered := false, drawBuffer := v.displayBuffer })

/-- The loop of `ef2_video_wait_vsync` : whether VSINT is read as set, by the successive reads
of CSR, before `timeout` runs out. -/
def vsyncLoop (csr : ℕ → Bool) : ℕ → ℕ → Bool
  | 0, _ => false
  | timeout + 1, reads => if csr reads then true else vsyncLoop csr timeout (reads + 1)

/-- `ef2_video_wait_vsync`. -/
def waitVsync (csr : ℕ → Bool) (timeout : UInt32) : StateM State ℤ := do
  let v ← get
  if v.width = 0 ∨ v.height = 0 then
    pure (-1)
  else do
    let timeout := if timeout = 0 then 0x04000000 else timeout
    output (.csr ((1 : UInt64) <<< 3))
    if vsyncLoop csr timeout.toNat 0 then
      pure 0
    else do
      modify fun v => { v with vsyncTimeouts := v.vsyncTimeouts + 1 }
      pure (-2)

/-- `ef2_video_present`. -/
def present (csr : ℕ → Bool) : StateM State ℤ := do
  let v ← get
  if v.width = 0 ∨ v.height = 0 then
    pure (-1)
  else do
    let result ← waitVsync csr 0
    if result < 0 then
      pure result
    else do
      let v ← get
      if v.doubleBuffered then do
        modify fun v => { v with displayBuffer := v.drawBuffer }
        programDisplayBuffer v.drawBuffer
        modify fun w => { w with drawBuffer := v.displayBuffer }
        modify fun v => { v with presentCount := v.presentCount + 1 }
        pure 0
      else do
        modify fun v => { v with presentCount := v.presentCount + 1 }
        pure 0

/-- `ef2_video_reset_texture_allocator`. -/
def resetTextureAllocator : StateM State PUnit :=
  modify fun v => { v with textureCursor := v.textureStart }

/-- `ef2_video_get_texture_vram_free`. -/
def getTextureVramFree (v : State) : UInt32 :=
  if vramBytes ≤ v.textureCursor then 0 else vramBytes - v.textureCursor

end EF2SDK.Video
