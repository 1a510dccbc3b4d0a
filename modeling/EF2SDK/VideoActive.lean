import EF2SDK.VideoUpload

/-!
# The active video state

The geometry that drawing, clipping and the texture allocator read : `State.active`. Packets
and register writes leave it as it is (`Same`), so only `ef2_video_init`, the double buffering
and the texture cursor can change it.
-/

set_option autoImplicit false

namespace EF2SDK.Video

/-- What a program can read about the active video mode. -/
structure Active where
  width : UInt16
  height : UInt16
  config : Config
  layout : Layout
  framebufferBytes : UInt32
  framebufferBase : UInt32 × UInt32
  textureStart : UInt32
  textureCursor : UInt32
  displayBuffer : UInt32
  drawBuffer : UInt32
  doubleBuffered : Bool
  deriving DecidableEq

def State.active (v : State) : Active where
  width := v.width
  height := v.height
  config := v.config
  layout := v.layout
  framebufferBytes := v.framebufferBytes
  framebufferBase := v.framebufferBase
  textureStart := v.textureStart
  textureCursor := v.textureCursor
  displayBuffer := v.displayBuffer
  drawBuffer := v.drawBuffer
  doubleBuffered := v.doubleBuffered

/-- The active video state stays. -/
def Same (v v' : State) : Prop :=
  v'.active = v.active

instance : Std.Refl Same where
  refl _ := rfl

instance : IsTrans State Same where
  trans _ _ _ h₁ h₂ := h₂.trans h₁

variable {dma : ℕ → Bool}

theorem Same.width {v v' : State} (h : Same v v') : v'.width = v.width :=
  congrArg Active.width h

theorem Same.height {v v' : State} (h : Same v v') : v'.height = v.height :=
  congrArg Active.height h

theorem Same.layout {v v' : State} (h : Same v v') : v'.layout = v.layout :=
  congrArg Active.layout h

theorem Same.textureStart {v v' : State} (h : Same v v') : v'.textureStart = v.textureStart :=
  congrArg Active.textureStart h

theorem Same.textureCursor {v v' : State} (h : Same v v') : v'.textureCursor = v.textureCursor :=
  congrArg Active.textureCursor h

/-- What of the active video state stays when the buffers change their roles. -/
def Active.geometry (a : Active) : Active :=
  { a with displayBuffer := 0, drawBuffer := 0, doubleBuffered := false }

/-- At most the roles of the buffers change. -/
def SameGeometry (v v' : State) : Prop :=
  v'.active.geometry = v.active.geometry

instance : Std.Refl SameGeometry where
  refl _ := rfl

instance : IsTrans State SameGeometry where
  trans _ _ _ h₁ h₂ := h₂.trans h₁

theorem Same.sameGeometry {v v' : State} (h : Same v v') : SameGeometry v v' :=
  congrArg Active.geometry h

/-- What of the active video state no call but `ef2_video_init` changes. -/
def Active.mode (a : Active) : Active :=
  { a with textureCursor := 0, displayBuffer := 0, drawBuffer := 0, doubleBuffered := false }

/-- The video mode stays. -/
def SameMode (v v' : State) : Prop :=
  v'.active.mode = v.active.mode

instance : Std.Refl SameMode where
  refl _ := rfl

instance : IsTrans State SameMode where
  trans _ _ _ h₁ h₂ := h₂.trans h₁

theorem Active.mode_geometry (a : Active) : a.geometry.mode = a.mode :=
  rfl

theorem SameGeometry.sameMode {v v' : State} (h : SameGeometry v v') : SameMode v v' := by
  have hgeometry : v'.active.geometry = v.active.geometry := h
  rw [SameMode, ← Active.mode_geometry, hgeometry, Active.mode_geometry]

theorem Same.sameMode {v v' : State} (h : Same v v') : SameMode v v' :=
  h.sameGeometry.sameMode

/-! ## Packets and register writes -/

theorem same_output (o : Output) : Steps Same (output o) :=
  Steps.modify fun _ => rfl

theorem same_submitQwords (packet : List Gif.Qword) : Steps Same (submitQwords dma packet) := by
  refine Steps.bind (Steps.modify fun v => ?_) fun _ => Steps.pure _
  dsimp only
  split
  · split <;> rfl
  · rfl

theorem same_drawTwoVertex (primitive : UInt8) (x0 y0 x1 y1 : Int32) (r g b : UInt8) :
    Steps Same (drawTwoVertex dma primitive x0 y0 x1 y1 r g b) :=
  Steps.bind Steps.get fun _ => Steps.ite (Steps.pure _) (same_submitQwords _)

theorem same_drawRect (x y width height : Int32) (r g b : UInt8) :
    Steps Same (drawRect dma x y width height r g b) :=
  Steps.bind Steps.get fun _ => Steps.ite (Steps.pure _) <| Steps.ite (Steps.pure _) <|
    Steps.ite (Steps.pure _) (same_drawTwoVertex _ _ _ _ _ _ _ _)

theorem same_drawLine (x0 y0 x1 y1 : Int32) (r g b : UInt8) :
    Steps Same (drawLine dma x0 y0 x1 y1 r g b) :=
  Steps.bind Steps.get fun _ => Steps.ite (Steps.pure _) (same_drawTwoVertex _ _ _ _ _ _ _ _)

theorem same_clear (r g b : UInt8) : Steps Same (clear dma r g b) :=
  Steps.bind Steps.get fun _ => Steps.ite (Steps.pure _) (same_drawRect _ _ _ _ _ _ _)

theorem same_waitVsync (csr : ℕ → Bool) (timeout : UInt32) : Steps Same (waitVsync csr timeout) :=
  Steps.bind Steps.get fun _ => Steps.ite (Steps.pure _) <| Steps.bind (same_output _) fun _ =>
    Steps.ite (Steps.pure _) <| Steps.bind (Steps.modify fun _ => rfl) fun _ => Steps.pure _

theorem same_programGs (standard horizontalScale verticalScale : UInt32) (dmaInit : Bool) :
    Steps Same (programGs dma standard horizontalScale verticalScale dmaInit) :=
  Steps.bind (same_output _) fun _ => Steps.bind (same_output _) fun _ =>
    Steps.bind (same_output _) fun _ => Steps.bind (same_output _) fun _ =>
    Steps.bind (same_output _) fun _ => Steps.bind (Steps.modify fun _ => rfl) fun _ =>
    Steps.bind (same_output _) fun _ => Steps.bind (same_output _) fun _ =>
    Steps.bind Steps.get fun _ => Steps.bind (Steps.bind Steps.get fun _ => same_output _) fun _ =>
    Steps.bind (same_output _) fun _ => Steps.bind (same_clear _ _ _) fun _ =>
    Steps.ite (Steps.pure _) <| Steps.bind (same_output _) fun _ => Steps.pure _

/-! ## Textures -/

theorem same_uploadLoop (pixels : ℕ → UInt32) (offset remaining : ℕ) :
    Steps Same (uploadLoop dma pixels offset remaining) := by
  fun_induction uploadLoop dma pixels offset remaining with
  | case1 => exact Steps.pure _
  | case2 offset remaining _ chunk ih =>
    exact Steps.bind (same_submitQwords _) fun _ => Steps.ite (Steps.pure _) <|
      Steps.bind (same_submitQwords _) fun _ => Steps.ite (Steps.pure _) ih

theorem same_uploadImage (destination : UInt16) (destinationWidth psm : UInt8)
    (width height : UInt16) (pixels : ℕ → UInt32) (transferBytes : UInt32) :
    Steps Same
      (uploadImage dma destination destinationWidth psm width height pixels transferBytes) :=
  Steps.ite (Steps.pure _) <| Steps.bind (same_submitQwords _) fun _ =>
    Steps.ite (Steps.pure _) (same_uploadLoop _ _ _)

theorem same_flushTextureCache : Steps Same (flushTextureCache dma) :=
  same_submitQwords _

theorem same_prepareCsm1Clut (palette : ℕ → UInt32) : Steps Same (prepareCsm1Clut palette) :=
  Steps.modify fun _ => rfl

theorem same_drawTextureRegion (texture : Option Texture)
    (sourceX sourceY sourceWidth sourceHeight : UInt16) (x y width height : Int32)
    (r g b a : UInt8) (blend : Bool) :
    Steps Same (drawTextureRegion dma texture sourceX sourceY sourceWidth sourceHeight x y width
      height r g b a blend) := by
  refine Steps.bind Steps.get fun _ => ?_
  split
  · exact Steps.pure _
  · exact Steps.ite (Steps.pure _) <| Steps.ite (Steps.pure _) <|
      Steps.ite (Steps.pure _) (same_submitQwords _)

theorem same_drawTexture (texture : Option Texture) (x y width height : Int32) :
    Steps Same (drawTexture dma texture x y width height) := by
  refine Steps.bind Steps.get fun _ => ?_
  split
  · exact Steps.pure _
  · exact Steps.ite (Steps.pure _) <| Steps.ite (Steps.pure _) (same_submitQwords _)

end EF2SDK.Video
