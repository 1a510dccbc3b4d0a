import EF2SDK.GsMachine
import EF2SDK.VideoDraw

/-!
# The screens of a running driver

Where the two framebuffers are, and which of them is shown and which is drawn to. The framebuffers
lie in the pages from 0 on, one behind the other, and the textures behind them
(`Geometry`). While double buffering is on, the buffer that is drawn to is the one that is not
shown ; while it is off, they are the same (`Roles`). `DISPFB2` names the buffer that is shown.
-/

set_option autoImplicit false

namespace EF2SDK.Video

open Gs

variable {dma : ℕ → Bool} {v v' : State}

/-! ## The geometry -/

/-- The framebuffer of this index. -/
def bufferOf (v : State) (index : UInt32) : FrameBuffer where
  fbp := (frameFbp v index).toNat
  fbw := v.layout.bufferWidth.toNat
  psm := v.layout.gsPsm.toNat

/-- The height of a page of the framebuffers. -/
def rowHeight (v : State) : ℕ :=
  (pageShape v.layout.gsPsm.toNat).2

/-- The number of pages of a framebuffer. -/
def framePages (v : State) : ℕ :=
  v.layout.bufferWidth.toNat * ((v.height.toNat + rowHeight v - 1) / rowHeight v)

/-- Two framebuffers of this size, and the textures behind them. -/
structure Geometry (v : State) : Prop where
  width : v.width.toNat = 64 * v.layout.bufferWidth.toNat
  bufferWidth : 0 < v.layout.bufferWidth.toNat ∧ v.layout.bufferWidth.toNat ≤ 16
  height : 0 < v.height.toNat ∧ v.height.toNat ≤ 512
  psm : v.layout.gsPsm = psmct32 ∨ v.layout.gsPsm = psmct16
  first : (frameFbp v 0).toNat = 0
  second : (frameFbp v 1).toNat = framePages v
  textures : v.textureStart.toNat = 2 * framePages v * 8192
  limit : 2 * framePages v ≤ 512

theorem Geometry.of_sameMode (h : Geometry v) (hsame : SameMode v v') : Geometry v' := by
  have hwidth : v'.width = v.width := congrArg Active.width hsame
  have hheight : v'.height = v.height := congrArg Active.height hsame
  have hlayout : v'.layout = v.layout := congrArg Active.layout hsame
  have hbase : v'.framebufferBase = v.framebufferBase := congrArg Active.framebufferBase hsame
  have hstart : v'.textureStart = v.textureStart := congrArg Active.textureStart hsame
  have hpages : framePages v' = framePages v := by
    rw [framePages, framePages, rowHeight, rowHeight, hlayout, hheight]
  have hfbp (index : UInt32) : frameFbp v' index = frameFbp v index := by
    rw [frameFbp, frameFbp, hbase]
  constructor
  · rw [hwidth, hlayout]
    exact h.width
  · rw [hlayout]
    exact h.bufferWidth
  · rw [hheight]
    exact h.height
  · rw [hlayout]
    exact h.psm
  · rw [hfbp]
    exact h.first
  · rw [hfbp, hpages]
    exact h.second
  · rw [hstart, hpages]
    exact h.textures
  · rw [hpages]
    exact h.limit

theorem sizeValid_dvd {width height defaultHeight : UInt16}
    (h : sizeValid width height defaultHeight = true) : 64 ∣ width.toNat := by
  simp only [sizeValid, Bool.not_eq_true', Bool.or_eq_false_iff, decide_eq_false_iff_not] at h
  obtain ⟨⟨⟨⟨⟨-, hmask⟩, -⟩, -⟩, -⟩, -⟩ := h
  have hbits := congrArg UInt16.toNat (not_not.1 hmask)
  rw [UInt16.toNat_and, show (63 : UInt16).toNat = 2 ^ 6 - 1 from rfl,
    Nat.and_two_pow_sub_one_eq_mod] at hbits
  exact Nat.dvd_of_mod_eq_zero hbits

theorem framebufferSize_toNat {width height defaultHeight pageHeight : UInt16}
    (h : sizeValid width height defaultHeight = true) (hdefault : defaultHeight.toNat ≤ 512)
    (hpage : 32 ≤ pageHeight.toNat) (hpage' : pageHeight.toNat ≤ 64) :
    (framebufferSize width height pageHeight).toNat = width.toNat / 64 *
      ((height.toNat + pageHeight.toNat - 1) / pageHeight.toNat) * 8192 := by
  obtain ⟨⟨-, hwidth⟩, -, hheight⟩ := sizeValid_bounds h
  have hdvd := sizeValid_dvd h
  have hcolumns : ((width.toUInt32 + 63) / 64).toNat = width.toNat / 64 := by
    rw [UInt32.toNat_div, UInt32.toNat_add, UInt16.toNat_toUInt32]
    change (width.toNat + 63) % 2 ^ 32 / 64 = width.toNat / 64
    omega
  have hrows : ((height.toUInt32 + pageHeight.toUInt32 - 1) / pageHeight.toUInt32).toNat =
      (height.toNat + pageHeight.toNat - 1) / pageHeight.toNat := by
    have hsum : (height.toUInt32 + pageHeight.toUInt32 - 1).toNat
        = height.toNat + pageHeight.toNat - 1 := by
      rw [UInt32.toNat_sub, UInt32.toNat_add, UInt16.toNat_toUInt32, UInt16.toNat_toUInt32]
      change (2 ^ 32 - 1 + (height.toNat + pageHeight.toNat) % 2 ^ 32) % 2 ^ 32 = _
      omega
    rw [UInt32.toNat_div, UInt16.toNat_toUInt32, hsum]
  have hpages := Nat.mul_le_mul (show width.toNat / 64 ≤ 16 by omega)
    (show (height.toNat + pageHeight.toNat - 1) / pageHeight.toNat ≤ 18 from
      Nat.div_le_of_le_mul (by omega))
  rw [framebufferSize, UInt32.toNat_mul, UInt32.toNat_mul, hcolumns, hrows]
  change _ % 2 ^ 32 * 8192 % 2 ^ 32 = _
  omega

/-- A successful initialization lays the framebuffers out. -/
theorem geometry_init {config : Option Config} {romver : ℤ × UInt8} {dmaInit : Bool}
    (h : (init dma config romver dmaInit v).1 = 0) :
    Geometry (init dma config romver dmaInit v).2 := by
  obtain ⟨m, hmode, hfits, hactive⟩ := init_ok dma h
  generalize (init dma config romver dmaInit v).2 = w at hactive
  have hwidth : w.width = m.width := congrArg Active.width hactive
  have hheight : w.height = m.height := congrArg Active.height hactive
  have hbufferWidth : w.layout.bufferWidth = (m.width / 64).toUInt8 :=
    congrArg (fun a : Active => a.layout.bufferWidth) hactive
  have hpsm : w.layout.gsPsm = m.psm := congrArg (fun a : Active => a.layout.gsPsm) hactive
  have hbase : w.framebufferBase = (0, m.framebufferBytes) :=
    congrArg Active.framebufferBase hactive
  have hstart : w.textureStart = m.framebufferBytes * 2 := congrArg Active.textureStart hactive
  obtain ⟨hwidths, hheights⟩ := sizeValid_bounds hfits.1
  have hdvd := sizeValid_dvd hfits.1
  have hpicture := picture_height_le m.standard
  obtain ⟨hdouble, hlimit⟩ := framebufferBytes_le hmode hfits
  have hpage : 32 ≤ m.pageHeight.toNat ∧ m.pageHeight.toNat ≤ 64 ∧
      (pageShape m.psm.toNat).2 = m.pageHeight.toNat := by
    rcases format_mem hmode with ⟨hp, hh⟩ | ⟨hp, hh⟩ <;> rw [hp, hh] <;> decide
  have hpages : framePages w = m.width.toNat / 64 *
      ((m.height.toNat + m.pageHeight.toNat - 1) / m.pageHeight.toNat) := by
    rw [framePages, rowHeight, hpsm, hpage.2.2, hheight, hbufferWidth, UInt16.toNat_toUInt8,
      UInt16.toNat_div]
    change m.width.toNat / 64 % 2 ^ 8 * _ = _
    rw [Nat.mod_eq_of_lt (by omega)]
  have hbytes : m.framebufferBytes.toNat = framePages w * 8192 := by
    rw [hpages]
    exact framebufferSize_toNat hfits.1 hpicture hpage.1 hpage.2.1
  have hwidth64 : w.layout.bufferWidth.toNat = m.width.toNat / 64 := by
    rw [hbufferWidth, UInt16.toNat_toUInt8, UInt16.toNat_div]
    change m.width.toNat / 64 % 2 ^ 8 = _
    omega
  constructor
  · rw [hwidth, hwidth64]
    omega
  · rw [hwidth64]
    omega
  · rw [hheight]
    omega
  · rw [hpsm]
    rcases format_mem hmode with ⟨hp, -⟩ | ⟨hp, -⟩
    · exact Or.inl hp
    · exact Or.inr hp
  · rw [frameFbp, hbase, if_pos (by decide)]
    change ((0 : UInt32) / 8192).toUInt16.toNat = 0
    decide
  · rw [frameFbp, hbase, if_neg (by decide), UInt32.toNat_toUInt16, UInt32.toNat_div, hbytes]
    change framePages w * 8192 / 8192 % 2 ^ 16 = framePages w
    omega
  · rw [hstart, hdouble, hbytes]
    omega
  · omega

/-! ## The roles -/

/-- The value of a write to `DISPFB2`. -/
def Output.dispfb : Output → Option UInt64
  | .dispfb2 value => some value
  | _ => none

/-- What `DISPFB2` holds. -/
def State.dispfb (v : State) : Option UInt64 :=
  (v.outputs.filterMap Output.dispfb).getLast?

/-- The value of `DISPFB2` for the buffer of this index. -/
def shows (v : State) (index : UInt32) : UInt64 :=
  packDispfb (frameFbp v index) v.layout.bufferWidth v.layout.gsPsm 0 0

/-- Which buffer is shown and which is drawn to. -/
structure Roles (v : State) : Prop where
  display : v.displayBuffer = 0 ∨ v.displayBuffer = 1
  draw : v.drawBuffer = if v.doubleBuffered then 1 - v.displayBuffer else v.displayBuffer
  dispfb : v.dispfb = some (shows v v.displayBuffer)

theorem shows_congr (h : SameMode v v') (index : UInt32) : shows v' index = shows v index := by
  have hlayout : v'.layout = v.layout := congrArg Active.layout h
  have hbase : v'.framebufferBase = v.framebufferBase := congrArg Active.framebufferBase h
  rw [shows, shows, frameFbp, frameFbp, hlayout, hbase]

/-- A call that does not present keeps the roles where it keeps which buffer is shown. -/
theorem Roles.of_dispfb (h : Roles v) (hmode : SameMode v v') (hdispfb : v'.dispfb = v.dispfb)
    (hdisplay : v'.displayBuffer = v.displayBuffer)
    (hdraw : v'.drawBuffer = if v'.doubleBuffered then 1 - v'.displayBuffer else v'.displayBuffer) :
    Roles v' where
  display := hdisplay ▸ h.display
  draw := hdraw
  dispfb := by rw [hdispfb, h.dispfb, shows_congr hmode, hdisplay]

/-- Nothing is written but packets. -/
def Quiet (v v' : State) : Prop :=
  v'.outputs = v.outputs

instance : Std.Refl Quiet where
  refl _ := rfl

instance : IsTrans State Quiet where
  trans _ _ _ h₁ h₂ := h₂.trans h₁

theorem Roles.of_quiet (h : Roles v) (hquiet : Quiet v v') {f : Active → Active}
    (hf : ∀ a, (f a).displayBuffer = a.displayBuffer ∧ (f a).drawBuffer = a.drawBuffer ∧
      (f a).doubleBuffered = a.doubleBuffered ∧ (f a).mode = a.mode)
    (hactive : v'.active = f v.active) : Roles v' := by
  obtain ⟨hdisplay, hdraw, hdouble, hmode⟩ := hf v.active
  rw [← hactive] at hdisplay hdraw hdouble hmode
  refine h.of_dispfb hmode ?_ hdisplay ?_
  · rw [State.dispfb, hquiet, State.dispfb]
  · rw [show v'.drawBuffer = v.drawBuffer from hdraw,
      show v'.doubleBuffered = v.doubleBuffered from hdouble,
      show v'.displayBuffer = v.displayBuffer from hdisplay]
    exact h.draw

theorem quiet_submitQwords (packet : List Gif.Qword) : Steps Quiet (submitQwords dma packet) := by
  refine Steps.bind (Steps.modify fun v => ?_) fun _ => Steps.pure _
  dsimp only
  split
  · split <;> rfl
  · rfl

theorem quiet_drawTwoVertex (primitive : UInt8) (x0 y0 x1 y1 : Int32) (r g b : UInt8) :
    Steps Quiet (drawTwoVertex dma primitive x0 y0 x1 y1 r g b) :=
  Steps.bind Steps.get fun _ => Steps.ite (Steps.pure _) (quiet_submitQwords _)

theorem quiet_drawRect (x y width height : Int32) (r g b : UInt8) :
    Steps Quiet (drawRect dma x y width height r g b) :=
  Steps.bind Steps.get fun _ => Steps.ite (Steps.pure _) <| Steps.ite (Steps.pure _) <|
    Steps.ite (Steps.pure _) (quiet_drawTwoVertex _ _ _ _ _ _ _ _)

theorem quiet_drawLine (x0 y0 x1 y1 : Int32) (r g b : UInt8) :
    Steps Quiet (drawLine dma x0 y0 x1 y1 r g b) :=
  Steps.bind Steps.get fun _ => Steps.ite (Steps.pure _) (quiet_drawTwoVertex _ _ _ _ _ _ _ _)

theorem quiet_clear (r g b : UInt8) : Steps Quiet (clear dma r g b) :=
  Steps.bind Steps.get fun _ => Steps.ite (Steps.pure _) (quiet_drawRect _ _ _ _ _ _ _)

theorem quiet_uploadLoop (pixels : ℕ → UInt32) (offset remaining : ℕ) :
    Steps Quiet (uploadLoop dma pixels offset remaining) := by
  fun_induction uploadLoop dma pixels offset remaining with
  | case1 => exact Steps.pure _
  | case2 offset remaining _ chunk ih =>
    exact Steps.bind (quiet_submitQwords _) fun _ => Steps.ite (Steps.pure _) <|
      Steps.bind (quiet_submitQwords _) fun _ => Steps.ite (Steps.pure _) ih

theorem quiet_uploadImage (destination : UInt16) (destinationWidth psm : UInt8)
    (width height : UInt16) (pixels : ℕ → UInt32) (transferBytes : UInt32) :
    Steps Quiet
      (uploadImage dma destination destinationWidth psm width height pixels transferBytes) :=
  Steps.ite (Steps.pure _) <| Steps.bind (quiet_submitQwords _) fun _ =>
    Steps.ite (Steps.pure _) (quiet_uploadLoop _ _ _)

/-- An image is transferred, and the upload gives up or goes on. -/
theorem quiet_transfer {x : StateM State ℤ} (hx : Steps Quiet x)
    {error : ℤ × Option Texture} {rest : StateM State (ℤ × Option Texture)}
    (hrest : Steps Quiet rest) :
    Steps Quiet (do
      let sent ← x
      if sent < 0 then
        pure error
      else
        rest) :=
  Steps.bind hx fun _ => Steps.ite (Steps.pure _) hrest

theorem quiet_uploadRgba32 (texture : Option Texture) (pixels : Source) (width height : UInt16) :
    Steps Quiet (uploadRgba32 dma texture pixels width height) :=
  Steps.ite (Steps.pure _) <| Steps.ite (Steps.pure _) <| Steps.ite (Steps.pure _) <|
    Steps.bind Steps.get fun _ => Steps.ite (Steps.pure _) <|
    quiet_transfer (quiet_uploadImage _ _ _ _ _ _ _) <| quiet_transfer (quiet_submitQwords _) <|
    Steps.bind (Steps.modify fun _ => rfl) fun _ => Steps.pure _

theorem quiet_uploadIndexed8 (texture : Option Texture) (indices palette : Source)
    (width height : UInt16) :
    Steps Quiet (uploadIndexed8 dma texture indices palette width height) :=
  Steps.ite (Steps.pure _) <| Steps.ite (Steps.pure _) <| Steps.ite (Steps.pure _) <|
    Steps.bind Steps.get fun _ => Steps.ite (Steps.pure _) <|
    quiet_transfer (quiet_uploadImage _ _ _ _ _ _ _) <|
    Steps.bind (Steps.modify fun _ => rfl) fun _ => Steps.bind Steps.get fun _ =>
    quiet_transfer (quiet_uploadImage _ _ _ _ _ _ _) <| quiet_transfer (quiet_submitQwords _) <|
    Steps.bind (Steps.modify fun _ => rfl) fun _ => Steps.pure _

theorem quiet_uploadIndexed4 (texture : Option Texture) (packedIndices palette : Source)
    (width height : UInt16) :
    Steps Quiet (uploadIndexed4 dma texture packedIndices palette width height) :=
  Steps.ite (Steps.pure _) <| Steps.ite (Steps.pure _) <| Steps.ite (Steps.pure _) <|
    Steps.bind Steps.get fun _ => Steps.ite (Steps.pure _) <|
    quiet_transfer (quiet_uploadImage _ _ _ _ _ _ _) <|
    quiet_transfer (quiet_uploadImage _ _ _ _ _ _ _) <| quiet_transfer (quiet_submitQwords _) <|
    Steps.bind (Steps.modify fun _ => rfl) fun _ => Steps.pure _

theorem quiet_drawTextureRegion (texture : Option Texture)
    (sourceX sourceY sourceWidth sourceHeight : UInt16) (x y width height : Int32)
    (r g b a : UInt8) (blend : Bool) :
    Steps Quiet (drawTextureRegion dma texture sourceX sourceY sourceWidth sourceHeight x y width
      height r g b a blend) := by
  refine Steps.bind Steps.get fun _ => ?_
  split
  · exact Steps.pure _
  · exact Steps.ite (Steps.pure _) <| Steps.ite (Steps.pure _) <|
      Steps.ite (Steps.pure _) (quiet_submitQwords _)

theorem quiet_drawTexture (texture : Option Texture) (x y width height : Int32) :
    Steps Quiet (drawTexture dma texture x y width height) := by
  refine Steps.bind Steps.get fun _ => ?_
  split
  · exact Steps.pure _
  · exact Steps.ite (Steps.pure _) <| Steps.ite (Steps.pure _) (quiet_submitQwords _)

/-! ## Every call -/

/-- The textures are behind the framebuffers, in the GS memory. -/
def CursorWithin (v : State) : Prop :=
  v.textureStart.toNat ≤ v.textureCursor.toNat ∧ v.textureCursor.toNat ≤ 4194304

/-- What holds of a driver that is running. -/
structure Screens (v : State) : Prop where
  geometry : Geometry v
  roles : Roles v
  cursor : CursorWithin v

theorem Roles.of_same (h : Roles v) (hquiet : Quiet v v') (hsame : Same v v') : Roles v' :=
  h.of_quiet (f := id) hquiet (fun _ => ⟨rfl, rfl, rfl, rfl⟩) hsame

theorem CursorWithin.of_same (h : CursorWithin v) (hsame : Same v v') : CursorWithin v' := by
  rw [CursorWithin, hsame.textureStart, hsame.textureCursor]
  exact h

/-- A call that only sends packets. -/
theorem Screens.of_same (h : Screens v) (hquiet : Quiet v v') (hsame : Same v v') : Screens v' :=
  ⟨h.geometry.of_sameMode hsame.sameMode, h.roles.of_same hquiet hsame, h.cursor.of_same hsame⟩

theorem Screens.of_uploaded (h : Screens v) {r : ℤ × Option Texture} (hr : Uploaded v r v')
    (hquiet : Quiet v v') : Screens v' := by
  by_cases hok : r.1 = 0
  · obtain ⟨t, -, hplaced, hactive⟩ := hr.2 hok
    have hmode : SameMode v v' := by
      rw [SameMode, hactive]
      rfl
    have hstart : v'.textureStart = v.textureStart := by
      change v'.active.textureStart = v.textureStart
      rw [hactive]
      rfl
    refine ⟨h.geometry.of_sameMode hmode, ?_, ?_⟩
    · exact h.roles.of_quiet (f := fun a => { a with textureCursor := v'.textureCursor }) hquiet
        (fun _ => ⟨rfl, rfl, rfl, rfl⟩) hactive
    · rw [CursorWithin, hstart]
      exact ⟨Nat.le_trans h.cursor.1 hplaced.packed.le, hplaced.limit⟩
  · exact h.of_same hquiet (hr.1 hok)

theorem Screens.size_ne_zero (h : Screens v) : ¬(v.width = 0 ∨ v.height = 0) := by
  have hwidth := h.geometry.width
  have hbuffer := h.geometry.bufferWidth
  have hheight := h.geometry.height
  rw [← UInt16.toNat_inj, ← UInt16.toNat_inj]
  change ¬(v.width.toNat = 0 ∨ v.height.toNat = 0)
  omega

/-- The driver sees VSINT before `ef2_video_present` gives up. -/
def Seen (csr : ℕ → Bool) : Prop :=
  vsyncLoop csr (0x04000000 : UInt32).toNat 0 = true

instance : DecidablePred Seen := fun _ =>
  inferInstanceAs (Decidable (_ = true))

/-- The VSINT bit of CSR is cleared. -/
def State.cleared (v : State) : State :=
  { v with outputs := v.outputs ++ [.csr ((1 : UInt64) <<< 3)] }

theorem State.cleared_dispfb (v : State) : v.cleared.dispfb = v.dispfb := by
  rw [State.dispfb, State.cleared, List.filterMap_append, State.dispfb]
  exact congrArg List.getLast? (List.append_nil _)

theorem waitVsync_run (hsize : ¬(v.width = 0 ∨ v.height = 0)) (csr : ℕ → Bool)
    (timeout : UInt32) : waitVsync csr timeout v =
      if vsyncLoop csr (if timeout = 0 then 0x04000000 else timeout).toNat 0 = true then
        (0, v.cleared)
      else (-2, { v.cleared with vsyncTimeouts := v.vsyncTimeouts + 1 }) :=
  (ite_run _ _ v).trans <| (if_neg hsize).trans <| (ite_run _ _ v.cleared)

/-- The buffers change their roles. -/
def State.swapped (v : State) : State :=
  { v with
    displayBuffer := v.drawBuffer
    outputs := v.outputs ++ [.dispfb2 (shows v v.drawBuffer)]
    drawBuffer := v.displayBuffer }

theorem State.swapped_dispfb (v : State) : v.swapped.dispfb = some (shows v v.drawBuffer) := by
  rw [State.dispfb, State.swapped, List.filterMap_append]
  exact List.getLast?_concat

theorem present_run (hsize : ¬(v.width = 0 ∨ v.height = 0)) (csr : ℕ → Bool) : present csr v =
    if Seen csr then
      if v.doubleBuffered = true then
        (0, { v.cleared.swapped with presentCount := v.presentCount + 1 })
      else (0, { v.cleared with presentCount := v.presentCount + 1 })
    else (-2, { v.cleared with vsyncTimeouts := v.vsyncTimeouts + 1 }) := by
  have hrun : present csr v = _ := (ite_run _ _ v).trans (if_neg hsize)
  rw [hrun, bind_apply, waitVsync_run hsize]
  by_cases hseen : Seen csr
  · have hloop : vsyncLoop csr (if (0 : UInt32) = 0 then 0x04000000 else (0 : UInt32)).toNat 0 =
      true := hseen
    rw [if_pos hseen, if_pos hloop]
    refine (ite_run _ _ v.cleared).trans <| (if_neg (show ¬(0 : ℤ) < 0 by decide)).trans ?_
    refine (ite_run _ _ v.cleared).trans (if_congr Iff.rfl ?_ ?_)
    · rfl
    · rfl
  · have hloop : ¬vsyncLoop csr (if (0 : UInt32) = 0 then 0x04000000 else (0 : UInt32)).toNat 0 =
      true := hseen
    rw [if_neg hseen, if_neg hloop]
    exact (ite_run _ _ _).trans (if_pos (show (-2 : ℤ) < 0 by decide))

theorem Roles.cleared (h : Roles v) : Roles v.cleared :=
  ⟨h.display, h.draw, v.cleared_dispfb.trans h.dispfb⟩

theorem Roles.swapped (h : Roles v) (hdouble : v.doubleBuffered = true) : Roles v.swapped := by
  have hdraw := h.draw
  rw [if_pos hdouble] at hdraw
  have hroles : (v.drawBuffer = 0 ∨ v.drawBuffer = 1) ∧ v.displayBuffer = 1 - v.drawBuffer := by
    rcases h.display with hdisplay | hdisplay
    · rw [hdraw, hdisplay]
      decide
    · rw [hdraw, hdisplay]
      decide
  exact ⟨hroles.1, hroles.2.trans (if_pos hdouble).symm, v.swapped_dispfb⟩

theorem Screens.present (h : Screens v) (csr : ℕ → Bool) : Screens (present csr v).2 := by
  have hmode : SameMode v (Video.present csr v).2 := (sameGeometry_present csr v).sameMode
  have hcursor : CursorWithin (Video.present csr v).2 ∧ Roles (Video.present csr v).2 := by
    rw [present_run h.size_ne_zero csr]
    split
    · split
      next hseen hdouble =>
        obtain ⟨hdisplay, hdraw, hdispfb⟩ := h.roles.cleared.swapped hdouble
        exact ⟨h.cursor, hdisplay, hdraw, hdispfb⟩
      next =>
        obtain ⟨hdisplay, hdraw, hdispfb⟩ := h.roles.cleared
        exact ⟨h.cursor, hdisplay, hdraw, hdispfb⟩
    · obtain ⟨hdisplay, hdraw, hdispfb⟩ := h.roles.cleared
      exact ⟨h.cursor, hdisplay, hdraw, hdispfb⟩
  exact ⟨h.geometry.of_sameMode hmode, hcursor.2, hcursor.1⟩

theorem Screens.setDoubleBuffering (h : Screens v) (enabled : UInt32) :
    Screens (setDoubleBuffering enabled v).2 := by
  have hmode := (sameGeometry_setDoubleBuffering enabled v).sameMode
  have hroles : CursorWithin (Video.setDoubleBuffering enabled v).2 ∧
      Roles (Video.setDoubleBuffering enabled v).2 := by
    rw [Video.setDoubleBuffering, if_neg h.size_ne_zero]
    split
    · split
      · exact ⟨h.cursor, h.roles.display, rfl, h.roles.dispfb⟩
      · exact ⟨h.cursor, h.roles⟩
    · exact ⟨h.cursor, h.roles.display, rfl, h.roles.dispfb⟩
  exact ⟨h.geometry.of_sameMode hmode, hroles.2, hroles.1⟩

theorem Screens.waitVsync (h : Screens v) (csr : ℕ → Bool) (timeout : UInt32) :
    Screens (waitVsync csr timeout v).2 := by
  have hroles : CursorWithin (Video.waitVsync csr timeout v).2 ∧
      Roles (Video.waitVsync csr timeout v).2 := by
    rw [waitVsync_run h.size_ne_zero]
    generalize (if timeout = 0 then (0x04000000 : UInt32) else timeout).toNat = rounds
    obtain ⟨hdisplay, hdraw, hdispfb⟩ := h.roles.cleared
    split
    · exact ⟨h.cursor, hdisplay, hdraw, hdispfb⟩
    · exact ⟨h.cursor, hdisplay, hdraw, hdispfb⟩
  exact ⟨h.geometry.of_sameMode (same_waitVsync csr timeout v).sameMode, hroles.2, hroles.1⟩

theorem Screens.setBackground (h : Screens v) (r g b : UInt8) :
    Screens (setBackground r g b v).2 := by
  have hdispfb : (Video.setBackground r g b v).2.dispfb = v.dispfb := by
    refine (congrArg List.getLast? List.filterMap_append).trans ?_
    exact congrArg List.getLast? (List.append_nil _)
  exact ⟨h.geometry.of_sameMode rfl, ⟨h.roles.display, h.roles.draw, hdispfb.trans h.roles.dispfb⟩,
    h.cursor⟩

theorem Screens.resetTextureAllocator (h : Screens v) : Screens (resetTextureAllocator v).2 :=
  ⟨h.geometry.of_sameMode rfl, ⟨h.roles.display, h.roles.draw, h.roles.dispfb⟩, Nat.le_refl _,
    Nat.le_trans h.cursor.1 h.cursor.2⟩

/-- Every call but `ef2_video_init` keeps the screens. -/
theorem Screens.exec (h : Screens v) {c : Call} (hc : c.Ordinary) : Screens (c.exec dma v) := by
  cases c with
  | init config romver dmaInit => exact absurd rfl (hc config romver dmaInit)
  | setBackground r g b => exact h.setBackground r g b
  | setDoubleBuffering enabled => exact h.setDoubleBuffering enabled
  | waitVsync csr timeout => exact h.waitVsync csr timeout
  | present csr => exact h.present csr
  | drawRect => exact h.of_same (quiet_drawRect _ _ _ _ _ _ _ v) (same_drawRect _ _ _ _ _ _ _ v)
  | drawLine => exact h.of_same (quiet_drawLine _ _ _ _ _ _ _ v) (same_drawLine _ _ _ _ _ _ _ v)
  | clear => exact h.of_same (quiet_clear _ _ _ v) (same_clear _ _ _ v)
  | resetTextureAllocator => exact h.resetTextureAllocator
  | uploadRgba32 =>
    exact h.of_uploaded (uploadRgba32_uploaded h.cursor.2 _ _ _ _ v (refl_of Same v))
      (quiet_uploadRgba32 _ _ _ _ v)
  | uploadIndexed8 =>
    exact h.of_uploaded (uploadIndexed8_uploaded h.cursor.2 _ _ _ _ _ v (refl_of Same v))
      (quiet_uploadIndexed8 _ _ _ _ _ v)
  | uploadIndexed4 =>
    exact h.of_uploaded (uploadIndexed4_uploaded h.cursor.2 _ _ _ _ _ v (refl_of Same v))
      (quiet_uploadIndexed4 _ _ _ _ _ v)
  | drawTextureRegion =>
    exact h.of_same (quiet_drawTextureRegion _ _ _ _ _ _ _ _ _ _ _ _ _ _ v)
      (same_drawTextureRegion _ _ _ _ _ _ _ _ _ _ _ _ _ _ v)
  | drawTexture =>
    exact h.of_same (quiet_drawTexture _ _ _ _ _ v) (same_drawTexture _ _ _ _ _ v)

/-! ## The beginning -/

/-- `DISPFB2` holds this. -/
def Holds (value : UInt64) (v : State) : Prop :=
  v.dispfb = some value

theorem holds_output {value : UInt64} {o : Output} (h : o.dispfb = none) :
    Triple (Holds value) (output o) fun _ => Holds value := by
  refine Triple.modify fun v hv => ?_
  rw [Holds, State.dispfb, List.filterMap_append, List.filterMap_cons_none h]
  exact (congrArg List.getLast? (List.append_nil _)).trans hv

theorem holds_programDisplayBuffer (index : UInt32) :
    Triple (Same v) (programDisplayBuffer index) fun _ => Holds (shows v index) := by
  intro w hw
  have hshows := shows_congr hw.sameMode index
  rw [← hshows]
  exact (congrArg List.getLast? List.filterMap_append).trans List.getLast?_concat

theorem holds_clear {value : UInt64} (r g b : UInt8) :
    Triple (Holds value) (clear dma r g b) fun _ => Holds value := by
  intro v hv
  have hquiet : Quiet v (clear dma r g b v).2 := quiet_clear r g b v
  rw [Holds, State.dispfb, hquiet]
  exact hv

variable (dma) in
theorem holds_programGs (standard horizontalScale verticalScale : UInt32) (dmaInit : Bool)
    (v : State) :
    Holds (shows v v.displayBuffer)
      (programGs dma standard horizontalScale verticalScale dmaInit v).2 := by
  have hsame (o : Output) : Triple (Same v) (output o) fun _ => Same v := (same_output o).triple v
  have hdisplay {w : State} (hw : Same v w) : Triple (Same v) (programDisplayBuffer w.displayBuffer)
      fun _ => Holds (shows v v.displayBuffer) := by
    rw [show w.displayBuffer = v.displayBuffer from congrArg Active.displayBuffer hw]
    exact holds_programDisplayBuffer _
  have hprogram : Triple (Same v) (programGs dma standard horizontalScale verticalScale dmaInit)
      fun _ => Holds (shows v v.displayBuffer) :=
    Triple.bind _ (hsame _) fun _ => Triple.bind _ (hsame _) fun _ => Triple.bind _ (hsame _)
      fun _ => Triple.bind _ (hsame _) fun _ => Triple.bind _ (hsame _) fun _ =>
      Triple.bind (fun _ => Same v) (Triple.modify fun _ h => h) fun _ =>
      Triple.bind _ (hsame _) fun _ => Triple.bind _ (hsame _) fun _ =>
      Triple.bind _ triple_get fun w => Triple.of_and fun hw =>
      Triple.bind _ (hdisplay hw) fun _ =>
      Triple.bind _ (holds_output rfl) fun _ => Triple.bind _ (holds_clear _ _ _) fun _ =>
      Triple.ite (fun _ => Triple.pure fun _ h => h) fun _ =>
      Triple.bind _ (holds_output rfl) fun _ => Triple.pure fun _ h => h
  exact hprogram v (refl_of Same v)

theorem screens_init {config : Option Config} {romver : ℤ × UInt8} {dmaInit : Bool}
    (h : (init dma config romver dmaInit v).1 = 0) :
    Screens (init dma config romver dmaInit v).2 := by
  obtain ⟨m, hmode, hfits, hactive⟩ := init_ok dma h
  have hholds := holds_programGs dma m.standard m.horizontalScale m.verticalScale dmaInit
    (activate m.config m.standard m.framebufferBytes m.psm (m.resize v))
  rw [← init_eq_of_fits dma hmode hfits] at hholds
  have hgeometry := geometry_init h
  generalize (init dma config romver dmaInit v).2 = w at hactive hholds hgeometry
  have hdisplay : w.displayBuffer = 0 := congrArg Active.displayBuffer hactive
  have hdraw : w.drawBuffer = 0 := congrArg Active.drawBuffer hactive
  have hdouble : w.doubleBuffered = false := congrArg Active.doubleBuffered hactive
  have hcursor : w.textureCursor = w.textureStart :=
    (congrArg Active.textureCursor hactive).trans (congrArg Active.textureStart hactive).symm
  refine ⟨hgeometry, ⟨Or.inl hdisplay, ?_, ?_⟩, ?_⟩
  · rw [hdraw, hdouble, hdisplay]
    rfl
  · rw [hdisplay]
    have hsame : Same (activate m.config m.standard m.framebufferBytes m.psm (m.resize v)) w :=
      hactive
    rw [shows_congr hsame.sameMode]
    exact hholds
  · have htextures := hgeometry.textures
    have hlimit := hgeometry.limit
    rw [CursorWithin, hcursor]
    omega

theorem Screens.run (h : Screens v) {calls : List Call} (hcalls : ∀ c ∈ calls, c.Ordinary) :
    Screens (calls.foldl (Call.exec dma) v) := by
  induction calls generalizing v with
  | nil => exact h
  | cons c calls ih =>
    obtain ⟨hc, hcalls⟩ := List.forall_mem_cons.1 hcalls
    exact ih (h.exec hc) hcalls

theorem Running.screens (h : Running dma v) : Screens v := by
  obtain ⟨config, romver, dmaInit, u, calls, hinit, hcalls, rfl⟩ := h
  exact (screens_init hinit).run hcalls

end EF2SDK.Video
