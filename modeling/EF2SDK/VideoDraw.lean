import EF2SDK.Areas
import EF2SDK.GsPackets
import EF2SDK.VideoVram

/-!
# What drawing emits

The packets of the drawing functions, read as the GS reads them. `ef2_video_draw_rect` draws
the part of a rectangle that is on the screen, and the two functions for textures draw
only what is on the screen as a whole. All three add a width and a height to a position in 32
bits, and test the sum before anything else bounds it : a sum of `2^31` or more turns
negative, so a rectangle that reaches that far is not drawn at all (`drawRect_visible_iff`),
and a texture is taken for one that fits (`drawTexture_onScreen_iff`).
-/

set_option autoImplicit false

namespace EF2SDK.Video

open Gif (Qword)
open Gs

variable {dma : ℕ → Bool} {v : State} {x y width height : Int32}

/-! ## Signed coordinates -/

theorem toInt_eq_bmod (x : Int32) : x.toInt = (x.toUInt32.toNat : ℤ).bmod (2 ^ 32) := by
  rw [← Int32.toInt_toBitVec, BitVec.toInt_eq_toNat_bmod, Int32.toNat_toBitVec]

theorem toInt_screen (size : UInt16) : (screen size).toInt = size.toNat := by
  have h := size.toNat_lt
  rw [toInt_eq_bmod, screen, UInt32.toUInt32_toInt32, UInt16.toNat_toUInt32]
  exact Int.bmod_eq_of_le (by omega) (by omega)

theorem screen_lt_iff {size : UInt16} : screen size < x ↔ (size.toNat : ℤ) < x.toInt := by
  rw [Int32.lt_iff_toInt_lt, toInt_screen]

theorem screen_le_iff {size : UInt16} : screen size ≤ x ↔ (size.toNat : ℤ) ≤ x.toInt := by
  rw [Int32.le_iff_toInt_le, toInt_screen]

theorem lt_zero_iff : x < 0 ↔ x.toInt < 0 :=
  Int32.lt_iff_toInt_lt

theorem le_zero_iff : x ≤ 0 ↔ x.toInt ≤ 0 :=
  Int32.le_iff_toInt_le

theorem toInt_clamp (value : Int32) (size : UInt16) :
    (clamp value 0 (screen size)).toInt = max 0 (min value.toInt size.toNat) := by
  have hzero : (0 : Int32).toInt = 0 := rfl
  rw [clamp]
  split_ifs with hlo hhi
  · rw [lt_zero_iff] at hlo
    omega
  · rw [screen_lt_iff] at hhi
    rw [toInt_screen]
    omega
  · rw [lt_zero_iff] at hlo
    rw [screen_lt_iff] at hhi
    omega

/-- The 32-bit sum of a position and a size. -/
theorem toInt_add_size (h : 0 < width.toInt) : (x + width).toInt =
    if x.toInt + width.toInt < 2 ^ 31 then x.toInt + width.toInt
    else x.toInt + width.toInt - 2 ^ 32 := by
  have hx := x.toInt_lt
  have hx' := x.le_toInt
  have hwidth := width.toInt_lt
  rw [Int32.toInt_add, Int.bmod]
  split_ifs <;> omega

theorem toNat_subpixels (x : Int32) : ((subpixels x).toNat : ℤ) = 16 * x.toInt % 2 ^ 16 := by
  have hx := x.toUInt32.toNat_lt
  have hshift : (subpixels x).toNat = x.toUInt32.toNat * 16 % 2 ^ 16 := by
    rw [subpixels, UInt32.toNat_toUInt16, UInt32.toNat_shiftLeft, Nat.shiftLeft_eq]
    change x.toUInt32.toNat * 16 % 2 ^ 32 % 2 ^ 16 = _
    omega
  rw [hshift, toInt_eq_bmod, Int.bmod]
  split <;> omega

/-! ## The screen -/

/-- A call other than `ef2_video_init`. -/
def Call.Ordinary (c : Call) : Prop :=
  ∀ config romver dmaInit, c ≠ .init config romver dmaInit

/-- The driver has been initialized, and other calls have been made since. -/
def Running (dma : ℕ → Bool) (v : State) : Prop :=
  ∃ (config : Option Config) (romver : ℤ × UInt8) (dmaInit : Bool) (u : State) (calls : List Call),
    (init dma config romver dmaInit u).1 = 0 ∧ (∀ c ∈ calls, c.Ordinary) ∧
      calls.foldl (Call.exec dma) (init dma config romver dmaInit u).2 = v

theorem sameMode_calls {calls : List Call} (h : ∀ c ∈ calls, c.Ordinary) (v : State) :
    SameMode v (calls.foldl (Call.exec dma) v) := by
  induction calls generalizing v with
  | nil => exact refl_of SameMode v
  | cons c calls ih =>
    obtain ⟨hc, hcalls⟩ := List.forall_mem_cons.1 h
    exact trans_of SameMode (sameMode_exec hc v) (ih hcalls _)

/-- The screen of a running driver, and what its registers are given of it. -/
structure Fitted (v : State) : Prop where
  width : 160 ≤ v.width.toNat ∧ v.width.toNat ≤ 1024
  height : 0 < v.height.toNat ∧ v.height.toNat ≤ 512
  fbp : (drawFbp v).toNat < 2 ^ 9
  bufferWidth : v.layout.bufferWidth.toNat < 2 ^ 6
  psm : v.layout.gsPsm.toNat < 2 ^ 6

/-- Both framebuffers begin at a page that the registers can hold. -/
theorem frameFbp_lt {bytes : UInt32} (hbase : v.framebufferBase = (0, bytes))
    (hbytes : bytes.toNat < 2 ^ 22) (index : UInt32) : (frameFbp v index).toNat < 2 ^ 9 := by
  have hpage {base : UInt32} (h : base.toNat < 2 ^ 22) : (base / 8192).toUInt16.toNat < 2 ^ 9 := by
    rw [UInt32.toNat_toUInt16, UInt32.toNat_div]
    change base.toNat / 8192 % 2 ^ 16 < 2 ^ 9
    omega
  rw [frameFbp, hbase]
  split
  · exact hpage (show (0 : UInt32).toNat < 2 ^ 22 by decide)
  · exact hpage hbytes

theorem Running.fitted (h : Running dma v) : Fitted v := by
  obtain ⟨config, romver, dmaInit, u, calls, hinit, hcalls, rfl⟩ := h
  obtain ⟨m, hmode, hfits, hactive⟩ := init_ok dma hinit
  generalize hv : calls.foldl (Call.exec dma) (init dma config romver dmaInit u).2 = v
  have hsame : v.active.mode =
      (activate m.config m.standard m.framebufferBytes m.psm (m.resize u)).active.mode :=
    hv ▸ (sameMode_calls hcalls _).trans (congrArg Active.mode hactive)
  have hwidth : v.width = m.width := congrArg Active.width hsame
  have hheight : v.height = m.height := congrArg Active.height hsame
  have hlayout : v.layout.bufferWidth = (m.width / 64).toUInt8 ∧ v.layout.gsPsm = m.psm :=
    ⟨congrArg (fun a : Active => a.layout.bufferWidth) hsame,
      congrArg (fun a : Active => a.layout.gsPsm) hsame⟩
  have hbase : v.framebufferBase = (0, m.framebufferBytes) :=
    congrArg Active.framebufferBase hsame
  obtain ⟨hwidths, hheights⟩ := sizeValid_bounds hfits.1
  have hpicture := picture_height_le m.standard
  obtain ⟨hdouble, hlimit⟩ := framebufferBytes_le hmode hfits
  refine ⟨hwidth ▸ hwidths, hheight ▸ ⟨hheights.1, Nat.le_trans hheights.2 hpicture⟩, ?_, ?_, ?_⟩
  · exact frameFbp_lt hbase (by omega) v.drawBuffer
  · rw [hlayout.1, UInt16.toNat_toUInt8, UInt16.toNat_div]
    change m.width.toNat / 64 % 2 ^ 8 < 2 ^ 6
    omega
  · rw [hlayout.2]
    rcases format_mem hmode with ⟨hpsm, -⟩ | ⟨hpsm, -⟩ <;> rw [hpsm] <;> decide

/-! ## Sprites -/

theorem submitQwords_submitted (packet : List Qword) (v : State) :
    (submitQwords dma packet v).2.submitted = v.submitted ++ packet := by
  change (ite _ (ite _ _ _) _ : State).submitted = _
  split
  · split <;> rfl
  · rfl

/-- A call has emitted one packet, of this kind. -/
def Emits (v v' : State) (kind : List Qword → Prop) : Prop :=
  ∃ packet, v'.submitted = v.submitted ++ packet ∧ kind packet

theorem emits_submitQwords_iff {packet : List Qword} {kind : List Qword → Prop} :
    Emits v (submitQwords dma packet v).2 kind ↔ kind packet := by
  constructor
  · rintro ⟨packet', hpacket, hkind⟩
    rw [submitQwords_submitted, List.append_cancel_left_eq] at hpacket
    exact hpacket ▸ hkind
  · exact fun hkind => ⟨packet, submitQwords_submitted packet v, hkind⟩

/-- The packet draws one sprite, and its two vertices are the corners of the area. -/
def IsSprite (a : Area) (packet : List Qword) : Prop :=
  (∃ attributes, writesTo addrPrim packet = some [primSprite.toNat :: attributes]) ∧
    writesTo addrXyz2 packet = some [[(16 * a.left).toNat, (16 * a.top).toNat, 0],
      [(16 * a.right).toNat, (16 * a.bottom).toNat, 0]]

/-- A packet without a tag is no sprite. -/
theorem not_emits_sprite {v v' : State} {a : Area} (h : v'.submitted = v.submitted) :
    ¬Emits v v' (IsSprite a) := by
  rintro ⟨packet, hpacket, ⟨attributes, hprim⟩, -⟩
  rw [h, List.self_eq_append_right] at hpacket
  rw [hpacket] at hprim
  exact absurd hprim (by simp [writesTo, registerWrites])

/-- A vertex inside the largest screen. -/
theorem vertex_fields {p q : ℤ} (hx : x.toInt = p) (hy : y.toInt = q) (hp : 0 ≤ p ∧ p ≤ 1024)
    (hq : 0 ≤ q ∧ q ≤ 1024) :
    BitFields.fields xyzLayout (packXyz (subpixels x) (subpixels y) 0) =
      [(16 * p).toNat, (16 * q).toNat, 0] := by
  have hxs := toNat_subpixels x
  have hys := toNat_subpixels y
  have hxp : (subpixels x).toNat = (16 * p).toNat := by omega
  have hyq : (subpixels y).toNat = (16 * q).toNat := by omega
  rw [packXyz_fields, hxp, hyq]
  rfl

/-- The area lies on the screen, and is not empty. -/
structure OnScreen (v : State) (a : Area) : Prop where
  columns : 0 ≤ a.left ∧ a.left < a.right ∧ a.right ≤ v.width.toNat
  rows : 0 ≤ a.top ∧ a.top < a.bottom ∧ a.bottom ≤ v.height.toNat

theorem clamp_toInt {size : UInt16} (hlo : 0 ≤ x.toInt) (hhi : x.toInt ≤ size.toNat) :
    (clamp x 0 (screen size)).toInt = x.toInt := by
  rw [toInt_clamp]
  omega

theorem drawTwoVertex_sprite (hv : Fitted v) {a : Area} (ha : OnScreen v a) {x0 y0 x1 y1 : Int32}
    (hleft : x0.toInt = a.left) (htop : y0.toInt = a.top) (hright : x1.toInt = a.right)
    (hbottom : y1.toInt = a.bottom) (r g b : UInt8) :
    Emits v (drawTwoVertex dma primSprite x0 y0 x1 y1 r g b v).2 (IsSprite a) := by
  have hwidth := hv.width
  have hheight := hv.height
  have hcolumns := ha.columns
  have hrows := ha.rows
  have hx0 : (clamp x0 0 (screen v.width)).toInt = a.left :=
    (clamp_toInt (by omega) (by omega)).trans hleft
  have hy0 : (clamp y0 0 (screen v.height)).toInt = a.top :=
    (clamp_toInt (by omega) (by omega)).trans htop
  have hx1 : (clamp x1 0 (screen v.width)).toInt = a.right :=
    (clamp_toInt (by omega) (by omega)).trans hright
  have hy1 : (clamp y1 0 (screen v.height)).toInt = a.bottom :=
    (clamp_toInt (by omega) (by omega)).trans hbottom
  have hsize : ¬(v.width = 0 ∨ v.height = 0) := by
    rw [← UInt16.toNat_inj, ← UInt16.toNat_inj]
    change ¬(v.width.toNat = 0 ∨ v.height.toNat = 0)
    omega
  have hrun : drawTwoVertex dma primSprite x0 y0 x1 y1 r g b v = _ :=
    (ite_run _ _ v).trans (if_neg hsize)
  rw [hrun]
  refine ⟨_, submitQwords_submitted _ v, ⟨⟨[0, 0, 0, 0, 0, 0, 0, 0], ?_⟩, ?_⟩⟩
  · rw [writesTo, registerWrites_adTag rfl (by decide)]
    change some [BitFields.fields primLayout (packPrim primSprite)] = _
    rw [packPrim_eq, packPrimEx_fields]
    rfl
  · rw [writesTo, registerWrites_adTag rfl (by decide)]
    change some [BitFields.fields xyzLayout (packXyz _ _ 0),
      BitFields.fields xyzLayout (packXyz _ _ 0)] = _
    rw [vertex_fields hx0 hy0 (by omega) (by omega), vertex_fields hx1 hy1 (by omega) (by omega)]

/-! ## Rectangles -/

/-- The area that a call asks for. -/
def asked (x y width height : Int32) : Area where
  left := x.toInt
  top := y.toInt
  right := x.toInt + width.toInt
  bottom := y.toInt + height.toInt

/-- The area of the screen. -/
def screenArea (v : State) : Area where
  left := 0
  top := 0
  right := v.width.toNat
  bottom := v.height.toNat

/-- The part of the area that is on the screen. -/
def visible (v : State) (x y width height : Int32) : Area :=
  (asked x y width height).inter (screenArea v)

/-- The right or the lower edge is out of range for 32 bits. -/
def Wraps (x y width height : Int32) : Prop :=
  2 ^ 31 ≤ x.toInt + width.toInt ∨ 2 ^ 31 ≤ y.toInt + height.toInt

instance (x y width height : Int32) : Decidable (Wraps x y width height) :=
  inferInstanceAs (Decidable (_ ∨ _))

/-- `ef2_video_draw_rect` draws what is visible, as one sprite, and nothing else. -/
def DrawsVisible (dma : ℕ → Bool) (v : State) (x y width height : Int32) (r g b : UInt8) : Prop :=
  let a := visible v x y width height
  let call := drawRect dma x y width height r g b v
  (a.points.Nonempty → Emits v call.2 (IsSprite a)) ∧
    (¬a.points.Nonempty → call.1 = 0 ∧ call.2.submitted = v.submitted)

theorem visible_nonempty_iff (v : State) (x y width height : Int32) :
    (visible v x y width height).points.Nonempty ↔
      (max x.toInt 0 < min (x.toInt + width.toInt) v.width.toNat) ∧
        max y.toInt 0 < min (y.toInt + height.toInt) v.height.toNat :=
  Area.points_nonempty_iff

theorem pos_iff : 0 < x ↔ 0 < x.toInt :=
  Int32.lt_iff_toInt_lt

theorem drawRect_hidden (hv : Fitted v) (hwidth : 0 < width.toInt) (hheight : 0 < height.toInt)
    (h : ¬(visible v x y width height).points.Nonempty ∨ Wraps x y width height) (r g b : UInt8) :
    drawRect dma x y width height r g b v = (0, v) := by
  have hsize : ¬(width ≤ 0 ∨ height ≤ 0) := by
    rw [le_zero_iff, le_zero_iff]
    omega
  have hout : screen v.width ≤ x ∨ screen v.height ≤ y ∨ x + width ≤ 0 ∨ y + height ≤ 0 := by
    rw [screen_le_iff, screen_le_iff, le_zero_iff, le_zero_iff, toInt_add_size hwidth,
      toInt_add_size hheight]
    rw [visible_nonempty_iff, Wraps] at h
    have hxlt := x.toInt_lt
    have hylt := y.toInt_lt
    have hwlt := width.toInt_lt
    have hhlt := height.toInt_lt
    have hcolumns := hv.width
    have hrows := hv.height
    split <;> split <;> omega
  refine (ite_run _ _ v).trans ((if_neg hsize).trans ?_)
  exact (ite_run _ _ v).trans (if_pos hout)

theorem drawRect_sprite (hv : Fitted v) (hwidth : 0 < width.toInt) (hheight : 0 < height.toInt)
    (h : (visible v x y width height).points.Nonempty) (hwraps : ¬Wraps x y width height)
    (r g b : UInt8) :
    Emits v (drawRect dma x y width height r g b v).2 (IsSprite (visible v x y width height)) := by
  have hsize : ¬(width ≤ 0 ∨ height ≤ 0) := by
    rw [le_zero_iff, le_zero_iff]
    omega
  rw [visible_nonempty_iff] at h
  rw [Wraps, not_or, not_le, not_le] at hwraps
  have hright := (toInt_add_size (x := x) hwidth).trans (if_pos hwraps.1)
  have hbottom := (toInt_add_size (x := y) hheight).trans (if_pos hwraps.2)
  have hout : ¬(screen v.width ≤ x ∨ screen v.height ≤ y ∨ x + width ≤ 0 ∨ y + height ≤ 0) := by
    rw [screen_le_iff, screen_le_iff, le_zero_iff, le_zero_iff, hright, hbottom]
    omega
  have hempty : ¬(clamp (x + width) 0 (screen v.width) ≤ clamp x 0 (screen v.width) ∨
      clamp (y + height) 0 (screen v.height) ≤ clamp y 0 (screen v.height)) := by
    simp only [Int32.le_iff_toInt_le, toInt_clamp, hright, hbottom]
    omega
  have hrun : drawRect dma x y width height r g b v = _ :=
    (ite_run _ _ v).trans <| (if_neg hsize).trans <| (ite_run _ _ v).trans <|
      (if_neg hout).trans <| (ite_run _ _ v).trans (if_neg hempty)
  rw [hrun]
  refine drawTwoVertex_sprite hv ⟨?_, ?_⟩ ?_ ?_ ?_ ?_ r g b
  · simp only [visible, asked, screenArea, Area.inter]
    omega
  · simp only [visible, asked, screenArea, Area.inter]
    omega
  · simp only [toInt_clamp, visible, asked, screenArea, Area.inter]
    omega
  · simp only [toInt_clamp, visible, asked, screenArea, Area.inter]
    omega
  · simp only [toInt_clamp, hright, visible, asked, screenArea, Area.inter]
    omega
  · simp only [toInt_clamp, hbottom, visible, asked, screenArea, Area.inter]
    omega

/-- A running driver draws the visible part of a rectangle exactly when there is none, or both
its right and its lower edge are in range for 32 bits. -/
theorem drawRect_visible_iff (hv : Running dma v) (hwidth : 0 < width) (hheight : 0 < height)
    (r g b : UInt8) :
    DrawsVisible dma v x y width height r g b ↔
      ¬((visible v x y width height).points.Nonempty ∧ Wraps x y width height) := by
  rw [pos_iff] at hwidth hheight
  constructor
  · rintro ⟨hdraws, -⟩ ⟨hvisible, hwraps⟩
    refine not_emits_sprite ?_ (hdraws hvisible)
    rw [drawRect_hidden hv.fitted hwidth hheight (Or.inr hwraps)]
  · intro h
    refine ⟨fun hvisible => ?_, fun hempty => ?_⟩
    · exact drawRect_sprite hv.fitted hwidth hheight hvisible (fun hwraps => h ⟨hvisible, hwraps⟩)
        r g b
    · rw [drawRect_hidden hv.fitted hwidth hheight (Or.inl hempty) r g b]
      exact ⟨rfl, rfl⟩

/-- The driver after its initialization with 640 by 448 pixels. -/
def standardVideo : State :=
  (init (fun _ => true) (some standardConfig) (0, 0) true boot).2

theorem running_standard : Running (fun _ => true) standardVideo :=
  ⟨some standardConfig, (0, 0), true, boot, [], by decide +kernel, by simp, rfl⟩

/-- Across the right and the lower edge of the screen. -/
theorem drawRect_visible_iff_corner :
    visible standardVideo 600 400 100 100 = ⟨600, 400, 640, 448⟩ ∧
      (DrawsVisible (fun _ => true) standardVideo 600 400 100 100 255 0 0 ↔
        ¬((visible standardVideo 600 400 100 100).points.Nonempty ∧ Wraps 600 400 100 100)) :=
  ⟨by decide +kernel, drawRect_visible_iff running_standard (by decide) (by decide) 255 0 0⟩

/-- From the second column on, the widest rectangle is not drawn. -/
theorem widest_not_drawn :
    Running (fun _ => true) standardVideo ∧
      visible standardVideo 1 0 2147483647 1 = ⟨1, 0, 640, 1⟩ ∧
      (drawRect (fun _ => true) 1 0 2147483647 1 255 0 0 standardVideo).2.submitted =
        standardVideo.submitted ∧
      ¬DrawsVisible (fun _ => true) standardVideo 1 0 2147483647 1 255 0 0 := by
  have harea : visible standardVideo 1 0 2147483647 1 = ⟨1, 0, 640, 1⟩ := by decide +kernel
  have hhidden : drawRect (fun _ => true) 1 0 2147483647 1 255 0 0 standardVideo =
      (0, standardVideo) :=
    drawRect_hidden running_standard.fitted (by decide) (by decide) (Or.inr (by decide)) 255 0 0
  have hsubmitted := congrArg (fun call => call.2.submitted) hhidden
  refine ⟨running_standard, harea, hsubmitted, fun hdraws => ?_⟩
  refine not_emits_sprite hsubmitted (hdraws.1 ?_)
  rw [harea, Area.points_nonempty_iff]
  exact ⟨by decide, by decide⟩

end EF2SDK.Video
