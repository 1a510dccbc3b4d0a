import EF2SDK.Canvas
import EF2SDK.VideoScreens
import EF2SDK.VideoStream
import EF2SDK.VideoTexture

/-!
# What the driver paints

The packets of the drawing functions, run by the GS. Each paints some pixels of the framebuffer that
the driver draws to and leaves its other pixels, and all of the other framebuffer (`Paints`) : the
scissor keeps to the picture, and to the one framebuffer the other one lies outside of it
(`Geometry.pixel_other`). A sprite has the pixels of its rectangle (`inSprite_corner_iff`). A
textured sprite has them too, with the values that the GS finds with the registers of its packet
(`texturedSprite_paints`).
-/

set_option autoImplicit false

namespace EF2SDK.Video

open Gif (Qword)
open Gs
open BitFields (field fields)

variable {dma : ℕ → Bool} {g : Rendering} {v v' : State} {m m' : Machine} {i : UInt32} {p : ℕ × ℕ}

/-! ## The framebuffers in the GS memory -/

/-- A pixel of the picture. -/
def InPicture (v : State) (p : ℕ × ℕ) : Prop :=
  p.1 < v.width.toNat ∧ p.2 < v.height.toNat

def IsBuffer (i : UInt32) : Prop :=
  i = 0 ∨ i = 1

theorem Geometry.rowHeight_eq (h : Geometry v) : rowHeight v = 32 ∨ rowHeight v = 64 := by
  rw [rowHeight]
  rcases h.psm with hpsm | hpsm <;> rw [hpsm] <;> decide

/-- A pixel of the picture is in one of the pages of the framebuffer. -/
theorem Geometry.page_lt (h : Geometry v) (hp : InPicture v p) (i : UInt32) :
    (bufferOf v i).fbp ≤ ((bufferOf v i).cell p).page ∧
      ((bufferOf v i).cell p).page < (bufferOf v i).fbp + framePages v := by
  have hcolumn : p.1 / 64 < v.layout.bufferWidth.toNat := by
    have hwidth := h.width
    have hcolumns := hp.1
    omega
  have hrow : p.2 / rowHeight v + 1 ≤ (v.height.toNat + rowHeight v - 1) / rowHeight v := by
    have hrows := hp.2
    rcases h.rowHeight_eq with hheight | hheight <;> rw [hheight] <;> omega
  have hpages := Nat.mul_le_mul_left v.layout.bufferWidth.toNat hrow
  rw [Nat.mul_add, Nat.mul_one, Nat.mul_comm _ (p.2 / rowHeight v)] at hpages
  change (bufferOf v i).fbp ≤ (bufferOf v i).fbp + p.2 / rowHeight v * v.layout.bufferWidth.toNat +
      p.1 / 64 ∧ (bufferOf v i).fbp + p.2 / rowHeight v * v.layout.bufferWidth.toNat + p.1 / 64 <
    (bufferOf v i).fbp + framePages v
  rw [framePages]
  omega

theorem Geometry.pixel_self (h : Geometry v) (hp : InPicture v p) (i : UInt32) :
    (bufferOf v i).pixel ((bufferOf v i).cell p) = some p :=
  FrameBuffer.pixel_cell (Nat.lt_of_lt_of_eq hp.1 h.width)

/-- To the one framebuffer, the other one is out of the picture. -/
theorem Geometry.pixel_other (h : Geometry v) (hp : InPicture v p) {j : UInt32} (hi : IsBuffer i)
    (hj : IsBuffer j) (hne : i ≠ j) :
    ∀ q, (bufferOf v j).pixel ((bufferOf v i).cell p) = some q → v.height.toNat ≤ q.2 := by
  intro q hq
  obtain ⟨hlo, hhi⟩ := h.page_lt hp i
  rw [FrameBuffer.pixel] at hq
  split at hq
  next hinside =>
    obtain rfl := Option.some.inj hq
    have hfirst : (bufferOf v 0).fbp = 0 := h.first
    have hsecond : (bufferOf v 1).fbp = framePages v := h.second
    rcases hi with rfl | rfl
    · obtain rfl := hj.resolve_left (Ne.symm hne)
      exfalso
      omega
    · obtain rfl := hj.resolve_right (Ne.symm hne)
      have hbehind : framePages v / v.layout.bufferWidth.toNat ≤
          (((bufferOf v 1).cell p).page - (bufferOf v 0).fbp) / (bufferOf v 0).fbw :=
        Nat.div_le_div_right (by omega)
      rw [framePages, Nat.mul_div_cancel_left _ h.bufferWidth.1] at hbehind
      have hrows := Nat.mul_le_mul_right (rowHeight v) hbehind
      have hcover : v.height.toNat ≤
          (v.height.toNat + rowHeight v - 1) / rowHeight v * rowHeight v := by
        rcases h.rowHeight_eq with hheight | hheight <;> rw [hheight] <;> omega
      exact Nat.le_trans hcover (Nat.le_trans hrows (Nat.le_add_right _ _))
  next => simp at hq

/-! ## Drawing into a framebuffer -/

/-- The registers draw into the buffer that the driver draws to, all over its picture. -/
structure DrawsTo (v : State) (r : Registers) : Prop where
  frame : r addrFrame = packFrame (drawFbp v) v.layout.bufferWidth v.layout.gsPsm 0
  offset : r addrXyoffset = packXyoffset 0 0
  scissor : r addrScissor = packScissor 0 (v.width - 1) 0 (v.height - 1)

theorem Fitted.frame (h : Fitted v) {r : Registers} (hr : DrawsTo v r) :
    drawBuffer r = bufferOf v v.drawBuffer ∧ frameMask r = 0 := by
  have hfields := frame_fields h
  rw [← hr.frame] at hfields
  simp only [fields, frameLayout, List.map_cons, List.map_nil, List.cons.injEq, and_true] at hfields
  obtain ⟨hfbp, hfbw, hpsm, hmask⟩ := hfields
  refine ⟨?_, ?_⟩
  · rw [drawBuffer, hfbp, hfbw, hpsm]
    rfl
  · rw [frameMask, hmask]
    rfl

theorem Fitted.inScissor_iff (h : Fitted v) {r : Registers} (hr : DrawsTo v r) :
    InScissor r p ↔ InPicture v p := by
  have hfields := scissor_fields h
  rw [← hr.scissor] at hfields
  simp only [fields, scissorLayout, List.map_cons, List.map_nil, List.cons.injEq, and_true]
    at hfields
  obtain ⟨hleft, hright, htop, hbottom⟩ := hfields
  have hwidth := h.width
  have hheight := h.height
  rw [InScissor, hleft, hright, htop, hbottom, InPicture]
  omega

/-- Drawing changes the pixels it covers, in the buffer that the driver draws to. -/
theorem draw_cell (hv : Running dma v) {r : Registers} (hr : DrawsTo v r) (hp : InPicture v p)
    (hi : IsBuffer i) (memory : Memory) (v₀ v₁ : Vertex) :
    draw g r memory v₀ v₁ ((bufferOf v i).cell p) =
      if i = v.drawBuffer ∧ g.Covers (primitive r) (position r v₀) (position r v₁) p then
        shade g r memory v₀ v₁ p
      else memory ((bufferOf v i).cell p) := by
  obtain ⟨hbuffer, hmask⟩ := hv.fitted.frame hr
  have hdrawn : IsBuffer v.drawBuffer := by
    have hdraw := hv.screens.roles.draw
    rcases hv.screens.roles.display with hdisplay | hdisplay <;>
      rw [hdisplay] at hdraw <;> rw [IsBuffer, hdraw] <;> split <;> decide
  rw [draw, hbuffer, hmask]
  by_cases hsame : i = v.drawBuffer
  · subst hsame
    rw [hv.screens.geometry.pixel_self hp]
    dsimp only
    by_cases hcovers : g.Covers (primitive r) (position r v₀) (position r v₁) p
    · rw [if_pos ⟨(hv.fitted.inScissor_iff hr).2 hp, hcovers⟩, if_pos ⟨rfl, hcovers⟩]
      simp
    · rw [if_neg fun h => hcovers h.2, if_neg fun h => hcovers h.2]
  · rw [if_neg fun h => hsame h.1]
    split
    next => rfl
    next q hq =>
      have hout := hv.screens.geometry.pixel_other hp hi hdrawn hsame q hq
      rw [if_neg fun h => absurd ((hv.fitted.inScissor_iff hr).1 h.1).2 (Nat.not_lt.2 hout)]

/-! ## What the machine runs -/

/-- What a call submits takes the one machine to the other. -/
def Runs (g : Rendering) (v v' : State) (m m' : Machine) : Prop :=
  ∃ stream packets, v'.submitted = v.submitted ++ stream ∧ Reads stream packets ∧
    m.packets g packets = some m'

theorem Runs.silent (h : v'.submitted = v.submitted) : Runs g v v' m m :=
  ⟨[], [], by rw [h, List.append_nil], .nil, rfl⟩

theorem Runs.trans {w : State} {n : Machine} (h : Runs g v v' m m') (h' : Runs g v' w m' n) :
    Runs g v w m n := by
  obtain ⟨stream, packets, hstream, hreads, hrun⟩ := h
  obtain ⟨stream', packets', hstream', hreads', hrun'⟩ := h'
  refine ⟨stream ++ stream', packets ++ packets', ?_, hreads.append hreads', ?_⟩
  · rw [hstream', hstream, List.append_assoc]
  · rw [Machine.packets_append, hrun]
    exact hrun'

variable (dma v) in
/-- A packet of register writes. -/
theorem runs_submitQwords {n : UInt16} {data : List Qword} (hn : data.length = n.toNat)
    (hlt : n.toNat < 2 ^ 15) (h : data.foldlM (Machine.write g) m = some m') :
    Runs g v (submitQwords dma (adTag n :: data) v).2 m m' := by
  have htag := readTag_adTag hlt
  have hcount : data.length = (readTag (adTag n)).count := by
    rw [htag, hn]
    exact (Nat.mul_one _).symm
  refine ⟨adTag n :: data, [(readTag (adTag n), data)], submitQwords_submitted _ v,
    .packet hcount, ?_⟩
  have hpacket : m.packet g (readTag (adTag n), data) = some m' := by
    rw [Machine.packet, htag]
    exact (if_pos ⟨rfl, rfl, rfl, rfl⟩).trans h
  rw [Machine.packets, List.foldlM_cons, hpacket]
  rfl

/-! ## Lines and sprites -/

/-- A corner on the screen, in sixteenths of a pixel. -/
def corner (width height : UInt16) (x y : Int32) : ℤ × ℤ :=
  (16 * (clamp x 0 (screen width)).toInt, 16 * (clamp y 0 (screen height)).toInt)

theorem position_eq {r : Registers} (hr : r addrXyoffset = packXyoffset 0 0) {x y : Int32}
    (hx : 0 ≤ x.toInt ∧ x.toInt ≤ 1024) (hy : 0 ≤ y.toInt ∧ y.toInt ≤ 1024) (uv : UInt64) :
    position r ⟨packXyz (subpixels x) (subpixels y) 0, uv⟩ = (16 * x.toInt, 16 * y.toInt) := by
  have hoffset := packXyoffset_fields 0 0
  have hvertex := vertex_fields rfl rfl hx hy
  rw [← hr] at hoffset
  simp only [fields, xyzLayout, xyoffsetLayout, List.map_cons, List.map_nil, List.cons.injEq,
    and_true] at hvertex hoffset
  obtain ⟨hcolumn, hrow, -⟩ := hvertex
  rw [position, hcolumn, hrow, hoffset.1, hoffset.2]
  refine Prod.ext ?_ ?_
  · change ((16 * x.toInt).toNat : ℤ) - ((0 : ℕ) : ℤ) = 16 * x.toInt
    omega
  · change ((16 * y.toInt).toNat : ℤ) - ((0 : ℕ) : ℤ) = 16 * y.toInt
    omega

theorem Fitted.position_clamp (h : Fitted v) {r : Registers}
    (hr : r addrXyoffset = packXyoffset 0 0) (x y : Int32) (uv : UInt64) :
    position r ⟨packXyz (subpixels (clamp x 0 (screen v.width)))
      (subpixels (clamp y 0 (screen v.height))) 0, uv⟩ = corner v.width v.height x y := by
  have hwidth := h.width
  have hheight := h.height
  have hx := toInt_clamp x v.width
  have hy := toInt_clamp y v.height
  exact position_eq hr (by omega) (by omega) uv

/-- Attributes come from `PRIM`. `ef2_video_init` leaves that as it is, and a texture sets it. -/
def FromPrim (m : Machine) : Prop :=
  m.registers addrPrmodecont = 1

/-- What a call submits paints these pixels of the buffer that the driver draws to, and leaves the
rest of both buffers. -/
def Paints (g : Rendering) (v v' : State) (m : Machine) (new : ℕ × ℕ → Option UInt32) : Prop :=
  ∃ m', Runs g v v' m m' ∧ FromPrim m' ∧ ∀ i p, IsBuffer i → InPicture v p →
    m'.memory ((bufferOf v i).cell p) =
      if i = v.drawBuffer then (new p).getD (m.memory ((bufferOf v i).cell p))
      else m.memory ((bufferOf v i).cell p)

theorem ite_and_getD (a b : Prop) [Decidable a] [Decidable b] (x y : UInt32) :
    (if a ∧ b then x else y) = if a then (if b then some x else none).getD y else y := by
  by_cases ha : a
  · by_cases hb : b
    · rw [if_pos ⟨ha, hb⟩, if_pos ha, if_pos hb]
      rfl
    · rw [if_neg fun h => hb h.2, if_pos ha, if_neg hb]
      rfl
  · rw [if_neg fun h => ha h.1, if_neg ha]

/-- What the format of the framebuffers keeps of a colour. -/
def paintOf (g : Rendering) (psm : UInt8) (red green blue : UInt8) : UInt32 :=
  g.stored psm.toNat [red.toNat, green.toNat, blue.toNat, 0x80]

/-- The registers that `ef2_video_draw_two_vertex` sets. -/
def twoVertexSetup (v : State) (primitive red green blue : UInt8) : List Qword :=
  [gifAd (packFrame (drawFbp v) v.layout.bufferWidth v.layout.gsPsm 0) addrFrame,
    gifAd (packXyoffset 0 0) addrXyoffset,
    gifAd (packScissor 0 (v.width - 1) 0 (v.height - 1)) addrScissor,
    gifAd 0 addrTest,
    gifAd (packPrim primitive) addrPrim,
    gifAd (packRgbaq red green blue 0x80) addrRgbaq]

theorem twoVertexSetup_settings (v : State) (primitive red green blue : UInt8) :
    ∀ q ∈ twoVertexSetup v primitive red green blue, q.hi ∈ settings := by
  simp [twoVertexSetup, gifAd, settings]

theorem flat_setup (hm : FromPrim m) {primitive : UInt8}
    (hprim : primitive = primLine ∨ primitive = primSprite) (v : State) (red green blue : UInt8) :
    Flat (m.sets (twoVertexSetup v primitive red green blue)).registers := by
  refine ⟨hm, rfl, ?_⟩
  have hset : (m.sets (twoVertexSetup v primitive red green blue)).registers addrPrim =
    packPrim primitive := rfl
  rw [hset]
  rcases hprim with rfl | rfl <;> decide

theorem shade_setup (hv : Fitted v) (hm : FromPrim m) {primitive : UInt8}
    (hprim : primitive = primLine ∨ primitive = primSprite) (red green blue : UInt8)
    (memory : Memory) (v₀ v₁ : Vertex) (p : ℕ × ℕ) :
    shade g (m.sets (twoVertexSetup v primitive red green blue)).registers memory v₀ v₁ p =
      paintOf g v.layout.gsPsm red green blue := by
  have hset : (m.sets (twoVertexSetup v primitive red green blue)).registers addrRgbaq =
    packRgbaq red green blue 0x80 := rfl
  have hdraws : DrawsTo v (m.sets (twoVertexSetup v primitive red green blue)).registers :=
    ⟨rfl, rfl, rfl⟩
  rw [shade, if_pos (flat_setup hm hprim v red green blue), hset, (hv.frame hdraws).1,
    packRgbaq_fields]
  rfl

/-- `ef2_video_draw_two_vertex` paints the pixels of its line or of its sprite. -/
theorem drawTwoVertex_paints (hv : Running dma v) (hm : FromPrim m) {primitive : UInt8}
    (hprim : primitive = primLine ∨ primitive = primSprite) (x0 y0 x1 y1 : Int32)
    (red green blue : UInt8) :
    Paints g v (drawTwoVertex dma primitive x0 y0 x1 y1 red green blue v).2 m fun p =>
      if g.Covers primitive.toNat (corner v.width v.height x0 y0) (corner v.width v.height x1 y1) p
      then some (paintOf g v.layout.gsPsm red green blue)
      else none := by
  have hrun : drawTwoVertex dma primitive x0 y0 x1 y1 red green blue v = _ :=
    (ite_run _ _ v).trans (if_neg hv.screens.size_ne_zero)
  have hdraws : DrawsTo v (m.sets (twoVertexSetup v primitive red green blue)).registers :=
    ⟨rfl, rfl, rfl⟩
  have hprimitive : Gs.primitive (m.sets (twoVertexSetup v primitive red green blue)).registers =
      primitive.toNat := by
    have hset : (m.sets (twoVertexSetup v primitive red green blue)).registers addrPrim =
      packPrim primitive := rfl
    rw [Gs.primitive, hset]
    rcases hprim with rfl | rfl <;> decide
  have hkind : Gs.primitive (m.sets (twoVertexSetup v primitive red green blue)).registers =
      primLine.toNat ∨ Gs.primitive (m.sets (twoVertexSetup v primitive red green blue)).registers =
      primSprite.toNat := by
    rw [hprimitive]
    exact hprim.imp (congrArg UInt8.toNat) (congrArg UInt8.toNat)
  have hwrites := Machine.writes_primitive g m
    (packXyz (subpixels (clamp x0 0 (screen v.width))) (subpixels (clamp y0 0 (screen v.height))) 0)
    (packXyz (subpixels (clamp x1 0 (screen v.width))) (subpixels (clamp y1 0 (screen v.height))) 0)
    (twoVertexSetup_settings v primitive red green blue) (List.forall_mem_nil _)
    (List.forall_mem_nil _) rfl hkind (congrArg _ (by rw [List.append_nil]))
  rw [List.append_nil] at hwrites
  rw [hrun]
  refine ⟨_, runs_submitQwords dma v rfl (by decide) hwrites, hm, fun i p hi hp => ?_⟩
  dsimp only
  rw [draw_cell hv hdraws hp hi, hprimitive, Machine.vertex, Machine.vertex,
    hv.fitted.position_clamp rfl, hv.fitted.position_clamp rfl, shade_setup hv.fitted hm hprim]
  exact ite_and_getD _ _ _ _

/-- A call that submits nothing paints nothing. -/
theorem Paints.silent (hm : FromPrim m) (h : v'.submitted = v.submitted)
    {new : ℕ × ℕ → Option UInt32} (hnew : ∀ p, InPicture v p → new p = none) :
    Paints g v v' m new := by
  refine ⟨m, .silent h, hm, fun i p _ hp => ?_⟩
  rw [hnew p hp]
  exact (ite_self _).symm

/-- Only the pixels of the picture matter. -/
theorem Paints.congr {new new' : ℕ × ℕ → Option UInt32} (h : Paints g v v' m new)
    (hnew : ∀ p, InPicture v p → new p = new' p) : Paints g v v' m new' := by
  obtain ⟨m', hruns, hm', hmemory⟩ := h
  refine ⟨m', hruns, hm', fun i p hi hp => ?_⟩
  rw [hmemory i p hi hp, hnew p hp]

theorem drawLine_paints (hv : Running dma v) (hm : FromPrim m) (x0 y0 x1 y1 : Int32)
    (red green blue : UInt8) :
    Paints g v (drawLine dma x0 y0 x1 y1 red green blue v).2 m fun p =>
      if g.onLine (corner v.width v.height x0 y0) (corner v.width v.height x1 y1) p = true
      then some (paintOf g v.layout.gsPsm red green blue)
      else none := by
  have hrun : drawLine dma x0 y0 x1 y1 red green blue v = _ :=
    (ite_run _ _ v).trans (if_neg hv.screens.size_ne_zero)
  rw [hrun]
  exact drawTwoVertex_paints hv hm (Or.inl rfl) x0 y0 x1 y1 red green blue

/-! ## Rectangles -/

/-- A pixel of an area. -/
def InArea (a : Area) (p : ℕ × ℕ) : Prop :=
  (a.left ≤ p.1 ∧ p.1 < a.right) ∧ a.top ≤ p.2 ∧ p.2 < a.bottom

instance (a : Area) : DecidablePred (InArea a) := fun _ =>
  inferInstanceAs (Decidable ((_ ∧ _) ∧ _ ∧ _))

theorem mem_points_iff {a : Area} : (((p.1 : ℤ), (p.2 : ℤ)) ∈ a.points) ↔ InArea a p :=
  Iff.rfl

/-- A filled area. -/
def filled (a : Area) (paint : UInt32) (p : ℕ × ℕ) : Option UInt32 :=
  if InArea a p then some paint else none

variable {x y width height : Int32} {red green blue : UInt8}

/-- What of a rectangle is in the picture is visible. -/
theorem visible_of_has (hp : InPicture v p) (h : InArea (asked x y width height) p) :
    (visible v x y width height).points.Nonempty := by
  rw [visible, Area.points_inter]
  exact ⟨((p.1 : ℤ), (p.2 : ℤ)), mem_points_iff.2 h, ⟨Int.natCast_nonneg _, Int.ofNat_lt.2 hp.1⟩,
    Int.natCast_nonneg _, Int.ofNat_lt.2 hp.2⟩

theorem drawRect_run (hwidth : 0 < width.toInt) (hheight : 0 < height.toInt)
    (hvisible : (visible v x y width height).points.Nonempty) (hwraps : ¬Wraps x y width height) :
    drawRect dma x y width height red green blue v =
      drawTwoVertex dma primSprite (clamp x 0 (screen v.width)) (clamp y 0 (screen v.height))
        (clamp (x + width) 0 (screen v.width)) (clamp (y + height) 0 (screen v.height))
        red green blue v := by
  have hsize : ¬(width ≤ 0 ∨ height ≤ 0) := by
    rw [le_zero_iff, le_zero_iff]
    omega
  rw [visible_nonempty_iff] at hvisible
  rw [Wraps, not_or, not_le, not_le] at hwraps
  have hright := (toInt_add_size (x := x) hwidth).trans (if_pos hwraps.1)
  have hbottom := (toInt_add_size (x := y) hheight).trans (if_pos hwraps.2)
  have hout : ¬(screen v.width ≤ x ∨ screen v.height ≤ y ∨ x + width ≤ 0 ∨ y + height ≤ 0) := by
    rw [screen_le_iff, screen_le_iff, le_zero_iff, le_zero_iff, hright, hbottom]
    omega
  have hempty : ¬(clamp (x + width) 0 (screen v.width) ≤ clamp x 0 (screen v.width) ∨
      clamp (y + height) 0 (screen v.height) ≤ clamp y 0 (screen v.height)) := by
    simp only [Int32.le_iff_toInt_le, toInt_clamp, hright, hbottom]
    omega
  exact (ite_run _ _ v).trans <| (if_neg hsize).trans <| (ite_run _ _ v).trans <|
    (if_neg hout).trans <| (ite_run _ _ v).trans (if_neg hempty)

/-- A sprite between two corners of a rectangle has its pixels. -/
theorem inSprite_corner_iff (hp : InPicture v p) (hwidth : 0 < width.toInt)
    (hheight : 0 < height.toInt) (hwraps : ¬Wraps x y width height) :
    InSprite (corner v.width v.height (clamp x 0 (screen v.width)) (clamp y 0 (screen v.height)))
        (corner v.width v.height (clamp (x + width) 0 (screen v.width))
          (clamp (y + height) 0 (screen v.height))) p ↔
      InArea (asked x y width height) p := by
  have hcolumns := hp.1
  have hrows := hp.2
  rw [Wraps, not_or, not_le, not_le] at hwraps
  have hright := (toInt_add_size (x := x) hwidth).trans (if_pos hwraps.1)
  have hbottom := (toInt_add_size (x := y) hheight).trans (if_pos hwraps.2)
  simp only [InSprite, corner, toInt_clamp, hright, hbottom, InArea, asked]
  omega

theorem drawRect_paints (hv : Running dma v) (hm : FromPrim m) (hwraps : ¬Wraps x y width height)
    (red green blue : UInt8) :
    Paints g v (drawRect dma x y width height red green blue v).2 m
      (filled (asked x y width height) (paintOf g v.layout.gsPsm red green blue)) := by
  by_cases hpositive : 0 < width.toInt ∧ 0 < height.toInt
  · obtain ⟨hwidth, hheight⟩ := hpositive
    by_cases hvisible : (visible v x y width height).points.Nonempty
    · rw [drawRect_run hwidth hheight hvisible hwraps]
      refine (drawTwoVertex_paints hv hm (Or.inr rfl) _ _ _ _ red green blue).congr fun p hp => ?_
      rw [filled]
      exact if_congr (inSprite_corner_iff hp hwidth hheight hwraps) rfl rfl
    · rw [drawRect_hidden hv.fitted hwidth hheight (Or.inl hvisible)]
      exact .silent hm rfl fun p hp => if_neg fun h => hvisible (visible_of_has hp h)
  · have hsize : width ≤ 0 ∨ height ≤ 0 := by
      rw [le_zero_iff, le_zero_iff]
      omega
    have hrun : drawRect dma x y width height red green blue v = _ :=
      (ite_run _ _ v).trans (if_pos hsize)
    rw [hrun]
    refine .silent hm rfl fun p hp => if_neg ?_
    simp only [InArea, asked]
    omega

theorem clear_paints (hv : Running dma v) (hm : FromPrim m) (red green blue : UInt8) :
    Paints g v (clear dma red green blue v).2 m
      fun _ => some (paintOf g v.layout.gsPsm red green blue) := by
  have hrun : clear dma red green blue v = _ :=
    (ite_run _ _ v).trans (if_neg hv.screens.size_ne_zero)
  have hwidth := toInt_screen v.width
  have hheight := toInt_screen v.height
  have hwidths := v.width.toNat_lt
  have hheights := v.height.toNat_lt
  have hzero : (0 : Int32).toInt = 0 := rfl
  have hwraps : ¬Wraps 0 0 (screen v.width) (screen v.height) := by
    rw [Wraps, hwidth, hheight, hzero]
    omega
  rw [hrun]
  refine (drawRect_paints hv hm hwraps red green blue).congr fun p hp => if_pos ?_
  have hcolumns := hp.1
  have hrows := hp.2
  simp only [InArea, asked, hwidth, hheight, hzero]
  omega

/-! ## Textures -/

/-- The registers that a textured sprite sets before the ones of its primitive. -/
def texturedSetup (v : State) (tex0 : UInt64) (alpha : List Qword) : List Qword :=
  [gifAd (packFrame (drawFbp v) v.layout.bufferWidth v.layout.gsPsm 0) addrFrame,
    gifAd (packXyoffset 0 0) addrXyoffset,
    gifAd (packScissor 0 (v.width - 1) 0 (v.height - 1)) addrScissor,
    gifAd 0 addrTest,
    gifAd tex0 addrTex0,
    gifAd 0 addrTex1,
    gifAd 1 addrPrmodecont]
  ++ alpha

/-- The registers that it sets before its first vertex. -/
def texturedBefore (v : State) (tex0 : UInt64) (alpha : List Qword) (blend : UInt8)
    (rgbaq uv₀ : UInt64) : List Qword :=
  texturedSetup v tex0 alpha ++
    [gifAd (packPrimEx primSprite 0 1 0 blend 0 1 0 0) addrPrim, gifAd rgbaq addrRgbaq,
      gifAd uv₀ addrUv]

/-- What the GS makes of a pixel of a textured sprite. -/
def texturedValue (g : Rendering) (v : State) (m : Machine) (tex0 : UInt64) (alpha : List Qword)
    (blend : UInt8) (rgbaq uv₀ xyz₀ uv₁ xyz₁ : UInt64) : ℕ × ℕ → UInt32 :=
  g.shaded (m.sets (texturedBefore v tex0 alpha blend rgbaq uv₀ ++ [gifAd uv₁ addrUv])).registers
    m.memory ⟨xyz₀, uv₀⟩ ⟨xyz₁, uv₁⟩

theorem texturedSprite_eq (tex0 : UInt64) (alpha : List Qword) (blend : UInt8)
    (rgbaq uv₀ xyz₀ uv₁ xyz₁ : UInt64) :
    texturedSprite v tex0 alpha (packPrimEx primSprite 0 1 0 blend 0 1 0 0) rgbaq uv₀ xyz₀ uv₁
        xyz₁ =
      texturedBefore v tex0 alpha blend rgbaq uv₀ ++
        gifAd xyz₀ addrXyz2 :: ([gifAd uv₁ addrUv] ++ [gifAd xyz₁ addrXyz2]) := by
  rw [texturedBefore, List.append_assoc]
  rfl

/-- The primitive of a textured sprite. -/
theorem sprite_primitive (blend : UInt8) :
    field (packPrimEx primSprite 0 1 0 blend 0 1 0 0).toNat 0 3 = primSprite.toNat := by
  have hfields := packPrimEx_fields primSprite 0 1 0 blend 0 1 0 0
  exact (List.cons.inj hfields).1

/-- It is textured, so not flat. -/
theorem sprite_textured (blend : UInt8) :
    field (packPrimEx primSprite 0 1 0 blend 0 1 0 0).toNat 3 8 ≠ 0 := by
  have hfields := packPrimEx_fields primSprite 0 1 0 blend 0 1 0 0
  simp only [fields, primLayout, List.map_cons, List.cons.injEq] at hfields
  have htextured : field (packPrimEx primSprite 0 1 0 blend 0 1 0 0).toNat 4 1 = 1 :=
    hfields.2.2.1
  rw [field] at htextured ⊢
  omega

theorem texturedBefore_primitive (v : State) (m : Machine) (tex0 : UInt64) (alpha : List Qword)
    (blend : UInt8) (rgbaq uv₀ uv₁ : UInt64) :
    (m.sets (texturedBefore v tex0 alpha blend rgbaq uv₀)).waiting = none ∧
      primitive (m.sets (texturedBefore v tex0 alpha blend rgbaq uv₀)).registers =
        primSprite.toNat ∧
      primitive (m.sets (texturedBefore v tex0 alpha blend rgbaq uv₀ ++
        [gifAd uv₁ addrUv])).registers = primSprite.toNat := by
  rw [Machine.sets_append, texturedBefore, Machine.sets_append]
  exact ⟨rfl, sprite_primitive blend, sprite_primitive blend⟩

/-- Each vertex has the texture coordinates that are set before it. -/
theorem texturedBefore_uv (v : State) (m : Machine) (tex0 : UInt64) (alpha : List Qword)
    (blend : UInt8) (rgbaq uv₀ uv₁ : UInt64) :
    (m.sets (texturedBefore v tex0 alpha blend rgbaq uv₀)).registers addrUv = uv₀ ∧
      (m.sets (texturedBefore v tex0 alpha blend rgbaq uv₀ ++
        [gifAd uv₁ addrUv])).registers addrUv = uv₁ := by
  rw [Machine.sets_append, texturedBefore, Machine.sets_append]
  exact ⟨rfl, rfl⟩

section Textured

variable {tex0 : UInt64} {alpha : List Qword} (halpha : ∀ q ∈ alpha, q.hi = addrAlpha)
include halpha

theorem texturedSetup_registers :
    DrawsTo v (m.sets (texturedSetup v tex0 alpha)).registers ∧
      FromPrim (m.sets (texturedSetup v tex0 alpha)) := by
  have hkeeps {address : UInt64} (h : addrAlpha ≠ address) : ∀ q ∈ alpha, q.hi ≠ address :=
    fun q hq => halpha q hq ▸ h
  refine ⟨⟨?_, ?_, ?_⟩, ?_⟩
  · rw [texturedSetup, Machine.sets_append, Machine.sets_registers (hkeeps (by decide))]
    rfl
  · rw [texturedSetup, Machine.sets_append, Machine.sets_registers (hkeeps (by decide))]
    rfl
  · rw [texturedSetup, Machine.sets_append, Machine.sets_registers (hkeeps (by decide))]
    rfl
  · rw [FromPrim, texturedSetup, Machine.sets_append, Machine.sets_registers (hkeeps (by decide))]
    rfl

variable (blend : UInt8) (rgbaq uv₀ uv₁ : UInt64)

theorem texturedBefore_settings :
    ∀ q ∈ texturedBefore v tex0 alpha blend rgbaq uv₀, q.hi ∈ settings := by
  refine List.forall_mem_append.2 ⟨List.forall_mem_append.2 ⟨?_, fun q hq => ?_⟩, ?_⟩
  · simp [gifAd, settings]
  · rw [halpha q hq]
    decide
  · simp [gifAd, settings]

theorem texturedBefore_registers :
    DrawsTo v (m.sets (texturedBefore v tex0 alpha blend rgbaq uv₀ ++
        [gifAd uv₁ addrUv])).registers ∧
      FromPrim (m.sets (texturedBefore v tex0 alpha blend rgbaq uv₀ ++ [gifAd uv₁ addrUv])) ∧
      ¬Flat (m.sets (texturedBefore v tex0 alpha blend rgbaq uv₀ ++
        [gifAd uv₁ addrUv])).registers := by
  obtain ⟨⟨hframe, hoffset, hscissor⟩, hfromPrim⟩ : DrawsTo v (m.sets (texturedSetup v tex0
    alpha)).registers ∧ FromPrim (m.sets (texturedSetup v tex0 alpha)) :=
    texturedSetup_registers halpha
  rw [Machine.sets_append, texturedBefore, Machine.sets_append]
  exact ⟨⟨hframe, hoffset, hscissor⟩, hfromPrim, fun hflat => sprite_textured blend hflat.2.2⟩

/-- A textured sprite paints its rectangle. -/
theorem texturedSprite_paints (hv : Running dma v) (hon : OnScreen v (asked x y width height))
    {n : UInt16} (hn : 13 + alpha.length = n.toNat) (hn' : n.toNat < 2 ^ 15) :
    Paints g v (submitQwords dma (adTag n :: texturedSprite v tex0 alpha
      (packPrimEx primSprite 0 1 0 blend 0 1 0 0) rgbaq uv₀
      (packXyz (subpixels x) (subpixels y) 0) uv₁
      (packXyz (subpixels (x + width)) (subpixels (y + height)) 0)) v).2 m fun p =>
        if InArea (asked x y width height) p then
          some (texturedValue g v m tex0 alpha blend rgbaq uv₀
            (packXyz (subpixels x) (subpixels y) 0) uv₁
            (packXyz (subpixels (x + width)) (subpixels (y + height)) 0) p)
        else none := by
  have hcolumns := hon.columns
  have hrows := hon.rows
  have hwidth := hv.fitted.width
  have hheight := hv.fitted.height
  simp only [asked] at hcolumns hrows
  have hright := (toInt_add_size (x := x) (by omega : 0 < width.toInt)).trans (if_pos (by omega))
  have hbottom := (toInt_add_size (x := y) (by omega : 0 < height.toInt)).trans (if_pos (by omega))
  have hlength := length_texturedSprite v tex0 alpha (packPrimEx primSprite 0 1 0 blend 0 1 0 0)
    rgbaq uv₀ (packXyz (subpixels x) (subpixels y) 0) uv₁
    (packXyz (subpixels (x + width)) (subpixels (y + height)) 0)
  rw [texturedSprite_eq] at hlength ⊢
  obtain ⟨hwaiting, hprimitive, hprimitive'⟩ := texturedBefore_primitive v m tex0 alpha blend
    rgbaq uv₀ uv₁
  obtain ⟨hdraws, hfromPrim, htextured⟩ := texturedBefore_registers (v := v) (m := m) halpha blend
    rgbaq uv₀ uv₁
  obtain ⟨huv₀, huv₁⟩ := texturedBefore_uv v m tex0 alpha blend rgbaq uv₀ uv₁
  have hwrites := Machine.writes_primitive g m (packXyz (subpixels x) (subpixels y) 0)
    (packXyz (subpixels (x + width)) (subpixels (y + height)) 0)
    (texturedBefore_settings halpha blend rgbaq uv₀)
    (List.forall_mem_singleton.2 (show addrUv ∈ settings by decide))
    (List.forall_mem_singleton.2 (show addrUv ≠ addrPrim by decide)) hwaiting
    (Or.inr hprimitive) (hprimitive'.trans hprimitive.symm)
  refine ⟨_, runs_submitQwords dma v (hlength.trans hn) hn' hwrites, hfromPrim,
    fun i p hi hp => ?_⟩
  have hcovers : g.Covers primSprite.toNat (16 * x.toInt, 16 * y.toInt)
      (16 * (x + width).toInt, 16 * (y + height).toInt) p ↔ InArea (asked x y width height) p := by
    rw [Rendering.Covers, if_neg (by decide)]
    simp only [InSprite, hright, hbottom, InArea, asked]
    omega
  dsimp only
  rw [draw_cell hv hdraws hp hi, hprimitive', Machine.vertex, Machine.vertex, huv₀, huv₁,
    position_eq hdraws.offset (by omega) (by omega),
    position_eq hdraws.offset (by omega) (by omega), ite_and_getD, shade, if_neg htextured]
  simp only [hcovers]
  rfl

end Textured

theorem onScreen_of_passes (hwraps : ¬Wraps x y width height) (h : Passes v x y width height) :
    OnScreen v (asked x y width height) :=
  (passes_iff.1 h).resolve_right fun hslips => hwraps hslips.2.2

theorem passes_of_onScreen (h : OnScreen v (asked x y width height)) : Passes v x y width height :=
  passes_iff.2 (Or.inl h)

instance (v : State) (a : Area) : Decidable (OnScreen v a) :=
  decidable_of_iff (_ ∧ _) ⟨fun h => ⟨h.1, h.2⟩, fun h => ⟨h.columns, h.rows⟩⟩

instance (t : Texture) (sourceX sourceY sourceWidth sourceHeight : UInt16) :
    Decidable (SourceAccepted t sourceX sourceY sourceWidth sourceHeight) :=
  inferInstanceAs (Decidable ((_ ∧ _) ∧ _ ∧ _))

/-- The pixels that `ef2_video_draw_texture` draws : all of the rectangle, or none. -/
def texturePixels (g : Rendering) (v : State) (m : Machine) (texture : Option Texture)
    (x y width height : Int32) (p : ℕ × ℕ) : Option UInt32 :=
  (drawable texture).bind fun t =>
    if OnScreen v (asked x y width height) ∧ InArea (asked x y width height) p then
      some (texturedValue g v m (tex0 t 1) [] 0 (packRgbaq 0x80 0x80 0x80 0x80) (packUv 0 0)
        (packXyz (subpixels x) (subpixels y) 0)
        (packUv (t.width.toUInt32 <<< 4).toUInt16 (t.height.toUInt32 <<< 4).toUInt16)
        (packXyz (subpixels (x + width)) (subpixels (y + height)) 0) p)
    else none

/-- The pixels that `ef2_video_draw_texture_region` draws. -/
def regionPixels (g : Rendering) (v : State) (m : Machine) (texture : Option Texture)
    (sourceX sourceY sourceWidth sourceHeight : UInt16) (x y width height : Int32)
    (red green blue alpha : UInt8) (blend : Bool) (p : ℕ × ℕ) : Option UInt32 :=
  (drawable texture).bind fun t =>
    if (SourceAccepted t sourceX sourceY sourceWidth sourceHeight ∧
        OnScreen v (asked x y width height)) ∧ InArea (asked x y width height) p then
      some (texturedValue g v m (tex0 t 0) [gifAd (packAlpha 0 1 0 1 0x80) addrAlpha]
        (if blend then 1 else 0) (packRgbaq red green blue alpha)
        (packUv (sourceX.toUInt32 <<< 4).toUInt16 (sourceY.toUInt32 <<< 4).toUInt16)
        (packXyz (subpixels x) (subpixels y) 0)
        (packUv ((sourceX.toUInt32 + sourceWidth.toUInt32) <<< 4).toUInt16
          ((sourceY.toUInt32 + sourceHeight.toUInt32) <<< 4).toUInt16)
        (packXyz (subpixels (x + width)) (subpixels (y + height)) 0) p)
    else none

theorem drawTexture_paints (hv : Running dma v) (hm : FromPrim m) (hwraps : ¬Wraps x y width height)
    (texture : Option Texture) :
    Paints g v (drawTexture dma texture x y width height v).2 m
      (texturePixels g v m texture x y width height) := by
  cases ht : drawable texture with
  | none =>
    rw [drawTexture, bind_apply]
    simp only [ht]
    refine .silent hm rfl fun p _ => ?_
    rw [texturePixels, ht]
    rfl
  | some t =>
    by_cases hon : OnScreen v (asked x y width height)
    · rw [drawTexture_run ht (passes_of_onScreen hon)]
      refine (texturedSprite_paints (List.forall_mem_nil _) 0 _ _ _ hv hon rfl
        (by decide)).congr fun p _ => ?_
      rw [texturePixels, ht, Option.bind_some]
      exact if_congr (and_iff_right hon).symm rfl rfl
    · obtain ⟨e, -, hrun⟩ : ∃ e < 0, drawTexture dma texture x y width height v = (e, v) :=
        drawTexture_rejected ht fun hpasses => hon (onScreen_of_passes hwraps hpasses)
      rw [hrun]
      refine .silent hm rfl fun p _ => ?_
      rw [texturePixels, ht]
      exact if_neg fun h => hon h.1

theorem drawTextureRegion_paints (hv : Running dma v) (hm : FromPrim m)
    (hwraps : ¬Wraps x y width height) (texture : Option Texture)
    (sourceX sourceY sourceWidth sourceHeight : UInt16) (red green blue alpha : UInt8)
    (blend : Bool) :
    Paints g v (drawTextureRegion dma texture sourceX sourceY sourceWidth sourceHeight x y
      width height red green blue alpha blend v).2 m
      (regionPixels g v m texture sourceX sourceY sourceWidth sourceHeight x y width height red
        green blue alpha blend) := by
  cases ht : drawable texture with
  | none =>
    rw [drawTextureRegion, bind_apply]
    simp only [ht]
    refine .silent hm rfl fun p _ => ?_
    rw [regionPixels, ht]
    rfl
  | some t =>
    by_cases hdraws : SourceAccepted t sourceX sourceY sourceWidth sourceHeight ∧
        OnScreen v (asked x y width height)
    · rw [drawTextureRegion_run ht hdraws.1 (passes_of_onScreen hdraws.2)]
      refine (texturedSprite_paints (List.forall_mem_singleton.2 rfl) _ _ _ _ hv hdraws.2 rfl
        (by decide)).congr fun p _ => ?_
      rw [regionPixels, ht, Option.bind_some]
      exact if_congr (and_iff_right hdraws).symm rfl rfl
    · have hrejected : ¬(SourceAccepted t sourceX sourceY sourceWidth sourceHeight ∧
          Passes v x y width height) :=
        fun h => hdraws ⟨h.1, onScreen_of_passes hwraps h.2⟩
      obtain ⟨e, -, hrun⟩ := drawTextureRegion_rejected ht hrejected
      rw [hrun]
      refine .silent hm rfl fun p _ => ?_
      rw [regionPixels, ht]
      exact if_neg fun h => hdraws h.1

end EF2SDK.Video
