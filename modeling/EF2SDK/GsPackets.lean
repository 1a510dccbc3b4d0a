import EF2SDK.BitFields
import EF2SDK.Gs

/-!
# What a packet writes to the GS

A packet of the video driver is a GIF tag for packed pairs of a register address and a value,
followed by as many pairs. `registerWrites` reads it as the GIF does, and every value as the
fields of its register. The packing functions put each of their values, cut to the width of
its field, into that field.
-/

set_option autoImplicit false

namespace EF2SDK.Gs

open BitFields
open Gif (Qword)

/-! ## Fields -/

/-- The fields of a GIF tag : `NLOOP`, `EOP`, `PRE`, `PRIM`, `FLG` and `NREG`. -/
def tagLayout : List (ℕ × ℕ) :=
  [(0, 15), (15, 1), (46, 1), (47, 11), (58, 2), (60, 4)]

def frameLayout : List (ℕ × ℕ) :=
  [(0, 9), (16, 6), (24, 6), (32, 32)]

def xyoffsetLayout : List (ℕ × ℕ) :=
  [(0, 16), (32, 16)]

def scissorLayout : List (ℕ × ℕ) :=
  [(0, 11), (16, 11), (32, 11), (48, 11)]

def primLayout : List (ℕ × ℕ) :=
  [(0, 3), (3, 1), (4, 1), (5, 1), (6, 1), (7, 1), (8, 1), (9, 1), (10, 1)]

/-- `U` and `V` in sixteenths of a texel, ten bits before the point and four behind it. -/
def uvLayout : List (ℕ × ℕ) :=
  [(0, 14), (16, 14)]

/-- `TBP0`, `TBW`, `PSM`, `TW`, `TH`, `TCC`, `TFX`, `CBP`, `CPSM`, `CSM`, `CSA` and `CLD`. -/
def tex0Layout : List (ℕ × ℕ) :=
  [(0, 14), (14, 6), (20, 6), (26, 4), (30, 4), (34, 1), (35, 2), (37, 14), (51, 4), (55, 1),
    (56, 5), (61, 3)]

def alphaLayout : List (ℕ × ℕ) :=
  [(0, 2), (2, 2), (4, 2), (6, 2), (32, 8)]

def rgbaqLayout : List (ℕ × ℕ) :=
  [(0, 8), (8, 8), (16, 8), (24, 8), (32, 32)]

/-- `X` and `Y` in sixteenths of a pixel, and `Z`. -/
def xyzLayout : List (ℕ × ℕ) :=
  [(0, 16), (16, 16), (32, 32)]

theorem gifPackTag_fields (nloop : UInt16) (eop pre : UInt8) (prim : UInt16) (flg nreg : UInt8) :
    fields tagLayout (gifPackTag nloop eop pre prim flg nreg) =
      [nloop.toNat % 2 ^ 15, eop.toNat % 2, pre.toNat % 2, prim.toNat % 2 ^ 11, flg.toNat % 2 ^ 2,
        nreg.toNat % 2 ^ 4] :=
  ((((((Packed.first (.mask16 nloop 15 rfl) rfl).or 15 (.mask8 eop 1 rfl) (by decide)).or 46
    (.mask8 pre 1 rfl) (by decide)).or 47 (.mask16 prim 11 rfl) (by decide)).or 58
    (.mask8 flg 2 rfl) (by decide)).or 60 (.mask8 nreg 4 rfl) (by decide)).fields_eq

theorem packFrame_fields (fbp : UInt16) (fbw psm : UInt8) (mask : UInt32) :
    fields frameLayout (packFrame fbp fbw psm mask) =
      [fbp.toNat % 2 ^ 9, fbw.toNat % 2 ^ 6, psm.toNat % 2 ^ 6, mask.toNat] :=
  ((((Packed.first (.mask16 fbp 9 rfl) rfl).or 16 (.mask8 fbw 6 rfl) (by decide)).or 24
    (.mask8 psm 6 rfl) (by decide)).or 32 (.uInt32 mask) (by decide)).fields_eq

theorem packXyoffset_fields (x y : UInt16) :
    fields xyoffsetLayout (packXyoffset x y) = [x.toNat, y.toNat] :=
  ((Packed.first (.uInt16 x) rfl).or 32 (.uInt16 y) (by decide)).fields_eq

theorem packScissor_fields (x0 x1 y0 y1 : UInt16) :
    fields scissorLayout (packScissor x0 x1 y0 y1) =
      [x0.toNat % 2 ^ 11, x1.toNat % 2 ^ 11, y0.toNat % 2 ^ 11, y1.toNat % 2 ^ 11] :=
  ((((Packed.first (.mask16 x0 11 rfl) rfl).or 16 (.mask16 x1 11 rfl) (by decide)).or 32
    (.mask16 y0 11 rfl) (by decide)).or 48 (.mask16 y1 11 rfl) (by decide)).fields_eq

theorem packPrimEx_fields (prim iip tme fge abe aa1 fst ctxt fix : UInt8) :
    fields primLayout (packPrimEx prim iip tme fge abe aa1 fst ctxt fix) =
      [prim.toNat % 2 ^ 3, iip.toNat % 2, tme.toNat % 2, fge.toNat % 2, abe.toNat % 2,
        aa1.toNat % 2, fst.toNat % 2, ctxt.toNat % 2, fix.toNat % 2] :=
  (((((((((Packed.first (.mask8 prim 3 rfl) rfl).or 3 (.mask8 iip 1 rfl) (by decide)).or 4
    (.mask8 tme 1 rfl) (by decide)).or 5 (.mask8 fge 1 rfl) (by decide)).or 6
    (.mask8 abe 1 rfl) (by decide)).or 7 (.mask8 aa1 1 rfl) (by decide)).or 8
    (.mask8 fst 1 rfl) (by decide)).or 9 (.mask8 ctxt 1 rfl) (by decide)).or 10
    (.mask8 fix 1 rfl) (by decide)).fields_eq

/-- `ef2_gs_pack_prim` leaves the other fields of `PRIM` at 0. -/
theorem packPrim_eq (prim : UInt8) : packPrim prim = packPrimEx prim 0 0 0 0 0 0 0 0 := by
  simp [packPrim, packPrimEx]

theorem packUv_fields (u v : UInt16) :
    fields uvLayout (packUv u v) = [u.toNat % 2 ^ 14, v.toNat % 2 ^ 14] :=
  ((Packed.first (.mask16 u 14 rfl) rfl).or 16 (.mask16 v 14 rfl) (by decide)).fields_eq

theorem packTex0Clut_fields (tbp0 : UInt16) (tbw psm tw th tcc tfx : UInt8) (cbp : UInt16)
    (cpsm csm csa cld : UInt8) :
    fields tex0Layout (packTex0Clut tbp0 tbw psm tw th tcc tfx cbp cpsm csm csa cld) =
      [tbp0.toNat % 2 ^ 14, tbw.toNat % 2 ^ 6, psm.toNat % 2 ^ 6, tw.toNat % 2 ^ 4,
        th.toNat % 2 ^ 4, tcc.toNat % 2, tfx.toNat % 2 ^ 2, cbp.toNat % 2 ^ 14,
        cpsm.toNat % 2 ^ 4, csm.toNat % 2, csa.toNat % 2 ^ 5, cld.toNat % 2 ^ 3] :=
  ((((((((((((Packed.first (.mask16 tbp0 14 rfl) rfl).or 14 (.mask8 tbw 6 rfl) (by decide)).or 20
    (.mask8 psm 6 rfl) (by decide)).or 26 (.mask8 tw 4 rfl) (by decide)).or 30
    (.mask8 th 4 rfl) (by decide)).or 34 (.mask8 tcc 1 rfl) (by decide)).or 35
    (.mask8 tfx 2 rfl) (by decide)).or 37 (.mask16 cbp 14 rfl) (by decide)).or 51
    (.mask8 cpsm 4 rfl) (by decide)).or 55 (.mask8 csm 1 rfl) (by decide)).or 56
    (.mask8 csa 5 rfl) (by decide)).or 61 (.mask8 cld 3 rfl) (by decide)).fields_eq

/-- `ef2_gs_pack_tex0` leaves the fields of the CLUT at 0. -/
theorem packTex0_eq (tbp0 : UInt16) (tbw psm tw th tcc tfx : UInt8) :
    packTex0 tbp0 tbw psm tw th tcc tfx = packTex0Clut tbp0 tbw psm tw th tcc tfx 0 0 0 0 0 := by
  simp [packTex0, packTex0Clut]

theorem packRgbaq_fields (r g b a : UInt8) :
    fields rgbaqLayout (packRgbaq r g b a) = [r.toNat, g.toNat, b.toNat, a.toNat, 0x3F800000] :=
  (((((Packed.first (.uInt8 r) rfl).or 8 (.uInt8 g) (by decide)).or 16 (.uInt8 b)
    (by decide)).or 24 (.uInt8 a) (by decide)).or 32 (f := 0x3F800000) ⟨rfl, by decide⟩
    (by decide)).fields_eq

theorem packXyz_fields (x y : UInt16) (z : UInt32) :
    fields xyzLayout (packXyz x y z) = [x.toNat, y.toNat, z.toNat] :=
  (((Packed.first (.uInt16 x) rfl).or 16 (.uInt16 y) (by decide)).or 32 (.uInt32 z)
    (by decide)).fields_eq

/-! ## Packets -/

/-- The fields of a register, the whole value where it is not packed. -/
def layout (address : UInt64) : List (ℕ × ℕ) :=
  if address = addrFrame then frameLayout
  else if address = addrXyoffset then xyoffsetLayout
  else if address = addrScissor then scissorLayout
  else if address = addrPrim then primLayout
  else if address = addrUv then uvLayout
  else if address = addrTex0 then tex0Layout
  else if address = addrAlpha then alphaLayout
  else if address = addrRgbaq then rgbaqLayout
  else if address = addrXyz2 then xyzLayout
  else [(0, 64)]

/-- The registers that a packet writes, with the values of their fields : the tag is for packed
data, one register a loop, and that is a pair of a value and an address. -/
def registerWrites : List Qword → Option (List (UInt64 × List ℕ))
  | [] => none
  | tag :: data =>
    if tag.hi = gifRegAd ∧ fields tagLayout tag.lo = [data.length, 1, 0, 0, 0, 1] then
      some (data.map fun q => (q.hi, fields (layout q.hi) q.lo))
    else none

/-- The values that a packet writes to one register. -/
def writesTo (address : UInt64) (packet : List Qword) : Option (List (List ℕ)) :=
  (registerWrites packet).map fun writes =>
    (writes.filter fun write => write.1 = address).map Prod.snd

theorem registerWrites_adTag {n : UInt16} {data : List Qword} (h : data.length = n.toNat)
    (hn : n.toNat < 2 ^ 15) :
    registerWrites (adTag n :: data) =
      some (data.map fun q => (q.hi, fields (layout q.hi) q.lo)) := by
  refine if_pos ⟨rfl, ?_⟩
  rw [adTag, gifPackTag_fields, h, Nat.mod_eq_of_lt hn]
  rfl

end EF2SDK.Gs
