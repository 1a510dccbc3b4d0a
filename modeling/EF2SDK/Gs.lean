import EF2SDK.Gif

/-!
# Register values for the GS and tags for the GIF

The packing functions of `include/ef2/gs.h` and of `include/ef2/gif.h`, each a value masked to
its width and shifted to its position for every field.
-/

set_option autoImplicit false

namespace EF2SDK.Gs

/-! ## Formats, registers and primitives -/

/-- `EF2_GS_PSMCT32`. -/
abbrev psmct32 : UInt8 := 0

/-- `EF2_GS_PSMCT16`. -/
abbrev psmct16 : UInt8 := 0x02

/-- `EF2_GS_PSMT8`. -/
abbrev psmt8 : UInt8 := 0x13

/-- `EF2_GS_PSMT4`. -/
abbrev psmt4 : UInt8 := 0x14

/-- `EF2_GS_VRAM_BYTES`. -/
abbrev vramBytes : UInt32 := 4194304

/-- `EF2_GS_ADDR_PRIM`. -/
abbrev addrPrim : UInt64 := 0x00

/-- `EF2_GS_ADDR_RGBAQ`. -/
abbrev addrRgbaq : UInt64 := 0x01

/-- `EF2_GS_ADDR_UV`. -/
abbrev addrUv : UInt64 := 0x03

/-- `EF2_GS_ADDR_XYZ2`. -/
abbrev addrXyz2 : UInt64 := 0x05

/-- `EF2_GS_ADDR_TEX0_1`. -/
abbrev addrTex0 : UInt64 := 0x06

/-- `EF2_GS_ADDR_TEX1_1`. -/
abbrev addrTex1 : UInt64 := 0x14

/-- `EF2_GS_ADDR_XYOFFSET_1`. -/
abbrev addrXyoffset : UInt64 := 0x18

/-- `EF2_GS_ADDR_PRMODECONT`. -/
abbrev addrPrmodecont : UInt64 := 0x1A

/-- `EF2_GS_ADDR_TEXFLUSH`. -/
abbrev addrTexflush : UInt64 := 0x3F

/-- `EF2_GS_ADDR_SCISSOR_1`. -/
abbrev addrScissor : UInt64 := 0x40

/-- `EF2_GS_ADDR_ALPHA_1`. -/
abbrev addrAlpha : UInt64 := 0x42

/-- `EF2_GS_ADDR_TEST_1`. -/
abbrev addrTest : UInt64 := 0x47

/-- `EF2_GS_ADDR_FRAME_1`. -/
abbrev addrFrame : UInt64 := 0x4C

/-- `EF2_GS_ADDR_BITBLTBUF`. -/
abbrev addrBitbltbuf : UInt64 := 0x50

/-- `EF2_GS_ADDR_TRXPOS`. -/
abbrev addrTrxpos : UInt64 := 0x51

/-- `EF2_GS_ADDR_TRXREG`. -/
abbrev addrTrxreg : UInt64 := 0x52

/-- `EF2_GS_ADDR_TRXDIR`. -/
abbrev addrTrxdir : UInt64 := 0x53

/-- `EF2_GS_PRIM_LINE`. -/
abbrev primLine : UInt8 := 0x01

/-- `EF2_GS_PRIM_SPRITE`. -/
abbrev primSprite : UInt8 := 0x06

/-! ## Register values -/

def packBgcolor (r g b : UInt8) : UInt64 :=
  (r.toUInt64 <<< 0) ||| (g.toUInt64 <<< 8) ||| (b.toUInt64 <<< 16)

def packPmode (en1 en2 mmod amod slbg alpha : UInt8) : UInt64 :=
  ((en1 &&& 1).toUInt64 <<< 0) ||| ((en2 &&& 1).toUInt64 <<< 1) ||| ((1 : UInt64) <<< 2)
    ||| ((mmod &&& 1).toUInt64 <<< 5) ||| ((amod &&& 1).toUInt64 <<< 6)
    ||| ((slbg &&& 1).toUInt64 <<< 7) ||| (alpha.toUInt64 <<< 8)

def packDispfb (fbp : UInt16) (fbw psm : UInt8) (dbx dby : UInt16) : UInt64 :=
  ((fbp &&& 0x01FF).toUInt64 <<< 0) ||| ((fbw &&& 0x3F).toUInt64 <<< 9)
    ||| ((psm &&& 0x1F).toUInt64 <<< 15) ||| ((dbx &&& 0x07FF).toUInt64 <<< 32)
    ||| ((dby &&& 0x07FF).toUInt64 <<< 43)

def packDisplay (dx dy : UInt16) (magh magv : UInt8) (dw dh : UInt16) : UInt64 :=
  ((dx &&& 0x0FFF).toUInt64 <<< 0) ||| ((dy &&& 0x07FF).toUInt64 <<< 12)
    ||| ((magh &&& 0x0F).toUInt64 <<< 23) ||| ((magv &&& 0x03).toUInt64 <<< 27)
    ||| ((dw &&& 0x0FFF).toUInt64 <<< 32) ||| ((dh &&& 0x07FF).toUInt64 <<< 44)

def packFrame (fbp : UInt16) (fbw psm : UInt8) (mask : UInt32) : UInt64 :=
  ((fbp &&& 0x01FF).toUInt64 <<< 0) ||| ((fbw &&& 0x3F).toUInt64 <<< 16)
    ||| ((psm &&& 0x3F).toUInt64 <<< 24) ||| (mask.toUInt64 <<< 32)

def packXyoffset (x y : UInt16) : UInt64 :=
  (x.toUInt64 <<< 0) ||| (y.toUInt64 <<< 32)

def packScissor (x0 x1 y0 y1 : UInt16) : UInt64 :=
  ((x0 &&& 0x07FF).toUInt64 <<< 0) ||| ((x1 &&& 0x07FF).toUInt64 <<< 16)
    ||| ((y0 &&& 0x07FF).toUInt64 <<< 32) ||| ((y1 &&& 0x07FF).toUInt64 <<< 48)

def packPrim (prim : UInt8) : UInt64 :=
  (prim &&& 0x07).toUInt64

def packPrimEx (prim iip tme fge abe aa1 fst ctxt fix : UInt8) : UInt64 :=
  ((prim &&& 0x07).toUInt64 <<< 0) ||| ((iip &&& 1).toUInt64 <<< 3)
    ||| ((tme &&& 1).toUInt64 <<< 4) ||| ((fge &&& 1).toUInt64 <<< 5)
    ||| ((abe &&& 1).toUInt64 <<< 6) ||| ((aa1 &&& 1).toUInt64 <<< 7)
    ||| ((fst &&& 1).toUInt64 <<< 8) ||| ((ctxt &&& 1).toUInt64 <<< 9)
    ||| ((fix &&& 1).toUInt64 <<< 10)

def packUv (u v : UInt16) : UInt64 :=
  ((u &&& 0x3FFF).toUInt64 <<< 0) ||| ((v &&& 0x3FFF).toUInt64 <<< 16)

def packTex0Clut (tbp0 : UInt16) (tbw psm tw th tcc tfx : UInt8) (cbp : UInt16)
    (cpsm csm csa cld : UInt8) : UInt64 :=
  ((tbp0 &&& 0x3FFF).toUInt64 <<< 0) ||| ((tbw &&& 0x3F).toUInt64 <<< 14)
    ||| ((psm &&& 0x3F).toUInt64 <<< 20) ||| ((tw &&& 0x0F).toUInt64 <<< 26)
    ||| ((th &&& 0x0F).toUInt64 <<< 30) ||| ((tcc &&& 1).toUInt64 <<< 34)
    ||| ((tfx &&& 3).toUInt64 <<< 35) ||| ((cbp &&& 0x3FFF).toUInt64 <<< 37)
    ||| ((cpsm &&& 0x0F).toUInt64 <<< 51) ||| ((csm &&& 1).toUInt64 <<< 55)
    ||| ((csa &&& 0x1F).toUInt64 <<< 56) ||| ((cld &&& 7).toUInt64 <<< 61)

def packTex0 (tbp0 : UInt16) (tbw psm tw th tcc tfx : UInt8) : UInt64 :=
  ((tbp0 &&& 0x3FFF).toUInt64 <<< 0) ||| ((tbw &&& 0x3F).toUInt64 <<< 14)
    ||| ((psm &&& 0x3F).toUInt64 <<< 20) ||| ((tw &&& 0x0F).toUInt64 <<< 26)
    ||| ((th &&& 0x0F).toUInt64 <<< 30) ||| ((tcc &&& 1).toUInt64 <<< 34)
    ||| ((tfx &&& 3).toUInt64 <<< 35)

def packAlpha (a b c d fix : UInt8) : UInt64 :=
  ((a &&& 3).toUInt64 <<< 0) ||| ((b &&& 3).toUInt64 <<< 2) ||| ((c &&& 3).toUInt64 <<< 4)
    ||| ((d &&& 3).toUInt64 <<< 6) ||| (fix.toUInt64 <<< 32)

def packBitbltbuf (dbp : UInt16) (dbw dpsm : UInt8) : UInt64 :=
  ((dbp &&& 0x3FFF).toUInt64 <<< 32) ||| ((dbw &&& 0x3F).toUInt64 <<< 48)
    ||| ((dpsm &&& 0x3F).toUInt64 <<< 56)

def packTrxpos (dx dy : UInt16) : UInt64 :=
  ((dx &&& 0x07FF).toUInt64 <<< 32) ||| ((dy &&& 0x07FF).toUInt64 <<< 48)

def packTrxreg (width height : UInt16) : UInt64 :=
  ((width &&& 0x0FFF).toUInt64 <<< 0) ||| ((height &&& 0x0FFF).toUInt64 <<< 32)

def packRgbaq (r g b a : UInt8) : UInt64 :=
  (r.toUInt64 <<< 0) ||| (g.toUInt64 <<< 8) ||| (b.toUInt64 <<< 16) ||| (a.toUInt64 <<< 24)
    ||| ((0x3F800000 : UInt64) <<< 32)

def packXyz (x y : UInt16) (z : UInt32) : UInt64 :=
  (x.toUInt64 <<< 0) ||| (y.toUInt64 <<< 16) ||| (z.toUInt64 <<< 32)

/-! ## GIF tags -/

/-- `EF2_GIF_REG_AD`. -/
abbrev gifRegAd : UInt64 := 0x0E

/-- `EF2_GIF_FLG_PACKED`. -/
abbrev gifFlgPacked : UInt8 := 0

/-- `EF2_GIF_FLG_IMAGE`. -/
abbrev gifFlgImage : UInt8 := 2

def gifPackTag (nloop : UInt16) (eop pre : UInt8) (prim : UInt16) (flg nreg : UInt8) : UInt64 :=
  ((nloop &&& 0x7FFF).toUInt64 <<< 0) ||| ((eop &&& 1).toUInt64 <<< 15)
    ||| ((pre &&& 1).toUInt64 <<< 46) ||| ((prim &&& 0x07FF).toUInt64 <<< 47)
    ||| ((flg &&& 3).toUInt64 <<< 58) ||| ((nreg &&& 0x0F).toUInt64 <<< 60)

/-- A tag for a packet of `n` register writes, as every caller of `ef2_gif_ad` begins it. -/
def adTag (n : UInt16) : Gif.Qword where
  lo := gifPackTag n 1 0 0 gifFlgPacked 1
  hi := gifRegAd

/-- `ef2_gif_ad` : write `data` to the register at `address`. -/
def gifAd (data address : UInt64) : Gif.Qword where
  lo := data
  hi := address

end EF2SDK.Gs
