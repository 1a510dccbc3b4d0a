import EF2SDK.VideoPainter

/-!
# Uploads paint nothing

Every image that an upload sends goes to pages of the GS memory behind the framebuffers
(`Placed.picture_fits`, `MadeIndexed.clut_fits`), and a transfer to such pages leaves the pages
before them (`Picture.SentAs.runs`). So an upload leaves the pixels of both framebuffers, whatever
the GS does with the data.
-/

set_option autoImplicit false

namespace EF2SDK.Video

open Gif (Qword)
open Gs
open BitFields

variable {dma : ℕ → Bool} {g : Rendering} {v v' : State} {m m' : Machine} {p : Picture}
  {width height : UInt16} {t : Texture}

/-! ## Transfers -/

def bitbltbufLayout : List (ℕ × ℕ) :=
  [(32, 14), (48, 6), (56, 6)]

def trxregLayout : List (ℕ × ℕ) :=
  [(0, 12), (32, 12)]

theorem packBitbltbuf_fields (dbp : UInt16) (dbw dpsm : UInt8) :
    fields bitbltbufLayout (packBitbltbuf dbp dbw dpsm) =
      [dbp.toNat % 2 ^ 14, dbw.toNat % 2 ^ 6, dpsm.toNat % 2 ^ 6] := by
  have hpacked := (((BitFields.Packed.nil.or (s := 32) 32 (.mask16 dbp (m := 0x3FFF) 14 rfl)
    (by decide)).or (s := 48) 48 (.mask8 dbw (m := 0x3F) 6 rfl) (by decide)).or (s := 56) 56
    (.mask8 dpsm (m := 0x3F) 6 rfl) (by decide)).fields_eq
  rw [UInt64.zero_or] at hpacked
  exact hpacked

theorem packTrxreg_fields (width height : UInt16) :
    fields trxregLayout (packTrxreg width height) =
      [width.toNat % 2 ^ 12, height.toNat % 2 ^ 12] :=
  ((BitFields.Packed.first (.mask16 width 12 rfl) rfl).or 32 (.mask16 height 12 rfl)
    (by decide)).fields_eq

/-- An image that is sent to pages of the GS memory from `start` on. -/
structure Picture.Fits (p : Picture) (start : ℕ) : Prop where
  page : 32 ∣ p.address.toNat
  start : start ≤ p.address.toNat / 32
  address : p.address.toNat < 2 ^ 14
  bufferWidth : p.bufferWidth.toNat < 2 ^ 6
  psm : p.psm.toNat < 2 ^ 6
  size : p.width.toNat < 2 ^ 12 ∧ p.height.toNat < 2 ^ 12
  width : p.width.toNat ≤ 64 * p.bufferWidth.toNat
  stop : p.address.toNat / 32 + 64 * p.bufferWidth.toNat / (pageShape p.psm.toNat).1 *
    ((p.height.toNat + (pageShape p.psm.toNat).2 - 1) / (pageShape p.psm.toNat).2) ≤ 512

theorem Picture.Fits.transfers {start : ℕ} (h : p.Fits start) {r : Registers}
    (hbitbltbuf : r addrBitbltbuf = packBitbltbuf p.address p.bufferWidth p.psm)
    (hpos : r addrTrxpos = 0) (hreg : r addrTrxreg = packTrxreg p.width p.height)
    (hdir : r addrTrxdir = 0) : Transfers r ∧ start ≤ destination r := by
  have hbuffer := packBitbltbuf_fields p.address p.bufferWidth p.psm
  have hsize := packTrxreg_fields p.width p.height
  rw [← hbitbltbuf, Nat.mod_eq_of_lt h.address, Nat.mod_eq_of_lt h.bufferWidth,
    Nat.mod_eq_of_lt h.psm] at hbuffer
  rw [← hreg, Nat.mod_eq_of_lt h.size.1, Nat.mod_eq_of_lt h.size.2] at hsize
  simp only [fields, bitbltbufLayout, trxregLayout, List.map_cons, List.map_nil, List.cons.injEq,
    and_true] at hbuffer hsize
  obtain ⟨haddress, hbufferWidth, hpsm⟩ := hbuffer
  obtain ⟨hwidth, hheight⟩ := hsize
  have hdestination : destination r = p.address.toNat / 32 := by rw [destination, haddress]
  refine ⟨⟨⟨hpos, hdir⟩, ?_, ?_, ?_⟩, ?_⟩
  · rw [haddress]
    exact h.page
  · rw [hwidth, hbufferWidth]
    exact h.width
  · rw [hdestination, hbufferWidth, hpsm, hheight]
    exact h.stop
  · rw [hdestination]
    exact h.start

/-- The machine after images : the pages before `start` are as they were. -/
structure Beyond (start : ℕ) (m m' : Machine) : Prop where
  fromPrim : FromPrim m → FromPrim m'
  memory : ∀ c : Cell, c.page < start → m'.memory c = m.memory c

theorem Beyond.refl (start : ℕ) (m : Machine) : Beyond start m m :=
  ⟨id, fun _ _ => rfl⟩

theorem Beyond.trans {start : ℕ} {n : Machine} (h : Beyond start m m') (h' : Beyond start m' n) :
    Beyond start m n :=
  ⟨fun hm => h'.fromPrim (h.fromPrim hm),
    fun c hc => (h'.memory c hc).trans (h.memory c hc)⟩

theorem Picture.SentAs.runs (hg : g.Confined) {packets : List (Tag × List Qword)}
    (h : p.SentAs packets) {start : ℕ} (hfits : p.Fits start) (m : Machine) :
    ∃ m', m.packets g packets = some m' ∧ Beyond start m m' := by
  obtain ⟨images, rfl, -, himages, -⟩ := h
  obtain ⟨m', hrun, hregisters, hmemory⟩ := Machine.packets_images (g := g)
    (m := m.sets p.setup.2) fun i hi => (himages i hi).flg
  have hsetup : m.packet g p.setup = some (m.sets p.setup.2) :=
    (if_pos ⟨rfl, rfl, rfl, rfl⟩).trans <| Machine.writes_settings <| by
      simp [Picture.setup, gifAd, settings]
  obtain ⟨htransfers, hstart⟩ := hfits.transfers (r := (m.sets p.setup.2).registers) rfl rfl rfl rfl
  refine ⟨m', ?_, fun hm => ?_, fun c hc => ?_⟩
  · rw [Machine.packets, List.foldlM_cons, hsetup]
    exact hrun
  · rw [FromPrim, hregisters]
    exact hm
  · rw [hmemory hg htransfers c (Nat.lt_of_lt_of_le hc hstart), Machine.sets_memory]

theorem sent_runs (hg : g.Confined) {ps : List Picture} {parts : List (List (Tag × List Qword))}
    (h : List.Forall₂ Picture.SentAs ps parts) {start : ℕ} (hfits : ∀ p ∈ ps, p.Fits start)
    (m : Machine) : ∃ m', m.packets g parts.flatten = some m' ∧ Beyond start m m' := by
  induction h generalizing m with
  | nil => exact ⟨m, rfl, .refl start m⟩
  | cons hsent _ ih =>
    obtain ⟨hp, hps⟩ := List.forall_mem_cons.1 hfits
    obtain ⟨u, hrun, hbeyond⟩ := hsent.runs hg hp m
    obtain ⟨m', hrun', hbeyond'⟩ := ih hps u
    refine ⟨m', ?_, hbeyond.trans hbeyond'⟩
    rw [List.flatten_cons, Machine.packets_append, hrun]
    exact hrun'

/-- The stream of an upload leaves what is before its images. -/
theorem IsUpload.runs (hg : g.Confined) {ps : List Picture} {stream : List Qword}
    (h : IsUpload ps stream) {start : ℕ} (hfits : ∀ p ∈ ps, p.Fits start) (m : Machine) :
    ∃ packets m', Reads stream packets ∧ m.packets g packets = some m' ∧ Beyond start m m' := by
  obtain ⟨parts, hparts, hparse⟩ := h
  obtain ⟨u, hrun, hbeyond⟩ := sent_runs hg hparts hfits m
  have hflush : u.packet g flushPacket = some (u.sets flushPacket.2) :=
    (if_pos ⟨rfl, rfl, rfl, rfl⟩).trans <| Machine.writes_settings <| by
      simp [flushPacket, gifAd, settings]
  refine ⟨_, u.sets flushPacket.2, .of_parse hparse, ?_, hbeyond.trans ⟨id, fun c _ => ?_⟩⟩
  · rw [Machine.packets_append, hrun, Option.bind_some, Machine.packets, List.foldlM_cons, hflush]
    rfl
  · rw [Machine.sets_memory]

/-! ## Where the images go -/

/-- The texture of an accepted upload. -/
structure Made (width height : UInt16) (psm : UInt8) (pageWidth : UInt32) (t : Texture) : Prop where
  width : t.width = width
  height : t.height = height
  psm : t.psm = psm
  bufferWidth : t.bufferWidth = (alignUp t.width.toUInt32 pageWidth / 64).toUInt8

/-- If the upload succeeds, its texture satisfies `made`. -/
def Makes (made : Texture → Prop) (r : ℤ × Option Texture) : Prop :=
  r.1 = 0 → ∃ t, r.2 = some t ∧ made t

theorem makes_error {made : Texture → Prop} {P : State → Prop} {error : ℤ}
    {texture : Option Texture} (h : error ≠ 0) :
    Triple P (pure (error, texture)) fun r _ => Makes made r :=
  Triple.pure fun _ _ h0 => absurd h0 h

theorem makes_last {made : Texture → Prop} {P : State → Prop} {x : StateM State ℤ} {error : ℤ}
    {t : Texture} {rest : StateM State (ℤ × Option Texture)} (herror : error ≠ 0)
    (hrest : Triple (fun _ => True) rest fun r _ => Makes made r) :
    Triple P (do
      let sent ← x
      if sent < 0 then
        pure (error, some t)
      else
        rest) fun r _ => Makes made r :=
  Triple.last_check (fun _ _ h0 => absurd h0 herror) fun _ _ => hrest

theorem uploadRgba32_makes (texture : Option Texture) (pixels : Source) (width height : UInt16)
    (v : State) :
    Makes (Made width height psmct32 texturePageWidth)
      (uploadRgba32 dma texture pixels width height v).1 := by
  have hmakes : Triple (Same v) (uploadRgba32 dma texture pixels width height) fun r _ =>
      Makes (Made width height psmct32 texturePageWidth) r := by
    refine Triple.ite (fun _ => makes_error (by decide)) fun _ =>
      Triple.ite (fun _ => makes_error (by decide)) fun _ =>
      Triple.ite (fun _ => makes_error (by decide)) fun _ =>
      Triple.bind _ triple_get fun _ => Triple.of_and fun _ =>
      Triple.ite (fun _ => makes_error (by decide)) fun _ => ?_
    refine makes_last (by decide) <| makes_last (by decide) <| Triple.last fun _ =>
      Triple.pure fun _ _ _ => ?_
    exact ⟨_, rfl, rfl, rfl, rfl, rfl⟩
  exact hmakes v (refl_of Same v)

/-- Where the CLUT of an indexed image of so many bytes is. -/
def clutCursor (v : State) (bytes : UInt32) : UInt32 :=
  alignUp (alignUp v.textureCursor texturePageBytes + bytes) 256

/-- The texture of an accepted upload of an indexed image. -/
structure MadeIndexed (v : State) (width height : UInt16) (psm : UInt8) (bytes clutBytes : UInt32)
    (t : Texture) : Prop where
  made : Made width height psm 128 t
  clut : t.clutAddress = (clutCursor v bytes / 256).toUInt16
  fits : ¬clutCursor v bytes + clutBytes > vramBytes

theorem uploadIndexed8_makes (texture : Option Texture) (indices palette : Source)
    (width height : UInt16) (v : State) :
    Makes (MadeIndexed v width height psmt8
        (alignUp width.toUInt32 128 * alignUp height.toUInt32 64) 1024)
      (uploadIndexed8 dma texture indices palette width height v).1 := by
  have hmakes : Triple (Same v) (uploadIndexed8 dma texture indices palette width height)
      fun r _ => Makes (MadeIndexed v width height psmt8
        (alignUp width.toUInt32 128 * alignUp height.toUInt32 64) 1024) r := by
    refine Triple.ite (fun _ => makes_error (by decide)) fun _ =>
      Triple.ite (fun _ => makes_error (by decide)) fun _ =>
      Triple.ite (fun _ => makes_error (by decide)) fun _ =>
      Triple.bind _ triple_get fun u => Triple.of_and fun hu =>
      Triple.ite (fun _ => makes_error (by decide)) fun hfits => ?_
    rw [hu.textureCursor] at hfits ⊢
    refine makes_last (by decide) <| Triple.last fun _ => Triple.last fun _ =>
      makes_last (by decide) <| makes_last (by decide) <| Triple.last fun _ =>
      Triple.pure fun _ _ _ => ?_
    exact ⟨_, rfl, ⟨rfl, rfl, rfl, rfl⟩, rfl, hfits⟩
  exact hmakes v (refl_of Same v)

theorem uploadIndexed4_makes (texture : Option Texture) (packedIndices palette : Source)
    (width height : UInt16) (v : State) :
    Makes (MadeIndexed v width height psmt4
        ((alignUp width.toUInt32 128 * alignUp height.toUInt32 128) >>> 1) 256)
      (uploadIndexed4 dma texture packedIndices palette width height v).1 := by
  have hmakes : Triple (Same v) (uploadIndexed4 dma texture packedIndices palette width height)
      fun r _ => Makes (MadeIndexed v width height psmt4
        ((alignUp width.toUInt32 128 * alignUp height.toUInt32 128) >>> 1) 256) r := by
    refine Triple.ite (fun _ => makes_error (by decide)) fun _ =>
      Triple.ite (fun _ => makes_error (by decide)) fun _ =>
      Triple.ite (fun _ => makes_error (by decide)) fun _ =>
      Triple.bind _ triple_get fun u => Triple.of_and fun hu =>
      Triple.ite (fun _ => makes_error (by decide)) fun hfits => ?_
    rw [hu.textureCursor] at hfits ⊢
    refine makes_last (by decide) <| makes_last (by decide) <| makes_last (by decide) <|
      Triple.last fun _ => Triple.pure fun _ _ _ => ?_
    exact ⟨_, rfl, ⟨rfl, rfl, rfl, rfl⟩, rfl, hfits⟩
  exact hmakes v (refl_of Same v)

/-- The CLUT is at the beginning of a page. -/
theorem MadeIndexed.clut_page {psm : UInt8} {bytes clutBytes : UInt32}
    (h : MadeIndexed v width height psm bytes clutBytes t)
    (hcursor : v.textureCursor.toNat ≤ 4194304)
    {n : ℕ} (hbytes : bytes.toNat = n * 8192) (hn : n * 8192 ≤ 1048576)
    (hclut : 0 < clutBytes.toNat ∧ clutBytes.toNat ≤ 1024) :
    32 ∣ t.clutAddress.toNat ∧ t.clutAddress.toNat / 32 + 1 ≤ 512 ∧
      v.textureCursor.toNat ≤ 256 * t.clutAddress.toNat := by
  have hpage := pageCursor_toNat hcursor
  have hsum : (alignUp v.textureCursor texturePageBytes + bytes).toNat =
      (alignUp v.textureCursor texturePageBytes).toNat + n * 8192 := by
    rw [toNat_add_of_lt (by omega), hbytes]
  have hclutCursor : (clutCursor v bytes).toNat =
      (alignUp v.textureCursor texturePageBytes).toNat + n * 8192 := by
    rw [clutCursor, alignUp_toNat (k := 8) rfl (show _ + 256 ≤ 2 ^ 32 by omega), hsum]
    change ((alignUp v.textureCursor texturePageBytes).toNat + n * 8192 + 255) / 256 * 256 = _
    omega
  have hroom := h.fits
  rw [gt_iff_lt, UInt32.not_lt, UInt32.le_iff_toNat_le, toNat_add_of_lt (by omega)] at hroom
  have hlimit : vramBytes.toNat = 4194304 := rfl
  rw [h.clut, address_toNat (by omega)]
  omega

/-- The image of a texture that is placed begins behind the old cursor. -/
theorem Placed.picture_fits {c c' : UInt32} (h : Placed c c' t) {psm : UInt8}
    {pageWidth : UInt32} (hmade : Made width height psm pageWidth t) (hsize : ¬badSize width height)
    {k : ℕ} (hk : pageWidth.toNat = 2 ^ k) (hdvd : pageWidth.toNat ∣ 1024)
    (hunit : 64 ∣ pageWidth.toNat) (hshape : pageSize psm = pageShape psm.toNat)
    (hpage : (pageShape psm.toNat).1 = pageWidth.toNat) (hpsm : psm.toNat < 2 ^ 6) {start : ℕ}
    (hstart : start * 8192 ≤ c.toNat) (bytes : ℕ → UInt8) :
    Picture.Fits ⟨t.vramAddress, t.bufferWidth, psm, width, height, bytes⟩ start := by
  obtain ⟨rfl, rfl, htpsm, hbufferWidth⟩ := hmade
  obtain ⟨hw0, hw, hh0, hh⟩ := toNat_le_of_not_badSize hsize
  obtain ⟨hpages, hpages'⟩ := pages_le hw0 hw hdvd
  have hpos : 0 < pageWidth.toNat := hk ▸ Nat.two_pow_pos k
  have hpadded := paddedSize_toNat hw pageWidth hk (Nat.le_of_dvd (by decide) hdvd)
  generalize hcount : (t.width.toNat + (pageWidth.toNat - 1)) / pageWidth.toNat = pages
    at hpages hpages' hpadded
  -- the buffer is as wide as the pages of the image
  have hbuffer : 64 * t.bufferWidth.toNat = pages * pageWidth.toNat := by
    have hwhole : 64 ∣ pages * pageWidth.toNat := Nat.dvd_trans hunit (Nat.dvd_mul_left _ _)
    rw [hbufferWidth, UInt32.toNat_toUInt8, UInt32.toNat_div, hpadded]
    change 64 * (pages * pageWidth.toNat / 64 % 2 ^ 8) = _
    omega
  have hcover : t.width.toNat ≤ pages * pageWidth.toNat := by
    have hdiv := Nat.div_add_mod (t.width.toNat + (pageWidth.toNat - 1)) pageWidth.toNat
    have hmod := Nat.mod_lt (t.width.toNat + (pageWidth.toNat - 1)) hpos
    rw [hcount, Nat.mul_comm] at hdiv
    omega
  have hwithin := h.packed.within (imageRange t) List.mem_cons_self
  have hbegin : (imageRange t).start = 256 * t.vramAddress.toNat := rfl
  have hbytes : (imageRange t).stop = 256 * t.vramAddress.toNat + pages *
      ((t.height.toNat + (pageShape psm.toNat).2 - 1) / (pageShape psm.toNat).2) * 8192 := by
    rw [Range.stop, imageRange, imageBytes, htpsm, hshape, hpage,
      show t.width.toNat + pageWidth.toNat - 1 = t.width.toNat + (pageWidth.toNat - 1) by omega,
      hcount]
  have haligned := h.page
  have hlimit := h.limit
  refine ⟨?_, ?_, h.vram, ?_, hpsm, ⟨?_, ?_⟩, ?_, ?_⟩ <;> dsimp only
  · omega
  · omega
  · omega
  · omega
  · omega
  · omega
  · rw [hpage, hbuffer, Nat.mul_div_cancel _ hpos]
    omega

/-- The CLUT of an indexed image. -/
theorem MadeIndexed.clut_fits {psm : UInt8} {bytes clutBytes : UInt32}
    (h : MadeIndexed v width height psm bytes clutBytes t)
    (hcursor : v.textureCursor.toNat ≤ 4194304)
    {n : ℕ} (hbytes : bytes.toNat = n * 8192) (hn : n * 8192 ≤ 1048576)
    (hclut : 0 < clutBytes.toNat ∧ clutBytes.toNat ≤ 1024) {start : ℕ}
    (hstart : start * 8192 ≤ v.textureCursor.toNat) {columns rows : UInt16}
    (hcolumns : columns.toNat ≤ 16) (hrows : 0 < rows.toNat ∧ rows.toNat ≤ 16)
    (palette : ℕ → UInt8) :
    Picture.Fits ⟨t.clutAddress, 1, psmct32, columns, rows, palette⟩ start := by
  obtain ⟨hpage, hstop, hbehind⟩ := h.clut_page hcursor hbytes hn hclut
  refine ⟨hpage, ?_, ?_, show (1 : UInt8).toNat < 2 ^ 6 by decide,
    show psmct32.toNat < 2 ^ 6 by decide, ⟨?_, ?_⟩, ?_, ?_⟩ <;> dsimp only
  · omega
  · omega
  · omega
  · omega
  · change columns.toNat ≤ 64
    omega
  · change t.clutAddress.toNat / 32 + 1 * ((rows.toNat + 32 - 1) / 32) ≤ 512
    omega

/-- A cell of a framebuffer is before the textures. -/
theorem Geometry.page_lt_textures (h : Geometry v) {i : UInt32} (hi : IsBuffer i) {q : ℕ × ℕ}
    (hq : InPicture v q) : ((bufferOf v i).cell q).page < 2 * framePages v := by
  have hpage := (h.page_lt hq i).2
  have hfirst : (bufferOf v 0).fbp = 0 := h.first
  have hsecond : (bufferOf v 1).fbp = framePages v := h.second
  rcases hi with rfl | rfl <;> omega

/-- The old cursor is behind the framebuffers. -/
theorem Screens.cursor_le (h : Screens v) : 2 * framePages v * 8192 ≤ v.textureCursor.toNat :=
  Nat.le_trans (Nat.le_of_eq h.geometry.textures.symm) h.cursor.1

/-- An upload paints nothing. -/
theorem upload_paints (hg : g.Confined) (hv : Screens v) (hm : FromPrim m) {accepted : Prop}
    {pictures : Texture → List Picture → Prop} {made : Texture → Prop}
    {r : (ℤ × Option Texture) × State} (hemitted : Emitted v accepted pictures r.1 r.2)
    (huploaded : Uploaded v r.1 r.2) (hmakes : Makes made r.1)
    (hfits : accepted → ∀ t ps, Placed v.textureCursor r.2.textureCursor t → made t →
      pictures t ps → ∀ p ∈ ps, p.Fits (2 * framePages v)) :
    Paints g v r.2 m fun _ => none := by
  rcases hemitted with ⟨-, -, hsame⟩ | ⟨haccepted, t, ps, stream, hr, hps, hsubmitted, hupload⟩
  · exact .silent hm (congrArg State.submitted hsame) fun _ _ => rfl
  · obtain ⟨t', ht', hplaced, -⟩ := huploaded.2 (congrArg Prod.fst hr)
    obtain ⟨t'', ht'', hmade⟩ := hmakes (congrArg Prod.fst hr)
    obtain rfl : t = t' := Option.some.inj ((congrArg Prod.snd hr).symm.trans ht')
    obtain rfl : t = t'' := Option.some.inj ((congrArg Prod.snd hr).symm.trans ht'')
    obtain ⟨packets, m', hreads, hrun, hbeyond⟩ :=
      hupload.runs hg (hfits haccepted t ps hplaced hmade hps) m
    refine ⟨m', ⟨stream, packets, hsubmitted, hreads, hrun⟩, hbeyond.fromPrim hm,
      fun i q hi hq => ?_⟩
    rw [hbeyond.memory _ (hv.geometry.page_lt_textures hi hq)]
    exact (ite_self _).symm

theorem uploadRgba32_paints (hg : g.Confined) (hv : Screens v) (hm : FromPrim m)
    (texture : Option Texture) (pixels : Source) (width height : UInt16) :
    Paints g v (uploadRgba32 dma texture pixels width height v).2 m fun _ => none := by
  refine upload_paints hg hv hm (uploadRgba32_emitted dma texture pixels width height v v rfl)
    (uploadRgba32_uploaded hv.cursor.2 texture pixels width height v (refl_of Same v))
    (uploadRgba32_makes texture pixels width height v) fun haccepted t ps hplaced hmade hps => ?_
  rw [show ps = _ from hps]
  exact List.forall_mem_singleton.2 <| hplaced.picture_fits hmade haccepted.size (k := 6) rfl
    (by decide) (by decide) rfl rfl (by decide) hv.cursor_le pixels.bytes

theorem uploadIndexed8_paints (hg : g.Confined) (hv : Screens v) (hm : FromPrim m)
    (texture : Option Texture) (indices palette : Source) (width height : UInt16) :
    Paints g v (uploadIndexed8 dma texture indices palette width height v).2 m fun _ => none := by
  refine upload_paints hg hv hm
    (uploadIndexed8_emitted dma texture indices palette width height v v rfl)
    (uploadIndexed8_uploaded hv.cursor.2 texture indices palette width height v (refl_of Same v))
    (uploadIndexed8_makes texture indices palette width height v)
    fun haccepted t ps hplaced hmade hps => ?_
  obtain ⟨clut, -, rfl⟩ := hps
  obtain ⟨n, -, -, hn, hbytes⟩ := exists_pages haccepted.size psmt8 128 64 8192 (j := 7) (k := 6)
    rfl rfl rfl rfl (by decide) (by decide)
  refine List.forall_mem_cons.2 ⟨?_, List.forall_mem_singleton.2 ?_⟩
  · exact hplaced.picture_fits hmade.made haccepted.size (k := 7) rfl (by decide) (by decide) rfl
      rfl (by decide) hv.cursor_le indices.bytes
  · exact hmade.clut_fits hv.cursor.2 hbytes hn (by decide) hv.cursor_le (by decide) (by decide)
      clut

theorem uploadIndexed4_paints (hg : g.Confined) (hv : Screens v) (hm : FromPrim m)
    (texture : Option Texture) (packedIndices palette : Source) (width height : UInt16) :
    Paints g v (uploadIndexed4 dma texture packedIndices palette width height v).2 m
      fun _ => none := by
  refine upload_paints hg hv hm
    (uploadIndexed4_emitted dma texture packedIndices palette width height v v rfl)
    (uploadIndexed4_uploaded hv.cursor.2 texture packedIndices palette width height v
      (refl_of Same v))
    (uploadIndexed4_makes texture packedIndices palette width height v)
    fun haccepted t ps hplaced hmade hps => ?_
  obtain ⟨n, -, -, hn, harea⟩ := exists_pages haccepted.size psmt4 128 128 16384 (j := 7) (k := 7)
    rfl rfl rfl rfl (by decide) (by decide)
  have hbytes : ((alignUp width.toUInt32 128 * alignUp height.toUInt32 128) >>> 1).toNat =
      n * 8192 := by
    rw [UInt32.toNat_shiftRight, harea, Nat.shiftRight_eq_div_pow,
      show 2 ^ ((1 : UInt32).toNat % 32) = 2 from rfl]
    omega
  have hle : n * 8192 ≤ 1048576 := Nat.le_trans (Nat.mul_le_mul_left n (by decide)) hn
  rw [show ps = _ from hps]
  refine List.forall_mem_cons.2 ⟨?_, List.forall_mem_singleton.2 ?_⟩
  · exact hplaced.picture_fits hmade.made haccepted.size (k := 7) rfl (by decide) (by decide) rfl
      rfl (by decide) hv.cursor_le packedIndices.bytes
  · exact hmade.clut_fits hv.cursor.2 hbytes hle (by decide) hv.cursor_le (by decide) (by decide)
      palette.bytes

end EF2SDK.Video
