import EF2SDK.GifTags
import Mathlib.Logic.Function.Basic
import Mathlib.Tactic.SplitIfs

/-!
# What the GS does with a stream

The part of the GS that the video driver uses, as a machine that reads packets. Register writes
set its registers, and every second vertex of a line or of a sprite draws it into the framebuffer
that `FRAME` names. Anything else the machine refuses, so a stream that it runs (`Machine.run`) is
one that the driver may send.

The memory is made of pages, and a framebuffer has a row of pages after another
(`FrameBuffer.cell`). The pixels of a line, the value that a format keeps of a colour, the
texturing and blending of a pixel and the transfer of an image are left open (`Rendering`).
-/

set_option autoImplicit false

namespace EF2SDK.Gs

open BitFields
open Gif (Qword)

/-! ## The memory -/

/-- A pixel of the memory : its page, and where it is in there. -/
structure Cell where
  page : ℕ
  column : ℕ
  row : ℕ
  deriving DecidableEq

abbrev Memory := Cell → UInt32

/-- The width and the height of a page in a pixel format. -/
def pageShape (psm : ℕ) : ℕ × ℕ :=
  if psm = psmct16.toNat then (64, 64)
  else if psm = psmt8.toNat then (128, 64)
  else if psm = psmt4.toNat then (128, 128)
  else (64, 32)

/-- A framebuffer : its first page, its width in pages and its pixel format. -/
structure FrameBuffer where
  fbp : ℕ
  fbw : ℕ
  psm : ℕ

/-- Where a pixel of the framebuffer is. -/
def FrameBuffer.cell (b : FrameBuffer) (p : ℕ × ℕ) : Cell :=
  let height := (pageShape b.psm).2
  ⟨b.fbp + p.2 / height * b.fbw + p.1 / 64, p.1 % 64, p.2 % height⟩

/-- The pixel of the framebuffer that is there. -/
def FrameBuffer.pixel (b : FrameBuffer) (c : Cell) : Option (ℕ × ℕ) :=
  let height := (pageShape b.psm).2
  if b.fbp ≤ c.page ∧ c.column < 64 ∧ c.row < height then
    some ((c.page - b.fbp) % b.fbw * 64 + c.column, (c.page - b.fbp) / b.fbw * height + c.row)
  else none

theorem pageShape_pos (psm : ℕ) : 0 < (pageShape psm).1 ∧ 0 < (pageShape psm).2 := by
  rw [pageShape]
  split_ifs <;> decide

theorem FrameBuffer.pixel_cell {b : FrameBuffer} {p : ℕ × ℕ} (h : p.1 < 64 * b.fbw) :
    b.pixel (b.cell p) = some p := by
  have hheight := (pageShape_pos b.psm).2
  have hcolumn : p.1 / 64 < b.fbw := (Nat.div_lt_iff_lt_mul (by decide)).2 (by omega)
  have hpage : b.fbp + p.2 / (pageShape b.psm).2 * b.fbw + p.1 / 64 - b.fbp =
      p.1 / 64 + b.fbw * (p.2 / (pageShape b.psm).2) := by
    rw [Nat.mul_comm]
    omega
  rw [FrameBuffer.pixel, FrameBuffer.cell]
  dsimp only
  rw [if_pos ⟨by omega, Nat.mod_lt _ (by decide), Nat.mod_lt _ hheight⟩, hpage,
    Nat.add_mul_mod_self_left, Nat.mod_eq_of_lt hcolumn,
    Nat.add_mul_div_left _ _ (Nat.zero_lt_of_lt hcolumn), Nat.div_eq_of_lt hcolumn, Nat.zero_add,
    Nat.mul_comm, Nat.div_add_mod, Nat.mul_comm, Nat.div_add_mod]

/-! ## Drawing -/

/-- A vertex, with the texture coordinates it was given. -/
structure Vertex where
  xyz : UInt64
  uv : UInt64

abbrev Registers := UInt64 → UInt64

/-- What the driver leaves to the GS. -/
structure Rendering where
  /-- What a format keeps of a colour. -/
  stored : ℕ → List ℕ → UInt32
  /-- Whether a pixel is on a line, by its ends in sixteenths of a pixel. -/
  onLine : ℤ × ℤ → ℤ × ℤ → ℕ × ℕ → Bool
  /-- The value of a textured, blended or tested pixel. -/
  shaded : Registers → Memory → Vertex → Vertex → ℕ × ℕ → UInt32
  /-- The memory after so much of the data of an image. -/
  transfer : Registers → List Qword → Memory → Memory

/-- The framebuffer that `FRAME` names. -/
def drawBuffer (r : Registers) : FrameBuffer where
  fbp := field (r addrFrame).toNat 0 9
  fbw := field (r addrFrame).toNat 16 6
  psm := field (r addrFrame).toNat 24 6

/-- The bits of a pixel that `FRAME` keeps. -/
def frameMask (r : Registers) : UInt32 :=
  .ofNat (field (r addrFrame).toNat 32 32)

def primitive (r : Registers) : ℕ :=
  field (r addrPrim).toNat 0 3

/-- A vertex in sixteenths of a pixel, from where `XYOFFSET` puts the origin. -/
def position (r : Registers) (v : Vertex) : ℤ × ℤ :=
  (field v.xyz.toNat 0 16 - field (r addrXyoffset).toNat 0 16,
    field v.xyz.toNat 16 16 - field (r addrXyoffset).toNat 32 16)

def InScissor (r : Registers) (p : ℕ × ℕ) : Prop :=
  (field (r addrScissor).toNat 0 11 ≤ p.1 ∧ p.1 ≤ field (r addrScissor).toNat 16 11) ∧
    field (r addrScissor).toNat 32 11 ≤ p.2 ∧ p.2 ≤ field (r addrScissor).toNat 48 11

/-- A sprite has the pixels from its one vertex up to before the other. -/
def InSprite (a b : ℤ × ℤ) (p : ℕ × ℕ) : Prop :=
  (min a.1 b.1 ≤ 16 * p.1 ∧ 16 * p.1 < max a.1 b.1) ∧
    min a.2 b.2 ≤ 16 * p.2 ∧ 16 * p.2 < max a.2 b.2

/-- No texture, no blending and no other attribute, and every pixel passes the tests. -/
def Flat (r : Registers) : Prop :=
  r addrPrmodecont = 1 ∧ r addrTest = 0 ∧ field (r addrPrim).toNat 3 8 = 0

instance (r : Registers) : DecidablePred (InScissor r) := fun _ =>
  inferInstanceAs (Decidable (_ ∧ _))

instance (a b : ℤ × ℤ) : DecidablePred (InSprite a b) := fun _ =>
  inferInstanceAs (Decidable (_ ∧ _))

instance : DecidablePred Flat := fun _ =>
  inferInstanceAs (Decidable (_ ∧ _))

variable (g : Rendering)

/-- The pixels of a line or of a sprite. -/
def Rendering.Covers (primitive : ℕ) (a b : ℤ × ℤ) (p : ℕ × ℕ) : Prop :=
  if primitive = primLine.toNat then g.onLine a b p = true else InSprite a b p

instance (primitive : ℕ) (a b : ℤ × ℤ) : DecidablePred (g.Covers primitive a b) := fun _ =>
  inferInstanceAs (Decidable (ite _ _ _))

/-- The pixels that are drawn. -/
def Drawn (r : Registers) (v₀ v₁ : Vertex) (p : ℕ × ℕ) : Prop :=
  InScissor r p ∧ g.Covers (primitive r) (position r v₀) (position r v₁) p

instance (r : Registers) (v₀ v₁ : Vertex) : DecidablePred (Drawn g r v₀ v₁) := fun _ =>
  inferInstanceAs (Decidable (_ ∧ _))

/-- The new value of a pixel. -/
def shade (r : Registers) (memory : Memory) (v₀ v₁ : Vertex) (p : ℕ × ℕ) : UInt32 :=
  if Flat r then g.stored (drawBuffer r).psm ((fields rgbaqLayout (r addrRgbaq)).take 4)
  else g.shaded r memory v₀ v₁ p

/-- The memory once the line or the sprite is drawn. -/
def draw (r : Registers) (memory : Memory) (v₀ v₁ : Vertex) : Memory := fun c =>
  match (drawBuffer r).pixel c with
  | none => memory c
  | some p =>
    if Drawn g r v₀ v₁ p then
      (memory c &&& frameMask r) ||| (shade g r memory v₀ v₁ p &&& ~~~frameMask r)
    else memory c

/-! ## The machine -/

structure Machine where
  registers : Registers
  waiting : Option Vertex
  received : List Qword
  memory : Memory

/-- The registers that only hold what is written to them. -/
def settings : List UInt64 :=
  [addrPrim, addrRgbaq, addrUv, addrTex0, addrTex1, addrXyoffset, addrPrmodecont, addrTexflush,
    addrScissor, addrAlpha, addrTest, addrFrame, addrBitbltbuf, addrTrxpos, addrTrxreg, addrTrxdir]

/-- `PRIM` begins a new primitive and `TRXDIR` a new transfer. -/
def Machine.set (m : Machine) (q : Qword) : Machine where
  registers := Function.update m.registers q.hi q.lo
  waiting := if q.hi = addrPrim then none else m.waiting
  received := if q.hi = addrTrxdir then [] else m.received
  memory := m.memory

def Machine.vertex (m : Machine) (xyz : UInt64) : Vertex :=
  ⟨xyz, m.registers addrUv⟩

/-- A vertex waits for the next one, or is the next one. -/
def Machine.kick (m : Machine) (xyz : UInt64) : Option Machine :=
  if primitive m.registers = primLine.toNat ∨ primitive m.registers = primSprite.toNat then
    match m.waiting with
    | none => some { m with waiting := some (m.vertex xyz) }
    | some v => some
      { m with waiting := none, memory := draw g m.registers m.memory v (m.vertex xyz) }
  else none

/-- A register write. -/
def Machine.write (m : Machine) (q : Qword) : Option Machine :=
  if q.hi = addrXyz2 then m.kick g q.lo
  else if q.hi ∈ settings then some (m.set q)
  else none

/-- Image data. -/
def Machine.receive (m : Machine) (data : List Qword) : Machine :=
  { m with
    received := m.received ++ data
    memory := g.transfer m.registers (m.received ++ data) m.memory }

def Machine.packet (m : Machine) (p : Tag × List Qword) : Option Machine :=
  if p.1.flg = gifFlgPacked.toNat ∧ p.1.pre = 0 ∧ p.1.nreg = 1 ∧ p.1.regs = gifRegAd then
    p.2.foldlM (Machine.write g) m
  else if p.1.flg = gifFlgImage.toNat then some (m.receive g p.2)
  else none

def Machine.packets (m : Machine) (packets : List (Tag × List Qword)) : Option Machine :=
  packets.foldlM (Machine.packet g) m

/-- The machine after a stream. -/
def Machine.run (m : Machine) (stream : List Qword) : Option Machine :=
  (parse stream).bind (m.packets g)

variable {g} {m m' : Machine}

theorem Machine.packets_append {packets packets' : List (Tag × List Qword)} :
    m.packets g (packets ++ packets') = (m.packets g packets).bind (Machine.packets g · packets') :=
  List.foldlM_append

/-- A stream of whole packets is read as them, whatever follows it. -/
theorem Reads.of_parse {stream : List Qword} {packets : List (Tag × List Qword)}
    (h : parse stream = some packets) : Reads stream packets := by
  induction stream using parse.induct generalizing packets with
  | case1 =>
    rw [parse_nil] at h
    obtain rfl := Option.some.inj h
    exact .nil
  | case2 q rest n =>
    rename_i hshort
    rw [parse, if_pos hshort] at h
    exact absurd h (by simp)
  | case3 q rest n hlength =>
    rename_i ih
    rw [parse, if_neg hlength] at h
    obtain ⟨later, hlater, rfl⟩ := Option.map_eq_some_iff.1 h
    have hcount : (rest.take n).length = (readTag q).count := by
      rw [List.length_take]
      exact Nat.min_eq_left (Nat.not_lt.1 hlength)
    have hread := (Reads.packet hcount).append (ih hlater)
    rwa [List.cons_append, List.take_append_drop] at hread

/-! ## Register writes -/

/-- The machine after writes that only set registers. -/
def Machine.sets (m : Machine) (data : List Qword) : Machine :=
  data.foldl Machine.set m

theorem Machine.writes_settings {data : List Qword} (h : ∀ q ∈ data, q.hi ∈ settings) :
    data.foldlM (Machine.write g) m = some (m.sets data) := by
  induction data generalizing m with
  | nil => rfl
  | cons q data ih =>
    obtain ⟨hq, hdata⟩ := List.forall_mem_cons.1 h
    have hxyz : q.hi ≠ addrXyz2 := by
      rintro hxyz
      rw [hxyz] at hq
      exact absurd hq (by decide)
    have hset : m.write g q = some (m.set q) := (if_neg hxyz).trans (if_pos hq)
    rw [List.foldlM_cons, hset]
    exact ih hdata

theorem Machine.sets_memory (data : List Qword) : (m.sets data).memory = m.memory := by
  induction data generalizing m with
  | nil => rfl
  | cons q data ih => exact ih

/-- A vertex after the writes that set up a primitive. -/
theorem Machine.write_first (hprim : primitive m.registers = primLine.toNat ∨
      primitive m.registers = primSprite.toNat) (hwaiting : m.waiting = none) (xyz : UInt64) :
    m.write g (gifAd xyz addrXyz2) = some { m with waiting := some (m.vertex xyz) } := by
  refine (if_pos rfl).trans ?_
  rw [Machine.kick, if_pos hprim, hwaiting]
  rfl

/-- The other vertex. -/
theorem Machine.write_second (hprim : primitive m.registers = primLine.toNat ∨
      primitive m.registers = primSprite.toNat) {v : Vertex} (hwaiting : m.waiting = some v)
    (xyz : UInt64) :
    m.write g (gifAd xyz addrXyz2) = some
      { m with waiting := none, memory := draw g m.registers m.memory v (m.vertex xyz) } := by
  refine (if_pos rfl).trans ?_
  rw [Machine.kick, if_pos hprim, hwaiting]
  rfl

theorem Machine.sets_append (data data' : List Qword) :
    m.sets (data ++ data') = (m.sets data).sets data' :=
  List.foldl_append

/-- A register that is not written keeps its value. -/
theorem Machine.sets_registers {address : UInt64} {data : List Qword}
    (h : ∀ q ∈ data, q.hi ≠ address) :
    (m.sets data).registers address = m.registers address := by
  induction data generalizing m with
  | nil => rfl
  | cons q data ih =>
    obtain ⟨hq, hdata⟩ := List.forall_mem_cons.1 h
    exact (ih hdata).trans (Function.update_of_ne (Ne.symm hq) _ _)

/-- A waiting vertex goes on waiting until a new primitive begins. -/
theorem Machine.sets_waiting {data : List Qword} (h : ∀ q ∈ data, q.hi ≠ addrPrim)
    (waiting : Option Vertex) :
    ({ m with waiting := waiting } : Machine).sets data =
      { m.sets data with waiting := waiting } := by
  induction data generalizing m with
  | nil => rfl
  | cons q data ih =>
    obtain ⟨hq, hdata⟩ := List.forall_mem_cons.1 h
    have hset : ({ m with waiting := waiting } : Machine).set q =
        { m.set q with waiting := waiting } := by
      simp only [Machine.set, if_neg hq]
    exact (congrArg (Machine.sets · data) hset).trans (ih hdata)

/-- The writes of a packet that draws : they set up a primitive and give its two vertices. -/
theorem Machine.writes_primitive (g : Rendering) (m : Machine) {before between : List Qword}
    (xyz₀ xyz₁ : UInt64)
    (hbefore : ∀ q ∈ before, q.hi ∈ settings) (hbetween : ∀ q ∈ between, q.hi ∈ settings)
    (hkeep : ∀ q ∈ between, q.hi ≠ addrPrim) (hwaiting : (m.sets before).waiting = none)
    (hprim : primitive (m.sets before).registers = primLine.toNat ∨
      primitive (m.sets before).registers = primSprite.toNat)
    (hprim' : primitive (m.sets (before ++ between)).registers =
      primitive (m.sets before).registers) :
    (before ++ gifAd xyz₀ addrXyz2 :: (between ++ [gifAd xyz₁ addrXyz2])).foldlM
        (Machine.write g) m = some
      { m.sets (before ++ between) with
        waiting := none
        memory := draw g (m.sets (before ++ between)).registers m.memory
          ((m.sets before).vertex xyz₀) ((m.sets (before ++ between)).vertex xyz₁) } := by
  rw [List.foldlM_append, writes_settings hbefore]
  change (List.foldlM (Machine.write g) (m.sets before) _ : Option Machine) = _
  rw [List.foldlM_cons, write_first hprim hwaiting]
  change (List.foldlM (Machine.write g) { m.sets before with
    waiting := some ((m.sets before).vertex xyz₀) } _ : Option Machine) = _
  rw [List.foldlM_append, writes_settings hbetween, sets_waiting hkeep, ← sets_append]
  change (List.foldlM (Machine.write g) { m.sets (before ++ between) with
    waiting := some ((m.sets before).vertex xyz₀) } _ : Option Machine) = _
  rw [List.foldlM_cons, write_second (hprim' ▸ hprim) rfl]
  dsimp only
  rw [sets_memory]
  rfl

/-! ## Transfers -/

/-- The first page of the image that is transferred. -/
def destination (r : Registers) : ℕ :=
  field (r addrBitbltbuf).toNat 32 14 / 32

/-- The image goes to the GS memory, to pages that are all there. -/
structure Transfers (r : Registers) : Prop where
  start : r addrTrxpos = 0 ∧ r addrTrxdir = 0
  page : 32 ∣ field (r addrBitbltbuf).toNat 32 14
  width : field (r addrTrxreg).toNat 0 12 ≤ 64 * field (r addrBitbltbuf).toNat 48 6
  stop : destination r + 64 * field (r addrBitbltbuf).toNat 48 6 /
      (pageShape (field (r addrBitbltbuf).toNat 56 6)).1 *
    ((field (r addrTrxreg).toNat 32 12 + (pageShape (field (r addrBitbltbuf).toNat 56 6)).2 - 1) /
      (pageShape (field (r addrBitbltbuf).toNat 56 6)).2) ≤ 512

/-- A transfer leaves the pages before its first one. -/
def Rendering.Confined (g : Rendering) : Prop :=
  ∀ (r : Registers) (data : List Qword) (memory : Memory) (c : Cell), Transfers r →
    c.page < destination r → g.transfer r data memory c = memory c

/-- Packets of image data that a transfer consists of. -/
theorem Machine.packets_images {images : List (Tag × List Qword)}
    (himages : ∀ i ∈ images, i.1.flg = gifFlgImage.toNat) :
    ∃ m', m.packets g images = some m' ∧ m'.registers = m.registers ∧
      (g.Confined → Transfers m.registers →
        ∀ c : Cell, c.page < destination m.registers → m'.memory c = m.memory c) := by
  induction images generalizing m with
  | nil => exact ⟨m, rfl, rfl, fun _ _ _ _ => rfl⟩
  | cons i images ih =>
    obtain ⟨hi, himages⟩ := List.forall_mem_cons.1 himages
    obtain ⟨m', hrun, hregisters, hconfined⟩ := ih (m := m.receive g i.2) himages
    refine ⟨m', ?_, hregisters, fun hg hr c hc => ?_⟩
    · have hpacket : m.packet g i = some (m.receive g i.2) := by
        rw [Machine.packet, if_neg (by rw [hi]; exact fun h => absurd h.1 (by decide)), if_pos hi]
      rw [Machine.packets, List.foldlM_cons, hpacket]
      exact hrun
    · exact (hconfined hg hr c hc).trans (hg _ _ _ c hr hc)

end EF2SDK.Gs
