import EF2SDK.ByteMemory
import EF2SDK.DebugLog
import EF2SDK.Numerals

/-!
# The crash report

The vector of `src/ee/runtime/crash_vector.S` saves the registers in `g_ef2_crash_frame`, and
`crash_log_frame` of `src/ee/runtime/crash.c` writes a line of the debug log from the frame.

The vector is a list of instructions. It stores every register before it uses it, but for the
scratch register `k0`, and the structure that the handler is passed has the registers of the
interrupted program (`vector_frame`).

The line has seven words, each with a label in front (`crashLogFrame_eq`) : the buffer never cuts
it, and a reader of labels and digits gets the words back (`readLine_crashLogFrame`).
-/

set_option autoImplicit false

namespace EF2SDK.Crash

open ByteMemory

/-! ## The vector -/

/-- The general registers, those of coprocessor 0, and the memory. -/
structure Cpu where
  gpr : ℕ → UInt64
  cop0 : ℕ → UInt32
  mem : Mem

/-- The instructions of the vector, `la` being `lui` and `addiu` with the halves of an address. -/
inductive Instr where
  | la (rt : ℕ) (address : UInt32)
  | move (rd rs : ℕ)
  | mfc0 (rt rd : ℕ)
  | sw (rt offset base : ℕ)
  | sd (rt offset base : ℕ)

def signExtend (w : UInt32) : UInt64 :=
  ⟨w.toBitVec.signExtend 64⟩

namespace Cpu

/-- A general register, the first of which is always zero. -/
def reg (c : Cpu) (r : ℕ) : UInt64 :=
  if r = 0 then 0 else c.gpr r

def set (c : Cpu) (r : ℕ) (value : UInt64) : Cpu :=
  { c with gpr := Function.update c.gpr r value }

/-- The address that a load or a store names. -/
def address (c : Cpu) (offset base : ℕ) : ℕ :=
  (c.reg base).toUInt32.toNat + offset

def exec (c : Cpu) : Instr → Cpu
  | .la rt address => c.set rt (signExtend address)
  | .move rd rs => c.set rd (c.reg rs)
  | .mfc0 rt rd => c.set rt (signExtend (c.cop0 rd))
  | .sw rt offset base =>
    { c with mem := writeU32 c.mem (c.address offset base) (c.reg rt).toUInt32.toNat }
  | .sd rt offset base =>
    { c with mem := writeU64 c.mem (c.address offset base) (c.reg rt).toNat }

def run (c : Cpu) (program : List Instr) : Cpu :=
  program.foldl exec c

end Cpu

/-- The registers that the vector uses : `a0`, `k0`, `k1` and `sp`. -/
abbrev a0 : ℕ := 4

abbrev k0 : ℕ := 26

abbrev k1 : ℕ := 27

abbrev sp : ℕ := 29

/-- The general registers and the offsets at which `ef2_crash_vector` stores them. -/
def gprStores : List (ℕ × ℕ) :=
  [(0, 0), (1, 8), (2, 16), (3, 24), (4, 32), (5, 40), (6, 48), (7, 56), (8, 64), (9, 72),
    (10, 80), (11, 88), (12, 96), (13, 104), (14, 112), (15, 120), (16, 128), (17, 136),
    (18, 144), (19, 152), (20, 160), (21, 168), (22, 176), (23, 184), (24, 192), (25, 200),
    (0, 208), (27, 216), (28, 224), (29, 232), (30, 240), (31, 248)]

/-- `EF2_CRASH_FRAME_STATUS` and the others, with the registers of coprocessor 0 stored there. -/
def cop0Stores : List (ℕ × ℕ) :=
  [(12, 0x100), (13, 0x104), (14, 0x108), (30, 0x10C), (8, 0x110)]

/-- `ef2_crash_vector`, up to the call of `ef2_crash_dispatch`. -/
def vector (frame stackTop : UInt32) : List Instr :=
  .la k0 frame :: (gprStores.map fun s => .sd s.1 s.2 k0)
    ++ (cop0Stores.flatMap fun s => [.mfc0 k1 s.1, .sw k1 s.2 k0])
    ++ [.la sp stackTop, .move a0 k0]

/-- `ef2_crash_frame`. -/
structure Frame where
  gpr : Fin 32 → UInt64
  status : UInt32
  cause : UInt32
  epc : UInt32
  errorEpc : UInt32
  badvaddr : UInt32

/-- The registers whose low words are reported : `gp`, `sp` and `ra`. -/
abbrev gpIndex : Fin 32 := ⟨28, by decide⟩

abbrev spIndex : Fin 32 := ⟨29, by decide⟩

abbrev raIndex : Fin 32 := ⟨31, by decide⟩

/-- The structure at an address. -/
def frameAt (m : Mem) (a : ℕ) : Frame where
  gpr i := .ofNat (readU64 m (a + 8 * i))
  status := .ofNat (readU32 m (a + 256))
  cause := .ofNat (readU32 m (a + 260))
  epc := .ofNat (readU32 m (a + 264))
  errorEpc := .ofNat (readU32 m (a + 268))
  badvaddr := .ofNat (readU32 m (a + 272))

/-- The registers at the time of the exception, without `k0`. -/
def Cpu.frame (c : Cpu) : Frame where
  gpr i := if i.val = k0 then 0 else c.reg i
  status := c.cop0 12
  cause := c.cop0 13
  epc := c.cop0 14
  errorEpc := c.cop0 30
  badvaddr := c.cop0 8

variable {c : Cpu} {r : ℕ} {value : UInt64} {frame : UInt32}

@[simp] theorem toUInt32_signExtend (w : UInt32) : (signExtend w).toUInt32 = w := by
  apply UInt32.toBitVec_inj.1
  apply BitVec.eq_of_getLsbD_eq
  intro i hi
  simp [signExtend, BitVec.getLsbD_signExtend, hi]
  omega

@[simp] theorem Cpu.reg_set_self (c : Cpu) (hr : r ≠ 0) (value : UInt64) :
    (c.set r value).reg r = value := by
  simp [reg, set, hr]

theorem Cpu.reg_set_of_ne (c : Cpu) {s : ℕ} (h : s ≠ r) (value : UInt64) :
    (c.set r value).reg s = c.reg s := by
  simp [reg, set, Function.update_of_ne h]

/-- Stores of doublewords change the memory only. -/
theorem run_sd (stores : List (ℕ × ℕ)) (c : Cpu) (base : ℕ) :
    c.run (stores.map fun s => .sd s.1 s.2 base) =
      ⟨c.gpr, c.cop0, (stores.map fun s => (c.address s.2 base, (c.reg s.1).toNat)).foldl
        (fun m s => writeU64 m s.1 s.2) c.mem⟩ := by
  induction stores generalizing c with
  | nil => rfl
  | cons s stores ih => exact ih (c.exec (.sd s.1 s.2 base))

/-- The other registers go through `k1`. -/
theorem run_mfc0_sw {stores : List (ℕ × ℕ)} {c c' : Cpu}
    (h : c.run (stores.flatMap fun s => [.mfc0 k1 s.1, .sw k1 s.2 k0]) = c') :
    (∀ r ≠ k1, c'.reg r = c.reg r) ∧
      c'.mem = (stores.map fun s => (c.address s.2 k0, (c.cop0 s.1).toNat)).foldl
        (fun m s => writeU32 m s.1 s.2) c.mem := by
  induction stores generalizing c with
  | nil =>
    subst h
    exact ⟨fun _ _ => rfl, rfl⟩
  | cons s stores ih =>
    obtain ⟨hreg, hmem⟩ := ih (c := (c.exec (.mfc0 k1 s.1)).exec (.sw k1 s.2 k0)) h
    have hk0 : (c.exec (.mfc0 k1 s.1)).reg k0 = c.reg k0 :=
      Cpu.reg_set_of_ne c (by decide) _
    have hk1 : (c.exec (.mfc0 k1 s.1)).reg k1 = signExtend (c.cop0 s.1) :=
      Cpu.reg_set_self c (by decide) _
    refine ⟨fun r hr => (hreg r hr).trans (Cpu.reg_set_of_ne c hr _), hmem.trans ?_⟩
    have haddress : ∀ offset, ((c.exec (.mfc0 k1 s.1)).exec (.sw k1 s.2 k0)).address offset k0 =
        c.address offset k0 := fun offset => congrArg (·.toUInt32.toNat + offset) hk0
    have hstored : ((c.exec (.mfc0 k1 s.1)).exec (.sw k1 s.2 k0)).mem =
        writeU32 c.mem (c.address s.2 k0) (c.cop0 s.1).toNat := by
      change writeU32 c.mem (((c.exec (.mfc0 k1 s.1)).reg k0).toUInt32.toNat + s.2)
        ((c.exec (.mfc0 k1 s.1)).reg k1).toUInt32.toNat = _
      rw [hk0, hk1, toUInt32_signExtend]
      rfl
    rw [hstored]
    simp only [haddress]
    rfl

/-- The stores of the general registers, at the address of the frame. -/
theorem run_gprStores {c c' : Cpu} {frame : UInt32}
    (h : (c.set k0 (signExtend frame)).run (gprStores.map fun s => .sd s.1 s.2 k0) = c') :
    (∀ r ≠ k0, c'.reg r = c.reg r) ∧ c'.reg k0 = signExtend frame ∧ c'.cop0 = c.cop0 ∧
      ∀ s ∈ gprStores, readU64 c'.mem (frame.toNat + s.2) = (c.reg s.1).toNat := by
  have hk0 : (c.set k0 (signExtend frame)).reg k0 = signExtend frame :=
    Cpu.reg_set_self c (by decide) _
  have haddress : ∀ offset, (c.set k0 (signExtend frame)).address offset k0 =
      frame.toNat + offset := fun offset => by
    rw [Cpu.address, hk0, toUInt32_signExtend]
  have hscratch : ∀ t ∈ gprStores, t.1 ≠ k0 := by decide
  have hpairwise : gprStores.Pairwise fun s t => s.2 + 8 ≤ t.2 ∨ t.2 + 8 ≤ s.2 := by decide
  generalize gprStores = stores at h hscratch hpairwise ⊢
  rw [run_sd] at h
  subst h
  refine ⟨fun r hr => Cpu.reg_set_of_ne c hr _, hk0, rfl, fun s hs => ?_⟩
  simp only [haddress]
  refine readU64_foldl_writeU64 ?_ (List.mem_map.2 ⟨s, hs, ?_⟩) (c.reg s.1).toNat_lt _
  · refine List.pairwise_map.2 (hpairwise.imp fun h => ?_)
    dsimp only
    omega
  · rw [Cpu.reg_set_of_ne c (hscratch s hs)]

theorem run_append (c : Cpu) (p q : List Instr) : c.run (p ++ q) = (c.run p).run q :=
  List.foldl_append

/-- The stores between the setup and the call. -/
theorem run_around {c c₁ c₂ : Cpu} {frame stackTop : UInt32} {p q : List Instr}
    (hp : (c.set k0 (signExtend frame)).run p = c₁) (hq : c₁.run q = c₂) :
    c.run (.la k0 frame :: p ++ q ++ [.la sp stackTop, .move a0 k0]) =
      (c₂.set sp (signExtend stackTop)).set a0 ((c₂.set sp (signExtend stackTop)).reg k0) := by
  subst hp hq
  rw [run_append, run_append]
  rfl

/-- The frame in a memory with the stores of the vector. -/
theorem frameAt_stores {m : Mem} {a : ℕ}
    (hgpr : ∀ s ∈ gprStores, readU64 m (a + s.2) = (c.reg s.1).toNat) :
    frameAt ((cop0Stores.map fun s => (a + s.2, (c.cop0 s.1).toNat)).foldl
      (fun m s => writeU32 m s.1 s.2) m) a = c.frame := by
  have hword : ∀ d, (c.cop0 d).toNat < 2 ^ 32 := fun d => (c.cop0 d).toNat_lt
  have hstore : ∀ i : Fin 32, (if i.val = k0 then 0 else i.val, 8 * i.val) ∈ gprStores := by
    decide
  simp only [cop0Stores, List.map_cons, List.map_nil, List.foldl_cons, List.foldl_nil]
  rw [frameAt, Cpu.frame, Frame.mk.injEq]
  refine ⟨funext fun i => ?_, ?_, ?_, ?_, ?_, ?_⟩
  · have hi := i.isLt
    rw [readU64_congr (m := m) fun x hx hx' => by
      simp (disch := omega) only [writeU32_of_disjoint], hgpr _ (hstore i), UInt64.ofNat_toNat]
    split_ifs
    · rfl
    · rfl
  all_goals
    simp (disch := first | omega | exact hword _) only [readU32_writeU32_of_disjoint,
      readU32_writeU32, UInt32.ofNat_toNat]

/-- What `ef2_crash_dispatch` is passed and finds there. -/
theorem vector_frame {c c' : Cpu} {frame stackTop : UInt32}
    (h : c.run (vector frame stackTop) = c') :
    (c'.reg a0).toUInt32 = frame ∧ (c'.reg sp).toUInt32 = stackTop ∧
      frameAt c'.mem frame.toNat = c.frame := by
  obtain ⟨c₁, hc₁⟩ : ∃ c₁, (c.set k0 (signExtend frame)).run
    (gprStores.map fun s => .sd s.1 s.2 k0) = c₁ := ⟨_, rfl⟩
  obtain ⟨c₂, hc₂⟩ : ∃ c₂, c₁.run
    (cop0Stores.flatMap fun s => [.mfc0 k1 s.1, .sw k1 s.2 k0]) = c₂ := ⟨_, rfl⟩
  obtain ⟨-, hk0, hcop0, hgpr⟩ := run_gprStores hc₁
  obtain ⟨hreg, hmem⟩ := run_mfc0_sw hc₂
  rw [vector, run_around hc₁ hc₂] at h
  subst h
  have hk0' := (hreg k0 (by decide)).trans hk0
  have haddress : ∀ offset, c₁.address offset k0 = frame.toNat + offset := fun offset => by
    rw [Cpu.address, hk0, toUInt32_signExtend]
  refine ⟨?_, ?_, ?_⟩
  · rw [Cpu.reg_set_self _ (by decide), Cpu.reg_set_of_ne c₂ (by decide), hk0',
      toUInt32_signExtend]
  · rw [Cpu.reg_set_of_ne _ (by decide), Cpu.reg_set_self c₂ (by decide), toUInt32_signExtend]
  · have hframe := frameAt_stores hgpr
    simp only [haddress, hcop0] at hmem
    rw [← hmem] at hframe
    exact hframe

/-! ## The line -/

/-- The characters of a literal. -/
def chars (s : String) : List UInt8 :=
  s.toList.map Char.toUInt8

/-- `append_char`, for a line in a buffer with room for `capacity` characters before `end`. -/
def appendChar (capacity : ℕ) (line : List UInt8) (value : UInt8) : List UInt8 :=
  if line.length < capacity then line ++ [value] else line

/-- `append_text`. -/
def appendText (capacity : ℕ) (line text : List UInt8) : List UInt8 :=
  text.foldl (appendChar capacity) line

/-- The table of `append_hex32`. -/
def digits : List UInt8 :=
  chars "0123456789ABCDEF"

/-- The shifts of the loop of `append_hex32`. -/
def hexShifts : List UInt32 :=
  [28, 24, 20, 16, 12, 8, 4, 0]

/-- `append_hex32`. -/
def appendHex32 (capacity : ℕ) (line : List UInt8) (value : UInt32) : List UInt8 :=
  hexShifts.foldl
    (fun line shift =>
      appendChar capacity line (digits.getD ((value >>> shift) &&& 0x0F).toNat 0))
    (appendText capacity line (chars "0x"))

def exceptionCode (f : Frame) : UInt32 :=
  (f.cause >>> 2) &&& 0x1F

/-- The line that `crash_log_frame` passes to `ef2_debug_write_raw`. -/
def crashLogFrame (f : Frame) : List UInt8 :=
  let line := appendText 255 [] (chars "[EF2][CRASH] EXC=")
  let line := appendHex32 255 line (exceptionCode f)
  let line := appendText 255 line (chars " CAUSE=")
  let line := appendHex32 255 line f.cause
  let line := appendText 255 line (chars " EPC=")
  let line := appendHex32 255 line f.epc
  let line := appendText 255 line (chars " BADV=")
  let line := appendHex32 255 line f.badvaddr
  let line := appendText 255 line (chars " SP=")
  let line := appendHex32 255 line (f.gpr spIndex).toUInt32
  let line := appendText 255 line (chars " RA=")
  let line := appendHex32 255 line (f.gpr raIndex).toUInt32
  let line := appendText 255 line (chars " GP=")
  let line := appendHex32 255 line (f.gpr gpIndex).toUInt32
  appendChar 255 line 0x0A

/-- The words of a crash that are reported : the exception code, CAUSE, EPC, BADVADDR, and the low
words of `sp`, `ra` and `gp`. -/
def Frame.report (f : Frame) : List UInt32 :=
  [exceptionCode f, f.cause, f.epc, f.badvaddr, (f.gpr spIndex).toUInt32,
    (f.gpr raIndex).toUInt32, (f.gpr gpIndex).toUInt32]

/-- The labels of the line. -/
def labels : List (List UInt8) :=
  ["[EF2][CRASH] EXC=", " CAUSE=", " EPC=", " BADV=", " SP=", " RA=", " GP="].map chars

/-! ## Reading the line -/

/-- The value of a digit. -/
def readDigit (c : UInt8) : Option ℕ :=
  digits.findIdx? (· = c)

/-- Eight digits after a label and `0x`, and what follows them. -/
def readField (label line : List UInt8) : Option (UInt32 × List UInt8) := do
  let rest ← line.dropPrefix? (label ++ chars "0x")
  let places ← (rest.take 8).mapM readDigit
  if places.length = 8 then
    return (UInt32.ofNat (readDigits 16 0 places), rest.drop 8)
  else
    none

/-- A field for each of the labels. -/
def readFields : List (List UInt8) → List UInt8 → Option (List UInt32 × List UInt8)
  | [], line => some ([], line)
  | label :: labels, line => do
    let (value, line) ← readField label line
    let (values, line) ← readFields labels line
    return (value :: values, line)

/-- The digits of a word. -/
def hexText (value : UInt32) : List UInt8 :=
  (placeDigits 16 8 value.toNat).map fun d => digits.getD d 0

/-- Labels and words. -/
def fieldsText (fields : List (List UInt8 × UInt32)) : List UInt8 :=
  fields.flatMap fun f => f.1 ++ chars "0x" ++ hexText f.2

variable {capacity : ℕ} {line text : List UInt8} {w : UInt32}

@[simp] theorem length_hexText (w : UInt32) : (hexText w).length = 8 := by
  rw [hexText, List.length_map, length_placeDigits]

theorem appendText_eq (h : line.length + text.length ≤ capacity) :
    appendText capacity line text = line ++ text := by
  induction text generalizing line with
  | nil => exact (List.append_nil line).symm
  | cons value text ih =>
    rw [List.length_cons] at h
    rw [appendText, List.foldl_cons, appendChar, if_pos (by omega)]
    refine (ih (by rw [List.length_append, List.length_singleton]; omega)).trans ?_
    rw [List.append_assoc, List.singleton_append]

theorem toNat_place (w : UInt32) {shift : UInt32} {k : ℕ} (hshift : shift.toNat = 4 * k)
    (hk : 4 * k < 32) : ((w >>> shift) &&& 0x0F).toNat = w.toNat / 16 ^ k % 16 := by
  rw [toNat_and_mask (n := 4) rfl, toNat_shiftRight_eq hshift hk, Nat.pow_mul]
  rfl

/-- The digits that the loop appends. -/
theorem hexText_eq (w : UInt32) :
    (hexShifts.map fun shift => digits.getD ((w >>> shift) &&& 0x0F).toNat 0) = hexText w := by
  have hplaces : (hexShifts.map fun shift => ((w >>> shift) &&& 0x0F).toNat) =
      placeDigits 16 8 w.toNat := by
    simp only [hexShifts, List.map_cons, List.map_nil, placeDigits]
    rw [toNat_place w (k := 7) rfl (by decide), toNat_place w (k := 6) rfl (by decide),
      toNat_place w (k := 5) rfl (by decide), toNat_place w (k := 4) rfl (by decide),
      toNat_place w (k := 3) rfl (by decide), toNat_place w (k := 2) rfl (by decide),
      toNat_place w (k := 1) rfl (by decide), toNat_place w (k := 0) rfl (by decide)]
  rw [hexText, ← hplaces, List.map_map]
  rfl

theorem appendHex32_eq (h : line.length + 10 ≤ capacity) :
    appendHex32 capacity line w = line ++ (chars "0x" ++ hexText w) := by
  have hprefix : appendText capacity line (chars "0x") = line ++ chars "0x" :=
    appendText_eq (by change line.length + 2 ≤ capacity; omega)
  have hdigits : appendHex32 capacity line w =
      appendText capacity (appendText capacity line (chars "0x")) (hexText w) := by
    rw [appendHex32, ← hexText_eq, appendText, appendText, List.foldl_map]
  rw [hdigits, hprefix, appendText_eq, List.append_assoc]
  rw [List.length_append, length_hexText]
  change line.length + 2 + 8 ≤ capacity
  omega

theorem length_fieldsText (fields : List (List UInt8 × UInt32)) :
    (fieldsText fields).length = (fields.map fun f => f.1.length + 10).sum := by
  rw [fieldsText, List.length_flatMap]
  congr 1
  refine List.map_congr_left fun f _ => ?_
  rw [List.length_append, List.length_append, length_hexText, Nat.add_assoc]
  rfl

/-- One field after the other, as long as the buffer has room for them. -/
theorem appendFields_eq {fields : List (List UInt8 × UInt32)}
    (h : line.length + (fieldsText fields).length ≤ capacity) :
    fields.foldl (fun line f => appendHex32 capacity (appendText capacity line f.1) f.2) line =
      line ++ fieldsText fields := by
  induction fields generalizing line with
  | nil => exact (List.append_nil line).symm
  | cons f fields ih =>
    rw [length_fieldsText, List.map_cons, List.sum_cons, ← length_fieldsText] at h
    have hlength : (line ++ (f.1 ++ chars "0x" ++ hexText f.2)).length =
        line.length + (f.1.length + 10) := by
      rw [List.length_append, List.length_append, List.length_append, length_hexText]
      rfl
    have hfield : appendHex32 capacity (appendText capacity line f.1) f.2 =
        line ++ (f.1 ++ chars "0x" ++ hexText f.2) := by
      rw [appendText_eq (by omega), appendHex32_eq (by rw [List.length_append]; omega)]
      simp only [List.append_assoc]
    rw [List.foldl_cons, hfield, ih (by omega), List.append_assoc]
    rfl

/-- The buffer has room for the line. -/
theorem crashLogFrame_eq (f : Frame) :
    crashLogFrame f = fieldsText (labels.zip f.report) ++ [0x0A] := by
  have hlength : (fieldsText (labels.zip f.report)).length = 117 := length_fieldsText _
  have hfields : crashLogFrame f = appendChar 255 ((labels.zip f.report).foldl
      (fun line f => appendHex32 255 (appendText 255 line f.1) f.2) []) 0x0A := by
    simp only [crashLogFrame, labels, Frame.report, List.map_cons, List.map_nil,
      List.zip_cons_cons, List.zip_nil_right, List.foldl_cons, List.foldl_nil]
  rw [hfields, appendFields_eq (by rw [hlength]; decide), List.nil_append, appendChar,
    if_pos (by rw [hlength]; decide)]

@[simp] theorem length_crashLogFrame (f : Frame) : (crashLogFrame f).length = 118 := by
  rw [crashLogFrame_eq, List.length_append, length_fieldsText]
  rfl

/-! ## Reading it back -/

theorem readDigit_getD : ∀ d < 16, readDigit (digits.getD d 0) = some d := by
  decide

theorem mapM_readDigit {places : List ℕ} (h : ∀ d ∈ places, d < 16) :
    (places.map fun d => digits.getD d 0).mapM readDigit = some places := by
  induction places with
  | nil => rfl
  | cons d places ih =>
    rw [List.map_cons, List.mapM_cons, readDigit_getD d (h d List.mem_cons_self),
      ih fun d hd => h d (List.mem_cons_of_mem _ hd)]
    rfl

theorem readField_append (label : List UInt8) (w : UInt32) (rest : List UInt8) :
    readField label (label ++ chars "0x" ++ hexText w ++ rest) = some (w, rest) := by
  have hdrop : (label ++ chars "0x" ++ hexText w ++ rest).dropPrefix? (label ++ chars "0x") =
      some (hexText w ++ rest) := by
    rw [List.append_assoc _ (hexText w), List.dropPrefix?_eq_some_iff]
    exact ⟨_, rfl, beq_self_eq_true _⟩
  have hplaces : ((hexText w ++ rest).take 8).mapM readDigit =
      some (placeDigits 16 8 w.toNat) := by
    rw [List.take_left' (length_hexText w), hexText]
    exact mapM_readDigit fun d hd => lt_of_mem_placeDigits (by decide) hd
  have hvalue : UInt32.ofNat (readDigits 16 0 (placeDigits 16 8 w.toNat)) = w := by
    rw [readDigits_placeDigits, Nat.zero_mul, Nat.zero_add,
      Nat.mod_eq_of_lt (show w.toNat < 16 ^ 8 from w.toNat_lt), UInt32.ofNat_toNat]
  simp only [readField, hdrop, hplaces, Option.bind_eq_bind, Option.bind_some,
    length_placeDigits, if_true, hvalue, List.drop_left' (length_hexText w), Option.pure_def]

theorem readFields_fieldsText (ls : List (List UInt8)) {ws : List UInt32}
    (hlength : ls.length = ws.length) (rest : List UInt8) :
    readFields ls (fieldsText (ls.zip ws) ++ rest) = some (ws, rest) := by
  induction ls generalizing ws with
  | nil =>
    obtain rfl := List.length_eq_zero_iff.1 hlength.symm
    rfl
  | cons label ls ih =>
    obtain ⟨w, ws, rfl⟩ := List.exists_cons_of_length_eq_add_one hlength.symm
    have htext : fieldsText ((label :: ls).zip (w :: ws)) ++ rest =
        label ++ chars "0x" ++ hexText w ++ (fieldsText (ls.zip ws) ++ rest) := by
      rw [List.zip_cons_cons, fieldsText, List.flatMap_cons, List.append_assoc]
      rfl
    rw [htext, readFields, readField_append]
    simp only [Option.bind_eq_bind, Option.bind_some, ih (Nat.succ.inj hlength), Option.pure_def]

/-- The words of a report are read off its line. -/
theorem readFields_crashLogFrame (f : Frame) :
    readFields labels (crashLogFrame f) = some (f.report, [0x0A]) := by
  rw [crashLogFrame_eq]
  exact readFields_fieldsText labels rfl _

end EF2SDK.Crash
