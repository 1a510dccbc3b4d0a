import EF2SDK.CrashLog
import EF2SDK.CrashScreen
import EF2SDK.VideoStream

/-!
# The crash handler

`ef2_crash_install` and `ef2_crash_dispatch` of `src/ee/runtime/crash.c`, with what they write to
the log and to the screen. An exception that has the vector for its handler runs the vector and
the dispatch, which does not return, and which does nothing when it is entered again.

`crash_reported` : whatever was logged before, and whatever the serial port does, the end of the
log is then the line of the interrupted program's registers, and stays so. `crash_shown` : when the
video is running, they are read off the picture as well, and the end of the log is under them.
-/

set_option autoImplicit false

namespace EF2SDK.Crash

open ByteMemory
open DebugLog (debugWriteRaw ringWrite RamLog ringBytes copyRecent copyLoop)
open TextGrid

/-! ## The system -/

/-- `g_crash_installed`, `g_crash_active`, the exceptions that have the vector for their handler,
the debug log, the memory with `g_crash_recent`, `g_crash_pixels`, and the video driver.
`g_ef2_crash_frame` is read where the vector has written it, by the first exception only. -/
structure System where
  installed : Bool
  active : Bool
  handlers : ℕ → Bool
  log : DebugLog.State
  mem : Mem
  pixels : Pixels
  video : Video.State

/-- The addresses of `g_ef2_crash_frame`, `g_ef2_crash_stack_top`, `g_crash_recent` and
`g_crash_pixels`, and the record of the texture before it is written. -/
structure Place where
  frame : UInt32
  stackTop : UInt32
  recent : ℕ
  pixels : UInt32
  texture : Video.Texture
  frame_ne : frame ≠ 0
  recent_ne : recent ≠ 0

/-- The exceptions of the three loops of `ef2_crash_install`. -/
def caught (cause : ℕ) : Bool :=
  (1 ≤ cause && cause ≤ 3) || (4 ≤ cause && cause ≤ 7) || (10 ≤ cause && cause ≤ 13)

/-- `ef2_crash_install`. -/
def crashInstall (s : System) : System :=
  if s.installed then s
  else { s with handlers := fun cause => caught cause || s.handlers cause, installed := true }

/-- `EF2_CRASH_LOG_BYTES`. -/
abbrev crashLogBytes : ℕ := 1024

/-- The lines of the log that are asked for. -/
abbrev recentLines : ℕ := 20

/-- The text from `recent_log_start` on, up to its NUL, in a buffer with `length` bytes before the
NUL of `ef2_debug_copy_recent`. -/
def recentText (m : Mem) (address length : ℕ) : List UInt8 :=
  let start := CrashLog.recentLogStart (fun i => m (address + i)) length recentLines
  ((List.range (length - start)).map fun i => m (address + start + i)).takeWhile (· ≠ 0)

variable (isr : ℕ → UInt32) (dma : ℕ → Bool) (place : Place)

/-- The end of `crash_draw_screen`. -/
def showPicture (width height : UInt16) (pixels : Pixels) : StateM Video.State PUnit := do
  Video.resetTextureAllocator
  let (result, texture) ← Video.uploadRgba32 dma (some place.texture)
    ⟨place.pixels, Video.wordBytes pixels⟩ 320 224
  if result = 0 then
    discard (Video.drawTexture dma texture 0 0 (Video.screen width) (Video.screen height))
  else
    discard (Video.clear dma 120 0 0)

/-- `crash_draw_screen`. -/
def crashDrawScreen (f : Frame) (s : System) : System :=
  match Video.getSize s.video with
  | none => s
  | some (width, height) =>
    let video := (Video.setDoubleBuffering 0 s.video).2
    let (length, m) := copyRecent s.log.ram place.recent crashLogBytes s.mem
    let pixels := crashPicture f (recentText m place.recent length) s.pixels
    { s with
      mem := m
      pixels := pixels
      video := (showPicture dma place width height pixels video).2 }

/-- `ef2_crash_dispatch`, up to the loop at its end. -/
def crashDispatch (frame : Option Frame) (s : System) : System :=
  if s.active then s
  else
    let s := { s with active := true }
    match frame with
    | none => s
    | some f =>
      crashDrawScreen dma place f
        { s with log := (debugWriteRaw isr (some (crashLogFrame f)) s.log).2 }

/-- An exception whose handler is the vector. -/
def raiseVector (cpu : Cpu) (s : System) : System :=
  let cpu := cpu.run (vector place.frame place.stackTop)
  let pointer := (cpu.reg a0).toUInt32
  crashDispatch isr dma place
    (if pointer = 0 then none else some (frameAt cpu.mem pointer.toNat)) s

/-- The number of an exception. -/
def Cpu.cause (cpu : Cpu) : ℕ :=
  (exceptionCode cpu.frame).toNat

/-- An exception, of which nothing is modelled when the kernel has the handler. -/
def raise (cpu : Cpu) (s : System) : System :=
  if s.handlers cpu.cause then raiseVector isr dma place cpu s else s

variable {isr dma place} {s : System} {cpu : Cpu}

theorem raiseVector_eq (cpu : Cpu) (s : System) :
    raiseVector isr dma place cpu s = crashDispatch isr dma place (some cpu.frame) s := by
  obtain ⟨hpointer, -, hframe⟩ := vector_frame
    (rfl : cpu.run (vector place.frame place.stackTop) = _)
  unfold raiseVector
  dsimp only
  rw [hpointer, if_neg place.frame_ne, hframe]

theorem raise_of_active (h : s.active = true) (cpu : Cpu) : raise isr dma place cpu s = s := by
  unfold raise
  rw [raiseVector_eq, crashDispatch, if_pos h, ite_self]

/-- The log and the guard are not changed by the screen. -/
theorem crashDrawScreen_log (f : Frame) (s : System) :
    (crashDrawScreen dma place f s).log = s.log
      ∧ (crashDrawScreen dma place f s).active = s.active := by
  unfold crashDrawScreen
  split
  · exact ⟨rfl, rfl⟩
  · exact ⟨rfl, rfl⟩

/-- A first exception with the vector for its handler. -/
theorem raise_caught (hactive : s.active = false) (hhandler : s.handlers cpu.cause = true) :
    raise isr dma place cpu s = crashDrawScreen dma place cpu.frame
      { s with
        active := true
        log := (debugWriteRaw isr (some (crashLogFrame cpu.frame)) s.log).2 } := by
  rw [raise, if_pos hhandler, raiseVector_eq, crashDispatch, if_neg (by rw [hactive]; decide)]

variable (isr dma place) in
theorem raise_log (hactive : s.active = false) (hhandler : s.handlers cpu.cause = true) :
    (raise isr dma place cpu s).log = (debugWriteRaw isr (some (crashLogFrame cpu.frame)) s.log).2
      ∧ (raise isr dma place cpu s).active = true := by
  rw [raise_caught hactive hhandler]
  exact crashDrawScreen_log _ _

/-! ## The end of the log -/

/-- What a ring that keeps the end of `w` gives out, in a buffer with room for it. -/
theorem copyRecent_holds {r : RamLog} {w : List UInt8} {m : Mem} {destination capacity : ℕ}
    (h : r.Holds w) (hd : destination ≠ 0) (hc : 0 < capacity) :
    ∃ n m', copyRecent r destination capacity m = (n, m') ∧
      n = min ringBytes (min w.length (capacity - 1)) ∧
      (List.range n).map (fun i => m' (destination + i)) = w.drop (w.length - n) := by
  refine ⟨_, _, DebugLog.copyRecent_eq h hd hc, rfl, ?_⟩
  rw [← h.recent (m := min ringBytes (min w.length (capacity - 1))) (by rw [h.count]; omega)]
  refine List.map_congr_left fun i hi => ?_
  have hlt := List.mem_range.1 hi
  rw [Function.update_of_ne (by omega), DebugLog.copyLoop_eq hlt]

/-- The exceptions of the loops have the vector for their handler. -/
def Installed (s : System) : Prop :=
  ∀ cause, caught cause = true → s.handlers cause = true

theorem installed_crashInstall (h : s.installed = true → Installed s) :
    Installed (crashInstall s) := by
  intro cause hcause
  unfold crashInstall
  split_ifs with hinstalled
  · exact h hinstalled cause hcause
  · exact Bool.or_eq_true_iff.2 (Or.inl hcause)

/-- The log of the calls and of the report. -/
theorem holds_report {calls : List DebugLog.Call}
    (hlog : s.log = (DebugLog.runCalls isr DebugLog.boot calls).2) (line : List UInt8) :
    (debugWriteRaw isr (some line) s.log).2.ram.Holds (DebugLog.written [] calls ++ line) := by
  have hram := (DebugLog.debugWriteRaw_ram isr (some line) s.log).2
  have hcalls := (DebugLog.runCalls_ram isr calls (s := DebugLog.boot) (w := []) rfl).2
  rw [hram, hlog, hcalls]
  exact (DebugLog.holds_empty.write (DebugLog.written [] calls)).write line

/-- The last bytes of a range of the memory. -/
theorem map_range_last {β : Type} (g : ℕ → β) {n k : ℕ} (h : k ≤ n) :
    (List.range k).map (fun i => g (n - k + i)) = ((List.range n).map g).drop (n - k) := by
  apply List.ext_getElem
  · simp
    omega
  · intro i h₁ h₂
    simp

/-- The interrupted program's registers are the end of the log, and no later exception adds to
it. -/
theorem crash_reported (isr : ℕ → UInt32) (dma : ℕ → Bool) (place : Place)
    (calls : List DebugLog.Call) (s : System) (cpu : Cpu)
    (hlog : s.log = (DebugLog.runCalls isr DebugLog.boot calls).2) (hactive : s.active = false)
    (hinstalled : Installed s) (hcause : caught cpu.cause = true)
    (m : Mem) (destination capacity : ℕ) (hd : destination ≠ 0) (hc : 118 < capacity) :
    (∃ n m', copyRecent (raise isr dma place cpu s).log.ram destination capacity m = (n, m') ∧
      (List.range n).map (fun i => m' (destination + i)) =
        (DebugLog.written [] calls ++ crashLogFrame cpu.frame).drop
          ((DebugLog.written [] calls).length + 118 - n) ∧
      118 ≤ n ∧ readFields labels ((List.range 118).map fun i => m' (destination + (n - 118 + i))) =
        some (cpu.frame.report, [0x0A]))
    ∧ ∀ later : List Cpu,
      later.foldl (fun s cpu => raise isr dma place cpu s) (raise isr dma place cpu s) =
        raise isr dma place cpu s := by
  obtain ⟨hlogged, hguard⟩ := raise_log isr dma place hactive (hinstalled _ hcause)
  constructor
  · have hholds := holds_report hlog (crashLogFrame cpu.frame)
    rw [← hlogged] at hholds
    obtain ⟨n, m', hcopy, hn, hbytes⟩ := copyRecent_holds (m := m) hholds hd (Nat.zero_lt_of_lt hc)
    rw [List.length_append, length_crashLogFrame] at hn hbytes
    have hle : 118 ≤ n := by
      have hring : ringBytes = 8192 := rfl
      omega
    refine ⟨n, m', hcopy, hbytes, hle, ?_⟩
    rw [map_range_last (fun i => m' (destination + i)) hle, hbytes, List.drop_drop]
    have hline : (DebugLog.written [] calls).length + 118 - n + (n - 118) =
        (DebugLog.written [] calls).length := by
      omega
    rw [hline, List.drop_left, readFields_crashLogFrame]
  · intro later
    induction later with
    | nil => rfl
    | cons next later ih => rw [List.foldl_cons, raise_of_active hguard, ih]

/-- A trap, with nothing but a stack pointer and a return address in the registers. -/
def trapped : Cpu where
  gpr r := if r = 29 then 0x001FFFF0 else if r = 31 then 0x00100200 else 0
  cop0 r := if r = 13 then 0x34 else if r = 14 then 0x00100208 else 0
  mem _ := 0

def trapPlace : Place where
  frame := 0x00140000
  stackTop := 0x00142180
  recent := 0x00143000
  pixels := 0x00144000
  texture := ⟨0, 0, 0, 0, 0, 0, 0, 0, 0, false, false⟩
  frame_ne := by decide
  recent_ne := by decide

/-- One byte is logged, the handler is installed, and the screen has a size. -/
def trapSystem : System := crashInstall
  { installed := false
    active := false
    handlers := fun _ => false
    log := (DebugLog.runCalls (fun _ => 0x8000) DebugLog.boot [.writeRaw (some [0x41])]).2
    mem := fun _ => 0
    pixels := fun _ => 0
    video := { Video.boot with width := 640, height := 448 } }

theorem trapped_report : trapped.frame.report =
    [13, 0x34, 0x00100208, 0, 0x001FFFF0, 0x00100200, 0] := by
  decide

theorem trapSystem_installed : Installed trapSystem :=
  installed_crashInstall fun h => absurd h (by decide)

theorem crash_reported_trapped : ∃ n m',
    copyRecent (raise (fun _ => 0x8000) (fun _ => true) trapPlace trapped trapSystem).log.ram 64 256
      (fun _ => 0) = (n, m') ∧
    readFields labels ((List.range 118).map fun i => m' (64 + (n - 118 + i))) =
      some ([13, 0x34, 0x00100208, 0, 0x001FFFF0, 0x00100200, 0], [0x0A]) := by
  obtain ⟨⟨n, m', hcopy, -, -, hread⟩, -⟩ := crash_reported (fun _ => 0x8000) (fun _ => true)
    trapPlace [.writeRaw (some [0x41])] trapSystem trapped rfl rfl trapSystem_installed (by decide)
    (fun _ => 0) 64 256 (by decide) (by decide)
  rw [trapped_report] at hread
  exact ⟨n, m', hcopy, hread⟩

/-! ## The picture -/

/-- The pixels under the other texts are drawn by the recent log alone. -/
theorem crashPicture_recent {X Y : ℕ} (f : Frame) (recent : List UInt8) (hX : X < screenW)
    (hY : Y < screenH) (hlog : 94 ≤ Y) (p : Pixels) :
    ∃ p', pixel p' X Y = 0x80000038 ∧ pixel (crashPicture f recent p) X Y =
      pixel (drawText 8 94 recent 0x80E8E8E8 76 p') X Y := by
  have hbefore : ∀ d ∈ titleCall :: (registerRows.zip f.report).map registerCall
      ++ [recentTitleCall], OneLine d.text ∧ d.y + 6 ≤ Y := by
    intro d hd
    rcases List.mem_append.1 hd with hd | hd
    · rcases List.mem_cons.1 hd with rfl | hd
      · exact ⟨oneLine_title, Nat.le_trans (show 6 + 6 ≤ 94 by decide) hlog⟩
      · obtain ⟨r, hr, rfl⟩ := List.mem_map.1 hd
        obtain ⟨hline, -, hhigh⟩ := registerCall_oneLine hr
        exact ⟨hline, by rw [registerCall_y]; omega⟩
    · obtain rfl := List.mem_singleton.1 hd
      exact ⟨oneLine_recentTitle, Nat.le_trans (show 84 + 6 ≤ 94 by decide) hlog⟩
  have hcalls : textCalls f recent = (titleCall :: (registerRows.zip f.report).map registerCall
      ++ [recentTitleCall]) ++ [recentCall recent] := by
    rw [textCalls, List.append_assoc]
    rfl
  obtain ⟨p', hp', hpixel⟩ := drawTexts_pixel (c := recentCall recent) hX hY hbefore
    (fun d hd => absurd hd List.not_mem_nil) (screenFill 0x80000038 p)
  rw [← hcalls, ← crashPicture_eq] at hpixel
  exact ⟨p', hp'.trans (screenFill_pixel hX hY _ p), hpixel⟩

/-- When the video is running, the registers are read off the picture, below them the cells of the
recent log have its characters, and left of the texts there is the background. -/
theorem crash_shown (isr : ℕ → UInt32) (dma : ℕ → Bool) (place : Place)
    (calls : List DebugLog.Call) (s : System) (cpu : Cpu) (width height : UInt16)
    (hlog : s.log = (DebugLog.runCalls isr DebugLog.boot calls).2) (hactive : s.active = false)
    (hinstalled : Installed s) (hcause : caught cpu.cause = true)
    (hsize : Video.getSize s.video = some (width, height)) :
    readScreen (raise isr dma place cpu s).pixels = some cpu.frame.report
    ∧ (∀ X Y, X < 8 → Y < screenH → pixel (raise isr dma place cpu s).pixels X Y = 0x80000038)
    ∧ ∃ n, (List.range n).map (fun i => (raise isr dma place cpu s).mem (place.recent + i)) =
        (DebugLog.written [] calls ++ crashLogFrame cpu.frame).drop
          ((DebugLog.written [] calls).length + 118 - n)
      ∧ n = min (crashLogBytes - 1) ((DebugLog.written [] calls).length + 118)
      ∧ ∀ X Y, 8 ≤ X → X < screenW → 94 ≤ Y → Y < screenH → (Y - 94) / 6 < 21 →
        (∀ character, Stands 76 0
            (lines 0x0A 0x0D (recentText (raise isr dma place cpu s).mem place.recent n))
            ((Y - 94) / 6, (X - 8) / 4) character →
          pixel (raise isr dma place cpu s).pixels X Y =
            if (X - 8) % 4 < 3 ∧ (Y - 94) % 6 < 5
                ∧ glyphBit character ((Y - 94) % 6) ((X - 8) % 4) = true then 0x80E8E8E8
            else 0x80000038)
        ∧ ((∀ character, ¬Stands 76 0
            (lines 0x0A 0x0D (recentText (raise isr dma place cpu s).mem place.recent n))
            ((Y - 94) / 6, (X - 8) / 4) character) →
          pixel (raise isr dma place cpu s).pixels X Y = 0x80000038) := by
  have hholds := holds_report hlog (crashLogFrame cpu.frame)
  obtain ⟨n, m', hcopy, hn, hbytes⟩ := copyRecent_holds (m := s.mem) hholds place.recent_ne
    (show 0 < crashLogBytes by decide)
  rw [List.length_append, length_crashLogFrame] at hn hbytes
  have hdraw : (raise isr dma place cpu s).mem = m' ∧ (raise isr dma place cpu s).pixels =
      crashPicture cpu.frame (recentText m' place.recent n) s.pixels := by
    rw [raise_caught hactive (hinstalled _ hcause), crashDrawScreen]
    simp only [hsize, hcopy, and_self]
  rw [hdraw.1, hdraw.2]
  have hring : ringBytes = 8192 := rfl
  have hbuffer : crashLogBytes = 1024 := rfl
  refine ⟨readScreen_crashPicture _ _ _, fun X Y hX hY => crashPicture_left _ _ hX hY _, n, hbytes,
    by omega, fun X Y hx hX hy hY hrow => ?_⟩
  obtain ⟨p', hp', hpixel⟩ := crashPicture_recent cpu.frame (recentText m' place.recent n) hX hY hy
    s.pixels
  have hcolumn : offset 8 X = X - 8 := offset_of_le hx (Nat.lt_trans hX (by decide))
  have hrow' : offset 94 Y = Y - 94 := offset_of_le hy (Nat.lt_trans hY (by decide))
  have hlines : wholeLines 94 = 21 := by decide
  have hcell := drawText_cell hX hY (show 0 < (76 : UInt32).toNat by decide)
    (fits_columns (recentText m' place.recent n)) (by rw [hrow', hlines]; exact hrow) 8 0x80E8E8E8
    p'
  rw [hcolumn, hrow', hp', ← hpixel] at hcell
  exact hcell

theorem crash_shown_trapped :
    readScreen (raise (fun _ => 0x8000) (fun _ => true) trapPlace trapped trapSystem).pixels =
      some [13, 0x34, 0x00100208, 0, 0x001FFFF0, 0x00100200, 0] := by
  rw [← trapped_report]
  exact (crash_shown (fun _ => 0x8000) (fun _ => true) trapPlace [.writeRaw (some [0x41])]
    trapSystem trapped 640 448 rfl rfl trapSystem_installed (by decide) rfl).1

end EF2SDK.Crash
