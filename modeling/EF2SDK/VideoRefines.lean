import EF2SDK.VideoTransfers

/-!
# The driver refines a canvas

A canvas of two pictures is what the driver is for : `clear`, a rectangle, a line and a texture
paint, and `ef2_video_present` displays what was painted. The pixels of the two framebuffers are
such a canvas (`Shows`), and every call does to them what it means on the canvas
(`Shows.refines`) : the packets it sends, run by the GS, paint those pixels of the buffer that is
drawn to, and leave the rest of both. So a run of calls paints one after the other
(`calls_painted`), and while double buffering is on the display shows no picture that is still
being painted (`display_whole`).
-/

set_option autoImplicit false

namespace EF2SDK.Video

open Gif (Qword)
open Gs

variable {dma : ℕ → Bool} {g : Rendering} {v v' : State} {m m' : Machine}

/-! ## The canvas -/

abbrev Pixels := ℕ × ℕ → UInt32

/-- Some pixels get new values. -/
def overlay (new : ℕ × ℕ → Option UInt32) (pixels : Pixels) : Pixels := fun p =>
  (new p).getD (pixels p)

/-- The framebuffer of a half of the canvas. -/
def index (half : Bool) : UInt32 :=
  if half then 1 else 0

/-- What a call does to the canvas, with this driver and on this machine. The pixels of a line are
the GS's, between its ends moved onto the screen, and so are the values of the pixels of a
texture. -/
def Call.act (g : Rendering) (v : State) (m : Machine) : Call → Canvas.Act Pixels
  | .clear r g' b => .paint (overlay fun _ => some (paintOf g v.layout.gsPsm r g' b))
  | .drawRect x y width height r g' b =>
    .paint (overlay (filled (asked x y width height) (paintOf g v.layout.gsPsm r g' b)))
  | .drawLine x0 y0 x1 y1 r g' b => .paint (overlay fun p =>
      if g.onLine (corner v.width v.height x0 y0) (corner v.width v.height x1 y1) p = true then
        some (paintOf g v.layout.gsPsm r g' b)
      else none)
  | .drawTexture texture x y width height =>
    .paint (overlay (texturePixels g v m texture x y width height))
  | .drawTextureRegion texture sx sy sw sh x y width height r g' b a blend =>
    .paint (overlay (regionPixels g v m texture sx sy sw sh x y width height r g' b a blend))
  | .present csr => if Seen csr then .present else .stay
  | .setDoubleBuffering enabled => .setDoubled (decide (enabled ≠ 0))
  | _ => .stay

/-- The rectangle of a call does not reach out of 32 bits. -/
def Call.InRange : Call → Prop
  | .drawRect x y width height _ _ _ => ¬Wraps x y width height
  | .drawTexture _ x y width height => ¬Wraps x y width height
  | .drawTextureRegion _ _ _ _ _ x y width height _ _ _ _ _ => ¬Wraps x y width height
  | _ => True

/-- The memory of the GS holds the canvas in the two framebuffers. -/
structure Shows (v : State) (m : Machine) (s : Canvas Pixels) : Prop where
  pixels : ∀ half q, InPicture v q →
    m.memory ((bufferOf v (index half)).cell q) = s.buffers.halves half q
  displayed : v.displayBuffer = index s.buffers.active
  doubled : v.doubleBuffered = s.doubled
  fromPrim : FromPrim m

variable {s : Canvas Pixels}

theorem isBuffer_index : (half : Bool) → IsBuffer (index half)
  | false => Or.inl rfl
  | true => Or.inr rfl

theorem index_inj {half half' : Bool} (h : index half = index half') : half = half' := by
  cases half <;> cases half' <;> first | rfl | exact absurd h (by decide)

theorem Shows.drawBuffer (h : Shows v m s) (hv : Screens v) : v.drawBuffer = index s.target := by
  have hdraw := hv.roles.draw
  rw [h.doubled, h.displayed] at hdraw
  rw [hdraw, Canvas.target]
  cases s.doubled <;> cases s.buffers.active <;> rfl

/-- The framebuffers are where they were. -/
theorem SameMode.bufferOf (h : SameMode v v') (i : UInt32) :
    Video.bufferOf v' i = Video.bufferOf v i := by
  have hlayout : v'.layout = v.layout := congrArg Active.layout h
  have hbase : v'.framebufferBase = v.framebufferBase := congrArg Active.framebufferBase h
  rw [Video.bufferOf, Video.bufferOf, frameFbp, frameFbp, hlayout, hbase]

theorem SameMode.inPicture_iff (h : SameMode v v') {q : ℕ × ℕ} :
    InPicture v' q ↔ InPicture v q := by
  have hwidth : v'.width = v.width := congrArg Active.width h
  have hheight : v'.height = v.height := congrArg Active.height h
  rw [InPicture, InPicture, hwidth, hheight]

/-- What is painted in the memory is painted on the canvas. -/
theorem Shows.paint (h : Shows v m s) (hv : Screens v) {new : ℕ × ℕ → Option UInt32}
    (hpaints : Paints g v v' m new) (hsame : Same v v') :
    ∃ m', Runs g v v' m m' ∧ Shows v' m' (s.paint (overlay new)) := by
  obtain ⟨m', hruns, hm', hmemory⟩ := hpaints
  refine ⟨m', hruns, fun half q hq => ?_, ?_, ?_, hm'⟩
  · have hq' : InPicture v q := hsame.sameMode.inPicture_iff.1 hq
    rw [hsame.sameMode.bufferOf, hmemory _ _ (isBuffer_index half) hq', h.pixels half q hq',
      h.drawBuffer hv, Canvas.paint_half]
    by_cases htarget : half = s.target
    · rw [if_pos (congrArg index htarget), if_pos htarget]
      rfl
    · rw [if_neg fun hindex => htarget (index_inj hindex), if_neg htarget]
  · rw [Canvas.paint_active]
    exact (congrArg Active.displayBuffer hsame).trans h.displayed
  · exact (congrArg Active.doubleBuffered hsame).trans h.doubled

/-- The canvas that the memory holds. -/
def canvasOf (v : State) (m : Machine) : Canvas Pixels where
  buffers :=
    { halves := fun half q => m.memory ((bufferOf v (index half)).cell q)
      active := decide (v.displayBuffer = 1)
      shown := [] }
  doubled := v.doubleBuffered

theorem shows_canvasOf (hv : Screens v) (hm : FromPrim m) : Shows v m (canvasOf v m) := by
  refine ⟨fun _ _ _ => rfl, ?_, rfl, hm⟩
  rcases hv.roles.display with hdisplay | hdisplay <;> rw [canvasOf, hdisplay] <;> rfl

/-- A call that sends nothing may change the roles of the framebuffers. -/
theorem Shows.silent (h : Shows v m s) (hmode : SameMode v v') {s' : Canvas Pixels}
    (hhalves : s'.buffers.halves = s.buffers.halves)
    (hdisplayed : v'.displayBuffer = index s'.buffers.active)
    (hdoubled : v'.doubleBuffered = s'.doubled) : Shows v' m s' := by
  refine ⟨fun half q hq => ?_, hdisplayed, hdoubled, h.fromPrim⟩
  rw [hmode.bufferOf, hhalves]
  exact h.pixels half q (hmode.inPicture_iff.1 hq)

/-- What a call sends to the GS does to the memory what the call does to the canvas. -/
def Refines (dma : ℕ → Bool) (g : Rendering) (v : State) (m : Machine) (s : Canvas Pixels)
    (c : Call) : Prop :=
  ∃ m', Runs g v (c.exec dma v) m m' ∧ Shows (c.exec dma v) m' (s.act (c.act g v m))

theorem Shows.refines_paint (h : Shows v m s) (hv : Screens v) {c : Call}
    {new : ℕ × ℕ → Option UInt32} (hpaints : Paints g v (c.exec dma v) m new)
    (hsame : Same v (c.exec dma v)) (hact : c.act g v m = .paint (overlay new)) :
    Refines dma g v m s c := by
  rw [Refines, hact]
  exact h.paint hv hpaints hsame

/-- An upload leaves the canvas. -/
theorem Shows.refines_upload (h : Shows v m s) {c : Call}
    (hpaints : Paints g v (c.exec dma v) m fun _ => none) (hmode : SameMode v (c.exec dma v))
    (hroles : (c.exec dma v).displayBuffer = v.displayBuffer ∧
      (c.exec dma v).doubleBuffered = v.doubleBuffered) (hact : c.act g v m = .stay) :
    Refines dma g v m s c := by
  obtain ⟨m', hruns, hm', hmemory⟩ := hpaints
  rw [Refines, hact]
  refine ⟨m', hruns, fun half q hq => ?_, hroles.1.trans h.displayed, hroles.2.trans h.doubled, hm'⟩
  have hq' := hmode.inPicture_iff.1 hq
  rw [hmode.bufferOf, hmemory _ _ (isBuffer_index half) hq', h.pixels half q hq']
  exact ite_self _

theorem Uploaded.roles {r : ℤ × Option Texture} (h : Uploaded v r v') :
    v'.displayBuffer = v.displayBuffer ∧ v'.doubleBuffered = v.doubleBuffered := by
  by_cases hok : r.1 = 0
  · obtain ⟨-, -, -, hactive⟩ := h.2 hok
    exact ⟨congrArg Active.displayBuffer hactive, congrArg Active.doubleBuffered hactive⟩
  · have hsame := h.1 hok
    exact ⟨congrArg Active.displayBuffer hsame, congrArg Active.doubleBuffered hsame⟩

/-- A call that sends nothing and changes no roles. -/
theorem Shows.refines_stay (h : Shows v m s) {c : Call} (hmode : SameMode v (c.exec dma v))
    (hsubmitted : (c.exec dma v).submitted = v.submitted)
    (hroles : (c.exec dma v).displayBuffer = v.displayBuffer ∧
      (c.exec dma v).doubleBuffered = v.doubleBuffered) (hact : c.act g v m = .stay) :
    Refines dma g v m s c := by
  rw [Refines, hact]
  exact ⟨m, .silent hsubmitted, h.silent hmode rfl (hroles.1.trans h.displayed)
    (hroles.2.trans h.doubled)⟩

theorem Shows.refines_setDoubleBuffering (h : Shows v m s) (hv : Screens v) (enabled : UInt32) :
    Refines dma g v m s (.setDoubleBuffering enabled) := by
  have hmode : SameMode v ((Call.setDoubleBuffering enabled).exec dma v) :=
    (sameGeometry_setDoubleBuffering enabled v).sameMode
  have hafter : (setDoubleBuffering enabled v).2.submitted = v.submitted ∧
      (setDoubleBuffering enabled v).2.displayBuffer = v.displayBuffer ∧
      (setDoubleBuffering enabled v).2.doubleBuffered = decide (enabled ≠ 0) := by
    rw [setDoubleBuffering, if_neg hv.size_ne_zero]
    split
    next henabled =>
      split
      next => exact ⟨rfl, rfl, (decide_eq_true henabled).symm⟩
      next hdouble =>
        exact ⟨rfl, rfl, (eq_true_of_ne_false hdouble).trans (decide_eq_true henabled).symm⟩
    next henabled => exact ⟨rfl, rfl, (decide_eq_false henabled).symm⟩
  exact ⟨m, .silent hafter.1, h.silent hmode rfl (hafter.2.1.trans h.displayed) hafter.2.2⟩

theorem Shows.refines_present (h : Shows v m s) (hv : Screens v) (csr : ℕ → Bool) :
    Refines dma g v m s (.present csr) := by
  have hmode : SameMode v ((Call.present csr).exec dma v) :=
    (sameGeometry_present csr v).sameMode
  have hrun := present_run hv.size_ne_zero csr
  by_cases hseen : Seen csr
  · have hact : (Call.present csr).act g v m = .present := if_pos hseen
    rw [if_pos hseen] at hrun
    rw [Refines, hact]
    by_cases hdouble : v.doubleBuffered = true
    · rw [if_pos hdouble] at hrun
      have hsdouble : s.doubled = true := h.doubled ▸ hdouble
      have hdraw := h.drawBuffer hv
      rw [Canvas.target, if_pos hsdouble] at hdraw
      have hbuffers : s.present.buffers = s.buffers.flip := if_pos hsdouble
      have hhalves : s.present.buffers.halves = s.buffers.flip.halves :=
        congrArg DoubleBuffer.State.halves hbuffers
      refine ⟨m, ?_, h.silent hmode hhalves ?_ ?_⟩
      · exact .silent (congrArg (fun r => r.2.submitted) hrun)
      · refine (congrArg (fun r => r.2.displayBuffer) hrun).trans (hdraw.trans ?_)
        exact (congrArg (fun b => index b.active) hbuffers).symm
      · exact (congrArg (fun r => r.2.doubleBuffered) hrun).trans h.doubled
    · rw [if_neg hdouble] at hrun
      have hbuffers : s.present.buffers = s.buffers := if_neg fun hs => hdouble (h.doubled ▸ hs)
      refine ⟨m, ?_, h.silent hmode ?_ ?_ ?_⟩
      · exact .silent (congrArg (fun r => r.2.submitted) hrun)
      · exact congrArg DoubleBuffer.State.halves hbuffers
      · refine (congrArg (fun r => r.2.displayBuffer) hrun).trans (h.displayed.trans ?_)
        exact (congrArg (fun b => index b.active) hbuffers).symm
      · exact (congrArg (fun r => r.2.doubleBuffered) hrun).trans h.doubled
  · rw [if_neg hseen] at hrun
    exact h.refines_stay hmode (congrArg (fun r => r.2.submitted) hrun)
      ⟨congrArg (fun r => r.2.displayBuffer) hrun, congrArg (fun r => r.2.doubleBuffered) hrun⟩
      (if_neg hseen)

theorem Shows.refines_waitVsync (h : Shows v m s) (hv : Screens v) (csr : ℕ → Bool)
    (timeout : UInt32) : Refines dma g v m s (.waitVsync csr timeout) := by
  have hsame : Same v ((Call.waitVsync csr timeout).exec dma v) := same_waitVsync csr timeout v
  have hrun := waitVsync_run hv.size_ne_zero csr timeout
  generalize (if timeout = 0 then (0x04000000 : UInt32) else timeout).toNat = rounds at hrun
  refine h.refines_stay hsame.sameMode ?_
    ⟨congrArg Active.displayBuffer hsame, congrArg Active.doubleBuffered hsame⟩ rfl
  refine (congrArg (fun r => r.2.submitted) hrun).trans ?_
  dsimp only
  split <;> rfl

/-! ## Every run -/

/-- Every call but `ef2_video_init` does to the memory of the GS what it means on the canvas. -/
theorem Shows.refines (hg : g.Confined) (hv : Running dma v) (h : Shows v m s) {c : Call}
    (hc : c.Ordinary) (hrange : c.InRange) : Refines dma g v m s c := by
  have hscreens := hv.screens
  have hm := h.fromPrim
  cases c with
  | init config romver dmaInit => exact absurd rfl (hc config romver dmaInit)
  | setBackground => exact h.refines_stay rfl rfl ⟨rfl, rfl⟩ rfl
  | setDoubleBuffering enabled => exact h.refines_setDoubleBuffering hscreens enabled
  | waitVsync csr timeout => exact h.refines_waitVsync hscreens csr timeout
  | present csr => exact h.refines_present hscreens csr
  | drawRect x y width height red green blue =>
    exact h.refines_paint hscreens (drawRect_paints hv hm hrange red green blue)
      (same_drawRect _ _ _ _ _ _ _ v) rfl
  | drawLine x0 y0 x1 y1 red green blue =>
    exact h.refines_paint hscreens (drawLine_paints hv hm x0 y0 x1 y1 red green blue)
      (same_drawLine _ _ _ _ _ _ _ v) rfl
  | clear red green blue =>
    exact h.refines_paint hscreens (clear_paints hv hm red green blue) (same_clear _ _ _ v) rfl
  | resetTextureAllocator => exact h.refines_stay rfl rfl ⟨rfl, rfl⟩ rfl
  | uploadRgba32 texture pixels width height =>
    exact h.refines_upload (uploadRgba32_paints hg hscreens hm texture pixels width height)
      (sameMode_exec hc v)
      (uploadRgba32_uploaded hscreens.cursor.2 _ _ _ _ v (refl_of Same v)).roles rfl
  | uploadIndexed8 texture indices palette width height =>
    exact h.refines_upload
      (uploadIndexed8_paints hg hscreens hm texture indices palette width height)
      (sameMode_exec hc v)
      (uploadIndexed8_uploaded hscreens.cursor.2 _ _ _ _ _ v (refl_of Same v)).roles rfl
  | uploadIndexed4 texture packedIndices palette width height =>
    exact h.refines_upload
      (uploadIndexed4_paints hg hscreens hm texture packedIndices palette width height)
      (sameMode_exec hc v)
      (uploadIndexed4_uploaded hscreens.cursor.2 _ _ _ _ _ v (refl_of Same v)).roles rfl
  | drawTextureRegion texture sx sy sw sh x y width height red green blue alpha blend =>
    exact h.refines_paint hscreens
      (drawTextureRegion_paints hv hm hrange texture sx sy sw sh red green blue alpha blend)
      (same_drawTextureRegion _ _ _ _ _ _ _ _ _ _ _ _ _ _ v) rfl
  | drawTexture texture x y width height =>
    exact h.refines_paint hscreens (drawTexture_paints hv hm hrange texture)
      (same_drawTexture _ _ _ _ _ v) rfl

theorem Running.exec (h : Running dma v) {c : Call} (hc : c.Ordinary) :
    Running dma (c.exec dma v) := by
  obtain ⟨config, romver, dmaInit, u, calls, hinit, hcalls, rfl⟩ := h
  refine ⟨config, romver, dmaInit, u, calls ++ [c], hinit, ?_, List.foldl_concat _ _ _ _⟩
  exact List.forall_mem_append.2 ⟨hcalls, List.forall_mem_singleton.2 hc⟩

theorem Running.run (h : Running dma v) {calls : List Call} (hcalls : ∀ c ∈ calls, c.Ordinary) :
    Running dma (calls.foldl (Call.exec dma) v) := by
  induction calls generalizing v with
  | nil => exact h
  | cons c calls ih =>
    obtain ⟨hc, hcalls⟩ := List.forall_mem_cons.1 hcalls
    exact ih (h.exec hc) hcalls

/-- A run of calls that each are ordinary and in range. -/
def Proper (calls : List Call) : Prop :=
  ∀ c ∈ calls, c.Ordinary ∧ c.InRange

/-- What a run of calls does to the canvas, each call on what the driver and the GS have become by
then, and the machine that runs what they send. -/
inductive Performs (dma : ℕ → Bool) (g : Rendering) :
    State → Machine → List Call → List (Canvas.Act Pixels) → Machine → Prop
  | nil (v : State) (m : Machine) : Performs dma g v m [] [] m
  | cons {v : State} {m u m' : Machine} {c : Call} {calls : List Call}
      {acts : List (Canvas.Act Pixels)} (hruns : Runs g v (c.exec dma v) m u)
      (h : Performs dma g (c.exec dma v) u calls acts m') :
      Performs dma g v m (c :: calls) (c.act g v m :: acts) m'

variable {calls : List Call} {acts : List (Canvas.Act Pixels)}

theorem Performs.runs (h : Performs dma g v m calls acts m') :
    Runs g v (calls.foldl (Call.exec dma) v) m m' := by
  induction h with
  | nil => exact .silent rfl
  | cons hruns _ ih => exact hruns.trans ih

theorem Performs.uncons {c : Call} (h : Performs dma g v m (c :: calls) acts m') :
    ∃ u acts', acts = c.act g v m :: acts' ∧ Performs dma g (c.exec dma v) u calls acts' m' := by
  cases h with
  | cons hruns h => exact ⟨_, _, rfl, h⟩

theorem Shows.run (hg : g.Confined) (hv : Running dma v) (h : Shows v m s)
    (hcalls : Proper calls) :
    ∃ m' acts, Performs dma g v m calls acts m' ∧
      Shows (calls.foldl (Call.exec dma) v) m' (s.run acts) := by
  induction calls generalizing v m s with
  | nil => exact ⟨m, [], .nil v m, h⟩
  | cons c calls ih =>
    obtain ⟨hc, hcalls⟩ := List.forall_mem_cons.1 hcalls
    obtain ⟨u, hruns, hshows⟩ := h.refines hg hv hc.1 hc.2
    obtain ⟨m', acts, hperforms, hshows'⟩ := ih (hv.exec hc.1) hshows hcalls
    exact ⟨m', c.act g v m :: acts, .cons hruns hperforms, hshows'⟩

/-- The GS runs what a running driver sends. -/
theorem Runs.run_stream (h : Runs g v v' m m') :
    ∃ stream, v'.submitted = v.submitted ++ stream ∧ m.run g stream = some m' := by
  obtain ⟨stream, packets, hstream, hreads, hrun⟩ := h
  refine ⟨stream, hstream, ?_⟩
  rw [Machine.run, hreads.parse_eq]
  exact hrun

/-- A running driver paints. Every run of calls sends a stream of whole packets that the GS runs,
and after it the framebuffers hold what painting one call after the other makes of them : the one
that `DISPFB2` names is the half of the canvas that is displayed. -/
theorem calls_painted (hg : g.Confined) (hv : Running dma v) (h : Shows v m s)
    (hcalls : Proper calls) :
    ∃ stream m' acts, (calls.foldl (Call.exec dma) v).submitted = v.submitted ++ stream ∧
      m.run g stream = some m' ∧ Performs dma g v m calls acts m' ∧
      Shows (calls.foldl (Call.exec dma) v) m' (s.run acts) ∧
      (calls.foldl (Call.exec dma) v).dispfb =
        some (shows v (index (s.run acts).buffers.active)) := by
  obtain ⟨m', acts, hperforms, hshows⟩ := h.run hg hv hcalls
  obtain ⟨stream, hstream, hrun⟩ := hperforms.runs.run_stream
  have hordinary : ∀ c ∈ calls, c.Ordinary := fun c hc => (hcalls c hc).1
  have hroles := (hv.run hordinary).screens.roles.dispfb
  refine ⟨stream, m', acts, hstream, hrun, hperforms, hshows, ?_⟩
  rw [hroles, shows_congr (sameMode_calls hordinary v), hshows.displayed]

/-- A GS that keeps a colour in its format, and draws no lines. -/
def plainRendering : Rendering where
  stored psm rgba :=
    match psm, rgba with
    | 0, [r, g, b, a] => .ofNat (r + g * 2 ^ 8 + b * 2 ^ 16 + a * 2 ^ 24)
    | _, [r, g, b, a] => .ofNat (r / 8 + g / 8 * 2 ^ 5 + b / 8 * 2 ^ 10 + a / 128 * 2 ^ 15)
    | _, _ => 0
  onLine _ _ _ := false
  shaded _ _ _ _ _ := 0
  transfer _ _ memory := memory

theorem plainRendering_confined : plainRendering.Confined := fun _ _ _ _ _ _ =>
  rfl

/-- A GS before the first packet, with attributes from `PRIM`. -/
def freshMachine : Machine where
  registers := fun address => if address = addrPrmodecont then 1 else 0
  waiting := none
  received := []
  memory := fun _ => 0

/-- A background, and a rectangle across the edges of the screen. -/
def frameCalls : List Call :=
  [.clear 0 0 64, .drawRect 600 400 100 100 255 0 0]

/-- A presentation, and the background of the next picture. -/
def nextCalls : List Call :=
  [.present fun _ => true, .clear 9 9 9]

theorem frameCalls_proper : Proper frameCalls :=
  List.forall_mem_cons.2 ⟨⟨by simp [Call.Ordinary], trivial⟩, List.forall_mem_singleton.2
    ⟨by simp [Call.Ordinary], show ¬Wraps 600 400 100 100 by decide⟩⟩

theorem nextCalls_proper : Proper nextCalls :=
  List.forall_mem_cons.2 ⟨⟨by simp [Call.Ordinary], trivial⟩, List.forall_mem_singleton.2
    ⟨by simp [Call.Ordinary], trivial⟩⟩

/-- Double buffering, a picture and its presentation. -/
def paintCalls : List Call :=
  .setDoubleBuffering 1 :: (frameCalls ++ nextCalls)

theorem paintCalls_proper : Proper paintCalls :=
  List.forall_mem_cons.2 ⟨⟨by simp [Call.Ordinary], trivial⟩,
    List.forall_mem_append.2 ⟨frameCalls_proper, nextCalls_proper⟩⟩

theorem freshMachine_fromPrim : FromPrim freshMachine :=
  show freshMachine.registers addrPrmodecont = 1 from rfl

theorem calls_painted_paintCalls : ∃ stream m' acts,
    (paintCalls.foldl (Call.exec fun _ => true) standardVideo).submitted =
        standardVideo.submitted ++ stream ∧
      freshMachine.run plainRendering stream = some m' ∧
      Performs (fun _ => true) plainRendering standardVideo freshMachine paintCalls acts m' ∧
      Shows (paintCalls.foldl (Call.exec fun _ => true) standardVideo) m'
        ((canvasOf standardVideo freshMachine).run acts) ∧
      (paintCalls.foldl (Call.exec fun _ => true) standardVideo).dispfb =
        some (shows standardVideo
          (index ((canvasOf standardVideo freshMachine).run acts).buffers.active)) :=
  calls_painted plainRendering_confined running_standard
    (shows_canvasOf running_standard.screens freshMachine_fromPrim) paintCalls_proper

/-! ## What is displayed -/

theorem Shows.displayed_pixel (h : Shows v m s) {q : ℕ × ℕ} (hq : InPicture v q) :
    m.memory ((bufferOf v v.displayBuffer).cell q) = s.displayed q := by
  rw [h.displayed]
  exact h.pixels _ q hq

theorem Shows.drawn_pixel (h : Shows v m s) (hv : Screens v) {q : ℕ × ℕ} (hq : InPicture v q) :
    m.memory ((bufferOf v v.drawBuffer).cell q) = s.picture q := by
  rw [h.drawBuffer hv]
  exact h.pixels _ q hq

/-- The call leaves double buffering as it is. -/
def Call.KeepsBuffering (c : Call) : Prop :=
  ∀ enabled, c ≠ .setDoubleBuffering enabled

/-- The call presents nothing either. -/
def Call.OnlyDraws (c : Call) : Prop :=
  c.KeepsBuffering ∧ ∀ csr, c = .present csr → ¬Seen csr

theorem Call.act_keepsMode {c : Call} (hc : c.KeepsBuffering) : (c.act g v m).KeepsMode := by
  cases c with
  | setDoubleBuffering enabled => exact absurd rfl (hc enabled)
  | present csr =>
    rw [Call.act]
    split <;> trivial
  | _ => trivial

theorem Call.act_paints {c : Call} (hc : c.OnlyDraws) : (c.act g v m).Paints := by
  cases c with
  | setDoubleBuffering enabled => exact absurd rfl (hc.1 enabled)
  | present csr =>
    rw [Call.act, if_neg (hc.2 csr rfl)]
    trivial
  | _ => trivial

theorem Performs.forall {P : Call → Prop} {Q : Canvas.Act Pixels → Prop}
    (h : Performs dma g v m calls acts m') (hcalls : ∀ c ∈ calls, P c)
    (hact : ∀ c v m, P c → Q (c.act g v m)) : ∀ a ∈ acts, Q a := by
  induction h with
  | nil => exact List.forall_mem_nil _
  | cons _ _ ih =>
    obtain ⟨hc, hcalls⟩ := List.forall_mem_cons.1 hcalls
    exact List.forall_mem_cons.2 ⟨hact _ _ _ hc, ih hcalls⟩

/-- While double buffering is on, the display shows whole pictures only. Whatever is drawn and
uploaded after a presentation, the buffer that `DISPFB2` names holds what had been drawn when it was
presented. -/
theorem display_whole (hg : g.Confined) (hv : Running dma v) (hdoubled : v.doubleBuffered = true)
    (hm : FromPrim m) {before after : List Call} {csr : ℕ → Bool}
    (hbefore : Proper before ∧ ∀ c ∈ before, c.KeepsBuffering) (hseen : Seen csr)
    (hafter : Proper after ∧ ∀ c ∈ after, c.OnlyDraws) :
    let u := before.foldl (Call.exec dma) v
    let w := (.present csr :: after).foldl (Call.exec dma) u
    ∃ stream stream' m₁ m₂, u.submitted = v.submitted ++ stream ∧
      w.submitted = v.submitted ++ (stream ++ stream') ∧ m.run g stream = some m₁ ∧
      m.run g (stream ++ stream') = some m₂ ∧ w.dispfb = some (shows w w.displayBuffer) ∧
      ∀ q, InPicture v q →
        m₂.memory ((bufferOf w w.displayBuffer).cell q) =
          m₁.memory ((bufferOf u u.drawBuffer).cell q) := by
  intro u w
  have hproper : Proper (.present csr :: after) :=
    List.forall_mem_cons.2 ⟨⟨by simp [Call.Ordinary], trivial⟩, hafter.1⟩
  have hu : Running dma u := hv.run fun c hc => (hbefore.1 c hc).1
  have hw : Running dma w := hu.run fun c hc => (hproper c hc).1
  obtain ⟨m₁, acts, hperforms, hshows⟩ := (shows_canvasOf hv.screens hm).run hg hv hbefore.1
  obtain ⟨m₂, acts', hperforms', hshows'⟩ := hshows.run hg hu hproper
  obtain ⟨stream, packets, hstream, hreads, hrun⟩ := hperforms.runs
  obtain ⟨stream', packets', hstream', hreads', hrun'⟩ := hperforms'.runs
  have hmode : SameMode v u := sameMode_calls (fun c hc => (hbefore.1 c hc).1) v
  have hmode' : SameMode u w := sameMode_calls (fun c hc => (hproper c hc).1) u
  refine ⟨stream, stream', m₁, m₂, hstream, ?_, ?_, ?_, hw.screens.roles.dispfb, fun q hq => ?_⟩
  · rw [← List.append_assoc, ← hstream]
    exact hstream'
  · rw [Machine.run, hreads.parse_eq]
    exact hrun
  · rw [Machine.run, (hreads.append hreads').parse_eq, Option.bind_some, Machine.packets_append,
      hrun]
    exact hrun'
  · have hq' : InPicture u q := hmode.inPicture_iff.2 hq
    rw [hshows.drawn_pixel hu.screens hq', hshows'.displayed_pixel (hmode'.inPicture_iff.2 hq')]
    -- on the canvas, what is displayed at the end is what was drawn when it was presented
    obtain ⟨m₀, acts', rfl, hafterPerforms⟩ := hperforms'.uncons
    have hpresent : (Call.present csr).act g u m₁ = .present := if_pos hseen
    rw [hpresent]
    have hkeeps : ∀ a ∈ acts, a.KeepsMode :=
      hperforms.forall hbefore.2 fun _ _ _ hc => Call.act_keepsMode hc
    have hpaints : ∀ a ∈ acts', a.Paints :=
      hafterPerforms.forall hafter.2 fun _ _ _ hc => Call.act_paints hc
    have hmode₁ : ((canvasOf v m).run acts).doubled = true :=
      (Canvas.run_doubled hkeeps).trans hdoubled
    have hdisplayed : (((canvasOf v m).run acts).run (.present :: acts')).displayed =
        ((canvasOf v m).run acts).picture :=
      Canvas.displayed_run hmode₁ (List.forall_mem_nil _) hpaints
    exact congrFun hdisplayed q

/-- The standard screen with double buffering on. -/
def doubledVideo : State :=
  (Call.setDoubleBuffering 1).exec (fun _ => true) standardVideo

theorem display_whole_frameCalls :
    let u := frameCalls.foldl (Call.exec fun _ => true) doubledVideo
    let w := [.present fun _ => true, .clear 9 9 9].foldl (Call.exec fun _ => true) u
    ∃ stream stream' m₁ m₂, u.submitted = doubledVideo.submitted ++ stream ∧
      w.submitted = doubledVideo.submitted ++ (stream ++ stream') ∧
      freshMachine.run plainRendering stream = some m₁ ∧
      freshMachine.run plainRendering (stream ++ stream') = some m₂ ∧
      w.dispfb = some (shows w w.displayBuffer) ∧
      ∀ q, InPicture doubledVideo q →
        m₂.memory ((bufferOf w w.displayBuffer).cell q) =
          m₁.memory ((bufferOf u u.drawBuffer).cell q) := by
  have hv : Running (fun _ => true) doubledVideo := running_standard.exec (by simp [Call.Ordinary])
  refine display_whole plainRendering_confined hv (by decide +kernel) freshMachine_fromPrim
    ⟨frameCalls_proper, ?_⟩ (by decide) ⟨List.forall_mem_singleton.2 ⟨?_, trivial⟩, ?_⟩
  · simp [frameCalls, Call.KeepsBuffering]
  · simp [Call.Ordinary]
  · simp [Call.OnlyDraws, Call.KeepsBuffering]

end EF2SDK.Video
