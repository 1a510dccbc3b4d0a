import EF2SDK.Schedule
import EF2SDK.VideoActive

/-!
# Rejected configurations

`ef2_video_init` checks the standard, the field mode and the format of a configuration before
it changes anything, but it checks the size only after it has stored it in the globals that
clipping reads. A configuration that is rejected for its size therefore changes the active
video state, unless the size it asks for is the active one
(`same_iff_keepsSize`). Along a run, the size that clipping uses is the one of the active
layout exactly while no other configuration is rejected for its size
(`rejected_inits_harmless_iff`).
-/

set_option autoImplicit false

namespace EF2SDK.Video

open Gs

variable {dma : ℕ → Bool}

/-! ## What initialization does -/

/-- What `ef2_video_init` has decided when it has checked all but the size. -/
structure Mode where
  config : Config
  standard : UInt32
  psm : UInt8
  pageHeight : UInt16

/-- The mode of a configuration that passes these checks. -/
def acceptedMode (config : Option Config) (romver : ℤ × UInt8) : Option Mode :=
  config.bind fun config =>
    let standard := chosenStandard config romver
    if standardValid standard = false ∨ config.interlaced = 0 ∨ config.fieldMode ≠ videoField then
      none
    else
      (framebufferFormatInfo config.framebufferFormat).map fun info =>
        ⟨config, standard, info.1, info.2⟩

namespace Mode

variable (m : Mode)

def width : UInt16 :=
  chosenWidth m.config

def height : UInt16 :=
  chosenHeight m.config m.standard

def horizontalScale : UInt32 :=
  2560 / m.width.toUInt32

def verticalScale : UInt32 :=
  (picture m.standard).1.toUInt32 / m.height.toUInt32

def framebufferBytes : UInt32 :=
  framebufferSize m.width m.height m.pageHeight

/-- The checks on the size. -/
def Fits : Prop :=
  sizeValid m.width m.height (picture m.standard).1 = true
  ∧ ¬(m.horizontalScale = 0 ∨ m.horizontalScale > 16 ∨ m.verticalScale = 0 ∨ m.verticalScale > 4)
  ∧ ¬(m.framebufferBytes = 0 ∨ m.framebufferBytes * 2 > vramBytes)

instance : Decidable m.Fits :=
  inferInstanceAs (Decidable (_ ∧ _ ∧ _))

/-- The globals once the size is stored. -/
def resize (v : State) : State :=
  { v with width := m.width, height := m.height }

end Mode

theorem picture_height_le (standard : UInt32) : (picture standard).1.toNat ≤ 512 := by
  unfold picture
  split <;> decide

/-- The sizes that are accepted. -/
theorem sizeValid_bounds {width height defaultHeight : UInt16}
    (h : sizeValid width height defaultHeight = true) :
    (160 ≤ width.toNat ∧ width.toNat ≤ 1024) ∧
      0 < height.toNat ∧ height.toNat ≤ defaultHeight.toNat := by
  simp only [sizeValid, Bool.not_eq_true', Bool.or_eq_false_iff, decide_eq_false_iff_not,
    gt_iff_lt, UInt16.not_lt, UInt16.le_iff_toNat_le] at h
  obtain ⟨⟨⟨⟨⟨⟨hlo, hhi⟩, -⟩, hpos⟩, hheight⟩, -⟩, -⟩ := h
  exact ⟨⟨hlo, hhi⟩, Nat.pos_of_ne_zero fun h0 => hpos (UInt16.toNat_inj.1 h0), hheight⟩

section Init

variable {config : Option Config} {romver : ℤ × UInt8} {m : Mode}

theorem format_mem (h : acceptedMode config romver = some m) :
    m.psm = psmct32 ∧ m.pageHeight = 32 ∨ m.psm = psmct16 ∧ m.pageHeight = 64 := by
  obtain ⟨config, rfl, hmode⟩ := Option.bind_eq_some_iff.mp h
  dsimp only at hmode
  split at hmode
  · exact absurd hmode (by simp)
  · obtain ⟨info, hinfo, rfl⟩ := Option.map_eq_some_iff.mp hmode
    unfold framebufferFormatInfo at hinfo
    split at hinfo
    · obtain rfl := Option.some.inj hinfo
      exact Or.inl ⟨rfl, rfl⟩
    · split at hinfo
      · obtain rfl := Option.some.inj hinfo
        exact Or.inr ⟨rfl, rfl⟩
      · exact absurd hinfo (by simp)

variable (dma) in
/-- The first checks reject without a change. -/
theorem init_eq_of_none (h : acceptedMode config romver = none) (dmaInit : Bool) (v : State) :
    ∃ e, -4 ≤ e ∧ e ≤ -1 ∧ init dma config romver dmaInit v = (e, v) := by
  cases config with
  | none => exact ⟨-1, by decide, by decide, rfl⟩
  | some config =>
    simp only [acceptedMode, Option.bind_some] at h
    simp only [init]
    by_cases hstandard : standardValid (chosenStandard config romver) = false
    · exact ⟨-2, by decide, by decide, by rw [if_pos hstandard]; rfl⟩
    by_cases hfield : config.interlaced = 0 ∨ config.fieldMode ≠ videoField
    · exact ⟨-3, by decide, by decide, by rw [if_neg hstandard, if_pos hfield]; rfl⟩
    rw [if_neg (by tauto), Option.map_eq_none_iff] at h
    exact ⟨-4, by decide, by decide, by rw [if_neg hstandard, if_neg hfield, h]; rfl⟩

variable (dma) in
/-- After the first checks, the size is stored. -/
theorem init_eq_of_some (h : acceptedMode config romver = some m) (dmaInit : Bool) (v : State) :
    init dma config romver dmaInit v =
      if sizeValid m.width m.height (picture m.standard).1 = false then (-5, m.resize v)
      else if m.horizontalScale = 0 ∨ m.horizontalScale > 16 ∨ m.verticalScale = 0
          ∨ m.verticalScale > 4 then (-5, m.resize v)
      else if m.framebufferBytes = 0 ∨ m.framebufferBytes * 2 > vramBytes then (-6, m.resize v)
      else programGs dma m.standard m.horizontalScale m.verticalScale dmaInit
        (activate m.config m.standard m.framebufferBytes m.psm (m.resize v)) := by
  obtain ⟨config, rfl, hmode⟩ := Option.bind_eq_some_iff.mp h
  dsimp only at hmode
  split at hmode
  · exact absurd hmode (by simp)
  · next hchecks =>
    obtain ⟨info, hinfo, rfl⟩ := Option.map_eq_some_iff.mp hmode
    obtain ⟨hstandard, hfield⟩ := not_or.mp hchecks
    simp only [init, if_neg hstandard, if_neg hfield, hinfo]
    -- The state is now the resized one; the three checks follow in turn.
    refine (ite_run _ _ _).trans (if_congr Iff.rfl rfl ?_)
    refine (ite_run _ _ _).trans (if_congr Iff.rfl rfl ?_)
    exact (ite_run _ _ _).trans (if_congr Iff.rfl rfl rfl)

variable (dma) in
/-- A size that does not fit is rejected once it is stored. -/
theorem init_eq_of_not_fits (h : acceptedMode config romver = some m) (hfits : ¬m.Fits)
    (dmaInit : Bool) (v : State) :
    ∃ e, -6 ≤ e ∧ e ≤ -5 ∧ init dma config romver dmaInit v = (e, m.resize v) := by
  rw [init_eq_of_some dma h]
  split
  · exact ⟨-5, by decide, by decide, rfl⟩
  split
  · exact ⟨-5, by decide, by decide, rfl⟩
  split
  · exact ⟨-6, by decide, by decide, rfl⟩
  · exact absurd ⟨by simpa using ‹¬sizeValid _ _ _ = false›, ‹_›, ‹_›⟩ hfits

variable (dma) in
/-- A size that fits becomes the active one. -/
theorem init_eq_of_fits (h : acceptedMode config romver = some m) (hfits : m.Fits)
    (dmaInit : Bool) (v : State) :
    init dma config romver dmaInit v
      = programGs dma m.standard m.horizontalScale m.verticalScale dmaInit
        (activate m.config m.standard m.framebufferBytes m.psm (m.resize v)) := by
  rw [init_eq_of_some dma h, if_neg (by simp [hfits.1]), if_neg hfits.2.1, if_neg hfits.2.2]

variable (dma) in
/-- A successful initialization. -/
theorem init_ok {dmaInit : Bool} {v : State} (h : (init dma config romver dmaInit v).1 = 0) :
    ∃ m, acceptedMode config romver = some m ∧ m.Fits
      ∧ (init dma config romver dmaInit v).2.active
        = (activate m.config m.standard m.framebufferBytes m.psm (m.resize v)).active := by
  cases hmode : acceptedMode config romver with
  | none =>
    obtain ⟨e, -, he, heq⟩ := init_eq_of_none dma hmode dmaInit v
    rw [heq] at h
    exact absurd h (show e ≠ 0 by omega)
  | some m =>
    by_cases hfits : m.Fits
    · refine ⟨m, rfl, hfits, ?_⟩
      rw [init_eq_of_fits dma hmode hfits]
      exact same_programGs _ _ _ _ _
    · obtain ⟨e, -, he, heq⟩ := init_eq_of_not_fits dma hmode hfits dmaInit v
      rw [heq] at h
      exact absurd h (show e ≠ 0 by omega)

/-- The result is one of the errors of the configuration checks. -/
def Rejected (result : ℤ) : Prop :=
  -6 ≤ result ∧ result ≤ -1

/-- A configuration does not ask for a size that is stored and then rejected, unless it is the
active one. -/
def KeepsSize (v : State) (config : Option Config) (romver : ℤ × UInt8) : Prop :=
  ∀ m, acceptedMode config romver = some m →
    m.Fits ∨ m.width = v.width ∧ m.height = v.height

theorem same_resize_iff (m : Mode) (v : State) :
    Same v (m.resize v) ↔ m.width = v.width ∧ m.height = v.height := by
  constructor
  · exact fun h => ⟨h.width, h.height⟩
  · rintro ⟨hwidth, hheight⟩
    simp only [Same, State.active, Mode.resize, hwidth, hheight]

theorem programGs_result (standard horizontalScale verticalScale : UInt32) (dmaInit : Bool)
    (v : State) :
    ¬Rejected (programGs dma standard horizontalScale verticalScale dmaInit v).1 := by
  have hresult : Triple (fun _ => True)
      (programGs dma standard horizontalScale verticalScale dmaInit)
      fun r _ => r = -7 ∨ r = 0 :=
    Triple.last fun _ => Triple.last fun _ => Triple.last fun _ => Triple.last fun _ =>
      Triple.last fun _ => Triple.last fun _ => Triple.last fun _ => Triple.last fun _ =>
      Triple.last fun _ => Triple.last fun _ => Triple.last fun _ => Triple.last fun _ =>
      Triple.ite (fun _ => Triple.pure fun _ _ => Or.inl rfl) fun _ =>
      Triple.last fun _ => Triple.pure fun _ _ => Or.inr rfl
  intro ⟨hlo, hhi⟩
  have hcases := hresult v trivial
  omega

/-- A rejected configuration leaves the active video state exactly when it keeps the size. -/
theorem same_iff_keepsSize {dmaInit : Bool} {v : State}
    (h : Rejected (init dma config romver dmaInit v).1) :
    Same v (init dma config romver dmaInit v).2 ↔ KeepsSize v config romver := by
  cases hmode : acceptedMode config romver with
  | none =>
    obtain ⟨e, -, -, heq⟩ := init_eq_of_none dma hmode dmaInit v
    rw [heq, KeepsSize, hmode]
    exact ⟨fun _ m hm => (by simp at hm), fun _ => refl_of Same v⟩
  | some m =>
    have hkeeps : KeepsSize v config romver ↔ m.Fits ∨ m.width = v.width ∧ m.height = v.height := by
      simp [KeepsSize, hmode]
    by_cases hfits : m.Fits
    · rw [init_eq_of_fits dma hmode hfits] at h
      exact absurd h (programGs_result _ _ _ _ _)
    · obtain ⟨e, -, -, heq⟩ := init_eq_of_not_fits dma hmode hfits dmaInit v
      rw [hkeeps, heq, same_resize_iff]
      exact ⟨Or.inr, fun hsize => hsize.resolve_left hfits⟩

end Init

/-! ## Runs -/

/-- A call of the video driver, with its arguments and what the hardware answers. The calls
that only read are left out. -/
inductive Call where
  | init (config : Option Config) (romver : ℤ × UInt8) (dmaInit : Bool)
  | setBackground (r g b : UInt8)
  | setDoubleBuffering (enabled : UInt32)
  | waitVsync (csr : ℕ → Bool) (timeout : UInt32)
  | present (csr : ℕ → Bool)
  | drawRect (x y width height : Int32) (r g b : UInt8)
  | drawLine (x0 y0 x1 y1 : Int32) (r g b : UInt8)
  | clear (r g b : UInt8)
  | resetTextureAllocator
  | uploadRgba32 (texture : Option Texture) (pixels : Source) (width height : UInt16)
  | uploadIndexed8 (texture : Option Texture) (indices palette : Source) (width height : UInt16)
  | uploadIndexed4 (texture : Option Texture) (packedIndices palette : Source)
      (width height : UInt16)
  | drawTextureRegion (texture : Option Texture)
      (sourceX sourceY sourceWidth sourceHeight : UInt16) (x y width height : Int32)
      (r g b a : UInt8) (blend : Bool)
  | drawTexture (texture : Option Texture) (x y width height : Int32)

/-- The globals after a call. -/
def Call.exec (dma : ℕ → Bool) (v : State) : Call → State
  | .init config romver dmaInit => (Video.init dma config romver dmaInit v).2
  | .setBackground r g b => (Video.setBackground r g b v).2
  | .setDoubleBuffering enabled => (Video.setDoubleBuffering enabled v).2
  | .waitVsync csr timeout => (Video.waitVsync csr timeout v).2
  | .present csr => (Video.present csr v).2
  | .drawRect x y width height r g b => (Video.drawRect dma x y width height r g b v).2
  | .drawLine x0 y0 x1 y1 r g b => (Video.drawLine dma x0 y0 x1 y1 r g b v).2
  | .clear r g b => (Video.clear dma r g b v).2
  | .resetTextureAllocator => (Video.resetTextureAllocator v).2
  | .uploadRgba32 texture pixels width height =>
    (Video.uploadRgba32 dma texture pixels width height v).2
  | .uploadIndexed8 texture indices palette width height =>
    (Video.uploadIndexed8 dma texture indices palette width height v).2
  | .uploadIndexed4 texture packedIndices palette width height =>
    (Video.uploadIndexed4 dma texture packedIndices palette width height v).2
  | .drawTextureRegion texture sourceX sourceY sourceWidth sourceHeight x y width height r g b a
      blend =>
    (Video.drawTextureRegion dma texture sourceX sourceY sourceWidth sourceHeight x y width
      height r g b a blend v).2
  | .drawTexture texture x y width height =>
    (Video.drawTexture dma texture x y width height v).2

/-- One step of a run. -/
def next (dma : ℕ → Bool) (v : State) (c : Call) : Option State :=
  some (c.exec dma v)

/-- The size that clipping uses is the one of the active layout. -/
def Agrees (v : State) : Prop :=
  v.width = v.layout.width ∧ v.height = v.layout.height

/-- The size and the layout stay. -/
structure Clips (v v' : State) : Prop where
  width : v'.width = v.width
  height : v'.height = v.height
  layout : v'.layout = v.layout

instance : Std.Refl Clips where
  refl _ := ⟨rfl, rfl, rfl⟩

instance : IsTrans State Clips where
  trans _ _ _ h₁ h₂ := ⟨h₂.width.trans h₁.width, h₂.height.trans h₁.height,
    h₂.layout.trans h₁.layout⟩

theorem Same.clips {v v' : State} (h : Same v v') : Clips v v' :=
  ⟨h.width, h.height, h.layout⟩

theorem SameMode.clips {v v' : State} (h : SameMode v v') : Clips v v' :=
  ⟨congrArg Active.width h, congrArg Active.height h, congrArg Active.layout h⟩

theorem Clips.agrees_iff {v v' : State} (h : Clips v v') : Agrees v' ↔ Agrees v := by
  rw [Agrees, Agrees, h.width, h.height, h.layout]

theorem sameMode_uploadImage (destination : UInt16) (destinationWidth psm : UInt8)
    (width height : UInt16) (pixels : ℕ → UInt32) (transferBytes : UInt32) :
    Steps SameMode
      (uploadImage dma destination destinationWidth psm width height pixels transferBytes) :=
  (same_uploadImage _ _ _ _ _ _ _).mono Same.sameMode

theorem sameMode_flushTextureCache : Steps SameMode (flushTextureCache dma) :=
  same_flushTextureCache.mono Same.sameMode

/-- An upload moves the cursor. -/
theorem sameMode_cursor (cursor : UInt32) :
    Steps SameMode (modify fun v => { v with textureCursor := cursor } : StateM State PUnit) :=
  Steps.modify fun _ => rfl

theorem sameMode_uploadRgba32 (texture : Option Texture) (pixels : Source) (width height : UInt16) :
    Steps SameMode (uploadRgba32 dma texture pixels width height) :=
  Steps.ite (Steps.pure _) <| Steps.ite (Steps.pure _) <| Steps.ite (Steps.pure _) <|
    Steps.bind Steps.get fun _ => Steps.ite (Steps.pure _) <|
    Steps.bind (sameMode_uploadImage _ _ _ _ _ _ _) fun _ => Steps.ite (Steps.pure _) <|
    Steps.bind sameMode_flushTextureCache fun _ => Steps.ite (Steps.pure _) <|
    Steps.bind (sameMode_cursor _) fun _ => Steps.pure _

theorem sameMode_uploadIndexed8 (texture : Option Texture) (indices palette : Source)
    (width height : UInt16) :
    Steps SameMode (uploadIndexed8 dma texture indices palette width height) :=
  Steps.ite (Steps.pure _) <| Steps.ite (Steps.pure _) <| Steps.ite (Steps.pure _) <|
    Steps.bind Steps.get fun _ => Steps.ite (Steps.pure _) <|
    Steps.bind (sameMode_uploadImage _ _ _ _ _ _ _) fun _ => Steps.ite (Steps.pure _) <|
    Steps.bind ((same_prepareCsm1Clut _).mono Same.sameMode) fun _ => Steps.bind Steps.get fun _ =>
    Steps.bind (sameMode_uploadImage _ _ _ _ _ _ _) fun _ => Steps.ite (Steps.pure _) <|
    Steps.bind sameMode_flushTextureCache fun _ => Steps.ite (Steps.pure _) <|
    Steps.bind (sameMode_cursor _) fun _ => Steps.pure _

theorem sameMode_uploadIndexed4 (texture : Option Texture) (packedIndices palette : Source)
    (width height : UInt16) :
    Steps SameMode (uploadIndexed4 dma texture packedIndices palette width height) :=
  Steps.ite (Steps.pure _) <| Steps.ite (Steps.pure _) <| Steps.ite (Steps.pure _) <|
    Steps.bind Steps.get fun _ => Steps.ite (Steps.pure _) <|
    Steps.bind (sameMode_uploadImage _ _ _ _ _ _ _) fun _ => Steps.ite (Steps.pure _) <|
    Steps.bind (sameMode_uploadImage _ _ _ _ _ _ _) fun _ => Steps.ite (Steps.pure _) <|
    Steps.bind sameMode_flushTextureCache fun _ => Steps.ite (Steps.pure _) <|
    Steps.bind (sameMode_cursor _) fun _ => Steps.pure _

theorem sameGeometry_setDoubleBuffering (enabled : UInt32) :
    Steps SameGeometry (setDoubleBuffering enabled) := by
  intro v
  unfold setDoubleBuffering
  split
  · exact rfl
  · split
    · split <;> exact rfl
    · exact rfl

theorem sameGeometry_present (csr : ℕ → Bool) : Steps SameGeometry (present csr) :=
  have hmodify {f : State → State} (h : ∀ v, SameGeometry v (f v)) :
      Steps SameGeometry (modify f : StateM State PUnit) := Steps.modify h
  have hcount : Steps SameGeometry (do
      modify fun v => { v with presentCount := v.presentCount + 1 }
      pure 0 : StateM State ℤ) :=
    Steps.bind (hmodify fun _ => rfl) fun _ => Steps.pure _
  Steps.bind Steps.get fun _ => Steps.ite (Steps.pure _) <|
    Steps.bind ((same_waitVsync _ _).mono Same.sameGeometry) fun _ => Steps.ite (Steps.pure _) <|
    Steps.bind Steps.get fun _ => Steps.ite
      (Steps.bind (hmodify fun _ => rfl) fun _ =>
        Steps.bind (Steps.bind Steps.get fun _ => (same_output _).mono Same.sameGeometry) fun _ =>
        Steps.bind (hmodify fun _ => rfl) fun _ => hcount)
      hcount

/-- No call but `ef2_video_init` changes the mode. -/
theorem sameMode_exec {c : Call} (h : ∀ config romver dmaInit, c ≠ .init config romver dmaInit)
    (v : State) : SameMode v (c.exec dma v) := by
  cases c with
  | init config romver dmaInit => exact absurd rfl (h config romver dmaInit)
  | setBackground r g b => exact rfl
  | setDoubleBuffering enabled => exact (sameGeometry_setDoubleBuffering enabled v).sameMode
  | waitVsync csr timeout => exact (same_waitVsync csr timeout v).sameMode
  | present csr => exact (sameGeometry_present csr v).sameMode
  | drawRect x y width height r g b => exact (same_drawRect x y width height r g b v).sameMode
  | drawLine x0 y0 x1 y1 r g b => exact (same_drawLine x0 y0 x1 y1 r g b v).sameMode
  | clear r g b => exact (same_clear r g b v).sameMode
  | resetTextureAllocator => exact rfl
  | uploadRgba32 => exact sameMode_uploadRgba32 _ _ _ _ v
  | uploadIndexed8 => exact sameMode_uploadIndexed8 _ _ _ _ _ v
  | uploadIndexed4 => exact sameMode_uploadIndexed4 _ _ _ _ _ v
  | drawTextureRegion => exact (same_drawTextureRegion _ _ _ _ _ _ _ _ _ _ _ _ _ _ v).sameMode
  | drawTexture => exact (same_drawTexture _ _ _ _ _ v).sameMode

/-- A call of `ef2_video_init` keeps the size : see `KeepsSize`. -/
def Keeps (v : State) (c : Call) : Prop :=
  ∀ config romver dmaInit, c = .init config romver dmaInit → KeepsSize v config romver

/-- If the call is an `ef2_video_init` that rejects its configuration, it leaves the active
video state as it is. -/
def Harmless (dma : ℕ → Bool) (v : State) (c : Call) : Prop :=
  ∀ config romver dmaInit, c = .init config romver dmaInit →
    Rejected (init dma config romver dmaInit v).1 → Same v (c.exec dma v)

theorem harmless_iff_keeps (v : State) (c : Call) : Harmless dma v c ↔ Keeps v c := by
  constructor
  · rintro hharmless config romver dmaInit rfl
    by_cases hrejected : Rejected (init dma config romver dmaInit v).1
    · exact (same_iff_keepsSize hrejected).mp (hharmless _ _ _ rfl hrejected)
    · intro m hm
      by_contra hkeeps
      obtain ⟨e, hlo, hhi, heq⟩ := init_eq_of_not_fits dma hm (not_or.mp hkeeps).1 dmaInit v
      rw [heq] at hrejected
      exact hrejected ⟨by omega, by omega⟩
  · rintro hkeeps config romver dmaInit rfl hrejected
    exact (same_iff_keepsSize hrejected).mpr (hkeeps _ _ _ rfl)

/-- While the sizes agree, an `ef2_video_init` keeps them so exactly if it keeps the size. -/
theorem agrees_init_iff {v : State} (hv : Agrees v) (config : Option Config)
    (romver : ℤ × UInt8) (dmaInit : Bool) :
    Agrees (init dma config romver dmaInit v).2 ↔ KeepsSize v config romver := by
  cases hmode : acceptedMode config romver with
  | none =>
    obtain ⟨e, -, -, heq⟩ := init_eq_of_none dma hmode dmaInit v
    rw [heq, KeepsSize, hmode]
    exact ⟨fun _ m hm => absurd hm (by simp), fun _ => hv⟩
  | some m =>
    have hkeeps : KeepsSize v config romver ↔ m.Fits ∨ m.width = v.width ∧ m.height = v.height := by
      simp [KeepsSize, hmode]
    rw [hkeeps]
    by_cases hfits : m.Fits
    · rw [init_eq_of_fits dma hmode hfits, (same_programGs _ _ _ _ _).clips.agrees_iff]
      exact ⟨fun _ => Or.inl hfits, fun _ => ⟨rfl, rfl⟩⟩
    · obtain ⟨e, -, -, heq⟩ := init_eq_of_not_fits dma hmode hfits dmaInit v
      rw [heq]
      change m.width = v.layout.width ∧ m.height = v.layout.height ↔ _
      rw [← hv.1, ← hv.2]
      exact ⟨Or.inr, fun hsize => hsize.resolve_left hfits⟩

theorem agrees_exec_iff {v : State} (hv : Agrees v) (c : Call) :
    Agrees (c.exec dma v) ↔ Keeps v c := by
  by_cases hinit : ∃ config romver dmaInit, c = .init config romver dmaInit
  · obtain ⟨config, romver, dmaInit, rfl⟩ := hinit
    refine (agrees_init_iff hv config romver dmaInit).trans ⟨?_, fun h => h _ _ _ rfl⟩
    rintro hkeeps _ _ _ heq
    cases heq
    exact hkeeps
  · have hother config romver dmaInit : c ≠ .init config romver dmaInit := fun h =>
      hinit ⟨_, _, _, h⟩
    rw [(sameMode_exec hother v).clips.agrees_iff]
    exact ⟨fun _ config romver dmaInit h => absurd h (hother _ _ _), fun _ => hv⟩

/-- Rejected configurations are harmless along a run, and clipping uses the size of the
active layout in every state of it, exactly while no configuration is rejected for a size other
than the active one. -/
theorem rejected_inits_harmless_iff (dma : ℕ → Bool) (calls : List Call) :
    (Schedule.Meets (next dma) (Harmless dma) boot calls
      ↔ Schedule.Meets (next dma) Keeps boot calls)
    ∧ (Schedule.Always (next dma) Agrees boot calls
      ↔ Schedule.Meets (next dma) Keeps boot calls) := by
  have hrun : Schedule.run (next dma) boot calls = some (calls.foldl (Call.exec dma) boot) :=
    Schedule.run_some (Call.exec dma) boot calls
  have hstep v c v' (hv : Agrees v) (hkeeps : Keeps v c) (hnext : next dma v c = some v') :
      Agrees v' := by
    obtain rfl := Option.some.inj hnext
    exact (agrees_exec_iff hv c).mpr hkeeps
  have hback v c v' (hv : Agrees v) (hnext : next dma v c = some v') (hv' : Agrees v') :
      Keeps v c := by
    obtain rfl := Option.some.inj hnext
    exact (agrees_exec_iff hv c).mp hv'
  refine ⟨⟨fun h => h.mono fun v c => (harmless_iff_keeps v c).mp,
    fun h => h.mono fun v c => (harmless_iff_keeps v c).mpr⟩, ?_⟩
  exact Schedule.always_iff_meets hstep (fun _ h => h) hback ⟨rfl, rfl⟩ hrun

/-- 640 by 448 pixels for NTSC. -/
def standardConfig : Config :=
  ⟨videoNtsc, 1, videoField, fbRgba32, 640, 448⟩

/-- Rejected for its width. -/
def narrowConfig : Config :=
  ⟨videoNtsc, 1, videoField, fbRgba32, 100, 448⟩

/-- After a successful initialization, a configuration of width 100 is rejected and changes the
size that clipping uses. -/
theorem narrowConfig_not_harmless :
    let v := (init (fun _ => true) (some standardConfig) (0, 0) true boot).2
    (init (fun _ => true) (some standardConfig) (0, 0) true boot).1 = 0
    ∧ (init (fun _ => true) (some narrowConfig) (0, 0) true v).1 = -5
    ∧ ¬Same v (init (fun _ => true) (some narrowConfig) (0, 0) true v).2
    ∧ ¬Agrees (init (fun _ => true) (some narrowConfig) (0, 0) true v).2 := by
  refine ⟨by decide +kernel, by decide +kernel, fun h => ?_, fun h => ?_⟩
  · exact absurd h.width (by decide +kernel)
  · exact absurd h.1 (by decide +kernel)

end EF2SDK.Video
