import EF2SDK.Crash
import EF2SDK.TextGrid

/-!
# The crash screen

The picture that `src/ee/runtime/crash.c` draws. A character takes five rows of three pixels, and
`draw_text` puts the characters of a text into cells of six by four pixels. It stops at the last
line that is on the screen as a whole : above that the pixels are those of the text in its grid of
cells, and those around the grid are left alone (`drawText_cell`, `drawText_outside`). Positions are
words of 32 bits, and a cell that begins before the end of them goes on at the edge of the screen,
so the place of a pixel in the grid is found in 32 bits as well (`offset`).

The texts of the picture do not overlap (`drawTexts_pixel`), and the digits look different from
each other. So the registers are read off the picture (`readScreen_crashPicture`).
-/

set_option autoImplicit false

namespace EF2SDK.Crash

open TextGrid

/-! ## The font -/

/-- `g_font_digits`. -/
def fontDigits : List (List UInt8) :=
  [[7, 5, 5, 5, 7], [2, 6, 2, 2, 7],
    [7, 1, 7, 4, 7], [7, 1, 7, 1, 7],
    [5, 5, 7, 1, 1], [7, 4, 7, 1, 7],
    [7, 4, 7, 5, 7], [7, 1, 1, 1, 1],
    [7, 5, 7, 5, 7], [7, 5, 7, 1, 7]]

/-- `g_font_letters`. -/
def fontLetters : List (List UInt8) :=
  [[2, 5, 7, 5, 5], [6, 5, 6, 5, 6],
    [7, 4, 4, 4, 7], [6, 5, 5, 5, 6],
    [7, 4, 6, 4, 7], [7, 4, 6, 4, 4],
    [7, 4, 5, 5, 7], [5, 5, 7, 5, 5],
    [7, 2, 2, 2, 7], [1, 1, 1, 5, 7],
    [5, 5, 6, 5, 5], [4, 4, 4, 4, 7],
    [5, 7, 7, 5, 5], [5, 7, 7, 7, 5],
    [7, 5, 5, 5, 7], [7, 5, 7, 4, 4],
    [7, 5, 5, 7, 1], [6, 5, 6, 5, 5],
    [7, 4, 7, 1, 7], [7, 2, 2, 2, 2],
    [5, 5, 5, 5, 7], [5, 5, 5, 5, 2],
    [5, 5, 7, 7, 5], [5, 5, 2, 5, 5],
    [5, 5, 2, 2, 2], [7, 1, 2, 4, 7]]

/-- The cases of the `switch` of `glyph_row`. -/
def fontSymbols : List (UInt8 × List UInt8) :=
  [('['.toUInt8, [6, 4, 4, 4, 6]), (']'.toUInt8, [3, 1, 1, 1, 3]),
    ('='.toUInt8, [0, 7, 0, 7, 0]), ('-'.toUInt8, [0, 0, 7, 0, 0]),
    (':'.toUInt8, [0, 2, 0, 2, 0]), ('.'.toUInt8, [0, 0, 0, 0, 2]),
    ('/'.toUInt8, [1, 1, 2, 4, 4]), ('_'.toUInt8, [0, 0, 0, 0, 7]),
    ('<'.toUInt8, [1, 2, 4, 2, 1]), ('>'.toUInt8, [4, 2, 1, 2, 4]),
    ('#'.toUInt8, [5, 7, 5, 7, 5]), (' '.toUInt8, [0, 0, 0, 0, 0])]

/-- The `default` of the `switch`. -/
def fontDefault : List UInt8 :=
  [7, 1, 2, 0, 2]

/-- `glyph_row`. -/
def glyphRow (character : UInt8) (row : ℕ) : UInt8 :=
  if 5 ≤ row then 0
  else
    let character :=
      if 'a'.toUInt8 ≤ character ∧ character ≤ 'z'.toUInt8 then
        character - 'a'.toUInt8 + 'A'.toUInt8
      else character
    if '0'.toUInt8 ≤ character ∧ character ≤ '9'.toUInt8 then
      (fontDigits.getD (character - '0'.toUInt8).toNat []).getD row 0
    else if 'A'.toUInt8 ≤ character ∧ character ≤ 'Z'.toUInt8 then
      (fontLetters.getD (character - 'A'.toUInt8).toNat []).getD row 0
    else
      ((fontSymbols.lookup character).getD fontDefault).getD row 0

/-! ## Drawing -/

/-- `EF2_CRASH_SCREEN_W`. -/
abbrev screenW : ℕ := 320

/-- `EF2_CRASH_SCREEN_H`. -/
abbrev screenH : ℕ := 224

/-- `g_crash_pixels`. -/
abbrev Pixels := ℕ → UInt32

/-- `pixel_put`. -/
def pixelPut (x y color : UInt32) (p : Pixels) : Pixels :=
  if screenW ≤ x.toNat ∨ screenH ≤ y.toNat then p
  else Function.update p (y.toNat * screenW + x.toNat) color

/-- `screen_fill`. -/
def screenFill (color : UInt32) (p : Pixels) : Pixels := fun i =>
  if i < screenW * screenH then color else p i

/-- The test of the loop of `draw_character`. -/
def glyphBit (character : UInt8) (row column : ℕ) : Bool :=
  (glyphRow character row).toUInt32 &&& ((1 : UInt32) <<< (2 - UInt32.ofNat column)) != 0

/-- `draw_character`. -/
def drawCharacter (x y : UInt32) (character : UInt8) (color : UInt32) (p : Pixels) : Pixels :=
  (List.range 5).foldl
    (fun p row =>
      (List.range 3).foldl
        (fun p column =>
          if glyphBit character row column then
            pixelPut (x + .ofNat column) (y + .ofNat row) color p
          else p)
        p)
    p

/-- The loop of `draw_text`, for the text before its NUL. -/
def drawTextLoop (startX color maxColumns : UInt32) :
    List UInt8 → (x y column : UInt32) → Pixels → Pixels
  | [], _, _, _, p => p
  | character :: text, x, y, column, p =>
    if (y + 5).toNat < screenH then
      if character = 0x0D then drawTextLoop startX color maxColumns text x y column p
      else if character = 0x0A ∨ maxColumns ≤ column then
        if character = 0x0A then drawTextLoop startX color maxColumns text startX (y + 6) 0 p
        else
          drawTextLoop startX color maxColumns text (startX + 4) (y + 6) 1
            (drawCharacter startX (y + 6) character color p)
      else
        drawTextLoop startX color maxColumns text (x + 4) y (column + 1)
          (drawCharacter x y character color p)
    else p

/-- `draw_text`. -/
def drawText (x y : UInt32) (text : List UInt8) (color maxColumns : UInt32) (p : Pixels) : Pixels :=
  drawTextLoop x color maxColumns text x y 0 p

/-- The text of `draw_register_line`. -/
def registerLine (label : List UInt8) (value : UInt32) : List UInt8 :=
  appendHex32 31 (appendChar 31 (appendText 31 [] label) ' '.toUInt8) value

/-- `draw_register_line`. -/
def drawRegisterLine (y : UInt32) (label : List UInt8) (value : UInt32) (p : Pixels) : Pixels :=
  drawText 8 y (registerLine label value) 0x80FFFFFF 76 p

/-- The pixels that `crash_draw_screen` draws, `recent` being the end of the log. -/
def crashPicture (f : Frame) (recent : List UInt8) (p : Pixels) : Pixels :=
  let p := screenFill 0x80000038 p
  let p := drawText 8 6 (chars "EF2 CRASH") 0x8000D8FF 76 p
  let p := drawRegisterLine 20 (chars "EXC") (exceptionCode f) p
  let p := drawRegisterLine 28 (chars "CAUSE") f.cause p
  let p := drawRegisterLine 36 (chars "EPC") f.epc p
  let p := drawRegisterLine 44 (chars "BADV") f.badvaddr p
  let p := drawRegisterLine 52 (chars "SP") (f.gpr spIndex).toUInt32 p
  let p := drawRegisterLine 60 (chars "RA") (f.gpr raIndex).toUInt32 p
  let p := drawRegisterLine 68 (chars "GP") (f.gpr gpIndex).toUInt32 p
  let p := drawText 8 84 (chars "RECENT RAM LOG") 0x8000D8FF 76 p
  drawText 8 94 recent 0x80E8E8E8 76 p

/-! ## Pixels -/

/-- The pixel in a column and a row. -/
def pixel (p : Pixels) (x y : ℕ) : UInt32 :=
  p (y * screenW + x)

/-- How far a column or a row of the screen is behind a position, in the 32 bits that the positions
are added up in. -/
def offset (x : UInt32) (X : ℕ) : ℕ :=
  (UInt32.ofNat X - x).toNat

/-- A character whose cell begins at a position covers a pixel. -/
def Covers (character : UInt8) (x y : UInt32) (column row : ℕ) : Prop :=
  offset x column < 3 ∧ offset y row < 5
    ∧ glyphBit character (offset y row) (offset x column) = true

instance (character : UInt8) (x y : UInt32) (column row : ℕ) :
    Decidable (Covers character x y column row) :=
  inferInstanceAs (Decidable (_ ∧ _ ∧ _))

variable {p : Pixels} {x y color maxColumns : UInt32} {X Y k : ℕ} {character : UInt8}
  {text : List UInt8}

theorem offset_of_le (h : x.toNat ≤ X) (hX : X < 2 ^ 32) : offset x X = X - x.toNat := by
  rw [offset, UInt32.toNat_sub, UInt32.toNat_ofNat', Nat.mod_eq_of_lt hX]
  omega

theorem offset_of_lt (h : X < x.toNat) : offset x X = 2 ^ 32 + X - x.toNat := by
  have hx := x.toNat_lt
  rw [offset, UInt32.toNat_sub, UInt32.toNat_ofNat']
  omega

/-- From a position further on, a pixel is less far, or it is behind the end of the 32 bits. -/
theorem offset_add (x : UInt32) (X : ℕ) (hk : k < 2 ^ 32) :
    offset (x + .ofNat k) X =
      if k ≤ offset x X then offset x X - k else 2 ^ 32 + offset x X - k := by
  have hx := x.toNat_lt
  rw [offset, offset, UInt32.toNat_sub, UInt32.toNat_sub, UInt32.toNat_add, UInt32.toNat_ofNat',
    UInt32.toNat_ofNat', Nat.mod_eq_of_lt hk]
  split_ifs <;> omega

/-- The position of a pixel. -/
theorem toNat_add_eq_iff (hX : X < 2 ^ 32) (hk : k < 2 ^ 32) :
    (x + .ofNat k).toNat = X ↔ offset x X = k := by
  have hx := x.toNat_lt
  rw [offset, UInt32.toNat_sub, UInt32.toNat_add, UInt32.toNat_ofNat', UInt32.toNat_ofNat']
  omega

theorem pixelPut_pixel (hX : X < screenW) (hY : Y < screenH) :
    pixel (pixelPut x y color p) X Y =
      if x.toNat = X ∧ y.toNat = Y then color else pixel p X Y := by
  unfold pixelPut pixel screenW screenH at *
  by_cases hout : 320 ≤ x.toNat ∨ 224 ≤ y.toNat
  · rw [if_pos hout, if_neg (by omega)]
  · rw [if_neg hout]
    by_cases hself : x.toNat = X ∧ y.toNat = Y
    · rw [if_pos hself, hself.1, hself.2, Function.update_self]
    · rw [if_neg hself, Function.update_of_ne (by omega)]

/-- Several steps, each of which gives a pixel one colour or leaves it. -/
theorem foldl_pixel {ι : Type} {f : Pixels → ι → Pixels} {covers : ι → Prop}
    [DecidablePred covers]
    (h : ∀ p i, pixel (f p i) X Y = if covers i then color else pixel p X Y) (l : List ι)
    (p : Pixels) :
    pixel (l.foldl f p) X Y = if ∃ i ∈ l, covers i then color else pixel p X Y := by
  induction l generalizing p with
  | nil => exact (if_neg (by simp)).symm
  | cons i l ih =>
    rw [List.foldl_cons, ih, h]
    by_cases hlater : ∃ j ∈ l, covers j
    · rw [if_pos hlater, if_pos (hlater.imp fun j hj => ⟨List.mem_cons_of_mem i hj.1, hj.2⟩)]
    · rw [if_neg hlater]
      refine if_congr ?_ rfl rfl
      simp only [List.mem_cons, exists_eq_or_imp]
      exact (or_iff_left hlater).symm

variable (x y character color p) in
theorem drawCharacter_pixel (hX : X < screenW) (hY : Y < screenH) :
    pixel (drawCharacter x y character color p) X Y =
      if Covers character x y X Y then color else pixel p X Y := by
  have hcolumn : ∀ row p, pixel ((List.range 3).foldl
      (fun p column =>
        if glyphBit character row column then pixelPut (x + .ofNat column) (y + .ofNat row) color p
        else p)
      p) X Y =
      if ∃ column ∈ List.range 3, glyphBit character row column = true ∧
          (x + .ofNat column).toNat = X ∧ (y + .ofNat row).toNat = Y then color
      else pixel p X Y := by
    intro row p
    refine foldl_pixel (fun p column => ?_) _ p
    by_cases hbit : glyphBit character row column = true
    · rw [if_pos hbit, pixelPut_pixel hX hY]
      exact if_congr (by simp [hbit]) rfl rfl
    · rw [if_neg hbit, if_neg (fun h => hbit h.1)]
  have hX' : X < 2 ^ 32 := Nat.lt_trans hX (by decide)
  have hY' : Y < 2 ^ 32 := Nat.lt_trans hY (by decide)
  rw [drawCharacter, foldl_pixel fun p row => hcolumn row p]
  refine if_congr ⟨?_, ?_⟩ rfl rfl
  · rintro ⟨row, hrow, column, hlt, hbit, hx, hy⟩
    rw [List.mem_range] at hrow hlt
    obtain rfl := (toNat_add_eq_iff hX' (by omega)).1 hx
    obtain rfl := (toNat_add_eq_iff hY' (by omega)).1 hy
    exact ⟨hlt, hrow, hbit⟩
  · rintro ⟨hlt, hrow, hbit⟩
    exact ⟨offset y Y, List.mem_range.2 hrow, offset x X, List.mem_range.2 hlt, hbit,
      (toNat_add_eq_iff hX' (by omega)).2 rfl, (toNat_add_eq_iff hY' (by omega)).2 rfl⟩

/-! ## Texts -/

/-- The lines that are on the screen as a whole, of a text from a row of pixels on. -/
def wholeLines (y : UInt32) : ℕ :=
  if (y + 5).toNat < screenH then offset y screenH / 6 else 0

theorem wholeLines_le (y : UInt32) : wholeLines y ≤ 38 := by
  have hy := y.toNat_lt
  rw [wholeLines, offset, UInt32.toNat_add, UInt32.toNat_sub, UInt32.toNat_ofNat']
  unfold screenH
  change (if (y.toNat + 5) % 2 ^ 32 < 224 then _ else 0) ≤ 38
  split_ifs <;> omega

theorem wholeLines_ofNat {n : ℕ} (h : n + 5 < screenH) :
    wholeLines (.ofNat n) = (screenH - n) / 6 := by
  have hlt : n + 5 < 224 := h
  have hsum : (UInt32.ofNat n + 5).toNat = n + 5 := by
    rw [UInt32.toNat_add, UInt32.toNat_ofNat']
    change (n % 2 ^ 32 + 5) % 2 ^ 32 = n + 5
    omega
  have hn : (UInt32.ofNat n).toNat = n :=
    UInt32.toNat_ofNat_of_lt' (Nat.lt_trans (show n < 224 by omega) (by decide))
  rw [wholeLines, hsum, if_pos h, offset_of_le (by rw [hn]; unfold screenH; omega) (by decide), hn]

/-- The test of the loop of `draw_text`. -/
theorem whole_iff {row : ℕ} (hrow : row ≤ wholeLines y) :
    (y + .ofNat (6 * row) + 5).toNat < screenH ↔ row < wholeLines y := by
  have hy := y.toNat_lt
  have hle := wholeLines_le y
  rw [wholeLines, offset, UInt32.toNat_add, UInt32.toNat_sub, UInt32.toNat_ofNat'] at hrow hle ⊢
  rw [UInt32.toNat_add, UInt32.toNat_add, UInt32.toNat_ofNat']
  unfold screenH at *
  change ((y.toNat + 6 * row % 2 ^ 32) % 2 ^ 32 + 5) % 2 ^ 32 < 224 ↔
    row < if (y.toNat + 5) % 2 ^ 32 < 224 then _ else 0
  change row ≤ if (y.toNat + 5) % 2 ^ 32 < 224 then _ else 0 at hrow
  split_ifs at hrow hle ⊢ <;> omega

theorem add_ofNat_mul (x : UInt32) (n k : ℕ) :
    x + .ofNat (n * k) + .ofNat n = x + .ofNat (n * (k + 1)) := by
  rw [Nat.mul_succ, UInt32.ofNat_add, UInt32.add_assoc]

/-- The characters are drawn in their cells. -/
theorem drawTextLoop_eq (startX startY color : UInt32) (hcolumns : 0 < maxColumns.toNat)
    (text : List UInt8) {row column : ℕ} (hrow : row ≤ wholeLines startY)
    (hcolumn : column ≤ maxColumns.toNat) (p : Pixels) :
    drawTextLoop startX color maxColumns text (startX + .ofNat (4 * column))
        (startY + .ofNat (6 * row)) (.ofNat column) p =
      (layout 0x0A 0x0D (wholeLines startY) maxColumns.toNat text row column).foldl
        (fun p c => drawCharacter (startX + .ofNat (4 * c.1.2)) (startY + .ofNat (6 * c.1.1)) c.2
          color p) p := by
  induction text generalizing row column p with
  | nil => rfl
  | cons character text ih =>
    have hfull_iff : maxColumns ≤ .ofNat column ↔ maxColumns.toNat ≤ column := by
      have hlt := maxColumns.toNat_lt
      rw [UInt32.le_iff_toNat_le, UInt32.toNat_ofNat', Nat.mod_eq_of_lt (by omega)]
    have hzero : startX + .ofNat (4 * 0) = startX := UInt32.add_zero startX
    have hone : startX + .ofNat (4 * 1) = startX + 4 := rfl
    have hnext : startY + .ofNat (6 * row) + 6 = startY + .ofNat (6 * (row + 1)) :=
      add_ofNat_mul startY 6 row
    rw [drawTextLoop, layout]
    by_cases hwhole : row < wholeLines startY
    · rw [if_pos ((whole_iff hrow).2 hwhole), if_pos hwhole]
      by_cases hreturn : character = 0x0D
      · rw [if_pos hreturn, if_pos hreturn, ih hrow hcolumn]
      rw [if_neg hreturn, if_neg hreturn]
      by_cases hnewline : character = 0x0A
      · have hrest := ih hwhole (Nat.zero_le _) p
        rw [hzero] at hrest
        rw [if_pos (Or.inl hnewline), if_pos hnewline, if_pos hnewline, hnext]
        exact hrest
      rw [if_neg hnewline, if_neg hnewline]
      by_cases hfull : maxColumns.toNat ≤ column
      · have hrest := ih hwhole hcolumns
          (drawCharacter startX (startY + .ofNat (6 * (row + 1))) character color p)
        rw [if_pos (Or.inr (hfull_iff.2 hfull)), if_pos hfull, List.foldl_cons, hnext]
        dsimp only
        rw [hzero]
        exact hrest
      · have hrest := ih hrow (Nat.not_le.1 hfull)
          (drawCharacter (startX + .ofNat (4 * column)) (startY + .ofNat (6 * row)) character color
            p)
        rw [if_neg (not_or.2 ⟨hnewline, mt hfull_iff.1 hfull⟩), if_neg hfull, List.foldl_cons,
          show (4 : UInt32) = .ofNat 4 from rfl, add_ofNat_mul,
          show UInt32.ofNat column + 1 = .ofNat (column + 1) from
            (UInt32.ofNat_add column 1).symm]
        exact hrest
    · rw [if_neg (mt (whole_iff hrow).1 hwhole), if_neg hwhole]
      rfl

/-- The cells that `draw_text` draws, from a row of pixels on. -/
def cells (y : UInt32) (text : List UInt8) (maxColumns : UInt32) : List ((ℕ × ℕ) × UInt8) :=
  layout 0x0A 0x0D (wholeLines y) maxColumns.toNat text 0 0

theorem drawText_pixel (hX : X < screenW) (hY : Y < screenH) (hcolumns : 0 < maxColumns.toNat)
    (x y : UInt32) (text : List UInt8) (color : UInt32) (p : Pixels) :
    pixel (drawText x y text color maxColumns p) X Y =
      if ∃ c ∈ cells y text maxColumns,
          Covers c.2 (x + .ofNat (4 * c.1.2)) (y + .ofNat (6 * c.1.1)) X Y then color
      else pixel p X Y := by
  have hloop := drawTextLoop_eq x y color hcolumns text (Nat.zero_le _) (Nat.zero_le _) p
  rw [show UInt32.ofNat 0 = 0 from rfl, UInt32.add_zero, UInt32.add_zero] at hloop
  have hfold := foldl_pixel (l := cells y text maxColumns) (p := p)
    fun p (c : (ℕ × ℕ) × UInt8) =>
      drawCharacter_pixel p (x + .ofNat (4 * c.1.2)) (y + .ofNat (6 * c.1.1)) color c.2 hX hY
  rw [drawText, hloop]
  exact hfold

/-- Neither the columns nor the text fill a row of more than 32 bits. -/
def Fits (text : List UInt8) (maxColumns : UInt32) : Prop :=
  min maxColumns.toNat text.length ≤ 2 ^ 30

/-- Where the cells of a text that fits are. -/
theorem cells_bounds (hcolumns : 0 < maxColumns.toNat) (hfits : Fits text maxColumns)
    {c : ℕ × ℕ} (h : (c, character) ∈ cells y text maxColumns) :
    c.1 ≤ wholeLines y ∧ c.2 < maxColumns.toNat ∧ c.2 < 2 ^ 30 ∧ c.1 ≤ 38 := by
  obtain ⟨-, hlimit, hlt⟩ := layout_bounds hcolumns h
  have hlength := layout_length h
  have hrows := wholeLines_le y
  rw [Fits] at hfits
  omega

/-- The one character that can cover a pixel stands in the pixel's cell. -/
theorem covers_iff {row column : ℕ} (hrow : row ≤ 38) (hcolumn : column < 2 ^ 30)
    (character : UInt8) :
    Covers character (x + .ofNat (4 * column)) (y + .ofNat (6 * row)) X Y ↔
      (offset y Y / 6 = row ∧ offset x X / 4 = column) ∧ offset x X % 4 < 3 ∧ offset y Y % 6 < 5
        ∧ glyphBit character (offset y Y % 6) (offset x X % 4) = true := by
  rw [Covers, offset_add x X (by omega), offset_add y Y (by omega)]
  constructor
  · rintro ⟨hx, hy, hbit⟩
    split_ifs at hx hy hbit
    · refine ⟨by omega, by omega, by omega, ?_⟩
      rwa [show offset y Y % 6 = offset y Y - 6 * row by omega,
        show offset x X % 4 = offset x X - 4 * column by omega]
    all_goals omega
  · rintro ⟨⟨hrow, hcolumn⟩, hx, hy, hbit⟩
    rw [if_pos (by omega), if_pos (by omega)]
    refine ⟨by omega, by omega, ?_⟩
    rwa [show offset y Y - 6 * row = offset y Y % 6 by omega,
      show offset x X - 4 * column = offset x X % 4 by omega]

/-- A text draws nothing left of it, above it, to the right of its columns, and below the line
after the last that is whole. -/
theorem drawText_outside (hX : X < screenW) (hY : Y < screenH) (hcolumns : 0 < maxColumns.toNat)
    (hfits : Fits text maxColumns)
    (h : 4 * maxColumns.toNat ≤ offset x X ∨ 6 * (wholeLines y + 1) ≤ offset y Y) :
    pixel (drawText x y text color maxColumns p) X Y = pixel p X Y := by
  rw [drawText_pixel hX hY hcolumns]
  refine if_neg ?_
  rintro ⟨⟨⟨row, column⟩, character⟩, hmem, hcovers⟩
  obtain ⟨hlimit, hlt, hcolumn, hrow⟩ := cells_bounds hcolumns hfits hmem
  obtain ⟨⟨rfl, rfl⟩, -⟩ := (covers_iff hrow hcolumn character).1 hcovers
  dsimp only at *
  omega

/-- The pixels of the lines that are on the screen as a whole are those of the text in its cells. -/
theorem drawText_cell (hX : X < screenW) (hY : Y < screenH) (hcolumns : 0 < maxColumns.toNat)
    (hfits : Fits text maxColumns) (hwhole : offset y Y / 6 < wholeLines y) (x color : UInt32)
    (p : Pixels) :
    (∀ character,
      Stands maxColumns.toNat 0 (lines 0x0A 0x0D text) (offset y Y / 6, offset x X / 4) character →
        pixel (drawText x y text color maxColumns p) X Y =
          if offset x X % 4 < 3 ∧ offset y Y % 6 < 5
              ∧ glyphBit character (offset y Y % 6) (offset x X % 4) = true then color
          else pixel p X Y)
    ∧ ((∀ character, ¬Stands maxColumns.toNat 0 (lines 0x0A 0x0D text)
        (offset y Y / 6, offset x X / 4) character) →
      pixel (drawText x y text color maxColumns p) X Y = pixel p X Y) := by
  rw [drawText_pixel hX hY hcolumns]
  constructor
  · intro character hstands
    refine if_congr ⟨?_, ?_⟩ rfl rfl
    · rintro ⟨⟨⟨row, column⟩, other⟩, hmem, hother⟩
      obtain ⟨-, -, hcolumn, hrow⟩ := cells_bounds hcolumns hfits hmem
      obtain ⟨⟨rfl, rfl⟩, hbit⟩ := (covers_iff hrow hcolumn other).1 hother
      obtain rfl := hstands.unique ((mem_layout_iff hcolumns hwhole text).1 hmem)
      exact hbit
    · intro hbit
      have hmem := (mem_layout_iff hcolumns hwhole text).2 hstands
      obtain ⟨-, -, hcolumn, hrow⟩ := cells_bounds hcolumns hfits hmem
      exact ⟨_, hmem, (covers_iff hrow hcolumn character).2 ⟨⟨rfl, rfl⟩, hbit⟩⟩
  · intro hempty
    refine if_neg ?_
    rintro ⟨⟨⟨row, column⟩, other⟩, hmem, hother⟩
    obtain ⟨-, -, hcolumn, hrow⟩ := cells_bounds hcolumns hfits hmem
    obtain ⟨⟨rfl, rfl⟩, -⟩ := (covers_iff hrow hcolumn other).1 hother
    exact hempty other ((mem_layout_iff hcolumns hwhole text).1 hmem)

/-- A text on the screen is its lines in the grid of cells, and nothing else. -/
theorem drawText_shows (x y : UInt32) (text : List UInt8) (color maxColumns : UInt32)
    (hcolumns : 0 < maxColumns.toNat) (hfits : Fits text maxColumns) (p : Pixels) (X Y : ℕ)
    (hX : X < screenW) (hY : Y < screenH) :
    (offset y Y / 6 < wholeLines y →
      (∀ character,
        Stands maxColumns.toNat 0 (lines 0x0A 0x0D text) (offset y Y / 6, offset x X / 4)
            character →
          pixel (drawText x y text color maxColumns p) X Y =
            if offset x X % 4 < 3 ∧ offset y Y % 6 < 5
                ∧ glyphBit character (offset y Y % 6) (offset x X % 4) = true then color
            else pixel p X Y)
      ∧ ((∀ character, ¬Stands maxColumns.toNat 0 (lines 0x0A 0x0D text)
          (offset y Y / 6, offset x X / 4) character) →
        pixel (drawText x y text color maxColumns p) X Y = pixel p X Y))
    ∧ (4 * maxColumns.toNat ≤ offset x X ∨ 6 * (wholeLines y + 1) ≤ offset y Y →
      pixel (drawText x y text color maxColumns p) X Y = pixel p X Y) :=
  ⟨fun hwhole => drawText_cell hX hY hcolumns hfits hwhole x color p,
    drawText_outside hX hY hcolumns hfits⟩

/-- The `B` of a line that is full after the `A` begins the next one. -/
theorem drawText_shows_wrapped :
    pixel (drawText 8 6 (chars "AB") 0xFFFFFFFF 1 fun _ => 0) 8 12 = 0xFFFFFFFF := by
  have hshows := (drawText_shows 8 6 (chars "AB") 0xFFFFFFFF 1 (by decide)
    (Nat.le_trans (Nat.min_le_left _ _) (by decide)) (fun _ => 0) 8 12 (by decide)
    (by decide)).1 (by decide)
  rw [hshows.1 'B'.toUInt8]
  · decide
  · exact Or.inl ⟨1, by decide, by decide⟩

/-! ## The picture -/

/-- A text of the picture. -/
structure TextCall where
  y : ℕ
  text : List UInt8
  color : UInt32

def TextCall.draw (p : Pixels) (c : TextCall) : Pixels :=
  drawText 8 (.ofNat c.y) c.text c.color 76 p

/-- Where the picture has the words of the report, with their labels. -/
def registerRows : List (ℕ × List UInt8) :=
  [(20, chars "EXC"), (28, chars "CAUSE"), (36, chars "EPC"), (44, chars "BADV"), (52, chars "SP"),
    (60, chars "RA"), (68, chars "GP")]

/-- The line of a word. -/
def registerCall (r : (ℕ × List UInt8) × UInt32) : TextCall where
  y := r.1.1
  text := registerLine r.1.2 r.2
  color := 0x80FFFFFF

def titleCall : TextCall where
  y := 6
  text := chars "EF2 CRASH"
  color := 0x8000D8FF

def recentTitleCall : TextCall where
  y := 84
  text := chars "RECENT RAM LOG"
  color := 0x8000D8FF

def recentCall (recent : List UInt8) : TextCall where
  y := 94
  text := recent
  color := 0x80E8E8E8

/-- The texts of the picture. -/
def textCalls (f : Frame) (recent : List UInt8) : List TextCall :=
  titleCall :: (registerRows.zip f.report).map registerCall ++ [recentTitleCall, recentCall recent]

@[simp] theorem registerCall_y (r : (ℕ × List UInt8) × UInt32) : (registerCall r).y = r.1.1 :=
  rfl

@[simp] theorem registerCall_text (r : (ℕ × List UInt8) × UInt32) :
    (registerCall r).text = registerLine r.1.2 r.2 := by
  rw [registerCall]

@[simp] theorem draw_registerCall (p : Pixels) (r : (ℕ × List UInt8) × UInt32) :
    TextCall.draw p (registerCall r) =
      drawText 8 (.ofNat r.1.1) (registerLine r.1.2 r.2) 0x80FFFFFF 76 p := by
  rw [TextCall.draw, registerCall]

/-- A text that takes one line of the picture. -/
def OneLine (text : List UInt8) : Prop :=
  0x0A ∉ text ∧ 0x0D ∉ text ∧ text.length ≤ 76

variable {f : Frame} {recent : List UInt8} {c : TextCall} {before after : List TextCall}

theorem crashPicture_eq (f : Frame) (recent : List UInt8) (p : Pixels) :
    crashPicture f recent p =
      (textCalls f recent).foldl TextCall.draw (screenFill 0x80000038 p) := by
  simp only [crashPicture, textCalls, registerRows, Frame.report, List.zip_cons_cons,
    List.zip_nil_right, List.map_cons, List.map_nil, List.cons_append, List.nil_append,
    List.foldl_cons, List.foldl_nil, TextCall.draw, drawRegisterLine, titleCall, registerCall,
    recentTitleCall, recentCall]
  rfl

theorem OneLine.lines (h : OneLine text) : lines 0x0A 0x0D text = [text] :=
  lines_of_line h.1 h.2.1

/-- Every text of the picture fits. -/
theorem fits_columns (text : List UInt8) : Fits text 76 :=
  Nat.le_trans (Nat.min_le_left _ _) (by decide)

theorem offset_ofNat {n : ℕ} (h : n ≤ X) (hX : X < 2 ^ 32) : offset (.ofNat n) X = X - n := by
  have hn : (UInt32.ofNat n).toNat = n := UInt32.toNat_ofNat_of_lt' (Nat.lt_of_le_of_lt h hX)
  rw [offset_of_le (hn.symm ▸ h) hX, hn]

/-- A text of one line leaves what is under it. -/
theorem OneLine.below (h : OneLine text) (hX : X < screenW) (hY : Y < screenH) {n : ℕ}
    (hn : n + 6 ≤ Y) :
    pixel (drawText x (.ofNat n) text color 76 p) X Y = pixel p X Y := by
  have hfar : offset (.ofNat n) Y = Y - n :=
    offset_ofNat (by omega) (Nat.lt_trans hY (by decide))
  rw [drawText_pixel hX hY (by decide)]
  refine if_neg ?_
  rintro ⟨⟨⟨row, column⟩, character⟩, hmem, hcovers⟩
  obtain ⟨-, -, hcolumn, hrow⟩ := cells_bounds (by decide) (fits_columns text) hmem
  obtain ⟨⟨hfirst, -⟩, -⟩ := (covers_iff hrow hcolumn character).1 hcovers
  have hzero : row = 0 :=
    layout_row h.1 (by rw [Nat.zero_add]; exact h.2.2) hmem
  omega

theorem drawTexts_elsewhere {l : List TextCall}
    (h : ∀ d ∈ l, ∀ p, pixel (TextCall.draw p d) X Y = pixel p X Y) (p : Pixels) :
    pixel (l.foldl TextCall.draw p) X Y = pixel p X Y := by
  induction l generalizing p with
  | nil => rfl
  | cons d l ih =>
    rw [List.foldl_cons, ih fun e he => h e (List.mem_cons_of_mem d he), h d List.mem_cons_self]

/-- The pixels under the texts before a text and above those after it are drawn by it alone. -/
theorem drawTexts_pixel (hX : X < screenW) (hY : Y < screenH)
    (hbefore : ∀ d ∈ before, OneLine d.text ∧ d.y + 6 ≤ Y)
    (hafter : ∀ d ∈ after, Y < d.y ∧ d.y < screenH)
    (p : Pixels) :
    ∃ p', pixel p' X Y = pixel p X Y ∧ pixel ((before ++ c :: after).foldl TextCall.draw p) X Y =
      pixel (TextCall.draw p' c) X Y := by
  refine ⟨before.foldl TextCall.draw p, drawTexts_elsewhere (fun d hd p => ?_) p, ?_⟩
  · exact (hbefore d hd).1.below hX hY (hbefore d hd).2
  · rw [List.foldl_append, List.foldl_cons]
    refine drawTexts_elsewhere (fun d hd p => ?_) _
    obtain ⟨habove, hscreen⟩ := hafter d hd
    have hy : (UInt32.ofNat d.y).toNat = d.y :=
      UInt32.toNat_ofNat_of_lt' (Nat.lt_trans hscreen (by decide))
    have hrows := wholeLines_le (.ofNat d.y)
    refine drawText_outside hX hY (by decide) (fits_columns d.text) (Or.inr ?_)
    rw [offset_of_lt (hy.symm ▸ habove), hy]
    unfold screenH at hscreen
    omega

/-! ## Reading the registers -/

/-- Which pixels of a cell have a colour. -/
def readGlyph (p : Pixels) (color : UInt32) (x y : ℕ) : List (List Bool) :=
  (List.range 5).map fun row => (List.range 3).map fun column =>
    pixel p (x + column) (y + row) == color

/-- Which pixels of its cell a character covers. -/
def glyph (character : UInt8) : List (List Bool) :=
  (List.range 5).map fun row => (List.range 3).map fun column => glyphBit character row column

/-- The digit that looks like the cell. -/
def readDigitAt (p : Pixels) (x y : ℕ) : Option ℕ :=
  (List.range 16).find? fun d => readGlyph p 0x80FFFFFF x y == glyph (digits.getD d 0)

/-- The eight digits after a label, a blank and `0x`. -/
def readRegister (p : Pixels) (r : ℕ × List UInt8) : Option UInt32 :=
  ((List.range 8).mapM fun i => readDigitAt p (8 + 4 * (r.2.length + 3 + i)) r.1).map fun places =>
    .ofNat (readDigits 16 0 places)

/-- The words of a report, read off the picture. -/
def readScreen (p : Pixels) : Option (List UInt32) :=
  registerRows.mapM (readRegister p)

theorem find_glyph :
    ∀ d < 16, ((List.range 16).find? fun e => glyph (digits.getD d 0) == glyph (digits.getD e 0)) =
      some d := by
  decide

theorem registerLine_eq {label : List UInt8} (h : label.length ≤ 20) (w : UInt32) :
    registerLine label w = label ++ [' '.toUInt8] ++ chars "0x" ++ hexText w := by
  rw [registerLine, appendText_eq (by rw [List.length_nil]; omega), List.nil_append, appendChar,
    if_pos (by omega), appendHex32_eq (by rw [List.length_append, List.length_singleton]; omega)]
  simp only [List.append_assoc]

theorem mem_hexText {w : UInt32} {character : UInt8} (h : character ∈ hexText w) :
    character ∈ digits := by
  obtain ⟨d, hd, rfl⟩ := List.mem_map.1 h
  have hlt := lt_of_mem_placeDigits (by decide) hd
  exact (show ∀ d < 16, digits.getD d 0 ∈ digits by decide) d hlt

/-- A label without newlines. -/
structure Plain (label : List UInt8) : Prop where
  newline : 0x0A ∉ label
  skip : 0x0D ∉ label
  length : label.length ≤ 20

theorem Plain.oneLine {label : List UInt8} (h : Plain label) (w : UInt32) :
    OneLine (registerLine label w) := by
  have hdigits : ∀ character ∈ hexText w, character ≠ 0x0A ∧ character ≠ 0x0D := fun _ hc =>
    (show ∀ d ∈ digits, d ≠ 0x0A ∧ d ≠ 0x0D by decide +kernel) _ (mem_hexText hc)
  have hlength := h.length
  rw [registerLine_eq h.length]
  refine ⟨?_, ?_, ?_⟩
  · simp only [List.mem_append, not_or]
    exact ⟨⟨⟨h.newline, by decide⟩, by decide⟩, fun hc => (hdigits _ hc).1 rfl⟩
  · simp only [List.mem_append, not_or]
    exact ⟨⟨⟨h.skip, by decide⟩, by decide⟩, fun hc => (hdigits _ hc).2 rfl⟩
  · rw [List.length_append, List.length_append, List.length_append, length_hexText]
    change label.length + 1 + 2 + 8 ≤ 76
    omega

/-- A character of a text of one line, as it looks on the screen. -/
theorem readGlyph_drawText {k y : ℕ} (hline : OneLine text) (hwhole : y + 5 < screenH)
    (hk : text[k]? = some character) {background : UInt32} (hcolor : color ≠ background)
    {q : Pixels}
    (hq : ∀ row < 5, ∀ column < 3, ∃ p, pixel p (8 + 4 * k + column) (y + row) = background ∧
      pixel q (8 + 4 * k + column) (y + row) =
        pixel (drawText 8 (.ofNat y) text color 76 p) (8 + 4 * k + column) (y + row)) :
    readGlyph q color (8 + 4 * k) y = glyph character := by
  obtain ⟨hlt, -⟩ := List.getElem?_eq_some_iff.1 hk
  have hlength := hline.2.2
  refine List.map_congr_left fun row hrow => List.map_congr_left fun column hcolumn => ?_
  rw [List.mem_range] at hrow hcolumn
  obtain ⟨p, hp, hpixel⟩ := hq row hrow column hcolumn
  unfold screenH at hwhole
  have hx : offset 8 (8 + 4 * k + column) = 4 * k + column := by
    refine (offset_ofNat (n := 8) (by omega) (by omega)).trans ?_
    omega
  have hy : offset (.ofNat y) (y + row) = row :=
    (offset_ofNat (Nat.le_add_right y row) (by omega)).trans (Nat.add_sub_cancel_left y row)
  have hrows : row / 6 < wholeLines (.ofNat y) := by
    rw [wholeLines_ofNat (by unfold screenH; omega)]
    unfold screenH
    omega
  have hstands : Stands 76 0 (lines 0x0A 0x0D text) (row / 6, (4 * k + column) / 4) character := by
    rw [hline.lines, stands_line_iff hlength]
    refine ⟨by dsimp only; omega, ?_⟩
    dsimp only
    rwa [show (4 * k + column) / 4 = k by omega]
  have hcell := (drawText_cell (X := 8 + 4 * k + column) (Y := y + row)
    (by unfold screenW; omega) (by unfold screenH; omega) (by decide) (fits_columns text)
    (hy.symm ▸ hrows) 8 color p).1 character
  rw [hx, hy, hp, show (4 * k + column) % 4 = column by omega,
    show row % 6 = row by omega] at hcell
  rw [hpixel, hcell hstands]
  by_cases hbit : glyphBit character row column = true
  · rw [if_pos ⟨hcolumn, hrow, hbit⟩, hbit]
    exact beq_self_eq_true color
  · rw [if_neg fun h => hbit h.2.2, Bool.eq_false_iff.2 hbit]
    exact beq_false_of_ne (Ne.symm hcolor)

theorem oneLine_title : OneLine titleCall.text := by
  unfold OneLine
  decide

theorem oneLine_recentTitle : OneLine recentTitleCall.text := by
  unfold OneLine
  decide

theorem registerRows_plain {r : ℕ × List UInt8} (hr : r ∈ registerRows) :
    Plain r.2 ∧ 20 ≤ r.1 ∧ r.1 ≤ 68 := by
  have hall : ∀ r ∈ registerRows,
      (0x0A ∉ r.2 ∧ 0x0D ∉ r.2 ∧ r.2.length ≤ 20) ∧ 20 ≤ r.1 ∧ r.1 ≤ 68 := by
    decide
  obtain ⟨⟨hnewline, hskip, hlength⟩, hrows⟩ := hall r hr
  exact ⟨⟨hnewline, hskip, hlength⟩, hrows⟩

theorem registerCall_oneLine {r : (ℕ × List UInt8) × UInt32} (hr : r ∈ registerRows.zip f.report) :
    OneLine (registerCall r).text ∧ 20 ≤ r.1.1 ∧ r.1.1 ≤ 68 := by
  obtain ⟨hplain, hrows⟩ := registerRows_plain (List.of_mem_zip hr).1
  rw [registerCall_text]
  exact ⟨hplain.oneLine r.2, hrows⟩

/-- The lines of the words go down the screen. -/
theorem registerCalls_sorted (f : Frame) :
    (registerRows.zip f.report).Pairwise fun q r => q.1.1 + 8 ≤ r.1.1 := by
  have hrows : ((registerRows.zip f.report).map fun r => r.1.1).Pairwise
      fun y y' => y + 8 ≤ y' := by
    change [20, 28, 36, 44, 52, 60, 68].Pairwise fun y y' => y + 8 ≤ y'
    decide
  exact List.pairwise_map.1 hrows

/-- Before a picture has texts. -/
theorem screenFill_pixel (hX : X < screenW) (hY : Y < screenH) (color : UInt32) (p : Pixels) :
    pixel (screenFill color p) X Y = color :=
  if_pos (by unfold screenW screenH at *; omega)

/-- Left of the texts there is nothing. -/
theorem crashPicture_left (f : Frame) (recent : List UInt8) (hX : X < 8) (hY : Y < screenH)
    (p : Pixels) : pixel (crashPicture f recent p) X Y = 0x80000038 := by
  have hscreen : X < screenW := Nat.lt_trans hX (by decide)
  have hleft : offset 8 X = 2 ^ 32 + X - 8 := offset_of_lt hX
  rw [crashPicture_eq, drawTexts_elsewhere fun d _ p => ?_, screenFill_pixel hscreen hY]
  refine drawText_outside hscreen hY (by decide) (fits_columns d.text) (Or.inl ?_)
  rw [hleft]
  change 4 * 76 ≤ _
  omega

/-- The rows of a word of the report are drawn by its line alone. -/
theorem crashPicture_register {r : (ℕ × List UInt8) × UInt32}
    (hr : r ∈ registerRows.zip f.report) (hX : X < screenW) (hy : r.1.1 ≤ Y)
    (hY : Y < r.1.1 + 6) (recent : List UInt8) (p : Pixels) :
    ∃ p', pixel p' X Y = 0x80000038 ∧ pixel (crashPicture f recent p) X Y =
      pixel (drawText 8 (.ofNat r.1.1) (registerLine r.1.2 r.2) 0x80FFFFFF 76 p') X Y := by
  obtain ⟨s, t, hst⟩ := List.append_of_mem hr
  have hsorted := registerCalls_sorted f
  rw [hst] at hsorted
  obtain ⟨-, hafter, hbefore⟩ := List.pairwise_append.1 hsorted
  obtain ⟨-, hlow, hhigh⟩ := registerCall_oneLine hr
  have habove : ∀ d ∈ titleCall :: s.map registerCall, OneLine d.text ∧ d.y + 6 ≤ Y := by
    intro d hd
    rcases List.mem_cons.1 hd with rfl | hd
    · exact ⟨oneLine_title, Nat.le_trans (show 6 + 6 ≤ 20 by decide) (Nat.le_trans hlow hy)⟩
    · obtain ⟨q, hq, rfl⟩ := List.mem_map.1 hd
      have hqr := hbefore q hq r List.mem_cons_self
      have hline := (registerCall_oneLine (hst ▸ List.mem_append_left _ hq)).1
      exact ⟨hline, by rw [registerCall_y]; omega⟩
  have hbelow : ∀ d ∈ t.map registerCall ++ [recentTitleCall, recentCall recent],
      Y < d.y ∧ d.y < screenH := by
    unfold screenH
    intro d hd
    rcases List.mem_append.1 hd with hd | hd
    · obtain ⟨q, hq, rfl⟩ := List.mem_map.1 hd
      have hrq := (List.pairwise_cons.1 hafter).1 q hq
      have hmem : q ∈ registerRows.zip f.report :=
        hst ▸ List.mem_append_right _ (List.mem_cons_of_mem _ hq)
      obtain ⟨-, -, hlast⟩ := registerCall_oneLine hmem
      rw [registerCall_y]
      omega
    · rcases List.mem_cons.1 hd with rfl | hd
      · change Y < 84 ∧ 84 < 224
        omega
      · obtain rfl := List.mem_singleton.1 hd
        change Y < 94 ∧ 94 < 224
        omega
  have hcalls : textCalls f recent = (titleCall :: s.map registerCall)
      ++ registerCall r :: (t.map registerCall ++ [recentTitleCall, recentCall recent]) := by
    rw [textCalls, hst, List.map_append, List.map_cons]
    simp only [List.cons_append, List.append_assoc]
  have hscreen : Y < screenH := by
    unfold screenH
    omega
  obtain ⟨p', hp', hpixel⟩ := drawTexts_pixel (c := registerCall r) hX hscreen habove hbelow
    (screenFill 0x80000038 p)
  rw [← hcalls, ← crashPicture_eq, draw_registerCall] at hpixel
  exact ⟨p', hp'.trans (screenFill_pixel hX hscreen _ p), hpixel⟩

theorem mapM_map_some {ι β γ : Type} {g : β → Option γ} {a : ι → β} {b : ι → γ} {l : List ι}
    (h : ∀ i ∈ l, g (a i) = some (b i)) : (l.map a).mapM g = some (l.map b) := by
  induction l with
  | nil => rfl
  | cons i l ih =>
    rw [List.map_cons, List.mapM_cons, h i List.mem_cons_self,
      ih fun j hj => h j (List.mem_cons_of_mem i hj)]
    rfl

/-- A digit of a word, as it is read off the picture. -/
theorem readDigitAt_crashPicture {r : (ℕ × List UInt8) × UInt32}
    (hr : r ∈ registerRows.zip f.report) (recent : List UInt8) (p : Pixels) {i d : ℕ}
    (hd : (placeDigits 16 8 r.2.toNat)[i]? = some d) :
    readDigitAt (crashPicture f recent p) (8 + 4 * (r.1.2.length + 3 + i)) r.1.1 = some d := by
  obtain ⟨hplain, hrows⟩ := registerRows_plain (List.of_mem_zip hr).1
  have hlt : d < 16 := lt_of_mem_placeDigits (by decide) (List.mem_of_getElem? hd)
  have hi : i < 8 := by
    obtain ⟨hi, -⟩ := List.getElem?_eq_some_iff.1 hd
    rwa [length_placeDigits] at hi
  have hcharacter : (registerLine r.1.2 r.2)[r.1.2.length + 3 + i]? = some (digits.getD d 0) := by
    have hlabel : (r.1.2 ++ [' '.toUInt8] ++ chars "0x").length = r.1.2.length + 3 := by
      rw [List.length_append, List.length_append]
      rfl
    rw [registerLine_eq hplain.length, ← hlabel, List.getElem?_append_right (Nat.le_add_right _ _),
      Nat.add_sub_cancel_left, hexText, List.getElem?_map, hd]
    rfl
  have hlength := hplain.length
  have hglyph : readGlyph (crashPicture f recent p) 0x80FFFFFF (8 + 4 * (r.1.2.length + 3 + i))
      r.1.1 = glyph (digits.getD d 0) :=
    readGlyph_drawText (hplain.oneLine r.2) (by unfold screenH; omega) hcharacter (by decide)
      fun row hrow column hcolumn =>
        crashPicture_register hr (by unfold screenW; omega) (by omega) (by omega) recent p
  rw [readDigitAt, hglyph]
  exact find_glyph d hlt

/-- The words of a report are read off its picture. -/
theorem readScreen_crashPicture (f : Frame) (recent : List UInt8) (p : Pixels) :
    readScreen (crashPicture f recent p) = some f.report := by
  have hregister : ∀ r ∈ registerRows.zip f.report,
      readRegister (crashPicture f recent p) r.1 = some r.2 := by
    intro r hr
    have hplaces : (List.range 8).mapM (fun i =>
        readDigitAt (crashPicture f recent p) (8 + 4 * (r.1.2.length + 3 + i)) r.1.1) =
        some (placeDigits 16 8 r.2.toNat) := by
      have hlist : (List.range 8).map (fun i => (placeDigits 16 8 r.2.toNat).getD i 0) =
          placeDigits 16 8 r.2.toNat := rfl
      rw [← hlist, ← List.map_id (List.range 8)]
      refine mapM_map_some fun i hi => readDigitAt_crashPicture hr recent p ?_
      have hlt : i < (placeDigits 16 8 r.2.toNat).length := by
        rw [length_placeDigits]
        exact List.mem_range.1 hi
      rw [List.getD_eq_getElem?_getD, id, List.getElem?_eq_getElem hlt, Option.getD_some]
    rw [readRegister, hplaces, Option.map_some, readDigits_placeDigits, Nat.zero_mul, Nat.zero_add,
      Nat.mod_eq_of_lt (show r.2.toNat < 16 ^ 8 from r.2.toNat_lt), UInt32.ofNat_toNat]
  have hmap := mapM_map_some hregister
  rw [List.map_fst_zip, List.map_snd_zip] at hmap
  · exact hmap
  · exact Nat.le_refl 7
  · exact Nat.le_refl 7

end EF2SDK.Crash
