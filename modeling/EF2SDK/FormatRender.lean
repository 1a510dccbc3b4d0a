import EF2SDK.Format
import EF2SDK.Numerals
import EF2SDK.Words

/-!
# The rendering of a format

`render` says what a format and its arguments stand for : the literal characters, and for
every directive its field, a numeral in the given base, a string or a character, padded to
the width. `ef2_vsnprintf` puts exactly this text, one character after another
(`vsnprintfLoop_eq`). What `format_putc` has stored is then a prefix of the text that leaves
room for the terminator, and what it has counted is its length (`putAll_eq`), whatever the
buffer and its size.
-/

set_option autoImplicit false

namespace EF2SDK.Format

/-! ## What a format stands for -/

/-- A numeral in its field : padded with zeros behind the prefix, or with spaces before it. -/
def numberField (value base : ℕ) (upper : Bool) (width : ℕ) (pad : UInt8)
    (fieldPrefix : List UInt8) : List UInt8 :=
  let digits := (numeral base value).map fun digit => (table upper).getD digit 0
  let padding := width - (digits.length + fieldPrefix.length)
  if pad = '0'.toUInt8 then fieldPrefix ++ List.replicate padding '0'.toUInt8 ++ digits
  else List.replicate padding ' '.toUInt8 ++ fieldPrefix ++ digits

/-- A text padded with spaces to the width. -/
def textField (text : List UInt8) (width : ℕ) : List UInt8 :=
  List.replicate (width - text.length) ' '.toUInt8 ++ text

/-- The field of a directive, with the arguments left. -/
def renderConversion (d : Directive) (c : UInt8) (args : List Arg) :
    Option (List UInt8 × List Arg) :=
  match specifierOf c, args with
  | .char, .int value :: args => some (textField [value.toUInt8] d.width.toNat, args)
  | .string, .string text :: args =>
    some (textField (text.getD ("(null)".toList.map Char.toUInt8)) d.width.toNat, args)
  | .signed, args => (signedArg args d.length).map fun (value, args) =>
    (numberField value.natAbs 10 false d.width.toNat d.pad
      (if value < 0 then ['-'.toUInt8] else []), args)
  | .unsigned, args => (unsignedArg args d.length).map fun (value, args) =>
    (numberField value 10 false d.width.toNat d.pad [], args)
  | .hex upper, args => (unsignedArg args d.length).map fun (value, args) =>
    (numberField value 16 upper d.width.toNat d.pad [], args)
  | .pointer, .pointer value :: args =>
    some (numberField value.toNat 16 false d.width.toNat d.pad
      ("0x".toList.map Char.toUInt8), args)
  | .other, args => some (['%'.toUInt8, c], args)
  | _, _ => none

/-- The text of a format and its arguments, `none` when they do not match. A directive that
the format ends in stands for its `%`. -/
def render (format : List UInt8) (args : List Arg) : Option (List UInt8) :=
  match format with
  | [] => some []
  | c :: format =>
    if c ≠ '%'.toUInt8 then (render format args).map (c :: ·)
    else if format.head? = some '%'.toUInt8 then
      (render format.tail args).map ('%'.toUInt8 :: ·)
    else
      match _h : parseDirective format with
      | (_, []) => some ['%'.toUInt8]
      | (d, specifier :: rest) =>
        match renderConversion d specifier args with
        | none => none
        | some (text, args) => (render rest args).map (text ++ ·)
termination_by format.length
decreasing_by
  · simp
  · simp
  · have hlen := length_parseDirective format
    simp_all
    omega

theorem render_char {c : UInt8} (hc : c ≠ '%'.toUInt8) (format : List UInt8) (args : List Arg) :
    render (c :: format) args = (render format args).map (c :: ·) := by
  rw [render, if_pos hc]

theorem render_percent (format : List UInt8) (args : List Arg) :
    render ('%'.toUInt8 :: '%'.toUInt8 :: format) args
      = (render format args).map ('%'.toUInt8 :: ·) := by
  rw [render, if_neg (by simp), if_pos (by rfl), List.tail_cons]

theorem render_directive {format rest : List UInt8} {d : Directive} {c : UInt8}
    (hhead : format.head? ≠ some '%'.toUInt8) (hparse : parseDirective format = (d, c :: rest))
    (args : List Arg) :
    render ('%'.toUInt8 :: format) args
      = (renderConversion d c args).bind fun r => (render rest r.2).map (r.1 ++ ·) := by
  rw [render, if_neg (by simp), if_neg hhead]
  split
  · next h => exact absurd (hparse.symm.trans h) (by simp)
  · next h =>
    cases hparse.symm.trans h
    cases renderConversion d c args <;> rfl

theorem render_cut {format : List UInt8} {d : Directive}
    (hhead : format.head? ≠ some '%'.toUInt8) (hparse : parseDirective format = (d, []))
    (args : List Arg) : render ('%'.toUInt8 :: format) args = some ['%'.toUInt8] := by
  rw [render, if_neg (by simp), if_neg hhead]
  split
  · rfl
  · next h => exact absurd (hparse.symm.trans h) (by simp)

/-! ## Digits -/

theorem hexLoop_eq (value places : ℕ) (started : Bool) :
    hexLoop value places started = leadingDigits 16 places (value % 16 ^ places) started := by
  induction places generalizing started with
  | zero => rfl
  | succ places ih =>
    have hdigit : (value >>> (4 * places)) &&& 0x0F = value % 16 ^ (places + 1) / 16 ^ places := by
      rw [Nat.shiftRight_eq_div_pow, Nat.pow_mul, show 0x0F = 2 ^ 4 - 1 from rfl,
        Nat.and_two_pow_sub_one_eq_mod, show 2 ^ 4 = 16 from rfl,
        show 16 ^ (places + 1) = 16 ^ places * 16 from rfl, Nat.mod_mul_right_div_self]
    have hrest : value % 16 ^ (places + 1) % 16 ^ places = value % 16 ^ places :=
      Nat.mod_mod_of_dvd _ (Nat.pow_dvd_pow 16 (Nat.le_succ places))
    rw [hexLoop, leadingDigits, hdigit, hrest, ih, ih]

theorem subtractLoop_eq {place : ℕ} (hplace : 0 < place) (value digit : ℕ) :
    subtractLoop value place digit = (value % place, digit + value / place) := by
  fun_induction subtractLoop value place digit with
  | case1 value digit h ih =>
    rw [ih, Nat.mod_eq_sub_mod h.2, Nat.div_eq_sub_div hplace h.2, Nat.add_assoc, Nat.add_comm 1]
  | case2 value digit h =>
    have hlt : value < place := Nat.not_le.mp fun hle => h ⟨hplace, hle⟩
    rw [Nat.mod_eq_of_lt hlt, Nat.div_eq_of_lt hlt, Nat.add_zero]

theorem decimalLoop_eq (n value : ℕ) (started : Bool) :
    decimalLoop ((List.range n).reverse.map (10 ^ ·)) value started
      = leadingDigits 10 n value started := by
  induction n generalizing value started with
  | zero => rfl
  | succ n ih =>
    have hempty : (List.range n).reverse.map (10 ^ ·) = [] ↔ n = 0 := by
      simp
    rw [List.range_succ, List.reverse_append, List.reverse_singleton, List.singleton_append,
      List.map_cons, decimalLoop, leadingDigits]
    simp only [subtractLoop_eq (Nat.pow_pos (show 0 < 10 by decide)), Nat.zero_add, hempty, ih]

/-- The digits that `format_unsigned_digits` stores are the numeral. -/
theorem unsignedDigits_eq {value base : ℕ} (hbase : base = 10 ∨ base = 16)
    (hvalue : value < 2 ^ 64) (upper : Bool) :
    unsignedDigits value base upper
      = (numeral base value).map fun digit => (table upper).getD digit 0 := by
  have hplaces : decimalPlaces = (List.range 20).reverse.map (10 ^ ·) := rfl
  rcases hbase with rfl | rfl
  · rw [unsignedDigits, if_neg (by decide), hplaces, decimalLoop_eq,
      leadingDigits_eq_numeral (by decide) (by decide) (by omega)]
  · rw [unsignedDigits, if_pos rfl, hexLoop_eq, Nat.mod_eq_of_lt (by omega),
      leadingDigits_eq_numeral (by decide) (by decide) (by omega)]

/-! ## The text is put -/

theorem putAll_append (o : Output) (text text' : List UInt8) :
    putAll o (text ++ text') = putAll (putAll o text) text' :=
  List.foldl_append

theorem repeatChar_eq (value : UInt8) (count : ℕ) (o : Output) :
    repeatChar value count o = putAll o (List.replicate count value) := by
  induction count generalizing o with
  | zero => rfl
  | succ count ih => exact ih (putc o value)

theorem formatUnsigned_eq {value base : ℕ} (hbase : base = 10 ∨ base = 16)
    (hvalue : value < 2 ^ 64) (o : Output) (upper : Bool) (width : ℕ) (pad : UInt8)
    (fieldPrefix : List UInt8) :
    formatUnsigned o value base upper width pad fieldPrefix
      = putAll o (numberField value base upper width pad fieldPrefix) := by
  have hpadding (a b : ℕ) : (if a < b then b - a else 0) = b - a := by
    split <;> omega
  simp only [formatUnsigned, numberField, unsignedDigits_eq hbase hvalue, hpadding,
    repeatChar_eq]
  split <;> simp only [putAll_append]

theorem formatSigned_eq {value : ℤ} (hvalue : value.natAbs < 2 ^ 64) (o : Output) (width : ℕ)
    (pad : UInt8) :
    formatSigned o value width pad = putAll o (numberField value.natAbs 10 false width pad
      (if value < 0 then ['-'.toUInt8] else [])) := by
  unfold formatSigned
  split
  · have hmagnitude : (-(value + 1)).toNat + 1 = value.natAbs := by omega
    rw [hmagnitude, formatUnsigned_eq (Or.inl rfl) hvalue]
  · have hmagnitude : value.toNat = value.natAbs := by omega
    rw [hmagnitude, formatUnsigned_eq (Or.inl rfl) hvalue]

theorem formatString_eq (o : Output) (text : Option (List UInt8)) (width : ℕ) :
    formatString o text width
      = putAll o (textField (text.getD ("(null)".toList.map Char.toUInt8)) width) := by
  simp only [formatString, textField, putAll_append, repeatChar_eq]
  split
  · rfl
  · rw [Nat.sub_eq_zero_of_le (by omega)]
    rfl

theorem unsignedArg_lt {args args' : List Arg} {length : Length} {value : ℕ}
    (h : unsignedArg args length = some (value, args')) : value < 2 ^ 64 := by
  have hword (v : UInt32) : v.toNat < 2 ^ 64 := Nat.lt_trans v.toNat_lt (by decide)
  unfold unsignedArg at h
  split at h <;> cases h
  · exact UInt64.toNat_lt _
  · exact UInt64.toNat_lt _
  · exact hword _
  · exact hword _

theorem signedArg_lt {args args' : List Arg} {length : Length} {value : ℤ}
    (h : signedArg args length = some (value, args')) : value.natAbs < 2 ^ 64 := by
  have hword (v : Int32) : v.toInt.natAbs < 2 ^ 64 := by
    have hlo := v.le_toInt
    have hhi := v.toInt_lt
    omega
  have hlong (v : Int64) : v.toInt.natAbs < 2 ^ 64 := by
    have hlo := v.le_toInt
    have hhi := v.toInt_lt
    omega
  unfold signedArg at h
  split at h <;> cases h
  · exact hlong _
  · exact hlong _
  · exact hword _
  · exact hword _

/-- The padding of `%c`. -/
theorem formatChar_eq (o : Output) (value : UInt8) (width : UInt32) :
    putc (if 1 < width then repeatChar ' '.toUInt8 (width - 1).toNat o else o) value
      = putAll o (textField [value] width.toNat) := by
  rw [textField, putAll_append, ← repeatChar_eq, List.length_singleton]
  split
  · next h =>
    have hle : (1 : UInt32) ≤ width := UInt32.le_of_lt h
    rw [UInt32.toNat_sub_of_le _ _ hle]
    rfl
  · next h =>
    rw [UInt32.lt_iff_toNat_lt, Nat.not_lt] at h
    rw [Nat.sub_eq_zero_of_le (show width.toNat ≤ 1 from h)]
    rfl

/-- A directive puts its field. -/
theorem conversion_eq (o : Output) (d : Directive) (c : UInt8) (args : List Arg) :
    conversion o d c args
      = (renderConversion d c args).map fun r => (putAll o r.1, r.2) := by
  have hunsigned (base : ℕ) (hbase : base = 10 ∨ base = 16) (upper : Bool) :
      ((unsignedArg args d.length).map fun r =>
          (formatUnsigned o r.1 base upper d.width.toNat d.pad [], r.2))
        = ((unsignedArg args d.length).map fun r =>
          (numberField r.1 base upper d.width.toNat d.pad [], r.2)).map
            fun r => (putAll o r.1, r.2) := by
    cases harg : unsignedArg args d.length with
    | none => rfl
    | some r => simp [formatUnsigned_eq hbase (unsignedArg_lt harg)]
  unfold conversion renderConversion
  cases specifierOf c with
  | char =>
    cases args with
    | nil => rfl
    | cons a args =>
      cases a with
      | int value => simp [formatChar_eq]
      | _ => rfl
  | string =>
    cases args with
    | nil => rfl
    | cons a args =>
      cases a with
      | string text => simp [formatString_eq]
      | _ => rfl
  | signed =>
    cases harg : signedArg args d.length with
    | none => simp [harg]
    | some r => simp [harg, formatSigned_eq (signedArg_lt harg)]
  | unsigned => exact hunsigned 10 (Or.inl rfl) false
  | hex upper => exact hunsigned 16 (Or.inr rfl) upper
  | pointer =>
    cases args with
    | nil => rfl
    | cons a args =>
      cases a with
      | pointer value =>
        have hlt : value.toNat < 2 ^ 64 := Nat.lt_trans value.toNat_lt (by decide)
        simp [formatUnsigned_eq (Or.inr rfl) hlt]
      | _ => rfl
  | other => rfl

/-- The loop puts the rendering. -/
theorem vsnprintfLoop_eq (o : Output) (format : List UInt8) (args : List Arg) :
    vsnprintfLoop o format args = (render format args).map (putAll o) := by
  fun_induction render format args generalizing o with
  | case1 args => rw [vsnprintfLoop]; rfl
  | case2 args c format hc ih =>
    rw [vsnprintfLoop, if_pos hc, ih, Option.map_map]
    rfl
  | case3 args c format hc hpercent ih =>
    rw [vsnprintfLoop, if_neg hc, if_pos hpercent, ih, Option.map_map]
    rfl
  | case4 args c format hc hpercent d hd =>
    rw [vsnprintfLoop, if_neg hc, if_neg hpercent]
    split
    · rfl
    · next hd' => exact absurd (hd.symm.trans hd') (by simp)
  | case5 args c format hc hpercent d specifier rest hd hnone =>
    rw [vsnprintfLoop, if_neg hc, if_neg hpercent]
    split
    · next hd' => exact absurd (hd.symm.trans hd') (by simp)
    · next hd' =>
      cases hd.symm.trans hd'
      rw [conversion_eq, hnone]
      rfl
  | case6 args c format hc hpercent d specifier rest hd text args' hsome ih =>
    rw [vsnprintfLoop, if_neg hc, if_neg hpercent]
    split
    · next hd' => exact absurd (hd.symm.trans hd') (by simp)
    · next hd' =>
      cases hd.symm.trans hd'
      rw [conversion_eq, hsome]
      simp only [Option.map_some, ih, Option.map_map]
      congr 1
      funext text'
      exact (putAll_append o text text').symm

/-! ## What is stored and what is counted -/

/-- The byte at `i` of a buffer of `size` bytes, once `text` is put from `n` on : characters
are stored while there is room for a terminator behind them. -/
def stored (n size : ℕ) (text : List UInt8) (b : ℕ → UInt8) (i : ℕ) : UInt8 :=
  if n ≤ i ∧ i < n + text.length ∧ i + 1 < size then text.getD (i - n) 0 else b i

theorem stored_nil (n size : ℕ) : stored n size [] = id := by
  funext b i
  rw [stored, if_neg (by rw [List.length_nil]; omega)]
  rfl

theorem stored_cons (n size : ℕ) (c : UInt8) (text : List UInt8) (b : ℕ → UInt8) :
    stored n size (c :: text) b
      = stored (n + 1) size text fun i => if i = n ∧ n + 1 < size then c else b i := by
  funext i
  simp only [stored, List.length_cons]
  by_cases hi : i = n
  · subst hi
    rw [if_neg (c := i + 1 ≤ i ∧ _) (by omega), Nat.sub_self]
    by_cases hroom : i + 1 < size
    · rw [if_pos ⟨Nat.le_refl i, by omega, hroom⟩, if_pos ⟨rfl, hroom⟩]
      rfl
    · rw [if_neg (by omega), if_neg (by omega)]
  · rw [if_neg (c := i = n ∧ _) fun h => hi h.1]
    by_cases hin : n + 1 ≤ i ∧ i < n + 1 + text.length ∧ i + 1 < size
    · rw [if_pos hin, if_pos (by omega), show i - n = i - (n + 1) + 1 by omega]
      rfl
    · rw [if_neg hin, if_neg (by omega)]

/-- `format_putc` stores one character. -/
theorem putc_buffer (o : Output) (c : UInt8) (h : o.count.toNat + 1 < 2 ^ 32) :
    (putc o c).buffer = o.buffer.map fun b i =>
      if i = o.count.toNat ∧ o.count.toNat + 1 < o.size.toNat then c else b i := by
  have hroom : (o.size ≠ 0 ∧ o.count + 1 < o.size) ↔ o.count.toNat + 1 < o.size.toNat := by
    have hnext : (o.count + 1).toNat = o.count.toNat + 1 := toNat_add_one h
    rw [UInt32.lt_iff_toNat_lt, hnext]
    refine ⟨And.right, fun hlt => ⟨fun h0 => ?_, hlt⟩⟩
    rw [h0] at hlt
    exact Nat.not_lt_zero _ hlt
  unfold putc
  by_cases hlt : o.count.toNat + 1 < o.size.toNat
  · simp only [hroom, hlt, if_true, and_true]
  · simp only [hroom, hlt, if_false, and_false, Option.map_id']

/-- Putting a text counts its length and stores what there is room for. -/
theorem putAll_eq (o : Output) (text : List UInt8)
    (h : o.count.toNat + text.length < 2 ^ 32) :
    (putAll o text).size = o.size
    ∧ (putAll o text).count.toNat = o.count.toNat + text.length
    ∧ (putAll o text).buffer = o.buffer.map (stored o.count.toNat o.size.toNat text) := by
  induction text generalizing o with
  | nil => exact ⟨rfl, rfl, by rw [stored_nil, Option.map_id]; rfl⟩
  | cons c text ih =>
    rw [List.length_cons] at h ⊢
    have hcount : (putc o c).count.toNat = o.count.toNat + 1 := toNat_add_one (by omega)
    obtain ⟨hsize, hcounted, hbuffer⟩ := ih (putc o c) (by omega)
    refine ⟨hsize, ?_, ?_⟩
    · change (putAll (putc o c) text).count.toNat = _
      omega
    · change (putAll (putc o c) text).buffer = _
      rw [hbuffer, putc_buffer o c (by omega), Option.map_map, hcount]
      congr 1
      funext b
      exact (stored_cons _ _ c text b).symm

/-- A buffer of `size` bytes with as much of `text` as fits before a terminator. -/
def terminated (size : ℕ) (text : List UInt8) (b : ℕ → UInt8) (i : ℕ) : UInt8 :=
  if i < min text.length (size - 1) then text.getD i 0
  else if i = min text.length (size - 1) then 0
  else b i

/-- The terminator behind what is stored. -/
theorem terminated_eq (size : ℕ) (text : List UInt8) (b : ℕ → UInt8) (i : ℕ) :
    terminated size text b i
      = if i = min text.length (size - 1) then 0 else stored 0 size text b i := by
  unfold terminated stored
  by_cases hi : i < min text.length (size - 1)
  · rw [if_pos hi, if_neg (by omega), if_pos (by omega), Nat.sub_zero]
  · rw [if_neg hi]
    split_ifs with hend hin
    · rfl
    · omega
    · rfl

/-- `ef2_vsnprintf` counts the text and stores it, as far as the buffer goes. -/
def Prints (format : List UInt8) (args : List Arg) (text : List UInt8) : Prop :=
  ∀ (buffer : Option (ℕ → UInt8)) (size : UInt32),
    vsnprintf buffer size format args = some ((text.length : ℤ),
      if size = 0 then buffer else buffer.map (terminated size.toNat text))

/-- What `ef2_vsnprintf` returns, and its buffer. -/
theorem prints_render {format : List UInt8} {args : List Arg} {text : List UInt8}
    (htext : render format args = some text) (hlen : text.length ≤ 0x7FFFFFFF) :
    Prints format args text := by
  intro buffer size
  obtain ⟨o, ho⟩ : ∃ o, o = putAll ⟨buffer, size, 0⟩ text := ⟨_, rfl⟩
  have hstart : (0 : UInt32).toNat = 0 := rfl
  have hput := putAll_eq ⟨buffer, size, 0⟩ text (by rw [hstart]; omega)
  rw [← ho] at hput
  dsimp only at hput
  rw [hstart, Nat.zero_add] at hput
  obtain ⟨hsize, hcount, hbuffer⟩ := hput
  have hlimit : ¬0x7FFFFFFF < o.count := by
    rw [UInt32.lt_iff_toNat_lt, hcount]
    exact Nat.not_lt.mpr hlen
  rw [vsnprintf, vsnprintfLoop_eq, htext, Option.map_some, Option.map_some, ← ho]
  dsimp only
  rw [if_neg hlimit, hcount, hsize, hbuffer]
  by_cases hpos : size = 0
  · subst hpos
    have hunstored : stored 0 (0 : UInt32).toNat text = id := by
      funext b i
      exact if_neg fun h => Nat.not_lt_zero _ h.2.2
    rw [if_neg (by simp), hunstored, Option.map_id, if_pos rfl]
    rfl
  · have hpos' : 0 < size.toNat := Nat.pos_of_ne_zero fun h => hpos (UInt32.toNat_inj.mp h)
    have hterminator : (if o.count < size then o.count else size - 1).toNat
        = min text.length (size.toNat - 1) := by
      split
      · next hlt =>
        rw [UInt32.lt_iff_toNat_lt, hcount] at hlt
        rw [hcount]
        omega
      · next hge =>
        rw [UInt32.lt_iff_toNat_lt, hcount] at hge
        rw [UInt32.toNat_sub_of_le _ _ (UInt32.le_iff_toNat_le.mpr
          (show (1 : UInt32).toNat ≤ size.toNat from hpos'))]
        change size.toNat - 1 = _
        omega
    rw [if_pos hpos, if_neg hpos, Option.map_map]
    congr 3
    funext b i
    rw [terminated_eq, ← hterminator]
    rfl

/-- `ef2_vsnprintf` returns the length of the rendering, and leaves in the buffer as much of
it as fits before a terminator. -/
theorem vsnprintf_renders (buffer : Option (ℕ → UInt8)) (size : UInt32) (format : List UInt8)
    (args : List Arg) (text : List UInt8) (htext : render format args = some text)
    (hlen : text.length ≤ 0x7FFFFFFF) :
    ∃ buffer', vsnprintf buffer size format args = some ((text.length : ℤ), buffer')
    ∧ (buffer = none ∨ size = 0 → buffer' = buffer)
    ∧ ∀ b, buffer = some b → size ≠ 0 → ∃ b', buffer' = some b'
      ∧ (∀ i < min text.length (size.toNat - 1), b' i = text.getD i 0)
      ∧ b' (min text.length (size.toNat - 1)) = 0
      ∧ ∀ i > min text.length (size.toNat - 1), b' i = b i := by
  refine ⟨_, prints_render htext hlen buffer size, ?_, ?_⟩
  · rintro (rfl | rfl)
    · split <;> rfl
    · exact if_pos rfl
  · rintro b rfl hpos
    refine ⟨terminated size.toNat text b, by rw [if_neg hpos]; rfl, fun i hi => ?_, ?_,
      fun i hi => ?_⟩
    · rw [terminated, if_pos hi]
    · rw [terminated, if_neg (Nat.lt_irrefl _), if_pos rfl]
    · rw [terminated, if_neg (by omega), if_neg (by omega)]

/-- `"%d!"` with the argument 42, into a buffer of 3 bytes. -/
theorem vsnprintf_renders_cut :
    render ("%d!".toList.map Char.toUInt8) [.int 42] = some ("42!".toList.map Char.toUInt8)
    ∧ ∃ buffer', vsnprintf (some fun _ => 0xFF) 3 ("%d!".toList.map Char.toUInt8) [.int 42]
      = some (3, buffer') := by
  have htext : render ("%d!".toList.map Char.toUInt8) [.int 42]
      = some ("42!".toList.map Char.toUInt8) := by
    decide +kernel
  obtain ⟨buffer', hresult, -⟩ := vsnprintf_renders (some fun _ => 0xFF) 3 _ _ _ htext (by decide)
  exact ⟨htext, buffer', hresult⟩

end EF2SDK.Format
