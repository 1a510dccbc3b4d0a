import EF2SDK.FormatRender

/-!
# The field of a number

A number conversion puts spaces, a sign, zeros and digits, in this order (`Field`). Whatever
the value and the width, the field reads back as the value, its digits are the shortest that do,
and only one of the two paddings fills the width (`IsField`). `vsnprintf_number` says this of
`ef2_vsnprintf` for every 64-bit argument : below 1000000 the digits of the width are read
to their end, for the cap of `parseWidth` applies only to a width of six digits.
-/

set_option autoImplicit false

namespace EF2SDK.Format

/-! ## Reading a field -/

/-- The value of a digit character. -/
def digitValue (c : UInt8) : Option ℕ :=
  if '0'.toUInt8 ≤ c ∧ c ≤ '9'.toUInt8 then some (c - '0'.toUInt8).toNat
  else if 'a'.toUInt8 ≤ c ∧ c ≤ 'f'.toUInt8 then some ((c - 'a'.toUInt8).toNat + 10)
  else if 'A'.toUInt8 ≤ c ∧ c ≤ 'F'.toUInt8 then some ((c - 'A'.toUInt8).toNat + 10)
  else none

/-- The values of the characters, all digits of the base. -/
def digitValues (base : ℕ) (text : List UInt8) : Option (List ℕ) :=
  text.mapM fun c => (digitValue c).filter (· < base)

/-- A number in its base, of one digit or more. -/
def readMagnitude (base : ℕ) (text : List UInt8) : Option ℕ :=
  if text = [] then none else (digitValues base text).map (readDigits base 0)

/-- A number behind spaces, with an optional sign. -/
def readNumber (base : ℕ) (text : List UInt8) : Option ℤ :=
  let text := text.dropWhile (· == ' '.toUInt8)
  if text.head? = some '-'.toUInt8 then
    (readMagnitude base text.tail).map fun value : ℕ => -(value : ℤ)
  else (readMagnitude base text).map fun value : ℕ => (value : ℤ)

/-- The character of a digit. -/
def digitChar (upper : Bool) (d : ℕ) : UInt8 :=
  (table upper).getD d 0

theorem digitValue_digitChar {d : ℕ} (hd : d < 16) (upper : Bool) :
    digitValue (digitChar upper d) = some d := by
  have hall : ∀ upper : Bool, ∀ d < 16, digitValue (digitChar upper d) = some d := by decide
  exact hall upper d hd

theorem digitValues_map {base : ℕ} (hbase : base ≤ 16) {digits : List ℕ}
    (hdigits : ∀ d ∈ digits, d < base) (upper : Bool) :
    digitValues base (digits.map (digitChar upper)) = some digits := by
  induction digits with
  | nil => rfl
  | cons d digits ih =>
    obtain ⟨hd, hdigits⟩ := List.forall_mem_cons.1 hdigits
    have hvalue := digitValue_digitChar (Nat.lt_of_lt_of_le hd hbase) upper
    have ih := ih hdigits
    unfold digitValues at ih ⊢
    rw [List.map_cons, List.mapM_cons, hvalue, ih, Option.filter_some, if_pos (by simpa using hd)]
    rfl

/-! ## The parts of a field -/

/-- The parts of a number's field. -/
structure Field where
  spaces : ℕ
  negative : Bool
  zeros : ℕ
  digits : List UInt8

def Field.sign (f : Field) : List UInt8 :=
  if f.negative then ['-'.toUInt8] else []

def Field.text (f : Field) : List UInt8 :=
  List.replicate f.spaces ' '.toUInt8 ++ f.sign ++ List.replicate f.zeros '0'.toUInt8 ++ f.digits

/-- The size of the array `digits` of `format_unsigned`. -/
abbrev scratchSize : ℕ := 32

/-- A field of `v` in the given base, padded to the width with zeros or with spaces. -/
structure IsField (base : ℕ) (upper : Bool) (width : ℕ) (zero : Bool) (v : ℤ) (f : Field) :
    Prop where
  reads : readNumber base f.text = some v
  negative : f.negative = true ↔ v < 0
  digits_mem : ∀ c ∈ f.digits, c ∈ (table upper).take base
  leading : f.digits.head? = some '0'.toUInt8 → f.digits = ['0'.toUInt8]
  length : f.text.length = max width (f.sign.length + f.digits.length)
  padding : if zero then f.spaces = 0 else f.zeros = 0
  /-- They are the characters stored in the scratch array, one after another. -/
  scratch : f.digits = unsignedDigits v.natAbs base upper ∧ f.digits.length ≤ scratchSize

/-- The field that `numberField` puts. -/
def fieldOf (base : ℕ) (upper : Bool) (width : ℕ) (zero : Bool) (v : ℤ) : Field :=
  let digits := (numeral base v.natAbs).map (digitChar upper)
  let padding := width - (digits.length + if v < 0 then 1 else 0)
  ⟨if zero then 0 else padding, decide (v < 0), if zero then padding else 0, digits⟩

variable {base : ℕ} {upper : Bool} {width : ℕ} {zero : Bool} {v : ℤ}

theorem sign_fieldOf :
    (fieldOf base upper width zero v).sign = if v < 0 then ['-'.toUInt8] else [] := by
  unfold Field.sign fieldOf
  by_cases hv : v < 0
  · rw [if_pos (decide_eq_true hv), if_pos hv]
  · rw [if_neg (by simpa using hv), if_neg hv]

theorem numberField_eq (pad : UInt8) :
    numberField v.natAbs base upper width pad (if v < 0 then ['-'.toUInt8] else []) =
      (fieldOf base upper width (decide (pad = '0'.toUInt8)) v).text := by
  have hsign : (if v < 0 then ['-'.toUInt8] else []).length = if v < 0 then 1 else 0 := by
    split_ifs <;> rfl
  unfold numberField Field.text
  rw [sign_fieldOf]
  dsimp only [fieldOf]
  rw [hsign]
  by_cases hpad : pad = '0'.toUInt8
  · simp only [hpad, decide_true, if_true]
    rfl
  · simp only [hpad, decide_false, if_false, Bool.false_eq_true, List.replicate_zero,
      List.append_nil]
    rfl

theorem length_fieldOf :
    (fieldOf base upper width zero v).text.length =
      max width ((fieldOf base upper width zero v).sign.length +
        (fieldOf base upper width zero v).digits.length) := by
  have hsign : (if v < 0 then ['-'.toUInt8] else []).length = if v < 0 then 1 else 0 := by
    split_ifs <;> rfl
  rw [Field.text, sign_fieldOf]
  simp only [List.length_append, List.length_replicate, hsign, fieldOf]
  cases zero with
  | false =>
    simp only [Bool.false_eq_true, if_false]
    omega
  | true =>
    simp only [if_true]
    omega

/-! ## The field reads back -/

theorem digitChar_zero (upper : Bool) : digitChar upper 0 = '0'.toUInt8 := by
  cases upper <;> rfl

/-- No digit is taken for a space or a sign. -/
theorem digitChar_ne {d : ℕ} (hd : d < 16) (upper : Bool) :
    digitChar upper d ≠ ' '.toUInt8 ∧ digitChar upper d ≠ '-'.toUInt8 := by
  have hall : ∀ upper : Bool, ∀ d < 16,
      digitChar upper d ≠ ' '.toUInt8 ∧ digitChar upper d ≠ '-'.toUInt8 := by decide
  exact hall upper d hd

theorem dropWhile_spaces {text : List UInt8} (k : ℕ) (h : text.head? ≠ some ' '.toUInt8) :
    (List.replicate k ' '.toUInt8 ++ text).dropWhile (· == ' '.toUInt8) = text := by
  induction k with
  | zero =>
    cases text with
    | nil => rfl
    | cons c text =>
      refine List.dropWhile_cons_of_neg ?_
      simpa using h
  | succ k ih => exact ih

/-- The zeros and the digits of a field. -/
theorem readMagnitude_digits (hbase : base = 10 ∨ base = 16) (upper : Bool) (zeros value : ℕ) :
    readMagnitude base
      (List.replicate zeros '0'.toUInt8 ++ (numeral base value).map (digitChar upper)) =
        some value := by
  have hdigits : ∀ d ∈ List.replicate zeros 0 ++ numeral base value, d < base := by
    intro d hd
    rcases List.mem_append.1 hd with hzero | hd
    · obtain rfl := List.eq_of_mem_replicate hzero
      omega
    · exact lt_of_mem_numeral (by omega) hd
  have hchars : List.replicate zeros '0'.toUInt8 ++ (numeral base value).map (digitChar upper) =
      (List.replicate zeros 0 ++ numeral base value).map (digitChar upper) := by
    rw [List.map_append, List.map_replicate, digitChar_zero]
  rw [hchars, readMagnitude, if_neg (by simp [numeral_ne_nil]),
    digitValues_map (by omega) hdigits, Option.map_some, readDigits_zeros, readDigits_numeral]

/-- The first of the zeros and the digits is a digit. -/
theorem head_digits (hbase : base = 10 ∨ base = 16) (upper : Bool) (zeros value : ℕ) :
    ∃ d < 16, (List.replicate zeros '0'.toUInt8 ++
      (numeral base value).map (digitChar upper)).head? = some (digitChar upper d) := by
  cases zeros with
  | succ zeros => exact ⟨0, by decide, by rw [digitChar_zero]; rfl⟩
  | zero =>
    obtain ⟨d, digits, hnumeral⟩ := List.exists_cons_of_ne_nil (numeral_ne_nil base value)
    have hd : d < base := lt_of_mem_numeral (by omega) (hnumeral ▸ List.mem_cons_self)
    refine ⟨d, by omega, ?_⟩
    rw [hnumeral]
    rfl

theorem readNumber_fieldOf (hbase : base = 10 ∨ base = 16) :
    readNumber base (fieldOf base upper width zero v).text = some v := by
  obtain ⟨zeros, hzeros⟩ : ∃ k, k = (fieldOf base upper width zero v).zeros := ⟨_, rfl⟩
  obtain ⟨d, hd, hhead⟩ := head_digits hbase upper zeros v.natAbs
  obtain ⟨magnitude, hmagnitude⟩ : ∃ text, text = List.replicate zeros '0'.toUInt8 ++
      (numeral base v.natAbs).map (digitChar upper) := ⟨_, rfl⟩
  have hread := readMagnitude_digits hbase upper zeros v.natAbs
  rw [← hmagnitude] at hhead hread
  have htext : (fieldOf base upper width zero v).text =
      List.replicate (fieldOf base upper width zero v).spaces ' '.toUInt8 ++
        ((if v < 0 then ['-'.toUInt8] else []) ++ magnitude) := by
    rw [Field.text, sign_fieldOf, ← hzeros, hmagnitude, List.append_assoc, List.append_assoc]
    rfl
  rw [htext, readNumber]
  by_cases hv : v < 0
  · have hsign : (['-'.toUInt8] ++ magnitude).head? = some '-'.toUInt8 := rfl
    have htail : (['-'.toUInt8] ++ magnitude).tail = magnitude := rfl
    rw [if_pos hv, dropWhile_spaces _ (by rw [hsign]; decide), if_pos hsign, htail, hread,
      Option.map_some]
    exact congrArg some (by omega)
  · rw [if_neg hv, List.nil_append, dropWhile_spaces _ (by rw [hhead]; simp [digitChar_ne hd]),
      if_neg (by rw [hhead]; simp [digitChar_ne hd]), hread, Option.map_some]
    exact congrArg some (by omega)

/-- What `ef2_vsnprintf` puts for a number is a field of it. -/
theorem isField_fieldOf (hbase : base = 10 ∨ base = 16) (hv : v.natAbs < 2 ^ 64) :
    IsField base upper width zero v (fieldOf base upper width zero v) where
  reads := readNumber_fieldOf hbase
  negative := decide_eq_true_iff
  digits_mem c hc := by
    obtain ⟨d, hd, rfl⟩ := List.mem_map.1 hc
    have hd : d < base := lt_of_mem_numeral (by omega) hd
    have hlength : (table upper).length = 16 := by cases upper <;> rfl
    rw [digitChar, List.getD_eq_getElem?_getD, List.getElem?_eq_getElem (by omega)]
    exact List.mem_take_iff_getElem.2 ⟨d, by omega, rfl⟩
  leading h := by
    obtain ⟨d, digits, hnumeral⟩ := List.exists_cons_of_ne_nil (numeral_ne_nil base v.natAbs)
    have hd : d < base := lt_of_mem_numeral (by omega) (hnumeral ▸ List.mem_cons_self)
    have hdigits : (fieldOf base upper width zero v).digits =
        (numeral base v.natAbs).map (digitChar upper) := rfl
    rw [hdigits, hnumeral] at h
    have hzero : d = 0 := by
      have hvalue := digitValue_digitChar (show d < 16 by omega) upper
      rw [show digitChar upper d = '0'.toUInt8 from Option.some.inj h] at hvalue
      exact (Option.some.inj hvalue).symm
    rw [hdigits, numeral_eq_of_head (by rw [hnumeral, hzero]; rfl), List.map_singleton,
      digitChar_zero]
  length := length_fieldOf
  padding := by cases zero <;> rfl
  scratch := by
    have hdigits := unsignedDigits_eq hbase hv upper
    refine ⟨hdigits.symm, ?_⟩
    show ((numeral base v.natAbs).map (digitChar upper)).length ≤ 32
    rw [List.length_map]
    refine length_numeral_le (by omega) (by decide) ?_
    rcases hbase with rfl | rfl
    · omega
    · omega

/-! ## The directive -/

/-- The characters of a width, its first zero the flag. -/
def widthText (digits : List (Fin 10)) : List UInt8 :=
  digits.map fun d => digitChar false d.val

def widthValue (digits : List (Fin 10)) : ℕ :=
  readDigits 10 0 (digits.map Fin.val)

/-- The directive `c` for a `long long`. -/
def numberFormat (digits : List (Fin 10)) (c : UInt8) : List UInt8 :=
  '%'.toUInt8 :: (widthText digits ++ ['l'.toUInt8, 'l'.toUInt8, c])

/-- The cap stops no width below 1000000, for the digits before the last are below 100000. -/
theorem parseWidth_digits (digits : List (Fin 10)) {rest : List UInt8}
    (hrest : ∀ c ∈ rest.head?, isDigit c = false) {w : ℕ}
    (h : readDigits 10 w (digits.map Fin.val) < 1000000) :
    parseWidth (widthText digits ++ rest) (.ofNat w) =
      (.ofNat (readDigits 10 w (digits.map Fin.val)), rest) := by
  induction digits generalizing w with
  | nil =>
    cases rest with
    | nil => rfl
    | cons c rest =>
      show parseWidth (c :: rest) (.ofNat w) = (.ofNat w, c :: rest)
      rw [parseWidth, if_neg (by rw [hrest c rfl]; exact Bool.false_ne_true)]
  | cons d digits ih =>
    have hle := le_readDigits (show 0 < 10 by decide) (10 * w + d.val) (digits.map Fin.val)
    have hstep : readDigits 10 w ((d :: digits).map Fin.val) =
        readDigits 10 (10 * w + d.val) (digits.map Fin.val) := rfl
    rw [hstep] at h ⊢
    have hw : (UInt32.ofNat w).toNat = w :=
      UInt32.toNat_ofNat_of_lt' (show w < 2 ^ 32 by omega)
    have hlt : UInt32.ofNat w < 100000 := by
      rw [UInt32.lt_iff_toNat_lt, hw]
      show w < 100000
      omega
    have hdigit : isDigit (digitChar false d.val) = true ∧
        (digitChar false d.val - '0'.toUInt8).toUInt32.toNat = d.val := by
      have hall : ∀ d : Fin 10, isDigit (digitChar false d.val) = true ∧
          (digitChar false d.val - '0'.toUInt8).toUInt32.toNat = d.val := by decide
      exact hall d
    have hnext : (UInt32.ofNat w <<< 3) + (UInt32.ofNat w <<< 1) +
        (digitChar false d.val - '0'.toUInt8).toUInt32 = UInt32.ofNat (10 * w + d.val) := by
      refine UInt32.toNat_inj.1 ?_
      rw [UInt32.toNat_add, UInt32.toNat_add, hdigit.2, UInt32.toNat_shiftLeft,
        UInt32.toNat_shiftLeft, hw, UInt32.toNat_ofNat_of_lt' (show _ < 2 ^ 32 by omega)]
      show ((w <<< 3 % 2 ^ 32 + w <<< 1 % 2 ^ 32) % 2 ^ 32 + d.val) % 2 ^ 32 = 10 * w + d.val
      rw [Nat.shiftLeft_eq, Nat.shiftLeft_eq]
      omega
    show parseWidth (digitChar false d.val :: (widthText digits ++ rest)) (.ofNat w) = _
    rw [parseWidth, if_pos hdigit.1, if_pos hlt, hnext]
    exact ih h

/-- The flag `0`. -/
def isZeroPadded (digits : List (Fin 10)) : Bool :=
  decide (digits.head? = some 0)

theorem parseDirective_number {digits : List (Fin 10)} (h : widthValue digits < 1000000)
    (c : UInt8) :
    parseDirective (widthText digits ++ ['l'.toUInt8, 'l'.toUInt8, c]) =
      (⟨if isZeroPadded digits then '0'.toUInt8 else ' '.toUInt8, .ofNat (widthValue digits),
        .longLong⟩, [c]) := by
  have hlong : ∀ c ∈ ['l'.toUInt8, 'l'.toUInt8, c].head?, isDigit c = false := by
    intro c hc
    obtain rfl := Option.some.inj hc
    rfl
  have hwidth : ∀ {digits' : List (Fin 10)}, widthValue digits' < 1000000 →
      parseWidth (widthText digits' ++ ['l'.toUInt8, 'l'.toUInt8, c]) 0 =
        (.ofNat (widthValue digits'), ['l'.toUInt8, 'l'.toUInt8, c]) :=
    fun {digits'} h' => parseWidth_digits digits' hlong h'
  have hlength : parseLength ['l'.toUInt8, 'l'.toUInt8, c] = (.longLong, [c]) := rfl
  have hspace : parsePad (widthText digits ++ ['l'.toUInt8, 'l'.toUInt8, c]) =
      (' '.toUInt8, widthText digits ++ ['l'.toUInt8, 'l'.toUInt8, c]) →
      isZeroPadded digits = false → parseDirective (widthText digits ++
        ['l'.toUInt8, 'l'.toUInt8, c]) = (⟨if isZeroPadded digits then '0'.toUInt8
          else ' '.toUInt8, .ofNat (widthValue digits), .longLong⟩, [c]) := by
    intro hpad hflag
    simp only [parseDirective, hpad, hwidth h, hlength, hflag, Bool.false_eq_true, if_false]
  cases digits with
  | nil => exact hspace rfl rfl
  | cons d digits =>
    by_cases hd : d = 0
    · subst hd
      have hpad : parsePad (widthText (0 :: digits) ++ ['l'.toUInt8, 'l'.toUInt8, c]) =
          ('0'.toUInt8, widthText digits ++ ['l'.toUInt8, 'l'.toUInt8, c]) := rfl
      have hvalue : widthValue (0 :: digits) = widthValue digits := rfl
      rw [hvalue] at h ⊢
      simp only [parseDirective, hpad, hwidth h, hlength]
      rfl
    · refine hspace ?_ (by simpa [isZeroPadded] using hd)
      have hchar : ∀ d : Fin 10, d ≠ 0 → digitChar false d.val ≠ '0'.toUInt8 := by decide
      exact if_neg (hchar d hd)

/-! ## The whole call -/

theorem IsField.length_le {f : Field} (h : IsField base upper width zero v f)
    (hwidth : width < 1000000) : f.text.length ≤ 0x7FFFFFFF := by
  have hsign : f.sign.length ≤ 1 := by
    unfold Field.sign
    split_ifs <;> decide
  have hdigits : f.digits.length ≤ 32 := h.scratch.2
  rw [h.length]
  omega

/-- A conversion whose field is the one of `v`. -/
theorem prints_number {digits : List (Fin 10)} (hwidth : widthValue digits < 1000000)
    {c : UInt8} {arg : Arg} (hbase : base = 10 ∨ base = 16) (hv : v.natAbs < 2 ^ 64)
    (hconversion : ∀ pad w, renderConversion ⟨pad, w, .longLong⟩ c [arg] = some
      (numberField v.natAbs base upper w.toNat pad (if v < 0 then ['-'.toUInt8] else []), [])) :
    ∃ f, IsField base upper (widthValue digits) (isZeroPadded digits) v f ∧
      Prints (numberFormat digits c) [arg] f.text := by
  have hfield : IsField base upper (widthValue digits) (isZeroPadded digits) v _ :=
    isField_fieldOf hbase hv
  refine ⟨_, hfield, prints_render ?_ (hfield.length_le hwidth)⟩
  have hhead : (widthText digits ++ ['l'.toUInt8, 'l'.toUInt8, c]).head? ≠ some '%'.toUInt8 := by
    cases digits with
    | nil => show some 'l'.toUInt8 ≠ some '%'.toUInt8; decide
    | cons d digits =>
      have hchar : ∀ d : Fin 10, some (digitChar false d.val) ≠ some '%'.toUInt8 := by decide
      exact hchar d
  have hvalue : (UInt32.ofNat (widthValue digits)).toNat = widthValue digits :=
    UInt32.toNat_ofNat_of_lt' (show _ < 2 ^ 32 by omega)
  have hpad : decide ((if isZeroPadded digits then '0'.toUInt8 else ' '.toUInt8) =
      '0'.toUInt8) = isZeroPadded digits := by
    cases isZeroPadded digits <;> rfl
  rw [numberFormat, render_directive hhead (parseDirective_number hwidth c), hconversion,
    Option.bind_some, numberField_eq, hvalue, hpad]
  show (render [] []).map _ = _
  rw [render, Option.map_some, List.append_nil]

/-- The numbers of `ef2_vsnprintf` : for every width below 1000000, with the flag `0` or
without, every 64-bit value is put as a field of it. -/
theorem vsnprintf_number (digits : List (Fin 10)) (hwidth : widthValue digits < 1000000) :
    (∀ (v : Int64) (c : UInt8), c = 'd'.toUInt8 ∨ c = 'i'.toUInt8 →
      ∃ f, IsField 10 false (widthValue digits) (isZeroPadded digits) v.toInt f ∧
        Prints (numberFormat digits c) [.longLong v.toUInt64] f.text) ∧
    (∀ v : UInt64,
      ∃ f, IsField 10 false (widthValue digits) (isZeroPadded digits) v.toNat f ∧
        Prints (numberFormat digits 'u'.toUInt8) [.longLong v] f.text) ∧
    ∀ (v : UInt64) (upper : Bool),
      ∃ f, IsField 16 upper (widthValue digits) (isZeroPadded digits) v.toNat f ∧
        Prints (numberFormat digits (if upper then 'X'.toUInt8 else 'x'.toUInt8)) [.longLong v]
          f.text := by
  have hunsigned : ∀ v : UInt64, ((v.toNat : ℤ).natAbs < 2 ^ 64 ∧ ¬(v.toNat : ℤ) < 0) := by
    intro v
    have := v.toNat_lt
    omega
  refine ⟨fun v c hc => ?_, fun v => ?_, fun v upper => ?_⟩
  · have hlo := v.le_toInt
    have hhi := v.toInt_lt
    refine prints_number hwidth (Or.inl rfl) (by omega) fun pad w => ?_
    rcases hc with rfl | rfl <;> rfl
  · refine prints_number hwidth (Or.inl rfl) (hunsigned v).1 fun pad w => ?_
    rw [if_neg (hunsigned v).2]
    rfl
  · refine prints_number hwidth (Or.inr rfl) (hunsigned v).1 fun pad w => ?_
    rw [if_neg (hunsigned v).2]
    cases upper <;> rfl

/-- `"%06lld"` of -42. -/
theorem vsnprintf_number_padded : ∃ f, IsField 10 false 6 true (-42) f ∧
    Prints ("%06lld".toList.map Char.toUInt8) [.longLong (-42 : Int64).toUInt64] f.text :=
  (vsnprintf_number [0, 6] (by decide)).1 (-42) 'd'.toUInt8 (Or.inl rfl)

end EF2SDK.Format
