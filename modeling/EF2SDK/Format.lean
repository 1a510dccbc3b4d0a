import Mathlib.Data.Int.Notation
import Mathlib.Data.List.Basic

/-!
# The formatter

`src/ee/runtime/libc_format.c`. `ef2_vsnprintf` walks over the format once; every character it
produces goes through `format_putc`, which stores it while there is room for it and a
terminator, and counts it.

A string is the list of its bytes before the terminating NUL. A buffer is a function of the
byte's index, `none` for a null pointer. As on the EE, `int`, `size_t` and pointers have 32
bits, `long` and `long long` have 64. An argument is a value with the type it was passed as,
and fetching it as another type is undefined (`none`), like running out of arguments.
-/

set_option autoImplicit false

namespace EF2SDK.Format

/-- `ef2_format_output`. -/
structure Output where
  buffer : Option (ℕ → UInt8)
  size : UInt32
  count : UInt32

/-- `ef2_format_length`. -/
inductive Length where
  | default
  | long
  | longLong
  | size
  deriving DecidableEq

/-- An argument as it was passed, signed or unsigned : the promoted `int`, `long`, `long
long`, `size_t` or `ptrdiff_t`, a string or a pointer. -/
inductive Arg where
  | int (value : UInt32)
  | long (value : UInt64)
  | longLong (value : UInt64)
  | size (value : UInt32)
  | string (text : Option (List UInt8))
  | pointer (value : UInt32)

/-! ## Output -/

/-- `format_putc`. -/
def putc (o : Output) (value : UInt8) : Output :=
  { o with
    buffer :=
      if o.size ≠ 0 ∧ o.count + 1 < o.size then
        o.buffer.map fun b => fun i => if i = o.count.toNat then value else b i
      else o.buffer
    count := o.count + 1 }

/-- `format_repeat`, with the characters left. -/
def repeatChar (value : UInt8) : ℕ → Output → Output
  | 0, o => o
  | count + 1, o => repeatChar value count (putc o value)

/-- The loops that put the characters of an array. -/
def putAll (o : Output) (chars : List UInt8) : Output :=
  chars.foldl putc o

/-! ## Numbers -/

/-- `decimal_places`. -/
def decimalPlaces : List ℕ :=
  [10000000000000000000, 1000000000000000000, 100000000000000000, 10000000000000000,
    1000000000000000, 100000000000000, 10000000000000, 1000000000000, 100000000000,
    10000000000, 1000000000, 100000000, 10000000, 1000000, 100000, 10000, 1000, 100, 10, 1]

/-- `lower_table` and `upper_table`. -/
def table (upper : Bool) : List UInt8 :=
  (if upper then "0123456789ABCDEF" else "0123456789abcdef").toList.map Char.toUInt8

/-- The hexadecimal loop of `format_unsigned_digits`, for the shift `4 * (places - 1)` and the
lower ones. -/
def hexLoop (value : ℕ) : ℕ → Bool → List ℕ
  | 0, _ => []
  | places + 1, started =>
    let digit := (value >>> (4 * places)) &&& 0x0F
    if digit ≠ 0 ∨ started = true ∨ places = 0 then digit :: hexLoop value places true
    else hexLoop value places started

/-- The subtraction loop : what is left of the value, and the digit. -/
def subtractLoop (value place digit : ℕ) : ℕ × ℕ :=
  if 0 < place ∧ place ≤ value then subtractLoop (value - place) place (digit + 1)
  else (value, digit)
termination_by value

/-- The decimal loop of `format_unsigned_digits`. -/
def decimalLoop : List ℕ → ℕ → Bool → List ℕ
  | [], _, _ => []
  | place :: places, value, started =>
    let (value, digit) := subtractLoop value place 0
    if digit ≠ 0 ∨ started = true ∨ places = [] then digit :: decimalLoop places value true
    else decimalLoop places value started

/-- `format_unsigned_digits`. -/
def unsignedDigits (value base : ℕ) (upper : Bool) : List UInt8 :=
  (if base = 16 then hexLoop value 16 false else decimalLoop decimalPlaces value false).map
    fun digit => (table upper).getD digit 0

/-- `format_unsigned`. -/
def formatUnsigned (o : Output) (value base : ℕ) (upper : Bool) (width : ℕ) (pad : UInt8)
    (fieldPrefix : List UInt8) : Output :=
  let digits := unsignedDigits value base upper
  let fieldSize := digits.length + fieldPrefix.length
  let padding := if fieldSize < width then width - fieldSize else 0
  let o :=
    if pad = '0'.toUInt8 then repeatChar '0'.toUInt8 padding (putAll o fieldPrefix)
    else putAll (repeatChar ' '.toUInt8 padding o) fieldPrefix
  putAll o digits

/-- `format_unsigned_arg`, with the arguments left. -/
def unsignedArg : List Arg → Length → Option (ℕ × List Arg)
  | .longLong value :: args, .longLong => some (value.toNat, args)
  | .long value :: args, .long => some (value.toNat, args)
  | .size value :: args, .size => some (value.toNat, args)
  | .int value :: args, .default => some (value.toNat, args)
  | _, _ => none

/-- `format_signed_arg`, with the arguments left. -/
def signedArg : List Arg → Length → Option (ℤ × List Arg)
  | .longLong value :: args, .longLong => some (value.toInt64.toInt, args)
  | .long value :: args, .long => some (value.toInt64.toInt, args)
  | .size value :: args, .size => some (value.toInt32.toInt, args)
  | .int value :: args, .default => some (value.toInt32.toInt, args)
  | _, _ => none

/-- `format_signed`. -/
def formatSigned (o : Output) (value : ℤ) (width : ℕ) (pad : UInt8) : Output :=
  if value < 0 then
    formatUnsigned o ((-(value + 1)).toNat + 1) 10 false width pad ['-'.toUInt8]
  else
    formatUnsigned o value.toNat 10 false width pad []

/-- `format_string`. -/
def formatString (o : Output) (text : Option (List UInt8)) (width : ℕ) : Output :=
  let text := text.getD ("(null)".toList.map Char.toUInt8)
  let o := if text.length < width then repeatChar ' '.toUInt8 (width - text.length) o else o
  putAll o text

/-! ## Directives -/

def isDigit (c : UInt8) : Bool :=
  '0'.toUInt8 ≤ c && c ≤ '9'.toUInt8

/-- The width and the format behind it. -/
def parseWidth : List UInt8 → UInt32 → UInt32 × List UInt8
  | [], width => (width, [])
  | c :: format, width =>
    if isDigit c then
      parseWidth format
        (if width < 100000 then (width <<< 3) + (width <<< 1) + (c - '0'.toUInt8).toUInt32
        else width)
    else (width, c :: format)

/-- The padding character and the format behind the flag. -/
def parsePad : List UInt8 → UInt8 × List UInt8
  | c :: format => if c = '0'.toUInt8 then ('0'.toUInt8, format) else (' '.toUInt8, c :: format)
  | [] => (' '.toUInt8, [])

/-- The length modifier and the format behind it. -/
def parseLength : List UInt8 → Length × List UInt8
  | c :: format =>
    if c = 'l'.toUInt8 then
      match format with
      | d :: format' => if d = 'l'.toUInt8 then (.longLong, format') else (.long, format)
      | [] => (.long, [])
    else if c = 'z'.toUInt8 then (.size, format)
    else (.default, c :: format)
  | [] => (.default, [])

/-- What stands between a `%` and its specifier. -/
structure Directive where
  pad : UInt8
  width : UInt32
  length : Length
  deriving DecidableEq

/-- The directive behind a `%`, and the format from its specifier on. -/
def parseDirective (format : List UInt8) : Directive × List UInt8 :=
  let (pad, format) := parsePad format
  let (width, format) := parseWidth format 0
  let (length, format) := parseLength format
  (⟨pad, width, length⟩, format)

/-- The specifiers that end a directive. -/
inductive Specifier where
  | char
  | string
  | signed
  | unsigned
  | hex (upper : Bool)
  | pointer
  | other

/-- The cases of the `switch`. -/
def specifierOf (c : UInt8) : Specifier :=
  if c = 'c'.toUInt8 then .char
  else if c = 's'.toUInt8 then .string
  else if c = 'd'.toUInt8 ∨ c = 'i'.toUInt8 then .signed
  else if c = 'u'.toUInt8 then .unsigned
  else if c = 'x'.toUInt8 then .hex false
  else if c = 'X'.toUInt8 then .hex true
  else if c = 'p'.toUInt8 then .pointer
  else .other

/-- The `switch` on the specifier `c`, with the arguments left. -/
def conversion (o : Output) (d : Directive) (c : UInt8) (args : List Arg) :
    Option (Output × List Arg) :=
  match specifierOf c, args with
  | .char, .int value :: args =>
    let o := if 1 < d.width then repeatChar ' '.toUInt8 (d.width - 1).toNat o else o
    some (putc o value.toUInt8, args)
  | .string, .string text :: args => some (formatString o text d.width.toNat, args)
  | .signed, args => (signedArg args d.length).map fun (value, args) =>
    (formatSigned o value d.width.toNat d.pad, args)
  | .unsigned, args => (unsignedArg args d.length).map fun (value, args) =>
    (formatUnsigned o value 10 false d.width.toNat d.pad [], args)
  | .hex upper, args => (unsignedArg args d.length).map fun (value, args) =>
    (formatUnsigned o value 16 upper d.width.toNat d.pad [], args)
  | .pointer, .pointer value :: args =>
    some (formatUnsigned o value.toNat 16 false d.width.toNat d.pad
      ("0x".toList.map Char.toUInt8), args)
  | .other, args => some (putc (putc o '%'.toUInt8) c, args)
  | _, _ => none

theorem length_parseWidth (format : List UInt8) (width : UInt32) :
    (parseWidth format width).2.length ≤ format.length := by
  induction format generalizing width with
  | nil => exact Nat.le_refl _
  | cons c format ih =>
    unfold parseWidth
    split
    · exact Nat.le_succ_of_le (ih _)
    · exact Nat.le_refl _

theorem length_parsePad (format : List UInt8) :
    (parsePad format).2.length ≤ format.length := by
  unfold parsePad
  split
  · split <;> simp
  · simp

theorem length_parseLength (format : List UInt8) :
    (parseLength format).2.length ≤ format.length := by
  unfold parseLength
  split
  · split
    · split
      · split <;> simp
        omega
      · simp
    · split <;> simp
  · simp

theorem length_parseDirective (format : List UInt8) :
    (parseDirective format).2.length ≤ format.length :=
  Nat.le_trans (length_parseLength _)
    (Nat.le_trans (length_parseWidth _ _) (length_parsePad format))

/-- The loop of `ef2_vsnprintf`. -/
def vsnprintfLoop (o : Output) (format : List UInt8) (args : List Arg) : Option Output :=
  match format with
  | [] => some o
  | c :: format =>
    if c ≠ '%'.toUInt8 then vsnprintfLoop (putc o c) format args
    else if format.head? = some '%'.toUInt8 then
      vsnprintfLoop (putc o '%'.toUInt8) format.tail args
    else
      match _h : parseDirective format with
      | (_, []) => some (putc o '%'.toUInt8)
      | (d, specifier :: rest) =>
        match conversion o d specifier args with
        | none => none
        | some (o, args) => vsnprintfLoop o rest args
termination_by format.length
decreasing_by
  · simp
  · have htail : format.tail.length ≤ format.length := by
      rw [List.length_tail]
      exact Nat.sub_le _ _
    exact Nat.lt_succ_of_le htail
  · have hlen := length_parseDirective format
    simp_all
    omega

/-- `ef2_vsnprintf` : the result, with the buffer as it leaves it. -/
def vsnprintf (buffer : Option (ℕ → UInt8)) (size : UInt32) (format : List UInt8)
    (args : List Arg) : Option (ℤ × Option (ℕ → UInt8)) :=
  (vsnprintfLoop ⟨buffer, size, 0⟩ format args).map fun o =>
    let buffer :=
      if o.size ≠ 0 then
        let terminator := if o.count < o.size then o.count else o.size - 1
        o.buffer.map fun b => fun i => if i = terminator.toNat then 0 else b i
      else o.buffer
    if 0x7FFFFFFF < o.count then (0x7FFFFFFF, buffer) else (o.count.toNat, buffer)

end EF2SDK.Format
