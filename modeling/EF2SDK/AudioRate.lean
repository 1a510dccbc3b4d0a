import EF2SDK.Words
import Mathlib.Data.Int.Notation
import Mathlib.Logic.Function.Basic

/-!
# The audio rate converter

`ef2_audio_rate_converter_init`, `_reset` and `_process_s16` of `src/ee/audio/audio.c`, with the
freestanding divider they rest on. A buffer of interleaved samples is a function of the sample
index.

The pointers a call is given are not null. A sample's interpolation is computed on
integers : a difference of two samples times a 16-bit fraction fits in the source's 64 bits.
-/

set_option autoImplicit false

namespace EF2SDK.Audio

/-- `EF2_AUDIO_RESAMPLE_NEAREST`. -/
abbrev resampleNearest : ℕ := 0

/-- `EF2_AUDIO_RESAMPLE_LINEAR`. -/
abbrev resampleLinear : ℕ := 1

/-! ## The divider -/

/-- The loop of `ef2_audio_div_u64_u32`, with the bits below `bit` to go. -/
def divLoop (numerator denominator : ℕ) : (bit quotient remainder : ℕ) → ℕ
  | 0, quotient, _ => quotient
  | bit + 1, quotient, remainder =>
    let remainder := u64 (remainder <<< 1) ||| (numerator >>> bit) % 2
    if remainder ≥ denominator then
      divLoop numerator denominator bit (quotient ||| 1 <<< bit) (remainder - denominator)
    else divLoop numerator denominator bit quotient remainder

/-- `ef2_audio_div_u64_u32`. -/
def divU64U32 (numerator denominator : ℕ) : ℕ :=
  if denominator = 0 then 0 else divLoop numerator denominator 64 0 0

/-! ## The converter -/

/-- `ef2_audio_rate_converter`. -/
structure RateConverter where
  inputRate : ℕ
  outputRate : ℕ
  channels : ℕ
  mode : ℕ
  phaseQ32 : ℕ
  stepQ32 : ℕ
  deriving DecidableEq

/-- `ef2_audio_rate_converter_init`. -/
def rateConverterInit (converter : RateConverter) (inputRate outputRate channels mode : ℕ) :
    ℤ × RateConverter :=
  if inputRate = 0 ∨ outputRate = 0 then (-2, converter)
  else if channels ≠ 1 ∧ channels ≠ 2 then (-3, converter)
  else if mode ≠ resampleNearest ∧ mode ≠ resampleLinear then (-4, converter)
  else
    let stepQ32 := divU64U32 (u64 (inputRate <<< 32)) outputRate
    (if stepQ32 = 0 then -5 else 0, ⟨inputRate, outputRate, channels, mode, 0, stepQ32⟩)

/-- `ef2_audio_rate_converter_reset`. -/
def rateConverterReset (converter : RateConverter) : RateConverter :=
  { converter with phaseQ32 := 0 }

/-- One channel's sample between its neighbours `a` and `b`. -/
def resample (mode fraction : ℕ) (a b : Int16) : Int16 :=
  if mode = resampleNearest then
    if fraction < 0x80000000 then a else b
  else .ofInt (a.toInt + (b.toInt - a.toInt) * (fraction >>> 16 : ℕ) / 65536)

/-- The loop over the channels : one frame, from input frame `inputIndex` to output frame
`produced`. -/
def writeFrame (c : RateConverter) (input : ℕ → Int16) (inputIndex fraction produced : ℕ)
    (output : ℕ → Int16) : (channels : ℕ) → ℕ → Int16
  | 0 => output
  | channel + 1 =>
    Function.update (writeFrame c input inputIndex fraction produced output channel)
      (u32 (produced * c.channels + channel))
      (resample c.mode fraction (input (u32 (inputIndex * c.channels + channel)))
        (input (u32 (u32 (inputIndex + 1) * c.channels + channel))))

/-- The loop of the conversion, with `room` output frames left. -/
def convertLoop (c : RateConverter) (input : ℕ → Int16) (inputFrames : ℕ) :
    (room produced phase : ℕ) → (output : ℕ → Int16) → ℕ × ℕ × (ℕ → Int16)
  | 0, produced, phase, output => (produced, phase, output)
  | room + 1, produced, phase, output =>
    let inputIndex := u32 (phase >>> 32)
    let fraction := u32 phase
    if u32 (inputIndex + 1) ≥ inputFrames then (produced, phase, output)
    else
      convertLoop c input inputFrames room (u32 (produced + 1)) (u64 (phase + c.stepQ32))
        (writeFrame c input inputIndex fraction produced output c.channels)

/-- `output[i] = input[i]` for the first `count` samples. -/
def copySamples (input output : ℕ → Int16) : (count : ℕ) → ℕ → Int16
  | 0 => output
  | i + 1 => Function.update (copySamples input output i) i (input i)

/-- The return value of `ef2_audio_rate_converter_process_s16`, and what it wrote. -/
structure Processed where
  produced : ℕ
  converter : RateConverter
  output : ℕ → Int16
  consumed : ℕ

/-- `ef2_audio_rate_converter_process_s16`. -/
def process (c : RateConverter) (input : ℕ → Int16) (inputFrames : ℕ) (output : ℕ → Int16)
    (capacity : ℕ) : Processed :=
  if capacity = 0 ∨ inputFrames = 0 then ⟨0, c, output, 0⟩
  else if c.inputRate = c.outputRate then
    let frames := if inputFrames > capacity then capacity else inputFrames
    ⟨frames, { c with phaseQ32 := 0 }, copySamples input output (u32 (frames * c.channels)), frames⟩
  else if inputFrames < 2 then ⟨0, c, output, 0⟩
  else
    let (produced, phase, output) := convertLoop c input inputFrames capacity 0 c.phaseQ32 output
    let consumed64 := phase >>> 32
    let consumed := if consumed64 ≥ inputFrames then inputFrames - 1 else u32 consumed64
    ⟨produced, { c with phaseQ32 := u64 (phase + 2 ^ 64 - u64 (consumed <<< 32)) }, output,
      consumed⟩

end EF2SDK.Audio
