import EF2SDK.Format
import EF2SDK.Heap

/-!
# Formatted output

`src/ee/runtime/libc_stdio.c`. `ef2_vfprintf` formats twice : once to measure, and once into
a buffer, its own on the stack where the text fits and a block of the heap where it does
not. `write_all` then offers the text to the stream's sink until it has taken all of it.

A sink is a function on its context, a state of any type `σ`, that is given the bytes it is
offered ; it may take fewer than that, or fail. The buffer's bytes are those of the memory it
lies in, so formatting into a block of the heap changes the heap's memory. Format and
arguments that do not match give `none`, as in `Format.vsnprintf`.
-/

set_option autoImplicit false

namespace EF2SDK.Stdio

open Format (Arg vsnprintf)

/-- `EF2_STDIO_STACK_BUFFER`. -/
abbrev stackBufferSize : ℕ := 256

variable {σ : Type*}

/-- `ef2_FILE`, `none` for a null write function. The context is passed along. -/
structure File (σ : Type*) where
  write : Option (σ → List UInt8 → ℤ × σ)

/-! ## Writing -/

/-- The loop of `write_all`, from `written` on : the number of bytes written, `none` for
`return -1`. -/
def writeLoop (write : σ → List UInt8 → ℤ × σ) (data : List UInt8) (written : ℕ)
    (context : σ) : Option ℕ × σ :=
  if _h : written < data.length then
    match write context (data.drop written) with
    | (result, context) =>
      if _hpos : result ≤ 0 then (none, context)
      else if result.toNat > data.length - written then (none, context)
      else writeLoop write data (written + result.toNat) context
  else (some written, context)
termination_by data.length - written
decreasing_by omega

/-- `write_all`. -/
def writeAll (stream : Option (File σ)) (context : σ) (data : List UInt8) : ℤ × σ :=
  match stream with
  | some ⟨some write⟩ =>
    match writeLoop write data 0 context with
    | (none, context) => (-1, context)
    | (some written, context) => (if written > 0x7FFFFFFF then 0x7FFFFFFF else written, context)
  | _ => (-1, context)

/-! ## Formatting -/

/-- What `ef2_vfprintf` works on : the heap and its own buffer on the stack. -/
structure Memory where
  heap : Heap.State
  stackBuffer : ℕ → UInt8

/-- `buffer` : the one on the stack, or a block of the heap. -/
inductive Buffer
  | stack
  | heap (address : ℕ)

namespace Memory

variable (m : Memory)

/-- The bytes from the buffer's address on. -/
def read : Buffer → ℕ → UInt8
  | .stack => m.stackBuffer
  | .heap address => fun i => m.heap.mem (address + i)

/-- The memory with other bytes from the buffer's address on. -/
def store (bytes : ℕ → UInt8) : Buffer → Memory
  | .stack => { m with stackBuffer := bytes }
  | .heap address =>
    { m with heap := { m.heap with
        mem := fun x => if address ≤ x then bytes (x - address) else m.heap.mem x } }

/-- `if (buffer != stack_buffer) ef2_free(buffer)`. -/
def release : Buffer → Memory
  | .stack => m
  | .heap address => { m with heap := Heap.free m.heap address }

/-- The first `n` bytes of the buffer. -/
def text (buffer : Buffer) (n : ℕ) : List UInt8 :=
  (List.range n).map (m.read buffer)

end Memory

/-- `ef2_vfprintf` from the second formatting on. -/
def formatAndWrite (m : Memory) (buffer : Buffer) (capacity : UInt32) (stream : File σ)
    (context : σ) (format : List UInt8) (args : List Arg) : Option (ℤ × Memory × σ) :=
  (vsnprintf (some (m.read buffer)) capacity format args).map fun (formatted, bytes) =>
    let m := m.store (bytes.getD (m.read buffer)) buffer
    if formatted < 0 then (-1, m.release buffer, context)
    else
      let (result, context) := writeAll (some stream) context (m.text buffer formatted.toNat)
      let m := m.release buffer
      if result < 0 then (-1, m, context) else (formatted, m, context)

/-- `ef2_vfprintf`. -/
def vfprintf (m : Memory) (stream : Option (File σ)) (context : σ)
    (format : Option (List UInt8)) (args : List Arg) : Option (ℤ × Memory × σ) :=
  match stream, format with
  | some stream, some format =>
    (vsnprintf none 0 format args).bind fun (needed, _) =>
      if needed < 0 then some (-1, m, context)
      else
        let capacity : UInt32 := .ofNat needed.toNat + 1
        if capacity.toNat > stackBufferSize then
          (Heap.malloc m.heap capacity.toNat).bind fun (buffer, heap) =>
            let m := { m with heap := heap }
            if buffer = 0 then some (-1, m, context)
            else formatAndWrite m (.heap buffer) capacity stream context format args
        else formatAndWrite m .stack capacity stream context format args
  | _, _ => some (-1, m, context)

/-- `ef2_puts`, with `stdout` the stream `ef2_stdout_stream`. -/
def puts (stdout : File σ) (context : σ) (text : Option (List UInt8)) : ℤ × σ :=
  match text with
  | none => (-1, context)
  | some text =>
    match writeAll (some stdout) context text with
    | (result, context) =>
      if result < 0 then (-1, context)
      else
        match writeAll (some stdout) context ['\n'.toUInt8] with
        | (result, context) =>
          if result < 0 then (-1, context)
          else if text.length ≥ 0x7FFFFFFF then (0x7FFFFFFF, context)
          else (text.length + 1, context)

end EF2SDK.Stdio
