import Mathlib.Data.Int.Notation
import EF2SDK.ByteMemory
import EF2SDK.Words

/-!
# The EE heap allocator

`src/ee/runtime/heap.c` on the EE, where pointers and `ef2_u32` have 32 bits. Addresses and
words are natural numbers, with `u32` where the source's unsigned arithmetic may wrap.
The block headers live in the memory the heap manages : a header is the four words
`size`, `magic`, `previous`, `next`, read and written through `ByteMemory`.

A walk along the `next` links is a recursion with fuel; `none` means that it did not
end within `maxBlocks` blocks, more than the address space has room for.
-/

set_option autoImplicit false

namespace EF2SDK.Heap

open ByteMemory

/-- `EF2_HEAP_ALIGNMENT`. -/
abbrev heapAlignment : ℕ := 16

/-- `EF2_HEAP_MAGIC_ALLOC`. -/
abbrev magicAlloc : ℕ := 0xE2A110C1

/-- `EF2_HEAP_MAGIC_FREE`. -/
abbrev magicFree : ℕ := 0xE2F4EE01

/-- `align_up`, and `align_ptr_up` for 32-bit pointers. Clearing the low four bits rounds
down to a multiple of 16. -/
def alignUp (value : ℕ) : ℕ :=
  u32 (value + heapAlignment - 1) / heapAlignment * heapAlignment

/-- `align_ptr_down`. -/
def alignPtrDown (value : ℕ) : ℕ :=
  value / heapAlignment * heapAlignment

/-- `header_size` : `sizeof(ef2_heap_block)` is four words. -/
abbrev headerSize : ℕ := 16

/-- The loop of `checked_multiply_u32` for a `right` of at most `bits` bits. -/
def multiplyLoop : (bits left right result : ℕ) → Option ℕ
  | 0, _, _, result => some result
  | bits + 1, left, right, result =>
    if right = 0 then some result
    else if right % 2 ≠ 0 ∧ result > 0xFFFFFFFF - left then none
    else
      let result := if right % 2 ≠ 0 then result + left else result
      if right / 2 ≠ 0 then
        if left > 0x7FFFFFFF then none else multiplyLoop bits (2 * left) (right / 2) result
      else some result

/-- `checked_multiply_u32`. -/
def checkedMultiply (left right : ℕ) : Option ℕ :=
  multiplyLoop 32 left right 0

/-! ## Block headers -/

def blockSize (m : Mem) (block : ℕ) : ℕ := readU32 m block

def blockMagic (m : Mem) (block : ℕ) : ℕ := readU32 m (block + 4)

def blockPrevious (m : Mem) (block : ℕ) : ℕ := readU32 m (block + 8)

def blockNext (m : Mem) (block : ℕ) : ℕ := readU32 m (block + 12)

def setSize (m : Mem) (block v : ℕ) : Mem := writeU32 m block v

def setMagic (m : Mem) (block v : ℕ) : Mem := writeU32 m (block + 4) v

def setPrevious (m : Mem) (block v : ℕ) : Mem := writeU32 m (block + 8) v

def setNext (m : Mem) (block v : ℕ) : Mem := writeU32 m (block + 12) v

/-- `block_payload`. -/
def blockPayload (block : ℕ) : ℕ := block + headerSize

/-- `payload_block`. -/
def payloadBlock (ptr : ℕ) : ℕ := ptr - headerSize

/-- `if (block->next != NULL) block->next->previous = block`. -/
def linkNextBack (m : Mem) (block : ℕ) : Mem :=
  if blockNext m block ≠ 0 then setPrevious m (blockNext m block) block else m

/-- `split_block`. -/
def splitBlock (m : Mem) (block wanted : ℕ) : Mem :=
  if blockSize m block < wanted then m
  else
    let remaining := blockSize m block - wanted
    if remaining < headerSize + heapAlignment then m
    else
      let split := blockPayload block + wanted
      let m := setSize m split (remaining - headerSize)
      let m := setMagic m split magicFree
      let m := setPrevious m split block
      let m := setNext m split (blockNext m block)
      let m := linkNextBack m split
      let m := setSize m block wanted
      setNext m block split

/-- `merge_with_next`, on a non-null block. -/
def mergeWithNext (m : Mem) (block : ℕ) : Mem :=
  let next := blockNext m block
  if next = 0 ∨ blockMagic m next ≠ magicFree then m
  else
    let m := setSize m block (u32 (blockSize m block + (headerSize + blockSize m next)))
    linkNextBack (setNext m block (blockNext m next)) block

/-! ## The allocator -/

/-- The memory and the static variables of the allocator. -/
structure State where
  mem : Mem
  first : ℕ
  total : ℕ
  active : ℕ
  ready : Bool

/-- The blocks a walk may visit : one more than the address space has room for. -/
def maxBlocks : ℕ := 2 ^ 28 + 1

/-- `ef2_heap_init`. -/
def heapInit (s : State) (memory size : ℕ) : ℤ × State :=
  if memory = 0 ∨ size = 0 then (-1, s)
  else
    let start := alignUp memory
    let stop := alignPtrDown (u32 (memory + size))
    if stop ≤ start ∨ stop - start < headerSize + heapAlignment then (-2, s)
    else if stop - start > 0xFFFFFFFF then (-3, s)
    else
      let m := setSize s.mem start (stop - start - headerSize)
      let m := setMagic m start magicFree
      let m := setPrevious m start 0
      let m := setNext m start 0
      (0, ⟨m, start, blockSize m start, 0, true⟩)

/-- The search of `ef2_malloc` : the first free block of at least `wanted` bytes from
`block` on, or `0`. -/
def findBlock (m : Mem) (wanted : ℕ) : (fuel block : ℕ) → Option ℕ
  | 0, _ => none
  | fuel + 1, block =>
    if block = 0 then some 0
    else if blockMagic m block ≠ magicFree ∨ blockSize m block < wanted then
      findBlock m wanted fuel (blockNext m block)
    else some block

/-- `ef2_malloc`. -/
def malloc (s : State) (size : ℕ) : Option (ℕ × State) :=
  if s.ready = false ∨ size = 0 then some (0, s)
  else if size > 0xFFFFFFFF - (heapAlignment - 1) then some (0, s)
  else
    (findBlock s.mem (alignUp size) maxBlocks s.first).map fun block =>
      if block = 0 then (0, s)
      else
        (blockPayload block, { s with
          mem := setMagic (splitBlock s.mem block (alignUp size)) block magicAlloc
          active := u32 (s.active + 1) })

/-- `ef2_free`. -/
def free (s : State) (ptr : ℕ) : State :=
  if s.ready = false ∨ ptr = 0 then s
  else if ptr % heapAlignment ≠ 0 then s
  else
    let block := payloadBlock ptr
    if blockMagic s.mem block ≠ magicAlloc then s
    else
      let m := setMagic s.mem block magicFree
      let active := if s.active ≠ 0 then s.active - 1 else s.active
      let m := mergeWithNext m block
      let m :=
        if blockPrevious m block ≠ 0 ∧ blockMagic m (blockPrevious m block) = magicFree then
          mergeWithNext m (blockPrevious m block)
        else m
      { s with mem := m, active := active }

/-- `ef2_calloc`. -/
def calloc (s : State) (count size : ℕ) : Option (ℕ × State) :=
  if count = 0 ∨ size = 0 then some (0, s)
  else
    match checkedMultiply count size with
    | none => some (0, s)
    | some total =>
      (malloc s total).map fun (ptr, s) =>
        if ptr = 0 then (0, s) else (ptr, { s with mem := fillBytes s.mem ptr 0 total })

/-- `ef2_realloc`. -/
def realloc (s : State) (ptr size : ℕ) : Option (ℕ × State) :=
  if ptr = 0 then malloc s size
  else if size = 0 then some (0, free s ptr)
  else if s.ready = false ∨ ptr % heapAlignment ≠ 0 then some (0, s)
  else
    let block := payloadBlock ptr
    if blockMagic s.mem block ≠ magicAlloc then some (0, s)
    else
      let wanted := alignUp size
      let oldSize := blockSize s.mem block
      if wanted ≤ oldSize then some (ptr, { s with mem := splitBlock s.mem block wanted })
      else
        let next := blockNext s.mem block
        if next ≠ 0 ∧ blockMagic s.mem next = magicFree ∧
            u32 (oldSize + headerSize + blockSize s.mem next) ≥ wanted then
          let m := mergeWithNext s.mem block
          let m := splitBlock m block wanted
          some (ptr, { s with mem := setMagic m block magicAlloc })
        else
          (malloc s size).map fun (replacement, s) =>
            if replacement = 0 then (0, s)
            else
              let copySize := if oldSize < size then oldSize else size
              (replacement, free { s with mem := copyBytes s.mem replacement ptr copySize } ptr)

/-- `ef2_heap_usable_size`. -/
def heapUsableSize (s : State) (ptr : ℕ) : ℕ :=
  if s.ready = false ∨ ptr = 0 then 0
  else if blockMagic s.mem (payloadBlock ptr) ≠ magicAlloc then 0
  else blockSize s.mem (payloadBlock ptr)

/-- `ef2_heap_stats`. -/
structure HeapStats where
  totalBytes : ℕ
  freeBytes : ℕ
  largestFreeBlock : ℕ
  activeAllocations : ℕ
  deriving DecidableEq

/-- The walk of `ef2_heap_get_stats` : free bytes and largest free block from `block` on. -/
def statsLoop (m : Mem) : (fuel block freeBytes largest : ℕ) → Option (ℕ × ℕ)
  | 0, _, _, _ => none
  | fuel + 1, block, freeBytes, largest =>
    if block = 0 then some (freeBytes, largest)
    else if blockMagic m block ≠ magicFree then
      statsLoop m fuel (blockNext m block) freeBytes largest
    else
      statsLoop m fuel (blockNext m block) (u32 (freeBytes + blockSize m block))
        (if blockSize m block > largest then blockSize m block else largest)

/-- `ef2_heap_get_stats`, with a non-null result pointer. -/
def heapGetStats (s : State) : Option (ℤ × Option HeapStats) :=
  if s.ready = false then some (-1, none)
  else
    (statsLoop s.mem maxBlocks s.first 0 0).map fun (freeBytes, largest) =>
      (0, some ⟨s.total, freeBytes, largest, s.active⟩)

end EF2SDK.Heap
