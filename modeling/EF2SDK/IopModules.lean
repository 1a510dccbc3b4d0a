import EF2SDK.ByteMemory
import EF2SDK.StateSteps
import EF2SDK.Words
import Mathlib.Data.Int.Notation

/-!
# The IOP module services

The IOP heap, ROM version and module functions of `src/ee/sif/sif.c`, over the outcomes of
what they call : RPC calls and binds, and the DMA transfers of `ef2_kernel_sif_set_dma`, in
the order they are made. An RPC call leaves the words of its reply and a memory of the IOP,
a transfer that is accepted completes, and the IOP's memory is otherwise the EE's to read
and write.

`ef2_iop_enable_module_buffer` reads the IOP's memory first (`findDispatcher`) : it looks up
the exports of modload and the code of LOADFILE, and decides whether that code needs the
patch. `installPatch` is the rest of it.

A buffer is a function of the byte's index. `blocks` is for the statements : the blocks that
`ef2_iop_alloc` has returned and that have not been passed to `ef2_iop_free`.
-/

set_option autoImplicit false

namespace EF2SDK.IopModules

open ByteMemory

/-! ## The machine -/

/-- What a call outside answers : its result, and the words of the reply with the IOP's memory
after an RPC call. -/
structure Outcome where
  result : ℤ
  reply : ℕ → UInt32
  memory : Mem

/-- The globals that the functions share, with the IOP's memory. -/
structure Machine where
  heapBound : Bool
  loadfileBound : Bool
  iop : Mem
  outcomes : ℕ → Outcome
  calls : ℕ
  blocks : List ℕ

/-- The next outcome. -/
def outcome : StateM Machine Outcome := fun m =>
  (m.outcomes m.calls, { m with calls := m.calls + 1 })

/-- `ef2_sif_call`, `ef2_sif_bind` and `ef2_sif_init`. -/
def rpc : StateM Machine Outcome := fun m =>
  (m.outcomes m.calls,
    { m with calls := m.calls + 1, iop := (m.outcomes m.calls).memory })

/-- A word as the signed number it stands for. -/
def signed (word : UInt32) : ℤ :=
  word.toInt32.toInt

/-! ## The IOP heap -/

/-- `ef2_bind_heap`. -/
def bindHeap : StateM Machine ℤ := do
  if (← get).heapBound then return 0
  else
    let o ← rpc
    if o.result < 0 then return -1
    else
      modify fun m => { m with heapBound := true }
      return 0

/-- `ef2_bind_loadfile`. -/
def bindLoadfile : StateM Machine ℤ := do
  if (← get).loadfileBound then return 0
  else
    let o ← rpc
    if o.result < 0 then return -1
    else
      modify fun m => { m with loadfileBound := true }
      return 0

/-- `ef2_iop_alloc` hands a block out. -/
def lend (block : ℕ) : StateM Machine Unit :=
  modify fun m => { m with blocks := if block = 0 then m.blocks else block :: m.blocks }

/-- `ef2_iop_alloc`. -/
def iopAlloc : StateM Machine ℕ := do
  if (← bindHeap) < 0 then return 0
  else
    let o ← rpc
    if o.result < 0 then return 0
    else
      lend (o.reply 0).toNat
      return (o.reply 0).toNat

/-- `ef2_iop_free`. -/
def iopFree (block : ℕ) : StateM Machine ℤ := do
  modify fun m => { m with blocks := m.blocks.erase block }
  if (← bindHeap) < 0 then return -1
  else
    let o ← rpc
    if o.result < 0 then return -2 else return signed (o.reply 0)

/-! ## The IOP's memory -/

/-- The memory with `size` bytes of `source` at `dest`. -/
def transfer (iop source : Mem) (dest size : ℕ) : Mem := fun x =>
  if dest ≤ x ∧ x < dest + size then source (x - dest) else iop x

/-- `ef2_sif_dma_to_iop`. -/
def dmaToIop (source : Mem) (dest size : ℕ) : StateM Machine ℤ := do
  let o ← outcome
  if o.result ≤ 0 then return -1
  else
    modify fun m => { m with iop := transfer m.iop source dest size }
    return 0

/-- `ef2_iop_read` : the bytes it reads, `none` where it fails. -/
def iopRead (iop : Mem) (address size : ℕ) : Option Mem :=
  if size = 0 then none else some fun i => iop (address + i)

/-- `ef2_bytes_match`. -/
def bytesMatch (left : Mem) (right : List UInt8) : Bool :=
  (List.range right.length).all fun i => left i = right.getD i 0

/-- `ef2_iop_write_word_dma`. -/
def writeWordDma (address value : ℕ) : StateM Machine ℤ := do
  let aligned := address / 64 * 64
  let offset := address % 64
  if offset > 60 then return -1
  else
    match iopRead (← get).iop aligned 64 with
    | none => return -2
    | some block => dmaToIop (writeU32 block offset value) aligned 64

/-! ## Modules and exports -/

/-- `ef2_iop_module_info`. -/
structure ModuleInfo where
  next : ℕ
  name : ℕ
  textStart : ℕ
  textSize : ℕ

/-- `sizeof(ef2_iop_module_info)`. -/
abbrev moduleInfoSize : ℕ := 48

/-- The fields of `ef2_iop_module_info` in its bytes. -/
def moduleInfo (bytes : Mem) : ModuleInfo :=
  ⟨readU32 bytes 0, readU32 bytes 4, readU32 bytes 24, readU32 bytes 28⟩

/-- The characters of a string. -/
def chars (text : String) : List UInt8 :=
  text.toList.map Char.toUInt8

/-- The loop of `ef2_iop_find_module`, with the passes left. -/
def findModule (iop : Mem) (name : List UInt8) : (passes address : ℕ) → Except ℤ ModuleInfo
  | 0, _ => .error (-3)
  | passes + 1, address =>
    match iopRead iop address moduleInfoSize with
    | none => .error (-1)
    | some bytes =>
      let info := moduleInfo bytes
      let rest := if info.next = 0 then .error (-3) else findModule iop name passes info.next
      if info.name ≠ 0 then
        match iopRead iop info.name 64 with
        | none => .error (-2)
        | some moduleName =>
          if name.length < 64 ∧ bytesMatch moduleName name ∧ moduleName name.length = 0 then
            .ok info
          else rest
      else rest

/-- `(hi << 16) + (ef2_s32)(ef2_s16)lo` for the low halves of two instructions. -/
def immediate (hi lo : ℕ) : ℕ :=
  let lo := lo &&& 0xFFFF
  u32 (((hi &&& 0xFFFF) <<< 16) + if lo < 0x8000 then lo else lo + 0xFFFF0000)

/-- `get_internal` as the scan of loadcore's last 512 bytes finds it, `0` where it does not. -/
def scanExports (scan : Mem) : ℕ :=
  match (List.range 107).find? fun k => readU32 scan (4 * k) = 0x830 ∧
      bytesMatch (fun i => scan (4 * k + 12 + i)) (chars "loadcore") with
  | none => 0
  | some k => readU32 scan (4 * k + 20 + 12)

/-- The entries of modload that the patch calls. -/
structure Exports where
  startModule : ℕ
  loadModuleBuffer : ℕ
deriving DecidableEq

/-- The loop of `ef2_iop_find_modload_exports` over the export list, with the passes left. -/
def findModload (iop : Mem) : (passes current : ℕ) → Except ℤ Exports
  | 0, _ => .error (-12)
  | passes + 1, current =>
    if current = 0 then .error (-12)
    else
      match iopRead iop current 100 with
      | none => .error (-10)
      | some library =>
        if bytesMatch (fun i => library (12 + i)) (chars "modload") then
          if readU32 library (20 + 32) = 0 ∨ readU32 library (20 + 40) = 0 then .error (-11)
          else .ok ⟨readU32 library (20 + 32), readU32 library (20 + 40)⟩
        else findModload iop passes (readU32 library 0)

/-- The result of a read, or the error that a failed one is answered with. -/
def orError (code : ℤ) : Option Mem → Except ℤ Mem
  | none => .error code
  | some bytes => .ok bytes

/-- `ef2_iop_find_modload_exports`. -/
def findModloadExports (iop : Mem) : Except ℤ Exports := do
  let listHead ← orError (-1) (iopRead iop 0x800 moduleInfoSize)
  if (moduleInfo listHead).next = 0 then .error (-2)
  else
    let loadcore ← orError (-3) (iopRead iop (moduleInfo listHead).next moduleInfoSize)
    let loadcoreEnd := u32 ((moduleInfo loadcore).textStart + (moduleInfo loadcore).textSize)
    if loadcoreEnd < 512 then .error (-4)
    else
      let scan ← orError (-5) (iopRead iop (loadcoreEnd - 512) 512)
      if scanExports scan = 0 then .error (-6)
      else
        let code ← orError (-7) (iopRead iop (scanExports scan) 8)
        if (readU32 code 0 &&& 0xFFFF0000) ≠ 0x3C020000 ∨
            (readU32 code 4 &&& 0xFFFF0000) ≠ 0x24420000 then
          .error (-8)
        else
          let exportList ← orError (-9)
            (iopRead iop (immediate (readU32 code 0) (readU32 code 4)) 8)
          findModload iop 128 (readU32 exportList 0)

/-! ## The loader patch -/

/-- The dispatcher of LOADFILE that takes the patch : the entries the patch calls, the address
of the code and of the entry for function 6. -/
structure Dispatcher where
  exports : Exports
  dispatchAddress : ℕ
  jumpTableEnd : ℕ
deriving DecidableEq

/-- `ef2_iop_enable_module_buffer` up to its call of `ef2_iop_alloc` : the result it returns
early, `0` for code that accepts function 6, or the dispatcher to patch. -/
def findDispatcher (iop : Mem) : Except ℤ Dispatcher :=
  match findModloadExports iop with
  | .error result => .error (-100 + result)
  | .ok exports =>
    match findModule iop (chars "LoadModuleByEE") 128 0x800 with
    | .error result => .error (-200 + result)
    | .ok loadfile =>
      if loadfile.textSize < 0x544 then .error (-301)
      else
        let dispatchAddress := u32 (loadfile.textStart + 0x4C4)
        match iopRead iop dispatchAddress 128 with
        | none => .error (-302)
        | some bytes =>
          let dispatch (i : ℕ) := readU32 bytes (4 * i)
          if dispatch 1 = 0x2C820007 then .error 0
          else if dispatch 0 ≠ 0x27BDFFE8 ∨ dispatch 1 ≠ 0x2C820006 ∨ dispatch 2 ≠ 0x14400003 ∨
              dispatch 3 ≠ 0xAFBF0010 ∨ dispatch 5 ≠ 0x00001021 ∨ dispatch 6 ≠ 0x00041080 then
            .error (-303)
          else
            .ok ⟨exports, dispatchAddress, u32 (immediate (dispatch 7) (dispatch 9) + 0x18)⟩

/-- `patch_template`. -/
def patchTemplate : List ℕ :=
  [0x27BDFFD8, 0xAFB00018, 0xAFBF0020, 0x00808021, 0x8C840000, 0x0C000000, 0xAFB1001C,
    0x3C110000, 0x04400008, 0x36310000, 0x00402021, 0x26250008, 0x8E060004, 0x26070104,
    0x26280004, 0x0C000000, 0xAFA80010, 0xAE220000, 0x02201021, 0x8FBF0020, 0x8FB1001C,
    0x8FB00018, 0x03E00008, 0x27BD0028, 0x00000000, 0x00000000, 0x7962424C, 0x00004545,
    0x00000000, 0x00000000, 0x00000000, 0x00000000]

/-- `sizeof(patch)`. -/
abbrev patchSize : ℕ := 128

/-- `patch` for the block at `address`. -/
def patch (e : Exports) (address : ℕ) : List ℕ :=
  let resultAddress := u32 (address + 96)
  patchTemplate
    |>.set 5 (0x0C000000 ||| ((e.loadModuleBuffer >>> 2) &&& 0x03FFFFFF))
    |>.set 7 (0x3C110000 ||| ((resultAddress >>> 16) &&& 0xFFFF))
    |>.set 9 (0x36310000 ||| (resultAddress &&& 0xFFFF))
    |>.set 15 (0x0C000000 ||| ((e.startModule >>> 2) &&& 0x03FFFFFF))

/-- The bytes of words in memory. -/
def wordBytes (words : List ℕ) : Mem := fun i =>
  .ofNat (words.getD (i / 4) 0 >>> (8 * (i % 4)))

/-- The instruction that checks the function number. -/
def Dispatcher.checkAddress (d : Dispatcher) : ℕ :=
  u32 (d.dispatchAddress + 4)

/-- `ef2_iop_enable_module_buffer` once it has the block at `address`. -/
def writePatch (d : Dispatcher) (address : ℕ) : StateM Machine ℤ := do
  if (← dmaToIop (wordBytes (patch d.exports address)) address patchSize) < 0 then return -305
  else if (← writeWordDma d.jumpTableEnd address) < 0 then return -306
  else if (← writeWordDma d.checkAddress 0x2C820007) < 0 then return -307
  else return 0

/-- `ef2_iop_enable_module_buffer` from its call of `ef2_iop_alloc` on. -/
def installPatch (d : Dispatcher) : StateM Machine ℤ := do
  let address ← iopAlloc
  if address = 0 then return -304 else writePatch d address

/-- `ef2_iop_enable_module_buffer`. -/
def enableModuleBuffer : StateM Machine ℤ := do
  match findDispatcher (← get).iop with
  | .error result => return result
  | .ok d => installPatch d

/-! ## The ROM version and modules from a buffer -/

/-- `ef2_iop_get_romver` : its result, and the string it writes. -/
def getRomver (romver : Bool) (capacity : ℕ) : StateM Machine (ℤ × Option (List UInt8)) := do
  if ¬romver ∨ capacity < 15 then return (-1, none)
  else
    let o ← rpc
    if o.result < 0 then return (-2, none)
    else
      let address ← iopAlloc
      if address = 0 then return (-3, none)
      else
        let o ← rpc
        if o.result < 0 then
          let _ ← iopFree address
          return (-4, none)
        else if signed (o.reply 0) < 0 then
          let _ ← iopFree address
          return (-5 + signed (o.reply 0), none)
        else
          let bytes := iopRead (← get).iop address 14
          let _ ← iopFree address
          match bytes with
          | none => return (-6, none)
          | some bytes => return (0, some ((List.range 14).map bytes ++ [0]))

/-- `ef2_iop_exec_module_buffer_ex` : its result, and what it leaves in `*module_result`. -/
def execModuleBufferEx (module : Option Mem) (size : ℕ) : StateM Machine (ℤ × ℤ) := do
  match module with
  | none => return (-1, -1)
  | some module =>
    if size = 0 then return (-1, -1)
    else if (← bindLoadfile) < 0 then return (-2, -1)
    else if (← bindHeap) < 0 then return (-2, -1)
    else
      let address ← iopAlloc
      if address = 0 then return (-3, -1)
      else if (← dmaToIop module address size) < 0 then
        let _ ← iopFree address
        return (-4, -1)
      else
        let o ← rpc
        -- a LOADFILE without function 6 leaves the request's pointer in the reply
        let result := if o.result ≥ 0 ∧ (o.reply 0).toNat = address then -6 else o.result
        let _ ← iopFree address
        if result < 0 then return (if result = -6 then -6 else -5, -1)
        else return (signed (o.reply 0), signed (o.reply 1))

end EF2SDK.IopModules
