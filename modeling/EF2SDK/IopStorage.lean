import Mathlib.Data.Int.Notation
import Mathlib.Data.List.Basic
import EF2SDK.StateSteps

/-!
# The storage module's SIO2 exchanges

`ef2_storage_sio2_exchange` of `src/iop/storage/src/sio2_storage.c`, on which the backends of
`src/iop/storage/src/storage_backends.c` are built : bytes are sent to a memory card port and
as many bytes as asked for are read back, or the exchange does not complete.

What hangs on the ports is an arbitrary `Device` : it knows every exchange made so far and
answers the next request, or lets it time out. A `Backend` is the globals of the backends
with the exchanges, in order. A function that stores bytes through a pointer returns the
stored bytes with its result.
-/

set_option autoImplicit false

namespace EF2SDK.IopStorage

/-- `MX_CARD_MMC` to `MX_CARD_SDHC`. -/
inductive CardType where
  | mmc
  | sdv1
  | sdv2
  | sdhc
  deriving DecidableEq

/-- The arguments of `ef2_storage_sio2_exchange`. -/
structure Request where
  port : ℕ
  ctrl1 : UInt32
  ctrl2 : UInt32
  baudSelect : UInt32
  tx : List UInt8
  rxSize : ℕ
  timeoutPolls : UInt32

/-- A request with the bytes read back, `none` when it did not complete. -/
structure Exchange where
  request : Request
  answer : Option (List UInt8)

/-- What answers on the ports : after the exchanges made so far, the bytes that the input FIFO
holds for a request, `none` when it does not complete. -/
abbrev Device := List Exchange → Request → Option (ℕ → UInt8)

/-- The backends' globals, with the exchanges made. -/
structure Backend where
  mxBaud : UInt32
  mxCardType : CardType
  mxSectorCount : UInt32
  mxInitialized : Bool
  log : List Exchange

/-- `MX_BAUD_SLOW`. -/
abbrev mxBaudSlow : UInt32 := 0x78

/-- The globals as the module is loaded. -/
def boot : Backend where
  mxBaud := mxBaudSlow
  mxCardType := .mmc
  mxSectorCount := 0
  mxInitialized := false
  log := []

/-- The bytes that `device` gives to a request, `none` when it does not complete. -/
def Device.answer (device : Device) (log : List Exchange) (q : Request) : Option (List UInt8) :=
  (device log q).map fun rx => (List.range q.rxSize).map rx

/-- `ef2_storage_sio2_exchange`, once `ef2_storage_sio2_init` has made its semaphore. -/
def sio2Exchange (device : Device) (q : Request) : StateM Backend (ℤ × List UInt8) :=
  if 4 ≤ q.port ∨ 256 < q.tx.length ∨ 256 < q.rxSize then
    pure (-1, [])
  else fun b =>
    let answer := device.answer b.log q
    let b := { b with log := b.log ++ [⟨q, answer⟩] }
    match answer with
    | none => ((-2, []), b)
    | some rx => ((0, rx), b)

/-! ## One exchange -/

/-- The exchange's result and the bytes it stores. -/
def received : Option (List UInt8) → ℤ × List UInt8
  | none => (-2, [])
  | some rx => (0, rx)

/-- The backend with the request made. -/
def Backend.exchange (device : Device) (b : Backend) (q : Request) : Backend :=
  { b with log := b.log ++ [⟨q, device.answer b.log q⟩] }

theorem sio2Exchange_run (device : Device) {q : Request}
    (h : ¬(4 ≤ q.port ∨ 256 < q.tx.length ∨ 256 < q.rxSize)) (b : Backend) :
    sio2Exchange device q b = (received (device.answer b.log q), b.exchange device q) := by
  simp only [sio2Exchange, if_neg h]
  cases h : device.answer b.log q <;> simp only [received, Backend.exchange, h]

end EF2SDK.IopStorage
