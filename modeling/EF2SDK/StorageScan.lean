import EF2SDK.Mmce
import EF2SDK.Mx4sio

/-!
# The storage scan

`ef2_storage_backend_scan` of `src/iop/storage/src/storage_backends.c`. Each of the two memory
card ports is probed for an MMCE, then for a native card, and the second one for an MX4SIO
card. The probes share one device record, which is published when one of them succeeds, and
report their results in the scan's diagnostics.
-/

set_option autoImplicit false

namespace EF2SDK.IopStorage

/-- `ef2_storage_scan_diag`, the arrays as functions of the logical port. -/
structure ScanDiag where
  mmceResult : ℕ → ℤ
  mcTerminatorResult : ℕ → ℤ
  mcGeometryResult : ℕ → ℤ
  mcFormatResult : ℕ → ℤ
  mx4sioResult : ℤ

/-- What `clear_bytes` leaves. -/
def ScanDiag.zero : ScanDiag where
  mmceResult _ := 0
  mcTerminatorResult _ := 0
  mcGeometryResult _ := 0
  mcFormatResult _ := 0
  mx4sioResult := 0

/-- The diagnostics as a scan starts. -/
def ScanDiag.notAttempted : ScanDiag where
  mmceResult _ := -127
  mcTerminatorResult _ := -127
  mcGeometryResult _ := -127
  mcFormatResult _ := -127
  mx4sioResult := -127

namespace ScanDiag

variable (diag : ScanDiag) (port : ℕ) (result : ℤ)

def setMmce : ScanDiag :=
  { diag with mmceResult := fun i => if i = port then result else diag.mmceResult i }

def setMcTerminator : ScanDiag :=
  { diag with
    mcTerminatorResult := fun i => if i = port then result else diag.mcTerminatorResult i }

def setMcGeometry : ScanDiag :=
  { diag with mcGeometryResult := fun i => if i = port then result else diag.mcGeometryResult i }

def setMcFormat : ScanDiag :=
  { diag with mcFormatResult := fun i => if i = port then result else diag.mcFormatResult i }

end ScanDiag

/-- The number of a card type, as in `MX_CARD_MMC` to `MX_CARD_SDHC`. -/
def CardType.toUInt32 : CardType → UInt32
  | .mmc => 0
  | .sdv1 => 1
  | .sdv2 => 2
  | .sdhc => 4

/-- What probing a port leaves : the device found, and the diagnostics. -/
abbrev Probed := Option DeviceInfo × ScanDiag

variable (device : Device)

/-- `value < 0 ? 0u : (ef2_u32)value`. -/
def valueOrZero (value : ℤ) : UInt32 :=
  if value < 0 then 0 else UInt32.ofNat value.toNat

/-- The format probe of a card whose geometry is known. -/
def scanFormat (port : ℕ) (info : DeviceInfo) (diag : ScanDiag) :
    StateM Backend (DeviceInfo × ScanDiag) := do
  let format ← mcCheckFormat device info
  pure ({ info with formatted := format.2 }, diag.setMcFormat port format.1)

/-- The native card's part of an MMCE : its geometry, and its format. -/
def scanMmceCard (port : UInt32) (info : DeviceInfo) (diag : ScanDiag) :
    StateM Backend (DeviceInfo × ScanDiag) := do
  let logicalPort := (port - 2).toNat
  let spec ← mcGetSpec device port info
  let diag := (diag.setMcTerminator logicalPort spec.terminator).setMcGeometry logicalPort
    spec.result
  if spec.result = 0 then
    scanFormat device logicalPort
      { spec.info with
        capabilities := spec.info.capabilities ||| (capGeometry ||| capPageRead) } diag
  else
    pure (spec.info, diag)

/-- The three queries that complete the record of an MMCE. -/
def scanMmceState (port : UInt32) (info : DeviceInfo) : StateM Backend DeviceInfo := do
  let card ← mmceGetU16 device port 0x03
  let channel ← mmceGetU16 device port 0x05
  let status ← mmceGetU16 device port 0x02
  pure
    { info with
      currentCard := valueOrZero card
      currentChannel := valueOrZero channel
      status := valueOrZero status }

/-- The branch for a port that answers the ping. -/
def scanMmce (port : UInt32) (info : DeviceInfo) (diag : ScanDiag) : StateM Backend Probed := do
  let card ← scanMmceCard device port
    { info with
      kind := .mmce
      capabilities := capMemoryCard ||| capFilesystem ||| capVirtualCards ||| capGameId } diag
  let info ← scanMmceState device port card.1
  pure (some info, card.2)

/-- The MX4SIO probe of the second port. -/
def scanMx4sio (diag : ScanDiag) : StateM Backend Probed := do
  let result ← mxInitialize device
  let diag := { diag with mx4sioResult := result }
  if result = 0 then do
    let b ← get
    pure (some
      { kind := .mx4sio
        capabilities := capBlockRead ||| capBlockWrite
        physicalPort := UInt32.ofNat mxPort
        formatted := .unknown
        sectorSize := 512
        sectorCount := b.mxSectorCount
        productId := b.mxCardType.toUInt32 }, diag)
  else
    pure (none, diag)

/-- The branch for a port that does not answer the ping. -/
def scanCard (port : UInt32) (info : DeviceInfo) (diag : ScanDiag) : StateM Backend Probed := do
  let logicalPort := (port - 2).toNat
  let spec ← mcGetSpec device port info
  let diag := (diag.setMcTerminator logicalPort spec.terminator).setMcGeometry logicalPort
    spec.result
  if spec.result = 0 then do
    let card ← scanFormat device logicalPort
      { spec.info with
        kind := .ps2MemoryCard
        capabilities := capMemoryCard ||| capGeometry ||| capPageRead } diag
    pure (some card.1, card.2)
  else if port = UInt32.ofNat mxPort then
    scanMx4sio device diag
  else
    pure (none, diag)

/-- The body of the loop of `ef2_storage_backend_scan`. -/
def scanPort (port : UInt32) (diag : ScanDiag) : StateM Backend Probed := do
  let ping ← mmcePing device port { physicalPort := port, formatted := .unknown }
  let diag := diag.setMmce (port - 2).toNat ping.1
  if ping.1 = 0 then
    scanMmce device port ping.2 diag
  else
    scanCard device port ping.2 diag

/-- The loop of `ef2_storage_backend_scan` over the ports left, with the devices found. -/
def scanPorts (capacity : ℕ) :
    List UInt32 → List DeviceInfo → ScanDiag → StateM Backend (List DeviceInfo × ScanDiag)
  | [], found, diag => pure (found, diag)
  | port :: ports, found, diag =>
    if found.length < capacity then do
      let probed ← scanPort device port diag
      scanPorts capacity ports (found ++ probed.1.toList) probed.2
    else
      pure (found, diag)

/-- `ef2_storage_backend_scan` : the devices found and the diagnostics, `none` when it returns
-1 and stores neither. -/
def backendScan (capacity : ℕ) : StateM Backend (Option (List DeviceInfo × ScanDiag)) :=
  if capacity = 0 then
    pure none
  else do
    let scanned ← scanPorts device capacity [2, 3] [] .notAttempted
    pure (some scanned)

end EF2SDK.IopStorage
