import EF2SDK.IopStorage

/-!
# The MX4SIO card driver

The SD and MMC part of `src/iop/storage/src/storage_backends.c`. The card hangs on the
second memory card port and is spoken to in SPI mode, with the bits of every byte reversed.
`mx_initialize` identifies the card, which decides how sectors are addressed, and reads its
size; `mx_read_sector` and `mx_write_sector` then transfer one sector each.
-/

set_option autoImplicit false

namespace EF2SDK.IopStorage

/-! ## Constants -/

/-- `MX_PORT`. -/
abbrev mxPort : ℕ := 3

/-- `MX_BAUD_FAST`. -/
abbrev mxBaudFast : UInt32 := 0x02

/-- `MX_CTRL1`. -/
def mxCtrl1 (baud : UInt32) : UInt32 :=
  (0x00000505 : UInt32) ||| ((0x78 : UInt32) <<< 16) ||| (baud <<< 24)

/-- `MX_CTRL2`. -/
abbrev mxCtrl2 : UInt32 := 0x0000012C

/-- The command byte of the SD command `n`, as in `SD_CMD0` to `SD_ACMD41`. -/
def sdCmd (n : UInt8) : UInt8 :=
  n ||| 0x40

variable (device : Device)

/-! ## Bytes on the wire -/

def reverseBits (value : UInt8) : UInt8 :=
  let value := ((value &&& 0x55) <<< 1) ||| ((value >>> 1) &&& 0x55)
  let value := ((value &&& 0x33) <<< 2) ||| ((value >>> 2) &&& 0x33)
  (value <<< 4) ||| (value >>> 4)

/-- What `mx_exchange` passes to `ef2_storage_sio2_exchange`. -/
def mxRequest (baud : UInt32) (tx : List UInt8) (rxSize : ℕ) : Request where
  port := mxPort
  ctrl1 := mxCtrl1 baud
  ctrl2 := mxCtrl2
  baudSelect := 1
  tx := tx.map reverseBits
  rxSize := rxSize
  timeoutPolls := 100000

def mxExchange (tx : List UInt8) (rxSize : ℕ) : StateM Backend (ℤ × List UInt8) :=
  if 256 < tx.length ∨ 256 < rxSize then
    pure (-1, [])
  else do
    let b ← get
    let exchanged ← sio2Exchange device (mxRequest b.mxBaud tx rxSize)
    if exchanged.1 < 0 then
      pure (exchanged.1, [])
    else
      pure (0, exchanged.2.map reverseBits)

/-- An exchange whose sizes are in range is made. -/
theorem mxExchange_run {device : Device} (tx : List UInt8) (rxSize : ℕ)
    (h : ¬(256 < tx.length ∨ 256 < rxSize)) (b : Backend) :
    (mxExchange device tx rxSize b).2 = b.exchange device (mxRequest b.mxBaud tx rxSize) := by
  have hrun : (mxExchange device tx rxSize b).2
      = (sio2Exchange device (mxRequest b.mxBaud tx rxSize) b).2 := by
    rw [mxExchange, if_neg h]
    simp only [bind_apply]
    split <;> rfl
  rw [hrun, sio2Exchange_run device (by simpa [mxRequest, mxPort] using h)]

/-- One round of the inner loop of `mx_crc7`, on the register and the byte being shifted. -/
def mxCrc7Bit (s : UInt8 × UInt8) : UInt8 × UInt8 :=
  let mix := (s.1 &&& 0x40 != 0) ^^ (s.2 &&& 0x80 != 0)
  let crc := (s.1 <<< 1) &&& 0x7F
  (if mix then crc ^^^ 0x09 else crc, s.2 <<< 1)

def mxCrc7 (data : List UInt8) : UInt8 :=
  data.foldl (fun crc v => (Nat.repeat mxCrc7Bit 8 (crc, v)).1) 0

def mxDummy : StateM Backend ℤ := do
  let exchanged ← mxExchange device [0xFF] 1
  if exchanged.1 < 0 then
    pure (-1)
  else
    pure (exchanged.2.getD 0 0xFF).toNat

/-- The result and the byte stored. -/
def mxReceiveByte : StateM Backend (ℤ × UInt8) := do
  let exchanged ← mxExchange device [] 1
  if exchanged.1 < 0 then
    pure (-1, 0xFF)
  else
    pure (0, exchanged.2.getD 0 0xFF)

def mxWaitNotEqual (value : UInt8) : ℕ → StateM Backend ℤ
  | 0 => pure (-2)
  | attempts + 1 => do
    let received ← mxReceiveByte device
    if received.1 < 0 then
      pure (-1)
    else if received.2 ≠ value then
      pure received.2.toNat
    else
      mxWaitNotEqual value attempts

def mxWaitEqual (value : UInt8) : ℕ → StateM Backend ℤ
  | 0 => pure (-2)
  | attempts + 1 => do
    let received ← mxReceiveByte device
    if received.1 < 0 then
      pure (-1)
    else if received.2 = value then
      pure 0
    else
      mxWaitEqual value attempts

/-! ## Commands -/

/-- The packet of `mx_send_command`, without its CRC. -/
def mxPacketBody (command : UInt8) (argument : UInt32) : List UInt8 :=
  [command, (argument >>> 24).toUInt8, (argument >>> 16).toUInt8, (argument >>> 8).toUInt8,
    argument.toUInt8]

/-- The packet of `mx_send_command`. -/
def mxPacket (command : UInt8) (argument : UInt32) : List UInt8 :=
  let body := mxPacketBody command argument
  body ++ [(mxCrc7 body <<< 1) ||| 1]

def mxSendCommand (command : UInt8) (argument : UInt32) : StateM Backend ℤ := do
  let _ ← (if command ≠ sdCmd 0 then mxDummy device else pure 0)
  let exchanged ← mxExchange device (mxPacket command argument) 0
  if exchanged.1 < 0 then
    pure (-1)
  else
    mxWaitNotEqual device 0xFF 256

def mxSendCommandData (command : UInt8) (argument : UInt32) (size : ℕ) :
    StateM Backend (ℤ × List UInt8) := do
  let response ← mxSendCommand device command argument
  if response < 0 then
    pure (response, [])
  else do
    let exchanged ← mxExchange device [] size
    if exchanged.1 < 0 then
      pure (-3, [])
    else do
      let _ ← mxDummy device
      pure (response, exchanged.2)

def mxReadRegister (command : UInt8) : StateM Backend (ℤ × List UInt8) := do
  let response ← mxSendCommand device command 0
  if response ≠ 0 then
    pure (-1, [])
  else do
    let waited ← mxWaitEqual device 0xFE 4096
    if waited < 0 then
      pure (-2, [])
    else do
      let exchanged ← mxExchange device [] 18
      if exchanged.1 < 0 then
        pure (-3, [])
      else do
        let _ ← mxDummy device
        pure (0, exchanged.2)

/-! ## Identification -/

/-- The number of 512-byte sectors that a CSD register declares, `0` when it is not
understood or does not fit. -/
def mxCsdSectorCount (csd : List UInt8) : UInt32 :=
  let byte := fun i => (csd.getD i 0).toUInt32
  let structure_ := (byte 0 >>> 6) &&& 3
  if structure_ = 1 then
    let cSize := ((byte 7 &&& 0x3F) <<< 16) ||| (byte 8 <<< 8) ||| byte 9
    (cSize + 1) * 1024
  else if structure_ = 0 then
    let readBlockShift := byte 5 &&& 0x0F
    let cSize := ((byte 6 &&& 0x03) <<< 10) ||| (byte 7 <<< 2) ||| ((byte 8 >>> 6) &&& 0x03)
    let cSizeMult := ((byte 9 &&& 0x03) <<< 1) ||| ((byte 10 >>> 7) &&& 1)
    let units := cSize + 1
    let sectorShift : ℤ := cSizeMult.toNat + 2 + readBlockShift.toNat - 9
    if 0 ≤ sectorShift then
      if 32 ≤ sectorShift ∨ 0xFFFFFFFF >>> UInt32.ofNat sectorShift.toNat < units then
        0
      else
        units <<< UInt32.ofNat sectorShift.toNat
    else if sectorShift ≤ -32 then
      0
    else
      units >>> UInt32.ofNat (-sectorShift).toNat
  else
    0

/-- The loop of `mx_initialize` that powers a version 2 card up : the last response, `none`
where the function returns -3. -/
def mxPowerUpV2 : ℕ → ℤ → StateM Backend (Option ℤ)
  | 0, response => pure (some response)
  | rounds + 1, _ => do
    let response ← mxSendCommand device (sdCmd 55) 0
    if response ≠ 0x01 then
      pure none
    else do
      let response ← mxSendCommand device (sdCmd 41) 0x40000000
      if response = 0 then
        pure (some response)
      else
        mxPowerUpV2 rounds response

/-- The loop of `mx_initialize` that powers a version 1 card up, with the last response. -/
def mxPowerUpV1 : ℕ → ℤ → StateM Backend ℤ
  | 0, response => pure response
  | rounds + 1, _ => do
    let response ← mxSendCommand device (sdCmd 55) 0
    if response = 0x01 then do
      let response ← mxSendCommand device (sdCmd 41) 0
      if response = 0 then
        pure response
      else
        mxPowerUpV1 rounds response
    else
      mxPowerUpV1 rounds response

/-- The loop of `mx_initialize` that powers an MMC card up, with the last response. -/
def mxPowerUpMmc : ℕ → ℤ → StateM Backend ℤ
  | 0, response => pure response
  | rounds + 1, _ => do
    let response ← mxSendCommand device (sdCmd 1) 0
    if response = 0 then
      pure response
    else
      mxPowerUpMmc rounds response

/-- The branch of `mx_initialize` for a card that answers `SD_CMD8`. The OCR decides the
addressing. -/
def mxIdentifyV2 (response : ℤ) : StateM Backend ℤ := do
  let powered ← mxPowerUpV2 device 4096 response
  match powered with
  | none => pure (-3)
  | some response =>
    if response ≠ 0 then
      pure (-4)
    else do
      let ocr ← mxSendCommandData device (sdCmd 58) 0 6
      if ocr.1 ≠ 0 then
        pure (-5)
      else do
        modify fun b =>
          { b with mxCardType := if ocr.2.getD 0 0 &&& 0x40 ≠ 0 then .sdhc else .sdv2 }
        pure 0

/-- What the other branch of `mx_initialize` ends with. -/
def mxSetBlockLength : StateM Backend ℤ := do
  let _ ← mxSendCommand device (sdCmd 59) 0
  let response ← mxSendCommand device (sdCmd 16) 512
  if response ≠ 0 then
    pure (-7)
  else
    pure 0

/-- The branch of `mx_initialize` for older cards. -/
def mxIdentifyV1 (response : ℤ) : StateM Backend ℤ := do
  let response ← mxPowerUpV1 device 4096 response
  if response = 0 then do
    modify fun b => { b with mxCardType := .sdv1 }
    mxSetBlockLength device
  else do
    let response ← mxPowerUpMmc device 4096 response
    if response ≠ 0 then
      pure (-6)
    else do
      modify fun b => { b with mxCardType := .mmc }
      mxSetBlockLength device

/-- The part of `mx_initialize` after the card is identified. -/
def mxReadGeometry : StateM Backend ℤ := do
  modify fun b => { b with mxBaud := mxBaudFast }
  let reg ← mxReadRegister device (sdCmd 9)
  if reg.1 < 0 then
    pure (-8)
  else do
    modify fun b => { b with mxSectorCount := mxCsdSectorCount reg.2 }
    if mxCsdSectorCount reg.2 = 0 then
      pure (-9)
    else do
      modify fun b => { b with mxInitialized := true }
      pure 0

def mxInitialize : StateM Backend ℤ := do
  modify fun b => { b with mxBaud := mxBaudSlow, mxInitialized := false, mxSectorCount := 0 }
  let dummy ← mxExchange device (List.replicate 10 0xFF) 0
  if dummy.1 < 0 then
    pure (-1)
  else do
    let response ← mxSendCommand device (sdCmd 0) 0
    if response ≠ 0x01 then
      pure (-2)
    else do
      let echo ← mxSendCommandData device (sdCmd 8) 0x1AA 6
      let identified ←
        (if echo.1 = 0x01 ∧ echo.2.getD 2 0 = 0x01 ∧ echo.2.getD 3 0 = 0xAA then
          mxIdentifyV2 device echo.1
        else
          mxIdentifyV1 device echo.1)
      if identified < 0 then
        pure identified
      else
        mxReadGeometry device

/-! ## Transfers -/

/-- The argument with which a sector is addressed. -/
def mxAddress (cardType : CardType) (sector : UInt32) : UInt32 :=
  if cardType ≠ .sdhc then sector <<< 9 else sector

/-- The result and the bytes stored in `data`. -/
def mxReadSector (sector : UInt32) : StateM Backend (ℤ × List UInt8) := do
  let b ← get
  if b.mxInitialized = false ∨ b.mxSectorCount ≤ sector then
    pure (-1, [])
  else do
    let waited ← mxWaitEqual device 0xFF 4096
    if waited < 0 then
      pure (-2, [])
    else do
      let response ← mxSendCommand device (sdCmd 17) (mxAddress b.mxCardType sector)
      if response ≠ 0 then
        pure (-3, [])
      else do
        let waited ← mxWaitEqual device 0xFE 100000
        if waited < 0 then
          pure (-4, [])
        else do
          let first ← mxExchange device [] 256
          if first.1 < 0 then
            pure (-5, [])
          else do
            let second ← mxExchange device [] 256
            if second.1 < 0 then
              pure (-6, first.2)
            else do
              let crc ← mxExchange device [] 2
              if crc.1 < 0 then
                pure (-7, first.2 ++ second.2)
              else do
                let _ ← mxDummy device
                pure (0, first.2 ++ second.2)

def mxWriteSector (sector : UInt32) (data : Vector UInt8 512) : StateM Backend ℤ := do
  let b ← get
  if b.mxInitialized = false ∨ b.mxSectorCount ≤ sector then
    pure (-1)
  else do
    let waited ← mxWaitEqual device 0xFF 4096
    if waited < 0 then
      pure (-2)
    else do
      let cmd ← mxSendCommand device (sdCmd 24) (mxAddress b.mxCardType sector)
      if cmd ≠ 0 then
        pure (-3)
      else do
        let token ← mxExchange device [0xFE] 0
        if token.1 < 0 then
          pure (-4)
        else do
          let first ← mxExchange device (data.toList.take 256) 0
          if first.1 < 0 then
            pure (-5)
          else do
            let second ← mxExchange device (data.toList.drop 256) 0
            if second.1 < 0 then
              pure (-6)
            else do
              let crc ← mxExchange device [0xFF, 0xFF] 0
              if crc.1 < 0 then
                pure (-7)
              else do
                let received ← mxReceiveByte device
                if received.1 < 0 then
                  pure (-8)
                else if received.2 &&& 0x1F ≠ 0x05 then
                  pure (-9)
                else do
                  let waited ← mxWaitEqual device 0xFF 0x80000
                  if waited < 0 then
                    pure (-10)
                  else do
                    let _ ← mxDummy device
                    pure 0

/-! ## Steps along a preorder -/

section Steps

variable {device} {R : Backend → Backend → Prop} [Std.Refl R] [IsTrans Backend R]

/-- What waits for the card makes one-byte exchanges. -/
theorem steps_mxDummy (hx : Steps R (mxExchange device [0xFF] 1)) : Steps R (mxDummy device) :=
  Steps.bind hx fun _ => Steps.ite (Steps.pure _) (Steps.pure _)

theorem steps_mxReceiveByte (hx : Steps R (mxExchange device [] 1)) :
    Steps R (mxReceiveByte device) :=
  Steps.bind hx fun _ => Steps.ite (Steps.pure _) (Steps.pure _)

theorem steps_mxWaitNotEqual (hx : Steps R (mxExchange device [] 1)) (value : UInt8)
    (attempts : ℕ) : Steps R (mxWaitNotEqual device value attempts) := by
  induction attempts with
  | zero => exact Steps.pure _
  | succ attempts ih =>
    exact Steps.bind (steps_mxReceiveByte hx) fun _ =>
      Steps.ite (Steps.pure _) (Steps.ite (Steps.pure _) ih)

theorem steps_mxWaitEqual (hx : Steps R (mxExchange device [] 1)) (value : UInt8)
    (attempts : ℕ) : Steps R (mxWaitEqual device value attempts) := by
  induction attempts with
  | zero => exact Steps.pure _
  | succ attempts ih =>
    exact Steps.bind (steps_mxReceiveByte hx) fun _ =>
      Steps.ite (Steps.pure _) (Steps.ite (Steps.pure _) ih)

variable (hx : ∀ tx rxSize, Steps R (mxExchange device tx rxSize))
include hx

theorem steps_mxSendCommand (command : UInt8) (argument : UInt32) :
    Steps R (mxSendCommand device command argument) :=
  Steps.bind (Steps.ite (steps_mxDummy (hx _ _)) (Steps.pure _)) fun _ =>
    Steps.bind (hx _ _) fun _ => Steps.ite (Steps.pure _) (steps_mxWaitNotEqual (hx _ _) _ _)

theorem steps_mxSendCommandData (command : UInt8) (argument : UInt32) (size : ℕ) :
    Steps R (mxSendCommandData device command argument size) :=
  Steps.bind (steps_mxSendCommand hx _ _) fun _ => Steps.ite (Steps.pure _) <|
    Steps.bind (hx _ _) fun _ => Steps.ite (Steps.pure _) <|
    Steps.bind (steps_mxDummy (hx _ _)) fun _ => Steps.pure _

theorem steps_mxReadRegister (command : UInt8) : Steps R (mxReadRegister device command) :=
  Steps.bind (steps_mxSendCommand hx _ _) fun _ => Steps.ite (Steps.pure _) <|
    Steps.bind (steps_mxWaitEqual (hx _ _) _ _) fun _ => Steps.ite (Steps.pure _) <|
    Steps.bind (hx _ _) fun _ => Steps.ite (Steps.pure _) <|
    Steps.bind (steps_mxDummy (hx _ _)) fun _ => Steps.pure _

theorem steps_mxPowerUpV2 (rounds : ℕ) (response : ℤ) :
    Steps R (mxPowerUpV2 device rounds response) := by
  induction rounds generalizing response with
  | zero => exact Steps.pure _
  | succ rounds ih =>
    exact Steps.bind (steps_mxSendCommand hx _ _) fun _ => Steps.ite (Steps.pure _) <|
      Steps.bind (steps_mxSendCommand hx _ _) fun _ => Steps.ite (Steps.pure _) (ih _)

theorem steps_mxPowerUpV1 (rounds : ℕ) (response : ℤ) :
    Steps R (mxPowerUpV1 device rounds response) := by
  induction rounds generalizing response with
  | zero => exact Steps.pure _
  | succ rounds ih =>
    exact Steps.bind (steps_mxSendCommand hx _ _) fun _ => Steps.ite
      (Steps.bind (steps_mxSendCommand hx _ _) fun _ => Steps.ite (Steps.pure _) (ih _)) (ih _)

theorem steps_mxPowerUpMmc (rounds : ℕ) (response : ℤ) :
    Steps R (mxPowerUpMmc device rounds response) := by
  induction rounds generalizing response with
  | zero => exact Steps.pure _
  | succ rounds ih =>
    exact Steps.bind (steps_mxSendCommand hx _ _) fun _ => Steps.ite (Steps.pure _) (ih _)

theorem steps_mxSetBlockLength : Steps R (mxSetBlockLength device) :=
  Steps.bind (steps_mxSendCommand hx _ _) fun _ =>
    Steps.bind (steps_mxSendCommand hx _ _) fun _ => Steps.ite (Steps.pure _) (Steps.pure _)

variable (htype : ∀ b t, R b { b with mxCardType := t })
include htype

theorem steps_mxIdentifyV2 (response : ℤ) : Steps R (mxIdentifyV2 device response) := by
  refine Steps.bind (steps_mxPowerUpV2 hx _ _) fun powered => ?_
  cases powered with
  | none => exact Steps.pure _
  | some response =>
    exact Steps.ite (Steps.pure _) <| Steps.bind (steps_mxSendCommandData hx _ _ _) fun _ =>
      Steps.ite (Steps.pure _) <| Steps.bind (Steps.modify fun b => htype b _) fun _ =>
      Steps.pure _

theorem steps_mxIdentifyV1 (response : ℤ) : Steps R (mxIdentifyV1 device response) :=
  Steps.bind (steps_mxPowerUpV1 hx _ _) fun _ => Steps.ite
    (Steps.bind (Steps.modify fun b => htype b _) fun _ => steps_mxSetBlockLength hx)
    (Steps.bind (steps_mxPowerUpMmc hx _ _) fun _ => Steps.ite (Steps.pure _)
      (Steps.bind (Steps.modify fun b => htype b _) fun _ => steps_mxSetBlockLength hx))

end Steps

end EF2SDK.IopStorage
