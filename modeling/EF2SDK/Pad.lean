import EF2SDK.Edges
import EF2SDK.IopPad

/-!
# The pad client

`src/ee/input/iop_backend.c` : the EE side of the pad service. Every call but the inquiry of
a slot count is one exchange with the service (`padRpcExchange`), and a poll compares the
buttons of the reply with those of the poll before it, kept per port and slot in
`g_previous_buttons` (`copyState`).

The service is the function `sif` from the function number and the request to the result of
`ef2_sif_call` and the reply buffer, another one at each call, so that any exchange may fail
and any reply may come. `ef2_pad_init` loads the module first, and how that goes is
`ModuleLoad`. A pointer argument is the flag whether it is not null ; a state that a call
does not write is `none`.
-/

set_option autoImplicit false

namespace EF2SDK.Pad

open IopPad (portCount slotCountMax)

/-! ## The data -/

/-- `ef2_pad_rpc_request`. -/
structure Request where
  portMask : UInt32
  port : UInt8
  slot : UInt8
  smallMotor : UInt8
  largeMotor : UInt8

/-- A request of zeros. -/
def Request.zero : Request :=
  ⟨0, 0, 0, 0, 0⟩

/-- `ef2_pad_rpc_port_state`. -/
structure PortState where
  frame : UInt32
  buttons : BitVec 32
  errors : UInt32
  reconnects : UInt32
  connected : UInt8
  rawId : UInt8
  timingProfile : UInt8
  rumbleSupported : UInt8
  rumbleSmall : UInt8
  rumbleLarge : UInt8
  rightX : UInt8
  rightY : UInt8
  leftX : UInt8
  leftY : UInt8
  pressure : Vector UInt8 12

/-- A port state of zeros. -/
def PortState.zero : PortState :=
  ⟨0, 0, 0, 0, 0, 0, 0, 0, 0, 0, 0, 0, 0, 0, .replicate 12 0⟩

/-- `ef2_pad_rpc_reply`. -/
structure Reply where
  result : ℤ
  slotCount : ℕ → UInt8
  port : ℕ → PortState
  slotState : PortState

/-- A reply of zeros. -/
def Reply.zero : Reply :=
  ⟨0, fun _ => 0, fun _ => .zero, .zero⟩

/-- `ef2_pad_state`. -/
structure PadState where
  frame : UInt32
  buttons : BitVec 32
  pressed : BitVec 32
  released : BitVec 32
  errors : UInt32
  reconnects : UInt32
  connected : UInt8
  rawId : UInt8
  mode : UInt8
  timingProfile : UInt8
  rumbleSupported : UInt8
  rumbleSmall : UInt8
  rumbleLarge : UInt8
  rightX : UInt8
  rightY : UInt8
  leftX : UInt8
  leftY : UInt8
  pressureRight : UInt8
  pressureLeft : UInt8
  pressureUp : UInt8
  pressureDown : UInt8
  pressureTriangle : UInt8
  pressureCircle : UInt8
  pressureCross : UInt8
  pressureSquare : UInt8
  pressureL1 : UInt8
  pressureR1 : UInt8
  pressureL2 : UInt8
  pressureR2 : UInt8

/-- The client's globals. -/
structure Client where
  request : Request
  reply : Reply
  previousButtons : ℕ → ℕ → BitVec 32
  slotCount : ℕ → ℕ
  bound : Bool

/-- The globals before the first call. -/
def boot : Client where
  request := .zero
  reply := .zero
  previousButtons := fun _ _ => 0
  slotCount := fun _ => 1
  bound := false

/-- The result of `ef2_sif_call` and what it leaves in the reply buffer. -/
structure RpcOutcome where
  result : ℤ
  reply : Reply

/-- How the service answers during one call of the client. -/
abbrev Sif : Type :=
  IopPad.Function → Request → RpcOutcome

/-- How loading the module goes : the results of `ef2_sif_init`, of the two attempts to
execute it with the module's own results, of the loader patch and of `ef2_sif_bind`, and
whether the bound client has a server. -/
structure ModuleLoad where
  sifInit : ℤ
  exec : ℤ × ℤ
  enable : ℤ
  execPatched : ℤ × ℤ
  bind : ℤ
  server : Bool

namespace Client

variable (c : Client) (sif : Sif)

/-! ## The exchange -/

/-- `pad_rpc_exchange` with the request in `g_request`. -/
def padRpcExchange (function : IopPad.Function) : Client × ℤ :=
  let o := sif function c.request
  let c := { c with reply := o.reply }
  if o.result < 0 then (c, o.result)
  else
    ({ c with slotCount := fun port =>
        if o.reply.slotCount port = 0 then 1 else (o.reply.slotCount port).toNat },
      o.reply.result)

/-- `pad_rpc_call`. -/
def padRpcCall (function : IopPad.Function) (portMask : UInt32) : Client × ℤ :=
  { c with request := { Request.zero with portMask := portMask } }.padRpcExchange sif function

/-- `copy_state`. -/
def copyState (port slot : ℕ) (source : PortState) : Client × PadState :=
  let currentButtons := if source.connected ≠ 0 then source.buttons else 0
  let previousButtons := c.previousButtons port slot
  ({ c with
      previousButtons := Function.update c.previousButtons port
        (Function.update (c.previousButtons port) slot currentButtons) },
    { frame := source.frame
      buttons := currentButtons
      pressed := currentButtons &&& ~~~previousButtons
      released := previousButtons &&& ~~~currentButtons
      errors := source.errors
      reconnects := source.reconnects
      connected := source.connected
      rawId := source.rawId
      mode := source.rawId >>> 4
      timingProfile := source.timingProfile
      rumbleSupported := source.rumbleSupported
      rumbleSmall := source.rumbleSmall
      rumbleLarge := source.rumbleLarge
      rightX := source.rightX
      rightY := source.rightY
      leftX := source.leftX
      leftY := source.leftY
      pressureRight := source.pressure[0]
      pressureLeft := source.pressure[1]
      pressureUp := source.pressure[2]
      pressureDown := source.pressure[3]
      pressureTriangle := source.pressure[4]
      pressureCircle := source.pressure[5]
      pressureCross := source.pressure[6]
      pressureSquare := source.pressure[7]
      pressureL1 := source.pressure[8]
      pressureR1 := source.pressure[9]
      pressureL2 := source.pressure[10]
      pressureR2 := source.pressure[11] })

/-! ## The entry points -/

/-- `ef2_pad_refresh_topology`. -/
def refreshTopology : Client × ℤ :=
  if ¬c.bound then (c, -1)
  else { c with request := .zero }.padRpcExchange sif .refreshTopology

/-- The globals once `ef2_pad_init` has bound the client. -/
def bind : Client :=
  { c with
    bound := true
    slotCount := fun _ => 1
    previousButtons := fun _ _ => 0 }

/-- `ef2_pad_init` from the bound client on. -/
def initService : Client × ℤ :=
  let (c, result) := c.bind.padRpcCall sif .init 0
  if result < 0 then ({ c with bound := false }, -4000 + result) else c.refreshTopology sif

/-- `ef2_pad_init` from the module's own result on. -/
def initModule (l : ModuleLoad) (moduleResult : ℤ) : Client × ℤ :=
  if moduleResult ≠ 0 then (c, -2800 - moduleResult % 256)
  else if l.bind < 0 ∨ ¬l.server then (c, -3000 + if l.bind < 0 then l.bind else -9)
  else c.initService sif

/-- `ef2_pad_init`. -/
def init (l : ModuleLoad) : Client × ℤ :=
  if c.bound then (c, 0)
  else if l.sifInit < 0 then (c, -1000 + l.sifInit)
  else if l.exec.1 < 0 then
    if l.enable < 0 then (c, -2000 + l.enable)
    else if l.execPatched.1 < 0 then (c, -2500 + l.execPatched.1)
    else c.initModule sif l l.execPatched.2
  else c.initModule sif l l.exec.2

/-- `ef2_pad_get_slot_count` : its result and `*slot_count`. -/
def getSlotCount (port : ℕ) (slotCount : Bool) : ℤ × Option ℕ :=
  if ¬c.bound ∨ port ≥ portCount ∨ ¬slotCount then (-1, none)
  else (0, some (c.slotCount port))

/-- `ef2_pad_poll_slot` with `*state`. -/
def pollSlot (port slot : ℕ) (state : Bool) : Client × ℤ × Option PadState :=
  if ¬c.bound ∨ port ≥ portCount ∨ slot ≥ slotCountMax ∨ ¬state then (c, -1, none)
  else if slot ≥ c.slotCount port then (c, -2, none)
  else
    let request := { Request.zero with port := .ofNat port, slot := .ofNat slot }
    let (c, result) := { c with request := request }.padRpcExchange sif .pollSlot
    if result < 0 then (c, result, none)
    else
      let (c, written) := c.copyState port slot c.reply.slotState
      (c, 0, some written)

/-- `ef2_pad_poll` with `*state`. -/
def poll (port : ℕ) (state : Bool) : Client × ℤ × Option PadState :=
  c.pollSlot sif port 0 state

/-- The loop of `ef2_pad_poll_all` over the ports of a list. -/
def copyPorts : List ℕ → Client → Client × List PadState
  | [], c => (c, [])
  | port :: ports, c =>
    let (c, state) := c.copyState port 0 (c.reply.port port)
    let (c, states) := copyPorts ports c
    (c, state :: states)

/-- `ef2_pad_poll_all` with the array `states`. -/
def pollAll (states : Bool) : Client × ℤ × Option (List PadState) :=
  if ¬c.bound ∨ ¬states then (c, -1, none)
  else
    let (c, result) := c.padRpcCall sif .poll ((1 : UInt32) <<< .ofNat portCount - 1)
    if result < 0 then (c, result, none)
    else
      let (c, written) := copyPorts (List.range portCount) c
      (c, 0, some written)

/-- `ef2_pad_set_rumble_slot`. -/
def setRumbleSlot (port slot : ℕ) (smallMotor largeMotor : UInt8) : Client × ℤ :=
  if ¬c.bound ∨ port ≥ portCount ∨ slot ≥ slotCountMax ∨ slot ≥ c.slotCount port ∨
      smallMotor > 1 then
    (c, -1)
  else
    let request : Request := ⟨0, .ofNat port, .ofNat slot, smallMotor, largeMotor⟩
    { c with request := request }.padRpcExchange sif .setRumbleSlot

/-- `ef2_pad_stop_rumble_slot`. -/
def stopRumbleSlot (port slot : ℕ) : Client × ℤ :=
  c.setRumbleSlot sif port slot 0 0

/-- `ef2_pad_set_rumble`. -/
def setRumble (port : ℕ) (smallMotor largeMotor : UInt8) : Client × ℤ :=
  c.setRumbleSlot sif port 0 smallMotor largeMotor

/-- `ef2_pad_stop_rumble`. -/
def stopRumble (port : ℕ) : Client × ℤ :=
  c.stopRumbleSlot sif port 0

end Client

/-! ## Runs -/

/-- A call of the client with the arguments and the load it meets. -/
inductive Call
  | init (load : ModuleLoad)
  | refreshTopology
  | getSlotCount (port : ℕ) (slotCount : Bool)
  | pollSlot (port slot : ℕ) (state : Bool)
  | poll (port : ℕ) (state : Bool)
  | pollAll (states : Bool)
  | setRumbleSlot (port slot : ℕ) (smallMotor largeMotor : UInt8)
  | stopRumbleSlot (port slot : ℕ)
  | setRumble (port : ℕ) (smallMotor largeMotor : UInt8)
  | stopRumble (port : ℕ)

/-- A state that a poll writes, for its port and slot. -/
structure Report where
  port : ℕ
  slot : ℕ
  state : PadState

/-- The globals after a call, its result and the states it writes. -/
structure Return where
  client : Client
  result : ℤ
  reports : List Report

/-- A call that writes no state. -/
def Return.silent (r : Client × ℤ) : Return :=
  ⟨r.1, r.2, []⟩

/-- A poll of one slot. -/
def Return.ofSlot (port slot : ℕ) (r : Client × ℤ × Option PadState) : Return :=
  ⟨r.1, r.2.1, r.2.2.toList.map (Report.mk port slot)⟩

/-- A poll of all ports, which writes `states[port]` for their slot 0. -/
def Return.ofPorts (r : Client × ℤ × Option (List PadState)) : Return :=
  ⟨r.1, r.2.1, ((List.range portCount).zip (r.2.2.getD [])).map fun p => ⟨p.1, 0, p.2⟩⟩

/-- The client makes a call while the service answers by `sif`. -/
def Client.call (c : Client) (sif : Sif) : Call → Return
  | .init load => .silent (c.init sif load)
  | .refreshTopology => .silent (c.refreshTopology sif)
  | .getSlotCount port slotCount => .silent (c, (c.getSlotCount port slotCount).1)
  | .pollSlot port slot state => .ofSlot port slot (c.pollSlot sif port slot state)
  | .poll port state => .ofSlot port 0 (c.poll sif port state)
  | .pollAll states => .ofPorts (c.pollAll sif states)
  | .setRumbleSlot port slot smallMotor largeMotor =>
    .silent (c.setRumbleSlot sif port slot smallMotor largeMotor)
  | .stopRumbleSlot port slot => .silent (c.stopRumbleSlot sif port slot)
  | .setRumble port smallMotor largeMotor =>
    .silent (c.setRumble sif port smallMotor largeMotor)
  | .stopRumble port => .silent (c.stopRumble sif port)

/-- The globals after the calls of a run, each with the service that answers it. -/
def runClient (c : Client) : List (Sif × Call) → Client
  | [] => c
  | (sif, call) :: calls => runClient (c.call sif call).client calls

/-- The states that the calls of a run write, in their order. -/
def runReports (c : Client) : List (Sif × Call) → List Report
  | [] => []
  | (sif, call) :: calls =>
    (c.call sif call).reports ++ runReports (c.call sif call).client calls

/-- The states of one port and slot among reports. -/
def statesOf (port slot : ℕ) (reports : List Report) : List PadState :=
  (reports.filter fun r => r.port = port ∧ r.slot = slot).map Report.state

end EF2SDK.Pad
