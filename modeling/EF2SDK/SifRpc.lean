import Mathlib.Data.Int.Notation
import Mathlib.Logic.Function.Basic
import EF2SDK.Schedule

/-!
# The EE SIF-RPC client

`ef2_sif_bind` and `ef2_sif_call` (`src/ee/sif/sif.c`) build a request in one of the
eight pool packets, hand it to the SIF DMA and poll `g_rpc_wait_done`. The IOP answers
with an RPC_END packet, and the interrupt handler `ef2_cmd_rpc_end` frees the packet the
named client points at and sets the flag.

One thread runs the invocations, and the interrupt may arrive between any two of its
statements. The statements between the allocation of the packet and
`ef2_sif_send_cmd` are therefore kept as a list (`Stmt`), executed one a step; only
`ef2_rpc_alloc_packet` runs with interrupts disabled. A sent request stays in flight
until its RPC_END arrives, which may be after `ef2_wait_flag` gave up on it.

`sent` and `answered` are ghost : the requests are numbered in the order they are sent,
and `answered` lists the numbers of those whose RPC_END has arrived.
-/

set_option autoImplicit false

namespace EF2SDK.Sif

/-- `EF2_RPC_PACKET_COUNT`. -/
abbrev rpcPacketCount : ℕ := 8

/-- The polls `ef2_wait_flag` makes before it gives up. -/
def waitFlagLimit : ℕ := 0x02000000

/-- `EF2_RPC_ALLOC`. -/
def rpcAlloc : BitVec 32 := 0x01

/-- `EF2_RPC_REC_REQUEST`. -/
def rpcRecRequest : BitVec 32 := 0x04

/-- Which `ef2_sif_rpc_client` a pointer names. -/
abbrev ClientId := ℕ

/-- The arguments of `ef2_sif_call` that go into its packet. -/
structure CallArgs where
  function : ℤ
  sendSize : ℕ
  receiveBuffer : ℕ
  receiveSize : ℕ
  deriving DecidableEq

/-- A pool packet, as `ef2_rpc_bind_packet` or `ef2_rpc_call_packet`. -/
structure Packet where
  recId : BitVec 32 := 0
  rpcId : BitVec 32 := 0
  client : Option ClientId := none
  sid : ℕ := 0
  args : CallArgs := ⟨0, 0, 0, 0⟩
  rmode : ℕ := 0
  server : ℕ := 0
  deriving DecidableEq

/-- The ALLOC bit of a pool packet. -/
def Packet.Allocated (p : Packet) : Prop :=
  p.recId &&& rpcAlloc ≠ 0

instance (p : Packet) : Decidable p.Allocated :=
  inferInstanceAs (Decidable (_ ≠ _))

/-- `ef2_sif_rpc_client`, with pointers as addresses and `0` for null. -/
structure Client where
  pktAddr : Option (Fin rpcPacketCount) := none
  rpcId : BitVec 32 := 0
  server : ℕ := 0
  buf : ℕ := 0
  cbuf : ℕ := 0

/-- The two requests a packet can carry. -/
inductive Op
  | bind (sid : ℕ)
  | call (args : CallArgs)
  deriving DecidableEq

/-- An invocation of `ef2_sif_bind` or `ef2_sif_call` past its argument check; `attempt`
counts the rounds of the bind loop. -/
structure Invocation where
  client : ClientId
  op : Op
  attempt : ℕ := 0
  deriving DecidableEq

/-- A request the IOP has not answered : the packet as it was sent. -/
structure Request where
  seq : ℕ
  packet : Fin rpcPacketCount
  op : Op
  content : Packet

/-- The statements between `ef2_rpc_alloc_packet` and `ef2_sif_send_cmd` : null the
server fields of the client (bind only), point the client at the packet, fill the packet
in, clear `g_rpc_wait_done`. -/
inductive Stmt
  | clearServer
  | clearBuf
  | clearCbuf
  | attach
  | fill
  | clearDone
  deriving DecidableEq

/-- Where the thread stands. At `prepare v p []` it is about to run
`ef2_sif_send_cmd`; `reject` and `detach` are the two statements after a rejected one. -/
inductive Pc
  | idle
  | alloc (v : Invocation)
  | prepare (v : Invocation) (p : Fin rpcPacketCount) (todo : List Stmt)
  | wait (v : Invocation) (seq outer : ℕ)
  | check (v : Invocation) (seq : ℕ)
  | reject (v : Invocation) (p : Fin rpcPacketCount)
  | detach (v : Invocation)
  | returned (op : Op) (result : ℤ) (seq : Option ℕ)
  deriving DecidableEq

structure State where
  packets : Fin rpcPacketCount → Packet
  nextId : BitVec 32
  waitDone : Bool
  clients : ClientId → Client
  inFlight : List Request
  sent : ℕ
  answered : List ℕ
  pc : Pc

/-! ## The functions -/

/-- `ef2_rpc_packet_free`. -/
def Packet.free (p : Packet) : Packet :=
  { p with rpcId := 0, recId := p.recId &&& ~~~rpcAlloc }

def State.rpcPacketFree (s : State) (p : Fin rpcPacketCount) : State :=
  { s with packets := Function.update s.packets p (s.packets p).free }

def State.setClient (s : State) (c : ClientId) (k : Client) : State :=
  { s with clients := Function.update s.clients c k }

/-- The first pool packet without the ALLOC bit. -/
def State.firstFree (s : State) : Option (Fin rpcPacketCount) :=
  (List.finRange rpcPacketCount).find? fun i => decide ¬(s.packets i).Allocated

/-- The packet `ef2_rpc_alloc_packet` leaves in slot `i` under the id `id`. -/
def Packet.fresh (i : Fin rpcPacketCount) (id : BitVec 32) : Packet :=
  { recId := (BitVec.ofNat 32 i <<< 16) ||| rpcRecRequest ||| rpcAlloc, rpcId := id }

/-- `ef2_rpc_alloc_packet`, with interrupts disabled throughout. -/
def State.rpcAllocPacket (s : State) : Option (Fin rpcPacketCount × State) :=
  s.firstFree.map fun i =>
    (i, { s with
      packets := Function.update s.packets i (.fresh i s.nextId)
      nextId := if s.nextId + 1 = 0 then 1 else s.nextId + 1 })

/-- What is left to do after the allocation, up to `ef2_sif_send_cmd`. -/
def Op.program : Op → List Stmt
  | .bind _ => [.clearServer, .clearBuf, .clearCbuf, .attach, .fill, .clearDone]
  | .call _ => [.attach, .fill, .clearDone]

/-- The fields the invocation writes into its packet. -/
def Invocation.fillPacket (v : Invocation) (server : ℕ) (p : Packet) : Packet :=
  match v.op with
  | .bind sid => { p with client := some v.client, sid := sid }
  | .call args => { p with client := some v.client, args := args, rmode := 1, server := server }

/-- One statement of invocation `v` working on packet `p`. -/
def State.exec (s : State) (v : Invocation) (p : Fin rpcPacketCount) : Stmt → State
  | .clearServer => s.setClient v.client { s.clients v.client with server := 0 }
  | .clearBuf => s.setClient v.client { s.clients v.client with buf := 0 }
  | .clearCbuf => s.setClient v.client { s.clients v.client with cbuf := 0 }
  | .attach => s.setClient v.client
      { s.clients v.client with pktAddr := some p, rpcId := (s.packets p).rpcId }
  | .fill =>
    { s with
      packets :=
        Function.update s.packets p (v.fillPacket (s.clients v.client).server (s.packets p)) }
  | .clearDone => { s with waitDone := false }

/-- The entry checks of `ef2_sif_bind` and `ef2_sif_call`. -/
def State.enter (s : State) (client : Option ClientId) (op : Op) : State :=
  match client, op with
  | none, op => { s with pc := .returned op (-1) none }
  | some c, .bind sid => { s with pc := .alloc ⟨c, .bind sid, 0⟩ }
  | some c, .call args =>
    if (s.clients c).server = 0 then { s with pc := .returned (.call args) (-1) none }
    else { s with pc := .alloc ⟨c, .call args, 0⟩ }

/-- One poll of `ef2_wait_flag`. -/
def State.waitFlag (s : State) (v : Invocation) (seq outer : ℕ) : State :=
  if outer < waitFlagLimit then
    if s.waitDone then
      match v.op with
      | .bind _ => { s with pc := .check v seq }
      | .call args => { s with pc := .returned (.call args) 0 (some seq) }
    else { s with pc := .wait v seq (outer + 1) }
  else { s with pc := .returned v.op (-4) (some seq) }

/-- The end of a round of the bind loop. -/
def State.bindRound (s : State) (v : Invocation) (seq : ℕ) : State :=
  if (s.clients v.client).server ≠ 0 then { s with pc := .returned v.op 0 (some seq) }
  else if v.attempt + 1 < 4096 then { s with pc := .alloc { v with attempt := v.attempt + 1 } }
  else { s with pc := .returned v.op (-5) (some seq) }

/-- The next statement of the thread. -/
def State.cpu (s : State) : Option State :=
  match s.pc with
  | .alloc v => some <| match s.rpcAllocPacket with
    | none => { s with pc := .returned v.op (-2) none }
    | some (p, t) => { t with pc := .prepare v p v.op.program }
  | .prepare v p (st :: todo) => some { s.exec v p st with pc := .prepare v p todo }
  | .wait v seq outer => some (s.waitFlag v seq outer)
  | .check v seq => some (s.bindRound v seq)
  | .reject v p => some { s.rpcPacketFree p with pc := .detach v }
  | .detach v => some
      { s.setClient v.client { s.clients v.client with pktAddr := none } with
        pc := .returned v.op (-3) none }
  | _ => none

/-- `ef2_sif_send_cmd` : the DMA takes the packet, or the request is rejected. -/
def State.sendCmd (s : State) (accepted : Bool) : Option State :=
  match s.pc with
  | .prepare v p [] => some <|
    if accepted then
      { s with
        inFlight := s.inFlight ++ [⟨s.sent, p, v.op, s.packets p⟩]
        sent := s.sent + 1
        pc := .wait v s.sent 0 }
    else { s with pc := .reject v p }
  | _ => none

/-- The client fields an RPC_END of a bind carries. -/
structure EndPacket where
  server : ℕ
  buf : ℕ
  cbuf : ℕ

/-- `ef2_cmd_rpc_end` on the client named by the answered request. -/
def State.endClient (s : State) (c : ClientId) (op : Op) (e : EndPacket) : State :=
  let k := s.clients c
  let k := match op with
    | .bind _ => { k with server := e.server, buf := e.buf, cbuf := e.cbuf }
    | .call _ => k
  match k.pktAddr with
  | some p => (s.rpcPacketFree p).setClient c { k with pktAddr := none }
  | none => s.setClient c k

/-- `ef2_cmd_rpc_end` for the `i`-th request in flight. -/
def State.cmdRpcEnd (s : State) (i : ℕ) (e : EndPacket) : Option State :=
  s.inFlight[i]?.map fun r =>
    let t := match r.content.client with
      | some c => s.endClient c r.op e
      | none => s
    { t with
      waitDone := true
      inFlight := s.inFlight.eraseIdx i
      answered := s.answered ++ [r.seq] }

/-! ## The step function -/

/-- Who moves next : a new invocation, the thread, the DMA's answer to
`ef2_sif_send_cmd`, or the RPC_END of a request in flight. -/
inductive Choice
  | invoke (client : Option ClientId) (op : Op)
  | cpu
  | send (accepted : Bool)
  | rpcEnd (i : ℕ) (e : EndPacket)

def next (s : State) : Choice → Option State
  | .invoke client op =>
    match s.pc with
    | .idle | .returned .. => some (s.enter client op)
    | _ => none
  | .cpu => s.cpu
  | .send accepted => s.sendCmd accepted
  | .rpcEnd i e => s.cmdRpcEnd i e

/-- The states after `ef2_sif_init` : no packet allocated, nothing sent, nothing running.
The clients are arbitrary. -/
structure Initial (s : State) : Prop where
  free : ∀ p, ¬(s.packets p).Allocated
  inFlight : s.inFlight = []
  answered : s.answered = []
  pc : s.pc = .idle

/-- The state of the static variables after `ef2_sif_init`. -/
def boot : State where
  packets _ := {}
  nextId := 1
  waitDone := false
  clients _ := {}
  inFlight := []
  sent := 0
  answered := []
  pc := .idle

theorem initial_boot : Initial boot where
  free := by decide
  inFlight := rfl
  answered := rfl
  pc := rfl

end EF2SDK.Sif
