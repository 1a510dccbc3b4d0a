import EF2SDK.Words

/-!
# The GIF transport

`ef2_video_submit_qwords` of `src/ee/gs/video.c`, over the DMA channel of
`src/ee/gs/gif_dma.c` and the FIFO writer of `src/ee/gs/gif.S`.

The CPU moves in steps of one poll of the channel's STR bit, one qword written to the FIFO,
or the assignments between them. The controller moves on its own : it delivers one qword
of the transfer it was given, or clears STR once it has delivered them all. The times that
the code records beside its counters are left out.
-/

set_option autoImplicit false

namespace EF2SDK.Gif

/-- `EF2_GIF_DMA_DEFAULT_TIMEOUT`. -/
abbrev dmaDefaultTimeout : ℕ := 0x01000000

/-- `ef2_gif_qword`. -/
structure Qword where
  lo : UInt64
  hi : UInt64
  deriving DecidableEq

/-- A packet : its address and its qwords. Every caller passes an aligned buffer. -/
structure Packet where
  address : ℕ
  qwords : List Qword
  aligned : address % 16 = 0
  nonnull : address ≠ 0

/-- The number of qwords passed with a packet. -/
def Packet.count (p : Packet) : ℕ :=
  p.qwords.length

/-- What a wait of the DMA layer is for : `ef2_gif_dma_init`, `ef2_gif_dma_submit_qwords`
before the start, and `ef2_gif_dma_send_qwords` after it. -/
inductive After
  | init
  | submit
  | complete

/-- Where the CPU is. -/
inductive Pc
  | idle
  /-- In `ef2_gif_dma_wait`, about to read STR with `timeout` polls left. -/
  | wait (p : Packet) (after : After) (timeout : ℕ)
  /-- In `ef2_gif_send_qwords`, with these qwords left. -/
  | fifo (left : List Qword)

/-- The globals of `gif_dma.c`. -/
structure Dma where
  initialized : Bool
  active : Bool
  submissions : ℕ
  completions : ℕ
  qwordsSubmitted : ℕ
  waitCalls : ℕ
  timeouts : ℕ

/-- The DMA channel and the GIF : STR, the qwords left of the transfer, and the stream the
GIF has received. -/
structure Channel where
  str : Bool
  pending : List Qword
  received : List Qword

/-- The transport. `submitted` is for the statements : the qwords of all packets passed to
`ef2_video_submit_qwords`, in order. -/
structure State where
  dma : Dma
  channel : Channel
  available : Bool
  fallbacks : ℕ
  pc : Pc
  submitted : List Qword

/-- What `ef2_video_init` leaves : nothing sent, no transfer, with DMA available or not and
STR set or not. -/
structure Initial (s : State) : Prop where
  idle : s.pc = .idle
  pending : s.channel.pending = []
  received : s.channel.received = []
  submitted : s.submitted = []

/-! ## The driver -/

namespace State

variable (s : State)

/-- `ef2_gif_dma_wait(EF2_GIF_DMA_DEFAULT_TIMEOUT)`. -/
def dmaWait (p : Packet) (after : After) : State :=
  { s with
    dma := { s.dma with waitCalls := u32 (s.dma.waitCalls + 1) }
    pc := .wait p after dmaDefaultTimeout }

/-- `ef2_video_submit_qwords` after `ef2_gif_dma_send_qwords` has failed. -/
def fallback (p : Packet) : State :=
  { s with
    fallbacks := u32 (s.fallbacks + 1)
    available := false
    pc := .fifo p.qwords }

/-- `ef2_gif_dma_submit_qwords` up to its first wait. -/
def dmaSubmit (p : Packet) : State :=
  if p.count = 0 then s.dmaWait p .complete
  else if p.address = 0 then s.fallback p
  else if p.address % 16 ≠ 0 then s.fallback p
  else if p.count > 0xFFFF then s.fallback p
  else if s.dma.initialized then s.dmaWait p .submit
  else s.dmaWait p .init

/-- `ef2_video_submit_qwords`. -/
def submitQwords (p : Packet) : State :=
  let s := { s with submitted := s.submitted ++ p.qwords }
  if s.available then s.dmaSubmit p else { s with pc := .fifo p.qwords }

/-- The rest of `ef2_gif_dma_wait` once STR is clear. -/
def dmaIdle : State :=
  if s.dma.active then
    { s with dma := { s.dma with
        completions := u32 (s.dma.completions + 1)
        active := false } }
  else s

/-- The rest of `ef2_gif_dma_submit_qwords` once STR is clear : the transfer is started. -/
def dmaStart (p : Packet) : State :=
  { s with
    dma := { s.dma with
      active := true
      submissions := u32 (s.dma.submissions + 1)
      qwordsSubmitted := u32 (s.dma.qwordsSubmitted + p.count) }
    channel := { s.channel with str := true, pending := p.qwords } }

/-- The rest of `ef2_gif_dma_init` once STR is clear. -/
def dmaInit : State :=
  { s with
    dma := { s.dma with initialized := true }
    channel := { s.channel with str := false } }

/-- The CPU's next step ; `none` while no packet is given to it. -/
def cpuStep : Option State :=
  match s.pc with
  | .idle => none
  | .wait p after timeout =>
    if s.channel.str then
      if timeout - 1 = 0 then
        some ({ s with dma := { s.dma with timeouts := u32 (s.dma.timeouts + 1) } }.fallback p)
      else some { s with pc := .wait p after (timeout - 1) }
    else
      match after with
      | .init => some (s.dmaIdle.dmaInit.dmaWait p .submit)
      | .submit => some ((s.dmaIdle.dmaStart p).dmaWait p .complete)
      | .complete => some { s.dmaIdle with pc := .idle }
  | .fifo [] => some { s with pc := .idle }
  | .fifo (q :: left) =>
    some { s with
      channel := { s.channel with received := s.channel.received ++ [q] }
      pc := .fifo left }

end State

/-! ## The controller -/

/-- The controller delivers the next qword. -/
def Channel.deliver (c : Channel) : Option Channel :=
  match c.pending with
  | [] => none
  | q :: pending => some { c with pending := pending, received := c.received ++ [q] }

/-- The controller clears STR, everything being delivered. -/
def Channel.finish (c : Channel) : Option Channel :=
  match c.pending with
  | [] => some { c with str := false }
  | _ :: _ => none

/-- What happens next. -/
inductive Choice
  | submit (p : Packet)
  | cpu
  | deliver
  | finish

/-- One step. -/
def next (s : State) : Choice → Option State
  | .submit p =>
    match s.pc with
    | .idle => some (s.submitQwords p)
    | _ => none
  | .cpu => s.cpuStep
  | .deliver => s.channel.deliver.map fun c => { s with channel := c }
  | .finish => s.channel.finish.map fun c => { s with channel := c }

end EF2SDK.Gif
