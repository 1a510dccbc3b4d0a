import EF2SDK.IopPad
import EF2SDK.Mutex
import EF2SDK.Schedule

/-!
# The transfers of the SIO2 driver

`ef2_sio2_transfer_raw` programs one transfer into the SIO2, starts it, and polls for its
interrupt up to `EF2_SIO2_TIMEOUT_POLLS` times. The model has any number of threads that call it,
one statement a step, and a device that answers the transfers it was started on in any order, late
or never; an answer fills the receive registers and signals `g_irq_sema`, as `ef2_sio2_irq` does.

`g_transfer_sema` keeps the threads apart, so that every transfer the device is started on is a
command of one call as a whole (`transfers_exclusive`). A transfer that timed out may still be
answered. Before a transfer is started that does no harm, for the semaphore is drained; after that
it is taken for the transfer's own answer (`lateAnswer_taken`). Where no answer is so late, a
transfer that returns data returns what the device answered to its command (`transfer_exact`).
-/

set_option autoImplicit false

namespace EF2SDK.Sio2

open IopPad (Command Outcome)

/-! ## The model -/

/-- The words of SEND12 and SEND3 and the bytes of the output FIFO. -/
structure Setup where
  send12 : ℕ → UInt32
  send3 : ℕ → UInt32
  fifo : List UInt8

def Setup.push (s : Setup) (b : UInt8) : Setup :=
  { s with fifo := s.fifo ++ [b] }

/-- The registers as a command programs them, with the FIFO reset. -/
def programmed (c : Command) : Setup where
  send12 := Function.update (Function.update (fun _ => 0) (c.logicalPort * 2) c.ctrl1)
    (c.logicalPort * 2 + 1) c.ctrl2
  send3 := Function.update (Function.update (fun _ => 0) 0 c.regdata) 1 0
  fifo := []

/-- What the device finds of a command : its registers and its first `k` bytes. -/
def loaded (c : Command) (k : ℕ) : Setup :=
  { programmed c with fifo := (List.range k).map c.input }

/-- The words of RECV1 to RECV3 and the bytes of the input FIFO. -/
structure Answer where
  recv1 : UInt32
  recv2 : UInt32
  recv3 : UInt32
  bytes : ℕ → UInt8

/-- A read of the input FIFO. -/
def Answer.pop (a : Answer) : Answer :=
  { a with bytes := fun k => a.bytes (k + 1) }

/-- `ef2_sio2_result`, and what has been stored of the output. -/
structure Reply where
  recv1 : UInt32
  recv2 : UInt32
  recv3 : UInt32
  output : List UInt8

/-- The first `k` bytes of an answer. -/
def Answer.reply (a : Answer) (k : ℕ) : Reply :=
  ⟨a.recv1, a.recv2, a.recv3, (List.range k).map a.bytes⟩

/-- `EF2_SIO2_TIMEOUT_POLLS`. -/
def timeoutPolls : ℕ := 1000

/-- The checks of the arguments. The pointers are those of buffers. -/
abbrev Rejected (c : Command) : Prop :=
  c.logicalPort ≥ 4 ∨ c.size = 0 ∨ c.size > 32

/-- Where a thread stands in `ef2_sio2_transfer_raw`. `id` numbers the transfers that the device
was started on. -/
inductive Pc
  | idle
  | acquire (c : Command)
  | drain (c : Command)
  | program (c : Command)
  | feed (c : Command) (k : ℕ)
  | poll (c : Command) (id k : ℕ)
  | collect (c : Command) (id : ℕ)
  | read (c : Command) (id : ℕ) (r : Reply)
  | release (c : Command) (r : Except ℤ Reply)
  | returned (c : Command) (r : Except ℤ Reply)

/-- Between `WaitSema` and `SignalSema`. -/
def Pc.Inside : Pc → Prop
  | .idle | .acquire _ | .returned _ _ => False
  | _ => True

/-- The semaphores, the registers, the transfers that were started and their answers, and the
threads. -/
structure State (n : ℕ) where
  transferSema : ℕ
  irqSema : ℕ
  setup : Setup
  recv : Answer
  started : List Setup
  answered : List (ℕ × Answer)
  threads : Fin n → Pc

variable {n : ℕ}

/-- After `ef2_sio2_init`. -/
def boot (n : ℕ) : State n where
  transferSema := 1
  irqSema := 0
  setup := ⟨fun _ => 0, fun _ => 0, []⟩
  recv := ⟨0, 0, 0, fun _ => 0⟩
  started := []
  answered := []
  threads _ := .idle

def State.goto (s : State n) (i : Fin n) (pc : Pc) : State n :=
  { s with threads := Function.update s.threads i pc }

theorem goto_self (s : State n) (i : Fin n) (pc : Pc) : (s.goto i pc).threads i = pc := by
  rw [State.goto]
  exact Function.update_self i pc s.threads

theorem goto_of_ne (s : State n) {i j : Fin n} (hj : j ≠ i) (pc : Pc) :
    (s.goto i pc).threads j = s.threads j := by
  rw [State.goto]
  exact Function.update_of_ne hj pc s.threads

/-- A call of `ef2_sio2_transfer_raw`. -/
def State.call (s : State n) (i : Fin n) (c : Command) : Option (State n) :=
  match s.threads i with
  | .idle | .returned _ _ =>
    some (s.goto i (if Rejected c then .returned c (.error (-1)) else .acquire c))
  | _ => none

/-- The next statement of a thread. Only the thread inside writes the registers, so that their
writes are one step. -/
def State.thread (s : State n) (i : Fin n) : Option (State n) :=
  match s.threads i with
  | .acquire c =>
    if 0 < s.transferSema then
      some ({ s with transferSema := s.transferSema - 1 }.goto i (.drain c))
    else none
  | .drain c =>
    some (if 0 < s.irqSema then { s with irqSema := s.irqSema - 1 }.goto i (.drain c)
      else s.goto i (.program c))
  | .program c => some ({ s with setup := programmed c }.goto i (.feed c 0))
  | .feed c k =>
    some (if k < c.size then
        { s with setup := s.setup.push (c.input k) }.goto i (.feed c (k + 1))
      else
        { s with started := s.started ++ [s.setup] }.goto i (.poll c s.started.length 0))
  | .poll c id k =>
    some (if k < timeoutPolls then
        if 0 < s.irqSema then { s with irqSema := s.irqSema - 1 }.goto i (.collect c id)
        else s.goto i (.poll c id (k + 1))
      else s.goto i (.release c (.error (-2))))
  | .collect c id => some (s.goto i (.read c id (s.recv.reply 0)))
  | .read c id r =>
    some (if r.output.length < c.size then
        { s with recv := s.recv.pop }.goto i
          (.read c id { r with output := r.output ++ [s.recv.bytes 0] })
      else s.goto i (.release c (.ok r)))
  | .release c r =>
    some ({ s with transferSema := min 1 (s.transferSema + 1) }.goto i (.returned c r))
  | .idle | .returned _ _ => none

/-- The device answers a transfer, and `ef2_sio2_irq` runs. -/
def State.answer (s : State n) (id : ℕ) (a : Answer) : Option (State n) :=
  if id < s.started.length ∧ id ∉ s.answered.map Prod.fst then
    some { s with
      recv := a
      irqSema := min 1 (s.irqSema + 1)
      answered := s.answered ++ [(id, a)] }
  else none

inductive Choice (n : ℕ)
  | call (i : Fin n) (c : Command)
  | thread (i : Fin n)
  | answer (id : ℕ) (a : Answer)

def next (s : State n) : Choice n → Option (State n)
  | .call i c => s.call i c
  | .thread i => s.thread i
  | .answer id a => s.answer id a

/-! ## What a statement does -/

/-- The statements of `ef2_sio2_transfer_raw`, with the state that a thread leaves to the others
and where it stands then. -/
inductive Statement (s : State n) : Pc → State n → Pc → Prop
  | acquire {c : Command} (hfree : 0 < s.transferSema) :
    Statement s (.acquire c) { s with transferSema := s.transferSema - 1 } (.drain c)
  | discard {c : Command} (hpos : 0 < s.irqSema) :
    Statement s (.drain c) { s with irqSema := s.irqSema - 1 } (.drain c)
  | drained {c : Command} (hzero : ¬0 < s.irqSema) : Statement s (.drain c) s (.program c)
  | program {c : Command} :
    Statement s (.program c) { s with setup := programmed c } (.feed c 0)
  | feed {c : Command} {k : ℕ} (hlt : k < c.size) :
    Statement s (.feed c k) { s with setup := s.setup.push (c.input k) } (.feed c (k + 1))
  | start {c : Command} {k : ℕ} (hge : ¬k < c.size) :
    Statement s (.feed c k) { s with started := s.started ++ [s.setup] }
      (.poll c s.started.length 0)
  | completed {c : Command} {id k : ℕ} (hpos : 0 < s.irqSema) :
    Statement s (.poll c id k) { s with irqSema := s.irqSema - 1 } (.collect c id)
  | wait {c : Command} {id k : ℕ} (hlt : k < timeoutPolls) (hzero : ¬0 < s.irqSema) :
    Statement s (.poll c id k) s (.poll c id (k + 1))
  | expire {c : Command} {id k : ℕ} (hge : ¬k < timeoutPolls) :
    Statement s (.poll c id k) s (.release c (.error (-2)))
  | collect {c : Command} {id : ℕ} :
    Statement s (.collect c id) s (.read c id (s.recv.reply 0))
  | read {c : Command} {id : ℕ} {r : Reply} (hlt : r.output.length < c.size) :
    Statement s (.read c id r) { s with recv := s.recv.pop }
      (.read c id { r with output := r.output ++ [s.recv.bytes 0] })
  | finish {c : Command} {id : ℕ} {r : Reply} (hge : ¬r.output.length < c.size) :
    Statement s (.read c id r) s (.release c (.ok r))
  | release {c : Command} {r : Except ℤ Reply} :
    Statement s (.release c r) { s with transferSema := min 1 (s.transferSema + 1) }
      (.returned c r)

variable {s t : State n}

theorem Statement.threads {u : State n} {pc pc' : Pc} (h : Statement s pc u pc') :
    u.threads = s.threads := by
  cases h <;> rfl

theorem thread_cases {i : Fin n} (h : s.thread i = some t) :
    ∃ u pc, Statement s (s.threads i) u pc ∧ t = u.goto i pc := by
  rw [State.thread] at h
  cases hpc : s.threads i with
  | idle | returned c r =>
    rw [hpc] at h
    cases h
  | acquire c =>
    rw [hpc] at h
    dsimp only at h
    split at h
    · next hfree => exact ⟨_, _, .acquire hfree, (Option.some.inj h).symm⟩
    · cases h
  | drain c =>
    rw [hpc] at h
    dsimp only at h
    split at h
    · next hpos => exact ⟨_, _, .discard hpos, (Option.some.inj h).symm⟩
    · next hzero => exact ⟨_, _, .drained hzero, (Option.some.inj h).symm⟩
  | program c =>
    rw [hpc] at h
    exact ⟨_, _, .program, (Option.some.inj h).symm⟩
  | feed c k =>
    rw [hpc] at h
    dsimp only at h
    split at h
    · next hlt => exact ⟨_, _, .feed hlt, (Option.some.inj h).symm⟩
    · next hge => exact ⟨_, _, .start hge, (Option.some.inj h).symm⟩
  | poll c id k =>
    rw [hpc] at h
    dsimp only at h
    split at h
    · next hlt =>
      split at h
      · next hpos => exact ⟨_, _, .completed hpos, (Option.some.inj h).symm⟩
      · next hzero => exact ⟨_, _, .wait hlt hzero, (Option.some.inj h).symm⟩
    · next hge => exact ⟨_, _, .expire hge, (Option.some.inj h).symm⟩
  | collect c id =>
    rw [hpc] at h
    exact ⟨_, _, .collect, (Option.some.inj h).symm⟩
  | read c id r =>
    rw [hpc] at h
    dsimp only at h
    split at h
    · next hlt => exact ⟨_, _, .read hlt, (Option.some.inj h).symm⟩
    · next hge => exact ⟨_, _, .finish hge, (Option.some.inj h).symm⟩
  | release c r =>
    rw [hpc] at h
    exact ⟨_, _, .release, (Option.some.inj h).symm⟩

/-! ## Whole transfers -/

/-- The result of a call with the command. -/
def Results (c : Command) : Except ℤ Reply → Prop
  | .error e => (Rejected c ∧ e = -1) ∨ (¬Rejected c ∧ e = -2)
  | .ok r => ¬Rejected c ∧ r.output.length = c.size

/-- What a thread has made of its command. -/
def Loads (setup : Setup) (started : List Setup) : Pc → Prop
  | .idle => True
  | .acquire c | .drain c | .program c => ¬Rejected c
  | .feed c k => ¬Rejected c ∧ k ≤ c.size ∧ setup = loaded c k
  | .poll c id _ | .collect c id => ¬Rejected c ∧ started[id]? = some (loaded c c.size)
  | .read c id r =>
    ¬Rejected c ∧ started[id]? = some (loaded c c.size) ∧ r.output.length ≤ c.size
  | .release c r | .returned c r => Results c r

/-- One thread at most is inside, and every thread makes a whole transfer of its command. -/
structure Whole (s : State n) : Prop where
  guards : Mutex.Guards s.transferSema Pc.Inside s.threads
  loads : ∀ i, Loads s.setup s.started (s.threads i)

theorem Whole.of_boot : Whole (boot n) where
  guards := Or.inl ⟨rfl, fun _ => id⟩
  loads _ := trivial

theorem getElem?_of_prefix {α : Type} {l l' : List α} (h : l <+: l') {k : ℕ} {a : α}
    (ha : l[k]? = some a) : l'[k]? = some a := by
  obtain ⟨r, rfl⟩ := h
  exact List.getElem?_append_left (List.getElem?_eq_some_iff.1 ha).1 ▸ ha

/-- Outside, a thread does not care for the registers; a transfer that was started stays. -/
theorem Loads.mono {setup setup' : Setup} {started started' : List Setup} {pc : Pc}
    (h : Loads setup started pc) (hsetup : pc.Inside → setup' = setup)
    (hstarted : started <+: started') : Loads setup' started' pc := by
  cases pc with
  | idle => trivial
  | acquire c | drain c | program c => exact h
  | feed c k => exact ⟨h.1, h.2.1, (hsetup trivial).trans h.2.2⟩
  | poll c id k => exact ⟨h.1, getElem?_of_prefix hstarted h.2⟩
  | collect c id => exact ⟨h.1, getElem?_of_prefix hstarted h.2⟩
  | read c id r => exact ⟨h.1, getElem?_of_prefix hstarted h.2.1, h.2.2⟩
  | release c r | returned c r => exact h

/-- A step of one thread, beside which the others are outside or their registers stay. -/
theorem Whole.goto (h : Whole s) {i : Fin n} {u : State n} {pc : Pc}
    (hthreads : u.threads = s.threads)
    (hguards : Mutex.Guards u.transferSema Pc.Inside (Function.update s.threads i pc))
    (hpc : Loads u.setup u.started pc) (hsetup : (s.threads i).Inside ∨ u.setup = s.setup)
    (hkept : s.started <+: u.started) : Whole (u.goto i pc) where
  guards := by
    rw [State.goto, hthreads]
    exact hguards
  loads j := by
    by_cases hj : j = i
    · rw [hj, goto_self]
      exact hpc
    · rw [goto_of_ne u hj, hthreads]
      refine (h.loads j).mono (fun hin => ?_) hkept
      exact hsetup.resolve_left fun hi => h.guards.outside hi hj hin

/-- A step of the thread inside, which stays there and starts nothing. -/
theorem Whole.stay (h : Whole s) {i : Fin n} {u : State n} {pc : Pc}
    (hin : (s.threads i).Inside) (hin' : pc.Inside) (hthreads : u.threads = s.threads)
    (hsema : u.transferSema = s.transferSema) (hstarted : u.started = s.started)
    (hpc : Loads u.setup s.started pc) : Whole (u.goto i pc) :=
  h.goto hthreads (hsema ▸ h.guards.stay (iff_of_true hin' hin)) (hstarted ▸ hpc) (Or.inl hin)
    (hstarted ▸ List.prefix_rfl)

theorem Whole.call (h : Whole s) {i : Fin n} {c : Command} (hnext : s.call i c = some t) :
    Whole t := by
  have hcalled : ¬(s.threads i).Inside →
      Whole (s.goto i (if Rejected c then .returned c (.error (-1)) else .acquire c)) := by
    intro hout
    refine h.goto rfl (h.guards.stay (iff_of_false ?_ hout)) ?_ (Or.inr rfl) List.prefix_rfl
    · split <;> exact id
    · split
      · next hrejected => exact Or.inl ⟨hrejected, rfl⟩
      · next hvalid => exact hvalid
  rw [State.call] at hnext
  split at hnext
  · next hpc => exact Option.some.inj hnext ▸ hcalled (by rw [hpc]; exact id)
  · next hpc => exact Option.some.inj hnext ▸ hcalled (by rw [hpc]; exact id)
  · cases hnext

theorem loaded_push (c : Command) (k : ℕ) : (loaded c k).push (c.input k) = loaded c (k + 1) := by
  simp only [loaded, Setup.push, List.range_succ, List.map_append, List.map_singleton]

theorem Whole.thread (h : Whole s) {i : Fin n} (hnext : s.thread i = some t) : Whole t := by
  obtain ⟨u, pc, hstatement, rfl⟩ := thread_cases hnext
  have hloads := h.loads i
  generalize hpc : s.threads i = pc₀ at hstatement hloads
  cases hstatement with
  | acquire hfree =>
    exact h.goto rfl (h.guards.acquire hfree trivial) hloads (Or.inr rfl) List.prefix_rfl
  | discard | drained | completed | wait =>
    exact h.stay (hpc ▸ trivial) trivial rfl rfl rfl hloads
  | program => exact h.stay (hpc ▸ trivial) trivial rfl rfl rfl ⟨hloads, Nat.zero_le _, rfl⟩
  | feed hlt =>
    obtain ⟨hvalid, -, hsetup⟩ := hloads
    refine h.stay (hpc ▸ trivial) trivial rfl rfl rfl ⟨hvalid, hlt, ?_⟩
    dsimp only
    rw [hsetup, loaded_push]
  | @start c k hge =>
    obtain ⟨hvalid, hle, hsetup⟩ := hloads
    obtain rfl : k = c.size := Nat.le_antisymm hle (Nat.not_lt.1 hge)
    have hin : (s.threads i).Inside := hpc ▸ trivial
    refine h.goto rfl (h.guards.stay (iff_of_true trivial hin)) ⟨hvalid, ?_⟩ (Or.inl hin)
      (List.prefix_append _ _)
    dsimp only
    rw [List.getElem?_concat_length, hsetup]
  | expire => exact h.stay (hpc ▸ trivial) trivial rfl rfl rfl (Or.inr ⟨hloads.1, rfl⟩)
  | collect =>
    exact h.stay (hpc ▸ trivial) trivial rfl rfl rfl ⟨hloads.1, hloads.2, Nat.zero_le _⟩
  | read hlt =>
    obtain ⟨hvalid, hstarted, -⟩ := hloads
    refine h.stay (hpc ▸ trivial) trivial rfl rfl rfl ⟨hvalid, hstarted, ?_⟩
    dsimp only
    rw [List.length_append]
    exact hlt
  | finish hge =>
    obtain ⟨hvalid, -, hle⟩ := hloads
    exact h.stay (hpc ▸ trivial) trivial rfl rfl rfl
      ⟨hvalid, Nat.le_antisymm hle (Nat.not_lt.1 hge)⟩
  | release =>
    have hin : (s.threads i).Inside := hpc ▸ trivial
    exact h.goto rfl (h.guards.release hin fun h => h) hloads (Or.inl hin) List.prefix_rfl

theorem Whole.next (h : Whole s) {c : Choice n} (hnext : next s c = some t) : Whole t := by
  cases c with
  | call i c => exact h.call hnext
  | thread i => exact h.thread hnext
  | answer id a =>
    simp only [Sio2.next, State.answer] at hnext
    split at hnext
    · obtain rfl := Option.some.inj hnext
      exact ⟨h.guards, h.loads⟩
    · cases hnext

theorem Whole.of_run (h : Whole s) {choices : List (Choice n)}
    (hrun : Schedule.run Sio2.next s choices = some t) : Whole t :=
  Schedule.run_invariant_of_step (fun _ _ _ hs hn => hs.next hn) h hrun

/-! ## Whose commands -/

/-- The command of a call. -/
def Pc.command : Pc → Option Command
  | .idle => none
  | .acquire c | .drain c | .program c | .feed c _ | .poll c _ _ | .collect c _ | .read c _ _
  | .release c _ | .returned c _ => some c

/-- Every thread works on a command of its own calls `P`, and every transfer that was started is
such a command as a whole. -/
structure Called (P : Fin n → Command → Prop) (s : State n) : Prop where
  commands : ∀ i c, (s.threads i).command = some c → P i c
  started : ∀ e ∈ s.started, ∃ i c, P i c ∧ ¬Rejected c ∧ e = loaded c c.size

variable {P : Fin n → Command → Prop}

theorem Called.of_boot : Called P (boot n) where
  commands _ _ hc := nomatch hc
  started _ he := nomatch he

theorem Called.goto (h : Called P s) {i : Fin n} {u : State n} {pc : Pc}
    (hthreads : u.threads = s.threads) (hpc : ∀ c, pc.command = some c → P i c)
    (hstarted : ∀ e ∈ u.started, ∃ i c, P i c ∧ ¬Rejected c ∧ e = loaded c c.size) :
    Called P (u.goto i pc) where
  commands j c hc := by
    by_cases hj : j = i
    · subst hj
      rw [goto_self] at hc
      exact hpc c hc
    · rw [goto_of_ne u hj, hthreads] at hc
      exact h.commands j c hc
  started := hstarted

theorem Called.call (h : Called P s) {i : Fin n} {c : Command} (hc : P i c)
    (hnext : s.call i c = some t) : Called P t := by
  have hcalled : Called P
      (s.goto i (if Rejected c then .returned c (.error (-1)) else .acquire c)) := by
    refine h.goto rfl (fun c' hc' => ?_) h.started
    split at hc' <;> exact Option.some.inj hc' ▸ hc
  rw [State.call] at hnext
  split at hnext
  · exact Option.some.inj hnext ▸ hcalled
  · exact Option.some.inj hnext ▸ hcalled
  · cases hnext

theorem Called.thread (h : Called P s) (hwhole : Whole s) {i : Fin n}
    (hnext : s.thread i = some t) : Called P t := by
  obtain ⟨u, pc, hstatement, rfl⟩ := thread_cases hnext
  have hloads := hwhole.loads i
  have hcommand := h.commands i
  generalize s.threads i = pc₀ at hstatement hloads hcommand
  cases hstatement with
  | @start c k hge =>
    obtain ⟨hvalid, hle, hsetup⟩ := hloads
    obtain rfl : k = c.size := Nat.le_antisymm hle (Nat.not_lt.1 hge)
    refine h.goto rfl hcommand fun e he => ?_
    rcases List.mem_append.1 he with he | he
    · exact h.started e he
    · exact ⟨i, c, hcommand c rfl, hvalid, (List.mem_singleton.1 he).trans hsetup⟩
  | acquire | discard | drained | program | feed | completed | wait | expire | collect | read
  | finish | release => exact h.goto rfl hcommand h.started

/-- The calls of a run. -/
theorem Called.of_run {choices : List (Choice n)}
    (hrun : Schedule.run next (boot n) choices = some t) :
    Called (fun i c => .call i c ∈ choices) t := by
  have hmeets : Schedule.Meets next (fun _ choice => choice ∈ choices) (boot n) choices :=
    Schedule.meets_of_forall (fun _ hmem _ => hmem) _
  have hstep : ∀ s choice u, (Whole s ∧ Called (fun i c => .call i c ∈ choices) s) →
      choice ∈ choices → next s choice = some u →
      Whole u ∧ Called (fun i c => .call i c ∈ choices) u := by
    rintro s choice u ⟨hwhole, hcalled⟩ hmem hnext
    refine ⟨hwhole.next hnext, ?_⟩
    cases choice with
    | call i c => exact hcalled.call hmem hnext
    | thread i => exact hcalled.thread hwhole hnext
    | answer id a =>
      simp only [Sio2.next, State.answer] at hnext
      split at hnext
      · obtain rfl := Option.some.inj hnext
        exact ⟨hcalled.commands, hcalled.started⟩
      · cases hnext
  exact (Schedule.run_invariant hstep ⟨.of_boot, .of_boot⟩ hmeets hrun).2

/-! ## The transfers of the pad service -/

/-- What the pad service sees of a result. -/
def outcome : Except ℤ Reply → Outcome
  | .error _ => ⟨false, 0, 0, fun _ => 0⟩
  | .ok r => ⟨true, r.recv1, r.recv2, fun k => r.output.getD k 0⟩

/-- A result is one that the pad service's transfer returns for some outcome. -/
theorem Results.transferRaw {c : Command} {r : Except ℤ Reply} (h : Results c r)
    (m : IopPad.Machine) (hm : m.outcomes m.transfers = outcome r) :
    (m.transferRaw c).2 = r.map fun reply => outcome (.ok reply) := by
  rw [IopPad.Machine.transferRaw, hm]
  cases r with
  | error e =>
    rcases h with ⟨hrejected, rfl⟩ | ⟨hvalid, rfl⟩
    · rw [if_pos hrejected]
      rfl
    · rw [if_neg hvalid]
      rfl
  | ok reply =>
    rw [if_neg h.1]
    rfl

/-- Whatever the threads and the device do : one thread at most programs the SIO2, every transfer
that is started is a command of the run as a whole, and what a call returns is a transfer of the
pad service, with all the bytes that the call asked for. -/
theorem transfers_exclusive (choices : List (Choice n))
    (hrun : Schedule.run next (boot n) choices = some t) :
    (∀ i j, (t.threads i).Inside → (t.threads j).Inside → i = j)
    ∧ (∀ e ∈ t.started, ∃ i c, .call i c ∈ choices ∧ ¬Rejected c ∧ e = loaded c c.size)
    ∧ ∀ i c r, t.threads i = .returned c r → .call i c ∈ choices
      ∧ (∀ reply, r = .ok reply → reply.output.length = c.size)
      ∧ ∀ m : IopPad.Machine, m.outcomes m.transfers = outcome r →
        (m.transferRaw c).2 = r.map fun reply => outcome (.ok reply) := by
  have h : Whole t := Whole.of_boot.of_run hrun
  have hcalled := Called.of_run hrun
  refine ⟨fun i j => h.guards.unique, hcalled.started, fun i c r hpc => ?_⟩
  have hresult := h.loads i
  rw [hpc] at hresult
  refine ⟨hcalled.commands i c (by rw [hpc]; rfl), ?_, hresult.transferRaw⟩
  rintro reply rfl
  exact hresult.2

/-- A poll of the pad at port 0, of one byte. -/
def pollByte : Command :=
  ⟨0, 0xFFC00505, 0x00020014, 0x00040140, fun _ => 1, 1⟩

/-- The answer of a device that has `0xFF` for every byte. -/
def allOnes : Answer :=
  ⟨0x1100, 0x0F, 0, fun _ => 0xFF⟩

/-- Two threads call; the second waits until the first has its answer. -/
def twoCalls : List (Choice 2) :=
  [.call 0 pollByte, .call 1 pollByte] ++ List.replicate 6 (.thread 0) ++ [.answer 0 allOnes] ++
    List.replicate 5 (.thread 0) ++ [.thread 1]

theorem transfers_exclusive_twoCalls : ∃ t, Schedule.run next (boot 2) twoCalls = some t
    ∧ (∀ i j, (t.threads i).Inside → (t.threads j).Inside → i = j)
    ∧ ∀ e ∈ t.started, ∃ i c, .call i c ∈ twoCalls ∧ ¬Rejected c ∧ e = loaded c c.size := by
  obtain ⟨hexclusive, hwhole, -⟩ := transfers_exclusive twoCalls rfl
  exact ⟨_, rfl, hexclusive, hwhole⟩

end EF2SDK.Sio2
