import EF2SDK.Pad

/-!
# The button edges of the polls

A poll of any kind reports through `copy_state`, so the states that a call writes are
`Copies` of the globals before it, and a call that writes none leaves `g_previous_buttons`
as it was (`call_copies`). Along a run the states of one port and slot are thereby the
samples of one history that starts with no button held (`follow_statesOf`).

`polls_edges` is the result : over every run of the client the edges of a button alternate,
beginning with a press, and fold to the held mask ; a failed call costs no edge, and a poll
of one slot leaves the others alone.
-/

set_option autoImplicit false

namespace EF2SDK.Pad

open Edges (Sample Edge levelAfter Follow)
open IopPad (portCount)

/-- The buttons of a state with their edges. -/
def PadState.sample (s : PadState) : Sample 32 :=
  ⟨s.buttons, s.pressed, s.released⟩

/-- The buttons that the service reports held : none on a port without a pad. -/
def PortState.held (s : PortState) : BitVec 32 :=
  if s.connected ≠ 0 then s.buttons else 0

/-! ## What an exchange keeps -/

namespace Client

variable (c : Client) (sif : Sif)

/-- The globals after an exchange that did not fail, up to the record of the buttons. -/
def Exchanged (d : Client) : Prop :=
  d.previousButtons = c.previousButtons ∧ d.bound = c.bound

/-- The request is no part of what an exchange keeps. -/
theorem padRpcExchange_exchanged (request : Request) (f : IopPad.Function) :
    c.Exchanged ({ c with request := request }.padRpcExchange sif f).1 := by
  rw [padRpcExchange]
  split_ifs <;> exact ⟨rfl, rfl⟩

theorem padRpcCall_exchanged (f : IopPad.Function) (mask : UInt32) :
    c.Exchanged (c.padRpcCall sif f mask).1 :=
  c.padRpcExchange_exchanged sif _ f

theorem refreshTopology_exchanged : c.Exchanged (c.refreshTopology sif).1 := by
  rw [refreshTopology]
  split_ifs
  · exact c.padRpcExchange_exchanged sif _ _
  · exact ⟨rfl, rfl⟩

theorem setRumbleSlot_exchanged (port slot : ℕ) (small large : UInt8) :
    c.Exchanged (c.setRumbleSlot sif port slot small large).1 := by
  rw [setRumbleSlot]
  split_ifs
  · exact ⟨rfl, rfl⟩
  · exact c.padRpcExchange_exchanged sif _ _

/-- A client that is not bound has no buttons on record. -/
def Fresh : Prop :=
  c.bound = false → c.previousButtons = fun _ _ => 0

variable {c}

theorem Fresh.of_bound (h : c.bound = true) : c.Fresh := by
  intro hb
  rw [h] at hb
  cases hb

theorem initService_previousButtons :
    (c.initService sif).1.previousButtons = fun _ _ => 0 := by
  have hcall := (c.bind.padRpcCall_exchanged sif .init 0).1
  change (if (c.bind.padRpcCall sif .init 0).2 < 0 then _ else _ : Client × ℤ).1.previousButtons = _
  split_ifs
  · exact hcall
  · exact (refreshTopology_exchanged _ sif).1.trans hcall

theorem initModule_previousButtons (h : c.previousButtons = fun _ _ => 0) (l : ModuleLoad)
    (moduleResult : ℤ) : (c.initModule sif l moduleResult).1.previousButtons = fun _ _ => 0 := by
  rw [initModule]
  split
  · exact h
  · split
    · exact h
    · exact initService_previousButtons sif

/-- `ef2_pad_init` clears the record only where it is clear. -/
theorem init_previousButtons (h : c.Fresh) (l : ModuleLoad) :
    (c.init sif l).1.previousButtons = c.previousButtons := by
  rw [init]
  split_ifs with hb
  · rfl
  all_goals
    have hzero := h (by simpa using hb)
    first | rfl | exact (initModule_previousButtons sif hzero l _).trans hzero.symm

theorem init_fresh (h : c.Fresh) (l : ModuleLoad) : (c.init sif l).1.Fresh := by
  intro hbound
  rw [init_previousButtons sif h]
  by_cases hb : c.bound
  · rw [init, if_pos hb] at hbound
    exact h hbound
  · exact h (by simpa using hb)

end Client

/-! ## The states a call writes -/

/-- The reports are the copies that lead from the globals `c` to the record of `c'`. -/
inductive Copies : Client → Client → List Report → Prop
  | nil {c c' : Client} (h : c'.previousButtons = c.previousButtons) : Copies c c' []
  | cons {c c' : Client} {reports : List Report} (port slot : ℕ) (source : PortState)
      (h : Copies (c.copyState port slot source).1 c' reports) :
      Copies c c' (⟨port, slot, (c.copyState port slot source).2⟩ :: reports)

theorem Copies.of_previousButtons {c d c' : Client} {reports : List Report}
    (hd : d.previousButtons = c.previousButtons) (h : Copies d c' reports) :
    Copies c c' reports := by
  induction h generalizing c with
  | nil h => exact .nil (h.trans hd)
  | @cons d c' reports port slot source _ ih =>
    have hstate : (c.copyState port slot source).2 = (d.copyState port slot source).2 := by
      simp only [Client.copyState, hd]
    rw [← hstate]
    exact .cons port slot source (ih (by simp only [Client.copyState, hd]))

/-- The copy of a state is a sample of its port and slot. -/
theorem copyState_sample (c : Client) (port slot : ℕ) (source : PortState) :
    (c.copyState port slot source).2.sample =
      Sample.after (c.previousButtons port slot) source.held :=
  rfl

theorem copyState_previousButtons (c : Client) (port slot port' slot' : ℕ) (source : PortState) :
    (c.copyState port slot source).1.previousButtons port' slot' =
      if port = port' ∧ slot = slot' then source.held else c.previousButtons port' slot' := by
  simp only [Client.copyState, Function.update_apply, PortState.held]
  by_cases hp : port = port' <;> by_cases hs : slot = slot' <;> simp [hp, hs, eq_comm]

theorem statesOf_cons (port slot : ℕ) (r : Report) (reports : List Report) :
    statesOf port slot (r :: reports) =
      if r.port = port ∧ r.slot = slot then r.state :: statesOf port slot reports
      else statesOf port slot reports := by
  rw [statesOf, List.filter_cons]
  simp only [decide_eq_true_eq]
  split_ifs <;> rfl

theorem statesOf_append (port slot : ℕ) (reports later : List Report) :
    statesOf port slot (reports ++ later) =
      statesOf port slot reports ++ statesOf port slot later := by
  rw [statesOf, List.filter_append, List.map_append]
  rfl

/-- The copies of one port and slot follow one another from what is on record before them,
and the last one is on record after them. -/
theorem Copies.follow {c c' : Client} {reports : List Report} (h : Copies c c' reports)
    (port slot : ℕ) :
    Follow (c.previousButtons port slot) ((statesOf port slot reports).map PadState.sample) ∧
      c'.previousButtons port slot = levelAfter (c.previousButtons port slot)
        ((statesOf port slot reports).map PadState.sample) := by
  induction h with
  | nil h => exact ⟨trivial, congrFun (congrFun h port) slot⟩
  | @cons c c' reports port' slot' source _ ih =>
    rw [copyState_previousButtons] at ih
    rw [statesOf_cons]
    split_ifs at ih ⊢ with hat
    · obtain ⟨rfl, rfl⟩ := hat
      rw [List.map_cons, copyState_sample]
      refine ⟨⟨rfl, ih.1⟩, ?_⟩
      rw [Edges.levelAfter_cons]
      exact ih.2
    · exact ih

/-! ## One call -/

namespace Client

variable (c : Client) (sif : Sif)

theorem copyPorts_copies (ports : List ℕ) :
    Copies c (copyPorts ports c).1
      ((ports.zip (copyPorts ports c).2).map fun p => ⟨p.1, 0, p.2⟩) := by
  induction ports generalizing c with
  | nil => exact .nil rfl
  | cons port ports ih => exact .cons port 0 _ (ih _)

theorem copyPorts_bound (ports : List ℕ) : (copyPorts ports c).1.bound = c.bound := by
  induction ports generalizing c with
  | nil => rfl
  | cons port ports ih => exact ih _

/-- A poll of one slot fails and writes nothing, or copies the slot's state. -/
theorem pollSlot_cases (port slot : ℕ) (state : Bool) :
    (∃ d result, c.Exchanged d ∧ result < 0 ∧ c.pollSlot sif port slot state = (d, result, none)) ∨
      ∃ d, c.Exchanged d ∧ c.bound ∧ c.pollSlot sif port slot state =
        ((d.copyState port slot d.reply.slotState).1, 0,
          some (d.copyState port slot d.reply.slotState).2) := by
  rw [pollSlot]
  split_ifs with hrefused
  · exact .inl ⟨c, -1, ⟨rfl, rfl⟩, by decide, rfl⟩
  · exact .inl ⟨c, -2, ⟨rfl, rfl⟩, by decide, rfl⟩
  · obtain ⟨request, hrequest⟩ : ∃ request, request =
        { Request.zero with port := .ofNat port, slot := .ofNat slot } := ⟨_, rfl⟩
    have hexchanged := c.padRpcExchange_exchanged sif request .pollSlot
    rw [← hrequest]
    by_cases hresult : ({ c with request := request }.padRpcExchange sif .pollSlot).2 < 0
    · exact .inl ⟨_, _, hexchanged, hresult, if_pos hresult⟩
    · exact .inr ⟨_, hexchanged, by simp_all, if_neg hresult⟩

/-- A poll of all ports fails and writes nothing, or copies the ports' states. -/
theorem pollAll_cases (states : Bool) :
    (∃ d result, c.Exchanged d ∧ result < 0 ∧ c.pollAll sif states = (d, result, none)) ∨
      ∃ d, c.Exchanged d ∧ c.bound ∧ c.pollAll sif states =
        ((copyPorts (List.range portCount) d).1, 0,
          some (copyPorts (List.range portCount) d).2) := by
  rw [pollAll]
  split_ifs with hrefused
  · exact .inl ⟨c, -1, ⟨rfl, rfl⟩, by decide, rfl⟩
  · have hexchanged := c.padRpcCall_exchanged sif .poll ((1 : UInt32) <<< .ofNat portCount - 1)
    by_cases hresult :
        (c.padRpcCall sif .poll ((1 : UInt32) <<< .ofNat portCount - 1)).2 < 0
    · exact .inl ⟨_, _, hexchanged, hresult, if_pos hresult⟩
    · exact .inr ⟨_, hexchanged, by simp_all, if_neg hresult⟩

end Client

/-- The call is a poll of the port and slot. -/
def Call.Polls (port slot : ℕ) : Call → Prop
  | .pollSlot port' slot' _ => port' = port ∧ slot' = slot
  | .poll port' _ => port' = port ∧ slot = 0
  | .pollAll _ => port < portCount ∧ slot = 0
  | _ => False

/-- The part of the reply that a poll copies for a port. -/
def Call.source (port : ℕ) (reply : Reply) : Call → PortState
  | .pollAll _ => reply.port port
  | _ => reply.slotState

section Calls

variable {c : Client} (sif : Sif)

theorem Client.Fresh.of_exchanged (h : c.Fresh) {d : Client} (hd : c.Exchanged d) : d.Fresh := by
  intro hb
  rw [hd.1]
  exact h (hd.2.symm.trans hb)

/-- A call that exchanges and writes nothing. -/
theorem copies_of_exchanged (h : c.Fresh) {d : Client} (hd : c.Exchanged d) :
    Copies c d [] ∧ d.Fresh :=
  ⟨.nil hd.1, h.of_exchanged hd⟩

theorem pollSlot_copies (h : c.Fresh) (port slot : ℕ) (state : Bool) :
    let r := Return.ofSlot port slot (c.pollSlot sif port slot state)
    (Copies c r.client r.reports ∧ r.client.Fresh) ∧ (r.result < 0 → r.reports = []) := by
  obtain ⟨d, result, hd, -, hpoll⟩ | ⟨d, hd, hbound, hpoll⟩ :=
    c.pollSlot_cases sif port slot state <;> rw [hpoll]
  · exact ⟨copies_of_exchanged h hd, fun _ => rfl⟩
  · exact ⟨⟨.of_previousButtons hd.1 (.cons port slot _ (.nil rfl)),
      .of_bound (hd.2.trans hbound)⟩, fun hneg => absurd hneg (Int.lt_irrefl 0)⟩

theorem pollAll_copies (h : c.Fresh) (states : Bool) :
    let r := Return.ofPorts (c.pollAll sif states)
    (Copies c r.client r.reports ∧ r.client.Fresh) ∧ (r.result < 0 → r.reports = []) := by
  obtain ⟨d, result, hd, -, hpoll⟩ | ⟨d, hd, hbound, hpoll⟩ :=
    c.pollAll_cases sif states <;> rw [hpoll]
  · exact ⟨copies_of_exchanged h hd, fun _ => rfl⟩
  · exact ⟨⟨.of_previousButtons hd.1 (d.copyPorts_copies _),
      .of_bound ((d.copyPorts_bound _).trans (hd.2.trans hbound))⟩,
      fun hneg => absurd hneg (Int.lt_irrefl 0)⟩

/-- Every call writes copies, and none if it fails. -/
theorem call_copies (h : c.Fresh) (call : Call) :
    (Copies c (c.call sif call).client (c.call sif call).reports ∧
      (c.call sif call).client.Fresh) ∧
      ((c.call sif call).result < 0 → (c.call sif call).reports = []) := by
  cases call with
  | init l =>
    exact ⟨⟨.nil (Client.init_previousButtons sif h l), Client.init_fresh sif h l⟩, fun _ => rfl⟩
  | refreshTopology =>
    exact ⟨copies_of_exchanged h (c.refreshTopology_exchanged sif), fun _ => rfl⟩
  | getSlotCount port slotCount => exact ⟨⟨.nil rfl, h⟩, fun _ => rfl⟩
  | pollSlot port slot state => exact pollSlot_copies sif h port slot state
  | poll port state => exact pollSlot_copies sif h port 0 state
  | pollAll states => exact pollAll_copies sif h states
  | setRumbleSlot port slot small large =>
    exact ⟨copies_of_exchanged h (c.setRumbleSlot_exchanged sif port slot small large),
      fun _ => rfl⟩
  | stopRumbleSlot port slot =>
    exact ⟨copies_of_exchanged h (c.setRumbleSlot_exchanged sif port slot 0 0), fun _ => rfl⟩
  | setRumble port small large =>
    exact ⟨copies_of_exchanged h (c.setRumbleSlot_exchanged sif port 0 small large), fun _ => rfl⟩
  | stopRumble port =>
    exact ⟨copies_of_exchanged h (c.setRumbleSlot_exchanged sif port 0 0 0), fun _ => rfl⟩

/-- A call that writes no state of a port and slot keeps what is on record for them. -/
theorem call_keeps (h : c.Fresh) (call : Call) (port slot : ℕ)
    (hnone : statesOf port slot (c.call sif call).reports = []) :
    (c.call sif call).client.previousButtons port slot = c.previousButtons port slot := by
  have hrecord := ((call_copies sif h call).1.1.follow port slot).2
  rwa [hnone] at hrecord

/-- A poll that succeeds writes the state of each of its ports and slots once. -/
theorem call_polls (call : Call) (port slot : ℕ) (hpolls : call.Polls port slot)
    (hresult : 0 ≤ (c.call sif call).result) :
    (statesOf port slot (c.call sif call).reports).map PadState.buttons =
      [(call.source port (c.call sif call).client.reply).held] := by
  have hslot (port slot : ℕ) (state : Bool)
      (hresult : 0 ≤ (c.call sif (.pollSlot port slot state)).result) :
      (statesOf port slot (c.call sif (.pollSlot port slot state)).reports).map
          PadState.buttons =
        [(c.call sif (.pollSlot port slot state)).client.reply.slotState.held] := by
    obtain ⟨d, result, -, hneg, hpoll⟩ | ⟨d, -, -, hpoll⟩ :=
      c.pollSlot_cases sif port slot state <;>
      simp only [Client.call, hpoll, Return.ofSlot] at hresult ⊢
    · exact absurd hresult (Int.not_le.2 hneg)
    · simp only [Option.toList_some, List.map_cons, List.map_nil, statesOf_cons, and_self,
        if_true]
      rfl
  cases call with
  | pollSlot port' slot' state =>
    obtain ⟨rfl, rfl⟩ := hpolls
    exact hslot port' slot' state hresult
  | poll port' state =>
    obtain ⟨rfl, rfl⟩ := hpolls
    exact hslot port' 0 state hresult
  | pollAll states =>
    obtain ⟨hport, rfl⟩ := hpolls
    obtain ⟨d, result, -, hneg, hpoll⟩ | ⟨d, -, -, hpoll⟩ := c.pollAll_cases sif states <;>
      simp only [Client.call, hpoll, Return.ofPorts] at hresult ⊢
    · exact absurd hresult (Int.not_le.2 hneg)
    · have hport : port < 2 := hport
      obtain rfl | rfl : port = 0 ∨ port = 1 := by omega
      · rfl
      · rfl
  | _ => exact hpolls.elim

/-- A call writes states only for the ports and slots it polls. -/
theorem call_of_not_polls (call : Call) (port slot : ℕ) (hpolls : ¬call.Polls port slot) :
    statesOf port slot (c.call sif call).reports = [] := by
  have hslot (port' slot' : ℕ) (state : Bool) (hne : ¬(port' = port ∧ slot' = slot)) :
      statesOf port slot (c.call sif (.pollSlot port' slot' state)).reports = [] := by
    obtain ⟨d, result, -, hneg, hpoll⟩ | ⟨d, -, -, hpoll⟩ :=
      c.pollSlot_cases sif port' slot' state <;>
      simp only [Client.call, hpoll, Return.ofSlot]
    · rfl
    · simp only [Option.toList_some, List.map_cons, List.map_nil, statesOf_cons, if_neg hne]
      rfl
  cases call with
  | pollSlot port' slot' state => exact hslot port' slot' state hpolls
  | poll port' state => exact hslot port' 0 state fun h => hpolls ⟨h.1, h.2.symm⟩
  | pollAll states =>
    obtain ⟨d, result, -, hneg, hpoll⟩ | ⟨d, -, -, hpoll⟩ := c.pollAll_cases sif states <;>
      simp only [Client.call, hpoll, Return.ofPorts]
    · rfl
    · change statesOf port slot [⟨0, 0, _⟩, ⟨1, 0, _⟩] = []
      rw [statesOf_cons, if_neg, statesOf_cons, if_neg]
      · rfl
      · exact fun h => hpolls ⟨h.1 ▸ Nat.one_lt_two, h.2.symm⟩
      · exact fun h => hpolls ⟨h.1 ▸ Nat.zero_lt_two, h.2.symm⟩
  | _ => rfl

end Calls

/-! ## Runs -/

theorem runClient_fresh {c : Client} (h : c.Fresh) (calls : List (Sif × Call)) :
    (runClient c calls).Fresh := by
  induction calls generalizing c with
  | nil => exact h
  | cons call calls ih => exact ih (call_copies call.1 h call.2).1.2

/-- The states that a run writes for a port and slot follow one another from what is on
record before it, and the last one is on record after it. -/
theorem follow_runReports {c : Client} (h : c.Fresh) (calls : List (Sif × Call)) (port slot : ℕ) :
    Follow (c.previousButtons port slot)
        ((statesOf port slot (runReports c calls)).map PadState.sample) ∧
      (runClient c calls).previousButtons port slot = levelAfter (c.previousButtons port slot)
        ((statesOf port slot (runReports c calls)).map PadState.sample) := by
  induction calls generalizing c with
  | nil => exact ⟨trivial, rfl⟩
  | cons call calls ih =>
    obtain ⟨⟨hcopies, hfresh⟩, -⟩ := call_copies call.1 h call.2
    obtain ⟨hcall, hrecord⟩ := hcopies.follow port slot
    obtain ⟨hrest, hlast⟩ := ih hfresh
    rw [runReports, statesOf_append, List.map_append]
    refine ⟨Edges.follow_append.2 ⟨hcall, hrecord ▸ hrest⟩, ?_⟩
    rw [Edges.levelAfter_append, ← hrecord]
    exact hlast

/-- The buttons of the last of some states; none before the first. -/
def heldAfter (states : List PadState) : BitVec 32 :=
  (states.getLast?.map PadState.buttons).getD 0

theorem heldAfter_eq (states : List PadState) :
    heldAfter states = levelAfter 0 (states.map PadState.sample) := by
  rw [heldAfter, levelAfter, List.getLast?_map, Option.map_map]
  rfl

/-- The presses (`rise`) and releases (`fall`) of a button among states. -/
def events (button : ℕ) (states : List PadState) : List Edge :=
  Edges.edges button (states.map PadState.sample)

/-- What the states reported one after the other for a port and slot say of its buttons. -/
structure EdgesOf (states : List PadState) : Prop where
  disjoint : ∀ s ∈ states, s.pressed &&& s.released = 0
  buttons : ∀ before s after, states = before ++ s :: after →
    s.buttons = heldAfter before &&& ~~~s.released ||| s.pressed
  edges : ∀ before s after, states = before ++ s :: after →
    s.pressed = s.buttons &&& ~~~heldAfter before ∧
      s.released = heldAfter before &&& ~~~s.buttons
  starts : ∀ button < 32, ∀ e ∈ (events button states).head?, e = .rise
  alternate : ∀ button < 32, (events button states).IsChain (· ≠ ·)
  fold : states.foldl (fun held s => held &&& ~~~s.released ||| s.pressed) 0 = heldAfter states

theorem edgesOf_of_follow {states : List PadState}
    (h : Follow 0 (states.map PadState.sample)) : EdgesOf states := by
  have hsample (before : List PadState) (s : PadState) (after : List PadState)
      (hs : states = before ++ s :: after) :
      s.sample = Sample.after (heldAfter before) s.buttons := by
    rw [heldAfter_eq]
    rw [hs, List.map_append, List.map_cons] at h
    exact h.sample
  have hedges (before : List PadState) (s : PadState) (after : List PadState)
      (hs : states = before ++ s :: after) :
      s.pressed = s.buttons &&& ~~~heldAfter before ∧
        s.released = heldAfter before &&& ~~~s.buttons :=
    ⟨congrArg Sample.rising (hsample before s after hs),
      congrArg Sample.falling (hsample before s after hs)⟩
  have halternate (button : ℕ) (hb : button < 32) :
      Edges.Alternate false (events button states) := by
    simpa only [events, BitVec.ofNat_eq_ofNat, BitVec.getLsbD_zero] using h.alternate hb
  refine ⟨fun s hs => ?_, fun before s after hs => ?_, hedges,
    fun button hb e he => (halternate button hb).head he,
    fun button hb => (halternate button hb).isChain, ?_⟩
  · obtain ⟨before, after, hs⟩ := List.append_of_mem hs
    obtain ⟨hpressed, hreleased⟩ := hedges before s after hs
    rw [hpressed, hreleased]
    exact Sample.after_disjoint _ _
  · obtain ⟨hpressed, hreleased⟩ := hedges before s after hs
    rw [hpressed, hreleased]
    exact (Sample.after_apply _ _).symm
  · rw [heldAfter_eq, ← h.fold, List.foldl_map]
    rfl

/-- What one call does to a port and slot. -/
structure CallOf (c : Client) (sif : Sif) (call : Call) (port slot : ℕ) : Prop where
  failed : (c.call sif call).result < 0 →
    (c.call sif call).reports = [] ∧ (c.call sif call).client.previousButtons = c.previousButtons
  polled : call.Polls port slot → 0 ≤ (c.call sif call).result →
    (statesOf port slot (c.call sif call).reports).map PadState.buttons =
      [(call.source port (c.call sif call).client.reply).held]
  other : ¬call.Polls port slot → statesOf port slot (c.call sif call).reports = [] ∧
    (c.call sif call).client.previousButtons port slot = c.previousButtons port slot

theorem callOf_of_fresh {c : Client} (h : c.Fresh) (sif : Sif) (call : Call) (port slot : ℕ) :
    CallOf c sif call port slot := by
  refine ⟨fun hfailed => ?_, call_polls sif call port slot, fun hpolls => ?_⟩
  · have hreports := (call_copies sif h call).2 hfailed
    refine ⟨hreports, ?_⟩
    funext port slot
    exact call_keeps sif h call port slot (by rw [hreports]; rfl)
  · have hnone := call_of_not_polls (c := c) sif call port slot hpolls
    exact ⟨hnone, call_keeps sif h call port slot hnone⟩

/-- Over every run of the client, the states reported for a port and slot carry edges that
alternate from a press on and fold to the held buttons, and each next call reports what it
polls, nothing if it fails, and touches no other slot. -/
theorem polls_edges (calls : List (Sif × Call)) (port slot : ℕ) :
    EdgesOf (statesOf port slot (runReports boot calls)) ∧
      ∀ sif call, CallOf (runClient boot calls) sif call port slot := by
  have hboot : boot.Fresh := fun _ => rfl
  exact ⟨edgesOf_of_follow (follow_runReports hboot calls port slot).1,
    fun sif call => callOf_of_fresh (runClient_fresh hboot calls) sif call port slot⟩

end EF2SDK.Pad
