import EF2SDK.GifDma
import EF2SDK.Words
import Mathlib.Tactic.SplitIfs

/-!
# What the statistics say about the transfers

Of the calls, only the counted transfers and the channel matter (`Ledger`). A wait that succeeds
finds the channel idle and counts the transfer that was active; a transfer is only started after
such a wait (`Moves`, `exec_moves`).

So a completion is counted for the last transfer that was started, after the channel became idle,
and for no transfer twice (`Orderly`). Between two resets, at which no transfer is active, a
completion belongs to one of the counted submissions (`Balanced`).
-/

set_option autoImplicit false

namespace EF2SDK.GifDma

/-! ## The ledger -/

/-- What the statistics are about. -/
structure Ledger where
  active : Bool
  str : Bool
  submissions : UInt32
  completions : UInt32
  log : List Event

def Machine.ledger (m : Machine) : Ledger :=
  ⟨m.active, m.str, m.stats.submissions, m.stats.completions, m.log⟩

namespace Ledger

variable (v : Ledger)

/-- The channel is found idle. -/
def finish : Ledger :=
  if v.str then { v with str := false, log := v.log ++ [.idle] } else v

/-- The active transfer is counted as completed. -/
def complete : Ledger :=
  if v.active then
    { v with active := false, completions := v.completions + 1, log := v.log ++ [.completed] }
  else v

/-- A wait that succeeds. -/
def wait : Ledger :=
  v.finish.complete

def start : Ledger :=
  { v with
    active := true
    str := true
    submissions := v.submissions + 1
    log := v.log ++ [.started] }

def reset : Ledger :=
  { v with submissions := 0, completions := 0 }

@[simp] theorem finish_str : v.finish.str = false := by
  unfold finish
  split_ifs with h
  · rfl
  · exact Bool.eq_false_iff.2 h

@[simp] theorem complete_str : v.complete.str = v.str := by
  unfold complete
  split_ifs <;> rfl

@[simp] theorem complete_active : v.complete.active = false := by
  unfold complete
  split_ifs with h
  · rfl
  · exact Bool.eq_false_iff.2 h

theorem finish_of_idle (h : v.str = false) : v.finish = v :=
  if_neg (by rw [h]; decide)

theorem complete_of_inactive (h : v.active = false) : v.complete = v :=
  if_neg (by rw [h]; decide)

/-- After a wait there is nothing left for the next one. -/
theorem wait_wait : v.wait.wait = v.wait := by
  have hidle : v.wait.finish = v.wait := v.wait.finish_of_idle (by simp [wait])
  rw [wait, hidle, complete_of_inactive]
  exact v.finish.complete_active

end Ledger

/-! ## The calls -/

variable (hw : Hardware) {v : Ledger} {m : Machine}

/-- The ledger is `v`. -/
def At (v : Ledger) (m : Machine) : Prop :=
  m.ledger = v

theorem cpuCount_at : Triple (At v) (cpuCount hw) fun _ => At v :=
  fun _ hm => hm

theorem modifyStats_at {f : Stats → Stats}
    (hf : ∀ s, (f s).submissions = s.submissions ∧ (f s).completions = s.completions) :
    Triple (At v) (modifyStats f) fun _ => At v := by
  rintro m rfl
  show Ledger.mk m.active m.str (f m.stats).submissions (f m.stats).completions m.log = m.ledger
  rw [(hf m.stats).1, (hf m.stats).2]
  rfl

/-- A poll that finds the channel at work changes nothing. -/
theorem readStr_at :
    Triple (At v) (readStr hw) fun busy => At (if busy then v else v.finish) := by
  rintro m rfl
  by_cases hfinishes : m.str = true ∧ hw.finishes m.polls = true
  · have hread : readStr hw m =
        (false, { m with polls := m.polls + 1, str := false, log := m.log ++ [Event.idle] }) := by
      unfold readStr
      rw [bind_apply, get_apply, if_pos hfinishes]
      rfl
    rw [hread]
    exact (if_pos hfinishes.1).symm
  · have hread : readStr hw m = (m.str, { m with polls := m.polls + 1 }) := by
      unfold readStr
      rw [bind_apply, get_apply, if_neg hfinishes]
      rfl
    rw [hread]
    change m.ledger = if m.str = true then m.ledger else m.ledger.finish
    split_ifs with hstr
    · rfl
    · exact (m.ledger.finish_of_idle (Bool.eq_false_iff.2 hstr)).symm

theorem waitLoop_at (timeout : ℕ) :
    Triple (At v) (waitLoop hw timeout) fun idle => At (if idle then v.finish else v) := by
  induction timeout with
  | zero => exact Triple.pure fun _ hm => hm
  | succ timeout ih =>
    refine Triple.bind _ (readStr_at hw) fun busy => Triple.ite (fun hbusy => ?_) fun hidle => ?_
    · rw [if_pos hbusy]
      exact Triple.ite (fun _ => Triple.pure fun _ hm => hm) fun _ => ih
    · rw [if_neg hidle]
      exact Triple.pure fun _ hm => hm

/-- A wait leaves the ledger where it times out. -/
theorem dmaWait_at (timeout : UInt32) :
    Triple (At v) (dmaWait hw timeout) fun r => At (if r < 0 then v else v.wait) := by
  refine Triple.bind _ (cpuCount_at hw) fun _ =>
    Triple.bind _ (modifyStats_at fun _ => ⟨rfl, rfl⟩) fun _ =>
    Triple.bind _ (waitLoop_at hw _) fun idle => Triple.ite (fun hidle => ?_) fun htimeout => ?_
  · rw [if_pos hidle]
    refine Triple.bind _ (cpuCount_at hw) fun now =>
      Triple.bind _ (modifyStats_at fun _ => ⟨rfl, rfl⟩) fun _ =>
      Triple.bind (fun _ => At v.wait) (Triple.modify ?_) fun _ => Triple.pure fun _ hm => hm
    intro m hm
    rw [Ledger.wait, ← hm]
    cases hactive : m.active with
    | true =>
      rw [if_pos rfl]
      exact (if_pos hactive).symm
    | false =>
      rw [if_neg (by decide)]
      exact (if_neg (by rw [show m.ledger.active = m.active from rfl, hactive]; decide)).symm
  · rw [if_neg htimeout]
    exact Triple.bind _ (cpuCount_at hw) fun _ =>
      Triple.bind _ (modifyStats_at fun _ => ⟨rfl, rfl⟩) fun _ => Triple.pure fun _ hm => hm

/-- Nothing, or a wait. -/
theorem dmaInit_at :
    Triple (At v) (dmaInit hw) fun _ m => m.ledger = v ∨ m.ledger = v.wait := by
  refine Triple.bind (fun _ => At v) (Triple.get fun _ hm => hm) fun m =>
    Triple.ite (fun _ => Triple.pure fun _ hm => Or.inl hm) fun _ =>
    Triple.bind _ (dmaWait_at hw _) fun r => Triple.ite (fun hr => ?_) fun hr => ?_
  · rw [if_pos hr]
    exact Triple.pure fun _ hm => Or.inl hm
  · rw [if_neg hr]
    refine Triple.bind (fun _ => At v.wait) (Triple.modify fun m hm => ?_) fun _ =>
      Triple.pure fun _ hm => Or.inr hm
    have hidle : v.wait.str = false := by simp [Ledger.wait]
    rw [← hm] at hidle ⊢
    show Ledger.mk m.active false m.stats.submissions m.stats.completions m.log = m.ledger
    rw [← show m.str = false from hidle]
    rfl

/-- The call may start a transfer. -/
def Call.submits : Call → Bool
  | submit _ _ => true
  | send _ _ => true
  | _ => false

/-- What a call other than a reset can do to the ledger. -/
inductive Moves (v : Ledger) : Ledger → Prop
  | stay : Moves v v
  | wait : Moves v v.wait
  | start : Moves v v.wait.start
  | sent : Moves v v.wait.start.wait

/-- A transfer is started after a wait that succeeded. -/
theorem submitQwords_at (packet count : UInt32) :
    Triple (At v) (submitQwords hw packet count) fun _ m =>
      m.ledger = v ∨ m.ledger = v.wait ∨ m.ledger = v.wait.start := by
  refine Triple.ite (fun _ => Triple.pure fun _ hm => Or.inl hm) fun _ =>
    Triple.ite (fun _ => Triple.pure fun _ hm => Or.inl hm) fun _ =>
    Triple.ite (fun _ => Triple.pure fun _ hm => Or.inl hm) fun _ =>
    Triple.ite (fun _ => Triple.pure fun _ hm => Or.inl hm) fun _ =>
    Triple.bind _ (dmaInit_at hw) fun _ =>
    Triple.ite (fun _ => Triple.pure fun _ hm => hm.imp_right Or.inl) fun _ =>
    Triple.bind (fun r m => if r < 0 then m.ledger = v ∨ m.ledger = v.wait else m.ledger = v.wait)
      ?_ fun _ => Triple.ite (fun hr => ?_) fun hr => ?_
  · rintro m (hm | hm)
    · have hwait : (dmaWait hw defaultTimeout m).2.ledger = _ := dmaWait_at hw _ m hm
      split_ifs with hr
      · exact Or.inl (hwait.trans (if_pos hr))
      · exact hwait.trans (if_neg hr)
    · have hwait : (dmaWait hw defaultTimeout m).2.ledger = _ := dmaWait_at hw _ m hm
      rw [v.wait_wait, ite_self] at hwait
      split_ifs
      · exact Or.inr hwait
      · exact hwait
  · simp only [if_pos hr]
    exact Triple.pure fun _ hm => hm.imp_right Or.inl
  · simp only [if_neg hr]
    refine Triple.bind (fun _ => At v.wait) (fun m hm => cpuCount_at hw m hm) fun now =>
      Triple.bind (fun _ => At v.wait.start) (Triple.modify fun m hm => ?_) fun _ =>
      Triple.pure fun _ hm => Or.inr (Or.inr hm)
    rw [← hm]
    rfl

theorem dmaWait_cases (timeout : UInt32) (m : Machine) :
    (dmaWait hw timeout m).2.ledger = m.ledger ∨
      (dmaWait hw timeout m).2.ledger = m.ledger.wait := by
  have hwait : (dmaWait hw timeout m).2.ledger = _ := dmaWait_at hw timeout m rfl
  rw [hwait]
  split_ifs
  · exact Or.inl rfl
  · exact Or.inr rfl

theorem sendQwords_at (packet count : UInt32) :
    Triple (At v) (sendQwords hw packet count) fun _ m => Moves v m.ledger := by
  refine Triple.bind _ (submitQwords_at hw packet count) fun _ =>
    Triple.ite (fun _ => ?_) fun _ => ?_
  · refine Triple.pure fun m hm => ?_
    obtain hm | hm | hm := hm <;> rw [hm]
    · exact .stay
    · exact .wait
    · exact .start
  · intro m hm
    obtain hwait | hwait := dmaWait_cases hw defaultTimeout m
    · rw [hwait]
      obtain hm | hm | hm := hm <;> rw [hm]
      · exact .stay
      · exact .wait
      · exact .start
    · rw [hwait]
      obtain hm | hm | hm := hm <;> rw [hm]
      · exact .wait
      · rw [v.wait_wait]
        exact .wait
      · exact .sent

/-- The calls that start no transfer, and are not resets. -/
theorem exec_waits {call : Call} (hsubmits : call.submits = false) (hreset : call ≠ .resetStats) :
    (exec hw m call).ledger = m.ledger ∨ (exec hw m call).ledger = m.ledger.wait := by
  cases call with
  | init => exact dmaInit_at hw m rfl
  | submit packet count => exact nomatch hsubmits
  | send packet count => exact nomatch hsubmits
  | wait timeout => exact dmaWait_cases hw timeout m
  | resetStats => exact absurd rfl hreset
  | getStats stats =>
    cases stats with
    | none => exact Or.inl rfl
    | some _ => exact Or.inl rfl

/-- The calls that are not resets. -/
theorem exec_moves {call : Call} (h : call ≠ .resetStats) :
    Moves m.ledger (exec hw m call).ledger := by
  cases hsubmits : call.submits with
  | false =>
    obtain hm | hm := exec_waits hw (m := m) hsubmits h
    · exact hm ▸ .stay
    · exact hm ▸ .wait
  | true =>
    cases call with
    | submit packet count =>
      obtain hm | hm | hm : _ ∨ _ ∨ _ := submitQwords_at hw packet count m rfl
      · exact hm ▸ .stay
      · exact hm ▸ .wait
      · exact hm ▸ .start
    | send packet count => exact sendQwords_at hw packet count m rfl
    | _ => exact nomatch hsubmits

theorem exec_reset : (exec hw m .resetStats).ledger = m.ledger.reset := by
  have hreset : Triple (At m.ledger) (resetStats hw) fun _ => At m.ledger.reset := by
    refine Triple.bind (fun _ => At m.ledger.reset) (fun m' hm => ?_) fun _ =>
      Triple.bind (fun _ => At m.ledger.reset) (Triple.get fun _ hm => hm) fun m' =>
      Triple.ite (fun _ => Triple.bind _ (cpuCount_at hw) fun _ => Triple.modify fun _ hm => hm)
        fun _ => Triple.pure fun _ hm => hm
    show Ledger.mk m'.active m'.str 0 0 m'.log = m.ledger.reset
    rw [← hm]
    rfl
  exact hreset m rfl

/-! ## Orderly transfers -/

/-- Each completion that is counted belongs to the last transfer that was started before it, after
which the channel became idle and no other completion was counted. -/
def Orderly (log : List Event) : Prop :=
  ∀ l r, log = l ++ .completed :: r →
    ∃ a b, l = a ++ .started :: b ∧ .idle ∈ b ∧ .started ∉ b ∧ .completed ∉ b

/-- The log is orderly, and ends with the active transfer, which the channel is idle after once STR
is clear. -/
structure Inv (v : Ledger) : Prop where
  orderly : Orderly v.log
  active : v.active = true → ∃ a b, v.log = a ++ .started :: b ∧
    (v.str = false → .idle ∈ b) ∧ .started ∉ b ∧ .completed ∉ b

theorem Orderly.concat {log : List Event} {e : Event} (h : Orderly log)
    (he : e = .completed → ∃ a b, log = a ++ .started :: b ∧ .idle ∈ b ∧ .started ∉ b ∧
      .completed ∉ b) : Orderly (log ++ [e]) := by
  intro l r hlog
  rcases List.eq_nil_or_concat r with rfl | ⟨r, e', rfl⟩
  · obtain ⟨rfl, hlast⟩ := List.append_inj' hlog rfl
    exact he (List.singleton_inj.1 hlast)
  · rw [List.concat_eq_append, ← List.cons_append, ← List.append_assoc] at hlog
    exact h l r (List.append_inj' hlog rfl).1

theorem Inv.finish (h : Inv v) : Inv v.finish := by
  unfold Ledger.finish
  split_ifs
  · refine ⟨h.orderly.concat (fun he => nomatch he), fun hactive => ?_⟩
    obtain ⟨a, b, hlog, -, hstarted, hcompleted⟩ := h.active hactive
    refine ⟨a, b ++ [.idle], ?_, fun _ => by simp, ?_, ?_⟩
    · simp [hlog]
    · simpa using hstarted
    · simpa using hcompleted
  · exact h

theorem Inv.complete (h : Inv v) (hidle : v.str = false) : Inv v.complete := by
  unfold Ledger.complete
  split_ifs with hactive
  · refine ⟨h.orderly.concat fun _ => ?_, fun hfalse => nomatch hfalse⟩
    obtain ⟨a, b, hlog, hb, hrest⟩ := h.active hactive
    exact ⟨a, b, hlog, hb hidle, hrest⟩
  · exact h

theorem Inv.wait (h : Inv v) : Inv v.wait :=
  h.finish.complete v.finish_str

theorem Inv.start (h : Inv v) : Inv v.start :=
  ⟨h.orderly.concat (fun he => nomatch he), fun _ =>
    ⟨v.log, [], rfl, (fun hfalse => nomatch hfalse), List.not_mem_nil, List.not_mem_nil⟩⟩

theorem Inv.moves {v' : Ledger} (h : Inv v) (hv : Moves v v') : Inv v' := by
  cases hv with
  | stay => exact h
  | wait => exact h.wait
  | start => exact h.wait.start
  | sent => exact h.wait.start.wait

theorem Inv.exec (h : Inv m.ledger) (call : Call) : Inv (exec hw m call).ledger := by
  by_cases hreset : call = .resetStats
  · rw [hreset, exec_reset hw]
    exact ⟨h.orderly, h.active⟩
  · exact h.moves (exec_moves hw hreset)

/-! ## The counts -/

/-- The events that were added are counted, one by one. -/
def Counts (v v' : Ledger) : Prop :=
  ∃ l, v'.log = v.log ++ l ∧ v'.submissions = v.submissions + .ofNat (l.count .started) ∧
    v'.completions = v.completions + .ofNat (l.count .completed)

theorem Counts.refl (v : Ledger) : Counts v v :=
  ⟨[], by simp, by simp, by simp⟩

theorem Counts.trans {v' v'' : Ledger} (h : Counts v v') (h' : Counts v' v'') : Counts v v'' := by
  obtain ⟨l, hlog, hsub, hcomp⟩ := h
  obtain ⟨l', hlog', hsub', hcomp'⟩ := h'
  refine ⟨l ++ l', ?_, ?_, ?_⟩
  · rw [hlog', hlog, List.append_assoc]
  · rw [hsub', hsub, List.count_append, UInt32.ofNat_add, UInt32.add_assoc]
  · rw [hcomp', hcomp, List.count_append, UInt32.ofNat_add, UInt32.add_assoc]

theorem counts_wait (v : Ledger) : Counts v v.wait := by
  have hfinish : Counts v v.finish := by
    unfold Ledger.finish
    split_ifs
    · exact ⟨[.idle], rfl, by simp, by simp⟩
    · exact Counts.refl v
  refine hfinish.trans ?_
  unfold Ledger.wait Ledger.complete
  split_ifs
  · exact ⟨[.completed], rfl, by simp, rfl⟩
  · exact Counts.refl _

theorem counts_start (v : Ledger) : Counts v v.start :=
  ⟨[.started], rfl, rfl, by simp [Ledger.start]⟩

theorem counts_moves {v' : Ledger} (hv : Moves v v') : Counts v v' := by
  cases hv with
  | stay => exact Counts.refl v
  | wait => exact counts_wait v
  | start => exact (counts_wait v).trans (counts_start _)
  | sent => exact ((counts_wait v).trans (counts_start _)).trans (counts_wait _)

/-- Every submission but the active one is completed. -/
def Balanced (v : Ledger) : Prop :=
  v.submissions.toNat = v.completions.toNat + v.active.toNat

theorem Balanced.wait (h : Balanced v) : Balanced v.wait := by
  have hfinish : Balanced v.finish := by
    unfold Ledger.finish
    split_ifs
    · exact h
    · exact h
  unfold Ledger.wait Ledger.complete
  split_ifs with hactive
  · have hlt := v.finish.submissions.toNat_lt
    rw [Balanced, hactive] at hfinish
    rw [Bool.toNat_true] at hfinish
    show v.finish.submissions.toNat = (v.finish.completions + 1).toNat + 0
    rw [toNat_add_one (by omega)]
    exact hfinish
  · exact hfinish

theorem Balanced.start (h : Balanced v) (hactive : v.active = false)
    (hmax : v.submissions ≠ 0xFFFFFFFF) : Balanced v.start := by
  have hne : v.submissions.toNat ≠ 0xFFFFFFFF := fun heq => hmax (UInt32.toNat_inj.1 heq)
  have hlt := v.submissions.toNat_lt
  rw [Balanced, hactive, Bool.toNat_false] at h
  show (v.submissions + 1).toNat = v.completions.toNat + 1
  rw [toNat_add_one (by omega), h]

@[simp] theorem Ledger.wait_submissions (v : Ledger) : v.wait.submissions = v.submissions := by
  unfold wait complete finish
  split_ifs <;> rfl

@[simp] theorem Ledger.wait_active (v : Ledger) : v.wait.active = false :=
  v.finish.complete_active

theorem Balanced.moves {v' : Ledger} (h : Balanced v) (hv : Moves v v')
    (hmax : v.submissions ≠ 0xFFFFFFFF) : Balanced v' := by
  have hstart : Balanced v.wait.start := h.wait.start v.wait_active (by rwa [v.wait_submissions])
  cases hv with
  | stay => exact h
  | wait => exact h.wait
  | start => exact hstart
  | sent => exact hstart.wait

/-- The call does not reset the statistics while a transfer is active, nor start a transfer where
the number of submissions is the last of 32 bits. -/
def Steady (m : Machine) (call : Call) : Prop :=
  (call = .resetStats → m.active = false) ∧
    (call.submits = true → m.stats.submissions ≠ 0xFFFFFFFF)

theorem Balanced.exec {call : Call} (h : Balanced m.ledger) (hok : Steady m call) :
    Balanced (exec hw m call).ledger := by
  by_cases hreset : call = .resetStats
  · rw [hreset, exec_reset hw]
    show (0 : UInt32).toNat = (0 : UInt32).toNat + m.active.toNat
    rw [hok.1 hreset]
    rfl
  · cases hsubmits : call.submits with
    | false =>
      obtain hm | hm := exec_waits hw (m := m) hsubmits hreset
      · exact hm ▸ h
      · exact hm ▸ h.wait
    | true => exact h.moves (exec_moves hw hreset) (hok.2 hsubmits)

theorem Balanced.le (h : Balanced v) : v.completions ≤ v.submissions :=
  UInt32.le_iff_toNat_le.2 (h ▸ Nat.le_add_right _ _)

/-! ## Every run -/

theorem inv_boot (str : Bool) : Inv (boot str).ledger :=
  ⟨fun l r hlog => absurd hlog (by simp [boot, Machine.ledger]), fun hactive => nomatch hactive⟩

theorem balanced_boot (str : Bool) : Balanced (boot str).ledger :=
  rfl

/-- Every sequence of calls, whatever the hardware does. The log accounts for the counters, and each
completion in it belongs to the last transfer that was started, after which the channel became
idle and no other completion was counted. There are no more completions than submissions, in
every state of a run that is steady. -/
theorem transfers_counted (hw : Hardware) (str : Bool) (calls : List Call) :
    (∀ m, Schedule.run (next hw) (boot str) calls = some m → Orderly m.log ∧
      ∀ call, call ≠ .resetStats → Counts m.ledger (exec hw m call).ledger) ∧
    (Schedule.Meets (next hw) Steady (boot str) calls →
      Schedule.Always (next hw) (fun m => m.stats.completions ≤ m.stats.submissions) (boot str)
        calls) := by
  constructor
  · intro m hrun
    have hstep : ∀ u call u', Inv (Machine.ledger u) → next hw u call = some u' →
        Inv u'.ledger := by
      intro u call u' hu hi
      obtain rfl := Option.some.inj hi
      exact hu.exec hw call
    have hinv : Inv m.ledger := Schedule.run_invariant_of_step hstep (inv_boot str) hrun
    exact ⟨hinv.orderly, fun call hreset => counts_moves (exec_moves hw hreset)⟩
  · refine Schedule.Meets.always (fun u call u' hu hok hi => ?_) (fun u hu => Balanced.le hu)
      (balanced_boot str)
    obtain rfl := Option.some.inj hi
    exact hu.exec hw hok

/-- The controller finishes at once. -/
def promptHardware : Hardware :=
  ⟨fun _ => true, fun _ => 0⟩

/-- The statistics are reset while a transfer is active, and a wait counts its completion. -/
def resetInFlight : List Call :=
  [.submit 0x100000 1, .resetStats, .wait 1]

theorem resetInFlight_unbalanced : ∃ m,
    Schedule.run (next promptHardware) (boot false) resetInFlight = some m ∧
      ¬m.stats.completions ≤ m.stats.submissions := by
  have hrun : (Schedule.run (next promptHardware) (boot false) resetInFlight).map (fun m =>
      (m.stats.submissions, m.stats.completions)) = some (0, 1) := by decide +kernel
  obtain ⟨m, hm, hstats⟩ := Option.map_eq_some_iff.1 hrun
  obtain ⟨hsubmissions, hcompletions⟩ := Prod.mk.inj hstats
  refine ⟨m, hm, ?_⟩
  rw [hsubmissions, hcompletions]
  decide

end EF2SDK.GifDma
