import EF2SDK.Sio2

/-!
# Every transfer ends

A thread that is inside always has a next statement, and `Pc.left` bounds the statements it still
has : the drain ends with the semaphore's count, the wait with `EF2_SIO2_TIMEOUT_POLLS`. So no
call is ever stuck : whatever has happened, the threads' own steps bring it to its return, without
any answer of the device (`calls_end`).
-/

set_option autoImplicit false

namespace EF2SDK.Sio2

open IopPad (Command)

variable {n : ℕ} {s t : State n}

/-! ## One thread -/

/-- A bound of the statements to the return, from inside. -/
def Pc.left (irqSema : ℕ) : Pc → ℕ
  | .drain c => irqSema + 2 * c.size + timeoutPolls + 8
  | .program c => 2 * c.size + timeoutPolls + 7
  | .feed c k => c.size - k + c.size + timeoutPolls + 6
  | .poll c _ k => timeoutPolls - k + c.size + 4
  | .collect c _ => c.size + 3
  | .read c _ r => c.size - r.output.length + 2
  | .release _ _ => 1
  | .idle | .acquire _ | .returned _ _ => 0

/-- A call that has returned. -/
def Pc.Returned : Pc → Prop
  | .returned _ _ => True
  | _ => False

/-- The next statement of a thread inside. -/
structure Advances (s : State n) (i : Fin n) (t : State n) : Prop where
  next : s.thread i = some t
  command : (t.threads i).command = (s.threads i).command
  inside : (t.threads i).Inside ∨ (t.threads i).Returned
  others : ∀ j, j ≠ i → t.threads j = s.threads j
  left : (t.threads i).left t.irqSema < (s.threads i).left s.irqSema

theorem exists_thread {i : Fin n} (hin : (s.threads i).Inside) : ∃ t, s.thread i = some t := by
  rw [State.thread]
  cases hpc : s.threads i with
  | idle | acquire c | returned c r =>
    rw [hpc] at hin
    exact hin.elim
  | drain c | program c | feed c k | poll c id k | collect c id | read c id r | release c r =>
    exact ⟨_, rfl⟩

theorem Statement.left_lt {u : State n} {pc pc' : Pc} (h : Statement s pc u pc')
    (hin : pc.Inside) : pc'.left u.irqSema < pc.left s.irqSema := by
  cases h with
  | acquire => exact hin.elim
  | read hlt =>
    dsimp only [Pc.left]
    rw [List.length_append, List.length_singleton]
    omega
  | collect =>
    dsimp only [Pc.left, Answer.reply]
    omega
  | discard | drained | program | feed | start | completed | wait | expire | finish | release =>
    dsimp only [Pc.left]
    omega

theorem Statement.inside {u : State n} {pc pc' : Pc} (h : Statement s pc u pc') :
    pc'.command = pc.command ∧ (pc'.Inside ∨ pc'.Returned) := by
  cases h with
  | release => exact ⟨rfl, Or.inr trivial⟩
  | acquire | discard | drained | program | feed | start | completed | wait | expire | collect
  | read | finish => exact ⟨rfl, Or.inl trivial⟩

theorem exists_advances {i : Fin n} (hin : (s.threads i).Inside) : ∃ t, Advances s i t := by
  obtain ⟨t, hnext⟩ := exists_thread hin
  obtain ⟨u, pc, hstatement, rfl⟩ := thread_cases hnext
  obtain ⟨hcommand, hinside⟩ := hstatement.inside
  refine ⟨_, hnext, ?_, ?_, fun j hj => ?_, ?_⟩
  · rwa [goto_self]
  · rwa [goto_self]
  · rw [goto_of_ne u hj, hstatement.threads]
  · rw [goto_self]
    exact hstatement.left_lt hin

theorem eq_returned {pc : Pc} {c : Command} (h : pc.Returned) (hcommand : pc.command = some c) :
    ∃ r, pc = .returned c r := by
  cases pc with
  | returned c' r =>
    obtain rfl := Option.some.inj hcommand
    exact ⟨r, rfl⟩
  | idle => exact h.elim
  | acquire c | drain c | program c | feed c k | poll c id k | collect c id => exact h.elim
  | read c id r | release c r => exact h.elim

/-- The thread inside, left alone, comes to its return. -/
theorem inside_ends {i : Fin n} {c : Command} (hin : (s.threads i).Inside)
    (hcommand : (s.threads i).command = some c) :
    ∃ k t r, Schedule.run next s (List.replicate k (.thread i)) = some t
      ∧ t.threads i = .returned c r ∧ ∀ j, j ≠ i → t.threads j = s.threads j := by
  induction hleft : (s.threads i).left s.irqSema using Nat.strongRecOn generalizing s with
  | _ left ih =>
  obtain ⟨u, hu⟩ := exists_advances hin
  have hcommand' : (u.threads i).command = some c := hu.command.trans hcommand
  rcases hu.inside with hin' | hreturned
  · obtain ⟨k, t, r, hrun, hpc, hothers⟩ := ih _ (hleft ▸ hu.left) hin' hcommand' rfl
    refine ⟨k + 1, t, r, ?_, hpc, fun j hj => (hothers j hj).trans (hu.others j hj)⟩
    rw [List.replicate_succ, Schedule.run_cons]
    exact (congrArg (Option.bind · _) hu.next).trans hrun
  · obtain ⟨r, hpc⟩ := eq_returned hreturned hcommand'
    exact ⟨1, u, r, (Schedule.run_singleton s _).trans hu.next, hpc, hu.others⟩

/-! ## All threads -/

/-- Where the permit is free, a call that waits for it comes to its return. -/
theorem acquire_ends {i : Fin n} {c : Command} (hpc : s.threads i = .acquire c)
    (hfree : 0 < s.transferSema) :
    ∃ k t r, Schedule.run next s (List.replicate k (.thread i)) = some t
      ∧ t.threads i = .returned c r := by
  have hnext : next s (.thread i) =
      some ({ s with transferSema := s.transferSema - 1 }.goto i (.drain c)) := by
    rw [next, State.thread, hpc]
    exact if_pos hfree
  obtain ⟨k, t, r, hrun, hreturned, -⟩ := inside_ends
    (s := { s with transferSema := s.transferSema - 1 }.goto i (.drain c)) (i := i) (c := c)
    (by rw [goto_self]; trivial) (by rw [goto_self]; rfl)
  refine ⟨k + 1, t, r, ?_, hreturned⟩
  rw [List.replicate_succ, Schedule.run_cons, hnext]
  exact hrun

theorem exists_command {pc : Pc} (hin : pc.Inside) : ∃ c, pc.command = some c := by
  cases pc with
  | idle | acquire c | returned c r => exact hin.elim
  | drain c | program c | feed c k | poll c id k | collect c id | read c id r | release c r =>
    exact ⟨c, rfl⟩

/-- No call is stuck : from every state that a run reaches, steps of the threads alone bring a
call to its return. -/
theorem calls_end (choices : List (Choice n))
    (hrun : Schedule.run next (boot n) choices = some s) (i : Fin n) (c : Command)
    (hcommand : (s.threads i).command = some c) :
    ∃ steps t r, Schedule.run next s (List.map .thread steps) = some t
      ∧ t.threads i = .returned c r := by
  have hwhole : Whole s := Whole.of_boot.of_run hrun
  cases hpc : s.threads i with
  | idle =>
    rw [hpc] at hcommand
    cases hcommand
  | returned c' r =>
    rw [hpc] at hcommand
    obtain rfl := Option.some.inj hcommand
    exact ⟨[], s, r, rfl, hpc⟩
  | acquire c' =>
    rw [hpc] at hcommand
    obtain rfl := Option.some.inj hcommand
    by_cases hfree : 0 < s.transferSema
    · obtain ⟨k, t, r, hsteps, hreturned⟩ := acquire_ends hpc hfree
      exact ⟨List.replicate k i, t, r, by rwa [List.map_replicate], hreturned⟩
    · -- another thread is inside, and comes to its return first
      obtain ⟨j, hin⟩ := hwhole.guards.exists_inside hfree
      obtain ⟨c', hj⟩ := exists_command hin
      obtain ⟨k, u, r, hsteps, hreturned, hothers⟩ := inside_ends hin hj
      have hij : i ≠ j := by
        rintro rfl
        rw [hpc] at hin
        exact hin
      have hfree' : 0 < u.transferSema := by
        refine (hwhole.of_run hsteps).guards.free fun l => ?_
        by_cases hl : l = j
        · rw [hl, hreturned]
          exact id
        · rw [hothers l hl]
          exact hwhole.guards.outside hin hl
      obtain ⟨k', t, r', hsteps', hreturned'⟩ :=
        acquire_ends ((hothers i hij).trans hpc) hfree'
      refine ⟨List.replicate k j ++ List.replicate k' i, t, r', ?_, hreturned'⟩
      rw [List.map_append, List.map_replicate, List.map_replicate, Schedule.run_append hsteps,
        hsteps']
  | drain c' | program c' | feed c' k | poll c' id k | collect c' id | read c' id r
  | release c' r =>
    obtain ⟨k, t, r, hsteps, hreturned, -⟩ := inside_ends (hpc ▸ trivial) hcommand
    exact ⟨List.replicate k i, t, r, by rwa [List.map_replicate], hreturned⟩

/-- A thread that waits for the one inside. -/
theorem calls_end_waiting : ∃ s,
    Schedule.run next (boot 2) [.call 0 pollByte, .call 1 pollByte, .thread 0] = some s
    ∧ ∃ steps t r, Schedule.run next s (List.map .thread steps) = some t
      ∧ t.threads 1 = .returned pollByte r :=
  ⟨_, rfl, calls_end [.call 0 pollByte, .call 1 pollByte, .thread 0] rfl 1 pollByte rfl⟩

end EF2SDK.Sio2
