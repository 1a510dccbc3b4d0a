import Mathlib.Data.List.Basic

/-!
# Runs of a system under a schedule

A system is a step function `next : σ → ι → Option σ` : the choice `i` says which
party moves and how its environment answers, and `none` means that the choice is not
enabled. A run is a list of choices.

`run_invariant` is the induction every run property rests on : an invariant kept by the
steps that meet a condition holds after every run whose steps all meet it
(`Meets`). `run_weight` counts along a run : a measure that a step raises by its weight
ends at its start plus the weights of the run (`weight`), and a run of weight zero is
one whose steps all have weight zero (`weight_eq_zero_iff`).
-/

set_option autoImplicit false

namespace Schedule

variable {σ ι : Type*} (next : σ → ι → Option σ)

/-- The state after the choices of a list; `none` if one of them is not enabled. -/
def run : σ → List ι → Option σ
  | s, [] => some s
  | s, i :: is => (next s i).bind (run · is)

@[simp] theorem run_nil (s : σ) : run next s [] = some s :=
  rfl

theorem run_cons (s : σ) (i : ι) (is : List ι) :
    run next s (i :: is) = (next s i).bind (run next · is) :=
  rfl

variable {next}

theorem run_cons_eq_some {s s' : σ} {i : ι} {is : List ι} :
    run next s (i :: is) = some s' ↔ ∃ t, next s i = some t ∧ run next t is = some s' := by
  rw [run_cons, Option.bind_eq_some_iff]

theorem run_append {s t : σ} {is js : List ι} (h : run next s is = some t) :
    run next s (is ++ js) = run next t js := by
  induction is generalizing s with
  | nil =>
    obtain rfl := Option.some.inj h
    rfl
  | cons i is ih =>
    obtain ⟨u, hu, hrun⟩ := run_cons_eq_some.1 h
    rw [List.cons_append, run_cons, hu, Option.bind_some, ih hrun]

theorem run_singleton (s : σ) (i : ι) : run next s [i] = next s i := by
  rw [run_cons]
  cases next s i <;> rfl

/-- Where every choice is enabled, a run is a fold. -/
theorem run_some (step : σ → ι → σ) (s : σ) (is : List ι) :
    run (fun s i => some (step s i)) s is = some (is.foldl step s) := by
  induction is generalizing s with
  | nil => rfl
  | cons i is ih => exact ih (step s i)

/-- One choice made `k` times walks a sequence of states it steps along. -/
theorem run_replicate {i : ι} {g : ℕ → σ} {k : ℕ} (h : ∀ n < k, next (g n) i = some (g (n + 1))) :
    run next (g 0) (List.replicate k i) = some (g k) := by
  induction k with
  | zero => rfl
  | succ k ih =>
    rw [List.replicate_succ', run_append (ih fun n hn => h n (Nat.lt_succ_of_lt hn)),
      run_singleton, h k k.lt_succ_self]

/-! ## Conditions along a run -/

variable (next) in
/-- Every step of the run meets `ok`, a condition on the state before it and its choice. -/
def Meets (ok : σ → ι → Prop) : σ → List ι → Prop
  | _, [] => True
  | s, i :: is => ok s i ∧ ∀ t, next s i = some t → Meets ok t is

instance decidableMeets {ok : σ → ι → Prop} [∀ s i, Decidable (ok s i)] :
    ∀ (s : σ) (is : List ι), Decidable (Meets next ok s is)
  | _, [] => isTrue trivial
  | s, i :: is =>
    match h : next s i with
    | none => decidable_of_iff (ok s i) (by simp [Meets, h])
    | some t =>
      have : Decidable (Meets next ok t is) := decidableMeets t is
      decidable_of_iff (ok s i ∧ Meets next ok t is) (by simp [Meets, h])

theorem Meets.mono {ok ok' : σ → ι → Prop} (h : ∀ s i, ok s i → ok' s i) :
    ∀ {s : σ} {is : List ι}, Meets next ok s is → Meets next ok' s is
  | _, [], _ => trivial
  | _, _ :: _, hm => ⟨h _ _ hm.1, fun t ht => (hm.2 t ht).mono h⟩

/-- Choices that meet `ok` in every state. -/
theorem meets_of_forall {ok : σ → ι → Prop} {is : List ι} (h : ∀ i ∈ is, ∀ s, ok s i) (s : σ) :
    Meets next ok s is := by
  induction is generalizing s with
  | nil => trivial
  | cons i is ih =>
    obtain ⟨hi, his⟩ := List.forall_mem_cons.1 h
    exact ⟨hi s, fun t _ => ih his t⟩

theorem meets_true (s : σ) (is : List ι) : Meets next (fun _ _ => True) s is :=
  meets_of_forall (fun _ _ _ => trivial) s

/-- An invariant kept by the steps that meet `ok` holds after a run of such steps. -/
theorem run_invariant {ok : σ → ι → Prop} {Inv : σ → Prop}
    (hstep : ∀ s i t, Inv s → ok s i → next s i = some t → Inv t) {s s' : σ} {is : List ι}
    (hs : Inv s) (hm : Meets next ok s is) (h : run next s is = some s') : Inv s' := by
  induction is generalizing s with
  | nil =>
    obtain rfl := Option.some.inj h
    exact hs
  | cons i is ih =>
    obtain ⟨t, ht, hrun⟩ := run_cons_eq_some.1 h
    exact ih (hstep s i t hs hm.1 ht) (hm.2 t ht) hrun

/-- An invariant kept by every step holds after every run. -/
theorem run_invariant_of_step {Inv : σ → Prop}
    (hstep : ∀ s i t, Inv s → next s i = some t → Inv t) {s s' : σ} {is : List ι}
    (hs : Inv s) (h : run next s is = some s') : Inv s' :=
  run_invariant (fun s i t hi (_ : True) ht => hstep s i t hi ht) hs (meets_true s is) h

/-- Two conditions that agree under an invariant, which the steps that meet them keep. -/
theorem meets_congr {ok ok' : σ → ι → Prop} {Inv : σ → Prop}
    (hiff : ∀ s i, Inv s → (ok s i ↔ ok' s i))
    (hstep : ∀ s i t, Inv s → ok' s i → next s i = some t → Inv t) {s : σ} (hs : Inv s)
    (is : List ι) : Meets next ok s is ↔ Meets next ok' s is := by
  induction is generalizing s with
  | nil => exact Iff.rfl
  | cons i is ih =>
    rw [Meets, Meets, hiff s i hs]
    refine and_congr_right fun hok => forall_congr' fun t => forall_congr' fun ht => ?_
    exact ih (hstep s i t hs hok ht)

/-- A measure that every step changes as its choice says, under an invariant of the steps. -/
theorem run_foldl {β : Type*} {Inv : σ → Prop} {μ : σ → β} {f : β → ι → β}
    (hinv : ∀ s i t, Inv s → next s i = some t → Inv t)
    (hμ : ∀ s i t, Inv s → next s i = some t → μ t = f (μ s) i) {s s' : σ} {is : List ι}
    (hs : Inv s) (h : run next s is = some s') : μ s' = is.foldl f (μ s) := by
  induction is generalizing s with
  | nil =>
    obtain rfl := Option.some.inj h
    rfl
  | cons i is ih =>
    obtain ⟨t, ht, hrun⟩ := run_cons_eq_some.1 h
    rw [List.foldl_cons, ← hμ s i t hs ht]
    exact ih (hinv s i t hs ht) hrun

variable (next) in
/-- Every state the run visits satisfies `P`. -/
def Always (P : σ → Prop) : σ → List ι → Prop
  | s, [] => P s
  | s, i :: is => P s ∧ ∀ t, next s i = some t → Always P t is

/-- A property that an invariant implies, along a run whose steps keep the invariant. -/
theorem Meets.always {ok : σ → ι → Prop} {Inv P : σ → Prop}
    (hstep : ∀ s i t, Inv s → ok s i → next s i = some t → Inv t) (hP : ∀ s, Inv s → P s) {s : σ}
    {is : List ι} (hs : Inv s) (hm : Meets next ok s is) : Always next P s is := by
  induction is generalizing s with
  | nil => exact hP s hs
  | cons i is ih => exact ⟨hP s hs, fun t ht => ih (hstep s i t hs hm.1 ht) (hm.2 t ht)⟩

/-- A property of states that an invariant implies, where the invariant is kept by the steps
that meet `ok` and the others end the property : it holds along a run exactly when every step
of the run meets `ok`. -/
theorem always_iff_meets {ok : σ → ι → Prop} {Inv P : σ → Prop}
    (hstep : ∀ s i t, Inv s → ok s i → next s i = some t → Inv t) (hP : ∀ s, Inv s → P s)
    (hok : ∀ s i t, Inv s → next s i = some t → P t → ok s i) {s s' : σ} {is : List ι}
    (hs : Inv s) (h : run next s is = some s') : Always next P s is ↔ Meets next ok s is := by
  induction is generalizing s with
  | nil => exact ⟨fun _ => trivial, fun _ => hP s hs⟩
  | cons i is ih =>
    obtain ⟨t, ht, hrun⟩ := run_cons_eq_some.1 h
    have hnext : ∀ {Q : σ → Prop}, (∀ u, next s i = some u → Q u) ↔ Q t :=
      fun {Q} => ⟨fun hQ => hQ t ht, fun hQ u hu => Option.some.inj (ht.symm.trans hu) ▸ hQ⟩
    have hhead : Always next P t is → P t := by
      cases is with
      | nil => exact id
      | cons _ _ => exact And.left
    rw [Always, Meets, hnext, hnext]
    constructor
    · rintro ⟨-, hal⟩
      have hoki := hok s i t hs ht (hhead hal)
      exact ⟨hoki, (ih (hstep s i t hs hoki ht) hrun).1 hal⟩
    · rintro ⟨hoki, hm⟩
      exact ⟨hP s hs, (ih (hstep s i t hs hoki ht) hrun).2 hm⟩

/-! ## Counting along a run -/

variable (next) in
/-- The sum of the weights of the run's steps. -/
def weight (w : σ → ι → ℕ) : σ → List ι → ℕ
  | _, [] => 0
  | s, i :: is => w s i + ((next s i).map (weight w · is)).getD 0

theorem weight_cons {w : σ → ι → ℕ} {s t : σ} {i : ι} (is : List ι) (h : next s i = some t) :
    weight next w s (i :: is) = w s i + weight next w t is := by
  simp [weight, h]

/-- A measure that every step raises by its weight, under an invariant of the steps. -/
theorem run_weight {Inv : σ → Prop} {w : σ → ι → ℕ} {μ : σ → ℕ}
    (hinv : ∀ s i t, Inv s → next s i = some t → Inv t)
    (hμ : ∀ s i t, Inv s → next s i = some t → μ t = μ s + w s i) {s s' : σ} {is : List ι}
    (hs : Inv s) (h : run next s is = some s') : μ s' = μ s + weight next w s is := by
  induction is generalizing s with
  | nil =>
    obtain rfl := Option.some.inj h
    rfl
  | cons i is ih =>
    obtain ⟨t, ht, hrun⟩ := run_cons_eq_some.1 h
    rw [ih (hinv s i t hs ht) hrun, hμ s i t hs ht, weight_cons is ht, Nat.add_assoc]

/-- A run weighs nothing exactly when none of its steps does. -/
theorem weight_eq_zero_iff {w : σ → ι → ℕ} {s s' : σ} {is : List ι}
    (h : run next s is = some s') :
    weight next w s is = 0 ↔ Meets next (fun s i => w s i = 0) s is := by
  induction is generalizing s with
  | nil => exact ⟨fun _ => trivial, fun _ => rfl⟩
  | cons i is ih =>
    obtain ⟨t, ht, hrun⟩ := run_cons_eq_some.1 h
    rw [weight_cons is ht, Nat.add_eq_zero_iff, ih hrun]
    constructor
    · rintro ⟨hw, hm⟩
      exact ⟨hw, fun u hu => Option.some.inj (ht.symm.trans hu) ▸ hm⟩
    · rintro ⟨hw, hm⟩
      exact ⟨hw, hm t ht⟩

end Schedule
