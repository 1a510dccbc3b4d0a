import Mathlib.Order.Defs.Unbundled

/-!
# What a stateful computation can do to its state

A computation of the state monad `Steps` along a relation when it takes every state to a
related one. A `Triple` says what its result and its last state satisfy when its first state
satisfies a precondition. Both are proved along the computation : the rules follow `pure`,
`bind`, `get`, `modify` and the two branches of an `if`. A computation that steps along a
preorder keeps every upper set of it (`Steps.triple`).
-/

set_option autoImplicit false

namespace EF2SDK

variable {σ α β : Type} {R : σ → σ → Prop} {P : σ → Prop} {Q : α → σ → Prop}

/-- Wherever the computation starts, it ends in a related state. -/
def Steps (R : σ → σ → Prop) (x : StateM σ α) : Prop :=
  ∀ s, R s (x s).2

/-- From a state that satisfies `P`, the result and the last state satisfy `Q`. -/
def Triple (P : σ → Prop) (x : StateM σ α) (Q : α → σ → Prop) : Prop :=
  ∀ s, P s → Q (x s).1 (x s).2

theorem bind_apply (x : StateM σ α) (f : α → StateM σ β) (s : σ) :
    (x >>= f) s = f (x s).1 (x s).2 :=
  rfl

theorem pure_apply (a : α) (s : σ) : (pure a : StateM σ α) s = (a, s) :=
  rfl

theorem get_apply (s : σ) : (get : StateM σ σ) s = (s, s) :=
  rfl

theorem ite_run {p : Prop} [Decidable p] (x y : StateM σ α) (s : σ) :
    (if p then x else y) s = if p then x s else y s := by
  split <;> rfl

/-! ## Steps along a preorder -/

theorem Steps.pure [Std.Refl R] (a : α) : Steps R (pure a : StateM σ α) := fun s =>
  refl_of R s

theorem Steps.get [Std.Refl R] : Steps R (get : StateM σ σ) := fun s =>
  refl_of R s

theorem Steps.modify {f : σ → σ} (h : ∀ s, R s (f s)) : Steps R (modify f : StateM σ PUnit) :=
  h

theorem Steps.bind [IsTrans σ R] {x : StateM σ α} {f : α → StateM σ β} (hx : Steps R x)
    (hf : ∀ a, Steps R (f a)) : Steps R (x >>= f) := fun s =>
  trans_of R (hx s) (hf (x s).1 (x s).2)

theorem Steps.ite {p : Prop} [Decidable p] {x y : StateM σ α} (hx : Steps R x)
    (hy : Steps R y) : Steps R (if p then x else y) := by
  split
  · exact hx
  · exact hy

theorem Steps.mono {R' : σ → σ → Prop} {x : StateM σ α} (hx : Steps R x)
    (h : ∀ {s t}, R s t → R' s t) : Steps R' x := fun s =>
  h (hx s)

/-! ## Triples -/

theorem Triple.pure {a : α} (h : ∀ s, P s → Q a s) : Triple P (pure a : StateM σ α) Q :=
  h

theorem Triple.get {Q : σ → σ → Prop} (h : ∀ s, P s → Q s s) : Triple P get Q :=
  h

theorem Triple.modify {f : σ → σ} {Q : PUnit → σ → Prop} (h : ∀ s, P s → Q ⟨⟩ (f s)) :
    Triple P (modify f) Q :=
  h

theorem Triple.bind {x : StateM σ β} {f : β → StateM σ α} (M : β → σ → Prop)
    (hx : Triple P x M) (hf : ∀ b, Triple (M b) (f b) Q) : Triple P (x >>= f) Q := fun s hs =>
  hf (x s).1 (x s).2 (hx s hs)

/-- The last part of a computation ensures what the whole does. -/
theorem Triple.last {x : StateM σ β} {f : β → StateM σ α}
    (hf : ∀ b, Triple (fun _ => True) (f b) Q) : Triple P (x >>= f) Q := fun s _ =>
  hf (x s).1 (x s).2 trivial

theorem Triple.ite {p : Prop} [Decidable p] {x y : StateM σ α} (hx : p → Triple P x Q)
    (hy : ¬p → Triple P y Q) : Triple P (if p then x else y) Q := by
  split
  · exact hx ‹_›
  · exact hy ‹_›

/-- The result of a first part is checked, and only the part behind the check matters. -/
theorem Triple.last_check {x : StateM σ β} {p : β → Prop} [DecidablePred p] {e : β → α}
    {f : β → StateM σ α} (he : ∀ b s, Q (e b) s)
    (hf : ∀ b, ¬p b → Triple (fun _ => True) (f b) Q) :
    Triple P (x >>= fun b => if p b then Pure.pure (e b) else f b) Q :=
  Triple.last fun b => Triple.ite (fun _ => Triple.pure fun s _ => he b s) (hf b)

/-- A precondition that is not about the state. -/
theorem Triple.intro {C : Prop} {x : StateM σ α} (h : C → Triple (fun _ => True) x Q) :
    Triple (fun _ => C) x Q := fun s hs =>
  h hs s trivial

/-- A fact of the precondition that is not about the state. -/
theorem Triple.of_and {C : Prop} {x : StateM σ α} (h : C → Triple P x Q) :
    Triple (fun s => P s ∧ C) x Q := fun s hs =>
  h hs.2 s hs.1

/-- What is related to one state stays related to it. -/
theorem Steps.triple [IsTrans σ R] {x : StateM σ α} (hx : Steps R x) (s : σ) :
    Triple (R s) x fun _ => R s := fun t ht =>
  trans_of R ht (hx t)

end EF2SDK
