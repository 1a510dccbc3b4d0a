import Mathlib.Data.List.Basic

/-!
# Transfers in chunks

A transfer of `size` units makes one call for each chunk, in order, and stops at the first
call that fails or that transfers less than it was asked for. `Runs` is what such a transfer
may do from an offset and a state on : its calls, the offset it reached, what was transferred
before it and the last state. No call follows a failed or short one, and the calls are those
at the offsets reached by the calls before them.
-/

set_option autoImplicit false

namespace ChunkedTransfer

/-- The units asked for at an offset, and which calls transfer `k` units there, with what is
transferred, or fail, from one state to the next. -/
structure Protocol (σ γ β : Type*) where
  chunk : ℕ → ℕ
  Ok : ℕ → σ → γ → ℕ → List β → σ → Prop
  Failed : ℕ → σ → γ → σ → Prop

variable {σ γ β : Type*} {p : Protocol σ γ β} {size unit offset n : ℕ} {s t : σ}
  {calls : List γ} {data : List β}

/-- From an offset and a state on : the calls made, the offset reached, the data transferred
and the last state. -/
inductive Runs (p : Protocol σ γ β) (size : ℕ) : ℕ → σ → List γ → ℕ → List β → σ → Prop
  | complete {offset : ℕ} {s : σ} (h : size ≤ offset) : Runs p size offset s [] offset [] s
  | full {offset n : ℕ} {s t u : σ} {call : γ} {calls : List γ} {chunk data : List β}
      (h : offset < size) (ok : p.Ok offset s call (p.chunk offset) chunk t)
      (rest : Runs p size (offset + p.chunk offset) t calls n data u) :
      Runs p size offset s (call :: calls) n (chunk ++ data) u
  | short {offset k : ℕ} {s t : σ} {call : γ} {chunk : List β} (h : offset < size)
      (ok : p.Ok offset s call k chunk t) (hk : k < p.chunk offset) :
      Runs p size offset s [call] (offset + k) chunk t
  | failed {offset : ℕ} {s t : σ} {call : γ} (h : offset < size)
      (failed : p.Failed offset s call t) : Runs p size offset s [call] offset [] t

/-- A transfer that asks for no more than is left ends within its size. -/
theorem Runs.le (h : Runs p size offset s calls n data t)
    (hchunk : ∀ i < size, i + p.chunk i ≤ size) (hoffset : offset ≤ size) :
    offset ≤ n ∧ n ≤ size := by
  induction h with
  | complete _ => exact ⟨Nat.le_refl _, hoffset⟩
  | full h _ _ ih =>
    have := ih (hchunk _ h)
    omega
  | short h _ hk =>
    have := hchunk _ h
    omega
  | failed _ _ => exact ⟨Nat.le_refl _, hoffset⟩

/-- What is transferred is what lies between the two offsets, when every call transfers what
lies at its own. -/
theorem Runs.data_eq (source : ℕ → ℕ → List β) (h : Runs p size offset s calls n data t)
    (hok : ∀ i s call k chunk t, p.Ok i s call k chunk t → chunk = source i k)
    (hnil : ∀ i, source i 0 = [])
    (hsource : ∀ i k m, source i (k + m) = source i k ++ source (i + k) m) :
    offset ≤ n ∧ data = source offset (n - offset) := by
  induction h with
  | complete _ => simp [hnil]
  | @full offset n _ _ _ _ _ _ _ _ ok _ ih =>
    obtain ⟨hle, hdata⟩ := ih
    refine ⟨by omega, ?_⟩
    rw [hdata, hok _ _ _ _ _ _ ok,
      show n - offset = p.chunk offset + (n - (offset + p.chunk offset)) by omega, hsource]
  | short _ ok _ => exact ⟨by omega, by rw [hok _ _ _ _ _ _ ok, Nat.add_sub_cancel_left]⟩
  | failed _ _ => simp [hnil]

theorem Runs.length_data (h : Runs p size offset s calls n data t)
    (hok : ∀ i s call k chunk t, p.Ok i s call k chunk t → chunk.length = unit * k) :
    offset ≤ n ∧ data.length = unit * (n - offset) := by
  induction h with
  | complete _ => simp
  | @full offset n _ _ _ _ _ _ _ _ ok _ ih =>
    obtain ⟨hle, hdata⟩ := ih
    refine ⟨by omega, ?_⟩
    rw [List.length_append, hdata, hok _ _ _ _ _ _ ok, ← Nat.mul_add]
    congr 1
    omega
  | short _ ok _ => exact ⟨by omega, by rw [hok _ _ _ _ _ _ ok, Nat.add_sub_cancel_left]⟩
  | failed _ _ => simp

end ChunkedTransfer
