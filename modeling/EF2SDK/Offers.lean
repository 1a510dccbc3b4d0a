import Mathlib.Data.List.Infix
import Mathlib.Data.Int.Notation

/-!
# Offering a sequence to a sink

A sink is offered a list and answers with a count. It accepts that many elements, if the count is
positive and no more than it was offered (`Offer.accepted`), and nothing otherwise. `recording`
keeps the offers made to a sink, and what it answered.

A writer that offers what is left of `data` until a count is refused has made the offers of
`Accepts`, and one more if it was refused (`Ended`). In both cases the offers are `Orderly` :
each begins where what was accepted before it ends, and only the last is refused
(`Ended.orderly`). What was accepted is all of `data` if none was refused (`Ended.accepted_iff`),
and a prefix of it always (`Ended.accepted_prefix`).
-/

set_option autoImplicit false

namespace Offers

variable {α σ : Type*} {data : List α} {written n : ℕ} {count : ℤ}

/-- What a sink was offered, and the count that it answered. -/
structure Offer (α : Type*) where
  offered : List α
  count : ℤ

/-- The piece that a sink accepts. -/
def Offer.accepted (o : Offer α) : List α :=
  if 0 < o.count ∧ o.count ≤ o.offered.length then o.offered.take o.count.toNat else []

def accepted (log : List (Offer α)) : List α :=
  log.flatMap Offer.accepted

/-- A sink, with the offers made to it. -/
def recording (write : σ → List α → ℤ × σ) (s : σ × List (Offer α)) (offered : List α) :
    ℤ × σ × List (Offer α) :=
  ((write s.1 offered).1, (write s.1 offered).2, s.2 ++ [⟨offered, (write s.1 offered).1⟩])

theorem accepted_concat (log : List (Offer α)) (o : Offer α) :
    accepted (log ++ [o]) = accepted log ++ o.accepted := by
  simp [accepted]

theorem Offer.accepted_of_refused {o : Offer α} (h : o.count ≤ 0 ∨ o.offered.length < o.count) :
    o.accepted = [] :=
  if_neg (by omega)

theorem split_concat {log l r : List (Offer α)} {last o : Offer α}
    (h : log ++ [last] = l ++ o :: r) :
    (l = log ∧ o = last ∧ r = []) ∨ ∃ r', log = l ++ o :: r' := by
  rcases List.eq_nil_or_concat r with rfl | ⟨r', y, rfl⟩
  · obtain ⟨hl, ho⟩ := List.append_inj' h rfl
    exact Or.inl ⟨hl.symm, (List.singleton_inj.1 ho).symm, rfl⟩
  · have h' : log ++ [last] = (l ++ o :: r') ++ [y] := by simpa using h
    exact Or.inr ⟨r', (List.append_inj' h' rfl).1⟩

/-- Each offer begins where what was accepted before it ends, with an element at least, and only
the last offer is refused. There are no more offers than elements. -/
structure Orderly (data : List α) (log : List (Offer α)) : Prop where
  offered : ∀ l o r, log = l ++ o :: r → accepted l ++ o.offered = data ∧ o.offered ≠ []
  refused : ∀ l o r, log = l ++ o :: r → r ≠ [] → o.accepted ≠ []
  length_le : log.length ≤ data.length

theorem Orderly.nil : Orderly data [] :=
  ⟨fun _ _ _ h => absurd h (by simp), fun _ _ _ h => absurd h (by simp), Nat.zero_le _⟩

/-- One more offer, after offers that were all accepted. -/
theorem Orderly.concat {log : List (Offer α)} {last : Offer α} (h : Orderly data log)
    (hall : ∀ o ∈ log, o.accepted ≠ []) (hlast : accepted log ++ last.offered = data)
    (hne : last.offered ≠ []) (hlen : log.length < data.length) :
    Orderly data (log ++ [last]) := by
  refine ⟨fun l o r hsplit => ?_, fun l o r hsplit hr => ?_, ?_⟩
  · rcases split_concat hsplit with ⟨rfl, rfl, -⟩ | ⟨r', hlog⟩
    · exact ⟨hlast, hne⟩
    · exact h.offered l o r' hlog
  · rcases split_concat hsplit with ⟨-, -, hnil⟩ | ⟨r', hlog⟩
    · exact absurd hnil hr
    · exact hall o (hlog ▸ List.mem_append_right l List.mem_cons_self)
  · rw [List.length_append, List.length_singleton]
    omega

/-- Offers of what is left of `data`, each accepted, `written` elements so far. -/
inductive Accepts (data : List α) : List (Offer α) → ℕ → Prop
  | start : Accepts data [] 0
  | next {log : List (Offer α)} {written n : ℕ} (h : Accepts data log written) (hpos : 0 < n)
      (hle : n ≤ data.length - written) :
      Accepts data (log ++ [⟨data.drop written, n⟩]) (written + n)

namespace Accepts

variable {log : List (Offer α)}

theorem le (h : Accepts data log written) : log.length ≤ written ∧ written ≤ data.length := by
  induction h with
  | start => exact ⟨le_rfl, Nat.zero_le _⟩
  | next _ hpos hle ih =>
    rw [List.length_append, List.length_singleton]
    omega

/-- A count of some of what is left accepts that much of it. -/
theorem accepted_take (hle : n ≤ data.length - written) (hpos : 0 < n) :
    (⟨data.drop written, n⟩ : Offer α).accepted = (data.drop written).take n :=
  if_pos ⟨Int.natCast_pos.2 hpos, by simpa using hle⟩

theorem accepted_eq (h : Accepts data log written) : accepted log = data.take written := by
  induction h with
  | start => rfl
  | @next log written n h hpos hle ih =>
    rw [accepted_concat, ih, accepted_take hle hpos, List.take_add]

theorem append_offered (h : Accepts data log written) :
    accepted log ++ data.drop written = data := by
  rw [h.accepted_eq, List.take_append_drop]

theorem accepted_ne_nil (h : Accepts data log written) : ∀ o ∈ log, o.accepted ≠ [] := by
  induction h with
  | start => exact fun o ho => absurd ho List.not_mem_nil
  | next _ hpos hle ih =>
    intro o ho
    rcases List.mem_append.1 ho with ho | ho
    · exact ih o ho
    · rw [List.mem_singleton.1 ho, accepted_take hle hpos]
      exact List.ne_nil_of_length_pos (by rw [List.length_take, List.length_drop]; omega)

/-- What is left, while something is, is an orderly offer to make. -/
theorem orderly_concat (h : Accepts data log written) (hlog : Orderly data log)
    (hlt : written < data.length) (count : ℤ) :
    Orderly data (log ++ [⟨data.drop written, count⟩]) :=
  hlog.concat h.accepted_ne_nil h.append_offered
    (List.ne_nil_of_length_pos (by rw [List.length_drop]; omega)) (h.le.1.trans_lt hlt)

theorem orderly (h : Accepts data log written) : Orderly data log := by
  induction h with
  | start => exact Orderly.nil
  | next h hpos hle ih => exact h.orderly_concat ih (by omega) _

end Accepts

/-- The offers of a writer that has ended, with the number of elements it wrote unless an offer
was refused. -/
inductive Ended (data : List α) : Option ℕ → List (Offer α) → Prop
  | all {log : List (Offer α)} (h : Accepts data log data.length) :
      Ended data (some data.length) log
  | refused {log : List (Offer α)} {written : ℕ} {count : ℤ} (h : Accepts data log written)
      (hlt : written < data.length) (hcount : count ≤ 0 ∨ (data.length - written : ℕ) < count) :
      Ended data none (log ++ [⟨data.drop written, count⟩])

namespace Ended

variable {log : List (Offer α)} {result : Option ℕ}

theorem orderly (h : Ended data result log) : Orderly data log := by
  cases h with
  | all h => exact h.orderly
  | refused h hlt _ => exact h.orderly_concat h.orderly hlt _

/-- The refused offer adds nothing to what was accepted. -/
theorem accepted_eq (h : Ended data result log) :
    ∃ written, accepted log = data.take written ∧ written ≤ data.length ∧
      (result.isSome ↔ written = data.length) := by
  cases h with
  | all h => exact ⟨data.length, h.accepted_eq, le_rfl, by simp⟩
  | @refused log written count h hlt hcount =>
    have hnone : (⟨data.drop written, count⟩ : Offer α).accepted = [] :=
      Offer.accepted_of_refused (by rwa [List.length_drop])
    refine ⟨written, ?_, hlt.le, by simp [hlt.ne]⟩
    rw [accepted_concat, hnone, List.append_nil, h.accepted_eq]

theorem accepted_iff (h : Ended data result log) : result.isSome ↔ accepted log = data := by
  obtain ⟨written, heq, hle, hiff⟩ := h.accepted_eq
  rw [hiff, heq, List.take_eq_self_iff]
  omega

theorem accepted_prefix (h : Ended data result log) : accepted log <+: data := by
  obtain ⟨written, heq, -, -⟩ := h.accepted_eq
  exact heq ▸ List.take_prefix written data

end Ended

end Offers
