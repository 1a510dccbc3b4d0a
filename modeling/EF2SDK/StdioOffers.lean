import EF2SDK.StdioDelivery
import EF2SDK.Offers

/-!
# What `write_all` offers

For any sink at all. The loop of `write_all` offers what is left of the data, and stops at the
first count that is zero, negative or more than was offered : it ends, with the offers of
`Offers.Ended` (`writeLoop_ended`). So the offers are orderly, the result is negative exactly when
less than the data was accepted, and what was accepted is then still a prefix of it
(`writeAll_exact`).
-/

set_option autoImplicit false

namespace EF2SDK.Stdio

open Offers (Ended Offer Orderly accepted recording)

variable {σ : Type*} (write : σ → List UInt8 → ℤ × σ) (data : List UInt8)

/-- One round of the loop that the sink's count ends. -/
theorem writeLoop_refused {write : σ → List UInt8 → ℤ × σ} {data : List UInt8} {written : ℕ}
    {context : σ} (h : written < data.length)
    (hcount : (write context (data.drop written)).1 ≤ 0 ∨
      (data.length - written : ℕ) < (write context (data.drop written)).1) :
    writeLoop write data written context = (none, (write context (data.drop written)).2) := by
  rw [writeLoop, dif_pos h]
  dsimp only
  rcases hcount with hcount | hcount
  · rw [dif_pos hcount]
  · rw [dif_neg (by omega), if_pos (by omega)]

/-- The loop ends from wherever it is, and keeping the offers changes nothing else. -/
theorem writeLoop_ended (k : ℕ) :
    ∀ written context log, data.length - written = k → Offers.Accepts data log written →
      ∃ result context' log',
        writeLoop (recording write) data written (context, log) = (result, context', log') ∧
        writeLoop write data written context = (result, context') ∧ Ended data result log' := by
  induction k using Nat.strong_induction_on with
  | _ k ih =>
    intro written context log hk h
    by_cases hlt : written < data.length
    · by_cases hcount : (write context (data.drop written)).1 ≤ 0 ∨
        (data.length - written : ℕ) < (write context (data.drop written)).1
      · exact ⟨none, _, _, writeLoop_refused hlt hcount, writeLoop_refused hlt hcount,
          .refused h hlt hcount⟩
      · obtain ⟨n, hn⟩ : ∃ n : ℕ, (write context (data.drop written)).1 = n :=
          ⟨_, (Int.toNat_of_nonneg (by omega)).symm⟩
        have hwrite : write context (data.drop written) =
            ((n : ℤ), (write context (data.drop written)).2) := Prod.ext hn rfl
        obtain ⟨result, context', log', hrecorded, hloop, hended⟩ :=
          ih (data.length - (written + n)) (by omega) (written + n)
            (write context (data.drop written)).2 (log ++ [⟨data.drop written, n⟩]) rfl
            (h.next (by omega) (by omega))
        refine ⟨result, context', log', ?_, ?_, hended⟩
        · rw [← hrecorded]
          exact writeLoop_round hlt (by omega) (by omega) (by rw [recording, hn])
        · rw [← hloop]
          exact writeLoop_round hlt (by omega) (by omega) hwrite
    · obtain rfl : written = data.length := le_antisymm h.le.2 (not_lt.1 hlt)
      exact ⟨some data.length, context, log, writeLoop_of_not_lt hlt _,
        writeLoop_of_not_lt hlt _, .all h⟩

theorem writeAll_exact (context : σ) :
    ∃ result context' log,
      writeAll (some ⟨some (recording write)⟩) (context, []) data = (result, context', log) ∧
      writeAll (some ⟨some write⟩) context data = (result, context') ∧
      Orderly data log ∧ (0 ≤ result ↔ accepted log = data) ∧
      (result < 0 → result = -1 ∧ accepted log <+: data) := by
  obtain ⟨written, context', log, hrecorded, hloop, hended⟩ :=
    writeLoop_ended write data _ 0 context [] rfl .start
  simp only [writeAll, hrecorded, hloop]
  cases written with
  | none =>
    refine ⟨-1, context', log, rfl, rfl, hended.orderly, ?_, fun _ => ⟨rfl, ?_⟩⟩
    · rw [← hended.accepted_iff]
      simp
    · exact hended.accepted_prefix
  | some written =>
    have hpos : 0 ≤ if written > 0x7FFFFFFF then (0x7FFFFFFF : ℤ) else written := by
      split <;> omega
    refine ⟨_, context', log, rfl, rfl, hended.orderly, ?_, fun h => absurd hpos h.not_ge⟩
    exact iff_of_true hpos (hended.accepted_iff.1 rfl)

end EF2SDK.Stdio
