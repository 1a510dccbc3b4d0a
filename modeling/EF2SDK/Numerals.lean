import Mathlib.Data.Nat.Digits.Lemmas

/-!
# Numerals, the most significant digit first

`numeral b v` writes `v` in base `b` without superfluous leading zeros. A loop that visits the
places from the highest down, and writes a digit once a nonzero one was found or the last
place is reached (`leadingDigits`), writes the numeral (`leadingDigits_eq_numeral`). Reading a
numeral from the left gives the number back (`readDigits_numeral`), and reading all the digits at
`n` places gives it back modulo `b ^ n` (`readDigits_placeDigits`).
-/

set_option autoImplicit false

namespace EF2SDK

/-- The digits of `v` in base `b`, the most significant first. -/
def numeral (b v : ℕ) : List ℕ :=
  if v = 0 then [0] else (Nat.digits b v).reverse

/-- The digits at the `n` places from `b ^ (n - 1)` down to `1`. Leading zeros are left out
until a digit is written, which `started` tells. -/
def leadingDigits (b : ℕ) : ℕ → ℕ → Bool → List ℕ
  | 0, _, _ => []
  | n + 1, v, started =>
    if v / b ^ n ≠ 0 ∨ started = true ∨ n = 0 then
      v / b ^ n :: leadingDigits b n (v % b ^ n) true
    else
      leadingDigits b n (v % b ^ n) started

/-- All the digits at the `n` places from `b ^ (n - 1)` down to `1`. -/
def placeDigits (b : ℕ) : ℕ → ℕ → List ℕ
  | 0, _ => []
  | n + 1, v => v / b ^ n % b :: placeDigits b n v

variable {b n v : ℕ}

/-- The highest digit of a number, split off. -/
theorem digits_split (hb : 1 < b) (hv : v < b ^ (n + 1)) (hd : v / b ^ n ≠ 0) :
    Nat.digits b v = Nat.digits b (v % b ^ n)
      ++ (List.replicate (n - (Nat.digits b (v % b ^ n)).length) 0 ++ [v / b ^ n]) := by
  have hpow : 0 < b ^ n := Nat.pow_pos (by omega)
  have hlt : v / b ^ n < b := by
    rw [Nat.div_lt_iff_lt_mul hpow, Nat.mul_comm, ← Nat.pow_succ]
    exact hv
  have hlen : (Nat.digits b (v % b ^ n)).length ≤ n :=
    (Nat.digits_length_le_iff hb _).mpr (Nat.mod_lt _ hpow)
  rw [← Nat.digits_of_lt b _ hd hlt, ← List.append_assoc,
    Nat.digits_append_zeroes_append_digits hb (Nat.pos_of_ne_zero hd),
    Nat.add_sub_cancel' hlen, Nat.mod_add_div]

/-- Once started, every place is written. -/
theorem leadingDigits_true (hb : 1 < b) (hv : v < b ^ n) :
    leadingDigits b n v true
      = (Nat.digits b v ++ List.replicate (n - (Nat.digits b v).length) 0).reverse := by
  induction n generalizing v with
  | zero =>
    obtain rfl : v = 0 := by simpa using hv
    simp [leadingDigits]
  | succ n ih =>
    have hpow : 0 < b ^ n := Nat.pow_pos (by omega)
    rw [leadingDigits, if_pos (by simp), ih (Nat.mod_lt v hpow)]
    by_cases hd : v / b ^ n = 0
    · have hlt : v < b ^ n := (Nat.div_eq_zero_iff_lt hpow).mp hd
      have hlen := (Nat.digits_length_le_iff hb v).mpr hlt
      rw [hd, Nat.mod_eq_of_lt hlt, Nat.succ_sub hlen, List.replicate_succ']
      simp
    · have hsplit := digits_split hb hv hd
      have hlen : (Nat.digits b (v % b ^ n)).length ≤ n :=
        (Nat.digits_length_le_iff hb _).mpr (Nat.mod_lt _ hpow)
      rw [hsplit]
      simp
      omega

/-- The loop writes the numeral. -/
theorem leadingDigits_eq_numeral (hb : 1 < b) (hn : 0 < n) (hv : v < b ^ n) :
    leadingDigits b n v false = numeral b v := by
  induction n generalizing v with
  | zero => omega
  | succ n ih =>
    have hpow : 0 < b ^ n := Nat.pow_pos (by omega)
    by_cases hd : v / b ^ n = 0
    · have hlt : v < b ^ n := (Nat.div_eq_zero_iff_lt hpow).mp hd
      by_cases hn0 : n = 0
      · subst hn0
        obtain rfl : v = 0 := by simpa using hlt
        simp [leadingDigits, numeral]
      · rw [leadingDigits, if_neg (by simp [hd, hn0]), Nat.mod_eq_of_lt hlt]
        exact ih (by omega) hlt
    · have hv0 : v ≠ 0 := fun h => hd (by simp [h])
      rw [leadingDigits, if_pos (Or.inl hd), leadingDigits_true hb (Nat.mod_lt v hpow), numeral,
        if_neg hv0, digits_split hb hv hd]
      simp

/-! ## Reading a numeral -/

/-- The digits read from the left, behind a value read before them. -/
def readDigits (b : ℕ) (acc : ℕ) (digits : List ℕ) : ℕ :=
  digits.foldl (fun acc d => b * acc + d) acc

theorem readDigits_numeral (b v : ℕ) : readDigits b 0 (numeral b v) = v := by
  unfold readDigits numeral
  split_ifs with h0
  · simpa using h0.symm
  · rw [List.foldl_reverse]
    calc (Nat.digits b v).foldr (fun d acc => b * acc + d) 0
      _ = Nat.ofDigits b (Nat.digits b v) := by
        rw [Nat.ofDigits_eq_foldr]
        simp only [Nat.cast_id, Nat.add_comm]
      _ = v := Nat.ofDigits_digits b v

/-- Zeros in front say nothing. -/
theorem readDigits_zeros (b k : ℕ) (digits : List ℕ) :
    readDigits b 0 (List.replicate k 0 ++ digits) = readDigits b 0 digits := by
  induction k with
  | zero => rfl
  | succ k ih => exact ih

theorem readDigits_placeDigits (b acc n v : ℕ) :
    readDigits b acc (placeDigits b n v) = acc * b ^ n + v % b ^ n := by
  induction n generalizing acc with
  | zero => simp [placeDigits, readDigits, Nat.mod_one]
  | succ n ih =>
    calc readDigits b acc (placeDigits b (n + 1) v)
      _ = readDigits b (b * acc + v / b ^ n % b) (placeDigits b n v) := rfl
      _ = (b * acc + v / b ^ n % b) * b ^ n + v % b ^ n := ih _
      _ = acc * b ^ (n + 1) + v % b ^ (n + 1) := by
        rw [Nat.mod_pow_succ, Nat.pow_succ]
        ring

@[simp] theorem length_placeDigits (b n v : ℕ) : (placeDigits b n v).length = n := by
  induction n with
  | zero => rfl
  | succ n ih => rw [placeDigits, List.length_cons, ih]

theorem lt_of_mem_placeDigits (hb : 0 < b) {d : ℕ} (hd : d ∈ placeDigits b n v) : d < b := by
  induction n with
  | zero => exact absurd hd List.not_mem_nil
  | succ n ih =>
    rcases List.mem_cons.1 hd with rfl | hd
    · exact Nat.mod_lt _ hb
    · exact ih hd

/-- What was read before grows by a place with every digit. -/
theorem le_readDigits (hb : 0 < b) (acc : ℕ) (digits : List ℕ) : acc ≤ readDigits b acc digits := by
  induction digits generalizing acc with
  | nil => exact Nat.le_refl acc
  | cons d digits ih =>
    calc acc ≤ b * acc := Nat.le_mul_of_pos_left acc hb
      _ ≤ b * acc + d := Nat.le_add_right _ _
      _ ≤ readDigits b acc (d :: digits) := ih _

theorem numeral_ne_nil (b v : ℕ) : numeral b v ≠ [] := by
  unfold numeral
  split_ifs with h0
  · simp
  · simpa [Nat.digits_ne_nil_iff_ne_zero] using h0

theorem lt_of_mem_numeral (hb : 1 < b) {d : ℕ} (hd : d ∈ numeral b v) : d < b := by
  unfold numeral at hd
  split_ifs at hd
  · obtain rfl := List.mem_singleton.1 hd
    exact Nat.lt_of_lt_of_le Nat.zero_lt_one hb.le
  · exact Nat.digits_lt_base hb (List.mem_reverse.1 hd)

/-- Only zero itself begins with a zero. -/
theorem numeral_eq_of_head (h : (numeral b v).head? = some 0) : numeral b v = [0] := by
  unfold numeral at *
  split_ifs at * with h0
  · rfl
  · rw [List.head?_reverse, List.getLast?_eq_getLast_of_ne_nil
      (Nat.digits_ne_nil_iff_ne_zero.2 h0)] at h
    exact absurd (Option.some.inj h) (Nat.getLast_digit_ne_zero b h0)

theorem length_numeral_le (hb : 1 < b) (hn : 0 < n) (hv : v < b ^ n) :
    (numeral b v).length ≤ n := by
  unfold numeral
  split_ifs
  · exact hn
  · rw [List.length_reverse]
    exact (Nat.digits_length_le_iff hb v).2 hv

end EF2SDK
