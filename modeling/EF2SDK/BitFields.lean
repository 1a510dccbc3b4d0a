import Mathlib.Algebra.Group.Nat.Defs

/-!
# Words packed from fields

A field is a position and a width in a 64-bit word. A word is packed by shifting a value to the
position of its field and taking the `or` with the fields below (`Packed`). Each new field lies
above the ones before it, so it leaves them as they are (`Packed.or`), and the packed word
holds every value that was put in.
-/

set_option autoImplicit false

namespace EF2SDK.BitFields

variable {n v p q w k : ℕ} {e f s : UInt64} {layout : List (ℕ × ℕ)} {values : List ℕ}

/-- The value of a field. -/
def field (word position width : ℕ) : ℕ :=
  word / 2 ^ position % 2 ^ width

/-- The values of the fields of a word. -/
def fields (layout : List (ℕ × ℕ)) (word : UInt64) : List ℕ :=
  layout.map fun f => field word.toNat f.1 f.2

/-- A value above a field leaves it. -/
theorem field_add_of_le (h : q + w ≤ p) : field (n + v * 2 ^ p) q w = field n q w := by
  obtain ⟨d, rfl⟩ := Nat.exists_eq_add_of_le h
  have habove : v * 2 ^ (q + w + d) = v * 2 ^ d * 2 ^ w * 2 ^ q := by
    rw [Nat.pow_add, Nat.pow_add]
    ac_rfl
  rw [field, field, habove, Nat.add_mul_div_right _ _ (Nat.two_pow_pos q),
    Nat.add_mul_mod_self_right]

/-- The field of the value itself. -/
theorem field_add_self (hn : n < 2 ^ p) (hv : v < 2 ^ w) : field (n + v * 2 ^ p) p w = v := by
  rw [field, Nat.add_mul_div_right _ _ (Nat.two_pow_pos p), Nat.div_eq_of_lt hn, Nat.zero_add,
    Nat.mod_eq_of_lt hv]

/-- A value that fits a field. -/
structure Fits (f : UInt64) (w v : ℕ) : Prop where
  eq : f.toNat = v
  lt : v < 2 ^ w

theorem toNat_or_shiftLeft (he : e.toNat < 2 ^ p) (hf : Fits f w v) (hs : s.toNat = p)
    (hp : p + w ≤ 64 ∧ p < 64) : (e ||| f <<< s).toNat = e.toNat + v * 2 ^ p := by
  have hword : v * 2 ^ p < 2 ^ 64 := by
    calc v * 2 ^ p
      _ < 2 ^ w * 2 ^ p := (Nat.mul_lt_mul_right (Nat.two_pow_pos p)).2 hf.lt
      _ = 2 ^ (p + w) := by rw [Nat.pow_add, Nat.mul_comm]
      _ ≤ 2 ^ 64 := Nat.pow_le_pow_right (by decide) hp.1
  rw [UInt64.toNat_or, UInt64.toNat_shiftLeft, hs, hf.eq, Nat.mod_eq_of_lt hp.2,
    Nat.shiftLeft_eq, Nat.mod_eq_of_lt hword, Nat.or_comm, ← Nat.shiftLeft_eq,
    ← Nat.shiftLeft_add_eq_or_of_lt he, Nat.add_comm, Nat.shiftLeft_eq]

/-- The word has `k` bits, and holds these values in the fields of the layout. -/
structure Packed (e : UInt64) (k : ℕ) (layout : List (ℕ × ℕ)) (values : List ℕ) : Prop where
  lt : e.toNat < 2 ^ k
  inside : ∀ f ∈ layout, f.1 + f.2 ≤ k
  fields_eq : fields layout e = values

theorem Packed.nil : Packed 0 0 [] [] :=
  ⟨by decide, fun _ hf => absurd hf List.not_mem_nil, rfl⟩

/-- The first field. -/
theorem Packed.first (hf : Fits f w v) (hs : s.toNat = 0) : Packed (f <<< s) w [(0, w)] [v] := by
  have hshift : (f <<< s).toNat = v := by
    rw [UInt64.toNat_shiftLeft, hs, Nat.zero_mod, Nat.shiftLeft_zero, hf.eq,
      Nat.mod_eq_of_lt (hf.eq ▸ f.toNat_lt)]
  refine ⟨hshift ▸ hf.lt, fun g hg => ?_, ?_⟩
  · obtain rfl := List.mem_singleton.1 hg
    exact Nat.le_of_eq (Nat.zero_add w)
  · rw [fields, List.map_singleton, hshift, field, Nat.pow_zero, Nat.div_one,
      Nat.mod_eq_of_lt hf.lt]

/-- A further field, above the ones packed so far. -/
theorem Packed.or (h : Packed e k layout values) (p : ℕ) (hf : Fits f w v)
    (hp : s.toNat = p ∧ k ≤ p ∧ p + w ≤ 64 ∧ p < 64) :
    Packed (e ||| f <<< s) (p + w) (layout ++ [(p, w)]) (values ++ [v]) := by
  obtain ⟨hs, hk, hend⟩ := hp
  have he : e.toNat < 2 ^ p := Nat.lt_of_lt_of_le h.lt (Nat.pow_le_pow_right (by decide) hk)
  have hword := toNat_or_shiftLeft he hf hs hend
  refine ⟨?_, fun g hg => ?_, ?_⟩
  · rw [hword, Nat.pow_add, Nat.mul_comm (2 ^ p)]
    calc e.toNat + v * 2 ^ p
      _ < 2 ^ p + v * 2 ^ p := Nat.add_lt_add_right he _
      _ = (v + 1) * 2 ^ p := by rw [Nat.add_mul, Nat.one_mul, Nat.add_comm]
      _ ≤ 2 ^ w * 2 ^ p := Nat.mul_le_mul_right _ hf.lt
  · obtain hold | hnew := List.mem_append.1 hg
    · exact Nat.le_trans (h.inside g hold) (Nat.le_trans hk (Nat.le_add_right p w))
    · obtain rfl := List.mem_singleton.1 hnew
      exact Nat.le_refl _
  · rw [fields, List.map_append, List.map_singleton, hword, field_add_self he hf.lt,
      ← h.fields_eq]
    refine congrArg (· ++ [v]) (List.map_congr_left fun g hg => ?_)
    exact field_add_of_le (Nat.le_trans (h.inside g hg) hk)

/-! ## Masked values -/

theorem Fits.uInt32 (x : UInt32) : Fits x.toUInt64 32 x.toNat :=
  ⟨x.toNat_toUInt64, x.toNat_lt⟩

theorem Fits.uInt16 (x : UInt16) : Fits x.toUInt64 16 x.toNat :=
  ⟨x.toNat_toUInt64, x.toNat_lt⟩

theorem Fits.uInt8 (x : UInt8) : Fits x.toUInt64 8 x.toNat :=
  ⟨x.toNat_toUInt64, x.toNat_lt⟩

theorem Fits.mask16 (x : UInt16) {m : UInt16} (w : ℕ) (hm : m.toNat = 2 ^ w - 1) :
    Fits (x &&& m).toUInt64 w (x.toNat % 2 ^ w) := by
  refine ⟨?_, Nat.mod_lt _ (Nat.two_pow_pos w)⟩
  rw [UInt16.toNat_toUInt64, UInt16.toNat_and, hm, Nat.and_two_pow_sub_one_eq_mod]

theorem Fits.mask8 (x : UInt8) {m : UInt8} (w : ℕ) (hm : m.toNat = 2 ^ w - 1) :
    Fits (x &&& m).toUInt64 w (x.toNat % 2 ^ w) := by
  refine ⟨?_, Nat.mod_lt _ (Nat.two_pow_pos w)⟩
  rw [UInt8.toNat_toUInt64, UInt8.toNat_and, hm, Nat.and_two_pow_sub_one_eq_mod]

end EF2SDK.BitFields
