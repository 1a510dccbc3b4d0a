import Mathlib.Algebra.Group.Nat.Defs
import Mathlib.Logic.Function.Basic
import Mathlib.Tactic.SplitIfs

/-!
# Byte memory

A memory is a byte for every address. 32-bit words and 64-bit doublewords are read and written
little-endian (`readU32`, `writeU32`, `readU64`, `writeU64`), and byte ranges are filled and copied
one byte a round, upwards or downwards (`fillBytes`, `copyBytes`, `copyBytesDown`). A copy gets past
an overlap in the direction that reads every byte before it is overwritten : upwards to a lower
range (`copyBytes_of_le`), downwards to a higher one (`copyBytesDown_of_le`).

Every write comes with its frame : the bytes outside the written range are unchanged, and a word
read off bytes that did not change is unchanged (`readU32_congr`).
-/

set_option autoImplicit false

namespace ByteMemory

abbrev Mem := ℕ → UInt8

variable {m m' : Mem} {a b v n x : ℕ}

/-! ## Words -/

/-- The little-endian word at `a`. -/
def readU32 (m : Mem) (a : ℕ) : ℕ :=
  (m a).toNat + 256 * (m (a + 1)).toNat + 65536 * (m (a + 2)).toNat +
    16777216 * (m (a + 3)).toNat

/-- Store the low 32 bits of `v` at `a`, little-endian. -/
def writeU32 (m : Mem) (a v : ℕ) : Mem := fun x =>
  if x = a then .ofNat v
  else if x = a + 1 then .ofNat (v / 256)
  else if x = a + 2 then .ofNat (v / 65536)
  else if x = a + 3 then .ofNat (v / 16777216)
  else m x

theorem readU32_lt (m : Mem) (a : ℕ) : readU32 m a < 2 ^ 32 := by
  have h0 := (m a).toNat_lt
  have h1 := (m (a + 1)).toNat_lt
  have h2 := (m (a + 2)).toNat_lt
  have h3 := (m (a + 3)).toNat_lt
  unfold readU32
  omega

theorem readU32_writeU32 (m : Mem) (a : ℕ) (hv : v < 2 ^ 32) :
    readU32 (writeU32 m a v) a = v := by
  simp only [readU32, writeU32, if_true, show a + 1 ≠ a by omega, show a + 2 ≠ a by omega,
    show a + 3 ≠ a by omega, show a + 2 ≠ a + 1 by omega, show a + 3 ≠ a + 1 by omega,
    show a + 3 ≠ a + 2 by omega, if_false, UInt8.toNat_ofNat']
  omega

theorem writeU32_of_disjoint (m : Mem) (v : ℕ) (h : x < a ∨ a + 4 ≤ x) :
    writeU32 m a v x = m x := by
  unfold writeU32
  split_ifs <;> first | omega | rfl

/-- A word is read off its four bytes. -/
theorem readU32_congr (h : ∀ x, a ≤ x → x < a + 4 → m' x = m x) :
    readU32 m' a = readU32 m a := by
  unfold readU32
  rw [h a (by omega) (by omega), h (a + 1) (by omega) (by omega), h (a + 2) (by omega) (by omega),
    h (a + 3) (by omega) (by omega)]

theorem readU32_writeU32_of_disjoint (m : Mem) (v : ℕ) (h : b + 4 ≤ a ∨ a + 4 ≤ b) :
    readU32 (writeU32 m a v) b = readU32 m b :=
  readU32_congr fun x hx hx' => writeU32_of_disjoint m v (by omega)

/-- The little-endian doubleword at `a`. -/
def readU64 (m : Mem) (a : ℕ) : ℕ :=
  readU32 m a + 2 ^ 32 * readU32 m (a + 4)

/-- Store the low 64 bits of `v` at `a`, little-endian. -/
def writeU64 (m : Mem) (a v : ℕ) : Mem :=
  writeU32 (writeU32 m a (v % 2 ^ 32)) (a + 4) (v / 2 ^ 32)

theorem readU64_writeU64 (m : Mem) (a : ℕ) (hv : v < 2 ^ 64) :
    readU64 (writeU64 m a v) a = v := by
  rw [readU64, writeU64, readU32_writeU32_of_disjoint _ _ (Or.inl (Nat.le_refl _)),
    readU32_writeU32 _ _ (Nat.mod_lt _ (by decide)),
    readU32_writeU32 _ _ (Nat.div_lt_of_lt_mul hv), Nat.mod_add_div]

theorem writeU64_of_disjoint (m : Mem) (v : ℕ) (h : x < a ∨ a + 8 ≤ x) :
    writeU64 m a v x = m x := by
  rw [writeU64, writeU32_of_disjoint _ _ (by omega), writeU32_of_disjoint _ _ (by omega)]

/-- A doubleword is read off its eight bytes. -/
theorem readU64_congr (h : ∀ x, a ≤ x → x < a + 8 → m' x = m x) :
    readU64 m' a = readU64 m a := by
  unfold readU64
  rw [readU32_congr fun x hx hx' => h x hx (by omega),
    readU32_congr fun x hx hx' => h x (by omega) (by omega)]

/-- Doublewords stored one after the other at addresses of their own. -/
theorem readU64_foldl_writeU64 {stores : List (ℕ × ℕ)}
    (hdisjoint : stores.Pairwise fun s t => s.1 + 8 ≤ t.1 ∨ t.1 + 8 ≤ s.1)
    (hmem : (a, v) ∈ stores) (hv : v < 2 ^ 64) (m : Mem) :
    readU64 (stores.foldl (fun m s => writeU64 m s.1 s.2) m) a = v := by
  have hkept : ∀ (later : List (ℕ × ℕ)) (m : Mem),
      (∀ t ∈ later, a + 8 ≤ t.1 ∨ t.1 + 8 ≤ a) →
        readU64 (later.foldl (fun m s => writeU64 m s.1 s.2) m) a = readU64 m a := by
    intro later
    induction later with
    | nil => exact fun m _ => rfl
    | cons t later ih =>
      intro m h
      have ht := h t List.mem_cons_self
      rw [List.foldl_cons, ih _ fun s hs => h s (List.mem_cons_of_mem t hs)]
      exact readU64_congr fun x hx hx' => writeU64_of_disjoint m _ (by omega)
  induction stores generalizing m with
  | nil => exact absurd hmem List.not_mem_nil
  | cons s stores ih =>
    obtain ⟨hfirst, hrest⟩ := List.pairwise_cons.1 hdisjoint
    rw [List.foldl_cons]
    rcases List.mem_cons.1 hmem with rfl | hmem
    · rw [hkept stores _ hfirst, readU64_writeU64 m a hv]
    · exact ih hrest hmem _

/-! ## Ranges -/

/-- `for (i = 0; i < n; ++i) dest[i] = value`. -/
def fillBytes (m : Mem) (dest : ℕ) (value : UInt8) : ℕ → Mem
  | 0 => m
  | n + 1 => Function.update (fillBytes m dest value n) (dest + n) value

/-- `for (i = 0; i < n; ++i) dest[i] = src[i]`. -/
def copyBytes (m : Mem) (dest src : ℕ) : ℕ → Mem
  | 0 => m
  | n + 1 => Function.update (copyBytes m dest src n) (dest + n) (copyBytes m dest src n (src + n))

/-- `for (i = n; i != 0; ) { --i; dest[i] = src[i]; }`. -/
def copyBytesDown (m : Mem) (dest src : ℕ) : ℕ → Mem
  | 0 => m
  | n + 1 => copyBytesDown (Function.update m (dest + n) (m (src + n))) dest src n

theorem fillBytes_of_disjoint (m : Mem) (value : UInt8) (h : x < a ∨ a + n ≤ x) :
    fillBytes m a value n x = m x := by
  induction n with
  | zero => rfl
  | succ n ih => rw [fillBytes, Function.update_of_ne (by omega), ih (by omega)]

theorem fillBytes_of_lt (m : Mem) (a : ℕ) (value : UInt8) {i : ℕ} (hi : i < n) :
    fillBytes m a value n (a + i) = value := by
  induction n with
  | zero => exact absurd hi (Nat.not_lt_zero i)
  | succ n ih =>
    rw [fillBytes]
    by_cases hlast : i = n
    · rw [hlast, Function.update_self]
    · rw [Function.update_of_ne (by omega), ih (by omega)]

theorem copyBytes_of_disjoint (m : Mem) (src : ℕ) (h : x < a ∨ a + n ≤ x) :
    copyBytes m a src n x = m x := by
  induction n with
  | zero => rfl
  | succ n ih => rw [copyBytes, Function.update_of_ne (by omega), ih (by omega)]

/-- A forward copy between disjoint ranges. -/
theorem copyBytes_of_lt (m : Mem) {dest src : ℕ} {i : ℕ} (hi : i < n)
    (hdisj : dest + n ≤ src ∨ src + n ≤ dest) :
    copyBytes m dest src n (dest + i) = m (src + i) := by
  induction n with
  | zero => omega
  | succ n ih =>
    rw [copyBytes]
    by_cases h : i = n
    · subst h
      rw [Function.update_self, copyBytes_of_disjoint m src (by omega)]
    · rw [Function.update_of_ne (by omega), ih (by omega) (by omega)]

/-- A copy upwards to a lower range : the bytes that are still to be read have not been written. -/
theorem copyBytes_of_le (m : Mem) {dest src i : ℕ} (hi : i < n) (hle : dest ≤ src) :
    copyBytes m dest src n (dest + i) = m (src + i) := by
  induction n with
  | zero => omega
  | succ n ih =>
    rw [copyBytes]
    by_cases h : i = n
    · subst h
      rw [Function.update_self, copyBytes_of_disjoint m src (by omega)]
    · rw [Function.update_of_ne (by omega), ih (by omega)]

theorem copyBytesDown_of_disjoint (m : Mem) (src : ℕ) (h : x < a ∨ a + n ≤ x) :
    copyBytesDown m a src n x = m x := by
  induction n generalizing m with
  | zero => rfl
  | succ n ih => rw [copyBytesDown, ih _ (by omega), Function.update_of_ne (by omega)]

/-- A copy downwards to a higher range. -/
theorem copyBytesDown_of_le (m : Mem) {dest src i : ℕ} (hi : i < n) (hle : src ≤ dest) :
    copyBytesDown m dest src n (dest + i) = m (src + i) := by
  induction n generalizing m with
  | zero => omega
  | succ n ih =>
    rw [copyBytesDown]
    by_cases h : i = n
    · subst h
      rw [copyBytesDown_of_disjoint _ src (by omega), Function.update_self]
    · rw [ih _ (by omega), Function.update_of_ne (by omega)]

end ByteMemory
