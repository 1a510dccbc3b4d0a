import EF2SDK.LookBehind
import EF2SDK.Words
import Mathlib.Data.Int.Notation
import Mathlib.Tactic.IntervalCases

/-!
# The serial port

`src/ee/kernel/debug_sio.c`. The status register of the port is an arbitrary sequence of values, one
for each read, so that a byte may be accepted at once, late or never.

`ef2_debug_sio_init` derives the divisor of the baud rate generator from the product of the rate and
256, in 32 bits : a product that wraps to zero is divided by (`none`), and one that wraps to
something else programs another rate (`debugSioInit_exact_iff`).

`ef2_debug_sio_write` puts a carriage return before a newline unless the last byte sent is one.
The last byte sent is the byte before the newline in the stream, wherever the stream is cut
into calls, and nothing before the first (`sioWrites_newlines`).
-/

set_option autoImplicit false

namespace EF2SDK.DebugSio

open LookBehind

/-! ## The transmitter -/

/-- `g_last_output`, the reads of the status register so far, and the bytes sent. -/
structure Sio where
  lastOutput : UInt8
  reads : ℕ
  sent : List UInt8

/-- `EF2_SIO_TX_TIMEOUT`. -/
def sioTxTimeout : ℕ := 0x00100000

section Transmitter

variable (isr : ℕ → UInt32)

/-- The busy loop of `sio_putc_bounded` : whether the transmitter was ready in time, and the
reads of the status register. -/
def sioAwaitReady : (timeout reads : ℕ) → Bool × ℕ
  | 0, reads => (false, reads)
  | timeout + 1, reads =>
    if isr reads &&& 0xF000 ≠ 0x8000 then (true, reads + 1)
    else if timeout = 0 then (false, reads + 1)
    else sioAwaitReady timeout (reads + 1)

/-- `sio_putc_bounded`. -/
def sioPutcBounded (value : UInt8) (u : Sio) : ℤ × Sio :=
  match sioAwaitReady isr sioTxTimeout u.reads with
  | (false, reads) => (-1, { u with reads := reads })
  | (true, reads) => (0, ⟨value, reads, u.sent ++ [value]⟩)

/-- The loop of `ef2_debug_sio_write`. -/
def sioWriteLoop : List UInt8 → Sio → ℤ × Sio
  | [], u => (0, u)
  | value :: data, u =>
    let (result, u) :=
      if value = 0x0A ∧ u.lastOutput ≠ 0x0D then sioPutcBounded isr 0x0D u else (0, u)
    if result < 0 then (-1, u)
    else
      let (result, u) := sioPutcBounded isr value u
      if result < 0 then (-1, u) else sioWriteLoop data u

/-- The size of a string as a result. -/
def sizeResult (data : List UInt8) : ℤ :=
  if data.length > 0x7FFFFFFF then 0x7FFFFFFF else data.length

/-- `ef2_debug_sio_write`, with non-null data. -/
def debugSioWrite (data : List UInt8) (u : Sio) : ℤ × Sio :=
  let (result, u) := sioWriteLoop isr data u
  if result < 0 then (-1, u) else (sizeResult data, u)

end Transmitter

/-! ## The baud rate generator -/

/-- LCR, IER, FCR and BGR. -/
structure Regs where
  lcr : UInt32
  ier : UInt32
  fcr : UInt32
  bgr : UInt32

/-- `EF2_SIO_CPU_CLOCK`. -/
abbrev sioCpuClock : UInt32 := 294912000

/-- `EF2_SIO_LCR_SCS`. -/
abbrev sioLcrScs : UInt32 := 0x20

/-- The loop of `ef2_debug_sio_init`, with `left` clock selections up to the last. -/
def scaleDivisor : (left : ℕ) → (divisor clockSelect : UInt32) → UInt32 × UInt32
  | 0, divisor, clockSelect => (divisor, clockSelect)
  | left + 1, divisor, clockSelect =>
    if divisor ≥ 256 then scaleDivisor left (divisor >>> 2) (clockSelect + 1)
    else (divisor, clockSelect)

/-- `ef2_debug_sio_init`; `none` where it divides by zero. -/
def debugSioInit (baudrate : UInt32) (regs : Regs) (u : Sio) : Option (ℤ × Regs × Sio) :=
  if baudrate = 0 then some (-1, regs, u)
  else
    -- FCR holds the three resets in between
    let regs := { regs with lcr := sioLcrScs, ier := 0, fcr := 0 }
    if baudrate * 256 = 0 then none
    else
      let (divisor, clockSelect) := scaleDivisor 3 (sioCpuClock / (baudrate * 256)) 0
      if divisor = 0 ∨ divisor ≥ 256 then some (-2, regs, u)
      else some (0, { regs with bgr := clockSelect <<< 8 ||| divisor }, { u with lastOutput := 0 })

/-- BGR holds a clock selection and the divisor of the rate at that clock. -/
def Programs (baudrate bgr : UInt32) : Prop :=
  ∃ c d : ℕ, bgr.toNat = c * 256 + d ∧ c ≤ 3 ∧ 1 ≤ d ∧ d ≤ 255 ∧
    d = 294912000 / (256 * baudrate.toNat) / 4 ^ c

variable {baudrate q c : UInt32} {regs regs' : Regs} {u u' : Sio} {r : ℤ}

/-- The loop ends at the first clock the divisor fits in eight bits at, or at the last. -/
theorem scaleDivisor_eq (left : ℕ) (hc : c.toNat + left ≤ 3) : ∃ k ≤ left,
    (scaleDivisor left q c).1.toNat = q.toNat / 4 ^ k ∧
    (scaleDivisor left q c).2.toNat = c.toNat + k ∧
    (∀ j < k, 256 ≤ q.toNat / 4 ^ j) ∧ (k = left ∨ q.toNat / 4 ^ k < 256) := by
  induction left generalizing q c with
  | zero => exact ⟨0, le_rfl, by simp [scaleDivisor]⟩
  | succ left ih =>
    by_cases hq : q ≥ 256
    · have hq' : 256 ≤ q.toNat := UInt32.le_iff_toNat_le.1 hq
      have hc' : (c + 1).toNat = c.toNat + 1 := toNat_add_one (by omega)
      have hshift : (q >>> 2).toNat = q.toNat / 4 := toNat_shiftRight_eq (n := 2) rfl (by decide)
      obtain ⟨k, hk, hd, hs, hmin, hlast⟩ := ih (q := q >>> 2) (c := c + 1) (by omega)
      have hpow : ∀ j, (q >>> 2).toNat / 4 ^ j = q.toNat / 4 ^ (j + 1) := fun j => by
        rw [hshift, Nat.div_div_eq_div_mul, Nat.pow_succ']
      rw [scaleDivisor, if_pos hq]
      refine ⟨k + 1, by omega, ?_, by omega, fun j hj => ?_, ?_⟩
      · rw [hd, hpow]
      · cases j with
        | zero => simpa using hq'
        | succ j => exact hpow j ▸ hmin j (by omega)
      · rw [← hpow]
        exact hlast.imp_left (congrArg (· + 1))
    · rw [scaleDivisor, if_neg hq]
      have hlt : q.toNat < 256 := Nat.not_le.1 fun h => hq (UInt32.le_iff_toNat_le.2 h)
      exact ⟨0, Nat.zero_le _, by simp, by simp, by simp, Or.inr (by simpa using hlt)⟩

/-- Only an init that succeeds forgets the last byte. -/
theorem debugSioInit_sent (h : debugSioInit baudrate regs u = some (r, regs', u')) :
    u'.sent = u.sent ∧ u'.lastOutput = if r = 0 then 0 else u.lastOutput := by
  unfold debugSioInit at h
  dsimp only at h
  split_ifs at h
  all_goals
    cases h
    exact ⟨rfl, rfl⟩

/-- The divisor fits at the clock the loop ends at exactly when it fits at some clock. -/
theorem fits_iff {q k : ℕ} (hk : k ≤ 3) (hmin : ∀ j < k, 256 ≤ q / 4 ^ j)
    (hlast : k = 3 ∨ q / 4 ^ k < 256) : 1 ≤ q / 4 ^ k ∧ q / 4 ^ k ≤ 255 ↔ 1 ≤ q ∧ q < 16384 := by
  have hprev : k = 0 ∨ 256 ≤ q / 4 ^ (k - 1) :=
    k.eq_zero_or_pos.imp_right fun hpos => hmin (k - 1) (by omega)
  interval_cases k <;> omega

/-- The product, in 32 bits. -/
theorem product_toNat : (baudrate * 256).toNat = 256 * (baudrate.toNat % 2 ^ 24) := by
  rw [UInt32.toNat_mul, Nat.mul_comm]
  exact Nat.mul_mod_mul_left 256 baudrate.toNat (2 ^ 24)

theorem quotient_eq (b : ℕ) : 294912000 / (256 * b) = 1152000 / b :=
  (Nat.div_div_eq_div_mul 294912000 256 b).symm

theorem one_le_quotient_iff {b : ℕ} (hb : 0 < b) : 1 ≤ 1152000 / b ↔ b ≤ 1152000 := by
  rw [Nat.le_div_iff_mul_le hb, one_mul]

theorem quotient_lt_iff {b : ℕ} (hb : 0 < b) : 1152000 / b < 16384 ↔ 70 < b := by
  rw [Nat.div_lt_iff_lt_mul hb]
  omega

/-- The range check, on the value of the divisor. -/
theorem refused_iff (d : UInt32) : d = 0 ∨ d ≥ 256 ↔ ¬(1 ≤ d.toNat ∧ d.toNat ≤ 255) := by
  rw [← UInt32.toNat_inj, ge_iff_le, UInt32.le_iff_toNat_le]
  show d.toNat = 0 ∨ 256 ≤ d.toNat ↔ _
  omega

theorem bgr_toNat {c d : UInt32} (hc : c.toNat ≤ 3) (hd : d.toNat ≤ 255) :
    (c <<< 8 ||| d).toNat = c.toNat * 256 + d.toNat := by
  have hshift : (c <<< 8).toNat = 2 ^ 8 * c.toNat :=
    toNat_shiftLeft_eq (n := 8) rfl (by decide) (by omega)
  rw [toNat_or_add hshift (by omega)]
  omega

/-- A rate is refused, or programmed as what the product leaves of it. -/
theorem debugSioInit_cases {b : ℕ} (hb : b = baudrate.toNat % 2 ^ 24) (hpos : 0 < b) (regs : Regs)
    (u : Sio) :
    (¬(1 ≤ 1152000 / b ∧ 1152000 / b < 16384) ∧
      ∃ regs', debugSioInit baudrate regs u = some (-2, regs', u)) ∨
    ((1 ≤ 1152000 / b ∧ 1152000 / b < 16384) ∧
      ∃ regs', debugSioInit baudrate regs u = some (0, regs', { u with lastOutput := 0 }) ∧
        ∃ k ≤ 3, regs'.bgr.toNat = k * 256 + 1152000 / b / 4 ^ k ∧ 1 ≤ 1152000 / b / 4 ^ k ∧
          1152000 / b / 4 ^ k ≤ 255) := by
  have hzero : baudrate ≠ 0 := by
    rintro rfl
    exact hpos.ne' hb
  have hproduct : (baudrate * 256).toNat = 256 * b := hb ▸ product_toNat
  have hproduct_ne : baudrate * 256 ≠ 0 := by
    intro h
    rw [h, UInt32.toNat_zero] at hproduct
    omega
  have hq : (sioCpuClock / (baudrate * 256)).toNat = 1152000 / b := by
    rw [UInt32.toNat_div, hproduct, ← quotient_eq]
    rfl
  obtain ⟨k, hk, hd, hc, hmin, hlast⟩ :=
    scaleDivisor_eq (q := sioCpuClock / (baudrate * 256)) (c := 0) 3 le_rfl
  rw [hq] at hd hmin hlast
  rw [UInt32.toNat_zero, Nat.zero_add] at hc
  rw [debugSioInit, if_neg hzero, if_neg hproduct_ne]
  revert hd hc
  obtain ⟨d, c⟩ := scaleDivisor 3 (sioCpuClock / (baudrate * 256)) 0
  dsimp only
  intro hd hc
  rw [← fits_iff hk hmin hlast, ← hd]
  by_cases hfits : 1 ≤ d.toNat ∧ d.toNat ≤ 255
  · rw [if_neg (mt (refused_iff d).1 (not_not.2 hfits))]
    refine Or.inr ⟨hfits, _, rfl, k, hk, ?_, hd ▸ hfits⟩
    rw [← hd, ← hc]
    exact bgr_toNat (hc ▸ hk) hfits.2
  · rw [if_pos ((refused_iff d).2 hfits)]
    exact Or.inl ⟨hfits, _, rfl⟩

theorem debugSioInit_wrapped (hne : baudrate ≠ 0) (hb : baudrate.toNat % 2 ^ 24 = 0) (regs : Regs)
    (u : Sio) : debugSioInit baudrate regs u = none := by
  have hproduct : baudrate * 256 = 0 := by
    rw [← UInt32.toNat_inj, product_toNat, hb]
    rfl
  rw [debugSioInit, if_neg hne, if_pos hproduct]

/-- Nothing was divided by zero, and a rate that was accepted is the one programmed. -/
def Exact (baudrate : UInt32) : Option (ℤ × Regs × Sio) → Prop
  | none => False
  | some (r, regs, _) => r = 0 ∧ Programs baudrate regs.bgr ∨ r < 0

/-- The call is exact for the rates whose product with 256 fits in 32 bits, and for those it refuses
for what is left of the product. -/
theorem debugSioInit_exact_iff (baudrate : UInt32) (regs : Regs) (u : Sio) :
    Exact baudrate (debugSioInit baudrate regs u) ↔
      baudrate.toNat < 2 ^ 24 ∨
      (1 ≤ baudrate.toNat % 2 ^ 24 ∧ baudrate.toNat % 2 ^ 24 ≤ 70) ∨
      1152000 < baudrate.toNat % 2 ^ 24 := by
  obtain ⟨b, hb⟩ : ∃ b, b = baudrate.toNat % 2 ^ 24 := ⟨_, rfl⟩
  rw [← hb]
  by_cases hzero : baudrate = 0
  · subst hzero
    exact iff_of_true (Or.inr (by decide)) (Or.inl (by decide))
  have hne : baudrate.toNat ≠ 0 := fun h => hzero (UInt32.toNat_inj.1 h)
  rcases Nat.eq_zero_or_pos b with hb0 | hpos
  · rw [debugSioInit_wrapped hzero (hb ▸ hb0)]
    exact iff_of_false id (by omega)
  have hone := one_le_quotient_iff hpos
  have hlt := quotient_lt_iff hpos
  obtain ⟨hrange, regs', hinit⟩ | ⟨hrange, regs', hinit, k, hk, hbgr, hd⟩ :=
    debugSioInit_cases hb hpos regs u
  · rw [hinit]
    exact iff_of_true (Or.inr (by decide)) (by omega)
  · rw [hinit]
    constructor
    · rintro (⟨-, c, d, -, -, hd', -, hexact⟩ | hneg)
      · -- a rate from 2^24 on has the exact quotient zero
        refine Or.inl (Nat.not_le.1 fun hlarge => ?_)
        have hlt : 1152000 < baudrate.toNat := by omega
        rw [quotient_eq, Nat.div_eq_of_lt hlt, Nat.zero_div] at hexact
        omega
      · exact absurd hneg (by decide)
    · intro hcond
      have hexact : b = baudrate.toNat := by
        rw [hb]
        exact Nat.mod_eq_of_lt (by omega)
      exact Or.inl ⟨rfl, k, _, hbgr, hk, hd.1, hd.2, by rw [quotient_eq, hexact]⟩

/-- A rate that the product of divides by zero, and one that is programmed as 115200. -/
theorem debugSioInit_wraps :
    debugSioInit 0x01000000 ⟨0, 0, 0, 0⟩ ⟨0, 0, []⟩ = none ∧
    ¬Exact 0x01000000 (debugSioInit 0x01000000 ⟨0, 0, 0, 0⟩ ⟨0, 0, []⟩) ∧
    ¬Exact 0x0101C200 (debugSioInit 0x0101C200 ⟨0, 0, 0, 0⟩ ⟨0, 0, []⟩) := by
  have hnone : debugSioInit 0x01000000 ⟨0, 0, 0, 0⟩ ⟨0, 0, []⟩ = none := rfl
  have hsome : debugSioInit 0x0101C200 ⟨0, 0, 0, 0⟩ ⟨0, 0, []⟩ =
    some (0, ⟨sioLcrScs, 0, 0, 10⟩, ⟨0, 0, []⟩) := rfl
  refine ⟨hnone, hnone ▸ id, ?_⟩
  rw [hsome]
  rintro (⟨-, c, d, -, -, hpos, -, hexact⟩ | hneg)
  · rw [show 294912000 / (256 * (0x0101C200 : UInt32).toNat) = 0 from rfl, Nat.zero_div] at hexact
    omega
  · exact absurd hneg (by decide)

/-! ## Newlines -/

/-- A carriage return goes before a newline that does not come after one. -/
def newline (before x : UInt8) : List UInt8 :=
  if x = 0x0A ∧ before ≠ 0x0D then [0x0D, x] else [x]

/-- Writes one after the other, with their results. -/
def sioWrites (isr : ℕ → UInt32) : List (List UInt8) → Sio → List ℤ × Sio
  | [], u => ([], u)
  | data :: pieces, u =>
    let (result, u) := debugSioWrite isr data u
    let (results, u) := sioWrites isr pieces u
    (result :: results, u)

variable {isr : ℕ → UInt32} {value : UInt8} {data : List UInt8}

/-- A byte, and what is done after it unless the transmitter times out. -/
def putThen (isr : ℕ → UInt32) (value : UInt8) (f : Sio → ℤ × Sio) (u : Sio) : ℤ × Sio :=
  let (result, u) := sioPutcBounded isr value u
  if result < 0 then (-1, u) else f u

theorem putThen_cases (isr : ℕ → UInt32) (value : UInt8) (f : Sio → ℤ × Sio) (u : Sio) :
    (putThen isr value f u).1 = -1 ∨
      ∃ reads, putThen isr value f u = f ⟨value, reads, u.sent ++ [value]⟩ := by
  unfold putThen sioPutcBounded
  obtain ⟨ready, reads⟩ := sioAwaitReady isr sioTxTimeout u.reads
  cases ready with
  | false => exact Or.inl rfl
  | true => exact Or.inr ⟨reads, rfl⟩

theorem sioWriteLoop_cons (isr : ℕ → UInt32) (value : UInt8) (data : List UInt8) (u : Sio) :
    sioWriteLoop isr (value :: data) u =
      if value = 0x0A ∧ u.lastOutput ≠ 0x0D then
        putThen isr 0x0D (putThen isr value (sioWriteLoop isr data)) u
      else putThen isr value (sioWriteLoop isr data) u := by
  rw [sioWriteLoop]
  split_ifs <;> rfl

/-- The last byte sent is the byte before in the stream. -/
theorem sioWriteLoop_cases (isr : ℕ → UInt32) (data : List UInt8) (u : Sio) :
    (sioWriteLoop isr data u).1 = -1 ∨
      ∃ reads, sioWriteLoop isr data u = (0, ⟨data.getLastD u.lastOutput, reads,
        u.sent ++ translate newline u.lastOutput data⟩) := by
  induction data generalizing u with
  | nil => exact Or.inr ⟨u.reads, by rw [translate_nil, List.append_nil]; rfl⟩
  | cons value data ih =>
    have hput : ∀ u', (putThen isr value (sioWriteLoop isr data) u').1 = -1 ∨
        ∃ reads, putThen isr value (sioWriteLoop isr data) u' = (0, ⟨data.getLastD value, reads,
          u'.sent ++ [value] ++ translate newline value data⟩) := fun u' => by
      obtain hfail | ⟨reads, hput⟩ := putThen_cases isr value (sioWriteLoop isr data) u'
      · exact Or.inl hfail
      · rw [hput]
        exact ih ⟨value, reads, u'.sent ++ [value]⟩
    rw [sioWriteLoop_cons, List.getLastD_cons, translate_cons, newline]
    split_ifs
    · obtain hfail | ⟨reads, hreturn⟩ :=
        putThen_cases isr 0x0D (putThen isr value (sioWriteLoop isr data)) u
      · exact Or.inl hfail
      · have hbytes : u.sent ++ ([0x0D, value] ++ translate newline value data) =
            u.sent ++ [0x0D] ++ [value] ++ translate newline value data := by simp
        rw [hreturn, hbytes]
        exact hput ⟨0x0D, reads, u.sent ++ [0x0D]⟩
    · rw [← List.append_assoc]
      exact hput u

theorem debugSioWrite_cases (isr : ℕ → UInt32) (data : List UInt8) (u : Sio) :
    (debugSioWrite isr data u).1 = -1 ∨
      ∃ reads, debugSioWrite isr data u = (sizeResult data, ⟨data.getLastD u.lastOutput, reads,
        u.sent ++ translate newline u.lastOutput data⟩) := by
  obtain hfail | ⟨reads, hloop⟩ := sioWriteLoop_cases isr data u
  · refine Or.inl ?_
    unfold debugSioWrite
    dsimp only
    rw [hfail]
    rfl
  · exact Or.inr ⟨reads, by rw [debugSioWrite, hloop]; rfl⟩

theorem sioWrites_cons (isr : ℕ → UInt32) (data : List UInt8) (pieces : List (List UInt8))
    (u : Sio) : sioWrites isr (data :: pieces) u =
      ((debugSioWrite isr data u).1 :: (sioWrites isr pieces (debugSioWrite isr data u).2).1,
        (sioWrites isr pieces (debugSioWrite isr data u).2).2) :=
  rfl

/-- The bytes sent by writes that do not time out, and their results. -/
theorem sioWrites_eq {pieces : List (List UInt8)} {u : Sio}
    (h : ∀ result ∈ (sioWrites isr pieces u).1, result ≠ -1) :
    (sioWrites isr pieces u).1 = pieces.map sizeResult ∧
    (sioWrites isr pieces u).2.sent =
      u.sent ++ translate newline u.lastOutput pieces.flatten := by
  induction pieces generalizing u with
  | nil => exact ⟨rfl, by simp [sioWrites]⟩
  | cons data pieces ih =>
    obtain hfail | ⟨reads, hwrite⟩ := debugSioWrite_cases isr data u
    · exact absurd hfail (h _ List.mem_cons_self)
    · rw [sioWrites_cons, hwrite] at h ⊢
      obtain ⟨hresults, hsent⟩ := ih fun result hresult => h result (List.mem_cons_of_mem _ hresult)
      refine ⟨congrArg (sizeResult data :: ·) hresults, ?_⟩
      rw [hsent, List.flatten_cons, translate_append, List.append_assoc]

/-- The writes after `ef2_debug_sio_init`, none of which times out, put the bytes written into the
FIFO, with a carriage return before each newline that comes after another byte or none. After an
init that failed, the first byte comes after the last byte sent before. -/
theorem sioWrites_newlines (isr : ℕ → UInt32) (baudrate : UInt32) (regs regs' : Regs) (u u' : Sio)
    (r : ℤ) (pieces : List (List UInt8))
    (hinit : debugSioInit baudrate regs u = some (r, regs', u'))
    (hresults : ∀ result ∈ (sioWrites isr pieces u').1, result ≠ -1) :
    (sioWrites isr pieces u').1 = pieces.map sizeResult ∧
    (sioWrites isr pieces u').2.sent =
      u.sent ++ translate newline (if r = 0 then 0 else u.lastOutput) pieces.flatten := by
  obtain ⟨hsent, hlast⟩ := debugSioInit_sent hinit
  rw [← hsent, ← hlast]
  exact sioWrites_eq hresults

/-- A pair cut in two, and newlines of their own. -/
theorem sioWrites_newlines_cut :
    (sioWrites (fun n => if n % 2 = 0 then 0x8000 else 0) [[0x0A, 0x61, 0x0D], [], [0x0A, 0x0A]]
      ⟨0, 0, [0x0D]⟩).2.sent = [0x0D, 0x0D, 0x0A, 0x61, 0x0D, 0x0A, 0x0D, 0x0A] :=
  (sioWrites_newlines (fun n => if n % 2 = 0 then 0x8000 else 0) 115200 ⟨0, 0, 0, 0⟩
    ⟨sioLcrScs, 0, 0, 10⟩ ⟨0x0D, 0, [0x0D]⟩ ⟨0, 0, [0x0D]⟩ 0
    [[0x0A, 0x61, 0x0D], [], [0x0A, 0x0A]] rfl (by decide +kernel)).2

end EF2SDK.DebugSio
