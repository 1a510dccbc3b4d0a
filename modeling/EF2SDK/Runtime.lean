import EF2SDK.ByteMemory
import EF2SDK.Words
import Mathlib.Algebra.Group.Int.Defs
import Mathlib.Tactic.Tauto

/-!
# The arguments of the launcher

`ef2_runtime_capture_loader_args` of `src/ee/runtime/runtime.c` finds `argc` and `argv` behind
the registers a launcher left : in the registers themselves, in a block `{pid, argc, argv}`, or
in a block `{argc, argv}`. It tells the blocks apart by their second word, which is an `argc` in
the one and a pointer in the other (`argcValid_toInt32`).

The check of a pointer is about its own word, and the second word is read first. So the last
word of user memory passes the check, and the word after it is read (`captureLoaderArgs_ok_iff`).
-/

set_option autoImplicit false

namespace EF2SDK.Runtime

open ByteMemory

/-- `EF2_RUNTIME_MAX_ARGS`. -/
abbrev maxArgs : UInt32 := 16

/-- `EF2_RUNTIME_USER_MIN`. -/
abbrev userMin : UInt32 := 0x00100000

/-- `EF2_RUNTIME_USER_MAX`. -/
abbrev userMax : UInt32 := 0x02000000

/-- `ef2_runtime_args_source`. -/
inductive ArgsSource
  | none
  | direct
  | sargsStart
  | sargs
deriving DecidableEq

/-- `g_argc`, `g_argv`, `g_raw_a0`, `g_raw_a1` and `g_source`. -/
structure Args where
  argc : Int32
  argv : UInt32
  rawA0 : UInt32
  rawA1 : UInt32
  source : ArgsSource
deriving DecidableEq

/-- `ef2_runtime_user_pointer`. -/
def userPointer (value : UInt32) : Bool :=
  value ≥ userMin ∧ value < userMax ∧ value &&& 3 = 0

/-- `ef2_runtime_argc_valid`. -/
def argcValid (argc : Int32) : Bool :=
  argc ≥ 0 ∧ argc ≤ maxArgs.toInt32

/-- The word at an address. -/
def word (m : Mem) (a : UInt32) : UInt32 :=
  .ofNat (readU32 m a.toNat)

/-- `ef2_runtime_capture_loader_args`, and the addresses it reads a word at. -/
def captureLoaderArgs (m : Mem) (rawA0 rawA1 : UInt32) : Args × List UInt32 :=
  let args : Args := ⟨0, 0, rawA0, rawA1, .none⟩
  if rawA0 ≤ maxArgs ∧ (rawA0 = 0 ∨ userPointer rawA1) then
    ({ args with
        argc := rawA0.toInt32
        argv := if rawA0 = 0 then 0 else rawA1
        source := .direct }, [])
  else if userPointer rawA0 then
    let argc := (word m (rawA0 + 4)).toInt32
    if argcValid argc then
      ({ args with argc := argc, argv := rawA0 + 8, source := .sargsStart }, [rawA0 + 4])
    else if argcValid (word m rawA0).toInt32 then
      ({ args with argc := (word m rawA0).toInt32, argv := rawA0 + 4, source := .sargs },
        [rawA0 + 4, rawA0, rawA0])
    else (args, [rawA0 + 4, rawA0])
  else (args, [])

/-! ## What it is for -/

/-- `{argc, argv}` at `a`, with an argument or more and pointers to user memory. -/
structure Sargs (m : Mem) (a argc : UInt32) : Prop where
  pos : 1 ≤ argc
  le : argc ≤ maxArgs
  count : word m a = argc
  argv : ∀ i < argc.toNat, userMin ≤ word m (a + 4 + .ofNat (4 * i)) ∧
    word m (a + 4 + .ofNat (4 * i)) < userMax

/-- One of the forms. -/
def Applies (m : Mem) (rawA0 rawA1 : UInt32) : Prop :=
  (rawA0 ≤ maxArgs ∧ (rawA0 = 0 ∨ userPointer rawA1)) ∨
    (userPointer rawA0 ∧ (word m (rawA0 + 4) ≤ maxArgs ∨ word m rawA0 ≤ maxArgs))

/-- What the call is to do. -/
structure Captured (m : Mem) (rawA0 rawA1 : UInt32) : Prop where
  reads : ∀ a ∈ (captureLoaderArgs m rawA0 rawA1).2, userMin ≤ a ∧ a < userMax
  argc : 0 ≤ (captureLoaderArgs m rawA0 rawA1).1.argc.toInt ∧
    (captureLoaderArgs m rawA0 rawA1).1.argc.toInt ≤ 16
  argv : (captureLoaderArgs m rawA0 rawA1).1.argv = 0 ↔ ¬Applies m rawA0 rawA1 ∨ rawA0 = 0
  direct : 1 ≤ rawA0 → rawA0 ≤ maxArgs → userPointer rawA1 →
    (captureLoaderArgs m rawA0 rawA1).1 = ⟨rawA0.toInt32, rawA1, rawA0, rawA1, .direct⟩
  sargsStart : userPointer rawA0 → ∀ argc, Sargs m (rawA0 + 4) argc →
    (captureLoaderArgs m rawA0 rawA1).1 = ⟨argc.toInt32, rawA0 + 8, rawA0, rawA1, .sargsStart⟩
  sargs : userPointer rawA0 → ∀ argc, Sargs m rawA0 argc →
    (captureLoaderArgs m rawA0 rawA1).1 = ⟨argc.toInt32, rawA0 + 4, rawA0, rawA1, .sargs⟩

variable {m : Mem} {rawA0 rawA1 w argc : UInt32}

theorem toInt_toInt32 (w : UInt32) : w.toInt32.toInt =
    if 2 * w.toNat < 2 ^ 32 then (w.toNat : ℤ) else (w.toNat : ℤ) - 2 ^ 32 :=
  BitVec.toInt_eq_toNat_cond w.toBitVec

/-- A word is an `argc` exactly when it is small without a sign. -/
theorem argcValid_toInt32 : argcValid w.toInt32 = true ↔ w ≤ maxArgs := by
  have hlt := w.toNat_lt
  have hmax : maxArgs.toInt32.toInt = 16 := rfl
  simp only [argcValid, decide_eq_true_eq, ge_iff_le, Int32.le_iff_toInt_le, Int32.toInt_zero,
    toInt_toInt32 w, hmax, UInt32.le_iff_toNat_le]
  show _ ↔ w.toNat ≤ 16
  split_ifs <;> omega

theorem toInt_of_le (h : w ≤ maxArgs) : 0 ≤ w.toInt32.toInt ∧ w.toInt32.toInt ≤ 16 := by
  have hle : w.toNat ≤ 16 := UInt32.le_iff_toNat_le.1 h
  rw [toInt_toInt32, if_pos (by omega)]
  omega

theorem userPointer_iff : userPointer w = true ↔
    userMin.toNat ≤ w.toNat ∧ w.toNat < userMax.toNat ∧ w.toNat % 4 = 0 := by
  have hmask : (w &&& 3).toNat = w.toNat % 2 ^ 2 := toNat_and_mask rfl
  simp only [userPointer, decide_eq_true_eq, ge_iff_le, UInt32.le_iff_toNat_le,
    UInt32.lt_iff_toNat_lt, ← UInt32.toNat_inj, hmask]
  exact Iff.rfl

/-- A pointer to user memory is no `argc`. -/
theorem not_le_of_user (h : userMin ≤ w) : ¬w ≤ maxArgs := by
  rw [UInt32.le_iff_toNat_le] at h ⊢
  exact Nat.not_le.2 (Nat.lt_of_lt_of_le (by decide) h)

theorem toNat_add_of_userPointer (h : userPointer w = true) (k : UInt32) (hk : k.toNat ≤ 8) :
    (w + k).toNat = w.toNat + k.toNat := by
  have hlt : w.toNat < 0x02000000 := (userPointer_iff.1 h).2.1
  exact toNat_add_of_lt (by omega)

/-! ## The forms -/

theorem capture_direct (h : rawA0 ≤ maxArgs ∧ (rawA0 = 0 ∨ userPointer rawA1)) :
    captureLoaderArgs m rawA0 rawA1 =
      (⟨rawA0.toInt32, if rawA0 = 0 then 0 else rawA1, rawA0, rawA1, .direct⟩, []) :=
  if_pos h

/-- A pointer is no direct `argc`. -/
theorem not_direct (hpointer : userPointer rawA0 = true) :
    ¬(rawA0 ≤ maxArgs ∧ (rawA0 = 0 ∨ userPointer rawA1)) := fun h =>
  not_le_of_user (UInt32.le_iff_toNat_le.2 (userPointer_iff.1 hpointer).1) h.1

theorem capture_start (hpointer : userPointer rawA0 = true) (hargc : word m (rawA0 + 4) ≤ maxArgs) :
    captureLoaderArgs m rawA0 rawA1 = (⟨(word m (rawA0 + 4)).toInt32, rawA0 + 8, rawA0, rawA1,
      .sargsStart⟩, [rawA0 + 4]) := by
  rw [captureLoaderArgs, if_neg (not_direct hpointer), if_pos hpointer]
  exact if_pos (argcValid_toInt32.2 hargc)

theorem capture_sargs (hpointer : userPointer rawA0 = true) (hstart : ¬word m (rawA0 + 4) ≤ maxArgs)
    (hargc : word m rawA0 ≤ maxArgs) :
    captureLoaderArgs m rawA0 rawA1 = (⟨(word m rawA0).toInt32, rawA0 + 4, rawA0, rawA1, .sargs⟩,
      [rawA0 + 4, rawA0, rawA0]) := by
  rw [captureLoaderArgs, if_neg (not_direct hpointer), if_pos hpointer]
  dsimp only
  rw [if_neg (mt argcValid_toInt32.1 hstart)]
  exact if_pos (argcValid_toInt32.2 hargc)

theorem capture_none (h : ¬Applies m rawA0 rawA1) :
    captureLoaderArgs m rawA0 rawA1 = (⟨0, 0, rawA0, rawA1, .none⟩,
      if userPointer rawA0 then [rawA0 + 4, rawA0] else []) := by
  obtain ⟨hdirect, hblock⟩ := not_or.1 h
  rw [captureLoaderArgs, if_neg hdirect]
  by_cases hpointer : userPointer rawA0 = true
  · obtain ⟨hstart, hsargs⟩ := not_or.1 (not_and.1 hblock hpointer)
    rw [if_pos hpointer, if_pos hpointer]
    dsimp only
    rw [if_neg (mt argcValid_toInt32.1 hstart), if_neg (mt argcValid_toInt32.1 hsargs)]
  · rw [if_neg hpointer, if_neg hpointer]

/-- The four ways a call ends. -/
theorem capture_cases (m : Mem) (rawA0 rawA1 : UInt32) :
    (rawA0 ≤ maxArgs ∧ (rawA0 = 0 ∨ userPointer rawA1)) ∨
    (userPointer rawA0 = true ∧ word m (rawA0 + 4) ≤ maxArgs) ∨
    (userPointer rawA0 = true ∧ ¬word m (rawA0 + 4) ≤ maxArgs ∧ word m rawA0 ≤ maxArgs) ∨
    ¬Applies m rawA0 rawA1 := by
  unfold Applies
  tauto

/-- Only the words of a block are read. -/
theorem capture_reads : ∀ a ∈ (captureLoaderArgs m rawA0 rawA1).2,
    userPointer rawA0 = true ∧ (a = rawA0 + 4 ∨ a = rawA0) := by
  intro a ha
  obtain h | ⟨hpointer, h⟩ | ⟨hpointer, h, h'⟩ | h := capture_cases m rawA0 rawA1
  · rw [capture_direct h] at ha
    exact absurd ha List.not_mem_nil
  · rw [capture_start hpointer h] at ha
    exact ⟨hpointer, Or.inl (List.mem_singleton.1 ha)⟩
  · rw [capture_sargs hpointer h h'] at ha
    exact ⟨hpointer, by simpa using ha⟩
  · rw [capture_none h] at ha
    split_ifs at ha with hpointer
    · exact ⟨hpointer, by simpa using ha⟩
    · exact absurd ha List.not_mem_nil

/-- The second word of a block is always read. -/
theorem mem_reads (hpointer : userPointer rawA0 = true) :
    rawA0 + 4 ∈ (captureLoaderArgs m rawA0 rawA1).2 := by
  obtain h | ⟨-, h⟩ | ⟨-, h, h'⟩ | h := capture_cases m rawA0 rawA1
  · exact absurd h (not_direct hpointer)
  · rw [capture_start hpointer h]
    exact List.mem_cons_self
  · rw [capture_sargs hpointer h h']
    exact List.mem_cons_self
  · rw [capture_none h, if_pos hpointer]
    exact List.mem_cons_self

theorem capture_argc : 0 ≤ (captureLoaderArgs m rawA0 rawA1).1.argc.toInt ∧
    (captureLoaderArgs m rawA0 rawA1).1.argc.toInt ≤ 16 := by
  obtain h | ⟨hpointer, h⟩ | ⟨hpointer, h, h'⟩ | h := capture_cases m rawA0 rawA1
  · rw [capture_direct h]
    exact toInt_of_le h.1
  · rw [capture_start hpointer h]
    exact toInt_of_le h
  · rw [capture_sargs hpointer h h']
    exact toInt_of_le h'
  · rw [capture_none h]
    exact toInt_of_le (w := 0) (by decide)

theorem ne_zero_of_user (h : userMin.toNat ≤ w.toNat) : w ≠ 0 := by
  rintro rfl
  exact absurd h (by decide)

theorem add_ne_zero (h : userPointer w = true) (k : UInt32) (hk : k.toNat ≤ 8) : w + k ≠ 0 := by
  have hmin := (userPointer_iff.1 h).1
  refine ne_zero_of_user ?_
  rw [toNat_add_of_userPointer h k hk]
  omega

theorem capture_argv : (captureLoaderArgs m rawA0 rawA1).1.argv = 0 ↔
    ¬Applies m rawA0 rawA1 ∨ rawA0 = 0 := by
  obtain h | ⟨hpointer, h⟩ | ⟨hpointer, h, h'⟩ | h := capture_cases m rawA0 rawA1
  · rw [capture_direct h]
    have happlies : Applies m rawA0 rawA1 := Or.inl h
    by_cases hzero : rawA0 = 0
    · exact iff_of_true (if_pos hzero) (Or.inr hzero)
    · have hargv : rawA1 ≠ 0 := ne_zero_of_user (userPointer_iff.1 (h.2.resolve_left hzero)).1
      refine iff_of_false ?_ (not_or.2 ⟨not_not.2 happlies, hzero⟩)
      rwa [if_neg hzero]
  · rw [capture_start hpointer h]
    have happlies : Applies m rawA0 rawA1 := Or.inr ⟨hpointer, Or.inl h⟩
    exact iff_of_false (add_ne_zero hpointer 8 (by decide))
      (not_or.2 ⟨not_not.2 happlies, ne_zero_of_user (userPointer_iff.1 hpointer).1⟩)
  · rw [capture_sargs hpointer h h']
    have happlies : Applies m rawA0 rawA1 := Or.inr ⟨hpointer, Or.inr h'⟩
    exact iff_of_false (add_ne_zero hpointer 4 (by decide))
      (not_or.2 ⟨not_not.2 happlies, ne_zero_of_user (userPointer_iff.1 hpointer).1⟩)
  · rw [capture_none h]
    exact iff_of_true rfl (Or.inl h)

/-- The second word of a block `{argc, argv}` is a pointer. -/
theorem Sargs.not_start (h : Sargs m rawA0 argc) : ¬word m (rawA0 + 4) ≤ maxArgs := by
  have hpos : 0 < argc.toNat := UInt32.le_iff_toNat_le.1 h.pos
  have hfirst := (h.argv 0 hpos).1
  rw [show rawA0 + 4 + .ofNat (4 * 0) = rawA0 + 4 from UInt32.add_zero _] at hfirst
  exact not_le_of_user hfirst

/-- The call does what it is for, unless its pointer is to the last word of user memory. -/
theorem captureLoaderArgs_ok_iff (m : Mem) (rawA0 rawA1 : UInt32) :
    Captured m rawA0 rawA1 ↔ rawA0 ≠ 0x01FFFFFC := by
  constructor
  · rintro h rfl
    have hread := (h.reads _ (mem_reads (by decide))).2
    exact absurd hread (by decide)
  · intro hne
    refine ⟨fun a ha => ?_, capture_argc, capture_argv, fun hpos hle hpointer => ?_,
      fun hpointer argc hargs => ?_, fun hpointer argc hargs => ?_⟩
    · obtain ⟨hpointer, ha⟩ := capture_reads a ha
      obtain ⟨hmin, hmax, halign⟩ := userPointer_iff.1 hpointer
      have hlast : rawA0.toNat ≠ 0x01FFFFFC := fun h => hne (UInt32.toNat_inj.1 h)
      have hmax' : userMax.toNat = 0x02000000 := rfl
      rw [UInt32.le_iff_toNat_le, UInt32.lt_iff_toNat_lt]
      rcases ha with rfl | rfl
      · rw [toNat_add_of_userPointer hpointer 4 (by decide)]
        show userMin.toNat ≤ rawA0.toNat + 4 ∧ rawA0.toNat + 4 < userMax.toNat
        omega
      · exact ⟨hmin, hmax⟩
    · have hzero : rawA0 ≠ 0 := by
        rintro rfl
        exact absurd hpos (by decide)
      rw [capture_direct ⟨hle, Or.inr hpointer⟩, if_neg hzero]
    · rw [capture_start hpointer (hargs.count ▸ hargs.le), hargs.count]
    · rw [capture_sargs hpointer hargs.not_start (hargs.count ▸ hargs.le), hargs.count]

/-- The word after user memory is read. -/
theorem lastWord_not_captured : ¬Captured (fun _ => 0) 0x01FFFFFC 0 := by
  intro h
  have hread := h.reads 0x02000000 (by decide)
  exact absurd hread.2 (by decide)

end EF2SDK.Runtime
