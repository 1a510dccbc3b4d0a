import EF2SDK.GsPackets

/-!
# The grammar of a GIF stream

The GIF reads a tag, then the qwords the tag governs, then the next tag : `PACKED` data has one
qword for each of its `NREG` registers in each of `NLOOP` loops, `REGLIST` data has two registers a
qword, and `IMAGE` data has `NLOOP` qwords. `parse` reads a stream as the packets it consists of,
and reads nothing of a stream that ends before its last packet does.
-/

set_option autoImplicit false

namespace EF2SDK.Gs

open BitFields
open Gif (Qword)

/-- The fields of a tag, with its registers. -/
structure Tag where
  nloop : ℕ
  eop : ℕ
  pre : ℕ
  prim : ℕ
  flg : ℕ
  nreg : ℕ
  regs : UInt64
  deriving DecidableEq

def readTag (q : Qword) : Tag where
  nloop := field q.lo.toNat 0 15
  eop := field q.lo.toNat 15 1
  pre := field q.lo.toNat 46 1
  prim := field q.lo.toNat 47 11
  flg := field q.lo.toNat 58 2
  nreg := field q.lo.toNat 60 4
  regs := q.hi

/-- The number of qwords that the tag governs ; an `NREG` of 0 is 16. -/
def Tag.count (t : Tag) : ℕ :=
  let nreg := if t.nreg = 0 then 16 else t.nreg
  match t.flg with
  | 0 => t.nloop * nreg
  | 1 => (t.nloop * nreg + 1) / 2
  | _ => t.nloop

/-- The packets of a stream : each tag with the qwords it governs. -/
def parse : List Qword → Option (List (Tag × List Qword))
  | [] => some []
  | q :: rest =>
    let n := (readTag q).count
    if rest.length < n then none
    else (parse (rest.drop n)).map ((readTag q, rest.take n) :: ·)
termination_by stream => stream.length
decreasing_by
  rw [List.length_drop, List.length_cons]
  omega

theorem parse_nil : parse [] = some [] := by
  rw [parse]

theorem parse_cons {q : Qword} {data : List Qword} (h : data.length = (readTag q).count)
    (rest : List Qword) :
    parse (q :: (data ++ rest)) = (parse rest).map ((readTag q, data) :: ·) := by
  rw [parse, if_neg (by rw [List.length_append]; omega), ← h, List.drop_left, List.take_left]

theorem readTag_gifPackTag (nloop : UInt16) (eop pre : UInt8) (prim : UInt16) (flg nreg : UInt8)
    (regs : UInt64) :
    readTag ⟨gifPackTag nloop eop pre prim flg nreg, regs⟩ =
      ⟨nloop.toNat % 2 ^ 15, eop.toNat % 2, pre.toNat % 2, prim.toNat % 2 ^ 11, flg.toNat % 2 ^ 2,
        nreg.toNat % 2 ^ 4, regs⟩ := by
  have hfields := gifPackTag_fields nloop eop pre prim flg nreg
  simp only [fields, tagLayout, List.map_cons, List.map_nil, List.cons.injEq, and_true] at hfields
  obtain ⟨hnloop, heop, hpre, hprim, hflg, hnreg⟩ := hfields
  simp only [readTag, hnloop, heop, hpre, hprim, hflg, hnreg]

/-- The tag of `n` register writes. -/
theorem readTag_adTag {n : UInt16} (h : n.toNat < 2 ^ 15) :
    readTag (adTag n) = ⟨n.toNat, 1, 0, 0, 0, 1, gifRegAd⟩ := by
  rw [adTag, readTag_gifPackTag, Nat.mod_eq_of_lt h]
  rfl

/-- The tag of `n` qwords of image data. -/
theorem readTag_imageTag {n : ℕ} (h : n < 2 ^ 15) :
    readTag ⟨gifPackTag (UInt16.ofNat n) 1 0 0 gifFlgImage 0, 0⟩ = ⟨n, 1, 0, 0, 2, 0, 0⟩ := by
  have hn : (UInt16.ofNat n).toNat = n := UInt16.toNat_ofNat_of_lt' (Nat.lt_trans h (by decide))
  rw [readTag_gifPackTag, hn, Nat.mod_eq_of_lt h]
  rfl

/-- The stream is read as these packets, whatever follows it. -/
def Reads (stream : List Qword) (packets : List (Tag × List Qword)) : Prop :=
  ∀ rest, parse (stream ++ rest) = (parse rest).map (packets ++ ·)

theorem Reads.nil : Reads [] [] := by
  intro rest
  cases h : parse rest <;> simp [h]

theorem Reads.packet {q : Qword} {data : List Qword} (h : data.length = (readTag q).count) :
    Reads (q :: data) [(readTag q, data)] :=
  parse_cons h

theorem Reads.append {stream stream' : List Qword} {packets packets' : List (Tag × List Qword)}
    (h : Reads stream packets) (h' : Reads stream' packets') :
    Reads (stream ++ stream') (packets ++ packets') := by
  intro rest
  rw [List.append_assoc, h, h', Option.map_map]
  exact congrArg (Option.map · (parse rest)) (funext fun later => (List.append_assoc ..).symm)

theorem Reads.parse_eq {stream : List Qword} {packets : List (Tag × List Qword)}
    (h : Reads stream packets) : parse stream = some packets := by
  have hstream := h []
  rwa [List.append_nil, parse_nil, Option.map_some, List.append_nil] at hstream

end EF2SDK.Gs
