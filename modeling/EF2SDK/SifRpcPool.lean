import EF2SDK.SifRpcReplies

/-!
# Who owns a pool packet

A packet is allocated by `ef2_rpc_alloc_packet` and freed either when its send is
rejected or by the RPC_END that answers it. The RPC_END frees the packet its client
points at, `client->hdr.pkt_addr`, so a client that starts a new request while its last
one is unanswered points the late reply at the new packet : `leakRun` frees a packet
whose request is in flight and never frees the other one.

In a run where a client is given a packet only once its requests are answered
(`AttachAnswered`), the ALLOC bits are exact (`PoolExact`) : the packet is the one the
thread is building, or the one of a request in flight, no two requests share a packet,
and none is handed out again before its request is answered. `PoolInv` adds what the
interrupt handler relies on : the client named by a request in flight points at its
packet.
-/

set_option autoImplicit false

namespace EF2SDK.Sif

variable {s t : State}

/-- The packet between its allocation and the answer of the DMA to its send. -/
def Pc.Building : Pc → Fin rpcPacketCount → Prop
  | .prepare _ p _, q => p = q
  | .reject _ p, q => p = q
  | _, _ => False

section Building

variable {v : Invocation} {p q : Fin rpcPacketCount}

@[simp] theorem building_prepare {todo : List Stmt} : (Pc.prepare v p todo).Building q ↔ p = q :=
  Iff.rfl

@[simp] theorem building_reject : (Pc.reject v p).Building q ↔ p = q :=
  Iff.rfl

@[simp] theorem not_building_alloc : ¬(Pc.alloc v).Building q :=
  not_false

@[simp] theorem not_building_wait {seq outer : ℕ} : ¬(Pc.wait v seq outer).Building q :=
  not_false

@[simp] theorem not_building_check {seq : ℕ} : ¬(Pc.check v seq).Building q :=
  not_false

@[simp] theorem not_building_detach : ¬(Pc.detach v).Building q :=
  not_false

@[simp] theorem not_building_returned {op : Op} {result : ℤ} {seq : Option ℕ} :
    ¬(Pc.returned op result seq).Building q :=
  not_false

end Building

/-- The ALLOC bits say who owns a packet, and every packet has at most one owner. -/
structure PoolExact (s : State) : Prop where
  owned : ∀ p, (s.packets p).Allocated ↔ s.pc.Building p ∨ ∃ r ∈ s.inFlight, r.packet = p
  nodup : (s.inFlight.map Request.packet).Nodup
  fresh : ∀ r ∈ s.inFlight, ¬s.pc.Building r.packet

/-- Whether the next statement may run : the one that points a client at its packet only
when no request of that client is in flight. -/
def AttachAllowed (inFlight : List Request) : Pc → Prop
  | .prepare v _ (.attach :: _) => ∀ r ∈ inFlight, r.content.client ≠ some v.client
  | _ => True

instance (inFlight : List Request) : ∀ pc, Decidable (AttachAllowed inFlight pc)
  | .prepare v _ (.attach :: _) =>
    inferInstanceAs (Decidable (∀ r ∈ inFlight, r.content.client ≠ some v.client))
  | .prepare _ _ [] | .prepare _ _ (.clearServer :: _) | .prepare _ _ (.clearBuf :: _)
  | .prepare _ _ (.clearCbuf :: _) | .prepare _ _ (.fill :: _) | .prepare _ _ (.clearDone :: _)
  | .idle | .alloc _ | .wait _ _ _ | .check _ _ | .reject _ _ | .detach _ | .returned _ _ _ =>
    isTrue trivial

/-- A client is given a packet only once its earlier requests are answered. -/
def AttachAnswered (s : State) : Choice → Prop
  | .cpu => AttachAllowed s.inFlight s.pc
  | _ => True

instance (s : State) : ∀ c, Decidable (AttachAnswered s c)
  | .cpu => inferInstanceAs (Decidable (AttachAllowed _ _))
  | .invoke _ _ | .send _ | .rpcEnd _ _ => isTrue trivial

/-- What the thread has already written at this point. -/
structure Written (s : State) : Prop where
  attached : ∀ v p todo, s.pc = .prepare v p todo → Stmt.attach ∉ todo →
    (s.clients v.client).pktAddr = some p
  filled : ∀ v p todo, s.pc = .prepare v p todo → Stmt.fill ∉ todo →
    (s.packets p).client = some v.client
  rejected : ∀ v p, s.pc = .reject v p → (s.clients v.client).pktAddr = some p
  detached : ∀ v, s.pc = .detach v → ∀ r ∈ s.inFlight, r.content.client ≠ some v.client

/-- The invariant of the pool. -/
structure PoolInv (s : State) : Prop extends PoolExact s, Written s where
  named : ∀ r ∈ s.inFlight, ∃ c, r.content.client = some c ∧ (s.clients c).pktAddr = some r.packet

/-- All replies have arrived and nothing is being built : every packet is free. -/
theorem PoolExact.all_free (h : PoolExact s) (hidle : ∀ p, ¬s.pc.Building p)
    (hans : s.inFlight = []) (p : Fin rpcPacketCount) : ¬(s.packets p).Allocated := by
  rw [h.owned p, hans]
  simp [hidle p]

theorem PoolInv.of_initial (h : Initial s) : PoolInv s where
  owned p := by simp [h.free p, h.inFlight, h.pc, Pc.Building]
  nodup := by simp [h.inFlight]
  fresh := by simp [h.inFlight]
  attached := by simp [h.pc]
  filled := by simp [h.pc]
  rejected := by simp [h.pc]
  detached := by simp [h.pc]
  named := by simp [h.inFlight]

/-! ## The ALLOC bit -/

theorem allocated_fresh (i : Fin rpcPacketCount) (id : BitVec 32) :
    (Packet.fresh i id).Allocated := by
  have h : ∀ i : Fin rpcPacketCount,
      ((BitVec.ofNat 32 i <<< 16) ||| rpcRecRequest ||| rpcAlloc) &&& rpcAlloc ≠ 0 := by decide
  exact h i

@[simp] theorem not_allocated_free (p : Packet) : ¬p.free.Allocated := by
  have h : ~~~rpcAlloc &&& rpcAlloc = 0 := by decide
  simp [Packet.Allocated, Packet.free, BitVec.and_assoc, h]

@[simp] theorem allocated_fillPacket (v : Invocation) (server : ℕ) (p : Packet) :
    (v.fillPacket server p).Allocated ↔ p.Allocated := by
  unfold Invocation.fillPacket Packet.Allocated
  cases v.op <;> rfl

@[simp] theorem client_fillPacket (v : Invocation) (server : ℕ) (p : Packet) :
    (v.fillPacket server p).client = some v.client := by
  unfold Invocation.fillPacket
  cases v.op <;> rfl

theorem not_allocated_of_firstFree {i : Fin rpcPacketCount} (h : s.firstFree = some i) :
    ¬(s.packets i).Allocated := by
  simpa using List.find?_some h

/-! ## What a statement changes -/

@[simp] theorem exec_inFlight (v : Invocation) (p : Fin rpcPacketCount) (st : Stmt) :
    (s.exec v p st).inFlight = s.inFlight := by
  cases st <;> rfl

/-- Filling a packet in is the only statement to touch one, and keeps its ALLOC bit. -/
theorem allocated_exec (v : Invocation) (p q : Fin rpcPacketCount) (st : Stmt) :
    ((s.exec v p st).packets q).Allocated ↔ (s.packets q).Allocated := by
  cases st with
  | fill =>
    by_cases hq : q = p
    · subst hq
      simp [State.exec]
    · simp [State.exec, hq]
  | clearServer | clearBuf | clearCbuf | attach | clearDone => rfl

theorem client_exec (v : Invocation) (p : Fin rpcPacketCount) (st : Stmt) :
    ((s.exec v p st).packets p).client =
      if st = .fill then some v.client else (s.packets p).client := by
  cases st with
  | fill => simp [State.exec]
  | clearServer | clearBuf | clearCbuf | attach | clearDone => rfl

theorem pktAddr_exec (v : Invocation) (p : Fin rpcPacketCount) (st : Stmt) (c : ClientId) :
    ((s.exec v p st).clients c).pktAddr =
      if st = .attach ∧ c = v.client then some p else (s.clients c).pktAddr := by
  by_cases hc : c = v.client
  · subst hc
    cases st <;> simp [State.exec, State.setClient]
  · cases st <;> simp [State.exec, State.setClient, hc]

/-! ## The steps keep the invariant -/

/-- A step that only moves the thread between points where it owns no packet. -/
theorem PoolInv.move (h : PoolInv s) {pc : Pc} (hold : ∀ q, ¬s.pc.Building q)
    (hpc : (∀ q, ¬pc.Building q) ∧ ∀ v, pc ≠ .detach v) : PoolInv { s with pc := pc } where
  owned p := by simp [h.owned p, hold p, hpc.1 p]
  nodup := h.nodup
  fresh r hr := hpc.1 _
  attached v p todo hv := by
    subst hv
    exact (hpc.1 p rfl).elim
  filled v p todo hv := by
    subst hv
    exact (hpc.1 p rfl).elim
  rejected v p hv := by
    subst hv
    exact (hpc.1 p rfl).elim
  detached v hv := (hpc.2 v hv).elim
  named := h.named

/-- A packet without the ALLOC bit is not the one of a request in flight. -/
theorem PoolInv.alloc {v : Invocation} {p : Fin rpcPacketCount} {u : State} (h : PoolInv s)
    (hold : ∀ q, ¬s.pc.Building q) (hu : s.rpcAllocPacket = some (p, u)) :
    PoolInv { u with pc := .prepare v p v.op.program } := by
  obtain ⟨i, hi, heq⟩ := Option.map_eq_some_iff.1 hu
  obtain ⟨rfl, rfl⟩ := Prod.mk.inj heq
  have hfree := not_allocated_of_firstFree hi
  have hnot : ∀ r ∈ s.inFlight, r.packet ≠ i := fun r hr hri =>
    hfree ((h.owned i).2 (Or.inr ⟨r, hr, hri⟩))
  refine ⟨⟨fun q => ?_, h.nodup, fun r hr hb => hnot r hr (Eq.symm hb)⟩, ⟨?_, ?_, ?_, ?_⟩, h.named⟩
  · by_cases hq : q = i
    · subst hq
      simp [allocated_fresh]
    · simp [hq, h.owned q, hold q, Ne.symm hq]
  · rintro v' p' todo ⟨⟩ hatt
    cases hop : v.op <;> simp [hop, Op.program] at hatt
  · rintro v' p' todo ⟨⟩ hfill
    cases hop : v.op <;> simp [hop, Op.program] at hfill
  · rintro v' p' ⟨⟩
  · rintro v' ⟨⟩

/-- No request in flight belongs to the client whose packet the thread builds. -/
theorem PoolInv.client_ne {c : ClientId} {p : Fin rpcPacketCount} (h : PoolInv s)
    (haddr : (s.clients c).pktAddr = some p) (hp : s.pc.Building p) :
    ∀ r ∈ s.inFlight, r.content.client ≠ some c := by
  intro r hr hc
  obtain ⟨c', hc', haddr'⟩ := h.named r hr
  obtain rfl : c' = c := Option.some.inj (hc'.symm.trans hc)
  obtain rfl : p = r.packet := Option.some.inj (haddr.symm.trans haddr')
  exact h.fresh r hr hp

theorem PoolInv.exec {v : Invocation} {p : Fin rpcPacketCount} {st : Stmt} {todo : List Stmt}
    (h : PoolInv s) (hpc : s.pc = .prepare v p (st :: todo)) (hok : AttachAnswered s .cpu) :
    PoolInv { s.exec v p st with pc := .prepare v p todo } := by
  have hb : ∀ q, s.pc.Building q ↔ p = q := fun q => by rw [hpc]; rfl
  refine ⟨⟨fun q => ?_, ?_, fun r hr hbr => ?_⟩, ⟨?_, ?_, ?_, ?_⟩, fun r hr => ?_⟩
  · simp only [allocated_exec, h.owned q, hb, exec_inFlight]
    rfl
  · simpa using h.nodup
  · simp only [exec_inFlight] at hr
    exact h.fresh r hr ((hb _).2 hbr)
  · rintro v' p' todo' ⟨⟩ hatt
    rw [pktAddr_exec]
    split_ifs with hst
    · rfl
    · refine h.attached v p (st :: todo) hpc fun hmem => ?_
      rcases List.mem_cons.1 hmem with rfl | hmem
      · exact hst ⟨rfl, rfl⟩
      · exact hatt hmem
  · rintro v' p' todo' ⟨⟩ hfill
    rw [client_exec]
    split_ifs with hst
    · rfl
    · refine h.filled v p (st :: todo) hpc fun hmem => ?_
      rcases List.mem_cons.1 hmem with rfl | hmem
      · exact hst rfl
      · exact hfill hmem
  · rintro v' p' ⟨⟩
  · rintro v' ⟨⟩
  · simp only [exec_inFlight] at hr
    obtain ⟨c, hc, haddr⟩ := h.named r hr
    refine ⟨c, hc, ?_⟩
    rw [pktAddr_exec, if_neg, haddr]
    rintro ⟨rfl, rfl⟩
    simp only [AttachAnswered, AttachAllowed, hpc] at hok
    exact hok r hr hc

/-- An accepted send puts the packet in flight under the client it names. -/
theorem PoolInv.sent {v : Invocation} {p : Fin rpcPacketCount} (h : PoolInv s)
    (hpc : s.pc = .prepare v p []) :
    PoolInv { s with
      inFlight := s.inFlight ++ [⟨s.sent, p, v.op, s.packets p⟩]
      sent := s.sent + 1
      pc := .wait v s.sent 0 } := by
  have hb : ∀ q, s.pc.Building q ↔ p = q := fun q => by rw [hpc]; rfl
  have hne : ∀ r ∈ s.inFlight, r.packet ≠ p := fun r hr hp => h.fresh r hr ((hb _).2 hp.symm)
  refine ⟨⟨fun q => ?_, ?_, fun r _ => not_false⟩, ⟨?_, ?_, ?_, ?_⟩, fun r hr => ?_⟩
  · rw [h.owned q, hb]
    simp [or_and_right, exists_or, or_comm]
  · simpa [List.nodup_append, h.nodup] using hne
  · rintro v' p' todo ⟨⟩
  · rintro v' p' todo ⟨⟩
  · rintro v' p' ⟨⟩
  · rintro v' ⟨⟩
  · rcases List.mem_append.1 hr with hr | hr
    · exact h.named r hr
    · obtain rfl := List.mem_singleton.1 hr
      exact ⟨v.client, h.filled v p [] hpc (by simp), h.attached v p [] hpc (by simp)⟩

theorem PoolInv.sendRejected {v : Invocation} {p : Fin rpcPacketCount} (h : PoolInv s)
    (hpc : s.pc = .prepare v p []) : PoolInv { s with pc := .reject v p } := by
  have hb : ∀ q, s.pc.Building q ↔ p = q := fun q => by rw [hpc]; rfl
  refine ⟨⟨fun q => ?_, h.nodup, fun r hr hbr => h.fresh r hr ((hb _).2 hbr)⟩, ⟨?_, ?_, ?_, ?_⟩,
    h.named⟩
  · rw [h.owned q, hb]
    rfl
  · rintro v' p' todo ⟨⟩
  · rintro v' p' todo ⟨⟩
  · rintro v' p' ⟨⟩
    exact h.attached v p [] hpc (by simp)
  · rintro v' ⟨⟩

theorem PoolInv.reject {v : Invocation} {p : Fin rpcPacketCount} (h : PoolInv s)
    (hpc : s.pc = .reject v p) : PoolInv { s.rpcPacketFree p with pc := .detach v } := by
  have hb : ∀ q, s.pc.Building q ↔ p = q := fun q => by rw [hpc]; rfl
  have hne : ∀ r ∈ s.inFlight, r.packet ≠ p := fun r hr hp => h.fresh r hr ((hb _).2 hp.symm)
  refine ⟨⟨fun q => ?_, h.nodup, fun r _ => not_false⟩, ⟨?_, ?_, ?_, ?_⟩, h.named⟩
  · by_cases hq : q = p
    · subst hq
      simpa [State.rpcPacketFree] using hne
    · simp [State.rpcPacketFree, hq, h.owned q, hb, Ne.symm hq]
  · rintro v' p' todo ⟨⟩
  · rintro v' p' todo ⟨⟩
  · rintro v' p' ⟨⟩
  · rintro v' ⟨⟩
    exact h.client_ne (h.rejected v p hpc) ((hb p).2 rfl)

theorem PoolInv.detach {v : Invocation} (h : PoolInv s) (hpc : s.pc = .detach v) :
    PoolInv { s.setClient v.client { s.clients v.client with pktAddr := none } with
      pc := .returned v.op (-3) none } := by
  have hb : ∀ q, ¬s.pc.Building q := fun q => by rw [hpc]; exact not_false
  refine ⟨⟨fun q => ?_, h.nodup, fun r _ => not_false⟩, ⟨?_, ?_, ?_, ?_⟩, fun r hr => ?_⟩
  · simp [State.setClient, h.owned q, hb]
  · rintro v' p' todo ⟨⟩
  · rintro v' p' todo ⟨⟩
  · rintro v' p' ⟨⟩
  · rintro v' ⟨⟩
  · obtain ⟨c, hc, haddr⟩ := h.named r hr
    have hne : c ≠ v.client := fun heq => h.detached v hpc r hr (heq ▸ hc)
    exact ⟨c, hc, by simpa [State.setClient, hne] using haddr⟩

/-! ## The RPC_END -/

/-- The `i`-th element and the list without it. -/
theorem exists_of_getElem?_eraseIdx {α : Type*} {l : List α} {i : ℕ} {a : α}
    (h : l[i]? = some a) : ∃ l₁ l₂, l = l₁ ++ a :: l₂ ∧ l.eraseIdx i = l₁ ++ l₂ := by
  obtain ⟨hi, rfl⟩ := List.getElem?_eq_some_iff.1 h
  refine ⟨l.take i, l.drop (i + 1), ?_, List.eraseIdx_eq_take_drop_succ l i⟩
  rw [← List.drop_eq_getElem_cons hi, List.take_append_drop]

/-- What an RPC_END does to the pool when the client points at the answered packet. -/
theorem endClient_of_pktAddr {c : ClientId} (op : Op) (e : EndPacket)
    {p : Fin rpcPacketCount} (h : (s.clients c).pktAddr = some p) :
    (s.endClient c op e).packets = Function.update s.packets p (s.packets p).free ∧
      ∀ c' ≠ c, ((s.endClient c op e).clients c').pktAddr = (s.clients c').pktAddr := by
  unfold State.endClient
  cases op <;> simp only [h] <;> exact ⟨rfl, fun c' hc' => by
    simp [State.setClient, State.rpcPacketFree, hc']⟩

/-- The reply frees the packet of the request it answers : its client points at it. -/
theorem PoolInv.cmdRpcEnd {i : ℕ} {e : EndPacket} (h : PoolInv s)
    (ht : s.cmdRpcEnd i e = some t) : PoolInv t := by
  obtain ⟨r, hr, heq⟩ := Option.map_eq_some_iff.1 ht
  obtain ⟨l₁, l₂, hl, herase⟩ := exists_of_getElem?_eraseIdx hr
  have hmem : r ∈ s.inFlight := List.mem_of_getElem? hr
  obtain ⟨c, hc, haddr⟩ := h.named r hmem
  obtain ⟨hpackets, hclients⟩ := endClient_of_pktAddr r.op e haddr
  have hpc := endClient_pc (s := s) c r.op e
  simp only [hc, herase] at heq
  generalize s.endClient c r.op e = u at *
  subst heq
  have hnodup : r.packet ∉ (l₁ ++ l₂).map Request.packet ∧
      ((l₁ ++ l₂).map Request.packet).Nodup := by
    have := h.nodup
    rwa [hl, List.map_append, List.map_cons, List.perm_middle.nodup_iff, List.nodup_cons,
      ← List.map_append] at this
  have hin : ∀ q, q ∈ s.inFlight ↔ q = r ∨ q ∈ l₁ ++ l₂ := fun q => by
    rw [hl, List.perm_middle.mem_iff, List.mem_cons]
  have hsub : ∀ q ∈ l₁ ++ l₂, q ∈ s.inFlight := fun q hq => (hin q).2 (Or.inr hq)
  have hfree : ¬s.pc.Building r.packet := h.fresh r hmem
  refine ⟨⟨fun q => ?_, hnodup.2, fun q hq => hpc ▸ h.fresh q (hsub q hq)⟩, ⟨?_, ?_, ?_, ?_⟩,
    fun q hq => ?_⟩
  · show (u.packets q).Allocated ↔ u.pc.Building q ∨ ∃ r' ∈ l₁ ++ l₂, r'.packet = q
    rw [hpackets, hpc]
    by_cases hq : q = r.packet
    · subst hq
      have hnone : ¬∃ r' ∈ l₁ ++ l₂, r'.packet = r.packet := fun ⟨r', hr', heq⟩ =>
        hnodup.1 (List.mem_map.2 ⟨r', hr', heq⟩)
      exact iff_of_false (by simp) (not_or.2 ⟨hfree, hnone⟩)
    · rw [Function.update_of_ne hq, h.owned q]
      refine or_congr_right (exists_congr fun q' => and_congr_left fun hq' => ?_)
      exact (hin q').trans (or_iff_right fun heq => hq (by rw [← hq', heq]))
  · intro v p todo hv hatt
    rw [hpc] at hv
    have hb : s.pc.Building p := hv ▸ building_prepare.2 rfl
    have haddr' := h.attached v p todo hv hatt
    rw [← haddr']
    exact hclients _ fun heq => h.client_ne haddr' hb r hmem (heq ▸ hc)
  · intro v p todo hv hfill
    rw [hpc] at hv
    have hclient := h.filled v p todo hv hfill
    have hp : p ≠ r.packet := fun heq => hfree (hv ▸ building_prepare.2 heq)
    rwa [hpackets, Function.update_of_ne hp]
  · intro v p hv
    rw [hpc] at hv
    have hb : s.pc.Building p := hv ▸ building_reject.2 rfl
    have haddr' := h.rejected v p hv
    rw [← haddr']
    exact hclients _ fun heq => h.client_ne haddr' hb r hmem (heq ▸ hc)
  · intro v hv q hq
    rw [hpc] at hv
    exact h.detached v hv q (hsub q hq)
  · obtain ⟨c', hc', haddr'⟩ := h.named q (hsub q hq)
    refine ⟨c', hc', (hclients c' fun heq => ?_).trans haddr'⟩
    subst heq
    have : r.packet = q.packet := Option.some.inj (haddr.symm.trans haddr')
    exact hnodup.1 (List.mem_map.2 ⟨q, hq, this.symm⟩)

theorem PoolInv.waitFlag {v : Invocation} {seq outer : ℕ} (h : PoolInv s)
    (hpc : s.pc = .wait v seq outer) : PoolInv (s.waitFlag v seq outer) := by
  have hb : ∀ q, ¬s.pc.Building q := fun q => by simp [hpc]
  unfold State.waitFlag
  split_ifs
  · cases v.op <;> exact h.move hb (by simp)
  · exact h.move hb (by simp)
  · exact h.move hb (by simp)

theorem PoolInv.bindRound {v : Invocation} {seq : ℕ} (h : PoolInv s)
    (hpc : s.pc = .check v seq) : PoolInv (s.bindRound v seq) := by
  have hb : ∀ q, ¬s.pc.Building q := fun q => by simp [hpc]
  unfold State.bindRound
  split_ifs <;> exact h.move hb (by simp)

theorem PoolInv.enter {client : Option ClientId} {op : Op} (h : PoolInv s)
    (hb : ∀ q, ¬s.pc.Building q) : PoolInv (s.enter client op) := by
  unfold State.enter
  split
  · exact h.move hb (by simp)
  · exact h.move hb (by simp)
  · split_ifs <;> exact h.move hb (by simp)

theorem PoolInv.cpu (h : PoolInv s) (hok : AttachAnswered s .cpu) (ht : s.cpu = some t) :
    PoolInv t := by
  simp only [State.cpu] at ht
  cases hpc : s.pc with
  | idle => simp [hpc] at ht
  | returned op result seq => simp [hpc] at ht
  | alloc v =>
    have hb : ∀ q, ¬s.pc.Building q := fun q => by simp [hpc]
    simp only [hpc, Option.some.injEq] at ht
    subst ht
    rcases halloc : s.rpcAllocPacket with _ | ⟨p, u⟩
    · exact h.move hb (by simp)
    · exact h.alloc hb halloc
  | prepare v p todo =>
    cases todo with
    | nil => simp [hpc] at ht
    | cons st todo =>
      simp only [hpc, Option.some.injEq] at ht
      exact ht ▸ h.exec hpc hok
  | wait v seq outer =>
    simp only [hpc, Option.some.injEq] at ht
    exact ht ▸ h.waitFlag hpc
  | check v seq =>
    simp only [hpc, Option.some.injEq] at ht
    exact ht ▸ h.bindRound hpc
  | reject v p =>
    simp only [hpc, Option.some.injEq] at ht
    exact ht ▸ h.reject hpc
  | detach v =>
    simp only [hpc, Option.some.injEq] at ht
    exact ht ▸ h.detach hpc

theorem PoolInv.next {c : Choice} (h : PoolInv s) (hok : AttachAnswered s c)
    (ht : next s c = some t) : PoolInv t := by
  cases c with
  | invoke client op =>
    simp only [Sif.next] at ht
    split at ht
    · next hpc =>
      have hb : ∀ q, ¬s.pc.Building q := fun q => by rw [hpc]; exact not_false
      exact Option.some.inj ht ▸ h.enter hb
    · next hpc =>
      have hb : ∀ q, ¬s.pc.Building q := fun q => by rw [hpc]; exact not_false
      exact Option.some.inj ht ▸ h.enter hb
    · simp at ht
  | cpu => exact h.cpu hok ht
  | send accepted =>
    simp only [Sif.next, State.sendCmd] at ht
    split at ht
    · next v p hpc =>
      obtain rfl := Option.some.inj ht
      cases accepted with
      | true => exact h.sent hpc
      | false => exact h.sendRejected hpc
    · simp at ht
  | rpcEnd i e => exact h.cmdRpcEnd ht

/-- The ALLOC bits are exact in every state of a run that points a client at a packet
only once its requests are answered. -/
theorem poolExact_of_attachAnswered {s₀ : State} {is : List Choice} (h₀ : Initial s₀)
    (hok : Schedule.Meets Sif.next AttachAnswered s₀ is)
    (hrun : Schedule.run Sif.next s₀ is = some s) :
    PoolExact s ∧ ((∀ p, ¬s.pc.Building p) → s.inFlight = [] → ∀ p, ¬(s.packets p).Allocated) := by
  have hinv : PoolInv s :=
    Schedule.run_invariant (fun _ _ _ hi hc hn => hi.next hc hn) (.of_initial h₀) hok hrun
  exact ⟨hinv.toPoolExact, hinv.toPoolExact.all_free⟩

/-- A bound client calls twice, each call answered before the next. -/
theorem poolExact_run : ∃ s, Schedule.run Sif.next boot
    (bindRun ++ callRun ++ [.rpcEnd 0 ⟨0, 0, 0⟩, .cpu] ++ callRun) = some s ∧
    PoolExact s ∧ ((∀ p, ¬s.pc.Building p) → s.inFlight = [] → ∀ p, ¬(s.packets p).Allocated) := by
  obtain ⟨s, hrun, -⟩ : ∃ s, Schedule.run Sif.next boot
      (bindRun ++ callRun ++ [.rpcEnd 0 ⟨0, 0, 0⟩, .cpu] ++ callRun) = some s ∧ s.sent = 3 :=
    Option.map_eq_some_iff.1 (by decide)
  exact ⟨s, hrun, poolExact_of_attachAnswered initial_boot (by decide) hrun⟩

/-- A call gives up on its request, in packet `0`, and the next call on the same client
sends one in packet `1`. The two replies then arrive in the order of the requests. -/
def leakRun (replies : List Choice) : List Choice :=
  bindRun ++ callRun ++ List.replicate (waitFlagLimit + 1) .cpu ++ (callRun ++ replies)

/-- The first reply frees packet `1`, whose request is in flight, and after the second
one packet `0` is still allocated. -/
theorem leakRun_breaks :
    (∃ s, Schedule.run Sif.next boot (leakRun [.rpcEnd 0 ⟨0, 0, 0⟩]) = some s ∧
      s.inFlight.map Request.packet = [1] ∧ ¬(s.packets 1).Allocated) ∧
    ∃ s, Schedule.run Sif.next boot
        (leakRun [.rpcEnd 0 ⟨0, 0, 0⟩, .rpcEnd 0 ⟨0, 0, 0⟩, .cpu]) = some s ∧
      s.inFlight.map Request.packet = [] ∧ s.pc = .returned (.call allocArgs) 0 (some 2) ∧
      (s.packets 0).Allocated := by
  refine ⟨?_, ?_⟩
  · obtain ⟨s, hrun, heq⟩ := run_timeout_append boot (bindRun ++ callRun)
      (callRun ++ [.rpcEnd 0 ⟨0, 0, 0⟩]) ⟨0, .call allocArgs, 0⟩ 1
      (P := fun s => (s.inFlight.map Request.packet, decide (s.packets 1).Allocated) =
        ([1], false))
      (by decide) (Option.map_eq_some_iff.1 (by decide))
    obtain ⟨hfly, halloc⟩ := Prod.mk.inj heq
    exact ⟨s, hrun, hfly, by simpa using halloc⟩
  · obtain ⟨s, hrun, heq⟩ := run_timeout_append boot (bindRun ++ callRun)
      (callRun ++ [.rpcEnd 0 ⟨0, 0, 0⟩, .rpcEnd 0 ⟨0, 0, 0⟩, .cpu]) ⟨0, .call allocArgs, 0⟩ 1
      (P := fun s => (s.inFlight.map Request.packet, s.pc, decide (s.packets 0).Allocated) =
        ([], .returned (.call allocArgs) 0 (some 2), true))
      (by decide) (Option.map_eq_some_iff.1 (by decide))
    obtain ⟨hfly, hpc, halloc⟩ : _ ∧ _ ∧ _ := by simpa using heq
    exact ⟨s, hrun, by simp [hfly], hpc, halloc⟩

end EF2SDK.Sif
