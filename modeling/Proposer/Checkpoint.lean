import Proposer.System

set_option autoImplicit false

/-! # Every aggregate is requested at its checkpoint

Pass B dispatches an `AGG` record only once its `l1_block_hash` is set, and otherwise checkpoints
the range and yields (spec §4.4). In every reachable state, whatever the environment does and
however the goroutines interleave with the ticks, every `AGG` record out of `UNREQ` has a
checkpoint, every goroutine on an `AGG` record holds that record's checkpoint, and every `AGG`
request sent carries it (`checkpoint_guard`).

The proof is one invariant, `Good`, kept by every write: inserts (`Good.insert`) and rewrites
that keep ids and types and never make a row `UNREQ` again (`RowEdit`, `Good.map`). A status
write must not move a row without a checkpoint out of `UNREQ` (`Ledger.Ready`): pass A writes
only rows it read as `REQ` (`Ledger.HasLeft`), a goroutine only its own record. Pass B's
checkpoint must not touch a goroutine's record: while that record is `UNREQ` it is the first one
and already has the checkpoint (`Task.Anchored.first`, `Good.tasks_settled`). The passes are
composed from their ledger calls (`keeps_processPendingProofs`, `requestQueuedProofs_spec`,
`preserves_taskStep`). The same relation shows that a record never returns to `UNREQ`
(`unreq_left_for_good`). -/

namespace Proposer

/-! ## The invariant -/

namespace Ledger

/-- The ledger's own part: ids increase along the table and stay below `nextId`, and every `AGG`
    record that has left `UNREQ` has a checkpoint. -/
structure Anchored (L : Ledger) : Prop where
  sorted : L.recs.Pairwise (·.id < ·.id)
  bounded : ∀ r ∈ L.recs, r.id < L.nextId
  hashed : ∀ r ∈ L.recs, r.type = .agg → r.status ≠ .unreq → r.l1BlockHash ≠ ""

/-- A row of id `i` has left `UNREQ`. -/
def HasLeft (L : Ledger) (i : Nat) : Prop :=
  ∃ r ∈ L.recs, r.id = i ∧ r.status ≠ .unreq

/-- The rows of id `i` that are `AGG` have a checkpoint: a status write on `i` is safe. -/
def Ready (L : Ledger) (i : Nat) : Prop :=
  ∀ r ∈ L.recs, r.id = i → r.type = .agg → r.l1BlockHash ≠ ""

end Ledger

/-- A goroutine agrees with the ledger: the id of its copy `p` was issued, an `AGG` copy has a
    checkpoint, the rows of its id have the copy's type and checkpoint, they have left `UNREQ`
    once the goroutine is past its first statement, and while one is `UNREQ` it is the first
    unrequested record. -/
structure Task.Anchored (L : Ledger) (t : Task) : Prop where
  bounded : t.p.id < L.nextId
  hashed : t.p.type = .agg → t.p.l1BlockHash ≠ ""
  type_eq : ∀ r ∈ L.recs, r.id = t.p.id → r.type = t.p.type
  hash_eq : ∀ r ∈ L.recs, r.id = t.p.id → r.l1BlockHash = t.p.l1BlockHash
  marked : t.pc ≠ .markReq → ∀ r ∈ L.recs, r.id = t.p.id → r.status ≠ .unreq
  first : ∀ r ∈ L.recs, r.id = t.p.id → r.status = .unreq →
    ∀ q ∈ L.recs, q.status = .unreq → r.id ≤ q.id

/-- A request sent for the record of id `x.1`: an `AGG` body carries a checkpoint, which is the
    checkpoint of the record's rows, and they have left `UNREQ`. -/
def SentAnchored (L : Ledger) (x : Nat × ProverCall) : Prop :=
  x.1 < L.nextId ∧ ∀ a, x.2.body = .agg a →
    a.l1Head ≠ "" ∧ ∀ r ∈ L.recs, r.id = x.1 → r.status ≠ .unreq ∧ r.l1BlockHash = a.l1Head

/-- The invariant of the ledger `L`, with the goroutines `ts` in flight and the requests `xs`
    sent. -/
structure Good (ts : List Task) (xs : List (Nat × ProverCall)) (L : Ledger) : Prop where
  ledger : L.Anchored
  tasks : ∀ t ∈ ts, t.Anchored L
  sent : ∀ x ∈ xs, SentAnchored L x

/-! ## Ids -/

namespace Ledger.Anchored

variable {L : Ledger} (h : L.Anchored)
include h

/-- Ids are unique. -/
theorem eq_of_id_eq {r q : ProofRequest} (hr : r ∈ L.recs) (hq : q ∈ L.recs) (hid : r.id = q.id) :
    r = q :=
  List.inj_on_of_nodup_map (List.pairwise_map.2 (h.sorted.imp Nat.ne_of_lt)) hr hq hid

/-- The first `UNREQ` record has the least id of the `UNREQ` records. -/
theorem find?_unreq_le {n : ProofRequest} (hn : L.recs.find? (·.status = .unreq) = some n) :
    ∀ q ∈ L.recs, q.status = .unreq → n.id ≤ q.id := by
  obtain ⟨-, as, bs, hrecs, has⟩ := List.find?_eq_some.1 hn
  have hs := h.sorted
  rw [hrecs, List.pairwise_append, List.pairwise_cons] at hs
  intro q hq hqu
  rw [hrecs, List.mem_append, List.mem_cons] at hq
  rcases hq with hq | rfl | hq
  · exact absurd hqu (by simpa using has q hq)
  · exact le_rfl
  · exact (hs.2.1.1 q hq).le

/-- When a row of id `i` has left `UNREQ`, every row of id `i` has: it is the only one. -/
theorem status_ne_of_hasLeft {i : Nat} (hi : L.HasLeft i) :
    ∀ r ∈ L.recs, r.id = i → r.status ≠ .unreq := by
  obtain ⟨q, hq, hqi, hqs⟩ := hi
  intro r hr hid
  exact h.eq_of_id_eq hr hq (hid.trans hqi.symm) ▸ hqs

/-- An id one of whose rows has left `UNREQ` is ready for a status write. -/
theorem ready_of_hasLeft {i : Nat} (hi : L.HasLeft i) : L.Ready i :=
  fun r hr hid ht => h.hashed r hr ht (h.status_ne_of_hasLeft hi r hr hid)

end Ledger.Anchored

theorem Task.Anchored.ready {L : Ledger} {t : Task} (h : t.Anchored L) : L.Ready t.p.id :=
  fun r hr hid ht => h.hash_eq r hr hid ▸ h.hashed (h.type_eq r hr hid ▸ ht)

/-! ## Inserts -/

section Insert

variable {ts : List Task} {xs : List (Nat × ProverCall)} {L : Ledger} (type : ProofType)
  (s e t : UInt64)

theorem mem_insert_of_lt {r : ProofRequest} {i : Nat} (hr : r ∈ (L.insert type s e t).recs)
    (hid : r.id = i) (hi : i < L.nextId) : r ∈ L.recs := by
  rcases List.mem_append.1 hr with hr | hr
  · exact hr
  · rw [List.mem_singleton] at hr
    subst hr
    exact absurd hid (Nat.ne_of_gt hi)

theorem Ledger.HasLeft.insert {i : Nat} (h : L.HasLeft i) : (L.insert type s e t).HasLeft i :=
  let ⟨r, hr, hri⟩ := h
  ⟨r, List.mem_append_left _ hr, hri⟩

theorem Ledger.Anchored.insert (h : L.Anchored) : (L.insert type s e t).Anchored where
  sorted := List.pairwise_append.2 ⟨h.sorted, List.pairwise_singleton _ _,
    fun a ha b hb => by rw [List.mem_singleton.1 hb]; exact h.bounded a ha⟩
  bounded r hr := by
    rcases List.mem_append.1 hr with hr | hr
    · exact Nat.lt_succ_of_lt (h.bounded r hr)
    · rw [List.mem_singleton.1 hr]; exact Nat.lt_succ_self _
  hashed r hr := by
    rcases List.mem_append.1 hr with hr | hr
    · exact h.hashed r hr
    · rw [List.mem_singleton.1 hr]; intro _ hs; exact absurd rfl hs

theorem Task.Anchored.insert {task : Task} (hL : L.Anchored) (h : task.Anchored L) :
    task.Anchored (L.insert type s e t) where
  bounded := Nat.lt_succ_of_lt h.bounded
  hashed := h.hashed
  type_eq r hr hid := h.type_eq r (mem_insert_of_lt type s e t hr hid h.bounded) hid
  hash_eq r hr hid := h.hash_eq r (mem_insert_of_lt type s e t hr hid h.bounded) hid
  marked hpc r hr hid := h.marked hpc r (mem_insert_of_lt type s e t hr hid h.bounded) hid
  first r hr hid hs q hq hqs := by
    have hr' := mem_insert_of_lt type s e t hr hid h.bounded
    rcases List.mem_append.1 hq with hq | hq
    · exact h.first r hr' hid hs q hq hqs
    · rw [List.mem_singleton.1 hq]; exact (hL.bounded r hr').le

theorem SentAnchored.insert {x : Nat × ProverCall} (h : SentAnchored L x) :
    SentAnchored (L.insert type s e t) x :=
  ⟨Nat.lt_succ_of_lt h.1, fun a ha => ⟨(h.2 a ha).1,
    fun r hr hid => (h.2 a ha).2 r (mem_insert_of_lt type s e t hr hid h.1) hid⟩⟩

theorem Good.insert (h : Good ts xs L) : Good ts xs (L.insert type s e t) :=
  ⟨h.ledger.insert type s e t, fun task ht => (h.tasks task ht).insert type s e t h.ledger,
    fun x hx => (h.sent x hx).insert type s e t⟩

end Insert

/-! ## Rewrites of the rows -/

/-- A rewrite of every row that keeps its id and type, never makes it `UNREQ` again, and changes
    the checkpoint only of a row it leaves `UNREQ`. -/
structure RowEdit (g : ProofRequest → ProofRequest) : Prop where
  id_eq : ∀ r, (g r).id = r.id
  type_eq : ∀ r, (g r).type = r.type
  unreq : ∀ r, (g r).status = .unreq → r.status = .unreq
  hash_eq : ∀ r, (g r).status ≠ .unreq → (g r).l1BlockHash = r.l1BlockHash

section Map

variable {ts : List Task} {xs : List (Nat × ProverCall)} {L : Ledger}
  {g : ProofRequest → ProofRequest} (hg : RowEdit g)
include hg

theorem RowEdit.status_ne {r : ProofRequest} (hr : r.status ≠ .unreq) : (g r).status ≠ .unreq :=
  fun h => hr (hg.unreq r h)

theorem Ledger.HasLeft.map {i : Nat} (h : L.HasLeft i) :
    ({ L with recs := L.recs.map g }).HasLeft i :=
  let ⟨r, hr, hri, hrs⟩ := h
  ⟨g r, List.mem_map_of_mem g hr, (hg.id_eq r).trans hri, hg.status_ne hrs⟩

/-- **A rewrite keeps the invariant** when the rows it moves out of `UNREQ` have a checkpoint and
    it keeps the checkpoint of every goroutine's record. -/
theorem Good.map (h : Good ts xs L)
    (hA : ∀ r ∈ L.recs, (g r).type = .agg → (g r).status ≠ .unreq → (g r).l1BlockHash ≠ "")
    (hT : ∀ t ∈ ts, ∀ r ∈ L.recs, r.id = t.p.id → (g r).l1BlockHash = r.l1BlockHash) :
    Good ts xs { L with recs := L.recs.map g } where
  ledger :=
    { sorted := List.pairwise_map.2 (h.ledger.sorted.imp fun hab => by rwa [hg.id_eq, hg.id_eq])
      bounded := List.forall_mem_map.2 fun r hr => hg.id_eq r ▸ h.ledger.bounded r hr
      hashed := List.forall_mem_map.2 hA }
  tasks t ht :=
    have h := h.tasks t ht
    have hid {r : ProofRequest} (hi : (g r).id = t.p.id) : r.id = t.p.id := (hg.id_eq r).symm.trans hi
    { bounded := h.bounded
      hashed := h.hashed
      type_eq := List.forall_mem_map.2 fun r hr hi => (hg.type_eq r).trans (h.type_eq r hr (hid hi))
      hash_eq := List.forall_mem_map.2 fun r hr hi =>
        (hT t ht r hr (hid hi)).trans (h.hash_eq r hr (hid hi))
      marked := fun hpc => List.forall_mem_map.2 fun r hr hi => hg.status_ne (h.marked hpc r hr (hid hi))
      first := List.forall_mem_map.2 fun r hr hi hs => List.forall_mem_map.2 fun q hq hqs => by
        rw [hg.id_eq, hg.id_eq]
        exact h.first r hr (hid hi) (hg.unreq r hs) q hq (hg.unreq q hqs) }
  sent x hx :=
    have h := h.sent x hx
    ⟨h.1, fun a ha => ⟨(h.2 a ha).1, List.forall_mem_map.2 fun r hr hi => by
      obtain ⟨hs, hh⟩ := (h.2 a ha).2 r hr ((hg.id_eq r).symm.trans hi)
      exact ⟨hg.status_ne hs, (hg.hash_eq r (hg.status_ne hs)).trans hh⟩⟩⟩

end Map

/-- Rewriting the rows of one id by a rewrite of rows. -/
theorem RowEdit.ite {f : ProofRequest → ProofRequest} (hf : RowEdit f) (i : Nat) :
    RowEdit fun r => if r.id = i then f r else r where
  id_eq r := by split <;> simp [hf.id_eq]
  type_eq r := by split <;> simp [hf.type_eq]
  unreq r := by split; exacts [hf.unreq r, id]
  hash_eq r := by split; exacts [hf.hash_eq r, fun _ => rfl]

section Modify

variable {ts : List Task} {xs : List (Nat × ProverCall)} {L : Ledger} {i : Nat}
  {f : ProofRequest → ProofRequest}

/-- A write on the rows of id `i` that keeps their checkpoint keeps the invariant when the rows it
    moves out of `UNREQ` are `AGG` only with a checkpoint. -/
theorem Good.modify (h : Good ts xs L) (hf : RowEdit f)
    (hfh : ∀ r, (f r).l1BlockHash = r.l1BlockHash)
    (hA : ∀ r ∈ L.recs, r.id = i → r.type = .agg → (f r).status ≠ .unreq → r.l1BlockHash ≠ "") :
    Good ts xs (L.modify i f) := by
  refine h.map (hf.ite i) (fun r hr ht hs => ?_) (fun t _ r _ _ => by split <;> simp [hfh])
  by_cases hid : r.id = i
  · simp only [hid, if_true, hf.type_eq, hfh] at ht hs ⊢
    exact hA r hr hid ht hs
  · simp only [hid, if_false] at ht hs ⊢
    exact h.ledger.hashed r hr ht hs

theorem rowEdit_withStatus {status : ProofRequestStatus} (hs : status ≠ .unreq) (now : UInt64) :
    RowEdit (withStatus status now) :=
  ⟨fun _ => rfl, fun _ => rfl, fun _ h => absurd h hs, fun _ _ => rfl⟩

theorem rowEdit_setProverRequestId (proverRequestId : String) :
    RowEdit fun r => { r with proverRequestId } :=
  ⟨fun _ => rfl, fun _ => rfl, fun _ h => h, fun _ _ => rfl⟩

/-- A checkpoint changes only rows it leaves `UNREQ`. -/
theorem rowEdit_checkpoint (s e bn : UInt64) (hash : String) :
    RowEdit fun r => if Ledger.checkpointTarget s e r then
      { r with l1BlockNumber := bn, l1BlockHash := hash } else r :=
  ⟨fun r => by split <;> rfl, fun r => by split <;> rfl, fun r => by split <;> exact id,
    fun r hs => by
      by_cases hc : Ledger.checkpointTarget s e r
      · simp only [hc, if_true] at hs; exact absurd hc.2.2.2 hs
      · simp only [hc, if_false]⟩

/-- A status write other than `UNREQ` on a ready id keeps the invariant. -/
theorem Good.withStatus (h : Good ts xs L) {status : ProofRequestStatus} (hs : status ≠ .unreq)
    (now : UInt64) (hi : L.Ready i) : Good ts xs (L.modify i (withStatus status now)) :=
  h.modify (rowEdit_withStatus hs now) (fun _ => rfl) fun r hr hid ht _ => hi r hr hid ht

end Modify

/-! ## Moves of the ledger -/

/-- `L'` keeps the invariant of `L` for the goroutines `ts` and the requests `xs`, and a row that
    has left `UNREQ` in `L` has a successor that has too. -/
def Preserves (ts : List Task) (xs : List (Nat × ProverCall)) (L L' : Ledger) : Prop :=
  (Good ts xs L → Good ts xs L') ∧ ∀ i, L.HasLeft i → L'.HasLeft i

section Preserves

variable {ts : List Task} {xs : List (Nat × ProverCall)}

theorem preserves_refl : Reflexive (Preserves ts xs) := fun _ => ⟨id, fun _ => id⟩

theorem preserves_trans : Transitive (Preserves ts xs) :=
  fun _ _ _ h₁ h₂ => ⟨h₂.1 ∘ h₁.1, fun i => h₂.2 i ∘ h₁.2 i⟩

theorem preserves_insert (L : Ledger) (type : ProofType) (s e t : UInt64) :
    Preserves ts xs L (L.insert type s e t) :=
  ⟨fun h => h.insert type s e t, fun _ h => h.insert type s e t⟩

theorem preserves_modify {L : Ledger} {i : Nat} {f : ProofRequest → ProofRequest} (hf : RowEdit f)
    (hfh : ∀ r, (f r).l1BlockHash = r.l1BlockHash)
    (hA : Good ts xs L → ∀ r ∈ L.recs, r.id = i → r.type = .agg → (f r).status ≠ .unreq →
      r.l1BlockHash ≠ "") :
    Preserves ts xs L (L.modify i f) :=
  ⟨fun h => h.modify hf hfh (hA h), fun _ h => h.map (hf.ite i)⟩

/-- A status write on an id that is ready whenever the invariant holds. -/
theorem preserves_withStatus {L : Ledger} {i : Nat} {status : ProofRequestStatus}
    (hs : status ≠ .unreq) (now : UInt64) (hi : Good ts xs L → L.Ready i) :
    Preserves ts xs L (L.modify i (withStatus status now)) :=
  preserves_modify (rowEdit_withStatus hs now) (fun _ => rfl)
    fun h r hr hid ht _ => hi h r hr hid ht

end Preserves

/-! ## The ledger calls -/

section Calls

variable {ts : List Task} {xs : List (Nat × ProverCall)}

theorem keeps_retryRequest (req : ProofRequest) : DbM.Keeps (Preserves ts xs) (retryRequest req) :=
  keeps_retryRequest_of_insert preserves_refl preserves_trans preserves_insert req

/-- `AddProof` writes only on the row it finds `REQ`. -/
theorem keeps_addProof (id : Nat) (proof : Bytes) :
    DbM.Keeps (Preserves ts xs) (addProof id proof) := by
  refine DbM.keeps_call preserves_refl fun L => ?_
  split
  · next r hr =>
    split
    · next hreq =>
      have hri : r.id = id := by simpa using List.find?_some hr
      refine preserves_modify ⟨fun _ => rfl, fun _ => rfl, (fun _ h => nomatch h), fun _ _ => rfl⟩
        (fun _ => rfl) fun h q hq hqi ht _ => h.ledger.ready_of_hasLeft
          ⟨r, List.mem_of_find?_eq_some hr, hri, by rw [hreq]; exact nofun⟩ q hq hqi ht
    · exact preserves_refl _
  · exact preserves_refl _

theorem preserves_setProverRequestID (L : Ledger) (id : Nat) (proverRequestId : String) :
    Preserves ts xs L (L.modify id fun r => { r with proverRequestId }) :=
  preserves_modify (rowEdit_setProverRequestId proverRequestId) (fun _ => rfl)
    fun h r hr _ ht hs => h.ledger.hashed r hr ht hs

/-- A status write moves the ledger along `Preserves` from a store whose ledger is ready for
    it. -/
theorem preserves_updateProofStatus (i : Nat) {status : ProofRequestStatus} (hs : status ≠ .unreq)
    (now : UInt64) (st : Store) (hi : Good ts xs st.ledger → st.ledger.Ready i) :
    Preserves ts xs st.ledger (updateProofStatus i status now st).2.ledger := by
  unfold updateProofStatus DbM.write
  rcases DbM.call_ledger _ st with h | h <;> rw [h]
  · exact preserves_refl _
  · exact preserves_withStatus hs now hi

end Calls

/-! ## Pass A and pass C -/

section Passes

variable {ts : List Task} {xs : List (Nat × ProverCall)}

/-- **Pass A keeps the invariant.** It writes `FAILED` only on a row it read as `REQ`, and the
    rows read so stay out of `UNREQ` while the loop runs. -/
theorem keeps_processPendingProofs (cfg : Config) (now : UInt64) (poll : String → HttpOutcome) :
    DbM.Keeps (Preserves ts xs) (processPendingProofs cfg now poll) := by
  have hR : Reflexive (Preserves ts xs) := preserves_refl
  have hT : Transitive (Preserves ts xs) := preserves_trans
  unfold processPendingProofs
  refine DbM.keeps_bind hT (DbM.keeps_wrapErr hR hT _ (DbM.keeps_read hR _)) fun _ => ?_
  refine DbM.keeps_bind hT (DbM.keeps_forM hR hT fun req _ =>
    DbM.keeps_wrapErr hR hT _ (keeps_retryRequest req)) fun _ => ?_
  refine DbM.keeps_read_forM hR hT fun L req hreq st hst => ?_
  have hleft : st.ledger.HasLeft req.id := by
    obtain ⟨hmem, hs⟩ := List.mem_filter.1 hreq
    simp only [decide_eq_true_eq] at hs
    exact hst.2 _ ⟨req, hmem, rfl, by rw [hs.1]; exact nofun⟩
  simp only [pollPendingProof, DbM.bind_apply, DbM.lift_apply]
  rcases getProofStatus (poll req.proverRequestId) with _ | ⟨status, proof⟩
  · exact hR _
  · dsimp only
    split_ifs
    · exact keeps_addProof _ _ st
    · exact DbM.keeps_bind_at hT
        (preserves_updateProofStatus req.id (show ProofRequestStatus.failed ≠ .unreq from nofun) now st
          fun h => h.ledger.ready_of_hasLeft hleft)
        fun _ => DbM.keeps_wrapErr hR hT _ (keeps_retryRequest req)
    · exact hR _

theorem keeps_tryCreate (now fromBlock minTo : UInt64) :
    DbM.Keeps (Preserves ts xs) (tryCreateAggProofFromSpanProofs now fromBlock minTo) := by
  refine DbM.keeps_call preserves_refl fun L => ?_
  split
  · split
    · exact preserves_insert _ _ _ _ _
    · exact preserves_refl _
  · exact preserves_refl _

/-- **Pass C keeps the invariant**: it only inserts. -/
theorem keeps_deriveAggProofs (now : UInt64) (latest next : Except String Nat) :
    DbM.Keeps (Preserves ts xs) (deriveAggProofs now latest next) := by
  have hR : Reflexive (Preserves ts xs) := preserves_refl
  have hT : Transitive (Preserves ts xs) := preserves_trans
  exact DbM.keeps_bind hT (DbM.keeps_wrapErr hR hT _ (DbM.keeps_lift hR _)) fun _ =>
    DbM.keeps_bind hT (DbM.keeps_wrapErr hR hT _ (DbM.keeps_lift hR _)) fun _ =>
      DbM.keeps_bind hT (DbM.keeps_wrapErr hR hT _ (keeps_tryCreate _ _ _)) fun _ =>
        DbM.keeps_pure hR _

end Passes

/-! ## Pass B -/

section PassB

variable {ts : List Task} {xs : List (Nat × ProverCall)} {L : Ledger}

/-- **No goroutine's record is a checkpoint target** when pass B checkpoints: it checkpoints the
    first `UNREQ` record, an `AGG` without a checkpoint, and a goroutine's record that is still
    `UNREQ` is that first record and has the goroutine's checkpoint. -/
theorem Good.tasks_settled (h : Good ts xs L) {n : ProofRequest}
    (hn : L.recs.find? (·.status = .unreq) = some n) (hty : n.type = .agg)
    (hh : n.l1BlockHash = "") : ∀ t ∈ ts, ∀ r ∈ L.recs, r.id = t.p.id → r.status ≠ .unreq := by
  intro t ht r hr hid hs
  have htA := h.tasks t ht
  have hnm := List.mem_of_find?_eq_some hn
  have hnu : n.status = .unreq := by simpa using List.find?_some hn
  have hrn : r = n := h.ledger.eq_of_id_eq hr hnm
    (Nat.le_antisymm (htA.first r hr hid hs n hnm hnu) (h.ledger.find?_unreq_le hn r hr hs))
  subst hrn
  exact htA.hashed (htA.type_eq r hr hid ▸ hty) (htA.hash_eq r hr hid ▸ hh)

/-- A checkpoint that touches no goroutine's record keeps the invariant. -/
theorem Good.checkpoint (h : Good ts xs L) (s e bn : UInt64) (hash : String)
    (hts : ∀ t ∈ ts, ∀ r ∈ L.recs, r.id = t.p.id → r.status ≠ .unreq) :
    Good ts xs (L.checkpoint s e bn hash) := by
  refine h.map (rowEdit_checkpoint s e bn hash) (fun r hr ht hs => ?_) fun t ht r hr hid => ?_
  · by_cases hc : Ledger.checkpointTarget s e r
    · simp only [hc, if_true] at hs
      exact absurd hc.2.2.2 hs
    · simp only [hc, if_false] at ht hs ⊢
      exact h.ledger.hashed r hr ht hs
  · have hc : ¬ Ledger.checkpointTarget s e r := fun hc => hts t ht r hr hid hc.2.2.2
    simp only [hc, if_false]

/-- A goroutine pass B starts, for the first `UNREQ` record with a checkpoint if it is an
    `AGG`, agrees with the ledger. -/
theorem Task.Anchored.spawn (hL : L.Anchored) {p : ProofRequest}
    (hp : L.recs.find? (·.status = .unreq) = some p) (hh : p.type = .agg → p.l1BlockHash ≠ "") :
    (⟨p, .markReq⟩ : Task).Anchored L :=
  have hpm := List.mem_of_find?_eq_some hp
  { bounded := hL.bounded p hpm
    hashed := hh
    type_eq := fun r hr hid => by rw [hL.eq_of_id_eq hr hpm hid]
    hash_eq := fun r hr hid => by rw [hL.eq_of_id_eq hr hpm hid]
    marked := fun hpc => absurd rfl hpc
    first := fun r hr hid _ => by rw [hL.eq_of_id_eq hr hpm hid]; exact hL.find?_unreq_le hp }

/-- **Pass B keeps the invariant**, with the goroutine it starts. -/
theorem good_requestQueuedProofs (cfg : Config) (cp : Except String (UInt64 × Hash)) (st : Store)
    (h : Good ts xs st.ledger) :
    Good (ts ++ (match (requestQueuedProofs cfg cp st).1 with
        | .ok spawned => spawned.toList.map (⟨·, .markReq⟩)
        | .error _ => [])) xs (requestQueuedProofs cfg cp st).2.ledger := by
  obtain ⟨hB1, hB2⟩ := requestQueuedProofs_spec cfg cp st
  have hB : Good ts xs (requestQueuedProofs cfg cp st).2.ledger := by
    rcases hB1 with h1 | ⟨n, bn, hh, hn, hty, hhash, h1⟩ <;> rw [h1]
    · exact h
    · exact h.checkpoint _ _ _ _ (h.tasks_settled hn hty hhash)
  refine ⟨hB.ledger, fun t ht => ?_, hB.sent⟩
  rcases List.mem_append.1 ht with ht | ht
  · exact hB.tasks t ht
  · split at ht
    · next spawned hsp =>
      cases spawned with
      | none => simp at ht
      | some p =>
        obtain ⟨hl, hp, hagg, -⟩ := hB2 p hsp
        simp only [Option.toList_some, List.map_cons, List.map_nil, List.mem_singleton] at ht
        subst ht
        rw [hl]
        exact Task.Anchored.spawn h.ledger hp hagg
    · simp at ht

end PassB

/-! ## The goroutine -/

section Goroutine

variable {ts : List Task} {xs : List (Nat × ProverCall)} {L : Ledger}

/-- The same goroutine at statement `pc`, which it may be at once its rows have left `UNREQ`. -/
theorem Task.Anchored.at {t : Task} (h : t.Anchored L) (pc : TaskPc)
    (hm : pc ≠ .markReq → ∀ r ∈ L.recs, r.id = t.p.id → r.status ≠ .unreq) :
    (⟨t.p, pc⟩ : Task).Anchored L :=
  { h with marked := hm }

/-- A goroutine past its first statement may be at any statement. -/
theorem Task.Anchored.past {t : Task} (h : t.Anchored L) (hpc : t.pc ≠ .markReq) (pc : TaskPc) :
    (⟨t.p, pc⟩ : Task).Anchored L :=
  h.at pc fun _ => h.marked hpc

theorem Good.set (h : Good ts xs L) (i : Nat) {t : Task} (ht : t.Anchored L) :
    Good (ts.set i t) xs L :=
  ⟨h.ledger, fun t' ht' => (List.mem_or_eq_of_mem_set ht').elim (h.tasks t') (· ▸ ht), h.sent⟩

theorem Good.eraseIdx (h : Good ts xs L) (i : Nat) : Good (ts.eraseIdx i) xs L :=
  ⟨h.ledger, fun t ht => h.tasks t (List.mem_of_mem_eraseIdx ht), h.sent⟩

theorem Good.send (h : Good ts xs L) {p : ProofRequest} {cs : List ProverCall}
    (hcs : ∀ c ∈ cs, SentAnchored L (p.id, c)) : Good ts (xs ++ cs.map (p.id, ·)) L := by
  refine ⟨h.ledger, h.tasks, fun x hx => ?_⟩
  rcases List.mem_append.1 hx with hx | hx
  · exact h.sent x hx
  · obtain ⟨c, hc, rfl⟩ := List.mem_map.1 hx
    exact hcs c hc

/-- **What one statement of a goroutine does to the ledger.** The first marks the goroutine's
    record `REQ`, which its checkpoint allows; the request writes nothing; the others write a
    prover id, write `FAILED` on the goroutine's own record, or insert successors. -/
theorem preserves_taskStep {t : Task} (ht : t ∈ ts) (now : UInt64) (o : HttpOutcome) (st : Store) :
    Preserves ts xs st.ledger (t.step now o st).2.ledger := by
  obtain ⟨p, pc⟩ := t
  cases pc with
  | markReq =>
    obtain ⟨-, ⟨-, hl⟩ | ⟨-, hl⟩⟩ := Task.step_markReq p now o st <;> rw [hl]
    · exact preserves_refl _
    · exact preserves_withStatus (show ProofRequestStatus.req ≠ .unreq from nofun) now
        fun h => (h.tasks _ ht).ready
  | request => rw [(Task.step_request p now o st).2.1]; exact preserves_refl _
  | setId proofId =>
    obtain ⟨-, -, hl | hl⟩ := Task.step_setId p proofId now o st <;> rw [hl]
    · exact preserves_refl _
    · exact preserves_setProverRequestID _ _ _
  | markFailed =>
    obtain ⟨-, -, hl | hl⟩ := Task.step_markFailed p now o st <;> rw [hl]
    · exact preserves_refl _
    · exact preserves_withStatus (show ProofRequestStatus.failed ≠ .unreq from nofun) now
        fun h => (h.tasks _ ht).ready
  | retry => rw [Task.step_retry]; exact keeps_retryRequest p st

/-- **One statement of a goroutine keeps the invariant.** Past the first, the goroutine's rows
    have left `UNREQ`; the request sends the copy's checkpoint, which is the record's. -/
theorem good_taskStep {s : Sys} (h : Good s.tasks s.sent s.ledger) (i : Nat) (now : UInt64)
    (o : HttpOutcome) (faults : List Bool) :
    Good (taskStep i now o faults s).tasks (taskStep i now o faults s).sent
      (taskStep i now o faults s).ledger := by
  unfold taskStep
  rcases hi : s.tasks[i]? with _ | ⟨p, pc⟩
  · exact h
  have ht := List.getElem?_mem hi
  have htA := h.tasks _ ht
  have h' := (preserves_taskStep ht now o ⟨s.ledger, faults, []⟩).1 h
  dsimp only
  -- what is left: the goroutine is anchored at the statement it returns, and what it sends is
  suffices H : (∀ pc', (Task.step ⟨p, pc⟩ now o ⟨s.ledger, faults, []⟩).1 = .ok (some pc') →
        (⟨p, pc'⟩ : Task).Anchored (Task.step ⟨p, pc⟩ now o ⟨s.ledger, faults, []⟩).2.ledger) ∧
      ∀ c ∈ (Task.step ⟨p, pc⟩ now o ⟨s.ledger, faults, []⟩).2.sent,
        SentAnchored (Task.step ⟨p, pc⟩ now o ⟨s.ledger, faults, []⟩).2.ledger (p.id, c) by
    refine Good.send ?_ H.2
    split
    · next pc' hres => exact h'.set i (H.1 pc' hres)
    · exact h'.eraseIdx i
  cases pc with
  | markReq =>
    obtain ⟨hsent, ⟨hres, -⟩ | ⟨hres, hl⟩⟩ := Task.step_markReq p now o ⟨s.ledger, faults, []⟩ <;>
      rw [hres, hsent]
    · exact ⟨fun _ hres => (by cases hres), by simp⟩
    · refine ⟨fun pc' hpc => ?_, by simp⟩
      cases hpc
      exact (h'.tasks _ ht).at .request fun _ _ hr hid => by
        rw [hl] at hr; rw [status_of_modify_withStatus hr hid]; exact nofun
  | request =>
    obtain ⟨-, hl, cs, hs, hc⟩ := Task.step_request p now o ⟨s.ledger, faults, []⟩
    rw [hl, hs, List.nil_append]
    refine ⟨fun pc' _ => htA.past nofun pc', fun c hcm => ⟨htA.bounded, fun a ha => ?_⟩⟩
    obtain ⟨hty, hhd⟩ := hc c hcm a ha
    exact ⟨hhd ▸ htA.hashed hty, fun r hr hid =>
      ⟨htA.marked nofun r hr hid, (htA.hash_eq r hr hid).trans hhd.symm⟩⟩
  | setId proofId =>
    rw [(Task.step_setId p proofId now o _).1]
    exact ⟨fun pc' _ => (h'.tasks _ ht).past nofun pc', by simp⟩
  | markFailed =>
    rw [(Task.step_markFailed p now o _).1]
    exact ⟨fun pc' _ => (h'.tasks _ ht).past nofun pc', by simp⟩
  | retry =>
    rw [Task.step_retry, retryRequest_sent]
    exact ⟨fun _ hres => (by cases hres), by simp⟩

end Goroutine

/-! ## Runs -/

theorem good_init : Good Sys.init.tasks Sys.init.sent Sys.init.ledger :=
  ⟨⟨List.Pairwise.nil, List.forall_mem_nil _, List.forall_mem_nil _⟩, List.forall_mem_nil _,
    List.forall_mem_nil _⟩

/-- **A tick keeps the invariant**: passes A, B and C in turn, stopping at the first error. -/
theorem good_tick (cfg : Config) (env : TickEnv) {s : Sys} (h : Good s.tasks s.sent s.ledger) :
    Good (tick cfg env s).tasks (tick cfg env s).sent (tick cfg env s).ledger := by
  have hA : Good s.tasks s.sent
      (processPendingProofs cfg env.now env.poll ⟨s.ledger, env.faults, []⟩).2.ledger :=
    (keeps_processPendingProofs cfg env.now env.poll ⟨s.ledger, env.faults, []⟩).1 h
  unfold tick
  rcases hpa : processPendingProofs cfg env.now env.poll ⟨s.ledger, env.faults, []⟩
    with ⟨_ | _, stA⟩ <;> rw [hpa] at hA <;> simp only [hpa]
  · exact hA
  · have hB := good_requestQueuedProofs cfg env.checkpoint stA hA
    rcases hpb : requestQueuedProofs cfg env.checkpoint stA with ⟨_ | spawned, stB⟩ <;>
      rw [hpb] at hB <;> simp only [hpb]
    · simpa using hB
    · exact (keeps_deriveAggProofs env.now env.latest env.next stB).1 hB

theorem good_step (cfg : Config) {s : Sys} (h : Good s.tasks s.sent s.ledger) (e : Event) :
    Good (step cfg s e).tasks (step cfg s e).sent (step cfg s e).ledger := by
  cases e with
  | tick env => exact good_tick cfg env h
  | task i now o faults => exact good_taskStep h i now o faults
  | derive startBlock endBlock now => exact h.insert .span startBlock endBlock now

theorem good_of_reachable {cfg : Config} {s : Sys} (hs : Reachable cfg s) :
    Good s.tasks s.sent s.ledger := by
  induction hs with
  | init => exact good_init
  | step e _ ih => exact good_step cfg ih e

/-- **The checkpoint guard.** In every reachable state: every `AGG` record that has left `UNREQ`
    has a checkpoint; every goroutine working on an `AGG` record holds a checkpoint, and it is
    the checkpoint of every row of the record; and every `AGG` request sent to the prover carries
    a checkpoint, and it is the checkpoint of every row of the record it was sent for. -/
theorem checkpoint_guard (cfg : Config) (s : Sys) (hs : Reachable cfg s) :
    (∀ r ∈ s.ledger.recs, r.type = .agg → r.status ≠ .unreq → r.l1BlockHash ≠ "") ∧
    (∀ t ∈ s.tasks, t.p.type = .agg → t.p.l1BlockHash ≠ "" ∧
      ∀ r ∈ s.ledger.recs, r.id = t.p.id → r.l1BlockHash = t.p.l1BlockHash) ∧
    (∀ x ∈ s.sent, ∀ a, x.2.body = .agg a → a.l1Head ≠ "" ∧
      ∀ r ∈ s.ledger.recs, r.id = x.1 → r.l1BlockHash = a.l1Head) := by
  have h := good_of_reachable hs
  exact ⟨h.ledger.hashed, fun t ht hty => ⟨(h.tasks t ht).hashed hty, (h.tasks t ht).hash_eq⟩,
    fun x hx a ha => ⟨((h.sent x hx).2 a ha).1,
      fun r hr hid => (((h.sent x hx).2 a ha).2 r hr hid).2⟩⟩

/-- The checkpoint of the run below: L1 block `5`, the all-zero hash. -/
def zeroHash : Hash := ⟨List.replicate 32 0, rfl⟩

/-- The span `[1, 10]` is requested and proved; pass C, with the oracle at `latest = 0` and
    `next = 10`, queues `AGG [1, 10]`; pass B checkpoints it at L1 block `5` and, on the next
    tick, starts its goroutine, which marks it and requests the aggregate. -/
def aggregateRun : List Event :=
  [.derive 1 10 0, quietTick (fun _ => refused) [],
   .task 0 0 refused [], .task 0 0 (answerId "s0") [], .task 0 0 refused [],
   .tick ⟨0, fun _ => answerFulfilled [("proof", .string "AQ==")], .error "no checkpoint", .ok 0,
     .ok 10, []⟩,
   .tick ⟨0, fun _ => refused, .ok (5, zeroHash), .error "oracle unavailable",
     .error "oracle unavailable", []⟩,
   quietTick (fun _ => refused) [],
   .task 0 0 refused [], .task 0 0 (answerId "a1") []]

/-- The guard on a run that requests an aggregate: record `1` is sent as an `AGG` request. -/
theorem checkpoint_guard_aggregateRun :
    let cfg : Config := ⟨1, 3600⟩
    let s := run cfg Sys.init aggregateRun
    Reachable cfg s ∧
    s.sent.map (fun x => (x.1, x.2.urlPath)) = [(0, "request_span_proof"), (1, "request_agg_proof")] ∧
    (∀ r ∈ s.ledger.recs, r.type = .agg → r.status ≠ .unreq → r.l1BlockHash ≠ "") ∧
    (∀ t ∈ s.tasks, t.p.type = .agg → t.p.l1BlockHash ≠ "" ∧
      ∀ r ∈ s.ledger.recs, r.id = t.p.id → r.l1BlockHash = t.p.l1BlockHash) ∧
    (∀ x ∈ s.sent, ∀ a, x.2.body = .agg a → a.l1Head ≠ "" ∧
      ∀ r ∈ s.ledger.recs, r.id = x.1 → r.l1BlockHash = a.l1Head) :=
  ⟨reachable_run _ .init _, by decide, checkpoint_guard _ _ (reachable_run _ .init _)⟩

/-! ## A record never returns to `UNREQ`

Every write of the system keeps a row that has left `UNREQ` out of it (the second half of
`Preserves`); with the ids unique, every row of such a record stays out of `UNREQ`. -/

/-- Pass B writes only its checkpoint, a row edit. -/
theorem hasLeft_requestQueuedProofs (cfg : Config) (cp : Except String (UInt64 × Hash))
    {st : Store} {i : Nat} (h : st.ledger.HasLeft i) :
    (requestQueuedProofs cfg cp st).2.ledger.HasLeft i := by
  rcases (requestQueuedProofs_spec cfg cp st).1 with hl | ⟨n, bn, hh, -, -, -, hl⟩ <;> rw [hl]
  · exact h
  · exact h.map (rowEdit_checkpoint _ _ _ _)

theorem hasLeft_tick (cfg : Config) (env : TickEnv) {s : Sys} {i : Nat} (h : s.ledger.HasLeft i) :
    (tick cfg env s).ledger.HasLeft i := by
  have hA := (keeps_processPendingProofs cfg env.now env.poll ⟨s.ledger, env.faults, []⟩ :
    Preserves [] [] _ _).2 i h
  unfold tick
  rcases hpa : processPendingProofs cfg env.now env.poll ⟨s.ledger, env.faults, []⟩
    with ⟨_ | _, stA⟩ <;> rw [hpa] at hA <;> simp only [hpa]
  · exact hA
  · have hB := hasLeft_requestQueuedProofs cfg env.checkpoint hA
    rcases hpb : requestQueuedProofs cfg env.checkpoint stA with ⟨_ | spawned, stB⟩ <;>
      rw [hpb] at hB <;> simp only [hpb]
    · exact hB
    · exact (keeps_deriveAggProofs env.now env.latest env.next stB : Preserves [] [] _ _).2 i hB

theorem hasLeft_step (cfg : Config) {s : Sys} {i : Nat} (h : s.ledger.HasLeft i) (e : Event) :
    (step cfg s e).ledger.HasLeft i := by
  cases e with
  | tick env => exact hasLeft_tick cfg env h
  | task j now o faults =>
    show (taskStep j now o faults s).ledger.HasLeft i
    unfold taskStep
    rcases hj : s.tasks[j]? with _ | t
    · exact h
    · exact (preserves_taskStep (List.getElem?_mem hj) now o ⟨s.ledger, faults, []⟩ :
        Preserves s.tasks [] _ _).2 i h
  | derive startBlock endBlock now => exact h.insert .span startBlock endBlock now

theorem hasLeft_run (cfg : Config) (evs : List Event) {s : Sys} {i : Nat}
    (h : s.ledger.HasLeft i) : (run cfg s evs).ledger.HasLeft i := by
  induction evs generalizing s with
  | nil => exact h
  | cons e evs ih => exact ih (hasLeft_step cfg h e)

/-- **A record that has left `UNREQ` never returns to it**: from a reachable state, whatever
    events follow, every row of its id stays out of `UNREQ`. So pass B, which requests the first
    `UNREQ` record, never picks up again a record a goroutine has marked, nor one that failed. -/
theorem unreq_left_for_good (cfg : Config) (s : Sys) (hs : Reachable cfg s) (evs : List Event)
    (r : ProofRequest) (hr : r ∈ s.ledger.recs) (hleft : r.status ≠ .unreq) :
    ∀ r' ∈ (run cfg s evs).ledger.recs, r'.id = r.id → r'.status ≠ .unreq :=
  (good_of_reachable (reachable_run cfg hs evs)).ledger.status_ne_of_hasLeft
    (hasLeft_run cfg evs ⟨r, hr, rfl, hleft⟩)

/-- Record `0`, marked `REQ` by its goroutine, stays out of `UNREQ` while its request is refused,
    it is marked `FAILED` and its halves are queued. -/
theorem unreq_left_for_good_retried :
    let cfg : Config := ⟨1, 3600⟩
    let s := run cfg Sys.init [.derive 1 10 0, quietTick (fun _ => refused) [], .task 0 0 refused []]
    Reachable cfg s ∧ withStatus .req 0 (Ledger.freshRecord 0 .span 1 10 0) ∈ s.ledger.recs ∧
    (withStatus .req 0 (Ledger.freshRecord 0 .span 1 10 0)).status ≠ .unreq ∧
    ∀ r' ∈ (run cfg s [.task 0 0 refused [], .task 0 0 refused [], .task 0 0 refused []]).ledger.recs,
      r'.id = 0 → r'.status ≠ .unreq := by
  intro cfg s
  exact ⟨reachable_run _ .init _, by decide, by decide, unreq_left_for_good cfg s
    (reachable_run _ .init _) _ (withStatus .req 0 (Ledger.freshRecord 0 .span 1 10 0)) (by decide)
    (by decide)⟩

end Proposer
