import Proposer.Retry
import Proposer.Aggregation

set_option autoImplicit false

/-! # The orchestrator's passes

`prove.go` drives every record through its lifecycle with three passes that a ticker runs in turn
(spec §4.4): pass A, `ProcessPendingProofs`, polls the prover for each requested record and
completes, fails or retries it; pass B, `RequestQueuedProofs`, takes the next unrequested record
and starts a goroutine that requests its proof; pass C, `DeriveAggProofs` (in
`Proposer.Aggregation`), queues aggregates.

Passes A and B are written below line by line after the Go code. The goroutine pass B starts is
a `Task`: the copy `p` of the record it was started for, and the statement it runs next. Each
statement that reaches the ledger or the prover is one `Task.step`, so that the rest of the
system can run between any two of them. `RequestOPSuccinctProof` is cut in two at its ledger
write, `requestProof` and `setProofId`, and `requestOPSuccinctProof` is the two in sequence. -/

namespace Proposer

/-- The configuration the passes read: `Cfg.MaxConcurrentProofRequests` and
    `DriverSetup.Cfg.ProofTimeout`. -/
structure Config where
  maxConcurrentProofRequests : UInt64
  proofTimeout : UInt64
  deriving DecidableEq, Repr

/-- Go's `int(x)` for a `uint64` `x`, on a 64-bit platform. -/
def goInt (x : UInt64) : Int :=
  if x.toNat < UInt64.size / 2 then x.toNat else (x.toNat : Int) - UInt64.size

/-! ## Pass A -/

/-- One iteration of `ProcessPendingProofs`' loop over the pending records: poll the prover for
    `req`, then complete it, or fail and retry it on a timeout or `PROOF_UNCLAIMED`. -/
def pollPendingProof (cfg : Config) (now : UInt64) (poll : String → HttpOutcome) (req : ProofRequest) :
    DbM Unit := do
  let (status, proof) ← DbM.lift (getProofStatus (poll req.proverRequestId))
  if status = "PROOF_FULFILLED" then
    addProof req.id proof
  else
    let timeout := now > req.proofRequestTime + cfg.proofTimeout
    if timeout ∨ status = "PROOF_UNCLAIMED" then
      updateProofStatus req.id .failed now
      DbM.wrapErr "failed to retry request: " (retryRequest req)

/-- `ProcessPendingProofs`: retry the records that failed before reaching the prover, then poll
    every pending record. `poll id` is the prover service's answer to `GET status/<id>`, and
    `now` is `time.Now().Unix()`. -/
def processPendingProofs (cfg : Config) (now : UInt64) (poll : String → HttpOutcome) :
    DbM Unit := do
  let failedReqs ← DbM.wrapErr "failed to get proofs failed on server: " getProofsFailedOnServer
  failedReqs.forM fun req => DbM.wrapErr "failed to retry request: " (retryRequest req)
  let reqs ← getAllPendingProofs
  reqs.forM (pollPendingProof cfg now poll)

/-! ### Pass A on a record among others

With every ledger call let through, pass A runs to its end: each retry appends its successors
under new ids, and each iteration of the second loop writes only the rows of its record's id.
Over a ledger whose ids are keys, what the pass leaves of a pending record is decided by that
record's poll alone (`processPendingProofs_pending`). -/

namespace Ledger

/-- The ids are keys: they increase along the table and stay below `nextId`. -/
structure Keyed (L : Ledger) : Prop where
  sorted : L.recs.Pairwise (·.id < ·.id)
  bounded : ∀ r ∈ L.recs, r.id < L.nextId

theorem Keyed.eq_of_id_eq {L : Ledger} (h : L.Keyed) {r q : ProofRequest} (hr : r ∈ L.recs)
    (hq : q ∈ L.recs) (hid : r.id = q.id) : r = q :=
  List.inj_on_of_nodup_map (List.pairwise_map.2 (h.sorted.imp Nat.ne_of_lt)) hr hq hid

/-- `q` is the one row of its id in `L`, an id issued. -/
structure SoleRow (L : Ledger) (q : ProofRequest) : Prop where
  mem : q ∈ L.recs
  eq : ∀ c ∈ L.recs, c.id = q.id → c = q
  lt : q.id < L.nextId

theorem Keyed.soleRow {L : Ledger} (h : L.Keyed) {q : ProofRequest} (hq : q ∈ L.recs) :
    L.SoleRow q :=
  ⟨hq, fun _ hc hid => h.eq_of_id_eq hc hq hid, h.bounded q hq⟩

/-- The row of its id is the one `find?` returns. -/
theorem SoleRow.find?_eq {L : Ledger} {q : ProofRequest} (h : L.SoleRow q) : L.find? q.id = some q := by
  obtain ⟨c, hc⟩ := Option.isSome_iff_exists.1
    (List.find?_isSome.2 ⟨q, h.mem, decide_eq_true rfl⟩ : (L.recs.find? (·.id = q.id)).isSome)
  have hcq : c.id = q.id := by simpa using List.find?_some hc
  rw [find?, hc, h.eq c (List.mem_of_find?_eq_some hc) hcq]

/-- `M'` is `M` after writes to rows whose ids satisfy `S`, and appends: every other row of `M`
    stays, and every other row of `M'` was a row of `M` or is new, under an id from `M.nextId` on. -/
structure Frame (S : Nat → Prop) (M M' : Ledger) : Prop where
  nextId_le : M.nextId ≤ M'.nextId
  keeps : ∀ c ∈ M.recs, ¬ S c.id → c ∈ M'.recs
  fresh : ∀ c ∈ M'.recs, ¬ S c.id → c ∈ M.recs ∨ M.nextId ≤ c.id

variable {S T : Nat → Prop} {M M' M'' : Ledger} {q : ProofRequest}

theorem Frame.refl (S : Nat → Prop) (M : Ledger) : M.Frame S M :=
  ⟨le_rfl, fun _ hc _ => hc, fun _ hc _ => .inl hc⟩

theorem Frame.trans (h₁ : M.Frame S M') (h₂ : M'.Frame S M'') : M.Frame S M'' where
  nextId_le := h₁.nextId_le.trans h₂.nextId_le
  keeps c hc hS := h₂.keeps c (h₁.keeps c hc hS) hS
  fresh c hc hS := (h₂.fresh c hc hS).elim (h₁.fresh c · hS) fun h => .inr (h₁.nextId_le.trans h)

theorem Frame.mono (hST : ∀ i, S i → T i) (h : M.Frame S M') : M.Frame T M' :=
  ⟨h.nextId_le, fun c hc hT => h.keeps c hc (mt (hST _) hT),
    fun c hc hT => h.fresh c hc (mt (hST _) hT)⟩

/-- Rewriting the rows of id `i` with an `f` that keeps ids. -/
theorem frame_modify (M : Ledger) (i : Nat) (f : ProofRequest → ProofRequest)
    (hf : ∀ r, (f r).id = r.id) : M.Frame (· = i) (M.modify i f) where
  nextId_le := le_rfl
  keeps c hc hi := List.mem_map.2 ⟨c, hc, if_neg hi⟩
  fresh c hc hi := by
    obtain ⟨r, hr, rfl⟩ := List.mem_map.1 hc
    by_cases hri : r.id = i
    · simp only [hri, if_true, hf] at hi
      exact (hi trivial).elim
    · simp only [hri, if_false]
      exact .inl hr

/-- Appending rows under new ids. -/
theorem frame_append (S : Nat → Prop) (M : Ledger) (X : List ProofRequest) (n : Nat)
    (hX : ∀ c ∈ X, M.nextId ≤ c.id) (hn : M.nextId ≤ n) : M.Frame S ⟨M.recs ++ X, n⟩ where
  nextId_le := hn
  keeps _ hc _ := List.mem_append_left X hc
  fresh c hc _ := (List.mem_append.1 hc).imp_right (hX c)

/-- A row of an id outside the writes stays the row of its id. -/
theorem SoleRow.frame (h : M.SoleRow q) (hf : M.Frame S M') (hq : ¬ S q.id) : M'.SoleRow q where
  mem := hf.keeps q h.mem hq
  eq c hc hid := (hf.fresh c hc (hid ▸ hq)).elim (h.eq c · hid) fun hle => absurd h.lt (by omega)
  lt := lt_of_lt_of_le h.lt hf.nextId_le

/-- The row of its id, rewritten by an `f` that keeps ids, is the row of its id. -/
theorem SoleRow.modify (h : M.SoleRow q) (f : ProofRequest → ProofRequest)
    (hf : ∀ r, (f r).id = r.id) : (M.modify q.id f).SoleRow (f q) where
  mem := List.mem_map.2 ⟨q, h.mem, if_pos rfl⟩
  eq c hc hid := by
    obtain ⟨r, hr, rfl⟩ := List.mem_map.1 hc
    by_cases hrq : r.id = q.id
    · rw [h.eq r hr hrq, if_pos rfl]
    · rw [if_neg hrq, hf] at hid
      exact absurd hid hrq
  lt := (hf q).symm ▸ h.lt

end Ledger

/-- What pass A leaves of the pending record `q` whose poll answered `status` and `proof`: the row
    of its id completed with the proof; or `FAILED`, with the successors of its retry under ids
    from `n` on; or the row as it was. -/
def Ledger.Polled (cfg : Config) (now : UInt64) (n : Nat) (L : Ledger) (q : ProofRequest)
    (status : String) (proof : Bytes) : Prop :=
  if status = "PROOF_FULFILLED" then L.SoleRow { q with proof, status := .complete }
  else if now > q.proofRequestTime + cfg.proofTimeout ∨ status = "PROOF_UNCLAIMED" then
    L.SoleRow (withStatus .failed now q) ∧ ∃ k ≥ n, retryRows q k ⊆ L.recs
  else L.SoleRow q

section PassA

variable {cfg : Config} {now : UInt64} {n : Nat} {L L' : Ledger} {q : ProofRequest}
  {status : String} {proof : Bytes}

theorem Ledger.Polled.mono {n' : Nat} (h : L.Polled cfg now n q status proof) (hn : n' ≤ n) :
    L.Polled cfg now n' q status proof := by
  unfold Ledger.Polled at h ⊢
  split_ifs at h ⊢
  · exact h
  · exact ⟨h.1, h.2.imp fun _ hk => ⟨le_trans hn hk.1, hk.2⟩⟩
  · exact h

/-- What the pass left of `q` survives writes to other ids below `n`. -/
theorem Ledger.Polled.frame {S : Nat → Prop} (h : L.Polled cfg now n q status proof)
    (hf : L.Frame S L') (hq : ¬ S q.id) (hS : ∀ i, S i → i < n) :
    L'.Polled cfg now n q status proof := by
  unfold Ledger.Polled at h ⊢
  split_ifs at h ⊢
  · exact h.frame hf hq
  · obtain ⟨k, hk, hks⟩ := h.2
    exact ⟨h.1.frame hf hq, k, hk, fun c hc => hf.keeps c (hks hc) fun hc' =>
      absurd (hS _ hc') (not_lt.2 (le_trans hk (mem_retryRows hc).2.1))⟩
  · exact h.frame hf hq

end PassA

namespace DbM

/-- A read the environment lets through returns `f` of the ledger. -/
theorem read_of_ok {α : Type} (f : Ledger → α) {st : Store} (h : true ∉ st.faults) :
    read f st = (.ok (f st.ledger), { st with faults := st.faults.tail }) :=
  call_of_ok h

/-- A wrapped program that succeeds is the program. -/
theorem wrapErr_of_ok {α : Type} {pfx : String} {x : DbM α} {st st' : Store} {a : α}
    (h : x st = (.ok a, st')) : wrapErr pfx x st = (.ok a, st') := by
  simp only [wrapErr, tryCatch_apply, h]

end DbM

section PassA

variable (cfg : Config) (now : UInt64) (poll : String → HttpOutcome)

/-- **The first loop, let through**: the retries of the records that failed before reaching the
    prover succeed and only append `UNREQ` rows under new ids. -/
theorem forM_retryRequest_ok (pfx : String) (l : List ProofRequest) (st : Store)
    (hok : true ∉ st.faults) :
    ∃ st', (l.forM fun req => DbM.wrapErr pfx (retryRequest req)) st = (.ok (), st') ∧
      true ∉ st'.faults ∧ st.ledger.nextId ≤ st'.ledger.nextId ∧
      ∃ X, st'.ledger.recs = st.ledger.recs ++ X ∧
        ∀ c ∈ X, c.status = .unreq ∧ st.ledger.nextId ≤ c.id := by
  induction l generalizing st with
  | nil => exact ⟨st, rfl, hok, le_rfl, [], (List.append_nil _).symm, nofun⟩
  | cons a l ih =>
    obtain ⟨h1, hL, hok₁⟩ := retryRequest_ok a st hok
    obtain ⟨st', hrun, hok', hle, X, hX, hXs⟩ := ih _ hok₁
    refine ⟨st', ?_, hok', ?_, retryRows a st.ledger.nextId ++ X, ?_, fun c hc => ?_⟩
    · rw [List.forM_cons', DbM.bind_apply, DbM.wrapErr_of_ok (Prod.ext h1 rfl)]
      exact hrun
    · rw [hL] at hle
      exact le_trans (Nat.le_add_right _ _) hle
    · rw [hX, hL, List.append_assoc]
    · rcases List.mem_append.1 hc with hc | hc
      · exact ⟨(mem_retryRows hc).1, (mem_retryRows hc).2.1⟩
      · obtain ⟨hs, hid⟩ := hXs c hc
        rw [hL] at hid
        exact ⟨hs, le_trans (Nat.le_add_right _ _) hid⟩

/-- **One iteration, let through.** On a pending record that is the row of its id, with its poll
    answered, the iteration succeeds, writes only rows of that id, and leaves the record as its
    poll decides. -/
theorem pollPendingProof_ok (req : ProofRequest) (st : Store) (hok : true ∉ st.faults)
    (hrow : st.ledger.SoleRow req) (hreq : req.status = .req) (status : String) (proof : Bytes)
    (hpoll : getProofStatus (poll req.proverRequestId) = .ok (status, proof)) :
    ∃ st', pollPendingProof cfg now poll req st = (.ok (), st') ∧ true ∉ st'.faults ∧
      st.ledger.Frame (· = req.id) st'.ledger ∧
      st'.ledger.Polled cfg now st.ledger.nextId req status proof := by
  have hok₁ := DbM.not_mem_tail hok
  simp only [pollPendingProof, DbM.bind_apply, DbM.lift_apply, hpoll]
  by_cases hful : status = "PROOF_FULFILLED"
  · -- `AddProof` completes the row
    let complete : ProofRequest → ProofRequest := fun r => { r with proof, status := .complete }
    refine ⟨⟨st.ledger.modify req.id complete, st.faults.tail, st.sent⟩, ?_, hok₁,
      Ledger.frame_modify _ _ complete fun _ => rfl, ?_⟩
    · simp only [hful, if_true, addProof, DbM.call_of_ok hok, hrow.find?_eq, hreq]
    · simp only [Ledger.Polled, hful, if_true]
      exact hrow.modify complete fun _ => rfl
  by_cases hto : now > req.proofRequestTime + cfg.proofTimeout ∨ status = "PROOF_UNCLAIMED"
  · -- `FAILED`, then `RetryRequest`
    set st₁ : Store := ⟨st.ledger.modify req.id (withStatus .failed now), st.faults.tail, st.sent⟩
    obtain ⟨h1, hL, hok₂⟩ := retryRequest_ok req st₁ hok₁
    have happ : st₁.ledger.Frame (fun _ => False) (retryRequest req st₁).2.ledger := by
      rw [hL]
      exact Ledger.frame_append _ _ _ _ (fun c hc => (mem_retryRows hc).2.1) (Nat.le_add_right _ _)
    refine ⟨(retryRequest req st₁).2, ?_, hok₂,
      (Ledger.frame_modify _ _ (withStatus .failed now) fun _ => rfl).trans (happ.mono nofun), ?_⟩
    · simp only [hful, hto, if_false, if_true, updateProofStatus, DbM.write, DbM.bind_apply,
        DbM.call_of_ok hok]
      exact DbM.wrapErr_of_ok (Prod.ext h1 rfl)
    · simp only [Ledger.Polled, hful, hto, if_false, if_true]
      refine ⟨(hrow.modify (withStatus .failed now) fun _ => rfl).frame happ id, st.ledger.nextId,
        le_rfl, ?_⟩
      rw [hL]
      exact List.subset_append_right _ _
  · -- the row stays
    refine ⟨st, ?_, hok, Ledger.Frame.refl _ _, ?_⟩
    · simp only [hful, hto, if_false]
      rfl
    · simp only [Ledger.Polled, hful, hto, if_false]
      exact hrow

/-- **The second loop, let through.** Over pending records with distinct ids, each the row of its
    id and with its poll answered, the loop succeeds, writes only rows of their ids, and leaves
    each record as its own poll decides. -/
theorem forM_pollPendingProof (qs : List ProofRequest) (st : Store) (hok : true ∉ st.faults)
    (hnd : (qs.map (·.id)).Nodup)
    (hqs : ∀ q ∈ qs, st.ledger.SoleRow q ∧ q.status = .req ∧
      ∃ sp, getProofStatus (poll q.proverRequestId) = .ok sp) :
    ∃ st', qs.forM (pollPendingProof cfg now poll) st = (.ok (), st') ∧ true ∉ st'.faults ∧
      st.ledger.Frame (fun i => ∃ q ∈ qs, q.id = i) st'.ledger ∧
      ∀ q ∈ qs, ∀ status proof, getProofStatus (poll q.proverRequestId) = .ok (status, proof) →
        st'.ledger.Polled cfg now st.ledger.nextId q status proof := by
  induction qs generalizing st with
  | nil => exact ⟨st, rfl, hok, Ledger.Frame.refl _ _, nofun⟩
  | cons q qs ih =>
    obtain ⟨hrow, hreq, ⟨status, proof⟩, hpoll⟩ := hqs q (List.mem_cons_self _ _)
    obtain ⟨st₁, hrun₁, hok₁, hf₁, hp₁⟩ :=
      pollPendingProof_ok cfg now poll q st hok hrow hreq status proof hpoll
    rw [List.map_cons, List.nodup_cons] at hnd
    have hne : ∀ q' ∈ qs, q'.id ≠ q.id := fun q' hq' h => hnd.1 (h ▸ List.mem_map_of_mem _ hq')
    obtain ⟨st', hrun, hok', hf, hp⟩ := ih st₁ hok₁ hnd.2 fun q' hq' =>
      have ⟨hrow', hrest⟩ := hqs q' (List.mem_cons_of_mem _ hq')
      ⟨hrow'.frame hf₁ (hne q' hq'), hrest⟩
    have hlt : ∀ i, (∃ q' ∈ qs, q'.id = i) → i < st.ledger.nextId := fun _ ⟨q', hq', hi⟩ =>
      hi ▸ (hqs q' (List.mem_cons_of_mem _ hq')).1.lt
    refine ⟨st', by rw [List.forM_cons', DbM.bind_apply, hrun₁]; exact hrun, hok', ?_, ?_⟩
    · exact (hf₁.mono fun i hi => ⟨q, List.mem_cons_self _ _, hi.symm⟩).trans
        (hf.mono fun i ⟨q', hq', hi⟩ => ⟨q', List.mem_cons_of_mem _ hq', hi⟩)
    · intro q' hq' status' proof' hpoll'
      rcases List.mem_cons.1 hq' with rfl | hq'
      · rw [hpoll] at hpoll'
        cases hpoll'
        exact hp₁.frame hf (fun ⟨c, hc, hid⟩ => hne c hc hid) hlt
      · exact (hp q' hq' status' proof' hpoll').mono hf₁.nextId_le

/-- **Pass A on a record among others.** With every ledger call let through, over a ledger whose
    ids are keys and whose pending records all have their poll answered, pass A leaves each
    pending record as its own poll decides: the row of its id completed with the proof; or
    `FAILED`, with the successors of its retry under new ids; or as it was. -/
theorem processPendingProofs_pending (st : Store) (hok : true ∉ st.faults) (hkey : st.ledger.Keyed)
    (hpolls : ∀ q ∈ st.ledger.recs, q.status = .req → q.proverRequestId ≠ "" →
      ∃ sp, getProofStatus (poll q.proverRequestId) = .ok sp)
    (r : ProofRequest) (hr : r ∈ st.ledger.recs) (hreq : r.status = .req)
    (hid : r.proverRequestId ≠ "") (status : String) (proof : Bytes)
    (hpoll : getProofStatus (poll r.proverRequestId) = .ok (status, proof)) :
    (processPendingProofs cfg now poll st).2.ledger.Polled cfg now st.ledger.nextId r status proof := by
  have hok₀ := DbM.not_mem_tail hok
  obtain ⟨st₁, hrun₁, hok₁, hle₁, X, hX, hXs⟩ :=
    forM_retryRequest_ok "failed to retry request: "
      (st.ledger.recs.filter fun r => r.status = .failed ∧ r.proverRequestId = "")
      { st with faults := st.faults.tail } hok₀
  set qs := st.ledger.recs.filter fun r => r.status = .req ∧ r.proverRequestId ≠ ""
  have hXq : X.filter (fun r => r.status = .req ∧ r.proverRequestId ≠ "") = [] :=
    List.filter_eq_nil_iff.2 fun c hc => by simp [(hXs c hc).1]
  have hqs : st₁.ledger.recs.filter (fun r => r.status = .req ∧ r.proverRequestId ≠ "") = qs := by
    rw [hX, List.filter_append, hXq, List.append_nil]
  have hframe : st.ledger.Frame (fun _ => False) st₁.ledger := by
    rw [show st₁.ledger = ⟨st.ledger.recs ++ X, st₁.ledger.nextId⟩ from by rw [← hX]]
    exact Ledger.frame_append _ _ _ _ (fun c hc => (hXs c hc).2) hle₁
  obtain ⟨st', hrun, -, -, hp⟩ := forM_pollPendingProof cfg now poll qs
    { st₁ with faults := st₁.faults.tail } (DbM.not_mem_tail hok₁)
    (List.pairwise_map.2 ((hkey.sorted.filter _).imp Nat.ne_of_lt))
    fun q hq =>
      have ⟨hq, hpend⟩ := List.mem_filter.1 hq
      have hpend := of_decide_eq_true hpend
      ⟨(hkey.soleRow hq).frame hframe id, hpend.1, hpolls q hq hpend.1 hpend.2⟩
  have hread₀ := DbM.read_of_ok
    (fun L => L.recs.filter fun r => r.status = .failed ∧ r.proverRequestId = "") hok
  have hread₁ := DbM.read_of_ok
    (fun L => L.recs.filter fun r => r.status = .req ∧ r.proverRequestId ≠ "") hok₁
  have hrun' : processPendingProofs cfg now poll st = (.ok (), st') := by
    simp only [processPendingProofs, getProofsFailedOnServer, getAllPendingProofs, DbM.bind_apply,
      DbM.wrapErr_of_ok hread₀, hrun₁, hread₁, hqs]
    exact hrun
  rw [hrun']
  exact (hp r (List.mem_filter.2 ⟨hr, decide_eq_true ⟨hreq, hid⟩⟩) status proof hpoll).mono hle₁

end PassA

/-! ## Pass B -/

/-- `RequestQueuedProofs`. It returns the record it starts a goroutine for, if any (the
    `go func(p ent.ProofRequest)` at its end); `checkpoint` is the answer of
    `l.checkpointBlockHash`. -/
def requestQueuedProofs (cfg : Config) (checkpoint : Except String (UInt64 × Hash)) :
    DbM (Option ProofRequest) := do
  let next? ← DbM.wrapErr "failed to get unrequested proofs: " getNextUnrequestedProof
  match next? with
  | none => pure none
  | some nextProofToRequest =>
    if nextProofToRequest.type = .agg then
      if nextProofToRequest.l1BlockHash = "" then
        let (blockNumber, blockHash) ← DbM.lift checkpoint
        DbM.ignoreErr (addL1BlockInfoToAggRequest nextProofToRequest.startBlock
          nextProofToRequest.endBlock blockNumber blockHash.hex)
        pure none
      else pure (some nextProofToRequest)
    else
      let currentRequestedProofs ← DbM.wrapErr "failed to count requested proofs: "
        (getNumberOfProofsWithStatus .req)
      if (currentRequestedProofs : Int) ≥ goInt cfg.maxConcurrentProofRequests then pure none
      else pure (some nextProofToRequest)

/-- **What pass B can do.** It leaves the ledger as it was, or checkpoints the range of the first
    unrequested record when that record is an `AGG` without a checkpoint. It starts a goroutine
    only for the first unrequested record, only with the ledger unchanged, for an `AGG` only when
    it has a checkpoint, and for a `SPAN` only while fewer than `MaxConcurrentProofRequests`
    records are `REQ`. -/
theorem requestQueuedProofs_spec (cfg : Config) (cp : Except String (UInt64 × Hash)) (st : Store) :
    ((requestQueuedProofs cfg cp st).2.ledger = st.ledger ∨
      ∃ (n : ProofRequest) (bn : UInt64) (h : Hash),
        st.ledger.recs.find? (·.status = .unreq) = some n ∧ n.type = .agg ∧ n.l1BlockHash = "" ∧
        (requestQueuedProofs cfg cp st).2.ledger =
          st.ledger.checkpoint n.startBlock n.endBlock bn h.hex) ∧
    ∀ p, (requestQueuedProofs cfg cp st).1 = .ok (some p) →
      (requestQueuedProofs cfg cp st).2.ledger = st.ledger ∧
      st.ledger.recs.find? (·.status = .unreq) = some p ∧
      (p.type = .agg → p.l1BlockHash ≠ "") ∧
      (p.type = .span →
        ((st.ledger.recs.countP (·.status = .req) : Nat) : Int) < goInt cfg.maxConcurrentProofRequests) := by
  simp only [requestQueuedProofs, getNextUnrequestedProof, getNumberOfProofsWithStatus,
    DbM.wrapErr, DbM.bind_apply, DbM.tryCatch_apply, DbM.read_apply]
  by_cases hf : st.faults.head? = some true
  · simp [hf]
  rcases hfind : st.ledger.recs.find? (·.status = .unreq) with _ | n
  · simp [hf, hfind]
  simp only [hf, hfind, if_false, Option.some.injEq, exists_eq_left']
  cases hty : n.type with
  | agg =>
    by_cases hh : n.l1BlockHash = ""
    · rcases cp with e | ⟨bn, h⟩
      · simp [hh]
      · simp only [if_true, hh, DbM.bind_apply, DbM.lift_apply, DbM.ignoreErr_apply, DbM.pure_apply]
        refine ⟨?_, by simp⟩
        rcases addL1BlockInfoToAggRequest_ledger n.startBlock n.endBlock bn h.hex
          ⟨st.ledger, st.faults.tail, st.sent⟩ with h1 | h1
        · exact .inl h1
        · exact .inr ⟨n, bn, h, rfl, hty, hh, h1⟩
    · simp [hh, hty]
  | span =>
    simp only [reduceCtorEq, if_false, DbM.bind_apply, DbM.tryCatch_apply, DbM.read_apply]
    split_ifs with hf'
    · simp
    · by_cases hc : goInt cfg.maxConcurrentProofRequests ≤
        ((st.ledger.recs.countP (·.status = .req) : Nat) : Int)
      · simp [hc]
      · simp [hc, hty, not_le.mp hc]

/-! ## Requesting a proof -/

/-- `RequestProofFromServer`: `POST` `jsonBody` to `urlPath` (unless the request cannot even be
    built), and return the proof id of the answer `outcome`. -/
def requestProofFromServer (urlPath : String) (jsonBody : RequestBody) (outcome : HttpOutcome) :
    DbM String := do
  match outcome with
  | .badRequest _ => pure ()
  | _ => DbM.send ⟨urlPath, jsonBody⟩
  DbM.lift (proofResponseOf outcome)

/-- `RequestSpanProof`: a span proof for `[l2Start, l2End]`. -/
def requestSpanProof (l2Start l2End : UInt64) (outcome : HttpOutcome) : DbM String :=
  requestProofFromServer "request_span_proof" (.span ⟨l2Start, l2End⟩) outcome

/-- The request reaches the prover with `jsonBody`, unless it cannot be built. -/
theorem requestProofFromServer_snd (urlPath : String) (jsonBody : RequestBody) (outcome : HttpOutcome)
    (st : Store) :
    (requestProofFromServer urlPath jsonBody outcome st).2.ledger = st.ledger ∧
    ∃ cs, (requestProofFromServer urlPath jsonBody outcome st).2.sent = st.sent ++ cs ∧
      ∀ c ∈ cs, c.body = jsonBody := by
  cases outcome <;> simp [requestProofFromServer, DbM.send]

/-- `RequestAggProof`: an aggregate of the span proofs that cover `[start + 1, end]`, anchored at
    the L1 block `l1BlockHash`. -/
def requestAggProof (start endBlock : UInt64) (l1BlockHash : String) (outcome : HttpOutcome) :
    DbM String := do
  let subproofs ← DbM.wrapErr "failed to get subproofs: " (getConsecutiveSpanProofs (start + 1) endBlock)
  requestProofFromServer "request_agg_proof" (.agg ⟨subproofs, l1BlockHash⟩) outcome

/-- `RequestOPSuccinctProof` up to the prover's answer: the proof id it will record. -/
def requestProof (p : ProofRequest) (outcome : HttpOutcome) : DbM String :=
  let prevConfirmedBlock := p.startBlock - 1
  match p.type with
  | .agg => DbM.wrapErr "failed to request AGG proof: "
      (requestAggProof prevConfirmedBlock p.endBlock p.l1BlockHash outcome)
  | .span => DbM.wrapErr "failed to request SPAN proof: "
      (requestSpanProof prevConfirmedBlock p.endBlock outcome)

/-- Requesting a proof only reads the ledger, and an `AGG` request it sends carries the copy's
    checkpoint, `p.L1BlockHash`. -/
theorem requestProof_spec (p : ProofRequest) (outcome : HttpOutcome) (st : Store) :
    (requestProof p outcome st).2.ledger = st.ledger ∧
    ∃ cs, (requestProof p outcome st).2.sent = st.sent ++ cs ∧
      ∀ c ∈ cs, ∀ a, c.body = .agg a → p.type = .agg ∧ a.l1Head = p.l1BlockHash := by
  unfold requestProof
  cases hp : p.type with
  | span =>
    obtain ⟨hl, cs, hs, hc⟩ := requestProofFromServer_snd "request_span_proof"
      (.span ⟨p.startBlock - 1, p.endBlock⟩) outcome st
    simp only [DbM.wrapErr_snd, requestSpanProof]
    exact ⟨hl, cs, hs, fun c hc' a ha => by simp [hc c hc'] at ha⟩
  | agg =>
    simp only [DbM.wrapErr_snd, requestAggProof, DbM.bind_apply]
    have hst := DbM.wrapErr_snd "failed to get subproofs: "
      (getConsecutiveSpanProofs (p.startBlock - 1 + 1) p.endBlock) st
    rw [getConsecutiveSpanProofs_snd] at hst
    rcases h : DbM.wrapErr _ _ st with ⟨_ | subs, st'⟩ <;> rw [h] at hst <;> subst hst
    · exact ⟨rfl, [], by simp, by simp⟩
    · obtain ⟨hl, cs, hs, hc⟩ := requestProofFromServer_snd "request_agg_proof"
        (.agg ⟨subs, p.l1BlockHash⟩) outcome { st with faults := st.faults.tail }
      refine ⟨hl, cs, hs, fun c hc' a ha => ⟨trivial, ?_⟩⟩
      rw [hc c hc', RequestBody.agg.injEq] at ha
      rw [← ha]

/-- The rest of `RequestOPSuccinctProof`: record the proof id. -/
def setProofId (p : ProofRequest) (proofId : String) : DbM Unit :=
  DbM.wrapErr "failed to set prover request ID: " (setProverRequestID p.id proofId)

/-- `RequestOPSuccinctProof`. -/
def requestOPSuccinctProof (p : ProofRequest) (outcome : HttpOutcome) : DbM Unit := do
  let proofId ← requestProof p outcome
  setProofId p proofId

/-! ## The goroutine of pass B -/

/-- The statement the goroutine runs next. -/
inductive TaskPc where
  /-- `UpdateProofStatus(nextProofToRequest.ID, "REQ")`. -/
  | markReq
  /-- `RequestOPSuccinctProof(p)`, up to the prover's answer. -/
  | request
  /-- The `SetProverRequestID(p.ID, proofId)` that ends `RequestOPSuccinctProof`. -/
  | setId (proofId : String)
  /-- `UpdateProofStatus(nextProofToRequest.ID, "FAILED")` after the request failed. -/
  | markFailed
  /-- `RetryRequest(nextProofToRequest)`. -/
  | retry
  deriving DecidableEq, Repr

/-- A goroutine started by pass B: the copy `p` of the record it was passed, and where it is. -/
structure Task where
  p : ProofRequest
  pc : TaskPc
  deriving DecidableEq, Repr

/-- One statement of the goroutine; it returns the next one, or `none` when the goroutine
    returns. It logs its errors and never returns one. `now` is the ledger's clock and `outcome`
    the prover's answer, for the statements that read them. -/
def Task.step (t : Task) (now : UInt64) (outcome : HttpOutcome) : DbM (Option TaskPc) :=
  match t.pc with
  | .markReq =>
    tryCatch (do updateProofStatus t.p.id .req now; pure (some .request)) fun _ => pure none
  | .request =>
    tryCatch (do let proofId ← requestProof t.p outcome; pure (some (.setId proofId)))
      fun _ => pure (some .markFailed)
  | .setId proofId =>
    tryCatch (do setProofId t.p proofId; pure none) fun _ => pure (some .markFailed)
  | .markFailed => do
    DbM.ignoreErr (updateProofStatus t.p.id .failed now)
    pure (some .retry)
  | .retry => do
    DbM.ignoreErr (retryRequest t.p)
    pure none

/-! ### What each statement of the goroutine does -/

/-- `UpdateProofStatus(p.ID, "REQ")` returns, or ends the goroutine when the write fails; it marks
    every row with the record's id `REQ` whatever status the row has. -/
theorem Task.step_markReq (p : ProofRequest) (now : UInt64) (o : HttpOutcome) (st : Store) :
    let r := Task.step ⟨p, .markReq⟩ now o st
    r.2.sent = st.sent ∧
    (r.1 = .ok none ∧ r.2.ledger = st.ledger ∨
      r.1 = .ok (some .request) ∧ r.2.ledger = st.ledger.modify p.id (withStatus .req now)) := by
  by_cases hf : st.faults.head? = some true <;>
    simp [Task.step, updateProofStatus, DbM.write_apply, hf]

theorem Task.step_request (p : ProofRequest) (now : UInt64) (o : HttpOutcome) (st : Store) :
    let r := Task.step ⟨p, .request⟩ now o st
    (∃ pc, r.1 = .ok (some pc) ∧ pc ≠ .markReq) ∧ r.2.ledger = st.ledger ∧
    ∃ cs, r.2.sent = st.sent ++ cs ∧
      ∀ c ∈ cs, ∀ a, c.body = .agg a → p.type = .agg ∧ a.l1Head = p.l1BlockHash := by
  obtain ⟨hl, cs, hs, hc⟩ := requestProof_spec p o st
  simp only [Task.step, DbM.tryCatch_apply, DbM.bind_apply]
  rcases h : requestProof p o st with ⟨_ | _, st'⟩ <;> rw [h] at hl hs <;>
    exact ⟨⟨_, rfl, by simp⟩, hl, cs, hs, hc⟩

theorem Task.step_setId (p : ProofRequest) (proofId : String) (now : UInt64) (o : HttpOutcome)
    (st : Store) :
    let r := Task.step ⟨p, .setId proofId⟩ now o st
    r.2.sent = st.sent ∧ (r.1 = .ok none ∨ r.1 = .ok (some .markFailed)) ∧
    (r.2.ledger = st.ledger ∨
      r.2.ledger = st.ledger.modify p.id fun r => { r with proverRequestId := proofId }) := by
  by_cases hf : st.faults.head? = some true <;>
    simp [Task.step, setProofId, setProverRequestID, DbM.wrapErr, DbM.write_apply, hf]

theorem Task.step_markFailed (p : ProofRequest) (now : UInt64) (o : HttpOutcome) (st : Store) :
    let r := Task.step ⟨p, .markFailed⟩ now o st
    r.2.sent = st.sent ∧ r.1 = .ok (some .retry) ∧
    (r.2.ledger = st.ledger ∨ r.2.ledger = st.ledger.modify p.id (withStatus .failed now)) := by
  by_cases hf : st.faults.head? = some true <;>
    simp [Task.step, updateProofStatus, DbM.write_apply, hf]

theorem Task.step_retry (p : ProofRequest) (now : UInt64) (o : HttpOutcome) (st : Store) :
    Task.step ⟨p, .retry⟩ now o st = (.ok none, (retryRequest p st).2) := by
  simp [Task.step]

end Proposer
