import Proposer.System

set_option autoImplicit false

/-! # The record lifecycle in runs of the proposer

Spec §3 gives every record the lifecycle `UNREQ → REQ → (COMPLETE | FAILED)`, one request to the
prover, and, once it fails, one set of successors. Each departure below is a run from the empty
ledger (`reachable_run`), next to the statement of the code that causes it:

* Pass B leaves the mark `REQ` to the goroutine it starts, so a record can be dispatched twice;
  the late mark reopens a `COMPLETE` record, sends it again, and exceeds the cap.
* A request refused before the prover answers leaves its record `FAILED` with no prover id, which
  pass A retries again on every tick: in a run without ledger faults the record has three sets of
  successors, and overlapping halves are requested side by side.
* Neither gateway function reads the status code: an answer without `proof_id` strands the record
  (`Task.step_request_without_id`), and one without `proof` completes it with an empty proof.
* The bisection of a single block queues the inverted `[s + 1, s]`.
* Pass A's deadline is a `uint64` sum: exact below `2^64` (`deadline_exact`), and when it wraps a
  pending record among any others is failed and retried at once (`deadline_wraps_to_timeout`). -/

namespace Proposer

/-! ## Dispatch twice, mark late -/

/-- Two ticks start two goroutines for the span `[100, 199]`; the first requests it, and a tick
    completes it with the proof `0x01`. The second goroutine has not run yet. -/
def dispatchTwice : List Event :=
  [.derive 100 199 0, quietTick (fun _ => refused) [], quietTick (fun _ => refused) [],
   .task 0 0 refused [], .task 0 0 (answerId "p0") [], .task 0 0 refused [],
   quietTick (fun _ => answerFulfilled [("proof", .string "AQ==")]) []]

/-- The second goroutine runs: it marks the record, requests it under `p1`, and records that id. -/
def lateGoroutine : List Event :=
  [.task 0 0 refused [], .task 0 0 (answerId "p1") [], .task 0 0 refused []]

/-- Record `0` is `COMPLETE`, then `REQ` again, and has been sent to the prover twice. -/
theorem complete_record_reopened :
    let cfg : Config := ⟨1, 3600⟩
    Reachable cfg (run cfg Sys.init (dispatchTwice ++ lateGoroutine)) ∧
    (run cfg Sys.init dispatchTwice).statusOf 0 = some .complete ∧
    (run cfg Sys.init (dispatchTwice ++ lateGoroutine)).statusOf 0 = some .req ∧
    ((run cfg Sys.init (dispatchTwice ++ lateGoroutine)).sent.filter (·.1 = 0)).length = 2 :=
  ⟨reachable_run _ .init _, by decide⟩

/-- A second span `[200, 299]` is queued; the tick that completes record `0` starts a goroutine
    for it, which runs to the end before the stale goroutine of record `0` does. -/
def overCap : List Event :=
  [.derive 100 199 0, .derive 200 299 0, quietTick (fun _ => refused) [],
   quietTick (fun _ => refused) [],
   .task 0 0 refused [], .task 0 0 (answerId "p0") [], .task 0 0 refused [],
   quietTick (fun _ => answerFulfilled [("proof", .string "AQ==")]) [],
   .task 1 0 refused [], .task 1 0 (answerId "p1") [], .task 1 0 refused []] ++ lateGoroutine

/-- With `MaxConcurrentProofRequests = 1`, the run ends with no goroutine in flight and two
    `SPAN` records `REQ`. -/
theorem quiescent_over_cap :
    let cfg : Config := ⟨1, 3600⟩
    Reachable cfg (run cfg Sys.init overCap) ∧ (run cfg Sys.init overCap).Quiescent ∧
    ((run cfg Sys.init overCap).ledger.recs.filter
      fun r => r.type = .span ∧ r.status = .req).length = 2 :=
  ⟨reachable_run _ .init _, by decide⟩

/-! ## Failed before the prover answers -/

/-- A goroutine's request for the span `[s, e]` is refused; it fails and retries the record. -/
def failFirst (s e : UInt64) : List Event :=
  [.derive s e 0, quietTick (fun _ => refused) [],
   .task 0 0 refused [], .task 0 0 refused [], .task 0 0 refused [], .task 0 0 refused []]

/-- After the goroutine's retry of `[100, 199]`, a tick retries it again in pass A and starts a
    goroutine for its first half, which requests it under `p1`; then a tick in which the prover
    answers that the proof is being computed. -/
def retriedTwice : List Event :=
  failFirst 100 199 ++ [quietTick (fun _ => answerRequested) [],
    .task 0 0 refused [], .task 0 0 (answerId "p1") [], .task 0 0 refused [],
    quietTick (fun _ => answerRequested) []]

/-- No ledger call fails in the run. At the end of its last tick no goroutine is in flight, the
    requested half holding the one slot, and the `FAILED` record `[100, 199]` has three sets of
    successors: pass A retried it once more in each tick. -/
theorem failed_record_retried_twice :
    let cfg : Config := ⟨1, 3600⟩
    Reachable cfg (run cfg Sys.init retriedTwice) ∧ (run cfg Sys.init retriedTwice).Quiescent ∧
    (run cfg Sys.init retriedTwice).ledger.recs.map (fun r => (r.startBlock, r.endBlock, r.status)) =
      [(100, 199, .failed), (100, 149, .req), (150, 199, .unreq), (100, 149, .unreq),
        (150, 199, .unreq), (100, 149, .unreq), (150, 199, .unreq)] :=
  ⟨reachable_run _ .init _, by decide⟩

/-- After the goroutine's retry of `[100, 199]`, three ticks, each followed by the mark of the
    goroutine it started, with `MaxConcurrentProofRequests = 4`; no ledger call fails. -/
def halvesRequested : List Event :=
  failFirst 100 199 ++ [quietTick (fun _ => answerRequested) [], .task 0 0 refused [],
    quietTick (fun _ => answerRequested) [], .task 1 0 refused [],
    quietTick (fun _ => answerRequested) [], .task 2 0 refused []]

/-- Records `1` and `3`, both the span `[100, 149]`, are `REQ` at once. -/
theorem retried_halves_overlap :
    let cfg : Config := ⟨4, 3600⟩
    Reachable cfg (run cfg Sys.init halvesRequested) ∧
    ((run cfg Sys.init halvesRequested).ledger.find? 1).map
      (fun r => (r.type, r.status, r.startBlock, r.endBlock)) = some (.span, .req, 100, 149) ∧
    ((run cfg Sys.init halvesRequested).ledger.find? 3).map
      (fun r => (r.type, r.status, r.startBlock, r.endBlock)) = some (.span, .req, 100, 149) :=
  ⟨reachable_run _ .init _, by decide⟩

/-! ## Answers the gateway does not check -/

/-- The prover answers the request for `[100, 199]` with an empty object. -/
def strandedRequest : List Event :=
  [.derive 100 199 0, quietTick (fun _ => refused) [],
   .task 0 0 refused [], .task 0 0 (.response 200 (.json (.object []))) [], .task 0 0 refused []]

/-- The goroutine has returned, and record `0` is `REQ` with no prover id, so that
    `GetAllPendingProofs` does not return it. -/
theorem request_stranded_without_id :
    let cfg : Config := ⟨1, 3600⟩
    Reachable cfg (run cfg Sys.init strandedRequest) ∧ (run cfg Sys.init strandedRequest).Quiescent ∧
    ((run cfg Sys.init strandedRequest).ledger.find? 0).map (fun r => (r.status, r.proverRequestId)) =
      some (.req, "") ∧
    (run cfg Sys.init strandedRequest).ledger.recs.filter
      (fun r => r.status = .req ∧ r.proverRequestId ≠ "") = [] :=
  ⟨reachable_run _ .init _, by decide⟩

/-- Record `0` is requested under `p0`, and the prover reports it fulfilled without a proof. -/
def fulfilledWithoutProof : List Event :=
  [.derive 100 199 0, quietTick (fun _ => refused) [],
   .task 0 0 refused [], .task 0 0 (answerId "p0") [], .task 0 0 refused [],
   quietTick (fun _ => answerFulfilled []) []]

/-- Record `0` is `COMPLETE` with an empty proof. -/
theorem completed_with_empty_proof :
    let cfg : Config := ⟨1, 3600⟩
    Reachable cfg (run cfg Sys.init fulfilledWithoutProof) ∧
    ((run cfg Sys.init fulfilledWithoutProof).ledger.find? 0).map (fun r => (r.status, r.proof)) =
      some (.complete, []) :=
  ⟨reachable_run _ .init _, by decide⟩

/-! ## Splitting a single block -/

/-- The single block `[7, 7]` fails before the prover answers, and the goroutine retries it. -/
def singleBlockFailed : List Event := failFirst 7 7

/-- Record `2`, a successor of `[7, 7]`, is the inverted range `[8, 7]`. -/
theorem single_block_split_inverted :
    let cfg : Config := ⟨1, 3600⟩
    Reachable cfg (run cfg Sys.init singleBlockFailed) ∧
    ((run cfg Sys.init singleBlockFailed).ledger.find? 2).map (fun r => (r.startBlock, r.endBlock)) =
      some (8, 7) :=
  ⟨reachable_run _ .init _, by decide⟩

/-! ## The proof timeout -/

section Timeout

variable (cfg : Config) (now : UInt64) (poll : String → HttpOutcome) (st : Store)

/-- **The deadline wraps.** Pass A compares `now` with `ProofRequestTime + ProofTimeout` computed
    in `uint64`. When the sum passes `2^64 - 1` it wraps below the request time, so a pending
    record whose status is not final is marked `FAILED`, and its successors queued, at every
    `now` past the wrapped sum: from the second of the request on, while `now - T` is within the
    timeout. This holds of the record among any others, with every ledger call let through. -/
theorem deadline_wraps_to_timeout (hok : true ∉ st.faults) (hkey : st.ledger.Keyed)
    (hpolls : ∀ q ∈ st.ledger.recs, q.status = .req → q.proverRequestId ≠ "" →
      ∃ sp, getProofStatus (poll q.proverRequestId) = .ok sp)
    (r : ProofRequest) (hr : r ∈ st.ledger.recs) (hreq : r.status = .req)
    (hid : r.proverRequestId ≠ "") (status : String) (proof : Bytes)
    (hpoll : getProofStatus (poll r.proverRequestId) = .ok (status, proof))
    (hful : status ≠ "PROOF_FULFILLED")
    (hwrap : 2 ^ 64 ≤ r.proofRequestTime.toNat + cfg.proofTimeout.toNat)
    (hnow : r.proofRequestTime.toNat + cfg.proofTimeout.toNat - 2 ^ 64 < now.toNat) :
    (processPendingProofs cfg now poll st).2.ledger.SoleRow (withStatus .failed now r) ∧
      ∃ k ≥ st.ledger.nextId, retryRows r k ⊆ (processPendingProofs cfg now poll st).2.ledger.recs := by
  have hto : now > r.proofRequestTime + cfg.proofTimeout := by
    show (r.proofRequestTime + cfg.proofTimeout).toNat < now.toNat
    rw [UInt64.toNat_add_of_le hwrap]
    exact hnow
  have h := processPendingProofs_pending cfg now poll st hok hkey hpolls r hr hreq hid status proof hpoll
  rwa [Ledger.Polled, if_neg hful, if_pos (.inl hto)] at h

/-- **Within `2^64` the deadline is exact.** When `T + D` does not wrap, pass A leaves a pending
    record whose status is neither final nor `PROOF_UNCLAIMED` as it is exactly while
    `now - T ≤ D`, and once `now - T > D`, as integers, fails it and queues its successors; among
    any other records, with every ledger call let through. -/
theorem deadline_exact (hok : true ∉ st.faults) (hkey : st.ledger.Keyed)
    (hpolls : ∀ q ∈ st.ledger.recs, q.status = .req → q.proverRequestId ≠ "" →
      ∃ sp, getProofStatus (poll q.proverRequestId) = .ok sp)
    (r : ProofRequest) (hr : r ∈ st.ledger.recs) (hreq : r.status = .req)
    (hid : r.proverRequestId ≠ "") (status : String) (proof : Bytes)
    (hpoll : getProofStatus (poll r.proverRequestId) = .ok (status, proof))
    (hful : status ≠ "PROOF_FULFILLED") (hunc : status ≠ "PROOF_UNCLAIMED")
    (hfit : r.proofRequestTime.toNat + cfg.proofTimeout.toNat < 2 ^ 64) :
    ((now.toNat : Int) - r.proofRequestTime.toNat ≤ cfg.proofTimeout.toNat →
      (processPendingProofs cfg now poll st).2.ledger.SoleRow r) ∧
    ((cfg.proofTimeout.toNat : Int) < now.toNat - r.proofRequestTime.toNat →
      (processPendingProofs cfg now poll st).2.ledger.SoleRow (withStatus .failed now r) ∧
        ∃ k ≥ st.ledger.nextId, retryRows r k ⊆ (processPendingProofs cfg now poll st).2.ledger.recs) := by
  have hdl : now > r.proofRequestTime + cfg.proofTimeout ↔
      (cfg.proofTimeout.toNat : Int) < now.toNat - r.proofRequestTime.toNat := by
    show (r.proofRequestTime + cfg.proofTimeout).toNat < now.toNat ↔ _
    rw [UInt64.toNat_add_of_lt hfit]
    omega
  have h := processPendingProofs_pending cfg now poll st hok hkey hpolls r hr hreq hid status proof hpoll
  rw [Ledger.Polled, if_neg hful] at h
  refine ⟨fun hle => ?_, fun hlt => ?_⟩
  · rwa [if_neg] at h
    rintro (h' | h')
    exacts [absurd (hdl.1 h') (not_lt.2 hle), hunc h']
  · rwa [if_pos (.inl (hdl.2 hlt))] at h

end Timeout

/-- The span `[1, 10]`, requested at `1000` under the prover id `p0`. -/
def pendingSpan : ProofRequest :=
  { Ledger.freshRecord 1 .span 1 10 0 with
    status := .req, proverRequestId := "p0", proofRequestTime := 1000 }

/-- A completed span, `pendingSpan`, and the aggregate `[1, 10]` requested at `5000`. -/
def timeoutLedger : Ledger :=
  ⟨[completedSpan 0 100 199 1, pendingSpan,
    { Ledger.freshRecord 2 .agg 1 10 0 with
      status := .req, proverRequestId := "p1", proofRequestTime := 5000 }], 3⟩

theorem timeoutLedger_keyed : timeoutLedger.Keyed := ⟨by decide, by decide⟩

/-- With the timeout set to its largest value `2^64 - 1`, the span requested at `1000` is failed
    at `1000` and its halves queued, while the aggregate beside it is left pending. -/
theorem deadline_wraps_to_timeout_at_request :
    ((1000 : UInt64).toNat : Int) - pendingSpan.proofRequestTime.toNat ≤
        (18446744073709551615 : UInt64).toNat ∧
      (processPendingProofs ⟨1, 18446744073709551615⟩ 1000 (fun _ => answerRequested)
        ⟨timeoutLedger, [], []⟩).2.ledger.SoleRow (withStatus .failed 1000 pendingSpan) ∧
      ∃ k ≥ timeoutLedger.nextId, retryRows pendingSpan k ⊆ (processPendingProofs
        ⟨1, 18446744073709551615⟩ 1000 (fun _ => answerRequested) ⟨timeoutLedger, [], []⟩).2.ledger.recs :=
  ⟨by decide, deadline_wraps_to_timeout ⟨1, 18446744073709551615⟩ 1000 (fun _ => answerRequested)
    ⟨timeoutLedger, [], []⟩ (by decide) timeoutLedger_keyed (fun _ _ _ _ => ⟨_, rfl⟩) pendingSpan
    (.tail _ (.head _)) rfl (by decide) "PROOF_REQUESTED" [] rfl (by decide) (by decide)
    (by decide)⟩

/-- With a timeout of `3600`, the span requested at `1000` is left as it is at `4600`, and failed
    with its halves queued at `4601`. -/
theorem deadline_exact_hour :
    (processPendingProofs ⟨1, 3600⟩ 4600 (fun _ => answerRequested)
        ⟨timeoutLedger, [], []⟩).2.ledger.SoleRow pendingSpan ∧
      (processPendingProofs ⟨1, 3600⟩ 4601 (fun _ => answerRequested)
        ⟨timeoutLedger, [], []⟩).2.ledger.SoleRow (withStatus .failed 4601 pendingSpan) ∧
      ∃ k ≥ timeoutLedger.nextId, retryRows pendingSpan k ⊆ (processPendingProofs ⟨1, 3600⟩ 4601
        (fun _ => answerRequested) ⟨timeoutLedger, [], []⟩).2.ledger.recs := by
  have h (now : UInt64) := deadline_exact ⟨1, 3600⟩ now (fun _ => answerRequested)
    ⟨timeoutLedger, [], []⟩ (by decide) timeoutLedger_keyed (fun _ _ _ _ => ⟨_, rfl⟩) pendingSpan
    (.tail _ (.head _)) rfl (by decide) "PROOF_REQUESTED" [] rfl (by decide) (by decide) (by decide)
  exact ⟨(h 4600).1 (by decide), (h 4601).2 (by decide)⟩

end Proposer
