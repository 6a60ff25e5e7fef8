import Proposer.Store
import Mathlib.Data.List.Sort

set_option autoImplicit false

/-! # Aggregation planning

Pass C (`DeriveAggProofs`) reads the output oracle's latest proposed block and the next block a
proposal must reach, and asks the ledger to queue an aggregate proof over the completed span
proofs that follow the latest block (spec §4.5). The ledger side, `TryCreateAggProofFromSpanProofs`,
and the query that collects the subproofs of an aggregate, `GetConsecutiveSpanProofs`, belong to
the database package, which is not in the sources; both are modelled from the spec.

`TryCreateAggProofFromSpanProofs` walks the completed spans sorted by start block while each
starts right after the previous one ends, and queues `AGG [from, end]` when `end` reaches the
target. It never looks at the `AGG` records already queued, and the one it inserts is not a span,
so the walk of a second run finds the same chain: a second run while the oracle has not
advanced queues the same aggregate again (`deriveAggProofs_not_idempotent`). -/

namespace Proposer

/-! ## The span walk (spec §4.5) -/

/-- The completed span records that start at or after `fromBlock`, ordered by start block. -/
def completedSpansFrom (L : Ledger) (fromBlock : UInt64) : List ProofRequest :=
  (L.recs.filter fun r => r.type = .span ∧ r.status = .complete ∧ fromBlock ≤ r.startBlock).insertionSort
    fun a b => a.startBlock ≤ b.startBlock

/-- Spec §4.5 step 2: walk the sorted records while each starts at `expected`, the block after
    the previous one's end; the last `end_block` reached. -/
def contiguousEnd : UInt64 → Option UInt64 → List ProofRequest → Option UInt64
  | _, last, [] => last
  | expected, last, r :: rs =>
    if r.startBlock = expected then contiguousEnd (r.endBlock + 1) (some r.endBlock) rs else last

/-- Modelled from the spec: `db.TryCreateAggProofFromSpanProofs` (`try_create_agg_from_spans`,
    §4.5) is not in the sources. When the walk from `fromBlock` reaches `minTo`, it inserts
    `AGG [fromBlock, end]` (added at the ledger's clock `now`) and returns `(true, end)`;
    otherwise `(false, 0)`. -/
def tryCreateAggProofFromSpanProofs (now fromBlock minTo : UInt64) : DbM (Bool × UInt64) :=
  DbM.call fun L =>
    match contiguousEnd fromBlock none (completedSpansFrom L fromBlock) with
    | some endBlock =>
      if minTo ≤ endBlock then (.ok (true, endBlock), L.insert .agg fromBlock endBlock now)
      else (.ok (false, 0), L)
    | none => (.ok (false, 0), L)

/-- A completed span `[a, b]` carrying the one-byte proof `p`. -/
def completedSpan (id : Nat) (a b : UInt64) (p : UInt8) : ProofRequest :=
  { Ledger.freshRecord id .span a b 0 with status := .complete, proverRequestId := "id", proof := [p] }

/-- Spec scenario D: with completed spans `[501, 560]`, `[561, 600]`, `[601, 640]`, the walk
    from `501` reaches `640`, past the target `600`. -/
example : (tryCreateAggProofFromSpanProofs 0 501 600
    ⟨⟨[completedSpan 0 501 560 1, completedSpan 1 561 600 2, completedSpan 2 601 640 3], 3⟩,
      [], []⟩).1 = .ok (true, 640) := rfl

/-! ## Subproofs of an aggregate (spec §4.1) -/

/-- The proofs of a chain of `recs` that tiles `[expected, endBlock]`, trying at each block every
    record that starts there; `fuel` bounds the length of the chain. -/
def tileProofs (recs : List ProofRequest) : Nat → UInt64 → UInt64 → Option (List Bytes)
  | 0, _, _ => none
  | fuel + 1, expected, endBlock =>
    (recs.filter (·.startBlock = expected)).firstM fun r =>
      if r.endBlock = endBlock then some [r.proof]
      else if r.endBlock < endBlock then
        (tileProofs recs fuel (r.endBlock + 1) endBlock).map (r.proof :: ·)
      else none

/-- Modelled from the spec: `db.GetConsecutiveSpanProofs` (`get_consecutive_span_proofs`) is not
    in the sources. It returns, in order, the proofs of completed span records that tile
    `[start, end]` without gap or overlap, and fails when there is no such tiling. -/
def getConsecutiveSpanProofs (start endBlock : UInt64) : DbM (List Bytes) :=
  DbM.call fun L =>
    let spans := L.recs.filter fun r => r.type = .span ∧ r.status = .complete
    match tileProofs spans spans.length start endBlock with
    | some proofs => (.ok proofs, L)
    | none => (.error "no consecutive span proofs cover the range", L)

/-- The query only reads. -/
theorem getConsecutiveSpanProofs_snd (s e : UInt64) (st : Store) :
    (getConsecutiveSpanProofs s e st).2 = { st with faults := st.faults.tail } := by
  rcases st with ⟨L, _ | ⟨_ | _, rest⟩, sent⟩ <;> simp only [getConsecutiveSpanProofs, DbM.call] <;>
    (try split) <;> rfl

/-! ## Pass C -/

/-- `DeriveAggProofs`: `latest` and `next` are the answers of the oracle's `LatestBlockNumber`
    and `NextBlockNumber` calls, read with `Uint64()`; `now` is the ledger's clock. -/
def deriveAggProofs (now : UInt64) (latest next : Except String Nat) : DbM Unit := do
  let latest ← DbM.wrapErr "failed to get latest L2OO output: " (DbM.lift latest)
  let fromBlock := UInt64.ofNat latest + 1
  let minTo ← DbM.wrapErr "failed to get next L2OO output: " (DbM.lift next)
  let _ ← DbM.wrapErr "failed to create agg proof from span proofs: "
    (tryCreateAggProofFromSpanProofs now fromBlock (UInt64.ofNat minTo))
  pure ()

/-! ## Running pass C twice -/

/-- Pass C is not idempotent: over the completed spans `[501, 560]` and `[561, 600]`, with the
    oracle at `latest = 500` and `next = 600`, a second run queues a second `AGG [501, 600]`. -/
theorem deriveAggProofs_not_idempotent :
    let st : Store := ⟨⟨[completedSpan 0 501 560 1, completedSpan 1 561 600 2], 2⟩, [], []⟩
    let run := deriveAggProofs 0 (.ok 500) (.ok 600)
    (run (run st).2).2.ledger ≠ (run st).2.ledger ∧
    ((run (run st).2).2.ledger.recs.filter fun r => r.type = .agg).map
      (fun r => (r.id, r.startBlock, r.endBlock)) = [(2, 501, 600), (3, 501, 600)] := by
  decide

end Proposer
