import Proposer.Passes
import Mathlib.Data.UInt

set_option autoImplicit false

/-! # The subproofs of the aggregates pass C queues

Pass C queues `AGG [from, end]` when the walk of `TryCreateAggProofFromSpanProofs` over the
completed spans, sorted by start block, reaches the oracle's target (spec §4.5). Pass B later
requests the record, and `RequestAggProof` first asks the ledger for the proofs of completed spans
that tile `[start + 1, end]`, `start` being the record's start block less one
(`GetConsecutiveSpanProofs`, spec §4.1). Both ledger operations are modelled from the spec, and
their searches differ: the walk follows the sorted list and stops at the first record that does not
start where the previous one ended, while the query tries, at each block, every record that starts
there.

The result, `requestProof_agg_of_walk`: whenever the walk from an `AGG` record's start block
reaches its end block, requesting the record gathers a non-empty list of subproofs and sends it to
the prover, provided the completed spans are well-formed ranges, each ending at or after its start
and before the last block of `UInt64`. The proof takes from the walk a chain of records that tiles
the range (`tiles_of_contiguousEnd`) and shows that the query finds a tiling whenever there is one,
given fuel for its length (`tileProofs_isSome`). -/

namespace Proposer

/-- Every completed span of the ledger ends at or after its start, and before the last block of
    `UInt64`, so that the block after its end is one more. -/
def Ledger.SpansWellFormed (L : Ledger) : Prop :=
  ∀ r ∈ L.recs, r.type = .span → r.status = .complete →
    r.startBlock ≤ r.endBlock ∧ r.endBlock.toNat + 1 < 2 ^ 64

instance (L : Ledger) : Decidable L.SpansWellFormed :=
  inferInstanceAs (Decidable (∀ r ∈ L.recs, _))

/-- `c` tiles `[a, e]`: its first record starts at `a`, each next one starts at the block after the
    previous one's end, and the records end before `e` but the last, which ends at `e`. -/
def Tiles (a e : UInt64) : List ProofRequest → Prop
  | [] => False
  | r :: rs => r.startBlock = a ∧
      (rs = [] ∧ r.endBlock = e ∨ r.endBlock < e ∧ Tiles (r.endBlock + 1) e rs)

/-! ## The query -/

/-- `firstM` over `Option` finds a result when some element has one. -/
theorem firstM_isSome {α β : Type} {f : α → Option β} {a : α} :
    ∀ {l : List α}, a ∈ l → (f a).isSome → (l.firstM f).isSome
  | [], ha, _ => absurd ha (List.not_mem_nil a)
  | b :: l, ha, h => by
    simp only [List.firstM]
    cases hf : f b with
    | some _ => rfl
    | none =>
      have hab : a ≠ b := by rintro rfl; simp [hf] at h
      exact firstM_isSome (List.mem_of_ne_of_mem hab ha) h

/-- What `firstM` over `Option` returns is the result of some element. -/
theorem firstM_eq_some {α β : Type} {f : α → Option β} {b : β} :
    ∀ {l : List α}, l.firstM f = some b → ∃ a ∈ l, f a = some b
  | [], h => by cases h
  | a :: l, h => by
    simp only [List.firstM] at h
    cases hf : f a with
    | some _ => exact ⟨a, List.mem_cons_self _ _, by rw [hf] at h ⊢; exact h⟩
    | none =>
      rw [hf] at h
      obtain ⟨a', ha', hb⟩ := firstM_eq_some h
      exact ⟨a', List.mem_cons_of_mem _ ha', hb⟩

/-- **The query finds a tiling when there is one**, given fuel for its length. -/
theorem tileProofs_isSome {recs : List ProofRequest} {e : UInt64} :
    ∀ {c : List ProofRequest} {a : UInt64} {fuel : Nat}, Tiles a e c → (∀ r ∈ c, r ∈ recs) →
      c.length ≤ fuel → (tileProofs recs fuel a e).isSome
  | [], _, _, h, _, _ => h.elim
  | _ :: _, _, 0, _, _, hlen => absurd hlen (by simp)
  | r :: rs, a, fuel + 1, ⟨ha, hrest⟩, hmem, hlen => by
    rw [tileProofs]
    refine firstM_isSome (List.mem_filter.2 ⟨hmem r (List.mem_cons_self _ _), by simp [ha]⟩) ?_
    rcases hrest with ⟨-, he⟩ | ⟨hlt, htiles⟩
    · simp [he]
    · have ih := tileProofs_isSome htiles (fun r' h => hmem r' (List.mem_cons_of_mem _ h))
        (show rs.length ≤ fuel by simp only [List.length_cons] at hlen; omega)
      have hne : r.endBlock ≠ e := fun h => by
        subst h
        exact absurd ((UInt64.lt_iff_toNat_lt _ _).1 hlt) (Nat.lt_irrefl _)
      simp [hne, hlt, ih]

/-- Every list of proofs the query returns has one. -/
theorem tileProofs_ne_nil {recs : List ProofRequest} {e : UInt64} :
    ∀ {fuel : Nat} {a : UInt64} {proofs : List Bytes}, tileProofs recs fuel a e = some proofs →
      proofs ≠ []
  | 0, _, _, h => by cases h
  | fuel + 1, a, proofs, h => by
    rw [tileProofs] at h
    obtain ⟨r, -, hr⟩ := firstM_eq_some h
    split_ifs at hr
    · cases hr
      exact List.cons_ne_nil _ _
    · obtain ⟨ps, -, rfl⟩ := Option.map_eq_some'.1 hr
      exact List.cons_ne_nil _ _

/-! ## The walk -/

/-- Along records that end at or after their start, a tiling of `[a, e]` has `a ≤ e`. -/
theorem Tiles.le {e : UInt64} :
    ∀ {c : List ProofRequest} {a : UInt64}, (∀ r ∈ c, r.startBlock ≤ r.endBlock) → Tiles a e c →
      a ≤ e
  | [], _, _, h => h.elim
  | r :: _, _, hwf, ⟨rfl, hrest⟩ => by
    have hr := hwf r (List.mem_cons_self _ _)
    rcases hrest with ⟨-, rfl⟩ | ⟨hlt, -⟩
    · exact hr
    · exact (UInt64.le_iff_toNat_le _ _).2 (by
        have := (UInt64.le_iff_toNat_le _ _).1 hr
        have := (UInt64.lt_iff_toNat_lt _ _).1 hlt
        omega)

/-- **The walk ends on a tiling.** When the walk of `rs` from `expected` ends at `e`, either it
    never moved and `e` is `last`, or records of `rs`, in their order, tile `[expected, e]`. -/
theorem tiles_of_contiguousEnd {e : UInt64} :
    ∀ {rs : List ProofRequest} {expected : UInt64} {last : Option UInt64},
      (∀ r ∈ rs, r.startBlock ≤ r.endBlock ∧ r.endBlock.toNat + 1 < 2 ^ 64) →
      contiguousEnd expected last rs = some e →
      last = some e ∨ ∃ c, c.Sublist rs ∧ Tiles expected e c
  | [], _, _, _, h => .inl h
  | r :: rs, expected, last, hwf, h => by
    rw [contiguousEnd] at h
    split_ifs at h with hs
    · have hwf' : ∀ r' ∈ rs, _ := fun r' h' => hwf r' (List.mem_cons_of_mem _ h')
      rcases tiles_of_contiguousEnd hwf' h with he | ⟨c, hc, ht⟩
      · exact .inr ⟨[r], (List.nil_sublist rs).cons₂ r, hs, .inl ⟨rfl, Option.some.inj he⟩⟩
      · refine .inr ⟨r :: c, hc.cons₂ r, hs, .inr ⟨?_, ht⟩⟩
        have hle := (UInt64.le_iff_toNat_le _ _).1
          (ht.le fun r' h' => (hwf' r' (hc.subset h')).1)
        have hno := (hwf r (List.mem_cons_self _ _)).2
        rw [UInt64.toNat_add_of_lt (by simpa using hno), UInt64.toNat_one] at hle
        exact (UInt64.lt_iff_toNat_lt _ _).2 (by omega)
    · exact .inl h

theorem mem_of_mem_completedSpansFrom {L : Ledger} {a : UInt64} {r : ProofRequest}
    (h : r ∈ completedSpansFrom L a) : r ∈ L.recs ∧ r.type = .span ∧ r.status = .complete := by
  have h' := (List.perm_insertionSort _ _).subset h
  simp only [List.mem_filter, decide_eq_true_eq] at h'
  exact ⟨h'.1, h'.2.1, h'.2.2.1⟩

/-- The walk sees at most the completed spans the query searches. -/
theorem length_completedSpansFrom_le (L : Ledger) (a : UInt64) :
    (completedSpansFrom L a).length ≤
      (L.recs.filter fun r => r.type = .span ∧ r.status = .complete).length := by
  rw [completedSpansFrom, (List.perm_insertionSort _ _).length_eq]
  exact (List.monotone_filter_right _ fun r h => by
    simp only [decide_eq_true_eq] at h ⊢
    exact ⟨h.1, h.2.1⟩).length_le

/-! ## Pass B on what pass C queues -/

/-- **Pass B gathers the subproofs of what pass C queues.** When the walk of
    `TryCreateAggProofFromSpanProofs` from an `AGG` record's start block reaches the record's end
    block, on a ledger whose completed spans are well formed, requesting the record with its one
    ledger call let through sends the prover `request_agg_proof` with a non-empty list of
    subproofs and the record's checkpoint, unless the request cannot be built. -/
theorem requestProof_agg_of_walk (p : ProofRequest) (outcome : HttpOutcome) (st : Store)
    (hp : p.type = .agg) (hf : true ∉ st.faults) (hwf : st.ledger.SpansWellFormed)
    (hwalk : contiguousEnd p.startBlock none (completedSpansFrom st.ledger p.startBlock) =
      some p.endBlock)
    (hout : ∀ err, outcome ≠ .badRequest err) :
    ∃ subproofs, subproofs ≠ [] ∧ (requestProof p outcome st).2.sent =
      st.sent ++ [⟨"request_agg_proof", .agg ⟨subproofs, p.l1BlockHash⟩⟩] := by
  let spans := st.ledger.recs.filter fun r => r.type = .span ∧ r.status = .complete
  obtain ⟨c, hc, htiles⟩ := (tiles_of_contiguousEnd (fun r h => by
      obtain ⟨hr, hspan, hcompl⟩ := mem_of_mem_completedSpansFrom h
      exact hwf r hr hspan hcompl) hwalk).resolve_left (by simp)
  have hmem : ∀ r ∈ c, r ∈ spans := fun r h => by
    obtain ⟨hr, hspan, hcompl⟩ := mem_of_mem_completedSpansFrom (hc.subset h)
    exact List.mem_filter.2 ⟨hr, by simp [hspan, hcompl]⟩
  obtain ⟨proofs, hproofs⟩ := Option.isSome_iff_exists.1
    (tileProofs_isSome htiles hmem (hc.length_le.trans (length_completedSpansFrom_le _ _)))
  have hget : getConsecutiveSpanProofs p.startBlock p.endBlock st =
      (.ok proofs, { st with faults := st.faults.tail }) := by
    rw [getConsecutiveSpanProofs, DbM.call_of_ok hf]
    simp only [hproofs, spans]
  have hsub : DbM.wrapErr "failed to get subproofs: "
      (getConsecutiveSpanProofs p.startBlock p.endBlock) st =
      (.ok proofs, { st with faults := st.faults.tail }) := by
    simp only [DbM.wrapErr, DbM.tryCatch_apply, hget]
  have hstart : p.startBlock - 1 + 1 = p.startBlock := sub_add_cancel _ _
  refine ⟨proofs, tileProofs_ne_nil hproofs, ?_⟩
  simp only [requestProof, hp, requestAggProof, hstart, DbM.wrapErr_snd, DbM.bind_apply, hsub]
  cases outcome <;> first | exact absurd rfl (hout _) | rfl

/-- Spec scenario D: over the completed spans `[501, 560]`, `[561, 600]` and `[601, 640]`, the
    record `AGG [501, 640]` that pass C queues is requested with subproofs. -/
theorem requestProof_agg_of_walk_scenarioD :
    let p : ProofRequest := { Ledger.freshRecord 3 .agg 501 640 0 with l1BlockHash := "0x01" }
    let st : Store := ⟨⟨[completedSpan 0 501 560 1, completedSpan 1 561 600 2,
      completedSpan 2 601 640 3, p], 4⟩, [], []⟩
    let outcome : HttpOutcome := .timeout "context deadline exceeded"
    (p.type = .agg ∧ true ∉ st.faults ∧ st.ledger.SpansWellFormed ∧
      contiguousEnd p.startBlock none (completedSpansFrom st.ledger p.startBlock) =
        some p.endBlock ∧ ∀ err, outcome ≠ .badRequest err) ∧
    ∃ subproofs, subproofs ≠ [] ∧ (requestProof p outcome st).2.sent =
      st.sent ++ [⟨"request_agg_proof", .agg ⟨subproofs, p.l1BlockHash⟩⟩] :=
  ⟨⟨rfl, by simp, by decide, by decide, fun _ h => by cases h⟩,
    requestProof_agg_of_walk _ _ _ rfl (by simp) (by decide) (by decide) fun _ h => by cases h⟩

end Proposer
