import Proposer.Checkpoint

set_option autoImplicit false

/-! # No block is dropped while the ledger answers

The derivation queues a `SPAN` record for a range, and a failed record is replaced by successors
that cover its blocks. In every run where no ledger call fails, whatever the prover and the clock
do and however the goroutines interleave, a block covered by a `SPAN` record that has not failed,
or by a goroutine about to retry one, stays covered (`covered_run`). Every write keeps each row's
id, type and blocks (`grows_step`, `Sys.TaskBlocks`); only pass A and a goroutine write `FAILED`,
each followed by a retry (`coverGrows_tick`, `covered_taskStep`); and a retry let through covers
its record (`retryRequest_covered`). The same facts give what is sent to the prover: every request
asks for the type and blocks of its record (`sent_for_record`).

Where a ledger call fails, pass A can mark a pending record `FAILED` and then fail to insert its
successors. It keeps its prover id, so neither pass looks at it again: once every `SPAN` row is in
that state no run without a derivation covers a block again (`uncovered_run_of_spanDead`), and
one failed insert leads there from the empty ledger (`range_lost_on_one_fault`). -/

namespace Proposer

/-! ## Blocks of a record -/

/-- The record `r` is for the L2 block `x`. -/
def ProofRequest.Covers (r : ProofRequest) (x : Nat) : Prop :=
  r.startBlock.toNat ≤ x ∧ x ≤ r.endBlock.toNat

/-- `r` and `m` ask for the same proof: same type, same block range. -/
def ProofRequest.SameBlocks (r m : ProofRequest) : Prop :=
  r.type = m.type ∧ r.startBlock = m.startBlock ∧ r.endBlock = m.endBlock

theorem ProofRequest.SameBlocks.refl (r : ProofRequest) : r.SameBlocks r := ⟨rfl, rfl, rfl⟩

theorem ProofRequest.SameBlocks.trans {r m n : ProofRequest} (h₁ : r.SameBlocks m)
    (h₂ : m.SameBlocks n) : r.SameBlocks n :=
  ⟨h₁.1.trans h₂.1, h₁.2.1.trans h₂.2.1, h₁.2.2.trans h₂.2.2⟩

theorem ProofRequest.SameBlocks.covers {r m : ProofRequest} (h : r.SameBlocks m) {x : Nat} :
    r.Covers x ↔ m.Covers x := by
  rw [ProofRequest.Covers, ProofRequest.Covers, h.2.1, h.2.2]

/-- A rewrite of rows that keeps each row's id, type and block range. -/
def BlockEdit (g : ProofRequest → ProofRequest) : Prop :=
  ∀ r, (g r).id = r.id ∧ r.SameBlocks (g r)

/-- Rewriting the rows of one id. -/
theorem BlockEdit.ite {f : ProofRequest → ProofRequest} (hf : BlockEdit f) (i : Nat) :
    BlockEdit fun r => if r.id = i then f r else r := fun r => by
  dsimp only
  split
  exacts [hf r, ⟨rfl, ProofRequest.SameBlocks.refl r⟩]

theorem blockEdit_withStatus (status : ProofRequestStatus) (now : UInt64) :
    BlockEdit (withStatus status now) := fun r => ⟨rfl, ProofRequest.SameBlocks.refl r⟩

theorem blockEdit_setProverRequestId (proverRequestId : String) :
    BlockEdit fun r => { r with proverRequestId } := fun r => ⟨rfl, ProofRequest.SameBlocks.refl r⟩

theorem blockEdit_addProof (proof : Bytes) :
    BlockEdit fun r => { r with proof, status := .complete } :=
  fun r => ⟨rfl, ProofRequest.SameBlocks.refl r⟩

/-- `AddProof` writes nothing, or completes the rows of its id. -/
theorem addProof_ledger (i : Nat) (proof : Bytes) (st : Store) :
    (addProof i proof st).2.ledger = st.ledger ∨
      (addProof i proof st).2.ledger =
        st.ledger.modify i fun r => { r with proof, status := .complete } := by
  rcases DbM.call_ledger _ st with hl | hl <;> rw [addProof, hl]
  · exact .inl rfl
  · split
    · split
      exacts [.inr rfl, .inl rfl]
    · exact .inl rfl

theorem blockEdit_checkpoint (s e bn : UInt64) (hash : String) :
    BlockEdit fun r => if Ledger.checkpointTarget s e r then
      { r with l1BlockNumber := bn, l1BlockHash := hash } else r :=
  fun r => by dsimp only; split <;> exact ⟨rfl, ProofRequest.SameBlocks.refl r⟩

/-! ## Ledgers that grow -/

namespace Ledger

/-- Some `SPAN` record of `L` that has not failed is for block `x`. -/
def Covered (L : Ledger) (x : Nat) : Prop :=
  ∃ r ∈ L.recs, r.type = .span ∧ r.status ≠ .failed ∧ r.Covers x

theorem Anchored.keyed {L : Ledger} (h : L.Anchored) : L.Keyed := ⟨h.sorted, h.bounded⟩

/-- Every id issued has a row. -/
def Dense (L : Ledger) : Prop := ∀ i < L.nextId, ∃ r ∈ L.recs, r.id = i

/-- `M` is `L` after inserts and rewrites that keep each row's id, type and blocks: the rows of
    `L` are still there, a row of an old id comes from a row of `L`, and the ids stay keys and
    keep their rows. -/
structure Grows (L M : Ledger) : Prop where
  nextId_le : L.nextId ≤ M.nextId
  persists : ∀ r ∈ L.recs, ∃ m ∈ M.recs, m.id = r.id ∧ r.SameBlocks m
  origin : ∀ m ∈ M.recs, m.id < L.nextId → ∃ r ∈ L.recs, r.id = m.id ∧ r.SameBlocks m
  keyed : L.Keyed → M.Keyed
  dense : L.Dense → M.Dense

theorem Grows.refl (L : Ledger) : L.Grows L :=
  ⟨le_rfl, fun r hr => ⟨r, hr, rfl, .refl r⟩, fun m hm _ => ⟨m, hm, rfl, .refl m⟩, id, id⟩

theorem Grows.trans {L M N : Ledger} (h₁ : L.Grows M) (h₂ : M.Grows N) : L.Grows N where
  nextId_le := h₁.nextId_le.trans h₂.nextId_le
  persists r hr := by
    obtain ⟨m, hm, hmi, hrm⟩ := h₁.persists r hr
    obtain ⟨n, hn, hni, hmn⟩ := h₂.persists m hm
    exact ⟨n, hn, hni.trans hmi, hrm.trans hmn⟩
  origin n hn hlt := by
    obtain ⟨m, hm, hmi, hmn⟩ := h₂.origin n hn (lt_of_lt_of_le hlt h₁.nextId_le)
    obtain ⟨r, hr, hri, hrm⟩ := h₁.origin m hm (hmi ▸ hlt)
    exact ⟨r, hr, hri.trans hmi, hrm.trans hmn⟩
  keyed := h₂.keyed ∘ h₁.keyed
  dense := h₂.dense ∘ h₁.dense

theorem Grows.insert (L : Ledger) (type : ProofType) (s e t : UInt64) :
    L.Grows (L.insert type s e t) where
  nextId_le := Nat.le_succ _
  persists r hr := ⟨r, List.mem_append_left _ hr, rfl, .refl r⟩
  origin m hm hlt := by
    rcases List.mem_append.1 hm with hm | hm
    · exact ⟨m, hm, rfl, .refl m⟩
    · rw [List.mem_singleton.1 hm] at hlt
      exact absurd hlt (lt_irrefl _)
  keyed h := ⟨List.pairwise_append.2 ⟨h.sorted, List.pairwise_singleton _ _,
      fun a ha b hb => by rw [List.mem_singleton.1 hb]; exact h.bounded a ha⟩,
    fun r hr => by
      rcases List.mem_append.1 hr with hr | hr
      · exact Nat.lt_succ_of_lt (h.bounded r hr)
      · rw [List.mem_singleton.1 hr]; exact Nat.lt_succ_self _⟩
  dense h i hi := by
    rcases Nat.lt_succ_iff_lt_or_eq.1 hi with hi | rfl
    · obtain ⟨r, hr, hid⟩ := h i hi
      exact ⟨r, List.mem_append_left _ hr, hid⟩
    · exact ⟨_, List.mem_append_right _ (List.mem_singleton_self _), rfl⟩

theorem Grows.map (L : Ledger) {g : ProofRequest → ProofRequest} (hg : BlockEdit g) :
    L.Grows { L with recs := L.recs.map g } where
  nextId_le := le_rfl
  persists r hr := ⟨g r, List.mem_map_of_mem g hr, (hg r).1, (hg r).2⟩
  origin m hm _ := by
    obtain ⟨r, hr, rfl⟩ := List.mem_map.1 hm
    exact ⟨r, hr, (hg r).1.symm, (hg r).2⟩
  keyed h := ⟨List.pairwise_map.2 (h.sorted.imp fun hab => by rwa [(hg _).1, (hg _).1]),
    List.forall_mem_map.2 fun r hr => (hg r).1 ▸ h.bounded r hr⟩
  dense h i hi :=
    let ⟨r, hr, hid⟩ := h i hi
    ⟨g r, List.mem_map_of_mem g hr, (hg r).1.trans hid⟩

end Ledger

/-! ## Pass A from its ledger calls -/

/-- **Pass A, from its ledger calls.** The pass keeps a relation between ledgers, from a class of
    stores, when the reads keep the class, a retry of a row read `FAILED` without a prover id
    keeps both, and so do, from any store the loop reaches, a pending row's `AddProof` and its
    `FAILED` write with the retry that follows it. -/
theorem keepsOn_processPendingProofs_of {P : Store → Prop} {R : Ledger → Ledger → Prop}
    (hR : Reflexive R) (hT : Transitive R) (cfg : Config) (now : UInt64)
    (poll : String → HttpOutcome) (hread : ∀ st, P st → P { st with faults := st.faults.tail })
    (hfailed : ∀ st₀, P st₀ → ∀ req ∈ st₀.ledger.recs,
      req.status = .failed ∧ req.proverRequestId = "" → DbM.KeepsOn P R (retryRequest req))
    (hpending : ∀ st₀, P st₀ → ∀ req ∈ st₀.ledger.recs,
      req.status = .req ∧ req.proverRequestId ≠ "" → ∀ st, P st → R st₀.ledger st.ledger →
      (∀ proof, R st.ledger (addProof req.id proof st).2.ledger ∧ P (addProof req.id proof st).2) ∧
      R st.ledger ((updateProofStatus req.id .failed now >>= fun _ =>
        DbM.wrapErr "failed to retry request: " (retryRequest req)) st).2.ledger ∧
      P ((updateProofStatus req.id .failed now >>= fun _ =>
        DbM.wrapErr "failed to retry request: " (retryRequest req)) st).2) :
    DbM.KeepsOn P R (processPendingProofs cfg now poll) := by
  unfold processPendingProofs getProofsFailedOnServer getAllPendingProofs
  refine DbM.keepsOn_wrapErr_read_bind hR _ hread fun st₀ h₀ st h _ =>
    DbM.keepsOn_bind_at hT ?_ fun _ => ?_
  · refine DbM.keepsOn_forM hR hT (fun req hreq => DbM.keepsOn_wrapErr hR hT _ ?_) st h
    obtain ⟨hr, hf⟩ := List.mem_filter.1 hreq
    exact hfailed st₀ h₀ req hr (of_decide_eq_true hf)
  refine DbM.keepsOn_read_forM hR hT hread fun st₀ h₀ req hreq st h hmove => ?_
  obtain ⟨hr, hf⟩ := List.mem_filter.1 hreq
  obtain ⟨hdone, hfail⟩ := hpending st₀ h₀ req hr (of_decide_eq_true hf) st h hmove
  simp only [pollPendingProof, DbM.bind_apply, DbM.lift_apply]
  rcases getProofStatus (poll req.proverRequestId) with _ | ⟨status, proof⟩
  · exact ⟨hR _, h⟩
  dsimp only
  split_ifs
  exacts [hdone proof, hfail, ⟨hR _, h⟩]

/-! ## Every write keeps the blocks of a row

The writes of the system are inserts and rewrites of rows by `BlockEdit`s, so every relation
between ledgers that these keep is kept by each pass and each goroutine statement. -/

section Writes

variable {R : Ledger → Ledger → Prop} (hR : Reflexive R) (hT : Transitive R)
  (hins : ∀ L type s e t, R L (L.insert type s e t))
  (hmap : ∀ L g, BlockEdit g → R L { L with recs := L.recs.map g })

include hR hmap

theorem keeps_updateProofStatus_of (i : Nat) (status : ProofRequestStatus) (now : UInt64) :
    DbM.Keeps R (updateProofStatus i status now) :=
  DbM.keeps_call hR fun L => hmap L _ ((blockEdit_withStatus status now).ite i)

theorem keeps_addProof_of (i : Nat) (proof : Bytes) : DbM.Keeps R (addProof i proof) := fun st => by
  rcases addProof_ledger i proof st with hl | hl <;> rw [hl]
  exacts [hR _, hmap _ _ ((blockEdit_addProof proof).ite i)]

include hT hins

theorem keeps_taskStep_of (t : Task) (now : UInt64) (o : HttpOutcome) :
    DbM.Keeps R (t.step now o) := fun st => by
  obtain ⟨p, pc⟩ := t
  cases pc with
  | markReq =>
    obtain ⟨-, ⟨-, hl⟩ | ⟨-, hl⟩⟩ := Task.step_markReq p now o st <;> rw [hl]
    exacts [hR _, hmap _ _ ((blockEdit_withStatus _ _).ite _)]
  | request => rw [(Task.step_request p now o st).2.1]; exact hR _
  | setId proofId =>
    obtain ⟨-, -, hl | hl⟩ := Task.step_setId p proofId now o st <;> rw [hl]
    exacts [hR _, hmap _ _ ((blockEdit_setProverRequestId _).ite _)]
  | markFailed =>
    obtain ⟨-, -, hl | hl⟩ := Task.step_markFailed p now o st <;> rw [hl]
    exacts [hR _, hmap _ _ ((blockEdit_withStatus _ _).ite _)]
  | retry => rw [Task.step_retry]; exact keeps_retryRequest_of_insert hR hT hins p st

theorem keeps_processPendingProofs_of (cfg : Config) (now : UInt64)
    (poll : String → HttpOutcome) : DbM.Keeps R (processPendingProofs cfg now poll) := fun st =>
  have hretry (req : ProofRequest) : DbM.Keeps R (retryRequest req) :=
    keeps_retryRequest_of_insert hR hT hins req
  (keepsOn_processPendingProofs_of (P := fun _ => True) hR hT cfg now poll (fun _ => id)
    (fun _ _ req _ _ st _ => ⟨hretry req st, trivial⟩)
    (fun _ _ req _ _ st _ _ => ⟨fun _ => ⟨keeps_addProof_of hR hmap _ _ st, trivial⟩,
      DbM.keeps_bind_at hT (keeps_updateProofStatus_of hR hmap _ _ _ st)
        (fun _ => DbM.keeps_wrapErr hR hT _ (hretry req)), trivial⟩) st trivial).1

end Writes

/-- Pass B writes nothing but its checkpoint. -/
theorem keeps_requestQueuedProofs_of {R : Ledger → Ledger → Prop} (hR : Reflexive R)
    (hchk : ∀ L s e bn hash, R L (L.checkpoint s e bn hash)) (cfg : Config)
    (cp : Except String (UInt64 × Hash)) : DbM.Keeps R (requestQueuedProofs cfg cp) := fun st => by
  rcases (requestQueuedProofs_spec cfg cp st).1 with hl | ⟨n, bn, h, -, -, -, hl⟩ <;> rw [hl]
  exacts [hR _, hchk _ _ _ _ _]

/-- Pass C only inserts `AGG` records. -/
theorem keeps_deriveAggProofs_of {R : Ledger → Ledger → Prop} (hR : Reflexive R)
    (hT : Transitive R) (hins : ∀ L s e t, R L (L.insert .agg s e t)) (now : UInt64)
    (latest next : Except String Nat) : DbM.Keeps R (deriveAggProofs now latest next) := by
  have hcreate (fromBlock minTo : UInt64) :
      DbM.Keeps R (tryCreateAggProofFromSpanProofs now fromBlock minTo) :=
    DbM.keeps_call hR fun L => by
      split
      · split
        exacts [hins _ _ _ _, hR L]
      · exact hR L
  exact DbM.keeps_bind hT (DbM.keeps_wrapErr hR hT _ (DbM.keeps_lift hR _)) fun _ =>
    DbM.keeps_bind hT (DbM.keeps_wrapErr hR hT _ (DbM.keeps_lift hR _)) fun _ =>
      DbM.keeps_bind hT (DbM.keeps_wrapErr hR hT _ (hcreate _ _)) fun _ => DbM.keeps_pure hR _

/-! ## A tick -/

/-- **What a tick does.** It leaves the ledger pass A, pass B or pass C left, each run from where
    the one before stopped, and it adds no goroutine or one, for the record pass B returned. -/
theorem tick_cases (cfg : Config) (env : TickEnv) (s : Sys) :
    let stA := (processPendingProofs cfg env.now env.poll ⟨s.ledger, env.faults, []⟩).2
    let stB := (requestQueuedProofs cfg env.checkpoint stA).2
    ((tick cfg env s).ledger = stA.ledger ∨ (tick cfg env s).ledger = stB.ledger ∨
      (tick cfg env s).ledger = (deriveAggProofs env.now env.latest env.next stB).2.ledger) ∧
    ((tick cfg env s).tasks = s.tasks ∨ ∃ p, (requestQueuedProofs cfg env.checkpoint stA).1 =
      .ok (some p) ∧ (tick cfg env s).tasks = s.tasks ++ [⟨p, .markReq⟩]) := by
  intro stA stB
  unfold tick
  split
  next _ st hpa =>
    obtain rfl : st = stA := by simp only [stA, hpa]
    exact ⟨.inl rfl, .inl rfl⟩
  next st hpa =>
    obtain rfl : st = stA := by simp only [stA, hpa]
    split
    next _ st' hpb =>
      obtain rfl : st' = stB := by simp only [stB, hpb]
      exact ⟨.inr (.inl rfl), .inl rfl⟩
    next spawned st' hpb =>
      obtain rfl : st' = stB := by simp only [stB, hpb]
      refine ⟨.inr (.inr rfl), ?_⟩
      cases spawned with
      | none => exact .inl (by simp)
      | some p => exact .inr ⟨p, by rw [hpb], by simp⟩

/-- A relation that each pass keeps, from the store the tick gives it, holds across the tick. -/
theorem tick_ledger_of {R : Ledger → Ledger → Prop} (hT : Transitive R)
    (cfg : Config) (env : TickEnv) (s : Sys)
    (hA : R s.ledger (processPendingProofs cfg env.now env.poll ⟨s.ledger, env.faults, []⟩).2.ledger)
    (hB : DbM.Keeps R (requestQueuedProofs cfg env.checkpoint))
    (hC : DbM.Keeps R (deriveAggProofs env.now env.latest env.next)) :
    R s.ledger (tick cfg env s).ledger := by
  rcases (tick_cases cfg env s).1 with h | h | h <;> rw [h]
  · exact hA
  · exact hT hA (hB _)
  · exact hT (hT hA (hB _)) (hC _)

/-! ## Rows keep their blocks, and so do the goroutines' copies -/

section Grows

theorem Ledger.grows_reflexive : Reflexive Ledger.Grows := Ledger.Grows.refl

theorem Ledger.grows_transitive : Transitive Ledger.Grows := fun _ _ _ => Ledger.Grows.trans

theorem grows_processPendingProofs (cfg : Config) (now : UInt64) (poll : String → HttpOutcome) :
    DbM.Keeps Ledger.Grows (processPendingProofs cfg now poll) :=
  keeps_processPendingProofs_of Ledger.grows_reflexive Ledger.grows_transitive Ledger.Grows.insert
    (fun L _ => Ledger.Grows.map L) cfg now poll

theorem grows_requestQueuedProofs (cfg : Config) (cp : Except String (UInt64 × Hash)) :
    DbM.Keeps Ledger.Grows (requestQueuedProofs cfg cp) :=
  keeps_requestQueuedProofs_of Ledger.grows_reflexive
    (fun L _ _ _ _ => Ledger.Grows.map L (blockEdit_checkpoint _ _ _ _)) cfg cp

theorem grows_deriveAggProofs (now : UInt64) (latest next : Except String Nat) :
    DbM.Keeps Ledger.Grows (deriveAggProofs now latest next) :=
  keeps_deriveAggProofs_of Ledger.grows_reflexive Ledger.grows_transitive
    (fun L => Ledger.Grows.insert L .agg) now latest next

/-- **No event loses a row, moves its blocks, or reuses an id.** -/
theorem grows_step (cfg : Config) (s : Sys) (e : Event) : s.ledger.Grows (step cfg s e).ledger := by
  cases e with
  | tick env =>
    exact tick_ledger_of Ledger.grows_transitive cfg env s
      (grows_processPendingProofs _ _ _ ⟨s.ledger, env.faults, []⟩)
      (grows_requestQueuedProofs _ _) (grows_deriveAggProofs _ _ _)
  | task i now o faults =>
    show s.ledger.Grows (taskStep i now o faults s).ledger
    unfold taskStep
    rcases s.tasks[i]? with _ | t
    · exact .refl _
    · exact keeps_taskStep_of Ledger.grows_reflexive Ledger.grows_transitive Ledger.Grows.insert
        (fun L _ => Ledger.Grows.map L) t now o ⟨s.ledger, faults, []⟩
  | derive a b now => exact .insert _ _ _ _ _

/-- Passes B and C only grow the ledger pass A left. -/
theorem grows_tick_of_passA (cfg : Config) (env : TickEnv) (s : Sys) :
    (processPendingProofs cfg env.now env.poll ⟨s.ledger, env.faults, []⟩).2.ledger.Grows
      (tick cfg env s).ledger := by
  rcases (tick_cases cfg env s).1 with hl | hl | hl <;> rw [hl]
  · exact .refl _
  · exact grows_requestQueuedProofs _ _ _
  · exact (grows_requestQueuedProofs _ _ _).trans (grows_deriveAggProofs _ _ _ _)

end Grows

/-- A goroutine after a tick was there before, or is the one the tick started, for an `UNREQ` row
    of the ledger pass A left. -/
theorem tick_tasks (cfg : Config) (env : TickEnv) (s : Sys) :
    let stA := (processPendingProofs cfg env.now env.poll ⟨s.ledger, env.faults, []⟩).2
    ∀ t ∈ (tick cfg env s).tasks, t ∈ s.tasks ∨ t.p ∈ stA.ledger.recs ∧ t.p.status = .unreq := by
  intro stA t ht
  rcases (tick_cases cfg env s).2 with hts | ⟨p, hp, hts⟩ <;> rw [hts] at ht
  · exact .inl ht
  rcases List.mem_append.1 ht with ht | ht
  · exact .inl ht
  rw [List.mem_singleton.1 ht]
  obtain ⟨-, hfind, -⟩ := (requestQueuedProofs_spec cfg env.checkpoint stA).2 p hp
  exact .inr ⟨List.mem_of_find?_eq_some hfind, by simpa using List.find?_some hfind⟩

/-- Every goroutine after a statement carries the record of one before it. -/
theorem taskStep_tasks (i : Nat) (now : UInt64) (o : HttpOutcome) (faults : List Bool) (s : Sys) :
    ∀ t ∈ (taskStep i now o faults s).tasks, ∃ t' ∈ s.tasks, t'.p = t.p := by
  unfold taskStep
  rcases hi : s.tasks[i]? with _ | t₀
  · exact fun t ht => ⟨t, ht, rfl⟩
  intro t ht
  dsimp only at ht
  split at ht
  · rcases List.mem_or_eq_of_mem_set ht with ht | rfl
    exacts [⟨t, ht, rfl⟩, ⟨t₀, List.getElem?_mem hi, rfl⟩]
  · exact ⟨t, List.mem_of_mem_eraseIdx ht, rfl⟩

/-- Every goroutine's copy of its record asks for the proof the record's rows ask for. -/
def Sys.TaskBlocks (s : Sys) : Prop :=
  ∀ t ∈ s.tasks, ∀ r ∈ s.ledger.recs, r.id = t.p.id → t.p.SameBlocks r

/-- What holds of every row of an issued id, and depends only on a row's type and blocks, holds
    of every row of that id across a growing ledger. -/
theorem Ledger.Grows.forall_id {L M : Ledger} (h : L.Grows M) {P : ProofRequest → Prop}
    (hP : ∀ r m, r.SameBlocks m → P r → P m) {i : Nat} (hi : i < L.nextId)
    (hL : ∀ r ∈ L.recs, r.id = i → P r) : ∀ m ∈ M.recs, m.id = i → P m := fun m hm hid => by
  obtain ⟨r, hr, hri, hrm⟩ := h.origin m hm (hid ▸ hi)
  exact hP r m hrm (hL r hr (hri.trans hid))

/-- A goroutine whose id was issued keeps its copy's blocks across a growing ledger. -/
theorem Ledger.Grows.taskBlocks {L M : Ledger} (h : L.Grows M) {t : Task} (ht : t.p.id < L.nextId)
    (hb : ∀ r ∈ L.recs, r.id = t.p.id → t.p.SameBlocks r) :
    ∀ m ∈ M.recs, m.id = t.p.id → t.p.SameBlocks m :=
  h.forall_id (fun _ _ hrm hr => hr.trans hrm) ht hb

theorem taskBlocks_step (cfg : Config) {s : Sys} (hs : Reachable cfg s) (h : s.TaskBlocks)
    (e : Event) : (step cfg s e).TaskBlocks := by
  have hgood := good_of_reachable hs
  have hold : ∀ t ∈ s.tasks, ∀ m ∈ (step cfg s e).ledger.recs, m.id = t.p.id → t.p.SameBlocks m :=
    fun t ht => (grows_step cfg s e).taskBlocks (hgood.tasks t ht).bounded (h t ht)
  cases e with
  | tick env =>
    intro t ht
    rcases tick_tasks cfg env s t ht with ht | ⟨hpm, -⟩
    · exact hold t ht
    -- the new goroutine's record is a row of the ledger pass A left, whose ids are keys
    have hkA := (grows_processPendingProofs cfg env.now env.poll ⟨s.ledger, env.faults, []⟩).keyed
      hgood.ledger.keyed
    exact (grows_tick_of_passA cfg env s).taskBlocks (hkA.bounded _ hpm) fun r hr hid => by
      rw [hkA.eq_of_id_eq hr hpm hid]; exact .refl _
  | task i now o faults =>
    intro t ht
    obtain ⟨t', ht', hp⟩ := taskStep_tasks i now o faults s t ht
    rw [← hp]
    exact hold t' ht'
  | derive a b now => exact fun t ht => hold t ht

theorem taskBlocks_of_reachable {cfg : Config} {s : Sys} (hs : Reachable cfg s) : s.TaskBlocks := by
  induction hs with
  | init => exact List.forall_mem_nil _
  | step e hs ih => exact taskBlocks_step cfg hs ih e

theorem dense_of_reachable {cfg : Config} {s : Sys} (hs : Reachable cfg s) : s.ledger.Dense := by
  induction hs with
  | init => exact fun _ h => absurd h (Nat.not_lt_zero _)
  | step e _ ih => exact (grows_step cfg _ e).dense ih

/-! ## What is sent to the prover -/

/-- `c` is a request for a record with `r`'s type and blocks: `request_span_proof` from the block
    before `r`'s first to its last for a `SPAN` record, `request_agg_proof` for an `AGG` record. -/
def ProverCall.For (c : ProverCall) (r : ProofRequest) : Prop :=
  r.type = .span ∧ c = ⟨"request_span_proof", .span ⟨r.startBlock - 1, r.endBlock⟩⟩ ∨
  r.type = .agg ∧ c.urlPath = "request_agg_proof" ∧ ∃ a, c.body = .agg a

theorem ProverCall.For.of_sameBlocks {c : ProverCall} {r m : ProofRequest} (h : c.For r)
    (hrm : r.SameBlocks m) : c.For m := by
  obtain ⟨hty, hs, he⟩ := hrm
  rwa [ProverCall.For, ← hty, ← hs, ← he]

theorem requestProofFromServer_sent (urlPath : String) (jsonBody : RequestBody)
    (outcome : HttpOutcome) (st : Store) :
    ∃ cs, (requestProofFromServer urlPath jsonBody outcome st).2.sent = st.sent ++ cs ∧
      ∀ c ∈ cs, c = ⟨urlPath, jsonBody⟩ := by
  cases outcome <;> simp [requestProofFromServer, DbM.send]

/-- Requesting a proof sends requests for the copy's type and blocks only. -/
theorem requestProof_sent (p : ProofRequest) (outcome : HttpOutcome) (st : Store) :
    ∃ cs, (requestProof p outcome st).2.sent = st.sent ++ cs ∧ ∀ c ∈ cs, c.For p := by
  unfold requestProof
  cases hp : p.type with
  | span =>
    obtain ⟨cs, hs, hc⟩ := requestProofFromServer_sent "request_span_proof"
      (.span ⟨p.startBlock - 1, p.endBlock⟩) outcome st
    simp only [DbM.wrapErr_snd, requestSpanProof]
    exact ⟨cs, hs, fun c hc' => .inl ⟨hp, hc c hc'⟩⟩
  | agg =>
    simp only [DbM.wrapErr_snd, requestAggProof, DbM.bind_apply]
    have hst := DbM.wrapErr_snd "failed to get subproofs: "
      (getConsecutiveSpanProofs (p.startBlock - 1 + 1) p.endBlock) st
    rw [getConsecutiveSpanProofs_snd] at hst
    rcases h : DbM.wrapErr _ _ st with ⟨_ | subs, st'⟩ <;> rw [h] at hst <;> subst hst
    · exact ⟨[], by simp, by simp⟩
    · obtain ⟨cs, hs, hc⟩ := requestProofFromServer_sent "request_agg_proof"
        (.agg ⟨subs, p.l1BlockHash⟩) outcome { st with faults := st.faults.tail }
      exact ⟨cs, hs, fun c hc' => .inr ⟨hp, by rw [hc c hc'], ⟨subs, p.l1BlockHash⟩, by rw [hc c hc']⟩⟩

/-- A goroutine sends requests for its copy only, and only from its request statement. -/
theorem Task.step_sent (t : Task) (now : UInt64) (o : HttpOutcome) (st : Store) :
    ∃ cs, (t.step now o st).2.sent = st.sent ++ cs ∧ ∀ c ∈ cs, c.For t.p := by
  obtain ⟨p, pc⟩ := t
  have none_sent {x : List ProverCall} (h : x = st.sent) :
      ∃ cs, x = st.sent ++ cs ∧ ∀ c ∈ cs, c.For p :=
    ⟨[], by rw [h, List.append_nil], List.forall_mem_nil _⟩
  cases pc with
  | markReq => exact none_sent (Task.step_markReq p now o st).1
  | request =>
    obtain ⟨cs, hs, hc⟩ := requestProof_sent p o st
    refine ⟨cs, ?_, hc⟩
    simp only [Task.step, DbM.tryCatch_apply, DbM.bind_apply]
    rcases h : requestProof p o st with ⟨_ | _, st'⟩ <;> rw [h] at hs <;> exact hs
  | setId proofId => exact none_sent (Task.step_setId p proofId now o st).1
  | markFailed => exact none_sent (Task.step_markFailed p now o st).1
  | retry => rw [Task.step_retry]; exact none_sent (retryRequest_sent p st)

theorem tick_sent (cfg : Config) (env : TickEnv) (s : Sys) : (tick cfg env s).sent = s.sent := by
  unfold tick
  split
  · rfl
  · split <;> rfl

/-- Every request sent for the record of id `x.1` is one for every row of that id. -/
def Sys.SentFor (s : Sys) : Prop :=
  ∀ x ∈ s.sent, ∀ r ∈ s.ledger.recs, r.id = x.1 → x.2.For r

/-- Every request a goroutine's statement adds to the log is one for the goroutine's copy. -/
theorem taskStep_sent (i : Nat) (now : UInt64) (o : HttpOutcome) (faults : List Bool) (s : Sys) :
    ∀ x ∈ (taskStep i now o faults s).sent, x ∈ s.sent ∨ ∃ t ∈ s.tasks, x.1 = t.p.id ∧ x.2.For t.p := by
  unfold taskStep
  rcases hi : s.tasks[i]? with _ | t
  · exact fun x hx => .inl hx
  intro x hx
  obtain ⟨cs, hcs, hc⟩ := Task.step_sent t now o ⟨s.ledger, faults, []⟩
  dsimp only at hx
  rw [hcs, List.nil_append] at hx
  rcases List.mem_append.1 hx with hx | hx
  · exact .inl hx
  · obtain ⟨c, hc', rfl⟩ := List.mem_map.1 hx
    exact .inr ⟨t, List.getElem?_mem hi, rfl, hc c hc'⟩

theorem sentFor_step (cfg : Config) {s : Sys} (hs : Reachable cfg s) (h : s.SentFor) (e : Event) :
    (step cfg s e).SentFor := by
  have hgood := good_of_reachable hs
  -- a request that is one for every row of an issued id stays so
  have hkeep (x : Nat × ProverCall) (hx : x.1 < s.ledger.nextId)
      (hrows : ∀ r ∈ s.ledger.recs, r.id = x.1 → x.2.For r) :
      ∀ m ∈ (step cfg s e).ledger.recs, m.id = x.1 → x.2.For m :=
    (grows_step cfg s e).forall_id (fun _ _ hrm hr => hr.of_sameBlocks hrm) hx hrows
  have hold : ∀ x ∈ s.sent, ∀ m ∈ (step cfg s e).ledger.recs, m.id = x.1 → x.2.For m :=
    fun x hx => hkeep x (hgood.sent x hx).1 (h x hx)
  cases e with
  | tick env => exact fun x hx => hold x (by rwa [step, tick_sent] at hx)
  | derive a b now => exact hold
  | task i now o faults =>
    intro x hx
    rcases taskStep_sent i now o faults s x hx with hx | ⟨t, ht, hid, hc⟩
    · exact hold x hx
    · -- a request of this statement, for the goroutine's copy, which has the blocks of its rows
      exact hkeep x (hid ▸ (hgood.tasks t ht).bounded) fun r hr hrid =>
        hc.of_sameBlocks (taskBlocks_of_reachable hs t ht r hr (hrid.trans hid))

/-- **Every request sent to the prover is one for its record**, in every reachable state: the
    record's id has a row, and every row of it has the request's type and blocks, so a `SPAN`
    request asks for `request_span_proof` from the block before the row's first to its last. -/
theorem sent_for_record {cfg : Config} {s : Sys} (hs : Reachable cfg s) :
    ∀ x ∈ s.sent, (∃ r ∈ s.ledger.recs, r.id = x.1) ∧
      ∀ r ∈ s.ledger.recs, r.id = x.1 → x.2.For r := by
  have hfor : s.SentFor := by
    induction hs with
    | init => exact List.forall_mem_nil _
    | step e hs ih => exact sentFor_step cfg hs ih e
  exact fun x hx =>
    ⟨dense_of_reachable hs x.1 ((good_of_reachable hs).sent x hx).1, hfor x hx⟩

/-- The span `[100, 199]` is requested under the proof id `p0`, and its goroutine returns. -/
def requestedSpan : List Event :=
  [.derive 100 199 0, quietTick (fun _ => refused) [],
   .task 0 0 refused [], .task 0 0 (answerId "p0") [], .task 0 0 refused []]

/-- Requesting `[100, 199]` sends `request_span_proof` from block `99` to block `199`, for record
    `0`, whose row is the span `[100, 199]`. -/
theorem sent_for_record_requestedSpan :
    let cfg : Config := ⟨1, 3600⟩
    let s := run cfg Sys.init requestedSpan
    Reachable cfg s ∧ s.sent = [(0, ⟨"request_span_proof", .span ⟨99, 199⟩⟩)] ∧
    ∀ x ∈ s.sent, (∃ r ∈ s.ledger.recs, r.id = x.1) ∧ ∀ r ∈ s.ledger.recs, r.id = x.1 → x.2.For r :=
  ⟨reachable_run _ .init _, by decide, sent_for_record (reachable_run _ .init _)⟩

/-! ## Covered blocks -/

instance (r : ProofRequest) : DecidablePred r.Covers := fun _ => inferInstanceAs (Decidable (_ ∧ _))

instance (L : Ledger) : DecidablePred L.Covered :=
  fun _ => inferInstanceAs (Decidable (∃ r ∈ L.recs, _))

/-- Block `x` is covered: a `SPAN` row that has not failed is for it, or a goroutine is about to
    retry a `SPAN` record for it. -/
def Sys.Covered (s : Sys) (x : Nat) : Prop :=
  s.ledger.Covered x ∨ ∃ t ∈ s.tasks, t.pc = .retry ∧ t.p.type = .span ∧ t.p.Covers x

instance (s : Sys) : DecidablePred s.Covered :=
  fun _ => inferInstanceAs (Decidable (_ ∨ ∃ t ∈ s.tasks, _))

/-- A rewrite that fails no row. -/
def FailsNone (g : ProofRequest → ProofRequest) : Prop :=
  ∀ r, (g r).status = .failed → r.status = .failed

theorem Ledger.Covered.insert {L : Ledger} {x : Nat} (h : L.Covered x) (type : ProofType)
    (s e t : UInt64) : (L.insert type s e t).Covered x :=
  let ⟨r, hr, hc⟩ := h
  ⟨r, List.mem_append_left _ hr, hc⟩

theorem Ledger.Covered.map {L : Ledger} {x : Nat} (h : L.Covered x) {g : ProofRequest → ProofRequest}
    (hg : BlockEdit g) (hf : FailsNone g) : { L with recs := L.recs.map g }.Covered x :=
  let ⟨r, hr, hspan, hst, hc⟩ := h
  ⟨g r, List.mem_map_of_mem g hr, (hg r).2.1 ▸ hspan, fun hg' => hst (hf r hg'), ((hg r).2.covers).1 hc⟩

/-- Rewriting the rows of one id. -/
theorem FailsNone.ite {f : ProofRequest → ProofRequest} (hf : FailsNone f) (i : Nat) :
    FailsNone fun r => if r.id = i then f r else r := fun r => by
  dsimp only
  split
  exacts [hf r, id]

theorem failsNone_withStatus (status : ProofRequestStatus) (h : status ≠ .failed) (now : UInt64) :
    FailsNone (withStatus status now) := fun _ hr => absurd hr h

theorem failsNone_addProof (proof : Bytes) :
    FailsNone fun r => { r with proof, status := .complete } := fun _ h => by cases h

theorem failsNone_setProverRequestId (proverRequestId : String) :
    FailsNone fun r => { r with proverRequestId } := fun _ => id

theorem Ledger.Covered.retryRequest {st : Store} {x : Nat} (h : st.ledger.Covered x)
    (p : ProofRequest) : (Proposer.retryRequest p st).2.ledger.Covered x :=
  let ⟨r, hr, hc⟩ := h
  ⟨r, retryRequest_mem p st hr, hc⟩

/-- **A retry covers the blocks of its `SPAN` record** when its inserts go through: the lower half
    `[s, m]` covers the blocks up to `m`, the upper half `[m + 1, e]` the rest. -/
theorem retryRequest_covered (p : ProofRequest) (st : Store) (hspan : p.type = .span)
    (hok : true ∉ st.faults) {x : Nat} (hx : p.Covers x) :
    (retryRequest p st).2.ledger.Covered x := by
  rw [retryRequest_span p st hspan hok]
  obtain ⟨hs, he⟩ := hx
  set m := p.startBlock + (p.endBlock - p.startBlock) / 2
  by_cases hxm : x ≤ m.toNat
  · refine ⟨Ledger.freshRecord st.ledger.nextId .span p.startBlock m 0, ?_, rfl, nofun, hs, hxm⟩
    simp
  · -- past the middle, so the range has two blocks or more and the halves meet
    have hlt : p.startBlock < p.endBlock := by
      rcases Nat.lt_trichotomy p.startBlock.toNat p.endBlock.toNat with h | h | h
      · exact (UInt64.lt_iff_toNat_lt _ _).2 h
      · simp only [m, UInt64.ext h, bisect_self] at hxm
        omega
      · omega
    refine ⟨Ledger.freshRecord (st.ledger.nextId + 1) .span (m + 1) p.endBlock 0, ?_, rfl, nofun,
      ?_, he⟩
    · simp
    · show (m + 1).toNat ≤ x
      rw [(bisect_toNat _ _ hlt).2.2]
      exact Nat.succ_le_of_lt (not_le.1 hxm)

/-! ## A goroutine's statement -/

/-- **One statement of a goroutine keeps a covered block covered**, on the ledger or by the
    goroutine itself: only `markFailed` fails a row, and the goroutine then retries its copy,
    which has the row's blocks. -/
theorem Task.step_covered (t : Task) (now : UInt64) (o : HttpOutcome) (st : Store)
    (hb : ∀ r ∈ st.ledger.recs, r.id = t.p.id → t.p.SameBlocks r) {x : Nat}
    (hx : st.ledger.Covered x) :
    (t.step now o st).2.ledger.Covered x ∨
      (t.step now o st).1 = .ok (some .retry) ∧ t.p.type = .span ∧ t.p.Covers x := by
  obtain ⟨p, pc⟩ := t
  cases pc with
  | markReq =>
    obtain ⟨-, ⟨-, hl⟩ | ⟨-, hl⟩⟩ := Task.step_markReq p now o st <;> rw [hl]
    exacts [.inl hx,
      .inl (hx.map ((blockEdit_withStatus _ _).ite _) ((failsNone_withStatus .req nofun now).ite _))]
  | request => exact .inl ((Task.step_request p now o st).2.1 ▸ hx)
  | setId proofId =>
    obtain ⟨-, -, hl | hl⟩ := Task.step_setId p proofId now o st <;> rw [hl]
    exacts [.inl hx,
      .inl (hx.map ((blockEdit_setProverRequestId _).ite _) ((failsNone_setProverRequestId _).ite _))]
  | markFailed =>
    obtain ⟨-, hres, hl | hl⟩ := Task.step_markFailed p now o st <;> rw [hl]
    · exact .inl hx
    obtain ⟨r, hr, hspan, hst, hc⟩ := hx
    by_cases hid : r.id = p.id
    · -- the row failed is the goroutine's own, whose blocks the goroutine retries next
      have hpr := hb r hr hid
      exact .inr ⟨hres, hpr.1.trans hspan, hpr.covers.2 hc⟩
    · exact .inl ⟨r, List.mem_map.2 ⟨r, hr, by simp [hid]⟩, hspan, hst, hc⟩
  | retry => rw [Task.step_retry]; exact .inl (hx.retryRequest p)

/-- The goroutines other than goroutine `i` are still there after its statement. -/
theorem mem_taskStep_tasks {s : Sys} {i : Nat} {t₀ t : Task} (hi : s.tasks[i]? = some t₀)
    (ht : t ∈ s.tasks) (hne : t ≠ t₀) (now : UInt64) (o : HttpOutcome) (faults : List Bool) :
    t ∈ (taskStep i now o faults s).tasks := by
  obtain ⟨j, hj⟩ := List.mem_iff_getElem?.1 ht
  have hji : j ≠ i := by rintro rfl; exact hne (Option.some_injective _ (hj.symm.trans hi))
  simp only [taskStep, hi]
  split
  · exact List.mem_iff_getElem?.2 ⟨j, by rw [List.getElem?_set_ne hji.symm]; exact hj⟩
  · exact List.mem_eraseIdx_iff_getElem?.2 ⟨j, hji, hj⟩

/-- **A goroutine's statement keeps every covered block covered** when its ledger calls go
    through; only its retry needs them to. -/
theorem covered_taskStep {s : Sys} (hb : s.TaskBlocks) (i : Nat) (now : UInt64) (o : HttpOutcome)
    {faults : List Bool} (hok : true ∉ faults) {x : Nat} (hx : s.Covered x) :
    (taskStep i now o faults s).Covered x := by
  rcases hi : s.tasks[i]? with _ | t₀
  · simp only [taskStep, hi]; exact hx
  have ht₀ := List.getElem?_mem hi
  rcases hx with hx | ⟨t, ht, hpc, hspan, hc⟩
  · rcases Task.step_covered t₀ now o ⟨s.ledger, faults, []⟩ (hb t₀ ht₀) hx with h | ⟨hres, hspan, hc⟩
    · exact Or.inl (by simpa only [taskStep, hi] using h)
    · refine Or.inr ⟨⟨t₀.p, .retry⟩, ?_, rfl, hspan, hc⟩
      simp only [taskStep, hi, hres]
      exact List.mem_iff_getElem?.2 ⟨i, List.getElem?_set_self (List.getElem?_eq_some_iff.1 hi).1⟩
  · by_cases hne : t = t₀
    · -- the covering goroutine is the one that runs: its retry covers the block
      subst hne
      obtain ⟨p, pc⟩ := t
      obtain rfl : pc = .retry := hpc
      refine Or.inl ?_
      simp only [taskStep, hi, Task.step_retry]
      exact retryRequest_covered p _ hspan hok hc
    · exact Or.inr ⟨t, mem_taskStep_tasks hi ht hne now o faults, hpc, hspan, hc⟩

/-! ## A tick -/

namespace Ledger

/-- `M` grows from `L` and, when the ids of `L` are keys, covers every block `L` covers. -/
def CoverGrows (L M : Ledger) : Prop :=
  L.Grows M ∧ (L.Keyed → ∀ x, L.Covered x → M.Covered x)

theorem CoverGrows.refl (L : Ledger) : L.CoverGrows L := ⟨.refl L, fun _ _ => id⟩

theorem CoverGrows.trans {L M N : Ledger} (h₁ : L.CoverGrows M) (h₂ : M.CoverGrows N) :
    L.CoverGrows N :=
  ⟨h₁.1.trans h₂.1, fun hk x hx => h₂.2 (h₁.1.keyed hk) x (h₁.2 hk x hx)⟩

theorem CoverGrows.insert (L : Ledger) (type : ProofType) (s e t : UInt64) :
    L.CoverGrows (L.insert type s e t) :=
  ⟨.insert L type s e t, fun _ _ hx => hx.insert type s e t⟩

theorem CoverGrows.map (L : Ledger) {g : ProofRequest → ProofRequest} (hg : BlockEdit g)
    (hf : FailsNone g) : L.CoverGrows { L with recs := L.recs.map g } :=
  ⟨.map L hg, fun _ _ hx => hx.map hg hf⟩

theorem coverGrows_reflexive : Reflexive CoverGrows := CoverGrows.refl

theorem coverGrows_transitive : Transitive CoverGrows := fun _ _ _ => CoverGrows.trans

end Ledger

/-- A call the environment lets through leaves the rest of the faults let through. -/
theorem DbM.call_letThrough {α : Type} (f : Ledger → Except String α × Ledger) {st : Store}
    (h : true ∉ st.faults) : true ∉ (DbM.call f st).2.faults := by
  rw [DbM.call_of_ok h]; exact DbM.not_mem_tail h

theorem retryRequest_letThrough (req : ProofRequest) {st : Store} (h : true ∉ st.faults) :
    true ∉ (retryRequest req st).2.faults :=
  (retryRequest_ok req st h).2.2

/-- **Pass A keeps every covered block covered when its ledger calls go through.** A record it
    moves to `FAILED` is one it read as pending; the ledger holds one row of its id, with the
    blocks of the copy it read, and the pass retries the copy at once. -/
theorem coverGrows_processPendingProofs (cfg : Config) (now : UInt64)
    (poll : String → HttpOutcome) :
    DbM.KeepsOn (fun st => true ∉ st.faults) Ledger.CoverGrows (processPendingProofs cfg now poll) := by
  have hR := Ledger.coverGrows_reflexive
  have hT := Ledger.coverGrows_transitive
  refine keepsOn_processPendingProofs_of hR hT cfg now poll (fun _ => DbM.not_mem_tail)
    (fun _ _ req _ _ st h => ⟨keeps_retryRequest_of_insert hR hT Ledger.CoverGrows.insert req st,
      retryRequest_letThrough req h⟩)
    fun _ _ req hreq _ st h hmove => ⟨fun proof => ⟨?_, DbM.call_letThrough _ h⟩, ?_⟩
  · -- `AddProof` completes the record
    rcases addProof_ledger req.id proof st with hl | hl <;> rw [hl]
    exacts [hR _, .map _ ((blockEdit_addProof proof).ite _) ((failsNone_addProof proof).ite _)]
  · -- `FAILED`, then `RetryRequest` of the copy read
    simp only [updateProofStatus, DbM.write, DbM.bind_apply, DbM.call_of_ok h, DbM.wrapErr_snd]
    set st' : Store := ⟨st.ledger.modify req.id (withStatus .failed now), st.faults.tail, st.sent⟩
    have h' : true ∉ st'.faults := DbM.not_mem_tail h
    refine ⟨⟨(Ledger.Grows.map _ ((blockEdit_withStatus _ _).ite _)).trans
      (keeps_retryRequest_of_insert Ledger.grows_reflexive Ledger.grows_transitive
        Ledger.Grows.insert req st'), fun hk x hx => ?_⟩, retryRequest_letThrough req h'⟩
    obtain ⟨r, hr, hspan, hst, hc⟩ := hx
    by_cases hid : r.id = req.id
    · obtain ⟨m, hm, hmi, hreqm⟩ := hmove.1.persists req hreq
      obtain rfl : m = r := hk.eq_of_id_eq hm hr (hmi.trans hid.symm)
      exact retryRequest_covered req st' (hreqm.1.trans hspan) h' (hreqm.covers.2 hc)
    · exact (show st'.ledger.Covered x from
        ⟨r, List.mem_map.2 ⟨r, hr, by simp [hid]⟩, hspan, hst, hc⟩).retryRequest req

/-- **A tick keeps every covered block covered when its ledger calls go through**: pass A by the
    lemma above, pass B and pass C because they only checkpoint and insert. -/
theorem coverGrows_tick (cfg : Config) (env : TickEnv) (s : Sys) (hok : true ∉ env.faults) :
    s.ledger.CoverGrows (tick cfg env s).ledger :=
  tick_ledger_of Ledger.coverGrows_transitive cfg env s
    (coverGrows_processPendingProofs cfg env.now env.poll ⟨s.ledger, env.faults, []⟩ hok).1
    (keeps_requestQueuedProofs_of Ledger.coverGrows_reflexive (fun L _ _ _ _ =>
      Ledger.CoverGrows.map L (blockEdit_checkpoint _ _ _ _) fun r => by split <;> exact id) _ _)
    (keeps_deriveAggProofs_of Ledger.coverGrows_reflexive Ledger.coverGrows_transitive
      (fun L => Ledger.CoverGrows.insert L .agg) _ _ _)

/-! ## Whole runs -/

/-- The environment fails none of the event's ledger calls. -/
def Event.LetThrough : Event → Prop
  | .tick env => true ∉ env.faults
  | .task _ _ _ faults => true ∉ faults
  | .derive _ _ _ => True

instance : DecidablePred Event.LetThrough := fun e => by
  cases e <;> unfold Event.LetThrough <;> infer_instance

theorem covered_step {cfg : Config} {s : Sys} (hs : Reachable cfg s) {e : Event}
    (he : e.LetThrough) {x : Nat} (hx : s.Covered x) : (step cfg s e).Covered x := by
  cases e with
  | tick env =>
    rcases hx with hx | ⟨t, ht, hrest⟩
    · exact Or.inl ((coverGrows_tick cfg env s he).2 (good_of_reachable hs).ledger.keyed x hx)
    · refine Or.inr ⟨t, ?_, hrest⟩
      show t ∈ (tick cfg env s).tasks
      rcases (tick_cases cfg env s).2 with hts | ⟨p, -, hts⟩ <;> rw [hts]
      exacts [ht, List.mem_append_left _ ht]
  | task i now o faults => exact covered_taskStep (taskBlocks_of_reachable hs) i now o he hx
  | derive a b now =>
    rcases hx with hx | hx
    exacts [Or.inl (hx.insert _ _ _ _), Or.inr hx]

/-- **No block is dropped while the ledger answers.** From any reachable state, along any run whose
    ledger calls all go through, whatever the prover answers and however the goroutines
    interleave with the ticks, a covered block stays covered. -/
theorem covered_run {cfg : Config} {s : Sys} (hs : Reachable cfg s) (evs : List Event)
    (hevs : ∀ e ∈ evs, e.LetThrough) {x : Nat} (hx : s.Covered x) : (run cfg s evs).Covered x := by
  induction evs generalizing s with
  | nil => exact hx
  | cons e evs ih =>
    exact ih (Reachable.step e hs) (fun e' he' => hevs e' (List.mem_cons_of_mem e he'))
      (covered_step hs (hevs e (List.mem_cons_self e evs)) hx)

/-- The prover reports a request as `PROOF_UNCLAIMED`. -/
def answerUnclaimed : HttpOutcome :=
  .response 200 (.json (.object [("status", .string "PROOF_UNCLAIMED")]))

/-- Block `150`, covered by record `0`, is still covered once the prover leaves the request
    unclaimed and pass A fails record `0`: its upper half `[150, 199]` covers it. -/
theorem covered_run_unclaimed :
    let cfg : Config := ⟨1, 3600⟩
    let s := run cfg Sys.init requestedSpan
    (Reachable cfg s ∧ (∀ e ∈ [quietTick (fun _ => answerUnclaimed) []], e.LetThrough) ∧
      s.Covered 150) ∧
    (run cfg s [quietTick (fun _ => answerUnclaimed) []]).Covered 150 ∧
    (run cfg s [quietTick (fun _ => answerUnclaimed) []]).statusOf 0 = some .failed :=
  ⟨⟨reachable_run _ .init _, by decide, by decide⟩,
    covered_run (reachable_run _ .init _) _ (by decide) (by decide), by decide⟩

/-! ## One fault can lose a range for good -/

namespace Ledger

/-- Every `SPAN` row has failed with a prover id. Pass A retries only `FAILED` rows without a
    prover id and polls only `REQ` rows, and pass B starts goroutines only for `UNREQ` rows: no
    pass reads such a row again. -/
def SpanDead (L : Ledger) : Prop :=
  ∀ r ∈ L.recs, r.type = .span → r.status = .failed ∧ r.proverRequestId ≠ ""

instance (L : Ledger) : Decidable L.SpanDead := inferInstanceAs (Decidable (∀ r ∈ L.recs, _))

theorem SpanDead.not_covered {L : Ledger} (h : L.SpanDead) (x : Nat) : ¬ L.Covered x :=
  fun ⟨r, hr, hspan, hst, _⟩ => hst (h r hr hspan).1

/-- A row of a ledger whose spans are dead, that has not failed or has no prover id, is `AGG`. -/
theorem SpanDead.agg {L : Ledger} (h : L.SpanDead) {r : ProofRequest} (hr : r ∈ L.recs)
    (hlive : r.status ≠ .failed ∨ r.proverRequestId = "") : r.type = .agg := by
  cases hty : r.type with
  | span => exact absurd (h r hr hty) fun ⟨hf, hid⟩ => hlive.elim (· hf) hid
  | agg => rfl

/-- `M` grows from `L`, and every `SPAN` row of `M` is a row of `L`. -/
def SpanFrozen (L M : Ledger) : Prop :=
  L.Grows M ∧ ∀ m ∈ M.recs, m.type = .span → m ∈ L.recs

theorem SpanFrozen.refl (L : Ledger) : L.SpanFrozen L := ⟨.refl L, fun _ hm _ => hm⟩

theorem SpanFrozen.trans {L M N : Ledger} (h₁ : L.SpanFrozen M) (h₂ : M.SpanFrozen N) :
    L.SpanFrozen N :=
  ⟨h₁.1.trans h₂.1, fun n hn hspan => h₁.2 n (h₂.2 n hn hspan) hspan⟩

theorem spanFrozen_reflexive : Reflexive SpanFrozen := SpanFrozen.refl

theorem spanFrozen_transitive : Transitive SpanFrozen := fun _ _ _ => SpanFrozen.trans

theorem SpanFrozen.dead {L M : Ledger} (h : L.SpanFrozen M) (hd : L.SpanDead) : M.SpanDead :=
  fun m hm hspan => hd m (h.2 m hm hspan) hspan

theorem SpanFrozen.insert_agg (L : Ledger) (s e t : UInt64) : L.SpanFrozen (L.insert .agg s e t) :=
  ⟨.insert L .agg s e t, fun m hm hspan => by
    rcases List.mem_append.1 hm with hm | hm
    · exact hm
    · rw [List.mem_singleton.1 hm] at hspan; cases hspan⟩

theorem SpanFrozen.map (L : Ledger) {g : ProofRequest → ProofRequest} (hg : BlockEdit g)
    (hfix : ∀ r ∈ L.recs, r.type = .span → g r = r) : L.SpanFrozen { L with recs := L.recs.map g } :=
  ⟨.map L hg, fun m hm hspan => by
    obtain ⟨r, hr, rfl⟩ := List.mem_map.1 hm
    rw [hfix r hr ((hg r).2.1.trans hspan)]
    exact hr⟩

/-- Rewriting the rows of an id whose rows are all `AGG`. -/
theorem SpanFrozen.modify (L : Ledger) {f : ProofRequest → ProofRequest} (hf : BlockEdit f)
    {i : Nat} (hi : ∀ r ∈ L.recs, r.id = i → r.type = .agg) : L.SpanFrozen (L.modify i f) :=
  SpanFrozen.map L (hf.ite i) fun r hr hspan =>
    if_neg fun hid => absurd (hspan.symm.trans (hi r hr hid)) nofun

theorem SpanFrozen.checkpoint (L : Ledger) (s e bn : UInt64) (hash : String) :
    L.SpanFrozen (L.checkpoint s e bn hash) :=
  SpanFrozen.map L (blockEdit_checkpoint s e bn hash) fun r _ hspan =>
    if_neg fun ht : checkpointTarget s e r => absurd (hspan.symm.trans ht.1) nofun

end Ledger

/-- The ids are keys and every `SPAN` row has failed with a prover id. -/
def Store.SpansDead (st : Store) : Prop := st.ledger.Keyed ∧ st.ledger.SpanDead

theorem Store.SpansDead.of_frozen {st st' : Store} (h : st.SpansDead)
    (hf : st.ledger.SpanFrozen st'.ledger) : st'.SpansDead :=
  ⟨hf.1.keyed h.1, hf.dead h.2⟩

theorem keepsOn_spansDead {α : Type} {x : DbM α}
    (h : ∀ st : Store, st.SpansDead → st.ledger.SpanFrozen (x st).2.ledger) :
    DbM.KeepsOn Store.SpansDead Ledger.SpanFrozen x :=
  fun st hst => ⟨h st hst, hst.of_frozen (h st hst)⟩

/-- A retry of an `AGG` record inserts one `AGG` record. -/
theorem spanFrozen_retryRequest_agg (req : ProofRequest) (hagg : req.type = .agg) (st : Store) :
    st.ledger.SpanFrozen (retryRequest req st).2.ledger := by
  unfold retryRequest
  rw [if_pos hagg]
  exact DbM.keeps_call Ledger.spanFrozen_reflexive (fun L => Ledger.SpanFrozen.insert_agg L _ _ _) st

/-- A write to the rows of an id whose rows are all `AGG`. -/
theorem spanFrozen_write_modify {st : Store} {i : Nat} {f : ProofRequest → ProofRequest}
    (hf : BlockEdit f) (hi : ∀ r ∈ st.ledger.recs, r.id = i → r.type = .agg) :
    st.ledger.SpanFrozen (DbM.write (fun L => L.modify i f) st).2.ledger := by
  rcases DbM.call_ledger (fun L => (.ok (), L.modify i f)) st with hl | hl <;> rw [DbM.write, hl]
  exacts [.refl _, .modify _ hf hi]

/-- **Pass A leaves the `SPAN` rows of a ledger whose spans are dead alone**: the rows it retries
    and polls are `AGG` rows, and it writes only to their ids. -/
theorem spanFrozen_processPendingProofs (cfg : Config) (now : UInt64)
    (poll : String → HttpOutcome) :
    DbM.KeepsOn Store.SpansDead Ledger.SpanFrozen (processPendingProofs cfg now poll) := by
  have hR := Ledger.spanFrozen_reflexive
  have hT := Ledger.spanFrozen_transitive
  have hretry (req : ProofRequest) (hagg : req.type = .agg) :
      DbM.KeepsOn Store.SpansDead Ledger.SpanFrozen (retryRequest req) :=
    keepsOn_spansDead fun st _ => spanFrozen_retryRequest_agg req hagg st
  refine keepsOn_processPendingProofs_of hR hT cfg now poll (fun _ => id)
    (fun _ h₀ req hr hf => hretry req (h₀.2.agg hr (.inr hf.2)))
    fun st₀ h₀ req hr hf st h hmove => ?_
  -- a pending record is `REQ`, so `AGG`, and so is every row of its id
  have hagg : req.type = .agg := h₀.2.agg hr (.inl fun h' => by rw [hf.1] at h'; cases h')
  have hrows : ∀ r ∈ st.ledger.recs, r.id = req.id → r.type = .agg := fun r hr' hid => by
    obtain ⟨q, hq, hqi, hqr⟩ := hmove.1.origin r hr' (hid ▸ h₀.1.bounded req hr)
    rw [← hqr.1, h₀.1.eq_of_id_eq hq hr (hqi.trans hid)]
    exact hagg
  refine ⟨fun proof => ?_, ?_⟩
  · -- `AddProof` writes to the record's id
    have hl : st.ledger.SpanFrozen (addProof req.id proof st).2.ledger := by
      rcases addProof_ledger req.id proof st with hl | hl <;> rw [hl]
      exacts [.refl _, .modify _ (blockEdit_addProof proof) hrows]
    exact ⟨hl, h.of_frozen hl⟩
  · -- `FAILED` on the record's id, then the retry of an `AGG` record
    have hl := spanFrozen_write_modify (blockEdit_withStatus .failed now) hrows
    exact DbM.keepsOn_bind_at hT ⟨hl, h.of_frozen hl⟩ fun _ =>
      DbM.keepsOn_wrapErr hR hT _ (hretry req hagg)

/-- One statement of a goroutine on an `AGG` record writes only to its rows, which are `AGG`, and
    retries only an `AGG` record. -/
theorem spanFrozen_taskStep (t : Task) (hagg : t.p.type = .agg) (now : UInt64) (o : HttpOutcome)
    (st : Store) (hi : ∀ r ∈ st.ledger.recs, r.id = t.p.id → r.type = .agg) :
    st.ledger.SpanFrozen (t.step now o st).2.ledger := by
  obtain ⟨p, pc⟩ := t
  cases pc with
  | markReq =>
    obtain ⟨-, ⟨-, hl⟩ | ⟨-, hl⟩⟩ := Task.step_markReq p now o st <;> rw [hl]
    exacts [.refl _, .modify _ (blockEdit_withStatus _ _) hi]
  | request => rw [(Task.step_request p now o st).2.1]; exact .refl _
  | setId proofId =>
    obtain ⟨-, -, hl | hl⟩ := Task.step_setId p proofId now o st <;> rw [hl]
    exacts [.refl _, .modify _ (blockEdit_setProverRequestId _) hi]
  | markFailed =>
    obtain ⟨-, -, hl | hl⟩ := Task.step_markFailed p now o st <;> rw [hl]
    exacts [.refl _, .modify _ (blockEdit_withStatus _ _) hi]
  | retry => rw [Task.step_retry]; exact spanFrozen_retryRequest_agg p hagg st

/-- No pass and no goroutine will look at a `SPAN` record again: every `SPAN` row has failed with
    a prover id, and every goroutine works on an `AGG` record. -/
def Sys.SpanDead (s : Sys) : Prop := s.ledger.SpanDead ∧ ∀ t ∈ s.tasks, t.p.type = .agg

instance (s : Sys) : Decidable s.SpanDead :=
  inferInstanceAs (Decidable (_ ∧ ∀ t ∈ s.tasks, _))

theorem Sys.SpanDead.not_covered {s : Sys} (h : s.SpanDead) (x : Nat) : ¬ s.Covered x := by
  rintro (hx | ⟨t, ht, -, hspan, -⟩)
  · exact h.1.not_covered x hx
  · rw [h.2 t ht] at hspan; cases hspan

theorem spanDead_tick (cfg : Config) (env : TickEnv) {s : Sys} (hk : s.ledger.Keyed)
    (hd : s.SpanDead) : (tick cfg env s).SpanDead := by
  have hA := spanFrozen_processPendingProofs cfg env.now env.poll ⟨s.ledger, env.faults, []⟩ ⟨hk, hd.1⟩
  have hl : s.ledger.SpanFrozen (tick cfg env s).ledger :=
    tick_ledger_of Ledger.spanFrozen_transitive cfg env s hA.1
      (keeps_requestQueuedProofs_of Ledger.spanFrozen_reflexive Ledger.SpanFrozen.checkpoint _ _)
      (keeps_deriveAggProofs_of Ledger.spanFrozen_reflexive Ledger.spanFrozen_transitive
        Ledger.SpanFrozen.insert_agg _ _ _)
  refine ⟨hl.dead hd.1, fun t ht => ?_⟩
  rcases tick_tasks cfg env s t ht with ht | ⟨hpm, hunreq⟩
  · exact hd.2 t ht
  -- the goroutine pass B starts is for an `UNREQ` row of a ledger whose spans are dead
  · exact hA.2.2.agg hpm (.inl fun h => by rw [hunreq] at h; cases h)

theorem spanDead_taskStep {s : Sys} (hb : s.TaskBlocks) (hd : s.SpanDead) (i : Nat) (now : UInt64)
    (o : HttpOutcome) (faults : List Bool) : (taskStep i now o faults s).SpanDead := by
  refine ⟨?_, fun t ht => ?_⟩
  · unfold taskStep
    rcases hi : s.tasks[i]? with _ | t
    · exact hd.1
    have ht := List.getElem?_mem hi
    exact (spanFrozen_taskStep t (hd.2 t ht) now o ⟨s.ledger, faults, []⟩
      fun r hr hid => ((hb t ht r hr hid).1.symm.trans (hd.2 t ht))).dead hd.1
  · obtain ⟨t', ht', hp⟩ := taskStep_tasks i now o faults s t ht
    exact hp ▸ hd.2 t' ht'

/-- The event is the derivation queueing a range. -/
def Event.IsDerive : Event → Prop
  | .derive _ _ _ => True
  | _ => False

instance : DecidablePred Event.IsDerive := fun e => by
  cases e <;> unfold Event.IsDerive <;> infer_instance

theorem spanDead_step {cfg : Config} {s : Sys} (hs : Reachable cfg s) (hd : s.SpanDead) {e : Event}
    (he : ¬ e.IsDerive) : (step cfg s e).SpanDead := by
  cases e with
  | tick env => exact spanDead_tick cfg env (good_of_reachable hs).ledger.keyed hd
  | task i now o faults => exact spanDead_taskStep (taskBlocks_of_reachable hs) hd i now o faults
  | derive a b now => exact absurd trivial he

/-- **A range the ledger dropped stays dropped.** From a reachable state where every `SPAN` row has
    failed with a prover id and no goroutine holds a `SPAN` record, no run without a new
    derivation covers any block again, whatever the prover, the clock and the ledger do. -/
theorem uncovered_run_of_spanDead {cfg : Config} {s : Sys} (hs : Reachable cfg s)
    (hd : s.SpanDead) (evs : List Event) (hevs : ∀ e ∈ evs, ¬ e.IsDerive) (x : Nat) :
    ¬ (run cfg s evs).Covered x := by
  induction evs generalizing s with
  | nil => exact hd.not_covered x
  | cons e evs ih =>
    exact ih (Reachable.step e hs) (spanDead_step hs hd (hevs e (List.mem_cons_self e evs)))
      fun e' he' => hevs e' (List.mem_cons_of_mem e he')

/-- After the span `[100, 199]` is requested, the prover leaves it unclaimed; pass A writes
    `FAILED` on record `0`, and the ledger fails the first insert of its retry. -/
def lostRange : List Event :=
  requestedSpan ++ [quietTick (fun _ => answerUnclaimed) [false, false, false, true]]

/-- Later ticks and a goroutine's statement, with every ledger call let through. -/
def laterRun : List Event :=
  [quietTick (fun _ => answerUnclaimed) [], quietTick (fun _ => answerFulfilled []) [],
   .task 0 0 refused []]

/-- Block `150`, covered before the faulty tick, is covered by no later run without a new
    derivation. -/
theorem range_lost_on_one_fault :
    let cfg : Config := ⟨1, 3600⟩
    let s := run cfg Sys.init lostRange
    (run cfg Sys.init requestedSpan).Covered 150 ∧
    (Reachable cfg s ∧ s.SpanDead ∧ ∀ e ∈ laterRun, ¬ e.IsDerive) ∧
    ¬ (run cfg s laterRun).Covered 150 :=
  ⟨by decide, ⟨reachable_run _ .init _, by decide, by decide⟩,
    uncovered_run_of_spanDead (reachable_run _ .init _) (by decide) laterRun (by decide) 150⟩

end Proposer
