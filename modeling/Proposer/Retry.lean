import Proposer.Store
import Mathlib.Data.Nat.Log

set_option autoImplicit false

/-! # The retry policy

`RetryRequest` is how the proposer replaces a failed record (spec §4.4, retry policy): an `AGG`
record is queued again over the same range, and a `SPAN` record is bisected, on the assumption
that the prover ran out of resources on an oversized range. The bisection is the Go loop
`for i := 0; i < 2; i++` over `tmpStart`/`tmpEnd`, in `uint64` arithmetic.

For a span `[s, e]` with `s < e`, the halves `[s, m]` and `[m + 1, e]` with `m = s + (e - s) / 2`
partition the range, neither is empty, each holds at most half of it rounded up, and no step of
the arithmetic wraps (`retryRequest_bisects`). The loop has no guard for a single block: for
`[s, s]` the midpoint is `s` (`bisect_self`), so it queues `[s, s]` again and the inverted
`[s + 1, s]`.

Along a chain of retries the number of blocks decreases while the ranges hold more than one
block, so a span of `n` blocks is bisected at most `⌈log₂ n⌉` times before its halves are single
blocks (`bisections_le_clog`). There it stops decreasing: a single block is queued again as
itself, and its chain of retries has no end (`single_block_retried_forever`). -/

namespace Proposer

/-- The loop of `RetryRequest`: insert `[tmpStart, tmpEnd]`, then move on to
    `[tmpEnd + 1, req.EndBlock]`; `n` iterations are left. -/
def splitLoop (req : ProofRequest) : Nat → UInt64 → UInt64 → DbM Unit
  | 0, _, _ => pure ()
  | n + 1, tmpStart, tmpEnd => do
    newEntryWithReqAddedTimestamp .span tmpStart tmpEnd 0
    splitLoop req n (tmpEnd + 1) req.endBlock

/-- `RetryRequest`: queue the successors of the failed record `req`. -/
def retryRequest (req : ProofRequest) : DbM Unit :=
  if req.type = .agg then
    newEntryWithReqAddedTimestamp .agg req.startBlock req.endBlock 0
  else
    let tmpStart := req.startBlock
    let tmpEnd := tmpStart + ((req.endBlock - tmpStart) / 2)
    splitLoop req 2 tmpStart tmpEnd

/-! ## What one retry inserts -/

/-- An insert the environment lets through appends the fresh record. -/
theorem newEntry_apply (type : ProofType) (s e t : UInt64) (st : Store) (h : true ∉ st.faults) :
    newEntryWithReqAddedTimestamp type s e t st =
      (.ok (), { st with ledger := st.ledger.insert type s e t, faults := st.faults.tail }) :=
  DbM.call_of_ok (f := fun L => (.ok (), L.insert type s e t)) h

/-- With every ledger call let through, a failed `AGG` record gets one successor over its range. -/
theorem retryRequest_agg (req : ProofRequest) (st : Store) (hagg : req.type = .agg)
    (hok : true ∉ st.faults) :
    retryRequest req st = (.ok (), { st with
      ledger := st.ledger.insert .agg req.startBlock req.endBlock 0, faults := st.faults.tail }) := by
  simp only [retryRequest, hagg, if_true]
  exact newEntry_apply _ _ _ _ st hok

/-- With every ledger call let through, a failed `SPAN` record `[s, e]` gets the two successors
    `[s, m]` and `[m + 1, e]`, `m = s + (e - s) / 2`. -/
theorem retryRequest_span (req : ProofRequest) (st : Store) (hspan : req.type = .span)
    (hok : true ∉ st.faults) :
    let m := req.startBlock + (req.endBlock - req.startBlock) / 2
    retryRequest req st = (.ok (), { st with
      ledger := (st.ledger.insert .span req.startBlock m 0).insert .span (m + 1) req.endBlock 0,
      faults := st.faults.tail.tail }) := by
  simp only [retryRequest, hspan, reduceCtorEq, if_false, splitLoop, DbM.bind_apply,
    newEntry_apply, hok, DbM.not_mem_tail hok, not_false_eq_true, DbM.pure_apply]

/-- The rows `RetryRequest` appends for `req` when the ledger's next id is `k`: the range again
    for an `AGG` record, the halves `[s, m]` and `[m + 1, e]`, `m = s + (e - s) / 2`, for a
    `SPAN` record. -/
def retryRows (req : ProofRequest) (k : Nat) : List ProofRequest :=
  if req.type = .agg then [Ledger.freshRecord k .agg req.startBlock req.endBlock 0]
  else
    let m := req.startBlock + (req.endBlock - req.startBlock) / 2
    [Ledger.freshRecord k .span req.startBlock m 0,
      Ledger.freshRecord (k + 1) .span (m + 1) req.endBlock 0]

/-- The successors are `UNREQ` rows under the ids from `k` on. -/
theorem mem_retryRows {req c : ProofRequest} {k : Nat} (hc : c ∈ retryRows req k) :
    c.status = .unreq ∧ k ≤ c.id ∧ c.id < k + (retryRows req k).length := by
  unfold retryRows at hc ⊢
  split at hc <;> simp only [List.mem_cons, List.mem_singleton, List.not_mem_nil, or_false] at hc <;>
    rcases hc with rfl | rfl <;> simp [*, Ledger.freshRecord]

/-- **A retry let through** succeeds, appends `retryRows` under the next ids, and leaves the
    rest of the faults let through. -/
theorem retryRequest_ok (req : ProofRequest) (st : Store) (hok : true ∉ st.faults) :
    (retryRequest req st).1 = .ok () ∧
    (retryRequest req st).2.ledger = ⟨st.ledger.recs ++ retryRows req st.ledger.nextId,
      st.ledger.nextId + (retryRows req st.ledger.nextId).length⟩ ∧
    true ∉ (retryRequest req st).2.faults := by
  cases hty : req.type with
  | agg =>
    rw [retryRequest_agg req st hty hok]
    exact ⟨rfl, by simp [retryRows, hty, Ledger.insert], DbM.not_mem_tail hok⟩
  | span =>
    rw [retryRequest_span req st hty hok]
    exact ⟨rfl, by simp [retryRows, hty, Ledger.insert], DbM.not_mem_tail (DbM.not_mem_tail hok)⟩

/-- A retry only inserts: it keeps every reflexive, transitive relation between ledgers that an
    insert keeps. -/
theorem keeps_retryRequest_of_insert {R : Ledger → Ledger → Prop} (hR : Reflexive R)
    (hT : Transitive R) (hins : ∀ L type s e t, R L (L.insert type s e t)) (req : ProofRequest) :
    DbM.Keeps R (retryRequest req) := by
  have hnew (type : ProofType) (s e t : UInt64) :
      DbM.Keeps R (newEntryWithReqAddedTimestamp type s e t) :=
    DbM.keeps_call hR fun L => hins L type s e t
  unfold retryRequest
  split
  · exact hnew _ _ _ _
  · exact DbM.keeps_bind hT (hnew _ _ _ _) fun _ =>
      DbM.keeps_bind hT (hnew _ _ _ _) fun _ => DbM.keeps_pure hR _

/-- A retry keeps every row. -/
theorem retryRequest_mem (req : ProofRequest) (st : Store) {c : ProofRequest}
    (hc : c ∈ st.ledger.recs) : c ∈ (retryRequest req st).2.ledger.recs :=
  (@keeps_retryRequest_of_insert (fun L L' => L.recs ⊆ L'.recs) (fun _ => List.Subset.refl _)
    (fun _ _ _ h₁ h₂ => h₁.trans h₂) (fun _ _ _ _ _ => List.subset_append_left _ _) req st :
      st.ledger.recs ⊆ _) hc

/-- Retrying sends nothing to the prover. -/
theorem retryRequest_sent (req : ProofRequest) (st : Store) : (retryRequest req st).2.sent = st.sent := by
  have loop : ∀ n s e (st : Store), (splitLoop req n s e st).2.sent = st.sent := by
    intro n
    induction n with
    | zero => exact fun _ _ _ => rfl
    | succ n ih =>
      intro s e st
      have hn : (newEntryWithReqAddedTimestamp .span s e 0 st).2.sent = st.sent := DbM.call_sent _ st
      simp only [splitLoop, DbM.bind_apply]
      split <;> rename_i h <;> rw [h] at hn
      · rw [ih]; exact hn
      · exact hn
  unfold retryRequest
  split
  · exact DbM.call_sent _ st
  · exact loop 2 _ _ st

/-! ## The bisection arithmetic -/

/-- For `s < e` none of `e - s`, `s + (e - s) / 2` and `m + 1` wraps. -/
theorem bisect_toNat (s e : UInt64) (h : s < e) :
    (e - s).toNat = e.toNat - s.toNat ∧
    (s + (e - s) / 2).toNat = s.toNat + (e.toNat - s.toNat) / 2 ∧
    (s + (e - s) / 2 + 1).toNat = (s + (e - s) / 2).toNat + 1 := by
  rw [UInt64.lt_iff_toNat_lt] at h
  have he := UInt64.toNat_lt e
  have hd : (e - s).toNat = e.toNat - s.toNat := UInt64.toNat_sub_of_le e s (by
    rw [UInt64.le_iff_toNat_le]; omega)
  have hq : ((e - s) / 2).toNat = (e.toNat - s.toNat) / 2 := by
    rw [UInt64.toNat_div, hd, UInt64.toNat_two]
  have hm : (s + (e - s) / 2).toNat = s.toNat + (e.toNat - s.toNat) / 2 := by
    rw [UInt64.toNat_add_of_lt (by omega), hq]
  exact ⟨hd, hm, UInt64.toNat_add_of_lt (by rw [hm, UInt64.toNat_one]; omega)⟩

/-- **Bisection.** For a `SPAN` record `[s, e]` with `s < e`, and every ledger call let through,
    `RetryRequest` appends exactly the two `UNREQ` `SPAN` records `[s, m]` and `[m + 1, e]`,
    `m = s + (e - s) / 2`; `s ≤ m < e`; the halves are disjoint and cover `[s, e]`; each holds at
    most `⌈(e - s + 1) / 2⌉` blocks; and no `uint64` step wraps. -/
theorem retryRequest_bisects (req : ProofRequest) (st : Store) (hspan : req.type = .span)
    (hlt : req.startBlock < req.endBlock) (hok : true ∉ st.faults) :
    let s := req.startBlock
    let e := req.endBlock
    let m := s + (e - s) / 2
    (retryRequest req st).1 = .ok () ∧
    (retryRequest req st).2.ledger.recs = st.ledger.recs ++
      [Ledger.freshRecord st.ledger.nextId .span s m 0,
        Ledger.freshRecord (st.ledger.nextId + 1) .span (m + 1) e 0] ∧
    s ≤ m ∧ m < e ∧
    (∀ b : UInt64, s ≤ b ∧ b ≤ e ↔ (s ≤ b ∧ b ≤ m) ∨ (m + 1 ≤ b ∧ b ≤ e)) ∧
    (∀ b : UInt64, ¬ (b ≤ m ∧ m + 1 ≤ b)) ∧
    m.toNat - s.toNat + 1 ≤ (e.toNat - s.toNat + 2) / 2 ∧
    e.toNat - (m + 1).toNat + 1 ≤ (e.toNat - s.toNat + 2) / 2 ∧
    (e - s).toNat = e.toNat - s.toNat ∧
    m.toNat = s.toNat + (e.toNat - s.toNat) / 2 ∧
    (m + 1).toNat = m.toNat + 1 := by
  intro s e m
  obtain ⟨hd, hm, hm1⟩ : (e - s).toNat = e.toNat - s.toNat ∧
      m.toNat = s.toNat + (e.toNat - s.toNat) / 2 ∧ (m + 1).toNat = m.toNat + 1 :=
    bisect_toNat s e hlt
  have hr := retryRequest_span req st hspan hok
  have hse : s.toNat < e.toNat := hlt
  simp only [UInt64.le_iff_toNat_le, UInt64.lt_iff_toNat_lt]
  refine ⟨by rw [hr], by rw [hr]; simp [List.append_assoc], ?_, ?_, ?_, ?_, ?_, ?_,
    hd, hm, hm1⟩ <;> (try intro b) <;> omega

/-- Spec scenario A: the failed span `[100, 199]` is replaced by `[100, 149]` and `[150, 199]`. -/
theorem retryRequest_bisects_scenarioA :
    ((Ledger.freshRecord 0 .span 100 199 0).type = .span ∧
      (Ledger.freshRecord 0 .span 100 199 0).startBlock < (Ledger.freshRecord 0 .span 100 199 0).endBlock ∧
      true ∉ ([] : List Bool)) ∧
    (retryRequest (Ledger.freshRecord 0 .span 100 199 0) ⟨Ledger.empty, [], []⟩).2.ledger.recs =
      [Ledger.freshRecord 0 .span 100 149 0, Ledger.freshRecord 1 .span 150 199 0] :=
  ⟨⟨rfl, by decide, by simp⟩,
    (retryRequest_bisects (Ledger.freshRecord 0 .span 100 199 0) ⟨Ledger.empty, [], []⟩ rfl
      (by decide) (by simp)).2.1⟩

/-- The midpoint of a single block is the block itself. -/
theorem bisect_self (s : UInt64) : s + (s - s) / 2 = s := by
  apply UInt64.ext
  rw [UInt64.toNat_add, UInt64.toNat_div, UInt64.toNat_sub_of_le s s (UInt64.le_refl s)]
  simp [Nat.mod_eq_of_lt (UInt64.toNat_lt s)]

/-! ## Chains of retries -/

/-- The number of blocks of `[startBlock, endBlock]`; none when the range is inverted. -/
def ProofRequest.blockCount (r : ProofRequest) : Nat := r.endBlock.toNat + 1 - r.startBlock.toNat

/-- `c` is a record `RetryRequest` adds when it retries `p`, from some store. -/
def RetryChild (p c : ProofRequest) : Prop :=
  ∃ st : Store, c ∈ (retryRequest p st).2.ledger.recs ∧ c ∉ st.ledger.recs

/-- A half of the `SPAN` record `req`: `[s, m]` or `[m + 1, e]`, `m = s + (e - s) / 2`. -/
def IsHalf (req c : ProofRequest) : Prop :=
  c.type = .span ∧
    (c.startBlock = req.startBlock ∧ c.endBlock = req.startBlock + (req.endBlock - req.startBlock) / 2 ∨
      c.startBlock = req.startBlock + (req.endBlock - req.startBlock) / 2 + 1 ∧
        c.endBlock = req.endBlock)

/-- `L'` holds the rows of `L` and otherwise only rows satisfying `P`. -/
def AddsOnly (P : ProofRequest → Prop) (L L' : Ledger) : Prop := ∀ c ∈ L'.recs, c ∈ L.recs ∨ P c

/-- Whatever calls the environment fails, a retry of a `SPAN` record adds only its halves. -/
theorem keeps_retryRequest_halves (req : ProofRequest) (hspan : req.type = .span) :
    DbM.Keeps (AddsOnly (IsHalf req)) (retryRequest req) := by
  have hR : Reflexive (AddsOnly (IsHalf req)) := fun _ _ h => .inl h
  have hT : Transitive (AddsOnly (IsHalf req)) := fun _ _ _ h₁ h₂ c hc => (h₂ c hc).elim (h₁ c) .inr
  have hins (s e : UInt64) (hP : ∀ i, IsHalf req (Ledger.freshRecord i .span s e 0)) :
      DbM.Keeps (AddsOnly (IsHalf req)) (newEntryWithReqAddedTimestamp .span s e 0) :=
    DbM.keeps_call hR fun L c hc => by
      rcases List.mem_append.1 hc with hc | hc
      · exact .inl hc
      · exact .inr (List.mem_singleton.1 hc ▸ hP _)
  simp only [retryRequest, hspan, reduceCtorEq, if_false, splitLoop]
  exact DbM.keeps_bind hT (hins _ _ fun _ => ⟨rfl, .inl ⟨rfl, rfl⟩⟩) fun _ =>
    DbM.keeps_bind hT (hins _ _ fun _ => ⟨rfl, .inr ⟨rfl, rfl⟩⟩) fun _ => DbM.keeps_pure hR _

theorem RetryChild.isHalf {p c : ProofRequest} (h : RetryChild p c) (hspan : p.type = .span) :
    IsHalf p c :=
  let ⟨st, hc, hn⟩ := h
  (keeps_retryRequest_halves p hspan st c hc).resolve_left hn

/-- A half of a span of more than one block holds at least one block and at most half of the
    span's, rounded up. -/
theorem RetryChild.blockCount_le {p c : ProofRequest} (h : RetryChild p c) (hspan : p.type = .span)
    (hlt : p.startBlock < p.endBlock) :
    2 ≤ p.blockCount ∧ 1 ≤ c.blockCount ∧ 2 * c.blockCount ≤ p.blockCount + 1 := by
  obtain ⟨-, hm, hm1⟩ := bisect_toNat _ _ hlt
  have hse : p.startBlock.toNat < p.endBlock.toNat := hlt
  obtain ⟨-, ⟨hs, he⟩ | ⟨hs, he⟩⟩ := h.isHalf hspan <;>
    simp only [ProofRequest.blockCount, hs, he, hm1, hm] <;> omega

/-- Along a chain that bisects at every step, the block count at least halves. -/
theorem chain_pow_lt {req c : ProofRequest} {rest : List ProofRequest}
    (hchain : List.Chain RetryChild req (c :: rest))
    (hsplit : ∀ p ∈ (req :: c :: rest).dropLast, p.type = .span ∧ p.startBlock < p.endBlock) :
    2 ^ rest.length < req.blockCount := by
  induction rest generalizing req c with
  | nil =>
    obtain ⟨hspan, hlt⟩ := hsplit req (by simp)
    have := (List.chain_cons.1 hchain).1.blockCount_le hspan hlt
    simp only [List.length_nil, pow_zero]
    omega
  | cons c' rest ih =>
    obtain ⟨hrc, hchain'⟩ := List.chain_cons.1 hchain
    obtain ⟨hspan, hlt⟩ := hsplit req (by simp)
    have hc := ih hchain' fun p hp => hsplit p (by
      rw [List.dropLast_cons₂]; exact List.mem_cons_of_mem _ hp)
    have := hrc.blockCount_le hspan hlt
    rw [List.length_cons, pow_succ]
    omega

/-- **Bisection depth.** Along a chain of retries in which every record that is retried is a
    `SPAN` record of more than one block, a span of `n` blocks is bisected at most `⌈log₂ n⌉`
    times. -/
theorem bisections_le_clog (req : ProofRequest) (chain : List ProofRequest)
    (hchain : List.Chain RetryChild req chain)
    (hsplit : ∀ p ∈ (req :: chain).dropLast, p.type = .span ∧ p.startBlock < p.endBlock) :
    chain.length ≤ Nat.clog 2 req.blockCount := by
  cases chain with
  | nil => exact Nat.zero_le _
  | cons c rest =>
    exact Nat.succ_le_of_lt ((Nat.pow_lt_iff_lt_clog Nat.one_lt_two).1 (chain_pow_lt hchain hsplit))

/-- The span `[1, 4]` is bisected to `[1, 2]` and that to `[1, 1]`: two bisections of four
    blocks. -/
theorem bisections_le_clog_four :
    let req := Ledger.freshRecord 0 .span 1 4 0
    let chain := [Ledger.freshRecord 0 .span 1 2 0, Ledger.freshRecord 0 .span 1 1 0]
    List.Chain RetryChild req chain ∧
      (∀ p ∈ (req :: chain).dropLast, p.type = .span ∧ p.startBlock < p.endBlock) ∧
      chain.length ≤ Nat.clog 2 req.blockCount := by
  intro req chain
  have hchain : List.Chain RetryChild req chain :=
    .cons ⟨⟨Ledger.empty, [], []⟩, by decide, by simp [Ledger.empty]⟩
      (.cons ⟨⟨Ledger.empty, [], []⟩, by decide, by simp [Ledger.empty]⟩ .nil)
  have hsplit : ∀ p ∈ (req :: chain).dropLast, p.type = .span ∧ p.startBlock < p.endBlock := by
    decide
  exact ⟨hchain, hsplit, bisections_le_clog req chain hchain hsplit⟩

/-- **A single block is retried for ever.** A `SPAN` record of one block is queued again as
    itself, with as many blocks as before, so for every `n` there is a chain of `n` retries of
    the same block: the retry policy never stops splitting it. -/
theorem single_block_retried_forever (req : ProofRequest) (hspan : req.type = .span)
    (hs : req.startBlock = req.endBlock) (n : Nat) :
    ∃ chain : List ProofRequest, chain.length = n ∧ List.Chain RetryChild req chain ∧
      ∀ c ∈ chain, c.type = .span ∧ c.startBlock = req.startBlock ∧ c.endBlock = req.endBlock ∧
        c.blockCount = req.blockCount := by
  induction n generalizing req with
  | zero => exact ⟨[], rfl, .nil, by simp⟩
  | succ n ih =>
    let c := Ledger.freshRecord 0 .span req.startBlock req.startBlock 0
    have hc : RetryChild req c := ⟨⟨Ledger.empty, [], []⟩, by
      rw [retryRequest_span req _ hspan (by simp)]
      simp [← hs, bisect_self, c, Ledger.empty], by simp [Ledger.empty]⟩
    obtain ⟨chain, hlen, hchain, hall⟩ := ih c rfl rfl
    refine ⟨c :: chain, by simp [hlen], .cons hc hchain, List.forall_mem_cons.2 ⟨?_, ?_⟩⟩
    · exact ⟨rfl, rfl, hs, by simp only [ProofRequest.blockCount, c, Ledger.freshRecord, hs]⟩
    · intro r hr
      obtain ⟨hty, hrs, hre, hrc⟩ := hall r hr
      exact ⟨hty, hrs, hre.trans hs, hrc.trans (by simp only [ProofRequest.blockCount, c,
        Ledger.freshRecord, hs])⟩

/-- The block `[7, 7]` is retried three times as itself. -/
theorem single_block_retried_forever_seven :
    (Ledger.freshRecord 0 .span 7 7 0).type = .span ∧
      (Ledger.freshRecord 0 .span 7 7 0).startBlock = (Ledger.freshRecord 0 .span 7 7 0).endBlock ∧
      ∃ chain : List ProofRequest, chain.length = 3 ∧
        List.Chain RetryChild (Ledger.freshRecord 0 .span 7 7 0) chain ∧
        ∀ c ∈ chain, c.type = .span ∧ c.startBlock = 7 ∧ c.endBlock = 7 ∧ c.blockCount = 1 :=
  ⟨rfl, rfl, single_block_retried_forever (Ledger.freshRecord 0 .span 7 7 0) rfl rfl 3⟩

end Proposer
