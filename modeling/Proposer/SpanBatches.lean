import Proposer.Passes

set_option autoImplicit false

/-! # The span batches of an L2 block range

`GetAllSpanBatchesInL2BlockRange` picks an L1 window (`GetL1SearchBoundaries`), groups the frames
posted in it by channel, and `GetSpanBatchRanges` clips the L2 blocks of each decoded batch to the
target range. The decoder (`processFrames`) is op-node's and a parameter here; it can yield a nil
batch, on which every method panics. Go visits the map `framesByChannel` in an order the runtime
chooses, the parameter `visit`. Panics and `log.Fatalf` are returned as errors with their texts.

* Grouping lists each channel once with its frames in order (`groupFrames_groupedBy`), and
  `GetSpanBatchRanges` fails only with its three texts (`getSpanBatchRanges_error`).
* Over span batches alone the result is the clip of every batch, in visiting order, and covers
  exactly the target blocks some batch covers (`getSpanBatchRanges_clips`); two visiting orders
  give permutations of one list (`getSpanBatchRanges_perm`).
* A batch that is not a span batch appends `[startBlock, endBlock]` to the ranges found so far
  (`getSpanBatchRanges_fallback`), so the result depends on the order (`fallback_depends_on_order`).
* The L1 window is extended by `10 · ⌊60 / t⌋` blocks, short of `⌊600 / t⌋` (`l1SearchEnd_short`). -/

namespace Proposer

/-! ## `uint64` bounds -/

theorem UInt64.toNat_max (a b : UInt64) : (max a b).toNat = max a.toNat b.toNat := by
  show (if a ≤ b then b else a).toNat = if a.toNat ≤ b.toNat then b.toNat else a.toNat
  by_cases h : a.toNat ≤ b.toNat <;> simp only [UInt64.le_iff_toNat_le, h, if_true, if_false]

theorem UInt64.toNat_min (a b : UInt64) : (min a b).toNat = min a.toNat b.toNat := by
  show (if a ≤ b then a else b).toNat = if a.toNat ≤ b.toNat then a.toNat else b.toNat
  by_cases h : a.toNat ≤ b.toNat <;> simp only [UInt64.le_iff_toNat_le, h, if_true, if_false]

/-- The last block `b + n - 1` of `n ≥ 1` blocks from `b`, when it does not wrap. -/
theorem UInt64.toNat_lastBlock (b : UInt64) (n : Nat) (h1 : 1 ≤ n) (h : b.toNat + n - 1 < 2 ^ 64) :
    (b + UInt64.ofNat n - 1).toNat = b.toNat + n - 1 := by
  have hb := b.toNat_lt
  have hn : (UInt64.ofNat n).toNat = n % 2 ^ 64 := rfl
  simp only [UInt64.toNat_sub, UInt64.toNat_add, hn, UInt64.size, UInt64.toNat_one] at hb h ⊢
  omega

/-! ## Batches -/

/-- The fields of `rollup.Config` that `TimestampToBlock` reads. -/
structure RollupConfig where
  genesisL2Time : UInt64
  genesisL2Number : UInt64
  blockTime : UInt64
  deriving DecidableEq, Repr

/-- `TimestampToBlock`: the L2 block of a timestamp, in `uint64`. Go panics on a block time of
    `0`. -/
def timestampToBlock (rollupCfg : RollupConfig) (l2Timestamp : UInt64) : Except String UInt64 :=
  if rollupCfg.blockTime = 0 then .error "runtime error: integer divide by zero"
  else .ok ((l2Timestamp - rollupCfg.genesisL2Time) / rollupCfg.blockTime + rollupCfg.genesisL2Number)

/-- A batch of a channel, as `GetSpanBatchRanges` reads it through `derive.Batch`: a singular
    batch, a span batch of `blockCount` L2 blocks, or the typed nil that `processFrames` appends
    when a batch fails to decode. -/
inductive Batch where
  | singular (timestamp : UInt64)
  | span (timestamp : UInt64) (blockCount : Nat)
  | nil
  deriving DecidableEq, Repr

/-- `GetTimestamp()`: the timestamp of the batch's first block. On the nil batch the method
    dereferences nil. -/
def Batch.getTimestamp : Batch → Except String UInt64
  | .singular timestamp => .ok timestamp
  | .span timestamp _ => .ok timestamp
  | .nil => .error "runtime error: invalid memory address or nil pointer dereference"

/-- `AsSpanBatch()`, then `GetBlockCount()`: the block count of a span batch. The loop never
    asks the nil batch, whose `GetTimestamp()` has panicked first. -/
def Batch.asSpanBatch : Batch → Option Nat
  | .span _ blockCount => some blockCount
  | _ => none

/-- `SpanBatchRange`: the L2 blocks `[Start, End]`. The fields keep Go's names, since `end` is a
    keyword of Lean. -/
structure SpanBatchRange where
  Start : UInt64
  End : UInt64
  deriving DecidableEq, Repr

/-! ## `GetSpanBatchRanges` -/

section GetSpanBatchRanges

variable {Frame ChannelID : Type} [DecidableEq ChannelID]

/-- One iteration of the loop that builds `framesByChannel`: append `frame` to its channel's
    frames. Entries are kept in the order their channels first appear. -/
def appendFrame (frameId : Frame → ChannelID) (framesByChannel : List (ChannelID × List Frame))
    (frame : Frame) : List (ChannelID × List Frame) :=
  if framesByChannel.any (·.1 = frameId frame) then
    framesByChannel.map fun e => if e.1 = frameId frame then (e.1, e.2 ++ [frame]) else e
  else framesByChannel ++ [(frameId frame, [frame])]

/-- `framesByChannel`: the frames grouped by their channel `frame.Frame.ID`. -/
def groupFrames (frameId : Frame → ChannelID) (frames : List Frame) :
    List (ChannelID × List Frame) :=
  frames.foldl (appendFrame frameId) []

/-- How the loop over a channel's batches ends: a `return`, or the channel's last batch. -/
inductive BatchLoopEnd where
  | returned (ranges : List SpanBatchRange)
  | finished (ranges : List SpanBatchRange)
  deriving DecidableEq, Repr

/-- The loop `for idx, b := range ch.Batches` on the ranges found so far. -/
def batchLoop (rollupCfg : RollupConfig) (startBlock endBlock : UInt64) :
    List SpanBatchRange → List Batch → Except String BatchLoopEnd
  | ranges, [] => .ok (.finished ranges)
  | ranges, b :: bs => do
    let batchStartBlock ← b.getTimestamp >>= timestampToBlock rollupCfg
    match b.asSpanBatch with
    | none => pure (.returned (ranges ++ [⟨startBlock, endBlock⟩]))
    | some blockCount =>
      let batchEndBlock := batchStartBlock + UInt64.ofNat blockCount - 1
      if batchStartBlock > endBlock ∨ batchEndBlock < startBlock then
        batchLoop rollupCfg startBlock endBlock ranges bs
      else
        batchLoop rollupCfg startBlock endBlock
          (ranges ++ [⟨max startBlock batchStartBlock, min endBlock batchEndBlock⟩]) bs

/-- The loop `for id, frames := range framesByChannel`, over the entries in the order visited. -/
def channelLoop (processFrames : ChannelID → List Frame → List Batch) (rollupCfg : RollupConfig)
    (startBlock endBlock : UInt64) :
    List SpanBatchRange → List (ChannelID × List Frame) → Except String (List SpanBatchRange)
  | ranges, [] => .ok ranges
  | ranges, (id, frames) :: rest => do
    let ch := processFrames id frames
    if ch.isEmpty then throw "no span batches in channel"
    match ← batchLoop rollupCfg startBlock endBlock ranges ch with
    | .returned ranges => pure ranges
    | .finished ranges => channelLoop processFrames rollupCfg startBlock endBlock ranges rest

/-- `GetSpanBatchRanges` on the frames `reassemble.LoadFrames` returns. `frameId` is a frame's
    channel, `processFrames` op-node's decoding of a channel's frames, and `visit` the order in
    which Go's runtime visits the entries of `framesByChannel`. The unused
    `maxSpanBatchDeviation` is left out. -/
def getSpanBatchRanges (frameId : Frame → ChannelID)
    (processFrames : ChannelID → List Frame → List Batch)
    (visit : List (ChannelID × List Frame) → List (ChannelID × List Frame)) (frames : List Frame)
    (rollupCfg : RollupConfig) (startBlock endBlock : UInt64) :
    Except String (List SpanBatchRange) :=
  channelLoop processFrames rollupCfg startBlock endBlock [] (visit (groupFrames frameId frames))

end GetSpanBatchRanges

/-! ## `framesByChannel`

The loop that builds `framesByChannel` keeps a map: each channel once, holding its frames in the
order `LoadFrames` returned them. The invariant is stated after any prefix of the frames, kept by
one iteration (`GroupedBy.appendFrame`), and so by the whole loop (`groupFrames_groupedBy`). -/

section FramesByChannel

variable {Frame ChannelID : Type} [DecidableEq ChannelID] {frameId : Frame → ChannelID}

/-- `m` is `framesByChannel` after the frames `seen`: each channel once, with its frames of `seen`
    in order, and every frame of `seen` under its channel. -/
structure GroupedBy (frameId : Frame → ChannelID) (seen : List Frame)
    (m : List (ChannelID × List Frame)) : Prop where
  nodup : (m.map Prod.fst).Nodup
  frames : ∀ ch ∈ m, ch.2 = seen.filter (frameId · = ch.1)
  complete : ∀ f ∈ seen, frameId f ∈ m.map Prod.fst

theorem GroupedBy.nil : GroupedBy frameId [] [] :=
  ⟨List.nodup_nil, List.forall_mem_nil _, List.forall_mem_nil _⟩

/-- **One iteration** appends the frame to its channel, or opens the channel. -/
theorem GroupedBy.appendFrame {seen : List Frame} {m : List (ChannelID × List Frame)}
    (h : GroupedBy frameId seen m) (f : Frame) :
    GroupedBy frameId (seen ++ [f]) (appendFrame frameId m f) := by
  unfold Proposer.appendFrame
  split
  · next hany =>
    have hkeys : (m.map fun e => if e.1 = frameId f then (e.1, e.2 ++ [f]) else e).map Prod.fst =
        m.map Prod.fst := by
      rw [List.map_map]
      exact List.map_congr_left fun e _ => by by_cases he : e.1 = frameId f <;> simp [he]
    refine ⟨hkeys ▸ h.nodup, fun ch hch => ?_, fun g hg => hkeys ▸ ?_⟩
    · obtain ⟨e, he, rfl⟩ := List.mem_map.1 hch
      by_cases hid : e.1 = frameId f
      · rw [if_pos hid]
        dsimp only
        rw [List.filter_append, ← h.frames e he]
        simp [hid]
      · rw [if_neg hid, List.filter_append, ← h.frames e he]
        simp [Ne.symm hid]
    · rcases List.mem_append.1 hg with hg | hg
      · exact h.complete g hg
      · rw [List.mem_singleton.1 hg]
        simpa using hany
  · next hany =>
    have hnew : frameId f ∉ m.map Prod.fst := by simpa using hany
    have hold (g : Frame) (hg : g ∈ seen) : frameId g ≠ frameId f := fun hgf =>
      hnew (hgf ▸ h.complete g hg)
    refine ⟨?_, fun ch hch => ?_, fun g hg => ?_⟩
    · rw [List.map_append, List.nodup_append_comm]
      exact List.nodup_cons.2 ⟨hnew, h.nodup⟩
    · rcases List.mem_append.1 hch with hch | hch
      · have hne : frameId f ≠ ch.1 := fun hf => hnew (hf ▸ List.mem_map_of_mem _ hch)
        simp [List.filter_append, ← h.frames ch hch, hne]
      · obtain rfl := List.mem_singleton.1 hch
        simpa [List.filter_append, List.filter_eq_nil_iff] using hold
    · rw [List.map_append, List.mem_append]
      rcases List.mem_append.1 hg with hg | hg
      · exact .inl (h.complete g hg)
      · simp [List.mem_singleton.1 hg]

/-- **The whole loop.** `framesByChannel` lists each channel of the frames once, with exactly its
    frames, in the order they were loaded. -/
theorem groupFrames_groupedBy (frames : List Frame) :
    GroupedBy frameId frames (groupFrames frameId frames) := by
  suffices ∀ (seen : List Frame) m, GroupedBy frameId seen m →
      GroupedBy frameId (seen ++ frames) (frames.foldl (appendFrame frameId) m) from
    this [] [] GroupedBy.nil
  induction frames with
  | nil => exact fun _ _ h => by simpa using h
  | cons f frames ih =>
    exact fun seen m h => by simpa using ih (seen ++ [f]) _ (h.appendFrame f)

end FramesByChannel

/-! ## Clipping

What the clipping should compute, in `Nat`: the block range `[b, b + n - 1]` of a span batch,
`b` its `TimestampToBlock`, and its part inside the target range. -/

/-- The L2 block range of a span batch, in `Nat`. -/
def Batch.blockRange (rollupCfg : RollupConfig) (bt : Batch) : Option (Nat × Nat) :=
  match bt.getTimestamp >>= timestampToBlock rollupCfg, bt.asSpanBatch with
  | .ok b, some n => some (b.toNat, b.toNat + n - 1)
  | _, _ => none

/-- The part of `[lo, hi]` inside `[startBlock, endBlock]`, when they meet. -/
def clipTo (startBlock endBlock : Nat) (r : Nat × Nat) : Option (Nat × Nat) :=
  if r.1 ≤ endBlock ∧ startBlock ≤ r.2 then some (max startBlock r.1, min endBlock r.2) else none

/-- The clip of a span batch to `[startBlock, endBlock]`. -/
def Batch.clip (rollupCfg : RollupConfig) (startBlock endBlock : Nat) (bt : Batch) :
    Option (Nat × Nat) :=
  (bt.blockRange rollupCfg).bind (clipTo startBlock endBlock)

/-- A span batch of at least one block whose range does not wrap. -/
def Batch.WellFormed (rollupCfg : RollupConfig) (bt : Batch) : Prop :=
  ∃ b n, (bt.getTimestamp >>= timestampToBlock rollupCfg) = .ok b ∧ bt.asSpanBatch = some n ∧ 1 ≤ n ∧
    b.toNat + n - 1 < 2 ^ 64

instance (rollupCfg : RollupConfig) (bt : Batch) : Decidable (bt.WellFormed rollupCfg) :=
  match h₁ : bt.getTimestamp >>= timestampToBlock rollupCfg, h₂ : bt.asSpanBatch with
  | .ok b, some n =>
    if h : 1 ≤ n ∧ b.toNat + n - 1 < 2 ^ 64 then isTrue ⟨b, n, h₁, h₂, h⟩
    else isFalse fun ⟨b', n', h₁', h₂', h'⟩ => h (by
      cases h₁.symm.trans h₁'
      cases h₂.symm.trans h₂'
      exact h')
  | .error _, _ => isFalse fun ⟨_, _, h, _⟩ => nomatch h₁.symm.trans h
  | .ok _, none => isFalse fun ⟨_, _, _, h, _⟩ => nomatch h₂.symm.trans h

/-- A range read in `Nat`. -/
def SpanBatchRange.toNat (r : SpanBatchRange) : Nat × Nat := (r.Start.toNat, r.End.toNat)

theorem SpanBatchRange.ofNat_toNat (r : SpanBatchRange) :
    (⟨UInt64.ofNat r.toNat.1, UInt64.ofNat r.toNat.2⟩ : SpanBatchRange) = r := by
  have h (x : UInt64) : UInt64.ofNat x.toNat = x :=
    UInt64.toNat.inj (Nat.mod_eq_of_lt x.toNat_lt)
  simp only [SpanBatchRange.toNat, h]

/-- Ranges read in `Nat` determine the ranges, so a permutation of the readings is one of the
    ranges. -/
theorem SpanBatchRange.perm_of_map_toNat {rs rs' : List SpanBatchRange}
    (h : (rs.map SpanBatchRange.toNat).Perm (rs'.map SpanBatchRange.toNat)) : rs.Perm rs' := by
  simpa only [List.map_map, Function.comp_def, SpanBatchRange.ofNat_toNat, List.map_id'] using
    h.map fun p => (⟨UInt64.ofNat p.1, UInt64.ofNat p.2⟩ : SpanBatchRange)

/-- The clip of a batch covers `x` exactly when the target range and the batch's range do. -/
theorem Batch.clip_covers (rollupCfg : RollupConfig) (bt : Batch) (startBlock endBlock x : Nat) :
    (∃ c, bt.clip rollupCfg startBlock endBlock = some c ∧ c.1 ≤ x ∧ x ≤ c.2) ↔
      startBlock ≤ x ∧ x ≤ endBlock ∧
        ∃ lo hi, bt.blockRange rollupCfg = some (lo, hi) ∧ lo ≤ x ∧ x ≤ hi := by
  unfold Batch.clip
  rcases bt.blockRange rollupCfg with _ | ⟨lo, hi⟩
  · simp
  · simp only [Option.some_bind, clipTo, Option.some.injEq, Prod.mk.injEq]
    split_ifs with h
    · simp only [Option.some.injEq, exists_and_left, exists_eq_left', and_assoc, max_le_iff,
        le_min_iff]
      omega
    · simp only [reduceCtorEq, false_and, exists_false, false_iff, exists_and_left, exists_eq_left']
      omega

/-- The clip of a well-formed batch to a non-empty target range lies inside it. -/
theorem Batch.clip_bounds {rollupCfg : RollupConfig} {bt : Batch} (h : bt.WellFormed rollupCfg)
    {startBlock endBlock : Nat} {c : Nat × Nat} (hc : bt.clip rollupCfg startBlock endBlock = some c)
    (hle : startBlock ≤ endBlock) : startBlock ≤ c.1 ∧ c.1 ≤ c.2 ∧ c.2 ≤ endBlock := by
  obtain ⟨b, n, hb, hn, h1, -⟩ := h
  simp only [Batch.clip, Batch.blockRange, hb, hn, Option.some_bind, clipTo] at hc
  split_ifs at hc with hmeet
  obtain rfl := Option.some.inj hc
  simp only
  omega

section Loops

variable {Frame ChannelID : Type} (rollupCfg : RollupConfig)
  (startBlock endBlock : UInt64)

/-- **One span batch.** The loop's test and clip, in `uint64`, compute `Batch.clip`. -/
theorem batchLoop_span {bt : Batch} (h : bt.WellFormed rollupCfg) (ranges : List SpanBatchRange) :
    ∃ new : List SpanBatchRange,
      new.map SpanBatchRange.toNat = (bt.clip rollupCfg startBlock.toNat endBlock.toNat).toList ∧
      ∀ bs, batchLoop rollupCfg startBlock endBlock ranges (bt :: bs) =
        batchLoop rollupCfg startBlock endBlock (ranges ++ new) bs := by
  obtain ⟨b, n, hb, hn, h1, hfit⟩ := h
  have hend := UInt64.toNat_lastBlock b n h1 hfit
  have hclip : bt.clip rollupCfg startBlock.toNat endBlock.toNat =
      clipTo startBlock.toNat endBlock.toNat (b.toNat, b.toNat + n - 1) := by
    simp only [Batch.clip, Batch.blockRange, hb, hn, Option.some_bind]
  have hloop (bs : List Batch) : batchLoop rollupCfg startBlock endBlock ranges (bt :: bs) =
      if b > endBlock ∨ b + UInt64.ofNat n - 1 < startBlock then
        batchLoop rollupCfg startBlock endBlock ranges bs
      else batchLoop rollupCfg startBlock endBlock
        (ranges ++ [⟨max startBlock b, min endBlock (b + UInt64.ofNat n - 1)⟩]) bs := by
    rw [batchLoop, hb]
    simp only [hn, bind, Except.bind]
  rw [hclip, clipTo]
  by_cases hskip : b > endBlock ∨ b + UInt64.ofNat n - 1 < startBlock
  · refine ⟨[], ?_, fun bs => by rw [hloop, if_pos hskip, List.append_nil]⟩
    simp only [UInt64.lt_iff_toNat_lt, hend] at hskip
    rw [if_neg (by omega)]
    rfl
  · refine ⟨_, ?_, fun bs => by rw [hloop, if_neg hskip]⟩
    simp only [UInt64.lt_iff_toNat_lt, hend] at hskip
    rw [if_pos (by omega)]
    simp only [List.map_cons, List.map_nil, SpanBatchRange.toNat, UInt64.toNat_max, UInt64.toNat_min,
      hend, Option.toList_some]

/-- A run of span batches appends their clips and leaves the loop where they end. -/
theorem batchLoop_append_span (bs₁ : List Batch) (hbs₁ : ∀ bt ∈ bs₁, bt.WellFormed rollupCfg)
    (ranges : List SpanBatchRange) :
    ∃ new : List SpanBatchRange,
      new.map SpanBatchRange.toNat =
        bs₁.filterMap (Batch.clip rollupCfg startBlock.toNat endBlock.toNat) ∧
      ∀ bs₂, batchLoop rollupCfg startBlock endBlock ranges (bs₁ ++ bs₂) =
        batchLoop rollupCfg startBlock endBlock (ranges ++ new) bs₂ := by
  induction bs₁ generalizing ranges with
  | nil => exact ⟨[], rfl, fun _ => by rw [List.nil_append, List.append_nil]⟩
  | cons bt bs ih =>
    obtain ⟨new₁, hmap₁, hstep⟩ :=
      batchLoop_span rollupCfg startBlock endBlock (hbs₁ bt (List.mem_cons_self _ _)) ranges
    obtain ⟨new₂, hmap₂, hrest⟩ :=
      ih (fun bt' h => hbs₁ bt' (List.mem_cons_of_mem _ h)) (ranges ++ new₁)
    refine ⟨new₁ ++ new₂, ?_, fun bs₂ => ?_⟩
    · rw [List.map_append, hmap₁, hmap₂, List.filterMap_cons]
      cases bt.clip rollupCfg startBlock.toNat endBlock.toNat <;> rfl
    · rw [List.cons_append, hstep, hrest, List.append_assoc]

/-- A run of channels of span batches appends the clips of their batches. -/
theorem channelLoop_append_span (processFrames : ChannelID → List Frame → List Batch)
    (pre : List (ChannelID × List Frame)) (hne : ∀ ch ∈ pre, processFrames ch.1 ch.2 ≠ [])
    (hspan : ∀ ch ∈ pre, ∀ bt ∈ processFrames ch.1 ch.2, bt.WellFormed rollupCfg)
    (ranges : List SpanBatchRange) :
    ∃ new : List SpanBatchRange,
      new.map SpanBatchRange.toNat = (pre.flatMap fun ch => processFrames ch.1 ch.2).filterMap
        (Batch.clip rollupCfg startBlock.toNat endBlock.toNat) ∧
      ∀ rest, channelLoop processFrames rollupCfg startBlock endBlock ranges (pre ++ rest) =
        channelLoop processFrames rollupCfg startBlock endBlock (ranges ++ new) rest := by
  induction pre generalizing ranges with
  | nil => exact ⟨[], rfl, fun _ => by rw [List.nil_append, List.append_nil]⟩
  | cons ch pre ih =>
    obtain ⟨new₁, hmap₁, hloop⟩ := batchLoop_append_span rollupCfg startBlock endBlock
      (processFrames ch.1 ch.2) (hspan ch (List.mem_cons_self _ _)) ranges
    obtain ⟨new₂, hmap₂, hrest⟩ := ih (fun c h => hne c (List.mem_cons_of_mem _ h))
      (fun c h => hspan c (List.mem_cons_of_mem _ h)) (ranges ++ new₁)
    refine ⟨new₁ ++ new₂, ?_, fun rest => ?_⟩
    · rw [List.map_append, hmap₁, hmap₂, List.flatMap_cons, List.filterMap_append]
    · have hb := hloop []
      have hem : (processFrames ch.1 ch.2).isEmpty = false := by
        simpa [List.isEmpty_iff] using hne ch (List.mem_cons_self _ _)
      rw [List.append_nil] at hb
      obtain ⟨id, frames⟩ := ch
      simp only [List.cons_append, channelLoop, hem, hb, batchLoop, Bool.false_eq_true, if_false,
        bind, Except.bind, pure, Except.pure, List.append_eq, hrest, List.append_assoc]

theorem timestampToBlock_error {rollupCfg : RollupConfig} {t : UInt64} {e : String}
    (h : timestampToBlock rollupCfg t = .error e) : e = "runtime error: integer divide by zero" := by
  unfold timestampToBlock at h
  split_ifs at h
  exact (Except.error.inj h).symm

/-- The first statement of the loop's body, `TimestampToBlock(rollupCfg, b.GetTimestamp())`,
    fails only where a method of the nil batch or `TimestampToBlock` panics. -/
theorem batchStartBlock_error {rollupCfg : RollupConfig} {b : Batch} {e : String}
    (h : (b.getTimestamp >>= timestampToBlock rollupCfg) = .error e) :
    e = "runtime error: invalid memory address or nil pointer dereference" ∨
      e = "runtime error: integer divide by zero" := by
  cases b with
  | nil => exact .inl (Except.error.inj h).symm
  | singular t | span t _ => exact .inr (timestampToBlock_error h)

/-- The loop over a channel's batches fails only where its first statement panics. -/
theorem batchLoop_error {ranges : List SpanBatchRange} {bs : List Batch} {e : String}
    (h : batchLoop rollupCfg startBlock endBlock ranges bs = .error e) :
    e = "runtime error: invalid memory address or nil pointer dereference" ∨
      e = "runtime error: integer divide by zero" := by
  induction bs generalizing ranges with
  | nil => exact nomatch h
  | cons b bs ih =>
    rw [batchLoop] at h
    cases hb : b.getTimestamp >>= timestampToBlock rollupCfg with
    | error e' => rw [hb] at h; exact (Except.error.inj h) ▸ batchStartBlock_error hb
    | ok batchStartBlock =>
      rw [hb] at h
      split at h <;> simp only [bind, Except.bind, pure, Except.pure, reduceCtorEq] at h
      split at h
      exacts [ih h, ih h]

/-- The loop over the channels fails only with `log.Fatalf`'s message for a channel without
    batches, or where the loop over a channel's batches panics. -/
theorem channelLoop_error (processFrames : ChannelID → List Frame → List Batch)
    {ranges : List SpanBatchRange} {chs : List (ChannelID × List Frame)} {e : String}
    (h : channelLoop processFrames rollupCfg startBlock endBlock ranges chs = .error e) :
    e = "no span batches in channel" ∨
      e = "runtime error: invalid memory address or nil pointer dereference" ∨
      e = "runtime error: integer divide by zero" := by
  induction chs generalizing ranges with
  | nil => exact nomatch h
  | cons ch chs ih =>
    obtain ⟨id, frames⟩ := ch
    cases hem : (processFrames id frames).isEmpty
    · simp only [channelLoop, hem, Bool.false_eq_true, if_false, bind, Except.bind, pure,
        Except.pure] at h
      split at h
      · next e' hb =>
        exact .inr ((Except.error.inj h) ▸ batchLoop_error rollupCfg startBlock endBlock hb)
      · split at h
        · exact nomatch h
        · exact ih h
    · simp only [channelLoop, hem, if_true] at h
      exact .inl (Except.error.inj h).symm

end Loops

section Results

variable {Frame ChannelID : Type} [DecidableEq ChannelID]

/-- **Clipping.** When every channel yields a batch and every batch is a well-formed span batch,
    `GetSpanBatchRanges` returns, in the order it visits them, one range for each batch whose
    block range `[b, b + n - 1]` meets `[startBlock, endBlock]`, namely
    `[max startBlock b, min endBlock (b + n - 1)]`. Each range lies inside the target range, and
    together they cover exactly the blocks of the target range that some batch covers. -/
theorem getSpanBatchRanges_clips (frameId : Frame → ChannelID)
    (processFrames : ChannelID → List Frame → List Batch)
    (visit : List (ChannelID × List Frame) → List (ChannelID × List Frame)) (frames : List Frame)
    (rollupCfg : RollupConfig) (startBlock endBlock : UInt64) (hle : startBlock ≤ endBlock)
    (hne : ∀ ch ∈ visit (groupFrames frameId frames), processFrames ch.1 ch.2 ≠ [])
    (hspan : ∀ ch ∈ visit (groupFrames frameId frames), ∀ bt ∈ processFrames ch.1 ch.2,
      bt.WellFormed rollupCfg) :
    ∃ ranges, getSpanBatchRanges frameId processFrames visit frames rollupCfg startBlock endBlock =
        .ok ranges ∧
      ranges.map SpanBatchRange.toNat =
        ((visit (groupFrames frameId frames)).flatMap fun ch => processFrames ch.1 ch.2).filterMap
          (Batch.clip rollupCfg startBlock.toNat endBlock.toNat) ∧
      (∀ r ∈ ranges, startBlock ≤ r.Start ∧ r.Start ≤ r.End ∧ r.End ≤ endBlock) ∧
      ∀ x : Nat, (∃ r ∈ ranges, r.Start.toNat ≤ x ∧ x ≤ r.End.toNat) ↔
        startBlock.toNat ≤ x ∧ x ≤ endBlock.toNat ∧
          ∃ ch ∈ visit (groupFrames frameId frames), ∃ bt ∈ processFrames ch.1 ch.2,
            ∃ lo hi, bt.blockRange rollupCfg = some (lo, hi) ∧ lo ≤ x ∧ x ≤ hi := by
  obtain ⟨ranges, hmap, hrun⟩ :=
    channelLoop_append_span rollupCfg startBlock endBlock processFrames _ hne hspan []
  have hres := hrun []
  rw [List.append_nil, List.nil_append] at hres
  refine ⟨ranges, hres, hmap, fun r hr => ?_, fun x => ?_⟩
  · have hmem : r.toNat ∈ ranges.map SpanBatchRange.toNat := List.mem_map_of_mem _ hr
    rw [hmap, List.mem_filterMap] at hmem
    obtain ⟨bt, hbt, hc⟩ := hmem
    obtain ⟨ch, hch, hbt⟩ := List.mem_flatMap.1 hbt
    exact Batch.clip_bounds (hspan ch hch bt hbt) hc hle
  · have hx : (∃ r ∈ ranges, r.Start.toNat ≤ x ∧ x ≤ r.End.toNat) ↔
        ∃ c ∈ ranges.map SpanBatchRange.toNat, c.1 ≤ x ∧ x ≤ c.2 := by
      simp [SpanBatchRange.toNat]
    rw [hx, hmap]
    simp only [List.mem_filterMap, List.mem_flatMap]
    constructor
    · rintro ⟨c, ⟨bt, ⟨ch, hch, hbt⟩, hc⟩, hcx⟩
      obtain ⟨hs, he, lo, hi, hr, hlo, hhi⟩ :=
        (Batch.clip_covers rollupCfg bt _ _ x).1 ⟨c, hc, hcx⟩
      exact ⟨hs, he, ch, hch, bt, hbt, lo, hi, hr, hlo, hhi⟩
    · rintro ⟨hs, he, ch, hch, bt, hbt, lo, hi, hr, hlo, hhi⟩
      obtain ⟨c, hc, hcx⟩ :=
        (Batch.clip_covers rollupCfg bt _ _ x).2 ⟨hs, he, lo, hi, hr, hlo, hhi⟩
      exact ⟨c, ⟨bt, ⟨ch, hch, hbt⟩, hc⟩, hcx⟩

/-- **Errors.** `GetSpanBatchRanges` fails only with `log.Fatalf`'s message for a channel that
    decodes to no batch, with the panic of a method called on a nil batch, or with the panic of
    `TimestampToBlock` on a block time of `0`. -/
theorem getSpanBatchRanges_error (frameId : Frame → ChannelID)
    (processFrames : ChannelID → List Frame → List Batch)
    (visit : List (ChannelID × List Frame) → List (ChannelID × List Frame)) (frames : List Frame)
    (rollupCfg : RollupConfig) (startBlock endBlock : UInt64) {e : String}
    (h : getSpanBatchRanges frameId processFrames visit frames rollupCfg startBlock endBlock =
      .error e) :
    e = "no span batches in channel" ∨
      e = "runtime error: invalid memory address or nil pointer dereference" ∨
      e = "runtime error: integer divide by zero" :=
  channelLoop_error rollupCfg startBlock endBlock processFrames h

/-- The rollup of the runs below: genesis at time and block `0`, a block every `2` s. -/
def twoSecondRollup : RollupConfig := ⟨0, 0, 2⟩

/-- Frame `i` is the one frame of channel `i`; channel `0` decodes to the span batch of blocks
    `[0, 9]`, and channel `1` to `second`. -/
def twoChannels (second : Batch) (id : Nat) (_ : List Nat) : List Batch :=
  if id = 0 then [.span 0 10] else [second]

/-- The span batches of blocks `[0, 9]` and `[10, 14]`, clipped to `[5, 12]`. -/
theorem getSpanBatchRanges_clips_two :
    ∃ ranges, getSpanBatchRanges id (twoChannels (.span 20 5)) id [0, 1] twoSecondRollup 5 12 =
        .ok ranges ∧
      ranges.map SpanBatchRange.toNat = [(5, 9), (10, 12)] := by
  obtain ⟨ranges, hres, hmap, -⟩ := getSpanBatchRanges_clips id (twoChannels (.span 20 5)) id
    [0, 1] twoSecondRollup 5 12 (by decide) (by decide) (by decide)
  exact ⟨ranges, hres, hmap.trans (by decide)⟩

/-- **The fallback keeps what came before.** When the runtime visits channels `pre` of span
    batches, then a channel whose batches are span batches `bs₁` followed by a batch `bt` that is
    not, nor nil, `GetSpanBatchRanges` returns the clips of the span batches visited before `bt`, followed
    by `[startBlock, endBlock]`. -/
theorem getSpanBatchRanges_fallback (frameId : Frame → ChannelID)
    (processFrames : ChannelID → List Frame → List Batch)
    (visit : List (ChannelID × List Frame) → List (ChannelID × List Frame)) (frames : List Frame)
    (rollupCfg : RollupConfig) (startBlock endBlock : UInt64)
    (pre post : List (ChannelID × List Frame)) (ch : ChannelID × List Frame)
    (bs₁ bs₂ : List Batch) (bt : Batch)
    (hvisit : visit (groupFrames frameId frames) = pre ++ ch :: post)
    (hne : ∀ c ∈ pre, processFrames c.1 c.2 ≠ [])
    (hspan : ∀ c ∈ pre, ∀ b ∈ processFrames c.1 c.2, b.WellFormed rollupCfg)
    (hch : processFrames ch.1 ch.2 = bs₁ ++ bt :: bs₂) (hbs₁ : ∀ b ∈ bs₁, b.WellFormed rollupCfg)
    (hbt : bt.asSpanBatch = none) (hnil : bt ≠ .nil) (hbtime : rollupCfg.blockTime ≠ 0) :
    ∃ ranges, getSpanBatchRanges frameId processFrames visit frames rollupCfg startBlock endBlock =
        .ok (ranges ++ [⟨startBlock, endBlock⟩]) ∧
      ranges.map SpanBatchRange.toNat =
        ((pre.flatMap fun c => processFrames c.1 c.2) ++ bs₁).filterMap
          (Batch.clip rollupCfg startBlock.toNat endBlock.toNat) := by
  obtain ⟨new₁, hmap₁, hrun⟩ :=
    channelLoop_append_span rollupCfg startBlock endBlock processFrames pre hne hspan []
  obtain ⟨new₂, hmap₂, hloop⟩ :=
    batchLoop_append_span rollupCfg startBlock endBlock bs₁ hbs₁ new₁
  refine ⟨new₁ ++ new₂, ?_, by rw [List.map_append, hmap₁, hmap₂, List.filterMap_append]⟩
  have hem : (bs₁ ++ bt :: bs₂).isEmpty = false := by simp
  obtain ⟨t, ht⟩ : ∃ t, bt.getTimestamp = .ok t := by
    cases bt with
    | singular t => exact ⟨t, rfl⟩
    | span => exact nomatch hbt
    | nil => exact absurd rfl hnil
  obtain ⟨id, fs⟩ := ch
  simp only [getSpanBatchRanges, hvisit, hrun, List.nil_append, channelLoop, hch, hem,
    Bool.false_eq_true, if_false, bind, Except.bind, hch, hloop, batchLoop, ht, timestampToBlock,
    hbtime, hbt, pure, Except.pure]

/-- Channel `0` holds the span batch of blocks `[0, 9]` and channel `1` a singular batch: visited
    in this order, `[5, 20]` comes after the clip `[5, 9]`. -/
theorem getSpanBatchRanges_fallback_two :
    ∃ ranges, getSpanBatchRanges id (twoChannels (.singular 40)) id [0, 1] twoSecondRollup 5 20 =
        .ok (ranges ++ [⟨5, 20⟩]) ∧
      ranges.map SpanBatchRange.toNat = [(5, 9)] := by
  obtain ⟨ranges, hres, hmap⟩ := getSpanBatchRanges_fallback id (twoChannels (.singular 40)) id
    [0, 1] twoSecondRollup 5 20 [(0, [0])] [] (1, [1]) [] [] (.singular 40) (by decide) (by decide)
    (by decide) rfl nofun rfl (by decide) (by decide)
  exact ⟨ranges, hres, hmap.trans (by decide)⟩

/-- **The fallback depends on the order.** Channel `0` holds the span batch of blocks `[0, 9]`,
    channel `1` a singular batch. Visiting `0` first returns `[5, 9]` and `[5, 20]`, not
    `[5, 20]` alone; visiting `1` first returns `[5, 20]`. The two results are not permutations
    of each other. -/
theorem fallback_depends_on_order :
    getSpanBatchRanges id (twoChannels (.singular 40)) id [0, 1] twoSecondRollup 5 20 =
        .ok [⟨5, 9⟩, ⟨5, 20⟩] ∧
      getSpanBatchRanges id (twoChannels (.singular 40)) List.reverse [0, 1] twoSecondRollup 5 20 =
        .ok [⟨5, 20⟩] ∧
      ¬ [(⟨5, 9⟩ : SpanBatchRange), ⟨5, 20⟩].Perm [⟨5, 20⟩] :=
  ⟨rfl, rfl, by decide⟩

/-- **Span batches alone: the order does not matter.** When every batch is a well-formed span
    batch, two visiting orders that are permutations of one another give permutations of one
    list of ranges. -/
theorem getSpanBatchRanges_perm (frameId : Frame → ChannelID)
    (processFrames : ChannelID → List Frame → List Batch)
    (visit visit' : List (ChannelID × List Frame) → List (ChannelID × List Frame))
    (frames : List Frame) (rollupCfg : RollupConfig) (startBlock endBlock : UInt64)
    (hperm : (visit (groupFrames frameId frames)).Perm (visit' (groupFrames frameId frames)))
    (hne : ∀ ch ∈ visit (groupFrames frameId frames), processFrames ch.1 ch.2 ≠ [])
    (hspan : ∀ ch ∈ visit (groupFrames frameId frames), ∀ bt ∈ processFrames ch.1 ch.2,
      bt.WellFormed rollupCfg) :
    ∃ ranges ranges',
      getSpanBatchRanges frameId processFrames visit frames rollupCfg startBlock endBlock = .ok ranges ∧
      getSpanBatchRanges frameId processFrames visit' frames rollupCfg startBlock endBlock =
        .ok ranges' ∧
      ranges.Perm ranges' := by
  obtain ⟨ranges, hmap, hrun⟩ :=
    channelLoop_append_span rollupCfg startBlock endBlock processFrames _ hne hspan []
  obtain ⟨ranges', hmap', hrun'⟩ := channelLoop_append_span rollupCfg startBlock endBlock
    processFrames _ (fun ch h => hne ch (hperm.mem_iff.2 h))
    (fun ch h => hspan ch (hperm.mem_iff.2 h)) []
  have hres := hrun []
  have hres' := hrun' []
  rw [List.append_nil, List.nil_append] at hres hres'
  refine ⟨ranges, ranges', hres, hres', SpanBatchRange.perm_of_map_toNat ?_⟩
  rw [hmap, hmap']
  exact (hperm.flatMap_right _).filterMap _

/-- Channels `0` and `1` of span batches, visited in either order. -/
theorem getSpanBatchRanges_perm_two :
    ∃ ranges ranges',
      getSpanBatchRanges id (twoChannels (.span 20 5)) id [0, 1] twoSecondRollup 5 12 = .ok ranges ∧
      getSpanBatchRanges id (twoChannels (.span 20 5)) List.reverse [0, 1] twoSecondRollup 5 12 =
        .ok ranges' ∧
      ranges.Perm ranges' :=
  getSpanBatchRanges_perm id (twoChannels (.span 20 5)) id List.reverse [0, 1] twoSecondRollup 5 12
    (List.reverse_perm _).symm (by decide) (by decide)

end Results

/-! ## `GetL1SearchBoundaries` -/

/-- `GetL1SearchBoundaries`. `outputAtBlock n` is the rollup node's answer for the L2 block `n`,
    the number of its L1 origin or the client's error; `blockByNumber n` is the L1 client's answer
    for `big.NewInt(int64(n))`, the block's time or the error. -/
def getL1SearchBoundaries (outputAtBlock : UInt64 → Except String UInt64)
    (blockByNumber : Int → Except String UInt64) (startBlock endBlock : UInt64) :
    Except String (UInt64 × UInt64) := do
  let startL1Origin ← (outputAtBlock startBlock).mapError
    ("failed to get output at start block: " ++ ·)
  let startBlockTime ← (blockByNumber (goInt startL1Origin)).mapError
    ("failed to get block at start L1 origin: " ++ ·)
  let prevBlockTime ← (blockByNumber (goInt (startL1Origin - 1))).mapError
    ("failed to get block at start L1 origin - 1: " ++ ·)
  let l1BlockTime := startBlockTime - prevBlockTime
  let output ← (outputAtBlock endBlock).mapError ("failed to get output at end block: " ++ ·)
  if l1BlockTime = 0 then throw "runtime error: integer divide by zero"
  let endL1Origin := output + 60 / l1BlockTime * 10
  pure (startL1Origin, endL1Origin)

/-- A call whose error is wrapped with a prefix: the call failed, or what follows it did. -/
theorem mapError_bind_error {α β : Type} {x : Except String α} {pfx : String}
    {f : α → Except String β} {e : String} (h : (x.mapError (pfx ++ ·) >>= f) = .error e) :
    (∃ m, x = .error m ∧ e = pfx ++ m) ∨ ∃ a, x = .ok a ∧ f a = .error e := by
  cases x with
  | error m => exact .inl ⟨m, rfl, (Except.error.inj h).symm⟩
  | ok a => exact .inr ⟨a, rfl, h⟩

/-- **Errors.** `GetL1SearchBoundaries` fails only with a client's error behind the message of
    the call that failed, or with the panic of a zero L1 block time. -/
theorem getL1SearchBoundaries_error (outputAtBlock : UInt64 → Except String UInt64)
    (blockByNumber : Int → Except String UInt64) (startBlock endBlock : UInt64) {e : String}
    (h : getL1SearchBoundaries outputAtBlock blockByNumber startBlock endBlock = .error e) :
    (∃ m, e = "failed to get output at start block: " ++ m) ∨
      (∃ m, e = "failed to get block at start L1 origin: " ++ m) ∨
      (∃ m, e = "failed to get block at start L1 origin - 1: " ++ m) ∨
      (∃ m, e = "failed to get output at end block: " ++ m) ∨
      e = "runtime error: integer divide by zero" := by
  rcases mapError_bind_error h with ⟨m, -, rfl⟩ | ⟨_, -, h⟩
  · exact .inl ⟨m, rfl⟩
  rcases mapError_bind_error h with ⟨m, -, rfl⟩ | ⟨_, -, h⟩
  · exact .inr (.inl ⟨m, rfl⟩)
  rcases mapError_bind_error h with ⟨m, -, rfl⟩ | ⟨_, -, h⟩
  · exact .inr (.inr (.inl ⟨m, rfl⟩))
  rcases mapError_bind_error h with ⟨m, -, rfl⟩ | ⟨_, -, h⟩
  · exact .inr (.inr (.inr (.inl ⟨m, rfl⟩)))
  split at h
  · exact .inr (.inr (.inr (.inr (Except.error.inj h).symm)))
  · exact nomatch h

/-- `⌊600 / t⌋` is `10 · ⌊60 / t⌋` and the part `10 · (60 mod t)` contributes. -/
theorem div_six_hundred (t : Nat) (ht : 0 < t) : 600 / t = 10 * (60 / t) + 10 * (60 % t) / t := by
  have h60 := Nat.div_add_mod 60 t
  have h600 : 600 = 10 * (60 % t) + t * (10 * (60 / t)) := by rw [Nat.mul_left_comm]; omega
  rw [h600, Nat.add_mul_div_left _ _ ht, Nat.add_comm]

/-- **The L1 window is `10 · ⌊60 / t⌋` blocks.** When the L1 origins and block times are
    answered, the L1 block time is `t ≥ 1` and nothing overflows, the end bound is
    `o_end + 10 · ⌊60 / t⌋`. It falls short of `o_end + ⌊600 / t⌋` by `⌊10 · (60 mod t) / t⌋`
    blocks: for every `t` with `10 · (60 mod t) ≥ t`, and for every `t > 60`, where the window
    is not extended at all. -/
theorem l1SearchEnd_short (outputAtBlock : UInt64 → Except String UInt64)
    (blockByNumber : Int → Except String UInt64) (startBlock endBlock oStart oEnd tStart tPrev : UInt64)
    (hs : outputAtBlock startBlock = .ok oStart) (he : outputAtBlock endBlock = .ok oEnd)
    (hts : blockByNumber (goInt oStart) = .ok tStart)
    (htp : blockByNumber (goInt (oStart - 1)) = .ok tPrev) (ht : tPrev < tStart)
    (hfit : oEnd.toNat + 600 / (tStart.toNat - tPrev.toNat) < 2 ^ 64) :
    let t := tStart.toNat - tPrev.toNat
    ∃ endL1Origin : UInt64,
      getL1SearchBoundaries outputAtBlock blockByNumber startBlock endBlock = .ok (oStart, endL1Origin) ∧
      endL1Origin.toNat = oEnd.toNat + 10 * (60 / t) ∧
      endL1Origin.toNat + 10 * (60 % t) / t = oEnd.toNat + 600 / t := by
  intro t
  have hlt : tPrev.toNat < tStart.toNat := ht
  have htt : (tStart - tPrev).toNat = t := UInt64.toNat_sub_of_le _ _ (Nat.le_of_lt hlt)
  have ht0 : tStart - tPrev ≠ 0 := fun h => by
    rw [h, UInt64.toNat_zero] at htt
    omega
  have hkey := div_six_hundred t (by omega)
  have hfit' : oEnd.toNat + 10 * (60 / t) < 2 ^ 64 := by
    have : 10 * (60 / t) ≤ 600 / t := hkey ▸ Nat.le_add_right _ _
    exact lt_of_le_of_lt (Nat.add_le_add_left this _) hfit
  have hq : (60 / (tStart - tPrev) * 10).toNat = 10 * (60 / t) := by
    rw [UInt64.toNat_mul, UInt64.toNat_div, htt]
    have : 60 / t ≤ 60 := Nat.div_le_self _ _
    show 60 / t * 10 % 2 ^ 64 = _
    omega
  have hend : (oEnd + 60 / (tStart - tPrev) * 10).toNat = oEnd.toNat + 10 * (60 / t) := by
    rw [UInt64.toNat_add_of_lt (by omega), hq]
  refine ⟨_, ?_, hend, by omega⟩
  simp only [getL1SearchBoundaries, hs, he, hts, htp, ht0, Except.mapError, bind, Except.bind,
    if_false, pure, Except.pure]

/-- An L1 block time of `7` s: the window reaches `80` blocks past the end block's L1 origin
    `100`, where `⌊600 / 7⌋ = 85`. -/
theorem l1SearchEnd_short_seven :
    let outputAtBlock : UInt64 → Except String UInt64 := fun n => if n = 1 then .ok 10 else .ok 100
    let blockByNumber : Int → Except String UInt64 := fun n => if n = 10 then .ok 1007 else .ok 1000
    ∃ endL1Origin : UInt64,
      getL1SearchBoundaries outputAtBlock blockByNumber 1 2 = .ok (10, endL1Origin) ∧
      endL1Origin.toNat = 180 ∧ endL1Origin.toNat + 5 = 100 + 600 / 7 := by
  intro outputAtBlock blockByNumber
  obtain ⟨e, hres, hval, hshort⟩ :=
    l1SearchEnd_short outputAtBlock blockByNumber 1 2 10 100 1007 1000 rfl rfl rfl rfl
      (by decide) (by decide)
  exact ⟨e, hres, hval, hshort⟩

end Proposer
