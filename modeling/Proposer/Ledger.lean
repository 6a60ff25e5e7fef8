import Mathlib.Data.String.Basic

set_option autoImplicit false

/-! # The proof-request ledger

The proposer keeps every proof request in a database table (`ent.ProofRequest`, spec §3) and
reaches it only through the `l.db` calls of `proposer/op/proposer/prove.go`. The database layer
itself is not part of the sources, so every call below is modelled from the spec's §4.1, one
definition per call, under the Go name of the call.

This module holds the rows and the table operations the calls are built from; the calls
themselves, which may fail, are in `Proposer.Store`. -/

/-! ## `uint64` arithmetic

Block numbers and times are Go `uint64`, modelled as `UInt64`, whose `+` and `-` wrap modulo
`2^64` as Go's do. These lemmas read a `UInt64` computation in `Nat`. -/

theorem UInt64.le_iff_toNat_le (a b : UInt64) : a ≤ b ↔ a.toNat ≤ b.toNat := Iff.rfl

theorem UInt64.lt_iff_toNat_lt (a b : UInt64) : a < b ↔ a.toNat < b.toNat := Iff.rfl

theorem UInt64.toNat_add_of_lt {a b : UInt64} (h : a.toNat + b.toNat < 2 ^ 64) :
    (a + b).toNat = a.toNat + b.toNat := by
  rw [UInt64.toNat_add]; exact Nat.mod_eq_of_lt h

/-- Where a sum does wrap, it loses `2^64` once. -/
theorem UInt64.toNat_add_of_le {a b : UInt64} (h : 2 ^ 64 ≤ a.toNat + b.toNat) :
    (a + b).toNat = a.toNat + b.toNat - 2 ^ 64 := by
  have ha := a.toNat_lt
  have hb := b.toNat_lt
  rw [UInt64.toNat_add]
  show (a.toNat + b.toNat) % 2 ^ 64 = _
  rw [Nat.mod_eq_sub_mod h, Nat.mod_eq_of_lt (by omega)]

@[simp] theorem UInt64.toNat_one : (1 : UInt64).toNat = 1 := rfl

@[simp] theorem UInt64.toNat_two : (2 : UInt64).toNat = 2 := rfl

namespace Proposer

/-- `proofrequest.Type`: a proof of one L2 block range, or an aggregate of span proofs. -/
inductive ProofType where
  | span
  | agg
  deriving DecidableEq, Repr

/-- `proofrequest.Status`: the lifecycle `UNREQ → REQ → (COMPLETE | FAILED)` of a record. -/
inductive ProofRequestStatus where
  | unreq
  | req
  | complete
  | failed
  deriving DecidableEq, Repr

/-- Go's `[]byte`. -/
abbrev Bytes := List UInt8

/-- `ent.ProofRequest`: one row of the ledger (spec §3). Block numbers and times are Go `uint64`. -/
structure ProofRequest where
  id : Nat
  type : ProofType
  startBlock : UInt64
  endBlock : UInt64
  status : ProofRequestStatus
  requestAddedTime : UInt64
  proverRequestId : String
  proofRequestTime : UInt64
  l1BlockNumber : UInt64
  l1BlockHash : String
  proof : Bytes
  deriving DecidableEq, Repr

/-- The table: its rows in insertion order, and the id the next insert assigns. -/
structure Ledger where
  recs : List ProofRequest
  nextId : Nat
  deriving DecidableEq, Repr

namespace Ledger

/-- The empty table. -/
def empty : Ledger := ⟨[], 0⟩

/-- The record with id `id`, if any. -/
def find? (L : Ledger) (id : Nat) : Option ProofRequest :=
  L.recs.find? (·.id = id)

/-- Apply `f` to the record with id `id`; the other rows are untouched. -/
def modify (L : Ledger) (id : Nat) (f : ProofRequest → ProofRequest) : Ledger :=
  { L with recs := L.recs.map fun r => if r.id = id then f r else r }

/-- The fresh row `insert` appends: `UNREQ`, no prover id, no proof, no checkpoint. -/
def freshRecord (id : Nat) (type : ProofType) (startBlock endBlock addedTime : UInt64) :
    ProofRequest :=
  { id, type, startBlock, endBlock, status := .unreq, requestAddedTime := addedTime,
    proverRequestId := "", proofRequestTime := 0, l1BlockNumber := 0, l1BlockHash := "",
    proof := [] }

/-- Spec §4.1 `insert`: append a fresh `UNREQ` record under the next id. -/
def insert (L : Ledger) (type : ProofType) (startBlock endBlock addedTime : UInt64) : Ledger :=
  ⟨L.recs ++ [freshRecord L.nextId type startBlock endBlock addedTime], L.nextId + 1⟩

/-- The rows a checkpoint of `[startBlock, endBlock]` updates: the unrequested `AGG` records of
    that range. -/
def checkpointTarget (startBlock endBlock : UInt64) (r : ProofRequest) : Prop :=
  r.type = .agg ∧ r.startBlock = startBlock ∧ r.endBlock = endBlock ∧ r.status = .unreq

instance (startBlock endBlock : UInt64) : DecidablePred (checkpointTarget startBlock endBlock) :=
  fun _ => inferInstanceAs (Decidable (_ ∧ _))

/-- Record the L1 block `l1BlockNumber`, `l1BlockHash` on the checkpoint targets of the range. -/
def checkpoint (L : Ledger) (startBlock endBlock l1BlockNumber : UInt64) (l1BlockHash : String) :
    Ledger :=
  { L with recs := L.recs.map fun r =>
      if checkpointTarget startBlock endBlock r then { r with l1BlockNumber, l1BlockHash } else r }

@[simp] theorem insert_recs (L : Ledger) (type : ProofType) (s e t : UInt64) :
    (L.insert type s e t).recs = L.recs ++ [freshRecord L.nextId type s e t] := rfl

@[simp] theorem insert_nextId (L : Ledger) (type : ProofType) (s e t : UInt64) :
    (L.insert type s e t).nextId = L.nextId + 1 := rfl

@[simp] theorem modify_recs (L : Ledger) (id : Nat) (f : ProofRequest → ProofRequest) :
    (L.modify id f).recs = L.recs.map fun r => if r.id = id then f r else r := rfl

@[simp] theorem modify_nextId (L : Ledger) (id : Nat) (f : ProofRequest → ProofRequest) :
    (L.modify id f).nextId = L.nextId := rfl

@[simp] theorem checkpoint_nextId (L : Ledger) (s e n : UInt64) (h : String) :
    (L.checkpoint s e n h).nextId = L.nextId := rfl

end Ledger

end Proposer
