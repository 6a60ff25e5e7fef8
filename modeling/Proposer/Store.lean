import Proposer.Gateway
import Mathlib.Logic.Relation

set_option autoImplicit false

/-! # Ledger calls that may fail

The proposer's passes run against a `Store`: the ledger, the fate of each ledger call still to
come in the current step (`true`: that call fails and changes nothing), and the `POST`s sent to
the prover service during the step. `DbM` is `Except` over that state, so that a pass which stops
at an error keeps the writes it made before it, as Go's early `return err` does. The passes are
written in `DbM` with `do`-notation that follows the Go code line by line.

`DbM.Keeps R x` says that `x` moves the ledger only along the preorder `R`, whatever the faults
and wherever `x` stops. It composes through `bind`, `forM` and the branches of a pass
(`keeps_bind`, `keeps_forM`), so a fact about how the ledger may change is proved once per ledger
call and then holds of every pass built from those calls. -/

namespace Proposer

/-- What the proposer's code runs against: the ledger, the fate of each ledger call still to come
    in this step (`true`: that call fails; an exhausted list means every call succeeds), and the
    calls sent to the prover service so far in this step. -/
structure Store where
  ledger : Ledger
  faults : List Bool
  sent : List ProverCall

/-- The proposer's code: it reads and writes the ledger and may stop with an error, keeping the
    writes it made before. -/
def DbM (α : Type) : Type := Store → Except String α × Store

instance : Monad DbM where
  pure a := fun st => (.ok a, st)
  bind x f := fun st =>
    match x st with
    | (.ok a, st') => f a st'
    | (.error e, st') => (.error e, st')

instance : MonadExceptOf String DbM where
  throw e := fun st => (.error e, st)
  tryCatch x h := fun st =>
    match x st with
    | (.ok a, st') => (.ok a, st')
    | (.error e, st') => h e st'

namespace DbM

variable {α β : Type}

@[simp] theorem pure_apply (a : α) (st : Store) : (pure a : DbM α) st = (.ok a, st) := rfl

@[simp] theorem bind_apply (x : DbM α) (f : α → DbM β) (st : Store) :
    (x >>= f) st = match x st with
      | (.ok a, st') => f a st'
      | (.error e, st') => (.error e, st') := rfl

@[simp] theorem throw_apply (e : String) (st : Store) :
    (throw e : DbM α) st = (.error e, st) := rfl

@[simp] theorem tryCatch_apply (x : DbM α) (h : String → DbM α) (st : Store) :
    (tryCatch x h : DbM α) st = match x st with
      | (.ok a, st') => (.ok a, st')
      | (.error e, st') => h e st' := rfl

/-- One ledger call. When the environment fails it, it returns an error and changes nothing;
    otherwise `f` computes its result and the new ledger. -/
def call (f : Ledger → Except String α × Ledger) : DbM α := fun st =>
  match st.faults with
  | true :: rest => (.error "ledger call failed", { st with faults := rest })
  | _ => ((f st.ledger).1, { st with ledger := (f st.ledger).2, faults := st.faults.tail })

/-- When the environment fails no call, a call runs `f`. -/
theorem call_of_ok {f : Ledger → Except String α × Ledger} {st : Store} (h : true ∉ st.faults) :
    call f st = ((f st.ledger).1, { st with ledger := (f st.ledger).2, faults := st.faults.tail }) := by
  unfold call
  split
  · next rest hf => simp [hf] at h
  · rfl

theorem not_mem_tail {l : List Bool} (h : true ∉ l) : true ∉ l.tail :=
  fun ht => h (List.mem_of_mem_tail ht)

/-- A call that only reads. -/
def read (f : Ledger → α) : DbM α := call fun L => (.ok (f L), L)

/-- A read returns `f` of the ledger unless the environment fails it; the ledger is unchanged. -/
theorem read_apply (f : Ledger → α) (st : Store) :
    read f st = (if st.faults.head? = some true then .error "ledger call failed" else .ok (f st.ledger),
      { st with faults := st.faults.tail }) := by
  rcases st with ⟨L, _ | ⟨_ | _, rest⟩, sent⟩ <;> rfl

/-- A call that writes and cannot fail on its own. -/
def write (f : Ledger → Ledger) : DbM Unit := call fun L => (.ok (), f L)

/-- A write applies `f` unless the environment fails it. -/
theorem write_apply (f : Ledger → Ledger) (st : Store) :
    write f st = if st.faults.head? = some true then (.error "ledger call failed", { st with faults := st.faults.tail })
      else (.ok (), { st with ledger := f st.ledger, faults := st.faults.tail }) := by
  rcases st with ⟨L, _ | ⟨_ | _, rest⟩, sent⟩ <;> rfl

/-- Lift an outcome computed outside the ledger (an RPC's answer). -/
def lift (r : Except String α) : DbM α := fun st => (r, st)

/-- Send `c` to the prover service. -/
def send (c : ProverCall) : DbM Unit := fun st => (.ok (), { st with sent := st.sent ++ [c] })

/-- Go's `fmt.Errorf("<prefix>%w", err)`: prefix the error of `x`. -/
def wrapErr (pfx : String) (x : DbM α) : DbM α := tryCatch x fun e => throw (pfx ++ e)

@[simp] theorem lift_apply (r : Except String α) (st : Store) : lift r st = (r, st) := rfl

@[simp] theorem wrapErr_lift_ok_bind (pfx : String) (a : α) (f : α → DbM β) :
    wrapErr pfx (lift (.ok a)) >>= f = f a := rfl

/-- Wrapping an error does not change the state a program leaves. -/
@[simp] theorem wrapErr_snd (pfx : String) (x : DbM α) (st : Store) :
    (wrapErr pfx x st).2 = (x st).2 := by
  simp only [wrapErr, tryCatch_apply, throw_apply]
  split <;> simp_all

/-- A program followed by `pure` leaves the state the program leaves. -/
@[simp] theorem bind_pure_snd (x : DbM α) (b : β) (st : Store) :
    ((x >>= fun _ => pure b) st).2 = (x st).2 := by
  simp only [bind_apply, pure_apply]
  split <;> simp_all

/-- Run `x` and keep going whatever it returns: the background task logs these errors only. -/
def ignoreErr (x : DbM α) : DbM Unit := tryCatch (x *> pure ()) fun _ => pure ()

@[simp] theorem ignoreErr_apply (x : DbM α) (st : Store) : ignoreErr x st = (.ok (), (x st).2) := by
  show (tryCatch (x >>= fun _ => pure ()) fun _ => pure () : DbM Unit) st = _
  simp only [tryCatch_apply, bind_apply, pure_apply]
  rcases x st with ⟨_ | _, st'⟩ <;> rfl

/-- A call leaves the ledger as it was (the environment failed it) or as `f` makes it. -/
theorem call_ledger (f : Ledger → Except String α × Ledger) (st : Store) :
    (call f st).2.ledger = st.ledger ∨ (call f st).2.ledger = (f st.ledger).2 := by
  unfold call
  split <;> simp

/-- A ledger call sends nothing to the prover. -/
@[simp] theorem call_sent (f : Ledger → Except String α × Ledger) (st : Store) :
    (call f st).2.sent = st.sent := by
  unfold call
  split <;> rfl

/-! ### Preorders a program moves the ledger along -/

/-- `x` changes the ledger only along `R`, whatever the faults and wherever it stops. -/
def Keeps (R : Ledger → Ledger → Prop) (x : DbM α) : Prop :=
  ∀ st, R st.ledger (x st).2.ledger

section Keeps

variable {R : Ledger → Ledger → Prop} (hR : Reflexive R) (hT : Transitive R)

section Refl
include hR

theorem keeps_pure (a : α) : Keeps R (pure a : DbM α) := fun st => hR st.ledger

theorem keeps_throw (e : String) : Keeps R (throw e : DbM α) := fun st => hR st.ledger

theorem keeps_lift (r : Except String α) : Keeps R (lift r) := fun st => hR st.ledger

theorem keeps_send (c : ProverCall) : Keeps R (send c) := fun st => hR st.ledger

theorem keeps_call {f : Ledger → Except String α × Ledger} (hf : ∀ L, R L (f L).2) :
    Keeps R (call f) := by
  intro st
  unfold call
  split
  · exact hR _
  · exact hf _

theorem keeps_read (f : Ledger → α) : Keeps R (read f) := keeps_call hR fun _ => hR _

end Refl

section Trans
include hT

/-- From one store: a program that moves the ledger along `R`, followed by any continuation that
    does, does too. -/
theorem keeps_bind_at {x : DbM α} {f : α → DbM β} {st : Store} (hx : R st.ledger (x st).2.ledger)
    (hf : ∀ a, Keeps R (f a)) : R st.ledger ((x >>= f) st).2.ledger := by
  simp only [bind_apply]
  split
  · next a st' h => rw [h] at hx; exact hT hx (hf a st')
  · next e st' h => rwa [h] at hx

theorem keeps_bind {x : DbM α} {f : α → DbM β} (hx : Keeps R x) (hf : ∀ a, Keeps R (f a)) :
    Keeps R (x >>= f) :=
  fun st => keeps_bind_at hT (hx st) hf

theorem keeps_tryCatch {x : DbM α} {h : String → DbM α} (hx : Keeps R x)
    (hh : ∀ e, Keeps R (h e)) : Keeps R (tryCatch x h) := by
  intro st
  have hst := hx st
  simp only [tryCatch_apply]
  split
  · next a st' h => rwa [h] at hst
  · next e st' h => rw [h] at hst; exact hT hst (hh e st')

end Trans

include hR hT

theorem keeps_wrapErr (pfx : String) {x : DbM α} (hx : Keeps R x) : Keeps R (wrapErr pfx x) :=
  keeps_tryCatch hT hx fun _ => keeps_throw hR _

theorem keeps_ignoreErr {x : DbM α} (hx : Keeps R x) : Keeps R (ignoreErr x) :=
  keeps_tryCatch hT (keeps_bind hT hx fun _ => keeps_pure hR _) fun _ => keeps_pure hR _

theorem keeps_forM {l : List α} {f : α → DbM PUnit} (hf : ∀ a ∈ l, Keeps R (f a)) :
    Keeps R (l.forM f) := by
  induction l with
  | nil => exact keeps_pure hR _
  | cons a l ih =>
    exact keeps_bind hT (hf a (List.mem_cons_self a l))
      fun _ => ih fun b hb => hf b (List.mem_cons_of_mem a hb)

/-- A loop over the rows a read returned, each of which moves the ledger along `R` from every
    ledger the loop reaches from the one it was read from: the premise a row's step may need,
    such as the row's status at the read, is carried along `R`. -/
theorem keeps_read_forM {f : Ledger → List α} {g : α → DbM PUnit}
    (hg : ∀ L, ∀ b ∈ f L, ∀ st, R L st.ledger → R st.ledger (g b st).2.ledger) :
    Keeps R (read f >>= fun l => l.forM g) := by
  have loop : ∀ L (l : List α), (∀ b ∈ l, b ∈ f L) → ∀ st, R L st.ledger →
      R L (l.forM g st).2.ledger := by
    intro L l
    induction l with
    | nil => exact fun _ _ h => h
    | cons b l ih =>
      intro hl st h
      show R L ((g b >>= fun _ => l.forM g) st).2.ledger
      have h1 := hT h (hg L b (hl b (List.mem_cons_self b l)) st h)
      simp only [bind_apply]
      split
      · next st' he => rw [he] at h1; exact ih (fun c hc => hl c (List.mem_cons_of_mem b hc)) st' h1
      · next st' he => rwa [he] at h1
  intro st
  simp only [bind_apply, read_apply]
  split_ifs
  · exact hR _
  · exact loop st.ledger _ (fun _ => id) _ (hR _)

end Keeps

/-! ### Programs run from a class of stores

`KeepsOn P R x` asks `x` to move the ledger along `R` only from a store satisfying `P`, and to
leave a store satisfying `P` again. With `P` "the environment fails no ledger call" it says what
a pass does when every call goes through; with `P` an invariant of the ledger, a step of a loop
may rely on what the loop read. -/

/-- From every store satisfying `P`, `x` moves the ledger along `R` and leaves a store satisfying
    `P`. -/
def KeepsOn (P : Store → Prop) (R : Ledger → Ledger → Prop) (x : DbM α) : Prop :=
  ∀ st, P st → R st.ledger (x st).2.ledger ∧ P (x st).2

section KeepsOn

variable {P : Store → Prop} {R : Ledger → Ledger → Prop} (hR : Reflexive R) (hT : Transitive R)

section Refl
include hR

theorem keepsOn_pure (a : α) : KeepsOn P R (pure a : DbM α) := fun st h => ⟨hR st.ledger, h⟩

theorem keepsOn_throw (e : String) : KeepsOn P R (throw e : DbM α) := fun st h => ⟨hR st.ledger, h⟩

theorem keepsOn_lift (r : Except String α) : KeepsOn P R (lift r) := fun st h => ⟨hR st.ledger, h⟩

end Refl

section Trans
include hT

theorem keepsOn_bind_at {x : DbM α} {f : α → DbM β} {st : Store}
    (hx : R st.ledger (x st).2.ledger ∧ P (x st).2) (hf : ∀ a, KeepsOn P R (f a)) :
    R st.ledger ((x >>= f) st).2.ledger ∧ P ((x >>= f) st).2 := by
  obtain ⟨h₁, h₂⟩ := hx
  simp only [bind_apply]
  split
  · next a st' he => rw [he] at h₁ h₂; exact (hf a st' h₂).imp_left (hT h₁)
  · next e st' he => rw [he] at h₁ h₂; exact ⟨h₁, h₂⟩

theorem keepsOn_bind {x : DbM α} {f : α → DbM β} (hx : KeepsOn P R x)
    (hf : ∀ a, KeepsOn P R (f a)) : KeepsOn P R (x >>= f) :=
  fun st h => keepsOn_bind_at hT (hx st h) hf

theorem keepsOn_tryCatch {x : DbM α} {h : String → DbM α} (hx : KeepsOn P R x)
    (hh : ∀ e, KeepsOn P R (h e)) : KeepsOn P R (tryCatch x h) := by
  intro st hst
  obtain ⟨h₁, h₂⟩ := hx st hst
  simp only [tryCatch_apply]
  split
  · next a st' he => rw [he] at h₁ h₂; exact ⟨h₁, h₂⟩
  · next e st' he => rw [he] at h₁ h₂; exact (hh e st' h₂).imp_left (hT h₁)

end Trans

include hR hT

theorem keepsOn_wrapErr (pfx : String) {x : DbM α} (hx : KeepsOn P R x) :
    KeepsOn P R (wrapErr pfx x) :=
  keepsOn_tryCatch hT hx fun _ => keepsOn_throw hR _

theorem keepsOn_forM {l : List α} {f : α → DbM PUnit} (hf : ∀ a ∈ l, KeepsOn P R (f a)) :
    KeepsOn P R (l.forM f) := by
  induction l with
  | nil => exact keepsOn_pure hR _
  | cons a l ih =>
    exact keepsOn_bind hT (hf a (List.mem_cons_self a l))
      fun _ => ih fun b hb => hf b (List.mem_cons_of_mem a hb)

/-- A loop over the rows a read returned: a row's step may rely on `P` at the read and on the
    ledger having moved along `R` since. -/
theorem keepsOn_read_forM {f : Ledger → List α} {g : α → DbM PUnit}
    (hread : ∀ st, P st → P { st with faults := st.faults.tail })
    (hg : ∀ st₀, P st₀ → ∀ b ∈ f st₀.ledger, ∀ st, P st → R st₀.ledger st.ledger →
      R st.ledger (g b st).2.ledger ∧ P (g b st).2) :
    KeepsOn P R (read f >>= fun l => l.forM g) := by
  intro st₀ h₀
  have loop : ∀ l : List α, (∀ b ∈ l, b ∈ f st₀.ledger) → ∀ st, P st → R st₀.ledger st.ledger →
      R st₀.ledger (l.forM g st).2.ledger ∧ P (l.forM g st).2 := by
    intro l
    induction l with
    | nil => exact fun _ _ h₁ h₂ => ⟨h₂, h₁⟩
    | cons b l ih =>
      intro hl st h₁ h₂
      obtain ⟨h₃, h₄⟩ := hg st₀ h₀ b (hl b (List.mem_cons_self b l)) st h₁ h₂
      show R st₀.ledger ((g b >>= fun _ => l.forM g) st).2.ledger ∧
        P ((g b >>= fun _ => l.forM g) st).2
      simp only [bind_apply]
      split
      · next st' he =>
        rw [he] at h₃ h₄
        exact ih (fun c hc => hl c (List.mem_cons_of_mem b hc)) st' h₄ (hT h₂ h₃)
      · next st' he => rw [he] at h₃ h₄; exact ⟨hT h₂ h₃, h₄⟩
  simp only [bind_apply, read_apply]
  split_ifs
  · exact ⟨hR _, hread st₀ h₀⟩
  · exact loop _ (fun _ => id) _ (hread st₀ h₀) (hR _)

omit hT in
/-- A program that goes on with what a read returned: what follows may rely on `P` at the read and
    on the ledger being the one read. -/
theorem keepsOn_wrapErr_read_bind {γ : Type} {f : Ledger → β} {k : β → DbM γ} (pfx : String)
    (hread : ∀ st, P st → P { st with faults := st.faults.tail })
    (hk : ∀ st₀, P st₀ → ∀ st, P st → st.ledger = st₀.ledger →
      R st.ledger (k (f st₀.ledger) st).2.ledger ∧ P (k (f st₀.ledger) st).2) :
    KeepsOn P R (wrapErr pfx (read f) >>= k) := by
  intro st₀ h₀
  simp only [bind_apply, wrapErr, tryCatch_apply, read_apply]
  split_ifs
  · exact ⟨hR _, hread st₀ h₀⟩
  · exact hk st₀ h₀ _ (hread st₀ h₀) rfl

end KeepsOn

end DbM

/-! ## The ledger's calls (spec §4.1)

`prove.go` calls these through `l.db`; the database package is not in the sources, so each is
modelled from the spec's §4.1. Reads return rows in insertion order, which is id order. -/

/-- Modelled from the spec: `db.NewEntryWithReqAddedTimestamp`, the ledger's `insert`, is not in
    the sources. -/
def newEntryWithReqAddedTimestamp (type : ProofType) (startBlock endBlock reqAddedTimestamp : UInt64) :
    DbM Unit :=
  DbM.write fun L => L.insert type startBlock endBlock reqAddedTimestamp

/-- Modelled from the spec: `db.GetProofsFailedOnServer` (`get_failed_on_server`), the records
    that are `FAILED` with an empty prover request id, is not in the sources. -/
def getProofsFailedOnServer : DbM (List ProofRequest) :=
  DbM.read fun L => L.recs.filter fun r => r.status = .failed ∧ r.proverRequestId = ""

/-- Modelled from the spec: `db.GetAllPendingProofs` (`get_all_pending`), the records that are
    `REQ` with a non-empty prover request id, is not in the sources. -/
def getAllPendingProofs : DbM (List ProofRequest) :=
  DbM.read fun L => L.recs.filter fun r => r.status = .req ∧ r.proverRequestId ≠ ""

/-- Modelled from the spec: `db.GetNextUnrequestedProof` (`next_unrequested`), the `UNREQ`
    record of lowest id, is not in the sources. -/
def getNextUnrequestedProof : DbM (Option ProofRequest) :=
  DbM.read fun L => L.recs.find? (·.status = .unreq)

/-- Modelled from the spec: `db.GetNumberOfProofsWithStatus` (`count_by_status`) is not in the
    sources. -/
def getNumberOfProofsWithStatus (status : ProofRequestStatus) : DbM Nat :=
  DbM.read fun L => L.recs.countP (·.status = status)

/-- The row update `UpdateProofStatus` makes: the new status, and on the transition to `REQ` the
    wall clock `now` as `proof_request_time` (spec §3). -/
def withStatus (status : ProofRequestStatus) (now : UInt64) (r : ProofRequest) : ProofRequest :=
  { r with status, proofRequestTime := if status = .req then now else r.proofRequestTime }

/-- Modelled from the spec: `db.UpdateProofStatus` (`update_status`) is not in the sources. It
    writes the status whatever the current one is; `now` is the ledger's clock. -/
def updateProofStatus (id : Nat) (status : ProofRequestStatus) (now : UInt64) : DbM Unit :=
  DbM.write fun L => L.modify id (withStatus status now)

/-- After a status write, every row of the id has the status written. -/
theorem status_of_modify_withStatus {L : Ledger} {id : Nat} {status : ProofRequestStatus}
    {now : UInt64} {r : ProofRequest} (hr : r ∈ (L.modify id (withStatus status now)).recs)
    (hid : r.id = id) : r.status = status := by
  obtain ⟨q, -, rfl⟩ := List.mem_map.1 hr
  by_cases hq : q.id = id
  · simp only [hq, if_true, withStatus]
  · simp only [hq, if_false] at hid

/-- Modelled from the spec: `db.AddProof` (`add_proof`) is not in the sources. It stores the
    proof and moves the record to `COMPLETE` in one write, and fails unless the record is `REQ`. -/
def addProof (id : Nat) (proof : Bytes) : DbM Unit :=
  DbM.call fun L =>
    match L.find? id with
    | some r =>
      if r.status = .req then (.ok (), L.modify id fun r => { r with proof, status := .complete })
      else (.error "proof request is not requested", L)
    | none => (.error "proof request not found", L)

/-- Modelled from the spec: `db.SetProverRequestID` (`set_prover_request_id`) is not in the
    sources. -/
def setProverRequestID (id : Nat) (proverRequestId : String) : DbM Unit :=
  DbM.write fun L => L.modify id fun r => { r with proverRequestId }

/-- Modelled from the spec: `db.AddL1BlockInfoToAggRequest` (`attach_l1_checkpoint`) is not in
    the sources. It updates the matching `AGG` record, the unrequested one of the range that
    pass B is checkpointing, and returns it; it fails when there is none. -/
def addL1BlockInfoToAggRequest (startBlock endBlock l1BlockNumber : UInt64) (l1BlockHash : String) :
    DbM ProofRequest :=
  DbM.call fun L =>
    match L.recs.find? (Ledger.checkpointTarget startBlock endBlock ·) with
    | none => (.error "no unrequested AGG proof request for this range", L)
    | some r =>
      (.ok { r with l1BlockNumber, l1BlockHash },
        L.checkpoint startBlock endBlock l1BlockNumber l1BlockHash)

/-- An attach leaves the ledger as it was, or checkpoints the range. -/
theorem addL1BlockInfoToAggRequest_ledger (s e bn : UInt64) (h : String) (st : Store) :
    (addL1BlockInfoToAggRequest s e bn h st).2.ledger = st.ledger ∨
    (addL1BlockInfoToAggRequest s e bn h st).2.ledger = st.ledger.checkpoint s e bn h := by
  rcases DbM.call_ledger _ st with h1 | h1
  · exact .inl h1
  · unfold addL1BlockInfoToAggRequest
    rw [h1]
    split <;> simp

end Proposer
