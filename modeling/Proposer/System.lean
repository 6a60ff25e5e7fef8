import Proposer.Passes

set_option autoImplicit false

/-! # The proposer as a system

The proposer's state is the ledger, the goroutines pass B has started that have not returned yet,
and the log of the requests sent to the prover, each tagged with its record's id. It moves by
three kinds of event: `tick`, in which the ticker runs passes A, B and C in order and a pass that
returns an error ends the tick (spec §7); `task i`, in which goroutine `i` runs its next
statement; and `derive`, in which the derivation, outside this code, queues a span.

Each event carries the environment's choices: the clock, the prover's answers, the checkpoint and
oracle reads, and which ledger calls fail. A tick is atomic: no goroutine statement runs between
its ledger calls, and its `poll` gives one answer per prover id. Goroutine steps interleave with
the ticks in any order, so a goroutine's first write may come after any number of later ticks.
`Reachable cfg s` holds of every state a sequence of events leads to from the empty ledger, and
`reachable_run` makes every replay of a list of events a witness of it. The last section names
the answers the replayed runs of the other modules use. -/

namespace Proposer

/-- The proposer's state. -/
structure Sys where
  ledger : Ledger
  tasks : List Task
  sent : List (Nat × ProverCall)
  deriving DecidableEq, Repr

/-- An empty ledger, no goroutine, nothing sent. -/
def Sys.init : Sys := ⟨Ledger.empty, [], []⟩

/-- What the environment answers during one tick: `time.Now()`, the prover's answer to the poll of
    each prover request id (one answer per id within the tick), the checkpoint, the oracle's two
    reads, and which ledger calls fail. -/
structure TickEnv where
  now : UInt64
  poll : String → HttpOutcome
  checkpoint : Except String (UInt64 × Hash)
  latest : Except String Nat
  next : Except String Nat
  faults : List Bool

/-- An event of the system. -/
inductive Event where
  /-- The ticker fires. -/
  | tick (env : TickEnv)
  /-- Goroutine `i` runs one statement, at clock `now`, with the prover answering `outcome`. -/
  | task (i : Nat) (now : UInt64) (outcome : HttpOutcome) (faults : List Bool)
  /-- The derivation queues the span `[startBlock, endBlock]` at clock `now`. -/
  | derive (startBlock endBlock now : UInt64)

/-- Modelled from the spec: the driver loop that runs the passes is not in the sources. One tick
    runs passes A, B and C in order (§5) and returns at the first error (§7); a goroutine pass B
    started is kept whatever pass C returns. The tick is atomic: no goroutine statement runs
    between the ledger calls of its passes. -/
def tick (cfg : Config) (env : TickEnv) (s : Sys) : Sys :=
  match processPendingProofs cfg env.now env.poll ⟨s.ledger, env.faults, []⟩ with
  | (.error _, st) => { s with ledger := st.ledger }
  | (.ok (), st) =>
    match requestQueuedProofs cfg env.checkpoint st with
    | (.error _, st) => { s with ledger := st.ledger }
    | (.ok spawned, st) =>
      { s with
        ledger := (deriveAggProofs env.now env.latest env.next st).2.ledger
        tasks := s.tasks ++ spawned.toList.map (⟨·, .markReq⟩) }

/-- Goroutine `i` runs one statement; it leaves the list when it returns. The requests it sends are
    logged under its record's id. -/
def taskStep (i : Nat) (now : UInt64) (outcome : HttpOutcome) (faults : List Bool) (s : Sys) :
    Sys :=
  match s.tasks[i]? with
  | none => s
  | some t =>
    let r := t.step now outcome ⟨s.ledger, faults, []⟩
    { ledger := r.2.ledger
      tasks := match r.1 with
        | .ok (some pc) => s.tasks.set i ⟨t.p, pc⟩
        | _ => s.tasks.eraseIdx i
      sent := s.sent ++ r.2.sent.map (t.p.id, ·) }

/-- One event. -/
def step (cfg : Config) (s : Sys) : Event → Sys
  | .tick env => tick cfg env s
  | .task i now outcome faults => taskStep i now outcome faults s
  | .derive startBlock endBlock now => { s with ledger := s.ledger.insert .span startBlock endBlock now }

/-- Replay a list of events. -/
def run (cfg : Config) (s : Sys) (evs : List Event) : Sys := evs.foldl (step cfg) s

/-- The states some sequence of events leads to from the empty ledger. -/
inductive Reachable (cfg : Config) : Sys → Prop where
  | init : Reachable cfg Sys.init
  | step {s : Sys} (e : Event) : Reachable cfg s → Reachable cfg (step cfg s e)

theorem reachable_run (cfg : Config) {s : Sys} (h : Reachable cfg s) (evs : List Event) :
    Reachable cfg (run cfg s evs) := by
  induction evs generalizing s with
  | nil => exact h
  | cons e evs ih => exact ih (Reachable.step e h)

/-- No goroutine is in flight. -/
def Sys.Quiescent (s : Sys) : Prop := s.tasks = []

instance (s : Sys) : Decidable s.Quiescent := inferInstanceAs (Decidable (s.tasks = []))

/-- The status of record `id`. -/
def Sys.statusOf (s : Sys) (id : Nat) : Option ProofRequestStatus :=
  (s.ledger.find? id).map (·.status)

/-! ## Answers of the prover, and ticks -/

/-- The prover accepts a request under the proof id `id`. -/
def answerId (id : String) : HttpOutcome :=
  .response 200 (.json (.object [("proof_id", .string id)]))

/-- The prover reports `PROOF_FULFILLED`, with the other fields `fields`. -/
def answerFulfilled (fields : List (String × JsonValue)) : HttpOutcome :=
  .response 200 (.json (.object (("status", .string "PROOF_FULFILLED") :: fields)))

/-- The prover reports the proof as still being computed. -/
def answerRequested : HttpOutcome :=
  .response 200 (.json (.object [("status", .string "PROOF_REQUESTED")]))

/-- The client cannot even build the request. -/
def refused : HttpOutcome := .badRequest "refused"

/-- A tick at clock `0` in which the prover answers every poll with `poll`, neither the
    checkpoint nor the output oracle answers, and the ledger calls fail as `faults` says. -/
def quietTick (poll : String → HttpOutcome) (faults : List Bool) : Event :=
  .tick ⟨0, poll, .error "no checkpoint", .error "oracle unavailable", .error "oracle unavailable",
    faults⟩

end Proposer
