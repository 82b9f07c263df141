import OpenMemory.Engine.Journal
import OpenMemory.Foundation.Durable

/-!
# One shard of the ingestion engine

A shard has a queue, a journal and a row with its checkpoint in the store. A
submission is numbered, journaled and queued. A drain takes the whole queue,
syncs the journal and commits the batch together with the checkpoint; when that
fails it retries the requests one by one, and a request that fails again is
rejected by a commit of the checkpoint alone. A maintenance pass truncates the
journal once a complete checkpoint of the store covers it. A crash loses the
memory of the process, journal records that were not synced, and commits since
the last complete checkpoint; a restart replays the journal above the stored
checkpoint.

Every action is one step that other threads of the process may interleave with.
A batched write commits all of its requests and the checkpoint, or nothing.

Submissions carry an identity (`Entry.id`) that the code does not have: it
tells two requests of one sequence number apart, and with it the ghost fields
say what became of a submission.
-/

namespace OpenMemory.Engine

open Foundation OpenMemory.Graph

/-! ## States -/

/-- A submission and its journal record. -/
structure Entry where
  id : Nat
  record : JournalRecord
  deriving DecidableEq

namespace Entry

def seq (e : Entry) : Nat := e.record.seq

def req (e : Entry) : RememberRequest := e.record.req

end Entry

/-- The store as far as the shard is concerned: its checkpoint row, the
submissions committed and those rejected for good. -/
structure ShardDatabase where
  checkpoint : Nat
  applied : List Entry
  rejected : List Entry
  deriving DecidableEq

namespace ShardDatabase

/-- A submission is settled once it was committed or rejected. -/
def Settled (db : ShardDatabase) (e : Entry) : Prop := e ∈ db.applied ∨ e ∈ db.rejected

/-- `remember_batch` with a checkpoint, which never moves backwards. -/
def rememberBatch (db : ShardDatabase) (batch : List Entry) (seq : Nat) : ShardDatabase where
  checkpoint := max db.checkpoint seq
  applied := db.applied ++ batch
  rejected := db.rejected

/-- The commit of a checkpoint alone, for a request that failed. -/
def reject (db : ShardDatabase) (e : Entry) : ShardDatabase where
  checkpoint := max db.checkpoint e.seq
  applied := db.applied
  rejected := db.rejected ++ [e]

end ShardDatabase

/-- How far a drain has come. -/
inductive Drain where
  | idle
  | taken (drained : List Entry) (flushed : Nat)
  | synced (drained : List Entry)
  | retrying (rest : List Entry) (published : Nat)
  | rejecting (failed : Entry) (error : MemoryError) (rest : List Entry) (published : Nat)
  | publishing (seq : Nat)
  deriving DecidableEq

/-- What a drain took and has not settled yet. -/
def Drain.inFlight : Drain → List Entry
  | idle => []
  | taken drained _ => drained
  | synced drained => drained
  | retrying rest _ => rest
  | rejecting failed _ rest _ => failed :: rest
  | publishing _ => []

/-- A maintenance pass: the watermark it read, and whether its checkpoint of
the store was complete. -/
structure Pass where
  watermark : Nat
  complete : Bool
  deriving DecidableEq

/-- The memory of a running process. -/
structure Memory where
  buf : List Entry
  nextSeq : Nat
  durable : Nat
  failures : List (Nat × MemoryError)
  drain : Drain
  passes : List Pass
  /-- The submissions that this process accepted. -/
  issued : List Entry
  deriving DecidableEq

/-- The submissions that are queued, or taken by a drain and not settled. -/
def Memory.queued (m : Memory) : List Entry := m.drain.inFlight ++ m.buf

/-- `wait_durable_result`, when the ticket has an outcome. -/
def Memory.waitDurableResult (m : Memory) (ticket : Nat) : Option (MemoryResult Unit) :=
  if m.durable < ticket then none
  else
    match m.failures.lookup ticket with
    | some error => some (.error error)
    | none => some (.ok ())

structure Shard where
  journal : List Entry
  synced : Nat
  database : Durable ShardDatabase
  memory : Option Memory
  /-- All submissions so far, in order. -/
  submitted : List Entry
  /-- The submissions whose record was synced at some time. -/
  everSynced : List Entry
  /-- The submissions whose ticket was reported to have an outcome. -/
  reported : List Entry
  deriving DecidableEq

def Shard.checkpoint (s : Shard) : Nat := s.database.current.checkpoint

/-- Nothing submitted, and no process running. -/
def Shard.fresh : Shard where
  journal := []
  synced := 0
  database := ⟨⟨0, [], []⟩, []⟩
  memory := none
  submitted := []
  everSynced := []
  reported := []

/-! ## Steps -/

inductive Action where
  | start
  | crash (records commits : Nat)
  | submit (req : RememberRequest)
  | take
  | sync (records : Nat)
  | commitBatch (succeeds : Bool)
  | retry (failure : Option MemoryError)
  | commitCheckpoint (succeeds : Bool)
  | publish
  | beginMaintenance
  | walCheckpoint (pass : Nat) (complete : Bool)
  | truncate (pass : Nat)
  | report (e : Entry)

/-- The entries that replay commits: those above the checkpoint whose line
gives the submitted request back. -/
def replayed (serde : SerdeJson) (checkpoint : Nat) (journal : List Entry) : List Entry :=
  journal.filter fun e =>
    decide (checkpoint < e.seq) && decide (reread serde e.record = some e.record)

/-- `start_partitioned` on one shard: replay the journal in one batch, and
number on from the last sequence seen. -/
def start (serde : SerdeJson) (s : Shard) : Option Shard :=
  match scanJournal serde s.checkpoint (journalOf serde (s.journal.map Entry.record)) with
  | .error _ => none
  | .ok replay =>
    let database :=
      if replay.pending = [] then s.database
      else s.database.commit (s.database.current.rememberBatch
        (replayed serde s.checkpoint s.journal) replay.maxPendingSeq)
    some { s with
      database
      memory := some
        { buf := []
          nextSeq := replay.lastSeq
          durable := replay.lastSeq
          failures := []
          drain := .idle
          passes := []
          issued := [] } }

/-- A crash keeps some records, all synced ones among them, and some commits. -/
def crash (s : Shard) (records commits : Nat) : Option Shard :=
  if records < s.synced then none
  else some { s with
    journal := s.journal.take records
    database := s.database.rollback commits
    memory := none }

/-- `try_submit`, for a request that passed its checks. -/
def submit (s : Shard) (m : Memory) (req : RememberRequest) : Shard :=
  let e : Entry := ⟨s.submitted.length, ⟨m.nextSeq + 1, req⟩⟩
  { s with
    journal := s.journal ++ [e]
    submitted := s.submitted ++ [e]
    memory := some
      { m with nextSeq := m.nextSeq + 1, buf := m.buf ++ [e], issued := m.issued ++ [e] } }

/-- The start of `drain_shard`: flush the journal and swap out the queue. -/
def take (s : Shard) (m : Memory) : Option Shard :=
  if m.drain = .idle ∧ m.buf ≠ [] then
    some { s with memory := some { m with buf := [], drain := .taken m.buf s.journal.length } }
  else none

/-- The sync covers what was flushed, and perhaps later records. -/
def sync (s : Shard) (m : Memory) (records : Nat) : Option Shard :=
  match m.drain with
  | .taken drained flushed =>
    if flushed ≤ records ∧ records ≤ s.journal.length then
      some { s with
        synced := max s.synced records
        everSynced := s.everSynced ++ s.journal.take records
        memory := some { m with drain := .synced drained } }
    else none
  | _ => none

/-- The grouped commit of a drain. -/
def commitBatch (s : Shard) (m : Memory) (succeeds : Bool) : Option Shard :=
  match m.drain with
  | .synced drained =>
    let maxSeq := (drained.getLast?.map Entry.seq).getD 0
    if succeeds then
      some { s with
        database := s.database.commit (s.database.current.rememberBatch drained maxSeq)
        memory := some { m with drain := .publishing maxSeq } }
    else some { s with memory := some { m with drain := .retrying drained 0 } }
  | _ => none

/-- The retry of the next request after a failed grouped commit. -/
def retry (s : Shard) (m : Memory) (failure : Option MemoryError) : Option Shard :=
  match m.drain with
  | .retrying (e :: rest) published =>
    match failure with
    | none =>
      some { s with
        database := s.database.commit (s.database.current.rememberBatch [e] e.seq)
        memory := some { m with drain := .retrying rest e.seq } }
    | some error =>
      some { s with memory := some { m with drain := .rejecting e error rest published } }
  | _ => none

/-- The empty commit behind a request that failed twice. When it fails as well,
the request and the ones after it go back in front of the queue. -/
def commitCheckpoint (s : Shard) (m : Memory) (succeeds : Bool) : Option Shard :=
  match m.drain with
  | .rejecting e error rest published =>
    if succeeds then
      some { s with
        database := s.database.commit (s.database.current.reject e)
        memory := some
          { m with failures := (e.seq, error) :: m.failures, drain := .retrying rest e.seq } }
    else
      some { s with
        memory := some { m with buf := e :: rest ++ m.buf, drain := .publishing published } }
  | _ => none

/-- The end of a drain: advance the durability watermark. -/
def publish (s : Shard) (m : Memory) : Option Shard :=
  match m.drain with
  | .publishing seq =>
    some { s with memory := some { m with durable := max m.durable seq, drain := .idle } }
  | .retrying [] seq =>
    some { s with memory := some { m with durable := max m.durable seq, drain := .idle } }
  | _ => none

/-- A maintenance pass reads the watermark before it checkpoints the store. -/
def beginMaintenance (s : Shard) (m : Memory) : Shard :=
  { s with memory := some { m with passes := m.passes ++ [⟨m.durable, false⟩] } }

/-- The checkpoint of a pass; an incomplete or failed one ends the pass. -/
def walCheckpoint (s : Shard) (m : Memory) (pass : Nat) (complete : Bool) : Option Shard :=
  match m.passes[pass]? with
  | none => none
  | some p =>
    if complete then
      some { s with
        database := s.database.checkpoint
        memory := some { m with passes := m.passes.set pass ⟨p.watermark, true⟩ } }
    else some { s with memory := some { m with passes := m.passes.eraseIdx pass } }

/-- The end of a pass: the journal is truncated when the queue is empty and
nothing was numbered past the watermark. -/
def truncate (s : Shard) (m : Memory) (pass : Nat) : Option Shard :=
  match m.passes[pass]? with
  | none => none
  | some p =>
    let ended := { m with passes := m.passes.eraseIdx pass }
    if p.complete ∧ m.buf = [] ∧ m.nextSeq = p.watermark then
      some { s with journal := [], synced := 0, memory := some ended }
    else some { s with memory := some ended }

/-- A waiter learns the outcome of a ticket of this process. -/
def report (s : Shard) (m : Memory) (e : Entry) : Option Shard :=
  if e ∈ m.issued ∧ (m.waitDurableResult e.seq).isSome then
    some { s with reported := s.reported ++ [e] }
  else none

/-- One step, where the action is possible. -/
def step (serde : SerdeJson) (s : Shard) (action : Action) : Option Shard :=
  match action, s.memory with
  | .start, none => start serde s
  | .crash records commits, _ => crash s records commits
  | .submit req, some m => some (submit s m req)
  | .take, some m => take s m
  | .sync records, some m => sync s m records
  | .commitBatch succeeds, some m => commitBatch s m succeeds
  | .retry failure, some m => retry s m failure
  | .commitCheckpoint succeeds, some m => commitCheckpoint s m succeeds
  | .publish, some m => publish s m
  | .beginMaintenance, some m => some (beginMaintenance s m)
  | .walCheckpoint pass complete, some m => walCheckpoint s m pass complete
  | .truncate pass, some m => truncate s m pass
  | .report e, some m => report s m e
  | _, _ => none

/-- A run from the fresh shard. -/
def run (serde : SerdeJson) (actions : List Action) : Option Shard :=
  actions.foldlM (step serde) Shard.fresh

end OpenMemory.Engine
