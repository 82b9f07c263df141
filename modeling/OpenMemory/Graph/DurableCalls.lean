import OpenMemory.Graph.Transactions
import OpenMemory.Foundation.Failures

/-!
# Calls on storage that may fail

The four calls that write: each commits one transaction, and has more to do after
that. New observations are published in the search index and their rows of the
outbox marked; a submitted or approved change set has the index repaired and its
receipt read.

Failures come from a schedule. A transaction in which some statement, or the commit,
fails leaves the database as it was. A failing publication is only logged, and so is
a failing repair.
-/

namespace OpenMemory.Graph

open Foundation
open Merge (Blake3)

/-- One of the transactions of a repair of the search index: some rows were applied, or
one failed. -/
inductive RepairStep where
  | applied (now : Int64) (keys : List (Nat × Nat))
  | failed (key : Nat × Nat) (error : String)

/-- What fails in a call, and how far a repair comes. -/
structure Schedule where
  /-- The first statement that fails in the transaction, or its commit. -/
  transaction : Option MemoryError
  publication : Option MemoryError
  /-- The first failure in `mark_index_generations_current`. -/
  mark : Option MemoryError
  markedAt : Int64
  repairs : List RepairStep
  receipt : Option MemoryError

namespace Database

/-- `repair_index`, as far as it comes. -/
def repairIndex (db : Database) (steps : List RepairStep) : Database :=
  steps.foldl (fun db step =>
    match step with
    | .applied now keys => db.markIndexRowsApplied now keys
    | .failed key error => db.recordIndexFailure key error) db

/-- Whether the index has what was remembered: without observations there is nothing to
publish. -/
def published (schedule : Schedule) (remembered : Remembered) : Prop :=
  schedule.publication = none ∨ ∀ group ∈ remembered.groups, group.2.payload = []

instance (schedule : Schedule) (remembered : Remembered) :
    Decidable (published schedule remembered) := by
  unfold published
  infer_instance

/-- What a compatibility write does after its commit. -/
def finishRemember (schedule : Schedule) (db : Database) (remembered : Remembered) :
    Database × MemoryResult Remembered :=
  match remembered.generation with
  | none => (db, .ok remembered)
  | some generation =>
    if published schedule remembered then
      match schedule.mark with
      | some error => (db, .error error)
      | none => (db.markIndexRowsApplied schedule.markedAt (db.owedKeys generation),
          .ok remembered)
    else (db, .ok remembered)

section Calls

variable [Blake3] [PayloadCodec] [EntityMatching]

def rememberOn (schedule : Schedule) (db : Database) (draws : Draws)
    (request : RememberRequest) : Database × MemoryResult Remembered :=
  commitThen db (attempt schedule.transaction (db.remember draws request)) (finishRemember schedule)

def rememberBatchOn (schedule : Schedule) (db : Database) (draws : Draws)
    (requests : List RememberRequest) (options : BatchOptions) :
    Database × MemoryResult Remembered :=
  if requests = [] ∧ options.checkpoint = none then (db, .ok ⟨[], none⟩)
  else commitThen db (attempt schedule.transaction (db.rememberBatch draws requests options))
    (finishRemember schedule)

def submitChangesetOn (schedule : Schedule) (db : Database) (draws : Draws)
    (draft : ChangeSetDraft) (mode : SubmitMode) : Database × MemoryResult ChangeSetReceipt :=
  commitThen db (attempt schedule.transaction (db.submitChangeset draws draft mode))
    fun db submission =>
      match submission with
      | .existing receipt => (db, .ok receipt)
      | .stored id =>
        let db := if mode = .applyImmediately then db.repairIndex schedule.repairs else db
        (db, attempt schedule.receipt (db.changesetReceipt id))

/-- The call `approve_changeset`: the index is repaired unless the proposal is in
conflict. -/
def approveChangesetOn (schedule : Schedule) (db : Database) (draws : Draws) (id : String)
    (expectedStateVersion : UInt64) (review : ReviewAuthorization) :
    Database × MemoryResult ChangeSetReceipt :=
  commitThen db (attempt schedule.transaction
    (db.approveChangeset draws id expectedStateVersion review))
    fun db changesetId =>
      let db := if (db.changeSets.get? changesetId).any fun row => row.state = .applied then
        db.repairIndex schedule.repairs else db
      (db, attempt schedule.receipt (db.changesetReceipt changesetId))

end Calls

end Database

end OpenMemory.Graph
