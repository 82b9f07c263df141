import OpenMemory.Graph.Transactions
import OpenMemory.Foundation.Runs

/-!
# The transactions of a store, as a state machine

Every way the program writes the database of a store is one of the transactions
below. SQLite runs them one after another, and one that fails leaves the
database as it was. So a run of the store, by any number of threads, is a list
of transactions that succeed, and `performs` is its step.

A method that reads before it writes (retiring by name, consolidation, a
destruction from its preview) is a read followed by one of these transactions
with the values it read, whatever happened in between.
-/

namespace OpenMemory.Graph

open Foundation
open Merge (Blake3)

inductive Transaction where
  | submit (draws : Draws) (draft : ChangeSetDraft) (mode : SubmitMode)
  | approve (draws : Draws) (id : String) (expectedStateVersion : UInt64)
      (review : ReviewAuthorization)
  | reject (draws : Draws) (id : String) (expectedStateVersion : UInt64)
      (review : ReviewAuthorization) (reason : String)
  | remember (draws : Draws) (request : RememberRequest)
  | rememberBatch (draws : Draws) (requests : List RememberRequest) (options : BatchOptions)
  | bindSpace (spaceId : SpaceId)
  | bindCompatibilitySpace (draws : Draws)
  | backfill (draws : Draws) (limit : Nat)
  | compact (draws : Draws) (retentionSecs : Int64) (limit : Nat)
  | preview (draws : Draws) (observationId : String) (review : ReviewAuthorization)
      (ttlSecs : Int64)
  | importRaw (entities : List Entity) (observations : List Observation)
      (relations : List Relation)
  | prune (draws : Draws) (ttlSecs : Int64)
  | forget (entityId : String)
  | addRelation (draws : Draws) (fromEntityId toEntityId relationType : String)
      (weight : Option Float32Bits) (source : String)
  | addAccesses (accesses : List (String × UInt32))
  | indexFailure (key : Nat × Nat) (error : String)
  | markApplied (now : Int64) (keys : List (Nat × Nat))

namespace Transaction

/-- The ids under which a transaction may insert an observation. -/
def insertions : Transaction → Set String
  | submit draws _ _ | approve draws _ _ _ | remember draws _ | rememberBatch draws _ _ =>
    {id | ∃ group item, id = draws.observation group item}
  | importRaw _ observations _ => {id | ∃ observation ∈ observations, observation.id = id}
  | _ => ∅

end Transaction

namespace Database

variable [Blake3] [PayloadCodec] [EntityMatching]

def perform (db : Database) : Transaction → MemoryResult Database
  | .submit draws draft mode => (db.submitChangeset draws draft mode).map Prod.fst
  | .approve draws id version review => (db.approveChangeset draws id version review).map Prod.fst
  | .reject draws id version review reason =>
    (db.rejectChangeset draws id version review reason).map Prod.fst
  | .remember draws request => (db.remember draws request).map Prod.fst
  | .rememberBatch draws requests options => (db.rememberBatch draws requests options).map Prod.fst
  | .bindSpace spaceId => db.bindSpaceId spaceId
  | .bindCompatibilitySpace draws => .ok (db.compatibilitySpaceId draws).1
  | .backfill draws limit => db.backfillAudit draws limit
  | .compact draws retentionSecs limit =>
    .ok (db.compactRejectedProposals draws retentionSecs limit)
  | .preview draws observationId review ttlSecs =>
    (db.previewObservationDestruction draws observationId review ttlSecs).map Prod.fst
  | .importRaw entities observations relations => db.importRaw entities observations relations
  | .prune draws ttlSecs => .ok (db.pruneWithTtl draws ttlSecs)
  | .forget entityId => db.forgetEntityById entityId
  | .addRelation draws fromEntityId toEntityId relationType weight source =>
    db.addRelation draws fromEntityId toEntityId relationType weight source
  | .addAccesses accesses => .ok (db.addAccesses accesses)
  | .indexFailure key error => .ok (db.recordIndexFailure key error)
  | .markApplied now keys => .ok (db.markIndexRowsApplied now keys)

/-- The step of the machine: the transactions that succeed. -/
def performs (db : Database) (transaction : Transaction) : Option Database :=
  (db.perform transaction).toOption

/-- A transaction applies a change set with these operations: a submission in
immediate mode that is no repetition, or an approval that finds the
preconditions of the stored operations met. -/
def Applies (db : Database) (transaction : Transaction) (id : ChangeSetId)
    (operations : List ChangeOperation) : Prop :=
  match transaction with
  | .submit draws draft mode =>
    mode = .applyImmediately ∧ id = draws.changeSet ∧ operations = draft.operations ∧
      db.changeSetUnder draft.spaceId draft.idempotencyKey = none
  | .approve _ name _ _ =>
    ∃ row, db.proposalHeader name = .ok (id, row) ∧ row.state = .proposed ∧
      db.storedOperations id = .ok operations ∧
      operations.all db.operationPreconditionHolds = true
  | _ => False

end Database

end OpenMemory.Graph
