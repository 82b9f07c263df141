import OpenMemory.Graph.Audit

/-!
# Change sets and their transactions

Each function here is one transaction: it yields the database after it, or an
error, and then the database is as before. Submitting applies a change set at
once or stores it as a proposal; a proposal is applied when it is approved, if
its preconditions still hold. Beside these stand the transactions that write
change sets of their own (`remember`, baselines) and the preview that issues a
confirmation for a destruction.

The repair of the search index that follows a commit is a transaction of its
own, and so is the read of the receipt.
-/

namespace OpenMemory.Graph

open Foundation
open Merge (Blake3 Digest)

/-- `AuthoritySnapshot::from_generations`, for a version other than zero. -/
def AuthoritySnapshot.fromGenerations [Blake3] (version : UInt16) (generations : List UInt64) :
    AuthoritySnapshot where
  version := version
  digest := Blake3.hash (utf8 "openmemory/authority-snapshot/v1" ++ leBytes 2 version.toNat ++
    leBytes 8 generations.length ++ generations.flatMap fun generation =>
      leBytes 8 generation.toNat)

structure ChangeSetReceipt where
  id : ChangeSetId
  state : ChangeSetState
  stateVersion : Nat
  semanticGeneration : Nat
  indexedGeneration : Nat
  indexRepairRequired : Bool

/-- What a submission found: the receipt of an equal request before it, or the
change set it stored. -/
inductive Submission where
  | existing (receipt : ChangeSetReceipt)
  | stored (id : ChangeSetId)

namespace Database

/-! ## Receipts -/

def receiptOf (db : Database) (id : ChangeSetId) (row : ChangeSet) : ChangeSetReceipt where
  id := id
  state := row.state
  stateVersion := row.stateVersion
  semanticGeneration := row.committedGeneration.getD row.baseGeneration
  indexedGeneration := db.domain.indexedGeneration
  indexRepairRequired := db.domain.indexRepairRequired

def changesetReceipt (db : Database) (id : ChangeSetId) : MemoryResult ChangeSetReceipt := do
  let row ← orRefuse (db.changeSets.get? id) noRows
  return db.receiptOf id row

/-- The change set of a space under an idempotency key. -/
def changeSetUnder (db : Database) (spaceId : SpaceId) (idempotencyKey : String) :
    Option (ChangeSetId × ChangeSet) :=
  db.changeSets.entries.find? fun entry =>
    entry.2.spaceId = spaceId ∧ entry.2.idempotencyKey = idempotencyKey

def loadExistingReceipt (db : Database) (draft : ChangeSetDraft) (requestHash : String) :
    MemoryResult (Option ChangeSetReceipt) :=
  match db.changeSetUnder draft.spaceId draft.idempotencyKey with
  | none => return none
  | some (id, row) => do
      refuseIf (row.requestHash ≠ requestHash) .changeSetIdempotencyConflict
      return some (db.receiptOf id row)

/-! ## Submission -/

/-- The row of a draft that is stored in a mode on top of a generation. -/
def submittedRow [Blake3] (draft : ChangeSetDraft) (mode : SubmitMode) (base : Nat)
    (now : Int64) : ChangeSet where
  spaceId := draft.spaceId
  idempotencyKey := draft.idempotencyKey
  requestHash := canonicalRequestHash draft mode
  submitMode := mode
  actorKind := draft.actorKind
  actorId := draft.actorId
  authority := draft.authority
  reason := draft.reason
  source := draft.source
  baseGeneration := base
  committedGeneration := match mode with
    | .applyImmediately => some (base + 1)
    | .propose => none
  state := match mode with
    | .applyImmediately => .applied
    | .propose => .proposed
  stateVersion := 1
  createdAt := now
  updatedAt := now

/-- Store a new change set and, in immediate mode, apply it. -/
def storeChangeSet [Blake3] [PayloadCodec] [EntityMatching] (db : Database) (draws : Draws)
    (draft : ChangeSetDraft) (mode : SubmitMode) : MemoryResult Database := do
  let base := db.domain.semanticGeneration
  let db ← db.insertChangeSet draws.changeSet (submittedRow draft mode base draws.now)
  let db ← insertRequests draws.changeSet db 0 draft.operations
  match mode with
  | .propose => return db
  | .applyImmediately => do
      let db ← applyOperations draws draws.changeSet (base + 1) db 0 draft.operations
      return db.commitGeneration (base + 1)

def submitChangeset [Blake3] [PayloadCodec] [EntityMatching] (db : Database) (draws : Draws)
    (draft : ChangeSetDraft) (mode : SubmitMode) : MemoryResult (Database × Submission) := do
  validateDraft draft
  refuseIf (mode = .propose ∧ draft.operations.any ChangeOperation.isDestroy = true)
    (.invalidInput "destruction confirmations cannot be proposed")
  db.ensureBoundSpace draft.spaceId
  match ← db.loadExistingReceipt draft (canonicalRequestHash draft mode) with
  | some existing => return (db, .existing existing)
  | none => do
      let db ← db.storeChangeSet draws draft mode
      return (db, .stored draws.changeSet)

/-! ## Review -/

/-- The change set with an id, which a caller gives as a text. -/
def proposalHeader (db : Database) (id : String) : MemoryResult (ChangeSetId × ChangeSet) :=
  orRefuse (db.changeSets.entries.find? fun entry => entry.1.toText = id) noRows

def ensureDistinctReviewer (row : ChangeSet) (review : ReviewAuthorization) : MemoryResult Unit :=
  refuseIf (row.actorId = review.actorId)
    (.invalidInput "proposal submitters cannot review their own changeset")

/-- Leave the proposed state. -/
def closeProposal (db : Database) (id : ChangeSetId) (state : ChangeSetState)
    (committedGeneration : Option Nat) (now : Int64) : Database :=
  { db with changeSets := db.changeSets.modify id fun row =>
    { row with
      state
      stateVersion := row.stateVersion + 1
      committedGeneration
      updatedAt := now } }

def rejectChangeset (db : Database) (draws : Draws) (id : String) (expectedStateVersion : UInt64)
    (review : ReviewAuthorization) (reason : String) : MemoryResult (Database × ChangeSetId) := do
  checkRejectionReason reason
  let (changesetId, row) ← db.proposalHeader id
  if row.state = .rejected then return (db, changesetId)
  refuseIf (row.state ≠ .proposed ∨ row.stateVersion ≠ expectedStateVersion.toNat) .changeSetStale
  db.ensureBoundSpace row.spaceId
  ensureDistinctReviewer row review
  let db := db.closeProposal changesetId .rejected row.committedGeneration draws.now
  let db ← db.insertReviewEvent changesetId "rejected" review reason draws.now
  return (db, changesetId)

/-- The stored operations of a change set, in their order. -/
def storedOperations [PayloadCodec] (db : Database) (id : ChangeSetId) :
    MemoryResult (List ChangeOperation) :=
  (((db.requests.entries.filter fun entry => entry.1.1 = id).insertionSort
    fun left right => left.1.2 ≤ right.1.2).mapM fun entry =>
      PayloadCodec.fromJson entry.2.payloadJson).elim
    (.error (.sqlite "Conversion error from type Text")) .ok

/-- The draft a proposal was submitted as, if its operations are these. -/
def proposalDraft (row : ChangeSet) (operations : List ChangeOperation) : ChangeSetDraft where
  idempotencyKey := row.idempotencyKey
  spaceId := row.spaceId
  actorKind := row.actorKind
  actorId := row.actorId
  authority := row.authority
  reason := row.reason
  source := row.source
  operations := operations

def verifyProposalHash [Blake3] [PayloadCodec] (row : ChangeSet)
    (operations : List ChangeOperation) : MemoryResult Unit := do
  refuseIf (row.submitMode ≠ .propose) noRows
  validateDraft (proposalDraft row operations)
  refuseIf (canonicalRequestHash (proposalDraft row operations) .propose ≠ row.requestHash)
    (.schema "proposal payload does not match its canonical request hash")

/-- Whether the row an operation was meant for is still as expected. -/
def operationPreconditionHolds (db : Database) : ChangeOperation → Bool
  | .remember .. => true
  | .updateObservation observation expectedRowVersion expectedRevisionId =>
    (db.observations.get? observation.id).any fun row =>
      row.rowVersion = expectedRowVersion.toNat ∧ row.lifecycle = .active ∧
        row.semantic.entityId = observation.entityId ∧ observation.tombstoned = false ∧
        (expectedRevisionId = none ∨ row.currentRevisionId = expectedRevisionId.map SizedText.text)
  | .retireObservation observationId expectedRowVersion =>
    (db.observations.get? observationId).any fun row =>
      row.rowVersion = expectedRowVersion.toNat ∧ row.lifecycle = .active
  | .restoreObservation observationId expectedRowVersion =>
    (db.observations.get? observationId).any fun row =>
      row.rowVersion = expectedRowVersion.toNat ∧ row.lifecycle = .retired
  | .revertObservation observationId revisionId expectedRowVersion =>
    (db.observations.get? observationId).any (fun row =>
      row.rowVersion = expectedRowVersion.toNat) &&
    (db.revisions.get? revisionId).any fun revision => revision.observationId = observationId
  | .destroyObservation observationId expectedRowVersion expectedRevisionId _ =>
    (db.observations.get? observationId).any fun row =>
      row.rowVersion = expectedRowVersion.toNat ∧
        (expectedRevisionId = none ∨ row.currentRevisionId = expectedRevisionId.map SizedText.text)

/-- `transition_proposal`: approve a proposal, or find it in conflict. -/
def approveChangeset [Blake3] [PayloadCodec] [EntityMatching] (db : Database) (draws : Draws)
    (id : String) (expectedStateVersion : UInt64) (review : ReviewAuthorization) :
    MemoryResult (Database × ChangeSetId) := do
  let (changesetId, row) ← db.proposalHeader id
  if row.state = .applied then return (db, changesetId)
  refuseIf (row.state ≠ .proposed ∨ row.stateVersion ≠ expectedStateVersion.toNat) .changeSetStale
  db.ensureBoundSpace row.spaceId
  ensureDistinctReviewer row review
  let operations ← db.storedOperations changesetId
  verifyProposalHash row operations
  if operations.all db.operationPreconditionHolds = false then
    let db := db.closeProposal changesetId .conflicted row.committedGeneration draws.now
    let db ← db.insertReviewEvent changesetId "conflicted" review
      "proposal head precondition is stale" draws.now
    return (db, changesetId)
  let generation := db.domain.semanticGeneration + 1
  let db ← applyOperations draws changesetId generation db 0 operations
  let db := db.closeProposal changesetId .applied (some generation) draws.now
  let db ← db.insertReviewEvent changesetId "approved" review "" draws.now
  return (db.commitGeneration generation, changesetId)

end Database

end OpenMemory.Graph
