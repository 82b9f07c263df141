import OpenMemory.Graph.RequestHash
import OpenMemory.Graph.WriteGroup

/-!
# Applying the operations of a change set

The statements of the audited write path, and what each kind of operation does
inside the transaction of its change set. Every change of an observation appends
a revision whose parent is the head before it, moves the head, and owes the
search index one change. A destruction also consumes its confirmation and leaves
a receipt.

Where the source checks how many rows a statement changed, the row was read
before in the same transaction, and the number is one.
-/

namespace OpenMemory.Graph

open Foundation
open Merge (Blake3)

/-- The number of an item of an operation among all items of a change set. -/
def scopedOrdinal (operationOrdinal itemOrdinal : Nat) : Nat :=
  operationOrdinal * (maxListItems + 1) + itemOrdinal

namespace Database

/-! ## Statements -/

def boundSpaceId (db : Database) : MemoryResult SpaceId :=
  orRefuse db.spaceId (.invalidInput "memory store is not bound to a catalog space")

def ensureBoundSpace (db : Database) (spaceId : SpaceId) : MemoryResult Unit := do
  let existing ← db.boundSpaceId
  refuseIf (existing ≠ spaceId)
    (.invalidInput s!"memory store is bound to space {existing.toText}, not {spaceId.toText}")

/-- The change set under an id. -/
def insertChangeSet (db : Database) (id : ChangeSetId) (row : ChangeSet) : MemoryResult Database := do
  refuseIf (∃ entry ∈ db.changeSets.entries,
    entry.2.spaceId = row.spaceId ∧ entry.2.idempotencyKey = row.idempotencyKey) uniqueViolation
  let changeSets ← db.changeSets.insert id row uniqueViolation
  return { db with changeSets }

/-- Store the operations of a change set under consecutive ordinals. -/
def insertRequests [PayloadCodec] (changesetId : ChangeSetId) :
    Database → Nat → List ChangeOperation → MemoryResult Database
  | db, _, [] => .ok db
  | db, ordinal, operation :: rest => do
      let requests ← db.requests.insert (changesetId, ordinal)
        { objectKind := operation.objectKind, logicalId := operation.logicalId
          operation := operation.operationName, payloadJson := PayloadCodec.toJson operation
          expectedRevisionId := operation.expectedRevisionId
          expectedRowVersion := operation.expectedRowVersion
          expectedLifecycle := operation.expectedLifecycle } uniqueViolation
      insertRequests changesetId { db with requests } (ordinal + 1) rest

def insertEvent (db : Database) (changesetId : ChangeSetId) (ordinal : Nat) (event : ChangeEvent) :
    MemoryResult Database := do
  let events ← db.events.insert (changesetId, ordinal) event uniqueViolation
  return { db with events }

/-- An event about an observation that an operation of a change set concerns. -/
def insertOperationEvent (db : Database) (changesetId : ChangeSetId) (ordinal : Nat)
    (eventType logicalId : String) (revisionId : Option String) (now : Int64) :
    MemoryResult Database :=
  db.insertEvent changesetId ordinal
    { eventType, objectKind := some .observation, logicalId := some logicalId, revisionId
      payload := .empty, createdAt := now }

/-- The ordinal after the last one of a change set's events. -/
def nextEventOrdinal (db : Database) (changesetId : ChangeSetId) : Nat :=
  (db.events.entries.map fun entry =>
    if entry.1.1 = changesetId then entry.1.2 + 1 else 0).foldr max 0

def insertReviewEvent (db : Database) (changesetId : ChangeSetId) (eventType : String)
    (review : ReviewAuthorization) (reason : String) (now : Int64) : MemoryResult Database :=
  db.insertEvent changesetId (db.nextEventOrdinal changesetId)
    { eventType, objectKind := none, logicalId := none, revisionId := none
      payload := .review review.actorId review.role review.authority reason, createdAt := now }

def insertOutbox (db : Database) (generation ordinal : Nat) (operation : OutboxOperation)
    (logicalId : String) (revisionId : Option String) (now : Int64) : MemoryResult Database := do
  let outbox ← db.outbox.insert (generation, ordinal)
    { operation, logicalId, revisionId, attempts := 0, lastError := none, appliedAt := none
      createdAt := now } uniqueViolation
  return { db with outbox }

/-! ## Observations and their revisions -/

def loadObservation (db : Database) (id : String) : MemoryResult ObservationRow :=
  orRefuse (db.observations.get? id) (.observationNotFound id)

/-- Refuse a row that is not in the expected version, lifecycle and revision;
no expected revision matches any. -/
def checkExpected (row : ObservationRow) (expectedVersion : UInt64)
    (expectedRevision : Option String) (lifecycle : Lifecycle) : MemoryResult Unit :=
  refuseIf (row.rowVersion ≠ expectedVersion.toNat ∨ row.lifecycle ≠ lifecycle ∨
    (expectedRevision.isSome ∧ row.currentRevisionId ≠ expectedRevision)) .changeSetStale

def insertObservationRevision (db : Database) (revisionId : RevisionId) (observationId : String)
    (row : ObservationRow) (parent : Option String) (changesetId : ChangeSetId) (now : Int64) :
    MemoryResult Database :=
  db.insertRevision revisionId.toText
    { observationId, semantic := row.semantic, parentRevisionId := parent, changesetId
      createdAt := now, lifecycle := row.lifecycle }

/-- Point an observation at a revision without a new version. -/
def setHead (db : Database) (id : String) (revisionId : RevisionId) : Database :=
  { db with observations := db.observations.modify id fun row =>
      { row with currentRevisionId := some revisionId.toText } }

/-- Point an observation in the expected version at a revision, and count the
version up. -/
def advanceHead (db : Database) (id : String) (revisionId : RevisionId)
    (expectedVersion : UInt64) : Database :=
  { db with observations := db.observations.modify id fun row =>
      if row.rowVersion = expectedVersion.toNat then
        { row with
          currentRevisionId := some revisionId.toText
          rowVersion := row.rowVersion + 1 }
      else row }

/-- Write the content, the tombstone and the lifecycle that goes with it. -/
def replaceObservation (db : Database) (id : String) (semantic : SemanticContent)
    (tombstoned : Bool) : MemoryResult Database := do
  refuseIf (db.entities.get? semantic.entityId = none) foreignKeyViolation
  let concepts ← insertSideRows semantic.concepts
  let sourceFiles ← insertSideRows semantic.sourceFiles
  return { db with observations := db.observations.modify id fun row =>
    { row with
      semantic := { semantic with concepts, sourceFiles }
      tombstoned
      lifecycle := if tombstoned then .retired else .active } }

/-- Append a revision of the row as it now stands, make it the head, owe the
index a change and note the event: the end of every change of an observation. -/
def recordRevision (db : Database) (draws : Draws) (changesetId : ChangeSetId)
    (generation ordinal : Nat) (id : String) (parent : Option String) (expectedVersion : UInt64)
    (operation : OutboxOperation) (eventType : String) : MemoryResult Database := do
  let revisionId := draws.revision ordinal 0
  let refreshed ← db.loadObservation id
  let db ← db.insertObservationRevision revisionId id refreshed parent changesetId draws.now
  let db := db.advanceHead id revisionId expectedVersion
  let db ← db.insertOutbox generation (scopedOrdinal ordinal 0) operation id
    (some revisionId.toText) draws.now
  db.insertOperationEvent changesetId (scopedOrdinal ordinal 0) eventType id
    (some revisionId.toText) draws.now

/-! ## Operations -/

/-- Give the observations a group has written their first revisions. -/
def recordRemembered (draws : Draws) (changesetId : ChangeSetId) (generation ordinal : Nat) :
    Database → Nat → List String → MemoryResult Database
  | db, _, [] => .ok db
  | db, index, id :: rest => do
      let row ← db.loadObservation id
      let revisionId := draws.revision ordinal index
      let db ← db.insertObservationRevision revisionId id row none changesetId draws.now
      let db := db.setHead id revisionId
      let db ← db.insertOutbox generation (scopedOrdinal ordinal index) .upsert id
        (some revisionId.toText) draws.now
      let db ← db.insertOperationEvent changesetId (scopedOrdinal ordinal index) "remembered" id
        (some revisionId.toText) draws.now
      recordRemembered draws changesetId generation ordinal db (index + 1) rest

def applyRemember [EntityMatching] (db : Database) (draws : Draws) (changesetId : ChangeSetId)
    (generation ordinal : Nat) (entityName : String) (entityType : EntityType)
    (observations : List ObservationInput) (relations : List RelationInput) :
    MemoryResult Database := do
  let (db, group) ← db.writeGroup draws ordinal entityName entityType observations relations
    "changeset" draws.now true
  recordRemembered draws changesetId generation ordinal db 0 group.outcome.observationIds

def applyUpdate (db : Database) (draws : Draws) (changesetId : ChangeSetId)
    (generation ordinal : Nat) (observation : Observation) (expectedRowVersion : UInt64)
    (expectedRevisionId : Option String) : MemoryResult Database := do
  let current ← db.loadObservation observation.id
  checkExpected current expectedRowVersion expectedRevisionId .active
  refuseIf (observation.entityId ≠ current.semantic.entityId ∨ observation.tombstoned = true)
    (.invalidInput "an observation update cannot change identity or lifecycle")
  let db ← db.replaceObservation observation.id observation.toSemanticContent observation.tombstoned
  db.recordRevision draws changesetId generation ordinal observation.id
    current.currentRevisionId expectedRowVersion .upsert "updated"

/-- Retire an active observation (`tombstoned`), or restore a retired one. -/
def applyLifecycle (db : Database) (draws : Draws) (changesetId : ChangeSetId)
    (generation ordinal : Nat) (id : String) (expectedVersion : UInt64) (tombstoned : Bool) :
    MemoryResult Database := do
  let current ← db.loadObservation id
  refuseIf (current.rowVersion ≠ expectedVersion.toNat ∨
    current.lifecycle ≠ if tombstoned then .active else .retired) .changeSetStale
  let db := { db with observations := db.observations.modify id fun row =>
    { row with tombstoned, lifecycle := if tombstoned then .retired else .active } }
  db.recordRevision draws changesetId generation ordinal id current.currentRevisionId
    expectedVersion (if tombstoned then .delete else .upsert)
    (if tombstoned then "retired" else "restored")

/-- The revision of an observation to go back to. -/
def observationFromRevision (db : Database) (revisionId observationId : String) :
    MemoryResult Revision :=
  orRefuse ((db.revisions.get? revisionId).filter fun revision =>
    revision.observationId = observationId) noRows

def applyRevert (db : Database) (draws : Draws) (changesetId : ChangeSetId)
    (generation ordinal : Nat) (id revisionId : String) (expectedRowVersion : UInt64) :
    MemoryResult Database := do
  let current ← db.loadObservation id
  refuseIf (current.rowVersion ≠ expectedRowVersion.toNat) .changeSetStale
  let historical ← db.observationFromRevision revisionId id
  let db ← db.replaceObservation id historical.semantic (historical.lifecycle ≠ .active)
  db.recordRevision draws changesetId generation ordinal id current.currentRevisionId
    expectedRowVersion .upsert "reverted"

/-- A confirmation that does not permit the destruction: of another space,
observation, revision, version, actor or authority, expired, or consumed. -/
def confirmationRefused (confirmation : DestructionConfirmation) (changeSet : ChangeSet)
    (observationId : String) (expectedRevisionId : Option String) (expectedRowVersion : UInt64)
    (now : Int64) : Prop :=
  confirmation.spaceId ≠ changeSet.spaceId ∨ confirmation.logicalId ≠ observationId ∨
    confirmation.expectedRevisionId ≠ expectedRevisionId ∨
    confirmation.expectedRowVersion ≠ expectedRowVersion.toNat ∨
    confirmation.actorId ≠ changeSet.actorId ∨ confirmation.authority ≠ changeSet.authority ∨
    confirmation.expiresAt < now ∨ confirmation.consumedAt ≠ none

instance (confirmation : DestructionConfirmation) (changeSet : ChangeSet) (observationId : String)
    (expectedRevisionId : Option String) (expectedRowVersion : UInt64) (now : Int64) :
    Decidable (confirmationRefused confirmation changeSet observationId expectedRevisionId
      expectedRowVersion now) :=
  inferInstanceAs (Decidable (_ ∨ _))

def applyDestroy (db : Database) (draws : Draws) (changesetId : ChangeSetId)
    (generation ordinal : Nat) (id : String) (expectedRowVersion : UInt64)
    (expectedRevisionId : Option String) (confirmationHash : String) : MemoryResult Database := do
  let current ← db.loadObservation id
  checkExpected current expectedRowVersion expectedRevisionId current.lifecycle
  let confirmation ← orRefuse (db.confirmations.get? confirmationHash) noRows
  let changeSet ← orRefuse (db.changeSets.get? changesetId) noRows
  refuseIf (confirmationRefused confirmation changeSet id expectedRevisionId expectedRowVersion
    draws.now) (.invalidInput "destruction confirmation is stale, consumed, or mismatched")
  let revisionId := draws.revision ordinal 0
  let db ← db.insertObservationRevision revisionId id
    { current with tombstoned := true, lifecycle := .destroyed } current.currentRevisionId
    changesetId draws.now
  let db ← db.insertOutbox generation (scopedOrdinal ordinal 0) .delete id
    (some revisionId.toText) draws.now
  let db ← db.insertOperationEvent changesetId (scopedOrdinal ordinal 0) "destroyed" id
    (some revisionId.toText) draws.now
  let db := db.deleteObservation id
  let db := { db with confirmations := db.confirmations.modify confirmationHash fun row =>
    { row with consumedAt := some draws.now } }
  let destructions ← db.destructions.insert changesetId
    { spaceId := confirmation.spaceId, logicalId := id, previewHash := confirmation.previewHash
      actorId := confirmation.actorId, destroyedAt := draws.now } uniqueViolation
  return { db with destructions }

/-- `apply_operation_tx`: one operation inside the open transaction. -/
def applyOperation [EntityMatching] (db : Database) (draws : Draws) (changesetId : ChangeSetId)
    (generation ordinal : Nat) : ChangeOperation → MemoryResult Database
  | .remember entityName entityType observations relations =>
    db.applyRemember draws changesetId generation ordinal entityName entityType observations
      relations
  | .updateObservation observation expectedRowVersion expectedRevisionId =>
    db.applyUpdate draws changesetId generation ordinal observation expectedRowVersion
      (expectedRevisionId.map SizedText.text)
  | .retireObservation observationId expectedRowVersion =>
    db.applyLifecycle draws changesetId generation ordinal observationId expectedRowVersion true
  | .restoreObservation observationId expectedRowVersion =>
    db.applyLifecycle draws changesetId generation ordinal observationId expectedRowVersion false
  | .revertObservation observationId revisionId expectedRowVersion =>
    db.applyRevert draws changesetId generation ordinal observationId revisionId expectedRowVersion
  | .destroyObservation observationId expectedRowVersion expectedRevisionId confirmationHash =>
    db.applyDestroy draws changesetId generation ordinal observationId expectedRowVersion
      (expectedRevisionId.map SizedText.text) confirmationHash

/-- The operations of a change set, in order; the first failure stops. -/
def applyOperations [EntityMatching] (draws : Draws) (changesetId : ChangeSetId)
    (generation : Nat) : Database → Nat → List ChangeOperation → MemoryResult Database
  | db, _, [] => .ok db
  | db, ordinal, operation :: rest => do
      let db ← db.applyOperation draws changesetId generation ordinal operation
      applyOperations draws changesetId generation db (ordinal + 1) rest

/-- Some change of the index is still owed. -/
def indexOwed (db : Database) : Bool := db.outbox.entries.any fun entry => entry.2.appliedAt.isNone

/-- Enter a generation, and ask for a repair while the index is owed changes. -/
def commitGeneration (db : Database) (generation : Nat) : Database :=
  { db with domain :=
      { db.domain with
        semanticGeneration := generation
        indexRepairRequired := db.indexOwed || db.domain.indexRepairRequired } }

end Database

end OpenMemory.Graph
