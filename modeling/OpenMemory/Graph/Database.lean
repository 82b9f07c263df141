import OpenMemory.Graph.Operation
import OpenMemory.Graph.Requests
import OpenMemory.Foundation.Table

/-!
# The database of a memory store

The tables of the schema, each under its primary key, and the statements that
write rows subject to the constraints of the schema: unique keys and foreign
keys, with the cascades of a deletion. A statement that violates a constraint
is an error, and a transaction that meets one leaves nothing behind.

The concepts and source files of an observation are rows of two side tables
that are only ever read in their order, so they stand in the observation's row
as sorted lists. Row versions, generations and ordinals are natural numbers:
no run comes near the width of their columns. An outbox row is known by its
generation and ordinal, which are unique. The metadata bag is its two uses: the
space the store is bound to, and the watermarks of batches.

The identifiers a call draws are random; they are a parameter of the call, and
drawing one that is taken violates a unique key.
-/

namespace OpenMemory.Graph

open Foundation
open Merge (Digest)

abbrev ChangeSetId := UuidV7Id .changeset

/-! ## Rows -/

structure StoredEntity where
  name : String
  entityType : EntityType
  createdAt : Int64
  updatedAt : Int64
  confidence : Float32Bits
  source : String

/-- An observation with its head, its version and its lifecycle. -/
structure ObservationRow where
  semantic : SemanticContent
  tombstoned : Bool
  accessCount : UInt32
  currentRevisionId : Option String
  rowVersion : Nat
  lifecycle : Lifecycle
  deriving DecidableEq

def ObservationRow.observation (row : ObservationRow) (id : String) : Observation where
  toSemanticContent := row.semantic
  id := id
  tombstoned := row.tombstoned
  accessCount := row.accessCount

structure StoredRelation where
  fromEntity : String
  toEntity : String
  relationType : String
  weight : Float32Bits
  createdAt : Int64
  validFrom : Option Int64
  validUntil : Option Int64
  source : String
  deriving DecidableEq

/-- One immutable state of an observation. -/
structure Revision where
  observationId : String
  semantic : SemanticContent
  parentRevisionId : Option String
  changesetId : ChangeSetId
  createdAt : Int64
  lifecycle : Lifecycle

structure ChangeSet where
  spaceId : SpaceId
  idempotencyKey : String
  requestHash : String
  submitMode : SubmitMode
  actorKind : ActorKind
  actorId : String
  authority : AuthoritySnapshot
  reason : String
  source : String
  baseGeneration : Nat
  committedGeneration : Option Nat
  state : ChangeSetState
  stateVersion : Nat
  createdAt : Int64
  updatedAt : Int64

structure ChangeRequest where
  objectKind : ObjectKind
  logicalId : String
  operation : String
  payloadJson : String
  expectedRevisionId : Option String
  expectedRowVersion : Option UInt64
  expectedLifecycle : Option Lifecycle

/-- The payload of an event: empty, or who reviewed and why. -/
inductive EventPayload where
  | empty
  | review (actor : String) (role : SpaceRole) (authority : AuthoritySnapshot) (reason : String)

structure ChangeEvent where
  eventType : String
  objectKind : Option ObjectKind
  logicalId : Option String
  revisionId : Option String
  payload : EventPayload
  createdAt : Int64

inductive OutboxOperation where
  | upsert
  | delete

/-- A change of the search index that is owed, or was made at `appliedAt`. -/
structure OutboxRow where
  operation : OutboxOperation
  logicalId : String
  revisionId : Option String
  attempts : Nat
  lastError : Option String
  appliedAt : Option Int64
  createdAt : Int64

structure DestructionConfirmation where
  spaceId : SpaceId
  logicalId : String
  expectedRevisionId : Option String
  expectedRowVersion : Nat
  previewHash : String
  actorId : String
  authority : AuthoritySnapshot
  expiresAt : Int64
  consumedAt : Option Int64
  createdAt : Int64

structure DestructionReceipt where
  spaceId : SpaceId
  logicalId : String
  previewHash : String
  actorId : String
  destroyedAt : Int64

structure DomainState where
  semanticGeneration : Nat
  indexedGeneration : Nat
  backfillCursor : Option String
  backfillComplete : Bool
  indexRepairRequired : Bool

/-- The row that the schema inserts. -/
def DomainState.initial : DomainState := ⟨0, 0, none, false, false⟩

/-! ## The database -/

structure Database where
  entities : Table String StoredEntity
  observations : Table String ObservationRow
  relations : Table String StoredRelation
  spaceId : Option SpaceId
  checkpoints : Table String UInt64
  domain : DomainState
  changeSets : Table ChangeSetId ChangeSet
  requests : Table (ChangeSetId × Nat) ChangeRequest
  events : Table (ChangeSetId × Nat) ChangeEvent
  revisions : Table String Revision
  outbox : Table (Nat × Nat) OutboxRow
  confirmations : Table String DestructionConfirmation
  destructions : Table ChangeSetId DestructionReceipt

def Database.initial : Database where
  entities := .empty
  observations := .empty
  relations := .empty
  spaceId := none
  checkpoints := .empty
  domain := .initial
  changeSets := .empty
  requests := .empty
  events := .empty
  revisions := .empty
  outbox := .empty
  confirmations := .empty
  destructions := .empty

/-! ## What a call draws -/

/-- The clock and the random identifiers of one call. Identifiers drawn in a
loop are numbered by the operation or group, and by the item in it. -/
structure Draws where
  now : Int64
  space : SpaceId
  changeSet : ChangeSetId
  confirmation : ChangeSetId
  revision : Nat → Nat → RevisionId
  entity : Nat → Nat → String
  observation : Nat → Nat → String
  relation : Nat → Nat → String
  sameAs : Nat → Nat → String

/-! ## Constraints -/

def uniqueViolation : MemoryError := .sqlite "UNIQUE constraint failed"

def foreignKeyViolation : MemoryError := .sqlite "FOREIGN KEY constraint failed"

def noRows : MemoryError := .sqlite "Query returned no rows"

/-- The rows of a side table as they are read: each text once, in order. -/
def sideRows (texts : List String) : List String := texts.dedup.insertionSort (· ≤ ·)

/-- `INSERT` of the rows of a side table, where a repeated text is refused. -/
def insertSideRows (texts : List String) : MemoryResult (List String) := do
  refuseIf (¬ texts.Nodup) uniqueViolation
  return sideRows texts

namespace Database

/-- An entity name is unique for its type. -/
def insertEntity (db : Database) (id : String) (row : StoredEntity) : MemoryResult Database := do
  refuseIf (∃ entry ∈ db.entities.entries,
    entry.2.name = row.name ∧ entry.2.entityType = row.entityType) uniqueViolation
  let entities ← db.entities.insert id row uniqueViolation
  return { db with entities }

def insertObservation (db : Database) (id : String) (row : ObservationRow) :
    MemoryResult Database := do
  refuseIf (db.entities.get? row.semantic.entityId = none) foreignKeyViolation
  let observations ← db.observations.insert id row uniqueViolation
  return { db with observations }

def insertRelation (db : Database) (id : String) (row : StoredRelation) : MemoryResult Database := do
  refuseIf (db.entities.get? row.fromEntity = none ∨ db.entities.get? row.toEntity = none)
    foreignKeyViolation
  let relations ← db.relations.insert id row uniqueViolation
  return { db with relations }

def insertRevision (db : Database) (id : String) (row : Revision) : MemoryResult Database := do
  let revisions ← db.revisions.insert id row uniqueViolation
  return { db with revisions }

/-- Delete an observation; its revisions stay. -/
def deleteObservation (db : Database) (id : String) : Database :=
  { db with observations := db.observations.erase id }

/-- Delete an entity, and with it its observations and its relations. -/
def deleteEntity (db : Database) (id : String) : Database :=
  { db with
    entities := db.entities.erase id
    observations := db.observations.filter fun _ row => row.semantic.entityId ≠ id
    relations := db.relations.filter fun _ row => row.fromEntity ≠ id ∧ row.toEntity ≠ id }

end Database

end OpenMemory.Graph
