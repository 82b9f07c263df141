import OpenMemory.Graph.ChangeSets

/-!
# The other transactions of a store

Everything beside the review of change sets that writes the database: the
compatibility writes of entity groups, the baselines of observations that have
no revision, the previews of destructions, imports and deletions, and the marks
on the outbox of the search index.
-/

namespace OpenMemory.Graph

open Foundation
open Merge (Blake3)

/-- A sum of seconds that stops at the ends of the range. -/
def saturate (value : Int) : Int64 :=
  Int64.ofInt (max (-2 ^ 63) (min (2 ^ 63 - 1) value))

namespace Database

/-! ## The space a store is bound to -/

def bindSpaceId (db : Database) (spaceId : SpaceId) : MemoryResult Database :=
  match db.spaceId with
  | some existing => do
      refuseIf (existing ≠ spaceId)
        (.invalidInput s!"memory store is bound to space {existing.toText}, not {spaceId.toText}")
      return db
  | none => return { db with spaceId := some spaceId }

/-- The space of compatibility writes: the bound one, or a new one. -/
def compatibilitySpaceId (db : Database) (draws : Draws) : Database × SpaceId :=
  match db.spaceId with
  | some existing => (db, existing)
  | none => ({ db with spaceId := some draws.space }, draws.space)

/-! ## Compatibility writes -/

section CompatibilityWrites

variable [Blake3] [PayloadCodec]

/-- The draft that records a compatibility write. -/
def legacyDraft (id : ChangeSetId) (spaceId : SpaceId) (changeSource : String)
    (operations : List ChangeOperation) : ChangeSetDraft where
  idempotencyKey := "legacy:" ++ id.toText
  spaceId := spaceId
  actorKind := .system
  actorId := "legacy"
  authority := .fromGenerations 1 [0]
  reason := "legacy remember"
  source := if changeSource = "" then "compatibility" else changeSource
  operations := operations

/-- Give the observations of each group their first revisions. -/
def recordGroups (draws : Draws) (changesetId : ChangeSetId) (generation : Nat) :
    Database → Nat → List RememberOutcome → MemoryResult Database
  | db, _, [] => .ok db
  | db, ordinal, outcome :: rest => do
      let db ← recordRemembered draws changesetId generation ordinal db 0 outcome.observationIds
      recordGroups draws changesetId generation db (ordinal + 1) rest

/-- `record_legacy_remembers`: record groups that were just written as an
applied change set. -/
def recordLegacyRemembers (db : Database) (draws : Draws) (outcomes : List RememberOutcome)
    (operations : List ChangeOperation) (changeSource : String) :
    MemoryResult (Database × Nat) := do
  let (db, spaceId) := db.compatibilitySpaceId draws
  let draft := legacyDraft draws.changeSet spaceId changeSource operations
  validateDraft draft
  let base := db.domain.semanticGeneration
  let db ← db.insertChangeSet draws.changeSet (submittedRow draft .applyImmediately base draws.now)
  let db ← insertRequests draws.changeSet db 0 operations
  let db ← recordGroups draws draws.changeSet (base + 1) db 0 outcomes
  return (db.commitGeneration (base + 1), base + 1)

end CompatibilityWrites

def rememberOperation (request : RememberRequest) : ChangeOperation :=
  .remember request.name request.entityType request.observations request.relations

section Batches

variable [Blake3] [PayloadCodec] [EntityMatching]

def writeGroups (draws : Draws) (normalize : Bool) :
    Database → Nat → List RememberRequest → MemoryResult (Database × List GroupWrite)
  | db, _, [] => .ok (db, [])
  | db, index, request :: rest => do
      let (db, group) ← db.writeGroup draws index request.name request.entityType
        request.observations request.relations request.source draws.now normalize
      let (db, groups) ← writeGroups draws normalize db (index + 1) rest
      return (db, group :: groups)

/-- Upsert a watermark, which never moves backwards. -/
def putCheckpoint (db : Database) (key : String) (value : UInt64) : Database :=
  match db.checkpoints.insert key value () with
  | .ok checkpoints => { db with checkpoints }
  | .error () => { db with checkpoints := db.checkpoints.modify key fun held => max held value }

def putCheckpoints (db : Database) : Option (String × UInt64) → Database
  | some (key, value) => db.putCheckpoint key value
  | none => db

/-- What a compatibility write tells its caller: the outcomes of the groups, and
for the search index their observations and the generation they entered. -/
structure Remembered where
  groups : List (String × GroupWrite)
  generation : Option Nat

/-- The transaction of `remember`: one group, recorded under the caller's
source. -/
def remember (db : Database) (draws : Draws) (request : RememberRequest) :
    MemoryResult (Database × Remembered) := do
  request.validate
  let (db, group) ← db.writeGroup draws 0 request.name request.entityType request.observations
    request.relations request.source draws.now true
  let (db, generation) ← db.recordLegacyRemembers draws [group.outcome]
    [rememberOperation request] request.source
  return (db, ⟨[(request.name, group)], some generation⟩)

/-- The transaction of `remember_batch`: all groups, or none. -/
def rememberBatch (db : Database) (draws : Draws) (requests : List RememberRequest)
    (options : BatchOptions) : MemoryResult (Database × Remembered) := do
  requests.forM RememberRequest.validate
  let (db, groups) ← writeGroups draws options.normalize db 0 requests
  match requests with
  | [] => return (db.putCheckpoints options.checkpoint, ⟨[], none⟩)
  | _ => do
      let (db, generation) ← db.recordLegacyRemembers draws (groups.map GroupWrite.outcome)
        (requests.map rememberOperation) "compatibility-batch"
      return (db.putCheckpoints options.checkpoint,
        ⟨(requests.map RememberRequest.name).zip groups, some generation⟩)

end Batches

/-! ## Baselines and retention -/

/-- The next observations without a revision, at most `limit` of them. -/
def backfillPage (db : Database) (limit : Nat) : List String :=
  (((db.observations.entries.filter fun entry =>
    entry.2.currentRevisionId = none ∧
      db.domain.backfillCursor.all fun cursor => cursor < entry.1).map Prod.fst).insertionSort
    (· ≤ ·)).take limit

/-- The applied change set that a page of baselines belongs to. -/
def baselineRow [Blake3] (id : ChangeSetId) (spaceId : SpaceId) (now : Int64) : ChangeSet where
  spaceId := spaceId
  idempotencyKey := "baseline:" ++ id.toText
  requestHash := baselineHash id.toText
  submitMode := .applyImmediately
  actorKind := .system
  actorId := "backfill"
  authority := .fromGenerations 1 [0]
  reason := "legacy baseline"
  source := "backfill"
  baseGeneration := 0
  committedGeneration := some 0
  state := .applied
  stateVersion := 1
  createdAt := now
  updatedAt := now

/-- Give each observation of a page a first revision; its version stays. -/
def insertBaselines (draws : Draws) : Database → Nat → List String → MemoryResult Database
  | db, _, [] => .ok db
  | db, index, id :: rest => do
      let row ← db.loadObservation id
      let revisionId := draws.revision 0 index
      let db ← db.insertObservationRevision revisionId id row none draws.changeSet draws.now
      let db := { db with observations := db.observations.modify id fun row =>
        if row.currentRevisionId = none then
          { row with currentRevisionId := some revisionId.toText }
        else row }
      let db ← db.insertOperationEvent draws.changeSet index "baseline" id
        (some revisionId.toText) draws.now
      insertBaselines draws db (index + 1) rest

def backfillAudit [Blake3] (db : Database) (draws : Draws) (limit : Nat) : MemoryResult Database := do
  let limit := max 1 (min limit 1024)
  let spaceId ← db.boundSpaceId
  let page := db.backfillPage limit
  if page = [] then return { db with domain := { db.domain with backfillComplete := true } }
  let db ← db.insertChangeSet draws.changeSet (baselineRow draws.changeSet spaceId draws.now)
  let db ← insertBaselines draws db 0 page
  return { db with domain :=
    { db.domain with
      backfillCursor := page.getLast?
      backfillComplete := decide (page.length < limit) } }

/-- Remove the stored operations of proposals rejected long enough ago. -/
def compactRejectedProposals (db : Database) (draws : Draws) (retentionSecs : Int64)
    (limit : Nat) : Database :=
  let cutoff := saturate (draws.now.toInt - max 0 retentionSecs.toInt)
  let ids := (((db.changeSets.entries.filter fun entry =>
    entry.2.state = .rejected ∧ entry.2.updatedAt ≤ cutoff ∧
      (db.requests.entries.any fun request => request.1.1 = entry.1) = true).insertionSort
      fun left right => left.2.updatedAt < right.2.updatedAt ∨
        (left.2.updatedAt = right.2.updatedAt ∧ left.1.toText ≤ right.1.toText)).take
        (max 1 (min limit 1024))).map Prod.fst
  { db with requests := db.requests.filter fun key _ => key.1 ∉ ids }

/-! ## Destruction -/

/-- A text in memory with its size; every one has a size below `2 ^ 64`. -/
def sizedText (text : String) : Option SizedText :=
  if sized : text.utf8ByteSize < 2 ^ 64 then some ⟨text, sized⟩ else none

structure DestructionPreview where
  spaceId : SpaceId
  observationId : String
  expectedRevisionId : Option SizedText
  expectedRowVersion : UInt64
  revisionCount : Nat
  sideTableRowCount : Nat
  previewHash : String
  expiresAt : Int64
  confirmationToken : String

def maxDestructionConfirmationTtlSecs : Int := 300

/-- The confirmation that a preview of a row stores. -/
def confirmationOf [Blake3] (db : Database) (draws : Draws) (spaceId : SpaceId) (observationId : String)
    (row : ObservationRow) (review : ReviewAuthorization) (ttlSecs : Int64) :
    DestructionConfirmation where
  spaceId := spaceId
  logicalId := observationId
  expectedRevisionId := row.currentRevisionId
  expectedRowVersion := row.rowVersion
  previewHash := destructionPreviewHash spaceId observationId row.currentRevisionId row.rowVersion
    (db.revisions.entries.filter fun entry => entry.2.observationId = observationId).length
    (row.semantic.concepts.length + row.semantic.sourceFiles.length)
  actorId := review.actorId
  authority := review.authority
  expiresAt := saturate (draws.now.toInt +
    max 1 (min maxDestructionConfirmationTtlSecs ttlSecs.toInt))
  consumedAt := none
  createdAt := draws.now

def previewObservationDestruction [Blake3] (db : Database) (draws : Draws) (observationId : String)
    (review : ReviewAuthorization) (ttlSecs : Int64) :
    MemoryResult (Database × DestructionPreview) := do
  refuseIf (review.role ≠ .maintainer)
    (.invalidInput "observation destruction requires a human maintainer")
  let spaceId ← db.boundSpaceId
  let row ← db.loadObservation observationId
  let confirmation := db.confirmationOf draws spaceId observationId row review ttlSecs
  let token := draws.confirmation.toText
  let confirmations ← db.confirmations.insert (destructionTokenHash token) confirmation
    uniqueViolation
  return ({ db with confirmations },
    { spaceId, observationId
      expectedRevisionId := row.currentRevisionId.bind sizedText
      expectedRowVersion := UInt64.ofNat row.rowVersion
      revisionCount :=
        (db.revisions.entries.filter fun entry => entry.2.observationId = observationId).length
      sideTableRowCount := row.semantic.concepts.length + row.semantic.sourceFiles.length
      previewHash := confirmation.previewHash
      expiresAt := confirmation.expiresAt
      confirmationToken := token })

def destructionDraft [Blake3] (preview : DestructionPreview) (review : ReviewAuthorization)
    (idempotencyKey reason : String) : ChangeSetDraft where
  idempotencyKey := idempotencyKey
  spaceId := preview.spaceId
  actorKind := .human
  actorId := review.actorId
  authority := review.authority
  reason := reason
  source := "human-admin"
  operations := [.destroyObservation preview.observationId preview.expectedRowVersion
    preview.expectedRevisionId (destructionTokenHash preview.confirmationToken)]

def destroyObservation [Blake3] [PayloadCodec] [EntityMatching] (db : Database) (draws : Draws)
    (preview : DestructionPreview) (review : ReviewAuthorization)
    (idempotencyKey reason : String) : MemoryResult (Database × Submission) := do
  refuseIf (review.role ≠ .maintainer)
    (.invalidInput "observation destruction requires a human maintainer")
  let (db, spaceId) := db.compatibilitySpaceId draws
  refuseIf (preview.spaceId ≠ spaceId)
    (.invalidInput "destruction preview belongs to another space")
  db.submitChangeset draws (destructionDraft preview review idempotencyKey reason) .applyImmediately

/-! ## Imports and deletions -/

def importedRow (observation : Observation) : ObservationRow where
  semantic := { observation.toSemanticContent with
    concepts := sideRows observation.concepts
    sourceFiles := sideRows observation.sourceFiles }
  tombstoned := observation.tombstoned
  accessCount := observation.accessCount
  currentRevisionId := none
  rowVersion := 1
  lifecycle := .active

def importEntity (db : Database) (entity : Entity) : MemoryResult Database :=
  db.insertEntity entity.id
    { name := entity.name, entityType := entity.entityType, createdAt := entity.createdAt
      updatedAt := entity.updatedAt, confidence := entity.confidence, source := entity.source }

def importRelation (db : Database) (relation : Relation) : MemoryResult Database :=
  db.insertRelation relation.id
    { fromEntity := relation.fromEntity, toEntity := relation.toEntity
      relationType := relation.relationType, weight := relation.weight
      createdAt := relation.createdAt, validFrom := relation.validFrom
      validUntil := relation.validUntil, source := relation.source }

/-- Insert exported rows as they are. -/
def importRaw (db : Database) (entities : List Entity) (observations : List Observation)
    (relations : List Relation) : MemoryResult Database := do
  let db ← entities.foldlM importEntity db
  let db ← observations.foldlM (fun db observation =>
    db.insertObservation observation.id (importedRow observation)) db
  relations.foldlM importRelation db

/-- An observation that was deleted from sight before the cutoff. -/
def stale (cutoff : Int64) (row : ObservationRow) : Bool :=
  row.tombstoned && decide (row.semantic.validUntil.getD row.semantic.observedAt ≤ cutoff)

/-- An entity without observations and without live relations. -/
def orphaned (db : Database) (now : Int64) (id : String) : Bool :=
  (db.observations.entries.all fun entry => entry.2.semantic.entityId ≠ id) &&
    db.relations.entries.all fun entry =>
      (entry.2.fromEntity ≠ id && entry.2.toEntity ≠ id) ||
        entry.2.validUntil.any fun until_ => until_ ≤ now

def pruneWithTtl (db : Database) (draws : Draws) (ttlSecs : Int64) : Database :=
  let cutoff := draws.now - max 0 ttlSecs
  let db := { db with observations := db.observations.filter fun _ row => !stale cutoff row }
  ((db.entities.entries.map Prod.fst).filter (db.orphaned draws.now)).foldl deleteEntity db

def forgetEntityById (db : Database) (entityId : String) : MemoryResult Database := do
  refuseIf (blank entityId) (.invalidInput "entity id must not be empty")
  refuseIf (db.entities.get? entityId = none) (.entityNotFound entityId)
  return db.deleteEntity entityId

def addAccesses (db : Database) (accesses : List (String × UInt32)) : Database :=
  accesses.foldl (fun db access => { db with
    observations := db.observations.modify access.1 fun row =>
      { row with accessCount := row.accessCount + access.2 } }) db

def addRelation (db : Database) (draws : Draws) (fromEntityId toEntityId relationType : String)
    (weight : Option Float32Bits) (source : String) : MemoryResult Database := do
  refuseIf (blank relationType) (.invalidInput "relation_type must not be empty")
  refuseIf (fromEntityId = toEntityId) (.invalidInput "from_entity_id and to_entity_id must differ")
  refuseIf (db.entities.get? fromEntityId = none) (.entityNotFound fromEntityId)
  refuseIf (db.entities.get? toEntityId = none) (.entityNotFound toEntityId)
  db.insertRelation (draws.relation 0 0)
    { fromEntity := fromEntityId, toEntity := toEntityId, relationType
      weight := weight.getD .one, createdAt := draws.now, validFrom := some draws.now
      validUntil := none, source }

/-! ## Marks on the outbox -/

/-- The generations of the changes that are still owed. -/
def owedGenerations (db : Database) : List Nat :=
  (db.outbox.entries.filter fun entry => entry.2.appliedAt.isNone).map fun entry => entry.1.1

def recordIndexFailure (db : Database) (key : Nat × Nat) (error : String) : Database :=
  { db with
    outbox := db.outbox.modify key fun row =>
      if row.appliedAt = none then
        { row with attempts := row.attempts + 1, lastError := some error }
      else row
    domain := { db.domain with indexRepairRequired := true } }

/-- Mark rows of the outbox, without the watermark. -/
def markRows (db : Database) (now : Int64) (keys : List (Nat × Nat)) : Database :=
  { db with outbox := db.outbox.map fun key row =>
      if key ∈ keys ∧ row.appliedAt = none then
        { row with appliedAt := some now, attempts := row.attempts + 1, lastError := none }
      else row }

/-- The highest generation up to which nothing is owed. -/
def watermark (db : Database) : Nat :=
  match db.owedGenerations.min? with
  | some first => first - 1
  | none => db.domain.semanticGeneration

def markIndexRowsApplied (db : Database) (now : Int64) (keys : List (Nat × Nat)) : Database :=
  let marked := db.markRows now keys
  { marked with domain :=
      { marked.domain with
        indexedGeneration := marked.watermark
        indexRepairRequired := decide (marked.owedGenerations ≠ []) } }

/-- The rows of a generation that `mark_index_generations_current` finds. -/
def owedKeys (db : Database) (generation : Nat) : List (Nat × Nat) :=
  (db.outbox.entries.filter fun entry =>
    entry.1.1 = generation ∧ entry.2.appliedAt = none).map Prod.fst

end Database

end OpenMemory.Graph
