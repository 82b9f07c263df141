import OpenMemory.Foundation.Pages
import OpenMemory.Graph.Store

/-!
# Reading revisions

The history of an observation is read in pages behind a cursor, in the order of time and
id, and only as far as the change sets belong to the space the store is bound to. Two
revisions of an observation are compared field by field; the lists of concepts and files
are compared as sets. A revision also has a hash of its content and its lifecycle.

The values of a comparison are shown as JSON, which is a parameter.
-/

namespace OpenMemory.Graph

open Foundation
open Merge (Blake3)

theorem Lifecycle.asStr_injective : Function.Injective Lifecycle.asStr := by
  intro left right same
  cases left <;> cases right <;> first | rfl | exact absurd same (by decide)

attribute [ext] SemanticContent

/-! ## Hashes -/

/-- The bytes that `observation_hash` hashes. The confidence has no frame. -/
def observationBytes (observation : SemanticContent) (lifecycle : Lifecycle) : Bytes :=
  utf8 "openmemory/observation/v1" ++ (Frame.str observation.entityId ++
    Frame.str observation.content ++ Frame.optional Frame.str observation.title ++
    Frame.optional Frame.str observation.summary ++ Frame.str observation.source ++
    Frame.optional Frame.str observation.sourceKind ++
    Frame.str observation.memoryTier.asStr ++ Frame.str lifecycle.asStr ++
    Frame.i64 observation.observedAt ++ Frame.optional Frame.i64 observation.validFrom ++
    Frame.optional Frame.i64 observation.validUntil ++
    leBytes 4 observation.confidence.toBits.toNat ++
    Frame.optional Frame.f32 observation.importance ++
    Frame.sortedStrings observation.concepts ++ Frame.sortedStrings observation.sourceFiles)

def observationHash [Blake3] (observation : SemanticContent) (lifecycle : Lifecycle) : String :=
  blake3Text (observationBytes observation lifecycle)

/-- The column `semantic_hash`, which is written with the revision. -/
def Revision.semanticHash [Blake3] (revision : Revision) : String :=
  observationHash revision.semantic revision.lifecycle

/-! ## Histories -/

structure HistoryCursor where
  createdAtUnixSecs : Int64
  revisionId : String

/-- The order of the query: by time, and by id at one time. -/
def HistoryCursor.key (cursor : HistoryCursor) : Int ×ₗ String :=
  toLex (cursor.createdAtUnixSecs.toInt, cursor.revisionId)

structure ObservationHistoryEntry where
  spaceId : SpaceId
  observationId : String
  revisionId : String
  parentRevisionId : Option String
  changesetId : ChangeSetId
  lifecycle : Lifecycle
  semanticHash : String
  actorKind : ActorKind
  actorId : String
  reason : String
  source : String
  createdAtUnixSecs : Int64

namespace ObservationHistoryEntry

def cursor (entry : ObservationHistoryEntry) : HistoryCursor :=
  ⟨entry.createdAtUnixSecs, entry.revisionId⟩

def key (entry : ObservationHistoryEntry) : Int ×ₗ String := entry.cursor.key

end ObservationHistoryEntry

structure ObservationHistoryPage where
  entries : List ObservationHistoryEntry
  nextCursor : Option HistoryCursor

/-- The cursor that a query without one begins behind. -/
def HistoryCursor.start : HistoryCursor := ⟨Int64.minValue, ""⟩

namespace Database

variable [Blake3]

/-- The revisions of an observation, joined with the change sets of a space. -/
def historyRows (db : Database) (spaceId : SpaceId) (observationId : String) :
    List ObservationHistoryEntry :=
  (db.revisions.entries.filter fun (_, revision) => revision.observationId = observationId).filterMap
    fun (revisionId, revision) =>
      ((db.changeSets.get? revision.changesetId).filter fun changes =>
        changes.spaceId = spaceId).map fun changes =>
          { spaceId := spaceId
            observationId := observationId
            revisionId := revisionId
            parentRevisionId := revision.parentRevisionId
            changesetId := revision.changesetId
            lifecycle := revision.lifecycle
            semanticHash := revision.semanticHash
            actorKind := changes.actorKind
            actorId := changes.actorId
            reason := changes.reason
            source := changes.source
            createdAtUnixSecs := revision.createdAt }

def observationHistory (db : Database) (observationId : String) (after : Option HistoryCursor)
    (limit : Nat) : MemoryResult ObservationHistoryPage := do
  refuseIf (blank observationId) (.invalidInput "observation id must not be empty")
  let limit := max 1 (min limit 256)
  let spaceId ← orRefuse db.spaceId noRows
  let after := after.getD .start
  let raw := (behind ObservationHistoryEntry.key after.key
    (db.historyRows spaceId observationId)).take (limit + 1)
  let hasMore := limit < raw.length
  let entries := raw.take limit
  let nextCursor :=
    if hasMore then entries.getLast?.map ObservationHistoryEntry.cursor else none
  return { entries, nextCursor }

end Database

/-! ## Differences -/

/-- A field of a revision as it is compared; numbers are compared by their bits. -/
inductive FieldValue where
  | text (value : String)
  | optionalText (value : Option String)
  | texts (values : List String)
  | time (value : Int64)
  | optionalTime (value : Option Int64)
  | number (value : Float32Bits)
  | optionalNumber (value : Option Float32Bits)
  deriving DecidableEq

/-- The JSON library: the text of a value. -/
class ValueJson where
  toJson : FieldValue → String

/-- A value of any length in bounded space. -/
structure DiffValueSummary where
  hash : String
  byteLen : Nat
  preview : String
  truncated : Bool

structure ObservationFieldChange where
  field : String
  before : DiffValueSummary
  after : DiffValueSummary

structure DiffProvenance where
  changesetId : ChangeSetId
  actorKind : ActorKind
  actorId : String
  reason : String
  source : String

structure ObservationRevisionDiff where
  spaceId : SpaceId
  observationId : String
  fromRevisionId : String
  toRevisionId : String
  fromLifecycle : Lifecycle
  toLifecycle : Lifecycle
  changes : List ObservationFieldChange
  provenance : DiffProvenance
  expectedHeadRevisionId : String
  currentHeadRevisionId : Option String
  stale : Bool

def maxPreviewBytes : Nat := 256

/-- The characters that fit into a number of bytes. -/
def previewChars : Nat → List Char → List Char
  | _, [] => []
  | budget, c :: rest =>
    if c.utf8Size ≤ budget then c :: previewChars (budget - c.utf8Size) rest else []

section Differences

variable [Blake3] [ValueJson]

def summarize (value : FieldValue) : DiffValueSummary :=
  let encoded := ValueJson.toJson value
  let truncated := decide (maxPreviewBytes < encoded.utf8ByteSize)
  { hash := blake3Text (utf8 encoded)
    byteLen := encoded.utf8ByteSize
    preview := if truncated then .ofList (previewChars maxPreviewBytes encoded.toList) else encoded
    truncated }

def pushChange (field : String) (before after : FieldValue) : List ObservationFieldChange :=
  if before ≠ after then [⟨field, summarize before, summarize after⟩] else []

/-- The changes of all fields, in a fixed order. -/
def fieldChanges (before after : Revision) : List ObservationFieldChange :=
  let old := before.semantic
  let new := after.semantic
  pushChange "entity_id" (.text old.entityId) (.text new.entityId) ++
    pushChange "content" (.text old.content) (.text new.content) ++
    pushChange "title" (.optionalText old.title) (.optionalText new.title) ++
    pushChange "summary" (.optionalText old.summary) (.optionalText new.summary) ++
    pushChange "concepts" (.texts old.concepts) (.texts new.concepts) ++
    pushChange "source_files" (.texts old.sourceFiles) (.texts new.sourceFiles) ++
    pushChange "observed_at" (.time old.observedAt) (.time new.observedAt) ++
    pushChange "valid_from" (.optionalTime old.validFrom) (.optionalTime new.validFrom) ++
    pushChange "valid_until" (.optionalTime old.validUntil) (.optionalTime new.validUntil) ++
    pushChange "confidence" (.number old.confidence) (.number new.confidence) ++
    pushChange "source" (.text old.source) (.text new.source) ++
    pushChange "source_kind" (.optionalText old.sourceKind) (.optionalText new.sourceKind) ++
    pushChange "importance" (.optionalNumber old.importance) (.optionalNumber new.importance) ++
    pushChange "memory_tier" (.text old.memoryTier.asStr) (.text new.memoryTier.asStr) ++
    pushChange "lifecycle" (.text before.lifecycle.asStr) (.text after.lifecycle.asStr)

namespace Database

omit [Blake3] [ValueJson] in
/-- A revision as it is compared: its lists are sorted and without repetition. -/
def revisionFields (db : Database) (revisionId : String) : MemoryResult Revision := do
  let revision ← orRefuse (db.revisions.get? revisionId) noRows
  return { revision with
    semantic := { revision.semantic with
      concepts := sideRows revision.semantic.concepts
      sourceFiles := sideRows revision.semantic.sourceFiles } }

def observationRevisionDiff (db : Database) (fromRevision toRevision : String) :
    MemoryResult ObservationRevisionDiff := do
  let before ← db.revisionFields fromRevision
  let after ← db.revisionFields toRevision
  refuseIf (before.observationId ≠ after.observationId)
    (.invalidInput "revision diff requires one logical observation")
  let changes ← orRefuse (db.changeSets.get? after.changesetId) noRows
  let currentHead := (db.observations.get? after.observationId).bind
    ObservationRow.currentRevisionId
  return {
    spaceId := changes.spaceId
    observationId := after.observationId
    fromRevisionId := fromRevision
    toRevisionId := toRevision
    fromLifecycle := before.lifecycle
    toLifecycle := after.lifecycle
    changes := fieldChanges before after
    provenance :=
      { changesetId := after.changesetId, actorKind := changes.actorKind
        actorId := changes.actorId, reason := changes.reason, source := changes.source }
    expectedHeadRevisionId := toRevision
    currentHeadRevisionId := currentHead
    stale := currentHead != some toRevision }

end Database

theorem pushChange_eq_nil {field : String} {before after : FieldValue} :
    pushChange field before after = [] ↔ before = after := by
  by_cases same : before = after
  · simp [pushChange, same]
  · simp [pushChange, same]

/-- **The fifteen fields are all there is**: no change is listed exactly where content and
lifecycle are the same. -/
theorem fieldChanges_eq_nil {before after : Revision} :
    fieldChanges before after = [] ↔
      before.semantic = after.semantic ∧ before.lifecycle = after.lifecycle := by
  constructor
  · intro none
    unfold fieldChanges at none
    simp only [List.append_eq_nil_iff, pushChange_eq_nil, FieldValue.text.injEq,
      FieldValue.optionalText.injEq, FieldValue.texts.injEq, FieldValue.time.injEq,
      FieldValue.optionalTime.injEq, FieldValue.number.injEq, FieldValue.optionalNumber.injEq,
      MemoryTier.asStr_injective.eq_iff, Lifecycle.asStr_injective.eq_iff] at none
    obtain ⟨⟨⟨⟨⟨⟨⟨⟨⟨⟨⟨⟨⟨⟨entityId, content⟩, title⟩, summary⟩, concepts⟩, sourceFiles⟩, observedAt⟩,
      validFrom⟩, validUntil⟩, confidence⟩, source⟩, sourceKind⟩, importance⟩, memoryTier⟩,
      lifecycle⟩ := none
    exact ⟨SemanticContent.ext entityId content observedAt validFrom validUntil confidence source
      memoryTier title summary importance sourceKind concepts sourceFiles, lifecycle⟩
  · rintro ⟨semantic, lifecycle⟩
    unfold fieldChanges
    simp only [List.append_eq_nil_iff, pushChange_eq_nil, semantic, lifecycle, and_self]

end Differences

/-! ## Baselines -/

structure BackfillReport where
  baselinesCreated : Nat
  nextCursor : Option String
  complete : Bool

/-- What a call of `backfill_audit` that succeeds reports. -/
def Database.backfillReport (db : Database) (limit : Nat) : BackfillReport :=
  let limit := max 1 (min limit 1024)
  let rows := db.backfillPage limit
  if rows = [] then
    { baselinesCreated := 0, nextCursor := db.domain.backfillCursor, complete := true }
  else
    { baselinesCreated := rows.length
      nextCursor := rows.getLast?
      complete := decide (rows.length < limit) }

end OpenMemory.Graph
