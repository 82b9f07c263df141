import OpenMemory.Foundation.Failures
import OpenMemory.Graph.WriteEffects

/-!
# What the statements of a write can fail with

Writing groups of entities and recording observations are statements of the
database and nothing else: whatever they are asked to write, they fail only with
an error of SQLite, so every other refusal of a write comes from a check that
stands before them. A statement that loads an observation finds it, because the
same transaction has inserted it.
-/

namespace OpenMemory.Graph

open Foundation
open Merge (Blake3)

/-- An error of the database itself. -/
def MemoryError.IsSqlite : MemoryError → Prop
  | .sqlite _ => True
  | _ => False

/-- A write that no statement of SQLite lets down. -/
abbrev Undisturbed {α : Type} (result : MemoryResult α) : Prop :=
  Spared MemoryError.IsSqlite result

variable {index : Nat} {row : ObservationRow} {version : UInt64}

namespace Database

variable {db : Database} {draws : Draws} {id : String} {changesetId : ChangeSetId}
  {generation ordinal : Nat} {now : Int64}

theorem failsWith_insert {κ ρ : Type} [DecidableEq κ] {table : Table κ ρ} {key : κ} {row : ρ} :
    FailsWith MemoryError.IsSqlite (table.insert key row uniqueViolation) := by
  unfold Table.insert
  split
  · trivial
  · trivial

theorem failsWith_insertEntity {row : StoredEntity} :
    FailsWith MemoryError.IsSqlite (db.insertEntity id row) :=
  failsWith_bind (failsWith_refuseIf fun _ => trivial) fun _ _ =>
    failsWith_bind failsWith_insert fun _ _ => trivial

theorem failsWith_insertObservation :
    FailsWith MemoryError.IsSqlite (db.insertObservation id row) :=
  failsWith_bind (failsWith_refuseIf fun _ => trivial) fun _ _ =>
    failsWith_bind failsWith_insert fun _ _ => trivial

theorem failsWith_insertRelation {row : StoredRelation} :
    FailsWith MemoryError.IsSqlite (db.insertRelation id row) :=
  failsWith_bind (failsWith_refuseIf fun _ => trivial) fun _ _ =>
    failsWith_bind failsWith_insert fun _ _ => trivial

theorem failsWith_insertRevision {row : Revision} :
    FailsWith MemoryError.IsSqlite (db.insertRevision id row) :=
  failsWith_bind failsWith_insert fun _ _ => trivial

theorem failsWith_insertOutbox {operation : OutboxOperation} {revisionId : Option String} :
    FailsWith MemoryError.IsSqlite
      (db.insertOutbox generation ordinal operation id revisionId now) :=
  failsWith_bind failsWith_insert fun _ _ => trivial

theorem failsWith_insertEvent {event : ChangeEvent} :
    FailsWith MemoryError.IsSqlite (db.insertEvent changesetId ordinal event) :=
  failsWith_bind failsWith_insert fun _ _ => trivial

theorem failsWith_insertChangeSet {row : ChangeSet} :
    FailsWith MemoryError.IsSqlite (db.insertChangeSet changesetId row) :=
  failsWith_bind (failsWith_refuseIf fun _ => trivial) fun _ _ =>
    failsWith_bind failsWith_insert fun _ _ => trivial

theorem failsWith_insertRequests [PayloadCodec] {operations : List ChangeOperation} :
    FailsWith MemoryError.IsSqlite (insertRequests changesetId db ordinal operations) := by
  induction operations generalizing db ordinal with
  | nil => trivial
  | cons operation rest ih => exact failsWith_bind failsWith_insert fun _ _ => ih

/-! ## Groups -/

section Groups

variable [EntityMatching] {name source : String} {entityType : EntityType} {normalize : Bool}
  {group : Nat}

theorem failsWith_ensureEntity {newId sameAsId : String} :
    FailsWith MemoryError.IsSqlite
      (db.ensureEntity name entityType source now normalize newId sameAsId) := by
  unfold ensureEntity
  split
  · trivial
  · split
    · trivial
    · exact failsWith_bind failsWith_insertEntity fun _ _ =>
        failsWith_bind failsWith_insertRelation fun _ _ => trivial
    · exact failsWith_bind failsWith_insertEntity fun _ _ => trivial

omit [EntityMatching] in
theorem failsWith_writeObservations {entityId : String} {ids : Nat → String}
    {observations : List ObservationInput} : FailsWith MemoryError.IsSqlite
      (writeObservations entityId source now ids db index observations) := by
  induction observations generalizing db index with
  | nil => trivial
  | cons input rest ih => exact failsWith_bind failsWith_insertObservation fun _ _ => ih

theorem failsWith_writeRelations {entityId : String} {relations : List RelationInput} :
    FailsWith MemoryError.IsSqlite
      (writeRelations draws group entityId source now normalize db index relations) := by
  induction relations generalizing db index with
  | nil => trivial
  | cons relation rest ih =>
    exact failsWith_bind failsWith_ensureEntity fun _ _ =>
      failsWith_bind failsWith_insertRelation fun _ _ => ih

theorem failsWith_writeGroup {observations : List ObservationInput}
    {relations : List RelationInput} :
    FailsWith MemoryError.IsSqlite
      (db.writeGroup draws group name entityType observations relations source now normalize) :=
  failsWith_bind failsWith_ensureEntity fun _ _ =>
    failsWith_bind failsWith_writeObservations fun _ _ =>
      failsWith_bind failsWith_writeRelations fun _ _ => trivial

theorem failsWith_writeGroups {requests : List RememberRequest} :
    FailsWith MemoryError.IsSqlite (writeGroups draws normalize db index requests) := by
  induction requests generalizing db index with
  | nil => trivial
  | cons request rest ih =>
    exact failsWith_bind failsWith_writeGroup fun _ _ => failsWith_bind ih fun _ _ => trivial

end Groups

/-! ## Recording observations -/

theorem failsWith_recordRemembered {ids : List String} (headless : Headless db ids) :
    FailsWith MemoryError.IsSqlite
      (recordRemembered draws changesetId generation ordinal db index ids) := by
  induction ids generalizing db index with
  | nil => trivial
  | cons id rest ih =>
    obtain ⟨row, present, no_head⟩ := headless.rows id List.mem_cons_self
    refine failsWith_bind (failsWith_of_eq_ok (loadObservation_eq_ok.mpr present))
      fun loaded same => ?_
    rw [loadObservation_eq_ok] at same
    cases present.symm.trans same
    refine failsWith_bind failsWith_insertRevision fun revised first =>
      failsWith_bind failsWith_insertOutbox fun owing second =>
        failsWith_bind failsWith_insertEvent fun noted third => ih ?_
    obtain ⟨absent, distinct⟩ := List.nodup_cons.mp headless.distinct
    have observations : noted.observations = db.observations.modify id fun row =>
        { row with currentRevisionId := some (draws.revision ordinal index).toText } := by
      rw [insertOperationEvent_eventsOnly third]
      obtain ⟨_, _, rfl⟩ := insertOutbox_eq_ok second
      obtain ⟨_, _, rfl⟩ := insertRevision_eq_ok first
      rfl
    refine ⟨distinct, fun other member => ?_⟩
    obtain ⟨held, there, headless⟩ := headless.rows other (List.mem_cons_of_mem _ member)
    refine ⟨held, ?_, headless⟩
    rw [observations, Table.get?_modify_of_ne]
    · exact there
    · rintro rfl
      exact absent member

theorem failsWith_recordGroups {outcomes : List RememberOutcome}
    (headless : Headless db (outcomes.flatMap RememberOutcome.observationIds)) :
    FailsWith MemoryError.IsSqlite
      (recordGroups draws changesetId generation db ordinal outcomes) := by
  induction outcomes generalizing db ordinal with
  | nil => trivial
  | cons outcome rest ih =>
    rw [List.flatMap_cons] at headless
    obtain ⟨distinct, restDistinct, apart⟩ := List.nodup_append.mp headless.distinct
    have own : Headless db outcome.observationIds :=
      ⟨distinct, fun id member => headless.rows id (List.mem_append_left _ member)⟩
    refine failsWith_bind (failsWith_recordRemembered own) fun next recorded => ih ?_
    obtain ⟨-, -, elsewhere⟩ := recordRemembered_follows own recorded
    refine ⟨restDistinct, fun id member => ?_⟩
    rw [elsewhere id fun here => apart id here id member rfl]
    exact headless.rows id (List.mem_append_right _ member)

/-! ## Change sets -/

theorem failsWith_replaceObservation {semantic : SemanticContent} {tombstoned : Bool} :
    FailsWith MemoryError.IsSqlite (db.replaceObservation id semantic tombstoned) :=
  failsWith_bind (failsWith_refuseIf fun _ => trivial) fun _ _ =>
    failsWith_bind (failsWith_bind (failsWith_refuseIf fun _ => trivial) fun _ _ => trivial)
      fun _ _ => failsWith_bind (failsWith_bind (failsWith_refuseIf fun _ => trivial)
        fun _ _ => trivial) fun _ _ => trivial

theorem failsWith_recordRevision {parent : Option String}
    {operation : OutboxOperation} {eventType : String}
    (present : db.observations.get? id = some row) :
    FailsWith MemoryError.IsSqlite (db.recordRevision draws changesetId generation ordinal id
      parent version operation eventType) :=
  failsWith_bind (failsWith_of_eq_ok (loadObservation_eq_ok.mpr present)) fun _ _ =>
    failsWith_bind failsWith_insertRevision fun _ _ =>
      failsWith_bind failsWith_insertOutbox fun _ _ => failsWith_insertEvent

/-- A row that an operation finds as it expects. -/
theorem failsWith_applyLifecycle {tombstoned : Bool}
    (present : db.observations.get? id = some row) (expected : row.rowVersion = version.toNat)
    (lifecycle : row.lifecycle = if tombstoned then .active else .retired) :
    FailsWith MemoryError.IsSqlite
      (db.applyLifecycle draws changesetId generation ordinal id version tombstoned) := by
  refine failsWith_bind (failsWith_of_eq_ok (loadObservation_eq_ok.mpr present))
    fun current loaded => ?_
  rw [loadObservation_eq_ok] at loaded
  cases present.symm.trans loaded
  refine failsWith_bind (failsWith_refuseIf fun stale => ?_) fun _ _ => ?_
  · rcases stale with version | state
    · exact absurd expected version
    · exact absurd lifecycle state
  · refine failsWith_recordRevision (?_ : Table.get? _ _ = some { row with
      tombstoned, lifecycle := if tombstoned then .retired else .active })
    rw [Table.get?_modify_self, present]
    rfl

theorem failsWith_applyUpdate {observation : Observation} {expectedRevisionId : Option String}
    (present : db.observations.get? observation.id = some row)
    (expected : row.rowVersion = version.toNat) (active : row.lifecycle = .active)
    (revision : expectedRevisionId.isSome → row.currentRevisionId = expectedRevisionId)
    (identity : observation.entityId = row.semantic.entityId)
    (live : observation.tombstoned = false) :
    FailsWith MemoryError.IsSqlite (db.applyUpdate draws changesetId generation ordinal observation
      version expectedRevisionId) := by
  refine failsWith_bind (failsWith_of_eq_ok (loadObservation_eq_ok.mpr present))
    fun current loaded => ?_
  rw [loadObservation_eq_ok] at loaded
  cases present.symm.trans loaded
  refine failsWith_bind (failsWith_refuseIf fun stale => ?_) fun _ _ =>
    failsWith_bind (failsWith_refuseIf fun changed => ?_) fun _ _ =>
      failsWith_bind failsWith_replaceObservation fun replaced written => ?_
  · rcases stale with version | state | head
    · exact absurd expected version
    · exact absurd active state
    · exact absurd (revision head.1) head.2
  · rcases changed with entity | deleted
    · exact absurd identity entity
    · rw [live] at deleted
      cases deleted
  · rw [replaceObservation_eq_ok written]
    refine failsWith_recordRevision (?_ : Table.get? _ _ = some { row with
      semantic := storedContent observation.toSemanticContent
      tombstoned := observation.tombstoned
      lifecycle := if observation.tombstoned then .retired else .active })
    rw [Table.get?_modify_self, present]
    rfl

/-- **A submission** of a valid draft to the space it is for, under a key that is not
used, fails only where its operations do. -/
theorem failsWith_submitChangeset [Blake3] [PayloadCodec] [EntityMatching]
    {draft : ChangeSetDraft} (valid : validateDraft draft = .ok ())
    (bound : db.spaceId = some draft.spaceId)
    (unused : db.changeSetUnder draft.spaceId draft.idempotencyKey = none)
    (applies : ∀ stored : Database, stored.observations = db.observations →
      FailsWith MemoryError.IsSqlite (applyOperations draws draws.changeSet
        (db.domain.semanticGeneration + 1) stored 0 draft.operations)) :
    FailsWith MemoryError.IsSqlite (db.submitChangeset draws draft .applyImmediately) := by
  refine failsWith_bind (failsWith_of_eq_ok valid) fun _ _ =>
    failsWith_bind (failsWith_refuseIf fun impossible => ?_) fun _ _ =>
      failsWith_bind (failsWith_of_eq_ok (ensureBoundSpace_eq_ok.mpr bound)) fun _ _ => ?_
  · cases impossible.1
  · have loaded : db.loadExistingReceipt draft (canonicalRequestHash draft .applyImmediately) =
        .ok none := by
      unfold loadExistingReceipt
      rw [unused]
      rfl
    refine failsWith_bind (failsWith_of_eq_ok loaded) fun found same => ?_
    cases loaded.symm.trans same
    refine failsWith_bind (failsWith_bind failsWith_insertChangeSet fun rowed inserted =>
      failsWith_bind failsWith_insertRequests fun stored requested =>
        failsWith_bind (applies stored ?_) fun _ _ => trivial) fun _ _ => trivial
    obtain ⟨_, _, _, rfl⟩ := insertChangeSet_eq_ok inserted
    rw [(insertRequests_eq_ok requested).1]

end Database

end OpenMemory.Graph
