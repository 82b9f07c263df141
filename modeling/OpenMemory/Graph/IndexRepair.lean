import OpenMemory.Graph.Transactions
import OpenMemory.Index.Hybrid

/-!
# The repair of the search index

A repair reads a page of the changes that are owed, with the observations they name as
they are then, and later publishes them one by one. An observation that is active is
inserted, and any other one is deleted.
-/

namespace OpenMemory.Graph

open Foundation OpenMemory.Index

/-- The URI that an observation is indexed under. -/
def observationUri (id : String) : String := "memory://observation/" ++ id

def searchBodyText (entityName content : String) : String := entityName ++ ": " ++ content

/-- A change that is owed, as a repair has read it. -/
structure IndexRepairItem where
  key : Nat × Nat
  operation : OutboxOperation
  logicalId : String
  observation : Option ObservationRow
  entityName : Option String

namespace IndexRepairItem

/-- An observation that is shown by searches. -/
def active (row : ObservationRow) : Bool := !row.tombstoned && row.lifecycle = .active

/-- The entry that is inserted for an observation. -/
def entry (item : IndexRepairItem) (row : ObservationRow) (vector : List Float32Bits) :
    IndexEntry where
  uri := observationUri item.logicalId
  text := searchBodyText (item.entityName.getD "") row.semantic.content
  chunkIndex := 0
  vector := vector
  title := row.semantic.title
  summary := row.semantic.summary
  concepts := row.semantic.concepts
  sourceFiles := row.semantic.sourceFiles
  sourceKind := row.semantic.sourceKind
  entityType := none
  entityName := none

/-- What is published for an item, with the vector that was made for it. -/
def publication (item : IndexRepairItem) (vector : List Float32Bits)
    (vectorFailure : Option UsearchFailure) (keywordFailure : Option IndexError) : Publication :=
  match item.operation, item.observation with
  | .upsert, some row =>
    if active row then .insert [item.entry row vector] vectorFailure keywordFailure
    else .deleteByUri (observationUri item.logicalId) keywordFailure
  | .upsert, none | .delete, _ => .deleteByUri (observationUri item.logicalId) keywordFailure

end IndexRepairItem

namespace Database

/-- The rows of a page. -/
def repairPageSize : Nat := 1024

/-- The changes that are owed, in the order in which they were committed. -/
def owedChanges (db : Database) : List ((Nat × Nat) × OutboxRow) :=
  (db.outbox.entries.filter fun entry => entry.2.appliedAt.isNone).mergeSort fun left right =>
    left.1.1 < right.1.1 || left.1.1 = right.1.1 && left.1.2 ≤ right.1.2

/-- An owed change with the observation that it names. -/
def repairItem (db : Database) (owed : (Nat × Nat) × OutboxRow) : MemoryResult IndexRepairItem := do
  let observation := db.observations.get? owed.2.logicalId
  let entityName ← match observation with
    | none => pure none
    | some row => do
        let entity ← orRefuse (db.entities.get? row.semantic.entityId) noRows
        pure (some entity.name)
  return ⟨owed.1, owed.2.operation, owed.2.logicalId, observation, entityName⟩

/-- The page that a repair reads. -/
def pendingRepairs (db : Database) : MemoryResult (List IndexRepairItem) :=
  (db.owedChanges.take repairPageSize).mapM db.repairItem

end Database

end OpenMemory.Graph
