import OpenMemory.Graph.Resolution
import OpenMemory.Foundation.Pages

/-!
# Reads over the domains

A read by id does not know the domain of an entity. It asks one store after the other, and the
first that has the entity answers. An edge between two domains is kept in both, and each keeps a
row of its own for the entity of the other.
-/

namespace OpenMemory.Graph.Database

/-- The edges of an entity that hold at a time, the newest first. -/
def getEntityRelations (db : Database) (now : Int64) (entityId : String) : List StoredRelation :=
  ((db.relations.entries.map Prod.snd).filter fun relation =>
    (relation.fromEntity == entityId || relation.toEntity == entityId) &&
      relation.validUntil.all fun until_ => decide (now < until_)).mergeSort
    fun left right => decide (right.createdAt ≤ left.createdAt)

/-- The observations of an entity that hold at a time, the newest first. -/
def getEntityObservations (db : Database) (now : Int64) (entityId : String) : List Observation :=
  ((db.observations.entries.map fun entry => entry.2.observation entry.1).filter fun obs =>
    obs.entityId == entityId && !obs.tombstoned &&
      obs.validUntil.all fun until_ => decide (now < until_)).mergeSort
    fun left right => decide (right.observedAt ≤ left.observedAt)

end OpenMemory.Graph.Database

namespace OpenMemory.Engine

open OpenMemory.Graph

/-- The stores of the domains, at the time of a read. -/
structure DomainMemory where
  stores : List Database
  now : Int64

namespace DomainMemory

def getEntityById (memory : DomainMemory) (id : String) : Option Entity :=
  memory.stores.findSome? fun store => store.getEntityById id

def getEntityObservations (memory : DomainMemory) (entityId : String) : List Observation :=
  (memory.stores.findSome? fun store =>
    match store.getEntityObservations memory.now entityId with
    | [] => none
    | observations => some observations).getD []

def getEntityRelations (memory : DomainMemory) (entityId : String) : List StoredRelation :=
  match memory.stores.find? fun store => (store.getEntityById entityId).isSome with
  | some store => store.getEntityRelations memory.now entityId
  | none => []

end DomainMemory

end OpenMemory.Engine

/-!
## Listings of entities

A store lists its entities by the time of their last update, the latest first, and
cuts the list in SQL. Entities of one time stand in the order of the table. The
partitioned store asks every domain for as many rows as the page may need, drops the
stubs among them, and sorts and cuts what is left.
-/

namespace OpenMemory.Engine.Partition

open Foundation OpenMemory.Graph

structure EntityListRow where
  entity : Entity
  observationCount : Nat
  deriving DecidableEq

/-- A store and the time of its clock. -/
structure ListedStore where
  database : Database
  nowSecs : Int64

/-- What the rows are sorted by, so that later times come first. -/
def EntityListRow.rank (row : EntityListRow) : Int := -row.entity.updatedAt.toInt

/-- The row is no stub. -/
def EntityListRow.canonical (row : EntityListRow) : Bool :=
  decide (row.entity.source ≠ partitionStubSource)

namespace ListedStore

/-- The observations of an entity that are live at the time of the clock. -/
def observationCount (store : ListedStore) (entityId : String) : Nat :=
  (store.database.observations.entries.filter fun (_, row) =>
    row.semantic.entityId = entityId && !row.tombstoned &&
      row.semantic.validUntil.all fun until_ => decide (store.nowSecs < until_)).length

def row (store : ListedStore) (id : String) (stored : StoredEntity) : EntityListRow where
  entity :=
    { id := id
      name := stored.name
      entityType := stored.entityType
      createdAt := stored.createdAt
      updatedAt := stored.updatedAt
      confidence := stored.confidence
      source := stored.source }
  observationCount := store.observationCount id

/-- The query of `list_entities` without its limit and offset. -/
def rows (store : ListedStore) (entityType : Option EntityType) : List EntityListRow :=
  sortedBy EntityListRow.rank
    ((store.database.entities.entries.filter fun (_, stored) =>
      entityType.all fun type => stored.entityType = type).map fun (id, stored) =>
        store.row id stored)

/-- `MemoryStore::list_entities`: what is no `i64` is the largest limit, or no offset. -/
def listEntities (store : ListedStore) (entityType : Option EntityType) (limit offset : Nat) :
    List EntityListRow :=
  let limitI := if limit < 2 ^ 63 then limit else 2 ^ 63 - 1
  let offsetI := if offset < 2 ^ 63 then offset else 0
  page (store.rows entityType) limitI offsetI

end ListedStore

def listEntities (stores : List ListedStore) (entityType : Option EntityType)
    (limit offset : Nat) : List EntityListRow :=
  match stores with
  | [store] => store.listEntities entityType limit offset
  | stores =>
    let fetch := min (limit + offset) (2 ^ 64 - 1)
    let merged := stores.flatMap fun store =>
      (store.listEntities entityType fetch 0).filter EntityListRow.canonical
    page (sortedBy EntityListRow.rank merged) limit offset

end OpenMemory.Engine.Partition
