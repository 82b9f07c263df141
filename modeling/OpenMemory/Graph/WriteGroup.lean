import OpenMemory.Graph.Database

/-!
# Writing one entity with its observations and relations

A group names an entity. It is found by its exact name and type, or, where
normalization is on, by the best approximate name among the recent entities of
its type; otherwise it is created. Targets of relations are found in the same
way. The string metrics come from another library, so the similarity of two
names is a parameter, with the thresholds of the configuration.
-/

namespace OpenMemory.Graph

open Foundation

/-! ## Approximate names -/

/-- The normalization settings of a store and the similarity of two names. -/
class EntityMatching where
  enabled : Bool
  similarity : String → String → ℚ
  autoMergeThreshold : ℚ
  flagThreshold : ℚ
  maxCandidates : Nat
  /-- A score, stored and read back as an `f32`. -/
  asWeight : ℚ → Float32Bits

inductive NormalizeMatch where
  | autoMerge (entityId : String) (score : ℚ)
  | flag (entityId : String) (score : ℚ)

section Matching

variable [EntityMatching]

/-- The first candidate with the highest score, which must be positive. -/
def bestCandidate (name : String) (candidates : List (String × String)) : Option String × ℚ :=
  candidates.foldl (fun best candidate =>
    if best.2 < EntityMatching.similarity name candidate.2 then
      (some candidate.1, EntityMatching.similarity name candidate.2)
    else best) (none, 0)

def findBestMatch (name : String) (candidates : List (String × String)) : Option NormalizeMatch :=
  match bestCandidate name candidates with
  | (none, _) => none
  | (some id, score) =>
    if EntityMatching.autoMergeThreshold ≤ score then some (.autoMerge id score)
    else if EntityMatching.flagThreshold ≤ score then some (.flag id score)
    else none

end Matching

/-! ## Entities -/

namespace Database

/-- The id of the entity with a name and a type. -/
def entityNamed (db : Database) (name : String) (entityType : EntityType) : Option String :=
  (db.entities.entries.find? fun entry =>
    entry.2.name = name ∧ entry.2.entityType = entityType).map Prod.fst

def touchEntity (db : Database) (id : String) (now : Int64) : Database :=
  { db with entities := db.entities.modify id fun row => { row with updatedAt := now } }

/-- The entities an approximate name may stand for: the most recently updated
ones of the type, without the stubs of other domains. -/
def fuzzyCandidates [EntityMatching] (db : Database) (entityType : EntityType) :
    List (String × String) :=
  (((db.entities.entries.filter fun entry =>
      entry.2.entityType = entityType ∧ entry.2.source ≠ partitionStubSource).insertionSort
    fun left right => right.2.updatedAt ≤ left.2.updatedAt).take EntityMatching.maxCandidates).map
      fun entry => (entry.1, entry.2.name)

def createEntity (db : Database) (id name : String) (entityType : EntityType) (source : String)
    (now : Int64) : MemoryResult Database :=
  db.insertEntity id
    { name, entityType, createdAt := now, updatedAt := now, confidence := .one, source }

/-- Find the entity or create it: the entity's id and whether it existed. -/
def ensureEntity [EntityMatching] (db : Database) (name : String) (entityType : EntityType)
    (source : String) (now : Int64) (normalize : Bool) (newId sameAsId : String) :
    MemoryResult (Database × String × Bool) :=
  match db.entityNamed name entityType with
  | some id => return (db.touchEntity id now, id, true)
  | none =>
    match if EntityMatching.enabled && normalize then
        findBestMatch name (db.fuzzyCandidates entityType) else none with
    | some (.autoMerge id _) => return (db.touchEntity id now, id, true)
    | some (.flag matched score) => do
        let db ← db.createEntity newId name entityType source now
        let db ← db.insertRelation sameAsId
          { fromEntity := newId, toEntity := matched, relationType := "SAME_AS",
            weight := EntityMatching.asWeight score, createdAt := now, validFrom := none,
            validUntil := none, source := "normalization" }
        return (db, newId, false)
    | none => do
        let db ← db.createEntity newId name entityType source now
        return (db, newId, false)

end Database

/-! ## Observations and relations -/

/-- A source, or the one of the group where it is empty. -/
def sourceOr (own group : String) : String := if own = "" then group else own

/-- The row a new observation starts with: active, in its first version and
without a revision. -/
def newObservationRow (entityId source : String) (now : Int64) (input : ObservationInput) :
    ObservationRow where
  semantic :=
    { entityId
      content := input.content
      observedAt := now
      validFrom := some (input.validFrom.getD now)
      validUntil := input.validUntil
      confidence := input.confidence
      source := sourceOr input.source source
      memoryTier := input.memoryTier
      title := input.title
      summary := input.summary
      importance := input.importance.map Float32Bits.clampUnit
      sourceKind := input.sourceKind
      concepts := sideRows (input.concepts.filter fun concept => !blank concept)
      sourceFiles := sideRows (input.sourceFiles.filter fun file => !blank file) }
  tombstoned := false
  accessCount := 0
  currentRevisionId := none
  rowVersion := 1
  lifecycle := .active

/-- What the search index is told about a new observation. -/
structure SearchPayload where
  id : String
  content : String
  title : Option String
  summary : Option String
  concepts : List String
  sourceFiles : List String
  sourceKind : Option String

def searchPayload (id : String) (input : ObservationInput) : SearchPayload where
  id := id
  content := input.content
  title := input.title
  summary := input.summary
  concepts := input.concepts
  sourceFiles := input.sourceFiles
  sourceKind := input.sourceKind

structure GroupWrite where
  outcome : RememberOutcome
  payload : List SearchPayload

namespace Database

/-- Append the observations of a group, the first one under id `ids index`. -/
def writeObservations (entityId source : String) (now : Int64) (ids : Nat → String) :
    Database → Nat → List ObservationInput → MemoryResult Database
  | db, _, [] => .ok db
  | db, index, input :: rest => do
      let db ← db.insertObservation (ids index) (newObservationRow entityId source now input)
      writeObservations entityId source now ids db (index + 1) rest

/-- Attach the relations of a group, each to its target, which is found or
created first. -/
def writeRelations [EntityMatching] (draws : Draws) (group : Nat) (entityId source : String)
    (now : Int64) (normalize : Bool) : Database → Nat → List RelationInput → MemoryResult Database
  | db, _, [] => .ok db
  | db, index, relation :: rest => do
      let (db, targetId, _) ← db.ensureEntity relation.targetName relation.targetType
        (sourceOr relation.source source) now normalize (draws.entity group (index + 1))
        (draws.sameAs group (index + 1))
      let db ← db.insertRelation (draws.relation group index)
        { fromEntity := entityId, toEntity := targetId, relationType := relation.relationType,
          weight := relation.weight, createdAt := now, validFrom := some now,
          validUntil := none, source := sourceOr relation.source source }
      writeRelations draws group entityId source now normalize db (index + 1) rest

/-- Write one group inside an open transaction. -/
def writeGroup [EntityMatching] (db : Database) (draws : Draws) (group : Nat) (name : String)
    (entityType : EntityType) (observations : List ObservationInput)
    (relations : List RelationInput) (source : String) (now : Int64) (normalize : Bool) :
    MemoryResult (Database × GroupWrite) := do
  let (db, entityId, entityExisted) ← db.ensureEntity name entityType source now normalize
    (draws.entity group 0) (draws.sameAs group 0)
  let db ← writeObservations entityId source now (draws.observation group) db 0 observations
  let db ← writeRelations draws group entityId source now normalize db 0 relations
  return (db,
    { outcome :=
        { entityId, entityExisted
          observationIds := (List.range observations.length).map (draws.observation group)
          relationIds := (List.range relations.length).map (draws.relation group) }
      payload := observations.zipIdx.map fun (input, index) =>
        searchPayload (draws.observation group index) input })

end Database

end OpenMemory.Graph
