import OpenMemory.Graph.Requests

/-!
# Recall

A recall asks the index for observations, reads their rows, keeps those that pass
the filters and score high enough, and sorts and truncates them. When that leaves
room it spreads over relations: it walks the neighbours of the entities it has
found, and appends their observations that pass as they come.

The index and the arithmetic of scores are not modelled. A score is of any type
with a total preorder; an index answers whatever it likes. The order in which a
hash map gives out its entries and in which a query without an order yields its
rows is any order. A failure of the database itself is left out.
-/

namespace OpenMemory.Graph

open Foundation

/-! ## What recall reads -/

/-- The columns of an observation that recall reads. -/
structure RecallRow where
  id : String
  entityId : String
  content : String
  observedAt : Int64
  validFrom : Option Int64
  validUntil : Option Int64
  confidence : Float32Bits
  source : String
  tombstoned : Int64
  accessCount : Int64
  memoryTier : String
  importance : Option Float32Bits

structure EntityRow where
  id : String
  name : String
  entityType : String

structure RelationRow where
  fromEntity : String
  toEntity : String
  weight : Float32Bits
  validUntil : Option Int64

structure RecallContent where
  indexRepairRequired : Option Int64
  observations : List RecallRow
  entities : List EntityRow
  relations : List RelationRow

/-- `row_to_recall_observation`: an unknown tier reads as episodic. -/
def RecallRow.toObservation (row : RecallRow) : Observation where
  id := row.id
  entityId := row.entityId
  content := row.content
  observedAt := row.observedAt
  validFrom := row.validFrom
  validUntil := row.validUntil
  confidence := row.confidence
  source := row.source
  tombstoned := decide (row.tombstoned ≠ 0)
  accessCount := (max row.accessCount 0).toUInt64.toUInt32
  memoryTier := (MemoryTier.parse row.memoryTier).getD .episodic
  title := none
  summary := none
  importance := row.importance
  sourceKind := none
  concepts := []
  sourceFiles := []

/-- A row of `observations` joined with the row of its entity. -/
structure JoinedRow where
  row : RecallRow
  entity : EntityRow

def JoinedRow.observation (joined : JoinedRow) : Observation := joined.row.toObservation

/-- An unknown type reads as a concept. -/
def JoinedRow.entityType (joined : JoinedRow) : EntityType :=
  (EntityType.parse joined.entity.entityType).getD .concept

def RecallContent.joined (content : RecallContent) : List JoinedRow :=
  content.observations.flatMap fun row =>
    (content.entities.filter fun entity => entity.id = row.entityId).map (JoinedRow.mk row)

/-! ## The index and the scores -/

structure SearchResult (S : Type) where
  uri : String
  score : S

/-- The index, the embedder, the clock and the arithmetic of scores. -/
structure RecallHost (S : Type) where
  embedQuery : String → List Float32Bits
  search : List Float32Bits → String → Nat → SearchMode → MemoryResult (List (SearchResult S))
  /-- The counts of the two indexes, where they can be told. -/
  count : Option Nat
  keywordCount : Option Nat
  nowSecs : Int64
  /-- `compute_score` with the decay rate of the store. -/
  computeScore : Observation → S → Int64 → S
  /-- `SPREADING_DISTANCE_DECAY * weight.clamp(0.0, 1.0) * seed_score`. -/
  spreadScore : Float32Bits → S → S
  /-- `RECALL_MIN_SCORE`. -/
  minScore : S
  /-- `RECALL_MIN_SCORE * 0.5`. -/
  spreadMinScore : S
  /-- The order in which the seed entities come out of their hash map. -/
  visit : List (String × S) → List (String × S)

/-! ## Filters -/

section Filters

variable [CaseMapping]

def normalizeEntityNameFilter (filters : RecallFilters) : Option (List String) :=
  filters.entityNames.map fun names => names.map CaseMapping.toLowercase

def entityNameMatchesFilter (entityName : String) : Option (List String) → Bool
  | some names => decide (CaseMapping.toLowercase entityName ∈ names)
  | none => true

def passesDirect (filters : RecallFilters) (names : Option (List String)) (validAt : Int64)
    (joined : JoinedRow) : Bool :=
  let obs := joined.observation
  !obs.tombstoned && obs.isValidAt validAt &&
    filters.minConfidence.all (fun floor => !obs.confidence.less floor) &&
    filters.source.all (fun source => obs.source = source) &&
    filters.entityType.all (fun type => joined.entityType = type) &&
    filters.memoryTier.all (fun tier => obs.memoryTier = tier) &&
    entityNameMatchesFilter joined.entity.name names

/-- The filters that the query of a neighbour's observations leaves to be done. -/
def passesSpread (filters : RecallFilters) (names : Option (List String)) (validAt : Int64)
    (joined : JoinedRow) : Bool :=
  let obs := joined.observation
  obs.isValidAt validAt &&
    filters.entityType.all (fun type => joined.entityType = type) &&
    filters.minConfidence.all (fun floor => !obs.confidence.less floor) &&
    filters.source.all (fun source => obs.source = source) &&
    entityNameMatchesFilter joined.entity.name names

end Filters

/-! ## Direct hits -/

section Recall

variable {S : Type} [Preorder S] [DecidableLE S] [DecidableLT S]

def filterOverfetchMultiplier : Nat := 32
def maxFilterCandidates : Nat := 4096

/-- How many results the index is asked for; a tier filter asks for more. -/
def fetchCount (host : RecallHost S) (topK : Nat) (filters : RecallFilters) : Nat :=
  let base := max (min (topK * 3) (2 ^ 64 - 1)) topK
  if filters.memoryTier.isSome then
    let total := max (host.count.getD 0) (host.keywordCount.getD 0)
    min (min (max base (min (topK * filterOverfetchMultiplier) (2 ^ 64 - 1))) total)
      maxFilterCandidates
  else base

/-- The observations that the index has found, with their scores. -/
def candidatesOf (results : List (SearchResult S)) : List (String × S) :=
  results.filterMap fun result =>
    (stripPrefix "memory://observation/" result.uri).map fun id => (id, result.score)

/-- The rows of the candidates by id, a later row over an earlier one. -/
def hydrate (content : RecallContent) (ids : List String) : String → Option JoinedRow := fun id =>
  (content.joined.filter fun joined => joined.row.id ∈ ids).reverse.find? fun joined =>
    joined.row.id = id

variable [CaseMapping]

/-- The hits among the candidates; each row is taken once. -/
def directHits (host : RecallHost S) (filters : RecallFilters) (names : Option (List String))
    (validAt : Int64) : (String → Option JoinedRow) → List (String × S) → List (RecallResult S)
  | _, [] => []
  | byId, (id, rawScore) :: rest =>
    match byId id with
    | none => directHits host filters names validAt byId rest
    | some joined =>
      let byId := Function.update byId id none
      let score := host.computeScore joined.observation rawScore validAt
      if passesDirect filters names validAt joined ∧ ¬ score < host.minScore then
        { observation := joined.observation
          entityName := joined.entity.name
          entityType := joined.entityType
          rawScore := rawScore
          score := score } :: directHits host filters names validAt byId rest
      else directHits host filters names validAt byId rest

/-- The hits by falling score, as many as were asked for. -/
def rankedHits (topK : Nat) (hits : List (RecallResult S)) : List (RecallResult S) :=
  (hits.insertionSort fun a b => b.score ≤ a.score).take topK

/-! ## Spreading activation -/

/-- The best score of every entity among the seeds. -/
def seedEntities (seeds : List (RecallResult S)) : List (String × S) :=
  seeds.foldl (fun entities seed => record entities seed.observation.entityId seed.score) []
where
  record : List (String × S) → String → S → List (String × S)
    | [], id, score => [(id, score)]
    | (held, best) :: rest, id, score =>
      if held = id then (held, if best < score then score else best) :: rest
      else (held, best) :: record rest id score

/-- Whether a relation still holds. -/
def RelationRow.current (row : RelationRow) (validAt : Int64) : Bool :=
  row.validUntil.all fun until_ => decide (validAt < until_)

/-- The neighbours of an entity in both directions, with the relation's weight. -/
def neighbours (content : RecallContent) (entity : String) (validAt : Int64) :
    List (String × Float32Bits) :=
  let current := content.relations.filter fun row => row.current validAt
  (current.filter fun row => row.fromEntity = entity).map (fun row => (row.toEntity, row.weight)) ++
    (current.filter fun row => row.toEntity = entity).map fun row => (row.fromEntity, row.weight)

/-- The query for a neighbour's observations: live, not ended, of the tier asked
for, the latest ones first. -/
def observationsOf (content : RecallContent) (entity : String) (validAt : Int64)
    (tier : Option MemoryTier) (limit : Nat) : List JoinedRow :=
  let live := content.joined.filter fun joined =>
    joined.row.entityId = entity && joined.row.tombstoned = 0 &&
      joined.row.validUntil.all (fun until_ => decide (validAt < until_)) &&
      tier.all fun tier => joined.row.memoryTier = tier.asStr
  (live.insertionSort fun a b => b.row.observedAt ≤ a.row.observedAt).take limit

/-- What has been seen, and what has been found. -/
structure Spreading (S : Type) where
  seen : List String
  found : List (RecallResult S)

/-- One row of a neighbour. The spreading ends with the row that fills it. -/
def spreadRow (host : RecallHost S) (filters : RecallFilters) (names : Option (List String))
    (validAt : Int64) (maxExtra : Nat) (weight : Float32Bits) (seedScore : S)
    (state : Spreading S) (joined : JoinedRow) :
    Except (List (RecallResult S)) (Spreading S) :=
  let obs := joined.observation
  if !passesSpread filters names validAt joined then .ok state
  else if obs.id ∈ state.seen then .ok state
  else
    let seen := obs.id :: state.seen
    let baseScore := host.spreadScore weight seedScore
    let score := host.computeScore obs baseScore validAt
    if score < host.spreadMinScore then .ok { state with seen := seen }
    else
      let found := state.found ++ [{ observation := obs
                                     entityName := joined.entity.name
                                     entityType := joined.entityType
                                     rawScore := baseScore
                                     score := score }]
      if maxExtra ≤ found.length then .error found else .ok ⟨seen, found⟩

/-- The rows of one neighbour, unless it is a seed itself. -/
def spreadNeighbour (host : RecallHost S) (content : RecallContent) (filters : RecallFilters)
    (names : Option (List String)) (validAt : Int64) (maxExtra : Nat) (seeds : List (String × S))
    (seedScore : S) (state : Spreading S) (neighbour : String × Float32Bits) :
    Except (List (RecallResult S)) (Spreading S) :=
  if neighbour.1 ∈ seeds.map Prod.fst then .ok state
  else
    let limit := max (min (maxExtra - state.found.length) (2 ^ 63 - 1)) 1
    (observationsOf content neighbour.1 validAt filters.memoryTier limit).foldlM
      (spreadRow host filters names validAt maxExtra neighbour.2 seedScore) state

def spreadSeed (host : RecallHost S) (content : RecallContent) (filters : RecallFilters)
    (names : Option (List String)) (validAt : Int64) (maxExtra : Nat) (seeds : List (String × S))
    (state : Spreading S) (seed : String × S) :
    Except (List (RecallResult S)) (Spreading S) :=
  (neighbours content seed.1 validAt).foldlM
    (spreadNeighbour host content filters names validAt maxExtra seeds seed.2) state

/-- The observations of the neighbours of the entities of the seeds. -/
def spreadActivation (host : RecallHost S) (content : RecallContent) (filters : RecallFilters)
    (names : Option (List String)) (validAt : Int64) (seeds : List (RecallResult S))
    (maxExtra : Nat) : List (RecallResult S) :=
  if maxExtra = 0 ∨ seeds = [] then []
  else
    let entities := seedEntities seeds
    match (host.visit entities).foldlM
        (spreadSeed host content filters names validAt maxExtra entities)
        ⟨seeds.map fun seed => seed.observation.id, []⟩ with
    | .ok state => state.found
    | .error found => found

/-! ## The whole -/

/-- Count one more access of the observations. -/
def bumpAccessCounts (content : RecallContent) (ids : List String) : RecallContent :=
  { content with
    observations := content.observations.map fun row =>
      if row.id ∈ ids then { row with accessCount := row.accessCount + 1 } else row }

/-- `MemoryStore::recall`: the answer, and the content it leaves. -/
def MemoryStore.recall (host : RecallHost S) (content : RecallContent) (query : String) (topK : Nat)
    (filters : RecallFilters) : MemoryResult (List (RecallResult S) × RecallContent) :=
  if blank query then .ok ([], content)
  else if content.indexRepairRequired.getD 0 ≠ 0 then .error .indexRepairRequired
  else do
    let topK := max topK 1
    let vector := host.embedQuery query
    let results ← host.search vector query (fetchCount host topK filters) filters.modeInEffect
    let validAt := filters.validAt.getD host.nowSecs
    let names := normalizeEntityNameFilter filters
    let candidates := candidatesOf results
    let byId := hydrate content (candidates.map Prod.fst)
    let hits := rankedHits topK (directHits host filters names validAt byId candidates)
    let related :=
      if hits.length < topK ∧ filters.spreadingActivation then
        spreadActivation host content filters names validAt hits (topK - hits.length)
      else []
    let hits := hits ++ related
    if filters.recordAccess ∧ hits ≠ [] then
      pure (hits, bumpAccessCounts content (hits.map fun hit => hit.observation.id))
    else pure (hits, content)

end Recall

end OpenMemory.Graph
