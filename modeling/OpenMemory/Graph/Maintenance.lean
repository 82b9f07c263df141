import OpenMemory.Graph.Transactions

/-!
# Compatibility mutations and maintenance

Calls that read the database, build a draft from what they read, and submit it:
the change of a tier and the retirement of an observation, as front ends of old
make them, the retirement of everything about an entity, and consolidation.

Consolidation looks for duplicates among the observations of each entity, for
observations whose score has decayed, retires both kinds in one change set, adds
the access counts of the duplicates to the observations they were merged into,
and prunes. Its scores are computed with floats, which are a parameter.
-/

namespace OpenMemory.Graph

open Foundation
open Merge (Blake3)

namespace Database

/-! ## One observation -/

section Compatibility

variable [Blake3] [PayloadCodec] [EntityMatching]

/-- The draft of a mutation that a front end of old asks for. -/
def compatibilityDraft (idempotencyKey : String) (spaceId : SpaceId) (reason : String)
    (operation : ChangeOperation) : ChangeSetDraft where
  idempotencyKey := idempotencyKey
  spaceId := spaceId
  actorKind := .human
  actorId := "legacy"
  authority := .fromGenerations 1 [0]
  reason := reason
  source := "compatibility"
  operations := [operation]

/-- The update that puts a row into a tier. -/
def tierOperation (observationId : String) (row : ObservationRow) (tier : MemoryTier) :
    ChangeOperation :=
  let observation := row.observation observationId
  .updateObservation { observation with memoryTier := tier } (UInt64.ofNat row.rowVersion)
    (row.currentRevisionId.bind sizedText)

def tierKey (observationId : String) (now : Int64) : String :=
  "legacy-tier:" ++ observationId ++ ":" ++ toString now.toInt

def tierDraft (draws : Draws) (spaceId : SpaceId) (observationId : String) (row : ObservationRow)
    (tier : MemoryTier) : ChangeSetDraft :=
  compatibilityDraft (tierKey observationId draws.now) spaceId "legacy memory tier update"
    (tierOperation observationId row tier)

/-- `set_observation_memory_tier`: whether there was an observation to change. -/
def setObservationMemoryTier (db : Database) (draws : Draws) (observationId : String)
    (tier : MemoryTier) : MemoryResult (Database × Bool) := do
  refuseIf (blank observationId) (.invalidInput "observation_id must not be empty")
  match db.observations.get? observationId with
  | none => return (db, false)
  | some row =>
    if row.tombstoned then return (db, false)
    let (db, spaceId) := db.compatibilitySpaceId draws
    let (db, _) ← db.submitChangeset draws (tierDraft draws spaceId observationId row tier)
      .applyImmediately
    return (db, true)

def retirementKey (observationId : String) (now : Int64) : String :=
  "legacy-retire:" ++ observationId ++ ":" ++ toString now.toInt

def retirementDraft (draws : Draws) (spaceId : SpaceId) (observationId : String)
    (row : ObservationRow) : ChangeSetDraft :=
  compatibilityDraft (retirementKey observationId draws.now) spaceId "legacy forget"
    (.retireObservation observationId (UInt64.ofNat row.rowVersion))

/-- `retire_observation`, which `forget` is. -/
def retireObservation (db : Database) (draws : Draws) (observationId : String) :
    MemoryResult (Database × Bool) :=
  match db.observations.get? observationId with
  | none => return (db, false)
  | some row => do
      if row.tombstoned then return (db, false)
      let (db, spaceId) := db.compatibilitySpaceId draws
      let (db, _) ← db.submitChangeset draws (retirementDraft draws spaceId observationId row)
        .applyImmediately
      return (db, true)

end Compatibility

/-! ## Many observations -/

section BulkRetirement

/-- The retirement of an observation, if it is active. -/
def retirementOf (db : Database) (id : String) : Option ChangeOperation :=
  (db.observations.get? id).bind fun row =>
    if row.lifecycle = .active then some (.retireObservation id (UInt64.ofNat row.rowVersion))
    else none

variable [Blake3] [PayloadCodec] [EntityMatching]

def maintenanceDraft (key : ChangeSetId) (spaceId : SpaceId) (reason : String)
    (operations : List ChangeOperation) : ChangeSetDraft where
  idempotencyKey := "maintenance-retire:" ++ key.toText
  spaceId := spaceId
  actorKind := .system
  actorId := "maintenance"
  authority := .fromGenerations 1 [0]
  reason := reason
  source := "maintenance"
  operations := operations

/-- `retire_observations_for_maintenance`: retire those that are active, and say how
many these are. The key is drawn for the call. -/
def retireObservationsForMaintenance (db : Database) (draws : Draws) (key : ChangeSetId)
    (observationIds : List String) (reason : String) : MemoryResult (Database × Nat) := do
  let operations := observationIds.filterMap db.retirementOf
  if operations = [] then return (db, 0)
  let (db, spaceId) := db.compatibilitySpaceId draws
  let (db, _) ← db.submitChangeset draws (maintenanceDraft key spaceId reason operations)
    .applyImmediately
  return (db, operations.length)

/-- The active observations of an entity, in the order of their ids. -/
def activeObservations (db : Database) (entityId : String) : List String :=
  ((db.observations.entries.filter fun entry =>
    entry.2.semantic.entityId = entityId ∧ entry.2.lifecycle = .active).map Prod.fst).insertionSort
    (· ≤ ·)

def retireEntityObservationsById (db : Database) (draws : Draws) (key : ChangeSetId)
    (entityId : String) : MemoryResult (Database × Nat) := do
  refuseIf (blank entityId) (.invalidInput "entity id must not be empty")
  refuseIf (db.entities.get? entityId = none) (.entityNotFound entityId)
  db.retireObservationsForMaintenance draws key (db.activeObservations entityId)
    "compatibility entity forget"

end BulkRetirement

end Database

/-! ## Scores -/

/-- What a consolidation computes with floats. -/
class ScoreArithmetic where
  /-- `intersection as f32 / union as f32`. -/
  ratio : Nat → Nat → Float32Bits
  /-- `decay_score` of a time, accesses, a confidence, a source, the time now and a
  rate. -/
  decayScore : Int64 → UInt32 → Float32Bits → String → Int64 → BitVec 64 → Float32Bits

section Similarity

variable [ScoreArithmetic] [CaseMapping]

/-- The words of a text, whatever their case. -/
def normalise (text : String) : Finset String :=
  (splitWhitespace (CaseMapping.toLowercase text)).toFinset

def jaccardSimilarity (a b : String) : Float32Bits :=
  if normalise a = ∅ ∧ normalise b = ∅ then .one
  else if normalise a = ∅ ∨ normalise b = ∅ then .zero
  else ScoreArithmetic.ratio (normalise a ∩ normalise b).card (normalise a ∪ normalise b).card

end Similarity

/-! ## Duplicates -/

structure DedupCandidate where
  id : String
  content : String
  accessCount : UInt32
  observedAt : Int64
  deriving DecidableEq

/-- Observations merged into a survivor, with the sum of their accesses. -/
structure DedupGroup where
  survivor : String
  losers : List String
  loserAccesses : UInt32

def saturatingSum (counts : List UInt32) : UInt32 :=
  counts.foldl (fun sum count =>
    if sum.toNat + count.toNat < 2 ^ 32 then sum + count else UInt32.ofNat (2 ^ 32 - 1)) 0

section Dedup

variable [ScoreArithmetic] [CaseMapping]

/-- The text of one is as similar to the other's as the threshold asks. -/
def nearDuplicate (threshold : Float32Bits) (first other : String) : Bool :=
  (jaccardSimilarity first other).atLeast threshold

/-- `dedup_within_entity`, with the ids visited so far: each candidate that was not
merged yet absorbs the later ones it is similar to. -/
def dedupWithinEntity (threshold : Float32Bits) : List String → List DedupCandidate → List DedupGroup
  | _, [] => []
  | visited, first :: rest =>
    if first.id ∈ visited then dedupWithinEntity threshold visited rest
    else
      let losers := rest.filter fun other =>
        other.id ∉ visited ∧ nearDuplicate threshold first.content other.content = true
      let groups := dedupWithinEntity threshold (losers.map DedupCandidate.id ++ visited) rest
      if losers = [] then groups
      else ⟨first.id, losers.map DedupCandidate.id,
        saturatingSum (losers.map DedupCandidate.accessCount)⟩ :: groups

end Dedup

namespace Database

/-- The observations of an entity that are not deleted, the latest first. -/
def dedupCandidates (db : Database) (entityId : String) : List DedupCandidate :=
  ((db.observations.entries.filter fun entry =>
    entry.2.semantic.entityId = entityId ∧ entry.2.tombstoned = false).map fun entry =>
      ⟨entry.1, entry.2.semantic.content, entry.2.accessCount,
        entry.2.semantic.observedAt⟩).insertionSort fun left right =>
          right.observedAt ≤ left.observedAt

def observedEntities (db : Database) : List String :=
  (db.observations.entries.map fun entry => entry.2.semantic.entityId).dedup

section Consolidation

variable [ScoreArithmetic] [CaseMapping]

def dedupGroups (db : Database) (config : ConsolidateConfig) : List DedupGroup :=
  db.observedEntities.flatMap fun entityId =>
    dedupWithinEntity config.dedupTextThreshold [] (db.dedupCandidates entityId)

omit [CaseMapping] in
/-- An observation that is old enough, and whose score is below the floor. -/
def decayed (config : ConsolidateConfig) (now : Int64) (row : ObservationRow) : Bool :=
  !decide (now - row.semantic.observedAt < config.minAgeSecs) &&
    (ScoreArithmetic.decayScore row.semantic.observedAt row.accessCount row.semantic.confidence
      row.semantic.source now config.decayRate).less config.pruneFloor

omit [CaseMapping] in
def decayPruneTargets (db : Database) (config : ConsolidateConfig) (now : Int64) :
    List String :=
  (db.observations.entries.filter fun entry =>
    entry.2.tombstoned = false ∧ decayed config now entry.2 = true).map Prod.fst

/-- The observations a consolidation retires, each once. -/
def consolidationTargets (db : Database) (config : ConsolidateConfig) (now : Int64) :
    List String :=
  ((db.dedupGroups config).flatMap DedupGroup.losers ++
    db.decayPruneTargets config now).dedup.insertionSort (· ≤ ·)

/-- Fourteen days. -/
def defaultTombstoneTtlSecs : Int64 := 14 * 24 * 60 * 60

variable [Blake3] [PayloadCodec] [EntityMatching]

/-- `consolidate`. It reads the clock when it starts, when it retires, and when it
prunes. -/
def consolidate (db : Database) (now : Int64) (retirement : Draws) (key : ChangeSetId)
    (sweep : Draws) (config : ConsolidateConfig) :
    MemoryResult (Database × ConsolidateReport) := do
  let groups := db.dedupGroups config
  let targets := db.decayPruneTargets config now
  let (retired, _) ← db.retireObservationsForMaintenance retirement key
    (db.consolidationTargets config now) "consolidation deduplication and decay retirement"
  let counted := retired.addAccesses (groups.map fun group => (group.survivor, group.loserAccesses))
  let pruned := counted.pruneWithTtl sweep defaultTombstoneTtlSecs
  return (pruned,
    { duplicatesMerged := (groups.flatMap DedupGroup.losers).length
      observationsPruned := targets.length
      entitiesPruned := counted.entities.entries.length - pruned.entities.entries.length })

end Consolidation

end Database

end OpenMemory.Graph
