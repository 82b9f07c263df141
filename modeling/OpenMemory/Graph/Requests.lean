import OpenMemory.Graph.Types

/-!
# Requests to a memory store and their answers

What the methods of a store take and return beside the rows themselves: the
options and outcomes of a batched write, the resolution of a name, the filters
and results of a recall, the settings and reports of maintenance, and the
entries of the free-text index.
-/

namespace OpenMemory.Graph

open Foundation

/-- The source of rows that stand in for an entity of another domain. -/
def partitionStubSource : String := "partition:stub"

/-! ## Writes -/

structure BatchOptions where
  /-- Match entity names approximately. -/
  normalize : Bool
  /-- A watermark that is committed with the batch. -/
  checkpoint : Option (String × UInt64)
  deriving DecidableEq

/-- The options of the source's `Default`. -/
def BatchOptions.standard : BatchOptions where
  normalize := true
  checkpoint := none

structure RememberOutcome where
  entityId : String
  entityExisted : Bool
  observationIds : List String
  relationIds : List String

namespace RememberRequest

def new (name : String) (entityType : EntityType) : RememberRequest where
  name := name
  entityType := entityType
  observations := []
  relations := []
  source := ""

end RememberRequest

namespace RelationInput

def new (relationType targetName : String) (targetType : EntityType) : RelationInput where
  relationType := relationType
  targetName := targetName
  targetType := targetType
  weight := .one
  source := ""

end RelationInput

/-! ## Names -/

/-- What a name resolves to. -/
inductive EntityResolution where
  | notFound
  | unique (entity : Entity)
  | ambiguous (name : String) (entities : List Entity) (truncated : Bool)

def EntityResolution.candidates : EntityResolution → List Entity
  | .notFound => []
  | .unique entity => [entity]
  | .ambiguous _ entities _ => entities

/-! ## Recall -/

inductive SearchMode where
  | hybrid
  | vectorOnly
  | keywordOnly
  deriving DecidableEq

/-- The filters of a recall; what is `none` does not filter. -/
structure RecallFilters where
  entityType : Option EntityType
  validAt : Option Int64
  source : Option String
  minConfidence : Option Float32Bits
  entityNames : Option (List String)
  mode : Option SearchMode
  memoryTier : Option MemoryTier
  spreadingActivation : Bool
  recordAccess : Bool

def RecallFilters.new : RecallFilters where
  entityType := none
  validAt := none
  source := none
  minConfidence := none
  entityNames := none
  mode := none
  memoryTier := none
  spreadingActivation := true
  recordAccess := true

/-- The mode in effect: the source's default is the hybrid search. -/
def RecallFilters.modeInEffect (filters : RecallFilters) : SearchMode :=
  filters.mode.getD .hybrid

/-- One row of an answer, with scores of a type `S`. -/
structure RecallResult (S : Type) where
  observation : Observation
  entityName : String
  entityType : EntityType
  rawScore : S
  score : S

/-! ## Maintenance and the free-text index -/

structure ConsolidateConfig where
  dedupTextThreshold : Float32Bits
  pruneFloor : Float32Bits
  minAgeSecs : Int64
  decayRate : BitVec 64
  deriving DecidableEq

structure ConsolidateReport where
  duplicatesMerged : Nat
  observationsPruned : Nat
  entitiesPruned : Nat

structure PruneReport where
  tombstonesRemoved : Nat
  entitiesRemoved : Nat

structure IndexEntry where
  uri : String
  text : String
  chunkIndex : UInt32
  vector : List Float32Bits
  title : Option String
  summary : Option String
  concepts : List String
  sourceFiles : List String
  sourceKind : Option String
  entityType : Option String
  entityName : Option String
  deriving DecidableEq

end OpenMemory.Graph
