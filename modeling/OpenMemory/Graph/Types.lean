import OpenMemory.Foundation.ByteCodec
import OpenMemory.Foundation.Fallible
import OpenMemory.Foundation.IeeeNumbers

/-!
# Errors, classifications and write requests of the knowledge graph

A write request names one entity with new observations and relations. It is
validated twice: here by the cheap check that front ends run before they admit
a request (`RememberRequest.validate`), and again by the audited write path.
-/

namespace OpenMemory.Graph

open Foundation

/-! ## Errors -/

inductive MemoryError where
  | sqlite (message : String)
  | io (message : String)
  | schema (message : String)
  | invalidInput (message : String)
  | entityNotFound (name : String)
  | ambiguousEntityName (name : String) (candidates : List String)
  | observationNotFound (id : String)
  | changeSetStale
  | changeSetIdempotencyConflict
  | indexRepairRequired
  | index (message : String)
  | serde (message : String)
  deriving DecidableEq

abbrev MemoryResult := Except MemoryError

/-! ## Classifications -/

inductive EntityType where
  | person
  | project
  | concept
  | tool
  | preference
  | fact
  | event
  | location
  | organization
  deriving DecidableEq

instance lawfulBEq_nameKey : LawfulBEq (String × EntityType) := inferInstance

namespace EntityType

def asStr : EntityType → String
  | person => "person"
  | project => "project"
  | concept => "concept"
  | tool => "tool"
  | preference => "preference"
  | fact => "fact"
  | event => "event"
  | location => "location"
  | organization => "organization"

theorem asStr_injective : Function.Injective asStr := by
  intro left right same
  cases left <;> cases right <;> first | rfl | exact absurd same (by decide)

def parse (value : String) : Option EntityType :=
  if value = "person" then some .person
  else if value = "project" then some .project
  else if value = "concept" then some .concept
  else if value = "tool" then some .tool
  else if value = "preference" then some .preference
  else if value = "fact" then some .fact
  else if value = "event" then some .event
  else if value = "location" then some .location
  else if value = "organization" then some .organization
  else none

end EntityType

/-- The consolidation stage of an observation. -/
inductive MemoryTier where
  | episodic
  | semantic
  | procedural
  deriving DecidableEq

namespace MemoryTier

def asStr : MemoryTier → String
  | episodic => "episodic"
  | semantic => "semantic"
  | procedural => "procedural"

theorem asStr_injective : Function.Injective asStr := by
  intro left right same
  cases left <;> cases right <;> first | rfl | exact absurd same (by decide)

def parse (value : String) : Option MemoryTier :=
  if value = "episodic" then some .episodic
  else if value = "semantic" then some .semantic
  else if value = "procedural" then some .procedural
  else none

@[simp] theorem parse_asStr (tier : MemoryTier) : parse tier.asStr = some tier := by
  cases tier <;> decide

end MemoryTier

/-! ## Write requests -/

structure ObservationInput where
  content : String
  confidence : Float32Bits
  source : String
  validFrom : Option Int64
  validUntil : Option Int64
  memoryTier : MemoryTier
  title : Option String
  summary : Option String
  importance : Option Float32Bits
  sourceKind : Option String
  concepts : List String
  sourceFiles : List String
  deriving DecidableEq

/-- An observation with the defaults of the source. -/
def ObservationInput.new (content : String) : ObservationInput where
  content := content
  confidence := .one
  source := ""
  validFrom := none
  validUntil := none
  memoryTier := .episodic
  title := none
  summary := none
  importance := none
  sourceKind := none
  concepts := []
  sourceFiles := []

/-- One relation to attach; its target is named, and created when missing. -/
structure RelationInput where
  relationType : String
  targetName : String
  targetType : EntityType
  weight : Float32Bits
  source : String
  deriving DecidableEq

/-- One entity group of a batched write. -/
structure RememberRequest where
  name : String
  entityType : EntityType
  observations : List ObservationInput
  relations : List RelationInput
  source : String
  deriving DecidableEq

/-- A text of white space only. -/
def blank (value : String) : Bool := (trim value).isEmpty

/-- The input check shared by `remember` and `remember_batch`. -/
def validateGroup (name : String) (observations : List ObservationInput)
    (relations : List RelationInput) : MemoryResult Unit := do
  refuseIf (blank name) (.invalidInput "entity name must not be empty")
  observations.forM fun obs =>
    refuseIf (blank obs.content) (.invalidInput "observation content must not be empty")
  relations.forM fun rel => do
    refuseIf (blank rel.relationType) (.invalidInput "relation_type must not be empty")
    refuseIf (blank rel.targetName) (.invalidInput "relation target name must not be empty")

namespace RememberRequest

def validate (request : RememberRequest) : MemoryResult Unit :=
  validateGroup request.name request.observations request.relations

/-- Every number of the request is finite, so that JSON can carry it. -/
def finite (request : RememberRequest) : Bool :=
  (request.observations.all fun obs =>
      obs.confidence.isFinite && obs.importance.all Float32Bits.isFinite) &&
    request.relations.all fun rel => rel.weight.isFinite

end RememberRequest

/-! ## Stored observations -/

/-- What an observation says: the part of it that a revision keeps. -/
structure SemanticContent where
  entityId : String
  content : String
  observedAt : Int64
  validFrom : Option Int64
  validUntil : Option Int64
  confidence : Float32Bits
  source : String
  memoryTier : MemoryTier
  title : Option String
  summary : Option String
  importance : Option Float32Bits
  sourceKind : Option String
  concepts : List String
  sourceFiles : List String
  deriving DecidableEq

structure Observation extends SemanticContent where
  id : String
  tombstoned : Bool
  accessCount : UInt32

/-- Whether an observation is valid at a time; without a start it is valid from
when it was observed. -/
def Observation.isValidAt (obs : Observation) (time : Int64) : Bool :=
  decide (obs.validFrom.getD obs.observedAt ≤ time) &&
    obs.validUntil.all (fun until_ => decide (time < until_)) && !obs.tombstoned

/-! ## Exported entities and relations -/

structure Entity where
  id : String
  name : String
  entityType : EntityType
  createdAt : Int64
  updatedAt : Int64
  confidence : Float32Bits
  source : String
  deriving DecidableEq

structure Relation where
  id : String
  fromEntity : String
  toEntity : String
  relationType : String
  weight : Float32Bits
  createdAt : Int64
  validFrom : Option Int64
  validUntil : Option Int64
  source : String

end OpenMemory.Graph
