import OpenMemory.Engine.Partition
import OpenMemory.Foundation.Grouping

/-!
# Routing an exported profile to another number of domains

A migration exports all rows of the old domains and routes each to its new one.
Canonical entities follow the hash of their name and observations follow their
entity. Stubs and the mirror edges that leave them belong to the old boundaries:
they are dropped and made anew. An edge that points at an old stub is resolved to
a canonical entity by the stub's lower-cased name and its type.

The ids that are minted come from a supply. The orders of hash maps and the
formatting of a text for debugging are parameters.
-/

namespace OpenMemory.Engine.Rehoming

open Foundation OpenMemory.Graph OpenMemory.Engine.Partition

/-! ## What is exported and what is planned -/

structure ExportEntry where
  uri : String
  text : String
  chunkIndex : UInt32
  vector : List Float32Bits

/-- `IndexEntry::from`. -/
def ExportEntry.toIndexEntry (entry : ExportEntry) : IndexEntry where
  uri := entry.uri
  text := entry.text
  chunkIndex := entry.chunkIndex
  vector := entry.vector
  title := none
  summary := none
  concepts := []
  sourceFiles := []
  sourceKind := none
  entityType := none
  entityName := none

inductive SourceKind where
  | observation
  | indexText

structure SourceRecord where
  uri : String
  kind : SourceKind
  contentHash : Bytes
  sizeBytes : UInt64
  sourceType : String
  chunkCount : UInt32
  status : String
  createdAt : Int64
  updatedAt : Int64

/-- Everything exported from the old layout, merged across domains. -/
structure Exported where
  entities : List Entity
  observations : List Observation
  relations : List Relation
  vectors : List ExportEntry
  fts : List ExportEntry
  sources : List SourceRecord

/-- What a new domain is built from. -/
structure DomainPlan where
  entities : List Entity
  observations : List Observation
  relations : List Relation
  vectors : List IndexEntry
  fts : List IndexEntry
  sources : List SourceRecord

structure MigrationReport where
  fromDomains : Nat
  toDomains : Nat
  entities : Nat
  observations : Nat
  relations : Nat
  stubsDropped : Nat
  mirrorsDropped : Nat
  stubsCreated : Nat
  mirrorsCreated : Nat
  indexEntries : Nat
  orphanedIndexEntriesDropped : Nat
  sourceRecords : Nat
  backupDir : String

def DomainPlan.empty : DomainPlan := ⟨[], [], [], [], [], []⟩

def MigrationReport.start (toDomains : Nat) : MigrationReport where
  fromDomains := 0
  toDomains := toDomains
  entities := 0
  observations := 0
  relations := 0
  stubsDropped := 0
  mirrorsDropped := 0
  stubsCreated := 0
  mirrorsCreated := 0
  indexEntries := 0
  orphanedIndexEntriesDropped := 0
  sourceRecords := 0
  backupDir := ""

/-- A plan for every new domain. -/
abbrev Plans (domains : Nat) := Fin domains → DomainPlan

def Plans.change {domains : Nat} (plans : Plans domains) (domain : Fin domains)
    (change : DomainPlan → DomainPlan) : Plans domains :=
  Function.update plans domain (change (plans domain))

/-! ## Stubs and keys -/

def isStub (entity : Entity) : Bool := entity.source = partitionStubSource

def Exported.stubs (exported : Exported) : List Entity := exported.entities.filter isStub

def Exported.canonical (exported : Exported) : List Entity :=
  exported.entities.filter fun entity => !isStub entity

/-- The hash maps of the source: the entities by id, and the canonical ones by name
and type too. -/
def Exported.stubById (exported : Exported) (id : String) : Option Entity :=
  findBy Entity.id (lastBy Entity.id exported.stubs) id

def Exported.canonicalById (exported : Exported) (id : String) : Option Entity :=
  findBy Entity.id (lastBy Entity.id exported.canonical) id

section Keys

variable [CaseMapping]

abbrev NameKey := String × EntityType

def entityKey (entity : Entity) : NameKey :=
  (CaseMapping.toLowercase entity.name, entity.entityType)

def Exported.canonicalByKey (exported : Exported) (key : NameKey) : Option Entity :=
  findBy entityKey (lastBy entityKey exported.canonical) key

end Keys

/-! ## Routing -/

/-- What the migration leaves to its surroundings. -/
structure RouteHost where
  /-- The ids that are minted, one after the other. -/
  newId : Nat → String
  visit : HashOrder Entity
  /-- The text in quotes, with escapes. -/
  debug : String → String

/-- The variables of `route`. -/
structure Routing (domains : Nat) where
  plans : Plans domains
  report : MigrationReport
  newStubIds : List ((Fin domains × NameKey) × String)
  minted : Nat

section Route

variable [NameHash] [CaseMapping] {domains : Nat} [NeZero domains]

/-- The new domain of a name or a URI. -/
def homeOf (domains : Nat) [NeZero domains] (key : String) : Fin domains :=
  ⟨domainFor key domains, domainFor_lt key (NeZero.pos domains)⟩

/-- Canonical entities follow the hash of their name. -/
def placeEntity (state : Routing domains) (entity : Entity) : Routing domains :=
  { state with
    plans := state.plans.change (homeOf domains entity.name) fun plan =>
      { plan with entities := plan.entities ++ [entity] }
    report := { state.report with entities := state.report.entities + 1 } }

def placeObservation (exported : Exported) (state : Routing domains) (obs : Observation) :
    MemoryResult (Routing domains) :=
  match exported.canonicalById obs.entityId with
  | none => .error (.invalidInput
      (s!"observation {obs.id} belongs to stub or missing entity {obs.entityId}; the " ++
        "profile is inconsistent — run `openmemory consolidate` and retry"))
  | some entity =>
    .ok { state with
      plans := state.plans.change (homeOf domains entity.name) fun plan =>
        { plan with observations := plan.observations ++ [obs] }
      report := { state.report with observations := state.report.observations + 1 } }

def stubOf (id : String) (of : Entity) : Entity where
  id := id
  name := of.name
  entityType := of.entityType
  createdAt := of.createdAt
  updatedAt := of.updatedAt
  confidence := .one
  source := partitionStubSource

/-- The stub of an entity in a domain; one is made where there is none under its key. -/
def synthesizeStub (host : RouteHost) (state : Routing domains) (domain : Fin domains)
    (of : Entity) : String × Routing domains :=
  let key := (domain, entityKey of)
  match state.newStubIds.lookup key with
  | some id => (id, state)
  | none =>
    let id := host.newId state.minted
    (id, { plans := state.plans.change domain fun plan =>
             { plan with entities := plan.entities ++ [stubOf id of] }
           report := { state.report with stubsCreated := state.report.stubsCreated + 1 }
           newStubIds := state.newStubIds ++ [(key, id)]
           minted := state.minted + 1 })

/-- A canonical edge with the entities at its ends. -/
structure Leg where
  rel : Relation
  origin : Entity
  target : Entity

/-- The ends of an edge, looking through old stubs; none for a mirror. -/
def resolveEdge (host : RouteHost) (exported : Exported) (rel : Relation) :
    MemoryResult (Option Leg) :=
  if (exported.stubById rel.fromEntity).isSome then .ok none
  else
    match exported.canonicalById rel.fromEntity with
    | none => .error (.invalidInput
        s!"relation {rel.id} originates from missing entity {rel.fromEntity}")
    | some origin =>
      match exported.canonicalById rel.toEntity with
      | some target => .ok (some ⟨rel, origin, target⟩)
      | none =>
        match exported.stubById rel.toEntity with
        | none => .error (.invalidInput
            s!"relation {rel.id} points at missing entity {rel.toEntity}")
        | some stub =>
          match exported.canonicalByKey (entityKey stub) with
          | some target => .ok (some ⟨rel, origin, target⟩)
          | none => .error (.invalidInput
              (s!"relation {rel.id} points at stub-only entity {host.debug stub.name} " ++
                "with no canonical row; run `openmemory consolidate` and retry"))

def mirrorOf (rel : Relation) (id fromEntity toEntity : String) : Relation :=
  { rel with id := id, fromEntity := fromEntity, toEntity := toEntity }

/-- Push an edge to the plan of a domain. -/
def Plans.addRelation {domains : Nat} (plans : Plans domains) (domain : Fin domains)
    (rel : Relation) : Plans domains :=
  plans.change domain fun plan => { plan with relations := plan.relations ++ [rel] }

/-- A canonical edge, and over a boundary its mirror and the stubs of both. -/
def placeLeg (host : RouteHost) (state : Routing domains) (leg : Leg) : Routing domains :=
  let fromDomain := homeOf domains leg.origin.name
  let targetDomain := homeOf domains leg.target.name
  if fromDomain = targetDomain then
    { state with
      plans := state.plans.addRelation fromDomain { leg.rel with toEntity := leg.target.id }
      report := { state.report with relations := state.report.relations + 1 } }
  else
    let (targetStub, state) := synthesizeStub host state fromDomain leg.target
    -- the id of the mirror is minted before the stub it leaves from
    let mirrorId := host.newId state.minted
    let (originStub, state) := synthesizeStub host { state with minted := state.minted + 1 }
      targetDomain leg.origin
    { state with
      plans := (state.plans.addRelation targetDomain
          (mirrorOf leg.rel mirrorId originStub leg.target.id)).addRelation fromDomain
        { leg.rel with toEntity := targetStub }
      report := { state.report with
        relations := state.report.relations + 1
        mirrorsCreated := state.report.mirrorsCreated + 1 } }

def placeRelation (host : RouteHost) (exported : Exported) (state : Routing domains)
    (rel : Relation) : MemoryResult (Routing domains) := do
  match ← resolveEdge host exported rel with
  | none =>
    pure { state with
      report := { state.report with mirrorsDropped := state.report.mirrorsDropped + 1 } }
  | some leg => pure (placeLeg host state leg)

/-- The domain of an index entry: an observation's follows its entity, unless it has
drifted. -/
def entryDomain (domains : Nat) [NeZero domains] (exported : Exported) (uri : String) :
    Option (Fin domains) :=
  match stripPrefix "memory://observation/" uri with
  | none => some (homeOf domains uri)
  | some id =>
    match findBy Observation.id (lastBy Observation.id exported.observations) id with
    | none => none
    | some obs =>
      if obs.tombstoned then none
      else (exported.canonicalById obs.entityId).map fun entity => homeOf domains entity.name

/-- An index entry goes to one arm of the index or is dropped. -/
def placeEntry (exported : Exported) (push : DomainPlan → IndexEntry → DomainPlan)
    (state : Routing domains) (entry : ExportEntry) : Routing domains :=
  match entryDomain domains exported entry.uri with
  | none =>
    { state with
      report := { state.report with
        orphanedIndexEntriesDropped := state.report.orphanedIndexEntriesDropped + 1 } }
  | some domain =>
    { state with
      plans := state.plans.change domain fun plan => push plan entry.toIndexEntry
      report := { state.report with indexEntries := state.report.indexEntries + 1 } }

def placeSource (state : Routing domains) (record : SourceRecord) : Routing domains :=
  { state with
    plans := state.plans.change (homeOf domains record.uri) fun plan =>
      { plan with sources := plan.sources ++ [record] }
    report := { state.report with sourceRecords := state.report.sourceRecords + 1 } }

/-- The variables before the first loop over canonical rows. -/
def Routing.start (domains stubsDropped : Nat) : Routing domains where
  plans := fun _ => .empty
  report := { MigrationReport.start domains with stubsDropped := stubsDropped }
  newStubIds := []
  minted := 0

/-- `route`: the plan of every new domain. -/
def route (host : RouteHost) (exported : Exported) (domains : Nat) [NeZero domains] :
    MemoryResult (Plans domains × MigrationReport) := do
  let state := (host.visit.order (lastBy Entity.id exported.canonical)).foldl placeEntity
    (.start domains exported.stubs.length)
  let state ← exported.observations.foldlM (placeObservation exported) state
  let state ← exported.relations.foldlM (placeRelation host exported) state
  let state := exported.vectors.foldl (placeEntry exported fun plan entry =>
    { plan with vectors := plan.vectors ++ [entry] }) state
  let state := exported.fts.foldl (placeEntry exported fun plan entry =>
    { plan with fts := plan.fts ++ [entry] }) state
  let state := exported.sources.foldl placeSource state
  pure (state.plans, state.report)

end Route

end OpenMemory.Engine.Rehoming
