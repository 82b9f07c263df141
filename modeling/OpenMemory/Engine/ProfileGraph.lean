import OpenMemory.Engine.Rehoming

/-!
# What a profile says, and what a migration is to keep

What a profile says is its canonical graph: its entities, its observations, and
its edges between entities, seen through stubs. A stub carries a name and a type
and stands for the canonical entity that has exactly these, which is at most one.

A migration is to keep the graph, to put every row where its name belongs, and to
leave over every boundary one mirror for each edge and the stubs that it needs.
-/

namespace OpenMemory.Engine.Rehoming

open Foundation OpenMemory.Graph OpenMemory.Engine.Partition

/-! ## The graph of a profile -/

/-- What an entity is known by in the index that makes it unique. -/
def exactName (entity : Entity) : String × EntityType := (entity.name, entity.entityType)

/-- The canonical entity that a row stands for. -/
def Exported.standsFor (profile : Exported) (id : String) : Option Entity :=
  match findBy Entity.id profile.entities id with
  | none => none
  | some entity =>
    if isStub entity then findBy exactName profile.canonical (exactName entity) else some entity

/-- An edge between entities. -/
structure Edge where
  origin : Option Entity
  target : Option Entity
  relationType : String
  weight : Float32Bits
  createdAt : Int64
  validFrom : Option Int64
  validUntil : Option Int64
  source : String

/-- A relation with its ends seen through stubs. -/
def Exported.edge (profile : Exported) (rel : Relation) : Edge where
  origin := profile.standsFor rel.fromEntity
  target := profile.standsFor rel.toEntity
  relationType := rel.relationType
  weight := rel.weight
  createdAt := rel.createdAt
  validFrom := rel.validFrom
  validUntil := rel.validUntil
  source := rel.source

def Exported.leavesStub (profile : Exported) (rel : Relation) : Bool :=
  decide (rel.fromEntity ∈ profile.stubs.map Entity.id)

def Exported.canonicalRelations (profile : Exported) : List Relation :=
  profile.relations.filter fun rel => !profile.leavesStub rel

/-- Two profiles say the same. -/
structure SameGraph (left right : Exported) : Prop where
  entities : left.canonical.Perm right.canonical
  observations : left.observations.Perm right.observations
  edges : (left.canonicalRelations.map fun rel => (rel.id, left.edge rel)).Perm
    (right.canonicalRelations.map fun rel => (rel.id, right.edge rel))

/-- What the primary keys and the unique index on names promise of a profile. -/
structure Exported.WellFormed (profile : Exported) : Prop where
  entity_ids : (profile.entities.map Entity.id).Nodup
  entity_names : (profile.canonical.map exactName).Nodup
  relation_ids : (profile.relations.map Relation.id).Nodup

/-- The ids minted are new to the profile and distinct. -/
structure RouteHost.Mints (host : RouteHost) (profile : Exported) : Prop where
  injective : Function.Injective host.newId
  fresh_entity : ∀ count, host.newId count ∉ profile.entities.map Entity.id
  fresh_relation : ∀ count, host.newId count ∉ profile.relations.map Relation.id

/-! ## What a migration is to do -/

section Spec

variable [NameHash] {domains : Nat}

/-- The rows of all plans. -/
def gather (plans : Plans domains) : Exported where
  entities := (List.finRange domains).flatMap fun domain => (plans domain).entities
  observations := (List.finRange domains).flatMap fun domain => (plans domain).observations
  relations := (List.finRange domains).flatMap fun domain => (plans domain).relations
  vectors := []
  fts := []
  sources := []

variable [NeZero domains]

/-- The edge crosses the boundary into a domain. -/
def Edge.crossesInto (edge : Edge) (domain : Fin domains) : Bool :=
  match edge.origin, edge.target with
  | some origin, some target =>
    homeOf domains origin.name ≠ homeOf domains target.name ∧ homeOf domains target.name = domain
  | _, _ => false

/-- The stubs that an edge needs: of its target at home, and of its origin abroad. -/
def Edge.stubUses (domains : Nat) [NeZero domains] (edge : Edge) : List (Fin domains × Entity) :=
  match edge.origin, edge.target with
  | some origin, some target =>
    if homeOf domains origin.name = homeOf domains target.name then []
    else [(homeOf domains origin.name, target), (homeOf domains target.name, origin)]
  | _, _ => []

def Exported.stubUses (profile : Exported) (domains : Nat) [NeZero domains] :
    List (Fin domains × Entity) :=
  profile.canonicalRelations.flatMap fun rel => (profile.edge rel).stubUses domains

/-- The plans preserve a profile: they say the same, every row is where it belongs,
and over every boundary each edge has one mirror and the stubs it needs. -/
structure Preserved (profile : Exported) (plans : Plans domains) : Prop where
  graph : SameGraph profile (gather plans)
  entity_home : ∀ domain, ∀ entity ∈ (plans domain).entities, isStub entity = false →
    homeOf domains entity.name = domain
  observation_home : ∀ domain, ∀ obs ∈ (plans domain).observations,
    ∃ entity ∈ (plans domain).entities, isStub entity = false ∧ entity.id = obs.entityId
  closed : ∀ domain, ∀ rel ∈ (plans domain).relations,
    rel.fromEntity ∈ (plans domain).entities.map Entity.id ∧
      rel.toEntity ∈ (plans domain).entities.map Entity.id
  mirrors : ∀ domain,
    (((plans domain).relations.filter (gather plans).leavesStub).map (gather plans).edge).Perm
      ((profile.canonicalRelations.map profile.edge).filter fun edge => edge.crossesInto domain)
  stubs : ∀ domain, (((plans domain).entities.filter isStub).map exactName).Nodup
  needed : ∀ domain, ∀ stub ∈ (plans domain).entities, isStub stub = true →
    ∃ entity, (gather plans).standsFor stub.id = some entity ∧
      (domain, entity) ∈ profile.stubUses domains

end Spec

/-- The names that routing tells apart by lower case only are no other than those
of one entity: an old stub that an edge points at is resolved by its own name, and
the stubs that are needed in one new domain under one lower-cased name and type
are of one entity. -/
structure Faithful [NameHash] [CaseMapping] (domains : Nat) [NeZero domains]
    (profile : Exported) : Prop where
  resolved : ∀ rel ∈ profile.canonicalRelations, ∀ stub ∈ profile.stubs,
    stub.id = rel.toEntity → ∀ target, profile.canonicalByKey (entityKey stub) = some target →
      target.name = stub.name
  apart : ∀ use ∈ profile.stubUses domains, ∀ other ∈ profile.stubUses domains,
    use.1 = other.1 → entityKey use.2 = entityKey other.2 → use.2 = other.2

/-! ## Lookups -/

section Lookups

variable {profile : Exported} {entity : Entity} {id : String}

theorem mem_canonical : entity ∈ profile.canonical ↔
    entity ∈ profile.entities ∧ isStub entity = false := by
  simp [Exported.canonical, List.mem_filter]

theorem mem_stubs : entity ∈ profile.stubs ↔
    entity ∈ profile.entities ∧ isStub entity = true :=
  List.mem_filter

variable (wellFormed : profile.WellFormed)

include wellFormed

theorem Exported.WellFormed.canonical_ids : (profile.canonical.map Entity.id).Nodup :=
  wellFormed.entity_ids.sublist (List.filter_sublist.map _)

theorem Exported.WellFormed.stub_ids : (profile.stubs.map Entity.id).Nodup :=
  wellFormed.entity_ids.sublist (List.filter_sublist.map _)

theorem canonicalById_eq_some :
    profile.canonicalById id = some entity ↔ entity ∈ profile.canonical ∧ entity.id = id := by
  rw [Exported.canonicalById, lastBy_of_nodup wellFormed.canonical_ids]
  exact findBy_eq_some wellFormed.canonical_ids

theorem stubById_eq_some :
    profile.stubById id = some entity ↔ entity ∈ profile.stubs ∧ entity.id = id := by
  rw [Exported.stubById, lastBy_of_nodup wellFormed.stub_ids]
  exact findBy_eq_some wellFormed.stub_ids

theorem standsFor_canonical (member : entity ∈ profile.canonical) :
    profile.standsFor entity.id = some entity := by
  obtain ⟨row, notStub⟩ := mem_canonical.mp member
  rw [Exported.standsFor, findBy_of_mem wellFormed.entity_ids row]
  simp [notStub]

theorem standsFor_stub (member : entity ∈ profile.stubs) :
    profile.standsFor entity.id = findBy exactName profile.canonical (exactName entity) := by
  obtain ⟨row, stub⟩ := mem_stubs.mp member
  rw [Exported.standsFor, findBy_of_mem wellFormed.entity_ids row]
  simp [stub]

/-- A stub stands for the canonical entity of its name and type. -/
theorem standsFor_stub_of_mem {stub : Entity}
    (member : stub ∈ profile.stubs) (canonical : entity ∈ profile.canonical)
    (same : exactName entity = exactName stub) : profile.standsFor stub.id = some entity := by
  rw [standsFor_stub wellFormed member, ← same, findBy_of_mem wellFormed.entity_names canonical]

/-- Ids of stubs are not ids of canonical entities. -/
theorem ne_of_stub_of_canonical {stub : Entity}
    (member : stub ∈ profile.stubs) (canonical : entity ∈ profile.canonical) :
    entity.id ≠ stub.id := by
  intro same
  obtain ⟨row, notStub⟩ := mem_canonical.mp canonical
  obtain ⟨stubRow, isStub⟩ := mem_stubs.mp member
  have equal := List.inj_on_of_nodup_map wellFormed.entity_ids row stubRow same
  rw [equal, isStub] at notStub
  cases notStub

end Lookups

end OpenMemory.Engine.Rehoming
