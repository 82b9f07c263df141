import OpenMemory.Graph.Maintenance

/-!
# Entities by name

A name may be carried by several entities, of different types. A resolution by name gives
them all, up to a bound, oldest first, and a call that needs one entity refuses to choose.
-/

namespace OpenMemory.Graph

open Foundation
open Merge (Blake3)

def maxNameCandidates : Nat := 64

def StoredEntity.entity (row : StoredEntity) (id : String) : Entity where
  id := id
  name := row.name
  entityType := row.entityType
  createdAt := row.createdAt
  updatedAt := row.updatedAt
  confidence := row.confidence
  source := row.source

/-- A candidate of an ambiguous name, as an error shows it. -/
def Entity.label (entity : Entity) : String :=
  entity.id ++ " (" ++ entity.entityType.asStr ++ ")"

namespace Database

def getEntityById (db : Database) (id : String) : Option Entity :=
  (db.entities.get? id).map fun row => row.entity id

/-- The entities of a name, oldest first. -/
def entitiesNamed (db : Database) (name : String) : List Entity :=
  ((db.entities.entries.filter fun entry => entry.2.name = name).map fun entry =>
    entry.2.entity entry.1).mergeSort fun left right =>
      left.createdAt < right.createdAt || left.createdAt = right.createdAt && left.id ≤ right.id

def fromOrderedRows (name : String) (rows : List Entity) (truncated : Bool) : EntityResolution :=
  match rows, truncated with
  | [], _ => .notFound
  | [entity], false => .unique entity
  | rows, truncated => .ambiguous name rows truncated

def resolveEntity (db : Database) (name : String) : EntityResolution :=
  let rows := (db.entitiesNamed name).take (maxNameCandidates + 1)
  fromOrderedRows name (rows.take maxNameCandidates) (decide (maxNameCandidates < rows.length))

def uniqueEntity (db : Database) (name : String) : MemoryResult Entity :=
  match db.resolveEntity name with
  | .notFound => .error (.entityNotFound name)
  | .unique entity => .ok entity
  | .ambiguous name entities _ => .error (.ambiguousEntityName name (entities.map Entity.label))

/-- `forget_entity_by_id`, with the number of observations that go with the entity. -/
def forgetCounting (db : Database) (entityId : String) : MemoryResult (Database × Nat) := do
  let after ← db.forgetEntityById entityId
  return (after, (db.observations.entries.filter fun entry =>
    entry.2.semantic.entityId = entityId).length)

def forgetEntity (db : Database) (name : String) : MemoryResult (Database × Nat) := do
  refuseIf (blank name) (.invalidInput "entity name must not be empty")
  let entity ← db.uniqueEntity name
  db.forgetCounting entity.id

def retireEntityObservations [Blake3] [PayloadCodec] [EntityMatching] (db : Database)
    (draws : Draws) (key : ChangeSetId) (name : String) : MemoryResult (Database × Nat) := do
  refuseIf (blank name) (.invalidInput "entity name must not be empty")
  let entity ← db.uniqueEntity name
  db.retireEntityObservationsById draws key entity.id

variable {db db' : Database} {name id : String} {row : StoredEntity} {entity : Entity}

theorem mem_entitiesNamed : entity ∈ db.entitiesNamed name ↔
    ∃ row, db.entities.get? entity.id = some row ∧ row.name = name ∧ row.entity entity.id = entity := by
  unfold entitiesNamed
  rw [(List.mergeSort_perm _ _).mem_iff, List.mem_map]
  constructor
  · rintro ⟨⟨id, row⟩, member, rfl⟩
    obtain ⟨held, named⟩ := List.mem_filter.mp member
    exact ⟨row, Table.get?_eq_some_iff.mpr held, of_decide_eq_true named, rfl⟩
  · rintro ⟨row, held, named, same⟩
    exact ⟨(entity.id, row), List.mem_filter.mpr ⟨Table.get?_eq_some_iff.mp held,
      decide_eq_true named⟩, same⟩

/-- No two entities have the same name and type, and every id is a text. Both hold of every
store, the first one by a unique index. -/
structure EntitiesApart (db : Database) : Prop where
  names : ∀ first second left right, db.entities.get? first = some left →
    db.entities.get? second = some right → left.name = right.name →
      left.entityType = right.entityType → first = second
  ids : ∀ id row, db.entities.get? id = some row → blank id = false

theorem entitiesNamed_ids_nodup : ((db.entitiesNamed name).map Entity.id).Nodup := by
  unfold entitiesNamed
  rw [((List.mergeSort_perm _ _).map _).nodup_iff, List.map_map]
  exact db.entities.distinct.sublist (List.filter_sublist.map _)

/-- A name has at most one entity of each type. -/
theorem EntitiesApart.length_le (apart : db.EntitiesApart) : (db.entitiesNamed name).length ≤ 9 := by
  have types : ((db.entitiesNamed name).map Entity.entityType).Nodup := by
    have distinct : (db.entitiesNamed name).Nodup :=
      List.Nodup.of_map Entity.id entitiesNamed_ids_nodup
    refine List.Nodup.map_on (fun first member second other same => ?_) distinct
    obtain ⟨left, heldLeft, namedLeft, sameLeft⟩ := mem_entitiesNamed.mp member
    obtain ⟨right, heldRight, namedRight, sameRight⟩ := mem_entitiesNamed.mp other
    rw [← sameLeft, ← sameRight] at same
    have ids := apart.names _ _ left right heldLeft heldRight (namedLeft.trans namedRight.symm) same
    rw [ids] at heldLeft
    cases heldLeft.symm.trans heldRight
    rw [← sameLeft, ← sameRight, ids]
  have all : (db.entitiesNamed name).map Entity.entityType ⊆
      [.person, .project, .concept, .tool, .preference, .fact, .event, .location, .organization] := by
    intro entityType _
    cases entityType <;> simp
  simpa using (List.subperm_of_subset types all).length_le

theorem fromOrderedRows_candidates {rows : List Entity} {truncated : Bool} :
    (fromOrderedRows name rows truncated).candidates = rows := by
  unfold fromOrderedRows
  split <;> rfl

theorem candidates_ids_nodup :
    ((db.resolveEntity name).candidates.map Entity.id).Nodup := by
  unfold resolveEntity
  rw [fromOrderedRows_candidates]
  exact entitiesNamed_ids_nodup.sublist
    (((List.take_sublist _ _).trans (List.take_sublist _ _)).map _)

/-- So a resolution names all of them. -/
theorem EntitiesApart.mem_candidates (apart : db.EntitiesApart) :
    entity ∈ (db.resolveEntity name).candidates ↔ entity ∈ db.entitiesNamed name := by
  have few : (db.entitiesNamed name).length ≤ maxNameCandidates :=
    apart.length_le.trans (by decide)
  unfold resolveEntity
  rw [fromOrderedRows_candidates, List.take_take, Nat.min_eq_left (Nat.le_succ _),
    List.take_of_length_le few]

theorem fromOrderedRows_eq_unique {rows : List Entity} {truncated : Bool} :
    fromOrderedRows name rows truncated = .unique entity ↔ rows = [entity] ∧ truncated = false := by
  unfold fromOrderedRows
  split
  · exact iff_of_false nofun fun both => nomatch both.1
  · constructor
    · intro same
      cases same
      exact ⟨rfl, rfl⟩
    · rintro ⟨same, _⟩
      cases same
      rfl
  · rename_i others
    refine iff_of_false nofun ?_
    rintro ⟨rfl, rfl⟩
    exact others entity rfl rfl

theorem resolveEntity_eq_unique :
    db.resolveEntity name = .unique entity ↔ db.entitiesNamed name = [entity] := by
  unfold resolveEntity
  dsimp only
  rw [fromOrderedRows_eq_unique, List.take_take, Nat.min_eq_left (Nat.le_succ _),
    decide_eq_false_iff_not, List.length_take]
  constructor
  · rintro ⟨rows, few⟩
    rwa [List.take_of_length_le (by omega)] at rows
  · intro only
    rw [only, List.length_singleton]
    exact ⟨rfl, by decide⟩

theorem uniqueEntity_eq_ok :
    db.uniqueEntity name = .ok entity ↔ db.entitiesNamed name = [entity] := by
  rw [← resolveEntity_eq_unique]
  unfold uniqueEntity
  split <;> rename_i resolved <;> rw [resolved]
  · exact iff_of_false nofun nofun
  · constructor <;> rintro ⟨⟩ <;> rfl
  · exact iff_of_false nofun nofun

/-! ## Entities that are removed -/

/-- Some entities are removed, with their observations and their relations, and no others. -/
structure Drops (db : Database) (gone : String → Prop) (db' : Database) : Prop where
  entities : ∀ id row, db'.entities.get? id = some row ↔ db.entities.get? id = some row ∧ ¬ gone id
  observations : ∀ id row, db'.observations.get? id = some row ↔
    db.observations.get? id = some row ∧ ¬ gone row.semantic.entityId
  relations : ∀ id row, db'.relations.get? id = some row ↔
    db.relations.get? id = some row ∧ ¬ gone row.fromEntity ∧ ¬ gone row.toEntity

theorem Drops.refl (db : Database) : Drops db (fun _ => False) db where
  entities _ _ := (and_iff_left not_false).symm
  observations _ _ := (and_iff_left not_false).symm
  relations _ _ := (and_iff_left ⟨not_false, not_false⟩).symm

theorem Drops.trans {db'' : Database} {first second : String → Prop} (one : Drops db first db')
    (two : Drops db' second db'') : Drops db (fun id => first id ∨ second id) db'' where
  entities id row := by
    rw [two.entities, one.entities, and_assoc, not_or]
  observations id row := by
    rw [two.observations, one.observations, and_assoc, not_or]
  relations id row := by
    rw [two.relations, one.relations, not_or, not_or]
    tauto

theorem Drops.congr {first second : String → Prop} (drops : Drops db first db')
    (same : ∀ id, first id ↔ second id) : Drops db second db' := by
  have equal : first = second := funext fun id => propext (same id)
  exact equal ▸ drops

theorem Drops.entitiesApart {gone : String → Prop} (drops : Drops db gone db')
    (apart : db.EntitiesApart) : db'.EntitiesApart where
  names first second left right heldLeft heldRight :=
    apart.names first second left right ((drops.entities first left).mp heldLeft).1
      ((drops.entities second right).mp heldRight).1
  ids id row held := apart.ids id row ((drops.entities id row).mp held).1

theorem deleteEntity_drops : Drops db (fun other => other = id) (db.deleteEntity id) where
  entities other row := by
    change (db.entities.erase id).get? other = some row ↔ _
    rw [Table.get?_erase]
    split
    · rename_i same
      exact iff_of_false (Option.some_ne_none row).symm fun both => both.2 same
    · rename_i apart
      exact (and_iff_left apart).symm
  observations other row := by
    change (db.observations.filter _).get? other = some row ↔ _
    rw [Table.get?_filter, Option.filter_eq_some_iff, decide_eq_true_eq]
  relations other row := by
    change (db.relations.filter _).get? other = some row ↔ _
    rw [Table.get?_filter, Option.filter_eq_some_iff, decide_eq_true_eq]

theorem forgetCounting_drops {count : Nat} (forgotten : db.forgetCounting id = .ok (db', count)) :
    Drops db (fun other => other = id) db' := by
  unfold forgetCounting forgetEntityById at forgotten
  obtain ⟨after, first, finished⟩ := bind_eq_ok.mp forgotten
  cases finished
  obtain ⟨_, _, first⟩ := bind_eq_ok.mp first
  obtain ⟨_, _, deleted⟩ := bind_eq_ok.mp first
  cases deleted
  exact deleteEntity_drops

theorem forgetCounting_of_present (present : db.entities.get? id = some row)
    (named : blank id = false) : ∃ count, db.forgetCounting id = .ok (db.deleteEntity id, count) := by
  have checked : refuseIf (blank id) (.invalidInput "entity id must not be empty") =
      (.ok () : MemoryResult Unit) := refuseIf_eq_ok.mpr (by rw [named]; exact Bool.false_ne_true)
  have found : refuseIf (db.entities.get? id = none) (.entityNotFound id) =
      (.ok () : MemoryResult Unit) := refuseIf_eq_ok.mpr (by rw [present]; exact Option.some_ne_none _)
  unfold forgetCounting forgetEntityById
  rw [checked, found]
  exact ⟨_, rfl⟩

end Database

end OpenMemory.Graph
