import OpenMemory.Foundation.KeyedIndex
import OpenMemory.Merge.Planner.Stages

/-!
# Where source records land

An imported observation or relation lands in the result: it joins the object
its key finds, or it becomes an object of its own under a qualified identifier.
Observations and relations do this in the same way, so the facts are stated
once, for any record with an address and a key (`Landing`, `Landed`).

A key is looked up by its digest. What is stored is the digests of the held
entries and of the newcomers, together with a set of the identifiers handed
out, so that no two newcomers and no held object share one.
-/

namespace OpenMemory.Merge

open Foundation

/-- A source record with its key, and the result it found under the key. -/
structure Landing (R K : Type) where
  record : R
  key : K
  found : Option ResultObjectId

/-- Entries under the digests of their keys. -/
def digested {K : Type} (digest : K → SemanticHash) (entries : List (K × ResultObjectId)) :
    List (SemanticHash × ResultObjectId) :=
  entries.map fun entry => (digest entry.1, entry.2)

theorem digested_append {K : Type} (digest : K → SemanticHash)
    (first last : List (K × ResultObjectId)) :
    digested digest (first ++ last) = digested digest first ++ digested digest last :=
  List.map_append

/-- The identifiers that are taken by held objects. -/
def heldIds (addresses : List ObjectAddress) : Finset String :=
  (addresses.map fun address => address.logicalId.value).toFinset

theorem heldIds_concat (addresses : List ObjectAddress) (address : ObjectAddress) :
    heldIds (addresses ++ [address]) = insert address.logicalId.value (heldIds addresses) := by
  ext value
  simp only [heldIds, List.map_append, List.map_singleton, List.mem_toFinset, List.mem_append,
    List.mem_singleton, Finset.mem_insert]
  exact or_comm

theorem mem_heldIds {addresses : List ObjectAddress} {value : String} :
    value ∈ heldIds addresses ↔ ∃ address ∈ addresses, address.logicalId.value = value := by
  simp [heldIds]

section Landings

variable [Blake3] {R K : Type} {address : R → ObjectAddress} {digest : K → SemanticHash}

/-- The entry a record brings to the index. -/
def Landing.entry (address : R → ObjectAddress) (landing : Landing R K) : K × ResultObjectId :=
  (landing.key, .qualified (qualify (address landing.record)))

/-- The identifiers handed out to the records that found nothing. -/
def addedIds (address : R → ObjectAddress) (landings : List (Landing R K)) :
    List QualifiedObjectId :=
  (landings.filter fun landing => landing.found.isNone).map fun landing =>
    qualify (address landing.record)

/-- The records landed as the index prescribes, starting from the held entries. -/
structure Landed (address : R → ObjectAddress) (digest : K → SemanticHash)
    (held : List (K × ResultObjectId)) (ids : Finset String) (landings : List (Landing R K)) :
    Prop where
  found : landings.map Landing.found =
    arrivals (digested digest held) (digested digest (landings.map (Landing.entry address)))
  added_distinct : (addedIds address landings).Nodup
  added_fresh : ∀ result ∈ addedIds address landings, result.value ∉ ids

def Landing.digestedEntry (address : R → ObjectAddress) (digest : K → SemanticHash)
    (landing : Landing R K) : SemanticHash × ResultObjectId :=
  (digest landing.key, .qualified (qualify (address landing.record)))

theorem Landed.arrives {held : List (K × ResultObjectId)} {ids : Finset String}
    {landings : List (Landing R K)} (landed : Landed address digest held ids landings) :
    landings.map Landing.found = arrivals (digested digest held)
      (landings.map (Landing.digestedEntry address digest)) := by
  rw [landed.found, digested, digested, List.map_map]
  rfl

/-- What a record joins is held, or was added before it. -/
theorem Landed.mem_of_found {held : List (K × ResultObjectId)} {ids : Finset String}
    {before after : List (Landing R K)} {landing : Landing R K} {result : ResultObjectId}
    (landed : Landed address digest held ids (before ++ landing :: after))
    (finds : landing.found = some result) :
    result ∈ held.map Prod.snd ∨ result ∈ (addedIds address before).map .qualified := by
  have resident := Foundation.mem_of_found landed.arrives finds
  rcases List.mem_append.mp resident with isHeld | isAdded
  · obtain ⟨entry, member, same⟩ := List.mem_map.mp isHeld
    exact .inl (List.mem_map.mpr ⟨entry, member, congrArg Prod.snd same⟩)
  · obtain ⟨other, member, same⟩ := List.mem_map.mp isAdded
    refine .inr ?_
    rw [addedIds, List.map_map]
    exact List.mem_map.mpr ⟨other, member, congrArg Prod.snd same⟩

/-- The keys of what is held and of what is added are distinct, when those of what
is held are. -/
theorem Landed.nodup_keys {held : List (K × ResultObjectId)} {ids : Finset String}
    {landings : List (Landing R K)} (landed : Landed address digest held ids landings)
    (distinct : (held.map fun entry => digest entry.1).Nodup) :
    (held.map Prod.fst ++
      (landings.filter fun landing => landing.found.isNone).map Landing.key).Nodup := by
  have heldDigests : ((digested digest held).map Prod.fst).Nodup := by
    rw [digested, List.map_map]
    exact distinct
  have residents := nodup_residents
    (landings.map (Landing.digestedEntry address digest)) heldDigests
  rw [newcomers_of_arrivals landed.arrives, List.map_append, digested, List.map_map,
    List.map_map] at residents
  refine List.Nodup.of_map digest ?_
  rw [List.map_append, List.map_map, List.map_map]
  exact residents

/-- What the index and the identifier set of a visitor hold after some landings. -/
structure LandedSoFar (address : R → ObjectAddress) (digest : K → SemanticHash)
    (held : List (K × ResultObjectId)) (ids : Finset String) (landings : List (Landing R K))
    (index : OrderedMap SemanticHash ResultObjectId) (qualified : Finset SemanticHash) : Prop where
  landed : Landed address digest held ids landings
  index : Indexes index (digested digest (held ++ landings.map (Landing.entry address)))
  qualified : ∀ result ∈ addedIds address landings, qualifiedCollisionKey result ∈ qualified

variable {held : List (K × ResultObjectId)} {ids : Finset String}
  {landings : List (Landing R K)} {index : OrderedMap SemanticHash ResultObjectId}
  {qualified : Finset SemanticHash}

theorem landedSoFar_nil (indexed : Indexes index (digested digest held)) :
    LandedSoFar address digest held ids ([] : List (Landing R K)) index qualified := by
  refine ⟨⟨rfl, ?_, ?_⟩, ?_, ?_⟩
  · exact List.nodup_nil
  · simp [addedIds]
  · simpa using indexed
  · simp [addedIds]

private theorem found_concat {record : R} {key : K} {found : Option ResultObjectId}
    (soFar : LandedSoFar address digest held ids landings index qualified)
    (finds : index[digest key]? = found) :
    (landings ++ [Landing.mk record key found]).map Landing.found =
      arrivals (digested digest held)
        (digested digest ((landings ++ [Landing.mk record key found]).map (Landing.entry address))) := by
  rw [List.map_append, List.map_append, digested_append, soFar.landed.found]
  have entry : digested digest ([Landing.mk record key found].map (Landing.entry address)) =
      [(digest key, ResultObjectId.qualified (qualify (address record)))] := rfl
  rw [entry, arrivals_concat, ← digested_append, ← soFar.index, finds]
  rfl

/-- A record joins the result its key finds. -/
theorem LandedSoFar.join {record : R} {key : K} {target : ResultObjectId}
    (soFar : LandedSoFar address digest held ids landings index qualified)
    (finds : index[digest key]? = some target) :
    LandedSoFar address digest held ids (landings ++ [⟨record, key, some target⟩]) index
      qualified := by
  have added : addedIds address (landings ++ [⟨record, key, some target⟩]) =
      addedIds address landings := by simp [addedIds]
  refine ⟨⟨found_concat soFar finds, ?_, ?_⟩, ?_, ?_⟩
  · rw [added]
    exact soFar.landed.added_distinct
  · rw [added]
    exact soFar.landed.added_fresh
  · rw [List.map_append, ← List.append_assoc, digested_append]
    rw [soFar.index] at finds
    exact soFar.index.concat_of_some finds
  · rw [added]
    exact soFar.qualified

/-- A record that finds nothing becomes a result of its own. -/
theorem LandedSoFar.add {record : R} {key : K}
    (soFar : LandedSoFar address digest held ids landings index qualified)
    (finds : index[digest key]? = none)
    (fresh : ¬ ((qualify (address record)).value ∈ ids ∨
      qualifiedCollisionKey (qualify (address record)) ∈ qualified)) :
    LandedSoFar address digest held ids (landings ++ [⟨record, key, none⟩])
      (index.insert (digest key) (.qualified (qualify (address record))))
      (insert (qualifiedCollisionKey (qualify (address record))) qualified) := by
  obtain ⟨notHeld, notAdded⟩ := not_or.mp fresh
  have added : addedIds address (landings ++ [⟨record, key, none⟩]) =
      addedIds address landings ++ [qualify (address record)] := by simp [addedIds]
  refine ⟨⟨found_concat soFar finds, ?_, ?_⟩, ?_, ?_⟩
  · rw [added, List.nodup_append]
    refine ⟨soFar.landed.added_distinct, List.nodup_singleton _, ?_⟩
    rintro earlier member last isLast rfl
    rw [List.mem_singleton] at isLast
    exact notAdded (isLast ▸ soFar.qualified earlier member)
  · rw [added]
    exact forall_mem_concat soFar.landed.added_fresh notHeld
  · rw [List.map_append, ← List.append_assoc, digested_append]
    rw [soFar.index] at finds
    exact soFar.index.insert_of_none finds
  · rw [added]
    intro result member
    rcases List.mem_append.mp member with earlier | last
    · exact Finset.mem_insert_of_mem (soFar.qualified result earlier)
    · rw [List.mem_singleton] at last
      exact last ▸ Finset.mem_insert_self _ _

end Landings

/-! ## Observations and relations -/

section Records

variable [Blake3]

abbrev ObservationLanding := Landing ObservationRecord ObservationKey

abbrev RelationLanding := Landing RelationRecord RelationKey

def observationAction (landing : ObservationLanding) : MergeAction :=
  match landing.found with
  | some target => .mergeObservationOrigin landing.record target landing.key.1
  | none => .addObservation landing.record (qualify landing.record.address) landing.key.1

def relationAction (landing : RelationLanding) : MergeAction :=
  match landing.found with
  | some target =>
    .mergeRelationOrigin landing.record target landing.key.1 landing.key.2.2.1
  | none =>
    .addRelation landing.record (qualify landing.record.address) landing.key.1 landing.key.2.2.1

/-- The entry of a target observation. -/
def heldObservation (record : ObservationRecord) : ObservationKey × ResultObjectId :=
  ((.target record.entity.logicalId, record.lifecycle, record.content),
    .target record.address.logicalId)

/-- The entry of a target relation. -/
def heldRelation (record : RelationRecord) : RelationKey × ResultObjectId :=
  ((.target record.subject.logicalId, record.predicate, .target record.object.logicalId,
    record.lifecycle), .target record.address.logicalId)

/-- The key of a source observation, once its entity has become a result. -/
def RewiredObservation (becomes : LogicalId → ResultObjectId → Prop)
    (record : ObservationRecord) (key : ObservationKey) : Prop :=
  becomes record.entity.logicalId key.1 ∧ key.2 = (record.lifecycle, record.content)

/-- The key of a source relation, once its ends have become results. -/
def RewiredRelation (becomes : LogicalId → ResultObjectId → Prop) (record : RelationRecord)
    (key : RelationKey) : Prop :=
  becomes record.subject.logicalId key.1 ∧ becomes record.object.logicalId key.2.2.1 ∧
    key.2.1 = record.predicate ∧ key.2.2.2 = record.lifecycle

end Records

end OpenMemory.Merge
