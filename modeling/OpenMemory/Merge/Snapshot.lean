import OpenMemory.Foundation.Emission
import OpenMemory.Merge.Encoding

/-!
# Snapshots and their record streams

A planner reads a snapshot through a header and three record streams. A stream
is any sequence of records that ends well or with an error (`RecordStream`), so
a source may lie about its header, repeat records or fail after any prefix; what
a planner may rely on it has to check itself.

`MemorySnapshot` is the in-memory source. Its constructor sorts the records by
address, refuses foreign, repeated and dangling ones, and computes the header
hash. The type keeps what the constructor checked (`WellFormed`), and the result
does not depend on the order in which the records were handed over
(`MemorySnapshot.new_perm`).
-/

namespace OpenMemory.Merge

open Foundation Canonical

/-! ## Versions and headers -/

structure DomainGeneration where
  domain : UInt16
  semantic : UInt64
  indexed : UInt64
  mirrored : UInt64
  deriving DecidableEq

/-- The domains of a version are non-empty, bounded and numbered from zero. -/
def DomainsContiguous (domains : List DomainGeneration) : Prop :=
  domains ≠ [] ∧ domains.length ≤ 64 ∧ ∀ entry ∈ domains.zipIdx, entry.1.domain.toNat = entry.2

instance (domains : List DomainGeneration) : Decidable (DomainsContiguous domains) :=
  inferInstanceAs (Decidable (_ ∧ _ ∧ _))

structure SpaceVersion where
  domains : List DomainGeneration
  combinedHash : SemanticHash
  contiguous : DomainsContiguous domains
  deriving DecidableEq

def SpaceVersion.new (domains : List DomainGeneration) (combinedHash : SemanticHash) :
    MergeResult SpaceVersion :=
  if contiguous : DomainsContiguous domains then .ok ⟨domains, combinedHash, contiguous⟩
  else
    .error ⟨.invalidInput,
      "space version domains must be non-empty, bounded, and numerically contiguous"⟩

def encodeDomain (value : DomainGeneration) : Bytes :=
  u16 value.domain.toNat ++ (u64 value.semantic.toNat ++
    (u64 value.indexed.toNat ++ u64 value.mirrored.toNat))

def encodeSpaceVersion (value : SpaceVersion) : Bytes :=
  counted encodeDomain value.domains ++ Canonical.hash value.combinedHash

/-- What a source announces about itself. -/
structure SnapshotHeader where
  formatVersion : Nat
  snapshotId : SnapshotId
  spaceId : SpaceId
  spaceVersion : SpaceVersion
  entityCount : Nat
  observationCount : Nat
  relationCount : Nat
  hash : SnapshotHash

/-! ## Record streams -/

/-- A sequence of records, and the error the source stops with, if any. -/
structure RecordStream (R : Type) where
  records : List R
  failure : Option MergeError

/-- A visit hands over each record in order. It stops with the visitor's error,
or with the source's own after the last record. -/
def RecordStream.visit {R σ S : Type} (stream : RecordStream R)
    (visitor : S → R → Effect MergeError σ S) (init : S) : Effect MergeError σ S := do
  let final ← stream.records.foldlM visitor init
  match stream.failure with
  | none => pure final
  | some error => Effect.lift (.error error)

/-- `SnapshotSource`: a header and three streams. -/
structure SnapshotSource where
  header : SnapshotHeader
  entities : RecordStream EntityRecord
  observations : RecordStream ObservationRecord
  relations : RecordStream RelationRecord

/-! ## The checks on records in memory -/

def validateCount (name : String) (value : Nat) : MergeResult Unit :=
  refuseIf (value > maxSnapshotRecords) ⟨.boundExceeded, name ++ " exceeds the snapshot hard limit"⟩

/-- One round of the loop of `validate_unique_addresses`. -/
def checkAddress (kind : String) (expectedSpace : SpaceId) (previous : Option ObjectAddress)
    (value : ObjectAddress) : MergeResult (Option ObjectAddress) := do
  refuseIf (value.space ≠ expectedSpace) ⟨.invalidInput, kind ++ " belongs to another space"⟩
  refuseIf (∃ prior ∈ previous, prior ≥ value)
    ⟨.duplicateInput, kind ++ " addresses must be unique"⟩
  pure (some value)

def validateUniqueAddresses (kind : String) (values : List ObjectAddress)
    (expectedSpace : SpaceId) : MergeResult Unit := do
  let _ ← values.foldlM (checkAddress kind expectedSpace) none
  pure ()

/-- The records of one snapshot: bounded, strictly sorted, in one space, and
with every endpoint present. -/
structure WellFormed (space : SpaceId) (entities : List EntityRecord)
    (observations : List ObservationRecord) (relations : List RelationRecord) : Prop where
  entities_bounded : entities.length ≤ maxSnapshotRecords
  observations_bounded : observations.length ≤ maxSnapshotRecords
  relations_bounded : relations.length ≤ maxSnapshotRecords
  entities_sorted : (entities.map EntityRecord.address).Pairwise (· < ·)
  observations_sorted : (observations.map ObservationRecord.address).Pairwise (· < ·)
  relations_sorted : (relations.map RelationRecord.address).Pairwise (· < ·)
  entities_here : ∀ address ∈ entities.map EntityRecord.address, address.space = space
  observations_here : ∀ address ∈ observations.map ObservationRecord.address, address.space = space
  relations_here : ∀ address ∈ relations.map RelationRecord.address, address.space = space
  entity_present : ∀ record ∈ observations, record.entity ∈ entities.map EntityRecord.address
  endpoints_present : ∀ record ∈ relations,
    record.subject ∈ entities.map EntityRecord.address ∧
      record.object ∈ entities.map EntityRecord.address

/-- The first successful check leaves the last address; a successful loop has
seen addresses of one space in strictly increasing order. -/
theorem validateUniqueAddresses_ok {kind : String} {values : List ObjectAddress}
    {space : SpaceId} (checked : validateUniqueAddresses kind values space = .ok ()) :
    values.Pairwise (· < ·) ∧ ∀ address ∈ values, address.space = space := by
  obtain ⟨last, run, _⟩ := bind_eq_ok.mp checked
  have reached := foldlM_prefix_induction
    (motive := fun seen last => seen.Pairwise (· < ·) ∧ (∀ address ∈ seen, address.space = space) ∧
      last = seen.getLast?)
    (by simp) ?_ run
  · exact ⟨reached.1, reached.2.1⟩
  · rintro seen value before after ⟨sorted, here, rfl⟩ step
    simp only [checkAddress, bind_eq_ok, refuseIf_eq_ok, pure_eq_ok] at step
    obtain ⟨_, sameSpace, _, above, rfl⟩ := step
    refine ⟨?_, ?_, by simp⟩
    · refine pairwise_lt_concat sorted fun last isLast => ?_
      by_contra notBelow
      exact above ⟨last, isLast, not_lt.mp notBelow⟩
    · exact forall_mem_concat here (not_not.mp sameSpace)

/-! ## The in-memory snapshot -/

def sortByAddress {R : Type} (address : R → ObjectAddress) (records : List R) : List R :=
  records.insertionSort fun left right => address left ≤ address right

def computeSnapshotHash [Blake3] (snapshotId : SnapshotId) (spaceId : SpaceId)
    (spaceVersion : SpaceVersion) (entities : List EntityRecord)
    (observations : List ObservationRecord) (relations : List RelationRecord) :
    SnapshotHash × Nat :=
  let hasher := (CanonicalHasher.new "openmemory/space-snapshot/v1").absorb
    (u16 1 ++ (idText snapshotId ++ (idText spaceId ++ (encodeSpaceVersion spaceVersion ++
      (counted encodeEntity entities ++ (counted encodeObservation observations ++
        counted encodeRelation relations))))))
  (hasher.finish .snapshot, hasher.encodedLen)

/-- The checks of `MemorySnapshot::new` on sorted records. -/
def checkRecords (spaceId : SpaceId) (entities : List EntityRecord)
    (observations : List ObservationRecord) (relations : List RelationRecord) :
    MergeResult Unit := do
  validateUniqueAddresses "entity" (entities.map EntityRecord.address) spaceId
  validateUniqueAddresses "observation" (observations.map ObservationRecord.address) spaceId
  validateUniqueAddresses "relation" (relations.map RelationRecord.address) spaceId
  let entityIds := entities.map EntityRecord.address
  refuseIf ((∃ record ∈ observations, record.entity ∉ entityIds) ∨
      ∃ record ∈ relations, record.subject ∉ entityIds ∨ record.object ∉ entityIds)
    ⟨.danglingEndpoint, "snapshot observation or relation references an absent entity"⟩

/-- What `MemorySnapshot::new` does before it computes the header: count, sort and check. -/
def arrange (spaceId : SpaceId) (entities : List EntityRecord)
    (observations : List ObservationRecord) (relations : List RelationRecord) :
    MergeResult (List EntityRecord × List ObservationRecord × List RelationRecord) := do
  validateCount "entities" entities.length
  validateCount "observations" observations.length
  validateCount "relations" relations.length
  let entities := sortByAddress EntityRecord.address entities
  let observations := sortByAddress ObservationRecord.address observations
  let relations := sortByAddress RelationRecord.address relations
  checkRecords spaceId entities observations relations
  pure (entities, observations, relations)

/-- What a successful check says: sorted addresses of one space, and no dangling endpoint. -/
theorem checkRecords_ok {spaceId : SpaceId} {entities : List EntityRecord}
    {observations : List ObservationRecord} {relations : List RelationRecord} {checked : Unit}
    (admitted : checkRecords spaceId entities observations relations = .ok checked) :
    ((entities.map EntityRecord.address).Pairwise (· < ·) ∧
        ∀ address ∈ entities.map EntityRecord.address, address.space = spaceId) ∧
      ((observations.map ObservationRecord.address).Pairwise (· < ·) ∧
        ∀ address ∈ observations.map ObservationRecord.address, address.space = spaceId) ∧
      ((relations.map RelationRecord.address).Pairwise (· < ·) ∧
        ∀ address ∈ relations.map RelationRecord.address, address.space = spaceId) ∧
      (∀ record ∈ observations, record.entity ∈ entities.map EntityRecord.address) ∧
      ∀ record ∈ relations, record.subject ∈ entities.map EntityRecord.address ∧
        record.object ∈ entities.map EntityRecord.address := by
  simp only [checkRecords, bind_eq_ok, refuseIf_eq_ok] at admitted
  obtain ⟨_, entityOrder, _, observationOrder, _, relationOrder, present⟩ := admitted
  have endpoints := not_or.mp present
  refine ⟨validateUniqueAddresses_ok entityOrder, validateUniqueAddresses_ok observationOrder,
    validateUniqueAddresses_ok relationOrder, ?_, ?_⟩
  · intro record member
    by_contra absent
    exact endpoints.1 ⟨record, member, absent⟩
  · intro record member
    by_contra absent
    exact endpoints.2 ⟨record, member, not_and_or.mp absent⟩

theorem arrange_ok {spaceId : SpaceId} {entities : List EntityRecord}
    {observations : List ObservationRecord} {relations : List RelationRecord}
    {arranged : List EntityRecord × List ObservationRecord × List RelationRecord}
    (checked : arrange spaceId entities observations relations = .ok arranged) :
    WellFormed spaceId arranged.1 arranged.2.1 arranged.2.2 := by
  simp only [arrange, validateCount, bind_eq_ok, refuseIf_eq_ok, pure_eq_ok, gt_iff_lt,
    not_lt] at checked
  obtain ⟨_, entityBound, _, observationBound, _, relationBound, _, admitted, rfl⟩ := checked
  obtain ⟨entityFacts, observationFacts, relationFacts, present, endpoints⟩ := checkRecords_ok admitted
  have length : ∀ {R : Type} (address : R → ObjectAddress) (records : List R),
      (sortByAddress address records).length = records.length :=
    fun _ records => List.length_insertionSort _ records
  exact {
    entities_bounded := (length _ entities).trans_le entityBound
    observations_bounded := (length _ observations).trans_le observationBound
    relations_bounded := (length _ relations).trans_le relationBound
    entities_sorted := entityFacts.1
    observations_sorted := observationFacts.1
    relations_sorted := relationFacts.1
    entities_here := entityFacts.2
    observations_here := observationFacts.2
    relations_here := relationFacts.2
    entity_present := present
    endpoints_present := endpoints }

/-- In-memory records with their header. -/
structure MemorySnapshot [Blake3] where
  header : SnapshotHeader
  entities : List EntityRecord
  observations : List ObservationRecord
  relations : List RelationRecord
  canonicalBytes : Nat
  formed : WellFormed header.spaceId entities observations relations
  format : header.formatVersion = 1
  entity_count : header.entityCount = entities.length
  observation_count : header.observationCount = observations.length
  relation_count : header.relationCount = relations.length
  hashed : (header.hash, canonicalBytes) = computeSnapshotHash header.snapshotId header.spaceId
    header.spaceVersion entities observations relations

namespace MemorySnapshot

variable [Blake3]

/-- `MemorySnapshot::new`. -/
def new (snapshotId : SnapshotId) (spaceId : SpaceId) (spaceVersion : SpaceVersion)
    (entities : List EntityRecord) (observations : List ObservationRecord)
    (relations : List RelationRecord) : MergeResult MemorySnapshot :=
  match checked : arrange spaceId entities observations relations with
  | .error error => .error error
  | .ok arranged =>
    let hashed := computeSnapshotHash snapshotId spaceId spaceVersion arranged.1 arranged.2.1
      arranged.2.2
    .ok {
      header := {
        formatVersion := 1
        snapshotId := snapshotId
        spaceId := spaceId
        spaceVersion := spaceVersion
        entityCount := arranged.1.length
        observationCount := arranged.2.1.length
        relationCount := arranged.2.2.length
        hash := hashed.1 }
      entities := arranged.1
      observations := arranged.2.1
      relations := arranged.2.2
      canonicalBytes := hashed.2
      formed := arrange_ok checked
      format := rfl
      entity_count := rfl
      observation_count := rfl
      relation_count := rfl
      hashed := rfl }

theorem new_of_arrange {snapshotId : SnapshotId} {spaceId : SpaceId}
    {spaceVersion : SpaceVersion} {entities : List EntityRecord}
    {observations : List ObservationRecord} {relations : List RelationRecord}
    {arranged : List EntityRecord × List ObservationRecord × List RelationRecord}
    (checked : arrange spaceId entities observations relations = .ok arranged) :
    ∃ snapshot, new snapshotId spaceId spaceVersion entities observations relations =
        .ok snapshot ∧ snapshot.header.snapshotId = snapshotId ∧
      snapshot.header.spaceId = spaceId ∧ snapshot.entities = arranged.1 ∧
      snapshot.observations = arranged.2.1 ∧ snapshot.relations = arranged.2.2 := by
  unfold new
  split
  · rename_i failed
    rw [checked] at failed
    cases failed
  · rename_i passed
    rw [checked] at passed
    cases passed
    exact ⟨_, rfl, rfl, rfl, rfl, rfl, rfl⟩

/-- The snapshot as a source: its streams never fail by themselves. -/
def toSource (snapshot : MemorySnapshot) : SnapshotSource where
  header := snapshot.header
  entities := ⟨snapshot.entities, none⟩
  observations := ⟨snapshot.observations, none⟩
  relations := ⟨snapshot.relations, none⟩

end MemorySnapshot

/-! ## The order of the input -/

section Order

variable {R : Type} {address : R → ObjectAddress}

theorem sortByAddress_perm (address : R → ObjectAddress) (records : List R) :
    (sortByAddress address records).Perm records :=
  List.perm_insertionSort _ records

theorem sortByAddress_sorted (address : R → ObjectAddress) (records : List R) :
    ((sortByAddress address records).map address).Pairwise (· ≤ ·) := by
  have total : Std.Total (fun left right : R => address left ≤ address right) :=
    ⟨fun left right => le_total _ _⟩
  have trans : IsTrans R (fun left right => address left ≤ address right) :=
    ⟨fun _ _ _ => le_trans⟩
  rw [List.pairwise_map]
  exact List.pairwise_insertionSort _ records

theorem sortByAddress_strict {records : List R} (distinct : (records.map address).Nodup) :
    ((sortByAddress address records).map address).Pairwise (· < ·) := by
  have apart : ((sortByAddress address records).map address).Nodup :=
    (((sortByAddress_perm address records).map address).nodup_iff).mpr distinct
  exact ((sortByAddress_sorted address records).and apart).imp fun both =>
    lt_of_le_of_ne both.1 both.2

/-- The sorted addresses depend on which records there are, not on their order. -/
theorem sortByAddress_addresses {left right : List R} (perm : left.Perm right) :
    (sortByAddress address left).map address = (sortByAddress address right).map address := by
  refine List.Perm.eq_of_pairwise' (r := (· ≤ ·)) (sortByAddress_sorted address left)
    (sortByAddress_sorted address right) ?_
  exact (((sortByAddress_perm address left).trans perm).trans
    (sortByAddress_perm address right).symm).map address

/-- Records at distinct addresses are sorted in one way only. -/
theorem sortByAddress_eq {left right : List R} (perm : left.Perm right)
    (strict : ((sortByAddress address left).map address).Pairwise (· < ·)) :
    sortByAddress address left = sortByAddress address right := by
  have strictRight := @sortByAddress_addresses _ address _ _ perm ▸ strict
  rw [List.pairwise_map] at strict strictRight
  refine List.Perm.eq_of_pairwise ?_ strict strictRight
    (((sortByAddress_perm address left).trans perm).trans (sortByAddress_perm address right).symm)
  intro _ _ _ _ below above
  exact absurd (below.trans above) (lt_irrefl _)

end Order

section Permutation

variable {spaceId : SpaceId} {entities entities' : List EntityRecord}
  {observations observations' : List ObservationRecord}
  {relations relations' : List RelationRecord}

/-- The checks see the same addresses and the same records. -/
theorem checkRecords_perm (entityPerm : entities.Perm entities')
    (observationPerm : observations.Perm observations') (relationPerm : relations.Perm relations') :
    checkRecords spaceId (sortByAddress EntityRecord.address entities)
        (sortByAddress ObservationRecord.address observations)
        (sortByAddress RelationRecord.address relations) =
      checkRecords spaceId (sortByAddress EntityRecord.address entities')
        (sortByAddress ObservationRecord.address observations')
        (sortByAddress RelationRecord.address relations') := by
  have members : ∀ {R : Type} {address : R → ObjectAddress} {left right : List R},
      left.Perm right → ∀ record : R,
        record ∈ sortByAddress address left ↔ record ∈ sortByAddress address right := by
    intro R address left right perm record
    rw [(sortByAddress_perm address left).mem_iff, (sortByAddress_perm address right).mem_iff,
      perm.mem_iff]
  simp only [checkRecords, sortByAddress_addresses entityPerm, sortByAddress_addresses observationPerm,
    sortByAddress_addresses relationPerm, members observationPerm, members relationPerm]

theorem arrange_perm (entityPerm : entities.Perm entities')
    (observationPerm : observations.Perm observations') (relationPerm : relations.Perm relations') :
    arrange spaceId entities observations relations =
      arrange spaceId entities' observations' relations' := by
  simp only [arrange, entityPerm.length_eq, observationPerm.length_eq, relationPerm.length_eq,
    checkRecords_perm entityPerm observationPerm relationPerm]
  refine bind_congr_of_ok fun _ _ => bind_congr_of_ok fun _ _ => bind_congr_of_ok fun _ _ =>
    bind_congr_of_ok fun _ admitted => ?_
  rw [← checkRecords_perm entityPerm observationPerm relationPerm] at admitted
  have formed := checkRecords_ok admitted
  rw [sortByAddress_eq entityPerm formed.1.1, sortByAddress_eq observationPerm formed.2.1.1,
    sortByAddress_eq relationPerm formed.2.2.1.1]

/-- **The constructor does not see the order of its records**: it yields the same
snapshot or the same error. -/
theorem MemorySnapshot.new_perm [Blake3] (snapshotId : SnapshotId) (spaceVersion : SpaceVersion)
    (entityPerm : entities.Perm entities') (observationPerm : observations.Perm observations')
    (relationPerm : relations.Perm relations') :
    MemorySnapshot.new snapshotId spaceId spaceVersion entities observations relations =
      MemorySnapshot.new snapshotId spaceId spaceVersion entities' observations' relations' := by
  have arranged := @arrange_perm spaceId _ _ _ _ _ _ entityPerm observationPerm relationPerm
  unfold MemorySnapshot.new
  split
  · rename_i error failed
    rw [arranged] at failed
    split
    · rename_i failed'
      rw [failed] at failed'
      cases failed'
      rfl
    · rename_i passed
      rw [failed] at passed
      cases passed
  · rename_i passed
    rw [arranged] at passed
    split
    · rename_i failed
      rw [passed] at failed
      cases failed
    · rename_i passed'
      rw [passed] at passed'
      cases passed'
      rfl

end Permutation

end OpenMemory.Merge
