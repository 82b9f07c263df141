import OpenMemory.Foundation.Sorting
import OpenMemory.Merge.Planner.ActionStream
import OpenMemory.Merge.Planner.Dispositions
import OpenMemory.Merge.Planner.Verifier

/-!
# The six record visitors

The planner reads the target and the source entities, then the observations,
then the relations. Each visitor takes one record, checks it, updates its own
indexes and the counts, and yields exactly one action. None of them looks at
the sink: the action is emitted by the loop around the visitor.

Target records are kept. A source entity follows its planned disposition. A
source observation or relation is rewired to the results of its entities, and
then joins the first result with the same content or becomes a new one.
-/

namespace OpenMemory.Merge

open Foundation Canonical

/-! ## Index keys -/

section Keys

/-- What an observation is deduplicated by. -/
abbrev ObservationKey := ResultObjectId × Lifecycle × String

/-- What a relation is deduplicated by. -/
abbrev RelationKey := ResultObjectId × String × ResultObjectId × Lifecycle

def observationKeyBytes (key : ObservationKey) : Bytes :=
  ((CanonicalHasher.new "openmemory/observation-index-key/v1").absorb
    (encodeResultId key.1 ++ (u16 key.2.1.toNat ++ text key.2.2))).absorbed

def relationKeyBytes (key : RelationKey) : Bytes :=
  ((CanonicalHasher.new "openmemory/relation-index-key/v1").absorb
    (encodeResultId key.1 ++ (text key.2.1 ++ (encodeResultId key.2.2.1 ++
      u16 key.2.2.2.toNat)))).absorbed

variable [Blake3]

def observationKey (key : ObservationKey) : SemanticHash := ⟨Blake3.hash (observationKeyBytes key)⟩

def relationKey (key : RelationKey) : SemanticHash := ⟨Blake3.hash (relationKeyBytes key)⟩

def qualifiedCollisionKey (value : QualifiedObjectId) : SemanticHash :=
  ((CanonicalHasher.new "openmemory/qualified-id-collision-key/v1").absorb
    (text value.value)).finish .semantic

/-- The identifier an imported object gets. -/
def qualify (address : ObjectAddress) : QualifiedObjectId :=
  QualifiedObjectId.derive address.space address.logicalId

end Keys

/-- One step of a visit: new locals, new counts and the action for the record. -/
abbrev Visitor (L R : Type) := L → ActionCounts → R → MergeResult (L × ActionCounts × MergeAction)

/-! ## Entities -/

structure TargetEntities where
  verifier : SnapshotVerifier
  revisions : OrderedMap LogicalId RevisionId
  ids : Finset String

def visitTargetEntity : Visitor TargetEntities EntityRecord := fun locals counts record => do
  let verifier ← locals.verifier.entity record
  refuseIf ((locals.revisions[record.address.logicalId]?).isSome = true)
    ⟨.duplicateInput, "target entity is duplicated"⟩
  pure ({
      verifier := verifier
      revisions := locals.revisions.insert record.address.logicalId record.revision
      ids := insert record.address.logicalId.value locals.ids },
    { counts with targetEntities := counts.targetEntities + 1 },
    .keepTargetEntity record)

/-- The result object a disposition makes the source entity part of. -/
def EntityDisposition.resultId : EntityDisposition → ResultObjectId
  | .coalesce _ target _ => .target target.logicalId
  | .addDistinct _ result _ _ => .qualified result

structure SourceEntities (planned : List PlannedEntity) where
  verifier : SnapshotVerifier
  results : OrderedMap LogicalId ResultObjectId
  qualified : Finset SemanticHash
  seen : Finset (Fin planned.length)
  seenCount : Nat

section Entities

variable [Blake3]

/-- The planned disposition of one source entity, checked against the target entities. -/
def settleEntity (targets : TargetEntities) (targetHeader : SnapshotHeader)
    (qualified : Finset SemanticHash) (counts : ActionCounts) (record : EntityRecord)
    (disposition : PlannedDisposition) :
    MergeResult (EntityDisposition × Finset SemanticHash × ActionCounts) :=
  match disposition with
  | .coalesce target receipt => do
      let targetRevision ← orRefuse targets.revisions[target.address.logicalId]?
        ⟨.staleReceipt, "coalescence target is absent"⟩
      refuseIf (targetRevision ≠ target.revision ∨ target.snapshot ≠ targetHeader.snapshotId)
        ⟨.staleReceipt, "coalescence target moved after review"⟩
      pure (.coalesce record.address target.address receipt, qualified,
        { counts with coalescedEntities := counts.coalescedEntities + 1 })
  | .add reason receipt => do
      let result := qualify record.address
      refuseIf (result.value ∈ targets.ids ∨ qualifiedCollisionKey result ∈ qualified)
        ⟨.qualifiedIdCollision, "derived entity ID already exists in the target result"⟩
      pure (.addDistinct record.address result reason receipt,
        insert (qualifiedCollisionKey result) qualified,
        { counts with addedEntities := counts.addedEntities + 1 })

def visitSourceEntity (planned : List PlannedEntity) (targets : TargetEntities)
    (targetHeader sourceHeader : SnapshotHeader) :
    Visitor (SourceEntities planned) EntityRecord := fun locals counts record => do
  let verifier ← locals.verifier.entity record
  let index ← orRefuse
    (binarySearchBy planned fun candidate =>
      compare candidate.logicalId record.address.logicalId).toOption
    ⟨.discoveryIncomplete, "source entity has no discovery receipt"⟩
  let expected := planned[index]
  refuseIf (expected.revision ≠ record.revision ∨ expected.snapshot ≠ sourceHeader.snapshotId)
    ⟨.staleReceipt, "source entity moved after discovery"⟩
  refuseIf (index ∈ locals.seen)
    ⟨.duplicateInput, "source entity consumes one discovery more than once"⟩
  let (disposition, qualified, counts) ←
    settleEntity targets targetHeader locals.qualified counts record expected.disposition
  pure ({
      verifier := verifier
      results := locals.results.insert record.address.logicalId disposition.resultId
      qualified := qualified
      seen := insert index locals.seen
      seenCount := locals.seenCount + 1 },
    { counts with sourceEntities := counts.sourceEntities + 1 },
    .applyEntityDisposition record disposition)

end Entities

/-! ## Observations -/

structure TargetObservations where
  verifier : SnapshotVerifier
  index : OrderedMap SemanticHash ResultObjectId
  ids : Finset String

structure SourceObservations where
  verifier : SnapshotVerifier
  index : OrderedMap SemanticHash ResultObjectId
  qualified : Finset SemanticHash

section Observations

variable [Blake3]

def visitTargetObservation (targets : TargetEntities) :
    Visitor TargetObservations ObservationRecord := fun locals counts record => do
  let verifier ← locals.verifier.observation record
  refuseIf (targets.revisions[record.entity.logicalId]? = none)
    ⟨.danglingEndpoint, "target observation entity is absent"⟩
  let result := ResultObjectId.target record.address.logicalId
  let resultEntity := ResultObjectId.target record.entity.logicalId
  refuseIf (result.asStr ∈ locals.ids)
    ⟨.duplicateInput, "target observation projection is duplicated"⟩
  pure ({
      verifier := verifier
      index := locals.index.insertIfNew
        (observationKey (resultEntity, record.lifecycle, record.content)) result
      ids := insert result.asStr locals.ids },
    { counts with targetObservations := counts.targetObservations + 1 },
    .keepTargetObservation record resultEntity)

def visitSourceObservation (results : OrderedMap LogicalId ResultObjectId) (ids : Finset String) :
    Visitor SourceObservations ObservationRecord := fun locals counts record => do
  let verifier ← locals.verifier.observation record
  let resultEntity ← orRefuse results[record.entity.logicalId]?
    ⟨.danglingEndpoint, "source observation entity has no disposition"⟩
  let key := observationKey (resultEntity, record.lifecycle, record.content)
  match locals.index[key]? with
  | some targetResult =>
    pure ({ locals with verifier := verifier },
      { counts with
        mergedObservations := counts.mergedObservations + 1
        sourceObservations := counts.sourceObservations + 1 },
      .mergeObservationOrigin record targetResult resultEntity)
  | none => do
      let result := qualify record.address
      refuseIf (result.value ∈ ids ∨ qualifiedCollisionKey result ∈ locals.qualified)
        ⟨.qualifiedIdCollision, "derived observation ID already exists"⟩
      pure ({
          verifier := verifier
          index := locals.index.insert key (.qualified result)
          qualified := insert (qualifiedCollisionKey result) locals.qualified },
        { counts with
          addedObservations := counts.addedObservations + 1
          sourceObservations := counts.sourceObservations + 1 },
        .addObservation record result resultEntity)

end Observations

/-! ## Relations -/

structure TargetRelations where
  verifier : SnapshotVerifier
  index : OrderedMap SemanticHash ResultObjectId
  ids : Finset String

structure SourceRelations where
  verifier : SnapshotVerifier
  index : OrderedMap SemanticHash ResultObjectId
  qualified : Finset SemanticHash

section Relations

variable [Blake3]

def visitTargetRelation (targets : TargetEntities) :
    Visitor TargetRelations RelationRecord := fun locals counts record => do
  let verifier ← locals.verifier.relation record
  refuseIf (targets.revisions[record.subject.logicalId]? = none ∨
      targets.revisions[record.object.logicalId]? = none)
    ⟨.danglingEndpoint, "target relation endpoint is absent"⟩
  let resultSubject := ResultObjectId.target record.subject.logicalId
  let resultObject := ResultObjectId.target record.object.logicalId
  let key := relationKey (resultSubject, record.predicate, resultObject, record.lifecycle)
  let result := ResultObjectId.target record.address.logicalId
  refuseIf ((locals.index[key]?).isSome = true ∨ result.asStr ∈ locals.ids)
    ⟨.duplicateInput, "target relation assertion is duplicated"⟩
  pure ({
      verifier := verifier
      index := locals.index.insert key result
      ids := insert result.asStr locals.ids },
    { counts with targetRelations := counts.targetRelations + 1 },
    .keepTargetRelation record resultSubject resultObject)

def visitSourceRelation (results : OrderedMap LogicalId ResultObjectId) (ids : Finset String)
    (policy : MergePolicy) : Visitor SourceRelations RelationRecord :=
  fun locals counts record => do
    let verifier ← locals.verifier.relation record
    let resultSubject ← orRefuse results[record.subject.logicalId]?
      ⟨.danglingEndpoint, "source relation subject has no disposition"⟩
    let resultObject ← orRefuse results[record.object.logicalId]?
      ⟨.danglingEndpoint, "source relation object has no disposition"⟩
    refuseIf (resultSubject = resultObject ∧ policy.allowsSelfLoop record.predicate = false)
      ⟨.threeWayConflict, "coalescence creates a self-loop without explicit predicate policy"⟩
    let key := relationKey (resultSubject, record.predicate, resultObject, record.lifecycle)
    match locals.index[key]? with
    | some targetResult =>
      pure ({ locals with verifier := verifier },
        { counts with
          mergedRelations := counts.mergedRelations + 1
          sourceRelations := counts.sourceRelations + 1 },
        .mergeRelationOrigin record targetResult resultSubject resultObject)
    | none => do
        let result := qualify record.address
        refuseIf (result.value ∈ ids ∨ qualifiedCollisionKey result ∈ locals.qualified)
          ⟨.qualifiedIdCollision, "derived relation ID already exists"⟩
        pure ({
            verifier := verifier
            index := locals.index.insert key (.qualified result)
            qualified := insert (qualifiedCollisionKey result) locals.qualified },
          { counts with
            addedRelations := counts.addedRelations + 1
            sourceRelations := counts.sourceRelations + 1 },
          .addRelation record result resultSubject resultObject)

end Relations

end OpenMemory.Merge
