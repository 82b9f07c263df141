import OpenMemory.Merge.Planner.Results

/-!
# The materialized reference

The test suite plans a merge a second time, from whole snapshots and with maps
under the keys themselves (`referenceActions`), and accounts for it by building
the origin set of every result object (`materialize`). Where the reference would
panic, because a map lacks an entry it indexes, the functions here yield `none`.

Maps are filled by plain insertion, so of several entries with one key the last
one stays.
-/

namespace OpenMemory.Merge

open Foundation

/-! ## Maps of the last entry -/

/-- `collect::<BTreeMap<_, _>>()`. -/
def lastByKey {κ α : Type} [LinearOrder κ] (entries : List (κ × α)) : OrderedMap κ α :=
  entries.foldl (fun map entry => map.insert entry.1 entry.2) ∅

theorem indexes_lastByKey {κ α : Type} [LinearOrder κ] [BEq κ] [LawfulBEq κ] (entries : List (κ × α)) :
    Indexes (lastByKey entries) entries.reverse := by
  induction entries using List.reverseRecOn with
  | nil => exact Indexes.empty
  | append_singleton entries entry ih =>
    rw [lastByKey, List.foldl_append, List.reverse_append]
    exact ih.insert

/-! ## Actions -/

/-- The key of an observation, in the order of its components. -/
def observationOrder (key : ObservationKey) : ResultObjectId ×ₗ (Lifecycle ×ₗ String) :=
  toLex (key.1, toLex key.2)

/-- The key of a relation, in the order of its components. -/
def relationOrder (key : RelationKey) :
    ResultObjectId ×ₗ (String ×ₗ (ResultObjectId ×ₗ Lifecycle)) :=
  toLex (key.1, toLex (key.2.1, toLex key.2.2))

/-- What a loop of the reference carries: its map, and the actions so far. -/
structure ReferenceProgress (κ α : Type) [LinearOrder κ] where
  map : OrderedMap κ α
  actions : List MergeAction

section Actions

variable [Blake3]

/-- The disposition of a source entity and the result it becomes. -/
def referenceDisposition (receipts : PlanningReceipts) (record : EntityRecord) :
    Option (EntityDisposition × ResultObjectId) :=
  let sameBySource := lastByKey ((receipts.resolutions.filter fun receipt =>
    receipt.decision = .same).map fun receipt => (receipt.source.address.logicalId, receipt))
  let discoveryBySource := lastByKey (receipts.discoveries.map fun receipt =>
    (receipt.source.address.logicalId, receipt))
  let keepBySource := lastByKey (receipts.keepDistinct.map fun receipt =>
    (receipt.source.address.logicalId, receipt))
  let sourceId := record.address.logicalId
  match sameBySource[sourceId]? with
  | some receipt =>
    some (.coalesce record.address receipt.target.address receipt.hash,
      .target receipt.target.address.logicalId)
  | none => do
      let discovery ← discoveryBySource[sourceId]?
      let (reason, receipt) := match keepBySource[sourceId]? with
        | some keep => (DistinctReason.keepDistinct, some keep.hash)
        | none =>
          if discovery.candidates.isEmpty = true then (.noCandidate, none)
          else (.reviewedDifferent, none)
      let qualified := qualify record.address
      pure (.addDistinct record.address qualified reason receipt, .qualified qualified)

def referenceEntity (receipts : PlanningReceipts)
    (progress : ReferenceProgress LogicalId ResultObjectId) (record : EntityRecord) :
    Option (ReferenceProgress LogicalId ResultObjectId) := do
  let (disposition, result) ← referenceDisposition receipts record
  pure ⟨progress.map.insert record.address.logicalId result,
    progress.actions ++ [.applyEntityDisposition record disposition]⟩

/-- The body of the loops over source observations and over source relations. -/
def referenceLand {R K κ : Type} [LinearOrder κ] (address : R → ObjectAddress) (order : K → κ)
    (key : R → Option K) (action : Landing R K → MergeAction)
    (progress : ReferenceProgress κ ResultObjectId) (record : R) :
    Option (ReferenceProgress κ ResultObjectId) := do
  let key ← key record
  match progress.map[order key]? with
  | some target =>
    pure { progress with actions := progress.actions ++ [action ⟨record, key, some target⟩] }
  | none =>
    pure ⟨progress.map.insert (order key) (.qualified (qualify (address record))),
      progress.actions ++ [action ⟨record, key, none⟩]⟩

def referenceObservation (results : OrderedMap LogicalId ResultObjectId) :=
  referenceLand ObservationRecord.address observationOrder (fun record => do
    let resultEntity ← results[record.entity.logicalId]?
    pure (resultEntity, record.lifecycle, record.content)) observationAction

def referenceRelation (results : OrderedMap LogicalId ResultObjectId) :=
  referenceLand RelationRecord.address relationOrder (fun record => do
    let resultSubject ← results[record.subject.logicalId]?
    let resultObject ← results[record.object.logicalId]?
    pure (resultSubject, record.predicate, resultObject, record.lifecycle)) relationAction

def referenceActions (target source : MemorySnapshot) (receipts : PlanningReceipts) :
    Option (List MergeAction) := do
  let entities ← source.entities.foldlM (referenceEntity receipts)
    ⟨∅, target.entities.map .keepTargetEntity⟩
  let observations ← source.observations.foldlM (referenceObservation entities.map)
    ⟨lastByKey (target.observations.map fun record =>
        (observationOrder (heldObservation record).1, (heldObservation record).2)),
      entities.actions ++ target.observations.map keepObservation⟩
  let relations ← source.relations.foldlM (referenceRelation entities.map)
    ⟨lastByKey (target.relations.map fun record =>
        (relationOrder (heldRelation record).1, (heldRelation record).2)),
      observations.actions ++ target.relations.map keepRelation⟩
  pure relations.actions

end Actions

/-! ## Counts -/

/-- The body of the loop of `reference_action_counts`. -/
def referenceCount (counts : ActionCounts) : MergeAction → ActionCounts
  | .keepTargetEntity .. => { counts with targetEntities := counts.targetEntities + 1 }
  | .applyEntityDisposition _ (.coalesce ..) => { counts with
      sourceEntities := counts.sourceEntities + 1
      coalescedEntities := counts.coalescedEntities + 1 }
  | .applyEntityDisposition _ (.addDistinct ..) => { counts with
      sourceEntities := counts.sourceEntities + 1
      addedEntities := counts.addedEntities + 1 }
  | .keepTargetObservation .. =>
    { counts with targetObservations := counts.targetObservations + 1 }
  | .addObservation .. => { counts with
      sourceObservations := counts.sourceObservations + 1
      addedObservations := counts.addedObservations + 1 }
  | .mergeObservationOrigin .. => { counts with
      sourceObservations := counts.sourceObservations + 1
      mergedObservations := counts.mergedObservations + 1 }
  | .keepTargetRelation .. => { counts with targetRelations := counts.targetRelations + 1 }
  | .addRelation .. => { counts with
      sourceRelations := counts.sourceRelations + 1
      addedRelations := counts.addedRelations + 1 }
  | .mergeRelationOrigin .. => { counts with
      sourceRelations := counts.sourceRelations + 1
      mergedRelations := counts.mergedRelations + 1 }

def referenceActionCounts (actions : List MergeAction) : ActionCounts :=
  actions.foldl referenceCount {}

/-- The reference counts as the planner does. -/
theorem referenceActionCounts_eq (actions : List MergeAction) :
    referenceActionCounts actions = actions.foldl countAction {} := by
  have same : referenceCount = countAction := by
    funext counts action
    cases action with
    | applyEntityDisposition source disposition => cases disposition <;> rfl
    | _ => rfl
  rw [referenceActionCounts, same]

/-! ## Origins -/

/-- The origins of every result object, under the names of the objects. -/
structure OriginMaps where
  entities : OrderedMap String (Finset OriginContribution)
  observations : OrderedMap String (Finset OriginContribution)
  relations : OrderedMap String (Finset OriginContribution)

/-- `get_mut(name).unwrap().extend(origins)`. -/
def extendAt (map : OrderedMap String (Finset OriginContribution)) (name : String)
    (origins : Finset OriginContribution) :
    Option (OrderedMap String (Finset OriginContribution)) :=
  map[name]?.map fun known => map.insert name (known ∪ origins)

/-- The body of the loop of `reference_accounting`. -/
def materializeAction (maps : OriginMaps) : MergeAction → Option OriginMaps
  | .keepTargetEntity target => some { maps with
      entities := maps.entities.insert target.address.logicalId.value target.origins }
  | .applyEntityDisposition source (.coalesce _ target _) =>
    (extendAt maps.entities target.logicalId.value source.origins).map fun entities =>
      { maps with entities := entities }
  | .applyEntityDisposition source (.addDistinct _ result _ _) => some { maps with
      entities := maps.entities.insert result.value source.origins }
  | .keepTargetObservation target _ => some { maps with
      observations := maps.observations.insert target.address.logicalId.value target.origins }
  | .addObservation source result _ => some { maps with
      observations := maps.observations.insert result.value source.origins }
  | .mergeObservationOrigin source target _ =>
    (extendAt maps.observations target.asStr source.origins).map fun observations =>
      { maps with observations := observations }
  | .keepTargetRelation target _ _ => some { maps with
      relations := maps.relations.insert target.address.logicalId.value target.origins }
  | .addRelation source result _ _ => some { maps with
      relations := maps.relations.insert result.value source.origins }
  | .mergeRelationOrigin source target _ _ =>
    (extendAt maps.relations target.asStr source.origins).map fun relations =>
      { maps with relations := relations }

def materialize (actions : List MergeAction) : Option OriginMaps :=
  actions.foldlM materializeAction ⟨∅, ∅, ∅⟩

/-- The sizes of all origin sets of a map, added up. -/
def totalOrigins (map : OrderedMap String (Finset OriginContribution)) : Nat :=
  (map.toList.map fun entry => entry.2.card).sum

def referenceAccounting (actions : List MergeAction) (receipts : PlanningReceipts) :
    Option MergeAccounting := do
  let counts := referenceActionCounts actions
  let maps ← materialize actions
  pure {
    consumedCandidates :=
      (receipts.discoveries.map fun receipt => receipt.candidates.length).sum
    consumedDiscoveries := receipts.discoveries.length
    consumedResolutions := receipts.resolutions.length
    consumedKeepDistinct := receipts.keepDistinct.length
    resultEntities := counts.targetEntities + counts.addedEntities
    resultObservations := counts.targetObservations + counts.addedObservations
    resultRelations := counts.targetRelations + counts.addedRelations
    retainedOrigins := totalOrigins maps.entities + totalOrigins maps.observations +
      totalOrigins maps.relations }

end OpenMemory.Merge
