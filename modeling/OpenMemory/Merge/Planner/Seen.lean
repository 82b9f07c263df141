import OpenMemory.Merge.Planner.Landing
import OpenMemory.Merge.Planner.Visits

/-!
# What each visit has seen

Each of the six visits has one description of its progress: the actions so far,
the records they came from, and what the locals hold about those records. Which
plan a source entity followed is a `Settlement`; where a source observation or
relation went is a `Landing`. The descriptions are proved by induction over the
records, one step lemma for each visitor.
-/

namespace OpenMemory.Merge

open Foundation

/-! ## Target entities -/

structure TargetEntitiesSeen (header : SnapshotHeader) (seen : List EntityRecord)
    (progress : Progress TargetEntities) : Prop where
  actions : progress.actions = seen.map .keepTargetEntity
  follows : progress.locals.verifier.Follows header (seen.map EntityRecord.address)
  revisions : ∀ id revision, progress.locals.revisions[id]? = some revision ↔
    ∃ record ∈ seen, record.address.logicalId = id ∧ record.revision = revision
  ids : progress.locals.ids = heldIds (seen.map EntityRecord.address)

variable {counts : ActionCounts} {header targetHeader : SnapshotHeader}
  {records : List EntityRecord} {verifier : SnapshotVerifier} {planned : List PlannedEntity}
  {targets : TargetEntities}

theorem targetEntities_seen {final : Progress TargetEntities} (follows : verifier.Follows header [])
    (run : records.foldlM (advance visitTargetEntity) ⟨⟨verifier, ∅, ∅⟩, counts, []⟩ =
      .ok final) : TargetEntitiesSeen header records final := by
  refine foldlM_prefix_induction (motive := TargetEntitiesSeen header) ?_ ?_ run
  · exact ⟨rfl, follows, by simp, rfl⟩
  · intro seen record before after soFar step
    obtain ⟨action, step, actions⟩ := advance_ok.mp step
    simp only [visitTargetEntity, bind_eq_ok, refuseIf_eq_ok, pure_eq_ok, Prod.mk.injEq,
      Bool.not_eq_true, Option.isSome_eq_false_iff, Option.isNone_iff_eq_none] at step
    obtain ⟨verified, accepted, _, fresh, locals, _, rfl⟩ := step
    refine ⟨?_, ?_, ?_, ?_⟩
    · rw [actions, soFar.actions, List.map_append]
      rfl
    · rw [← locals, List.map_append]
      exact SnapshotVerifier.entity_follows soFar.follows accepted
    · rw [← locals]
      exact finds_insert soFar.revisions fresh
    · rw [← locals, List.map_append, List.map_singleton, heldIds_concat, ← soFar.ids]

/-! ## Source entities -/

/-- A source entity, the plan it followed and the disposition it got. -/
structure Settlement where
  record : EntityRecord
  planned : PlannedEntity
  disposition : EntityDisposition

def Settlement.action (settlement : Settlement) : MergeAction :=
  .applyEntityDisposition settlement.record settlement.disposition

section Settlements

variable [Blake3]

/-- How a planned disposition turns out: a coalescence target is a current target
entity, and an added entity gets its qualified identifier. -/
inductive Settles (targets : List EntityRecord) (targetHeader : SnapshotHeader)
    (source : EntityAddress) : PlannedDisposition → EntityDisposition → Prop
  | coalesce (target : EntityRevisionRef) (receipt : ReceiptHash) (record : EntityRecord)
      (member : record ∈ targets)
      (sameId : record.address.logicalId = target.address.logicalId)
      (sameRevision : record.revision = target.revision)
      (sameSnapshot : target.snapshot = targetHeader.snapshotId) :
      Settles targets targetHeader source (.coalesce target receipt)
        (.coalesce source target.address receipt)
  | add (reason : DistinctReason) (receipt : Option ReceiptHash) :
      Settles targets targetHeader source (.add reason receipt)
        (.addDistinct source (qualify source) reason receipt)

/-- The plan is for this entity at this revision, and turned out as it says. -/
structure Settlement.Valid (targets : List EntityRecord) (targetHeader sourceHeader : SnapshotHeader)
    (settlement : Settlement) : Prop where
  logicalId : settlement.planned.logicalId = settlement.record.address.logicalId
  revision : settlement.planned.revision = settlement.record.revision
  snapshot : settlement.planned.snapshot = sourceHeader.snapshotId
  settles : Settles targets targetHeader settlement.record.address
    settlement.planned.disposition settlement.disposition

/-- The identifier an entity is added under. -/
def EntityDisposition.added : EntityDisposition → Option QualifiedObjectId
  | .coalesce .. => none
  | .addDistinct _ result _ _ => some result

/-- The identifiers handed out to added entities. -/
def addedEntityIds (settlements : List Settlement) : List QualifiedObjectId :=
  settlements.filterMap fun settlement => settlement.disposition.added

structure SourceEntitiesSeen (planned : List PlannedEntity) (targets : List EntityRecord)
    (ids : Finset String) (targetHeader sourceHeader : SnapshotHeader) (seen : List EntityRecord)
    (progress : Progress (SourceEntities planned)) (settlements : List Settlement)
    (indices : List (Fin planned.length)) : Prop where
  records : settlements.map Settlement.record = seen
  actions : progress.actions = settlements.map Settlement.action
  valid : ∀ settlement ∈ settlements, settlement.Valid targets targetHeader sourceHeader
  follows : progress.locals.verifier.Follows sourceHeader (seen.map EntityRecord.address)
  results : ∀ id result, progress.locals.results[id]? = some result ↔
    ∃ settlement ∈ settlements, settlement.record.address.logicalId = id ∧
      settlement.disposition.resultId = result
  qualified : ∀ result ∈ addedEntityIds settlements,
    qualifiedCollisionKey result ∈ progress.locals.qualified
  added_distinct : (addedEntityIds settlements).Nodup
  added_fresh : ∀ result ∈ addedEntityIds settlements, result.value ∉ ids
  plans : settlements.map Settlement.planned = indices.map planned.get
  indices_distinct : indices.Nodup
  seen : ∀ index, index ∈ progress.locals.seen ↔ index ∈ indices
  seenCount : progress.locals.seenCount = indices.length

/-- What one successful settlement yields. -/
theorem settleEntity_ok {qualified after : Finset SemanticHash}
    {counts' : ActionCounts} {record : EntityRecord} {planned : PlannedDisposition}
    {disposition : EntityDisposition}
    (revisions : ∀ id revision, targets.revisions[id]? = some revision ↔
      ∃ record ∈ records, record.address.logicalId = id ∧ record.revision = revision)
    (settled : settleEntity targets targetHeader qualified counts record planned =
      .ok (disposition, after, counts')) :
    Settles records targetHeader record.address planned disposition ∧
      match disposition.added with
      | none => after = qualified
      | some result => result.value ∉ targets.ids ∧ qualifiedCollisionKey result ∉ qualified ∧
          after = insert (qualifiedCollisionKey result) qualified := by
  cases planned with
  | coalesce target receipt =>
    simp only [settleEntity, bind_eq_ok, orRefuse_eq_ok, refuseIf_eq_ok, pure_eq_ok,
      Prod.mk.injEq, not_or, not_not] at settled
    obtain ⟨revision, found, _, ⟨sameRevision, sameSnapshot⟩, rfl, rfl, _⟩ := settled
    obtain ⟨other, member, sameId, itsRevision⟩ := (revisions _ _).mp found
    exact ⟨.coalesce target receipt other member sameId (itsRevision.trans sameRevision)
      sameSnapshot, rfl⟩
  | add reason receipt =>
    simp only [settleEntity, bind_eq_ok, refuseIf_eq_ok, pure_eq_ok, Prod.mk.injEq,
      not_or] at settled
    obtain ⟨_, ⟨notHeld, notAdded⟩, rfl, rfl, _⟩ := settled
    exact ⟨.add reason receipt, notHeld, notAdded, rfl⟩

theorem sourceEntities_step {seen : List EntityRecord} {sourceHeader : SnapshotHeader}
    {record : EntityRecord} {before after : Progress (SourceEntities planned)}
    {settlements : List Settlement} {indices : List (Fin planned.length)}
    (revisions : ∀ id revision, targets.revisions[id]? = some revision ↔
      ∃ record ∈ records, record.address.logicalId = id ∧ record.revision = revision)
    (soFar : SourceEntitiesSeen planned records targets.ids targetHeader sourceHeader seen before
      settlements indices)
    (step : advance (visitSourceEntity planned targets targetHeader sourceHeader) before record =
      .ok after) :
    ∃ settlement index, SourceEntitiesSeen planned records targets.ids targetHeader sourceHeader
      (seen ++ [record]) after (settlements ++ [settlement]) (indices ++ [index]) := by
  obtain ⟨action, step, actions⟩ := advance_ok.mp step
  simp only [visitSourceEntity, bind_eq_ok, orRefuse_eq_ok, refuseIf_eq_ok, pure_eq_ok,
    Prod.mk.injEq, not_or, not_not] at step
  obtain ⟨verified, accepted, index, searched, _, ⟨sameRevision, sameSnapshot⟩, _, unseen,
    ⟨disposition, qualified, counts⟩, settled, locals, _, rfl⟩ := step
  obtain ⟨settles, additions⟩ := settleEntity_ok revisions settled
  have found : binarySearchBy planned (fun candidate =>
      compare candidate.logicalId record.address.logicalId) = .ok index := by
    cases result : binarySearchBy planned (fun candidate =>
        compare candidate.logicalId record.address.logicalId) with
    | error _ =>
      rw [result] at searched
      cases searched
    | ok other =>
      rw [result] at searched
      cases searched
      rfl
  have sameId : planned[index].logicalId = record.address.logicalId :=
    compare_eq_iff_eq.mp (binarySearchBy_ok found)
  have follows := SnapshotVerifier.entity_follows soFar.follows accepted
  have newId : ∀ settlement ∈ settlements,
      settlement.record.address.logicalId ≠ record.address.logicalId := by
    intro settlement member same
    have distinct := follows.orderly.nodup_logicalIds
    rw [List.map_append, List.nodup_append] at distinct
    refine distinct.2.2 _ ?_ record.address.logicalId (by simp) same
    rw [← soFar.records, List.map_map, List.map_map]
    exact List.mem_map.mpr ⟨settlement, member, rfl⟩
  have added : addedEntityIds (settlements ++ [⟨record, planned[index], disposition⟩]) =
      addedEntityIds settlements ++ disposition.added.toList := by
    rw [addedEntityIds, List.filterMap_append]
    cases into : disposition.added <;> simp [addedEntityIds, into]
  refine ⟨⟨record, planned[index], disposition⟩, index, ?_⟩
  refine {
    records := by rw [List.map_append, soFar.records]; rfl
    actions := by rw [actions, soFar.actions, List.map_append]; rfl
    valid := ?valid
    follows := ?follows
    results := ?results
    qualified := ?qualified
    added_distinct := ?distinct
    added_fresh := ?fresh
    plans := by rw [List.map_append, List.map_append, soFar.plans]; rfl
    indices_distinct := ?indices
    seen := ?seen
    seenCount := ?count }
  case valid =>
    exact forall_mem_concat soFar.valid ⟨sameId, sameRevision, sameSnapshot, settles⟩
  case follows =>
    rw [← locals, List.map_append]
    exact follows
  case results =>
    rw [← locals]
    refine finds_insert (f := fun settlement : Settlement => settlement.disposition.resultId)
      (x := ⟨record, planned[index], disposition⟩) soFar.results ?_
    refine Option.eq_none_iff_forall_ne_some.mpr fun result found => ?_
    obtain ⟨settlement, member, same, _⟩ := (soFar.results _ _).mp found
    exact newId settlement member same
  case qualified =>
    rw [added, ← locals]
    intro result member
    rcases List.mem_append.mp member with earlier | last
    · have known := soFar.qualified result earlier
      cases into : disposition.added with
      | none =>
        rw [into] at additions
        exact additions ▸ known
      | some other =>
        rw [into] at additions
        rw [additions.2.2]
        exact Finset.mem_insert_of_mem known
    · rw [Option.mem_toList] at last
      rw [last] at additions
      rw [additions.2.2]
      exact Finset.mem_insert_self _ _
  case distinct =>
    rw [added, List.nodup_append]
    refine ⟨soFar.added_distinct, ?_, ?_⟩
    · cases disposition.added <;> simp
    · rintro result earlier last into rfl
      rw [Option.mem_toList] at into
      rw [into] at additions
      exact additions.2.1 (soFar.qualified result earlier)
  case fresh =>
    rw [added]
    intro result member
    rcases List.mem_append.mp member with earlier | last
    · exact soFar.added_fresh result earlier
    · rw [Option.mem_toList] at last
      rw [last] at additions
      exact additions.1
  case indices =>
    rw [List.nodup_append]
    refine ⟨soFar.indices_distinct, List.nodup_singleton _, ?_⟩
    rintro earlier member last isLast rfl
    rw [List.mem_singleton] at isLast
    exact unseen (isLast ▸ (soFar.seen earlier).mpr member)
  case seen =>
    intro other
    rw [← locals, Finset.mem_insert, soFar.seen, List.mem_append, List.mem_singleton, or_comm]
  case count =>
    rw [← locals, List.length_append, soFar.seenCount]
    rfl

theorem sourceEntities_seen {targetRecords : List EntityRecord} {sourceHeader : SnapshotHeader}
    {final : Progress (SourceEntities planned)}
    (revisions : ∀ id revision, targets.revisions[id]? = some revision ↔
      ∃ record ∈ targetRecords, record.address.logicalId = id ∧ record.revision = revision)
    (follows : verifier.Follows sourceHeader [])
    (run : records.foldlM (advance (visitSourceEntity planned targets targetHeader sourceHeader))
      ⟨⟨verifier, ∅, ∅, ∅, 0⟩, counts, []⟩ = .ok final) :
    ∃ settlements indices, SourceEntitiesSeen planned targetRecords targets.ids targetHeader
      sourceHeader records final settlements indices := by
  refine foldlM_prefix_induction (motive := fun seen progress => ∃ settlements indices,
    SourceEntitiesSeen planned targetRecords targets.ids targetHeader sourceHeader seen progress
      settlements indices) ?_ ?_ run
  · refine ⟨[], [], ?_⟩
    exact {
      records := rfl
      actions := rfl
      valid := by simp
      follows := follows
      results := by simp
      qualified := by simp [addedEntityIds]
      added_distinct := List.nodup_nil
      added_fresh := by simp [addedEntityIds]
      plans := rfl
      indices_distinct := List.nodup_nil
      seen := by simp
      seenCount := rfl }
  · rintro seen record before after ⟨settlements, indices, soFar⟩ step
    obtain ⟨settlement, index, next⟩ := sourceEntities_step revisions soFar step
    exact ⟨_, _, next⟩

omit [Blake3] in
/-- When every plan was consumed, the settlements follow all plans, each once. -/
theorem settlements_perm {settlements : List Settlement} {indices : List (Fin planned.length)}
    (plans : settlements.map Settlement.planned = indices.map planned.get)
    (distinct : indices.Nodup) (all : indices.length = planned.length) :
    (settlements.map Settlement.planned).Perm planned := by
  have everyIndex : indices.Perm (List.finRange planned.length) := by
    refine (List.perm_ext_iff_of_nodup distinct (List.nodup_finRange _)).mpr fun index => ?_
    refine iff_of_true ?_ (List.mem_finRange index)
    have full : indices.toFinset = Finset.univ := by
      rw [← Finset.card_eq_iff_eq_univ, List.toFinset_card_of_nodup distinct, all, Fintype.card_fin]
    rw [← List.mem_toFinset, full]
    exact Finset.mem_univ index
  rw [plans]
  have listed := everyIndex.map planned.get
  rwa [List.map_get_finRange] at listed

end Settlements

/-! ## Observations -/

section Observations

/-- The action that keeps a target observation. -/
def keepObservation (record : ObservationRecord) : MergeAction :=
  .keepTargetObservation record (.target record.entity.logicalId)

variable [Blake3]

structure TargetObservationsSeen (targets : TargetEntities) (header : SnapshotHeader)
    (seen : List ObservationRecord) (progress : Progress TargetObservations) : Prop where
  actions : progress.actions = seen.map keepObservation
  follows : progress.locals.verifier.Follows header (seen.map ObservationRecord.address)
  present : ∀ record ∈ seen, targets.revisions[record.entity.logicalId]? ≠ none
  index : Indexes progress.locals.index (digested observationKey (seen.map heldObservation))
  ids : progress.locals.ids = heldIds (seen.map ObservationRecord.address)

theorem targetObservations_seen {records : List ObservationRecord}
    {final : Progress TargetObservations} (follows : verifier.Follows header [])
    (run : records.foldlM (advance (visitTargetObservation targets))
      ⟨⟨verifier, ∅, ∅⟩, counts, []⟩ = .ok final) :
    TargetObservationsSeen targets header records final := by
  refine foldlM_prefix_induction (motive := TargetObservationsSeen targets header) ?_ ?_ run
  · exact ⟨rfl, follows, by simp, Indexes.empty, rfl⟩
  · intro seen record before after soFar step
    obtain ⟨action, step, actions⟩ := advance_ok.mp step
    simp only [visitTargetObservation, bind_eq_ok, refuseIf_eq_ok, pure_eq_ok,
      Prod.mk.injEq] at step
    obtain ⟨verified, accepted, _, present, _, _, locals, _, rfl⟩ := step
    refine ⟨?_, ?_, ?_, ?_, ?_⟩
    · rw [actions, soFar.actions, List.map_append]
      rfl
    · rw [← locals, List.map_append]
      exact SnapshotVerifier.observation_follows soFar.follows accepted
    · exact forall_mem_concat soFar.present present
    · rw [← locals, List.map_append, digested_append]
      exact soFar.index.insertIfNew
    · rw [← locals, List.map_append, List.map_singleton, heldIds_concat, ← soFar.ids]
      rfl

structure SourceObservationsSeen (becomes : LogicalId → ResultObjectId → Prop)
    (held : List (ObservationKey × ResultObjectId)) (ids : Finset String)
    (header : SnapshotHeader) (seen : List ObservationRecord)
    (progress : Progress SourceObservations) (landings : List ObservationLanding) : Prop where
  records : landings.map Landing.record = seen
  actions : progress.actions = landings.map observationAction
  rewired : ∀ landing ∈ landings, RewiredObservation becomes landing.record landing.key
  follows : progress.locals.verifier.Follows header (seen.map ObservationRecord.address)
  landed : LandedSoFar ObservationRecord.address observationKey held ids landings
    progress.locals.index progress.locals.qualified

theorem sourceObservations_seen {results : OrderedMap LogicalId ResultObjectId}
    {becomes : LogicalId → ResultObjectId → Prop}
    {held : List (ObservationKey × ResultObjectId)} {ids : Finset String}
    {records : List ObservationRecord} {index : OrderedMap SemanticHash ResultObjectId}
    {final : Progress SourceObservations}
    (resolved : ∀ id result, results[id]? = some result → becomes id result)
    (follows : verifier.Follows header []) (indexed : Indexes index (digested observationKey held))
    (run : records.foldlM (advance (visitSourceObservation results ids))
      ⟨⟨verifier, index, ∅⟩, counts, []⟩ = .ok final) :
    ∃ landings, SourceObservationsSeen becomes held ids header records final landings := by
  refine foldlM_prefix_induction (motive := fun seen progress => ∃ landings,
    SourceObservationsSeen becomes held ids header seen progress landings) ?_ ?_ run
  · exact ⟨[], rfl, rfl, by simp, follows, landedSoFar_nil indexed⟩
  · rintro seen record before after ⟨landings, soFar⟩ step
    obtain ⟨action, step, actions⟩ := advance_ok.mp step
    simp only [visitSourceObservation, bind_eq_ok, orRefuse_eq_ok] at step
    obtain ⟨verified, accepted, entity, found, step⟩ := step
    have rewired : RewiredObservation becomes record (entity, record.lifecycle, record.content) :=
      ⟨resolved _ _ found, rfl⟩
    have follows := SnapshotVerifier.observation_follows soFar.follows accepted
    have extend : ∀ found, action = observationAction
          ⟨record, (entity, record.lifecycle, record.content), found⟩ →
        after.locals.verifier = verified →
        LandedSoFar ObservationRecord.address observationKey held ids
          (landings ++ [⟨record, (entity, record.lifecycle, record.content), found⟩])
          after.locals.index after.locals.qualified →
        SourceObservationsSeen becomes held ids header (seen ++ [record]) after
          (landings ++ [⟨record, (entity, record.lifecycle, record.content), found⟩]) := by
      intro found sameAction sameVerifier landed
      refine ⟨?_, ?_, forall_mem_concat soFar.rewired rewired, ?_, landed⟩
      · rw [List.map_append, soFar.records, List.map_singleton]
      · rw [actions, soFar.actions, List.map_append, List.map_singleton, sameAction]
      · rw [sameVerifier, List.map_append]
        exact follows
    split at step
    · rename_i target finds
      obtain ⟨locals, _, rfl⟩ := by simpa only [pure_eq_ok, Prod.mk.injEq] using step
      refine ⟨_, extend (some target) rfl (by rw [← locals]) ?_⟩
      rw [← locals]
      exact soFar.landed.join finds
    · rename_i finds
      simp only [bind_eq_ok, refuseIf_eq_ok, pure_eq_ok, Prod.mk.injEq] at step
      obtain ⟨_, fresh, locals, _, rfl⟩ := step
      refine ⟨_, extend none rfl (by rw [← locals]) ?_⟩
      rw [← locals]
      exact soFar.landed.add finds fresh

end Observations

/-! ## Relations -/

section Relations

/-- The action that keeps a target relation. -/
def keepRelation (record : RelationRecord) : MergeAction :=
  .keepTargetRelation record (.target record.subject.logicalId) (.target record.object.logicalId)

variable [Blake3]

structure TargetRelationsSeen (targets : TargetEntities) (header : SnapshotHeader)
    (seen : List RelationRecord) (progress : Progress TargetRelations) : Prop where
  actions : progress.actions = seen.map keepRelation
  follows : progress.locals.verifier.Follows header (seen.map RelationRecord.address)
  present : ∀ record ∈ seen, targets.revisions[record.subject.logicalId]? ≠ none ∧
    targets.revisions[record.object.logicalId]? ≠ none
  index : Indexes progress.locals.index (digested relationKey (seen.map heldRelation))
  distinct : (seen.map fun record => relationKey (heldRelation record).1).Nodup
  ids : progress.locals.ids = heldIds (seen.map RelationRecord.address)

theorem targetRelations_seen {records : List RelationRecord}
    {final : Progress TargetRelations} (follows : verifier.Follows header [])
    (run : records.foldlM (advance (visitTargetRelation targets))
      ⟨⟨verifier, ∅, ∅⟩, counts, []⟩ = .ok final) :
    TargetRelationsSeen targets header records final := by
  refine foldlM_prefix_induction (motive := TargetRelationsSeen targets header) ?_ ?_ run
  · exact ⟨rfl, follows, by simp, Indexes.empty, List.nodup_nil, rfl⟩
  · intro seen record before after soFar step
    obtain ⟨action, step, actions⟩ := advance_ok.mp step
    simp only [visitTargetRelation, bind_eq_ok, refuseIf_eq_ok, pure_eq_ok, Prod.mk.injEq, not_or,
      Bool.not_eq_true, Option.isSome_eq_false_iff, Option.isNone_iff_eq_none] at step
    obtain ⟨verified, accepted, _, present, _, ⟨unheld, _⟩, locals, _, rfl⟩ := step
    refine ⟨?_, ?_, ?_, ?_, ?_, ?_⟩
    · rw [actions, soFar.actions, List.map_append]
      rfl
    · rw [← locals, List.map_append]
      exact SnapshotVerifier.relation_follows soFar.follows accepted
    · exact forall_mem_concat soFar.present present
    · rw [← locals, List.map_append, digested_append]
      rw [soFar.index] at unheld
      exact soFar.index.insert_of_none unheld
    · rw [List.map_append, List.nodup_append]
      refine ⟨soFar.distinct, List.nodup_singleton _, ?_⟩
      rintro key member last isLast rfl
      rw [List.map_singleton, List.mem_singleton] at isLast
      rw [soFar.index, lookup_eq_none_iff_not_mem] at unheld
      refine unheld ?_
      obtain ⟨other, otherMember, same⟩ := List.mem_map.mp member
      simp only [digested, List.map_map, List.mem_map, Function.comp_apply]
      exact ⟨other, otherMember, same.trans isLast⟩
    · rw [← locals, List.map_append, List.map_singleton, heldIds_concat, ← soFar.ids]
      rfl

structure SourceRelationsSeen (becomes : LogicalId → ResultObjectId → Prop)
    (held : List (RelationKey × ResultObjectId)) (ids : Finset String) (policy : MergePolicy)
    (header : SnapshotHeader) (seen : List RelationRecord)
    (progress : Progress SourceRelations) (landings : List RelationLanding) : Prop where
  records : landings.map Landing.record = seen
  actions : progress.actions = landings.map relationAction
  rewired : ∀ landing ∈ landings, RewiredRelation becomes landing.record landing.key
  self_loops : ∀ landing ∈ landings, landing.key.1 = landing.key.2.2.1 →
    policy.allowsSelfLoop landing.record.predicate = true
  follows : progress.locals.verifier.Follows header (seen.map RelationRecord.address)
  landed : LandedSoFar RelationRecord.address relationKey held ids landings
    progress.locals.index progress.locals.qualified

theorem sourceRelations_seen {results : OrderedMap LogicalId ResultObjectId}
    {becomes : LogicalId → ResultObjectId → Prop}
    {held : List (RelationKey × ResultObjectId)} {ids : Finset String} {policy : MergePolicy}
    {records : List RelationRecord} {index : OrderedMap SemanticHash ResultObjectId}
    {final : Progress SourceRelations}
    (resolved : ∀ id result, results[id]? = some result → becomes id result)
    (follows : verifier.Follows header []) (indexed : Indexes index (digested relationKey held))
    (run : records.foldlM (advance (visitSourceRelation results ids policy))
      ⟨⟨verifier, index, ∅⟩, counts, []⟩ = .ok final) :
    ∃ landings, SourceRelationsSeen becomes held ids policy header records final landings := by
  refine foldlM_prefix_induction (motive := fun seen progress => ∃ landings,
    SourceRelationsSeen becomes held ids policy header seen progress landings) ?_ ?_ run
  · exact ⟨[], rfl, rfl, by simp, by simp, follows, landedSoFar_nil indexed⟩
  · rintro seen record before after ⟨landings, soFar⟩ step
    obtain ⟨action, step, actions⟩ := advance_ok.mp step
    simp only [visitSourceRelation, bind_eq_ok, orRefuse_eq_ok, refuseIf_eq_ok, not_and,
      Bool.not_eq_false] at step
    obtain ⟨verified, accepted, subject, foundSubject, object, foundObject, _, selfLoop, step⟩ :=
      step
    have rewired : RewiredRelation becomes record
        (subject, record.predicate, object, record.lifecycle) :=
      ⟨resolved _ _ foundSubject, resolved _ _ foundObject, rfl, rfl⟩
    have follows := SnapshotVerifier.relation_follows soFar.follows accepted
    have extend : ∀ found, action = relationAction
          ⟨record, (subject, record.predicate, object, record.lifecycle), found⟩ →
        after.locals.verifier = verified →
        LandedSoFar RelationRecord.address relationKey held ids
          (landings ++ [⟨record, (subject, record.predicate, object, record.lifecycle), found⟩])
          after.locals.index after.locals.qualified →
        SourceRelationsSeen becomes held ids policy header (seen ++ [record]) after
          (landings ++
            [⟨record, (subject, record.predicate, object, record.lifecycle), found⟩]) := by
      intro found sameAction sameVerifier landed
      refine ⟨?_, ?_, forall_mem_concat soFar.rewired rewired,
        forall_mem_concat soFar.self_loops selfLoop, ?_, landed⟩
      · rw [List.map_append, soFar.records, List.map_singleton]
      · rw [actions, soFar.actions, List.map_append, List.map_singleton, sameAction]
      · rw [sameVerifier, List.map_append]
        exact follows
    split at step
    · rename_i target finds
      obtain ⟨locals, _, rfl⟩ := by simpa only [pure_eq_ok, Prod.mk.injEq] using step
      refine ⟨_, extend (some target) rfl (by rw [← locals]) ?_⟩
      rw [← locals]
      exact soFar.landed.join finds
    · rename_i finds
      simp only [bind_eq_ok, refuseIf_eq_ok, pure_eq_ok, Prod.mk.injEq] at step
      obtain ⟨_, fresh, locals, _, rfl⟩ := step
      refine ⟨_, extend none rfl (by rw [← locals]) ?_⟩
      rw [← locals]
      exact soFar.landed.add finds fresh

end Relations

end OpenMemory.Merge
