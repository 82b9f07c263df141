import OpenMemory.Merge.Planner.Calls
import OpenMemory.Merge.Planner.Seen

/-!
# The outcome of a successful run

A run that succeeds is described without its state: the plans made from the
receipts, how each source entity was settled, where each source observation and
relation landed, and the actions that follow from these (`Decisions`). Every
successful run, against any sink, has such a description (`Plans.outcome`), and
its plan summarises exactly the actions that were emitted (`Summarizes`).
-/

namespace OpenMemory.Merge

open Foundation

/-! ## The description of a run -/

/-- What a run decided. -/
structure Decisions where
  indexes : ReceiptIndexes
  planned : List PlannedEntity
  consumed : MergeAccounting
  settlements : List Settlement
  observations : List ObservationLanding
  relations : List RelationLanding

/-- The result that the source entity with this identifier has become. -/
def Becomes (settlements : List Settlement) (id : LogicalId) (result : ResultObjectId) : Prop :=
  ∃ settlement ∈ settlements, settlement.record.address.logicalId = id ∧
    settlement.disposition.resultId = result

section Outcomes

variable [Blake3]

def Decisions.entityActions (decisions : Decisions) (target : SnapshotSource) : List MergeAction :=
  target.entities.records.map .keepTargetEntity ++ decisions.settlements.map Settlement.action

def Decisions.observationActions (decisions : Decisions) (target : SnapshotSource) :
    List MergeAction :=
  target.observations.records.map keepObservation ++ decisions.observations.map observationAction

def Decisions.relationActions (decisions : Decisions) (target : SnapshotSource) :
    List MergeAction :=
  target.relations.records.map keepRelation ++ decisions.relations.map relationAction

/-- All actions of the run, in the order they are emitted. -/
def Decisions.actions (decisions : Decisions) (target : SnapshotSource) : List MergeAction :=
  decisions.entityActions target ++ decisions.observationActions target ++
    decisions.relationActions target

structure EntitiesSettled (target source : SnapshotSource) (planned : List PlannedEntity)
    (settlements : List Settlement) : Prop where
  target_orderly : SnapshotVerifier.Orderly target.header
    (target.entities.records.map EntityRecord.address)
  source_orderly : SnapshotVerifier.Orderly source.header
    (source.entities.records.map EntityRecord.address)
  records : settlements.map Settlement.record = source.entities.records
  valid : ∀ settlement ∈ settlements,
    settlement.Valid target.entities.records target.header source.header
  plans : (settlements.map Settlement.planned).Perm planned
  added_distinct : (addedEntityIds settlements).Nodup
  added_fresh : ∀ result ∈ addedEntityIds settlements,
    result.value ∉ heldIds (target.entities.records.map EntityRecord.address)

structure ObservationsLanded (target source : SnapshotSource) (settlements : List Settlement)
    (landings : List ObservationLanding) : Prop where
  target_orderly : SnapshotVerifier.Orderly target.header
    (target.observations.records.map ObservationRecord.address)
  source_orderly : SnapshotVerifier.Orderly source.header
    (source.observations.records.map ObservationRecord.address)
  present : ∀ record ∈ target.observations.records, ∃ entity ∈ target.entities.records,
    entity.address.logicalId = record.entity.logicalId
  records : landings.map Landing.record = source.observations.records
  rewired : ∀ landing ∈ landings,
    RewiredObservation (Becomes settlements) landing.record landing.key
  landed : Landed ObservationRecord.address observationKey
    (target.observations.records.map heldObservation)
    (heldIds (target.observations.records.map ObservationRecord.address)) landings

structure RelationsLanded (target source : SnapshotSource) (policy : MergePolicy)
    (settlements : List Settlement) (landings : List RelationLanding) : Prop where
  target_orderly : SnapshotVerifier.Orderly target.header
    (target.relations.records.map RelationRecord.address)
  source_orderly : SnapshotVerifier.Orderly source.header
    (source.relations.records.map RelationRecord.address)
  present : ∀ record ∈ target.relations.records,
    (∃ entity ∈ target.entities.records, entity.address.logicalId = record.subject.logicalId) ∧
      ∃ entity ∈ target.entities.records, entity.address.logicalId = record.object.logicalId
  distinct : (target.relations.records.map fun record =>
    relationKey (heldRelation record).1).Nodup
  records : landings.map Landing.record = source.relations.records
  rewired : ∀ landing ∈ landings, RewiredRelation (Becomes settlements) landing.record landing.key
  self_loops : ∀ landing ∈ landings, landing.key.1 = landing.key.2.2.1 →
    policy.allowsSelfLoop landing.record.predicate = true
  landed : Landed RelationRecord.address relationKey
    (target.relations.records.map heldRelation)
    (heldIds (target.relations.records.map RelationRecord.address)) landings

/-- The decisions of a successful run, and what is known of them. -/
structure Outcome (request : MergeRequest) (decisions : Decisions) : Prop where
  distinct_spaces : request.target.header.spaceId ≠ request.source.header.spaceId
  prepared : Prepared request.receipts request.policy decisions.indexes decisions.planned
    decisions.consumed
  entities : EntitiesSettled request.target request.source decisions.planned decisions.settlements
  observations : ObservationsLanded request.target request.source decisions.settlements
    decisions.observations
  relations : RelationsLanded request.target request.source request.policy decisions.settlements
    decisions.relations

/-- The plan summarises these actions, for a run that consumed these receipts. -/
structure Summarizes (plan : MergePlan) (preamble : PlanPrelude) (consumed : MergeAccounting)
    (actions : List MergeAction) : Prop where
  preamble : plan.preamble = preamble
  actionStreamHash : plan.actionStreamHash = ⟨Blake3.hash (encodeStream actions)⟩
  actionCounts : plan.actionCounts = actions.foldl countAction {}
  accounting : plan.accounting = { consumed with
    resultEntities := plan.actionCounts.targetEntities + plan.actionCounts.addedEntities
    resultObservations :=
      plan.actionCounts.targetObservations + plan.actionCounts.addedObservations
    resultRelations := plan.actionCounts.targetRelations + plan.actionCounts.addedRelations
    retainedOrigins :=
      ((sortedDistinct (actions.flatMap resultTokens)).filter isOriginToken).length }
  predictedResultHash :
    plan.predictedResultHash = hashResultTokens (sortedDistinct (actions.flatMap resultTokens))
  planHash : plan.planHash = hashPlan plan.preamble plan.actionStreamHash plan.actionCounts
    plan.accounting plan.predictedResultHash

end Outcomes

/-! ## The stages -/

section Stages

variable [Blake3] {target source : SnapshotSource} {kept kept' : List MergeAction}

omit [Blake3] in
theorem present_of_revisions {targets : TargetEntities} {records : List EntityRecord}
    {id : LogicalId}
    (revisions : ∀ id revision, targets.revisions[id]? = some revision ↔
      ∃ record ∈ records, record.address.logicalId = id ∧ record.revision = revision)
    (present : targets.revisions[id]? ≠ none) :
    ∃ record ∈ records, record.address.logicalId = id := by
  obtain ⟨revision, found⟩ := Option.ne_none_iff_exists'.mp present
  obtain ⟨record, member, same, _⟩ := (revisions id revision).mp found
  exact ⟨record, member, same⟩

/-- What the entity visits leave behind, besides the settlements. -/
structure EntityStageReached (target source : SnapshotSource) (settlements : List Settlement)
    (stage : EntityStage) : Prop where
  revisions : ∀ id revision, stage.targets.revisions[id]? = some revision ↔
    ∃ record ∈ target.entities.records, record.address.logicalId = id ∧ record.revision = revision
  results : ∀ id result, stage.results[id]? = some result → Becomes settlements id result
  target_follows : stage.targetVerifier.Follows target.header []
  source_follows : stage.sourceVerifier.Follows source.header []

theorem planEntities_ok {planned : List PlannedEntity} {state : PlanningState}
    {stage : EntityStage}
    (run : (planEntities collect target source planned state).run kept = (.ok stage, kept')) :
    ∃ settlements, EntitiesSettled target source planned settlements ∧
      EntityStageReached target source settlements stage ∧
      Emitted state stage.state kept kept' (target.entities.records.map .keepTargetEntity ++
        settlements.map Settlement.action) := by
  simp only [planEntities, Effect.bind_eq_ok, Effect.liftM_run, Effect.lift_run, Effect.pure_run,
    Prod.mk.injEq, refuseIf_eq_ok, not_not] at run
  obtain ⟨targetVerifier, _, ⟨targetStarted, rfl⟩, sourceVerifier, _, ⟨sourceStarted, rfl⟩,
    targets, _, targetsVisited, targetEnded, _, ⟨targetEnds, rfl⟩, sources, _, sourcesVisited,
    sourceEnded, _, ⟨sourceEnds, rfl⟩, _, _, ⟨allSeen, rfl⟩, same, rfl⟩ := run
  cases same
  obtain ⟨targetProgress, targetLoop, targetLocals, targetEmitted⟩ :=
    visitRecords_collect visitTargetEntity_counts targetsVisited
  obtain ⟨sourceProgress, sourceLoop, sourceLocals, sourceEmitted⟩ :=
    visitRecords_collect (visitSourceEntity_counts _ _ _ _) sourcesVisited
  have targetSeen := targetEntities_seen (SnapshotVerifier.new_follows targetStarted) targetLoop
  rw [targetLocals] at sourceLoop targetEnds
  rw [sourceLocals] at sourceEnds allSeen
  obtain ⟨settlements, indices, sourceSeen⟩ := sourceEntities_seen targetSeen.revisions
    (SnapshotVerifier.new_follows sourceStarted) sourceLoop
  refine ⟨settlements, ?settled, ?reached, ?emitted⟩
  case settled =>
    exact {
      target_orderly := targetSeen.follows.orderly
      source_orderly := sourceSeen.follows.orderly
      records := sourceSeen.records
      valid := sourceSeen.valid
      plans := settlements_perm sourceSeen.plans sourceSeen.indices_distinct
        (sourceSeen.seenCount.symm.trans allSeen)
      added_distinct := sourceSeen.added_distinct
      added_fresh := targetSeen.ids ▸ sourceSeen.added_fresh }
  case reached =>
    exact {
      revisions := by simpa only [targetLocals] using targetSeen.revisions
      results := by
        rw [sourceLocals]
        exact fun id result => (sourceSeen.results id result).mp
      target_follows := SnapshotVerifier.endEntities_follows targetSeen.follows targetEnds
      source_follows := SnapshotVerifier.endEntities_follows sourceSeen.follows sourceEnds }
  case emitted =>
    rw [← targetSeen.actions, ← sourceSeen.actions]
    exact targetEmitted.trans sourceEmitted

theorem planObservations_ok {settlements : List Settlement} {entities : EntityStage}
    {stage : ObservationStage} (reached : EntityStageReached target source settlements entities)
    (run : (planObservations collect target source entities).run kept = (.ok stage, kept')) :
    ∃ landings, ObservationsLanded target source settlements landings ∧
      stage.targetVerifier.Follows target.header [] ∧
      stage.sourceVerifier.Follows source.header [] ∧
      Emitted entities.state stage.state kept kept'
        (target.observations.records.map keepObservation ++ landings.map observationAction) := by
  simp only [planObservations, Effect.bind_eq_ok, Effect.liftM_run, Effect.pure_run,
    Prod.mk.injEq] at run
  obtain ⟨targets, _, targetsVisited, targetEnded, _, ⟨targetEnds, rfl⟩, sources, _,
    sourcesVisited, sourceEnded, _, ⟨sourceEnds, rfl⟩, same, rfl⟩ := run
  cases same
  obtain ⟨targetProgress, targetLoop, targetLocals, targetEmitted⟩ :=
    visitRecords_collect (visitTargetObservation_counts _) targetsVisited
  obtain ⟨sourceProgress, sourceLoop, sourceLocals, sourceEmitted⟩ :=
    visitRecords_collect (visitSourceObservation_counts _ _) sourcesVisited
  have targetSeen := targetObservations_seen reached.target_follows targetLoop
  rw [targetLocals] at sourceLoop targetEnds
  rw [sourceLocals] at sourceEnds
  obtain ⟨landings, sourceSeen⟩ := sourceObservations_seen reached.results
    reached.source_follows targetSeen.index sourceLoop
  refine ⟨landings, ?landed, SnapshotVerifier.endObservations_follows targetSeen.follows targetEnds,
    SnapshotVerifier.endObservations_follows sourceSeen.follows sourceEnds, ?emitted⟩
  case landed =>
    exact {
      target_orderly := targetSeen.follows.orderly
      source_orderly := sourceSeen.follows.orderly
      present := fun record member =>
        present_of_revisions reached.revisions (targetSeen.present record member)
      records := sourceSeen.records
      rewired := sourceSeen.rewired
      landed := targetSeen.ids ▸ sourceSeen.landed.landed }
  case emitted =>
    rw [← targetSeen.actions, ← sourceSeen.actions]
    exact targetEmitted.trans sourceEmitted

theorem planRelations_ok {settlements : List Settlement} {policy : MergePolicy}
    {entities : EntityStage} {observations : ObservationStage} {after : PlanningState}
    (reached : EntityStageReached target source settlements entities)
    (target_follows : observations.targetVerifier.Follows target.header [])
    (source_follows : observations.sourceVerifier.Follows source.header [])
    (run : (planRelations collect target source policy entities observations).run kept =
      (.ok after, kept')) :
    ∃ landings, RelationsLanded target source policy settlements landings ∧
      Emitted observations.state after kept kept'
        (target.relations.records.map keepRelation ++ landings.map relationAction) := by
  simp only [planRelations, Effect.bind_eq_ok, Effect.liftM_run, Effect.pure_run,
    Prod.mk.injEq] at run
  obtain ⟨targets, _, targetsVisited, _, _, ⟨_, rfl⟩, sources, _, sourcesVisited, _, _, ⟨_, rfl⟩,
    same, rfl⟩ := run
  cases same
  obtain ⟨targetProgress, targetLoop, targetLocals, targetEmitted⟩ :=
    visitRecords_collect (visitTargetRelation_counts _) targetsVisited
  obtain ⟨sourceProgress, sourceLoop, sourceLocals, sourceEmitted⟩ :=
    visitRecords_collect (visitSourceRelation_counts _ _ _) sourcesVisited
  have targetSeen := targetRelations_seen target_follows targetLoop
  rw [targetLocals] at sourceLoop
  obtain ⟨landings, sourceSeen⟩ := sourceRelations_seen reached.results source_follows
    targetSeen.index sourceLoop
  refine ⟨landings, ?landed, ?emitted⟩
  case landed =>
    exact {
      target_orderly := targetSeen.follows.orderly
      source_orderly := sourceSeen.follows.orderly
      present := fun record member =>
        (targetSeen.present record member).imp (present_of_revisions reached.revisions)
          (present_of_revisions reached.revisions)
      distinct := targetSeen.distinct
      records := sourceSeen.records
      rewired := sourceSeen.rewired
      self_loops := sourceSeen.self_loops
      landed := targetSeen.ids ▸ sourceSeen.landed.landed }
  case emitted =>
    rw [← targetSeen.actions, ← sourceSeen.actions]
    exact targetEmitted.trans sourceEmitted

theorem concludePlan_ok {preamble : PlanPrelude} {targetHeader sourceHeader : SnapshotHeader}
    {consumed : MergeAccounting} {actions : List MergeAction} {plan : MergePlan}
    (success : concludePlan preamble targetHeader sourceHeader
      ((⟨actionHasher, [], {}, consumed⟩ : PlanningState).recordAll
        (actions.foldl countAction {}) actions) = .ok plan) :
    Summarizes plan preamble consumed actions := by
  simp only [concludePlan, bind_eq_ok, pure_eq_ok] at success
  obtain ⟨_, _, rfl⟩ := success
  exact {
    preamble := rfl
    actionStreamHash := rfl
    actionCounts := rfl
    accounting := rfl
    predictedResultHash := rfl
    planHash := rfl }

end Stages

/-! ## The whole run -/

/-- **Every successful run** made decisions that justify the actions it emitted,
and its plan summarises these actions. -/
theorem MergeRequest.Plans.outcome [Blake3] {σ : Type} {request : MergeRequest}
    {sink : ActionSink σ} {s : σ} {plan : MergePlan} {actions : List MergeAction}
    (plans : request.Plans sink s plan actions) :
    ∃ decisions, Outcome request decisions ∧ actions = decisions.actions request.target ∧
      Summarizes plan request.preamble decisions.consumed actions := by
  obtain ⟨valid, planned, emitted⟩ := plans.script
  simp only [validateHeaders, bind_eq_ok, refuseIf_eq_ok] at valid
  obtain ⟨_, _, distinct⟩ := valid
  have body : (planAfterBegin request.target request.source request.receipts request.policy
      request.preamble (List MergeAction) collect).run [] = (.ok plan, actions) :=
    Prod.ext planned emitted
  simp only [planAfterBegin, Effect.bind_eq_ok, Effect.liftM_run, Prod.mk.injEq] at body
  obtain ⟨⟨dispositions, consumed⟩, _, ⟨prepared, rfl⟩, entities, _, entitiesRun, observations, _,
    observationsRun, after, _, relationsRun, concluded, rfl⟩ := body
  obtain ⟨indexes, prepared⟩ := prepareDispositions_ok prepared
  obtain ⟨settlements, settled, reached, first⟩ := planEntities_ok entitiesRun
  obtain ⟨observationLandings, observationsLanded, targetFollows, sourceFollows, second⟩ :=
    planObservations_ok reached observationsRun
  obtain ⟨relationLandings, relationsLanded, third⟩ :=
    planRelations_ok reached targetFollows sourceFollows relationsRun
  have all := (first.trans second).trans third
  refine ⟨⟨indexes, dispositions, consumed, settlements, observationLandings, relationLandings⟩,
    ⟨distinct, prepared, settled, observationsLanded, relationsLanded⟩, all.kept, ?_⟩
  rw [all.state] at concluded
  rw [all.kept]
  exact concludePlan_ok concluded

end OpenMemory.Merge
