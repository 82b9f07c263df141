import OpenMemory.Merge.Fixture

/-!
# Every record once, every result once

What a plan must conserve: each input record is handled by one action, no two
source entities end up in one target entity, results have identifiers of their
own, what an action names as an end is a result entity, and no relation is
asserted twice. All but the second hold of every successful run. Two source
entities do end up in one target entity when two receipts name that entity in
different spaces: coalescence targets are compared as addresses, but looked up
by their local identifiers (`conserved_iff_oneSpacePerTarget`).
-/

namespace OpenMemory.Merge

open Foundation

/-! ## What is conserved -/

namespace MergeAction

/-- The source entity that is coalesced, and the target entity it becomes part of. -/
def coalesced : MergeAction → Option (EntityAddress × LogicalId)
  | applyEntityDisposition source (.coalesce _ target _) =>
    some (source.address, target.logicalId)
  | _ => none

/-- The result entities an action names as ends. -/
def ends : MergeAction → List ResultObjectId
  | keepTargetObservation _ resultEntity => [resultEntity]
  | addObservation _ _ resultEntity => [resultEntity]
  | mergeObservationOrigin _ _ resultEntity => [resultEntity]
  | keepTargetRelation _ resultSubject resultObject => [resultSubject, resultObject]
  | addRelation _ _ resultSubject resultObject => [resultSubject, resultObject]
  | mergeRelationOrigin _ _ resultSubject resultObject => [resultSubject, resultObject]
  | _ => []

/-- What the relation that an action keeps or adds asserts in the result. -/
def assertion : MergeAction → Option RelationKey
  | keepTargetRelation target resultSubject resultObject =>
    some (resultSubject, target.predicate, resultObject, target.lifecycle)
  | addRelation source _ resultSubject resultObject =>
    some (resultSubject, source.predicate, resultObject, source.lifecycle)
  | _ => none

end MergeAction

/-- The actions conserve the records of the request. -/
structure Conserved (request : MergeRequest) (actions : List MergeAction) : Prop where
  covered : actions.map MergeAction.input = request.inputs
  inputs_distinct : request.inputs.Nodup
  coalesced_injective : ∀ first ∈ actions.filterMap MergeAction.coalesced,
    ∀ last ∈ actions.filterMap MergeAction.coalesced, first.2 = last.2 → first.1 = last.1
  results_distinct : ∀ kind, ((opened kind actions).map ResultObjectId.asStr).Nodup
  ends_open : ∀ action ∈ actions, ∀ result ∈ action.ends, result ∈ opened .entity actions
  assertions_distinct : (actions.filterMap MergeAction.assertion).Nodup

/-- Receipts that resolve pairs same name each target entity in one space only. -/
def MergeRequest.OneSpacePerTarget (request : MergeRequest) : Prop :=
  ∀ first ∈ request.receipts.resolutions, ∀ last ∈ request.receipts.resolutions,
    first.decision = .same → last.decision = .same →
      first.target.address.logicalId = last.target.address.logicalId →
        first.target.address.space = last.target.address.space

namespace Outcome

variable [Blake3] {request : MergeRequest} {decisions : Decisions}

/-! ## Records -/

variable (outcome : Outcome request decisions)

include outcome

theorem inputs_distinct : request.inputs.Nodup := by
  have once : ∀ {R : Type} {records : List R} {address : R → ObjectAddress}
      {header : SnapshotHeader} (input : R → InputRecord), Function.Injective input →
      SnapshotVerifier.Orderly header (records.map address) → (records.map input).Nodup := by
    intro R records address header input injective orderly
    have addresses : (records.map address).Nodup := orderly.sorted.imp fun below => ne_of_lt below
    exact (List.Nodup.of_map address addresses).map injective
  have targetEntities := once .targetEntity (fun _ _ same => InputRecord.targetEntity.inj same)
    outcome.entities.target_orderly
  have sourceEntities := once .sourceEntity (fun _ _ same => InputRecord.sourceEntity.inj same)
    outcome.entities.source_orderly
  have targetObservations := once .targetObservation
    (fun _ _ same => InputRecord.targetObservation.inj same) outcome.observations.target_orderly
  have sourceObservations := once .sourceObservation
    (fun _ _ same => InputRecord.sourceObservation.inj same) outcome.observations.source_orderly
  have targetRelations := once .targetRelation
    (fun _ _ same => InputRecord.targetRelation.inj same) outcome.relations.target_orderly
  have sourceRelations := once .sourceRelation
    (fun _ _ same => InputRecord.sourceRelation.inj same) outcome.relations.source_orderly
  simp only [MergeRequest.inputs, List.nodup_append, targetEntities, sourceEntities,
    targetObservations, sourceObservations, targetRelations, sourceRelations, true_and]
  simp only [List.mem_append, List.mem_map]
  grind

/-! ## Ends -/

/-- What a source entity becomes is a result entity. -/
theorem becomes_opened {id : LogicalId}
    {result : ResultObjectId} (becomes : Becomes decisions.settlements id result) :
    result ∈ opened .entity (decisions.actions request.target) := by
  obtain ⟨settlement, member, _, rfl⟩ := becomes
  rw [opened_entities]
  have settles := (outcome.entities.valid settlement member).settles
  have added : ∀ other, settlement.disposition.added = some other →
      other ∈ addedEntityIds decisions.settlements := fun other same =>
    List.mem_filterMap.mpr ⟨settlement, member, same⟩
  generalize settlement.disposition = disposition at settles added ⊢
  generalize settlement.planned.disposition = planned at settles
  cases settles with
  | coalesce target _ record recordMember sameId _ _ =>
    refine List.mem_append_left _ ?_
    rw [List.map_map]
    exact List.mem_map.mpr ⟨record, recordMember, congrArg _ sameId⟩
  | add => exact List.mem_append_right _ (List.mem_map_of_mem (added _ rfl))

omit outcome in
/-- A kept target entity is a result entity. -/
theorem target_opened {id : LogicalId}
    (present : ∃ entity ∈ request.target.entities.records, entity.address.logicalId = id) :
    ResultObjectId.target id ∈ opened .entity (decisions.actions request.target) := by
  obtain ⟨entity, member, rfl⟩ := present
  rw [opened_entities, List.map_map]
  exact List.mem_append_left _ (List.mem_map.mpr ⟨entity, member, rfl⟩)

theorem ends_open : ∀ action ∈ decisions.actions request.target, ∀ result ∈ action.ends,
      result ∈ opened .entity (decisions.actions request.target) := by
  intro action member result isEnd
  simp only [Decisions.actions, Decisions.entityActions, Decisions.observationActions,
    Decisions.relationActions, List.mem_append, List.mem_map] at member
  rcases member with ((⟨_, _, rfl⟩ | ⟨_, _, rfl⟩) | (⟨record, held, rfl⟩ | ⟨landing, landed, rfl⟩)) |
    (⟨record, held, rfl⟩ | ⟨landing, landed, rfl⟩)
  · cases isEnd
  · cases isEnd
  · have present := outcome.observations.present record held
    simp only [keepObservation, MergeAction.ends, List.mem_singleton] at isEnd
    exact isEnd ▸ target_opened present
  · have becomes := outcome.becomes_opened (outcome.observations.rewired landing landed).1
    unfold observationAction at isEnd
    cases found : landing.found <;>
      simp only [found, MergeAction.ends, List.mem_singleton] at isEnd <;> exact isEnd ▸ becomes
  · obtain ⟨subject, object⟩ := outcome.relations.present record held
    simp only [keepRelation, MergeAction.ends, List.mem_cons, List.not_mem_nil, or_false] at isEnd
    rcases isEnd with rfl | rfl
    · exact target_opened subject
    · exact target_opened object
  · have rewired := outcome.relations.rewired landing landed
    have subject := outcome.becomes_opened rewired.1
    have object := outcome.becomes_opened rewired.2.1
    unfold relationAction at isEnd
    cases found : landing.found <;>
      simp only [found, MergeAction.ends, List.mem_cons, List.not_mem_nil, or_false] at isEnd <;>
      rcases isEnd with rfl | rfl <;> assumption

/-! ## Assertions -/

theorem assertion_of_relationAction
    {landing : RelationLanding} (landed : landing ∈ decisions.relations) :
    (relationAction landing).assertion =
      if landing.found.isNone then some landing.key else none := by
  obtain ⟨_, _, predicate, lifecycle⟩ := outcome.relations.rewired landing landed
  unfold relationAction
  cases landing.found with
  | none =>
    simp only [MergeAction.assertion, Option.isNone_none, if_true, ← predicate, ← lifecycle]
  | some _ => rfl

theorem assertions_distinct :
    ((decisions.actions request.target).filterMap MergeAction.assertion).Nodup := by
  have entities : (decisions.entityActions request.target).filterMap MergeAction.assertion = [] := by
    refine List.filterMap_eq_nil_iff.mpr fun action member => ?_
    rcases List.mem_append.mp member with kept | settled
    · obtain ⟨_, _, rfl⟩ := List.mem_map.mp kept
      rfl
    · obtain ⟨_, _, rfl⟩ := List.mem_map.mp settled
      rfl
  have observations :
      (decisions.observationActions request.target).filterMap MergeAction.assertion = [] := by
    refine List.filterMap_eq_nil_iff.mpr fun action member => ?_
    rcases List.mem_append.mp member with kept | landed
    · obtain ⟨_, _, rfl⟩ := List.mem_map.mp kept
      rfl
    · obtain ⟨landing, _, rfl⟩ := List.mem_map.mp landed
      unfold observationAction
      cases landing.found <;> rfl
  have kept : (request.target.relations.records.map keepRelation).filterMap
      MergeAction.assertion = (request.target.relations.records.map heldRelation).map Prod.fst := by
    rw [List.filterMap_map, List.map_map]
    exact congrFun List.filterMap_eq_map' _
  have added : (decisions.relations.map relationAction).filterMap MergeAction.assertion =
      (decisions.relations.filter fun landing => landing.found.isNone).map Landing.key := by
    have each : (decisions.relations.map relationAction).filterMap MergeAction.assertion =
        decisions.relations.filterMap fun landing =>
          if landing.found.isNone then some landing.key else none := by
      rw [List.filterMap_map]
      exact List.filterMap_congr fun landing landed => outcome.assertion_of_relationAction landed
    rw [each]
    induction decisions.relations with
    | nil => rfl
    | cons first rest ih =>
      rw [List.filterMap_cons, List.filter_cons, ih]
      cases first.found <;> rfl
  rw [Decisions.actions, List.filterMap_append, List.filterMap_append, entities, observations,
    Decisions.relationActions, List.filterMap_append, kept, added]
  refine outcome.relations.landed.nodup_keys ?_
  have distinct := outcome.relations.distinct
  rw [List.map_map]
  exact distinct

/-! ## Coalescence -/

omit outcome in
theorem mem_coalesced {pair : EntityAddress × LogicalId} :
    pair ∈ (decisions.actions request.target).filterMap MergeAction.coalesced ↔
      ∃ settlement ∈ decisions.settlements, settlement.action.coalesced = some pair := by
  simp only [Decisions.actions, Decisions.entityActions, Decisions.observationActions,
    Decisions.relationActions, List.mem_filterMap, List.mem_append, List.mem_map]
  constructor
  · rintro ⟨action, ((⟨_, _, rfl⟩ | ⟨settlement, member, rfl⟩) |
      (⟨_, _, rfl⟩ | ⟨landing, _, rfl⟩)) | (⟨_, _, rfl⟩ | ⟨landing, _, rfl⟩), found⟩
    · cases found
    · exact ⟨settlement, member, found⟩
    · cases found
    · unfold observationAction at found
      cases finds : landing.found <;> rw [finds] at found <;> cases found
    · cases found
    · unfold relationAction at found
      cases finds : landing.found <;> rw [finds] at found <;> cases found
  · rintro ⟨settlement, member, found⟩
    exact ⟨_, .inl (.inl (.inr ⟨settlement, member, rfl⟩)), found⟩

/-- The pair of a coalesced entity comes from its plan. -/
theorem coalesced_iff {settlement : Settlement}
    (member : settlement ∈ decisions.settlements) {pair : EntityAddress × LogicalId} :
    settlement.action.coalesced = some pair ↔ ∃ target receipt,
      settlement.planned.disposition = .coalesce target receipt ∧
        pair = (settlement.record.address, target.address.logicalId) := by
  have settles := (outcome.entities.valid settlement member).settles
  unfold Settlement.action
  generalize settlement.disposition = disposition at settles ⊢
  generalize settlement.planned.disposition = planned at settles ⊢
  cases settles with
  | coalesce target receipt _ _ _ _ _ =>
    simp only [MergeAction.coalesced, Option.some.injEq, PlannedDisposition.coalesce.injEq]
    constructor
    · rintro rfl
      exact ⟨target, receipt, ⟨rfl, rfl⟩, rfl⟩
    · rintro ⟨_, _, ⟨rfl, rfl⟩, rfl⟩
      rfl
  | add => simp [MergeAction.coalesced]

/-- No address is coalesced into by two source entities. -/
theorem settlement_of_address {first last : Settlement}
    (firstMember : first ∈ decisions.settlements) (lastMember : last ∈ decisions.settlements)
    {address : ObjectAddress} (firstInto : first.planned.disposition.coalescedInto = some address)
    (lastInto : last.planned.disposition.coalescedInto = some address) : first = last := by
  have distinct := (outcome.entities.plans.filterMap fun entity : PlannedEntity =>
    entity.disposition.coalescedInto).nodup_iff.mpr outcome.prepared.targets_distinct
  rw [List.filterMap_map] at distinct
  exact eq_of_nodup_filterMap distinct firstMember lastMember firstInto lastInto

/-- No two source entities become part of one target entity, exactly when no two
receipts name it in different spaces. -/
theorem coalesced_injective_iff :
    (∀ first ∈ (decisions.actions request.target).filterMap MergeAction.coalesced,
      ∀ last ∈ (decisions.actions request.target).filterMap MergeAction.coalesced,
        first.2 = last.2 → first.1 = last.1) ↔ request.OneSpacePerTarget := by
  constructor
  · intro injective first firstMember last lastMember firstSame lastSame sameId
    obtain ⟨left, leftMember, leftPlan, _⟩ := outcome.coalesces_of_same firstMember firstSame
    obtain ⟨right, rightMember, rightPlan, _⟩ := outcome.coalesces_of_same lastMember lastSame
    have leftPair := (outcome.coalesced_iff leftMember).mpr ⟨_, _, leftPlan, rfl⟩
    have rightPair := (outcome.coalesced_iff rightMember).mpr ⟨_, _, rightPlan, rfl⟩
    have sameAddress := injective _ (mem_coalesced.mpr ⟨left, leftMember, leftPair⟩) _
      (mem_coalesced.mpr ⟨right, rightMember, rightPair⟩) sameId
    have same := outcome.settlement_unique leftMember rightMember
      (congrArg ObjectAddress.logicalId sameAddress)
    rw [← same, leftPlan] at rightPlan
    rw [(PlannedDisposition.coalesce.inj rightPlan).1]
  · intro oneSpace first firstMember last lastMember sameId
    obtain ⟨left, leftMember, leftPair⟩ := mem_coalesced.mp firstMember
    obtain ⟨right, rightMember, rightPair⟩ := mem_coalesced.mp lastMember
    obtain ⟨leftTarget, _, leftPlan, rfl⟩ := (outcome.coalesced_iff leftMember).mp leftPair
    obtain ⟨rightTarget, _, rightPlan, rfl⟩ := (outcome.coalesced_iff rightMember).mp rightPair
    obtain ⟨_, _, leftSame, leftResolved, _, _, leftDecision, _, rfl, _⟩ :=
      outcome.same_of_coalesces leftMember leftPlan
    obtain ⟨_, _, rightSame, rightResolved, _, _, rightDecision, _, rfl, _⟩ :=
      outcome.same_of_coalesces rightMember rightPlan
    have sameSpace := oneSpace leftSame leftResolved rightSame rightResolved leftDecision
      rightDecision sameId
    have sameAddress := ObjectAddress.eq_iff.mpr ⟨sameSpace, sameId⟩
    rw [outcome.settlement_of_address leftMember rightMember (by rw [leftPlan]; rfl)
      (by rw [rightPlan, sameAddress]; rfl)]

end Outcome

/-- **A successful run conserves its records** if and only if the receipts that
coalesce name each target entity in one space only. -/
theorem conserved_iff_oneSpacePerTarget [Blake3] {σ : Type} {request : MergeRequest}
    {sink : ActionSink σ} {s : σ} {plan : MergePlan} {actions : List MergeAction}
    (plans : request.Plans sink s plan actions) :
    Conserved request actions ↔ request.OneSpacePerTarget := by
  obtain ⟨decisions, outcome, rfl, _⟩ := plans.outcome
  constructor
  · intro conserved
    exact outcome.coalesced_injective_iff.mp conserved.coalesced_injective
  · intro oneSpace
    exact {
      covered := outcome.covered
      inputs_distinct := outcome.inputs_distinct
      coalesced_injective := outcome.coalesced_injective_iff.mpr oneSpace
      results_distinct := outcome.assembled.names_distinct
      ends_open := outcome.ends_open
      assertions_distinct := outcome.assertions_distinct }

/-! ## Examples -/

section Examples

open Fixture

theorem sample_conserved : ∃ plan actions,
    sampleRequest.Plans MemoryActionSink.toActionSink sampleSink plan actions ∧
      Conserved sampleRequest actions := by
  obtain ⟨plan, plans⟩ := sample_plans
  refine ⟨plan, _, plans, (conserved_iff_oneSpacePerTarget plans).mpr ?_⟩
  unfold MergeRequest.OneSpacePerTarget
  decide

/-- Ada under her name in one space. -/
def adaOf (sequence : Fin (2 ^ 48)) : MergeResult MemorySnapshot :=
  memorySnapshot (snapshotId 20) (space sequence) 1
    [entity (space sequence) "ada" 30 "Ada" "person"] [] []

/-- A snapshot of source entities that are all called Ada. -/
def namesakes (names : List (String × Fin (2 ^ 48))) : MergeResult MemorySnapshot :=
  memorySnapshot (snapshotId 21) (space 2) 2
    (names.map fun name => entity (space 2) name.1 name.2 "Ada" "person") [] []

def twoSpacesTarget : MemorySnapshot := unwrap (adaOf 1) (by decide)

def twoSpacesSource : MemorySnapshot :=
  unwrap (namesakes [("countess", 40), ("lovelace", 41)]) (by decide)

/-- Receipts for the first namesake against the target, and for the second against
another space. -/
def twoSpacesReceipts : Option PlanningReceipts := do
  let other ← (adaOf 3).toOption
  let first ← (namesakes [("countess", 40)]).toOption
  let last ← (namesakes [("lovelace", 41)]).toOption
  let here ← planningReceipts twoSpacesTarget first samplePolicy [("ada", "countess")]
  let there ← planningReceipts other last samplePolicy [("ada", "lovelace")]
  pure ⟨here.discoveries ++ there.discoveries, here.resolutions ++ there.resolutions, []⟩

theorem twoSpaces_planned : twoSpacesReceipts.isSome = true := by decide

def twoSpacesRequest : MergeRequest :=
  ⟨twoSpacesTarget.toSource, twoSpacesSource.toSource, Option.get _ twoSpaces_planned,
    sampleMergePolicy⟩

theorem twoSpaces_succeeds :
    ((twoSpacesRequest.run MemoryActionSink.toActionSink.recorded).run
      (sampleSink, [])).1.toOption.isSome = true := by decide +kernel

/-- Two source entities become one target entity, which one of the receipts names in
another space. -/
theorem twoSpaces_not_conserved : ∃ plan actions,
    twoSpacesRequest.Plans MemoryActionSink.toActionSink sampleSink plan actions ∧
      ¬ Conserved twoSpacesRequest actions := by
  obtain ⟨plan, plans⟩ := plans_of_succeeds twoSpaces_succeeds
  refine ⟨plan, _, plans, fun conserved => ?_⟩
  have injective := conserved.coalesced_injective
  revert injective
  decide +kernel

end Examples

end OpenMemory.Merge
