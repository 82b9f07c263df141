import OpenMemory.Merge.Fixture
import OpenMemory.Merge.Agreement
import OpenMemory.Merge.Origins

/-!
# The planner against its reference

A successful run emits the actions of the reference, with the counts and the
accounting of the reference, unless a source observation comes to a target
entity that already holds two observations with its lifecycle and content
(`Ambiguous`). There the planner merges the source observation into the first
of the two and the reference into the last. Target relations cannot repeat a
key, so relations always agree.
-/

namespace OpenMemory.Merge

open Foundation

/-! ## Keys and their bytes -/

theorem observationKeyBytes_injOn : Set.InjOn observationKeyBytes
    {key | ShortText key.2.2} := by
  intro left shortLeft right shortRight same
  have fields := List.append_cancel_left same
  obtain ⟨result, rest⟩ := selfDelimiting_encodeResultId.read fields
  obtain ⟨lifecycle, rest⟩ := Canonical.selfDelimiting_u16 (Lifecycle.toNat_lt _)
    (Lifecycle.toNat_lt _) rest
  have content := Canonical.selfDelimiting_text.injective shortLeft shortRight rest
  exact Prod.ext result (Prod.ext (Lifecycle.toNat_injective lifecycle) content)

theorem relationKeyBytes_injOn : Set.InjOn relationKeyBytes {key | ShortText key.2.1} := by
  intro left shortLeft right shortRight same
  have fields := List.append_cancel_left same
  obtain ⟨subject, rest⟩ := selfDelimiting_encodeResultId.read fields
  obtain ⟨predicate, rest⟩ := Canonical.selfDelimiting_text shortLeft shortRight rest
  obtain ⟨object, rest⟩ := selfDelimiting_encodeResultId.read rest
  have lifecycle := Canonical.selfDelimiting_u16.injective (Lifecycle.toNat_lt _)
    (Lifecycle.toNat_lt _) rest
  exact Prod.ext subject (Prod.ext predicate (Prod.ext object
    (Lifecycle.toNat_injective lifecycle)))

theorem observationOrder_injective : Function.Injective observationOrder := by
  intro left right same
  obtain ⟨result, rest⟩ := Prod.mk.inj (toLex.injective same)
  exact Prod.ext result (toLex.injective rest)

theorem relationOrder_injective : Function.Injective relationOrder := by
  intro left right same
  obtain ⟨subject, rest⟩ := Prod.mk.inj (toLex.injective same)
  obtain ⟨predicate, rest⟩ := Prod.mk.inj (toLex.injective rest)
  exact Prod.ext subject (Prod.ext predicate (toLex.injective rest))

namespace MergeAction

/-- The key bytes that are hashed to index the record of an action. -/
def indexKeyBytes : MergeAction → Option Bytes
  | keepTargetObservation target resultEntity =>
    some (observationKeyBytes (resultEntity, target.lifecycle, target.content))
  | addObservation source _ resultEntity =>
    some (observationKeyBytes (resultEntity, source.lifecycle, source.content))
  | mergeObservationOrigin source _ resultEntity =>
    some (observationKeyBytes (resultEntity, source.lifecycle, source.content))
  | keepTargetRelation target resultSubject resultObject => some (relationKeyBytes
      (resultSubject, target.predicate, resultObject, target.lifecycle))
  | addRelation source _ resultSubject resultObject => some (relationKeyBytes
      (resultSubject, source.predicate, resultObject, source.lifecycle))
  | mergeRelationOrigin source _ resultSubject resultObject => some (relationKeyBytes
      (resultSubject, source.predicate, resultObject, source.lifecycle))
  | _ => none

end MergeAction

/-- The byte strings whose hashes a run compares: index keys and origin tokens. -/
def comparedStrings (actions : List MergeAction) : Set Bytes :=
  {bytes | bytes ∈ actions.filterMap MergeAction.indexKeyBytes ∨
    bytes ∈ (broughtOrigins actions).map BroughtOrigin.bytes}

/-- A source observation of a coalesced entity, and two observations of the target
entity it is coalesced into, all with the same lifecycle and content. -/
def MergeRequest.Ambiguous (request : MergeRequest) : Prop :=
  ∃ resolution ∈ request.receipts.resolutions, resolution.decision = .same ∧
    ∃ record ∈ request.source.observations.records,
      record.entity.logicalId = resolution.source.address.logicalId ∧
      ∃ first ∈ request.target.observations.records,
        ∃ last ∈ request.target.observations.records, first ≠ last ∧
          ∀ held ∈ [first, last],
            held.entity.logicalId = resolution.target.address.logicalId ∧
              held.lifecycle = record.lifecycle ∧ held.content = record.content

/-! ## Comparing what is found -/

section Landings

variable [Blake3] {R K κ : Type} [BEq K] [LawfulBEq K] [BEq κ] [LawfulBEq κ]
  {address : R → ObjectAddress} {digest : K → SemanticHash} {order : K → κ}
  {action : Landing R K → MergeAction} {held : List (K × ResultObjectId)} {ids : Finset String}
  {landings : List (Landing R K)}

omit [Blake3] [BEq K] [LawfulBEq K] in
/-- The actions are the same exactly when the same is found. -/
theorem refound_map_eq_iff {found : List (Option ResultObjectId)}
    (tells : ∀ (landing : Landing R K) found,
      action { landing with found := found } = action landing ↔ found = landing.found)
    (lengths : found.length = landings.length) :
    (refound landings found).map action = landings.map action ↔
      found = landings.map Landing.found := by
  induction landings generalizing found with
  | nil => simpa [refound] using lengths
  | cons first rest ih =>
    cases found with
    | nil => cases lengths
    | cons finds more =>
      have later := ih (Nat.succ.inj lengths)
      rw [refound] at later ⊢
      simp only [List.zipWith_cons_cons, List.map_cons, List.cons.injEq, later, tells]

/-- **The reference lands the records as the planner did** exactly when no record
comes under a key that two held entries have. -/
theorem Landed.refound_iff (landed : Landed address digest held ids landings)
    (tells : ∀ (landing : Landing R K) found,
      action { landing with found := found } = action landing ↔ found = landing.found)
    (ordered : Function.Injective order)
    (free : Set.InjOn digest
      {key | key ∈ (held ++ landings.map (Landing.entry address)).map Prod.fst})
    (distinct : (held.map Prod.snd).Nodup) :
    (relanded address order held landings).map action = landings.map action ↔
      ∀ landing ∈ landings, ∀ first ∈ held, ∀ last ∈ held,
        first.1 = landing.key → last.1 = landing.key → first.2 = last.2 := by
  have planner : landings.map Landing.found =
      arrivals held (landings.map (Landing.entry address)) := by
    rw [landed.found]
    exact arrivals_map free
  have reference : arrivals (held.map fun entry => (order entry.1, entry.2)).reverse
      (landings.map fun landing => (order landing.key,
        ResultObjectId.qualified (qualify (address landing.record)))) =
          arrivals held.reverse (landings.map (Landing.entry address)) := by
    rw [← List.map_reverse, ← arrivals_map (ordered.injOn), List.map_map]
    rfl
  have keys : ∀ key, held.reverse.lookup key = none ↔ held.lookup key = none := by
    intro key
    rw [lookup_eq_none_iff_not_mem, lookup_eq_none_iff_not_mem, List.map_reverse, List.mem_reverse]
  rw [relanded, reference, refound_map_eq_iff tells (by rw [length_arrivals, List.length_map]), planner,
    arrivals_eq_iff keys]
  simp only [List.forall_mem_map, Landing.entry]
  refine forall₂_congr fun landing _ => ?_
  rw [eq_comm, lookup_reverse_eq_iff distinct]

end Landings

theorem observationAction_tells [Blake3] (landing : ObservationLanding)
    (found : Option ResultObjectId) :
    observationAction { landing with found := found } = observationAction landing ↔
      found = landing.found := by
  obtain ⟨record, key, finds⟩ := landing
  cases found <;> cases finds <;> simp [observationAction]

theorem relationAction_tells [Blake3] (landing : RelationLanding)
    (found : Option ResultObjectId) :
    relationAction { landing with found := found } = relationAction landing ↔
      found = landing.found := by
  obtain ⟨record, key, finds⟩ := landing
  cases found <;> cases finds <;> simp [relationAction]

/-! ## A whole run -/

namespace Outcome

variable [Blake3] {request : MergeRequest} {decisions : Decisions}

theorem mem_observationStrings (outcome : Outcome request decisions) {key : ObservationKey}
    (member : key ∈ (request.target.observations.records.map heldObservation ++
      decisions.observations.map (Landing.entry ObservationRecord.address)).map Prod.fst) :
    ShortText key.2.2 ∧
      observationKeyBytes key ∈ comparedStrings (decisions.actions request.target) := by
  rw [List.map_append, List.map_map, List.map_map] at member
  rcases List.mem_append.mp member with held | arrived
  · obtain ⟨record, recordMember, rfl⟩ := List.mem_map.mp held
    refine ⟨record.content_short, .inl (List.mem_filterMap.mpr ⟨keepObservation record, ?_, rfl⟩)⟩
    exact List.mem_append_left _ (List.mem_append_right _ (List.mem_append_left _
      (List.mem_map_of_mem recordMember)))
  · obtain ⟨landing, landed, rfl⟩ := List.mem_map.mp arrived
    obtain ⟨_, rest⟩ := outcome.observations.rewired landing landed
    have same : (observationAction landing).indexKeyBytes =
        some (observationKeyBytes landing.key) := by
      have key : landing.key =
          (landing.key.1, landing.record.lifecycle, landing.record.content) :=
        Prod.ext rfl rest
      unfold observationAction
      cases landing.found <;> rw [key] <;> rfl
    refine ⟨?_, .inl (List.mem_filterMap.mpr ⟨observationAction landing, ?_, same⟩)⟩
    · have short := landing.record.content_short
      show ShortText landing.key.2.2
      rw [rest]
      exact short
    · exact List.mem_append_left _ (List.mem_append_right _ (List.mem_append_right _
        (List.mem_map_of_mem landed)))

theorem mem_relationStrings (outcome : Outcome request decisions) {key : RelationKey}
    (member : key ∈ (request.target.relations.records.map heldRelation ++
      decisions.relations.map (Landing.entry RelationRecord.address)).map Prod.fst) :
    ShortText key.2.1 ∧
      relationKeyBytes key ∈ comparedStrings (decisions.actions request.target) := by
  rw [List.map_append, List.map_map, List.map_map] at member
  rcases List.mem_append.mp member with held | arrived
  · obtain ⟨record, recordMember, rfl⟩ := List.mem_map.mp held
    refine ⟨record.predicate_short, .inl (List.mem_filterMap.mpr ⟨keepRelation record, ?_, rfl⟩)⟩
    exact List.mem_append_right _ (List.mem_append_left _ (List.mem_map_of_mem recordMember))
  · obtain ⟨landing, landed, rfl⟩ := List.mem_map.mp arrived
    obtain ⟨_, _, predicate, lifecycle⟩ := outcome.relations.rewired landing landed
    have same : (relationAction landing).indexKeyBytes =
        some (relationKeyBytes landing.key) := by
      have key : landing.key = (landing.key.1, landing.record.predicate, landing.key.2.2.1,
          landing.record.lifecycle) :=
        Prod.ext rfl (Prod.ext predicate (Prod.ext rfl lifecycle))
      unfold relationAction
      cases landing.found <;> rw [key] <;> rfl
    refine ⟨?_, .inl (List.mem_filterMap.mpr ⟨relationAction landing, ?_, same⟩)⟩
    · have short := landing.record.predicate_short
      show ShortText landing.key.2.1
      rw [predicate]
      exact short
    · exact List.mem_append_right _ (List.mem_append_right _ (List.mem_map_of_mem landed))

/-- A landing under a key that two target observations have makes the request ambiguous. -/
theorem ambiguous_iff (outcome : Outcome request decisions) :
    (∀ landing ∈ decisions.observations,
      ∀ first ∈ request.target.observations.records.map heldObservation,
        ∀ last ∈ request.target.observations.records.map heldObservation,
          first.1 = landing.key → last.1 = landing.key → first.2 = last.2) ↔
      ¬ request.Ambiguous := by
  constructor
  · rintro unique ⟨resolution, resolved, same, record, recordMember, itsEntity, first,
      firstMember, last, lastMember, different, agree⟩
    rw [← outcome.observations.records] at recordMember
    obtain ⟨landing, landed, rfl⟩ := List.mem_map.mp recordMember
    obtain ⟨becomes, rest⟩ := outcome.observations.rewired landing landed
    obtain ⟨settlement, settled, coalesces, itsId⟩ := outcome.coalesces_of_same resolved same
    have result : landing.key.1 = .target resolution.target.address.logicalId := by
      refine outcome.becomes_unique becomes ⟨settlement, settled, itsId.trans itsEntity.symm, ?_⟩
      have settles := (outcome.entities.valid settlement settled).settles
      rw [coalesces] at settles
      generalize settlement.disposition = disposition at settles ⊢
      cases settles
      rfl
    have keyed : ∀ held ∈ [first, last], (heldObservation held).1 = landing.key := by
      intro held member
      obtain ⟨entity, lifecycle, content⟩ := agree held member
      refine Prod.ext ?_ ?_
      · rw [result, ← entity]
        rfl
      · rw [rest, ← lifecycle, ← content]
        rfl
    have sameResult := unique landing landed _ (List.mem_map_of_mem firstMember) _
      (List.mem_map_of_mem lastMember) (keyed first (by simp)) (keyed last (by simp))
    have distinct := outcome.observations.target_orderly.nodup_logicalIds
    rw [List.map_map] at distinct
    exact different (List.inj_on_of_nodup_map distinct firstMember lastMember
      (ResultObjectId.target.inj sameResult))
  · intro clear landing landed firstEntry firstHeld lastEntry lastHeld firstKey lastKey
    obtain ⟨first, firstMember, rfl⟩ := List.mem_map.mp firstHeld
    obtain ⟨last, lastMember, rfl⟩ := List.mem_map.mp lastHeld
    by_contra different
    refine clear ?_
    obtain ⟨⟨settlement, settled, itsId, itsResult⟩, rest⟩ :=
      outcome.observations.rewired landing landed
    have entity : ∀ held : ObservationRecord, (heldObservation held).1 = landing.key →
        settlement.disposition.resultId = .target held.entity.logicalId ∧
          held.lifecycle = landing.record.lifecycle ∧ held.content = landing.record.content := by
      intro held keyed
      have pair : (held.lifecycle, held.content) =
          (landing.record.lifecycle, landing.record.content) := by
        rw [← rest, ← keyed]
        rfl
      rw [itsResult, ← keyed]
      exact ⟨rfl, Prod.mk.inj pair⟩
    have settles := (outcome.entities.valid settlement settled).settles
    obtain ⟨firstEntity, firstFacts⟩ := entity first firstKey
    obtain ⟨lastEntity, lastFacts⟩ := entity last lastKey
    generalize settlement.disposition = disposition at settles firstEntity lastEntity
    generalize planned : settlement.planned.disposition = plan at settles
    cases settles with
    | add => cases firstEntity
    | coalesce target receipt _ _ _ _ _ =>
      obtain ⟨discovery, _, resolution, resolved, _, _, same, itsSource, rfl, _, plans⟩ :=
        outcome.same_of_coalesces settled planned
      refine ⟨resolution, resolved, same, landing.record, ?_, ?_, first, firstMember, last,
        lastMember, ?_, ?_⟩
      · rw [← outcome.observations.records]
        exact List.mem_map_of_mem landed
      · rw [← itsId, outcome.settlement_logicalId settled plans, itsSource]
      · rintro rfl
        exact different rfl
      · intro held member
        simp only [List.mem_cons, List.not_mem_nil, or_false] at member
        rcases member with rfl | rfl
        · exact ⟨(ResultObjectId.target.inj firstEntity).symm, firstFacts⟩
        · exact ⟨(ResultObjectId.target.inj lastEntity).symm, lastFacts⟩

/-- The map of the reference knows what every source entity has become. -/
theorem lastByKey_becomes (outcome : Outcome request decisions) {id : LogicalId}
    {result : ResultObjectId} (becomes : Becomes decisions.settlements id result) :
    (lastByKey (decisions.settlements.map fun settlement =>
      (settlement.record.address.logicalId, settlement.disposition.resultId)))[id]? =
        some result := by
  obtain ⟨settlement, settled, rfl, rfl⟩ := becomes
  refine lastByKey_eq_some (List.mem_map.mpr ⟨settlement, settled, rfl⟩) ?_
  intro other listed
  obtain ⟨another, anotherMember, sameEntry⟩ := List.mem_map.mp listed
  obtain ⟨sameId, rfl⟩ := Prod.mk.inj sameEntry
  rw [outcome.settlement_unique anotherMember settled sameId]

section Reference

variable {target source : MemorySnapshot} {receipts : PlanningReceipts} {policy : MergePolicy}

variable (outcome : Outcome ⟨target.toSource, source.toSource, receipts, policy⟩ decisions)

include outcome

theorem referenceEntities_run : source.entities.foldlM (referenceEntity receipts)
        ⟨∅, target.entities.map .keepTargetEntity⟩ =
      some ⟨lastByKey (decisions.settlements.map fun settlement =>
          (settlement.record.address.logicalId, settlement.disposition.resultId)),
        decisions.entityActions target.toSource⟩ := by
  have records : source.entities = decisions.settlements.map Settlement.record :=
    outcome.entities.records.symm
  rw [records]
  exact referenceEntity_run (fun settlement => outcome.referenceDisposition_eq) _

theorem referenceObservations_run (actions : List MergeAction) :
    ∃ final, source.observations.foldlM (referenceObservation (lastByKey
        (decisions.settlements.map fun settlement =>
          (settlement.record.address.logicalId, settlement.disposition.resultId))))
        ⟨lastByKey (target.observations.map fun record =>
          (observationOrder (heldObservation record).1, (heldObservation record).2)), actions⟩ =
        some final ∧
      final.actions = actions ++ (relanded ObservationRecord.address observationOrder
        (target.observations.map heldObservation) decisions.observations).map
          observationAction := by
  have records : source.observations = decisions.observations.map Landing.record :=
    outcome.observations.records.symm
  rw [records, relanded, List.map_map]
  refine referenceLand_run ?_ (indexes_lastByKey _)
  intro landing landed
  obtain ⟨becomes, rest⟩ := outcome.observations.rewired landing landed
  rw [outcome.lastByKey_becomes becomes, Option.bind_eq_bind, Option.bind_some, ← rest]
  rfl

theorem referenceRelations_run (actions : List MergeAction) :
    ∃ final, source.relations.foldlM (referenceRelation (lastByKey
        (decisions.settlements.map fun settlement =>
          (settlement.record.address.logicalId, settlement.disposition.resultId))))
        ⟨lastByKey (target.relations.map fun record =>
          (relationOrder (heldRelation record).1, (heldRelation record).2)), actions⟩ =
        some final ∧
      final.actions = actions ++ (relanded RelationRecord.address relationOrder
        (target.relations.map heldRelation) decisions.relations).map relationAction := by
  have records : source.relations = decisions.relations.map Landing.record :=
    outcome.relations.records.symm
  rw [records, relanded, List.map_map]
  refine referenceLand_run ?_ (indexes_lastByKey _)
  intro landing landed
  obtain ⟨subject, object, predicate, lifecycle⟩ := outcome.relations.rewired landing landed
  rw [outcome.lastByKey_becomes subject, outcome.lastByKey_becomes object, ← predicate, ← lifecycle]
  rfl

/-- The reference on the inputs of a successful run. -/
theorem referenceActions_run :
    referenceActions target source receipts = some (decisions.entityActions target.toSource ++
      (target.observations.map keepObservation ++ (relanded ObservationRecord.address
        observationOrder (target.observations.map heldObservation) decisions.observations).map
          observationAction) ++
      (target.relations.map keepRelation ++ (relanded RelationRecord.address relationOrder
        (target.relations.map heldRelation) decisions.relations).map relationAction)) := by
  obtain ⟨observations, observationsRun, observationActions⟩ :=
    outcome.referenceObservations_run (decisions.entityActions target.toSource ++
      target.observations.map keepObservation)
  obtain ⟨relations, relationsRun, relationActions⟩ :=
    outcome.referenceRelations_run (observations.actions ++ target.relations.map keepRelation)
  rw [referenceActions, outcome.referenceEntities_run]
  simp only [Option.bind_eq_bind, Option.bind_some, observationsRun, relationsRun]
  simp only [relationActions, observationActions, List.append_assoc, Option.pure_def]

/-- The reference emits the actions of the run exactly when no source observation is
ambiguous. -/
theorem referenceActions_eq_iff
    (free : CollisionFree (comparedStrings (decisions.actions target.toSource))) :
    referenceActions target source receipts = some (decisions.actions target.toSource) ↔
      ¬ MergeRequest.Ambiguous ⟨target.toSource, source.toSource, receipts, policy⟩ := by
  have observationsFree : Set.InjOn observationKey {key | key ∈
      (target.observations.map heldObservation ++
        decisions.observations.map (Landing.entry ObservationRecord.address)).map Prod.fst} := by
    intro left leftMember right rightMember same
    obtain ⟨leftShort, leftCompared⟩ := outcome.mem_observationStrings leftMember
    obtain ⟨rightShort, rightCompared⟩ := outcome.mem_observationStrings rightMember
    exact observationKeyBytes_injOn leftShort rightShort
      (free leftCompared rightCompared (congrArg TypedHash.digest same))
  have relationsFree : Set.InjOn relationKey {key | key ∈
      (target.relations.map heldRelation ++
        decisions.relations.map (Landing.entry RelationRecord.address)).map Prod.fst} := by
    intro left leftMember right rightMember same
    obtain ⟨leftShort, leftCompared⟩ := outcome.mem_relationStrings leftMember
    obtain ⟨rightShort, rightCompared⟩ := outcome.mem_relationStrings rightMember
    exact relationKeyBytes_injOn leftShort rightShort
      (free leftCompared rightCompared (congrArg TypedHash.digest same))
  have observationResults : ((target.observations.map heldObservation).map Prod.snd).Nodup := by
    have distinct := outcome.observations.target_orderly.nodup_logicalIds.map
      fun _ _ same => ResultObjectId.target.inj same
    rw [List.map_map, List.map_map] at distinct
    rw [List.map_map]
    exact distinct
  have relationResults : ((target.relations.map heldRelation).map Prod.snd).Nodup := by
    have distinct := outcome.relations.target_orderly.nodup_logicalIds.map
      fun _ _ same => ResultObjectId.target.inj same
    rw [List.map_map, List.map_map] at distinct
    rw [List.map_map]
    exact distinct
  -- target relations have distinct keys, so the first and the last of them are one
  have relationsAgree : (relanded RelationRecord.address relationOrder
      (target.relations.map heldRelation) decisions.relations).map relationAction =
        decisions.relations.map relationAction := by
    refine (outcome.relations.landed.refound_iff relationAction_tells relationOrder_injective
      relationsFree relationResults).mpr ?_
    intro landing _ first firstMember last lastMember firstKey lastKey
    have distinct := List.Nodup.of_map relationKey
      (l := (target.relations.map heldRelation).map Prod.fst) (by
        rw [List.map_map, List.map_map]
        exact outcome.relations.distinct)
    rw [List.inj_on_of_nodup_map distinct firstMember lastMember (firstKey.trans lastKey.symm)]
  rw [outcome.referenceActions_run, relationsAgree, ← outcome.ambiguous_iff,
    ← outcome.observations.landed.refound_iff observationAction_tells observationOrder_injective
      observationsFree observationResults]
  rw [Decisions.actions, Decisions.observationActions, Decisions.relationActions, Option.some.injEq]
  constructor
  · intro same
    exact List.append_cancel_left (List.append_cancel_left (List.append_cancel_right same))
  · intro same
    exact congrArg (fun landed => decisions.entityActions target.toSource ++
      (target.observations.map keepObservation ++ landed) ++
        (target.relations.map keepRelation ++ decisions.relations.map relationAction)) same

end Reference

end Outcome

/-- **A successful run agrees with the reference**, in its actions, its counts and its
accounting, if and only if no source observation is ambiguous. -/
theorem agrees_with_reference_iff [Blake3] {σ : Type} {target source : MemorySnapshot}
    {receipts : PlanningReceipts} {policy : MergePolicy} {sink : ActionSink σ} {s : σ}
    {plan : MergePlan} {actions : List MergeAction}
    (plans : MergeRequest.Plans ⟨target.toSource, source.toSource, receipts, policy⟩ sink s plan
      actions)
    (free : CollisionFree (comparedStrings actions)) :
    (referenceActions target source receipts = some actions ∧
      plan.actionCounts = referenceActionCounts actions ∧
      referenceAccounting actions receipts = some plan.accounting) ↔
    ¬ MergeRequest.Ambiguous ⟨target.toSource, source.toSource, receipts, policy⟩ := by
  obtain ⟨decisions, outcome, rfl, summarizes⟩ := plans.outcome
  have counts : plan.actionCounts = referenceActionCounts (decisions.actions target.toSource) :=
    summarizes.actionCounts.trans (referenceActionCounts_eq _).symm
  have accounting : referenceAccounting (decisions.actions target.toSource) receipts =
      some plan.accounting := by
    obtain ⟨maps, built, described⟩ := materialize_describes outcome.assembled
    have retained := retained_eq outcome.assembled described
      (free.mono fun bytes member => .inr member)
    have consumed := outcome.prepared.accounting_eq
    have itsAccounting := summarizes.accounting
    rw [counts] at itsAccounting
    rw [referenceAccounting, built, itsAccounting, consumed]
    simp only [Option.bind_eq_bind, Option.bind_some, Option.pure_def]
    exact congrArg some (by rw [← retained])
  rw [← outcome.referenceActions_eq_iff free]
  exact ⟨fun agrees => agrees.1, fun agrees => ⟨agrees, counts, accounting⟩⟩

/-! ## Examples -/

section Examples

open Fixture

instance (request : MergeRequest) : Decidable request.Ambiguous :=
  inferInstanceAs (Decidable (∃ resolution ∈ request.receipts.resolutions, _))

/-- The strings that are compared for some actions, as a list. -/
def comparedList (actions : List MergeAction) : List Bytes :=
  actions.filterMap MergeAction.indexKeyBytes ++ (broughtOrigins actions).map BroughtOrigin.bytes

/-- The hashes tell the strings that are compared apart. -/
def ComparedApart (actions : List MergeAction) : Prop :=
  ∀ left ∈ comparedList actions, ∀ right ∈ comparedList actions,
    Blake3.hash left = Blake3.hash right → left = right

instance (actions : List MergeAction) : Decidable (ComparedApart actions) :=
  inferInstanceAs (Decidable (∀ left ∈ _, ∀ right ∈ _, _))

theorem ComparedApart.free {actions : List MergeAction} (apart : ComparedApart actions) :
    CollisionFree (comparedStrings actions) :=
  collisionFree_of_list (comparedList actions) (fun _ member => List.mem_append.mpr member) apart

theorem sample_compared : CollisionFree (comparedStrings sampleActions) :=
  (of_sample (P := ComparedApart) (by decide +kernel)).free

theorem sample_agrees : ∃ plan actions,
    sampleRequest.Plans MemoryActionSink.toActionSink sampleSink plan actions ∧
      referenceActions sampleTarget sampleSource sampleRequest.receipts = some actions ∧
      plan.actionCounts = referenceActionCounts actions ∧
      referenceAccounting actions sampleRequest.receipts = some plan.accounting := by
  obtain ⟨plan, plans⟩ := sample_plans
  exact ⟨plan, _, plans, (agrees_with_reference_iff plans sample_compared).mpr (by decide)⟩

/-- A target that knows the same about Ada twice. -/
def twiceTarget : MemorySnapshot :=
  unwrap (memorySnapshot (snapshotId 20) (space 1) 1 [entity (space 1) "ada" 30 "Ada" "person"]
    [observation (space 1) "first" "ada" 31 "born in 1815",
      observation (space 1) "last" "ada" 32 "born in 1815"] []) (by decide)

def onceSource : MemorySnapshot :=
  unwrap (memorySnapshot (snapshotId 21) (space 2) 2 [entity (space 2) "ada" 40 "Ada" "person"]
    [observation (space 2) "birth" "ada" 41 "born in 1815"] []) (by decide)

theorem twice_planned : (planningReceipts twiceTarget onceSource samplePolicy
    [("ada", "ada")]).isSome = true := by decide

def twiceRequest : MergeRequest := requestOf twiceTarget onceSource _ twice_planned

def twiceActions : List MergeAction :=
  acceptedActions ((twiceRequest.run MemoryActionSink.toActionSink.recorded).run
    (sampleSink, [])).2.2

theorem twice_evaluated : ((twiceRequest.run MemoryActionSink.toActionSink.recorded).run
      (sampleSink, [])).1.toOption.isSome = true ∧
    ComparedApart twiceActions ∧
    referenceActions twiceTarget onceSource twiceRequest.receipts ≠ some twiceActions := by
  decide +kernel

theorem twice_succeeds : ((twiceRequest.run MemoryActionSink.toActionSink.recorded).run
    (sampleSink, [])).1.toOption.isSome = true := twice_evaluated.1

/-- The planner merges into the first of the two observations, the reference into the last. -/
theorem twice_disagrees : ∃ plan actions,
    twiceRequest.Plans MemoryActionSink.toActionSink sampleSink plan actions ∧
      CollisionFree (comparedStrings actions) ∧
      referenceActions twiceTarget onceSource twiceRequest.receipts ≠ some actions := by
  obtain ⟨plan, plans⟩ := plans_of_succeeds twice_succeeds
  exact ⟨plan, twiceActions, plans, twice_evaluated.2.1.free, twice_evaluated.2.2⟩

end Examples

end OpenMemory.Merge
