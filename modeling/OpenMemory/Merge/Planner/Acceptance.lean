import OpenMemory.Merge.Planner.Limit

/-!
# Runs that succeed

A sink may accept every call. Against it a run succeeds when its script does
(`plans_accepting`). The smallest merge that coalesces anything has one entity
on each side and nothing else; it succeeds whenever the receipts plan the
coalescence, whatever the two records hold besides their identity
(`plans_single`).
-/

namespace OpenMemory.Merge

open Foundation Canonical

variable [Blake3]

/-! ## Accepting everything -/

/-- The sink that accepts every call. -/
def acceptingSink : ActionSink Unit where
  begin _ := pure ()
  emit _ := pure ()
  finish _ := pure ()
  abort := id

omit [Blake3] in
theorem feed_accepting (actions : List MergeAction) :
    (feed acceptingSink.emit actions).run () = (.ok (), ()) := by
  induction actions with
  | nil => rfl
  | cons first rest ih => exact ih

/-- Against a sink that accepts every call, a run succeeds when its script does. -/
theorem MergeRequest.plans_accepting {request : MergeRequest} {plan : MergePlan}
    (valid : validateHeaders request.target.header request.source.header = .ok ())
    (planned : request.script.result = .ok plan) :
    request.Plans acceptingSink () plan request.script.emitted := by
  obtain ⟨result, s', calls, _, recorded, ran⟩ := request.run_ran acceptingSink ()
  rw [MergeRequest.Plans, recorded]
  cases ran with
  | headersRefused error invalid =>
    rw [valid] at invalid
    cases invalid
  | beginRefused error s' _ answer => cases answer
  | bodyFailed error begun after fed entries _ _ emitted _ failed =>
    have accepted := feed_accepting request.script.emitted
    rw [show begun = () from rfl, accepted] at emitted
    cases emitted
    rcases failed with impossible | ⟨_, failed⟩
    · cases impossible
    · rw [planned] at failed
      cases failed
  | finishRefused error plan begun after last _ _ _ _ refused => cases refused
  | finished other begun after last _ _ _ made _ =>
    rw [planned] at made
    cases made
    refine ⟨rfl, ?_⟩
    rw [acceptedActions, List.cons_append, List.filterMap_cons_none rfl, List.filterMap_append]
    exact (List.append_nil _).trans (acceptedActions_emits _)

/-- Where its survey succeeds and the limit is not reached, a run succeeds with the surveyed
actions. -/
theorem MergeRequest.plans_of_survey {request : MergeRequest} {counts : ActionCounts}
    {actions : List MergeAction} (surveyed : request.survey = .ok (counts, actions))
    (below : counts.totalActions < maxActions) :
    ∃ plan, request.Plans acceptingSink () plan actions := by
  obtain ⟨total, within, _⟩ := MergeRequest.survey_within surveyed
  obtain ⟨plan, kept, made, rfl⟩ := within (total ▸ below)
  obtain ⟨planned, emitted⟩ := Prod.mk.inj made
  exact ⟨plan, emitted ▸ MergeRequest.plans_accepting (headers_of_survey surveyed) planned⟩

/-! ## What a verifier accepts -/

omit [Blake3] in
theorem advance_eq {L R : Type} {visitor : Visitor L R} {progress : Progress L} {record : R}
    {locals : L} {counts : ActionCounts} {action : MergeAction}
    (step : visitor progress.locals progress.counts record = .ok (locals, counts, action)) :
    advance visitor progress record = .ok ⟨locals, counts, progress.actions ++ [action]⟩ := by
  rw [advance, step]
  rfl

omit [Blake3] in
theorem SnapshotVerifier.absorbRecord_eq {verifier : SnapshotVerifier} {stage : Nat}
    {address : ObjectAddress} {encoded : Bytes} {hasher : CanonicalHasher}
    (here : verifier.stage = stage ∧ address.space = verifier.expected.spaceId)
    (above : ¬ ∃ previous ∈ verifier.previous, previous ≥ address)
    (hash : verifier.hash = some hasher) :
    verifier.absorbRecord stage address encoded =
      .ok { verifier with previous := some address, hash := some (hasher.absorb encoded) } := by
  rw [absorbRecord, ensureRecord, refuseIf_neg (not_not.mpr here.1),
    refuseIf_neg (not_not.mpr here.2), refuseIf_neg above]
  simp [hashMut, orRefuse, hash, bind, Except.bind, pure, Except.pure]

namespace MemorySnapshot

variable (snapshot : MemorySnapshot)

/-- What is hashed before the first record. -/
def started : CanonicalHasher :=
  (CanonicalHasher.new "openmemory/space-snapshot/v1").absorb
    (u16 snapshot.header.formatVersion ++ (idText snapshot.header.snapshotId ++
      (idText snapshot.header.spaceId ++ (encodeSpaceVersion snapshot.header.spaceVersion ++
        u64 snapshot.header.entityCount))))

/-- The verifier that has seen these entities. -/
def afterEntities (seen : List EntityRecord) : SnapshotVerifier where
  expected := snapshot.header
  hash := some (snapshot.started.absorb (seen.flatMap encodeEntity))
  previous := (seen.map EntityRecord.address).getLast?
  entities := seen.length
  observations := 0
  relations := 0
  stage := 1

/-- The verifier that has seen all entities and these observations. -/
def afterObservations (seen : List ObservationRecord) : SnapshotVerifier where
  expected := snapshot.header
  hash := some (snapshot.started.absorb (snapshot.entities.flatMap encodeEntity ++
    (u64 snapshot.header.observationCount ++ seen.flatMap encodeObservation)))
  previous := (seen.map ObservationRecord.address).getLast?
  entities := snapshot.entities.length
  observations := seen.length
  relations := 0
  stage := 2

/-- The verifier that has seen all entities and observations. -/
def beforeRelations : SnapshotVerifier where
  expected := snapshot.header
  hash := some (snapshot.started.absorb (snapshot.entities.flatMap encodeEntity ++
    (u64 snapshot.header.observationCount ++ (snapshot.observations.flatMap encodeObservation ++
      u64 snapshot.header.relationCount))))
  previous := none
  entities := snapshot.entities.length
  observations := snapshot.observations.length
  relations := 0
  stage := 3

theorem verifier_started :
    SnapshotVerifier.new snapshot.header = .ok (snapshot.afterEntities []) := by
  rw [SnapshotVerifier.new, refuseIf_neg (not_not.mpr snapshot.format)]
  simp [afterEntities, started, CanonicalHasher.absorb_absorb, bind, Except.bind, pure, Except.pure]

omit [Blake3] in
/-- In a sorted list every address is above the last one before it. -/
theorem not_above {R : Type} {address : R → ObjectAddress} {records seen rest : List R} {record : R}
    (sorted : (records.map address).Pairwise (· < ·)) (split : seen ++ record :: rest = records) :
    ¬ ∃ previous ∈ (seen.map address).getLast?, previous ≥ address record := by
  rintro ⟨previous, isLast, reaches⟩
  rw [← split, List.map_append, List.pairwise_append] at sorted
  exact absurd (sorted.2.2 previous (List.mem_of_getLast? isLast) _ (by simp)) (not_lt.mpr reaches)

theorem entity_seen {seen rest : List EntityRecord} {record : EntityRecord}
    (split : seen ++ record :: rest = snapshot.entities) :
    (snapshot.afterEntities seen).entity record =
      .ok (snapshot.afterEntities (seen ++ [record])) := by
  have here := snapshot.formed.entities_here record.address (List.mem_map_of_mem (split ▸ by simp))
  have absorbed : (snapshot.afterEntities seen).absorbRecord 1 record.address (encodeEntity record) =
      .ok _ := SnapshotVerifier.absorbRecord_eq ⟨rfl, here⟩
        (not_above snapshot.formed.entities_sorted split) rfl
  rw [SnapshotVerifier.entity, absorbed]
  simp [afterEntities, CanonicalHasher.absorb_absorb, bind, Except.bind, pure, Except.pure]

theorem entities_ended :
    (snapshot.afterEntities snapshot.entities).endEntities =
      .ok (snapshot.afterObservations []) := by
  rw [SnapshotVerifier.endEntities, refuseIf_neg (by simp [afterEntities, snapshot.entity_count])]
  simp [afterEntities, afterObservations, SnapshotVerifier.nextSection, SnapshotVerifier.hashMut,
    orRefuse, CanonicalHasher.absorb_absorb, bind, Except.bind, pure, Except.pure]

theorem observation_seen {seen rest : List ObservationRecord} {record : ObservationRecord}
    (split : seen ++ record :: rest = snapshot.observations) :
    (snapshot.afterObservations seen).observation record =
      .ok (snapshot.afterObservations (seen ++ [record])) := by
  have here := snapshot.formed.observations_here record.address
    (List.mem_map_of_mem (split ▸ by simp))
  have absorbed : (snapshot.afterObservations seen).absorbRecord 2 record.address (encodeObservation record) =
      .ok _ := SnapshotVerifier.absorbRecord_eq ⟨rfl, here⟩
        (not_above snapshot.formed.observations_sorted split) rfl
  rw [SnapshotVerifier.observation, absorbed]
  simp [afterObservations, CanonicalHasher.absorb_absorb, bind, Except.bind, pure, Except.pure]

theorem observations_ended :
    (snapshot.afterObservations snapshot.observations).endObservations =
      .ok snapshot.beforeRelations := by
  rw [SnapshotVerifier.endObservations,
    refuseIf_neg (by simp [afterObservations, snapshot.observation_count])]
  simp [afterObservations, beforeRelations, SnapshotVerifier.nextSection, SnapshotVerifier.hashMut,
    orRefuse, CanonicalHasher.absorb_absorb, bind, Except.bind, pure, Except.pure]

theorem relations_ended (none_ : snapshot.relations = []) :
    ∃ finished, snapshot.beforeRelations.finish = .ok finished := by
  have hashed := congrArg Prod.fst snapshot.hashed
  have relationCount : snapshot.header.relationCount = 0 := by
    rw [snapshot.relation_count, none_]
    rfl
  have sameHash : (snapshot.started.absorb (snapshot.entities.flatMap encodeEntity ++
      (u64 snapshot.header.observationCount ++ (snapshot.observations.flatMap encodeObservation ++
        u64 snapshot.header.relationCount)))).finish .snapshot = snapshot.header.hash := by
    refine Eq.trans ?_ hashed.symm
    have fits (n : Nat) (bounded : n ≤ maxSnapshotRecords) : min n 18446744073709551615 = n :=
      Nat.min_eq_left (bounded.trans (by decide))
    have entities := fits _ snapshot.formed.entities_bounded
    have observations := fits _ snapshot.formed.observations_bounded
    simp [computeSnapshotHash, started, CanonicalHasher.absorb, counted, u64, lengthBytes,
      snapshot.format, snapshot.entity_count, snapshot.observation_count, snapshot.relation_count,
      none_, entities, observations]
  rw [SnapshotVerifier.finish, refuseIf_neg (by simp [beforeRelations, relationCount])]
  simp [beforeRelations, SnapshotVerifier.hashMut, orRefuse, bind, Except.bind, refuseIf, sameHash,
    pure, Except.pure]

/-! ## The target alone -/

omit [Blake3] in
/-- The records of a section differ in their identifiers. -/
theorem fresh_id {R : Type} {address : R → ObjectAddress} {records seen rest : List R}
    {record earlier : R} {space : SpaceId} (sorted : (records.map address).Pairwise (· < ·))
    (here : ∀ value ∈ records.map address, value.space = space)
    (split : seen ++ record :: rest = records) (member : earlier ∈ seen) :
    (address earlier).logicalId ≠ (address record).logicalId := by
  intro same
  have spaces : (address earlier).space = (address record).space :=
    (here _ (List.mem_map_of_mem (by simp [← split, member]))).trans
      (here _ (List.mem_map_of_mem (by simp [← split]))).symm
  rw [← split, List.map_append, List.pairwise_append] at sorted
  have below := sorted.2.2 _ (List.mem_map_of_mem member) (address record) (by simp)
  exact below.ne (congrArg₂ ObjectAddress.mk spaces same)

/-- The survey has kept these target entities. -/
structure KeptEntities (seen : List EntityRecord) (progress : Progress TargetEntities) : Prop where
  verifier : progress.locals.verifier = snapshot.afterEntities seen
  only : ∀ id, progress.locals.revisions[id]? ≠ none →
    ∃ record ∈ seen, record.address.logicalId = id
  revisions : ∀ record ∈ seen,
    progress.locals.revisions[record.address.logicalId]? = some record.revision
  counts : progress.counts = { targetEntities := seen.length }
  actions : progress.actions = seen.map .keepTargetEntity

variable {snapshot}

theorem KeptEntities.step {seen rest : List EntityRecord} {record : EntityRecord}
    {progress : Progress TargetEntities} (split : seen ++ record :: rest = snapshot.entities)
    (kept : snapshot.KeptEntities seen progress) :
    ∃ after, advance visitTargetEntity progress record = .ok after ∧
      snapshot.KeptEntities (seen ++ [record]) after := by
  have differ (earlier : EntityRecord) (member : earlier ∈ seen) :=
    fresh_id snapshot.formed.entities_sorted snapshot.formed.entities_here split member
  have fresh : ¬ (progress.locals.revisions[record.address.logicalId]?).isSome = true := by
    intro held
    obtain ⟨earlier, member, same⟩ := kept.only _ (by
      intro absent
      rw [absent] at held
      cases held)
    exact differ earlier member same
  have step := entity_seen snapshot split
  rw [← kept.verifier] at step
  have visited : visitTargetEntity progress.locals progress.counts record = .ok _ :=
    bind_eq_ok.mpr ⟨_, step, bind_eq_ok.mpr ⟨(), refuseIf_neg fresh, rfl⟩⟩
  refine ⟨_, advance_eq visited, rfl, ?_, ?_, ?_, ?_⟩
  · intro id held
    dsimp only at held
    rw [OrderedMap.get_insert] at held
    split at held
    next same => exact ⟨record, by simp, same⟩
    next =>
      obtain ⟨earlier, member, same⟩ := kept.only id held
      exact ⟨earlier, List.mem_append_left _ member, same⟩
  · intro earlier member
    dsimp only
    rw [OrderedMap.get_insert]
    rcases List.mem_append.mp member with before | last
    · rw [if_neg (differ earlier before).symm]
      exact kept.revisions earlier before
    · rw [List.mem_singleton.mp last, if_pos rfl]
  · simp [kept.counts]
  · simp [kept.actions]

theorem entities_surveyed : ∃ final, surveyStream snapshot.toSource.entities visitTargetEntity
    ⟨⟨snapshot.afterEntities [], ∅, ∅⟩, {}, []⟩ = .ok final ∧
      snapshot.KeptEntities snapshot.entities final := by
  obtain ⟨final, run, kept⟩ := foldlM_reaches (advance visitTargetEntity)
    snapshot.entities ⟨⟨snapshot.afterEntities [], ∅, ∅⟩, {}, []⟩ (motive := snapshot.KeptEntities)
    ⟨rfl, by simp, by simp, rfl, rfl⟩ fun _ _ _ _ split kept => kept.step split
  exact ⟨final, by rw [surveyStream, toSource, run]; rfl, kept⟩

variable (snapshot) in
/-- The survey has kept these target observations. -/
structure KeptObservations (start : Progress TargetObservations) (seen : List ObservationRecord)
    (progress : Progress TargetObservations) : Prop where
  verifier : progress.locals.verifier = snapshot.afterObservations seen
  ids : ∀ id ∈ progress.locals.ids, ∃ record ∈ seen, record.address.logicalId.value = id
  index : ∀ record ∈ seen, progress.locals.index[observationKey
    (.target record.entity.logicalId, record.lifecycle, record.content)]? ≠ none
  counts : progress.counts =
    { start.counts with targetObservations := start.counts.targetObservations + seen.length }
  actions : ∃ kept, progress.actions = start.actions ++ kept ∧ kept.length = seen.length

theorem KeptObservations.step {targets : TargetEntities} {start progress : Progress TargetObservations}
    {seen rest : List ObservationRecord} {record : ObservationRecord}
    (present : ∀ entity ∈ snapshot.entities, targets.revisions[entity.address.logicalId]? ≠ none)
    (split : seen ++ record :: rest = snapshot.observations)
    (kept : snapshot.KeptObservations start seen progress) :
    ∃ after, advance (visitTargetObservation targets) progress record = .ok after ∧
      snapshot.KeptObservations start (seen ++ [record]) after := by
  have known : ¬ targets.revisions[record.entity.logicalId]? = none := by
    obtain ⟨entity, member, same⟩ := List.mem_map.mp
      (snapshot.formed.entity_present record (split ▸ by simp))
    exact same ▸ present entity member
  have fresh : ¬ (ResultObjectId.target record.address.logicalId).asStr ∈ progress.locals.ids := by
    intro held
    obtain ⟨earlier, member, same⟩ := kept.ids _ held
    exact fresh_id snapshot.formed.observations_sorted snapshot.formed.observations_here split member
      (LogicalId.value_injective same)
  have step := observation_seen snapshot split
  rw [← kept.verifier] at step
  have visited : visitTargetObservation targets progress.locals progress.counts record = .ok _ :=
    bind_eq_ok.mpr ⟨_, step, bind_eq_ok.mpr ⟨(), refuseIf_neg known,
      bind_eq_ok.mpr ⟨(), refuseIf_neg fresh, rfl⟩⟩⟩
  refine ⟨_, advance_eq visited, rfl, ?_, ?_, ?_, ?_⟩
  · intro id held
    rcases Finset.mem_insert.mp held with rfl | before
    · exact ⟨record, by simp, rfl⟩
    · obtain ⟨earlier, member, same⟩ := kept.ids id before
      exact ⟨earlier, List.mem_append_left _ member, same⟩
  · intro earlier member
    dsimp only
    rw [OrderedMap.get_insertIfNew]
    split
    next => simp
    next held =>
      rcases List.mem_append.mp member with before | last
      · exact kept.index earlier before
      · rw [List.mem_singleton.mp last]
        exact fun absent => held ⟨by rw [List.mem_singleton.mp last], absent⟩
  · simp [kept.counts, Nat.add_assoc]
  · obtain ⟨actions, same, length⟩ := kept.actions
    exact ⟨actions ++ [_], by rw [same, List.append_assoc], by simp [length]⟩

/-- All observations of the target are kept. -/
theorem observations_surveyed {targets : TargetEntities} (counts : ActionCounts)
    (actions : List MergeAction)
    (present : ∀ entity ∈ snapshot.entities, targets.revisions[entity.address.logicalId]? ≠ none) :
    ∃ final, surveyStream snapshot.toSource.observations (visitTargetObservation targets)
        ⟨⟨snapshot.afterObservations [], ∅, ∅⟩, counts, actions⟩ = .ok final ∧
      snapshot.KeptObservations ⟨⟨snapshot.afterObservations [], ∅, ∅⟩, counts, actions⟩
        snapshot.observations final := by
  obtain ⟨final, run, kept⟩ := foldlM_reaches (advance (visitTargetObservation targets))
    snapshot.observations ⟨⟨snapshot.afterObservations [], ∅, ∅⟩, counts, actions⟩
    (motive := snapshot.KeptObservations ⟨⟨snapshot.afterObservations [], ∅, ∅⟩, counts, actions⟩)
    ⟨rfl, by simp, by simp, rfl, [], by simp, rfl⟩ fun _ _ _ _ split kept => kept.step present split
  exact ⟨final, by rw [surveyStream, toSource, run]; rfl, kept⟩

variable (snapshot) in
/-- The survey has merged these source observations. -/
structure MergedObservations (start : Progress SourceObservations) (seen : List ObservationRecord)
    (progress : Progress SourceObservations) : Prop where
  verifier : progress.locals.verifier = snapshot.afterObservations seen
  index : progress.locals.index = start.locals.index
  counts : progress.counts =
    { start.counts with
      mergedObservations := start.counts.mergedObservations + seen.length
      sourceObservations := start.counts.sourceObservations + seen.length }
  actions : ∃ merged, progress.actions = start.actions ++ merged ∧ merged.length = seen.length

/-- An observation that the target has already is merged into it. -/
theorem MergedObservations.step {results : OrderedMap LogicalId ResultObjectId} {ids : Finset String}
    {start progress : Progress SourceObservations} {seen rest : List ObservationRecord}
    {record : ObservationRecord} {result : ResultObjectId}
    (settled : results[record.entity.logicalId]? = some result)
    (held : start.locals.index[observationKey (result, record.lifecycle, record.content)]? ≠ none)
    (split : seen ++ record :: rest = snapshot.observations)
    (merged : snapshot.MergedObservations start seen progress) :
    ∃ after, advance (visitSourceObservation results ids) progress record = .ok after ∧
      snapshot.MergedObservations start (seen ++ [record]) after := by
  have step := observation_seen snapshot split
  rw [← merged.verifier] at step
  obtain ⟨earlier, found⟩ := Option.ne_none_iff_exists'.mp held
  rw [← merged.index] at found
  have visited : visitSourceObservation results ids progress.locals progress.counts record =
      .ok ({ progress.locals with verifier := snapshot.afterObservations (seen ++ [record]) },
        { progress.counts with
          mergedObservations := progress.counts.mergedObservations + 1
          sourceObservations := progress.counts.sourceObservations + 1 },
        .mergeObservationOrigin record earlier result) := by
    simp [visitSourceObservation, step, settled, found, orRefuse, bind, Except.bind, pure,
      Except.pure]
  refine ⟨_, advance_eq visited, rfl, merged.index, ?_, ?_⟩
  · simp [merged.counts, Nat.add_assoc]
  · obtain ⟨actions, same, length⟩ := merged.actions
    exact ⟨actions ++ [_], by rw [same, List.append_assoc], by simp [length]⟩

end MemorySnapshot

/-! ## One entity on the side of the source -/

/-- The only source entity goes into the one it was found to be. -/
theorem entity_settled {target source : MemorySnapshot} {kept record : EntityRecord}
    {receipt : ReceiptHash} {targets : TargetEntities} {counts : ActionCounts}
    {actions : List MergeAction} (only : source.entities = [record])
    (present : targets.revisions[kept.address.logicalId]? = some kept.revision) :
    surveyStream source.toSource.entities (visitSourceEntity [⟨record.address.logicalId,
        record.revision, source.header.snapshotId,
          .coalesce (kept.refIn target.header.snapshotId) receipt⟩] targets target.header
            source.header) ⟨⟨source.afterEntities [], ∅, ∅, ∅, 0⟩, counts, actions⟩ =
      .ok ⟨⟨source.afterEntities source.entities,
          (∅ : OrderedMap LogicalId ResultObjectId).insert record.address.logicalId
            (.target kept.address.logicalId), ∅, insert 0 ∅, 1⟩,
        { counts with
          coalescedEntities := counts.coalescedEntities + 1
          sourceEntities := counts.sourceEntities + 1 },
        actions ++ [.applyEntityDisposition record
          (.coalesce record.address kept.address receipt)]⟩ := by
  have seen : (source.afterEntities []).entity record = .ok (source.afterEntities [record]) :=
    source.entity_seen (only.symm : [] ++ record :: [] = source.entities)
  have found : binarySearchBy [(⟨record.address.logicalId, record.revision,
      source.header.snapshotId, .coalesce (kept.refIn target.header.snapshotId) receipt⟩ :
        PlannedEntity)]
      (fun candidate => compare candidate.logicalId record.address.logicalId) = .ok 0 := by
    simp [binarySearchBy, narrowWindow]
  have visited : visitSourceEntity [⟨record.address.logicalId,
      record.revision, source.header.snapshotId,
        .coalesce (kept.refIn target.header.snapshotId) receipt⟩] targets target.header
          source.header ⟨source.afterEntities [], ∅, ∅, ∅, 0⟩ counts record = .ok
      (⟨source.afterEntities [record], (∅ : OrderedMap LogicalId ResultObjectId).insert
          record.address.logicalId (.target kept.address.logicalId), ∅, insert 0 ∅, 1⟩,
        { counts with
          coalescedEntities := counts.coalescedEntities + 1
          sourceEntities := counts.sourceEntities + 1 },
        .applyEntityDisposition record (.coalesce record.address kept.address receipt)) := by
    rw [visitSourceEntity]
    simp only [seen, found, bind, Except.bind, Except.toOption, orRefuse]
    simp [settleEntity, orRefuse, refuseIf, EntityRecord.refIn, present, bind, Except.bind, pure,
      Except.pure, EntityDisposition.resultId]
  rw [surveyStream, MemorySnapshot.toSource, only, List.foldlM_cons]
  rw [advance_eq visited]
  rfl

/-- A request to coalesce the only entity of the source with one of the target, when the
observations of the source are known in the target. -/
theorem surveys_pair {target source : MemorySnapshot} {kept record : EntityRecord}
    {receipts : PlanningReceipts} {policy : MergePolicy} {receipt : ReceiptHash}
    {consumed : MergeAccounting} (member : kept ∈ target.entities)
    (only : source.entities = [record]) (unrelated : target.relations = [] ∧ source.relations = [])
    (known : ∀ observation ∈ source.observations, ∃ earlier ∈ target.observations,
      earlier.entity.logicalId = kept.address.logicalId ∧
        earlier.lifecycle = observation.lifecycle ∧ earlier.content = observation.content)
    (distinct : target.header.spaceId ≠ source.header.spaceId)
    (prepared : prepareDispositions receipts policy = .ok ([⟨record.address.logicalId,
      record.revision, source.header.snapshotId,
        .coalesce (kept.refIn target.header.snapshotId) receipt⟩], consumed)) :
    ∃ counts later, (MergeRequest.mk target.toSource source.toSource receipts policy).survey =
      .ok (counts, target.entities.map .keepTargetEntity ++ [.applyEntityDisposition record
        (.coalesce record.address kept.address receipt)] ++ later) ∧
      later.length = target.observations.length + source.observations.length := by
  have valid : validateHeaders target.header source.header = .ok () := by
    rw [validateHeaders, target.format, source.format, refuseIf_neg (by simp)]
    exact refuseIf_neg distinct
  obtain ⟨entities, entitiesRun, entitiesKept⟩ := @MemorySnapshot.entities_surveyed _ target
  have present := entitiesKept.revisions kept member
  have settledRun := @entity_settled _ target source kept record receipt entities.locals
    entities.counts entities.actions only present
  obtain ⟨observations, observationsRun, observationsKept⟩ :=
    @MemorySnapshot.observations_surveyed _ target entities.locals
      { entities.counts with
        coalescedEntities := entities.counts.coalescedEntities + 1
        sourceEntities := entities.counts.sourceEntities + 1 }
      (entities.actions ++ [.applyEntityDisposition record
        (.coalesce record.address kept.address receipt)])
      fun entity held => by rw [entitiesKept.revisions entity held]; simp
  have about (observation : ObservationRecord) (held : observation ∈ source.observations) :
      observation.entity = record.address := by
    have held := source.formed.entity_present observation held
    rwa [only, List.map_singleton, List.mem_singleton] at held
  obtain ⟨landed, landedRun, merged⟩ := foldlM_reaches
    (advance (visitSourceObservation ((∅ : OrderedMap LogicalId ResultObjectId).insert
      record.address.logicalId (.target kept.address.logicalId)) observations.locals.ids))
    source.observations ⟨⟨source.afterObservations [], observations.locals.index, ∅⟩,
      observations.counts, observations.actions⟩
    (motive := source.MergedObservations ⟨⟨source.afterObservations [],
      observations.locals.index, ∅⟩, observations.counts, observations.actions⟩)
    ⟨rfl, rfl, by simp, [], by simp, rfl⟩ fun seen observation rest before split merged => by
      have held : observation ∈ source.observations := split ▸ by simp
      have mapped : ((∅ : OrderedMap LogicalId ResultObjectId).insert record.address.logicalId
          (.target kept.address.logicalId))[observation.entity.logicalId]? =
            some (.target kept.address.logicalId) := by
        rw [OrderedMap.get_insert, about observation held, if_pos rfl]
      refine merged.step mapped ?_ split
      · obtain ⟨earlier, earlierHeld, entity, lifecycle, content⟩ := known observation held
        have indexed := observationsKept.index earlier earlierHeld
        rwa [entity, lifecycle, content] at indexed
  obtain ⟨_, targetFinished⟩ := target.relations_ended unrelated.1
  obtain ⟨_, sourceFinished⟩ := source.relations_ended unrelated.2
  obtain ⟨first, firstActions, firstLength⟩ := observationsKept.actions
  obtain ⟨second, secondActions, secondLength⟩ := merged.actions
  have landedRun : surveyStream source.toSource.observations (visitSourceObservation
      ((∅ : OrderedMap LogicalId ResultObjectId).insert record.address.logicalId
        (.target kept.address.logicalId)) observations.locals.ids)
      ⟨⟨source.afterObservations [], observations.locals.index, ∅⟩, observations.counts,
        observations.actions⟩ = .ok landed := by
    rw [surveyStream, MemorySnapshot.toSource, landedRun]
    rfl
  have accounted : validateAccounting landed.counts (accountingOf {} landed.counts [])
      target.header source.header = .ok () := by
    refine refuseIf_neg ?_
    rw [accountingOf, merged.counts, observationsKept.counts, entitiesKept.counts,
      target.entity_count, target.observation_count, target.relation_count, source.entity_count,
      source.observation_count, source.relation_count, only, unrelated.1, unrelated.2]
    simp
  refine ⟨landed.counts, first ++ second, ?_, by rw [List.length_append, firstLength, secondLength]⟩
  have actions : landed.actions = target.entities.map .keepTargetEntity ++
      [.applyEntityDisposition record (.coalesce record.address kept.address receipt)] ++
        (first ++ second) := by
    rw [secondActions, firstActions, entitiesKept.actions]
    simp
  have keptEnd : entities.locals.verifier.endEntities = .ok (target.afterObservations []) := by
    rw [entitiesKept.verifier]
    exact target.entities_ended
  have observedEnd : observations.locals.verifier.endObservations = .ok target.beforeRelations := by
    rw [observationsKept.verifier]
    exact target.observations_ended
  have mergedEnd : landed.locals.verifier.endObservations = .ok source.beforeRelations := by
    rw [merged.verifier]
    exact source.observations_ended
  rw [← actions]
  simp only [MergeRequest.survey, bind_eq_ok, refuseIf_eq_ok, not_not, pure_eq_ok]
  refine ⟨(), valid, _, prepared, _, target.verifier_started, _, source.verifier_started,
    _, entitiesRun, _, keptEnd, _, settledRun, _, source.entities_ended, (), rfl, _,
    observationsRun, _, observedEnd, _, landedRun, _, mergedEnd,
    ⟨⟨target.beforeRelations, ∅, ∅⟩, landed.counts, landed.actions⟩, ?_, _, targetFinished,
    ⟨⟨source.beforeRelations, ∅, ∅⟩, landed.counts, landed.actions⟩, ?_, _, sourceFinished, (),
    accounted, rfl⟩
  · rw [surveyStream, MemorySnapshot.toSource, unrelated.1]
    rfl
  · rw [surveyStream, MemorySnapshot.toSource, unrelated.2]
    rfl

/-- The smallest merge that coalesces anything: one entity on each side and nothing else. -/
theorem plans_single {target source : MemorySnapshot} {kept record : EntityRecord}
    {receipts : PlanningReceipts} {policy : MergePolicy} {receipt : ReceiptHash}
    {consumed : MergeAccounting}
    (targets : target.entities = [kept] ∧ target.observations = [] ∧ target.relations = [])
    (sources : source.entities = [record] ∧ source.observations = [] ∧ source.relations = [])
    (distinct : target.header.spaceId ≠ source.header.spaceId)
    (prepared : prepareDispositions receipts policy = .ok ([⟨record.address.logicalId,
      record.revision, source.header.snapshotId,
        .coalesce (kept.refIn target.header.snapshotId) receipt⟩], consumed)) :
    ∃ plan, (MergeRequest.mk target.toSource source.toSource receipts policy).Plans
      acceptingSink () plan [.keepTargetEntity kept, .applyEntityDisposition record
        (.coalesce record.address kept.address receipt)] := by
  obtain ⟨counts, later, surveyed, length⟩ := surveys_pair (by rw [targets.1]; simp) sources.1
    ⟨targets.2.2, sources.2.2⟩ (by simp [sources.2.1]) distinct prepared
  rw [targets.2.1, sources.2.1] at length
  rw [List.length_eq_zero_iff.mp length, targets.1] at surveyed
  refine MergeRequest.plans_of_survey surveyed ?_
  rw [(MergeRequest.survey_within surveyed).1]
  simp [MergeRequest.recordCount, MemorySnapshot.toSource, targets, sources, maxActions]

end OpenMemory.Merge
