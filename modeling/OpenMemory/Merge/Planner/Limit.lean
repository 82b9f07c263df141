import OpenMemory.Merge.Planner.Calls
import OpenMemory.Merge.Planner.Visits

/-!
# Runs and the limit on their actions

The limit on the actions is the only check of a run that looks at how many records
there are in all. A survey makes every other check, without a sink and without the
limit. Where a survey succeeds, the run goes as it says until the counts reach the
limit, and there it stops (`survey_within`).

The counts are brought up to date before they are compared, so the record that brings
them to the limit is already refused.
-/

namespace OpenMemory.Merge

open Foundation

/-! ## Surveys -/

def surveyStream {L R : Type} (stream : RecordStream R) (visitor : Visitor L R)
    (progress : Progress L) : MergeResult (Progress L) := do
  let final ← stream.records.foldlM (advance visitor) progress
  match stream.failure with
  | none => pure final
  | some error => .error error

/-- The accounting of a run, as far as it is checked. -/
def accountingOf (accounting : MergeAccounting) (counts : ActionCounts) (tokens : List ResultToken) :
    MergeAccounting :=
  { accounting with
    resultEntities := counts.targetEntities + counts.addedEntities
    resultObservations := counts.targetObservations + counts.addedObservations
    resultRelations := counts.targetRelations + counts.addedRelations
    retainedOrigins := ((sortedDistinct tokens).filter isOriginToken).length }

namespace MergeRequest

variable [Blake3]

/-- Every check of a run but the one of the limit: the counts it comes to, and its actions. -/
def survey (request : MergeRequest) : MergeResult (ActionCounts × List MergeAction) := do
  let ⟨target, source, receipts, policy⟩ := request
  validateHeaders target.header source.header
  let prepared ← prepareDispositions receipts policy
  let targetVerifier ← SnapshotVerifier.new target.header
  let sourceVerifier ← SnapshotVerifier.new source.header
  let entities ← surveyStream target.entities visitTargetEntity ⟨⟨targetVerifier, ∅, ∅⟩, {}, []⟩
  let targetVerifier ← entities.locals.verifier.endEntities
  let settled ← surveyStream source.entities
    (visitSourceEntity prepared.1 entities.locals target.header source.header)
    ⟨⟨sourceVerifier, ∅, ∅, ∅, 0⟩, entities.counts, entities.actions⟩
  let sourceVerifier ← settled.locals.verifier.endEntities
  refuseIf (settled.locals.seenCount ≠ prepared.1.length)
    ⟨.discoveryIncomplete, "discovery receipt exists for an absent source entity"⟩
  let observations ← surveyStream target.observations (visitTargetObservation entities.locals)
    ⟨⟨targetVerifier, ∅, ∅⟩, settled.counts, settled.actions⟩
  let targetVerifier ← observations.locals.verifier.endObservations
  let landed ← surveyStream source.observations
    (visitSourceObservation settled.locals.results observations.locals.ids)
    ⟨⟨sourceVerifier, observations.locals.index, ∅⟩, observations.counts, observations.actions⟩
  let sourceVerifier ← landed.locals.verifier.endObservations
  let relations ← surveyStream target.relations (visitTargetRelation entities.locals)
    ⟨⟨targetVerifier, ∅, ∅⟩, landed.counts, landed.actions⟩
  let _ ← relations.locals.verifier.finish
  let last ← surveyStream source.relations
    (visitSourceRelation settled.locals.results relations.locals.ids policy)
    ⟨⟨sourceVerifier, relations.locals.index, ∅⟩, relations.counts, relations.actions⟩
  let _ ← last.locals.verifier.finish
  validateAccounting last.counts (accountingOf {} last.counts []) target.header source.header
  pure (last.counts, last.actions)

theorem headers_of_survey {request : MergeRequest} {surveyed : ActionCounts × List MergeAction}
    (done : request.survey = .ok surveyed) :
    validateHeaders request.target.header request.source.header = .ok () := by
  simp only [survey, bind_eq_ok] at done
  obtain ⟨⟨⟩, headers, _⟩ := done
  exact headers

/-- The records of the six streams. -/
def recordCount (request : MergeRequest) : Nat :=
  request.target.entities.records.length + request.source.entities.records.length +
    request.target.observations.records.length + request.source.observations.records.length +
      request.target.relations.records.length + request.source.relations.records.length

end MergeRequest

/-! ## Runs up to the limit -/

def limitError : MergeError :=
  ⟨.boundExceeded, "merge action count exceeds the hard limit"⟩

/-- With fewer actions than the limit a computation succeeds so, and otherwise the limit
stops it. -/
def Within {α : Type} (run : MergeResult α × List MergeAction) (total : Nat)
    (good : α → List MergeAction → Prop) : Prop :=
  (total < maxActions → ∃ a kept, run = (.ok a, kept) ∧ good a kept) ∧
    (maxActions ≤ total → run.1 = .error limitError)

namespace Within

variable {α β : Type} {first : Effect MergeError (List MergeAction) α}
  {next : α → Effect MergeError (List MergeAction) β} {kept : List MergeAction}
  {total later : Nat} {good : α → List MergeAction → Prop} {well : β → List MergeAction → Prop}

theorem pure_ {a : α} (below : total < maxActions) (holds : good a kept) :
    Within ((pure a : Effect MergeError (List MergeAction) α).run kept) total good :=
  ⟨fun _ => ⟨a, kept, rfl, holds⟩, fun reached => absurd below (not_lt.mpr reached)⟩

theorem bind_ (start : Within (first.run kept) total good) (grows : total ≤ later)
    (step : total < maxActions → ∀ a kept', good a kept' → Within ((next a).run kept') later well) :
    Within ((first >>= next).run kept) later well := by
  rcases Nat.lt_or_ge total maxActions with below | reached
  · obtain ⟨a, kept', ran, holds⟩ := start.1 below
    rw [Effect.bind_ok ran]
    exact step below a kept' holds
  · refine ⟨fun below => absurd (grows.trans_lt below) (not_lt.mpr reached), fun _ => ?_⟩
    have failed := start.2 reached
    cases ran : first.run kept with
    | mk outcome after =>
      rw [ran] at failed
      cases failed
      rw [Effect.bind_error ran]

theorem lift_bind {result : MergeResult α} {a : α} (done : result = .ok a)
    (step : Within ((next a).run kept) later well) :
    Within (((liftM result : Effect MergeError (List MergeAction) α) >>= next).run kept)
      later well := by
  subst done
  exact step

end Within

section Runs

variable [Blake3] {L R : Type} {visitor : Visitor L R} {final start : Progress L}
  {kept : List MergeAction}

omit [Blake3] in
theorem total_of_advance (counted : CountsItsAction visitor) {records : List R}
    (run : records.foldlM (advance visitor) start = .ok final) :
    final.counts.totalActions = start.counts.totalActions + records.length := by
  induction records generalizing start with
  | nil =>
    cases run
    rfl
  | cons record rest ih =>
    obtain ⟨middle, first, later⟩ := foldlM_cons_eq_ok.mp run
    obtain ⟨action, step, _⟩ := advance_ok.mp first
    rw [ih later, counted step, totalActions_countAction, List.length_cons]
    omega

/-- A record is emitted while its count stays below the limit. -/
theorem visitRecord_within {record : R} {visit : Visit L} {middle : Progress L}
    (step : advance visitor ⟨visit.locals, visit.state.counts, kept⟩ record = .ok middle) :
    Within ((visitRecord collect visitor visit record).run kept) middle.counts.totalActions
      fun after kept' => after.locals = middle.locals ∧ after.state.counts = middle.counts ∧
        kept' = middle.actions := by
  obtain ⟨action, accepted, actions⟩ := advance_ok.mp step
  constructor
  · intro below
    refine ⟨⟨middle.locals, { visit.state with counts := middle.counts }.record action⟩,
      kept ++ [action], ?_, rfl, rfl, actions.symm⟩
    simp only [visitRecord, PlanningState.emit, Effect.bind_eq_ok, Effect.liftM_run,
      Effect.lift_run, Effect.pure_run]
    exact ⟨_, _, Prod.ext accepted rfl, _, _, ⟨_, _, Prod.ext (refuseIf_neg (not_le.mpr below)) rfl,
      _, _, rfl, rfl⟩, rfl⟩
  · intro reached
    have refused : (PlanningState.emit collect { visit.state with counts := middle.counts }
        action).run kept = (.error limitError, kept) :=
      Effect.bind_error (Prod.ext (if_pos reached) rfl)
    have stepped : (liftM (visitor visit.locals visit.state.counts record) :
        Effect MergeError (List MergeAction) _).run kept =
          (.ok (middle.locals, middle.counts, action), kept) := Prod.ext accepted rfl
    rw [visitRecord, Effect.bind_ok stepped]
    exact congrArg Prod.fst (Effect.bind_error refused)

theorem foldlM_within (counted : CountsItsAction visitor) {records : List R} {visit : Visit L}
    (below : visit.state.counts.totalActions < maxActions)
    (run : records.foldlM (advance visitor) ⟨visit.locals, visit.state.counts, kept⟩ = .ok final) :
    Within ((records.foldlM (visitRecord collect visitor) visit).run kept)
      final.counts.totalActions fun after kept' => after.locals = final.locals ∧
        after.state.counts = final.counts ∧ kept' = final.actions := by
  induction records generalizing visit kept with
  | nil =>
    cases run
    exact Within.pure_ below ⟨rfl, rfl, rfl⟩
  | cons record rest ih =>
    obtain ⟨middle, first, later⟩ := foldlM_cons_eq_ok.mp run
    rw [List.foldlM_cons]
    refine (visitRecord_within first).bind_ ?_ fun some_ after kept' good => ?_
    · rw [total_of_advance counted later]
      omega
    · obtain ⟨locals, counts, rfl⟩ := good
      refine @ih middle.actions after (by rw [counts]; exact some_) ?_
      rw [locals, counts]
      exact later

/-- A visit goes as it is surveyed, up to the limit. -/
theorem visitRecords_within (counted : CountsItsAction visitor) {stream : RecordStream R}
    {locals : L} {state : PlanningState}
    (same : locals = start.locals ∧ state.counts = start.counts ∧
      kept = start.actions) (below : start.counts.totalActions < maxActions)
    (surveyed : surveyStream stream visitor start = .ok final) :
    start.counts.totalActions ≤ final.counts.totalActions ∧
    Within ((visitRecords collect stream visitor locals state).run kept)
      final.counts.totalActions fun after kept' => after.locals = final.locals ∧
        after.state.counts = final.counts ∧ kept' = final.actions := by
  obtain ⟨rfl, counts, rfl⟩ := same
  obtain ⟨last, run, ended⟩ := bind_eq_ok.mp surveyed
  cases failure : stream.failure with
  | some error =>
    rw [failure] at ended
    cases ended
  | none =>
    rw [failure] at ended
    cases ended
    refine ⟨by rw [total_of_advance counted run]; omega, ?_⟩
    rw [visitRecords, RecordStream.visit]
    refine Within.bind_ (foldlM_within counted (by rw [counts]; exact below)
      (by rw [counts]; exact run)) le_rfl fun some_ after kept' good => ?_
    rw [failure]
    exact Within.pure_ some_ good

/-- The end of a run checks the counts, and nothing else. -/
theorem concludePlan_of_counts {preamble : PlanPrelude} {target source : SnapshotHeader}
    {state : PlanningState} {counts : ActionCounts} (same : state.counts = counts)
    (accounted : validateAccounting counts (accountingOf {} counts []) target source = .ok ()) :
    ∃ plan, concludePlan preamble target source state = .ok plan := by
  subst same
  have checked : validateAccounting state.counts (accountingOf state.accounting state.counts
      state.resultTokens) target source = .ok () := accounted
  rw [accountingOf] at checked
  rw [concludePlan]
  simp only [checked]
  exact ⟨_, rfl⟩

omit [Blake3] in
theorem total_of_survey (counted : CountsItsAction visitor) {stream : RecordStream R}
    (surveyed : surveyStream stream visitor start = .ok final) :
    final.counts.totalActions = start.counts.totalActions + stream.records.length := by
  obtain ⟨last, run, ended⟩ := bind_eq_ok.mp surveyed
  cases failure : stream.failure with
  | some error =>
    rw [failure] at ended
    cases ended
  | none =>
    rw [failure] at ended
    cases ended
    exact total_of_advance counted run

/-- **A run goes as it is surveyed**, up to the limit. -/
theorem MergeRequest.survey_within {request : MergeRequest} {counts : ActionCounts}
    {actions : List MergeAction} (surveyed : request.survey = .ok (counts, actions)) :
    counts.totalActions = request.recordCount ∧
      Within (request.script.result, request.script.emitted) request.recordCount
        fun _ kept => kept = actions := by
  obtain ⟨target, source, receipts, policy⟩ := request
  simp only [survey, bind_eq_ok, refuseIf_eq_ok, not_not, pure_eq_ok, Prod.mk.injEq] at surveyed
  obtain ⟨_, _, ⟨planned, consumed⟩, prepared, targetVerifier, targetStarted, sourceVerifier,
    sourceStarted, entities, entitiesRun, entitiesEnd, entitiesEnded, settled, settledRun,
    settledEnd, settledEnded, _, allSeen, observations, observationsRun, observationsEnd,
    observationsEnded, landed, landedRun, landedEnd, landedEnded, relations, relationsRun, _,
    relationsEnded, last, lastRun, _, lastEnded, _, accounted, rfl, rfl⟩ := surveyed
  have first := total_of_survey visitTargetEntity_counts entitiesRun
  have second := total_of_survey (visitSourceEntity_counts _ _ _ _) settledRun
  have third := total_of_survey (visitTargetObservation_counts _) observationsRun
  have fourth := total_of_survey (visitSourceObservation_counts _ _) landedRun
  have fifth := total_of_survey (visitTargetRelation_counts _) relationsRun
  have sixth := total_of_survey (visitSourceRelation_counts _ _ _) lastRun
  dsimp only at first second third fourth fifth sixth
  have none_ : ({} : ActionCounts).totalActions = 0 := rfl
  have total : last.counts.totalActions =
      (MergeRequest.mk target source receipts policy).recordCount := by
    dsimp only [recordCount]
    omega
  refine ⟨total, ?_⟩
  rw [← total]
  have entityStage : Within ((planEntities collect target source planned
      ⟨actionHasher, [], {}, consumed⟩).run []) settled.counts.totalActions fun stage kept =>
        stage.targets = entities.locals ∧ stage.results = settled.locals.results ∧
          stage.targetVerifier = entitiesEnd ∧ stage.sourceVerifier = settledEnd ∧
            stage.state.counts = settled.counts ∧ kept = settled.actions := by
    refine Within.lift_bind targetStarted (Within.lift_bind sourceStarted ?_)
    refine (visitRecords_within visitTargetEntity_counts ⟨rfl, rfl, rfl⟩
      (none_.trans_lt (by decide)) entitiesRun).2.bind_ (by omega) fun below visit kept good => ?_
    obtain ⟨locals, counts, rfl⟩ := good
    rw [locals]
    refine Within.lift_bind entitiesEnded ?_
    refine (visitRecords_within (visitSourceEntity_counts _ _ _ _) ⟨rfl, counts, rfl⟩ below
      settledRun).2.bind_ le_rfl fun below visit' kept good => ?_
    obtain ⟨locals', counts', rfl⟩ := good
    rw [locals']
    refine Within.lift_bind settledEnded (Within.lift_bind (refuseIf_neg (not_not.mpr allSeen)) ?_)
    exact Within.pure_ below ⟨rfl, rfl, rfl, rfl, counts', rfl⟩
  have observationStage (stage : EntityStage) (state : stage.state.counts = settled.counts)
      (targets : stage.targets = entities.locals) (results : stage.results = settled.locals.results)
      (targetVerifier : stage.targetVerifier = entitiesEnd)
      (sourceVerifier : stage.sourceVerifier = settledEnd)
      (below : settled.counts.totalActions < maxActions) :
      Within ((planObservations collect target source stage).run settled.actions)
        landed.counts.totalActions fun stage kept =>
          stage.targetVerifier = observationsEnd ∧ stage.sourceVerifier = landedEnd ∧
            stage.state.counts = landed.counts ∧ kept = landed.actions := by
    rw [planObservations, targets, results, targetVerifier, sourceVerifier]
    refine (visitRecords_within (visitTargetObservation_counts _) ⟨rfl, state, rfl⟩ below
      observationsRun).2.bind_ (by omega) fun below visit kept good => ?_
    obtain ⟨locals, counts, rfl⟩ := good
    rw [locals]
    refine Within.lift_bind observationsEnded ?_
    refine (visitRecords_within (visitSourceObservation_counts _ _) ⟨rfl, counts, rfl⟩ below
      landedRun).2.bind_ le_rfl fun below visit' kept good => ?_
    obtain ⟨locals', counts', rfl⟩ := good
    rw [locals']
    exact Within.lift_bind landedEnded (Within.pure_ below ⟨rfl, rfl, counts', rfl⟩)
  have relationStage (stage : EntityStage) (observed : ObservationStage)
      (state : observed.state.counts = landed.counts)
      (targets : stage.targets = entities.locals) (results : stage.results = settled.locals.results)
      (targetVerifier : observed.targetVerifier = observationsEnd)
      (sourceVerifier : observed.sourceVerifier = landedEnd)
      (below : landed.counts.totalActions < maxActions) :
      Within ((planRelations collect target source policy stage observed).run landed.actions)
        last.counts.totalActions fun state kept =>
          state.counts = last.counts ∧ kept = last.actions := by
    rw [planRelations, targets, results, targetVerifier, sourceVerifier]
    refine (visitRecords_within (visitTargetRelation_counts _) ⟨rfl, state, rfl⟩ below
      relationsRun).2.bind_ (by omega) fun below visit kept good => ?_
    obtain ⟨locals, counts, rfl⟩ := good
    rw [locals]
    refine Within.lift_bind relationsEnded ?_
    refine (visitRecords_within (visitSourceRelation_counts _ _ _) ⟨rfl, counts, rfl⟩ below
      lastRun).2.bind_ le_rfl fun below visit' kept good => ?_
    obtain ⟨locals', counts', rfl⟩ := good
    rw [locals']
    exact Within.lift_bind lastEnded (Within.pure_ below ⟨counts', rfl⟩)
  refine Within.lift_bind prepared (entityStage.bind_ (by omega) fun below stage kept good => ?_)
  obtain ⟨targets, results, targetVerifier, sourceVerifier, state, rfl⟩ := good
  refine (observationStage stage state targets results targetVerifier sourceVerifier below).bind_
    (by omega) fun below observed kept good => ?_
  obtain ⟨targetVerifier, sourceVerifier, state, rfl⟩ := good
  refine (relationStage stage observed state targets results targetVerifier sourceVerifier
    below).bind_ le_rfl fun below state kept good => ?_
  obtain ⟨counts, rfl⟩ := good
  obtain ⟨plan, made⟩ := @concludePlan_of_counts _
    (MergeRequest.mk target source receipts policy).preamble _ _ _ _ counts accounted
  dsimp only at made ⊢
  rw [made]
  exact Within.pure_ below rfl

end Runs

end OpenMemory.Merge
