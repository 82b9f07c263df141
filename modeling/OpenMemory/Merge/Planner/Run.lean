import OpenMemory.Merge.Planner.Stages

/-!
# The planning run

`planMerge` validates the headers, tells the sink to begin, and then reads the
two snapshots in six visits while it emits one action for each record. At the
end it checks its own accounting and hashes the plan. A finished plan is handed
to the sink; a failure anywhere after the beginning aborts it.

The body of a run uses the sink only to emit (`planAfterBegin_emitsOnly`), so
what it does against any sink is determined by the actions it would emit to a
sink that accepts everything.
-/

namespace OpenMemory.Merge

open Foundation

/-- What accumulates over the visits. -/
structure PlanningState where
  actionHash : CanonicalHasher
  resultTokens : List ResultToken
  counts : ActionCounts
  accounting : MergeAccounting

section Run

variable [Blake3]

/-- The bookkeeping of emitted actions. -/
def PlanningState.record (state : PlanningState) (action : MergeAction) : PlanningState :=
  { state with
    actionHash := state.actionHash.absorb (encodeAction action)
    resultTokens := state.resultTokens ++ Merge.resultTokens action }

def PlanningState.emit {σ : Type} (emit : MergeAction → Effect MergeError σ Unit)
    (state : PlanningState) (action : MergeAction) : Effect MergeError σ PlanningState := do
  Effect.lift (refuseIf (state.counts.totalActions ≥ maxActions)
    ⟨.boundExceeded, "merge action count exceeds the hard limit"⟩)
  emit action
  pure (state.record action)

/-- The visitor's locals beside the shared state. -/
structure Visit (L : Type) where
  locals : L
  state : PlanningState

/-- The closure a stream is visited with. -/
def visitRecord {σ L R : Type} (emit : MergeAction → Effect MergeError σ Unit)
    (visitor : Visitor L R) (visit : Visit L) (record : R) : Effect MergeError σ (Visit L) := do
  let step ← visitor visit.locals visit.state.counts record
  let state ← PlanningState.emit emit { visit.state with counts := step.2.1 } step.2.2
  pure ⟨step.1, state⟩

def visitRecords {σ L R : Type} (emit : MergeAction → Effect MergeError σ Unit)
    (stream : RecordStream R) (visitor : Visitor L R) (locals : L) (state : PlanningState) :
    Effect MergeError σ (Visit L) :=
  stream.visit (visitRecord emit visitor) ⟨locals, state⟩

/-! ## The body -/

def validateHeaders (target source : SnapshotHeader) : MergeResult Unit := do
  refuseIf (target.formatVersion ≠ 1 ∨ source.formatVersion ≠ 1)
    ⟨.invalidInput, "unsupported snapshot format version"⟩
  refuseIf (target.spaceId = source.spaceId)
    ⟨.invalidInput, "material merge source and target must be distinct spaces"⟩

def validateAccounting (counts : ActionCounts) (accounting : MergeAccounting)
    (target source : SnapshotHeader) : MergeResult Unit :=
  refuseIf (counts.targetEntities ≠ target.entityCount ∨
      counts.sourceEntities ≠ source.entityCount ∨
      counts.targetObservations ≠ target.observationCount ∨
      counts.sourceObservations ≠ source.observationCount ∨
      counts.targetRelations ≠ target.relationCount ∨
      counts.sourceRelations ≠ source.relationCount ∨
      counts.coalescedEntities + counts.addedEntities ≠ counts.sourceEntities ∨
      counts.addedObservations + counts.mergedObservations ≠ counts.sourceObservations ∨
      counts.addedRelations + counts.mergedRelations ≠ counts.sourceRelations ∨
      accounting.resultEntities ≠ counts.targetEntities + counts.addedEntities ∨
      accounting.resultObservations ≠ counts.targetObservations + counts.addedObservations ∨
      accounting.resultRelations ≠ counts.targetRelations + counts.addedRelations)
    ⟨.accountingMismatch, "merge accounting does not cover every input and result exactly once"⟩

/-- What the entity visits leave for the later ones. -/
structure EntityStage where
  targets : TargetEntities
  results : OrderedMap LogicalId ResultObjectId
  targetVerifier : SnapshotVerifier
  sourceVerifier : SnapshotVerifier
  state : PlanningState

def planEntities {σ : Type} (emit : MergeAction → Effect MergeError σ Unit)
    (target source : SnapshotSource) (planned : List PlannedEntity) (state : PlanningState) :
    Effect MergeError σ EntityStage := do
  let targetVerifier ← SnapshotVerifier.new target.header
  let sourceVerifier ← SnapshotVerifier.new source.header
  let targets ← visitRecords emit target.entities visitTargetEntity ⟨targetVerifier, ∅, ∅⟩ state
  let targetVerifier ← targets.locals.verifier.endEntities
  let sources ← visitRecords emit source.entities
    (visitSourceEntity planned targets.locals target.header source.header)
    ⟨sourceVerifier, ∅, ∅, ∅, 0⟩ targets.state
  let sourceVerifier ← sources.locals.verifier.endEntities
  Effect.lift (refuseIf (sources.locals.seenCount ≠ planned.length)
    ⟨.discoveryIncomplete, "discovery receipt exists for an absent source entity"⟩)
  pure ⟨targets.locals, sources.locals.results, targetVerifier, sourceVerifier, sources.state⟩

/-- What the observation visits leave for the relation visits. -/
structure ObservationStage where
  targetVerifier : SnapshotVerifier
  sourceVerifier : SnapshotVerifier
  state : PlanningState

def planObservations {σ : Type} (emit : MergeAction → Effect MergeError σ Unit)
    (target source : SnapshotSource) (entities : EntityStage) :
    Effect MergeError σ ObservationStage := do
  let targets ← visitRecords emit target.observations (visitTargetObservation entities.targets)
    ⟨entities.targetVerifier, ∅, ∅⟩ entities.state
  let targetVerifier ← targets.locals.verifier.endObservations
  let sources ← visitRecords emit source.observations
    (visitSourceObservation entities.results targets.locals.ids)
    ⟨entities.sourceVerifier, targets.locals.index, ∅⟩ targets.state
  let sourceVerifier ← sources.locals.verifier.endObservations
  pure ⟨targetVerifier, sourceVerifier, sources.state⟩

def planRelations {σ : Type} (emit : MergeAction → Effect MergeError σ Unit)
    (target source : SnapshotSource) (policy : MergePolicy) (entities : EntityStage)
    (observations : ObservationStage) : Effect MergeError σ PlanningState := do
  let targets ← visitRecords emit target.relations (visitTargetRelation entities.targets)
    ⟨observations.targetVerifier, ∅, ∅⟩ observations.state
  let _ ← targets.locals.verifier.finish
  let sources ← visitRecords emit source.relations
    (visitSourceRelation entities.results targets.locals.ids policy)
    ⟨observations.sourceVerifier, targets.locals.index, ∅⟩ targets.state
  let _ ← sources.locals.verifier.finish
  pure sources.state

/-- The end of `plan_after_begin`: the accounting is completed and checked, and
everything is hashed. -/
def concludePlan (preamble : PlanPrelude) (target source : SnapshotHeader)
    (state : PlanningState) : MergeResult MergePlan := do
  let tokens := sortedDistinct state.resultTokens
  let counts := state.counts
  let accounting := { state.accounting with
    resultEntities := counts.targetEntities + counts.addedEntities
    resultObservations := counts.targetObservations + counts.addedObservations
    resultRelations := counts.targetRelations + counts.addedRelations
    retainedOrigins := (tokens.filter isOriginToken).length }
  validateAccounting counts accounting target source
  let actionStreamHash := state.actionHash.finish .actionStream
  let predicted := hashResultTokens tokens
  pure {
    preamble := preamble
    actionStreamHash := actionStreamHash
    actionCounts := counts
    accounting := accounting
    predictedResultHash := predicted
    planHash := hashPlan preamble actionStreamHash counts accounting predicted }

def planAfterBegin (target source : SnapshotSource) (receipts : PlanningReceipts)
    (policy : MergePolicy) (preamble : PlanPrelude) : Producer MergeAction MergeError MergePlan :=
  fun _ emit => do
    let prepared ← prepareDispositions receipts policy
    let entities ← planEntities emit target source prepared.1 ⟨actionHasher, [], {}, prepared.2⟩
    let observations ← planObservations emit target source entities
    let state ← planRelations emit target source policy entities observations
    concludePlan preamble target.header source.header state

/-! ## The run against a sink -/

/-- Finish a plan that was made, or abort. -/
def concludeWith {σ : Type} (sink : ActionSink σ) (body : Effect MergeError σ MergePlan) :
    Effect MergeError σ MergePlan :=
  ⟨fun s =>
    match body.run s with
    | (.ok plan, s) =>
      match (sink.finish plan).run s with
      | (.ok (), s) => (.ok plan, s)
      | (.error error, s) => (.error error, sink.abort s)
    | (.error error, s) => (.error error, sink.abort s)⟩

def preludeOf (target source : SnapshotHeader) (policy : MergePolicy) : PlanPrelude where
  version := mergePlanVersion
  sourceSpace := source.spaceId
  targetSpace := target.spaceId
  sourceSnapshotHash := source.hash
  targetSnapshotHash := target.hash
  expectedTargetVersion := target.spaceVersion
  policyVersion := policy.version
  identityPolicyGeneration := policy.identityPolicyGeneration

def planMerge {σ : Type} (target source : SnapshotSource) (receipts : PlanningReceipts)
    (policy : MergePolicy) (sink : ActionSink σ) : Effect MergeError σ MergePlan := do
  validateHeaders target.header source.header
  let preamble := preludeOf target.header source.header policy
  sink.begin preamble
  concludeWith sink (planAfterBegin target source receipts policy preamble σ sink.emit)

end Run

/-! ## The body only emits -/

section EmitsOnly

variable [Blake3]

theorem emitsOnly_emit (state : PlanningState) (action : MergeAction) :
    EmitsOnly (fun _ emit => PlanningState.emit emit state action) :=
  EmitsOnly.bind (EmitsOnly.lift _) fun _ =>
    EmitsOnly.bind (EmitsOnly.emit action) fun _ => EmitsOnly.pure _

theorem emitsOnly_visitRecords {L R : Type} (stream : RecordStream R) (visitor : Visitor L R)
    (locals : L) (state : PlanningState) :
    EmitsOnly (fun _ emit => visitRecords emit stream visitor locals state) := by
  refine EmitsOnly.bind (EmitsOnly.foldlM ?_ stream.records _) fun final => ?_
  · intro visit record
    exact EmitsOnly.bind (EmitsOnly.lift _) fun _ =>
      EmitsOnly.bind (emitsOnly_emit _ _) fun _ => EmitsOnly.pure _
  · cases stream.failure with
    | none => exact EmitsOnly.pure final
    | some error => exact EmitsOnly.lift _

theorem planAfterBegin_emitsOnly (target source : SnapshotSource) (receipts : PlanningReceipts)
    (policy : MergePolicy) (preamble : PlanPrelude) :
    EmitsOnly (planAfterBegin target source receipts policy preamble) := by
  refine EmitsOnly.bind (EmitsOnly.lift _) fun prepared => ?_
  refine EmitsOnly.bind ?_ fun entities => EmitsOnly.bind ?_ fun observations =>
    EmitsOnly.bind ?_ fun state => EmitsOnly.lift _
  · exact EmitsOnly.bind (EmitsOnly.lift _) fun _ => EmitsOnly.bind (EmitsOnly.lift _) fun _ =>
      EmitsOnly.bind (emitsOnly_visitRecords _ _ _ _) fun _ =>
        EmitsOnly.bind (EmitsOnly.lift _) fun _ =>
          EmitsOnly.bind (emitsOnly_visitRecords _ _ _ _) fun _ =>
            EmitsOnly.bind (EmitsOnly.lift _) fun _ =>
              EmitsOnly.bind (EmitsOnly.lift _) fun _ => EmitsOnly.pure _
  · exact EmitsOnly.bind (emitsOnly_visitRecords _ _ _ _) fun _ =>
      EmitsOnly.bind (EmitsOnly.lift _) fun _ =>
        EmitsOnly.bind (emitsOnly_visitRecords _ _ _ _) fun _ =>
          EmitsOnly.bind (EmitsOnly.lift _) fun _ => EmitsOnly.pure _
  · exact EmitsOnly.bind (emitsOnly_visitRecords _ _ _ _) fun _ =>
      EmitsOnly.bind (EmitsOnly.lift _) fun _ =>
        EmitsOnly.bind (emitsOnly_visitRecords _ _ _ _) fun _ =>
          EmitsOnly.bind (EmitsOnly.lift _) fun _ => EmitsOnly.pure _

end EmitsOnly

end OpenMemory.Merge
