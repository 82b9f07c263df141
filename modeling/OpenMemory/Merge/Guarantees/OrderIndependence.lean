import OpenMemory.Merge.Fixture

/-!
# Independence of the order of the inputs

Neither constructing a snapshot nor planning a merge depends on the order in
which records and receipts are listed. Records are sorted by address before
anything is computed from them, and receipts are read through indexes that
refuse duplicates, so there is no last writer that could win.
-/

namespace OpenMemory.Merge

open Foundation

section Receipts

variable [Blake3] {σ : Type} {target source : SnapshotSource} {receipts others : PlanningReceipts}
  {policy : MergePolicy}

/-- A run that succeeds has prepared its dispositions. -/
theorem MergeRequest.Plans.prepared {request : MergeRequest} {sink : ActionSink σ} {s : σ}
    {plan : MergePlan} {actions : List MergeAction}
    (plans : request.Plans sink s plan actions) :
    ∃ dispositions, prepareDispositions request.receipts request.policy = .ok dispositions := by
  obtain ⟨_, planned, _⟩ := plans.script
  have body : (planAfterBegin request.target request.source request.receipts request.policy
      request.preamble (List MergeAction) collect).run [] = (.ok plan, request.script.emitted) :=
    Prod.ext planned rfl
  simp only [planAfterBegin, Effect.bind_eq_ok, Effect.liftM_run, Prod.mk.injEq] at body
  obtain ⟨dispositions, _, ⟨prepared, _⟩, _⟩ := body
  exact ⟨dispositions, prepared⟩

/-- Receipts that lead to the same dispositions lead to the same run. -/
theorem run_congr {dispositions : List PlannedEntity × MergeAccounting}
    (first : prepareDispositions receipts policy = .ok dispositions)
    (last : prepareDispositions others policy = .ok dispositions) (sink : ActionSink σ) :
    (MergeRequest.mk target source receipts policy).run sink =
      (MergeRequest.mk target source others policy).run sink := by
  simp only [MergeRequest.run, planMerge, planAfterBegin, first, last]

theorem plans_of_reordered (reordered : receipts.Reordered others) {sink : ActionSink σ} {s : σ}
    {plan : MergePlan} {actions : List MergeAction}
    (plans : (MergeRequest.mk target source receipts policy).Plans sink s plan actions) :
    (MergeRequest.mk target source others policy).Plans sink s plan actions := by
  obtain ⟨dispositions, prepared⟩ := plans.prepared
  have same := @run_congr _ _ target source _ _ _ _ prepared
    (prepareDispositions_perm reordered prepared) sink.recorded
  unfold MergeRequest.Plans at plans ⊢
  rwa [← same]

end Receipts

/-- **The order of the inputs does not matter.** A snapshot, or the error that
refuses it, is the same for every order of its records; and a merge succeeds
for one order of its receipts if and only if it does for another, with the same
actions and the same plan. -/
theorem order_independent [Blake3] :
    (∀ (snapshotId : SnapshotId) (spaceId : SpaceId) (spaceVersion : SpaceVersion)
      (entities entities' : List EntityRecord) (observations observations' : List ObservationRecord)
      (relations relations' : List RelationRecord), entities.Perm entities' →
        observations.Perm observations' → relations.Perm relations' →
          MemorySnapshot.new snapshotId spaceId spaceVersion entities observations relations =
            MemorySnapshot.new snapshotId spaceId spaceVersion entities' observations' relations') ∧
    ∀ (σ : Type) (sink : ActionSink σ) (s : σ) (target source : SnapshotSource)
      (receipts others : PlanningReceipts) (policy : MergePolicy), receipts.Reordered others →
        ∀ (plan : MergePlan) (actions : List MergeAction),
          (MergeRequest.mk target source receipts policy).Plans sink s plan actions ↔
            (MergeRequest.mk target source others policy).Plans sink s plan actions := by
  refine ⟨?_, ?_⟩
  · intro snapshotId spaceId spaceVersion entities entities' observations observations' relations
      relations' entityPerm observationPerm relationPerm
    exact MemorySnapshot.new_perm snapshotId spaceVersion entityPerm observationPerm relationPerm
  · intro σ sink s target source receipts others policy reordered plan actions
    exact ⟨plans_of_reordered reordered, plans_of_reordered reordered.symm⟩

/-! ## An example -/

section Example

open Fixture

/-- The receipts of the sample may be listed the other way round. -/
theorem sample_reordered : ∃ plan actions,
    sampleRequest.Plans MemoryActionSink.toActionSink sampleSink plan actions ∧
      { sampleRequest with receipts := {
          discoveries := sampleRequest.receipts.discoveries.reverse
          resolutions := sampleRequest.receipts.resolutions.reverse
          keepDistinct := sampleRequest.receipts.keepDistinct.reverse } }.Plans
        MemoryActionSink.toActionSink sampleSink plan actions := by
  obtain ⟨plan, plans⟩ := sample_plans
  refine ⟨plan, _, plans, ?_⟩
  exact (order_independent.2 _ _ _ sampleRequest.target sampleRequest.source sampleRequest.receipts _
    sampleRequest.policy ⟨(List.reverse_perm _).symm, (List.reverse_perm _).symm,
      (List.reverse_perm _).symm⟩ plan _).mp plans

end Example

end OpenMemory.Merge
