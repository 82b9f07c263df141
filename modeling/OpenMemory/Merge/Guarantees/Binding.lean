import OpenMemory.Merge.Fixture

/-!
# Receipts and the snapshots they speak of

A receipt names entities by address, revision and snapshot. A run accepts it
when the source entity it names is there at that revision and snapshot, and so
is the target entity, if the receipt leads to a coalescence. Two things are not
checked: the space in these addresses is never compared with the snapshot's
space, and the target of a candidate that is not coalesced is never looked up.
`bound_iff_anchored` says that these are the only gaps.
-/

namespace OpenMemory.Merge

open Foundation

/-- The reference is to an entity of the snapshot, at its revision and under the
snapshot's identifier. -/
def SnapshotSource.Streams (snapshot : SnapshotSource) (reference : EntityRevisionRef) : Prop :=
  ∃ record ∈ snapshot.entities.records, record.refIn snapshot.header.snapshotId = reference

/-- Every receipt is about entities of the two snapshots, as they are. -/
structure MergeRequest.Bound (request : MergeRequest) : Prop where
  sources : ∀ discovery ∈ request.receipts.discoveries, request.source.Streams discovery.source
  candidates : ∀ discovery ∈ request.receipts.discoveries, ∀ candidate ∈ discovery.candidates,
    request.target.Streams candidate.target
  resolutions : ∀ resolution ∈ request.receipts.resolutions,
    request.target.Streams resolution.target

/-- Some receipt resolves the candidate as the same entity. -/
def MergeRequest.ResolvesSame (request : MergeRequest) (candidate : IdentityCandidate) : Prop :=
  ∃ resolution ∈ request.receipts.resolutions,
    resolution.decision = .same ∧ resolution.pairKey = candidate.pairKey

/-- What a run leaves to its caller: the spaces of the addresses it uses, and the
targets of the candidates that are not coalesced. -/
structure MergeRequest.Anchored (request : MergeRequest) : Prop where
  sources_here : ∀ discovery ∈ request.receipts.discoveries,
    discovery.source.address.space = request.source.header.spaceId
  same_here : ∀ resolution ∈ request.receipts.resolutions, resolution.decision = .same →
    resolution.target.address.space = request.target.header.spaceId
  others_streamed : ∀ discovery ∈ request.receipts.discoveries,
    ∀ candidate ∈ discovery.candidates, ¬ request.ResolvesSame candidate →
      request.target.Streams candidate.target

/-- A reference that agrees with a record in all but the space is to that record
exactly when it agrees in the space too. -/
theorem streams_iff_of_record {snapshot : SnapshotSource} {record : EntityRecord}
    {reference : EntityRevisionRef}
    (orderly : SnapshotVerifier.Orderly snapshot.header
      (snapshot.entities.records.map EntityRecord.address))
    (member : record ∈ snapshot.entities.records)
    (sameId : record.address.logicalId = reference.address.logicalId)
    (sameRevision : record.revision = reference.revision)
    (sameSnapshot : reference.snapshot = snapshot.header.snapshotId) :
    snapshot.Streams reference ↔ reference.address.space = snapshot.header.spaceId := by
  constructor
  · rintro ⟨other, otherMember, rfl⟩
    exact orderly.here _ (List.mem_map_of_mem otherMember)
  · intro here
    have recordHere := orderly.here _ (List.mem_map_of_mem member)
    refine ⟨record, member, EntityRecord.refIn_eq_iff.mpr ⟨?_, sameRevision, sameSnapshot.symm⟩⟩
    exact ObjectAddress.eq_iff.mpr ⟨recordHere.trans here.symm, sameId⟩

namespace Outcome

variable [Blake3] {request : MergeRequest} {decisions : Decisions}

/-- The source of a discovery is bound up to its space. -/
theorem source_streams_iff (outcome : Outcome request decisions) {discovery : DiscoveryReceipt}
    (member : discovery ∈ request.receipts.discoveries) :
    request.source.Streams discovery.source ↔
      discovery.source.address.space = request.source.header.spaceId := by
  obtain ⟨settlement, settled, plans⟩ := outcome.settlement_of_discovery member
  have valid := outcome.entities.valid settlement settled
  have record : settlement.record ∈ request.source.entities.records := by
    rw [← outcome.entities.records]
    exact List.mem_map_of_mem settled
  exact streams_iff_of_record outcome.entities.source_orderly record
    (outcome.settlement_logicalId settled plans) (valid.revision.symm.trans plans.revision)
    (plans.snapshot.symm.trans valid.snapshot)

/-- The target of a pair that was resolved same is bound up to its space. -/
theorem same_target_streams_iff (outcome : Outcome request decisions)
    {resolution : IdentityResolutionReceipt} (member : resolution ∈ request.receipts.resolutions)
    (same : resolution.decision = .same) :
    request.target.Streams resolution.target ↔
      resolution.target.address.space = request.target.header.spaceId := by
  obtain ⟨settlement, settled, coalesces, _⟩ := outcome.coalesces_of_same member same
  have settles := (outcome.entities.valid settlement settled).settles
  rw [coalesces] at settles
  generalize settlement.disposition = disposition at settles
  cases settles with
  | coalesce _ _ record recordMember sameId sameRevision sameSnapshot =>
    exact streams_iff_of_record outcome.entities.target_orderly recordMember sameId sameRevision
      sameSnapshot

/-- A candidate with a receipt is about the target the receipt names. -/
theorem target_of_resolved (outcome : Outcome request decisions) {discovery : DiscoveryReceipt}
    {candidate : IdentityCandidate} (member : discovery ∈ request.receipts.discoveries)
    (chosen : candidate ∈ discovery.candidates) {resolution : IdentityResolutionReceipt}
    (resolved : resolution ∈ request.receipts.resolutions)
    (pair : resolution.pairKey = candidate.pairKey) : resolution.target = candidate.target := by
  obtain ⟨settlement, _, plans⟩ := outcome.settlement_of_discovery member
  have found := (outcome.prepared.indexed.resolution candidate.pairKey resolution).mpr
    ⟨resolved, pair⟩
  exact (plans.disposed.of_found chosen found).1

end Outcome

/-- **The receipts of a successful run are bound to its inputs** if and only if the
addresses it uses are in the right spaces, and the candidates it does not
coalesce name entities of the target. -/
theorem bound_iff_anchored [Blake3] {σ : Type} {request : MergeRequest} {sink : ActionSink σ}
    {s : σ} {plan : MergePlan} {actions : List MergeAction}
    (plans : request.Plans sink s plan actions) : request.Bound ↔ request.Anchored := by
  obtain ⟨decisions, outcome, _⟩ := plans.outcome
  constructor
  · intro bound
    refine ⟨?_, ?_, ?_⟩
    · intro discovery member
      exact (outcome.source_streams_iff member).mp (bound.sources discovery member)
    · intro resolution member same
      exact (outcome.same_target_streams_iff member same).mp (bound.resolutions resolution member)
    · intro discovery member candidate chosen _
      exact bound.candidates discovery member candidate chosen
  · intro anchored
    have candidates : ∀ discovery ∈ request.receipts.discoveries,
        ∀ candidate ∈ discovery.candidates, request.target.Streams candidate.target := by
      intro discovery member candidate chosen
      by_cases resolved : request.ResolvesSame candidate
      · obtain ⟨resolution, resolutionMember, same, pair⟩ := resolved
        rw [← outcome.target_of_resolved member chosen resolutionMember pair]
        exact (outcome.same_target_streams_iff resolutionMember same).mpr
          (anchored.same_here resolution resolutionMember same)
      · exact anchored.others_streamed discovery member candidate chosen resolved
    refine ⟨?_, candidates, ?_⟩
    · intro discovery member
      exact (outcome.source_streams_iff member).mpr (anchored.sources_here discovery member)
    · intro resolution member
      obtain ⟨discovery, discoveryMember, _, candidate, chosen, pair⟩ :=
        outcome.prepared.resolutions_consumed resolution member
      rw [outcome.target_of_resolved discoveryMember chosen member pair.symm]
      exact candidates discovery discoveryMember candidate chosen

/-! ## Examples -/

section Examples

open Fixture

instance (snapshot : SnapshotSource) (reference : EntityRevisionRef) :
    Decidable (snapshot.Streams reference) :=
  inferInstanceAs (Decidable (∃ record ∈ snapshot.entities.records, _))

instance (request : MergeRequest) (candidate : IdentityCandidate) :
    Decidable (request.ResolvesSame candidate) :=
  inferInstanceAs (Decidable (∃ resolution ∈ request.receipts.resolutions, _))

/-- The receipts of the sample are bound to its snapshots. -/
theorem sample_bound : ∃ plan actions,
    sampleRequest.Plans MemoryActionSink.toActionSink sampleSink plan actions ∧
      sampleRequest.Bound := by
  obtain ⟨plan, plans⟩ := sample_plans
  refine ⟨plan, _, plans, (bound_iff_anchored plans).mpr ⟨?_, ?_, ?_⟩⟩
  · decide
  · decide
  · decide

/-- Ada, as a third space knows her. -/
def foreignTarget : MemorySnapshot :=
  unwrap (memorySnapshot (snapshotId 20) (space 3) 1
    [entity (space 3) "ada" 30 "Ada" "person"] [] []) (by decide)

def adaTarget : MemorySnapshot :=
  unwrap (memorySnapshot (snapshotId 20) (space 1) 1
    [entity (space 1) "ada" 30 "Ada" "person"] [] []) (by decide)

def adaSource : MemorySnapshot :=
  unwrap (memorySnapshot (snapshotId 21) (space 2) 2
    [entity (space 2) "ada" 40 "Ada" "person"] [] []) (by decide)

theorem foreign_planned : (planningReceipts foreignTarget adaSource samplePolicy
    [("ada", "ada")]).isSome = true := by decide

/-- The request to merge with receipts that were made for the third space. -/
def foreignRequest : MergeRequest :=
  { requestOf foreignTarget adaSource _ foreign_planned with target := adaTarget.toSource }

theorem foreign_succeeds :
    ((foreignRequest.run MemoryActionSink.toActionSink.recorded).run
      (sampleSink, [])).1.toOption.isSome = true := by decide +kernel

/-- Receipts built against another space lead to success. -/
theorem foreign_not_bound : ∃ plan actions,
    foreignRequest.Plans MemoryActionSink.toActionSink sampleSink plan actions ∧
      ¬ foreignRequest.Bound := by
  obtain ⟨plan, plans⟩ := plans_of_succeeds foreign_succeeds
  refine ⟨plan, _, plans, fun bound => ?_⟩
  have streamed := bound.resolutions
  revert streamed
  decide

end Examples

end OpenMemory.Merge
