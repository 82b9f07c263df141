import OpenMemory.Merge.Planner.Outcome

/-!
# What a settlement rests on

In a successful run the source entities, their plans and the discovery receipts
answer each other one to one. So a source entity is coalesced exactly when some
receipt resolves it same, and what it is coalesced into is what that receipt
names (`coalesces_of_same`, `same_of_coalesces`).
-/

namespace OpenMemory.Merge

open Foundation

variable {discovery : DiscoveryReceipt} {settlement : Settlement}

namespace Outcome

variable [Blake3] {request : MergeRequest} {decisions : Decisions}

variable (outcome : Outcome request decisions)

include outcome

/-- Source entities are told apart by their local identifiers. -/
theorem settlement_unique {first last : Settlement}
    (firstMember : first ∈ decisions.settlements) (lastMember : last ∈ decisions.settlements)
    (same : first.record.address.logicalId = last.record.address.logicalId) : first = last := by
  have distinct := outcome.entities.source_orderly.nodup_logicalIds
  rw [← outcome.entities.records, List.map_map, List.map_map] at distinct
  exact List.inj_on_of_nodup_map distinct firstMember lastMember same

/-- A source entity becomes one result only. -/
theorem becomes_unique {id : LogicalId}
    {first last : ResultObjectId} (isFirst : Becomes decisions.settlements id first)
    (isLast : Becomes decisions.settlements id last) : first = last := by
  obtain ⟨left, leftMember, leftId, rfl⟩ := isFirst
  obtain ⟨right, rightMember, rightId, rfl⟩ := isLast
  rw [outcome.settlement_unique leftMember rightMember (leftId.trans rightId.symm)]

/-- Every settlement follows the plan of a discovery. -/
theorem discovery_of_settlement
    (member : settlement ∈ decisions.settlements) : ∃ discovery ∈ request.receipts.discoveries,
      PlansFor decisions.indexes discovery settlement.planned := by
  have planned : settlement.planned ∈ decisions.planned :=
    outcome.entities.plans.mem_iff.mp (List.mem_map_of_mem member)
  obtain ⟨entry, entryMember, plans⟩ := exists_left_of_forall₂ outcome.prepared.plans _ planned
  refine ⟨entry.2, ?_, plans⟩
  exact outcome.prepared.indexed.discoveries_perm.mem_iff.mp (List.mem_map_of_mem entryMember)

theorem settlement_of_discovery
    (member : discovery ∈ request.receipts.discoveries) : ∃ settlement ∈ decisions.settlements,
      PlansFor decisions.indexes discovery settlement.planned := by
  have listed := outcome.prepared.indexed.discoveries_perm.mem_iff.mpr member
  obtain ⟨entry, entryMember, rfl⟩ := List.mem_map.mp listed
  obtain ⟨planned, plannedMember, plans⟩ :=
    exists_right_of_forall₂ outcome.prepared.plans entry entryMember
  have settled := outcome.entities.plans.mem_iff.mpr plannedMember
  obtain ⟨settlement, settlementMember, rfl⟩ := List.mem_map.mp settled
  exact ⟨settlement, settlementMember, plans⟩

/-- Discoveries are told apart by the local identifiers of their sources. -/
theorem discovery_unique {first last : DiscoveryReceipt}
    (firstMember : first ∈ request.receipts.discoveries)
    (lastMember : last ∈ request.receipts.discoveries)
    (same : first.source.address.logicalId = last.source.address.logicalId) : first = last := by
  have settled : (decisions.settlements.map fun settlement =>
      settlement.planned.logicalId).Nodup := by
    have sameIds : (decisions.settlements.map fun settlement => settlement.planned.logicalId) =
        decisions.settlements.map fun settlement => settlement.record.address.logicalId :=
      List.map_congr_left fun settlement member =>
        (outcome.entities.valid settlement member).logicalId
    have distinct := outcome.entities.source_orderly.nodup_logicalIds
    rw [← outcome.entities.records, List.map_map, List.map_map] at distinct
    rw [sameIds]
    exact distinct
  have planned : (decisions.planned.map PlannedEntity.logicalId).Nodup := by
    have listed := (outcome.entities.plans.map PlannedEntity.logicalId).nodup_iff
    rw [List.map_map] at listed
    exact listed.mp settled
  have discovered := outcome.prepared.indexed.discoveries_perm.map
    fun discovery => discovery.source.address.logicalId
  rw [List.map_map] at discovered
  have keys : decisions.indexes.discoveries.toList.map
      (fun entry => entry.2.source.address.logicalId) =
        decisions.planned.map PlannedEntity.logicalId :=
    map_eq_of_forall₂ outcome.prepared.plans fun _ _ plans => plans.logicalId.symm
  have distinct := discovered.nodup_iff.mp (keys ▸ planned)
  exact List.inj_on_of_nodup_map distinct firstMember lastMember same

/-- The settlement of a discovered entity has the discovery's local identifier. -/
theorem settlement_logicalId (member : settlement ∈ decisions.settlements)
    (plans : PlansFor decisions.indexes discovery settlement.planned) :
    settlement.record.address.logicalId = discovery.source.address.logicalId :=
  (outcome.entities.valid settlement member).logicalId.symm.trans plans.logicalId

omit outcome in
omit [Blake3] in
/-- A candidate's pair is one of the discovery's own source. -/
theorem source_of_pairKey {candidate : IdentityCandidate}
    {resolution : IdentityResolutionReceipt} (member : candidate ∈ discovery.candidates)
    (pair : candidate.pairKey = resolution.pairKey) :
    resolution.source.address = discovery.source.address := by
  have addresses := congrArg (fun key : PairKey => (ofLex key).2) pair
  have source := discovery.candidates_source candidate member
  simp only [IdentityCandidate.pairKey, IdentityResolutionReceipt.pairKey, ofLex_toLex] at addresses
  rw [← addresses, source]

/-- A receipt that resolves a pair same coalesces the source entity it names into
the target entity it names. -/
theorem coalesces_of_same
    {resolution : IdentityResolutionReceipt} (member : resolution ∈ request.receipts.resolutions)
    (same : resolution.decision = .same) : ∃ settlement ∈ decisions.settlements,
      settlement.planned.disposition = .coalesce resolution.target resolution.hash ∧
        settlement.record.address.logicalId = resolution.source.address.logicalId := by
  obtain ⟨discovery, discoveryMember, unkept, candidate, chosen, pair⟩ :=
    outcome.prepared.resolutions_consumed resolution member
  obtain ⟨settlement, settlementMember, plans⟩ := outcome.settlement_of_discovery discoveryMember
  have found := (outcome.prepared.indexed.resolution resolution.pairKey resolution).mpr
    ⟨member, rfl⟩
  rw [← pair] at found
  refine ⟨settlement, settlementMember, (plans.disposed.of_found chosen found).2 same, ?_⟩
  rw [outcome.settlement_logicalId settlementMember plans, source_of_pairKey chosen pair]

/-- A coalesced source entity was resolved same, at its own revision. -/
theorem same_of_coalesces {target : EntityRevisionRef} {receipt : ReceiptHash}
    (member : settlement ∈ decisions.settlements)
    (coalesces : settlement.planned.disposition = .coalesce target receipt) :
    ∃ discovery ∈ request.receipts.discoveries, ∃ resolution ∈ request.receipts.resolutions,
      discovery.truncated = false ∧
      (∃ candidate ∈ discovery.candidates, resolution.target = candidate.target) ∧
      resolution.decision = .same ∧ resolution.source = discovery.source ∧
      resolution.target = target ∧ resolution.hash = receipt ∧
      PlansFor decisions.indexes discovery settlement.planned := by
  obtain ⟨discovery, discoveryMember, plans⟩ := outcome.discovery_of_settlement member
  refine ⟨discovery, discoveryMember, ?_⟩
  have disposed := plans.disposed
  rw [coalesces] at disposed
  cases disposed with
  | coalesce resolution candidate _ complete chosen found sameTarget sameSource same only =>
    have listed := (outcome.prepared.indexed.resolution _ _).mp found
    exact ⟨resolution, listed.1, complete, ⟨candidate, chosen, sameTarget⟩, same,
      sameSource.trans (discovery.candidates_source candidate chosen), rfl, rfl, plans⟩

end Outcome

end OpenMemory.Merge
