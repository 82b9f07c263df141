import OpenMemory.Merge.Fixture

/-!
# Contradictions are never merged

Four components take part in a coalescence: the evidence about a pair is
analysed, a receipt is signed on the analysis, discovery lists the pair as a
candidate, and the planner consumes both receipts. If the receipts are genuine,
an emitted coalescence is of a pair that a person resolved same, that the
evidence does not prove different, and whose discovery is complete
(`coalesced_not_contradicted`).
-/

namespace OpenMemory.Merge

open Foundation

/-- A coalescence that is emitted was planned so. -/
theorem settlement_of_coalesce [Blake3] {request : MergeRequest} {decisions : Decisions}
    (outcome : Outcome request decisions) {record : EntityRecord}
    {sourceAddress targetAddress : EntityAddress} {receipt : ReceiptHash}
    (emitted : MergeAction.applyEntityDisposition record
      (.coalesce sourceAddress targetAddress receipt) ∈ decisions.actions request.target) :
    ∃ settlement ∈ decisions.settlements, settlement.record = record ∧
      sourceAddress = record.address ∧ ∃ reference, reference.address = targetAddress ∧
        settlement.planned.disposition = .coalesce reference receipt := by
  have listed : ∃ settlement ∈ decisions.settlements, settlement.action =
      .applyEntityDisposition record (.coalesce sourceAddress targetAddress receipt) := by
    simp only [Decisions.actions, Decisions.entityActions, Decisions.observationActions,
      Decisions.relationActions, List.mem_append, List.mem_map] at emitted
    rcases emitted with ((⟨_, _, kept⟩ | settled) | (⟨_, _, kept⟩ | ⟨landing, _, landed⟩)) |
      (⟨_, _, kept⟩ | ⟨landing, _, landed⟩)
    · cases kept
    · exact settled
    · cases kept
    · unfold observationAction at landed
      cases found : landing.found <;> rw [found] at landed <;> cases landed
    · cases kept
    · unfold relationAction at landed
      cases found : landing.found <;> rw [found] at landed <;> cases landed
  obtain ⟨settlement, member, same⟩ := listed
  obtain ⟨sameRecord, sameDisposition⟩ := MergeAction.applyEntityDisposition.inj same
  have settles := (outcome.entities.valid settlement member).settles
  rw [sameDisposition, sameRecord] at settles
  refine ⟨settlement, member, sameRecord, ?_⟩
  generalize settlement.planned.disposition = planned at settles ⊢
  cases settles with
  | coalesce reference _ _ _ _ _ _ => exact ⟨rfl, reference, rfl, rfl⟩

/-- **A coalesced pair was resolved same by a person, on evidence that does not
contradict it, from a complete discovery.** -/
theorem coalesced_not_contradicted [Blake3] [CaseMapping] {σ : Type}
    {target source : MemorySnapshot} {identityPolicy : IdentityPolicy}
    {receipts : PlanningReceipts} {policy : MergePolicy} {sink : ActionSink σ} {s : σ}
    {plan : MergePlan} {actions : List MergeAction}
    (genuine : Genuine target source identityPolicy receipts)
    (plans : (MergeRequest.mk target.toSource source.toSource receipts policy).Plans sink s plan
      actions)
    {record : EntityRecord} {sourceAddress targetAddress : EntityAddress} {receipt : ReceiptHash}
    (emitted : MergeAction.applyEntityDisposition record
      (.coalesce sourceAddress targetAddress receipt) ∈ actions) :
    ∃ targetRecord ∈ target.entities, targetRecord.address = targetAddress ∧
      record ∈ source.entities ∧ record.address = sourceAddress ∧
      (∃ resolution ∈ receipts.resolutions, resolution.hash = receipt ∧
        resolution.decision = .same ∧
        resolution.target = targetRecord.refIn target.header.snapshotId ∧
        resolution.source = record.refIn source.header.snapshotId ∧
        ∃ decisionEvent role, resolution.authority = .human decisionEvent role ∧
          (role = .reviewer ∨ role = .maintainer)) ∧
      (∃ packet, analyzePair targetRecord target.header.snapshotId record
          source.header.snapshotId identityPolicy = .ok packet ∧
        packet.resolution ≠ .proofDifferent ∧ packet.resolution ≠ .conflictingProofs) ∧
      ∃ discovery ∈ receipts.discoveries,
        discovery.source = record.refIn source.header.snapshotId ∧ discovery.truncated = false := by
  obtain ⟨decisions, outcome, rfl, _⟩ := plans.outcome
  obtain ⟨settlement, member, rfl, rfl, reference, rfl, coalesces⟩ :=
    settlement_of_coalesce outcome emitted
  obtain ⟨discovery, discoveryMember, resolution, resolved, complete,
    ⟨candidate, chosen, sameTarget⟩, same, sameSource, rfl, rfl, planned⟩ :=
    outcome.same_of_coalesces member coalesces
  have sourceMember : settlement.record ∈ source.entities := by
    have listed := List.mem_map_of_mem (f := Settlement.record) member
    rwa [outcome.entities.records] at listed
  -- the discovered source entity is the settled one
  obtain ⟨⟨discovered, discoveredMember, sourceRef⟩, candidates⟩ :=
    (genuine.discoveries discovery discoveryMember).bound
  have sameRecord : discovered = settlement.record := by
    have sameId := outcome.settlement_logicalId member planned
    rw [sourceRef] at sameId
    refine source.entity_unique discoveredMember sourceMember ?_
    have spaces := source.formed.entities_here
    exact ObjectAddress.eq_iff.mpr ⟨(spaces _ (List.mem_map_of_mem discoveredMember)).trans
      (spaces _ (List.mem_map_of_mem sourceMember)).symm, sameId.symm⟩
  subst sameRecord
  obtain ⟨targetRecord, targetMember, targetRef⟩ := candidates candidate chosen
  -- the analysed pair is the coalesced one
  obtain ⟨left, leftSnapshot, right, rightSnapshot, packet, leftOf, rightOf, analysed, allowed,
    leftRef, rightRef⟩ := (genuine.resolutions resolution resolved).of_same same
  have leftSame := EntityRecord.refIn_eq_iff.mp ((leftRef.symm.trans sameTarget).trans targetRef)
  have rightSame := EntityRecord.refIn_eq_iff.mp ((rightRef.symm.trans sameSource).trans sourceRef)
  have leftHere := target.formed.entities_here _ (List.mem_map_of_mem targetMember)
  have rightHere := source.formed.entities_here _ (List.mem_map_of_mem discoveredMember)
  have isTarget : left = targetRecord := target.entity_unique
    (leftOf.of_target outcome.distinct_spaces ((congrArg _ leftSame.1).trans leftHere))
    targetMember leftSame.1
  have isSource : right = settlement.record := source.entity_unique
    (rightOf.of_source outcome.distinct_spaces ((congrArg _ rightSame.1).trans rightHere))
    discoveredMember rightSame.1
  obtain ⟨decisionEvent, role, authority, mayReview⟩ :=
    IdentityResolutionReceipt.reviewer_of_same same
  have reviewer : role = .reviewer ∨ role = .maintainer := by
    cases role <;> first | exact .inl rfl | exact .inr rfl | cases mayReview
  have pairTarget := sameTarget.trans targetRef
  refine ⟨targetRecord, targetMember, ?_, sourceMember, rfl, ⟨resolution, resolved, rfl, same,
    pairTarget, sameSource.trans sourceRef, decisionEvent, role, authority, reviewer⟩,
    ⟨packet, ?_, not_or.mp allowed⟩, discovery, discoveryMember, sourceRef, complete⟩
  · rw [pairTarget]
    rfl
  · rw [← analysed, isTarget, isSource, leftSame.2.2, rightSame.2.2]
    rfl

/-! ## An example -/

section Example

open Fixture

/-- The source record and the addresses of a coalescence. -/
def coalescedParts : MergeAction → Option (EntityRecord × EntityAddress × EntityAddress × ReceiptHash)
  | .applyEntityDisposition record (.coalesce source target receipt) =>
    some (record, source, target, receipt)
  | _ => none

theorem sample_coalesces : (sampleActions.findSome? coalescedParts).isSome = true :=
  of_sample (P := fun actions => (actions.findSome? coalescedParts).isSome = true)
    (by decide +kernel)

/-- The sample coalesces a pair that was resolved same. -/
theorem sample_not_contradicted : ∃ plan actions,
    sampleRequest.Plans MemoryActionSink.toActionSink sampleSink plan actions ∧
      ∃ record sourceAddress targetAddress receipt, MergeAction.applyEntityDisposition record
        (.coalesce sourceAddress targetAddress receipt) ∈ actions ∧
        ∃ resolution ∈ sampleRequest.receipts.resolutions, resolution.decision = .same ∧
          resolution.source = record.refIn sampleSource.header.snapshotId := by
  obtain ⟨plan, plans⟩ := sample_plans
  obtain ⟨⟨record, sourceAddress, targetAddress, receipt⟩, found⟩ :=
    Option.isSome_iff_exists.mp sample_coalesces
  obtain ⟨action, emitted, parts⟩ := List.exists_of_findSome?_eq_some found
  have coalesces : action = .applyEntityDisposition record
      (.coalesce sourceAddress targetAddress receipt) := by
    unfold coalescedParts at parts
    split at parts
    · cases parts
      rfl
    · cases parts
  rw [coalesces] at emitted
  have genuine : Genuine sampleTarget sampleSource samplePolicy sampleRequest.receipts :=
    planningReceipts_genuine (Option.some_get sample_planned).symm
  obtain ⟨_, _, _, _, _, ⟨resolution, listed, _, same, _, sameSource, _⟩, _⟩ :=
    coalesced_not_contradicted genuine plans emitted
  exact ⟨plan, _, plans, record, sourceAddress, targetAddress, receipt, emitted, resolution, listed,
    same, sameSource⟩

end Example

end OpenMemory.Merge
