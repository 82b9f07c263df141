import OpenMemory.Merge.Fixture

/-!
# Revalidation of a stored stream

A plan is verified against a list of actions by recomputing everything the plan
says about them. The list a run emitted is accepted, and no other list is, as
long as the hash function does not collide on the two encoded streams.
-/

namespace OpenMemory.Merge

open Foundation

section Verification

variable [Blake3] {plan : MergePlan} {preamble : PlanPrelude} {consumed : MergeAccounting}
  {actions others : List MergeAction}

/-- The hash that is recomputed is that of the encoded stream. -/
theorem finish_foldl_absorb (actions : List MergeAction) :
    (actions.foldl (fun hasher action => hasher.absorb (encodeAction action))
      actionHasher).finish .actionStream = ⟨Blake3.hash (encodeStream actions)⟩ := by
  rw [foldl_absorb]
  rfl

theorem Summarizes.verifies (summarizes : Summarizes plan preamble consumed actions) :
    verifyPlan actions plan = .ok () := by
  have length : ¬ actions.length ≠ plan.actionCounts.totalActions := by
    rw [not_not, summarizes.actionCounts, totalActions_foldl]
    exact (Nat.zero_add _).symm
  have everything : ¬ ((⟨Blake3.hash (encodeStream actions)⟩ : ActionStreamHash) ≠
        plan.actionStreamHash ∨
      hashResultTokens (sortedDistinct (actions.flatMap resultTokens)) ≠ plan.predictedResultHash ∨
      actions.foldl countAction {} ≠ plan.actionCounts ∨
      hashPlan plan.preamble ⟨Blake3.hash (encodeStream actions)⟩
        (actions.foldl countAction {}) plan.accounting
          (hashResultTokens (sortedDistinct (actions.flatMap resultTokens))) ≠ plan.planHash) := by
    simp only [not_or, not_not]
    refine ⟨summarizes.actionStreamHash.symm, summarizes.predictedResultHash.symm,
      summarizes.actionCounts.symm, ?_⟩
    rw [summarizes.planHash, summarizes.actionStreamHash, summarizes.actionCounts,
      summarizes.predictedResultHash]
  simp only [verifyPlan, finish_foldl_absorb, refuseIf_neg length, refuseIf_neg everything]
  rfl

/-- A plan that verifies counts the actions it verifies against. -/
theorem length_of_verifies (verified : verifyPlan actions plan = .ok ()) :
    actions.length = plan.actionCounts.totalActions := by
  unfold verifyPlan at verified
  obtain ⟨_, counted, _⟩ := bind_eq_ok.mp verified
  exact not_not.mp (refuseIf_eq_ok.mp counted)

theorem streamHash_of_verifies (verified : verifyPlan others plan = .ok ()) :
    plan.actionStreamHash = ⟨Blake3.hash (encodeStream others)⟩ := by
  simp only [verifyPlan, finish_foldl_absorb, bind_eq_ok, refuseIf_eq_ok, not_or, not_not]
    at verified
  obtain ⟨_, _, streamHash, _⟩ := verified
  exact streamHash.symm

end Verification

/-- **A plan verifies against the actions of its run and against no others.** -/
theorem verifyPlan_iff_emitted [Blake3] {σ : Type} {request : MergeRequest} {sink : ActionSink σ}
    {s : σ} {plan : MergePlan} {actions : List MergeAction}
    (plans : request.Plans sink s plan actions) :
    verifyPlan actions plan = .ok () ∧
      ∀ others : List MergeAction, CollisionFree {encodeStream actions, encodeStream others} →
        verifyPlan others plan = .ok () → others = actions := by
  obtain ⟨decisions, _, _, summarizes⟩ := plans.outcome
  refine ⟨summarizes.verifies, ?_⟩
  intro others free verified
  have sameHash := summarizes.actionStreamHash.symm.trans (streamHash_of_verifies verified)
  have sameBytes := free (by simp) (by simp) (congrArg TypedHash.digest sameHash)
  exact (encodeStream_injective sameBytes).symm

/-! ## An example -/

section Example

open Fixture

/-- The actions of the sample verify, and an empty stream does not. -/
theorem sample_verifies : ∃ plan,
    sampleRequest.Plans MemoryActionSink.toActionSink sampleSink plan sampleActions ∧
      verifyPlan sampleActions plan = .ok () ∧ verifyPlan [] plan ≠ .ok () := by
  obtain ⟨plan, plans⟩ := sample_plans
  have verification := verifyPlan_iff_emitted plans
  refine ⟨plan, plans, verification.1, fun verified => ?_⟩
  have some : sampleActions.length ≠ 0 :=
    of_sample (P := fun actions => actions.length ≠ 0) (by decide +kernel)
  exact some ((length_of_verifies verification.1).trans (length_of_verifies verified).symm)

end Example

end OpenMemory.Merge
