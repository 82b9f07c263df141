import OpenMemory.Merge.Fixture

/-!
# Repeated relation assertions

Two relation records assert the same when they agree in subject, predicate,
object and lifecycle. A target that repeats an assertion is refused: its keys
are compared as the target relations are read. A source that does is not: the
second record finds the first one under its key, as it would find a relation of
the target, and is merged into it (`repeated_merged`). So among successful runs
only a source can repeat itself.
-/

namespace OpenMemory.Merge

open Foundation

/-- What a relation record asserts. -/
def RelationRecord.assertion (record : RelationRecord) :
    EntityAddress × String × EntityAddress × Lifecycle :=
  (record.subject, record.predicate, record.object, record.lifecycle)

/-- No two relation records of the snapshot assert the same. -/
def SnapshotSource.DistinctAssertions (snapshot : SnapshotSource) : Prop :=
  ∀ first ∈ snapshot.relations.records, ∀ last ∈ snapshot.relations.records,
    first.assertion = last.assertion → first = last

namespace Outcome

variable [Blake3] {request : MergeRequest} {decisions : Decisions}

/-- The target of a successful run does not repeat an assertion. -/
theorem target_distinctAssertions (outcome : Outcome request decisions) :
    request.target.DistinctAssertions := by
  intro first firstMember last lastMember same
  refine List.inj_on_of_nodup_map outcome.relations.distinct firstMember lastMember ?_
  simp only [RelationRecord.assertion, Prod.mk.injEq] at same
  obtain ⟨subject, predicate, object, lifecycle⟩ := same
  simp only [heldRelation, subject, predicate, object, lifecycle]

/-- Of two source records that assert the same, one is merged into the other's result. -/
theorem repeated_merged (outcome : Outcome request decisions) {first last : RelationRecord}
    (firstMember : first ∈ request.source.relations.records)
    (lastMember : last ∈ request.source.relations.records) (different : first ≠ last)
    (same : first.assertion = last.assertion) :
    ∃ record, (record = first ∨ record = last) ∧ ∃ target resultSubject resultObject,
      MergeAction.mergeRelationOrigin record target resultSubject resultObject ∈
        decisions.actions request.target := by
  rw [← outcome.relations.records] at firstMember lastMember
  obtain ⟨left, leftMember, rfl⟩ := List.mem_map.mp firstMember
  obtain ⟨right, rightMember, rfl⟩ := List.mem_map.mp lastMember
  simp only [RelationRecord.assertion, Prod.mk.injEq] at same
  obtain ⟨subject, predicate, object, lifecycle⟩ := same
  have sameKey : left.key = right.key := by
    obtain ⟨leftSubject, leftObject, leftPredicate, leftLifecycle⟩ :=
      outcome.relations.rewired left leftMember
    obtain ⟨rightSubject, rightObject, rightPredicate, rightLifecycle⟩ :=
      outcome.relations.rewired right rightMember
    rw [subject] at leftSubject
    rw [object] at leftObject
    refine Prod.ext (outcome.becomes_unique leftSubject rightSubject) (Prod.ext ?_ (Prod.ext
      (outcome.becomes_unique leftObject rightObject) ?_))
    · rw [leftPredicate, rightPredicate, predicate]
    · rw [leftLifecycle, rightLifecycle, lifecycle]
  have merged : ∀ landing ∈ decisions.relations, ∀ target, landing.found = some target →
      ∃ target resultSubject resultObject, MergeAction.mergeRelationOrigin landing.record target
        resultSubject resultObject ∈ decisions.actions request.target := by
    intro landing member target finds
    refine ⟨target, landing.key.1, landing.key.2.2.1, List.mem_append_right _
      (List.mem_append_right _ (List.mem_map.mpr ⟨landing, member, ?_⟩))⟩
    simp only [relationAction, finds]
  cases leftFinds : left.found with
  | some target => exact ⟨_, .inl rfl, merged left leftMember target leftFinds⟩
  | none =>
    cases rightFinds : right.found with
    | some target => exact ⟨_, .inr rfl, merged right rightMember target rightFinds⟩
    | none =>
      -- two newcomers with one key would be the same landing
      have keys := outcome.relations.landed.nodup_keys (by
        rw [List.map_map]
        exact outcome.relations.distinct)
      have newcomers := (List.nodup_append.mp keys).2.1
      have same := List.inj_on_of_nodup_map newcomers
        (List.mem_filter.mpr ⟨leftMember, by rw [leftFinds]; rfl⟩)
        (List.mem_filter.mpr ⟨rightMember, by rw [rightFinds]; rfl⟩) sameKey
      exact absurd (congrArg Landing.record same) different

end Outcome

/-- **A successful run has no repeated assertion on either side** if and only if it
has none in the source: only the target is checked. A repeated assertion of the
source is merged away. -/
theorem distinctAssertions_iff_source [Blake3] {σ : Type} {request : MergeRequest}
    {sink : ActionSink σ} {s : σ} {plan : MergePlan} {actions : List MergeAction}
    (plans : request.Plans sink s plan actions) :
    ((request.target.DistinctAssertions ∧ request.source.DistinctAssertions) ↔
      request.source.DistinctAssertions) ∧
    ∀ first ∈ request.source.relations.records, ∀ last ∈ request.source.relations.records,
      first ≠ last → first.assertion = last.assertion →
        ∃ record, (record = first ∨ record = last) ∧ ∃ target resultSubject resultObject,
          MergeAction.mergeRelationOrigin record target resultSubject resultObject ∈ actions := by
  obtain ⟨decisions, outcome, rfl, _⟩ := plans.outcome
  refine ⟨and_iff_right outcome.target_distinctAssertions, ?_⟩
  intro first firstMember last lastMember different same
  exact outcome.repeated_merged firstMember lastMember different same

/-! ## Examples -/

section Examples

open Fixture

theorem sample_distinctAssertions : ∃ plan actions,
    sampleRequest.Plans MemoryActionSink.toActionSink sampleSink plan actions ∧
      sampleRequest.target.DistinctAssertions ∧ sampleRequest.source.DistinctAssertions := by
  obtain ⟨plan, plans⟩ := sample_plans
  refine ⟨plan, _, plans, (distinctAssertions_iff_source plans).1.mpr ?_⟩
  unfold SnapshotSource.DistinctAssertions
  decide

/-- A source that asserts twice that Ada knows the engine. -/
def repeatingSource : MemorySnapshot :=
  unwrap (memorySnapshot (snapshotId 21) (space 2) 2
    [entity (space 2) "ada" 40 "Ada" "person", entity (space 2) "engine" 41 "Engine" "machine"] []
    [relation (space 2) "first" "ada" "knows" "engine" 42,
      relation (space 2) "last" "ada" "knows" "engine" 43]) (by decide)

theorem repeating_planned : (planningReceipts sampleTarget repeatingSource samplePolicy
    [("ada", "ada"), ("engine", "engine")]).isSome = true := by decide

def repeatingRequest : MergeRequest := requestOf sampleTarget repeatingSource _ repeating_planned

theorem repeating_succeeds :
    ((repeatingRequest.run MemoryActionSink.toActionSink.recorded).run
      (sampleSink, [])).1.toOption.isSome = true := by decide +kernel

/-- A repeated assertion of the source is not rejected. -/
theorem repeating_not_rejected : ∃ plan actions,
    repeatingRequest.Plans MemoryActionSink.toActionSink sampleSink plan actions ∧
      ¬ repeatingRequest.source.DistinctAssertions := by
  obtain ⟨plan, plans⟩ := plans_of_succeeds repeating_succeeds
  refine ⟨plan, _, plans, ?_⟩
  unfold SnapshotSource.DistinctAssertions
  decide

end Examples

end OpenMemory.Merge
