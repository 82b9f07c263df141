import OpenMemory.Merge.Planner.Plan

/-!
# What a plan says about its action stream

A plan names its stream in three ways: by the hash of the encoded actions, by
the counts of the action kinds, and by the hash of the predicted result. The
result is described by tokens: one for the semantic fields of each result
object, and one for each origin it retains. Tokens are sorted and repetitions
dropped, so an origin that reaches one object on several ways is counted once.

The encoding of a stream determines the stream (`encodeStream_injective`), and
`verifyPlan` recomputes all three from the actions alone.
-/

namespace OpenMemory.Merge

open Foundation Canonical

/-! ## The encoding of actions -/

def encodeDisposition : EntityDisposition → Bytes
  | .coalesce source target receipt =>
    u16 1 ++ (encodeAddress source ++ (encodeAddress target ++ Canonical.hash receipt))
  | .addDistinct source result reason receipt =>
    u16 2 ++ (encodeAddress source ++ (text result.value ++ (u16 reason.toNat ++
      (Canonical.bool receipt.isSome ++ (match receipt with
        | some receipt => Canonical.hash receipt
        | none => [])))))

def encodeAction : MergeAction → Bytes
  | .keepTargetEntity target => u16 1 ++ encodeEntity target
  | .applyEntityDisposition source disposition =>
    u16 2 ++ (encodeEntity source ++ encodeDisposition disposition)
  | .keepTargetObservation target resultEntity =>
    u16 3 ++ (encodeObservation target ++ encodeResultId resultEntity)
  | .addObservation source result resultEntity =>
    u16 4 ++ (encodeObservation source ++ (text result.value ++ encodeResultId resultEntity))
  | .mergeObservationOrigin source target resultEntity =>
    u16 5 ++ (encodeObservation source ++ (encodeResultId target ++ encodeResultId resultEntity))
  | .keepTargetRelation target resultSubject resultObject =>
    u16 6 ++ (encodeRelation target ++ (encodeResultId resultSubject ++
      encodeResultId resultObject))
  | .addRelation source result resultSubject resultObject =>
    u16 7 ++ (encodeRelation source ++ (text result.value ++ (encodeResultId resultSubject ++
      encodeResultId resultObject)))
  | .mergeRelationOrigin source target resultSubject resultObject =>
    u16 8 ++ (encodeRelation source ++ (encodeResultId target ++
      (encodeResultId resultSubject ++ encodeResultId resultObject)))

theorem selfDelimiting_encodeDisposition : SelfDelimiting encodeDisposition := by
  rintro (⟨leftSource, leftTarget, leftReceipt⟩ | ⟨leftSource, leftResult, leftReason, leftReceipt⟩)
    (⟨rightSource, rightTarget, rightReceipt⟩ |
      ⟨rightSource, rightResult, rightReason, rightReceipt⟩) _ _ xs ys same
  all_goals
    simp only [encodeDisposition, List.append_assoc] at same
    obtain ⟨tag, rest⟩ := selfDelimiting_u16 (by decide) (by decide) same
  · obtain ⟨source, rest⟩ := selfDelimiting_encodeAddress.read rest
    obtain ⟨target, rest⟩ := selfDelimiting_encodeAddress.read rest
    obtain ⟨receipt, rest⟩ := selfDelimiting_hash.read rest
    rw [source, target, receipt]
    exact ⟨rfl, rest⟩
  · cases tag
  · cases tag
  · obtain ⟨source, rest⟩ := selfDelimiting_encodeAddress.read rest
    obtain ⟨value, rest⟩ := selfDelimiting_text leftResult.short rightResult.short rest
    obtain ⟨reason, rest⟩ := selfDelimiting_u16 leftReason.toNat_lt rightReason.toNat_lt rest
    obtain ⟨present, rest⟩ := selfDelimiting_bool.read rest
    have result := QualifiedObjectId.value_injective value
    have reasons := DistinctReason.toNat_injective reason
    cases leftReceipt with
    | none =>
      cases rightReceipt with
      | none =>
        rw [source, result, reasons]
        exact ⟨rfl, rest⟩
      | some _ => cases present
    | some leftReceipt =>
      cases rightReceipt with
      | none => cases present
      | some rightReceipt =>
        obtain ⟨receipt, rest⟩ := selfDelimiting_hash.read rest
        rw [source, result, reasons, receipt]
        exact ⟨rfl, rest⟩

theorem selfDelimiting_encodeAction : SelfDelimiting encodeAction := by
  intro left right _ _ xs ys same
  cases left <;> cases right
  all_goals
    simp only [encodeAction, List.append_assoc] at same
    obtain ⟨tag, rest⟩ := selfDelimiting_u16 (by decide) (by decide) same
    cases tag
  case keepTargetEntity.keepTargetEntity =>
    obtain ⟨target, rest⟩ := selfDelimiting_encodeEntity.read rest
    rw [target]
    exact ⟨rfl, rest⟩
  case applyEntityDisposition.applyEntityDisposition =>
    obtain ⟨source, rest⟩ := selfDelimiting_encodeEntity.read rest
    obtain ⟨disposition, rest⟩ := selfDelimiting_encodeDisposition.read rest
    rw [source, disposition]
    exact ⟨rfl, rest⟩
  case keepTargetObservation.keepTargetObservation =>
    obtain ⟨target, rest⟩ := selfDelimiting_encodeObservation.read rest
    obtain ⟨resultEntity, rest⟩ := selfDelimiting_encodeResultId.read rest
    rw [target, resultEntity]
    exact ⟨rfl, rest⟩
  case addObservation.addObservation _ leftResult _ _ rightResult _ =>
    obtain ⟨source, rest⟩ := selfDelimiting_encodeObservation.read rest
    obtain ⟨value, rest⟩ := selfDelimiting_text leftResult.short rightResult.short rest
    obtain ⟨resultEntity, rest⟩ := selfDelimiting_encodeResultId.read rest
    rw [source, QualifiedObjectId.value_injective value, resultEntity]
    exact ⟨rfl, rest⟩
  case mergeObservationOrigin.mergeObservationOrigin =>
    obtain ⟨source, rest⟩ := selfDelimiting_encodeObservation.read rest
    obtain ⟨target, rest⟩ := selfDelimiting_encodeResultId.read rest
    obtain ⟨resultEntity, rest⟩ := selfDelimiting_encodeResultId.read rest
    rw [source, target, resultEntity]
    exact ⟨rfl, rest⟩
  case keepTargetRelation.keepTargetRelation =>
    obtain ⟨target, rest⟩ := selfDelimiting_encodeRelation.read rest
    obtain ⟨resultSubject, rest⟩ := selfDelimiting_encodeResultId.read rest
    obtain ⟨resultObject, rest⟩ := selfDelimiting_encodeResultId.read rest
    rw [target, resultSubject, resultObject]
    exact ⟨rfl, rest⟩
  case addRelation.addRelation _ leftResult _ _ _ rightResult _ _ =>
    obtain ⟨source, rest⟩ := selfDelimiting_encodeRelation.read rest
    obtain ⟨value, rest⟩ := selfDelimiting_text leftResult.short rightResult.short rest
    obtain ⟨resultSubject, rest⟩ := selfDelimiting_encodeResultId.read rest
    obtain ⟨resultObject, rest⟩ := selfDelimiting_encodeResultId.read rest
    rw [source, QualifiedObjectId.value_injective value, resultSubject, resultObject]
    exact ⟨rfl, rest⟩
  case mergeRelationOrigin.mergeRelationOrigin =>
    obtain ⟨source, rest⟩ := selfDelimiting_encodeRelation.read rest
    obtain ⟨target, rest⟩ := selfDelimiting_encodeResultId.read rest
    obtain ⟨resultSubject, rest⟩ := selfDelimiting_encodeResultId.read rest
    obtain ⟨resultObject, rest⟩ := selfDelimiting_encodeResultId.read rest
    rw [source, target, resultSubject, resultObject]
    exact ⟨rfl, rest⟩

theorem encodeAction_ne_nil (action : MergeAction) : encodeAction action ≠ [] := by
  cases action <;> simp [encodeAction, Canonical.u16, leBytes]

/-- The hasher a plan's actions are absorbed by. -/
def actionHasher : CanonicalHasher := CanonicalHasher.new "openmemory/merge-actions/v1"

/-- The bytes a stream is hashed from. -/
def encodeStream (actions : List MergeAction) : Bytes :=
  (actionHasher.absorb (actions.flatMap encodeAction)).absorbed

/-- **A stream is determined by its bytes**, although no count precedes it. -/
theorem encodeStream_injective : Function.Injective encodeStream := by
  intro left right same
  have bodies := List.append_cancel_left same
  exact selfDelimiting_encodeAction.flatMap_injective encodeAction_ne_nil bodies

/-! ## Counts -/

def countAction (counts : ActionCounts) : MergeAction → ActionCounts
  | .keepTargetEntity .. => { counts with targetEntities := counts.targetEntities + 1 }
  | .applyEntityDisposition _ disposition =>
    let counts := { counts with sourceEntities := counts.sourceEntities + 1 }
    match disposition with
    | .coalesce .. => { counts with coalescedEntities := counts.coalescedEntities + 1 }
    | .addDistinct .. => { counts with addedEntities := counts.addedEntities + 1 }
  | .keepTargetObservation .. =>
    { counts with targetObservations := counts.targetObservations + 1 }
  | .addObservation .. => { counts with
      sourceObservations := counts.sourceObservations + 1
      addedObservations := counts.addedObservations + 1 }
  | .mergeObservationOrigin .. => { counts with
      sourceObservations := counts.sourceObservations + 1
      mergedObservations := counts.mergedObservations + 1 }
  | .keepTargetRelation .. => { counts with targetRelations := counts.targetRelations + 1 }
  | .addRelation .. => { counts with
      sourceRelations := counts.sourceRelations + 1
      addedRelations := counts.addedRelations + 1 }
  | .mergeRelationOrigin .. => { counts with
      sourceRelations := counts.sourceRelations + 1
      mergedRelations := counts.mergedRelations + 1 }

theorem totalActions_countAction (counts : ActionCounts) (action : MergeAction) :
    (countAction counts action).totalActions = counts.totalActions + 1 := by
  cases action with
  | applyEntityDisposition source disposition =>
    cases disposition <;> simp only [countAction, ActionCounts.totalActions] <;> omega
  | _ =>
    simp only [countAction, ActionCounts.totalActions]
    omega

/-- Every action is counted once. -/
theorem totalActions_foldl (actions : List MergeAction) (counts : ActionCounts) :
    (actions.foldl countAction counts).totalActions = counts.totalActions + actions.length := by
  induction actions generalizing counts with
  | nil => rfl
  | cons action rest ih =>
    rw [List.foldl_cons, ih, totalActions_countAction, List.length_cons]
    omega

/-! ## Result tokens -/

structure ResultToken where
  kind : Nat
  value : SemanticHash
  deriving DecidableEq

namespace ResultToken

def key (token : ResultToken) : Nat ×ₗ SemanticHash := toLex (token.kind, token.value)

theorem key_injective : Function.Injective key := by
  rintro ⟨_, _⟩ ⟨_, _⟩ same
  obtain ⟨rfl, rfl⟩ := Prod.mk.inj (toLex.injective same)
  rfl

instance : LinearOrder ResultToken := LinearOrder.lift' key key_injective

end ResultToken

section Tokens

variable [Blake3]

/-- The bytes an origin of a result object is hashed from. -/
def originBytes (kind : Nat) (result : ResultObjectId) (origin : OriginContribution) : Bytes :=
  ((CanonicalHasher.new "openmemory/result-origin/v1").absorb
    (u16 kind ++ (encodeResultId result ++ encodeOrigin origin))).absorbed

def originsOnly (kind : Nat) (result : ResultObjectId) (origins : Finset OriginContribution) :
    List ResultToken :=
  (ascending origins).map fun origin => ⟨kind, ⟨Blake3.hash (originBytes kind result origin)⟩⟩

def projectionAndOrigins (projectionKind originKind : Nat) (result : ResultObjectId)
    (projection : SemanticHash) (origins : Finset OriginContribution) : List ResultToken :=
  ⟨projectionKind, projection⟩ :: originsOnly originKind result origins

def entityProjection (result : ResultObjectId) (record : EntityRecord) : SemanticHash :=
  ((CanonicalHasher.new "openmemory/result-entity-projection/v1").absorb
    (encodeResultId result ++ (idText record.revision ++ (u16 record.lifecycle.toNat ++
      (text record.label ++ (optionalText record.kind ++ (optionalText record.lineage ++
        (counted text (ascending record.aliases) ++
          (counted encodeIdentifier (ascending record.identifiers) ++
            counted encodeProperty record.properties.toList))))))))).finish .semantic

def observationProjection (result resultEntity : ResultObjectId) (record : ObservationRecord) :
    SemanticHash :=
  ((CanonicalHasher.new "openmemory/result-observation-projection/v1").absorb
    (encodeResultId result ++ (encodeResultId resultEntity ++ (idText record.revision ++
      (u16 record.lifecycle.toNat ++ text record.content))))).finish .semantic

def relationProjection (result subject object : ResultObjectId) (record : RelationRecord) :
    SemanticHash :=
  ((CanonicalHasher.new "openmemory/result-relation-projection/v1").absorb
    (encodeResultId result ++ (encodeResultId subject ++ (text record.predicate ++
      (encodeResultId object ++ (idText record.revision ++
        u16 record.lifecycle.toNat)))))).finish .semantic

def resultTokens : MergeAction → List ResultToken
  | .keepTargetEntity target =>
    let result := .target target.address.logicalId
    projectionAndOrigins 1 2 result (entityProjection result target) target.origins
  | .applyEntityDisposition source disposition =>
    match disposition with
    | .coalesce _ target _ => originsOnly 2 (.target target.logicalId) source.origins
    | .addDistinct _ result _ _ =>
      projectionAndOrigins 1 2 (.qualified result) (entityProjection (.qualified result) source)
        source.origins
  | .keepTargetObservation target resultEntity =>
    let result := .target target.address.logicalId
    projectionAndOrigins 3 4 result (observationProjection result resultEntity target)
      target.origins
  | .addObservation source result resultEntity =>
    projectionAndOrigins 3 4 (.qualified result)
      (observationProjection (.qualified result) resultEntity source) source.origins
  | .mergeObservationOrigin source target _ => originsOnly 4 target source.origins
  | .keepTargetRelation target resultSubject resultObject =>
    let result := .target target.address.logicalId
    projectionAndOrigins 5 6 result
      (relationProjection result resultSubject resultObject target) target.origins
  | .addRelation source result resultSubject resultObject =>
    projectionAndOrigins 5 6 (.qualified result)
      (relationProjection (.qualified result) resultSubject resultObject source) source.origins
  | .mergeRelationOrigin source target _ _ => originsOnly 6 target source.origins

/-- `sort_unstable` and `dedup`: equal tokens of a sorted list are neighbours. -/
def sortedDistinct (tokens : List ResultToken) : List ResultToken :=
  (tokens.insertionSort (· ≤ ·)).dedup

/-- The tokens that stand for a retained origin. -/
def isOriginToken (token : ResultToken) : Bool :=
  token.kind == 2 || token.kind == 4 || token.kind == 6

def encodeToken (token : ResultToken) : Bytes := u16 token.kind ++ Canonical.hash token.value

def hashResultTokens (tokens : List ResultToken) : PredictedResultHash :=
  ((CanonicalHasher.new "openmemory/predicted-result/v1").absorb
    (counted encodeToken tokens)).finish .predictedResult

/-! ## The plan hash -/

def encodeCounts (value : ActionCounts) : Bytes :=
  [value.targetEntities, value.sourceEntities, value.coalescedEntities, value.addedEntities,
    value.targetObservations, value.sourceObservations, value.addedObservations,
    value.mergedObservations, value.targetRelations, value.sourceRelations, value.addedRelations,
    value.mergedRelations].flatMap u64

def encodeAccounting (value : MergeAccounting) : Bytes :=
  [value.consumedCandidates, value.consumedDiscoveries, value.consumedResolutions,
    value.consumedKeepDistinct, value.resultEntities, value.resultObservations,
    value.resultRelations, value.retainedOrigins].flatMap u64

def hashPlan (preamble : PlanPrelude) (actionStreamHash : ActionStreamHash)
    (counts : ActionCounts) (accounting : MergeAccounting) (predicted : PredictedResultHash) :
    PlanHash :=
  ((CanonicalHasher.new "openmemory/merge-plan/v1").absorb
    (u16 preamble.version ++ (idText preamble.sourceSpace ++ (idText preamble.targetSpace ++
      (Canonical.hash preamble.sourceSnapshotHash ++
        (Canonical.hash preamble.targetSnapshotHash ++
          (encodeSpaceVersion preamble.expectedTargetVersion ++
            (u16 preamble.policyVersion.toNat ++ (u64 preamble.identityPolicyGeneration.toNat ++
              (Canonical.hash actionStreamHash ++ (encodeCounts counts ++
                (encodeAccounting accounting ++ Canonical.hash predicted)))))))))))).finish .plan

/-! ## Revalidation -/

def verifyPlan (actions : List MergeAction) (plan : MergePlan) : MergeResult Unit := do
  refuseIf (actions.length ≠ plan.actionCounts.totalActions)
    ⟨.accountingMismatch, "action length does not match plan counts"⟩
  let actionHash := (actions.foldl (fun hasher action => hasher.absorb (encodeAction action))
    actionHasher).finish .actionStream
  let tokens := sortedDistinct (actions.flatMap resultTokens)
  let counts := actions.foldl countAction {}
  let predicted := hashResultTokens tokens
  let planHash := hashPlan plan.preamble actionHash counts plan.accounting predicted
  refuseIf (actionHash ≠ plan.actionStreamHash ∨ predicted ≠ plan.predictedResultHash ∨
      counts ≠ plan.actionCounts ∨ planHash ≠ plan.planHash)
    ⟨.accountingMismatch, "plan hashes or semantic action structure do not verify"⟩

end Tokens

/-- Absorbing action by action is absorbing the whole stream. -/
theorem foldl_absorb (actions : List MergeAction) (hasher : CanonicalHasher) :
    actions.foldl (fun hasher action => hasher.absorb (encodeAction action)) hasher =
      hasher.absorb (actions.flatMap encodeAction) := by
  induction actions generalizing hasher with
  | nil => simp [CanonicalHasher.absorb]
  | cons action rest ih =>
    rw [List.foldl_cons, ih, List.flatMap_cons, CanonicalHasher.absorb_absorb]

end OpenMemory.Merge
