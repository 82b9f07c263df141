import OpenMemory.Merge.Receipt
import OpenMemory.Merge.Snapshot

/-!
# Plans and their sinks

A plan is a stream of semantic actions and a summary that binds it: the exact
inputs, the counts, the accounting and the predicted result. The stream goes to
a sink while it is made; the summary comes last. A sink is told when a plan
begins and when it is finished, and is told to abort after every failure in
between.

`MemoryActionSink` collects the stream in memory. It exposes a plan only after
`finish`, and an abort after that changes nothing.
-/

namespace OpenMemory.Merge

open Foundation

def mergePlanVersion : Nat := 1
def maxActions : Nat := 3000000

/-! ## Policy and receipts -/

def SelfLoopsBounded (predicates : Finset String) : Prop :=
  predicates.card ≤ 64 ∧ ∀ predicate ∈ predicates,
    predicate ≠ "" ∧ predicate.utf8ByteSize ≤ 128 ∧ predicate.toList.any isControl = false

instance (predicates : Finset String) : Decidable (SelfLoopsBounded predicates) :=
  inferInstanceAs (Decidable (_ ∧ _))

structure MergePolicy where
  version : UInt16
  identityPolicyGeneration : UInt64
  allowedSelfLoopPredicates : Finset String
  positive : version ≠ 0 ∧ identityPolicyGeneration ≠ 0
  self_loops_bounded : SelfLoopsBounded allowedSelfLoopPredicates

namespace MergePolicy

def new (version : UInt16) (identityPolicyGeneration : UInt64) : MergeResult MergePolicy :=
  if positive : version ≠ 0 ∧ identityPolicyGeneration ≠ 0 then
    .ok ⟨version, identityPolicyGeneration, ∅, positive, by simp [SelfLoopsBounded]⟩
  else .error ⟨.invalidInput, "merge policy and identity policy generations must be positive"⟩

def withAllowedSelfLoops (policy : MergePolicy) (predicates : List String) :
    MergeResult MergePolicy :=
  if bounded : SelfLoopsBounded predicates.toFinset then
    .ok { policy with
      allowedSelfLoopPredicates := predicates.toFinset
      self_loops_bounded := bounded }
  else .error ⟨.boundExceeded, "self-loop predicate policy exceeds bounds"⟩

def allowsSelfLoop (policy : MergePolicy) (predicate : String) : Bool :=
  decide (predicate ∈ policy.allowedSelfLoopPredicates)

end MergePolicy

/-- The receipts one planning run consumes. -/
structure PlanningReceipts where
  discoveries : List DiscoveryReceipt
  resolutions : List IdentityResolutionReceipt
  keepDistinct : List KeepDistinctReceipt

/-! ## Actions -/

inductive DistinctReason where
  | noCandidate
  | reviewedDifferent
  | keepDistinct
  deriving DecidableEq

namespace DistinctReason

def toNat : DistinctReason → Nat
  | noCandidate => 0
  | reviewedDifferent => 1
  | keepDistinct => 2

theorem toNat_injective : Function.Injective toNat := by
  intro left right same
  cases left <;> cases right <;> first | rfl | cases same

theorem toNat_lt (reason : DistinctReason) : reason.toNat < 2 ^ 16 := by
  cases reason <;> decide

end DistinctReason

inductive EntityDisposition where
  | coalesce (source target : EntityAddress) (receipt : ReceiptHash)
  | addDistinct (source : EntityAddress) (result : QualifiedObjectId) (reason : DistinctReason)
      (receipt : Option ReceiptHash)
  deriving DecidableEq

/-- One step from the target towards the result. Source records are carried in full. -/
inductive MergeAction where
  | keepTargetEntity (target : EntityRecord)
  | applyEntityDisposition (source : EntityRecord) (disposition : EntityDisposition)
  | keepTargetObservation (target : ObservationRecord) (resultEntity : ResultObjectId)
  | addObservation (source : ObservationRecord) (result : QualifiedObjectId)
      (resultEntity : ResultObjectId)
  | mergeObservationOrigin (source : ObservationRecord) (target resultEntity : ResultObjectId)
  | keepTargetRelation (target : RelationRecord) (resultSubject resultObject : ResultObjectId)
  | addRelation (source : RelationRecord) (result : QualifiedObjectId)
      (resultSubject resultObject : ResultObjectId)
  | mergeRelationOrigin (source : RelationRecord)
      (target resultSubject resultObject : ResultObjectId)
  deriving DecidableEq

structure ActionCounts where
  targetEntities : Nat := 0
  sourceEntities : Nat := 0
  coalescedEntities : Nat := 0
  addedEntities : Nat := 0
  targetObservations : Nat := 0
  sourceObservations : Nat := 0
  addedObservations : Nat := 0
  mergedObservations : Nat := 0
  targetRelations : Nat := 0
  sourceRelations : Nat := 0
  addedRelations : Nat := 0
  mergedRelations : Nat := 0
  deriving DecidableEq

def ActionCounts.totalActions (counts : ActionCounts) : Nat :=
  counts.targetEntities + counts.sourceEntities + counts.targetObservations +
    counts.sourceObservations + counts.targetRelations + counts.sourceRelations

structure MergeAccounting where
  consumedCandidates : Nat := 0
  consumedDiscoveries : Nat := 0
  consumedResolutions : Nat := 0
  consumedKeepDistinct : Nat := 0
  resultEntities : Nat := 0
  resultObservations : Nat := 0
  resultRelations : Nat := 0
  retainedOrigins : Nat := 0

/-! ## Plans -/

/-- What is known before the first action. -/
structure PlanPrelude where
  version : Nat
  sourceSpace : SpaceId
  targetSpace : SpaceId
  sourceSnapshotHash : SnapshotHash
  targetSnapshotHash : SnapshotHash
  expectedTargetVersion : SpaceVersion
  policyVersion : UInt16
  identityPolicyGeneration : UInt64
  deriving DecidableEq

structure MergePlan where
  preamble : PlanPrelude
  actionStreamHash : ActionStreamHash
  actionCounts : ActionCounts
  accounting : MergeAccounting
  predictedResultHash : PredictedResultHash
  planHash : PlanHash

/-! ## Sinks -/

/-- The consumer of a plan. Its calls may fail, and it keeps the state they left. -/
structure ActionSink (σ : Type) where
  begin : PlanPrelude → Effect MergeError σ Unit
  emit : MergeAction → Effect MergeError σ Unit
  finish : MergePlan → Effect MergeError σ Unit
  abort : σ → σ

inductive MemorySinkState where
  | idle
  | begun
  | finished
  | aborted
  deriving DecidableEq

structure MemoryActionSink where
  capacity : Nat
  state : MemorySinkState
  preamble : Option PlanPrelude
  actions : List MergeAction
  plan : Option MergePlan

namespace MemoryActionSink

def new (capacity : Nat) : MergeResult MemoryActionSink :=
  if capacity = 0 ∨ capacity > maxActions then
    .error ⟨.boundExceeded, "sink action bound must be within 1..=3,000,000"⟩
  else .ok ⟨capacity, .idle, none, [], none⟩

def begin (preamble : PlanPrelude) : Effect MergeError MemoryActionSink Unit :=
  ⟨fun sink =>
    if sink.state ≠ .idle then
      (.error ⟨.protocolViolation, "sink begin called outside idle state"⟩, sink)
    else (.ok (), { sink with preamble := some preamble, state := .begun })⟩

def emit (action : MergeAction) : Effect MergeError MemoryActionSink Unit :=
  ⟨fun sink =>
    if sink.state ≠ .begun then
      (.error ⟨.protocolViolation, "sink emit called outside begun state"⟩, sink)
    else if sink.actions.length = sink.capacity then
      (.error ⟨.sinkFailure, "sink action capacity exceeded"⟩, sink)
    else (.ok (), { sink with actions := sink.actions ++ [action] })⟩

def finish (plan : MergePlan) : Effect MergeError MemoryActionSink Unit :=
  ⟨fun sink =>
    if sink.state ≠ .begun then
      (.error ⟨.protocolViolation, "sink finish called outside begun state"⟩, sink)
    else if sink.preamble ≠ some plan.preamble then
      (.error ⟨.protocolViolation, "finished plan does not match begun prelude"⟩, sink)
    else (.ok (), { sink with plan := some plan, state := .finished })⟩

def abort (sink : MemoryActionSink) : MemoryActionSink :=
  if sink.state ≠ .finished then { sink with plan := none, actions := [], state := .aborted }
  else sink

def toActionSink : ActionSink MemoryActionSink where
  begin := begin
  emit := emit
  finish := finish
  abort := abort

end MemoryActionSink

end OpenMemory.Merge
