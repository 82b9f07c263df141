import OpenMemory.Foundation.Blake3
import OpenMemory.Merge.Reference

/-!
# The fixtures of the test suite

The tests build small snapshots with the public constructors and sign receipts
for them (`planningReceipts`): every source entity is discovered, and every
candidate is resolved by a reviewer, same for the listed pairs and different for
the others. Receipts made so are genuine, whatever the snapshots are
(`planningReceipts_genuine`).

Fixtures are meant to be evaluated. So the hash function is blake3 itself here,
and names are lower-cased letter by letter.
-/

/-!
## Genuine receipts

Receipts are genuine when they were made by their public constructors from the
records of the two snapshots: discoveries by an index over target entities,
resolutions by signing the analysis of two records, and keep-distinct receipts
from a discovery. A genuine discovery names entities of the snapshots, and a
genuine resolution that decides same was signed by a person on evidence without
a contradiction.
-/

namespace OpenMemory.Merge

open Foundation

section Genuine

variable [Blake3] {target source : MemorySnapshot} {policy : IdentityPolicy}

/-- A record of one of the two snapshots, under the identifier of that snapshot. -/
def OfPair (target source : MemorySnapshot) (record : EntityRecord) (snapshot : SnapshotId) :
    Prop :=
  (record ∈ target.entities ∧ snapshot = target.header.snapshotId) ∨
    (record ∈ source.entities ∧ snapshot = source.header.snapshotId)

/-- Entities of a snapshot are told apart by their addresses. -/
theorem MemorySnapshot.entity_unique {snapshot : MemorySnapshot} {first last : EntityRecord}
    (firstMember : first ∈ snapshot.entities) (lastMember : last ∈ snapshot.entities)
    (same : first.address = last.address) : first = last := by
  have distinct : (snapshot.entities.map EntityRecord.address).Nodup :=
    snapshot.formed.entities_sorted.imp fun below => ne_of_lt below
  exact List.inj_on_of_nodup_map distinct firstMember lastMember same

/-- A record of the pair at an address of the target is a record of the target. -/
theorem OfPair.of_target {record : EntityRecord} {snapshot : SnapshotId}
    (ofPair : OfPair target source record snapshot)
    (distinct : target.header.spaceId ≠ source.header.spaceId)
    (here : record.address.space = target.header.spaceId) : record ∈ target.entities := by
  rcases ofPair with ⟨member, _⟩ | ⟨member, _⟩
  · exact member
  · have there := source.formed.entities_here _ (List.mem_map_of_mem member)
    exact absurd (here.symm.trans there) distinct

theorem OfPair.of_source {record : EntityRecord} {snapshot : SnapshotId}
    (ofPair : OfPair target source record snapshot)
    (distinct : target.header.spaceId ≠ source.header.spaceId)
    (here : record.address.space = source.header.spaceId) : record ∈ source.entities := by
  rcases ofPair with ⟨member, _⟩ | ⟨member, _⟩
  · have there := target.formed.entities_here _ (List.mem_map_of_mem member)
    exact absurd (there.symm.trans here) distinct
  · exact member

variable [CaseMapping]

/-- A discovery of one source entity in an index of target entities. -/
def DiscoveredIn (target source : MemorySnapshot) (policy : IdentityPolicy)
    (discovery : DiscoveryReceipt) : Prop :=
  ∃ generation entities index record cap, entities ⊆ target.entities ∧
    CandidateIndex.build generation target.header.snapshotId policy entities = .ok index ∧
      record ∈ source.entities ∧ index.discover record source.header.snapshotId cap = .ok discovery

/-- A resolution signed on the analysis of two records of the snapshots. -/
def SignedOn (target source : MemorySnapshot) (policy : IdentityPolicy)
    (resolution : IdentityResolutionReceipt) : Prop :=
  ∃ left leftSnapshot right rightSnapshot packet, OfPair target source left leftSnapshot ∧
    OfPair target source right rightSnapshot ∧
      analyzePair left leftSnapshot right rightSnapshot policy = .ok packet ∧
        ((∃ decision decisionEvent role, IdentityResolutionReceipt.reviewed packet decision
            decisionEvent role = .ok resolution) ∨
          IdentityResolutionReceipt.systemDifferent packet = .ok resolution)

/-- All receipts were made by the public constructors, under this policy. -/
structure Genuine (target source : MemorySnapshot) (policy : IdentityPolicy)
    (receipts : PlanningReceipts) : Prop where
  discoveries : ∀ discovery ∈ receipts.discoveries, DiscoveredIn target source policy discovery
  resolutions : ∀ resolution ∈ receipts.resolutions, SignedOn target source policy resolution
  keepDistinct : ∀ keep ∈ receipts.keepDistinct, ∃ discovery,
    DiscoveredIn target source policy discovery ∧ keep = KeepDistinctReceipt.new discovery

/-- The candidates of a discovery are target entities, and its source is a source entity. -/
theorem DiscoveredIn.bound {discovery : DiscoveryReceipt}
    (discovered : DiscoveredIn target source policy discovery) :
    (∃ record ∈ source.entities, discovery.source = record.refIn source.header.snapshotId) ∧
      ∀ candidate ∈ discovery.candidates, ∃ record ∈ target.entities,
        candidate.target = record.refIn target.header.snapshotId := by
  obtain ⟨_, _, index, record, _, subset, built, member, found⟩ := discovered
  obtain ⟨sourceRef, _, candidates⟩ := CandidateIndex.discover_ok found
  obtain ⟨snapshot, _, holds⟩ := CandidateIndex.build_ok built
  refine ⟨⟨record, member, sourceRef⟩, ?_⟩
  intro candidate candidateMember
  obtain ⟨address, indexed, stored, same⟩ := candidates candidate candidateMember
  exact ⟨indexed, subset (holds address indexed stored), snapshot ▸ same⟩

/-- A resolution that decides same was signed by a reviewer on a packet that
contradicts nothing, and names the packet's pair. -/
theorem SignedOn.of_same {resolution : IdentityResolutionReceipt}
    (signed : SignedOn target source policy resolution) (same : resolution.decision = .same) :
    ∃ left leftSnapshot right rightSnapshot packet, OfPair target source left leftSnapshot ∧
      OfPair target source right rightSnapshot ∧
        analyzePair left leftSnapshot right rightSnapshot policy = .ok packet ∧
          ¬ IdentityResolutionReceipt.Contradicts packet ∧
            resolution.target = left.refIn leftSnapshot ∧
              resolution.source = right.refIn rightSnapshot := by
  obtain ⟨left, leftSnapshot, right, rightSnapshot, packet, leftOf, rightOf, analysed, made⟩ :=
    signed
  obtain ⟨leftRef, rightRef, _⟩ := analyzePair_ok analysed
  refine ⟨left, leftSnapshot, right, rightSnapshot, packet, leftOf, rightOf, analysed, ?_⟩
  rcases made with ⟨decision, _, _, reviewed⟩ | separated
  · obtain ⟨targetRef, sourceRef, decided, _, _, allowed⟩ :=
      IdentityResolutionReceipt.reviewed_ok reviewed
    exact ⟨allowed (decided.symm.trans same), targetRef.trans leftRef, sourceRef.trans rightRef⟩
  · obtain ⟨_, _, different⟩ := IdentityResolutionReceipt.systemDifferent_ok separated
    rw [same] at different
    cases different

end Genuine

end OpenMemory.Merge

namespace OpenMemory.Merge.Fixture

open Foundation

/-! ## Functions outside the repository -/

/-- The hash function of the blake3 crate. -/
scoped instance blake3 : Blake3 where
  hash bytes := ⟨Foundation.Blake3.digest bytes, Foundation.Blake3.digest_lt bytes⟩

/-- Lower-casing of the ASCII letters, and of no others. -/
scoped instance asciiCase : CaseMapping where
  toLowercase value := String.ofList (value.toList.map Char.toLower)

/-! ## Values -/

def unwrap {ε α : Type} (result : Except ε α) (succeeds : result.toOption.isSome = true) : α :=
  result.toOption.get succeeds

theorem unwrap_eq {ε α : Type} {result : Except ε α} {succeeds : result.toOption.isSome = true} :
    result = .ok (unwrap result succeeds) := by
  cases result with
  | error _ => cases succeeds
  | ok _ => rfl

instance neZero_sequences : NeZero (2 ^ 48) := ⟨by decide⟩

/-- The UUID `018f6b7a-4d3c-7abc-8def-…` with the sequence as its last twelve digits. -/
def uuid7 {kind : IdKind} (sequence : Fin (2 ^ 48)) : UuidV7Id kind where
  uuid := ⟨0x018f6b7a4d3c7abc8def * 2 ^ 48 + sequence, by omega⟩
  version7 := by
    show (0x018f6b7a4d3c7abc8def * 2 ^ 48 + sequence.val) / 2 ^ 76 % 16 = 7
    omega

def space (sequence : Fin (2 ^ 48)) : SpaceId := uuid7 sequence

def snapshotId (sequence : Fin (2 ^ 48)) : SnapshotId := uuid7 sequence

def revision (sequence : Fin (2 ^ 48)) : RevisionId := uuid7 sequence

def version (sequence : UInt8) : SpaceVersion where
  domains := [⟨0, sequence.toUInt64, sequence.toUInt64, sequence.toUInt64⟩]
  combinedHash := ⟨⟨(List.replicate 32 sequence).foldl (fun n byte => 256 * n + byte.toNat) 0 %
    256 ^ 32, Nat.mod_lt _ (by norm_num)⟩⟩
  contiguous := ⟨by simp, by simp, by simp⟩

def entity (space : SpaceId) (logicalId : String) (revisionSequence : Fin (2 ^ 48))
    (label kind : String) : MergeResult EntityRecord := do
  EntityRecord.new ⟨space, ← LogicalId.new logicalId⟩ (revision revisionSequence) label (some kind)

def observation (space : SpaceId) (logicalId entityId : String)
    (revisionSequence : Fin (2 ^ 48)) (content : String) : MergeResult ObservationRecord := do
  ObservationRecord.new ⟨space, ← LogicalId.new logicalId⟩ ⟨space, ← LogicalId.new entityId⟩
    (revision revisionSequence) content

def relation (space : SpaceId) (logicalId subject predicate object : String)
    (revisionSequence : Fin (2 ^ 48)) : MergeResult RelationRecord := do
  RelationRecord.new ⟨space, ← LogicalId.new logicalId⟩ ⟨space, ← LogicalId.new subject⟩ predicate
    ⟨space, ← LogicalId.new object⟩ (revision revisionSequence)

/-- A snapshot of records that may fail to be built. -/
def memorySnapshot [Blake3] (snapshot : SnapshotId) (space : SpaceId) (sequence : UInt8)
    (entities : List (MergeResult EntityRecord)) (observations : List (MergeResult ObservationRecord))
    (relations : List (MergeResult RelationRecord)) : MergeResult MemorySnapshot := do
  MemorySnapshot.new snapshot space (version sequence) (← entities.mapM id)
    (← observations.mapM id) (← relations.mapM id)

/-! ## Receipts -/

section Receipts

variable [Blake3] [CaseMapping] (target source : MemorySnapshot) (policy : IdentityPolicy)
  (samePairs : List (String × String))

/-- The receipts made so far, and the next number of a decision event. -/
structure Signing where
  discoveries : List DiscoveryReceipt
  resolutions : List IdentityResolutionReceipt
  eventSequence : Fin (2 ^ 48)

local instance lawfulBEq_pair : LawfulBEq (String × String) := inferInstance

/-- One candidate is analysed and resolved. -/
def signCandidate (sourceRecord : EntityRecord) (signing : Signing)
    (candidate : IdentityCandidate) : Option Signing := do
  let targetRecord ← target.entities.find? fun record =>
    record.address = candidate.target.address
  let packet ← (analyzePair targetRecord target.header.snapshotId sourceRecord
    source.header.snapshotId policy).toOption
  let decision := if (targetRecord.address.logicalId.value,
    sourceRecord.address.logicalId.value) ∈ samePairs then IdentityDecision.same else .different
  let receipt ← (IdentityResolutionReceipt.reviewed packet decision
    (uuid7 signing.eventSequence) .reviewer).toOption
  pure { signing with
    resolutions := signing.resolutions ++ [receipt]
    eventSequence := signing.eventSequence + 1 }

def signEntity (index : CandidateIndex) (signing : Signing) (sourceRecord : EntityRecord) :
    Option Signing := do
  let discovery ← (index.discover sourceRecord source.header.snapshotId
    defaultCandidateCap).toOption
  let signing ← discovery.candidates.foldlM
    (signCandidate target source policy samePairs sourceRecord) signing
  pure { signing with discoveries := signing.discoveries ++ [discovery] }

def planningReceipts : Option PlanningReceipts := do
  let index ← (CandidateIndex.build 1 target.header.snapshotId policy target.entities).toOption
  let signing ← source.entities.foldlM (signEntity target source policy samePairs index)
    ⟨[], [], 900⟩
  pure ⟨signing.discoveries, signing.resolutions, []⟩

/-- What holds of the receipts signed so far. -/
structure SignedSoFar (signing : Signing) : Prop where
  discoveries : ∀ discovery ∈ signing.discoveries, DiscoveredIn target source policy discovery
  resolutions : ∀ resolution ∈ signing.resolutions, SignedOn target source policy resolution

variable {target source policy samePairs}

theorem signCandidate_some {sourceRecord : EntityRecord} {before after : Signing}
    {candidate : IdentityCandidate} (member : sourceRecord ∈ source.entities)
    (soFar : SignedSoFar target source policy before)
    (step : signCandidate target source policy samePairs sourceRecord before candidate =
      some after) : SignedSoFar target source policy after := by
  simp only [signCandidate, Option.bind_eq_bind, Option.bind_eq_some_iff, Option.pure_def,
    Option.some.injEq, toOption_eq_some] at step
  obtain ⟨targetRecord, found, packet, analysed, receipt, reviewed, rfl⟩ := step
  refine ⟨soFar.discoveries, ?_⟩
  refine forall_mem_concat soFar.resolutions ?_
  exact ⟨targetRecord, _, sourceRecord, _, packet, .inl ⟨List.mem_of_find?_eq_some found, rfl⟩,
    .inr ⟨member, rfl⟩, analysed, .inl ⟨_, _, _, reviewed⟩⟩

theorem signEntity_some {index : CandidateIndex} {sourceRecord : EntityRecord}
    {before after : Signing}
    (built : CandidateIndex.build 1 target.header.snapshotId policy target.entities = .ok index)
    (member : sourceRecord ∈ source.entities) (soFar : SignedSoFar target source policy before)
    (step : signEntity target source policy samePairs index before sourceRecord = some after) :
    SignedSoFar target source policy after := by
  simp only [signEntity, Option.bind_eq_bind, Option.bind_eq_some_iff, Option.pure_def,
    Option.some.injEq, toOption_eq_some] at step
  obtain ⟨discovery, discovered, signing, signed, rfl⟩ := step
  have reached := foldlM_some_induction (motive := SignedSoFar target source policy) soFar
    (fun _ _ _ _ soFar step => signCandidate_some member soFar step) signed
  refine ⟨?_, reached.resolutions⟩
  exact forall_mem_concat reached.discoveries
    ⟨_, _, index, sourceRecord, _, fun _ isTarget => isTarget, built, member, discovered⟩

/-- **The receipts of the fixtures are made by the public constructors.** -/
theorem planningReceipts_genuine {receipts : PlanningReceipts}
    (made : planningReceipts target source policy samePairs = some receipts) :
    Genuine target source policy receipts := by
  simp only [planningReceipts, Option.bind_eq_bind, Option.bind_eq_some_iff, Option.pure_def,
    Option.some.injEq, toOption_eq_some] at made
  obtain ⟨index, built, signing, signed, rfl⟩ := made
  have reached := foldlM_some_induction (motive := SignedSoFar target source policy)
    ⟨by simp, by simp⟩
    (fun _ member _ _ soFar step => signEntity_some built member soFar step) signed
  exact ⟨reached.discoveries, reached.resolutions, by simp⟩

end Receipts

/-! ## A sample -/

/-- The target of the sample: two entities, an observation and a relation. -/
def sampleTarget : MemorySnapshot :=
  unwrap (memorySnapshot (snapshotId 20) (space 1) 1
    [entity (space 1) "ada" 30 "Ada" "person", entity (space 1) "engine" 31 "Engine" "machine"]
    [observation (space 1) "wrote" "ada" 32 "wrote a program"]
    [relation (space 1) "knows" "ada" "knows" "engine" 33]) (by decide)

/-- The source of the sample: the same person and machine, and a stranger. -/
def sampleSource : MemorySnapshot :=
  unwrap (memorySnapshot (snapshotId 21) (space 2) 2
    [entity (space 2) "ada" 40 "Ada" "person", entity (space 2) "engine" 41 "Engine" "machine",
      entity (space 2) "guest" 42 "Guest" "person"]
    [observation (space 2) "wrote" "ada" 43 "wrote a program",
      observation (space 2) "visits" "guest" 44 "visits"]
    [relation (space 2) "knows" "ada" "knows" "engine" 45,
      relation (space 2) "meets" "guest" "meets" "ada" 46]) (by decide)

def samplePolicy : IdentityPolicy := unwrap (IdentityPolicy.new 1 1) (by decide)

def sampleMergePolicy : MergePolicy := unwrap (MergePolicy.new 1 1) (by decide)

/-- The request to merge two snapshots with the receipts of the tests. -/
def requestOf (target source : MemorySnapshot) (samePairs : List (String × String))
    (planned : (planningReceipts target source samplePolicy samePairs).isSome = true) :
    MergeRequest :=
  ⟨target.toSource, source.toSource, Option.get _ planned, sampleMergePolicy⟩

theorem sample_planned : (planningReceipts sampleTarget sampleSource samplePolicy
    [("ada", "ada"), ("engine", "engine")]).isSome = true := by decide

def sampleRequest : MergeRequest := requestOf sampleTarget sampleSource _ sample_planned

def sampleSink : MemoryActionSink := unwrap (MemoryActionSink.new 100) (by decide)

/-- A run on a fresh collecting sink that is seen to succeed. -/
theorem plans_of_succeeds {request : MergeRequest}
    (succeeds : ((request.run MemoryActionSink.toActionSink.recorded).run
      (sampleSink, [])).1.toOption.isSome = true) :
    ∃ plan, request.Plans MemoryActionSink.toActionSink sampleSink plan
      (acceptedActions ((request.run MemoryActionSink.toActionSink.recorded).run
        (sampleSink, [])).2.2) :=
  ⟨unwrap _ succeeds, unwrap_eq, rfl⟩

/-- The run on the sample succeeds, with the actions of the materialized reference. -/
theorem sample_evaluated : ((sampleRequest.run MemoryActionSink.toActionSink.recorded).run
      (sampleSink, [])).1.toOption.isSome = true ∧
    referenceActions sampleTarget sampleSource sampleRequest.receipts =
      some (acceptedActions ((sampleRequest.run MemoryActionSink.toActionSink.recorded).run
        (sampleSink, [])).2.2) := by decide +kernel

theorem sample_succeeds : ((sampleRequest.run MemoryActionSink.toActionSink.recorded).run
    (sampleSink, [])).1.toOption.isSome = true := sample_evaluated.1

/-- What the run on the sample emits. -/
def sampleActions : List MergeAction :=
  acceptedActions ((sampleRequest.run MemoryActionSink.toActionSink.recorded).run
    (sampleSink, [])).2.2

/-- What holds of the actions of the reference holds of what the run emits, and is evaluated
without it. -/
theorem of_sample {P : List MergeAction → Prop}
    (holds : ∀ actions ∈ referenceActions sampleTarget sampleSource sampleRequest.receipts,
      P actions) : P sampleActions :=
  holds _ sample_evaluated.2

theorem sample_plans : ∃ plan, sampleRequest.Plans MemoryActionSink.toActionSink sampleSink plan
    sampleActions :=
  plans_of_succeeds sample_succeeds

/-- Byte strings of a list that are told apart by their hashes. -/
theorem collisionFree_of_list (strings : List Bytes) {compared : Set Bytes}
    (listed : ∀ bytes ∈ compared, bytes ∈ strings)
    (apart : ∀ left ∈ strings, ∀ right ∈ strings, Blake3.hash left = Blake3.hash right →
      left = right) : CollisionFree compared :=
  fun _ leftMember _ rightMember same =>
    apart _ (listed _ leftMember) _ (listed _ rightMember) same

theorem collisionFree_pair {left right : Bytes} (apart : Blake3.hash left ≠ Blake3.hash right) :
    CollisionFree {left, right} := by
  rintro first (rfl | rfl) second (rfl | rfl) same
  · rfl
  · exact absurd same apart
  · exact absurd same.symm apart
  · rfl

end OpenMemory.Merge.Fixture
