import OpenMemory.Merge.Evidence

/-!
# Candidate discovery

An index over the target entities answers, for one source entity, which target
entities could be the same: those that share a lineage, a verified identifier,
a label or an alias. The answer is a receipt. It lists the candidates by the
strength of their signal, keeps at most `cap` of them, and says when it left
some out.

A receipt can only be made by `CandidateIndex.discover`, so all its candidates
carry the receipt's own source; the type keeps that as a field.
-/

namespace OpenMemory.Merge

open Foundation Canonical

def defaultCandidateCap : Nat := 32
def maxCandidateCap : Nat := 128

/-! ## Candidates and receipts -/

inductive CandidateSignal where
  | lineage
  | verifiedIdentifier
  | exactLabel
  | aliasName
  deriving DecidableEq

namespace CandidateSignal

def toNat : CandidateSignal → Nat
  | lineage => 0
  | verifiedIdentifier => 1
  | exactLabel => 2
  | aliasName => 3

theorem toNat_injective : Function.Injective toNat := by
  intro left right same
  cases left <;> cases right <;> first | rfl | cases same

instance : LinearOrder CandidateSignal := LinearOrder.lift' toNat toNat_injective

end CandidateSignal

/-- A candidate pair and the signals that discovered it. -/
structure IdentityCandidate where
  target : EntityRevisionRef
  source : EntityRevisionRef
  signals : Finset CandidateSignal
  hash : CandidateHash

namespace IdentityCandidate

def new [Blake3] (target source : EntityRevisionRef) (signals : Finset CandidateSignal) :
    IdentityCandidate where
  target := target
  source := source
  signals := signals
  hash := ((CanonicalHasher.new "openmemory/identity-candidate/v1").absorb
    (encodeRevisionRef target ++ (encodeRevisionRef source ++
      counted (fun signal : CandidateSignal => u16 signal.toNat) (ascending signals)))).finish
        .candidate

/-- The strongest signal. -/
def priority (candidate : IdentityCandidate) : CandidateSignal :=
  (ascending candidate.signals).head?.getD .aliasName

end IdentityCandidate

/-- The discovery result for one source entity. -/
structure DiscoveryReceipt where
  discoveryGeneration : UInt64
  policyGeneration : UInt64
  source : EntityRevisionRef
  candidates : List IdentityCandidate
  totalLowerBound : Nat
  cap : Nat
  truncated : Bool
  hash : ReceiptHash
  candidates_source : ∀ candidate ∈ candidates, candidate.source = source

def hashDiscovery [Blake3] (discoveryGeneration policyGeneration : UInt64)
    (source : EntityRevisionRef) (candidates : List IdentityCandidate)
    (totalLowerBound cap : Nat) (truncated : Bool) : ReceiptHash :=
  ((CanonicalHasher.new "openmemory/discovery-receipt/v1").absorb
    (u64 discoveryGeneration.toNat ++ (u64 policyGeneration.toNat ++
      (encodeRevisionRef source ++
        (counted (fun candidate : IdentityCandidate => Canonical.hash candidate.hash) candidates ++
          (u64 totalLowerBound ++ (u16 cap ++ Canonical.bool truncated))))))).finish .receipt

/-! ## The index -/

abbrev AddressIndex (κ : Type) [LinearOrder κ] := OrderedMap κ (Finset EntityAddress)

/-- A normalized name under a kind; an absent kind comes first. -/
def nameKey (name : String) (kind : Option String) : String ×ₗ (Nat ×ₗ String) :=
  toLex (name, toLex (match kind with
    | none => (0, "")
    | some kind => (1, kind)))

/-- `entry(key).or_default().insert(element)`. -/
def insertAt {κ α : Type} [LinearOrder κ] [DecidableEq α] (map : OrderedMap κ (Finset α))
    (key : κ) (element : α) : OrderedMap κ (Finset α) :=
  map.insert key (insert element (map[key]?.getD ∅))

structure CandidateIndex where
  discoveryGeneration : UInt64
  targetSnapshot : SnapshotId
  policy : IdentityPolicy
  entities : OrderedMap EntityAddress EntityRecord
  lineage : AddressIndex String
  verified : AddressIndex (String ×ₗ String)
  labels : AddressIndex (String ×ₗ (Nat ×ₗ String))
  aliases : AddressIndex (String ×ₗ (Nat ×ₗ String))

namespace CandidateIndex

/-- The identifier is verified under this snapshot and the policy's resolver generation. -/
def isCurrent (policy : IdentityPolicy) (snapshot : SnapshotId)
    (identifier : IdentifierAssertion) : Bool :=
  match policy.resolverGeneration identifier.namespaceName with
  | some required => isCurrentVerified identifier snapshot required
  | none => false

section Build

variable [CaseMapping]

/-- The body of the loop of `build`. -/
def addEntity (index : CandidateIndex) (entity : EntityRecord) : MergeResult CandidateIndex := do
  let address := entity.address
  refuseIf ((index.entities[address]?).isSome = true)
    ⟨.duplicateInput, "candidate index entity is duplicated"⟩
  pure { index with
    entities := index.entities.insert address entity
    lineage := match entity.lineage with
      | some lineage => insertAt index.lineage lineage address
      | none => index.lineage
    verified := (ascending entity.identifiers).foldl (fun verified identifier =>
      if isCurrent index.policy index.targetSnapshot identifier = true then
        insertAt verified (toLex (identifier.namespaceName, identifier.value)) address
      else verified) index.verified
    labels := insertAt index.labels (nameKey (normalizeLabel entity.label) entity.kind) address
    aliases := (ascending entity.aliases).foldl (fun aliases name =>
      insertAt aliases (nameKey (normalizeLabel name) entity.kind) address) index.aliases }

def build (discoveryGeneration : UInt64) (targetSnapshot : SnapshotId) (policy : IdentityPolicy)
    (entities : List EntityRecord) : MergeResult CandidateIndex := do
  refuseIf (discoveryGeneration = 0) ⟨.invalidInput, "discovery generation must be positive"⟩
  entities.foldlM addEntity {
    discoveryGeneration := discoveryGeneration
    targetSnapshot := targetSnapshot
    policy := policy
    entities := ∅
    lineage := ∅
    verified := ∅
    labels := ∅
    aliases := ∅ }

/-- An index is bound to the policy and the snapshot it was built under, and
holds only the entities it was given. -/
theorem build_ok {discoveryGeneration : UInt64} {targetSnapshot : SnapshotId}
    {policy : IdentityPolicy} {entities : List EntityRecord} {index : CandidateIndex}
    (built : build discoveryGeneration targetSnapshot policy entities = .ok index) :
    index.targetSnapshot = targetSnapshot ∧ index.policy = policy ∧
      ∀ (address : EntityAddress) (record : EntityRecord),
        index.entities[address]? = some record → record ∈ entities := by
  obtain ⟨_, _, run⟩ := bind_eq_ok.mp built
  refine foldlM_prefix_induction (motive := fun seen index =>
    index.targetSnapshot = targetSnapshot ∧ index.policy = policy ∧
      ∀ (address : EntityAddress) (record : EntityRecord),
        index.entities[address]? = some record → record ∈ seen) ?_ ?_ run
  · exact ⟨rfl, rfl, by simp⟩
  · intro seen entity before after ⟨snapshot, policies, holds⟩ step
    simp only [addEntity, bind_eq_ok, refuseIf_eq_ok, pure_eq_ok] at step
    obtain ⟨_, _, rfl⟩ := step
    refine ⟨snapshot, policies, ?_⟩
    intro address record found
    rw [OrderedMap.get_insert] at found
    split at found
    · cases found
      simp
    · exact List.mem_append_left _ (holds address record found)

end Build

/-! ## Discovery -/

def addMatches (output : OrderedMap EntityAddress (Finset CandidateSignal))
    (matching : Option (Finset EntityAddress)) (signal : CandidateSignal) :
    OrderedMap EntityAddress (Finset CandidateSignal) :=
  match matching with
  | some addresses => (ascending addresses).foldl
      (fun output address => insertAt output address signal) output
  | none => output

section Discover

variable [CaseMapping]

/-- The target addresses that share something with the source, with their signals. -/
def findMatches (index : CandidateIndex) (source : EntityRecord) (sourceSnapshot : SnapshotId) :
    OrderedMap EntityAddress (Finset CandidateSignal) :=
  let byLineage := match source.lineage with
    | some lineage => addMatches ∅ index.lineage[lineage]? .lineage
    | none => ∅
  let byIdentifier := (ascending source.identifiers).foldl (fun output identifier =>
    if isCurrent index.policy sourceSnapshot identifier = true then
      addMatches output
        index.verified[(toLex (identifier.namespaceName, identifier.value) :
          String ×ₗ String)]? .verifiedIdentifier
    else output) byLineage
  let byLabel := addMatches byIdentifier
    index.labels[nameKey (normalizeLabel source.label) source.kind]? .exactLabel
  (ascending source.aliases).foldl (fun output name =>
    let key := nameKey (normalizeLabel name) source.kind
    addMatches (addMatches output index.labels[key]? .aliasName) index.aliases[key]? .aliasName)
    byLabel

/-- The order of the receipt: the stronger signal first, then the target address. -/
def precedes (left right : IdentityCandidate) : Prop :=
  left.priority < right.priority ∨
    (left.priority = right.priority ∧ left.target.address ≤ right.target.address)

instance (left right : IdentityCandidate) : Decidable (precedes left right) :=
  inferInstanceAs (Decidable (_ ∨ _))

variable [Blake3]

/-- All candidates, strongest first, before the cap is applied. -/
def rankedCandidates (index : CandidateIndex) (source : EntityRecord)
    (sourceSnapshot : SnapshotId) : List IdentityCandidate :=
  ((findMatches index source sourceSnapshot).toList.filterMap fun entry =>
    (index.entities[entry.1]?).map fun target =>
      IdentityCandidate.new (target.refIn index.targetSnapshot) (source.refIn sourceSnapshot)
        entry.2).insertionSort precedes

/-- A ranked candidate pairs an indexed entity with the source. -/
theorem mem_rankedCandidates {index : CandidateIndex} {source : EntityRecord}
    {sourceSnapshot : SnapshotId} {candidate : IdentityCandidate}
    (member : candidate ∈ rankedCandidates index source sourceSnapshot) :
    candidate.source = source.refIn sourceSnapshot ∧
      ∃ (address : EntityAddress) (target : EntityRecord),
        index.entities[address]? = some target ∧
        candidate.target = target.refIn index.targetSnapshot := by
  rw [rankedCandidates, List.mem_insertionSort, List.mem_filterMap] at member
  obtain ⟨⟨address, signals⟩, _, made⟩ := member
  obtain ⟨target, found, rfl⟩ := Option.map_eq_some_iff.mp made
  exact ⟨rfl, address, target, found, rfl⟩

def discover (index : CandidateIndex) (source : EntityRecord) (sourceSnapshot : SnapshotId)
    (cap : Nat) : MergeResult DiscoveryReceipt := do
  refuseIf (cap = 0 ∨ cap > maxCandidateCap)
    ⟨.boundExceeded, "candidate cap must be within 1..=128"⟩
  let sourceRef := source.refIn sourceSnapshot
  let totalLowerBound := (findMatches index source sourceSnapshot).size
  let ranked := rankedCandidates index source sourceSnapshot
  let truncated := decide (ranked.length > cap)
  pure {
    discoveryGeneration := index.discoveryGeneration
    policyGeneration := index.policy.policyGeneration
    source := sourceRef
    candidates := ranked.take cap
    totalLowerBound := totalLowerBound
    cap := cap
    truncated := truncated
    hash := hashDiscovery index.discoveryGeneration index.policy.policyGeneration sourceRef
      (ranked.take cap) totalLowerBound cap truncated
    candidates_source := fun _ member =>
      (mem_rankedCandidates (List.mem_of_mem_take member)).1 }

/-- A receipt is bound to its source revision and policy, and its candidates are
revisions of indexed entities. -/
theorem discover_ok {index : CandidateIndex} {source : EntityRecord} {sourceSnapshot : SnapshotId}
    {cap : Nat} {receipt : DiscoveryReceipt}
    (discovered : index.discover source sourceSnapshot cap = .ok receipt) :
    receipt.source = source.refIn sourceSnapshot ∧
      receipt.policyGeneration = index.policy.policyGeneration ∧
      ∀ candidate ∈ receipt.candidates, ∃ (address : EntityAddress) (target : EntityRecord),
        index.entities[address]? = some target ∧
          candidate.target = target.refIn index.targetSnapshot := by
  simp only [discover, bind_eq_ok, refuseIf_eq_ok, pure_eq_ok] at discovered
  obtain ⟨_, _, rfl⟩ := discovered
  refine ⟨rfl, rfl, ?_⟩
  intro candidate member
  exact (mem_rankedCandidates (List.mem_of_mem_take member)).2

end Discover

end CandidateIndex

end OpenMemory.Merge
