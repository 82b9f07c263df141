import OpenMemory.Merge.Discovery

/-!
# Identity receipts

A resolution is the decision about one analysed pair. A person who may review
signs either decision, except that a deterministic contradiction is never
overruled; the system itself only separates what is proved different. A
keep-distinct receipt consumes one discovery page as a whole, and decides
nothing about its candidates.
-/

namespace OpenMemory.Merge

open Foundation Canonical

/-! ## Resolutions -/

inductive IdentityDecision where
  | same
  | different
  deriving DecidableEq

def IdentityDecision.toNat : IdentityDecision → Nat
  | same => 0
  | different => 1

inductive ResolutionAuthority where
  | human (decisionEvent : DecisionEventId) (role : SpaceRole)
  | systemContradiction

/-- Who may decide what: a reviewer either way, the system only for separation. -/
def ResolutionAuthority.Permits (authority : ResolutionAuthority)
    (decision : IdentityDecision) : Prop :=
  match authority with
  | human _ role => role.canReview = true
  | systemContradiction => decision = .different

/-- The current decision for one exact candidate pair. -/
structure IdentityResolutionReceipt where
  target : EntityRevisionRef
  source : EntityRevisionRef
  packetHash : PacketHash
  decision : IdentityDecision
  policyGeneration : UInt64
  authority : ResolutionAuthority
  hash : ReceiptHash
  permitted : authority.Permits decision

def encodeAuthority : ResolutionAuthority → Bytes
  | .human decisionEvent role => u16 1 ++ (text decisionEvent.toText ++ u16 role.toNat)
  | .systemContradiction => u16 2

def hashResolution [Blake3] (target source : EntityRevisionRef) (packetHash : PacketHash)
    (decision : IdentityDecision) (policyGeneration : UInt64) (authority : ResolutionAuthority) :
    ReceiptHash :=
  ((CanonicalHasher.new "openmemory/identity-receipt/v1").absorb
    (encodeRevisionRef target ++ (encodeRevisionRef source ++ (Canonical.hash packetHash ++
      (u16 decision.toNat ++ (u64 policyGeneration.toNat ++
        encodeAuthority authority)))))).finish .receipt

variable {receipt : IdentityResolutionReceipt}

namespace IdentityResolutionReceipt

section Build

variable [Blake3]

def build (packet : IdentityPacket) (decision : IdentityDecision)
    (authority : ResolutionAuthority) (permitted : authority.Permits decision) :
    IdentityResolutionReceipt where
  target := packet.left
  source := packet.right
  packetHash := packet.hash
  decision := decision
  policyGeneration := packet.policyGeneration
  authority := authority
  hash := hashResolution packet.left packet.right packet.hash decision packet.policyGeneration
    authority
  permitted := permitted

/-- The packet proves the pair different, whatever else it proves. -/
def Contradicts (packet : IdentityPacket) : Prop :=
  packet.resolution = .proofDifferent ∨ packet.resolution = .conflictingProofs

instance (packet : IdentityPacket) : Decidable (Contradicts packet) :=
  inferInstanceAs (Decidable (_ ∨ _))

def reviewed (packet : IdentityPacket) (decision : IdentityDecision)
    (decisionEvent : DecisionEventId) (role : SpaceRole) :
    MergeResult IdentityResolutionReceipt :=
  if mayReview : role.canReview = true then
    if decision = .same ∧ Contradicts packet then
      .error ⟨.conflictingResolution, "human review cannot override a deterministic contradiction"⟩
    else .ok (build packet decision (.human decisionEvent role) mayReview)
  else .error ⟨.invalidInput, "identity decision requires Reviewer or Maintainer"⟩

def systemDifferent (packet : IdentityPacket) : MergeResult IdentityResolutionReceipt :=
  if packet.resolution ≠ .proofDifferent then
    .error ⟨.conflictingResolution, "system separation requires deterministic proof_different"⟩
  else .ok (build packet .different .systemContradiction rfl)

/-- A reviewed receipt is about the packet's pair, and never overrules a contradiction. -/
theorem reviewed_ok {packet : IdentityPacket} {decision : IdentityDecision}
    {decisionEvent : DecisionEventId} {role : SpaceRole}
    (signed : reviewed packet decision decisionEvent role = .ok receipt) :
    receipt.target = packet.left ∧ receipt.source = packet.right ∧ receipt.decision = decision ∧
      role.canReview = true ∧ receipt.authority = .human decisionEvent role ∧
      (decision = .same → ¬ Contradicts packet) := by
  unfold reviewed at signed
  split at signed
  · rename_i mayReview
    split at signed
    · cases signed
    · rename_i allowed
      cases signed
      exact ⟨rfl, rfl, rfl, mayReview, rfl, fun same contradiction => allowed ⟨same, contradiction⟩⟩
  · cases signed

/-- The system never decides that two entities are the same. -/
theorem systemDifferent_ok {packet : IdentityPacket}
    (separated : systemDifferent packet = .ok receipt) :
    receipt.target = packet.left ∧ receipt.source = packet.right ∧
      receipt.decision = .different := by
  unfold systemDifferent at separated
  split at separated
  · cases separated
  · cases separated
    exact ⟨rfl, rfl, rfl⟩

end Build

def matchesCandidate (receipt : IdentityResolutionReceipt) (candidate : IdentityCandidate) :
    Bool :=
  receipt.target == candidate.target && receipt.source == candidate.source

theorem matchesCandidate_iff {candidate : IdentityCandidate} :
    receipt.matchesCandidate candidate = true ↔
      receipt.target = candidate.target ∧ receipt.source = candidate.source := by
  simp only [matchesCandidate, Bool.and_eq_true, beq_iff_eq]

/-- Only a person who may review decides that two entities are the same. -/
theorem reviewer_of_same (same : receipt.decision = .same) :
    ∃ decisionEvent role, receipt.authority = .human decisionEvent role ∧
      role.canReview = true := by
  have permitted := receipt.permitted
  rcases authority : receipt.authority with ⟨decisionEvent, role⟩ | _
  · rw [authority] at permitted
    exact ⟨decisionEvent, role, rfl, permitted⟩
  · rw [authority] at permitted
    have different : receipt.decision = .different := permitted
    rw [same] at different
    cases different

end IdentityResolutionReceipt

/-! ## Keep-distinct receipts -/

/-- A disposition that consumes exactly one discovery page. -/
structure KeepDistinctReceipt where
  source : EntityRevisionRef
  discoveryHash : ReceiptHash
  policyGeneration : UInt64
  candidateHashes : List CandidateHash
  truncated : Bool
  hash : ReceiptHash

namespace KeepDistinctReceipt

def new [Blake3] (discovery : DiscoveryReceipt) : KeepDistinctReceipt where
  source := discovery.source
  discoveryHash := discovery.hash
  policyGeneration := discovery.policyGeneration
  candidateHashes := discovery.candidates.map IdentityCandidate.hash
  truncated := discovery.truncated
  hash := ((CanonicalHasher.new "openmemory/keep-distinct-receipt/v1").absorb
    (encodeRevisionRef discovery.source ++ (Canonical.hash discovery.hash ++
      (u64 discovery.policyGeneration.toNat ++
        (counted Canonical.hash (discovery.candidates.map IdentityCandidate.hash) ++
          Canonical.bool discovery.truncated))))).finish .receipt

def matchesDiscovery (receipt : KeepDistinctReceipt) (discovery : DiscoveryReceipt) : Bool :=
  receipt.source == discovery.source && receipt.discoveryHash == discovery.hash &&
    receipt.policyGeneration == discovery.policyGeneration &&
    receipt.truncated == discovery.truncated &&
    receipt.candidateHashes == discovery.candidates.map IdentityCandidate.hash

end KeepDistinctReceipt

end OpenMemory.Merge
