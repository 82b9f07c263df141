import OpenMemory.Merge.Encoding

/-!
# Conservative identity evidence

Before two entities may be taken for one, their exact revisions are analysed
under a versioned policy. The analysis separates proofs from context: equal
lineages and matching verified identifiers of an authoritative namespace prove
sameness, differing verified identifiers prove difference, and everything else
(labels, aliases, claimed identifiers, incompatible kinds) is listed but proves
nothing. The packet binds the pair, the policy and the outcome by a hash.
-/

namespace OpenMemory.Merge

open Foundation Canonical

/-! ## Identity policy -/

inductive KindCompatibility where
  | compatible
  | incompatible
  | unknown
  deriving DecidableEq

def validPolicyToken (value : String) : Bool :=
  value != "" && decide (value.utf8ByteSize ≤ maxKindBytes) && trim value == value &&
    !value.toList.any isControl

instance transCmp_kinds : Std.TransCmp (compare : String ×ₗ String → _ → Ordering) := inferInstance

/-- An unordered pair of kinds, smaller one first. -/
def canonicalKindPair (left right : String) : String ×ₗ String :=
  if left ≤ right then toLex (left, right) else toLex (right, left)

theorem canonicalKindPair_comm (left right : String) :
    canonicalKindPair left right = canonicalKindPair right left := by
  unfold canonicalKindPair
  rcases lt_trichotomy left right with below | rfl | above
  · rw [if_pos below.le, if_neg below.not_ge]
  · rfl
  · rw [if_neg above.not_ge, if_pos above.le]

/-- The rules an analysis is made under. -/
structure IdentityPolicy where
  policyGeneration : UInt64
  ontologyGeneration : UInt64
  authoritativeNamespaces : OrderedMap String UInt64
  kindRelations : OrderedMap (String ×ₗ String) KindCompatibility
  positive : policyGeneration ≠ 0 ∧ ontologyGeneration ≠ 0
  namespaces_valid : ∀ name generation, authoritativeNamespaces[name]? = some generation →
    validPolicyToken name = true ∧ generation ≠ 0

namespace IdentityPolicy

def new (policyGeneration ontologyGeneration : UInt64) : MergeResult IdentityPolicy :=
  if positive : policyGeneration ≠ 0 ∧ ontologyGeneration ≠ 0 then
    .ok {
      policyGeneration := policyGeneration
      ontologyGeneration := ontologyGeneration
      authoritativeNamespaces := ∅
      kindRelations := ∅
      positive := positive
      namespaces_valid := by simp }
  else .error ⟨.invalidInput, "identity policy and ontology generations must be positive"⟩

def withAuthoritativeNamespace (policy : IdentityPolicy) (name : String)
    (resolverGeneration : UInt64) : MergeResult IdentityPolicy :=
  if valid : validPolicyToken name = true ∧ resolverGeneration ≠ 0 then
    if (policy.authoritativeNamespaces[name]?).isSome then
      .error ⟨.duplicateInput, "authoritative namespace is duplicated"⟩
    else
      .ok { policy with
        authoritativeNamespaces := policy.authoritativeNamespaces.insert name resolverGeneration
        namespaces_valid := by
          intro other generation found
          rw [OrderedMap.get_insert] at found
          split at found
          · rename_i same
            cases found
            exact same ▸ valid
          · exact policy.namespaces_valid other generation found }
  else .error ⟨.invalidInput, "authoritative namespace and resolver generation are invalid"⟩

def withKindRelation (policy : IdentityPolicy) (left right : String)
    (relation : KindCompatibility) : MergeResult IdentityPolicy :=
  if validPolicyToken left = false ∨ validPolicyToken right = false then
    .error ⟨.invalidInput, "kind relation contains invalid tokens"⟩
  else if (policy.kindRelations[canonicalKindPair left right]?).isSome then
    .error ⟨.duplicateInput, "kind relation is duplicated"⟩
  else
    .ok { policy with
      kindRelations := policy.kindRelations.insert (canonicalKindPair left right) relation }

def resolverGeneration (policy : IdentityPolicy) (name : String) : Option UInt64 :=
  policy.authoritativeNamespaces[name]?

def kindCompatibility (policy : IdentityPolicy) (left right : Option String) :
    KindCompatibility :=
  match left, right with
  | some left, some right =>
    if left = right then .compatible
    else (policy.kindRelations[canonicalKindPair left right]?).getD .unknown
  | _, _ => .unknown

theorem kindCompatibility_comm (policy : IdentityPolicy) (left right : Option String) :
    policy.kindCompatibility left right = policy.kindCompatibility right left := by
  cases left with
  | none => cases right <;> rfl
  | some left =>
    cases right with
    | none => rfl
    | some right =>
      simp only [kindCompatibility, canonicalKindPair_comm left right, eq_comm]

end IdentityPolicy

/-! ## Evidence -/

/-- One exact entity revision of one snapshot. -/
structure EntityRevisionRef where
  address : EntityAddress
  revision : RevisionId
  snapshot : SnapshotId
  deriving DecidableEq

def encodeRevisionRef (value : EntityRevisionRef) : Bytes :=
  encodeAddress value.address ++ (idText value.revision ++ idText value.snapshot)

/-- The revision of a record under a snapshot. -/
def EntityRecord.refIn (record : EntityRecord) (snapshot : SnapshotId) : EntityRevisionRef :=
  ⟨record.address, record.revision, snapshot⟩

theorem EntityRecord.refIn_eq_iff {record : EntityRecord} {snapshot : SnapshotId}
    {reference : EntityRevisionRef} :
    record.refIn snapshot = reference ↔ record.address = reference.address ∧
      record.revision = reference.revision ∧ snapshot = reference.snapshot := by
  cases reference
  simp only [EntityRecord.refIn, EntityRevisionRef.mk.injEq]

inductive EvidenceKind where
  | lineage
  | verifiedIdentifierMatch
  | verifiedIdentifierConflict
  | exactLabel
  | aliasName
  | claimedIdentifier
  | kindIncompatible
  deriving DecidableEq

namespace EvidenceKind

def toNat : EvidenceKind → Nat
  | lineage => 0
  | verifiedIdentifierMatch => 1
  | verifiedIdentifierConflict => 2
  | exactLabel => 3
  | aliasName => 4
  | claimedIdentifier => 5
  | kindIncompatible => 6

theorem toNat_injective : Function.Injective toNat := by
  intro left right same
  cases left <;> cases right <;> first | rfl | cases same

end EvidenceKind

structure EvidenceItem where
  kind : EvidenceKind
  namespaceName : Option String
  left : String
  right : String
  deriving DecidableEq

namespace EvidenceItem

/-- Items are ordered by kind, namespace (an absent one first), left and right. -/
def key (item : EvidenceItem) : Nat ×ₗ (Nat ×ₗ (String ×ₗ (String ×ₗ String))) :=
  toLex (item.kind.toNat, toLex (match item.namespaceName with
    | none => (0, toLex ("", toLex (item.left, item.right)))
    | some name => (1, toLex (name, toLex (item.left, item.right)))))

theorem key_injective : Function.Injective key := by
  rintro ⟨leftKind, leftName, leftLeft, leftRight⟩ ⟨rightKind, rightName, rightLeft, rightRight⟩
    same
  have kinds : leftKind.toNat = rightKind.toNat := congrArg (fun k => (ofLex k).1) same
  obtain rfl := EvidenceKind.toNat_injective kinds
  have names := congrArg (fun k => (ofLex (ofLex k).2)) same
  cases leftName with
  | none =>
    cases rightName with
    | none =>
      have lefts := congrArg (fun k => (ofLex (ofLex k.2).2).1) names
      have rights := congrArg (fun k => (ofLex (ofLex k.2).2).2) names
      simp only [key, ofLex_toLex] at lefts rights
      rw [lefts, rights]
    | some name => exact absurd (congrArg Prod.fst names) Nat.zero_ne_one
  | some name =>
    cases rightName with
    | none => exact absurd (congrArg Prod.fst names) Nat.one_ne_zero
    | some other =>
      have inner := congrArg (fun k => (ofLex k.2).1) names
      have lefts := congrArg (fun k => (ofLex (ofLex k.2).2).1) names
      have rights := congrArg (fun k => (ofLex (ofLex k.2).2).2) names
      simp only [key, ofLex_toLex] at inner lefts rights
      rw [inner, lefts, rights]

instance : LinearOrder EvidenceItem := LinearOrder.lift' key key_injective

end EvidenceItem

inductive DeterministicResolution where
  | proofSame
  | proofDifferent
  | conflictingProofs
  | reviewOrSeparate
  deriving DecidableEq

def DeterministicResolution.toNat : DeterministicResolution → Nat
  | proofSame => 0
  | proofDifferent => 1
  | conflictingProofs => 2
  | reviewOrSeparate => 3

/-- A generation-bound analysis of one pair. -/
structure IdentityPacket where
  left : EntityRevisionRef
  right : EntityRevisionRef
  policyGeneration : UInt64
  ontologyGeneration : UInt64
  resolverGenerations : OrderedMap String UInt64
  evidence : List EvidenceItem
  resolution : DeterministicResolution
  hash : PacketHash

/-! ## The analysis of a pair -/

/-- A verified assertion of this snapshot and of the required resolver generation. -/
def isCurrentVerified (assertion : IdentifierAssertion) (expectedSnapshot : SnapshotId)
    (requiredGeneration : UInt64) : Bool :=
  match assertion.trust with
  | .sourceVerified sourceSnapshot _ resolverGeneration =>
    sourceSnapshot == expectedSnapshot && resolverGeneration == requiredGeneration
  | .claimed => false

section Analysis

variable [CaseMapping]

def normalizeLabel (label : String) : String :=
  CaseMapping.toLowercase (String.intercalate " " (splitWhitespace label))

def normalizedNames (entity : EntityRecord) : Finset String :=
  insert (normalizeLabel entity.label) (entity.aliases.image normalizeLabel)

/-- What an analysis has found so far. -/
structure Findings where
  evidence : Finset EvidenceItem
  provesSame : Bool
  provesDifferent : Bool
  resolverGenerations : OrderedMap String UInt64

def Findings.note (findings : Findings) (item : EvidenceItem) : Findings :=
  { findings with evidence := insert item findings.evidence }

/-- The body of the two nested loops over the identifiers of a pair. -/
def weighIdentifiers (policy : IdentityPolicy) (compatibility : KindCompatibility)
    (leftSnapshot rightSnapshot : SnapshotId) (leftId : IdentifierAssertion)
    (findings : Findings) (rightId : IdentifierAssertion) : Findings :=
  if leftId.namespaceName ≠ rightId.namespaceName then findings
  else
    let claimed : EvidenceItem :=
      ⟨.claimedIdentifier, some leftId.namespaceName, leftId.value, rightId.value⟩
    match policy.resolverGeneration leftId.namespaceName with
    | none => if leftId.value = rightId.value then findings.note claimed else findings
    | some requiredGeneration =>
      let findings := { findings with
        resolverGenerations :=
          findings.resolverGenerations.insert leftId.namespaceName requiredGeneration }
      if isCurrentVerified leftId leftSnapshot requiredGeneration = true ∧
          isCurrentVerified rightId rightSnapshot requiredGeneration = true then
        if leftId.value = rightId.value ∧ compatibility = .compatible then
          { findings.note ⟨.verifiedIdentifierMatch, some leftId.namespaceName, leftId.value,
              rightId.value⟩ with provesSame := true }
        else if leftId.value ≠ rightId.value then
          { findings.note ⟨.verifiedIdentifierConflict, some leftId.namespaceName,
              leftId.value, rightId.value⟩ with provesDifferent := true }
        else findings
      else if leftId.value = rightId.value then findings.note claimed
      else findings

def weighLineage (left right : EntityRecord) (findings : Findings) : Findings :=
  match left.lineage, right.lineage with
  | some leftLineage, some rightLineage =>
    if leftLineage = rightLineage then
      { findings.note ⟨.lineage, none, leftLineage, rightLineage⟩ with provesSame := true }
    else findings
  | _, _ => findings

def weighKinds (compatibility : KindCompatibility) (left right : EntityRecord)
    (findings : Findings) : Findings :=
  if compatibility = .incompatible then
    findings.note ⟨.kindIncompatible, none, left.kind.getD "", right.kind.getD ""⟩
  else findings

def weighNames (left right : EntityRecord) (findings : Findings) : Findings :=
  let findings :=
    if normalizeLabel left.label = normalizeLabel right.label then
      findings.note ⟨.exactLabel, none, normalizeLabel left.label, normalizeLabel right.label⟩
    else findings
  if ∃ name ∈ normalizedNames left ∩ normalizedNames right, name ≠ normalizeLabel left.label then
    findings.note ⟨.aliasName, none, left.label, right.label⟩
  else findings

/-- The body of `analyze_pair`, before the findings are turned into a resolution. -/
def examinePair (left : EntityRecord) (leftSnapshot : SnapshotId) (right : EntityRecord)
    (rightSnapshot : SnapshotId) (policy : IdentityPolicy) : Findings :=
  let compatibility := policy.kindCompatibility left.kind right.kind
  let start := weighKinds compatibility left right (weighLineage left right ⟨∅, false, false, ∅⟩)
  let weighed := (ascending left.identifiers).foldl (fun findings leftId =>
    (ascending right.identifiers).foldl
      (weighIdentifiers policy compatibility leftSnapshot rightSnapshot leftId) findings) start
  weighNames left right weighed

def resolutionOf (provesSame provesDifferent : Bool) : DeterministicResolution :=
  match provesSame, provesDifferent with
  | true, true => .conflictingProofs
  | true, false => .proofSame
  | false, true => .proofDifferent
  | false, false => .reviewOrSeparate

def encodeGeneration (entry : String × UInt64) : Bytes := text entry.1 ++ u64 entry.2.toNat

def encodeEvidence (item : EvidenceItem) : Bytes :=
  u16 item.kind.toNat ++ (optionalText item.namespaceName ++ (text item.left ++ text item.right))

def hashPacket [Blake3] (left right : EntityRevisionRef) (policy : IdentityPolicy)
    (resolverGenerations : OrderedMap String UInt64) (evidence : List EvidenceItem)
    (resolution : DeterministicResolution) : PacketHash :=
  ((CanonicalHasher.new "openmemory/identity-packet/v1").absorb
    (encodeRevisionRef left ++ (encodeRevisionRef right ++
      (u64 policy.policyGeneration.toNat ++ (u64 policy.ontologyGeneration.toNat ++
        (counted encodeGeneration resolverGenerations.toList ++
          (counted encodeEvidence evidence ++ u16 resolution.toNat))))))).finish .packet

def analyzePair [Blake3] (left : EntityRecord) (leftSnapshot : SnapshotId) (right : EntityRecord)
    (rightSnapshot : SnapshotId) (policy : IdentityPolicy) : MergeResult IdentityPacket := do
  refuseIf (left.address = right.address)
    ⟨.invalidInput, "identity packet requires two distinct entity addresses"⟩
  let findings := examinePair left leftSnapshot right rightSnapshot policy
  let resolution := resolutionOf findings.provesSame findings.provesDifferent
  let evidence := ascending findings.evidence
  pure {
    left := left.refIn leftSnapshot
    right := right.refIn rightSnapshot
    policyGeneration := policy.policyGeneration
    ontologyGeneration := policy.ontologyGeneration
    resolverGenerations := findings.resolverGenerations
    evidence := evidence
    resolution := resolution
    hash := hashPacket (left.refIn leftSnapshot) (right.refIn rightSnapshot) policy
      findings.resolverGenerations evidence resolution }

/-- A packet names the revisions it analysed and the policy it analysed them under. -/
theorem analyzePair_ok [Blake3] {left right : EntityRecord}
    {leftSnapshot rightSnapshot : SnapshotId} {policy : IdentityPolicy} {packet : IdentityPacket}
    (analysed : analyzePair left leftSnapshot right rightSnapshot policy = .ok packet) :
    packet.left = left.refIn leftSnapshot ∧ packet.right = right.refIn rightSnapshot ∧
      packet.policyGeneration = policy.policyGeneration := by
  simp only [analyzePair, bind_eq_ok, refuseIf_eq_ok, pure_eq_ok] at analysed
  obtain ⟨_, _, rfl⟩ := analysed
  exact ⟨rfl, rfl, rfl⟩

end Analysis

end OpenMemory.Merge
