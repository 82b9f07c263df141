import OpenMemory.Foundation.Collections
import OpenMemory.Merge.Canonical

/-!
# Validated canonical records

The records a merge reads and writes: entities, observations and relations,
each at a space-qualified address, at one revision, and with the set of origins
it was assembled from. Constructors check the bounds once, and the types carry
what they checked: there is no record with an empty origin set, an oversized
label or a property that is not a token.

A logical identifier is local to its space. The prefix `omq1:` is reserved for
identifiers derived from the address of an imported object
(`QualifiedObjectId`), so that an imported object never takes a local name.
-/

/-!
## Stable planner errors

An error of the merge crate is a code and a message. The code is what callers
match on; the message explains the check that failed.
-/

namespace OpenMemory.Merge

inductive MergeErrorCode where
  | invalidInput
  | boundExceeded
  | unsortedInput
  | duplicateInput
  | snapshotMismatch
  | discoveryIncomplete
  | staleReceipt
  | conflictingResolution
  | manyToOne
  | qualifiedIdCollision
  | danglingEndpoint
  | threeWayConflict
  | accountingMismatch
  | sinkFailure
  | protocolViolation

structure MergeError where
  code : MergeErrorCode
  message : String

abbrev MergeResult (α : Type) := Except MergeError α

end OpenMemory.Merge

namespace OpenMemory.Merge

open Foundation

def maxLogicalIdBytes : Nat := 256
def maxLabelBytes : Nat := 512
def maxKindBytes : Nat := 128
def maxAliases : Nat := 64
def maxIdentifiers : Nat := 32
def maxProperties : Nat := 64
def maxPropertyNameBytes : Nat := 128
def maxTextBytes : Nat := 64 * 1024
def maxOrigins : Nat := 1024
def maxSnapshotRecords : Nat := 1000000
def qualifiedIdPrefix : String := "omq1:"

/-! ## Tokens and text -/

/-- A non-empty, bounded text without control characters or outer white space. -/
def validToken (value : String) (maxBytes : Nat) : Bool :=
  value != "" && decide (value.utf8ByteSize ≤ maxBytes) && !value.toList.any isControl &&
    trim value == value

/-- A non-empty, bounded text without the null character. -/
def validText (value : String) (maxBytes : Nat) : Bool :=
  value != "" && decide (value.utf8ByteSize ≤ maxBytes) &&
    !value.toList.any (fun character => character == '\x00')

theorem size_of_validToken {value : String} {maxBytes : Nat}
    (valid : validToken value maxBytes = true) : value.utf8ByteSize ≤ maxBytes := by
  simp only [validToken, Bool.and_eq_true, decide_eq_true_eq] at valid
  exact valid.1.1.2

theorem size_of_validText {value : String} {maxBytes : Nat}
    (valid : validText value maxBytes = true) : value.utf8ByteSize ≤ maxBytes := by
  simp only [validText, Bool.and_eq_true, decide_eq_true_eq] at valid
  exact valid.1.2

/-! ## Logical identifiers -/

/-- Whether an identifier starts with the reserved prefix. -/
def usesReservedNamespace (value : String) : Bool :=
  (utf8 qualifiedIdPrefix).isPrefixOf (utf8 value)

def isLowerHexByte (byte : UInt8) : Bool :=
  (48 ≤ byte && byte ≤ 57) || (97 ≤ byte && byte ≤ 102)

/-- What follows the reserved prefix is a canonical digest. -/
def hasCanonicalDigest (value : String) : Bool :=
  let digest := (utf8 value).drop (utf8 qualifiedIdPrefix).length
  decide (digest.length = 64) && digest.all isLowerHexByte

/-- The identifiers that a projection may contain. -/
def isLogicalId (value : String) : Bool :=
  if usesReservedNamespace value then hasCanonicalDigest value
  else validToken value maxLogicalIdBytes

structure LogicalId where
  value : String
  valid : isLogicalId value = true
  deriving DecidableEq

namespace LogicalId

/-- `LogicalId::new`: a local identifier, outside the reserved namespace. -/
def new (value : String) : MergeResult LogicalId :=
  if h : validToken value maxLogicalIdBytes = true ∧ usesReservedNamespace value = false then
    .ok ⟨value, by simp [isLogicalId, h.1, h.2]⟩
  else
    .error ⟨.invalidInput,
      "logical ID is empty, oversized, contains controls, or uses the reserved namespace"⟩

/-- `LogicalId::from_projection`: the reserved namespace is accepted when the
digest is canonical. -/
def fromProjection (value : String) : MergeResult LogicalId :=
  if reserved : usesReservedNamespace value = true then
    if digest : hasCanonicalDigest value = true then
      .ok ⟨value, by simp [isLogicalId, reserved, digest]⟩
    else
      .error ⟨.invalidInput, "qualified projection ID has an invalid canonical hash"⟩
  else new value

theorem value_injective : Function.Injective LogicalId.value := by
  rintro ⟨left, _⟩ ⟨right, _⟩ same
  simp only at same
  subst same
  rfl

instance : LinearOrder LogicalId := LinearOrder.lift' LogicalId.value value_injective

theorem size (id : LogicalId) : id.value.utf8ByteSize ≤ 256 := by
  have valid := id.valid
  unfold isLogicalId at valid
  split at valid
  · rename_i reserved
    simp only [hasCanonicalDigest, Bool.and_eq_true, decide_eq_true_eq, List.length_drop,
      utf8_length] at valid
    have start : (utf8 qualifiedIdPrefix).length = 5 := by decide
    rw [utf8_length] at start
    omega
  · exact size_of_validToken valid

end LogicalId

/-- The identifier of an imported object: the reserved prefix and a digest. -/
structure QualifiedObjectId where
  value : String
  canonical : ∃ digest : SemanticHash, value = qualifiedIdPrefix ++ digest.digest.toText
  deriving DecidableEq

namespace QualifiedObjectId

/-- `QualifiedObjectId::derive`. -/
def derive [Blake3] (space : SpaceId) (logicalId : LogicalId) : QualifiedObjectId :=
  let hash := ((CanonicalHasher.new "openmemory/qualified-object-id/v1").absorb
    (Canonical.idText space ++ Canonical.text logicalId.value)).finish .semantic
  ⟨qualifiedIdPrefix ++ hash.digest.toText, hash, rfl⟩

theorem value_injective : Function.Injective QualifiedObjectId.value := by
  rintro ⟨left, _⟩ ⟨right, _⟩ same
  simp only at same
  subst same
  rfl

theorem size (id : QualifiedObjectId) : id.value.utf8ByteSize ≤ 261 := by
  obtain ⟨digest, same⟩ := id.canonical
  have text := utf8ByteSize_ofList_le (hexDigits 64 digest.digest.value)
  have start : qualifiedIdPrefix.utf8ByteSize = 5 := by decide
  rw [hexDigits_length] at text
  rw [same, String.utf8ByteSize_append, start]
  unfold Digest.toText
  omega

end QualifiedObjectId

/-- The identity of a result object: a target identifier that is kept, or the
qualified identifier of an import. -/
inductive ResultObjectId where
  | target (id : LogicalId)
  | qualified (id : QualifiedObjectId)
  deriving DecidableEq

namespace ResultObjectId

def asStr : ResultObjectId → String
  | target id => id.value
  | qualified id => id.value

/-- Target identifiers come before qualified ones. -/
def key : ResultObjectId → Nat ×ₗ String
  | target id => toLex (0, id.value)
  | qualified id => toLex (1, id.value)

theorem key_injective : Function.Injective key := by
  rintro (left | left) (right | right) same
  · exact congrArg target (LogicalId.value_injective (congrArg (fun k => (ofLex k).2) same))
  · exact absurd (congrArg (fun k => (ofLex k).1) same) Nat.zero_ne_one
  · exact absurd (congrArg (fun k => (ofLex k).1) same) Nat.one_ne_zero
  · exact congrArg qualified
      (QualifiedObjectId.value_injective (congrArg (fun k => (ofLex k).2) same))

instance : LinearOrder ResultObjectId := LinearOrder.lift' key key_injective

end ResultObjectId

/-! ## Addresses, origins and lifecycles -/

/-- A local identifier qualified by its space. -/
structure ObjectAddress where
  space : SpaceId
  logicalId : LogicalId
  deriving DecidableEq

namespace ObjectAddress

def key (address : ObjectAddress) : SpaceId ×ₗ LogicalId := toLex (address.space, address.logicalId)

theorem key_injective : Function.Injective key := by
  rintro ⟨_, _⟩ ⟨_, _⟩ same
  obtain ⟨rfl, rfl⟩ := Prod.mk.inj (toLex.injective same)
  rfl

instance : LinearOrder ObjectAddress := LinearOrder.lift' key key_injective

theorem eq_iff {left right : ObjectAddress} :
    left = right ↔ left.space = right.space ∧ left.logicalId = right.logicalId := by
  cases left
  cases right
  simp only [mk.injEq]

/-- Within one space, addresses are ordered by their local identifiers. -/
theorem lt_iff_of_space_eq {left right : ObjectAddress} (same : left.space = right.space) :
    left < right ↔ left.logicalId < right.logicalId := by
  show left.key < right.key ↔ _
  simp only [key, Prod.Lex.toLex_lt_toLex, same, lt_self_iff_false, true_and, false_or]

end ObjectAddress

abbrev EntityAddress := ObjectAddress

inductive Lifecycle where
  | active
  | retired
  | deleted
  deriving DecidableEq

namespace Lifecycle

/-- The discriminant of the variant, as `lifecycle as u16`. -/
def toNat : Lifecycle → Nat
  | active => 0
  | retired => 1
  | deleted => 2

theorem toNat_injective : Function.Injective toNat := by
  rintro (_ | _) (_ | _) same <;> first | rfl | cases same

theorem toNat_lt (lifecycle : Lifecycle) : lifecycle.toNat < 2 ^ 16 := by
  cases lifecycle <;> decide

instance : LinearOrder Lifecycle := LinearOrder.lift' toNat toNat_injective

end Lifecycle

/-- One revision of one object that contributed to a record. -/
structure OriginContribution where
  origin : ObjectAddress
  revision : RevisionId
  deriving DecidableEq

namespace OriginContribution

def key (contribution : OriginContribution) : ObjectAddress ×ₗ RevisionId :=
  toLex (contribution.origin, contribution.revision)

theorem key_injective : Function.Injective key := by
  rintro ⟨_, _⟩ ⟨_, _⟩ same
  obtain ⟨rfl, rfl⟩ := Prod.mk.inj (toLex.injective same)
  rfl

instance : LinearOrder OriginContribution := LinearOrder.lift' key key_injective

end OriginContribution

/-! ## Identifier assertions -/

/-- The trust attached to an identifier assertion by ingestion. -/
inductive AssertionTrust where
  | claimed
  | sourceVerified (sourceSnapshot : SnapshotId) (verifierVersion : String)
      (resolverGeneration : UInt64)
  deriving DecidableEq

namespace AssertionTrust

/-- Claimed assertions come first; verified ones are compared field by field. -/
def key : AssertionTrust → Nat ×ₗ (Nat ×ₗ (String ×ₗ Nat))
  | claimed => toLex (0, toLex (0, toLex ("", 0)))
  | sourceVerified snapshot version generation =>
    toLex (1, toLex (snapshot.uuid.value, toLex (version, generation.toNat)))

theorem key_injective : Function.Injective key := by
  rintro (_ | ⟨ls, lv, lg⟩) (_ | ⟨rs, rv, rg⟩) same
  · rfl
  · exact absurd (congrArg (fun k => (ofLex k).1) same) Nat.zero_ne_one
  · exact absurd (congrArg (fun k => (ofLex k).1) same) Nat.one_ne_zero
  · have snapshot := congrArg (fun k => (ofLex (ofLex k).2).1) same
    have version := congrArg (fun k => (ofLex (ofLex (ofLex k).2).2).1) same
    have generation := congrArg (fun k => (ofLex (ofLex (ofLex k).2).2).2) same
    have snapshots : ls = rs := UuidV7Id.value_injective snapshot
    have versions : lv = rv := version
    have generations : lg = rg := UInt64.toNat_inj.mp generation
    rw [snapshots, versions, generations]

instance : LinearOrder AssertionTrust := LinearOrder.lift' key key_injective

end AssertionTrust

/-- One namespace-qualified identifier assertion. -/
structure IdentifierAssertion where
  namespaceName : String
  value : String
  trust : AssertionTrust
  namespaceName_valid : validToken namespaceName maxKindBytes = true
  value_valid : validText value maxLabelBytes = true
  version_valid : ∀ snapshot version generation,
    trust = .sourceVerified snapshot version generation → validToken version maxKindBytes = true
  deriving DecidableEq

namespace IdentifierAssertion

def new (namespaceName value : String) (trust : AssertionTrust)
    (version_valid : ∀ snapshot version generation,
      trust = .sourceVerified snapshot version generation → validToken version maxKindBytes = true) :
    MergeResult IdentifierAssertion :=
  if h : validToken namespaceName maxKindBytes = true ∧ validText value maxLabelBytes = true then
    .ok ⟨namespaceName, value, trust, h.1, h.2, version_valid⟩
  else .error ⟨.invalidInput, "identifier namespace or value is invalid"⟩

def claimed (namespaceName value : String) : MergeResult IdentifierAssertion :=
  new namespaceName value .claimed (by intro _ _ _ impossible; cases impossible)

def sourceVerified (namespaceName value : String) (sourceSnapshot : SnapshotId)
    (verifierVersion : String) (resolverGeneration : UInt64) : MergeResult IdentifierAssertion :=
  if h : validToken verifierVersion maxKindBytes = true ∧ resolverGeneration ≠ 0 then
    new namespaceName value (.sourceVerified sourceSnapshot verifierVersion resolverGeneration)
      (by
        intro _ _ _ same
        cases same
        exact h.1)
  else
    .error ⟨.invalidInput,
      "verified assertion requires a verifier version and positive resolver generation"⟩

def key (assertion : IdentifierAssertion) : String ×ₗ (String ×ₗ AssertionTrust) :=
  toLex (assertion.namespaceName, toLex (assertion.value, assertion.trust))

theorem key_injective : Function.Injective key := by
  rintro ⟨_, _, _, _, _, _⟩ ⟨_, _, _, _, _, _⟩ same
  obtain ⟨rfl, rest⟩ := Prod.mk.inj (toLex.injective same)
  obtain ⟨rfl, rfl⟩ := Prod.mk.inj (toLex.injective rest)
  rfl

instance : LinearOrder IdentifierAssertion := LinearOrder.lift' key key_injective

end IdentifierAssertion

/-! ## Records -/

/-- The bounds every origin set is checked against. -/
def OriginsBounded (origins : Finset OriginContribution) : Prop :=
  origins.Nonempty ∧ origins.card ≤ maxOrigins

instance (origins : Finset OriginContribution) : Decidable (OriginsBounded origins) :=
  inferInstanceAs (Decidable (_ ∧ _))

theorem originsBounded_singleton (origin : OriginContribution) : OriginsBounded {origin} :=
  ⟨Finset.singleton_nonempty origin, by simp [maxOrigins]⟩

/-- An entity with its identity context and provenance. -/
structure EntityRecord where
  address : EntityAddress
  revision : RevisionId
  lifecycle : Lifecycle
  label : String
  kind : Option String
  lineage : Option String
  aliases : Finset String
  identifiers : Finset IdentifierAssertion
  properties : OrderedMap String String
  origins : Finset OriginContribution
  label_valid : validText label maxLabelBytes = true
  kind_valid : ∀ value ∈ kind, validToken value maxKindBytes = true
  lineage_valid : ∀ value ∈ lineage, validToken value maxLogicalIdBytes = true
  aliases_bounded : aliases.card ≤ maxAliases
  aliases_valid : ∀ value ∈ aliases, validText value maxLabelBytes = true
  identifiers_bounded : identifiers.card ≤ maxIdentifiers
  properties_bounded : properties.size ≤ maxProperties
  properties_valid : ∀ name value, properties[name]? = some value →
    validToken name maxPropertyNameBytes = true ∧ validText value maxTextBytes = true
  origins_bounded : OriginsBounded origins
  deriving DecidableEq

namespace EntityRecord

/-- `EntityRecord::new`: an active entity whose only origin is itself. -/
def new (address : EntityAddress) (revision : RevisionId) (label : String)
    (kind : Option String) : MergeResult EntityRecord :=
  if h : validText label maxLabelBytes = true ∧
      ∀ value ∈ kind, validToken value maxKindBytes = true then
    .ok {
      address := address
      revision := revision
      lifecycle := .active
      label := label
      kind := kind
      lineage := none
      aliases := ∅
      identifiers := ∅
      properties := ∅
      origins := {⟨address, revision⟩}
      label_valid := h.1
      kind_valid := h.2
      lineage_valid := by simp
      aliases_bounded := by simp
      aliases_valid := by simp
      identifiers_bounded := by simp
      properties_bounded := by simp
      properties_valid := by simp
      origins_bounded := originsBounded_singleton _ }
  else .error ⟨.invalidInput, "entity label or kind is invalid"⟩

def withLifecycle (record : EntityRecord) (lifecycle : Lifecycle) : EntityRecord :=
  { record with lifecycle := lifecycle }

def withLineage (record : EntityRecord) (lineage : Option String) : MergeResult EntityRecord :=
  if h : ∀ value ∈ lineage, validToken value maxLogicalIdBytes = true then
    .ok { record with lineage := lineage, lineage_valid := h }
  else .error ⟨.invalidInput, "entity lineage is invalid"⟩

def withAliases (record : EntityRecord) (aliases : List String) : MergeResult EntityRecord :=
  if h : aliases.toFinset.card ≤ maxAliases ∧
      ∀ value ∈ aliases.toFinset, validText value maxLabelBytes = true then
    .ok { record with aliases := aliases.toFinset, aliases_bounded := h.1, aliases_valid := h.2 }
  else .error ⟨.boundExceeded, "entity aliases exceed bounds or contain invalid text"⟩

def withIdentifiers (record : EntityRecord) (identifiers : List IdentifierAssertion) :
    MergeResult EntityRecord :=
  if h : identifiers.toFinset.card ≤ maxIdentifiers then
    .ok { record with identifiers := identifiers.toFinset, identifiers_bounded := h }
  else .error ⟨.boundExceeded, "entity identifier count exceeds the hard limit"⟩

/-- The loop of `with_properties`: one property is checked and inserted. -/
def insertProperty (result : OrderedMap String String) (entry : String × String) :
    MergeResult (OrderedMap String String) :=
  if validToken entry.1 maxPropertyNameBytes = false ∨ validText entry.2 maxTextBytes = false then
    .error ⟨.invalidInput, "entity property is invalid or duplicated"⟩
  else
    insertFresh result entry.1 entry.2 ⟨.invalidInput, "entity property is invalid or duplicated"⟩

theorem insertProperty_valid {entries : List (String × String)} {result : OrderedMap String String}
    (run : entries.foldlM insertProperty ∅ = .ok result) :
    ∀ name value, result[name]? = some value →
      validToken name maxPropertyNameBytes = true ∧ validText value maxTextBytes = true := by
  refine foldlM_induction (motive := fun result => ∀ name value, result[name]? = some value →
    validToken name maxPropertyNameBytes = true ∧ validText value maxTextBytes = true)
    (by simp) ?_ run
  intro entry _ before after valid step name value found
  unfold insertProperty at step
  split at step
  · cases step
  · rename_i good
    obtain ⟨_, rfl⟩ := insertFresh_eq_ok.mp step
    rw [OrderedMap.get_insert] at found
    split at found
    · rename_i same
      cases found
      subst same
      simpa using good
    · exact valid name value found

def withProperties (record : EntityRecord) (entries : List (String × String)) :
    MergeResult EntityRecord :=
  match run : entries.foldlM insertProperty ∅ with
  | .error error => .error error
  | .ok result =>
    if bounded : result.size ≤ maxProperties then
      .ok { record with
        properties := result
        properties_bounded := bounded
        properties_valid := insertProperty_valid run }
    else .error ⟨.boundExceeded, "entity property count exceeds the hard limit"⟩

def withOrigins (record : EntityRecord) (origins : List OriginContribution) :
    MergeResult EntityRecord :=
  if h : OriginsBounded origins.toFinset then
    .ok { record with origins := origins.toFinset, origins_bounded := h }
  else .error ⟨.boundExceeded, "entity origin count must be bounded and non-empty"⟩

end EntityRecord

/-- A semantic observation about one entity. -/
structure ObservationRecord where
  address : ObjectAddress
  entity : EntityAddress
  revision : RevisionId
  lifecycle : Lifecycle
  content : String
  origins : Finset OriginContribution
  content_valid : validText content maxTextBytes = true
  origins_bounded : OriginsBounded origins
  deriving DecidableEq

namespace ObservationRecord

def new (address : ObjectAddress) (entity : EntityAddress) (revision : RevisionId)
    (content : String) : MergeResult ObservationRecord :=
  if h : validText content maxTextBytes = true then
    .ok {
      address := address
      entity := entity
      revision := revision
      lifecycle := .active
      content := content
      origins := {⟨address, revision⟩}
      content_valid := h
      origins_bounded := originsBounded_singleton _ }
  else
    .error ⟨.invalidInput, "observation content is empty, oversized, or contains controls"⟩

def withLifecycle (record : ObservationRecord) (lifecycle : Lifecycle) : ObservationRecord :=
  { record with lifecycle := lifecycle }

def withOrigins (record : ObservationRecord) (origins : List OriginContribution) :
    MergeResult ObservationRecord :=
  if h : OriginsBounded origins.toFinset then
    .ok { record with origins := origins.toFinset, origins_bounded := h }
  else .error ⟨.boundExceeded, "observation origin count must be bounded and non-empty"⟩

end ObservationRecord

/-- A directional relation assertion between two entities. -/
structure RelationRecord where
  address : ObjectAddress
  subject : EntityAddress
  predicate : String
  object : EntityAddress
  revision : RevisionId
  lifecycle : Lifecycle
  origins : Finset OriginContribution
  predicate_valid : validToken predicate maxKindBytes = true
  origins_bounded : OriginsBounded origins
  deriving DecidableEq

namespace RelationRecord

def new (address : ObjectAddress) (subject : EntityAddress) (predicate : String)
    (object : EntityAddress) (revision : RevisionId) : MergeResult RelationRecord :=
  if h : validToken predicate maxKindBytes = true then
    .ok {
      address := address
      subject := subject
      predicate := predicate
      object := object
      revision := revision
      lifecycle := .active
      origins := {⟨address, revision⟩}
      predicate_valid := h
      origins_bounded := originsBounded_singleton _ }
  else .error ⟨.invalidInput, "relation predicate is invalid"⟩

def withLifecycle (record : RelationRecord) (lifecycle : Lifecycle) : RelationRecord :=
  { record with lifecycle := lifecycle }

def withOrigins (record : RelationRecord) (origins : List OriginContribution) :
    MergeResult RelationRecord :=
  if h : OriginsBounded origins.toFinset then
    .ok { record with origins := origins.toFinset, origins_bounded := h }
  else .error ⟨.boundExceeded, "relation origin count must be bounded and non-empty"⟩

end RelationRecord

end OpenMemory.Merge
