import OpenMemory.Graph.Types
import OpenMemory.Merge.Canonical

/-!
# Change sets: operations, drafts and their validation

A change set is a bounded list of typed operations with the actor, the
authority and the reason it is submitted with. Validation looks at the draft
alone, never at the store: the sizes of its texts, its numbers, the size of its
payload, and that no two operations concern one logical head.

The payload of a stored request is JSON. The JSON library is not part of the
repository, so its two functions on operations are a parameter.
-/

namespace OpenMemory.Graph

open Foundation
open Merge (Digest)

/-! ## Limits -/

def maxIdempotencyBytes : Nat := 128
def maxTextBytes : Nat := 1024
def maxContentBytes : Nat := 1024 * 1024
def maxListItems : Nat := 256
def maxOperationCount : Nat := 256
def defaultMaxPayloadBytes : Nat := 1024 * 1024
def maxPayloadBytes : Nat := 4 * 1024 * 1024

/-! ## Classifications -/

/-- Whether a change set is applied immediately or waits for review. -/
inductive SubmitMode where
  | applyImmediately
  | propose
  deriving DecidableEq

def SubmitMode.asStr : SubmitMode → String
  | applyImmediately => "apply_immediately"
  | propose => "propose"

inductive ChangeSetState where
  | proposed
  | applied
  | rejected
  | conflicted
  | reverted
  deriving DecidableEq

inductive ObjectKind where
  | entity
  | observation
  | relation
  deriving DecidableEq

/-- Whether an observation takes part in recall. -/
inductive Lifecycle where
  | active
  | retired
  | destroyed
  deriving DecidableEq

def Lifecycle.asStr : Lifecycle → String
  | active => "active"
  | retired => "retired"
  | destroyed => "destroyed"

/-! ## Operations -/

/-- A text in memory, whose length fits 64 bits. -/
structure SizedText where
  text : String
  sized : text.utf8ByteSize < 2 ^ 64

inductive ChangeOperation where
  | remember (entityName : String) (entityType : EntityType)
      (observations : List ObservationInput) (relations : List RelationInput)
  | updateObservation (observation : Observation) (expectedRowVersion : UInt64)
      (expectedRevisionId : Option SizedText)
  | retireObservation (observationId : String) (expectedRowVersion : UInt64)
  | restoreObservation (observationId : String) (expectedRowVersion : UInt64)
  | revertObservation (observationId : String) (revisionId : String)
      (expectedRowVersion : UInt64)
  | destroyObservation (observationId : String) (expectedRowVersion : UInt64)
      (expectedRevisionId : Option SizedText) (confirmationHash : String)

namespace ChangeOperation

def objectKind : ChangeOperation → ObjectKind
  | remember .. => .entity
  | updateObservation .. | retireObservation .. | restoreObservation .. | revertObservation ..
  | destroyObservation .. => .observation

def operationName : ChangeOperation → String
  | remember .. => "remember"
  | updateObservation .. => "update_observation"
  | retireObservation .. => "retire_observation"
  | restoreObservation .. => "restore_observation"
  | revertObservation .. => "revert_observation"
  | destroyObservation .. => "destroy_observation"

def logicalId : ChangeOperation → String
  | remember entityName .. => entityName
  | updateObservation observation .. => observation.id
  | retireObservation observationId .. => observationId
  | restoreObservation observationId .. => observationId
  | revertObservation observationId .. => observationId
  | destroyObservation observationId .. => observationId

def expectedRowVersion : ChangeOperation → Option UInt64
  | remember .. => none
  | updateObservation _ version _ => some version
  | retireObservation _ version => some version
  | restoreObservation _ version => some version
  | revertObservation _ _ version => some version
  | destroyObservation _ version _ _ => some version

def expectedRevisionId : ChangeOperation → Option String
  | updateObservation _ _ revision => revision.map SizedText.text
  | destroyObservation _ _ revision _ => revision.map SizedText.text
  | _ => none

def expectedLifecycle : ChangeOperation → Option Lifecycle
  | retireObservation .. => some .active
  | restoreObservation .. => some .retired
  | _ => none

def isDestroy : ChangeOperation → Bool
  | destroyObservation .. => true
  | _ => false

end ChangeOperation

/-- `serde_json::to_string` and `serde_json::from_str` on operations. -/
class PayloadCodec where
  toJson : ChangeOperation → String
  fromJson : String → Option ChangeOperation

/-- The text of a JSON array of operations, as `serde_json::to_vec` writes it. -/
def payloadText [PayloadCodec] (operations : List ChangeOperation) : String :=
  "[" ++ ",".intercalate (operations.map PayloadCodec.toJson) ++ "]"

/-! ## Drafts -/

/-- A digest of the authority an actor holds, with the version of its form. -/
structure AuthoritySnapshot where
  version : UInt16
  digest : Digest
  deriving DecidableEq

structure ChangeSetDraft where
  idempotencyKey : String
  spaceId : SpaceId
  actorKind : ActorKind
  actorId : String
  authority : AuthoritySnapshot
  reason : String
  source : String
  operations : List ChangeOperation

/-! ## Validation -/

/-- A text that is blank (unless that is allowed), too long, or has a NUL. -/
def textRefused (value : String) (max : Nat) (allowEmpty : Bool) : Bool :=
  (!allowEmpty && blank value) || decide (max < value.utf8ByteSize) ||
    value.toList.any (· == '\x00')

def checkText (value field : String) (max : Nat) (allowEmpty : Bool) : MemoryResult Unit :=
  refuseIf (textRefused value max allowEmpty)
    (.invalidInput s!"{field} is empty, contains NUL, or exceeds {max} bytes")

def checkOptionalText (value : Option String) (field : String) : MemoryResult Unit :=
  match value with
  | some value => checkText value field maxTextBytes true
  | none => .ok ()

/-- Good texts, all different; `seen` are the ones before. -/
def checkDistinctTexts (field : String) : List String → List String → MemoryResult Unit
  | _, [] => .ok ()
  | seen, value :: rest => do
      checkText value field maxTextBytes false
      refuseIf (value ∈ seen) (.invalidInput s!"{field} contains duplicates")
      checkDistinctTexts field (value :: seen) rest

def checkTextList (field : String) (values : List String) : MemoryResult Unit := do
  refuseIf (maxListItems < values.length) (.invalidInput s!"{field} exceeds {maxListItems} entries")
  checkDistinctTexts field [] values

/-- A number outside the unit interval, or not a number at all. -/
def outsideUnit (value : Float32Bits) : Bool := !value.isFinite || !value.inUnitInterval

/-- The values that an observation has in common with an input for one. -/
structure ObservationValues where
  content : String
  confidence : Float32Bits
  source : String
  validFrom : Option Int64
  validUntil : Option Int64
  title : Option String
  summary : Option String
  importance : Option Float32Bits
  sourceKind : Option String
  concepts : List String
  sourceFiles : List String

def ObservationInput.values (input : ObservationInput) : ObservationValues where
  content := input.content
  confidence := input.confidence
  source := input.source
  validFrom := input.validFrom
  validUntil := input.validUntil
  title := input.title
  summary := input.summary
  importance := input.importance
  sourceKind := input.sourceKind
  concepts := input.concepts
  sourceFiles := input.sourceFiles

def SemanticContent.values (content : SemanticContent) : ObservationValues where
  content := content.content
  confidence := content.confidence
  source := content.source
  validFrom := content.validFrom
  validUntil := content.validUntil
  title := content.title
  summary := content.summary
  importance := content.importance
  sourceKind := content.sourceKind
  concepts := content.concepts
  sourceFiles := content.sourceFiles

/-- The end of a validity interval lies before its start. -/
def invertedValidity (values : ObservationValues) : Bool :=
  match values.validFrom, values.validUntil with
  | some start, some until_ => decide (until_ < start)
  | _, _ => false

def checkObservationValues (values : ObservationValues) : MemoryResult Unit := do
  checkText values.content "observation content" maxContentBytes false
  checkText values.source "observation source" maxTextBytes true
  checkOptionalText values.title "observation title"
  checkOptionalText values.summary "observation summary"
  checkOptionalText values.sourceKind "observation source kind"
  refuseIf (outsideUnit values.confidence)
    (.invalidInput "observation confidence must be finite and within 0..=1")
  refuseIf (values.importance.any outsideUnit)
    (.invalidInput "observation importance must be finite and within 0..=1")
  refuseIf (invertedValidity values) (.invalidInput "observation validity interval is inverted")
  checkTextList "observation concepts" values.concepts
  checkTextList "observation source files" values.sourceFiles

def checkRelation (relation : RelationInput) : MemoryResult Unit := do
  checkText relation.relationType "relation type" maxTextBytes false
  checkText relation.targetName "relation target" maxTextBytes false
  checkText relation.source "relation source" maxTextBytes true
  refuseIf (!relation.weight.isFinite || relation.weight.isNegative)
    (.invalidInput "relation weight must be finite and non-negative")

def isHexDigit (c : Char) : Bool :=
  ('0' ≤ c && c ≤ '9') || ('a' ≤ c && c ≤ 'f') || ('A' ≤ c && c ≤ 'F')

def isBlake3Hash (value : String) : Bool :=
  value.utf8ByteSize == 71 && value.toList.take 7 == "blake3:".toList &&
    (value.toList.drop 7).all isHexDigit

def validateOperation : ChangeOperation → MemoryResult Unit
  | .remember entityName _ observations relations => do
      checkText entityName "entity name" maxTextBytes false
      refuseIf (maxListItems < observations.length ∨ maxListItems < relations.length)
        (.invalidInput "remember operation exceeds its nested item bound")
      observations.forM fun observation => checkObservationValues observation.values
      relations.forM checkRelation
  | .updateObservation observation _ _ => do
      checkText observation.id "observation id" maxTextBytes false
      checkText observation.entityId "observation entity id" maxTextBytes false
      checkObservationValues observation.values
  | .retireObservation observationId _ => checkText observationId "observation id" maxTextBytes false
  | .restoreObservation observationId _ =>
    checkText observationId "observation id" maxTextBytes false
  | .revertObservation observationId revisionId _ => do
      checkText observationId "observation id" maxTextBytes false
      checkText revisionId "revision id" maxTextBytes false
  | .destroyObservation observationId _ expectedRevisionId confirmationHash => do
      checkText observationId "observation id" maxTextBytes false
      match expectedRevisionId with
      | some revisionId => checkText revisionId.text "revision id" maxTextBytes false
      | none => .ok ()
      refuseIf (isBlake3Hash confirmationHash = false)
        (.invalidInput "destruction confirmation hash is invalid")

/-- Valid operations on distinct logical heads; `seen` are the heads before. -/
def checkOperations : List (ObjectKind × String) → List ChangeOperation → MemoryResult Unit
  | _, [] => .ok ()
  | seen, operation :: rest => do
      validateOperation operation
      refuseIf ((operation.objectKind, operation.logicalId) ∈ seen)
        (.invalidInput "duplicate operation on logical head")
      checkOperations ((operation.objectKind, operation.logicalId) :: seen) rest

/-- A text of a draft, or of a review, that is empty, too long or has control
characters. -/
def boundedTextRefused (value : String) : Bool :=
  decide (maxTextBytes < value.utf8ByteSize) || value.toList.any isControl

def validateDraft [PayloadCodec] (draft : ChangeSetDraft) : MemoryResult Unit := do
  refuseIf (draft.idempotencyKey = "" ∨ maxIdempotencyBytes < draft.idempotencyKey.utf8ByteSize)
    (.invalidInput "idempotency key exceeds 1..=128 bytes")
  [draft.actorId, draft.reason, draft.source].forM fun value =>
    refuseIf (value = "" ∨ boundedTextRefused value)
      (.invalidInput "changeset text exceeds its bound")
  refuseIf (draft.operations = [] ∨ maxOperationCount < draft.operations.length)
    (.invalidInput "changeset operation count exceeds 1..=256")
  refuseIf (maxPayloadBytes < (payloadText draft.operations).utf8ByteSize)
    (.invalidInput "changeset payload exceeds the 4 MiB hard limit")
  refuseIf (defaultMaxPayloadBytes < (payloadText draft.operations).utf8ByteSize)
    (.invalidInput "changeset payload exceeds the configured 1 MiB limit")
  checkOperations [] draft.operations

/-! ## Reviews -/

/-- The authority of a human reviewer. Only `new` builds one, and it admits no
role that cannot review. -/
structure ReviewAuthorization where
  actorId : String
  role : SpaceRole
  authority : AuthoritySnapshot
  canReview : role.canReview = true

def ReviewAuthorization.new (actorKind : ActorKind) (actorId : String) (role : SpaceRole)
    (authority : AuthoritySnapshot) : MemoryResult ReviewAuthorization :=
  if permitted : actorKind = .human ∧ role.canReview = true then do
    refuseIf (blank actorId || boundedTextRefused actorId)
      (.invalidInput "reviewer identity is invalid")
    return ⟨actorId, role, authority, permitted.2⟩
  else .error (.invalidInput "proposal review requires a human reviewer or maintainer")

def checkRejectionReason (reason : String) : MemoryResult Unit :=
  refuseIf (blank reason || boundedTextRefused reason) (.invalidInput "rejection reason is invalid")

end OpenMemory.Graph
