import OpenMemory.Graph.Operation

/-!
# Hashes of requests and of destructions

A request is hashed over its framed fields, so that a repeated request is
recognised and a stored proposal cannot be altered. Lists whose order means
nothing, concepts and source files, are sorted first. The idempotency key is
not part of the hash, nor is the access count of an updated observation.
-/

namespace OpenMemory.Graph

open Foundation
open Merge (Blake3)

/-! ## Frames -/

namespace Frame

def str (value : String) : Bytes := framed (utf8 value)

def u16 (value : Nat) : Bytes := framed (leBytes 2 value)

def u64 (value : Nat) : Bytes := framed (leBytes 8 value)

def i64 (value : Int64) : Bytes := framed (leBytes 8 value.toUInt64.toNat)

def f32 (value : Float32Bits) : Bytes := framed (leBytes 4 value.toBits.toNat)

def flag (value : Bool) : Bytes := framed [if value then 1 else 0]

def optional {α : Type} (encode : α → Bytes) : Option α → Bytes
  | some value => flag true ++ encode value
  | none => flag false

def strings (values : List String) : Bytes := u64 values.length ++ values.flatMap str

def sortedStrings (values : List String) : Bytes := strings (values.insertionSort (· ≤ ·))

end Frame

/-! ## Operations -/

def actorKindStr : ActorKind → String
  | .human => "human"
  | .agent => "agent"
  | .system => "system"

/-- One new observation of a `remember` operation. -/
def hashObservationInput (observation : ObservationInput) : Bytes :=
  Frame.str observation.content ++ Frame.f32 observation.confidence ++
    Frame.str observation.source ++ Frame.optional Frame.i64 observation.validFrom ++
    Frame.optional Frame.i64 observation.validUntil ++
    Frame.str observation.memoryTier.asStr ++ Frame.optional Frame.str observation.title ++
    Frame.optional Frame.str observation.summary ++
    Frame.optional Frame.f32 observation.importance ++
    Frame.optional Frame.str observation.sourceKind ++
    Frame.sortedStrings observation.concepts ++ Frame.sortedStrings observation.sourceFiles

def hashRelationInput (relation : RelationInput) : Bytes :=
  Frame.str relation.relationType ++ Frame.str relation.targetName ++
    Frame.str relation.targetType.asStr ++ Frame.f32 relation.weight ++ Frame.str relation.source

/-- The observation of an update, without its access count. -/
def hashObservation (observation : Observation) : Bytes :=
  Frame.str observation.id ++ Frame.str observation.entityId ++ Frame.str observation.content ++
    Frame.i64 observation.observedAt ++ Frame.optional Frame.i64 observation.validFrom ++
    Frame.optional Frame.i64 observation.validUntil ++ Frame.f32 observation.confidence ++
    Frame.str observation.source ++ Frame.flag observation.tombstoned ++
    Frame.str observation.memoryTier.asStr ++ Frame.optional Frame.str observation.title ++
    Frame.optional Frame.str observation.summary ++
    Frame.optional Frame.f32 observation.importance ++
    Frame.optional Frame.str observation.sourceKind ++
    Frame.sortedStrings observation.concepts ++ Frame.sortedStrings observation.sourceFiles

def hashOperation : ChangeOperation → Bytes
  | .remember entityName entityType observations relations =>
    Frame.str "remember" ++ (Frame.str entityName ++ Frame.str entityType.asStr ++
      Frame.u64 observations.length ++ observations.flatMap hashObservationInput ++
      Frame.u64 relations.length ++ relations.flatMap hashRelationInput)
  | .updateObservation observation expectedRowVersion expectedRevisionId =>
    Frame.str "update_observation" ++ (hashObservation observation ++
      Frame.u64 expectedRowVersion.toNat ++
      Frame.optional Frame.str (expectedRevisionId.map SizedText.text))
  | .retireObservation observationId expectedRowVersion =>
    Frame.str "retire_observation" ++ (Frame.str observationId ++
      Frame.u64 expectedRowVersion.toNat)
  | .restoreObservation observationId expectedRowVersion =>
    Frame.str "restore_observation" ++ (Frame.str observationId ++
      Frame.u64 expectedRowVersion.toNat)
  | .revertObservation observationId revisionId expectedRowVersion =>
    Frame.str "revert_observation" ++ (Frame.str observationId ++ Frame.str revisionId ++
      Frame.u64 expectedRowVersion.toNat)
  | .destroyObservation observationId expectedRowVersion expectedRevisionId confirmationHash =>
    Frame.str "destroy_observation" ++ (Frame.str observationId ++
      Frame.u64 expectedRowVersion.toNat ++
      Frame.optional Frame.str (expectedRevisionId.map SizedText.text) ++
      Frame.str confirmationHash)

/-! ## Hashes -/

def requestVersion : Nat := 1

def requestBytes (draft : ChangeSetDraft) (mode : SubmitMode) : Bytes :=
  utf8 "openmemory/changeset/v1" ++ (Frame.u16 requestVersion ++ Frame.str mode.asStr ++
    Frame.str draft.spaceId.toText ++ Frame.str "home-domain:0" ++
    Frame.str (actorKindStr draft.actorKind) ++ Frame.str draft.actorId ++
    Frame.u16 draft.authority.version.toNat ++ draft.authority.digest.asBytes ++
    Frame.str draft.reason ++ Frame.str draft.source ++ Frame.u64 draft.operations.length ++
    draft.operations.flatMap hashOperation)

variable [Blake3]

/-- The text of a digest with the name of its function. -/
def blake3Text (bytes : Bytes) : String := "blake3:" ++ (Blake3.hash bytes).toText

def canonicalRequestHash (draft : ChangeSetDraft) (mode : SubmitMode) : String :=
  blake3Text (requestBytes draft mode)

def tokenBytes (token : String) : Bytes :=
  utf8 "openmemory/destruction-confirmation-token/v1" ++ Frame.str token

def destructionTokenHash (token : String) : String := blake3Text (tokenBytes token)

def destructionPreviewHash (spaceId : SpaceId) (observationId : String)
    (expectedRevisionId : Option String)
    (expectedRowVersion revisionCount sideTableRowCount : Nat) : String :=
  blake3Text (utf8 "openmemory/observation-destruction-preview/v1" ++ Frame.str spaceId.toText ++
    Frame.str observationId ++ Frame.optional Frame.str expectedRevisionId ++
    Frame.u64 expectedRowVersion ++ Frame.u64 revisionCount ++ Frame.u64 sideTableRowCount)

/-- The hash of the identifier of a baseline, which stands for a request. -/
def baselineHash (id : String) : String := blake3Text (utf8 id)

theorem blake3Text_injective {left right : Bytes} (same : blake3Text left = blake3Text right) :
    Blake3.hash left = Blake3.hash right := by
  have texts := congrArg String.toList same
  simp only [blake3Text, String.toList_append, List.append_cancel_left_eq] at texts
  exact Merge.Digest.toText_injective (String.toList_injective texts)

end OpenMemory.Graph
