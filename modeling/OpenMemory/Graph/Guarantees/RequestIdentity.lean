import OpenMemory.Graph.Guarantees.RevisionIdentity

/-!
# What a hash tells apart

The hash of a request and the hash of an observation are exact: the bytes under them are equal
for requests, or observations, that differ in nothing but the order of concepts and of source
files and, in a request, the access count of an updated observation. So a repeated request is
recognised and a different one is not taken for it.
-/

namespace OpenMemory.Graph

open Foundation
open Merge (ShortText)

/-! ## The same request -/

/-- The same input, up to the order of its lists. -/
def ObservationInput.Agrees (left right : ObservationInput) : Prop :=
  left.concepts.Perm right.concepts ∧ left.sourceFiles.Perm right.sourceFiles ∧
    { left with concepts := right.concepts, sourceFiles := right.sourceFiles } = right

/-- The same observation, up to the order of its lists and the access count. -/
def Observation.Agrees (left right : Observation) : Prop :=
  left.id = right.id ∧ left.tombstoned = right.tombstoned ∧
    left.toSemanticContent.Agrees right.toSemanticContent

def ChangeOperation.Agrees : ChangeOperation → ChangeOperation → Prop
  | .remember name type observations relations, .remember name' type' observations' relations' =>
    name = name' ∧ type = type' ∧ List.Forall₂ ObservationInput.Agrees observations observations' ∧
      relations = relations'
  | .updateObservation observation version revision,
      .updateObservation observation' version' revision' =>
    observation.Agrees observation' ∧ version = version' ∧ revision = revision'
  | left, right => left = right

/-- The same request: the draft, without its key, and the mode. -/
structure SameRequest (left right : ChangeSetDraft) (mode mode' : SubmitMode) : Prop where
  mode : mode = mode'
  spaceId : left.spaceId = right.spaceId
  actorKind : left.actorKind = right.actorKind
  actorId : left.actorId = right.actorId
  authority : left.authority = right.authority
  reason : left.reason = right.reason
  source : left.source = right.source
  operations : List.Forall₂ ChangeOperation.Agrees left.operations right.operations

/-! ## Lengths of 64 bits, as those in memory have -/

structure ObservationInput.Fits (observation : ObservationInput) : Prop where
  content : ShortText observation.content
  source : ShortText observation.source
  title : ∀ text ∈ observation.title, ShortText text
  summary : ∀ text ∈ observation.summary, ShortText text
  sourceKind : ∀ text ∈ observation.sourceKind, ShortText text
  concepts : Frame.ShortTexts observation.concepts
  sourceFiles : Frame.ShortTexts observation.sourceFiles

structure RelationInput.Fits (relation : RelationInput) : Prop where
  relationType : ShortText relation.relationType
  targetName : ShortText relation.targetName
  targetType : ShortText relation.targetType.asStr
  source : ShortText relation.source

def ChangeOperation.Fits : ChangeOperation → Prop
  | .remember name type observations relations => (ShortText name ∧ ShortText type.asStr) ∧
      (observations.length < 2 ^ 64 ∧ ∀ observation ∈ observations, observation.Fits) ∧
        relations.length < 2 ^ 64 ∧ ∀ relation ∈ relations, relation.Fits
  | .updateObservation observation _ _ => ShortText observation.id ∧
      observation.toSemanticContent.Fits
  | .retireObservation id _ | .restoreObservation id _ => ShortText id
  | .revertObservation id revisionId _ => ShortText id ∧ ShortText revisionId
  | .destroyObservation id _ _ confirmationHash => ShortText id ∧ ShortText confirmationHash

structure ChangeSetDraft.Fits (draft : ChangeSetDraft) : Prop where
  actorId : ShortText draft.actorId
  reason : ShortText draft.reason
  source : ShortText draft.source
  operations : draft.operations.length < 2 ^ 64 ∧
    ∀ operation ∈ draft.operations, operation.Fits

/-! ## Observations and relations -/

section Parts

open OpenMemory.Graph.Frame

theorem exact_input : ExactOn ObservationInput.Fits ObservationInput.Agrees
    hashObservationInput := by
  have fields := exact_str.pair (selfDelimiting_f32.exact_.pair (exact_str.pair
    (exact_optionalI64.pair (exact_optionalI64.pair (exact_tier.pair (exact_optionalStr.pair
      (exact_optionalStr.pair (exact_optionalF32.pair (exact_optionalStr.pair
        (exact_sortedStrings.pair exact_sortedStrings))))))))))
  refine fields.comap (fun o => (o.content, o.confidence, o.source, o.validFrom, o.validUntil,
    o.memoryTier, o.title, o.summary, o.importance, o.sourceKind, o.concepts, o.sourceFiles))
    ?_ ?_ ?_
  · intro o
    simp only [hashObservationInput, List.append_assoc]
  · intro o fits
    exact ⟨fits.content, trivial, fits.source, fun _ _ => trivial, fun _ _ => trivial,
      shortText_tier _, fits.title, fits.summary, fun _ _ => trivial, fits.sourceKind,
      fits.concepts, fits.sourceFiles⟩
  · rintro ⟨⟩ ⟨⟩
    simp only [ObservationInput.Agrees, ObservationInput.mk.injEq]
    tauto

theorem exact_observation : ExactOn
    (fun o : Observation => ShortText o.id ∧ o.toSemanticContent.Fits) Observation.Agrees
    hashObservation := by
  have fields := exact_str.pair (exact_str.pair (exact_str.pair (selfDelimiting_i64.exact_.pair
    (exact_optionalI64.pair (exact_optionalI64.pair (selfDelimiting_f32.exact_.pair
      (exact_str.pair (selfDelimiting_flag.exact_.pair (exact_tier.pair (exact_optionalStr.pair
        (exact_optionalStr.pair (exact_optionalF32.pair (exact_optionalStr.pair
          (exact_sortedStrings.pair exact_sortedStrings))))))))))))))
  refine fields.comap (fun o => (o.id, o.entityId, o.content, o.observedAt, o.validFrom,
    o.validUntil, o.confidence, o.source, o.tombstoned, o.memoryTier, o.title, o.summary,
    o.importance, o.sourceKind, o.concepts, o.sourceFiles)) ?_ ?_ ?_
  · intro o
    simp only [hashObservation, List.append_assoc]
  · rintro o ⟨id, fits⟩
    exact ⟨id, fits.entityId, fits.content, trivial, fun _ _ => trivial, fun _ _ => trivial,
      trivial, fits.source, trivial, shortText_tier _, fits.title, fits.summary,
      fun _ _ => trivial, fits.sourceKind, fits.concepts, fits.sourceFiles⟩
  · rintro ⟨⟨⟩, _, _, _⟩ ⟨⟨⟩, _, _, _⟩
    simp only [Observation.Agrees, SemanticContent.Agrees, SemanticContent.mk.injEq]
    tauto

theorem exact_relation : ExactOn RelationInput.Fits (· = ·) hashRelationInput := by
  have type := exact_named EntityType.asStr_injective
  have fields := exact_str.pair (exact_str.pair (type.pair (selfDelimiting_f32.exact_.pair
    exact_str)))
  refine fields.comap (fun relation => (relation.relationType, relation.targetName,
    relation.targetType, relation.weight, relation.source)) ?_ ?_ ?_
  · intro relation
    simp only [hashRelationInput, List.append_assoc]
  · intro relation fits
    exact ⟨fits.relationType, fits.targetName, fits.targetType, trivial, fits.source⟩
  · rintro ⟨⟩ ⟨⟩
    simp only [RelationInput.mk.injEq]

/-! ## Operations -/

theorem exact_version : ExactOn (fun _ => True) (· = ·)
    fun value : UInt64 => u64 value.toNat :=
  (selfDelimiting_u64.comap UInt64.toNat (fun value _ => value.toNat_lt)
    fun _ _ _ _ same => UInt64.toNat_inj.mp same).exact_

theorem exact_revision : ExactOn (fun _ => True) (· = ·) fun revision : Option SizedText =>
    optional str (revision.map SizedText.text) := by
  have injective : Function.Injective SizedText.text := by
    rintro ⟨_, _⟩ ⟨_, _⟩ rfl
    rfl
  refine exact_optionalStr.comap (Option.map SizedText.text) (fun _ => rfl) ?_ fun _ _ =>
    (Option.map_injective injective).eq_iff.symm
  rintro (_ | revision) _ text ⟨⟩
  exact revision.sized

theorem operationName_of_bytes {left right : ChangeOperation} {xs ys : Bytes}
    (bytes : hashOperation left ++ xs = hashOperation right ++ ys) :
    left.operationName = right.operationName := by
  have tagged (operation : ChangeOperation) : ∃ body, hashOperation operation =
      str operation.operationName ++ body := by
    cases operation <;> exact ⟨_, rfl⟩
  have short (operation : ChangeOperation) : ShortText operation.operationName := by
    have size : operation.operationName.utf8ByteSize ≤ 20 := by
      cases operation <;> simp only [ChangeOperation.operationName] <;> decide
    exact ShortText.of_le size (by decide)
  obtain ⟨body, leftBytes⟩ := tagged left
  obtain ⟨other, rightBytes⟩ := tagged right
  rw [leftBytes, rightBytes, List.append_assoc, List.append_assoc] at bytes
  exact (selfDelimiting_str (short left) (short right) bytes).1

theorem exact_remember : ExactOn
    (fun group : (String × EntityType) × List ObservationInput × List RelationInput =>
      ChangeOperation.Fits (.remember group.1.1 group.1.2 group.2.1 group.2.2))
    (fun left right => (left.1.1 = right.1.1 ∧ left.1.2 = right.1.2) ∧
      List.Forall₂ ObservationInput.Agrees left.2.1 right.2.1 ∧ left.2.2 = right.2.2)
    fun group => hashOperation (.remember group.1.1 group.1.2 group.2.1 group.2.2) := by
  have relations := exact_relation.list selfDelimiting_u64
  rw [List.forall₂_eq_eq_eq] at relations
  refine (((exact_str.pair (exact_named EntityType.asStr_injective)).pair
    ((exact_input.list selfDelimiting_u64).pair relations)).tagged (str "remember")).comap id ?_
      (fun _ fits => fits) fun _ _ => Iff.rfl
  intro group
  simp only [hashOperation, List.append_assoc, id]

theorem exact_operation : ExactOn ChangeOperation.Fits ChangeOperation.Agrees hashOperation where
  agree {left right} same := by
    cases left with
    | remember name type observations relations =>
      cases right with
      | remember name' type' observations' relations' =>
        exact @ExactOn.agree _ _ _ _ exact_remember ((name, type), observations, relations)
          ((name', type'), observations', relations') ⟨⟨same.1, same.2.1⟩, same.2.2⟩
      | _ => exact congrArg hashOperation same
    | updateObservation observation version revision =>
      cases right with
      | updateObservation =>
        rw [hashOperation, hashOperation, exact_observation.agree same.1, same.2.1, same.2.2]
      | _ => exact congrArg hashOperation same
    | _ => cases right <;> exact congrArg hashOperation same
  read {left right} xs ys leftFits rightFits bytes := by
    have tag := operationName_of_bytes bytes
    cases left <;> cases right <;> simp [ChangeOperation.operationName] at tag
    case remember.remember =>
      obtain ⟨⟨⟨name, type⟩, lists⟩, rest⟩ := @ExactOn.read _ _ _ _ exact_remember ((_, _), _, _)
        ((_, _), _, _) _ _ leftFits rightFits bytes
      exact ⟨⟨name, type, lists⟩, rest⟩
    case updateObservation.updateObservation =>
      obtain ⟨⟨⟨observation, version⟩, revision⟩, rest⟩ := @ExactOn.read _ _ _ _
        (((exact_observation.pair exact_version).pair exact_revision).tagged _) ((_, _), _)
          ((_, _), _) _ _ ⟨⟨leftFits, trivial⟩, trivial⟩ ⟨⟨rightFits, trivial⟩, trivial⟩ bytes
      exact ⟨⟨observation, version, revision⟩, rest⟩
    case retireObservation.retireObservation =>
      obtain ⟨⟨id, version⟩, rest⟩ := @ExactOn.read _ _ _ _
        ((exact_str.pair exact_version).tagged _) (_, _) (_, _) _ _ ⟨leftFits, trivial⟩
          ⟨rightFits, trivial⟩ bytes
      exact ⟨congrArg₂ ChangeOperation.retireObservation id version, rest⟩
    case restoreObservation.restoreObservation =>
      obtain ⟨⟨id, version⟩, rest⟩ := @ExactOn.read _ _ _ _
        ((exact_str.pair exact_version).tagged _) (_, _) (_, _) _ _ ⟨leftFits, trivial⟩
          ⟨rightFits, trivial⟩ bytes
      exact ⟨congrArg₂ ChangeOperation.restoreObservation id version, rest⟩
    case revertObservation.revertObservation =>
      obtain ⟨⟨⟨rfl, rfl⟩, rfl⟩, rest⟩ := @ExactOn.read _ _ _ _
        (((exact_str.pair exact_str).pair exact_version).tagged _) ((_, _), _) ((_, _), _) _ _
          ⟨leftFits, trivial⟩ ⟨rightFits, trivial⟩ bytes
      exact ⟨rfl, rest⟩
    case destroyObservation.destroyObservation =>
      obtain ⟨⟨⟨⟨rfl, rfl⟩, rfl⟩, rfl⟩, rest⟩ := @ExactOn.read _ _ _ _
        ((((exact_str.pair exact_version).pair exact_revision).pair exact_str).tagged _)
          (((_, _), _), _) (((_, _), _), _) _ _ ⟨⟨⟨leftFits.1, trivial⟩, trivial⟩, leftFits.2⟩
            ⟨⟨⟨rightFits.1, trivial⟩, trivial⟩, rightFits.2⟩ bytes
      exact ⟨rfl, rest⟩

/-! ## Requests -/

theorem exact_digest : ExactOn (fun _ => True) (· = ·) Merge.Digest.asBytes :=
  (SelfDelimitingOn.of_fixed_length (fun digest _ => digest.asBytes_length)
    fun _ _ _ _ same => Merge.Digest.asBytes_injective same).exact_

theorem exact_authority : ExactOn (fun _ => True) (· = ·) fun authority : AuthoritySnapshot =>
    u16 authority.version.toNat ++ authority.digest.asBytes := by
  have versions : SelfDelimiting fun version : UInt16 => u16 version.toNat :=
    (selfDelimiting_leFramed (show 2 < 2 ^ 64 by decide)).comap UInt16.toNat
      (fun version _ => version.toNat_lt) fun _ _ _ _ same => UInt16.toNat_inj.mp same
  refine (versions.exact_.pair exact_digest).comap (fun authority =>
    (authority.version, authority.digest)) (fun _ => rfl) (fun _ _ => ⟨trivial, trivial⟩) ?_
  rintro ⟨⟩ ⟨⟩
  simp only [AuthoritySnapshot.mk.injEq]

theorem exact_request : ExactOn (fun pair : ChangeSetDraft × SubmitMode => pair.1.Fits)
    (fun left right => SameRequest left.1 right.1 left.2 right.2)
    fun pair => requestBytes pair.1 pair.2 := by
  have modes : Function.Injective SubmitMode.asStr := by
    intro left right
    cases left <;> cases right <;> decide
  have kinds : Function.Injective actorKindStr := by
    intro left right
    cases left <;> cases right <;> decide
  have spaces : ExactOn (fun _ => True) (· = ·) fun id : SpaceId => str id.toText :=
    (selfDelimiting_str.comap _ (fun id _ => id.toText_size) fun _ _ _ _ same =>
      UuidV7Id.toText_injective same).exact_
  have fields := ((exact_named modes).pair (spaces.pair (((exact_named kinds).pair
    (exact_str.pair (exact_authority.pair (exact_str.pair (exact_str.pair
      (exact_operation.list selfDelimiting_u64)))))).tagged (str "home-domain:0"))))
  refine ((fields.tagged (u16 requestVersion)).tagged (utf8 "openmemory/changeset/v1")).comap
    (fun pair => (pair.2, pair.1.spaceId, pair.1.actorKind, pair.1.actorId, pair.1.authority,
      pair.1.reason, pair.1.source, pair.1.operations)) ?_ ?_ ?_
  · intro pair
    simp only [requestBytes, List.append_assoc]
  · rintro ⟨draft, mode⟩ fits
    have short {α : Type} {name : α → String} (size : ∀ value, (name value).utf8ByteSize ≤ 17)
        (value : α) : ShortText (name value) := ShortText.of_le (size value) (by decide)
    exact ⟨short (by rintro (_ | _) <;> decide) mode, trivial,
      short (by rintro (_ | _ | _) <;> decide) draft.actorKind, fits.actorId, trivial,
      fits.reason, fits.source, fits.operations⟩
  · rintro ⟨left, mode⟩ ⟨right, mode'⟩
    constructor
    · rintro ⟨mode, space, kind, actor, authority, reason, source, operations⟩
      exact ⟨mode, space, kind, actor, authority, reason, source, operations⟩
    · rintro ⟨mode, space, kind, actor, authority, reason, source, operations⟩
      exact ⟨mode, space, kind, actor, authority, reason, source, operations⟩

end Parts

/-- **Hashes are exact**: of requests, and of observations with their lifecycle. -/
theorem hashes_exact :
    (∀ (left right : ChangeSetDraft) (mode mode' : SubmitMode), left.Fits → right.Fits →
      (requestBytes left mode = requestBytes right mode' ↔ SameRequest left right mode mode')) ∧
    ∀ (left right : SemanticContent) (before after : Lifecycle), left.Fits → right.Fits →
      (observationBytes left before = observationBytes right after ↔
        left.Agrees right ∧ before = after) := by
  constructor
  · intro left right mode mode' leftFits rightFits
    exact exact_request.iff (a := (left, mode)) (b := (right, mode')) leftFits rightFits
  · intro left right before after leftFits rightFits
    exact exact_observationBytes.iff (a := (left, before)) (b := (right, after)) leftFits rightFits

end OpenMemory.Graph
