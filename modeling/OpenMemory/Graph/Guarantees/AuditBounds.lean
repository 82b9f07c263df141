import OpenMemory.Graph.Bounds
import OpenMemory.Merge.Fixture

/-!
# Admission and commit

A write is checked twice. The check that front ends run before they admit a
request looks for empty texts. The audit layer, inside the transaction, records
the write as a change set, and holds it to the bounds of one: sizes, counts,
control characters, numbers, repeated names.

So a request that was admitted can still be refused when it is written. The
bounds are spelled out here as predicates on requests, and the two checks are
compared: of admitted requests exactly those within the bounds are accepted.
-/

namespace OpenMemory.Graph

open Foundation
open Merge (Blake3)

/-! ## The bounds -/

/-- What the audit layer asks of a group. -/
structure GroupFits (request : RememberRequest) : Prop where
  name : Fits request.name maxTextBytes
  observationCount : request.observations.length ≤ maxListItems
  relationCount : request.relations.length ≤ maxListItems
  observations : ∀ observation ∈ request.observations, ValuesFit observation.values
  relations : ∀ relation ∈ request.relations, RelationFits relation

/-- What it asks of the groups of one write: at most so many, on different
entities, and together no larger than the payload of a change set. -/
structure GroupsFit [PayloadCodec] (requests : List RememberRequest) : Prop where
  count : requests.length ≤ maxOperationCount
  payload : (payloadText (requests.map Database.rememberOperation)).utf8ByteSize ≤ defaultMaxPayloadBytes
  names : (requests.map RememberRequest.name).Nodup
  groups : ∀ request ∈ requests, GroupFits request

/-- What it asks of the source that a single write is recorded under. -/
def SourceFits (source : String) : Prop := boundedTextRefused source = false

instance (source : String) : Decidable (SourceFits source) :=
  inferInstanceAs (Decidable (boundedTextRefused source = false))

/-- What the check of an admitted request has seen. -/
theorem validate_eq_ok {request : RememberRequest} :
    request.validate = .ok () ↔ blank request.name = false ∧
      (∀ observation ∈ request.observations, blank observation.content = false) ∧
      ∀ relation ∈ request.relations,
        blank relation.relationType = false ∧ blank relation.targetName = false := by
  unfold RememberRequest.validate validateGroup
  simp only [bind_eq_ok, refuseIf_eq_ok, forM_eq_ok, Bool.not_eq_true]
  constructor
  · rintro ⟨-, name, -, observations, relations⟩
    exact ⟨name, observations, fun relation member =>
      let ⟨_, kind, target⟩ := relations relation member
      ⟨kind, target⟩⟩
  · rintro ⟨name, observations, relations⟩
    exact ⟨⟨⟩, name, ⟨⟩, observations, fun relation member => ⟨⟨⟩, relations relation member⟩⟩

/-- **One group**: of admitted groups the audit layer accepts those that fit. -/
theorem validateOperation_eq_ok {u : Unit} {request : RememberRequest}
    (admitted : request.validate = .ok ()) :
    validateOperation (Database.rememberOperation request) = .ok u ↔ GroupFits request := by
  obtain ⟨name, observations, relations⟩ := validate_eq_ok.mp admitted
  have each : ∀ observation ∈ request.observations,
      (checkObservationValues observation.values = .ok ⟨⟩ ↔ ValuesFit observation.values) :=
    fun observation member => checkObservationValues_eq_ok (observations observation member)
  have related : ∀ relation ∈ request.relations,
      (checkRelation relation = .ok ⟨⟩ ↔ RelationFits relation) :=
    fun relation member => checkRelation_eq_ok (relations relation member)
  unfold Database.rememberOperation validateOperation
  simp only [bind_eq_ok, refuseIf_eq_ok, forM_eq_ok, checkText_of_full name, not_or, not_lt]
  rw [forall₂_congr related]
  simp only [forall₂_congr each]
  constructor
  · rintro ⟨-, fits, -, ⟨observationCount, relationCount⟩, -, good, targets⟩
    exact ⟨fits, observationCount, relationCount, good, targets⟩
  · intro fits
    exact ⟨⟨⟩, fits.name, ⟨⟩, ⟨fits.observationCount, fits.relationCount⟩, ⟨⟩,
      fits.observations, fits.relations⟩

/-! ## The draft of a compatibility write -/

section Draft

variable [Blake3] {id : ChangeSetId} {spaceId : SpaceId} {changeSource : String}
  {operations : List ChangeOperation}

theorem legacyDraft_key_fits :
    (Database.legacyDraft id spaceId changeSource operations).idempotencyKey ≠ "" ∧
      (Database.legacyDraft id spaceId changeSource operations).idempotencyKey.utf8ByteSize ≤
        maxIdempotencyBytes := by
  have size : ("legacy:" ++ id.toText).utf8ByteSize = 43 := by
    rw [String.utf8ByteSize_append, id.toText_utf8ByteSize]
    decide
  constructor
  · intro empty
    have none : ("legacy:" ++ id.toText).utf8ByteSize = 0 := by
      rw [show "legacy:" ++ id.toText = "" from empty]
      rfl
    rw [size] at none
    cases none
  · rw [show (Database.legacyDraft id spaceId changeSource operations).idempotencyKey =
      "legacy:" ++ id.toText from rfl, size]
    decide

/-- A source that is empty is replaced by one that fits. -/
theorem legacyDraft_source_fits :
    DraftTextFits (Database.legacyDraft id spaceId changeSource operations).source ↔
      SourceFits changeSource := by
  by_cases empty : changeSource = ""
  · subst empty
    have named : (Database.legacyDraft id spaceId "" operations).source = "compatibility" := rfl
    rw [named]
    decide
  · have named : (Database.legacyDraft id spaceId changeSource operations).source = changeSource :=
      if_neg empty
    rw [named]
    exact and_iff_right empty

/-- The draft of a compatibility write is valid when its source and its operations
are: the other texts are the program's own. -/
theorem validateDraft_legacy [PayloadCodec] {u : Unit} :
    validateDraft (Database.legacyDraft id spaceId changeSource operations) = .ok u ↔
      SourceFits changeSource ∧ CountsFit operations ∧ checkOperations [] operations = .ok u := by
  have actor : DraftTextFits "legacy" := by decide
  have reason : DraftTextFits "legacy remember" := by decide
  rw [validateDraft_eq_ok, legacyDraft_source_fits]
  constructor
  · rintro ⟨-, ⟨-, -, source⟩, counts, valid⟩
    exact ⟨source, counts, valid⟩
  · rintro ⟨source, counts, valid⟩
    exact ⟨legacyDraft_key_fits, ⟨actor, reason, source⟩, counts, valid⟩

end Draft

/-! ## Admitted writes -/

namespace Database

section Admitted

variable [Blake3] [PayloadCodec] [EntityMatching] {db middle : Database} {draws : Draws}
  {requests : List RememberRequest} {request : RememberRequest} {outcomes : List RememberOutcome}
  {operations : List ChangeOperation} {changeSource : String}

omit [EntityMatching] in
/-- Recording groups that were just written fails, beside SQLite, where the draft is
not valid. -/
theorem recordLegacyRemembers_succeeds
    (headless : Headless middle (outcomes.flatMap RememberOutcome.observationIds))
    (undisturbed : Undisturbed
      (middle.recordLegacyRemembers draws outcomes operations changeSource)) :
    (∃ result, middle.recordLegacyRemembers draws outcomes operations changeSource = .ok result) ↔
      validateDraft (legacyDraft draws.changeSet (middle.compatibilitySpaceId draws).2 changeSource
        operations) = .ok () := by
  constructor
  · rintro ⟨⟨later, generation⟩, recorded⟩
    obtain ⟨_, _, _, valid, _⟩ := recordLegacyRemembers_eq_ok recorded
    exact valid
  · intro valid
    have rest : FailsWith MemoryError.IsSqlite
        (middle.recordLegacyRemembers draws outcomes operations changeSource) := by
      unfold recordLegacyRemembers
      refine failsWith_bind (failsWith_of_eq_ok valid) fun _ _ =>
        failsWith_bind failsWith_insertChangeSet fun rowed inserted =>
          failsWith_bind failsWith_insertRequests fun stored requested =>
            failsWith_bind (failsWith_recordGroups ?_) fun _ _ => trivial
      obtain ⟨-, observations, -, -⟩ := legacy_unchanged inserted requested
      exact ⟨headless.distinct, fun id member => observations ▸ headless.rows id member⟩
    exact rest.succeeds undisturbed

omit [Blake3] [PayloadCodec] [EntityMatching] in
/-- The operations of admitted requests are valid when the groups fit. -/
theorem checkOperations_remember (admitted : ∀ request ∈ requests, request.validate = .ok ()) :
    checkOperations [] (requests.map rememberOperation) = .ok () ↔
      (requests.map RememberRequest.name).Nodup ∧ ∀ request ∈ requests, GroupFits request := by
  have heads : (requests.map rememberOperation).map
      (fun operation => (operation.objectKind, operation.logicalId)) =
        (requests.map RememberRequest.name).map fun name => (ObjectKind.entity, name) := by
    rw [List.map_map, List.map_map]
    rfl
  have apart : Function.Injective fun name : String => (ObjectKind.entity, name) :=
    fun left right same => (Prod.mk.inj same).2
  rw [checkOperations_eq_ok, heads, List.nodup_map_iff apart]
  constructor
  · rintro ⟨valid, distinct, -⟩
    exact ⟨distinct, fun request member => (validateOperation_eq_ok (admitted request member)).mp
      (valid _ (List.mem_map_of_mem member))⟩
  · rintro ⟨distinct, fits⟩
    refine ⟨fun operation member => ?_, distinct, fun _ _ => List.not_mem_nil⟩
    obtain ⟨request, there, rfl⟩ := List.mem_map.mp member
    exact (validateOperation_eq_ok (admitted request there)).mpr (fits request there)

/-- **A batch** of admitted requests is accepted exactly when it is empty or its
groups fit. -/
theorem rememberBatch_succeeds {options : BatchOptions}
    (admitted : ∀ request ∈ requests, request.validate = .ok ())
    (undisturbed : Undisturbed (db.rememberBatch draws requests options)) :
    (∃ result, db.rememberBatch draws requests options = .ok result) ↔
      requests = [] ∨ GroupsFit requests := by
  have checked : requests.forM RememberRequest.validate = .ok () := forM_eq_ok.mpr admitted
  have rest := undisturbed.next checked
  obtain ⟨⟨middle, groups⟩, written⟩ := failsWith_writeGroups.succeeds rest.first
  have after := rest.next written
  cases requests with
  | nil => exact ⟨fun _ => .inl rfl, fun _ => ⟨_, bind_eq_ok.mpr ⟨_, checked, bind_eq_ok.mpr
      ⟨_, written, rfl⟩⟩⟩⟩
  | cons first others =>
    have headless := writeGroups_written written
    have recorded := recordLegacyRemembers_succeeds
      ⟨headless.distinct, headless.headless⟩ after.first
    have valid : validateDraft (legacyDraft draws.changeSet (middle.compatibilitySpaceId draws).2
        "compatibility-batch" ((first :: others).map rememberOperation)) = .ok () ↔
        GroupsFit (first :: others) := by
      rw [validateDraft_legacy, checkOperations_remember admitted]
      constructor
      · rintro ⟨-, counts, names, groups⟩
        exact ⟨List.length_map rememberOperation ▸ counts.count, counts.payload, names, groups⟩
      · intro fits
        exact ⟨by decide, ⟨List.cons_ne_nil _ _, (List.length_map rememberOperation).trans_le
          fits.count, fits.payload⟩, fits.names, fits.groups⟩
    rw [or_iff_right (List.cons_ne_nil first others), ← valid, ← recorded]
    constructor
    · rintro ⟨⟨later, remembered⟩, done⟩
      obtain ⟨⟨⟩, -, done⟩ := bind_eq_ok.mp done
      obtain ⟨⟨middle', groups'⟩, again, done⟩ := bind_eq_ok.mp done
      cases written.symm.trans again
      obtain ⟨result, recorded, -⟩ := bind_eq_ok.mp done
      exact ⟨result, recorded⟩
    · rintro ⟨result, recorded⟩
      exact ⟨_, bind_eq_ok.mpr ⟨_, checked, bind_eq_ok.mpr ⟨_, written, bind_eq_ok.mpr
        ⟨_, recorded, rfl⟩⟩⟩⟩

/-- **A single** admitted request is accepted exactly when it fits, with its source. -/
theorem remember_succeeds (admitted : request.validate = .ok ())
    (undisturbed : Undisturbed (db.remember draws request)) :
    (∃ result, db.remember draws request = .ok result) ↔
      SourceFits request.source ∧ GroupsFit [request] := by
  have rest := undisturbed.next admitted
  obtain ⟨⟨middle, group⟩, written⟩ := failsWith_writeGroup.succeeds rest.first
  have after := rest.next written
  have headless := writeGroup_written written
  have recorded : (∃ result, middle.recordLegacyRemembers draws [group.outcome]
      [rememberOperation request] request.source = .ok result) ↔ _ := recordLegacyRemembers_succeeds
    (by simpa using (⟨headless.distinct, headless.headless⟩ : Headless _ _)) after.first
  have valid : validateDraft (legacyDraft draws.changeSet (middle.compatibilitySpaceId draws).2
      request.source [rememberOperation request]) = .ok () ↔
      SourceFits request.source ∧ GroupsFit [request] := by
    have checked : checkOperations [] ([request].map rememberOperation) = .ok () ↔ _ :=
      checkOperations_remember (List.forall_mem_singleton.mpr admitted)
    rw [List.map_cons, List.map_nil] at checked
    rw [validateDraft_legacy, checked]
    constructor
    · rintro ⟨source, counts, names, groups⟩
      exact ⟨source, counts.count, counts.payload, names, groups⟩
    · rintro ⟨source, fits⟩
      exact ⟨source, ⟨List.cons_ne_nil _ _, fits.count, fits.payload⟩, fits.names, fits.groups⟩
  rw [← valid, ← recorded]
  constructor
  · rintro ⟨⟨later, remembered⟩, done⟩
    obtain ⟨⟨⟩, -, done⟩ := bind_eq_ok.mp done
    obtain ⟨⟨middle', group'⟩, again, done⟩ := bind_eq_ok.mp done
    cases written.symm.trans again
    obtain ⟨result, recorded, -⟩ := bind_eq_ok.mp done
    exact ⟨result, recorded⟩
  · rintro ⟨result, recorded⟩
    exact ⟨_, bind_eq_ok.mpr ⟨_, admitted, bind_eq_ok.mpr ⟨_, written, bind_eq_ok.mpr
      ⟨_, recorded, rfl⟩⟩⟩⟩

/-- **Admission and commit.** Of the batches whose requests were admitted, and which
SQLite does not let down, exactly those are accepted that are empty or whose groups
fit the audit layer; and of the single requests exactly those that fit it. -/
theorem admission_agrees (db : Database) (draws : Draws) :
    (∀ requests options, (∀ request ∈ requests, request.validate = .ok ()) →
      Undisturbed (db.rememberBatch draws requests options) →
      ((∃ result, db.rememberBatch draws requests options = .ok result) ↔
        requests = [] ∨ GroupsFit requests)) ∧
    ∀ request, request.validate = .ok () → Undisturbed (db.remember draws request) →
      ((∃ result, db.remember draws request = .ok result) ↔
        SourceFits request.source ∧ GroupsFit [request]) :=
  ⟨fun _ _ => rememberBatch_succeeds, fun _ => remember_succeeds⟩

end Admitted

/-! ## A name twice -/

namespace AuditBounds

/-- Payloads that are told apart by their length only. -/
scoped instance marks : PayloadCodec where
  toJson _ := "{}"
  fromJson _ := none

/-- Names that match only when they are the same. -/
scoped instance exactly : EntityMatching where
  enabled := false
  similarity _ _ := 0
  autoMergeThreshold := 1
  flagThreshold := 1
  maxCandidates := 0
  asWeight _ := .one

theorem space_lt : 0x00000000000070008000000000000001 < 2 ^ 128 := by decide

theorem changeSet_lt : 0x00000000000070008000000000000002 < 2 ^ 128 := by decide

theorem confirmation_lt : 0x00000000000070008000000000000003 < 2 ^ 128 := by decide

abbrev space : SpaceId := ⟨⟨0x00000000000070008000000000000001, space_lt⟩, by decide⟩

/-- The draws of a call, with different texts for different rows. -/
abbrev draws : Draws where
  now := 0
  space := space
  changeSet := ⟨⟨0x00000000000070008000000000000002, changeSet_lt⟩, by decide⟩
  confirmation := ⟨⟨0x00000000000070008000000000000003, confirmation_lt⟩, by decide⟩
  revision ordinal _ := Merge.Fixture.revision (Fin.ofNat _ ordinal)
  entity group index := String.ofList ('e' :: List.replicate group '1' ++ List.replicate index '2')
  observation group index :=
    String.ofList ('o' :: List.replicate group '1' ++ List.replicate index '2')
  relation group index :=
    String.ofList ('r' :: List.replicate group '1' ++ List.replicate index '2')
  sameAs group index := String.ofList ('s' :: List.replicate group '1' ++ List.replicate index '2')

abbrev fact : RememberRequest := RememberRequest.new "alice" .person

end AuditBounds

open Merge.Fixture AuditBounds in
/-- A fact about one person is accepted, by itself. -/
theorem single_accepted : ∃ result, initial.remember draws fact = .ok result := by
  have accepted : (initial.remember draws fact).toOption.isSome = true := by decide
  have undisturbed : Undisturbed (initial.remember draws fact) := by
    intro error failed
    rw [failed] at accepted
    cases accepted
  refine ((admission_agrees initial draws).2 fact rfl undisturbed).mpr ⟨by decide, ?_⟩
  exact {
    count := by decide
    payload := by decide
    names := List.nodup_singleton _
    groups := List.forall_mem_singleton.mpr {
      name := ⟨by decide, by decide⟩
      observationCount := by decide
      relationCount := by decide
      observations := fun _ member => nomatch member
      relations := fun _ member => nomatch member } }

open Merge.Fixture AuditBounds in
/-- Two facts about one person, each of which is admitted and would be accepted by
itself, are refused as a batch. -/
theorem twice_refused :
    ¬ ∀ (db : Database) (draws : Draws) (requests : List RememberRequest) (options : BatchOptions),
      (∀ request ∈ requests, request.validate = .ok ()) →
        Undisturbed (db.rememberBatch draws requests options) →
          ∃ result, db.rememberBatch draws requests options = .ok result := by
  intro accepts
  have refused : initial.rememberBatch draws [fact, fact] .standard =
      .error (.invalidInput "duplicate operation on logical head") := rfl
  have undisturbed : Undisturbed (initial.rememberBatch draws [fact, fact] .standard) := by
    intro error failed
    cases refused.symm.trans failed
    exact id
  obtain ⟨result, accepted⟩ := accepts initial draws [fact, fact] .standard
    (List.forall_mem_cons.mpr ⟨rfl, List.forall_mem_singleton.mpr rfl⟩) undisturbed
  cases refused.symm.trans accepted

end Database

end OpenMemory.Graph
