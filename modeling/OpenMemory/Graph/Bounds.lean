import OpenMemory.Graph.Failures

/-!
# The bounds of a change set

The audit layer holds a draft to bounds: sizes, counts, control characters,
numbers, repeated names. They are spelled out here as predicates, and each check
passes exactly what satisfies its predicate.
-/

namespace OpenMemory.Graph

open Foundation

/-! ## The bounds -/

/-- A text that is not too long and has no NUL. -/
structure Fits (value : String) (max : Nat) : Prop where
  size : value.utf8ByteSize ≤ max
  noNul : '\x00' ∉ value.toList

/-- A list of different texts, each of which fits and is not blank. -/
structure ListFits (values : List String) : Prop where
  length : values.length ≤ maxListItems
  distinct : values.Nodup
  items : ∀ value ∈ values, blank value = false ∧ Fits value maxTextBytes

/-- What the audit layer asks of an observation. -/
structure ValuesFit (values : ObservationValues) : Prop where
  content : Fits values.content maxContentBytes
  source : Fits values.source maxTextBytes
  title : ∀ text ∈ values.title, Fits text maxTextBytes
  summary : ∀ text ∈ values.summary, Fits text maxTextBytes
  sourceKind : ∀ text ∈ values.sourceKind, Fits text maxTextBytes
  confidence : outsideUnit values.confidence = false
  importance : values.importance.any outsideUnit = false
  validity : invertedValidity values = false
  concepts : ListFits values.concepts
  sourceFiles : ListFits values.sourceFiles

/-- What the audit layer asks of a relation. -/
structure RelationFits (relation : RelationInput) : Prop where
  relationType : Fits relation.relationType maxTextBytes
  targetName : Fits relation.targetName maxTextBytes
  source : Fits relation.source maxTextBytes
  weight : relation.weight.isFinite = true ∧ relation.weight.isNegative = false

/-! ## What the checks amount to -/

variable {field value : String} {max : Nat} {u : Unit}

theorem checkText_eq_ok {allowEmpty : Bool} : checkText value field max allowEmpty = .ok u ↔
      (allowEmpty = true ∨ blank value = false) ∧ Fits value max := by
  unfold checkText
  rw [refuseIf_eq_ok]
  unfold textRefused
  rw [Bool.not_eq_true, Bool.or_eq_false_iff, Bool.or_eq_false_iff, decide_eq_false_iff_not,
    not_lt, List.any_eq_false]
  constructor
  · rintro ⟨⟨empty, size⟩, chars⟩
    refine ⟨?_, size, fun nul => chars _ nul (by decide)⟩
    cases allowEmpty with
    | true => exact .inl rfl
    | false => exact .inr (by simpa using empty)
  · rintro ⟨empty, size, chars⟩
    refine ⟨⟨?_, size⟩, fun c member here => chars (beq_iff_eq.mp here ▸ member)⟩
    rcases empty with rfl | full
    · rfl
    · rw [full, Bool.and_false]

theorem checkText_of_full (full : blank value = false) :
    checkText value field max false = .ok u ↔ Fits value max := by
  rw [checkText_eq_ok]
  exact and_iff_right (.inr full)

theorem checkText_allowEmpty : checkText value field max true = .ok u ↔ Fits value max := by
  rw [checkText_eq_ok]
  exact and_iff_right (.inl rfl)

theorem checkOptionalText_eq_ok {value : Option String} :
    checkOptionalText value field = .ok u ↔ ∀ text ∈ value, Fits text maxTextBytes := by
  cases value with
  | none => simp [checkOptionalText]
  | some text => simpa [checkOptionalText] using checkText_allowEmpty

theorem checkDistinctTexts_eq_ok {seen values : List String} :
    checkDistinctTexts field seen values = .ok u ↔
      (∀ value ∈ values, blank value = false ∧ Fits value maxTextBytes) ∧ values.Nodup ∧
        ∀ value ∈ values, value ∉ seen := by
  induction values generalizing seen with
  | nil => simp [checkDistinctTexts]
  | cons value rest ih =>
    rw [checkDistinctTexts, bind_eq_ok]
    simp only [bind_eq_ok, refuseIf_eq_ok, checkText_eq_ok, ih, List.forall_mem_cons,
      List.nodup_cons]
    constructor
    · rintro ⟨-, ⟨full, fits⟩, -, unseen, good, distinct, apart⟩
      exact ⟨⟨⟨full.resolve_left (by decide), fits⟩, good⟩,
        ⟨fun here => apart value here List.mem_cons_self, distinct⟩, unseen,
        fun other member here => apart other member (List.mem_cons_of_mem _ here)⟩
    · rintro ⟨⟨⟨full, fits⟩, good⟩, ⟨absent, distinct⟩, unseen, apart⟩
      refine ⟨⟨⟩, ⟨.inr full, fits⟩, ⟨⟩, unseen, good, distinct, fun other member here => ?_⟩
      rcases List.mem_cons.mp here with rfl | before
      · exact absent member
      · exact apart other member before

theorem checkTextList_eq_ok {values : List String} :
    checkTextList field values = .ok u ↔ ListFits values := by
  rw [checkTextList, bind_eq_ok]
  simp only [refuseIf_eq_ok, checkDistinctTexts_eq_ok, not_lt]
  constructor
  · rintro ⟨-, length, items, distinct, -⟩
    exact ⟨length, distinct, items⟩
  · rintro ⟨length, distinct, items⟩
    exact ⟨⟨⟩, length, items, distinct, fun _ _ => List.not_mem_nil⟩

theorem checkObservationValues_eq_ok {u : Unit} {values : ObservationValues}
    (full : blank values.content = false) :
    checkObservationValues values = .ok u ↔ ValuesFit values := by
  unfold checkObservationValues
  simp only [bind_eq_ok, refuseIf_eq_ok, checkText_of_full full, checkText_allowEmpty,
    checkOptionalText_eq_ok, checkTextList_eq_ok, Bool.not_eq_true]
  constructor
  · rintro ⟨-, content, -, source, -, title, -, summary, -, kind, -, confidence, -, importance, -,
      validity, -, concepts, files⟩
    exact ⟨content, source, title, summary, kind, confidence, importance, validity, concepts, files⟩
  · intro fits
    exact ⟨⟨⟩, fits.content, ⟨⟩, fits.source, ⟨⟩, fits.title, ⟨⟩, fits.summary, ⟨⟩,
      fits.sourceKind, ⟨⟩, fits.confidence, ⟨⟩, fits.importance, ⟨⟩, fits.validity, ⟨⟩,
      fits.concepts, fits.sourceFiles⟩

theorem checkRelation_eq_ok {relation : RelationInput}
    (full : blank relation.relationType = false ∧ blank relation.targetName = false) :
    checkRelation relation = .ok u ↔ RelationFits relation := by
  unfold checkRelation
  simp only [bind_eq_ok, refuseIf_eq_ok, checkText_of_full full.1, checkText_of_full full.2,
    checkText_allowEmpty, Bool.not_eq_true, Bool.or_eq_false_iff, Bool.not_eq_false']
  constructor
  · rintro ⟨-, kind, -, target, -, source, weight⟩
    exact ⟨kind, target, source, weight⟩
  · intro fits
    exact ⟨⟨⟩, fits.relationType, ⟨⟩, fits.targetName, ⟨⟩, fits.source, fits.weight⟩

/-- A text that must not be blank. -/
theorem checkText_strict :
    checkText value field max false = .ok u ↔ blank value = false ∧ Fits value max := by
  rw [checkText_eq_ok]
  simp

theorem content_of_checkObservationValues {values : ObservationValues}
    (checked : checkObservationValues values = .ok u) : blank values.content = false := by
  unfold checkObservationValues at checked
  obtain ⟨_, content, _⟩ := bind_eq_ok.mp checked
  exact (checkText_strict.mp content).1

theorem validateOperation_update {observation : Observation} {version : UInt64}
    {revision : Option SizedText} :
    validateOperation (.updateObservation observation version revision) = .ok () ↔
      (blank observation.id = false ∧ Fits observation.id maxTextBytes) ∧
      (blank observation.entityId = false ∧ Fits observation.entityId maxTextBytes) ∧
      blank observation.content = false ∧ ValuesFit observation.values := by
  have checks : validateOperation (.updateObservation observation version revision) =
      (checkText observation.id "observation id" maxTextBytes false >>= fun _ =>
        checkText observation.entityId "observation entity id" maxTextBytes false >>= fun _ =>
          checkObservationValues observation.values) := rfl
  rw [checks, bind_eq_ok]
  simp only [bind_eq_ok, checkText_strict]
  constructor
  · rintro ⟨-, named, -, entity, values⟩
    have content := content_of_checkObservationValues values
    exact ⟨named, entity, content, (@checkObservationValues_eq_ok ⟨⟩ observation.values content).mp values⟩
  · rintro ⟨named, entity, content, values⟩
    exact ⟨⟨⟩, named, ⟨⟩, entity, (@checkObservationValues_eq_ok ⟨⟩ observation.values content).mpr values⟩

theorem validateOperation_retire {id : String} {version : UInt64} :
    validateOperation (.retireObservation id version) = .ok () ↔
      blank id = false ∧ Fits id maxTextBytes := checkText_strict

/-- **Several operations**: each is valid, and no two are about the same head. -/
theorem checkOperations_eq_ok {seen : List (ObjectKind × String)}
    {operations : List ChangeOperation} : checkOperations seen operations = .ok u ↔
      (∀ operation ∈ operations, validateOperation operation = .ok ()) ∧
      (operations.map fun operation => (operation.objectKind, operation.logicalId)).Nodup ∧
      ∀ operation ∈ operations, (operation.objectKind, operation.logicalId) ∉ seen := by
  induction operations generalizing seen with
  | nil => simp [checkOperations]
  | cons operation rest ih =>
    rw [checkOperations, bind_eq_ok]
    simp only [bind_eq_ok, refuseIf_eq_ok, ih, List.forall_mem_cons, List.map_cons, List.nodup_cons]
    constructor
    · rintro ⟨_, valid, -, unseen, good, distinct, apart⟩
      refine ⟨⟨valid, good⟩, ⟨fun here => ?_, distinct⟩, unseen,
        fun other member here => apart other member (List.mem_cons_of_mem _ here)⟩
      obtain ⟨other, member, same⟩ := List.mem_map.mp here
      exact apart other member (same ▸ List.mem_cons_self)
    · rintro ⟨⟨valid, good⟩, ⟨absent, distinct⟩, unseen, apart⟩
      refine ⟨⟨⟩, valid, ⟨⟩, unseen, good, distinct, fun other member here => ?_⟩
      rcases List.mem_cons.mp here with same | before
      · exact absent (List.mem_map.mpr ⟨other, member, same⟩)
      · exact apart other member before

/-- A text of a draft that is neither empty nor too long, and has no control
characters. -/
def DraftTextFits (value : String) : Prop := value ≠ "" ∧ boundedTextRefused value = false

instance (value : String) : Decidable (DraftTextFits value) :=
  inferInstanceAs (Decidable (_ ∧ _))

/-- What the audit layer asks of a list of operations, beside that each is valid. -/
structure CountsFit [PayloadCodec] (operations : List ChangeOperation) : Prop where
  some : operations ≠ []
  count : operations.length ≤ maxOperationCount
  payload : (payloadText operations).utf8ByteSize ≤ defaultMaxPayloadBytes

/-- **A draft**: its own texts fit, and so do its operations. -/
theorem validateDraft_eq_ok [PayloadCodec] {draft : ChangeSetDraft} : validateDraft draft = .ok u ↔
      (draft.idempotencyKey ≠ "" ∧ draft.idempotencyKey.utf8ByteSize ≤ maxIdempotencyBytes) ∧
      (DraftTextFits draft.actorId ∧ DraftTextFits draft.reason ∧ DraftTextFits draft.source) ∧
      CountsFit draft.operations ∧ checkOperations [] draft.operations = .ok u := by
  have limits : defaultMaxPayloadBytes ≤ maxPayloadBytes := by decide
  have text : ∀ value : String, ¬ (value = "" ∨ boundedTextRefused value = true) ↔
      DraftTextFits value := fun value => by
    rw [not_or, Bool.not_eq_true]
    exact Iff.rfl
  unfold validateDraft
  simp only [bind_eq_ok, refuseIf_eq_ok, forM_eq_ok, List.forall_mem_cons, not_lt, text]
  rw [not_or, not_or, not_lt, not_lt]
  constructor
  · rintro ⟨-, key, -, ⟨actor, reason, source, -⟩, -, ⟨some, count⟩, -, -, -, payload, valid⟩
    exact ⟨key, ⟨actor, reason, source⟩, ⟨some, count, payload⟩, valid⟩
  · rintro ⟨key, ⟨actor, reason, source⟩, ⟨some, count, payload⟩, valid⟩
    exact ⟨⟨⟩, key, ⟨⟩, ⟨actor, reason, source, fun _ => nofun⟩, ⟨⟩, ⟨some, count⟩, ⟨⟩,
      payload.trans limits, ⟨⟩, payload, valid⟩

end OpenMemory.Graph
