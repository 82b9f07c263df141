import OpenMemory.Merge.Model

/-!
# The canonical encoding of records

Each encoder lists the fields a hasher absorbs, in order. Every encoder is
self-delimiting: no field boundary, optional field, variant tag or count can be
shifted to make two different values look the same. Sets and maps are written
in increasing order after their size, and the bounds the record types carry
keep every length within its 64-bit frame.
-/

namespace OpenMemory.Merge

open Foundation Canonical

def encodeAddress (value : ObjectAddress) : Bytes :=
  idText value.space ++ text value.logicalId.value

def encodeResultId : ResultObjectId → Bytes
  | .target value => u16 1 ++ text value.value
  | .qualified value => u16 2 ++ text value.value

def encodeOrigin (value : OriginContribution) : Bytes :=
  encodeAddress value.origin ++ idText value.revision

def encodeTrust : AssertionTrust → Bytes
  | .claimed => u16 1
  | .sourceVerified sourceSnapshot verifierVersion resolverGeneration =>
    u16 2 ++ (idText sourceSnapshot ++ (text verifierVersion ++ u64 resolverGeneration.toNat))

def encodeIdentifier (value : IdentifierAssertion) : Bytes :=
  text value.namespaceName ++ (text value.value ++ encodeTrust value.trust)

def encodeProperty (value : String × String) : Bytes := text value.1 ++ text value.2

/-- A set of origins, after its size. -/
def encodeOrigins (origins : Finset OriginContribution) : Bytes :=
  counted encodeOrigin (ascending origins)

def encodeEntity (value : EntityRecord) : Bytes :=
  encodeAddress value.address ++ (idText value.revision ++ (u16 value.lifecycle.toNat ++
    (text value.label ++ (optionalText value.kind ++ (optionalText value.lineage ++
      (counted text (ascending value.aliases) ++
        (counted encodeIdentifier (ascending value.identifiers) ++
          (counted encodeProperty value.properties.toList ++ encodeOrigins value.origins))))))))

def encodeObservation (value : ObservationRecord) : Bytes :=
  encodeAddress value.address ++ (encodeAddress value.entity ++ (idText value.revision ++
    (u16 value.lifecycle.toNat ++ (text value.content ++ encodeOrigins value.origins))))

def encodeRelation (value : RelationRecord) : Bytes :=
  encodeAddress value.address ++ (encodeAddress value.subject ++ (text value.predicate ++
    (encodeAddress value.object ++ (idText value.revision ++ (u16 value.lifecycle.toNat ++
      encodeOrigins value.origins)))))

/-! ## Reading the parts back -/

section Parts

theorem LogicalId.short (value : LogicalId) : ShortText value.value :=
  ShortText.of_le value.size (by norm_num)

theorem QualifiedObjectId.short (value : QualifiedObjectId) : ShortText value.value :=
  ShortText.of_le value.size (by norm_num)

theorem selfDelimiting_encodeAddress : SelfDelimiting encodeAddress := by
  intro left right _ _ xs ys same
  simp only [encodeAddress, List.append_assoc] at same
  obtain ⟨space, rest⟩ := selfDelimiting_idText.read same
  obtain ⟨value, rest⟩ := selfDelimiting_text left.logicalId.short right.logicalId.short rest
  refine ⟨?_, rest⟩
  cases left
  cases right
  simp only at space
  obtain rfl := LogicalId.value_injective value
  rw [space]

theorem selfDelimiting_encodeResultId : SelfDelimiting encodeResultId := by
  rintro (left | left) (right | right) _ _ xs ys same
  all_goals
    simp only [encodeResultId, List.append_assoc] at same
    obtain ⟨tag, rest⟩ := selfDelimiting_u16 (by decide) (by decide) same
  · obtain ⟨value, tail⟩ := selfDelimiting_text left.short right.short rest
    obtain rfl := LogicalId.value_injective value
    exact ⟨rfl, tail⟩
  · cases tag
  · cases tag
  · obtain ⟨value, tail⟩ := selfDelimiting_text left.short right.short rest
    obtain rfl := QualifiedObjectId.value_injective value
    exact ⟨rfl, tail⟩

theorem selfDelimiting_encodeOrigin : SelfDelimiting encodeOrigin := by
  intro left right _ _ xs ys same
  simp only [encodeOrigin, List.append_assoc] at same
  obtain ⟨origin, rest⟩ := selfDelimiting_encodeAddress.read same
  obtain ⟨revision, rest⟩ := selfDelimiting_idText.read rest
  refine ⟨?_, rest⟩
  cases left
  cases right
  simp only at origin revision
  rw [origin, revision]

/-- The verifier version of a verified assertion fits its frame. -/
def AssertionTrust.Short (trust : AssertionTrust) : Prop :=
  ∀ snapshot version generation,
    trust = .sourceVerified snapshot version generation → ShortText version

theorem selfDelimiting_encodeTrust : SelfDelimitingOn AssertionTrust.Short encodeTrust := by
  rintro (_ | ⟨leftSnapshot, leftVersion, leftGeneration⟩)
    (_ | ⟨rightSnapshot, rightVersion, rightGeneration⟩) hl hr xs ys same
  all_goals
    simp only [encodeTrust, List.append_assoc] at same
    obtain ⟨tag, rest⟩ := selfDelimiting_u16 (by decide) (by decide) same
  · exact ⟨rfl, rest⟩
  · cases tag
  · cases tag
  · have leftShort : ShortText leftVersion := hl leftSnapshot leftVersion leftGeneration rfl
    have rightShort : ShortText rightVersion := hr rightSnapshot rightVersion rightGeneration rfl
    obtain ⟨snapshot, rest⟩ := selfDelimiting_idText.read rest
    obtain ⟨version, rest⟩ := selfDelimiting_text leftShort rightShort rest
    obtain ⟨generation, rest⟩ := selfDelimiting_u64 leftGeneration.toNat_lt
      rightGeneration.toNat_lt rest
    rw [snapshot, version, UInt64.toNat_inj.mp generation]
    exact ⟨rfl, rest⟩

private theorem shortLabel {value : String} (valid : validText value maxLabelBytes = true) :
    ShortText value := ShortText.of_le (size_of_validText valid) (by norm_num [maxLabelBytes])

private theorem shortContent {value : String} (valid : validText value maxTextBytes = true) :
    ShortText value := ShortText.of_le (size_of_validText valid) (by norm_num [maxTextBytes])

private theorem shortKind {value : String} (valid : validToken value maxKindBytes = true) :
    ShortText value := ShortText.of_le (size_of_validToken valid) (by norm_num [maxKindBytes])

private theorem shortLineage {value : String}
    (valid : validToken value maxLogicalIdBytes = true) : ShortText value :=
  ShortText.of_le (size_of_validToken valid) (by norm_num [maxLogicalIdBytes])

theorem ObservationRecord.content_short (record : ObservationRecord) : ShortText record.content :=
  shortContent record.content_valid

theorem RelationRecord.predicate_short (record : RelationRecord) : ShortText record.predicate :=
  shortKind record.predicate_valid

theorem IdentifierAssertion.trust_short (assertion : IdentifierAssertion) :
    assertion.trust.Short := fun snapshot version generation same =>
  shortKind (assertion.version_valid snapshot version generation same)

theorem selfDelimiting_encodeIdentifier : SelfDelimiting encodeIdentifier := by
  intro left right _ _ xs ys same
  simp only [encodeIdentifier, List.append_assoc] at same
  obtain ⟨namespaceName, rest⟩ := selfDelimiting_text (shortKind left.namespaceName_valid)
    (shortKind right.namespaceName_valid) same
  obtain ⟨value, rest⟩ := selfDelimiting_text (shortLabel left.value_valid)
    (shortLabel right.value_valid) rest
  obtain ⟨trust, rest⟩ := selfDelimiting_encodeTrust left.trust_short right.trust_short rest
  refine ⟨IdentifierAssertion.key_injective ?_, rest⟩
  unfold IdentifierAssertion.key
  rw [namespaceName, value, trust]

/-- A set is read back from its size and its elements in order. -/
theorem selfDelimiting_set {α : Type} [LinearOrder α] {valid : α → Prop} {encode : α → Bytes}
    (delimited : SelfDelimitingOn valid encode) :
    SelfDelimitingOn (fun s : Finset α => s.card < 2 ^ 64 ∧ ∀ a ∈ s, valid a)
      (fun s => counted encode (ascending s)) := by
  refine (selfDelimiting_counted delimited).comap ascending ?_ ?_
  · rintro s ⟨size, each⟩
    exact ⟨by rwa [length_ascending], fun a member => each a (mem_ascending.mp member)⟩
  · intro _ _ _ _ same
    exact ascending_injective same

theorem selfDelimiting_encodeOrigins : SelfDelimitingOn OriginsBounded encodeOrigins := by
  have bounded : ∀ {origins : Finset OriginContribution}, OriginsBounded origins →
      origins.card < 2 ^ 64 ∧ ∀ a ∈ origins, True :=
    fun h => ⟨Nat.lt_of_le_of_lt h.2 (by norm_num [maxOrigins]), fun _ _ => trivial⟩
  intro left right hl hr xs ys same
  exact selfDelimiting_set selfDelimiting_encodeOrigin (bounded hl) (bounded hr) same

end Parts

/-! ## Reading the records back -/

section Records

private theorem selfDelimiting_encodeProperty :
    SelfDelimitingOn (fun entry : String × String => ShortText entry.1 ∧ ShortText entry.2)
      encodeProperty := by
  intro left right hl hr xs ys same
  simp only [encodeProperty, List.append_assoc] at same
  obtain ⟨name, rest⟩ := selfDelimiting_text hl.1 hr.1 same
  obtain ⟨value, rest⟩ := selfDelimiting_text hl.2 hr.2 rest
  exact ⟨Prod.ext name value, rest⟩

private theorem EntityRecord.properties_short (record : EntityRecord) :
    record.properties.toList.length < 2 ^ 64 ∧
      ∀ entry ∈ record.properties.toList, ShortText entry.1 ∧ ShortText entry.2 := by
  constructor
  · rw [Std.ExtTreeMap.length_toList]
    exact Nat.lt_of_le_of_lt record.properties_bounded (by norm_num [maxProperties])
  · rintro ⟨name, value⟩ member
    obtain ⟨validName, validValue⟩ :=
      record.properties_valid name value (OrderedMap.mem_toList.mp member)
    exact ⟨ShortText.of_le (size_of_validToken validName) (by norm_num [maxPropertyNameBytes]),
      shortContent validValue⟩

theorem selfDelimiting_encodeEntity : SelfDelimiting encodeEntity := by
  intro left right _ _ xs ys same
  simp only [encodeEntity, List.append_assoc] at same
  obtain ⟨address, rest⟩ := selfDelimiting_encodeAddress.read same
  obtain ⟨revision, rest⟩ := selfDelimiting_idText.read rest
  obtain ⟨lifecycle, rest⟩ :=
    selfDelimiting_u16 left.lifecycle.toNat_lt right.lifecycle.toNat_lt rest
  obtain ⟨label, rest⟩ :=
    selfDelimiting_text (shortLabel left.label_valid) (shortLabel right.label_valid) rest
  obtain ⟨kind, rest⟩ :=
    selfDelimiting_optionalText (fun value member => shortKind (left.kind_valid value member))
      (fun value member => shortKind (right.kind_valid value member)) rest
  obtain ⟨lineage, rest⟩ :=
    selfDelimiting_optionalText
      (fun value member => shortLineage (left.lineage_valid value member))
      (fun value member => shortLineage (right.lineage_valid value member)) rest
  have aliasesShort : ∀ record : EntityRecord,
      record.aliases.card < 2 ^ 64 ∧ ∀ value ∈ record.aliases, ShortText value :=
    fun record => ⟨Nat.lt_of_le_of_lt record.aliases_bounded (by norm_num [maxAliases]),
      fun value member => shortLabel (record.aliases_valid value member)⟩
  obtain ⟨aliases, rest⟩ :=
    selfDelimiting_set selfDelimiting_text (aliasesShort left) (aliasesShort right) rest
  have identifiersShort : ∀ record : EntityRecord,
      record.identifiers.card < 2 ^ 64 ∧ ∀ value ∈ record.identifiers, True :=
    fun record => ⟨Nat.lt_of_le_of_lt record.identifiers_bounded (by norm_num [maxIdentifiers]),
      fun _ _ => trivial⟩
  obtain ⟨identifiers, rest⟩ :=
    selfDelimiting_set selfDelimiting_encodeIdentifier (identifiersShort left)
      (identifiersShort right) rest
  obtain ⟨entries, rest⟩ :=
    selfDelimiting_counted selfDelimiting_encodeProperty left.properties_short
      right.properties_short rest
  have properties := OrderedMap.toList_injective entries
  obtain ⟨origins, rest⟩ :=
    selfDelimiting_encodeOrigins left.origins_bounded right.origins_bounded rest
  refine ⟨?_, rest⟩
  cases left
  cases right
  simp only at address revision lifecycle label kind lineage aliases identifiers properties origins
  obtain rfl := Lifecycle.toNat_injective lifecycle
  subst address revision label kind lineage aliases identifiers properties origins
  rfl

theorem selfDelimiting_encodeObservation : SelfDelimiting encodeObservation := by
  intro left right _ _ xs ys same
  simp only [encodeObservation, List.append_assoc] at same
  obtain ⟨address, rest⟩ := selfDelimiting_encodeAddress.read same
  obtain ⟨entity, rest⟩ := selfDelimiting_encodeAddress.read rest
  obtain ⟨revision, rest⟩ := selfDelimiting_idText.read rest
  obtain ⟨lifecycle, rest⟩ :=
    selfDelimiting_u16 left.lifecycle.toNat_lt right.lifecycle.toNat_lt rest
  obtain ⟨content, rest⟩ :=
    selfDelimiting_text (shortContent left.content_valid) (shortContent right.content_valid) rest
  obtain ⟨origins, rest⟩ :=
    selfDelimiting_encodeOrigins left.origins_bounded right.origins_bounded rest
  refine ⟨?_, rest⟩
  cases left
  cases right
  simp only at address entity revision lifecycle content origins
  obtain rfl := Lifecycle.toNat_injective lifecycle
  subst address entity revision content origins
  rfl

theorem selfDelimiting_encodeRelation : SelfDelimiting encodeRelation := by
  intro left right _ _ xs ys same
  simp only [encodeRelation, List.append_assoc] at same
  obtain ⟨address, rest⟩ := selfDelimiting_encodeAddress.read same
  obtain ⟨subject, rest⟩ := selfDelimiting_encodeAddress.read rest
  obtain ⟨predicate, rest⟩ :=
    selfDelimiting_text (shortKind left.predicate_valid) (shortKind right.predicate_valid) rest
  obtain ⟨object, rest⟩ := selfDelimiting_encodeAddress.read rest
  obtain ⟨revision, rest⟩ := selfDelimiting_idText.read rest
  obtain ⟨lifecycle, rest⟩ :=
    selfDelimiting_u16 left.lifecycle.toNat_lt right.lifecycle.toNat_lt rest
  obtain ⟨origins, rest⟩ :=
    selfDelimiting_encodeOrigins left.origins_bounded right.origins_bounded rest
  refine ⟨?_, rest⟩
  cases left
  cases right
  simp only at address subject predicate object revision lifecycle origins
  obtain rfl := Lifecycle.toNat_injective lifecycle
  subst address subject predicate object revision origins
  rfl

end Records

end OpenMemory.Merge
