import OpenMemory.Merge.Guarantees.Completeness

/-!
# What the analysis of a pair rests on

The findings about a pair are described item by item (`mem_evidence`). The resolution is read
off the kinds of the items: a lineage or a verified match proves sameness, a verified conflict
proves a difference. Both depend on trusted facts only: lineages, kinds, and the identifiers
that are verified in an authoritative namespace.

The items of the reversed pair are those of the pair with their sides exchanged, but for the
item about aliases: it looks for a shared name that is not the label of the left entity. So
the two directions differ exactly when the labels differ and the only name the two entities
share is one of the labels (`analysis_rests_on_trusted_facts`).
-/

namespace OpenMemory.Merge

open Foundation Canonical

/-- A loop whose rounds each bring about something brings it about in one of its rounds. -/
theorem foldl_iff {α β : Type} {step : β → α → β} (found : β → Prop) {finds : α → Prop}
    (round : ∀ before a, found (step before a) ↔ finds a ∨ found before) (rounds : List α)
    (start : β) : found (rounds.foldl step start) ↔ (∃ a ∈ rounds, finds a) ∨ found start := by
  induction rounds generalizing start with
  | nil => simp
  | cons first rest ih =>
    rw [List.foldl_cons, ih, round]
    simp only [List.exists_mem_cons_iff]
    exact or_left_comm.trans or_assoc.symm

/-- An item seen from the other side. -/
def EvidenceItem.exchanged (item : EvidenceItem) : EvidenceItem :=
  { item with left := item.right, right := item.left }

/-! ## Identifiers -/

variable {item : EvidenceItem}

section Identifiers

variable {policy : IdentityPolicy} {compatibility : KindCompatibility}
  {leftSnapshot rightSnapshot : SnapshotId} {leftId rightId : IdentifierAssertion}
  {findings : Findings}

/-- What the comparison of two identifiers notes. -/
def identifierEvidence (policy : IdentityPolicy) (compatibility : KindCompatibility)
    (leftSnapshot rightSnapshot : SnapshotId) (leftId rightId : IdentifierAssertion) :
    Option EvidenceItem :=
  if leftId.namespaceName ≠ rightId.namespaceName then none
  else if CandidateIndex.isCurrent policy leftSnapshot leftId = true ∧
      CandidateIndex.isCurrent policy rightSnapshot rightId = true then
    if leftId.value = rightId.value then
      if compatibility = .compatible then
        some ⟨.verifiedIdentifierMatch, some leftId.namespaceName, leftId.value, rightId.value⟩
      else none
    else
      some ⟨.verifiedIdentifierConflict, some leftId.namespaceName, leftId.value, rightId.value⟩
  else if leftId.value = rightId.value then
    some ⟨.claimedIdentifier, some leftId.namespaceName, leftId.value, rightId.value⟩
  else none

theorem identifierEvidence_exchanged :
    identifierEvidence policy compatibility rightSnapshot leftSnapshot rightId leftId =
      (identifierEvidence policy compatibility leftSnapshot rightSnapshot leftId rightId).map
        EvidenceItem.exchanged := by
  unfold identifierEvidence
  by_cases names : leftId.namespaceName = rightId.namespaceName
  · rw [if_neg (not_not.mpr names), if_neg (not_not.mpr names.symm), names]
    simp only [and_comm, eq_comm]
    split_ifs <;> rfl
  · rw [if_pos names, if_pos (Ne.symm names)]
    rfl

/-- What one comparison adds to the findings. -/
structure Records (before after : Findings) (noted : Option EvidenceItem) : Prop where
  evidence : ∀ item, item ∈ after.evidence ↔ noted = some item ∨ item ∈ before.evidence
  same : after.provesSame = true ↔
    (∃ item, noted = some item ∧ item.kind = .verifiedIdentifierMatch) ∨ before.provesSame = true
  different : after.provesDifferent = true ↔
    (∃ item, noted = some item ∧ item.kind = .verifiedIdentifierConflict) ∨
      before.provesDifferent = true

theorem Records.nothing {after : Findings} (evidence : after.evidence = findings.evidence)
    (same : after.provesSame = findings.provesSame)
    (different : after.provesDifferent = findings.provesDifferent) :
    Records findings after none := by
  constructor <;> simp [evidence, same, different]

theorem Records.note {after : Findings} (item : EvidenceItem)
    (evidence : after.evidence = insert item findings.evidence)
    (same : after.provesSame =
      (decide (item.kind = .verifiedIdentifierMatch) || findings.provesSame))
    (different : after.provesDifferent =
      (decide (item.kind = .verifiedIdentifierConflict) || findings.provesDifferent)) :
    Records findings after (some item) := by
  constructor
  · intro other
    rw [evidence, Finset.mem_insert, Option.some_inj, eq_comm]
  · simp [same]
  · simp [different]

/-- **One comparison** of the nested loops records what it notes. -/
theorem weighIdentifiers_records : Records findings
    (weighIdentifiers policy compatibility leftSnapshot rightSnapshot leftId findings rightId)
    (identifierEvidence policy compatibility leftSnapshot rightSnapshot leftId rightId) := by
  unfold weighIdentifiers identifierEvidence
  by_cases names : leftId.namespaceName = rightId.namespaceName
  · rw [if_neg (not_not.mpr names), if_neg (not_not.mpr names)]
    unfold CandidateIndex.isCurrent
    rw [← names]
    cases policy.resolverGeneration leftId.namespaceName with
    | none =>
      simp only [Bool.false_eq_true, false_and, if_false]
      split
      · exact .note _ rfl rfl rfl
      · exact .nothing rfl rfl rfl
    | some required =>
      dsimp only
      split
      · by_cases values : leftId.value = rightId.value
        · by_cases kinds : compatibility = .compatible
          · rw [if_pos ⟨values, kinds⟩, if_pos values, if_pos kinds]
            exact .note _ rfl rfl rfl
          · rw [if_neg fun both => kinds both.2, if_neg (not_not.mpr values), if_pos values,
              if_neg kinds]
            exact .nothing rfl rfl rfl
        · rw [if_neg fun both => values both.1, if_pos values, if_neg values]
          exact .note _ rfl rfl rfl
      · split
        · exact .note _ rfl rfl rfl
        · exact .nothing rfl rfl rfl
  · rw [if_pos names, if_pos names]
    exact .nothing rfl rfl rfl

/-- The nested loops bring about what one of their comparisons brings about. -/
theorem weighed_iff (found : Findings → Prop)
    {finds : IdentifierAssertion → IdentifierAssertion → Prop}
    (round : ∀ leftId findings rightId, found (weighIdentifiers policy compatibility leftSnapshot
      rightSnapshot leftId findings rightId) ↔ finds leftId rightId ∨ found findings)
    (lefts rights : Finset IdentifierAssertion) (start : Findings) :
    found ((ascending lefts).foldl (fun findings leftId => (ascending rights).foldl
      (weighIdentifiers policy compatibility leftSnapshot rightSnapshot leftId) findings) start) ↔
      (∃ leftId ∈ lefts, ∃ rightId ∈ rights, finds leftId rightId) ∨ found start := by
  refine (foldl_iff found (fun before leftId =>
    foldl_iff found (round leftId) (ascending rights) before) _ _).trans ?_
  simp only [mem_ascending]

/-- The kinds of what a comparison notes. -/
theorem kind_of_identifierEvidence {item : EvidenceItem}
    (noted : identifierEvidence policy compatibility leftSnapshot rightSnapshot leftId rightId =
      some item) :
    item.kind = .verifiedIdentifierMatch ∨ item.kind = .verifiedIdentifierConflict ∨
      item.kind = .claimedIdentifier := by
  unfold identifierEvidence at noted
  split_ifs at noted <;> cases noted <;> simp

/-- A verified match is an identifier verified on both sides, under compatible kinds. -/
theorem identifierEvidence_match_iff :
    (∃ item, identifierEvidence policy compatibility leftSnapshot rightSnapshot leftId rightId =
        some item ∧ item.kind = .verifiedIdentifierMatch) ↔
      leftId.namespaceName = rightId.namespaceName ∧ leftId.value = rightId.value ∧
        CandidateIndex.isCurrent policy leftSnapshot leftId = true ∧
        CandidateIndex.isCurrent policy rightSnapshot rightId = true ∧
        compatibility = .compatible := by
  unfold identifierEvidence
  split_ifs with names verified values kinds values
  · simp [names]
  · simp [not_not.mp names, verified, values, kinds]
  · simp [kinds]
  · simp [values]
  · simp_all
  · simp [values]

/-- A verified conflict is two verified identifiers of one namespace with different values. -/
theorem identifierEvidence_conflict_iff :
    (∃ item, identifierEvidence policy compatibility leftSnapshot rightSnapshot leftId rightId =
        some item ∧ item.kind = .verifiedIdentifierConflict) ↔
      leftId.namespaceName = rightId.namespaceName ∧ leftId.value ≠ rightId.value ∧
        CandidateIndex.isCurrent policy leftSnapshot leftId = true ∧
        CandidateIndex.isCurrent policy rightSnapshot rightId = true := by
  unfold identifierEvidence
  split_ifs with names verified values kinds values
  · simp [names]
  · simp [values]
  · simp [values]
  · simp [not_not.mp names, verified, values]
  · simp [values]
  · simp_all

end Identifiers

/-! ## The items of a pair -/

section Items

variable [CaseMapping] {policy : IdentityPolicy} {left right : EntityRecord}
  {leftSnapshot rightSnapshot : SnapshotId}

/-- A shared name that is not the label of the left entity. -/
def AliasSeen (left right : EntityRecord) : Prop :=
  ∃ name ∈ normalizedNames left ∩ normalizedNames right, name ≠ normalizeLabel left.label

/-- What is noted about the pair, item by item. -/
def Notes (policy : IdentityPolicy) (left : EntityRecord) (leftSnapshot : SnapshotId)
    (right : EntityRecord) (rightSnapshot : SnapshotId) (item : EvidenceItem) : Prop :=
  (AliasSeen left right ∧ item = ⟨.aliasName, none, left.label, right.label⟩) ∨
  (normalizeLabel left.label = normalizeLabel right.label ∧
    item = ⟨.exactLabel, none, normalizeLabel left.label, normalizeLabel right.label⟩) ∨
  (∃ leftId ∈ left.identifiers, ∃ rightId ∈ right.identifiers,
    identifierEvidence policy (policy.kindCompatibility left.kind right.kind) leftSnapshot
      rightSnapshot leftId rightId = some item) ∨
  (policy.kindCompatibility left.kind right.kind = .incompatible ∧
    item = ⟨.kindIncompatible, none, left.kind.getD "", right.kind.getD ""⟩) ∨
  (∃ lineage, left.lineage = some lineage ∧ right.lineage = some lineage ∧
    item = ⟨.lineage, none, lineage, lineage⟩)

instance (left right : EntityRecord) : Decidable (AliasSeen left right) :=
  inferInstanceAs (Decidable (∃ name ∈ _, _))

theorem mem_weighNames {findings : Findings} : item ∈ (weighNames left right findings).evidence ↔
      (AliasSeen left right ∧ item = ⟨.aliasName, none, left.label, right.label⟩) ∨
      (normalizeLabel left.label = normalizeLabel right.label ∧
        item = ⟨.exactLabel, none, normalizeLabel left.label, normalizeLabel right.label⟩) ∨
      item ∈ findings.evidence := by
  unfold weighNames
  dsimp only
  change item ∈ Findings.evidence (if AliasSeen left right then _ else _) ↔ _
  by_cases seen : AliasSeen left right
  · rw [if_pos seen, Findings.note, Finset.mem_insert]
    refine or_congr ⟨fun same => ⟨seen, same⟩, And.right⟩ ?_
    split <;> rename_i same
    · rw [Findings.note, Finset.mem_insert]
      exact or_congr ⟨fun exact_ => ⟨same, exact_⟩, And.right⟩ Iff.rfl
    · exact ⟨.inr, fun noted => noted.resolve_left fun both => same both.1⟩
  · rw [if_neg seen]
    refine Iff.trans ?_ ⟨.inr, fun noted => noted.resolve_left fun both => seen both.1⟩
    split <;> rename_i same
    · rw [Findings.note, Finset.mem_insert]
      exact or_congr ⟨fun exact_ => ⟨same, exact_⟩, And.right⟩ Iff.rfl
    · exact ⟨.inr, fun noted => noted.resolve_left fun both => same both.1⟩

omit [CaseMapping] in
theorem mem_weighKinds {compatibility : KindCompatibility} {findings : Findings}
    : item ∈ (weighKinds compatibility left right findings).evidence ↔
      (compatibility = .incompatible ∧
        item = ⟨.kindIncompatible, none, left.kind.getD "", right.kind.getD ""⟩) ∨
      item ∈ findings.evidence := by
  unfold weighKinds
  split <;> rename_i kinds <;>
    simp only [kinds, Findings.note, Finset.mem_insert, true_and, false_and, false_or]

omit [CaseMapping] in
theorem mem_weighLineage : item ∈ (weighLineage left right ⟨∅, false, false, ∅⟩).evidence ↔
      ∃ lineage, left.lineage = some lineage ∧ right.lineage = some lineage ∧
        item = ⟨.lineage, none, lineage, lineage⟩ := by
  unfold weighLineage
  cases left.lineage with
  | none => simp
  | some own =>
    cases right.lineage with
    | none => simp
    | some other =>
      dsimp only
      split
      · rename_i same
        subst same
        simp [Findings.note]
      · rename_i apart
        simp only [Finset.notMem_empty, Option.some.injEq, false_iff, not_exists]
        rintro lineage ⟨rfl, same, _⟩
        exact apart same.symm

theorem mem_evidence {item : EvidenceItem} :
    item ∈ (examinePair left leftSnapshot right rightSnapshot policy).evidence ↔
      Notes policy left leftSnapshot right rightSnapshot item := by
  unfold examinePair Notes
  rw [mem_weighNames]
  refine or_congr Iff.rfl (or_congr Iff.rfl ?_)
  refine (weighed_iff (fun findings => item ∈ findings.evidence)
    (fun _ _ _ => weighIdentifiers_records.evidence item) _ _ _).trans ?_
  rw [mem_weighKinds, mem_weighLineage]

/-- Two identifiers of one namespace are verified with different values. -/
def DiffersVerified (policy : IdentityPolicy) (left : EntityRecord) (leftSnapshot : SnapshotId)
    (right : EntityRecord) (rightSnapshot : SnapshotId) : Prop :=
  ∃ leftId ∈ left.identifiers, ∃ rightId ∈ right.identifiers,
    leftId.namespaceName = rightId.namespaceName ∧ leftId.value ≠ rightId.value ∧
      CandidateIndex.isCurrent policy leftSnapshot leftId = true ∧
      CandidateIndex.isCurrent policy rightSnapshot rightId = true

omit [CaseMapping] in
theorem weighLineage_proves :
    ((weighLineage left right ⟨∅, false, false, ∅⟩).provesSame = true ↔ SharesLineage left right) ∧
    (weighLineage left right ⟨∅, false, false, ∅⟩).provesDifferent = false := by
  unfold weighLineage SharesLineage
  cases left.lineage with
  | none => simp
  | some own =>
    cases right.lineage with
    | none => simp
    | some other =>
      dsimp only
      split
      · rename_i same
        subst same
        simp [Findings.note]
      · rename_i apart
        simpa using Ne.symm apart

/-- **What proves sameness.** -/
theorem provesSame_iff :
    (examinePair left leftSnapshot right rightSnapshot policy).provesSame = true ↔
      (policy.kindCompatibility left.kind right.kind = .compatible ∧
        SharesVerified policy left leftSnapshot right rightSnapshot) ∨
      SharesLineage left right := by
  unfold examinePair
  rw [weighNames_provesSame]
  refine (weighed_iff (fun findings => findings.provesSame = true) (fun _ _ _ =>
    weighIdentifiers_records.same.trans (or_congr identifierEvidence_match_iff Iff.rfl))
    _ _ _).trans ?_
  rw [weighKinds_provesSame]
  refine or_congr ?_ weighLineage_proves.1
  unfold SharesVerified
  constructor
  · rintro ⟨leftId, listed, rightId, member, names, values, here, there, kinds⟩
    exact ⟨kinds, leftId, listed, rightId, member, names, values, here, there⟩
  · rintro ⟨kinds, leftId, listed, rightId, member, names, values, here, there⟩
    exact ⟨leftId, listed, rightId, member, names, values, here, there, kinds⟩

/-- **What proves a difference.** -/
theorem provesDifferent_iff :
    (examinePair left leftSnapshot right rightSnapshot policy).provesDifferent = true ↔
      DiffersVerified policy left leftSnapshot right rightSnapshot := by
  have names : ∀ findings : Findings,
      (weighNames left right findings).provesDifferent = findings.provesDifferent := by
    intro findings
    unfold weighNames
    dsimp only
    split <;> split <;> rfl
  have kinds : ∀ findings : Findings, (weighKinds (policy.kindCompatibility left.kind right.kind)
      left right findings).provesDifferent = findings.provesDifferent := by
    intro findings
    unfold weighKinds
    split <;> rfl
  unfold examinePair
  rw [names]
  refine (weighed_iff (fun findings => findings.provesDifferent = true) (fun _ _ _ =>
    weighIdentifiers_records.different.trans (or_congr identifierEvidence_conflict_iff Iff.rfl))
    _ _ _).trans ?_
  rw [kinds, weighLineage_proves.2]
  unfold DiffersVerified
  simp only [Bool.false_eq_true, or_false]

end Items

/-! ## Trusted facts -/

section Trust

variable {policy : IdentityPolicy} {left right left' right' : EntityRecord}
  {leftSnapshot rightSnapshot leftSnapshot' rightSnapshot' : SnapshotId}

/-- The identifiers of a record that a resolver has verified for the snapshot, at the policy's
resolver generation of an authoritative namespace. -/
def verifiedIdentifiers (policy : IdentityPolicy) (snapshot : SnapshotId)
    (record : EntityRecord) : Finset (String × String) :=
  (record.identifiers.filter fun id => CandidateIndex.isCurrent policy snapshot id = true).image
    fun id => (id.namespaceName, id.value)

theorem mem_verifiedIdentifiers {snapshot : SnapshotId} {record : EntityRecord}
    {name value : String} : (name, value) ∈ verifiedIdentifiers policy snapshot record ↔
      ∃ id ∈ record.identifiers, CandidateIndex.isCurrent policy snapshot id = true ∧
        id.namespaceName = name ∧ id.value = value := by
  simp only [verifiedIdentifiers, Finset.mem_image, Finset.mem_filter, Prod.mk.injEq, and_assoc]

theorem sharesVerified_iff : SharesVerified policy left leftSnapshot right rightSnapshot ↔
    ∃ name value, (name, value) ∈ verifiedIdentifiers policy leftSnapshot left ∧
      (name, value) ∈ verifiedIdentifiers policy rightSnapshot right := by
  simp only [mem_verifiedIdentifiers]
  constructor
  · rintro ⟨leftId, listed, rightId, member, names, values, here, there⟩
    exact ⟨rightId.namespaceName, rightId.value, ⟨leftId, listed, here, names, values⟩,
      rightId, member, there, rfl, rfl⟩
  · rintro ⟨name, value, ⟨leftId, listed, here, rfl, rfl⟩, rightId, member, there, names, values⟩
    exact ⟨leftId, listed, rightId, member, names.symm, values.symm, here, there⟩

theorem differsVerified_iff : DiffersVerified policy left leftSnapshot right rightSnapshot ↔
    ∃ name value other, value ≠ other ∧
      (name, value) ∈ verifiedIdentifiers policy leftSnapshot left ∧
      (name, other) ∈ verifiedIdentifiers policy rightSnapshot right := by
  simp only [mem_verifiedIdentifiers]
  constructor
  · rintro ⟨leftId, listed, rightId, member, names, values, here, there⟩
    exact ⟨rightId.namespaceName, leftId.value, rightId.value, values,
      ⟨leftId, listed, here, names, rfl⟩, rightId, member, there, rfl, rfl⟩
  · rintro ⟨name, value, other, apart, ⟨leftId, listed, here, rfl, rfl⟩, rightId, member, there,
      names, rfl⟩
    exact ⟨leftId, listed, rightId, member, names.symm, apart, here, there⟩

/-- Two records agree on the facts that are trusted. -/
structure TrustedAlike (policy : IdentityPolicy) (snapshot : SnapshotId) (record : EntityRecord)
    (snapshot' : SnapshotId) (record' : EntityRecord) : Prop where
  lineage : record.lineage = record'.lineage
  kind : record.kind = record'.kind
  verified :
    verifiedIdentifiers policy snapshot record = verifiedIdentifiers policy snapshot' record'

variable [CaseMapping]

/-- What is proved is a function of the trusted facts. -/
theorem proves_of_trusted (leftAlike : TrustedAlike policy leftSnapshot left leftSnapshot' left')
    (rightAlike : TrustedAlike policy rightSnapshot right rightSnapshot' right') :
    (examinePair left leftSnapshot right rightSnapshot policy).provesSame =
        (examinePair left' leftSnapshot' right' rightSnapshot' policy).provesSame ∧
      (examinePair left leftSnapshot right rightSnapshot policy).provesDifferent =
        (examinePair left' leftSnapshot' right' rightSnapshot' policy).provesDifferent := by
  constructor
  · rw [Bool.eq_iff_iff, provesSame_iff, provesSame_iff, sharesVerified_iff, sharesVerified_iff]
    unfold SharesLineage
    rw [leftAlike.kind, rightAlike.kind, leftAlike.verified, rightAlike.verified,
      leftAlike.lineage, rightAlike.lineage]
  · rw [Bool.eq_iff_iff, provesDifferent_iff, provesDifferent_iff, differsVerified_iff,
      differsVerified_iff, leftAlike.verified, rightAlike.verified]

/-- What is proved about the reversed pair. -/
theorem proves_exchanged :
    (examinePair right rightSnapshot left leftSnapshot policy).provesSame =
        (examinePair left leftSnapshot right rightSnapshot policy).provesSame ∧
      (examinePair right rightSnapshot left leftSnapshot policy).provesDifferent =
        (examinePair left leftSnapshot right rightSnapshot policy).provesDifferent := by
  constructor
  · rw [Bool.eq_iff_iff, provesSame_iff, provesSame_iff, sharesVerified_iff, sharesVerified_iff,
      policy.kindCompatibility_comm right.kind]
    unfold SharesLineage
    simp only [and_comm]
  · rw [Bool.eq_iff_iff, provesDifferent_iff, provesDifferent_iff, differsVerified_iff,
      differsVerified_iff]
    constructor
    · rintro ⟨name, value, other, apart, here, there⟩
      exact ⟨name, other, value, apart.symm, there, here⟩
    · rintro ⟨name, value, other, apart, here, there⟩
      exact ⟨name, other, value, apart.symm, there, here⟩

end Trust

/-! ## Aliases, and the two directions -/

section Directions

variable [CaseMapping] {policy : IdentityPolicy} {left right : EntityRecord}
  {leftSnapshot rightSnapshot : SnapshotId}

/-- The labels of the two entities differ, and one of them is the only name they share. -/
def OneLabelOnly (left right : EntityRecord) : Prop :=
  normalizeLabel left.label ≠ normalizeLabel right.label ∧
    (normalizedNames left ∩ normalizedNames right = {normalizeLabel left.label} ∨
      normalizedNames left ∩ normalizedNames right = {normalizeLabel right.label})

/-- A shared name is an alias from the left, and not from the right, where the only shared name
is the label of the right entity. -/
theorem aliasSeen_left_only (seen : AliasSeen left right) (unseen : ¬ AliasSeen right left) :
    normalizeLabel left.label ≠ normalizeLabel right.label ∧
      normalizedNames left ∩ normalizedNames right = {normalizeLabel right.label} := by
  obtain ⟨name, shared, other⟩ := seen
  have only : ∀ name ∈ normalizedNames left ∩ normalizedNames right,
      name = normalizeLabel right.label := fun name shared =>
    not_not.mp fun apart => unseen ⟨name, by rwa [Finset.inter_comm], apart⟩
  refine ⟨fun same => other ((only name shared).trans same.symm), ?_⟩
  exact Finset.eq_singleton_iff_nonempty_unique_mem.mpr ⟨⟨name, shared⟩, only⟩

/-- **The two directions** see the same of the shared names, but for one label alone. -/
theorem aliasSeen_exchanged_iff :
    (AliasSeen left right ↔ AliasSeen right left) ↔ ¬ OneLabelOnly left right := by
  constructor
  · rintro alike ⟨labels, leftOnly | rightOnly⟩
    · have seen : AliasSeen right left := by
        refine ⟨normalizeLabel left.label, ?_, labels⟩
        rw [Finset.inter_comm, leftOnly, Finset.mem_singleton]
      obtain ⟨name, shared, other⟩ := alike.mpr seen
      rw [leftOnly, Finset.mem_singleton] at shared
      exact other shared
    · have seen : AliasSeen left right := by
        refine ⟨normalizeLabel right.label, ?_, labels.symm⟩
        rw [rightOnly, Finset.mem_singleton]
      obtain ⟨name, shared, other⟩ := alike.mp seen
      rw [Finset.inter_comm, rightOnly, Finset.mem_singleton] at shared
      exact other shared
  · intro several
    constructor
    · intro seen
      refine not_not.mp fun unseen => several ?_
      obtain ⟨labels, only⟩ := aliasSeen_left_only seen unseen
      exact ⟨labels, .inr only⟩
    · intro seen
      refine not_not.mp fun unseen => several ?_
      obtain ⟨labels, only⟩ := aliasSeen_left_only seen unseen
      rw [Finset.inter_comm] at only
      exact ⟨labels.symm, .inl only⟩

/-- The notes about the reversed pair, where both directions see the same aliases. -/
theorem Notes.exchanged (aliases : AliasSeen left right → AliasSeen right left)
    (noted : Notes policy left leftSnapshot right rightSnapshot item) :
    Notes policy right rightSnapshot left leftSnapshot item.exchanged := by
  rcases noted with ⟨seen, rfl⟩ | ⟨labels, rfl⟩ | ⟨leftId, listed, rightId, member, noted⟩ |
    ⟨kinds, rfl⟩ | ⟨lineage, here, there, rfl⟩
  · exact .inl ⟨aliases seen, rfl⟩
  · exact .inr (.inl ⟨labels.symm, rfl⟩)
  · refine .inr (.inr (.inl ⟨rightId, member, leftId, listed, ?_⟩))
    rw [policy.kindCompatibility_comm, identifierEvidence_exchanged, noted]
    rfl
  · refine .inr (.inr (.inr (.inl ⟨?_, rfl⟩)))
    rw [policy.kindCompatibility_comm, kinds]
  · exact .inr (.inr (.inr (.inr ⟨lineage, there, here, rfl⟩)))

/-- The item about aliases is noted where an alias is seen. -/
theorem notes_alias_iff (kind : item.kind = .aliasName) :
    Notes policy left leftSnapshot right rightSnapshot item ↔
      AliasSeen left right ∧ item = ⟨.aliasName, none, left.label, right.label⟩ := by
  refine ⟨fun noted => ?_, .inl⟩
  rcases noted with seen | ⟨_, rfl⟩ | ⟨leftId, _, rightId, _, noted⟩ | ⟨_, rfl⟩ | ⟨_, _, _, rfl⟩
  · exact seen
  · cases kind
  · rcases kind_of_identifierEvidence noted with same | same | same <;> cases kind.symm.trans same
  · cases kind
  · cases kind

/-- The evidence about the reversed pair is the evidence with its sides exchanged, exactly
where both directions see the same aliases. -/
theorem evidence_exchanged_iff :
    (∀ item, item ∈ (examinePair left leftSnapshot right rightSnapshot policy).evidence ↔
      item.exchanged ∈ (examinePair right rightSnapshot left leftSnapshot policy).evidence) ↔
      (AliasSeen left right ↔ AliasSeen right left) := by
  simp only [mem_evidence]
  constructor
  · intro alike
    have item := alike ⟨.aliasName, none, left.label, right.label⟩
    rw [notes_alias_iff rfl, notes_alias_iff rfl] at item
    constructor
    · exact fun seen => (item.mp ⟨seen, rfl⟩).1
    · exact fun seen => (item.mpr ⟨seen, rfl⟩).1
  · intro alike item
    exact ⟨Notes.exchanged alike.mp, Notes.exchanged alike.mpr⟩

end Directions

/-! ## The analysis -/

section Analysis

variable [CaseMapping] [Blake3]

/-- The analysis of a pair rests on trusted facts, in both directions: the reversed pair is
refused alike or gives the same resolution and the evidence with its sides exchanged, and the
resolution is that of every pair with the same trusted facts. -/
structure RestsOnTrustedFacts (policy : IdentityPolicy) (left : EntityRecord)
    (leftSnapshot : SnapshotId) (right : EntityRecord) (rightSnapshot : SnapshotId) : Prop where
  refused : ∀ error, analyzePair left leftSnapshot right rightSnapshot policy = .error error ↔
    analyzePair right rightSnapshot left leftSnapshot policy = .error error
  symmetric : ∀ packet reversed,
    analyzePair left leftSnapshot right rightSnapshot policy = .ok packet →
    analyzePair right rightSnapshot left leftSnapshot policy = .ok reversed →
      packet.resolution = reversed.resolution ∧
        ∀ item, item ∈ packet.evidence ↔ item.exchanged ∈ reversed.evidence
  trusted : ∀ left' leftSnapshot' right' rightSnapshot' packet other,
    TrustedAlike policy leftSnapshot left leftSnapshot' left' →
    TrustedAlike policy rightSnapshot right rightSnapshot' right' →
    analyzePair left leftSnapshot right rightSnapshot policy = .ok packet →
    analyzePair left' leftSnapshot' right' rightSnapshot' policy = .ok other →
      packet.resolution = other.resolution

variable {policy : IdentityPolicy} {left right : EntityRecord}
  {leftSnapshot rightSnapshot : SnapshotId}

theorem analyzePair_same_address (same : left.address = right.address) :
    analyzePair left leftSnapshot right rightSnapshot policy =
      .error ⟨.invalidInput, "identity packet requires two distinct entity addresses"⟩ := by
  unfold analyzePair refuseIf
  rw [if_pos same]
  rfl

theorem analyzePair_apart (policy : IdentityPolicy) (leftSnapshot rightSnapshot : SnapshotId)
    (apart : left.address ≠ right.address) : ∃ packet,
    analyzePair left leftSnapshot right rightSnapshot policy = .ok packet := by
  unfold analyzePair refuseIf
  rw [if_neg apart]
  exact ⟨_, rfl⟩

/-- What a packet says is read off the findings. -/
theorem analyzePair_findings {packet : IdentityPacket}
    (analysed : analyzePair left leftSnapshot right rightSnapshot policy = .ok packet) :
    packet.resolution = resolutionOf
        (examinePair left leftSnapshot right rightSnapshot policy).provesSame
        (examinePair left leftSnapshot right rightSnapshot policy).provesDifferent ∧
      ∀ item, item ∈ packet.evidence ↔
        item ∈ (examinePair left leftSnapshot right rightSnapshot policy).evidence := by
  simp only [analyzePair, bind_eq_ok, refuseIf_eq_ok, pure_eq_ok] at analysed
  obtain ⟨_, _, rfl⟩ := analysed
  exact ⟨rfl, fun item => mem_ascending⟩

/-- **The analysis of a pair rests on trusted facts** exactly where it is refused, or the
entities do not share one label alone. -/
theorem analysis_rests_on_trusted_facts (policy : IdentityPolicy) (left : EntityRecord)
    (leftSnapshot : SnapshotId) (right : EntityRecord) (rightSnapshot : SnapshotId) :
    RestsOnTrustedFacts policy left leftSnapshot right rightSnapshot ↔
      (left.address = right.address ∨ ¬ OneLabelOnly left right) := by
  constructor
  · rintro rests
    refine or_iff_not_imp_left.mpr fun apart => ?_
    obtain ⟨packet, analysed⟩ := analyzePair_apart policy leftSnapshot rightSnapshot apart
    obtain ⟨reversed, turned⟩ := analyzePair_apart policy rightSnapshot leftSnapshot (Ne.symm apart)
    have evidence := (rests.symmetric packet reversed analysed turned).2
    simp only [(analyzePair_findings analysed).2, (analyzePair_findings turned).2] at evidence
    exact aliasSeen_exchanged_iff.mp (evidence_exchanged_iff.mp evidence)
  · intro holds
    refine ⟨fun error => ?_, fun packet reversed analysed turned => ⟨?_, ?_⟩, ?_⟩
    · by_cases same : left.address = right.address
      · rw [analyzePair_same_address same, analyzePair_same_address same.symm]
      · obtain ⟨packet, analysed⟩ := analyzePair_apart policy leftSnapshot rightSnapshot same
        obtain ⟨reversed, turned⟩ := analyzePair_apart policy rightSnapshot leftSnapshot
          (Ne.symm same)
        rw [analysed, turned]
        exact iff_of_false (fun refused => nomatch refused) fun refused => nomatch refused
    · rw [(analyzePair_findings analysed).1, (analyzePair_findings turned).1,
        proves_exchanged.1, proves_exchanged.2]
    · rcases holds with same | several
      · rw [analyzePair_same_address same] at analysed
        cases analysed
      · simp only [(analyzePair_findings analysed).2, (analyzePair_findings turned).2]
        exact evidence_exchanged_iff.mpr (aliasSeen_exchanged_iff.mpr several)
    · intro left' leftSnapshot' right' rightSnapshot' packet other leftAlike rightAlike analysed
        again
      rw [(analyzePair_findings analysed).1, (analyzePair_findings again).1,
        (proves_of_trusted leftAlike rightAlike).1, (proves_of_trusted leftAlike rightAlike).2]

end Analysis

/-! ## A label that is an alias -/

section Example

open Fixture

/-- Someone known by a nickname. -/
def labelledBob : EntityRecord :=
  unwrap (entity (space 1) "bob" 30 "Bob" "person") (by decide +kernel)

/-- Someone with the nickname among the aliases. -/
def aliasedBob : EntityRecord :=
  unwrap (do (← entity (space 2) "robert" 31 "Robert" "person").withAliases ["Bob"])
    (by decide +kernel)

/-- **The alias that is seen from one side**: the label of the one entity is an alias of the
other. -/
theorem alias_seen_from_one_side : ¬ RestsOnTrustedFacts samplePolicy labelledBob (snapshotId 20)
    aliasedBob (snapshotId 21) := by
  intro rests
  have apart : labelledBob.address ≠ aliasedBob.address := by decide +kernel
  obtain ⟨packet, analysed⟩ := analyzePair_apart samplePolicy (snapshotId 20) (snapshotId 21) apart
  obtain ⟨reversed, turned⟩ := analyzePair_apart samplePolicy (snapshotId 21) (snapshotId 20)
    (Ne.symm apart)
  have evidence := (rests.symmetric packet reversed analysed turned).2
  simp only [(analyzePair_findings analysed).2, (analyzePair_findings turned).2] at evidence
  have seen : AliasSeen aliasedBob labelledBob := ⟨"bob", by decide +kernel, by decide +kernel⟩
  obtain ⟨name, shared, other⟩ := (evidence_exchanged_iff.mp evidence).mpr seen
  have only : normalizedNames labelledBob = {"bob"} := by decide +kernel
  have label : normalizeLabel labelledBob.label = "bob" := by decide +kernel
  rw [only] at shared
  rw [label] at other
  exact other (Finset.mem_singleton.mp (Finset.mem_inter.mp shared).1)

end Example

end OpenMemory.Merge
