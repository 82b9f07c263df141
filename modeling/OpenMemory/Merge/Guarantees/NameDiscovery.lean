import OpenMemory.Merge.Guarantees.Completeness

/-!
# Which names discovery finds

Two entities of one kind may share a name in four ways, a label or an alias on either side.
Discovery looks the label of the source up among the labels of the targets, and its aliases
among their labels and their aliases. So one way is missing: a target that has the label of
the source among its aliases.

What is listed shares a lineage, a verified identifier or a name with the source
(`mem_findMatches`), and all that does is listed, but for targets whose only tie is such an
alias (`discovery_names_complete`).
-/

namespace OpenMemory.Merge

open Foundation Canonical

theorem nameKey_injective {name other : String} {kind otherKind : Option String}
    (same : nameKey name kind = nameKey other otherKind) : name = other ∧ kind = otherKind := by
  have names : name = other := congrArg (fun key => (ofLex key).1) same
  have kinds := congrArg (fun key => ofLex (ofLex key).2) same
  refine ⟨names, ?_⟩
  cases kind with
  | none =>
    cases otherKind with
    | none => rfl
    | some _ => exact absurd (congrArg Prod.fst kinds) Nat.zero_ne_one
  | some _ =>
    cases otherKind with
    | none => exact absurd (congrArg Prod.fst kinds) Nat.one_ne_zero
    | some _ => exact congrArg some (congrArg Prod.snd kinds)

variable {entities : List EntityRecord} {target : EntityRecord}

section Names

variable [CaseMapping]

/-! ## Ties -/

/-- Both entities have one name, as a label or an alias. -/
def SharesName (left right : EntityRecord) : Prop :=
  ∃ name ∈ normalizedNames left, name ∈ normalizedNames right

/-- The names of the source that discovery looks up: its label among labels, its aliases
among labels and aliases. -/
def FoundByName (target source : EntityRecord) : Prop :=
  normalizeLabel target.label = normalizeLabel source.label ∨
    ∃ alias_ ∈ source.aliases, normalizeLabel alias_ ∈ normalizedNames target

/-- The only tie of the two is the label of the source, which the target has as an alias. -/
structure OnlyAliased (policy : IdentityPolicy) (targetSnapshot sourceSnapshot : SnapshotId)
    (target source : EntityRecord) : Prop where
  kind : target.kind = source.kind
  aliased : normalizeLabel source.label ∈ target.aliases.image normalizeLabel
  lineage : ¬ SharesLineage target source
  verified : ¬ SharesVerified policy target targetSnapshot source sourceSnapshot
  named : ¬ FoundByName target source

theorem FoundByName.sharesName {source : EntityRecord} (found : FoundByName target source) :
    SharesName target source := by
  rcases found with same | ⟨alias_, member, held⟩
  · refine ⟨normalizeLabel target.label, Finset.mem_insert_self _ _, ?_⟩
    rw [same]
    exact Finset.mem_insert_self _ _
  · exact ⟨normalizeLabel alias_, held,
      Finset.mem_insert_of_mem (Finset.mem_image_of_mem normalizeLabel member)⟩

/-- A shared name is looked up, or it is the label of the source and an alias of the target. -/
theorem SharesName.found_or_aliased {source : EntityRecord} (shares : SharesName target source) :
    FoundByName target source ∨ normalizeLabel source.label ∈ target.aliases.image normalizeLabel := by
  obtain ⟨name, ofTarget, ofSource⟩ := shares
  rcases Finset.mem_insert.mp ofSource with rfl | aliasOfSource
  · rcases Finset.mem_insert.mp ofTarget with same | aliasOfTarget
    · exact .inl (.inl same.symm)
    · exact .inr aliasOfTarget
  · obtain ⟨alias_, member, rfl⟩ := Finset.mem_image.mp aliasOfSource
    exact .inl (.inr ⟨alias_, member, ofTarget⟩)

/-! ## What the index holds -/

/-- The index holds these entities and nothing else, each under its own keys. -/
structure CandidateIndex.Indexes (index : CandidateIndex) (records : List EntityRecord) : Prop where
  held : ∀ address record, index.entities[address]? = some record ↔
    record ∈ records ∧ record.address = address
  lineage : ∀ lineage address, address ∈ heldAt index.lineage lineage ↔
    ∃ record ∈ records, record.address = address ∧ record.lineage = some lineage
  verified : ∀ key address, address ∈ heldAt index.verified key ↔
    ∃ record ∈ records, record.address = address ∧ ∃ identifier ∈ record.identifiers,
      CandidateIndex.isCurrent index.policy index.targetSnapshot identifier = true ∧
        toLex (identifier.namespaceName, identifier.value) = key
  labels : ∀ key address, address ∈ heldAt index.labels key ↔
    ∃ record ∈ records, record.address = address ∧
      nameKey (normalizeLabel record.label) record.kind = key
  aliases : ∀ key address, address ∈ heldAt index.aliases key ↔
    ∃ record ∈ records, record.address = address ∧ ∃ alias_ ∈ record.aliases,
      nameKey (normalizeLabel alias_) record.kind = key

theorem addEntity_indexes {before after : CandidateIndex} {entity : EntityRecord}
    {seen : List EntityRecord} (indexes : before.Indexes seen)
    (step : before.addEntity entity = .ok after) : after.Indexes (seen ++ [entity]) := by
  simp only [CandidateIndex.addEntity, bind_eq_ok, refuseIf_eq_ok, pure_eq_ok] at step
  obtain ⟨_, fresh, rfl⟩ := step
  have added : ∀ {motive : EntityRecord → Prop}, (∃ record ∈ seen ++ [entity], motive record) ↔
      motive entity ∨ ∃ record ∈ seen, motive record := by
    intro motive
    simp only [List.mem_append, List.mem_singleton]
    constructor
    · rintro ⟨record, member | rfl, holds⟩
      · exact .inr ⟨record, member, holds⟩
      · exact .inl holds
    · rintro (holds | ⟨record, member, holds⟩)
      · exact ⟨entity, .inr rfl, holds⟩
      · exact ⟨record, .inl member, holds⟩
  refine ⟨fun address record => ?_, fun lineage address => ?_, fun key address => ?_,
    fun key address => ?_, fun key address => ?_⟩
  · exact holds_insert indexes.held (Option.not_isSome_iff_eq_none.mp fresh) address record
  · rw [added]
    dsimp only
    cases has : entity.lineage with
    | none =>
      rw [indexes.lineage]
      simp
    | some own =>
      rw [mem_heldAt_insertAt, indexes.lineage]
      refine or_congr ?_ Iff.rfl
      constructor
      · rintro ⟨rfl, rfl⟩
        exact ⟨rfl, rfl⟩
      · rintro ⟨rfl, same⟩
        exact ⟨Option.some_inj.mp same, rfl⟩
  · have round : ∀ (map : AddressIndex (String ×ₗ String)) (identifier : IdentifierAssertion)
        (key : String ×ₗ String) (address : EntityAddress),
        address ∈ heldAt (if CandidateIndex.isCurrent before.policy before.targetSnapshot
            identifier = true then insertAt map (toLex (identifier.namespaceName,
              identifier.value)) entity.address else map) key ↔
          (CandidateIndex.isCurrent before.policy before.targetSnapshot identifier = true ∧
            toLex (identifier.namespaceName, identifier.value) = key ∧ address = entity.address) ∨
          address ∈ heldAt map key := by
      intro map identifier key address
      split
      · rename_i current
        rw [mem_heldAt_insertAt]
        simp only [current, true_and]
      · rename_i stale
        simp only [stale, Bool.false_eq_true, false_and, false_or]
    rw [added]
    dsimp only
    rw [mem_heldAt_foldl round, indexes.verified]
    refine or_congr ?_ Iff.rfl
    constructor
    · rintro ⟨identifier, listed, current, same, rfl⟩
      exact ⟨rfl, identifier, mem_ascending.mp listed, current, same⟩
    · rintro ⟨rfl, identifier, member, current, same⟩
      exact ⟨identifier, mem_ascending.mpr member, current, same, rfl⟩
  · rw [added]
    dsimp only
    rw [mem_heldAt_insertAt, indexes.labels]
    refine or_congr ?_ Iff.rfl
    constructor
    · rintro ⟨same, rfl⟩
      exact ⟨rfl, same⟩
    · rintro ⟨rfl, same⟩
      exact ⟨same, rfl⟩
  · have round : ∀ (map : AddressIndex (String ×ₗ (Nat ×ₗ String))) (alias_ : String)
        (key : String ×ₗ (Nat ×ₗ String)) (address : EntityAddress),
        address ∈ heldAt (insertAt map (nameKey (normalizeLabel alias_) entity.kind)
          entity.address) key ↔
          (nameKey (normalizeLabel alias_) entity.kind = key ∧ address = entity.address) ∨
            address ∈ heldAt map key :=
      fun _ _ _ _ => mem_heldAt_insertAt
    rw [added]
    dsimp only
    rw [mem_heldAt_foldl round, indexes.aliases]
    refine or_congr ?_ Iff.rfl
    constructor
    · rintro ⟨alias_, listed, same, rfl⟩
      exact ⟨rfl, alias_, mem_ascending.mp listed, same⟩
    · rintro ⟨rfl, alias_, member, same⟩
      exact ⟨alias_, mem_ascending.mpr member, same, rfl⟩

theorem build_indexes {discoveryGeneration : UInt64} {targetSnapshot : SnapshotId}
    {policy : IdentityPolicy} {index : CandidateIndex}
    (built : CandidateIndex.build discoveryGeneration targetSnapshot policy entities = .ok index) :
    index.Indexes entities := by
  obtain ⟨_, _, run⟩ := bind_eq_ok.mp built
  refine foldlM_prefix_induction (motive := fun seen index => CandidateIndex.Indexes index seen)
    ?_ (fun seen entity before after held step => addEntity_indexes held step) run
  refine ⟨?_, ?_, ?_, ?_, ?_⟩ <;> intros <;> simp [heldAt_empty]

/-! ## What discovery finds -/

omit [CaseMapping] in
theorem heldAt_nonempty {κ α : Type} [LinearOrder κ] {map : OrderedMap κ (Finset α)} {key : κ} :
    (∃ a, a ∈ heldAt map key) ↔ ∃ held, map[key]? = some held ∧ held.Nonempty := by
  unfold heldAt
  cases map[key]? with
  | none => simp
  | some held =>
    constructor
    · rintro ⟨a, member⟩
      exact ⟨held, rfl, a, member⟩
    · rintro ⟨_, same, a, member⟩
      cases same
      exact ⟨a, member⟩

omit [CaseMapping] in
/-- Every match of the map carries a signal. -/
theorem addMatches_signals {output : OrderedMap EntityAddress (Finset CandidateSignal)}
    {matching : Option (Finset EntityAddress)} {signal : CandidateSignal}
    (carried : ∀ (address : EntityAddress) held, output[address]? = some held → held.Nonempty) :
    ∀ (address : EntityAddress) held,
      (CandidateIndex.addMatches output matching signal)[address]? = some held →
        held.Nonempty := by
  cases matching with
  | none => exact carried
  | some addresses =>
    change ∀ (address : EntityAddress) (held : Finset CandidateSignal),
      ((ascending addresses).foldl (fun output address =>
      insertAt output address signal) output)[address]? = some held → held.Nonempty
    induction ascending addresses generalizing output with
    | nil => exact carried
    | cons first rest ih =>
      refine ih fun address held found => ?_
      unfold insertAt at found
      rw [OrderedMap.get_insert] at found
      split at found
      · cases found
        exact Finset.insert_nonempty _ _
      · exact carried address held found

namespace CandidateIndex

variable {index : CandidateIndex} {source : EntityRecord} {sourceSnapshot : SnapshotId}

/-- The matches by lineage, which come first. -/
def lineageMatches (index : CandidateIndex) (lineage : Option String) :
    OrderedMap EntityAddress (Finset CandidateSignal) :=
  match lineage with
  | some lineage => addMatches ∅ index.lineage[lineage]? .lineage
  | none => ∅

theorem findMatches_eq : index.findMatches source sourceSnapshot =
    (ascending source.aliases).foldl (fun output name =>
      addMatches (addMatches output
        index.labels[nameKey (normalizeLabel name) source.kind]? .aliasName)
        index.aliases[nameKey (normalizeLabel name) source.kind]? .aliasName)
      (addMatches ((ascending source.identifiers).foldl (fun output identifier =>
        if isCurrent index.policy sourceSnapshot identifier = true then
          addMatches output index.verified[(toLex (identifier.namespaceName, identifier.value) :
            String ×ₗ String)]? .verifiedIdentifier
        else output) (lineageMatches index source.lineage))
        index.labels[nameKey (normalizeLabel source.label) source.kind]? .exactLabel) :=
  rfl

theorem findMatches_signals (address : EntityAddress) (held : Finset CandidateSignal)
    (found : (index.findMatches source sourceSnapshot)[address]? = some held) : held.Nonempty := by
  have folded : ∀ {ι : Type} (step : OrderedMap EntityAddress (Finset CandidateSignal) → ι →
      OrderedMap EntityAddress (Finset CandidateSignal)) (rounds : List ι)
      (output : OrderedMap EntityAddress (Finset CandidateSignal)),
      (∀ before i, (∀ (address : EntityAddress) held, before[address]? = some held →
        held.Nonempty) → ∀ (address : EntityAddress) held, (step before i)[address]? = some held →
          held.Nonempty) →
      (∀ (address : EntityAddress) held, output[address]? = some held → held.Nonempty) →
      ∀ (address : EntityAddress) held, (rounds.foldl step output)[address]? = some held →
        held.Nonempty := by
    intro ι step rounds output kept start
    induction rounds generalizing output with
    | nil => exact start
    | cons first rest ih => exact ih (step output first) (kept output first start)
  have start : ∀ (address : EntityAddress) (held : Finset CandidateSignal),
      (lineageMatches index source.lineage)[address]? = some held → held.Nonempty := by
    cases source.lineage with
    | none =>
      intro address held found
      rw [lineageMatches, OrderedMap.get_empty] at found
      cases found
    | some lineage =>
      refine addMatches_signals fun address held found => ?_
      rw [OrderedMap.get_empty] at found
      cases found
  rw [findMatches_eq] at found
  refine folded _ _ _ (fun before name carried => ?_) (addMatches_signals ?_) address held found
  · exact addMatches_signals (addMatches_signals carried)
  · refine folded _ _ _ (fun before identifier carried => ?_) start
    split
    · exact addMatches_signals carried
    · exact carried

/-- The two entities have something in common that discovery looks up. -/
def Ties (policy : IdentityPolicy) (targetSnapshot sourceSnapshot : SnapshotId)
    (target source : EntityRecord) : Prop :=
  SharesLineage target source ∨
    SharesVerified policy target targetSnapshot source sourceSnapshot ∨
      (target.kind = source.kind ∧ FoundByName target source)

theorem mem_findMatches (indexes : index.Indexes entities) {address : EntityAddress} :
    (∃ signal, signal ∈ heldAt (index.findMatches source sourceSnapshot) address) ↔
      ∃ target ∈ entities, target.address = address ∧
        Ties index.policy index.targetSnapshot sourceSnapshot target source := by
  -- one round of the loop over the identifiers, and one over the aliases of the source
  have identified : ∀ (output : OrderedMap EntityAddress (Finset CandidateSignal))
      (identifier : IdentifierAssertion) (address : EntityAddress) (signal : CandidateSignal),
      signal ∈ heldAt (if isCurrent index.policy sourceSnapshot identifier = true
        then addMatches output
          index.verified[(toLex (identifier.namespaceName, identifier.value) :
            String ×ₗ String)]? .verifiedIdentifier
        else output) address ↔
        (isCurrent index.policy sourceSnapshot identifier = true ∧
          address ∈ heldAt index.verified (toLex (identifier.namespaceName, identifier.value)) ∧
          signal = .verifiedIdentifier) ∨ signal ∈ heldAt output address := by
    intro output identifier address signal
    split
    · rename_i current
      rw [mem_heldAt_addMatches]
      simp only [current, true_and, heldAt]
    · rename_i stale
      simp only [stale, Bool.false_eq_true, false_and, false_or]
  have named : ∀ (output : OrderedMap EntityAddress (Finset CandidateSignal)) (alias_ : String)
      (address : EntityAddress) (signal : CandidateSignal),
      signal ∈ heldAt (addMatches (addMatches output
          index.labels[nameKey (normalizeLabel alias_) source.kind]? .aliasName)
          index.aliases[nameKey (normalizeLabel alias_) source.kind]? .aliasName) address ↔
        ((address ∈ heldAt index.labels (nameKey (normalizeLabel alias_) source.kind) ∨
          address ∈ heldAt index.aliases (nameKey (normalizeLabel alias_) source.kind)) ∧
            signal = .aliasName) ∨ signal ∈ heldAt output address := by
    intro output alias_ address signal
    rw [mem_heldAt_addMatches, mem_heldAt_addMatches, ← or_assoc, ← or_and_right]
    simp only [heldAt, or_comm]
  have start : ∀ signal, signal ∈ heldAt (lineageMatches index source.lineage) address ↔
      ∃ lineage, source.lineage = some lineage ∧ address ∈ heldAt index.lineage lineage ∧
        signal = .lineage := by
    intro signal
    cases source.lineage with
    | none => simp [lineageMatches, heldAt_empty]
    | some lineage =>
      simp only [lineageMatches, mem_heldAt_addMatches, heldAt_empty, Finset.notMem_empty, or_false,
        Option.some.injEq, exists_eq_left']
      rfl
  rw [findMatches_eq]
  simp only [mem_heldAt_foldl named, mem_heldAt_addMatches, mem_heldAt_foldl identified, start]
  constructor
  · rintro ⟨signal, ⟨alias_, listed, byLabel | byAlias, _⟩ | ⟨byLabel, _⟩ |
      ⟨identifier, listed, current, held, _⟩ | ⟨lineage, has, held, _⟩⟩
    · obtain ⟨target, member, here, key⟩ := (indexes.labels _ _).mp byLabel
      obtain ⟨same, kinds⟩ := nameKey_injective key
      exact ⟨target, member, here, .inr (.inr ⟨kinds, .inr ⟨alias_, mem_ascending.mp listed,
        same ▸ Finset.mem_insert_self _ _⟩⟩)⟩
    · obtain ⟨target, member, here, other, among, key⟩ := (indexes.aliases _ _).mp byAlias
      obtain ⟨same, kinds⟩ := nameKey_injective key
      exact ⟨target, member, here, .inr (.inr ⟨kinds, .inr ⟨alias_, mem_ascending.mp listed,
        same ▸ Finset.mem_insert_of_mem (Finset.mem_image_of_mem _ among)⟩⟩)⟩
    · obtain ⟨target, member, here, key⟩ := (indexes.labels _ _).mp byLabel
      obtain ⟨same, kinds⟩ := nameKey_injective key
      exact ⟨target, member, here, .inr (.inr ⟨kinds, .inl same⟩)⟩
    · obtain ⟨target, member, here, own, among, ownCurrent, key⟩ := (indexes.verified _ _).mp held
      have names : own.namespaceName = identifier.namespaceName :=
        congrArg (fun key => (ofLex key).1) key
      have values : own.value = identifier.value := congrArg (fun key => (ofLex key).2) key
      exact ⟨target, member, here, .inr (.inl ⟨own, among, identifier, mem_ascending.mp listed,
        names, values, ownCurrent, current⟩)⟩
    · obtain ⟨target, member, here, own⟩ := (indexes.lineage _ _).mp held
      exact ⟨target, member, here, .inl ⟨lineage, own, has⟩⟩
  · rintro ⟨target, member, here, ⟨lineage, own, has⟩ | ⟨targetId, ofTarget, sourceId, ofSource,
      names, values, targetCurrent, sourceCurrent⟩ | ⟨kinds, same | ⟨alias_, among, held⟩⟩⟩
    · exact ⟨.lineage, .inr (.inr (.inr ⟨lineage, has,
        (indexes.lineage _ _).mpr ⟨target, member, here, own⟩, rfl⟩))⟩
    · refine ⟨.verifiedIdentifier, .inr (.inr (.inl ⟨sourceId, mem_ascending.mpr ofSource,
        sourceCurrent, (indexes.verified _ _).mpr ⟨target, member, here, targetId, ofTarget,
          targetCurrent, ?_⟩, rfl⟩))⟩
      rw [names, values]
    · refine ⟨.exactLabel, .inr (.inl ⟨(indexes.labels _ _).mpr ⟨target, member, here, ?_⟩, rfl⟩)⟩
      rw [same, kinds]
    · rcases Finset.mem_insert.mp held with label | other
      · refine ⟨.aliasName, .inl ⟨alias_, mem_ascending.mpr among,
          .inl ((indexes.labels _ _).mpr ⟨target, member, here, ?_⟩), rfl⟩⟩
        rw [label, kinds]
      · obtain ⟨own, ofTarget, same⟩ := Finset.mem_image.mp other
        refine ⟨.aliasName, .inl ⟨alias_, mem_ascending.mpr among,
          .inr ((indexes.aliases _ _).mpr ⟨target, member, here, own, ofTarget, ?_⟩), rfl⟩⟩
        rw [same, kinds]

/-! ## What is listed -/

variable [Blake3]

/-- Without a cut, the ranking lists exactly the ties. -/
theorem mem_rankedCandidates_iff (indexes : index.Indexes entities) :
    (target ∈ entities ∧ Ties index.policy index.targetSnapshot sourceSnapshot target source) ↔
      target ∈ entities ∧ ∃ candidate ∈ index.rankedCandidates source sourceSnapshot,
        candidate.target = target.refIn index.targetSnapshot := by
  refine and_congr_right fun member => ?_
  have found : index.entities[target.address]? = some target :=
    (indexes.held _ _).mpr ⟨member, rfl⟩
  constructor
  · intro ties
    obtain ⟨signals, present, _⟩ := heldAt_nonempty.mp
      ((mem_findMatches indexes).mpr ⟨target, member, rfl, ties⟩)
    refine ⟨IdentityCandidate.new (target.refIn index.targetSnapshot)
      (source.refIn sourceSnapshot) signals, ?_, rfl⟩
    rw [rankedCandidates, List.mem_insertionSort, List.mem_filterMap]
    refine ⟨(target.address, signals), OrderedMap.mem_toList.mpr present, ?_⟩
    rw [found, Option.map_some]
  · rintro ⟨candidate, ranked, same⟩
    rw [rankedCandidates, List.mem_insertionSort, List.mem_filterMap] at ranked
    obtain ⟨⟨address, signals⟩, listed, made⟩ := ranked
    obtain ⟨other, there, rfl⟩ := Option.map_eq_some_iff.mp made
    have present := OrderedMap.mem_toList.mp listed
    obtain ⟨tied, among, here, ties⟩ := (mem_findMatches indexes).mp
      (heldAt_nonempty.mpr ⟨signals, present, findMatches_signals address signals present⟩)
    have own : other.address = target.address := congrArg EntityRevisionRef.address same
    have stored : index.entities[address]? = some tied := (indexes.held _ _).mpr ⟨among, here⟩
    cases there.symm.trans stored
    rw [← here, own, found] at stored
    cases stored
    exact ties

theorem length_rankedCandidates :
    (index.rankedCandidates source sourceSnapshot).length ≤
      (index.findMatches source sourceSnapshot).size := by
  rw [rankedCandidates, List.length_insertionSort, ← Std.ExtTreeMap.length_toList]
  exact List.length_filterMap_le _ _

end CandidateIndex

/-- The receipt lists a revision of an entity. -/
def DiscoveryReceipt.Lists (receipt : DiscoveryReceipt) (snapshot : SnapshotId)
    (target : EntityRecord) : Prop :=
  ∃ candidate ∈ receipt.candidates, candidate.target = target.refIn snapshot

/-- A receipt lists every target of the kind of the source that has one of its names, and no
target without a name, a lineage or a verified identifier in common with it. -/
structure DiscoveryReceipt.NamesComplete (receipt : DiscoveryReceipt) (policy : IdentityPolicy)
    (targetSnapshot sourceSnapshot : SnapshotId) (entities : List EntityRecord)
    (source : EntityRecord) : Prop where
  complete : ∀ target ∈ entities, target.kind = source.kind → SharesName target source →
    receipt.Lists targetSnapshot target
  sound : ∀ candidate ∈ receipt.candidates, ∃ target ∈ entities,
    candidate.target = target.refIn targetSnapshot ∧
      ((target.kind = source.kind ∧ SharesName target source) ∨ SharesLineage target source ∨
        SharesVerified policy target targetSnapshot source sourceSnapshot)

/-- **Discovery by name is complete** exactly when no target is tied to the source only by an
alias that is the label of the source. -/
theorem discovery_names_complete [Blake3] {discoveryGeneration : UInt64}
    {targetSnapshot sourceSnapshot : SnapshotId} {policy : IdentityPolicy}
    {entities : List EntityRecord} {index : CandidateIndex} {source : EntityRecord}
    {receipt : DiscoveryReceipt} {cap : Nat}
    (built : CandidateIndex.build discoveryGeneration targetSnapshot policy entities = .ok index)
    (discovered : index.discover source sourceSnapshot cap = .ok receipt)
    (room : (index.findMatches source sourceSnapshot).size ≤ cap) :
    receipt.NamesComplete policy targetSnapshot sourceSnapshot entities source ↔
      ∀ target ∈ entities, ¬ OnlyAliased policy targetSnapshot sourceSnapshot target source := by
  obtain ⟨rfl, rfl, _⟩ := CandidateIndex.build_ok built
  have indexes := build_indexes built
  have listed : receipt.candidates = index.rankedCandidates source sourceSnapshot := by
    simp only [CandidateIndex.discover, bind_eq_ok, refuseIf_eq_ok, pure_eq_ok] at discovered
    obtain ⟨_, _, rfl⟩ := discovered
    exact List.take_of_length_le (CandidateIndex.length_rankedCandidates.trans room)
  have lists : ∀ target ∈ entities, receipt.Lists index.targetSnapshot target ↔
      CandidateIndex.Ties index.policy index.targetSnapshot sourceSnapshot target source := by
    intro target member
    unfold DiscoveryReceipt.Lists
    rw [listed]
    constructor
    · intro held
      exact ((CandidateIndex.mem_rankedCandidates_iff indexes).mpr ⟨member, held⟩).2
    · intro ties
      exact ((CandidateIndex.mem_rankedCandidates_iff indexes).mp ⟨member, ties⟩).2
  constructor
  · rintro ⟨complete, _⟩ target member only
    have shares : SharesName target source := ⟨normalizeLabel source.label,
      Finset.mem_insert_of_mem only.aliased, Finset.mem_insert_self _ _⟩
    rcases (lists target member).mp (complete target member only.kind shares) with lineage |
      verified | ⟨_, named⟩
    · exact only.lineage lineage
    · exact only.verified verified
    · exact only.named named
  · intro tied
    refine ⟨fun target member kind shares => (lists target member).mpr ?_,
      fun candidate among => ?_⟩
    · by_contra loose
      unfold CandidateIndex.Ties at loose
      push Not at loose
      obtain ⟨lineage, verified, unnamed⟩ := loose
      rcases shares.found_or_aliased with found | aliased
      · exact unnamed kind found
      · exact tied target member ⟨kind, aliased, lineage, verified, unnamed kind⟩
    · rw [listed] at among
      obtain ⟨_, address, target, found, same⟩ := CandidateIndex.mem_rankedCandidates among
      obtain ⟨member, _⟩ := (indexes.held _ _).mp found
      refine ⟨target, member, same, ?_⟩
      rcases ((CandidateIndex.mem_rankedCandidates_iff indexes).mpr
        ⟨member, candidate, among, same⟩).2 with lineage | verified | ⟨kind, named⟩
      · exact .inr (.inl lineage)
      · exact .inr (.inr verified)
      · exact .inl ⟨kind, named.sharesName⟩

end Names

/-! ## A nickname on either side -/

section Example

open Fixture

/-- Someone whose nickname is among the aliases. -/
def nicknamedTarget : EntityRecord :=
  unwrap (do (← entity (space 1) "robert" 30 "Robert" "person").withAliases ["Bob"])
    (by decide +kernel)

/-- Someone known by the nickname only. -/
def nicknameSource : EntityRecord :=
  unwrap (entity (space 2) "bob" 40 "Bob" "person") (by decide +kernel)

/-- Someone known by the full name, with the nickname among the aliases. -/
def nicknamedSource : EntityRecord :=
  unwrap (do (← entity (space 2) "bobby" 41 "Bobby" "person").withAliases ["Bob"])
    (by decide +kernel)

def nicknameIndex : CandidateIndex :=
  unwrap (CandidateIndex.build 1 (snapshotId 20) samplePolicy [nicknamedTarget]) (by decide +kernel)

theorem nicknameIndex_built : CandidateIndex.build 1 (snapshotId 20) samplePolicy
    [nicknamedTarget] = .ok nicknameIndex := unwrap_eq

def nicknameReceipt : DiscoveryReceipt :=
  unwrap (nicknameIndex.discover nicknameSource (snapshotId 21) 32) (by decide +kernel)

def nicknamedReceipt : DiscoveryReceipt :=
  unwrap (nicknameIndex.discover nicknamedSource (snapshotId 21) 32) (by decide +kernel)

theorem nickname_unlisted : nicknameReceipt.candidates = [] := by decide +kernel

/-- The nickname is an alias on both sides, and discovery is complete. -/
theorem nickname_found : nicknamedReceipt.NamesComplete samplePolicy (snapshotId 20)
      (snapshotId 21) [nicknamedTarget] nicknamedSource ↔
    ∀ target ∈ [nicknamedTarget],
      ¬ OnlyAliased samplePolicy (snapshotId 20) (snapshotId 21) target nicknamedSource := by
  have discovered : nicknameIndex.discover nicknamedSource (snapshotId 21) 32 =
      .ok nicknamedReceipt := unwrap_eq
  exact discovery_names_complete nicknameIndex_built discovered (by decide +kernel)

/-- **The nickname that is missed**: a target with the alias `Bob`, and a source with the
label `Bob`. -/
theorem nickname_missed : ∃ receipt,
    nicknameIndex.discover nicknameSource (snapshotId 21) 32 = .ok receipt ∧
      (nicknameIndex.findMatches nicknameSource (snapshotId 21)).size ≤ 32 ∧
      ¬ receipt.NamesComplete samplePolicy (snapshotId 20) (snapshotId 21) [nicknamedTarget]
        nicknameSource := by
  refine ⟨nicknameReceipt, unwrap_eq, by decide +kernel, fun complete => ?_⟩
  have shares : SharesName nicknamedTarget nicknameSource :=
    ⟨"bob", by decide +kernel, by decide +kernel⟩
  obtain ⟨candidate, member, _⟩ := complete.complete nicknamedTarget List.mem_cons_self
    (by decide +kernel) shares
  rw [nickname_unlisted] at member
  cases member

end Example

end OpenMemory.Merge
