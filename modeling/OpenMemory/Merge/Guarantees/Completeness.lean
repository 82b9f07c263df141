import OpenMemory.Merge.Fixture

/-!
# Discovery lists every proof

The analysis of a pair loops over all identifiers of both entities. Discovery
looks the source up in inverted indexes of the targets. Both have an opinion on
what proves sameness, and the two agree: a pair that the analysis proves same
shares a lineage or an identifier that is verified on both sides
(`Substantiated`), and such a pair is a candidate with a strong signal.

Strong candidates are ranked before the others. So the target of a proof is cut
off only by a receipt that is full of candidates as strong as it.
-/

namespace OpenMemory.Merge

open Foundation Canonical

/-! ## What proves sameness -/

/-- The two records share a lineage. -/
def SharesLineage (left right : EntityRecord) : Prop :=
  ∃ lineage, left.lineage = some lineage ∧ right.lineage = some lineage

/-- The two records have an identifier in common that the policy's resolver has verified
for both snapshots. -/
def SharesVerified (policy : IdentityPolicy) (left : EntityRecord) (leftSnapshot : SnapshotId)
    (right : EntityRecord) (rightSnapshot : SnapshotId) : Prop :=
  ∃ leftId ∈ left.identifiers, ∃ rightId ∈ right.identifiers,
    leftId.namespaceName = rightId.namespaceName ∧ leftId.value = rightId.value ∧
      CandidateIndex.isCurrent policy leftSnapshot leftId = true ∧
      CandidateIndex.isCurrent policy rightSnapshot rightId = true

/-- A loop that finds something has found it before, or finds it in one of its rounds. -/
theorem foldl_finds {α β : Type} {step : β → α → β} (found : β → Prop) {reason : Prop}
    {rounds : List α} {start : β}
    (round : ∀ before, ∀ a ∈ rounds, found (step before a) → found before ∨ reason)
    (after : found (rounds.foldl step start)) : found start ∨ reason := by
  induction rounds generalizing start with
  | nil => exact .inl after
  | cons first rest ih =>
    rcases ih (fun before a later => round before a (List.mem_cons_of_mem _ later)) after with
      next | holds
    · exact round start first List.mem_cons_self next
    · exact .inr holds

variable {findings : Findings}

section Analysis

variable {policy : IdentityPolicy} {left right : EntityRecord}
  {leftSnapshot rightSnapshot : SnapshotId}

theorem weighKinds_provesSame {compatibility : KindCompatibility} :
    (weighKinds compatibility left right findings).provesSame = findings.provesSame := by
  unfold weighKinds
  split <;> rfl

theorem weighNames_provesSame [CaseMapping] :
    (weighNames left right findings).provesSame = findings.provesSame := by
  unfold weighNames
  dsimp only
  split <;> split <;> rfl

theorem weighLineage_provesSame (proves : (weighLineage left right findings).provesSame = true) :
    findings.provesSame = true ∨ SharesLineage left right := by
  unfold weighLineage at proves
  split at proves
  · rename_i leftLineage rightLineage leftEq rightEq
    split at proves
    · rename_i same
      exact .inr ⟨leftLineage, leftEq, same ▸ rightEq⟩
    · exact .inl proves
  · exact .inl proves

/-- One comparison of the nested loops finds a proof only in a shared verified identifier. -/
theorem weighIdentifiers_provesSame {compatibility : KindCompatibility}
    {leftId rightId : IdentifierAssertion}
    (leftMember : leftId ∈ left.identifiers) (rightMember : rightId ∈ right.identifiers)
    (proves : (weighIdentifiers policy compatibility leftSnapshot rightSnapshot leftId findings
      rightId).provesSame = true) : findings.provesSame = true ∨
      SharesVerified policy left leftSnapshot right rightSnapshot := by
  unfold weighIdentifiers at proves
  split at proves
  · exact .inl proves
  · rename_i sameName
    rw [not_not] at sameName
    cases resolver : policy.resolverGeneration leftId.namespaceName with
    | none =>
      simp only [resolver] at proves
      split at proves <;> exact .inl proves
    | some required =>
      simp only [resolver] at proves
      split at proves
      · rename_i verified
        split at proves
        · rename_i matching
          refine .inr ⟨leftId, leftMember, rightId, rightMember, sameName, matching.1, ?_, ?_⟩
          · simp only [CandidateIndex.isCurrent, resolver, verified.1]
          · simp only [CandidateIndex.isCurrent, ← sameName, resolver, verified.2]
        · split at proves <;> exact .inl proves
      · split at proves <;> exact .inl proves

/-- A proof of sameness rests on a shared lineage or a shared verified identifier. -/
theorem proofSame_substantiated [CaseMapping] [Blake3] {packet : IdentityPacket}
    (analysed : analyzePair left leftSnapshot right rightSnapshot policy = .ok packet)
    (proof : packet.resolution = .proofSame) :
    SharesLineage left right ∨ SharesVerified policy left leftSnapshot right rightSnapshot := by
  simp only [analyzePair, bind_eq_ok, refuseIf_eq_ok, pure_eq_ok] at analysed
  obtain ⟨_, _, rfl⟩ := analysed
  have proves : (examinePair left leftSnapshot right rightSnapshot policy).provesSame = true := by
    cases same : (examinePair left leftSnapshot right rightSnapshot policy).provesSame with
    | true => rfl
    | false =>
      cases different : (examinePair left leftSnapshot right rightSnapshot
        policy).provesDifferent <;> simp [resolutionOf, same, different] at proof
  rw [examinePair, weighNames_provesSame] at proves
  -- the loops keep what the other parts of the analysis have found
  have weighed : ∀ {leftIds : List IdentifierAssertion} {findings : Findings},
      (∀ leftId ∈ leftIds, leftId ∈ left.identifiers) →
      (leftIds.foldl (fun findings leftId => (ascending right.identifiers).foldl
        (weighIdentifiers policy (policy.kindCompatibility left.kind right.kind) leftSnapshot
          rightSnapshot leftId) findings) findings).provesSame = true →
      findings.provesSame = true ∨ SharesVerified policy left leftSnapshot right rightSnapshot := by
    intro leftIds findings leftMembers found
    refine foldl_finds (fun findings : Findings => findings.provesSame = true) ?_ found
    intro before leftId listed after
    refine foldl_finds (fun findings : Findings => findings.provesSame = true) ?_ after
    intro inner rightId rightListed last
    exact weighIdentifiers_provesSame (leftMembers leftId listed)
      (mem_ascending.mp rightListed) last
  rcases weighed (fun leftId listed => mem_ascending.mp listed) proves with start | verified
  · rw [weighKinds_provesSame] at start
    rcases weighLineage_provesSame start with impossible | lineage
    · exact Bool.noConfusion impossible
    · exact .inl lineage
  · exact .inr verified

end Analysis

/-! ## What the index holds -/

section Multimaps

variable {κ α ι : Type} [LinearOrder κ]

/-- The elements a multimap holds at a key. -/
def heldAt (map : OrderedMap κ (Finset α)) (key : κ) : Finset α := map[key]?.getD ∅

theorem heldAt_empty (key : κ) : heldAt (∅ : OrderedMap κ (Finset α)) key = ∅ := by
  rw [heldAt, OrderedMap.get_empty, Option.getD_none]

theorem mem_heldAt_insertAt [DecidableEq α] {map : OrderedMap κ (Finset α)} {key other : κ} {element a : α} :
    a ∈ heldAt (insertAt map key element) other ↔
      (key = other ∧ a = element) ∨ a ∈ heldAt map other := by
  unfold heldAt insertAt
  rw [OrderedMap.get_insert]
  by_cases same : key = other
  · subst same
    rw [if_pos rfl, Option.getD_some, Finset.mem_insert]
    simp only [true_and]
  · rw [if_neg same]
    simp only [same, false_and, false_or]

/-- What a loop of insertions adds is what its rounds add. -/
theorem mem_heldAt_foldl {step : OrderedMap κ (Finset α) → ι → OrderedMap κ (Finset α)}
    {adds : ι → κ → α → Prop}
    (round : ∀ map i key a, a ∈ heldAt (step map i) key ↔ adds i key a ∨ a ∈ heldAt map key)
    {rounds : List ι} {map : OrderedMap κ (Finset α)} {key : κ} {a : α} :
    a ∈ heldAt (rounds.foldl step map) key ↔ (∃ i ∈ rounds, adds i key a) ∨ a ∈ heldAt map key := by
  induction rounds generalizing map with
  | nil => simp
  | cons first rest ih =>
    rw [List.foldl_cons, ih, round]
    simp only [List.exists_mem_cons_iff]
    exact or_left_comm.trans or_assoc.symm

end Multimaps

section Index

variable [CaseMapping]

/-- The index finds an entity by its address and by everything that could prove it the same. -/
structure CandidateIndex.Finds (index : CandidateIndex) (target : EntityRecord) : Prop where
  entities : index.entities[target.address]? = some target
  lineage : ∀ lineage, target.lineage = some lineage → target.address ∈ heldAt index.lineage lineage
  verified : ∀ identifier ∈ target.identifiers,
    CandidateIndex.isCurrent index.policy index.targetSnapshot identifier = true →
      target.address ∈ heldAt index.verified (toLex (identifier.namespaceName, identifier.value))

theorem addEntity_finds {before after : CandidateIndex} {entity : EntityRecord}
    (step : before.addEntity entity = .ok after) :
    after.Finds entity ∧ ∀ target, before.Finds target → after.Finds target := by
  simp only [CandidateIndex.addEntity, bind_eq_ok, refuseIf_eq_ok, pure_eq_ok] at step
  obtain ⟨_, fresh, rfl⟩ := step
  -- one round of the loop over the identifiers
  have round : ∀ (map : AddressIndex (String ×ₗ String)) (identifier : IdentifierAssertion)
      (key : String ×ₗ String) (address : EntityAddress),
      address ∈ heldAt (if CandidateIndex.isCurrent before.policy before.targetSnapshot identifier =
          true then insertAt map (toLex (identifier.namespaceName, identifier.value))
            entity.address else map) key ↔
        (CandidateIndex.isCurrent before.policy before.targetSnapshot identifier = true ∧
          toLex (identifier.namespaceName, identifier.value) = key ∧ address = entity.address) ∨
        address ∈ heldAt map key := by
    intro map identifier key address
    split
    · rename_i current
      rw [mem_heldAt_insertAt]
      simp only [current, true_and]
    · rename_i stale
      simp only [stale, Bool.false_eq_true, false_and, false_or]
  constructor
  · refine ⟨by rw [OrderedMap.get_insert, if_pos rfl], ?_, ?_⟩
    · intro lineage has
      simp only [has]
      exact mem_heldAt_insertAt.mpr (.inl ⟨rfl, rfl⟩)
    · intro identifier member current
      rw [mem_heldAt_foldl round]
      exact .inl ⟨identifier, mem_ascending.mpr member, current, rfl, rfl⟩
  · rintro target ⟨entities, lineage, verified⟩
    refine ⟨?_, ?_, ?_⟩
    · have other : entity.address ≠ target.address := by
        intro same
        rw [same, entities] at fresh
        exact fresh rfl
      rw [OrderedMap.get_insert, if_neg other, entities]
    · intro held has
      have already := lineage held has
      cases entity.lineage with
      | none => exact already
      | some _ => exact mem_heldAt_insertAt.mpr (.inr already)
    · intro identifier member current
      rw [mem_heldAt_foldl round]
      exact .inr (verified identifier member current)

theorem build_finds {discoveryGeneration : UInt64} {targetSnapshot : SnapshotId}
    {policy : IdentityPolicy} {entities : List EntityRecord} {index : CandidateIndex}
    (built : CandidateIndex.build discoveryGeneration targetSnapshot policy entities = .ok index) :
    ∀ target ∈ entities, index.Finds target := by
  obtain ⟨_, _, run⟩ := bind_eq_ok.mp built
  refine foldlM_prefix_induction
    (motive := fun seen index => ∀ target ∈ seen, CandidateIndex.Finds index target)
    (by simp) ?_ run
  intro seen entity before after found step target member
  obtain ⟨own, keeps⟩ := addEntity_finds step
  rcases List.mem_append.mp member with earlier | last
  · exact keeps target (found target earlier)
  · rw [List.mem_singleton] at last
    exact last ▸ own

/-! ## What discovery finds -/

omit [CaseMapping] in
theorem mem_heldAt_addMatches {output : OrderedMap EntityAddress (Finset CandidateSignal)}
    {matching : Option (Finset EntityAddress)} {signal other : CandidateSignal}
    {address : EntityAddress} :
    other ∈ heldAt (CandidateIndex.addMatches output matching signal) address ↔
      (address ∈ matching.getD ∅ ∧ other = signal) ∨ other ∈ heldAt output address := by
  cases matching with
  | none => simp [CandidateIndex.addMatches]
  | some addresses =>
    have round : ∀ (map : OrderedMap EntityAddress (Finset CandidateSignal))
        (found key : EntityAddress) (a : CandidateSignal),
        a ∈ heldAt (insertAt map found signal) key ↔
          (found = key ∧ a = signal) ∨ a ∈ heldAt map key :=
      fun map found key a => mem_heldAt_insertAt
    rw [CandidateIndex.addMatches, mem_heldAt_foldl round]
    constructor
    · rintro (⟨found, member, rfl, same⟩ | held)
      · exact .inl ⟨mem_ascending.mp member, same⟩
      · exact .inr held
    · rintro (⟨member, same⟩ | held)
      · exact .inl ⟨address, mem_ascending.mpr member, rfl, same⟩
      · exact .inr held

/-- The signals that rest on a proof. -/
def CandidateSignal.Strong (signal : CandidateSignal) : Prop :=
  signal = .lineage ∨ signal = .verifiedIdentifier

/-- What shares a proof with the source is matched with a strong signal. -/
theorem findMatches_strong {index : CandidateIndex} {target source : EntityRecord}
    {sourceSnapshot : SnapshotId} (finds : index.Finds target)
    (substantiated : SharesLineage target source ∨
      SharesVerified index.policy target index.targetSnapshot source sourceSnapshot) :
    ∃ signal, signal.Strong ∧
      signal ∈ heldAt (index.findMatches source sourceSnapshot) target.address := by
  -- the searches by name only add
  have names : ∀ (output : OrderedMap EntityAddress (Finset CandidateSignal))
      (keys : List String) (signal : CandidateSignal),
      signal ∈ heldAt output target.address →
      signal ∈ heldAt (keys.foldl (fun output name =>
        let key := nameKey (normalizeLabel name) source.kind
        CandidateIndex.addMatches (CandidateIndex.addMatches output index.labels[key]? .aliasName)
          index.aliases[key]? .aliasName) output) target.address := by
    intro output keys signal held
    induction keys generalizing output with
    | nil => exact held
    | cons name rest ih =>
      apply ih
      exact mem_heldAt_addMatches.mpr (.inr (mem_heldAt_addMatches.mpr (.inr held)))
  -- one round of the loop over the identifiers of the source
  have round : ∀ (output : OrderedMap EntityAddress (Finset CandidateSignal))
      (identifier : IdentifierAssertion) (address : EntityAddress) (signal : CandidateSignal),
      signal ∈ heldAt (if CandidateIndex.isCurrent index.policy sourceSnapshot identifier = true
        then CandidateIndex.addMatches output
          index.verified[(toLex (identifier.namespaceName, identifier.value) :
            String ×ₗ String)]? .verifiedIdentifier
        else output) address ↔
        (CandidateIndex.isCurrent index.policy sourceSnapshot identifier = true ∧
          address ∈ heldAt index.verified (toLex (identifier.namespaceName, identifier.value)) ∧
          signal = .verifiedIdentifier) ∨ signal ∈ heldAt output address := by
    intro output identifier address signal
    split
    · rename_i current
      rw [mem_heldAt_addMatches]
      simp only [current, true_and, heldAt]
    · rename_i stale
      simp only [stale, Bool.false_eq_true, false_and, false_or]
  rcases substantiated with ⟨lineage, ofTarget, ofSource⟩ | ⟨targetId, ofTarget, sourceId,
    ofSource, sameName, sameValue, targetCurrent, sourceCurrent⟩
  · refine ⟨.lineage, .inl rfl, ?_⟩
    refine names _ _ _ (mem_heldAt_addMatches.mpr (.inr ((mem_heldAt_foldl round).mpr (.inr ?_))))
    rw [ofSource]
    exact mem_heldAt_addMatches.mpr (.inl ⟨finds.lineage lineage ofTarget, rfl⟩)
  · refine ⟨.verifiedIdentifier, .inr rfl, ?_⟩
    refine names _ _ _ (mem_heldAt_addMatches.mpr (.inr ((mem_heldAt_foldl round).mpr (.inl ?_))))
    have held := finds.verified targetId ofTarget targetCurrent
    rw [sameName, sameValue] at held
    exact ⟨sourceId, mem_ascending.mpr ofSource, sourceCurrent, held, rfl⟩

end Index

/-! ## The ranking -/

/-- The candidate carries a signal that rests on a proof. -/
def IdentityCandidate.Strong (candidate : IdentityCandidate) : Prop :=
  ∃ signal ∈ candidate.signals, signal.Strong

theorem priority_le_iff {candidate : IdentityCandidate} :
    candidate.priority ≤ .verifiedIdentifier ↔ candidate.Strong := by
  have strong_iff : ∀ signal : CandidateSignal,
      signal ≤ .verifiedIdentifier ↔ signal.Strong := by
    intro signal
    cases signal <;> simp only [CandidateSignal.Strong] <;> decide
  have sorted := sortedLE_ascending candidate.signals
  unfold IdentityCandidate.priority
  cases listed : ascending candidate.signals with
  | nil =>
    have none : ∀ signal, signal ∉ candidate.signals := by
      intro signal member
      rw [← mem_ascending, listed] at member
      cases member
    constructor
    · intro impossible
      exact absurd impossible (by decide)
    · rintro ⟨signal, member, _⟩
      exact absurd member (none signal)
  | cons first rest =>
    have members : ∀ signal, signal ∈ candidate.signals ↔ signal ∈ first :: rest := by
      intro signal
      rw [← mem_ascending, listed]
    rw [listed, List.pairwise_cons] at sorted
    rw [List.head?_cons, Option.getD_some, strong_iff]
    constructor
    · intro strong
      exact ⟨first, (members first).mpr List.mem_cons_self, strong⟩
    · rintro ⟨signal, member, strong⟩
      rw [← strong_iff] at strong ⊢
      rcases List.mem_cons.mp ((members signal).mp member) with rfl | later
      · exact strong
      · exact (sorted.1 signal later).trans strong

namespace CandidateIndex

theorem precedes_total (left right : IdentityCandidate) :
    precedes left right ∨ precedes right left := by
  unfold precedes
  rcases lt_trichotomy left.priority right.priority with below | same | above
  · exact .inl (.inl below)
  · rcases le_total left.target.address right.target.address with first | last
    · exact .inl (.inr ⟨same, first⟩)
    · exact .inr (.inr ⟨same.symm, last⟩)
  · exact .inr (.inl above)

theorem precedes_trans {first second third : IdentityCandidate} (left : precedes first second)
    (right : precedes second third) : precedes first third := by
  unfold precedes at *
  rcases left with below | ⟨same, order⟩
  · rcases right with next | ⟨same, _⟩
    · exact .inl (below.trans next)
    · exact .inl (same ▸ below)
  · rcases right with next | ⟨sameNext, orderNext⟩
    · exact .inl (same ▸ next)
    · exact .inr ⟨same.trans sameNext, order.trans orderNext⟩

instance : Std.Total precedes := ⟨precedes_total⟩

instance : IsTrans IdentityCandidate precedes := ⟨fun _ _ _ => precedes_trans⟩

theorem priority_le_of_precedes {left right : IdentityCandidate} (order : precedes left right) :
    left.priority ≤ right.priority := by
  rcases order with below | ⟨same, _⟩
  · exact below.le
  · exact same.le

variable [CaseMapping] [Blake3] {index : CandidateIndex} {source : EntityRecord}
  {sourceSnapshot : SnapshotId}

theorem rankedCandidates_sorted :
    (index.rankedCandidates source sourceSnapshot).Pairwise precedes :=
  List.pairwise_insertionSort precedes _

/-- A target that shares a proof with the source is ranked as a strong candidate. -/
theorem mem_ranked_of_substantiated {target : EntityRecord} (finds : index.Finds target)
    (substantiated : SharesLineage target source ∨
      SharesVerified index.policy target index.targetSnapshot source sourceSnapshot) :
    ∃ candidate ∈ index.rankedCandidates source sourceSnapshot,
      candidate.target = target.refIn index.targetSnapshot ∧ candidate.Strong := by
  obtain ⟨signal, strong, held⟩ := findMatches_strong finds substantiated
  unfold heldAt at held
  cases found : (index.findMatches source sourceSnapshot)[target.address]? with
  | none =>
    rw [found] at held
    cases Finset.notMem_empty _ held
  | some signals =>
    rw [found, Option.getD_some] at held
    refine ⟨IdentityCandidate.new (target.refIn index.targetSnapshot)
      (source.refIn sourceSnapshot) signals, ?_, rfl, signal, held, strong⟩
    rw [rankedCandidates, List.mem_insertionSort, List.mem_filterMap]
    refine ⟨(target.address, signals), OrderedMap.mem_toList.mpr found, ?_⟩
    rw [finds.entities, Option.map_some]

/-- What the cap cuts off is no stronger than what it leaves. -/
theorem strong_of_cut {cap : Nat} {candidate other : IdentityCandidate}
    (cut : candidate ∈ (index.rankedCandidates source sourceSnapshot).drop cap)
    (strong : candidate.Strong)
    (kept : other ∈ (index.rankedCandidates source sourceSnapshot).take cap) : other.Strong := by
  have sorted := @rankedCandidates_sorted _ _ index source sourceSnapshot
  rw [← List.take_append_drop cap (index.rankedCandidates source sourceSnapshot),
    List.pairwise_append] at sorted
  rw [← priority_le_iff] at strong ⊢
  exact (priority_le_of_precedes (sorted.2.2 other kept candidate cut)).trans strong

end CandidateIndex

/-- **Discovery never misses a proof.** Every target entity that the analysis
proves to be the source is listed, unless the receipt is truncated and all its
places are taken by candidates with a lineage or a verified identifier: no
number of namesakes displaces a proof. -/
theorem discover_lists_proofs [CaseMapping] [Blake3] {discoveryGeneration : UInt64}
    {targetSnapshot sourceSnapshot : SnapshotId} {policy : IdentityPolicy}
    {entities : List EntityRecord} {index : CandidateIndex} {source target : EntityRecord}
    {packet : IdentityPacket} {cap : Nat}
    (built : CandidateIndex.build discoveryGeneration targetSnapshot policy entities = .ok index)
    (member : target ∈ entities)
    (analysed : analyzePair target targetSnapshot source sourceSnapshot policy = .ok packet)
    (proof : packet.resolution = .proofSame) (positive : 1 ≤ cap) (bounded : cap ≤ 128) :
    ∃ receipt, index.discover source sourceSnapshot cap = .ok receipt ∧
      ((∃ candidate ∈ receipt.candidates, candidate.target = target.refIn targetSnapshot) ∨
        (receipt.truncated = true ∧ receipt.candidates.length = cap ∧
          ∀ candidate ∈ receipt.candidates, CandidateSignal.lineage ∈ candidate.signals ∨
            CandidateSignal.verifiedIdentifier ∈ candidate.signals)) := by
  obtain ⟨sameSnapshot, samePolicy, _⟩ := CandidateIndex.build_ok built
  have substantiated := proofSame_substantiated analysed proof
  rw [← sameSnapshot, ← samePolicy] at substantiated
  obtain ⟨candidate, ranked, targets, strong⟩ :=
    CandidateIndex.mem_ranked_of_substantiated (build_finds built target member) substantiated
  have admitted : ¬ (cap = 0 ∨ cap > maxCandidateCap) := by
    unfold maxCandidateCap
    omega
  simp only [CandidateIndex.discover, bind_eq_ok, refuseIf_eq_ok, pure_eq_ok]
  refine ⟨_, ⟨(), admitted, rfl⟩, ?_⟩
  rw [← List.take_append_drop cap (index.rankedCandidates source sourceSnapshot),
    List.mem_append] at ranked
  rcases ranked with kept | cut
  · exact .inl ⟨candidate, kept, by rw [targets, sameSnapshot]⟩
  · right
    have beyond : cap < (index.rankedCandidates source sourceSnapshot).length := by
      by_contra within
      rw [List.drop_eq_nil_of_le (not_lt.mp within)] at cut
      cases cut
    refine ⟨decide_eq_true beyond, List.length_take_of_le beyond.le, ?_⟩
    intro other listed
    obtain ⟨signal, carried, rfl | rfl⟩ := CandidateIndex.strong_of_cut cut strong listed
    · exact .inl carried
    · exact .inr carried

/-! ## An example -/

section Example

open Fixture

def linealTarget : EntityRecord :=
  unwrap (do (← entity (space 1) "ada" 30 "Countess" "person").withLineage "byron") (by decide)

def linealSource : EntityRecord :=
  unwrap (do (← entity (space 2) "ada" 40 "Ada" "person").withLineage "byron") (by decide)

def namesakeTarget : EntityRecord :=
  unwrap (entity (space 1) "aba" 31 "Ada" "person") (by decide)

def linealIndex : CandidateIndex :=
  unwrap (CandidateIndex.build 1 (snapshotId 20) samplePolicy [namesakeTarget, linealTarget])
    (by decide)

def linealPacket : IdentityPacket :=
  unwrap (analyzePair linealTarget (snapshotId 20) linealSource (snapshotId 21) samplePolicy)
    (by decide)

/-- With room for one candidate only, the target of the same lineage is not displaced by a
namesake. -/
theorem lineal_listed : ∃ receipt,
    linealIndex.discover linealSource (snapshotId 21) 1 = .ok receipt ∧
      ((∃ candidate ∈ receipt.candidates,
          candidate.target = linealTarget.refIn (snapshotId 20)) ∨
        (receipt.truncated = true ∧ receipt.candidates.length = 1 ∧
          ∀ candidate ∈ receipt.candidates, CandidateSignal.lineage ∈ candidate.signals ∨
            CandidateSignal.verifiedIdentifier ∈ candidate.signals)) := by
  have built : CandidateIndex.build 1 (snapshotId 20) samplePolicy
      [namesakeTarget, linealTarget] = .ok linealIndex := unwrap_eq
  have analysed : analyzePair linealTarget (snapshotId 20) linealSource (snapshotId 21)
      samplePolicy = .ok linealPacket := unwrap_eq
  exact discover_lists_proofs built (List.mem_cons_of_mem _ List.mem_cons_self) analysed
    (by decide) le_rfl (by decide)

end Example

end OpenMemory.Merge
