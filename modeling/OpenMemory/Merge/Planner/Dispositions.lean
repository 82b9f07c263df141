import OpenMemory.Merge.Planner.Plan

/-!
# From receipts to dispositions

Before a planner looks at a record it decides, from the receipts alone, what is
to happen to every discovered source entity. Each discovery is disposed of in
one of four ways (`Disposed`): it has no candidate, it is kept distinct as a
whole page, all its candidates are resolved different, or exactly one of them
is resolved same and becomes the coalescence target. No receipt is left over,
and no target is chosen twice.

The receipts are indexed first (`indexReceipts`), and only the indexes are read
afterwards, so the order in which the receipts are listed does not matter
(`prepareDispositions_perm`).
-/

namespace OpenMemory.Merge

open Foundation

/-! ## The receipt indexes -/

/-- A pair of a target and a source address. -/
abbrev PairKey := ObjectAddress ×ₗ ObjectAddress

def IdentityCandidate.pairKey (candidate : IdentityCandidate) : PairKey :=
  toLex (candidate.target.address, candidate.source.address)

def IdentityResolutionReceipt.pairKey (resolution : IdentityResolutionReceipt) : PairKey :=
  toLex (resolution.target.address, resolution.source.address)

structure ReceiptIndexes where
  discoveries : OrderedMap EntityAddress DiscoveryReceipt
  resolutionByPair : OrderedMap PairKey IdentityResolutionReceipt
  keepBySource : OrderedMap EntityAddress KeepDistinctReceipt

/-- The first part of `prepare_dispositions`: every receipt is current, and no
two receipts answer the same question. -/
def indexReceipts (receipts : PlanningReceipts) (policy : MergePolicy) :
    MergeResult ReceiptIndexes := do
  let discoveries ← collectBy (fun discovery => discovery.source.address)
    (fun discovery => discovery.policyGeneration ≠ policy.identityPolicyGeneration)
    ⟨.staleReceipt, "discovery policy generation is stale"⟩
    ⟨.duplicateInput, "source discovery receipt is duplicated"⟩ receipts.discoveries
  let resolutionByPair ← collectBy IdentityResolutionReceipt.pairKey
    (fun resolution => resolution.policyGeneration ≠ policy.identityPolicyGeneration)
    ⟨.staleReceipt, "identity resolution is stale or duplicated"⟩
    ⟨.staleReceipt, "identity resolution is stale or duplicated"⟩ receipts.resolutions
  let keepBySource ← collectBy (fun keep => keep.source.address)
    (fun keep => keep.policyGeneration ≠ policy.identityPolicyGeneration)
    ⟨.staleReceipt, "keep-distinct receipt is stale or duplicated"⟩
    ⟨.staleReceipt, "keep-distinct receipt is stale or duplicated"⟩ receipts.keepDistinct
  pure ⟨discoveries, resolutionByPair, keepBySource⟩

/-! ## One discovery -/

inductive PlannedDisposition where
  | coalesce (target : EntityRevisionRef) (receipt : ReceiptHash)
  | add (reason : DistinctReason) (receipt : Option ReceiptHash)
  deriving DecidableEq

/-- What is planned for one source entity, at the revision it was discovered. -/
structure PlannedEntity where
  logicalId : LogicalId
  revision : RevisionId
  snapshot : SnapshotId
  disposition : PlannedDisposition
  deriving DecidableEq

structure CandidateProgress where
  used : Finset PairKey
  consumed : Nat
  same : Option IdentityResolutionReceipt

/-- The body of the loop over the candidates of one discovery. -/
def resolveCandidate (indexes : ReceiptIndexes) (progress : CandidateProgress)
    (candidate : IdentityCandidate) : MergeResult CandidateProgress := do
  let resolution ← orRefuse indexes.resolutionByPair[candidate.pairKey]?
    ⟨.discoveryIncomplete, "candidate lacks exactly one current resolution"⟩
  refuseIf (resolution.matchesCandidate candidate = false)
    ⟨.staleReceipt, "resolution revisions do not match candidate"⟩
  refuseIf (resolution.decision = .same ∧ progress.same.isSome = true)
    ⟨.conflictingResolution, "one source resolves same with multiple targets"⟩
  pure {
    used := insert candidate.pairKey progress.used
    consumed := progress.consumed + 1
    same := if resolution.decision = .same then some resolution else progress.same }

structure Preparation where
  usedResolutions : Finset PairKey
  usedKeep : Finset EntityAddress
  coalescenceTargets : Finset ObjectAddress
  planned : List PlannedEntity
  consumedCandidates : Nat

/-- The disposition of one discovery, and the receipts it uses up. -/
def disposeDiscovery (indexes : ReceiptIndexes) (state : Preparation)
    (sourceAddress : EntityAddress) (discovery : DiscoveryReceipt) :
    MergeResult (PlannedDisposition × Preparation) :=
  if discovery.candidates.isEmpty = true then do
    refuseIf ((indexes.keepBySource[sourceAddress]?).isSome = true)
      ⟨.conflictingResolution, "empty discovery must not carry a keep-distinct receipt"⟩
    pure (.add .noCandidate none, state)
  else
    match indexes.keepBySource[sourceAddress]? with
    | some keep => do
        refuseIf (keep.matchesDiscovery discovery = false)
          ⟨.staleReceipt, "keep-distinct receipt does not bind the discovery page"⟩
        refuseIf (∃ candidate ∈ discovery.candidates,
            (indexes.resolutionByPair[candidate.pairKey]?).isSome = true)
          ⟨.conflictingResolution, "candidate is consumed by both resolution and keep-distinct"⟩
        pure (.add .keepDistinct (some keep.hash), { state with
          usedKeep := insert sourceAddress state.usedKeep
          consumedCandidates := state.consumedCandidates + discovery.candidates.length })
    | none => do
        refuseIf (discovery.truncated = true)
          ⟨.discoveryIncomplete, "truncated discovery may proceed only through keep-distinct"⟩
        let progress ← discovery.candidates.foldlM (resolveCandidate indexes)
          ⟨state.usedResolutions, state.consumedCandidates, none⟩
        let state := { state with
          usedResolutions := progress.used
          consumedCandidates := progress.consumed }
        match progress.same with
        | some resolution => do
            refuseIf (resolution.target.address ∈ state.coalescenceTargets)
              ⟨.manyToOne, "multiple source entities cannot coalesce into one target"⟩
            pure (.coalesce resolution.target resolution.hash, { state with
              coalescenceTargets := insert resolution.target.address state.coalescenceTargets })
        | none => pure (.add .reviewedDifferent none, state)

/-- The body of the loop over the discoveries. -/
def prepareDiscovery (indexes : ReceiptIndexes) (state : Preparation)
    (entry : EntityAddress × DiscoveryReceipt) : MergeResult Preparation := do
  let (disposition, state) ← disposeDiscovery indexes state entry.1 entry.2
  pure { state with
    planned := state.planned ++ [{
      logicalId := entry.1.logicalId
      revision := entry.2.source.revision
      snapshot := entry.2.source.snapshot
      disposition := disposition }] }

/-- The second part of `prepare_dispositions`, which reads the indexes only. -/
def consumeReceipts (indexes : ReceiptIndexes) :
    MergeResult (List PlannedEntity × MergeAccounting) := do
  let state ← indexes.discoveries.toList.foldlM (prepareDiscovery indexes) ⟨∅, ∅, ∅, [], 0⟩
  refuseIf (state.usedResolutions.card ≠ indexes.resolutionByPair.size ∨
      state.usedKeep.card ≠ indexes.keepBySource.size)
    ⟨.discoveryIncomplete, "extra resolution or keep-distinct receipt is outside discovery"⟩
  pure (state.planned, {
    consumedCandidates := state.consumedCandidates
    consumedDiscoveries := indexes.discoveries.size
    consumedResolutions := state.usedResolutions.card
    consumedKeepDistinct := state.usedKeep.card })

def prepareDispositions (receipts : PlanningReceipts) (policy : MergePolicy) :
    MergeResult (List PlannedEntity × MergeAccounting) := do
  let indexes ← indexReceipts receipts policy
  consumeReceipts indexes

/-! ## The order of the receipts -/

/-- Two bundles with the same receipts in some order. -/
structure PlanningReceipts.Reordered (receipts others : PlanningReceipts) : Prop where
  discoveries : receipts.discoveries.Perm others.discoveries
  resolutions : receipts.resolutions.Perm others.resolutions
  keepDistinct : receipts.keepDistinct.Perm others.keepDistinct

variable {receipts others : PlanningReceipts} {policy : MergePolicy}

theorem PlanningReceipts.Reordered.symm
    (reordered : receipts.Reordered others) : others.Reordered receipts :=
  ⟨reordered.discoveries.symm, reordered.resolutions.symm, reordered.keepDistinct.symm⟩

theorem indexReceipts_perm {indexes : ReceiptIndexes} (reordered : receipts.Reordered others)
    (indexed : indexReceipts receipts policy = .ok indexes) :
    indexReceipts others policy = .ok indexes := by
  simp only [indexReceipts, bind_eq_ok, pure_eq_ok] at indexed ⊢
  obtain ⟨discoveries, first, resolutions, second, keeps, third, rfl⟩ := indexed
  exact ⟨discoveries, collectBy_perm first reordered.discoveries, resolutions,
    collectBy_perm second reordered.resolutions, keeps,
    collectBy_perm third reordered.keepDistinct, rfl⟩

/-- **The order of the receipts does not matter** to a successful preparation. -/
theorem prepareDispositions_perm
    {prepared : List PlannedEntity × MergeAccounting} (reordered : receipts.Reordered others)
    (success : prepareDispositions receipts policy = .ok prepared) :
    prepareDispositions others policy = .ok prepared := by
  simp only [prepareDispositions, bind_eq_ok] at success ⊢
  obtain ⟨indexes, indexed, consumed⟩ := success
  exact ⟨indexes, indexReceipts_perm reordered indexed, consumed⟩

/-! ## What a disposition says -/

/-- The way a discovery was disposed of, with the receipts that justify it. -/
inductive Disposed (indexes : ReceiptIndexes) (discovery : DiscoveryReceipt) :
    PlannedDisposition → Prop
  | noCandidate (empty : discovery.candidates = [])
      (unkept : indexes.keepBySource[discovery.source.address]? = none) :
      Disposed indexes discovery (.add .noCandidate none)
  | keepDistinct (keep : KeepDistinctReceipt)
      (kept : indexes.keepBySource[discovery.source.address]? = some keep)
      (nonempty : discovery.candidates ≠ [])
      (unresolved : ∀ candidate ∈ discovery.candidates,
        indexes.resolutionByPair[candidate.pairKey]? = none) :
      Disposed indexes discovery (.add .keepDistinct (some keep.hash))
  | reviewedDifferent
      (unkept : indexes.keepBySource[discovery.source.address]? = none)
      (nonempty : discovery.candidates ≠ [])
      (resolved : ∀ candidate ∈ discovery.candidates, ∃ resolution,
        indexes.resolutionByPair[candidate.pairKey]? = some resolution ∧
          resolution.target = candidate.target ∧ resolution.decision = .different) :
      Disposed indexes discovery (.add .reviewedDifferent none)
  | coalesce (resolution : IdentityResolutionReceipt) (candidate : IdentityCandidate)
      (unkept : indexes.keepBySource[discovery.source.address]? = none)
      (complete : discovery.truncated = false)
      (chosen : candidate ∈ discovery.candidates)
      (found : indexes.resolutionByPair[candidate.pairKey]? = some resolution)
      (sameTarget : resolution.target = candidate.target)
      (sameSource : resolution.source = candidate.source)
      (same : resolution.decision = .same)
      (only : ∀ other ∈ discovery.candidates, ∃ decided,
        indexes.resolutionByPair[other.pairKey]? = some decided ∧
          decided.target = other.target ∧ (decided.decision = .same → decided = resolution)) :
      Disposed indexes discovery (.coalesce resolution.target resolution.hash)

/-- A candidate that has a resolution agrees with it on the target, and leads to a
coalescence when it is resolved same. -/
theorem Disposed.of_found {indexes : ReceiptIndexes} {discovery : DiscoveryReceipt}
    {disposition : PlannedDisposition} (disposed : Disposed indexes discovery disposition)
    {candidate : IdentityCandidate} (chosen : candidate ∈ discovery.candidates)
    {resolution : IdentityResolutionReceipt}
    (found : indexes.resolutionByPair[candidate.pairKey]? = some resolution) :
    resolution.target = candidate.target ∧
      (resolution.decision = .same →
        disposition = .coalesce resolution.target resolution.hash) := by
  cases disposed with
  | noCandidate empty _ =>
    rw [empty] at chosen
    cases chosen
  | keepDistinct _ _ _ unresolved =>
    rw [unresolved candidate chosen] at found
    cases found
  | reviewedDifferent _ _ resolved =>
    obtain ⟨decided, foundDecided, sameTarget, different⟩ := resolved candidate chosen
    rw [found] at foundDecided
    cases foundDecided
    refine ⟨sameTarget, fun same => ?_⟩
    rw [same] at different
    cases different
  | coalesce _ _ _ _ _ _ _ _ _ only =>
    obtain ⟨decided, foundDecided, sameTarget, onlyOne⟩ := only candidate chosen
    rw [found] at foundDecided
    cases foundDecided
    exact ⟨sameTarget, fun same => by rw [onlyOne same]⟩

section Candidates

variable {indexes : ReceiptIndexes}

/-- After the loop over the candidates, each of them is resolved at its own
revisions, and at most one of them as the same entity. -/
theorem resolveCandidates_ok {candidates : List IdentityCandidate} {used : Finset PairKey}
    {consumed : Nat} {progress : CandidateProgress}
    (run : candidates.foldlM (resolveCandidate indexes) ⟨used, consumed, none⟩ = .ok progress) :
    (∀ candidate ∈ candidates, ∃ resolution,
        indexes.resolutionByPair[candidate.pairKey]? = some resolution ∧
          resolution.matchesCandidate candidate = true ∧
          (resolution.decision = .same → progress.same = some resolution)) ∧
      (∀ resolution, progress.same = some resolution → resolution.decision = .same ∧
        ∃ candidate ∈ candidates, resolution.matchesCandidate candidate = true ∧
          indexes.resolutionByPair[candidate.pairKey]? = some resolution) ∧
      progress.used = used ∪ (candidates.map IdentityCandidate.pairKey).toFinset ∧
      progress.consumed = consumed + candidates.length := by
  refine foldlM_prefix_induction (motive := fun seen progress =>
    (∀ candidate ∈ seen, ∃ resolution,
        indexes.resolutionByPair[candidate.pairKey]? = some resolution ∧
          resolution.matchesCandidate candidate = true ∧
          (resolution.decision = .same → progress.same = some resolution)) ∧
      (∀ resolution, progress.same = some resolution → resolution.decision = .same ∧
        ∃ candidate ∈ seen, resolution.matchesCandidate candidate = true ∧
          indexes.resolutionByPair[candidate.pairKey]? = some resolution) ∧
      progress.used = used ∪ (seen.map IdentityCandidate.pairKey).toFinset ∧
      progress.consumed = consumed + seen.length) ?_ ?_ run
  · simp
  · intro seen candidate before after ⟨resolved, chosen, usedBefore, consumedBefore⟩ step
    simp only [resolveCandidate, bind_eq_ok, orRefuse_eq_ok, refuseIf_eq_ok, pure_eq_ok,
      Bool.not_eq_false] at step
    obtain ⟨resolution, found, _, matching, _, fresh, rfl⟩ := step
    refine ⟨?_, ?_, ?_, ?_⟩
    · intro other member
      rcases List.mem_append.mp member with earlier | last
      · obtain ⟨decided, foundOther, matchingOther, sameOther⟩ := resolved other earlier
        refine ⟨decided, foundOther, matchingOther, fun same => ?_⟩
        have taken := sameOther same
        by_cases again : resolution.decision = .same
        · exact absurd ⟨again, by rw [taken]; rfl⟩ fresh
        · rw [if_neg again]
          exact taken
      · rw [List.mem_singleton] at last
        subst last
        refine ⟨resolution, found, matching, fun same => ?_⟩
        rw [if_pos same]
    · intro decided taken
      by_cases again : resolution.decision = .same
      · rw [if_pos again] at taken
        cases taken
        exact ⟨again, candidate, by simp, matching, found⟩
      · rw [if_neg again] at taken
        obtain ⟨same, other, member, matchingOther, foundOther⟩ := chosen decided taken
        exact ⟨same, other, List.mem_append_left _ member, matchingOther, foundOther⟩
    · simp only [usedBefore, List.map_append, List.map_cons, List.map_nil, List.toFinset_append]
      ext key
      simp only [Finset.mem_insert, Finset.mem_union, List.mem_toFinset, List.mem_singleton]
      tauto
    · simp only [consumedBefore, List.length_append, List.length_singleton]
      omega

/-- The pairs whose resolutions a discovery uses up. -/
def consumedPairs (indexes : ReceiptIndexes) (discovery : DiscoveryReceipt) : Finset PairKey :=
  if (indexes.keepBySource[discovery.source.address]?).isSome then ∅
  else (discovery.candidates.map IdentityCandidate.pairKey).toFinset

def PlannedDisposition.coalescedInto : PlannedDisposition → Option ObjectAddress
  | .coalesce target _ => some target.address
  | .add _ _ => none

/-- What one successful disposition leaves behind. -/
structure DisposesTo (indexes : ReceiptIndexes) (before : Preparation)
    (discovery : DiscoveryReceipt) (disposition : PlannedDisposition) (after : Preparation) :
    Prop where
  disposed : Disposed indexes discovery disposition
  pairs_found : ∀ key ∈ consumedPairs indexes discovery,
    (indexes.resolutionByPair[key]?).isSome = true
  resolutions : after.usedResolutions = before.usedResolutions ∪ consumedPairs indexes discovery
  keep : ∀ address, address ∈ after.usedKeep ↔ address ∈ before.usedKeep ∨
    (address = discovery.source.address ∧ discovery.candidates ≠ [] ∧
      (indexes.keepBySource[discovery.source.address]?).isSome = true)
  targets : ∀ address, address ∈ after.coalescenceTargets ↔
    address ∈ before.coalescenceTargets ∨ disposition.coalescedInto = some address
  fresh : ∀ address, disposition.coalescedInto = some address → address ∉ before.coalescenceTargets
  planned : after.planned = before.planned
  consumed : after.consumedCandidates = before.consumedCandidates + discovery.candidates.length

theorem disposeDiscovery_ok {before after : Preparation} {discovery : DiscoveryReceipt}
    {disposition : PlannedDisposition}
    (success : disposeDiscovery indexes before discovery.source.address discovery =
      .ok (disposition, after)) :
    DisposesTo indexes before discovery disposition after := by
  unfold disposeDiscovery at success
  split at success
  · rename_i empty
    rw [List.isEmpty_iff] at empty
    simp only [bind_eq_ok, refuseIf_eq_ok, pure_eq_ok, Bool.not_eq_true,
      Option.isSome_eq_false_iff, Option.isNone_iff_eq_none] at success
    obtain ⟨_, unkept, same⟩ := success
    cases same
    refine ⟨.noCandidate empty unkept, ?_, ?_, ?_, ?_, ?_, rfl, ?_⟩
    · simp [consumedPairs, empty]
    · simp [consumedPairs, empty]
    · simp [empty]
    · simp [PlannedDisposition.coalescedInto]
    · simp [PlannedDisposition.coalescedInto]
    · simp [empty]
  · rename_i nonempty
    rw [List.isEmpty_iff] at nonempty
    split at success
    · rename_i keep kept
      simp only [bind_eq_ok, refuseIf_eq_ok, pure_eq_ok, not_exists, not_and,
        Bool.not_eq_true, Option.isSome_eq_false_iff, Option.isNone_iff_eq_none] at success
      obtain ⟨_, _, _, unresolved, same⟩ := success
      cases same
      have pairs : consumedPairs indexes discovery = ∅ := by simp [consumedPairs, kept]
      refine ⟨.keepDistinct keep kept nonempty unresolved, ?_, ?_, ?_, ?_, ?_, rfl, rfl⟩
      · simp [pairs]
      · simp [pairs]
      · intro address
        simp only [Finset.mem_insert, kept, Option.isSome_some, and_true]
        tauto
      · simp [PlannedDisposition.coalescedInto]
      · simp [PlannedDisposition.coalescedInto]
    · rename_i unkept
      simp only [bind_eq_ok, refuseIf_eq_ok, Bool.not_eq_true] at success
      obtain ⟨_, complete, progress, run, success⟩ := success
      obtain ⟨resolved, chosen, used, consumed⟩ := resolveCandidates_ok run
      have pairs : consumedPairs indexes discovery =
          (discovery.candidates.map IdentityCandidate.pairKey).toFinset := by
        simp [consumedPairs, unkept]
      have pairsFound : ∀ key ∈ consumedPairs indexes discovery,
          (indexes.resolutionByPair[key]?).isSome = true := by
        intro key member
        rw [pairs, List.mem_toFinset, List.mem_map] at member
        obtain ⟨candidate, member, rfl⟩ := member
        obtain ⟨resolution, found, _⟩ := resolved candidate member
        rw [found]
        rfl
      have noKeep : ∀ address : EntityAddress, address ∈ before.usedKeep ↔
          address ∈ before.usedKeep ∨ (address = discovery.source.address ∧
            discovery.candidates ≠ [] ∧
              (indexes.keepBySource[discovery.source.address]?).isSome = true) := by
        simp [unkept]
      split at success
      · rename_i resolution taken
        simp only [bind_eq_ok, refuseIf_eq_ok, pure_eq_ok] at success
        obtain ⟨_, fresh, same⟩ := success
        cases same
        obtain ⟨decision, candidate, member, matching, found⟩ := chosen resolution taken
        have agrees := IdentityResolutionReceipt.matchesCandidate_iff.mp matching
        refine ⟨.coalesce resolution candidate unkept complete member found agrees.1 agrees.2
          decision ?_, pairsFound, ?_, noKeep, ?_, ?_, rfl, consumed⟩
        · intro other otherMember
          obtain ⟨decided, foundOther, matchingOther, sameOther⟩ := resolved other otherMember
          refine ⟨decided, foundOther,
            (IdentityResolutionReceipt.matchesCandidate_iff.mp matchingOther).1, fun same => ?_⟩
          rw [taken] at sameOther
          exact (Option.some.inj (sameOther same)).symm
        · rw [pairs]
          exact used
        · intro address
          simp only [Finset.mem_insert, PlannedDisposition.coalescedInto, Option.some.injEq]
          tauto
        · intro address into
          simp only [PlannedDisposition.coalescedInto, Option.some.injEq] at into
          exact into ▸ fresh
      · rename_i untaken
        simp only [pure_eq_ok] at success
        cases success
        refine ⟨.reviewedDifferent unkept nonempty ?_, pairsFound, ?_, noKeep, ?_, ?_, rfl,
          consumed⟩
        · intro candidate member
          obtain ⟨resolution, found, matching, same⟩ := resolved candidate member
          refine ⟨resolution, found,
            (IdentityResolutionReceipt.matchesCandidate_iff.mp matching).1, ?_⟩
          rcases decided : resolution.decision with _ | _
          · rw [untaken] at same
            cases same decided
          · rfl
        · rw [pairs]
          exact used
        · simp [PlannedDisposition.coalescedInto]
        · simp [PlannedDisposition.coalescedInto]

end Candidates

/-! ## What a preparation says -/

/-- The plan for one discovered source entity. -/
structure PlansFor (indexes : ReceiptIndexes) (discovery : DiscoveryReceipt)
    (planned : PlannedEntity) : Prop where
  logicalId : planned.logicalId = discovery.source.address.logicalId
  revision : planned.revision = discovery.source.revision
  snapshot : planned.snapshot = discovery.source.snapshot
  disposed : Disposed indexes discovery planned.disposition

/-- The addresses coalesced into, in the order of the plan. -/
def coalescedAddresses (planned : List PlannedEntity) : List ObjectAddress :=
  planned.filterMap fun entity => entity.disposition.coalescedInto

/-- The indexes hold exactly the receipts, all of them current. -/
structure IndexesReceipts (receipts : PlanningReceipts) (policy : MergePolicy)
    (indexes : ReceiptIndexes) : Prop where
  discovery : ∀ address found, indexes.discoveries[address]? = some found ↔
    found ∈ receipts.discoveries ∧ found.source.address = address
  resolution : ∀ key found, indexes.resolutionByPair[key]? = some found ↔
    found ∈ receipts.resolutions ∧ found.pairKey = key
  keep : ∀ address found, indexes.keepBySource[address]? = some found ↔
    found ∈ receipts.keepDistinct ∧ found.source.address = address
  current : ∀ discovery ∈ receipts.discoveries,
    discovery.policyGeneration = policy.identityPolicyGeneration
  discoveries_perm : (indexes.discoveries.toList.map Prod.snd).Perm receipts.discoveries
  discoveries_size : indexes.discoveries.size = receipts.discoveries.length
  resolutions_size : indexes.resolutionByPair.size = receipts.resolutions.length
  keeps_size : indexes.keepBySource.size = receipts.keepDistinct.length

theorem indexReceipts_ok
    {indexes : ReceiptIndexes} (indexed : indexReceipts receipts policy = .ok indexes) :
    IndexesReceipts receipts policy indexes := by
  simp only [indexReceipts, bind_eq_ok, pure_eq_ok] at indexed
  obtain ⟨discoveries, first, resolutions, second, keeps, third, rfl⟩ := indexed
  exact {
    discovery := (collectBy_ok first).2.2
    resolution := (collectBy_ok second).2.2
    keep := (collectBy_ok third).2.2
    current := fun discovery member => not_not.mp ((collectBy_ok first).1 discovery member)
    discoveries_perm := collectBy_toList_perm first
    discoveries_size := collectBy_size first
    resolutions_size := collectBy_size second
    keeps_size := collectBy_size third }

/-- The outcome of a successful preparation. -/
structure Prepared (receipts : PlanningReceipts) (policy : MergePolicy)
    (indexes : ReceiptIndexes) (planned : List PlannedEntity) (accounting : MergeAccounting) :
    Prop where
  indexed : IndexesReceipts receipts policy indexes
  plans : List.Forall₂ (fun entry entity => PlansFor indexes entry.2 entity)
    indexes.discoveries.toList planned
  resolutions_consumed : ∀ resolution ∈ receipts.resolutions,
    ∃ discovery ∈ receipts.discoveries,
      indexes.keepBySource[discovery.source.address]? = none ∧
        ∃ candidate ∈ discovery.candidates, candidate.pairKey = resolution.pairKey
  keeps_consumed : ∀ keep ∈ receipts.keepDistinct, ∃ discovery ∈ receipts.discoveries,
    discovery.source.address = keep.source.address ∧ discovery.candidates ≠ []
  targets_distinct : (coalescedAddresses planned).Nodup
  accounting_eq : accounting = {
    consumedCandidates := (receipts.discoveries.map fun discovery =>
      discovery.candidates.length).sum
    consumedDiscoveries := receipts.discoveries.length
    consumedResolutions := receipts.resolutions.length
    consumedKeepDistinct := receipts.keepDistinct.length }

/-- What holds after some of the discoveries are disposed of. -/
structure PreparedSoFar (indexes : ReceiptIndexes)
    (seen : List (EntityAddress × DiscoveryReceipt)) (state : Preparation) : Prop where
  plans : List.Forall₂ (fun entry entity => PlansFor indexes entry.2 entity) seen state.planned
  resolutions : ∀ key ∈ state.usedResolutions, (indexes.resolutionByPair[key]?).isSome = true ∧
    ∃ entry ∈ seen, key ∈ consumedPairs indexes entry.2
  keeps : ∀ address ∈ state.usedKeep, (indexes.keepBySource[address]?).isSome = true ∧
    ∃ entry ∈ seen, entry.2.source.address = address ∧ entry.2.candidates ≠ []
  targets_distinct : (coalescedAddresses state.planned).Nodup
  targets : ∀ address, address ∈ state.coalescenceTargets ↔
    address ∈ coalescedAddresses state.planned
  consumed : state.consumedCandidates = (seen.map fun entry => entry.2.candidates.length).sum

theorem preparedSoFar_step {indexes : ReceiptIndexes}
    {seen : List (EntityAddress × DiscoveryReceipt)} {entry : EntityAddress × DiscoveryReceipt}
    {before after : Preparation} (keyed : entry.1 = entry.2.source.address)
    (soFar : PreparedSoFar indexes seen before)
    (step : prepareDiscovery indexes before entry = .ok after) :
    PreparedSoFar indexes (seen ++ [entry]) after := by
  obtain ⟨⟨disposition, disposed⟩, success, same⟩ := bind_eq_ok.mp step
  rw [keyed] at success
  have leaves := disposeDiscovery_ok success
  rw [pure_eq_ok] at same
  subst same
  simp only [leaves.planned]
  have extended : ∀ entity : PlannedEntity, coalescedAddresses (before.planned ++ [entity]) =
      coalescedAddresses before.planned ++ entity.disposition.coalescedInto.toList := by
    intro entity
    rw [coalescedAddresses, List.filterMap_append]
    cases into : entity.disposition.coalescedInto <;> simp [coalescedAddresses, into]
  refine ⟨?_, ?_, ?_, ?_, ?_, ?_⟩
  · refine List.rel_append soFar.plans (.cons ⟨?_, rfl, rfl, leaves.disposed⟩ .nil)
    rw [keyed]
  · intro key member
    rw [leaves.resolutions, Finset.mem_union] at member
    rcases member with earlier | now
    · obtain ⟨found, other, otherMember, uses⟩ := soFar.resolutions key earlier
      exact ⟨found, other, List.mem_append_left _ otherMember, uses⟩
    · exact ⟨leaves.pairs_found key now, entry, by simp, now⟩
  · intro address member
    rcases (leaves.keep address).mp member with earlier | ⟨rfl, nonempty, kept⟩
    · obtain ⟨found, other, otherMember, uses⟩ := soFar.keeps address earlier
      exact ⟨found, other, List.mem_append_left _ otherMember, uses⟩
    · exact ⟨kept, entry, by simp, rfl, nonempty⟩
  · rw [extended, List.nodup_append]
    refine ⟨soFar.targets_distinct, ?_, ?_⟩
    · cases disposition.coalescedInto <;> simp
    · rintro address member other into rfl
      rw [Option.mem_toList] at into
      exact leaves.fresh address into ((soFar.targets address).mpr member)
  · intro address
    rw [extended, List.mem_append, Option.mem_toList, ← soFar.targets, leaves.targets]
  · simp only [leaves.consumed, soFar.consumed, List.map_append, List.map_cons, List.map_nil,
      List.sum_append, List.sum_cons, List.sum_nil]
    omega

/-- **A successful preparation** plans every discovery once, and leaves no receipt over. -/
theorem prepareDispositions_ok {planned : List PlannedEntity} {accounting : MergeAccounting}
    (success : prepareDispositions receipts policy = .ok (planned, accounting)) :
    ∃ indexes, Prepared receipts policy indexes planned accounting := by
  obtain ⟨indexes, indexing, success⟩ := bind_eq_ok.mp success
  have indexed := indexReceipts_ok indexing
  simp only [consumeReceipts, bind_eq_ok, refuseIf_eq_ok, pure_eq_ok, not_or, not_not] at success
  obtain ⟨state, run, _, ⟨resolutionsUsed, keepsUsed⟩, same⟩ := success
  cases same
  have keyed : ∀ entry ∈ indexes.discoveries.toList,
      entry.2 ∈ receipts.discoveries ∧ entry.2.source.address = entry.1 := by
    rintro ⟨address, discovery⟩ member
    exact (indexed.discovery address discovery).mp (OrderedMap.mem_toList.mp member)
  have reached : (∀ entry ∈ indexes.discoveries.toList, entry ∈ indexes.discoveries.toList) →
      PreparedSoFar indexes indexes.discoveries.toList state := by
    refine foldlM_prefix_induction (motive := fun seen state =>
      (∀ entry ∈ seen, entry ∈ indexes.discoveries.toList) → PreparedSoFar indexes seen state)
      ?_ ?_ run
    · intro _
      exact ⟨.nil, by simp, by simp, by simp [coalescedAddresses], by simp [coalescedAddresses],
        rfl⟩
    · intro seen entry before after soFar step within
      refine preparedSoFar_step (keyed entry (within entry (by simp))).2.symm ?_ step
      exact soFar fun other member => within other (List.mem_append_left _ member)
  have final := reached fun _ member => member
  refine ⟨indexes, indexed, final.plans, ?_, ?_, final.targets_distinct, ?_⟩
  · intro resolution member
    have found := (indexed.resolution resolution.pairKey resolution).mpr ⟨member, rfl⟩
    have used := OrderedMap.mem_of_card_eq_size (fun key member => (final.resolutions key member).1)
      resolutionsUsed found
    obtain ⟨_, entry, entryMember, consumes⟩ := final.resolutions _ used
    refine ⟨entry.2, (keyed entry entryMember).1, ?_⟩
    unfold consumedPairs at consumes
    split at consumes
    · cases consumes
    · rename_i unkept
      rw [List.mem_toFinset, List.mem_map] at consumes
      exact ⟨by simpa using unkept, consumes⟩
  · intro keep member
    have found := (indexed.keep keep.source.address keep).mpr ⟨member, rfl⟩
    have used := OrderedMap.mem_of_card_eq_size (fun address member => (final.keeps address member).1)
      keepsUsed found
    obtain ⟨_, entry, entryMember, same, nonempty⟩ := final.keeps _ used
    exact ⟨entry.2, (keyed entry entryMember).1, same, nonempty⟩
  · have consumed : state.consumedCandidates =
        (receipts.discoveries.map fun discovery => discovery.candidates.length).sum := by
      rw [final.consumed, ← (indexed.discoveries_perm.map _).sum_eq, List.map_map]
      rfl
    rw [consumed, indexed.discoveries_size, resolutionsUsed, indexed.resolutions_size, keepsUsed,
      indexed.keeps_size]

end OpenMemory.Merge
