import OpenMemory.Merge.Reference

/-!
# The planner beside the reference

On the inputs of a successful run the reference disposes of the source entities
as the planner did (`referenceDisposition_eq`), and so the records that follow
arrive under the same keys. What they find may differ: an index of the planner
answers with the first of the held entries that have a key, a map of the
reference with the last (`referenceLand_run`).
-/

namespace OpenMemory.Merge

open Foundation

/-! ## Looking up the last entry -/

section Last

variable {κ α : Type} [LinearOrder κ] {entries : List (κ × α)}

theorem mem_of_lastByKey {key : κ} {value : α} (found : (lastByKey entries)[key]? = some value) :
    (key, value) ∈ entries := by
  rw [indexes_lastByKey] at found
  exact List.mem_reverse.mp (mem_of_lookup found)

theorem lastByKey_eq_none {key : κ} :
    (lastByKey entries)[key]? = none ↔ ∀ entry ∈ entries, entry.1 ≠ key := by
  rw [indexes_lastByKey, lookup_eq_none_iff_not_mem, List.map_reverse, List.mem_reverse,
    List.mem_map]
  simp only [not_exists, not_and, ne_eq]

/-- A key with one value only is found with this value. -/
theorem lastByKey_eq_some {key : κ} {value : α} (member : (key, value) ∈ entries)
    (only : ∀ other, (key, other) ∈ entries → other = value) :
    (lastByKey entries)[key]? = some value := by
  cases found : (lastByKey entries)[key]? with
  | none => exact absurd rfl (lastByKey_eq_none.mp found _ member)
  | some other => rw [only other (mem_of_lastByKey found)]

end Last

/-! ## Source entities -/

section Entities

variable [Blake3] {request : MergeRequest} {decisions : Decisions}

namespace Outcome

/-- The receipt that the reference coalesces a settled entity by, if there is one. -/
theorem referenceSame_eq (outcome : Outcome request decisions) {settlement : Settlement}
    (member : settlement ∈ decisions.settlements) {receipt : IdentityResolutionReceipt}
    (found : (lastByKey ((request.receipts.resolutions.filter fun receipt =>
      receipt.decision = .same).map fun receipt =>
        (receipt.source.address.logicalId, receipt)))[settlement.record.address.logicalId]? =
          some receipt) :
    settlement.planned.disposition = .coalesce receipt.target receipt.hash := by
  obtain ⟨other, listed, sameEntry⟩ := List.mem_map.mp (mem_of_lastByKey found)
  obtain ⟨sameId, rfl⟩ := Prod.mk.inj sameEntry
  obtain ⟨resolved, same⟩ := List.mem_filter.mp listed
  obtain ⟨settled, settledMember, coalesces, itsId⟩ :=
    outcome.coalesces_of_same resolved (of_decide_eq_true same)
  rw [outcome.settlement_unique member settledMember (sameId.symm.trans itsId.symm)]
  exact coalesces

/-- The keep-distinct receipt the reference finds is the one in the index. -/
theorem referenceKeep_eq (outcome : Outcome request decisions) {discovery : DiscoveryReceipt}
    (member : discovery ∈ request.receipts.discoveries) :
    (lastByKey (request.receipts.keepDistinct.map fun receipt =>
      (receipt.source.address.logicalId, receipt)))[discovery.source.address.logicalId]? =
        decisions.indexes.keepBySource[discovery.source.address]? := by
  -- a receipt for the identifier is one for the address: it is consumed by this discovery
  have keyed : ∀ keep ∈ request.receipts.keepDistinct,
      keep.source.address.logicalId = discovery.source.address.logicalId →
        decisions.indexes.keepBySource[discovery.source.address]? = some keep := by
    intro keep listed sameId
    obtain ⟨other, otherMember, sameAddress, _⟩ := outcome.prepared.keeps_consumed keep listed
    have sameDiscovery := outcome.discovery_unique otherMember member (by rw [sameAddress, sameId])
    exact (outcome.prepared.indexed.keep _ keep).mpr ⟨listed, sameDiscovery ▸ sameAddress.symm⟩
  cases kept : decisions.indexes.keepBySource[discovery.source.address]? with
  | none =>
    refine lastByKey_eq_none.mpr ?_
    rintro _ listed sameId
    obtain ⟨keep, keepMember, rfl⟩ := List.mem_map.mp listed
    have found := keyed keep keepMember sameId
    rw [kept] at found
    cases found
  | some keep =>
    obtain ⟨listed, sameAddress⟩ := (outcome.prepared.indexed.keep _ keep).mp kept
    refine lastByKey_eq_some (List.mem_map.mpr ⟨keep, listed, by rw [sameAddress]⟩) ?_
    intro other otherListed
    obtain ⟨another, anotherMember, sameEntry⟩ := List.mem_map.mp otherListed
    obtain ⟨sameId, rfl⟩ := Prod.mk.inj sameEntry
    have found := keyed another anotherMember sameId
    rw [kept] at found
    exact (Option.some.inj found).symm

/-- **The reference disposes of a source entity as the planner does.** -/
theorem referenceDisposition_eq (outcome : Outcome request decisions) {settlement : Settlement}
    (member : settlement ∈ decisions.settlements) :
    referenceDisposition request.receipts settlement.record =
      some (settlement.disposition, settlement.disposition.resultId) := by
  have settles := (outcome.entities.valid settlement member).settles
  obtain ⟨discovery, discovered, plans⟩ := outcome.discovery_of_settlement member
  have sameId := outcome.settlement_logicalId member plans
  have disposed := plans.disposed
  rw [referenceDisposition]
  cases resolved : (lastByKey ((request.receipts.resolutions.filter fun receipt =>
      receipt.decision = .same).map fun receipt =>
        (receipt.source.address.logicalId, receipt)))[settlement.record.address.logicalId]? with
  | some receipt =>
    rw [outcome.referenceSame_eq member resolved] at settles
    generalize settlement.disposition = disposition at settles ⊢
    cases settles with
    | coalesce _ _ _ _ _ _ _ => rfl
  | none =>
    have found : (lastByKey (request.receipts.discoveries.map fun receipt =>
        (receipt.source.address.logicalId, receipt)))[settlement.record.address.logicalId]? =
          some discovery := by
      refine lastByKey_eq_some (List.mem_map.mpr ⟨discovery, discovered, by rw [sameId]⟩) ?_
      intro other listed
      obtain ⟨another, anotherMember, sameEntry⟩ := List.mem_map.mp listed
      obtain ⟨itsId, rfl⟩ := Prod.mk.inj sameEntry
      exact outcome.discovery_unique anotherMember discovered (itsId.trans sameId)
    have keeps := outcome.referenceKeep_eq discovered
    rw [← sameId] at keeps
    simp only [found, keeps, Option.bind_eq_bind, Option.bind_some]
    generalize settlement.disposition = disposition at settles ⊢
    generalize planned : settlement.planned.disposition = plan at settles disposed
    cases disposed with
    | noCandidate empty unkept =>
      cases settles
      simp [unkept, empty, EntityDisposition.resultId]
    | keepDistinct keep kept _ _ =>
      cases settles
      simp [kept, EntityDisposition.resultId]
    | reviewedDifferent unkept nonempty _ =>
      cases settles
      simp [unkept, nonempty, EntityDisposition.resultId]
    | coalesce resolution candidate _ _ _ _ _ _ _ _ =>
      obtain ⟨_, _, receipt, listed, _, _, same, itsSource, _, _, itsPlan⟩ :=
        outcome.same_of_coalesces member planned
      have absent := lastByKey_eq_none.mp resolved (receipt.source.address.logicalId, receipt)
        (List.mem_map.mpr ⟨receipt, List.mem_filter.mpr ⟨listed, decide_eq_true same⟩, rfl⟩)
      refine absurd ?_ absent
      rw [outcome.settlement_logicalId member itsPlan, itsSource]

end Outcome

end Entities

/-! ## The loops of the reference -/

section Loops

variable [Blake3]

/-- The loop over source entities, once their dispositions are known. -/
theorem referenceEntity_run {receipts : PlanningReceipts} {settlements : List Settlement}
    (disposes : ∀ settlement ∈ settlements, referenceDisposition receipts settlement.record =
      some (settlement.disposition, settlement.disposition.resultId))
    (progress : ReferenceProgress LogicalId ResultObjectId) :
    (settlements.map Settlement.record).foldlM (referenceEntity receipts) progress =
      some ⟨(settlements.map fun settlement => (settlement.record.address.logicalId,
          settlement.disposition.resultId)).foldl (fun map entry => map.insert entry.1 entry.2)
            progress.map,
        progress.actions ++ settlements.map Settlement.action⟩ := by
  induction settlements generalizing progress with
  | nil => simp
  | cons first rest ih =>
    have step : referenceEntity receipts progress first.record =
        some ⟨progress.map.insert first.record.address.logicalId first.disposition.resultId,
          progress.actions ++ [first.action]⟩ := by
      rw [referenceEntity, disposes first List.mem_cons_self]
      rfl
    rw [List.map_cons, List.foldlM_cons, step, Option.bind_eq_bind, Option.bind_some,
      ih fun settlement member => disposes settlement (List.mem_cons_of_mem _ member)]
    simp

variable {R K κ : Type} [LinearOrder κ] [BEq κ] [LawfulBEq κ] {address : R → ObjectAddress}
  {order : K → κ} {key : R → Option K}

/-- The landings, with what they find replaced. -/
def refound (landings : List (Landing R K)) (found : List (Option ResultObjectId)) :
    List (Landing R K) :=
  List.zipWith (fun landing found => { landing with found := found }) landings found

/-- The landings, with what they find in the map of the reference: held entries answer
in reverse order. -/
def relanded (address : R → ObjectAddress) (order : K → κ) (held : List (K × ResultObjectId))
    (landings : List (Landing R K)) : List (Landing R K) :=
  refound landings (arrivals (held.map fun entry => (order entry.1, entry.2)).reverse
    (landings.map fun landing => (order landing.key,
      ResultObjectId.qualified (qualify (address landing.record)))))

/-- The loop over source observations or relations, once their keys are known: each
finds what its key finds among the held entries and those that came before. -/
theorem referenceLand_run {action : Landing R K → MergeAction} {landings : List (Landing R K)}
    (keys : ∀ landing ∈ landings, key landing.record = some landing.key)
    {held : List (κ × ResultObjectId)} {progress : ReferenceProgress κ ResultObjectId}
    (indexed : Indexes progress.map held) :
    ∃ final, (landings.map Landing.record).foldlM (referenceLand address order key action) progress =
        some final ∧
      final.actions = progress.actions ++ (refound landings (arrivals held (landings.map
        fun landing => (order landing.key,
          ResultObjectId.qualified (qualify (address landing.record)))))).map action := by
  induction landings generalizing held progress with
  | nil => exact ⟨progress, rfl, by simp [refound]⟩
  | cons first rest ih =>
    have later := fun landing member => keys landing (List.mem_cons_of_mem first member)
    have known := keys first List.mem_cons_self
    simp only [List.map_cons, List.foldlM_cons, referenceLand, known, indexed (order first.key),
      Option.bind_eq_bind, Option.bind_some]
    cases finds : held.lookup (order first.key) with
    | some target =>
      have joined : Indexes progress.map (held ++ [(order first.key,
          ResultObjectId.qualified (qualify (address first.record)))]) :=
        indexed.concat_of_some finds
      obtain ⟨final, run, actions⟩ := @ih later _ { progress with
        actions := progress.actions ++ [action { first with found := some target }] } joined
      refine ⟨final, run, ?_⟩
      rw [actions]
      simp [refound, arrivals, finds]
    | none =>
      obtain ⟨final, run, actions⟩ := @ih later _ ⟨progress.map.insert (order first.key)
        (.qualified (qualify (address first.record))),
          progress.actions ++ [action { first with found := none }]⟩
        (indexed.insert_of_none finds)
      refine ⟨final, run, ?_⟩
      rw [actions]
      simp [refound, arrivals, finds]

end Loops

end OpenMemory.Merge
