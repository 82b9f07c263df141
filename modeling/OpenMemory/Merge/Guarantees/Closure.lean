import OpenMemory.Merge.Fixture
import OpenMemory.Merge.Origins
import OpenMemory.Merge.Planner.Acceptance

/-!
# Whether a result can be merged again

A result could become the target of a later merge if every one of its objects
passes the constructor's check on origins, and each of its collections the check
on its length. The planner checks neither: it bounds each record and each
snapshot it reads, not what they add up to. `RoomFor` says, of the inputs alone,
that nothing grows too large; a successful run has a result that can be rebuilt
exactly when there is room for it (`rebuilt_iff_room`).
-/

namespace OpenMemory.Merge

open Foundation

/-! ## Rebuilding -/

/-- The constructor call that gives the object an action opens its origins. -/
def MergeAction.rebuild (origins : List OriginContribution) : MergeAction → MergeResult Unit
  | .keepTargetEntity target => do
      let _ ← target.withOrigins origins
      pure ()
  | .applyEntityDisposition source (.addDistinct ..) => do
      let _ ← source.withOrigins origins
      pure ()
  | .keepTargetObservation target _ => do
      let _ ← target.withOrigins origins
      pure ()
  | .addObservation source _ _ => do
      let _ ← source.withOrigins origins
      pure ()
  | .keepTargetRelation target _ _ => do
      let _ ← target.withOrigins origins
      pure ()
  | .addRelation source _ _ _ => do
      let _ ← source.withOrigins origins
      pure ()
  | _ => pure ()

/-- Every object of the result passes its constructor with the origins gathered for it,
and every collection passes the check on its length. -/
structure Rebuilt (actions : List MergeAction) : Prop where
  objects : ∀ action ∈ actions, action.contribution.opens = true →
    action.rebuild (ascending (gathered action.contribution.kind action.contribution.result
      actions)) = .ok ()
  entities : validateCount "entities" (opened .entity actions).length = .ok ()
  observations : validateCount "observations" (opened .observation actions).length = .ok ()
  relations : validateCount "relations" (opened .relation actions).length = .ok ()

theorem rebuild_eq_ok {action : MergeAction} (opens : action.contribution.opens = true)
    {origins : Finset OriginContribution} :
    action.rebuild (ascending origins) = .ok () ↔ OriginsBounded origins := by
  have set : (ascending origins).toFinset = origins := by
    ext origin
    rw [List.mem_toFinset, mem_ascending]
  have checked : ∀ {R : Type} (bounded : OriginsBounded origins → R) (error : MergeError),
      ((if h : OriginsBounded origins then .ok (bounded h) else .error error :
        MergeResult R) >>= fun _ => pure ()) = .ok () ↔ OriginsBounded origins := by
    intro R bounded error
    split
    · rename_i within
      exact iff_of_true rfl within
    · rename_i beyond
      exact iff_of_false (fun impossible => nomatch impossible) beyond
  cases action with
  | applyEntityDisposition source disposition =>
    cases disposition with
    | coalesce => cases opens
    | addDistinct => simp only [MergeAction.rebuild, EntityRecord.withOrigins, set, checked]
  | mergeObservationOrigin => cases opens
  | mergeRelationOrigin => cases opens
  | keepTargetEntity => simp only [MergeAction.rebuild, EntityRecord.withOrigins, set, checked]
  | keepTargetObservation =>
    simp only [MergeAction.rebuild, ObservationRecord.withOrigins, set, checked]
  | addObservation => simp only [MergeAction.rebuild, ObservationRecord.withOrigins, set, checked]
  | keepTargetRelation => simp only [MergeAction.rebuild, RelationRecord.withOrigins, set, checked]
  | addRelation => simp only [MergeAction.rebuild, RelationRecord.withOrigins, set, checked]

/-! ## Room -/

section Room

variable {R K : Type} [DecidableEq K]

/-- The origins that fold into the object of a key: those of the first held record with
the key, and those of all incoming ones. -/
def foldedOrigins (origins : R → Finset OriginContribution) (heldKey key : R → K)
    (held incoming : List R) (at_ : K) : Finset OriginContribution :=
  ((held.find? fun record => heldKey record = at_).toList ++
    incoming.filter fun record => key record = at_).foldr
      (fun record folded => origins record ∪ folded) ∅

/-- Incoming records fold into held ones and into each other within the bounds. -/
structure FoldsWithin (origins : R → Finset OriginContribution) (heldKey key : R → K)
    (held incoming : List R) : Prop where
  origins_bounded : ∀ record ∈ incoming,
    (foldedOrigins origins heldKey key held incoming (key record)).card ≤ maxOrigins
  count_bounded : held.length +
    ((incoming.map key).toFinset \ (held.map heldKey).toFinset).card ≤ maxSnapshotRecords

theorem mem_foldedOrigins {origins : R → Finset OriginContribution} {heldKey key : R → K}
    {held incoming : List R} {at_ : K} {origin : OriginContribution} :
    origin ∈ foldedOrigins origins heldKey key held incoming at_ ↔
      (∃ record, (held.find? fun record => heldKey record = at_) = some record ∧
        origin ∈ origins record) ∨
      ∃ record ∈ incoming, key record = at_ ∧ origin ∈ origins record := by
  have union : ∀ records : List R,
      origin ∈ records.foldr (fun record folded => origins record ∪ folded) ∅ ↔
        ∃ record ∈ records, origin ∈ origins record := by
    intro records
    induction records with
    | nil => simp
    | cons first rest ih => rw [List.foldr_cons, Finset.mem_union, ih, List.exists_mem_cons_iff]
  rw [foldedOrigins, union]
  simp only [List.mem_append, Option.mem_toList, List.mem_filter, decide_eq_true_eq]
  constructor
  · rintro ⟨record, found | ⟨member, keyed⟩, brought⟩
    · exact .inl ⟨record, found, brought⟩
    · exact .inr ⟨record, member, keyed, brought⟩
  · rintro (⟨record, found, brought⟩ | ⟨record, member, keyed, brought⟩)
    · exact ⟨record, .inl found, brought⟩
    · exact ⟨record, .inr ⟨member, keyed⟩, brought⟩

end Room

section Requests

variable [Blake3] (request : MergeRequest)

/-- What the source entity of this identifier becomes: the target that a receipt
resolves it same with, or an object of its own. -/
def MergeRequest.resultOf (id : LogicalId) : ResultObjectId :=
  match request.receipts.resolutions.find? fun resolution =>
      resolution.decision = .same ∧ resolution.source.address.logicalId = id with
  | some resolution => .target resolution.target.address.logicalId
  | none => .qualified (qualify ⟨request.source.header.spaceId, id⟩)

/-- The key a source observation arrives under. -/
def MergeRequest.observationKeyOf (record : ObservationRecord) : ObservationKey :=
  (request.resultOf record.entity.logicalId, record.lifecycle, record.content)

/-- The key a source relation arrives under. -/
def MergeRequest.relationKeyOf (record : RelationRecord) : RelationKey :=
  (request.resultOf record.subject.logicalId, record.predicate,
    request.resultOf record.object.logicalId, record.lifecycle)

/-- There is room for the source in the target. -/
structure MergeRequest.RoomFor : Prop where
  entities : FoldsWithin EntityRecord.origins
    (fun record => ResultObjectId.target record.address.logicalId)
    (fun record => request.resultOf record.address.logicalId)
    request.target.entities.records request.source.entities.records
  observations : FoldsWithin ObservationRecord.origins
    (fun record => observationKey (heldObservation record).1)
    (fun record => observationKey (request.observationKeyOf record))
    request.target.observations.records request.source.observations.records
  relations : FoldsWithin RelationRecord.origins
    (fun record => relationKey (heldRelation record).1)
    (fun record => relationKey (request.relationKeyOf record))
    request.target.relations.records request.source.relations.records

end Requests

/-! ## One kind of object -/

/-- The objects of a kind are the held records and what the landings end up in, and
they gather the origins of both. -/
structure Gathers {R L : Type} (kind : ResultKind) (actions : List MergeAction)
    (address : R → ObjectAddress) (origins : R → Finset OriginContribution) (held : List R)
    (landings : List L) (record : L → R) (home : L → ResultObjectId) : Prop where
  opened_iff : ∀ result, result ∈ opened kind actions ↔
    (∃ kept ∈ held, ResultObjectId.target (address kept).logicalId = result) ∨
      ∃ landing ∈ landings, home landing = result
  gathered_iff : ∀ result origin, origin ∈ gathered kind result actions ↔
    (∃ kept ∈ held, ResultObjectId.target (address kept).logicalId = result ∧
      origin ∈ origins kept) ∨
      ∃ landing ∈ landings, home landing = result ∧ origin ∈ origins (record landing)

/-- Landings end up by their keys. -/
structure HomedBy {R L K : Type} [DecidableEq K] (address : R → ObjectAddress) (heldKey key : R → K)
    (held : List R) (landings : List L) (record : L → R) (home : L → ResultObjectId) : Prop where
  together : ∀ first ∈ landings, ∀ last ∈ landings,
    home first = home last ↔ key (record first) = key (record last)
  finds : ∀ landing ∈ landings, ∀ kept ∈ held,
    home landing = .target (address kept).logicalId ↔
      held.find? (fun other => heldKey other = key (record landing)) = some kept

section Kinds

variable {R L K : Type} [DecidableEq K] {kind : ResultKind} {actions : List MergeAction}
  {address : R → ObjectAddress} {origins : R → Finset OriginContribution} {heldKey key : R → K}
  {held : List R} {landings : List L} {record : L → R} {home : L → ResultObjectId}

theorem gathered_home (gathers : Gathers kind actions address origins held landings record home)
    (homed : HomedBy address heldKey key held landings record home) {landing : L}
    (landed : landing ∈ landings) :
    gathered kind (home landing) actions =
      foldedOrigins origins heldKey key held (landings.map record) (key (record landing)) := by
  ext origin
  rw [gathers.gathered_iff, mem_foldedOrigins]
  refine or_congr ?_ ?_
  · constructor
    · rintro ⟨kept, member, same, brought⟩
      exact ⟨kept, (homed.finds landing landed kept member).mp same.symm, brought⟩
    · rintro ⟨kept, found, brought⟩
      have member := List.mem_of_find?_eq_some found
      exact ⟨kept, member, ((homed.finds landing landed kept member).mpr found).symm, brought⟩
  · constructor
    · rintro ⟨other, member, same, brought⟩
      exact ⟨_, List.mem_map_of_mem member, (homed.together other member landing landed).mp same,
        brought⟩
    · rintro ⟨_, member, keyed, brought⟩
      obtain ⟨other, otherMember, rfl⟩ := List.mem_map.mp member
      exact ⟨other, otherMember, (homed.together other otherMember landing landed).mpr keyed,
        brought⟩

/-- The objects of a kind stay bounded exactly when the records fold within the bounds. -/
theorem objects_bounded_iff (bounded : ∀ record, OriginsBounded (origins record))
    (gathers : Gathers kind actions address origins held landings record home)
    (homed : HomedBy address heldKey key held landings record home)
    (distinct : (held.map fun kept => (address kept).logicalId).Nodup) :
    (∀ result ∈ opened kind actions, OriginsBounded (gathered kind result actions)) ↔
      ∀ incoming ∈ landings.map record, (foldedOrigins origins heldKey key held
        (landings.map record) (key incoming)).card ≤ maxOrigins := by
  constructor
  · intro within incoming member
    obtain ⟨landing, landed, rfl⟩ := List.mem_map.mp member
    rw [← gathered_home gathers homed landed]
    exact (within _ ((gathers.opened_iff _).mpr (.inr ⟨landing, landed, rfl⟩))).2
  · intro within result isOpen
    by_cases joined : ∃ landing ∈ landings, home landing = result
    · obtain ⟨landing, landed, rfl⟩ := joined
      refine ⟨?_, ?_⟩
      · obtain ⟨origin, brought⟩ := (bounded (record landing)).1
        exact ⟨origin, (gathers.gathered_iff _ _).mpr (.inr ⟨landing, landed, rfl, brought⟩)⟩
      · rw [gathered_home gathers homed landed]
        exact within _ (List.mem_map_of_mem landed)
    · -- an object that nothing joins has the origins of its own record
      rcases (gathers.opened_iff result).mp isOpen with ⟨kept, member, rfl⟩ | isHome
      · have itself : gathered kind (.target (address kept).logicalId) actions = origins kept := by
          ext origin
          rw [gathers.gathered_iff]
          constructor
          · rintro (⟨other, otherMember, same, brought⟩ | ⟨landing, landed, same, _⟩)
            · rwa [List.inj_on_of_nodup_map distinct otherMember member
                (ResultObjectId.target.inj same)] at brought
            · exact absurd ⟨landing, landed, same⟩ joined
          · intro brought
            exact .inl ⟨kept, member, rfl, brought⟩
        rw [itself]
        exact bounded kept
      · exact absurd isHome joined

theorem lookup_map_eq_find? [BEq K] [LawfulBEq K] (result : R → ResultObjectId) (at_ : K) :
    (held.map fun kept => (heldKey kept, result kept)).lookup at_ =
      (held.find? fun kept => heldKey kept = at_).map result := by
  induction held with
  | nil => rfl
  | cons first rest ih =>
    by_cases same : at_ = heldKey first
    · subst same
      simp
    · rw [List.map_cons, lookup_cons_of_ne same, ih, List.find?_cons_of_neg]
      simpa using Ne.symm same

end Kinds

/-! ## Observations and relations -/

section Landings

variable [Blake3] {R K : Type} {address : R → ObjectAddress} {digest : K → SemanticHash}
  {heldEntry : R → K × ResultObjectId} {keyOf : R → K} {held : List R} {ids : Finset String}
  {landings : List (Landing R K)}

/-- Where a landing ends up. -/
def Landing.home (address : R → ObjectAddress) (landing : Landing R K) : ResultObjectId :=
  landing.found.getD (.qualified (qualify (address landing.record)))

theorem Landed.residents_distinct
    (landed : Landed address digest (held.map heldEntry) ids landings)
    (entries : ∀ kept, (heldEntry kept).2 = .target (address kept).logicalId)
    (distinct : (held.map fun kept => (address kept).logicalId).Nodup) :
    ((digested digest (held.map heldEntry) ++ (landings.filter fun landing =>
      landing.found.isNone).map (Landing.digestedEntry address digest)).map Prod.snd).Nodup := by
  have kept : (digested digest (held.map heldEntry)).map Prod.snd =
      (held.map fun kept => (address kept).logicalId).map .target := by
    simp only [digested, List.map_map]
    exact List.map_congr_left fun record _ => entries record
  have added : ((landings.filter fun landing => landing.found.isNone).map
      (Landing.digestedEntry address digest)).map Prod.snd =
        (addedIds address landings).map .qualified := by
    rw [addedIds, List.map_map, List.map_map]
    rfl
  rw [List.map_append, kept, added, List.nodup_append]
  refine ⟨distinct.map fun _ _ same => ResultObjectId.target.inj same,
    landed.added_distinct.map fun _ _ same => ResultObjectId.qualified.inj same, ?_⟩
  rintro result isKept other isAdded rfl
  obtain ⟨_, _, rfl⟩ := List.mem_map.mp isKept
  obtain ⟨_, _, impossible⟩ := List.mem_map.mp isAdded
  cases impossible

theorem Landed.homedBy (landed : Landed address digest (held.map heldEntry) ids landings)
    (entries : ∀ kept, (heldEntry kept).2 = .target (address kept).logicalId)
    (distinct : (held.map fun kept => (address kept).logicalId).Nodup)
    (keyed : ∀ landing ∈ landings, landing.key = keyOf landing.record) :
    HomedBy address (fun kept => digest (heldEntry kept).1) (fun record => digest (keyOf record))
      held landings Landing.record (Landing.home address) := by
  have residents := landed.residents_distinct entries distinct
  have homes : ∀ landing : Landing R K, Foundation.home Landing.found
      (Landing.digestedEntry address digest) landing = landing.home address := fun _ => rfl
  refine ⟨?_, ?_⟩
  · intro first firstMember last lastMember
    have iff := home_eq_iff landed.arrives residents firstMember lastMember
    rw [homes, homes] at iff
    rw [iff, Landing.digestedEntry, Landing.digestedEntry, keyed first firstMember,
      keyed last lastMember]
  · intro landing landingMember kept keptMember
    have resident : (digest (heldEntry kept).1, (heldEntry kept).2) ∈
        digested digest (held.map heldEntry) :=
      List.mem_map.mpr ⟨_, List.mem_map_of_mem keptMember, rfl⟩
    have iff := home_eq_held_iff landed.arrives residents landingMember resident
    rw [homes] at iff
    simp only [entries] at iff
    rw [iff, digested, List.map_map]
    have lookup := @lookup_map_eq_find? R SemanticHash _ (fun kept => digest (heldEntry kept).1)
      held _ _ (fun kept => (heldEntry kept).2) (landing.digestedEntry address digest).1
    simp only [Function.comp_def]
    rw [lookup, Landing.digestedEntry, keyed landing landingMember]
    constructor
    · intro found
      obtain ⟨other, finds, same⟩ := Option.map_eq_some_iff.mp found
      rw [entries] at same
      have otherMember := List.mem_of_find?_eq_some finds
      rw [List.inj_on_of_nodup_map distinct otherMember keptMember
        (ResultObjectId.target.inj same)] at finds
      exact finds
    · intro finds
      exact Option.map_eq_some_iff.mpr ⟨kept, finds, entries kept⟩

/-- One object is opened for each key that is not held. -/
theorem Landed.card_newKeys (landed : Landed address digest (held.map heldEntry) ids landings)
    (keyed : ∀ landing ∈ landings, landing.key = keyOf landing.record) :
    (((landings.map Landing.record).map fun record => digest (keyOf record)).toFinset \
      (held.map fun kept => digest (heldEntry kept).1).toFinset).card =
        (addedIds address landings).length := by
  have count := Foundation.card_newKeys landed.arrives
  have keys : (landings.map Landing.record).map (fun record => digest (keyOf record)) =
      landings.map fun landing => (landing.digestedEntry address digest).1 := by
    rw [List.map_map]
    exact List.map_congr_left fun landing member =>
      congrArg digest (keyed landing member).symm
  rw [keys, addedIds, List.length_map, ← count, digested, List.map_map, List.map_map]
  rfl

end Landings

/-! ## A whole run -/

section Runs

variable [Blake3] {request : MergeRequest} {decisions : Decisions}

/-- The actions of a run about objects of one kind. -/
def Decisions.ofKind (decisions : Decisions) (target : SnapshotSource) :
    ResultKind → List MergeAction
  | .entity => decisions.entityActions target
  | .observation => decisions.observationActions target
  | .relation => decisions.relationActions target

theorem mem_ofKind {kind : ResultKind} {action : MergeAction} :
    action ∈ decisions.ofKind request.target kind ↔
      action ∈ decisions.actions request.target ∧ action.contribution.kind = kind := by
  have entities := fun member => @kind_of_entityActions decisions request.target action member
  have observations :=
    fun member => @kind_of_observationActions _ decisions request.target action member
  have relations := fun member => @kind_of_relationActions _ decisions request.target action member
  rw [Decisions.actions, List.mem_append, List.mem_append]
  cases kind <;> simp only [Decisions.ofKind] <;> constructor
  · exact fun member => ⟨.inl (.inl member), entities member⟩
  · rintro ⟨(member | member) | member, same⟩
    · exact member
    · cases (observations member).symm.trans same
    · cases (relations member).symm.trans same
  · exact fun member => ⟨.inl (.inr member), observations member⟩
  · rintro ⟨(member | member) | member, same⟩
    · cases (entities member).symm.trans same
    · exact member
    · cases (relations member).symm.trans same
  · exact fun member => ⟨.inr member, relations member⟩
  · rintro ⟨(member | member) | member, same⟩
    · cases (entities member).symm.trans same
    · cases (observations member).symm.trans same
    · exact member

/-- What a kind gathers can be read off the records its actions handle. -/
theorem gathers_of_actions {R L : Type} {kind : ResultKind} {address : R → ObjectAddress}
    {origins : R → Finset OriginContribution} {held : List R} {landings : List L} {record : L → R}
    {home : L → ResultObjectId} {keep : R → MergeAction} {land : L → MergeAction}
    (assembled : Assembled (decisions.actions request.target))
    (actions : decisions.ofKind request.target kind = held.map keep ++ landings.map land)
    (keeps : ∀ kept, (keep kept).contribution.result = .target (address kept).logicalId ∧
      (keep kept).contribution.origins = origins kept)
    (lands : ∀ landing, (land landing).contribution.result = home landing ∧
      (land landing).contribution.origins = origins (record landing)) :
    Gathers kind (decisions.actions request.target) address origins held landings record home := by
  have parts : ∀ action, action ∈ decisions.actions request.target ∧
      action.contribution.kind = kind ↔
        (∃ kept ∈ held, keep kept = action) ∨ ∃ landing ∈ landings, land landing = action := by
    intro action
    rw [← mem_ofKind, actions, List.mem_append, List.mem_map, List.mem_map]
  refine ⟨?_, ?_⟩
  · intro result
    constructor
    · intro isOpen
      obtain ⟨action, member, sameKind, _, rfl⟩ := mem_opened.mp isOpen
      rcases (parts action).mp ⟨member, sameKind⟩ with ⟨kept, isHeld, rfl⟩ | ⟨landing, landed, rfl⟩
      · exact .inl ⟨kept, isHeld, (keeps kept).1.symm⟩
      · exact .inr ⟨landing, landed, (lands landing).1.symm⟩
    · rintro (⟨kept, isHeld, rfl⟩ | ⟨landing, landed, rfl⟩)
      · obtain ⟨member, rfl⟩ := (parts _).mpr (.inl ⟨kept, isHeld, rfl⟩)
        exact (keeps kept).1 ▸ assembled.result_opened member
      · obtain ⟨member, rfl⟩ := (parts _).mpr (.inr ⟨landing, landed, rfl⟩)
        exact (lands landing).1 ▸ assembled.result_opened member
  · intro result origin
    rw [mem_gathered]
    constructor
    · rintro ⟨action, member, sameKind, rfl, brought⟩
      rcases (parts action).mp ⟨member, sameKind⟩ with ⟨kept, isHeld, rfl⟩ | ⟨landing, landed, rfl⟩
      · exact .inl ⟨kept, isHeld, (keeps kept).1.symm, (keeps kept).2 ▸ brought⟩
      · exact .inr ⟨landing, landed, (lands landing).1.symm, (lands landing).2 ▸ brought⟩
    · rintro (⟨kept, isHeld, rfl, brought⟩ | ⟨landing, landed, rfl, brought⟩)
      · obtain ⟨member, sameKind⟩ := (parts _).mpr (.inl ⟨kept, isHeld, rfl⟩)
        exact ⟨_, member, sameKind, (keeps kept).1, (keeps kept).2.symm ▸ brought⟩
      · obtain ⟨member, sameKind⟩ := (parts _).mpr (.inr ⟨landing, landed, rfl⟩)
        exact ⟨_, member, sameKind, (lands landing).1, (lands landing).2.symm ▸ brought⟩

namespace Outcome

variable (outcome : Outcome request decisions)

include outcome

theorem gathers_entities :
    Gathers .entity (decisions.actions request.target) EntityRecord.address EntityRecord.origins
      request.target.entities.records decisions.settlements Settlement.record
      (fun settlement => settlement.disposition.resultId) := by
  refine gathers_of_actions outcome.assembled rfl (fun _ => ⟨rfl, rfl⟩) fun settlement => ?_
  unfold Settlement.action
  cases settlement.disposition <;> exact ⟨rfl, rfl⟩

theorem gathers_observations :
    Gathers .observation (decisions.actions request.target) ObservationRecord.address
      ObservationRecord.origins request.target.observations.records decisions.observations
      Landing.record (Landing.home ObservationRecord.address) := by
  refine gathers_of_actions outcome.assembled rfl (fun _ => ⟨rfl, rfl⟩) fun landing => ?_
  obtain ⟨record, key, found⟩ := landing
  cases found <;> exact ⟨rfl, rfl⟩

theorem gathers_relations :
    Gathers .relation (decisions.actions request.target) RelationRecord.address
      RelationRecord.origins request.target.relations.records decisions.relations
      Landing.record (Landing.home RelationRecord.address) := by
  refine gathers_of_actions outcome.assembled rfl (fun _ => ⟨rfl, rfl⟩) fun landing => ?_
  obtain ⟨record, key, found⟩ := landing
  cases found <;> exact ⟨rfl, rfl⟩

/-- The receipts alone say what a source entity becomes. -/
theorem resultOf_eq {id : LogicalId}
    {result : ResultObjectId} (becomes : Becomes decisions.settlements id result) :
    request.resultOf id = result := by
  obtain ⟨settlement, settled, rfl, rfl⟩ := becomes
  have settles := (outcome.entities.valid settlement settled).settles
  rw [MergeRequest.resultOf]
  cases found : request.receipts.resolutions.find? fun resolution =>
      resolution.decision = .same ∧
        resolution.source.address.logicalId = settlement.record.address.logicalId with
  | some resolution =>
    have fits := List.find?_some found
    obtain ⟨same, sameId⟩ := of_decide_eq_true fits
    obtain ⟨other, otherMember, coalesces, itsId⟩ :=
      outcome.coalesces_of_same (List.mem_of_find?_eq_some found) same
    rw [outcome.settlement_unique settled otherMember (sameId.symm.trans itsId.symm)] at settles ⊢
    rw [coalesces] at settles
    generalize other.disposition = disposition at settles ⊢
    cases settles
    rfl
  | none =>
    have here := outcome.entities.source_orderly.here settlement.record.address (by
      rw [← outcome.entities.records, List.map_map]
      exact List.mem_map.mpr ⟨settlement, settled, rfl⟩)
    generalize settlement.disposition = disposition at settles ⊢
    generalize planned : settlement.planned.disposition = plan at settles
    cases settles with
    | coalesce =>
      obtain ⟨_, _, resolution, resolved, _, _, same, itsSource, _, _, plans⟩ :=
        outcome.same_of_coalesces settled planned
      have absent := List.find?_eq_none.mp found resolution resolved
      refine absurd (decide_eq_true ⟨same, ?_⟩) absent
      rw [outcome.settlement_logicalId settled plans, itsSource]
    | add => rw [EntityDisposition.resultId, ← here]

theorem homedBy_entities :
    HomedBy EntityRecord.address (fun record => ResultObjectId.target record.address.logicalId)
      (fun record => request.resultOf record.address.logicalId) request.target.entities.records
      decisions.settlements Settlement.record
      (fun settlement => settlement.disposition.resultId) := by
  have becomes : ∀ settlement ∈ decisions.settlements,
      request.resultOf settlement.record.address.logicalId = settlement.disposition.resultId :=
    fun settlement settled => outcome.resultOf_eq ⟨settlement, settled, rfl, rfl⟩
  have distinct := outcome.entities.target_orderly.nodup_logicalIds
  rw [List.map_map] at distinct
  refine ⟨?_, ?_⟩
  · intro first firstMember last lastMember
    rw [becomes first firstMember, becomes last lastMember]
  · intro settlement settled kept keptMember
    rw [becomes settlement settled]
    constructor
    · intro same
      rw [same]
      cases found : request.target.entities.records.find? fun other =>
          ResultObjectId.target other.address.logicalId =
            ResultObjectId.target kept.address.logicalId with
      | none =>
        have absent := List.find?_eq_none.mp found kept keptMember
        exact absurd (decide_eq_true rfl) absent
      | some other =>
        have fits := List.find?_some found
        have sameId := of_decide_eq_true fits
        rw [List.inj_on_of_nodup_map distinct (List.mem_of_find?_eq_some found) keptMember
          (ResultObjectId.target.inj sameId)]
    · intro found
      have fits := List.find?_some found
      exact (of_decide_eq_true fits).symm

theorem homedBy_observations :
    HomedBy ObservationRecord.address (fun record => observationKey (heldObservation record).1)
      (fun record => observationKey (request.observationKeyOf record))
      request.target.observations.records decisions.observations Landing.record
      (Landing.home ObservationRecord.address) := by
  have distinct := outcome.observations.target_orderly.nodup_logicalIds
  rw [List.map_map] at distinct
  refine outcome.observations.landed.homedBy (fun _ => rfl) distinct ?_
  intro landing landed
  obtain ⟨becomes, rest⟩ := outcome.observations.rewired landing landed
  exact Prod.ext (outcome.resultOf_eq becomes).symm rest

theorem homedBy_relations :
    HomedBy RelationRecord.address (fun record => relationKey (heldRelation record).1)
      (fun record => relationKey (request.relationKeyOf record))
      request.target.relations.records decisions.relations Landing.record
      (Landing.home RelationRecord.address) := by
  have distinct := outcome.relations.target_orderly.nodup_logicalIds
  rw [List.map_map] at distinct
  refine outcome.relations.landed.homedBy (fun _ => rfl) distinct ?_
  intro landing landed
  obtain ⟨subject, object, predicate, lifecycle⟩ := outcome.relations.rewired landing landed
  exact Prod.ext (outcome.resultOf_eq subject).symm (Prod.ext predicate
    (Prod.ext (outcome.resultOf_eq object).symm lifecycle))

/-- One entity is added for each source entity that is not coalesced. -/
theorem card_newEntities : ((request.source.entities.records.map fun record =>
        request.resultOf record.address.logicalId).toFinset \
      (request.target.entities.records.map fun record =>
        ResultObjectId.target record.address.logicalId).toFinset).card =
      (addedEntityIds decisions.settlements).length := by
  have results : (request.source.entities.records.map fun record =>
      request.resultOf record.address.logicalId) =
        decisions.settlements.map fun settlement => settlement.disposition.resultId := by
    rw [← outcome.entities.records, List.map_map]
    exact List.map_congr_left fun settlement settled =>
      outcome.resultOf_eq ⟨settlement, settled, rfl, rfl⟩
  have added : (decisions.settlements.map fun settlement =>
        settlement.disposition.resultId).toFinset \
      (request.target.entities.records.map fun record =>
        ResultObjectId.target record.address.logicalId).toFinset =
      ((addedEntityIds decisions.settlements).map ResultObjectId.qualified).toFinset := by
    ext result
    simp only [Finset.mem_sdiff, List.mem_toFinset, List.mem_map, addedEntityIds,
      List.mem_filterMap]
    constructor
    · rintro ⟨⟨settlement, settled, rfl⟩, unheld⟩
      have settles := (outcome.entities.valid settlement settled).settles
      generalize itsDisposition : settlement.disposition = disposition at settles unheld ⊢
      generalize settlement.planned.disposition = planned at settles
      cases settles with
      | coalesce _ _ kept keptMember sameId _ _ =>
        exact absurd ⟨kept, keptMember, congrArg ResultObjectId.target sameId⟩ unheld
      | add => exact ⟨_, ⟨settlement, settled, by rw [itsDisposition]; rfl⟩, rfl⟩
    · rintro ⟨id, ⟨settlement, settled, isAdded⟩, rfl⟩
      refine ⟨⟨settlement, settled, ?_⟩, ?_⟩
      · generalize settlement.disposition = disposition at isAdded ⊢
        cases disposition with
        | coalesce => cases isAdded
        | addDistinct => exact congrArg ResultObjectId.qualified (Option.some.inj isAdded)
      · rintro ⟨_, _, impossible⟩
        cases impossible
  rw [results, added, List.toFinset_card_of_nodup
    (outcome.entities.added_distinct.map fun _ _ same => ResultObjectId.qualified.inj same),
    List.length_map]

end Outcome

omit [Blake3] in
/-- The check on the length of a collection, in terms of the inputs. -/
theorem validateCount_iff {name : String} {length held new added : Nat}
    (count : length = held + added) (same : new = added) :
    validateCount name length = .ok () ↔ held + new ≤ maxSnapshotRecords := by
  rw [validateCount, refuseIf_eq_ok, count, same, gt_iff_lt, not_lt]

omit [Blake3] in
/-- Rebuilding asks every object of every kind for bounded origins. -/
theorem objects_rebuild_iff {actions : List MergeAction} :
    (∀ action ∈ actions, action.contribution.opens = true →
      action.rebuild (ascending (gathered action.contribution.kind action.contribution.result
        actions)) = .ok ()) ↔
      ∀ kind, ∀ result ∈ opened kind actions, OriginsBounded (gathered kind result actions) := by
  constructor
  · intro rebuilds kind result isOpen
    obtain ⟨action, member, rfl, opens, rfl⟩ := mem_opened.mp isOpen
    exact (rebuild_eq_ok opens).mp (rebuilds action member opens)
  · intro bounded action member opens
    exact (rebuild_eq_ok opens).mpr (bounded _ _ (mem_opened.mpr ⟨action, member, rfl, opens, rfl⟩))

end Runs

section Examples

open Fixture

def plainAda : EntityRecord :=
  unwrap (entity (space 1) "ada" 30 "Ada" "person") (by decide)

/-- One of many contributions from a third space. -/
def crowdOrigin (n : Fin 1024) : OriginContribution :=
  ⟨⟨space 3, plainAda.address.logicalId⟩, revision (n.castLE (by decide))⟩

theorem crowdOrigin_injective : Function.Injective crowdOrigin := by
  intro left right same
  have revisions : 0x018f6b7a4d3c7abc8def * 2 ^ 48 + left.val =
      0x018f6b7a4d3c7abc8def * 2 ^ 48 + right.val :=
    congrArg (fun origin => origin.revision.uuid.value) same
  exact Fin.ext (by omega)

/-- As many origins as an object can have. -/
def crowd : Finset OriginContribution := Finset.univ.map ⟨crowdOrigin, crowdOrigin_injective⟩

theorem card_crowd : crowd.card = 1024 := by
  rw [crowd, Finset.card_map, Finset.card_univ, Fintype.card_fin]

def crowdedAda : EntityRecord :=
  { plainAda with
    origins := crowd
    origins_bounded := ⟨Finset.card_pos.mp (by rw [card_crowd]; decide), card_crowd.le⟩ }

theorem crowdedAda_refIn (id : SnapshotId) : crowdedAda.refIn id = plainAda.refIn id := by
  rw [EntityRecord.refIn, EntityRecord.refIn, crowdedAda]

def otherAda : EntityRecord :=
  unwrap (entity (space 2) "ada" 40 "Ada" "person") (by decide)

/-- The snapshot of a person with one origin. -/
def lonely (snapshot sequence : Fin (2 ^ 48)) (version : UInt8) (revision : Fin (2 ^ 48)) :
    MergeResult MemorySnapshot :=
  memorySnapshot (snapshotId snapshot) (space sequence) version
    [entity (space sequence) "ada" revision "Ada" "person"] [] []

/-- Receipts do not depend on the origins of the entities they name. -/
theorem lonely_planned : (do
    let target ← (lonely 20 1 1 30).toOption
    let source ← (lonely 21 2 2 40).toOption
    planningReceipts target source samplePolicy [("ada", "ada")]).isSome = true := by
  decide

def lonelyReceipts : PlanningReceipts := Option.get _ lonely_planned

theorem lonely_coalesces : ((prepareDispositions lonelyReceipts
    sampleMergePolicy).toOption.map Prod.fst) = some (lonelyReceipts.resolutions.map
      fun resolution => ⟨otherAda.address.logicalId, otherAda.revision, snapshotId 21,
        .coalesce (plainAda.refIn (snapshotId 20)) resolution.hash⟩) := by
  decide +kernel

theorem lonely_prepared : ∃ receipt consumed,
    prepareDispositions lonelyReceipts sampleMergePolicy = .ok ([⟨otherAda.address.logicalId,
      otherAda.revision, snapshotId 21, .coalesce (plainAda.refIn (snapshotId 20)) receipt⟩],
        consumed) := by
  obtain ⟨receipt, single⟩ : ∃ receipt, lonelyReceipts.resolutions = [receipt] :=
    List.length_eq_one_iff.mp (by decide)
  have coalesces := lonely_coalesces
  rw [single, List.map_singleton] at coalesces
  obtain ⟨⟨planned, consumed⟩, prepared, rfl⟩ := Option.map_eq_some_iff.mp coalesces
  exact ⟨receipt.hash, consumed, toOption_eq_some.mp prepared⟩

theorem arrange_single (record : EntityRecord) :
    arrange record.address.space [record] [] [] = .ok ([record], [], []) := by
  have sorted : sortByAddress EntityRecord.address [record] = [record] := rfl
  simp only [arrange, sorted]
  simp [validateCount, refuseIf, maxSnapshotRecords, sortByAddress, checkRecords,
    validateUniqueAddresses, checkAddress, bind, Except.bind, pure, Except.pure]

end Examples

end OpenMemory.Merge
