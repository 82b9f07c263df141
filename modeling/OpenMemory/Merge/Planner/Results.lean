import OpenMemory.Merge.Planner.Bindings

/-!
# The result objects of a plan

The actions of a plan describe a result without building it. An action that
keeps or adds a record opens a result object; an action that coalesces or merges
a record contributes to an object that is already there. What a plan guarantees
about this description is `Assembled`: no two objects of a kind are opened under
one name, and nothing contributes to an object before it is opened.
-/

namespace OpenMemory.Merge

open Foundation

/-! ## Contributions -/

inductive ResultKind where
  | entity
  | observation
  | relation
  deriving DecidableEq

/-- What an action does to the result: the object it is about, whether it opens
it, and the origins it brings. -/
structure Contribution where
  kind : ResultKind
  result : ResultObjectId
  opens : Bool
  origins : Finset OriginContribution

namespace MergeAction

def contribution : MergeAction → Contribution
  | keepTargetEntity target =>
    ⟨.entity, .target target.address.logicalId, true, target.origins⟩
  | applyEntityDisposition source (.coalesce _ target _) =>
    ⟨.entity, .target target.logicalId, false, source.origins⟩
  | applyEntityDisposition source (.addDistinct _ result _ _) =>
    ⟨.entity, .qualified result, true, source.origins⟩
  | keepTargetObservation target _ =>
    ⟨.observation, .target target.address.logicalId, true, target.origins⟩
  | addObservation source result _ => ⟨.observation, .qualified result, true, source.origins⟩
  | mergeObservationOrigin source target _ => ⟨.observation, target, false, source.origins⟩
  | keepTargetRelation target _ _ =>
    ⟨.relation, .target target.address.logicalId, true, target.origins⟩
  | addRelation source result _ _ => ⟨.relation, .qualified result, true, source.origins⟩
  | mergeRelationOrigin source target _ _ => ⟨.relation, target, false, source.origins⟩

/-- The result object of this kind that the action opens. -/
def opens (kind : ResultKind) (action : MergeAction) : Option ResultObjectId :=
  if action.contribution.kind = kind ∧ action.contribution.opens = true then
    some action.contribution.result
  else none

/-- Whether the action is about this object. -/
def concerns (kind : ResultKind) (result : ResultObjectId) (action : MergeAction) : Bool :=
  action.contribution.kind = kind && action.contribution.result = result

end MergeAction

/-- The result objects of one kind, in the order they are opened. -/
def opened (kind : ResultKind) (actions : List MergeAction) : List ResultObjectId :=
  actions.filterMap (MergeAction.opens kind)

/-- The origins that all actions about one object bring to it. -/
def gathered (kind : ResultKind) (result : ResultObjectId) (actions : List MergeAction) :
    Finset OriginContribution :=
  (actions.filter (MergeAction.concerns kind result)).foldr
    (fun action origins => action.contribution.origins ∪ origins) ∅

section Contributions

variable {kind : ResultKind} {result : ResultObjectId} {actions : List MergeAction}

theorem opened_append (first last : List MergeAction) :
    opened kind (first ++ last) = opened kind first ++ opened kind last :=
  List.filterMap_append

theorem opened_map {R : Type} {action : R → MergeAction} (opens : R → Option ResultObjectId)
    (same : ∀ record, (action record).opens kind = opens record) (records : List R) :
    opened kind (records.map action) = records.filterMap opens := by
  rw [opened, List.filterMap_map]
  exact List.filterMap_congr fun record _ => same record

theorem opened_eq_nil (other : ∀ action ∈ actions, action.contribution.kind ≠ kind) :
    opened kind actions = [] := by
  refine List.filterMap_eq_nil_iff.mpr fun action member => ?_
  rw [MergeAction.opens, if_neg]
  exact fun both => other action member both.1

theorem mem_opened : result ∈ opened kind actions ↔ ∃ action ∈ actions,
    action.contribution.kind = kind ∧ action.contribution.opens = true ∧
      action.contribution.result = result := by
  simp only [opened, List.mem_filterMap, MergeAction.opens, Option.ite_none_right_eq_some,
    Option.some.injEq, and_assoc]

theorem mem_gathered {origin : OriginContribution} :
    origin ∈ gathered kind result actions ↔ ∃ action ∈ actions,
      action.contribution.kind = kind ∧ action.contribution.result = result ∧
        origin ∈ action.contribution.origins := by
  have folded : ∀ some : List MergeAction, origin ∈ some.foldr
      (fun action origins => action.contribution.origins ∪ origins) ∅ ↔
        ∃ action ∈ some, origin ∈ action.contribution.origins := by
    intro some
    induction some with
    | nil => simp
    | cons first rest ih => simp [ih]
  rw [gathered, folded]
  simp only [List.mem_filter, MergeAction.concerns, Bool.and_eq_true, decide_eq_true_eq]
  constructor
  · rintro ⟨action, ⟨member, sameKind, sameResult⟩, found⟩
    exact ⟨action, member, sameKind, sameResult, found⟩
  · rintro ⟨action, member, sameKind, sameResult, found⟩
    exact ⟨action, ⟨member, sameKind, sameResult⟩, found⟩

end Contributions

/-! ## Input records -/

/-- An input record, with the place it is read from. -/
inductive InputRecord where
  | targetEntity (record : EntityRecord)
  | sourceEntity (record : EntityRecord)
  | targetObservation (record : ObservationRecord)
  | sourceObservation (record : ObservationRecord)
  | targetRelation (record : RelationRecord)
  | sourceRelation (record : RelationRecord)

/-- The kind of result object a record becomes, or becomes part of. -/
def InputRecord.kind : InputRecord → ResultKind
  | targetEntity _ | sourceEntity _ => .entity
  | targetObservation _ | sourceObservation _ => .observation
  | targetRelation _ | sourceRelation _ => .relation

def InputRecord.origins : InputRecord → Finset OriginContribution
  | targetEntity record | sourceEntity record => record.origins
  | targetObservation record | sourceObservation record => record.origins
  | targetRelation record | sourceRelation record => record.origins

/-- All records of the two snapshots. -/
def MergeRequest.inputs (request : MergeRequest) : List InputRecord :=
  request.target.entities.records.map .targetEntity ++
    request.source.entities.records.map .sourceEntity ++
      (request.target.observations.records.map .targetObservation ++
        request.source.observations.records.map .sourceObservation) ++
          (request.target.relations.records.map .targetRelation ++
            request.source.relations.records.map .sourceRelation)

/-- The record an action handles. Target records are the kept ones. -/
def MergeAction.input : MergeAction → InputRecord
  | .keepTargetEntity target => .targetEntity target
  | .applyEntityDisposition source _ => .sourceEntity source
  | .keepTargetObservation target _ => .targetObservation target
  | .addObservation source _ _ => .sourceObservation source
  | .mergeObservationOrigin source _ _ => .sourceObservation source
  | .keepTargetRelation target _ _ => .targetRelation target
  | .addRelation source _ _ _ => .sourceRelation source
  | .mergeRelationOrigin source _ _ _ => .sourceRelation source

/-- An action brings the origins of the record it handles, to an object of its kind. -/
theorem MergeAction.contribution_input (action : MergeAction) :
    action.contribution.kind = action.input.kind ∧
      action.contribution.origins = action.input.origins := by
  cases action with
  | applyEntityDisposition source disposition => cases disposition <;> exact ⟨rfl, rfl⟩
  | _ => exact ⟨rfl, rfl⟩

/-! ## Assembled results -/

/-- Among these actions, which come after some others, nothing contributes to an
object that is not opened before. -/
def GrowsAfter (earlier actions : List MergeAction) : Prop :=
  ∀ before action after, actions = before ++ action :: after →
    action.contribution.opens = false →
      action.contribution.result ∈ opened action.contribution.kind (earlier ++ before)

/-- The result described by the actions can be put together in their order. -/
structure Assembled (actions : List MergeAction) : Prop where
  names_distinct : ∀ kind, ((opened kind actions).map ResultObjectId.asStr).Nodup
  grows : GrowsAfter [] actions

theorem GrowsAfter.append {earlier first last : List MergeAction}
    (firstGrows : GrowsAfter earlier first) (lastGrows : GrowsAfter (earlier ++ first) last) :
    GrowsAfter earlier (first ++ last) := by
  intro before action after split contributes
  rcases List.append_eq_append_iff.mp split with ⟨more, rfl, inLast⟩ | ⟨more, inFirst, rest⟩
  · have found := lastGrows more action after inLast contributes
    rwa [List.append_assoc] at found
  · cases more with
    | nil =>
      have found := lastGrows [] action after (by simpa using rest.symm) contributes
      rw [inFirst] at found
      simpa using found
    | cons next more =>
      obtain ⟨rfl, rfl⟩ := List.cons.inj rest
      exact firstGrows before _ more inFirst contributes

/-- Actions that only contribute to what others have opened. -/
theorem growsAfter_of_opened {earlier actions : List MergeAction}
    (known : ∀ action ∈ actions, action.contribution.opens = false →
      action.contribution.result ∈ opened action.contribution.kind earlier) :
    GrowsAfter earlier actions := by
  rintro before action after rfl contributes
  rw [opened_append]
  exact List.mem_append_left _ (known action (by simp) contributes)

/-- The objects that are kept, and those that are added, have different names. -/
theorem nodup_names {addresses : List ObjectAddress} {added : List QualifiedObjectId}
    (kept : (addresses.map ObjectAddress.logicalId).Nodup) (distinct : added.Nodup)
    (fresh : ∀ result ∈ added, result.value ∉ heldIds addresses) :
    (((addresses.map fun address => ResultObjectId.target address.logicalId) ++
      added.map ResultObjectId.qualified).map ResultObjectId.asStr).Nodup := by
  rw [List.map_append, List.map_map, List.map_map, List.nodup_append]
  refine ⟨?_, ?_, ?_⟩
  · have values := kept.map LogicalId.value_injective
    rwa [List.map_map] at values
  · exact distinct.map QualifiedObjectId.value_injective
  · rintro name held other isAdded rfl
    obtain ⟨result, member, same⟩ := List.mem_map.mp isAdded
    obtain ⟨address, addressMember, value⟩ := List.mem_map.mp held
    exact fresh result member (mem_heldIds.mpr ⟨address, addressMember, value.trans same.symm⟩)

/-! ## The results of a run -/

section Runs

theorem kind_of_entityActions {decisions : Decisions} {target : SnapshotSource}
    {action : MergeAction} (member : action ∈ decisions.entityActions target) :
    action.contribution.kind = .entity := by
  rcases List.mem_append.mp member with kept | settled
  · obtain ⟨record, _, rfl⟩ := List.mem_map.mp kept
    rfl
  · obtain ⟨settlement, _, rfl⟩ := List.mem_map.mp settled
    unfold Settlement.action
    cases settlement.disposition <;> rfl

theorem opened_keepTargetEntity (records : List EntityRecord) :
    opened .entity (records.map .keepTargetEntity) =
      (records.map EntityRecord.address).map fun address => .target address.logicalId := by
  rw [opened_map (fun record => some (.target record.address.logicalId)) fun _ => rfl,
    List.filterMap_eq_map', List.map_map]
  rfl

theorem opened_keepObservation (records : List ObservationRecord) :
    opened .observation (records.map keepObservation) =
      (records.map ObservationRecord.address).map fun address => .target address.logicalId := by
  rw [opened_map (fun record => some (.target record.address.logicalId)) fun _ => rfl,
    List.filterMap_eq_map', List.map_map]
  rfl

theorem opened_keepRelation (records : List RelationRecord) :
    opened .relation (records.map keepRelation) =
      (records.map RelationRecord.address).map fun address => .target address.logicalId := by
  rw [opened_map (fun record => some (.target record.address.logicalId)) fun _ => rfl,
    List.filterMap_eq_map', List.map_map]
  rfl

theorem opened_settlements (settlements : List Settlement) :
    opened .entity (settlements.map Settlement.action) =
      (addedEntityIds settlements).map .qualified := by
  rw [opened_map (fun settlement => settlement.disposition.added.map .qualified),
    addedEntityIds, List.map_filterMap]
  intro settlement
  unfold Settlement.action
  cases settlement.disposition <;> rfl

variable [Blake3]

theorem kind_of_observationActions {decisions : Decisions} {target : SnapshotSource}
    {action : MergeAction} (member : action ∈ decisions.observationActions target) :
    action.contribution.kind = .observation := by
  rcases List.mem_append.mp member with kept | landed
  · obtain ⟨record, _, rfl⟩ := List.mem_map.mp kept
    rfl
  · obtain ⟨landing, _, rfl⟩ := List.mem_map.mp landed
    unfold observationAction
    cases landing.found <;> rfl

theorem kind_of_relationActions {decisions : Decisions} {target : SnapshotSource}
    {action : MergeAction} (member : action ∈ decisions.relationActions target) :
    action.contribution.kind = .relation := by
  rcases List.mem_append.mp member with kept | landed
  · obtain ⟨record, _, rfl⟩ := List.mem_map.mp kept
    rfl
  · obtain ⟨landing, _, rfl⟩ := List.mem_map.mp landed
    unfold relationAction
    cases landing.found <;> rfl

theorem filterMap_added {R K : Type} (address : R → ObjectAddress)
    (landings : List (Landing R K)) :
    (landings.filterMap fun landing => if landing.found.isNone then
        some (ResultObjectId.qualified (qualify (address landing.record))) else none) =
      (addedIds address landings).map .qualified := by
  induction landings with
  | nil => rfl
  | cons first rest ih =>
    rw [List.filterMap_cons, addedIds, List.filter_cons]
    cases first.found with
    | none => simpa [addedIds] using ih
    | some _ => simpa [addedIds] using ih

theorem opened_observationLandings (landings : List ObservationLanding) :
    opened .observation (landings.map observationAction) =
      (addedIds ObservationRecord.address landings).map .qualified := by
  rw [← filterMap_added, opened_map (fun landing => if landing.found.isNone then
    some (ResultObjectId.qualified (qualify (landing.record.address))) else none)]
  intro landing
  unfold observationAction
  cases landing.found <;> rfl

theorem opened_relationLandings (landings : List RelationLanding) :
    opened .relation (landings.map relationAction) =
      (addedIds RelationRecord.address landings).map .qualified := by
  rw [← filterMap_added, opened_map (fun landing => if landing.found.isNone then
    some (ResultObjectId.qualified (qualify (landing.record.address))) else none)]
  intro landing
  unfold relationAction
  cases landing.found <;> rfl

variable (decisions : Decisions) (target : SnapshotSource)

/-- The entities of the result: the target's, and those that were added. -/
theorem opened_entities : opened .entity (decisions.actions target) =
    ((target.entities.records.map EntityRecord.address).map fun address =>
      .target address.logicalId) ++ (addedEntityIds decisions.settlements).map .qualified := by
  have observations : opened .entity (decisions.observationActions target) = [] :=
    opened_eq_nil fun action member => by rw [kind_of_observationActions member]; decide
  have relations : opened .entity (decisions.relationActions target) = [] :=
    opened_eq_nil fun action member => by rw [kind_of_relationActions member]; decide
  rw [Decisions.actions, opened_append, opened_append, observations, relations, List.append_nil,
    List.append_nil, Decisions.entityActions, opened_append, opened_keepTargetEntity,
    opened_settlements]

theorem opened_observations : opened .observation (decisions.actions target) =
    ((target.observations.records.map ObservationRecord.address).map fun address =>
      .target address.logicalId) ++
        (addedIds ObservationRecord.address decisions.observations).map .qualified := by
  have entities : opened .observation (decisions.entityActions target) = [] :=
    opened_eq_nil fun action member => by rw [kind_of_entityActions member]; decide
  have relations : opened .observation (decisions.relationActions target) = [] :=
    opened_eq_nil fun action member => by rw [kind_of_relationActions member]; decide
  rw [Decisions.actions, opened_append, opened_append, entities, relations, List.nil_append,
    List.append_nil, Decisions.observationActions, opened_append, opened_keepObservation,
    opened_observationLandings]

theorem opened_relations : opened .relation (decisions.actions target) =
    ((target.relations.records.map RelationRecord.address).map fun address =>
      .target address.logicalId) ++
        (addedIds RelationRecord.address decisions.relations).map .qualified := by
  have entities : opened .relation (decisions.entityActions target) = [] :=
    opened_eq_nil fun action member => by rw [kind_of_entityActions member]; decide
  have observations : opened .relation (decisions.observationActions target) = [] :=
    opened_eq_nil fun action member => by rw [kind_of_observationActions member]; decide
  rw [Decisions.actions, opened_append, opened_append, entities, observations, List.nil_append,
    List.nil_append, Decisions.relationActions, opened_append, opened_keepRelation,
    opened_relationLandings]

end Runs

namespace Outcome

variable [Blake3] {request : MergeRequest} {decisions : Decisions}

variable (outcome : Outcome request decisions)

include outcome

/-- Every record is handled by one action, in the order the records are read. -/
theorem covered : (decisions.actions request.target).map MergeAction.input = request.inputs := by
  have observation : ∀ landing : ObservationLanding,
      (observationAction landing).input = .sourceObservation landing.record := by
    intro landing
    unfold observationAction
    cases landing.found <;> rfl
  have relation : ∀ landing : RelationLanding,
      (relationAction landing).input = .sourceRelation landing.record := by
    intro landing
    unfold relationAction
    cases landing.found <;> rfl
  rw [MergeRequest.inputs, ← outcome.entities.records, ← outcome.observations.records,
    ← outcome.relations.records]
  simp only [Decisions.actions, Decisions.entityActions, Decisions.observationActions,
    Decisions.relationActions, List.map_append, List.map_map, Function.comp_def, observation,
    relation]
  rfl

theorem grows_entities : GrowsAfter [] (decisions.entityActions request.target) := by
  refine GrowsAfter.append (growsAfter_of_opened ?_) (growsAfter_of_opened ?_)
  · intro action member contributes
    obtain ⟨record, _, rfl⟩ := List.mem_map.mp member
    cases contributes
  · intro action member contributes
    obtain ⟨settlement, settled, rfl⟩ := List.mem_map.mp member
    have settles := (outcome.entities.valid settlement settled).settles
    rw [Settlement.action] at contributes ⊢
    generalize settlement.disposition = disposition at settles contributes ⊢
    generalize settlement.planned.disposition = planned at settles
    cases settles with
    | coalesce target _ record recordMember sameId _ _ =>
      show ResultObjectId.target target.address.logicalId ∈ opened .entity _
      rw [List.nil_append, opened_keepTargetEntity, List.map_map]
      exact List.mem_map.mpr ⟨record, recordMember, congrArg _ sameId⟩
    | add => cases contributes

omit outcome in
/-- Observations and relations grow alike: what a landing joins is open. -/
theorem grows_landings {R K : Type} {address : R → ObjectAddress} {digest : K → SemanticHash}
    {held : List (K × ResultObjectId)} {ids : Finset String} (kind : ResultKind)
    {action : Landing R K → MergeAction} {landings : List (Landing R K)}
    {earlier : List MergeAction} (landed : Landed address digest held ids landings)
    (kept : ∀ result ∈ held.map Prod.snd, result ∈ opened kind earlier)
    (added : ∀ before : List (Landing R K), opened kind (before.map action) =
      (addedIds address before).map .qualified)
    (joins : ∀ landing, (action landing).contribution.opens = false →
      (action landing).contribution.kind = kind ∧
        landing.found = some (action landing).contribution.result) :
    GrowsAfter earlier (landings.map action) := by
  intro before next after split contributes
  obtain ⟨first, rest, rfl, rfl, isRest⟩ := List.map_eq_append_iff.mp split
  obtain ⟨landing, last, rfl, rfl, _⟩ := List.map_eq_cons_iff.mp isRest
  obtain ⟨sameKind, finds⟩ := joins landing contributes
  rw [sameKind, opened_append, added]
  rcases landed.mem_of_found finds with isHeld | isAdded
  · exact List.mem_append_left _ (kept _ isHeld)
  · exact List.mem_append_right _ isAdded

theorem grows_observations (earlier : List MergeAction) :
    GrowsAfter earlier (decisions.observationActions request.target) := by
  refine GrowsAfter.append (growsAfter_of_opened ?_)
    (grows_landings .observation outcome.observations.landed ?_ opened_observationLandings ?_)
  · intro action member contributes
    obtain ⟨record, _, rfl⟩ := List.mem_map.mp member
    cases contributes
  · intro result member
    rw [opened_append, opened_keepObservation]
    refine List.mem_append_right _ ?_
    rw [List.map_map] at member ⊢
    exact member
  · intro landing contributes
    unfold observationAction at contributes ⊢
    cases finds : landing.found with
    | none =>
      rw [finds] at contributes
      cases contributes
    | some target => exact ⟨rfl, rfl⟩

theorem grows_relations (earlier : List MergeAction) :
    GrowsAfter earlier (decisions.relationActions request.target) := by
  refine GrowsAfter.append (growsAfter_of_opened ?_)
    (grows_landings .relation outcome.relations.landed ?_ opened_relationLandings ?_)
  · intro action member contributes
    obtain ⟨record, _, rfl⟩ := List.mem_map.mp member
    cases contributes
  · intro result member
    rw [opened_append, opened_keepRelation]
    refine List.mem_append_right _ ?_
    rw [List.map_map] at member ⊢
    exact member
  · intro landing contributes
    unfold relationAction at contributes ⊢
    cases finds : landing.found with
    | none =>
      rw [finds] at contributes
      cases contributes
    | some target => exact ⟨rfl, rfl⟩

/-- **The actions of a successful run describe a result** that can be put together
in their order. -/
theorem assembled : Assembled (decisions.actions request.target) := by
  refine ⟨fun kind => ?_, ?_⟩
  · cases kind with
    | entity =>
      rw [opened_entities]
      exact nodup_names outcome.entities.target_orderly.nodup_logicalIds
        outcome.entities.added_distinct outcome.entities.added_fresh
    | observation =>
      rw [opened_observations]
      exact nodup_names outcome.observations.target_orderly.nodup_logicalIds
        outcome.observations.landed.added_distinct outcome.observations.landed.added_fresh
    | relation =>
      rw [opened_relations]
      exact nodup_names outcome.relations.target_orderly.nodup_logicalIds
        outcome.relations.landed.added_distinct outcome.relations.landed.added_fresh
  · exact (outcome.grows_entities.append (outcome.grows_observations _)).append
      (outcome.grows_relations _)

end Outcome

end OpenMemory.Merge
