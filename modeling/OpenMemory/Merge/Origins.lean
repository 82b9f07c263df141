import OpenMemory.Merge.Reference

/-!
# The origins of the result

The reference builds the origin set of every result object; the planner never
does. It lists one token for each origin an action brings, sorts the tokens and
drops repetitions. Both describe the same sets: after any assembled list of
actions the maps of the reference hold exactly the gathered origins
(`materialize_describes`), and as long as tokens do not collide, the number of
distinct tokens is the sum of the sizes of these sets (`retained_eq`).
-/

namespace OpenMemory.Merge

open Foundation

/-! ## Assembled prefixes -/

variable {action : MergeAction} {kind : ResultKind} {result : ResultObjectId} {maps : OriginMaps}

section Assembled

theorem Assembled.of_append {first last : List MergeAction}
    (assembled : Assembled (first ++ last)) : Assembled first := by
  refine ⟨fun kind => ?_, ?_⟩
  · have distinct := assembled.names_distinct kind
    rw [opened_append, List.map_append] at distinct
    exact distinct.of_append_left
  · rintro before action after rfl contributes
    exact assembled.grows before action (after ++ last) (by simp) contributes

variable {actions : List MergeAction}

/-- Everything the actions are about has been opened. -/
theorem Assembled.result_opened (assembled : Assembled actions) (member : action ∈ actions) :
    action.contribution.result ∈ opened action.contribution.kind actions := by
  cases opens : action.contribution.opens with
  | true => exact mem_opened.mpr ⟨action, member, rfl, opens, rfl⟩
  | false =>
    obtain ⟨before, after, rfl⟩ := List.append_of_mem member
    have found := assembled.grows before action after rfl opens
    rw [opened_append]
    exact List.mem_append_left _ (by simpa using found)

theorem opened_concat (kind : ResultKind) (actions : List MergeAction) (action : MergeAction) :
    opened kind (actions ++ [action]) = opened kind actions ++ (action.opens kind).toList := by
  rw [opened_append]
  cases opens : action.opens kind <;> simp [opened, opens]

theorem gathered_concat_of_concerns
    (concerns : action.contribution.kind = kind ∧ action.contribution.result = result) :
    gathered kind result (actions ++ [action]) =
      gathered kind result actions ∪ action.contribution.origins := by
  ext origin
  simp only [mem_gathered, Finset.mem_union, List.mem_append, List.mem_singleton]
  constructor
  · rintro ⟨other, earlier | rfl, sameKind, sameResult, found⟩
    · exact .inl ⟨other, earlier, sameKind, sameResult, found⟩
    · exact .inr found
  · rintro (⟨other, earlier, facts⟩ | found)
    · exact ⟨other, .inl earlier, facts⟩
    · exact ⟨action, .inr rfl, concerns.1, concerns.2, found⟩

theorem gathered_concat_of_not
    (other : ¬ (action.contribution.kind = kind ∧ action.contribution.result = result)) :
    gathered kind result (actions ++ [action]) = gathered kind result actions := by
  ext origin
  simp only [mem_gathered, List.mem_append, List.mem_singleton]
  constructor
  · rintro ⟨any, earlier | rfl, sameKind, sameResult, found⟩
    · exact ⟨any, earlier, sameKind, sameResult, found⟩
    · exact absurd ⟨sameKind, sameResult⟩ other
  · rintro ⟨any, earlier, facts⟩
    exact ⟨any, .inl earlier, facts⟩

/-- Nothing is gathered for an object that is not opened. -/
theorem Assembled.gathered_eq_empty (assembled : Assembled actions)
    (unopened : result ∉ opened kind actions) : gathered kind result actions = ∅ := by
  refine Finset.eq_empty_of_forall_notMem fun origin found => ?_
  obtain ⟨action, member, rfl, rfl, _⟩ := mem_gathered.mp found
  exact unopened (assembled.result_opened member)

end Assembled

/-! ## The maps of the reference -/

namespace OriginMaps

def of (maps : OriginMaps) : ResultKind → OrderedMap String (Finset OriginContribution)
  | .entity => maps.entities
  | .observation => maps.observations
  | .relation => maps.relations

def set (maps : OriginMaps) (kind : ResultKind)
    (map : OrderedMap String (Finset OriginContribution)) : OriginMaps :=
  match kind with
  | .entity => { maps with entities := map }
  | .observation => { maps with observations := map }
  | .relation => { maps with relations := map }

theorem of_set (maps : OriginMaps) (kind other : ResultKind)
    (map : OrderedMap String (Finset OriginContribution)) :
    (maps.set kind map).of other = if other = kind then map else maps.of other := by
  cases kind <;> cases other <;> rfl

/-- What one contribution does to the maps. -/
def contribute (maps : OriginMaps) (contribution : Contribution) : Option OriginMaps :=
  if contribution.opens = true then
    some (maps.set contribution.kind ((maps.of contribution.kind).insert contribution.result.asStr
      contribution.origins))
  else
    (extendAt (maps.of contribution.kind) contribution.result.asStr contribution.origins).map
      (maps.set contribution.kind)

end OriginMaps

theorem materializeAction_eq (maps : OriginMaps) (action : MergeAction) :
    materializeAction maps action = maps.contribute action.contribution := by
  cases action with
  | applyEntityDisposition source disposition => cases disposition <;> rfl
  | _ => rfl

/-- The maps hold exactly the opened objects, each with the origins gathered for it. -/
def Describes (maps : OriginMaps) (actions : List MergeAction) : Prop :=
  ∀ kind name origins, (maps.of kind)[name]? = some origins ↔
    ∃ result ∈ opened kind actions, result.asStr = name ∧ gathered kind result actions = origins

theorem describes_step {actions : List MergeAction}
    (assembled : Assembled (actions ++ [action])) (described : Describes maps actions) :
    ∃ after, materializeAction maps action = some after ∧
      Describes after (actions ++ [action]) := by
  rw [materializeAction_eq, OriginMaps.contribute]
  have earlier := assembled.of_append
  have names := assembled.names_distinct action.contribution.kind
  rw [opened_concat] at names
  cases opens : action.contribution.opens with
  | true =>
    have isNew : action.opens action.contribution.kind = some action.contribution.result := by
      rw [MergeAction.opens, if_pos ⟨rfl, opens⟩]
    rw [isNew, Option.toList_some, List.map_append, List.nodup_append] at names
    have fresh : ∀ result ∈ opened action.contribution.kind actions,
        result.asStr ≠ action.contribution.result.asStr := fun result member =>
      names.2.2 _ (List.mem_map_of_mem member) _ (by simp)
    have unopened : action.contribution.result ∉ opened action.contribution.kind actions :=
      fun member => fresh _ member rfl
    refine ⟨_, if_pos rfl, ?_⟩
    intro kind name origins
    rw [OriginMaps.of_set, opened_concat]
    by_cases sameKind : kind = action.contribution.kind
    · subst sameKind
      rw [if_pos rfl, isNew, OrderedMap.get_insert]
      by_cases sameName : action.contribution.result.asStr = name
      · rw [if_pos sameName]
        have gathers : gathered action.contribution.kind action.contribution.result
            (actions ++ [action]) = action.contribution.origins := by
          rw [gathered_concat_of_concerns ⟨rfl, rfl⟩, earlier.gathered_eq_empty unopened,
            Finset.empty_union]
        constructor
        · intro found
          exact ⟨_, by simp, sameName, gathers.trans (Option.some.inj found)⟩
        · rintro ⟨result, member, isName, same⟩
          rcases List.mem_append.mp member with old | now
          · exact absurd (isName.trans sameName.symm) (fresh result old)
          · rw [Option.toList_some, List.mem_singleton] at now
            rw [← same, now, gathers]
      · rw [if_neg sameName, described]
        constructor
        · rintro ⟨result, member, isName, same⟩
          refine ⟨result, List.mem_append_left _ member, isName, ?_⟩
          rw [gathered_concat_of_not, same]
          rintro ⟨_, rfl⟩
          exact unopened member
        · rintro ⟨result, member, isName, same⟩
          rcases List.mem_append.mp member with old | now
          · refine ⟨result, old, isName, ?_⟩
            rwa [gathered_concat_of_not] at same
            rintro ⟨_, rfl⟩
            exact unopened old
          · rw [Option.toList_some, List.mem_singleton] at now
            exact absurd (now ▸ isName) sameName
    · have unrelated : action.opens kind = none := by
        rw [MergeAction.opens, if_neg]
        exact fun both => sameKind both.1.symm
      have unchanged : ∀ result, gathered kind result (actions ++ [action]) =
          gathered kind result actions := fun result =>
        gathered_concat_of_not fun both => sameKind both.1.symm
      rw [if_neg sameKind, unrelated, Option.toList_none, List.append_nil, described]
      simp only [unchanged]
  | false =>
    have unchangedOpened : ∀ kind, action.opens kind = none := by
      intro kind
      rw [MergeAction.opens, if_neg]
      rintro ⟨_, impossible⟩
      rw [opens] at impossible
      cases impossible
    have known : action.contribution.result ∈ opened action.contribution.kind actions := by
      simpa using assembled.grows actions action [] rfl opens
    have held := (described action.contribution.kind action.contribution.result.asStr _).mpr
      ⟨_, known, rfl, rfl⟩
    rw [unchangedOpened, Option.toList_none, List.append_nil] at names
    have only : ∀ result ∈ opened action.contribution.kind actions,
        result.asStr = action.contribution.result.asStr →
          result = action.contribution.result := fun result member same =>
      List.inj_on_of_nodup_map names member known same
    refine ⟨_, by rw [if_neg (by simp), extendAt, held]; rfl, ?_⟩
    intro kind name origins
    rw [OriginMaps.of_set, opened_concat, unchangedOpened, Option.toList_none, List.append_nil]
    by_cases sameKind : kind = action.contribution.kind
    · subst sameKind
      rw [if_pos rfl, OrderedMap.get_insert]
      by_cases sameName : action.contribution.result.asStr = name
      · rw [if_pos sameName]
        constructor
        · intro found
          refine ⟨_, known, sameName, ?_⟩
          rw [gathered_concat_of_concerns ⟨rfl, rfl⟩]
          exact Option.some.inj found
        · rintro ⟨result, member, isName, same⟩
          rw [only result member (isName.trans sameName.symm),
            gathered_concat_of_concerns ⟨rfl, rfl⟩] at same
          rw [same]
      · rw [if_neg sameName, described]
        have apart : ∀ result, result.asStr = name →
            gathered action.contribution.kind result (actions ++ [action]) =
              gathered action.contribution.kind result actions := by
          intro result isName
          refine gathered_concat_of_not ?_
          rintro ⟨_, rfl⟩
          exact sameName isName
        constructor
        · rintro ⟨result, member, isName, same⟩
          exact ⟨result, member, isName, (apart result isName).trans same⟩
        · rintro ⟨result, member, isName, same⟩
          exact ⟨result, member, isName, (apart result isName).symm.trans same⟩
    · have unchanged : ∀ result, gathered kind result (actions ++ [action]) =
          gathered kind result actions := fun result =>
        gathered_concat_of_not fun both => sameKind both.1.symm
      rw [if_neg sameKind, described]
      simp only [unchanged]

/-- **The reference does not panic on an assembled list**, and describes its result. -/
theorem materialize_describes {actions : List MergeAction} (assembled : Assembled actions) :
    ∃ maps, materialize actions = some maps ∧ Describes maps actions := by
  induction actions using List.reverseRecOn with
  | nil =>
    refine ⟨_, rfl, ?_⟩
    intro kind name origins
    cases kind <;> simp [OriginMaps.of, opened]
  | append_singleton actions action ih =>
    obtain ⟨maps, before, described⟩ := ih assembled.of_append
    obtain ⟨after, step, describedAfter⟩ := describes_step assembled described
    refine ⟨after, ?_, describedAfter⟩
    rw [materialize] at before ⊢
    rw [List.foldlM_append, before]
    simpa using step

/-! ## Tokens -/

/-- The token kind of the origins of an object. -/
def ResultKind.originToken : ResultKind → Nat
  | entity => 2
  | observation => 4
  | relation => 6

theorem ResultKind.originToken_injective : Function.Injective ResultKind.originToken := by
  intro left right same
  cases left <;> cases right <;> first | rfl | cases same

/-- An origin with the object it is brought to. -/
abbrev BroughtOrigin := ResultKind × ResultObjectId × OriginContribution

/-- The origins that the actions bring, one after another. -/
def broughtOrigins (actions : List MergeAction) : List BroughtOrigin :=
  actions.flatMap fun action => (ascending action.contribution.origins).map fun origin =>
    (action.contribution.kind, action.contribution.result, origin)

theorem mem_broughtOrigins {actions : List MergeAction} {brought : BroughtOrigin} :
    brought ∈ broughtOrigins actions ↔ brought.2.2 ∈ gathered brought.1 brought.2.1 actions := by
  obtain ⟨kind, result, origin⟩ := brought
  simp only [broughtOrigins, List.mem_flatMap, List.mem_map, mem_ascending, mem_gathered,
    Prod.mk.injEq]
  constructor
  · rintro ⟨action, member, _, found, rfl, rfl, rfl⟩
    exact ⟨action, member, rfl, rfl, found⟩
  · rintro ⟨action, member, rfl, rfl, found⟩
    exact ⟨action, member, origin, found, rfl, rfl, rfl⟩

/-- The bytes of the token of a brought origin. -/
def BroughtOrigin.bytes (brought : BroughtOrigin) : Bytes :=
  originBytes brought.1.originToken brought.2.1 brought.2.2

theorem BroughtOrigin.bytes_injective : Function.Injective BroughtOrigin.bytes := by
  rintro ⟨leftKind, leftResult, leftOrigin⟩ ⟨rightKind, rightResult, rightOrigin⟩ same
  have fields := List.append_cancel_left same
  have small : ∀ kind : ResultKind, kind.originToken < 2 ^ 16 := by
    intro kind
    cases kind <;> decide
  obtain ⟨kind, rest⟩ := Canonical.selfDelimiting_u16 (small leftKind) (small rightKind) fields
  obtain ⟨result, rest⟩ := selfDelimiting_encodeResultId.read rest
  have origin := selfDelimiting_encodeOrigin.injective trivial trivial rest
  exact Prod.ext (ResultKind.originToken_injective kind) (Prod.ext result origin)

section Retained

variable [Blake3]

def BroughtOrigin.token (brought : BroughtOrigin) : ResultToken :=
  ⟨brought.1.originToken, ⟨Blake3.hash brought.bytes⟩⟩

theorem filter_originsOnly (kind : ResultKind) (result : ResultObjectId)
    (origins : Finset OriginContribution) :
    (originsOnly kind.originToken result origins).filter isOriginToken =
      originsOnly kind.originToken result origins := by
  refine List.filter_eq_self.mpr fun token member => ?_
  obtain ⟨origin, _, rfl⟩ := List.mem_map.mp member
  cases kind <;> rfl

/-- The origin tokens of an action are those of the origins it brings. -/
theorem filter_resultTokens (action : MergeAction) :
    (resultTokens action).filter isOriginToken = originsOnly action.contribution.kind.originToken
      action.contribution.result action.contribution.origins := by
  cases action with
  | applyEntityDisposition source disposition =>
    cases disposition with
    | coalesce _ target _ => exact filter_originsOnly .entity _ _
    | addDistinct _ result _ _ => exact filter_originsOnly .entity _ _
  | keepTargetEntity => exact filter_originsOnly .entity _ _
  | keepTargetObservation => exact filter_originsOnly .observation _ _
  | addObservation => exact filter_originsOnly .observation _ _
  | mergeObservationOrigin => exact filter_originsOnly .observation _ _
  | keepTargetRelation => exact filter_originsOnly .relation _ _
  | addRelation => exact filter_originsOnly .relation _ _
  | mergeRelationOrigin => exact filter_originsOnly .relation _ _

theorem filter_tokens (actions : List MergeAction) :
    (actions.flatMap resultTokens).filter isOriginToken =
      (broughtOrigins actions).map BroughtOrigin.token := by
  rw [List.filter_flatMap, broughtOrigins, List.map_flatMap]
  refine congrArg (fun tokens => actions.flatMap tokens) (funext fun action => ?_)
  rw [filter_resultTokens, originsOnly, List.map_map]
  rfl

omit [Blake3] in
/-- Sorting and dropping repetitions counts each token once. -/
theorem length_distinct_origins (tokens : List ResultToken) :
    ((sortedDistinct tokens).filter isOriginToken).length =
      (tokens.filter isOriginToken).toFinset.card := by
  have distinct : ((sortedDistinct tokens).filter isOriginToken).Nodup :=
    (List.nodup_dedup _).filter _
  rw [← List.toFinset_card_of_nodup distinct]
  refine congrArg Finset.card (Finset.ext fun token => ?_)
  simp [sortedDistinct]

/-- Distinct tokens stand for distinct brought origins, unless they collide. -/
theorem retained_eq_card {actions : List MergeAction}
    (free : CollisionFree {bytes | bytes ∈ (broughtOrigins actions).map BroughtOrigin.bytes}) :
    ((sortedDistinct (actions.flatMap resultTokens)).filter isOriginToken).length =
      (broughtOrigins actions).toFinset.card := by
  have tokens : ((broughtOrigins actions).map BroughtOrigin.token).toFinset =
      (broughtOrigins actions).toFinset.image BroughtOrigin.token := by
    ext token
    simp
  rw [length_distinct_origins, filter_tokens, tokens]
  refine Finset.card_image_of_injOn ?_
  intro left leftMember right rightMember same
  rw [Finset.mem_coe, List.mem_toFinset] at leftMember rightMember
  have hashes := congrArg (fun token : ResultToken => token.value.digest) same
  exact BroughtOrigin.bytes_injective
    (free (List.mem_map_of_mem leftMember) (List.mem_map_of_mem rightMember) hashes)

end Retained

/-! ## Counting the origins of the result -/

/-- The sizes of the origin sets of all objects of one kind, added up. -/
def totalGathered (kind : ResultKind) (actions : List MergeAction) : Nat :=
  ((opened kind actions).map fun result => (gathered kind result actions).card).sum

section Counting

variable {actions : List MergeAction}

/-- The reference adds up the same sets. -/
theorem totalOrigins_eq (assembled : Assembled actions)
    (described : Describes maps actions) (kind : ResultKind) :
    totalOrigins (maps.of kind) = totalGathered kind actions := by
  have names := assembled.names_distinct kind
  have entries : (maps.of kind).toList.Perm ((opened kind actions).map fun result =>
      (result.asStr, gathered kind result actions)) := by
    refine (List.perm_ext_iff_of_nodup ?_ ?_).mpr ?_
    · exact List.Nodup.of_map Prod.fst (OrderedMap.nodup_keys_toList _)
    · refine List.Nodup.of_map Prod.fst ?_
      rw [List.map_map]
      exact names
    · rintro ⟨name, origins⟩
      rw [OrderedMap.mem_toList, described, List.mem_map]
      simp only [Prod.mk.injEq]
  rw [totalOrigins, (entries.map fun entry => entry.2.card).sum_eq, List.map_map]
  rfl

/-- Every brought origin belongs to exactly one object of the result. -/
theorem card_broughtOrigins (assembled : Assembled actions) :
    (broughtOrigins actions).toFinset.card = totalGathered .entity actions +
      totalGathered .observation actions + totalGathered .relation actions := by
  let objects : List (ResultKind × ResultObjectId) :=
    [ResultKind.entity, .observation, .relation].flatMap fun kind =>
      (opened kind actions).map fun result => (kind, result)
  have distinct : objects.Nodup := by
    have each : ∀ kind, (opened kind actions).Nodup := fun kind =>
      List.Nodup.of_map _ (assembled.names_distinct kind)
    have pairs : ∀ kind : ResultKind,
        ((opened kind actions).map fun result => (kind, result)).Nodup := fun kind =>
      (each kind).map fun _ _ same => (Prod.mk.inj same).2
    simp only [objects, List.flatMap_cons, List.flatMap_nil, List.append_nil, List.nodup_append,
      pairs, List.mem_append, List.mem_map, true_and]
    grind
  have covered : ∀ brought ∈ (broughtOrigins actions).toFinset,
      (brought.1, brought.2.1) ∈ objects.toFinset := by
    intro brought member
    rw [List.mem_toFinset, mem_broughtOrigins] at member
    obtain ⟨action, actionMember, sameKind, sameResult, _⟩ := mem_gathered.mp member
    have isOpen := assembled.result_opened actionMember
    rw [sameKind, sameResult] at isOpen
    rw [List.mem_toFinset, List.mem_flatMap]
    refine ⟨brought.1, ?_, List.mem_map_of_mem isOpen⟩
    cases brought.1 <;> simp
  have fibers : ∀ object : ResultKind × ResultObjectId,
      ((broughtOrigins actions).toFinset.filter fun brought =>
        (brought.1, brought.2.1) = object).card = (gathered object.1 object.2 actions).card := by
    rintro ⟨kind, result⟩
    have fiber : (broughtOrigins actions).toFinset.filter (fun brought =>
        (brought.1, brought.2.1) = (kind, result)) =
          (gathered kind result actions).image fun origin => (kind, result, origin) := by
      ext ⟨otherKind, otherResult, origin⟩
      simp only [Finset.mem_filter, List.mem_toFinset, mem_broughtOrigins, Finset.mem_image,
        Prod.mk.injEq]
      constructor
      · rintro ⟨found, rfl, rfl⟩
        exact ⟨origin, found, rfl, rfl, rfl⟩
      · rintro ⟨_, found, rfl, rfl, rfl⟩
        exact ⟨found, rfl, rfl⟩
    rw [fiber]
    exact Finset.card_image_of_injective _ fun _ _ same => (Prod.mk.inj (Prod.mk.inj same).2).2
  rw [Finset.card_eq_sum_card_fiberwise covered, Finset.sum_congr rfl fun object _ => fibers object,
    List.sum_toFinset _ distinct]
  simp [objects, totalGathered, Function.comp_def, Nat.add_assoc]

/-- **The planner retains as many origins as the reference.** -/
theorem retained_eq [Blake3] (assembled : Assembled actions) (described : Describes maps actions)
    (free : CollisionFree {bytes | bytes ∈ (broughtOrigins actions).map BroughtOrigin.bytes}) :
    ((sortedDistinct (actions.flatMap resultTokens)).filter isOriginToken).length =
      totalOrigins maps.entities + totalOrigins maps.observations +
        totalOrigins maps.relations := by
  rw [retained_eq_card free, card_broughtOrigins assembled]
  rw [← totalOrigins_eq assembled described .entity,
    ← totalOrigins_eq assembled described .observation,
    ← totalOrigins_eq assembled described .relation]
  rfl

end Counting

end OpenMemory.Merge
