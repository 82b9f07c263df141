import OpenMemory.Engine.Guarantees.Placement
import OpenMemory.Engine.ProfileGraph

/-!
# The profile that routing makes

The rows of all plans together are the canonical entities and observations as they
were, the stubs that were made, the edges, and the mirrors of those that cross a
boundary. Each edge ends at what it was resolved to, or at a stub of the entity that
first needed one under its key.
-/

namespace OpenMemory.Engine.Rehoming

open Foundation OpenMemory.Graph OpenMemory.Engine.Partition

/-! ## Legs -/

section Legs

variable [CaseMapping] {host : RouteHost} {profile : Exported}

/-- What a canonical edge is resolved to. -/
structure Leg.ResolvedIn (profile : Exported) (leg : Leg) : Prop where
  canonical : profile.leavesStub leg.rel = false
  origin : leg.origin ∈ profile.canonical
  origin_id : leg.origin.id = leg.rel.fromEntity
  target : leg.target ∈ profile.canonical
  target_id : leg.target.id = leg.rel.toEntity ∨ ∃ stub ∈ profile.stubs,
    stub.id = leg.rel.toEntity ∧ profile.canonicalByKey (entityKey stub) = some leg.target

theorem mem_of_canonicalByKey {key : NameKey} {entity : Entity}
    (found : profile.canonicalByKey key = some entity) :
    entity ∈ profile.canonical ∧ entityKey entity = key := by
  obtain ⟨member, same⟩ := mem_of_findBy found
  exact ⟨mem_of_mem_lastBy member, same⟩

omit [CaseMapping] in
theorem leavesStub_iff (wellFormed : profile.WellFormed) {rel : Relation} :
    profile.leavesStub rel = true ↔ (profile.stubById rel.fromEntity).isSome := by
  rw [Exported.leavesStub, decide_eq_true_eq, Option.isSome_iff_exists, List.mem_map]
  refine exists_congr fun stub => ?_
  rw [stubById_eq_some wellFormed]

/-- Resolving tells mirrors from canonical edges, and finds the ends of these. -/
theorem resolveEdge_spec (wellFormed : profile.WellFormed) {rel : Relation} {found : Option Leg}
    (resolved : resolveEdge host profile rel = .ok found) :
    match found with
    | none => profile.leavesStub rel = true
    | some leg => leg.rel = rel ∧ leg.ResolvedIn profile := by
  unfold resolveEdge at resolved
  split at resolved
  next stub =>
    cases resolved
    exact (leavesStub_iff wellFormed).mpr stub
  next notStub =>
    have canonical : profile.leavesStub rel = false := by
      rw [← Bool.not_eq_true, leavesStub_iff wellFormed]
      exact notStub
    split at resolved
    next => cases resolved
    next origin origin_found =>
      obtain ⟨originMember, origin_id⟩ := (canonicalById_eq_some wellFormed).mp origin_found
      split at resolved
      next target target_found =>
        obtain ⟨member, same⟩ := (canonicalById_eq_some wellFormed).mp target_found
        cases resolved
        exact ⟨rfl, canonical, originMember, origin_id, member, .inl same⟩
      next =>
        split at resolved
        next => cases resolved
        next stub stub_found =>
          obtain ⟨stubMember, stub_id⟩ := (stubById_eq_some wellFormed).mp stub_found
          split at resolved
          next target target_found =>
            cases resolved
            exact ⟨rfl, canonical, originMember, origin_id, (mem_of_canonicalByKey target_found).1,
              .inr ⟨stub, stubMember, stub_id, target_found⟩⟩
          next => cases resolved

theorem legsOf_spec (wellFormed : profile.WellFormed) {relations : List Relation}
    (resolved : ∀ rel ∈ relations, ∃ leg, resolveEdge host profile rel = .ok leg) :
    (legsOf host profile relations).map Leg.rel =
        relations.filter (fun rel => !profile.leavesStub rel) ∧
      ∀ leg ∈ legsOf host profile relations, leg.ResolvedIn profile := by
  induction relations with
  | nil => exact ⟨rfl, by rintro _ ⟨⟩⟩
  | cons rel rest ih =>
    obtain ⟨rels, legs⟩ := ih (List.forall_mem_cons.mp resolved).2
    obtain ⟨found, one⟩ := resolved rel List.mem_cons_self
    have spec := resolveEdge_spec wellFormed one
    unfold legsOf at rels legs ⊢
    rw [List.filterMap_cons, List.filter_cons, one]
    cases found with
    | none =>
      rw [show profile.leavesStub rel = true from spec]
      exact ⟨rels, legs⟩
    | some leg =>
      obtain ⟨rel_eq, resolvedIn⟩ := spec
      subst rel_eq
      rw [resolvedIn.canonical]
      refine ⟨?_, fun other member => ?_⟩
      · rw [List.map_cons, rels]
        rfl
      · rcases List.mem_cons.mp member with rfl | later
        · exact resolvedIn
        · exact legs other later

/-- What the ends of a resolved edge stand for, where names are told apart. -/
theorem edge_of_resolved (wellFormed : profile.WellFormed) {leg : Leg}
    (resolved : leg.ResolvedIn profile) :
    (profile.edge leg.rel).origin = some leg.origin := by
  unfold Exported.edge
  rw [← resolved.origin_id]
  exact standsFor_canonical wellFormed resolved.origin

end Legs

/-! ## The rows of all plans -/

variable {row : Row}

section Gathered

variable [NameHash] [CaseMapping] {domains : Nat} [NeZero domains] {host : RouteHost}
  {profile : Exported} {plans : Plans domains} {made : List (Made domains)} {placed : List Row}

variable (routed : Routed host profile plans made placed)

include routed

theorem Routed.legs_eq : placed.map Row.leg = legsOf host profile profile.relations := by
  obtain ⟨state, -, legs⟩ := routed.legs
  exact legs.legs_eq

theorem Routed.resolvedIn
    (wellFormed : profile.WellFormed) : ∀ row ∈ placed, row.leg.ResolvedIn profile := by
  intro row member
  refine (legsOf_spec wellFormed routed.resolved).2 row.leg ?_
  rw [← routed.legs_eq]
  exact List.mem_map_of_mem member

theorem Routed.rels_eq (wellFormed : profile.WellFormed) :
    placed.map (fun row => row.leg.rel) = profile.canonicalRelations := by
  have rels := (legsOf_spec wellFormed routed.resolved).1
  rw [← routed.legs_eq, List.map_map] at rels
  exact rels

theorem Routed.first : made.map (fun stub => (stub.key, stub.of)) =
      newcomers [] (placed.flatMap fun row => row.leg.uses domains) := by
  obtain ⟨state, -, legs⟩ := routed.legs
  rw [legs.stubs.first, ← legs.legs_eq, List.flatMap_map]

theorem Routed.made_keys : (made.map Made.key).Nodup := by
  have distinct := (newcomers_keys [] (placed.flatMap fun row => row.leg.uses domains)).2
  rw [← routed.first, List.map_map] at distinct
  exact distinct

theorem Routed.made_ids :
    (made.map Made.id).Nodup ∧ ∀ stub ∈ made, ∃ count, host.newId count = stub.id := by
  obtain ⟨state, -, legs⟩ := routed.legs
  refine ⟨legs.stubs.minted.distinct, fun stub member => ?_⟩
  obtain ⟨count, -, drawn⟩ := legs.stubs.minted.drawn stub.id (List.mem_map_of_mem member)
  exact ⟨count, drawn⟩

variable {stub : Made domains}

/-- A stub was made for a leg over a boundary. -/
theorem Routed.made_for (member : stub ∈ made) : ∃ row ∈ placed, row.leg.Crosses domains ∧
      ((stub.key = row.leg.targetKey domains ∧ stub.of = row.leg.target) ∨
        (stub.key = row.leg.originKey domains ∧ stub.of = row.leg.origin)) := by
  have entry : (stub.key, stub.of) ∈ made.map fun stub => (stub.key, stub.of) :=
    List.mem_map_of_mem (f := fun stub : Made domains => (stub.key, stub.of)) member
  rw [routed.first] at entry
  obtain ⟨row, there, used⟩ := List.mem_flatMap.mp (newcomers_subset _ _ _ entry)
  unfold Leg.uses at used
  split at used
  next crosses =>
    refine ⟨row, there, crosses, ?_⟩
    rcases List.mem_cons.mp used with same | used
    · exact .inl (Prod.mk.inj same)
    · exact .inr (Prod.mk.inj (List.mem_singleton.mp used))
  next => cases used

theorem Routed.made_of (wellFormed : profile.WellFormed) (member : stub ∈ made) :
    stub.of ∈ profile.canonical ∧ entityKey stub.of = stub.key.2 ∧
      homeOf domains stub.of.name ≠ stub.key.1 := by
  obtain ⟨row, there, crosses, ⟨key, of⟩ | ⟨key, of⟩⟩ := routed.made_for member
  · rw [key, of]
    exact ⟨(routed.resolvedIn wellFormed row there).target, rfl, crosses.symm⟩
  · rw [key, of]
    exact ⟨(routed.resolvedIn wellFormed row there).origin, rfl, crosses⟩

/-- The first stub under a key is the only one. -/
theorem Routed.made_unique
    {other : Made domains} (member : stub ∈ made) (otherMember : other ∈ made)
    (same : stub.key = other.key) : stub = other :=
  List.inj_on_of_nodup_map routed.made_keys member otherMember same

omit routed in
omit [NameHash] [CaseMapping] in
theorem visited_perm (wellFormed : profile.WellFormed) :
    (host.visit.order (lastBy Entity.id profile.canonical)).Perm profile.canonical := by
  rw [lastBy_of_nodup wellFormed.canonical_ids]
  exact host.visit.perm _

theorem Routed.entities (domain : Fin domains) : (plans domain).entities =
      ((host.visit.order (lastBy Entity.id profile.canonical)).filter fun entity =>
        homeOf domains entity.name = domain) ++
      (made.filter fun stub => stub.key.1 = domain).map Made.stub := by
  obtain ⟨state, rows, legs⟩ := routed.legs
  rw [(rows domain).entities]
  exact legs.stubs.entities domain

theorem Routed.relations (domain : Fin domains) :
    (plans domain).relations = placed.flatMap fun row => row.placed domain := by
  obtain ⟨state, rows, legs⟩ := routed.legs
  rw [(rows domain).relations]
  exact legs.relations domain

theorem Routed.observations (domain : Fin domains) :
    (plans domain).observations = profile.observations.filter fun obs =>
      (profile.canonicalById obs.entityId).any fun entity =>
        homeOf domains entity.name = domain := by
  obtain ⟨state, rows, legs⟩ := routed.legs
  rw [(rows domain).observations]
  exact legs.observations domain

variable (wellFormed : profile.WellFormed)

include wellFormed

/-- All entities: the canonical ones as they were, and the stubs made. -/
theorem Routed.gather_entities :
    (gather plans).entities.Perm (profile.canonical ++ made.map Made.stub) := by
  have split : (gather plans).entities =
      (List.finRange domains).flatMap fun domain =>
        ((host.visit.order (lastBy Entity.id profile.canonical)).filter fun entity =>
          homeOf domains entity.name = domain) ++
        (made.filter fun stub => stub.key.1 = domain).map Made.stub := by
    unfold gather
    dsimp only
    exact congrArg (List.finRange domains).flatMap (funext routed.entities)
  rw [split]
  refine (List.flatMap_append_perm _ _ _).symm.trans (List.Perm.append ?_ ?_)
  · exact (perm_flatMap_groups _ _).trans (visited_perm wellFormed)
  · rw [← List.map_flatMap]
    exact (perm_flatMap_groups (fun stub : Made domains => stub.key.1) made).map _

omit wellFormed in
omit routed in
omit [NameHash] [CaseMapping] [NeZero domains] in
@[simp] theorem isStub_stub (stub : Made domains) : isStub stub.stub = true := by
  rw [isStub, Made.stub, stubOf, decide_eq_true_eq]

theorem Routed.gather_canonical : (gather plans).canonical.Perm profile.canonical := by
  have split := (routed.gather_entities wellFormed).filter fun entity => !isStub entity
  rw [List.filter_append, List.filter_map] at split
  have kept : profile.canonical.filter (fun entity => !isStub entity) = profile.canonical := by
    rw [List.filter_eq_self]
    intro entity member
    rw [(mem_canonical.mp member).2]
    rfl
  have dropped : made.filter ((fun entity => !isStub entity) ∘ Made.stub) = [] := by
    rw [List.filter_eq_nil_iff]
    intro stub _
    simp
  rw [kept, dropped, List.map_nil, List.append_nil] at split
  exact split

theorem Routed.mem_gather_stubs (member : stub ∈ made) : stub.stub ∈ (gather plans).stubs := by
  refine mem_stubs.mpr ⟨?_, isStub_stub stub⟩
  rw [(routed.gather_entities wellFormed).mem_iff]
  exact List.mem_append_right _ (List.mem_map_of_mem member)

omit wellFormed in
theorem Routed.gather_observations : (gather plans).observations.Perm profile.observations := by
  have split : (gather plans).observations =
      (List.finRange domains).flatMap fun domain => profile.observations.filter fun obs =>
        (profile.canonicalById obs.entityId).any fun entity =>
          homeOf domains entity.name = domain := by
    unfold gather
    dsimp only
    exact congrArg (List.finRange domains).flatMap (funext routed.observations)
  -- every observation has an entity, and so a domain
  have grouped : ∀ domain, (profile.observations.filter fun obs =>
        (profile.canonicalById obs.entityId).any fun entity =>
          homeOf domains entity.name = domain) =
      profile.observations.filter fun obs =>
        ((profile.canonicalById obs.entityId).map fun entity => homeOf domains entity.name).getD
          ⟨0, NeZero.pos domains⟩ = domain := by
    intro domain
    refine List.filter_congr fun obs member => ?_
    obtain ⟨entity, found⟩ := Option.isSome_iff_exists.mp (routed.observed obs member)
    rw [found]
    rfl
  rw [split, funext grouped]
  exact perm_flatMap_groups _ _

omit wellFormed in
/-- All relations: the edges, and the mirrors of those over a boundary. -/
theorem Routed.gather_relations : (gather plans).relations.Perm (placed.map (Row.edge domains) ++
      (placed.filter fun row => row.leg.Crosses domains).map Row.mirror) := by
  have edges : ((List.finRange domains).flatMap fun domain => placed.flatMap fun row =>
      if homeOf domains row.leg.origin.name = domain then [row.edge domains] else []).Perm
        (placed.map (Row.edge domains)) := by
    have grouped : (fun domain => placed.flatMap fun row =>
        if homeOf domains row.leg.origin.name = domain then [row.edge domains] else []) =
        fun domain => (placed.filter fun row =>
          homeOf domains row.leg.origin.name = domain).map (Row.edge domains) := by
      funext domain
      exact flatMap_ite_singleton _ _ _
    rw [grouped, ← List.map_flatMap]
    exact (perm_flatMap_groups _ _).map _
  have mirrors : ((List.finRange domains).flatMap fun domain => placed.flatMap fun row =>
      if row.leg.Crosses domains ∧ homeOf domains row.leg.target.name = domain then [row.mirror]
        else []).Perm ((placed.filter fun row => row.leg.Crosses domains).map Row.mirror) := by
    have grouped : (fun domain => placed.flatMap fun row =>
        if row.leg.Crosses domains ∧ homeOf domains row.leg.target.name = domain then [row.mirror]
          else []) =
        fun domain => ((placed.filter fun row => row.leg.Crosses domains).filter fun row =>
          homeOf domains row.leg.target.name = domain).map Row.mirror := by
      funext domain
      rw [flatMap_ite_singleton, List.filter_filter]
      congr 2
      funext row
      rw [Bool.decide_and, Bool.and_comm]
    rw [grouped, ← List.map_flatMap]
    exact (perm_flatMap_groups _ _).map _
  have split : (gather plans).relations = (List.finRange domains).flatMap fun domain =>
      placed.flatMap fun row => row.placed domain := by
    unfold gather
    dsimp only
    exact congrArg (List.finRange domains).flatMap (funext routed.relations)
  have parts : ∀ domain, (placed.flatMap fun row => row.placed domain).Perm
      ((placed.flatMap fun row =>
        if row.leg.Crosses domains ∧ homeOf domains row.leg.target.name = domain then [row.mirror]
          else []) ++
      placed.flatMap fun row =>
        if homeOf domains row.leg.origin.name = domain then [row.edge domains] else []) :=
    fun domain => (List.flatMap_append_perm _ _ _).symm
  rw [split]
  refine (List.Perm.flatMap_left _ fun domain _ => parts domain).trans ?_
  refine (List.flatMap_append_perm _ _ _).symm.trans ?_
  exact (mirrors.append edges).trans List.perm_append_comm

/-- The new profile is well-formed again. -/
theorem Routed.gather_wellFormed (mints : host.Mints profile) : (gather plans).WellFormed := by
  obtain ⟨ids, drawn⟩ := routed.made_ids
  refine ⟨?_, ?_, ?_⟩
  · rw [((routed.gather_entities wellFormed).map _).nodup_iff, List.map_append, List.map_map,
      List.nodup_append]
    refine ⟨wellFormed.canonical_ids, ids, fun id old other new same => ?_⟩
    obtain ⟨entity, member, rfl⟩ := List.mem_map.mp old
    obtain ⟨stub, made, rfl⟩ := List.mem_map.mp new
    obtain ⟨count, minted⟩ := drawn stub made
    refine mints.fresh_entity count (List.mem_map.mpr ⟨entity, (mem_canonical.mp member).1, ?_⟩)
    exact same.trans minted.symm
  · rw [((routed.gather_canonical wellFormed).map _).nodup_iff]
    exact wellFormed.entity_names
  · obtain ⟨state, -, legs⟩ := routed.legs
    rw [(routed.gather_relations.map _).nodup_iff, List.map_append, List.map_map, List.map_map,
      List.nodup_append]
    have rels : placed.map (Relation.id ∘ Row.edge domains) =
        profile.canonicalRelations.map Relation.id := by
      rw [← routed.rels_eq wellFormed, List.map_map]
      rfl
    rw [rels]
    refine ⟨wellFormed.relation_ids.sublist (List.filter_sublist.map _), legs.mirrors.distinct, ?_⟩
    intro id old other new same
    obtain ⟨count, -, minted⟩ := legs.mirrors.drawn other new
    refine mints.fresh_relation count ?_
    rw [minted, ← same]
    exact (List.filter_sublist.map _).subset old

/-! ## What the new rows stand for -/

theorem Routed.standsFor_kept (mints : host.Mints profile) {entity : Entity}
    (member : entity ∈ profile.canonical) : (gather plans).standsFor entity.id = some entity :=
  standsFor_canonical (routed.gather_wellFormed wellFormed mints)
    ((routed.gather_canonical wellFormed).mem_iff.mpr member)

theorem Routed.standsFor_made (mints : host.Mints profile)
    (member : stub ∈ made) : (gather plans).standsFor stub.id = some stub.of :=
  standsFor_stub_of_mem (routed.gather_wellFormed wellFormed mints)
    (routed.mem_gather_stubs wellFormed member)
    ((routed.gather_canonical wellFormed).mem_iff.mpr (routed.made_of wellFormed member).1) rfl

theorem Routed.edge_leaves (mints : host.Mints profile)
    (member : row ∈ placed) : (gather plans).leavesStub (row.edge domains) = false := by
  have resolved := routed.resolvedIn wellFormed row member
  rw [Exported.leavesStub, decide_eq_false_iff_not]
  intro leaves
  obtain ⟨stub, there, same⟩ := List.mem_map.mp leaves
  refine ne_of_stub_of_canonical (routed.gather_wellFormed wellFormed mints) there
    ((routed.gather_canonical wellFormed).mem_iff.mpr resolved.origin) ?_
  exact resolved.origin_id.trans same.symm

omit wellFormed in
/-- The stub that a leg over a boundary was given for its target. -/
theorem Routed.targetStub (member : row ∈ placed) (crosses : row.leg.Crosses domains) :
    ∃ stub ∈ made, stub.key = row.leg.targetKey domains ∧ stub.id = row.targetStub := by
  obtain ⟨state, -, legs⟩ := routed.legs
  exact legs.targetStub row member crosses

omit wellFormed in
theorem Routed.originStub (member : row ∈ placed) (crosses : row.leg.Crosses domains) :
    ∃ stub ∈ made, stub.key = row.leg.originKey domains ∧ stub.id = row.originStub := by
  obtain ⟨state, -, legs⟩ := routed.legs
  exact legs.originStub row member crosses

theorem Routed.mirror_leaves (member : row ∈ placed)
    (crosses : row.leg.Crosses domains) : (gather plans).leavesStub row.mirror = true := by
  obtain ⟨stub, there, -, same⟩ := routed.originStub member crosses
  rw [Exported.leavesStub, decide_eq_true_eq]
  exact List.mem_map.mpr ⟨stub.stub, routed.mem_gather_stubs wellFormed there, same⟩

/-- The canonical relations of the new profile are the edges placed. -/
theorem Routed.gather_canonicalRelations (mints : host.Mints profile) :
    (gather plans).canonicalRelations.Perm (placed.map (Row.edge domains)) := by
  have split := routed.gather_relations.filter fun rel => !(gather plans).leavesStub rel
  have edges : (placed.map (Row.edge domains)).filter (fun rel => !(gather plans).leavesStub rel) =
      placed.map (Row.edge domains) := by
    rw [List.filter_eq_self]
    intro rel member
    obtain ⟨row, there, rfl⟩ := List.mem_map.mp member
    rw [routed.edge_leaves wellFormed mints there]
    rfl
  have mirrors : (((placed.filter fun row => row.leg.Crosses domains).map Row.mirror).filter
      fun rel => !(gather plans).leavesStub rel) = [] := by
    rw [List.filter_eq_nil_iff]
    intro rel member
    obtain ⟨row, there, rfl⟩ := List.mem_map.mp member
    obtain ⟨there, crosses⟩ := List.mem_filter.mp there
    rw [routed.mirror_leaves wellFormed there (of_decide_eq_true crosses)]
    simp
  rw [List.filter_append, edges, mirrors, List.append_nil] at split
  exact split

/-- The mirrors in a domain. -/
theorem Routed.mirrors_eq (mints : host.Mints profile) (domain : Fin domains) :
    (plans domain).relations.filter (gather plans).leavesStub =
      (placed.filter fun row => row.leg.Crosses domains ∧
        homeOf domains row.leg.target.name = domain).map Row.mirror := by
  rw [routed.relations, List.filter_flatMap, ← flatMap_ite_singleton]
  rw [List.flatMap_def, List.flatMap_def]
  congr 1
  refine List.map_congr_left fun row member => ?_
  unfold Row.placed
  rw [List.filter_append]
  have noEdge : (if homeOf domains row.leg.origin.name = domain then [row.edge domains]
      else []).filter (gather plans).leavesStub = [] := by
    split
    next => rw [List.filter_singleton, routed.edge_leaves wellFormed mints member, cond_false]
    next => rfl
  rw [noEdge, List.append_nil]
  split
  next into =>
    rw [List.filter_singleton, routed.mirror_leaves wellFormed member into.1, cond_true]
  next => rfl

end Gathered

end OpenMemory.Engine.Rehoming
