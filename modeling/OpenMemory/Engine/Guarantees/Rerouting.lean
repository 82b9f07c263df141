import OpenMemory.Engine.Guarantees.NewProfile

/-!
# When a migration preserves the graph

Routing looks through an old stub by its lower-cased name, and shares a new stub
among all entities of one lower-cased name and type. So it preserves the graph
exactly where it tells the names that matter apart: an old stub that an edge points
at is resolved to its own name, and no two entities that need a stub in one new
domain differ in letter case only.
-/

namespace OpenMemory.Engine.Rehoming

open Foundation OpenMemory.Graph OpenMemory.Engine.Partition

/-! ## When nothing is confused -/

section Gathered

variable [NameHash] [CaseMapping] {domains : Nat} [NeZero domains] {host : RouteHost}
  {profile : Exported} {plans : Plans domains} {made : List (Made domains)} {placed : List Row}

def Leg.toEdge (leg : Leg) : Edge where
  origin := some leg.origin
  target := some leg.target
  relationType := leg.rel.relationType
  weight := leg.rel.weight
  createdAt := leg.rel.createdAt
  validFrom := leg.rel.validFrom
  validUntil := leg.rel.validUntil
  source := leg.rel.source

/-- Every leg ends where its relation did, and every stub that it uses is of the
entity it is used for. -/
structure Exact (profile : Exported) (made : List (Made domains)) (placed : List Row) : Prop where
  targets : ∀ row ∈ placed, profile.standsFor row.leg.rel.toEntity = some row.leg.target
  targetStubs : ∀ stub ∈ made, ∀ row ∈ placed, row.leg.Crosses domains →
    stub.key = row.leg.targetKey domains → stub.of = row.leg.target
  originStubs : ∀ stub ∈ made, ∀ row ∈ placed, row.leg.Crosses domains →
    stub.key = row.leg.originKey domains → stub.of = row.leg.origin

omit [NameHash] [NeZero domains] in
theorem edge_eq_toEdge (wellFormed : profile.WellFormed) {leg : Leg}
    (resolved : leg.ResolvedIn profile)
    (target : profile.standsFor leg.rel.toEntity = some leg.target) :
    profile.edge leg.rel = leg.toEdge := by
  have origin := edge_of_resolved wellFormed resolved
  unfold Exported.edge at origin ⊢
  dsimp only at origin
  rw [origin, target]
  rfl

omit [CaseMapping] in
theorem mem_stubUses_toEdge {leg : Leg} {use : Fin domains × Entity} :
    use ∈ leg.toEdge.stubUses domains ↔ leg.Crosses domains ∧
      (use = (homeOf domains leg.origin.name, leg.target) ∨
        use = (homeOf domains leg.target.name, leg.origin)) := by
  unfold Edge.stubUses Leg.toEdge Leg.Crosses
  dsimp only
  split
  next home => simp [home]
  next away => simp [away]

/-- The uses of stubs in the profile, where every leg ends where its relation did. -/
theorem Routed.mem_stubUses (routed : Routed host profile plans made placed)
    (wellFormed : profile.WellFormed)
    (targets : ∀ row ∈ placed, profile.standsFor row.leg.rel.toEntity = some row.leg.target)
    {use : Fin domains × Entity} :
    use ∈ profile.stubUses domains ↔ ∃ row ∈ placed, row.leg.Crosses domains ∧
      (use = (homeOf domains row.leg.origin.name, row.leg.target) ∨
        use = (homeOf domains row.leg.target.name, row.leg.origin)) := by
  rw [Exported.stubUses, ← routed.rels_eq wellFormed, List.flatMap_map, List.mem_flatMap]
  refine exists_congr fun row => and_congr_right fun member => ?_
  rw [edge_eq_toEdge wellFormed (routed.resolvedIn wellFormed row member) (targets row member)]
  exact mem_stubUses_toEdge

theorem Routed.exact_of_faithful (routed : Routed host profile plans made placed)
    (wellFormed : profile.WellFormed) (faithful : Faithful domains profile) :
    Exact profile made placed := by
  have targets : ∀ row ∈ placed,
      profile.standsFor row.leg.rel.toEntity = some row.leg.target := by
    intro row member
    have resolved := routed.resolvedIn wellFormed row member
    rcases resolved.target_id with direct | ⟨stub, there, same, found⟩
    · rw [← direct]
      exact standsFor_canonical wellFormed resolved.target
    · have canonical : row.leg.rel ∈ profile.canonicalRelations := by
        rw [← routed.rels_eq wellFormed]
        exact List.mem_map_of_mem member
      have name := faithful.resolved _ canonical stub there same _ found
      have type : row.leg.target.entityType = stub.entityType :=
        congrArg Prod.snd (mem_of_canonicalByKey found).2
      rw [← same]
      refine standsFor_stub_of_mem wellFormed there resolved.target ?_
      rw [exactName, exactName, name, type]
  -- the stub under a key is of an entity that needs it, as the target or the origin does
  have shared : ∀ stub ∈ made, ∀ use ∈ profile.stubUses domains,
      stub.key = (use.1, entityKey use.2) → stub.of = use.2 := by
    intro stub member use used key
    obtain ⟨-, of_key, -⟩ := routed.made_of wellFormed member
    have stubUsed : (stub.key.1, stub.of) ∈ profile.stubUses domains := by
      rw [routed.mem_stubUses wellFormed targets]
      obtain ⟨row, there, crosses, ⟨key, of⟩ | ⟨key, of⟩⟩ := routed.made_for member
      · exact ⟨row, there, crosses, .inl (by rw [key, of]; rfl)⟩
      · exact ⟨row, there, crosses, .inr (by rw [key, of]; rfl)⟩
    have domain : stub.key.1 = use.1 := congrArg Prod.fst key
    have name : stub.key.2 = entityKey use.2 := congrArg Prod.snd key
    exact faithful.apart _ stubUsed use used domain (of_key.trans name)
  refine ⟨targets, ?_, ?_⟩
  · intro stub member row there crosses key
    refine shared stub member (homeOf domains row.leg.origin.name, row.leg.target) ?_ key
    exact (routed.mem_stubUses wellFormed targets).mpr ⟨row, there, crosses, .inl rfl⟩
  · intro stub member row there crosses key
    refine shared stub member (homeOf domains row.leg.target.name, row.leg.origin) ?_ key
    exact (routed.mem_stubUses wellFormed targets).mpr ⟨row, there, crosses, .inr rfl⟩

theorem Routed.faithful_of_exact (routed : Routed host profile plans made placed)
    (wellFormed : profile.WellFormed) (exact_ : Exact profile made placed) :
    Faithful domains profile := by
  refine ⟨?_, ?_⟩
  · intro rel canonical stub there same target found
    rw [← routed.rels_eq wellFormed] at canonical
    obtain ⟨row, member, rfl⟩ := List.mem_map.mp canonical
    have resolved := routed.resolvedIn wellFormed row member
    have stands := exact_.targets row member
    rcases resolved.target_id with direct | ⟨other, otherThere, otherSame, otherFound⟩
    · exact absurd (direct.trans same.symm)
        (ne_of_stub_of_canonical wellFormed there resolved.target)
    · have equal : other = stub := List.inj_on_of_nodup_map wellFormed.stub_ids otherThere there
        (otherSame.trans same.symm)
      rw [equal, found] at otherFound
      rw [← same, standsFor_stub wellFormed there, ← Option.some.inj otherFound] at stands
      exact congrArg Prod.fst (mem_of_findBy stands).2
  · -- the stub made under the key of a use is of the entity that needs it
    have owned : ∀ use ∈ profile.stubUses domains, ∃ stub ∈ made,
        stub.key = (use.1, entityKey use.2) ∧ stub.of = use.2 := by
      intro use used
      obtain ⟨row, member, crosses, rfl | rfl⟩ :=
        (routed.mem_stubUses wellFormed exact_.targets).mp used
      · obtain ⟨stub, there, key, -⟩ := routed.targetStub member crosses
        exact ⟨stub, there, key, exact_.targetStubs stub there row member crosses key⟩
      · obtain ⟨stub, there, key, -⟩ := routed.originStub member crosses
        exact ⟨stub, there, key, exact_.originStubs stub there row member crosses key⟩
    intro use used other otherUsed domain key
    obtain ⟨stub, there, stubKey, of⟩ := owned use used
    obtain ⟨otherStub, otherThere, otherKey, otherOf⟩ := owned other otherUsed
    have same : stub = otherStub := by
      refine routed.made_unique there otherThere ?_
      rw [stubKey, otherKey, domain, key]
    rw [← of, ← otherOf, same]

/-! ## Exact plans preserve the profile -/

section Preserves

variable (routed : Routed host profile plans made placed) (wellFormed : profile.WellFormed)
  (mints : host.Mints profile)

include routed wellFormed mints

/-- An edge that was placed stands for the edge that it was. -/
theorem edge_of_exact (exact_ : Exact profile made placed) {row : Row} (member : row ∈ placed) :
    (gather plans).edge (row.edge domains) = profile.edge row.leg.rel := by
  have resolved := routed.resolvedIn wellFormed row member
  have origin : (gather plans).standsFor row.leg.rel.fromEntity = some row.leg.origin := by
    rw [← resolved.origin_id]
    exact routed.standsFor_kept wellFormed mints resolved.origin
  have target : (gather plans).standsFor (row.edge domains).toEntity = some row.leg.target := by
    unfold Row.edge
    dsimp only
    split
    next crosses =>
      obtain ⟨stub, there, key, id⟩ := routed.targetStub member crosses
      rw [← id, routed.standsFor_made wellFormed mints there,
        exact_.targetStubs stub there row member crosses key]
    next => exact routed.standsFor_kept wellFormed mints resolved.target
  rw [edge_eq_toEdge wellFormed resolved (exact_.targets row member)]
  unfold Exported.edge
  rw [target]
  unfold Row.edge
  dsimp only
  rw [origin]
  rfl

/-- So does a mirror. -/
theorem mirror_of_exact (exact_ : Exact profile made placed) {row : Row} (member : row ∈ placed)
    (crosses : row.leg.Crosses domains) :
    (gather plans).edge row.mirror = profile.edge row.leg.rel := by
  have resolved := routed.resolvedIn wellFormed row member
  obtain ⟨stub, there, key, id⟩ := routed.originStub member crosses
  have origin : (gather plans).standsFor row.originStub = some row.leg.origin := by
    rw [← id, routed.standsFor_made wellFormed mints there,
      exact_.originStubs stub there row member crosses key]
  have target := routed.standsFor_kept wellFormed mints resolved.target
  rw [edge_eq_toEdge wellFormed resolved (exact_.targets row member)]
  unfold Exported.edge Row.mirror mirrorOf
  dsimp only
  rw [origin, target]
  rfl

theorem sameGraph_of_exact (exact_ : Exact profile made placed) :
    SameGraph profile (gather plans) := by
  refine ⟨(routed.gather_canonical wellFormed).symm, routed.gather_observations.symm, ?_⟩
  refine List.Perm.trans ?_ ((routed.gather_canonicalRelations wellFormed mints).map _).symm
  rw [← routed.rels_eq wellFormed, List.map_map, List.map_map]
  refine List.Perm.of_eq (List.map_congr_left fun row member => ?_)
  exact Prod.ext rfl (edge_of_exact routed wellFormed mints exact_ member).symm

omit mints in
/-- A canonical row is in the domain of its name. -/
theorem mem_home {entity : Entity} (member : entity ∈ profile.canonical) :
    entity ∈ (plans (homeOf domains entity.name)).entities := by
  rw [routed.entities]
  refine List.mem_append_left _ (List.mem_filter.mpr ⟨?_, by simp⟩)
  exact (visited_perm wellFormed).mem_iff.mpr member

omit wellFormed mints in
theorem mem_stub_domain {stub : Made domains} (member : stub ∈ made) :
    stub.stub ∈ (plans stub.key.1).entities := by
  rw [routed.entities]
  exact List.mem_append_right _ (List.mem_map_of_mem (List.mem_filter.mpr ⟨member, by simp⟩))

omit mints in
/-- No two stubs of a domain have the same name and type. -/
theorem stubs_distinct (domain : Fin domains) :
    (((plans domain).entities.filter isStub).map exactName).Nodup := by
  have stubRows : (plans domain).entities.filter isStub =
      (made.filter fun stub => stub.key.1 = domain).map Made.stub := by
    rw [routed.entities, List.filter_append, List.filter_filter]
    have noKept : (host.visit.order (lastBy Entity.id profile.canonical)).filter (fun entity =>
        isStub entity && decide (homeOf domains entity.name = domain)) = [] := by
      rw [List.filter_eq_nil_iff]
      intro entity member
      rw [(mem_canonical.mp ((visited_perm wellFormed).mem_iff.mp member)).2]
      simp
    rw [noKept, List.nil_append, List.filter_eq_self]
    intro entity member
    obtain ⟨stub, -, rfl⟩ := List.mem_map.mp member
    exact isStub_stub stub
  rw [stubRows, List.map_map]
  refine List.Nodup.map_on ?_ ((List.Nodup.of_map _ routed.made_keys).filter _)
  intro stub member other otherMember same
  obtain ⟨there, home⟩ := List.mem_filter.mp member
  obtain ⟨otherThere, otherHome⟩ := List.mem_filter.mp otherMember
  have name : stub.of.name = other.of.name := congrArg Prod.fst same
  have type : stub.of.entityType = other.of.entityType := congrArg Prod.snd same
  refine routed.made_unique there otherThere (Prod.ext ?_ ?_)
  · exact (of_decide_eq_true home).trans (of_decide_eq_true otherHome).symm
  · rw [← (routed.made_of wellFormed there).2.1, ← (routed.made_of wellFormed otherThere).2.1,
      entityKey, entityKey, name, type]

theorem preserved_of_exact (exact_ : Exact profile made placed) : Preserved profile plans := by
  refine ⟨sameGraph_of_exact routed wellFormed mints exact_, ?_, ?_, ?_, ?_, ?_, ?_⟩
  · intro domain entity member canonical
    rw [routed.entities] at member
    rcases List.mem_append.mp member with kept | new
    · exact of_decide_eq_true (List.mem_filter.mp kept).2
    · obtain ⟨stub, -, rfl⟩ := List.mem_map.mp new
      rw [isStub_stub] at canonical
      cases canonical
  · intro domain obs member
    rw [routed.observations] at member
    obtain ⟨-, home⟩ := List.mem_filter.mp member
    rw [Option.any_eq_true] at home
    obtain ⟨entity, found, home⟩ := home
    obtain ⟨canonical, id⟩ := (canonicalById_eq_some wellFormed).mp found
    refine ⟨entity, ?_, (mem_canonical.mp canonical).2, id⟩
    rw [← of_decide_eq_true home]
    exact mem_home routed wellFormed canonical
  · intro domain rel member
    rw [routed.relations] at member
    obtain ⟨row, there, placed⟩ := List.mem_flatMap.mp member
    have resolved := routed.resolvedIn wellFormed row there
    have origin := List.mem_map_of_mem (f := Entity.id) (mem_home routed wellFormed resolved.origin)
    have target := List.mem_map_of_mem (f := Entity.id) (mem_home routed wellFormed resolved.target)
    rcases List.mem_append.mp placed with mirror | edge
    · split at mirror
      next into =>
        obtain ⟨stub, stubThere, key, id⟩ := routed.originStub there into.1
        have row_mem := List.mem_map_of_mem (f := Entity.id) (mem_stub_domain routed stubThere)
        rw [List.mem_singleton.mp mirror, ← into.2]
        rw [key] at row_mem
        refine ⟨?_, target⟩
        rw [show row.mirror.fromEntity = stub.stub.id from id.symm]
        exact row_mem
      next => cases mirror
    · split at edge
      next home =>
        rw [List.mem_singleton.mp edge, ← home]
        refine ⟨?_, ?_⟩
        · rw [show (row.edge domains).fromEntity = row.leg.origin.id from resolved.origin_id.symm]
          exact origin
        · unfold Row.edge
          dsimp only
          split
          next crosses =>
            obtain ⟨stub, stubThere, key, id⟩ := routed.targetStub there crosses
            have row_mem := List.mem_map_of_mem (f := Entity.id) (mem_stub_domain routed stubThere)
            rw [key] at row_mem
            rw [← id]
            exact row_mem
          next stays =>
            rw [not_not.mp stays]
            exact target
      next => cases edge
  · intro domain
    rw [routed.mirrors_eq wellFormed mints, ← routed.rels_eq wellFormed, List.map_map, List.map_map,
      List.filter_map]
    refine List.Perm.of_eq ?_
    have filters : placed.filter (fun row => row.leg.Crosses domains ∧
          homeOf domains row.leg.target.name = domain) =
        placed.filter ((fun edge => edge.crossesInto domain) ∘
          profile.edge ∘ fun row => row.leg.rel) := by
      refine List.filter_congr fun row member => ?_
      rw [Function.comp_apply, Function.comp_apply, edge_eq_toEdge wellFormed
        (routed.resolvedIn wellFormed row member) (exact_.targets row member)]
      rfl
    rw [← filters]
    refine List.map_congr_left fun row member => ?_
    obtain ⟨there, into⟩ := List.mem_filter.mp member
    exact mirror_of_exact routed wellFormed mints exact_ there (of_decide_eq_true into).1
  · intro domain
    exact stubs_distinct routed wellFormed domain
  · intro domain entity member stubRow
    rw [routed.entities] at member
    rcases List.mem_append.mp member with kept | new
    · have canonical := (visited_perm wellFormed).mem_iff.mp (List.mem_of_mem_filter kept)
      rw [(mem_canonical.mp canonical).2] at stubRow
      cases stubRow
    · obtain ⟨stub, there, rfl⟩ := List.mem_map.mp new
      obtain ⟨there, home⟩ := List.mem_filter.mp there
      refine ⟨stub.of, routed.standsFor_made wellFormed mints there, ?_⟩
      rw [routed.mem_stubUses wellFormed exact_.targets, ← of_decide_eq_true home]
      obtain ⟨row, rowThere, crosses, ⟨key, of⟩ | ⟨key, of⟩⟩ := routed.made_for there
      · exact ⟨row, rowThere, crosses, .inl (by rw [key, of]; rfl)⟩
      · exact ⟨row, rowThere, crosses, .inr (by rw [key, of]; rfl)⟩

/-! ## Only exact plans do -/

/-- Edges carry the ids of their relations, so each edge is kept by itself. -/
theorem edge_of_preserved (preserved : Preserved profile plans) :
    ∀ row ∈ placed, profile.edge row.leg.rel = (gather plans).edge (row.edge domains) := by
  have edges := preserved.graph.edges.trans
    ((routed.gather_canonicalRelations wellFormed mints).map _)
  rw [← routed.rels_eq wellFormed, List.map_map, List.map_map] at edges
  have distinct : (placed.map fun row => row.leg.rel.id).Nodup := by
    have ids : placed.map (fun row => row.leg.rel.id) =
        profile.canonicalRelations.map Relation.id := by
      rw [← routed.rels_eq wellFormed, List.map_map]
      rfl
    rw [ids]
    exact wellFormed.relation_ids.sublist (List.filter_sublist.map _)
  exact eq_of_perm_of_nodup distinct edges

/-- The mirrors in a domain are those of the edges that cross into it. -/
theorem mirrors_of_preserved (preserved : Preserved profile plans) (domain : Fin domains) :
    ((placed.filter fun row => row.leg.Crosses domains ∧
        homeOf domains row.leg.target.name = domain).map fun row =>
          (gather plans).edge row.mirror).Perm
      ((placed.map fun row => profile.edge row.leg.rel).filter fun edge =>
        edge.crossesInto domain) := by
  have mirrors := preserved.mirrors domain
  rw [routed.mirrors_eq wellFormed mints, ← routed.rels_eq wellFormed, List.map_map,
    List.map_map] at mirrors
  exact mirrors

/-- An edge that was resolved to another entity than its stub stands for would be
missing among the mirrors. -/
theorem targets_of_preserved (preserved : Preserved profile plans) :
    ∀ row ∈ placed, profile.standsFor row.leg.rel.toEntity = some row.leg.target := by
  intro row member
  have resolved := routed.resolvedIn wellFormed row member
  have kept : profile.standsFor row.leg.rel.toEntity =
      (gather plans).standsFor (row.edge domains).toEntity :=
    congrArg Edge.target (edge_of_preserved routed wellFormed mints preserved row member)
  rcases resolved.target_id with direct | ⟨old, oldThere, oldSame, found⟩
  · rw [← direct]
    exact standsFor_canonical wellFormed resolved.target
  by_cases crosses : row.leg.Crosses domains
  swap
  · rw [kept, Row.edge, if_neg crosses]
    exact routed.standsFor_kept wellFormed mints resolved.target
  obtain ⟨stub, there, key, id⟩ := routed.targetStub member crosses
  have stands : profile.standsFor row.leg.rel.toEntity = some stub.of := by
    rw [kept, Row.edge, if_pos crosses, ← id]
    exact routed.standsFor_made wellFormed mints there
  by_contra differs
  rw [stands, Option.some_inj] at differs
  -- the entity that the old stub stands for is not the last of its lower-cased name
  have sameKey : entityKey stub.of = entityKey old := by
    rw [← oldSame, standsFor_stub wellFormed oldThere] at stands
    have name := (mem_of_findBy stands).2
    rw [exactName, exactName, Prod.mk.injEq] at name
    rw [entityKey, entityKey, name.1, name.2]
  have away : homeOf domains row.leg.origin.name ≠ homeOf domains stub.of.name := by
    have apart := (routed.made_of wellFormed there).2.2
    rw [key] at apart
    exact apart.symm
  have mirrors := mirrors_of_preserved routed wellFormed mints preserved
    (homeOf domains stub.of.name)
  have counts := mirrors.countP_eq fun edge => decide (edge.target = some stub.of)
  rw [List.countP_map, List.countP_filter, List.countP_filter, List.countP_map] at counts
  refine absurd counts (Nat.ne_of_lt (countP_lt_countP ?_ member ?_ ?_))
  · intro other otherMember holds
    have otherResolved := routed.resolvedIn wellFormed other otherMember
    simp only [Function.comp_apply, Bool.and_eq_true, decide_eq_true_eq] at holds ⊢
    obtain ⟨target, otherCrosses, -⟩ := holds
    have same : other.leg.target = stub.of := by
      have stands := routed.standsFor_kept wellFormed mints otherResolved.target
      exact Option.some_inj.mp (stands.symm.trans target)
    have direct : profile.standsFor other.leg.rel.toEntity = some other.leg.target := by
      rcases otherResolved.target_id with direct | ⟨stub', -, -, found'⟩
      · rw [← direct]
        exact standsFor_canonical wellFormed otherResolved.target
      · have again := (mem_of_canonicalByKey found').2
        rw [← again, same, sameKey, found, Option.some_inj] at found'
        exact absurd found'.symm differs
    rw [edge_eq_toEdge wellFormed otherResolved direct]
    refine ⟨congrArg some same, ?_⟩
    unfold Edge.crossesInto Leg.toEdge
    rw [decide_eq_true_eq, same]
    exact ⟨same ▸ otherCrosses, rfl⟩
  · have origin := edge_of_resolved wellFormed resolved
    have target : (profile.edge row.leg.rel).target = some stub.of := stands
    simp only [Function.comp_apply, Bool.and_eq_true, decide_eq_true_eq]
    refine ⟨target, ?_⟩
    unfold Edge.crossesInto
    rw [origin, target]
    simpa using away
  · have target : ((gather plans).edge row.mirror).target = some row.leg.target :=
      routed.standsFor_kept wellFormed mints resolved.target
    simp only [Function.comp_apply, target, Option.some_inj]
    rw [decide_eq_false fun same => differs same.symm, Bool.false_and]

theorem exact_of_preserved (preserved : Preserved profile plans) : Exact profile made placed := by
  have targets := targets_of_preserved routed wellFormed mints preserved
  refine ⟨targets, ?_, ?_⟩
  · intro stub there row member crosses key
    obtain ⟨used, usedThere, usedKey, id⟩ := routed.targetStub member crosses
    have same : used = stub := routed.made_unique usedThere there (usedKey.trans key.symm)
    have kept : profile.standsFor row.leg.rel.toEntity =
        (gather plans).standsFor (row.edge domains).toEntity :=
      congrArg Edge.target (edge_of_preserved routed wellFormed mints preserved row member)
    rw [targets row member, Row.edge, if_pos crosses, ← id,
      routed.standsFor_made wellFormed mints usedThere, same, Option.some_inj] at kept
    exact kept.symm
  · intro stub there row member crosses key
    have resolved := routed.resolvedIn wellFormed row member
    -- the edge crosses into the domain of its target, so one of the mirrors there is its mirror
    have crossing : row.leg.toEdge ∈ (placed.map fun row => profile.edge row.leg.rel).filter
        fun edge => edge.crossesInto (homeOf domains row.leg.target.name) := by
      rw [List.mem_filter]
      refine ⟨List.mem_map.mpr ⟨row, member, edge_eq_toEdge wellFormed resolved
        (targets row member)⟩, ?_⟩
      unfold Edge.crossesInto Leg.toEdge
      rw [decide_eq_true_eq]
      exact ⟨crosses, rfl⟩
    rw [← (mirrors_of_preserved routed wellFormed mints preserved _).mem_iff] at crossing
    obtain ⟨other, otherMember, same⟩ := List.mem_map.mp crossing
    obtain ⟨otherMember, into⟩ := List.mem_filter.mp otherMember
    obtain ⟨otherCrosses, home⟩ := of_decide_eq_true into
    obtain ⟨used, usedThere, usedKey, id⟩ := routed.originStub otherMember otherCrosses
    have origin : (gather plans).standsFor other.originStub = some row.leg.origin :=
      congrArg Edge.origin same
    rw [← id, routed.standsFor_made wellFormed mints usedThere, Option.some_inj] at origin
    have sameKey : used.key = stub.key := by
      rw [key]
      refine Prod.ext ?_ ?_
      · rw [usedKey]
        exact home
      · rw [← (routed.made_of wellFormed usedThere).2.1, origin]
        rfl
    rw [← routed.made_unique usedThere there sameKey]
    exact origin

end Preserves

end Gathered

/-! ## Migrations one after another -/

section Migrations

variable [NameHash] [CaseMapping]

theorem preserved_iff_faithful {domains : Nat} [NeZero domains] {host : RouteHost}
    {profile : Exported} (wellFormed : profile.WellFormed) (mints : host.Mints profile)
    {plans : Plans domains} {report : MigrationReport}
    (run : route host profile domains = .ok (plans, report)) :
    Preserved profile plans ↔ Faithful domains profile := by
  obtain ⟨made, placed, routed⟩ := routed_of_route mints.injective run
  constructor
  · intro preserved
    exact routed.faithful_of_exact wellFormed (exact_of_preserved routed wellFormed mints preserved)
  · intro faithful
    exact preserved_of_exact routed wellFormed mints (routed.exact_of_faithful wellFormed faithful)

/-- The profile exported from the new domains: the rows of the plans, in some order. -/
structure Exports {domains : Nat} (plans : Plans domains) (next : Exported) : Prop where
  entities : (gather plans).entities.Perm next.entities
  observations : (gather plans).observations.Perm next.observations
  relations : (gather plans).relations.Perm next.relations

/-- Migrations one after another, each on a profile that it is faithful to. -/
inductive Migrations : Exported → Exported → Prop where
  | refl (profile : Exported) : Migrations profile profile
  | step {start mid next : Exported} {domains : Nat} [NeZero domains] {host : RouteHost}
      {plans : Plans domains} {report : MigrationReport} (before : Migrations start mid)
      (mints : host.Mints mid) (faithful : Faithful domains mid)
      (run : route host mid domains = .ok (plans, report)) (exports : Exports plans next) :
      Migrations start next

section

omit [NameHash] [CaseMapping]

theorem SameGraph.refl (profile : Exported) : SameGraph profile profile :=
  ⟨List.Perm.refl _, List.Perm.refl _, List.Perm.refl _⟩

theorem SameGraph.trans {first second third : Exported} (left : SameGraph first second)
    (right : SameGraph second third) : SameGraph first third :=
  ⟨left.entities.trans right.entities, left.observations.trans right.observations,
    left.edges.trans right.edges⟩

theorem Exports.wellFormed {domains : Nat} {plans : Plans domains} {next : Exported}
    (exports : Exports plans next) (wellFormed : (gather plans).WellFormed) : next.WellFormed :=
  ⟨(exports.entities.map _).nodup_iff.mp wellFormed.entity_ids,
    ((exports.entities.filter _).map _).nodup_iff.mp wellFormed.entity_names,
    (exports.relations.map _).nodup_iff.mp wellFormed.relation_ids⟩

/-- The order of the rows does not matter for what a profile says. -/
theorem Exports.sameGraph {domains : Nat} {plans : Plans domains} {next : Exported}
    (exports : Exports plans next) (wellFormed : (gather plans).WellFormed) :
    SameGraph (gather plans) next := by
  have canonical : (gather plans).canonical.Perm next.canonical := exports.entities.filter _
  have stands : (gather plans).standsFor = next.standsFor := by
    funext id
    unfold Exported.standsFor
    rw [findBy_perm wellFormed.entity_ids exports.entities]
    split
    next => rfl
    next entity _ => rw [findBy_perm wellFormed.entity_names canonical]
  have edges : (gather plans).edge = next.edge := by
    funext rel
    unfold Exported.edge
    rw [stands]
  have leaves : (gather plans).leavesStub = next.leavesStub := by
    funext rel
    unfold Exported.leavesStub
    have stubs : ((gather plans).stubs.map Entity.id).Perm (next.stubs.map Entity.id) :=
      (exports.entities.filter _).map _
    simp only [stubs.mem_iff]
  refine ⟨canonical, exports.observations, ?_⟩
  unfold Exported.canonicalRelations
  rw [edges, leaves]
  exact (exports.relations.filter _).map _

end

theorem Migrations.preserve {start mid : Exported} (wellFormed : start.WellFormed)
    (migrated : Migrations start mid) : mid.WellFormed ∧ SameGraph start mid := by
  induction migrated with
  | refl => exact ⟨wellFormed, SameGraph.refl _⟩
  | step before mints faithful run exports ih =>
    obtain ⟨midWellFormed, same⟩ := ih
    obtain ⟨made, placed, routed⟩ := routed_of_route mints.injective run
    have gathered := routed.gather_wellFormed midWellFormed mints
    have preserved := (preserved_iff_faithful midWellFormed mints run).mpr faithful
    exact ⟨exports.wellFormed gathered,
      (same.trans preserved.graph).trans (exports.sameGraph gathered)⟩

/-- **When a migration preserves the graph.** After any migrations of profiles that
they are faithful to, the profile says what it said at the start, whatever the
numbers of domains in between; and the next routing that succeeds preserves it
exactly when it is faithful to it. -/
theorem migrations_preserve {start mid : Exported} (wellFormed : start.WellFormed)
    (migrated : Migrations start mid) {domains : Nat} [NeZero domains] {host : RouteHost}
    (mints : host.Mints mid) {plans : Plans domains} {report : MigrationReport}
    (run : route host mid domains = .ok (plans, report)) :
    SameGraph start mid ∧ (Preserved mid plans ↔ Faithful domains mid) := by
  obtain ⟨midWellFormed, same⟩ := migrated.preserve wellFormed
  exact ⟨same, preserved_iff_faithful midWellFormed mints run⟩

end Migrations

/-! ## Two names that differ in letter case -/

section LetterCase

/-- A domain by the first byte of a name. -/
abbrev firstByteHash : NameHash where
  finish bytes := (bytes.headD 0).toUInt64
  charToLowercase c := [c.toLower]

abbrev asciiLower : CaseMapping where
  toLowercase text := String.ofList (text.toList.map Char.toLower)

attribute [local instance] firstByteHash asciiLower

def sampleEntity (id name : String) : Entity where
  id := id
  name := name
  entityType := .person
  createdAt := 0
  updatedAt := 0
  confidence := .one
  source := "test"

def sampleRelation (id fromEntity toEntity : String) : Relation where
  id := id
  fromEntity := fromEntity
  toEntity := toEntity
  relationType := "knows"
  weight := .one
  createdAt := 0
  validFrom := none
  validUntil := none
  source := "test"

/-- One domain, with edges from a third entity to two whose names differ in letter
case only. -/
def twoCases : Exported where
  entities := [sampleEntity "e1" "Zoe", sampleEntity "e2" "Ada", sampleEntity "e3" "ada"]
  observations := []
  relations := [sampleRelation "r1" "e1" "e2", sampleRelation "r2" "e1" "e3"]
  vectors := []
  fts := []
  sources := []

/-- The same without the second of them. -/
def oneCase : Exported :=
  { twoCases with
    entities := [sampleEntity "e1" "Zoe", sampleEntity "e2" "Ada"]
    relations := [sampleRelation "r1" "e1" "e2"] }

def sampleRouteHost : RouteHost where
  newId count := String.ofList (List.replicate (count + 3) 'n')
  visit := .inserted
  debug := id

theorem sampleRouteHost_mints {profile : Exported}
    (entities : ∀ entity ∈ profile.entities, entity.id.toList.length = 2)
    (relations : ∀ rel ∈ profile.relations, rel.id.toList.length = 2) :
    sampleRouteHost.Mints profile := by
  have size : ∀ count, (sampleRouteHost.newId count).toList.length = count + 3 := fun count => by
    rw [sampleRouteHost, String.toList_ofList, List.length_replicate]
  refine ⟨fun left right same => ?_, fun count member => ?_, fun count member => ?_⟩
  · have lengths := size left
    rw [same, size right] at lengths
    omega
  · obtain ⟨entity, there, same⟩ := List.mem_map.mp member
    have short := entities entity there
    rw [same, size] at short
    omega
  · obtain ⟨rel, there, same⟩ := List.mem_map.mp member
    have short := relations rel there
    rw [same, size] at short
    omega

theorem twoCases_wellFormed : twoCases.WellFormed :=
  ⟨by decide, by decide +kernel, by decide +kernel⟩

theorem oneCase_wellFormed : oneCase.WellFormed :=
  ⟨by decide, by decide +kernel, by decide +kernel⟩

theorem twoCases_routes : (route sampleRouteHost twoCases 2).toOption.isSome = true := by
  decide

theorem oneCase_routes : (route sampleRouteHost oneCase 2).toOption.isSome = true := by
  decide

/-- The two share the stub of the first: the second edge is pointed at it. -/
theorem twoCases_not_faithful : ¬ Faithful 2 twoCases := by
  intro faithful
  have shared := faithful.apart (homeOf 2 "Zoe", sampleEntity "e2" "Ada") (by decide)
    (homeOf 2 "Zoe", sampleEntity "e3" "ada") (by decide) rfl (by decide +kernel)
  exact absurd shared (by decide)

/-- A migration that routes a profile and does not preserve it. -/
theorem route_repoints_edge :
    ¬ ∀ (hash : NameHash) (case : CaseMapping) (host : RouteHost) (profile : Exported)
        (plans : Plans 2) (report : MigrationReport),
        letI := hash
        letI := case
        profile.WellFormed → host.Mints profile → route host profile 2 = .ok (plans, report) →
          Preserved profile plans := by
  intro preserves
  obtain ⟨⟨plans, report⟩, found⟩ := Option.isSome_iff_exists.mp twoCases_routes
  have run := toOption_eq_some.mp found
  have mints : sampleRouteHost.Mints twoCases :=
    sampleRouteHost_mints (by decide) (by decide +kernel)
  have preserved := preserves firstByteHash asciiLower _ _ plans report twoCases_wellFormed mints run
  exact twoCases_not_faithful ((preserved_iff_faithful twoCases_wellFormed mints run).mp preserved)

theorem oneCase_preserved : ∃ (plans : Plans 2) (report : MigrationReport),
    route sampleRouteHost oneCase 2 = .ok (plans, report) ∧ SameGraph oneCase oneCase ∧
      (Preserved oneCase plans ↔ Faithful 2 oneCase) := by
  obtain ⟨⟨plans, report⟩, found⟩ := Option.isSome_iff_exists.mp oneCase_routes
  have run := toOption_eq_some.mp found
  have mints : sampleRouteHost.Mints oneCase :=
    sampleRouteHost_mints (by decide) (by decide +kernel)
  exact ⟨plans, report, run, migrations_preserve oneCase_wellFormed (.refl oneCase) mints run⟩

end LetterCase

end OpenMemory.Engine.Rehoming
