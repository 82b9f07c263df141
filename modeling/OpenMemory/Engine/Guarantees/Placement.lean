import OpenMemory.Engine.Rehoming
import OpenMemory.Foundation.KeyedIndex

/-!
# Where routing puts the rows

The loops of the routing put canonical entities and observations by name, and then
walk over the edges. What they have put after any number of edges is described
without the loops: the stubs made are the first ones needed under each key, and
each edge is in the domain of its origin, with a mirror in the domain of its
target where that is another.
-/

namespace OpenMemory.Engine.Rehoming

open Foundation OpenMemory.Graph OpenMemory.Engine.Partition

variable {domains : Nat}

/-! ## Minted ids -/

/-- Distinct ids from the first ones of the supply. -/
structure Minted (host : RouteHost) (bound : Nat) (ids : List String) : Prop where
  distinct : ids.Nodup
  drawn : ∀ id ∈ ids, ∃ count < bound, host.newId count = id

namespace Minted

variable {host : RouteHost} {bound later : Nat} {ids : List String}

theorem none : Minted host bound [] := ⟨List.nodup_nil, by rintro _ ⟨⟩⟩

theorem mono (minted : Minted host bound ids) (le : bound ≤ later) : Minted host later ids := by
  refine ⟨minted.distinct, fun id member => ?_⟩
  obtain ⟨count, below, drawn⟩ := minted.drawn id member
  exact ⟨count, Nat.lt_of_lt_of_le below le, drawn⟩

theorem push (injective : Function.Injective host.newId) (minted : Minted host bound ids) :
    Minted host (bound + 1) (ids ++ [host.newId bound]) := by
  refine ⟨?_, fun id member => ?_⟩
  · rw [List.nodup_append]
    refine ⟨minted.distinct, List.nodup_singleton _, fun id old other new same => ?_⟩
    obtain ⟨count, below, drawn⟩ := minted.drawn id old
    rw [List.mem_singleton] at new
    have again := injective (drawn.trans (same.trans new))
    omega
  · rcases List.mem_append.mp member with old | new
    · exact (minted.mono (Nat.le_succ bound)).drawn id old
    · exact ⟨bound, Nat.lt_succ_self bound, (List.mem_singleton.mp new).symm⟩

end Minted

/-! ## Changing one plan -/

theorem change_entities (plans : Plans domains) (domain other : Fin domains) (entity : Entity) :
    (plans.change domain (fun plan => { plan with entities := plan.entities ++ [entity] }) other
      ).entities = (plans other).entities ++ (if domain = other then [entity] else []) := by
  by_cases here : domain = other
  · subst here
    simp [Plans.change]
  · simp [Plans.change, Function.update_of_ne (Ne.symm here), here]

theorem addRelation_relations (plans : Plans domains) (domain other : Fin domains)
    (rel : Relation) : (plans.addRelation domain rel other).relations =
      (plans other).relations ++ (if domain = other then [rel] else []) := by
  by_cases here : domain = other
  · subst here
    simp [Plans.addRelation, Plans.change]
  · simp [Plans.addRelation, Plans.change, Function.update_of_ne (Ne.symm here), here]

section Parts

variable (plans : Plans domains) (domain other : Fin domains)

@[simp] theorem addRelation_entities (rel : Relation) :
    (plans.addRelation domain rel other).entities = (plans other).entities := by
  unfold Plans.addRelation Plans.change
  by_cases here : other = domain
  · rw [here, Function.update_self]
  · rw [Function.update_of_ne here]

@[simp] theorem addRelation_observations (rel : Relation) :
    (plans.addRelation domain rel other).observations = (plans other).observations := by
  unfold Plans.addRelation Plans.change
  by_cases here : other = domain
  · rw [here, Function.update_self]
  · rw [Function.update_of_ne here]

/-- A change that leaves a part of the plan leaves that part of all plans. -/
theorem change_part {α : Type} (part : DomainPlan → α) {change : DomainPlan → DomainPlan}
    (keeps : ∀ plan, part (change plan) = part plan) :
    part (plans.change domain change other) = part (plans other) := by
  unfold Plans.change
  by_cases here : other = domain
  · rw [here, Function.update_self, keeps]
  · rw [Function.update_of_ne here]

end Parts

/-- The rows of a plan that belong to the graph are those of another. -/
structure SameRows (left right : DomainPlan) : Prop where
  entities : left.entities = right.entities
  observations : left.observations = right.observations
  relations : left.relations = right.relations

theorem SameRows.refl {plan : DomainPlan} : SameRows plan plan := ⟨Eq.refl _, Eq.refl _, Eq.refl _⟩

theorem SameRows.trans {first second third : DomainPlan} (left : SameRows first second)
    (right : SameRows second third) : SameRows first third :=
  ⟨left.entities.trans right.entities, left.observations.trans right.observations,
    left.relations.trans right.relations⟩

/-- A change of other parts of one plan. -/
theorem SameRows.change {plans : Plans domains} {domain other : Fin domains}
    {change : DomainPlan → DomainPlan} (keeps : ∀ plan, SameRows (change plan) plan) :
    SameRows (plans.change domain change other) (plans other) :=
  ⟨change_part plans domain other _ fun plan => (keeps plan).entities,
    change_part plans domain other _ fun plan => (keeps plan).observations,
    change_part plans domain other _ fun plan => (keeps plan).relations⟩

/-! ## Stubs -/

section Stubs

variable [NameHash] [CaseMapping] {host : RouteHost}

abbrev StubKey (domains : Nat) := Fin domains × NameKey

/-- A stub that was made: its key, the entity it is of, and its id. -/
structure Made (domains : Nat) where
  key : StubKey domains
  of : Entity
  id : String

def Made.stub (made : Made domains) : Entity := stubOf made.id made.of

/-- The stubs made are those first used under each key, and stand in their plans
after the rows that were there. -/
structure StubsMade (host : RouteHost) (rows : Fin domains → List Entity)
    (used : List (StubKey domains × Entity)) (state : Routing domains)
    (made : List (Made domains)) : Prop where
  first : made.map (fun stub => (stub.key, stub.of)) = newcomers [] used
  table : state.newStubIds = made.map fun stub => (stub.key, stub.id)
  entities : ∀ domain, (state.plans domain).entities = rows domain ++
    (made.filter fun stub => stub.key.1 = domain).map Made.stub
  minted : Minted host state.minted (made.map Made.id)

omit [NameHash] [CaseMapping] in
/-- A key that is used has its first user among the stubs made, and the other way
round. -/
theorem StubsMade.lookup_eq {rows : Fin domains → List Entity}
    {used : List (StubKey domains × Entity)} {state : Routing domains}
    {made : List (Made domains)} (stubs : StubsMade host rows used state made)
    (key : StubKey domains) :
    (made.map fun stub => (stub.key, stub.of)).lookup key = used.lookup key := by
  rw [stubs.first]
  exact lookup_residents [] used key

omit [NameHash] in
theorem synthesizeStub_spec (injective : Function.Injective host.newId)
    {rows : Fin domains → List Entity} {used : List (StubKey domains × Entity)}
    {state : Routing domains} {made : List (Made domains)}
    (stubs : StubsMade host rows used state made) (domain : Fin domains) (of : Entity) :
    ∃ more, StubsMade host rows (used ++ [((domain, entityKey of), of)])
        (synthesizeStub host state domain of).2 (made ++ more) ∧
      (∃ stub ∈ made ++ more, stub.key = (domain, entityKey of) ∧
        stub.id = (synthesizeStub host state domain of).1) ∧
      (∀ other, ((synthesizeStub host state domain of).2.plans other).relations =
        (state.plans other).relations) ∧
      (∀ other, ((synthesizeStub host state domain of).2.plans other).observations =
        (state.plans other).observations) ∧
      state.minted ≤ (synthesizeStub host state domain of).2.minted := by
  unfold synthesizeStub
  dsimp only
  split
  next id found =>
    refine ⟨[], ?_, ?_, fun _ => rfl, fun _ => rfl, Nat.le_refl _⟩
    · rw [List.append_nil]
      refine ⟨?_, stubs.table, stubs.entities, stubs.minted⟩
      have known : (used.lookup (domain, entityKey of)).isNone = false := by
        rw [← stubs.lookup_eq]
        rw [stubs.table] at found
        obtain ⟨stub, member, same⟩ := List.mem_map.mp (mem_of_lookup found)
        rw [Option.isNone_eq_false_iff, Option.isSome_iff_ne_none, Ne,
          lookup_eq_none_iff_not_mem, not_not, List.map_map]
        exact List.mem_map.mpr ⟨stub, member, congrArg Prod.fst same⟩
      rw [newcomers_concat, List.nil_append, known, stubs.first]
      simp
    · rw [stubs.table] at found
      obtain ⟨stub, member, same⟩ := List.mem_map.mp (mem_of_lookup found)
      exact ⟨stub, by simpa using member, congrArg Prod.fst same, congrArg Prod.snd same⟩
  next absent =>
    have fresh : (used.lookup (domain, entityKey of)).isNone = true := by
      rw [stubs.table, lookup_eq_none_iff_not_mem, List.map_map] at absent
      rw [← stubs.lookup_eq, Option.isNone_iff_eq_none, lookup_eq_none_iff_not_mem, List.map_map]
      exact absent
    refine ⟨[⟨(domain, entityKey of), of, host.newId state.minted⟩], ⟨?_, ?_, ?_, ?_⟩,
      ⟨_, List.mem_append_right _ (List.mem_singleton_self _), rfl, rfl⟩, ?_, ?_,
      Nat.le_succ _⟩
    · rw [newcomers_concat, List.nil_append, if_pos fresh, List.map_append, stubs.first]
      rfl
    · rw [List.map_append, stubs.table]
      rfl
    · intro other
      rw [change_entities, stubs.entities, List.filter_append, List.map_append, List.append_assoc]
      congr 2
      by_cases here : domain = other
      · simp [here, Made.stub]
      · simp [here]
    · rw [List.map_append]
      exact stubs.minted.push injective
    · intro other
      exact change_part state.plans domain other DomainPlan.relations fun _ => rfl
    · intro other
      exact change_part state.plans domain other DomainPlan.observations fun _ => rfl

end Stubs

/-! ## Edges -/

variable {exported : Exported}

section Edges

variable [NameHash] [CaseMapping] [NeZero domains] {host : RouteHost}

def Leg.Crosses (domains : Nat) [NeZero domains] (leg : Leg) : Prop :=
  homeOf domains leg.origin.name ≠ homeOf domains leg.target.name

instance (leg : Leg) : Decidable (leg.Crosses domains) := inferInstanceAs (Decidable (_ ≠ _))

def Leg.targetKey (domains : Nat) [NeZero domains] (leg : Leg) : StubKey domains :=
  (homeOf domains leg.origin.name, entityKey leg.target)

def Leg.originKey (domains : Nat) [NeZero domains] (leg : Leg) : StubKey domains :=
  (homeOf domains leg.target.name, entityKey leg.origin)

/-- The stubs that a leg asks for. -/
def Leg.uses (domains : Nat) [NeZero domains] (leg : Leg) : List (StubKey domains × Entity) :=
  if leg.Crosses domains then
    [(leg.targetKey domains, leg.target), (leg.originKey domains, leg.origin)]
  else []

/-- A leg that was placed, with the ids that were used over a boundary. -/
structure Row where
  leg : Leg
  mirrorId : String
  targetStub : String
  originStub : String

namespace Row

def edge (domains : Nat) [NeZero domains] (row : Row) : Relation :=
  { row.leg.rel with
    toEntity := if row.leg.Crosses domains then row.targetStub else row.leg.target.id }

def mirror (row : Row) : Relation :=
  mirrorOf row.leg.rel row.mirrorId row.originStub row.leg.target.id

/-- What the row puts into a domain. -/
def placed (row : Row) (domain : Fin domains) : List Relation :=
  (if row.leg.Crosses domains ∧ homeOf domains row.leg.target.name = domain then [row.mirror]
    else []) ++
  if homeOf domains row.leg.origin.name = domain then [row.edge domains] else []

omit [CaseMapping] in
theorem placed_of_stays (row : Row) (domain : Fin domains) (stays : ¬ row.leg.Crosses domains) :
    row.placed domain =
      if homeOf domains row.leg.origin.name = domain then [row.edge domains] else [] := by
  rw [placed, if_neg fun crosses => stays crosses.1, List.nil_append]

omit [CaseMapping] in
theorem placed_of_crosses (row : Row) (domain : Fin domains)
    (crosses : row.leg.Crosses domains) :
    row.placed domain =
      (if homeOf domains row.leg.target.name = domain then [row.mirror] else []) ++
        if homeOf domains row.leg.origin.name = domain then [row.edge domains] else [] := by
  simp only [placed, crosses, true_and]

end Row

/-- What stands in the plans after some legs. -/
structure LegsPlaced (host : RouteHost) (rows : Fin domains → List Entity)
    (observed : Fin domains → List Observation) (legs : List Leg) (state : Routing domains)
    (made : List (Made domains)) (placed : List Row) : Prop where
  stubs : StubsMade host rows (legs.flatMap (Leg.uses domains)) state made
  legs_eq : placed.map Row.leg = legs
  observations : ∀ domain, (state.plans domain).observations = observed domain
  relations : ∀ domain, (state.plans domain).relations = placed.flatMap fun row => row.placed domain
  targetStub : ∀ row ∈ placed, row.leg.Crosses domains → ∃ stub ∈ made,
    stub.key = row.leg.targetKey domains ∧ stub.id = row.targetStub
  originStub : ∀ row ∈ placed, row.leg.Crosses domains → ∃ stub ∈ made,
    stub.key = row.leg.originKey domains ∧ stub.id = row.originStub
  mirrors : Minted host state.minted
    ((placed.filter fun row => row.leg.Crosses domains).map Row.mirrorId)

variable {rows : Fin domains → List Entity} {observed : Fin domains → List Observation}
  {legs : List Leg} {state : Routing domains} {made : List (Made domains)} {placed : List Row}

/-- A leg that stays in one domain. -/
theorem LegsPlaced.inside (before : LegsPlaced host rows observed legs state made placed)
    {leg : Leg} (stays : ¬ leg.Crosses domains) :
    LegsPlaced host rows observed (legs ++ [leg]) (placeLeg host state leg) made
      (placed ++ [⟨leg, "", "", ""⟩]) := by
  have home : homeOf domains leg.origin.name = homeOf domains leg.target.name := not_not.mp stays
  unfold placeLeg
  dsimp only
  rw [if_pos home]
  refine ⟨⟨?_, before.stubs.table, ?_, before.stubs.minted⟩, ?_, ?_, ?_, ?_, ?_, ?_⟩
  · rw [List.flatMap_append, List.flatMap_singleton, Leg.uses, if_neg stays, List.append_nil]
    exact before.stubs.first
  · intro domain
    rw [addRelation_entities]
    exact before.stubs.entities domain
  · rw [List.map_append, before.legs_eq]
    rfl
  · intro domain
    rw [addRelation_observations]
    exact before.observations domain
  · intro domain
    rw [addRelation_relations, before.relations, List.flatMap_append, List.flatMap_singleton]
    rw [Row.placed_of_stays ⟨leg, "", "", ""⟩ domain stays, Row.edge, if_neg stays]
  · intro row member crosses
    rcases List.mem_append.mp member with old | new
    · exact before.targetStub row old crosses
    · rw [List.mem_singleton.mp new] at crosses
      exact absurd crosses stays
  · intro row member crosses
    rcases List.mem_append.mp member with old | new
    · exact before.originStub row old crosses
    · rw [List.mem_singleton.mp new] at crosses
      exact absurd crosses stays
  · rw [List.filter_append, List.filter_singleton, decide_eq_false stays, cond_false,
      List.append_nil]
    exact before.mirrors

/-- A leg over a boundary. -/
theorem LegsPlaced.across (injective : Function.Injective host.newId)
    (before : LegsPlaced host rows observed legs state made placed)
    {leg : Leg} (crosses : leg.Crosses domains) :
    ∃ more row, LegsPlaced host rows observed (legs ++ [leg]) (placeLeg host state leg)
      (made ++ more) (placed ++ [row]) := by
  obtain ⟨targetMore, targetStubs, targetMade, targetRelations, targetObservations, targetMinted⟩ :=
    synthesizeStub_spec injective before.stubs (homeOf domains leg.origin.name) leg.target
  set first := synthesizeStub host state (homeOf domains leg.origin.name) leg.target with first_eq
  have between : StubsMade host rows
      (legs.flatMap (Leg.uses domains) ++ [(leg.targetKey domains, leg.target)])
      { first.2 with minted := first.2.minted + 1 } (made ++ targetMore) :=
    ⟨targetStubs.first, targetStubs.table, targetStubs.entities,
      targetStubs.minted.mono (Nat.le_succ _)⟩
  obtain ⟨originMore, originStubs, originMade, originRelations, originObservations, originMinted⟩ :=
    synthesizeStub_spec injective between (homeOf domains leg.target.name) leg.origin
  set second := synthesizeStub host { first.2 with minted := first.2.minted + 1 }
    (homeOf domains leg.target.name) leg.origin with second_eq
  have minted : first.2.minted + 1 ≤ second.2.minted := originMinted
  refine ⟨targetMore ++ originMore, ⟨leg, host.newId first.2.minted, first.1, second.1⟩, ?_⟩
  unfold placeLeg
  dsimp only
  rw [if_neg crosses, ← first_eq, ← second_eq, ← List.append_assoc]
  refine ⟨⟨?_, originStubs.table, ?_, originStubs.minted⟩, ?_, ?_, ?_, ?_, ?_, ?_⟩
  · rw [originStubs.first, List.flatMap_append, List.flatMap_singleton, Leg.uses, if_pos crosses,
      List.append_assoc]
    rfl
  · intro domain
    rw [addRelation_entities, addRelation_entities]
    exact originStubs.entities domain
  · rw [List.map_append, before.legs_eq]
    rfl
  · intro domain
    rw [addRelation_observations, addRelation_observations, originObservations]
    exact (targetObservations domain).trans (before.observations domain)
  · intro domain
    have kept : (second.2.plans domain).relations = (state.plans domain).relations :=
      (originRelations domain).trans (targetRelations domain)
    rw [addRelation_relations, addRelation_relations, kept, before.relations, List.flatMap_append,
      List.flatMap_singleton, List.append_assoc]
    rw [Row.placed_of_crosses ⟨leg, host.newId first.2.minted, first.1, second.1⟩ domain crosses,
      Row.edge, if_pos crosses]
    rfl
  · intro row member crossing
    rcases List.mem_append.mp member with old | new
    · obtain ⟨stub, there, same⟩ := before.targetStub row old crossing
      exact ⟨stub, List.mem_append_left _ (List.mem_append_left _ there), same⟩
    · rw [List.mem_singleton.mp new]
      obtain ⟨stub, there, same⟩ := targetMade
      exact ⟨stub, List.mem_append_left _ there, same⟩
  · intro row member crossing
    rcases List.mem_append.mp member with old | new
    · obtain ⟨stub, there, same⟩ := before.originStub row old crossing
      exact ⟨stub, List.mem_append_left _ (List.mem_append_left _ there), same⟩
    · rw [List.mem_singleton.mp new]
      exact originMade
  · rw [List.filter_append, List.filter_singleton, decide_eq_true crosses, cond_true,
      List.map_append]
    exact ((before.mirrors.mono targetMinted).push injective).mono minted

/-- What the edges of a profile resolve to. -/
def legsOf (host : RouteHost) (exported : Exported) (relations : List Relation) : List Leg :=
  relations.filterMap fun rel =>
    match resolveEdge host exported rel with
    | .ok leg => leg
    | .error _ => none

/-- **The loop over the edges.** -/
theorem placeRelations_spec (injective : Function.Injective host.newId)
    {relations : List Relation} {start final : Routing domains}
    (empty : ∀ domain, (start.plans domain).relations = []) (noStubs : start.newStubIds = [])
    (run : relations.foldlM (placeRelation host exported) start = .ok final) :
    (∀ rel ∈ relations, ∃ leg, resolveEdge host exported rel = .ok leg) ∧
      ∃ made placed, LegsPlaced host (fun domain => (start.plans domain).entities)
        (fun domain => (start.plans domain).observations) (legsOf host exported relations) final
        made placed := by
  refine foldlM_prefix_induction (motive := fun walked state =>
    (∀ rel ∈ walked, ∃ leg, resolveEdge host exported rel = .ok leg) ∧
      ∃ made placed, LegsPlaced host (fun domain => (start.plans domain).entities)
        (fun domain => (start.plans domain).observations) (legsOf host exported walked) state
        made placed) ?_ ?_ run
  · refine ⟨by rintro _ ⟨⟩, [], [], ⟨rfl, noStubs, ?_, Minted.none⟩, rfl, fun _ => rfl, empty, ?_,
      ?_, Minted.none⟩
    · intro domain
      simp
    · rintro _ ⟨⟩
    · rintro _ ⟨⟩
  · rintro walked rel state next ⟨resolved, made, placed, before⟩ step
    unfold placeRelation at step
    rw [bind_eq_ok] at step
    obtain ⟨leg, found, step⟩ := step
    have resolvedNext : ∀ other ∈ walked ++ [rel], ∃ leg, resolveEdge host exported other = .ok leg
        := by
      exact forall_mem_concat resolved ⟨leg, found⟩
    have legs_eq : legsOf host exported (walked ++ [rel]) =
        legsOf host exported walked ++ leg.toList := by
      rw [legsOf, List.filterMap_append, List.filterMap_cons, List.filterMap_nil, found]
      cases leg <;> rfl
    rw [legs_eq]
    refine ⟨resolvedNext, ?_⟩
    cases leg with
    | none =>
      cases step
      rw [Option.toList_none, List.append_nil]
      exact ⟨made, placed, ⟨before.stubs.first, before.stubs.table, before.stubs.entities,
        before.stubs.minted⟩, before.legs_eq, before.observations, before.relations,
        before.targetStub, before.originStub, before.mirrors⟩
    | some leg =>
      cases step
      rw [Option.toList_some]
      by_cases crosses : leg.Crosses domains
      · obtain ⟨more, row, placed⟩ := before.across injective crosses
        exact ⟨_, _, placed⟩
      · exact ⟨_, _, before.inside crosses⟩

/-! ## The other loops -/

omit [NameHash] [CaseMapping] [NeZero domains] in
/-- A loop whose body keeps the rows keeps the rows. -/
theorem SameRows.foldl {α : Type} {body : Routing domains → α → Routing domains}
    (keeps : ∀ state element domain, SameRows ((body state element).plans domain)
      (state.plans domain)) (elements : List α) (start : Routing domains) (domain : Fin domains) :
    SameRows ((elements.foldl body start).plans domain) (start.plans domain) := by
  induction elements generalizing start with
  | nil => exact SameRows.refl
  | cons first rest ih => exact (ih _).trans (keeps start first domain)

section

omit [CaseMapping]

theorem placeEntry_rows {push : DomainPlan → IndexEntry → DomainPlan}
    (keeps : ∀ plan entry, SameRows (push plan entry) plan) (state : Routing domains)
    (entry : ExportEntry) (domain : Fin domains) :
    SameRows ((placeEntry exported push state entry).plans domain) (state.plans domain) := by
  unfold placeEntry
  split
  next => exact SameRows.refl
  next => exact SameRows.change fun plan => keeps plan _

theorem placeSource_rows (state : Routing domains) (record : SourceRecord) (domain : Fin domains) :
    SameRows ((placeSource state record).plans domain) (state.plans domain) := by
  unfold placeSource
  dsimp only
  refine SameRows.change ?_
  exact fun _ => ⟨rfl, rfl, rfl⟩

theorem placeEntities_spec (entities : List Entity) (start : Routing domains) :
    (∀ domain, ((entities.foldl placeEntity start).plans domain).entities =
        (start.plans domain).entities ++
          entities.filter fun entity => homeOf domains entity.name = domain) ∧
      (∀ domain, ((entities.foldl placeEntity start).plans domain).observations =
        (start.plans domain).observations) ∧
      (∀ domain, ((entities.foldl placeEntity start).plans domain).relations =
        (start.plans domain).relations) ∧
      (entities.foldl placeEntity start).newStubIds = start.newStubIds := by
  induction entities generalizing start with
  | nil => simp
  | cons first rest ih =>
    obtain ⟨entities, observations, relations, stubs⟩ := ih (placeEntity start first)
    refine ⟨fun domain => ?_, fun domain => ?_, fun domain => ?_, stubs⟩
    · rw [List.foldl_cons, entities]
      unfold placeEntity
      dsimp only
      rw [change_entities, List.filter_cons, List.append_assoc]
      congr 1
      by_cases here : homeOf domains first.name = domain
      · simp [here]
      · simp [here]
    · rw [List.foldl_cons, observations]
      exact change_part _ _ _ DomainPlan.observations fun _ => rfl
    · rw [List.foldl_cons, relations]
      exact change_part _ _ _ DomainPlan.relations fun _ => rfl

theorem placeObservations_spec {observations : List Observation} {start final : Routing domains}
    (run : observations.foldlM (placeObservation exported) start = .ok final) :
    (∀ obs ∈ observations, (exported.canonicalById obs.entityId).isSome) ∧
      (∀ domain, (final.plans domain).observations = (start.plans domain).observations ++
        observations.filter fun obs => (exported.canonicalById obs.entityId).any fun entity =>
          homeOf domains entity.name = domain) ∧
      (∀ domain, (final.plans domain).entities = (start.plans domain).entities) ∧
      (∀ domain, (final.plans domain).relations = (start.plans domain).relations) ∧
      final.newStubIds = start.newStubIds := by
  refine foldlM_prefix_induction (motive := fun walked state =>
    (∀ obs ∈ walked, (exported.canonicalById obs.entityId).isSome) ∧
      (∀ domain, (state.plans domain).observations = (start.plans domain).observations ++
        walked.filter fun obs => (exported.canonicalById obs.entityId).any fun entity =>
          homeOf domains entity.name = domain) ∧
      (∀ domain, (state.plans domain).entities = (start.plans domain).entities) ∧
      (∀ domain, (state.plans domain).relations = (start.plans domain).relations) ∧
      state.newStubIds = start.newStubIds) ?_ ?_ run
  · simp
  · rintro walked obs state next ⟨found, placed, entities, relations, stubs⟩ step
    unfold placeObservation at step
    cases known : exported.canonicalById obs.entityId with
    | none =>
      rw [known] at step
      cases step
    | some entity =>
      rw [known] at step
      cases step
      refine ⟨?_, fun domain => ?_, fun domain => ?_, fun domain => ?_, stubs⟩
      · intro other member
        rcases List.mem_append.mp member with old | new
        · exact found other old
        · rw [List.mem_singleton.mp new, known]
          rfl
      · rw [List.filter_append, ← List.append_assoc, ← placed]
        by_cases here : homeOf domains entity.name = domain
        · subst here
          simp [Plans.change, known]
        · simp [Plans.change, Function.update_of_ne (Ne.symm here), known, here]
      · rw [← entities domain]
        exact change_part _ _ _ DomainPlan.entities fun _ => rfl
      · rw [← relations domain]
        exact change_part _ _ _ DomainPlan.relations fun _ => rfl

end

/-! ## The whole -/

/-- What a routing that succeeded has put where. -/
structure Routed (host : RouteHost) (exported : Exported) (plans : Plans domains)
    (made : List (Made domains)) (placed : List Row) : Prop where
  observed : ∀ obs ∈ exported.observations, (exported.canonicalById obs.entityId).isSome
  resolved : ∀ rel ∈ exported.relations, ∃ leg, resolveEdge host exported rel = .ok leg
  legs : ∃ state : Routing domains, (∀ domain, SameRows (plans domain) (state.plans domain)) ∧
    LegsPlaced host
      (fun domain => (host.visit.order (lastBy Entity.id exported.canonical)).filter fun entity =>
        homeOf domains entity.name = domain)
      (fun domain => exported.observations.filter fun obs =>
        (exported.canonicalById obs.entityId).any fun entity =>
          homeOf domains entity.name = domain)
      (legsOf host exported exported.relations) state made placed

theorem routed_of_route (injective : Function.Injective host.newId)
    {plans : Plans domains} {report : MigrationReport}
    (run : route host exported domains = .ok (plans, report)) :
    ∃ made placed, Routed host exported plans made placed := by
  unfold route at run
  simp only [bind_eq_ok] at run
  obtain ⟨observed, observations, walked, relations, finished⟩ := run
  obtain ⟨entities, noObservations, noRelations, noStubs⟩ := placeEntities_spec
    (host.visit.order (lastBy Entity.id exported.canonical))
    (.start domains exported.stubs.length : Routing domains)
  obtain ⟨known, placedObservations, sameEntities, sameRelations, sameStubs⟩ :=
    placeObservations_spec observations
  obtain ⟨resolved, made, placed, legs⟩ := placeRelations_spec injective
    (fun domain => (sameRelations domain).trans (noRelations domain))
    (sameStubs.trans noStubs) relations
  refine ⟨made, placed, known, resolved, walked, fun domain => ?_, ?_⟩
  · cases finished
    refine (SameRows.foldl placeSource_rows _ _ domain).trans ?_
    refine (SameRows.foldl (placeEntry_rows ?_) exported.fts _ domain).trans
      (SameRows.foldl (placeEntry_rows ?_) exported.vectors walked domain)
    · exact fun _ _ => ⟨rfl, rfl, rfl⟩
    · exact fun _ _ => ⟨rfl, rfl, rfl⟩
  · have rows_eq : (fun domain => (observed.plans domain).entities) = fun domain =>
        (host.visit.order (lastBy Entity.id exported.canonical)).filter fun entity =>
          homeOf domains entity.name = domain := by
      funext domain
      exact (sameEntities domain).trans (entities domain)
    have observed_eq : (fun domain => (observed.plans domain).observations) = fun domain =>
        exported.observations.filter fun obs =>
          (exported.canonicalById obs.entityId).any fun entity =>
            homeOf domains entity.name = domain := by
      funext domain
      rw [placedObservations, noObservations]
      rfl
    rw [rows_eq, observed_eq] at legs
    exact legs

end Edges

end OpenMemory.Engine.Rehoming
