import OpenMemory.Engine.Domains
import OpenMemory.Graph.Guarantees.BulkRetirement

/-!
# Deleting one entity of a profile

The row of an entity is deleted by its id, and its stubs in the other domains by its name,
whatever their type. So a stub of an entity with the same name and another type goes too, and
with it the edges to and from that entity in that domain. The rest of the profile is whole
exactly where no such stub has an observation, or an edge that would not have gone anyway.
-/

namespace OpenMemory.Engine.Partition

open Foundation OpenMemory.Graph
open Merge (Blake3)

variable {db : Database} {numbers : List Nat} {row entity : StoredEntity} {stores : Nat → Database}

namespace Domains

variable [Blake3] [PayloadCodec] [EntityMatching] [ScoreArithmetic] [CaseMapping]
  {surroundings : Surroundings} {domains last : Domains} {domain home : Nat} {id name : String}

/-! ## Looking for the row -/

/-- A lookup by id asks one domain after the other, and changes none. -/
theorem findEntityByIdIn_eq_ok {found : Option (Nat × Entity)}
    (looked : domains.run surroundings (findEntityByIdIn id numbers) = (.ok found, last)) :
    last.stores = domains.stores ∧ found = numbers.findSome? fun domain =>
      ((domains.stores domain).getEntityById id).map fun entity => (domain, entity) := by
  induction numbers generalizing domains with
  | nil =>
    cases looked
    exact ⟨rfl, rfl⟩
  | cons first rest ih =>
    obtain ⟨db, answer, executes, looked⟩ := run_call_bind_eq_ok looked
    cases executes
    rw [List.findSome?_cons]
    cases entity : (domains.stores first).getEntityById id with
    | some entity =>
      rw [entity] at looked
      cases looked
      exact ⟨answered_stores, rfl⟩
    | none =>
      rw [entity] at looked
      have later := ih looked
      have same : (domains.answered first (domains.stores first)).stores = domains.stores :=
        answered_stores
      rwa [same] at later

theorem findEntityByIdIn_of_spared (domains : Domains) (id : String)
    (spared : ∀ count, surroundings.failure count = none) (numbers : List Nat) : ∃ found last,
      domains.run surroundings (findEntityByIdIn id numbers) = (.ok found, last) := by
  induction numbers generalizing domains with
  | nil => exact ⟨_, _, rfl⟩
  | cons first rest ih =>
    unfold findEntityByIdIn
    rw [run_call_bind_of_ok (.getEntityById id) (spared domains.asked) rfl]
    cases (domains.stores first).getEntityById id with
    | some entity => exact ⟨_, _, rfl⟩
    | none => exact ih _

/-! ## Sweeping stubs -/

/-- The ids of the stubs among some candidates. -/
def StubAmong (candidates : List Entity) (id : String) : Prop :=
  ∃ candidate ∈ candidates, candidate.source = partitionStubSource ∧ candidate.id = id

theorem sweepCandidates_eq_ok {candidates : List Entity}
    (swept : domains.run surroundings (sweepCandidates domain candidates) = (.ok (), last)) :
    (∀ other, other ≠ domain → last.stores other = domains.stores other) ∧
      (domains.stores domain).Drops (StubAmong candidates) (last.stores domain) := by
  induction candidates generalizing domains with
  | nil =>
    cases swept
    refine ⟨fun _ _ => rfl, (Database.Drops.refl _).congr fun id => ?_⟩
    exact iff_of_false not_false fun among => nomatch among.choose_spec.1
  | cons candidate rest ih =>
    unfold sweepCandidates at swept
    split at swept
    · rename_i stub
      obtain ⟨db, count, executes, swept⟩ := run_call_bind_eq_ok swept
      obtain ⟨others, drops⟩ := ih swept
      have first := Database.forgetCounting_drops executes
      have here : (domains.answered domain db).stores domain = db := Function.update_self ..
      refine ⟨fun other apart => ?_, ?_⟩
      · rw [others other apart]
        exact Function.update_of_ne apart _ _
      · rw [here] at drops
        refine (first.trans drops).congr fun id => ?_
        simp only [StubAmong, List.exists_mem_cons_iff, stub, true_and, eq_comm]
    · rename_i canonical
      obtain ⟨others, drops⟩ := ih swept
      refine ⟨others, drops.congr fun id => ?_⟩
      simp only [StubAmong, List.exists_mem_cons_iff, canonical, false_and, false_or]

theorem sweepCandidates_of_spared (domain : Nat) (domains : Domains)
    (spared : ∀ count, surroundings.failure count = none)
    {candidates : List Entity} (distinct : (candidates.map Entity.id).Nodup)
    (present : ∀ candidate ∈ candidates, ∃ row,
      (domains.stores domain).entities.get? candidate.id = some row ∧ blank candidate.id = false) :
    ∃ last, domains.run surroundings (sweepCandidates domain candidates) = (.ok (), last) := by
  induction candidates generalizing domains with
  | nil => exact ⟨_, rfl⟩
  | cons candidate rest ih =>
    obtain ⟨apart, distinct⟩ := List.nodup_cons.mp distinct
    unfold sweepCandidates
    split
    · obtain ⟨row, held, named⟩ := present candidate List.mem_cons_self
      obtain ⟨count, executes⟩ := Database.forgetCounting_of_present held named
      rw [run_call_bind_of_ok (.forgetEntityById candidate.id) (spared domains.asked) executes]
      refine ih _ distinct fun other member => ?_
      obtain ⟨row, held, named⟩ := present other (List.mem_cons_of_mem _ member)
      refine ⟨row, ?_, named⟩
      change (Function.update domains.stores domain _ domain).entities.get? other.id = some row
      rw [Function.update_self, Database.deleteEntity_drops.entities]
      exact ⟨held, fun same => apart (same ▸ List.mem_map_of_mem member)⟩
    · exact ih _ distinct (List.forall_mem_cons.mp present).2

/-- A stub of a name in a domain other than its home. -/
def Swept (stores : Nat → Database) (home : Nat) (name : String) (domain : Nat) (id : String) :
    Prop :=
  domain ≠ home ∧ ∃ row, (stores domain).entities.get? id = some row ∧
    row.source = partitionStubSource ∧ row.name = name

omit [Blake3] [PayloadCodec] [EntityMatching] [ScoreArithmetic] [CaseMapping] in
theorem stubAmong_candidates (apart : db.EntitiesApart) :
    StubAmong (db.resolveEntity name).candidates id ↔
      ∃ row, db.entities.get? id = some row ∧ row.source = partitionStubSource ∧ row.name = name := by
  constructor
  · rintro ⟨candidate, member, stub, rfl⟩
    obtain ⟨row, held, named, same⟩ := Database.mem_entitiesNamed.mp (apart.mem_candidates.mp member)
    rw [← same] at stub
    exact ⟨row, held, stub, named⟩
  · rintro ⟨row, held, stub, named⟩
    exact ⟨row.entity id, apart.mem_candidates.mpr (Database.mem_entitiesNamed.mpr
      ⟨row, held, named, rfl⟩), stub, rfl⟩

/-- **A sweep** over some domains drops the stubs of the name in them. -/
theorem sweepStubs_eq_ok
    (apart : ∀ domain ∈ numbers, (domains.stores domain).EntitiesApart) (distinct : numbers.Nodup)
    (swept : domains.run surroundings (sweepStubs home name numbers) = (.ok (), last)) :
    ∀ domain, (domains.stores domain).Drops
      (fun id => domain ∈ numbers ∧ Swept domains.stores home name domain id)
      (last.stores domain) := by
  induction numbers generalizing domains with
  | nil =>
    cases swept
    exact fun domain => (Database.Drops.refl _).congr fun id =>
      iff_of_false not_false fun both => nomatch both.1
  | cons first rest ih =>
    obtain ⟨absent, distinct⟩ := List.nodup_cons.mp distinct
    unfold sweepStubs at swept
    split at swept
    · rename_i own
      intro domain
      refine (ih (List.forall_mem_cons.mp apart).2 distinct swept
        domain).congr fun id => and_congr_left fun stub => ?_
      exact (List.mem_cons.trans (or_iff_right fun same => stub.1 (same.trans own))).symm
    · rename_i other
      obtain ⟨db, answer, executes, swept⟩ := run_call_bind_eq_ok swept
      cases executes
      obtain ⟨⟨⟩, middle, cleaned, swept⟩ := run_bind_eq_ok swept
      obtain ⟨others, drops⟩ := sweepCandidates_eq_ok cleaned
      rw [answered_stores] at others drops
      have elsewhere : ∀ domain ∈ rest, middle.stores domain = domains.stores domain :=
        fun domain member => others domain fun same => absent (same ▸ member)
      have later := ih (fun domain member => elsewhere domain member ▸
        apart domain (List.mem_cons_of_mem _ member)) distinct swept
      intro domain
      by_cases here : domain = first
      · subst here
        have gone := drops.trans (later domain)
        refine gone.congr fun id => ?_
        rw [stubAmong_candidates (apart domain List.mem_cons_self)]
        constructor
        · rintro (stub | ⟨member, _⟩)
          · exact ⟨List.mem_cons_self, other, stub⟩
          · exact absurd member absent
        · exact fun both => .inl both.2.2
      · have same := others domain here
        refine (same ▸ later domain).congr fun id => ?_
        rw [List.mem_cons, or_iff_right here]
        unfold Swept
        rw [same]

theorem sweepStubs_of_spared (domains : Domains) (home : Nat) (name : String)
    (spared : ∀ count, surroundings.failure count = none)
    (apart : ∀ domain ∈ numbers, (domains.stores domain).EntitiesApart)
    (distinct : numbers.Nodup) : ∃ last,
      domains.run surroundings (sweepStubs home name numbers) = (.ok (), last) := by
  induction numbers generalizing domains with
  | nil => exact ⟨_, rfl⟩
  | cons first rest ih =>
    obtain ⟨absent, distinct⟩ := List.nodup_cons.mp distinct
    unfold sweepStubs
    split
    · exact ih _ (List.forall_mem_cons.mp apart).2 distinct
    · rw [run_call_bind_of_ok (.resolveEntity name) (spared domains.asked) rfl]
      have candidates : ∀ candidate ∈ ((domains.stores first).resolveEntity name).candidates,
          ∃ row, (domains.stores first).entities.get? candidate.id = some row ∧
            blank candidate.id = false := by
        intro candidate member
        obtain ⟨row, held, -, -⟩ := Database.mem_entitiesNamed.mp
          ((apart first List.mem_cons_self).mem_candidates.mp member)
        exact ⟨row, held, (apart first List.mem_cons_self).ids _ row held⟩
      have distinctIds : (((domains.stores first).resolveEntity name).candidates.map
          Entity.id).Nodup := Database.candidates_ids_nodup
      have read : (domains.answered first (domains.stores first)).stores = domains.stores :=
        answered_stores
      obtain ⟨middle, cleaned⟩ := sweepCandidates_of_spared first
        (domains.answered first (domains.stores first)) spared distinctIds (by rwa [read])
      rw [run_bind_of_ok cleaned]
      have others := (sweepCandidates_eq_ok cleaned).1
      rw [read] at others
      refine ih _ (fun domain member => ?_) distinct
      rw [others domain fun same => absent (same ▸ member)]
      exact apart domain (List.mem_cons_of_mem _ member)

/-! ## Both deletions -/

/-- What goes when a row is deleted at home and the stubs of a name elsewhere. -/
def Removed (stores : Nat → Database) (domainCount home : Nat) (id name : String) (domain : Nat)
    (other : String) : Prop :=
  domain = home ∧ other = id ∨ domain < domainCount ∧ Swept stores home name domain other

/-- The row of an id, in the first domain that has one. -/
structure FirstHome (stores : Nat → Database) (domainCount : Nat) (id : String) (home : Nat)
    (row : StoredEntity) : Prop where
  inside : home < domainCount
  present : (stores home).entities.get? id = some row
  first : ∀ domain < home, (stores domain).entities.get? id = none

variable {domainCount count : Nat}

section

omit [Blake3] [PayloadCodec] [EntityMatching] [ScoreArithmetic] [CaseMapping]

/-- What a lookup over all domains finds. -/
theorem findSome_range {entity : Entity} : (List.range domainCount).findSome? (fun domain =>
        ((stores domain).getEntityById id).map fun entity => (domain, entity)) =
      some (home, entity) ↔
      ∃ row, FirstHome stores domainCount id home row ∧ row.entity id = entity := by
  have none_found : ∀ count, (List.range count).findSome? (fun domain =>
      ((stores domain).getEntityById id).map fun entity => (domain, entity)) = none ↔
        ∀ domain < count, (stores domain).entities.get? id = none := by
    intro count
    simp only [List.findSome?_eq_none_iff, List.mem_range, Database.getEntityById,
      Option.map_eq_none_iff]
  induction domainCount with
  | zero =>
    refine iff_of_false (Option.some_ne_none _).symm ?_
    rintro ⟨_, first, _⟩
    exact absurd first.inside (Nat.not_lt_zero _)
  | succ count ih =>
    rw [List.range_succ, List.findSome?_append, List.findSome?_singleton]
    cases before : (List.range count).findSome? (fun domain =>
        ((stores domain).getEntityById id).map fun entity => (domain, entity)) with
    | some found =>
      rw [before] at ih
      refine ih.trans ?_
      refine exists_congr fun row => and_congr_left fun _ => ⟨fun first => ?_, fun first => ?_⟩
      · exact ⟨Nat.lt_succ_of_lt first.inside, first.present, first.first⟩
      · refine ⟨?_, first.present, first.first⟩
        refine lt_of_le_of_ne (Nat.le_of_lt_succ first.inside) fun last => ?_
        have all := (none_found count).mpr (last ▸ first.first)
        rw [before] at all
        cases all
    | none =>
      rw [Option.none_or]
      have earlier := (none_found count).mp before
      constructor
      · intro found
        obtain ⟨entity, held, same⟩ := Option.map_eq_some_iff.mp found
        obtain ⟨row, present, rfl⟩ := Option.map_eq_some_iff.mp held
        cases same
        exact ⟨row, ⟨Nat.lt_succ_self _, present, earlier⟩, rfl⟩
      · rintro ⟨row, first, rfl⟩
        have last : home = count := by
          refine le_antisymm (Nat.le_of_lt_succ first.inside) (not_lt.mp fun inside => ?_)
          have absent := earlier home inside
          rw [first.present] at absent
          cases absent
        subst last
        unfold Database.getEntityById
        rw [first.present]
        rfl

/-- A deletion in one domain leaves names and ids apart in all of them. -/
theorem entitiesApart_of_drops (stores : Nat → Database) {middle : Nat → Database} {gone : String → Prop}
    (apart : ∀ domain < domainCount, (stores domain).EntitiesApart)
    (inside : home < domainCount) (dropped : (stores home).Drops gone db)
    (left : middle = Function.update stores home db) :
    ∀ domain < domainCount, (middle domain).EntitiesApart := by
  intro domain below
  rw [left]
  by_cases own : domain = home
  · rw [own, Function.update_self]
    exact dropped.entitiesApart (apart home inside)
  · rw [Function.update_of_ne own]
    exact apart domain below

end

variable (apart : ∀ domain < domainCount, (domains.stores domain).EntitiesApart)

include apart

/-- A deletion at home with the sweep of the other domains. -/
theorem removed_of_sweep {middle : Domains} (inside : home < domainCount)
    (forgotten : (domains.stores home).Drops (fun other => other = id) db)
    (left : middle.stores = Function.update domains.stores home db)
    (swept : middle.run surroundings (sweepStubs home name (List.range domainCount)) =
      (.ok (), last)) (domain : Nat) :
    (domains.stores domain).Drops (Removed domains.stores domainCount home id name domain)
      (last.stores domain) := by
  have elsewhere : ∀ other, other ≠ home → middle.stores other = domains.stores other := by
    intro other distinct
    rw [left]
    exact Function.update_of_ne distinct _ _
  have here : middle.stores home = db := by
    rw [left]
    exact Function.update_self ..
  have still := entitiesApart_of_drops _ apart inside forgotten left
  have later := sweepStubs_eq_ok (fun other member => still other (List.mem_range.mp member))
    List.nodup_range swept domain
  by_cases own : domain = home
  · subst own
    rw [here] at later
    refine (forgotten.trans later).congr fun other => or_congr ?_ ?_
    · exact (and_iff_right rfl).symm
    · exact iff_of_false (fun both => both.2.1 rfl) fun both => both.2.1 rfl
  · rw [elsewhere domain own] at later
    refine later.congr fun other => ?_
    unfold Removed Swept
    rw [elsewhere domain own, List.mem_range]
    exact (or_iff_right fun both => own both.1).symm

theorem forgetEntityById_eq_ok
    (forgotten : domains.run surroundings (forgetEntityById domainCount id) = (.ok count, last)) :
    ∃ home row, FirstHome domains.stores domainCount id home row ∧ ∀ domain,
      (domains.stores domain).Drops
        (Removed domains.stores domainCount home id row.name domain) (last.stores domain) := by
  obtain ⟨found, looked, first, forgotten⟩ := run_bind_eq_ok forgotten
  obtain ⟨same, rfl⟩ := findEntityByIdIn_eq_ok first
  cases found : (List.range domainCount).findSome? (fun domain =>
      ((domains.stores domain).getEntityById id).map fun entity => (domain, entity)) with
  | none =>
    rw [found] at forgotten
    cases forgotten
  | some pair =>
    obtain ⟨home, entity⟩ := pair
    obtain ⟨row, first, rfl⟩ := findSome_range.mp found
    rw [found] at forgotten
    obtain ⟨db, cascaded, executes, forgotten⟩ := run_call_bind_eq_ok forgotten
    obtain ⟨⟨⟩, middle, swept, finished⟩ := run_bind_eq_ok forgotten
    rw [run_bump_bind] at finished
    cases finished
    rw [same] at executes
    refine ⟨home, row, first, removed_of_sweep apart first.inside
      (Database.forgetCounting_drops executes) ?_ swept⟩
    change Function.update looked.stores home db = _
    rw [same]

/-- By its name an entity is forgotten that is the only one of the name in its home. -/
theorem forgetEntity_eq_ok [NameHash] (some_domain : 0 < domainCount)
    (forgotten : domains.run surroundings (forgetEntity domainCount name) = (.ok count, last)) :
    ∃ id row, (domains.stores (domainFor name domainCount)).entities.get? id = some row ∧
      row.name = name ∧ ∀ domain, (domains.stores domain).Drops
        (Removed domains.stores domainCount (domainFor name domainCount) id name domain)
        (last.stores domain) := by
  obtain ⟨db, cascaded, executes, forgotten⟩ := run_call_bind_eq_ok forgotten
  obtain ⟨⟨⟩, middle, swept, finished⟩ := run_bind_eq_ok forgotten
  rw [run_bump_bind] at finished
  cases finished
  obtain ⟨_, _, executes⟩ := bind_eq_ok.mp executes
  obtain ⟨entity, only, executes⟩ := bind_eq_ok.mp executes
  have among : entity ∈ (domains.stores (domainFor name domainCount)).entitiesNamed name := by
    rw [Database.uniqueEntity_eq_ok.mp only]
    exact List.mem_singleton_self _
  obtain ⟨row, held, named, -⟩ := Database.mem_entitiesNamed.mp among
  exact ⟨entity.id, row, held, named, removed_of_sweep apart (domainFor_lt name some_domain)
    (Database.forgetCounting_drops executes) rfl swept⟩

/-- Without failures of the storage a deletion by id succeeds. -/
theorem forgetEntityById_of_spared (spared : ∀ asked, surroundings.failure asked = none)
    (first : FirstHome domains.stores domainCount id home row) : ∃ count last,
      domains.run surroundings (forgetEntityById domainCount id) = (.ok count, last) := by
  obtain ⟨found, looked, lookup⟩ := findEntityByIdIn_of_spared domains id spared
    (List.range domainCount)
  obtain ⟨same, rfl⟩ := findEntityByIdIn_eq_ok lookup
  rw [findSome_range.mpr ⟨row, first, rfl⟩] at lookup
  unfold forgetEntityById findEntityById
  rw [run_bind_of_ok lookup]
  obtain ⟨cascaded, executes⟩ := Database.forgetCounting_of_present first.present
    ((apart home first.inside).ids _ _ first.present)
  rw [← same] at executes
  dsimp only
  rw [run_call_bind_of_ok (.forgetEntityById id) (spared looked.asked) executes]
  have still : ∀ domain ∈ List.range domainCount, ((looked.answered home
      ((looked.stores home).deleteEntity id)).stores domain).EntitiesApart := by
    intro domain member
    refine entitiesApart_of_drops looked.stores (by rwa [same]) first.inside
      Database.deleteEntity_drops rfl domain (List.mem_range.mp member)
  obtain ⟨last, swept⟩ := sweepStubs_of_spared _ home row.name spared still List.nodup_range
  exact ⟨cascaded, last, run_bind_of_ok swept⟩

/-- And so does one by a name that has one entity in its home. -/
theorem forgetEntity_of_spared [NameHash] (spared : ∀ asked, surroundings.failure asked = none)
    (some_domain : 0 < domainCount) (named : blank name = false)
    (only : (domains.stores (domainFor name domainCount)).entitiesNamed name = [row.entity id])
    (present : (domains.stores (domainFor name domainCount)).entities.get? id = some row) :
    ∃ count last, domains.run surroundings (forgetEntity domainCount name) = (.ok count, last) := by
  have inside := domainFor_lt name some_domain
  obtain ⟨cascaded, counted⟩ := Database.forgetCounting_of_present present
    ((apart _ inside).ids _ _ present)
  have executes : (domains.stores (domainFor name domainCount)).forgetEntity name =
      .ok ((domains.stores (domainFor name domainCount)).deleteEntity id, cascaded) := by
    have checked : refuseIf (blank name) (.invalidInput "entity name must not be empty") =
        (.ok () : MemoryResult Unit) :=
      refuseIf_eq_ok.mpr (by rw [named]; exact Bool.false_ne_true)
    exact bind_eq_ok.mpr ⟨(), checked, bind_eq_ok.mpr ⟨_, Database.uniqueEntity_eq_ok.mpr only,
      counted⟩⟩
  unfold forgetEntity
  dsimp only
  rw [run_call_bind_of_ok (.forgetEntity name) (spared domains.asked) executes]
  have still := entitiesApart_of_drops domains.stores apart inside
    (@Database.deleteEntity_drops _ id) rfl
  obtain ⟨last, swept⟩ := sweepStubs_of_spared
    (domains.answered (domainFor name domainCount) _) (domainFor name domainCount) name spared
    (fun domain member => still domain (List.mem_range.mp member)) List.nodup_range
  exact ⟨cascaded, last, run_bind_of_ok swept⟩

/-! ## What belongs to an entity -/

/-- The row of the entity at home, and its stubs elsewhere, which have its name and type. -/
def Concerns (stores : Nat → Database) (home : Nat) (id : String) (entity : StoredEntity)
    (domain : Nat) (other : String) : Prop :=
  domain = home ∧ other = id ∨ domain ≠ home ∧ ∃ row, (stores domain).entities.get? other = some row ∧
    row.source = partitionStubSource ∧ row.name = entity.name ∧ row.entityType = entity.entityType

/-- The entity is gone from all domains, with its observations and its edges, and every other
entity keeps its observations and its edges. -/
structure ForgetsOnly (before after : Nat → Database) (domainCount home : Nat) (id : String)
    (entity : StoredEntity) : Prop where
  gone : ∀ domain < domainCount, ∀ other, Concerns before home id entity domain other →
    (after domain).entities.get? other = none
  entities : ∀ domain < domainCount, ∀ other row, row.source ≠ partitionStubSource →
    ¬ Concerns before home id entity domain other →
      (before domain).entities.get? other = some row → (after domain).entities.get? other = some row
  observations : ∀ domain < domainCount, ∀ key row, (after domain).observations.get? key = some row ↔
    (before domain).observations.get? key = some row ∧
      ¬ Concerns before home id entity domain row.semantic.entityId
  relations : ∀ domain < domainCount, ∀ key row, (after domain).relations.get? key = some row ↔
    (before domain).relations.get? key = some row ∧
      ¬ Concerns before home id entity domain row.fromEntity ∧
        ¬ Concerns before home id entity domain row.toEntity

/-- In the other domains a stub of the same name and another type has no observation, and no
edge but to or from the entity itself. -/
def HomonymsBare (stores : Nat → Database) (domainCount home : Nat) (id : String)
    (entity : StoredEntity) : Prop :=
  ∀ domain < domainCount, domain ≠ home → ∀ other stub,
    (stores domain).entities.get? other = some stub → stub.source = partitionStubSource →
    stub.name = entity.name → stub.entityType ≠ entity.entityType →
      (∀ key row, (stores domain).observations.get? key = some row →
        row.semantic.entityId ≠ other) ∧
      ∀ key row, (stores domain).relations.get? key = some row →
        row.fromEntity = other ∨ row.toEntity = other →
          Concerns stores home id entity domain row.fromEntity ∨
            Concerns stores home id entity domain row.toEntity

section

omit apart
omit [Blake3] [PayloadCodec] [EntityMatching] [ScoreArithmetic] [CaseMapping]

theorem removed_of_concerns {other : String}
    (below : domain < domainCount) (concerns : Concerns stores home id entity domain other) :
    Removed stores domainCount home id entity.name domain other := by
  rcases concerns with own | ⟨apart, row, held, stub, named, -⟩
  · exact .inl own
  · exact .inr ⟨below, apart, row, held, stub, named⟩

/-- What is removed beyond that is a stub of another type. -/
theorem concerns_of_removed {other : String}
    (removed : Removed stores domainCount home id entity.name domain other) :
    Concerns stores home id entity domain other ∨ domain ≠ home ∧ ∃ stub,
      (stores domain).entities.get? other = some stub ∧ stub.source = partitionStubSource ∧
        stub.name = entity.name ∧ stub.entityType ≠ entity.entityType := by
  rcases removed with own | ⟨-, apart, row, held, stub, named⟩
  · exact .inl (.inl own)
  · by_cases typed : row.entityType = entity.entityType
    · exact .inl (.inr ⟨apart, row, held, stub, named, typed⟩)
    · exact .inr ⟨apart, row, held, stub, named, typed⟩

/-- **Nothing else goes** exactly where the homonyms are bare. -/
theorem forgetsOnly_iff {before after : Nat → Database} (drops : ∀ domain, (before domain).Drops
      (Removed before domainCount home id entity.name domain) (after domain)) :
    ForgetsOnly before after domainCount home id entity ↔
      HomonymsBare before domainCount home id entity := by
  constructor
  · intro only domain below apart other stub held source named typed
    have removed : Removed before domainCount home id entity.name domain other :=
      .inr ⟨below, apart, stub, held, source, named⟩
    have spared : ¬ Concerns before home id entity domain other := by
      rintro (⟨own, -⟩ | ⟨-, row, again, -, -, same⟩)
      · exact apart own
      · cases held.symm.trans again
        exact typed same
    refine ⟨fun key row present owns => ?_, fun key row present ends => ?_⟩
    · have kept := (only.observations domain below key row).mpr ⟨present, owns ▸ spared⟩
      exact ((drops domain).observations key row).mp kept |>.2 (owns ▸ removed)
    · by_contra neither
      rw [not_or] at neither
      have kept := (only.relations domain below key row).mpr ⟨present, neither⟩
      obtain ⟨-, origin, target⟩ := ((drops domain).relations key row).mp kept
      rcases ends with rfl | rfl
      · exact origin removed
      · exact target removed
  · intro bare
    have beyond {domain : Nat} {other : String} (below : domain < domainCount)
        (spared : ¬ Concerns before home id entity domain other)
        (removed : Removed before domainCount home id entity.name domain other) :
        (∀ key row, (before domain).observations.get? key = some row →
          row.semantic.entityId ≠ other) ∧
        ∀ key row, (before domain).relations.get? key = some row →
          row.fromEntity = other ∨ row.toEntity = other →
            Concerns before home id entity domain row.fromEntity ∨
              Concerns before home id entity domain row.toEntity := by
      obtain ⟨apart, stub, held, source, named, typed⟩ :=
        (concerns_of_removed removed).resolve_left spared
      exact bare domain below apart other stub held source named typed
    refine ⟨fun domain below other concerns => ?_, fun domain below other row real spared held => ?_,
      fun domain below key row => ?_, fun domain below key row => ?_⟩
    · cases still : (after domain).entities.get? other with
      | none => rfl
      | some row =>
        exact absurd (removed_of_concerns below concerns)
          (((drops domain).entities other row).mp still).2
    · refine ((drops domain).entities other row).mpr ⟨held, fun removed => ?_⟩
      obtain ⟨-, stub, again, source, -⟩ := (concerns_of_removed removed).resolve_left spared
      cases held.symm.trans again
      exact real source
    · rw [(drops domain).observations]
      refine and_congr_right fun present => not_congr ⟨fun removed => ?_, removed_of_concerns below⟩
      by_contra spared
      exact (beyond below spared removed).1 key row present rfl
    · rw [(drops domain).relations]
      refine and_congr_right fun present => ?_
      constructor
      · rintro ⟨origin, target⟩
        exact ⟨fun concerns => origin (removed_of_concerns below concerns),
          fun concerns => target (removed_of_concerns below concerns)⟩
      · rintro ⟨origin, target⟩
        refine ⟨fun removed => ?_, fun removed => ?_⟩
        · exact ((beyond below origin removed).2 key row present (.inl rfl)).elim origin target
        · exact ((beyond below target removed).2 key row present (.inr rfl)).elim origin target

/-! ## The two calls -/

theorem FirstHome.unique {other : Nat} {another : StoredEntity}
    (left : FirstHome stores domainCount id home row)
    (right : FirstHome stores domainCount id other another) : home = other ∧ row = another := by
  have same : home = other := by
    rcases Nat.lt_trichotomy home other with before | same | after
    · exact nomatch (right.first home before).symm.trans left.present
    · exact same
    · exact nomatch (left.first other after).symm.trans right.present
  subst same
  exact ⟨rfl, Option.some.inj (left.present.symm.trans right.present)⟩

end

theorem forgetEntityById_only (first : FirstHome domains.stores domainCount id home row)
    (forgotten : domains.run surroundings (forgetEntityById domainCount id) = (.ok count, last)) :
    ForgetsOnly domains.stores last.stores domainCount home id row ↔
      HomonymsBare domains.stores domainCount home id row := by
  obtain ⟨_, _, again, drops⟩ := forgetEntityById_eq_ok apart forgotten
  obtain ⟨rfl, rfl⟩ := first.unique again
  exact forgetsOnly_iff drops

theorem forgetEntity_only [NameHash] (some_domain : 0 < domainCount)
    (only : (domains.stores (domainFor name domainCount)).entitiesNamed name = [row.entity id])
    (present : (domains.stores (domainFor name domainCount)).entities.get? id = some row)
    (forgotten : domains.run surroundings (forgetEntity domainCount name) = (.ok count, last)) :
    ForgetsOnly domains.stores last.stores domainCount (domainFor name domainCount) id row ↔
      HomonymsBare domains.stores domainCount (domainFor name domainCount) id row := by
  obtain ⟨other, held, there, named, drops⟩ := forgetEntity_eq_ok apart some_domain forgotten
  have among : held.entity other ∈
      (domains.stores (domainFor name domainCount)).entitiesNamed name :=
    Database.mem_entitiesNamed.mpr ⟨held, there, named, rfl⟩
  rw [only, List.mem_singleton] at among
  obtain rfl : other = id := congrArg Entity.id among
  cases there.symm.trans present
  subst named
  exact forgetsOnly_iff drops

end Domains

open Domains in
/-- **Deleting one entity.** Where the storage does not fail, an entity can be deleted by its
id, and by a name that it alone has at home. A deletion that succeeds takes the entity, its
observations and its edges, and nothing of any other entity, exactly where the stubs of its
name that have another type are bare. -/
theorem deletion_spares_others_iff [Blake3] [PayloadCodec] [EntityMatching] [ScoreArithmetic]
    [CaseMapping] [NameHash] (surroundings : Surroundings) (domains : Domains) (domainCount : Nat)
    (apart : ∀ domain < domainCount, (domains.stores domain).EntitiesApart) :
    (∀ id home row, FirstHome domains.stores domainCount id home row →
      ((∀ asked, surroundings.failure asked = none) → ∃ count last,
        domains.run surroundings (forgetEntityById domainCount id) = (.ok count, last)) ∧
      ∀ count last, domains.run surroundings (forgetEntityById domainCount id) = (.ok count, last) →
        (ForgetsOnly domains.stores last.stores domainCount home id row ↔
          HomonymsBare domains.stores domainCount home id row)) ∧
    (0 < domainCount → ∀ name id row, blank name = false →
      (domains.stores (domainFor name domainCount)).entitiesNamed name = [row.entity id] →
      (domains.stores (domainFor name domainCount)).entities.get? id = some row →
      ((∀ asked, surroundings.failure asked = none) → ∃ count last,
        domains.run surroundings (forgetEntity domainCount name) = (.ok count, last)) ∧
      ∀ count last, domains.run surroundings (forgetEntity domainCount name) = (.ok count, last) →
        (ForgetsOnly domains.stores last.stores domainCount (domainFor name domainCount) id row ↔
          HomonymsBare domains.stores domainCount (domainFor name domainCount) id row)) :=
  ⟨fun _ _ _ first => ⟨fun spared => forgetEntityById_of_spared apart spared first,
    fun _ _ => forgetEntityById_only apart first⟩,
  fun some_domain _ _ _ named only present =>
    ⟨fun spared => forgetEntity_of_spared apart spared some_domain named only present,
      fun _ _ => forgetEntity_only apart some_domain only present⟩⟩

/-! ## A project and a concept of one name -/

namespace ForgottenEntities

open Domains Database Database.AuditBounds Database.BulkRetirement Merge.Fixture

/-- A domain by the first byte of a name. -/
scoped instance firstByte : NameHash where
  finish bytes := (bytes.headD 0 + 1).toUInt64
  charToLowercase c := [c.toLower]

def titled (name : String) (entityType : EntityType) (source : String) : StoredEntity where
  name := name
  entityType := entityType
  createdAt := 0
  updatedAt := 0
  confidence := .one
  source := source

def knows : StoredRelation where
  fromEntity := "bob"
  toEntity := "stub"
  relationType := "knows"
  weight := .one
  createdAt := 0
  validFrom := none
  validUntil := none
  source := "mcp"

/-- "Alpha" is a project and a concept. -/
def homonyms : Database :=
  { Database.initial with
    entities := ⟨[("project", titled "Alpha" .project "mcp"),
      ("concept", titled "Alpha" .concept "mcp")], by decide⟩ }

/-- "Bob" has a stub of the concept, and may know it. -/
def elsewhere (edges : Table String StoredRelation) : Database :=
  { Database.initial with
    entities := ⟨[("bob", titled "Bob" .person "mcp"),
      ("stub", titled "Alpha" .concept partitionStubSource)], by decide⟩
    relations := edges }

def profile (edges : Table String StoredRelation) : Domains :=
  ⟨fun domain => if domain = 0 then homonyms else elsewhere edges, 0⟩

def acquainted : Table String StoredRelation := ⟨[("edge", knows)], by decide⟩

def undisturbed : Surroundings where
  supply _ := ⟨draws, draws, draws.changeSet, 0⟩
  failure _ := none

/-- Ids and rows of two entities that can be told apart. -/
theorem entitiesApart_of_two {first second : String} {left right : StoredEntity}
    {distinct : ([(first, left), (second, right)].map Prod.fst).Nodup}
    (two : db.entities = ⟨[(first, left), (second, right)], distinct⟩)
    (apart : left.name ≠ right.name ∨ left.entityType ≠ right.entityType)
    (texts : blank first = false ∧ blank second = false) : db.EntitiesApart := by
  have rows {id : String} {row : StoredEntity} (held : db.entities.get? id = some row) :
      id = first ∧ row = left ∨ id = second ∧ row = right := by
    rw [two] at held
    have member := Table.get?_eq_some_iff.mp held
    simpa using member
  refine ⟨fun one other held again here there named typed => ?_, fun id row held => ?_⟩
  · rcases rows here with ⟨rfl, rfl⟩ | ⟨rfl, rfl⟩ <;> rcases rows there with ⟨rfl, rfl⟩ | ⟨rfl, rfl⟩
    · rfl
    · exact absurd typed (apart.resolve_left (not_not_intro named))
    · exact absurd typed.symm (apart.resolve_left (not_not_intro named.symm))
    · rfl
  · rcases rows held with ⟨rfl, -⟩ | ⟨rfl, -⟩
    · exact texts.1
    · exact texts.2

theorem profile_apart (edges : Table String StoredRelation) (domain : Nat) :
    ((profile edges).stores domain).EntitiesApart := by
  unfold profile
  dsimp only
  split
  · exact entitiesApart_of_two rfl (by decide) (by decide)
  · exact entitiesApart_of_two rfl (by decide) (by decide)

theorem project_first (edges : Table String StoredRelation) :
    FirstHome (profile edges).stores 2 "project" 0 (titled "Alpha" .project "mcp") :=
  ⟨by decide, by rfl, fun _ before => absurd before (Nat.not_lt_zero _)⟩

end ForgottenEntities

open Domains Database Database.AuditBounds Database.BulkRetirement Merge.Fixture
  ForgottenEntities in
/-- Without the edge the deletion of the project takes nothing else. -/
theorem project_deleted_alone : ∃ count last,
    (profile .empty).run undisturbed (forgetEntityById 2 "project") = (.ok count, last) ∧
      ForgetsOnly (profile .empty).stores last.stores 2 0 "project"
        (titled "Alpha" .project "mcp") := by
  have both := (deletion_spares_others_iff undisturbed (profile .empty) 2
    fun domain _ => profile_apart .empty domain).1 "project" 0 _ (project_first .empty)
  obtain ⟨count, last, forgotten⟩ := both.1 fun _ => rfl
  refine ⟨count, last, forgotten, (both.2 count last forgotten).mpr ?_⟩
  intro domain below apart other stub _ _ _ _
  obtain rfl : domain = 1 := by omega
  exact ⟨fun _ _ held => (nomatch held), fun _ _ held => (nomatch held)⟩

open Domains Database Database.AuditBounds Database.BulkRetirement Merge.Fixture
  ForgottenEntities in
/-- With it the concept loses the edge to it. -/
theorem concept_loses_edge : ¬ ∀ (domainCount : Nat) (domains last : Domains)
    (surroundings : Surroundings) (id : String) (home count : Nat) (row : StoredEntity),
    (∀ domain < domainCount, (domains.stores domain).EntitiesApart) →
      FirstHome domains.stores domainCount id home row →
        domains.run surroundings (forgetEntityById domainCount id) = (.ok count, last) →
          ForgetsOnly domains.stores last.stores domainCount home id row := by
  intro always
  have apart : ∀ domain < 2, ((profile acquainted).stores domain).EntitiesApart :=
    fun domain _ => profile_apart acquainted domain
  obtain ⟨count, last, forgotten⟩ := forgetEntityById_of_spared apart
    (fun _ => rfl : ∀ asked, undisturbed.failure asked = none) (project_first acquainted)
  have only := always 2 _ last undisturbed "project" 0 count _ apart (project_first acquainted)
    forgotten
  have bare := (forgetEntityById_only apart (project_first acquainted) forgotten).mp only
  obtain ⟨-, ends⟩ := bare 1 (by decide) (by decide) "stub" (titled "Alpha" .concept partitionStubSource) rfl
    rfl rfl (by decide)
  rcases ends "edge" knows rfl (.inr rfl) with (⟨own, -⟩ | ⟨-, row, held, -, named, -⟩) |
    (⟨own, -⟩ | ⟨-, row, held, -, -, typed⟩)
  · cases own
  · cases held
    exact absurd named (by decide)
  · cases own
  · cases held
    cases typed

end OpenMemory.Engine.Partition
