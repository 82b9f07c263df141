import OpenMemory.Graph.Guarantees.BulkRetirement

/-!
# What a consolidation conserves

Duplicates and decayed observations are chosen independently of each other, from the
rows as they are before the consolidation. So an observation may be merged into one
that decays, or be chosen twice and be counted twice, and the sum of accesses may
not fit its column.

If none of this happens, every duplicate has a survivor, accesses are handed over,
the report counts what was retired, and there is nothing left for a second
consolidation: what remains of one entity is not similar, and has more accesses than
before.
-/

namespace OpenMemory.Graph

open Foundation
open Merge (Blake3)

/-- More accesses never bring a score below a floor. -/
def MonotoneScores [ScoreArithmetic] : Prop :=
  ∀ (observedAt : Int64) (fewer more : UInt32) (confidence : Float32Bits) (source : String)
    (now : Int64) (rate : BitVec 64) (floor : Float32Bits), fewer ≤ more →
    (ScoreArithmetic.decayScore observedAt more confidence source now rate).less floor = true →
    (ScoreArithmetic.decayScore observedAt fewer confidence source now rate).less floor = true

namespace Database

/-- There is an observation under the id that is neither deleted nor retired. -/
def live (db : Database) (id : String) : Bool :=
  (db.observations.get? id).any fun row => row.tombstoned = false ∧ row.lifecycle = .active

/-- The observations that are retired on the way from one database to another. -/
def retiredBy (db db' : Database) : List String :=
  (db.observations.entries.map Prod.fst).filter fun id => db.live id && !db'.live id

section Claims

variable [ScoreArithmetic] [CaseMapping] [Blake3] [PayloadCodec] [EntityMatching]

/-- **A consolidation conserves claims.** -/
structure Conserves (db : Database) (config : ConsolidateConfig) (now : Int64) (db' : Database)
    (report : ConsolidateReport) : Prop where
  /-- A duplicate has a survivor of the same entity, whose text is similar. -/
  survivors : ∀ id ∈ db.duplicates config, ∀ row, db.observations.get? id = some row →
    ∃ other survivor, db.observations.get? other = some survivor ∧
      other ∉ db.duplicates config ∧ survivor.semantic.entityId = row.semantic.entityId ∧
      nearDuplicate config.dedupTextThreshold survivor.semantic.content row.semantic.content =
        true ∧ db'.live other = true
  /-- A survivor takes the accesses of its losers over. -/
  counts : ∀ group ∈ db.dedupGroups config, ∀ before after,
    db.observations.get? group.survivor = some before →
    db'.observations.get? group.survivor = some after → db'.live group.survivor = true →
      after.accessCount.toNat = before.accessCount.toNat + db.accessesOf group.losers
  /-- The report counts what was retired. -/
  counted : report.duplicatesMerged + report.observationsPruned = (db.retiredBy db').length
  /-- A second consolidation retires nothing. -/
  settled : ∀ retirement key sweep db'' again,
    db'.consolidate now retirement key sweep config = .ok (db'', again) → db'.retiredBy db'' = []

omit [Blake3] [PayloadCodec] [EntityMatching] in
/-- **The condition**: the two kinds of targets keep out of each other's way. -/
structure Separate (db : Database) (config : ConsolidateConfig) (now : Int64) : Prop where
  /-- A duplicate is similar to an observation of its entity that is no target. -/
  kept : ∀ id ∈ db.duplicates config, ∀ row, db.observations.get? id = some row →
    ∃ other survivor, db.observations.get? other = some survivor ∧
      survivor.tombstoned = false ∧ other ∉ db.duplicates config ∧
      other ∉ db.decayPruneTargets config now ∧
      survivor.semantic.entityId = row.semantic.entityId ∧
      nearDuplicate config.dedupTextThreshold survivor.semantic.content row.semantic.content = true
  /-- No duplicate has decayed. -/
  apart : ∀ id ∈ db.duplicates config, id ∉ db.decayPruneTargets config now
  /-- The accesses that a survivor takes over fit its counter. -/
  fit : ∀ group ∈ db.dedupGroups config, group.survivor ∉ db.decayPruneTargets config now →
    ∀ before, db.observations.get? group.survivor = some before →
      before.accessCount.toNat + db.accessesOf group.losers < 2 ^ 32

variable {db db' : Database} {config : ConsolidateConfig} {now : Int64}
  {retirement sweep : Draws} {key : ChangeSetId} {report : ConsolidateReport} {id : String}
  {row after : ObservationRow}

omit [ScoreArithmetic] [CaseMapping] [Blake3] [PayloadCodec] [EntityMatching] in
theorem live_iff : db.live id = true ↔ ∃ row, db.observations.get? id = some row ∧
    row.tombstoned = false ∧ row.lifecycle = .active := by
  unfold live
  rw [Option.any_eq_true]
  simp only [decide_eq_true_eq]

/-! ## The rows after a consolidation -/

/-- What a consolidation leaves of the observations that are no targets. -/
structure Consolidated (db : Database) (config : ConsolidateConfig) (now : Int64)
    (db' : Database) : Prop where
  kept : ∀ id row, db.observations.get? id = some row → row.tombstoned = false →
    id ∉ db.consolidationTargets config now → db'.observations.get? id =
      some { row with accessCount := row.accessCount + bonus (db.rollups config) id }
  live : ∀ id after, db'.observations.get? id = some after → after.tombstoned = false →
    ∃ row, db.observations.get? id = some row ∧ row.tombstoned = false ∧
      id ∉ db.consolidationTargets config now

theorem consolidated_of_ok (aligned : db.Aligned) (new : db.DrawsNewKey retirement key)
    (done : db.consolidate now retirement key sweep config = .ok (db', report)) :
    Consolidated db config now db' := by
  obtain ⟨middle, retires, rows, _⟩ := consolidate_eq_ok aligned new done
  constructor
  · intro id row present live free
    rw [rows, Table.get?_filter, Table.get?_map, retires.kept free, present, Option.map_some]
    refine Option.filter_eq_some_iff.mpr ⟨rfl, ?_⟩
    unfold stale
    rw [live]
    rfl
  · intro id after present live
    rw [rows, Table.get?_filter, Option.filter_eq_some_iff, Table.get?_map,
      Option.map_eq_some_iff] at present
    obtain ⟨⟨row, there, rfl⟩, _⟩ := present
    by_cases target : id ∈ db.consolidationTargets config now
    · obtain ⟨held, before, _⟩ := live_of_target target
      obtain ⟨next, reached, changed⟩ := retires.retired target before
      cases reached.symm.trans there
      have gone := changed.tombstoned
      cases gone.symm.trans live
    · rw [retires.kept target] at there
      exact ⟨row, there, live, target⟩

section

omit [Blake3] [PayloadCodec] [EntityMatching]

theorem Consolidated.live_iff (aligned : db.Aligned) (done : Consolidated db config now db') :
    db'.live id = true ↔ db.live id = true ∧ id ∉ db.consolidationTargets config now := by
  constructor
  · intro live
    obtain ⟨after, present, flag, _⟩ := Database.live_iff.mp live
    obtain ⟨row, before, same, free⟩ := done.live id after present flag
    exact ⟨Database.live_iff.mpr ⟨row, before, same, aligned id row before same⟩, free⟩
  · rintro ⟨live, free⟩
    obtain ⟨row, before, flag, active⟩ := Database.live_iff.mp live
    exact Database.live_iff.mpr ⟨_, done.kept id row before flag free, flag, active⟩

/-- A row that is still there is the row before, with the accesses it takes over. -/
theorem Consolidated.row_eq (done : Consolidated db config now db')
    (present : db'.observations.get? id = some after) (flag : after.tombstoned = false) :
    ∃ row, db.observations.get? id = some row ∧ row.tombstoned = false ∧
      id ∉ db.consolidationTargets config now ∧
      after = { row with accessCount := row.accessCount + bonus (db.rollups config) id } := by
  obtain ⟨row, before, same, free⟩ := done.live id after present flag
  refine ⟨row, before, same, free, ?_⟩
  cases present.symm.trans (done.kept id row before same free)
  rfl

/-- What was retired are the targets. -/
theorem Consolidated.length_retiredBy (aligned : db.Aligned)
    (done : Consolidated db config now db') :
    (db.retiredBy db').length = (db.consolidationTargets config now).length := by
  refine List.Perm.length_eq ((List.perm_ext_iff_of_nodup ?_ consolidationTargets_nodup).mpr
    fun id => ?_)
  · exact db.observations.distinct.filter _
  · unfold retiredBy
    rw [List.mem_filter, Bool.and_eq_true, Bool.not_eq_true', ← Bool.not_eq_true,
      done.live_iff aligned, not_and, not_not]
    constructor
    · rintro ⟨_, live, target⟩
      exact target live
    · intro target
      obtain ⟨row, before, flag⟩ := live_of_target target
      exact ⟨List.mem_map.mpr ⟨(id, row), Table.get?_eq_some_iff.mp before, rfl⟩,
        Database.live_iff.mpr ⟨row, before, flag, aligned id row before flag⟩, fun _ => target⟩

/-- The targets are as many as there are duplicates and decayed observations, exactly
when no observation is both. -/
theorem length_consolidationTargets :
    (db.duplicates config).length + (db.decayPruneTargets config now).length =
        (db.consolidationTargets config now).length ↔
      ∀ id ∈ db.duplicates config, id ∉ db.decayPruneTargets config now := by
  unfold consolidationTargets
  rw [(List.perm_insertionSort _ _).length_eq, ← List.length_append]
  change (db.duplicates config ++ db.decayPruneTargets config now).length =
    (db.duplicates config ++ db.decayPruneTargets config now).dedup.length ↔ _
  rw [eq_comm, (List.dedup_sublist _).length_eq, List.dedup_eq_self, List.nodup_append]
  constructor
  · rintro ⟨_, _, apart⟩ id duplicate faded
    exact apart id duplicate id faded rfl
  · intro apart
    refine ⟨duplicates_nodup, decayPruneTargets_nodup, fun id duplicate other faded same => ?_⟩
    exact apart id duplicate (same ▸ faded)

/-! ## Accesses -/

theorem bonus_of_group {group : DedupGroup} (member : group ∈ db.dedupGroups config) :
    bonus (db.rollups config) group.survivor = group.loserAccesses := by
  refine bonus_of_mem ?_ (List.mem_map.mpr ⟨group, member, rfl⟩)
  unfold rollups
  rw [List.map_map]
  exact survivors_nodup

theorem bonus_of_none (none : ∀ group ∈ db.dedupGroups config, group.survivor ≠ id) :
    bonus (db.rollups config) id = 0 := by
  refine bonus_of_absent fun member => ?_
  unfold rollups at member
  rw [List.map_map] at member
  obtain ⟨group, among, same⟩ := List.mem_map.mp member
  exact none group among same

/-- The sum is counted exactly when it fits. -/
theorem toNat_rollup {group : DedupGroup} (member : group ∈ db.dedupGroups config)
    (count : UInt32) :
    (count + bonus (db.rollups config) group.survivor).toNat =
        count.toNat + db.accessesOf group.losers ↔
      count.toNat + db.accessesOf group.losers < 2 ^ 32 := by
  have small := count.toNat_lt
  rw [bonus_of_group member, UInt32.toNat_add, loserAccesses_eq member]
  constructor
  · intro same
    have bounded := Nat.mod_lt (count.toNat + min (db.accessesOf group.losers) (2 ^ 32 - 1))
      (by decide : 0 < 2 ^ 32)
    omega
  · intro fits
    rw [min_eq_left (by omega), Nat.mod_eq_of_lt fits]

/-- No count becomes smaller. -/
theorem Separate.count_le (separate : Separate db config now)
    (present : db.observations.get? id = some row)
    (free : id ∉ db.consolidationTargets config now) :
    row.accessCount ≤ row.accessCount + bonus (db.rollups config) id := by
  by_cases survives : ∃ group ∈ db.dedupGroups config, group.survivor = id
  · obtain ⟨group, member, rfl⟩ := survives
    have fits := separate.fit group member
      (fun faded => free (mem_consolidationTargets.mpr (.inr faded))) row present
    rw [UInt32.le_iff_toNat_le, (toNat_rollup member row.accessCount).mpr fits]
    omega
  · rw [bonus_of_none fun group member same => survives ⟨group, member, same⟩, UInt32.add_zero]
    exact UInt32.le_refl _

/-! ## A second consolidation -/

/-- **What remains holds no duplicates.** -/
theorem Consolidated.duplicates_eq_nil (done : Consolidated db config now db') :
    db'.duplicates config = [] := by
  refine List.eq_nil_iff_forall_not_mem.mpr fun id duplicate => ?_
  obtain ⟨group, member, loses⟩ := group_of_duplicate duplicate
  obtain ⟨survivor, present, flag, lasts, losers⟩ := dedupGroup_spec member
  obtain ⟨loser, found, about, near⟩ := losers id loses
  obtain ⟨held, again, deleted⟩ := live_of_duplicate duplicate
  cases found.symm.trans again
  have distinct : group.survivor ≠ id := fun same => lasts (same ▸ duplicate)
  obtain ⟨first, firstHeld, firstLive, firstFree, rfl⟩ := done.row_eq present flag
  obtain ⟨second, secondHeld, secondLive, secondFree, rfl⟩ := done.row_eq found deleted
  have free : ∀ {name : String}, name ∉ db.consolidationTargets config now →
      name ∉ db.duplicates config :=
    fun target merged => target (mem_consolidationTargets.mpr (.inl merged))
  have far := remaining_apart firstHeld firstLive secondHeld secondLive about.symm distinct
    (free firstFree) (free secondFree)
  rw [far] at near
  cases near

/-- **What remains has not decayed**, for it has no fewer accesses than before. -/
theorem Consolidated.decayPruneTargets_eq_nil (monotone : MonotoneScores)
    (done : Consolidated db config now db') (separate : Separate db config now) :
    db'.decayPruneTargets config now = [] := by
  refine List.eq_nil_iff_forall_not_mem.mpr fun id faded => ?_
  obtain ⟨after, present, flag, worn⟩ := mem_decayPruneTargets.mp faded
  obtain ⟨row, before, live, free, rfl⟩ := done.row_eq present flag
  refine free (mem_consolidationTargets.mpr (.inr (mem_decayPruneTargets.mpr
    ⟨row, before, live, ?_⟩)))
  unfold decayed at worn ⊢
  rw [Bool.and_eq_true] at worn ⊢
  exact ⟨worn.1, monotone _ _ _ _ _ _ _ _ (separate.count_le before free) worn.2⟩

end

/-- A consolidation without targets retires nothing. -/
theorem retiredBy_eq_nil (idle : db.consolidationTargets config now = [])
    (done : db.consolidate now retirement key sweep config = .ok (db', report)) :
    db.retiredBy db' = [] := by
  obtain ⟨middle, retired, retires, known, rows⟩ := consolidate_rows done
  refine List.filter_eq_nil_iff.mpr fun id _ => ?_
  rw [Bool.and_eq_true, Bool.not_eq_true', not_and, Bool.not_eq_false]
  intro live
  obtain ⟨row, before, flag, active⟩ := Database.live_iff.mp live
  have untouched : id ∉ retired := by
    intro member
    have target := (known id member).1
    rw [idle] at target
    cases target
  refine Database.live_iff.mpr ⟨{ row with
    accessCount := row.accessCount + bonus (db.rollups config) id }, ?_, flag, active⟩
  rw [rows, Table.get?_filter, Table.get?_map, retires.kept untouched, before, Option.map_some]
  refine Option.filter_eq_some_iff.mpr ⟨rfl, ?_⟩
  unfold stale
  rw [flag]
  rfl

theorem Consolidated.settled (monotone : MonotoneScores)
    (done : Consolidated db config now db') (separate : Separate db config now) {db'' : Database}
    (again : db'.consolidate now retirement key sweep config = .ok (db'', report)) :
    db'.retiredBy db'' = [] := by
  refine retiredBy_eq_nil (List.eq_nil_iff_forall_not_mem.mpr fun id target => ?_) again
  rcases mem_consolidationTargets.mp target with duplicate | faded
  · rw [done.duplicates_eq_nil] at duplicate
    cases duplicate
  · rw [done.decayPruneTargets_eq_nil monotone separate] at faded
    cases faded

/-! ## Conservation -/

/-- **Consolidation conserves claims** exactly when its two kinds of targets keep out of
each other's way and the accesses fit. -/
theorem consolidation_conserves (monotone : MonotoneScores) (reachable : Reachable db)
    (new : db.DrawsNewKey retirement key)
    (done : db.consolidate now retirement key sweep config = .ok (db', report)) :
    Conserves db config now db' report ↔ Separate db config now := by
  have aligned := reachable.aligned
  have rows := consolidated_of_ok aligned new done
  obtain ⟨_, _, _, merged, pruned⟩ := consolidate_eq_ok aligned new done
  have reported : report.duplicatesMerged + report.observationsPruned =
      (db.retiredBy db').length ↔
        ∀ id ∈ db.duplicates config, id ∉ db.decayPruneTargets config now := by
    rw [merged, pruned, rows.length_retiredBy aligned]
    exact length_consolidationTargets
  constructor
  · intro conserves
    refine ⟨fun id duplicate row present => ?_, reported.mp conserves.counted,
      fun group member lasting before present => ?_⟩
    · obtain ⟨other, survivor, held, unmerged, about, near, live⟩ :=
        conserves.survivors id duplicate row present
      obtain ⟨alive, free⟩ := (rows.live_iff aligned).mp live
      obtain ⟨_, again, flag, _⟩ := Database.live_iff.mp alive
      cases held.symm.trans again
      exact ⟨other, survivor, held, flag, unmerged,
        fun faded => free (mem_consolidationTargets.mpr (.inr faded)), about, near⟩
    · obtain ⟨_, held, flag, unmerged, _⟩ := dedupGroup_spec member
      cases held.symm.trans present
      have free : group.survivor ∉ db.consolidationTargets config now := fun target =>
        (mem_consolidationTargets.mp target).elim unmerged lasting
      have kept := rows.kept _ before present flag free
      have live : db'.live group.survivor = true := (rows.live_iff aligned).mpr
        ⟨Database.live_iff.mpr ⟨before, present, flag, aligned _ before present flag⟩, free⟩
      exact (toNat_rollup member before.accessCount).mp
        (conserves.counts group member before _ present kept live)
  · intro separate
    refine ⟨fun id duplicate row present => ?_, fun group member before after present now live => ?_,
      reported.mpr separate.apart, fun retirement key sweep db'' again second => ?_⟩
    · obtain ⟨other, survivor, held, flag, unmerged, lasting, about, near⟩ :=
        separate.kept id duplicate row present
      refine ⟨other, survivor, held, unmerged, about, near, (rows.live_iff aligned).mpr
        ⟨Database.live_iff.mpr ⟨survivor, held, flag, aligned _ survivor held flag⟩,
          fun target => (mem_consolidationTargets.mp target).elim unmerged lasting⟩⟩
    · obtain ⟨_, again, flag, _⟩ := Database.live_iff.mp live
      cases now.symm.trans again
      obtain ⟨row, held, _, free, rfl⟩ := rows.row_eq now flag
      cases present.symm.trans held
      exact (toNat_rollup member before.accessCount).mpr (separate.fit group member
        (fun faded => free (mem_consolidationTargets.mpr (.inr faded))) before present)
    · exact rows.settled monotone separate second

end Claims

/-! ## A pair of observations -/

namespace ConservedClaims

open Merge.Fixture AuditBounds

/-- The thresholds of a consolidation of all that is similar and not worth one. -/
def strict : ConsolidateConfig := ⟨.one, .one, 0, 0⟩

/-- A float just below one. -/
def belowOne : Float32Bits := ⟨0x3F7FFFFF⟩

/-- Scores of a store in which everything fades. -/
scoped instance fading : ScoreArithmetic where
  ratio _ _ := .one
  decayScore _ _ _ _ _ _ := belowOne

theorem fading_monotone : MonotoneScores := fun _ _ _ _ _ _ _ _ _ low => low

end ConservedClaims

open Merge.Fixture AuditBounds BulkRetirement in
/-- Two observations that do not fade are merged into one. -/
theorem pair_conserved : ∃ db' report,
    (crowd 2).consolidate 0 draws draws.confirmation draws ConservedClaims.strict =
        .ok (db', report) ∧
      Conserves (crowd 2) ConservedClaims.strict 0 db' report := by
  have done : (crowd 2).consolidate 0 draws draws.confirmation draws ConservedClaims.strict =
      .ok (unwrap ((crowd 2).consolidate 0 draws draws.confirmation draws ConservedClaims.strict)
        (by decide)) := unwrap_eq
  refine ⟨_, _, done, (consolidation_conserves (fun _ _ _ _ _ _ _ _ _ low => low)
    (crowd_migrated 2).reachable rfl done).mpr ⟨fun id duplicate row present => ?_, by decide,
      fun group member _ before present => ?_⟩⟩
  · have first : (crowd 2).observations.get? "o" = some BulkRetirement.fact := by decide
    rw [crowd_rows present]
    exact ⟨"o", BulkRetirement.fact, first, rfl, by decide, by decide, rfl, by decide⟩
  · have unread : ∀ group ∈ (crowd 2).dedupGroups ConservedClaims.strict,
        (crowd 2).accessesOf group.losers = 0 := by decide
    rw [crowd_rows present, unread group member]
    decide

open Merge.Fixture AuditBounds ConservedClaims in
/-- Of two observations that fade, one is merged into the other, and both are retired. -/
theorem pair_not_conserved :
    ¬ (MonotoneScores → ∀ (db : Database) (config : ConsolidateConfig) (now : Int64)
      (retirement : Draws) (key : ChangeSetId) (sweep : Draws) (db' : Database)
      (report : ConsolidateReport), Reachable db → db.DrawsNewKey retirement key →
        db.consolidate now retirement key sweep config = .ok (db', report) →
          Conserves db config now db' report) := by
  intro always
  have done : (BulkRetirement.crowd 2).consolidate 0 draws draws.confirmation draws strict =
      .ok (unwrap ((BulkRetirement.crowd 2).consolidate 0 draws draws.confirmation draws strict)
        (by decide)) := unwrap_eq
  have conserves := always fading_monotone (BulkRetirement.crowd 2) strict 0 draws
    draws.confirmation draws _ _ (BulkRetirement.crowd_migrated 2).reachable rfl done
  have separate := (consolidation_conserves fading_monotone
    (BulkRetirement.crowd_migrated 2).reachable rfl done).mp conserves
  exact separate.apart "oo" (by decide) (by decide)

end Database

end OpenMemory.Graph
