import OpenMemory.Graph.Retention
import OpenMemory.Graph.Duplicates

/-!
# What a consolidation does to the rows

A consolidation retires its targets, then counts accesses, then prunes. Counting
changes nothing but counts. Pruning deletes exactly the rows that are stale: an
entity is removed only when it has no observations, so no other row goes with it.
-/

namespace OpenMemory.Graph

open Foundation
open Merge (Blake3)

variable {accesses : List (String × UInt32)}

namespace Database

variable {db db' : Database} {draws : Draws} {id : String} {row : ObservationRow}

/-! ## Counting -/

/-- What a list of accesses adds to the count of an observation. -/
def bonus (accesses : List (String × UInt32)) (id : String) : UInt32 :=
  ((accesses.filter fun access => access.1 = id).map Prod.snd).sum

theorem addAccesses_rows :
    (db.addAccesses accesses).observations = db.observations.map fun id row =>
      { row with accessCount := row.accessCount + bonus accesses id } := by
  induction accesses generalizing db with
  | nil =>
    have same : (fun (id : String) (row : ObservationRow) =>
        { row with accessCount := row.accessCount + bonus [] id }) = fun _ row => row := by
      funext id row
      change { row with accessCount := row.accessCount + 0 } = row
      rw [UInt32.add_zero]
    rw [same]
    exact Table.map_id.symm
  | cons access rest ih =>
    have first := @ih { db with observations := db.observations.modify access.1 fun row =>
      { row with accessCount := row.accessCount + access.2 } }
    refine first.trans ?_
    rw [Table.modify_eq_map, Table.map_map]
    congr 1
    funext id row
    unfold bonus
    by_cases here : id = access.1
    · rw [if_pos here, List.filter_cons_of_pos (by simpa using here.symm), List.map_cons,
        List.sum_cons, UInt32.add_assoc]
    · rw [if_neg here, List.filter_cons_of_neg (by simpa using fun same => here same.symm)]

theorem bonus_of_absent (absent : id ∉ accesses.map Prod.fst) : bonus accesses id = 0 := by
  unfold bonus
  rw [List.filter_eq_nil_iff.mpr fun access member same =>
    absent (List.mem_map.mpr ⟨access, member, of_decide_eq_true same⟩)]
  rfl

theorem bonus_of_mem {count : UInt32}
    (distinct : (accesses.map Prod.fst).Nodup) (member : (id, count) ∈ accesses) :
    bonus accesses id = count := by
  induction accesses with
  | nil => cases member
  | cons access rest ih =>
    obtain ⟨absent, distinct⟩ := List.nodup_cons.mp distinct
    rcases List.mem_cons.mp member with rfl | later
    · have none := bonus_of_absent absent
      unfold bonus at none ⊢
      rw [List.filter_cons_of_pos (by simp), List.map_cons, List.sum_cons, none, UInt32.add_zero]
    · have other : access.1 ≠ id := by
        rintro rfl
        exact absent (List.mem_map.mpr ⟨_, later, rfl⟩)
      have rest := ih distinct later
      unfold bonus at rest ⊢
      rw [List.filter_cons_of_neg (by simpa using other), rest]

/-! ## Pruning -/

/-- Entities without observations take none with them. -/
theorem deleteEntities_rows {ids : List String}
    (empty : ∀ id ∈ ids, ∀ entry ∈ db.observations.entries, entry.2.semantic.entityId ≠ id) :
    (ids.foldl deleteEntity db).observations = db.observations := by
  induction ids generalizing db with
  | nil => rfl
  | cons id rest ih =>
    have same : (db.deleteEntity id).observations = db.observations := by
      apply Table.ext
      refine List.filter_eq_self.mpr fun entry member => decide_eq_true ?_
      exact empty id List.mem_cons_self entry member
    rw [List.foldl_cons, ih, same]
    intro other member entry held
    rw [same] at held
    exact empty other (List.mem_cons_of_mem _ member) entry held

/-- **Pruning deletes exactly the stale rows.** -/
theorem pruneWithTtl_rows {ttlSecs : Int64} :
    (db.pruneWithTtl draws ttlSecs).observations =
      db.observations.filter fun _ row => !stale (draws.now - max 0 ttlSecs) row := by
  unfold pruneWithTtl
  refine deleteEntities_rows fun id member entry held => ?_
  have orphan := (List.mem_filter.mp member).2
  unfold orphaned at orphan
  rw [Bool.and_eq_true, List.all_eq_true] at orphan
  exact of_decide_eq_true (orphan.1 entry held)

/-! ## Targets -/

section Targets

variable [ScoreArithmetic] [CaseMapping] {config : ConsolidateConfig} {now : Int64}

omit [CaseMapping] in
theorem mem_decayPruneTargets : id ∈ db.decayPruneTargets config now ↔
    ∃ row, db.observations.get? id = some row ∧ row.tombstoned = false ∧
      decayed config now row = true := by
  unfold decayPruneTargets
  rw [List.mem_map]
  constructor
  · rintro ⟨⟨id, row⟩, member, rfl⟩
    obtain ⟨held, chosen⟩ := List.mem_filter.mp member
    rw [decide_eq_true_eq] at chosen
    exact ⟨row, Table.get?_eq_some_iff.mpr held, chosen⟩
  · rintro ⟨row, present, chosen⟩
    exact ⟨(id, row), List.mem_filter.mpr ⟨Table.get?_eq_some_iff.mp present,
      decide_eq_true chosen⟩, rfl⟩

omit [CaseMapping] in
theorem decayPruneTargets_nodup : (db.decayPruneTargets config now).Nodup :=
  db.observations.distinct.sublist (List.filter_sublist.map Prod.fst)

theorem mem_consolidationTargets : id ∈ db.consolidationTargets config now ↔
    id ∈ db.duplicates config ∨ id ∈ db.decayPruneTargets config now := by
  unfold consolidationTargets
  rw [List.mem_insertionSort, List.mem_dedup, List.mem_append]
  exact Iff.rfl

theorem consolidationTargets_nodup : (db.consolidationTargets config now).Nodup :=
  (List.perm_insertionSort _ _).nodup_iff.mpr (List.nodup_dedup _)

theorem live_of_target (target : id ∈ db.consolidationTargets config now) :
    ∃ row, db.observations.get? id = some row ∧ row.tombstoned = false := by
  rcases mem_consolidationTargets.mp target with duplicate | faded
  · exact live_of_duplicate duplicate
  · obtain ⟨row, present, live, -⟩ := mem_decayPruneTargets.mp faded
    exact ⟨row, present, live⟩

theorem filter_targets (aligned : db.Aligned) :
    (db.consolidationTargets config now).filter db.isActive = db.consolidationTargets config now := by
  refine List.filter_eq_self.mpr fun id target => ?_
  obtain ⟨row, present, live⟩ := live_of_target target
  exact isActive_iff.mpr ⟨row, present, aligned id row present live⟩

end Targets

/-! ## Consolidating -/

section Consolidation

variable [ScoreArithmetic] [CaseMapping] [Blake3] [PayloadCodec] [EntityMatching]
  {config : ConsolidateConfig} {now : Int64} {retirement sweep : Draws} {key : ChangeSetId}
  {report : ConsolidateReport}

/-- The accesses that survivors take over. -/
def rollups (db : Database) (config : ConsolidateConfig) : List (String × UInt32) :=
  (db.dedupGroups config).map fun group => (group.survivor, group.loserAccesses)

/-- What a consolidation leaves of the rows: it retires some of its targets, which were
active, counts accesses, and prunes. -/
theorem consolidate_rows
    (consolidated : db.consolidate now retirement key sweep config = .ok (db', report)) :
    ∃ middle retired, Retires db retired middle ∧
      (∀ id ∈ retired, id ∈ db.consolidationTargets config now ∧ db.isActive id = true) ∧
      db'.observations = (middle.observations.map fun id row =>
        { row with accessCount := row.accessCount + bonus (db.rollups config) id }).filter
          (fun _ row => !stale (sweep.now - max 0 defaultTombstoneTtlSecs) row) := by
  unfold consolidate at consolidated
  obtain ⟨⟨middle, count⟩, done, finished⟩ := bind_eq_ok.mp consolidated
  cases finished
  obtain ⟨retired, retires, active⟩ := retireObservationsForMaintenance_retires done
  refine ⟨middle, retired, retires, active, ?_⟩
  rw [pruneWithTtl_rows, addAccesses_rows]
  rfl

/-- **A consolidation** retires, counts, and prunes. -/
theorem consolidate_eq_ok (aligned : db.Aligned) (new : db.DrawsNewKey retirement key)
    (consolidated : db.consolidate now retirement key sweep config = .ok (db', report)) :
    ∃ middle, Retires db (db.consolidationTargets config now) middle ∧
      db'.observations = (middle.observations.map fun id row =>
        { row with accessCount := row.accessCount + bonus (db.rollups config) id }).filter
          (fun _ row => !stale (sweep.now - max 0 defaultTombstoneTtlSecs) row) ∧
      report.duplicatesMerged = (db.duplicates config).length ∧
      report.observationsPruned = (db.decayPruneTargets config now).length := by
  unfold consolidate at consolidated
  obtain ⟨⟨middle, count⟩, retired, finished⟩ := bind_eq_ok.mp consolidated
  cases finished
  have retires := (retireObservationsForMaintenance_eq_ok new retired).2
  rw [filter_targets aligned] at retires
  refine ⟨middle, retires, ?_, rfl, rfl⟩
  rw [pruneWithTtl_rows, addAccesses_rows]
  rfl

end Consolidation

end Database

end OpenMemory.Graph
