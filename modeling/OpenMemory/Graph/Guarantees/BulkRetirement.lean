import OpenMemory.Graph.Consolidation
import OpenMemory.Graph.Guarantees.AuditBounds

/-!
# Retiring many observations at once

Forgetting an entity and consolidating put every observation they retire into one
change set, which is bounded. Both succeed, apart from errors of SQLite, exactly
when their targets fit one change set; what they retire is then all of them.
-/

namespace OpenMemory.Graph

open Foundation
open Merge (Blake3)

variable {entityId : String}

namespace Database

/-- Observations whose retirements one change set can hold. -/
structure RetirementsFit [PayloadCodec] (db : Database) (ids : List String) : Prop where
  count : ids.length ≤ maxOperationCount
  payload : (payloadText (ids.filterMap db.retirementOf)).utf8ByteSize ≤ defaultMaxPayloadBytes
  ids : ∀ id ∈ ids, blank id = false ∧ Fits id maxTextBytes

/-- The row is gone from sight: retired, or deleted since. -/
def Gone (db : Database) (id : String) : Prop :=
  ∀ row, db.observations.get? id = some row → row.tombstoned = true ∧ row.lifecycle = .retired

section Retirements

variable {db db' : Database} {draws : Draws} {key : ChangeSetId} {ids : List String}
  {id reason : String}

/-! ## Drafts of retirements -/

theorem retirementsFit_nil [PayloadCodec] : db.RetirementsFit [] where
  count := by decide
  payload := by
    change ("[" ++ "" ++ "]").utf8ByteSize ≤ defaultMaxPayloadBytes
    decide
  ids _ member := absurd member List.not_mem_nil

theorem checkOperations_retirements (distinct : ids.Nodup)
    (active : ∀ id ∈ ids, db.isActive id = true) :
    checkOperations [] (ids.filterMap db.retirementOf) = .ok () ↔
      ∀ id ∈ ids, blank id = false ∧ Fits id maxTextBytes := by
  have logical : (ids.filterMap db.retirementOf).map ChangeOperation.logicalId = ids := by
    rw [map_logicalId_retirements, List.filter_eq_self.mpr active]
  have shape : ∀ operation ∈ ids.filterMap db.retirementOf,
      ∃ id ∈ ids, ∃ version, operation = .retireObservation id version := by
    intro operation member
    obtain ⟨id, among, found⟩ := List.mem_filterMap.mp member
    obtain ⟨row, present, state⟩ := isActive_iff.mp (active id among)
    rw [retirementOf_of_active present state] at found
    cases found
    exact ⟨id, among, _, rfl⟩
  have heads : (ids.filterMap db.retirementOf).map
      (fun operation => (operation.objectKind, operation.logicalId)) =
        ids.map fun id => (ObjectKind.observation, id) := by
    rw [← logical, List.map_map, logical]
    refine List.map_congr_left fun operation member => ?_
    obtain ⟨id, _, version, rfl⟩ := shape operation member
    rfl
  have apart : Function.Injective fun id : String => (ObjectKind.observation, id) :=
    fun left right same => (Prod.mk.inj same).2
  rw [checkOperations_eq_ok, heads, List.nodup_map_iff apart]
  constructor
  · rintro ⟨valid, -, -⟩ id member
    obtain ⟨row, present, state⟩ := isActive_iff.mp (active id member)
    have good := valid _ (List.mem_filterMap.mpr ⟨id, member, retirementOf_of_active present state⟩)
    have checked := checkText_eq_ok.mp good
    exact ⟨checked.1.resolve_left (by decide), checked.2⟩
  · intro fits
    refine ⟨fun operation member => ?_, distinct, fun _ _ => List.not_mem_nil⟩
    obtain ⟨id, among, version, rfl⟩ := shape operation member
    exact checkText_eq_ok.mpr ⟨.inr (fits id among).1, (fits id among).2⟩

theorem maintenanceDraft_key [Blake3] {spaceId : SpaceId} {operations : List ChangeOperation} :
    (maintenanceDraft key spaceId reason operations).idempotencyKey ≠ "" ∧
      (maintenanceDraft key spaceId reason operations).idempotencyKey.utf8ByteSize ≤
        maxIdempotencyBytes := by
  have size : (maintenanceDraft key spaceId reason operations).idempotencyKey.utf8ByteSize =
      55 := by
    change ("maintenance-retire:" ++ key.toText).utf8ByteSize = 55
    rw [String.utf8ByteSize_append, key.toText_utf8ByteSize]
    decide
  refine ⟨fun empty => ?_, by rw [size]; decide⟩
  rw [empty] at size
  cases size

theorem validateDraft_maintenance [Blake3] [PayloadCodec] {spaceId : SpaceId}
    {operations : List ChangeOperation} (reasoned : DraftTextFits reason) :
    validateDraft (maintenanceDraft key spaceId reason operations) = .ok () ↔
      CountsFit operations ∧ checkOperations [] operations = .ok () := by
  have named : DraftTextFits "maintenance" := by decide
  rw [validateDraft_eq_ok]
  constructor
  · rintro ⟨-, -, counts, valid⟩
    exact ⟨counts, valid⟩
  · rintro ⟨counts, valid⟩
    exact ⟨maintenanceDraft_key, ⟨named, reasoned, named⟩, counts, valid⟩

/-! ## Maintenance retirements -/

section Maintenance

variable [Blake3] [PayloadCodec] [EntityMatching]

/-- **A maintenance retirement** succeeds, unless SQLite lets it down, when the active
observations among its targets fit one change set. -/
theorem retireObservationsForMaintenance_succeeds (columns : db.InColumns)
    (new : db.DrawsNewKey draws key) (distinct : ids.Nodup) (reasoned : DraftTextFits reason)
    (undisturbed : Undisturbed (db.retireObservationsForMaintenance draws key ids reason)) :
    (∃ result, db.retireObservationsForMaintenance draws key ids reason = .ok result) ↔
      db.RetirementsFit (ids.filter db.isActive) := by
  have active : ∀ id ∈ ids.filter db.isActive, db.isActive id = true :=
    fun id member => (List.mem_filter.mp member).2
  have checked := checkOperations_retirements (distinct.filter db.isActive) active
  have lengths : ((ids.filter db.isActive).filterMap db.retirementOf).length =
      (ids.filter db.isActive).length := by
    rw [← filterMap_retirementOf, ← map_logicalId_retirements, List.length_map]
  unfold retireObservationsForMaintenance at undisturbed ⊢
  rw [filterMap_retirementOf] at undisturbed ⊢
  dsimp only at undisturbed ⊢
  split at undisturbed
  · rename_i none
    rw [if_pos none]
    rw [none] at lengths
    rw [List.length_eq_zero_iff.mp lengths.symm]
    exact ⟨fun _ => retirementsFit_nil, fun _ => ⟨_, rfl⟩⟩
  · rename_i some
    rw [if_neg some]
    have valid := @validateDraft_maintenance key reason _ _ (db.compatibilitySpaceId draws).2
      ((ids.filter db.isActive).filterMap db.retirementOf) reasoned
    constructor
    · rintro ⟨result, done⟩
      obtain ⟨⟨last, submission⟩, submitted, _⟩ := bind_eq_ok.mp done
      obtain ⟨counts, operations⟩ := valid.mp (submitChangeset_eq_ok submitted).1
      exact ⟨lengths.symm.trans_le counts.count, counts.payload, checked.mp operations⟩
    · intro fits
      have drafted := valid.mpr ⟨⟨some, lengths.trans_le fits.count, fits.payload⟩,
        checked.mpr fits.ids⟩
      have rest := @compatibilitySpaceId_rest db draws
      have submits : FailsWith MemoryError.IsSqlite ((db.compatibilitySpaceId draws).1.submitChangeset
          draws (maintenanceDraft key (db.compatibilitySpaceId draws).2 reason
            ((ids.filter db.isActive).filterMap db.retirementOf)) .applyImmediately) := by
        refine failsWith_submitChangeset drafted compatibilitySpaceId_bound
          (by rw [rest]; exact new) fun stored same => ?_
        refine failsWith_applyRetirements columns (distinct.filter _) fun id _ => ?_
        rw [same, rest]
      obtain ⟨⟨last, submission⟩, submitted⟩ := submits.succeeds undisturbed.first
      exact ⟨_, bind_eq_ok.mpr ⟨_, submitted, rfl⟩⟩

/-- More targets than one change set holds are refused, and none is retired. -/
theorem retireObservationsForMaintenance_refused (reasoned : DraftTextFits reason)
    (many : maxOperationCount < (ids.filter db.isActive).length) :
    db.retireObservationsForMaintenance draws key ids reason =
      .error (.invalidInput "changeset operation count exceeds 1..=256") := by
  have lengths : (ids.filterMap db.retirementOf).length = (ids.filter db.isActive).length := by
    rw [← map_logicalId_retirements, List.length_map]
  have some : ids.filterMap db.retirementOf ≠ [] := by
    intro none
    rw [none] at lengths
    rw [← lengths] at many
    cases many
  have text : ∀ value, DraftTextFits value →
      ¬ (value = "" ∨ boundedTextRefused value = true) := by
    rintro value ⟨full, good⟩ (empty | bad)
    · exact full empty
    · rw [good] at bad
      cases bad
  have named : DraftTextFits "maintenance" := by decide
  have refused : validateDraft (maintenanceDraft key (db.compatibilitySpaceId draws).2 reason
      (ids.filterMap db.retirementOf)) =
        .error (.invalidInput "changeset operation count exceeds 1..=256") := by
    unfold validateDraft
    rw [refuseIf_neg, forM_eq_ok.mpr, refuseIf_pos]
    · rfl
    · exact .inr (lengths.symm ▸ many)
    · exact List.forall_mem_cons.mpr ⟨refuseIf_neg (text _ named), List.forall_mem_cons.mpr
        ⟨refuseIf_neg (text _ reasoned), List.forall_mem_singleton.mpr
          (refuseIf_neg (text _ named))⟩⟩
    · rintro (empty | long)
      · exact maintenanceDraft_key.1 empty
      · exact absurd maintenanceDraft_key.2 (not_le.mpr long)
  unfold retireObservationsForMaintenance
  dsimp only
  rw [if_neg some]
  unfold submitChangeset
  rw [refused]
  rfl

section

omit [Blake3] [PayloadCodec] [EntityMatching]

theorem mem_activeObservations : id ∈ db.activeObservations entityId ↔
    ∃ row, db.observations.get? id = some row ∧ row.semantic.entityId = entityId ∧
      row.lifecycle = .active := by
  unfold activeObservations
  rw [List.mem_insertionSort, List.mem_map]
  constructor
  · rintro ⟨⟨id, row⟩, member, rfl⟩
    obtain ⟨held, chosen⟩ := List.mem_filter.mp member
    rw [decide_eq_true_eq] at chosen
    exact ⟨row, Table.get?_eq_some_iff.mpr held, chosen⟩
  · rintro ⟨row, present, chosen⟩
    exact ⟨(id, row), List.mem_filter.mpr ⟨Table.get?_eq_some_iff.mp present,
      decide_eq_true chosen⟩, rfl⟩

theorem activeObservations_nodup : (db.activeObservations entityId).Nodup :=
  (List.perm_insertionSort _ _).nodup_iff.mpr
    (db.observations.distinct.sublist (List.filter_sublist.map Prod.fst))

theorem filter_activeObservations :
    (db.activeObservations entityId).filter db.isActive = db.activeObservations entityId := by
  refine List.filter_eq_self.mpr fun id member => ?_
  obtain ⟨row, present, -, active⟩ := mem_activeObservations.mp member
  exact isActive_iff.mpr ⟨row, present, active⟩

end

theorem retireEntityObservationsById_of_known
    (known : db.entities.get? entityId ≠ none) (full : blank entityId = false) :
    db.retireEntityObservationsById draws key entityId =
      db.retireObservationsForMaintenance draws key (db.activeObservations entityId)
        "compatibility entity forget" := by
  unfold retireEntityObservationsById
  rw [refuseIf_neg (by rw [full]; decide), refuseIf_neg known]
  rfl

/-- **Forgetting an entity** retires all that is active about it, exactly when the
entity has a proper id and its active observations fit one change set. -/
theorem retireEntityObservationsById_total (columns : db.InColumns)
    (new : db.DrawsNewKey draws key) (known : db.entities.get? entityId ≠ none)
    (undisturbed : Undisturbed (db.retireEntityObservationsById draws key entityId)) :
    (∃ db' count, db.retireEntityObservationsById draws key entityId = .ok (db', count) ∧
        ∀ id ∈ db.activeObservations entityId, db'.Gone id) ↔
      blank entityId = false ∧ db.RetirementsFit (db.activeObservations entityId) := by
  have reasoned : DraftTextFits "compatibility entity forget" := by decide
  constructor
  · rintro ⟨db', count, done, -⟩
    obtain ⟨_, full, _⟩ := bind_eq_ok.mp done
    rw [refuseIf_eq_ok, Bool.not_eq_true] at full
    rw [retireEntityObservationsById_of_known known full] at done undisturbed
    have fits := (retireObservationsForMaintenance_succeeds columns new activeObservations_nodup
      reasoned undisturbed).mp ⟨_, done⟩
    rw [filter_activeObservations] at fits
    exact ⟨full, fits⟩
  · rintro ⟨full, fits⟩
    rw [retireEntityObservationsById_of_known known full] at undisturbed ⊢
    obtain ⟨⟨db', count⟩, done⟩ := (retireObservationsForMaintenance_succeeds columns new
      activeObservations_nodup reasoned undisturbed).mpr (filter_activeObservations.symm ▸ fits)
    refine ⟨db', count, done, fun id member row present => ?_⟩
    obtain ⟨old, held, -, -⟩ := mem_activeObservations.mp member
    have retires := (retireObservationsForMaintenance_eq_ok new done).2
    rw [filter_activeObservations] at retires
    obtain ⟨next, now, retired⟩ := retires.retired member held
    cases present.symm.trans now
    exact ⟨retired.tombstoned, retired.lifecycle⟩

/-- **A consolidation** retires all its targets, exactly when they fit one change set. -/
theorem consolidate_total [ScoreArithmetic] [CaseMapping] {now : Int64} {sweep : Draws}
    {config : ConsolidateConfig} (aligned : db.Aligned) (columns : db.InColumns)
    (new : db.DrawsNewKey draws key)
    (undisturbed : Undisturbed (db.consolidate now draws key sweep config)) :
    (∃ db' report, db.consolidate now draws key sweep config = .ok (db', report) ∧
        ∀ id ∈ db.consolidationTargets config now, db'.Gone id) ↔
      db.RetirementsFit (db.consolidationTargets config now) := by
  have reasoned : DraftTextFits "consolidation deduplication and decay retirement" := by decide
  have succeeds := retireObservationsForMaintenance_succeeds columns new
    (@consolidationTargets_nodup db _ _ config now) reasoned undisturbed.first
  rw [filter_targets aligned] at succeeds
  rw [← succeeds]
  constructor
  · rintro ⟨db', report, done, -⟩
    obtain ⟨result, retired, -⟩ := bind_eq_ok.mp done
    exact ⟨result, retired⟩
  · rintro ⟨result, retired⟩
    obtain ⟨⟨db', report⟩, done⟩ : ∃ result, db.consolidate now draws key sweep config =
      .ok result := ⟨_, bind_eq_ok.mpr ⟨result, retired, rfl⟩⟩
    refine ⟨db', report, done, fun id target row present => ?_⟩
    obtain ⟨middle, retires, rows, -⟩ := consolidate_eq_ok aligned new done
    obtain ⟨old, held, -⟩ := live_of_target target
    obtain ⟨next, now, gone⟩ := retires.retired target held
    rw [rows, Table.get?_filter, Table.get?_map, now] at present
    obtain ⟨kept, -⟩ := Option.filter_eq_some_iff.mp present
    cases kept
    exact ⟨gone.tombstoned, gone.lifecycle⟩

/-- **Bulk retirement.** In a reachable store, forgetting a known entity and
consolidating succeed and retire all their targets, unless SQLite lets them down,
exactly when the targets fit one change set. -/
theorem bulk_retirement_total [ScoreArithmetic] [CaseMapping] (db : Database) (draws : Draws)
    (key : ChangeSetId) (reachable : Reachable db) (columns : db.InColumns)
    (new : db.DrawsNewKey draws key) :
    (∀ entityId, db.entities.get? entityId ≠ none →
      Undisturbed (db.retireEntityObservationsById draws key entityId) →
      ((∃ db' count, db.retireEntityObservationsById draws key entityId = .ok (db', count) ∧
          ∀ id ∈ db.activeObservations entityId, db'.Gone id) ↔
        blank entityId = false ∧ db.RetirementsFit (db.activeObservations entityId))) ∧
    ∀ now sweep config, Undisturbed (db.consolidate now draws key sweep config) →
      ((∃ db' report, db.consolidate now draws key sweep config = .ok (db', report) ∧
          ∀ id ∈ db.consolidationTargets config now, db'.Gone id) ↔
        db.RetirementsFit (db.consolidationTargets config now)) :=
  ⟨fun _ => retireEntityObservationsById_total columns new,
    fun _ _ _ => consolidate_total reachable.aligned columns new⟩

end Maintenance

end Retirements

/-! ## A crowd of observations -/

namespace BulkRetirement

open AuditBounds

/-- The text of so many letters, and one. -/
def letters (n : Nat) : String := String.ofList (List.replicate (n + 1) 'o')

theorem letters_injective : Function.Injective letters := by
  intro left right same
  have lengths := congrArg (fun text : String => text.toList.length) same
  simpa [letters] using lengths

/-- An observation about alice. -/
def fact : ObservationRow where
  semantic :=
    { entityId := "alice", content := "likes tea", observedAt := 0, validFrom := none
      validUntil := none, confidence := .one, source := "", memoryTier := .episodic
      title := none, summary := none, importance := none, sourceKind := none, concepts := []
      sourceFiles := [] }
  tombstoned := false
  accessCount := 0
  currentRevisionId := none
  rowVersion := 1
  lifecycle := .active

/-- A store of an earlier version with so many observations about alice. -/
def crowd (size : Nat) : Database :=
  { initial with
    entities := Table.empty.put "alice" ⟨"alice", .person, 0, 0, .one, ""⟩
    observations :=
      { entries := (List.range size).map fun n => (letters n, fact)
        distinct := by
          rw [List.map_map]
          exact List.nodup_range.map letters_injective } }

theorem crowd_rows {size : Nat} {id : String} {row : ObservationRow}
    (present : (crowd size).observations.get? id = some row) : row = fact := by
  obtain ⟨n, _, same⟩ := List.mem_map.mp (Table.get?_eq_some_iff.mp present)
  cases same
  rfl

theorem crowd_migrated (size : Nat) : Migrated (crowd size) :=
  ⟨fun _ _ present => crowd_rows present ▸ ⟨rfl, rfl, rfl⟩, rfl, rfl, rfl, rfl, rfl, rfl, rfl, rfl⟩

theorem crowd_inColumns (size : Nat) : (crowd size).InColumns := by
  intro id row present
  rw [crowd_rows present]
  decide

theorem crowd_active (size : Nat) :
    ((crowd size).activeObservations "alice").length = size := by
  unfold activeObservations
  rw [List.length_insertionSort, List.length_map, List.filter_eq_self.mpr]
  · exact (List.length_map _).trans List.length_range
  · intro entry member
    obtain ⟨n, _, rfl⟩ := List.mem_map.mp member
    exact decide_eq_true ⟨rfl, rfl⟩

theorem crowd_known (size : Nat) : (crowd size).entities.get? "alice" ≠ none := by
  intro unknown
  change (Table.empty.put "alice" _).get? "alice" = none at unknown
  rw [Table.get?_put, if_pos rfl] at unknown
  cases unknown

/-- Similarity and scores of a store in which nothing decays. -/
scoped instance lasting : ScoreArithmetic where
  ratio _ _ := .one
  decayScore _ _ _ _ _ _ := .one

end BulkRetirement

open Merge.Fixture AuditBounds BulkRetirement in
/-- Two observations are forgotten. -/
theorem pair_retired : ∃ db' count,
    (crowd 2).retireEntityObservationsById draws draws.confirmation "alice" = .ok (db', count) ∧
      ∀ id ∈ (crowd 2).activeObservations "alice", db'.Gone id := by
  have accepted : ((crowd 2).retireEntityObservationsById draws draws.confirmation
      "alice").toOption.isSome = true := by decide
  have undisturbed : Undisturbed ((crowd 2).retireEntityObservationsById draws
      draws.confirmation "alice") := by
    intro error failed
    rw [failed] at accepted
    cases accepted
  refine ((bulk_retirement_total (crowd 2) draws draws.confirmation (crowd_migrated 2).reachable
    (crowd_inColumns 2) rfl).1 "alice" (crowd_known 2) undisturbed).mpr ⟨by decide, ?_⟩
  exact {
    count := by decide
    payload := by decide
    ids := by
      intro id member
      obtain ⟨row, present, -, -⟩ := mem_activeObservations.mp member
      obtain ⟨n, within, same⟩ := List.mem_map.mp (Table.get?_eq_some_iff.mp present)
      cases same
      have few : n = 0 ∨ n = 1 := by
        rw [List.mem_range] at within
        omega
      rcases few with rfl | rfl
      · exact ⟨by decide, by decide, by decide⟩
      · exact ⟨by decide, by decide, by decide⟩ }

open Merge.Fixture AuditBounds BulkRetirement in
/-- Of a known entity with two hundred and fifty-seven active observations none is
retired. -/
theorem crowd_not_retired :
    ¬ ∀ (db : Database) (draws : Draws) (key : ChangeSetId) (entityId : String),
      Reachable db → db.InColumns → db.DrawsNewKey draws key →
      db.entities.get? entityId ≠ none → blank entityId = false →
      Undisturbed (db.retireEntityObservationsById draws key entityId) →
        ∃ db' count, db.retireEntityObservationsById draws key entityId = .ok (db', count) ∧
          ∀ id ∈ db.activeObservations entityId, db'.Gone id := by
  intro total
  have many : maxOperationCount < (((crowd 257).activeObservations "alice").filter
      (crowd 257).isActive).length := by
    rw [filter_activeObservations, crowd_active]
    decide
  have refused : (crowd 257).retireEntityObservationsById draws draws.confirmation "alice" =
      .error (.invalidInput "changeset operation count exceeds 1..=256") := by
    rw [retireEntityObservationsById_of_known (crowd_known 257) (by decide)]
    exact retireObservationsForMaintenance_refused (by decide) many
  have undisturbed : Undisturbed ((crowd 257).retireEntityObservationsById draws
      draws.confirmation "alice") := by
    intro error failed
    cases refused.symm.trans failed
    exact id
  obtain ⟨db', count, done, -⟩ := total (crowd 257) draws draws.confirmation "alice"
    (crowd_migrated 257).reachable (crowd_inColumns 257) rfl (crowd_known 257) (by decide) undisturbed
  cases refused.symm.trans done

end Database

end OpenMemory.Graph
