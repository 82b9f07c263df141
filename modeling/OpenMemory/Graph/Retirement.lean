import OpenMemory.Graph.Maintenance
import OpenMemory.Graph.Bounds

/-!
# Retiring observations

A change set of retirements leaves every row as it was, except that the rows it
names are deleted from sight and have a new head. Apart from errors of SQLite, it
is refused only where the draft is: each row was read in the same call, so it is in
the version that the retirement expects.
-/

namespace OpenMemory.Graph

open Foundation
open Merge (Blake3)

/-! ## What retiring leaves -/

/-- A row after its retirement. -/
structure RetiredFrom (row next : ObservationRow) : Prop where
  semantic : next.semantic = row.semantic
  accesses : next.accessCount = row.accessCount
  tombstoned : next.tombstoned = true
  lifecycle : next.lifecycle = .retired

namespace Database

/-- The observations under these ids, and no others, are retired. -/
structure Retires (db : Database) (ids : List String) (db' : Database) : Prop where
  rows : ∃ change : String → ObservationRow → ObservationRow,
    db'.observations = db.observations.map change ∧
      (∀ id ∈ ids, ∀ row, RetiredFrom row (change id row)) ∧
      ∀ id, id ∉ ids → ∀ row, change id row = row
  entities : db'.entities = db.entities
  relations : db'.relations = db.relations

variable {db db' db'' origin : Database} {draws : Draws} {changesetId : ChangeSetId}
  {generation ordinal : Nat} {id : String} {ids more : List String} {version : UInt64}
  {row : ObservationRow}

theorem Retires.refl (db : Database) : Retires db [] db where
  rows := ⟨fun _ row => row, Table.map_id.symm, fun _ member => absurd member List.not_mem_nil,
    fun _ _ _ => rfl⟩
  entities := rfl
  relations := rfl

theorem Retires.trans (first : Retires db ids db') (second : Retires db' more db'') :
    Retires db (ids ++ more) db'' where
  rows := by
    obtain ⟨change, changed, retired, kept⟩ := first.rows
    obtain ⟨next, nexted, retiring, keeping⟩ := second.rows
    refine ⟨fun id row => next id (change id row), ?_, fun id member row => ?_,
      fun id absent row => ?_⟩
    · rw [nexted, changed, Table.map_map]
    · by_cases early : id ∈ ids
      · by_cases late : id ∈ more
        · have one := retired id early row
          have two := retiring id late (change id row)
          exact ⟨two.semantic.trans one.semantic, two.accesses.trans one.accesses, two.tombstoned,
            two.lifecycle⟩
        · dsimp only
          rw [keeping id late]
          exact retired id early row
      · dsimp only
        rw [kept id early]
        exact retiring id ((List.mem_append.mp member).resolve_left early) row
    · rw [List.mem_append, not_or] at absent
      dsimp only
      rw [kept id absent.1, keeping id absent.2]
  entities := second.entities.trans first.entities
  relations := second.relations.trans first.relations

/-- The rows of others stay as they are. -/
theorem Retires.kept (retires : Retires db ids db') (absent : id ∉ ids) :
    db'.observations.get? id = db.observations.get? id := by
  obtain ⟨change, changed, -, kept⟩ := retires.rows
  rw [changed, Table.get?_map]
  cases db.observations.get? id with
  | none => rfl
  | some row => rw [Option.map_some, kept id absent]

theorem Retires.retired (retires : Retires db ids db') (member : id ∈ ids)
    (present : db.observations.get? id = some row) :
    ∃ next, db'.observations.get? id = some next ∧ RetiredFrom row next := by
  obtain ⟨change, changed, retired, -⟩ := retires.rows
  refine ⟨change id row, ?_, retired id member row⟩
  rw [changed, Table.get?_map, present]
  rfl

/-! ## One retirement -/

theorem recordRevision_rows {parent : Option String} {operation : OutboxOperation}
    {eventType : String}
    (recorded : db.recordRevision draws changesetId generation ordinal id parent version operation
      eventType = .ok db') :
    db'.observations = (db.advanceHead id (draws.revision ordinal 0) version).observations ∧
      db'.entities = db.entities ∧ db'.relations = db.relations := by
  obtain ⟨_, _, recorded⟩ := bind_eq_ok.mp recorded
  obtain ⟨_, first, recorded⟩ := bind_eq_ok.mp recorded
  obtain ⟨_, second, noted⟩ := bind_eq_ok.mp recorded
  obtain ⟨_, _, rfl⟩ := insertRevision_eq_ok first
  obtain ⟨_, _, rfl⟩ := insertOutbox_eq_ok second
  rw [insertOperationEvent_eventsOnly noted]
  exact ⟨rfl, rfl, rfl⟩

theorem applyLifecycle_retires
    (applied : db.applyLifecycle draws changesetId generation ordinal id version true = .ok db') :
    Retires db [id] db' := by
  obtain ⟨_, _, applied⟩ := bind_eq_ok.mp applied
  obtain ⟨_, _, recorded⟩ := bind_eq_ok.mp applied
  obtain ⟨rows, entities, relations⟩ := recordRevision_rows recorded
  have mapped : db'.observations = (db.observations.map fun held row =>
      if held = id then { row with tombstoned := true, lifecycle := .retired } else row).map
        fun held row => if held = id then
          if row.rowVersion = version.toNat then
            { row with
              currentRevisionId := some (draws.revision ordinal 0).toText
              rowVersion := row.rowVersion + 1 }
          else row
        else row := rows
  rw [Table.map_map] at mapped
  refine ⟨⟨_, mapped, fun held member row => ?_, fun held absent row => ?_⟩, entities, relations⟩
  · rw [List.mem_singleton.mp member]
    rw [if_pos rfl, if_pos rfl]
    split <;> exact ⟨rfl, rfl, rfl, rfl⟩
  · have other : held ≠ id := fun same => absent (List.mem_singleton.mpr same)
    rw [if_neg other, if_neg other]

/-! ## A list of retirements -/

/-- The version of every row fits its column. -/
def InColumns (db : Database) : Prop :=
  ∀ id row, db.observations.get? id = some row → row.rowVersion < 2 ^ 63

/-- There is an observation under the id, and its lifecycle is active. -/
def isActive (db : Database) (id : String) : Bool :=
  (db.observations.get? id).any fun row => row.lifecycle = .active

theorem isActive_iff : db.isActive id = true ↔
    ∃ row, db.observations.get? id = some row ∧ row.lifecycle = .active := by
  unfold isActive
  rw [Option.any_eq_true]
  simp only [decide_eq_true_eq]

theorem retirementOf_of_active (present : db.observations.get? id = some row)
    (active : row.lifecycle = .active) :
    db.retirementOf id = some (.retireObservation id (UInt64.ofNat row.rowVersion)) := by
  unfold retirementOf
  rw [present, Option.bind_some, if_pos active]

theorem retirementOf_of_inactive (inactive : db.isActive id = false) : db.retirementOf id = none := by
  unfold retirementOf
  cases present : db.observations.get? id with
  | none => rfl
  | some row =>
    rw [Option.bind_some]
    refine if_neg fun active => ?_
    rw [isActive_iff.mpr ⟨row, present, active⟩] at inactive
    cases inactive

/-- The operations are one for each active observation. -/
theorem filterMap_retirementOf (ids : List String) :
    ids.filterMap db.retirementOf = (ids.filter db.isActive).filterMap db.retirementOf := by
  rw [List.filterMap_filter]
  refine List.filterMap_congr fun id _ => ?_
  cases active : db.isActive id with
  | true => rfl
  | false => exact retirementOf_of_inactive active

theorem map_logicalId_retirements (ids : List String) :
    (ids.filterMap db.retirementOf).map ChangeOperation.logicalId = ids.filter db.isActive := by
  induction ids with
  | nil => rfl
  | cons id rest ih =>
    cases active : db.isActive id with
    | true =>
      obtain ⟨row, present, state⟩ := isActive_iff.mp active
      rw [List.filterMap_cons_some (retirementOf_of_active present state), List.map_cons, ih,
        List.filter_cons_of_pos active]
      rfl
    | false =>
      rw [List.filterMap_cons_none (retirementOf_of_inactive active), ih,
        List.filter_cons_of_neg (by rw [active]; decide)]

section Lists

variable [EntityMatching]

/-- The retirements of different observations, read off a database whose rows of them
are still the same, are all possible. -/
theorem failsWith_applyRetirements (columns : origin.InColumns) (distinct : ids.Nodup)
    (agree : ∀ id ∈ ids, db.observations.get? id = origin.observations.get? id) :
    FailsWith MemoryError.IsSqlite (applyOperations draws changesetId generation db ordinal
      (ids.filterMap origin.retirementOf)) := by
  induction ids generalizing db ordinal with
  | nil => trivial
  | cons id rest ih =>
    obtain ⟨absent, distinct⟩ := List.nodup_cons.mp distinct
    have later : ∀ other ∈ rest, db.observations.get? other = origin.observations.get? other :=
      (List.forall_mem_cons.mp agree).2
    cases active : origin.isActive id with
    | false =>
      rw [List.filterMap_cons_none (retirementOf_of_inactive active)]
      exact ih distinct later
    | true =>
      obtain ⟨row, present, state⟩ := isActive_iff.mp active
      rw [List.filterMap_cons_some (retirementOf_of_active present state)]
      have here := (agree id List.mem_cons_self).trans present
      have expected : row.rowVersion = (UInt64.ofNat row.rowVersion).toNat := by
        rw [UInt64.toNat_ofNat']
        exact (Nat.mod_eq_of_lt (by have := columns id row present; omega)).symm
      refine failsWith_bind (failsWith_applyLifecycle here expected state) fun next applied => ?_
      refine ih distinct fun other member => ?_
      rw [(applyLifecycle_retires applied).kept fun same => absent ?_]
      · exact later other member
      · rw [← List.mem_singleton.mp same]
        exact member

theorem applyRetirements_retires (agree : ∀ id ∈ ids, origin.isActive id = true)
    (applied : applyOperations draws changesetId generation db ordinal
      (ids.filterMap origin.retirementOf) = .ok db') : Retires db ids db' := by
  induction ids generalizing db ordinal with
  | nil =>
    cases applied
    exact .refl _
  | cons id rest ih =>
    obtain ⟨row, present, state⟩ := isActive_iff.mp (agree id List.mem_cons_self)
    rw [List.filterMap_cons_some (retirementOf_of_active present state)] at applied
    obtain ⟨next, first, others⟩ := bind_eq_ok.mp applied
    exact (applyLifecycle_retires first).trans (ih (List.forall_mem_cons.mp agree).2 others)

end Lists

/-! ## The maintenance of a store -/

section Maintenance

variable [Blake3] [PayloadCodec] [EntityMatching] {key : ChangeSetId} {reason : String}
  {count : Nat}

omit [Blake3] [PayloadCodec] [EntityMatching] in
theorem compatibilitySpaceId_bound :
    (db.compatibilitySpaceId draws).1.spaceId = some (db.compatibilitySpaceId draws).2 := by
  unfold compatibilitySpaceId
  cases bound : db.spaceId with
  | none => rfl
  | some existing => exact bound

omit [Blake3] [PayloadCodec] [EntityMatching] in
theorem compatibilitySpaceId_rest :
    (db.compatibilitySpaceId draws).1 =
      { db with spaceId := (db.compatibilitySpaceId draws).1.spaceId } := by
  unfold compatibilitySpaceId
  cases bound : db.spaceId with
  | none => rfl
  | some existing => rfl

/-- No change set of the space that a compatibility call writes to is under a key. -/
def Unused (db : Database) (draws : Draws) (idempotencyKey : String) : Prop :=
  db.changeSetUnder (db.compatibilitySpaceId draws).2 idempotencyKey = none

/-- The key that is drawn for a retirement is a new one. -/
abbrev DrawsNewKey (db : Database) (draws : Draws) (key : ChangeSetId) : Prop :=
  db.Unused draws ("maintenance-retire:" ++ key.toText)

/-- A submission under a key that is not used stores a change set. -/
theorem submit_stores {draft : ChangeSetDraft} {submission : Submission}
    (unused : db.changeSetUnder draft.spaceId draft.idempotencyKey = none)
    (submitted : db.submitChangeset draws draft .applyImmediately = .ok (db', submission)) :
    Stores db draws draft .applyImmediately db' := by
  obtain ⟨_, _, _, ⟨id, row, found, _⟩ | ⟨_, stores, _⟩⟩ := submitChangeset_eq_ok submitted
  · rw [unused] at found
    cases found
  · exact stores

/-- A submission under a key that is used finds the change set of an equal request, or is
refused. -/
theorem submitChangeset_of_used {draft : ChangeSetDraft} {held : ChangeSetId} {under : ChangeSet}
    (valid : validateDraft draft = .ok ()) (bound : db.spaceId = some draft.spaceId)
    (used : db.changeSetUnder draft.spaceId draft.idempotencyKey = some (held, under)) :
    db.submitChangeset draws draft .applyImmediately =
      if under.requestHash = canonicalRequestHash draft .applyImmediately then
        .ok (db, .existing (db.receiptOf held under))
      else .error .changeSetIdempotencyConflict := by
  unfold submitChangeset
  rw [valid]
  change (db.ensureBoundSpace draft.spaceId >>= fun _ => _) = _
  rw [ensureBoundSpace_eq_ok.mpr bound]
  change (db.loadExistingReceipt draft _ >>= fun _ => _) = _
  unfold loadExistingReceipt
  rw [used]
  by_cases same : under.requestHash = canonicalRequestHash draft .applyImmediately
  · dsimp only
    rw [if_pos same, refuseIf_neg fun differs => differs same]
    rfl
  · dsimp only
    rw [if_neg same, refuseIf_pos same]
    rfl

/-- What the operations of a change set do to the rows is all that its submission does
to them. -/
theorem Stores.applied_rows {draft : ChangeSetDraft}
    (stores : Stores db draws draft .applyImmediately db') :
    ∃ stored applied : Database, stored.observations = db.observations ∧
      stored.entities = db.entities ∧ stored.relations = db.relations ∧
      applyOperations draws draws.changeSet (db.domain.semanticGeneration + 1) stored 0
        draft.operations = .ok applied ∧
      db'.observations = applied.observations ∧ db'.entities = applied.entities ∧
      db'.relations = applied.relations := by
  cases stores with
  | @applied rowed stored applied inserted requested ran =>
    obtain ⟨_, _, _, rfl⟩ := insertChangeSet_eq_ok inserted
    have same := (insertRequests_eq_ok requested).1
    refine ⟨stored, applied, ?_, ?_, ?_, ran, rfl, rfl, rfl⟩
    · rw [same]
    · rw [same]
    · rw [same]

/-- **A maintenance retirement** retires the observations that are active, and says how
many they are. -/
theorem retireObservationsForMaintenance_eq_ok (new : db.DrawsNewKey draws key)
    (retired : db.retireObservationsForMaintenance draws key ids reason = .ok (db', count)) :
    count = (ids.filter db.isActive).length ∧ Retires db (ids.filter db.isActive) db' := by
  have lengths : (ids.filterMap db.retirementOf).length = (ids.filter db.isActive).length := by
    rw [← map_logicalId_retirements, List.length_map]
  unfold retireObservationsForMaintenance at retired
  dsimp only at retired
  split at retired
  · rename_i none
    cases retired
    have empty : ids.filter db.isActive = [] := by
      rw [← map_logicalId_retirements, none, List.map_nil]
    rw [empty]
    exact ⟨rfl, .refl db⟩
  · obtain ⟨⟨last, submission⟩, submitted, finished⟩ := bind_eq_ok.mp retired
    cases finished
    have rest := @compatibilitySpaceId_rest db draws
    obtain ⟨stored, applied, observations, entities, relations, ran, rows, ents, rels⟩ :=
      (submit_stores (by rw [rest]; exact new) submitted).applied_rows
    change applyOperations _ _ _ _ _ (ids.filterMap db.retirementOf) = _ at ran
    rw [filterMap_retirementOf] at ran
    obtain ⟨⟨change, changed, retires, keeps⟩, ents', rels'⟩ := applyRetirements_retires
      (fun id member => (List.mem_filter.mp member).2) ran
    refine ⟨lengths, ⟨change, ?_, retires, keeps⟩, ?_, ?_⟩
    · rw [rows, changed, observations, rest]
    · rw [ents, ents', entities, rest]
    · rw [rels, rels', relations, rest]

end Maintenance

end Database

end OpenMemory.Graph
