import OpenMemory.Graph.Effects

/-!
# The effects of each kind of operation

An update, a retirement, a restoration and a reversion are one move: the row is
revised on top of its head, in its next version. They differ in what they ask of
the row and in what they make of it. A destruction asks for a confirmation and
consumes it. The operations of a change set are taken one after another.
-/

namespace OpenMemory.Graph

open Foundation
open Merge (Blake3)

namespace Database

variable {base db db' : Database} {draws : Draws} {changesetId : ChangeSetId}
  {generation ordinal : Nat} {id : String} {version : UInt64} {row next : ObservationRow}

/-! ## Revising an observation -/

/-- The database goes on by revising one observation, which was in the expected
version, and owing the index the change. -/
structure Revises (db db' : Database) (id : String) (version : UInt64)
    (row next : ObservationRow) (generation : Nat) (operation : OutboxOperation) : Prop where
  present : db.observations.get? id = some row
  expected : row.rowVersion = version.toNat
  follows : ∃ key revision slot owed,
    Ledger.Follows db.ledger [.revised id row next key revision, .owed slot owed] db'.ledger ∧
      slot.1 = generation ∧ owed.logicalId = id ∧ owed.operation = operation
  only : ObservationsOnly db db'

/-- **The end of every revision**: the row was changed in place, and now gets
its revision, its head and its version. -/
theorem recordRevision_revises {change : ObservationRow → ObservationRow}
    {operation : OutboxOperation} {eventType : String}
    (changed : db = { base with observations := base.observations.modify id change })
    (present : base.observations.get? id = some row) (expected : row.rowVersion = version.toNat)
    (same : (change row).rowVersion = row.rowVersion ∧ (change row).accessCount = row.accessCount)
    (inStep : Ledger.InStep (change row))
    (recorded : db.recordRevision draws changesetId generation ordinal id row.currentRevisionId
      version operation eventType = .ok db') :
    Revises base db' id version row
      { change row with
        currentRevisionId := some (draws.revision ordinal 0).toText
        rowVersion := row.rowVersion + 1 } generation operation := by
  unfold recordRevision at recorded
  obtain ⟨refreshed, loaded, recorded⟩ := bind_eq_ok.mp recorded
  obtain ⟨revised, first, recorded⟩ := bind_eq_ok.mp recorded
  obtain ⟨owing, second, noted⟩ := bind_eq_ok.mp recorded
  subst changed
  have reads : (base.observations.modify id change).get? id = some (change row) := by
    rw [Table.get?_modify_self, present]
    rfl
  rw [loadObservation_eq_ok] at loaded
  cases reads.symm.trans loaded
  obtain ⟨revisions, added, rfl⟩ := insertRevision_eq_ok first
  have owed := insertOutbox_moves second
  obtain ⟨outbox, _, rfl⟩ := insertOutbox_eq_ok second
  have events := insertOperationEvent_eventsOnly noted
  refine ⟨present, expected, ⟨(draws.revision ordinal 0).toText, ⟨id, (change row).semantic,
    row.currentRevisionId, changesetId, draws.now, (change row).lifecycle⟩, _, _,
    ⟨_, ?_, _, owed, ?_⟩, rfl, rfl, rfl⟩, ?_⟩
  · have after : ((({ base with
          observations := base.observations.modify id change, revisions } : Database).advanceHead id
            (draws.revision ordinal 0) version)).ledger =
        (base.ledger.addRevision (draws.revision ordinal 0).toText
          ⟨id, (change row).semantic, row.currentRevisionId, changesetId, draws.now,
            (change row).lifecycle⟩).setObservation id (some { change row with
              currentRevisionId := some (draws.revision ordinal 0).toText
              rowVersion := row.rowVersion + 1 }) := by
      refine Ledger.ext (funext fun other => ?_) (funext fun other => ?_) rfl
      · change ((base.observations.modify id change).modify id _).get? other =
          Function.update base.observations.get? id _ other
        rw [Table.get?_modify, Function.update_apply]
        by_cases here : other = id
        · subst here
          rw [if_pos rfl, if_pos rfl, reads, Option.map_some, same.1, if_pos expected]
        · rw [if_neg here, if_neg here, Table.get?_modify_of_ne _ here]
      · change revisions.get? other = Function.update base.revisions.get? _ _ _
        rw [Table.get?_insert added, Function.update_apply]
    have advances : Ledger.Advances row { change row with
        currentRevisionId := some (draws.revision ordinal 0).toText
        rowVersion := row.rowVersion + 1 } (draws.revision ordinal 0).toText :=
      ⟨rfl, rfl, same.2, inStep⟩
    have moved := @Ledger.Moves.revised base.ledger id _ row _ ⟨id, (change row).semantic,
      row.currentRevisionId, changesetId, draws.now, (change row).lifecycle⟩ present advances
      (Table.absent_of_insert added) ⟨rfl, rfl, rfl, rfl⟩
    rw [← after] at moved
    exact moved
  · rw [events]
    rfl
  · rw [ObservationsOnly, events]
    rfl

theorem Revises.after {operation : OutboxOperation}
    (revises : Revises db db' id version row next generation operation) :
    db'.observations.get? id = some next ∧ Ledger.InStep next := by
  obtain ⟨key, revision, slot, owed, follows, -⟩ := revises.follows
  change db'.ledger.observations id = some next ∧ _
  generalize db.ledger = before at follows
  generalize db'.ledger = after at follows
  obtain ⟨middle, revised, last, noted, rfl⟩ := follows
  cases noted
  cases revised with
  | revised present advances new records => exact ⟨Function.update_self .., advances.inStep⟩

/-- What `replace_observation` stores of a content. -/
def storedContent (semantic : SemanticContent) : SemanticContent :=
  { semantic with
    concepts := sideRows semantic.concepts
    sourceFiles := sideRows semantic.sourceFiles }

theorem replaceObservation_eq_ok {semantic : SemanticContent} {tombstoned : Bool}
    (replaced : db.replaceObservation id semantic tombstoned = .ok db') :
    db' = { db with observations := db.observations.modify id fun row =>
      { row with
        semantic := storedContent semantic
        tombstoned
        lifecycle := if tombstoned then .retired else .active } } := by
  unfold replaceObservation insertSideRows at replaced
  obtain ⟨_, _, replaced⟩ := bind_eq_ok.mp replaced
  obtain ⟨concepts, first, replaced⟩ := bind_eq_ok.mp replaced
  obtain ⟨sourceFiles, second, replaced⟩ := bind_eq_ok.mp replaced
  obtain ⟨_, _, first⟩ := bind_eq_ok.mp first
  obtain ⟨_, _, second⟩ := bind_eq_ok.mp second
  cases first
  cases second
  cases replaced
  rfl

theorem inStep_of_tombstoned {row : ObservationRow} {tombstoned : Bool}
    (flag : row.tombstoned = tombstoned)
    (lifecycle : row.lifecycle = if tombstoned then .retired else .active) :
    Ledger.InStep row := by
  unfold Ledger.InStep
  rw [flag, lifecycle]
  cases tombstoned <;> simp

/-- **An update** revises an active observation to the content it gives. -/
theorem applyUpdate_revises {observation : Observation} {expectedRevisionId : Option String}
    (applied : db.applyUpdate draws changesetId generation ordinal observation version
      expectedRevisionId = .ok db') :
    ∃ row next, Revises db db' observation.id version row next generation .upsert ∧
      row.lifecycle = .active ∧ observation.entityId = row.semantic.entityId ∧
      next.semantic = storedContent observation.toSemanticContent ∧
      next.lifecycle = .active := by
  unfold applyUpdate at applied
  obtain ⟨row, loaded, applied⟩ := bind_eq_ok.mp applied
  obtain ⟨_, checked, applied⟩ := bind_eq_ok.mp applied
  obtain ⟨_, identity, applied⟩ := bind_eq_ok.mp applied
  obtain ⟨replaced, first, recorded⟩ := bind_eq_ok.mp applied
  unfold checkExpected at checked
  rw [refuseIf_eq_ok] at checked identity
  push Not at checked identity
  rw [loadObservation_eq_ok] at loaded
  have untombstoned : observation.tombstoned = false := by
    cases flag : observation.tombstoned with
    | false => rfl
    | true => exact absurd flag identity.2
  have revises := recordRevision_revises (replaceObservation_eq_ok first) loaded checked.1
    ⟨rfl, rfl⟩ (inStep_of_tombstoned rfl rfl) recorded
  refine ⟨row, _, revises, checked.2.1, identity.1, rfl, ?_⟩
  change (if observation.tombstoned = true then _ else _) = _
  rw [untombstoned]
  rfl

/-- **A retirement or a restoration** changes the lifecycle, not the content. -/
theorem applyLifecycle_revises {tombstoned : Bool}
    (applied : db.applyLifecycle draws changesetId generation ordinal id version tombstoned =
      .ok db') :
    ∃ row next, Revises db db' id version row next generation
        (if tombstoned then .delete else .upsert) ∧
      row.lifecycle = (if tombstoned then .active else .retired) ∧
      next.semantic = row.semantic ∧
      next.lifecycle = if tombstoned then .retired else .active := by
  unfold applyLifecycle at applied
  obtain ⟨row, loaded, applied⟩ := bind_eq_ok.mp applied
  obtain ⟨_, checked, recorded⟩ := bind_eq_ok.mp applied
  rw [refuseIf_eq_ok] at checked
  push Not at checked
  rw [loadObservation_eq_ok] at loaded
  have revises := recordRevision_revises rfl loaded checked.1 ⟨rfl, rfl⟩
    (inStep_of_tombstoned rfl rfl) recorded
  exact ⟨row, _, revises, checked.2, rfl, rfl⟩

/-- **A reversion** goes back to the content of a revision. -/
theorem applyRevert_revises {revisionId : String}
    (applied : db.applyRevert draws changesetId generation ordinal id revisionId version =
      .ok db') :
    ∃ row next revision, Revises db db' id version row next generation .upsert ∧
      db.revisions.get? revisionId = some revision ∧ revision.observationId = id ∧
      next.semantic = storedContent revision.semantic ∧
      next.lifecycle = if revision.lifecycle = .active then .active else .retired := by
  unfold applyRevert at applied
  obtain ⟨row, loaded, applied⟩ := bind_eq_ok.mp applied
  obtain ⟨_, checked, applied⟩ := bind_eq_ok.mp applied
  obtain ⟨historical, found, applied⟩ := bind_eq_ok.mp applied
  obtain ⟨replaced, first, recorded⟩ := bind_eq_ok.mp applied
  rw [refuseIf_eq_ok] at checked
  push Not at checked
  rw [loadObservation_eq_ok] at loaded
  unfold observationFromRevision at found
  rw [orRefuse_eq_ok, Option.filter_eq_some_iff, decide_eq_true_eq] at found
  have revises := recordRevision_revises (replaceObservation_eq_ok first) loaded checked
    ⟨rfl, rfl⟩ (inStep_of_tombstoned rfl rfl) recorded
  refine ⟨row, _, historical, revises, found.1, found.2, rfl, ?_⟩
  change (if decide (historical.lifecycle ≠ .active) = true then _ else _) = _
  simp only [ne_eq, decide_not, Bool.not_eq_true', decide_eq_false_iff_not, ite_not]

/-! ## Destroying an observation -/

/-- The database goes on by destroying one observation, as a confirmation
permits. -/
structure Destroys (db db' : Database) (draws : Draws) (changesetId : ChangeSetId) (id : String)
    (version : UInt64) (expectedRevisionId : Option String) (confirmationHash : String)
    (row : ObservationRow) (generation : Nat) : Prop where
  present : db.observations.get? id = some row
  expected : row.rowVersion = version.toNat
  revision : expectedRevisionId.isSome → row.currentRevisionId = expectedRevisionId
  permitted : ∃ confirmation changeSet,
    db.confirmations.get? confirmationHash = some confirmation ∧
      db.changeSets.get? changesetId = some changeSet ∧
      ¬ confirmationRefused confirmation changeSet id expectedRevisionId version draws.now
  follows : ∃ key revision slot owed,
    Ledger.Follows db.ledger [.destroyed id row key revision, .owed slot owed] db'.ledger ∧
      slot.1 = generation ∧ owed.logicalId = id ∧ owed.operation = .delete
  consumed : db'.confirmations = db.confirmations.modify confirmationHash fun row =>
    { row with consumedAt := some draws.now }
  audit : KeepsAudit db db'

theorem applyDestroy_destroys {expectedRevisionId : Option String} {confirmationHash : String}
    (applied : db.applyDestroy draws changesetId generation ordinal id version expectedRevisionId
      confirmationHash = .ok db') :
    ∃ row, Destroys db db' draws changesetId id version expectedRevisionId confirmationHash row
      generation := by
  unfold applyDestroy at applied
  obtain ⟨row, loaded, applied⟩ := bind_eq_ok.mp applied
  obtain ⟨_, checked, applied⟩ := bind_eq_ok.mp applied
  obtain ⟨confirmation, confirmed, applied⟩ := bind_eq_ok.mp applied
  obtain ⟨changeSet, own, applied⟩ := bind_eq_ok.mp applied
  obtain ⟨_, permitted, applied⟩ := bind_eq_ok.mp applied
  obtain ⟨revised, first, applied⟩ := bind_eq_ok.mp applied
  obtain ⟨owing, second, applied⟩ := bind_eq_ok.mp applied
  obtain ⟨noted, third, applied⟩ := bind_eq_ok.mp applied
  obtain ⟨destructions, _, finished⟩ := bind_eq_ok.mp applied
  cases finished
  unfold checkExpected at checked
  rw [refuseIf_eq_ok] at checked permitted
  push Not at checked
  rw [loadObservation_eq_ok] at loaded
  rw [orRefuse_eq_ok] at confirmed own
  obtain ⟨revisions, added, rfl⟩ := insertRevision_eq_ok first
  have owed := insertOutbox_moves second
  obtain ⟨outbox, inserted, rfl⟩ := insertOutbox_eq_ok second
  have events := insertOperationEvent_eventsOnly third
  have gone := @Ledger.Moves.destroyed db.ledger id _ row ⟨id, row.semantic,
    row.currentRevisionId, changesetId, draws.now, .destroyed⟩ loaded
    (Table.absent_of_insert added) ⟨rfl, rfl, rfl, rfl⟩
  refine ⟨row, loaded, checked.1, checked.2.2, ⟨confirmation, changeSet, confirmed, own,
    permitted⟩, ⟨(draws.revision ordinal 0).toText, _, (generation, scopedOrdinal ordinal 0),
    ⟨.delete, id, some (draws.revision ordinal 0).toText, 0, none, none, draws.now⟩, ⟨_, gone, _,
    .owed (Table.absent_of_insert inserted) rfl, ?_⟩, rfl, rfl, rfl⟩, ?_, ?_⟩
  · refine Ledger.ext (funext fun other => ?_) (funext fun other => ?_) (funext fun other => ?_)
    · rw [events]
      change Function.update db.observations.get? id none other =
        (db.observations.erase id).get? other
      rw [Table.get?_erase, Function.update_apply]
    · rw [events]
      change Function.update db.revisions.get? _ _ other = revisions.get? other
      rw [Table.get?_insert added, Function.update_apply]
    · rw [events]
      change Function.update db.outbox.get? _ _ other = outbox.get? other
      rw [Table.get?_insert inserted, Function.update_apply]
  · rw [events]
    rfl
  · rw [events]
    exact ⟨rfl, rfl, rfl, rfl, rfl⟩

end Database

end OpenMemory.Graph
