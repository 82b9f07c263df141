import OpenMemory.Graph.OperationEffects

/-!
# The effects of change sets

The operations of a change set are applied one after another, so their effects
are joined; the change sets and what belongs to them are kept.
-/

namespace OpenMemory.Graph

open Foundation
open Merge (Blake3)

variable {draws : Draws} {generation : Nat} {operations : List ChangeOperation}

namespace Database

variable {db db' : Database} {changesetId : ChangeSetId} {ordinal : Nat}
  {operation : ChangeOperation}

theorem ObservationsOnly.keepsAudit (only : ObservationsOnly db db') : KeepsAudit db db' := by
  rw [only]
  exact ⟨rfl, rfl, rfl, rfl, rfl⟩

theorem Written.keepsAudit {ids : List String} (written : Written db ids db') :
    KeepsAudit db db' := by
  rw [written.rest]
  exact ⟨rfl, rfl, rfl, rfl, rfl⟩

/-! ## Applying operations -/

/-- What is known after operations were applied. -/
structure Applied (db db' : Database) : Prop where
  effects : ∃ effects, Ledger.Follows db.ledger effects db'.ledger
  audit : KeepsAudit db db'

theorem Applied.trans {db'' : Database} (first : Applied db db') (second : Applied db' db'') :
    Applied db db'' where
  effects := by
    obtain ⟨effects, follows⟩ := first.effects
    obtain ⟨others, following⟩ := second.effects
    exact ⟨effects ++ others, follows.append following⟩
  audit := first.audit.trans second.audit

theorem Revises.applied {id : String} {version : UInt64} {row next : ObservationRow}
    {owing : OutboxOperation} (revises : Revises db db' id version row next generation owing) :
    Applied db db' where
  effects := by
    obtain ⟨key, revision, slot, owed, follows, _⟩ := revises.follows
    exact ⟨_, follows⟩
  audit := revises.only.keepsAudit

/-- New observations of groups and their first revisions. -/
theorem Written.recorded {db'' : Database} {ids : List String} {index : Nat}
    (written : Written db ids db')
    (recorded : recordRemembered draws changesetId generation ordinal db' index ids = .ok db'') :
    (∃ effects others, Ledger.Follows db.ledger (effects ++ others) db''.ledger ∧
      (∀ effect ∈ effects, ∃ id ∈ ids, ∃ row,
        effect = .inserted id row ∧ row.tombstoned = false) ∧ Recording ids others) ∧
      KeepsAudit db db'' := by
  obtain ⟨⟨others, following, recording⟩, only, _⟩ :=
    recordRemembered_follows ⟨written.distinct, written.headless⟩ recorded
  obtain ⟨effects, follows, inserted⟩ := written.follows
  exact ⟨⟨effects, others, follows.append following, inserted, recording⟩,
    written.keepsAudit.trans only.keepsAudit⟩

variable [EntityMatching]

theorem applyOperation_applied
    (applied : db.applyOperation draws changesetId generation ordinal operation = .ok db') :
    Applied db db' := by
  cases operation with
  | remember entityName entityType observations relations =>
    obtain ⟨⟨grouped, group⟩, first, recorded⟩ := bind_eq_ok.mp applied
    obtain ⟨⟨effects, others, follows, _⟩, audit⟩ := (writeGroup_written first).recorded recorded
    exact ⟨⟨_, follows⟩, audit⟩
  | updateObservation observation version expectedRevisionId =>
    obtain ⟨row, next, revises, _⟩ := applyUpdate_revises applied
    exact revises.applied
  | retireObservation id version =>
    obtain ⟨row, next, revises, _⟩ := applyLifecycle_revises applied
    exact revises.applied
  | restoreObservation id version =>
    obtain ⟨row, next, revises, _⟩ := applyLifecycle_revises applied
    exact revises.applied
  | revertObservation id revisionId version =>
    obtain ⟨row, next, revision, revises, _⟩ := applyRevert_revises applied
    exact revises.applied
  | destroyObservation id version expectedRevisionId confirmationHash =>
    obtain ⟨row, destroys⟩ := applyDestroy_destroys applied
    obtain ⟨key, revision, slot, owed, follows, _⟩ := destroys.follows
    exact ⟨⟨_, follows⟩, destroys.audit⟩

theorem applyOperations_applied
    (applied : applyOperations draws changesetId generation db ordinal operations = .ok db') :
    Applied db db' := by
  induction operations generalizing db ordinal with
  | nil =>
    cases applied
    exact ⟨⟨[], rfl⟩, .refl _⟩
  | cons operation rest ih =>
    obtain ⟨next, first, applied⟩ := bind_eq_ok.mp applied
    exact (applyOperation_applied first).trans (ih applied)

end Database

end OpenMemory.Graph
