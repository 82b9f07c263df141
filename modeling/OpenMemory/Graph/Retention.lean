import OpenMemory.Graph.Reachable
import OpenMemory.Graph.Retirement

/-!
# Which operations leave an observation retired

An observation becomes retired in two ways: by a retirement, which leaves its
content, and by a reversion to a revision that was not active, which goes back to
the content of then. No other operation of a change set, and no other transaction,
makes a row retired or touches the content of a retired one.
-/

namespace OpenMemory.Graph

open Foundation
open Merge (Blake3)

/-- The time that pruning looks at: when the observation ends to be valid or, where no
end is set, when it was observed. -/
def SemanticContent.stamp (content : SemanticContent) : Int64 :=
  content.validUntil.getD content.observedAt

/-! ## Moves that revise nothing -/

theorem Ledger.Follows.retired {before after : Ledger} {effects : List Effect} {id : String}
    {next : ObservationRow} (follows : Ledger.Follows before effects after)
    (unrevised : Unrevised effects) (now : after.observations id = some next)
    (retired : next.lifecycle = .retired) :
    ∃ row, before.observations id = some row ∧ row.lifecycle = .retired ∧
      next.semantic = row.semantic := by
  have held := follows.invariant (motive := fun ledger => ∀ next,
    ledger.observations id = some next → next.lifecycle = .retired →
      ∃ row, before.observations id = some row ∧ row.lifecycle = .retired ∧
        next.semantic = row.semantic)
    (fun next now retired => ⟨next, now, retired, rfl⟩)
    fun ledger effect later member held moved next now retired => ?_
  · exact held next now retired
  · cases moved.rowChange id with
    | kept same => exact held next (same ▸ now) retired
    | inserted absent fresh here =>
      cases here.symm.trans now
      rw [fresh.lifecycle] at retired
      cases retired
    | headed present _ _ _ _ here =>
      cases here.symm.trans now
      obtain ⟨row, before, state, semantic⟩ := held _ present retired
      exact ⟨row, before, state, semantic⟩
    | revised => cases unrevised _ member
    | destroyed _ _ here =>
      rw [here] at now
      cases now
    | removed here =>
      rw [here] at now
      cases now
    | accessed present here =>
      cases here.symm.trans now
      obtain ⟨row, before, state, semantic⟩ := held _ present retired
      exact ⟨row, before, state, semantic⟩

namespace Database

variable {origin db db' : Database} {draws : Draws} {changesetId : ChangeSetId}
  {generation ordinal : Nat} {id : String} {version : UInt64} {row next : ObservationRow}
  {operation : ChangeOperation} {operations : List ChangeOperation}

/-! ## One operation -/

/-- An operation leaves an observation retired, with this content. -/
inductive LeavesRetired (db : Database) : ChangeOperation → String → SemanticContent → Prop
  | retirement {id : String} {version : UInt64} {row : ObservationRow}
      (present : db.observations.get? id = some row) (active : row.lifecycle = .active) :
      LeavesRetired db (.retireObservation id version) id row.semantic
  | reversion {id revisionId : String} {version : UInt64} {revision : Revision}
      (held : db.revisions.get? revisionId = some revision)
      (inactive : revision.lifecycle ≠ .active) :
      LeavesRetired db (.revertObservation id revisionId version) id
        (storedContent revision.semantic)

/-- What an operation of a change set makes of a row that it touches: it is in step, and
if it is retired then the operation retires. -/
structure RowAfter (db : Database) (operation : ChangeOperation) (id : String)
    (next : ObservationRow) : Prop where
  inStep : Ledger.InStep next
  retired : next.lifecycle = .retired → LeavesRetired db operation id next.semantic

theorem Revises.kept {operation : OutboxOperation} {other : String}
    (revises : Revises db db' id version row next generation operation) (apart : other ≠ id) :
    db'.observations.get? other = db.observations.get? other := by
  obtain ⟨key, revision, slot, owed, follows, -⟩ := revises.follows
  change db'.ledger.observations other = db.ledger.observations other
  generalize db.ledger = before at follows
  generalize db'.ledger = after at follows
  obtain ⟨middle, revised, last, noted, rfl⟩ := follows
  cases noted
  cases revised
  exact Function.update_of_ne apart _ _

theorem Destroys.rows {expectedRevisionId : Option String} {confirmationHash : String}
    (destroys : Destroys db db' draws changesetId id version expectedRevisionId confirmationHash
      row generation) (other : String) :
    db'.observations.get? other = if other = id then none else db.observations.get? other := by
  obtain ⟨key, revision, slot, owed, follows, -⟩ := destroys.follows
  change db'.ledger.observations other = if other = id then none else db.ledger.observations other
  generalize db.ledger = before at follows
  generalize db'.ledger = after at follows
  obtain ⟨middle, destroyed, last, noted, rfl⟩ := follows
  cases noted
  cases destroyed
  exact Function.update_apply ..

/-- An operation that revises leaves every row as it was, or as it makes it. -/
theorem Revises.rowAfter {owing : OutboxOperation} {other : String} {after : ObservationRow}
    (revises : Revises db db' id version row next generation owing)
    (retired : next.lifecycle = .retired → LeavesRetired db operation id next.semantic)
    (now : db'.observations.get? other = some after) :
    db.observations.get? other = some after ∨ RowAfter db operation other after := by
  by_cases here : other = id
  · subst here
    cases revises.after.1.symm.trans now
    exact .inr ⟨revises.after.2, retired⟩
  · rw [revises.kept here] at now
    exact .inl now

section Operations

variable [EntityMatching]

section

variable (applied : db.applyOperation draws changesetId generation ordinal operation = .ok db')

include applied

/-- **An operation leaves** the rows of the observations it does not name. -/
theorem applyOperation_kept (present : db.observations.get? id = some row)
    (apart : operation.objectKind = .observation → operation.logicalId ≠ id) :
    db'.observations.get? id = some row := by
  cases operation with
  | remember entityName entityType observations relations =>
    obtain ⟨⟨grouped, group⟩, first, recorded⟩ := bind_eq_ok.mp applied
    have written := writeGroup_written first
    obtain ⟨_, _, elsewhere⟩ :=
      recordRemembered_follows ⟨written.distinct, written.headless⟩ recorded
    rw [elsewhere id fun member => ?_]
    · exact written.kept id row present
    · rw [written.absent id member] at present
      cases present
  | updateObservation observation version expectedRevisionId =>
    obtain ⟨_, _, revises, _⟩ := applyUpdate_revises applied
    rw [revises.kept (Ne.symm (apart rfl)), present]
  | retireObservation id version =>
    obtain ⟨_, _, revises, _⟩ := applyLifecycle_revises applied
    rw [revises.kept (Ne.symm (apart rfl)), present]
  | restoreObservation id version =>
    obtain ⟨_, _, revises, _⟩ := applyLifecycle_revises applied
    rw [revises.kept (Ne.symm (apart rfl)), present]
  | revertObservation id revisionId version =>
    obtain ⟨_, _, _, revises, _⟩ := applyRevert_revises applied
    rw [revises.kept (Ne.symm (apart rfl)), present]
  | destroyObservation observationId version expectedRevisionId confirmationHash =>
    obtain ⟨_, destroys⟩ := applyDestroy_destroys applied
    have other : id ≠ observationId := Ne.symm (apart rfl)
    rw [destroys.rows, if_neg other, present]

theorem applyOperation_revisions {key : String} {revision : Revision}
    (held : db.revisions.get? key = some revision) : db'.revisions.get? key = some revision := by
  obtain ⟨effects, follows⟩ := (applyOperation_applied applied).effects
  have later : db'.ledger.revisions key = some revision := follows.revisions held
  exact later

/-- **An operation** leaves every row as it was, or as it makes it. -/
theorem applyOperation_rows (now : db'.observations.get? id = some next) :
    db.observations.get? id = some next ∨ RowAfter db operation id next := by
  cases operation with
  | remember entityName entityType observations relations =>
    obtain ⟨⟨grouped, group⟩, first, recorded⟩ := bind_eq_ok.mp applied
    have written := writeGroup_written first
    obtain ⟨⟨effects, others, follows, inserted, recording⟩, _⟩ := written.recorded recorded
    have live := follows.invariant (motive := fun ledger => ∀ next,
      ledger.observations id = some next → db.observations.get? id = some next ∨
        (db.observations.get? id = none ∧ next.tombstoned = false ∧ next.lifecycle = .active))
      (fun next now => .inl now) fun ledger effect later member held moved next now => ?_
    · rcases live next now with same | ⟨_, flag, active⟩
      · exact .inl same
      · refine .inr ⟨?_, fun retired => ?_⟩
        · unfold Ledger.InStep
          rw [flag, active]
          decide
        · rw [active] at retired
          cases retired
    · rcases List.mem_append.mp member with member | member
      · obtain ⟨other, among, new, rfl, flag⟩ := inserted _ member
        cases moved.rowChange id with
        | kept same => exact held next (same ▸ now)
        | inserted absent fresh here =>
          cases here.symm.trans now
          exact .inr ⟨written.absent id among, flag, fresh.lifecycle⟩
      · rcases recording _ member with ⟨other, among, _, _, _, rfl⟩ | ⟨_, _, rfl⟩
        · cases moved.rowChange id with
          | kept same => exact held next (same ▸ now)
          | headed present headless _ _ _ here =>
            cases here.symm.trans now
            rcases held _ present with before | ⟨absent, state⟩
            · rw [written.absent id among] at before
              cases before
            · exact .inr ⟨absent, state⟩
        · cases moved.rowChange id with
          | kept same => exact held next (same ▸ now)
  | updateObservation observation version expectedRevisionId =>
    obtain ⟨row, after, revises, _, _, _, active⟩ := applyUpdate_revises applied
    refine revises.rowAfter (fun retired => ?_) now
    rw [active] at retired
    cases retired
  | retireObservation other version =>
    obtain ⟨row, after, revises, active, semantic, _⟩ := applyLifecycle_revises applied
    refine revises.rowAfter (fun _ => ?_) now
    rw [semantic]
    exact .retirement revises.present active
  | restoreObservation other version =>
    obtain ⟨row, after, revises, _, _, active⟩ := applyLifecycle_revises applied
    refine revises.rowAfter (fun retired => ?_) now
    rw [active] at retired
    cases retired
  | revertObservation other revisionId version =>
    obtain ⟨row, after, revision, revises, held, _, semantic, lifecycle⟩ :=
      applyRevert_revises applied
    refine revises.rowAfter (fun retired => ?_) now
    rw [semantic]
    refine .reversion held fun active => ?_
    rw [if_pos active, retired] at lifecycle
    cases lifecycle
  | destroyObservation other version expectedRevisionId confirmationHash =>
    obtain ⟨_, destroys⟩ := applyDestroy_destroys applied
    rw [destroys.rows] at now
    split at now
    · cases now
    · exact .inl now

/-! ## The operations of a change set -/

/-- What an operation retires, or goes back to, was in the store before. -/
def Names (db : Database) : ChangeOperation → Prop
  | .retireObservation id _ => ∃ row, db.observations.get? id = some row
  | .revertObservation _ revisionId _ => ∃ revision, db.revisions.get? revisionId = some revision
  | _ => True

/-- The database still has what an operation names in another one. -/
def AgreesOn (origin db : Database) (operations : List ChangeOperation) : Prop :=
  (∀ key revision, origin.revisions.get? key = some revision →
    db.revisions.get? key = some revision) ∧
  ∀ operation ∈ operations, ∀ row, operation.objectKind = .observation →
    origin.observations.get? operation.logicalId = some row →
      db.observations.get? operation.logicalId = some row

omit applied in
omit [EntityMatching] in
theorem LeavesRetired.of_agrees {content : SemanticContent} (agrees : AgreesOn origin db operations)
    (member : operation ∈ operations) (names : origin.Names operation)
    (leaves : LeavesRetired db operation id content) :
    LeavesRetired origin operation id content := by
  cases leaves with
  | @retirement id version row present active =>
    obtain ⟨before, known⟩ := names
    cases (agrees.2 _ member before rfl known).symm.trans present
    exact .retirement known active
  | @reversion id revisionId version revision held inactive =>
    obtain ⟨before, known⟩ := names
    cases (agrees.1 _ _ known).symm.trans held
    exact .reversion known inactive

theorem AgreesOn.after (agrees : AgreesOn origin db (operation :: operations))
    (distinct : ((operation :: operations).map fun operation =>
      (operation.objectKind, operation.logicalId)).Nodup) : AgreesOn origin db' operations := by
  refine ⟨fun key revision known => applyOperation_revisions applied (agrees.1 key revision known),
    fun other member row kind known => ?_⟩
  refine applyOperation_kept applied
    (agrees.2 other (List.mem_cons_of_mem _ member) row kind known) fun same here => ?_
  refine (List.nodup_cons.mp distinct).1 (List.mem_map.mpr ⟨other, member, ?_⟩)
  change (other.objectKind, other.logicalId) = (operation.objectKind, operation.logicalId)
  rw [same, kind, here]

end

/-- **The operations of a change set** leave every row as it was, or in step, and
retired only where one of them retires. -/
theorem applyOperations_rows
    (distinct : (operations.map fun operation =>
      (operation.objectKind, operation.logicalId)).Nodup)
    (agrees : AgreesOn origin db operations) (names : ∀ operation ∈ operations,
      origin.Names operation)
    (applied : applyOperations draws changesetId generation db ordinal operations = .ok db')
    (now : db'.observations.get? id = some next) :
    db.observations.get? id = some next ∨
      ∃ operation ∈ operations, RowAfter origin operation id next := by
  induction operations generalizing db ordinal with
  | nil =>
    cases applied
    exact .inl now
  | cons operation rest ih =>
    obtain ⟨middle, first, remaining⟩ := bind_eq_ok.mp applied
    rcases ih (List.nodup_cons.mp distinct).2 (agrees.after first distinct)
      (List.forall_mem_cons.mp names).2 remaining with
      same | ⟨other, member, after⟩
    · rcases applyOperation_rows first same with before | after
      · exact .inl before
      · exact .inr ⟨operation, List.mem_cons_self, after.inStep, fun retired =>
          (after.retired retired).of_agrees agrees List.mem_cons_self
            (names operation List.mem_cons_self)⟩
    · exact .inr ⟨other, List.mem_cons_of_mem _ member, after⟩

end Operations

/-! ## Transactions -/

section Transactions

variable [Blake3] [PayloadCodec] [EntityMatching] {draft : ChangeSetDraft} {mode : SubmitMode}
  {submission : Submission} {transaction : Transaction}

omit [Blake3] [EntityMatching] in
theorem distinct_of_valid (valid : validateDraft draft = .ok ()) :
    (draft.operations.map fun operation => (operation.objectKind, operation.logicalId)).Nodup :=
  (checkOperations_eq_ok.mp (validateDraft_eq_ok.mp valid).2.2.2).2.1

omit [Blake3] [PayloadCodec] [EntityMatching] in
theorem AgreesOn.of_same (rows : db.observations = origin.observations)
    (revisions : db.revisions = origin.revisions) : AgreesOn origin db operations := by
  refine ⟨fun _ _ known => ?_, fun _ _ _ _ known => ?_⟩
  · rw [revisions, known]
  · rw [rows, known]

/-- **A submission** leaves every row as it was, or applies its operations. -/
theorem submitChangeset_rows
    (submitted : db.submitChangeset draws draft mode = .ok (db', submission))
    (names : db.Applies (.submit draws draft mode) draws.changeSet draft.operations →
      ∀ operation ∈ draft.operations, db.Names operation)
    (now : db'.observations.get? id = some next) :
    db.observations.get? id = some next ∨
      db.Applies (.submit draws draft mode) draws.changeSet draft.operations ∧
        ∃ operation ∈ draft.operations, RowAfter db operation id next := by
  obtain ⟨valid, _, _, ⟨_, _, _, _, rfl, _⟩ | ⟨unused, stores, _⟩⟩ :=
    submitChangeset_eq_ok submitted
  · exact .inl now
  · cases stores with
    | proposed inserted requested =>
      obtain ⟨_, _, _, rfl⟩ := insertChangeSet_eq_ok inserted
      rw [(insertRequests_eq_ok requested).1] at now
      exact .inl now
    | applied inserted requested ran =>
      obtain ⟨_, _, _, rfl⟩ := insertChangeSet_eq_ok inserted
      have same := (insertRequests_eq_ok requested).1
      have applies : db.Applies (.submit draws draft .applyImmediately) draws.changeSet
          draft.operations := ⟨rfl, rfl, rfl, unused⟩
      rcases applyOperations_rows (distinct_of_valid valid)
        (.of_same (by rw [same]) (by rw [same])) (names applies) ran now with before | after
      · rw [same] at before
        exact .inl before
      · exact .inr ⟨applies, after⟩

theorem approveChangeset_rows {name : String} {version : UInt64} {review : ReviewAuthorization}
    (approved : db.approveChangeset draws name version review = .ok (db', changesetId))
    (names : ∀ changesetId operations,
      db.Applies (.approve draws name version review) changesetId operations →
        ∀ operation ∈ operations, db.Names operation)
    (now : db'.observations.get? id = some next) :
    db.observations.get? id = some next ∨ ∃ changesetId operations,
      db.Applies (.approve draws name version review) changesetId operations ∧
        ∃ operation ∈ operations, RowAfter db operation id next := by
  obtain ⟨row, ⟨_, rfl, _⟩ | ⟨reviews, operations, stored, verified, outcome⟩⟩ :=
    approveChangeset_eq_ok approved
  · exact .inl now
  · rcases outcome with ⟨_, closes⟩ | ⟨met, applied, closed, ran, closes, rfl⟩
    · rw [closes.unchanged] at now
      exact .inl now
    · have applies : db.Applies (.approve draws name version review) changesetId operations :=
        ⟨row, reviews.found, reviews.proposed, stored, met⟩
      obtain ⟨_, _, verified⟩ := bind_eq_ok.mp verified
      obtain ⟨_, valid, _⟩ := bind_eq_ok.mp verified
      have reads : closed.observations = applied.observations := by
        rw [closes.unchanged]
      change closed.observations.get? id = some next at now
      rw [reads] at now
      rcases applyOperations_rows (distinct_of_valid valid) (.of_same rfl rfl)
        (names changesetId operations applies) ran now with before | after
      · exact .inl before
      · exact .inr ⟨changesetId, operations, applies, after⟩

/-- **What a transaction makes of retired observations**: each was retired before and
has its content, or an operation that the transaction applied retired it. -/
theorem perform_retired (performed : db.perform transaction = .ok db')
    (names : ∀ changesetId operations, db.Applies transaction changesetId operations →
      ∀ operation ∈ operations, db.Names operation)
    (now : db'.observations.get? id = some next) (retired : next.lifecycle = .retired) :
    (∃ row, db.observations.get? id = some row ∧ row.lifecycle = .retired ∧
        next.semantic = row.semantic) ∨
      ∃ changesetId operations, db.Applies transaction changesetId operations ∧
        ∃ operation ∈ operations, LeavesRetired db operation id next.semantic := by
  have quiet (other : ¬ AppliesChangeSets transaction) : ∃ row,
      db.observations.get? id = some row ∧ row.lifecycle = .retired ∧
        next.semantic = row.semantic := by
    obtain ⟨effects, follows, unrevised⟩ := perform_moves performed
    exact follows.retired (unrevised other) now retired
  cases transaction with
  | submit draws draft mode =>
    obtain ⟨⟨_, submission⟩, submitted, rfl⟩ := map_eq_ok.mp performed
    rcases submitChangeset_rows submitted (names _ _) now with same |
      ⟨applies, operation, member, after⟩
    · exact .inl ⟨next, same, retired, rfl⟩
    · exact .inr ⟨_, _, applies, operation, member, after.retired retired⟩
  | approve draws name version review =>
    obtain ⟨⟨_, changesetId⟩, approved, rfl⟩ := map_eq_ok.mp performed
    rcases approveChangeset_rows approved names now with same |
      ⟨changesetId, operations, applies, operation, member, after⟩
    · exact .inl ⟨next, same, retired, rfl⟩
    · exact .inr ⟨changesetId, operations, applies, operation, member, after.retired retired⟩
  | _ => exact .inl (quiet not_false)

/-! ## Calls that retire -/

omit [Blake3] [PayloadCodec] [EntityMatching] in
/-- A row after retirements is as it was, or was retired by one of them. -/
theorem Retires.rowAfter {ids : List String} (retires : Retires db ids db')
    (now : db'.observations.get? id = some next) :
    db.observations.get? id = some next ∨
      ∃ row, id ∈ ids ∧ db.observations.get? id = some row ∧ RetiredFrom row next := by
  by_cases member : id ∈ ids
  · obtain ⟨change, changed, retired, _⟩ := retires.rows
    rw [changed, Table.get?_map, Option.map_eq_some_iff] at now
    obtain ⟨row, present, rfl⟩ := now
    exact .inr ⟨row, member, present, retired id member row⟩
  · rw [retires.kept member] at now
    exact .inl now

omit [Blake3] [PayloadCodec] [EntityMatching] in
theorem compatibilitySpaceId_retires : Retires db [] (db.compatibilitySpaceId draws).1 := by
  rw [compatibilitySpaceId_rest]
  exact ⟨⟨fun _ row => row, Table.map_id.symm, fun _ member => absurd member List.not_mem_nil,
    fun _ _ _ => rfl⟩, rfl, rfl⟩

/-- A change set of one retirement retires an observation that was active. -/
theorem Stores.retires_one (stores : Stores db draws draft .applyImmediately db')
    (single : draft.operations = [.retireObservation id version]) :
    Retires db [id] db' ∧ db.isActive id = true := by
  obtain ⟨stored, applied, observations, entities, relations, ran, rows, ents, rels⟩ :=
    stores.applied_rows
  rw [single] at ran
  obtain ⟨_, first, finished⟩ := bind_eq_ok.mp ran
  cases finished
  obtain ⟨before, _, revises, active, _⟩ := applyLifecycle_revises first
  obtain ⟨⟨change, changed, retires, keeps⟩, ents', rels'⟩ := applyLifecycle_retires first
  refine ⟨⟨⟨change, ?_, retires, keeps⟩, ?_, ?_⟩, ?_⟩
  · rw [rows, changed, observations]
  · rw [ents, ents', entities]
  · rw [rels, rels', relations]
  · have held := revises.present
    rw [observations] at held
    exact isActive_iff.mpr ⟨before, held, active⟩

/-- **Forgetting** leaves the rows as they were, or retires an observation that was
active. -/
theorem retireObservation_retires {changed : Bool}
    (done : db.retireObservation draws id = .ok (db', changed)) :
    ∃ ids, Retires db ids db' ∧ ∀ other ∈ ids, other = id ∧ db.isActive id = true := by
  cases present : db.observations.get? id with
  | none =>
    unfold retireObservation at done
    rw [present] at done
    cases done
    exact ⟨[], .refl db, fun _ member => nomatch member⟩
  | some row =>
    unfold retireObservation at done
    rw [present] at done
    dsimp only at done
    cases flag : row.tombstoned with
    | true =>
      rw [flag] at done
      cases done
      exact ⟨[], .refl db, fun _ member => nomatch member⟩
    | false =>
      rw [flag] at done
      obtain ⟨⟨last, submission⟩, submitted, finished⟩ := bind_eq_ok.mp done
      cases finished
      obtain ⟨_, _, _, ⟨_, _, _, _, rfl, _⟩ | ⟨_, stores, _⟩⟩ :=
        submitChangeset_eq_ok submitted
      · exact ⟨[], compatibilitySpaceId_retires, fun _ member => nomatch member⟩
      · obtain ⟨retires, active⟩ := stores.retires_one rfl
        refine ⟨[id], compatibilitySpaceId_retires.trans retires, fun other member =>
          ⟨List.mem_singleton.mp member, ?_⟩⟩
        rw [compatibilitySpaceId_rest] at active
        exact active

/-- **A maintenance retirement** leaves the rows as they were, or retires those of the
observations that were active. -/
theorem retireObservationsForMaintenance_retires {key : ChangeSetId} {ids : List String}
    {reason : String} {count : Nat}
    (done : db.retireObservationsForMaintenance draws key ids reason = .ok (db', count)) :
    ∃ retired, Retires db retired db' ∧ ∀ id ∈ retired, id ∈ ids ∧ db.isActive id = true := by
  by_cases new : db.DrawsNewKey draws key
  · exact ⟨_, (retireObservationsForMaintenance_eq_ok new done).2,
      fun id member => List.mem_filter.mp member⟩
  · refine ⟨[], ?_, fun _ member => nomatch member⟩
    unfold retireObservationsForMaintenance at done
    dsimp only at done
    by_cases none : ids.filterMap db.retirementOf = []
    · rw [if_pos none] at done
      cases done
      exact .refl db
    · rw [if_neg none] at done
      obtain ⟨⟨last, submission⟩, submitted, finished⟩ := bind_eq_ok.mp done
      cases finished
      obtain ⟨_, _, _, ⟨_, _, _, _, rfl, _⟩ | ⟨unused, _, _⟩⟩ := submitChangeset_eq_ok submitted
      · exact compatibilitySpaceId_retires
      · refine absurd ?_ new
        rw [compatibilitySpaceId_rest] at unused
        exact unused

end Transactions

end Database

end OpenMemory.Graph
