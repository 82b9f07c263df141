import OpenMemory.Graph.Failures
import OpenMemory.Graph.Reachable
import OpenMemory.Graph.Revisions

/-!
# Observations that wait for a baseline

An observation waits while it has no revision. Only an import makes more of them: every
other write either heads what it inserts in the same transaction, or inserts nothing
(`Quiet`), and leaves the cursor of the backfill where it is. A call of the backfill takes
the waiting observations behind its cursor in the order of their ids, gives each of them
one revision and moves the cursor to the last of them (`Baselines`).
-/

namespace OpenMemory.Graph

open Foundation
open Merge (Blake3)

/-- A write that neither imports rows nor gives baselines. -/
def Transaction.Audited : Transaction → Prop
  | .importRaw .. | .backfill .. => False
  | _ => True

variable {db'' : Database} {ids : List String} {limit index : Nat} {row : ObservationRow}

namespace Database

variable {db db' : Database} {draws : Draws} {changesetId : ChangeSetId}
  {generation ordinal : Nat} {id : String}

/-! ## Waiting -/

/-- The observation is there, and has no revision. -/
def Waits (db : Database) (id : String) : Prop :=
  ∃ row, db.observations.get? id = some row ∧ row.currentRevisionId = none

/-- No more observations wait, and the cursor has not moved. -/
structure Quiet (db db' : Database) : Prop where
  waits : ∀ id, db'.Waits id → db.Waits id
  cursor : db'.domain.backfillCursor = db.domain.backfillCursor

theorem Quiet.refl (db : Database) : Quiet db db := ⟨fun _ waits => waits, rfl⟩

theorem Quiet.trans (first : Quiet db db') (second : Quiet db' db'') : Quiet db db'' :=
  ⟨fun id waits => first.waits id (second.waits id waits), second.cursor.trans first.cursor⟩

theorem Quiet.of_same (observations : db'.observations = db.observations)
    (cursor : db'.domain.backfillCursor = db.domain.backfillCursor) : Quiet db db' := by
  refine ⟨fun id waits => ?_, cursor⟩
  unfold Waits at waits
  rwa [observations] at waits

/-- What waits after some effects has waited, or was inserted by one of them. -/
theorem waits_of_follows {effects : List Effect}
    (follows : Ledger.Follows db.ledger effects db'.ledger) (waits : db'.Waits id) :
    db.Waits id ∨ ∃ row, .inserted id row ∈ effects := by
  obtain ⟨row, present, headless⟩ := waits
  change db'.ledger.observations id = some row at present
  have held : ∀ row, db'.ledger.observations id = some row → row.currentRevisionId = none →
      (∃ row, db.ledger.observations id = some row ∧ row.currentRevisionId = none) ∨
        ∃ row, .inserted id row ∈ effects := by
    refine follows.invariant (motive := fun ledger => ∀ row, ledger.observations id = some row →
      row.currentRevisionId = none →
        (∃ row, db.ledger.observations id = some row ∧ row.currentRevisionId = none) ∨
          ∃ row, .inserted id row ∈ effects)
      (fun row present headless => .inl ⟨row, present, headless⟩) ?_
    intro ledger effect next member held moved row present headless
    have elsewhere {other : String} {value : Option ObservationRow}
        (headed : ∀ row, value = some row → row.currentRevisionId ≠ none)
        (present : Function.update ledger.observations other value id = some row) :
        ledger.observations id = some row := by
      rw [Function.update_apply] at present
      split at present
      · exact absurd headless (headed row present)
      · exact present
    cases moved with
    | @inserted other new absent fresh =>
      by_cases here : id = other
      · subst here
        exact .inr ⟨new, member⟩
      · change Function.update ledger.observations other (some new) id = some row at present
        rw [Function.update_of_ne here] at present
        exact held row present headless
    | headed _ _ _ _ =>
      refine held row (elsewhere ?_ present) headless
      rintro _ ⟨⟩
      exact Option.some_ne_none _
    | revised _ advances _ _ =>
      refine held row (elsewhere ?_ present) headless
      rintro _ ⟨⟩
      rw [advances.head]
      exact Option.some_ne_none _
    | destroyed _ _ _ => exact held row (elsewhere (fun _ held => by cases held) present) headless
    | owed _ _ => exact held row present headless
    | removed =>
      dsimp only at present
      split at present
      · cases present
      · exact held row present headless
    | accessed =>
      dsimp only at present
      split at present
      · obtain ⟨before, found, rfl⟩ := Option.map_eq_some_iff.mp present
        exact held before found headless
      · exact held row present headless
    | noted _ => exact held row present headless
  exact held row present headless

/-- Effects without an insertion. -/
theorem Quiet.of_follows {effects : List Effect}
    (follows : Ledger.Follows db.ledger effects db'.ledger)
    (none : ∀ id row, .inserted id row ∉ effects)
    (cursor : db'.domain.backfillCursor = db.domain.backfillCursor) : Quiet db db' := by
  refine ⟨fun id waits => ?_, cursor⟩
  rcases waits_of_follows follows waits with before | ⟨row, inserted⟩
  · exact before
  · exact absurd inserted (none id row)

theorem KeepsAudit.cursor (keeps : KeepsAudit db db') :
    db'.domain.backfillCursor = db.domain.backfillCursor := by rw [keeps.domain]

theorem Revises.quiet {version : UInt64} {next : ObservationRow} {operation : OutboxOperation}
    (revises : Revises db db' id version row next generation operation) : Quiet db db' := by
  obtain ⟨key, revision, slot, owed, follows, -⟩ := revises.follows
  refine .of_follows follows (fun other row member => ?_) revises.only.keepsAudit.cursor
  simp at member

theorem Destroys.quiet {version : UInt64} {expectedRevisionId : Option String}
    {confirmationHash : String}
    (destroys : Destroys db db' draws changesetId id version expectedRevisionId confirmationHash
      row generation) : Quiet db db' := by
  obtain ⟨key, revision, slot, owed, follows, -⟩ := destroys.follows
  refine .of_follows follows (fun other row member => ?_) destroys.audit.cursor
  simp at member

theorem Removes.quiet (removes : Removes db db') : Quiet db db' := by
  obtain ⟨effects, follows, kinds⟩ := removes.follows
  refine .of_follows follows (fun id row member => ?_) (by rw [removes.rest])
  obtain ⟨_, same⟩ := kinds _ member
  cases same

/-- New observations wait until they are recorded. -/
theorem Written.waits (written : Written db ids db') (waits : db'.Waits id) :
    db.Waits id ∨ id ∈ ids := by
  obtain ⟨effects, follows, kinds⟩ := written.follows
  rcases waits_of_follows follows waits with before | ⟨row, inserted⟩
  · exact .inl before
  · obtain ⟨_, member, _, same, _⟩ := kinds _ inserted
    cases same
    exact .inr member

/-- What is recorded has a revision. -/
theorem recordRemembered_quiet
    (recorded : recordRemembered draws changesetId generation ordinal db index ids = .ok db') :
    Quiet db db' ∧ ∀ id ∈ ids, ¬ db'.Waits id := by
  induction ids generalizing db index with
  | nil =>
    cases recorded
    exact ⟨.refl _, fun _ member => nomatch member⟩
  | cons first rest ih =>
    obtain ⟨row, loaded, recorded⟩ := bind_eq_ok.mp recorded
    obtain ⟨revised, one, recorded⟩ := bind_eq_ok.mp recorded
    obtain ⟨owing, two, recorded⟩ := bind_eq_ok.mp recorded
    obtain ⟨noted, three, following⟩ := bind_eq_ok.mp recorded
    obtain ⟨later, headed⟩ := ih following
    obtain ⟨revisions, _, rfl⟩ := insertRevision_eq_ok one
    obtain ⟨outbox, _, rfl⟩ := insertOutbox_eq_ok two
    have events := insertOperationEvent_eventsOnly three
    have step : ∀ id, noted.Waits id → db.Waits id ∧ id ≠ first := by
      rintro id ⟨held, present, headless⟩
      rw [events] at present
      change (db.observations.modify first _).get? id = some held at present
      rw [Table.get?_modify] at present
      split at present
      · obtain ⟨before, _, rfl⟩ := Option.map_eq_some_iff.mp present
        cases headless
      · rename_i other
        exact ⟨⟨held, present, headless⟩, other⟩
    have quiet : Quiet db noted := by
      refine ⟨fun id waits => (step id waits).1, ?_⟩
      rw [events]
      rfl
    refine ⟨quiet.trans later, fun id member waits => ?_⟩
    rcases List.mem_cons.mp member with rfl | member
    · exact (step id (later.waits id waits)).2 rfl
    · exact headed id member waits

theorem recordGroups_quiet {outcomes : List RememberOutcome}
    (recorded : recordGroups draws changesetId generation db ordinal outcomes = .ok db') :
    Quiet db db' ∧ ∀ id ∈ outcomes.flatMap RememberOutcome.observationIds, ¬ db'.Waits id := by
  induction outcomes generalizing db ordinal with
  | nil =>
    cases recorded
    exact ⟨.refl _, fun _ member => nomatch member⟩
  | cons outcome rest ih =>
    obtain ⟨next, first, remaining⟩ := bind_eq_ok.mp recorded
    obtain ⟨before, headed⟩ := recordRemembered_quiet first
    obtain ⟨later, others⟩ := ih remaining
    refine ⟨before.trans later, fun id member waits => ?_⟩
    rw [List.flatMap_cons] at member
    rcases List.mem_append.mp member with here | there
    · exact headed id here (later.waits id waits)
    · exact others id there waits

/-- What is written and then recorded does not wait. -/
theorem Written.quiet (written : Written db ids db')
    (later : Quiet db' db'') (headed : ∀ id ∈ ids, ¬ db''.Waits id) : Quiet db db'' := by
  refine ⟨fun id waits => ?_, later.cursor.trans written.keepsAudit.cursor⟩
  rcases written.waits (later.waits id waits) with before | member
  · exact before
  · exact absurd waits (headed id member)

/-! ## Writes -/

variable [EntityMatching] {operation : ChangeOperation} {operations : List ChangeOperation}

theorem applyOperation_quiet
    (applied : db.applyOperation draws changesetId generation ordinal operation = .ok db') :
    Quiet db db' := by
  cases operation with
  | remember entityName entityType observations relations =>
    obtain ⟨⟨grouped, group⟩, first, recorded⟩ := bind_eq_ok.mp applied
    obtain ⟨later, headed⟩ := recordRemembered_quiet recorded
    exact (writeGroup_written first).quiet later headed
  | updateObservation observation version expectedRevisionId =>
    obtain ⟨_, _, revises, _⟩ := applyUpdate_revises applied
    exact revises.quiet
  | retireObservation id version =>
    obtain ⟨_, _, revises, _⟩ := applyLifecycle_revises applied
    exact revises.quiet
  | restoreObservation id version =>
    obtain ⟨_, _, revises, _⟩ := applyLifecycle_revises applied
    exact revises.quiet
  | revertObservation id revisionId version =>
    obtain ⟨_, _, _, revises, _⟩ := applyRevert_revises applied
    exact revises.quiet
  | destroyObservation id version expectedRevisionId confirmationHash =>
    obtain ⟨_, destroys⟩ := applyDestroy_destroys applied
    exact destroys.quiet

theorem applyOperations_quiet
    (applied : applyOperations draws changesetId generation db ordinal operations = .ok db') :
    Quiet db db' := by
  induction operations generalizing db ordinal with
  | nil =>
    cases applied
    exact .refl _
  | cons operation rest ih =>
    obtain ⟨next, first, applied⟩ := bind_eq_ok.mp applied
    exact (applyOperation_quiet first).trans (ih applied)

omit [EntityMatching] in
theorem insertChangeSet_quiet {row : ChangeSet}
    (inserted : db.insertChangeSet changesetId row = .ok db') : Quiet db db' := by
  obtain ⟨_, changeSets, _, rfl⟩ := insertChangeSet_eq_ok inserted
  exact .of_same rfl rfl

omit [EntityMatching] in
theorem insertRequests_quiet [PayloadCodec]
    (inserted : insertRequests changesetId db ordinal operations = .ok db') : Quiet db db' := by
  refine .of_same ?_ ?_ <;> rw [(insertRequests_eq_ok inserted).1]

omit [EntityMatching] in
theorem Closes.quiet {state : ChangeSetState} {committed : Option Nat} {eventType : String}
    {review : ReviewAuthorization} {reason : String}
    (closes : Closes db draws changesetId state committed eventType review reason db') :
    Quiet db db' := by
  refine .of_same ?_ ?_ <;> rw [closes.unchanged]

variable [Blake3] [PayloadCodec] {transaction : Transaction}

theorem Stores.quiet {draft : ChangeSetDraft} {mode : SubmitMode}
    (stores : Stores db draws draft mode db') : Quiet db db' := by
  cases stores with
  | proposed inserted requested =>
    exact (insertChangeSet_quiet inserted).trans (insertRequests_quiet requested)
  | applied inserted requested ran =>
    exact ((insertChangeSet_quiet inserted).trans (insertRequests_quiet requested)).trans
      ((applyOperations_quiet ran).trans (.of_same rfl rfl))

omit [EntityMatching] in
/-- What was written before a legacy change set is recorded in it. -/
theorem Written.quiet_of_legacy {outcomes : List RememberOutcome} {changeSource : String}
    (written : Written db (outcomes.flatMap RememberOutcome.observationIds) db')
    (recorded : db'.recordLegacyRemembers draws outcomes operations changeSource =
      .ok (db'', generation)) : Quiet db db'' := by
  obtain ⟨rowed, stored, noted, _, inserted, requested, ran, rfl, rfl⟩ :=
    recordLegacyRemembers_eq_ok recorded
  have bound : Quiet db' (db'.compatibilitySpaceId draws).1 := by
    unfold compatibilitySpaceId
    split
    · exact .refl _
    · exact .of_same rfl rfl
  obtain ⟨later, headed⟩ := recordGroups_quiet ran
  have close : Quiet noted (noted.commitGeneration (db'.domain.semanticGeneration + 1)) :=
    .of_same rfl rfl
  exact written.quiet ((((bound.trans (insertChangeSet_quiet inserted)).trans
    (insertRequests_quiet requested)).trans later).trans close) headed

omit [Blake3] [PayloadCodec] [EntityMatching] in
theorem putCheckpoints_quiet {checkpoint : Option (String × UInt64)} :
    Quiet db (db.putCheckpoints checkpoint) := by
  unfold putCheckpoints putCheckpoint
  split
  · split <;> exact .of_same rfl rfl
  · exact .refl _

omit [Blake3] [PayloadCodec] [EntityMatching] in
theorem addAccesses_quiet {accesses : List (String × UInt32)} :
    Quiet db (db.addAccesses accesses) := by
  obtain ⟨⟨effects, follows, kinds⟩, rest⟩ := @addAccesses_follows db accesses
  refine .of_follows follows (fun id row member => ?_) ?_
  · obtain ⟨_, _, same⟩ := kinds _ member
    cases same
  · rw [rest]

/-- **An audited write** leaves nothing without a revision, and the cursor where it is. -/
theorem perform_quiet (audited : transaction.Audited)
    (performed : db.perform transaction = .ok db') : Quiet db db' := by
  cases transaction with
  | submit draws draft mode =>
    obtain ⟨⟨_, submission⟩, submitted, rfl⟩ := map_eq_ok.mp performed
    obtain ⟨_, _, _, ⟨_, _, _, _, rfl, _⟩ | ⟨_, stores, _⟩⟩ := submitChangeset_eq_ok submitted
    · exact .refl _
    · exact stores.quiet
  | approve draws name version review =>
    obtain ⟨⟨_, changesetId⟩, approved, rfl⟩ := map_eq_ok.mp performed
    obtain ⟨row, ⟨_, rfl, _⟩ | ⟨_, operations, _, _, outcome⟩⟩ := approveChangeset_eq_ok approved
    · exact .refl _
    · rcases outcome with ⟨_, closes⟩ | ⟨_, applied, closed, ran, closes, rfl⟩
      · exact closes.quiet
      · exact ((applyOperations_quiet ran).trans closes.quiet).trans (.of_same rfl rfl)
  | reject draws name version review reason =>
    obtain ⟨⟨_, changesetId⟩, rejected, rfl⟩ := map_eq_ok.mp performed
    obtain ⟨row, ⟨_, rfl, _⟩ | ⟨_, closes⟩⟩ := rejectChangeset_eq_ok rejected
    · exact .refl _
    · exact closes.quiet
  | remember draws request =>
    obtain ⟨⟨_, remembered⟩, done, rfl⟩ := map_eq_ok.mp performed
    obtain ⟨middle, group, generation, first, second, _⟩ := remember_eq_ok done
    have written : Written db ([group.outcome].flatMap RememberOutcome.observationIds) middle := by
      rw [List.flatMap_singleton]
      exact writeGroup_written first
    exact written.quiet_of_legacy second
  | rememberBatch draws requests options =>
    obtain ⟨⟨_, remembered⟩, done, rfl⟩ := map_eq_ok.mp performed
    rcases rememberBatch_eq_ok done with ⟨_, rfl, _⟩ |
      ⟨middle, groups, last, generation, first, second, rfl, _⟩
    · exact putCheckpoints_quiet
    · exact ((writeGroups_written first).quiet_of_legacy second).trans putCheckpoints_quiet
  | bindSpace spaceId =>
    rw [bindSpaceId_eq_ok performed]
    exact .of_same rfl rfl
  | bindCompatibilitySpace draws =>
    cases performed
    unfold compatibilitySpaceId
    split
    · exact .refl _
    · exact .of_same rfl rfl
  | backfill draws limit => exact audited.elim
  | compact draws retentionSecs limit =>
    cases performed
    exact .of_same rfl rfl
  | preview draws observationId review ttlSecs =>
    obtain ⟨⟨_, preview⟩, previewed, rfl⟩ := map_eq_ok.mp performed
    obtain ⟨_, _, _, _, _, _, _, rfl⟩ := previewObservationDestruction_eq_ok previewed
    exact .of_same rfl rfl
  | importRaw entities observations relations => exact audited.elim
  | prune draws ttlSecs =>
    cases performed
    exact (@pruneWithTtl_removes db draws ttlSecs).quiet
  | forget entityId => exact (forgetEntityById_removes performed).quiet
  | addRelation draws fromEntityId toEntityId relationType weight source =>
    have only := addRelation_graphOnly performed
    exact .of_same only.observations only.keepsAudit.cursor
  | addAccesses accesses =>
    cases performed
    exact addAccesses_quiet
  | indexFailure key error =>
    cases performed
    exact .of_same rfl rfl
  | markApplied now keys =>
    cases performed
    exact .of_same rfl rfl

end Database

namespace Database

variable {db db' : Database} {draws : Draws} {id : String}

/-! ## Baselines -/

/-- Each of the observations got one revision, which is now its head, and nothing else
differs in observations and revisions. -/
structure Baselined (db : Database) (ids : List String) (db' : Database) : Prop where
  created : ∀ id ∈ ids, ∃ key revision row, db.revisions.get? key = none ∧
    db'.revisions.get? key = some revision ∧ db.observations.get? id = some row ∧
    row.currentRevisionId = none ∧ Ledger.Records revision id row none ∧
    db'.observations.get? id = some { row with currentRevisionId := some key }
  only : ∀ key revision, db.revisions.get? key = none → db'.revisions.get? key = some revision →
    revision.observationId ∈ ids ∧ ∃ row,
      db'.observations.get? revision.observationId = some row ∧ row.currentRevisionId = some key
  kept : ∀ key revision, db.revisions.get? key = some revision →
    db'.revisions.get? key = some revision
  elsewhere : ∀ id, id ∉ ids → db'.observations.get? id = db.observations.get? id

theorem Baselined.of_same (observations : db'.observations = db.observations)
    (revisions : db'.revisions = db.revisions) : Baselined db [] db' where
  created _ member := nomatch member
  only key revision absent held := by
    rw [revisions, absent] at held
    cases held
  kept _ _ held := revisions ▸ held
  elsewhere _ _ := by rw [observations]

/-- The first of a page, and then the others. -/
theorem Baselined.cons {noted : Database} {key : String} {revision : Revision}
    {row : ObservationRow} {rest : List String} (present : db.observations.get? id = some row)
    (headless : row.currentRevisionId = none) (new : db.revisions.get? key = none)
    (records : Ledger.Records revision id row none) (apart : id ∉ rest)
    (revisions : ∀ other, noted.revisions.get? other =
      if other = key then some revision else db.revisions.get? other)
    (observations : ∀ other, noted.observations.get? other =
      if other = id then some { row with currentRevisionId := some key }
      else db.observations.get? other)
    (others : Baselined noted rest db') : Baselined db (id :: rest) db' := by
  have held : db'.revisions.get? key = some revision := by
    refine others.kept key revision ?_
    rw [revisions, if_pos rfl]
  have headed : db'.observations.get? id = some { row with currentRevisionId := some key } := by
    rw [others.elsewhere id apart, observations, if_pos rfl]
  have kept : ∀ other earlier, db.revisions.get? other = some earlier →
      noted.revisions.get? other = some earlier := by
    intro other earlier stood
    rw [revisions, if_neg]
    · exact stood
    · rintro rfl
      rw [new] at stood
      cases stood
  constructor
  · intro other member
    rcases List.mem_cons.mp member with rfl | among
    · exact ⟨key, revision, row, new, held, present, headless, records, headed⟩
    · obtain ⟨otherKey, otherRevision, otherRow, fresh, stands, there, rest⟩ :=
        others.created other among
      refine ⟨otherKey, otherRevision, otherRow, ?_, stands, ?_, rest⟩
      · cases before : db.revisions.get? otherKey with
        | none => rfl
        | some earlier =>
          rw [kept otherKey earlier before] at fresh
          cases fresh
      · rw [observations, if_neg] at there
        · exact there
        · rintro rfl
          exact apart among
  · intro other newer absent stands
    by_cases here : other = key
    · subst here
      cases held.symm.trans stands
      rw [records.observation]
      exact ⟨List.mem_cons_self, _, headed, rfl⟩
    · have fresh : noted.revisions.get? other = none := by rw [revisions, if_neg here, absent]
      obtain ⟨member, head⟩ := others.only other newer fresh stands
      exact ⟨List.mem_cons_of_mem _ member, head⟩
  · intro other earlier stood
    exact others.kept other earlier (kept other earlier stood)
  · intro other away
    rw [List.mem_cons, not_or] at away
    rw [others.elsewhere other away.2, observations, if_neg away.1]

/-- The rows after the first of a page has its baseline. -/
theorem baseline_rows {noted revised : Database}
    (loaded : db.observations.get? id = some row) (headless : row.currentRevisionId = none)
    (first : db.insertObservationRevision (draws.revision 0 index) id row none draws.changeSet
      draws.now = .ok revised) (second : insertOperationEvent { revised with
      observations := revised.observations.modify id fun row => if row.currentRevisionId = none then
          { row with currentRevisionId := some (draws.revision 0 index).toText }
        else row } draws.changeSet index "baseline" id (some (draws.revision 0 index).toText)
          draws.now = .ok noted) (other : String) : noted.observations.get? other =
      if other = id then some { row with currentRevisionId := some (draws.revision 0 index).toText }
      else db.observations.get? other := by
  obtain ⟨revisions, _, rfl⟩ := insertRevision_eq_ok first
  rw [insertOperationEvent_eventsOnly second]
  change (db.observations.modify id _).get? other = _
  rw [Table.get?_modify]
  by_cases here : other = id
  · subst here
    rw [if_pos rfl, if_pos rfl, loaded, Option.map_some, if_pos headless]
  · rw [if_neg here, if_neg here]

/-- **The loop over a page.** -/
theorem insertBaselines_baselined (headless : Headless db ids)
    (inserted : insertBaselines draws db index ids = .ok db') : Baselined db ids db' := by
  induction ids generalizing db index with
  | nil =>
    cases inserted
    exact .of_same rfl rfl
  | cons id rest ih =>
    obtain ⟨row, loaded, inserted⟩ := bind_eq_ok.mp inserted
    obtain ⟨revised, first, inserted⟩ := bind_eq_ok.mp inserted
    obtain ⟨noted, second, following⟩ := bind_eq_ok.mp inserted
    rw [loadObservation_eq_ok] at loaded
    obtain ⟨held, present, no_head⟩ := headless.rows id List.mem_cons_self
    cases loaded.symm.trans present
    have observations := baseline_rows loaded no_head first second
    obtain ⟨revisions, added, rfl⟩ := insertRevision_eq_ok first
    have records : Ledger.Records ⟨id, row.semantic, none, draws.changeSet, draws.now,
        row.lifecycle⟩ id row none := ⟨rfl, rfl, rfl, rfl⟩
    refine Baselined.cons loaded no_head (Table.absent_of_insert added) records
      (List.nodup_cons.mp headless.distinct).1 (fun other => ?_) observations
      (ih (headless.rest fun other apart => by rw [observations, if_neg apart]) following)
    rw [insertOperationEvent_eventsOnly second]
    exact Table.get?_insert added other

theorem failsWith_insertBaselines (headless : Headless db ids) :
    FailsWith MemoryError.IsSqlite (insertBaselines draws db index ids) := by
  induction ids generalizing db index with
  | nil => trivial
  | cons id rest ih =>
    obtain ⟨row, present, no_head⟩ := headless.rows id List.mem_cons_self
    refine failsWith_bind (failsWith_of_eq_ok (loadObservation_eq_ok.mpr present))
      fun loaded same => ?_
    rw [loadObservation_eq_ok] at same
    cases present.symm.trans same
    refine failsWith_bind failsWith_insertRevision fun revised first =>
      failsWith_bind failsWith_insertEvent fun noted second => ih ?_
    exact headless.rest fun other apart => by
      rw [baseline_rows present no_head first second, if_neg apart]

/-- What a page leaves without a revision. -/
theorem Baselined.waits_iff (baselined : Baselined db ids db') :
    db'.Waits id ↔ db.Waits id ∧ id ∉ ids := by
  by_cases member : id ∈ ids
  · obtain ⟨key, revision, row, -, -, -, -, -, headed⟩ := baselined.created id member
    refine iff_of_false ?_ fun both => both.2 member
    rintro ⟨after, present, headless⟩
    cases headed.symm.trans present
    cases headless
  · unfold Waits
    rw [baselined.elsewhere id member]
    exact (and_iff_left member).symm

/-! ## Pages -/

/-- The id lies behind the cursor, if there is one. -/
def Behind (cursor : Option String) (id : String) : Prop := ∀ last ∈ cursor, last < id

/-- The waiting observations behind the cursor, in the order of their ids. -/
def backfillQueue (db : Database) : List String :=
  ((db.observations.entries.filter fun entry =>
    entry.2.currentRevisionId = none ∧
      db.domain.backfillCursor.all fun cursor => cursor < entry.1).map Prod.fst).insertionSort
    (· ≤ ·)

theorem backfillPage_eq : db.backfillPage limit = db.backfillQueue.take limit := rfl

theorem mem_backfillQueue :
    id ∈ db.backfillQueue ↔ db.Waits id ∧ Behind db.domain.backfillCursor id := by
  have behind : (db.domain.backfillCursor.all fun cursor => cursor < id) = true ↔
      Behind db.domain.backfillCursor id := by
    unfold Behind
    cases db.domain.backfillCursor with
    | none => simp
    | some cursor => simp
  rw [← behind]
  unfold backfillQueue Waits
  rw [(List.perm_insertionSort _ _).mem_iff, List.mem_map]
  constructor
  · rintro ⟨⟨key, row⟩, member, rfl⟩
    obtain ⟨held, waiting⟩ := List.mem_filter.mp member
    obtain ⟨headless, later⟩ := of_decide_eq_true waiting
    exact ⟨⟨row, Table.get?_eq_some_iff.mpr held, headless⟩, later⟩
  · rintro ⟨⟨row, present, headless⟩, later⟩
    exact ⟨(id, row), List.mem_filter.mpr ⟨Table.get?_eq_some_iff.mp present,
      decide_eq_true ⟨headless, later⟩⟩, rfl⟩

theorem backfillQueue_increasing : db.backfillQueue.Pairwise (· < ·) := by
  have distinct : db.backfillQueue.Nodup := by
    refine (List.perm_insertionSort _ _).nodup_iff.mpr ?_
    exact db.observations.distinct.sublist (List.filter_sublist.map Prod.fst)
  have sorted : db.backfillQueue.Pairwise (· ≤ ·) := List.pairwise_insertionSort _ _
  exact (sorted.and distinct).imp fun both => lt_of_le_of_ne both.1 both.2

def backfillLimit (limit : Nat) : Nat := max 1 (min limit 1024)

/-- An id that a call passes: one behind the cursor, up to where the cursor is then, or any
such id where the call completes the backfill. -/
def Passes (db : Database) (limit : Nat) (id : String) : Prop :=
  Behind db.domain.backfillCursor id ∧
    ((db.backfillReport limit).complete = true ∨
      ∃ cursor, (db.backfillReport limit).nextCursor = some cursor ∧ id ≤ cursor)

theorem backfillReport_of_none (empty : db.backfillPage (backfillLimit limit) = []) :
    db.backfillReport limit = ⟨0, db.domain.backfillCursor, true⟩ := if_pos empty

theorem backfillReport_of_some (some_left : db.backfillPage (backfillLimit limit) ≠ []) :
    db.backfillReport limit = ⟨(db.backfillPage (backfillLimit limit)).length,
      (db.backfillPage (backfillLimit limit)).getLast?,
      decide ((db.backfillPage (backfillLimit limit)).length < backfillLimit limit)⟩ :=
  if_neg some_left

theorem backfillPage_of_complete (complete : (db.backfillReport limit).complete = true) :
    db.backfillPage (backfillLimit limit) = db.backfillQueue := by
  have short : (db.backfillPage (backfillLimit limit)).length < backfillLimit limit := by
    by_cases empty : db.backfillPage (backfillLimit limit) = []
    · rw [empty]
      exact Nat.lt_of_lt_of_le Nat.zero_lt_one (Nat.le_max_left 1 _)
    · rw [backfillReport_of_some empty] at complete
      exact of_decide_eq_true complete
  rw [backfillPage_eq, List.length_take, min_lt_iff] at short
  exact List.take_of_length_le (short.resolve_left (lt_irrefl _)).le

/-- **The observations of a page** are the waiting ones that the call passes. -/
theorem mem_backfillPage :
    id ∈ db.backfillPage (backfillLimit limit) ↔ db.Waits id ∧ db.Passes limit id := by
  unfold Passes
  by_cases complete : (db.backfillReport limit).complete = true
  · rw [backfillPage_of_complete complete, mem_backfillQueue]
    simp only [complete, true_or, and_true]
  · have some_left : db.backfillPage (backfillLimit limit) ≠ [] := by
      intro empty
      rw [backfillReport_of_none empty] at complete
      exact complete rfl
    have cursor : (db.backfillReport limit).nextCursor =
        (db.backfillPage (backfillLimit limit)).getLast? := by
      rw [backfillReport_of_some some_left]
    obtain ⟨last, ends⟩ := Option.isSome_iff_exists.mp (List.getLast?_isSome.mpr some_left)
    have page := @mem_take_iff String String _ (fun text => text) _ backfillQueue_increasing _ last
      ends id
    rw [backfillPage_eq, page, mem_backfillQueue, or_iff_right complete, cursor, ends]
    simp only [Option.some.injEq, exists_eq_left', and_assoc]

/-- **A call of the backfill** gives the waiting observations that it passes a revision, and
moves the cursor as it reports. -/
theorem backfillAudit_baselined [Blake3] (done : db.backfillAudit draws limit = .ok db') :
    Baselined db (db.backfillPage (backfillLimit limit)) db' ∧
      db'.domain.backfillCursor = (db.backfillReport limit).nextCursor ∧
      db'.domain.backfillComplete = (db.backfillReport limit).complete := by
  unfold backfillAudit at done
  dsimp only at done
  obtain ⟨spaceId, bound, done⟩ := bind_eq_ok.mp done
  split at done
  · rename_i empty
    cases done
    rw [backfillReport_of_none empty]
    change db.backfillPage (backfillLimit limit) = [] at empty
    rw [empty]
    exact ⟨.of_same rfl rfl, rfl, rfl⟩
  · rename_i some_left
    obtain ⟨rowed, first, done⟩ := bind_eq_ok.mp done
    obtain ⟨noted, second, finished⟩ := bind_eq_ok.mp done
    cases finished
    rw [backfillReport_of_some some_left]
    refine ⟨?_, rfl, rfl⟩
    obtain ⟨_, changeSets, _, rfl⟩ := insertChangeSet_eq_ok first
    have page : Headless { db with changeSets } (db.backfillPage (backfillLimit limit)) := by
      obtain ⟨distinct, rows⟩ := @backfillPage_headless db (backfillLimit limit)
      exact ⟨distinct, rows⟩
    obtain ⟨created, only, kept, elsewhere⟩ := insertBaselines_baselined page second
    exact ⟨created, only, kept, elsewhere⟩

/-- A call fails only for want of a space, or with SQLite. -/
theorem failsWith_backfillAudit [Blake3] (bound : db.spaceId ≠ none) :
    FailsWith MemoryError.IsSqlite (db.backfillAudit draws limit) := by
  unfold backfillAudit
  refine failsWith_bind (failsWith_orRefuse fun unbound => absurd unbound bound) fun spaceId _ => ?_
  dsimp only
  split
  · trivial
  · refine failsWith_bind failsWith_insertChangeSet fun rowed first => ?_
    obtain ⟨_, changeSets, _, rfl⟩ := insertChangeSet_eq_ok first
    refine failsWith_bind (failsWith_insertBaselines ?_) fun _ _ => trivial
    obtain ⟨distinct, rows⟩ := @backfillPage_headless db (backfillLimit limit)
    exact ⟨distinct, rows⟩

end Database

end OpenMemory.Graph
