import OpenMemory.Graph.WriteEffects

/-!
# The moves of a store along its runs

Every transaction is a list of moves of the ledger (`perform_moves`), and only
those that apply change sets revise observations. So what the moves preserve
holds in every reachable state: a database that was just created or
migrated, and then any run of transactions.
-/

namespace OpenMemory.Graph

open Foundation
open Merge (Blake3)

namespace Database

variable {db db' : Database} {draws : Draws} {changesetId : ChangeSetId}

/-- **A change set that is applied.** -/
theorem Stores.effects [Blake3] [PayloadCodec] [EntityMatching] {draft : ChangeSetDraft}
    {mode : SubmitMode} (stores : Stores db draws draft mode db') :
    ∃ effects, Ledger.Follows db.ledger effects db'.ledger := by
  cases stores with
  | proposed inserted requested =>
    obtain ⟨_, changeSets, _, rfl⟩ := insertChangeSet_eq_ok inserted
    refine ⟨[], ?_⟩
    rw [(insertRequests_eq_ok requested).1]
    rfl
  | applied inserted requested ran =>
    obtain ⟨_, changeSets, _, rfl⟩ := insertChangeSet_eq_ok inserted
    obtain ⟨effects, follows⟩ := (applyOperations_applied ran).effects
    rw [(insertRequests_eq_ok requested).1] at follows
    exact ⟨effects, follows⟩

theorem Closes.unchanged {state : ChangeSetState} {generation : Option Nat} {eventType : String}
    {review : ReviewAuthorization} {reason : String}
    (closes : Closes db draws changesetId state generation eventType review reason db') :
    db' = { db with changeSets := (db.closeProposal changesetId state generation
      draws.now).changeSets, events := db'.events } := by
  obtain ⟨noted⟩ := closes
  rw [insertEvent_eventsOnly noted]
  rfl

theorem Closes.ledger {state : ChangeSetState} {generation : Option Nat} {eventType : String}
    {review : ReviewAuthorization} {reason : String}
    (closes : Closes db draws changesetId state generation eventType review reason db') :
    db'.ledger = db.ledger := by
  rw [closes.unchanged]
  rfl

theorem putCheckpoints_ledger {checkpoint : Option (String × UInt64)} :
    (db.putCheckpoints checkpoint).ledger = db.ledger := by
  unfold putCheckpoints putCheckpoint
  split <;> [split; skip] <;> rfl

theorem bindSpaceId_eq_ok {spaceId : SpaceId} (bound : db.bindSpaceId spaceId = .ok db') :
    db' = { db with spaceId := some spaceId } := by
  unfold bindSpaceId at bound
  split at bound
  · rename_i existing held
    obtain ⟨_, same, finished⟩ := bind_eq_ok.mp bound
    cases finished
    rw [refuseIf_eq_ok, not_not] at same
    rw [← same, ← held]
  · cases bound
    rfl

theorem compatibilitySpaceId_ledger : (db.compatibilitySpaceId draws).1.ledger = db.ledger := by
  unfold compatibilitySpaceId
  split <;> rfl

/-- A preview stores one confirmation. -/
theorem previewObservationDestruction_eq_ok [Blake3] {observationId : String}
    {review : ReviewAuthorization} {ttlSecs : Int64} {preview : DestructionPreview}
    (previewed : db.previewObservationDestruction draws observationId review ttlSecs =
      .ok (db', preview)) :
    ∃ spaceId row confirmations, review.role = .maintainer ∧ db.spaceId = some spaceId ∧
      db.observations.get? observationId = some row ∧
      db.confirmations.insert (destructionTokenHash draws.confirmation.toText)
        (db.confirmationOf draws spaceId observationId row review ttlSecs) uniqueViolation =
          .ok confirmations ∧
      db' = { db with confirmations } := by
  unfold previewObservationDestruction boundSpaceId at previewed
  obtain ⟨_, maintainer, previewed⟩ := bind_eq_ok.mp previewed
  obtain ⟨spaceId, bound, previewed⟩ := bind_eq_ok.mp previewed
  obtain ⟨row, loaded, previewed⟩ := bind_eq_ok.mp previewed
  obtain ⟨confirmations, inserted, finished⟩ := bind_eq_ok.mp previewed
  cases finished
  rw [refuseIf_eq_ok, not_not] at maintainer
  rw [orRefuse_eq_ok] at bound
  rw [loadObservation_eq_ok] at loaded
  exact ⟨spaceId, row, confirmations, maintainer, bound, loaded, inserted, rfl⟩

theorem addRelation_graphOnly {fromEntityId toEntityId relationType source : String}
    {weight : Option Float32Bits}
    (added : db.addRelation draws fromEntityId toEntityId relationType weight source = .ok db') :
    GraphOnly db db' := by
  unfold addRelation at added
  obtain ⟨_, _, added⟩ := bind_eq_ok.mp added
  obtain ⟨_, _, added⟩ := bind_eq_ok.mp added
  obtain ⟨_, _, added⟩ := bind_eq_ok.mp added
  obtain ⟨_, _, related⟩ := bind_eq_ok.mp added
  exact insertRelation_graphOnly related

/-! ## The moves of each transaction -/

variable [Blake3] [PayloadCodec] [EntityMatching] {transaction : Transaction}

/-- A submission or the approval of a proposal: what applies change sets. -/
def AppliesChangeSets : Transaction → Prop
  | .submit .. | .approve .. => True
  | _ => False

/-- A transaction went from one database to another by moves of the ledger, and revised
observations only if it is one of those that apply change sets. -/
def MovesTo (db : Database) (transaction : Transaction) (db' : Database) : Prop :=
  ∃ effects, Ledger.Follows db.ledger effects db'.ledger ∧
    (¬ AppliesChangeSets transaction → Unrevised effects)

omit [Blake3] [PayloadCodec] [EntityMatching] in
theorem MovesTo.of_unchanged (same : db'.ledger = db.ledger) : db.MovesTo transaction db' :=
  ⟨[], same.symm, fun _ _ member => nomatch member⟩

theorem submit_moves {draft : ChangeSetDraft} {mode : SubmitMode} {submission : Submission}
    (submitted : db.submitChangeset draws draft mode = .ok (db', submission)) :
    db.MovesTo (.submit draws draft mode) db' := by
  obtain ⟨_, _, _, ⟨id, row, _, _, rfl, _⟩ | ⟨_, stores, _⟩⟩ := submitChangeset_eq_ok submitted
  · exact .of_unchanged rfl
  · obtain ⟨effects, follows⟩ := stores.effects
    exact ⟨effects, follows, fun other => absurd trivial other⟩

theorem approve_moves {name : String} {version : UInt64} {review : ReviewAuthorization}
    (approved : db.approveChangeset draws name version review = .ok (db', changesetId)) :
    db.MovesTo (.approve draws name version review) db' := by
  obtain ⟨row, ⟨_, rfl, _⟩ | ⟨_, operations, _, _, outcome⟩⟩ := approveChangeset_eq_ok approved
  · exact .of_unchanged rfl
  · rcases outcome with ⟨_, closes⟩ | ⟨_, applied, closed, ran, closes, rfl⟩
    · exact .of_unchanged closes.ledger
    · obtain ⟨effects, follows⟩ := (applyOperations_applied ran).effects
      have same : (closed.commitGeneration (db.domain.semanticGeneration + 1)).ledger =
          applied.ledger := closes.ledger
      refine ⟨effects, ?_, fun other => absurd trivial other⟩
      rw [same]
      exact follows

theorem remember_eq_ok {request : RememberRequest} {remembered : Remembered}
    (done : db.remember draws request = .ok (db', remembered)) :
    ∃ middle group generation,
      db.writeGroup draws 0 request.name request.entityType request.observations
        request.relations request.source draws.now true = .ok (middle, group) ∧
      middle.recordLegacyRemembers draws [group.outcome] [rememberOperation request]
        request.source = .ok (db', generation) ∧
      remembered = ⟨[(request.name, group)], some generation⟩ := by
  unfold remember at done
  obtain ⟨_, _, done⟩ := bind_eq_ok.mp done
  obtain ⟨⟨middle, group⟩, first, done⟩ := bind_eq_ok.mp done
  obtain ⟨⟨last, generation⟩, second, finished⟩ := bind_eq_ok.mp done
  cases finished
  exact ⟨middle, group, generation, first, second, rfl⟩

theorem rememberBatch_eq_ok {requests : List RememberRequest} {options : BatchOptions}
    {remembered : Remembered}
    (done : db.rememberBatch draws requests options = .ok (db', remembered)) :
    (requests = [] ∧ db' = db.putCheckpoints options.checkpoint ∧ remembered = ⟨[], none⟩) ∨
      ∃ middle groups last generation,
        writeGroups draws options.normalize db 0 requests = .ok (middle, groups) ∧
        middle.recordLegacyRemembers draws (groups.map GroupWrite.outcome)
          (requests.map rememberOperation) "compatibility-batch" = .ok (last, generation) ∧
        db' = last.putCheckpoints options.checkpoint ∧
        remembered = ⟨(requests.map RememberRequest.name).zip groups, some generation⟩ := by
  unfold rememberBatch at done
  obtain ⟨_, _, done⟩ := bind_eq_ok.mp done
  obtain ⟨⟨middle, groups⟩, first, done⟩ := bind_eq_ok.mp done
  cases requests with
  | nil =>
    cases first
    cases done
    exact .inl ⟨rfl, rfl, rfl⟩
  | cons request rest =>
    obtain ⟨⟨last, generation⟩, second, finished⟩ := bind_eq_ok.mp done
    cases finished
    exact .inr ⟨middle, groups, last, generation, first, second, rfl, rfl⟩

theorem remember_moves {request : RememberRequest} {remembered : Remembered}
    (done : db.remember draws request = .ok (db', remembered)) :
    db.MovesTo (.remember draws request) db' := by
  obtain ⟨middle, group, generation, first, second, _⟩ := remember_eq_ok done
  have written : Written db ([group.outcome].flatMap RememberOutcome.observationIds) middle := by
    simpa using writeGroup_written first
  obtain ⟨effects, follows, unrevised⟩ := remembered_follows written second
  exact ⟨effects, follows, fun _ => unrevised⟩

theorem rememberBatch_moves {requests : List RememberRequest} {options : BatchOptions}
    {remembered : Remembered}
    (done : db.rememberBatch draws requests options = .ok (db', remembered)) :
    db.MovesTo (.rememberBatch draws requests options) db' := by
  rcases rememberBatch_eq_ok done with ⟨_, rfl, _⟩ |
    ⟨middle, groups, last, generation, first, second, rfl, _⟩
  · exact .of_unchanged putCheckpoints_ledger
  · obtain ⟨effects, follows, unrevised⟩ := remembered_follows (writeGroups_written first) second
    refine ⟨effects, ?_, fun _ => unrevised⟩
    rw [putCheckpoints_ledger]
    exact follows

omit [PayloadCodec] [EntityMatching] in
theorem backfill_moves {limit : Nat} (done : db.backfillAudit draws limit = .ok db') :
    db.MovesTo (.backfill draws limit) db' := by
  rcases backfillAudit_eq_ok done with rfl |
    ⟨spaceId, rowed, noted, domain, _, first, second, rfl, _⟩
  · exact .of_unchanged rfl
  · obtain ⟨_, changeSets, _, rfl⟩ := insertChangeSet_eq_ok first
    have page : Headless { db with changeSets } (db.backfillPage (max 1 (min limit 1024))) := by
      obtain ⟨distinct, rows⟩ := @backfillPage_headless db _
      exact ⟨distinct, rows⟩
    obtain ⟨⟨effects, follows, kinds⟩, _⟩ := insertBaselines_follows page second
    refine ⟨effects, follows, fun _ effect member => ?_⟩
    obtain ⟨_, _, _, _, _, rfl⟩ := kinds effect member
    rfl

omit [Blake3] [PayloadCodec] [EntityMatching] in
theorem Removes.moves (removes : Removes db db') : db.MovesTo transaction db' := by
  obtain ⟨effects, follows, kinds⟩ := removes.follows
  refine ⟨effects, follows, fun _ effect member => ?_⟩
  obtain ⟨_, rfl⟩ := kinds effect member
  rfl

omit [Blake3] [PayloadCodec] [EntityMatching] in
theorem MovesTo.of_noted {note : Nat × Nat → OutboxRow → OutboxRow}
    (moved : Ledger.Moves db.ledger (.noted note) db'.ledger) : db.MovesTo transaction db' :=
  ⟨_, .single moved, fun _ effect member => by rw [List.mem_singleton.mp member]; rfl⟩

/-- **Every transaction is a list of moves.** -/
theorem perform_moves (performed : db.perform transaction = .ok db') :
    db.MovesTo transaction db' := by
  cases transaction with
  | submit draws draft mode =>
    obtain ⟨⟨_, submission⟩, submitted, rfl⟩ := map_eq_ok.mp performed
    exact submit_moves submitted
  | approve draws name version review =>
    obtain ⟨⟨_, changesetId⟩, approved, rfl⟩ := map_eq_ok.mp performed
    exact approve_moves approved
  | reject draws name version review reason =>
    obtain ⟨⟨_, changesetId⟩, rejected, rfl⟩ := map_eq_ok.mp performed
    obtain ⟨row, ⟨_, rfl, _⟩ | ⟨_, closes⟩⟩ := rejectChangeset_eq_ok rejected
    · exact .of_unchanged rfl
    · exact .of_unchanged closes.ledger
  | remember draws request =>
    obtain ⟨⟨_, remembered⟩, done, rfl⟩ := map_eq_ok.mp performed
    exact remember_moves done
  | rememberBatch draws requests options =>
    obtain ⟨⟨_, remembered⟩, done, rfl⟩ := map_eq_ok.mp performed
    exact rememberBatch_moves done
  | bindSpace spaceId =>
    refine .of_unchanged ?_
    rw [bindSpaceId_eq_ok performed]
    rfl
  | bindCompatibilitySpace draws =>
    cases performed
    exact .of_unchanged compatibilitySpaceId_ledger
  | backfill draws limit => exact backfill_moves performed
  | compact draws retentionSecs limit =>
    cases performed
    exact .of_unchanged rfl
  | preview draws observationId review ttlSecs =>
    obtain ⟨⟨_, preview⟩, previewed, rfl⟩ := map_eq_ok.mp performed
    obtain ⟨_, _, _, _, _, _, _, rfl⟩ := previewObservationDestruction_eq_ok previewed
    exact .of_unchanged rfl
  | importRaw entities observations relations =>
    obtain ⟨⟨effects, follows, kinds⟩, _⟩ := importRaw_follows performed
    refine ⟨effects, follows, fun _ effect member => ?_⟩
    obtain ⟨_, _, rfl⟩ := kinds effect member
    rfl
  | prune draws ttlSecs =>
    cases performed
    exact pruneWithTtl_removes.moves
  | forget entityId => exact (forgetEntityById_removes performed).moves
  | addRelation draws fromEntityId toEntityId relationType weight source =>
    exact .of_unchanged (addRelation_graphOnly performed).ledger
  | addAccesses accesses =>
    cases performed
    obtain ⟨⟨effects, follows, kinds⟩, _⟩ := @addAccesses_follows db accesses
    refine ⟨effects, follows, fun _ effect member => ?_⟩
    obtain ⟨_, _, rfl⟩ := kinds effect member
    rfl
  | indexFailure key error =>
    cases performed
    obtain ⟨note, moved⟩ := @recordIndexFailure_moves db key error
    exact .of_noted moved
  | markApplied now keys =>
    cases performed
    obtain ⟨note, moved⟩ := @markIndexRowsApplied_moves db now keys
    exact .of_noted moved

/-! ## Reachable states -/

/-- A database that was just created, or migrated from a schema without an audit
trail: rows without revisions, all active in their first version, whatever
their tombstones say; nothing audited yet. -/
structure Migrated (db : Database) : Prop where
  rows : ∀ id row, db.observations.get? id = some row → Ledger.Fresh row
  revisions : db.revisions = .empty
  changeSets : db.changeSets = .empty
  requests : db.requests = .empty
  events : db.events = .empty
  outbox : db.outbox = .empty
  confirmations : db.confirmations = .empty
  destructions : db.destructions = .empty
  domain : db.domain = .initial

omit [Blake3] [PayloadCodec] [EntityMatching] in
theorem migrated_initial : Migrated .initial := by
  refine ⟨fun id row present => ?_, rfl, rfl, rfl, rfl, rfl, rfl, rfl, rfl⟩
  cases present

/-- A database that transactions reach from a new or migrated one. -/
def Reachable (db : Database) : Prop :=
  ∃ start transactions, Migrated start ∧ runs performs start transactions = some db

theorem performs_eq_some : db.performs transaction = some db' ↔ db.perform transaction = .ok db' :=
  toOption_eq_some

/-- **The rule for reachable states.** -/
theorem Reachable.invariant {motive : Database → Prop} (reachable : Reachable db)
    (start : ∀ db, Migrated db → motive db)
    (preserved : ∀ db transaction db', motive db → db.perform transaction = .ok db' →
      motive db') : motive db := by
  obtain ⟨first, transactions, migrated, run⟩ := reachable
  exact invariant_of_runs (start first migrated) (fun db transaction db' held performed =>
    preserved db transaction db' held (performs_eq_some.mp performed)) run

theorem Migrated.reachable (migrated : Migrated db) : Reachable db := ⟨db, [], migrated, rfl⟩

/-- An observation that is not deleted is active. -/
def Aligned (db : Database) : Prop :=
  ∀ id row, db.observations.get? id = some row → row.tombstoned = false → row.lifecycle = .active

/-- **Tombstones and lifecycles agree** in every reachable state, but for rows that were
migrated or imported as deleted. -/
theorem Reachable.aligned (reachable : Reachable db) : db.Aligned := by
  refine reachable.invariant (motive := fun db => db.Aligned)
    (fun db migrated id row present _ => (migrated.rows id row present).lifecycle)
    fun db transaction db' aligned performed id row => ?_
  obtain ⟨effects, follows, _⟩ := perform_moves performed
  have kept := Ledger.Follows.invariant (motive := fun ledger => ∀ id row,
    ledger.observations id = some row → row.tombstoned = false → row.lifecycle = .active) follows
    aligned fun before effect _ after held moved id row present live => ?_
  · exact kept id row
  · cases moved.rowChange id with
    | kept same => exact held id row (same ▸ present) live
    | inserted absent fresh now =>
      cases now.symm.trans present
      exact fresh.lifecycle
    | headed before _ _ _ _ now =>
      cases now.symm.trans present
      have state := held id _ before live
      exact state
    | @revised old next key revision before advances _ _ _ now =>
      cases now.symm.trans present
      cases state : row.lifecycle with
      | active => rfl
      | retired =>
        rw [advances.inStep.1.mpr state] at live
        cases live
      | destroyed => exact absurd state advances.inStep.2
    | destroyed _ _ now =>
      rw [now] at present
      cases present
    | removed now =>
      rw [now] at present
      cases present
    | accessed before now =>
      cases now.symm.trans present
      have state := held id _ before live
      exact state

end Database

end OpenMemory.Graph
