import OpenMemory.Graph.DurableCalls
import OpenMemory.Graph.Reachable
import OpenMemory.Graph.Guarantees.AuditBounds

/-!
# What an error says about the rows

A call that reports an error should have written nothing, so that it may be tried
again. Before the commit that is so: a transaction that fails leaves the database as it
was. But the calls go on after their commit, and some of what they do there is
reported as an error of the call: the marks of the outbox, and the read of the receipt.

So an error means that nothing was written, except where the transaction stored
something and then a failure strikes the mark or the receipt.
-/

namespace OpenMemory.Graph

open Foundation
open Merge (Blake3)

namespace Database

/-- The canonical rows are the same. -/
structure Unwritten (db after : Database) : Prop where
  entities : after.entities = db.entities
  observations : after.observations = db.observations
  relations : after.relations = db.relations
  revisions : after.revisions = db.revisions
  changeSets : after.changeSets = db.changeSets
  checkpoints : after.checkpoints = db.checkpoints

theorem Unwritten.refl (db : Database) : Unwritten db db := ⟨rfl, rfl, rfl, rfl, rfl, rfl⟩

variable {db db' middle : Database} {draws : Draws} {id : ChangeSetId} {schedule : Schedule}
  {request : RememberRequest} {requests : List RememberRequest} {options : BatchOptions}
  {remembered : Remembered}

/-! ## What commits leave -/

/-- A change set entered. -/
structure Enters (db : Database) (id : ChangeSetId) (db' : Database) : Prop where
  absent : db.changeSets.get? id = none
  present : ∃ row, db'.changeSets.get? id = some row

theorem Enters.written (enters : Enters db id db') : ¬ Unwritten db db' := by
  intro unwritten
  obtain ⟨row, present⟩ := enters.present
  rw [unwritten.changeSets, enters.absent] at present
  cases present

theorem insertChangeSet_enters {row : ChangeSet}
    (inserted : db.insertChangeSet id row = .ok db') : Enters db id db' := by
  obtain ⟨_, changeSets, added, rfl⟩ := insertChangeSet_eq_ok inserted
  refine ⟨Table.absent_of_insert added, row, ?_⟩
  change changeSets.get? id = some row
  rw [Table.get?_insert added, if_pos rfl]

theorem Enters.then {last : Database} (enters : Enters db id db')
    (same : last.changeSets = db'.changeSets) : Enters db id last := by
  refine ⟨enters.absent, ?_⟩
  rw [same]
  exact enters.present

section Remember

variable [Blake3] [PayloadCodec] {outcomes : List RememberOutcome}
  {operations : List ChangeOperation} {changeSource : String} {generation : Nat}

/-- A compatibility write enters a change set. -/
theorem remembered_enters
    (written : Written db (outcomes.flatMap RememberOutcome.observationIds) middle)
    (recorded : middle.recordLegacyRemembers draws outcomes operations changeSource =
      .ok (db', generation)) : Enters db draws.changeSet db' := by
  obtain ⟨rowed, stored, noted, _, inserted, requested, ran, rfl, rfl⟩ :=
    recordLegacyRemembers_eq_ok recorded
  obtain ⟨_, observations, _, _⟩ := legacy_unchanged inserted requested
  have headless : Headless stored (outcomes.flatMap RememberOutcome.observationIds) := by
    refine ⟨written.distinct, ?_⟩
    rw [observations]
    exact written.headless
  obtain ⟨_, only⟩ := recordGroups_follows headless ran
  have entered := insertChangeSet_enters inserted
  have same : stored.changeSets = rowed.changeSets := by rw [(insertRequests_eq_ok requested).1]
  have before : (middle.compatibilitySpaceId draws).1.changeSets = db.changeSets := by
    rw [show (middle.compatibilitySpaceId draws).1.changeSets = middle.changeSets by
      unfold compatibilitySpaceId
      split <;> rfl, written.keepsAudit.changeSets]
  refine Enters.then ⟨before ▸ entered.absent, entered.present⟩ ?_
  exact only.keepsAudit.changeSets.trans same

variable [EntityMatching]

omit [Blake3] [PayloadCodec] in
/-- A group has something to publish when it has observations. -/
theorem writeGroup_payload {index : Nat} {name source : String} {entityType : EntityType}
    {observations : List ObservationInput} {relations : List RelationInput} {now : Int64}
    {normalize : Bool} {group : GroupWrite}
    (written : db.writeGroup draws index name entityType observations relations source now
      normalize = .ok (db', group)) : group.payload = [] ↔ observations = [] := by
  obtain ⟨⟨_, _, _⟩, _, written⟩ := bind_eq_ok.mp written
  obtain ⟨_, _, written⟩ := bind_eq_ok.mp written
  obtain ⟨_, _, finished⟩ := bind_eq_ok.mp written
  cases finished
  simp

omit [Blake3] [PayloadCodec] in
theorem writeGroups_payload {normalize : Bool} {index : Nat} {groups : List GroupWrite}
    (written : writeGroups draws normalize db index requests = .ok (db', groups)) :
    (∀ group ∈ (requests.map RememberRequest.name).zip groups, group.2.payload = []) ↔
      ∀ request ∈ requests, request.observations = [] := by
  induction requests generalizing db index groups with
  | nil =>
    cases written
    simp
  | cons request rest ih =>
    obtain ⟨⟨next, group⟩, first, written⟩ := bind_eq_ok.mp written
    obtain ⟨⟨last, more⟩, others, finished⟩ := bind_eq_ok.mp written
    cases finished
    rw [List.map_cons, List.zip_cons_cons, List.forall_mem_cons, List.forall_mem_cons, ih others,
      writeGroup_payload first]

end Remember

/-! ## What comes after the commits -/

/-- A compatibility write reports an error after its commit exactly when the marks fail. -/
theorem finishRemember_keeps (before : Database) :
    (∀ error, (finishRemember schedule db remembered).2 = .error error →
        Unwritten before (finishRemember schedule db remembered).1) ↔
      (remembered.generation ≠ none → published schedule remembered → schedule.mark ≠ none →
        Unwritten before db) := by
  unfold finishRemember
  cases remembered.generation with
  | none => simp
  | some generation =>
    by_cases fresh : published schedule remembered
    · cases mark : schedule.mark with
      | none => simp [fresh]
      | some error => simp [fresh]
    · simp [fresh]

theorem repairIndex_keeps (steps : List RepairStep) :
    Unwritten db (db.repairIndex steps) := by
  unfold repairIndex
  refine List.foldlRecOn steps _ (motive := fun later => Unwritten db later) (.refl db) ?_
  intro later kept step _
  cases step with
  | applied now keys => exact ⟨kept.1, kept.2, kept.3, kept.4, kept.5, kept.6⟩
  | failed key error => exact ⟨kept.1, kept.2, kept.3, kept.4, kept.5, kept.6⟩

/-- What a call leaves, if its error says that nothing was written. -/
def Honest {α : Type} (db : Database) (result : Database × MemoryResult α) : Prop :=
  ∀ error, result.2 = .error error → Unwritten db result.1

/-- Some result comes out. -/
def Succeeds {α : Type} (result : MemoryResult α) : Prop := ∃ value, result = .ok value

/-! ## The four calls -/

section Calls

variable [Blake3] [PayloadCodec] [EntityMatching] {draft : ChangeSetDraft} {mode : SubmitMode}
  {name : String} {version : UInt64} {review : ReviewAuthorization}

/-- **An error of `remember`** says that nothing was written, unless the transaction went
through and the marks fail. -/
theorem rememberOn_honest : Honest db (rememberOn schedule db draws request) ↔
    ¬ (schedule.transaction = none ∧ schedule.mark ≠ none ∧
      (schedule.publication = none ∨ request.observations = []) ∧
      Succeeds (db.remember draws request)) := by
  unfold Honest rememberOn
  rw [commitThen_keeps Unwritten.refl]
  constructor
  · rintro keeps ⟨unstruck, failing, fresh, ⟨after, remembered⟩, done⟩
    obtain ⟨middle, group, generation, first, second, rfl⟩ := remember_eq_ok done
    have written : Written db ([group.outcome].flatMap RememberOutcome.observationIds) middle := by
      simpa using writeGroup_written first
    have publishes : published schedule ⟨[(request.name, group)], some generation⟩ := by
      unfold published
      rw [List.forall_mem_singleton, writeGroup_payload first]
      exact fresh
    refine (remembered_enters written second).written ?_
    exact (finishRemember_keeps db).mp (keeps after _ (attempt_eq_ok.mpr ⟨unstruck, done⟩))
      (Option.some_ne_none _) publishes failing
  · intro spared after remembered committed
    obtain ⟨unstruck, done⟩ := attempt_eq_ok.mp committed
    refine (finishRemember_keeps db).mpr fun _ publishes failing => absurd ?_ spared
    obtain ⟨middle, group, generation, first, second, rfl⟩ := remember_eq_ok done
    unfold published at publishes
    rw [List.forall_mem_singleton, writeGroup_payload first] at publishes
    exact ⟨unstruck, failing, publishes, _, done⟩

/-- **An error of `remember_batch`** says that nothing was written, with the same
exception; a batch of nothing but a checkpoint has no marks to make. -/
theorem rememberBatchOn_honest : Honest db (rememberBatchOn schedule db draws requests options) ↔
    ¬ (schedule.transaction = none ∧ schedule.mark ≠ none ∧
      (schedule.publication = none ∨ ∀ request ∈ requests, request.observations = []) ∧
      requests ≠ [] ∧ Succeeds (db.rememberBatch draws requests options)) := by
  unfold Honest rememberBatchOn
  by_cases idle : requests = [] ∧ options.checkpoint = none
  · rw [if_pos idle]
    refine ⟨fun _ struck => struck.2.2.2.1 idle.1, fun _ error failed => ?_⟩
    cases failed
  rw [if_neg idle, commitThen_keeps Unwritten.refl]
  constructor
  · rintro keeps ⟨unstruck, failing, fresh, some, ⟨after, remembered⟩, done⟩
    rcases rememberBatch_eq_ok done with ⟨none, _⟩ |
      ⟨middle, groups, last, generation, first, second, rfl, rfl⟩
    · exact some none
    have publishes : published schedule
        ⟨(requests.map RememberRequest.name).zip groups, Option.some generation⟩ := by
      unfold published
      rw [writeGroups_payload first]
      exact fresh
    have enters := remembered_enters (writeGroups_written first) second
    refine (enters.then (?_ : (last.putCheckpoints options.checkpoint).changeSets = _)).written ?_
    · unfold putCheckpoints putCheckpoint
      split <;> [split; skip] <;> rfl
    · exact (finishRemember_keeps db).mp (keeps _ _ (attempt_eq_ok.mpr ⟨unstruck, done⟩))
        (Option.some_ne_none _) publishes failing
  · intro spared after remembered committed
    obtain ⟨unstruck, done⟩ := attempt_eq_ok.mp committed
    refine (finishRemember_keeps db).mpr fun marks publishes failing => absurd ?_ spared
    rcases rememberBatch_eq_ok done with ⟨_, _, rfl⟩ |
      ⟨middle, groups, last, generation, first, second, rfl, rfl⟩
    · exact absurd rfl marks
    unfold published at publishes
    rw [writeGroups_payload first] at publishes
    refine ⟨unstruck, failing, publishes, ?_, _, done⟩
    rintro rfl
    obtain ⟨_, _, done⟩ := bind_eq_ok.mp done
    obtain ⟨⟨_, _⟩, _, finished⟩ := bind_eq_ok.mp done
    have unmarked := congrArg (fun result : Database × Remembered => result.2.generation)
      (Except.ok.inj finished)
    cases unmarked

omit [Blake3] [PayloadCodec] [EntityMatching] in
/-- The receipt of a change set that is there can only fail to be read. -/
theorem attempt_receipt {row : ChangeSet} (present : db.changeSets.get? id = some row)
    {error : MemoryError} :
    attempt schedule.receipt (db.changesetReceipt id) = .error error ↔
      schedule.receipt = some error := by
  unfold changesetReceipt
  rw [present]
  cases schedule.receipt with
  | none => simp [attempt, orRefuse, bind, Except.bind, pure, Except.pure]
  | some fault => simp [attempt, orRefuse, bind, Except.bind, pure, Except.pure]

theorem Stores.enters (stores : Stores db draws draft mode db') : Enters db draws.changeSet db' := by
  cases stores with
  | proposed inserted requested =>
    refine (insertChangeSet_enters inserted).then ?_
    rw [(insertRequests_eq_ok requested).1]
  | applied inserted requested ran =>
    refine (insertChangeSet_enters inserted).then ?_
    have same := (applyOperations_applied ran).audit.changeSets
    rw [(insertRequests_eq_ok requested).1] at same
    exact same

/-- **An error of `submit_changeset`** says that nothing was written, unless a change set
was stored and its receipt cannot be read. -/
theorem submitChangesetOn_honest : Honest db (submitChangesetOn schedule db draws draft mode) ↔
    ¬ (schedule.transaction = none ∧ schedule.receipt ≠ none ∧
      db.changeSetUnder draft.spaceId draft.idempotencyKey = none ∧
      Succeeds (db.submitChangeset draws draft mode)) := by
  unfold Honest submitChangesetOn
  rw [commitThen_keeps Unwritten.refl]
  have repaired : ∀ after : Database, Unwritten after
      (if mode = .applyImmediately then after.repairIndex schedule.repairs else after) := by
    intro after
    split
    · exact repairIndex_keeps _
    · exact .refl after
  constructor
  · rintro keeps ⟨unstruck, failing, unused, ⟨after, submission⟩, done⟩
    obtain ⟨_, _, _, ⟨_, _, found, _⟩ | ⟨_, stores, rfl⟩⟩ := submitChangeset_eq_ok done
    · rw [unused] at found
      cases found
    · have enters := stores.enters.then (repaired after).changeSets
      obtain ⟨row, present⟩ := enters.present
      obtain ⟨error, fault⟩ := Option.ne_none_iff_exists'.mp failing
      exact enters.written (keeps after _ (attempt_eq_ok.mpr ⟨unstruck, done⟩) error
        ((attempt_receipt present).mpr fault))
  · intro spared after submission committed error failed
    obtain ⟨unstruck, done⟩ := attempt_eq_ok.mp committed
    obtain ⟨_, _, _, ⟨_, _, _, _, _, rfl⟩ | ⟨unused, stores, rfl⟩⟩ := submitChangeset_eq_ok done
    · cases failed
    · obtain ⟨row, present⟩ := (stores.enters.then (repaired after).changeSets).present
      have fault := (attempt_receipt present).mp failed
      refine absurd ⟨unstruck, ?_, unused, _, done⟩ spared
      rw [fault]
      exact Option.some_ne_none error

/-- An approval leaves its change set in a state that is not that of a proposal. -/
theorem approveChangeset_turns
    (approved : db.approveChangeset draws name version review = .ok (db', id)) :
    ∃ row, db.proposalHeader name = .ok (id, row) ∧ ∃ next, db'.changeSets.get? id = some next ∧
      (row.state = .applied ∧ db' = db ∨ row.state = .proposed ∧ next.state ≠ .proposed) := by
  obtain ⟨row, ⟨already, rfl, found⟩ | ⟨reviews, operations, _, _, outcome⟩⟩ :=
    approveChangeset_eq_ok approved
  · exact ⟨row, found, row, (proposalHeader_eq_ok found).2, .inl ⟨already, rfl⟩⟩
  · have closing : ∀ (before : Database) (state : ChangeSetState) (generation : Option Nat),
        before.changeSets.get? id = some row → state ≠ .proposed →
          ∃ next, (before.closeProposal id state generation draws.now).changeSets.get? id =
            some next ∧ next.state ≠ .proposed := by
      intro before state generation held closed
      refine ⟨{ row with
        state, stateVersion := row.stateVersion + 1, committedGeneration := generation
        updatedAt := draws.now }, ?_, closed⟩
      unfold closeProposal
      exact (Table.get?_modify_self ..).trans (by rw [held]; rfl)
    rcases outcome with ⟨_, closes⟩ | ⟨_, applied, closed, ran, closes, rfl⟩
    · obtain ⟨next, present, turned⟩ := closing db .conflicted row.committedGeneration
        reviews.held nofun
      refine ⟨row, reviews.found, next, ?_, .inr ⟨reviews.proposed, turned⟩⟩
      rw [closes.unchanged]
      exact present
    · have held : applied.changeSets.get? id = some row := by
        rw [(applyOperations_applied ran).audit.changeSets]
        exact reviews.held
      obtain ⟨next, present, turned⟩ := closing applied .applied
        (some (db.domain.semanticGeneration + 1)) held nofun
      refine ⟨row, reviews.found, next, ?_, .inr ⟨reviews.proposed, turned⟩⟩
      change closed.changeSets.get? id = some next
      rw [closes.unchanged]
      exact present

/-- **An error of `approve_changeset`** says that nothing was written, unless a proposal
was closed and its receipt cannot be read. -/
theorem approveChangesetOn_honest :
    Honest db (approveChangesetOn schedule db draws name version review) ↔
    ¬ (schedule.transaction = none ∧ schedule.receipt ≠ none ∧
      (∀ id row, db.proposalHeader name = .ok (id, row) → row.state ≠ .applied) ∧
      Succeeds (db.approveChangeset draws name version review)) := by
  unfold Honest approveChangesetOn
  rw [commitThen_keeps Unwritten.refl]
  have repaired : ∀ (after : Database) (id : ChangeSetId), Unwritten after
      (if (after.changeSets.get? id).any fun row => row.state = .applied then
        after.repairIndex schedule.repairs else after) := by
    intro after id
    split
    · exact repairIndex_keeps _
    · exact .refl after
  constructor
  · rintro keeps ⟨unstruck, failing, closed, ⟨after, id⟩, done⟩
    obtain ⟨row, found, next, present, ⟨already, _⟩ | ⟨proposed, turned⟩⟩ :=
      approveChangeset_turns done
    · exact closed id row found already
    · obtain ⟨error, fault⟩ := Option.ne_none_iff_exists'.mp failing
      rw [← (repaired after id).changeSets] at present
      have same := (keeps after id (attempt_eq_ok.mpr ⟨unstruck, done⟩) error
        ((attempt_receipt present).mpr fault)).changeSets
      dsimp only at same
      rw [same, (proposalHeader_eq_ok found).2] at present
      cases present
      exact turned proposed
  · intro spared after id committed error failed
    obtain ⟨unstruck, done⟩ := attempt_eq_ok.mp committed
    obtain ⟨row, found, next, present, ⟨_, rfl⟩ | ⟨proposed, _⟩⟩ := approveChangeset_turns done
    · exact repaired after id
    · rw [← (repaired after id).changeSets] at present
      have fault := (attempt_receipt present).mp failed
      refine absurd ⟨unstruck, ?_, fun other held header => ?_, _, done⟩ spared
      · rw [fault]
        exact Option.some_ne_none error
      · cases found.symm.trans header
        rw [proposed]
        decide

end Calls

/-! ## Any of the calls -/

inductive DurableCall where
  | remember (draws : Draws) (request : RememberRequest)
  | rememberBatch (draws : Draws) (requests : List RememberRequest) (options : BatchOptions)
  | submit (draws : Draws) (draft : ChangeSetDraft) (mode : SubmitMode)
  | approve (draws : Draws) (id : String) (expectedStateVersion : UInt64)
      (review : ReviewAuthorization)

namespace DurableCall

variable [Blake3] [PayloadCodec] [EntityMatching]

/-- **An error of the call means that nothing was written.** -/
def ErrsUnwritten (schedule : Schedule) (db : Database) : DurableCall → Prop
  | remember draws request => Honest db (rememberOn schedule db draws request)
  | rememberBatch draws requests options =>
    Honest db (rememberBatchOn schedule db draws requests options)
  | submit draws draft mode => Honest db (submitChangesetOn schedule db draws draft mode)
  | approve draws id version review =>
    Honest db (approveChangesetOn schedule db draws id version review)

/-- A failure strikes the call after its transaction stored something: the marks of a
write that was published, or the receipt of a change set that was not there before, or
of a proposal that was not applied before. -/
def StruckAfterCommit (schedule : Schedule) (db : Database) : DurableCall → Prop
  | remember draws request => schedule.transaction = none ∧ schedule.mark ≠ none ∧
      (schedule.publication = none ∨ request.observations = []) ∧
      Succeeds (db.remember draws request)
  | rememberBatch draws requests options => schedule.transaction = none ∧ schedule.mark ≠ none ∧
      (schedule.publication = none ∨ ∀ request ∈ requests, request.observations = []) ∧
      requests ≠ [] ∧ Succeeds (db.rememberBatch draws requests options)
  | submit draws draft mode => schedule.transaction = none ∧ schedule.receipt ≠ none ∧
      db.changeSetUnder draft.spaceId draft.idempotencyKey = none ∧
      Succeeds (db.submitChangeset draws draft mode)
  | approve draws id version review => schedule.transaction = none ∧ schedule.receipt ≠ none ∧
      (∀ changesetId row, db.proposalHeader id = .ok (changesetId, row) → row.state ≠ .applied) ∧
      Succeeds (db.approveChangeset draws id version review)

end DurableCall

/-- **Errors and rows.** For every call, every schedule of failures and every state of the
store, an error means that nothing was written exactly when no failure strikes after
the transaction stored something. -/
theorem errors_unwritten [Blake3] [PayloadCodec] [EntityMatching] (call : DurableCall)
    (schedule : Schedule) (db : Database) :
    call.ErrsUnwritten schedule db ↔ ¬ call.StruckAfterCommit schedule db := by
  cases call with
  | remember draws request => exact rememberOn_honest
  | rememberBatch draws requests options => exact rememberBatchOn_honest
  | submit draws draft mode => exact submitChangesetOn_honest
  | approve draws id version review => exact approveChangesetOn_honest

open AuditBounds Merge.Fixture in
/-- A fact about alice is remembered, and then the marks of the outbox fail. -/
theorem mark_failure_written :
    ¬ ∀ (call : DurableCall) (schedule : Schedule) (db : Database), Reachable db →
      call.ErrsUnwritten schedule db := by
  intro always
  have remembers : (initial.remember draws { fact with
      observations := [.new "likes tea"] }).toOption.isSome = true := by decide
  have unwritten := always (.remember draws { fact with observations := [.new "likes tea"] })
    ⟨none, none, some (.sqlite "disk I/O error"), 0, [], none⟩ initial migrated_initial.reachable
  exact (errors_unwritten _ _ _).mp unwritten ⟨rfl, nofun, .inl rfl, unwrap _ remembers, unwrap_eq⟩

end Database

end OpenMemory.Graph
