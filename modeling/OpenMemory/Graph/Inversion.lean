import OpenMemory.Graph.TransactionEffects

/-!
# What each transaction did, if it succeeded

The inversion lemmas of the transactions: the checks that were passed, in the
order of the source, and the database afterwards. No later proof unfolds a
transaction.
-/

namespace OpenMemory.Graph

open Foundation
open Merge (Blake3)

namespace Database

variable {db db' : Database} {draws : Draws} {changesetId : ChangeSetId}

/-! ## Statements -/

theorem ensureBoundSpace_eq_ok {spaceId : SpaceId} :
    db.ensureBoundSpace spaceId = .ok () ↔ db.spaceId = some spaceId := by
  unfold ensureBoundSpace boundSpaceId
  cases bound : db.spaceId with
  | none =>
    constructor
    · intro impossible
      cases impossible
    · intro impossible
      cases impossible
  | some existing =>
    rw [bind_eq_ok]
    constructor
    · rintro ⟨_, same, passed⟩
      cases same
      rw [refuseIf_eq_ok, not_not] at passed
      rw [passed]
    · intro same
      cases same
      exact ⟨_, rfl, refuseIf_neg fun apart => apart rfl⟩

theorem insertChangeSet_eq_ok {row : ChangeSet}
    (inserted : db.insertChangeSet changesetId row = .ok db') :
    (∀ entry ∈ db.changeSets.entries,
      ¬ (entry.2.spaceId = row.spaceId ∧ entry.2.idempotencyKey = row.idempotencyKey)) ∧
    ∃ changeSets, db.changeSets.insert changesetId row uniqueViolation = .ok changeSets ∧
      db' = { db with changeSets } := by
  unfold insertChangeSet at inserted
  obtain ⟨_, fresh, inserted⟩ := bind_eq_ok.mp inserted
  obtain ⟨changeSets, added, finished⟩ := bind_eq_ok.mp inserted
  cases finished
  rw [refuseIf_eq_ok] at fresh
  exact ⟨fun entry member same => fresh ⟨entry, member, same⟩, changeSets, added, rfl⟩

/-- The requests of a change set are stored under its own id only. -/
theorem insertRequests_eq_ok [PayloadCodec] {ordinal : Nat} {operations : List ChangeOperation}
    (inserted : insertRequests changesetId db ordinal operations = .ok db') :
    db' = { db with requests := db'.requests } ∧
      ∀ key, key.1 ≠ changesetId → db'.requests.get? key = db.requests.get? key := by
  induction operations generalizing db ordinal with
  | nil =>
    cases inserted
    exact ⟨rfl, fun _ _ => rfl⟩
  | cons operation rest ih =>
    obtain ⟨requests, added, inserted⟩ := bind_eq_ok.mp inserted
    obtain ⟨same, others⟩ := ih inserted
    refine ⟨by rw [same], fun key apart => ?_⟩
    rw [others key apart]
    exact Table.get?_insert_of_ne added (fun here => apart (by rw [here]))

/-! ## Submission -/

section Submission

variable [Blake3] [PayloadCodec] [EntityMatching] {draft : ChangeSetDraft} {mode : SubmitMode}
  {submission : Submission}

/-- A change set was stored: its row and its requests were inserted and, in
immediate mode, its operations applied. -/
inductive Stores (db : Database) (draws : Draws) (draft : ChangeSetDraft) :
    SubmitMode → Database → Prop
  | proposed {rowed stored : Database}
      (inserted : db.insertChangeSet draws.changeSet
        (submittedRow draft .propose db.domain.semanticGeneration draws.now) = .ok rowed)
      (requested : insertRequests draws.changeSet rowed 0 draft.operations = .ok stored) :
      Stores db draws draft .propose stored
  | applied {rowed stored applied : Database}
      (inserted : db.insertChangeSet draws.changeSet
        (submittedRow draft .applyImmediately db.domain.semanticGeneration draws.now) = .ok rowed)
      (requested : insertRequests draws.changeSet rowed 0 draft.operations = .ok stored)
      (ran : applyOperations draws draws.changeSet (db.domain.semanticGeneration + 1) stored 0
        draft.operations = .ok applied) :
      Stores db draws draft .applyImmediately
        (applied.commitGeneration (db.domain.semanticGeneration + 1))

theorem storeChangeSet_stores (stored : db.storeChangeSet draws draft mode = .ok db') :
    Stores db draws draft mode db' := by
  unfold storeChangeSet at stored
  obtain ⟨rowed, inserted, stored⟩ := bind_eq_ok.mp stored
  obtain ⟨requested, second, stored⟩ := bind_eq_ok.mp stored
  cases mode with
  | propose =>
    cases stored
    exact .proposed inserted second
  | applyImmediately =>
    obtain ⟨applied, ran, finished⟩ := bind_eq_ok.mp stored
    cases finished
    exact .applied inserted second ran

/-- **A submission** is a repetition of an equal request, which changes nothing,
or stores a new change set. -/
theorem submitChangeset_eq_ok
    (submitted : db.submitChangeset draws draft mode = .ok (db', submission)) :
    validateDraft draft = .ok () ∧
      ¬ (mode = .propose ∧ draft.operations.any ChangeOperation.isDestroy = true) ∧
      db.spaceId = some draft.spaceId ∧
      ((∃ id row, db.changeSetUnder draft.spaceId draft.idempotencyKey = some (id, row) ∧
          row.requestHash = canonicalRequestHash draft mode ∧ db' = db ∧
          submission = .existing (db.receiptOf id row)) ∨
        (db.changeSetUnder draft.spaceId draft.idempotencyKey = none ∧
          Stores db draws draft mode db' ∧ submission = .stored draws.changeSet)) := by
  unfold submitChangeset at submitted
  obtain ⟨_, valid, submitted⟩ := bind_eq_ok.mp submitted
  obtain ⟨_, proposable, submitted⟩ := bind_eq_ok.mp submitted
  obtain ⟨_, bound, submitted⟩ := bind_eq_ok.mp submitted
  obtain ⟨found, loaded, submitted⟩ := bind_eq_ok.mp submitted
  refine ⟨valid, refuseIf_eq_ok.mp proposable, ensureBoundSpace_eq_ok.mp bound, ?_⟩
  unfold loadExistingReceipt at loaded
  cases under : db.changeSetUnder draft.spaceId draft.idempotencyKey with
  | none =>
    rw [under] at loaded
    cases loaded
    obtain ⟨stored, ran, finished⟩ := bind_eq_ok.mp submitted
    cases finished
    exact .inr ⟨rfl, storeChangeSet_stores ran, rfl⟩
  | some entry =>
    obtain ⟨id, row⟩ := entry
    rw [under] at loaded
    obtain ⟨_, same, loaded⟩ := bind_eq_ok.mp loaded
    cases loaded
    cases submitted
    rw [refuseIf_eq_ok, not_not] at same
    exact .inl ⟨id, row, rfl, same, rfl, rfl⟩

end Submission

/-! ## Review -/

section Review

variable {id : String} {version : UInt64} {review : ReviewAuthorization} {reason : String}

theorem proposalHeader_eq_ok {row : ChangeSet}
    (found : db.proposalHeader id = .ok (changesetId, row)) :
    changesetId.toText = id ∧ db.changeSets.get? changesetId = some row := by
  unfold proposalHeader at found
  rw [orRefuse_eq_ok] at found
  exact ⟨by simpa using List.find?_some found, Table.get?_eq_some_iff.mpr
    (List.mem_of_find?_eq_some found)⟩

/-- The proposal that a review finds open, in the expected version, in the bound
space, and submitted by someone else. -/
structure Reviews (db : Database) (id : String) (version : UInt64) (review : ReviewAuthorization)
    (changesetId : ChangeSetId) (row : ChangeSet) : Prop where
  found : db.proposalHeader id = .ok (changesetId, row)
  held : db.changeSets.get? changesetId = some row
  named : changesetId.toText = id
  proposed : row.state = .proposed
  expected : row.stateVersion = version.toNat
  bound : db.spaceId = some row.spaceId
  distinct : row.actorId ≠ review.actorId

private theorem reviews_of_checks {row : ChangeSet}
    (found : db.proposalHeader id = .ok (changesetId, row))
    (current : ¬ (row.state ≠ .proposed ∨ row.stateVersion ≠ version.toNat))
    (bound : db.ensureBoundSpace row.spaceId = .ok ())
    (distinct : ensureDistinctReviewer row review = .ok ()) :
    Reviews db id version review changesetId row := by
  push Not at current
  obtain ⟨named, held⟩ := proposalHeader_eq_ok found
  exact ⟨found, held, named, current.1, current.2, ensureBoundSpace_eq_ok.mp bound,
    refuseIf_eq_ok.mp distinct⟩

/-- A proposal left the proposed state, with an event about its review. -/
inductive Closes (db : Database) (draws : Draws) (changesetId : ChangeSetId)
    (state : ChangeSetState) (generation : Option Nat) (eventType : String)
    (review : ReviewAuthorization) (reason : String) : Database → Prop
  | closed {closed : Database}
      (noted : (db.closeProposal changesetId state generation draws.now).insertReviewEvent
        changesetId eventType review reason draws.now = .ok closed) :
      Closes db draws changesetId state generation eventType review reason closed

/-- **A rejection** finds the proposal rejected already, or rejects it. -/
theorem rejectChangeset_eq_ok
    (rejected : db.rejectChangeset draws id version review reason = .ok (db', changesetId)) :
    ∃ row, (row.state = .rejected ∧ db' = db ∧ db.proposalHeader id = .ok (changesetId, row)) ∨
      (Reviews db id version review changesetId row ∧
        Closes db draws changesetId .rejected row.committedGeneration "rejected" review reason
          db') := by
  unfold rejectChangeset at rejected
  obtain ⟨_, _, rejected⟩ := bind_eq_ok.mp rejected
  obtain ⟨⟨found_id, row⟩, found, rejected⟩ := bind_eq_ok.mp rejected
  refine ⟨row, ?_⟩
  dsimp only at rejected
  split at rejected
  · rename_i already
    cases rejected
    exact .inl ⟨already, rfl, found⟩
  · obtain ⟨_, current, rejected⟩ := bind_eq_ok.mp rejected
    obtain ⟨_, bound, rejected⟩ := bind_eq_ok.mp rejected
    obtain ⟨_, distinct, rejected⟩ := bind_eq_ok.mp rejected
    obtain ⟨closed, noted, finished⟩ := bind_eq_ok.mp rejected
    cases finished
    exact .inr ⟨reviews_of_checks found (refuseIf_eq_ok.mp current) bound distinct, .closed noted⟩

variable [Blake3] [PayloadCodec] [EntityMatching]

/-- **An approval** finds the change set applied already, finds the proposal in
conflict, or applies it. -/
theorem approveChangeset_eq_ok
    (approved : db.approveChangeset draws id version review = .ok (db', changesetId)) :
    ∃ row, (row.state = .applied ∧ db' = db ∧ db.proposalHeader id = .ok (changesetId, row)) ∨
      (Reviews db id version review changesetId row ∧
        ∃ operations, db.storedOperations changesetId = .ok operations ∧
          verifyProposalHash row operations = .ok () ∧
          ((operations.all db.operationPreconditionHolds = false ∧
              Closes db draws changesetId .conflicted row.committedGeneration "conflicted" review
                "proposal head precondition is stale" db') ∨
            (operations.all db.operationPreconditionHolds = true ∧ ∃ applied closed,
              applyOperations draws changesetId (db.domain.semanticGeneration + 1) db 0
                operations = .ok applied ∧
              Closes applied draws changesetId .applied
                (some (db.domain.semanticGeneration + 1)) "approved" review "" closed ∧
              db' = closed.commitGeneration (db.domain.semanticGeneration + 1)))) := by
  unfold approveChangeset at approved
  obtain ⟨⟨found_id, row⟩, found, approved⟩ := bind_eq_ok.mp approved
  refine ⟨row, ?_⟩
  dsimp only at approved
  split at approved
  · rename_i already
    cases approved
    exact .inl ⟨already, rfl, found⟩
  · obtain ⟨_, current, approved⟩ := bind_eq_ok.mp approved
    obtain ⟨_, bound, approved⟩ := bind_eq_ok.mp approved
    obtain ⟨_, distinct, approved⟩ := bind_eq_ok.mp approved
    obtain ⟨operations, stored, approved⟩ := bind_eq_ok.mp approved
    obtain ⟨_, verified, approved⟩ := bind_eq_ok.mp approved
    have reviews := reviews_of_checks found (refuseIf_eq_ok.mp current) bound distinct
    split at approved
    · rename_i conflict
      obtain ⟨closed, noted, finished⟩ := bind_eq_ok.mp approved
      cases finished
      exact .inr ⟨reviews, operations, stored, verified, .inl ⟨conflict, .closed noted⟩⟩
    · rename_i held
      obtain ⟨applied, ran, approved⟩ := bind_eq_ok.mp approved
      obtain ⟨closed, noted, finished⟩ := bind_eq_ok.mp approved
      cases finished
      exact .inr ⟨reviews, operations, stored, verified,
        .inr ⟨by simpa using held, applied, closed, ran, .closed noted, rfl⟩⟩

end Review

end Database

end OpenMemory.Graph
