import OpenMemory.Graph.Ledger
import OpenMemory.Graph.Store

/-!
# What the operations of a change set do to the ledger

Each statement of the audited write path is described once: what it changes, and
that it changes nothing else. From this the effects of an operation on the
ledger are read off. An operation that revises an observation is one move of the
ledger and one owed change; a `remember` is an insertion, a first revision and
an owed change for each of its observations.
-/

namespace OpenMemory.Graph

open Foundation
open Merge (Blake3)

/-! ## Frames -/

variable {changesetId : ChangeSetId} {db'' : Database} {logicalId entityId : String}
  {ordinal generation index : Nat} {revisionId : Option String} {row : ObservationRow}

namespace Database

/-- Only entities and relations differ. -/
def GraphOnly (db db' : Database) : Prop :=
  db' = { db with entities := db'.entities, relations := db'.relations }

/-- The change sets and what belongs to the store as a whole are the same. -/
structure KeepsAudit (db db' : Database) : Prop where
  changeSets : db'.changeSets = db.changeSets
  requests : db'.requests = db.requests
  spaceId : db'.spaceId = db.spaceId
  checkpoints : db'.checkpoints = db.checkpoints
  domain : db'.domain = db.domain

theorem KeepsAudit.refl (db : Database) : KeepsAudit db db := ⟨rfl, rfl, rfl, rfl, rfl⟩

theorem KeepsAudit.trans {db db' : Database} (first : KeepsAudit db db')
    (second : KeepsAudit db' db'') : KeepsAudit db db'' :=
  ⟨second.changeSets.trans first.changeSets, second.requests.trans first.requests,
    second.spaceId.trans first.spaceId, second.checkpoints.trans first.checkpoints,
    second.domain.trans first.domain⟩

variable {db db' : Database} {draws : Draws} {id name source : String} {now : Int64}

theorem GraphOnly.refl (db : Database) : GraphOnly db db := rfl

theorem GraphOnly.trans (first : GraphOnly db db')
    (second : GraphOnly db' db'') : GraphOnly db db'' := by
  unfold GraphOnly at *
  rw [second, first]

theorem GraphOnly.ledger (only : GraphOnly db db') : db'.ledger = db.ledger := by
  rw [only]
  rfl

theorem GraphOnly.keepsAudit (only : GraphOnly db db') : KeepsAudit db db' := by
  rw [only]
  exact ⟨rfl, rfl, rfl, rfl, rfl⟩

theorem GraphOnly.observations (only : GraphOnly db db') : db'.observations = db.observations := by
  rw [only]

theorem GraphOnly.confirmations (only : GraphOnly db db') :
    db'.confirmations = db.confirmations := by
  rw [only]

/-! ## Statements -/

theorem insertEntity_eq_ok {row : StoredEntity}
    (inserted : db.insertEntity id row = .ok db') :
    ∃ entities, db.entities.insert id row uniqueViolation = .ok entities ∧
      db' = { db with entities } := by
  unfold insertEntity at inserted
  obtain ⟨_, _, inserted⟩ := bind_eq_ok.mp inserted
  obtain ⟨entities, added, finished⟩ := bind_eq_ok.mp inserted
  cases finished
  exact ⟨entities, added, rfl⟩

theorem insertEntity_graphOnly {row : StoredEntity} (inserted : db.insertEntity id row = .ok db') :
    GraphOnly db db' := by
  obtain ⟨entities, _, rfl⟩ := insertEntity_eq_ok inserted
  rfl

theorem insertRelation_eq_ok {row : StoredRelation}
    (inserted : db.insertRelation id row = .ok db') :
    db.entities.get? row.fromEntity ≠ none ∧ db.entities.get? row.toEntity ≠ none ∧
      ∃ relations, db.relations.insert id row uniqueViolation = .ok relations ∧
        db' = { db with relations } := by
  unfold insertRelation at inserted
  obtain ⟨_, ends, inserted⟩ := bind_eq_ok.mp inserted
  obtain ⟨relations, added, finished⟩ := bind_eq_ok.mp inserted
  cases finished
  rw [refuseIf_eq_ok, not_or] at ends
  exact ⟨ends.1, ends.2, relations, added, rfl⟩

theorem insertRelation_graphOnly {row : StoredRelation}
    (inserted : db.insertRelation id row = .ok db') : GraphOnly db db' := by
  obtain ⟨_, _, relations, _, rfl⟩ := insertRelation_eq_ok inserted
  rfl

theorem insertObservation_eq_ok (inserted : db.insertObservation id row = .ok db') :
    db.entities.get? row.semantic.entityId ≠ none ∧
      ∃ observations, db.observations.insert id row uniqueViolation = .ok observations ∧
        db' = { db with observations } := by
  unfold insertObservation at inserted
  obtain ⟨_, present, inserted⟩ := bind_eq_ok.mp inserted
  obtain ⟨observations, added, inserted⟩ := bind_eq_ok.mp inserted
  cases inserted
  exact ⟨refuseIf_eq_ok.mp present, observations, added, rfl⟩

theorem insertObservation_moves (fresh : Ledger.Fresh row)
    (inserted : db.insertObservation id row = .ok db') :
    Ledger.Moves db.ledger (.inserted id row) db'.ledger := by
  obtain ⟨_, observations, added, rfl⟩ := insertObservation_eq_ok inserted
  have after : ({ db with observations } : Database).ledger =
      db.ledger.setObservation id (some row) := by
    refine Ledger.ext (funext fun other => ?_) rfl rfl
    change observations.get? other = Function.update db.observations.get? id (some row) other
    rw [Table.get?_insert added, Function.update_apply]
  rw [after]
  exact .inserted (Table.absent_of_insert added) fresh

theorem insertRevision_eq_ok {row : Revision} (inserted : db.insertRevision id row = .ok db') :
    ∃ revisions, db.revisions.insert id row uniqueViolation = .ok revisions ∧
      db' = { db with revisions } := by
  unfold insertRevision at inserted
  obtain ⟨revisions, added, inserted⟩ := bind_eq_ok.mp inserted
  cases inserted
  exact ⟨revisions, added, rfl⟩

theorem insertOutbox_eq_ok {operation : OutboxOperation}
    (inserted : db.insertOutbox generation ordinal operation logicalId revisionId now = .ok db') :
    ∃ outbox, db.outbox.insert (generation, ordinal)
        ⟨operation, logicalId, revisionId, 0, none, none, now⟩ uniqueViolation = .ok outbox ∧
      db' = { db with outbox } := by
  unfold insertOutbox at inserted
  obtain ⟨outbox, added, inserted⟩ := bind_eq_ok.mp inserted
  cases inserted
  exact ⟨outbox, added, rfl⟩

/-- Owing the index a change is one move. -/
theorem insertOutbox_moves {operation : OutboxOperation}
    (inserted : db.insertOutbox generation ordinal operation logicalId revisionId now = .ok db') :
    Ledger.Moves db.ledger (.owed (generation, ordinal)
      ⟨operation, logicalId, revisionId, 0, none, none, now⟩) db'.ledger := by
  obtain ⟨outbox, added, rfl⟩ := insertOutbox_eq_ok inserted
  have after : ({ db with outbox } : Database).ledger = db.ledger.addOwed (generation, ordinal)
      ⟨operation, logicalId, revisionId, 0, none, none, now⟩ := by
    refine Ledger.ext rfl rfl (funext fun other => ?_)
    change outbox.get? other = Function.update db.outbox.get? _ _ other
    rw [Table.get?_insert added, Function.update_apply]
  rw [after]
  exact .owed (Table.absent_of_insert added) rfl

/-- Only events differ. -/
def EventsOnly (db db' : Database) : Prop := db' = { db with events := db'.events }

theorem insertEvent_eq_ok {event : ChangeEvent}
    (inserted : db.insertEvent changesetId ordinal event = .ok db') :
    ∃ events, db.events.insert (changesetId, ordinal) event uniqueViolation = .ok events ∧
      db' = { db with events } := by
  unfold insertEvent at inserted
  obtain ⟨events, added, finished⟩ := bind_eq_ok.mp inserted
  cases finished
  exact ⟨events, added, rfl⟩

theorem insertEvent_eventsOnly {event : ChangeEvent}
    (inserted : db.insertEvent changesetId ordinal event = .ok db') : EventsOnly db db' := by
  obtain ⟨events, _, rfl⟩ := insertEvent_eq_ok inserted
  rfl

theorem insertOperationEvent_eventsOnly {eventType : String}
    (inserted : db.insertOperationEvent changesetId ordinal eventType logicalId revisionId now =
      .ok db') : EventsOnly db db' :=
  insertEvent_eventsOnly inserted

theorem loadObservation_eq_ok :
    db.loadObservation id = .ok row ↔ db.observations.get? id = some row := orRefuse_eq_ok

/-! ## Entities, observations and relations of a group -/

section Groups

variable [EntityMatching] {entityType : EntityType} {normalize existed : Bool}
  {newId sameAsId : String} {group : Nat}

theorem ensureEntity_graphOnly
    (ensured : db.ensureEntity name entityType source now normalize newId sameAsId =
      .ok (db', id, existed)) : GraphOnly db db' := by
  unfold ensureEntity at ensured
  split at ensured
  · cases ensured
    rfl
  · split at ensured
    · cases ensured
      rfl
    · obtain ⟨created, first, ensured⟩ := bind_eq_ok.mp ensured
      obtain ⟨related, second, ensured⟩ := bind_eq_ok.mp ensured
      cases ensured
      exact (insertEntity_graphOnly first).trans (insertRelation_graphOnly second)
    · obtain ⟨created, first, ensured⟩ := bind_eq_ok.mp ensured
      cases ensured
      exact insertEntity_graphOnly first

theorem writeRelations_graphOnly {relations : List RelationInput}
    (written : writeRelations draws group entityId source now normalize db index relations =
      .ok db') : GraphOnly db db' := by
  induction relations generalizing db index with
  | nil =>
    cases written
    exact .refl _
  | cons relation rest ih =>
    obtain ⟨⟨ensured, targetId, _⟩, first, written⟩ := bind_eq_ok.mp written
    obtain ⟨related, second, written⟩ := bind_eq_ok.mp written
    exact ((ensureEntity_graphOnly first).trans (insertRelation_graphOnly second)).trans
      (ih written)

end Groups

/-- Live observations were inserted under these ids, which were free and distinct;
they have no revision yet, and nothing but entities and relations differs
otherwise. -/
structure Written (db : Database) (ids : List String) (db' : Database) : Prop where
  follows : ∃ effects, Ledger.Follows db.ledger effects db'.ledger ∧
    ∀ effect ∈ effects, ∃ id ∈ ids, ∃ row, effect = .inserted id row ∧ row.tombstoned = false
  distinct : ids.Nodup
  absent : ∀ id ∈ ids, db.observations.get? id = none
  headless : ∀ id ∈ ids, ∃ row, db'.observations.get? id = some row ∧ row.currentRevisionId = none
  kept : ∀ id row, db.observations.get? id = some row → db'.observations.get? id = some row
  rest : db' = { db with
    entities := db'.entities, observations := db'.observations, relations := db'.relations }

theorem GraphOnly.written (only : GraphOnly db db') : Written db [] db' where
  follows := ⟨[], only.ledger.symm, fun _ member => nomatch member⟩
  distinct := List.nodup_nil
  absent _ member := nomatch member
  headless _ member := nomatch member
  kept _ _ present := by rw [only.observations]; exact present
  rest := by rw [only]

theorem Written.trans {ids more : List String} (first : Written db ids db')
    (second : Written db' more db'') : Written db (ids ++ more) db'' where
  follows := by
    obtain ⟨effects, follows, inserted⟩ := first.follows
    obtain ⟨others, following, others_inserted⟩ := second.follows
    refine ⟨effects ++ others, follows.append following, fun effect member => ?_⟩
    rcases List.mem_append.mp member with member | member
    · obtain ⟨id, among, row, same⟩ := inserted effect member
      exact ⟨id, List.mem_append_left _ among, row, same⟩
    · obtain ⟨id, among, row, same⟩ := others_inserted effect member
      exact ⟨id, List.mem_append_right _ among, row, same⟩
  distinct := by
    refine List.nodup_append.mpr ⟨first.distinct, second.distinct, ?_⟩
    rintro id member _ again rfl
    obtain ⟨row, present, _⟩ := first.headless id member
    rw [second.absent id again] at present
    cases present
  absent id member := by
    rcases List.mem_append.mp member with member | member
    · exact first.absent id member
    · cases held : db.observations.get? id with
      | none => rfl
      | some row =>
        have present := first.kept id row held
        rw [second.absent id member] at present
        cases present
  headless id member := by
    rcases List.mem_append.mp member with member | member
    · obtain ⟨row, present, headless⟩ := first.headless id member
      exact ⟨row, second.kept id row present, headless⟩
    · exact second.headless id member
  kept id row present := second.kept id row (first.kept id row present)
  rest := by
    rw [second.rest, first.rest]

theorem newObservationRow_fresh {input : ObservationInput} :
    Ledger.Fresh (newObservationRow entityId source now input) := ⟨rfl, rfl, rfl⟩

theorem insertObservation_written (fresh : Ledger.Fresh row)
    (live : row.tombstoned = false) (inserted : db.insertObservation id row = .ok db') : Written db [id] db' := by
  have moved := insertObservation_moves fresh inserted
  obtain ⟨_, observations, added, rfl⟩ := insertObservation_eq_ok inserted
  have absent := Table.absent_of_insert added
  constructor
  · refine ⟨[_], Ledger.Follows.single moved, fun effect member => ?_⟩
    exact ⟨id, List.mem_singleton_self id, row, List.mem_singleton.mp member, live⟩
  · exact List.nodup_singleton id
  · intro other member
    rw [List.mem_singleton.mp member]
    exact absent
  · intro other member
    rw [List.mem_singleton.mp member]
    exact ⟨row, Table.get?_insert_self added, fresh.head⟩
  · intro other held present
    rw [Table.get?_insert_of_ne added]
    · exact present
    · rintro rfl
      rw [absent] at present
      cases present
  · rfl

theorem writeObservations_written {ids : Nat → String} {observations : List ObservationInput}
    (written : writeObservations entityId source now ids db index observations = .ok db') :
    Written db ((List.range' index observations.length).map ids) db' := by
  induction observations generalizing db index with
  | nil =>
    cases written
    exact GraphOnly.written (.refl _)
  | cons input rest ih =>
    obtain ⟨next, inserted, written⟩ := bind_eq_ok.mp written
    exact (insertObservation_written newObservationRow_fresh rfl inserted).trans (ih written)

section Group

variable [EntityMatching] {entityType : EntityType} {group : Nat} {normalize : Bool}
  {observations : List ObservationInput} {relations : List RelationInput}

/-- **A group** inserts its observations under the ids it reports. -/
theorem writeGroup_written {result : GroupWrite}
    (written : db.writeGroup draws group name entityType observations relations source now
      normalize = .ok (db', result)) : Written db result.outcome.observationIds db' := by
  unfold writeGroup at written
  obtain ⟨⟨ensured, entityId, existed⟩, first, written⟩ := bind_eq_ok.mp written
  obtain ⟨observed, second, written⟩ := bind_eq_ok.mp written
  obtain ⟨related, third, written⟩ := bind_eq_ok.mp written
  cases written
  have whole := ((ensureEntity_graphOnly first).written.trans
    (writeObservations_written second)).trans (writeRelations_graphOnly third).written
  simpa [List.range_eq_range'] using whole

end Group

/-! ## First revisions -/

/-- Rows under distinct ids that have no revision. -/
structure Headless (db : Database) (ids : List String) : Prop where
  distinct : ids.Nodup
  rows : ∀ id ∈ ids, ∃ row, db.observations.get? id = some row ∧ row.currentRevisionId = none

/-- The others still have no revision. -/
theorem Headless.rest {noted : Database} {id : String} {rest : List String}
    (headless : Headless db (id :: rest)) (kept : ∀ other, other ≠ id →
      noted.observations.get? other = db.observations.get? other) : Headless noted rest := by
  obtain ⟨absent, distinct⟩ := List.nodup_cons.mp headless.distinct
  refine ⟨distinct, fun other member => ?_⟩
  obtain ⟨held, present, no_head⟩ := headless.rows other (List.mem_cons_of_mem _ member)
  exact ⟨held, (kept other fun same => absent (same ▸ member)).trans present, no_head⟩

/-- The effects of recording new observations: they get first revisions, and the index is
owed something. -/
def Recording (ids : List String) (effects : List Effect) : Prop :=
  ∀ effect ∈ effects, (∃ id ∈ ids, ∃ row key revision, effect = .headed id row key revision) ∨
    ∃ slot row, effect = .owed slot row

theorem setHead_moves {revisionId : RevisionId}
    (present : db.observations.get? id = some row) (headless : row.currentRevisionId = none)
    (inserted : db.insertObservationRevision revisionId id row none changesetId now = .ok db') :
    ∃ revision, Ledger.Moves db.ledger (.headed id row revisionId.toText revision)
      (db'.setHead id revisionId).ledger := by
  obtain ⟨revisions, added, rfl⟩ := insertRevision_eq_ok inserted
  refine ⟨⟨id, row.semantic, none, changesetId, now, row.lifecycle⟩, ?_⟩
  have after : (({ db with revisions } : Database).setHead id revisionId).ledger =
      (db.ledger.addRevision revisionId.toText
        ⟨id, row.semantic, none, changesetId, now, row.lifecycle⟩).setObservation id
          (some { row with currentRevisionId := some revisionId.toText }) := by
    refine Ledger.ext (funext fun other => ?_) (funext fun other => ?_) rfl
    · change (db.observations.modify id _).get? other = Function.update db.observations.get? _ _ _
      rw [Table.get?_modify, Function.update_apply]
      by_cases here : other = id
      · subst here
        rw [if_pos rfl, if_pos rfl, present]
        rfl
      · rw [if_neg here, if_neg here]
    · change revisions.get? other = Function.update db.revisions.get? _ _ _
      rw [Table.get?_insert added, Function.update_apply]
  rw [after]
  exact .headed present headless (Table.absent_of_insert added) ⟨rfl, rfl, rfl, rfl⟩

/-- Nothing but observations, revisions, events and the outbox differs. -/
def ObservationsOnly (db db' : Database) : Prop :=
  db' = { db with
    observations := db'.observations, revisions := db'.revisions, events := db'.events
    outbox := db'.outbox }

theorem ObservationsOnly.trans (first : ObservationsOnly db db')
    (second : ObservationsOnly db' db'') : ObservationsOnly db db'' := by
  unfold ObservationsOnly at *
  rw [second, first]

/-- **First revisions** of rows that have none. -/
theorem recordRemembered_follows {ids : List String} (headless : Headless db ids)
    (recorded : recordRemembered draws changesetId generation ordinal db index ids = .ok db') :
    (∃ effects, Ledger.Follows db.ledger effects db'.ledger ∧ Recording ids effects) ∧
      ObservationsOnly db db' ∧
      ∀ other, other ∉ ids → db'.observations.get? other = db.observations.get? other := by
  induction ids generalizing db index with
  | nil =>
    cases recorded
    exact ⟨⟨[], rfl, fun _ member => nomatch member⟩, rfl, fun _ _ => rfl⟩
  | cons id rest ih =>
    obtain ⟨row, loaded, recorded⟩ := bind_eq_ok.mp recorded
    obtain ⟨revised, first, recorded⟩ := bind_eq_ok.mp recorded
    obtain ⟨owing, second, recorded⟩ := bind_eq_ok.mp recorded
    obtain ⟨noted, third, following⟩ := bind_eq_ok.mp recorded
    rw [loadObservation_eq_ok] at loaded
    obtain ⟨held, present, no_head⟩ := headless.rows id List.mem_cons_self
    rw [loaded] at present
    cases present
    obtain ⟨revision, headed⟩ := setHead_moves loaded no_head first
    have owed := insertOutbox_moves second
    obtain ⟨outbox, _, rfl⟩ := insertOutbox_eq_ok second
    obtain ⟨revisions, _, rfl⟩ := insertRevision_eq_ok first
    have events := insertOperationEvent_eventsOnly third
    have observations : noted.observations = db.observations.modify id fun row =>
        { row with currentRevisionId := some (draws.revision ordinal index).toText } := by
      rw [events]
      rfl
    have ledger : noted.ledger = ({ (({ db with revisions } : Database).setHead id
        (draws.revision ordinal index)) with outbox } : Database).ledger := by
      rw [events]
      rfl
    have remaining : Headless noted rest := headless.rest fun other apart => by
      rw [observations, Table.get?_modify_of_ne _ apart]
    obtain ⟨⟨effects, follows, recording⟩, only, elsewhere⟩ := ih remaining following
    refine ⟨⟨_ :: _ :: effects, ⟨_, headed, _, owed, ledger ▸ follows⟩, ?_⟩, ?_, ?_⟩
    · intro effect member
      rcases List.mem_cons.mp member with rfl | member
      · exact .inl ⟨id, List.mem_cons_self, row, _, revision, rfl⟩
      · rcases List.mem_cons.mp member with rfl | member
        · exact .inr ⟨_, _, rfl⟩
        · rcases recording effect member with ⟨other, among, rest⟩ | owes
          · exact .inl ⟨other, List.mem_cons_of_mem _ among, rest⟩
          · exact .inr owes
    · refine ObservationsOnly.trans ?_ only
      unfold ObservationsOnly
      rw [events]
      rfl
    · intro other away
      rw [List.mem_cons, not_or] at away
      rw [elsewhere other away.2, observations, Table.get?_modify_of_ne _ away.1]

end Database

end OpenMemory.Graph
