import OpenMemory.Graph.Inversion

/-!
# The effects of compatibility writes, imports and deletions

The moves of the transactions that are not reviews of change sets: the recording
of groups, baselines, imports, deletions, and marks on the outbox. None of them
revises a row.
-/

namespace OpenMemory.Graph

open Foundation
open Merge (Blake3)

/-! ## Effects without a revision of a row -/

def Effect.revises : Effect → Bool
  | .revised .. => true
  | _ => false

/-- No effect revises an observation. -/
def Unrevised (effects : List Effect) : Prop := ∀ effect ∈ effects, effect.revises = false

namespace Database

variable {db db' : Database} {draws : Draws} {changesetId : ChangeSetId}

/-! ## Compatibility writes -/

theorem recordGroups_follows {generation ordinal : Nat} {outcomes : List RememberOutcome}
    (headless : Headless db (outcomes.flatMap RememberOutcome.observationIds))
    (recorded : recordGroups draws changesetId generation db ordinal outcomes = .ok db') :
    (∃ effects, Ledger.Follows db.ledger effects db'.ledger ∧
      Recording (outcomes.flatMap RememberOutcome.observationIds) effects) ∧
      ObservationsOnly db db' := by
  induction outcomes generalizing db ordinal with
  | nil =>
    cases recorded
    exact ⟨⟨[], rfl, fun _ member => nomatch member⟩, rfl⟩
  | cons outcome rest ih =>
    obtain ⟨next, first, remaining⟩ := bind_eq_ok.mp recorded
    rw [List.flatMap_cons] at headless ⊢
    obtain ⟨distinct, restDistinct, apart⟩ := List.nodup_append.mp headless.distinct
    obtain ⟨⟨effects, follows, recording⟩, only, elsewhere⟩ := recordRemembered_follows
      ⟨distinct, fun id member => headless.rows id (List.mem_append_left _ member)⟩ first
    have later : Headless next (rest.flatMap RememberOutcome.observationIds) := by
      refine ⟨restDistinct, fun id member => ?_⟩
      rw [elsewhere id fun here => apart id here id member rfl]
      exact headless.rows id (List.mem_append_right _ member)
    obtain ⟨⟨others, following, more⟩, onlyMore⟩ := ih later remaining
    refine ⟨⟨effects ++ others, follows.append following, fun effect member => ?_⟩,
      only.trans onlyMore⟩
    rcases List.mem_append.mp member with member | member
    · rcases recording effect member with ⟨id, among, row⟩ | owes
      · exact .inl ⟨id, List.mem_append_left _ among, row⟩
      · exact .inr owes
    · rcases more effect member with ⟨id, among, row⟩ | owes
      · exact .inl ⟨id, List.mem_append_right _ among, row⟩
      · exact .inr owes

section Remember

variable {outcomes : List RememberOutcome}
  {operations : List ChangeOperation} {changeSource : String} {generation : Nat}

/-- **A compatibility write** is recorded as an applied change set. -/
theorem recordLegacyRemembers_eq_ok [Blake3] [PayloadCodec]
    (recorded : db.recordLegacyRemembers draws outcomes operations changeSource =
      .ok (db', generation)) :
    ∃ rowed stored noted,
      validateDraft (legacyDraft draws.changeSet (db.compatibilitySpaceId draws).2 changeSource
        operations) = .ok () ∧
      (db.compatibilitySpaceId draws).1.insertChangeSet draws.changeSet
        (submittedRow (legacyDraft draws.changeSet (db.compatibilitySpaceId draws).2 changeSource
          operations) .applyImmediately db.domain.semanticGeneration draws.now) = .ok rowed ∧
      insertRequests draws.changeSet rowed 0 operations = .ok stored ∧
      recordGroups draws draws.changeSet (db.domain.semanticGeneration + 1) stored 0 outcomes =
        .ok noted ∧
      generation = db.domain.semanticGeneration + 1 ∧ db' = noted.commitGeneration generation := by
  have domain : (db.compatibilitySpaceId draws).1.domain = db.domain := by
    unfold compatibilitySpaceId
    split <;> rfl
  unfold recordLegacyRemembers at recorded
  dsimp only at recorded
  obtain ⟨_, valid, recorded⟩ := bind_eq_ok.mp recorded
  obtain ⟨rowed, inserted, recorded⟩ := bind_eq_ok.mp recorded
  obtain ⟨stored, requested, recorded⟩ := bind_eq_ok.mp recorded
  obtain ⟨noted, ran, finished⟩ := bind_eq_ok.mp recorded
  cases finished
  rw [domain] at inserted ran
  exact ⟨rowed, stored, noted, valid, inserted, requested, ran, by rw [domain], rfl⟩

/-- What the tables of observations, confirmations and the domain are before the
observations of a compatibility write are recorded. -/
theorem legacy_unchanged [PayloadCodec] {rowed stored : Database} {row : ChangeSet}
    (inserted : (db.compatibilitySpaceId draws).1.insertChangeSet draws.changeSet row = .ok rowed)
    (requested : insertRequests draws.changeSet rowed 0 operations = .ok stored) :
    stored.ledger = db.ledger ∧ stored.observations = db.observations ∧
      stored.confirmations = db.confirmations ∧ stored.domain = db.domain := by
  obtain ⟨_, changeSets, _, rfl⟩ := insertChangeSet_eq_ok inserted
  rw [(insertRequests_eq_ok requested).1]
  unfold compatibilitySpaceId
  split <;> exact ⟨rfl, rfl, rfl, rfl⟩

theorem writeGroups_written [EntityMatching] {normalize : Bool} {index : Nat}
    {requests : List RememberRequest} {groups : List GroupWrite}
    (written : writeGroups draws normalize db index requests = .ok (db', groups)) :
    Written db ((groups.map GroupWrite.outcome).flatMap RememberOutcome.observationIds) db' := by
  induction requests generalizing db index groups with
  | nil =>
    cases written
    exact GraphOnly.written (.refl _)
  | cons request rest ih =>
    obtain ⟨⟨next, group⟩, first, written⟩ := bind_eq_ok.mp written
    obtain ⟨⟨last, more⟩, others, finished⟩ := bind_eq_ok.mp written
    cases finished
    rw [List.map_cons, List.flatMap_cons]
    exact (writeGroup_written first).trans (ih others)

/-- Writing groups and recording them moves the ledger, and revises nothing. -/
theorem remembered_follows [Blake3] [PayloadCodec] {middle : Database}
    (written : Written db (outcomes.flatMap RememberOutcome.observationIds) middle)
    (recorded : middle.recordLegacyRemembers draws outcomes operations changeSource =
      .ok (db', generation)) :
    ∃ effects, Ledger.Follows db.ledger effects db'.ledger ∧ Unrevised effects := by
  obtain ⟨rowed, stored, noted, _, inserted, requested, ran, rfl, rfl⟩ :=
    recordLegacyRemembers_eq_ok recorded
  obtain ⟨ledger, observations, _, _⟩ := legacy_unchanged inserted requested
  have headless : Headless stored (outcomes.flatMap RememberOutcome.observationIds) := by
    refine ⟨written.distinct, ?_⟩
    rw [observations]
    exact written.headless
  obtain ⟨⟨others, following, recording⟩, _⟩ := recordGroups_follows headless ran
  obtain ⟨effects, follows, fresh⟩ := written.follows
  rw [ledger] at following
  refine ⟨effects ++ others, follows.append following, fun effect member => ?_⟩
  rcases List.mem_append.mp member with member | member
  · obtain ⟨_, _, _, rfl, _⟩ := fresh effect member
    rfl
  · rcases recording effect member with ⟨_, _, _, _, _, rfl⟩ | ⟨_, _, rfl⟩ <;> rfl

end Remember

/-! ## Baselines, imports and deletions -/

/-- **Baselines** are first revisions. -/
theorem insertBaselines_follows {index : Nat} {ids : List String} (headless : Headless db ids)
    (inserted : insertBaselines draws db index ids = .ok db') :
    (∃ effects, Ledger.Follows db.ledger effects db'.ledger ∧
      ∀ effect ∈ effects, ∃ id ∈ ids, ∃ row key revision, effect = .headed id row key revision) ∧
      ObservationsOnly db db' := by
  induction ids generalizing db index with
  | nil =>
    cases inserted
    exact ⟨⟨[], rfl, fun effect member => nomatch member⟩, rfl⟩
  | cons id rest ih =>
    obtain ⟨row, loaded, inserted⟩ := bind_eq_ok.mp inserted
    obtain ⟨revised, first, inserted⟩ := bind_eq_ok.mp inserted
    obtain ⟨noted, second, following⟩ := bind_eq_ok.mp inserted
    rw [loadObservation_eq_ok] at loaded
    obtain ⟨held, present, no_head⟩ := headless.rows id List.mem_cons_self
    rw [loaded] at present
    cases present
    obtain ⟨revision, headed⟩ := setHead_moves loaded no_head first
    obtain ⟨revisions, _, rfl⟩ := insertRevision_eq_ok first
    have events := insertOperationEvent_eventsOnly second
    have rows : ∀ other, noted.observations.get? other =
        (({ db with revisions } : Database).setHead id
          (draws.revision 0 index)).observations.get? other := by
      intro other
      rw [events]
      change (db.observations.modify id _).get? other = (db.observations.modify id _).get? other
      rw [Table.get?_modify, Table.get?_modify]
      split
      · rename_i here
        rw [here, loaded, Option.map_some, Option.map_some, if_pos no_head]
      · rfl
    have ledger : noted.ledger = (({ db with revisions } : Database).setHead id
        (draws.revision 0 index)).ledger := by
      refine Ledger.ext (funext rows) ?_ ?_ <;> rw [events] <;> rfl
    have remaining : Headless noted rest := headless.rest fun other apart =>
      (rows other).trans (Table.get?_modify_of_ne _ apart)
    obtain ⟨⟨effects, follows, kinds⟩, only⟩ := ih remaining following
    refine ⟨⟨_ :: effects, ⟨_, headed, ledger ▸ follows⟩, fun effect member => ?_⟩, ?_⟩
    · rcases List.mem_cons.mp member with rfl | member
      · exact ⟨id, List.mem_cons_self, row, _, revision, rfl⟩
      · obtain ⟨other, among, rest⟩ := kinds effect member
        exact ⟨other, List.mem_cons_of_mem _ among, rest⟩
    · refine ObservationsOnly.trans ?_ only
      unfold ObservationsOnly
      rw [events]

theorem backfillPage_headless {limit : Nat} : Headless db (db.backfillPage limit) := by
  unfold backfillPage
  constructor
  · refine List.Nodup.sublist (List.take_sublist _ _) ?_
    refine (List.perm_insertionSort _ _).nodup_iff.mpr ?_
    exact db.observations.distinct.sublist (List.filter_sublist.map Prod.fst)
  · intro id member
    have sorted := (List.perm_insertionSort _ _).mem_iff.mp (List.mem_of_mem_take member)
    obtain ⟨entry, held, rfl⟩ := List.mem_map.mp sorted
    obtain ⟨held, headless⟩ := List.mem_filter.mp held
    simp only [decide_eq_true_eq] at headless
    exact ⟨entry.2, Table.get?_eq_some_iff.mpr held, headless.1⟩

/-- **A page of baselines**, or the note that there are no more. -/
theorem backfillAudit_eq_ok [Blake3] {limit : Nat} (done : db.backfillAudit draws limit = .ok db') :
    (db' = { db with domain := { db.domain with backfillComplete := true } }) ∨
      ∃ spaceId rowed noted domain, db.spaceId = some spaceId ∧
        db.insertChangeSet draws.changeSet (baselineRow draws.changeSet spaceId draws.now) =
          .ok rowed ∧
        insertBaselines draws rowed 0 (db.backfillPage (max 1 (min limit 1024))) = .ok noted ∧
        db' = { noted with domain } ∧
        domain.semanticGeneration = noted.domain.semanticGeneration ∧
        domain.indexedGeneration = noted.domain.indexedGeneration ∧
        domain.indexRepairRequired = noted.domain.indexRepairRequired := by
  unfold backfillAudit boundSpaceId at done
  dsimp only at done
  obtain ⟨spaceId, bound, done⟩ := bind_eq_ok.mp done
  rw [orRefuse_eq_ok] at bound
  split at done
  · cases done
    exact .inl rfl
  · obtain ⟨rowed, first, done⟩ := bind_eq_ok.mp done
    obtain ⟨noted, second, finished⟩ := bind_eq_ok.mp done
    cases finished
    exact .inr ⟨spaceId, rowed, noted, _, bound, first, second, rfl, rfl, rfl, rfl⟩

theorem importRaw_follows {entities : List Entity} {observations : List Observation}
    {relations : List Relation}
    (imported : db.importRaw entities observations relations = .ok db') :
    (∃ effects, Ledger.Follows db.ledger effects db'.ledger ∧
      ∀ effect ∈ effects, ∃ observation ∈ observations,
        effect = .inserted observation.id (importedRow observation)) ∧
      db' = { db with
        entities := db'.entities, observations := db'.observations, relations := db'.relations } := by
  unfold importRaw at imported
  obtain ⟨first, entered, imported⟩ := bind_eq_ok.mp imported
  obtain ⟨second, observed, related⟩ := bind_eq_ok.mp imported
  have graph : GraphOnly db first := by
    refine foldlM_induction (.refl db) ?_ entered
    intro entity _ before after only inserted
    exact only.trans (insertEntity_graphOnly inserted)
  have rest : GraphOnly second db' := by
    refine foldlM_induction (.refl second) ?_ related
    intro relation _ before after only inserted
    exact only.trans (insertRelation_graphOnly inserted)
  have middle : (∃ effects, Ledger.Follows first.ledger effects second.ledger ∧
      ∀ effect ∈ effects, ∃ observation ∈ observations,
        effect = .inserted observation.id (importedRow observation)) ∧
      second = { first with observations := second.observations } := by
    refine foldlM_induction (motive := fun later : Database => (∃ effects,
      Ledger.Follows first.ledger effects later.ledger ∧ ∀ effect ∈ effects,
        ∃ observation ∈ observations, effect = .inserted observation.id (importedRow observation)) ∧
      later = { first with observations := later.observations }) ?_ ?_ observed
    · exact ⟨⟨[], rfl, fun _ member => nomatch member⟩, rfl⟩
    rintro observation member before after ⟨⟨effects, follows, kinds⟩, same⟩ inserted
    have moved := insertObservation_moves ⟨rfl, rfl, rfl⟩ inserted
    obtain ⟨_, observations', _, rfl⟩ := insertObservation_eq_ok inserted
    refine ⟨⟨effects ++ [_], follows.append (.single moved), fun effect among => ?_⟩, by rw [same]⟩
    rcases List.mem_append.mp among with among | among
    · exact kinds effect among
    · exact ⟨observation, member, List.mem_singleton.mp among⟩
  obtain ⟨⟨effects, follows, kinds⟩, same⟩ := middle
  rw [graph.ledger] at follows
  refine ⟨⟨effects, rest.ledger ▸ follows, kinds⟩, ?_⟩
  rw [rest, same, graph]

/-- Rows of some observations were removed, with entities and relations. -/
structure Removes (db db' : Database) : Prop where
  follows : ∃ effects, Ledger.Follows db.ledger effects db'.ledger ∧
    ∀ effect ∈ effects, ∃ gone, effect = .removed gone
  rest : db' = { db with
    entities := db'.entities, observations := db'.observations, relations := db'.relations }

theorem Removes.trans {db'' : Database} (first : Removes db db') (second : Removes db' db'') :
    Removes db db'' where
  follows := by
    obtain ⟨effects, follows, kinds⟩ := first.follows
    obtain ⟨others, following, more⟩ := second.follows
    refine ⟨effects ++ others, follows.append following, fun effect member => ?_⟩
    rcases List.mem_append.mp member with member | member
    · exact kinds effect member
    · exact more effect member
  rest := by
    rw [second.rest, first.rest]

/-- Keeping only some rows is one move. -/
theorem removes_of_filter (keep : String → ObservationRow → Bool)
    (rows : db'.observations = db.observations.filter keep)
    (rest : db' = { db with
      entities := db'.entities, observations := db'.observations, relations := db'.relations }) :
    Removes db db' := by
  let gone : String → Bool := fun id => (db.observations.get? id).all fun row => !keep id row
  refine ⟨⟨[.removed gone], .single ?_, fun effect member =>
    ⟨gone, List.mem_singleton.mp member⟩⟩, rest⟩
  have after : db'.ledger = { db.ledger with
      observations := fun id => if gone id = true then none else db.ledger.observations id } := by
    refine Ledger.ext (funext fun id => ?_) ?_ ?_
    · change db'.observations.get? id = if gone id = true then none else db.observations.get? id
      rw [rows, Table.get?_filter]
      change _ = if (db.observations.get? id).all _ = true then none else _
      cases db.observations.get? id with
      | none => rfl
      | some row => cases kept : keep id row <;> simp [kept]
    · rw [rest]
      rfl
    · rw [rest]
      rfl
  rw [after]
  exact .removed

theorem deleteEntity_removes {entityId : String} : Removes db (db.deleteEntity entityId) := by
  unfold deleteEntity
  exact removes_of_filter (fun _ row => row.semantic.entityId ≠ entityId) rfl rfl

theorem pruneWithTtl_removes {ttlSecs : Int64} : Removes db (db.pruneWithTtl draws ttlSecs) := by
  unfold pruneWithTtl
  dsimp only
  refine List.foldlRecOn _ deleteEntity (motive := fun later => Removes db later)
    (removes_of_filter (fun _ row => !stale (draws.now - max 0 ttlSecs) row) rfl rfl) ?_
  intro later removes id _
  exact removes.trans deleteEntity_removes

theorem forgetEntityById_removes {entityId : String}
    (forgotten : db.forgetEntityById entityId = .ok db') : Removes db db' := by
  unfold forgetEntityById at forgotten
  obtain ⟨_, _, forgotten⟩ := bind_eq_ok.mp forgotten
  obtain ⟨_, _, finished⟩ := bind_eq_ok.mp forgotten
  cases finished
  exact deleteEntity_removes

theorem addAccesses_follows {accesses : List (String × UInt32)} :
    (∃ effects, Ledger.Follows db.ledger effects (db.addAccesses accesses).ledger ∧
      ∀ effect ∈ effects, ∃ id count, effect = .accessed id count) ∧
      db.addAccesses accesses =
        { db with observations := (db.addAccesses accesses).observations } := by
  unfold addAccesses
  refine List.foldlRecOn _ _ (motive := fun later : Database => (∃ effects,
      Ledger.Follows db.ledger effects later.ledger ∧
        ∀ effect ∈ effects, ∃ id count, effect = .accessed id count) ∧
      later = { db with observations := later.observations }) ?_ ?_
  · exact ⟨⟨[], rfl, fun _ member => nomatch member⟩, rfl⟩
  rintro later ⟨⟨effects, follows, kinds⟩, same⟩ ⟨id, count⟩ _
  refine ⟨⟨effects ++ [.accessed id count], follows.append (.single ?_), ?_⟩, by rw [same]⟩
  · have after : ({ later with observations := later.observations.modify id fun row =>
        { row with accessCount := row.accessCount + count } } : Database).ledger =
        { later.ledger with observations := fun other =>
          if other = id then (later.ledger.observations other).map fun row =>
            { row with accessCount := row.accessCount + count }
          else later.ledger.observations other } := by
      refine Ledger.ext (funext fun other => ?_) rfl rfl
      exact Table.get?_modify _
    rw [after]
    exact .accessed
  · intro effect member
    rcases List.mem_append.mp member with member | member
    · exact kinds effect member
    · exact ⟨id, count, List.mem_singleton.mp member⟩

/-! ## Marks -/

theorem moves_of_marks {after : Database} {note : Nat × Nat → OutboxRow → OutboxRow}
    (marks : Ledger.Marks note) (same : after.ledger = { db.ledger with
      outbox := (db.outbox.map note).get? }) :
    ∃ note, Ledger.Moves db.ledger (.noted note) after.ledger := by
  refine ⟨note, ?_⟩
  rw [same, show (db.outbox.map note).get? = _ from funext fun slot => Table.get?_map note]
  exact .noted marks

theorem recordIndexFailure_moves {key : Nat × Nat} {error : String} :
    ∃ note, Ledger.Moves db.ledger (.noted note) (db.recordIndexFailure key error).ledger := by
  have marks : Ledger.Marks fun slot row => if slot = key then
      if row.appliedAt = none then
        { row with attempts := row.attempts + 1, lastError := some error }
      else row
    else row := by
    constructor <;> intro slot row
    iterate 3
      · split <;> [split; skip] <;> rfl
    · intro applied
      simp only [if_neg applied, ite_self]
  exact moves_of_marks marks rfl

theorem markIndexRowsApplied_moves {now : Int64} {keys : List (Nat × Nat)} :
    ∃ note, Ledger.Moves db.ledger (.noted note) (db.markIndexRowsApplied now keys).ledger := by
  have marks : Ledger.Marks fun slot row => if slot ∈ keys ∧ row.appliedAt = none then
      { row with appliedAt := some now, attempts := row.attempts + 1, lastError := none }
    else row := by
    constructor <;> intro slot row
    iterate 3
      · split <;> rfl
    · exact fun applied => if_neg fun both => applied both.2
  exact moves_of_marks marks rfl

end Database

end OpenMemory.Graph
