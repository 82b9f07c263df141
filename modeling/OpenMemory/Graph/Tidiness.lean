import OpenMemory.Graph.Reachable

/-!
# What rows and revisions look like

The side tables of an observation are sets, so its concepts and its files are read sorted
and each once. A revision is copied from a row, so the same is true of revisions. A
revision has an id and belongs to a change set that is there. The revision of a destruction
is the last one of its observation, as long as no id is drawn that occurs in the store
already (`Unmentioned`).

Every statement of the write path keeps this (`Tidy`), inside a transaction too.
-/

namespace OpenMemory.Graph

open Foundation
open Merge (Blake3)

/-! ## Side tables -/

theorem sideRows_sideRows (texts : List String) : sideRows (sideRows texts) = sideRows texts := by
  have nodup : (sideRows texts).Nodup := by
    unfold sideRows
    rw [(List.perm_insertionSort _ _).nodup_iff]
    exact List.nodup_dedup _
  change (sideRows texts).dedup.insertionSort (· ≤ ·) = _
  rw [nodup.dedup]
  exact (List.pairwise_insertionSort _ _).insertionSort_eq

/-- The lists of a content are as side tables are read. -/
structure SemanticContent.Tidy (content : SemanticContent) : Prop where
  concepts : sideRows content.concepts = content.concepts
  sourceFiles : sideRows content.sourceFiles = content.sourceFiles

theorem Database.tidy_storedContent (content : SemanticContent) :
    (storedContent content).Tidy :=
  ⟨sideRows_sideRows _, sideRows_sideRows _⟩

theorem SemanticContent.Tidy.storedContent {content : SemanticContent} (tidy : content.Tidy) :
    Database.storedContent content = content := by
  unfold Database.storedContent
  rw [tidy.concepts, tidy.sourceFiles]

variable {now : Int64} {source : String} {index : Nat} {version : UInt64}

theorem newObservationRow_tidy {entityId : String} {input : ObservationInput} :
    (newObservationRow entityId source now input).semantic.Tidy :=
  ⟨sideRows_sideRows _, sideRows_sideRows _⟩

theorem importedRow_tidy {observation : Observation} :
    (Database.importedRow observation).semantic.Tidy :=
  ⟨sideRows_sideRows _, sideRows_sideRows _⟩

theorem toText_ne_empty (id : RevisionId) : id.toText ≠ "" := by
  intro empty
  have size := id.uuid.hyphenated_utf8ByteSize
  change id.toText.utf8ByteSize = 36 at size
  rw [empty] at size
  exact absurd size (by decide)

namespace Database

variable {db db' : Database} {draws : Draws} {changesetId : ChangeSetId} {drawn : Set String}
  {generation ordinal : Nat} {id : String}

/-! ## The invariant -/

/-- The rows and revisions of a store, while the ids of `drawn` may be inserted. -/
structure Tidy (drawn : Set String) (db : Database) : Prop where
  rows : ∀ id row, db.observations.get? id = some row →
    row.semantic.Tidy ∧ row.lifecycle ≠ .destroyed
  revisions : ∀ key revision, db.revisions.get? key = some revision →
    revision.semantic.Tidy ∧ key ≠ "" ∧ db.changeSets.get? revision.changesetId ≠ none
  destroyed : ∀ key revision, db.revisions.get? key = some revision →
    revision.lifecycle = .destroyed →
      db.observations.get? revision.observationId = none ∧ revision.observationId ∉ drawn
  confirmed : ∀ hash confirmation, db.confirmations.get? hash = some confirmation →
    confirmation.logicalId ∉ drawn

/-- The store while a change set is applied, whose row is there. -/
structure TidyUnder (drawn : Set String) (changesetId : ChangeSetId) (db : Database) : Prop where
  tidy : Tidy drawn db
  present : db.changeSets.get? changesetId ≠ none

theorem Tidy.of_same (tidy : Tidy drawn db) (observations : db'.observations = db.observations)
    (revisions : db'.revisions = db.revisions) (changeSets : db'.changeSets = db.changeSets)
    (confirmations : db'.confirmations = db.confirmations) : Tidy drawn db' := by
  obtain ⟨rows, revised, destroyed, confirmed⟩ := tidy
  constructor
  · rwa [observations]
  · rwa [revisions, changeSets]
  · rwa [revisions, observations]
  · rwa [confirmations]

section

variable (under : TidyUnder drawn changesetId db)

include under

theorem TidyUnder.of_same
    (observations : db'.observations = db.observations) (revisions : db'.revisions = db.revisions)
    (changeSets : db'.changeSets = db.changeSets)
    (confirmations : db'.confirmations = db.confirmations) : TidyUnder drawn changesetId db' :=
  ⟨under.tidy.of_same observations revisions changeSets confirmations, changeSets ▸ under.present⟩

omit under in
theorem GraphOnly.tidy (only : GraphOnly db db') (tidy : Tidy drawn db) : Tidy drawn db' := by
  refine tidy.of_same only.observations ?_ only.keepsAudit.changeSets only.confirmations
  rw [only]

theorem EventsOnly.tidyUnder (only : EventsOnly db db') : TidyUnder drawn changesetId db' := by
  refine under.of_same ?_ ?_ ?_ ?_ <;> rw [only]

/-! ## Statements -/

omit under in
/-- A row is inserted under a drawn id. -/
theorem Tidy.insertObservation {row : ObservationRow} (tidy : Tidy drawn db) (own : id ∈ drawn)
    (content : row.semantic.Tidy) (live : row.lifecycle ≠ .destroyed)
    (inserted : db.insertObservation id row = .ok db') : Tidy drawn db' := by
  obtain ⟨_, observations, added, rfl⟩ := insertObservation_eq_ok inserted
  obtain ⟨rows, revisions, destroyed, confirmed⟩ := tidy
  refine ⟨fun other held present => ?_, revisions, fun key revision held gone => ?_, confirmed⟩
  · rw [Table.get?_insert added] at present
    split at present
    · cases present
      exact ⟨content, live⟩
    · exact rows other held present
  · obtain ⟨absent, apart⟩ := destroyed key revision held gone
    refine ⟨?_, apart⟩
    rw [Table.get?_insert_of_ne added]
    · exact absent
    · intro same
      rw [same] at apart
      exact apart own

omit under in
/-- A row is changed in place. -/
theorem Tidy.modify {change : ObservationRow → ObservationRow} (tidy : Tidy drawn db) (id : String)
    (content : ∀ row, row.semantic.Tidy ∧ row.lifecycle ≠ .destroyed →
      (change row).semantic.Tidy ∧ (change row).lifecycle ≠ .destroyed) :
    Tidy drawn { db with observations := db.observations.modify id change } := by
  obtain ⟨rows, revisions, destroyed, confirmed⟩ := tidy
  refine ⟨fun other held present => ?_, revisions, fun key revision held gone => ?_, confirmed⟩
  · rw [Table.get?_modify] at present
    split at present
    · obtain ⟨row, before, rfl⟩ := Option.map_eq_some_iff.mp present
      exact content row (rows other row before)
    · exact rows other held present
  · obtain ⟨absent, apart⟩ := destroyed key revision held gone
    refine ⟨?_, apart⟩
    rw [Table.get?_modify, absent, Option.map_none, ite_self]

omit under in
/-- Rows are removed. -/
theorem Tidy.of_fewer (tidy : Tidy drawn db)
    (fewer : ∀ id row, db'.observations.get? id = some row → ∃ before,
      db.observations.get? id = some before ∧ row.semantic = before.semantic ∧
        row.lifecycle = before.lifecycle)
    (revisions : db'.revisions = db.revisions) (changeSets : db'.changeSets = db.changeSets)
    (confirmations : db'.confirmations = db.confirmations) : Tidy drawn db' where
  rows id row present := by
    obtain ⟨before, held, semantic, lifecycle⟩ := fewer id row present
    rw [semantic, lifecycle]
    exact tidy.rows id before held
  revisions := by
    rw [revisions, changeSets]
    exact tidy.revisions
  destroyed key revision held gone := by
    rw [revisions] at held
    obtain ⟨absent, apart⟩ := tidy.destroyed key revision held gone
    refine ⟨?_, apart⟩
    cases present : db'.observations.get? revision.observationId with
    | none => rfl
    | some row =>
      obtain ⟨before, held, _⟩ := fewer _ row present
      rw [absent] at held
      cases held
  confirmed := by
    rw [confirmations]
    exact tidy.confirmed

/-- A revision is copied from a row. -/
theorem TidyUnder.insertObservationRevision {revisionId : RevisionId} {row : ObservationRow}
    {parent : Option String} (content : row.semantic.Tidy ∧ row.lifecycle ≠ .destroyed)
    (inserted : db.insertObservationRevision revisionId id row parent changesetId now = .ok db') :
    TidyUnder drawn changesetId db' := by
  obtain ⟨revisions, added, rfl⟩ := insertRevision_eq_ok inserted
  obtain ⟨⟨rows, revised, destroyed, confirmed⟩, own⟩ := under
  refine ⟨⟨rows, fun key revision held => ?_, fun key revision held gone => ?_, confirmed⟩, own⟩
  · rw [Table.get?_insert added] at held
    split at held
    · rename_i same
      cases held
      exact ⟨content.1, same ▸ toText_ne_empty revisionId, own⟩
    · exact revised key revision held
  · rw [Table.get?_insert added] at held
    split at held
    · cases held
      exact absurd gone content.2
    · exact destroyed key revision held gone

theorem TidyUnder.modify {change : ObservationRow → ObservationRow} (id : String)
    (content : ∀ row, row.semantic.Tidy ∧ row.lifecycle ≠ .destroyed →
      (change row).semantic.Tidy ∧ (change row).lifecycle ≠ .destroyed) :
    TidyUnder drawn changesetId { db with observations := db.observations.modify id change } :=
  ⟨under.tidy.modify id content, under.present⟩

theorem TidyUnder.insertOutbox {operation : OutboxOperation} {logicalId : String}
    {revisionId : Option String} {slot : Nat}
    (inserted : db.insertOutbox generation slot operation logicalId revisionId now = .ok db') :
    TidyUnder drawn changesetId db' := by
  obtain ⟨outbox, _, rfl⟩ := insertOutbox_eq_ok inserted
  exact under.of_same rfl rfl rfl rfl

/-! ## Groups of observations -/

omit under in
theorem writeObservations_tidy {entityId : String} {ids : Nat → String}
    {observations : List ObservationInput} (own : ∀ item, ids item ∈ drawn) (tidy : Tidy drawn db)
    (written : writeObservations entityId source now ids db index observations = .ok db') :
    Tidy drawn db' := by
  induction observations generalizing db index with
  | nil =>
    cases written
    exact tidy
  | cons input rest ih =>
    obtain ⟨next, inserted, written⟩ := bind_eq_ok.mp written
    exact ih (tidy.insertObservation (own index) newObservationRow_tidy (by simp
      [newObservationRow]) inserted) written

omit under in
theorem writeGroup_tidy [EntityMatching] {group : Nat} {name : String}
    {entityType : EntityType} {observations : List ObservationInput}
    {relations : List RelationInput} {normalize : Bool} {result : GroupWrite}
    (own : ∀ item, draws.observation group item ∈ drawn) (tidy : Tidy drawn db)
    (written : db.writeGroup draws group name entityType observations relations source now
      normalize = .ok (db', result)) : Tidy drawn db' := by
  unfold writeGroup at written
  obtain ⟨⟨ensured, entityId, existed⟩, first, written⟩ := bind_eq_ok.mp written
  obtain ⟨observed, second, written⟩ := bind_eq_ok.mp written
  obtain ⟨related, third, written⟩ := bind_eq_ok.mp written
  cases written
  exact (writeRelations_graphOnly third).tidy
    (writeObservations_tidy own ((ensureEntity_graphOnly first).tidy tidy) second)

theorem recordRemembered_tidy {ids : List String}
    (recorded : recordRemembered draws changesetId generation ordinal db index ids = .ok db') :
    TidyUnder drawn changesetId db' := by
  induction ids generalizing db index with
  | nil =>
    cases recorded
    exact under
  | cons id rest ih =>
    obtain ⟨row, loaded, recorded⟩ := bind_eq_ok.mp recorded
    obtain ⟨revised, first, recorded⟩ := bind_eq_ok.mp recorded
    obtain ⟨owing, second, recorded⟩ := bind_eq_ok.mp recorded
    obtain ⟨noted, third, following⟩ := bind_eq_ok.mp recorded
    have content := under.tidy.rows id row (loadObservation_eq_ok.mp loaded)
    have headed : TidyUnder drawn changesetId (revised.setHead id (draws.revision ordinal index)) :=
      (under.insertObservationRevision content first).modify id fun _ held => held
    exact ih ((insertOperationEvent_eventsOnly third).tidyUnder (headed.insertOutbox second))
      following

theorem recordGroups_tidy {outcomes : List RememberOutcome}
    (recorded : recordGroups draws changesetId generation db ordinal outcomes = .ok db') :
    TidyUnder drawn changesetId db' := by
  induction outcomes generalizing db ordinal with
  | nil =>
    cases recorded
    exact under
  | cons outcome rest ih =>
    obtain ⟨next, first, remaining⟩ := bind_eq_ok.mp recorded
    exact ih (recordRemembered_tidy under first) remaining

omit under in
theorem insertBaselines_tidy {ids : List String} (under : TidyUnder drawn draws.changeSet db)
    (inserted : insertBaselines draws db index ids = .ok db') :
    TidyUnder drawn draws.changeSet db' := by
  induction ids generalizing db index with
  | nil =>
    cases inserted
    exact under
  | cons id rest ih =>
    obtain ⟨row, loaded, inserted⟩ := bind_eq_ok.mp inserted
    obtain ⟨revised, first, inserted⟩ := bind_eq_ok.mp inserted
    obtain ⟨noted, second, following⟩ := bind_eq_ok.mp inserted
    have content := under.tidy.rows id row (loadObservation_eq_ok.mp loaded)
    refine ih ((insertOperationEvent_eventsOnly second).tidyUnder ?_) following
    refine (under.insertObservationRevision content first).modify id fun row held => ?_
    split <;> exact held

/-! ## Operations -/

theorem recordRevision_tidy {parent : Option String}
    {operation : OutboxOperation} {eventType : String}
    (recorded : db.recordRevision draws changesetId generation ordinal id parent version operation
      eventType = .ok db') : TidyUnder drawn changesetId db' := by
  unfold recordRevision at recorded
  obtain ⟨refreshed, loaded, recorded⟩ := bind_eq_ok.mp recorded
  obtain ⟨revised, first, recorded⟩ := bind_eq_ok.mp recorded
  obtain ⟨owing, second, noted⟩ := bind_eq_ok.mp recorded
  have content := under.tidy.rows id refreshed (loadObservation_eq_ok.mp loaded)
  have advanced : TidyUnder drawn changesetId
      (revised.advanceHead id (draws.revision ordinal 0) version) := by
    refine (under.insertObservationRevision content first).modify id fun row held => ?_
    split <;> exact held
  exact (insertOperationEvent_eventsOnly noted).tidyUnder (advanced.insertOutbox second)

theorem replaceObservation_tidy {semantic : SemanticContent} {tombstoned : Bool}
    (replaced : db.replaceObservation id semantic tombstoned = .ok db') :
    TidyUnder drawn changesetId db' := by
  rw [replaceObservation_eq_ok replaced]
  refine under.modify id fun row _ => ⟨tidy_storedContent semantic, ?_⟩
  change (if tombstoned = true then _ else _) ≠ Lifecycle.destroyed
  split <;> exact Lifecycle.noConfusion

theorem applyUpdate_tidy {observation : Observation} {expectedRevisionId : Option String}
    (applied : db.applyUpdate draws changesetId generation ordinal observation version
      expectedRevisionId = .ok db') : TidyUnder drawn changesetId db' := by
  unfold applyUpdate at applied
  obtain ⟨row, _, applied⟩ := bind_eq_ok.mp applied
  obtain ⟨_, _, applied⟩ := bind_eq_ok.mp applied
  obtain ⟨_, _, applied⟩ := bind_eq_ok.mp applied
  obtain ⟨replaced, first, recorded⟩ := bind_eq_ok.mp applied
  exact recordRevision_tidy (replaceObservation_tidy under first) recorded

theorem applyLifecycle_tidy {tombstoned : Bool}
    (applied : db.applyLifecycle draws changesetId generation ordinal id version tombstoned =
      .ok db') : TidyUnder drawn changesetId db' := by
  unfold applyLifecycle at applied
  obtain ⟨row, _, applied⟩ := bind_eq_ok.mp applied
  obtain ⟨_, _, recorded⟩ := bind_eq_ok.mp applied
  have changed : TidyUnder drawn changesetId { db with
      observations := db.observations.modify id fun row =>
        { row with tombstoned, lifecycle := if tombstoned then .retired else .active } } := by
    refine under.modify id fun row held => ⟨held.1, ?_⟩
    dsimp only
    split <;> exact Lifecycle.noConfusion
  exact recordRevision_tidy changed recorded

theorem applyRevert_tidy {revisionId : String}
    (applied : db.applyRevert draws changesetId generation ordinal id revisionId version =
      .ok db') : TidyUnder drawn changesetId db' := by
  unfold applyRevert at applied
  obtain ⟨row, _, applied⟩ := bind_eq_ok.mp applied
  obtain ⟨_, _, applied⟩ := bind_eq_ok.mp applied
  obtain ⟨historical, _, applied⟩ := bind_eq_ok.mp applied
  obtain ⟨replaced, first, recorded⟩ := bind_eq_ok.mp applied
  exact recordRevision_tidy (replaceObservation_tidy under first) recorded

/-- A destruction removes the row whose last revision it adds. Its confirmation names the
observation, so its id is not drawn. -/
theorem applyDestroy_tidy {expectedRevisionId : Option String} {confirmationHash : String}
    (applied : db.applyDestroy draws changesetId generation ordinal id version expectedRevisionId
      confirmationHash = .ok db') : TidyUnder drawn changesetId db' := by
  unfold applyDestroy at applied
  obtain ⟨row, loaded, applied⟩ := bind_eq_ok.mp applied
  obtain ⟨_, _, applied⟩ := bind_eq_ok.mp applied
  obtain ⟨confirmation, confirmed, applied⟩ := bind_eq_ok.mp applied
  obtain ⟨changeSet, own, applied⟩ := bind_eq_ok.mp applied
  obtain ⟨_, permitted, applied⟩ := bind_eq_ok.mp applied
  obtain ⟨revised, first, applied⟩ := bind_eq_ok.mp applied
  obtain ⟨owing, second, applied⟩ := bind_eq_ok.mp applied
  obtain ⟨noted, third, applied⟩ := bind_eq_ok.mp applied
  obtain ⟨destructions, _, finished⟩ := bind_eq_ok.mp applied
  cases finished
  have content := (under.tidy.rows id row (loadObservation_eq_ok.mp loaded)).1
  have apart : id ∉ drawn := by
    rw [orRefuse_eq_ok] at confirmed
    rw [refuseIf_eq_ok] at permitted
    have named : confirmation.logicalId = id := by
      by_contra other
      exact permitted (.inr (.inl other))
    exact named ▸ under.tidy.confirmed _ _ confirmed
  obtain ⟨revisions, added, rfl⟩ := insertRevision_eq_ok first
  obtain ⟨outbox, _, rfl⟩ := insertOutbox_eq_ok second
  have events := insertOperationEvent_eventsOnly third
  obtain ⟨⟨rows, revised, destroyed, confirms⟩, present⟩ := under
  rw [events]
  refine ⟨⟨fun other held there => ?_, fun key revision held => ?_, fun key revision held gone => ?_,
    fun hash consumed held => ?_⟩, present⟩
  · change (db.observations.erase id).get? other = some held at there
    exact rows other held (Table.of_get?_erase there)
  · change revisions.get? key = some revision at held
    rw [Table.get?_insert added] at held
    split at held
    · rename_i same
      cases held
      exact ⟨content, same ▸ toText_ne_empty _, present⟩
    · exact revised key revision held
  · change revisions.get? key = some revision at held
    change (db.observations.erase id).get? _ = none ∧ _
    rw [Table.get?_insert added] at held
    rw [Table.get?_erase]
    split at held
    · cases held
      exact ⟨if_pos rfl, apart⟩
    · obtain ⟨absent, other⟩ := destroyed key revision held gone
      rw [absent, ite_self]
      exact ⟨rfl, other⟩
  · change (db.confirmations.modify confirmationHash _).get? hash = some consumed at held
    rw [Table.get?_modify] at held
    split at held
    · obtain ⟨before, stood, rfl⟩ := Option.map_eq_some_iff.mp held
      exact confirms hash before stood
    · exact confirms hash consumed held

end

variable [EntityMatching] {operation : ChangeOperation} {operations : List ChangeOperation}

theorem applyOperation_tidy (own : ∀ group item, draws.observation group item ∈ drawn)
    (under : TidyUnder drawn changesetId db)
    (applied : db.applyOperation draws changesetId generation ordinal operation = .ok db') :
    TidyUnder drawn changesetId db' := by
  cases operation with
  | remember entityName entityType observations relations =>
    obtain ⟨⟨grouped, group⟩, first, recorded⟩ := bind_eq_ok.mp applied
    have present : grouped.changeSets.get? changesetId ≠ none := by
      rw [(writeGroup_written first).keepsAudit.changeSets]
      exact under.present
    exact recordRemembered_tidy ⟨writeGroup_tidy (own ordinal) under.tidy first, present⟩ recorded
  | updateObservation observation version expectedRevisionId => exact applyUpdate_tidy under applied
  | retireObservation id version => exact applyLifecycle_tidy under applied
  | restoreObservation id version => exact applyLifecycle_tidy under applied
  | revertObservation id revisionId version => exact applyRevert_tidy under applied
  | destroyObservation id version expectedRevisionId confirmationHash =>
    exact applyDestroy_tidy under applied

theorem applyOperations_tidy (own : ∀ group item, draws.observation group item ∈ drawn)
    (under : TidyUnder drawn changesetId db)
    (applied : applyOperations draws changesetId generation db ordinal operations = .ok db') :
    TidyUnder drawn changesetId db' := by
  induction operations generalizing db ordinal with
  | nil =>
    cases applied
    exact under
  | cons operation rest ih =>
    obtain ⟨next, first, applied⟩ := bind_eq_ok.mp applied
    exact ih (applyOperation_tidy own under first) applied

/-! ## Transactions -/

/-- Neither a revision nor a confirmation names the id. -/
structure Unmentioned (db : Database) (id : String) : Prop where
  revisions : ∀ key revision, db.revisions.get? key = some revision → revision.observationId ≠ id
  confirmations : ∀ hash confirmation, db.confirmations.get? hash = some confirmation →
    confirmation.logicalId ≠ id

section

omit [EntityMatching]

/-- Unmentioned ids may be drawn. -/
theorem Tidy.draw (tidy : Tidy ∅ db) (unused : ∀ id ∈ drawn, Unmentioned db id) : Tidy drawn db where
  rows := tidy.rows
  revisions := tidy.revisions
  destroyed key revision held gone :=
    ⟨(tidy.destroyed key revision held gone).1, fun own =>
      (unused _ own).revisions key revision held rfl⟩
  confirmed hash confirmation held own := (unused _ own).confirmations hash confirmation held rfl

theorem Tidy.close (tidy : Tidy drawn db) : Tidy ∅ db where
  rows := tidy.rows
  revisions := tidy.revisions
  destroyed key revision held gone :=
    ⟨(tidy.destroyed key revision held gone).1, Set.notMem_empty _⟩
  confirmed _ _ _ := Set.notMem_empty _

/-- Change sets come, and none goes. -/
theorem Tidy.of_changeSets (tidy : Tidy drawn db)
    (observations : db'.observations = db.observations) (revisions : db'.revisions = db.revisions)
    (confirmations : db'.confirmations = db.confirmations)
    (kept : ∀ id, db.changeSets.get? id ≠ none → db'.changeSets.get? id ≠ none) :
    Tidy drawn db' := by
  obtain ⟨rows, revised, destroyed, confirmed⟩ := tidy
  constructor
  · rwa [observations]
  · rw [revisions]
    intro key revision held
    obtain ⟨content, named, present⟩ := revised key revision held
    exact ⟨content, named, kept _ present⟩
  · rwa [revisions, observations]
  · rwa [confirmations]

theorem Tidy.insertChangeSet {row : ChangeSet} (tidy : Tidy drawn db)
    (inserted : db.insertChangeSet changesetId row = .ok db') :
    TidyUnder drawn changesetId db' := by
  obtain ⟨_, changeSets, added, rfl⟩ := insertChangeSet_eq_ok inserted
  refine ⟨tidy.of_changeSets rfl rfl rfl fun id present => ?_, ?_⟩
  · change changeSets.get? id ≠ none
    rw [Table.get?_insert added]
    split
    · exact Option.some_ne_none row
    · exact present
  · change changeSets.get? changesetId ≠ none
    rw [Table.get?_insert_self added]
    exact Option.some_ne_none row

theorem TidyUnder.insertRequests [PayloadCodec] {operations : List ChangeOperation}
    (under : TidyUnder drawn changesetId db)
    (inserted : Database.insertRequests changesetId db ordinal operations = .ok db') :
    TidyUnder drawn changesetId db' := by
  have same := (insertRequests_eq_ok inserted).1
  refine under.of_same ?_ ?_ ?_ ?_ <;> rw [same]

theorem Closes.tidy {state : ChangeSetState} {committed : Option Nat} {eventType : String}
    {review : ReviewAuthorization} {reason : String}
    (closes : Closes db draws changesetId state committed eventType review reason db')
    (tidy : Tidy drawn db) : Tidy drawn db' := by
  have same := closes.unchanged
  refine tidy.of_changeSets ?_ ?_ ?_ fun id present => ?_
  · rw [same]
  · rw [same]
  · rw [same]
  · rw [same]
    change (db.changeSets.modify changesetId _).get? id ≠ none
    rw [Table.get?_modify]
    split
    · exact fun nothing => present (Option.map_eq_none_iff.mp nothing)
    · exact present

end

variable [Blake3] [PayloadCodec] {transaction : Transaction}

theorem Stores.tidy {draft : ChangeSetDraft} {mode : SubmitMode}
    (stores : Stores db draws draft mode db')
    (own : ∀ group item, draws.observation group item ∈ drawn) (tidy : Tidy drawn db) :
    Tidy drawn db' := by
  cases stores with
  | proposed inserted requested => exact ((tidy.insertChangeSet inserted).insertRequests requested).tidy
  | applied inserted requested ran =>
    exact (applyOperations_tidy own ((tidy.insertChangeSet inserted).insertRequests requested)
      ran).tidy.of_same rfl rfl rfl rfl

omit [EntityMatching] in
theorem recordLegacyRemembers_tidy {outcomes : List RememberOutcome}
    {operations : List ChangeOperation} {changeSource : String} (tidy : Tidy drawn db)
    (recorded : db.recordLegacyRemembers draws outcomes operations changeSource =
      .ok (db', generation)) : Tidy drawn db' := by
  obtain ⟨rowed, stored, noted, _, inserted, requested, ran, rfl, rfl⟩ :=
    recordLegacyRemembers_eq_ok recorded
  have bound : Tidy drawn (db.compatibilitySpaceId draws).1 := by
    unfold compatibilitySpaceId
    split
    · exact tidy
    · exact tidy.of_same rfl rfl rfl rfl
  exact (recordGroups_tidy ((bound.insertChangeSet inserted).insertRequests requested)
    ran).tidy.of_same rfl rfl rfl rfl

omit [Blake3] [PayloadCodec] in
theorem writeGroups_tidy {normalize : Bool} {index : Nat} {requests : List RememberRequest}
    {groups : List GroupWrite} (own : ∀ group item, draws.observation group item ∈ drawn)
    (tidy : Tidy drawn db)
    (written : writeGroups draws normalize db index requests = .ok (db', groups)) :
    Tidy drawn db' := by
  induction requests generalizing db index groups with
  | nil =>
    cases written
    exact tidy
  | cons request rest ih =>
    obtain ⟨⟨next, group⟩, first, written⟩ := bind_eq_ok.mp written
    obtain ⟨⟨last, more⟩, others, finished⟩ := bind_eq_ok.mp written
    cases finished
    exact ih (writeGroup_tidy (own index) tidy first) others

section

omit [Blake3] [PayloadCodec] [EntityMatching]

theorem putCheckpoints_tidy {checkpoint : Option (String × UInt64)} (tidy : Tidy drawn db) :
    Tidy drawn (db.putCheckpoints checkpoint) := by
  unfold putCheckpoints putCheckpoint
  split
  · split <;> exact tidy.of_same rfl rfl rfl rfl
  · exact tidy

theorem importRaw_tidy {entities : List Entity} {observations : List Observation}
    {relations : List Relation} (own : ∀ observation ∈ observations, observation.id ∈ drawn)
    (tidy : Tidy drawn db) (imported : db.importRaw entities observations relations = .ok db') :
    Tidy drawn db' := by
  unfold importRaw at imported
  obtain ⟨first, entered, imported⟩ := bind_eq_ok.mp imported
  obtain ⟨second, observed, related⟩ := bind_eq_ok.mp imported
  have entities_tidy : Tidy drawn first :=
    foldlM_induction tidy (fun _ _ _ _ held inserted =>
      (insertEntity_graphOnly inserted).tidy held) entered
  have observations_tidy : Tidy drawn second :=
    foldlM_induction entities_tidy (fun observation member _ _ held inserted =>
      held.insertObservation (own observation member) importedRow_tidy (by simp [importedRow])
        inserted) observed
  exact foldlM_induction observations_tidy (fun _ _ _ _ held inserted =>
    (insertRelation_graphOnly inserted).tidy held) related

theorem Removes.tidy (removes : Removes db db') (tidy : Tidy drawn db) : Tidy drawn db' := by
  obtain ⟨effects, follows, kinds⟩ := removes.follows
  have fewer : ∀ id row, db'.ledger.observations id = some row →
      db.ledger.observations id = some row := by
    refine follows.invariant (motive := fun ledger => ∀ id row, ledger.observations id = some row →
      db.ledger.observations id = some row) (fun _ _ held => held) ?_
    intro ledger effect next member held moved id row present
    obtain ⟨gone, rfl⟩ := kinds effect member
    cases moved with
    | removed =>
      dsimp only at present
      split at present
      · cases present
      · exact held id row present
  have rest := removes.rest
  refine tidy.of_fewer (fun id row present => ⟨row, fewer id row present, rfl, rfl⟩) ?_ ?_ ?_ <;>
    rw [rest]

theorem addAccesses_tidy {accesses : List (String × UInt32)} (tidy : Tidy drawn db) :
    Tidy drawn (db.addAccesses accesses) := by
  unfold addAccesses
  refine List.foldlRecOn _ _ (motive := fun later => Tidy drawn later) tidy ?_
  intro later held access _
  exact held.modify access.1 fun row content => content

end

/-- **A transaction** that draws unused ids keeps the store tidy. -/
theorem perform_tidy (tidy : Tidy ∅ db) (unused : ∀ id ∈ transaction.insertions, Unmentioned db id)
    (performed : db.perform transaction = .ok db') : Tidy ∅ db' := by
  have ready : Tidy transaction.insertions db := tidy.draw unused
  cases transaction with
  | submit draws draft mode =>
    obtain ⟨⟨_, submission⟩, submitted, rfl⟩ := map_eq_ok.mp performed
    obtain ⟨_, _, _, ⟨_, _, _, _, rfl, _⟩ | ⟨_, stores, _⟩⟩ := submitChangeset_eq_ok submitted
    · exact tidy
    · have own : ∀ group item, draws.observation group item ∈
          (Transaction.submit draws draft mode).insertions := fun group item => ⟨group, item, rfl⟩
      exact (stores.tidy own ready).close
  | approve draws name version review =>
    obtain ⟨⟨_, changesetId⟩, approved, rfl⟩ := map_eq_ok.mp performed
    obtain ⟨row, ⟨_, rfl, _⟩ | ⟨reviews, operations, _, _, outcome⟩⟩ :=
      approveChangeset_eq_ok approved
    · exact tidy
    · rcases outcome with ⟨_, closes⟩ | ⟨_, applied, closed, ran, closes, rfl⟩
      · exact closes.tidy tidy
      · have present : db.changeSets.get? changesetId ≠ none := by
          rw [reviews.held]
          exact Option.some_ne_none row
        have own : ∀ group item, draws.observation group item ∈
            (Transaction.approve draws name version review).insertions :=
          fun group item => ⟨group, item, rfl⟩
        have under := applyOperations_tidy own ⟨ready, present⟩ ran
        have after : Tidy ∅ closed := (closes.tidy under.tidy).close
        exact after.of_same rfl rfl rfl rfl
  | reject draws name version review reason =>
    obtain ⟨⟨_, changesetId⟩, rejected, rfl⟩ := map_eq_ok.mp performed
    obtain ⟨row, ⟨_, rfl, _⟩ | ⟨_, closes⟩⟩ := rejectChangeset_eq_ok rejected
    · exact tidy
    · exact closes.tidy tidy
  | remember draws request =>
    obtain ⟨⟨_, remembered⟩, done, rfl⟩ := map_eq_ok.mp performed
    obtain ⟨middle, group, generation, first, second, _⟩ := remember_eq_ok done
    have own : ∀ item, draws.observation 0 item ∈
        (Transaction.remember draws request).insertions := fun item => ⟨0, item, rfl⟩
    have written := writeGroup_tidy own ready first
    exact (recordLegacyRemembers_tidy written second).close
  | rememberBatch draws requests options =>
    obtain ⟨⟨_, remembered⟩, done, rfl⟩ := map_eq_ok.mp performed
    rcases rememberBatch_eq_ok done with ⟨_, rfl, _⟩ |
      ⟨middle, groups, last, generation, first, second, rfl, _⟩
    · exact putCheckpoints_tidy tidy
    · have own : ∀ group item, draws.observation group item ∈
          (Transaction.rememberBatch draws requests options).insertions :=
        fun group item => ⟨group, item, rfl⟩
      have written := writeGroups_tidy own ready first
      exact (putCheckpoints_tidy (recordLegacyRemembers_tidy written second)).close
  | bindSpace spaceId =>
    rw [bindSpaceId_eq_ok performed]
    exact tidy.of_same rfl rfl rfl rfl
  | bindCompatibilitySpace draws =>
    cases performed
    unfold compatibilitySpaceId
    split
    · exact tidy
    · exact tidy.of_same rfl rfl rfl rfl
  | backfill draws limit =>
    rcases backfillAudit_eq_ok performed with rfl |
      ⟨spaceId, rowed, noted, domain, _, first, second, rfl, _⟩
    · exact tidy.of_same rfl rfl rfl rfl
    · exact (insertBaselines_tidy (tidy.insertChangeSet first) second).tidy.of_same rfl rfl rfl rfl
  | compact draws retentionSecs limit =>
    cases performed
    exact tidy.of_same rfl rfl rfl rfl
  | preview draws observationId review ttlSecs =>
    obtain ⟨⟨_, preview⟩, previewed, rfl⟩ := map_eq_ok.mp performed
    obtain ⟨_, _, _, _, _, _, _, rfl⟩ := previewObservationDestruction_eq_ok previewed
    exact ⟨tidy.rows, tidy.revisions, tidy.destroyed, fun _ _ _ => Set.notMem_empty _⟩
  | importRaw entities observations relations =>
    have own : ∀ observation ∈ observations, observation.id ∈
        (Transaction.importRaw entities observations relations).insertions :=
      fun observation member => ⟨observation, member, rfl⟩
    exact (importRaw_tidy own ready performed).close
  | prune draws ttlSecs =>
    cases performed
    exact (@pruneWithTtl_removes db draws ttlSecs).tidy tidy
  | forget entityId => exact (forgetEntityById_removes performed).tidy tidy
  | addRelation draws fromEntityId toEntityId relationType weight source =>
    exact (addRelation_graphOnly performed).tidy tidy
  | addAccesses accesses =>
    cases performed
    exact addAccesses_tidy tidy
  | indexFailure key error =>
    cases performed
    exact tidy.of_same rfl rfl rfl rfl
  | markApplied now keys =>
    cases performed
    exact tidy.of_same rfl rfl rfl rfl

/-- A database that was just created or migrated, with its side tables read as they are. -/
structure TidyMigrated (db : Database) : Prop extends Migrated db where
  content : ∀ id row, db.observations.get? id = some row → row.semantic.Tidy

omit [Blake3] [PayloadCodec] [EntityMatching] in
theorem TidyMigrated.tidy (migrated : TidyMigrated db) : Tidy ∅ db where
  rows id row present := by
    refine ⟨migrated.content id row present, ?_⟩
    rw [(migrated.rows id row present).lifecycle]
    exact Lifecycle.noConfusion
  revisions key revision held := by
    rw [migrated.revisions] at held
    cases held
  destroyed key revision held := by
    rw [migrated.revisions] at held
    cases held
  confirmed _ _ _ := Set.notMem_empty _

/-- The ids a transaction draws for observations occur nowhere in the store. -/
def DrawsUnmentioned (db : Database) (transaction : Transaction) : Prop :=
  ∀ id ∈ transaction.insertions, Unmentioned db id

/-- A database that transactions with unused ids reach. -/
def TidilyReached (db : Database) : Prop :=
  ∃ start transactions, TidyMigrated start ∧ Throughout performs DrawsUnmentioned start transactions ∧
    runs performs start transactions = some db

omit [Blake3] [PayloadCodec] [EntityMatching] in
theorem TidyMigrated.reached [Blake3] [PayloadCodec] [EntityMatching]
    (migrated : TidyMigrated db) : TidilyReached db :=
  ⟨db, [], migrated, trivial, rfl⟩

theorem TidilyReached.run {transactions : List Transaction} (reached : TidilyReached db)
    (met : Throughout performs DrawsUnmentioned db transactions)
    (run : runs performs db transactions = some db') : TidilyReached db' := by
  obtain ⟨start, before, migrated, earlier, ran⟩ := reached
  refine ⟨start, before ++ transactions, migrated, throughout_append.mpr ⟨earlier, ?_⟩,
    runs_append.mpr ⟨db, ran, run⟩⟩
  intro middle there
  cases ran.symm.trans there
  exact met

theorem TidilyReached.step (reached : TidilyReached db) (unmentioned : DrawsUnmentioned db transaction)
    (performed : db.perform transaction = .ok db') : TidilyReached db' := by
  have one : runs performs db [transaction] = some db' := by
    rw [runs_singleton]
    exact performs_eq_some.mpr performed
  have met : Throughout performs DrawsUnmentioned db [transaction] :=
    ⟨unmentioned, fun _ _ => trivial⟩
  exact reached.run met one

theorem TidilyReached.tidy (reached : TidilyReached db) : Tidy ∅ db := by
  obtain ⟨start, transactions, migrated, met, run⟩ := reached
  exact invariant_of_throughout migrated.tidy (fun db transaction db' tidy unused performed =>
    perform_tidy tidy unused (performs_eq_some.mp performed)) met run

end Database

end OpenMemory.Graph
