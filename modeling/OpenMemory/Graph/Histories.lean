import OpenMemory.Graph.Backfill
import OpenMemory.Graph.Tidiness

/-!
# Histories page by page

No transaction takes a revision back, moves the change set of a revision to another space,
or binds the store to another space (`KeepsHistory`). So while a history is read page by
page, what lies in front of the cursor stays as it is, as long as the revisions that come in
between lie behind the cursor (`Collects`).

What a reader has collected when there is no further cursor is the history of the store of
the last page, in its order and without repetition.
-/

namespace OpenMemory.Graph

open Foundation
open Merge (Blake3)

/-! ## What transactions keep of a history -/

/-- Where the revisions of a change set come from. -/
structure ChangeSet.SameOrigin (later earlier : ChangeSet) : Prop where
  spaceId : later.spaceId = earlier.spaceId
  actorKind : later.actorKind = earlier.actorKind
  actorId : later.actorId = earlier.actorId
  reason : later.reason = earlier.reason
  source : later.source = earlier.source

theorem ChangeSet.SameOrigin.refl (changes : ChangeSet) : changes.SameOrigin changes :=
  ⟨rfl, rfl, rfl, rfl, rfl⟩

theorem ChangeSet.SameOrigin.trans {first second third : ChangeSet}
    (later : third.SameOrigin second) (earlier : second.SameOrigin first) :
    third.SameOrigin first :=
  ⟨later.spaceId.trans earlier.spaceId, later.actorKind.trans earlier.actorKind,
    later.actorId.trans earlier.actorId, later.reason.trans earlier.reason,
    later.source.trans earlier.source⟩

theorem empty_lt {text : String} (named : text ≠ "") : "" < text := by
  rw [String.lt_iff_toList_lt]
  cases chars : text.toList with
  | nil => exact absurd (String.toList_eq_nil_iff.mp chars) named
  | cons c rest => exact List.nil_lt_cons c rest

namespace Database

variable {db db' : Database} {draws : Draws} {changesetId : ChangeSetId}
  {generation ordinal : Nat} {id : String}

/-- The store stays bound to its space, and change sets keep their origin. -/
structure KeepsOrigins (db db' : Database) : Prop where
  space : ∀ spaceId, db.spaceId = some spaceId → db'.spaceId = some spaceId
  changeSets : ∀ id changes, db.changeSets.get? id = some changes →
    ∃ later, db'.changeSets.get? id = some later ∧ later.SameOrigin changes

theorem KeepsOrigins.of_same (spaceId : db'.spaceId = db.spaceId)
    (changeSets : db'.changeSets = db.changeSets) : KeepsOrigins db db' where
  space _ bound := spaceId.trans bound
  changeSets _ changes held := ⟨changes, changeSets ▸ held, .refl changes⟩

theorem KeepsOrigins.refl (db : Database) : KeepsOrigins db db := .of_same rfl rfl

theorem KeepsOrigins.trans {db'' : Database} (first : KeepsOrigins db db')
    (second : KeepsOrigins db' db'') : KeepsOrigins db db'' where
  space spaceId bound := second.space spaceId (first.space spaceId bound)
  changeSets id changes held := by
    obtain ⟨middle, there, earlier⟩ := first.changeSets id changes held
    obtain ⟨last, stands, later⟩ := second.changeSets id middle there
    exact ⟨last, stands, later.trans earlier⟩

theorem KeepsAudit.keepsOrigins (keeps : KeepsAudit db db') : KeepsOrigins db db' :=
  .of_same keeps.spaceId keeps.changeSets

theorem insertChangeSet_keepsOrigins {row : ChangeSet}
    (inserted : db.insertChangeSet changesetId row = .ok db') : KeepsOrigins db db' := by
  obtain ⟨_, changeSets, added, rfl⟩ := insertChangeSet_eq_ok inserted
  refine ⟨fun _ bound => bound, fun id changes held => ⟨changes, ?_, .refl changes⟩⟩
  change changeSets.get? id = some changes
  rw [Table.get?_insert_of_ne added]
  · exact held
  · rintro rfl
    rw [Table.absent_of_insert added] at held
    cases held

theorem insertRequests_keepsOrigins [PayloadCodec] {operations : List ChangeOperation}
    (inserted : insertRequests changesetId db ordinal operations = .ok db') :
    KeepsOrigins db db' := by
  refine .of_same ?_ ?_ <;> rw [(insertRequests_eq_ok inserted).1]

theorem Closes.keepsOrigins {state : ChangeSetState} {committed : Option Nat} {eventType : String}
    {review : ReviewAuthorization} {reason : String}
    (closes : Closes db draws changesetId state committed eventType review reason db') :
    KeepsOrigins db db' := by
  rw [closes.unchanged]
  refine ⟨fun _ bound => bound, fun id changes held => ?_⟩
  change ∃ later, (db.changeSets.modify changesetId _).get? id = some later ∧ _
  rw [Table.get?_modify, held]
  split
  · exact ⟨_, rfl, rfl, rfl, rfl, rfl, rfl⟩
  · exact ⟨changes, rfl, .refl changes⟩

theorem compatibilitySpaceId_keepsOrigins :
    KeepsOrigins db (db.compatibilitySpaceId draws).1 := by
  unfold compatibilitySpaceId
  split
  · exact .refl _
  · rename_i unbound
    refine ⟨fun spaceId bound => ?_, fun _ changes held => ⟨changes, held, .refl changes⟩⟩
    rw [unbound] at bound
    cases bound

theorem putCheckpoints_keepsOrigins {checkpoint : Option (String × UInt64)} :
    KeepsOrigins db (db.putCheckpoints checkpoint) := by
  unfold putCheckpoints putCheckpoint
  split
  · split <;> exact .of_same rfl rfl
  · exact .refl _

/-- Recording writes observations, revisions, events and the outbox. -/
theorem recordRemembered_only {index : Nat} {ids : List String}
    (recorded : recordRemembered draws changesetId generation ordinal db index ids = .ok db') :
    ObservationsOnly db db' := by
  induction ids generalizing db index with
  | nil =>
    cases recorded
    rfl
  | cons id rest ih =>
    obtain ⟨row, _, recorded⟩ := bind_eq_ok.mp recorded
    obtain ⟨revised, first, recorded⟩ := bind_eq_ok.mp recorded
    obtain ⟨owing, second, recorded⟩ := bind_eq_ok.mp recorded
    obtain ⟨noted, third, following⟩ := bind_eq_ok.mp recorded
    obtain ⟨revisions, _, rfl⟩ := insertRevision_eq_ok first
    obtain ⟨outbox, _, rfl⟩ := insertOutbox_eq_ok second
    have events := insertOperationEvent_eventsOnly third
    refine ObservationsOnly.trans ?_ (ih following)
    unfold ObservationsOnly
    rw [events]
    rfl

theorem recordGroups_only {outcomes : List RememberOutcome}
    (recorded : recordGroups draws changesetId generation db ordinal outcomes = .ok db') :
    ObservationsOnly db db' := by
  induction outcomes generalizing db ordinal with
  | nil =>
    cases recorded
    rfl
  | cons outcome rest ih =>
    obtain ⟨next, first, remaining⟩ := bind_eq_ok.mp recorded
    exact (recordRemembered_only first).trans (ih remaining)

theorem insertBaselines_only {index : Nat} {ids : List String}
    (inserted : insertBaselines draws db index ids = .ok db') : ObservationsOnly db db' := by
  induction ids generalizing db index with
  | nil =>
    cases inserted
    rfl
  | cons id rest ih =>
    obtain ⟨row, _, inserted⟩ := bind_eq_ok.mp inserted
    obtain ⟨revised, first, inserted⟩ := bind_eq_ok.mp inserted
    obtain ⟨noted, second, following⟩ := bind_eq_ok.mp inserted
    obtain ⟨revisions, _, rfl⟩ := insertRevision_eq_ok first
    have events := insertOperationEvent_eventsOnly second
    refine ObservationsOnly.trans ?_ (ih following)
    unfold ObservationsOnly
    rw [events]

variable [Blake3] [PayloadCodec] [EntityMatching] {transaction : Transaction}

theorem Stores.keepsOrigins {draft : ChangeSetDraft} {mode : SubmitMode}
    (stores : Stores db draws draft mode db') : KeepsOrigins db db' := by
  cases stores with
  | proposed inserted requested =>
    exact (insertChangeSet_keepsOrigins inserted).trans (insertRequests_keepsOrigins requested)
  | applied inserted requested ran =>
    exact ((insertChangeSet_keepsOrigins inserted).trans
      (insertRequests_keepsOrigins requested)).trans
        ((applyOperations_applied ran).audit.keepsOrigins.trans (.of_same rfl rfl))

omit [EntityMatching] in
theorem recordLegacyRemembers_keepsOrigins {outcomes : List RememberOutcome}
    {operations : List ChangeOperation} {changeSource : String}
    (recorded : db.recordLegacyRemembers draws outcomes operations changeSource =
      .ok (db', generation)) : KeepsOrigins db db' := by
  obtain ⟨rowed, stored, noted, _, inserted, requested, ran, rfl, rfl⟩ :=
    recordLegacyRemembers_eq_ok recorded
  have before := (compatibilitySpaceId_keepsOrigins.trans
    (insertChangeSet_keepsOrigins inserted)).trans (insertRequests_keepsOrigins requested)
  exact (before.trans (recordGroups_only ran).keepsAudit.keepsOrigins).trans (.of_same rfl rfl)

/-- **Transactions keep** the space and the origins of all change sets. -/
theorem perform_keepsOrigins (performed : db.perform transaction = .ok db') :
    KeepsOrigins db db' := by
  cases transaction with
  | submit draws draft mode =>
    obtain ⟨⟨_, submission⟩, submitted, rfl⟩ := map_eq_ok.mp performed
    obtain ⟨_, _, _, ⟨_, _, _, _, rfl, _⟩ | ⟨_, stores, _⟩⟩ := submitChangeset_eq_ok submitted
    · exact .refl _
    · exact stores.keepsOrigins
  | approve draws name version review =>
    obtain ⟨⟨_, changesetId⟩, approved, rfl⟩ := map_eq_ok.mp performed
    obtain ⟨row, ⟨_, rfl, _⟩ | ⟨_, operations, _, _, outcome⟩⟩ := approveChangeset_eq_ok approved
    · exact .refl _
    · rcases outcome with ⟨_, closes⟩ | ⟨_, applied, closed, ran, closes, rfl⟩
      · exact closes.keepsOrigins
      · exact ((applyOperations_applied ran).audit.keepsOrigins.trans closes.keepsOrigins).trans
          (.of_same rfl rfl)
  | reject draws name version review reason =>
    obtain ⟨⟨_, changesetId⟩, rejected, rfl⟩ := map_eq_ok.mp performed
    obtain ⟨row, ⟨_, rfl, _⟩ | ⟨_, closes⟩⟩ := rejectChangeset_eq_ok rejected
    · exact .refl _
    · exact closes.keepsOrigins
  | remember draws request =>
    obtain ⟨⟨_, remembered⟩, done, rfl⟩ := map_eq_ok.mp performed
    obtain ⟨middle, group, generation, first, second, _⟩ := remember_eq_ok done
    exact (writeGroup_written first).keepsAudit.keepsOrigins.trans
      (recordLegacyRemembers_keepsOrigins second)
  | rememberBatch draws requests options =>
    obtain ⟨⟨_, remembered⟩, done, rfl⟩ := map_eq_ok.mp performed
    rcases rememberBatch_eq_ok done with ⟨_, rfl, _⟩ |
      ⟨middle, groups, last, generation, first, second, rfl, _⟩
    · exact putCheckpoints_keepsOrigins
    · exact ((writeGroups_written first).keepsAudit.keepsOrigins.trans
        (recordLegacyRemembers_keepsOrigins second)).trans putCheckpoints_keepsOrigins
  | bindSpace spaceId =>
    refine ⟨fun existing bound => ?_, ?_⟩
    · change db.bindSpaceId spaceId = .ok db' at performed
      unfold bindSpaceId at performed
      rw [bound] at performed
      obtain ⟨_, _, finished⟩ := bind_eq_ok.mp performed
      cases finished
      exact bound
    · rw [bindSpaceId_eq_ok performed]
      exact fun _ changes held => ⟨changes, held, .refl changes⟩
  | bindCompatibilitySpace draws =>
    cases performed
    exact compatibilitySpaceId_keepsOrigins
  | backfill draws limit =>
    rcases backfillAudit_eq_ok performed with rfl |
      ⟨spaceId, rowed, noted, domain, _, first, second, rfl, _⟩
    · exact .of_same rfl rfl
    · have only := insertBaselines_only second
      exact ((insertChangeSet_keepsOrigins first).trans only.keepsAudit.keepsOrigins).trans
        (.of_same rfl rfl)
  | compact draws retentionSecs limit =>
    cases performed
    exact .of_same rfl rfl
  | preview draws observationId review ttlSecs =>
    obtain ⟨⟨_, preview⟩, previewed, rfl⟩ := map_eq_ok.mp performed
    obtain ⟨_, _, _, _, _, _, _, rfl⟩ := previewObservationDestruction_eq_ok previewed
    exact .of_same rfl rfl
  | importRaw entities observations relations =>
    have rest := (importRaw_follows performed).2
    refine .of_same ?_ ?_ <;> rw [rest]
  | prune draws ttlSecs =>
    cases performed
    have rest := (@pruneWithTtl_removes db draws ttlSecs).rest
    refine .of_same ?_ ?_ <;> rw [rest]
  | forget entityId =>
    have rest := (forgetEntityById_removes performed).rest
    refine .of_same ?_ ?_ <;> rw [rest]
  | addRelation draws fromEntityId toEntityId relationType weight source =>
    exact (addRelation_graphOnly performed).keepsAudit.keepsOrigins
  | addAccesses accesses =>
    cases performed
    have rest := (@addAccesses_follows db accesses).2
    refine .of_same ?_ ?_ <;> rw [rest]
  | indexFailure key error =>
    cases performed
    exact .of_same rfl rfl
  | markApplied now keys =>
    cases performed
    exact .of_same rfl rfl

theorem runs_keepsOrigins {transactions : List Transaction}
    (run : runs performs db transactions = some db') : KeepsOrigins db db' :=
  invariant_of_runs (motive := fun later => KeepsOrigins db later) (.refl db)
    (fun _ _ _ kept performed => kept.trans (perform_keepsOrigins (performs_eq_some.mp performed)))
    run

theorem runs_keepRevisions {transactions : List Transaction} {key : String} {revision : Revision}
    (run : runs performs db transactions = some db')
    (held : db.revisions.get? key = some revision) : db'.revisions.get? key = some revision := by
  refine invariant_of_runs (motive := fun later => later.revisions.get? key = some revision) held
    (fun before _ after stood performed => ?_) run
  obtain ⟨effects, follows, _⟩ := perform_moves (performs_eq_some.mp performed)
  exact follows.revisions stood

/-! ## The rows of a history -/

section Rows

omit [PayloadCodec] [EntityMatching]

variable {spaceId : SpaceId} {observationId : String} {entry : ObservationHistoryEntry}

theorem mem_historyRows : entry ∈ db.historyRows spaceId observationId ↔
    ∃ revision changes, db.revisions.get? entry.revisionId = some revision ∧
      revision.observationId = observationId ∧
      db.changeSets.get? revision.changesetId = some changes ∧ changes.spaceId = spaceId ∧
      entry = ⟨spaceId, observationId, entry.revisionId, revision.parentRevisionId,
        revision.changesetId, revision.lifecycle, revision.semanticHash, changes.actorKind,
        changes.actorId, changes.reason, changes.source, revision.createdAt⟩ := by
  unfold historyRows
  rw [List.mem_filterMap]
  constructor
  · rintro ⟨⟨key, revision⟩, member, made⟩
    obtain ⟨held, own⟩ := List.mem_filter.mp member
    obtain ⟨changes, found, rfl⟩ := Option.map_eq_some_iff.mp made
    obtain ⟨there, same⟩ := Option.filter_eq_some_iff.mp found
    exact ⟨revision, changes, Table.get?_eq_some_iff.mpr held, of_decide_eq_true own, there,
      of_decide_eq_true same, rfl⟩
  · rintro ⟨revision, changes, held, own, there, same, made⟩
    refine ⟨(entry.revisionId, revision), List.mem_filter.mpr
      ⟨Table.get?_eq_some_iff.mp held, decide_eq_true own⟩, ?_⟩
    rw [Option.map_eq_some_iff]
    exact ⟨changes, Option.filter_eq_some_iff.mpr ⟨there, decide_eq_true same⟩, made.symm⟩

theorem historyRows_keys_nodup :
    ((db.historyRows spaceId observationId).map ObservationHistoryEntry.key).Nodup := by
  have ids : ((db.historyRows spaceId observationId).map
      ObservationHistoryEntry.revisionId).Nodup := by
    refine db.revisions.distinct.sublist ?_
    refine (sublist_map_filterMap ?_).trans (List.filter_sublist.map Prod.fst)
    rintro ⟨key, revision⟩ entry made
    obtain ⟨changes, _, rfl⟩ := Option.map_eq_some_iff.mp made
    rfl
  refine List.Nodup.of_map (fun key : Int ×ₗ String => (ofLex key).2) ?_
  rwa [List.map_map]

end Rows

/-! ## Reading on -/

variable {spaceId : SpaceId} {observationId : String} {entry : ObservationHistoryEntry}
  {cursor : HistoryCursor} {after : Option HistoryCursor} {limit : Nat}
  {transactions : List Transaction} {entries : List ObservationHistoryEntry} {last : Database}

variable (bound : db.spaceId = some spaceId)

include bound

omit [PayloadCodec] [EntityMatching] in
/-- **A page** of the rows behind a cursor. -/
theorem observationHistory_eq_ok {page : ObservationHistoryPage}
    (read : db.observationHistory observationId after limit = .ok page) :
    page.entries = (behind ObservationHistoryEntry.key (after.getD .start).key
        (db.historyRows spaceId observationId)).take (max 1 (min limit 256)) ∧
      page.nextCursor = if max 1 (min limit 256) < (behind ObservationHistoryEntry.key
          (after.getD .start).key (db.historyRows spaceId observationId)).length
        then page.entries.getLast?.map ObservationHistoryEntry.cursor else none := by
  obtain ⟨_, _, read⟩ := bind_eq_ok.mp read
  obtain ⟨found, space, read⟩ := bind_eq_ok.mp read
  rw [orRefuse_eq_ok] at space
  cases bound.symm.trans space
  cases read
  dsimp only
  rw [List.take_take, Nat.min_eq_left (Nat.le_succ _), List.length_take]
  refine ⟨rfl, ?_⟩
  congr 1
  rw [lt_min_iff, eq_iff_iff]
  exact and_iff_right (Nat.lt_succ_self _)

omit [PayloadCodec] [EntityMatching] in
theorem observationHistory_succeeds (named : ¬ blank observationId) :
    ∃ page, db.observationHistory observationId after limit = .ok page :=
  ⟨_, bind_eq_ok.mpr ⟨(), refuseIf_eq_ok.mpr named, bind_eq_ok.mpr ⟨spaceId,
    orRefuse_eq_ok.mpr bound, rfl⟩⟩⟩

/-- The revisions of an observation that came in lie behind the cursor. -/
def LaterThan (cursor : HistoryCursor) (observationId : String) (db db' : Database) : Prop :=
  ∀ key revision, db.revisions.get? key = none → db'.revisions.get? key = some revision →
    revision.observationId = observationId →
      cursor.key < HistoryCursor.key ⟨revision.createdAt, key⟩

/-- What a reader collects who follows the cursors of a history until there is none, a page
of the limit at a time, while transactions run between the pages. -/
inductive Collects (observationId : String) (limit : Nat) :
    Database → Option HistoryCursor → List ObservationHistoryEntry → Database → Prop
  | last {db : Database} {after : Option HistoryCursor} {entries : List ObservationHistoryEntry}
      (read : db.observationHistory observationId after limit = .ok ⟨entries, none⟩) :
      Collects observationId limit db after entries db
  | more {db db' last : Database} {after : Option HistoryCursor} {next : HistoryCursor}
      {entries others : List ObservationHistoryEntry} {transactions : List Transaction}
      (read : db.observationHistory observationId after limit = .ok ⟨entries, some next⟩)
      (met : Throughout performs DrawsUnmentioned db transactions)
      (run : runs performs db transactions = some db')
      (later : LaterThan next observationId db db')
      (rest : Collects observationId limit db' (some next) others last) :
      Collects observationId limit db after (entries ++ others) last

omit bound in
/-- In front of a cursor a history stays as it is, while revisions come in behind it. -/
theorem mem_historyRows_of_later (tidy : Tidy ∅ db)
    (run : runs performs db transactions = some db')
    (later : LaterThan cursor observationId db db') (front : entry.key ≤ cursor.key) :
    entry ∈ db'.historyRows spaceId observationId ↔
      entry ∈ db.historyRows spaceId observationId := by
  have origins := (runs_keepsOrigins run).changeSets
  rw [mem_historyRows, mem_historyRows]
  constructor
  · rintro ⟨revision, changes, held, own, there, same, made⟩
    have created : entry.createdAtUnixSecs = revision.createdAt := by rw [made]
    cases before : db.revisions.get? entry.revisionId with
    | none =>
      have behind := later _ revision before held own
      rw [← created] at behind
      exact absurd front (not_le.mpr behind)
    | some earlier =>
      cases (runs_keepRevisions run before).symm.trans held
      obtain ⟨first, stood⟩ :=
        Option.ne_none_iff_exists'.mp (tidy.revisions _ _ before).2.2
      obtain ⟨second, stands, origin⟩ := origins _ first stood
      cases stands.symm.trans there
      refine ⟨revision, first, rfl, own, stood, origin.spaceId.symm.trans same, ?_⟩
      rw [← origin.actorKind, ← origin.actorId, ← origin.reason, ← origin.source]
      exact made
  · rintro ⟨revision, changes, held, own, there, same, made⟩
    obtain ⟨second, stands, origin⟩ := origins _ changes there
    refine ⟨revision, second, runs_keepRevisions run held, own, stands,
      origin.spaceId.trans same, ?_⟩
    rw [origin.actorKind, origin.actorId, origin.reason, origin.source]
    exact made

omit [PayloadCodec] [EntityMatching] in
/-- The cursor of a page is its last entry, which lies behind the cursor before. -/
theorem cursor_of_page {next : HistoryCursor}
    (read : db.observationHistory observationId after limit = .ok ⟨entries, some next⟩) :
    ∃ entry, ((behind ObservationHistoryEntry.key (after.getD .start).key
        (db.historyRows spaceId observationId)).take (max 1 (min limit 256))).getLast? =
          some entry ∧ entry.cursor = next ∧ (after.getD .start).key < next.key := by
  obtain ⟨page, cursor⟩ := observationHistory_eq_ok bound read
  dsimp only at page cursor
  split at cursor
  · obtain ⟨entry, ends, rfl⟩ := Option.map_eq_some_iff.mp cursor.symm
    rw [page] at ends
    have inside := List.mem_of_mem_take (List.mem_of_getLast? ends)
    exact ⟨entry, ends, rfl, (mem_behind.mp inside).2⟩
  · cases cursor

/-- What lies in front of the cursor is the same at the end. -/
theorem Collects.front (reached : TidilyReached db)
    (collects : Collects observationId limit db after entries last)
    (front : entry.key ≤ (after.getD .start).key) : entry ∈ last.historyRows spaceId observationId ↔
      entry ∈ db.historyRows spaceId observationId := by
  induction collects with
  | last read => exact Iff.rfl
  | @more db db' last after next entries others transactions read met run later rest ih =>
    obtain ⟨_, _, _, past⟩ := cursor_of_page bound read
    have beyond : entry.key ≤ next.key := front.trans past.le
    rw [ih ((runs_keepsOrigins run).space spaceId bound) (reached.run met run) beyond]
    exact mem_historyRows_of_later reached.tidy run later beyond

/-- **What is collected** is what lies behind the cursor at the end. -/
theorem Collects.entries_eq (reached : TidilyReached db)
    (collects : Collects observationId limit db after entries last) :
    entries = behind ObservationHistoryEntry.key (after.getD .start).key
      (last.historyRows spaceId observationId) := by
  induction collects with
  | @last db after entries read =>
    obtain ⟨page, cursor⟩ := observationHistory_eq_ok bound read
    dsimp only at page cursor
    split at cursor
    · rename_i more
      have some_left : (behind ObservationHistoryEntry.key (after.getD .start).key
          (db.historyRows spaceId observationId)).take (max 1 (min limit 256)) ≠ [] := by
        intro empty
        have length := congrArg List.length empty
        rw [List.length_take, List.length_nil] at length
        omega
      obtain ⟨entry, ends⟩ := Option.isSome_iff_exists.mp (List.getLast?_isSome.mpr some_left)
      rw [page, ends] at cursor
      cases cursor
    · rename_i all
      rw [page]
      exact List.take_of_length_le (Nat.le_of_not_lt all)
  | @more db db' last after next entries others transactions read met run later rest ih =>
    obtain ⟨entry, ends, rfl, _⟩ := cursor_of_page bound read
    have space := (runs_keepsOrigins run).space spaceId bound
    have reachedNext := reached.run met run
    have page : entries = _ := (observationHistory_eq_ok bound read).1
    rw [ih space reachedNext, page]
    refine (behind_eq_append historyRows_keys_nodup historyRows_keys_nodup ends ?_).symm
    intro other front
    rw [rest.front space reachedNext front]
    exact mem_historyRows_of_later reached.tidy run later front

omit bound in
omit [PayloadCodec] [EntityMatching] in
/-- Every row lies behind the start. -/
theorem Tidy.start_lt {drawn : Set String} (tidy : Tidy drawn db)
    (member : entry ∈ db.historyRows spaceId observationId) :
    HistoryCursor.start.key < entry.key := by
  obtain ⟨revision, changes, held, -, -, -, -⟩ := mem_historyRows.mp member
  have named := (tidy.revisions _ _ held).2.1
  refine Prod.Lex.lt_iff.mpr ?_
  rcases (Int64.minValue_le_toInt entry.createdAtUnixSecs).lt_or_eq with earlier | same
  · exact .inl earlier
  · exact .inr ⟨same, empty_lt named⟩

omit bound in
theorem Collects.reached (reached : TidilyReached db)
    (collects : Collects observationId limit db after entries last) : TidilyReached last := by
  induction collects with
  | last => exact reached
  | more _ met run _ _ ih => exact ih (reached.run met run)

/-- **From the start** the whole history is collected, in order. -/
theorem Collects.whole (reached : TidilyReached db)
    (collects : Collects observationId limit db none entries last) :
    entries.Pairwise (fun earlier later => earlier.key < later.key) ∧
      ∀ entry, entry ∈ entries ↔ entry ∈ last.historyRows spaceId observationId := by
  rw [collects.entries_eq bound reached]
  refine ⟨pairwise_behind historyRows_keys_nodup, fun entry => ?_⟩
  rw [mem_behind]
  exact and_iff_left_of_imp (collects.reached reached).tidy.start_lt

/-- **Reading on ends**: each page takes rows from what lies behind the cursor. -/
theorem collects_exists (named : ¬ blank observationId)
    (limit : Nat) (after : Option HistoryCursor) :
    ∃ entries, Collects observationId limit db after entries db := by
  induction size : (behind ObservationHistoryEntry.key (after.getD .start).key
    (db.historyRows spaceId observationId)).length using Nat.strong_induction_on
    generalizing after with
  | _ size ih =>
    subst size
    obtain ⟨⟨entries, cursor⟩, read⟩ :=
      @observationHistory_succeeds db _ spaceId observationId after limit bound named
    cases cursor with
    | none => exact ⟨entries, .last read⟩
    | some next =>
      obtain ⟨entry, ends, rfl, _⟩ := cursor_of_page bound read
      have rest := behind_eq_append historyRows_keys_nodup historyRows_keys_nodup ends
        fun _ _ => Iff.rfl
      have shorter := congrArg List.length rest
      rw [List.length_append] at shorter
      have some_taken := List.length_pos_of_mem (List.mem_of_getLast? ends)
      have fewer : (behind ObservationHistoryEntry.key ((some entry.cursor).getD .start).key
          (db.historyRows spaceId observationId)).length <
            (behind ObservationHistoryEntry.key (after.getD .start).key
              (db.historyRows spaceId observationId)).length := by
        rw [shorter]
        exact Nat.lt_add_of_pos_left some_taken
      obtain ⟨others, collects⟩ := ih _ fewer (some entry.cursor) rfl
      have met : Throughout performs DrawsUnmentioned db [] := trivial
      have run : runs performs db [] = some db := rfl
      refine ⟨entries ++ others, .more read met run ?_ collects⟩
      intro key revision absent held
      rw [absent] at held
      cases held

end Database

end OpenMemory.Graph
