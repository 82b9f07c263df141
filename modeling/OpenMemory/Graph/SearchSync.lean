import OpenMemory.Graph.IndexRepair
import OpenMemory.Graph.Reachable

/-!
# The search index after a write

A compatibility write inserts its observations into the search index as soon as it is
committed, with entries made of what the caller passed (`SearchPayload.entry`). The repair
of the index makes them of the rows instead. The rows have the name that the entity was
created with, which is another one where the group was merged into an entity of a similar
name, and their concepts and files are sorted, without blanks and repetitions.

So both make the same entry exactly where the group keeps its name and the lists are stored
as they are.
-/

namespace OpenMemory.Graph

open Foundation OpenMemory.Index
open Merge (Blake3)

/-! ## The entries of a write -/

/-- The entry of a new observation, under the name that the caller gave the entity. -/
def SearchPayload.entry (payload : SearchPayload) (entityName : String)
    (vector : List Float32Bits) : IndexEntry where
  uri := observationUri payload.id
  text := searchBodyText entityName payload.content
  chunkIndex := 0
  vector := vector
  title := payload.title
  summary := payload.summary
  concepts := payload.concepts
  sourceFiles := payload.sourceFiles
  sourceKind := payload.sourceKind
  entityType := none
  entityName := none

variable {entityId : String} {index : Nat} {observations : List ObservationInput}
  {relations : List RelationInput}

namespace Database

/-- The payloads of a write with the names of their groups, in order. -/
def payloads (groups : List (String × GroupWrite)) : List (String × SearchPayload) :=
  groups.flatMap fun group => group.2.payload.map fun payload => (group.1, payload)

/-- `sync_search_groups`: the entries of a write, each with the next vector while there are
any. -/
def syncEntries : List (String × SearchPayload) → List (List Float32Bits) → List IndexEntry
  | [], _ => []
  | (name, payload) :: rest, vectors =>
    payload.entry name (vectors.headD []) :: syncEntries rest vectors.tail

/-- The calls that write groups. -/
inductive RememberCall where
  | remember (request : RememberRequest)
  | rememberBatch (requests : List RememberRequest) (options : BatchOptions)

namespace RememberCall

def requests : RememberCall → List RememberRequest
  | remember request => [request]
  | rememberBatch requests _ => requests

def normalize : RememberCall → Bool
  | remember _ => true
  | rememberBatch _ options => options.normalize

def run [Blake3] [PayloadCodec] [EntityMatching] (call : RememberCall) (db : Database)
    (draws : Draws) : MemoryResult (Database × Remembered) :=
  match call with
  | remember request => db.remember draws request
  | rememberBatch requests options => db.rememberBatch draws requests options

end RememberCall

/-- A repair of the index would insert this entry. -/
def RepairInserts (db : Database) (entry : IndexEntry) : Prop :=
  ∃ owed ∈ db.owedChanges, ∃ item, db.repairItem owed = .ok item ∧
    ∀ vectorFailure keywordFailure, item.publication entry.vector vectorFailure keywordFailure =
      .insert [entry] vectorFailure keywordFailure

variable {db db' : Database} {draws : Draws} {id name source : String} {now : Int64}
  {payload : SearchPayload} {row : ObservationRow} {entity : StoredEntity}
  {vector : List Float32Bits}

theorem mem_syncEntries {written : List (String × SearchPayload)}
    {vectors : List (List Float32Bits)} {entry : IndexEntry}
    (member : entry ∈ syncEntries written vectors) :
    ∃ name payload vector, (name, payload) ∈ written ∧ entry = payload.entry name vector := by
  induction written generalizing vectors with
  | nil => cases member
  | cons first rest ih =>
    rcases List.mem_cons.mp member with rfl | member
    · exact ⟨first.1, first.2, _, List.mem_cons_self, rfl⟩
    · obtain ⟨name, payload, vector, among, same⟩ := ih member
      exact ⟨name, payload, vector, List.mem_cons_of_mem _ among, same⟩

/-- Without vectors every payload has its entry. -/
theorem mem_syncEntries_nil {written : List (String × SearchPayload)}
    (member : (name, payload) ∈ written) : payload.entry name [] ∈ syncEntries written [] := by
  induction written with
  | nil => cases member
  | cons first rest ih =>
    rcases List.mem_cons.mp member with rfl | member
    · exact List.mem_cons_self
    · exact List.mem_cons_of_mem _ (ih member)

/-! ## Rows and their payloads -/

/-- The observation is in the store as its payload says, up to the name of its entity and
the lists of texts, which may be stored in another way. -/
structure HeldAs (db : Database) (payload : SearchPayload) (row : ObservationRow)
    (entity : StoredEntity) : Prop where
  row_held : db.observations.get? payload.id = some row
  entity_held : db.entities.get? row.semantic.entityId = some entity
  active : IndexRepairItem.active row = true
  content : row.semantic.content = payload.content
  title : row.semantic.title = payload.title
  summary : row.semantic.summary = payload.summary
  sourceKind : row.semantic.sourceKind = payload.sourceKind

/-- The rows say the same as the payload about the name and the lists of texts. -/
structure SaysSame (name : String) (payload : SearchPayload) (row : ObservationRow)
    (entity : StoredEntity) : Prop where
  entityName : entity.name = name
  concepts : row.semantic.concepts = payload.concepts
  sourceFiles : row.semantic.sourceFiles = payload.sourceFiles

/-- The index is owed the observation. -/
def Owes (db : Database) (id : String) : Prop :=
  ∃ slot owed, db.outbox.get? slot = some owed ∧ owed.appliedAt = none ∧
    owed.operation = .upsert ∧ owed.logicalId = id

theorem mem_owedChanges {slot : Nat × Nat} {owed : OutboxRow} :
    (slot, owed) ∈ db.owedChanges ↔ db.outbox.get? slot = some owed ∧ owed.appliedAt = none := by
  unfold owedChanges
  rw [(List.mergeSort_perm _ _).mem_iff, List.mem_filter, Table.get?_eq_some_iff,
    Option.isNone_iff_eq_none]

theorem observationUri_injective : Function.Injective observationUri := by
  intro left right same
  unfold observationUri at same
  have chars : "memory://observation/".toList ++ left.toList =
      "memory://observation/".toList ++ right.toList := by
    rw [← String.toList_append, same, String.toList_append]
  rw [List.append_right_inj] at chars
  exact String.toList_inj.mp chars

theorem searchBodyText_inj {left right content : String} :
    searchBodyText left content = searchBodyText right content ↔ left = right := by
  unfold searchBodyText
  constructor
  · intro same
    have chars : left.toList ++ ": ".toList ++ content.toList =
        right.toList ++ ": ".toList ++ content.toList := by
      rw [← String.toList_append, ← String.toList_append, same, String.toList_append,
        String.toList_append]
    rw [List.append_left_inj, List.append_left_inj] at chars
    exact String.toList_inj.mp chars
  · rintro rfl
    rfl

/-- What a repair reads for an observation that is held. -/
theorem HeldAs.repairItem (held : db.HeldAs payload row entity) {slot : Nat × Nat}
    {owed : OutboxRow} (own : owed.logicalId = payload.id) :
    db.repairItem (slot, owed) =
      .ok ⟨slot, owed.operation, payload.id, some row, some entity.name⟩ := by
  have found : orRefuse (db.entities.get? row.semantic.entityId) noRows = .ok entity :=
    orRefuse_eq_ok.mpr held.entity_held
  unfold Database.repairItem
  dsimp only
  rw [own, held.row_held]
  dsimp only
  rw [found]
  rfl

theorem repairItem_logicalId {owed : (Nat × Nat) × OutboxRow} {item : IndexRepairItem}
    (made : db.repairItem owed = .ok item) : item.logicalId = owed.2.logicalId := by
  unfold Database.repairItem at made
  dsimp only at made
  split at made
  · cases made
    rfl
  · obtain ⟨entity, _, finished⟩ := bind_eq_ok.mp made
    cases finished
    rfl

/-- What an item inserts is made of its row. -/
theorem row_of_inserts {item : IndexRepairItem} {entry : IndexEntry}
    (published : item.publication entry.vector none none = .insert [entry] none none) :
    ∃ row, item.observation = some row ∧ item.entry row entry.vector = entry := by
  unfold IndexRepairItem.publication at published
  split at published
  · rename_i row operation observation
    split at published
    · injection published with entries
      exact ⟨row, observation, List.singleton_inj.mp entries⟩
    · cases published
  · cases published
  · cases published

/-- The entry of an observation as it is stored. -/
def rowEntry (id : String) (row : ObservationRow) (entityName : String)
    (vector : List Float32Bits) : IndexEntry :=
  IndexRepairItem.entry ⟨(0, 0), .upsert, id, some row, some entityName⟩ row vector

/-- A repair inserts the entry of the rows for what is held and owed. -/
theorem HeldAs.repaired (held : db.HeldAs payload row entity) (owes : db.Owes payload.id)
    (vector : List Float32Bits) :
    db.RepairInserts (rowEntry payload.id row entity.name vector) := by
  obtain ⟨slot, owed, present, unapplied, upsert, own⟩ := owes
  refine ⟨(slot, owed), mem_owedChanges.mpr ⟨present, unapplied⟩, _, held.repairItem own,
    fun vectorFailure keywordFailure => ?_⟩
  unfold IndexRepairItem.publication
  dsimp only
  rw [upsert]
  exact if_pos held.active

/-- **Where both make the same entry.** -/
theorem HeldAs.repairInserts_iff (held : db.HeldAs payload row entity)
    (owes : db.Owes payload.id) :
    db.RepairInserts (payload.entry name vector) ↔ SaysSame name payload row entity := by
  constructor
  · rintro ⟨⟨slot, owed⟩, among, item, made, published⟩
    obtain ⟨stored, observation, same⟩ := row_of_inserts (published none none)
    -- the URI names the observation, so the item is made of its row and its entity
    have own : owed.logicalId = payload.id := by
      rw [← repairItem_logicalId made]
      exact observationUri_injective (congrArg IndexEntry.uri same)
    rw [held.repairItem own] at made
    cases made
    cases observation
    have text : searchBodyText entity.name row.semantic.content =
        searchBodyText name payload.content := congrArg IndexEntry.text same
    rw [held.content, searchBodyText_inj] at text
    exact ⟨text, congrArg IndexEntry.concepts same, congrArg IndexEntry.sourceFiles same⟩
  · rintro ⟨entityName, concepts, sourceFiles⟩
    have same : payload.entry name vector = rowEntry payload.id row entity.name vector := by
      unfold SearchPayload.entry rowEntry IndexRepairItem.entry
      dsimp only
      rw [held.content, held.title, held.summary, held.sourceKind, concepts, sourceFiles,
        entityName]
      rfl
    rw [same]
    exact held.repaired owes vector

/-! ## Lists of texts as they are stored -/

/-- Texts that a side table gives back as they were inserted. -/
def StoredAsIs (texts : List String) : Prop :=
  (∀ text ∈ texts, blank text = false) ∧ texts.Pairwise (· < ·)

instance (texts : List String) : Decidable (StoredAsIs texts) :=
  inferInstanceAs (Decidable (_ ∧ _))

theorem sideRows_filter_eq_self {texts : List String} :
    sideRows (texts.filter fun text => !blank text) = texts ↔ StoredAsIs texts := by
  have members : ∀ text, text ∈ sideRows (texts.filter fun text => !blank text) ↔
      text ∈ texts ∧ blank text = false := by
    intro text
    unfold sideRows
    rw [List.mem_insertionSort, List.mem_dedup, List.mem_filter, Bool.not_eq_true']
  constructor
  · intro same
    rw [same] at members
    refine ⟨fun text member => ((members text).mp member).2, ?_⟩
    rw [← same]
    unfold sideRows
    have sorted := List.pairwise_insertionSort (· ≤ ·) (texts.filter fun text => !blank text).dedup
    have distinct := (List.perm_insertionSort (· ≤ ·)
      (texts.filter fun text => !blank text).dedup).nodup_iff.mpr (List.nodup_dedup _)
    exact (sorted.and distinct).imp fun both => lt_of_le_of_ne both.1 both.2
  · rintro ⟨filled, increasing⟩
    have all : texts.filter (fun text => !blank text) = texts :=
      List.filter_eq_self.mpr fun text member => Bool.not_eq_true' _ ▸ filled text member
    unfold sideRows
    have distinct : texts.Nodup := increasing.imp ne_of_lt
    rw [all, distinct.dedup]
    exact (increasing.imp le_of_lt).insertionSort_eq

/-! ## The entity of a group -/

section Matching

variable [EntityMatching] {entityType : EntityType} {normalize existed : Bool}
  {newId sameAsId : String}

/-- The entity that a group is merged into because its name is similar enough. -/
def mergedInto (db : Database) (name : String) (entityType : EntityType) (normalize : Bool) :
    Option String :=
  match db.entityNamed name entityType with
  | some _ => none
  | none =>
    match if EntityMatching.enabled && normalize then
        findBestMatch name (db.fuzzyCandidates entityType) else none with
    | some (.autoMerge id _) => some id
    | some (.flag _ _) | none => none

omit [EntityMatching] in
theorem entityNamed_eq_some (found : db.entityNamed name entityType = some id) :
    ∃ entity, db.entities.get? id = some entity ∧ entity.name = name := by
  obtain ⟨entry, first, rfl⟩ := Option.map_eq_some_iff.mp found
  have same : entry.2.name = name ∧ entry.2.entityType = entityType := by
    simpa using List.find?_some first
  exact ⟨entry.2, Table.get?_eq_some_iff.mpr (List.mem_of_find?_eq_some first), same.1⟩

omit [EntityMatching] in
theorem entityNamed_eq_none (absent : db.entityNamed name entityType = none)
    (held : db.entities.get? id = some entity) (typed : entity.entityType = entityType) :
    entity.name ≠ name := by
  intro named
  have none_found := List.find?_eq_none.mp (Option.map_eq_none_iff.mp absent) (id, entity)
    (Table.get?_eq_some_iff.mp held)
  exact none_found (decide_eq_true ⟨named, typed⟩)

theorem bestCandidate_mem {candidates : List (String × String)}
    (best : (bestCandidate name candidates).1 = some id) : id ∈ candidates.map Prod.fst := by
  have within (given : List (String × String)) (start : Option String × ℚ)
      (ends : (given.foldl (fun best candidate =>
        if best.2 < EntityMatching.similarity name candidate.2 then
          (some candidate.1, EntityMatching.similarity name candidate.2)
        else best) start).1 = some id) : start.1 = some id ∨ id ∈ given.map Prod.fst := by
    induction given generalizing start with
    | nil => exact .inl ends
    | cons first rest ih =>
      rcases ih _ ends with here | later
      · dsimp only at here
        split at here
        · cases here
          exact .inr List.mem_cons_self
        · exact .inl here
      · exact .inr (List.mem_cons_of_mem _ later)
  rcases within candidates (none, 0) best with none | member
  · cases none
  · exact member

theorem autoMerge_mem {candidates : List (String × String)} {score : ℚ}
    (best : findBestMatch name candidates = some (.autoMerge id score)) :
    id ∈ candidates.map Prod.fst := by
  unfold findBestMatch at best
  split at best
  · cases best
  · rename_i found value same
    have first : (bestCandidate name candidates).1 = some id := by
      rw [same]
      split at best
      · cases best
        rfl
      · split at best <;> cases best
    exact bestCandidate_mem first

theorem mem_fuzzyCandidates (member : id ∈ (db.fuzzyCandidates entityType).map Prod.fst) :
    ∃ entity, db.entities.get? id = some entity ∧ entity.entityType = entityType := by
  obtain ⟨candidate, among, rfl⟩ := List.mem_map.mp member
  obtain ⟨entry, taken, rfl⟩ := List.mem_map.mp among
  obtain ⟨held, typed⟩ := List.mem_filter.mp
    ((List.mem_insertionSort _).mp (List.mem_of_mem_take taken))
  simp only [decide_eq_true_eq] at typed
  exact ⟨entry.2, Table.get?_eq_some_iff.mpr held, typed.1⟩

end Matching

/-! ## What later writes keep -/

/-- Observations keep what is indexed of them, and entities keep their names. -/
structure KeepsIndexed (db db' : Database) : Prop where
  rows : ∀ id row, db.observations.get? id = some row → ∃ later,
    db'.observations.get? id = some later ∧ later.semantic = row.semantic ∧
      IndexRepairItem.active later = IndexRepairItem.active row
  names : ∀ id entity, db.entities.get? id = some entity → ∃ later,
    db'.entities.get? id = some later ∧ later.name = entity.name

theorem KeepsIndexed.trans {db'' : Database} (first : KeepsIndexed db db')
    (second : KeepsIndexed db' db'') : KeepsIndexed db db'' where
  rows id row held := by
    obtain ⟨middle, there, semantic, active⟩ := first.rows id row held
    obtain ⟨last, stands, later, lasting⟩ := second.rows id middle there
    exact ⟨last, stands, later.trans semantic, lasting.trans active⟩
  names id entity held := by
    obtain ⟨middle, there, named⟩ := first.names id entity held
    obtain ⟨last, stands, later⟩ := second.names id middle there
    exact ⟨last, stands, later.trans named⟩

/-- Rows that stay, whatever comes in beside them. -/
theorem KeepsIndexed.of_kept
    (rows : ∀ id row, db.observations.get? id = some row → db'.observations.get? id = some row)
    (names : ∀ id entity, db.entities.get? id = some entity → ∃ later,
      db'.entities.get? id = some later ∧ later.name = entity.name) : KeepsIndexed db db' where
  rows id row held := ⟨row, rows id row held, rfl, rfl⟩
  names := names

theorem KeepsIndexed.of_same (observations : db'.observations = db.observations)
    (entities : db'.entities = db.entities) : KeepsIndexed db db' :=
  .of_kept (fun _ _ held => observations ▸ held) fun _ entity held =>
    ⟨entity, entities ▸ held, rfl⟩

theorem touchEntity_keepsIndexed : KeepsIndexed db (db.touchEntity id now) := by
  refine .of_kept (fun _ _ held => held) fun other entity held => ?_
  change ∃ later, (db.entities.modify id _).get? other = some later ∧ _
  rw [Table.get?_modify, held]
  split
  · exact ⟨_, rfl, rfl⟩
  · exact ⟨entity, rfl, rfl⟩

theorem insertEntity_keepsIndexed (inserted : db.insertEntity id entity = .ok db') :
    KeepsIndexed db db' := by
  obtain ⟨entities, added, rfl⟩ := insertEntity_eq_ok inserted
  refine .of_kept (fun _ _ held => held) fun other earlier held => ⟨earlier, ?_, rfl⟩
  change entities.get? other = some earlier
  rw [Table.get?_insert_of_ne added]
  · exact held
  · rintro rfl
    rw [Table.absent_of_insert added] at held
    cases held

theorem insertRelation_keepsIndexed {relation : StoredRelation}
    (inserted : db.insertRelation id relation = .ok db') : KeepsIndexed db db' := by
  unfold insertRelation at inserted
  obtain ⟨_, _, inserted⟩ := bind_eq_ok.mp inserted
  obtain ⟨relations, _, inserted⟩ := bind_eq_ok.mp inserted
  cases inserted
  exact .of_same rfl rfl

theorem insertObservation_keepsIndexed (inserted : db.insertObservation id row = .ok db') :
    KeepsIndexed db db' := by
  obtain ⟨_, observations, added, rfl⟩ := insertObservation_eq_ok inserted
  refine .of_kept (fun other earlier held => ?_) fun _ entity held => ⟨entity, held, rfl⟩
  change observations.get? other = some earlier
  rw [Table.get?_insert_of_ne added]
  · exact held
  · rintro rfl
    rw [Table.absent_of_insert added] at held
    cases held

/-! ## Writing groups -/

section Groups

variable [EntityMatching] {entityType : EntityType} {normalize existed : Bool}
  {newId sameAsId : String}

/-- **The entity of a group** has the name of the group where it is not merged into one. -/
theorem ensureEntity_named
    (ensured : db.ensureEntity name entityType source now normalize newId sameAsId =
      .ok (db', id, existed)) : KeepsIndexed db db' ∧ ∃ entity, db'.entities.get? id = some entity ∧
        (entity.name = name ↔ db.mergedInto name entityType normalize = none) := by
  have touched {found : String} {entity : StoredEntity}
      (held : db.entities.get? found = some entity) : ∃ later,
        (db.touchEntity found now).entities.get? found = some later ∧ later.name = entity.name :=
    touchEntity_keepsIndexed.names found entity held
  have created {next : Database} (inserted : db.createEntity newId name entityType source now =
      .ok next) : ∃ entity, next.entities.get? newId = some entity ∧ entity.name = name := by
    obtain ⟨entities, added, rfl⟩ := insertEntity_eq_ok inserted
    exact ⟨_, Table.get?_insert_self added, rfl⟩
  unfold ensureEntity at ensured
  unfold mergedInto
  cases found : db.entityNamed name entityType with
  | some known =>
    rw [found] at ensured
    cases ensured
    obtain ⟨entity, held, named⟩ := entityNamed_eq_some found
    obtain ⟨later, there, same⟩ := touched held
    exact ⟨touchEntity_keepsIndexed, later, there, iff_of_true (same.trans named) rfl⟩
  | none =>
    rw [found] at ensured
    dsimp only at ensured ⊢
    generalize best : (if EntityMatching.enabled && normalize then
        findBestMatch name (db.fuzzyCandidates entityType) else none) = merging at ensured ⊢
    match merging, best, ensured with
    | some (.autoMerge merged score), best, ensured =>
      cases ensured
      have candidate : findBestMatch name (db.fuzzyCandidates entityType) =
          some (.autoMerge id score) := by
        split at best
        · exact best
        · cases best
      obtain ⟨entity, held, typed⟩ := mem_fuzzyCandidates (autoMerge_mem candidate)
      obtain ⟨later, there, same⟩ := touched held
      refine ⟨touchEntity_keepsIndexed, later, there, iff_of_false ?_ (Option.some_ne_none _)⟩
      rw [same]
      exact entityNamed_eq_none found held typed
    | some (.flag matched score), best, ensured =>
      obtain ⟨next, first, ensured⟩ := bind_eq_ok.mp ensured
      obtain ⟨related, second, finished⟩ := bind_eq_ok.mp ensured
      cases finished
      obtain ⟨entity, held, named⟩ := created first
      have keeps := insertRelation_keepsIndexed second
      obtain ⟨later, there, same⟩ := keeps.names _ entity held
      exact ⟨(insertEntity_keepsIndexed first).trans keeps, later, there,
        iff_of_true (same.trans named) rfl⟩
    | none, best, ensured =>
      obtain ⟨next, first, finished⟩ := bind_eq_ok.mp ensured
      cases finished
      obtain ⟨entity, held, named⟩ := created first
      exact ⟨insertEntity_keepsIndexed first, entity, held, iff_of_true named rfl⟩

end Groups

/-- The observation of a payload is in the store. -/
def Held (db : Database) (payload : SearchPayload) : Prop :=
  ∃ row entity, db.HeldAs payload row entity

/-- The store says the same as a payload under a name. -/
def Agrees (db : Database) (name : String) (payload : SearchPayload) : Prop :=
  ∃ row entity, db.HeldAs payload row entity ∧ SaysSame name payload row entity

theorem HeldAs.agrees_iff (held : db.HeldAs payload row entity) :
    db.Agrees name payload ↔ SaysSame name payload row entity := by
  constructor
  · rintro ⟨other, owner, there, same⟩
    cases held.row_held.symm.trans there.row_held
    cases held.entity_held.symm.trans there.entity_held
    exact same
  · exact fun same => ⟨row, entity, held, same⟩

/-- What is held stays held, and says what it said. -/
theorem KeepsIndexed.held (keeps : KeepsIndexed db db') (held : db.Held payload) :
    db'.Held payload ∧ ∀ name, db'.Agrees name payload ↔ db.Agrees name payload := by
  obtain ⟨row, entity, held⟩ := held
  obtain ⟨later, there, semantic, active⟩ := keeps.rows _ row held.row_held
  obtain ⟨owner, stands, named⟩ := keeps.names _ entity held.entity_held
  have still : db'.HeldAs payload later owner := by
    refine ⟨there, ?_, active.trans held.active, ?_, ?_, ?_, ?_⟩ <;> rw [semantic]
    · exact stands
    · exact held.content
    · exact held.title
    · exact held.summary
    · exact held.sourceKind
  refine ⟨⟨later, owner, still⟩, fun name => ?_⟩
  rw [still.agrees_iff, held.agrees_iff]
  constructor
  · rintro ⟨entityName, concepts, sourceFiles⟩
    exact ⟨named ▸ entityName, semantic ▸ concepts, semantic ▸ sourceFiles⟩
  · rintro ⟨entityName, concepts, sourceFiles⟩
    exact ⟨named.trans entityName, semantic ▸ concepts, semantic ▸ sourceFiles⟩

/-- The lists of an input are stored as they are. -/
def ListsAsStored (input : ObservationInput) : Prop :=
  StoredAsIs input.concepts ∧ StoredAsIs input.sourceFiles

instance (input : ObservationInput) : Decidable (ListsAsStored input) :=
  inferInstanceAs (Decidable (_ ∧ _))

/-- A new observation is held, and the store agrees with it but for a name and two lists. -/
theorem insertObservation_held {input : ObservationInput}
    (owner : db.entities.get? entityId = some entity)
    (inserted : db.insertObservation id (newObservationRow entityId source now input) = .ok db') :
    db'.Held (searchPayload id input) ∧ ∀ name,
      db'.Agrees name (searchPayload id input) ↔ entity.name = name ∧ ListsAsStored input := by
  obtain ⟨_, observations, added, rfl⟩ := insertObservation_eq_ok inserted
  have held : ({ db with observations } : Database).HeldAs (searchPayload id input)
      (newObservationRow entityId source now input) entity :=
    ⟨Table.get?_insert_self added, owner, rfl, rfl, rfl, rfl, rfl⟩
  refine ⟨⟨_, _, held⟩, fun name => ?_⟩
  rw [held.agrees_iff]
  constructor
  · rintro ⟨entityName, concepts, sourceFiles⟩
    exact ⟨entityName, sideRows_filter_eq_self.mp concepts, sideRows_filter_eq_self.mp sourceFiles⟩
  · rintro ⟨entityName, concepts, sourceFiles⟩
    exact ⟨entityName, sideRows_filter_eq_self.mpr concepts,
      sideRows_filter_eq_self.mpr sourceFiles⟩

theorem writeObservations_held {ids : Nat → String}
    (owner : db.entities.get? entityId = some entity)
    (written : writeObservations entityId source now ids db index observations = .ok db') :
    KeepsIndexed db db' ∧ ∀ input item, (input, item) ∈ observations.zipIdx index →
      db'.Held (searchPayload (ids item) input) ∧ ∀ name,
        db'.Agrees name (searchPayload (ids item) input) ↔
          entity.name = name ∧ ListsAsStored input := by
  induction observations generalizing db index with
  | nil =>
    cases written
    exact ⟨.of_same rfl rfl, fun _ _ member => nomatch member⟩
  | cons first rest ih =>
    obtain ⟨next, inserted, written⟩ := bind_eq_ok.mp written
    obtain ⟨held, agrees⟩ := insertObservation_held owner inserted
    have keeps := insertObservation_keepsIndexed inserted
    have still : next.entities.get? entityId = some entity := by
      obtain ⟨_, observations, _, rfl⟩ := insertObservation_eq_ok inserted
      exact owner
    obtain ⟨later, others⟩ := ih still written
    refine ⟨keeps.trans later, fun input item member => ?_⟩
    rw [List.zipIdx_cons] at member
    rcases List.mem_cons.mp member with same | member
    · cases same
      obtain ⟨stays, same⟩ := later.held held
      exact ⟨stays, fun name => (same name).trans (agrees name)⟩
    · exact others input item member

section Groups

variable [EntityMatching] {entityType : EntityType} {group : Nat} {normalize : Bool}

theorem writeRelations_keepsIndexed
    (written : writeRelations draws group entityId source now normalize db index relations =
      .ok db') : KeepsIndexed db db' := by
  induction relations generalizing db index with
  | nil =>
    cases written
    exact .of_same rfl rfl
  | cons relation rest ih =>
    obtain ⟨⟨ensured, targetId, _⟩, first, written⟩ := bind_eq_ok.mp written
    obtain ⟨related, second, written⟩ := bind_eq_ok.mp written
    exact ((ensureEntity_named first).1.trans (insertRelation_keepsIndexed second)).trans
      (ih written)

/-- **A group**: its payloads are held, and the store agrees with all of them exactly where
the group is not merged, unless it is empty, and the lists are stored as they are. -/
theorem writeGroup_held {result : GroupWrite}
    (written : db.writeGroup draws group name entityType observations relations source now
      normalize = .ok (db', result)) :
    KeepsIndexed db db' ∧ (∀ payload ∈ result.payload, db'.Held payload) ∧
      ((∀ payload ∈ result.payload, db'.Agrees name payload) ↔
        ∀ input ∈ observations, db.mergedInto name entityType normalize = none ∧
          ListsAsStored input) := by
  unfold writeGroup at written
  obtain ⟨⟨ensured, entityId, existed⟩, first, written⟩ := bind_eq_ok.mp written
  obtain ⟨observed, second, written⟩ := bind_eq_ok.mp written
  obtain ⟨related, third, finished⟩ := bind_eq_ok.mp written
  cases finished
  obtain ⟨keeps, entity, owner, named⟩ := ensureEntity_named first
  obtain ⟨later, each⟩ := writeObservations_held owner second
  have last := writeRelations_keepsIndexed third
  have agrees : ∀ input item, (input, item) ∈ observations.zipIdx →
      db'.Held (searchPayload (draws.observation group item) input) ∧
        (db'.Agrees name (searchPayload (draws.observation group item) input) ↔
          db.mergedInto name entityType normalize = none ∧ ListsAsStored input) := by
    intro input item member
    obtain ⟨held, same⟩ := each input item member
    obtain ⟨stays, still⟩ := last.held held
    rw [← named]
    exact ⟨stays, (still name).trans (same name)⟩
  refine ⟨(keeps.trans later).trans last, fun payload member => ?_, fun all input member => ?_,
    fun all payload member => ?_⟩
  · obtain ⟨⟨input, item⟩, among, rfl⟩ := List.mem_map.mp member
    exact (agrees input item among).1
  · obtain ⟨item, at_item⟩ := List.getElem?_of_mem member
    have among : (input, item) ∈ observations.zipIdx := List.mk_mem_zipIdx_iff_getElem?.mpr at_item
    exact (agrees input item among).2.mp (all _ (List.mem_map.mpr ⟨(input, item), among, rfl⟩))
  · obtain ⟨⟨input, item⟩, among, rfl⟩ := List.mem_map.mp member
    exact (agrees input item among).2.mpr (all input (List.fst_mem_of_mem_zipIdx among))

theorem writeGroup_payload_ids {result : GroupWrite}
    (written : db.writeGroup draws group name entityType observations relations source now
      normalize = .ok (db', result)) (member : payload ∈ result.payload) :
    payload.id ∈ result.outcome.observationIds := by
  unfold writeGroup at written
  obtain ⟨⟨ensured, entityId, existed⟩, _, written⟩ := bind_eq_ok.mp written
  obtain ⟨observed, _, written⟩ := bind_eq_ok.mp written
  obtain ⟨related, _, finished⟩ := bind_eq_ok.mp written
  cases finished
  obtain ⟨⟨input, item⟩, among, rfl⟩ := List.mem_map.mp member
  refine List.mem_map.mpr ⟨item, List.mem_range.mpr ?_, rfl⟩
  exact List.snd_lt_of_mem_zipIdx among

/-- No group with observations is merged into an entity when its turn comes. -/
def Unmerged (draws : Draws) (normalize : Bool) :
    Database → Nat → List RememberRequest → Prop
  | _, _, [] => True
  | db, index, request :: rest =>
    (request.observations ≠ [] → db.mergedInto request.name request.entityType normalize = none) ∧
    ∀ next group, db.writeGroup draws index request.name request.entityType
      request.observations request.relations request.source draws.now normalize =
        .ok (next, group) → Unmerged draws normalize next (index + 1) rest

theorem writeGroups_held {requests : List RememberRequest} {groups : List GroupWrite}
    (written : writeGroups draws normalize db index requests = .ok (db', groups)) :
    KeepsIndexed db db' ∧
      (∀ pair ∈ payloads ((requests.map RememberRequest.name).zip groups), db'.Held pair.2 ∧
        pair.2.id ∈ (groups.map GroupWrite.outcome).flatMap RememberOutcome.observationIds) ∧
      ((∀ pair ∈ payloads ((requests.map RememberRequest.name).zip groups),
          db'.Agrees pair.1 pair.2) ↔
        Unmerged draws normalize db index requests ∧
          ∀ request ∈ requests, ∀ input ∈ request.observations, ListsAsStored input) := by
  induction requests generalizing db index groups with
  | nil =>
    cases written
    have empty : payloads (([].map RememberRequest.name).zip []) = [] := rfl
    rw [empty]
    exact ⟨.of_same rfl rfl, List.forall_mem_nil _, iff_of_true (List.forall_mem_nil _)
      ⟨trivial, List.forall_mem_nil _⟩⟩
  | cons request rest ih =>
    obtain ⟨⟨next, group⟩, first, written⟩ := bind_eq_ok.mp written
    obtain ⟨⟨last, more⟩, others, finished⟩ := bind_eq_ok.mp written
    cases finished
    obtain ⟨keeps, held, agrees⟩ := writeGroup_held first
    obtain ⟨later, heldMore, agreesMore⟩ := ih others
    have split : payloads (((request :: rest).map RememberRequest.name).zip (group :: more)) =
        (group.payload.map fun payload => (request.name, payload)) ++
          payloads ((rest.map RememberRequest.name).zip more) := rfl
    have front : (∀ pair ∈ group.payload.map fun payload => (request.name, payload),
        db'.Agrees pair.1 pair.2) ↔
          ∀ payload ∈ group.payload, next.Agrees request.name payload := by
      rw [List.forall_mem_map]
      exact forall₂_congr fun payload member => (later.held (held payload member)).2 request.name
    rw [split]
    refine ⟨keeps.trans later, fun pair member => ?_, ?_⟩
    · rw [List.map_cons, List.flatMap_cons]
      rcases List.mem_append.mp member with member | member
      · obtain ⟨payload, among, rfl⟩ := List.mem_map.mp member
        exact ⟨(later.held (held payload among)).1,
          List.mem_append_left _ (writeGroup_payload_ids first among)⟩
      · obtain ⟨there, among⟩ := heldMore pair member
        exact ⟨there, List.mem_append_right _ among⟩
    · rw [List.forall_mem_append, front, agrees, agreesMore, List.forall_mem_cons]
      constructor
      · rintro ⟨own, unmerged, lists⟩
        refine ⟨⟨fun some_input => ?_, fun other result again => ?_⟩,
          fun input member => (own input member).2, lists⟩
        · obtain ⟨input, member⟩ := List.exists_mem_of_ne_nil _ some_input
          exact (own input member).1
        · cases first.symm.trans again
          exact unmerged
      · rintro ⟨⟨unmerged, following⟩, own, lists⟩
        exact ⟨fun input member => ⟨unmerged (List.ne_nil_of_mem member), own input member⟩,
          following next group first, lists⟩

end Groups

/-! ## Recording what was written -/

/-- What is indexed is kept, and what the index is owed stays owed. -/
structure KeepsOwed (db db' : Database) : Prop extends KeepsIndexed db db' where
  owed : ∀ slot row, db.outbox.get? slot = some row → db'.outbox.get? slot = some row

theorem KeepsOwed.trans {db'' : Database} (first : KeepsOwed db db')
    (second : KeepsOwed db' db'') : KeepsOwed db db'' :=
  ⟨first.toKeepsIndexed.trans second.toKeepsIndexed,
    fun slot row held => second.owed slot row (first.owed slot row held)⟩

theorem KeepsOwed.of_same (observations : db'.observations = db.observations)
    (entities : db'.entities = db.entities) (outbox : db'.outbox = db.outbox) :
    KeepsOwed db db' :=
  ⟨.of_same observations entities, fun _ _ held => outbox ▸ held⟩

theorem KeepsOwed.owes (keeps : KeepsOwed db db') (owes : db.Owes id) : db'.Owes id := by
  obtain ⟨slot, owed, present, rest⟩ := owes
  exact ⟨slot, owed, keeps.owed slot owed present, rest⟩

theorem setHead_keepsIndexed {revisionId : RevisionId} :
    KeepsIndexed db (db.setHead id revisionId) := by
  refine ⟨fun other row held => ?_, fun _ entity held => ⟨entity, held, rfl⟩⟩
  change ∃ later, (db.observations.modify id _).get? other = some later ∧ _
  rw [Table.get?_modify, held]
  split
  · exact ⟨_, rfl, rfl, rfl⟩
  · exact ⟨row, rfl, rfl, rfl⟩

variable {changesetId : ChangeSetId} {generation ordinal : Nat}

theorem recordRemembered_owes {ids : List String}
    (recorded : recordRemembered draws changesetId generation ordinal db index ids = .ok db') :
    KeepsOwed db db' ∧ ∀ id ∈ ids, db'.Owes id := by
  induction ids generalizing db index with
  | nil =>
    cases recorded
    exact ⟨.of_same rfl rfl rfl, fun _ member => nomatch member⟩
  | cons id rest ih =>
    obtain ⟨row, _, recorded⟩ := bind_eq_ok.mp recorded
    obtain ⟨revised, first, recorded⟩ := bind_eq_ok.mp recorded
    obtain ⟨owing, second, recorded⟩ := bind_eq_ok.mp recorded
    obtain ⟨noted, third, following⟩ := bind_eq_ok.mp recorded
    obtain ⟨revisions, _, rfl⟩ := insertRevision_eq_ok first
    obtain ⟨outbox, added, rfl⟩ := insertOutbox_eq_ok second
    have events := insertOperationEvent_eventsOnly third
    have headed : KeepsOwed db noted := by
      refine ⟨?_, fun slot row held => ?_⟩
      · have same : KeepsIndexed db { db with revisions } := .of_same rfl rfl
        have head := same.trans (@setHead_keepsIndexed _ id (draws.revision ordinal index))
        refine head.trans (.of_same ?_ ?_) <;> rw [events]
      · rw [events]
        change outbox.get? slot = some row
        rw [Table.get?_insert_of_ne added]
        · exact held
        · rintro rfl
          have absent := Table.absent_of_insert added
          change db.outbox.get? _ = none at absent
          rw [absent] at held
          cases held
    have owes : noted.Owes id := by
      have slot : noted.outbox = outbox := by rw [events]
      exact ⟨_, _, slot ▸ Table.get?_insert_self added, rfl, rfl, rfl⟩
    obtain ⟨keeps, others⟩ := ih following
    refine ⟨headed.trans keeps, fun other member => ?_⟩
    rcases List.mem_cons.mp member with rfl | member
    · exact keeps.owes owes
    · exact others other member

theorem recordGroups_owes {outcomes : List RememberOutcome}
    (recorded : recordGroups draws changesetId generation db ordinal outcomes = .ok db') :
    KeepsOwed db db' ∧ ∀ id ∈ outcomes.flatMap RememberOutcome.observationIds, db'.Owes id := by
  induction outcomes generalizing db ordinal with
  | nil =>
    cases recorded
    exact ⟨.of_same rfl rfl rfl, fun _ member => nomatch member⟩
  | cons outcome rest ih =>
    obtain ⟨next, first, remaining⟩ := bind_eq_ok.mp recorded
    obtain ⟨headed, owes⟩ := recordRemembered_owes first
    obtain ⟨keeps, others⟩ := ih remaining
    refine ⟨headed.trans keeps, fun id member => ?_⟩
    rw [List.flatMap_cons] at member
    rcases List.mem_append.mp member with member | member
    · exact keeps.owes (owes id member)
    · exact others id member

variable [Blake3] [PayloadCodec]

theorem recordLegacyRemembers_owes {outcomes : List RememberOutcome}
    {operations : List ChangeOperation} {changeSource : String}
    (recorded : db.recordLegacyRemembers draws outcomes operations changeSource =
      .ok (db', generation)) :
    KeepsOwed db db' ∧ ∀ id ∈ outcomes.flatMap RememberOutcome.observationIds, db'.Owes id := by
  obtain ⟨rowed, stored, noted, _, inserted, requested, ran, rfl, rfl⟩ :=
    recordLegacyRemembers_eq_ok recorded
  have before : KeepsOwed db stored := by
    obtain ⟨_, changeSets, _, rfl⟩ := insertChangeSet_eq_ok inserted
    rw [(insertRequests_eq_ok requested).1]
    unfold compatibilitySpaceId
    split <;> exact .of_same rfl rfl rfl
  obtain ⟨keeps, owes⟩ := recordGroups_owes ran
  exact ⟨(before.trans keeps).trans (.of_same rfl rfl rfl), owes⟩

variable [EntityMatching] {call : RememberCall} {remembered : Remembered}

theorem recorded_held {middle : Database} {requests : List RememberRequest} {normalize : Bool}
    {groups : List GroupWrite} {operations : List ChangeOperation} {changeSource : String}
    (written : writeGroups draws normalize db 0 requests = .ok (middle, groups))
    (recorded : middle.recordLegacyRemembers draws (groups.map GroupWrite.outcome) operations
      changeSource = .ok (db', generation)) :
    (∀ pair ∈ payloads ((requests.map RememberRequest.name).zip groups),
        db'.Held pair.2 ∧ db'.Owes pair.2.id) ∧
      ((∀ pair ∈ payloads ((requests.map RememberRequest.name).zip groups),
          db'.Agrees pair.1 pair.2) ↔
        Unmerged draws normalize db 0 requests ∧
          ∀ request ∈ requests, ∀ input ∈ request.observations, ListsAsStored input) := by
  obtain ⟨_, held, agrees⟩ := writeGroups_held written
  obtain ⟨keeps, owes⟩ := recordLegacyRemembers_owes recorded
  refine ⟨fun pair member => ?_, ?_⟩
  · obtain ⟨there, reported⟩ := held pair member
    exact ⟨(keeps.held there).1, owes _ reported⟩
  · rw [← agrees]
    exact forall₂_congr fun pair member => (keeps.held (held pair member).1).2 pair.1

/-- What a call leaves: its payloads are held and owed, and the store agrees with them exactly
where no group is merged and all lists are stored as they are. -/
theorem RememberCall.run_held (done : call.run db draws = .ok (db', remembered)) :
    (∀ pair ∈ payloads remembered.groups, db'.Held pair.2 ∧ db'.Owes pair.2.id) ∧
      ((∀ pair ∈ payloads remembered.groups, db'.Agrees pair.1 pair.2) ↔
        Unmerged draws call.normalize db 0 call.requests ∧
          ∀ request ∈ call.requests, ∀ input ∈ request.observations, ListsAsStored input) := by
  cases call with
  | remember request =>
    obtain ⟨middle, group, generation, first, second, rfl⟩ := remember_eq_ok done
    have written : writeGroups draws true db 0 [request] = .ok (middle, [group]) :=
      bind_eq_ok.mpr ⟨(middle, group), first, rfl⟩
    exact recorded_held written second
  | rememberBatch requests options =>
    rcases rememberBatch_eq_ok done with ⟨rfl, _, rfl⟩ |
      ⟨middle, groups, last, generation, first, second, rfl, rfl⟩
    · exact ⟨List.forall_mem_nil _, iff_of_true (List.forall_mem_nil _)
        ⟨trivial, List.forall_mem_nil _⟩⟩
    · obtain ⟨held, agrees⟩ := recorded_held first second
      have keeps : KeepsOwed last (last.putCheckpoints options.checkpoint) := by
        unfold putCheckpoints putCheckpoint
        split
        · split <;> exact .of_same rfl rfl rfl
        · exact .of_same rfl rfl rfl
      refine ⟨fun pair member => ?_, ?_⟩
      · obtain ⟨there, owes⟩ := held pair member
        exact ⟨(keeps.held there).1, keeps.owes owes⟩
      · refine Iff.trans ?_ agrees
        exact forall₂_congr fun pair member => (keeps.held (held pair member).1).2 pair.1

/-- A repair inserts the entry of a payload where the store agrees with it. -/
theorem RememberCall.repairInserts_iff {pair : String × SearchPayload}
    (done : call.run db draws = .ok (db', remembered))
    (member : pair ∈ payloads remembered.groups) :
    db'.RepairInserts (pair.2.entry pair.1 vector) ↔ db'.Agrees pair.1 pair.2 := by
  obtain ⟨⟨row, entity, held⟩, owes⟩ := (RememberCall.run_held done).1 pair member
  rw [held.repairInserts_iff owes, held.agrees_iff]

end Database

end OpenMemory.Graph
