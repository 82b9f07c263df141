import OpenMemory.Engine.DomainReads

/-!
# Listings and stubs

The list of all entities that are no stubs, the latest first, has one order: entities of
one time stand by domain, and in a domain as its store has them. A listing is a page of
this list as long as no domain cuts an entity of the page, or one before it, behind its
stubs. With a single domain, stubs are not taken out at all.
-/

namespace OpenMemory.Engine.Partition

open Foundation OpenMemory.Graph

variable {stores : List ListedStore} {store : ListedStore} {entityType : Option EntityType}
  {limit offset : Nat}

/-- All entities that are no stubs, the latest first. -/
def allEntities (stores : List ListedStore) (entityType : Option EntityType) :
    List EntityListRow :=
  sortedBy EntityListRow.rank
    (stores.flatMap fun store => (store.rows entityType).filter EntityListRow.canonical)

/-- The ids of entities are drawn so that none is drawn twice, and a table has fewer rows
than an `i64` counts. -/
structure Drawn (stores : List ListedStore) : Prop where
  ids : (stores.flatMap fun store => store.database.entities.entries.map Prod.fst).Nodup
  small : ∀ store ∈ stores, store.database.entities.entries.length < 2 ^ 63

/-- The page is empty, or no domain cuts a row of the page or one before it. A single
domain is to have no stubs up to the end of the page. -/
def Reaches (stores : List ListedStore) (entityType : Option EntityType) (limit offset : Nat) :
    Prop :=
  limit = 0 ∨ match stores with
    | [store] =>
      if offset < 2 ^ 63 then (store.rows entityType).length ≤ offset ∨
        ∀ row ∈ (store.rows entityType).take (offset + limit), row.canonical = true
      else store.rows entityType = []
    | stores => (allEntities stores entityType).length ≤ offset ∨
        ∀ row ∈ (allEntities stores entityType).take (offset + limit), ∃ store ∈ stores,
          row ∈ (store.rows entityType).take (min (limit + offset) (2 ^ 63 - 1))

/-! ## Rows -/

theorem id_mem_of_rows {row : EntityListRow} (member : row ∈ store.rows entityType) :
    row.entity.id ∈ store.database.entities.entries.map Prod.fst := by
  have inside := (sortedBy_perm _).mem_iff.mp member
  obtain ⟨entry, kept, rfl⟩ := List.mem_map.mp inside
  exact List.mem_map_of_mem (List.mem_filter.mp kept).1

theorem nodup_rows (store : ListedStore) (entityType : Option EntityType) :
    (store.rows entityType).Nodup := by
  have ids : ((store.rows entityType).map fun row => row.entity.id).Nodup := by
    unfold ListedStore.rows
    rw [((sortedBy_perm _).map _).nodup_iff, List.map_map]
    exact store.database.entities.distinct.sublist (List.filter_sublist.map _)
  exact ids.of_map _

theorem length_rows_lt (drawn : Drawn stores) (member : store ∈ stores) :
    (store.rows entityType).length < 2 ^ 63 := by
  refine lt_of_le_of_lt ?_ (drawn.small store member)
  unfold ListedStore.rows
  rw [(sortedBy_perm _).length_eq, List.length_map]
  exact List.length_filter_le _ _

theorem nodup_allEntities (drawn : Drawn stores) : (allEntities stores entityType).Nodup := by
  unfold allEntities
  rw [(sortedBy_perm _).nodup_iff, List.nodup_flatMap]
  refine ⟨fun store _ => (nodup_rows store entityType).filter _, ?_⟩
  refine (List.nodup_flatMap.mp drawn.ids).2.imp fun apart row first second => ?_
  exact apart (id_mem_of_rows (List.mem_filter.mp first).1)
    (id_mem_of_rows (List.mem_filter.mp second).1)

theorem canonical_of_mem {row : EntityListRow} (member : row ∈ allEntities stores entityType) :
    row.canonical = true := by
  obtain ⟨store, _, kept⟩ := List.mem_flatMap.mp ((sortedBy_perm _).mem_iff.mp member)
  exact (List.mem_filter.mp kept).2

/-! ## One domain -/

/-- The list of a single domain is what its query yields, without the stubs. -/
theorem allEntities_singleton (store : ListedStore) (entityType : Option EntityType) :
    allEntities [store] entityType = (store.rows entityType).filter EntityListRow.canonical := by
  unfold allEntities
  rw [List.flatMap_singleton]
  exact sortedBy_of_pairwise ((pairwise_sortedBy _).filter _)

theorem listEntities_singleton_iff (drawn : Drawn [store]) :
    listEntities [store] entityType limit offset =
        page (allEntities [store] entityType) limit offset ↔
      Reaches [store] entityType limit offset := by
  have short : (store.rows entityType).length < 2 ^ 63 :=
    length_rows_lt drawn List.mem_cons_self
  have limited (list : List EntityListRow) (fits : list.length ≤ 2 ^ 63 - 1) :
      list.take (if limit < 2 ^ 63 then limit else 2 ^ 63 - 1) = list.take limit := by
    split
    next => rfl
    next large =>
      rw [List.take_of_length_le fits, List.take_of_length_le (by omega)]
  change page (store.rows entityType) _ _ = _ ↔ _
  rw [allEntities_singleton]
  unfold Reaches
  dsimp only
  by_cases small : offset < 2 ^ 63
  · rw [if_pos small, if_pos small, page, limited _ (by rw [List.length_drop]; omega), eq_comm]
    have pages := @page_eq_iff _ _ _ (nodup_rows store entityType)
      (List.filter_sublist (p := EntityListRow.canonical)) limit offset
    unfold page at pages ⊢
    rw [pages]
    refine or_congr_right (or_congr_right (forall₂_congr fun row member => ?_))
    rw [List.mem_filter, and_iff_right (List.mem_of_mem_take member)]
  · rw [if_neg small, if_neg small, page, List.drop_zero, limited _ (by omega), page,
      List.drop_of_length_le ((List.length_filter_le _ _).trans (by omega)), List.take_nil,
      List.take_eq_nil_iff]

/-! ## Several domains -/

/-- What a domain is asked for. -/
theorem fetched (store : ListedStore) (entityType : Option EntityType) (limit offset : Nat) :
    store.listEntities entityType (min (limit + offset) (2 ^ 64 - 1)) 0 =
      (store.rows entityType).take (min (limit + offset) (2 ^ 63 - 1)) := by
  have same : (if min (limit + offset) (2 ^ 64 - 1) < 2 ^ 63 then
      min (limit + offset) (2 ^ 64 - 1) else 2 ^ 63 - 1) = min (limit + offset) (2 ^ 63 - 1) := by
    split <;> omega
  unfold ListedStore.listEntities page
  rw [same, if_pos (by decide)]
  rfl

theorem merged_page_iff (drawn : Drawn stores) :
    page (sortedBy EntityListRow.rank (stores.flatMap fun store =>
        (store.listEntities entityType (min (limit + offset) (2 ^ 64 - 1)) 0).filter
          EntityListRow.canonical)) limit offset =
        page (allEntities stores entityType) limit offset ↔
      limit = 0 ∨ (allEntities stores entityType).length ≤ offset ∨
        ∀ row ∈ (allEntities stores entityType).take (offset + limit), ∃ store ∈ stores,
          row ∈ (store.rows entityType).take (min (limit + offset) (2 ^ 63 - 1)) := by
  have part : (sortedBy EntityListRow.rank (stores.flatMap fun store =>
      (store.listEntities entityType (min (limit + offset) (2 ^ 64 - 1)) 0).filter
        EntityListRow.canonical)).Sublist (allEntities stores entityType) := by
    refine sortedBy_sublist (sublist_flatMap fun store => ?_)
    rw [fetched]
    exact (List.take_sublist _ _).filter _
  rw [page_eq_iff (nodup_allEntities drawn) part]
  refine or_congr_right (or_congr_right (forall₂_congr fun row member => ?_))
  have canonical := canonical_of_mem (List.mem_of_mem_take member)
  rw [(sortedBy_perm _).mem_iff, List.mem_flatMap]
  refine exists_congr fun store => and_congr_right fun _ => ?_
  rw [List.mem_filter, fetched, and_iff_left canonical]

/-- **Listings.** A listing is the page of the list of all entities that are no stubs
exactly where no domain cuts off a row of the page or one before it. -/
theorem listEntities_eq_page_iff (drawn : Drawn stores) (entityType : Option EntityType)
    (limit offset : Nat) :
    listEntities stores entityType limit offset =
        page (allEntities stores entityType) limit offset ↔
      Reaches stores entityType limit offset := by
  match stores with
  | [] => exact merged_page_iff drawn
  | [store] => exact listEntities_singleton_iff drawn
  | first :: second :: rest => exact merged_page_iff drawn

/-! ## Two domains -/

private def listed (name source : String) (updatedAt : Int64) : StoredEntity where
  name := name
  entityType := .concept
  createdAt := 0
  updatedAt := updatedAt
  confidence := .one
  source := source

/-- A domain with the entity "a" and a younger stub. -/
private def stubbed : ListedStore where
  database := { Database.initial with
    entities := ⟨[("1", listed "a" "user" 9), ("2", listed "b" partitionStubSource 10)],
      by decide⟩ }
  nowSecs := 20

/-- A domain with the entity "b". -/
private def plain : ListedStore where
  database := { Database.initial with entities := ⟨[("3", listed "b" "user" 5)], by decide⟩ }
  nowSecs := 20

private theorem drawn_sample : Drawn [stubbed, plain] where
  ids := by decide
  small := by decide

/-- Where two rows are asked for, the stub cuts off nothing. -/
theorem two_rows_listed :
    Drawn [stubbed, plain] ∧
      listEntities [stubbed, plain] none 2 0 = page (allEntities [stubbed, plain] none) 2 0 :=
  ⟨drawn_sample, (listEntities_eq_page_iff drawn_sample none 2 0).mpr (.inr (.inr (by decide)))⟩

/-- Where one row is asked for, the stub takes its place, and an older entity of another
domain is listed in front of the younger one. -/
theorem stub_displaces_row :
    Drawn [stubbed, plain] ∧
      (listEntities [stubbed, plain] none 1 0).map (fun row => row.entity.id) = ["3"] ∧
        (allEntities [stubbed, plain] none).map (fun row => row.entity.id) = ["1", "3"] :=
  ⟨drawn_sample, by decide, by decide⟩

end OpenMemory.Engine.Partition
