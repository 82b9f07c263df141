import OpenMemory.Foundation.Latest
import OpenMemory.Graph.IndexRepair

/-!
# The search index is a map

Entries are identified by their URI and chunk. Every store adds what is inserted to what
it holds, so it holds a key once and shows what was inserted last under it as long as the
key was deleted before: then all four stores agree with the latest inserts, and so does
every search. The repair of the index does not delete before it inserts.
-/

namespace OpenMemory.Index

open Foundation OpenMemory.Graph

/-! ## Keys -/

def entryKey (e : IndexEntry) : EntryKey := (e.uri, e.chunkIndex)

def StoredEntry.key (e : StoredEntry) : EntryKey := (e.uri, e.chunkIndex)

def ExportEntry.key (e : ExportEntry) : EntryKey := (e.uri, e.chunkIndex)

def EntryMeta.key (e : EntryMeta) : EntryKey := (e.uri, e.chunkIndex)

def DocMeta.key (e : DocMeta) : EntryKey := (e.uri, e.chunkIndex)

def Fts5Row.key (e : Fts5Row) : EntryKey := (e.uri, e.chunkIndex)

/-- What was inserted last under a key and not deleted since. -/
abbrev LatestEntries := EntryKey → Option IndexEntry

/-- The batch is what was inserted last under its keys. -/
def LatestEntries.insert (latest : LatestEntries) (entries : List IndexEntry) : LatestEntries :=
  entries.foldl (fun latest e => Function.update latest (entryKey e) (some e)) latest

def LatestEntries.deleteByUri (latest : LatestEntries) (uri : String) : LatestEntries := fun key =>
  if key.1 = uri then none else latest key

/-- An entry is exported with the text and the vector of its insert. -/
def ShowsVector (value : IndexEntry) (e : ExportEntry) : Prop :=
  e.text = value.text ∧ e.vector = value.vector

/-- An entry is exported with the text of its insert. -/
def ShowsText (value : IndexEntry) (e : ExportEntry) : Prop := e.text = value.text

/-- An entry is found with the text of its insert. -/
def FoundText (value : IndexEntry) (r : SearchResult) : Prop := r.text = value.text

/-- What was inserted last has the text and the vector of an entry. -/
def Stored (latest : LatestEntries) (e : IndexEntry) : Prop :=
  ∃ value, latest (entryKey e) = some value ∧ e.text = value.text ∧ e.vector = value.vector

section Latest

variable {latest : LatestEntries} {entries : List IndexEntry}

theorem latest_insert_of_fresh {key : EntryKey} (fresh : ∀ e ∈ entries, entryKey e ≠ key) :
    latest.insert entries key = latest key := by
  unfold LatestEntries.insert
  induction entries generalizing latest with
  | nil => rfl
  | cons e rest ih =>
    rw [List.foldl_cons, ih fun other member => fresh other (List.mem_cons_of_mem _ member)]
    exact Function.update_of_ne (fresh e List.mem_cons_self).symm _ _

theorem latest_insert_of_mem (distinct : (entries.map entryKey).Nodup) {e : IndexEntry}
    (member : e ∈ entries) : latest.insert entries (entryKey e) = some e := by
  induction entries generalizing latest with
  | nil => cases member
  | cons first rest ih =>
    obtain ⟨absent, distinct⟩ := List.nodup_cons.mp distinct
    rcases List.mem_cons.mp member with rfl | member
    · have fresh : ∀ other ∈ rest, entryKey other ≠ entryKey e := fun other inside same =>
        absent (List.mem_map.mpr ⟨other, inside, same⟩)
      unfold LatestEntries.insert
      rw [List.foldl_cons]
      exact (latest_insert_of_fresh fresh).trans (Function.update_self _ _ _)
    · exact ih distinct member

end Latest

/-! ## The vector stores -/

namespace FlatVectorIndex

variable {index : FlatVectorIndex} {latest other : LatestEntries} {entries : List IndexEntry}

/-- A flat index holds the latest inserts. -/
def Current (latest : LatestEntries) (index : FlatVectorIndex) : Prop :=
  HoldsLatest StoredEntry.key (fun value e => e.text = value.text ∧ e.vector = value.vector) latest
    index.entries

theorem Current.congr (current : index.Current latest)
    (agree : ∀ e ∈ index.exportAll, latest e.key = other e.key) : index.Current other :=
  HoldsLatest.congr current fun _ member => agree _ (List.mem_map_of_mem member)

theorem Current.insert (current : index.Current latest) (distinct : (entries.map entryKey).Nodup)
    (stored : ∀ e ∈ entries, Stored latest e)
    (fresh : ∀ held ∈ index.exportAll, ∀ e ∈ entries, held.key ≠ entryKey e) :
    (index.insert entries).2.Current latest := by
  unfold FlatVectorIndex.insert
  split
  next => exact current
  next first rest taken =>
    dsimp only
    split
    next => exact current
    next =>
      split
      next => exact current
      next =>
        have part : (first :: rest).Sublist entries := taken ▸ List.filter_sublist
        refine current.append ⟨?_, ?_⟩ ?_
        · rw [List.map_map]
          exact distinct.sublist (part.map _)
        · intro item member
          obtain ⟨e, inside, rfl⟩ := List.mem_map.mp member
          exact stored e (part.subset inside)
        · intro held old new young
          obtain ⟨e, inside, rfl⟩ := List.mem_map.mp young
          exact fresh _ (List.mem_map_of_mem old) e (part.subset inside)

theorem Current.deleteByUri (current : index.Current latest) (uri : String) :
    (index.deleteByUri uri).2.Current latest ∧
      ∀ e ∈ (index.deleteByUri uri).2.exportAll, e.uri ≠ uri := by
  refine ⟨current.subperm List.filter_sublist.subperm, fun e member => ?_⟩
  obtain ⟨held, inside, rfl⟩ := List.mem_map.mp member
  exact of_decide_eq_true (List.mem_filter.mp inside).2

theorem Current.exportAll (current : index.Current latest) :
    HoldsLatest ExportEntry.key ShowsVector latest index.exportAll :=
  current.map (fun _ _ => rfl) fun _ _ _ fit => fit

theorem Current.search [LibraryOrders] (current : index.Current latest)
    (queryVector : List Float32Bits) (topK : Nat) :
    HoldsLatest SearchResult.key FoundText latest (index.search queryVector topK) := by
  have scored : HoldsLatest (fun item : Float32 × StoredEntry => item.2.key)
      (fun value item => item.2.text = value.text) latest
      (index.entries.map fun e => (cosineSimilarity queryVector e.vector, e)) :=
    current.map (fun _ _ => rfl) fun _ _ _ fit => fit.1
  exact (scored.subperm (bestRanked_subperm _ topK _)).map (fun _ _ => rfl) fun _ _ _ fit => fit

end FlatVectorIndex

variable {queryVector : List Float32Bits} {results : List SearchResult} {topK : Nat}

namespace HnswIndex

variable {index : HnswIndex} {latest other : LatestEntries} {entries : List IndexEntry}
  {failure : Option UsearchFailure}

/-- What is kept under a label, and its vector. -/
def labelled (index : HnswIndex) (label : Nat) : Option (EntryMeta × Option (List Float32Bits)) :=
  (index.metas.get? label).map fun entry => (entry, index.graph.vectors.get? label)

/-- An index of nearest neighbours holds the latest inserts, and finds all labels of a
URI. -/
structure Current (latest : LatestEntries) (index : HnswIndex) : Prop where
  finds : FindsLatest (fun held : EntryMeta × Option (List Float32Bits) => held.1.key)
    (fun value held => held.1.text = value.text ∧ held.2 = some value.vector) latest index.labelled
  listed : ∀ label entry, index.metas.get? label = some entry →
    label ∈ (index.byUri.get? entry.uri).getD []
  unsized : index.dimensions = 0 → ∀ label, index.metas.get? label = none

section

variable (current : index.Current latest)

include current

theorem Current.congr
    (agree : ∀ e ∈ index.exportAll, latest e.key = other e.key) : index.Current other := by
  refine ⟨current.finds.congr fun label held found => ?_, current.listed, current.unsized⟩
  obtain ⟨entry, present, rfl⟩ := Option.map_eq_some_iff.mp found
  exact agree _ (List.mem_map_of_mem (Table.get?_eq_some_iff.mp present))

omit current in
theorem current_withDimensions (dim : Nat) : (withDimensions dim).Current latest where
  finds := FindsLatest.empty
  listed label entry found := by cases found
  unsized _ _ := rfl

theorem Current.add {entry : IndexEntry} {graph : Graph} (sized : index.dimensions ≠ 0)
    (added : addVector index.graph index.nextLabel entry.vector = some graph)
    (stored : Stored latest entry)
    (fresh : ∀ label held, index.metas.get? label = some held → held.key ≠ entryKey entry) :
    Current latest { index with
      nextLabel := index.nextLabel + 1
      graph
      byUri := pushLabel index.byUri entry.uri index.nextLabel
      metas := index.metas.put index.nextLabel ⟨entry.uri, entry.text, entry.chunkIndex⟩ } := by
  unfold addVector at added
  obtain ⟨_, ⟨⟩⟩ := Option.ite_none_left_eq_some.mp added
  obtain ⟨value, last, text, vector⟩ := stored
  refine ⟨?_, ?_, fun zero => absurd zero sized⟩
  · have more := current.finds.put
      (a := ((⟨entry.uri, entry.text, entry.chunkIndex⟩ : EntryMeta), some entry.vector))
      (i := index.nextLabel) ?_ last ⟨text, congrArg some vector⟩
    · refine more.restrict fun label held found => ?_
      unfold labelled at found ⊢
      dsimp only at found ⊢
      rw [Table.get?_put, Table.get?_put] at found
      split at found
      next => rw [if_pos ‹_›]; exact found
      next => rw [if_neg ‹_›]; exact found
    · intro label held found
      obtain ⟨entry', present, rfl⟩ := Option.map_eq_some_iff.mp found
      exact fresh label entry' present
  · intro label held found
    dsimp only at found ⊢
    unfold pushLabel
    rw [Table.get?_put] at found ⊢
    split at found
    next here =>
      cases found
      rw [if_pos rfl, here]
      exact List.mem_append_right _ (List.mem_singleton_self _)
    next =>
      have before := current.listed label held found
      split
      next same =>
        rw [← same]
        exact List.mem_append_left _ before
      next => exact before

theorem Current.addEntries {position : Nat}
    (sized : index.dimensions ≠ 0) (distinct : (entries.map entryKey).Nodup)
    (stored : ∀ e ∈ entries, Stored latest e)
    (fresh : ∀ e ∈ entries, ∀ label held, index.metas.get? label = some held →
      held.key ≠ entryKey e) : (addEntries failure position index entries).2.Current latest := by
  induction entries generalizing index position with
  | nil => exact ⟨current.finds, current.listed, current.unsized⟩
  | cons entry rest ih =>
    obtain ⟨absent, distinct⟩ := List.nodup_cons.mp distinct
    rw [HnswIndex.addEntries]
    dsimp only
    split
    next => exact ⟨current.finds, current.listed, current.unsized⟩
    next =>
      split
      next => exact ⟨current.finds, current.listed, current.unsized⟩
      next graph added =>
        have head := current.add sized added (stored entry List.mem_cons_self)
          (fresh entry List.mem_cons_self)
        refine ih head sized distinct (List.forall_mem_cons.mp stored).2 ?_
        intro e member label held found
        dsimp only at found
        rcases Table.of_get?_put found with rfl | found
        · exact fun same => absent (List.mem_map.mpr ⟨e, member, same.symm⟩)
        · exact fresh e (List.mem_cons_of_mem _ member) label held found

/-- Setting the dimensions forgets no label. -/
theorem Current.ensureDimensions {dim : Nat} (positive : dim ≠ 0) :
    (index.ensureDimensions dim failure).2.Current latest ∧
      (index.ensureDimensions dim failure).2.metas = index.metas ∧
      ((index.ensureDimensions dim failure).1 = .ok () →
        (index.ensureDimensions dim failure).2.dimensions ≠ 0) := by
  unfold HnswIndex.ensureDimensions
  by_cases zero : index.dimensions = 0
  · rw [if_pos zero]
    cases createGraph dim failure with
    | error error => exact ⟨current, rfl, fun ensured => by cases ensured⟩
    | ok graph =>
      refine ⟨⟨?_, current.listed, fun none => absurd none positive⟩, rfl, fun _ => positive⟩
      refine FindsLatest.restrict FindsLatest.empty fun label held found => ?_
      obtain ⟨entry, present, _⟩ := Option.map_eq_some_iff.mp found
      dsimp only at present
      rw [current.unsized zero label] at present
      cases present
  · rw [if_neg zero]
    split
    next => exact ⟨current, rfl, fun _ => zero⟩
    next => exact ⟨current, rfl, fun ensured => by cases ensured⟩

theorem Current.insert (distinct : (entries.map entryKey).Nodup)
    (stored : ∀ e ∈ entries, Stored latest e)
    (fresh : ∀ held ∈ index.exportAll, ∀ e ∈ entries, held.key ≠ entryKey e) :
    (index.insert entries failure).2.Current latest := by
  unfold HnswIndex.insert
  split
  next => exact current
  next first rest taken =>
    have part : (first :: rest).Sublist entries := taken ▸ List.filter_sublist
    have filled : first.vector.length ≠ 0 := by
      have member : first ∈ vectorEntries entries := taken ▸ List.mem_cons_self
      have kept := (List.mem_filter.mp member).2
      intro empty
      rw [List.length_eq_zero_iff.mp empty] at kept
      cases kept
    obtain ⟨ensured, metas, sized⟩ := current.ensureDimensions filled
    dsimp only
    split
    next _ _ same =>
      rw [same] at ensured
      exact ensured
    next _ _ same =>
      rw [same] at ensured metas sized
      split
      next => exact ensured
      next =>
        split
        next => exact ensured
        next =>
          refine ensured.addEntries (sized rfl) (distinct.sublist (part.map _))
            (fun e member => stored e (part.subset member)) ?_
          intro e member label entry found
          rw [metas] at found
          exact fresh _ (List.mem_map_of_mem (Table.get?_eq_some_iff.mp found)) e
            (part.subset member)

theorem Current.deleteByUri (uri : String) : (index.deleteByUri uri).2.Current latest ∧
      ∀ e ∈ (index.deleteByUri uri).2.exportAll, e.uri ≠ uri := by
  suffices kept : (index.deleteByUri uri).2.Current latest ∧ ∀ label held,
      (index.deleteByUri uri).2.metas.get? label = some held → held.uri ≠ uri by
    refine ⟨kept.1, fun e member => ?_⟩
    obtain ⟨⟨label, held⟩, inside, rfl⟩ := List.mem_map.mp member
    exact kept.2 label held (Table.get?_eq_some_iff.mpr inside)
  unfold HnswIndex.deleteByUri
  split
  next absent =>
    refine ⟨current, fun label held found same => ?_⟩
    have listed := current.listed label held found
    rw [same, absent] at listed
    cases listed
  next labels present =>
    dsimp only
    have kept : ∀ label held,
        (index.metas.filter fun label _ => label ∉ labels).get? label = some held →
          index.metas.get? label = some held ∧ label ∉ labels := by
      intro label held found
      rw [Table.get?_filter, Option.filter_eq_some_iff] at found
      exact ⟨found.1, of_decide_eq_true found.2⟩
    have gone : ∀ label held, index.metas.get? label = some held → label ∉ labels →
        held.uri ≠ uri := by
      intro label held found absent same
      have listed := current.listed label held found
      rw [same, present] at listed
      exact absent listed
    refine ⟨⟨?_, ?_, ?_⟩, fun label held found =>
      gone label held (kept label held found).1 (kept label held found).2⟩
    · refine current.finds.restrict fun label held found => ?_
      obtain ⟨entry, there, rfl⟩ := Option.map_eq_some_iff.mp found
      obtain ⟨before, absent⟩ := kept label entry there
      have vector : (index.graph.vectors.filter fun label _ => decide (label ∉ labels)).get? label =
          index.graph.vectors.get? label := by
        rw [Table.get?_filter]
        cases index.graph.vectors.get? label with
        | none => rfl
        | some vector => exact if_pos (decide_eq_true absent)
      unfold labelled
      dsimp only
      rw [before, vector]
      rfl
    · intro label held found
      obtain ⟨before, absent⟩ := kept label held found
      dsimp only
      rw [Table.get?_erase, if_neg (gone label held before absent)]
      exact current.listed label held before
    · intro zero label
      rw [Table.get?_filter, current.unsized zero label]
      rfl

theorem Current.exportAll : HoldsLatest ExportEntry.key ShowsVector latest index.exportAll := by
  have same : index.exportAll = index.metas.entries.filterMap fun entry =>
      (index.labelled entry.1).map fun held => (⟨held.1.uri, held.1.text, held.1.chunkIndex,
        held.2.getD (List.replicate index.dimensions ⟨0⟩)⟩ : ExportEntry) := by
    unfold HnswIndex.exportAll
    rw [← List.filterMap_eq_map]
    refine List.filterMap_congr fun entry member => ?_
    have found : index.metas.get? entry.1 = some entry.2 := Table.get?_eq_some_iff.mpr member
    unfold labelled
    dsimp only [Function.comp]
    rw [found]
    rfl
  rw [same]
  refine current.finds.holds
    (f := fun held (_ : EntryMeta) => (⟨held.1.uri, held.1.text, held.1.chunkIndex,
      held.2.getD (List.replicate index.dimensions ⟨0⟩)⟩ : ExportEntry))
    (fun _ _ => rfl) ?_ index.metas.distinct
  intro value held _ fit
  refine ⟨fit.1, ?_⟩
  rw [fit.2]
  rfl

theorem Current.search [Usearch] (searched : index.search queryVector topK = .ok results) :
    HoldsLatest SearchResult.key FoundText latest results := by
  unfold HnswIndex.search at searched
  split at searched
  next =>
    cases searched
    exact .nil
  next =>
    split at searched
    next => cases searched
    next matched found =>
      cases searched
      have same : (matched.filterMap fun entry => index.found entry.1 entry.2) =
          matched.filterMap fun entry => (index.labelled entry.1).map fun held =>
            (⟨held.1.uri, held.1.text, held.1.chunkIndex, ofFloat32 (1 - entry.2)⟩ :
              SearchResult) := by
        refine List.filterMap_congr fun entry _ => ?_
        unfold HnswIndex.found labelled
        rw [Option.map_map]
        rfl
      refine Eq.subst same.symm ?_
      exact current.finds.holds
        (f := fun held distance => (⟨held.1.uri, held.1.text, held.1.chunkIndex,
          ofFloat32 (1 - distance)⟩ : SearchResult))
        (fun _ _ => rfl) (fun _ _ _ fit => fit.1) (Usearch.distinct found)

end

/-- What has crossed over holds what the flat index held. -/
theorem current_migrateFromFlat {flat : FlatVectorIndex} {hnsw : HnswIndex}
    (current : flat.Current latest) (migrated : migrateFromFlat flat failure = .ok hnsw) :
    hnsw.Current latest := by
  unfold migrateFromFlat at migrated
  split at migrated
  next =>
    cases migrated
    exact current_withDimensions 0
  next first rest exports =>
    have keys : ((first :: rest).map ExportEntry.toIndexEntry).map entryKey =
        flat.entries.map StoredEntry.key := by
      rw [← exports, List.map_map]
      unfold FlatVectorIndex.exportAll
      rw [List.map_map]
      rfl
    have moved : Current latest ((withDimensions first.vector.length).insert
        ((first :: rest).map ExportEntry.toIndexEntry) failure).2 := by
      refine (current_withDimensions first.vector.length).insert (keys ▸ current.distinct) ?_
        fun _ member => by cases member
      intro e member
      rw [← exports] at member
      obtain ⟨exported, inside, rfl⟩ := List.mem_map.mp member
      obtain ⟨held, original, rfl⟩ := List.mem_map.mp inside
      exact current.current held original
    split at migrated
    next => cases migrated
    next =>
      split at migrated
      next => cases migrated
      next result other inserted =>
        cases migrated
        rw [inserted] at moved
        exact moved

end HnswIndex

namespace AdaptiveVectorIndex

variable {index : AdaptiveVectorIndex} {latest other : LatestEntries} {entries : List IndexEntry}

/-- Whichever index is in use holds the latest inserts. -/
def Current (latest : LatestEntries) (index : AdaptiveVectorIndex) : Prop :=
  match index.backend with
  | .flat flat => flat.Current latest
  | .hnsw hnsw => hnsw.Current latest

theorem Current.exportAll (current : index.Current latest) :
    HoldsLatest ExportEntry.key ShowsVector latest index.exportAll := by
  obtain ⟨backend, threshold⟩ := index
  cases backend with
  | flat flat => exact FlatVectorIndex.Current.exportAll current
  | hnsw hnsw => exact HnswIndex.Current.exportAll current

theorem Current.search [LibraryOrders] [HnswIndex.Usearch] (current : index.Current latest)
    (searched : index.search queryVector topK = .ok results) :
    HoldsLatest SearchResult.key FoundText latest results := by
  obtain ⟨backend, threshold⟩ := index
  cases backend with
  | flat flat =>
    cases searched
    exact FlatVectorIndex.Current.search current queryVector topK
  | hnsw hnsw => exact HnswIndex.Current.search current searched

theorem Current.congr (current : index.Current latest)
    (agree : ∀ e ∈ index.exportAll, latest e.key = other e.key) : index.Current other := by
  obtain ⟨backend, threshold⟩ := index
  cases backend with
  | flat flat => exact FlatVectorIndex.Current.congr current agree
  | hnsw hnsw => exact HnswIndex.Current.congr current agree

theorem Current.crossOver {flat : FlatVectorIndex} (current : flat.Current latest)
    (failure : Option UsearchFailure) : (index.crossOver flat failure).Current latest := by
  unfold AdaptiveVectorIndex.crossOver
  split
  next =>
    split
    next hnsw migrated => exact HnswIndex.current_migrateFromFlat current migrated
    next => exact current
  next => exact current

theorem Current.insert (current : index.Current latest) (distinct : (entries.map entryKey).Nodup)
    (stored : ∀ e ∈ entries, Stored latest e)
    (fresh : ∀ held ∈ index.exportAll, ∀ e ∈ entries, held.key ≠ entryKey e)
    (failure : Option UsearchFailure) : (index.insert entries failure).2.Current latest := by
  obtain ⟨backend, threshold⟩ := index
  cases backend with
  | flat flat =>
    have inserted := FlatVectorIndex.Current.insert current distinct stored fresh
    unfold AdaptiveVectorIndex.insert
    dsimp only
    split
    next _ later result =>
      rw [result] at inserted
      exact inserted
    next _ later result =>
      rw [result] at inserted
      exact Current.crossOver inserted failure
  | hnsw hnsw => exact HnswIndex.Current.insert current distinct stored fresh

theorem Current.deleteByUri (current : index.Current latest) (uri : String) :
    (index.deleteByUri uri).2.Current latest ∧
      ∀ e ∈ (index.deleteByUri uri).2.exportAll, e.uri ≠ uri := by
  obtain ⟨backend, threshold⟩ := index
  cases backend with
  | flat flat => exact FlatVectorIndex.Current.deleteByUri current uri
  | hnsw hnsw => exact HnswIndex.Current.deleteByUri current uri

end AdaptiveVectorIndex

namespace VectorStore

variable {store : VectorStore} {latest other : LatestEntries} {entries : List IndexEntry}

/-- A vector store holds the latest inserts. -/
def Current (latest : LatestEntries) : VectorStore → Prop
  | .flat index => index.Current latest
  | .hnsw index => index.Current latest
  | .adaptive index => index.Current latest

theorem Current.exportAll (current : store.Current latest) :
    HoldsLatest ExportEntry.key ShowsVector latest store.exportAll := by
  cases store with
  | flat index => exact FlatVectorIndex.Current.exportAll current
  | hnsw index => exact HnswIndex.Current.exportAll current
  | adaptive index => exact AdaptiveVectorIndex.Current.exportAll current

theorem Current.search [LibraryOrders] [HnswIndex.Usearch] (current : store.Current latest)
    (searched : store.search queryVector topK = .ok results) :
    HoldsLatest SearchResult.key FoundText latest results := by
  cases store with
  | flat index =>
    cases searched
    exact FlatVectorIndex.Current.search current queryVector topK
  | hnsw index => exact HnswIndex.Current.search current searched
  | adaptive index => exact AdaptiveVectorIndex.Current.search current searched

theorem Current.congr (current : store.Current latest)
    (agree : ∀ e ∈ store.exportAll, latest e.key = other e.key) : store.Current other := by
  cases store with
  | flat index => exact FlatVectorIndex.Current.congr current agree
  | hnsw index => exact HnswIndex.Current.congr current agree
  | adaptive index => exact AdaptiveVectorIndex.Current.congr current agree

theorem Current.insert (current : store.Current latest) (distinct : (entries.map entryKey).Nodup)
    (stored : ∀ e ∈ entries, Stored latest e)
    (fresh : ∀ held ∈ store.exportAll, ∀ e ∈ entries, held.key ≠ entryKey e)
    (failure : Option UsearchFailure) : (store.insert entries failure).2.Current latest := by
  cases store with
  | flat index => exact FlatVectorIndex.Current.insert current distinct stored fresh
  | hnsw index => exact HnswIndex.Current.insert current distinct stored fresh
  | adaptive index => exact AdaptiveVectorIndex.Current.insert current distinct stored fresh failure

theorem Current.deleteByUri (current : store.Current latest) (uri : String) :
    (store.deleteByUri uri).2.Current latest ∧
      ∀ held ∈ (store.deleteByUri uri).2.exportAll, held.uri ≠ uri := by
  cases store with
  | flat index => exact FlatVectorIndex.Current.deleteByUri current uri
  | hnsw index => exact HnswIndex.Current.deleteByUri current uri
  | adaptive index => exact AdaptiveVectorIndex.Current.deleteByUri current uri

end VectorStore

/-! ## The full-text stores -/

namespace Bm25Inner

variable {inner : Bm25Inner} {latest other : LatestEntries} {entries : List IndexEntry}

/-- An inverted index holds the latest inserts. -/
def Current (latest : LatestEntries) (inner : Bm25Inner) : Prop :=
  FindsLatest DocMeta.key (fun value doc => doc.text = value.text) latest inner.docs.get?

theorem Current.insert [CharClasses] [CaseMapping] (current : inner.Current latest)
    (distinct : (entries.map entryKey).Nodup)
    (stored : ∀ e ∈ entries, latest (entryKey e) = some e)
    (fresh : ∀ e ∈ entries, ∀ id doc, inner.docs.get? id = some doc → doc.key ≠ entryKey e) :
    (inner.insert entries).Current latest := by
  unfold Bm25Inner.insert
  induction entries generalizing inner with
  | nil => exact current
  | cons e rest ih =>
    obtain ⟨absent, distinct⟩ := List.nodup_cons.mp distinct
    rw [List.foldl_cons]
    refine ih ?_ distinct (fun e' member => stored e' (List.mem_cons_of_mem _ member)) ?_
    · have more := current.put
        (a := ⟨e.uri, e.text, e.chunkIndex,
          UInt32.ofNat (tokenize (indexText e defaultFieldWeights)).length⟩)
        (i := inner.nextId) (fresh e List.mem_cons_self) (stored e List.mem_cons_self) rfl
      refine more.restrict fun id doc found => ?_
      unfold addDoc at found
      rwa [Table.get?_put] at found
    · intro e' member id doc found
      unfold addDoc at found
      rcases Table.of_get?_put found with rfl | found
      · exact fun same => absent (List.mem_map.mpr ⟨e', member, same.symm⟩)
      · exact fresh e' (List.mem_cons_of_mem _ member) id doc found

theorem get?_removeDoc (id other : UInt32) : (inner.removeDoc id).docs.get? other =
    if other = id then none else inner.docs.get? other := by
  unfold removeDoc
  split
  next absent =>
    split
    next here => rw [here, absent]
    next => rfl
  next => exact Table.get?_erase

theorem get?_foldl_removeDoc (ids : List UInt32) (id : UInt32) :
    (ids.foldl removeDoc inner).docs.get? id =
      if id ∈ ids then none else inner.docs.get? id := by
  induction ids generalizing inner with
  | nil => rfl
  | cons first rest ih =>
    rw [List.foldl_cons, ih, get?_removeDoc]
    by_cases here : id = first
    · simp [here]
    · simp [here]

theorem mem_exportAll [LibraryOrders] {e : ExportEntry} : e ∈ inner.exportAll ↔
    ∃ id doc, inner.docs.get? id = some doc ∧ e = ⟨doc.uri, doc.text, doc.chunkIndex, []⟩ := by
  unfold Bm25Inner.exportAll
  rw [(List.mergeSort_perm _ _).mem_iff, List.mem_map]
  constructor
  · rintro ⟨⟨id, doc⟩, member, rfl⟩
    rw [(LibraryOrders.hashOrder_perm _).mem_iff] at member
    exact ⟨id, doc, Table.get?_eq_some_iff.mpr member, rfl⟩
  · rintro ⟨id, doc, found, rfl⟩
    refine ⟨(id, doc), ?_, rfl⟩
    rw [(LibraryOrders.hashOrder_perm _).mem_iff]
    exact Table.get?_eq_some_iff.mp found

theorem Current.deleteByUri [LibraryOrders] (current : inner.Current latest) (uri : String) :
    (inner.deleteByUri uri).2.Current latest ∧
      ∀ e ∈ (inner.deleteByUri uri).2.exportAll, e.uri ≠ uri := by
  unfold Bm25Inner.deleteByUri
  dsimp only
  refine ⟨current.restrict fun id doc found => ?_, fun e member => ?_⟩
  · rw [get?_foldl_removeDoc] at found
    split at found
    next => cases found
    next => exact found
  · obtain ⟨id, doc, found, rfl⟩ := mem_exportAll.mp member
    rw [get?_foldl_removeDoc] at found
    split at found
    next => cases found
    next kept =>
      intro same
      refine kept (List.mem_map.mpr ⟨(id, doc), List.mem_filter.mpr ⟨?_, ?_⟩, rfl⟩)
      · rw [(LibraryOrders.hashOrder_perm _).mem_iff]
        exact Table.get?_eq_some_iff.mp found
      · exact beq_iff_eq.mpr same

theorem Current.exportAll [LibraryOrders] (current : inner.Current latest) :
    HoldsLatest ExportEntry.key ShowsText latest inner.exportAll := by
  have same : (inner.docs.entries.map fun entry =>
      (⟨entry.2.uri, entry.2.text, entry.2.chunkIndex, []⟩ : ExportEntry)) =
        inner.docs.entries.filterMap fun entry => (inner.docs.get? entry.1).map fun doc =>
          (⟨doc.uri, doc.text, doc.chunkIndex, []⟩ : ExportEntry) := by
    rw [← List.filterMap_eq_map]
    refine List.filterMap_congr fun entry member => ?_
    dsimp only [Function.comp]
    rw [show inner.docs.get? entry.1 = some entry.2 from Table.get?_eq_some_iff.mpr member]
    rfl
  have all : HoldsLatest ExportEntry.key ShowsText latest (inner.docs.entries.map fun entry =>
      (⟨entry.2.uri, entry.2.text, entry.2.chunkIndex, []⟩ : ExportEntry)) := by
    rw [same]
    exact FindsLatest.holds current
      (f := fun doc (_ : DocMeta) => (⟨doc.uri, doc.text, doc.chunkIndex, []⟩ : ExportEntry))
      (fun _ _ => rfl) (fun _ _ _ fit => fit) inner.docs.distinct
  refine all.subperm ((List.mergeSort_perm _ _).trans ?_).subperm
  exact (LibraryOrders.hashOrder_perm _).map _

theorem Current.search [CharClasses] [CaseMapping] [LibraryOrders] (current : inner.Current latest)
    (query : String) (topK : Nat) :
    HoldsLatest SearchResult.key FoundText latest (inner.searchResults query topK) := by
  have distinct : ((inner.search query topK).map Prod.fst).Nodup := by
    unfold Bm25Inner.search
    split
    next => exact List.nodup_nil
    next =>
      refine List.Nodup.sublist ((List.take_sublist _ _).map _) ?_
      refine (((List.mergeSort_perm _ _).trans (LibraryOrders.hashOrder_perm _)).map
        Prod.fst).nodup_iff.mpr ?_
      exact Table.distinct _
  exact FindsLatest.holds current
    (f := fun doc score => (⟨doc.uri, doc.text, doc.chunkIndex, ofFloat32 (Float.toFloat32 score)⟩ :
      SearchResult))
    (fun _ _ => rfl) (fun _ _ _ fit => fit) distinct

end Bm25Inner

namespace Fts5Store

variable {store : Fts5Store} {latest other : LatestEntries} {entries : List IndexEntry}

/-- A table holds the latest inserts. -/
def Current (latest : LatestEntries) (store : Fts5Store) : Prop :=
  HoldsLatest Fts5Row.key (fun value row => row.text = value.text) latest store.rows

theorem Current.insert (current : store.Current latest) (distinct : (entries.map entryKey).Nodup)
    (stored : ∀ e ∈ entries, latest (entryKey e) = some e)
    (shown : ∀ e ∈ entries, indexText e store.fieldWeights = e.text)
    (fresh : ∀ held ∈ store.exportAll, ∀ e ∈ entries, held.key ≠ entryKey e) :
    (store.insert entries).Current latest := by
  refine HoldsLatest.append current ⟨?_, ?_⟩ ?_
  · rw [List.map_map]
    exact distinct
  · intro item member
    obtain ⟨e, inside, rfl⟩ := List.mem_map.mp member
    exact ⟨e, stored e inside, shown e inside⟩
  · intro held old new young
    obtain ⟨e, inside, rfl⟩ := List.mem_map.mp young
    exact fresh _ (List.mem_map_of_mem old) e inside

theorem Current.deleteByUri (current : store.Current latest) (uri : String) :
    (store.deleteByUri uri).2.Current latest ∧
      ∀ e ∈ (store.deleteByUri uri).2.exportAll, e.uri ≠ uri := by
  refine ⟨current.subperm List.filter_sublist.subperm, fun e member => ?_⟩
  obtain ⟨held, inside, rfl⟩ := List.mem_map.mp member
  exact of_decide_eq_true (List.mem_filter.mp inside).2

theorem Current.exportAll (current : store.Current latest) :
    HoldsLatest ExportEntry.key ShowsText latest store.exportAll :=
  current.map (fun _ _ => rfl) fun _ _ _ fit => fit

/-- Scaling the scores leaves the rows as they are. -/
theorem holds_rescale {out : List (Fts5Row × Float32)}
    (holds : HoldsLatest (fun item : Fts5Row × Float32 => item.1.key)
      (fun value item => item.1.text = value.text) latest out) :
    HoldsLatest (fun item : Fts5Row × Float32 => item.1.key)
      (fun value item => item.1.text = value.text) latest (rescale out) := by
  unfold rescale
  split
  next => exact holds
  next =>
    dsimp only
    split
    next => exact holds.map (fun _ _ => rfl) fun _ _ _ fit => fit
    next => exact holds

theorem Current.search [CharClasses] [Fts5] (current : store.Current latest) {query : String}
    (searched : store.search query topK = .ok results) :
    HoldsLatest SearchResult.key FoundText latest results := by
  unfold Fts5Store.search at searched
  dsimp only at searched
  split at searched
  next =>
    cases searched
    exact .nil
  next =>
    split at searched
    next => cases searched
    next ranked found =>
      cases searched
      have distinct : (List.map Prod.fst
          (if topK < 2 ^ 63 then ranked.take topK else ranked)).Nodup := by
        split
        next => exact (Fts5.distinct found).sublist ((List.take_sublist _ _).map _)
        next => exact Fts5.distinct found
      have out : HoldsLatest (fun item : Fts5Row × Float32 => item.1.key)
          (fun value item => item.1.text = value.text) latest
          ((if topK < 2 ^ 63 then ranked.take topK else ranked).filterMap fun entry =>
            store.rows[entry.1]?.map fun row => (row, Float.toFloat32 entry.2)) :=
        current.finds.holds (f := fun row score => (row, Float.toFloat32 score))
          (fun _ _ => rfl) (fun _ _ _ fit => fit) distinct
      exact (holds_rescale out).map (fun _ _ => rfl) fun _ _ _ fit => fit

end Fts5Store

namespace FullTextStore

variable {store : FullTextStore} {latest other : LatestEntries} {entries : List IndexEntry}

/-- A full-text store holds the latest inserts. -/
def Current (latest : LatestEntries) : FullTextStore → Prop
  | .bm25 inner => inner.Current latest
  | .fts5 table => table.Current latest

theorem Current.exportAll [LibraryOrders] (current : store.Current latest) :
    HoldsLatest ExportEntry.key ShowsText latest store.exportAll := by
  cases store with
  | bm25 inner => exact Bm25Inner.Current.exportAll current
  | fts5 table => exact Fts5Store.Current.exportAll current

theorem Current.congr [LibraryOrders] (current : store.Current latest)
    (agree : ∀ e ∈ store.exportAll, latest e.key = other e.key) : store.Current other := by
  cases store with
  | bm25 inner =>
    exact FindsLatest.congr current fun id doc found =>
      agree _ (Bm25Inner.mem_exportAll.mpr ⟨id, doc, found, rfl⟩)
  | fts5 table =>
    exact HoldsLatest.congr current fun _ member => agree _ (List.mem_map_of_mem member)

theorem Current.insert [CharClasses] [CaseMapping] [LibraryOrders] (current : store.Current latest)
    (distinct : (entries.map entryKey).Nodup)
    (stored : ∀ e ∈ entries, latest (entryKey e) = some e)
    (shown : ∀ e ∈ entries, store.shownText e = e.text)
    (fresh : ∀ held ∈ store.exportAll, ∀ e ∈ entries, held.key ≠ entryKey e)
    (failure : Option IndexError) : (store.insert entries failure).2.Current latest := by
  cases store with
  | bm25 inner =>
    refine Bm25Inner.Current.insert current distinct stored fun e member id doc found => ?_
    exact fresh _ (Bm25Inner.mem_exportAll.mpr ⟨id, doc, found, rfl⟩) e member
  | fts5 table =>
    unfold FullTextStore.insert
    dsimp only
    split
    next => exact current
    next => exact current
    next => exact Fts5Store.Current.insert current distinct stored shown fresh

theorem Current.deleteByUri [LibraryOrders] (current : store.Current latest) (uri : String)
    (failure : Option IndexError) :
    (store.deleteByUri uri failure).2.Current latest ∧
      ((store.deleteByUri uri failure).1.isOk →
        ∀ e ∈ (store.deleteByUri uri failure).2.exportAll, e.uri ≠ uri) := by
  cases store with
  | bm25 inner =>
    obtain ⟨kept, gone⟩ := Bm25Inner.Current.deleteByUri current uri
    exact ⟨kept, fun _ => gone⟩
  | fts5 table =>
    cases failure with
    | some error => exact ⟨current, fun refused => by cases refused⟩
    | none =>
      obtain ⟨kept, gone⟩ := Fts5Store.Current.deleteByUri current uri
      exact ⟨kept, fun _ => gone⟩

theorem Current.search [CharClasses] [CaseMapping] [LibraryOrders] [Fts5]
    (current : store.Current latest) {query : String}
    (searched : store.search query topK = .ok results) :
    HoldsLatest SearchResult.key FoundText latest results := by
  cases store with
  | bm25 inner =>
    cases searched
    exact Bm25Inner.Current.search current query topK
  | fts5 table => exact Fts5Store.Current.search current searched

end FullTextStore

/-! ## The engine -/

namespace HybridSearchEngine

variable {engine : HybridSearchEngine} {latest : LatestEntries} {entries : List IndexEntry}

/-- Both stores hold the latest inserts. -/
structure Current (latest : LatestEntries) (engine : HybridSearchEngine) : Prop where
  vector : engine.vectorStore.Current latest
  keyword : engine.fulltextStore.Current latest

/-- The scores are kept under the keys of the results they are for. -/
abbrev Scored (latest : LatestEntries) (scores : Table EntryKey (SearchResult × Float32)) : Prop :=
  ∀ key base, scores.get? key = some base →
    base.1.key = key ∧ ∃ value, latest key = some value ∧ base.1.text = value.text

theorem scored_addShares {scores : Table EntryKey (SearchResult × Float32)}
    (scored : Scored latest scores)
    (current : ∀ r ∈ results, ∃ value, latest r.key = some value ∧ r.text = value.text)
    (weight rrfK : Float32) : Scored latest (addShares weight rrfK scores results) := by
  unfold addShares
  have all : ∀ entry ∈ results.zipIdx, ∃ value,
      latest entry.1.key = some value ∧ entry.1.text = value.text := fun entry member =>
    current entry.1 (List.fst_mem_of_mem_zipIdx member)
  clear current
  generalize results.zipIdx = ranked at all ⊢
  induction ranked generalizing scores with
  | nil => exact scored
  | cons entry rest ih =>
    obtain ⟨r, rank⟩ := entry
    rw [List.foldl_cons]
    refine ih ?_ (List.forall_mem_cons.mp all).2
    dsimp only
    split
    next base score found =>
      intro key other present
      rw [Table.get?_put] at present
      split at present
      next here =>
        cases present
        exact here ▸ scored r.key (base, score) found
      next => exact scored key other present
    next =>
      intro key other present
      rw [Table.get?_put] at present
      split at present
      next here =>
        cases present
        subst here
        exact ⟨rfl, all (r, rank) List.mem_cons_self⟩
      next => exact scored key other present

/-- **Fusion** shows each key once, with the text of one of the two lists. -/
theorem holds_rrfFuse [LibraryOrders] {vector keyword : List SearchResult}
    (vectors : HoldsLatest SearchResult.key FoundText latest vector)
    (keywords : HoldsLatest SearchResult.key FoundText latest keyword) (alpha rrfK : Float32)
    (topK : Nat) :
    HoldsLatest SearchResult.key FoundText latest (rrfFuse vector keyword alpha rrfK topK) := by
  have scored : Scored latest (addShares (1 - alpha) rrfK (addShares alpha rrfK .empty vector)
      keyword) := by
    refine scored_addShares (scored_addShares ?_ vectors.current alpha rrfK) keywords.current _ rrfK
    intro key base found
    cases found
  unfold rrfFuse
  dsimp only
  generalize addShares (1 - alpha) rrfK (addShares alpha rrfK .empty vector) keyword = scores
    at scored
  have held : ∀ entry ∈ scores.entries, entry.2.1.key = entry.1 ∧
      ∃ value, latest entry.1 = some value ∧ entry.2.1.text = value.text := fun entry member =>
    scored entry.1 entry.2 (Table.get?_eq_some_iff.mpr member)
  have entries : HoldsLatest (fun entry : EntryKey × SearchResult × Float32 => entry.2.1.key)
      (fun value entry => entry.2.1.text = value.text) latest scores.entries := by
    refine ⟨?_, fun entry member => ?_⟩
    · rw [List.map_congr_left fun entry member => (held entry member).1]
      exact scores.distinct
    · rw [(held entry member).1]
      exact (held entry member).2
  have fused : HoldsLatest (fun entry : SearchResult × Float32 => entry.1.key)
      (fun value entry => entry.1.text = value.text) latest
      ((LibraryOrders.hashOrder scores.entries).map fun entry =>
        (entry.2.1, entry.2.2 * (rrfK + 1))) :=
    (entries.subperm (LibraryOrders.hashOrder_perm _).subperm).map (fun _ _ => rfl)
      fun _ _ _ fit => fit
  exact (fused.subperm (bestRanked_subperm _ topK _)).map (fun _ _ => rfl) fun _ _ _ fit => fit

theorem Current.search [CharClasses] [CaseMapping] [LibraryOrders] [HnswIndex.Usearch] [Fts5]
    (current : engine.Current latest) {queryText : String} {mode : SearchMode}
    (searched : engine.search queryVector queryText topK mode = .ok results) :
    HoldsLatest SearchResult.key FoundText latest results := by
  unfold HybridSearchEngine.search at searched
  cases mode with
  | vectorOnly =>
    dsimp only at searched
    split at searched
    next =>
      cases searched
      exact .nil
    next => exact current.vector.search searched
  | keywordOnly => exact current.keyword.search searched
  | hybrid =>
    dsimp only at searched
    split at searched
    next => exact current.keyword.search searched
    next =>
      obtain ⟨v, vectors, searched⟩ := bind_eq_ok.mp searched
      obtain ⟨k, keywords, searched⟩ := bind_eq_ok.mp searched
      cases searched
      exact holds_rrfFuse (current.vector.search vectors) (current.keyword.search keywords)
        engine.alpha engine.rrfK topK

end HybridSearchEngine

/-! ## Publications -/

/-- An engine, and what was inserted last by an observer's account. -/
structure PublishedState where
  engine : HybridSearchEngine
  latest : LatestEntries

namespace PublishedState

/-- An engine whose stores are new. -/
def IsNew (s : PublishedState) : Prop :=
  (s.engine.vectorStore = .flat .new ∨
      ∃ threshold, s.engine.vectorStore = .adaptive (.withThreshold threshold)) ∧
    (s.engine.fulltextStore = .bm25 .new ∨
      ∃ weights, s.engine.fulltextStore = .fts5 (.new weights)) ∧
    s.latest = fun _ => none

section Machine

variable [CharClasses] [CaseMapping] [LibraryOrders]

/-- A deletion that fails may have left the key in one of the stores. -/
def step (s : PublishedState) (publication : Publication) : Option PublishedState :=
  let (result, engine) := publication.publish s.engine
  some ⟨engine, match publication with
    | .insert entries _ _ => s.latest.insert entries
    | .deleteByUri uri _ => if result.isOk then s.latest.deleteByUri uri else s.latest⟩

omit [CharClasses] [CaseMapping] in
/-- A batch inserts keys that neither store holds, each of them once, and the full-text
store shows the texts that are inserted. -/
def Meets (s : PublishedState) : Publication → Prop
  | .insert entries _ _ => (entries.map entryKey).Nodup ∧
      (∀ e ∈ entries, s.engine.fulltextStore.shownText e = e.text) ∧
      ∀ held ∈ s.engine.vectorStore.exportAll ++ s.engine.fulltextStore.exportAll,
        ∀ e ∈ entries, held.key ≠ entryKey e
  | .deleteByUri _ _ => True

variable [HnswIndex.Usearch] [Fts5]

/-- Each store exports a key at most once, as it was inserted last, and so do searches of
every mode find it. -/
structure IsMap (s : PublishedState) : Prop where
  vector : HoldsLatest ExportEntry.key ShowsVector s.latest s.engine.vectorStore.exportAll
  keyword : HoldsLatest ExportEntry.key ShowsText s.latest s.engine.fulltextStore.exportAll
  search : ∀ queryVector queryText topK mode results,
    s.engine.search queryVector queryText topK mode = .ok results →
      HoldsLatest SearchResult.key FoundText s.latest results

omit [CharClasses] [CaseMapping] [LibraryOrders] [HnswIndex.Usearch] [Fts5] in
theorem current_new {s : PublishedState} (new : s.IsNew) : s.engine.Current s.latest := by
  obtain ⟨vectors, keywords, _⟩ := new
  refine ⟨?_, ?_⟩
  · rcases vectors with same | ⟨threshold, same⟩
    · rw [same]
      exact HoldsLatest.nil
    · rw [same]
      exact HoldsLatest.nil
  · rcases keywords with same | ⟨weights, same⟩
    · rw [same]
      exact FindsLatest.empty
    · rw [same]
      exact HoldsLatest.nil

omit [HnswIndex.Usearch] [Fts5] in
/-- A batch of new keys is inserted. -/
theorem current_insert {engine : HybridSearchEngine} {latest : LatestEntries}
    (current : engine.Current latest) {entries : List IndexEntry}
    (distinct : (entries.map entryKey).Nodup)
    (shown : ∀ e ∈ entries, engine.fulltextStore.shownText e = e.text)
    (fresh : ∀ held ∈ engine.vectorStore.exportAll ++ engine.fulltextStore.exportAll,
      ∀ e ∈ entries, held.key ≠ entryKey e)
    (vectorFailure : Option UsearchFailure) (keywordFailure : Option IndexError) :
    (engine.insert entries vectorFailure keywordFailure).2.Current (latest.insert entries) := by
  have stored : ∀ e ∈ entries, latest.insert entries (entryKey e) = some e := fun e member =>
    latest_insert_of_mem distinct member
  have untouched : ∀ {held : ExportEntry},
      held ∈ engine.vectorStore.exportAll ++ engine.fulltextStore.exportAll →
        latest held.key = latest.insert entries held.key := by
    intro held member
    exact (latest_insert_of_fresh fun e inside => (fresh held member e inside).symm).symm
  have vector : engine.vectorStore.Current (latest.insert entries) :=
    current.vector.congr fun held member => untouched (List.mem_append_left _ member)
  have keyword : engine.fulltextStore.Current (latest.insert entries) :=
    current.keyword.congr fun held member => untouched (List.mem_append_right _ member)
  have keywords := keyword.insert distinct stored shown
    (fun held member => fresh held (List.mem_append_right _ member)) keywordFailure
  unfold HybridSearchEngine.insert
  cases taken : vectorEntries entries with
  | nil => exact ⟨vector, keywords⟩
  | cons first rest =>
    have part : (first :: rest).Sublist entries := taken ▸ List.filter_sublist
    have vectors := vector.insert (distinct.sublist (part.map _))
      (fun e member => ⟨e, stored e (part.subset member), rfl, rfl⟩)
      (fun held member e inside =>
        fresh held (List.mem_append_left _ member) e (part.subset inside)) vectorFailure
    dsimp only
    split
    next same =>
      rw [same] at vectors
      exact ⟨vectors, keyword⟩
    next same =>
      rw [same] at vectors
      exact ⟨vectors, keywords⟩

omit [CharClasses] [CaseMapping] [HnswIndex.Usearch] [Fts5] in
/-- A deletion that succeeds leaves no key of its URI. -/
theorem current_deleteByUri {engine : HybridSearchEngine} {latest : LatestEntries}
    (current : engine.Current latest) (uri : String) (failure : Option IndexError) :
    (engine.deleteByUri uri failure).2.Current
      (if (engine.deleteByUri uri failure).1.isOk then latest.deleteByUri uri else latest) := by
  obtain ⟨vector, vectorGone⟩ := current.vector.deleteByUri uri
  obtain ⟨keyword, keywordGone⟩ := current.keyword.deleteByUri uri failure
  have untouched : ∀ {held : ExportEntry}, held.uri ≠ uri →
      latest held.key = latest.deleteByUri uri held.key := fun elsewhere =>
    (if_neg elsewhere).symm
  unfold HybridSearchEngine.deleteByUri
  dsimp only
  cases deleted : engine.fulltextStore.deleteByUri uri failure with
  | mk result fulltextStore =>
    rw [deleted] at keyword keywordGone
    cases result with
    | error error => exact ⟨vector, keyword⟩
    | ok keywordCount =>
      exact ⟨vector.congr fun held member => untouched (vectorGone held member),
        keyword.congr fun held member => untouched (keywordGone rfl held member)⟩

omit [HnswIndex.Usearch] [Fts5] in
/-- **One publication** that meets the condition keeps the stores current. -/
theorem current_step {s next : PublishedState} {publication : Publication}
    (current : s.engine.Current s.latest) (meets : s.Meets publication)
    (stepped : s.step publication = some next) : next.engine.Current next.latest := by
  cases publication with
  | insert entries vectorFailure keywordFailure =>
    obtain ⟨distinct, shown, fresh⟩ := meets
    cases stepped
    exact current_insert current distinct shown fresh vectorFailure keywordFailure
  | deleteByUri uri keywordFailure =>
    have deleted := current_deleteByUri current uri keywordFailure
    unfold step Publication.publish at stepped
    dsimp only at stepped
    cases found : s.engine.deleteByUri uri keywordFailure with
    | mk removed engine =>
      rw [found] at stepped deleted
      cases stepped
      cases removed <;> exact deleted

/-- **The search index is a map.** Over every run of publications that meet the condition,
each of the stores holds a key at most once and as it was inserted last, and every search
finds it so. -/
theorem holds_latest (s : PublishedState) (new : s.IsNew) (publications : List Publication)
    (met : Throughout step Meets s publications) (before after : List Publication)
    (reached : PublishedState) (split : publications = before ++ after)
    (ran : runs step s before = some reached) : reached.IsMap := by
  subst split
  have current : reached.engine.Current reached.latest := invariant_of_throughout
    (motive := fun s : PublishedState => s.engine.Current s.latest) (current_new new)
    (fun s publication next current meets stepped => current_step current meets stepped)
    (throughout_append.mp met).1 ran
  exact ⟨current.vector.exportAll, current.keyword.exportAll,
    fun _ _ _ _ _ searched => current.search searched⟩

end Machine

/-! ## A repair that runs twice -/

namespace Sample

/-- Whatever the standard library leaves open, it may leave as it is. -/
scoped instance keptOrders : LibraryOrders where
  selectNth _ _ items := items
  selectNth_perm _ _ items := List.Perm.refl items
  hashOrder items := items
  hashOrder_perm items := List.Perm.refl items

/-- The classes and the case of ASCII. -/
scoped instance asciiClasses : CharClasses := ⟨Char.isAlphanum⟩

scoped instance asciiCase : CaseMapping where
  toLowercase value := String.ofList (value.toList.map Char.toLower)

/-- The first vectors of a graph are found. -/
scoped instance firstVectors : HnswIndex.Usearch where
  search graph _ topK := .ok ((graph.vectors.entries.take topK).map fun entry => (entry.1, 0))
  distinct found := by
    cases found
    rw [List.map_map]
    exact (Table.distinct _).sublist ((List.take_sublist _ _).map _)

/-- A table in which nothing matches. -/
scoped instance noMatches : Fts5 where
  ranked _ _ := .ok []
  distinct found := by
    cases found
    exact List.nodup_nil

/-- A flat index and an inverted index, both new. -/
def twoNew : PublishedState where
  engine := ⟨.flat .new, .bm25 .new, 0.5, 60⟩
  latest _ := none

def sampleContent : SemanticContent where
  entityId := "e"
  content := "tea"
  observedAt := 0
  validFrom := none
  validUntil := none
  confidence := .one
  source := "chat"
  memoryTier := .episodic
  title := none
  summary := none
  importance := none
  sourceKind := none
  concepts := []
  sourceFiles := []

def sampleRow : ObservationRow := ⟨sampleContent, false, 0, none, 1, .active⟩

/-- What a repair has read for an observation that is active. -/
def sampleItem : IndexRepairItem where
  key := (1, 0)
  operation := .upsert
  logicalId := "a"
  observation := some sampleRow
  entityName := some "Ann"

/-- The publication of a repair that has a vector for the observation. -/
def sampleRepair : Publication := sampleItem.publication [.one] none none

theorem holds_latest_once : ∃ reached, runs step twoNew [sampleRepair] = some reached ∧
    reached.IsMap := by
  refine ⟨_, rfl, holds_latest twoNew ⟨.inl rfl, .inl rfl, rfl⟩ [sampleRepair] ?_ [sampleRepair] []
    _ rfl rfl⟩
  have meets : twoNew.Meets (.insert [sampleItem.entry sampleRow [.one]] none none) :=
    ⟨List.nodup_singleton _, fun _ _ => rfl, fun held member => by
      rcases List.mem_append.mp member with inside | inside
      · cases inside
      · obtain ⟨_, _, found, _⟩ := Bm25Inner.mem_exportAll.mp inside
        cases found⟩
  exact ⟨meets, fun _ _ => trivial⟩

theorem not_always_map : ∃ reached, runs step twoNew [sampleRepair, sampleRepair] = some reached ∧
    ¬ reached.IsMap := by
  refine ⟨_, rfl, fun map => ?_⟩
  exact absurd map.vector.distinct (by decide)

end Sample

end PublishedState

end OpenMemory.Index
