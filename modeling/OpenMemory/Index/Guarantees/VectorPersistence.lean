import OpenMemory.Index.Adaptive

/-!
# Vector indexes survive their files

Whenever an index is not dirty, opening its directory again yields the entries it has in
memory, so a flush may skip the save, and a flush that succeeds leaves it so. Crossing
over from the flat index to the index of nearest neighbours keeps every entry.

A clean index of nearest neighbours gets out of step with its files when a batch fails
after its first entries were added: they stay, and the index stays clean. A flat file is
read back as long as its lengths fit in the fields they are stored in.
-/

namespace OpenMemory.Index

open Foundation OpenMemory.Graph

/-! ## The flat file -/

/-- All vectors have the same length, which is not zero. -/
def Uniform (entries : List StoredEntry) : Prop :=
  ∃ dim, 0 < dim ∧ ∀ entry ∈ entries, entry.vector.length = dim

/-- The lengths fit in the fields of a flat file. -/
structure Fits (entries : List StoredEntry) : Prop where
  count : entries.length < 2 ^ 64
  uri : ∀ entry ∈ entries, (utf8 entry.uri).length < 2 ^ 32
  text : ∀ entry ∈ entries, (utf8 entry.text).length < 2 ^ 32
  vector : ∀ entry ∈ entries, entry.vector.length < 2 ^ 32

variable {dim : Nat} {entries : List IndexEntry}

namespace FlatVectorIndex

variable {path label : String}

theorem reads_readExact {encoded : Bytes} {width : Nat} (length : encoded.length = width) :
    Reads (readExact path width label) encoded encoded := by
  subst length
  exact Reads.takeBytes

theorem reads_readNumber {width n : Nat} (small : n < 256 ^ width) :
    Reads (readNumber path width label) (leBytes width n) n := by
  have reads : Reads (readNumber path width label) (leBytes width n)
      (ofLeBytes (leBytes width n)) := (reads_readExact (leBytes_length width n)).map
  rwa [ofLeBytes_leBytes small] at reads

theorem reads_readString {value : String} (short : (utf8 value).length < 2 ^ 32) :
    Reads (readString path label) (writeString value) value := by
  refine (reads_readNumber (show _ < 256 ^ 4 from short)).bind ?_
  refine (reads_readExact rfl).last ?_
  rw [fromUtf8_utf8]
  exact Reads.pure

theorem reads_readFloat {x : Float32Bits} : Reads (readFloat path label) (writeFloat x) x := by
  have reads : Reads (readFloat path label) (writeFloat x) ⟨BitVec.ofNat 32 x.toBits.toNat⟩ :=
    (reads_readNumber (show x.toBits.toNat < 256 ^ 4 from x.toBits.isLt)).map
  rwa [BitVec.ofNat_toNat, BitVec.setWidth_eq] at reads

theorem reads_readEntry {entry : StoredEntry} (uri : (utf8 entry.uri).length < 2 ^ 32)
    (text : (utf8 entry.text).length < 2 ^ 32) (i : Nat) :
    Reads (readEntry path entry.vector.length i) (writeEntry entry) entry := by
  refine (reads_readString uri).bind ((reads_readString text).bind ?_)
  refine (reads_readNumber (show _ < 256 ^ 4 from entry.chunkIndex.toNat_lt)).bind ?_
  have vector : Reads (readEach (fun j => readFloat path s!"vector[{i}][{j}]") 0
      entry.vector.length) (entry.vector.flatMap writeFloat) entry.vector :=
    Reads.each (fun _ _ _ => reads_readFloat) 0
  rw [UInt32.ofNat_toNat]
  exact vector.map

theorem dimension_eq {entries : List StoredEntry} {entry : StoredEntry}
    (same : ∀ entry ∈ entries, entry.vector.length = dim) (member : entry ∈ entries) :
    dimension entries = dim := by
  cases entries with
  | nil => cases member
  | cons first rest => exact same first List.mem_cons_self

theorem reads_readEntries {entries : List StoredEntry} (uniform : Uniform entries)
    (fits : Fits entries) : Reads (readEntries path) (fileBytes entries) entries := by
  obtain ⟨dim, positive, same⟩ := uniform
  unfold readEntries fileBytes
  refine (reads_readExact (show magic.length = 4 from rfl)).bind ?_
  dsimp only
  rw [if_neg (not_not.mpr rfl)]
  refine (reads_readNumber (show _ < 256 ^ 8 from fits.count)).bind ?_
  cases entries with
  | nil => exact (reads_readNumber (show 0 < 256 ^ 4 by decide)).bind Reads.pure
  | cons first rest =>
    have length := same first List.mem_cons_self
    have small := fits.vector first List.mem_cons_self
    refine (reads_readNumber (show dimension (first :: rest) < 256 ^ 4 from small)).bind ?_
    rw [if_neg (show dimension (first :: rest) ≠ 0 by rw [dimension]; omega)]
    refine Reads.each (fun position entry member => ?_) 0
    rw [dimension_eq same member, ← same entry member]
    exact reads_readEntry (fits.uri entry member) (fits.text entry member) position

/-- **Round trip.** What is saved is read back. -/
theorem load_fileBytes {entries : List StoredEntry} (uniform : Uniform entries)
    (fits : Fits entries) : load path (fileBytes entries) = .ok ⟨entries, false⟩ := by
  have reads : (readEntries path).run (fileBytes entries ++ []) = .ok (entries, []) :=
    reads_readEntries uniform fits []
  rw [List.append_nil] at reads
  unfold load
  rw [reads]
  rfl

variable {index : FlatVectorIndex}

/-- Whatever file is loaded, its vectors have one length. -/
theorem uniform_of_load {data : Bytes}
    (loaded : load path data = .ok index) : Uniform index.entries ∧ index.dirty = false := by
  unfold load at loaded
  obtain ⟨⟨entries, rest⟩, ran, finished⟩ := bind_eq_ok.mp loaded
  cases finished
  refine ⟨?_, rfl⟩
  unfold readEntries at ran
  obtain ⟨found, afterMagic, _, ran⟩ := run_bind_eq_ok.mp ran
  dsimp only at ran
  split at ran
  next => cases ran
  next =>
    obtain ⟨count, afterCount, _, ran⟩ := run_bind_eq_ok.mp ran
    obtain ⟨dim, afterDim, _, ran⟩ := run_bind_eq_ok.mp ran
    split at ran
    next =>
      cases ran
      exact ⟨1, Nat.one_pos, fun entry member => by cases member⟩
    next nonzero =>
      refine ⟨dim, Nat.pos_of_ne_zero nonzero, (forall_of_readEach ?_ ran).2⟩
      intro position bytes entry rest read
      unfold readEntry at read
      obtain ⟨uri, _, _, read⟩ := run_bind_eq_ok.mp read
      obtain ⟨text, _, _, read⟩ := run_bind_eq_ok.mp read
      obtain ⟨chunkIndex, _, _, read⟩ := run_bind_eq_ok.mp read
      obtain ⟨vector, _, vectorRead, read⟩ := run_bind_eq_ok.mp read
      cases read
      exact (forall_of_readEach (fun _ _ _ _ _ => trivial) vectorRead).1

/-! ## Inserts and deletes -/

theorem mismatched_eq_none :
    mismatched dim entries = none ↔ ∀ entry ∈ entries, entry.vector.length = dim := by
  unfold mismatched
  rw [List.find?_eq_none]
  simp only [decide_not, Bool.not_eq_true', decide_eq_false_iff_not, not_not]

/-- A batch is refused, or has nothing for the index, or is appended. -/
theorem insert_cases (index : FlatVectorIndex) (entries : List IndexEntry) :
    (∃ error, index.insert entries = (.error error, index)) ∨
      (vectorEntries entries = [] ∧ index.insert entries = (.ok (), index)) ∨
      (index.insert entries =
          (.ok (), ⟨index.entries ++ (vectorEntries entries).map storedEntry, true⟩) ∧
        ∃ dim, 0 < dim ∧ (∀ entry ∈ vectorEntries entries, entry.vector.length = dim) ∧
          ∀ existing ∈ index.entries.head?, existing.vector.length = dim) := by
  have filled : ∀ entry ∈ vectorEntries entries, entry.vector ≠ [] := by
    intro entry member empty
    have kept := (List.mem_filter.mp member).2
    rw [empty] at kept
    cases kept
  unfold insert
  cases taken : vectorEntries entries with
  | nil => exact .inr (.inl ⟨rfl, rfl⟩)
  | cons first rest =>
    rw [taken] at filled
    dsimp only
    split
    next => exact .inl ⟨_, rfl⟩
    next agrees =>
      split
      next => exact .inl ⟨_, rfl⟩
      next same =>
        refine .inr (.inr ⟨rfl, first.vector.length, ?_, ?_, ?_⟩)
        · exact List.length_pos_of_ne_nil (filled first List.mem_cons_self)
        · intro entry member
          rcases List.mem_cons.mp member with rfl | member
          · rfl
          · exact mismatched_eq_none.mp same entry member
        · intro existing found
          rw [Option.filter_eq_none_iff] at agrees
          have equal := agrees existing found
          rw [decide_eq_true_iff, not_not] at equal
          exact equal

theorem uniform_insert (uniform : Uniform index.entries)
    (entries : List IndexEntry) : Uniform (index.insert entries).2.entries := by
  rcases index.insert_cases entries with
    ⟨_, same⟩ | ⟨_, same⟩ | ⟨appended, dim, positive, batch, head⟩
  · rw [same]
    exact uniform
  · rw [same]
    exact uniform
  · rw [appended]
    refine ⟨dim, positive, fun entry member => ?_⟩
    rcases List.mem_append.mp member with old | new
    · obtain ⟨held, _, lengths⟩ := uniform
      cases present : index.entries with
      | nil =>
        rw [present] at old
        cases old
      | cons first rest =>
        rw [present] at head lengths old
        rw [lengths entry old, ← lengths first List.mem_cons_self]
        exact head first rfl
    · obtain ⟨inserted, taken, rfl⟩ := List.mem_map.mp new
      exact batch inserted taken

theorem uniform_deleteByUri (uniform : Uniform index.entries)
    (uri : String) : Uniform (index.deleteByUri uri).2.entries := by
  obtain ⟨dim, positive, lengths⟩ := uniform
  exact ⟨dim, positive, fun entry member => lengths entry (List.mem_filter.mp member).1⟩

/-- A deletion that leaves the index clean deletes nothing. -/
theorem deleteByUri_clean {uri : String} (clean : (index.deleteByUri uri).2.dirty = false) :
    index.dirty = false ∧ (index.deleteByUri uri).2.entries = index.entries := by
  unfold deleteByUri at clean ⊢
  dsimp only at clean ⊢
  rw [Bool.or_eq_false_iff, decide_eq_false_iff_not] at clean
  refine ⟨clean.1, List.filter_sublist.eq_of_length_le ?_⟩
  omega

end FlatVectorIndex

namespace HnswIndex

variable {index later : HnswIndex} {failure : Option UsearchFailure} {position : Nat}

/-! ## The index of nearest neighbours -/

/-- The graph refuses the entry at a position of a batch. -/
def Refused (index : HnswIndex) (failure : Option UsearchFailure) (position : Nat) : Prop :=
  (failsAt failure position).isSome ∨ (index.graph.vectors.get? (index.nextLabel + position)).isSome

/-- Both sides of the index have the same entries, for the same dimensions. -/
structure SameEntries (index later : HnswIndex) : Prop where
  graph : later.graph = index.graph
  metas : later.metas = index.metas
  dimensions : later.dimensions = index.dimensions
  dirty : later.dirty = index.dirty

theorem SameEntries.refl : SameEntries index index := ⟨rfl, rfl, rfl, rfl⟩

theorem SameEntries.exportAll (same : SameEntries index later) :
    later.exportAll = index.exportAll := by
  unfold HnswIndex.exportAll
  rw [same.graph, same.metas, same.dimensions]

/-- The dimensions of the index are those of its graph, once they are set. -/
def Sized (index : HnswIndex) : Prop :=
  0 < index.dimensions ∧ index.graph.dimensions = index.dimensions

theorem dimensions_addEntries {position : Nat} {entries : List IndexEntry} :
    (addEntries failure position index entries).2.dimensions = index.dimensions ∧
      (addEntries failure position index entries).2.graph.dimensions = index.graph.dimensions := by
  induction entries generalizing index position with
  | nil => exact ⟨rfl, rfl⟩
  | cons entry rest ih =>
    rw [addEntries]
    dsimp only
    split
    next => exact ⟨rfl, rfl⟩
    next =>
      split
      next => exact ⟨rfl, rfl⟩
      next graph added =>
        obtain ⟨dimensions, graphs⟩ := @ih _ (position + 1)
        refine ⟨dimensions, graphs.trans ?_⟩
        unfold addVector at added
        obtain ⟨_, ⟨⟩⟩ := Option.ite_none_left_eq_some.mp added
        rfl

/-- A dirty index stays dirty. -/
theorem dirty_addEntries {position : Nat} (dirty : index.dirty) :
    (addEntries failure position index entries).2.dirty := by
  induction entries generalizing index position with
  | nil => rfl
  | cons entry rest ih =>
    rw [addEntries]
    dsimp only
    split
    next => exact dirty
    next =>
      split
      next => exact dirty
      next => exact ih dirty

/-- A batch that is added leaves the index dirty. -/
theorem dirty_of_added {position : Nat}
    (added : addEntries failure position index entries = (.ok (), later)) : later.dirty := by
  induction entries generalizing index position with
  | nil =>
    cases added
    rfl
  | cons entry rest ih =>
    rw [addEntries] at added
    dsimp only at added
    split at added
    next => cases added
    next =>
      split at added
      next => cases added
      next => exact ih added

/-- A batch of which the first entry is refused adds nothing. -/
theorem sameEntries_of_refused {first : IndexEntry} {rest : List IndexEntry}
    (refused : Refused index failure 0) :
    SameEntries index (addEntries failure 0 index (first :: rest)).2 := by
  rw [addEntries]
  dsimp only
  split
  next => exact ⟨rfl, rfl, rfl, rfl⟩
  next accepted =>
    rcases refused with fails | there
    · rw [accepted] at fails
      cases fails
    · rw [Nat.add_zero] at there
      unfold addVector
      rw [if_pos there]
      exact ⟨rfl, rfl, rfl, rfl⟩

/-- A batch of which nothing is refused leaves the index dirty. -/
theorem dirty_of_accepted {position start : Nat} (label : index.nextLabel = start + position)
    (taken : ∀ other, position ≤ other → (index.graph.vectors.get? (start + other)).isSome →
      other < position + entries.length → False)
    (accepted : ∀ other, position ≤ other → other < position + entries.length →
      failsAt failure other = none) : (addEntries failure position index entries).2.dirty := by
  induction entries generalizing index position with
  | nil => rfl
  | cons entry rest ih =>
    rw [List.length_cons] at taken accepted
    rw [addEntries]
    dsimp only
    rw [accepted position le_rfl (by omega)]
    dsimp only
    have free : index.graph.vectors.get? index.nextLabel = none := by
      rw [← Option.not_isSome_iff_eq_none, label]
      exact fun there => taken position le_rfl there (by omega)
    unfold addVector
    rw [free, if_neg (by exact Bool.false_ne_true)]
    dsimp only
    refine ih (by dsimp only; omega) ?_ (fun other above below => accepted other (by omega)
      (by omega))
    intro other above there below
    dsimp only at there
    rw [Table.get?_put, label, if_neg (by omega)] at there
    exact taken other (by omega) there (by omega)

/-- **An insert** leaves the entries of a clean index as they are, or leaves it dirty, if
the first entry is refused or none is. -/
theorem insert_cases (sized : index.Sized) (meets : index.dirty = false → Refused index failure 0 ∨
      ∀ position < (vectorEntries entries).length, ¬ Refused index failure position) :
    (SameEntries index (index.insert entries failure).2 ∨
      (index.insert entries failure).2.dirty) ∧ (index.insert entries failure).2.Sized := by
  unfold insert
  cases taken : vectorEntries entries with
  | nil => exact ⟨.inl .refl, sized⟩
  | cons first rest =>
    rw [taken] at meets
    dsimp only
    unfold ensureDimensions
    rw [if_neg sized.1.ne']
    split
    next error other same =>
      split at same
      next => cases same
      next =>
        cases same
        exact ⟨.inl .refl, sized⟩
    next done other same =>
      split at same
      next =>
        cases same
        split
        next => exact ⟨.inl .refl, sized⟩
        next =>
          split
          next => exact ⟨.inl .refl, sized⟩
          next =>
            refine ⟨?_, ?_⟩
            · cases dirty : index.dirty with
              | true => exact .inr (dirty_addEntries dirty)
              | false =>
                rcases meets dirty with refused | accepted
                · exact .inl (sameEntries_of_refused refused)
                · refine .inr (dirty_of_accepted (Nat.add_zero _).symm ?_ ?_)
                  · intro other _ there below
                    exact accepted other (by omega) (.inr there)
                  · intro other _ below
                    rw [← Option.not_isSome_iff_eq_none]
                    exact fun fails => accepted other (by omega) (.inl fails)
            · obtain ⟨dimensions, graph⟩ := @dimensions_addEntries index failure 0 (first :: rest)
              exact ⟨dimensions ▸ sized.1, by rw [dimensions, graph, sized.2]⟩
      next => cases same

theorem sized_deleteByUri (sized : index.Sized) (uri : String) :
    (index.deleteByUri uri).2.Sized := by
  unfold deleteByUri
  split
  next => exact sized
  next => exact sized

/-- A deletion that leaves the index clean deletes nothing. -/
theorem deleteByUri_clean {uri : String} (clean : (index.deleteByUri uri).2.dirty = false) :
    index.dirty = false ∧ (index.deleteByUri uri).2.exportAll = index.exportAll := by
  unfold deleteByUri at clean ⊢
  split at clean
  next => exact ⟨clean, rfl⟩
  next labels _ =>
    dsimp only at clean ⊢
    rw [Bool.or_eq_false_iff, decide_eq_false_iff_not, Nat.not_lt, Nat.le_zero,
      List.length_eq_zero_iff] at clean
    obtain ⟨clean, rfl⟩ := clean
    refine ⟨clean, ?_⟩
    unfold exportAll
    dsimp only
    rw [Table.filter_notMem_nil, Table.filter_notMem_nil]

/-! ## Crossing over -/

/-- All labels in use are smaller than the next one. -/
def Numbered (index : HnswIndex) : Prop :=
  ∀ label, index.nextLabel ≤ label →
    index.metas.get? label = none ∧ index.graph.vectors.get? label = none

theorem Numbered.add (numbered : index.Numbered) (entry : IndexEntry) :
    Numbered { index with
      nextLabel := index.nextLabel + 1
      graph := { index.graph with
        vectors := index.graph.vectors.put index.nextLabel entry.vector }
      byUri := pushLabel index.byUri entry.uri index.nextLabel
      metas := index.metas.put index.nextLabel ⟨entry.uri, entry.text, entry.chunkIndex⟩ } := by
  intro label above
  dsimp only at above ⊢
  have older := numbered label (by omega)
  rw [Table.get?_put, Table.get?_put, if_neg (by omega), if_neg (by omega)]
  exact older

def exported (entry : IndexEntry) : ExportEntry :=
  ⟨entry.uri, entry.text, entry.chunkIndex, entry.vector⟩

/-- A batch that is added is exported behind what was there. -/
theorem exportAll_addEntries (numbered : index.Numbered)
    (added : addEntries failure position index entries = (.ok (), later)) :
    later.exportAll = index.exportAll ++ entries.map exported := by
  induction entries generalizing index position with
  | nil =>
    cases added
    rw [List.map_nil, List.append_nil]
    rfl
  | cons entry rest ih =>
    rw [addEntries] at added
    dsimp only at added
    split at added
    next => cases added
    next =>
      split at added
      next => cases added
      next graph grown =>
        obtain ⟨_, ⟨⟩⟩ := Option.ite_none_left_eq_some.mp grown
        have fresh := numbered index.nextLabel le_rfl
        have present : ∀ held ∈ index.metas.entries, held.1 ≠ index.nextLabel := by
          intro held member same
          have found := Table.get?_eq_some_iff.mpr
            (show (index.nextLabel, held.2) ∈ index.metas.entries from same ▸ member)
          rw [fresh.1] at found
          cases found
        rw [ih ?_ added]
        · rw [List.map_cons, ← List.singleton_append, ← List.append_assoc]
          congr 1
          unfold exportAll
          dsimp only
          rw [Table.put_of_fresh fresh.1, List.map_append, List.map_singleton]
          congr 1
          · refine List.map_congr_left fun held member => ?_
            rw [Table.get?_put, if_neg (present held member)]
          · rw [Table.get?_put, if_pos rfl]
            rfl
        · exact numbered.add entry

theorem numbered_addEntries (numbered : index.Numbered)
    (added : addEntries failure position index entries = (.ok (), later)) : later.Numbered := by
  induction entries generalizing index position with
  | nil =>
    cases added
    exact numbered
  | cons entry rest ih =>
    rw [addEntries] at added
    dsimp only at added
    split at added
    next => cases added
    next =>
      split at added
      next => cases added
      next graph grown =>
        obtain ⟨_, ⟨⟩⟩ := Option.ite_none_left_eq_some.mp grown
        exact ih (numbered.add entry) added

/-- Without a failure a batch is added. -/
theorem addEntries_ok (numbered : index.Numbered) {entries : List IndexEntry} :
    ∃ later, addEntries none position index entries = (.ok (), later) := by
  induction entries generalizing index position with
  | nil => exact ⟨_, rfl⟩
  | cons entry rest ih =>
    rw [addEntries]
    dsimp only
    unfold addVector
    rw [show failsAt none position = none from rfl, (numbered index.nextLabel le_rfl).2,
      if_neg (by exact Bool.false_ne_true)]
    exact ih (numbered.add entry)

theorem numbered_withDimensions (dim : Nat) : (withDimensions dim).Numbered :=
  fun _ _ => ⟨rfl, rfl⟩

variable {flat : FlatVectorIndex}

/-- The insert of a crossing, which refuses nothing by itself. -/
theorem migrateFromFlat_eq (positive : 0 < dim)
    (lengths : ∀ entry ∈ flat.entries, entry.vector.length = dim) (nonempty : flat.entries ≠ []) :
    migrateFromFlat flat failure =
      match failure with
      | some (.create message) => .error (.invalidInput message)
      | some (.reserve message) => .error (.invalidInput s!"usearch reserve: {message}")
      | failure => match addEntries failure 0 (withDimensions dim)
          (flat.exportAll.map ExportEntry.toIndexEntry) with
        | (.error error, _) => .error error
        | (.ok _, hnsw) => .ok hnsw := by
  have uniform : ∀ entry ∈ flat.exportAll.map ExportEntry.toIndexEntry,
      entry.vector.length = dim := by
    intro entry member
    obtain ⟨held, inside, rfl⟩ := List.mem_map.mp member
    obtain ⟨stored, original, rfl⟩ := List.mem_map.mp inside
    exact lengths stored original
  have all : vectorEntries (flat.exportAll.map ExportEntry.toIndexEntry) =
      flat.exportAll.map ExportEntry.toIndexEntry := by
    refine List.filter_eq_self.mpr fun entry member => ?_
    have length := uniform entry member
    cases vector : entry.vector with
    | nil =>
      rw [vector] at length
      exact absurd length.symm positive.ne'
    | cons => rfl
  unfold migrateFromFlat
  cases exports : flat.exportAll with
  | nil => exact absurd (List.map_eq_nil_iff.mp exports) nonempty
  | cons first rest =>
    rw [exports] at uniform all
    have length : first.vector.length = dim := uniform _ List.mem_cons_self
    have matched : FlatVectorIndex.mismatched dim (rest.map ExportEntry.toIndexEntry) = none :=
      FlatVectorIndex.mismatched_eq_none.mpr (List.forall_mem_cons.mp uniform).2
    dsimp only
    by_cases created : ∃ message, failure = some (.create message)
    · obtain ⟨message, rfl⟩ := created
      rfl
    have graph : createGraph first.vector.length failure =
        .ok (emptyGraph first.vector.length) := by
      unfold createGraph
      split
      next message => exact absurd ⟨message, rfl⟩ created
      next => rfl
    rw [graph]
    dsimp only
    unfold insert ensureDimensions
    rw [length, all, List.map_cons]
    dsimp only
    rw [show first.toIndexEntry.vector.length = dim from length,
      if_neg (show (withDimensions dim).dimensions ≠ 0 from positive.ne'),
      if_pos (show (withDimensions dim).dimensions = dim from rfl)]
    dsimp only
    rw [matched]
    dsimp only
    cases failure with
    | none => rfl
    | some failure => cases failure with
      | create message => exact absurd ⟨message, rfl⟩ created
      | reserve message => rfl
      | add position message => rfl

/-- **Crossing over** keeps all entries in their order, and leaves the index dirty. -/
theorem migrateFromFlat_keeps {hnsw : HnswIndex}
    (uniform : Uniform flat.entries) (nonempty : flat.entries ≠ [])
    (migrated : migrateFromFlat flat failure = .ok hnsw) :
    hnsw.exportAll = flat.exportAll ∧ hnsw.dirty ∧ hnsw.Sized := by
  obtain ⟨dim, positive, lengths⟩ := uniform
  rw [migrateFromFlat_eq positive lengths nonempty] at migrated
  have same : (flat.exportAll.map ExportEntry.toIndexEntry).map exported = flat.exportAll := by
    rw [List.map_map]
    exact List.map_id _
  split at migrated
  next => cases migrated
  next => cases migrated
  next =>
    split at migrated
    next => cases migrated
    next result added =>
      cases migrated
      refine ⟨?_, ?_, ?_⟩
      · rw [exportAll_addEntries (numbered_withDimensions dim) added, same]
        rfl
      · exact dirty_of_added added
      · have sizes := @dimensions_addEntries (withDimensions dim) failure 0
          (flat.exportAll.map ExportEntry.toIndexEntry)
        rw [added] at sizes
        exact ⟨sizes.1 ▸ positive, sizes.2.trans sizes.1.symm⟩

/-- What has crossed over has the dimensions of the flat entries, and fresh labels. -/
theorem numbered_of_migrateFromFlat {hnsw : HnswIndex}
    (positive : 0 < dim) (lengths : ∀ entry ∈ flat.entries, entry.vector.length = dim)
    (nonempty : flat.entries ≠ []) (migrated : migrateFromFlat flat failure = .ok hnsw) :
    hnsw.Numbered ∧ hnsw.dimensions = dim := by
  rw [migrateFromFlat_eq positive lengths nonempty] at migrated
  split at migrated
  next => cases migrated
  next => cases migrated
  next =>
    split at migrated
    next => cases migrated
    next result added =>
      cases migrated
      have sizes := @dimensions_addEntries (withDimensions dim) failure 0
        (flat.exportAll.map ExportEntry.toIndexEntry)
      rw [added] at sizes
      exact ⟨numbered_addEntries (numbered_withDimensions dim) added, sizes.1⟩

/-- Without a failure an index crosses over. -/
theorem migrateFromFlat_ok (uniform : Uniform flat.entries) :
    ∃ hnsw, migrateFromFlat flat none = .ok hnsw := by
  by_cases empty : flat.entries = []
  · refine ⟨new, ?_⟩
    unfold migrateFromFlat FlatVectorIndex.exportAll
    rw [empty]
    rfl
  · obtain ⟨dim, positive, lengths⟩ := uniform
    rw [migrateFromFlat_eq positive lengths empty]
    obtain ⟨hnsw, added⟩ := @addEntries_ok (withDimensions dim) 0 (numbered_withDimensions dim)
      (flat.exportAll.map ExportEntry.toIndexEntry)
    refine ⟨hnsw, ?_⟩
    dsimp only
    rw [added]

end HnswIndex

/-! ## Opening a directory -/

namespace AdaptiveVectorIndex

variable {path : String} {dir : IndexDir} {failure : Option UsearchFailure}
  {index : AdaptiveVectorIndex}

theorem loadOrCreate_of_files {graph : Graph} {metas : Table Nat EntryMeta}
    (stored : dir.graph = some (some graph)) (labels : dir.metas = some (some metas)) :
    loadOrCreate path dir failure =
      (.ok ⟨.hnsw (.ofFiles graph metas), defaultHnswMigrationThreshold⟩, dir) := by
  unfold loadOrCreate HnswIndex.hasPersistedFiles HnswIndex.loadOrCreate
  rw [stored, labels]
  rfl

theorem loadOrCreate_of_flat (graph : dir.graph = none) (metas : dir.metas = none)
    {flat : FlatVectorIndex} (opened : FlatVectorIndex.openFile path dir.vectorsBin = .ok flat) :
    loadOrCreate path dir failure =
      (if defaultHnswMigrationThreshold ≤ flat.count then
        ((HnswIndex.migrateFromFlat flat failure).map .hnsw).map
          fun backend => ⟨backend, defaultHnswMigrationThreshold⟩
      else .ok ⟨.flat flat, defaultHnswMigrationThreshold⟩, dir) := by
  unfold loadOrCreate HnswIndex.hasPersistedFiles
  rw [graph, metas]
  dsimp only
  rw [if_neg (by exact Bool.false_ne_true), opened]
  dsimp only
  split <;> rfl

/-- A pair of files that cannot be loaded is refused. -/
theorem loadOrCreate_of_pair {error : IndexError} (files : HnswIndex.hasPersistedFiles dir = true)
    (failed : HnswIndex.loadOrCreate path dir failure none = (.error error, dir)) :
    loadOrCreate path dir failure = (.error error, dir) := by
  unfold loadOrCreate
  dsimp only
  rw [if_pos files, failed]
  rfl

/-- A flat file that cannot be loaded is refused. -/
theorem loadOrCreate_of_noFlat {error : IndexError} (graph : dir.graph = none)
    (metas : dir.metas = none)
    (failed : FlatVectorIndex.openFile path dir.vectorsBin = .error error) :
    loadOrCreate path dir failure = (.error error, dir) := by
  unfold loadOrCreate HnswIndex.hasPersistedFiles
  rw [graph, metas]
  dsimp only
  rw [if_neg (by exact Bool.false_ne_true), failed]

/-- **Opening a directory** leaves it as it is, and yields the index of its two files, or
its flat file, or what has crossed over from it. -/
theorem loadOrCreate_cases :
    (loadOrCreate path dir failure).2 = dir ∧
      ∀ index, (loadOrCreate path dir failure).1 = .ok index →
        (∃ graph metas, dir.graph = some (some graph) ∧ dir.metas = some (some metas) ∧
          index = ⟨.hnsw (.ofFiles graph metas), defaultHnswMigrationThreshold⟩) ∨
        dir.graph = none ∧ dir.metas = none ∧
          ∃ flat, FlatVectorIndex.openFile path dir.vectorsBin = .ok flat ∧
            (flat.count < defaultHnswMigrationThreshold ∧
                index = ⟨.flat flat, defaultHnswMigrationThreshold⟩ ∨
              defaultHnswMigrationThreshold ≤ flat.count ∧
                ∃ hnsw, HnswIndex.migrateFromFlat flat failure = .ok hnsw ∧
                  index = ⟨.hnsw hnsw, defaultHnswMigrationThreshold⟩) := by
  -- what is refused is not opened
  have refused : ∀ {error : IndexError}, loadOrCreate path dir failure = (.error error, dir) →
      (loadOrCreate path dir failure).2 = dir ∧
        ∀ index, (loadOrCreate path dir failure).1 = .ok index → False := by
    intro error failed
    rw [failed]
    exact ⟨rfl, fun index loaded => by cases loaded⟩
  cases graph : dir.graph with
  | none =>
    cases metas : dir.metas with
    | none =>
      cases opened : FlatVectorIndex.openFile path dir.vectorsBin with
      | error error =>
        obtain ⟨same, never⟩ := refused (loadOrCreate_of_noFlat graph metas opened)
        exact ⟨same, fun index loaded => (never index loaded).elim⟩
      | ok flat =>
        rw [loadOrCreate_of_flat graph metas opened]
        refine ⟨rfl, fun index loaded => .inr ⟨rfl, rfl, flat, rfl, ?_⟩⟩
        dsimp only at loaded
        split at loaded
        next large =>
          cases migrated : HnswIndex.migrateFromFlat flat failure with
          | error error =>
            rw [migrated] at loaded
            cases loaded
          | ok hnsw =>
            rw [migrated] at loaded
            cases loaded
            exact .inr ⟨large, hnsw, rfl, rfl⟩
        next small =>
          cases loaded
          exact .inl ⟨Nat.lt_of_not_le small, rfl⟩
    | some labels =>
      obtain ⟨same, never⟩ := refused (loadOrCreate_of_pair
        (by unfold HnswIndex.hasPersistedFiles; rw [graph, metas]; rfl)
        (by unfold HnswIndex.loadOrCreate; rw [graph, metas]))
      exact ⟨same, fun index loaded => (never index loaded).elim⟩
  | some stored =>
    have files : HnswIndex.hasPersistedFiles dir = true := by
      unfold HnswIndex.hasPersistedFiles
      rw [graph]
      rfl
    cases metas : dir.metas with
    | none =>
      obtain ⟨same, never⟩ := refused (loadOrCreate_of_pair files
        (by unfold HnswIndex.loadOrCreate; rw [graph, metas]))
      exact ⟨same, fun index loaded => (never index loaded).elim⟩
    | some labels =>
      cases labels with
      | none =>
        obtain ⟨same, never⟩ := refused (loadOrCreate_of_pair files
          (by unfold HnswIndex.loadOrCreate HnswIndex.loadFrom; rw [graph, metas]))
        exact ⟨same, fun index loaded => (never index loaded).elim⟩
      | some labels =>
        cases stored with
        | none =>
          obtain ⟨same, never⟩ := refused (loadOrCreate_of_pair files
            (by unfold HnswIndex.loadOrCreate HnswIndex.loadFrom; rw [graph, metas]))
          exact ⟨same, fun index loaded => (never index loaded).elim⟩
        | some stored =>
          rw [loadOrCreate_of_files graph metas]
          refine ⟨rfl, fun index loaded => .inl ⟨stored, labels, rfl, rfl, ?_⟩⟩
          cases loaded
          rfl

end AdaptiveVectorIndex

/-! ## What is claimed -/

/-- Opening the directory yields these entries, if the graph does not fail. -/
def Reloads (path : String) (dir : IndexDir) (exports : List ExportEntry) : Prop :=
  ∃ loaded, (AdaptiveVectorIndex.loadOrCreate path dir none).1 = .ok loaded ∧
    loaded.exportAll.Perm exports

namespace IndexState

/-- An index that is not dirty is what opening its directory yields. -/
def Persisted (path : String) (s : IndexState) : Prop :=
  ∀ index, s.index = some index → index.isDirty = false → Reloads path s.dir index.exportAll

/-- Crossing over keeps every entry, in memory and at the opening of a flat file, and a
flat file beside the files of the graph does not matter. -/
structure Crosses (path : String) (s : IndexState) (action : IndexAction) (next : IndexState) :
    Prop where
  memory : ∀ entries failure index flat after hnsw, action = .insert entries failure →
    s.index = some index → index.backend = .flat flat → next.index = some after →
      after.backend = .hnsw hnsw →
        hnsw.exportAll.Perm (flat.exportAll ++ (vectorEntries entries).map HnswIndex.exported)
  opening : ∀ failure after, action = .reopen failure → next.index = some after →
    HnswIndex.hasPersistedFiles s.dir = false →
      ∃ flat, FlatVectorIndex.openFile path s.dir.vectorsBin = .ok flat ∧
        after.exportAll.Perm flat.exportAll
  older : ∀ failure vectorsBin, action = .reopen failure →
    HnswIndex.hasPersistedFiles s.dir = true →
      (AdaptiveVectorIndex.loadOrCreate path { s.dir with vectorsBin } failure).1 =
        (AdaptiveVectorIndex.loadOrCreate path s.dir failure).1

/-- A batch for a clean index of nearest neighbours fails at its first entry or not at
all, and a flat file that is saved has room for all lengths. -/
def Meets (s : IndexState) : IndexAction → Prop
  | .insert entries failure => ∀ index hnsw, s.index = some index → index.backend = .hnsw hnsw →
      hnsw.dirty = false → HnswIndex.Refused hnsw failure 0 ∨
        ∀ position < (vectorEntries entries).length, ¬ HnswIndex.Refused hnsw failure position
  | .flush none => ∀ index flat, s.index = some index → index.backend = .flat flat →
      flat.dirty → Fits flat.entries
  | _ => True

/-! ## The invariant -/

structure Kept (path : String) (s : IndexState) : Prop where
  persisted : s.Persisted path
  flat : ∀ index flat, s.index = some index → index.backend = .flat flat →
    Uniform flat.entries ∧ s.dir.graph = none ∧ s.dir.metas = none
  hnsw : ∀ index hnsw, s.index = some index → index.backend = .hnsw hnsw → hnsw.Sized
  graph : ∀ graph, s.dir.graph = some (some graph) → 0 < graph.dimensions
  threshold : ∀ index, s.index = some index → 0 < index.migrationThreshold

section Steps

variable {path : String} {s next : IndexState} {index : AdaptiveVectorIndex}
  {flat : FlatVectorIndex} {hnsw : HnswIndex}

theorem kept_new (vectorsBin : Option Bytes) : Kept path (.new vectorsBin) where
  persisted index present := by cases present
  flat index flat present := by cases present
  hnsw index hnsw present := by cases present
  graph graph stored := by cases stored
  threshold index present := by cases present

theorem entries_ne_nil_of_large {threshold : Nat} (positive : 0 < threshold)
    (large : threshold ≤ flat.count) : flat.entries ≠ [] :=
  List.ne_nil_of_length_pos (positive.trans_le large)

/-- A flat file is what it was saved as, also where opening it crosses over. -/
theorem reloads_flat {dir : IndexDir} (graph : dir.graph = none) (metas : dir.metas = none)
    (opened : FlatVectorIndex.openFile path dir.vectorsBin = .ok flat)
    (uniform : Uniform flat.entries) : Reloads path dir flat.exportAll := by
  unfold Reloads
  rw [AdaptiveVectorIndex.loadOrCreate_of_flat graph metas opened]
  by_cases large : defaultHnswMigrationThreshold ≤ flat.count
  · obtain ⟨hnsw, migrated⟩ := HnswIndex.migrateFromFlat_ok uniform
    have nonempty := entries_ne_nil_of_large (Nat.succ_pos _) large
    have keeps := HnswIndex.migrateFromFlat_keeps uniform nonempty migrated
    rw [if_pos large, migrated]
    exact ⟨_, rfl, List.Perm.of_eq keeps.1⟩
  · rw [if_neg large]
    exact ⟨_, rfl, List.Perm.refl _⟩

theorem uniform_of_openFile {data : Option Bytes}
    (opened : FlatVectorIndex.openFile path data = .ok flat) :
    Uniform flat.entries ∧ flat.dirty = false := by
  cases data with
  | none =>
    cases opened
    exact ⟨⟨1, Nat.one_pos, fun entry member => by cases member⟩, rfl⟩
  | some data => exact FlatVectorIndex.uniform_of_load opened

variable (kept : Kept path s)

include kept

/-- An index takes the place of the one before. -/
theorem Kept.replace (persisted : index.isDirty = false → Reloads path s.dir index.exportAll)
    (flat : ∀ flat, index.backend = .flat flat →
      Uniform flat.entries ∧ s.dir.graph = none ∧ s.dir.metas = none)
    (hnsw : ∀ hnsw, index.backend = .hnsw hnsw → hnsw.Sized)
    (threshold : 0 < index.migrationThreshold) : Kept path { s with index := some index } where
  persisted other present clean := by
    cases present
    exact persisted clean
  flat other held present backend := by
    cases present
    exact flat held backend
  hnsw other held present backend := by
    cases present
    exact hnsw held backend
  graph := kept.graph
  threshold other present := by
    cases present
    exact threshold

section

variable (present : s.index = some index)

include present

theorem Kept.replaceFlat (backend : index.backend = .flat flat) {later : FlatVectorIndex}
    (uniform : Uniform later.entries)
    (clean : later.dirty = false → flat.dirty = false ∧ later.entries = flat.entries) :
    Kept path { s with index := some { index with backend := .flat later } } := by
  obtain ⟨_, graph, metas⟩ := kept.flat index flat present backend
  refine kept.replace ?_ ?_ ?_ (kept.threshold index present)
  · intro untouched
    obtain ⟨before, same⟩ := clean untouched
    have dirty : index.isDirty = false := by
      unfold AdaptiveVectorIndex.isDirty
      rw [backend]
      exact before
    have reloads := kept.persisted index present dirty
    unfold AdaptiveVectorIndex.exportAll at reloads ⊢
    rw [backend] at reloads
    unfold FlatVectorIndex.exportAll at reloads ⊢
    dsimp only at reloads ⊢
    rw [same]
    exact reloads
  · rintro _ ⟨⟩
    exact ⟨uniform, graph, metas⟩
  · rintro _ ⟨⟩

theorem Kept.replaceHnsw {later : HnswIndex} (sized : later.Sized)
    (clean : later.dirty = false → index.isDirty = false ∧ later.exportAll = index.exportAll) :
    Kept path { s with index := some { index with backend := .hnsw later } } := by
  refine kept.replace ?_ ?_ ?_ (kept.threshold index present)
  · intro untouched
    obtain ⟨before, same⟩ := clean untouched
    have reloads := kept.persisted index present before
    rw [← same] at reloads
    exact reloads
  · rintro _ ⟨⟩
  · rintro _ ⟨⟩
    exact sized

omit present in
theorem Kept.reopen (failure : Option UsearchFailure) :
    Kept path ⟨(AdaptiveVectorIndex.loadOrCreate path s.dir failure).2,
      (AdaptiveVectorIndex.loadOrCreate path s.dir failure).1.toOption⟩ := by
  obtain ⟨same, cases_⟩ := @AdaptiveVectorIndex.loadOrCreate_cases path s.dir failure
  rw [same]
  cases loaded : (AdaptiveVectorIndex.loadOrCreate path s.dir failure).1 with
  | error error =>
    exact ⟨fun _ present => (by cases present), fun _ _ present => (by cases present),
      fun _ _ present => (by cases present), kept.graph, fun _ present => (by cases present)⟩
  | ok index =>
    change Kept path { s with index := some index }
    rcases cases_ index loaded with
      ⟨graph, metas, stored, labels, rfl⟩ | ⟨graph, metas, flat, opened, branch⟩
    · refine kept.replace (fun _ => ?_) ?_ ?_ (Nat.succ_pos _)
      · unfold Reloads
        rw [AdaptiveVectorIndex.loadOrCreate_of_files stored labels]
        exact ⟨_, rfl, List.Perm.refl _⟩
      · rintro _ ⟨⟩
      · rintro _ ⟨⟩
        exact ⟨kept.graph graph stored, rfl⟩
    · obtain ⟨uniform, untouched⟩ := uniform_of_openFile opened
      rcases branch with ⟨_, rfl⟩ | ⟨large, hnsw, migrated, rfl⟩
      · refine kept.replace (fun _ => reloads_flat graph metas opened uniform) ?_ ?_
          (Nat.succ_pos _)
        · rintro _ ⟨⟩
          exact ⟨uniform, graph, metas⟩
        · rintro _ ⟨⟩
      · have nonempty : flat.entries ≠ [] := by
          intro empty
          unfold FlatVectorIndex.count at large
          rw [empty] at large
          exact absurd large (by decide)
        obtain ⟨_, dirty, sized⟩ := HnswIndex.migrateFromFlat_keeps uniform nonempty migrated
        refine kept.replace (fun clean => ?_) ?_ ?_ (Nat.succ_pos _)
        · exact absurd dirty (Bool.eq_false_iff.mp clean)
        · rintro _ ⟨⟩
        · rintro _ ⟨⟩
          exact sized

omit present in
omit kept in
/-- What a flat index crosses over to has its entries. -/
theorem crossOver_cases (index : AdaptiveVectorIndex) (uniform : Uniform flat.entries)
    (positive : 0 < index.migrationThreshold) (failure : Option UsearchFailure) :
    index.crossOver flat failure = { index with backend := .flat flat } ∨
      ∃ hnsw, index.crossOver flat failure = { index with backend := .hnsw hnsw } ∧
        hnsw.exportAll = flat.exportAll ∧ hnsw.dirty ∧ hnsw.Sized := by
  unfold AdaptiveVectorIndex.crossOver
  split
  next large =>
    have nonempty := entries_ne_nil_of_large positive large
    split
    next hnsw migrated =>
      exact .inr ⟨hnsw, rfl, HnswIndex.migrateFromFlat_keeps uniform nonempty migrated⟩
    next => exact .inl rfl
  next => exact .inl rfl

theorem Kept.crossOver (backend : index.backend = .flat flat) {later : FlatVectorIndex}
    (uniform : Uniform later.entries)
    (clean : later.dirty = false → flat.dirty = false ∧ later.entries = flat.entries)
    (failure : Option UsearchFailure) :
    Kept path { s with index := some (index.crossOver later failure) } := by
  rcases crossOver_cases index uniform (kept.threshold index present) failure with
    same | ⟨hnsw, crossed, _, dirty, sized⟩
  · rw [same]
    exact kept.replaceFlat present backend uniform clean
  · rw [crossed]
    exact kept.replaceHnsw present sized fun clean => absurd dirty (Bool.eq_false_iff.mp clean)

theorem Kept.insert {entries : List IndexEntry} {failure : Option UsearchFailure}
    (meets : s.Meets (.insert entries failure)) :
    Kept path { s with index := some (index.insert entries failure).2 } := by
  unfold AdaptiveVectorIndex.insert
  cases backend : index.backend with
  | hnsw hnsw =>
    have dirty : index.isDirty = hnsw.dirty := by
      unfold AdaptiveVectorIndex.isDirty
      rw [backend]
    have exports : index.exportAll = hnsw.exportAll := by
      unfold AdaptiveVectorIndex.exportAll
      rw [backend]
    obtain ⟨result, sized⟩ := HnswIndex.insert_cases (kept.hnsw index hnsw present backend)
      (meets index hnsw present backend)
    refine kept.replaceHnsw present sized fun clean => ?_
    rcases result with same | changed
    · exact ⟨dirty.trans (same.dirty ▸ clean), same.exportAll.trans exports.symm⟩
    · exact absurd changed (Bool.eq_false_iff.mp clean)
  | flat flat =>
    have uniform := (kept.flat index flat present backend).1
    have later := FlatVectorIndex.uniform_insert uniform entries
    dsimp only
    rcases flat.insert_cases entries with ⟨error, same⟩ | ⟨none_, same⟩ | ⟨appended, _⟩
    · rw [same]
      exact kept.replaceFlat present backend uniform fun clean => ⟨clean, rfl⟩
    · rw [same]
      exact kept.crossOver present backend uniform (fun clean => ⟨clean, rfl⟩) failure
    · rw [appended] at later ⊢
      exact kept.crossOver present backend later (fun clean => by cases clean) failure

theorem Kept.deleteByUri (uri : String) :
    Kept path { s with index := some (index.deleteByUri uri).2 } := by
  unfold AdaptiveVectorIndex.deleteByUri
  cases backend : index.backend with
  | flat flat =>
    have uniform := (kept.flat index flat present backend).1
    exact kept.replaceFlat present backend (FlatVectorIndex.uniform_deleteByUri uniform uri)
      FlatVectorIndex.deleteByUri_clean
  | hnsw hnsw =>
    refine kept.replaceHnsw present
      (HnswIndex.sized_deleteByUri (kept.hnsw index hnsw present backend) uri) fun clean => ?_
    obtain ⟨before, same⟩ := HnswIndex.deleteByUri_clean clean
    unfold AdaptiveVectorIndex.isDirty AdaptiveVectorIndex.exportAll
    rw [backend]
    exact ⟨before, same⟩

/-- A save that succeeds leaves a directory that yields the entries. -/
theorem Kept.save (fits : ∀ flat, index.backend = .flat flat → Fits flat.entries) :
    Kept path ⟨(index.save s.dir none).2.2, some (index.save s.dir none).2.1⟩ ∧
      Reloads path (index.save s.dir none).2.2 (index.save s.dir none).2.1.exportAll := by
  unfold AdaptiveVectorIndex.save
  cases backend : index.backend with
  | flat flat =>
    obtain ⟨uniform, graph, metas⟩ := kept.flat index flat present backend
    have reloads : Reloads path
        { s.dir with vectorsBin := some (FlatVectorIndex.fileBytes flat.entries) }
        flat.exportAll := by
      have opened : FlatVectorIndex.openFile path
          (some (FlatVectorIndex.fileBytes flat.entries)) = .ok ⟨flat.entries, false⟩ :=
        FlatVectorIndex.load_fileBytes uniform (fits flat backend)
      exact @reloads_flat path ⟨flat.entries, false⟩
        { s.dir with vectorsBin := some (FlatVectorIndex.fileBytes flat.entries) }
        graph metas opened uniform
    refine ⟨⟨?_, ?_, ?_, kept.graph, ?_⟩, reloads⟩
    · rintro _ ⟨⟩ _
      exact reloads
    · rintro _ _ ⟨⟩ ⟨⟩
      exact ⟨uniform, graph, metas⟩
    · rintro _ _ ⟨⟩ ⟨⟩
    · rintro _ ⟨⟩
      exact kept.threshold index present
  | hnsw hnsw =>
    have sized := kept.hnsw index hnsw present backend
    have reloads : Reloads path
        { s.dir with graph := some (some hnsw.graph), metas := some (some hnsw.metas) }
        hnsw.exportAll := by
      unfold Reloads
      rw [AdaptiveVectorIndex.loadOrCreate_of_files rfl rfl]
      refine ⟨_, rfl, List.Perm.of_eq ?_⟩
      change (HnswIndex.ofFiles hnsw.graph hnsw.metas).exportAll = _
      unfold HnswIndex.exportAll HnswIndex.ofFiles
      dsimp only
      rw [sized.2]
    refine ⟨⟨?_, ?_, ?_, ?_, ?_⟩, reloads⟩
    · rintro _ ⟨⟩ _
      exact reloads
    · rintro _ _ ⟨⟩ ⟨⟩
    · rintro _ _ ⟨⟩ ⟨⟩
      exact sized
    · rintro _ ⟨⟩
      exact sized.2.symm ▸ sized.1
    · rintro _ ⟨⟩
      exact kept.threshold index present

/-- A save that fails leaves the index dirty. -/
theorem Kept.failedSave (dirty : index.isDirty) (failure : SaveFailure) :
    Kept path ⟨(index.save s.dir (some failure)).2.2,
      some (index.save s.dir (some failure)).2.1⟩ := by
  unfold AdaptiveVectorIndex.save
  cases backend : index.backend with
  | flat flat =>
    have same : Kept path ⟨s.dir, some index⟩ := present ▸ kept
    cases failure <;> exact same
  | hnsw hnsw =>
    have sized := kept.hnsw index hnsw present backend
    have spoiled : hnsw.dirty := by
      unfold AdaptiveVectorIndex.isDirty at dirty
      rw [backend] at dirty
      exact dirty
    have rest : ∀ dir : IndexDir, (∀ graph, dir.graph = some (some graph) →
        0 < graph.dimensions) → Kept path ⟨dir, some { index with backend := .hnsw hnsw }⟩ := by
      intro dir graph
      refine ⟨?_, ?_, ?_, graph, ?_⟩
      · rintro _ ⟨⟩ clean
        exact absurd spoiled (Bool.eq_false_iff.mp clean)
      · rintro _ _ ⟨⟩ ⟨⟩
      · rintro _ _ ⟨⟩ ⟨⟩
        exact sized
      · rintro _ ⟨⟩
        exact kept.threshold index present
    cases failure with
    | nothing error => exact rest _ kept.graph
    | graphOnly error =>
      refine rest _ ?_
      rintro _ ⟨⟩
      exact sized.2.symm ▸ sized.1
    | torn error =>
      refine rest _ ?_
      rintro _ ⟨⟩
      exact sized.2.symm ▸ sized.1

end

/-- **One step** keeps the invariant, and a flush that succeeds leaves a directory that
yields the entries. -/
theorem Kept.step {action : IndexAction} (meets : s.Meets action)
    (stepped : s.step path action = some next) :
    Kept path next ∧ (action = .flush none → ∀ index, next.index = some index →
      Reloads path next.dir index.exportAll) := by
  unfold IndexState.step at stepped
  cases action with
  | reopen failure =>
    cases stepped
    exact ⟨kept.reopen failure, fun other => by cases other⟩
  | insert entries failure =>
    cases present : s.index with
    | none =>
      rw [present] at stepped
      cases stepped
    | some index =>
      rw [present] at stepped
      cases stepped
      exact ⟨kept.insert present meets, fun other => by cases other⟩
  | deleteByUri uri =>
    cases present : s.index with
    | none =>
      rw [present] at stepped
      cases stepped
    | some index =>
      rw [present] at stepped
      cases stepped
      exact ⟨kept.deleteByUri present uri, fun other => by cases other⟩
  | flush failure =>
    cases present : s.index with
    | none =>
      rw [present] at stepped
      cases stepped
    | some index =>
      rw [present] at stepped
      dsimp only at stepped
      split at stepped
      next dirty =>
        cases stepped
        cases failure with
        | none =>
          have saved := kept.save present fun flat backend =>
            meets index flat present backend (by
              unfold AdaptiveVectorIndex.isDirty at dirty
              rw [backend] at dirty
              exact dirty)
          refine ⟨saved.1, fun _ other held => ?_⟩
          cases held
          exact saved.2
        | some failure =>
          exact ⟨kept.failedSave present dirty failure, fun other => by cases other⟩
      next clean =>
        cases stepped
        exact ⟨kept, fun _ other held =>
          kept.persisted other held (by
            rw [present] at held
            cases held
            exact Bool.eq_false_iff.mpr clean)⟩

/-- **One step** crosses over with all entries. -/
theorem Kept.crosses {action : IndexAction}
    (stepped : s.step path action = some next) : s.Crosses path action next where
  memory entries failure index flat after hnsw asked present backend later crossed := by
    subst asked
    unfold IndexState.step at stepped
    rw [present] at stepped
    cases stepped
    have uniform := (kept.flat index flat present backend).1
    have positive := kept.threshold index present
    cases later
    unfold AdaptiveVectorIndex.insert at crossed
    rw [backend] at crossed
    dsimp only at crossed
    have batch := FlatVectorIndex.uniform_insert uniform entries
    rcases flat.insert_cases entries with ⟨error, same⟩ | ⟨nothing, same⟩ | ⟨appended, _⟩
    · rw [same] at crossed
      cases crossed
    · rw [same] at crossed
      dsimp only at crossed
      rw [nothing, List.map_nil, List.append_nil]
      rcases crossOver_cases index uniform positive failure with stays | ⟨other, moves, keeps, _⟩
      · rw [stays] at crossed
        cases crossed
      · rw [moves] at crossed
        cases crossed
        exact List.Perm.of_eq keeps
    · rw [appended] at crossed batch
      dsimp only at crossed batch
      rcases @crossOver_cases
          ⟨flat.entries ++ (vectorEntries entries).map FlatVectorIndex.storedEntry, true⟩ index
          batch positive failure with
        stays | ⟨other, moves, keeps, _⟩
      · rw [stays] at crossed
        cases crossed
      · rw [moves] at crossed
        cases crossed
        refine List.Perm.of_eq (keeps.trans ?_)
        unfold FlatVectorIndex.exportAll
        rw [List.map_append, List.map_map]
        rfl
  opening failure after asked later nofiles := by
    subst asked
    unfold IndexState.step at stepped
    cases stepped
    dsimp only at later
    have loaded := toOption_eq_some.mp later
    obtain ⟨graph, metas⟩ : s.dir.graph = none ∧ s.dir.metas = none := by
      unfold HnswIndex.hasPersistedFiles at nofiles
      rw [Bool.or_eq_false_iff, Option.isSome_eq_false_iff, Option.isSome_eq_false_iff] at nofiles
      exact ⟨Option.isNone_iff_eq_none.mp nofiles.1, Option.isNone_iff_eq_none.mp nofiles.2⟩
    rcases (@AdaptiveVectorIndex.loadOrCreate_cases path s.dir failure).2 after loaded with
      ⟨stored, _, present, _⟩ | ⟨_, _, flat, opened, branch⟩
    · rw [graph] at present
      cases present
    · refine ⟨flat, opened, ?_⟩
      rcases branch with ⟨_, rfl⟩ | ⟨large, hnsw, migrated, rfl⟩
      · exact List.Perm.refl _
      · have nonempty := entries_ne_nil_of_large (Nat.succ_pos _) large
        exact List.Perm.of_eq (HnswIndex.migrateFromFlat_keeps (uniform_of_openFile opened).1
          nonempty migrated).1
  older failure vectorsBin asked files := by
    unfold AdaptiveVectorIndex.loadOrCreate
    dsimp only
    rw [if_pos files,
      if_pos (show HnswIndex.hasPersistedFiles { s.dir with vectorsBin } from files)]
    unfold HnswIndex.loadOrCreate
    unfold HnswIndex.hasPersistedFiles at files
    dsimp only
    cases graph : s.dir.graph with
    | some graph => cases s.dir.metas <;> rfl
    | none =>
      cases metas : s.dir.metas with
      | some metas => rfl
      | none =>
        rw [graph, metas] at files
        cases files

end Steps

/-- **Vector indexes survive their files.** From any directory that holds at most a flat
file, over every run whose steps meet the condition: an index that is not dirty is what
opening its directory yields, so it is after every flush that succeeds, and crossing over
keeps every entry. -/
theorem persists (path : String) (vectorsBin : Option Bytes) (actions : List IndexAction)
    (met : Throughout (IndexState.step path) Meets (.new vectorsBin) actions)
    (before after : List IndexAction) (action : IndexAction) (reached next : IndexState)
    (split : actions = before ++ action :: after)
    (ran : runs (IndexState.step path) (.new vectorsBin) before = some reached)
    (stepped : reached.step path action = some next) :
    next.Persisted path ∧
      (action = .flush none → ∀ index, next.index = some index →
        Reloads path next.dir index.exportAll) ∧
      reached.Crosses path action next := by
  subst split
  obtain ⟨earlier, later⟩ := throughout_append.mp met
  have kept : Kept path reached := invariant_of_throughout (kept_new vectorsBin)
    (fun s action next kept meets stepped => (Kept.step kept meets stepped).1) earlier ran
  obtain ⟨kept', flushed⟩ := kept.step (later reached ran).1 stepped
  exact ⟨kept'.persisted, flushed, kept.crosses stepped⟩

def sampleEntry : IndexEntry where
  uri := "observation://a"
  text := "a"
  chunkIndex := 0
  vector := [⟨0⟩]
  title := none
  summary := none
  concepts := []
  sourceFiles := []
  sourceKind := none
  entityType := none
  entityName := none

/-- A run of one entry that is saved. -/
theorem persists_saved : ∃ reached next,
    runs (IndexState.step "/h") (.new none) [.reopen none, .insert [sampleEntry] none] =
        some reached ∧
      reached.step "/h" (.flush none) = some next ∧ next.Persisted "/h" := by
  refine ⟨_, _, rfl, rfl, (persists "/h" none
    [.reopen none, .insert [sampleEntry] none, .flush none] ?_
    [.reopen none, .insert [sampleEntry] none] [] (.flush none) _ _ rfl rfl rfl).1⟩
  refine ⟨trivial, fun _ stepped => ?_⟩
  cases stepped
  refine ⟨?_, fun _ stepped => ?_⟩
  · rintro _ _ ⟨⟩ ⟨⟩
  cases stepped
  refine ⟨?_, fun _ _ => trivial⟩
  rintro _ _ ⟨⟩ ⟨⟩ _
  refine ⟨by decide, ?_, ?_, ?_⟩
  all_goals
    intro entry member
    cases List.mem_singleton.mp member
    decide

/-! ## A batch that fails halfway -/

/-- A crossing, a flush, and a batch of which the second entry is refused. -/
def halfway : List IndexAction :=
  [.reopen none, .insert (List.replicate defaultHnswMigrationThreshold sampleEntry) none,
    .flush none, .insert [sampleEntry, sampleEntry] (some (.add 1 "out of memory"))]

/-- A flat index takes any number of equal entries. -/
theorem insert_replicate (n : Nat) :
    FlatVectorIndex.new.insert (List.replicate n.succ sampleEntry) =
      (.ok (), ⟨List.replicate n.succ (FlatVectorIndex.storedEntry sampleEntry), true⟩) := by
  have all : vectorEntries (List.replicate n.succ sampleEntry) =
      sampleEntry :: List.replicate n sampleEntry := by
    refine (List.filter_eq_self.mpr fun entry member => ?_).trans List.replicate_succ
    rw [List.eq_of_mem_replicate member]
    rfl
  have matched : FlatVectorIndex.mismatched sampleEntry.vector.length
      (List.replicate n sampleEntry) = none :=
    FlatVectorIndex.mismatched_eq_none.mpr fun entry member => by
      rw [List.eq_of_mem_replicate member]
  unfold FlatVectorIndex.insert
  rw [all]
  dsimp only
  rw [matched, ← List.replicate_succ, List.map_replicate]
  rfl

/-- Of two entries, the first stays in the index when the second is refused, and whether
the index is dirty stays as it was. -/
theorem insert_halfway {index : HnswIndex} (numbered : index.Numbered)
    (dimensions : index.dimensions = 1) (message : String) :
    ∃ graph byUri, (index.insert [sampleEntry, sampleEntry] (some (.add 1 message))).2 =
      { index with
        nextLabel := index.nextLabel + 2
        graph
        byUri
        metas := index.metas.put index.nextLabel
          ⟨sampleEntry.uri, sampleEntry.text, sampleEntry.chunkIndex⟩ } := by
  have both : vectorEntries [sampleEntry, sampleEntry] = [sampleEntry, sampleEntry] := rfl
  have ensured : index.ensureDimensions sampleEntry.vector.length
      (some (.add 1 message)) = (.ok (), index) := by
    unfold HnswIndex.ensureDimensions
    rw [dimensions]
    rfl
  have matched : FlatVectorIndex.mismatched sampleEntry.vector.length [sampleEntry] = none := rfl
  have fresh := (numbered index.nextLabel le_rfl).2
  unfold HnswIndex.insert
  rw [both]
  dsimp only
  rw [ensured]
  dsimp only
  rw [matched]
  dsimp only
  rw [HnswIndex.addEntries]
  dsimp only [HnswIndex.failsAt]
  rw [if_neg Nat.one_ne_zero]
  dsimp only [HnswIndex.addVector]
  rw [fresh, if_neg (by exact Bool.false_ne_true)]
  dsimp only
  rw [HnswIndex.addEntries]
  dsimp only [HnswIndex.failsAt]
  rw [if_pos rfl]
  exact ⟨_, _, rfl⟩

theorem halfway_not_persisted :
    ∃ reached, runs (IndexState.step "/h") (.new none) halfway = some reached ∧
      ¬ reached.Persisted "/h" := by
  -- what the batch makes of the empty flat index
  obtain ⟨n, size⟩ : ∃ n, defaultHnswMigrationThreshold = Nat.succ n := ⟨4095, rfl⟩
  let flat : FlatVectorIndex :=
    ⟨List.replicate n.succ (FlatVectorIndex.storedEntry sampleEntry), true⟩
  have lengths : ∀ entry ∈ flat.entries, entry.vector.length = 1 := fun entry member => by
    rw [List.eq_of_mem_replicate member]
    rfl
  have uniform : Uniform flat.entries := ⟨1, Nat.one_pos, lengths⟩
  have nonempty : flat.entries ≠ [] := by
    rw [show flat.entries = _ from List.replicate_succ]
    exact List.cons_ne_nil _ _
  have large : defaultHnswMigrationThreshold ≤ flat.count := by
    rw [size]
    exact (List.length_replicate).ge
  obtain ⟨hnsw, migrated⟩ := HnswIndex.migrateFromFlat_ok uniform
  obtain ⟨_, dirty, _⟩ := HnswIndex.migrateFromFlat_keeps uniform nonempty migrated
  obtain ⟨numbered, dimensions⟩ :=
    HnswIndex.numbered_of_migrateFromFlat Nat.one_pos lengths nonempty migrated
  obtain ⟨graph, byUri, inserted⟩ := @insert_halfway { hnsw with dirty := false } numbered
    dimensions "out of memory"
  have appended : FlatVectorIndex.new.insert
      (List.replicate defaultHnswMigrationThreshold sampleEntry) = (.ok (), flat) := by
    rw [size]
    exact insert_replicate n
  -- the four steps
  let saved : IndexDir := ⟨none, some (some hnsw.graph), some (some hnsw.metas)⟩
  have opened : (IndexState.new none).step "/h" (.reopen none) =
      some ⟨⟨none, none, none⟩, some ⟨.flat .new, defaultHnswMigrationThreshold⟩⟩ := rfl
  have filled : IndexState.step "/h"
      ⟨⟨none, none, none⟩, some ⟨.flat .new, defaultHnswMigrationThreshold⟩⟩
      (.insert (List.replicate defaultHnswMigrationThreshold sampleEntry) none) =
        some ⟨⟨none, none, none⟩, some ⟨.hnsw hnsw, defaultHnswMigrationThreshold⟩⟩ := by
    unfold IndexState.step AdaptiveVectorIndex.insert
    dsimp only
    rw [appended]
    dsimp only
    unfold AdaptiveVectorIndex.crossOver
    rw [if_pos (show AdaptiveVectorIndex.migrationThreshold _ ≤ flat.count from large), migrated]
  have flushed : IndexState.step "/h"
      ⟨⟨none, none, none⟩, some ⟨.hnsw hnsw, defaultHnswMigrationThreshold⟩⟩ (.flush none) =
        some ⟨saved, some ⟨.hnsw { hnsw with dirty := false }, defaultHnswMigrationThreshold⟩⟩ := by
    unfold IndexState.step
    dsimp only
    rw [if_pos (show AdaptiveVectorIndex.isDirty
      ⟨.hnsw hnsw, defaultHnswMigrationThreshold⟩ = true from dirty)]
    rfl
  refine ⟨_, runs_cons.mpr ⟨_, opened, runs_cons.mpr ⟨_, filled, runs_cons.mpr ⟨_, flushed,
    runs_singleton.trans rfl⟩⟩⟩, fun persisted => ?_⟩
  -- the index has one entry more than its files
  have clean : AdaptiveVectorIndex.isDirty ⟨.hnsw (HnswIndex.insert { hnsw with dirty := false }
      [sampleEntry, sampleEntry] (some (.add 1 "out of memory"))).2,
      defaultHnswMigrationThreshold⟩ = false := by
    rw [inserted]
    rfl
  obtain ⟨loaded, opens, same⟩ := persisted _ rfl clean
  rw [AdaptiveVectorIndex.loadOrCreate_of_files rfl rfl] at opens
  cases opens
  have lengths := same.length_eq
  change (HnswIndex.ofFiles hnsw.graph hnsw.metas).exportAll.length =
    (HnswIndex.insert { hnsw with dirty := false } [sampleEntry, sampleEntry]
      (some (.add 1 "out of memory"))).2.exportAll.length at lengths
  rw [inserted] at lengths
  unfold HnswIndex.exportAll HnswIndex.ofFiles at lengths
  dsimp only at lengths
  rw [List.length_map, List.length_map, Table.put_of_fresh (numbered hnsw.nextLabel le_rfl).1,
    List.length_append] at lengths
  exact absurd lengths (Nat.ne_of_lt (Nat.lt_succ_self _))

end IndexState

end OpenMemory.Index
