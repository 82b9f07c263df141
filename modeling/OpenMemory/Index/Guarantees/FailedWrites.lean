import OpenMemory.Index.Guarantees.KeyedEntries
import OpenMemory.Index.Guarantees.VectorPersistence

/-!
# What a failed write leaves behind

A write goes to the vector store first and to the full-text store after it, and a store
of nearest neighbours sets its dimensions and takes its entries one by one. So a write
that fails late has been done in part. It leaves no trace exactly when the first store
refuses the batch before anything of it is taken, or when that store has nothing to
take or to delete.

The states are those of any engine over stores that were opened, of which files may
have been torn, after any writes and saves, failed ones included.
-/

namespace OpenMemory.Index

open Foundation OpenMemory.Graph

theorem vectorEntries_vectorEntries (entries : List IndexEntry) :
    vectorEntries (vectorEntries entries) = vectorEntries entries := by
  unfold vectorEntries
  rw [List.filter_filter]
  simp only [Bool.and_self]

namespace FlatVectorIndex

/-- The vectors of a batch have one length, which is that of the vectors there are. -/
def Admits (index : FlatVectorIndex) (batch : List IndexEntry) : Prop :=
  ∃ dim, (∀ existing ∈ index.entries.head?, existing.vector.length = dim) ∧
    ∀ entry ∈ batch, entry.vector.length = dim

variable {index : FlatVectorIndex} {entries : List IndexEntry}

/-- A batch that does not fit is refused. -/
theorem insert_of_not_admits (unfit : ¬ index.Admits (vectorEntries entries)) :
    ∃ error, index.insert entries = (.error error, index) := by
  rcases index.insert_cases entries with refused | ⟨nothing, _⟩ | ⟨_, dim, _, batch, head⟩
  · exact refused
  · refine absurd ⟨(index.entries.head?.map fun held => held.vector.length).getD 0, ?_, ?_⟩ unfit
    · intro existing found
      rw [show index.entries.head? = some existing from found]
      rfl
    · rw [nothing]
      intro entry member
      cases member
  · exact absurd ⟨dim, head, batch⟩ unfit

/-- A batch that fits is appended. -/
theorem insert_of_admits (some_ : vectorEntries entries ≠ [])
    (fit : index.Admits (vectorEntries entries)) :
    index.insert entries =
      (.ok (), ⟨index.entries ++ (vectorEntries entries).map storedEntry, true⟩) := by
  obtain ⟨dim, head, batch⟩ := fit
  unfold insert
  cases taken : vectorEntries entries with
  | nil => exact absurd taken some_
  | cons first rest =>
    rw [taken] at batch
    have length := batch first List.mem_cons_self
    have agrees : (index.entries.head?.filter fun existing =>
        decide (existing.vector.length ≠ first.vector.length)) = none := by
      rw [Option.filter_eq_none_iff]
      intro existing found
      rw [decide_eq_true_iff, not_not, head existing found, length]
    have same : mismatched first.vector.length rest = none :=
      mismatched_eq_none.mpr fun entry member =>
        (batch entry (List.mem_cons_of_mem _ member)).trans length.symm
    dsimp only
    rw [agrees, same]

end FlatVectorIndex

variable {byUri : Table String (List Nat)} {uri : String} {keywordFailure : Option IndexError}

namespace HnswIndex

variable {index later : HnswIndex} {failure : Option UsearchFailure} {position : Nat}
  {entries : List IndexEntry}

/-! ## Labels -/

/-- The labels in use come before the next one, and are listed under their URIs. -/
structure Listed (index : HnswIndex) : Prop where
  counted : ∀ label, index.nextLabel ≤ label → index.metas.get? label = none
  listed : ∀ uri label, label ∈ (index.byUri.get? uri).getD [] ↔
    ∃ entry, index.metas.get? label = some entry ∧ entry.uri = uri

theorem listed_withDimensions (dim : Nat) : (withDimensions dim).Listed where
  counted _ _ := rfl
  listed uri label := by
    constructor
    · intro member
      cases member
    · rintro ⟨_, found, _⟩
      cases found

/-- A label behind all others is listed under its URI as well. -/
theorem mem_pushLabel {other : String} {label held : Nat} :
    held ∈ ((pushLabel byUri uri label).get? other).getD [] ↔
      held ∈ (byUri.get? other).getD [] ∨ (held = label ∧ uri = other) := by
  unfold pushLabel
  rw [Table.get?_put]
  by_cases same : other = uri
  · rw [if_pos same, Option.getD_some, List.mem_append, List.mem_singleton, same]
    simp
  · rw [if_neg same]
    have different : uri ≠ other := fun equal => same equal.symm
    simp [different]

theorem Listed.add (listed : index.Listed) (entry : IndexEntry) (graph : Graph) :
    Listed { index with
      nextLabel := index.nextLabel + 1
      graph
      byUri := pushLabel index.byUri entry.uri index.nextLabel
      metas := index.metas.put index.nextLabel ⟨entry.uri, entry.text, entry.chunkIndex⟩ } where
  counted label above := by
    dsimp only at above ⊢
    rw [Table.get?_put, if_neg (by omega)]
    exact listed.counted label (by omega)
  listed uri label := by
    dsimp only
    rw [mem_pushLabel, listed.listed, Table.get?_put]
    by_cases same : label = index.nextLabel
    · rw [if_pos same, same, listed.counted index.nextLabel le_rfl]
      constructor
      · rintro (⟨_, found, _⟩ | ⟨_, equal⟩)
        · cases found
        · exact ⟨_, rfl, equal⟩
      · rintro ⟨_, found, equal⟩
        cases found
        exact .inr ⟨rfl, equal⟩
    · rw [if_neg same]
      simp [same]

theorem Listed.skip (listed : index.Listed) :
    Listed { index with nextLabel := index.nextLabel + 1 } where
  counted label above := listed.counted label (Nat.le_of_succ_le above)
  listed := listed.listed

theorem Listed.addEntries (listed : index.Listed) :
    (addEntries failure position index entries).2.Listed := by
  induction entries generalizing index position with
  | nil => exact ⟨listed.counted, listed.listed⟩
  | cons entry rest ih =>
    rw [HnswIndex.addEntries]
    dsimp only
    split
    next => exact listed.skip
    next =>
      split
      next => exact listed.skip
      next graph _ => exact ih (listed.add entry graph)

theorem Listed.ensureDimensions (listed : index.Listed) (dim : Nat) :
    (index.ensureDimensions dim failure).2.Listed := by
  unfold HnswIndex.ensureDimensions
  split
  next =>
    split
    next => exact listed
    next => exact ⟨listed.counted, listed.listed⟩
  next =>
    split
    next => exact listed
    next => exact listed

theorem Listed.insert (listed : index.Listed) : (index.insert entries failure).2.Listed := by
  unfold HnswIndex.insert
  split
  next => exact listed
  next first rest _ =>
    have ensured := @Listed.ensureDimensions index failure listed first.vector.length
    dsimp only
    split
    next _ _ same =>
      rw [same] at ensured
      exact ensured
    next _ _ same =>
      rw [same] at ensured
      split
      next => exact ensured
      next =>
        split
        next => exact ensured
        next => exact ensured.addEntries

theorem Listed.deleteByUri (listed : index.Listed) (uri : String) :
    (index.deleteByUri uri).2.Listed := by
  unfold HnswIndex.deleteByUri
  split
  next => exact listed
  next labels present =>
    have under : ∀ label, label ∈ labels ↔
        ∃ entry, index.metas.get? label = some entry ∧ entry.uri = uri := by
      intro label
      rw [← listed.listed, present, Option.getD_some]
    refine ⟨fun label above => ?_, fun other label => ?_⟩
    · dsimp only at above ⊢
      rw [Table.get?_filter, listed.counted label above]
      rfl
    · dsimp only
      rw [Table.get?_erase, Table.get?_filter]
      by_cases same : other = uri
      · rw [if_pos same, same]
        constructor
        · intro member
          cases member
        · rintro ⟨entry, found, equal⟩
          rw [Option.filter_eq_some_iff] at found
          exact absurd ((under label).mpr ⟨entry, found.1, equal⟩) (of_decide_eq_true found.2)
      · rw [if_neg same, listed.listed]
        constructor
        · rintro ⟨entry, found, equal⟩
          refine ⟨entry, ?_, equal⟩
          rw [Option.filter_eq_some_iff, decide_eq_true_iff]
          refine ⟨found, fun member => same ?_⟩
          obtain ⟨held, also, uris⟩ := (under label).mp member
          rw [found, Option.some.injEq] at also
          rw [← equal, also, uris]
        · rintro ⟨entry, found, equal⟩
          rw [Option.filter_eq_some_iff] at found
          exact ⟨entry, found.1, equal⟩

theorem mem_labelsByUri {found : List (Nat × EntryMeta)} {label : Nat} :
    label ∈ ((found.foldl (fun byUri entry => pushLabel byUri entry.2.uri entry.1) byUri).get?
        uri).getD [] ↔
      label ∈ (byUri.get? uri).getD [] ∨ ∃ entry, (label, entry) ∈ found ∧ entry.uri = uri := by
  induction found generalizing byUri with
  | nil => simp
  | cons head rest ih =>
    rw [List.foldl_cons, ih, mem_pushLabel, or_assoc]
    refine or_congr_right ⟨?_, ?_⟩
    · rintro (⟨rfl, equal⟩ | ⟨entry, member, equal⟩)
      · exact ⟨head.2, List.mem_cons_self, equal⟩
      · exact ⟨entry, List.mem_cons_of_mem _ member, equal⟩
    · rintro ⟨entry, member, equal⟩
      rcases List.mem_cons.mp member with rfl | member
      · exact .inl ⟨rfl, equal⟩
      · exact .inr ⟨entry, member, equal⟩

/-- Whatever files are opened, the labels are listed. -/
theorem listed_ofFiles (graph : Graph) (metas : Table Nat EntryMeta) :
    (ofFiles graph metas).Listed where
  counted label above := by
    refine Table.get?_eq_none_iff.mpr fun member => ?_
    obtain ⟨entry, inside, rfl⟩ := List.mem_map.mp member
    have below := List.le_max_of_le' 0 (List.mem_map_of_mem
      (f := fun entry : Nat × EntryMeta => entry.1 + 1) inside) le_rfl
    exact absurd (below.trans above) (Nat.not_succ_le_self _)
  listed uri label := by
    unfold ofFiles labelsByUri
    dsimp only
    rw [mem_labelsByUri, Table.get?_empty]
    simp only [Option.getD_none, List.not_mem_nil, false_or, Table.get?_eq_some_iff]

theorem listed_migrateFromFlat {flat : FlatVectorIndex} {hnsw : HnswIndex}
    (migrated : migrateFromFlat flat failure = .ok hnsw) : hnsw.Listed := by
  unfold migrateFromFlat at migrated
  split at migrated
  next =>
    cases migrated
    exact listed_withDimensions 0
  next first rest _ =>
    split at migrated
    next => cases migrated
    next =>
      split at migrated
      next => cases migrated
      next result other inserted =>
        cases migrated
        have listed := @Listed.insert (withDimensions first.vector.length) failure
          ((first :: rest).map ExportEntry.toIndexEntry) (listed_withDimensions _)
        rw [inserted] at listed
        exact listed

theorem listed_loadOrCreate {path : String} {dir : IndexDir} {saveFailure : Option SaveFailure}
    {hnsw : HnswIndex} (opened : (loadOrCreate path dir failure saveFailure).1 = .ok hnsw) :
    hnsw.Listed := by
  unfold loadOrCreate at opened
  split at opened
  next => cases opened
  next => cases opened
  next graph metas _ _ =>
    unfold loadFrom at opened
    split at opened
    next => cases opened
    next => cases opened
    next =>
      cases opened
      exact listed_ofFiles _ _
  next =>
    split at opened
    next =>
      cases opened
      exact listed_withDimensions 0
    next =>
      split at opened
      next => cases opened
      next =>
        split at opened
        next => cases opened
        next hnsw migrated =>
          unfold saveTo at opened
          split at opened
          next failed =>
            split at failed <;> cases failed
            all_goals cases opened
          next _ saved _ finished =>
            split at finished <;> cases finished
            cases opened
            have listed := listed_migrateFromFlat migrated
            exact ⟨listed.counted, listed.listed⟩

/-! ## What an insert leaves -/

/-- A batch is taken when the graph does not fail. -/
def Accepts (index : HnswIndex) (entries : List IndexEntry) : Prop :=
  (index.insert entries none).1 = .ok ()

/-- The next label is taken, or none is from there on. A graph that was saved with its
labels has none. -/
def Continues (index : HnswIndex) : Prop :=
  (index.graph.vectors.get? index.nextLabel).isSome ∨
    ∀ label, index.nextLabel ≤ label → index.graph.vectors.get? label = none

/-- A batch is refused before anything of it is taken: by a graph that cannot be
created, or by one that has its dimensions already, for these, or because it cannot
grow, or at the first entry. -/
def RefusesEarly (index : HnswIndex) (batch : List IndexEntry)
    (failure : Option UsearchFailure) : Prop :=
  if index.dimensions = 0 then ∃ message, failure = some (.create message)
  else (∃ entry ∈ batch, entry.vector.length ≠ index.dimensions) ∨
    (∃ message, failure = some (.reserve message)) ∨
    (Refused index failure 0 ∧ index.Continues)

theorem length_metas_addEntries :
    index.metas.entries.length ≤
      (addEntries failure position index entries).2.metas.entries.length := by
  induction entries generalizing index position with
  | nil => exact le_rfl
  | cons entry rest ih =>
    rw [addEntries]
    dsimp only
    split
    next => exact le_rfl
    next =>
      split
      next => exact le_rfl
      next graph _ =>
        refine le_trans ?_ ih
        dsimp only
        cases found : index.metas.get? index.nextLabel with
        | none =>
          rw [Table.length_put_of_fresh found]
          exact Nat.le_succ _
        | some held => exact (Table.length_put_of_present found).ge

/-- Entries are taken as long as the labels are free. -/
theorem addEntries_ok_iff :
    (addEntries none position index entries).1 = .ok () ↔
      ∀ offset < entries.length, index.graph.vectors.get? (index.nextLabel + offset) = none := by
  induction entries generalizing index position with
  | nil =>
    constructor
    · intro _ offset below
      exact absurd below (Nat.not_lt_zero _)
    · exact fun _ => rfl
  | cons entry rest ih =>
    rw [addEntries, show failsAt none position = none from rfl]
    dsimp only
    unfold addVector
    cases found : index.graph.vectors.get? index.nextLabel with
    | some held =>
      rw [if_pos Option.isSome_some]
      constructor
      · intro accepted
        cases accepted
      · intro free
        have none := free 0 (Nat.succ_pos _)
        rw [Nat.add_zero, found] at none
        cases none
    | none =>
      rw [if_neg (by exact Bool.false_ne_true)]
      dsimp only
      rw [ih]
      dsimp only
      constructor
      · intro free offset below
        cases offset with
        | zero => exact found
        | succ offset =>
          have later := free offset (Nat.lt_of_succ_lt_succ below)
          rw [Table.get?_put, if_neg (by omega)] at later
          rwa [Nat.add_comm offset 1, ← Nat.add_assoc]
      · intro free offset below
        rw [Table.get?_put, if_neg (by omega), Nat.add_assoc, Nat.add_comm 1]
        exact free (offset + 1) (Nat.succ_lt_succ below)

/-- What a store with dimensions makes of vectors of these dimensions. -/
theorem insert_sized (sized : index.dimensions ≠ 0) (some_ : vectorEntries entries ≠ [])
    (fit : ∀ entry ∈ vectorEntries entries, entry.vector.length = index.dimensions) :
    index.insert entries failure = match failure with
      | some (.reserve message) => (.error (.invalidInput s!"usearch reserve: {message}"), index)
      | _ => addEntries failure 0 index (vectorEntries entries) := by
  unfold insert
  cases taken : vectorEntries entries with
  | nil => exact absurd taken some_
  | cons first rest =>
    rw [taken] at fit
    have length := fit first List.mem_cons_self
    have same : FlatVectorIndex.mismatched index.dimensions rest = none :=
      FlatVectorIndex.mismatched_eq_none.mpr (List.forall_mem_cons.mp fit).2
    dsimp only
    unfold ensureDimensions
    rw [length, if_neg sized, if_pos rfl]
    dsimp only
    generalize FlatVectorIndex.mismatched index.dimensions rest = found at same ⊢
    subst same
    rfl

/-- A store with dimensions refuses vectors of other dimensions. -/
theorem insert_unfit (sized : index.dimensions ≠ 0)
    (unfit : ∃ entry ∈ vectorEntries entries, entry.vector.length ≠ index.dimensions) :
    ∃ error, index.insert entries failure = (.error error, index) := by
  obtain ⟨wrong, member, length⟩ := unfit
  unfold insert
  cases taken : vectorEntries entries with
  | nil =>
    rw [taken] at member
    cases member
  | cons first rest =>
    rw [taken] at member
    dsimp only
    unfold ensureDimensions
    rw [if_neg sized]
    by_cases same : index.dimensions = first.vector.length
    · rw [if_pos same]
      dsimp only
      cases found : FlatVectorIndex.mismatched first.vector.length rest with
      | none =>
        have all := FlatVectorIndex.mismatched_eq_none.mp found
        rcases List.mem_cons.mp member with rfl | member
        · exact absurd same.symm length
        · exact absurd ((all wrong member).trans same.symm) length
      | some entry => exact ⟨_, rfl⟩
    · rw [if_neg same]
      exact ⟨_, rfl⟩

/-- The dimensions of a store that has none are set by any batch, unless no graph is
created for them. -/
theorem insert_unsized (unsized : index.dimensions = 0) (some_ : vectorEntries entries ≠ []) :
    (∃ message, failure = some (.create message) ∧
        index.insert entries failure = (.error (.invalidInput message), index)) ∨
      (¬ (∃ message, failure = some (.create message)) ∧
        (index.insert entries failure).2.dimensions ≠ 0) := by
  have filled : ∀ entry ∈ vectorEntries entries, entry.vector.length ≠ 0 := by
    intro entry member empty
    have kept := (List.mem_filter.mp member).2
    rw [List.length_eq_zero_iff.mp empty] at kept
    cases kept
  unfold insert
  cases taken : vectorEntries entries with
  | nil => exact absurd taken some_
  | cons first rest =>
    rw [taken] at filled
    have positive := filled first List.mem_cons_self
    dsimp only
    unfold ensureDimensions
    rw [if_pos unsized]
    by_cases created : ∃ message, failure = some (.create message)
    · obtain ⟨message, rfl⟩ := created
      exact .inl ⟨message, rfl, rfl⟩
    · have graph : createGraph first.vector.length failure =
          .ok (emptyGraph first.vector.length) := by
        unfold createGraph
        split
        next message => exact absurd ⟨message, rfl⟩ created
        next => rfl
      rw [graph]
      dsimp only
      refine .inr ⟨created, ?_⟩
      split
      next => exact positive
      next =>
        split
        next => exact positive
        next =>
          rw [dimensions_addEntries.1]
          exact positive

/-- A store with dimensions takes vectors of these dimensions, for which labels are
free. -/
theorem accepts_iff (sized : index.dimensions ≠ 0) :
    index.Accepts entries ↔ vectorEntries entries = [] ∨
      ((∀ entry ∈ vectorEntries entries, entry.vector.length = index.dimensions) ∧
        ∀ offset < (vectorEntries entries).length,
          index.graph.vectors.get? (index.nextLabel + offset) = none) := by
  unfold Accepts
  by_cases nothing : vectorEntries entries = []
  · have accepted : index.insert entries none = (.ok (), index) := by
      unfold insert
      rw [nothing]
    rw [accepted]
    exact ⟨fun _ => .inl nothing, fun _ => rfl⟩
  · by_cases fit : ∀ entry ∈ vectorEntries entries, entry.vector.length = index.dimensions
    · rw [insert_sized sized nothing fit, addEntries_ok_iff]
      exact ⟨fun free => .inr ⟨fit, free⟩, fun either => (either.resolve_left nothing).2⟩
    · have unfit : ∃ entry ∈ vectorEntries entries, entry.vector.length ≠ index.dimensions := by
        push Not at fit
        exact fit
      obtain ⟨error, refused⟩ := @insert_unfit index none entries sized unfit
      rw [refused]
      constructor
      · intro accepted
        cases accepted
      · exact fun either => absurd (either.resolve_left nothing).1 fit

/-- The index after a batch was refused at its first entry. -/
theorem addEntries_refused {first : IndexEntry} {rest : List IndexEntry}
    (refused : Refused index failure 0) :
    ∃ error, addEntries failure 0 index (first :: rest) =
      (.error error, { index with nextLabel := index.nextLabel + 1 }) := by
  rw [addEntries]
  dsimp only
  split
  next => exact ⟨_, rfl⟩
  next accepted =>
    rcases refused with fails | there
    · rw [accepted] at fails
      cases fails
    · rw [Nat.add_zero] at there
      unfold addVector
      rw [if_pos there]
      exact ⟨_, rfl⟩

/-- **A batch that is refused early** leaves no trace. -/
theorem insert_of_refusesEarly (some_ : vectorEntries entries ≠ [])
    (early : index.RefusesEarly (vectorEntries entries) failure) :
    (∃ error, (index.insert entries failure).1 = .error error) ∧
      SameEntries index (index.insert entries failure).2 ∧
      ∀ batch, index.Accepts batch → (index.insert entries failure).2.Accepts batch := by
  unfold RefusesEarly at early
  by_cases unsized : index.dimensions = 0
  · rw [if_pos unsized] at early
    rcases insert_unsized unsized some_ with ⟨message, _, refused⟩ | ⟨created, _⟩
    · rw [refused]
      exact ⟨⟨_, rfl⟩, .refl, fun _ accepted => accepted⟩
    · exact absurd early created
  · rw [if_neg unsized] at early
    by_cases fit : ∀ entry ∈ vectorEntries entries, entry.vector.length = index.dimensions
    · rw [insert_sized unsized some_ fit]
      split
      next => exact ⟨⟨_, rfl⟩, .refl, fun _ accepted => accepted⟩
      next reserved =>
        rcases early with ⟨entry, member, length⟩ | ⟨message, rfl⟩ | ⟨refused, continues⟩
        · exact absurd (fit entry member) length
        · exact absurd rfl (reserved message)
        · obtain ⟨first, rest, taken⟩ := List.exists_cons_of_ne_nil some_
          rw [taken]
          obtain ⟨error, same⟩ : ∃ error, addEntries failure 0 index (first :: rest) =
              (.error error, { index with nextLabel := index.nextLabel + 1 }) :=
            addEntries_refused refused
          rw [same]
          refine ⟨⟨_, rfl⟩, ⟨rfl, rfl, rfl, rfl⟩, fun batch accepted => ?_⟩
          rw [accepts_iff unsized] at accepted
          have next : ({ index with nextLabel := index.nextLabel + 1 } :
              HnswIndex).dimensions ≠ 0 := unsized
          refine (accepts_iff next).mpr (accepted.imp_right fun ⟨lengths, free⟩ =>
              ⟨lengths, fun offset below => ?_⟩)
          rcases continues with there | behind
          · rw [← Nat.add_zero index.nextLabel, free 0 (by omega)] at there
            cases there
          · exact behind _ (by dsimp only; omega)
    · have unfit : ∃ entry ∈ vectorEntries entries, entry.vector.length ≠ index.dimensions := by
        push Not at fit
        exact fit
      obtain ⟨error, refused⟩ := @insert_unfit index failure entries unsized unfit
      rw [refused]
      exact ⟨⟨_, rfl⟩, .refl, fun _ accepted => accepted⟩

/-- An entry with a vector of some length. -/
def plainEntry (dim : Nat) : IndexEntry :=
  ExportEntry.toIndexEntry ⟨"", "", 0, List.replicate dim ⟨0⟩⟩

theorem vectorEntries_plain {dim : Nat} (positive : dim ≠ 0) (count : Nat) :
    vectorEntries (List.replicate count (plainEntry dim)) =
      List.replicate count (plainEntry dim) := by
  refine List.filter_eq_self.mpr fun entry member => ?_
  rw [List.eq_of_mem_replicate member]
  obtain ⟨n, rfl⟩ := Nat.exists_eq_succ_of_ne_zero positive
  rfl

/-- Labels that are taken further on stop a batch that would have ended before them. -/
theorem skip_stops (sized : index.dimensions ≠ 0) (stops : ¬ index.Continues) :
    ∃ batch, index.Accepts batch ∧
      ¬ Accepts { index with nextLabel := index.nextLabel + 1 } batch := by
  unfold Continues at stops
  push Not at stops
  obtain ⟨free, label, behind, taken⟩ := stops
  have some_ : ∃ offset, index.graph.vectors.get? (index.nextLabel + offset) ≠ none :=
    ⟨label - index.nextLabel, by rwa [Nat.add_sub_cancel' behind]⟩
  classical
  have least := Nat.find_spec some_
  have before : ∀ offset < Nat.find some_,
      index.graph.vectors.get? (index.nextLabel + offset) = none :=
    fun offset below => not_not.mp (Nat.find_min some_ below)
  have positive : Nat.find some_ ≠ 0 := by
    intro zero
    rw [zero, Nat.add_zero] at least
    exact least (Option.not_isSome_iff_eq_none.mp (by simpa using free))
  refine ⟨List.replicate (Nat.find some_) (plainEntry index.dimensions), ?_, ?_⟩
  · refine (accepts_iff sized).mpr (.inr ?_)
    rw [vectorEntries_plain sized, List.length_replicate]
    refine ⟨fun entry member => ?_, before⟩
    rw [List.eq_of_mem_replicate member]
    exact List.length_replicate
  · have next : ({ index with nextLabel := index.nextLabel + 1 } : HnswIndex).dimensions ≠ 0 :=
      sized
    rw [accepts_iff next, vectorEntries_plain sized, List.length_replicate]
    rintro (nothing | ⟨_, free⟩)
    · exact positive ((List.replicate_eq_nil_iff _).mp nothing)
    · refine least ?_
      have last := free (Nat.find some_ - 1) (by omega)
      rwa [show index.nextLabel + 1 + (Nat.find some_ - 1) =
        index.nextLabel + Nat.find some_ by omega] at last

/-- **A batch that is not refused early** leaves dimensions, or entries, or takes a label
in front of ones that are taken. -/
theorem insert_of_not_refusesEarly (listed : index.Listed) (some_ : vectorEntries entries ≠ [])
    (late : ¬ index.RefusesEarly (vectorEntries entries) failure) :
    (index.insert entries failure).2.dimensions ≠ index.dimensions ∨
      index.exportAll.length < (index.insert entries failure).2.exportAll.length ∨
      ∃ batch, index.Accepts batch ∧ ¬ (index.insert entries failure).2.Accepts batch := by
  unfold RefusesEarly at late
  by_cases unsized : index.dimensions = 0
  · rw [if_pos unsized] at late
    rcases insert_unsized unsized some_ with ⟨message, created, _⟩ | ⟨_, set_⟩
    · exact absurd ⟨message, created⟩ late
    · rw [unsized]
      exact .inl set_
  · rw [if_neg unsized] at late
    push Not at late
    obtain ⟨fit, grows, begins⟩ := late
    right
    rw [insert_sized unsized some_ fit]
    split
    next message => exact absurd rfl (grows message)
    next =>
      obtain ⟨first, rest, taken⟩ := List.exists_cons_of_ne_nil some_
      rw [taken]
      by_cases refused : Refused index failure 0
      · obtain ⟨error, same⟩ : ∃ error, addEntries failure 0 index (first :: rest) =
            (.error error, { index with nextLabel := index.nextLabel + 1 }) :=
          addEntries_refused refused
        rw [same]
        exact .inr (skip_stops unsized (begins refused))
      · left
        unfold Refused at refused
        rw [Nat.add_zero, not_or, Option.not_isSome_iff_eq_none,
          Option.not_isSome_iff_eq_none] at refused
        rw [addEntries, refused.1]
        dsimp only
        unfold addVector
        rw [refused.2, if_neg (by exact Bool.false_ne_true)]
        unfold exportAll
        rw [List.length_map, List.length_map]
        refine lt_of_lt_of_le ?_ length_metas_addEntries
        dsimp only
        rw [Table.length_put_of_fresh (listed.counted _ le_rfl)]
        exact Nat.lt_succ_self _

/-- A store without dimensions takes vectors of one length. -/
theorem accepts_iff_uniform (unsized : index.dimensions = 0) :
    index.Accepts entries ↔ ∃ dim, ∀ entry ∈ vectorEntries entries, entry.vector.length = dim := by
  unfold Accepts insert
  cases taken : vectorEntries entries with
  | nil => exact ⟨fun _ => ⟨0, fun entry member => by cases member⟩, fun _ => rfl⟩
  | cons first rest =>
    dsimp only
    unfold ensureDimensions
    rw [if_pos unsized, show createGraph first.vector.length none =
      .ok (emptyGraph first.vector.length) from rfl]
    dsimp only
    cases found : FlatVectorIndex.mismatched first.vector.length rest with
    | none =>
      have all := FlatVectorIndex.mismatched_eq_none.mp found
      refine ⟨fun _ => ⟨first.vector.length, fun entry member => ?_⟩, fun _ => ?_⟩
      · rcases List.mem_cons.mp member with rfl | member
        · rfl
        · exact all entry member
      · exact addEntries_ok_iff.mpr fun _ _ => rfl
    | some wrong =>
      constructor
      · intro accepted
        cases accepted
      · rintro ⟨dim, lengths⟩
        have all : FlatVectorIndex.mismatched first.vector.length rest = none :=
          FlatVectorIndex.mismatched_eq_none.mpr fun entry member =>
            (lengths entry (List.mem_cons_of_mem _ member)).trans
              (lengths first List.mem_cons_self).symm
        rw [all] at found
        cases found

/-- What is taken does not depend on the labels of the URIs. -/
theorem accepts_byUri : Accepts { index with byUri } entries ↔ index.Accepts entries := by
  by_cases unsized : index.dimensions = 0
  · have same : ({ index with byUri } : HnswIndex).dimensions = 0 := unsized
    rw [accepts_iff_uniform unsized, accepts_iff_uniform same]
  · have same : ({ index with byUri } : HnswIndex).dimensions ≠ 0 := unsized
    rw [accepts_iff unsized, accepts_iff same]

/-! ## What a deletion leaves -/

theorem not_mem_of_deleteByUri (listed : index.Listed) (uri : String) :
    ∀ entry ∈ (index.deleteByUri uri).2.exportAll, entry.uri ≠ uri := by
  intro entry member same
  obtain ⟨⟨label, held⟩, inside, rfl⟩ := List.mem_map.mp member
  have found := Table.get?_eq_some_iff.mpr inside
  unfold deleteByUri at found
  split at found
  next absent =>
    have member := (listed.listed uri label).mpr ⟨held, found, same⟩
    rw [absent] at member
    cases member
  next labels present =>
    dsimp only at found
    rw [Table.get?_filter, Option.filter_eq_some_iff, decide_eq_true_iff] at found
    have member := (listed.listed uri label).mpr ⟨held, found.1, same⟩
    rw [present] at member
    exact found.2 member

/-- Where nothing has a URI, its deletion changes nothing. -/
theorem deleteByUri_of_absent (listed : index.Listed)
    (absent : ∀ entry ∈ index.exportAll, entry.uri ≠ uri) :
    ∃ byUri, (index.deleteByUri uri).2 = { index with byUri } := by
  unfold deleteByUri
  split
  next => exact ⟨_, rfl⟩
  next labels present =>
    have empty : labels = [] := by
      refine List.eq_nil_iff_forall_not_mem.mpr fun label member => ?_
      obtain ⟨held, found, same⟩ := (listed.listed uri label).mp (by rwa [present])
      exact absent _ (List.mem_map_of_mem (Table.get?_eq_some_iff.mp found)) same
    subst empty
    refine ⟨index.byUri.erase uri, ?_⟩
    dsimp only
    rw [Table.filter_notMem_nil, Table.filter_notMem_nil]
    simp

end HnswIndex

/-! ## The vector stores -/

namespace AdaptiveVectorIndex

/-- What holds of every index that was opened. -/
def Sound (index : AdaptiveVectorIndex) : Prop :=
  match index.backend with
  | .flat flat => Uniform flat.entries
  | .hnsw hnsw => hnsw.Listed

end AdaptiveVectorIndex

namespace VectorStore

def isDirty : VectorStore → Bool
  | .flat index => index.dirty
  | .hnsw index => index.dirty
  | .adaptive index => index.isDirty

/-- The dimensions that a store has taken on, or zero. -/
def dimensions : VectorStore → Nat
  | .flat index => FlatVectorIndex.dimension index.entries
  | .hnsw index => index.dimensions
  | .adaptive ⟨.flat index, _⟩ => FlatVectorIndex.dimension index.entries
  | .adaptive ⟨.hnsw index, _⟩ => index.dimensions

/-- A store that is new or was opened, of which files may have been torn. -/
inductive Opened : VectorStore → Prop where
  | flat {path : String} {data : Option Bytes} {index : FlatVectorIndex} :
      FlatVectorIndex.openFile path data = .ok index → Opened (.flat index)
  | newHnsw : Opened (.hnsw .new)
  | hnsw {path : String} {dir : IndexDir} {failure : Option UsearchFailure}
      {saveFailure : Option SaveFailure} {index : HnswIndex} :
      (HnswIndex.loadOrCreate path dir failure saveFailure).1 = .ok index → Opened (.hnsw index)
  | migrated {flat : FlatVectorIndex} {failure : Option UsearchFailure} {index : HnswIndex} :
      HnswIndex.migrateFromFlat flat failure = .ok index → Opened (.hnsw index)
  | newAdaptive (migrationThreshold : Nat) : Opened (.adaptive (.withThreshold migrationThreshold))
  | adaptive {path : String} {dir : IndexDir} {failure : Option UsearchFailure}
      {index : AdaptiveVectorIndex} :
      (AdaptiveVectorIndex.loadOrCreate path dir failure).1 = .ok index → Opened (.adaptive index)

/-- `save`. -/
def save (store : VectorStore) (dir : IndexDir) (failure : Option SaveFailure) :
    IndexResult Unit × VectorStore × IndexDir :=
  match store with
  | .flat index => match failure with
    | some (.nothing error) | some (.graphOnly error) | some (.torn error) =>
      (.error error, store, dir)
    | none =>
      (.ok (), .flat { index with dirty := false },
        { dir with vectorsBin := some (FlatVectorIndex.fileBytes index.entries) })
  | .hnsw index =>
    let (result, index, dir) := index.saveTo dir failure
    (result, .hnsw index, dir)
  | .adaptive index =>
    let (result, index, dir) := index.save dir failure
    (result, .adaptive index, dir)

/-- What holds of every store that was opened. -/
def Sound : VectorStore → Prop
  | .flat _ => True
  | .hnsw index => index.Listed
  | .adaptive index => index.Sound

theorem Opened.sound {store : VectorStore} (opened : store.Opened) : store.Sound := by
  cases opened with
  | flat => trivial
  | newHnsw => exact HnswIndex.listed_withDimensions 0
  | hnsw opened => exact HnswIndex.listed_loadOrCreate opened
  | migrated migrated => exact HnswIndex.listed_migrateFromFlat migrated
  | newAdaptive threshold => exact ⟨1, Nat.one_pos, fun entry member => by cases member⟩
  | adaptive opened =>
    rcases AdaptiveVectorIndex.loadOrCreate_cases.2 _ opened with
      ⟨graph, metas, _, _, rfl⟩ | ⟨_, _, flat, file, ⟨_, rfl⟩ | ⟨_, hnsw, migrated, rfl⟩⟩
    · exact HnswIndex.listed_ofFiles graph metas
    · exact (IndexState.uniform_of_openFile file).1
    · exact HnswIndex.listed_migrateFromFlat migrated

variable {store : VectorStore}

theorem Sound.insert (sound : store.Sound) (entries : List IndexEntry)
    (failure : Option UsearchFailure) : (store.insert entries failure).2.Sound := by
  cases store with
  | flat index => trivial
  | hnsw index => exact HnswIndex.Listed.insert sound
  | adaptive index =>
    obtain ⟨backend, threshold⟩ := index
    cases backend with
    | hnsw hnsw => 
      have listed : hnsw.Listed := sound
      exact listed.insert
    | flat flat =>
      have before : Uniform flat.entries := sound
      have uniform := FlatVectorIndex.uniform_insert before entries
      unfold VectorStore.insert AdaptiveVectorIndex.insert
      dsimp only
      split
      next same =>
        rw [same] at uniform
        exact uniform
      next later same =>
        rw [same] at uniform
        unfold AdaptiveVectorIndex.crossOver
        split
        next =>
          split
          next hnsw migrated => exact HnswIndex.listed_migrateFromFlat migrated
          next => exact uniform
        next => exact uniform

theorem Sound.deleteByUri (sound : store.Sound) (uri : String) :
    (store.deleteByUri uri).2.Sound := by
  cases store with
  | flat index => trivial
  | hnsw index => exact HnswIndex.Listed.deleteByUri sound uri
  | adaptive index =>
    obtain ⟨backend, threshold⟩ := index
    cases backend with
    | hnsw hnsw =>
      have listed : hnsw.Listed := sound
      exact listed.deleteByUri uri
    | flat flat =>
      have uniform : Uniform flat.entries := sound
      exact FlatVectorIndex.uniform_deleteByUri uniform uri

theorem Sound.save (sound : store.Sound) (dir : IndexDir) (failure : Option SaveFailure) :
    (store.save dir failure).2.1.Sound := by
  have saved : ∀ {hnsw : HnswIndex}, hnsw.Listed → (hnsw.saveTo dir failure).2.1.Listed := by
    intro hnsw listed
    unfold HnswIndex.saveTo
    split <;> exact ⟨listed.counted, listed.listed⟩
  cases store with
  | flat index =>
    cases failure with
    | none => trivial
    | some failure => cases failure <;> trivial
  | hnsw index => exact saved sound
  | adaptive index =>
    obtain ⟨backend, threshold⟩ := index
    cases backend with
    | hnsw hnsw => exact saved sound
    | flat flat =>
      unfold VectorStore.save AdaptiveVectorIndex.save
      dsimp only
      split <;> exact sound

/-! ### What a write leaves -/

/-- A batch is taken when no part of the store fails. -/
def Accepts (store : VectorStore) (batch : List IndexEntry) : Prop :=
  (store.insert batch none).1 = .ok ()

/-- Entries, dimensions and the dirty flag are as before, and so is what is taken. -/
structure Untouched (store later : VectorStore) : Prop where
  entries : later.exportAll = store.exportAll
  dimensions : later.dimensions = store.dimensions
  dirty : later.isDirty = store.isDirty
  accepts : ∀ batch, store.Accepts batch → later.Accepts batch

theorem Untouched.refl : Untouched store store := ⟨rfl, rfl, rfl, fun _ accepted => accepted⟩

/-- A store looks at the entries with vectors only. -/
theorem insert_vectorEntries_fst (batch : List IndexEntry) :
    (store.insert (vectorEntries batch) none).1 = (store.insert batch none).1 := by
  have flat (index : FlatVectorIndex) :
      index.insert (vectorEntries batch) = index.insert batch := by
    unfold FlatVectorIndex.insert
    rw [vectorEntries_vectorEntries]
  have hnsw (index : HnswIndex) :
      index.insert (vectorEntries batch) none = index.insert batch none := by
    unfold HnswIndex.insert
    rw [vectorEntries_vectorEntries]
  cases store with
  | flat index =>
    unfold VectorStore.insert
    dsimp only
    rw [flat]
  | hnsw index =>
    unfold VectorStore.insert
    dsimp only
    rw [hnsw]
  | adaptive index =>
    obtain ⟨backend, threshold⟩ := index
    unfold VectorStore.insert AdaptiveVectorIndex.insert
    cases backend with
    | flat index =>
      dsimp only
      rw [flat]
    | hnsw index =>
      dsimp only
      rw [hnsw]

theorem accepts_vectorEntries {batch : List IndexEntry} :
    store.Accepts (vectorEntries batch) ↔ store.Accepts batch := by
  unfold Accepts
  rw [insert_vectorEntries_fst]

theorem accepts_nil : store.Accepts [] := by
  cases store with
  | flat index => rfl
  | hnsw index => rfl
  | adaptive index =>
    obtain ⟨backend, threshold⟩ := index
    cases backend with
    | flat index => rfl
    | hnsw index => rfl

/-- A batch is refused before anything of it is taken. -/
def RefusesEarly (store : VectorStore) (batch : List IndexEntry)
    (failure : Option UsearchFailure) : Prop :=
  match store with
  | .flat index => ¬ index.Admits batch
  | .hnsw index => index.RefusesEarly batch failure
  | .adaptive ⟨.flat index, _⟩ => ¬ index.Admits batch
  | .adaptive ⟨.hnsw index, _⟩ => index.RefusesEarly batch failure

variable {entries : List IndexEntry} {failure : Option UsearchFailure}

theorem insert_of_refusesEarly (some_ : vectorEntries entries ≠ [])
    (early : store.RefusesEarly (vectorEntries entries) failure) :
    (∃ error, (store.insert entries failure).1 = .error error) ∧
      Untouched store (store.insert entries failure).2 := by
  cases store with
  | flat index =>
    obtain ⟨error, refused⟩ := FlatVectorIndex.insert_of_not_admits early
    unfold VectorStore.insert
    dsimp only
    rw [refused]
    exact ⟨⟨error, rfl⟩, .refl⟩
  | hnsw index =>
    obtain ⟨failed, same, accepts⟩ := HnswIndex.insert_of_refusesEarly some_ early
    exact ⟨failed, same.exportAll, same.dimensions, same.dirty, accepts⟩
  | adaptive index =>
    obtain ⟨backend, threshold⟩ := index
    cases backend with
    | flat flat =>
      obtain ⟨error, refused⟩ := FlatVectorIndex.insert_of_not_admits early
      unfold VectorStore.insert AdaptiveVectorIndex.insert
      dsimp only
      rw [refused]
      exact ⟨⟨error, rfl⟩, .refl⟩
    | hnsw hnsw =>
      obtain ⟨failed, same, accepts⟩ := HnswIndex.insert_of_refusesEarly some_ early
      exact ⟨failed, same.exportAll, same.dimensions, same.dirty, accepts⟩

theorem insert_of_not_refusesEarly (sound : store.Sound) (some_ : vectorEntries entries ≠ [])
    (late : ¬ store.RefusesEarly (vectorEntries entries) failure) :
    ¬ Untouched store (store.insert entries failure).2 := by
  intro untouched
  -- a store that has more entries is not as before
  have more {before after : List ExportEntry} (grown : before.length < after.length) :
      after ≠ before := fun same => absurd (same ▸ grown) (Nat.lt_irrefl _)
  have appended (held : List StoredEntry) : held.length <
      (held ++ (vectorEntries entries).map FlatVectorIndex.storedEntry).length := by
    rw [List.length_append, List.length_map]
    exact Nat.lt_add_of_pos_right (List.length_pos_of_ne_nil some_)
  cases store with
  | flat index =>
    have taken := untouched.entries
    unfold VectorStore.insert at taken
    dsimp only at taken
    rw [FlatVectorIndex.insert_of_admits some_ (not_not.mp late)] at taken
    refine more ?_ taken
    unfold VectorStore.exportAll FlatVectorIndex.exportAll
    rw [List.length_map, List.length_map]
    exact appended index.entries
  | hnsw index =>
    rcases HnswIndex.insert_of_not_refusesEarly sound some_ late with
      sized | grown | ⟨batch, accepted, refused⟩
    · exact sized untouched.dimensions
    · exact more grown untouched.entries
    · exact refused (untouched.accepts batch accepted)
  | adaptive index =>
    obtain ⟨backend, threshold⟩ := index
    cases backend with
    | flat flat =>
      have taken := untouched.entries
      unfold VectorStore.insert AdaptiveVectorIndex.insert at taken
      dsimp only at taken
      have before : Uniform flat.entries := sound
      have uniform := FlatVectorIndex.uniform_insert before entries
      rw [FlatVectorIndex.insert_of_admits some_ (not_not.mp late)] at taken uniform
      refine more ?_ taken
      have nonempty : flat.entries ++
          (vectorEntries entries).map FlatVectorIndex.storedEntry ≠ [] := by
        intro empty
        have grown := appended flat.entries
        rw [empty] at grown
        exact absurd grown (Nat.not_lt_zero _)
      have length : (FlatVectorIndex.exportAll flat).length <
          (FlatVectorIndex.exportAll ⟨flat.entries ++
            (vectorEntries entries).map FlatVectorIndex.storedEntry, true⟩).length := by
        unfold FlatVectorIndex.exportAll
        rw [List.length_map, List.length_map]
        exact appended flat.entries
      dsimp only
      unfold AdaptiveVectorIndex.crossOver
      split
      next =>
        split
        next hnsw migrated =>
          have kept := (HnswIndex.migrateFromFlat_keeps uniform nonempty migrated).1
          change _ < hnsw.exportAll.length
          rw [kept]
          exact length
        next => exact length
      next => exact length
    | hnsw hnsw =>
      have listed : hnsw.Listed := sound
      rcases HnswIndex.insert_of_not_refusesEarly listed some_ late with
        sized | grown | ⟨batch, accepted, refused⟩
      · exact sized untouched.dimensions
      · exact more grown untouched.entries
      · exact refused (untouched.accepts batch accepted)

theorem flat_deleteByUri {index : FlatVectorIndex} :
    (∀ entry ∈ (index.deleteByUri uri).2.exportAll, entry.uri ≠ uri) ∧
      ((∀ entry ∈ index.exportAll, entry.uri ≠ uri) → (index.deleteByUri uri).2 = index) := by
  constructor
  · intro entry member
    obtain ⟨held, inside, rfl⟩ := List.mem_map.mp member
    exact of_decide_eq_true (List.mem_filter.mp inside).2
  · intro absent
    have kept : (index.entries.filter fun entry => decide (entry.uri ≠ uri)) = index.entries :=
      List.filter_eq_self.mpr fun entry member =>
        decide_eq_true (absent _ (List.mem_map_of_mem member))
    unfold FlatVectorIndex.deleteByUri
    rw [kept]
    simp

/-- **A deletion** leaves a store as it was exactly where nothing has the URI. -/
theorem deleteByUri_untouched_iff (sound : store.Sound) (uri : String) :
    Untouched store (store.deleteByUri uri).2 ↔ ∀ entry ∈ store.exportAll, entry.uri ≠ uri := by
  suffices both : (∀ entry ∈ (store.deleteByUri uri).2.exportAll, entry.uri ≠ uri) ∧
      ((∀ entry ∈ store.exportAll, entry.uri ≠ uri) → Untouched store (store.deleteByUri uri).2) by
    refine ⟨fun untouched => ?_, both.2⟩
    rw [← untouched.entries]
    exact both.1
  cases store with
  | flat index =>
    refine ⟨flat_deleteByUri.1, fun absent => ?_⟩
    unfold VectorStore.deleteByUri
    dsimp only
    rw [flat_deleteByUri.2 absent]
    exact .refl
  | hnsw index =>
    refine ⟨HnswIndex.not_mem_of_deleteByUri sound uri, fun absent => ?_⟩
    obtain ⟨byUri, same⟩ := HnswIndex.deleteByUri_of_absent sound absent
    unfold VectorStore.deleteByUri
    dsimp only
    rw [same]
    exact ⟨rfl, rfl, rfl, fun _ accepted => HnswIndex.accepts_byUri.mpr accepted⟩
  | adaptive index =>
    obtain ⟨backend, threshold⟩ := index
    cases backend with
    | flat flat =>
      refine ⟨flat_deleteByUri.1, fun absent => ?_⟩
      unfold VectorStore.deleteByUri AdaptiveVectorIndex.deleteByUri
      dsimp only
      rw [flat_deleteByUri.2 absent]
      exact .refl
    | hnsw hnsw =>
      refine ⟨HnswIndex.not_mem_of_deleteByUri sound uri, fun absent => ?_⟩
      obtain ⟨byUri, same⟩ := HnswIndex.deleteByUri_of_absent sound absent
      unfold VectorStore.deleteByUri AdaptiveVectorIndex.deleteByUri
      dsimp only
      rw [same]
      exact ⟨rfl, rfl, rfl, fun _ accepted => HnswIndex.accepts_byUri.mpr accepted⟩

end VectorStore

/-! ## The engine -/

namespace HybridSearchEngine

variable [CharClasses] [CaseMapping] [LibraryOrders]

/-- An engine over opened stores, after any writes and saves. -/
inductive Reached : HybridSearchEngine → Prop where
  | opened {engine : HybridSearchEngine} : engine.vectorStore.Opened → Reached engine
  | written {engine : HybridSearchEngine} (publication : Publication) :
      Reached engine → Reached (publication.publish engine).2
  | saved {engine : HybridSearchEngine} (dir : IndexDir) (failure : Option SaveFailure) :
      Reached engine →
        Reached { engine with vectorStore := (engine.vectorStore.save dir failure).2.1 }

/-- A batch is taken when neither store fails. -/
def Accepts (engine : HybridSearchEngine) (batch : List IndexEntry) : Prop :=
  (engine.insert batch none none).1 = .ok ()

/-- Both arms hold what they held, and what was taken before is still taken. -/
structure Untouched (engine later : HybridSearchEngine) : Prop where
  entries : later.vectorStore.exportAll = engine.vectorStore.exportAll
  dimensions : later.vectorStore.dimensions = engine.vectorStore.dimensions
  dirty : later.vectorStore.isDirty = engine.vectorStore.isDirty
  keywords : later.fulltextStore = engine.fulltextStore
  accepts : ∀ batch, engine.Accepts batch → later.Accepts batch

variable {engine : HybridSearchEngine}

omit [LibraryOrders] in
theorem sound_insert (sound : engine.vectorStore.Sound) (entries : List IndexEntry)
    (vectorFailure : Option UsearchFailure) (keywordFailure : Option IndexError) :
    (engine.insert entries vectorFailure keywordFailure).2.vectorStore.Sound := by
  unfold HybridSearchEngine.insert
  split
  next => exact sound
  next first rest _ =>
    have later := sound.insert (first :: rest) vectorFailure
    split
    next same =>
      rw [same] at later
      exact later
    next same =>
      rw [same] at later
      exact later

omit [CharClasses] [CaseMapping] in
theorem deleteByUri_snd (uri : String) (keywordFailure : Option IndexError) :
    (engine.deleteByUri uri keywordFailure).2 = { engine with
      vectorStore := (engine.vectorStore.deleteByUri uri).2
      fulltextStore := (engine.fulltextStore.deleteByUri uri keywordFailure).2 } := by
  unfold HybridSearchEngine.deleteByUri
  dsimp only
  split
  next same => rw [same]
  next same => rw [same]

omit [CharClasses] [CaseMapping] in
/-- A deletion fails where the full-text store does. -/
theorem deleteByUri_failed {error : IndexError}
    (failed : ((engine.deleteByUri uri keywordFailure).1.map fun _ => ()) = .error error) :
    ∃ refused, (engine.fulltextStore.deleteByUri uri keywordFailure).1 = .error refused := by
  unfold HybridSearchEngine.deleteByUri at failed
  dsimp only at failed
  split at failed
  next refused store same => exact ⟨refused, congrArg Prod.fst same⟩
  next => cases failed

theorem Reached.sound (reached : engine.Reached) : engine.vectorStore.Sound := by
  induction reached with
  | opened opened => exact opened.sound
  | written publication _ ih =>
    cases publication with
    | insert entries vectorFailure keywordFailure =>
      exact sound_insert ih entries vectorFailure keywordFailure
    | deleteByUri uri keywordFailure =>
      change (HybridSearchEngine.deleteByUri _ uri keywordFailure).2.vectorStore.Sound
      rw [deleteByUri_snd]
      exact ih.deleteByUri uri
  | saved dir failure _ ih => exact ih.save dir failure

omit [LibraryOrders] in
/-- What an engine takes is what its vector store takes. -/
theorem accepts_iff {batch : List IndexEntry} :
    engine.Accepts batch ↔ engine.vectorStore.Accepts (vectorEntries batch) := by
  have keyword : (engine.fulltextStore.insert batch none).1 = .ok () := by
    unfold FullTextStore.insert
    cases engine.fulltextStore with
    | bm25 inner => rfl
    | fts5 table => cases batch <;> rfl
  unfold Accepts HybridSearchEngine.insert
  cases taken : vectorEntries batch with
  | nil =>
    refine ⟨fun _ => VectorStore.accepts_nil, fun _ => keyword⟩
  | cons first rest =>
    unfold VectorStore.Accepts
    dsimp only
    cases inserted : engine.vectorStore.insert (first :: rest) none with
    | mk result store =>
      cases result with
      | error error =>
        constructor
        · intro accepted
          cases accepted
        · intro accepted
          cases accepted
      | ok _ => exact ⟨fun _ => rfl, fun _ => keyword⟩

omit [LibraryOrders] in
/-- An engine is as before when its stores are. -/
theorem untouched_iff {later : HybridSearchEngine}
    (keywords : later.fulltextStore = engine.fulltextStore) :
    engine.Untouched later ↔ engine.vectorStore.Untouched later.vectorStore := by
  constructor
  · intro untouched
    refine ⟨untouched.entries, untouched.dimensions, untouched.dirty, fun batch accepted => ?_⟩
    rw [← VectorStore.accepts_vectorEntries] at accepted ⊢
    exact accepts_iff.mp (untouched.accepts batch (accepts_iff.mpr accepted))
  · intro untouched
    refine ⟨untouched.entries, untouched.dimensions, untouched.dirty, keywords,
      fun batch accepted => ?_⟩
    exact accepts_iff.mpr (untouched.accepts _ (accepts_iff.mp accepted))

end HybridSearchEngine

/-- Nothing is done before the write can only fail as a whole: the batch has no vectors,
or is refused before any of them is taken, or no vector has the URI. -/
def Publication.Traceless (engine : HybridSearchEngine) : Publication → Prop
  | .insert entries vectorFailure _ => vectorEntries entries = [] ∨
      engine.vectorStore.RefusesEarly (vectorEntries entries) vectorFailure
  | .deleteByUri uri _ => ∀ entry ∈ engine.vectorStore.exportAll, entry.uri ≠ uri

namespace HybridSearchEngine

variable [CharClasses] [CaseMapping] {engine : HybridSearchEngine} {error : IndexError}

/-- A full-text store that refuses a batch is as before. -/
theorem fulltext_of_refused {store : FullTextStore} {entries : List IndexEntry}
    {failure : Option IndexError} (refused : (store.insert entries failure).1 = .error error) :
    (store.insert entries failure).2 = store := by
  cases store with
  | bm25 inner => cases refused
  | fts5 table => cases entries <;> cases failure <;> first | rfl | cases refused

/-- **An insert that fails** leaves the engine as it was exactly when it has no vectors,
or the vector store refuses them early. -/
theorem failed_insert_iff (sound : engine.vectorStore.Sound) {entries : List IndexEntry}
    {vectorFailure : Option UsearchFailure}
    (failed : (engine.insert entries vectorFailure keywordFailure).1 = .error error) :
    engine.Untouched (engine.insert entries vectorFailure keywordFailure).2 ↔
      vectorEntries entries = [] ∨
        engine.vectorStore.RefusesEarly (vectorEntries entries) vectorFailure := by
  unfold HybridSearchEngine.insert at failed ⊢
  cases taken : vectorEntries entries with
  | nil =>
    rw [taken] at failed
    dsimp only at failed ⊢
    rw [fulltext_of_refused failed]
    exact ⟨fun _ => .inl rfl, fun _ => (untouched_iff (by rfl)).mpr .refl⟩
  | cons first rest =>
    have again : vectorEntries (first :: rest) = first :: rest := by
      rw [← taken, vectorEntries_vectorEntries]
    have some_ : vectorEntries (first :: rest) ≠ [] := by
      rw [again]
      exact List.cons_ne_nil _ _
    have early := @VectorStore.insert_of_refusesEarly engine.vectorStore (first :: rest)
      vectorFailure some_
    have late := @VectorStore.insert_of_not_refusesEarly engine.vectorStore (first :: rest)
      vectorFailure sound some_
    rw [again] at early late
    rw [taken] at failed
    simp only [reduceCtorEq, false_or]
    dsimp only at failed ⊢
    cases inserted : engine.vectorStore.insert (first :: rest) vectorFailure with
    | mk result store =>
      rw [inserted] at early late failed
      cases result with
      | error refused =>
        refine (untouched_iff (by rfl)).trans ⟨fun untouched => ?_, fun refused =>
          (early refused).2⟩
        by_contra no
        exact late no untouched
      | ok _ =>
        refine (untouched_iff (fulltext_of_refused failed)).trans ⟨fun untouched => ?_,
          fun refused => ?_⟩
        · by_contra no
          exact late no untouched
        · obtain ⟨⟨error, wrong⟩, _⟩ := early refused
          cases wrong

/-- **A deletion that fails** leaves the engine as it was exactly where no vector has the
URI. -/
theorem failed_deletion_iff [LibraryOrders] (sound : engine.vectorStore.Sound)
    (failed : ((engine.deleteByUri uri keywordFailure).1.map fun _ => ()) = .error error) :
    engine.Untouched (engine.deleteByUri uri keywordFailure).2 ↔
      ∀ entry ∈ engine.vectorStore.exportAll, entry.uri ≠ uri := by
  have keywords : (engine.fulltextStore.deleteByUri uri keywordFailure).2 =
      engine.fulltextStore := by
    obtain ⟨error, refused⟩ := deleteByUri_failed failed
    unfold FullTextStore.deleteByUri at refused ⊢
    cases found : engine.fulltextStore with
    | bm25 inner =>
      rw [found] at refused
      cases refused
    | fts5 table =>
      rw [found] at refused
      cases keywordFailure with
      | some error => rfl
      | none => cases refused
  rw [deleteByUri_snd, keywords]
  refine (untouched_iff (by rfl)).trans ?_
  exact VectorStore.deleteByUri_untouched_iff sound uri

end HybridSearchEngine

/-- **Failed writes.** A write that fails leaves both arms as they were, and ready for
what they were ready for, exactly when it fails before anything is taken or deleted. -/
theorem failed_write_untouched_iff [CharClasses] [CaseMapping] [LibraryOrders]
    {engine : HybridSearchEngine} (reached : engine.Reached) (publication : Publication)
    {error : IndexError} (failed : (publication.publish engine).1 = .error error) :
    engine.Untouched (publication.publish engine).2 ↔ publication.Traceless engine := by
  cases publication with
  | insert entries vectorFailure keywordFailure =>
    exact HybridSearchEngine.failed_insert_iff reached.sound failed
  | deleteByUri uri keywordFailure =>
    exact HybridSearchEngine.failed_deletion_iff reached.sound failed

/-! ## Two writes that fail -/

open PublishedState.Sample in
/-- A deletion of what only the full-text store could hold leaves no trace. -/
theorem keyword_deletion_untouched :
    let engine : HybridSearchEngine := ⟨.flat .new, .fts5 (.new defaultFieldWeights), 0.5, 60⟩
    let deletion : Publication := .deleteByUri "observation://a" (some (.sqlite "disk is full"))
    (deletion.publish engine).1 = .error (.sqlite "disk is full") ∧
      engine.Untouched (deletion.publish engine).2 := by
  intro engine deletion
  have opened : FlatVectorIndex.openFile "/v" none = .ok .new := rfl
  have reached : engine.Reached := .opened (.flat opened)
  refine ⟨rfl, (failed_write_untouched_iff reached deletion rfl).mpr fun entry member => ?_⟩
  cases member

open PublishedState.Sample in
/-- A batch of mixed dimensions fixes those of a new index, and a batch that was taken
before is refused from then on. A deletion that fails in the full-text store has deleted
the vectors. -/
theorem failed_writes_leave_traces :
    (let engine : HybridSearchEngine := ⟨.hnsw .new, .bm25 .new, 0.5, 60⟩
      let mixed : Publication :=
        .insert [HnswIndex.plainEntry 2, HnswIndex.plainEntry 3] none none
      engine.Reached ∧ (mixed.publish engine).1 = .error (.dimensionMismatch 2 3) ∧
        engine.Accepts [HnswIndex.plainEntry 3] ∧
        ((mixed.publish engine).2.insert [HnswIndex.plainEntry 3] none none).1 =
          .error (.dimensionMismatch 2 3)) ∧
      (let engine : HybridSearchEngine := ⟨.flat .new, .fts5 (.new defaultFieldWeights), 0.5, 60⟩
        let filled := (Publication.publish engine (.insert [IndexState.sampleEntry] none none)).2
        let deletion : Publication :=
          .deleteByUri "observation://a" (some (.sqlite "disk is full"))
        filled.Reached ∧ (deletion.publish filled).1 = .error (.sqlite "disk is full") ∧
          filled.vectorStore.exportAll.length = 1 ∧
          (deletion.publish filled).2.vectorStore.exportAll = [] ∧
          (deletion.publish filled).2.fulltextStore = filled.fulltextStore) := by
  refine ⟨⟨.opened .newHnsw, rfl, rfl, rfl⟩, ?_, rfl, rfl, rfl, rfl⟩
  have opened : FlatVectorIndex.openFile "/v" none = .ok .new := rfl
  exact .written _ (.opened (.flat opened))

end OpenMemory.Index
