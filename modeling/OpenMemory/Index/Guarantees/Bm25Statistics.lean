import OpenMemory.Index.Bm25

/-!
# The statistics of the inverted index

An insert and a deletion update the number of documents, their average length and the postings
by separate steps. The steps fit together: whatever is inserted and deleted, and however often
the index is written to its file and opened again, the statistics are those of the documents
that are there.

Lengths, ids and frequencies are kept in fields of a fixed size. A frequency is kept as a float
of thirty-two bits, and is off where it does not fit into one.
-/

namespace OpenMemory.Index

open Foundation OpenMemory.Graph

/-! ## Exact numbers -/

/-- `as f32` of a count: it is rounded to twenty-four bits, halves to even. -/
def asFloat32 (count : Nat) : Nat :=
  if count < 2 ^ 24 then count
  else
    let unit := 2 ^ (Nat.log2 count - 23)
    let below := count / unit
    let rest := count % unit
    (if 2 * rest < unit ∨ 2 * rest = unit ∧ below % 2 = 0 then below else below + 1) * unit

local instance atLeastTwo_two : Nat.AtLeastTwo 2 := ⟨le_rfl⟩

/-- Averages and scores as real numbers, and frequencies by their values. -/
noncomputable instance exactNumbers : Bm25Numbers ℝ Nat where
  ofCount count := count.toNat
  ofLength length := length
  frequency count := asFloat32 count.toNat
  ofFrequency frequency := frequency
  ln := Real.log
  below a b := decide (a < b)
  isZero a := decide (a = 0)
  half := 1 / 2
  k1 := 6 / 5
  b := 3 / 4

namespace Bm25

/-! ## Tables -/

section Tables

variable {κ ρ : Type} [DecidableEq κ] {rows : List (κ × ρ)} {table other : Table κ ρ} {key : κ}

theorem get?_of_perm (same : table.entries.Perm other.entries) (key : κ) :
    table.get? key = other.get? key := by
  cases found : other.get? key with
  | none =>
    rw [Table.get?_eq_none_iff] at found ⊢
    rwa [(same.map Prod.fst).mem_iff]
  | some row =>
    rw [Table.get?_eq_some_iff] at found ⊢
    exact same.mem_iff.mpr found

/-- The rows of a file with distinct keys are collected as they are. -/
theorem entries_collect (distinct : (rows.map Prod.fst).Nodup) : (collect rows).entries = rows := by
  suffices all : ∀ table : Table κ ρ, (table.entries.map Prod.fst ++ rows.map Prod.fst).Nodup →
      (rows.foldl (fun table row => table.put row.1 row.2) table).entries = table.entries ++ rows by
    exact all .empty distinct
  clear distinct
  induction rows with
  | nil => exact fun table _ => (List.append_nil _).symm
  | cons first rest ih =>
    intro table distinct
    have fresh : first.1 ∉ table.entries.map Prod.fst := fun there =>
      (List.nodup_append.mp distinct).2.2 _ there _ List.mem_cons_self rfl
    have entries : (table.put first.1 first.2).entries = table.entries ++ [first] :=
      Table.put_of_fresh (Table.get?_eq_none_iff.mpr fresh)
    rw [List.foldl_cons, ih, entries, List.append_assoc]
    · rfl
    · rw [entries, List.map_append, List.append_assoc]
      exact distinct

theorem collect_perm (same : rows.Perm table.entries) (key : κ) :
    (collect rows).get? key = table.get? key := by
  apply get?_of_perm
  rw [entries_collect ((same.map Prod.fst).nodup_iff.mpr table.distinct)]
  exact same

end Tables

/-! ## Frequencies -/

theorem get?_termFreqs (tokens : List String) (term : String) :
    (termFreqs tokens).get? term =
      if term ∈ tokens then some (UInt32.ofNat (tokens.count term)) else none := by
  suffices all : ∀ (freqs : Table String UInt32),
      (tokens.foldl (fun freqs tok => freqs.put tok ((freqs.get? tok).getD 0 + 1)) freqs).get? term =
        if term ∈ tokens then
          some ((freqs.get? term).getD 0 + UInt32.ofNat (tokens.count term))
        else freqs.get? term by
    rw [termFreqs, all]
    simp
  induction tokens with
  | nil => exact fun freqs => rfl
  | cons first rest ih =>
    intro freqs
    rw [List.foldl_cons, ih, Table.get?_put]
    by_cases here : term = first
    · subst here
      rw [if_pos rfl, if_pos List.mem_cons_self, List.count_cons_self]
      split
      · rw [Option.getD_some, UInt32.ofNat_add, add_assoc, add_comm 1]
        rfl
      · rename_i absent
        rw [List.count_eq_zero_of_not_mem absent]
        rfl
    · rw [if_neg here, List.count_cons_of_ne (Ne.symm here)]
      simp only [List.mem_cons, here, false_or]

/-! ## Postings -/

/-- What a table of postings says of a term. -/
def postingsOf (index : Table String (List (UInt32 × Nat))) (term : String) : List (UInt32 × Nat) :=
  (index.get? term).getD []

variable {id other : UInt32} {index : Table String (List (UInt32 × Nat))} {term : String}
  {tokens : List String}

theorem get?_addPostings {freqs : List (String × UInt32)} (distinct : (freqs.map Prod.fst).Nodup) :
    (addPostings (S := ℝ) id freqs index).get? term =
      match freqs.lookup term with
      | none => index.get? term
      | some count => some (postingsOf index term ++ [(id, asFloat32 count.toNat)]) := by
  unfold addPostings
  induction freqs generalizing index with
  | nil => rfl
  | cons first rest ih =>
    obtain ⟨fresh, distinct⟩ := List.nodup_cons.mp distinct
    rw [List.foldl_cons, ih distinct, List.lookup_cons, Table.get?_put]
    by_cases here : term = first.1
    · have absent : rest.lookup term = none := by
        rw [List.lookup_eq_none_iff]
        intro entry member
        rw [bne_iff_ne, here]
        exact fun same => fresh (same ▸ List.mem_map_of_mem member)
      rw [absent, if_pos here, beq_iff_eq.mpr here, ← here]
      rfl
    · rw [if_neg here, beq_eq_false_iff_ne.mpr here]
      unfold postingsOf
      rw [Table.get?_put, if_neg here]

/-- A document adds one posting for each of its terms, with the frequency of the term. -/
theorem get?_addTerms : (addPostings (S := ℝ) id (termFreqs tokens).entries index).get? term =
    if term ∈ tokens then
      some (postingsOf index term ++ [(id, asFloat32 (UInt32.ofNat (tokens.count term)).toNat)])
    else index.get? term := by
  rw [get?_addPostings (termFreqs tokens).distinct]
  have frequency : (termFreqs tokens).entries.lookup term = _ := get?_termFreqs tokens term
  rw [frequency]
  by_cases present : term ∈ tokens
  · rw [if_pos present, if_pos present]
  · rw [if_neg present, if_neg present]

theorem get?_dropPostings : (dropPostings id index).get? term =
    if (postingsOf index term).filter (fun posting => posting.1 ≠ id) = [] then none
    else some ((postingsOf index term).filter fun posting => posting.1 ≠ id) := by
  unfold dropPostings postingsOf
  rw [Table.get?_filter, Table.get?_map]
  cases index.get? term with
  | none => rfl
  | some postings =>
    rw [Option.map_some, Option.filter_some, Option.getD_some]
    by_cases empty : postings.filter (fun posting => decide (posting.1 ≠ id)) = []
    · rw [if_pos empty, empty]
      rfl
    · have some_ : (postings.filter fun posting => decide (posting.1 ≠ id)).isEmpty = false := by
        rw [Bool.eq_false_iff, Ne, List.isEmpty_iff]
        exact empty
      rw [if_neg empty, some_]
      rfl

theorem postingsOf_drop (id : UInt32) (index : Table String (List (UInt32 × Nat))) (term : String) :
    postingsOf (dropPostings id index) term =
      (postingsOf index term).filter fun posting => posting.1 ≠ id := by
  unfold postingsOf
  rw [get?_dropPostings]
  unfold postingsOf
  split
  · rename_i none_
    exact none_.symm
  · rfl

/-! ## Documents -/

section Documents

variable [CharClasses] [CaseMapping]

def docTokens (e : IndexEntry) : List String := tokenize (indexText e defaultFieldWeights)

/-- What is kept of an entry besides its postings. -/
def docMeta (e : IndexEntry) : DocMeta :=
  ⟨e.uri, e.text, e.chunkIndex, UInt32.ofNat (docTokens e).length⟩

/-- The length and the frequencies of an entry fit in their fields. -/
structure FitsFields (e : IndexEntry) : Prop where
  length : (docTokens e).length < 2 ^ 32
  frequency : ∀ term ∈ docTokens e, asFloat32 ((docTokens e).count term) = (docTokens e).count term

/-- An index with the documents that it was given, under the ids that it gave them, and those of
them that have not been deleted. -/
structure Tracked where
  inner : Bm25 ℝ
  given : List (UInt32 × IndexEntry)
  live : List (UInt32 × IndexEntry)

namespace Tracked

noncomputable def new : Tracked := ⟨.new, [], []⟩

noncomputable def add (t : Tracked) (e : IndexEntry) : Tracked where
  inner := t.inner.addDoc e.uri e.text (indexText e defaultFieldWeights) e.chunkIndex
  given := t.given ++ [(t.inner.nextId, e)]
  live := t.live ++ [(t.inner.nextId, e)]

noncomputable def insert (t : Tracked) (entries : List IndexEntry) : Tracked := entries.foldl add t

noncomputable def removeDoc (t : Tracked) (id : UInt32) : Tracked where
  inner := t.inner.removeDoc id
  given := t.given
  live := t.live.filter fun doc => doc.1 ≠ id

noncomputable def deleteByUri [LibraryOrders] (t : Tracked) (uri : String) : Tracked where
  inner := (t.inner.deleteByUri uri).2
  given := t.given
  live := t.live.filter fun doc => doc.2.uri ≠ uri

noncomputable def reopen [LibraryOrders] (t : Tracked) : Tracked :=
  { t with inner := t.inner.reopen }

end Tracked

/-- What is done to an index. -/
inductive Bm25Action where
  | insert (entries : List IndexEntry)
  | deleteByUri (uri : String)
  | reopen

namespace Tracked

noncomputable def step [LibraryOrders] (t : Tracked) : Bm25Action → Tracked
  | .insert entries => t.insert entries
  | .deleteByUri uri => t.deleteByUri uri
  | .reopen => t.reopen

noncomputable def run [LibraryOrders] (actions : List Bm25Action) : Tracked := actions.foldl step new

/-! ## The invariant -/

/-- The statistics of an index are those of its documents, but for what their fields do not
hold. -/
structure Counts (t : Tracked) : Prop where
  few : t.given.length < 2 ^ 32
  nextId : t.inner.nextId = UInt32.ofNat t.given.length
  ids : t.given.map Prod.fst = (List.range t.given.length).map UInt32.ofNat
  live : t.live.Sublist t.given
  short : ∀ doc ∈ t.live, (docTokens doc.2).length < 2 ^ 32
  docs : ∀ id doc, t.inner.docs.get? id = some doc ↔ ∃ e, (id, e) ∈ t.live ∧ doc = docMeta e
  docCount : t.inner.docCount = UInt32.ofNat t.live.length
  avgDl : t.inner.avgDl = (t.live.map fun doc => ((docTokens doc.2).length : ℝ)).sum / t.live.length
  postings : ∀ term id tf, (id, tf) ∈ postingsOf t.inner.index term ↔
    ∃ e, (id, e) ∈ t.live ∧ term ∈ docTokens e ∧ tf = asFloat32 ((docTokens e).count term)
  once : ∀ term, ((postingsOf t.inner.index term).map Prod.fst).Nodup
  nonempty : ∀ term, t.inner.index.get? term ≠ some []

variable {t : Tracked} {e : IndexEntry}

theorem counts_new : new.Counts where
  few := by decide
  nextId := rfl
  ids := rfl
  live := .slnil
  short := nofun
  docs id doc := iff_of_false nofun (fun ⟨_, member, _⟩ => nomatch member)
  docCount := rfl
  avgDl := (zero_div _).symm
  postings term id tf := iff_of_false nofun (fun ⟨_, member, _⟩ => nomatch member)
  once term := List.nodup_nil
  nonempty term := nofun

namespace Counts

variable (counts : t.Counts)

include counts

theorem ids_nodup : (t.given.map Prod.fst).Nodup := by
  rw [counts.ids]
  refine List.Nodup.map_on (fun left below right below' same => ?_) List.nodup_range
  have few := counts.few
  rw [List.mem_range] at below below'
  have values := congrArg UInt32.toNat same
  rwa [UInt32.toNat_ofNat', UInt32.toNat_ofNat', Nat.mod_eq_of_lt (by omega),
    Nat.mod_eq_of_lt (by omega)] at values

theorem live_nodup : (t.live.map Prod.fst).Nodup :=
  counts.ids_nodup.sublist (counts.live.map _)

theorem live_few : t.live.length < 2 ^ 32 :=
  counts.live.length_le.trans_lt counts.few

/-- The next id is not one that was given. -/
theorem fresh : t.inner.nextId ∉ t.given.map Prod.fst := by
  rw [counts.ids, counts.nextId, List.mem_map]
  rintro ⟨place, inside, same⟩
  have few := counts.few
  rw [List.mem_range] at inside
  have values := congrArg UInt32.toNat same
  rw [UInt32.toNat_ofNat', UInt32.toNat_ofNat', Nat.mod_eq_of_lt (by omega),
    Nat.mod_eq_of_lt (by omega)] at values
  omega

theorem fresh_live : t.inner.nextId ∉ t.live.map Prod.fst :=
  fun there => counts.fresh ((counts.live.map _).subset there)

theorem count_eq : (Bm25Numbers.ofCount t.inner.docCount : ℝ) = t.live.length := by
  change ((t.inner.docCount.toNat : ℕ) : ℝ) = _
  rw [counts.docCount, UInt32.toNat_ofNat', Nat.mod_eq_of_lt counts.live_few]

/-- The length of all documents. -/
theorem total_eq : t.inner.avgDl * Bm25Numbers.ofCount t.inner.docCount =
    (t.live.map fun doc => ((docTokens doc.2).length : ℝ)).sum := by
  rw [counts.count_eq, counts.avgDl]
  cases present : t.live with
  | nil => simp
  | cons first rest =>
    refine div_mul_cancel₀ _ ?_
    exact Nat.cast_ne_zero.mpr (Nat.succ_ne_zero _)

omit counts in
theorem postingsOf_add (term : String) : postingsOf (t.add e).inner.index term =
    if term ∈ docTokens e then postingsOf t.inner.index term ++
      [(t.inner.nextId, asFloat32 (UInt32.ofNat ((docTokens e).count term)).toNat)]
    else postingsOf t.inner.index term := by
  have terms : (t.add e).inner.index.get? term = _ :=
    @get?_addTerms t.inner.nextId t.inner.index term (docTokens e)
  unfold postingsOf at terms ⊢
  rw [terms]
  split
  · rfl
  · rfl

theorem add (room : t.given.length + 1 < 2 ^ 32)
    (short : (docTokens e).length < 2 ^ 32) : (t.add e).Counts where
  few := by
    change (t.given ++ [_]).length < 2 ^ 32
    rwa [List.length_append]
  nextId := by
    change t.inner.nextId + 1 = UInt32.ofNat (t.given ++ [_]).length
    rw [counts.nextId, List.length_append, UInt32.ofNat_add]
    rfl
  ids := by
    change (t.given ++ [_]).map Prod.fst = (List.range (t.given ++ [_]).length).map UInt32.ofNat
    rw [List.map_append, List.length_append, counts.ids, List.length_singleton, List.range_succ,
      List.map_append, List.map_singleton, List.map_singleton, counts.nextId]
  live := counts.live.append (List.Sublist.refl _)
  short doc member := by
    rcases List.mem_append.mp member with old | new
    · exact counts.short doc old
    · rw [List.mem_singleton.mp new]
      exact short
  docs id doc := by
    change (t.inner.docs.put t.inner.nextId (docMeta e)).get? id = some doc ↔
      ∃ e', (id, e') ∈ t.live ++ [(t.inner.nextId, e)] ∧ doc = docMeta e'
    rw [Table.get?_put]
    simp only [List.mem_append, List.mem_singleton, Prod.mk.injEq]
    split
    · rename_i here
      constructor
      · intro same
        cases same
        exact ⟨e, .inr ⟨here, rfl⟩, rfl⟩
      · rintro ⟨e', old | ⟨-, rfl⟩, rfl⟩
        · exact absurd (here ▸ List.mem_map_of_mem old) counts.fresh_live
        · rfl
    · rename_i elsewhere
      rw [counts.docs]
      refine exists_congr fun e' => and_congr_left fun _ => ?_
      exact (or_iff_left fun new => elsewhere new.1).symm
  docCount := by
    change t.inner.docCount + 1 = UInt32.ofNat (t.live ++ [_]).length
    rw [counts.docCount, List.length_append, UInt32.ofNat_add]
    rfl
  avgDl := by
    have next : ((t.inner.docCount + 1).toNat : ℝ) = (t.live.length : ℝ) + 1 := by
      have whole : t.live.length + 1 < 2 ^ 32 := by
        have fewer := counts.live.length_le
        omega
      have sum : t.inner.docCount + 1 = UInt32.ofNat (t.live.length + 1) := by
        rw [counts.docCount, UInt32.ofNat_add]
        rfl
      rw [sum, UInt32.toNat_ofNat', Nat.mod_eq_of_lt whole]
      push_cast
      rfl
    have length : ((UInt32.ofNat (docTokens e).length).toNat : ℝ) = (docTokens e).length := by
      rw [UInt32.toNat_ofNat', Nat.mod_eq_of_lt short]
    change (t.inner.avgDl * Bm25Numbers.ofCount t.inner.docCount +
        ((UInt32.ofNat (docTokens e).length).toNat : ℝ)) / ((t.inner.docCount + 1).toNat : ℝ) =
      ((t.live ++ [(t.inner.nextId, e)]).map fun doc => ((docTokens doc.2).length : ℝ)).sum /
        (t.live ++ [(t.inner.nextId, e)]).length
    rw [counts.total_eq, next, length, List.map_append, List.sum_append, List.length_append,
      List.map_singleton, List.sum_singleton, List.length_singleton, Nat.cast_add, Nat.cast_one]
  postings term id tf := by
    change _ ↔ ∃ e', (id, e') ∈ t.live ++ [(t.inner.nextId, e)] ∧ term ∈ docTokens e' ∧
      tf = asFloat32 ((docTokens e').count term)
    have count : (UInt32.ofNat ((docTokens e).count term)).toNat = (docTokens e).count term := by
      rw [UInt32.toNat_ofNat', Nat.mod_eq_of_lt (List.count_le_length.trans_lt short)]
    rw [postingsOf_add, count]
    simp only [List.mem_append, List.mem_singleton, Prod.mk.injEq]
    split
    · rename_i present
      rw [List.mem_append, counts.postings, List.mem_singleton, Prod.mk.injEq]
      constructor
      · rintro (⟨e', old, among, rfl⟩ | ⟨rfl, rfl⟩)
        · exact ⟨e', .inl old, among, rfl⟩
        · exact ⟨e, .inr ⟨rfl, rfl⟩, present, rfl⟩
      · rintro ⟨e', old | ⟨rfl, rfl⟩, among, rfl⟩
        · exact .inl ⟨e', old, among, rfl⟩
        · exact .inr ⟨rfl, rfl⟩
    · rename_i absent
      rw [counts.postings]
      constructor
      · rintro ⟨e', old, among, rfl⟩
        exact ⟨e', .inl old, among, rfl⟩
      · rintro ⟨e', old | ⟨rfl, rfl⟩, among, rfl⟩
        · exact ⟨e', old, among, rfl⟩
        · exact absurd among absent
  once term := by
    rw [postingsOf_add]
    split
    · rw [List.map_append, List.nodup_append]
      refine ⟨counts.once term, List.nodup_singleton _, ?_⟩
      rintro id old _ new rfl
      rw [List.map_singleton, List.mem_singleton] at new
      obtain ⟨⟨_, tf⟩, member, rfl⟩ := List.mem_map.mp old
      obtain ⟨e', there, -⟩ := (counts.postings term _ tf).mp member
      exact counts.fresh_live (List.mem_map.mpr ⟨_, there, new⟩)
    · exact counts.once term
  nonempty term := by
    have terms : (t.add e).inner.index.get? term = _ :=
      @get?_addTerms t.inner.nextId t.inner.index term (docTokens e)
    rw [terms]
    split
    · intro none_
      exact List.append_ne_nil_of_right_ne_nil _ (List.cons_ne_nil _ _) (Option.some.inj none_)
    · exact counts.nonempty term

/-- The other documents than one. -/
theorem live_perm {id : UInt32} (member : (id, e) ∈ t.live) :
    t.live.Perm ((id, e) :: t.live.filter fun doc => doc.1 ≠ id) := by
  have distinct := List.Nodup.of_map _ counts.live_nodup
  have apart : (id, e) ∉ t.live.filter fun doc => doc.1 ≠ id := by
    rw [List.mem_filter, decide_eq_true_eq]
    exact fun both => both.2 rfl
  refine (List.perm_ext_iff_of_nodup distinct
    (List.nodup_cons.mpr ⟨apart, distinct.filter _⟩)).mpr fun doc => ?_
  rw [List.mem_cons, List.mem_filter, decide_eq_true_eq]
  constructor
  · intro there
    by_cases same : doc.1 = id
    · exact .inl (List.inj_on_of_nodup_map counts.live_nodup there member same)
    · exact .inr ⟨there, same⟩
  · rintro (rfl | ⟨there, -⟩)
    · exact member
    · exact there

theorem removeDoc_absent {id : UInt32} (absent : t.inner.docs.get? id = none) :
    t.removeDoc id = t := by
  have inner : t.inner.removeDoc id = t.inner := by
    unfold Bm25.removeDoc
    rw [absent]
  have live : (t.live.filter fun doc => doc.1 ≠ id) = t.live := by
    refine List.filter_eq_self.mpr fun doc member => decide_eq_true fun same => ?_
    have held := (counts.docs doc.1 (docMeta doc.2)).mpr ⟨doc.2, member, rfl⟩
    rw [same, absent] at held
    cases held
  unfold Tracked.removeDoc
  rw [inner, live]

theorem removeDoc (id : UInt32) : (t.removeDoc id).Counts := by
  cases held : t.inner.docs.get? id with
  | none =>
    rw [counts.removeDoc_absent held]
    exact counts
  | some doc =>
    obtain ⟨e, member, rfl⟩ := (counts.docs id doc).mp held
    have others := counts.live_perm member
    have length : t.live.length = (t.live.filter fun doc => doc.1 ≠ id).length + 1 :=
      others.length_eq
    have short := counts.short _ member
    have few := counts.live_few
    have count : t.inner.docCount.toNat = t.live.length := by
      rw [counts.docCount, UInt32.toNat_ofNat', Nat.mod_eq_of_lt few]
    have inner : t.inner.removeDoc id =
        { t.inner with
          docs := t.inner.docs.erase id
          docCount := if 1 < t.inner.docCount then t.inner.docCount - 1 else 0
          avgDl := if 1 < t.inner.docCount then
              (t.inner.avgDl * Bm25Numbers.ofCount t.inner.docCount -
                Bm25Numbers.ofCount (docMeta e).docLen) / Bm25Numbers.ofCount (t.inner.docCount - 1)
            else 0
          index := dropPostings id t.inner.index } := by
      unfold Bm25.removeDoc
      rw [held]
    have several : 1 < t.inner.docCount ↔ 1 < t.live.length := by
      rw [UInt32.lt_iff_toNat_lt, count]
      rfl
    have less (many : 1 < t.live.length) : (t.inner.docCount - 1).toNat =
        (t.live.filter fun doc => doc.1 ≠ id).length := by
      have one : (1 : UInt32) ≤ t.inner.docCount := by
        rw [UInt32.le_iff_toNat_le, count]
        exact many.le
      rw [UInt32.toNat_sub_of_le _ _ one, count, length]
      rfl
    exact
      { few := counts.few
        nextId := by
          change (t.inner.removeDoc id).nextId = _
          rw [inner]
          exact counts.nextId
        ids := counts.ids
        live := List.filter_sublist.trans counts.live
        short := fun doc there => counts.short doc (List.mem_filter.mp there).1
        docs := fun other doc => by
          change (t.inner.removeDoc id).docs.get? other = some doc ↔
            ∃ e', (other, e') ∈ t.live.filter (fun doc => doc.1 ≠ id) ∧ doc = docMeta e'
          rw [inner]
          change (t.inner.docs.erase id).get? other = some doc ↔ _
          rw [Table.get?_erase]
          simp only [List.mem_filter, decide_eq_true_eq]
          split
          · rename_i same
            refine iff_of_false (Option.some_ne_none doc).symm ?_
            rintro ⟨_, there, _⟩
            exact there.2 same
          · rename_i apart
            rw [counts.docs]
            exact exists_congr fun e' => and_congr_left fun _ => (and_iff_left apart).symm
        docCount := by
          change (t.inner.removeDoc id).docCount = UInt32.ofNat (t.live.filter _).length
          rw [inner]
          apply UInt32.toNat_inj.mp
          rw [UInt32.toNat_ofNat', Nat.mod_eq_of_lt (by omega)]
          change (if _ then _ else _ : UInt32).toNat = _
          split
          · rename_i many
            exact less (several.mp many)
          · rename_i single
            rw [several] at single
            change 0 = _
            omega
        avgDl := by
          change (t.inner.removeDoc id).avgDl = ((t.live.filter _).map _).sum /
            (t.live.filter _).length
          rw [inner]
          change (if _ then _ else _ : ℝ) = _
          split
          · rename_i many
            have size : (Bm25Numbers.ofCount (docMeta e).docLen : ℝ) = (docTokens e).length := by
              change (((UInt32.ofNat (docTokens e).length).toNat : ℕ) : ℝ) = _
              rw [UInt32.toNat_ofNat', Nat.mod_eq_of_lt short]
            have rest : (Bm25Numbers.ofCount (t.inner.docCount - 1) : ℝ) =
                (t.live.filter fun doc => doc.1 ≠ id).length :=
              congrArg Nat.cast (less (several.mp many))
            rw [counts.total_eq, size, rest, (others.map _).sum_eq, List.map_cons,
              List.sum_cons, add_sub_cancel_left]
          · rename_i single
            rw [several] at single
            have none_ : (t.live.filter fun doc => doc.1 ≠ id) = [] :=
              List.length_eq_zero_iff.mp (by omega)
            rw [none_]
            exact (zero_div _).symm
        postings := fun term other tf => by
          change (other, tf) ∈ postingsOf (t.inner.removeDoc id).index term ↔
            ∃ e', (other, e') ∈ t.live.filter (fun doc => doc.1 ≠ id) ∧ _
          rw [inner]
          change (other, tf) ∈ postingsOf (dropPostings id t.inner.index) term ↔ _
          rw [postingsOf_drop, List.mem_filter, counts.postings]
          simp only [List.mem_filter, decide_eq_true_eq]
          constructor
          · rintro ⟨⟨e', there, among⟩, apart⟩
            exact ⟨e', ⟨there, apart⟩, among⟩
          · rintro ⟨e', ⟨there, apart⟩, among⟩
            exact ⟨⟨e', there, among⟩, apart⟩
        once := fun term => by
          change ((postingsOf (t.inner.removeDoc id).index term).map Prod.fst).Nodup
          rw [inner]
          change ((postingsOf (dropPostings id t.inner.index) term).map Prod.fst).Nodup
          rw [postingsOf_drop]
          exact (counts.once term).sublist (List.filter_sublist.map _)
        nonempty := fun term => by
          change (t.inner.removeDoc id).index.get? term ≠ some []
          rw [inner]
          change (dropPostings id t.inner.index).get? term ≠ some []
          rw [get?_dropPostings]
          split
          · exact (Option.some_ne_none []).symm
          · rename_i some_
            exact fun same => some_ (Option.some.inj same) }

/-- **The index is opened again.** -/
theorem reopen [LibraryOrders] : t.reopen.Counts := by
  have docs (id : UInt32) : t.reopen.inner.docs.get? id = t.inner.docs.get? id :=
    collect_perm (LibraryOrders.hashOrder_perm _) id
  have index (term : String) : t.reopen.inner.index.get? term = t.inner.index.get? term :=
    collect_perm (LibraryOrders.hashOrder_perm _) term
  have postings (term : String) : postingsOf t.reopen.inner.index term =
      postingsOf t.inner.index term := by
    unfold postingsOf
    rw [index]
  exact
    { few := counts.few
      nextId := counts.nextId
      ids := counts.ids
      live := counts.live
      short := counts.short
      docs := fun id doc => by
        rw [docs]
        exact counts.docs id doc
      docCount := counts.docCount
      avgDl := counts.avgDl
      postings := fun term id tf => by
        rw [postings]
        exact counts.postings term id tf
      once := fun term => by
        rw [postings]
        exact counts.once term
      nonempty := fun term => by
        rw [index]
        exact counts.nonempty term }

theorem removeDocs (ids : List UInt32) : (ids.foldl Tracked.removeDoc t).Counts := by
  induction ids generalizing t with
  | nil => exact counts
  | cons first rest ih => exact ih (counts.removeDoc first)

end Counts

omit [CharClasses] [CaseMapping] in
/-- The documents that are left when several are removed. -/
theorem removeDocs_eq (t : Tracked) (ids : List UInt32) : ids.foldl removeDoc t =
    ⟨ids.foldl Bm25.removeDoc t.inner, t.given, t.live.filter fun doc => doc.1 ∉ ids⟩ := by
  induction ids generalizing t with
  | nil => simp
  | cons first rest ih =>
    rw [List.foldl_cons, ih]
    change Tracked.mk _ _ ((t.live.filter _).filter _) = _
    rw [List.filter_filter]
    congr 1
    refine List.filter_congr fun doc _ => ?_
    rw [Bool.eq_iff_iff, Bool.and_eq_true, decide_eq_true_eq, decide_eq_true_eq,
      decide_eq_true_eq, List.mem_cons, not_or, and_comm]

theorem Counts.deleteByUri [LibraryOrders] (counts : t.Counts) (uri : String) :
    (t.deleteByUri uri).Counts := by
  let ids := ((LibraryOrders.hashOrder t.inner.docs.entries).filter fun entry =>
    entry.2.uri == uri).map Prod.fst
  have among (doc : UInt32 × IndexEntry) (member : doc ∈ t.live) :
      doc.1 ∈ ids ↔ doc.2.uri = uri := by
    have held := (counts.docs doc.1 (docMeta doc.2)).mpr ⟨doc.2, member, rfl⟩
    rw [List.mem_map]
    constructor
    · rintro ⟨⟨id, row⟩, there, same⟩
      obtain ⟨there, named⟩ := List.mem_filter.mp there
      have again := Table.get?_eq_some_iff.mpr ((LibraryOrders.hashOrder_perm _).mem_iff.mp there)
      dsimp only at same again named
      rw [same, held] at again
      cases again
      exact beq_iff_eq.mp named
    · intro named
      refine ⟨(doc.1, docMeta doc.2), List.mem_filter.mpr ⟨?_, beq_iff_eq.mpr named⟩, rfl⟩
      exact (LibraryOrders.hashOrder_perm _).mem_iff.mpr (Table.get?_eq_some_iff.mp held)
  have same : t.deleteByUri uri = ids.foldl Tracked.removeDoc t := by
    rw [removeDocs_eq]
    change Tracked.mk _ _ (t.live.filter _) = _
    congr 1
    refine List.filter_congr fun doc member => ?_
    rw [Bool.eq_iff_iff, decide_eq_true_eq, decide_eq_true_eq, Ne, among doc member]
  rw [same]
  exact counts.removeDocs ids

/-! ## Runs -/

def inserted : Bm25Action → List IndexEntry
  | .insert entries => entries
  | .deleteByUri _ => []
  | .reopen => []

theorem given_insert (t : Tracked) (entries : List IndexEntry) :
    (t.insert entries).given.length = t.given.length + entries.length := by
  unfold insert
  induction entries generalizing t with
  | nil => rfl
  | cons first rest ih =>
    rw [List.foldl_cons, ih, List.length_cons]
    change (t.given ++ [_]).length + rest.length = _
    rw [List.length_append, List.length_singleton]
    omega

theorem Counts.insert (counts : t.Counts) {entries : List IndexEntry}
    (room : t.given.length + entries.length < 2 ^ 32)
    (short : ∀ e ∈ entries, (docTokens e).length < 2 ^ 32) : (t.insert entries).Counts := by
  unfold Tracked.insert
  induction entries generalizing t with
  | nil => exact counts
  | cons first rest ih =>
    rw [List.length_cons] at room
    refine ih (counts.add (by omega) (short first List.mem_cons_self)) ?_ (List.forall_mem_cons.mp short).2
    change (t.given ++ [_]).length + rest.length < 2 ^ 32
    rw [List.length_append, List.length_singleton]
    omega

theorem Counts.step [LibraryOrders] (counts : t.Counts) {action : Bm25Action}
    (room : t.given.length + (inserted action).length < 2 ^ 32)
    (short : ∀ e ∈ inserted action, (docTokens e).length < 2 ^ 32) : (t.step action).Counts := by
  cases action with
  | insert entries => exact counts.insert room short
  | deleteByUri uri => exact counts.deleteByUri uri
  | reopen => exact counts.reopen

theorem given_step [LibraryOrders] (t : Tracked) (action : Bm25Action) :
    (t.step action).given.length = t.given.length + (inserted action).length := by
  cases action with
  | insert entries => exact t.given_insert entries
  | deleteByUri uri => rfl
  | reopen => rfl

/-- **Over a run** that inserts fewer than four billion documents, the statistics count them. -/
theorem counts_run [LibraryOrders] {actions : List Bm25Action}
    (room : (actions.flatMap inserted).length < 2 ^ 32)
    (short : ∀ e ∈ actions.flatMap inserted, (docTokens e).length < 2 ^ 32) :
    (run actions).Counts ∧ (run actions).given.length = (actions.flatMap inserted).length := by
  induction actions using List.reverseRecOn with
  | nil => exact ⟨counts_new, rfl⟩
  | append_singleton actions last ih =>
    rw [List.flatMap_append, List.length_append] at room
    rw [List.flatMap_append] at short ⊢
    obtain ⟨counts, length⟩ := ih (by omega) fun e member =>
      short e (List.mem_append_left _ member)
    have lasts : [last].flatMap inserted = inserted last := List.flatMap_singleton _ _
    rw [lasts] at room short ⊢
    have next : run (actions ++ [last]) = (run actions).step last := by
      unfold run
      rw [List.foldl_append]
      rfl
    rw [next, given_step, length, List.length_append]
    exact ⟨counts.step (by omega) fun e member => short e (List.mem_append_right _ member), rfl⟩

/-! ## Searches -/

variable {query term : String} {id : UInt32} {tf topK : Nat}

/-- A term is no more frequent than there are documents. -/
theorem Counts.length_le (counts : t.Counts) (term : String) :
    (postingsOf t.inner.index term).length ≤ t.live.length := by
  have within : (postingsOf t.inner.index term).map Prod.fst ⊆ t.live.map Prod.fst := by
    intro id member
    obtain ⟨⟨_, tf⟩, there, rfl⟩ := List.mem_map.mp member
    obtain ⟨e, held, -⟩ := (counts.postings term _ tf).mp there
    exact List.mem_map_of_mem held
  have lengths := (List.subperm_of_subset (counts.once term) within).length_le
  rwa [List.length_map, List.length_map] at lengths

theorem Counts.idf_pos (counts : t.Counts) {postings : List (UInt32 × Nat)}
    (held : t.inner.index.get? term = some postings) : 0 < t.inner.idf postings := by
  have few := counts.length_le term
  unfold postingsOf at few
  rw [held, Option.getD_some] at few
  have cast : (postings.length : ℝ) ≤ t.live.length := Nat.cast_le.mpr few
  have least : (0 : ℝ) ≤ postings.length := Nat.cast_nonneg _
  change 0 < Real.log ((Bm25Numbers.ofCount t.inner.docCount - (postings.length : ℝ) + 1 / 2) /
    ((postings.length : ℝ) + 1 / 2) + 1)
  rw [counts.count_eq]
  refine Real.log_pos ?_
  have share : 0 < ((t.live.length : ℝ) - postings.length + 1 / 2) /
      ((postings.length : ℝ) + 1 / 2) := by
    apply div_pos <;> linarith
  linarith

/-- Where a document has a term, the documents have some length. -/
theorem Counts.avgDl_pos (counts : t.Counts) {e : IndexEntry} (member : (id, e) ∈ t.live)
    (present : term ∈ docTokens e) : 0 < t.inner.avgDl := by
  have own : 0 < ((docTokens e).length : ℝ) := Nat.cast_pos.mpr (List.length_pos_of_mem present)
  have rest : 0 ≤ ((t.live.filter fun doc => doc.1 ≠ id).map fun doc =>
      ((docTokens doc.2).length : ℝ)).sum := by
    refine List.sum_nonneg fun length among => ?_
    obtain ⟨doc, -, rfl⟩ := List.mem_map.mp among
    exact Nat.cast_nonneg _
  have total := ((counts.live_perm member).map fun doc => ((docTokens doc.2).length : ℝ)).sum_eq
  rw [List.map_cons, List.sum_cons] at total
  have some_ : (0 : ℝ) < t.live.length := Nat.cast_pos.mpr (List.length_pos_of_mem member)
  rw [counts.avgDl, total]
  exact div_pos (add_pos_of_pos_of_nonneg own rest) some_

theorem Counts.denom_pos (counts : t.Counts) (member : (id, tf) ∈ postingsOf t.inner.index term)
    (positive : 0 < tf) : ∃ doc, t.inner.docs.get? id = some doc ∧ 0 < t.inner.denom doc tf := by
  obtain ⟨e, there, present, -⟩ := (counts.postings term id tf).mp member
  refine ⟨docMeta e, (counts.docs id _).mpr ⟨e, there, rfl⟩, ?_⟩
  have average := counts.avgDl_pos there present
  have length : (0 : ℝ) ≤ ((docMeta e).docLen.toNat : ℝ) := Nat.cast_nonneg _
  change 0 < (tf : ℝ) + 6 / 5 * (1 - 3 / 4 + 3 / 4 * ((docMeta e).docLen.toNat : ℝ) / t.inner.avgDl)
  have own : (0 : ℝ) < tf := Nat.cast_pos.mpr positive
  have share : 0 ≤ 3 / 4 * ((docMeta e).docLen.toNat : ℝ) / t.inner.avgDl := by positivity
  linarith

/-- A document shares a token with a query. -/
def Shares (query : String) (e : IndexEntry) : Prop :=
  ∃ term ∈ tokenize query, term ∈ docTokens e

omit [CharClasses] [CaseMapping] in
theorem scored_postings {inner : Bm25 ℝ} {idf : ℝ} {postings : List (UInt32 × Nat)}
    (scores : Table UInt32 ℝ) :
    ((postings.foldl (inner.scorePosting idf) scores).get? id).isSome ↔
      (scores.get? id).isSome ∨ id ∈ postings.map Prod.fst ∧ (inner.docs.get? id).isSome := by
  induction postings generalizing scores with
  | nil => simp
  | cons first rest ih =>
    have here : ((inner.scorePosting idf scores first).get? id).isSome ↔
        (scores.get? id).isSome ∨ id = first.1 ∧ (inner.docs.get? id).isSome := by
      unfold scorePosting
      cases held : inner.docs.get? first.1 with
      | none =>
        refine (or_iff_left ?_).symm
        rintro ⟨rfl, there⟩
        rw [held] at there
        cases there
      | some doc =>
        dsimp only
        rw [Table.get?_put]
        split
        · rename_i same
          rw [same, held]
          simp
        · rename_i apart
          simp [apart]
    rw [List.foldl_cons, ih, here, List.map_cons, List.mem_cons]
    tauto

omit [CharClasses] [CaseMapping] in
theorem scored_terms {inner : Bm25 ℝ} (terms : List String) (scores : Table UInt32 ℝ) :
    ((terms.foldl inner.scoreTerm scores).get? id).isSome ↔ (scores.get? id).isSome ∨
      ∃ term ∈ terms, id ∈ (postingsOf inner.index term).map Prod.fst ∧
        (inner.docs.get? id).isSome := by
  induction terms generalizing scores with
  | nil => simp
  | cons first rest ih =>
    have here : ((inner.scoreTerm scores first).get? id).isSome ↔ (scores.get? id).isSome ∨
        id ∈ (postingsOf inner.index first).map Prod.fst ∧ (inner.docs.get? id).isSome := by
      unfold scoreTerm postingsOf
      cases inner.index.get? first with
      | none => simp
      | some postings => exact scored_postings scores
    rw [List.foldl_cons, ih, here, List.exists_mem_cons_iff, or_assoc]

/-- **A document is scored** exactly if it shares a token with the query. -/
theorem Counts.scored_iff (counts : t.Counts) :
    ((t.inner.scores query).get? id).isSome ↔ ∃ e, (id, e) ∈ t.live ∧ Shares query e := by
  unfold scores
  rw [scored_terms]
  constructor
  · rintro (⟨⟨⟩⟩ | ⟨term, among, there, -⟩)
    obtain ⟨⟨_, tf⟩, member, rfl⟩ := List.mem_map.mp there
    obtain ⟨e, held, present, -⟩ := (counts.postings term _ tf).mp member
    exact ⟨e, held, term, among, present⟩
  · rintro ⟨e, held, term, among, present⟩
    refine .inr ⟨term, among, List.mem_map.mpr ⟨_, (counts.postings term id _).mpr
      ⟨e, held, present, rfl⟩, rfl⟩, ?_⟩
    rw [(counts.docs id _).mpr ⟨e, held, rfl⟩]
    rfl

/-! ## Exact statistics -/

/-- The statistics of an index are exactly those of the documents that it was given and that have
not been deleted, and searches rank by them. -/
structure StatisticsExact [LibraryOrders] (t : Tracked) : Prop where
  ids : (t.given.map Prod.fst).Nodup
  among : t.live.Sublist t.given
  docCount : t.inner.docCount.toNat = t.live.length
  avgDl : t.inner.avgDl = if t.live = [] then 0
    else (t.live.map fun doc => ((docTokens doc.2).length : ℝ)).sum / t.live.length
  postings : ∀ term id tf, (id, tf) ∈ postingsOf t.inner.index term ↔
    ∃ e, (id, e) ∈ t.live ∧ term ∈ docTokens e ∧ tf = (docTokens e).count term
  once : ∀ term, ((postingsOf t.inner.index term).map Prod.fst).Nodup
  nonempty : ∀ term, t.inner.index.get? term ≠ some []
  idf : ∀ term postings, t.inner.index.get? term = some postings → 0 < t.inner.idf postings
  denom : ∀ term id tf, (id, tf) ∈ postingsOf t.inner.index term →
    ∃ doc, t.inner.docs.get? id = some doc ∧ 0 < t.inner.denom doc tf
  found : ∀ query topK, ∀ result ∈ t.inner.search query topK,
    ∃ e, (result.1, e) ∈ t.live ∧ Shares query e
  distinct : ∀ query topK, ((t.inner.search query topK).map Prod.fst).Nodup
  omitted : ∀ query topK id e, (id, e) ∈ t.live → Shares query e →
    id ∉ (t.inner.search query topK).map Prod.fst →
      (t.inner.search query topK).length = topK ∧
        ∃ score, (t.inner.scores query).get? id = some score ∧
          ∀ result ∈ t.inner.search query topK, score ≤ result.2

section Searches

variable [LibraryOrders]

/-- The order that the results of a search are in. -/
noncomputable def ranked (t : Tracked) (query : String) : List (UInt32 × ℝ) :=
  (LibraryOrders.hashOrder (t.inner.scores query).entries).mergeSort
    fun a b => !(Bm25Numbers.below a.2 b.2)

theorem ranked_perm (t : Tracked) (query : String) :
    (t.ranked query).Perm (t.inner.scores query).entries :=
  (List.mergeSort_perm _ _).trans (LibraryOrders.hashOrder_perm _)

theorem ranked_sorted (t : Tracked) (query : String) :
    (t.ranked query).Pairwise fun a b => b.2 ≤ a.2 := by
  have order (a b : UInt32 × ℝ) : (!(Bm25Numbers.below a.2 b.2)) = true ↔ b.2 ≤ a.2 := by
    change (!(decide (a.2 < b.2))) = true ↔ _
    rw [Bool.not_eq_true', decide_eq_false_iff_not, not_lt]
  have sorted := @List.pairwise_mergeSort _ (fun a b : UInt32 × ℝ => !(Bm25Numbers.below a.2 b.2))
    (fun a b c first second => by
      rw [order] at first second ⊢
      exact second.trans first)
    (fun a b => by
      rw [Bool.or_eq_true, order, order]
      exact le_total _ _)
    (LibraryOrders.hashOrder (t.inner.scores query).entries)
  exact sorted.imp fun held => (order _ _).mp held

theorem search_eq (counts : t.Counts) (query : String) (topK : Nat) :
    t.inner.search query topK = if t.live = [] then [] else (t.ranked query).take topK := by
  have zero : Bm25Numbers.isZero (Bm25Numbers.ofCount t.inner.docCount : ℝ) = true ↔
      t.live = [] := by
    change decide (_ = (0 : ℝ)) = true ↔ _
    rw [decide_eq_true_eq, counts.count_eq, Nat.cast_eq_zero, List.length_eq_zero_iff]
  unfold Bm25.search
  by_cases none_ : t.live = []
  · rw [if_pos (zero.mpr none_), if_pos none_]
  · rw [if_neg (zero.not.mpr none_), if_neg none_]
    rfl

theorem Counts.sublist_ranked (counts : t.Counts) (query : String) (topK : Nat) :
    (t.inner.search query topK).Sublist (t.ranked query) := by
  rw [search_eq counts]
  split
  · exact List.nil_sublist _
  · exact List.take_sublist _ _

/-- **Only documents that share a token** with a query are found. -/
theorem Counts.found (counts : t.Counts) {result : UInt32 × ℝ}
    (member : result ∈ t.inner.search query topK) :
    ∃ e, (result.1, e) ∈ t.live ∧ Shares query e := by
  have ranked := (t.ranked_perm query).mem_iff.mp ((counts.sublist_ranked query topK).subset member)
  rw [← counts.scored_iff, Table.get?_eq_some_iff.mpr ranked]
  rfl

theorem Counts.distinct (counts : t.Counts) :
    ((t.inner.search query topK).map Prod.fst).Nodup :=
  (((t.ranked_perm query).map Prod.fst).nodup_iff.mpr (Table.distinct _)).sublist
    ((counts.sublist_ranked query topK).map _)

/-- **A document that shares a token** with a query is left out only for better ones. -/
theorem Counts.omitted (counts : t.Counts) (member : (id, e) ∈ t.live) (shares : Shares query e)
    (out : id ∉ (t.inner.search query topK).map Prod.fst) :
    (t.inner.search query topK).length = topK ∧
      ∃ score, (t.inner.scores query).get? id = some score ∧
        ∀ result ∈ t.inner.search query topK, score ≤ result.2 := by
  obtain ⟨score, scored⟩ := Option.isSome_iff_exists.mp (counts.scored_iff.mpr ⟨e, member, shares⟩)
  rw [search_eq counts, if_neg (List.ne_nil_of_mem member)] at out ⊢
  have ranked : (id, score) ∈ t.ranked query :=
    (t.ranked_perm query).mem_iff.mpr (Table.get?_eq_some_iff.mp scored)
  have sorted := t.ranked_sorted query
  rw [← List.take_append_drop topK (t.ranked query)] at ranked sorted
  rcases List.mem_append.mp ranked with above | below
  · exact absurd (List.mem_map_of_mem above) out
  · refine ⟨?_, score, scored, fun result kept => ?_⟩
    · have room := List.length_pos_of_mem below
      rw [List.length_drop] at room
      rw [List.length_take]
      omega
    · exact (List.pairwise_append.mp sorted).2.2 result kept _ below

/-- The statistics that are counted are exact where the frequencies fit in their fields. -/
theorem Counts.exact (counts : t.Counts)
    (fits : ∀ doc ∈ t.live, FitsFields doc.2) : t.StatisticsExact := by
  have postings (term : String) (id : UInt32) (tf : Nat) :
      (id, tf) ∈ postingsOf t.inner.index term ↔
        ∃ e, (id, e) ∈ t.live ∧ term ∈ docTokens e ∧ tf = (docTokens e).count term := by
    rw [counts.postings]
    refine exists_congr fun e => and_congr_right fun member => and_congr_right fun present => ?_
    rw [(fits _ member).frequency term present]
  exact
    { ids := counts.ids_nodup
      among := counts.live
      docCount := by
        rw [counts.docCount, UInt32.toNat_ofNat', Nat.mod_eq_of_lt counts.live_few]
      avgDl := by
        rw [counts.avgDl]
        split
        · rename_i none_
          rw [none_]
          exact zero_div _
        · rfl
      postings
      once := counts.once
      nonempty := counts.nonempty
      idf := fun term postings held => counts.idf_pos held
      denom := fun term id tf member => by
        obtain ⟨e, -, present, rfl⟩ := (postings term id tf).mp member
        exact counts.denom_pos member (List.count_pos_iff.mpr present)
      found := fun query topK result member => counts.found member
      distinct := fun query topK => counts.distinct
      omitted := fun query topK id e member shares out => counts.omitted member shares out }

theorem live_inserted {actions : List Bm25Action} {doc : UInt32 × IndexEntry}
    (member : doc ∈ (run actions).given) : doc.2 ∈ actions.flatMap inserted := by
  induction actions using List.reverseRecOn with
  | nil => cases member
  | append_singleton actions last ih =>
    have next : run (actions ++ [last]) = (run actions).step last := by
      unfold run
      rw [List.foldl_append]
      rfl
    rw [next] at member
    rw [List.flatMap_append, List.flatMap_singleton, List.mem_append]
    cases last with
    | insert entries =>
      suffices all : ∀ t : Tracked, doc ∈ (t.insert entries).given →
          doc ∈ t.given ∨ doc.2 ∈ entries from (all _ member).imp_left ih
      clear member next ih
      induction entries with
      | nil => exact fun t member => .inl member
      | cons first rest ih =>
        intro t member
        rcases ih (t.add first) member with old | new
        · rcases List.mem_append.mp old with old | here
          · exact .inl old
          · rw [List.mem_singleton.mp here]
            exact .inr List.mem_cons_self
        · exact .inr (List.mem_cons_of_mem _ new)
    | deleteByUri uri => exact .inl (ih member)
    | reopen => exact .inl (ih member)

/-- **The statistics stay exact** in every run that inserts fewer than four billion documents,
each of which fits in its fields. -/
theorem statistics_exact (actions : List Bm25Action)
    (few : (actions.flatMap inserted).length < 2 ^ 32)
    (fits : ∀ e ∈ actions.flatMap inserted, FitsFields e) : (run actions).StatisticsExact := by
  obtain ⟨counts, -⟩ := counts_run few fun e member => (fits e member).length
  exact counts.exact fun doc member => fits _ (live_inserted (counts.live.subset member))

end Searches

end Tracked

end Documents

/-! ## A run, and a frequent word -/

namespace Bm25Statistics

scoped instance keptOrder : LibraryOrders where
  selectNth _ _ items := items
  selectNth_perm _ _ items := List.Perm.refl items
  hashOrder items := items
  hashOrder_perm items := List.Perm.refl items

scoped instance asciiClasses : CharClasses := ⟨Char.isAlphanum⟩

scoped instance asciiCase : CaseMapping where
  toLowercase value := String.ofList (value.toList.map Char.toLower)

def note (uri text : String) : IndexEntry :=
  ⟨uri, text, 0, [], none, none, [], [], none, none, none⟩

def notes : List Bm25Action :=
  [.insert [note "a" "graph graph store", note "b" ""], .reopen, .deleteByUri "a",
    .insert [note "a" "store"]]

end Bm25Statistics

open Bm25Statistics in
/-- Notes are indexed, and one of them is replaced after the index was opened again. -/
theorem Tracked.notes_exact : (Tracked.run notes).StatisticsExact := by
  refine Tracked.statistics_exact notes (by decide) fun e member => ?_
  have each : ∀ e ∈ notes.flatMap Tracked.inserted, (docTokens e).length < 2 ^ 32 ∧
      ∀ term ∈ docTokens e, asFloat32 ((docTokens e).count term) = (docTokens e).count term := by
    decide
  exact ⟨(each e member).1, (each e member).2⟩

namespace Bm25Statistics

/-- A word, many times over. -/
def repeated (times : Nat) : String :=
  String.ofList ((List.replicate times ['a', 'a', ' ']).flatten)

theorem tokenize_repeated (times : Nat) :
    tokenize (repeated times) = List.replicate times "aa" := by
  have letters : ∀ c ∈ ['a', 'a'], (!CharClasses.isAlphanumeric c) = false := by
    intro c member
    obtain rfl : c = 'a' := List.eq_of_mem_replicate (n := 2) member
    rfl
  have pieces : (repeated times).toList.splitOnP (fun c => !CharClasses.isAlphanumeric c) =
      List.replicate times ['a', 'a'] ++ [[]] := by
    unfold repeated
    rw [String.toList_ofList]
    induction times with
    | zero => rfl
    | succ times ih =>
      rw [List.replicate_succ, List.flatten_cons, List.replicate_succ]
      change List.splitOnP _ (['a', 'a'] ++ ' ' :: _) = ['a', 'a'] :: (_ ++ _)
      rw [← ih]
      exact List.splitOnP_append_cons_of_forall_mem letters ' ' rfl _
  have long : decide (2 ≤ (String.ofList ['a', 'a']).utf8ByteSize) = true := by decide +kernel
  have empty : decide (2 ≤ (String.ofList []).utf8ByteSize) = false := by decide +kernel
  unfold tokenize
  rw [pieces]
  dsimp only
  rw [List.filter_append, List.filter_replicate, if_pos long, List.filter_singleton, empty]
  change (List.replicate times ['a', 'a'] ++ []).map _ = _
  rw [List.append_nil, List.map_replicate]
  rfl

def often : IndexEntry := note "a" (repeated (2 ^ 24 + 1))

end Bm25Statistics

open Bm25Statistics in
/-- A word that occurs once more than there are numbers of twenty-four bits is counted once too
few. -/
theorem Tracked.word_undercounted :
    ¬ (Tracked.run [.insert [often]]).StatisticsExact := by
  intro exact
  have tokens : docTokens often = List.replicate (2 ^ 24 + 1) "aa" :=
    tokenize_repeated (2 ^ 24 + 1)
  have length : (docTokens often).length < 2 ^ 32 := by
    rw [tokens, List.length_replicate]
    decide
  have counts : (Tracked.run [.insert [often]]).Counts :=
    Tracked.counts_new.add (by decide) length
  have member : (0, often) ∈ (Tracked.run [.insert [often]]).live := List.mem_cons_self
  have present : "aa" ∈ docTokens often := by
    rw [tokens]
    exact List.mem_replicate.mpr ⟨by decide, rfl⟩
  have kept := (counts.postings "aa" 0 _).mpr ⟨often, member, present, rfl⟩
  obtain ⟨e, held, -, same⟩ := (exact.postings "aa" 0 _).mp kept
  have here : e = often := congrArg Prod.snd (List.mem_singleton.mp held)
  rw [here] at same
  change asFloat32 ((docTokens often).count "aa") = (docTokens often).count "aa" at same
  rw [tokens, List.count_replicate_self] at same
  exact absurd same (by decide +kernel)

end Bm25

end OpenMemory.Index
