import OpenMemory.Foundation.TopRanked
import OpenMemory.Index.Hybrid

/-!
# Rank fusion

Two ranked lists are fused by the ranks of their results: a list gives a result its weight
over a number that grows with the rank, and what the lists give is added up. The fusion is
stated here for any numbers. With the numbers of the machine it is that of the search engine,
and with rational numbers its scores are exact.
-/

namespace OpenMemory.Index.RankFusion

open Foundation

/-! ## The fusion -/

section Fusion

variable {S : Type} [OfNat S 1] [Add S] [Sub S] [Mul S] [Div S]

/-- A result adds its share to the score of its key. The first result of a key is the one
that is shown. -/
def addShare (ofRank : Nat → S) (weight rrfK : S) (scores : Table EntryKey (SearchResult × S))
    (ranked : SearchResult × Nat) : Table EntryKey (SearchResult × S) :=
  let (r, rank) := ranked
  let s := weight / (rrfK + ofRank rank + 1)
  match scores.get? r.key with
  | some (base, score) => scores.put r.key (base, score + s)
  | none => scores.put r.key (r, s)

/-- The results of one list. -/
def addShares (ofRank : Nat → S) (weight rrfK : S) (scores : Table EntryKey (SearchResult × S))
    (results : List SearchResult) : Table EntryKey (SearchResult × S) :=
  results.zipIdx.foldl (addShare ofRank weight rrfK) scores

/-- The scores of both lists. -/
def scores (ofRank : Nat → S) (vector keyword : List SearchResult) (alpha rrfK : S) :
    Table EntryKey (SearchResult × S) :=
  addShares ofRank (1 - alpha) rrfK (addShares ofRank alpha rrfK .empty vector) keyword

/-- The results with their normalised scores, in the order of a hash map. -/
def fused (hashOrder : List (EntryKey × SearchResult × S) → List (EntryKey × SearchResult × S))
    (ofRank : Nat → S) (vector keyword : List SearchResult) (alpha rrfK : S) :
    List (SearchResult × S) :=
  (hashOrder (scores ofRank vector keyword alpha rrfK).entries).map fun (_, base, score) =>
    (base, score * (rrfK + 1))

end Fusion

theorem addShares_eq (weight rrfK : Float32) (scores : Table EntryKey (SearchResult × Float32))
    (results : List SearchResult) : HybridSearchEngine.addShares weight rrfK scores results =
      addShares Float32.ofNat weight rrfK scores results := by
  unfold HybridSearchEngine.addShares addShares
  apply congrArg fun step => List.foldl step scores results.zipIdx
  funext scores ranked
  obtain ⟨r, rank⟩ := ranked
  unfold addShare
  dsimp only
  cases scores.get? r.key with
  | none => rfl
  | some pair => rfl

/-- The fusion of the search engine is this one, with the numbers of the machine. -/
theorem rrfFuse_eq [LibraryOrders] (vector keyword : List SearchResult) (alpha rrfK : Float32)
    (topK : Nat) : HybridSearchEngine.rrfFuse vector keyword alpha rrfK topK =
      (topRanked LibraryOrders.selectNth (notBelow Prod.snd) topK
        (fused LibraryOrders.hashOrder Float32.ofNat vector keyword alpha rrfK)).map
          fun (base, score) => { base with score := ofFloat32 score } := by
  unfold HybridSearchEngine.rrfFuse fused scores
  rw [addShares_eq, addShares_eq]
  rfl

/-! ## Exact scores -/

/-- The share that a list gives a result by its rank. -/
def share (weight rrfK : ℚ) : Option Nat → ℚ
  | none => 0
  | some rank => weight / (rrfK + rank + 1)

/-- The rank of a key in a list. -/
def rankIn (results : List SearchResult) (key : EntryKey) : Option Nat :=
  results.findIdx? fun r => decide (r.key = key)

def rrfScore (vector keyword : List SearchResult) (alpha rrfK : ℚ) (key : EntryKey) : ℚ :=
  (rrfK + 1) * (share alpha rrfK (rankIn vector key) + share (1 - alpha) rrfK (rankIn keyword key))

/-- The result that is shown for a key: the first one of it. -/
def shown (vector keyword : List SearchResult) (key : EntryKey) : Option SearchResult :=
  (vector ++ keyword).find? fun r => decide (r.key = key)

/-- The keys of both lists. -/
def unionKeys (vector keyword : List SearchResult) : List EntryKey :=
  ((vector ++ keyword).map SearchResult.key).dedup

variable {vector keyword results rest : List SearchResult} {alpha rrfK weight : ℚ} {key : EntryKey}
  {topK : Nat} {first : SearchResult}

theorem rankIn_eq_none : rankIn results key = none ↔ key ∉ results.map SearchResult.key := by
  rw [rankIn, List.findIdx?_eq_none_iff, List.mem_map]
  simp only [decide_eq_false_iff_not, not_exists, not_and]

theorem rankIn_cons : rankIn (first :: rest) key =
    if first.key = key then some 0 else (rankIn rest key).map (· + 1) := by
  rw [rankIn, List.findIdx?_cons]
  simp only [decide_eq_true_eq]
  rfl

/-- The numbers of the ranks. -/
abbrev exactly : Nat → ℚ := fun rank => rank

theorem get?_addShare {rank : Nat} {table : Table EntryKey (SearchResult × ℚ)} :
    (addShare exactly weight rrfK table (first, rank)).get? key =
      if first.key = key then match table.get? key with
        | some (base, score) => some (base, score + share weight rrfK (some rank))
        | none => some (first, share weight rrfK (some rank))
      else table.get? key := by
  unfold addShare
  dsimp only
  by_cases here : first.key = key
  · subst here
    rw [if_pos rfl]
    cases table.get? first.key with
    | none => exact Table.get?_put.trans (if_pos rfl)
    | some pair => exact Table.get?_put.trans (if_pos rfl)
  · rw [if_neg here]
    have other : key ≠ first.key := fun same => here same.symm
    split <;> exact Table.get?_put.trans (if_neg other)

theorem get?_sharesFrom (distinct : (results.map SearchResult.key).Nodup) (start : Nat)
    (table : Table EntryKey (SearchResult × ℚ)) :
    ((results.zipIdx start).foldl (addShare exactly weight rrfK) table).get? key =
      match rankIn results key with
      | none => table.get? key
      | some rank => match table.get? key with
        | some (base, score) => some (base, score + share weight rrfK (some (rank + start)))
        | none => (results[rank]?).map fun r => (r, share weight rrfK (some (rank + start))) := by
  induction results generalizing start table with
  | nil => rfl
  | cons first rest ih =>
    obtain ⟨fresh, distinct⟩ := List.nodup_cons.mp distinct
    rw [List.zipIdx_cons, List.foldl_cons, ih distinct, get?_addShare, rankIn_cons]
    by_cases here : first.key = key
    · subst here
      have unranked : rankIn rest first.key = none := rankIn_eq_none.mpr fresh
      rw [unranked, if_pos rfl, if_pos rfl]
      dsimp only
      rw [Nat.zero_add]
      rfl
    · rw [if_neg here, if_neg here]
      cases rankIn rest key with
      | none => rfl
      | some rank =>
        have later : rank + (start + 1) = rank + 1 + start := by omega
        simp only [Option.map_some, later, List.getElem?_cons_succ]

/-- What a list adds to the scores. -/
theorem get?_addShares (distinct : (results.map SearchResult.key).Nodup)
    (table : Table EntryKey (SearchResult × ℚ)) :
    (addShares exactly weight rrfK table results).get? key =
      match rankIn results key with
      | none => table.get? key
      | some rank => match table.get? key with
        | some (base, score) => some (base, score + share weight rrfK (some rank))
        | none => (results[rank]?).map fun r => (r, share weight rrfK (some rank)) :=
  get?_sharesFrom distinct 0 table

theorem getElem?_rankIn {rank : Nat} (ranked : rankIn results key = some rank) :
    results[rank]? = results.find? fun r => decide (r.key = key) := by
  obtain ⟨inside, matches_, before⟩ := List.findIdx?_eq_some_iff_getElem.mp ranked
  rw [List.getElem?_eq_getElem inside, eq_comm, List.find?_eq_some_iff_getElem]
  exact ⟨matches_, rank, inside, rfl, fun index early => by simpa using before index early⟩

theorem find?_of_rankIn_none (unranked : rankIn results key = none) :
    (results.find? fun r => decide (r.key = key)) = none := by
  rw [List.find?_eq_none]
  intro r member
  rw [decide_eq_true_eq]
  exact fun same => rankIn_eq_none.mp unranked (same ▸ List.mem_map_of_mem member)

/-- **The scores** of the fusion, before they are normalised. -/
theorem get?_scores (vectors : (vector.map SearchResult.key).Nodup)
    (keywords : (keyword.map SearchResult.key).Nodup) :
    (scores exactly vector keyword alpha rrfK).get? key =
      (shown vector keyword key).map fun r => (r, share alpha rrfK (rankIn vector key) +
        share (1 - alpha) rrfK (rankIn keyword key)) := by
  unfold scores shown
  rw [get?_addShares keywords, get?_addShares vectors, List.find?_append]
  have empty : (Table.empty : Table EntryKey (SearchResult × ℚ)).get? key = none := rfl
  rw [empty]
  cases left : rankIn vector key with
  | none =>
    rw [find?_of_rankIn_none left, Option.none_or]
    cases right : rankIn keyword key with
    | none =>
      rw [find?_of_rankIn_none right]
      rfl
    | some rank =>
      dsimp only
      rw [getElem?_rankIn right]
      simp only [share, zero_add]
  | some rank =>
    dsimp only
    rw [getElem?_rankIn left]
    obtain ⟨inside, matches_, -⟩ := List.findIdx?_eq_some_iff_getElem.mp left
    have found : (vector.find? fun r => decide (r.key = key)) = some vector[rank] := by
      rw [← getElem?_rankIn left, List.getElem?_eq_getElem inside]
    rw [found]
    cases right : rankIn keyword key with
    | none => simp [share]
    | some other => simp

theorem shown_eq_none : shown vector keyword key = none ↔ key ∉ unionKeys vector keyword := by
  rw [shown, unionKeys, List.mem_dedup, List.find?_eq_none, List.mem_map]
  simp only [decide_eq_true_eq, not_exists, not_and]

theorem shown_key {r : SearchResult} (found : shown vector keyword key = some r) :
    r.key = key := by
  have held := List.find?_some found
  exact of_decide_eq_true held

/-- A hash map yields all its entries, in some order. -/
structure HashOrder where
  run : List (EntryKey × SearchResult × ℚ) → List (EntryKey × SearchResult × ℚ)
  perm (entries : List (EntryKey × SearchResult × ℚ)) : (run entries).Perm entries

/-- The fused results with exact scores. -/
def fusedExactly (order : HashOrder) (vector keyword : List SearchResult) (alpha rrfK : ℚ) :
    List (SearchResult × ℚ) :=
  fused order.run exactly vector keyword alpha rrfK

/-- `rrf_fuse` with exact scores. -/
def rrfFuse (order : HashOrder) (selection : Selection) (vector keyword : List SearchResult)
    (alpha rrfK : ℚ) (topK : Nat) : List (SearchResult × ℚ) :=
  selection.page Prod.snd topK (fusedExactly order vector keyword alpha rrfK)

/-- What is fused: an entry for each key, with its score. -/
theorem mem_fusedExactly {order : HashOrder} {r : SearchResult} {score : ℚ}
    (vectors : (vector.map SearchResult.key).Nodup)
    (keywords : (keyword.map SearchResult.key).Nodup) :
    (r, score) ∈ fusedExactly order vector keyword alpha rrfK ↔
      shown vector keyword r.key = some r ∧ score = rrfScore vector keyword alpha rrfK r.key := by
  unfold fusedExactly fused rrfScore
  rw [List.mem_map]
  constructor
  · rintro ⟨⟨key, base, raw⟩, member, same⟩
    obtain ⟨rfl, rfl⟩ := Prod.mk.inj same
    have held := Table.get?_eq_some_iff.mpr ((order.perm _).mem_iff.mp member)
    rw [get?_scores vectors keywords, Option.map_eq_some_iff] at held
    obtain ⟨base', found, same⟩ := held
    obtain ⟨rfl, rfl⟩ := Prod.mk.inj same
    rw [shown_key found]
    exact ⟨found, mul_comm _ _⟩
  · rintro ⟨found, rfl⟩
    refine ⟨(r.key, r, share alpha rrfK (rankIn vector r.key) +
      share (1 - alpha) rrfK (rankIn keyword r.key)), ?_, ?_⟩
    · refine (order.perm _).mem_iff.mpr (Table.get?_eq_some_iff.mp ?_)
      rw [get?_scores vectors keywords, found, Option.map_some]
    · dsimp only
      rw [mul_comm]

theorem fusedExactly_keys_nodup (order : HashOrder) (alpha rrfK : ℚ) (vectors : (vector.map SearchResult.key).Nodup)
    (keywords : (keyword.map SearchResult.key).Nodup) :
    ((fusedExactly order vector keyword alpha rrfK).map fun entry => entry.1.key).Nodup := by
  have same : ((fusedExactly order vector keyword alpha rrfK).map fun entry => entry.1.key) =
      (order.run (scores exactly vector keyword alpha rrfK).entries).map Prod.fst := by
    unfold fusedExactly fused
    rw [List.map_map]
    refine List.map_congr_left fun entry member => ?_
    have held := Table.get?_eq_some_iff.mpr ((order.perm _).mem_iff.mp member)
    rw [get?_scores vectors keywords, Option.map_eq_some_iff] at held
    obtain ⟨base, found, same⟩ := held
    change entry.2.1.key = entry.1
    rw [← same]
    exact shown_key found
  rw [same, ((order.perm _).map _).nodup_iff]
  exact (scores exactly vector keyword alpha rrfK).distinct

theorem fusedExactly_keys_perm (order : HashOrder) (alpha rrfK : ℚ)
    (vectors : (vector.map SearchResult.key).Nodup) (keywords : (keyword.map SearchResult.key).Nodup) :
    ((fusedExactly order vector keyword alpha rrfK).map fun entry => entry.1.key).Perm
      (unionKeys vector keyword) := by
  refine (List.perm_ext_iff_of_nodup (fusedExactly_keys_nodup order alpha rrfK vectors keywords)
    (List.nodup_dedup _)).mpr fun key => ?_
  rw [List.mem_map]
  constructor
  · rintro ⟨⟨r, score⟩, member, rfl⟩
    have found := ((mem_fusedExactly vectors keywords).mp member).1
    by_contra outside
    cases found.symm.trans (shown_eq_none.mpr outside)
  · intro within
    cases found : shown vector keyword key with
    | none => exact absurd within (shown_eq_none.mp found)
    | some r =>
      have same := shown_key found
      subst same
      exact ⟨(r, _), (mem_fusedExactly vectors keywords).mpr ⟨found, rfl⟩, rfl⟩

end OpenMemory.Index.RankFusion
