import OpenMemory.Index.RankFusion

/-!
# Fused ranks

With exact scores a fusion returns the best keys of both lists, best first. Which keys it
returns, and in which order, is left to the hash map where two of them have the same score.
Such ties are common: at even weights the first result of the one list and the first of the
other have the same score. A page is the same for every order of the map exactly where no
two keys that could be on it are tied.
-/

namespace OpenMemory.Index.RankFusion

open Foundation

variable {vector keyword vector' keyword' : List SearchResult} {alpha rrfK weight : ℚ}
  {key other : EntryKey} {topK : Nat} {order order' : HashOrder} {selection : Selection}
  {entry : SearchResult × ℚ}

/-! ## Shares -/

theorem share_nonneg (weighted : 0 ≤ weight) (positive : 0 < rrfK) (rank : Option Nat) :
    0 ≤ share weight rrfK rank := by
  cases rank with
  | none => exact le_rfl
  | some rank =>
    unfold share
    positivity

theorem share_le (weighted : 0 ≤ weight) (positive : 0 < rrfK) (rank : Option Nat) :
    (rrfK + 1) * share weight rrfK rank ≤ weight := by
  cases rank with
  | none =>
    rw [share, mul_zero]
    exact weighted
  | some rank =>
    have below : rrfK + 1 ≤ rrfK + rank + 1 := by
      have least : (0 : ℚ) ≤ rank := Nat.cast_nonneg rank
      linarith
    have whole : 0 < rrfK + rank + 1 := by positivity
    rw [share, mul_div_assoc', div_le_iff₀ whole, mul_comm]
    exact mul_le_mul_of_nonneg_left below weighted

/-- A better rank gives at least as large a share. -/
theorem share_antitone (weighted : 0 ≤ weight) (positive : 0 < rrfK) {better worse : Nat}
    (before : better ≤ worse) : share weight rrfK (some worse) ≤ share weight rrfK (some better) := by
  have cast : (better : ℚ) ≤ worse := Nat.cast_le.mpr before
  have whole : 0 < rrfK + better + 1 := by positivity
  exact div_le_div_of_nonneg_left weighted whole (by linarith)

theorem share_strictAnti (weighted : 0 < weight) (positive : 0 < rrfK) {better worse : Nat}
    (before : better < worse) : share weight rrfK (some worse) < share weight rrfK (some better) := by
  have cast : (better : ℚ) < worse := Nat.cast_lt.mpr before
  have whole : 0 < rrfK + better + 1 := by positivity
  exact div_lt_div_of_pos_left weighted whole (by linarith)

theorem share_zero (rank : Option Nat) : share 0 rrfK rank = 0 := by
  cases rank with
  | none => rfl
  | some rank => exact zero_div _

theorem rrfScore_bounds (positive : 0 < rrfK) (bounds : 0 ≤ alpha ∧ alpha ≤ 1) (key : EntryKey) :
    0 ≤ rrfScore vector keyword alpha rrfK key ∧ rrfScore vector keyword alpha rrfK key ≤ 1 := by
  have rest := sub_nonneg.mpr bounds.2
  have left := share_le bounds.1 positive (rankIn vector key)
  have right := share_le rest positive (rankIn keyword key)
  have whole : 0 < rrfK + 1 := by positivity
  refine ⟨mul_nonneg whole.le (add_nonneg (share_nonneg bounds.1 positive _)
    (share_nonneg rest positive _)), ?_⟩
  rw [rrfScore, mul_add]
  linarith

/-! ## A better rank -/

/-- A result moves up in a list, and the results that it passes move down. -/
def MovesUp (key : EntryKey) (before after : List SearchResult) : Prop :=
  ∃ front passed r back, passed ≠ [] ∧ r.key = key ∧ before = front ++ (passed ++ r :: back) ∧
    after = front ++ r :: (passed ++ back)

theorem rankIn_append {first second : List SearchResult} : rankIn (first ++ second) key =
    (rankIn first key).or ((rankIn second key).map (· + first.length)) :=
  List.findIdx?_append

theorem MovesUp.perm {before after : List SearchResult} (moved : MovesUp key before after) :
    after.Perm before := by
  obtain ⟨front, passed, r, back, -, -, rfl, rfl⟩ := moved
  exact List.perm_middle.symm.append_left front

/-- The moved result has a better rank. -/
theorem MovesUp.itself {before after : List SearchResult} (moved : MovesUp key before after)
    (distinct : (before.map SearchResult.key).Nodup) : ∃ better worse, better < worse ∧
      rankIn after key = some better ∧ rankIn before key = some worse := by
  obtain ⟨front, passed, r, back, some_, rfl, rfl, rfl⟩ := moved
  rw [List.map_append, List.map_append, List.map_cons, List.nodup_append] at distinct
  obtain ⟨-, tail, apart⟩ := distinct
  have outside : rankIn front r.key = none := rankIn_eq_none.mpr fun member =>
    apart _ member _ (List.mem_append_right _ List.mem_cons_self) rfl
  have unpassed : rankIn passed r.key = none := rankIn_eq_none.mpr fun member =>
    (List.nodup_append.mp tail).2.2 _ member _ List.mem_cons_self rfl
  refine ⟨0 + front.length, 0 + passed.length + front.length, ?_, ?_, ?_⟩
  · have many := List.length_pos_iff.mpr some_
    omega
  · rw [rankIn_append, outside, rankIn_cons, if_pos rfl]
    rfl
  · rw [rankIn_append, outside, rankIn_append, unpassed, rankIn_cons, if_pos rfl]
    rfl

/-- No other result has. -/
theorem MovesUp.others {before after : List SearchResult} (moved : MovesUp key before after)
    (apart : other ≠ key) : rankIn after other = none ∧ rankIn before other = none ∨
      ∃ better worse, better ≤ worse ∧ rankIn before other = some better ∧
        rankIn after other = some worse := by
  obtain ⟨front, passed, r, back, -, rfl, rfl, rfl⟩ := moved
  rw [rankIn_append, rankIn_append, rankIn_cons, if_neg apart.symm, rankIn_append, rankIn_append,
    rankIn_cons, if_neg apart.symm]
  cases rankIn front other with
  | some rank => exact .inr ⟨rank, rank, le_rfl, rfl, rfl⟩
  | none => cases rankIn passed other with
    | some rank => exact .inr ⟨rank + front.length, rank + 1 + front.length, by omega, rfl, rfl⟩
    | none => cases rankIn back other with
      | none => exact .inl ⟨rfl, rfl⟩
      | some rank =>
        exact .inr ⟨rank + 1 + passed.length + front.length,
          rank + passed.length + 1 + front.length, by omega, rfl, rfl⟩

theorem MovesUp.share_lt {before after : List SearchResult} (moved : MovesUp key before after)
    (distinct : (before.map SearchResult.key).Nodup) (weighted : 0 < weight) (positive : 0 < rrfK) :
    share weight rrfK (rankIn before key) < share weight rrfK (rankIn after key) := by
  obtain ⟨better, worse, less, now, then_⟩ := moved.itself distinct
  rw [now, then_]
  exact share_strictAnti weighted positive less

theorem MovesUp.share_le {before after : List SearchResult} (moved : MovesUp key before after)
    (apart : other ≠ key) (weighted : 0 ≤ weight) (positive : 0 < rrfK) :
    share weight rrfK (rankIn after other) ≤ share weight rrfK (rankIn before other) := by
  rcases moved.others apart with ⟨now, then_⟩ | ⟨better, worse, less, then_, now⟩
  · rw [now, then_]
  · rw [now, then_]
    exact share_antitone weighted positive less

/-! ## Scores and places -/

/-- No two keys that could be on a page have the same score. -/
def Untied (vector keyword : List SearchResult) (alpha rrfK : ℚ) (topK : Nat) : Prop :=
  ∀ left ∈ unionKeys vector keyword, ∀ right ∈ unionKeys vector keyword,
    rrfScore vector keyword alpha rrfK left = rrfScore vector keyword alpha rrfK right →
      ((unionKeys vector keyword).countP fun key => decide
        (rrfScore vector keyword alpha rrfK left < rrfScore vector keyword alpha rrfK key)) < topK →
        left = right

instance : Decidable (Untied vector keyword alpha rrfK topK) :=
  inferInstanceAs (Decidable (∀ left ∈ unionKeys vector keyword,
    ∀ right ∈ unionKeys vector keyword, _ → _ → _))

section Counting

variable (vectors : (vector.map SearchResult.key).Nodup)
  (keywords : (keyword.map SearchResult.key).Nodup)

include vectors keywords

/-- What is counted on the fused list is counted on the keys. -/
theorem countP_fused (counts : ℚ → Bool) :
    (fusedExactly order vector keyword alpha rrfK).countP (fun entry => counts entry.2) =
      (unionKeys vector keyword).countP fun key =>
        counts (rrfScore vector keyword alpha rrfK key) := by
  rw [← (fusedExactly_keys_perm order alpha rrfK vectors keywords).countP_eq, List.countP_map]
  refine List.countP_congr fun entry member => ?_
  rw [((mem_fusedExactly vectors keywords).mp member).2]
  rfl

variable (alpha rrfK order) in
/-- A key is fused into one entry. -/
theorem entry_of_key (within : key ∈ unionKeys vector keyword) :
    ∃ entry ∈ fusedExactly order vector keyword alpha rrfK, entry.1.key = key ∧
      entry.2 = rrfScore vector keyword alpha rrfK key := by
  obtain ⟨entry, member, rfl⟩ := List.mem_map.mp
    ((fusedExactly_keys_perm order alpha rrfK vectors keywords).mem_iff.mpr within)
  exact ⟨entry, member, rfl, ((mem_fusedExactly vectors keywords).mp member).2⟩

theorem key_of_entry (member : entry ∈ fusedExactly order vector keyword alpha rrfK) :
    entry.1.key ∈ unionKeys vector keyword :=
  (fusedExactly_keys_perm order alpha rrfK vectors keywords).mem_iff.mp (List.mem_map_of_mem member)

theorem fusedExactly_nodup : (fusedExactly order vector keyword alpha rrfK).Nodup :=
  List.Nodup.of_map _ (fusedExactly_keys_nodup order alpha rrfK vectors keywords)

theorem above_fused (entry : SearchResult × ℚ) :
    above Prod.snd (fusedExactly order vector keyword alpha rrfK) entry =
      (unionKeys vector keyword).countP fun key => decide
        (entry.2 < rrfScore vector keyword alpha rrfK key) :=
  countP_fused vectors keywords fun score => decide (entry.2 < score)

theorem upTo_fused (entry : SearchResult × ℚ) :
    upTo Prod.snd (fusedExactly order vector keyword alpha rrfK) entry =
      (unionKeys vector keyword).countP fun key => decide
        (entry.2 ≤ rrfScore vector keyword alpha rrfK key) :=
  countP_fused vectors keywords fun score => decide (entry.2 ≤ score)

theorem settled_iff : Settled Prod.snd topK (fusedExactly order vector keyword alpha rrfK) ↔
    Untied vector keyword alpha rrfK topK := by
  constructor
  · intro settled left leftKey right rightKey tied few
    obtain ⟨first, here, rfl, score⟩ := entry_of_key alpha rrfK order vectors keywords leftKey
    obtain ⟨second, there, rfl, score'⟩ := entry_of_key alpha rrfK order vectors keywords rightKey
    rw [← score] at few
    have same := settled first here second there (by rw [score, score', tied])
      (by rwa [above_fused vectors keywords])
    rw [same]
  · intro untied first here second there tied few
    have first_ := (mem_fusedExactly vectors keywords).mp here
    have second_ := (mem_fusedExactly vectors keywords).mp there
    rw [above_fused vectors keywords, first_.2] at few
    have same := untied _ (key_of_entry vectors keywords here) _
      (key_of_entry vectors keywords there) (by rw [← first_.2, ← second_.2, tied]) few
    have result : first.1 = second.1 := by
      have found := first_.1
      rw [same, second_.1] at found
      exact (Option.some.inj found).symm
    exact Prod.ext result tied

/-- What is on a page has a place there. -/
theorem key_of_place {place : Nat} (some_ : 0 < topK)
    (placed : (rrfFuse order selection vector keyword alpha rrfK topK)[place]?.map
      (fun entry => entry.1.key) = some key) :
    key ∈ unionKeys vector keyword ∧ ((unionKeys vector keyword).countP fun other => decide
      (rrfScore vector keyword alpha rrfK key < rrfScore vector keyword alpha rrfK other)) ≤
        place ∧ place < topK := by
  obtain ⟨entry, here, rfl⟩ := Option.map_eq_some_iff.mp placed
  have member := (page_subperm selection Prod.snd _ some_).subset (List.mem_of_getElem? here)
  have before := above_le_place some_ here
  rw [above_fused vectors keywords, ((mem_fusedExactly vectors keywords).mp member).2] at before
  have short := page_length selection Prod.snd (fusedExactly order vector keyword alpha rrfK) some_
  have bound := (List.getElem?_eq_some_iff.mp here).1
  change place < (selection.page Prod.snd topK
    (fusedExactly order vector keyword alpha rrfK)).length at bound
  exact ⟨key_of_entry vectors keywords member, before, by omega⟩

/-- A key that is on a page has a place at most as far down on any other page on which no more
keys can stand before it. -/
theorem place_le {place : Nat} (some_ : 0 < topK) (vectors' : (vector'.map SearchResult.key).Nodup)
    (keywords' : (keyword'.map SearchResult.key).Nodup)
    (within : key ∈ unionKeys vector' keyword')
    (fewer : ((unionKeys vector' keyword').countP fun other => decide
        (rrfScore vector' keyword' alpha rrfK key ≤ rrfScore vector' keyword' alpha rrfK other)) ≤
      ((unionKeys vector keyword).countP fun other => decide
        (rrfScore vector keyword alpha rrfK key < rrfScore vector keyword alpha rrfK other)) + 1)
    (placed : ((rrfFuse order selection vector keyword alpha rrfK topK)[place]?).map
      (fun entry => entry.1.key) = some key) :
    ∃ place' ≤ place, ((rrfFuse order' selection vector' keyword' alpha rrfK topK)[place']?).map
      (fun entry => entry.1.key) = some key := by
  obtain ⟨-, before, inside⟩ := key_of_place vectors keywords some_ placed
  obtain ⟨entry', member', same, score⟩ := entry_of_key alpha rrfK order' vectors' keywords' within
  have reached : upTo Prod.snd (fusedExactly order' vector' keyword' alpha rrfK) entry' ≤
      place + 1 := by
    rw [upTo_fused vectors' keywords', score]
    omega
  have shows : entry' ∈ selection.page Prod.snd topK
      (fusedExactly order' vector' keyword' alpha rrfK) := mem_page some_ member' (by omega)
  obtain ⟨place', there⟩ := List.mem_iff_getElem?.mp shows
  have after := place_lt_upTo some_ there
  refine ⟨place', by omega, ?_⟩
  change ((selection.page Prod.snd topK _)[place']?).map _ = _
  rw [there, Option.map_some, same]

end Counting

/-- The untied keys above a key leave it one place. -/
theorem Untied.upTo_eq (untied : Untied vector keyword alpha rrfK topK)
    (within : key ∈ unionKeys vector keyword)
    (few : ((unionKeys vector keyword).countP fun other => decide
      (rrfScore vector keyword alpha rrfK key < rrfScore vector keyword alpha rrfK other)) < topK) :
    ((unionKeys vector keyword).countP fun other => decide
      (rrfScore vector keyword alpha rrfK key ≤ rrfScore vector keyword alpha rrfK other)) =
    ((unionKeys vector keyword).countP fun other => decide
      (rrfScore vector keyword alpha rrfK key < rrfScore vector keyword alpha rrfK other)) + 1 := by
  have settled : Settled (rrfScore vector keyword alpha rrfK) topK (unionKeys vector keyword) :=
    untied
  exact settled.upTo_eq (List.nodup_dedup _) within few

/-- Keys whose scores all fall, but for one that rises: only those above it may stay so. -/
theorem upTo_le_of_rise {keys keys' : List EntryKey} {before after : EntryKey → ℚ}
    (distinct : keys.Nodup) (same : keys'.Perm keys) (within : key ∈ keys)
    (rises : before key < after key) (falls : ∀ other ≠ key, after other ≤ before other) :
    keys'.countP (fun other => decide (after key ≤ after other)) ≤
      keys.countP (fun other => decide (before key < before other)) + 1 := by
  have first : keys.Perm (key :: keys.erase key) := List.perm_cons_erase within
  have imp (other : EntryKey) (among : other ∈ keys.erase key)
      (high : decide (after key ≤ after other) = true) :
      decide (before key < before other) = true := by
    rw [decide_eq_true_eq] at high ⊢
    have apart : other ≠ key := fun again => distinct.not_mem_erase (again ▸ among)
    exact (rises.trans_le high).trans_le (falls other apart)
  calc keys'.countP (fun other => decide (after key ≤ after other))
      = (keys.erase key).countP (fun other => decide (after key ≤ after other)) + 1 := by
        rw [same.countP_eq, first.countP_eq, List.countP_cons,
          if_pos (decide_eq_true (le_refl (after key)))]
    _ ≤ (keys.erase key).countP (fun other => decide (before key < before other)) + 1 :=
        Nat.add_le_add_right (List.countP_mono_left imp) 1
    _ ≤ keys.countP (fun other => decide (before key < before other)) + 1 :=
        Nat.add_le_add_right List.erase_sublist.countP_le 1

/-! ## Fusing by rank -/

/-- A key on the first page is on the second one, and not further down. -/
def NotLower (key : EntryKey) (page page' : List (SearchResult × ℚ)) : Prop :=
  ∀ place : Nat, page[place]?.map (fun entry => entry.1.key) = some key →
    ∃ place' ≤ place, page'[place']?.map (fun entry => entry.1.key) = some key

/-- What a fusion by rank is to do, whatever the order of the map. -/
structure FusesByRank (selection : Selection) (vector keyword : List SearchResult)
    (alpha rrfK : ℚ) (topK : Nat) : Prop where
  length : ∀ order, (rrfFuse order selection vector keyword alpha rrfK topK).length =
    min topK (unionKeys vector keyword).length
  distinct : ∀ order, ((rrfFuse order selection vector keyword alpha rrfK topK).map
    fun entry => entry.1.key).Nodup
  sorted : ∀ order, (rrfFuse order selection vector keyword alpha rrfK topK).Pairwise
    fun entry later => later.2 ≤ entry.2
  scores : ∀ order, ∀ entry ∈ rrfFuse order selection vector keyword alpha rrfK topK,
    shown vector keyword entry.1.key = some entry.1 ∧
      entry.2 = rrfScore vector keyword alpha rrfK entry.1.key ∧ 0 ≤ entry.2 ∧ entry.2 ≤ 1
  omitted : ∀ order, ∀ key ∈ unionKeys vector keyword,
    key ∉ (rrfFuse order selection vector keyword alpha rrfK topK).map (fun entry => entry.1.key) →
      ∀ entry ∈ rrfFuse order selection vector keyword alpha rrfK topK,
        rrfScore vector keyword alpha rrfK key ≤ entry.2
  vectorRanks : ∀ order order' key vector', MovesUp key vector vector' →
    NotLower key (rrfFuse order selection vector keyword alpha rrfK topK)
      (rrfFuse order' selection vector' keyword alpha rrfK topK)
  keywordRanks : ∀ order order' key keyword', MovesUp key keyword keyword' →
    NotLower key (rrfFuse order selection vector keyword alpha rrfK topK)
      (rrfFuse order' selection vector keyword' alpha rrfK topK)
  same : ∀ order order', rrfFuse order selection vector keyword alpha rrfK topK =
    rrfFuse order' selection vector keyword alpha rrfK topK

/-- A hash map may yield its entries in any order. -/
def HashOrder.ofList (entries : List (EntryKey × SearchResult × ℚ)) : HashOrder where
  run given := if entries.Perm given then entries else given
  perm given := by
    split
    · assumption
    · exact List.Perm.refl _

theorem HashOrder.exists_fused (vectors : (vector.map SearchResult.key).Nodup)
    (keywords : (keyword.map SearchResult.key).Nodup) {entries : List (SearchResult × ℚ)}
    (same : entries.Perm (fusedExactly order vector keyword alpha rrfK)) :
    ∃ order' : HashOrder, fusedExactly order' vector keyword alpha rrfK = entries := by
  let raw (entry : SearchResult × ℚ) : EntryKey × SearchResult × ℚ :=
    (entry.1.key, entry.1, share alpha rrfK (rankIn vector entry.1.key) +
      share (1 - alpha) rrfK (rankIn keyword entry.1.key))
  have back : ((fusedExactly order vector keyword alpha rrfK).map raw) =
      order.run (scores exactly vector keyword alpha rrfK).entries := by
    unfold fusedExactly fused
    rw [List.map_map]
    refine (List.map_congr_left fun entry member => ?_).trans (List.map_id _)
    have held := Table.get?_eq_some_iff.mpr ((order.perm _).mem_iff.mp member)
    rw [get?_scores vectors keywords, Option.map_eq_some_iff] at held
    obtain ⟨base, found, same⟩ := held
    obtain ⟨key, held⟩ := entry
    dsimp only at found same
    subst same
    change (base.key, base, _) = (key, base, _)
    rw [shown_key found]
  have raws : (entries.map raw).Perm (scores exactly vector keyword alpha rrfK).entries :=
    ((same.map raw).trans (back ▸ List.Perm.refl _)).trans (order.perm _)
  refine ⟨.ofList (entries.map raw), ?_⟩
  unfold fusedExactly fused ofList
  dsimp only
  rw [if_pos raws, List.map_map]
  refine (List.map_congr_left fun entry member => ?_).trans (List.map_id _)
  have score := ((mem_fusedExactly vectors keywords).mp (same.mem_iff.mp member)).2
  refine Prod.ext rfl ?_
  rw [id, score]
  exact mul_comm _ _

section Ranks

variable (vectors : (vector.map SearchResult.key).Nodup)
  (keywords : (keyword.map SearchResult.key).Nodup) (positive : 0 < rrfK)

include vectors keywords

/-- A key that rises, while no other does, or that is untied and keeps its score with all
others, is not lower. -/
theorem notLower_of_scores (some_ : 0 < topK) (vectors' : (vector'.map SearchResult.key).Nodup)
    (keywords' : (keyword'.map SearchResult.key).Nodup)
    (same : (unionKeys vector' keyword').Perm (unionKeys vector keyword))
    (scores : rrfScore vector keyword alpha rrfK key < rrfScore vector' keyword' alpha rrfK key ∧
        (∀ other ≠ key, rrfScore vector' keyword' alpha rrfK other ≤
          rrfScore vector keyword alpha rrfK other) ∨
      rrfScore vector' keyword' alpha rrfK = rrfScore vector keyword alpha rrfK ∧
        Untied vector keyword alpha rrfK topK) :
    NotLower key (rrfFuse order selection vector keyword alpha rrfK topK)
      (rrfFuse order' selection vector' keyword' alpha rrfK topK) := by
  intro place placed
  obtain ⟨within, before, inside⟩ := key_of_place vectors keywords some_ placed
  refine place_le vectors keywords some_ vectors' keywords' (same.mem_iff.mpr within) ?_ placed
  rcases scores with ⟨rises, falls⟩ | ⟨unchanged, untied⟩
  · exact upTo_le_of_rise (List.nodup_dedup _) same within rises falls
  · rw [unchanged, same.countP_eq]
    exact (untied.upTo_eq within (by omega)).le

include positive in
/-- A result that moves up in a list is not lower on the page. -/
theorem MovesUp.vector_notLower (bounds : 0 ≤ alpha ∧ alpha ≤ 1) (some_ : 0 < topK)
    (untied : Untied vector keyword alpha rrfK topK) (moved : MovesUp key vector vector') :
    NotLower key (rrfFuse order selection vector keyword alpha rrfK topK)
      (rrfFuse order' selection vector' keyword alpha rrfK topK) := by
  have vectors' : (vector'.map SearchResult.key).Nodup :=
    (moved.perm.map _).nodup_iff.mpr vectors
  have same : (unionKeys vector' keyword).Perm (unionKeys vector keyword) :=
    ((moved.perm.append_right keyword).map _).dedup
  have whole : 0 < rrfK + 1 := by positivity
  apply notLower_of_scores vectors keywords some_ vectors' keywords same
  rcases bounds.1.eq_or_lt with rfl | weighted
  · refine .inr ⟨?_, untied⟩
    funext other
    simp only [rrfScore, share_zero]
  · refine .inl ⟨?_, fun other apart => ?_⟩
    · exact mul_lt_mul_of_pos_left
        (add_lt_add_left (moved.share_lt vectors weighted positive) _) whole
    · exact mul_le_mul_of_nonneg_left
        (add_le_add_left (moved.share_le apart weighted.le positive) _) whole.le

include positive in
theorem MovesUp.keyword_notLower (bounds : 0 ≤ alpha ∧ alpha ≤ 1) (some_ : 0 < topK)
    (untied : Untied vector keyword alpha rrfK topK) (moved : MovesUp key keyword keyword') :
    NotLower key (rrfFuse order selection vector keyword alpha rrfK topK)
      (rrfFuse order' selection vector keyword' alpha rrfK topK) := by
  have keywords' : (keyword'.map SearchResult.key).Nodup :=
    (moved.perm.map _).nodup_iff.mpr keywords
  have same : (unionKeys vector keyword').Perm (unionKeys vector keyword) :=
    ((moved.perm.append_left vector).map _).dedup
  have whole : 0 < rrfK + 1 := by positivity
  apply notLower_of_scores vectors keywords some_ vectors keywords' same
  rcases (sub_nonneg.mpr bounds.2).eq_or_lt with none_ | weighted
  · refine .inr ⟨?_, untied⟩
    funext other
    simp only [rrfScore, ← none_, share_zero]
  · refine .inl ⟨?_, fun other apart => ?_⟩
    · exact mul_lt_mul_of_pos_left
        (add_lt_add_right (moved.share_lt keywords weighted positive) _) whole
    · exact mul_le_mul_of_nonneg_left
        (add_le_add_right (moved.share_le apart weighted.le positive) _) whole.le

end Ranks

/-- **Fusion by rank.** A fusion does what it is to do, whatever the order of the map, exactly
where no two keys that could be on the page have the same score. -/
theorem fusesByRank_iff (selection : Selection) (vectors : (vector.map SearchResult.key).Nodup)
    (keywords : (keyword.map SearchResult.key).Nodup) (bounds : 0 ≤ alpha ∧ alpha ≤ 1)
    (positive : 0 < rrfK) (some_ : 1 ≤ topK) :
    FusesByRank selection vector keyword alpha rrfK topK ↔
      Untied vector keyword alpha rrfK topK := by
  have order : HashOrder := ⟨id, fun _ => List.Perm.refl _⟩
  constructor
  · intro fuses
    have settled : Settled Prod.snd topK (fusedExactly order vector keyword alpha rrfK) ↔
        Untied vector keyword alpha rrfK topK := settled_iff vectors keywords
    rw [← settled]
    by_contra unsettled
    obtain ⟨entries, same, differs⟩ :
        ∃ entries, entries.Perm (fusedExactly order vector keyword alpha rrfK) ∧
          selection.page Prod.snd topK entries ≠
            selection.page Prod.snd topK (fusedExactly order vector keyword alpha rrfK) :=
      exists_page_ne some_ (fusedExactly_nodup vectors keywords) unsettled
    obtain ⟨order', yields⟩ := HashOrder.exists_fused vectors keywords same
    refine differs ?_
    rw [← yields]
    exact fuses.same order' order
  · intro untied
    have within (order : HashOrder) : ∀ entry ∈ rrfFuse order selection vector keyword alpha rrfK
        topK, entry ∈ fusedExactly order vector keyword alpha rrfK := fun entry member =>
      (page_subperm selection Prod.snd _ some_).subset member
    refine
      { length := fun order => ?_
        distinct := fun order => ?_
        sorted := fun order => page_sorted selection Prod.snd topK _
        scores := fun order entry member => ?_
        omitted := fun order key among absent entry member => ?_
        vectorRanks := fun order order' key vector' moved =>
          moved.vector_notLower vectors keywords positive bounds some_ untied
        keywordRanks := fun order order' key keyword' moved =>
          moved.keyword_notLower vectors keywords positive bounds some_ untied
        same := fun order order' => ?_ }
    · have count := (fusedExactly_keys_perm order alpha rrfK vectors keywords).length_eq
      rw [List.length_map] at count
      rw [← count]
      exact page_length selection Prod.snd _ some_
    · obtain ⟨shown, same, among⟩ := page_subperm selection Prod.snd
        (fusedExactly order vector keyword alpha rrfK) some_
      exact (same.map _).nodup_iff.mp
        ((fusedExactly_keys_nodup order alpha rrfK vectors keywords).sublist (among.map _))
    · obtain ⟨found, score⟩ := (mem_fusedExactly vectors keywords).mp (within order entry member)
      rw [score]
      exact ⟨found, rfl, rrfScore_bounds positive bounds _⟩
    · obtain ⟨left, there, same, score⟩ := entry_of_key alpha rrfK order vectors keywords among
      obtain ⟨omitted, all, -, less⟩ := page_split selection Prod.snd
        (fusedExactly order vector keyword alpha rrfK) some_
      have out : left ∈ omitted := (List.mem_append.mp (all.mem_iff.mpr there)).resolve_left
        fun shows => absent (List.mem_map.mpr ⟨left, shows, same⟩)
      rw [← score]
      exact less entry member left out
    · have orders : (fusedExactly order vector keyword alpha rrfK).Perm
          (fusedExactly order' vector keyword alpha rrfK) :=
        ((order.perm _).trans (order'.perm _).symm).map _
      exact ((settled_iff vectors keywords).mpr untied).page_eq some_
        (fusedExactly_nodup vectors keywords) orders

/-! ## Two first results -/

namespace FusedRanks

def found (uri : String) : SearchResult := ⟨uri, "", 0, .one⟩

/-- The one list finds a note that the other ranks second. -/
theorem note_ranked : FusesByRank .sorting [found "note", found "page"] [found "page"] (1 / 2) 60
    1 :=
  (fusesByRank_iff .sorting (by decide) (by decide) (by norm_num) (by norm_num) (by decide)).mpr
    (by decide +kernel)

/-- Two lists find one result each, and the page has room for one of them. -/
theorem first_results_tied : ¬ ∀ (selection : Selection) (vector keyword : List SearchResult)
    (alpha rrfK : ℚ) (topK : Nat), (vector.map SearchResult.key).Nodup →
      (keyword.map SearchResult.key).Nodup → 0 ≤ alpha ∧ alpha ≤ 1 → 0 < rrfK → 1 ≤ topK →
        FusesByRank selection vector keyword alpha rrfK topK := by
  intro always
  have vectors : ([found "note"].map SearchResult.key).Nodup := by decide
  have keywords : ([found "page"].map SearchResult.key).Nodup := by decide
  have fuses := always .sorting _ _ (1 / 2) 60 1 vectors keywords (by norm_num) (by norm_num)
    (by decide)
  have untied := (fusesByRank_iff .sorting vectors keywords (by norm_num) (by norm_num)
    (by decide)).mp fuses
  exact absurd untied (by decide +kernel)

end FusedRanks

end OpenMemory.Index.RankFusion
