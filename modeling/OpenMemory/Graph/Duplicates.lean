import OpenMemory.Graph.Maintenance
import OpenMemory.Foundation.Absorption

/-!
# Which observations are duplicates

Deduplication is greedy grouping among the candidates of an entity, by the
similarity of their texts. Candidates are known by their ids, so the marks of the
source and the elements taken by the grouping are the same.

A duplicate is never a survivor as well, no observation is a duplicate twice, and of
what remains about one entity no two texts are similar.
-/

namespace OpenMemory.Graph

open Foundation

variable [ScoreArithmetic] [CaseMapping] {threshold : Float32Bits}

/-! ## Similarity -/

theorem jaccardSimilarity_comm (a b : String) : jaccardSimilarity a b = jaccardSimilarity b a := by
  unfold jaccardSimilarity
  rw [Finset.inter_comm, Finset.union_comm]
  refine if_congr and_comm rfl (if_congr or_comm rfl rfl)

theorem nearDuplicate_comm (first other : String) :
    nearDuplicate threshold first other = nearDuplicate threshold other first := by
  unfold nearDuplicate
  rw [jaccardSimilarity_comm]

/-! ## Groups -/

/-- The grouping of candidates by the similarity of their texts. -/
abbrev mergesOf (threshold : Float32Bits) (gone candidates : List DedupCandidate) :
    List (DedupCandidate × List DedupCandidate) :=
  absorb (fun first other => nearDuplicate threshold first.content other.content) gone candidates

/-- What the source reports of a group. -/
def DedupGroup.of (merge : DedupCandidate × List DedupCandidate) : DedupGroup where
  survivor := merge.1.id
  losers := merge.2.map DedupCandidate.id
  loserAccesses := saturatingSum (merge.2.map DedupCandidate.accessCount)

/-- **Deduplication is greedy grouping**, of which the groups without losers are left
out. -/
theorem dedupWithinEntity_eq {gone candidates : List DedupCandidate}
    (apart : ∀ one ∈ gone ++ candidates, ∀ other ∈ gone ++ candidates, one.id = other.id →
      one = other) :
    dedupWithinEntity threshold (gone.map DedupCandidate.id) candidates =
      ((mergesOf threshold gone candidates).filter fun merge => merge.2 ≠ []).map
        DedupGroup.of := by
  induction candidates generalizing gone with
  | nil => rfl
  | cons first rest ih =>
    have marked : ∀ candidate ∈ first :: rest,
        (candidate.id ∈ gone.map DedupCandidate.id ↔ candidate ∈ gone) := by
      refine fun candidate member => ⟨fun named => ?_, List.mem_map_of_mem⟩
      obtain ⟨other, before, same⟩ := List.mem_map.mp named
      rwa [← apart other (List.mem_append_left _ before) candidate
        (List.mem_append_right _ member) same]
    have tail : ∀ {more : List DedupCandidate}, more ⊆ gone ++ rest → ∀ one ∈ more ++ rest,
        ∀ other ∈ more ++ rest, one.id = other.id → one = other := by
      intro more within one oneIn other otherIn
      have widen : ∀ candidate ∈ more ++ rest, candidate ∈ gone ++ first :: rest := by
        intro candidate member
        rcases List.mem_append.mp member with early | late
        · rcases List.mem_append.mp (within early) with old | new
          · exact List.mem_append_left _ old
          · exact List.mem_append_right _ (List.mem_cons_of_mem _ new)
        · exact List.mem_append_right _ (List.mem_cons_of_mem _ late)
      exact apart one (widen one oneIn) other (widen other otherIn)
    unfold mergesOf absorb
    rw [dedupWithinEntity]
    by_cases taken : first ∈ gone
    · rw [if_pos taken, if_pos ((marked first List.mem_cons_self).mpr taken)]
      exact ih (tail (List.subset_append_left _ _))
    · rw [if_neg taken, if_neg fun named => taken ((marked first List.mem_cons_self).mp named)]
      have losers : (rest.filter fun other => other.id ∉ gone.map DedupCandidate.id ∧
          nearDuplicate threshold first.content other.content = true) =
          rest.filter fun other => other ∉ gone ∧
            nearDuplicate threshold first.content other.content = true := by
        refine List.filter_congr fun other member => ?_
        rw [decide_eq_decide, marked other (List.mem_cons_of_mem _ member)]
      dsimp only
      rw [losers, ← List.map_append, ih (tail (List.append_subset.mpr
        ⟨fun other member => List.mem_append_right _ (List.mem_filter.mp member).1,
          List.subset_append_left _ _⟩))]
      by_cases none : (rest.filter fun other => other ∉ gone ∧
          nearDuplicate threshold first.content other.content = true) = []
      · rw [if_pos none, List.filter_cons_of_neg (by
          rw [decide_eq_true_eq, not_not]
          exact none)]
      · rw [if_neg none, List.filter_cons_of_pos (by simpa using none)]
        rfl

omit [ScoreArithmetic] [CaseMapping] in
/-- The losers of all groups, whether or not groups without losers are left out. -/
theorem losers_of_merges (merges : List (DedupCandidate × List DedupCandidate)) :
    ((merges.filter fun merge => merge.2 ≠ []).map DedupGroup.of).flatMap DedupGroup.losers =
      (Absorption.absorbed merges).map DedupCandidate.id := by
  induction merges with
  | nil => rfl
  | cons merge rest ih =>
    unfold Absorption.absorbed at ih ⊢
    rw [List.flatMap_cons, List.map_append, ← ih]
    by_cases none : merge.2 = []
    · rw [List.filter_cons_of_neg (by rw [decide_eq_true_eq, not_not]; exact none), none]
      rfl
    · rw [List.filter_cons_of_pos (by rw [decide_eq_true_eq]; exact none)]
      rfl

/-! ## Sums of accesses -/

omit [ScoreArithmetic] [CaseMapping] in
/-- The sum that stops at its limit. -/
theorem toNat_saturatingSum (counts : List UInt32) :
    (saturatingSum counts).toNat = min (counts.map UInt32.toNat).sum (2 ^ 32 - 1) := by
  have step : ∀ (rest : List UInt32) (sum : UInt32),
      (rest.foldl (fun sum count => if sum.toNat + count.toNat < 2 ^ 32 then sum + count
        else UInt32.ofNat (2 ^ 32 - 1)) sum).toNat =
          min (sum.toNat + (rest.map UInt32.toNat).sum) (2 ^ 32 - 1) := by
    intro rest
    induction rest with
    | nil =>
      intro sum
      have small := sum.toNat_lt
      simp only [List.foldl_nil, List.map_nil, List.sum_nil]
      omega
    | cons count rest ih =>
      intro sum
      rw [List.foldl_cons, ih, List.map_cons, List.sum_cons]
      by_cases fits : sum.toNat + count.toNat < 2 ^ 32
      · rw [if_pos fits, UInt32.toNat_add, Nat.mod_eq_of_lt fits]
        omega
      · rw [if_neg fits]
        have most : (UInt32.ofNat (2 ^ 32 - 1)).toNat = 2 ^ 32 - 1 := by decide
        rw [most]
        omega
  have all := step counts 0
  rw [UInt32.toNat_zero, Nat.zero_add] at all
  exact all

/-! ## The duplicates of a store -/

namespace Database

variable {db : Database} {config : ConsolidateConfig} {id entityId : String} {row : ObservationRow}

/-- An observation as deduplication sees it. -/
def candidateOf (id : String) (row : ObservationRow) : DedupCandidate :=
  ⟨id, row.semantic.content, row.accessCount, row.semantic.observedAt⟩

section

omit [ScoreArithmetic] [CaseMapping]

theorem mem_dedupCandidates {candidate : DedupCandidate} :
    candidate ∈ db.dedupCandidates entityId ↔ ∃ id row, db.observations.get? id = some row ∧
      row.semantic.entityId = entityId ∧ row.tombstoned = false ∧
      candidate = candidateOf id row := by
  unfold dedupCandidates
  rw [List.mem_insertionSort, List.mem_map]
  constructor
  · rintro ⟨⟨id, row⟩, member, rfl⟩
    obtain ⟨held, about⟩ := List.mem_filter.mp member
    rw [decide_eq_true_eq] at about
    exact ⟨id, row, Table.get?_eq_some_iff.mpr held, about.1, about.2, rfl⟩
  · rintro ⟨id, row, present, about, live, rfl⟩
    exact ⟨(id, row), List.mem_filter.mpr ⟨Table.get?_eq_some_iff.mp present,
      decide_eq_true ⟨about, live⟩⟩, rfl⟩

/-- Candidates are known by their ids, also those of different entities. -/
theorem dedupCandidate_eq {other : String} {left right : DedupCandidate}
    (one : left ∈ db.dedupCandidates entityId) (two : right ∈ db.dedupCandidates other)
    (same : left.id = right.id) : left = right ∧ entityId = other := by
  obtain ⟨leftId, leftRow, leftHeld, rfl, _, rfl⟩ := mem_dedupCandidates.mp one
  obtain ⟨rightId, rightRow, rightHeld, rfl, _, rfl⟩ := mem_dedupCandidates.mp two
  cases (show leftId = rightId from same)
  cases leftHeld.symm.trans rightHeld
  exact ⟨rfl, rfl⟩

theorem dedupCandidates_nodup : (db.dedupCandidates entityId).Nodup := by
  unfold dedupCandidates
  refine (List.perm_insertionSort _ _).nodup_iff.mpr ?_
  refine List.Nodup.of_map DedupCandidate.id ?_
  rw [List.map_map]
  exact db.observations.distinct.sublist (List.filter_sublist.map Prod.fst)

end

/-- The merges of an entity, with those that take nothing. -/
abbrev merges (db : Database) (config : ConsolidateConfig) (entityId : String) :
    List (DedupCandidate × List DedupCandidate) :=
  mergesOf config.dedupTextThreshold [] (db.dedupCandidates entityId)

theorem dedupWithinEntity_candidates :
    dedupWithinEntity config.dedupTextThreshold [] (db.dedupCandidates entityId) =
      ((db.merges config entityId).filter fun merge => merge.2 ≠ []).map DedupGroup.of :=
  @dedupWithinEntity_eq _ _ config.dedupTextThreshold [] (db.dedupCandidates entityId)
    fun _ oneIn _ otherIn same => (dedupCandidate_eq oneIn otherIn same).1

theorem dedupGroups_eq : db.dedupGroups config = db.observedEntities.flatMap fun entityId =>
    ((db.merges config entityId).filter fun merge => merge.2 ≠ []).map DedupGroup.of := by
  unfold dedupGroups
  exact List.flatMap_congr fun entityId _ => dedupWithinEntity_candidates

/-- The observations that are merged into others. -/
def duplicates (db : Database) (config : ConsolidateConfig) : List String :=
  (db.dedupGroups config).flatMap DedupGroup.losers

theorem mem_dedupGroups {group : DedupGroup} : group ∈ db.dedupGroups config ↔
    ∃ entityId, ∃ merge ∈ db.merges config entityId, merge.2 ≠ [] ∧ group = DedupGroup.of merge := by
  rw [dedupGroups_eq, List.mem_flatMap]
  constructor
  · rintro ⟨entityId, -, member⟩
    obtain ⟨merge, kept, rfl⟩ := List.mem_map.mp member
    obtain ⟨among, some⟩ := List.mem_filter.mp kept
    exact ⟨entityId, merge, among, by simpa using some, rfl⟩
  · rintro ⟨entityId, merge, among, some, rfl⟩
    have head : merge.1 ∈ db.dedupCandidates entityId :=
      Absorption.heads_sublist.subset (List.mem_map_of_mem among)
    obtain ⟨id, row, present, about, -, -⟩ := mem_dedupCandidates.mp head
    refine ⟨entityId, ?_, List.mem_map.mpr ⟨merge, List.mem_filter.mpr ⟨among, by simpa using some⟩,
      rfl⟩⟩
    exact List.mem_dedup.mpr (List.mem_map.mpr ⟨(id, row), Table.get?_eq_some_iff.mp present, about⟩)

/-- A duplicate is a candidate that was taken. -/
theorem mem_duplicates : id ∈ db.duplicates config ↔ ∃ entityId,
    ∃ candidate ∈ Absorption.absorbed (db.merges config entityId), candidate.id = id := by
  unfold duplicates
  rw [List.mem_flatMap]
  constructor
  · rintro ⟨group, member, loser⟩
    obtain ⟨entityId, merge, among, -, rfl⟩ := mem_dedupGroups.mp member
    obtain ⟨candidate, taken, same⟩ := List.mem_map.mp loser
    exact ⟨entityId, candidate, Absorption.mem_absorbed.mpr ⟨merge, among, taken⟩, same⟩
  · rintro ⟨entityId, candidate, body, rfl⟩
    obtain ⟨merge, among, taken⟩ := Absorption.mem_absorbed.mp body
    exact ⟨DedupGroup.of merge, mem_dedupGroups.mpr ⟨entityId, merge, among,
      List.ne_nil_of_mem taken, rfl⟩, List.mem_map_of_mem taken⟩

/-- **Duplicates are observations that are not deleted.** -/
theorem live_of_duplicate (duplicate : id ∈ db.duplicates config) :
    ∃ row, db.observations.get? id = some row ∧ row.tombstoned = false := by
  obtain ⟨entityId, candidate, body, rfl⟩ := mem_duplicates.mp duplicate
  obtain ⟨id, row, present, -, live, rfl⟩ :=
    mem_dedupCandidates.mp (Absorption.absorbed_not_gone body).1
  exact ⟨row, present, live⟩

/-- **No observation is a duplicate twice.** -/
theorem duplicates_nodup : (db.duplicates config).Nodup := by
  unfold duplicates dedupGroups
  rw [List.flatMap_assoc, List.nodup_flatMap]
  have within : ∀ entityId, (dedupWithinEntity config.dedupTextThreshold []
      (db.dedupCandidates entityId)).flatMap DedupGroup.losers =
        (Absorption.absorbed (db.merges config entityId)).map DedupCandidate.id := fun entityId => by
    rw [dedupWithinEntity_candidates, losers_of_merges]
  refine ⟨fun entityId _ => ?_, ?_⟩
  · rw [within]
    refine (Absorption.absorbed_nodup dedupCandidates_nodup).map_on fun one oneIn other otherIn same => ?_
    exact (dedupCandidate_eq (Absorption.absorbed_not_gone oneIn).1
      (Absorption.absorbed_not_gone otherIn).1 same).1
  · refine (List.nodup_dedup _).imp fun {one other} apart => ?_
    rw [Function.onFun, within, within]
    intro id left right
    obtain ⟨first, firstIn, rfl⟩ := List.mem_map.mp left
    obtain ⟨second, secondIn, same⟩ := List.mem_map.mp right
    exact apart (dedupCandidate_eq (Absorption.absorbed_not_gone firstIn).1
      (Absorption.absorbed_not_gone secondIn).1 same.symm).2

/-- **A group**: its survivor is not a duplicate, and its losers are observations of the
same entity to whose texts the survivor's is similar. -/
theorem dedupGroup_spec {group : DedupGroup} (member : group ∈ db.dedupGroups config) :
    ∃ survivor, db.observations.get? group.survivor = some survivor ∧
      survivor.tombstoned = false ∧ group.survivor ∉ db.duplicates config ∧
      ∀ loser ∈ group.losers, ∃ row, db.observations.get? loser = some row ∧
        row.semantic.entityId = survivor.semantic.entityId ∧
        nearDuplicate config.dedupTextThreshold survivor.semantic.content
          row.semantic.content = true := by
  obtain ⟨entityId, merge, among, -, rfl⟩ := mem_dedupGroups.mp member
  have head : merge.1 ∈ Absorption.heads (db.merges config entityId) := List.mem_map_of_mem among
  have listed := Absorption.heads_sublist.subset head
  obtain ⟨id, row, present, about, live, same⟩ := mem_dedupCandidates.mp listed
  have named : (DedupGroup.of merge).survivor = id := congrArg DedupCandidate.id same
  refine ⟨row, named ▸ present, live, fun duplicate => ?_, fun loser taken => ?_⟩
  · obtain ⟨other, candidate, body, shared⟩ := mem_duplicates.mp duplicate
    obtain ⟨rfl, rfl⟩ := dedupCandidate_eq (Absorption.absorbed_not_gone body).1 listed shared
    exact Absorption.head_not_absorbed dedupCandidates_nodup head body
  · obtain ⟨candidate, inside, rfl⟩ := List.mem_map.mp taken
    have near := Absorption.near_of_mem among inside
    obtain ⟨other, held, found, where_, -, rfl⟩ := mem_dedupCandidates.mp
      (Absorption.absorbed_not_gone (Absorption.mem_absorbed.mpr ⟨merge, among, inside⟩)).1
    rw [same] at near
    exact ⟨held, found, where_.trans about.symm, near⟩

/-- The accesses of some observations, together. -/
def accessesOf (db : Database) (ids : List String) : Nat :=
  (ids.map fun id => ((db.observations.get? id).elim 0 fun row => row.accessCount.toNat)).sum

/-- The accesses of a group are those of its losers, as far as they can be counted. -/
theorem loserAccesses_eq {group : DedupGroup} (member : group ∈ db.dedupGroups config) :
    group.loserAccesses.toNat = min (db.accessesOf group.losers) (2 ^ 32 - 1) := by
  obtain ⟨entityId, merge, among, -, rfl⟩ := mem_dedupGroups.mp member
  have counted : (merge.2.map DedupCandidate.accessCount).map UInt32.toNat =
      (merge.2.map DedupCandidate.id).map fun id =>
        ((db.observations.get? id).elim 0 fun row => row.accessCount.toNat) := by
    rw [List.map_map, List.map_map]
    refine List.map_congr_left fun candidate inside => ?_
    obtain ⟨id, row, present, -, -, rfl⟩ := mem_dedupCandidates.mp
      (Absorption.absorbed_not_gone (Absorption.mem_absorbed.mpr ⟨merge, among, inside⟩)).1
    change row.accessCount.toNat = (db.observations.get? id).elim 0 fun row => row.accessCount.toNat
    rw [present]
    rfl
  unfold accessesOf
  rw [show (DedupGroup.of merge).loserAccesses =
    saturatingSum (merge.2.map DedupCandidate.accessCount) from rfl, toNat_saturatingSum, counted]
  rfl

/-- **No observation survives two groups.** -/
theorem survivors_nodup : ((db.dedupGroups config).map DedupGroup.survivor).Nodup := by
  rw [dedupGroups_eq, List.map_flatMap, List.nodup_flatMap]
  have heads : ∀ entityId, ∀ id ∈ (((db.merges config entityId).filter fun merge =>
      merge.2 ≠ []).map DedupGroup.of).map DedupGroup.survivor,
        ∃ candidate ∈ db.dedupCandidates entityId, candidate.id = id := by
    intro entityId id member
    rw [List.map_map] at member
    obtain ⟨merge, kept, rfl⟩ := List.mem_map.mp member
    exact ⟨merge.1, Absorption.heads_sublist.subset (List.mem_map_of_mem
      (List.mem_filter.mp kept).1), rfl⟩
  refine ⟨fun entityId _ => ?_, ?_⟩
  · rw [List.map_map]
    change (((db.merges config entityId).filter _).map fun merge => merge.1.id).Nodup
    have distinct : ((db.merges config entityId).map fun merge => merge.1.id).Nodup := by
      have ids : ((Absorption.heads (db.merges config entityId)).map DedupCandidate.id).Nodup := by
        refine (dedupCandidates_nodup.sublist Absorption.heads_sublist).map_on
          fun one oneIn other otherIn same => ?_
        exact (dedupCandidate_eq (Absorption.heads_sublist.subset oneIn)
          (Absorption.heads_sublist.subset otherIn) same).1
      unfold Absorption.heads at ids
      rwa [List.map_map] at ids
    exact distinct.sublist (List.filter_sublist.map _)
  · refine (List.nodup_dedup _).imp fun {one other} apart => ?_
    intro id left right
    obtain ⟨first, firstIn, rfl⟩ := heads one id left
    obtain ⟨second, secondIn, same⟩ := heads other _ right
    exact apart (dedupCandidate_eq firstIn secondIn same.symm).2

theorem group_of_duplicate (duplicate : id ∈ db.duplicates config) :
    ∃ group ∈ db.dedupGroups config, id ∈ group.losers := List.mem_flatMap.mp duplicate

/-- **No two texts about one entity remain similar.** -/
theorem remaining_apart {other : String} {held : ObservationRow}
    (one : db.observations.get? id = some row) (live : row.tombstoned = false)
    (two : db.observations.get? other = some held) (liveToo : held.tombstoned = false)
    (about : row.semantic.entityId = held.semantic.entityId) (distinct : id ≠ other)
    (remains : id ∉ db.duplicates config) (remainsToo : other ∉ db.duplicates config) :
    nearDuplicate config.dedupTextThreshold row.semantic.content held.semantic.content = false := by
  have listed : ∀ {name : String} {kept : ObservationRow},
      db.observations.get? name = some kept → kept.tombstoned = false →
      kept.semantic.entityId = held.semantic.entityId → name ∉ db.duplicates config →
      candidateOf name kept ∈ Absorption.heads (db.merges config held.semantic.entityId) := by
    intro name kept present undeleted same unmerged
    refine (Absorption.head_or_absorbed (mem_dedupCandidates.mpr
      ⟨name, kept, present, same, undeleted, rfl⟩) List.not_mem_nil).resolve_right fun body => ?_
    exact unmerged (mem_duplicates.mpr ⟨_, _, body, rfl⟩)
  have symmetric : Std.Symm fun first later : DedupCandidate =>
      nearDuplicate config.dedupTextThreshold first.content later.content = false :=
    ⟨fun first later far => (nearDuplicate_comm _ _).trans far⟩
  have pairwise : (Absorption.heads (db.merges config held.semantic.entityId)).Pairwise
      fun first later : DedupCandidate =>
        nearDuplicate config.dedupTextThreshold first.content later.content = false :=
    Absorption.heads_apart
  have first := listed one live about remains
  have second := listed two liveToo rfl remainsToo
  have different : candidateOf id row ≠ candidateOf other held :=
    fun same => distinct (congrArg DedupCandidate.id same)
  have far := pairwise.forall first second different
  exact far

end Database

end OpenMemory.Graph
