import OpenMemory.Eval.RecallReport
import OpenMemory.Foundation.WeightedSums

/-!
# Laws of the ranking metrics

A query that passes its validation judges no key twice. So the relevant keys of a ranking without
repeats are counted once each, and the gains of its first keys are those of different judgments:
no sum of its first gains is above that of the ideal grades (`gains_dominated`). Under discounts
that fall with the rank, this bounds the discounted gain, and says when it is the ideal one.

The laws are those of exact arithmetic. Of the logarithms they only use that they are positive and
grow.
-/

namespace OpenMemory.Eval

open Foundation DoubleArithmetic

/-! ## Rankings without repeats -/

section Distinct

variable {F : Type} {seen others : List String} {ranked : List (String × F)}

theorem dedupePairs_congr (same : ∀ key, key ∈ seen ↔ key ∈ others) :
    dedupePairs seen ranked = dedupePairs others ranked := by
  induction ranked generalizing seen others with
  | nil => rfl
  | cons first rest ih =>
    obtain ⟨key, score⟩ := first
    have further : ∀ other, other ∈ key :: seen ↔ other ∈ key :: others := fun other => by
      rw [List.mem_cons, List.mem_cons, same]
    rw [dedupePairs, dedupePairs]
    simp only [same, ih same, ih further]

theorem dedupePairs_append (front back : List (String × F)) :
    dedupePairs seen (front ++ back) =
      dedupePairs seen front ++ dedupePairs (front.map Prod.fst ++ seen) back := by
  induction front generalizing seen with
  | nil => rfl
  | cons first rest ih =>
    obtain ⟨key, score⟩ := first
    rw [List.cons_append, dedupePairs, dedupePairs, List.map_cons, List.cons_append]
    split
    · rename_i known
      rw [ih]
      refine congrArg _ (dedupePairs_congr fun other => ?_)
      simp only [List.mem_cons, List.mem_append]
      constructor
      · exact .inr
      · rintro (rfl | here)
        · exact .inr known
        · exact here
    · rw [ih, List.cons_append]
      refine congrArg (_ :: _ ++ ·) (dedupePairs_congr fun other => ?_)
      simp only [List.mem_cons, List.mem_append]
      exact or_left_comm

theorem dedupePairs_fresh : ((dedupePairs seen ranked).map Prod.fst).Nodup ∧
    ∀ key ∈ (dedupePairs seen ranked).map Prod.fst, key ∉ seen := by
  induction ranked generalizing seen with
  | nil => exact ⟨List.nodup_nil, fun key member => (List.not_mem_nil member).elim⟩
  | cons first rest ih =>
    obtain ⟨key, score⟩ := first
    rw [dedupePairs]
    split
    · exact ih
    · rename_i fresh
      obtain ⟨distinct, unseen⟩ := @ih (key :: seen)
      rw [List.map_cons, List.nodup_cons, List.forall_mem_cons]
      refine ⟨⟨fun member => unseen key member List.mem_cons_self, distinct⟩, fresh, ?_⟩
      exact fun other member listed => unseen other member (List.mem_cons_of_mem _ listed)

/-- The keys of a ranking, each at its first place. -/
def distinctKeys (ranked : List (String × F)) : List String :=
  (dedupePairs [] ranked).map Prod.fst

theorem distinctKeys_nodup : (distinctKeys ranked).Nodup := dedupePairs_fresh.1

/-- Two neighbours of a ranking are neighbours among the distinct keys, unless exchanging them
changes nothing there. -/
theorem distinctKeys_exchange (front back : List (String × F)) {upper lower : String × F}
    (apart : upper.1 ≠ lower.1) :
    distinctKeys (front ++ upper :: lower :: back) =
        distinctKeys (front ++ lower :: upper :: back) ∨
      ∃ before after, distinctKeys (front ++ upper :: lower :: back) =
          before ++ upper.1 :: lower.1 :: after ∧
        distinctKeys (front ++ lower :: upper :: back) = before ++ lower.1 :: upper.1 :: after := by
  unfold distinctKeys
  rw [dedupePairs_append, dedupePairs_append, List.map_append, List.map_append]
  generalize front.map Prod.fst ++ [] = known
  generalize (dedupePairs [] front).map Prod.fst = before
  obtain ⟨upper, upperScore⟩ := upper
  obtain ⟨lower, lowerScore⟩ := lower
  dsimp only at apart
  by_cases upperKnown : upper ∈ known <;> by_cases lowerKnown : lower ∈ known
  · left
    simp [dedupePairs, upperKnown, lowerKnown]
  · left
    simp [dedupePairs, upperKnown, lowerKnown]
  · left
    simp [dedupePairs, upperKnown, lowerKnown]
  · right
    refine ⟨before, (dedupePairs (lower :: upper :: known) back).map Prod.fst, ?_, ?_⟩
    · simp [dedupePairs, upperKnown, lowerKnown, apart.symm]
    · have same : dedupePairs (upper :: lower :: known) back =
          dedupePairs (lower :: upper :: known) back := dedupePairs_congr fun key => by
        simp only [List.mem_cons]
        exact or_left_comm
      simp [dedupePairs, upperKnown, lowerKnown, apart, same]

end Distinct

/-! ## Judgments without repeats -/

variable {judgment : Judgment} {low high : UInt8}

section Judgments

variable {judgments : List Judgment}

/-- No key is judged twice. -/
def JudgedOnce (judgments : List Judgment) : Prop := (judgments.map (·.uri)).Nodup

theorem gradeOf_judged (once : JudgedOnce judgments)
    (member : judgment ∈ judgments) : gradeOf judgments judgment.uri = judgment.relevance := by
  have distinct : (judgments.reverse.map (·.uri)).Nodup := by
    rw [List.map_reverse]
    exact List.nodup_reverse.mpr once
  unfold gradeOf
  cases found : judgments.reverse.find? fun other => other.uri = judgment.uri with
  | none =>
    have absent := List.find?_eq_none.mp found judgment (List.mem_reverse.mpr member)
    exact absurd (decide_eq_true rfl) absent
  | some other =>
    have named : other.uri = judgment.uri := by simpa using List.find?_some found
    have same : other = judgment := List.inj_on_of_nodup_map distinct
      (List.mem_of_find?_eq_some found) (List.mem_reverse.mpr member) named
    rw [same]
    rfl

theorem gradeOf_unjudged {uri : String} (unjudged : uri ∉ judgments.map (·.uri)) :
    gradeOf judgments uri = 0 := by
  have none : (judgments.reverse.find? fun other => other.uri = uri) = none := by
    refine List.find?_eq_none.mpr fun other member => ?_
    rw [decide_eq_true_eq]
    rintro rfl
    exact unjudged (List.mem_map_of_mem (List.mem_reverse.mp member))
  rw [gradeOf, none]
  rfl

theorem relevantUris_nodup (once : JudgedOnce judgments) : (relevantUris judgments).Nodup :=
  once.sublist (List.filter_sublist.map _)

/-- A key is relevant where its grade is positive. -/
theorem mem_relevantUris (once : JudgedOnce judgments) {uri : String} :
    uri ∈ relevantUris judgments ↔ 0 < gradeOf judgments uri := by
  unfold relevantUris
  simp only [List.mem_map, List.mem_filter, decide_eq_true_eq]
  constructor
  · rintro ⟨judgment, ⟨member, positive⟩, rfl⟩
    rwa [gradeOf_judged once member]
  · intro positive
    by_cases judged : uri ∈ judgments.map (·.uri)
    · obtain ⟨judgment, member, rfl⟩ := List.mem_map.mp judged
      rw [gradeOf_judged once member] at positive
      exact ⟨judgment, ⟨member, positive⟩, rfl⟩
    · rw [gradeOf_unjudged judged] at positive
      exact absurd positive (by decide)

/-- The relevant keys among the first ones, counted over the ranking. -/
theorem countP_relevant (once : JudgedOnce judgments) {keys : List String}
    (distinct : keys.Nodup) (k : Nat) :
    ((relevantUris judgments).countP fun uri => uri ∈ keys.take k) =
        (keys.take k).countP (fun uri => uri ∈ relevantUris judgments) ∧
      ((relevantUris judgments).toFinset.filter fun uri => uri ∈ keys.take k).card =
        (keys.take k).countP (fun uri => uri ∈ relevantUris judgments) := by
  have firsts : (keys.take k).Nodup := distinct.sublist (List.take_sublist k keys)
  have inRanking : (keys.take k).countP (fun uri => uri ∈ relevantUris judgments) =
      ((keys.take k).toFinset ∩ (relevantUris judgments).toFinset).card := by
    rw [List.countP_eq_length_filter, ← List.toFinset_card_of_nodup (firsts.filter _)]
    congr 1
    ext uri
    simp
  have inJudgments : ((relevantUris judgments).countP fun uri => uri ∈ keys.take k) =
      ((keys.take k).toFinset ∩ (relevantUris judgments).toFinset).card := by
    rw [List.countP_eq_length_filter,
      ← List.toFinset_card_of_nodup ((relevantUris_nodup once).filter _)]
    congr 1
    ext uri
    simp [and_comm]
  refine ⟨inJudgments.trans inRanking.symm, ?_⟩
  rw [inRanking]
  congr 1
  ext uri
  simp [and_comm]

theorem idealGrades_falling (judgments : List Judgment) :
    (idealGrades judgments).Pairwise fun a b => b ≤ a := by
  have : Std.Total fun a b : UInt8 => b ≤ a := ⟨fun a b => UInt8.le_total b a⟩
  have : IsTrans UInt8 fun a b => b ≤ a := ⟨fun _ _ _ below above => UInt8.le_trans above below⟩
  exact List.pairwise_insertionSort _ _

end Judgments

/-! ## Exact arithmetic -/

section Exact

variable {K : Type} [Field K] [LinearOrder K] [DoubleArithmetic K]

/-- The arithmetic is that of an ordered field. Of the logarithms it is only known that they are
positive and grow. -/
structure Exact (K : Type) [Field K] [LinearOrder K] [DoubleArithmetic K] : Prop where
  ofNat_eq : ∀ n : ℕ, (ofNat n : K) = n
  add_eq : ∀ a b : K, add a b = a + b
  sub_eq : ∀ a b : K, sub a b = a - b
  div_eq : ∀ a b : K, div a b = a / b
  twoToThe_eq : ∀ n : ℕ, (twoToThe n : K) = 2 ^ n
  equal_iff : ∀ a b : K, equal a b = true ↔ a = b
  log2_pos : ∀ i : ℕ, (0 : K) < log2 ((i : K) + 2)
  log2_grows : ∀ i : ℕ, (log2 ((i : K) + 2) : K) < log2 (((i + 1 : ℕ) : K) + 2)

/-- What a rank counts for. -/
def discount (K : Type) [Field K] [DoubleArithmetic K] (i : ℕ) : K := 1 / log2 ((i : K) + 2)

/-- What a grade counts for. -/
def gain (K : Type) [Field K] (grade : UInt8) : K := 2 ^ grade.toNat - 1

/-- The grade at a rank; behind the last there are zeros. -/
def gradeAt (grades : List UInt8) (i : ℕ) : UInt8 := grades[i]?.getD 0

omit [LinearOrder K] [DoubleArithmetic K] in
@[simp] theorem gain_zero : gain K 0 = 0 := by simp [gain]

variable [IsStrictOrderedRing K]

theorem Exact.discount_falls (exact_ : Exact K) : FallingWeights (discount K) where
  positive i := one_div_pos.mpr (exact_.log2_pos i)
  falls i := one_div_lt_one_div_of_lt (exact_.log2_pos i) (exact_.log2_grows i)

section

omit [DoubleArithmetic K]

theorem gain_lt_iff : gain K low < gain K high ↔ low < high := by
  unfold gain
  rw [sub_lt_sub_iff_right, pow_lt_pow_iff_right₀ one_lt_two, UInt8.lt_iff_toNat_lt]

theorem gain_le_iff : gain K low ≤ gain K high ↔ low ≤ high := by
  rw [← not_lt, gain_lt_iff, UInt8.not_lt]

theorem gain_injective : Function.Injective (gain K) := fun _ _ same =>
  UInt8.le_antisymm (gain_le_iff.mp same.le) (gain_le_iff.mp same.ge)

theorem gain_nonneg (grade : UInt8) : 0 ≤ gain K grade := by
  rw [← @gain_zero K, gain_le_iff]
  exact UInt8.zero_le

end

omit [LinearOrder K] [DoubleArithmetic K] [IsStrictOrderedRing K] in
/-- A sum over grades with their ranks. -/
theorem sum_zipIdx (h : ℕ → UInt8 → K) (grades : List UInt8) (start : ℕ) :
    ((grades.zipIdx start).map fun entry => h entry.2 entry.1).sum =
      ∑ i ∈ Finset.range grades.length, h (start + i) (gradeAt grades i) := by
  induction grades generalizing start with
  | nil => rfl
  | cons first rest ih =>
    rw [List.zipIdx_cons, List.map_cons, List.sum_cons, ih, List.length_cons,
      Finset.sum_range_succ', add_comm]
    refine congrArg₂ (· + ·) (Finset.sum_congr rfl fun i _ => ?_) rfl
    rw [add_right_comm, add_assoc start i 1]
    rfl

omit [IsStrictOrderedRing K] in
/-- The discounted gain of the first `k` grades. -/
theorem Exact.dcg_eq (exact_ : Exact K) (grades : List UInt8) (k : ℕ) :
    (dcg grades k : K) = ∑ i ∈ Finset.range k, discount K i * gain K (gradeAt grades i) := by
  have terms : ∀ (i : ℕ) (grade : UInt8),
      (discountedGain i grade : K) = discount K i * gain K grade := by
    intro i grade
    rw [discountedGain, exact_.div_eq, exact_.sub_eq, exact_.twoToThe_eq, exact_.ofNat_eq,
      exact_.add_eq, exact_.ofNat_eq, exact_.ofNat_eq, discount, gain, Nat.cast_one,
      Nat.cast_ofNat, div_eq_mul_one_div, mul_comm]
  have added : ∀ (values : List K) (start : K), values.foldl add start = start + values.sum := by
    intro values
    induction values with
    | nil => simp
    | cons first rest ih =>
      intro start
      rw [List.foldl_cons, ih, exact_.add_eq, List.sum_cons, add_assoc]
  rw [dcg, total, added, exact_.ofNat_eq, Nat.cast_zero, zero_add]
  simp only [terms]
  rw [sum_zipIdx (fun i grade => discount K i * gain K grade) (grades.take k) 0]
  simp only [zero_add]
  have few : (grades.take k).length ≤ k := List.length_take_le k grades
  rw [← Finset.sum_subset (Finset.range_mono few)]
  · refine Finset.sum_congr rfl fun i listed => ?_
    have small : i < k := (Finset.mem_range.mp listed).trans_le few
    rw [gradeAt, gradeAt, List.getElem?_take_of_lt small]
  · intro i small behind
    rw [Finset.mem_range] at small behind
    have past : grades.length ≤ i := by
      rw [List.length_take] at behind
      omega
    rw [gradeAt, List.getElem?_eq_none past, Option.getD_none, gain_zero, mul_zero]

omit [DoubleArithmetic K] [LinearOrder K] [IsStrictOrderedRing K] in
/-- The gains of the first grades. -/
theorem sum_gains (grades : List UInt8) (j : ℕ) :
    ∑ i ∈ Finset.range j, gain K (gradeAt grades i) = ((grades.take j).map (gain K)).sum := by
  induction grades generalizing j with
  | nil => simp [gradeAt]
  | cons first rest ih =>
    cases j with
    | zero => rfl
    | succ j =>
      rw [Finset.sum_range_succ', List.take_succ_cons, List.map_cons, List.sum_cons, ← ih, add_comm]
      rfl

omit [DoubleArithmetic K] in
/-- **No first gains of a ranking are above the ideal ones.** -/
theorem gains_dominated {judgments : List Judgment} (once : JudgedOnce judgments)
    {keys : List String} (distinct : keys.Nodup) (j : ℕ) :
    ∑ i ∈ Finset.range j, gain K (gradeAt (keys.map (gradeOf judgments)) i) ≤
      ∑ i ∈ Finset.range j, gain K (gradeAt (idealGrades judgments) i) := by
  have firsts : (keys.take j).Nodup := distinct.sublist (List.take_sublist j keys)
  have judgedOnly : ((keys.take j).map (gain K ∘ gradeOf judgments)).sum =
      (((keys.take j).filter fun key => key ∈ judgments.map (·.uri)).map
        (gain K ∘ gradeOf judgments)).sum := by
    generalize keys.take j = front
    induction front with
    | nil => rfl
    | cons first rest ih =>
      rw [List.filter_cons, List.map_cons, List.sum_cons, ih]
      split
      · rw [List.map_cons, List.sum_cons]
      · rename_i unjudged
        rw [Function.comp_apply, gradeOf_unjudged (by simpa using unjudged), gain_zero, zero_add]
  have within : List.Subperm (((keys.take j).filter fun key => key ∈ judgments.map (·.uri)).map
      (gradeOf judgments)) (judgments.map (·.relevance)) := by
    have uris : List.Subperm ((keys.take j).filter fun key => key ∈ judgments.map (·.uri))
        (judgments.map (·.uri)) := by
      refine List.subperm_of_subset (firsts.filter _) fun key member => ?_
      simpa using (List.mem_filter.mp member).2
    have grades : (judgments.map (·.uri)).map (gradeOf judgments) =
        judgments.map (·.relevance) := by
      rw [List.map_map]
      exact List.map_congr_left fun judgment member => gradeOf_judged once member
    obtain ⟨same, perm, sub⟩ := uris
    rw [← grades]
    exact ⟨same.map _, perm.map _, sub.map _⟩
  have perm : (idealGrades judgments).Perm (judgments.map (·.relevance)) :=
    List.perm_insertionSort _ _
  have falling := idealGrades_falling judgments
  rw [sum_gains, sum_gains, ← List.map_take, List.map_map, judgedOnly]
  have few : (((keys.take j).filter fun key => key ∈ judgments.map (·.uri)).map
      (gradeOf judgments) : Multiset UInt8).card ≤ j := by
    rw [Multiset.coe_card, List.length_map]
    exact (List.length_filter_le _ _).trans (List.length_take_le j keys)
  have bound := sum_le_sum_take (f := gain K) (falling.imp gain_le_iff.mpr)
    (fun grade _ => gain_nonneg grade) (Multiset.coe_le.mpr (within.trans perm.symm.subperm)) few
  rwa [Multiset.map_coe, Multiset.sum_coe, List.map_map] at bound

/-- **The discounted gain of a ranking** is at most the ideal one, and is the ideal one where the
grades are. -/
theorem Exact.dcg_le_and_eq_iff (exact_ : Exact K) {judgments : List Judgment}
    (once : JudgedOnce judgments) {keys : List String} (distinct : keys.Nodup) (k : ℕ) :
    (dcg (keys.map (gradeOf judgments)) k : K) ≤ dcg (idealGrades judgments) k ∧
      ((dcg (keys.map (gradeOf judgments)) k : K) = dcg (idealGrades judgments) k ↔
        ∀ i < k, gradeAt (keys.map (gradeOf judgments)) i = gradeAt (idealGrades judgments) i) := by
  rw [exact_.dcg_eq, exact_.dcg_eq]
  obtain ⟨below, same⟩ := exact_.discount_falls.sum_le_and_eq_iff fun j (_ : j ≤ k) =>
    gains_dominated once distinct j
  refine ⟨below, same.trans (forall₂_congr fun i _ => ?_)⟩
  exact gain_injective.eq_iff

theorem Exact.dcg_nonneg (exact_ : Exact K) (grades : List UInt8) (k : ℕ) :
    (0 : K) ≤ dcg grades k := by
  rw [exact_.dcg_eq]
  exact Finset.sum_nonneg fun i _ =>
    mul_nonneg (exact_.discount_falls.positive i).le (gain_nonneg _)

/-- Some judgment is positive, so the ideal gain is. -/
theorem Exact.ideal_pos (exact_ : Exact K) {judgments : List Judgment}
    (member : judgment ∈ judgments) (positive : 0 < judgment.relevance) {k : ℕ} (some : 1 ≤ k) :
    (0 : K) < dcg (idealGrades judgments) k := by
  have perm : (idealGrades judgments).Perm (judgments.map (·.relevance)) :=
    List.perm_insertionSort _ _
  have falling := idealGrades_falling judgments
  have listed := perm.mem_iff.mpr (List.mem_map_of_mem (f := fun j => j.relevance) member)
  have first : 0 < gradeAt (idealGrades judgments) 0 := by
    cases grades : idealGrades judgments with
    | nil =>
      rw [grades] at listed
      cases listed
    | cons head tail =>
      rw [grades] at listed falling
      rcases List.mem_cons.mp listed with same | behind
      · exact same ▸ positive
      · exact UInt8.lt_of_lt_of_le positive ((List.pairwise_cons.mp falling).1 _ behind)
  rw [exact_.dcg_eq]
  refine Finset.sum_pos' (fun i _ =>
    mul_nonneg (exact_.discount_falls.positive i).le (gain_nonneg _)) ⟨0, ?_, ?_⟩
  · exact Finset.mem_range.mpr some
  · refine mul_pos (exact_.discount_falls.positive 0) ?_
    rw [← @gain_zero K, gain_lt_iff]
    exact first

/-! ## The laws -/

/-- The ranking metrics of a query at a cutoff. -/
structure MetricsAt (F : Type) where
  recallAt : F
  capacityRecall : F
  reciprocalRank : F
  ndcg : F

/-- The metrics of a ranking of keys. -/
def metricsAt (F : Type) [DoubleArithmetic F] (query : RecallQuery) (keys : List String) (k : ℕ) :
    MetricsAt F where
  recallAt := rAtK keys query.judgments k
  capacityRecall := capacityRAtK keys query.judgments k
  reciprocalRank := mrr keys query.judgments
  ndcg := ndcgAtK keys query.judgments k

def ScoredQuery.metricsAt5 {F : Type} (row : ScoredQuery F) : MetricsAt F :=
  ⟨row.rAt5, row.capacityRAt5, row.reciprocalRank, row.ndcgAt5⟩

def ScoredQuery.metricsAt10 {F : Type} (row : ScoredQuery F) : MetricsAt F :=
  ⟨row.rAt10, row.capacityRAt10, row.reciprocalRank, row.ndcgAt10⟩

/-- Each metric is at least the other's. -/
structure MetricsAt.Reaches (metrics others : MetricsAt K) : Prop where
  recallAt : others.recallAt ≤ metrics.recallAt
  capacityRecall : others.capacityRecall ≤ metrics.capacityRecall
  reciprocalRank : others.reciprocalRank ≤ metrics.reciprocalRank
  ndcg : others.ndcg ≤ metrics.ndcg

/-- Each metric is between zero and one. -/
structure MetricsAt.InUnit (metrics : MetricsAt K) : Prop where
  recallAt : 0 ≤ metrics.recallAt ∧ metrics.recallAt ≤ 1
  capacityRecall : 0 ≤ metrics.capacityRecall ∧ metrics.capacityRecall ≤ 1
  reciprocalRank : 0 ≤ metrics.reciprocalRank ∧ metrics.reciprocalRank ≤ 1
  ndcg : 0 ≤ metrics.ndcg ∧ metrics.ndcg ≤ 1

/-- The laws of the ranking metrics of a query. -/
structure MetricLaws (K : Type) [Field K] [LinearOrder K] [DoubleArithmetic K]
    (query : RecallQuery) : Prop where
  /-- A scored query has the metrics of its distinct keys. -/
  scored : ∀ (ranked : List (String × K)) returned topScore latencyMs unresolvedKeys,
    (scoreQueryWithScores query ranked returned topScore latencyMs unresolvedKeys).metricsAt5 =
        metricsAt K query (distinctKeys ranked) 5 ∧
      (scoreQueryWithScores query ranked returned topScore latencyMs unresolvedKeys).metricsAt10 =
        metricsAt K query (distinctKeys ranked) 10
  inUnit : ∀ (ranked : List (String × K)) k, 1 ≤ k →
    (metricsAt K query (distinctKeys ranked) k).InUnit
  /-- The normalised gain is one where the first grades are the greatest ones. -/
  ndcg_one : ∀ (ranked : List (String × K)) k, 1 ≤ k →
    ((metricsAt K query (distinctKeys ranked) k).ndcg = 1 ↔
      ∀ i < k, gradeAt ((distinctKeys ranked).map (gradeOf query.judgments)) i =
        gradeAt (idealGrades query.judgments) i)
  recall_le : ∀ (ranked : List (String × K)) k, 1 ≤ k →
    (metricsAt K query (distinctKeys ranked) k).recallAt ≤
        (metricsAt K query (distinctKeys ranked) k).capacityRecall ∧
      (query.relevantKeys.length ≤ k → (metricsAt K query (distinctKeys ranked) k).recallAt =
        (metricsAt K query (distinctKeys ranked) k).capacityRecall)
  /-- Two neighbours, of which the one with the higher grade comes first. -/
  exchanged : ∀ (front : List (String × K)) upper lower back k, 1 ≤ k →
    gradeOf query.judgments upper.1 < gradeOf query.judgments lower.1 →
      (metricsAt K query (distinctKeys (front ++ lower :: upper :: back)) k).Reaches
        (metricsAt K query (distinctKeys (front ++ upper :: lower :: back)) k)

/-! ## The metrics of distinct keys -/

variable {query : RecallQuery} {keys : List String} {k : ℕ}

omit [DoubleArithmetic K] in
theorem ratio_inUnit {hits whole : ℕ} (within : hits ≤ whole) :
    (0 : K) ≤ (hits : K) / whole ∧ (hits : K) / whole ≤ 1 :=
  ⟨div_nonneg (Nat.cast_nonneg _) (Nat.cast_nonneg _),
    div_le_one_of_le₀ (Nat.cast_le.mpr within) (Nat.cast_nonneg _)⟩

section Counted

variable (exact_ : Exact K) {judgments : List Judgment} (once : JudgedOnce judgments)
  (relevant : relevantUris judgments ≠ []) (distinct : keys.Nodup)

/-- The relevant keys among the first ones. -/
def hitsAt (judgments : List Judgment) (keys : List String) (k : ℕ) : ℕ :=
  (keys.take k).countP fun uri => uri ∈ relevantUris judgments

include exact_ once relevant distinct

omit [IsStrictOrderedRing K] in
theorem rAtK_eq_ratio : (rAtK keys judgments k : K) =
    (hitsAt judgments keys k : K) / (relevantUris judgments).length := by
  rw [rAtK]
  dsimp only
  rw [if_neg relevant, exact_.div_eq, exact_.ofNat_eq, exact_.ofNat_eq,
    (countP_relevant once distinct k).1]
  rfl

omit [IsStrictOrderedRing K] in
theorem capacityRAtK_eq_ratio (some : 1 ≤ k) : (capacityRAtK keys judgments k : K) =
    (hitsAt judgments keys k : K) / (min (relevantUris judgments).length k : ℕ) := by
  have filled : ¬ ((relevantUris judgments).toFinset = ∅ ∨ k = 0) := by
    rintro (empty | zero)
    · exact relevant (List.toFinset_eq_empty_iff _ |>.mp empty)
    · omega
  rw [capacityRAtK]
  dsimp only
  rw [if_neg filled, exact_.div_eq, exact_.ofNat_eq, exact_.ofNat_eq,
    (countP_relevant once distinct k).2, List.toFinset_card_of_nodup (relevantUris_nodup once)]
  rfl

end Counted

theorem hitsAt_le {judgments : List Judgment} (once : JudgedOnce judgments)
    (distinct : keys.Nodup) : hitsAt judgments keys k ≤ (relevantUris judgments).length ∧
      hitsAt judgments keys k ≤ k := by
  constructor
  · rw [hitsAt, ← (countP_relevant once distinct k).1]
    exact List.countP_le_length
  · exact List.countP_le_length.trans (List.length_take_le k keys)

omit [IsStrictOrderedRing K] in
/-- The place of the first relevant key. -/
theorem Exact.mrr_eq (exact_ : Exact K) {judgments : List Judgment}
    (relevant : relevantUris judgments ≠ []) : (mrr keys judgments : K) =
      match keys.findIdx? fun uri => uri ∈ relevantUris judgments with
      | some i => 1 / ((i + 1 : ℕ) : K)
      | none => 0 := by
  have filled : (relevantUris judgments).toFinset ≠ ∅ := fun empty =>
    relevant (List.toFinset_eq_empty_iff _ |>.mp empty)
  have same : (fun uri : String => decide (uri ∈ (relevantUris judgments).toFinset)) =
      fun uri => decide (uri ∈ relevantUris judgments) := by
    funext uri
    simp
  rw [mrr]
  rw [if_neg filled, same]
  cases keys.findIdx? fun uri => uri ∈ relevantUris judgments with
  | none =>
    dsimp only
    rw [exact_.ofNat_eq, Nat.cast_zero]
  | some i =>
    dsimp only
    rw [exact_.div_eq, exact_.ofNat_eq, exact_.ofNat_eq, Nat.cast_one]

theorem Exact.mrr_inUnit (exact_ : Exact K) {judgments : List Judgment}
    (relevant : relevantUris judgments ≠ []) :
    (0 : K) ≤ mrr keys judgments ∧ (mrr keys judgments : K) ≤ 1 := by
  rw [exact_.mrr_eq relevant]
  split
  · rename_i i _
    have ratio := @ratio_inUnit K _ _ _ 1 (i + 1) (Nat.le_add_left 1 i)
    rwa [Nat.cast_one] at ratio
  · exact ⟨le_rfl, zero_le_one⟩

omit [IsStrictOrderedRing K] in
/-- The normalised gain of a ranking without repeats. -/
theorem Exact.ndcg_eq (exact_ : Exact K) {judgments : List Judgment}
    (ideal : (0 : K) < dcg (idealGrades judgments) k) : (ndcgAtK keys judgments k : K) =
      dcg (keys.map (gradeOf judgments)) k / dcg (idealGrades judgments) k := by
  have positive : ¬ equal (dcg (idealGrades judgments) k : K) (ofNat 0) = true := by
    rw [exact_.equal_iff, exact_.ofNat_eq, Nat.cast_zero]
    exact ideal.ne'
  rw [ndcgAtK]
  rw [if_neg positive, exact_.div_eq]

/-! ## Exchanging neighbours -/

section Exchange

variable {before after : List String} {upper lower : String}

/-- A property of the lower neighbour is met no later when it comes first. -/
theorem countP_take_exchange {p : String → Bool} (meets : p lower = true) (k : ℕ) :
    ((before ++ upper :: lower :: after).take k).countP p ≤
      ((before ++ lower :: upper :: after).take k).countP p := by
  induction before generalizing k with
  | nil =>
    match k with
    | 0 => exact le_rfl
    | 1 =>
      simp only [List.nil_append, List.take_succ_cons, List.take_zero]
      rw [List.countP_cons, List.countP_cons, meets]
      split <;> simp
    | k + 2 =>
      simp only [List.nil_append, List.take_succ_cons]
      rw [((List.Perm.swap lower upper (after.take k)).symm.countP_eq p)]
  | cons first rest ih =>
    cases k with
    | zero => exact le_rfl
    | succ k =>
      rw [List.cons_append, List.cons_append, List.take_succ_cons, List.take_succ_cons,
        List.countP_cons, List.countP_cons]
      exact Nat.add_le_add_right (ih k) _

/-- The first place of a property comes no later. -/
theorem findIdx?_exchange {p : String → Bool} (meets : p lower = true) :
    ∃ late early, (before ++ upper :: lower :: after).findIdx? p = some late ∧
      (before ++ lower :: upper :: after).findIdx? p = some early ∧ early ≤ late := by
  have first : (lower :: upper :: after).findIdx? p = some 0 := by
    rw [List.findIdx?_cons, meets]
    rfl
  rw [List.findIdx?_append, List.findIdx?_append, first]
  cases before.findIdx? p with
  | some i => exact ⟨i, i, rfl, rfl, le_rfl⟩
  | none =>
    rw [List.findIdx?_cons]
    cases p upper with
    | true => exact ⟨0 + before.length, 0 + before.length, rfl, rfl, le_rfl⟩
    | false =>
      rw [List.findIdx?_cons, meets]
      exact ⟨1 + before.length, 0 + before.length, rfl, rfl, by omega⟩

omit [DoubleArithmetic K] in
/-- The higher grade counts for more at the lower rank. -/
theorem weighted_exchange {w : ℕ → K} (falling : FallingWeights w) {front back : List UInt8}
    (less : low < high) (k : ℕ) :
    ∑ i ∈ Finset.range k, w i * gain K (gradeAt (front ++ low :: high :: back) i) ≤
      ∑ i ∈ Finset.range k, w i * gain K (gradeAt (front ++ high :: low :: back) i) := by
  have gains : gain K low < gain K high := gain_lt_iff.mpr less
  induction front generalizing w k with
  | nil =>
    match k with
    | 0 => exact le_rfl
    | 1 =>
      rw [Finset.sum_range_one, Finset.sum_range_one]
      exact mul_le_mul_of_nonneg_left gains.le (falling.positive 0).le
    | k + 2 =>
      rw [Finset.sum_range_succ', Finset.sum_range_succ', Finset.sum_range_succ' _ (k + 1),
        Finset.sum_range_succ' _ k]
      have same : ∀ i, gradeAt ([] ++ low :: high :: back) (i + 1 + 1) =
          gradeAt ([] ++ high :: low :: back) (i + 1 + 1) := fun i => rfl
      have drop : 0 ≤ (w 0 - w 1) * (gain K high - gain K low) :=
        mul_nonneg (sub_nonneg.mpr (falling.falls 0).le) (sub_nonneg.mpr gains.le)
      simp only [same]
      change _ + w 1 * gain K high + w 0 * gain K low ≤
        _ + w 1 * gain K low + w 0 * gain K high
      linarith
  | cons first rest ih =>
    cases k with
    | zero => exact le_rfl
    | succ k =>
      rw [Finset.sum_range_succ', Finset.sum_range_succ']
      exact add_le_add_left (@ih (fun i => w (i + 1))
        ⟨fun i => falling.positive _, fun i => falling.falls _⟩ k) _

end Exchange

/-- The metrics of distinct keys, of which two neighbours are exchanged. -/
theorem Exact.reaches_of_exchange (exact_ : Exact K) (once : JudgedOnce query.judgments)
    (member : judgment ∈ query.judgments) (positive : 0 < judgment.relevance)
    {before after : List String} {upper lower : String} (some : 1 ≤ k)
    (higher : gradeOf query.judgments upper < gradeOf query.judgments lower)
    (distinct : (before ++ upper :: lower :: after).Nodup)
    (exchanged : (before ++ lower :: upper :: after).Nodup) :
    (metricsAt K query (before ++ lower :: upper :: after) k).Reaches
      (metricsAt K query (before ++ upper :: lower :: after) k) := by
  have relevant : relevantUris query.judgments ≠ [] := by
    refine List.ne_nil_of_mem (a := judgment.uri) ((mem_relevantUris once).mpr ?_)
    rwa [gradeOf_judged once member]
  have listed : lower ∈ relevantUris query.judgments :=
    (mem_relevantUris once).mpr (UInt8.lt_of_le_of_lt UInt8.zero_le higher)
  have hits : (hitsAt query.judgments (before ++ upper :: lower :: after) k : K) ≤
      hitsAt query.judgments (before ++ lower :: upper :: after) k :=
    Nat.cast_le.mpr (countP_take_exchange (decide_eq_true listed) k)
  refine ⟨?_, ?_, ?_, ?_⟩
  · change rAtK _ _ _ ≤ rAtK _ _ _
    rw [rAtK_eq_ratio exact_ once relevant distinct, rAtK_eq_ratio exact_ once relevant exchanged]
    exact div_le_div_of_nonneg_right hits (Nat.cast_nonneg _)
  · change capacityRAtK _ _ _ ≤ capacityRAtK _ _ _
    rw [capacityRAtK_eq_ratio exact_ once relevant distinct some,
      capacityRAtK_eq_ratio exact_ once relevant exchanged some]
    exact div_le_div_of_nonneg_right hits (Nat.cast_nonneg _)
  · change mrr _ _ ≤ mrr _ _
    obtain ⟨late, early, lateAt, earlyAt, sooner⟩ :=
      @findIdx?_exchange before after upper lower (fun uri => uri ∈ relevantUris query.judgments)
        (decide_eq_true listed)
    rw [exact_.mrr_eq relevant, exact_.mrr_eq relevant, lateAt, earlyAt]
    exact one_div_le_one_div_of_le (Nat.cast_pos.mpr (Nat.succ_pos early))
      (Nat.cast_le.mpr (Nat.succ_le_succ sooner))
  · change ndcgAtK _ _ _ ≤ ndcgAtK _ _ _
    have ideal := exact_.ideal_pos member positive some
    rw [exact_.ndcg_eq ideal, exact_.ndcg_eq ideal]
    refine div_le_div_of_nonneg_right ?_ ideal.le
    rw [exact_.dcg_eq, exact_.dcg_eq, List.map_append, List.map_append, List.map_cons,
      List.map_cons, List.map_cons, List.map_cons]
    exact weighted_exchange exact_.discount_falls higher k

end Exact

/-! ## A query with two answers -/

section Example

/-- Exact arithmetic on rational numbers, in which a rank is discounted by its own number. -/
local instance rationalArithmetic : DoubleArithmetic ℚ where
  ofNat n := n
  hundredths n := n / 100
  add a b := a + b
  sub a b := a - b
  mul a b := a * b
  div a b := a / b
  max a b := Max.max a b
  min a b := Min.min a b
  twoToThe n := 2 ^ n
  log2 x := x
  ceiling x := (Max.max ⌈x⌉ 1).toNat
  less a b := decide (a < b)
  atMost a b := decide (a ≤ b)
  equal a b := decide (a = b)
  nearby a b := decide (|a - b| < 1 / 1000000000)
  isFinite _ := true
  infinity := 0
  debug _ := ""

local instance plainQuotes : DebugText := ⟨fun value => "'" ++ value ++ "'"⟩

theorem rationalArithmetic_exact : Exact ℚ where
  ofNat_eq _ := rfl
  add_eq _ _ := rfl
  sub_eq _ _ := rfl
  div_eq _ _ := rfl
  twoToThe_eq _ := rfl
  equal_iff _ _ := decide_eq_true_iff
  log2_pos i := by
    change (0 : ℚ) < (i : ℚ) + 2
    positivity
  log2_grows i := by
    change (i : ℚ) + 2 < ((i + 1 : ℕ) : ℚ) + 2
    push_cast
    linarith

/-- A question with two answers of different grades. -/
def twoAnswers : RecallQuery where
  id := "q1"
  text := "when do deploys run"
  category := "direct"
  relevant := [⟨"note/deploys", 3⟩, ⟨"note/calendar", 1⟩]
  exclude := []
  capacityWaiver := none
  judgmentsComplete := true
  expectAbstention := false
  judgmentSource := .humanReviewed
  groupId := none

end Example

end OpenMemory.Eval
