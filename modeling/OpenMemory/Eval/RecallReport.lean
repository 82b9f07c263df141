import OpenMemory.Eval.Contract

/-!
# Reports of recall runs

A query is scored from its ranked keys, and a report is assembled from the scored
queries: means over all of them, over each category and over each source of
judgments, how often nothing was returned where nothing is right, and how high
recall could go at all. The gates compare these figures; the latencies and the
rows of the single queries they leave alone.
-/

namespace OpenMemory.Eval

open Foundation DoubleArithmetic

/-- The rank at which the gates compare. -/
def gatedK : Nat := 10

variable {F : Type} [DoubleArithmetic F]

/-- `sort_by` with `partial_cmp`, where numbers that do not compare count as equal. -/
def ascendingValues (values : List F) : List F :=
  values.mergeSort fun a b => !less b a

/-! ## Latencies -/

structure LatencyStats (F : Type) where
  meanMs : F
  p50Ms : F
  p95Ms : F
  p99Ms : F
  maxMs : F

def LatencyStats.fromSamples (samples : List F) : LatencyStats F :=
  if samples = [] then
    ⟨ofNat 0, ofNat 0, ofNat 0, ofNat 0, ofNat 0⟩
  else
    let sorted := ascendingValues samples
    let pick (quantile : F) : F :=
      let rank := Max.max (ceiling (mul quantile (ofNat sorted.length))) 1
      sorted.getD (Min.min rank sorted.length - 1) (ofNat 0)
    { meanMs := div (total sorted) (ofNat sorted.length)
      p50Ms := pick (hundredths 50)
      p95Ms := pick (hundredths 95)
      p99Ms := pick (hundredths 99)
      maxMs := (sorted.getLast?).getD (ofNat 0) }

/-! ## Scored queries -/

/-- What came of one query. -/
structure ScoredQuery (F : Type) where
  queryId : String
  category : String
  groupId : Option String
  judgmentSource : JudgmentSource
  expectAbstention : Bool
  rAt5 : F
  rAt10 : F
  capacityRAt5 : F
  capacityRAt10 : F
  capacityWaived : Bool
  judgmentsComplete : Bool
  reciprocalRank : F
  ndcgAt5 : F
  ndcgAt10 : F
  returned : Nat
  topScore : F
  topRelevantScore : Option F
  physicalReturned : Nat
  unresolvedHits : Nat
  fetchRounds : Nat
  corpusExhausted : Bool
  latencyMs : F
  unresolvedKeys : Nat
  excludedHits : Nat

/-- Each key at its first place, with the score it has there. -/
def dedupePairs : List String → List (String × F) → List (String × F)
  | _, [] => []
  | seen, (key, score) :: rest =>
    if key ∈ seen then dedupePairs seen rest
    else (key, score) :: dedupePairs (key :: seen) rest

def RecallQuery.judgments (query : RecallQuery) : List Judgment :=
  query.relevant.map fun graded => ⟨graded.key, graded.relevance⟩

/-- Score the ranked keys of a query, which come with their scores. -/
def scoreQueryWithScores (query : RecallQuery) (ranked : List (String × F)) (returned : Nat)
    (topScore latencyMs : F) (unresolvedKeys : Nat) : ScoredQuery F :=
  let distinct := dedupePairs [] ranked
  let keys := distinct.map Prod.fst
  let judgments := query.judgments
  let relevantScores := (distinct.filter fun pair => pair.1 ∈ query.relevantKeys).map Prod.snd
  { queryId := query.id
    category := query.category
    groupId := query.groupId
    judgmentSource := query.judgmentSource
    expectAbstention := query.expectAbstention
    rAt5 := rAtK keys judgments 5
    rAt10 := rAtK keys judgments 10
    capacityRAt5 := capacityRAtK keys judgments 5
    capacityRAt10 := capacityRAtK keys judgments 10
    capacityWaived := query.capacityWaiver.isSome
    judgmentsComplete := query.judgmentsComplete
    reciprocalRank := mrr keys judgments
    ndcgAt5 := ndcgAtK keys judgments 5
    ndcgAt10 := ndcgAtK keys judgments 10
    returned := returned
    topScore := topScore
    topRelevantScore :=
      match relevantScores with
      | [] => none
      | first :: rest => some (rest.foldl max first)
    physicalReturned := returned
    unresolvedHits := 0
    fetchRounds := 0
    corpusExhausted := false
    latencyMs := latencyMs
    unresolvedKeys := unresolvedKeys
    excludedHits := 0 }

/-! ## Quality -/

structure QualityMetrics (F : Type) where
  nQueries : Nat
  nRecallQueries : Nat
  rAt5 : F
  rAt10 : F
  capacityRAt5 : F
  capacityRAt10 : F
  mrr : F
  ndcgAt5 : F
  ndcgAt10 : F
  judgmentsComplete : Bool
  deriving DecidableEq

def QualityMetrics.default : QualityMetrics F where
  nQueries := 0
  nRecallQueries := 0
  rAt5 := ofNat 0
  rAt10 := ofNat 0
  capacityRAt5 := ofNat 0
  capacityRAt10 := ofNat 0
  mrr := ofNat 0
  ndcgAt5 := ofNat 0
  ndcgAt10 := ofNat 0
  judgmentsComplete := true

/-- The means over the queries that have answers; raw recall leaves out those
whose capacity is waived. -/
def QualityMetrics.fromScored (scored : List (ScoredQuery F)) : QualityMetrics F :=
  let ranked := scored.filter fun row => !row.expectAbstention
  if ranked.length = 0 then default
  else
    let n := ofNat ranked.length
    let recallable := ranked.filter fun row => !row.capacityWaived
    let meanRecall (pick : ScoredQuery F → F) : F :=
      if recallable.length = 0 then ofNat 0
      else div (total (recallable.map pick)) (ofNat recallable.length)
    { nQueries := ranked.length
      nRecallQueries := recallable.length
      rAt5 := meanRecall (·.rAt5)
      rAt10 := meanRecall (·.rAt10)
      capacityRAt5 := div (total (ranked.map (·.capacityRAt5))) n
      capacityRAt10 := div (total (ranked.map (·.capacityRAt10))) n
      mrr := div (total (ranked.map (·.reciprocalRank))) n
      ndcgAt5 := div (total (ranked.map (·.ndcgAt5))) n
      ndcgAt10 := div (total (ranked.map (·.ndcgAt10))) n
      judgmentsComplete := ranked.all (·.judgmentsComplete) }

/-! ## The recall ceiling -/

structure CategoryCeiling (F : Type) where
  nQueries : Nat
  meanCeiling : F
  minCeiling : F
  cappedQueries : Nat

structure WaivedQuery where
  queryId : String
  category : String
  judged : Nat
  reason : String

structure RecallCeiling (F : Type) where
  k : Nat
  nQueries : Nat
  meanCeiling : F
  minCeiling : Option F
  cappedQueries : Nat
  cappedShare : F
  worst : List (String × Nat)
  byCategory : List (String × CategoryCeiling F)
  waived : List WaivedQuery
  unusedWaivers : List String

/-- How many worst offenders a report shows. -/
def worstShown : Nat := 10

/-- What the ceiling reads of a query that has answers. -/
structure Judged where
  id : String
  category : String
  judged : Nat
  waiver : Option CapacityWaiver

/-- The queries that have answers and a graded target. -/
def judgedQueries (queries : List RecallQuery) : List Judged :=
  ((queries.filter fun query => !query.expectAbstention).map fun query =>
    ⟨query.id, query.category, query.relevantKeys.length, query.capacityWaiver⟩).filter
      fun entry => entry.judged ≠ 0

/-- The exemption of a query that needs the waiver it declares. -/
def Judged.exemption (k : Nat) (entry : Judged) : Option WaivedQuery :=
  match entry.waiver with
  | some waiver =>
    if k < entry.judged then some ⟨entry.id, entry.category, entry.judged, waiver.reason⟩
    else none
  | none => none

def Judged.ratio (k : Nat) (entry : Judged) : F :=
  div (ofNat (Min.min entry.judged k)) (ofNat entry.judged)

/-- More judged targets first, then by id. -/
def worseOffender (a b : String × Nat) : Prop := b.2 < a.2 ∨ (a.2 = b.2 ∧ a.1 ≤ b.1)

instance : DecidableRel worseOffender := fun _ _ => inferInstanceAs (Decidable (_ ∨ _))

/-- The ceiling of the queries that a set has, as its judged queries. -/
def ceilingOf (entries : List Judged) (k : Nat) : RecallCeiling F :=
  let ordinary := entries.filter fun entry => (entry.exemption k).isNone
  let ratios : List F := ordinary.map (Judged.ratio k)
  let capped := ordinary.filter fun entry => k < entry.judged
  let n := ratios.length
  { k := k
    nQueries := n
    meanCeiling := if n = 0 then ofNat 1 else div (total ratios) (ofNat n)
    minCeiling := some (ratios.foldl min (ofNat 1))
    cappedQueries := capped.length
    cappedShare := if n = 0 then ofNat 0 else div (ofNat capped.length) (ofNat n)
    worst := ((capped.map fun entry => (entry.id, entry.judged)).insertionSort
      worseOffender).take worstShown
    byCategory := (groupedBy Judged.category ordinary).map fun group =>
      let values : List F := group.2.map (Judged.ratio k)
      (group.1,
        { nQueries := values.length
          meanCeiling := div (total values) (ofNat values.length)
          minCeiling := values.foldl min infinity
          cappedQueries := (group.2.filter fun entry => k < entry.judged).length })
    waived := sortedBy WaivedQuery.queryId (entries.filterMap (Judged.exemption k))
    unusedWaivers := ((ordinary.filter fun entry => entry.waiver.isSome).map
      (·.id)).insertionSort (· ≤ ·) }

def RecallCeiling.measure (set : RecallQuerySet) (k : Nat) : RecallCeiling F :=
  ceilingOf (judgedQueries set.queries) k

/-! ## Abstention -/

structure ThresholdPoint (F : Type) where
  threshold : F
  abstained : F
  answerRetained : F

structure AbstentionMetrics (F : Type) where
  nQueries : Nat
  nGroups : Nat
  abstained : F
  meanFalseResults : F
  maxFalseScore : F
  riskCoverage : List (ThresholdPoint F)

def AbstentionMetrics.default : AbstentionMetrics F where
  nQueries := 0
  nGroups := 0
  abstained := ofNat 0
  meanFalseResults := ofNat 0
  maxFalseScore := ofNat 0
  riskCoverage := []

/-- `dedup_by`: what is close to the last one kept goes. -/
def dedupNearby : List F → List F
  | [] => []
  | first :: rest => first :: keepApart first rest
where
  keepApart : F → List F → List F
    | _, [] => []
    | kept, value :: rest =>
      if nearby value kept then keepApart kept rest else value :: keepApart value rest

/-- `step_by`: every `stride`-th element, from the first. -/
def stepBy {α : Type} (stride : Nat) (l : List α) : List α :=
  (l.zipIdx.filter fun entry => entry.2 % stride = 0).map Prod.fst

/-- What each score would buy and cost as a threshold. -/
def riskCoverageCurve (abstain answerable : List (ScoredQuery F)) : List (ThresholdPoint F) :=
  if abstain.length = 0 then []
  else
    let observed := (abstain.map (·.topScore) ++ answerable.filterMap (·.topRelevantScore)).filter
      isFinite
    let candidates := dedupNearby (ascendingValues (observed ++ [ofNat 0]))
    let stride := Max.max (candidates.length / 12) 1
    (stepBy stride candidates).map fun threshold =>
      { threshold := threshold
        abstained := div (ofNat (abstain.countP fun row => atMost row.topScore threshold))
          (ofNat abstain.length)
        answerRetained :=
          if answerable.length = 0 then ofNat 0
          else div (ofNat (answerable.countP fun row => row.topRelevantScore.any (less threshold)))
            (ofNat answerable.length) }

/-- The cluster that a row counts for. -/
def ScoredQuery.group (row : ScoredQuery F) : String := row.groupId.getD row.queryId

def AbstentionMetrics.fromScored (scored : List (ScoredQuery F)) : AbstentionMetrics F :=
  let abstain := scored.filter fun row => row.expectAbstention
  let answerable := scored.filter fun row => !row.expectAbstention
  if abstain.length = 0 then default
  else
    let n := ofNat abstain.length
    { nQueries := abstain.length
      nGroups := (abstain.map ScoredQuery.group).toFinset.card
      abstained := div (ofNat (abstain.countP fun row => row.returned = 0)) n
      meanFalseResults := div (total (abstain.map fun row => ofNat row.returned)) n
      maxFalseScore := (abstain.map (·.topScore)).foldl max (ofNat 0)
      riskCoverage := riskCoverageCurve abstain answerable }

/-! ## Reports -/

structure RecallReport (F : Type) where
  contract : Option (EvaluationContract F)
  recallCeiling : Option (RecallCeiling F)
  dataset : String
  strategy : String
  overall : QualityMetrics F
  abstention : AbstentionMetrics F
  byCategory : List (String × QualityMetrics F)
  byJudgmentSource : List (String × QualityMetrics F)
  latency : LatencyStats F
  perQuery : List (ScoredQuery F)
  unresolvedKeys : Nat
  excludedHits : Nat

def RecallReport.assemble (dataset strategy : String) (scored : List (ScoredQuery F)) :
    RecallReport F where
  contract := none
  recallCeiling := none
  dataset := dataset
  strategy := strategy
  overall := QualityMetrics.fromScored scored
  abstention := AbstentionMetrics.fromScored scored
  byCategory := (groupedBy ScoredQuery.category scored).map fun group =>
    (group.1, QualityMetrics.fromScored group.2)
  byJudgmentSource := (groupedBy (fun row => row.judgmentSource.asStr) scored).map fun group =>
    (group.1, QualityMetrics.fromScored group.2)
  latency := LatencyStats.fromSamples (scored.map (·.latencyMs))
  perQuery := scored
  unresolvedKeys := (scored.map (·.unresolvedKeys)).sum
  excludedHits := (scored.map (·.excludedHits)).sum

/-- The figures of a report that the gates compare. -/
structure Figures (F : Type) where
  overall : QualityMetrics F
  abstention : AbstentionMetrics F
  byCategory : List (String × QualityMetrics F)
  byJudgmentSource : List (String × QualityMetrics F)
  recallCeiling : Option (RecallCeiling F)
  unresolvedKeys : Nat

def RecallReport.figures (report : RecallReport F) : Figures F where
  overall := report.overall
  abstention := report.abstention
  byCategory := report.byCategory
  byJudgmentSource := report.byJudgmentSource
  recallCeiling := report.recallCeiling
  unresolvedKeys := report.unresolvedKeys

/-! ## What the figures read of a row -/

namespace ScoredQuery

/-- A row with answers, without its cluster, its latency and the trace of its fetches. -/
def scores (row : ScoredQuery F) : ScoredQuery F :=
  { row with
    groupId := none
    physicalReturned := 0
    unresolvedHits := 0
    fetchRounds := 0
    corpusExhausted := false
    latencyMs := ofNat 0
    excludedHits := 0 }

/-- What there is to a row without answers: its cluster, and what was returned. -/
def answers (row : ScoredQuery F) : ScoredQuery F where
  queryId := row.queryId
  category := row.category
  groupId := some row.group
  judgmentSource := row.judgmentSource
  expectAbstention := row.expectAbstention
  rAt5 := ofNat 0
  rAt10 := ofNat 0
  capacityRAt5 := ofNat 0
  capacityRAt10 := ofNat 0
  capacityWaived := false
  judgmentsComplete := true
  reciprocalRank := ofNat 0
  ndcgAt5 := ofNat 0
  ndcgAt10 := ofNat 0
  returned := row.returned
  topScore := row.topScore
  topRelevantScore := none
  physicalReturned := 0
  unresolvedHits := 0
  fetchRounds := 0
  corpusExhausted := false
  latencyMs := ofNat 0
  unresolvedKeys := row.unresolvedKeys
  excludedHits := 0

/-- A row without what no figure reads. -/
def essence (row : ScoredQuery F) : ScoredQuery F :=
  if row.expectAbstention then row.answers else row.scores

@[simp] theorem essence_expectAbstention (row : ScoredQuery F) :
    row.essence.expectAbstention = row.expectAbstention := by
  unfold essence
  split <;> rfl

@[simp] theorem essence_category (row : ScoredQuery F) : row.essence.category = row.category := by
  unfold essence
  split <;> rfl

@[simp] theorem essence_judgmentSource (row : ScoredQuery F) :
    row.essence.judgmentSource = row.judgmentSource := by
  unfold essence
  split <;> rfl

@[simp] theorem essence_unresolvedKeys (row : ScoredQuery F) :
    row.essence.unresolvedKeys = row.unresolvedKeys := by
  unfold essence
  split <;> rfl

end ScoredQuery

variable {rows : List (ScoredQuery F)}

theorem answerable_essence :
    ((rows.map ScoredQuery.essence).filter fun row => !row.expectAbstention) =
      (rows.filter fun row => !row.expectAbstention).map ScoredQuery.scores := by
  have flags : (fun row : ScoredQuery F => !row.expectAbstention) ∘ ScoredQuery.essence =
      fun row => !row.expectAbstention := funext fun row => by simp
  rw [List.filter_map, flags]
  apply List.map_congr_left
  intro row member
  rw [ScoredQuery.essence, if_neg (by simpa using (List.mem_filter.mp member).2)]

theorem abstaining_essence :
    ((rows.map ScoredQuery.essence).filter fun row => row.expectAbstention) =
      (rows.filter fun row => row.expectAbstention).map ScoredQuery.answers := by
  have flags : (fun row : ScoredQuery F => row.expectAbstention) ∘ ScoredQuery.essence =
      fun row => row.expectAbstention := funext fun row => by simp
  rw [List.filter_map, flags]
  apply List.map_congr_left
  intro row member
  rw [ScoredQuery.essence, if_pos (by simpa using (List.mem_filter.mp member).2)]

theorem QualityMetrics.fromScored_essence :
    QualityMetrics.fromScored (rows.map ScoredQuery.essence) = QualityMetrics.fromScored rows := by
  unfold fromScored
  rw [answerable_essence]
  simp only [List.filter_map, List.length_map, List.map_map, List.all_map]
  rfl

theorem riskCoverageCurve_essence (abstain answerable : List (ScoredQuery F)) :
    riskCoverageCurve (abstain.map ScoredQuery.answers) (answerable.map ScoredQuery.scores) =
      riskCoverageCurve abstain answerable := by
  unfold riskCoverageCurve
  simp only [List.length_map, List.map_map, List.filterMap_map, List.countP_map]
  rfl

theorem AbstentionMetrics.fromScored_essence :
    AbstentionMetrics.fromScored (rows.map ScoredQuery.essence) =
      AbstentionMetrics.fromScored rows := by
  unfold fromScored
  rw [answerable_essence, abstaining_essence]
  simp only [List.length_map, List.map_map, List.countP_map, riskCoverageCurve_essence]
  rfl

theorem groups_essence {key : ScoredQuery F → String}
    (keeps : ∀ row : ScoredQuery F, key row.essence = key row) :
    ((groupedBy key (rows.map ScoredQuery.essence)).map fun group =>
        (group.1, QualityMetrics.fromScored group.2)) =
      (groupedBy key rows).map fun group => (group.1, QualityMetrics.fromScored group.2) := by
  rw [groupedBy_map ScoredQuery.essence keeps, List.map_map]
  apply List.map_congr_left
  intro group _
  exact congrArg (Prod.mk group.1) QualityMetrics.fromScored_essence

/-- The figures of a run depend on its rows by what they are in essence. -/
theorem RecallReport.figures_assemble_essence (dataset strategy : String) :
    (assemble dataset strategy (rows.map ScoredQuery.essence)).figures =
      (assemble dataset strategy rows).figures := by
  have keys : (rows.map ScoredQuery.essence).map (·.unresolvedKeys) =
      rows.map (·.unresolvedKeys) := by
    rw [List.map_map]
    exact List.map_congr_left fun row _ => row.essence_unresolvedKeys
  have sources (row : ScoredQuery F) :
      row.essence.judgmentSource.asStr = row.judgmentSource.asStr :=
    congrArg JudgmentSource.asStr row.essence_judgmentSource
  unfold assemble figures
  simp only [QualityMetrics.fromScored_essence, AbstentionMetrics.fromScored_essence, keys,
    groups_essence ScoredQuery.essence_category,
    @groups_essence _ _ rows (fun row => row.judgmentSource.asStr) sources]

end OpenMemory.Eval
