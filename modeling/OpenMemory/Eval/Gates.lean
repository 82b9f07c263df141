import OpenMemory.Eval.RecallReport

/-!
# Quality gates

A run is held against a recorded baseline. Comparability comes first: the figures
of two experiments are no regression signal, and nothing further is asked of them.
Then each gate asks whether a figure dropped by more than its limit, over the whole
set, over each category and each source of judgments, and over the questions that
have no answer. Four more gates look at the run by itself, the last of them at
whether the numbers that the others compare are numbers at all.

Every gate yields an outcome, and a report passes where every outcome does. The
texts of the outcomes are those a reader is shown; how a number is written is a
parameter.
-/

namespace OpenMemory.Eval

open Foundation DoubleArithmetic

/-- What the gates add to the operations on `f64`. -/
class GateArithmetic (F : Type) where
  /-- The literal `1e-9`. -/
  slack : F
  /-- The text of `{}`. -/
  display : F → String
  /-- The text of `{:.n}`. -/
  fixed : Nat → F → String

open GateArithmetic

structure QualityGates (F : Type) where
  maxCategoryDrop : F
  maxAggregateDrop : F
  requireAllCategories : Bool
  minRecallCeiling : F
  minQueryCeiling : F
  maxCappedQueries : Nat
  maxAbstentionDrop : F
  requireCorpusReceipt : Bool

/-! ## Outcomes -/

inductive Verdict where
  | pass
  | fail
  | indeterminateNeedsAdjudication
  deriving DecidableEq

def Verdict.isPass (verdict : Verdict) : Bool := verdict = .pass

def Verdict.blocks (verdict : Verdict) : Bool := verdict = .fail

structure GateOutcome where
  name : String
  passed : Bool
  detail : Option String
  verdict : Option Verdict

/-- The verdict, or what a record without one meant. -/
def GateOutcome.conclusion (outcome : GateOutcome) : Verdict :=
  outcome.verdict.getD (if outcome.passed then .pass else .fail)

def gateSchemaVersion : Nat := 2

structure GateReport (F : Type) where
  schemaVersion : Nat
  gates : Option (QualityGates F)
  dataset : String
  strategy : String
  contract : Option (EvaluationContract F)
  baselineContract : Option (EvaluationContract F)
  capacityWaivers : List WaivedQuery
  outcomes : List GateOutcome

namespace GateReport

variable {F : Type}

def passed (report : GateReport F) : Bool := report.outcomes.all (·.passed)

def indeterminate (report : GateReport F) : List GateOutcome :=
  report.outcomes.filter fun outcome => outcome.conclusion = .indeterminateNeedsAdjudication

def blocking (report : GateReport F) : List GateOutcome :=
  report.outcomes.filter fun outcome => outcome.conclusion.blocks

def failures (report : GateReport F) : List GateOutcome :=
  report.outcomes.filter fun outcome => !outcome.passed

end GateReport

/-- The outcome of a gate that passes when it finds no problem. -/
def gateOf (name : String) (problems : List String) (detail : String) : GateOutcome where
  name := name
  passed := problems.isEmpty
  detail := if problems.isEmpty then none else some detail
  verdict := none

/-- The outcome of a gate that fails as it stands. -/
def refusal (name detail : String) : GateOutcome := ⟨name, false, some detail, none⟩

variable {F : Type} [DoubleArithmetic F] [GateArithmetic F]

def QualityGates.default : QualityGates F where
  maxCategoryDrop := hundredths 1
  maxAggregateDrop := hundredths 1
  requireAllCategories := true
  minRecallCeiling := ofNat 1
  minQueryCeiling := ofNat 1
  maxCappedQueries := 0
  maxAbstentionDrop := hundredths 5
  requireCorpusReceipt := false

/-! ## The gates of a comparison -/

/-- Refuse to compare reports that describe different experiments. -/
def comparabilityGate (current baseline : RecallReport F) : GateOutcome :=
  match baseline.contract, current.contract with
  | some base, some now =>
    let diffs := base.differences now
    gateOf "comparable_experiment" diffs
      ("baseline and current describe different experiments, so their scores are not " ++
        "a regression signal: " ++ String.intercalate "; " diffs)
  | _, _ =>
    refusal "comparable_experiment"
      ("a report is missing its evaluation contract, so comparability cannot be " ++
        "established; re-run to produce one")

/-- The sides that have no corpus receipt. -/
def withoutReceipt (current baseline : RecallReport F) : List String :=
  ([("baseline", baseline.contract), ("current", current.contract)].filter fun side =>
    side.2.all fun contract => contract.corpusReceipt.isNone).map Prod.fst

def corpusReceiptGate (current baseline : RecallReport F) : GateOutcome :=
  let missing := withoutReceipt current baseline
  gateOf "corpus_receipt" missing
    ("no corpus receipt on: " ++ String.intercalate ", " missing ++
      ". Without one the comparison is bound                          to a directory " ++
      "name, and two different corpora can sit at the                          same path " ++
      "on different days")

/-- The aggregate figures that are compared: a name, the figure now and before. -/
def aggregateMetrics (current baseline : RecallReport F) : List (String × F × F) :=
  [("R@10", current.overall.rAt10, baseline.overall.rAt10),
    ("MRR", current.overall.mrr, baseline.overall.mrr),
    ("NDCG@10", current.overall.ndcgAt10, baseline.overall.ndcgAt10)]

def aggregateGate (current baseline : RecallReport F) (gates : QualityGates F) : GateOutcome :=
  let regressions := ((aggregateMetrics current baseline).filter fun metric =>
    less gates.maxAggregateDrop (sub metric.2.2 metric.2.1)).map fun metric =>
      metric.1 ++ " " ++ fixed 4 metric.2.2 ++ " -> " ++ fixed 4 metric.2.1
  gateOf "aggregate_quality" regressions
    ("aggregate metrics dropped more than " ++ fixed 3 gates.maxAggregateDrop ++ ": " ++
      String.intercalate ", " regressions)

/-- What a drop in a category is followed by where its judgments are not exhaustive. -/
def incompleteCaveat : String :=
  ". This category's judgments are not exhaustive, so this movement cannot decide " ++
    "anything: a correct-but-unjudged document displacing a judged one produces exactly " ++
    "this signal, and so does a real regression. Adjudicate the union of both arms' top " ++
    "results, freeze a new query-set version, and rerun before treating it either way"

/-- The gate of a category that both reports have. -/
def categoryGate (gates : QualityGates F) (category : String) (base now : QualityMetrics F) :
    GateOutcome :=
  let drop := sub base.ndcgAt10 now.ndcgAt10
  let incomplete := !now.judgmentsComplete || !base.judgmentsComplete
  let moved := less gates.maxCategoryDrop drop
  -- over partial labels a drop has no known direction
  let verdict : Verdict :=
    match moved, incomplete with
    | false, _ => .pass
    | true, false => .fail
    | true, true => .indeterminateNeedsAdjudication
  { name := "category:" ++ category
    passed := verdict.isPass
    detail :=
      if moved then
        some ("NDCG@10 " ++ fixed 4 base.ndcgAt10 ++ " -> " ++ fixed 4 now.ndcgAt10 ++
          " (drop " ++ fixed 4 drop ++ ", limit " ++ fixed 3 gates.maxCategoryDrop ++
          "); an aggregate can hide this" ++ if incomplete then incompleteCaveat else "")
      else none
    verdict := some verdict }

/-- Categories without queries in the baseline are skipped, and absent ones are left
to the coverage gate. -/
def categoryGates (current baseline : RecallReport F) (gates : QualityGates F) :
    List GateOutcome :=
  baseline.byCategory.filterMap fun entry =>
    if entry.2.nQueries = 0 then none
    else (current.byCategory.lookup entry.1).map (categoryGate gates entry.1 entry.2)

def coverageGate (current baseline : RecallReport F) : GateOutcome :=
  let missing := (baseline.byCategory.filter fun entry =>
    0 < entry.2.nQueries && (current.byCategory.lookup entry.1).isNone).map Prod.fst
  gateOf "category_coverage" missing
    ("categories present in the baseline are absent now: " ++ String.intercalate ", " missing ++
      ". A vanished category reads as 'no regression' while being total loss of coverage")

/-- The gate of a source of judgments, which must still be there. -/
def judgmentSourceGate (gates : QualityGates F) (source : String) (base : QualityMetrics F)
    (now : Option (QualityMetrics F)) : GateOutcome :=
  let name := "judgment_source:" ++ source
  match now with
  | none =>
    refusal name ("the " ++ source ++ " slice had " ++ toString base.nQueries ++
      " queries in the baseline and is absent now; a slice that vanishes reads as " ++
      "'no regression'")
  | some now =>
    if now.nQueries = 0 then
      refusal name ("the " ++ source ++ " slice dropped from " ++ toString base.nQueries ++
        " queries to none")
    else
      let drop := sub base.ndcgAt10 now.ndcgAt10
      { name := name
        passed := atMost drop gates.maxCategoryDrop
        detail :=
          if less gates.maxCategoryDrop drop then
            some (source ++ " NDCG@10 " ++ fixed 4 base.ndcgAt10 ++ " -> " ++
              fixed 4 now.ndcgAt10 ++ " (drop " ++ fixed 4 drop ++ ", limit " ++
              fixed 3 gates.maxCategoryDrop ++ ") over " ++ toString now.nQueries ++
              " queries; the overall mean can hide this behind another slice")
          else none
        verdict := none }

def judgmentSourceGates (current baseline : RecallReport F) (gates : QualityGates F) :
    List GateOutcome :=
  (baseline.byJudgmentSource.filter fun entry => entry.2.nQueries ≠ 0).map fun entry =>
    judgmentSourceGate gates entry.1 entry.2 (current.byJudgmentSource.lookup entry.1)

/-- How many questions a rate is over, in clusters where these are fewer. -/
def AbstentionMetrics.sample (metrics : AbstentionMetrics F) : String :=
  if 0 < metrics.nGroups ∧ metrics.nGroups < metrics.nQueries then
    toString metrics.nQueries ++ " queries from " ++ toString metrics.nGroups ++ " clusters"
  else toString metrics.nQueries ++ " queries"

def abstentionGate (current baseline : RecallReport F) (gates : QualityGates F) : GateOutcome :=
  let base := baseline.abstention
  let now := current.abstention
  if base.nQueries = 0 then ⟨"abstention_quality", true, none, none⟩
  else if now.nQueries = 0 then
    refusal "abstention_quality" ("the baseline scored " ++ toString base.nQueries ++
      " no-answer queries and this run scored none; abstention is invisible to every " ++
      "ranking metric, so losing the slice silently removes the only check on it")
  else
    let drop := sub base.abstained now.abstained
    { name := "abstention_quality"
      passed := atMost drop gates.maxAbstentionDrop
      detail :=
        if less gates.maxAbstentionDrop drop then
          some ("abstention rate " ++ fixed 4 base.abstained ++ " -> " ++
            fixed 4 now.abstained ++ " (drop " ++ fixed 4 drop ++ ", limit " ++
            fixed 3 gates.maxAbstentionDrop ++ ") over " ++ now.sample ++
            "; the system started answering questions that have no answer")
        else none
      verdict := none }

/-! ## The gates of a run by itself -/

def unresolvedGate (current : RecallReport F) : GateOutcome where
  name := "judgments_resolve"
  passed := current.unresolvedKeys = 0
  detail :=
    if 0 < current.unresolvedKeys then
      some (toString current.unresolvedKeys ++ " judged keys did not resolve to any store " ++
        "row; a stale query set is indistinguishable from a quality regression")
    else none
  verdict := none

/-- `(0.0..=1.0).contains(&value)`. -/
def isRatio (value : F) : Bool := atMost (ofNat 0) value && atMost value (ofNat 1)

/-- Catches a report whose abstention slice is impossible in itself. -/
def abstentionSanityGate (current : RecallReport F) : GateOutcome :=
  let a := current.abstention
  let impossible := decide (0 < a.nQueries) && !isRatio a.abstained
  { name := "abstention_wellformed"
    passed := !impossible
    detail :=
      if impossible then
        some ("abstention rate " ++ fixed 4 a.abstained ++ " is outside [0, 1]")
      else none
    verdict := none }

/-- What is wrong with how high recall could go. -/
def ceilingProblems (ceiling : RecallCeiling F) (minCeiling : F) (gates : QualityGates F) :
    List String :=
  let k := toString ceiling.k
  let unreachable :=
    if less minCeiling (sub gates.minQueryCeiling slack) then
      ["the worst single query admits R@" ++ k ++ " of only " ++ fixed 4 minCeiling ++
        ", below the required " ++ fixed 4 gates.minQueryCeiling ++ ". Worst: " ++
        String.intercalate ", " (ceiling.worst.map fun offender =>
          offender.1 ++ " (" ++ toString offender.2 ++ " targets)")]
    else []
  let capped :=
    if gates.maxCappedQueries < ceiling.cappedQueries then
      [toString ceiling.cappedQueries ++ " of " ++ toString ceiling.nQueries ++
        " answerable queries are judged against more than " ++ k ++ " targets (" ++
        fixed 1 (mul ceiling.cappedShare (ofNat 100)) ++ "% of the set), above the tolerated " ++
        toString gates.maxCappedQueries]
    else []
  let mean :=
    if less ceiling.meanCeiling (sub gates.minRecallCeiling slack) then
      ["the mean attainable R@" ++ k ++ " is " ++ fixed 4 ceiling.meanCeiling ++
        ", below the required " ++ fixed 4 gates.minRecallCeiling]
    else []
  let binding := unreachable ++ capped ++ mean
  let hurt := (ceiling.byCategory.filter fun entry => 0 < entry.2.cappedQueries).map fun entry =>
    entry.1 ++ " (" ++ toString entry.2.cappedQueries ++ "/" ++ toString entry.2.nQueries ++
      " capped, mean " ++ fixed 4 entry.2.meanCeiling ++ ", worst " ++
      fixed 4 entry.2.minCeiling ++ ")"
  let named :=
    if binding ≠ [] ∧ hurt ≠ [] then ["by category: " ++ String.intercalate ", " hurt] else []
  let stale :=
    if ceiling.unusedWaivers ≠ [] then
      [toString ceiling.unusedWaivers.length ++ " capacity waiver(s) no longer apply — their " ++
        "queries now fit inside " ++ k ++ " targets, so the declaration is stale and should " ++
        "be deleted: " ++ String.intercalate ", " ceiling.unusedWaivers]
    else []
  binding ++ named ++ stale

/-- The waivers in force, as a reader is shown them. -/
def RecallCeiling.waivers (ceiling : RecallCeiling F) : String :=
  if ceiling.waived = [] then "none"
  else String.intercalate "; " (ceiling.waived.map fun waiver =>
    waiver.queryId ++ " (" ++ toString waiver.judged ++ " targets: " ++ waiver.reason ++ ")")

/-- Refuse a query set on which perfect retrieval could not score 1.0. -/
def recallCeilingGate (current : RecallReport F) (gates : QualityGates F) : GateOutcome :=
  match current.recallCeiling with
  | none =>
    refusal "recall_ceiling"
      ("the report carries no recall ceiling, so it is not known whether its R@10 could " ++
        "reach 1.0; re-run to produce one")
  | some ceiling =>
    match ceiling.minCeiling with
    | none =>
      refusal "recall_ceiling"
        ("this report predates the per-query ceiling statistic, so it can say" ++
          "                  what its query set scored on average but not whether any " ++
          "single query                  was unreachable — the exact question a mean " ++
          "cannot answer. Re-run to                  produce one")
    | some minCeiling =>
      let problems := ceilingProblems ceiling minCeiling gates
      let k := toString ceiling.k
      gateOf "recall_ceiling" problems
        (String.intercalate ". " problems ++ ". Only raw R@" ++ k ++ " is capped — NDCG@" ++
          k ++ " computes its ideal DCG over the top " ++ k ++ " judgments and can still " ++
          "reach 1.0, and MRR is unaffected — so read this as 'R@" ++ k ++ " is a " ++
          "mixture', not 'the run is invalid'. If a question genuinely has more than " ++ k ++
          " right answers, declare a capacity waiver on that query with a reason; do not " ++
          "lower a global threshold, which would also authorise every unrelated qrel " ++
          "defect. Waivers in force: " ++ ceiling.waivers)

/-! ## Whether the numbers are numbers -/

/-- The figures of a slice that are no finite numbers. -/
def metricProblems (label : String) (m : QualityMetrics F) : List String :=
  [("R@5", m.rAt5), ("R@10", m.rAt10), ("MRR", m.mrr), ("NDCG@5", m.ndcgAt5),
    ("NDCG@10", m.ndcgAt10)].filterMap fun figure =>
      if isFinite figure.2 then none
      else some (label ++ " " ++ figure.1 ++ " is " ++ display figure.2)

def reportProblems (side : String) (report : RecallReport F) : List String :=
  metricProblems side report.overall ++
    (report.byCategory.flatMap fun entry =>
      metricProblems (side ++ " category " ++ entry.1) entry.2) ++
    (report.byJudgmentSource.flatMap fun entry =>
      metricProblems (side ++ " source " ++ entry.1) entry.2) ++
    if isFinite report.abstention.abstained then []
    else [side ++ " abstention rate is " ++ display report.abstention.abstained]

def QualityGates.thresholds (gates : QualityGates F) : List (String × F) :=
  [("max_category_drop", gates.maxCategoryDrop), ("max_aggregate_drop", gates.maxAggregateDrop),
    ("max_abstention_drop", gates.maxAbstentionDrop),
    ("min_recall_ceiling", gates.minRecallCeiling),
    ("min_query_ceiling", gates.minQueryCeiling)]

def QualityGates.ceilingThresholds (gates : QualityGates F) : List (String × F) :=
  [("min_recall_ceiling", gates.minRecallCeiling), ("min_query_ceiling", gates.minQueryCeiling)]

def thresholdProblems (gates : QualityGates F) : List String :=
  (gates.thresholds.filterMap fun limit =>
    if !isFinite limit.2 then
      some ("threshold " ++ limit.1 ++ " is " ++ display limit.2 ++ ", so its gate can never fire")
    else if less limit.2 (ofNat 0) then
      some ("threshold " ++ limit.1 ++ " is negative (" ++ display limit.2 ++ ")")
    else none) ++
  gates.ceilingThresholds.filterMap fun limit =>
    if isFinite limit.2 && !isRatio limit.2 then
      some ("threshold " ++ limit.1 ++ " is " ++ display limit.2 ++
        ", outside the 0..=1 range a ceiling ratio can take")
    else none

/-- Refuse numbers that make every comparison vacuous. -/
def wellformedGate (current : RecallReport F) (baseline : Option (RecallReport F))
    (gates : QualityGates F) : GateOutcome :=
  let problems := reportProblems "current" current ++
    baseline.elim [] (reportProblems "baseline") ++ thresholdProblems gates
  gateOf "wellformed" problems
    ("the comparison is vacuous: " ++ String.intercalate "; " problems ++ ". Every quality " ++
      "gate here asks whether a drop exceeds a limit, and a non-finite value on either side " ++
      "makes that question answer 'no' regardless of what happened")

/-! ## Evaluation -/

/-- The gates that need no baseline. -/
def standingGates (current : RecallReport F) (baseline : Option (RecallReport F))
    (gates : QualityGates F) : List GateOutcome :=
  [unresolvedGate current, abstentionSanityGate current, recallCeilingGate current gates,
    wellformedGate current baseline gates]

/-- The gates that hold a run against a comparable baseline. -/
def comparisonGates (current baseline : RecallReport F) (gates : QualityGates F) :
    List GateOutcome :=
  (if gates.requireCorpusReceipt then [corpusReceiptGate current baseline] else []) ++
    [aggregateGate current baseline gates] ++ categoryGates current baseline gates ++
    judgmentSourceGates current baseline gates ++ [abstentionGate current baseline gates] ++
    if gates.requireAllCategories then [coverageGate current baseline] else []

def evaluate (current : RecallReport F) (baseline : Option (RecallReport F))
    (gates : QualityGates F) : GateReport F :=
  let provenance (outcomes : List GateOutcome) : GateReport F :=
    { schemaVersion := gateSchemaVersion
      gates := some gates
      dataset := current.dataset
      strategy := current.strategy
      contract := current.contract
      baselineContract := baseline.bind (·.contract)
      capacityWaivers := (current.recallCeiling.map (·.waived)).getD []
      outcomes := outcomes }
  match baseline with
  | none => provenance (standingGates current none gates)
  | some base =>
    let comparability := comparabilityGate current base
    if !comparability.passed then provenance [comparability]
    else provenance (comparability :: comparisonGates current base gates ++
      standingGates current (some base) gates)

end OpenMemory.Eval
