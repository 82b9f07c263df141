import OpenMemory.Eval.Gates
import OpenMemory.Foundation.IeeeNumbers
import OpenMemory.Foundation.KeyedIndex

/-!
# What a passing verdict says

A comparison with what is no number is false, so a gate that asks whether a drop
exceeds its limit passes where nothing was measured. The last gate refuses such
numbers, and the others refuse slices that are gone. Together they should make a
passing verdict say something: that every number compared is finite, that both runs
are of one experiment, that every slice is still asked about, and that no figure
fell too far.

They do so but for what no gate looks at: a category that is still reported, over
no queries; the recall ceiling, whose figures are compared and never held to be
finite; and two fields of the contract that are compared as texts, in which an
absent receipt reads as one that is spelled like it, and what is no number as equal
to itself.
-/

namespace OpenMemory.Eval

open Foundation DoubleArithmetic GateArithmetic

/-- Numbers read as rationals, the two infinities and what is no number, compared as
IEEE 754 has it. Two numbers with one `{:?}` text are the same. -/
class IeeeReading (F : Type) [DoubleArithmetic F] [GateArithmetic F] where
  read : F → IeeeNumber
  read_sub : ∀ a b, read (sub a b) = (read a).sub (read b)
  less_eq : ∀ a b, less a b = (read a).less (read b)
  atMost_eq : ∀ a b, atMost a b = (read a).atMost (read b)
  equal_eq : ∀ a b, equal a b = (read a).equal (read b)
  isFinite_eq : ∀ a, isFinite a = (read a).isFinite
  read_slack : read slack = .rational (1 / 1000000000)
  read_debug : ∀ a b, debug a = debug b → read a = read b

open IeeeReading

/-! ## What a verdict should say -/

section Property

variable {F : Type} [DoubleArithmetic F]

/-- `==` of two optional numbers. -/
def equalRates : Option F → Option F → Prop
  | none, none => True
  | some a, some b => equal a b = true
  | _, _ => False

/-- `==` of two contracts. -/
structure EvaluationContract.Same (a b : EvaluationContract F) : Prop where
  metricVersion : a.metricVersion = b.metricVersion
  querySetDigest : a.querySetDigest = b.querySetDigest
  queryCount : a.queryCount = b.queryCount
  corpus : a.corpus = b.corpus
  corpusReceipt : a.corpusReceipt = b.corpusReceipt
  mode : a.mode = b.mode
  topK : a.topK = b.topK
  spreadingActivation : a.spreadingActivation = b.spreadingActivation
  recordAccess : a.recordAccess = b.recordAccess
  decayRate : equalRates a.decayRate b.decayRate

/-- A figure before and now, and how far it may fall. -/
structure Drop (F : Type) where
  before : F
  now : F
  limit : F

/-- The slices with queries in the baseline that are reported now, as they were and are. -/
def sharedSlices (baseline current : List (String × QualityMetrics F)) :
    List (QualityMetrics F × QualityMetrics F) :=
  baseline.filterMap fun entry =>
    if entry.2.nQueries = 0 then none else (current.lookup entry.1).map fun now => (entry.2, now)

/-- The drops that the gates compare with their limits. -/
def comparedDrops (current baseline : RecallReport F) (gates : QualityGates F) : List (Drop F) :=
  ((aggregateMetrics current baseline).map fun metric =>
    ⟨metric.2.2, metric.2.1, gates.maxAggregateDrop⟩) ++
  ((sharedSlices baseline.byCategory current.byCategory ++
    sharedSlices baseline.byJudgmentSource current.byJudgmentSource).map fun slice =>
      ⟨slice.1.ndcgAt10, slice.2.ndcgAt10, gates.maxCategoryDrop⟩) ++
  if baseline.abstention.nQueries = 0 then []
  else [⟨baseline.abstention.abstained, current.abstention.abstained, gates.maxAbstentionDrop⟩]

/-- The ceilings that are compared with their thresholds. -/
def comparedCeilings (current : RecallReport F) : List F :=
  current.recallCeiling.elim [] fun ceiling => ceiling.meanCeiling :: ceiling.minCeiling.toList

/-- The numbers that some gate compares. -/
def comparedNumbers (current baseline : RecallReport F) (gates : QualityGates F) : List F :=
  ((comparedDrops current baseline gates).flatMap fun drop => [drop.before, drop.now, drop.limit]) ++
    gates.thresholds.map Prod.snd ++ [current.abstention.abstained] ++ comparedCeilings current

/-- Every slice with queries in the baseline has queries now. -/
def SlicesAsked (baseline current : List (String × QualityMetrics F)) : Prop :=
  ∀ entry ∈ baseline, 0 < entry.2.nQueries →
    ∃ now, current.lookup entry.1 = some now ∧ 0 < now.nQueries

variable [GateArithmetic F] [IeeeReading F]

/-- A ceiling is a number that reaches its threshold, up to the tolerance of a billionth. -/
def Reaches (value threshold : F) : Prop :=
  ∃ v t, read value = .rational v ∧ read threshold = .rational t ∧ t - 1 / 1000000000 ≤ v

/-- What a passing verdict should say. -/
structure Substantial (current baseline : RecallReport F) (gates : QualityGates F) : Prop where
  finite : ∀ number ∈ comparedNumbers current baseline gates, isFinite number = true
  contracts : ∃ base now, baseline.contract = some base ∧ current.contract = some now ∧
    base.Same now
  categories : SlicesAsked baseline.byCategory current.byCategory
  sources : SlicesAsked baseline.byJudgmentSource current.byJudgmentSource
  abstention : 0 < baseline.abstention.nQueries → 0 < current.abstention.nQueries
  drops : ∀ drop ∈ comparedDrops current baseline gates,
    (read drop.before).FallsWithin (read drop.now) (read drop.limit)
  ceiling : ∃ ceiling least, current.recallCeiling = some ceiling ∧
    ceiling.minCeiling = some least ∧ Reaches least gates.minQueryCeiling ∧
      Reaches ceiling.meanCeiling gates.minRecallCeiling ∧
        ceiling.cappedQueries ≤ gates.maxCappedQueries
  resolved : current.unresolvedKeys = 0

end Property

/-- What no gate looks at is as it should be. -/
structure Unlooked {F : Type} [DoubleArithmetic F] (current baseline : RecallReport F) : Prop where
  /-- A category that had queries, and is reported now, has queries now. -/
  queried : ∀ entry ∈ baseline.byCategory, 0 < entry.2.nQueries →
    ∀ now, current.byCategory.lookup entry.1 = some now → 0 < now.nQueries
  /-- The mean and the least ceiling are finite. -/
  ceilings : ∀ number ∈ comparedCeilings current, isFinite number = true
  /-- Both contracts have a corpus receipt or neither has. -/
  receipts : ∀ base ∈ baseline.contract, ∀ now ∈ current.contract,
    base.corpusReceipt.isSome = now.corpusReceipt.isSome
  /-- A recorded decay rate is a number. -/
  rates : ∀ base ∈ baseline.contract, ∀ rate ∈ base.decayRate, equal rate rate = true

/-! ## What each gate says when it passes -/

section Gates

variable {F : Type} {current baseline : RecallReport F} {gates : QualityGates F}

theorem gateOf_passed {name : String} {problems : List String} {detail : String} :
    (gateOf name problems detail).passed = true ↔ problems = [] := List.isEmpty_iff

theorem coverageGate_passed :
    (coverageGate current baseline).passed = true ↔
      ∀ entry ∈ baseline.byCategory, 0 < entry.2.nQueries →
        (current.byCategory.lookup entry.1).isSome = true := by
  simp [coverageGate, gateOf_passed, List.filter_eq_nil_iff]

variable [DoubleArithmetic F]

theorem comparabilityGate_passed :
    (comparabilityGate current baseline).passed = true ↔
      ∃ base now, baseline.contract = some base ∧ current.contract = some now ∧
        base.differences now = [] := by
  unfold comparabilityGate
  split
  next base now held holds => simp [gateOf_passed, held, holds]
  next missing =>
    constructor
    · intro passed
      cases passed
    · rintro ⟨base, now, held, holds, _⟩
      exact absurd holds (missing base now held)

variable [GateArithmetic F]

theorem aggregateGate_passed :
    (aggregateGate current baseline gates).passed = true ↔
      ∀ metric ∈ aggregateMetrics current baseline,
        less gates.maxAggregateDrop (sub metric.2.2 metric.2.1) = false := by
  simp [aggregateGate, gateOf_passed, List.filter_eq_nil_iff]

theorem categoryGate_passed {category : String} {base now : QualityMetrics F} :
    (categoryGate gates category base now).passed = true ↔
      less gates.maxCategoryDrop (sub base.ndcgAt10 now.ndcgAt10) = false := by
  cases moved : less gates.maxCategoryDrop (sub base.ndcgAt10 now.ndcgAt10) with
  | false => simp [categoryGate, moved, Verdict.isPass]
  | true =>
    cases incomplete : !now.judgmentsComplete || !base.judgmentsComplete <;>
      simp [categoryGate, moved, incomplete, Verdict.isPass]

theorem categoryGates_passed :
    (∀ outcome ∈ categoryGates current baseline gates, outcome.passed = true) ↔
      ∀ slice ∈ sharedSlices baseline.byCategory current.byCategory,
        less gates.maxCategoryDrop (sub slice.1.ndcgAt10 slice.2.ndcgAt10) = false := by
  simp only [categoryGates, sharedSlices, List.mem_filterMap]
  constructor
  · rintro passed slice ⟨entry, member, found⟩
    split at found
    next => cases found
    next some_ =>
      obtain ⟨now, held, rfl⟩ := Option.map_eq_some_iff.mp found
      refine categoryGate_passed.mp (passed (categoryGate gates entry.1 entry.2 now)
        ⟨entry, member, ?_⟩)
      rw [if_neg some_, held, Option.map_some]
  · rintro within outcome ⟨entry, member, found⟩
    split at found
    next => cases found
    next some_ =>
      obtain ⟨now, held, rfl⟩ := Option.map_eq_some_iff.mp found
      refine categoryGate_passed.mpr (within (entry.2, now) ⟨entry, member, ?_⟩)
      rw [if_neg some_, held, Option.map_some]

theorem judgmentSourceGate_passed {source : String} {base : QualityMetrics F}
    {now : Option (QualityMetrics F)} :
    (judgmentSourceGate gates source base now).passed = true ↔
      ∃ metrics, now = some metrics ∧ 0 < metrics.nQueries ∧
        atMost (sub base.ndcgAt10 metrics.ndcgAt10) gates.maxCategoryDrop = true := by
  cases now with
  | none => simp [judgmentSourceGate, refusal]
  | some metrics =>
    by_cases asked : metrics.nQueries = 0
    · simp [judgmentSourceGate, refusal, asked]
    · simp [judgmentSourceGate, asked, Nat.pos_of_ne_zero asked]

theorem abstentionGate_passed :
    (abstentionGate current baseline gates).passed = true ↔
      (0 < baseline.abstention.nQueries → 0 < current.abstention.nQueries ∧
        atMost (sub baseline.abstention.abstained current.abstention.abstained)
          gates.maxAbstentionDrop = true) := by
  by_cases before : baseline.abstention.nQueries = 0
  · simp [abstentionGate, before]
  · by_cases now : current.abstention.nQueries = 0
    · simp [abstentionGate, refusal, before, now, Nat.pos_of_ne_zero before]
    · simp [abstentionGate, before, now, Nat.pos_of_ne_zero before, Nat.pos_of_ne_zero now]

/-- A ceiling without a problem is not below its threshold, and caps no more than it may. -/
theorem ceilings_of_no_problem {ceiling : RecallCeiling F} {least : F}
    (none_ : ceilingProblems ceiling least gates = []) :
    less least (sub gates.minQueryCeiling slack) = false ∧
      ceiling.cappedQueries ≤ gates.maxCappedQueries ∧
        less ceiling.meanCeiling (sub gates.minRecallCeiling slack) = false := by
  simp only [ceilingProblems, List.append_eq_nil_iff, ite_eq_right_iff, reduceCtorEq, imp_false,
    Bool.not_eq_true, not_lt] at none_
  exact ⟨none_.1.1.1.1, none_.1.1.1.2, none_.1.1.2⟩

theorem recallCeilingGate_passed (passed : (recallCeilingGate current gates).passed = true) :
    ∃ ceiling least, current.recallCeiling = some ceiling ∧ ceiling.minCeiling = some least ∧
      less least (sub gates.minQueryCeiling slack) = false ∧
        ceiling.cappedQueries ≤ gates.maxCappedQueries ∧
          less ceiling.meanCeiling (sub gates.minRecallCeiling slack) = false := by
  unfold recallCeilingGate at passed
  split at passed
  next => cases passed
  next ceiling held =>
    split at passed
    next => cases passed
    next least has =>
      exact ⟨ceiling, least, held, has, ceilings_of_no_problem (gateOf_passed.mp passed)⟩

theorem metricProblems_nil {label : String} {m : QualityMetrics F} :
    metricProblems label m = [] ↔ isFinite m.rAt5 = true ∧ isFinite m.rAt10 = true ∧
      isFinite m.mrr = true ∧ isFinite m.ndcgAt5 = true ∧ isFinite m.ndcgAt10 = true := by
  simp [metricProblems, List.filterMap_eq_nil_iff]

/-- The compared figures of a report without a problem are finite. -/
theorem finite_of_no_problem {side : String} {report : RecallReport F}
    (none_ : reportProblems side report = []) :
    (isFinite report.overall.rAt10 = true ∧ isFinite report.overall.mrr = true ∧
      isFinite report.overall.ndcgAt10 = true) ∧
    (∀ entry ∈ report.byCategory, isFinite entry.2.ndcgAt10 = true) ∧
    (∀ entry ∈ report.byJudgmentSource, isFinite entry.2.ndcgAt10 = true) ∧
    isFinite report.abstention.abstained = true := by
  simp only [reportProblems, List.append_eq_nil_iff, List.flatMap_eq_nil_iff,
    metricProblems_nil, ite_eq_left_iff, List.cons_ne_nil, imp_false, not_not] at none_
  obtain ⟨⟨⟨overall, categories⟩, sources⟩, abstained⟩ := none_
  exact ⟨⟨overall.2.1, overall.2.2.1, overall.2.2.2.2⟩,
    fun entry member => (categories entry member).2.2.2.2,
    fun entry member => (sources entry member).2.2.2.2, abstained⟩

theorem thresholds_finite (none_ : thresholdProblems gates = []) :
    ∀ limit ∈ gates.thresholds, isFinite limit.2 = true := by
  intro limit member
  have first := List.filterMap_eq_nil_iff.mp (List.append_eq_nil_iff.mp none_).1 limit member
  cases held : isFinite limit.2 with
  | true => rfl
  | false => simp [held] at first

theorem wellformedGate_passed :
    (wellformedGate current (some baseline) gates).passed = true ↔
      reportProblems "current" current = [] ∧ reportProblems "baseline" baseline = [] ∧
        thresholdProblems gates = [] := by
  simp [wellformedGate, gateOf_passed]

/-- A verdict passes where the reports are comparable and every other gate passes too. -/
theorem evaluate_passed :
    (evaluate current (some baseline) gates).passed = true ↔
      (comparabilityGate current baseline).passed = true ∧
        (∀ outcome ∈ comparisonGates current baseline gates, outcome.passed = true) ∧
          ∀ outcome ∈ standingGates current (some baseline) gates, outcome.passed = true := by
  cases comparable : (comparabilityGate current baseline).passed with
  | false => simp [evaluate, GateReport.passed, comparable]
  | true => simp [evaluate, GateReport.passed, comparable, List.all_append]

end Gates

/-! ## Contracts without a difference -/

section Contracts

variable {F : Type} [DoubleArithmetic F] [GateArithmetic F] [IeeeReading F]

theorem receipts_eq {a b : Option String} (same : a.getD "<none>" = b.getD "<none>")
    (both : a.isSome = b.isSome) : a = b := by
  cases a <;> cases b <;> simp_all

omit [GateArithmetic F] [IeeeReading F] in
theorem debugOption_some_ne (value : F) :
    debugOption (some value) ≠ debugOption (none : Option F) := by
  intro same
  have heads := congrArg (fun text : String => text.toList.head?) same
  simp [debugOption] at heads

/-- Rates with one text are equal, where the first of them is a number. -/
theorem equalRates_of_debug {a b : Option F} (texts : debugOption a = debugOption b)
    (number : ∀ rate ∈ a, equal rate rate = true) : equalRates a b := by
  match a, b with
  | none, none => trivial
  | some a, none => exact absurd texts (debugOption_some_ne a)
  | none, some b => exact absurd texts.symm (debugOption_some_ne b)
  | some a, some b =>
    simp only [debugOption, String.append_left_inj, String.append_right_inj] at texts
    change equal a b = true
    rw [equal_eq, ← read_debug a b texts, ← equal_eq]
    exact number a rfl

theorem number_of_equalRates {a b : Option F} (same : equalRates a b) :
    ∀ rate ∈ a, equal rate rate = true := by
  match a, b with
  | none, _ => intro rate member; cases member
  | some a, none => exact same.elim
  | some a, some b =>
    rintro rate ⟨⟩
    have equals : equal a b = true := same
    rw [equal_eq] at equals ⊢
    have one := IeeeNumber.eq_of_equal equals
    rwa [← one] at equals

/-- Without a difference, contracts are equal where receipts and rates are as they should be. -/
theorem EvaluationContract.same_of_differences_nil {base now : EvaluationContract F}
    (silent : base.differences now = [])
    (receipts : base.corpusReceipt.isSome = now.corpusReceipt.isSome)
    (number : ∀ rate ∈ base.decayRate, equal rate rate = true) : base.Same now := by
  obtain ⟨version, digest, count, corpus, receipt, mode, topK, spreading, access, rate⟩ :=
    EvaluationContract.differences_eq_nil.mp silent
  exact ⟨version, digest, count, corpus, receipts_eq receipt receipts, mode, topK, spreading,
    access, equalRates_of_debug rate number⟩

end Contracts

/-! ## What a passing verdict leaves open -/

section Passing

variable {F : Type} [DoubleArithmetic F] [GateArithmetic F]
  {current baseline : RecallReport F} {gates : QualityGates F}

/-- What every gate says, in a report in which all of them pass. -/
structure AllPass (current baseline : RecallReport F) (gates : QualityGates F) : Prop where
  contracts : ∃ base now, baseline.contract = some base ∧ current.contract = some now ∧
    base.differences now = []
  aggregate : ∀ metric ∈ aggregateMetrics current baseline,
    less gates.maxAggregateDrop (sub metric.2.2 metric.2.1) = false
  categories : ∀ slice ∈ sharedSlices baseline.byCategory current.byCategory,
    less gates.maxCategoryDrop (sub slice.1.ndcgAt10 slice.2.ndcgAt10) = false
  covered : ∀ entry ∈ baseline.byCategory, 0 < entry.2.nQueries →
    (current.byCategory.lookup entry.1).isSome = true
  sources : ∀ entry ∈ baseline.byJudgmentSource, 0 < entry.2.nQueries →
    ∃ metrics, current.byJudgmentSource.lookup entry.1 = some metrics ∧ 0 < metrics.nQueries ∧
      atMost (sub entry.2.ndcgAt10 metrics.ndcgAt10) gates.maxCategoryDrop = true
  abstention : 0 < baseline.abstention.nQueries → 0 < current.abstention.nQueries ∧
    atMost (sub baseline.abstention.abstained current.abstention.abstained)
      gates.maxAbstentionDrop = true
  resolved : current.unresolvedKeys = 0
  ceiling : ∃ ceiling least, current.recallCeiling = some ceiling ∧
    ceiling.minCeiling = some least ∧ less least (sub gates.minQueryCeiling slack) = false ∧
      ceiling.cappedQueries ≤ gates.maxCappedQueries ∧
        less ceiling.meanCeiling (sub gates.minRecallCeiling slack) = false
  currentFinite : reportProblems "current" current = []
  baselineFinite : reportProblems "baseline" baseline = []
  thresholds : thresholdProblems gates = []

theorem allPass_of_passed (passed : (evaluate current (some baseline) gates).passed = true)
    (all_ : gates.requireAllCategories = true) : AllPass current baseline gates := by
  obtain ⟨comparable, comparisons, standing⟩ := evaluate_passed.mp passed
  simp only [comparisonGates, all_, if_true, List.mem_append, List.mem_singleton, or_imp,
    forall_and, forall_eq] at comparisons
  obtain ⟨⟨⟨⟨⟨_, aggregate⟩, categories⟩, sources⟩, abstention⟩, coverage⟩ := comparisons
  simp only [standingGates, List.mem_cons, List.not_mem_nil, or_false, forall_eq_or_imp,
    forall_eq] at standing
  obtain ⟨resolved, _, ceiling, wellformed⟩ := standing
  obtain ⟨currentFinite, baselineFinite, thresholds⟩ := wellformedGate_passed.mp wellformed
  refine
    { contracts := comparabilityGate_passed.mp comparable
      aggregate := aggregateGate_passed.mp aggregate
      categories := categoryGates_passed.mp categories
      covered := coverageGate_passed.mp coverage
      sources := fun entry member asked => ?_
      abstention := abstentionGate_passed.mp abstention
      resolved := of_decide_eq_true resolved
      ceiling := recallCeilingGate_passed ceiling
      currentFinite := currentFinite
      baselineFinite := baselineFinite
      thresholds := thresholds }
  refine judgmentSourceGate_passed.mp (sources _ (List.mem_map_of_mem
    (List.mem_filter.mpr ⟨member, ?_⟩)))
  exact decide_eq_true asked.ne'

omit [GateArithmetic F] in
/-- Of slices that are shared, both figures are finite where those of both reports are. -/
theorem finite_of_mem_sharedSlices {before now : List (String × QualityMetrics F)}
    (beforeFinite : ∀ entry ∈ before, isFinite entry.2.ndcgAt10 = true)
    (nowFinite : ∀ entry ∈ now, isFinite entry.2.ndcgAt10 = true)
    {slice : QualityMetrics F × QualityMetrics F} (member : slice ∈ sharedSlices before now) :
    isFinite slice.1.ndcgAt10 = true ∧ isFinite slice.2.ndcgAt10 = true := by
  obtain ⟨entry, inside, found⟩ := List.mem_filterMap.mp member
  split at found
  next => cases found
  next =>
    obtain ⟨metrics, held, rfl⟩ := Option.map_eq_some_iff.mp found
    exact ⟨beforeFinite entry inside, nowFinite _ (mem_of_lookup held)⟩

namespace AllPass

variable (pass : AllPass current baseline gates)

include pass

theorem thresholds_finite : isFinite gates.maxCategoryDrop = true ∧
    isFinite gates.maxAggregateDrop = true ∧ isFinite gates.maxAbstentionDrop = true ∧
      isFinite gates.minRecallCeiling = true ∧ isFinite gates.minQueryCeiling = true := by
  have all_ := Eval.thresholds_finite pass.thresholds
  simpa [QualityGates.thresholds] using all_

theorem drops_finite : ∀ drop ∈ comparedDrops current baseline gates,
    isFinite drop.before = true ∧ isFinite drop.now = true ∧ isFinite drop.limit = true := by
  obtain ⟨overallNow, categoriesNow, sourcesNow, abstainedNow⟩ :=
    finite_of_no_problem pass.currentFinite
  obtain ⟨overallThen, categoriesThen, sourcesThen, abstainedThen⟩ :=
    finite_of_no_problem pass.baselineFinite
  obtain ⟨category, aggregate, abstention, _⟩ := pass.thresholds_finite
  intro drop member
  simp only [comparedDrops, List.mem_append, List.mem_map] at member
  obtain (⟨metric, member, rfl⟩ | ⟨slice, member, rfl⟩) | member := member
  · simp only [aggregateMetrics, List.mem_cons, List.not_mem_nil, or_false] at member
    obtain rfl | rfl | rfl := member
    · exact ⟨overallThen.1, overallNow.1, aggregate⟩
    · exact ⟨overallThen.2.1, overallNow.2.1, aggregate⟩
    · exact ⟨overallThen.2.2, overallNow.2.2, aggregate⟩
  · obtain inside | inside := member
    · obtain ⟨before, now⟩ := finite_of_mem_sharedSlices categoriesThen categoriesNow inside
      exact ⟨before, now, category⟩
    · obtain ⟨before, now⟩ := finite_of_mem_sharedSlices sourcesThen sourcesNow inside
      exact ⟨before, now, category⟩
  · split at member
    next => cases member
    next =>
      rw [List.mem_singleton] at member
      subst member
      exact ⟨abstainedThen, abstainedNow, abstention⟩

variable [IeeeReading F]

/-- A drop that does not exceed its limit is within it, in numbers. -/
theorem drops_within : ∀ drop ∈ comparedDrops current baseline gates,
    (read drop.before).FallsWithin (read drop.now) (read drop.limit) := by
  intro drop member
  obtain ⟨before, now, limit⟩ := pass.drops_finite drop member
  rw [isFinite_eq] at before now limit
  simp only [comparedDrops, List.mem_append, List.mem_map] at member
  have notMore (exceeds : less drop.limit (sub drop.before drop.now) = false) :
      (read drop.before).FallsWithin (read drop.now) (read drop.limit) :=
    IeeeNumber.fallsWithin_of_not_less before now limit (by rwa [less_eq, read_sub] at exceeds)
  have within (reaches : atMost (sub drop.before drop.now) drop.limit = true) :
      (read drop.before).FallsWithin (read drop.now) (read drop.limit) :=
    IeeeNumber.fallsWithin_of_atMost before now limit (by rwa [atMost_eq, read_sub] at reaches)
  obtain (⟨metric, inside, rfl⟩ | ⟨slice, inside | inside, rfl⟩) | inside := member
  · exact notMore (pass.aggregate metric inside)
  · exact notMore (pass.categories slice inside)
  · obtain ⟨entry, held, found⟩ := List.mem_filterMap.mp inside
    split at found
    next => cases found
    next asked =>
      obtain ⟨metrics, has, rfl⟩ := Option.map_eq_some_iff.mp found
      obtain ⟨others, same, _, drops⟩ := pass.sources entry held (Nat.pos_of_ne_zero asked)
      rw [has] at same
      cases same
      exact within drops
  · split at inside
    next => cases inside
    next asked =>
      rw [List.mem_singleton] at inside
      subst inside
      exact within (pass.abstention (Nat.pos_of_ne_zero asked)).2

omit [IeeeReading F] in
theorem numbers_finite (ceilings : ∀ number ∈ comparedCeilings current, isFinite number = true) :
    ∀ number ∈ comparedNumbers current baseline gates, isFinite number = true := by
  intro number member
  simp only [comparedNumbers, List.mem_append, List.mem_flatMap, List.mem_singleton,
    List.mem_map] at member
  obtain ((⟨drop, inside, among⟩ | ⟨limit, inside, rfl⟩) | rfl) | inside := member
  · obtain ⟨before, now, limit⟩ := pass.drops_finite drop inside
    simp only [List.mem_cons, List.not_mem_nil, or_false] at among
    obtain rfl | rfl | rfl := among
    · exact before
    · exact now
    · exact limit
  · exact Eval.thresholds_finite pass.thresholds limit inside
  · exact (finite_of_no_problem pass.currentFinite).2.2.2
  · exact ceilings number inside

end AllPass

/-- A finite ceiling that is not below its threshold reaches it. -/
theorem reaches_of_not_less [IeeeReading F] {value threshold : F}
    (valueFinite : isFinite value = true) (thresholdFinite : isFinite threshold = true)
    (notBelow : less value (sub threshold slack) = false) : Reaches value threshold := by
  rw [isFinite_eq, IeeeNumber.isFinite_iff] at valueFinite thresholdFinite
  obtain ⟨v, hv⟩ := valueFinite
  obtain ⟨t, ht⟩ := thresholdFinite
  refine ⟨v, t, hv, ht, ?_⟩
  rw [less_eq, read_sub, hv, ht, read_slack] at notBelow
  simpa [IeeeNumber.sub, IeeeNumber.less] using notBelow

/-- A passing verdict says what it should exactly where what no gate looks at is as it
should be. -/
theorem passing_verdict_iff [IeeeReading F]
    (passed : (evaluate current (some baseline) gates).passed = true)
    (all_ : gates.requireAllCategories = true) :
    Substantial current baseline gates ↔ Unlooked current baseline := by
  have pass := allPass_of_passed passed all_
  constructor
  · intro substantial
    obtain ⟨base, now, held, holds, same⟩ := substantial.contracts
    refine ⟨fun entry member asked metrics found => ?_, fun number member => ?_, ?_, ?_⟩
    · obtain ⟨others, has, some_⟩ := substantial.categories entry member asked
      rw [has] at found
      cases found
      exact some_
    · exact substantial.finite number (List.mem_append_right _ member)
    · rintro _ base' _ now'
      rw [held] at base'
      rw [holds] at now'
      cases base'
      cases now'
      rw [same.corpusReceipt]
    · rintro _ base' rate member
      rw [held] at base'
      cases base'
      exact number_of_equalRates same.decayRate rate member
  · intro unlooked
    obtain ⟨base, now, held, holds, silent⟩ := pass.contracts
    obtain ⟨ceiling, least, has, leastIs, leastReaches, capped, meanReaches⟩ := pass.ceiling
    obtain ⟨_, _, _, recallLimit, queryLimit⟩ := pass.thresholds_finite
    have ceilings := unlooked.ceilings
    simp only [comparedCeilings, has, Option.elim_some, leastIs, Option.toList_some,
      List.mem_cons, List.not_mem_nil, or_false, forall_eq_or_imp, forall_eq] at ceilings
    refine
      { finite := pass.numbers_finite unlooked.ceilings
        contracts := ⟨base, now, held, holds, EvaluationContract.same_of_differences_nil silent
          (unlooked.receipts base held now holds) (unlooked.rates base held)⟩
        categories := fun entry member asked => ?_
        sources := fun entry member asked => ?_
        abstention := fun asked => (pass.abstention asked).1
        drops := pass.drops_within
        ceiling := ⟨ceiling, least, has, leastIs,
          reaches_of_not_less ceilings.2 queryLimit leastReaches,
          reaches_of_not_less ceilings.1 recallLimit meanReaches, capped⟩
        resolved := pass.resolved }
    · obtain ⟨metrics, found⟩ := Option.isSome_iff_exists.mp (pass.covered entry member asked)
      exact ⟨metrics, found, unlooked.queried entry member asked metrics found⟩
    · obtain ⟨metrics, found, some_, _⟩ := pass.sources entry member asked
      exact ⟨metrics, found, some_⟩

end Passing

/-! ## A category that lost its queries -/

section Example

/-- The sums of a number's kinds, for a text that tells numbers apart. -/
def kindOf : IeeeNumber → Option (Bool ⊕ ℚ)
  | .nan => none
  | .infinite negative => some (.inl negative)
  | .rational value => some (.inr value)

def numeralOf (number : IeeeNumber) : String := toString (Encodable.encode (kindOf number))

theorem numeralOf_injective : Function.Injective numeralOf := by
  intro a b same
  have kinds := Encodable.encode_injective (Nat.repr_injective same)
  cases a <;> cases b <;> simp_all [kindOf]

/-- An operation on rationals, where both operands are. -/
def onRationals (operation : ℚ → ℚ → ℚ) : IeeeNumber → IeeeNumber → IeeeNumber
  | .rational a, .rational b => .rational (operation a b)
  | _, _ => .nan

/-- Numbers without rounding; the logarithm, which no gate takes, is left out. -/
local instance ieeeArithmetic : DoubleArithmetic IeeeNumber where
  ofNat n := .rational n
  hundredths n := .rational (n / 100)
  add := onRationals (· + ·)
  sub := IeeeNumber.sub
  mul := onRationals (· * ·)
  div := onRationals (· / ·)
  max a b := if a.less b then b else a
  min a b := if b.less a then b else a
  twoToThe n := .rational (2 ^ n)
  log2 _ := .nan
  ceiling
    | .rational value => (Max.max ⌈value⌉ 1).toNat
    | _ => 1
  less := IeeeNumber.less
  atMost := IeeeNumber.atMost
  equal := IeeeNumber.equal
  nearby
    | .rational a, .rational b => decide (|a - b| < 1 / 1000000000)
    | _, _ => false
  isFinite := IeeeNumber.isFinite
  infinity := .infinite false
  debug := numeralOf

local instance plainNumerals : GateArithmetic IeeeNumber where
  slack := .rational (1 / 1000000000)
  display := numeralOf
  fixed _ := numeralOf

local instance ieeeReading : IeeeReading IeeeNumber where
  read := id
  read_sub _ _ := rfl
  less_eq _ _ := rfl
  atMost_eq _ _ := rfl
  equal_eq _ _ := rfl
  isFinite_eq _ := rfl
  read_slack := rfl
  read_debug _ _ same := numeralOf_injective same

/-- A run over twelve questions of one kind and some of another, which found nothing for
the first kind. -/
def missedReport : RecallReport IeeeNumber where
  contract := some ⟨2, "5f0c", 20, "space-a", some "receipt", "Hybrid", 10, true, false, none⟩
  recallCeiling := some ⟨10, 20, .rational 1, some (.rational 1), 0, .rational 0, [], [], [], []⟩
  dataset := "space-a"
  strategy := "Hybrid"
  overall := ⟨20, 20, .rational (2 / 5), .rational (2 / 5), .rational (2 / 5), .rational (2 / 5),
    .rational (2 / 5), .rational (2 / 5), .rational (2 / 5), true⟩
  abstention := .default
  byCategory :=
    [("direct", ⟨8, 8, .rational 1, .rational 1, .rational 1, .rational 1, .rational 1,
      .rational 1, .rational 1, true⟩),
    ("multi-hop", { QualityMetrics.default with nQueries := 12, nRecallQueries := 12 })]
  byJudgmentSource := []
  latency := .fromSamples []
  perQuery := []
  unresolvedKeys := 0
  excludedHits := 0

/-- The same, where the first kind is still listed and nothing was asked of it. -/
def unaskedReport : RecallReport IeeeNumber :=
  { missedReport with
    byCategory := missedReport.byCategory.map fun entry =>
      if entry.1 = "multi-hop" then (entry.1, .default) else entry }

/-- The verdict passes, although a category that had twelve queries has none. -/
theorem lost_category_passes :
    (evaluate unaskedReport (some missedReport) .default).passed = true ∧
      (QualityGates.default : QualityGates IeeeNumber).requireAllCategories = true ∧
        ¬ Substantial unaskedReport missedReport .default := by
  refine ⟨by decide +kernel, rfl, fun substantial => ?_⟩
  obtain ⟨now, found, asked⟩ := substantial.categories
    ("multi-hop", { QualityMetrics.default with nQueries := 12, nRecallQueries := 12 })
    (by simp [missedReport]) (by decide)
  have listed : unaskedReport.byCategory.lookup "multi-hop" = some .default := by
    decide +kernel
  rw [listed] at found
  cases found
  cases asked

theorem unchanged_verdict :
    Substantial missedReport missedReport .default ↔ Unlooked missedReport missedReport :=
  passing_verdict_iff (by decide +kernel) rfl

end Example

end OpenMemory.Eval
