import OpenMemory.Eval.RecallRunner
import OpenMemory.Graph.Guarantees.Eligible

/-!
# What equal contracts promise

Two reports whose contracts do not differ come from query sets with the same
prints and from runs with the same mode, size and switches. That fixes every
figure the gates compare up to what the contract leaves out: the floor a score has
to exceed, the instant at which validity is judged, and of a query set the order
of its queries, the source of the judgments, and the difference between an absent
option and an empty one. Where two runs agree in these, their figures agree.

The proof goes through the run place by place. Two queries that agree retrieve the
same candidates, and the rows they are scored as are the same in essence.
-/

namespace OpenMemory.Eval

open Foundation OpenMemory.Graph

/-! ## The instant of a recall -/

section Recall

variable {S : Type} [Preorder S] [DecidableLE S] [DecidableLT S] [CaseMapping]
  {host : RecallHost S} {content : RecallContent} {filters : RecallFilters}

omit [DecidableLE S] in
theorem directHits_validAt (names : Option (List String)) (instant : Option Int64) (validAt : Int64)
    (byId : String → Option JoinedRow) (candidates : List (String × S)) :
    directHits host { filters with validAt := instant } names validAt byId candidates =
      directHits host filters names validAt byId candidates := by
  induction candidates generalizing byId with
  | nil => rfl
  | cons candidate rest ih =>
    obtain ⟨id, rawScore⟩ := candidate
    unfold directHits
    simp only [ih]
    rfl

/-- A recall reads the instant of its filters only to judge validity, at the
present where there is none. -/
theorem recall_validAt {instant : Option Int64} (query : String) (topK : Nat)
    (same : filters.validAt.getD host.nowSecs = instant.getD host.nowSecs) :
    MemoryStore.recall host content query topK filters =
      MemoryStore.recall host content query topK { filters with validAt := instant } := by
  have hits := @directHits_validAt S _ _ _ host filters
  unfold MemoryStore.recall
  simp only [← same, hits]
  rfl

end Recall

/-! ## Agreement beyond the contract -/

/-- Two queries in one place agree in what the digest leaves out of them. -/
structure RecallQuery.Agrees (query other : RecallQuery) : Prop where
  id : query.id = other.id
  source : query.judgmentSource = other.judgmentSource
  group : query.expectAbstention = true → query.groupId.getD query.id = other.groupId.getD other.id
  waiver : query.expectAbstention = false →
    query.capacityWaiver.isSome = other.capacityWaiver.isSome
  grades : query.expectAbstention = false →
    ∀ key, gradeOf query.judgments key = gradeOf other.judgments key

/-- Two queries that are retrieved, scored and counted alike. -/
structure RecallQuery.Alike (query other : RecallQuery) : Prop extends query.Agrees other where
  text : query.text = other.text
  category : query.category = other.category
  abstention : query.expectAbstention = other.expectAbstention
  relevant : query.relevant.Perm other.relevant
  exclude : query.exclude.Perm other.exclude
  reason : (query.capacityWaiver.map (·.reason)).getD "" =
    (other.capacityWaiver.map (·.reason)).getD ""
  complete : query.judgmentsComplete = other.judgmentsComplete

/-! ## Scoring -/

section Scoring

variable {F : Type} [DoubleArithmetic F] {query query' : RecallQuery} (queries : query.Alike query')

include queries

omit [DoubleArithmetic F] in
theorem project_alike (candidates : List (Candidate F)) :
    projectToJudgedGranularity query candidates = projectToJudgedGranularity query' candidates := by
  have members (key : String) : key ∈ query.relevant.map (·.key) ↔
      key ∈ query'.relevant.map (·.key) :=
    (queries.relevant.map _).mem_iff
  simp only [projectToJudgedGranularity, members]

theorem relevantKeys_alike : query.relevantKeys.Perm query'.relevantKeys :=
  (queries.relevant.filter _).map _

theorem judgments_alike (answerable : query.expectAbstention = false) :
    SameJudgments query.judgments query'.judgments :=
  ⟨queries.relevant.map _, queries.grades answerable⟩

/-- Queries that agree are scored alike, however long each of them takes. -/
theorem essence_rowOf (outcome : Eligible F) (latency latency' : F) :
    (rowOf query outcome latency).essence = (rowOf query' outcome latency').essence := by
  by_cases abstaining : query.expectAbstention = true
  · have group := queries.group abstaining
    have abstaining' := queries.abstention.symm.trans abstaining
    unfold ScoredQuery.essence
    rw [if_pos (show (rowOf query outcome latency).expectAbstention = true from abstaining),
      if_pos (show (rowOf query' outcome latency').expectAbstention = true from abstaining')]
    unfold ScoredQuery.answers ScoredQuery.group rowOf scoreQueryWithScores
    simp only [queries.id, queries.category, queries.source, queries.abstention] at group ⊢
    rw [group]
  · have answerable : query.expectAbstention = false := by simpa using abstaining
    have answerable' := queries.abstention.symm.trans answerable
    have same := judgments_alike queries answerable
    have keys (key : String) : key ∈ query.relevantKeys ↔ key ∈ query'.relevantKeys :=
      (relevantKeys_alike queries).mem_iff
    unfold ScoredQuery.essence
    rw [if_neg (show ¬ (rowOf query outcome latency).expectAbstention = true from abstaining),
      if_neg (show ¬ (rowOf query' outcome latency').expectAbstention = true by
        rw [show (rowOf query' outcome latency').expectAbstention = false from answerable']
        exact Bool.false_ne_true)]
    unfold ScoredQuery.scores rowOf scoreQueryWithScores
    simp only [project_alike queries, same.rAtK_eq, same.capacityRAtK_eq, same.mrr_eq,
      same.ndcgAtK_eq, keys, queries.id, queries.category, queries.source, queries.abstention,
      queries.waiver answerable, queries.complete]

end Scoring

section Run

variable {S F : Type} [DoubleArithmetic F] [ScoreWidening S F] [Preorder S] [DecidableLE S]
  [DecidableLT S] [CaseMapping]

/-- Two runs against one store agree in what a contract leaves out. -/
structure SameExperiment (host : RecallHost S) (config other : RecallRunnerConfig F)
    (set otherSet : RecallQuerySet) : Prop where
  /-- No score is above one floor and not above the other. -/
  floor : ∀ score : S, DoubleArithmetic.less config.scoreFloor (ScoreWidening.widen score) =
    DoubleArithmetic.less other.scoreFloor (ScoreWidening.widen score)
  instant : config.validAt.getD host.nowSecs = other.validAt.getD host.nowSecs
  queries : List.Forall₂ RecallQuery.Agrees set.queries otherSet.queries

/-- Two runners that retrieve the same. -/
structure RecallRunner.Alike (runner other : RecallRunner S F) : Prop where
  host : runner.host = other.host
  resolver : runner.resolver = other.resolver
  topK : runner.config.topK = other.config.topK
  mode : runner.config.mode = other.config.mode
  spreading : runner.config.spreadingActivation = other.config.spreadingActivation
  access : runner.config.recordAccess = other.config.recordAccess
  floor : ∀ score : S, DoubleArithmetic.less runner.config.scoreFloor (ScoreWidening.widen score) =
    DoubleArithmetic.less other.config.scoreFloor (ScoreWidening.widen score)
  instant : runner.config.validAt.getD runner.host.nowSecs =
    other.config.validAt.getD runner.host.nowSecs

/-! ## Retrieval -/

section Retrieval

variable {runner other : RecallRunner S F} {query query' : RecallQuery}
  (runners : runner.Alike other) (queries : query.Alike query')

include runners in
theorem recall_alike (content : RecallContent) (text : String) (topK : Nat) :
    MemoryStore.recall runner.host content text topK runner.config.filters =
      MemoryStore.recall other.host content text topK other.config.filters := by
  have filters : { runner.config.filters with validAt := other.config.validAt } =
      other.config.filters := by
    unfold RecallRunnerConfig.filters
    rw [runners.mode, runners.spreading, runners.access]
  rw [recall_validAt text topK runners.instant, filters, runners.host]

omit [Preorder S] [DecidableLE S] [DecidableLT S] [CaseMapping] in
include runners queries in
theorem eligibleOf_alike (target fetch rounds : Nat) (hits : List (RecallResult S)) :
    eligibleOf runner.resolver runner.config.scoreFloor query target fetch rounds hits =
      eligibleOf other.resolver other.config.scoreFloor query' target fetch rounds hits := by
  have floors : aboveFloor runner.config.scoreFloor hits =
      aboveFloor other.config.scoreFloor hits :=
    List.filter_congr fun hit _ => runners.floor hit.score
  have sources : (dropSourceDocuments query : List (Candidate F) → _) =
      dropSourceDocuments query' := by
    funext candidates
    have members (key : String) : key ∈ query.exclude ↔ key ∈ query'.exclude :=
      queries.exclude.mem_iff
    have empty : query.exclude = [] ↔ query'.exclude = [] :=
      ⟨fun none => (none ▸ queries.exclude).symm.eq_nil,
        fun none => (none ▸ queries.exclude).eq_nil⟩
    simp only [dropSourceDocuments, members, empty]
  unfold eligibleOf
  rw [floors, sources, runners.resolver]

include runners queries in
theorem retrieve_alike (target spare fetch rounds : Nat) (content : RecallContent) :
    runner.retrieve query target spare fetch rounds content =
      other.retrieve query' target spare fetch rounds content := by
  induction spare generalizing fetch rounds content with
  | zero =>
    unfold RecallRunner.retrieve
    rw [recall_alike runners, queries.text, queries.id]
    simp only [eligibleOf_alike runners queries]
  | succ spare ih =>
    unfold RecallRunner.retrieve
    rw [recall_alike runners, queries.text, queries.id]
    simp only [eligibleOf_alike runners queries, ih]

end Retrieval

/-! ## Whole runs -/

section Whole

variable {runner other : RecallRunner S F} (runners : runner.Alike other)

include runners

theorem retrieveEligible_alike {query query' : RecallQuery} (queries : query.Alike query')
    (content : RecallContent) :
    runner.retrieveEligible query content = other.retrieveEligible query' content := by
  unfold RecallRunner.retrieveEligible RecallRunner.target
  rw [retrieve_alike runners queries, runners.topK]

/-- Query by query, two runs find the same and leave the same store. -/
theorem scoreAll_alike (clock clock' : Nat → F) {queries queries' : List RecallQuery}
    (alike : List.Forall₂ RecallQuery.Alike queries queries') (i : Nat) (content : RecallContent) :
    (runner.scoreAll clock i queries content).map (Prod.map (List.map ScoredQuery.essence) id) =
      (other.scoreAll clock' i queries' content).map
        (Prod.map (List.map ScoredQuery.essence) id) := by
  induction alike generalizing i content with
  | nil => rfl
  | @cons query query' rest rest' same _ ih =>
    unfold RecallRunner.scoreAll
    rw [retrieveEligible_alike runners same]
    cases other.retrieveEligible query' content with
    | error error => rfl
    | ok found =>
      obtain ⟨outcome, later⟩ := found
      have tail := ih (i + 1) later
      change (Except.bind (runner.scoreAll clock (i + 1) rest later) _).map _ =
        (Except.bind (other.scoreAll clock' (i + 1) rest' later) _).map _
      cases left : runner.scoreAll clock (i + 1) rest later with
      | error error =>
        cases right : other.scoreAll clock' (i + 1) rest' later with
        | error error' =>
          rw [left, right] at tail
          cases tail
          rfl
        | ok found' =>
          rw [left, right] at tail
          cases tail
      | ok found =>
        cases right : other.scoreAll clock' (i + 1) rest' later with
        | error error' =>
          rw [left, right] at tail
          cases tail
        | ok found' =>
          rw [left, right] at tail
          obtain ⟨rows, after⟩ := Prod.ext_iff.mp (Except.ok.inj tail)
          refine congrArg Except.ok (Prod.ext ?_ after)
          exact congrArg₂ List.cons (essence_rowOf same outcome (clock i) (clock' i)) rows

end Whole

/-! ## Equal contracts -/

omit [DoubleArithmetic F] [ScoreWidening S F] [Preorder S] [DecidableLE S] [DecidableLT S]
  [CaseMapping] in
theorem alike_of_print {query other : RecallQuery} (agrees : query.Agrees other)
    (prints : query.print = other.print) : query.Alike other := by
  have abstention : query.expectAbstention = other.expectAbstention := by
    have flags : (if query.expectAbstention then "1" else "0") =
        if other.expectAbstention then "1" else "0" := congrArg QueryPrint.abstention prints
    revert flags
    cases query.expectAbstention <;> cases other.expectAbstention <;> simp
  have relevant := perm_of_insertionSort_eq (congrArg QueryPrint.judgments prints)
  have pairs : Function.Injective fun graded : GradedKey => (graded.key, graded.relevance) := by
    rintro ⟨key, relevance⟩ ⟨key', relevance'⟩ same
    simpa using same
  exact
    { agrees with
      text := congrArg QueryPrint.text prints
      category := congrArg QueryPrint.category prints
      abstention := abstention
      relevant := (List.map_perm_map_iff pairs).mp relevant
      exclude := perm_of_insertionSort_eq (congrArg QueryPrint.excluded prints)
      reason := congrArg QueryPrint.waiver prints
      complete := congrArg QueryPrint.complete prints }

omit [DoubleArithmetic F] [ScoreWidening S F] [Preorder S] [DecidableLE S] [DecidableLT S]
  [CaseMapping] in
theorem forall₂_alike {queries others : List RecallQuery}
    (agree : List.Forall₂ RecallQuery.Agrees queries others)
    (prints : queries.map RecallQuery.print = others.map RecallQuery.print) :
    List.Forall₂ RecallQuery.Alike queries others := by
  induction agree with
  | nil => exact List.Forall₂.nil
  | cons agrees _ ih =>
    rw [List.map_cons, List.map_cons, List.cons.injEq] at prints
    exact List.Forall₂.cons (alike_of_print agrees prints.1) (ih prints.2)

omit [ScoreWidening S F] [Preorder S] [DecidableLE S] [DecidableLT S] [CaseMapping] in
/-- Queries that are alike impose one recall ceiling. -/
theorem judgedQueries_alike {queries others : List RecallQuery}
    (alike : List.Forall₂ RecallQuery.Alike queries others) :
    judgedQueries queries = judgedQueries others := by
  unfold judgedQueries
  congr 1
  induction alike with
  | nil => rfl
  | @cons query other rest others same _ ih =>
    by_cases abstaining : query.expectAbstention = true
    · have abstaining' := same.abstention.symm.trans abstaining
      rw [List.filter_cons_of_neg (by simp [abstaining]),
        List.filter_cons_of_neg (by simp [abstaining']), ih]
    · have answerable : query.expectAbstention = false := by simpa using abstaining
      have answerable' := same.abstention.symm.trans answerable
      have waivers : query.capacityWaiver = other.capacityWaiver := by
        have reason := same.reason
        have present := same.waiver answerable
        revert reason present
        rcases query.capacityWaiver with _ | ⟨⟨reason⟩⟩ <;>
          rcases other.capacityWaiver with _ | ⟨⟨reason'⟩⟩ <;> simp
      rw [List.filter_cons_of_pos (by simp [answerable]),
        List.filter_cons_of_pos (by simp [answerable']), List.map_cons, List.map_cons, ih,
        same.id, same.category, waivers, (relevantKeys_alike same).length_eq]

/-- A successful run, taken apart. -/
theorem run_eq_ok {runner : RecallRunner S F} {hash : Bytes → Nat} {clock : Nat → F}
    {set : RecallQuerySet} {content after : RecallContent} {report : RecallReport F}
    (ran : runner.run hash clock set content = .ok (report, after)) :
    ∃ rows, runner.scoreAll clock 0 set.queries content = .ok (rows, after) ∧
      report = { RecallReport.assemble set.name runner.config.strategy rows with
        recallCeiling := some (RecallCeiling.measure set gatedK)
        contract := some (runner.config.contract hash set) } := by
  unfold RecallRunner.run at ran
  cases scored : runner.scoreAll clock 0 set.queries content with
  | error error =>
    rw [scored] at ran
    cases ran
  | ok found =>
    obtain ⟨rows, later⟩ := found
    rw [scored] at ran
    cases ran
    exact ⟨rows, rfl, rfl⟩

/-- Two runs on one store whose contracts do not differ agree in every figure the
gates compare, where they agree in the floor, in the instant and in what the digest
leaves out of the queries. -/
theorem equal_contracts_agree {hash : Bytes → Nat} {host : RecallHost S} {resolver : KeyResolver S}
    {config config' : RecallRunnerConfig F} {clock clock' : Nat → F} {set set' : RecallQuerySet}
    {content after after' : RecallContent} {report report' : RecallReport F}
    {contract contract' : EvaluationContract F}
    (ran : RecallRunner.run ⟨host, resolver, config⟩ hash clock set content = .ok (report, after))
    (ran' : RecallRunner.run ⟨host, resolver, config'⟩ hash clock' set' content =
      .ok (report', after'))
    (recorded : report.contract = some contract) (recorded' : report'.contract = some contract')
    (equal : contract.differences contract' = [])
    (short : (digestInput set).length < 2 ^ 64) (short' : (digestInput set').length < 2 ^ 64)
    (collisionFree : digestQuerySet hash set = digestQuerySet hash set' →
      digestInput set = digestInput set')
    (experiment : SameExperiment host config config' set set') :
    report.figures = report'.figures := by
  obtain ⟨rows, scored, rfl⟩ := run_eq_ok ran
  obtain ⟨rows', scored', rfl⟩ := run_eq_ok ran'
  cases recorded
  cases recorded'
  obtain ⟨digest, _, mode, topK, spreading, access⟩ :=
    EvaluationContract.eq_of_differences_nil equal
  have runners : RecallRunner.Alike (S := S) ⟨host, resolver, config⟩ ⟨host, resolver, config'⟩ :=
    { host := rfl
      resolver := rfl
      topK := topK
      mode := debugMode_injective mode
      spreading := spreading
      access := access
      floor := experiment.floor
      instant := experiment.instant }
  have ids : set.queries.map RecallQuery.id = set'.queries.map RecallQuery.id :=
    map_eq_of_forall₂ experiment.queries fun _ _ agrees => agrees.id
  have alike := forall₂_alike experiment.queries
    (map_print_of_digestInput short short' ids (collisionFree digest))
  have essences := scoreAll_alike runners clock clock' alike 0 content
  rw [scored, scored'] at essences
  have same : rows.map ScoredQuery.essence = rows'.map ScoredQuery.essence :=
    congrArg Prod.fst (Except.ok.inj essences)
  have assembled : (RecallReport.assemble set.name config.strategy rows).figures =
      (RecallReport.assemble set'.name config'.strategy rows').figures := by
    rw [← RecallReport.figures_assemble_essence, same, RecallReport.figures_assemble_essence]
    rfl
  have ceilings : (RecallCeiling.measure set gatedK : RecallCeiling F) =
      RecallCeiling.measure set' gatedK := by
    rw [RecallCeiling.measure, judgedQueries_alike alike, RecallCeiling.measure]
  change { (RecallReport.assemble set.name config.strategy rows).figures with
      recallCeiling := some (RecallCeiling.measure set gatedK) } =
    { (RecallReport.assemble set'.name config'.strategy rows').figures with
      recallCeiling := some (RecallCeiling.measure set' gatedK) }
  rw [assembled, ceilings]

end Run

/-! ## A floor that no contract records -/

/-- Natural numbers for the numbers that come up here, which are whole. -/
abbrev wholeNumbers : DoubleArithmetic Nat where
  ofNat := id
  hundredths n := n / 100
  add := Nat.add
  sub := Nat.sub
  mul := Nat.mul
  div := Nat.div
  max := Nat.max
  min := Nat.min
  twoToThe n := 2 ^ n
  log2 := Nat.log2
  ceiling := Nat.max 1
  less a b := decide (a < b)
  atMost a b := decide (a ≤ b)
  equal a b := decide (a = b)
  nearby a b := decide (a = b)
  isFinite _ := true
  infinity := 0
  debug := toString

abbrev unchangedScore : ScoreWidening Nat Nat := ⟨id⟩

/-- One question that has no answer. -/
def unanswerable : RecallQuerySet where
  name := "negatives"
  queries :=
    [{ id := "q"
       text := "alpha"
       category := "abstention"
       relevant := []
       exclude := []
       capacityWaiver := none
       judgmentsComplete := true
       expectAbstention := true
       judgmentSource := .generated
       groupId := none }]

def configWith (floor : Nat) : RecallRunnerConfig Nat where
  topK := 10
  mode := none
  spreadingActivation := true
  recordAccess := false
  scoreFloor := floor
  validAt := none
  strategy := "baseline"
  corpus := "corpus"
  decayRate := none
  corpusReceipt := none

def observationIds : KeyResolver Nat where
  keyFor hit := some hit.observation.id
  aliasKeys _ := []

/-- The run with a configuration, in which every query takes some time. -/
def runWith (config : RecallRunnerConfig Nat) (latency : Nat) :
    RunResult (RecallReport Nat × RecallContent) :=
  letI := caseless
  letI := wholeNumbers
  letI := unchangedScore
  RecallRunner.run ⟨sampleHost, observationIds, config⟩ (fun _ => 0) (fun _ => latency)
    unanswerable sampleContent

/-- A run at the present and one at the same instant by name agree. -/
theorem named_instant_agrees :
    ∃ report report' after after', runWith (configWith 0) 1 = .ok (report, after) ∧
      runWith { configWith 0 with validAt := some 0 } 2 = .ok (report', after') ∧
      report.figures = report'.figures := by
  refine ⟨_, _, _, _, rfl, rfl, ?_⟩
  refine @equal_contracts_agree Nat Nat wholeNumbers unchangedScore _ _ _ caseless (fun _ => 0)
    sampleHost observationIds (configWith 0) { configWith 0 with validAt := some 0 } (fun _ => 1)
    (fun _ => 2) unanswerable unanswerable sampleContent _ _ _ _ _ _ rfl rfl rfl rfl ?_ ?_ ?_ ?_ ?_
  · exact @EvaluationContract.differences_self _ wholeNumbers _
  · decide
  · decide
  · exact fun _ => rfl
  · let := wholeNumbers
    let := unchangedScore
    exact
      { floor := fun _ => rfl
        instant := rfl
        queries := List.Forall₂.cons ⟨rfl, rfl, fun _ => rfl, fun _ => rfl, fun _ _ => rfl⟩
          List.Forall₂.nil }

theorem floor_unrecorded :
    letI := wholeNumbers
    ∃ report report' contract contract' after after',
      runWith (configWith 0) 1 = .ok (report, after) ∧
      runWith (configWith 100) 1 = .ok (report', after') ∧ report.contract = some contract ∧
      report'.contract = some contract' ∧ contract.differences contract' = [] ∧
      report.figures ≠ report'.figures := by
  refine ⟨_, _, _, _, _, _, rfl, rfl, rfl, rfl, ?_, ?_⟩
  · exact @EvaluationContract.differences_self _ wholeNumbers _
  · intro same
    have abstained := congrArg (fun figures : Figures Nat => figures.abstention.abstained) same
    revert abstained
    decide

end OpenMemory.Eval
