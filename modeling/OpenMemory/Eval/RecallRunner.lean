import OpenMemory.Eval.RecallReport
import OpenMemory.Graph.Recall

/-!
# Running a query set against a store

For each query the runner recalls more and more rows until enough candidates
survive: a row has to score above the floor, a key has to be known for it, and it
must not be the query's own source. The candidates are scored at the granularity
the query is judged at.

Where access recording is off a recall leaves the store as it is, so every query
meets the store in the state the run found it in.
-/

namespace OpenMemory.Eval

open Foundation OpenMemory.Graph

/-! ## Configuration -/

structure RecallRunnerConfig (F : Type) where
  topK : Nat
  mode : Option SearchMode
  spreadingActivation : Bool
  recordAccess : Bool
  scoreFloor : F
  validAt : Option Int64
  strategy : String
  corpus : String
  decayRate : Option F
  corpusReceipt : Option String

variable {S F : Type}

def RecallRunnerConfig.filters (config : RecallRunnerConfig F) : RecallFilters where
  entityType := none
  validAt := config.validAt
  source := none
  minConfidence := none
  entityNames := none
  mode := config.mode
  memoryTier := none
  spreadingActivation := config.spreadingActivation
  recordAccess := config.recordAccess

/-- The text of `{:?}`. -/
def debugMode : Option SearchMode → String
  | none => "None"
  | some .hybrid => "Some(Hybrid)"
  | some .vectorOnly => "Some(VectorOnly)"
  | some .keywordOnly => "Some(KeywordOnly)"

theorem debugMode_injective : Function.Injective debugMode := by
  intro a b same
  rcases a with _ | _ | _ | _ <;> rcases b with _ | _ | _ | _ <;> simp_all [debugMode]

def maxFetch : Nat := 512
def fetchGrowth : Nat := 4

/-- The key of a result, and the coarser keys it satisfies as well. -/
structure KeyResolver (S : Type) where
  keyFor : RecallResult S → Option String
  aliasKeys : RecallResult S → List String

/-- A document by its keys, with its score. -/
abbrev Candidate (F : Type) := List String × F

structure Eligible (F : Type) where
  candidates : List (Candidate F)
  topScore : F
  physicalReturned : Nat
  excludedHits : Nat
  unresolvedHits : Nat
  rounds : Nat
  exhausted : Bool

/-! ## From hits to candidates -/

section Candidates

variable [DoubleArithmetic F] [ScoreWidening S F]

/-- The hits that score above the floor. -/
def aboveFloor (floor : F) (hits : List (RecallResult S)) : List (RecallResult S) :=
  hits.filter fun hit => DoubleArithmetic.less floor (ScoreWidening.widen hit.score)

/-- The keys of a hit whose key is known, with its score. -/
def candidateOf (resolver : KeyResolver S) (hit : RecallResult S) : Option (Candidate F) :=
  (resolver.keyFor hit).map fun canonical =>
    (canonical :: resolver.aliasKeys hit, ScoreWidening.widen hit.score)

omit [DoubleArithmetic F] in
/-- Take out the documents a query declares as its own source. -/
def dropSourceDocuments (query : RecallQuery) (candidates : List (Candidate F)) :
    List (Candidate F) × Nat :=
  if query.exclude = [] then (candidates, 0)
  else
    let kept := candidates.filter fun candidate => !candidate.1.any fun key => key ∈ query.exclude
    (kept, candidates.length - kept.length)

omit [DoubleArithmetic F] in
theorem dropSourceDocuments_apart {query : RecallQuery} {candidates : List (Candidate F)}
    {candidate : Candidate F} (member : candidate ∈ (dropSourceDocuments query candidates).1) :
    ∀ key ∈ candidate.1, key ∉ query.exclude := by
  unfold dropSourceDocuments at member
  split at member <;> simp_all

/-- What one fetch leaves of the rows it brought. -/
def eligibleOf (resolver : KeyResolver S) (floor : F) (query : RecallQuery)
    (target fetch rounds : Nat) (hits : List (RecallResult S)) : Eligible F × Nat :=
  let above := aboveFloor floor hits
  let resolved := above.filterMap (candidateOf resolver)
  let (candidates, excludedHits) := dropSourceDocuments query resolved
  ({ candidates := candidates.take target
     topScore := (candidates.head?.map Prod.snd).getD (DoubleArithmetic.ofNat 0)
     physicalReturned := hits.length
     excludedHits := excludedHits
     unresolvedHits := above.length - resolved.length
     rounds := rounds
     exhausted := hits.length < fetch }, candidates.length)

/-- A retrieval ends with enough candidates or where no more rows can be had, and none of its
candidates is a document that the query excludes. -/
structure Eligible.Ends (eligible : Eligible F) (query : RecallQuery) (target : Nat) : Prop where
  enough : eligible.candidates.length = target ∨ eligible.exhausted ∨
    maxFetch ≤ eligible.physicalReturned
  atMost : eligible.candidates.length ≤ target
  unexcluded : ∀ candidate ∈ eligible.candidates, ∀ key ∈ candidate.1, key ∉ query.exclude

theorem eligibleOf_ends {resolver : KeyResolver S} {floor : F} {query : RecallQuery}
    {target fetch rounds : Nat} {hits : List (RecallResult S)}
    (final : target ≤ (eligibleOf resolver floor query target fetch rounds hits).2 ∨
      (eligibleOf resolver floor query target fetch rounds hits).1.exhausted ∨ maxFetch ≤ fetch) :
    (eligibleOf resolver floor query target fetch rounds hits).1.Ends query target := by
  unfold eligibleOf at *
  refine ⟨?_, ?_, fun candidate member =>
    dropSourceDocuments_apart (List.mem_of_mem_take member)⟩ <;>
    simp only [List.length_take, decide_eq_true_eq] at * <;> omega

/-- The key a candidate counts under: the first of its keys that the query judges,
and its own key if it judges none. -/
def projectToJudgedGranularity (query : RecallQuery) (candidates : List (Candidate F)) :
    List (String × F) :=
  let judged := query.relevant.map (·.key)
  candidates.filterMap fun candidate =>
    candidate.1.head?.map fun canonical =>
      ((candidate.1.find? fun key => key ∈ judged).getD canonical, candidate.2)

end Candidates

/-! ## Running -/

section Running

variable [DoubleArithmetic F] [ScoreWidening S F] [Preorder S] [DecidableLE S] [DecidableLT S]
  [CaseMapping]

structure RecallRunner (S F : Type) where
  host : RecallHost S
  resolver : KeyResolver S
  config : RecallRunnerConfig F

/-- The error of a recall under the id of its query. -/
structure RunError where
  queryId : String
  cause : MemoryError

abbrev RunResult (α : Type) := Except RunError α

/-- Fetch until enough candidates survive or no more rows can be had. The rounds
are counted down as well; there is an end to the growth of a fetch. -/
def RecallRunner.retrieve (runner : RecallRunner S F) (query : RecallQuery) (target : Nat) :
    Nat → Nat → Nat → RecallContent → RunResult (Eligible F × RecallContent)
  | spare, fetch, rounds, content => do
      let (hits, content) ←
        (MemoryStore.recall runner.host content query.text fetch runner.config.filters).mapError
          (RunError.mk query.id)
      let (eligible, survivors) :=
        eligibleOf runner.resolver runner.config.scoreFloor query target fetch rounds hits
      if target ≤ survivors ∨ eligible.exhausted ∨ maxFetch ≤ fetch then pure (eligible, content)
      else
        match spare with
        | 0 => pure (eligible, content)
        | spare + 1 =>
          runner.retrieve query target spare (min (fetch * fetchGrowth) maxFetch) (rounds + 1)
            content

/-- The row of a query, from what its retrieval came to. -/
def rowOf (query : RecallQuery) (outcome : Eligible F) (latencyMs : F) : ScoredQuery F :=
  let ranked := projectToJudgedGranularity query outcome.candidates
  { scoreQueryWithScores query ranked outcome.candidates.length outcome.topScore latencyMs 0 with
    excludedHits := outcome.excludedHits
    physicalReturned := outcome.physicalReturned
    unresolvedHits := outcome.unresolvedHits
    fetchRounds := outcome.rounds
    corpusExhausted := outcome.exhausted }

def RecallRunner.target (runner : RecallRunner S F) : Nat := max runner.config.topK gatedK

def RecallRunner.retrieveEligible (runner : RecallRunner S F) (query : RecallQuery)
    (content : RecallContent) : RunResult (Eligible F × RecallContent) :=
  runner.retrieve query runner.target maxFetch runner.target 1 content

/-- The rounds that are left suffice for the largest fetch. -/
theorem RecallRunner.retrieve_ends {runner : RecallRunner S F} {query : RecallQuery}
    {target spare fetch rounds : Nat} {content : RecallContent} (positive : 0 < fetch)
    (enough : maxFetch ≤ fetch + spare) :
    match runner.retrieve query target spare fetch rounds content with
    | .ok (eligible, _) => eligible.Ends query target
    | .error error => error.queryId = query.id := by
  induction spare generalizing fetch rounds content with
  | zero =>
    unfold retrieve
    cases MemoryStore.recall runner.host content query.text fetch runner.config.filters with
    | error error => rfl
    | ok found =>
      have ends := @eligibleOf_ends S F _ _ runner.resolver runner.config.scoreFloor query target
        fetch rounds found.1 (.inr (.inr enough))
      dsimp only [Except.mapError, bind, Except.bind]
      split_ifs <;> exact ends
  | succ spare ih =>
    unfold retrieve
    cases MemoryStore.recall runner.host content query.text fetch runner.config.filters with
    | error error => rfl
    | ok found =>
      dsimp only [Except.mapError, bind, Except.bind]
      split_ifs with final
      · exact eligibleOf_ends final
      · refine ih ?_ ?_ <;> unfold maxFetch fetchGrowth at * <;> omega

/-- **Every retrieval ends** with enough candidates, or where no more rows can be had. It fails
only under the id of its query. -/
theorem retrieval_ends (runner : RecallRunner S F) (query : RecallQuery) (content : RecallContent) :
    match runner.retrieveEligible query content with
    | .ok (eligible, _) => eligible.Ends query runner.target
    | .error error => error.queryId = query.id :=
  runner.retrieve_ends (Nat.lt_of_lt_of_le (by decide) (Nat.le_max_right ..)) (Nat.le_add_left ..)

/-- Score the queries one after another; `clock` tells how long each of them took. -/
def RecallRunner.scoreAll (runner : RecallRunner S F) (clock : Nat → F) :
    Nat → List RecallQuery → RecallContent → RunResult (List (ScoredQuery F) × RecallContent)
  | _, [], content => pure ([], content)
  | i, query :: rest, content => do
      let (outcome, content) ← runner.retrieveEligible query content
      let (rows, content) ← runner.scoreAll clock (i + 1) rest content
      pure (rowOf query outcome (clock i) :: rows, content)

def RecallRunnerConfig.contract (config : RecallRunnerConfig F) (hash : Bytes → Nat)
    (set : RecallQuerySet) : EvaluationContract F where
  metricVersion := metricVersion
  querySetDigest := digestQuerySet hash set
  queryCount := set.queries.length
  corpus := config.corpus
  corpusReceipt := config.corpusReceipt
  mode := debugMode config.mode
  topK := config.topK
  spreadingActivation := config.spreadingActivation
  recordAccess := config.recordAccess
  decayRate := config.decayRate

def RecallRunner.run (runner : RecallRunner S F) (hash : Bytes → Nat) (clock : Nat → F)
    (set : RecallQuerySet) (content : RecallContent) :
    RunResult (RecallReport F × RecallContent) := do
  let (rows, content) ← runner.scoreAll clock 0 set.queries content
  pure ({ RecallReport.assemble set.name runner.config.strategy rows with
            recallCeiling := some (RecallCeiling.measure set gatedK)
            contract := some (runner.config.contract hash set) }, content)

end Running

end OpenMemory.Eval
