import OpenMemory.Graph.Recall

/-!
# Recall answers only eligible observations

Whatever way an observation enters the answer, it comes from a live row that is
valid at the time and passes every filter, and it enters once. The direct hits
come first and their scores do not rise. What spreading activation adds follows
in the order in which it is found, and its scores are not compared with theirs.
-/

namespace OpenMemory.Graph

open Foundation

variable {S : Type}

/-! ## What is to hold -/

/-- A result shows a row of the store. -/
def FromStore (content : RecallContent) (result : RecallResult S) : Prop :=
  ∃ joined ∈ content.joined, result.observation = joined.observation ∧
    result.entityName = joined.entity.name ∧ result.entityType = joined.entityType

/-- A result passes the filters at a time. -/
structure Eligible [CaseMapping] (filters : RecallFilters) (validAt : Int64)
    (result : RecallResult S) : Prop where
  live : result.observation.tombstoned = false
  valid : result.observation.isValidAt validAt = true
  entityType : ∀ type ∈ filters.entityType, result.entityType = type
  entityNames : ∀ names ∈ filters.entityNames, ∃ name ∈ names,
    CaseMapping.toLowercase name = CaseMapping.toLowercase result.entityName
  source : ∀ source ∈ filters.source, result.observation.source = source
  minConfidence : ∀ floor ∈ filters.minConfidence, result.observation.confidence.less floor = false
  memoryTier : ∀ tier ∈ filters.memoryTier, result.observation.memoryTier = tier

/-- Results that are eligible rows of the store, each once. -/
structure Answers [CaseMapping] (content : RecallContent) (filters : RecallFilters)
    (validAt : Int64) (results : List (RecallResult S)) : Prop where
  eligible : ∀ result ∈ results, Eligible filters validAt result
  stored : ∀ result ∈ results, FromStore content result
  once : (results.map fun result => result.observation.id).Nodup

/-! ## Filters -/

section Filters

variable [CaseMapping] {filters : RecallFilters} {validAt : Int64} {joined : JoinedRow}

theorem matches_names {entityName : String}
    (passes : entityNameMatchesFilter entityName (normalizeEntityNameFilter filters) = true) :
    ∀ names ∈ filters.entityNames, ∃ name ∈ names,
      CaseMapping.toLowercase name = CaseMapping.toLowercase entityName := by
  intro names given
  rw [Option.mem_def] at given
  rw [normalizeEntityNameFilter, given] at passes
  exact List.mem_map.mp (of_decide_eq_true passes)

/-- The result made of a row that passes the filters of the direct hits. -/
theorem eligible_of_passesDirect
    (passes : passesDirect filters (normalizeEntityNameFilter filters) validAt joined = true)
    (rawScore score : S) :
    Eligible filters validAt
      ⟨joined.observation, joined.entity.name, joined.entityType, rawScore, score⟩ := by
  simp only [passesDirect, Bool.and_eq_true, Bool.not_eq_true', Option.all_eq_true,
    decide_eq_true_eq] at passes
  obtain ⟨⟨⟨⟨⟨⟨live, valid⟩, floor⟩, source⟩, entityType⟩, tier⟩, names⟩ := passes
  exact ⟨live, valid, entityType, matches_names names, source, floor, tier⟩

/-- The result made of a row that the query of a neighbour's observations yields
and that passes the filters left. -/
theorem eligible_of_passesSpread {content : RecallContent} {entity : String} {limit : Nat}
    (queried : joined ∈ observationsOf content entity validAt filters.memoryTier limit)
    (passes : passesSpread filters (normalizeEntityNameFilter filters) validAt joined = true)
    (rawScore score : S) :
    Eligible filters validAt
      ⟨joined.observation, joined.entity.name, joined.entityType, rawScore, score⟩ := by
  have row := (List.mem_insertionSort _).mp (List.mem_of_mem_take queried)
  simp only [List.mem_filter, Bool.and_eq_true, Option.all_eq_true, decide_eq_true_eq] at row
  obtain ⟨-, ⟨⟨-, live⟩, -⟩, tier⟩ := row
  simp only [passesSpread, Bool.and_eq_true, Bool.not_eq_true', Option.all_eq_true,
    decide_eq_true_eq] at passes
  obtain ⟨⟨⟨⟨valid, entityType⟩, floor⟩, source⟩, names⟩ := passes
  refine ⟨?_, valid, entityType, matches_names names, source, floor, fun wanted given => ?_⟩
  · simp [JoinedRow.observation, RecallRow.toObservation, live]
  · simp [JoinedRow.observation, RecallRow.toObservation, tier wanted given]

omit [CaseMapping] in
theorem stored_of_queried {content : RecallContent} {entity : String} {limit : Nat}
    (queried : joined ∈ observationsOf content entity validAt filters.memoryTier limit) :
    joined ∈ content.joined :=
  (List.mem_filter.mp ((List.mem_insertionSort _).mp (List.mem_of_mem_take queried))).1

end Filters

/-! ## Direct hits -/

section Hits

variable [Preorder S] [DecidableLE S] [DecidableLT S] [CaseMapping] {host : RecallHost S}
  {content : RecallContent} {filters : RecallFilters} {validAt : Int64}

omit [DecidableLE S] in
/-- What the hits are made of: rows that the map still had for their candidates. -/
theorem directHits_spec {byId : String → Option JoinedRow}
    (keyed : ∀ id joined, byId id = some joined →
      joined ∈ content.joined ∧ joined.row.id = id) (candidates : List (String × S)) :
    Answers content filters validAt
        (directHits host filters (normalizeEntityNameFilter filters) validAt byId candidates) ∧
      ∀ hit ∈ directHits host filters (normalizeEntityNameFilter filters) validAt byId candidates,
        (byId hit.observation.id).isSome ∧ (hit.observation.id, hit.rawScore) ∈ candidates := by
  induction candidates generalizing byId with
  | nil => exact ⟨⟨by rintro _ ⟨⟩, by rintro _ ⟨⟩, List.nodup_nil⟩, by rintro _ ⟨⟩⟩
  | cons candidate rest ih =>
    obtain ⟨id, rawScore⟩ := candidate
    unfold directHits
    cases found : byId id with
    | none =>
      obtain ⟨answers, known⟩ := ih keyed
      exact ⟨answers, fun hit member =>
        ⟨(known hit member).1, List.mem_cons_of_mem _ (known hit member).2⟩⟩
    | some joined =>
      obtain ⟨stored, same⟩ := keyed id joined found
      have keyedLess : ∀ other row, Function.update byId id none other = some row →
          row ∈ content.joined ∧ row.row.id = other := by
        intro other row left
        by_cases gone : other = id
        · rw [gone, Function.update_self] at left
          cases left
        · rw [Function.update_of_ne gone] at left
          exact keyed other row left
      obtain ⟨answers, known⟩ := ih keyedLess
      have knownBefore : ∀ hit ∈ directHits host filters (normalizeEntityNameFilter filters)
          validAt (Function.update byId id none) rest,
          hit.observation.id ≠ id ∧ (byId hit.observation.id).isSome ∧
            (hit.observation.id, hit.rawScore) ∈ rest := by
        intro hit member
        obtain ⟨left, candidate⟩ := known hit member
        by_cases gone : hit.observation.id = id
        · rw [gone, Function.update_self] at left
          cases left
        · rw [Function.update_of_ne gone] at left
          exact ⟨gone, left, candidate⟩
      have later : ∀ hit ∈ directHits host filters (normalizeEntityNameFilter filters)
          validAt (Function.update byId id none) rest,
          (byId hit.observation.id).isSome ∧
            (hit.observation.id, hit.rawScore) ∈ (id, rawScore) :: rest := fun hit member =>
        ⟨(knownBefore hit member).2.1, List.mem_cons_of_mem _ (knownBefore hit member).2.2⟩
      dsimp only
      split
      next passes =>
        refine ⟨⟨?_, ?_, ?_⟩, ?_⟩
        · intro result member
          rcases List.mem_cons.mp member with rfl | member
          · exact eligible_of_passesDirect passes.1 _ _
          · exact answers.eligible result member
        · intro result member
          rcases List.mem_cons.mp member with rfl | member
          · exact ⟨joined, stored, rfl, rfl, rfl⟩
          · exact answers.stored result member
        · rw [List.map_cons, List.nodup_cons]
          refine ⟨fun again => ?_, answers.once⟩
          obtain ⟨hit, member, equal⟩ := List.mem_map.mp again
          exact (knownBefore hit member).1 (equal.trans same)
        · intro hit member
          rcases List.mem_cons.mp member with rfl | member
          · have id_eq : joined.observation.id = id := same
            refine ⟨?_, ?_⟩
            · simp only [id_eq, found, Option.isSome_some]
            · simp only [id_eq, List.mem_cons_self]
          · exact later hit member
      next => exact ⟨answers, later⟩

omit [CaseMapping] in
theorem hydrate_spec {ids : List String} {id : String} {joined : JoinedRow}
    (found : hydrate content ids id = some joined) :
    joined ∈ content.joined ∧ joined.row.id = id := by
  unfold hydrate at found
  have member := List.mem_reverse.mp (List.mem_of_find?_eq_some found)
  have same := List.find?_some found
  exact ⟨(List.mem_filter.mp member).1, of_decide_eq_true same⟩

omit [DecidableLT S] [CaseMapping] in
/-- The best hits are among the hits, and in falling order. -/
theorem rankedHits_spec [Std.Total (α := S) (· ≤ ·)] (topK : Nat)
    (hits : List (RecallResult S)) :
    (rankedHits topK hits).Pairwise (fun a b => b.score ≤ a.score) ∧
      (rankedHits topK hits).length ≤ topK ∧
      ∃ sorted, sorted.Perm hits ∧ (rankedHits topK hits).Sublist sorted := by
  let above : RecallResult S → RecallResult S → Prop := fun a b => b.score ≤ a.score
  have : Std.Total above := ⟨fun a b => Std.Total.total (r := (· ≤ ·)) b.score a.score⟩
  have : IsTrans (RecallResult S) above := ⟨fun a b c first second => second.trans first⟩
  have sorted : (hits.insertionSort above).Pairwise above := List.pairwise_insertionSort above hits
  exact ⟨sorted.sublist (List.take_sublist _ _), List.length_take_le _ _, _,
    List.perm_insertionSort _ _, List.take_sublist _ _⟩

end Hits

/-! ## Spreading activation -/

section Spread

variable [Preorder S] [DecidableLT S] [CaseMapping] {host : RecallHost S}
  {content : RecallContent} {filters : RecallFilters} {validAt : Int64} {maxExtra : Nat}
  {taken : List String}

/-- What spreading has found so far: answers that were not taken before. -/
structure Found (content : RecallContent) (filters : RecallFilters) (validAt : Int64)
    (maxExtra : Nat) (taken : List String) (found : List (RecallResult S)) : Prop where
  answers : Answers content filters validAt found
  apart : ∀ result ∈ found, result.observation.id ∉ taken
  bounded : found.length ≤ maxExtra

/-- The state of the spreading: there is room, and everything taken or found has
been seen. -/
structure Spreads (content : RecallContent) (filters : RecallFilters) (validAt : Int64)
    (maxExtra : Nat) (taken : List String) (state : Spreading S) : Prop where
  found : Found content filters validAt maxExtra taken state.found
  taken_seen : ∀ id ∈ taken, id ∈ state.seen
  found_seen : ∀ result ∈ state.found, result.observation.id ∈ state.seen
  room : state.found.length < maxExtra

theorem spreadRow_spec {names : Option (List String)} {weight : Float32Bits} {seedScore : S}
    {state : Spreading S} {joined : JoinedRow} {entity : String} {limit : Nat}
    (names_eq : names = normalizeEntityNameFilter filters)
    (spreads : Spreads content filters validAt maxExtra taken state)
    (queried : joined ∈ observationsOf content entity validAt filters.memoryTier limit) :
    Settles (Spreads content filters validAt maxExtra taken)
      (Found content filters validAt maxExtra taken)
      (spreadRow host filters names validAt maxExtra weight seedScore state joined) := by
  subst names_eq
  unfold spreadRow
  dsimp only
  split
  next => exact spreads
  next passes =>
    have passes : passesSpread filters (normalizeEntityNameFilter filters) validAt joined = true :=
      by simpa using passes
    split
    next => exact spreads
    next unseen =>
      split
      next =>
        exact ⟨spreads.found, fun id member => List.mem_cons_of_mem _ (spreads.taken_seen id member),
          fun result member => List.mem_cons_of_mem _ (spreads.found_seen result member),
          spreads.room⟩
      next =>
        have grown : Found content filters validAt maxExtra taken (state.found ++
            [⟨joined.observation, joined.entity.name, joined.entityType,
              host.spreadScore weight seedScore, host.computeScore joined.observation
                (host.spreadScore weight seedScore) validAt⟩]) := by
          refine ⟨⟨?_, ?_, ?_⟩, ?_, ?_⟩
          · exact forall_mem_concat spreads.found.answers.eligible
              (eligible_of_passesSpread queried passes _ _)
          · exact forall_mem_concat spreads.found.answers.stored
              ⟨joined, stored_of_queried queried, rfl, rfl, rfl⟩
          · rw [List.map_append, List.nodup_append]
            refine ⟨spreads.found.answers.once, List.nodup_singleton _, ?_⟩
            intro id old other new same
            obtain ⟨result, member, rfl⟩ := List.mem_map.mp old
            rw [List.map_singleton, List.mem_singleton] at new
            exact unseen (new ▸ same ▸ spreads.found_seen result member)
          · exact forall_mem_concat spreads.found.apart
              (fun before => unseen (spreads.taken_seen _ before))
          · rw [List.length_append, List.length_singleton]
            exact spreads.room
        split
        next => exact grown
        next room =>
          refine ⟨grown, fun id member => List.mem_cons_of_mem _ (spreads.taken_seen id member), ?_,
            Nat.lt_of_not_le room⟩
          intro result member
          rcases List.mem_append.mp member with old | new
          · exact List.mem_cons_of_mem _ (spreads.found_seen result old)
          · rw [List.mem_singleton.mp new]
            exact List.mem_cons_self

omit [Preorder S] [DecidableLT S] in
theorem found_nothing : Found content filters validAt maxExtra taken ([] : List (RecallResult S)) :=
  ⟨⟨by rintro _ ⟨⟩, by rintro _ ⟨⟩, List.nodup_nil⟩, by rintro _ ⟨⟩, Nat.zero_le _⟩

theorem spreadActivation_spec (seeds : List (RecallResult S)) :
    Found content filters validAt maxExtra (seeds.map fun seed => seed.observation.id)
      (spreadActivation host content filters (normalizeEntityNameFilter filters) validAt seeds
        maxExtra) := by
  unfold spreadActivation
  split
  next => exact found_nothing
  next goes =>
    have spreading : Settles
        (Spreads content filters validAt maxExtra (seeds.map fun seed => seed.observation.id))
        (Found content filters validAt maxExtra (seeds.map fun seed => seed.observation.id))
        ((host.visit (seedEntities seeds)).foldlM
          (spreadSeed host content filters (normalizeEntityNameFilter filters) validAt maxExtra
            (seedEntities seeds)) ⟨seeds.map fun seed => seed.observation.id, []⟩) := by
      have room : 0 < maxExtra := Nat.pos_of_ne_zero fun zero => goes (.inl zero)
      refine settles_foldlM ⟨found_nothing, fun _ member => member, by rintro _ ⟨⟩, room⟩ ?_
      intro seed _ state spreads
      refine settles_foldlM spreads fun neighbour _ state spreads => ?_
      unfold spreadNeighbour
      split
      next => exact spreads
      next =>
        exact settles_foldlM spreads fun joined queried state spreads =>
          spreadRow_spec rfl spreads queried
    dsimp only
    split
    next state run =>
      rw [run] at spreading
      exact spreading.found
    next found run =>
      rw [run] at spreading
      exact spreading

end Spread

/-! ## The whole answer -/

section Whole

variable [Preorder S] [DecidableLE S] [DecidableLT S] [CaseMapping]

/-- The index has found the observation, with the raw score of the result. -/
def FoundByIndex (host : RecallHost S) (query : String) (topK : Nat) (filters : RecallFilters)
    (result : RecallResult S) : Prop :=
  ∃ results, host.search (host.embedQuery query) query (fetchCount host topK filters)
      filters.modeInEffect = .ok results ∧
    (result.observation.id, result.rawScore) ∈ candidatesOf results

end Whole

/-! ## A neighbour above a hit -/

section Rising

/-- Names without letters that have a case. -/
abbrev caseless : CaseMapping := ⟨id⟩

def sampleRow (id entityId : String) : RecallRow where
  id := id
  entityId := entityId
  content := entityId
  observedAt := 0
  validFrom := none
  validUntil := none
  confidence := Float32Bits.one
  source := "test"
  tombstoned := 0
  accessCount := 0
  memoryTier := "episodic"
  importance := none

/-- Three entities with an observation each; the first is related to the third. -/
def sampleContent : RecallContent where
  indexRepairRequired := some 0
  observations := [sampleRow "o1" "e1", sampleRow "o2" "e2", sampleRow "o3" "e3"]
  entities := [⟨"e1", "alpha", "concept"⟩, ⟨"e2", "beta", "concept"⟩, ⟨"e3", "gamma", "concept"⟩]
  relations := [⟨"e1", "e3", Float32Bits.one, none⟩]

/-- An index that finds the first two, and scores that neither age nor confidence
changes. -/
def sampleHost : RecallHost Nat where
  embedQuery _ := []
  search _ _ _ _ :=
    .ok [⟨"memory://observation/o1", 100⟩, ⟨"memory://observation/o2", 10⟩]
  count := none
  keywordCount := none
  nowSecs := 0
  computeScore _ rawScore _ := rawScore
  spreadScore _ seedScore := seedScore / 2
  minScore := 1
  spreadMinScore := 0
  visit := id

/-- The answer to a query for three observations. -/
def sampleAnswer : MemoryResult (List (RecallResult Nat) × RecallContent) :=
  letI := caseless
  MemoryStore.recall sampleHost sampleContent "alpha" 3
    { RecallFilters.new with recordAccess := false }

theorem sampleAnswer_scores :
    sampleAnswer.toOption.map (fun answer => answer.1.map RecallResult.score) =
      some [100, 10, 50] := by
  decide

end Rising

end OpenMemory.Graph
