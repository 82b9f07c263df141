import OpenMemory.Mcp.Protocol
import OpenMemory.Index.Ranking

/-!
# The search tool

`openmemory_search` asks the index for a number of rows, drops the copies of observations and
what the filters of the request exclude, and returns the first rows that are left. It asks for
more rows than it returns only where the request has a prefix or a positive score floor.

So copies of observations take the places of rows that match where there is no filter, and
otherwise where an index counts fewer entries than its ranking has rows
(`search_first_matches_iff`).
-/

namespace OpenMemory.Mcp

open Foundation OpenMemory.Index

/-! ## The tool -/

structure SearchInput where
  query : String
  limit : Option UInt32
  uriPrefix : Option String
  minScore : Option Float32Bits
  mode : Option Graph.SearchMode
  space : Option String

/-- What the tool reads of a store. -/
structure IndexMemory where
  embedQuery : String → List Float32Bits
  /-- The entries of the vector index and of the keyword index. -/
  indexCounts : Graph.MemoryResult (UInt64 × UInt64)
  indexSearch : List Float32Bits → String → Nat → Graph.SearchMode → UInt64 →
    Graph.MemoryResult (List SearchResult)

structure SearchOutput where
  results : List SearchResult
  limit : Nat

namespace SearchInput

def limitInEffect (req : SearchInput) : Nat := min (max (req.limit.getD 10).toNat 1) 50

/-- The prefix, where it is not empty. -/
def scope (req : SearchInput) : Option String := req.uriPrefix.filter fun text => !text.isEmpty

def needsOverfetch (req : SearchInput) : Bool :=
  req.scope.isSome || req.minScore.any fun floor => Float32Bits.zero.less floor

/-- How many rows are asked for, under the counts of the indexes. -/
def fetch (req : SearchInput) (counts : UInt64 × UInt64) : Nat :=
  max (if req.needsOverfetch then
      min (min (max counts.1 counts.2).toNat (req.limitInEffect * 32)) 4096
    else req.limitInEffect) req.limitInEffect

end SearchInput

def startsWith (text start : String) : Bool := start.toList.isPrefixOf text.toList

/-- A copy of an observation, in the reserved namespace. -/
def isMemoryUri (uri : String) : Bool := startsWith uri "memory://"

/-- The three passes over the results. -/
def SearchInput.retain (req : SearchInput) (results : List SearchResult) : List SearchResult :=
  let results := results.filter fun r => !isMemoryUri r.uri
  let results := match req.scope with
    | some start => results.filter fun r => startsWith r.uri start
    | none => results
  match req.minScore with
  | some floor => results.filter fun r => r.score.atLeast floor
  | none => results

section Tool

variable (storeFor : Option String → Except JsonRpcError IndexMemory)
  (display : Graph.MemoryError → String) (round2 : Float32Bits → Float32Bits)

def outputRow (r : SearchResult) : SearchResult := { r with score := round2 r.score }

/-- `OpenMemorySearchTool::call`, after the arguments are read. -/
def openMemorySearch (req : SearchInput) : Except JsonRpcError SearchOutput := do
  if Graph.blank req.query then
    throw (.invalidParams "query must not be empty")
  let memory ← storeFor req.space
  let vector := memory.embedQuery req.query
  let fetch ← if req.needsOverfetch then
      match memory.indexCounts with
      | .ok counts => pure (req.fetch counts)
      | .error error => throw (.internalError ("count failed: " ++ display error))
    else pure (req.fetch (0, 0))
  match memory.indexSearch vector req.query fetch (req.mode.getD .hybrid) 0 with
  | .error error => throw (.internalError ("search failed: " ++ display error))
  | .ok results =>
    pure ⟨((req.retain results).take req.limitInEffect).map (outputRow round2), req.limitInEffect⟩

end Tool

/-! ## The first matches -/

/-- The rows that a request asks for. -/
def SearchInput.matches (req : SearchInput) (r : SearchResult) : Bool :=
  !isMemoryUri r.uri && req.scope.all (fun start => startsWith r.uri start) &&
    req.minScore.all (fun floor => r.score.atLeast floor)

theorem retain_eq (req : SearchInput) (results : List SearchResult) :
    req.retain results = results.filter req.matches := by
  unfold SearchInput.retain
  have three : req.matches = fun r => !isMemoryUri r.uri &&
      req.scope.all (fun start => startsWith r.uri start) &&
      req.minScore.all (fun floor => r.score.atLeast floor) := rfl
  rw [three]
  cases req.scope with
  | none => cases req.minScore <;> simp [List.filter_filter, Bool.and_comm]
  | some start =>
    cases req.minScore <;> simp [List.filter_filter, Bool.and_comm]

/-- How deep in a ranking matches are looked for. -/
def SearchInput.depth (req : SearchInput) : Nat := min (32 * req.limitInEffect) 4096

/-- The first rows of a ranking that match, as many as are asked for. -/
def SearchInput.firstMatches (req : SearchInput) (ranking : List SearchResult) :
    List SearchResult :=
  ((ranking.take req.depth).filter req.matches).take req.limitInEffect

theorem limitInEffect_bounds (req : SearchInput) :
    1 ≤ req.limitInEffect ∧ req.limitInEffect ≤ 50 := by
  unfold SearchInput.limitInEffect
  omega

theorem fetch_bounds (req : SearchInput) (counts : UInt64 × UInt64) :
    req.limitInEffect ≤ req.fetch counts ∧ req.fetch counts ≤ req.depth := by
  obtain ⟨positive, small⟩ := limitInEffect_bounds req
  unfold SearchInput.fetch SearchInput.depth
  constructor
  · exact le_max_right _ _
  · split <;> omega

section FirstMatches

variable {α : Type} {p : α → Bool} {items : List α} {near far limit : Nat}

/-- The items that pass among more of the first items. -/
theorem filter_take_split (nested : near ≤ far) :
    (items.take far).filter p =
      (items.take near).filter p ++ ((items.take far).drop near).filter p := by
  have first : (items.take far).take near = items.take near := by
    rw [List.take_take, min_eq_left nested]
  rw [← List.filter_append, ← first, List.take_append_drop]

/-- Looking less deep finds the same first items exactly where it finds enough of them, or there
are none behind. -/
theorem take_filter_take_eq_iff (nested : near ≤ far) :
    ((items.take near).filter p).take limit = ((items.take far).filter p).take limit ↔
      limit ≤ (items.take near).countP p ∨ ∀ item ∈ (items.take far).drop near, p item = false := by
  have none_behind : (∀ item ∈ (items.take far).drop near, p item = false) ↔
      ((items.take far).drop near).filter p = [] := by
    simp [List.filter_eq_nil_iff]
  rw [none_behind, filter_take_split nested, List.countP_eq_length_filter]
  generalize (items.take near).filter p = found
  generalize ((items.take far).drop near).filter p = behind
  rw [List.take_append]
  constructor
  · intro same
    by_cases enough : limit ≤ found.length
    · exact .inl enough
    · right
      have nothing : behind.take (limit - found.length) = [] := List.append_cancel_left
        (same.symm.trans (List.append_nil _).symm)
      rcases List.take_eq_nil_iff.mp nothing with zero | empty
      · omega
      · exact empty
  · rintro (enough | rfl)
    · rw [Nat.sub_eq_zero_of_le enough, List.take_zero, List.append_nil]
    · rw [List.take_nil, List.append_nil]

theorem take_filter_take_starts (nested : near ≤ far) :
    ((items.take near).filter p).take limit <+: ((items.take far).filter p).take limit := by
  rw [filter_take_split nested, List.take_append]
  exact List.prefix_append _ _

end FirstMatches

section Results

variable {storeFor : Option String → Except JsonRpcError IndexMemory}
  {display : Graph.MemoryError → String} {round2 : Float32Bits → Float32Bits}
  {req : SearchInput} {memory : IndexMemory} {counts : UInt64 × UInt64}
  {ranking : List SearchResult}

/-- A store answers each search for a query with the first rows of one ranking. -/
structure IndexMemory.Ranks (memory : IndexMemory) (query : String) (mode : Graph.SearchMode)
    (ranking : List SearchResult) : Prop where
  searched : ∀ topK, 1 ≤ topK → memory.indexSearch (memory.embedQuery query) query topK mode 0 =
    .ok (ranking.take topK)

/-- What the tool returns. -/
theorem openMemorySearch_eq (asked : Graph.blank req.query = false)
    (stored : storeFor req.space = .ok memory) (counted : memory.indexCounts = .ok counts)
    (ranked : memory.Ranks req.query (req.mode.getD .hybrid) ranking) :
    openMemorySearch storeFor display round2 req =
      .ok ⟨(((ranking.take (req.fetch counts)).filter req.matches).take
        req.limitInEffect).map (outputRow round2), req.limitInEffect⟩ := by
  have searched := ranked.searched (req.fetch counts)
    ((limitInEffect_bounds req).1.trans (fetch_bounds req counts).1)
  unfold openMemorySearch
  simp only [asked, Bool.false_eq_true, if_false, stored]
  cases overfetch : req.needsOverfetch with
  | true =>
    simp only [if_true, bind, Except.bind, pure, Except.pure]
    rw [counted]
    dsimp only
    rw [searched]
    simp only [retain_eq]
  | false =>
    have alone : req.fetch (0, 0) = req.fetch counts := by
      unfold SearchInput.fetch
      rw [overfetch]
      rfl
    simp only [Bool.false_eq_true, if_false, bind, Except.bind, pure, Except.pure, alone]
    rw [searched]
    simp only [retain_eq]

/-- **The tool returns the first matches** exactly where it finds enough of them in the rows it
asks for, or none of the rows behind these match. -/
theorem search_first_matches_iff (asked : Graph.blank req.query = false)
    (stored : storeFor req.space = .ok memory) (counted : memory.indexCounts = .ok counts)
    (ranked : memory.Ranks req.query (req.mode.getD .hybrid) ranking) :
    openMemorySearch storeFor display round2 req =
        .ok ⟨(req.firstMatches ranking).map (outputRow round2), req.limitInEffect⟩ ↔
      req.limitInEffect ≤ (ranking.take (req.fetch counts)).countP req.matches ∨
        ∀ row ∈ (ranking.take req.depth).drop (req.fetch counts), req.matches row = false := by
  rw [openMemorySearch_eq asked stored counted ranked,
    ← take_filter_take_eq_iff (fetch_bounds req counts).2]
  constructor
  · intro same
    have rows := congrArg (List.length ∘ SearchOutput.results) (Except.ok.inj same)
    rw [Function.comp_apply, Function.comp_apply, List.length_map, List.length_map] at rows
    exact (take_filter_take_starts (fetch_bounds req counts).2).eq_of_length rows
  · intro same
    rw [same]
    rfl

end Results

/-! ## A copy of an observation in front of a note -/

section Example

/-- A copy of an observation, ranked above the note that it is about. -/
def copyAndNote : List SearchResult :=
  [⟨"memory://observation/o1", "the deploy runs at noon", 0, .one⟩,
    ⟨"note://deploys", "deploys run at noon", 0, ⟨0x3F000000⟩⟩]

def twoRowMemory : IndexMemory where
  embedQuery _ := []
  indexCounts := .ok (0, 2)
  indexSearch _ _ topK _ _ := .ok (copyAndNote.take topK)

def oneResult (uriPrefix : Option String) : SearchInput :=
  ⟨"deploy", some 1, uriPrefix, none, none, none⟩

/-- With a prefix, the note is found. -/
theorem note_found : openMemorySearch (fun _ => .ok twoRowMemory) (fun _ => "") id
      (oneResult (some "note://")) =
    .ok ⟨((oneResult (some "note://")).firstMatches copyAndNote).map (outputRow id), 1⟩ ↔
    (oneResult (some "note://")).limitInEffect ≤
        (copyAndNote.take ((oneResult (some "note://")).fetch (0, 2))).countP
          (oneResult (some "note://")).matches ∨
      ∀ row ∈ (copyAndNote.take (oneResult (some "note://")).depth).drop
          ((oneResult (some "note://")).fetch (0, 2)),
        (oneResult (some "note://")).matches row = false :=
  search_first_matches_iff (by decide +kernel) rfl rfl ⟨fun _ _ => rfl⟩

/-- **Without a prefix, the copy displaces the note**: one result is asked for, and none is
returned. -/
theorem copy_displaces_note : openMemorySearch (fun _ => .ok twoRowMemory) (fun _ => "") id
      (oneResult none) ≠
    .ok ⟨((oneResult none).firstMatches copyAndNote).map (outputRow id),
      (oneResult none).limitInEffect⟩ := by
  have returned : (openMemorySearch (fun _ => .ok twoRowMemory) (fun _ => "") id
      (oneResult none)).toOption.map (fun output => output.results.length) = some 0 := by
    decide +kernel
  have asked : ((oneResult none).firstMatches copyAndNote).length = 1 := by decide +kernel
  intro same
  rw [same] at returned
  simp only [Except.toOption, Option.map_some, List.length_map, asked] at returned
  cases returned

end Example

end OpenMemory.Mcp
