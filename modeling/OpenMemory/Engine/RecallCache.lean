import OpenMemory.Engine.Partition
import OpenMemory.Foundation.HashBytes
import OpenMemory.Foundation.Lru
import OpenMemory.Foundation.Collections
import OpenMemory.Foundation.Runs

/-!
# The recall cache of the facade

A recall over several domains loads the write version, looks its key up in the
cache, and otherwise asks every domain, merges what they find, and caches the
merge under the version it loaded. An entry is served while the write version is
the one it was cached under, and not for longer than its time to live.

Any number of facade writes and recalls interleave. A store is a black box that
commits changes while it is asked and answers as it likes, except that it commits
nothing when it is only read, and that it does not say that there was nothing to
do when it did something. Steps are numbered, and a log keeps what was changed
when; the numbers and the log are an observer's and no step depends on them.
-/

namespace OpenMemory.Engine.RecallCache

open Foundation OpenMemory.Graph OpenMemory.Engine.Partition

/-! ## The cache key -/

/-- What a recall asks. A vector never holds as many as `2^64` names. -/
structure Question where
  query : String
  topK : UInt64
  filters : RecallFilters
  namesFit : ∀ names ∈ filters.entityNames, names.length < 2 ^ 64

section Key

variable [CaseMapping]

def hashMode : SearchMode → Bytes
  | .hybrid => leBytes 8 0
  | .vectorOnly => leBytes 8 1
  | .keywordOnly => leBytes 8 2

/-- The names in lower case, sorted and without duplicates. -/
def normalizedNames (names : List String) : List String :=
  ascending (names.map CaseMapping.toLowercase).toFinset

def hashNames : Option (List String) → Bytes
  | none => [0]
  | some names => 1 :: counted hashStr (normalizedNames names)

/-- The bytes that `recall_cache_key` hashes. -/
def keyBytes (question : Question) : Bytes :=
  let filters := question.filters
  hashStr question.query ++ (leBytes 8 question.topK.toNat ++
    (hashOption (fun type => hashStr type.asStr) filters.entityType ++
    (hashOption (fun time : Int64 => leBytes 8 time.toUInt64.toNat) filters.validAt ++
    (hashOption hashStr filters.source ++
    (hashOption (fun bits : Float32Bits => leBytes 4 bits.toBits.toNat) filters.minConfidence ++
    (hashNames filters.entityNames ++
    (hashMode filters.modeInEffect ++
    (hashOption (fun tier => hashStr tier.asStr) filters.memoryTier ++
    (hashBool filters.spreadingActivation ++ hashBool filters.recordAccess)))))))))

def recallCacheKey [NameHash] (question : Question) : UInt64 :=
  NameHash.finish (keyBytes question)

/-- Two recalls ask the same: every field that affects the answer agrees. -/
structure Question.Agrees (question other : Question) : Prop where
  query : question.query = other.query
  topK : question.topK = other.topK
  entityType : question.filters.entityType = other.filters.entityType
  validAt : question.filters.validAt = other.filters.validAt
  source : question.filters.source = other.filters.source
  minConfidence : question.filters.minConfidence = other.filters.minConfidence
  entityNames : question.filters.entityNames.map
      (fun names => (names.map CaseMapping.toLowercase).toFinset) =
    other.filters.entityNames.map fun names => (names.map CaseMapping.toLowercase).toFinset
  mode : question.filters.modeInEffect = other.filters.modeInEffect
  memoryTier : question.filters.memoryTier = other.filters.memoryTier
  spreadingActivation : question.filters.spreadingActivation = other.filters.spreadingActivation
  recordAccess : question.filters.recordAccess = other.filters.recordAccess

end Key

/-! ## Calls of the facade -/

inductive Write where
  | remember (request : RememberRequest) (visit : Visit)
  | rememberBatch (domain : Nat) (requests : List RememberRequest) (opts : BatchOptions)
      (visit : Visit)
  | addRelation (fromEntity toEntity relationType : String) (weight : Option Float32Bits)
      (source : String) (visit : Visit)
  | forget (observationId : String)
  | forgetEntity (name : String)
  | forgetEntityById (entityId : String)
  | retireEntityObservations (name : String)
  | setObservationMemoryTier (observationId : String) (tier : MemoryTier)
  | consolidate (config : ConsolidateConfig)
  | pruneWithTtl (ttlSecs : Int64)
  | indexInsert (entry : IndexEntry)
  | indexDelete (uri : String)

/-- The method that a write calls, without its result. -/
def Write.program [NameHash] [CaseMapping] (stores : Nat) : Write → Facade Unit
  | .remember request visit => do let _ ← Partition.remember stores request visit
  | .rememberBatch domain requests opts visit => do
      let _ ← rememberBatchInDomainWithOptions stores domain requests opts visit
  | .addRelation fromEntity toEntity relationType weight source visit => do
      let _ ← Partition.addRelation stores fromEntity toEntity relationType weight source visit
  | .forget observationId => do let _ ← Partition.forget stores observationId
  | .forgetEntity name => do let _ ← Partition.forgetEntity stores name
  | .forgetEntityById entityId => do let _ ← Partition.forgetEntityById stores entityId
  | .retireEntityObservations name => do let _ ← Partition.retireEntityObservations stores name
  | .setObservationMemoryTier observationId tier => do
      let _ ← Partition.setObservationMemoryTier stores observationId tier
  | .consolidate config => do let _ ← Partition.consolidate stores config
  | .pruneWithTtl ttlSecs => do let _ ← Partition.pruneWithTtl stores ttlSecs
  | .indexInsert entry => Partition.indexInsert stores entry
  | .indexDelete uri => do let _ ← Partition.indexDelete stores uri

/-- The store may change while it answers this. -/
def Request.writes : Request → Bool
  | .getEntityById _ | .resolveEntity _ => false
  | _ => true

/-- The store answers that there was nothing to do. -/
def Request.denies : (request : Request) → MemoryResult request.Answer → Bool
  | .forget _, .ok false => true
  | .setObservationMemoryTier _ _, .ok false => true
  | .retireEntityObservations _, .ok 0 => true
  | _, _ => false

/-- Where a facade write stands. -/
inductive Writing where
  | idle
  /-- It runs. `dirty` tells whether it has changed a store since it last bumped
  the write version, `changed` whether the store it asks now has changed. -/
  | running (program : Calls Effect Effect.Answer (MemoryResult Unit)) (dirty changed : Bool)
  | returned (result : MemoryResult Unit) (time : Nat)

/-- What one domain answered to a recall, and when it began to look. -/
structure Arm where
  reply : MemoryResult (List (RecallResult Float32Bits))
  readAt : Nat

/-- One cached merge, with the question and the arms it was merged from. -/
structure RecallCacheEntry where
  version : Nat
  insertedAt : Nat
  results : List (RecallResult Float32Bits)
  question : Question
  arms : List Arm

inductive Recalling where
  | idle
  /-- It has loaded the write version. -/
  | loaded (question : Question) (version startedAt : Nat)
  /-- It has found no entry to serve, and asks the domains. -/
  | gathering (question : Question) (version startedAt : Nat) (arms : Nat → Option Arm)
  | computed (result : MemoryResult (List (RecallResult Float32Bits)))
  /-- It has served an entry of the cache. -/
  | cached (question : Question) (startedAt : Nat) (entry : RecallCacheEntry)

/-- A change that a domain store committed for a call. -/
structure Change where
  call : Nat
  domain : Nat
  time : Nat
  /-- The write version at the time. -/
  version : Nat

structure State where
  /-- The number of the next step. -/
  now : Nat
  /-- The clock that the time to live is measured by. -/
  clock : Nat
  writeVersion : Nat
  cache : Lru UInt64 RecallCacheEntry
  writes : Nat → Writing
  recalls : Nat → Recalling
  changes : List Change

def recallCacheCapacity : Nat := 50

def State.fresh : State where
  now := 0
  clock := 0
  writeVersion := 0
  cache := .empty recallCacheCapacity
  writes := fun _ => .idle
  recalls := fun _ => .idle
  changes := []

inductive Action where
  | write (call : Nat) (write : Write)
  /-- The store that the call asks commits a change. -/
  | change (call : Nat)
  | reply (call : Nat) (request : Request) (answer : MemoryResult request.Answer)
  | mirrorReply (call : Nat) (answer : MemoryResult (List RememberOutcome))
  | bump (call : Nat)
  | finishWrite (call : Nat)
  | startRecall (call : Nat) (question : Question)
  | lookup (call : Nat)
  | arm (call domain : Nat) (reply : MemoryResult (List (RecallResult Float32Bits)))
  | finishRecall (call : Nat)
  | tick

/-! ## Steps -/

namespace State

def setWrite (s : State) (call : Nat) (writing : Writing) : State :=
  { s with writes := Function.update s.writes call writing }

def setRecall (s : State) (call : Nat) (recalling : Recalling) : State :=
  { s with recalls := Function.update s.recalls call recalling }

/-- A change of a domain store for a call. -/
def log (s : State) (call domain : Nat) : State :=
  { s with changes := ⟨call, domain, s.now, s.writeVersion⟩ :: s.changes }

end State

/-- The answers of all domains in order of their scores, or the first error. -/
def merge (topK : UInt64) (arms : List Arm) : MemoryResult (List (RecallResult Float32Bits)) := do
  let answers ← arms.mapM Arm.reply
  let sorted := answers.flatten.mergeSort fun a b =>
    decide (b.score.totalOrder ≤ a.score.totalOrder)
  pure (sorted.take (max topK.toNat 1))

section Step

variable [NameHash] [CaseMapping]

/-- An entry may be served that was cached under the loaded version and has not
outlived its time. -/
def servable (ttl clock version : Nat) (entry : RecallCacheEntry) : Bool :=
  entry.version = version && clock - entry.insertedAt < ttl

def lookup (ttl : Nat) (s : State) (call : Nat) (question : Question) (version startedAt : Nat) :
    State :=
  let key := recallCacheKey question
  let gathering := Recalling.gathering question version startedAt fun _ => none
  match s.cache.get key with
  | (some entry, used) =>
    if servable ttl s.clock version entry then
      { s.setRecall call (.cached question startedAt entry) with cache := used }
    else { s.setRecall call gathering with cache := used.pop key }
  | (none, unused) => { s.setRecall call gathering with cache := unused }

def finishRecall (s : State) (call : Nat) (question : Question) (version : Nat)
    (arms : List Arm) : State :=
  match merge question.topK arms with
  | .error error => s.setRecall call (.computed (.error error))
  | .ok results =>
    { s.setRecall call (.computed (.ok results)) with
      cache := s.cache.put (recallCacheKey question)
        { version := version
          insertedAt := s.clock
          results := results
          question := question
          arms := arms } }

/-- What an action does, where it is possible. -/
def act (stores ttl : Nat) (s : State) : Action → Option State
  | .write call write =>
    match s.writes call with
    | .idle => some (s.setWrite call (.running (write.program stores).run false false))
    | _ => none
  | .change call =>
    match s.writes call with
    | .running (.ask (.store domain request) next) dirty _ =>
      if Request.writes request then
        some ((s.log call domain).setWrite call
          (.running (.ask (.store domain request) next) dirty true))
      else none
    | .running (.ask (.mirror domain batch opts) next) dirty _ =>
      some ((s.log call domain).setWrite call
        (.running (.ask (.mirror domain batch opts) next) dirty true))
    | _ => none
  | .reply call request answer =>
    match s.writes call with
    | .running (.ask (.store _ asked) next) dirty changed =>
      if same : request = asked then
        if changed && Request.denies request answer then none
        else some (s.setWrite call (.running (next (same ▸ answer)) (dirty || changed) false))
      else none
    | _ => none
  | .mirrorReply call answer =>
    match s.writes call with
    | .running (.ask (.mirror _ _ _) next) dirty changed =>
      some (s.setWrite call (.running (next answer) (dirty || changed) false))
    | _ => none
  | .bump call =>
    match s.writes call with
    | .running (.ask .bumpWriteVersion next) _ _ =>
      some { s.setWrite call (.running (next ()) false false) with
        writeVersion := s.writeVersion + 1 }
    | _ => none
  | .finishWrite call =>
    match s.writes call with
    | .running (.done result) _ _ => some (s.setWrite call (.returned result s.now))
    | _ => none
  | .startRecall call question =>
    match s.recalls call with
    | .idle => some (s.setRecall call (.loaded question s.writeVersion s.now))
    | _ => none
  | .lookup call =>
    match s.recalls call with
    | .loaded question version startedAt =>
      some (lookup ttl s call question version startedAt)
    | _ => none
  | .arm call domain reply =>
    match s.recalls call with
    | .gathering question version startedAt arms =>
      if domain < stores ∧ (arms domain).isNone then
        some (s.setRecall call (.gathering question version startedAt
          (Function.update arms domain (some ⟨reply, s.now⟩))))
      else none
    | _ => none
  | .finishRecall call =>
    match s.recalls call with
    | .gathering question version _ arms =>
      match (List.range stores).mapM arms with
      | some gathered => some (finishRecall s call question version gathered)
      | none => none
    | _ => none
  | .tick => some { s with clock := s.clock + 1 }

/-- One numbered step, where the action is possible. -/
def step (stores ttl : Nat) (s : State) (action : Action) : Option State :=
  (act stores ttl s action).map fun next => { next with now := s.now + 1 }

end Step

end OpenMemory.Engine.RecallCache
