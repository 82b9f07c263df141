import OpenMemory.Engine.Partition
import OpenMemory.Foundation.HashBytes
import OpenMemory.Foundation.Lru
import OpenMemory.Foundation.Runs
import OpenMemory.Index.Ranking

/-!
# The query cache of the hybrid engine

A hybrid engine owns a vector store and a full-text store. The cached engine looks a
search up under a key that is hashed from its arguments, and otherwise asks the
stores and caches what they make together. A write asks both stores, and clears the
cache in a step of its own if neither has failed.

Any number of calls interleave. A store is a black box: it answers as it likes, and
may change when it is asked to write, also when it then fails. The fusion of two
ranked lists is a black box as well, since its ties are broken by the order of a hash
map. The cache is never poisoned. Steps are numbered, and a log keeps what was changed
when; the numbers, the log and the question of a cached answer are an observer's and
no step depends on them.
-/

namespace OpenMemory.Index.SearchCache

open Foundation OpenMemory.Graph OpenMemory.Engine.Partition

/-! ## Calls of the hybrid engine -/

/-- What an engine asks of its stores, of the fusion and of its cache. -/
inductive Request where
  | vectorInsert (entries : List IndexEntry)
  | vectorDelete (uri : String)
  | vectorSearch (queryVector : List Float32Bits) (topK : UInt64)
  | keywordInsert (entries : List IndexEntry)
  | keywordDelete (uri : String)
  | keywordSearch (queryText : String) (topK : UInt64)
  | rrfFuse (vector keyword : List SearchResult) (topK : UInt64)
  | clearCache
  deriving DecidableEq

abbrev Request.Answer : Request → Type
  | .vectorInsert _ | .keywordInsert _ => IndexResult Unit
  | .vectorDelete _ | .keywordDelete _ => IndexResult UInt64
  | .vectorSearch _ _ | .keywordSearch _ _ => IndexResult (List SearchResult)
  | .rrfFuse _ _ _ => List SearchResult
  | .clearCache => Unit

abbrev Engine (α : Type) := Calls.Fallible Request Request.Answer IndexError α

/-- A search, as a caller asks it. -/
structure Question where
  queryVector : List Float32Bits
  queryText : String
  topK : UInt64
  mode : SearchMode
  filtersHash : UInt64
  deriving DecidableEq

namespace HybridSearchEngine

def insert (entries : List IndexEntry) : Engine Unit := do
  let vectorEntries := entries.filter fun entry => !entry.vector.isEmpty
  if !vectorEntries.isEmpty then
    ExceptT.mk (Calls.request (Request.vectorInsert vectorEntries))
  ExceptT.mk (Calls.request (Request.keywordInsert entries))

def vectorSearch (queryVector : List Float32Bits) (topK : UInt64) : Engine (List SearchResult) :=
  ExceptT.mk (Calls.request (Request.vectorSearch queryVector topK))

def keywordSearch (queryText : String) (topK : UInt64) : Engine (List SearchResult) :=
  ExceptT.mk (Calls.request (Request.keywordSearch queryText topK))

def search (queryVector : List Float32Bits) (queryText : String) (topK : UInt64)
    (mode : SearchMode) : Engine (List SearchResult) :=
  match mode with
  | .vectorOnly => if queryVector.isEmpty then pure [] else vectorSearch queryVector topK
  | .keywordOnly => keywordSearch queryText topK
  | .hybrid =>
    if queryVector.isEmpty then keywordSearch queryText topK
    else do
      let fetch := UInt64.ofNat (max (min (topK.toNat * 3) (2 ^ 64 - 1)) topK.toNat)
      let v ← vectorSearch queryVector fetch
      let k ← keywordSearch queryText fetch
      ExceptT.mk (Calls.request (Request.rrfFuse v k topK) >>= fun fused => pure (.ok fused))

def deleteByUri (uri : String) : Engine UInt64 := do
  let vectorCount ← ExceptT.mk (Calls.request (Request.vectorDelete uri))
  let keywordCount ← ExceptT.mk (Calls.request (Request.keywordDelete uri))
  return max vectorCount keywordCount

end HybridSearchEngine

/-! ## Calls of the cached engine -/

/-- A call of the cached engine that clears its cache. -/
inductive Write where
  | insert (entries : List IndexEntry)
  | deleteByUri (uri : String)
  | invalidate

namespace CachedSearchEngine

def invalidate : Engine Unit :=
  ExceptT.mk (Calls.request Request.clearCache >>= fun cleared => pure (.ok cleared))

def insert (entries : List IndexEntry) : Engine Unit := do
  HybridSearchEngine.insert entries
  invalidate

def deleteByUri (uri : String) : Engine UInt64 := do
  let n ← HybridSearchEngine.deleteByUri uri
  invalidate
  return n

end CachedSearchEngine

/-- The method that a write calls, without its result. -/
def Write.program : Write → Engine Unit
  | .insert entries => CachedSearchEngine.insert entries
  | .deleteByUri uri => do let _ ← CachedSearchEngine.deleteByUri uri
  | .invalidate => CachedSearchEngine.invalidate

/-! ## The cache -/

def modeTag : SearchMode → UInt8
  | .hybrid => 0
  | .vectorOnly => 1
  | .keywordOnly => 2

/-- The bytes that `cache_key` hashes. -/
def keyBytes (question : Question) : Bytes :=
  hashStr question.queryText ++ (leBytes 8 question.topK.toNat ++
    (modeTag question.mode :: leBytes 8 question.filtersHash.toNat))

def cacheKey [NameHash] (question : Question) : UInt64 := NameHash.finish (keyBytes question)

/-- What the stores made together for a question, and when they were read. -/
structure Found where
  question : Question
  results : List SearchResult
  reads : List Nat

structure CacheEntry where
  found : Found
  insertedAtMs : Int64

/-- `saturating_sub` of two times. -/
def saturatingSub (later earlier : Int64) : Int :=
  max (-(2 ^ 63)) (min (later.toInt - earlier.toInt) (2 ^ 63 - 1))

/-- The entry has not outlived its time. -/
def CacheEntry.live (entry : CacheEntry) (ttlMs now : Int64) : Bool :=
  saturatingSub now entry.insertedAtMs < ttlMs.toInt

/-! ## The engine at work -/

inductive Call where
  | idle
  | writing (program : Calls Request Request.Answer (IndexResult Unit))
  | written (result : IndexResult Unit) (time : Nat)
  /-- It has read the clock. -/
  | looking (question : Question) (startedAt : Nat) (now : Int64)
  | computing (question : Question) (startedAt : Nat) (reads : List Nat)
      (program : Calls Request Request.Answer (IndexResult (List SearchResult)))
  | failed (error : IndexError)
  /-- It returns what the stores made together for it, or what was cached. -/
  | returned (question : Question) (startedAt : Nat) (found : Found)

/-- A store changed for a call. -/
structure Change where
  call : Nat
  time : Nat

structure State where
  /-- The number of the next step. -/
  now : Nat
  cache : Lru UInt64 CacheEntry
  calls : Nat → Call
  changes : List Change
  /-- Everything that the hybrid engine has returned. -/
  computed : List Found

namespace State

/-- A capacity of zero is raised to one. -/
def fresh (capacity : Nat) : State where
  now := 0
  cache := .empty (max capacity 1)
  calls := fun _ => .idle
  changes := []
  computed := []

def setCall (s : State) (call : Nat) (phase : Call) : State :=
  { s with calls := Function.update s.calls call phase }

end State

/-- A request that may change a store. -/
def Request.writes : Request → Bool
  | .vectorInsert _ | .vectorDelete _ | .keywordInsert _ | .keywordDelete _ => true
  | _ => false

def Request.reads : Request → Bool
  | .vectorSearch _ _ | .keywordSearch _ _ => true
  | _ => false

inductive Action where
  | write (call : Nat) (write : Write)
  | search (call : Nat) (question : Question) (now : Int64)
  | lookup (call : Nat)
  /-- What the call asks is answered, and the store may have changed. -/
  | answer (call : Nat) (request : Request) (answer : request.Answer) (changed : Bool)
  | clear (call : Nat)
  | put (call : Nat) (now : Int64)
  | finish (call : Nat)

section Step

variable [NameHash]

/-- The first lock of `search`. -/
def lookup (ttlMs : Int64) (s : State) (call : Nat) (question : Question) (startedAt : Nat)
    (now : Int64) : State :=
  let key := cacheKey question
  let computing := Call.computing question startedAt []
    (HybridSearchEngine.search question.queryVector question.queryText question.topK
      question.mode).run
  match s.cache.get key with
  | (some entry, used) =>
    if entry.live ttlMs now then
      { s.setCall call (.returned question startedAt entry.found) with cache := used }
    else { s.setCall call computing with cache := used.pop key }
  | (none, unused) => { s.setCall call computing with cache := unused.pop key }

/-- What an action does, where it is possible. -/
def act (ttlMs : Int64) (s : State) : Action → Option State
  | .write call write =>
    match s.calls call with
    | .idle => some (s.setCall call (.writing write.program.run))
    | _ => none
  | .search call question now =>
    match s.calls call with
    | .idle => some (s.setCall call (.looking question s.now now))
    | _ => none
  | .lookup call =>
    match s.calls call with
    | .looking question startedAt now => some (lookup ttlMs s call question startedAt now)
    | _ => none
  | .answer call request answer changed =>
    match s.calls call with
    | .writing (.ask asked next) =>
      if same : request = asked then
        if request.writes then
          some { s.setCall call (.writing (next (same ▸ answer))) with
            changes := if changed then ⟨call, s.now⟩ :: s.changes else s.changes }
        else none
      else none
    | .computing question startedAt reads (.ask asked next) =>
      if same : request = asked then
        some (s.setCall call (.computing question startedAt
          (if request.reads then reads ++ [s.now] else reads) (next (same ▸ answer))))
      else none
    | _ => none
  | .clear call =>
    match s.calls call with
    | .writing (.ask .clearCache next) =>
      some { s.setCall call (.writing (next ())) with cache := .empty s.cache.capacity }
    | _ => none
  | .put call now =>
    match s.calls call with
    | .computing question startedAt reads (.done (.ok results)) =>
      let found := ⟨question, results, reads⟩
      some { s.setCall call (.returned question startedAt found) with
        cache := s.cache.put (cacheKey question) ⟨found, now⟩
        computed := found :: s.computed }
    | _ => none
  | .finish call =>
    match s.calls call with
    | .writing (.done result) => some (s.setCall call (.written result s.now))
    | .computing _ _ _ (.done (.error error)) => some (s.setCall call (.failed error))
    | _ => none

/-- One numbered step, where the action is possible. -/
def step (ttlMs : Int64) (s : State) (action : Action) : Option State :=
  (act ttlMs s action).map fun next => { next with now := s.now + 1 }

end Step

end OpenMemory.Index.SearchCache
