import OpenMemory.Foundation.Calls
import OpenMemory.Graph.Requests

/-!
# The routing facade over the domain stores

Entities hash by their lower-cased name onto domains, each with a store of its
own. A relation between entities of different domains is written twice: the home
domain of its source holds the edge to a stub of the target, and the domain of
the target holds a mirror edge from a stub of the source.

The stores are called here, not modelled: a facade method is a program that
asks requests of domain stores and bumps the write version. What a store does
to answer is up to whoever runs the program.
-/

namespace OpenMemory.Engine.Partition

open Foundation OpenMemory.Graph

/-! ## Routing -/

/-- The hash and the case mapping of single characters of the standard library. -/
class NameHash where
  /-- The digest of the bytes that a `DefaultHasher` was given. -/
  finish : Bytes → UInt64
  charToLowercase : Char → List Char

section Routing

variable [NameHash]

/-- The bytes hashed for a key: every character in lower case, and `0xff`. -/
def lowercaseKeyBytes (key : String) : Bytes :=
  utf8 (String.ofList (key.toList.flatMap NameHash.charToLowercase)) ++ [0xFF]

def hashLowercaseKey (key : String) : UInt64 := NameHash.finish (lowercaseKeyBytes key)

/-- The domain of an entity name or a URI. -/
def domainFor (key : String) (domains : Nat) : Nat :=
  (hashLowercaseKey key).toNat % max domains 1

theorem domainFor_lt (key : String) {domains : Nat} (some_ : 0 < domains) :
    domainFor key domains < domains := by
  have positive : max domains 1 = domains := max_eq_left some_
  rw [domainFor, positive]
  exact Nat.mod_lt _ some_

end Routing

/-! ## The plan of a batch -/

/-- Append to the batch of a domain, which begins with its first element. -/
def pushMirror : List (Nat × List RememberRequest) → Nat → RememberRequest →
    List (Nat × List RememberRequest)
  | [], domain, request => [(domain, [request])]
  | (held, batch) :: rest, domain, request =>
    if held = domain then (held, batch ++ [request]) :: rest
    else (held, batch) :: pushMirror rest domain request

structure Plan where
  homeRequests : List RememberRequest
  /-- Marked rows for the remote targets. -/
  stubRequests : List RememberRequest
  /-- The mirror batch of every target domain. -/
  mirrors : List (Nat × List RememberRequest)

/-- What the two loops over the requests and their relations keep. -/
structure Planning where
  stubRequests : List RememberRequest
  seenStubs : List (String × EntityType)
  mirrors : List (Nat × List RememberRequest)

def stubRequest (rel : RelationInput) : RememberRequest :=
  { RememberRequest.new rel.targetName rel.targetType with source := partitionStubSource }

/-- A stub of the source with the mirrored relation, which falls back to the
source of its request. -/
def mirrorRequest (req : RememberRequest) (rel : RelationInput) : RememberRequest :=
  let mirrorRel := if rel.source.isEmpty then { rel with source := req.source } else rel
  { RememberRequest.new req.name req.entityType with
    relations := [mirrorRel]
    source := partitionStubSource }

section Plan

variable [NameHash] [CaseMapping]

def Planning.relation (domains home : Nat) (req : RememberRequest) (state : Planning)
    (rel : RelationInput) : Planning :=
  let target := domainFor rel.targetName domains
  if target = home then state
  else
    let key := (CaseMapping.toLowercase rel.targetName, rel.targetType)
    let mirrors := pushMirror state.mirrors target (mirrorRequest req rel)
    if key ∈ state.seenStubs then { state with mirrors := mirrors }
    else
      { stubRequests := state.stubRequests ++ [stubRequest rel]
        seenStubs := key :: state.seenStubs
        mirrors := mirrors }

def planBatch (domains home : Nat) (requests : List RememberRequest) : Plan :=
  if domains = 1 then ⟨requests, [], []⟩
  else
    let planning := requests.foldl
      (fun state req => req.relations.foldl (Planning.relation domains home req) state)
      ⟨[], [], []⟩
    ⟨requests, planning.stubRequests, planning.mirrors⟩

end Plan

/-- The order in which a hash map gives out its entries. -/
structure Visit where
  order : List (Nat × List RememberRequest) → List (Nat × List RememberRequest)
  perm : ∀ entries, (order entries).Perm entries

/-! ## Programs over the stores -/

/-- A method of one store, with its arguments. -/
inductive Request where
  | getEntityById (id : String)
  | resolveEntity (name : String)
  | rememberBatch (requests : List RememberRequest) (opts : BatchOptions)
  | addRelation (fromEntity toEntity relationType : String) (weight : Option Float32Bits)
      (source : String)
  | forget (observationId : String)
  | forgetEntity (name : String)
  | forgetEntityById (entityId : String)
  | retireEntityObservations (name : String)
  | setObservationMemoryTier (observationId : String) (tier : MemoryTier)
  | consolidate (config : ConsolidateConfig)
  | pruneWithTtl (ttlSecs : Int64)
  | indexInsert (entry : IndexEntry)
  | indexDelete (uri : String)
  deriving DecidableEq

/-- What the method returns. -/
abbrev Request.Answer : Request → Type
  | .getEntityById _ => Option Entity
  | .resolveEntity _ => EntityResolution
  | .rememberBatch _ _ => List RememberOutcome
  | .addRelation _ _ _ _ _ => String
  | .forget _ => Bool
  | .forgetEntity _ => Nat
  | .forgetEntityById _ => Nat
  | .retireEntityObservations _ => Nat
  | .setObservationMemoryTier _ _ => Bool
  | .consolidate _ => ConsolidateReport
  | .pruneWithTtl _ => PruneReport
  | .indexInsert _ => Unit
  | .indexDelete _ => Nat

/-- What a facade method asks of its surroundings. -/
inductive Effect where
  | store (domain : Nat) (request : Request)
  /-- A batch of mirrors, a failure of which is only logged. -/
  | mirror (domain : Nat) (batch : List RememberRequest) (opts : BatchOptions)
  | bumpWriteVersion

abbrev Effect.Answer : Effect → Type
  | .store _ request => MemoryResult request.Answer
  | .mirror _ _ _ => MemoryResult (List RememberOutcome)
  | .bumpWriteVersion => Unit

/-- A facade method: it stops with the first error that it does not handle. -/
abbrev Facade := Calls.Fallible Effect Effect.Answer MemoryError

/-- Call a store; an error is the caller's too. -/
def call (domain : Nat) (request : Request) : Facade request.Answer :=
  ExceptT.mk (Calls.request (Effect.store domain request))

/-- Send a batch of mirrors and keep the error. -/
def mirror (domain : Nat) (batch : List RememberRequest) (opts : BatchOptions) :
    Facade (MemoryResult (List RememberOutcome)) :=
  ExceptT.lift (Calls.request (Effect.mirror domain batch opts))

def bumpWriteVersion : Facade Unit := ExceptT.lift (Calls.request Effect.bumpWriteVersion)

/-! ## Reads by id -/

def findEntityByIdIn (id : String) : List Nat → Facade (Option (Nat × Entity))
  | [] => pure none
  | domain :: rest => do
      match ← call domain (.getEntityById id) with
      | some entity => pure (some (domain, entity))
      | none => findEntityByIdIn id rest

def findEntityById (stores : Nat) (id : String) : Facade (Option (Nat × Entity)) :=
  findEntityByIdIn id (List.range stores)

/-! ## Writes -/

def mirrorOptions : BatchOptions where
  normalize := false
  checkpoint := none

/-- The mirror batches; a failure is only logged. -/
def commitMirrors : List (Nat × List RememberRequest) → Facade Unit
  | [] => pure ()
  | (target, batch) :: rest => do
      let _ ← mirror target batch mirrorOptions
      commitMirrors rest

section Writes

variable [NameHash] [CaseMapping]

def rememberBatchInDomainWithOptions (stores domain : Nat) (requests : List RememberRequest)
    (opts : BatchOptions) (visit : Visit) : Facade (List RememberOutcome) := do
  if stores = 1 then
    let outcomes ← call domain (.rememberBatch requests opts)
    bumpWriteVersion
    pure outcomes
  else
    let plan := planBatch stores domain requests
    commitMirrors (visit.order plan.mirrors)
    -- the stubs come first, so that every edge finds its target by exact match
    let outcomes ← call domain (.rememberBatch (plan.stubRequests ++ plan.homeRequests) opts)
    bumpWriteVersion
    pure (outcomes.drop plan.stubRequests.length)

def rememberBatchInDomain (stores domain : Nat) (requests : List RememberRequest)
    (visit : Visit) : Facade (List RememberOutcome) :=
  rememberBatchInDomainWithOptions stores domain requests .standard visit

/-- The result of the only request of a batch; a store answers with one outcome
for each, so the source expects it. -/
def remember (stores : Nat) (request : RememberRequest) (visit : Visit) :
    Facade RememberOutcome := do
  let outcomes ← rememberBatchInDomain stores (domainFor request.name stores) [request] visit
  match outcomes.getLast? with
  | some outcome => pure outcome
  | none => throw (.invalidInput "one outcome per request")

def addRelation (stores : Nat) (fromEntityId toEntityId relationType : String)
    (weight : Option Float32Bits) (source : String) (visit : Visit) : Facade String := do
  if stores = 1 then
    let id ← call 0 (.addRelation fromEntityId toEntityId relationType weight source)
    bumpWriteVersion
    pure id
  else
    match ← findEntityById stores fromEntityId with
    | none => throw (.entityNotFound fromEntityId)
    | some (fromDomain, origin) =>
      match ← findEntityById stores toEntityId with
      | none => throw (.entityNotFound toEntityId)
      | some (toDomain, target) =>
        if fromDomain = toDomain then
          let id ← call fromDomain (.addRelation fromEntityId toEntityId relationType weight source)
          bumpWriteVersion
          pure id
        else
          let rel := { RelationInput.new relationType target.name target.entityType with
            weight := weight.getD .one
            source := source }
          let request := { RememberRequest.new origin.name origin.entityType with
            relations := [rel]
            source := source }
          let outcomes ← rememberBatchInDomain stores fromDomain [request] visit
          match outcomes.head?.bind fun outcome => outcome.relationIds.head? with
          | some id => pure id
          | none => throw (.invalidInput "relation was not created")

end Writes

/-! ## Destructive writes -/

def forgetIn (observationId : String) : List Nat → Facade Bool
  | [] => pure false
  | domain :: rest => do
      if ← call domain (.forget observationId) then
        bumpWriteVersion
        pure true
      else forgetIn observationId rest

def forget (stores : Nat) (observationId : String) : Facade Bool :=
  forgetIn observationId (List.range stores)

/-- Remove those of the candidates that are stubs. -/
def sweepCandidates (domain : Nat) : List Entity → Facade Unit
  | [] => pure ()
  | candidate :: rest => do
      if candidate.source = partitionStubSource then
        let _ ← call domain (.forgetEntityById candidate.id)
        sweepCandidates domain rest
      else sweepCandidates domain rest

/-- Remove the stubs of a name outside its home domain. -/
def sweepStubs (home : Nat) (name : String) : List Nat → Facade Unit
  | [] => pure ()
  | domain :: rest => do
      if domain = home then sweepStubs home name rest
      else
        let resolution ← call domain (.resolveEntity name)
        sweepCandidates domain resolution.candidates
        sweepStubs home name rest

def forgetEntity [NameHash] (stores : Nat) (name : String) : Facade Nat := do
  let home := domainFor name stores
  let cascaded ← call home (.forgetEntity name)
  sweepStubs home name (List.range stores)
  bumpWriteVersion
  pure cascaded

def forgetEntityById (stores : Nat) (entityId : String) : Facade Nat := do
  match ← findEntityById stores entityId with
  | none => throw (.entityNotFound entityId)
  | some (home, entity) =>
    let cascaded ← call home (.forgetEntityById entityId)
    sweepStubs home entity.name (List.range stores)
    bumpWriteVersion
    pure cascaded

def retireEntityObservations [NameHash] (stores : Nat) (name : String) : Facade Nat := do
  let retired ← call (domainFor name stores) (.retireEntityObservations name)
  if retired ≠ 0 then
    bumpWriteVersion
    pure retired
  else pure retired

def setObservationMemoryTierIn (observationId : String) (tier : MemoryTier) :
    List Nat → Facade Bool
  | [] => pure false
  | domain :: rest => do
      if ← call domain (.setObservationMemoryTier observationId tier) then
        bumpWriteVersion
        pure true
      else setObservationMemoryTierIn observationId tier rest

def setObservationMemoryTier (stores : Nat) (observationId : String) (tier : MemoryTier) :
    Facade Bool :=
  setObservationMemoryTierIn observationId tier (List.range stores)

/-! ## Maintenance -/

def consolidateIn (config : ConsolidateConfig) (total : ConsolidateReport) :
    List Nat → Facade ConsolidateReport
  | [] => pure total
  | domain :: rest => do
      let report ← call domain (.consolidate config)
      consolidateIn config
        { duplicatesMerged := total.duplicatesMerged + report.duplicatesMerged
          observationsPruned := total.observationsPruned + report.observationsPruned
          entitiesPruned := total.entitiesPruned + report.entitiesPruned } rest

def consolidate (stores : Nat) (config : ConsolidateConfig) : Facade ConsolidateReport := do
  let total ← consolidateIn config ⟨0, 0, 0⟩ (List.range stores)
  bumpWriteVersion
  pure total

def pruneIn (ttlSecs : Int64) (total : PruneReport) : List Nat → Facade PruneReport
  | [] => pure total
  | domain :: rest => do
      let report ← call domain (.pruneWithTtl ttlSecs)
      pruneIn ttlSecs
        { tombstonesRemoved := total.tombstonesRemoved + report.tombstonesRemoved
          entitiesRemoved := total.entitiesRemoved + report.entitiesRemoved } rest

def pruneWithTtl (stores : Nat) (ttlSecs : Int64) : Facade PruneReport := do
  let total ← pruneIn ttlSecs ⟨0, 0⟩ (List.range stores)
  bumpWriteVersion
  pure total

/-! ## The free-text index -/

def indexInsert [NameHash] (stores : Nat) (entry : IndexEntry) : Facade Unit := do
  call (domainFor entry.uri stores) (.indexInsert entry)
  bumpWriteVersion

def indexDelete [NameHash] (stores : Nat) (uri : String) : Facade Nat := do
  let removed ← call (domainFor uri stores) (.indexDelete uri)
  bumpWriteVersion
  pure removed

end OpenMemory.Engine.Partition
