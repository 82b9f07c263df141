import OpenMemory.Engine.Partition
import OpenMemory.Graph.Resolution

/-!
# The facade over its stores

A facade method is a program that calls stores. Here the stores are databases, and a method
runs on them: every request is answered by the store that it goes to, and changes it. The ids
that are drawn, the time, and the failures of the storage come from outside, one after the
other. A request that fails leaves its store as it was.
-/

namespace OpenMemory.Engine.Partition

open Foundation OpenMemory.Graph
open Merge (Blake3)

/-- What a request draws from outside. -/
structure Supply where
  draws : Draws
  /-- A consolidation reads the clock again before it prunes. -/
  sweep : Draws
  /-- The key of a maintenance change set. -/
  key : ChangeSetId
  /-- How many entries the index had under a URI. -/
  indexed : Nat

/-- What the requests of a call meet with, in the order in which they are made. -/
structure Surroundings where
  supply : Nat → Supply
  failure : Nat → Option MemoryError

/-- The stores of the domains, and how many requests they were asked. -/
structure Domains where
  stores : Nat → Database
  asked : Nat

section Execution

variable [Blake3] [PayloadCodec] [EntityMatching] [ScoreArithmetic] [CaseMapping]

def Request.execute (db : Database) (supply : Supply) :
    (request : Request) → MemoryResult (Database × request.Answer)
  | .getEntityById id => .ok (db, db.getEntityById id)
  | .resolveEntity name => .ok (db, db.resolveEntity name)
  | .rememberBatch requests opts => do
      let (db, remembered) ← db.rememberBatch supply.draws requests opts
      return (db, remembered.groups.map fun group => group.2.outcome)
  | .addRelation fromEntity toEntity relationType weight source => do
      let db ← db.addRelation supply.draws fromEntity toEntity relationType weight source
      return (db, supply.draws.relation 0 0)
  | .forget observationId => db.retireObservation supply.draws observationId
  | .forgetEntity name => db.forgetEntity name
  | .forgetEntityById entityId => db.forgetCounting entityId
  | .retireEntityObservations name =>
    db.retireEntityObservations supply.draws supply.key name
  | .setObservationMemoryTier observationId tier =>
    db.setObservationMemoryTier supply.draws observationId tier
  | .consolidate config =>
    db.consolidate supply.draws.now supply.draws supply.key supply.sweep config
  | .pruneWithTtl ttlSecs =>
    let pruned := db.pruneWithTtl supply.draws ttlSecs
    let stale := db.observations.entries.filter fun entry =>
      Database.stale (supply.draws.now - max 0 ttlSecs) entry.2
    .ok (pruned,
      { tombstonesRemoved := stale.length
        entitiesRemoved := db.entities.entries.length - pruned.entities.entries.length })
  | .indexInsert _ => .ok (db, ())
  | .indexDelete _ => .ok (db, supply.indexed)

/-- The answer of a store and the store afterwards. -/
def Request.answer (db : Database) (supply : Supply) (failure : Option MemoryError)
    (request : Request) : MemoryResult request.Answer × Database :=
  match failure with
  | some error => (.error error, db)
  | none =>
    match request.execute db supply with
    | .ok (later, answer) => (.ok answer, later)
    | .error error => (.error error, db)

namespace Domains

def ask (surroundings : Surroundings) (domains : Domains) (domain : Nat) (request : Request) :
    MemoryResult request.Answer × Domains :=
  let (answer, db) := request.answer (domains.stores domain) (surroundings.supply domains.asked)
    (surroundings.failure domains.asked)
  (answer, ⟨Function.update domains.stores domain db, domains.asked + 1⟩)

def serve (surroundings : Surroundings) (domains : Domains) :
    (effect : Effect) → Effect.Answer effect × Domains
  | .store domain request => domains.ask surroundings domain request
  | .mirror domain batch opts => domains.ask surroundings domain (.rememberBatch batch opts)
  | .bumpWriteVersion => ((), domains)

/-- Run a facade method on the stores. -/
def run {α : Type} (surroundings : Surroundings) (domains : Domains) (method : Facade α) :
    MemoryResult α × Domains :=
  Calls.served (serve surroundings) domains method.run

variable {surroundings : Surroundings} {domains last : Domains} {domain : Nat}
  {request : Request} {α β : Type}

/-- The domains after a request that succeeds. -/
def answered (domains : Domains) (domain : Nat) (db : Database) : Domains :=
  ⟨Function.update domains.stores domain db, domains.asked + 1⟩

theorem ask_eq_ok {answer : request.Answer}
    (succeeds : domains.ask surroundings domain request = (.ok answer, last)) :
    ∃ db, request.execute (domains.stores domain) (surroundings.supply domains.asked) =
      .ok (db, answer) ∧ last = domains.answered domain db := by
  unfold ask Request.answer at succeeds
  cases failed : surroundings.failure domains.asked with
  | some error =>
    rw [failed] at succeeds
    cases succeeds
  | none =>
    rw [failed] at succeeds
    cases outcome : request.execute (domains.stores domain) (surroundings.supply domains.asked) with
    | error error =>
      rw [outcome] at succeeds
      cases succeeds
    | ok pair =>
      rw [outcome] at succeeds
      cases succeeds
      exact ⟨pair.1, rfl, rfl⟩

theorem ask_of_ok {db : Database} {answer : request.Answer}
    (spared : surroundings.failure domains.asked = none)
    (executes : request.execute (domains.stores domain) (surroundings.supply domains.asked) =
      .ok (db, answer)) :
    domains.ask surroundings domain request = (.ok answer, domains.answered domain db) := by
  unfold ask Request.answer
  rw [spared, executes]
  rfl

/-- A method that begins with a call and succeeds. -/
theorem run_call_bind_eq_ok {then_ : request.Answer → Facade β} {result : β}
    (succeeds : domains.run surroundings (call domain request >>= then_) = (.ok result, last)) :
    ∃ db answer, request.execute (domains.stores domain) (surroundings.supply domains.asked) =
      .ok (db, answer) ∧
        (domains.answered domain db).run surroundings (then_ answer) = (.ok result, last) := by
  obtain ⟨answer, middle, first, rest⟩ := Calls.served_run_bind_eq_ok succeeds
  obtain ⟨db, executes, rfl⟩ :
      ∃ db, request.execute (domains.stores domain) (surroundings.supply domains.asked) =
        .ok (db, answer) ∧ middle = domains.answered domain db := ask_eq_ok first
  exact ⟨db, answer, executes, rest⟩

theorem run_call_bind_of_ok (request : Request) {then_ : request.Answer → Facade β} {db : Database}
    {answer : request.Answer} (spared : surroundings.failure domains.asked = none)
    (executes : request.execute (domains.stores domain) (surroundings.supply domains.asked) =
      .ok (db, answer)) :
    domains.run surroundings (call domain request >>= then_) =
      (domains.answered domain db).run surroundings (then_ answer) :=
  Calls.served_run_bind_of_ok (ask_of_ok spared executes)

theorem run_bind_eq_ok {first : Facade α} {then_ : α → Facade β} {result : β}
    (succeeds : domains.run surroundings (first >>= then_) = (.ok result, last)) :
    ∃ value middle, domains.run surroundings first = (.ok value, middle) ∧
      middle.run surroundings (then_ value) = (.ok result, last) :=
  Calls.served_run_bind_eq_ok succeeds

theorem run_bind_of_ok {first : Facade α} {then_ : α → Facade β} {value : α} {middle : Domains}
    (succeeds : domains.run surroundings first = (.ok value, middle)) :
    domains.run surroundings (first >>= then_) = middle.run surroundings (then_ value) :=
  Calls.served_run_bind_of_ok succeeds

theorem run_bump_bind {then_ : Unit → Facade β} :
    domains.run surroundings (bumpWriteVersion >>= then_) = domains.run surroundings (then_ ()) :=
  Calls.served_run_bind_of_ok rfl

omit [Blake3] [PayloadCodec] [EntityMatching] [ScoreArithmetic] [CaseMapping] in
/-- A request that only reads leaves all stores. -/
theorem answered_stores :
    (domains.answered domain (domains.stores domain)).stores = domains.stores :=
  Function.update_eq_self domain domains.stores

end Domains

end Execution

end OpenMemory.Engine.Partition
