import OpenMemory.Daemon.Catalog
import OpenMemory.Foundation.Runs

/-!
# The registry of space runtimes

The registry keeps the runtimes of the open spaces within budgets, counts the
leases on each, and evicts idle runtimes to make room. Maintenance closes a space
that has no leases and takes an exclusive lock on it.

The state is what the mutex guards, and what callers hold: leases, clones of
stores that they took out of leases, and exclusive leases. The destructor of a
lease has two parts, the count under the mutex and then the reference to the
runtime, so a runtime may outlive its last lease for a while. Answers of the
catalog, the file system and the databases come with the calls. The uses of spaces
are logged, latest first; the log is an observer's and no step depends on it.
-/

namespace OpenMemory.Daemon

open Foundation

/-! ## Limits and errors -/

inductive RegistryError where
  | invalidLimits
  | product (message : String)
  | manifest (message : String)
  | store (error : Graph.MemoryError)
  | inactive
  | closing
  | capacity
  | leased
  | busy
  | unsafeLock
  | lockIo (message : String)

/-- The configured upper bounds. -/
structure RegistryLimits where
  maxOpenSpaces : Nat
  maxOpenDomains : Nat
  maxGraphConnections : Nat
  maxIndexHandles : Nat
  maxContextEngines : Nat
  maxFlusherThreads : Nat

namespace RegistryLimits

/-- `RegistryLimits::default`. -/
def default : RegistryLimits := ⟨8, 64, 192, 64, 2, 4⟩

def validate (limits : RegistryLimits) : Except RegistryError RegistryLimits :=
  if limits.maxOpenSpaces = 0 ∨ 64 < limits.maxOpenSpaces ∨
      limits.maxOpenDomains = 0 ∨ 512 < limits.maxOpenDomains ∨
      limits.maxGraphConnections = 0 ∨ 1024 < limits.maxGraphConnections ∨
      limits.maxIndexHandles = 0 ∨ 512 < limits.maxIndexHandles ∨
      8 < limits.maxContextEngines ∨ 16 < limits.maxFlusherThreads then
    .error .invalidLimits
  else .ok limits

end RegistryLimits

/-- `usize::MAX` and `u64::MAX`. -/
def usizeMax : Nat := 2 ^ 64 - 1

/-! ## Runtimes -/

/-- A store, with the number of the opening that made it. -/
structure DomainStore where
  space : SpaceId
  opening : Nat
  deriving DecidableEq

/-- An open space; it holds the shared lock of the space as long as it lives. -/
structure SpaceRuntime where
  catalog : CatalogSpace
  store : DomainStore
  graphConnections : Nat
  indexHandles : Nat
  deriving DecidableEq

/-- What opening a runtime asks of the file system and the databases, in order. -/
structure RuntimeOpening where
  root : Except RegistryError Unit
  manifest : Except RegistryError Unit
  filesystem : Except RegistryError Unit
  lock : Except RegistryError Unit
  store : Except RegistryError Unit
  /-- The opened store has the identity and the domains of its catalog row. -/
  matching : Bool
  status : Except RegistryError Unit

def RuntimeOpening.run (opening : RuntimeOpening) : Except RegistryError Unit := do
  opening.root
  opening.manifest
  opening.filesystem
  opening.lock
  opening.store
  refuseIf (opening.matching = false)
    (.store (.invalidInput "opened store does not match its catalog identity"))
  opening.status

/-! ## The state -/

structure RegistryInner where
  runtimes : Table SpaceId SpaceRuntime
  leases : Table SpaceId Nat
  lastUsed : Table SpaceId Nat
  openDomains : Nat
  graphConnections : Nat
  indexHandles : Nat
  contextEngines : Nat
  flusherThreads : Nat
  tick : Nat
  closing : Finset SpaceId

namespace RegistryInner

def leasesOf (inner : RegistryInner) (id : SpaceId) : Nat := (inner.leases.get? id).getD 0

/-- The parts of `increment_lease` and of the destructor that note a use. -/
def touch (inner : RegistryInner) (id : SpaceId) : RegistryInner :=
  let tick := min (inner.tick + 1) usizeMax
  { inner with tick, lastUsed := inner.lastUsed.put id tick }

def incrementLease (inner : RegistryInner) (id : SpaceId) : RegistryInner :=
  { inner with leases := inner.leases.put id (inner.leasesOf id + 1) }.touch id

def releaseResources (inner : RegistryInner) (runtime : SpaceRuntime) : RegistryInner :=
  { inner with
    openDomains := inner.openDomains - runtime.catalog.domainCount.toNat
    graphConnections := inner.graphConnections - runtime.graphConnections
    indexHandles := inner.indexHandles - runtime.indexHandles }

/-- The unleased space other than the legacy space that was used longest ago. -/
def candidate (inner : RegistryInner) (legacy : SpaceId) : Option SpaceId :=
  ((inner.lastUsed.entries.filter fun entry =>
    entry.1 ≠ legacy ∧ inner.leasesOf entry.1 = 0).argmin Prod.snd).map Prod.fst

/-- Remove a flushed runtime. -/
def evict (inner : RegistryInner) (id : SpaceId) : RegistryInner :=
  let released := match inner.runtimes.get? id with
    | some runtime => { inner with runtimes := inner.runtimes.erase id }.releaseResources runtime
    | none => inner
  { released with lastUsed := released.lastUsed.erase id, leases := released.leases.erase id }

/-- The budgets leave no room for a runtime of this many domains and connections. -/
def exceeds (inner : RegistryInner) (limits : RegistryLimits)
    (domains graphConnections indexHandles : Nat) : Prop :=
  limits.maxOpenSpaces ≤ inner.runtimes.entries.length ∨
    limits.maxOpenDomains < inner.openDomains + domains ∨
    limits.maxGraphConnections < inner.graphConnections + graphConnections ∨
    limits.maxIndexHandles < inner.indexHandles + indexHandles ∨
    limits.maxContextEngines < inner.contextEngines ∨
    limits.maxFlusherThreads < inner.flusherThreads

instance (inner : RegistryInner) (limits : RegistryLimits)
    (domains graphConnections indexHandles : Nat) :
    Decidable (inner.exceeds limits domains graphConnections indexHandles) :=
  inferInstanceAs (Decidable (_ ∨ _ ∨ _ ∨ _ ∨ _ ∨ _))

/-- The loop of `reserve_capacity`. Every pass deletes one entry of `last_used`, so
the fuel never runs out before there is no candidate. -/
def makeRoom (limits : RegistryLimits) (legacy : SpaceId)
    (flush : SpaceId → Except RegistryError Unit) (domains graphConnections indexHandles : Nat) :
    Nat → RegistryInner → RegistryInner × Except RegistryError Unit
  | 0, inner => (inner, .error .capacity)
  | fuel + 1, inner =>
    if inner.exceeds limits domains graphConnections indexHandles then
      match inner.candidate legacy with
      | none => (inner, .error .capacity)
      | some id =>
        match (if (inner.runtimes.get? id).isSome then flush id else .ok ()) with
        | .error error => (inner, .error error)
        | .ok _ => makeRoom limits legacy flush domains graphConnections indexHandles fuel
            (inner.evict id)
    else (inner, .ok ())

/-- `reserve_capacity`; neither engines nor flusher threads are ever requested. -/
def reserveCapacity (inner : RegistryInner) (limits : RegistryLimits) (legacy : SpaceId)
    (flush : SpaceId → Except RegistryError Unit) (domains graphConnections indexHandles : Nat) :
    RegistryInner × Except RegistryError Unit :=
  if limits.maxOpenDomains < domains ∨ limits.maxGraphConnections < graphConnections ∨
      limits.maxIndexHandles < indexHandles then
    (inner, .error .capacity)
  else makeRoom limits legacy flush domains graphConnections indexHandles
    (inner.lastUsed.entries.length + 1) inner

end RegistryInner

structure RuntimeLease where
  id : SpaceId
  runtime : SpaceRuntime
  deriving DecidableEq

/-- What a registry is configured with. -/
structure RegistryConfig where
  limits : RegistryLimits
  validated : limits.validate = .ok limits
  legacyPersonalGlobal : SpaceId
  numJobs : Nat

/-- The guarded state, and what is held outside. -/
structure SpaceRegistry where
  inner : RegistryInner
  /-- The live leases. -/
  held : List RuntimeLease
  /-- Runtimes of leases whose destructor has counted them off. -/
  dropping : List SpaceRuntime
  /-- Clones of stores that callers hold. -/
  stores : List DomainStore
  /-- Spaces that are being closed, with the runtime taken out of the map. -/
  closers : List (SpaceId × Option SpaceRuntime)
  /-- The live exclusive leases. -/
  exclusive : List SpaceId
  opened : Nat
  /-- The spaces in the order of their uses, latest first. -/
  uses : List SpaceId

namespace SpaceRegistry

def new : SpaceRegistry where
  inner := ⟨.empty, .empty, .empty, 0, 0, 0, 0, 0, 0, ∅⟩
  held := []
  dropping := []
  stores := []
  closers := []
  exclusive := []
  opened := 0
  uses := []

/-- Count a lease and hand it out. -/
def lease (registry : SpaceRegistry) (id : SpaceId) (runtime : SpaceRuntime) : SpaceRegistry :=
  { registry with
    inner := registry.inner.incrementLease id
    held := ⟨id, runtime⟩ :: registry.held
    uses := id :: registry.uses }

/-- Put a runtime that was just opened into the map. -/
def install (registry : SpaceRegistry) (id : SpaceId) (runtime : SpaceRuntime) : SpaceRegistry :=
  { registry with
    inner := { registry.inner with
      openDomains := registry.inner.openDomains + runtime.catalog.domainCount.toNat
      graphConnections := registry.inner.graphConnections + runtime.graphConnections
      indexHandles := registry.inner.indexHandles + runtime.indexHandles
      runtimes := registry.inner.runtimes.put id runtime }
    opened := registry.opened + 1 }

/-- The graph connections of a space, unless the product overflows. -/
def connections (config : RegistryConfig) (domains : Nat) : Option Nat :=
  let product := domains * min (config.numJobs + 1) usizeMax
  if product ≤ usizeMax then some product else none

/-- What an acquisition learns from outside. -/
structure Acquisition where
  catalog : Except RegistryError (Option CatalogSpace)
  flush : SpaceId → Except RegistryError Unit
  opening : RuntimeOpening

/-- `SpaceRegistry::acquire`, all of it under the mutex. -/
def acquire (config : RegistryConfig) (registry : SpaceRegistry) (id : SpaceId)
    (outside : Acquisition) : SpaceRegistry × Except RegistryError RuntimeLease :=
  if id ∈ registry.inner.closing then (registry, .error .closing)
  else match registry.inner.runtimes.get? id with
  | some runtime => (registry.lease id runtime, .ok ⟨id, runtime⟩)
  | none => match outside.catalog with
    | .error error => (registry, .error error)
    | .ok none => (registry, .error .inactive)
    | .ok (some catalog) =>
      if catalog.state ≠ .active then (registry, .error .inactive)
      else match connections config catalog.domainCount.toNat with
      | none => (registry, .error .capacity)
      | some graphConnections =>
        match registry.inner.reserveCapacity config.limits config.legacyPersonalGlobal
          outside.flush catalog.domainCount.toNat graphConnections catalog.domainCount.toNat with
        | (inner, .error error) => ({ registry with inner }, .error error)
        | (inner, .ok _) =>
          match outside.opening.run with
          | .error error => ({ registry with inner }, .error error)
          | .ok _ =>
            let runtime : SpaceRuntime :=
              ⟨catalog, ⟨id, registry.opened⟩, graphConnections, catalog.domainCount.toNat⟩
            (({ registry with inner }.install id runtime).lease id runtime, .ok ⟨id, runtime⟩)

/-- The guarded part of the destructor of a lease. -/
def dropLease (registry : SpaceRegistry) (lease : RuntimeLease) : SpaceRegistry :=
  let counted := match registry.inner.leases.get? lease.id with
    | some leases =>
      { registry.inner with leases := registry.inner.leases.put lease.id (leases - 1) }
    | none => registry.inner
  { registry with
    inner := counted.touch lease.id
    held := registry.held.erase lease
    dropping := lease.runtime :: registry.dropping
    uses := lease.id :: registry.uses }

/-- `close_for_maintenance` up to the end of its guarded part. -/
def beginClosing (registry : SpaceRegistry) (id : SpaceId)
    (catalog : Except RegistryError (Option CatalogSpace)) (flushed : Except RegistryError Unit) :
    SpaceRegistry × Except RegistryError Unit :=
  match catalog with
  | .error error => (registry, .error error)
  | .ok none => (registry, .error .inactive)
  | .ok (some row) =>
    if row.state ≠ .active then (registry, .error .inactive)
    else if id ∈ registry.inner.closing then (registry, .error .closing)
    else if registry.inner.leasesOf id ≠ 0 then (registry, .error .leased)
    else match registry.inner.runtimes.get? id with
    | some runtime => match flushed with
      | .error error => (registry, .error error)
      | .ok _ =>
        let removed := { registry.inner with
          closing := insert id registry.inner.closing
          runtimes := registry.inner.runtimes.erase id }.releaseResources runtime
        ({ registry with
            inner := { removed with lastUsed := removed.lastUsed.erase id }
            closers := (id, some runtime) :: registry.closers }, .ok ())
    | none =>
      ({ registry with
          inner := { registry.inner with closing := insert id registry.inner.closing }
          closers := (id, none) :: registry.closers }, .ok ())

/-- Some runtime of the space is alive and holds the shared lock. -/
def locked (registry : SpaceRegistry) (id : SpaceId) : Bool :=
  (registry.inner.runtimes.entries.map Prod.snd ++ registry.held.map RuntimeLease.runtime ++
    registry.dropping ++ registry.closers.filterMap Prod.snd).any fun runtime =>
      runtime.store.space = id

/-- The end of `close_for_maintenance`: the runtime is dropped, the root is checked,
and the exclusive lock is taken. A runtime that is still alive blocks the lock. -/
def finishClosing (registry : SpaceRegistry) (closer : SpaceId × Option SpaceRuntime)
    (root lock : Except RegistryError Unit) : SpaceRegistry × Except RegistryError Unit :=
  let dropped := { registry with closers := registry.closers.erase closer }
  let reopened := { dropped with
    inner := { dropped.inner with closing := dropped.inner.closing.erase closer.1 } }
  match root with
  | .error error => (reopened, .error error)
  | .ok _ => match (if dropped.locked closer.1 then .error .busy else lock) with
    | .error error => (reopened, .error error)
    | .ok _ => ({ dropped with exclusive := closer.1 :: dropped.exclusive }, .ok ())

/-- The destructor of an exclusive lease. -/
def dropExclusive (registry : SpaceRegistry) (id : SpaceId) : SpaceRegistry :=
  { registry with
    inner := { registry.inner with closing := registry.inner.closing.erase id }
    exclusive := registry.exclusive.erase id }

/-- What happens to a registry. -/
inductive Action where
  | acquire (id : SpaceId) (outside : Acquisition)
  | cloneStore (lease : RuntimeLease)
  | cloneStoreAgain (store : DomainStore)
  | dropStore (store : DomainStore)
  | dropLease (lease : RuntimeLease)
  | dropRuntime (runtime : SpaceRuntime)
  | beginClosing (id : SpaceId) (catalog : Except RegistryError (Option CatalogSpace))
      (flushed : Except RegistryError Unit)
  | finishClosing (closer : SpaceId × Option SpaceRuntime) (root lock : Except RegistryError Unit)
  | dropExclusive (id : SpaceId)

/-- One step. Callers clone and drop only what they hold. -/
def step (config : RegistryConfig) (registry : SpaceRegistry) : Action → Option SpaceRegistry
  | .acquire id outside => some (registry.acquire config id outside).1
  | .cloneStore lease =>
    if lease ∈ registry.held then
      some { registry with stores := lease.runtime.store :: registry.stores }
    else none
  | .cloneStoreAgain store =>
    if store ∈ registry.stores then some { registry with stores := store :: registry.stores }
    else none
  | .dropStore store =>
    if store ∈ registry.stores then
      some { registry with stores := registry.stores.erase store }
    else none
  | .dropLease lease => if lease ∈ registry.held then some (registry.dropLease lease) else none
  | .dropRuntime runtime =>
    if runtime ∈ registry.dropping then
      some { registry with dropping := registry.dropping.erase runtime }
    else none
  | .beginClosing id catalog flushed => some (registry.beginClosing id catalog flushed).1
  | .finishClosing closer root lock =>
    if closer ∈ registry.closers then some (registry.finishClosing closer root lock).1 else none
  | .dropExclusive id => if id ∈ registry.exclusive then some (registry.dropExclusive id) else none

end SpaceRegistry

end OpenMemory.Daemon
