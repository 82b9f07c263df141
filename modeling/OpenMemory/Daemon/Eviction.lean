import OpenMemory.Daemon.SpaceRegistry

/-!
# Making room in the registry

What one eviction does to the guarded state, and what the loop that evicts until
there is room does to it: `makeRoom_induction` is the rule for the loop, `Evicts`
says which spaces it takes, and `Budgeted` is what it keeps of the counters.
-/

namespace OpenMemory.Daemon.RegistryInner

open Foundation

variable {inner start later : RegistryInner} {limits : RegistryLimits} {legacy id other : SpaceId}
  {runtime : SpaceRuntime} {flush : SpaceId → Except RegistryError Unit}
  {domains graphConnections indexHandles fuel tick : Nat} {result : Except RegistryError Unit}

/-! ## The candidate -/

theorem candidate_eq_some (chosen : inner.candidate legacy = some id) :
    ∃ tick, inner.lastUsed.get? id = some tick ∧ id ≠ legacy ∧ inner.leasesOf id = 0 ∧
      ∀ other tick', inner.lastUsed.get? other = some tick' → other ≠ legacy →
        inner.leasesOf other = 0 → tick ≤ tick' := by
  unfold candidate at chosen
  obtain ⟨⟨id, tick⟩, least, rfl⟩ := Option.map_eq_some_iff.mp chosen
  have member := List.argmin_mem least
  rw [List.mem_filter, decide_eq_true_iff] at member
  refine ⟨tick, Table.get?_eq_some_iff.mpr member.1, member.2.1, member.2.2, ?_⟩
  intro other tick' found notLegacy unleased
  refine List.le_of_mem_argmin (f := Prod.snd) (a := (other, tick')) ?_ least
  rw [List.mem_filter, decide_eq_true_iff]
  exact ⟨Table.get?_eq_some_iff.mp found, notLegacy, unleased⟩

/-! ## One eviction -/

theorem evict_runtimes : (inner.evict id).runtimes.get? other =
    if other = id then none else inner.runtimes.get? other := by
  unfold evict
  cases found : inner.runtimes.get? id with
  | some runtime => exact Table.get?_erase
  | none =>
    dsimp only
    split
    next here => rw [here, found]
    next => rfl

theorem evict_lastUsed : (inner.evict id).lastUsed.get? other =
    if other = id then none else inner.lastUsed.get? other := by
  unfold evict
  cases inner.runtimes.get? id <;> exact Table.get?_erase

theorem evict_leasesOf : (inner.evict id).leasesOf other =
    if other = id then 0 else inner.leasesOf other := by
  have same : (inner.evict id).leases = inner.leases.erase id := by
    unfold evict
    cases inner.runtimes.get? id <;> rfl
  unfold leasesOf
  rw [same, Table.get?_erase]
  split <;> rfl

theorem evict_closing : (inner.evict id).closing = inner.closing := by
  unfold evict
  cases inner.runtimes.get? id <;> rfl

theorem evict_tick : (inner.evict id).tick = inner.tick := by
  unfold evict
  cases inner.runtimes.get? id <;> rfl

/-! ## The loop -/

/-- **The rule for the loop.** What every eviction of a candidate preserves holds
when the loop stops. -/
theorem makeRoom_induction {motive : RegistryInner → Prop} (start : motive inner)
    (evicted : ∀ inner id, motive inner → inner.candidate legacy = some id →
      motive (inner.evict id)) :
    motive (makeRoom limits legacy flush domains graphConnections indexHandles fuel inner).1 := by
  induction fuel generalizing inner with
  | zero => exact start
  | succ fuel ih =>
    rw [makeRoom]
    split
    next =>
      split
      next => exact start
      next id chosen =>
        split
        next => exact start
        next => exact ih (evicted inner id start chosen)
    next => exact start

/-- When the loop succeeds there is room. -/
theorem makeRoom_room
    (made : makeRoom limits legacy flush domains graphConnections indexHandles fuel inner =
      (later, .ok ())) : ¬ later.exceeds limits domains graphConnections indexHandles := by
  induction fuel generalizing inner with
  | zero => cases made
  | succ fuel ih =>
    rw [makeRoom] at made
    split at made
    next =>
      split at made
      next => cases made
      next id chosen =>
        split at made
        next => cases made
        next => exact ih made
    next room =>
      cases made
      exact room

theorem reserveCapacity_induction {motive : RegistryInner → Prop} (start : motive inner)
    (evicted : ∀ inner id, motive inner → inner.candidate legacy = some id →
      motive (inner.evict id))
    (reserved : inner.reserveCapacity limits legacy flush domains graphConnections indexHandles =
      (later, result)) : motive later := by
  unfold reserveCapacity at reserved
  split at reserved
  next =>
    cases reserved
    exact start
  next =>
    have held : motive (makeRoom limits legacy flush domains graphConnections indexHandles
        (inner.lastUsed.entries.length + 1) inner).1 := makeRoom_induction start evicted
    rwa [reserved] at held

theorem reserveCapacity_room
    (reserved : inner.reserveCapacity limits legacy flush domains graphConnections indexHandles =
      (later, .ok ())) : ¬ later.exceeds limits domains graphConnections indexHandles := by
  unfold reserveCapacity at reserved
  split at reserved
  next => cases reserved
  next => exact makeRoom_room reserved

/-! ## Which spaces are evicted -/

/-- The loop went from one state to another by evictions: what is left is as it was,
and what is gone was neither the legacy space nor leased, and not used later than
any other such space that is left. -/
structure Evicts (legacy : SpaceId) (start later : RegistryInner) : Prop where
  closing : later.closing = start.closing
  tick : later.tick = start.tick
  leases : ∀ id, later.leasesOf id = start.leasesOf id
  runtimes : ∀ id runtime, later.runtimes.get? id = some runtime →
    start.runtimes.get? id = some runtime
  lastUsed : ∀ id tick, later.lastUsed.get? id = some tick → start.lastUsed.get? id = some tick
  kept : ∀ id, (id = legacy ∨ start.leasesOf id ≠ 0) →
    later.runtimes.get? id = start.runtimes.get? id ∧
      later.lastUsed.get? id = start.lastUsed.get? id
  together : (∀ id, (start.lastUsed.get? id).isSome = (start.runtimes.get? id).isSome) →
    ∀ id, (later.lastUsed.get? id).isSome = (later.runtimes.get? id).isSome
  oldest : ∀ id tick, start.lastUsed.get? id = some tick → later.lastUsed.get? id = none →
    ∀ other tick', later.lastUsed.get? other = some tick' → other ≠ legacy →
      start.leasesOf other = 0 → tick ≤ tick'

theorem Evicts.refl : Evicts legacy start start where
  closing := rfl
  tick := rfl
  leases _ := rfl
  runtimes _ _ found := found
  lastUsed _ _ found := found
  kept _ _ := ⟨rfl, rfl⟩
  together same := same
  oldest id tick found gone := by
    rw [found] at gone
    cases gone

theorem Evicts.evict (evicts : Evicts legacy start later)
    (chosen : later.candidate legacy = some id) : Evicts legacy start (later.evict id) := by
  obtain ⟨tick, used, notLegacy, unleased, least⟩ := candidate_eq_some chosen
  constructor
  · rw [evict_closing, evicts.closing]
  · rw [evict_tick, evicts.tick]
  · intro other
    rw [evict_leasesOf, ← evicts.leases]
    split
    next here => rw [here, unleased]
    next => rfl
  · intro other runtime found
    rw [evict_runtimes] at found
    split at found
    next => cases found
    next => exact evicts.runtimes other runtime found
  · intro other tick' found
    rw [evict_lastUsed] at found
    split at found
    next => cases found
    next => exact evicts.lastUsed other tick' found
  · intro other spared
    have different : other ≠ id := by
      rintro rfl
      rcases spared with same | leased
      · exact notLegacy same
      · rw [← evicts.leases] at leased
        exact leased unleased
    rw [evict_runtimes, evict_lastUsed, if_neg different, if_neg different]
    exact evicts.kept other spared
  · intro same other
    rw [evict_runtimes, evict_lastUsed]
    split
    · rfl
    · exact evicts.together same other
  · intro gone tick' found missing other otherTick found' notLegacy' unleased'
    rw [evict_lastUsed] at found' missing
    split at found'
    next => cases found'
    next =>
      split at missing
      next here =>
        -- the space that this eviction takes was still there before it
        subst here
        have before := evicts.lastUsed _ _ used
        rw [before] at found
        cases found
        exact least other otherTick found' notLegacy' (by rw [evicts.leases, unleased'])
      next =>
        exact evicts.oldest gone tick' found missing other otherTick found' notLegacy' unleased'

theorem reserveCapacity_evicts
    (reserved : inner.reserveCapacity limits legacy flush domains graphConnections indexHandles =
      (later, result)) : Evicts legacy inner later :=
  reserveCapacity_induction .refl (fun _ _ evicts chosen => evicts.evict chosen) reserved

/-! ## The counters -/

/-- A sum over the resident runtimes. -/
def total (inner : RegistryInner) (weight : SpaceRuntime → Nat) : Nat :=
  (inner.runtimes.entries.map fun entry => weight entry.2).sum

/-- The counters are the sums over the resident runtimes, within the limits. -/
structure Budgeted (limits : RegistryLimits) (inner : RegistryInner) : Prop where
  domains : inner.openDomains = inner.total fun runtime => runtime.catalog.domainCount.toNat
  connections : inner.graphConnections = inner.total SpaceRuntime.graphConnections
  handles : inner.indexHandles = inner.total SpaceRuntime.indexHandles
  domainsWithin : inner.openDomains ≤ limits.maxOpenDomains
  connectionsWithin : inner.graphConnections ≤ limits.maxGraphConnections
  handlesWithin : inner.indexHandles ≤ limits.maxIndexHandles
  spacesWithin : inner.runtimes.entries.length ≤ limits.maxOpenSpaces

namespace Budgeted

variable (budgeted : Budgeted limits inner)

include budgeted

/-- The counters do not depend on the rest of the state. -/
theorem of_same (runtimes : later.runtimes = inner.runtimes)
    (domains : later.openDomains = inner.openDomains)
    (connections : later.graphConnections = inner.graphConnections)
    (handles : later.indexHandles = inner.indexHandles) : Budgeted limits later := by
  obtain ⟨first, second, third, within, within', within'', spaces⟩ := budgeted
  constructor
  · rw [domains, first, total, total, runtimes]
  · rw [connections, second, total, total, runtimes]
  · rw [handles, third, total, total, runtimes]
  · rwa [domains]
  · rwa [connections]
  · rwa [handles]
  · rwa [runtimes]

/-- A runtime leaves the map and its resources are released. -/
theorem release (found : inner.runtimes.get? id = some runtime)
    (runtimes : later.runtimes = inner.runtimes.erase id)
    (domains : later.openDomains = inner.openDomains)
    (connections : later.graphConnections = inner.graphConnections)
    (handles : later.indexHandles = inner.indexHandles) :
    Budgeted limits (later.releaseResources runtime) := by
  have without : ∀ weight : SpaceRuntime → Nat,
      (later.releaseResources runtime).total weight + weight runtime = inner.total weight := by
    intro weight
    unfold total releaseResources
    rw [runtimes]
    exact Table.sum_erase found weight
  have first := without fun runtime => runtime.catalog.domainCount.toNat
  have second := without SpaceRuntime.graphConnections
  have third := without SpaceRuntime.indexHandles
  have shorter := Table.length_erase found
  rw [← budgeted.domains] at first
  rw [← budgeted.connections] at second
  rw [← budgeted.handles] at third
  have bounds := budgeted.domainsWithin
  have bounds' := budgeted.connectionsWithin
  have bounds'' := budgeted.handlesWithin
  have spaces := budgeted.spacesWithin
  unfold releaseResources at first second third ⊢
  constructor <;> dsimp only
  · omega
  · omega
  · omega
  · omega
  · omega
  · omega
  · rw [runtimes]
    omega

theorem evict : Budgeted limits (inner.evict id) := by
  unfold RegistryInner.evict
  cases found : inner.runtimes.get? id with
  | none => exact budgeted.of_same rfl rfl rfl rfl
  | some runtime =>
    have released : Budgeted limits
        ({ inner with runtimes := inner.runtimes.erase id }.releaseResources runtime) :=
      budgeted.release found rfl rfl rfl rfl
    exact released.of_same rfl rfl rfl rfl

theorem reserveCapacity
    (reserved : inner.reserveCapacity limits legacy flush domains graphConnections indexHandles =
      (later, result)) : Budgeted limits later :=
  reserveCapacity_induction budgeted (fun _ _ budgeted _ => budgeted.evict) reserved

/-- A runtime for which there is room enters the map. -/
theorem install (absent : inner.runtimes.get? id = none)
    (room : ¬ inner.exceeds limits runtime.catalog.domainCount.toNat runtime.graphConnections
      runtime.indexHandles) (runtimes : later.runtimes = inner.runtimes.put id runtime)
    (domains : later.openDomains = inner.openDomains + runtime.catalog.domainCount.toNat)
    (connections : later.graphConnections = inner.graphConnections + runtime.graphConnections)
    (handles : later.indexHandles = inner.indexHandles + runtime.indexHandles) :
    Budgeted limits later := by
  have added : ∀ weight : SpaceRuntime → Nat,
      later.total weight = inner.total weight + weight runtime := by
    intro weight
    unfold total
    rw [runtimes, Table.put_of_fresh absent, List.map_append, List.sum_append]
    rfl
  unfold exceeds at room
  push Not at room
  constructor
  · rw [domains, added, budgeted.domains]
  · rw [connections, added, budgeted.connections]
  · rw [handles, added, budgeted.handles]
  · omega
  · omega
  · omega
  · rw [runtimes, Table.put_of_fresh absent, List.length_append, List.length_singleton]
    omega

end Budgeted

end OpenMemory.Daemon.RegistryInner
