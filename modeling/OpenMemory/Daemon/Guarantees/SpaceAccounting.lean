import OpenMemory.Daemon.Eviction

/-!
# The accounts of the registry

The counters of the registry are the sums over its resident runtimes and stay
within the limits, leased spaces stay resident, and a space in maintenance has no
runtime. All of this holds along every run; what a run can break is only that a
store, cloned out of a lease and kept, is still alive when its space is handed out
for maintenance.
-/

namespace OpenMemory.Daemon

open Foundation

namespace RegistryInner

variable {inner later : RegistryInner} {legacy id other : SpaceId} {uses : List SpaceId}

/-! ## Leases and uses -/

theorem incrementLease_leasesOf : (inner.incrementLease id).leasesOf other =
    if other = id then inner.leasesOf id + 1 else inner.leasesOf other := by
  change ((inner.leases.put id (inner.leasesOf id + 1)).get? other).getD 0 = _
  rw [Table.get?_put]
  split <;> rfl

theorem touch_lastUsed_isSome : ((inner.touch id).lastUsed.get? other).isSome =
    if other = id then true else (inner.lastUsed.get? other).isSome := by
  change ((inner.lastUsed.put id _).get? other).isSome = _
  rw [Table.get?_put]
  split <;> rfl

/-- The ticks count the uses: an entry is as old as its space stands deep in the log. -/
structure Timed (inner : RegistryInner) (uses : List SpaceId) : Prop where
  tick : inner.tick = uses.length
  entries : ∀ id tick, inner.lastUsed.get? id = some tick →
    id ∈ uses ∧ tick + uses.idxOf id = uses.length

namespace Timed

theorem touch (timed : Timed inner uses) (counting : inner.tick < usizeMax) :
    Timed (inner.touch id) (id :: uses) := by
  have next : min (inner.tick + 1) usizeMax = uses.length + 1 := by
    rw [timed.tick] at counting ⊢
    omega
  constructor
  · exact next
  · intro other tick found
    change (inner.lastUsed.put id (min (inner.tick + 1) usizeMax)).get? other = some tick at found
    rw [Table.get?_put, next] at found
    split at found
    next here =>
      cases found
      subst here
      exact ⟨List.mem_cons_self, by rw [List.idxOf_cons_self]; rfl⟩
    next different =>
      obtain ⟨member, same⟩ := timed.entries other tick found
      refine ⟨List.mem_cons_of_mem _ member, ?_⟩
      rw [List.idxOf_cons_ne _ (Ne.symm different), List.length_cons]
      omega

theorem of_sub (timed : Timed inner uses) (tick : later.tick = inner.tick)
    (sub : ∀ id tick, later.lastUsed.get? id = some tick → inner.lastUsed.get? id = some tick) :
    Timed later uses :=
  ⟨tick.trans timed.tick, fun id tick found => timed.entries id tick (sub id tick found)⟩

theorem incrementLease (timed : Timed inner uses) (counting : inner.tick < usizeMax) :
    Timed (inner.incrementLease id) (id :: uses) := by
  refine Timed.touch ?_ counting
  exact timed.of_sub rfl fun _ _ found => found

/-- The earlier tick belongs to the space that was used longer ago. -/
theorem used_before (timed : Timed inner uses) {tick tick' : Nat}
    (found : inner.lastUsed.get? id = some tick) (found' : inner.lastUsed.get? other = some tick')
    (earlier : tick ≤ tick') (different : id ≠ other) : uses.idxOf other < uses.idxOf id := by
  obtain ⟨member, same⟩ := timed.entries id tick found
  obtain ⟨member', same'⟩ := timed.entries other tick' found'
  have distinct : uses.idxOf id ≠ uses.idxOf other :=
    fun equal => different ((List.idxOf_inj member).mp equal)
  omega

end Timed

end RegistryInner

namespace SpaceRegistry

open RegistryInner

variable {config : RegistryConfig} {registry next : SpaceRegistry} {id other : SpaceId}
  {runtime : SpaceRuntime} {held : RuntimeLease} {store : DomainStore} {action : Action}

/-! ## What is claimed -/

/-- What the registry promises of its state. -/
structure Accounted (config : RegistryConfig) (registry : SpaceRegistry) : Prop where
  budgeted : registry.inner.Budgeted config.limits
  counted : ∀ id, registry.inner.leasesOf id = registry.held.countP fun lease => lease.id = id
  resident : ∀ lease ∈ registry.held, registry.inner.runtimes.get? lease.id = some lease.runtime
  apart : ∀ id ∈ registry.inner.closing, registry.inner.runtimes.get? id = none
  excluded : ∀ id ∈ registry.exclusive,
    registry.locked id = false ∧ ∀ store ∈ registry.stores, store.space ≠ id

/-- A space that lost its runtime was not the legacy space and not leased, and all
other such spaces that keep theirs were used after it. -/
def EvictsOldest (config : RegistryConfig) (registry next : SpaceRegistry) : Prop :=
  ∀ id, (registry.inner.runtimes.get? id).isSome → next.inner.runtimes.get? id = none →
    id ≠ config.legacyPersonalGlobal ∧ (∀ lease ∈ registry.held, lease.id ≠ id) ∧
      ∀ other, (registry.inner.runtimes.get? other).isSome →
        (next.inner.runtimes.get? other).isSome → other ≠ config.legacyPersonalGlobal →
          (∀ lease ∈ registry.held, lease.id ≠ other) →
            registry.uses.idxOf other < registry.uses.idxOf id

/-- No caller holds a store of a space that is handed out for maintenance, and the
ticks do not reach their maximum. -/
def Meets (registry : SpaceRegistry) : Action → Prop
  | .finishClosing closer root lock =>
    root = .ok () → lock = .ok () →
      { registry with closers := registry.closers.erase closer }.locked closer.1 = false →
        ∀ store ∈ registry.stores, store.space ≠ closer.1
  | .acquire _ _ | .dropLease _ => registry.inner.tick < usizeMax
  | _ => True

/-! ## What the steps preserve -/

structure Kept (config : RegistryConfig) (registry : SpaceRegistry) : Prop where
  budgeted : registry.inner.Budgeted config.limits
  counted : ∀ id, registry.inner.leasesOf id = registry.held.countP fun lease => lease.id = id
  resident : ∀ lease ∈ registry.held, registry.inner.runtimes.get? lease.id = some lease.runtime
  keyed : ∀ id runtime, registry.inner.runtimes.get? id = some runtime → runtime.store.space = id
  used : ∀ id, (registry.inner.lastUsed.get? id).isSome = (registry.inner.runtimes.get? id).isSome
  timed : registry.inner.Timed registry.uses
  apart : ∀ id ∈ registry.inner.closing, registry.inner.runtimes.get? id = none
  closing : ∀ id, id ∈ registry.inner.closing ↔
    id ∈ registry.closers.map Prod.fst ++ registry.exclusive
  once : (registry.closers.map Prod.fst ++ registry.exclusive).Nodup
  emptied : ∀ id runtime, (id, some runtime) ∈ registry.closers → runtime.store.space = id
  alone : ∀ id ∈ registry.exclusive, (∀ runtime ∈ registry.dropping, runtime.store.space ≠ id) ∧
    ∀ store ∈ registry.stores, store.space ≠ id

namespace Kept

theorem new : Kept config new where
  budgeted := ⟨rfl, rfl, rfl, Nat.zero_le _, Nat.zero_le _, Nat.zero_le _, Nat.zero_le _⟩
  counted id := rfl
  resident lease member := by cases member
  keyed id runtime found := by cases found
  used id := rfl
  timed := ⟨rfl, fun id tick found => by cases found⟩
  apart id member := by cases member
  closing id := ⟨fun member => (by cases member), fun member => (by cases member)⟩
  once := List.nodup_nil
  emptied id runtime member := by cases member
  alone id member := by cases member

variable (kept : Kept config registry)

include kept

theorem unleased_iff : registry.inner.leasesOf id = 0 ↔ ∀ lease ∈ registry.held, lease.id ≠ id := by
  rw [kept.counted, List.countP_eq_zero]
  simp

theorem closing_of_exclusive (member : id ∈ registry.exclusive) : id ∈ registry.inner.closing :=
  (kept.closing id).mpr (List.mem_append_right _ member)

/-- The runtime of a live lease is not of a space in maintenance. -/
theorem space_of_held (member : held ∈ registry.held)
    (closing : id ∈ registry.inner.closing) : held.runtime.store.space ≠ id := by
  have found := kept.resident held member
  rw [kept.keyed _ _ found]
  rintro rfl
  rw [kept.apart _ closing] at found
  cases found

theorem accounted : Accounted config registry where
  budgeted := kept.budgeted
  counted := kept.counted
  resident := kept.resident
  apart := kept.apart
  excluded id member := by
    have closing := kept.closing_of_exclusive member
    refine ⟨?_, (kept.alone id member).2⟩
    unfold locked
    rw [List.any_eq_false]
    intro runtime among
    rw [decide_eq_true_eq]
    rw [List.mem_append, List.mem_append, List.mem_append] at among
    rcases among with ((inMap | leased) | dropped) | taken
    · obtain ⟨⟨key, value⟩, entry, rfl⟩ := List.mem_map.mp inMap
      have found := Table.get?_eq_some_iff.mpr entry
      rw [kept.keyed key value found]
      rintro rfl
      rw [kept.apart _ closing] at found
      cases found
    · obtain ⟨lease, heldLease, rfl⟩ := List.mem_map.mp leased
      exact kept.space_of_held heldLease closing
    · exact (kept.alone id member).1 runtime dropped
    · obtain ⟨⟨key, value⟩, closer, same⟩ := List.mem_filterMap.mp taken
      dsimp only at same
      subst same
      rw [kept.emptied key runtime closer]
      rintro rfl
      exact (List.disjoint_of_nodup_append kept.once)
        (List.mem_map_of_mem (f := Prod.fst) closer) member

/-! ### Acquisition -/

/-- Evictions keep what does not speak of the spaces that are gone. -/
theorem evict {inner : RegistryInner}
    (evicts : Evicts config.legacyPersonalGlobal registry.inner inner)
    (budgeted : inner.Budgeted config.limits) : Kept config { registry with inner } where
  budgeted := budgeted
  counted id := (evicts.leases id).trans (kept.counted id)
  resident lease member := by
    refine Eq.trans (evicts.kept lease.id (.inr ?_)).1 (kept.resident lease member)
    intro unleased
    exact kept.unleased_iff.mp unleased lease member rfl
  keyed id runtime found := kept.keyed id runtime (evicts.runtimes id runtime found)
  used := evicts.together kept.used
  timed := kept.timed.of_sub evicts.tick evicts.lastUsed
  apart id member := by
    rw [evicts.closing] at member
    cases found : inner.runtimes.get? id with
    | none => rfl
    | some runtime =>
      have before := evicts.runtimes id runtime found
      rw [kept.apart id member] at before
      cases before
  closing id := by
    rw [evicts.closing]
    exact kept.closing id
  once := kept.once
  emptied := kept.emptied
  alone := kept.alone

omit kept in
theorem counted_lease {inner : RegistryInner}
    (counted : inner.leasesOf other = registry.held.countP fun lease => lease.id = other)
    (same : inner.leasesOf id = registry.held.countP fun lease => lease.id = id) :
    (inner.incrementLease id).leasesOf other =
      ((⟨id, runtime⟩ : RuntimeLease) :: registry.held).countP fun lease => lease.id = other := by
  rw [incrementLease_leasesOf, List.countP_cons]
  by_cases here : other = id
  · subst here
    rw [if_pos rfl, if_pos (by simp), same]
  · rw [if_neg here, if_neg (by simpa using Ne.symm here), counted, Nat.add_zero]

/-- One more lease of a resident runtime. -/
theorem lease (found : registry.inner.runtimes.get? id = some runtime)
    (counting : registry.inner.tick < usizeMax) : Kept config (registry.lease id runtime) where
  budgeted := kept.budgeted.of_same rfl rfl rfl rfl
  counted other := counted_lease (kept.counted other) (kept.counted id)
  resident lease member := by
    rcases List.mem_cons.mp member with rfl | member
    · exact found
    · exact kept.resident lease member
  keyed := kept.keyed
  used other := by
    refine (@touch_lastUsed_isSome _ id _).trans ?_
    split
    next here =>
      change true = (registry.inner.runtimes.get? other).isSome
      rw [here, found]
      rfl
    next => exact kept.used other
  timed := kept.timed.incrementLease counting
  apart := kept.apart
  closing := kept.closing
  once := kept.once
  emptied := kept.emptied
  alone := kept.alone

/-- A runtime enters the map with its first lease. -/
theorem install (absent : registry.inner.runtimes.get? id = none)
    (opened : id ∉ registry.inner.closing)
    (room : ¬ registry.inner.exceeds config.limits runtime.catalog.domainCount.toNat
      runtime.graphConnections runtime.indexHandles)
    (space : runtime.store.space = id) (counting : registry.inner.tick < usizeMax) :
    Kept config ((registry.install id runtime).lease id runtime) where
  budgeted := kept.budgeted.install absent room rfl rfl rfl rfl
  counted other := by
    refine counted_lease ?_ ?_
    · exact kept.counted other
    · exact kept.counted id
  resident lease member := by
    change (registry.inner.runtimes.put id runtime).get? lease.id = _
    rw [Table.get?_put]
    rcases List.mem_cons.mp member with rfl | member
    · exact if_pos rfl
    · have found := kept.resident lease member
      rw [if_neg, found]
      intro same
      rw [same, absent] at found
      cases found
  keyed other held found := by
    change (registry.inner.runtimes.put id runtime).get? other = some held at found
    rw [Table.get?_put] at found
    split at found
    next here =>
      cases found
      rw [space, here]
    next => exact kept.keyed other held found
  used other := by
    refine (@touch_lastUsed_isSome _ id _).trans ?_
    change _ = ((registry.inner.runtimes.put id runtime).get? other).isSome
    rw [Table.get?_put]
    split
    next => rfl
    next => exact kept.used other
  timed := by
    have installed : (registry.install id runtime).inner.Timed registry.uses :=
      kept.timed.of_sub rfl fun _ _ found => found
    exact installed.incrementLease counting
  apart other member := by
    change (registry.inner.runtimes.put id runtime).get? other = none
    rw [Table.get?_put, if_neg, kept.apart other member]
    rintro rfl
    exact opened member
  closing := kept.closing
  once := kept.once
  emptied := kept.emptied
  alone := kept.alone

theorem acquire (counting : registry.inner.tick < usizeMax)
    (outside : Acquisition) : Kept config (registry.acquire config id outside).1 := by
  unfold SpaceRegistry.acquire
  split
  next => exact kept
  next opened =>
    split
    next runtime found => exact kept.lease found counting
    next absent =>
      split
      next => exact kept
      next => exact kept
      next catalog _ =>
        split
        next => exact kept
        next =>
          split
          next => exact kept
          next connections _ =>
            split
            next inner _ reserved =>
              exact kept.evict (reserveCapacity_evicts reserved)
                (kept.budgeted.reserveCapacity reserved)
            next inner _ reserved =>
              have evicts := reserveCapacity_evicts reserved
              have evicted : Kept config { registry with inner } :=
                kept.evict evicts (kept.budgeted.reserveCapacity reserved)
              split
              next => exact evicted
              next =>
                refine evicted.install ?_ ?_ (reserveCapacity_room reserved) rfl ?_
                · cases found : inner.runtimes.get? id with
                  | none => rfl
                  | some runtime =>
                    have before := evicts.runtimes id runtime found
                    rw [absent] at before
                    cases before
                · dsimp only
                  rwa [evicts.closing]
                · dsimp only
                  rwa [evicts.tick]

/-! ### Destructors -/

theorem dropLease (member : held ∈ registry.held)
    (counting : registry.inner.tick < usizeMax) : Kept config (registry.dropLease held) := by
  have found := kept.resident held member
  have perm := List.perm_cons_erase member
  have counted : ∀ id, registry.held.countP (fun lease => decide (lease.id = id)) =
      (registry.held.erase held).countP (fun lease => decide (lease.id = id)) +
        if held.id = id then 1 else 0 := by
    intro id
    rw [perm.countP_eq, List.countP_cons]
    simp
  obtain ⟨leases, entry⟩ : ∃ leases, registry.inner.leases.get? held.id = some leases := by
    have positive := kept.counted held.id
    rw [counted, if_pos rfl] at positive
    unfold leasesOf at positive
    cases entry : registry.inner.leases.get? held.id with
    | none =>
      rw [entry] at positive
      cases positive
    | some leases => exact ⟨leases, rfl⟩
  unfold SpaceRegistry.dropLease
  rw [entry]
  constructor
  · exact kept.budgeted.of_same rfl rfl rfl rfl
  · intro id
    have before := kept.counted id
    rw [counted] at before
    change ((registry.inner.leases.put held.id (leases - 1)).get? id).getD 0 = _
    rw [Table.get?_put]
    unfold leasesOf at before
    by_cases here : id = held.id
    · subst here
      rw [entry, if_pos rfl] at before
      rw [if_pos rfl]
      change leases = _ at before
      change leases - 1 = (registry.held.erase held).countP fun lease => lease.id = held.id
      omega
    · rw [if_neg (Ne.symm here)] at before
      rw [if_neg here]
      exact before
  · exact fun lease among => kept.resident lease (List.mem_of_mem_erase among)
  · exact kept.keyed
  · intro id
    refine touch_lastUsed_isSome.trans ?_
    split
    next here =>
      change true = (registry.inner.runtimes.get? id).isSome
      rw [here, found]
      rfl
    next => exact kept.used id
  · refine Timed.touch ?_ counting
    exact kept.timed.of_sub rfl fun _ _ found => found
  · exact kept.apart
  · exact kept.closing
  · exact kept.once
  · exact kept.emptied
  · intro id maintained
    refine ⟨fun runtime among => ?_, (kept.alone id maintained).2⟩
    rcases List.mem_cons.mp among with rfl | among
    · exact kept.space_of_held member (kept.closing_of_exclusive maintained)
    · exact (kept.alone id maintained).1 runtime among

theorem dropRuntime : Kept config { registry with dropping := registry.dropping.erase runtime } :=
  { kept with
    alone := fun id member => ⟨fun runtime among =>
      (kept.alone id member).1 runtime (List.mem_of_mem_erase among), (kept.alone id member).2⟩ }

theorem dropStore : Kept config { registry with stores := registry.stores.erase store } :=
  { kept with
    alone := fun id member => ⟨(kept.alone id member).1, fun store among =>
      (kept.alone id member).2 store (List.mem_of_mem_erase among)⟩ }

/-- A store that is not of a space in maintenance is cloned. -/
theorem holdStore (outside : ∀ id ∈ registry.exclusive, store.space ≠ id) :
    Kept config { registry with stores := store :: registry.stores } :=
  { kept with
    alone := fun id member => ⟨(kept.alone id member).1, fun other among => by
      rcases List.mem_cons.mp among with rfl | among
      · exact outside id member
      · exact (kept.alone id member).2 other among⟩ }

/-! ### Maintenance -/

theorem beginClosing
    (catalog : Except RegistryError (Option CatalogSpace)) (flushed : Except RegistryError Unit) :
    Kept config (registry.beginClosing id catalog flushed).1 := by
  unfold SpaceRegistry.beginClosing
  split
  next => exact kept
  next => exact kept
  next row =>
    split
    next => exact kept
    next =>
      split
      next => exact kept
      next opened =>
        split
        next => exact kept
        next unleased =>
          rw [ne_eq, not_not, kept.unleased_iff] at unleased
          have fresh : id ∉ registry.closers.map Prod.fst ++ registry.exclusive :=
            fun among => opened ((kept.closing id).mpr among)
          have inserted : ∀ other, other ∈ insert id registry.inner.closing ↔
              other ∈ id :: (registry.closers.map Prod.fst ++ registry.exclusive) := by
            intro other
            rw [Finset.mem_insert, List.mem_cons, kept.closing]
          split
          next runtime found =>
            split
            next => exact kept
            next =>
              have gone : ∀ other, (registry.inner.runtimes.erase id).get? other =
                  if other = id then none else registry.inner.runtimes.get? other :=
                fun other => Table.get?_erase
              constructor
              · have released : Budgeted config.limits ({ registry.inner with
                    closing := insert id registry.inner.closing
                    runtimes := registry.inner.runtimes.erase id }.releaseResources runtime) :=
                  kept.budgeted.release found rfl rfl rfl rfl
                exact released.of_same rfl rfl rfl rfl
              · exact kept.counted
              · intro lease member
                refine (gone lease.id).trans ?_
                rw [if_neg (unleased lease member), kept.resident lease member]
              · intro other held among
                refine kept.keyed other held ?_
                have among := (gone other).symm.trans among
                split at among
                next => cases among
                next => exact among
              · intro other
                change ((registry.inner.lastUsed.erase id).get? other).isSome =
                  ((registry.inner.runtimes.erase id).get? other).isSome
                rw [gone, Table.get?_erase]
                split
                next => rfl
                next => exact kept.used other
              · refine kept.timed.of_sub rfl fun other tick used => ?_
                change (registry.inner.lastUsed.erase id).get? other = some tick at used
                exact Table.of_get?_erase used
              · intro other member
                refine (gone other).trans ?_
                rcases Finset.mem_insert.mp member with rfl | member
                · exact if_pos rfl
                · split
                  next => rfl
                  next => exact kept.apart other member
              · exact inserted
              · exact List.nodup_cons.mpr ⟨fresh, kept.once⟩
              · intro other held among
                rcases List.mem_cons.mp among with same | among
                · cases same
                  exact kept.keyed id runtime found
                · exact kept.emptied other held among
              · exact kept.alone
          next absent =>
            constructor
            · exact kept.budgeted.of_same rfl rfl rfl rfl
            · exact kept.counted
            · exact kept.resident
            · exact kept.keyed
            · exact kept.used
            · exact kept.timed.of_sub rfl fun _ _ found => found
            · intro other member
              rcases Finset.mem_insert.mp member with rfl | member
              · exact absent
              · exact kept.apart other member
            · exact inserted
            · exact List.nodup_cons.mpr ⟨fresh, kept.once⟩
            · intro other held among
              rcases List.mem_cons.mp among with same | among
              · cases same
              · exact kept.emptied other held among
            · exact kept.alone

omit kept in
/-- A space is no longer closing when its closer or its exclusive lease is gone. -/
theorem reopen {maintained : List SpaceId} {closers : List (SpaceId × Option SpaceRuntime)}
    {exclusive : List SpaceId} (closing : ∀ other, other ∈ registry.inner.closing ↔
      other ∈ maintained) (once : maintained.Nodup)
    (perm : maintained.Perm (id :: (closers.map Prod.fst ++ exclusive))) :
    (∀ other, other ∈ registry.inner.closing.erase id ↔
      other ∈ closers.map Prod.fst ++ exclusive) ∧
      (closers.map Prod.fst ++ exclusive).Nodup := by
  obtain ⟨absent, distinct⟩ := List.nodup_cons.mp (perm.nodup_iff.mp once)
  refine ⟨fun other => ?_, distinct⟩
  rw [Finset.mem_erase, closing, perm.mem_iff, List.mem_cons]
  constructor
  · rintro ⟨different, same | among⟩
    · exact absurd same different
    · exact among
  · intro among
    refine ⟨?_, .inr among⟩
    rintro rfl
    exact absent among

theorem finishClosing {closer : SpaceId × Option SpaceRuntime}
    (member : closer ∈ registry.closers) {root lock : Except RegistryError Unit}
    (meets : Meets registry (.finishClosing closer root lock)) :
    Kept config (registry.finishClosing closer root lock).1 := by
  have perm : (registry.closers.map Prod.fst).Perm
      (closer.1 :: (registry.closers.erase closer).map Prod.fst) :=
    (List.perm_cons_erase member).map Prod.fst
  have reopened : Kept config { registry with
      closers := registry.closers.erase closer
      inner := { registry.inner with closing := registry.inner.closing.erase closer.1 } } := by
    obtain ⟨closing, once⟩ := reopen kept.closing kept.once (perm.append_right registry.exclusive)
    exact ⟨kept.budgeted.of_same rfl rfl rfl rfl, kept.counted, kept.resident, kept.keyed,
      kept.used, kept.timed.of_sub rfl fun _ _ found => found,
      fun id among => kept.apart id (Finset.mem_of_mem_erase among), closing, once,
      fun id runtime among => kept.emptied id runtime (List.mem_of_mem_erase among), kept.alone⟩
  unfold SpaceRegistry.finishClosing
  dsimp only
  split
  next => exact reopened
  next =>
    split
    next => exact reopened
    next granted =>
      split at granted
      next => cases granted
      next unlocked =>
        rw [Bool.not_eq_true] at unlocked
        have moved : (registry.closers.map Prod.fst ++ registry.exclusive).Perm
            ((registry.closers.erase closer).map Prod.fst ++ closer.1 :: registry.exclusive) :=
          (perm.append_right registry.exclusive).trans List.perm_middle.symm
        refine ⟨kept.budgeted, kept.counted, kept.resident, kept.keyed, kept.used, kept.timed,
          kept.apart, fun id => (kept.closing id).trans moved.mem_iff,
          moved.nodup_iff.mp kept.once, ?_, ?_⟩
        · exact fun id runtime among => kept.emptied id runtime (List.mem_of_mem_erase among)
        · intro id maintained
          rcases List.mem_cons.mp maintained with rfl | maintained
          · refine ⟨fun runtime among same => ?_, meets rfl granted unlocked⟩
            unfold locked at unlocked
            rw [List.any_eq_false] at unlocked
            refine unlocked runtime ?_ (decide_eq_true same)
            exact List.mem_append_left _ (List.mem_append_right _ among)
          · exact kept.alone id maintained

theorem dropExclusive (member : id ∈ registry.exclusive) :
    Kept config (registry.dropExclusive id) := by
  have perm : (registry.closers.map Prod.fst ++ registry.exclusive).Perm
      (id :: (registry.closers.map Prod.fst ++ registry.exclusive.erase id)) :=
    ((List.perm_cons_erase member).append_left _).trans List.perm_middle
  obtain ⟨closing, once⟩ := reopen kept.closing kept.once perm
  exact ⟨kept.budgeted.of_same rfl rfl rfl rfl, kept.counted, kept.resident, kept.keyed,
    kept.used, kept.timed.of_sub rfl fun _ _ found => found,
    fun id among => kept.apart id (Finset.mem_of_mem_erase among), closing, once, kept.emptied,
    fun id among => kept.alone id (List.mem_of_mem_erase among)⟩

/-- **What one step preserves.** -/
theorem step (meets : Meets registry action)
    (stepped : registry.step config action = some next) : Kept config next := by
  cases action with
  | acquire id outside =>
    cases stepped
    exact kept.acquire meets outside
  | cloneStore lease =>
    obtain ⟨member, ⟨⟩⟩ := Option.ite_none_right_eq_some.mp stepped
    exact kept.holdStore fun id maintained =>
      kept.space_of_held member (kept.closing_of_exclusive maintained)
  | cloneStoreAgain store =>
    obtain ⟨member, ⟨⟩⟩ := Option.ite_none_right_eq_some.mp stepped
    exact kept.holdStore fun id maintained => (kept.alone id maintained).2 store member
  | dropStore store =>
    obtain ⟨_, ⟨⟩⟩ := Option.ite_none_right_eq_some.mp stepped
    exact kept.dropStore
  | dropLease lease =>
    obtain ⟨member, ⟨⟩⟩ := Option.ite_none_right_eq_some.mp stepped
    exact kept.dropLease member meets
  | dropRuntime runtime =>
    obtain ⟨_, ⟨⟩⟩ := Option.ite_none_right_eq_some.mp stepped
    exact kept.dropRuntime
  | beginClosing id catalog flushed =>
    cases stepped
    exact kept.beginClosing catalog flushed
  | finishClosing closer root lock =>
    obtain ⟨member, ⟨⟩⟩ := Option.ite_none_right_eq_some.mp stepped
    exact kept.finishClosing member meets
  | dropExclusive id =>
    obtain ⟨member, ⟨⟩⟩ := Option.ite_none_right_eq_some.mp stepped
    exact kept.dropExclusive member

/-! ## Evictions -/

omit kept in
/-- What an acquisition takes out of the map, the loop has evicted. -/
theorem evicts_of_acquire (outside : Acquisition) :
    (∀ id, (registry.inner.runtimes.get? id).isSome →
      ((registry.acquire config other outside).1.inner.runtimes.get? id).isSome) ∨
    ∃ inner, Evicts config.legacyPersonalGlobal registry.inner inner ∧
      ∀ id, (registry.inner.runtimes.get? id).isSome →
        (registry.acquire config other outside).1.inner.runtimes.get? id =
          inner.runtimes.get? id := by
  unfold SpaceRegistry.acquire
  split
  next => exact .inl fun id resident => resident
  next =>
    split
    next => exact .inl fun id resident => resident
    next absent =>
      split
      next => exact .inl fun id resident => resident
      next => exact .inl fun id resident => resident
      next =>
        split
        next => exact .inl fun id resident => resident
        next =>
          split
          next => exact .inl fun id resident => resident
          next =>
            split
            next inner _ reserved =>
              exact .inr ⟨inner, reserveCapacity_evicts reserved, fun id _ => rfl⟩
            next inner _ reserved =>
              refine .inr ⟨inner, reserveCapacity_evicts reserved, fun id resident => ?_⟩
              split
              next => rfl
              next =>
                refine Table.get?_put.trans (if_neg ?_)
                rintro rfl
                rw [absent] at resident
                cases resident

theorem evictsOldest (outside : Acquisition) :
    EvictsOldest config registry (registry.acquire config other outside).1 := by
  intro id resident gone
  rcases @evicts_of_acquire config registry other outside with
    same | ⟨inner, evicts, same⟩
  · have still := same id resident
    rw [gone] at still
    cases still
  · have missing := (same id resident).symm.trans gone
    have spared : ¬ (id = config.legacyPersonalGlobal ∨ registry.inner.leasesOf id ≠ 0) := by
      intro spared
      rw [(evicts.kept id spared).1] at missing
      rw [missing] at resident
      cases resident
    push Not at spared
    refine ⟨spared.1, kept.unleased_iff.mp spared.2, ?_⟩
    intro younger resident' still notLegacy unleased
    have present := still
    rw [same younger resident', ← evicts.together kept.used] at present
    have absent : inner.lastUsed.get? id = none := by
      rw [← Option.not_isSome_iff_eq_none, evicts.together kept.used, missing]
      exact Bool.false_ne_true
    rw [← kept.used] at resident
    obtain ⟨tick, used⟩ := Option.isSome_iff_exists.mp resident
    obtain ⟨tick', used'⟩ := Option.isSome_iff_exists.mp present
    refine kept.timed.used_before used (evicts.lastUsed _ _ used')
      (evicts.oldest id tick used absent younger tick' used' notLegacy
        (kept.unleased_iff.mpr unleased)) ?_
    rintro rfl
    rw [absent] at used'
    cases used'

end Kept

/-! ## Runs -/

/-- **The registry keeps its accounts.** In every run whose closings hand out no
space of which a caller still holds a store, and which never exhausts the ticks, all
accounts are right in every state, and every acquisition evicts the least recently
used spaces. -/
theorem accounts_kept (config : RegistryConfig) (actions : List Action)
    (meets : Throughout (SpaceRegistry.step config) Meets .new actions) :
    (∀ before after reached, actions = before ++ after →
      runs (SpaceRegistry.step config) .new before = some reached → Accounted config reached) ∧
    ∀ before id outside after reached, actions = before ++ .acquire id outside :: after →
      runs (SpaceRegistry.step config) .new before = some reached →
        EvictsOldest config reached (reached.acquire config id outside).1 := by
  have kept : ∀ before after reached, actions = before ++ after →
      runs (SpaceRegistry.step config) .new before = some reached → Kept config reached := by
    rintro before after reached rfl run
    exact invariant_of_throughout Kept.new
      (fun _ _ _ kept meets stepped => kept.step meets stepped) (throughout_append.mp meets).1 run
  refine ⟨fun before after reached split run => (kept before after reached split run).accounted,
    fun before id outside after reached split run => ?_⟩
  exact (kept before _ reached split run).evictsOldest outside

/-! ## A store that outlives its lease -/

abbrev legacySpace : SpaceId := ⟨⟨0x00000000000070008000000000000001, by decide⟩, by decide⟩

abbrev teamSpace : SpaceId := ⟨⟨0x00000000000070008000000000000002, by decide⟩, by decide⟩

abbrev defaultConfig : RegistryConfig := ⟨.default, rfl, legacySpace, 2⟩

abbrev teamRow : CatalogSpace := ⟨teamSpace, .team "team:one", 1, .active, 0⟩

abbrev opens : Acquisition where
  catalog := .ok (some teamRow)
  flush _ := .ok ()
  opening := ⟨.ok (), .ok (), .ok (), .ok (), .ok (), true, .ok ()⟩

theorem accounts_kept_opens :
    Accounted defaultConfig (new.acquire defaultConfig teamSpace opens).1 ∧
      EvictsOldest defaultConfig new (new.acquire defaultConfig teamSpace opens).1 := by
  have both := accounts_kept defaultConfig [.acquire teamSpace opens]
    ⟨(by decide : 0 < usizeMax), fun _ _ => trivial⟩
  exact ⟨both.1 _ [] _ (List.append_nil _).symm rfl, both.2 [] teamSpace opens [] new rfl rfl⟩

abbrev teamRuntime : SpaceRuntime := ⟨teamRow, ⟨teamSpace, 0⟩, 3, 1⟩

/-- A caller takes the store out of its lease, drops the lease, and keeps the store
while the space is closed for maintenance. -/
abbrev keptStore : List Action :=
  [.acquire teamSpace opens, .cloneStore ⟨teamSpace, teamRuntime⟩,
    .dropLease ⟨teamSpace, teamRuntime⟩, .dropRuntime teamRuntime,
    .beginClosing teamSpace (.ok (some teamRow)) (.ok ()),
    .finishClosing (teamSpace, some teamRuntime) (.ok ()) (.ok ())]

theorem not_always_accounted : ¬ ∀ actions reached,
    runs (SpaceRegistry.step defaultConfig) new actions = some reached →
      Accounted defaultConfig reached := by
  intro always
  have run : ∃ reached, runs (SpaceRegistry.step defaultConfig) new keptStore = some reached ∧
      teamSpace ∈ reached.exclusive ∧ ⟨teamSpace, 0⟩ ∈ reached.stores := by
    decide
  obtain ⟨reached, run, maintained, kept⟩ := run
  exact ((always keptStore reached run).excluded teamSpace maintained).2 _ kept rfl

end SpaceRegistry

end OpenMemory.Daemon
