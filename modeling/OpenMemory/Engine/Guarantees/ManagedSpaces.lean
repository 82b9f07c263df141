import OpenMemory.Engine.SpaceManager

/-!
# Managed spaces are open at most once

As long as every held store belongs to a handle in the map, two live stores of
one space are the same, and the lock of the space is held. Dropping idle handles
is the one step that can end this: a caller who kept only the store does not
count as a reference to the handle. `managed_iff` says that nothing else can.
-/

namespace OpenMemory.Engine.Space.SpaceManager

open Foundation OpenMemory.Graph

variable {manager next : SpaceManager} {name : String} {root : SpaceRoot} {handle : SpaceHandle}
  {held : DomainStore} {action : Action}

/-- Somebody refers to the store: a caller, or a handle that somebody refers to. -/
def Alive (manager : SpaceManager) (store : DomainStore) : Prop :=
  store ∈ manager.stores ∨ (∃ handle ∈ manager.handles, handle.store = store) ∨
    ∃ name handle, manager.cached.get? name = some handle ∧ handle.store = store

/-- Managed spaces are open at most once. -/
structure Managed (manager : SpaceManager) : Prop where
  bounded : manager.cached.entries.length ≤ maxOpenSpaces
  single : ∀ store other, manager.Alive store → manager.Alive other →
    store.space = other.space → store = other
  kept : ∀ store ∈ manager.stores,
    ∃ handle, manager.cached.get? store.space = some handle ∧ handle.store = store
  locked : ∀ store, manager.Alive store → store.space ∈ manager.locks

/-- What the steps of a manager preserve. -/
structure Sound (manager : SpaceManager) : Prop where
  bounded : manager.cached.entries.length ≤ maxOpenSpaces
  keyed : ∀ name handle, manager.cached.get? name = some handle → handle.store.space = name
  outside : ∀ handle ∈ manager.handles, manager.cached.get? handle.store.space = some handle
  kept : ∀ store ∈ manager.stores,
    ∃ handle, manager.cached.get? store.space = some handle ∧ handle.store = store
  locked : ∀ name, name ∈ manager.locks ↔ ∃ handle, manager.cached.get? name = some handle
  once : manager.locks.Nodup

/-- If the map is full and a space that is not in it is opened, then no caller
holds the store of a handle that only the map refers to. -/
def Spares (manager : SpaceManager) : Action → Prop
  | .openSpace name _ | .store name _ =>
    validateSpaceName name = .ok () → manager.cached.get? name = none →
      maxOpenSpaces ≤ manager.cached.entries.length →
        ∀ other handle, manager.cached.get? other = some handle →
          manager.inUse handle = false → handle.store ∉ manager.stores
  | _ => True

/-! ## What an invariant state says -/

namespace Sound

variable (sound : Sound manager)

include sound

/-- A live store is the store of the handle in the map. -/
theorem cached_of_alive (alive : manager.Alive held) :
    ∃ handle, manager.cached.get? held.space = some handle ∧ handle.store = held := by
  rcases alive with outside | ⟨handle, outside, rfl⟩ | ⟨name, handle, found, rfl⟩
  · exact sound.kept held outside
  · exact ⟨handle, sound.outside handle outside, rfl⟩
  · exact ⟨handle, by rw [sound.keyed name handle found, found], rfl⟩

theorem managed : Managed manager where
  bounded := sound.bounded
  single store other alive alive' same := by
    obtain ⟨handle, found, rfl⟩ := sound.cached_of_alive alive
    obtain ⟨handle', found', rfl⟩ := sound.cached_of_alive alive'
    rw [← same, found] at found'
    cases found'
    rfl
  kept := sound.kept
  locked store alive := by
    obtain ⟨handle, found, _⟩ := sound.cached_of_alive alive
    exact (sound.locked store.space).mpr ⟨handle, found⟩

/-- A handle that a caller holds is in use. -/
theorem inUse_of_outside (outside : handle ∈ manager.handles) : manager.inUse handle = true := by
  have inMap : 0 < (manager.cached.entries.map Prod.snd).count handle :=
    List.count_pos_iff.mpr (List.mem_map_of_mem (f := Prod.snd)
      (Table.get?_eq_some_iff.mp (sound.outside handle outside)))
  have byCaller : 0 < manager.handles.count handle := List.count_pos_iff.mpr outside
  unfold inUse strongCount
  exact decide_eq_true (by omega)

omit sound in
theorem new : Sound new where
  bounded := Nat.zero_le _
  keyed name handle found := by cases found
  outside handle member := by cases member
  kept store member := by cases member
  locked name := by
    constructor
    · intro member
      cases member
    · rintro ⟨handle, found⟩
      cases found
  once := List.nodup_nil

/-! ## What the steps preserve -/

theorem evictIdle (spared : maxOpenSpaces ≤ manager.cached.entries.length →
      ∀ other handle, manager.cached.get? other = some handle →
        manager.inUse handle = false → handle.store ∉ manager.stores) :
    Sound manager.evictIdle := by
  unfold SpaceManager.evictIdle
  split
  next full =>
    have found_iff : ∀ name handle,
        (manager.cached.filter fun _ handle => manager.inUse handle).get? name = some handle ↔
          manager.cached.get? name = some handle ∧ manager.inUse handle = true := by
      intro name handle
      rw [Table.get?_filter, Option.filter_eq_some_iff]
    have evicted_iff : ∀ name, name ∈ (manager.cached.filter fun _ handle =>
        !manager.inUse handle).entries.map (fun entry => entry.2.store.space) ↔
          ∃ handle, manager.cached.get? name = some handle ∧ manager.inUse handle = false := by
      intro name
      rw [List.mem_map]
      constructor
      · rintro ⟨⟨other, handle⟩, member, rfl⟩
        rw [← Table.get?_eq_some_iff, Table.get?_filter, Option.filter_eq_some_iff] at member
        refine ⟨handle, ?_, by simpa using member.2⟩
        rw [sound.keyed other handle member.1, member.1]
      · rintro ⟨handle, found, free⟩
        refine ⟨(name, handle), ?_, sound.keyed name handle found⟩
        rw [← Table.get?_eq_some_iff, Table.get?_filter, Option.filter_eq_some_iff]
        exact ⟨found, by simpa using free⟩
    constructor
    · exact le_trans (List.length_filter_le _ _) sound.bounded
    · intro name handle found
      exact sound.keyed name handle ((found_iff name handle).mp found).1
    · intro handle outside
      exact (found_iff _ _).mpr ⟨sound.outside handle outside, sound.inUse_of_outside outside⟩
    · intro store outside
      obtain ⟨handle, found, rfl⟩ := sound.kept store outside
      refine ⟨handle, (found_iff _ _).mpr ⟨found, ?_⟩, rfl⟩
      by_contra free
      rw [Bool.not_eq_true] at free
      exact spared full _ handle found free outside
    · intro name
      rw [sound.once.mem_sdiff_iff, sound.locked, evicted_iff]
      constructor
      · rintro ⟨⟨handle, found⟩, notEvicted⟩
        refine ⟨handle, (found_iff _ _).mpr ⟨found, ?_⟩⟩
        by_contra free
        rw [Bool.not_eq_true] at free
        exact notEvicted ⟨handle, found, free⟩
      · rintro ⟨handle, found⟩
        obtain ⟨found, busy⟩ := (found_iff _ _).mp found
        refine ⟨⟨handle, found⟩, ?_⟩
        rintro ⟨other, found', free⟩
        rw [found] at found'
        cases found'
        rw [busy] at free
        cases free
    · exact sound.once.diff
  next => exact sound

theorem openIfRoom (absent : manager.cached.get? name = none) :
    Sound (manager.openIfRoom name root).1 := by
  unfold SpaceManager.openIfRoom
  split
  next => exact sound
  next room =>
    split
    next => exact sound
    next manifest opened =>
      have elsewhere : ∀ other, other ≠ name → ∀ handle,
          (manager.cached.put name handle).get? other = manager.cached.get? other := by
        intro other different handle
        rw [Table.get?_put, if_neg different]
      have unlocked : name ∉ manager.locks := by
        intro member
        obtain ⟨handle, found⟩ := (sound.locked name).mp member
        rw [absent] at found
        cases found
      constructor
      · dsimp only
        rw [Table.put_of_fresh absent, List.length_append, List.length_singleton]
        omega
      · intro other handle found
        dsimp only at found
        rw [Table.get?_put] at found
        split at found
        next here =>
          cases found
          exact here.symm
        next => exact sound.keyed other handle found
      · intro handle member
        rcases List.mem_cons.mp member with rfl | member
        · exact Table.get?_put.trans (if_pos rfl)
        · have found := sound.outside handle member
          refine (elsewhere _ ?_ _).trans found
          intro same
          rw [same, absent] at found
          cases found
      · intro store member
        obtain ⟨handle, found, rfl⟩ := sound.kept store member
        refine ⟨handle, (elsewhere _ ?_ _).trans found, rfl⟩
        intro same
        rw [same, absent] at found
        cases found
      · intro other
        dsimp only
        rw [List.mem_cons, Table.get?_put, sound.locked]
        by_cases here : other = name
        · simp [here]
        · simp [here]
      · exact List.nodup_cons.mpr ⟨unlocked, sound.once⟩

/-- A caller clones the reference to a handle in the map. -/
theorem hold (found : manager.cached.get? handle.store.space = some handle) :
    Sound { manager with handles := handle :: manager.handles } where
  bounded := sound.bounded
  keyed := sound.keyed
  outside other member := by
    rcases List.mem_cons.mp member with rfl | member
    · exact found
    · exact sound.outside other member
  kept := sound.kept
  locked := sound.locked
  once := sound.once

/-- A caller clones the reference to the store of a handle in the map. -/
theorem holdStore
    (found : manager.cached.get? held.space = some handle) (same : handle.store = held) :
    Sound { manager with stores := held :: manager.stores } where
  bounded := sound.bounded
  keyed := sound.keyed
  outside := sound.outside
  kept other member := by
    rcases List.mem_cons.mp member with rfl | member
    · exact ⟨handle, found, same⟩
    · exact sound.kept other member
  locked := sound.locked
  once := sound.once

theorem openSpace (spared : Spares manager (.openSpace name root)) :
    Sound (manager.openSpace name root).1 := by
  unfold SpaceManager.openSpace
  split
  next => exact sound
  next valid =>
    split
    next handle found =>
      exact sound.hold (by rw [sound.keyed name handle found, found])
    next absent =>
      refine (sound.evictIdle (spared valid absent)).openIfRoom ?_
      unfold SpaceManager.evictIdle
      split
      · rw [Table.get?_filter, absent]
        rfl
      · exact absent

omit sound in
/-- The caller of `openSpace` holds the handle it receives. -/
theorem mem_of_openSpace (opened : manager.openSpace name root = (next, .ok handle)) :
    handle ∈ next.handles := by
  unfold SpaceManager.openSpace at opened
  split at opened
  next => cases opened
  next =>
    split at opened
    next found =>
      cases opened
      exact List.mem_cons_self
    next =>
      unfold SpaceManager.openIfRoom at opened
      split at opened
      next => cases opened
      next =>
        split at opened
        next => cases opened
        next =>
          cases opened
          exact List.mem_cons_self

theorem cloneStore (member : handle ∈ manager.handles) : Sound (manager.cloneStore handle) :=
  sound.holdStore (sound.outside handle member) rfl

/-- The map still refers to a handle that a caller drops. -/
theorem dropHandle (member : handle ∈ manager.handles) : Sound (manager.dropHandle handle) := by
  have inMap : 0 < (manager.cached.entries.map Prod.snd).count handle :=
    List.count_pos_iff.mpr (List.mem_map_of_mem (f := Prod.snd)
      (Table.get?_eq_some_iff.mp (sound.outside handle member)))
  unfold SpaceManager.dropHandle
  dsimp only
  rw [if_neg (by unfold strongCount; dsimp only; omega)]
  exact ⟨sound.bounded, sound.keyed,
    fun other among => sound.outside other (List.mem_of_mem_erase among), sound.kept,
    sound.locked, sound.once⟩

theorem dropStore : Sound (manager.dropStore held) :=
  ⟨sound.bounded, sound.keyed, sound.outside,
    fun other among => sound.kept other (List.mem_of_mem_erase among), sound.locked, sound.once⟩

theorem store (spared : Spares manager (.store name root)) : Sound (manager.store name root).1 := by
  have opened : Sound (manager.openSpace name root).1 := sound.openSpace spared
  unfold SpaceManager.store
  split
  next result => rwa [result] at opened
  next later handle result =>
    rw [result] at opened
    have member : handle ∈ later.handles := mem_of_openSpace result
    exact (opened.cloneStore member).dropHandle member

/-- **What one step preserves.** -/
theorem step (spared : Spares manager action)
    (stepped : manager.step action = some next) : Sound next := by
  cases action with
  | openSpace name root =>
    cases stepped
    exact sound.openSpace spared
  | store name root =>
    cases stepped
    exact sound.store spared
  | cloneHandle handle =>
    obtain ⟨member, ⟨⟩⟩ := Option.ite_none_right_eq_some.mp stepped
    exact sound.hold (sound.outside handle member)
  | cloneStore handle =>
    obtain ⟨member, ⟨⟩⟩ := Option.ite_none_right_eq_some.mp stepped
    exact sound.cloneStore member
  | cloneStoreAgain store =>
    obtain ⟨member, ⟨⟩⟩ := Option.ite_none_right_eq_some.mp stepped
    obtain ⟨handle, found, same⟩ := sound.kept store member
    exact sound.holdStore found same
  | dropHandle handle =>
    obtain ⟨member, ⟨⟩⟩ := Option.ite_none_right_eq_some.mp stepped
    exact sound.dropHandle member
  | dropStore store =>
    obtain ⟨member, ⟨⟩⟩ := Option.ite_none_right_eq_some.mp stepped
    exact sound.dropStore

end Sound

/-! ## What the steps may not do -/

/-- At the bound, a handle that only the map refers to leaves it. -/
theorem openSpace_evicts (valid : validateSpaceName name = .ok ())
    (absent : manager.cached.get? name = none)
    (full : maxOpenSpaces ≤ manager.cached.entries.length) {other : String}
    (found : manager.cached.get? other = some handle) (free : manager.inUse handle = false) :
    (manager.openSpace name root).1.cached.get? other = none := by
  have gone : manager.evictIdle.cached.get? other = none := by
    unfold evictIdle
    rw [if_pos full, Table.get?_filter, found]
    simp [free]
  have different : other ≠ name := by
    rintro rfl
    rw [absent] at found
    cases found
  unfold openSpace
  rw [valid, absent]
  dsimp only
  unfold openIfRoom
  split
  next => exact gone
  next =>
    split
    next => exact gone
    next => exact (Table.get?_put.trans (if_neg different)).trans gone

theorem evictIdle_stores : manager.evictIdle.stores = manager.stores := by
  unfold evictIdle
  split <;> rfl

theorem openIfRoom_stores : (manager.openIfRoom name root).1.stores = manager.stores := by
  unfold openIfRoom
  split
  next => rfl
  next => split <;> rfl

theorem openSpace_stores : (manager.openSpace name root).1.stores = manager.stores := by
  unfold openSpace
  split
  next => rfl
  next =>
    split
    next => rfl
    next => rw [openIfRoom_stores, evictIdle_stores]

theorem store_cached : (manager.store name root).1.cached =
    (manager.openSpace name root).1.cached := by
  unfold store
  split
  next result => rw [result]
  next result =>
    rw [result]
    unfold dropHandle
    dsimp only
    split <;> rfl

theorem mem_stores_of_store (member : held ∈ manager.stores) :
    held ∈ (manager.store name root).1.stores := by
  rw [← @openSpace_stores manager name root] at member
  unfold store
  split
  next result =>
    rw [result] at member
    exact member
  next result =>
    rw [result] at member
    unfold dropHandle cloneStore
    dsimp only
    split <;> exact List.mem_cons_of_mem _ member

/-- Spaces are managed after a step only if the step spares the held stores. -/
theorem Sound.spares (sound : Sound manager)
    (managed : ∀ next, manager.step action = some next → Managed next) :
    Spares manager action := by
  have refuted : ∀ {name root later}, (∀ store ∈ manager.stores, store ∈ later.stores) →
      later.cached = (manager.openSpace name root).1.cached → Managed later →
        Spares manager (.openSpace name root) := by
    intro name root later kept same managed valid absent full other handle found free outside
    obtain ⟨handle', found', _⟩ := managed.kept handle.store (kept _ outside)
    rw [same, sound.keyed other handle found,
      openSpace_evicts valid absent full found free] at found'
    cases found'
  cases action with
  | openSpace name root =>
    exact refuted (fun store member => by rwa [openSpace_stores]) rfl (managed _ rfl)
  | store name root =>
    exact refuted (fun store member => mem_stores_of_store member) store_cached (managed _ rfl)
  | _ => trivial

theorem Sound.run {actions : List Action} (sound : Sound manager)
    (spared : Throughout SpaceManager.step Spares manager actions)
    (run : runs SpaceManager.step manager actions = some next) : Sound next :=
  invariant_of_throughout sound (fun _ _ _ sound spared stepped => sound.step spared stepped)
    spared run

theorem Sound.throughout {actions : List Action} (sound : Sound manager)
    (managed : ∀ before after reached, actions = before ++ after →
      runs SpaceManager.step manager before = some reached → Managed reached) :
    Throughout SpaceManager.step Spares manager actions := by
  induction actions generalizing manager with
  | nil => trivial
  | cons action rest ih =>
    have spared : Spares manager action := by
      refine sound.spares fun next stepped => managed [action] rest next rfl ?_
      exact runs_singleton.trans stepped
    refine ⟨spared, fun next stepped => ih (sound.step spared stepped) ?_⟩
    intro before after reached split run
    exact managed (action :: before) after reached (by rw [split]; rfl)
      (runs_cons.mpr ⟨next, stepped, run⟩)

/-- **Managed spaces.** Spaces are open at most once in every state along a list
of actions exactly when, each time a space is opened at the bound, no caller
holds the store of a handle that nobody else refers to. -/
theorem managed_iff (actions : List Action) :
    (∀ before after reached, actions = before ++ after →
      runs step new before = some reached → Managed reached) ↔
      Throughout step Spares new actions := by
  constructor
  · exact Sound.new.throughout
  · rintro spared before after reached rfl run
    exact (Sound.new.run (throughout_append.mp spared).1 run).managed

/-! ## A store that is opened twice -/

abbrev goodRoot (name : String) : SpaceRoot where
  entry := .directory
  manifest := .ok ⟨⟨⟨0x00000000000070008000000000000000, by decide⟩, by decide⟩, name, 0⟩
  lock := .ok ()
  domains := .ok ()
  bound _ := .ok ()

/-- A caller keeps the store of one space and no handle. Seven other spaces fill
the map, an eighth empties it, and the first space is opened again. -/
abbrev reopening : List Action :=
  ["s0", "s1", "s2", "s3", "s4", "s5", "s6", "s7", "s8", "s0"].map fun name =>
    .store name (goodRoot name)

/-- At the end two stores of the first space are alive. -/
theorem not_always_managed : ¬ ∀ actions reached,
    runs step new actions = some reached → Managed reached := by
  intro always
  have run : ∃ reached, runs step new reopening = some reached ∧
      ⟨"s0", 0⟩ ∈ reached.stores ∧ ⟨"s0", 9⟩ ∈ reached.stores := by
    decide
  obtain ⟨reached, run, first, second⟩ := run
  have same := (always reopening reached run).single _ _ (.inl first) (.inl second) rfl
  cases same

end OpenMemory.Engine.Space.SpaceManager
