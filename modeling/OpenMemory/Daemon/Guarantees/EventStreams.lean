import OpenMemory.Daemon.JobEvents

/-!
# Event streams lose and repeat nothing

Stored events are numbered without gaps in the order of the changes, across starts
and stops of the daemon. A stream yields every event after its position once and in
order, if the replay holds what is published at the moment of the subscription: a
replay that was cut off, an event published in between, and an event that was stored
before the replay and is broadcast after the subscription are the ways to miss or to
repeat one.
-/

namespace OpenMemory.Daemon.JobEvents

open Foundation

variable {Body : Type}

/-- The stored events, in the order they were stored. -/
def ProductStore.stored (store : ProductStore Body) : List (AdminEvent Body) :=
  store.events.entries.map Prod.snd

/-- What a process has published: what it found stored, and what it has broadcast. -/
def JobRegistry.published (registry : JobRegistry Body) (store : ProductStore Body) :
    List (AdminEvent Body) :=
  store.stored.take registry.base ++ registry.sent

/-- The event comes after the position. -/
def AdminEvent.after (position : Nat) (event : AdminEvent Body) : Bool :=
  position < event.sequence

/-! ## The store -/

theorem foldr_max_range' (count bound : Nat) :
    (List.range' 1 count).foldr max bound = max count bound := by
  induction count generalizing bound with
  | zero => simp
  | succ count ih =>
    rw [List.range'_1_concat, List.foldr_append, List.foldr_cons, List.foldr_nil, ih]
    omega

/-- Events are stored under their own numbers, which have no gaps. -/
structure ProductStore.Numbered (store : ProductStore Body) : Prop where
  keys : store.events.entries.map Prod.fst = List.range' 1 store.events.entries.length
  own : ∀ entry ∈ store.events.entries, entry.2.sequence = entry.1
  bounded : store.events.entries.length ≤ maxSequence

namespace ProductStore.Numbered

variable {store later : ProductStore Body} {event : AdminEvent Body}

theorem sequences (numbered : store.Numbered) :
    store.stored.map AdminEvent.sequence = List.range' 1 store.stored.length := by
  unfold ProductStore.stored
  rw [List.map_map, List.length_map, ← numbered.keys]
  exact List.map_congr_left numbered.own

theorem nextEventSequence (numbered : store.Numbered) :
    store.nextEventSequence = store.events.entries.length + 1 := by
  unfold ProductStore.nextEventSequence
  rw [numbered.keys, foldr_max_range', Nat.max_zero]

theorem stored_length : store.stored.length = store.events.entries.length := List.length_map _

/-- The next event is stored after the others. -/
theorem insertEvent (numbered : store.Numbered)
    (next : event.sequence = store.events.entries.length + 1)
    (inserted : store.insertEvent event = .ok later) :
    later.Numbered ∧ later.stored = store.stored ++ [event] := by
  unfold ProductStore.insertEvent at inserted
  obtain ⟨_, small, inserted⟩ := bind_eq_ok.mp inserted
  obtain ⟨events, added, finished⟩ := bind_eq_ok.mp inserted
  cases finished
  rw [refuseIf_eq_ok] at small
  obtain ⟨_, entries⟩ := Table.insert_eq_ok_iff.mp added
  refine ⟨⟨?_, ?_, ?_⟩, ?_⟩
  · dsimp only
    rw [entries, List.map_append, List.length_append, numbered.keys, List.length_singleton,
      List.range'_1_concat, List.map_singleton, next, Nat.add_comm 1]
  · intro entry member
    dsimp only at member
    rw [entries, List.mem_append, List.mem_singleton] at member
    rcases member with member | rfl
    · exact numbered.own entry member
    · rfl
  · dsimp only
    rw [entries, List.length_append, List.length_singleton]
    omega
  · unfold ProductStore.stored
    dsimp only
    rw [entries, List.map_append, List.map_singleton]

/-- A replay yields the stored events after the position, up to the limit. -/
theorem replayed (numbered : store.Numbered) (position : Nat) :
    (replay store position).replayed =
      (store.stored.filter (AdminEvent.after position)).take replayLimit := by
  have sorted : (store.events.entries.filter fun entry => position < entry.1).Pairwise
      fun first second => first.1 ≤ second.1 := by
    have ascending : (List.range' 1 store.events.entries.length).Pairwise (· ≤ ·) :=
      List.pairwise_le_range'
    rw [← numbered.keys, List.pairwise_map] at ascending
    exact ascending.filter _
  have same : (store.events.entries.filter fun entry => decide (position < entry.1)).map
      Prod.snd = store.stored.filter (AdminEvent.after position) := by
    unfold ProductStore.stored
    rw [List.filter_map]
    refine congrArg _ (List.filter_congr fun entry member => ?_)
    unfold Function.comp AdminEvent.after
    rw [numbered.own entry member]
  unfold replay ProductStore.eventsAfter
  dsimp only
  by_cases beyond : maxSequence < position
  · rw [refuseIf_pos beyond, ← same, List.filter_eq_nil_iff.mpr]
    · rfl
    · intro entry member
      have key : entry.1 ∈ List.range' 1 store.events.entries.length := by
        rw [← numbered.keys]
        exact List.mem_map_of_mem member
      have bounded := numbered.bounded
      rw [List.mem_range'_1] at key
      rw [decide_eq_true_iff]
      omega
  · rw [refuseIf_neg beyond]
    change ((List.insertionSort _ _).take replayLimit).map Prod.snd = _
    rw [sorted.insertionSort_eq, List.map_take, same]

end ProductStore.Numbered

/-! ## The registry -/

/-- Where the change under way stands, relative to what is stored and broadcast. -/
inductive JobRegistry.Stands (store : ProductStore Body) (registry : JobRegistry Body) : Prop
  | idle (none : registry.publishing = none)
      (next : registry.nextEventSequence = store.stored.length + 1)
      (sent : store.stored = registry.published store)
  | numbered (job : AdminJob Body) (event : AdminEvent Body) (stage : Stage)
      (under : registry.publishing = some ⟨job, event, stage⟩) (early : stage ≠ .eventStored)
      (own : event.sequence = store.stored.length + 1)
      (next : registry.nextEventSequence = store.stored.length + 2)
      (sent : store.stored = registry.published store)
  | eventStored (job : AdminJob Body) (event : AdminEvent Body)
      (under : registry.publishing = some ⟨job, event, .eventStored⟩)
      (next : registry.nextEventSequence = store.stored.length + 1)
      (sent : store.stored = registry.published store ++ [event])

/-- The event of a change that is numbered and not stored yet. -/
def JobRegistry.unstored (registry : JobRegistry Body) : List (AdminEvent Body) :=
  match registry.publishing with
  | some ⟨_, event, .numbered⟩ | some ⟨_, event, .jobStored⟩ => [event]
  | _ => []

/-- A stream has replayed a first part of what is stored after its position, and a
subscribed one what was published when it subscribed. -/
structure EventStream.CaughtUp (stream : EventStream Body) (store : ProductStore Body)
    (registry : JobRegistry Body) : Prop where
  part : stream.replayed <+: store.stored.filter (AdminEvent.after stream.position)
  subscribed : ∀ count, stream.since = some count → count ≤ registry.sent.length ∧
    stream.replayed = (store.stored.take registry.base ++ registry.sent.take count).filter
      (AdminEvent.after stream.position)

variable {job : AdminJob Body}

namespace AdminDaemon

variable {daemon next : AdminDaemon Body} {registry : JobRegistry Body} {action : Action Body}

/-! ## What is claimed -/

/-- What the stream yields after its position is what is published after it. -/
def Delivers (daemon : AdminDaemon Body) (registry : JobRegistry Body)
    (stream : EventStream Body) : Prop :=
  (stream.yielded registry.sent).filter (AdminEvent.after stream.position) =
    (registry.published daemon.store).filter (AdminEvent.after stream.position)

/-- Stored events are numbered without gaps in the order of the changes, all of them
are published but the one that is just being published, and streams deliver. -/
structure Orderly (daemon : AdminDaemon Body) : Prop where
  sequences : daemon.store.stored.map AdminEvent.sequence = List.range' 1 daemon.store.stored.length
  ordered : daemon.store.stored.Sublist daemon.effects
  published : ∀ registry, daemon.registry = some registry →
    daemon.store.stored = registry.published daemon.store ∨
      ∃ job event, registry.publishing = some ⟨job, event, .eventStored⟩ ∧
        daemon.store.stored = registry.published daemon.store ++ [event]
  delivers : ∀ registry client stream, daemon.registry = some registry →
    daemon.streams.get? client = some stream → stream.since ≠ none → daemon.Delivers registry stream

/-- A client that subscribes was replayed as many events as are published after its
position at that moment. -/
def Meets (daemon : AdminDaemon Body) : Action Body → Prop
  | .subscribe client => ∀ registry stream, daemon.registry = some registry →
      daemon.streams.get? client = some stream → stream.since = none →
        stream.replayed.length =
          ((registry.published daemon.store).filter (AdminEvent.after stream.position)).length
  | _ => True

/-! ## What the steps preserve -/

structure Kept (daemon : AdminDaemon Body) : Prop where
  numbered : daemon.store.Numbered
  base : ∀ registry, daemon.registry = some registry → registry.base ≤ daemon.store.stored.length
  stands : ∀ registry, daemon.registry = some registry → registry.Stands daemon.store
  ordered : ∀ registry, daemon.registry = some registry →
    (daemon.store.stored ++ registry.unstored).Sublist daemon.effects
  stopped : daemon.registry = none → daemon.store.stored.Sublist daemon.effects
  streams : ∀ registry client stream, daemon.registry = some registry →
    daemon.streams.get? client = some stream → stream.CaughtUp daemon.store registry
  alone : daemon.registry = none → daemon.streams = .empty

variable {event : AdminEvent Body}

namespace Kept

theorem new : Kept (new : AdminDaemon Body) where
  numbered := ⟨rfl, fun entry member => (by cases member), Nat.zero_le _⟩
  base registry running := by cases running
  stands registry running := by cases running
  ordered registry running := by cases running
  stopped _ := List.nil_sublist _
  streams registry client stream running := by cases running
  alone _ := rfl

theorem stored_sublist (kept : Kept daemon) : daemon.store.stored.Sublist daemon.effects := by
  cases running : daemon.registry with
  | none => exact kept.stopped running
  | some registry => exact (List.sublist_append_left _ _).trans (kept.ordered registry running)

theorem orderly (kept : Kept daemon) : Orderly daemon where
  sequences := kept.numbered.sequences
  ordered := kept.stored_sublist
  published registry running := by
    cases kept.stands registry running with
    | idle _ _ sent => exact .inl sent
    | numbered _ _ _ _ _ _ _ sent => exact .inl sent
    | eventStored job event under _ sent => exact .inr ⟨job, event, under, sent⟩
  delivers registry client stream running found subscribed := by
    obtain ⟨count, since⟩ := Option.ne_none_iff_exists'.mp subscribed
    obtain ⟨_, replayed⟩ :=
      (kept.streams registry client stream running found).subscribed count since
    unfold Delivers EventStream.yielded JobRegistry.published
    rw [since, replayed, List.filter_append, List.filter_filter]
    simp only [Bool.and_self]
    rw [← List.filter_append, List.append_assoc, List.take_append_drop]

section

variable (running : daemon.registry = some registry) (kept : Kept daemon)

include running kept

/-- What is published is a first part of what is stored. -/
theorem published_prefix : registry.published daemon.store <+: daemon.store.stored := by
  cases kept.stands registry running with
  | idle _ _ sent => exact sent ▸ List.prefix_rfl
  | numbered _ _ _ _ _ _ _ sent => exact sent ▸ List.prefix_rfl
  | eventStored _ event _ _ sent => exact ⟨[event], sent.symm⟩

/-- The process goes on, and events are stored and sent after the others. -/
theorem of_running
    {store : ProductStore Body} {later : JobRegistry Body} {effects : List (AdminEvent Body)}
    (numbered : store.Numbered) (base : later.base = registry.base)
    (stored : daemon.store.stored <+: store.stored)
    (sent : registry.sent <+: later.sent) (stands : later.Stands store)
    (ordered : (store.stored ++ later.unstored).Sublist effects) :
    Kept { daemon with store, registry := some later, effects } where
  numbered := numbered
  base registry' running' := by
    cases running'
    rw [base]
    exact (kept.base registry running).trans stored.length_le
  stands registry' running' := by
    cases running'
    exact stands
  ordered registry' running' := by
    cases running'
    exact ordered
  stopped stopped := by cases stopped
  streams registry' client stream running' found := by
    cases running'
    have caught := kept.streams registry client stream running found
    refine ⟨caught.part.trans (stored.filter _), fun count since => ?_⟩
    obtain ⟨bound, replayed⟩ := caught.subscribed count since
    refine ⟨bound.trans sent.length_le, ?_⟩
    obtain ⟨newer, stored⟩ := stored
    obtain ⟨more, sent⟩ := sent
    rw [replayed, base, ← sent, ← stored, List.take_append_of_le_length bound,
      List.take_append_of_le_length (kept.base registry running)]
  alone stopped := by cases stopped

theorem number
    (idle : registry.publishing = none) (key : String) (job : AdminJob Body) (now : UInt64) :
    Kept (daemon.number registry key job now) := by
  have ordered := kept.ordered registry running
  cases kept.stands registry running with
  | numbered _ _ _ under =>
    rw [idle] at under
    cases under
  | eventStored _ _ under =>
    rw [idle] at under
    cases under
  | idle _ next sent =>
    refine kept.of_running running kept.numbered rfl List.prefix_rfl List.prefix_rfl ?_ ?_
    · refine .numbered job _ .numbered rfl (by decide) next ?_ sent
      change min (registry.nextEventSequence + 1) (2 ^ 64 - 1) = _
      have bounded := kept.numbered.bounded
      rw [← ProductStore.Numbered.stored_length] at bounded
      unfold maxSequence at bounded
      rw [next]
      omega
    · unfold JobRegistry.unstored at ordered
      rw [idle, List.append_nil] at ordered
      exact ordered.append (List.Sublist.refl _)

omit running in
theorem start (stopped : daemon.registry = none) :
    Kept { daemon with registry := some (.openStore daemon.store) } where
  numbered := kept.numbered
  base registry running := by
    cases running
    exact le_of_eq ProductStore.Numbered.stored_length.symm
  stands registry running := by
    cases running
    refine .idle rfl ?_ ?_
    · exact kept.numbered.nextEventSequence.trans
        (congrArg (· + 1) ProductStore.Numbered.stored_length.symm)
    · change daemon.store.stored = daemon.store.stored.take daemon.store.events.entries.length ++ []
      rw [← ProductStore.Numbered.stored_length, List.take_length, List.append_nil]
  ordered registry running := by
    cases running
    exact (List.append_nil _).symm ▸ kept.stopped stopped
  stopped impossible := by cases impossible
  streams registry client stream running found := by
    rw [kept.alone stopped] at found
    cases found
  alone impossible := by cases impossible

omit running in
theorem crash : Kept { daemon with registry := none, streams := .empty } where
  numbered := kept.numbered
  base registry running := by cases running
  stands registry running := by cases running
  ordered registry running := by cases running
  stopped _ := kept.stored_sublist
  streams registry client stream running := by cases running
  alone _ := rfl

theorem storeJob (under : registry.publishing = some ⟨job, event, .numbered⟩) : Kept { daemon with
      store := daemon.store.upsertJob job
      registry := some { registry with publishing := some ⟨job, event, .jobStored⟩ } } := by
  have ordered := kept.ordered registry running
  cases kept.stands registry running with
  | idle none =>
    rw [none] at under
    cases under
  | eventStored _ _ under' =>
    rw [under'] at under
    cases under
  | numbered _ _ _ under' _ own next sent =>
    rw [under'] at under
    cases under
    refine kept.of_running running ⟨kept.numbered.keys, kept.numbered.own,
      kept.numbered.bounded⟩ rfl List.prefix_rfl List.prefix_rfl
      (.numbered job event .jobStored rfl (by decide) own next sent) ?_
    unfold JobRegistry.unstored at ordered
    rw [under'] at ordered
    exact ordered

theorem storeEvent
    {store : ProductStore Body} (under : registry.publishing = some ⟨job, event, .jobStored⟩)
    (inserted : daemon.store.insertEvent event = .ok store) : Kept { daemon with
      store
      registry := some { registry with publishing := some ⟨job, event, .eventStored⟩ } } := by
  have ordered := kept.ordered registry running
  have base := kept.base registry running
  cases kept.stands registry running with
  | idle none =>
    rw [none] at under
    cases under
  | eventStored _ _ under' =>
    rw [under'] at under
    cases under
  | numbered _ _ _ under' _ own next sent =>
    rw [under'] at under
    cases under
    rw [ProductStore.Numbered.stored_length] at own
    obtain ⟨numbered, stored⟩ := kept.numbered.insertEvent own inserted
    have grown : daemon.store.stored <+: store.stored := ⟨[event], stored.symm⟩
    refine kept.of_running running numbered rfl grown List.prefix_rfl ?_ ?_
    · refine .eventStored job event rfl ?_ ?_
      · rw [stored, List.length_append, List.length_singleton]
        exact next
      · unfold JobRegistry.published at sent ⊢
        dsimp only
        rw [stored, List.take_append_of_le_length base, ← sent]
    · unfold JobRegistry.unstored at ordered ⊢
      rw [under'] at ordered
      rw [stored, List.append_nil]
      exact ordered

theorem publish (under : registry.publishing = some ⟨job, event, .eventStored⟩) : Kept { daemon with
      registry := some { registry with publishing := none, sent := registry.sent ++ [event] } } := by
  have ordered := kept.ordered registry running
  cases kept.stands registry running with
  | idle none =>
    rw [none] at under
    cases under
  | numbered _ _ _ under' early =>
    rw [under'] at under
    cases under
    exact absurd rfl early
  | eventStored _ _ under' next sent =>
    rw [under'] at under
    cases under
    refine kept.of_running running kept.numbered rfl List.prefix_rfl
      (List.prefix_append _ _) (.idle rfl next ?_) ?_
    · rw [sent]
      unfold JobRegistry.published
      rw [List.append_assoc]
    · unfold JobRegistry.unstored at ordered
      rw [under'] at ordered
      exact ordered

theorem of_streams {streams : Table Nat (EventStream Body)} {clients : Nat}
    (caught : ∀ client stream, streams.get? client = some stream →
      stream.CaughtUp daemon.store registry) : Kept { daemon with streams, clients } where
  numbered := kept.numbered
  base := kept.base
  stands := kept.stands
  ordered := kept.ordered
  stopped := kept.stopped
  streams registry' client stream running' found := by
    rw [show daemon.registry = some registry' from running'] at running
    cases running
    exact caught client stream found
  alone stopped := by
    rw [show daemon.registry = none from stopped] at running
    cases running

theorem caught {client : Nat}
    {stream : EventStream Body} (found : daemon.streams.get? client = some stream) :
    stream.CaughtUp daemon.store registry :=
  kept.streams registry client stream running found

/-- A new stream has not subscribed yet. -/
theorem connect (position : Nat) : Kept { daemon with
      streams := daemon.streams.put daemon.clients (replay daemon.store position)
      clients := daemon.clients + 1 } := by
  refine kept.of_streams running fun client stream found => ?_
  rcases Table.of_get?_put found with rfl | found
  · refine ⟨?_, fun count since => (by cases since)⟩
    rw [kept.numbered.replayed]
    exact List.take_prefix _ _
  · exact kept.caught running found

theorem subscribe {client : Nat}
    (meets : Meets daemon (.subscribe client)) {position : Nat} {replayed : List (AdminEvent Body)}
    (waiting : daemon.streams.get? client = some ⟨position, replayed, none⟩) : Kept { daemon with
      streams := daemon.streams.put client ⟨position, replayed, some registry.sent.length⟩ } := by
  refine kept.of_streams running fun other stream found => ?_
  rcases Table.of_get?_put found with rfl | found
  · have part := (kept.caught running waiting).part
    refine ⟨part, fun count since => ?_⟩
    cases since
    have same : replayed = (registry.published daemon.store).filter (AdminEvent.after position) :=
      (List.prefix_of_prefix_length_le part ((kept.published_prefix running).filter _)
        (meets registry _ running waiting rfl).le).eq_of_length
          (meets registry _ running waiting rfl)
    unfold JobRegistry.published at same
    rw [List.take_length]
    exact ⟨le_rfl, same⟩
  · exact kept.caught running found

theorem close (client : Nat) : Kept { daemon with streams := daemon.streams.erase client } := by
  refine kept.of_streams running fun other stream found => ?_
  rw [Table.get?_erase] at found
  exact kept.caught running (Option.ite_none_left_eq_some.mp found).2

end

theorem step (kept : Kept daemon) (meets : Meets daemon action)
    (stepped : daemon.step action = some next) : Kept next := by
  cases running : daemon.registry with
  | none =>
    unfold AdminDaemon.step at stepped
    rw [running] at stepped
    cases action <;> cases stepped
    · exact kept.start running
    · exact kept.crash
  | some registry =>
    unfold AdminDaemon.step at stepped
    rw [running] at stepped
    cases action with
    | start => cases stepped
    | crash =>
      cases stepped
      exact kept.crash
    | insert job now =>
      dsimp only at stepped
      split at stepped
      next => cases stepped
      next idle =>
        cases stepped
        exact kept.number running idle job.id job now
    | update id change now =>
      dsimp only at stepped
      split at stepped
      next => cases stepped
      next idle =>
        split at stepped
        next =>
          cases stepped
          exact kept
        next job _ =>
          cases stepped
          exact kept.number running idle id (change job) now
    | storeJob =>
      dsimp only at stepped
      split at stepped
      next job event under =>
        cases stepped
        exact kept.storeJob running under
      next => cases stepped
    | storeEvent =>
      dsimp only at stepped
      split at stepped
      next job event under =>
        split at stepped
        next => cases stepped
        next store inserted =>
          cases stepped
          exact kept.storeEvent running under inserted
      next => cases stepped
    | publish =>
      dsimp only at stepped
      split at stepped
      next job event under =>
        cases stepped
        exact kept.publish running under
      next => cases stepped
    | connect position =>
      cases stepped
      have kept := kept.connect running position
      rw [running] at kept
      exact kept
    | subscribe client =>
      dsimp only at stepped
      split at stepped
      next position replayed waiting =>
        cases stepped
        have kept := kept.subscribe running meets waiting
        rw [running] at kept
        exact kept
      next => cases stepped
    | close client =>
      cases stepped
      have kept := kept.close running client
      rw [running] at kept
      exact kept

end Kept

/-! ## Runs -/

/-- **Streams lose and repeat nothing.** In every run in which each client that
subscribes was replayed as many events as are published after its position, every
state is orderly. -/
theorem streams_deliver (actions : List (Action Body))
    (meets : Throughout AdminDaemon.step Meets new actions) (before after : List (Action Body))
    (reached : AdminDaemon Body) (split : actions = before ++ after)
    (run : runs AdminDaemon.step new before = some reached) : Orderly reached := by
  subst split
  have kept : Kept reached := invariant_of_throughout Kept.new
    (fun _ _ _ kept meets stepped => kept.step meets stepped) (throughout_append.mp meets).1 run
  exact kept.orderly

/-! ## A client that subscribes too late -/

abbrev queued : AdminJob Unit := ⟨"job", ()⟩

/-- A client connects and subscribes while nothing happens, and a job is inserted. -/
abbrev inTime : List (Action Unit) :=
  [.start, .connect 0, .subscribe 0, .insert queued 0, .storeJob, .storeEvent, .publish]

theorem streams_deliver_inTime : ∃ reached, runs AdminDaemon.step new inTime = some reached ∧
    Orderly reached := by
  refine ⟨_, rfl, streams_deliver inTime ?_ inTime [] _ (List.append_nil _).symm rfl⟩
  refine ⟨trivial, fun started stepped => ?_⟩
  cases stepped
  refine ⟨trivial, fun connected stepped => ?_⟩
  cases stepped
  refine ⟨?_, fun _ _ => ⟨trivial, fun _ _ => ⟨trivial, fun _ _ => ⟨trivial, fun _ _ =>
    ⟨trivial, fun _ _ => trivial⟩⟩⟩⟩⟩
  intro registry stream running found _
  cases running
  cases found
  rfl

/-- A job is inserted between the replay of a client and its subscription. -/
abbrev tooLate : List (Action Unit) :=
  [.start, .connect 0, .insert queued 0, .storeJob, .storeEvent, .publish, .subscribe 0]

theorem not_always_orderly : ¬ ∀ (actions : List (Action Unit)) reached,
    runs AdminDaemon.step new actions = some reached → Orderly reached := by
  intro always
  have lost := (always tooLate _ rfl).delivers _ 0 _ rfl rfl (by decide)
  cases congrArg List.length lost

end AdminDaemon

end OpenMemory.Daemon.JobEvents
