import OpenMemory.Foundation.Fallible
import OpenMemory.Foundation.Runs
import OpenMemory.Foundation.Table

/-!
# Job events and their streams

Every change of a job is numbered, stored and broadcast, one change after the other.
A client that connects is first replayed what is stored after its position, up to a
limit, and in a separate step subscribes to what is broadcast from then on.

The daemon may stop at any moment and be started again. Only steps in which the
storage does not fail are possible. The body of a job is a parameter: the registry
stores and passes it on. The log of all numbered events is an observer's, and so are
the numbers of stored events that a process found at its start; no step depends on
them.
-/

namespace OpenMemory.Daemon.JobEvents

open Foundation

variable {Body : Type}

/-! ## Jobs, events and their store -/

structure AdminJob (Body : Type) where
  id : String
  body : Body

inductive AdminEventType where
  | jobUpdated
  | warning

structure AdminEvent (Body : Type) where
  sequence : Nat
  unixSecs : UInt64
  eventType : AdminEventType
  job : Option (AdminJob Body)
  message : Option String

/-- `i64::MAX`: a greater sequence is refused by the database. -/
def maxSequence : Nat := 2 ^ 63 - 1

/-- The jobs and the events of the product database. -/
structure ProductStore (Body : Type) where
  jobs : Table String (AdminJob Body)
  events : Table Nat (AdminEvent Body)

namespace ProductStore

def empty : ProductStore Body := ⟨.empty, .empty⟩

/-- `COALESCE(MAX(sequence), 0) + 1`. -/
def nextEventSequence (store : ProductStore Body) : Nat :=
  (store.events.entries.map Prod.fst).foldr max 0 + 1

def upsertJob (store : ProductStore Body) (job : AdminJob Body) : ProductStore Body :=
  { store with jobs := store.jobs.put job.id job }

def insertEvent (store : ProductStore Body) (event : AdminEvent Body) :
    Except String (ProductStore Body) := do
  refuseIf (maxSequence < event.sequence) "out of range integral type conversion attempted"
  let events ← store.events.insert event.sequence event
    "UNIQUE constraint failed: daemon_events.sequence"
  .ok { store with events }

def eventsAfter (store : ProductStore Body) (sequence limit : Nat) :
    Except String (List (AdminEvent Body)) := do
  refuseIf (maxSequence < sequence) "out of range integral type conversion attempted"
  let later := store.events.entries.filter fun entry => sequence < entry.1
  .ok (((later.insertionSort fun first second => first.1 ≤ second.1).take limit).map Prod.snd)

end ProductStore

/-! ## The registry -/

/-- How far a change has got: it is numbered, its job is stored, its event is stored. -/
inductive Stage where
  | numbered
  | jobStored
  | eventStored
  deriving DecidableEq

/-- The change whose caller holds the order of events. -/
structure Publishing (Body : Type) where
  job : AdminJob Body
  event : AdminEvent Body
  stage : Stage

structure JobRegistry (Body : Type) where
  nextEventSequence : Nat
  jobs : Table String (AdminJob Body)
  publishing : Option (Publishing Body)
  /-- What was broadcast since the start. -/
  sent : List (AdminEvent Body)
  /-- The number of events that were stored at the start. -/
  base : Nat

namespace JobRegistry

/-- `JobRegistry::open`, with a store that can be read. -/
def openStore (store : ProductStore Body) : JobRegistry Body where
  nextEventSequence := store.nextEventSequence
  jobs := store.jobs.entries.foldl (fun jobs entry => jobs.put entry.2.id entry.2) .empty
  publishing := none
  sent := []
  base := store.events.entries.length

/-- `event_for_job_locked`, with the job in the map. -/
def numberEvent (registry : JobRegistry Body) (key : String) (job : AdminJob Body)
    (now : UInt64) : JobRegistry Body :=
  { registry with
    nextEventSequence := min (registry.nextEventSequence + 1) (2 ^ 64 - 1)
    jobs := registry.jobs.put key job
    publishing := some
      ⟨job, ⟨registry.nextEventSequence, now, .jobUpdated, some job, none⟩, .numbered⟩ }

end JobRegistry

/-! ## Streams -/

/-- The stream of one client: its position, what was replayed, and how many events
had been broadcast when it subscribed. -/
structure EventStream (Body : Type) where
  position : Nat
  replayed : List (AdminEvent Body)
  since : Option Nat

/-- What the stream yields, if its subscription does not lag. -/
def EventStream.yielded (stream : EventStream Body) (sent : List (AdminEvent Body)) :
    List (AdminEvent Body) :=
  stream.replayed ++ match stream.since with
    | none => []
    | some count => sent.drop count

def replayLimit : Nat := 256

/-- `handle_events` up to its replay. -/
def replay (store : ProductStore Body) (position : Nat) : EventStream Body where
  position := position
  replayed := match store.eventsAfter position replayLimit with
    | .ok events => events
    | .error _ => []
  since := none

/-! ## The daemon -/

structure AdminDaemon (Body : Type) where
  store : ProductStore Body
  /-- The registry of the running process. -/
  registry : Option (JobRegistry Body)
  streams : Table Nat (EventStream Body)
  clients : Nat
  /-- Every event that was numbered, in the order of the changes. -/
  effects : List (AdminEvent Body)

namespace AdminDaemon

def new : AdminDaemon Body := ⟨.empty, none, .empty, 0, []⟩

inductive Action (Body : Type) where
  | start
  | crash
  | insert (job : AdminJob Body) (now : UInt64)
  | update (id : String) (change : AdminJob Body → AdminJob Body) (now : UInt64)
  | storeJob
  | storeEvent
  | publish
  | connect (position : Nat)
  | subscribe (client : Nat)
  | close (client : Nat)

/-- A change takes effect in the map and is numbered. -/
def number (daemon : AdminDaemon Body) (registry : JobRegistry Body) (key : String)
    (job : AdminJob Body) (now : UInt64) : AdminDaemon Body :=
  { daemon with
    registry := some (registry.numberEvent key job now)
    effects := daemon.effects ++ [⟨registry.nextEventSequence, now, .jobUpdated, some job, none⟩] }

/-- One step. Changes wait for each other, and an update of a job that is not there
changes nothing. -/
def step (daemon : AdminDaemon Body) (action : Action Body) : Option (AdminDaemon Body) :=
  match action, daemon.registry with
  | .start, none => some { daemon with registry := some (.openStore daemon.store) }
  | .start, some _ => none
  | .crash, _ => some { daemon with registry := none, streams := .empty }
  | _, none => none
  | .insert job now, some registry => match registry.publishing with
      | some _ => none
      | none => some (daemon.number registry job.id job now)
  | .update id change now, some registry => match registry.publishing with
      | some _ => none
      | none => match registry.jobs.get? id with
        | none => some daemon
        | some job => some (daemon.number registry id (change job) now)
  | .storeJob, some registry => match registry.publishing with
      | some ⟨job, event, .numbered⟩ => some { daemon with
          store := daemon.store.upsertJob job
          registry := some { registry with publishing := some ⟨job, event, .jobStored⟩ } }
      | _ => none
  | .storeEvent, some registry => match registry.publishing with
      | some ⟨job, event, .jobStored⟩ => match daemon.store.insertEvent event with
        | .error _ => none
        | .ok store => some { daemon with
            store
            registry := some { registry with publishing := some ⟨job, event, .eventStored⟩ } }
      | _ => none
  | .publish, some registry => match registry.publishing with
      | some ⟨_, event, .eventStored⟩ => some { daemon with
          registry := some { registry with
            publishing := none
            sent := registry.sent ++ [event] } }
      | _ => none
  | .connect position, some _ => some { daemon with
      streams := daemon.streams.put daemon.clients (replay daemon.store position)
      clients := daemon.clients + 1 }
  | .subscribe client, some registry => match daemon.streams.get? client with
      | some ⟨position, replayed, none⟩ => some { daemon with
          streams := daemon.streams.put client ⟨position, replayed, some registry.sent.length⟩ }
      | _ => none
  | .close client, some _ => some { daemon with streams := daemon.streams.erase client }

end AdminDaemon

end OpenMemory.Daemon.JobEvents
