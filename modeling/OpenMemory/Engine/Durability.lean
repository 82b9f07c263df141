import OpenMemory.Foundation.Runs
import OpenMemory.Graph.Types

/-!
# Waiting for a ticket to become durable

A waiter checks the durability watermark of its shard while it holds the mutex
of the failure map, and parks on the condition variable `completed`, which
releases the mutex, when its ticket lies above. The end of a drain advances the
watermark and then wakes everyone who is parked. It takes the mutex only to
record a failure, and for neither of its last two steps.

Every lock, load, park, store and notification is one step that other threads
may interleave with. The drains of a shard exclude each other, so there is at
most one that has advanced the watermark and has not yet notified.
-/

namespace OpenMemory.Engine.Durability

open Foundation OpenMemory.Graph

/-- Where a thread stands in `wait_durable_result`. -/
inductive Phase where
  | away
  /-- It wants the mutex: on entry, and again after it was woken. -/
  | entering (seq : Nat)
  /-- It has the mutex and is about to load the watermark. -/
  | holding (seq : Nat)
  /-- It has the mutex and has found the watermark below its ticket. -/
  | parking (seq : Nat)
  /-- It waits on the condition variable without the mutex. -/
  | parked (seq : Nat)
  | returned (result : MemoryResult Unit)

/-- The part of a shard that waiters and the end of a drain share. -/
structure Watch where
  durable : Nat
  failures : List (Nat × String)
  /-- The waiter that has the mutex of the failure map. -/
  owner : Option Nat
  phases : Nat → Phase
  /-- A drain has advanced the watermark and is about to notify. -/
  notifying : Bool

def Watch.fresh (durable : Nat) : Watch where
  durable := durable
  failures := []
  owner := none
  phases := fun _ => .away
  notifying := false

def Watch.move (s : Watch) (waiter : Nat) (phase : Phase) : Watch :=
  { s with phases := Function.update s.phases waiter phase }

inductive Action where
  | wait (waiter seq : Nat)
  | lock (waiter : Nat)
  | load (waiter : Nat)
  | park (waiter : Nat)
  /-- A condition variable may wake a waiter without a notification. -/
  | spuriousWake (waiter : Nat)
  | recordFailure (seq : Nat) (error : String)
  | advance (seq : Nat)
  | notifyAll
  deriving DecidableEq

/-- What the waiter returns once the watermark has reached its ticket. -/
def result (shard seq : Nat) (failures : List (Nat × String)) : MemoryResult Unit :=
  match failures.lookup seq with
  | some error => .error (.invalidInput s!"write ticket {shard}:{seq} failed: {error}")
  | none => .ok ()

def Phase.woken : Phase → Phase
  | .parked seq => .entering seq
  | phase => phase

/-- One step, where the action is possible. -/
def step (shard : Nat) (s : Watch) : Action → Option Watch
  | .wait waiter seq =>
    match s.phases waiter with
    | .away | .returned _ => some (s.move waiter (.entering seq))
    | _ => none
  | .lock waiter =>
    match s.phases waiter, s.owner with
    | .entering seq, none => some { s.move waiter (.holding seq) with owner := some waiter }
    | _, _ => none
  | .load waiter =>
    match s.phases waiter with
    | .holding seq =>
      if s.durable < seq then some (s.move waiter (.parking seq))
      else
        some { s.move waiter (.returned (result shard seq s.failures)) with owner := none }
    | _ => none
  | .park waiter =>
    match s.phases waiter with
    | .parking seq => some { s.move waiter (.parked seq) with owner := none }
    | _ => none
  | .spuriousWake waiter =>
    match s.phases waiter with
    | .parked seq => some (s.move waiter (.entering seq))
    | _ => none
  | .recordFailure seq error =>
    if s.owner = none then some { s with failures := (seq, error) :: s.failures } else none
  | .advance seq =>
    if s.notifying then none else some { s with durable := max s.durable seq, notifying := true }
  | .notifyAll =>
    if s.notifying then
      some { s with phases := fun waiter => (s.phases waiter).woken, notifying := false }
    else none

end OpenMemory.Engine.Durability
