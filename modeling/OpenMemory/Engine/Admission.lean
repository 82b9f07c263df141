import OpenMemory.Foundation.Runs

/-!
# The admission gate of the engine

A submitter takes the lock of its shard queue, waits there for room, takes the
lock of the gate, and is admitted when no pause is in force: it numbers and
queues its request, releases the queue, and releases the gate when it returns.
Under a pause it releases the queue and waits at the gate. A pause raises the
gate count, and then quiesces: it reads the last number of every shard, drains
every shard, and waits for every shard until its watermark has reached that
number. The guard it returns lowers the count when it is dropped.

A drain takes the whole queue of its shard, commits a first part of it, puts the
rest back in front when a checkpoint failed, and advances the watermark to the
last number it resolved. The drains of a shard exclude each other.

A step is one lock, one check under a lock, one wait on a condition variable or
one notification. A critical section of a drain or a pause that no other thread
can observe from within is a single step that needs the lock to be free. What a
request says does not matter here, so a queue holds the numbers of its requests.
-/

namespace OpenMemory.Engine.Admission

open Foundation

/-! ## States -/

/-- Where a thread stands in `try_submit`. -/
inductive Submitter where
  | away
  /-- It wants the lock of the queue, on entry or after a wait. -/
  | wantQueue (shard : Nat)
  /-- It has the queue, and looks for room. -/
  | haveQueue (shard : Nat)
  /-- It waits on `space`. -/
  | waitSpace (shard : Nat)
  /-- It has the queue, and wants the gate. -/
  | wantGate (shard : Nat)
  /-- It has the queue and the gate, and looks for a pause. -/
  | haveBoth (shard : Nat)
  /-- It has both, and has found no pause. -/
  | admitted (shard : Nat)
  /-- It has both, and its request is queued. -/
  | appended (shard seq : Nat)
  /-- It has the gate, and is about to return its ticket. -/
  | leaving (shard seq : Nat)
  /-- It has returned its ticket. -/
  | issued (shard seq : Nat)
  /-- It has the gate, after it found a pause, and looks for the end of it. -/
  | haveGate (shard : Nat)
  /-- It waits on `admissions_resumed`. -/
  | waitGate (shard : Nat)
  /-- It was woken, and wants the gate. -/
  | wantGateAgain (shard : Nat)

/-- Where the drain of a shard stands. -/
inductive Drain where
  | idle
  /-- It has the drain lock. -/
  | locked
  | taken (entries : List Nat)
  | committing (entries : List Nat)
  /-- A checkpoint failed: the rest goes back into the queue. -/
  | rejoining (resolved unresolved : List Nat)
  | publishing (resolved : List Nat)
  deriving DecidableEq

structure Shard where
  buf : List Nat
  nextSeq : Nat
  durable : Nat
  /-- The submitter that has the lock of the queue. -/
  queueOwner : Option Nat
  drain : Drain
  /-- The quiescing thread that runs the drain; a flusher otherwise. -/
  runner : Option Nat

/-- Where a thread stands in `quiesce` or, when `gated`, in `pause_admissions`. -/
inductive Pauser where
  | away
  /-- It has read the last numbers of the first shards. -/
  | snapshotting (gated : Bool) (targets : List Nat)
  /-- It is about to drain the given shard. -/
  | draining (gated : Bool) (targets : List Nat) (next : Nat)
  /-- Its drain of the given shard is under way. -/
  | running (gated : Bool) (targets : List Nat) (next : Nat)
  /-- It waits for the given shard. -/
  | waiting (gated : Bool) (targets : List Nat) (next : Nat)
  /-- `pause_admissions` has returned the guard. -/
  | guarding
  deriving DecidableEq

structure Inner where
  shards : Nat → Shard
  /-- The submitter that has the lock of the gate. -/
  gateOwner : Option Nat
  admissionsPaused : Nat
  submitters : Nat → Submitter
  pausers : Nat → Pauser

/-- An engine that has just started; `last` are the numbers its journals end with. -/
def Inner.fresh (last : Nat → Nat) : Inner where
  shards := fun i => ⟨[], last i, last i, none, .idle, none⟩
  gateOwner := none
  admissionsPaused := 0
  submitters := fun _ => .away
  pausers := fun _ => .away

namespace Inner

def submitter (s : Inner) (w : Nat) (phase : Submitter) : Inner :=
  { s with submitters := Function.update s.submitters w phase }

def pauser (s : Inner) (p : Nat) (phase : Pauser) : Inner :=
  { s with pausers := Function.update s.pausers p phase }

def shard (s : Inner) (i : Nat) (change : Shard → Shard) : Inner :=
  { s with shards := Function.update s.shards i (change (s.shards i)) }

def ownQueue (s : Inner) (i : Nat) (owner : Option Nat) : Inner :=
  s.shard i fun shard => { shard with queueOwner := owner }

def ownGate (s : Inner) (owner : Option Nat) : Inner := { s with gateOwner := owner }

end Inner

/-! ## Submitters -/

inductive SubmitAction where
  | call (shard : Nat)
  | lockQueue
  | checkSpace
  | lockGate
  | checkGate
  | append
  | unlockQueue
  | unlockGate
  | checkResumed
  | relockGate
  /-- A condition variable may wake a waiter without a notification. -/
  | spuriousWake

section Steps

variable (shardCount shardCapacity : Nat)

/-- `next_seq += 1`, and the request joins the queue. -/
def Shard.push (shard : Shard) : Shard :=
  { shard with nextSeq := shard.nextSeq + 1, buf := shard.buf ++ [shard.nextSeq + 1] }

def submitStep (s : Inner) (w : Nat) (action : SubmitAction) : Option Inner :=
  match action, s.submitters w with
  | .call i, .away | .call i, .issued _ _ =>
    if i < shardCount then some (s.submitter w (.wantQueue i)) else none
  | .lockQueue, .wantQueue i =>
    if (s.shards i).queueOwner = none then
      some ((s.submitter w (.haveQueue i)).ownQueue i (some w))
    else none
  | .checkSpace, .haveQueue i =>
    if shardCapacity ≤ (s.shards i).buf.length then
      some ((s.submitter w (.waitSpace i)).ownQueue i none)
    else some (s.submitter w (.wantGate i))
  | .lockGate, .wantGate i =>
    if s.gateOwner = none then some ((s.submitter w (.haveBoth i)).ownGate (some w)) else none
  | .checkGate, .haveBoth i =>
    if s.admissionsPaused = 0 then some (s.submitter w (.admitted i))
    else some ((s.submitter w (.haveGate i)).ownQueue i none)
  | .append, .admitted i =>
    some ((s.submitter w (.appended i ((s.shards i).nextSeq + 1))).shard i Shard.push)
  | .unlockQueue, .appended i seq => some ((s.submitter w (.leaving i seq)).ownQueue i none)
  | .unlockGate, .leaving i seq => some ((s.submitter w (.issued i seq)).ownGate none)
  | .checkResumed, .haveGate i =>
    if 0 < s.admissionsPaused then some ((s.submitter w (.waitGate i)).ownGate none)
    else some ((s.submitter w (.wantQueue i)).ownGate none)
  | .relockGate, .wantGateAgain i =>
    if s.gateOwner = none then some ((s.submitter w (.haveGate i)).ownGate (some w)) else none
  | .spuriousWake, .waitSpace i => some (s.submitter w (.wantQueue i))
  | .spuriousWake, .waitGate i => some (s.submitter w (.wantGateAgain i))
  | _, _ => none

/-! ## Drains -/

inductive DrainAction where
  /-- A flusher takes the drain lock. -/
  | begin_
  | take
  | notifySpace
  /-- The batch, or its first `resolved` requests one by one, reach the store. -/
  | commit (resolved : Nat)
  | rejoin
  | publish
  deriving DecidableEq

/-- Everyone who waits for room in the shard is woken. -/
def Submitter.spaceNotified (i : Nat) : Submitter → Submitter
  | .waitSpace j => if j = i then .wantQueue j else .waitSpace j
  | phase => phase

/-- `drain_shard` returns to the thread that called it. -/
def finishDrain (s : Inner) (i : Nat) : Inner :=
  let s' := s.shard i fun shard => { shard with drain := .idle, runner := none }
  match (s.shards i).runner with
  | none => s'
  | some p =>
    match s.pausers p with
    | .running gated targets next => s'.pauser p (.draining gated targets (next + 1))
    | _ => s'

/-- The watermark after the resolved requests. -/
def Shard.advanced (shard : Shard) (resolved : List Nat) : Shard :=
  { shard with durable := max shard.durable (resolved.getLast?.getD 0) }

def drainStep (s : Inner) (i : Nat) (action : DrainAction) : Option Inner :=
  match action, (s.shards i).drain with
  | .begin_, .idle => some (s.shard i fun shard => { shard with drain := .locked, runner := none })
  | .take, .locked =>
    if (s.shards i).queueOwner = none then
      if (s.shards i).buf = [] then some (finishDrain s i)
      else some (s.shard i fun shard => { shard with buf := [], drain := .taken shard.buf })
    else none
  | .notifySpace, .taken entries =>
    some { s.shard i (fun shard => { shard with drain := .committing entries }) with
      submitters := fun w => (s.submitters w).spaceNotified i }
  | .commit resolved, .committing entries =>
    if entries.length ≤ resolved then
      some (s.shard i fun shard => { shard with drain := .publishing entries })
    else
      some (s.shard i fun shard =>
        { shard with drain := .rejoining (entries.take resolved) (entries.drop resolved) })
  | .rejoin, .rejoining resolved unresolved =>
    if (s.shards i).queueOwner = none then
      some (s.shard i fun shard =>
        { shard with buf := unresolved ++ shard.buf, drain := .publishing resolved })
    else none
  | .publish, .publishing resolved =>
    some (finishDrain (s.shard i fun shard => shard.advanced resolved) i)
  | _, _ => none

/-! ## Pauses -/

inductive PauseAction where
  | pause
  | quiesce
  | snapshot
  | drain
  | wait
  | dropGuard
  deriving DecidableEq

/-- Everyone who waits at the gate is woken. -/
def Submitter.gateNotified : Submitter → Submitter
  | .waitGate i => .wantGateAgain i
  | phase => phase

/-- The guard lowers the count, and wakes the gate when it was the last one. -/
def lowerGate (s : Inner) : Inner :=
  let s' := { s with admissionsPaused := s.admissionsPaused - 1 }
  if s'.admissionsPaused = 0 then
    { s' with submitters := fun w => (s.submitters w).gateNotified }
  else s'

def pauseStep (s : Inner) (p : Nat) (action : PauseAction) : Option Inner :=
  match action, s.pausers p with
  | .pause, .away =>
    if s.gateOwner = none then
      some { s.pauser p (.snapshotting true []) with
        admissionsPaused := s.admissionsPaused + 1 }
    else none
  | .quiesce, .away => some (s.pauser p (.snapshotting false []))
  | .snapshot, .snapshotting gated targets =>
    if targets.length < shardCount then
      if (s.shards targets.length).queueOwner = none then
        some (s.pauser p (.snapshotting gated (targets ++ [(s.shards targets.length).nextSeq])))
      else none
    else some (s.pauser p (.draining gated targets 0))
  | .drain, .draining gated targets next =>
    if next < shardCount then
      if (s.shards next).drain = .idle then
        some ((s.pauser p (.running gated targets next)).shard next fun shard =>
          { shard with drain := .locked, runner := some p })
      else none
    else some (s.pauser p (.waiting gated targets 0))
  | .wait, .waiting gated targets next =>
    if next < shardCount then
      if targets.getD next 0 ≤ (s.shards next).durable then
        some (s.pauser p (.waiting gated targets (next + 1)))
      else none
    else some (s.pauser p (if gated then .guarding else .away))
  | .dropGuard, .guarding =>
    if s.gateOwner = none then some (lowerGate (s.pauser p .away)) else none
  | _, _ => none

inductive Action where
  | submitter (w : Nat) (action : SubmitAction)
  | drain (i : Nat) (action : DrainAction)
  | pauser (p : Nat) (action : PauseAction)

/-- One step, where the action is possible. -/
def step (s : Inner) : Action → Option Inner
  | .submitter w action => submitStep shardCount shardCapacity s w action
  | .drain i action => drainStep s i action
  | .pauser p action => pauseStep shardCount s p action

end Steps

end OpenMemory.Engine.Admission
