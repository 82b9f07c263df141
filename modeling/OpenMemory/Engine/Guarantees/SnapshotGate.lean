import OpenMemory.Engine.Admission

/-!
# The snapshot gate

While a guard of `pause_admissions` is held, every queue is empty, every ticket
is durable and nothing is admitted. Three invariants carry this. The gate count
is the number of pauses in force, and a submitter that found no pause keeps the
gate locked until it returns. What a shard has queued or is draining is numbered
in order between its watermark and its last number. What a pause has read as the
last number of a shard stays the last number.
-/

namespace OpenMemory.Engine.Admission

open Foundation

/-! ## The gate -/

/-- The submitter has the lock of the gate. -/
def Submitter.hasGate : Submitter → Bool
  | .haveBoth _ | .admitted _ | .appended _ _ | .leaving _ _ | .haveGate _ => true
  | _ => false

/-- The submitter has found no pause, and has not returned yet. -/
def Submitter.passed : Submitter → Bool
  | .admitted _ | .appended _ _ | .leaving _ _ => true
  | _ => false

variable {phase : Submitter} {action : DrainAction} {p i w : Nat} {shards : Nat → Shard}

theorem Submitter.hasGate_of_passed (passed : phase.passed = true) : phase.hasGate = true := by
  cases phase <;> first | rfl | cases passed

/-- The pause has raised the gate count. -/
def Pauser.raised : Pauser → Bool
  | .snapshotting gated _ | .draining gated _ _ | .running gated _ _ | .waiting gated _ _ => gated
  | .guarding => true
  | .away => false

structure GateKept (s : Inner) : Prop where
  owner : ∀ w, (s.submitters w).hasGate = true → s.gateOwner = some w
  passed : ∀ w, (s.submitters w).passed = true → s.admissionsPaused = 0
  waiting : ∀ w i, s.submitters w = .waitGate i → 0 < s.admissionsPaused
  counted : ∃ raised : Finset Nat, raised.card = s.admissionsPaused ∧
    ∀ p, p ∈ raised ↔ (s.pausers p).raised = true

namespace GateKept

variable {s : Inner}

theorem fresh (last : Nat → Nat) : GateKept (Inner.fresh last) where
  owner := by
    rintro w ⟨⟩
  passed := by
    rintro w ⟨⟩
  waiting := by
    rintro w i ⟨⟩
  counted := ⟨∅, rfl, fun p => ⟨fun member => absurd member (Finset.notMem_empty p), by rintro ⟨⟩⟩⟩

variable (kept : GateKept s)

include kept

theorem withShards (shards : Nat → Shard) : GateKept { s with shards := shards } where
  owner := kept.owner
  passed := kept.passed
  waiting := kept.waiting
  counted := kept.counted

/-- A submitter moves, and may take or release the gate. -/
theorem withSubmitter (owner : Option Nat) (owns : phase.hasGate = true → owner = some w)
    (passes : phase.passed = true → s.admissionsPaused = 0)
    (waits : ∀ i, phase = .waitGate i → 0 < s.admissionsPaused)
    (hands : owner = s.gateOwner ∨ s.gateOwner = none ∨ s.gateOwner = some w) :
    GateKept { s.submitter w phase with gateOwner := owner } where
  owner := by
    intro other gate
    by_cases same : other = w
    · subst same
      exact owns (by simpa [Inner.submitter] using gate)
    · have held := kept.owner other (by simpa [Inner.submitter, same] using gate)
      rcases hands with hands | free | mine
      · exact hands.trans held
      · rw [held] at free
        cases free
      · rw [held] at mine
        exact absurd (Option.some.inj mine) same
  passed := by
    intro other gate
    by_cases same : other = w
    · subst same
      exact passes (by simpa [Inner.submitter] using gate)
    · exact kept.passed other (by simpa [Inner.submitter, same] using gate)
  waiting := by
    intro other i stands
    by_cases same : other = w
    · subst same
      exact waits i (by simpa [Inner.submitter] using stands)
    · exact kept.waiting other i (by simpa [Inner.submitter, same] using stands)
  counted := kept.counted

/-- A submitter without the gate moves to a phase without the gate. -/
theorem move (gate : phase.hasGate = false)
    (waits : ∀ i, phase ≠ .waitGate i) : GateKept (s.submitter w phase) := by
  refine kept.withSubmitter s.gateOwner ?_ ?_ ?_ (Or.inl rfl)
  · intro gate'
    rw [gate] at gate'
    cases gate'
  · intro passed
    rw [Submitter.hasGate_of_passed passed] at gate
    cases gate
  · intro i same
    exact absurd same (waits i)

/-- A pause moves and stays in force, or stays out of it. -/
theorem movePauser {phase : Pauser}
    (same : phase.raised = (s.pausers p).raised) : GateKept (s.pauser p phase) where
  owner := kept.owner
  passed := kept.passed
  waiting := kept.waiting
  counted := by
    obtain ⟨raised, card, mem⟩ := kept.counted
    refine ⟨raised, card, fun other => (mem other).trans ?_⟩
    by_cases here : other = p
    · subst here
      simp [Inner.pauser, same]
    · simp [Inner.pauser, here]

/-- Under a pause that is in force, the gate count is not zero. -/
theorem paused (raised : (s.pausers p).raised = true) : 0 < s.admissionsPaused := by
  obtain ⟨all, card, mem⟩ := kept.counted
  rw [← card]
  exact Finset.card_pos.mpr ⟨p, (mem p).mpr raised⟩

/-- Without a pause in force, the gate count is zero. -/
theorem open_ (none_ : ∀ p, (s.pausers p).raised = false) : s.admissionsPaused = 0 := by
  obtain ⟨all, card, mem⟩ := kept.counted
  rw [← card, Finset.card_eq_zero]
  apply Finset.eq_empty_of_forall_notMem
  intro p member
  have raised := (mem p).mp member
  rw [none_ p] at raised
  cases raised

/-- The gate is free: nobody has passed it. -/
theorem none_passed (free : s.gateOwner = none) (w : Nat) : (s.submitters w).passed = false := by
  cases passed : (s.submitters w).passed with
  | false => rfl
  | true =>
    have owner := kept.owner w (Submitter.hasGate_of_passed passed)
    rw [free] at owner
    cases owner

variable {next : Inner}

theorem submitStep {shardCount shardCapacity : Nat} {action : SubmitAction}
    (stepped : submitStep shardCount shardCapacity s w action = some next) : GateKept next := by
  have owner := kept.owner w
  unfold Admission.submitStep at stepped
  split at stepped
  next i stands =>
    split at stepped <;> cases stepped
    exact kept.move rfl (by rintro _ ⟨⟩)
  next i _ _ stands =>
    split at stepped <;> cases stepped
    exact kept.move rfl (by rintro _ ⟨⟩)
  next i stands =>
    split at stepped <;> cases stepped
    exact (kept.move rfl (by rintro _ ⟨⟩)).withShards _
  next i stands =>
    split at stepped <;> cases stepped
    · exact (kept.move rfl (by rintro _ ⟨⟩)).withShards _
    · exact kept.move rfl (by rintro _ ⟨⟩)
  next i stands =>
    split at stepped
    next free =>
      cases stepped
      exact kept.withSubmitter _ (fun _ => rfl) (by rintro ⟨⟩) (by rintro _ ⟨⟩)
        (Or.inr (Or.inl free))
    next => cases stepped
  next i stands =>
    rw [stands] at owner
    split at stepped
    next unpaused =>
      cases stepped
      exact kept.withSubmitter _ (fun _ => owner rfl) (fun _ => unpaused) (by rintro _ ⟨⟩)
        (Or.inl rfl)
    next =>
      cases stepped
      exact (kept.withSubmitter _ (fun _ => owner rfl) (by rintro ⟨⟩) (by rintro _ ⟨⟩)
        (Or.inl rfl)).withShards _
  next i stands =>
    rw [stands] at owner
    have passed := kept.passed w
    rw [stands] at passed
    cases stepped
    exact (kept.withSubmitter _ (fun _ => owner rfl) (fun _ => passed rfl) (by rintro _ ⟨⟩)
      (Or.inl rfl)).withShards _
  next i seq stands =>
    rw [stands] at owner
    have passed := kept.passed w
    rw [stands] at passed
    cases stepped
    exact (kept.withSubmitter _ (fun _ => owner rfl) (fun _ => passed rfl) (by rintro _ ⟨⟩)
      (Or.inl rfl)).withShards _
  next i seq stands =>
    rw [stands] at owner
    cases stepped
    exact kept.withSubmitter none (by rintro ⟨⟩) (by rintro ⟨⟩) (by rintro _ ⟨⟩)
      (Or.inr (Or.inr (owner rfl)))
  next i stands =>
    rw [stands] at owner
    split at stepped
    next paused =>
      cases stepped
      exact kept.withSubmitter none (by rintro ⟨⟩) (by rintro ⟨⟩) (fun _ _ => paused)
        (Or.inr (Or.inr (owner rfl)))
    next =>
      cases stepped
      exact kept.withSubmitter none (by rintro ⟨⟩) (by rintro ⟨⟩) (by rintro _ ⟨⟩)
        (Or.inr (Or.inr (owner rfl)))
  next i stands =>
    split at stepped
    next free =>
      cases stepped
      exact kept.withSubmitter _ (fun _ => rfl) (by rintro ⟨⟩) (by rintro _ ⟨⟩)
        (Or.inr (Or.inl free))
    next => cases stepped
  next i stands =>
    cases stepped
    exact kept.move rfl (by rintro _ ⟨⟩)
  next i stands =>
    cases stepped
    exact kept.move rfl (by rintro _ ⟨⟩)
  next => cases stepped

/-- Waking submitters gives nobody the gate. -/
theorem wake {wake : Submitter → Submitter} (gate : ∀ phase, (wake phase).hasGate = phase.hasGate)
    (passed : ∀ phase, (wake phase).passed = phase.passed)
    (waiting : ∀ phase i, wake phase = .waitGate i → phase = .waitGate i) :
    GateKept { s with submitters := fun w => wake (s.submitters w) } where
  owner := fun w gate' => kept.owner w (gate _ ▸ gate')
  passed := fun w passed' => kept.passed w (passed _ ▸ passed')
  waiting := fun w i stands => kept.waiting w i (waiting _ i stands)
  counted := kept.counted

theorem finishDrain (i : Nat) : GateKept (finishDrain s i) := by
  have shards : GateKept (s.shard i fun shard => { shard with drain := .idle, runner := none }) :=
    kept.withShards _
  unfold Admission.finishDrain
  split
  next => exact shards
  next p _ =>
    split
    next gated targets last stands =>
      refine shards.movePauser ?_
      exact (congrArg Pauser.raised stands).symm
    next => exact shards

theorem drainStep (stepped : drainStep s i action = some next) : GateKept next := by
  unfold Admission.drainStep at stepped
  split at stepped
  next =>
    cases stepped
    exact kept.withShards _
  next =>
    split at stepped
    · split at stepped <;> cases stepped
      · exact kept.finishDrain i
      · exact kept.withShards _
    · cases stepped
  next =>
    cases stepped
    refine GateKept.wake (kept.withShards _) ?_ ?_ ?_
    · intro phase
      cases phase <;> first | rfl | (simp only [Submitter.spaceNotified]; split <;> rfl)
    · intro phase
      cases phase <;> first | rfl | (simp only [Submitter.spaceNotified]; split <;> rfl)
    · intro phase j stands
      cases phase with
      | waitSpace k =>
        simp only [Submitter.spaceNotified] at stands
        split at stands <;> cases stands
      | _ => exact stands
  next =>
    split at stepped <;> cases stepped <;> exact kept.withShards _
  next =>
    split at stepped <;> cases stepped
    exact kept.withShards _
  next =>
    cases stepped
    exact (kept.withShards _).finishDrain i
  next => cases stepped

theorem lowerGate (guards : s.pausers p = .guarding) : GateKept (lowerGate (s.pauser p .away)) := by
  obtain ⟨raised, card, mem⟩ := kept.counted
  have member : p ∈ raised := (mem p).mpr (by rw [guards]; rfl)
  have lowered : (raised.erase p).card = s.admissionsPaused - 1 := by
    rw [Finset.card_erase_of_mem member, card]
  have counted : ∀ q, q ∈ raised.erase p ↔
      (Function.update s.pausers p Pauser.away q).raised = true := by
    intro q
    rw [Finset.mem_erase, mem q]
    by_cases same : q = p
    · subst same
      simp [Pauser.raised]
    · simp [same]
  have passed : ∀ w, (s.submitters w).passed = true → s.admissionsPaused - 1 = 0 := by
    intro w gone
    rw [kept.passed w gone]
  unfold Admission.lowerGate
  simp only
  split
  next zero =>
    constructor
    · intro w gate
      refine kept.owner w ?_
      simp only [Inner.pauser] at gate
      cases stands : s.submitters w <;> rw [stands] at gate <;> first | rfl | cases gate
    · intro w _
      exact zero
    · intro w i stands
      simp only [Inner.pauser] at stands
      cases before : s.submitters w <;> rw [before] at stands <;> cases stands
    · exact ⟨raised.erase p, lowered, counted⟩
  next more =>
    constructor
    · exact kept.owner
    · exact passed
    · intro w i stands
      simp only [Inner.pauser] at more
      exact Nat.pos_of_ne_zero more
    · exact ⟨raised.erase p, lowered, counted⟩

theorem pauseStep {shardCount : Nat} {action : PauseAction}
    (stepped : pauseStep shardCount s p action = some next) : GateKept next := by
  unfold Admission.pauseStep at stepped
  split at stepped
  next stands =>
    split at stepped
    next free =>
      cases stepped
      obtain ⟨raised, card, mem⟩ := kept.counted
      have out : p ∉ raised := by
        intro member
        have up := (mem p).mp member
        rw [stands] at up
        cases up
      constructor
      · exact kept.owner
      · intro w passed
        have none_ := kept.none_passed free w
        rw [show (s.submitters w).passed = true from passed] at none_
        cases none_
      · intro w i waits
        exact Nat.succ_pos _
      · refine ⟨insert p raised, by rw [Finset.card_insert_of_notMem out, card], ?_⟩
        intro q
        rw [Finset.mem_insert, mem q]
        by_cases same : q = p
        · subst same
          simp [Inner.pauser, Pauser.raised]
        · simp [Inner.pauser, same]
    next => cases stepped
  next stands =>
    cases stepped
    exact kept.movePauser (by rw [stands]; rfl)
  next gated targets stands =>
    split at stepped
    · split at stepped <;> cases stepped
      exact kept.movePauser (by rw [stands]; rfl)
    · cases stepped
      exact kept.movePauser (by rw [stands]; rfl)
  next gated targets last stands =>
    split at stepped
    · split at stepped <;> cases stepped
      exact (kept.movePauser (by rw [stands]; rfl)).withShards _
    · cases stepped
      exact kept.movePauser (by rw [stands]; rfl)
  next gated targets last stands =>
    split at stepped
    · split at stepped <;> cases stepped
      exact kept.movePauser (by rw [stands]; rfl)
    · cases stepped
      refine kept.movePauser ?_
      rw [stands]
      cases gated <;> rfl
  next stands =>
    split at stepped <;> cases stepped
    exact kept.lowerGate stands
  next => cases stepped

/-- A step keeps the gate. -/
theorem step {shardCount shardCapacity : Nat} {action : Action} {next : Inner}
    (stepped : step shardCount shardCapacity s action = some next) : GateKept next := by
  cases action with
  | submitter w action => exact kept.submitStep stepped
  | drain i action => exact kept.drainStep stepped
  | pauser p action => exact kept.pauseStep stepped

end GateKept

/-! ## Shards -/

/-- What a drain has taken from the queue and not accounted for. -/
def Drain.entries : Drain → List Nat
  | .idle | .locked => []
  | .taken entries | .committing entries | .publishing entries => entries
  | .rejoining resolved unresolved => resolved ++ unresolved

/-- What the shard has numbered and not made durable, in order. -/
def Shard.pending (shard : Shard) : List Nat := shard.drain.entries ++ shard.buf

structure Shard.Ordered (shard : Shard) : Prop where
  sorted : shard.pending.Pairwise (· < ·)
  above : ∀ seq ∈ shard.pending, shard.durable < seq
  below : ∀ seq ∈ shard.pending, seq ≤ shard.nextSeq
  durable_le : shard.durable ≤ shard.nextSeq

/-- What one step does to a shard; `grows` when it may number a request. -/
structure Evolves (grows : Prop) (before after : Shard) : Prop where
  ordered : before.Ordered → after.Ordered
  durable : before.durable ≤ after.durable
  numbers : before.nextSeq ≤ after.nextSeq
  fixed : after.nextSeq ≠ before.nextSeq → grows

namespace Evolves

variable {grows : Prop} {a b c : Shard}

theorem refl : Evolves grows a a := ⟨id, le_rfl, le_rfl, fun moved => absurd rfl moved⟩

/-- Locks and the runner of a drain do not matter. -/
theorem of_pending (pending : b.pending = a.pending) (durable : b.durable = a.durable)
    (numbers : b.nextSeq = a.nextSeq) : Evolves grows a b where
  ordered := fun held =>
    ⟨pending ▸ held.sorted, by rw [pending, durable]; exact held.above,
      by rw [pending, numbers]; exact held.below, by rw [durable, numbers]; exact held.durable_le⟩
  durable := durable.ge
  numbers := numbers.ge
  fixed := fun moved => absurd numbers moved

theorem push (may : grows) : Evolves grows a a.push where
  ordered := by
    intro held
    have pending : a.push.pending = a.pending ++ [a.nextSeq + 1] :=
      (List.append_assoc _ _ _).symm
    refine ⟨?_, ?_, ?_, ?_⟩
    · rw [pending, List.pairwise_append]
      refine ⟨held.sorted, List.pairwise_singleton _ _, ?_⟩
      intro seq member last same
      rw [List.mem_singleton] at same
      rw [same]
      exact Nat.lt_succ_of_le (held.below seq member)
    · intro seq member
      rw [pending, List.mem_append, List.mem_singleton] at member
      rcases member with member | rfl
      · exact held.above seq member
      · exact Nat.lt_succ_of_le held.durable_le
    · intro seq member
      rw [pending, List.mem_append, List.mem_singleton] at member
      rcases member with member | rfl
      · exact (held.below seq member).trans (Nat.le_succ _)
      · exact le_rfl
    · exact held.durable_le.trans (Nat.le_succ _)
  durable := le_rfl
  numbers := Nat.le_succ _
  fixed := fun _ => may

/-- The watermark moves past what was resolved, and nothing that is queued. -/
theorem advanced {resolved : List Nat} (drain : a.drain = .publishing resolved) :
    Evolves grows a { a.advanced resolved with drain := .idle, runner := none } where
  ordered := by
    intro held
    have pending : a.pending = resolved ++ a.buf := by rw [Shard.pending, drain]; rfl
    have sorted := held.sorted
    rw [pending, List.pairwise_append] at sorted
    obtain ⟨-, buf, across⟩ := sorted
    have reached : ∀ bound, a.durable ≤ bound → (∀ seq ∈ resolved, seq ≤ bound) →
        max a.durable (resolved.getLast?.getD 0) ≤ bound := by
      intro bound low all
      refine Nat.max_le.mpr ⟨low, ?_⟩
      cases last : resolved.getLast? with
      | none => exact Nat.zero_le _
      | some seq => exact all seq (List.mem_of_getLast? last)
    refine ⟨buf, ?_, ?_, ?_⟩
    · intro seq member
      have member : seq ∈ a.buf := member
      refine Nat.lt_of_le_of_lt (reached (seq - 1) ?_ ?_) (Nat.sub_lt_of_pos_le Nat.one_pos ?_)
      · exact Nat.le_pred_of_lt (held.above seq (by rw [pending]; exact List.mem_append_right _ member))
      · exact fun low taken => Nat.le_pred_of_lt (across low taken seq member)
      · exact Nat.lt_of_le_of_lt (Nat.zero_le _)
          (held.above seq (by rw [pending]; exact List.mem_append_right _ member))
    · intro seq member
      exact held.below seq (by rw [pending]; exact List.mem_append_right _ member)
    · exact reached _ held.durable_le fun seq member =>
        held.below seq (by rw [pending]; exact List.mem_append_left _ member)
  durable := Nat.le_max_left _ _
  numbers := le_rfl
  fixed := fun moved => absurd rfl moved

/-- One shard changes, the others do not. -/
theorem update (s : Inner) (i : Nat) (change : Shard → Shard)
    (evolves : Evolves grows (s.shards i) (change (s.shards i))) (j : Nat) :
    Evolves grows (s.shards j) ((s.shard i change).shards j) := by
  by_cases same : j = i
  · subst same
    simpa [Inner.shard] using evolves
  · simpa [Inner.shard, same] using refl

theorem ownQueue (s : Inner) (i : Nat) (owner : Option Nat) (j : Nat) :
    Evolves grows (s.shards j) ((s.ownQueue i owner).shards j) :=
  update s i (fun shard => { shard with queueOwner := owner }) (of_pending rfl rfl rfl) j

end Evolves

/-- A submitter that found no pause numbers its request. -/
def Appends (s : Inner) (action : Action) : Prop :=
  ∃ w i, action = .submitter w .append ∧ s.submitters w = .admitted i

theorem finishDrain_shards (s : Inner) (i : Nat) : (finishDrain s i).shards =
    (s.shard i fun shard => { shard with drain := .idle, runner := none }).shards := by
  unfold finishDrain
  split
  · rfl
  · split <;> rfl

section Steps

variable {shardCount shardCapacity : Nat} {s next : Inner}

theorem submitStep_evolves {action : SubmitAction}
    (stepped : submitStep shardCount shardCapacity s w action = some next) (j : Nat) :
    Evolves (Appends s (.submitter w action)) (s.shards j) (next.shards j) := by
  unfold submitStep at stepped
  split at stepped
  next =>
    split at stepped <;> cases stepped
    exact Evolves.refl
  next =>
    split at stepped <;> cases stepped
    exact Evolves.refl
  next i _ =>
    split at stepped <;> cases stepped
    exact Evolves.ownQueue (s.submitter w _) i _ j
  next i _ =>
    split at stepped <;> cases stepped
    · exact Evolves.ownQueue (s.submitter w _) i _ j
    · exact Evolves.refl
  next =>
    split at stepped <;> cases stepped
    exact Evolves.refl
  next i _ =>
    split at stepped <;> cases stepped
    · exact Evolves.refl
    · exact Evolves.ownQueue (s.submitter w _) i _ j
  next i stands =>
    cases stepped
    exact Evolves.update _ i _ (Evolves.push ⟨w, i, rfl, stands⟩) j
  next i seq _ =>
    cases stepped
    exact Evolves.ownQueue (s.submitter w _) i _ j
  next =>
    cases stepped
    exact Evolves.refl
  next =>
    split at stepped <;> cases stepped <;> exact Evolves.refl
  next =>
    split at stepped <;> cases stepped
    exact Evolves.refl
  next =>
    cases stepped
    exact Evolves.refl
  next =>
    cases stepped
    exact Evolves.refl
  next => cases stepped

theorem drainStep_evolves {grows : Prop} (stepped : drainStep s i action = some next) (j : Nat) :
    Evolves grows (s.shards j) (next.shards j) := by
  unfold drainStep at stepped
  split at stepped
  next drain =>
    cases stepped
    refine Evolves.update s i _ ?_ j
    refine Evolves.of_pending ?_ rfl rfl
    simp [Shard.pending, drain, Drain.entries]
  next drain =>
    split at stepped
    · split at stepped <;> cases stepped
      · rw [finishDrain_shards]
        refine Evolves.update s i _ ?_ j
        refine Evolves.of_pending ?_ rfl rfl
        simp [Shard.pending, drain, Drain.entries]
      · refine Evolves.update s i _ ?_ j
        refine Evolves.of_pending ?_ rfl rfl
        simp [Shard.pending, drain, Drain.entries]
    · cases stepped
  next entries drain =>
    cases stepped
    refine Evolves.update s i (fun shard => { shard with drain := .committing entries }) ?_ j
    refine Evolves.of_pending ?_ rfl rfl
    simp [Shard.pending, drain, Drain.entries]
  next resolved entries drain =>
    split at stepped <;> cases stepped
    · refine Evolves.update s i _ ?_ j
      refine Evolves.of_pending ?_ rfl rfl
      simp [Shard.pending, drain, Drain.entries]
    · refine Evolves.update s i _ ?_ j
      refine Evolves.of_pending ?_ rfl rfl
      simp [Shard.pending, drain, Drain.entries]
  next resolved unresolved drain =>
    split at stepped <;> cases stepped
    refine Evolves.update s i _ ?_ j
    refine Evolves.of_pending ?_ rfl rfl
    simp [Shard.pending, drain, Drain.entries]
  next resolved drain =>
    cases stepped
    rw [finishDrain_shards]
    by_cases same : j = i
    · subst same
      simpa [Inner.shard] using Evolves.advanced drain
    · simpa [Inner.shard, same] using Evolves.refl
  next => cases stepped

theorem pauseStep_evolves {grows : Prop} {action : PauseAction}
    (stepped : pauseStep shardCount s p action = some next) (j : Nat) :
    Evolves grows (s.shards j) (next.shards j) := by
  unfold pauseStep at stepped
  split at stepped
  next =>
    split at stepped <;> cases stepped
    exact Evolves.refl
  next =>
    cases stepped
    exact Evolves.refl
  next =>
    split at stepped
    · split at stepped <;> cases stepped
      exact Evolves.refl
    · cases stepped
      exact Evolves.refl
  next gated targets i _ =>
    split at stepped
    · split at stepped
      next idle =>
        cases stepped
        refine Evolves.update (s.pauser p _) i _ ?_ j
        refine Evolves.of_pending ?_ rfl rfl
        simp [Shard.pending, Inner.pauser, idle, Drain.entries]
      next => cases stepped
    · cases stepped
      exact Evolves.refl
  next =>
    split at stepped
    · split at stepped <;> cases stepped
      exact Evolves.refl
    · cases stepped
      exact Evolves.refl
  next =>
    split at stepped <;> cases stepped
    unfold lowerGate
    simp only
    split <;> exact Evolves.refl
  next => cases stepped

/-- Only a submitter that found no pause numbers anything. -/
theorem step_evolves {action : Action}
    (stepped : step shardCount shardCapacity s action = some next) (j : Nat) :
    Evolves (Appends s action) (s.shards j) (next.shards j) := by
  cases action with
  | submitter w action => exact submitStep_evolves stepped j
  | drain i action => exact drainStep_evolves stepped j
  | pauser p action => exact pauseStep_evolves stepped j

/-! ## Tickets -/

/-- A submitter deals with a shard of the engine, and its ticket is one that the
shard has numbered. -/
def Submitter.Sound (shardCount : Nat) (shards : Nat → Shard) : Submitter → Prop
  | .away => True
  | .appended i seq | .leaving i seq | .issued i seq => i < shardCount ∧ seq ≤ (shards i).nextSeq
  | .wantQueue i | .haveQueue i | .waitSpace i | .wantGate i | .haveBoth i | .admitted i
  | .haveGate i | .waitGate i | .wantGateAgain i => i < shardCount

theorem Submitter.Sound.mono {later : Nat → Shard}
    (numbers : ∀ j, (shards j).nextSeq ≤ (later j).nextSeq)
    (sound : phase.Sound shardCount shards) : phase.Sound shardCount later := by
  cases phase with
  | appended i seq => exact ⟨sound.1, sound.2.trans (numbers i)⟩
  | leaving i seq => exact ⟨sound.1, sound.2.trans (numbers i)⟩
  | issued i seq => exact ⟨sound.1, sound.2.trans (numbers i)⟩
  | _ => exact sound

section

variable (sound : ∀ v, (s.submitters v).Sound shardCount s.shards)

include sound

/-- One submitter moves, and shards only count up. -/
theorem sound_move (w : Nat) (phase : Submitter)
    (submitters : next.submitters = Function.update s.submitters w phase)
    (numbers : ∀ j, (s.shards j).nextSeq ≤ (next.shards j).nextSeq)
    (moved : phase.Sound shardCount next.shards) (v : Nat) :
    (next.submitters v).Sound shardCount next.shards := by
  rw [submitters]
  by_cases same : v = w
  · subst same
    rw [Function.update_self]
    exact moved
  · rw [Function.update_of_ne same]
    exact (sound v).mono numbers

theorem sound_submitStep {action : SubmitAction}
    (stepped : submitStep shardCount shardCapacity s w action = some next) (v : Nat) :
    (next.submitters v).Sound shardCount next.shards := by
  have numbers := fun j => (submitStep_evolves stepped j).numbers
  have before := sound w
  unfold submitStep at stepped
  split at stepped
  next i _ =>
    split at stepped
    next inside =>
      cases stepped
      exact sound_move sound w (.wantQueue i) rfl numbers inside v
    next => cases stepped
  next i _ _ _ =>
    split at stepped
    next inside =>
      cases stepped
      exact sound_move sound w (.wantQueue i) rfl numbers inside v
    next => cases stepped
  next i stands =>
    rw [stands] at before
    split at stepped <;> cases stepped
    exact sound_move sound w (.haveQueue i) rfl numbers before v
  next i stands =>
    rw [stands] at before
    split at stepped <;> cases stepped
    · exact sound_move sound w (.waitSpace i) rfl numbers before v
    · exact sound_move sound w (.wantGate i) rfl numbers before v
  next i stands =>
    rw [stands] at before
    split at stepped <;> cases stepped
    exact sound_move sound w (.haveBoth i) rfl numbers before v
  next i stands =>
    rw [stands] at before
    split at stepped <;> cases stepped
    · exact sound_move sound w (.admitted i) rfl numbers before v
    · exact sound_move sound w (.haveGate i) rfl numbers before v
  next i stands =>
    rw [stands] at before
    cases stepped
    refine sound_move sound w (.appended i ((s.shards i).nextSeq + 1)) rfl numbers ⟨before, ?_⟩ v
    simp [Inner.shard, Inner.submitter, Shard.push]
  next i seq stands =>
    rw [stands] at before
    cases stepped
    exact sound_move sound w (.leaving i seq) rfl numbers ⟨before.1, before.2.trans (numbers i)⟩ v
  next i seq stands =>
    rw [stands] at before
    cases stepped
    exact sound_move sound w (.issued i seq) rfl numbers before v
  next i stands =>
    rw [stands] at before
    split at stepped <;> cases stepped
    · exact sound_move sound w (.waitGate i) rfl numbers before v
    · exact sound_move sound w (.wantQueue i) rfl numbers before v
  next i stands =>
    rw [stands] at before
    split at stepped <;> cases stepped
    exact sound_move sound w (.haveGate i) rfl numbers before v
  next i stands =>
    rw [stands] at before
    cases stepped
    exact sound_move sound w (.wantQueue i) rfl numbers before v
  next i stands =>
    rw [stands] at before
    cases stepped
    exact sound_move sound w (.wantGateAgain i) rfl numbers before v
  next => cases stepped

omit sound in
/-- Waking a submitter does not change its shard or its ticket. -/
theorem Submitter.Sound.spaceNotified (i : Nat)
    (sound : phase.Sound shardCount shards) : (phase.spaceNotified i).Sound shardCount shards := by
  cases phase with
  | waitSpace j =>
    simp only [Submitter.spaceNotified]
    split <;> exact sound
  | _ => exact sound

omit sound in
theorem Submitter.Sound.gateNotified
    (sound : phase.Sound shardCount shards) : phase.gateNotified.Sound shardCount shards := by
  cases phase <;> exact sound

omit sound in
theorem finishDrain_submitters (s : Inner) (i : Nat) :
    (finishDrain s i).submitters = s.submitters := by
  unfold finishDrain
  split
  · rfl
  · split <;> rfl

theorem sound_drainStep (stepped : drainStep s i action = some next) (v : Nat) :
    (next.submitters v).Sound shardCount next.shards := by
  have numbers := fun j => (drainStep_evolves stepped j : Evolves True _ _).numbers
  have before := (sound v).mono numbers
  unfold drainStep at stepped
  split at stepped
  next =>
    cases stepped
    exact before
  next =>
    split at stepped
    · split at stepped <;> cases stepped
      · rw [finishDrain_submitters]
        exact before
      · exact before
    · cases stepped
  next =>
    cases stepped
    exact before.spaceNotified i
  next => split at stepped <;> cases stepped <;> exact before
  next =>
    split at stepped <;> cases stepped
    exact before
  next =>
    cases stepped
    rw [finishDrain_submitters]
    exact before
  next => cases stepped

theorem sound_pauseStep {action : PauseAction}
    (stepped : pauseStep shardCount s p action = some next) (v : Nat) :
    (next.submitters v).Sound shardCount next.shards := by
  have numbers := fun j => (pauseStep_evolves stepped j : Evolves True _ _).numbers
  have before := (sound v).mono numbers
  unfold pauseStep at stepped
  split at stepped
  next =>
    split at stepped <;> cases stepped
    exact before
  next =>
    cases stepped
    exact before
  next =>
    split at stepped
    · split at stepped <;> cases stepped
      exact before
    · cases stepped
      exact before
  next =>
    split at stepped
    · split at stepped <;> cases stepped
      exact before
    · cases stepped
      exact before
  next =>
    split at stepped
    · split at stepped <;> cases stepped
      exact before
    · cases stepped
      exact before
  next =>
    split at stepped <;> cases stepped
    unfold lowerGate at before ⊢
    simp only at before ⊢
    split
    · exact (sound v).gateNotified
    · exact sound v
  next => cases stepped

theorem sound_step {action : Action}
    (stepped : step shardCount shardCapacity s action = some next) (v : Nat) :
    (next.submitters v).Sound shardCount next.shards := by
  cases action with
  | submitter w action => exact sound_submitStep sound stepped v
  | drain i action => exact sound_drainStep sound stepped v
  | pauser p action => exact sound_pauseStep sound stepped v

end

/-! ## Pauses -/

/-- What is known of the shards where a pause in force stands: the numbers it
has read are still the last ones, and those it has waited for are durable. -/
def Pauser.Settled (shardCount : Nat) (shards : Nat → Shard) : Pauser → Prop
  | .snapshotting true targets => ∀ j < targets.length, targets.getD j 0 = (shards j).nextSeq
  | .draining true targets _ | .running true targets _ =>
    ∀ j < shardCount, targets.getD j 0 = (shards j).nextSeq
  | .waiting true targets last =>
    (∀ j < shardCount, targets.getD j 0 = (shards j).nextSeq) ∧
      ∀ j < shardCount, j < last → (shards j).nextSeq ≤ (shards j).durable
  | .guarding => ∀ j < shardCount, (shards j).nextSeq ≤ (shards j).durable
  | _ => True

/-- Nothing is lost while no request is numbered. -/
theorem Pauser.Settled.mono (shards : Nat → Shard) {later : Nat → Shard}
    (numbers : ∀ j, (later j).nextSeq = (shards j).nextSeq)
    (durable : ∀ j, (shards j).durable ≤ (later j).durable) {phase : Pauser}
    (settled : phase.Settled shardCount shards) : phase.Settled shardCount later := by
  have reached : ∀ j, (shards j).nextSeq ≤ (shards j).durable →
      (later j).nextSeq ≤ (later j).durable := by
    intro j done
    rw [numbers j]
    exact done.trans (durable j)
  cases phase with
  | away => trivial
  | snapshotting gated targets =>
    cases gated with
    | false => trivial
    | true => exact fun j inside => (settled j inside).trans (numbers j).symm
  | draining gated targets last =>
    cases gated with
    | false => trivial
    | true => exact fun j inside => (settled j inside).trans (numbers j).symm
  | running gated targets last =>
    cases gated with
    | false => trivial
    | true => exact fun j inside => (settled j inside).trans (numbers j).symm
  | waiting gated targets last =>
    cases gated with
    | false => trivial
    | true =>
      exact ⟨fun j inside => (settled.1 j inside).trans (numbers j).symm,
        fun j inside before => reached j (settled.2 j inside before)⟩
  | guarding => exact fun j inside => reached j (settled j inside)

/-- A pause that is not in force knows nothing. -/
theorem Pauser.settled_of_not_raised {phase : Pauser}
    (down : phase.raised = false) : phase.Settled shardCount shards := by
  cases phase with
  | away => trivial
  | guarding => cases down
  | snapshotting gated targets => cases gated <;> trivial
  | draining gated targets last => cases gated <;> trivial
  | running gated targets last => cases gated <;> trivial
  | waiting gated targets last => cases gated <;> trivial

/-- The end of a drain lets a pause go on to the next shard. -/
theorem settled_finishDrain (settled : ∀ p, (s.pausers p).Settled shardCount shards) (p : Nat) :
    ((finishDrain s i).pausers p).Settled shardCount shards := by
  unfold finishDrain
  split
  · exact settled p
  · split
    next q _ _ gated targets last stands =>
      by_cases same : p = q
      · subst same
        have before := settled p
        rw [stands] at before
        simp only [Inner.pauser, Function.update_self]
        cases gated with
        | false => trivial
        | true => exact before
      · simpa [Inner.pauser, Inner.shard, same] using settled p
    next => exact settled p

theorem settled_move (phase : Pauser) (settled : ∀ q, (s.pausers q).Settled shardCount s.shards)
    (moved : (s.pausers p).Settled shardCount s.shards → phase.Settled shardCount s.shards)
    (q : Nat) : ((s.pauser p phase).pausers q).Settled shardCount s.shards := by
  by_cases same : q = p
  · subst same
    simpa [Inner.pauser] using moved (settled q)
  · simpa [Inner.pauser, same] using settled q

theorem settled_drainStep (settled : ∀ p, (s.pausers p).Settled shardCount s.shards)
    (stepped : drainStep s i action = some next) (p : Nat) :
    (next.pausers p).Settled shardCount s.shards := by
  unfold drainStep at stepped
  split at stepped
  next =>
    cases stepped
    exact settled p
  next =>
    split at stepped
    · split at stepped <;> cases stepped
      · exact settled_finishDrain settled p
      · exact settled p
    · cases stepped
  next =>
    cases stepped
    exact settled p
  next => split at stepped <;> cases stepped <;> exact settled p
  next =>
    split at stepped <;> cases stepped
    exact settled p
  next resolved _ =>
    cases stepped
    exact settled_finishDrain (s := s.shard i fun shard => shard.advanced resolved) settled p
  next => cases stepped

theorem settled_pauseStep {action : PauseAction}
    (settled : ∀ q, (s.pausers q).Settled shardCount s.shards)
    (stepped : pauseStep shardCount s p action = some next) (q : Nat) :
    (next.pausers q).Settled shardCount s.shards := by
  unfold pauseStep at stepped
  split at stepped
  next =>
    split at stepped <;> cases stepped
    exact settled_move (.snapshotting true []) settled (fun _ j inside => by cases inside) q
  next =>
    cases stepped
    exact settled_move (.snapshotting false []) settled (fun _ => trivial) q
  next gated targets stands =>
    split at stepped
    · split at stepped <;> cases stepped
      refine settled_move _ settled (fun before => ?_) q
      rw [stands] at before
      cases gated with
      | false => trivial
      | true =>
        intro j inside
        rw [List.length_append, List.length_singleton, Nat.lt_succ_iff_lt_or_eq] at inside
        rcases inside with inside | rfl
        · rw [List.getD_append _ _ _ _ inside]
          exact before j inside
        · simp
    next done =>
      cases stepped
      refine settled_move _ settled (fun before => ?_) q
      rw [stands] at before
      cases gated with
      | false => trivial
      | true => exact fun j inside => before j (by omega)
  next gated targets last stands =>
    split at stepped
    · split at stepped <;> cases stepped
      refine settled_move _ settled (fun before => ?_) q
      rw [stands] at before
      cases gated with
      | false => trivial
      | true => exact before
    · cases stepped
      refine settled_move _ settled (fun before => ?_) q
      rw [stands] at before
      cases gated with
      | false => trivial
      | true => exact ⟨before, fun j _ none_ => absurd none_ (Nat.not_lt_zero j)⟩
  next gated targets last stands =>
    split at stepped
    next inside =>
      split at stepped
      next reached =>
        cases stepped
        refine settled_move _ settled (fun before => ?_) q
        rw [stands] at before
        cases gated with
        | false => trivial
        | true =>
          refine ⟨before.1, fun j within passed => ?_⟩
          rcases Nat.lt_succ_iff_lt_or_eq.mp passed with passed | rfl
          · exact before.2 j within passed
          · exact (before.1 j within).symm.trans_le reached
      next => cases stepped
    next done =>
      cases stepped
      refine settled_move _ settled (fun before => ?_) q
      rw [stands] at before
      cases gated with
      | false => trivial
      | true => exact fun j inside => before.2 j inside (by omega)
  next =>
    split at stepped <;> cases stepped
    have moved := settled_move .away settled (p := p) (fun _ => trivial) q
    unfold lowerGate
    simp only
    split <;> exact moved
  next => cases stepped

end Steps

/-! ## The guarantee -/

/-- What holds in every state that the engine reaches. -/
structure Guarded (shardCount : Nat) (s : Inner) : Prop where
  gate : GateKept s
  ordered : ∀ i, (s.shards i).Ordered
  sound : ∀ w, (s.submitters w).Sound shardCount s.shards
  settled : ∀ p, (s.pausers p).Settled shardCount s.shards

namespace Guarded

variable {shardCount shardCapacity : Nat} {s next : Inner}

theorem fresh (last : Nat → Nat) : Guarded shardCount (Inner.fresh last) where
  gate := GateKept.fresh last
  ordered := fun _ => ⟨List.Pairwise.nil, by rintro _ ⟨⟩, by rintro _ ⟨⟩, le_rfl⟩
  sound := fun _ => trivial
  settled := fun _ => trivial

theorem step {action : Action} (guarded : Guarded shardCount s)
    (stepped : step shardCount shardCapacity s action = some next) : Guarded shardCount next where
  gate := guarded.gate.step stepped
  ordered := fun i => (step_evolves stepped i).ordered (guarded.ordered i)
  sound := sound_step guarded.sound stepped
  settled := by
    intro p
    by_cases appends : Appends s action
    · -- the gate is open, so no pause is in force
      obtain ⟨w, i, rfl, stands⟩ := appends
      have unpaused : s.admissionsPaused = 0 := guarded.gate.passed w (by rw [stands]; rfl)
      have same : next.pausers = s.pausers := by
        simp only [Admission.step, submitStep, stands] at stepped
        cases stepped
        rfl
      apply Pauser.settled_of_not_raised
      cases up : (next.pausers p).raised with
      | false => rfl
      | true =>
        have paused := guarded.gate.paused (same ▸ up)
        omega
    · have evolves := fun j => step_evolves stepped j
      refine Pauser.Settled.mono s.shards (fun j => ?_) (fun j => (evolves j).durable) ?_
      · by_contra moved
        exact appends ((evolves j).fixed moved)
      · cases action with
        | submitter w action =>
          have same : next.pausers = s.pausers := by
            simp only [Admission.step, submitStep] at stepped
            repeat' split at stepped
            all_goals first | (cases stepped; rfl) | cases stepped
          rw [same]
          exact guarded.settled p
        | drain i action => exact settled_drainStep guarded.settled stepped p
        | pauser q action => exact settled_pauseStep guarded.settled stepped p

theorem of_run {last : Nat → Nat} {actions : List Action}
    (run : runs (Admission.step shardCount shardCapacity) (Inner.fresh last) actions = some s) :
    Guarded shardCount s :=
  invariant_of_runs (fresh last) (fun _ _ _ guarded stepped => guarded.step stepped) run

/-- A shard whose last number is durable has nothing queued or drained. -/
theorem nothing_pending (guarded : Guarded shardCount s)
    (reached : (s.shards i).nextSeq ≤ (s.shards i).durable) : (s.shards i).pending = [] := by
  apply List.eq_nil_iff_forall_not_mem.mpr
  intro seq member
  have above := (guarded.ordered i).above seq member
  have below := (guarded.ordered i).below seq member
  omega

end Guarded

/-- **The snapshot gate.** In every state of every run: while a guard is held,
every queue is empty, every number and every ticket that was issued is durable, no
submitter is past the gate, and no step issues a number. While no pause is in force, nobody
waits at the gate without having been woken, and whoever looks at the gate is
admitted. -/
theorem snapshot_gate (shardCount shardCapacity : Nat) (last : Nat → Nat) (actions : List Action)
    (s : Inner)
    (run : runs (step shardCount shardCapacity) (Inner.fresh last) actions = some s) :
    (∀ p, s.pausers p = .guarding →
      (∀ i < shardCount, (s.shards i).buf = [] ∧ (s.shards i).nextSeq ≤ (s.shards i).durable) ∧
      (∀ w i seq, s.submitters w = .issued i seq → seq ≤ (s.shards i).durable) ∧
      (∀ w, (s.submitters w).passed = false) ∧
      ∀ action next, step shardCount shardCapacity s action = some next →
        ∀ i, (next.shards i).nextSeq = (s.shards i).nextSeq) ∧
    ((∀ p, (s.pausers p).raised = false) →
      (∀ w i, s.submitters w ≠ .waitGate i) ∧
      ∀ w i, s.submitters w = .haveBoth i →
        step shardCount shardCapacity s (.submitter w .checkGate) =
          some (s.submitter w (.admitted i))) := by
  have guarded := Guarded.of_run run
  constructor
  · intro p guards
    have paused := guarded.gate.paused (p := p) (by rw [guards]; rfl)
    have nobody : ∀ w, (s.submitters w).passed = false := by
      intro w
      cases passed : (s.submitters w).passed with
      | false => rfl
      | true =>
        have unpaused := guarded.gate.passed w passed
        omega
    have settled := guarded.settled p
    rw [guards] at settled
    refine ⟨fun i inside => ?_, fun w i seq stands => ?_, nobody, fun action next stepped i => ?_⟩
    · have empty := guarded.nothing_pending (settled i inside)
      exact ⟨(List.append_eq_nil_iff.mp empty).2, settled i inside⟩
    · have sound := guarded.sound w
      rw [stands] at sound
      exact sound.2.trans (settled i sound.1)
    · by_contra moved
      obtain ⟨w, j, -, stands⟩ := (step_evolves stepped i).fixed moved
      have passed := nobody w
      rw [stands] at passed
      cases passed
  · intro down
    have unpaused := guarded.gate.open_ down
    constructor
    · intro w i stands
      have paused := guarded.gate.waiting w i stands
      omega
    · intro w i stands
      simp only [step, submitStep, stands, unpaused, if_true]

/-- One request is admitted, and then a pause drains it. -/
def sampleActions : List Action :=
  [.submitter 0 (.call 0), .submitter 0 .lockQueue, .submitter 0 .checkSpace,
    .submitter 0 .lockGate, .submitter 0 .checkGate, .submitter 0 .append,
    .submitter 0 .unlockQueue, .submitter 0 .unlockGate, .pauser 0 .pause, .pauser 0 .snapshot,
    .pauser 0 .snapshot, .pauser 0 .drain, .drain 0 .take, .drain 0 .notifySpace,
    .drain 0 (.commit 1), .drain 0 .publish, .pauser 0 .drain, .pauser 0 .wait, .pauser 0 .wait]

theorem sample_guarded : ∃ s,
    runs (step 1 1) (Inner.fresh fun _ => 0) sampleActions = some s ∧
      s.pausers 0 = .guarding ∧ s.submitters 0 = .issued 0 1 ∧ 1 ≤ (s.shards 0).durable := by
  refine ⟨_, rfl, rfl, rfl, ?_⟩
  exact ((snapshot_gate 1 1 (fun _ => 0) sampleActions _ rfl).1 0 rfl).2.1 0 0 1 rfl

end OpenMemory.Engine.Admission
