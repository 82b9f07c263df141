import OpenMemory.Engine.Durability

/-!
# Wake-ups of waiters

A waiter that is parked although the watermark has reached its ticket must have
a notification coming. That fails when a notification falls between the load
with which a waiter finds its ticket above the watermark and its parking: the
watermark passes the ticket, everyone parked is woken, and then the waiter
parks. A notification is timely when no waiter stands there with a ticket that
the watermark has reached.
-/

namespace OpenMemory.Engine.Durability

open Foundation

/-- Whoever is parked for a ticket that is durable has a notification coming. -/
def NoLostWakeup (s : Watch) : Prop :=
  ∀ waiter seq, s.phases waiter = .parked seq → seq ≤ s.durable → s.notifying = true

/-- When a drain notifies, no waiter is about to park for a ticket that the
watermark has reached. -/
def Timely (s : Watch) (action : Action) : Prop :=
  action = .notifyAll → s.notifying = true →
    ∀ waiter seq, s.phases waiter = .parking seq → s.durable < seq

/-- The same as `NoLostWakeup`, for those who are about to park as well. -/
structure Awaited (s : Watch) : Prop where
  parked : NoLostWakeup s
  parking : ∀ waiter seq, s.phases waiter = .parking seq → seq ≤ s.durable → s.notifying = true

namespace Awaited

variable {s : Watch}

theorem fresh (durable : Nat) : Awaited (Watch.fresh durable) where
  parked := by
    intro waiter seq phase
    cases phase
  parking := by
    intro waiter seq phase
    cases phase

/-- A waiter moves to a phase from which no notification is missed. -/
theorem move (awaited : Awaited s) (waiter : Nat) {phase : Phase}
    (parked : ∀ seq, phase = .parked seq → seq ≤ s.durable → s.notifying = true)
    (parking : ∀ seq, phase = .parking seq → seq ≤ s.durable → s.notifying = true) :
    Awaited (s.move waiter phase) where
  parked := by
    intro other seq stands reached
    by_cases same : other = waiter
    · subst same
      exact parked seq (by simpa [Watch.move] using stands) reached
    · exact awaited.parked other seq (by simpa [Watch.move, same] using stands) reached
  parking := by
    intro other seq stands reached
    by_cases same : other = waiter
    · subst same
      exact parking seq (by simpa [Watch.move] using stands) reached
    · exact awaited.parking other seq (by simpa [Watch.move, same] using stands) reached

/-- Neither the mutex nor the failures matter. -/
theorem withOwner (awaited : Awaited s) (owner : Option Nat) (failures : List (Nat × String)) :
    Awaited { s with owner := owner, failures := failures } where
  parked := awaited.parked
  parking := awaited.parking

end Awaited

/-- A step with a timely notification keeps everyone awaited. -/
theorem awaited_step {shard : Nat} {s next : Watch} {action : Action} (awaited : Awaited s)
    (timely : Timely s action) (stepped : step shard s action = some next) : Awaited next := by
  cases action with
  | wait waiter seq =>
    simp only [step] at stepped
    split at stepped <;> cases stepped
    · exact awaited.move waiter (by rintro _ ⟨⟩) (by rintro _ ⟨⟩)
    · exact awaited.move waiter (by rintro _ ⟨⟩) (by rintro _ ⟨⟩)
  | lock waiter =>
    simp only [step] at stepped
    split at stepped <;> cases stepped
    exact (awaited.move waiter (by rintro _ ⟨⟩) (by rintro _ ⟨⟩)).withOwner _ _
  | load waiter =>
    simp only [step] at stepped
    split at stepped
    next seq stands =>
      split at stepped
      next above =>
        cases stepped
        refine awaited.move waiter (by rintro _ ⟨⟩) ?_
        rintro _ ⟨⟩ reached
        exact absurd reached (Nat.not_le.mpr above)
      next reached =>
        cases stepped
        exact (awaited.move waiter (by rintro _ ⟨⟩) (by rintro _ ⟨⟩)).withOwner _ _
    next => cases stepped
  | park waiter =>
    simp only [step] at stepped
    split at stepped
    next seq stands =>
      cases stepped
      refine (awaited.move waiter ?_ (by rintro _ ⟨⟩)).withOwner _ _
      rintro _ ⟨⟩ reached
      exact awaited.parking waiter seq stands reached
    next => cases stepped
  | spuriousWake waiter =>
    simp only [step] at stepped
    split at stepped <;> cases stepped
    exact awaited.move waiter (by rintro _ ⟨⟩) (by rintro _ ⟨⟩)
  | recordFailure seq error =>
    simp only [step] at stepped
    split at stepped <;> cases stepped
    exact awaited.withOwner _ _
  | advance seq =>
    simp only [step] at stepped
    split at stepped <;> cases stepped
    exact ⟨fun _ _ _ _ => rfl, fun _ _ _ _ => rfl⟩
  | notifyAll =>
    simp only [step] at stepped
    split at stepped
    next notifying =>
      cases stepped
      constructor
      · intro waiter seq stands
        simp only at stands
        cases before : s.phases waiter <;> rw [before] at stands <;> cases stands
      · intro waiter seq stands reached
        simp only at stands reached
        cases before : s.phases waiter <;> rw [before] at stands <;> cases stands
        exact absurd reached (Nat.not_le.mpr (timely rfl notifying waiter seq before))
    next => cases stepped

/-- A notification that is not timely leaves a waiter that can park for good. -/
theorem lost_of_untimely {shard : Nat} {s : Watch} (untimely : ¬ Timely s .notifyAll) :
    ∃ next, step shard s .notifyAll = some next ∧
      ∃ waiter after, step shard next (.park waiter) = some after ∧ ¬ NoLostWakeup after := by
  unfold Timely at untimely
  push Not at untimely
  obtain ⟨-, notifying, waiter, seq, stands, reached⟩ := untimely
  refine ⟨_, by rw [step, if_pos notifying], waiter, ?_⟩
  simp only [step, stands, Phase.woken]
  refine ⟨_, rfl, fun kept => ?_⟩
  have coming := kept waiter seq (by simp [Watch.move]) reached
  cases coming

/-- **Wake-ups of waiters.** In every run, no state that is passed, nor one that
a waiter about to park can make of it, has a waiter parked for a durable ticket
without a notification coming, if and only if every notification of the run is
timely. -/
theorem wakeups_kept_iff (shard durable : Nat) (actions : List Action) :
    (∀ before after s, actions = before ++ after →
        runs (step shard) (Watch.fresh durable) before = some s →
          NoLostWakeup s ∧ ∀ waiter next, step shard s (.park waiter) = some next →
            NoLostWakeup next) ↔
      Throughout (step shard) Timely (Watch.fresh durable) actions := by
  constructor
  · intro kept
    rw [throughout_iff]
    rintro before action after s rfl passed
    by_contra untimely
    have notified : action = .notifyAll := by
      by_contra other
      exact untimely fun same => absurd same other
    subst notified
    obtain ⟨next, stepped, waiter, lost, parks, missed⟩ := lost_of_untimely untimely
    have reached := runs_concat.mpr ⟨s, passed, stepped⟩
    exact missed ((kept (before ++ [.notifyAll]) after next (by simp) reached).2 waiter lost parks)
  · rintro met before after s rfl passed
    have awaited := invariant_of_throughout (Awaited.fresh durable)
      (fun _ _ _ awaited timely stepped => awaited_step awaited timely stepped)
      (throughout_append.mp met).1 passed
    refine ⟨awaited.parked, fun waiter next parks => ?_⟩
    exact (awaited_step awaited (by rintro ⟨⟩) parks).parked

/-- The drain notifies after the waiter found its ticket above the watermark
and before it parks: the waiter is parked for good. -/
theorem wakeup_lost :
    ∃ s, runs (step 0) (Watch.fresh 0)
        [.wait 0 1, .lock 0, .load 0, .advance 1, .notifyAll, .park 0] = some s ∧
      ¬ NoLostWakeup s := by
  refine ⟨_, rfl, fun kept => ?_⟩
  have coming := kept 0 1 rfl (by decide)
  cases coming

end OpenMemory.Engine.Durability
