import Mathlib

/-!
# Values that a crash may set back

A store commits one value after another. Commits survive a crash of the
process, but a loss of power may undo those made since the last checkpoint: the
store comes back as it was after some earlier commit, never before the
checkpoint. `Durable` keeps the value of the last checkpoint and the later
ones, and `states` lists everything a crash may bring back.
-/

namespace Foundation

universe u

/-- A checkpointed value and the commits made since, oldest first. -/
structure Durable (α : Type u) where
  stable : α
  later : List α
  deriving DecidableEq

namespace Durable

variable {α : Type u} {x : Durable α} {a b : α}

/-- The value a reader sees. -/
def current (x : Durable α) : α := x.later.getLastD x.stable

def commit (x : Durable α) (a : α) : Durable α := { x with later := x.later ++ [a] }

/-- Everything committed becomes safe. -/
def checkpoint (x : Durable α) : Durable α := ⟨x.current, []⟩

/-- A crash that keeps the first commits. -/
def rollback (x : Durable α) (kept : Nat) : Durable α := { x with later := x.later.take kept }

/-- What a crash may bring back. -/
def states (x : Durable α) : List α := x.stable :: x.later

@[simp] theorem commit_stable : (x.commit a).stable = x.stable := rfl

@[simp] theorem rollback_stable (kept : Nat) : (x.rollback kept).stable = x.stable := rfl

@[simp] theorem checkpoint_stable : x.checkpoint.stable = x.current := rfl

@[simp] theorem current_commit : (x.commit a).current = a := by
  simp [current, commit]

@[simp] theorem current_checkpoint : x.checkpoint.current = x.current := rfl

theorem stable_mem : x.stable ∈ x.states := List.mem_cons_self

theorem current_mem : x.current ∈ x.states := by
  obtain ⟨stable, later⟩ := x
  rcases List.eq_nil_or_concat later with rfl | ⟨front, last, rfl⟩
  · exact List.mem_cons_self
  · simp [current, states]

theorem mem_states_commit : b ∈ (x.commit a).states ↔ b ∈ x.states ∨ b = a := by
  simp [states, commit, or_assoc]

theorem mem_states_checkpoint : b ∈ x.checkpoint.states ↔ b = x.current := by
  simp [states, checkpoint]

theorem mem_states_of_rollback {kept : Nat} (member : b ∈ (x.rollback kept).states) :
    b ∈ x.states := by
  rcases List.mem_cons.mp member with rfl | later
  · exact stable_mem
  · exact List.mem_cons_of_mem _ (List.mem_of_mem_take later)

/-! ## Values that only grow -/

/-- Later commits are not smaller in the given measure. -/
def Rising (x : Durable α) (measure : α → Nat) : Prop :=
  x.states.Pairwise fun a b => measure a ≤ measure b

namespace Rising

variable {measure : α → Nat}

theorem stable_le (rising : x.Rising measure) (member : a ∈ x.states) :
    measure x.stable ≤ measure a := by
  rcases List.mem_cons.mp member with rfl | later
  · exact le_rfl
  · exact (List.pairwise_cons.mp rising).1 a later

theorem le_current (rising : x.Rising measure) (member : a ∈ x.states) :
    measure a ≤ measure x.current := by
  obtain ⟨stable, later⟩ := x
  rcases List.eq_nil_or_concat later with rfl | ⟨front, last, rfl⟩
  · rw [List.mem_singleton.mp member]
    exact le_rfl
  · have isLast : (Durable.mk stable (front.concat last)).current = last := by simp [current]
    have shape : (Durable.mk stable (front.concat last)).states = (stable :: front) ++ [last] := by
      simp [states]
    rw [isLast]
    rw [Rising, shape, List.pairwise_append] at rising
    rw [shape] at member
    rcases List.mem_append.mp member with earlier | isFinal
    · exact rising.2.2 a earlier last (List.mem_singleton_self last)
    · rw [List.mem_singleton.mp isFinal]

theorem commit (rising : x.Rising measure) (above : measure x.current ≤ measure a) :
    (x.commit a).Rising measure := by
  have shape : (x.commit a).states = x.states ++ [a] := rfl
  rw [Rising, shape, List.pairwise_append]
  refine ⟨rising, List.pairwise_singleton _ _, ?_⟩
  intro earlier member b isNew
  rw [List.mem_singleton.mp isNew]
  exact (rising.le_current member).trans above

theorem checkpoint : x.checkpoint.Rising measure := List.pairwise_singleton _ _

theorem rollback (rising : x.Rising measure) (kept : Nat) : (x.rollback kept).Rising measure :=
  rising.sublist ((List.take_sublist _ _).cons_cons _)

end Rising

end Durable

end Foundation
