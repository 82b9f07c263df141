import Mathlib

/-!
# Runs of a state machine

A machine is a partial step function: an action is possible in a state when it
yields a next state. A run is a list of actions that are all possible, one after
the other. What every step preserves holds at the end of every run, and a
condition that only some steps meet may be asked of a run along its way.
-/

namespace Foundation

universe u v

variable {σ : Type u} {α : Type v}

/-- The state at the end of a list of actions, if all of them are possible. -/
def runs (step : σ → α → Option σ) : σ → List α → Option σ
  | s, [] => some s
  | s, action :: rest => (step s action).bind fun next => runs step next rest

/-- Every action of the list meets the condition in the state it is taken in. -/
def Throughout (step : σ → α → Option σ) (condition : σ → α → Prop) : σ → List α → Prop
  | _, [] => True
  | s, action :: rest =>
    condition s action ∧ ∀ next, step s action = some next → Throughout step condition next rest

variable {step : σ → α → Option σ} {condition weaker : σ → α → Prop} {s t next : σ} {action : α}
  {first last rest : List α} {motive : σ → Prop}

@[simp] theorem runs_nil : runs step s [] = some s := rfl

theorem runs_cons : runs step s (action :: rest) = some t ↔
    ∃ next, step s action = some next ∧ runs step next rest = some t := by
  rw [runs, Option.bind_eq_some_iff]

theorem runs_singleton : runs step s [action] = step s action := by
  rw [runs]
  cases step s action <;> rfl

/-- A run is cut into two. -/
theorem runs_append : runs step s (first ++ last) = some t ↔
    ∃ middle, runs step s first = some middle ∧ runs step middle last = some t := by
  induction first generalizing s with
  | nil => simp
  | cons action rest ih =>
    rw [List.cons_append, runs_cons]
    constructor
    · rintro ⟨next, stepped, run⟩
      obtain ⟨middle, before, after⟩ := ih.mp run
      exact ⟨middle, runs_cons.mpr ⟨next, stepped, before⟩, after⟩
    · rintro ⟨middle, before, after⟩
      obtain ⟨next, stepped, before⟩ := runs_cons.mp before
      exact ⟨next, stepped, ih.mpr ⟨middle, before, after⟩⟩

theorem runs_concat : runs step s (first ++ [action]) = some t ↔
    ∃ middle, runs step s first = some middle ∧ step middle action = some t := by
  rw [runs_append]
  simp only [runs_singleton]

/-- **The rule for runs with a condition.** What holds at the start, and is
preserved by every step that meets the condition, holds at the end. -/
theorem invariant_of_throughout (start : motive s)
    (preserved : ∀ s action next, motive s → condition s action → step s action = some next →
      motive next)
    (met : Throughout step condition s first) (run : runs step s first = some t) : motive t := by
  induction first generalizing s with
  | nil =>
    cases run
    exact start
  | cons action rest ih =>
    obtain ⟨next, stepped, run⟩ := runs_cons.mp run
    exact ih (preserved s action next start met.1 stepped) (met.2 next stepped) run

theorem throughout_true : Throughout step (fun _ _ => True) s first := by
  induction first generalizing s with
  | nil => trivial
  | cons action rest ih => exact ⟨trivial, fun _ _ => ih⟩

/-- **The rule for runs.** What holds at the start, and is preserved by every
step, holds at the end. -/
theorem invariant_of_runs (start : motive s)
    (preserved : ∀ s action next, motive s → step s action = some next → motive next)
    (run : runs step s first = some t) : motive t :=
  invariant_of_throughout start (fun s action next held _ stepped =>
    preserved s action next held stepped) throughout_true run

/-- What the actions of a list preserve holds at the end of its run. -/
theorem invariant_of_mem (start : motive s)
    (preserved : ∀ action ∈ first, ∀ s next, motive s → step s action = some next → motive next)
    (run : runs step s first = some t) : motive t := by
  induction first generalizing s with
  | nil =>
    cases run
    exact start
  | cons action rest ih =>
    obtain ⟨next, stepped, run⟩ := runs_cons.mp run
    exact ih (preserved action List.mem_cons_self s next start stepped)
      (List.forall_mem_cons.mp preserved).2 run

theorem throughout_append : Throughout step condition s (first ++ last) ↔
    Throughout step condition s first ∧
      ∀ middle, runs step s first = some middle → Throughout step condition middle last := by
  induction first generalizing s with
  | nil => simp [Throughout]
  | cons action rest ih =>
    rw [List.cons_append]
    constructor
    · rintro ⟨met, later⟩
      refine ⟨⟨met, fun next stepped => (ih.mp (later next stepped)).1⟩, ?_⟩
      intro middle run
      obtain ⟨next, stepped, run⟩ := runs_cons.mp run
      exact (ih.mp (later next stepped)).2 middle run
    · rintro ⟨⟨met, later⟩, following⟩
      refine ⟨met, fun next stepped => ih.mpr ⟨later next stepped, ?_⟩⟩
      exact fun middle run => following middle (runs_cons.mpr ⟨next, stepped, run⟩)

/-- A condition holds throughout exactly when it holds wherever a first part of
the list ends and is followed by an action. -/
theorem throughout_iff : Throughout step condition s first ↔
    ∀ before action after middle, first = before ++ action :: after →
      runs step s before = some middle → condition middle action := by
  constructor
  · rintro met before action after middle rfl run
    exact ((throughout_append.mp met).2 middle run).1
  · intro everywhere
    induction first generalizing s with
    | nil => trivial
    | cons action rest ih =>
      refine ⟨everywhere [] action rest s rfl rfl, fun next stepped => ih ?_⟩
      intro before other after middle split run
      exact everywhere (action :: before) other after middle (by rw [split]; rfl)
        (runs_cons.mpr ⟨next, stepped, run⟩)

end Foundation
