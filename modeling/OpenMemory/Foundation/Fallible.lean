import Mathlib

/-!
# Fallible computations and their loops

A computation in `Except` either yields a value or stops with an error. Two
things are needed to reason about such code: what a successful sequence says
about its parts (`bind_eq_ok`, `refuseIf_eq_ok`), and what a successful loop
says about its steps.

A loop over a list is `List.foldlM`. Its induction rule tracks the prefix of
the list already consumed (`foldlM_prefix_induction`), so that an invariant may
speak of the elements seen so far.
-/

namespace Foundation

universe u v w

variable {ε : Type u} {α : Type v}

/-- Stop with `error` when `bad` holds. -/
def refuseIf (bad : Prop) [Decidable bad] (error : ε) : Except ε Unit :=
  if bad then .error error else .ok ()

variable {bad : Prop} {error : ε}

@[simp] theorem refuseIf_eq_ok [Decidable bad] {u : Unit} : refuseIf bad error = .ok u ↔ ¬ bad := by
  unfold refuseIf
  split <;> simp_all

theorem refuseIf_pos [Decidable bad] (h : bad) : refuseIf bad error = .error error := if_pos h

theorem refuseIf_neg [Decidable bad] (h : ¬ bad) : refuseIf bad error = .ok () := if_neg h

/-- Read an optional value, or stop with `error`. -/
def orRefuse (value : Option α) (error : ε) : Except ε α :=
  match value with
  | some a => .ok a
  | none => .error error

@[simp] theorem orRefuse_eq_ok {value : Option α} {a : α} :
    orRefuse value error = .ok a ↔ value = some a := by
  cases value <;> simp [orRefuse]

theorem bind_eq_ok {α β : Type v} {first : Except ε α} {next : α → Except ε β} {b : β} :
    (first >>= next) = .ok b ↔ ∃ a, first = .ok a ∧ next a = .ok b := by
  cases first with
  | error e =>
    constructor
    · intro impossible
      cases impossible
    · rintro ⟨_, impossible, _⟩
      cases impossible
  | ok a =>
    constructor
    · intro rest
      exact ⟨a, rfl, rest⟩
    · rintro ⟨_, same, rest⟩
      cases same
      exact rest

/-- Two continuations that agree on what the first part yields. -/
theorem bind_congr_of_ok {α β : Type v} {first : Except ε α} {next next' : α → Except ε β}
    (same : ∀ a, first = .ok a → next a = next' a) : first >>= next = first >>= next' := by
  cases first with
  | error e => rfl
  | ok a => exact same a rfl

theorem map_eq_ok {β : Type w} {result : Except ε α} {f : α → β} {b : β} :
    result.map f = .ok b ↔ ∃ a, result = .ok a ∧ f a = b := by
  cases result with
  | error e =>
    constructor
    · intro impossible
      cases impossible
    · rintro ⟨_, impossible, _⟩
      cases impossible
  | ok a =>
    constructor
    · intro same
      exact ⟨a, rfl, Except.ok.inj same⟩
    · rintro ⟨_, same, rfl⟩
      cases same
      rfl

theorem pure_eq_ok {a b : α} : (pure a : Except ε α) = .ok b ↔ a = b := by
  constructor
  · intro same
    cases same
    rfl
  · rintro rfl
    rfl

/-! ## Loops -/

section Loops

variable {R : Type w} {β : Type v} {step : β → R → Except ε β} {init final : β} {xs : List R}
  {motive : List R → β → Prop}

theorem foldlM_cons_eq_ok {x : R} : (x :: xs).foldlM step init = .ok final ↔
      ∃ middle, step init x = .ok middle ∧ xs.foldlM step middle = .ok final := by
  rw [List.foldlM_cons, bind_eq_ok]

private theorem foldlM_prefix_induction_from
    (advance : ∀ seen x before after, motive seen before → step before x = .ok after →
      motive (seen ++ [x]) after) : ∀ {xs seen : List R} {init final : β}, motive seen init →
      xs.foldlM step init = .ok final → motive (seen ++ xs) final
  | [], seen, init, final, start, run => by
    rw [List.foldlM_nil, pure_eq_ok] at run
    subst run
    simpa using start
  | x :: xs, seen, init, final, start, run => by
    obtain ⟨middle, first, rest⟩ := foldlM_cons_eq_ok.mp run
    have reached := foldlM_prefix_induction_from advance (advance seen x init middle start first)
      rest
    simpa using reached

/-- What holds of a prefix and of the next element. -/
theorem forall_mem_concat {α : Type*} {p : α → Prop} {prior : List α} {x : α}
    (before : ∀ a ∈ prior, p a) (next : p x) : ∀ a ∈ prior ++ [x], p a :=
  List.forall_mem_append.mpr ⟨before, List.forall_mem_singleton.mpr next⟩

/-- **The rule for a successful loop.** What holds before the loop, and is
preserved by every step that succeeds, holds of the whole list afterwards. -/
theorem foldlM_prefix_induction (start : motive [] init)
    (advance : ∀ seen x before after, motive seen before → step before x = .ok after →
      motive (seen ++ [x]) after) (run : xs.foldlM step init = .ok final) : motive xs final := by
  have reached := foldlM_prefix_induction_from advance start run
  simpa using reached

/-- The same rule for an invariant that does not mention the consumed prefix. -/
theorem foldlM_induction {motive : β → Prop} (start : motive init)
    (advance : ∀ x ∈ xs, ∀ before after, motive before → step before x = .ok after → motive after)
    (run : xs.foldlM step init = .ok final) : motive final := by
  induction xs generalizing init with
  | nil =>
    rw [List.foldlM_nil, pure_eq_ok] at run
    exact run ▸ start
  | cons x xs ih =>
    obtain ⟨middle, first, rest⟩ := foldlM_cons_eq_ok.mp run
    refine ih (advance x List.mem_cons_self init middle start first) ?_ rest
    intro y member
    exact advance y (List.mem_cons_of_mem _ member)

/-- **The rule for a loop that succeeds.** Where every step can be made from what holds before
it, the loop ends, and what is then kept holds of the whole list. -/
theorem foldlM_reaches (step : β → R → Except ε β) (xs : List R) (init : β) (start : motive [] init)
    (advance : ∀ seen x rest before, seen ++ x :: rest = xs → motive seen before →
      ∃ after, step before x = .ok after ∧ motive (seen ++ [x]) after) :
    ∃ final, xs.foldlM step init = .ok final ∧ motive xs final := by
  suffices later : ∀ rest seen before, seen ++ rest = xs → motive seen before →
      ∃ final, rest.foldlM step before = .ok final ∧ motive xs final from later xs [] init rfl start
  intro rest
  induction rest with
  | nil =>
    intro seen before all holds
    rw [List.append_nil] at all
    exact ⟨before, rfl, all ▸ holds⟩
  | cons x rest ih =>
    intro seen before all holds
    obtain ⟨middle, first, reached⟩ := advance seen x rest before all holds
    obtain ⟨final, others, done⟩ := ih (seen ++ [x]) middle (by simp [← all]) reached
    exact ⟨final, foldlM_cons_eq_ok.mpr ⟨middle, first, others⟩, done⟩

end Loops

theorem toOption_eq_some {result : Except ε α} {value : α} :
    result.toOption = some value ↔ result = .ok value := by
  cases result <;> simp [Except.toOption]

/-- What every step of a loop that may yield nothing preserves holds at its end. -/
theorem foldlM_some_induction {β : Type v} {σ : Type v} {motive : σ → Prop}
    {step : σ → β → Option σ} {list : List β} {init final : σ} (start : motive init)
    (preserved : ∀ element ∈ list, ∀ before after, motive before →
      step before element = some after → motive after)
    (run : list.foldlM step init = some final) : motive final := by
  induction list generalizing init with
  | nil =>
    cases run
    exact start
  | cons first rest ih =>
    rw [List.foldlM_cons, Option.bind_eq_bind, Option.bind_eq_some_iff] at run
    obtain ⟨middle, stepped, run⟩ := run
    exact ih (preserved first List.mem_cons_self init middle start stepped)
      (List.forall_mem_cons.mp preserved).2 run

end Foundation

/-!
## Loops that may return early

A loop whose body may end the whole function is a fold in `Except`: an error is
the result of the early return. An invariant of such a loop comes with what is
to hold of the result where a body returns.
-/

namespace Foundation

universe u v

variable {σ ρ : Type u} {β : Type v} {motive : σ → Prop} {returns : ρ → Prop}

/-- The loop goes on with a state as wanted, or returns a result as wanted. -/
def Settles (motive : σ → Prop) (returns : ρ → Prop) : Except ρ σ → Prop
  | .ok state => motive state
  | .error result => returns result

theorem settles_imp {weaker : σ → Prop} {result : ρ → Prop} {outcome : Except ρ σ}
    (settles : Settles motive returns outcome) (state : ∀ s, motive s → weaker s)
    (returned : ∀ r, returns r → result r) : Settles weaker result outcome := by
  cases outcome with
  | ok s => exact state s settles
  | error r => exact returned r settles

/-- **The rule for loops that may return early.** -/
theorem settles_foldlM {body : σ → β → Except ρ σ} {list : List β} {init : σ}
    (start : motive init)
    (preserved : ∀ element ∈ list, ∀ state, motive state →
      Settles motive returns (body state element)) :
    Settles motive returns (list.foldlM body init) := by
  induction list generalizing init with
  | nil => exact start
  | cons first rest ih =>
    rw [List.foldlM_cons]
    have one := preserved first List.mem_cons_self init start
    cases step : body init first with
    | error result =>
      rw [step] at one
      exact one
    | ok state =>
      rw [step] at one
      exact ih one (List.forall_mem_cons.mp preserved).2

end Foundation
