import Mathlib

/-!
# Programs that call their surroundings

A program is what it does until it needs an answer: it is finished, or it asks
one request and goes on with whatever answer it gets. Other programs may act
between a request and its answer, so a program says nothing about when it is
answered or by whom.

A history is anything the surroundings keep about a program while it runs. The
judgement `Leads` is the weakest condition on a program and its history under
which every admitted sequence of answers ends it as wanted.
-/

namespace Foundation

universe u v

variable {ι : Type} {ρ : ι → Type} {ε α β γ : Type}

/-- A program that asks requests of `ι`, answered in `ρ`, and finishes with `α`. -/
inductive Calls (ι : Type) (ρ : ι → Type) (α : Type) where
  | done (value : α)
  | ask (request : ι) (next : ρ request → Calls ι ρ α)

variable {program : Calls ι ρ α}

namespace Calls

/-- One request, whose answer is the result. -/
def request (i : ι) : Calls ι ρ (ρ i) := .ask i .done

/-- The second program takes over where the first one finishes. -/
def bind : Calls ι ρ α → (α → Calls ι ρ β) → Calls ι ρ β
  | .done value, then_ => then_ value
  | .ask i next, then_ => .ask i fun answer => (next answer).bind then_

instance : Monad (Calls ι ρ) where
  pure := .done
  bind := bind

@[simp] theorem pure_eq (value : α) : (pure value : Calls ι ρ α) = .done value := rfl

@[simp] theorem bind_eq (first : Calls ι ρ α) (then_ : α → Calls ι ρ β) :
    first >>= then_ = first.bind then_ := rfl

/-- The answers that `answered` admits, each with what it makes of the history,
lead from a history to a result and a history that are wanted. -/
def Leads (answered : γ → (i : ι) → ρ i → γ → Prop) (wanted : γ → α → Prop) :
    γ → Calls ι ρ α → Prop
  | history, .done value => wanted history value
  | history, .ask i next =>
    ∀ answer later, answered history i answer later → Leads answered wanted later (next answer)

variable {answered : γ → (i : ι) → ρ i → γ → Prop} {wanted other : γ → α → Prop} {history : γ}

/-- One answered request keeps a program on its way. -/
theorem Leads.answer {i : ι} {next : ρ i → Calls ι ρ α} {reply : ρ i} {later : γ}
    (leads : Leads answered wanted history (.ask i next))
    (admitted : answered history i reply later) : Leads answered wanted later (next reply) :=
  leads reply later admitted

theorem Leads.mono (implies : ∀ h a, wanted h a → other h a)
    (leads : Leads answered wanted history program) : Leads answered other history program := by
  induction program generalizing history with
  | done value => exact implies history value leads
  | ask i next ih =>
    intro answer later admitted
    exact ih answer (leads answer later admitted)

/-- **The rule for sequences.** What the first program leads to is a history from
which the second one leads on. -/
theorem leads_bind {wanted : γ → β → Prop} {first : Calls ι ρ α} {then_ : α → Calls ι ρ β} :
    Leads answered wanted history (first.bind then_) ↔
      Leads answered (fun h a => Leads answered wanted h (then_ a)) history first := by
  induction first generalizing history with
  | done value => exact Iff.rfl
  | ask i next ih =>
    constructor
    · intro leads answer later admitted
      exact (ih answer).mp (leads answer later admitted)
    · intro leads answer later admitted
      exact (ih answer).mpr (leads answer later admitted)

/-! ## Surroundings that stand still -/

/-- The result, when every request is answered by one function. -/
def answeredBy (answer : (i : ι) → ρ i) : Calls ι ρ α → α
  | .done value => value
  | .ask i next => (next (answer i)).answeredBy answer

/-- What is left of a program after its first requests are answered by one function. -/
def after (answer : (i : ι) → ρ i) : Nat → Calls ι ρ α → Calls ι ρ α
  | 0, program => program
  | _, .done value => .done value
  | count + 1, .ask i next => after answer count (next (answer i))

theorem answeredBy_bind {answer : (i : ι) → ρ i} {first : Calls ι ρ α} {then_ : α → Calls ι ρ β} :
    (first.bind then_).answeredBy answer = (then_ (first.answeredBy answer)).answeredBy answer := by
  induction first with
  | done value => rfl
  | ask i next ih => exact ih (answer i)

theorem answeredBy_after {answer : (i : ι) → ρ i} {count : Nat} :
    (program.after answer count).answeredBy answer = program.answeredBy answer := by
  induction count generalizing program with
  | zero => rfl
  | succ count ih =>
    cases program with
    | done value => rfl
    | ask i next => exact ih

/-! ## Programs that can fail -/

/-- A program that stops with the first error. -/
abbrev Fallible (ι : Type) (ρ : ι → Type) (ε : Type) := ExceptT ε (Calls ι ρ)

variable {answer : (i : ι) → ρ i} {first : Fallible ι ρ ε α} {then_ : α → Fallible ι ρ ε β}

/-- What is wanted of a sequence after its first part: an error ends it. -/
def onward (answered : γ → (i : ι) → ρ i → γ → Prop) (wanted : γ → Except ε β → Prop)
    (then_ : α → Fallible ι ρ ε β) (history : γ) : Except ε α → Prop
  | .ok value => Leads answered wanted history (then_ value).run
  | .error error => wanted history (.error error)

theorem leads_run_bind {wanted : γ → Except ε β → Prop} :
    Leads answered wanted history (first >>= then_).run ↔
      Leads answered (onward answered wanted then_) history first.run := by
  rw [ExceptT.run_bind, bind_eq, leads_bind]
  constructor
  · refine Leads.mono fun h result leads => ?_
    cases result with
    | ok value => exact leads
    | error error => exact leads
  · refine Leads.mono fun h result leads => ?_
    cases result with
    | ok value => exact leads
    | error error => exact leads

theorem answeredBy_run_bind {value : β} : (first >>= then_).run.answeredBy answer = .ok value ↔
      ∃ middle, first.run.answeredBy answer = .ok middle ∧
        (then_ middle).run.answeredBy answer = .ok value := by
  rw [ExceptT.run_bind, bind_eq, answeredBy_bind]
  cases first.run.answeredBy answer with
  | ok middle => simp
  | error error => simp [answeredBy]

/-! ## Surroundings that change with every answer -/

section Serving

variable {σ : Type u} {serve : σ → (i : ι) → ρ i × σ} {state : σ}

/-- The result, and the state that the surroundings are left in. -/
def served (serve : σ → (i : ι) → ρ i × σ) : σ → Calls ι ρ α → α × σ
  | state, .done value => (value, state)
  | state, .ask i next => served serve (serve state i).2 (next (serve state i).1)

theorem served_bind {first : Calls ι ρ α} {then_ : α → Calls ι ρ β} :
    served serve state (first.bind then_) =
      served serve (served serve state first).2 (then_ (served serve state first).1) := by
  induction first generalizing state with
  | done value => rfl
  | ask i next ih => exact ih (serve state i).1

/-- After a first part that succeeds the second one runs on what it has left. -/
theorem served_run_bind_of_ok {value : α}
    {later : σ} (succeeds : served serve state first.run = (.ok value, later)) :
    served serve state (first >>= then_).run = served serve later (then_ value).run := by
  rw [ExceptT.run_bind, bind_eq, served_bind, succeeds]

/-- A sequence that succeeds has two parts that do. -/
theorem served_run_bind_eq_ok
    {result : β} {last : σ} (succeeds : served serve state (first >>= then_).run =
      (.ok result, last)) : ∃ value middle, served serve state first.run = (.ok value, middle) ∧
        served serve middle (then_ value).run = (.ok result, last) := by
  rw [ExceptT.run_bind, bind_eq, served_bind] at succeeds
  cases outcome : served serve state first.run with
  | mk value middle =>
    rw [outcome] at succeeds
    cases value with
    | ok value => exact ⟨value, middle, rfl, succeeds⟩
    | error error => cases succeeds

end Serving

/-! ## Programs whose requests meet a precondition -/

/-- As `Leads`, and every request that is asked is one that may be asked then. -/
def Proceeds (asks : γ → ι → Prop) (answered : γ → (i : ι) → ρ i → γ → Prop)
    (wanted : γ → α → Prop) : γ → Calls ι ρ α → Prop
  | history, .done value => wanted history value
  | history, .ask i next => asks history i ∧
      ∀ answer later, answered history i answer later →
        Proceeds asks answered wanted later (next answer)

section Proceeds

variable {asks : γ → ι → Prop}

theorem Proceeds.mono (implies : ∀ h a, wanted h a → other h a)
    (proceeds : Proceeds asks answered wanted history program) :
    Proceeds asks answered other history program := by
  induction program generalizing history with
  | done value => exact implies history value proceeds
  | ask i next ih =>
    exact ⟨proceeds.1, fun answer later admitted =>
      ih answer (proceeds.2 answer later admitted)⟩

theorem proceeds_bind {wanted : γ → β → Prop} {first : Calls ι ρ α} {then_ : α → Calls ι ρ β} :
    Proceeds asks answered wanted history (first.bind then_) ↔
      Proceeds asks answered (fun h a => Proceeds asks answered wanted h (then_ a)) history
        first := by
  induction first generalizing history with
  | done value => exact Iff.rfl
  | ask i next ih =>
    constructor
    · rintro ⟨may, goesOn⟩
      exact ⟨may, fun answer later admitted => (ih answer).mp (goesOn answer later admitted)⟩
    · rintro ⟨may, goesOn⟩
      exact ⟨may, fun answer later admitted => (ih answer).mpr (goesOn answer later admitted)⟩

/-- The rule for sequences that may stop with an error. -/
theorem proceeds_run_bind {wanted : γ → Except ε β → Prop}
    (proceeds : Proceeds asks answered (fun h result => match result with
      | .ok value => Proceeds asks answered wanted h (then_ value).run
      | .error error => wanted h (.error error)) history first.run) :
    Proceeds asks answered wanted history (first >>= then_).run := by
  rw [ExceptT.run_bind, bind_eq, proceeds_bind]
  refine proceeds.mono fun h result holds => ?_
  cases result with
  | ok value => exact holds
  | error error => exact holds

end Proceeds

end Calls

end Foundation
