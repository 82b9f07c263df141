import OpenMemory.Foundation.Fallible

/-!
# Which errors a computation may end in

`FailsWith` says of a result that its error, if it is one, is expected. A
computation whose failures are all of one kind succeeds as soon as failures of
that kind are ruled out, which is how a statement about everything but, say, the
disk is made.
-/

namespace Foundation

universe u v w

variable {ε : Type u} {α β : Type v} {expected : ε → Prop}

/-- The result is a success or one of the expected errors. -/
def FailsWith (expected : ε → Prop) : Except ε α → Prop
  | .ok _ => True
  | .error error => expected error

/-- None of these errors is the result. -/
def Spared (expected : ε → Prop) (result : Except ε α) : Prop :=
  ∀ error, result = .error error → ¬ expected error

theorem failsWith_of_eq_ok {result : Except ε α} {value : α} (same : result = .ok value) :
    FailsWith expected result := same ▸ trivial

/-- **The rule for a sequence**: the second part runs on what the first one yields. -/
theorem failsWith_bind {first : Except ε α} {next : α → Except ε β}
    (one : FailsWith expected first)
    (rest : ∀ value, first = .ok value → FailsWith expected (next value)) :
    FailsWith expected (first >>= next) := by
  cases first with
  | error error => exact one
  | ok value => exact rest value rfl

theorem failsWith_refuseIf {bad : Prop} [Decidable bad] {error : ε}
    (refused : bad → expected error) : FailsWith expected (refuseIf bad error) := by
  by_cases holds : bad
  · rw [refuseIf_pos holds]
    exact refused holds
  · rw [refuseIf_neg holds]
    trivial

theorem failsWith_orRefuse {value : Option α} {error : ε}
    (refused : value = none → expected error) : FailsWith expected (orRefuse value error) := by
  cases value with
  | none => exact refused rfl
  | some value => trivial

/-- A computation that is spared all its failures succeeds. -/
theorem FailsWith.succeeds {result : Except ε α} (fails : FailsWith expected result)
    (spared : Spared expected result) : ∃ value, result = .ok value := by
  cases result with
  | error error => exact absurd fails (spared error rfl)
  | ok value => exact ⟨value, rfl⟩

/-- The failures of the first part are failures of the whole. -/
theorem Spared.first {first : Except ε α} {next : α → Except ε β}
    (spared : Spared expected (first >>= next)) : Spared expected first := by
  rintro error rfl
  exact spared error rfl

theorem Spared.next {first : Except ε α} {next : α → Except ε β} {value : α}
    (spared : Spared expected (first >>= next)) (yields : first = .ok value) :
    Spared expected (next value) := by
  cases yields
  exact spared

/-- A loop of checks passes when every check does. -/
theorem forM_eq_ok {list : List β} {check : β → Except ε PUnit} {u : PUnit} :
    list.forM check = .ok u ↔ ∀ element ∈ list, check element = .ok u := by
  induction list with
  | nil =>
    constructor
    · intro _ element member
      cases member
    · intro _
      rfl
  | cons element rest ih =>
    rw [List.forM_eq_forM] at ih ⊢
    rw [List.forM_cons, bind_eq_ok, List.forall_mem_cons, ← ih]
    constructor
    · rintro ⟨_, first, others⟩
      exact ⟨first, others⟩
    · rintro ⟨first, others⟩
      exact ⟨u, first, others⟩

/-! ## Commits that may be struck -/

variable {σ : Type v} {fault : Option ε}

/-- A result, unless a fault strikes what leads to it. -/
def attempt (fault : Option ε) (result : Except ε α) : Except ε α :=
  result >>= fun value =>
    match fault with
    | some error => .error error
    | none => .ok value

theorem attempt_eq_ok {result : Except ε α} {value : α} :
    attempt fault result = .ok value ↔ fault = none ∧ result = .ok value := by
  unfold attempt
  rw [bind_eq_ok]
  cases fault with
  | none => simp
  | some error => simp

/-- A call that commits a state, and goes on from there: what does not commit leaves the
state as it was. -/
def commitThen (before : σ) (committed : Except ε (σ × α)) (rest : σ → α → σ × Except ε β) :
    σ × Except ε β :=
  match committed with
  | .ok (after, value) => rest after value
  | .error error => (before, .error error)

/-- **The rule for commits.** A call that ends in an error keeps what it should, exactly
when its errors after the commit keep it. -/
theorem commitThen_keeps {same : σ → σ → Prop} (refl : ∀ state, same state state) {before : σ}
    {committed : Except ε (σ × α)} {rest : σ → α → σ × Except ε β} :
    (∀ error, (commitThen before committed rest).2 = .error error →
        same before (commitThen before committed rest).1) ↔
      ∀ after value, committed = .ok (after, value) → ∀ error,
        (rest after value).2 = .error error → same before (rest after value).1 := by
  unfold commitThen
  cases committed with
  | error error =>
    constructor
    · intro _ after value impossible
      cases impossible
    · intro _ _ _
      exact refl before
  | ok result =>
    obtain ⟨after, value⟩ := result
    constructor
    · intro keeps _ _ yields
      cases yields
      exact keeps
    · intro keeps
      exact keeps after value rfl

end Foundation
