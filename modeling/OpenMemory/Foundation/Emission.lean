import OpenMemory.Foundation.Fallible

/-!
# Computations that emit to a consumer

A producer hands values one at a time to a consumer that it does not control:
each hand-over may fail, and the consumer keeps whatever state it reached. The
producer itself may also fail. `Effect` is this setting: a consumer state is
threaded through, and survives an error.

Most producers never look at the consumer otherwise. Such a body is described
by a `Script`: the values it would emit if the consumer accepted everything,
and its own result. `EmitsOnly` says that against every consumer the body does
exactly what replaying its script does. The class of such bodies is closed
under sequencing and loops, so a planner written in this style needs no second
definition: its script is what it does against a consumer that collects
everything (`EmitsOnly.eq_replay`).
-/

namespace Foundation

/-- A fallible computation that owns a consumer in state `σ`. -/
structure Effect (ε σ α : Type) where
  run : σ → Except ε α × σ

namespace Effect

variable {ε σ α β : Type} {first : Effect ε σ α} {next : α → Effect ε σ β} {s s' : σ}

@[ext] theorem ext {second : Effect ε σ α} (same : ∀ s, first.run s = second.run s) :
    first = second := by
  cases first
  cases second
  simp only [mk.injEq]
  exact funext same

instance : Monad (Effect ε σ) where
  pure a := ⟨fun s => (.ok a, s)⟩
  bind first next := ⟨fun s =>
    match first.run s with
    | (.ok a, s') => (next a).run s'
    | (.error e, s') => (.error e, s')⟩

/-- A computation that leaves the consumer alone. -/
def lift (result : Except ε α) : Effect ε σ α := ⟨fun s => (result, s)⟩

instance : MonadLift (Except ε) (Effect ε σ) := ⟨lift⟩

@[simp] theorem pure_run (a : α) (s : σ) : (pure a : Effect ε σ α).run s = (.ok a, s) := rfl

@[simp] theorem lift_run (result : Except ε α) (s : σ) :
    (lift result : Effect ε σ α).run s = (result, s) := rfl

@[simp] theorem liftM_run (result : Except ε α) (s : σ) :
    (liftM result : Effect ε σ α).run s = (result, s) := rfl

theorem bind_run (first : Effect ε σ α) (next : α → Effect ε σ β) (s : σ) :
    (first >>= next).run s =
      match first.run s with
      | (.ok a, s') => (next a).run s'
      | (.error e, s') => (.error e, s') := rfl

theorem bind_ok {a : α}
    (step : first.run s = (.ok a, s')) : (first >>= next).run s = (next a).run s' := by
  rw [bind_run, step]

theorem bind_error {e : ε}
    (step : first.run s = (.error e, s')) : (first >>= next).run s = (.error e, s') := by
  rw [bind_run, step]

theorem bind_eq_ok {b : β} : (first >>= next).run s = (.ok b, s') ↔
      ∃ a middle, first.run s = (.ok a, middle) ∧ (next a).run middle = (.ok b, s') := by
  rw [bind_run]
  rcases first.run s with ⟨_ | a, middle⟩
  · constructor
    · intro impossible
      cases impossible
    · rintro ⟨_, _, impossible, _⟩
      cases impossible
  · constructor
    · intro rest
      exact ⟨a, middle, rfl, rest⟩
    · rintro ⟨_, _, same, rest⟩
      cases same
      exact rest

theorem bind_assoc {γ : Type} (first : Effect ε σ α) (next : α → Effect ε σ β)
    (last : β → Effect ε σ γ) :
    (first >>= next) >>= last = first >>= fun a => next a >>= last := by
  ext s : 1
  simp only [bind_run]
  rcases first.run s with ⟨_ | _, _⟩ <;> rfl

end Effect

/-! ## Scripts -/

/-- The values a body emits, and its own result. -/
structure Script (A ε α : Type) where
  emitted : List A
  result : Except ε α

section Scripts

variable {A ε σ α β γ : Type}

/-- Hand over the values in order, until the consumer refuses one. -/
def feed (emit : A → Effect ε σ Unit) : List A → Effect ε σ Unit
  | [] => pure ()
  | a :: rest => do
      emit a
      feed emit rest

theorem feed_append (emit : A → Effect ε σ Unit) (first last : List A) :
    feed emit (first ++ last) = (do feed emit first; feed emit last) := by
  induction first with
  | nil => rfl
  | cons a rest ih =>
    show (emit a >>= fun _ => feed emit (rest ++ last)) = _
    rw [ih]
    exact (Effect.bind_assoc _ _ _).symm

namespace Script

/-- What a script does against a consumer. -/
def replay (script : Script A ε α) (emit : A → Effect ε σ Unit) : Effect ε σ α := do
  feed emit script.emitted
  Effect.lift script.result

/-- One script after another. -/
def andThen (first : Script A ε α) (next : α → Script A ε β) : Script A ε β :=
  match first.result with
  | .ok a => ⟨first.emitted ++ (next a).emitted, (next a).result⟩
  | .error e => ⟨first.emitted, .error e⟩

theorem replay_andThen (first : Script A ε α) (next : α → Script A ε β)
    (emit : A → Effect ε σ Unit) :
    (first.andThen next).replay emit = first.replay emit >>= fun a => (next a).replay emit := by
  obtain ⟨emitted, result⟩ := first
  cases result with
  | error e =>
    ext s : 1
    simp only [andThen, replay, Effect.bind_run]
    rcases (feed emit emitted).run s with ⟨_ | _, _⟩ <;> rfl
  | ok a =>
    ext s : 1
    simp only [andThen, replay, feed_append, Effect.bind_run]
    rcases (feed emit emitted).run s with ⟨_ | _, _⟩ <;> rfl

end Script

/-- A body that may be run against any consumer. -/
abbrev Producer (A ε α : Type) := (σ : Type) → (A → Effect ε σ Unit) → Effect ε σ α

/-- The body uses its consumer only to emit, in the order of some script. -/
def EmitsOnly (body : Producer A ε α) : Prop :=
  ∃ script : Script A ε α, ∀ σ (emit : A → Effect ε σ Unit), body σ emit = script.replay emit

namespace EmitsOnly

theorem lift (result : Except ε α) :
    EmitsOnly (A := A) (fun _ _ => Effect.lift result) :=
  ⟨⟨[], result⟩, fun _ _ => rfl⟩

theorem pure (a : α) : EmitsOnly (A := A) (ε := ε) (fun _ _ => Pure.pure a) :=
  ⟨⟨[], .ok a⟩, fun _ _ => rfl⟩

theorem emit (a : A) : EmitsOnly (ε := ε) (fun _ emit => emit a) := by
  refine ⟨⟨[a], .ok ()⟩, fun _ emit => ?_⟩
  ext s : 1
  simp only [Script.replay, feed, Effect.bind_run]
  rcases (emit a).run s with ⟨_ | _, _⟩ <;> rfl

theorem bind {body : Producer A ε α} {next : α → Producer A ε β} (first : EmitsOnly body)
    (rest : ∀ a, EmitsOnly (next a)) :
    EmitsOnly (fun σ emit => body σ emit >>= fun a => next a σ emit) := by
  obtain ⟨script, same⟩ := first
  choose scripts each using rest
  refine ⟨script.andThen scripts, fun σ emit => ?_⟩
  have tails : (fun a => next a σ emit) = fun a => (scripts a).replay emit :=
    funext fun a => each a σ emit
  rw [Script.replay_andThen]
  simp only [same σ emit, tails]

theorem foldlM {S R : Type} {step : S → R → Producer A ε S}
    (each : ∀ acc record, EmitsOnly (step acc record)) (records : List R) (init : S) :
    EmitsOnly (fun σ emit => records.foldlM (fun acc record => step acc record σ emit) init) := by
  induction records generalizing init with
  | nil => exact EmitsOnly.pure init
  | cons record rest ih =>
    simp only [List.foldlM_cons]
    exact EmitsOnly.bind (each init record) ih

end EmitsOnly

/-! ## The collecting consumer -/

/-- The consumer that accepts every value and keeps them in order. -/
def collect (a : A) : Effect ε (List A) Unit := ⟨fun kept => (.ok (), kept ++ [a])⟩

theorem feed_collect (values kept : List A) :
    (feed (ε := ε) collect values).run kept = (.ok (), kept ++ values) := by
  induction values generalizing kept with
  | nil => simp [feed]
  | cons a rest ih =>
    have accepted : (collect (ε := ε) a).run kept = (.ok (), kept ++ [a]) := rfl
    rw [feed, Effect.bind_ok accepted, ih]
    simp

/-- What a body does against the collecting consumer. -/
def scriptOf (body : Producer A ε α) : Script A ε α where
  emitted := ((body (List A) collect).run []).2
  result := ((body (List A) collect).run []).1

theorem scriptOf_replay (script : Script A ε α) :
    scriptOf (fun _ emit => script.replay emit) = script := by
  simp only [scriptOf, Script.replay, Effect.bind_run, feed_collect, List.nil_append,
    Effect.lift_run]

/-- **A body that only emits is its script**, against every consumer. -/
theorem EmitsOnly.eq_replay {body : Producer A ε α} (only : EmitsOnly body) (σ : Type)
    (emit : A → Effect ε σ Unit) : body σ emit = (scriptOf body).replay emit := by
  obtain ⟨script, same⟩ := only
  have described : scriptOf body = script := by
    rw [← scriptOf_replay script]
    simp only [scriptOf, same]
  rw [described]
  exact same σ emit

/-! ## Logging consumers -/

variable {C : Type}

/-- A call to a consumer that also logs whether it was accepted. -/
def noted (call : Bool → C) (effect : Effect ε σ α) : Effect ε (σ × List C) α :=
  ⟨fun s => ((effect.run s.1).1, (effect.run s.1).2, s.2 ++ [call (effect.run s.1).1.isOk])⟩

theorem noted_run (call : Bool → C) {effect : Effect ε σ α} {s s' : σ} {result : Except ε α}
    (answer : effect.run s = (result, s')) (log : List C) :
    (noted call effect).run (s, log) = (result, s', log ++ [call result.isOk]) := by
  simp only [noted, answer]

/-- What the log says after some values were handed over: all were accepted, or
those before the refused one. -/
inductive LogOf (call : A → Bool → C) : List A → Except ε Unit → List C → Prop
  | accepted (values : List A) : LogOf call values (.ok ()) (values.map fun a => call a true)
  | refused (values : List A) (a : A) (rest : List A) (error : ε) :
      LogOf call (values ++ a :: rest) (.error error)
        ((values.map fun a => call a true) ++ [call a false])

theorem LogOf.of_ok {call : A → Bool → C} {values : List A} {log : List C}
    (logOf : LogOf (ε := ε) call values (.ok ()) log) :
    log = values.map fun a => call a true := by
  cases logOf
  rfl

/-- Logging does not change what a consumer does, and the log is complete. -/
theorem feed_noted (emit : A → Effect ε σ Unit) (call : A → Bool → C) (values : List A) (s : σ)
    (log : List C) :
    ∃ entries, (feed (fun a => noted (call a) (emit a)) values).run (s, log) =
        (((feed emit values).run s).1, ((feed emit values).run s).2, log ++ entries) ∧
      LogOf call values ((feed emit values).run s).1 entries := by
  induction values generalizing s log with
  | nil => exact ⟨[], by simp [feed], .accepted []⟩
  | cons a rest ih =>
    cases answer : (emit a).run s with
    | mk result after =>
    cases result with
    | error error =>
      have logged : (noted (call a) (emit a)).run (s, log) =
          (.error error, after, log ++ [call a false]) := noted_run (call a) answer log
      refine ⟨[call a false], ?_, ?_⟩
      · rw [feed, feed, Effect.bind_error logged, Effect.bind_error answer]
      · rw [feed, Effect.bind_error answer]
        exact .refused [] a rest error
    | ok _ =>
      have logged : (noted (call a) (emit a)).run (s, log) =
          (.ok (), after, log ++ [call a true]) := noted_run (call a) answer log
      obtain ⟨entries, later, logOf⟩ := ih after (log ++ [call a true])
      refine ⟨call a true :: entries, ?_, ?_⟩
      · rw [feed, feed, Effect.bind_ok logged, Effect.bind_ok answer, later]
        simp
      · rw [feed, Effect.bind_ok answer]
        generalize ((feed emit rest).run after).1 = result at logOf
        cases logOf with
        | accepted => exact .accepted (a :: rest)
        | refused values b more error => exact .refused (a :: values) b more error

end Scripts

end Foundation
