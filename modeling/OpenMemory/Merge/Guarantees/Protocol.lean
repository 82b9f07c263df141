import OpenMemory.Merge.Fixture

/-!
# The sink protocol

Whatever a sink answers, the calls a run makes on it follow one protocol: begin,
emit, and then either a finish that is accepted or one abort after everything
else (`Protocol`). A collecting sink that serves one run after another exposes a
plan exactly when one of the runs succeeded, and keeps it with the actions of
that run whatever follows.
-/

namespace OpenMemory.Merge

open Foundation

/-- The calls on a sink, and the result of the run that makes them. -/
inductive Protocol : List SinkCall → Except MergeError MergePlan → Prop
  | noCalls (error : MergeError) : Protocol [] (.error error)
  | beginRefused (preamble : PlanPrelude) (error : MergeError) :
      Protocol [.begin preamble false] (.error error)
  | finished (preamble : PlanPrelude) (emits : List MergeAction) (plan : MergePlan) :
      Protocol (.begin preamble true :: (emits.map fun action => .emit action true) ++
        [.finish plan true]) (.ok plan)
  | finishRefused (preamble : PlanPrelude) (emits : List MergeAction) (plan : MergePlan)
      (error : MergeError) :
      Protocol (.begin preamble true :: (emits.map fun action => .emit action true) ++
        [.finish plan false, .abort]) (.error error)
  | aborted (preamble : PlanPrelude) (emits : List MergeAction) (error : MergeError) :
      Protocol (.begin preamble true :: (emits.map fun action => .emit action true) ++ [.abort])
        (.error error)
  | emitRefused (preamble : PlanPrelude) (emits : List MergeAction) (refused : MergeAction)
      (error : MergeError) :
      Protocol (.begin preamble true :: (emits.map fun action => .emit action true) ++
        [.emit refused false, .abort]) (.error error)

section Protocol

variable [Blake3] {σ : Type} {request : MergeRequest} {sink : ActionSink σ} {s s' : σ}
  {result : Except MergeError MergePlan} {calls : List SinkCall}

/-- The calls of a run follow the protocol, and there are none exactly when the
headers are refused. -/
theorem MergeRequest.Ran.protocol (ran : request.Ran sink s result s' calls) :
    Protocol calls result ∧ (calls = [] ↔ ∃ error,
      validateHeaders request.target.header request.source.header = .error error) := by
  have refuted : validateHeaders request.target.header request.source.header = .ok () →
      ¬ ∃ error, validateHeaders request.target.header request.source.header = .error error := by
    rintro valid ⟨error, invalid⟩
    rw [valid] at invalid
    cases invalid
  cases ran with
  | headersRefused error invalid => exact ⟨.noCalls error, iff_of_true rfl ⟨error, invalid⟩⟩
  | beginRefused error _ valid _ =>
    exact ⟨.beginRefused _ error, iff_of_false (by simp) (refuted valid)⟩
  | bodyFailed error begun after fed entries valid _ _ log _ =>
    refine ⟨?_, iff_of_false (by simp) (refuted valid)⟩
    generalize request.script.emitted = values at log
    cases log with
    | accepted => exact .aborted _ values error
    | refused emits action rest _ =>
      have calls := Protocol.emitRefused request.preamble emits action error
      simpa using calls
  | finishRefused error plan _ _ _ valid _ _ _ _ =>
    exact ⟨.finishRefused _ _ plan error, iff_of_false (by simp) (refuted valid)⟩
  | finished plan _ _ _ valid _ _ _ _ =>
    exact ⟨.finished _ _ plan, iff_of_false (by simp) (refuted valid)⟩

end Protocol

/-! ## One collecting sink, many runs -/

section Sessions

variable {sink : MemoryActionSink}

theorem feed_memory {actions : List MergeAction} {after : MemoryActionSink}
    (begun : sink.state = .begun) {result : Except MergeError Unit}
    (fed : (feed MemoryActionSink.emit actions).run sink = (result, after)) :
    after.state = .begun ∧ after.preamble = sink.preamble ∧ after.plan = sink.plan ∧
      (result = .ok () → after.actions = sink.actions ++ actions) := by
  induction actions generalizing sink with
  | nil =>
    obtain ⟨rfl, rfl⟩ := Prod.mk.inj fed
    exact ⟨begun, rfl, rfl, fun _ => (List.append_nil _).symm⟩
  | cons action rest ih =>
    by_cases full : sink.actions.length = sink.capacity
    · have refused : (MemoryActionSink.emit action).run sink =
          (.error ⟨.sinkFailure, "sink action capacity exceeded"⟩, sink) := by
        simp only [MemoryActionSink.emit, begun, ne_eq, not_true_eq_false, if_false, full, if_true]
      rw [feed, Effect.bind_error refused] at fed
      obtain ⟨rfl, rfl⟩ := Prod.mk.inj fed
      exact ⟨begun, rfl, rfl, fun impossible => by cases impossible⟩
    · have accepted : (MemoryActionSink.emit action).run sink =
          (.ok (), { sink with actions := sink.actions ++ [action] }) := by
        simp only [MemoryActionSink.emit, begun, ne_eq, not_true_eq_false, if_false, full]
      rw [feed, Effect.bind_ok accepted] at fed
      obtain ⟨state, preamble, plan, collected⟩ :=
        @ih { sink with actions := sink.actions ++ [action] } begun fed
      refine ⟨state, preamble, plan, fun success => ?_⟩
      rw [collected success]
      simp

variable [Blake3]

/-- The sink after it has served these requests, one after another. -/
def sinkAfter : List MergeRequest → MemoryActionSink → MemoryActionSink
  | [], sink => sink
  | request :: rest, sink =>
    sinkAfter rest ((request.run MemoryActionSink.toActionSink).run sink).2

theorem sinkAfter_nil (sink : MemoryActionSink) : sinkAfter [] sink = sink := rfl

/-- A sink that is not idle refuses every run, and stays as it is. -/
theorem run_not_idle (busy : sink.state ≠ .idle) (request : MergeRequest) :
    ∃ error, (request.run MemoryActionSink.toActionSink).run sink = (.error error, sink) := by
  cases headers : validateHeaders request.target.header request.source.header with
  | error error => exact ⟨error, MergeRequest.run_of_invalid _ headers sink⟩
  | ok _ =>
    have refused : (MemoryActionSink.toActionSink.begin request.preamble).run sink =
        (.error ⟨.protocolViolation, "sink begin called outside idle state"⟩, sink) := by
      simp only [MemoryActionSink.toActionSink, MemoryActionSink.begin, ne_eq, busy,
        not_false_eq_true, if_true]
    rw [MergeRequest.run_of_valid _ headers]
    exact ⟨_, Effect.bind_error refused⟩

/-- A sink that nothing has been collected in. -/
structure MemoryActionSink.Unused (sink : MemoryActionSink) : Prop where
  state : sink.state = .idle
  actions : sink.actions = []
  plan : sink.plan = none

/-- What one run leaves an unused sink in. -/
inductive Served (request : MergeRequest) (sink : MemoryActionSink) :
    Except MergeError MergePlan → MemoryActionSink → Prop
  | untouched (error : MergeError) : Served request sink (.error error) sink
  | aborted (error : MergeError) (after : MemoryActionSink) (state : after.state = .aborted)
      (plan : after.plan = none) : Served request sink (.error error) after
  | finished (plan : MergePlan) (after : MemoryActionSink) (state : after.state = .finished)
      (exposed : after.plan = some plan) (actions : after.actions = request.script.emitted) :
      Served request sink (.ok plan) after

theorem served_of_unused {after : MemoryActionSink} {request : MergeRequest}
    {result : Except MergeError MergePlan} (unused : sink.Unused)
    (run : (request.run MemoryActionSink.toActionSink).run sink = (result, after)) :
    Served request sink result after := by
  obtain ⟨result', after', calls, same, _, ran⟩ :=
    request.run_ran MemoryActionSink.toActionSink sink
  rw [run] at same
  obtain ⟨rfl, rfl⟩ := Prod.mk.inj same
  have begins : (MemoryActionSink.toActionSink.begin request.preamble).run sink =
      (.ok (), { sink with preamble := some request.preamble, state := .begun }) := by
    simp only [MemoryActionSink.toActionSink, MemoryActionSink.begin, unused.state, ne_eq,
      not_true_eq_false, if_false]
  cases ran with
  | headersRefused error _ => exact .untouched error
  | beginRefused error _ _ answer =>
    rw [begins] at answer
    cases answer
  | bodyFailed error begun fed _ _ _ answer emitted _ _ =>
    rw [begins] at answer
    cases answer
    obtain ⟨state, _, _, _⟩ := feed_memory rfl emitted
    refine .aborted error _ ?_ ?_ <;>
      simp only [MemoryActionSink.toActionSink, MemoryActionSink.abort, state, ne_eq,
        reduceCtorEq, not_false_eq_true, if_true]
  | finishRefused error plan _ middle last _ answer emitted _ refused =>
    rw [begins] at answer
    cases answer
    obtain ⟨state, _, _, _⟩ := feed_memory rfl emitted
    have unchanged : last = middle := by
      simp only [MemoryActionSink.toActionSink, MemoryActionSink.finish, state, ne_eq,
        not_true_eq_false, if_false] at refused
      split at refused <;> cases refused
      rfl
    subst unchanged
    refine .aborted error _ ?_ ?_ <;>
      simp only [MemoryActionSink.toActionSink, MemoryActionSink.abort, state, ne_eq,
        reduceCtorEq, not_false_eq_true, if_true]
  | finished plan _ middle last _ answer emitted _ accepted =>
    rw [begins] at answer
    cases answer
    obtain ⟨state, _, _, collected⟩ := feed_memory rfl emitted
    have complete := collected rfl
    simp only [MemoryActionSink.toActionSink, MemoryActionSink.finish, state, ne_eq,
      not_true_eq_false, if_false] at accepted
    split at accepted
    · cases accepted
    · cases accepted
      refine .finished plan _ rfl rfl ?_
      simpa [unused.actions] using complete

/-! ## Sessions -/

theorem sinkAfter_cons (request : MergeRequest) (rest : List MergeRequest)
    (sink : MemoryActionSink) :
    sinkAfter (request :: rest) sink =
      sinkAfter rest ((request.run MemoryActionSink.toActionSink).run sink).2 := rfl

theorem sinkAfter_append (first last : List MergeRequest) (sink : MemoryActionSink) :
    sinkAfter (first ++ last) sink = sinkAfter last (sinkAfter first sink) := by
  induction first generalizing sink with
  | nil => rfl
  | cons request rest ih => rw [List.cons_append, sinkAfter_cons, sinkAfter_cons, ih]

theorem sinkAfter_not_idle (busy : sink.state ≠ .idle)
    (requests : List MergeRequest) : sinkAfter requests sink = sink := by
  induction requests with
  | nil => rfl
  | cons request rest ih =>
    obtain ⟨error, run⟩ := run_not_idle busy request
    rw [sinkAfter_cons, run, ih]

/-- A sink stays unused until a run aborts it or finishes on it. -/
theorem unused_or_busy (unused : sink.Unused) (requests : List MergeRequest) :
    (sinkAfter requests sink).Unused ∨ (sinkAfter requests sink).state ≠ .idle := by
  induction requests generalizing sink with
  | nil => exact .inl unused
  | cons request rest ih =>
    rcases run : (request.run MemoryActionSink.toActionSink).run sink with ⟨result, after⟩
    rw [sinkAfter_cons, run]
    cases served_of_unused unused run with
    | untouched _ => exact ih unused
    | aborted _ _ state _ =>
      have busy : after.state ≠ .idle := by simp [state]
      exact .inr (by rwa [sinkAfter_not_idle busy])
    | finished _ _ state _ _ =>
      have busy : after.state ≠ .idle := by simp [state]
      exact .inr (by rwa [sinkAfter_not_idle busy])

/-- After a run that succeeded the sink stays as that run left it. -/
theorem sinkAfter_success {sink : MemoryActionSink} (unused : sink.Unused)
    {before after : List MergeRequest} {request : MergeRequest} {plan : MergePlan}
    (success : ((request.run MemoryActionSink.toActionSink).run (sinkAfter before sink)).1 =
      .ok plan) :
    sinkAfter (before ++ request :: after) sink = sinkAfter (before ++ [request]) sink ∧
      (sinkAfter (before ++ request :: after) sink).plan = some plan ∧
      (sinkAfter (before ++ request :: after) sink).actions = request.script.emitted := by
  have fresh : (sinkAfter before sink).Unused := by
    rcases unused_or_busy unused before with fresh | busy
    · exact fresh
    · obtain ⟨error, run⟩ := run_not_idle busy request
      rw [run] at success
      cases success
  rcases run : (request.run MemoryActionSink.toActionSink).run (sinkAfter before sink) with
    ⟨result, last⟩
  rw [run] at success
  simp only at success
  subst success
  rw [sinkAfter_append, sinkAfter_append, sinkAfter_cons, sinkAfter_cons, run]
  cases served_of_unused fresh run with
  | finished _ _ state exposed actions =>
    have busy : last.state ≠ .idle := by simp [state]
    rw [sinkAfter_not_idle busy, sinkAfter_not_idle busy]
    exact ⟨rfl, exposed, actions⟩

/-- A plan that is exposed was the result of a run. -/
theorem success_of_exposed (unused : sink.Unused) {requests : List MergeRequest} {plan : MergePlan}
    (exposed : (sinkAfter requests sink).plan = some plan) :
    ∃ before request after, requests = before ++ request :: after ∧
      ((request.run MemoryActionSink.toActionSink).run (sinkAfter before sink)).1 = .ok plan := by
  induction requests generalizing sink with
  | nil =>
    rw [sinkAfter, unused.plan] at exposed
    cases exposed
  | cons request rest ih =>
    rcases run : (request.run MemoryActionSink.toActionSink).run sink with ⟨result, last⟩
    rw [sinkAfter_cons, run] at exposed
    cases served_of_unused unused run with
    | untouched error =>
      obtain ⟨before, next, after, rfl, success⟩ := ih unused exposed
      refine ⟨request :: before, next, after, rfl, ?_⟩
      rw [sinkAfter_cons, run]
      exact success
    | aborted error _ state plan =>
      have busy : last.state ≠ .idle := by simp [state]
      rw [sinkAfter_not_idle busy, plan] at exposed
      cases exposed
    | finished finished _ state shown actions =>
      have busy : last.state ≠ .idle := by simp [state]
      rw [sinkAfter_not_idle busy, shown] at exposed
      cases exposed
      exact ⟨[], request, rest, rfl, congrArg Prod.fst run⟩

omit [Blake3] in
theorem new_unused {capacity : Nat}
    (made : MemoryActionSink.new capacity = .ok sink) : sink.Unused := by
  unfold MemoryActionSink.new at made
  split at made
  · cases made
  · cases made
    exact ⟨rfl, rfl, rfl⟩

end Sessions

/-- **The sink protocol.** The calls of every run on every sink follow the protocol;
and on one collecting sink, over any sequence of runs, a plan is exposed exactly
when one of them succeeded, with the actions of that run, and stays so. -/
theorem sink_protocol [Blake3] :
    (∀ (σ : Type) (sink : ActionSink σ) (s : σ) (request : MergeRequest),
      ∃ result s' calls, (request.run sink).run s = (result, s') ∧
        (request.run sink.recorded).run (s, []) = (result, s', calls) ∧
        Protocol calls result ∧
        (calls = [] ↔ ∃ error,
          validateHeaders request.target.header request.source.header = .error error)) ∧
    ∀ (capacity : Nat) (sink : MemoryActionSink), MemoryActionSink.new capacity = .ok sink →
      ∀ requests : List MergeRequest,
        (∀ plan, (sinkAfter requests sink).plan = some plan ↔
          ∃ before request after, requests = before ++ request :: after ∧
            ((request.run MemoryActionSink.toActionSink).run (sinkAfter before sink)).1 =
              .ok plan) ∧
        ∀ before request after plan, requests = before ++ request :: after →
          ((request.run MemoryActionSink.toActionSink).run (sinkAfter before sink)).1 = .ok plan →
          sinkAfter requests sink = sinkAfter (before ++ [request]) sink ∧
          (sinkAfter requests sink).plan = some plan ∧
          (sinkAfter requests sink).actions = acceptedActions
            ((request.run MemoryActionSink.toActionSink.recorded).run
              (sinkAfter before sink, [])).2.2 := by
  refine ⟨?_, ?_⟩
  · intro σ sink s request
    obtain ⟨result, s', calls, run, recorded, ran⟩ := request.run_ran sink s
    exact ⟨result, s', calls, run, recorded, ran.protocol⟩
  · intro capacity sink made requests
    have unused := new_unused made
    refine ⟨fun plan => ⟨success_of_exposed unused, ?_⟩, ?_⟩
    · rintro ⟨before, request, after, rfl, success⟩
      exact (sinkAfter_success unused success).2.1
    · rintro before request after plan rfl success
      obtain ⟨stays, exposed, actions⟩ := @sinkAfter_success _ _ unused before after request plan
        success
      refine ⟨stays, exposed, ?_⟩
      rw [actions]
      obtain ⟨result, s', calls, run, recorded, _⟩ :=
        request.run_ran MemoryActionSink.toActionSink (sinkAfter before sink)
      rw [run] at success
      have plans : request.Plans MemoryActionSink.toActionSink (sinkAfter before sink) plan
          (acceptedActions ((request.run MemoryActionSink.toActionSink.recorded).run
            (sinkAfter before sink, [])).2.2) := by
        refine ⟨?_, rfl⟩
        rw [recorded]
        exact success
      exact plans.script.2.2

/-! ## An example -/

section Example

open Fixture

/-- After the sample has succeeded, running it again leaves its plan exposed. -/
theorem sample_exposed : ∃ plan,
    (sinkAfter [sampleRequest, sampleRequest] sampleSink).plan = some plan := by
  have made : MemoryActionSink.new 100 = .ok sampleSink := unwrap_eq
  obtain ⟨plan, plans⟩ := sample_plans
  have success : ((sampleRequest.run MemoryActionSink.toActionSink).run
      (sinkAfter [] sampleSink)).1 = .ok plan := by
    -- the run is not evaluated here
    rw [sinkAfter_nil]
    exact plans.succeeds
  exact ⟨plan, ((sink_protocol.2 100 sampleSink made [sampleRequest, sampleRequest]).1 plan).mpr
    ⟨[], sampleRequest, [sampleRequest], rfl, success⟩⟩

end Example

end OpenMemory.Merge
