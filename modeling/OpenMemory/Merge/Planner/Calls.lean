import OpenMemory.Merge.Planner.Run

/-!
# The calls of a run

A run is observed through the calls it makes on its sink. `recorded` writes
every call down, with the sink's answer, and changes nothing else. There are
five ways a run can go (`Ran`): the headers are refused before any call, the
sink refuses to begin, the body fails and is aborted, the finish is refused and
aborted, or the plan is finished. `Plans` says of a run that it succeeded, with
this plan and after these actions.
-/

namespace OpenMemory.Merge

open Foundation

/-! ## Recording -/

/-- A call on a sink, and whether the sink accepted it. -/
inductive SinkCall where
  | begin (preamble : PlanPrelude) (accepted : Bool)
  | emit (action : MergeAction) (accepted : Bool)
  | finish (plan : MergePlan) (accepted : Bool)
  | abort

/-- The action that was handed over, when it was accepted. -/
def SinkCall.acceptedAction : SinkCall → Option MergeAction
  | .emit action true => some action
  | _ => none

def acceptedActions (calls : List SinkCall) : List MergeAction :=
  calls.filterMap SinkCall.acceptedAction

theorem acceptedActions_emits (actions : List MergeAction) :
    acceptedActions (actions.map fun action => .emit action true) = actions := by
  induction actions with
  | nil => rfl
  | cons action rest ih => exact congrArg (action :: ·) ih

/-- The sink that also writes down the calls made on it. -/
def ActionSink.recorded {σ : Type} (sink : ActionSink σ) : ActionSink (σ × List SinkCall) where
  begin preamble := noted (.begin preamble) (sink.begin preamble)
  emit action := noted (.emit action) (sink.emit action)
  finish plan := noted (.finish plan) (sink.finish plan)
  abort s := (sink.abort s.1, s.2 ++ [.abort])

/-! ## Requests -/

/-- The inputs of one planning call. -/
structure MergeRequest where
  target : SnapshotSource
  source : SnapshotSource
  receipts : PlanningReceipts
  policy : MergePolicy

variable {request : MergeRequest}

namespace MergeRequest

variable [Blake3] {σ : Type}

def preamble (request : MergeRequest) : PlanPrelude :=
  preludeOf request.target.header request.source.header request.policy

def run (request : MergeRequest) (sink : ActionSink σ) : Effect MergeError σ MergePlan :=
  planMerge request.target request.source request.receipts request.policy sink

/-- What the body of the run does against a sink that accepts everything. -/
def script (request : MergeRequest) : Script MergeAction MergeError MergePlan :=
  scriptOf (planAfterBegin request.target request.source request.receipts request.policy
    request.preamble)

/-- The run succeeds with this plan, and these are the actions it emitted. -/
def Plans (request : MergeRequest) (sink : ActionSink σ) (s : σ) (plan : MergePlan)
    (actions : List MergeAction) : Prop :=
  ((request.run sink.recorded).run (s, [])).1 = .ok plan ∧
    acceptedActions ((request.run sink.recorded).run (s, [])).2.2 = actions

/-- The ways a run can go: its result, the state it leaves the sink in, and the
calls it makes. -/
inductive Ran (request : MergeRequest) (sink : ActionSink σ) (s : σ) :
    Except MergeError MergePlan → σ → List SinkCall → Prop
  | headersRefused (error : MergeError)
      (invalid : validateHeaders request.target.header request.source.header = .error error) :
      Ran request sink s (.error error) s []
  | beginRefused (error : MergeError) (s' : σ)
      (valid : validateHeaders request.target.header request.source.header = .ok ())
      (answer : (sink.begin request.preamble).run s = (.error error, s')) :
      Ran request sink s (.error error) s' [.begin request.preamble false]
  | bodyFailed (error : MergeError) (begun after : σ) (fed : Except MergeError Unit)
      (entries : List SinkCall)
      (valid : validateHeaders request.target.header request.source.header = .ok ())
      (answer : (sink.begin request.preamble).run s = (.ok (), begun))
      (emitted : (feed sink.emit request.script.emitted).run begun = (fed, after))
      (log : LogOf .emit request.script.emitted fed entries)
      (failed : fed = .error error ∨ fed = .ok () ∧ request.script.result = .error error) :
      Ran request sink s (.error error) (sink.abort after)
        (.begin request.preamble true :: entries ++ [.abort])
  | finishRefused (error : MergeError) (plan : MergePlan) (begun after last : σ)
      (valid : validateHeaders request.target.header request.source.header = .ok ())
      (answer : (sink.begin request.preamble).run s = (.ok (), begun))
      (emitted : (feed sink.emit request.script.emitted).run begun = (.ok (), after))
      (planned : request.script.result = .ok plan)
      (refused : (sink.finish plan).run after = (.error error, last)) :
      Ran request sink s (.error error) (sink.abort last)
        (.begin request.preamble true ::
          (request.script.emitted.map fun action => .emit action true) ++
            [.finish plan false, .abort])
  | finished (plan : MergePlan) (begun after last : σ)
      (valid : validateHeaders request.target.header request.source.header = .ok ())
      (answer : (sink.begin request.preamble).run s = (.ok (), begun))
      (emitted : (feed sink.emit request.script.emitted).run begun = (.ok (), after))
      (planned : request.script.result = .ok plan)
      (accepted : (sink.finish plan).run after = (.ok (), last)) :
      Ran request sink s (.ok plan) last
        (.begin request.preamble true ::
          (request.script.emitted.map fun action => .emit action true) ++ [.finish plan true])

/-- The body of a run replays its script. -/
theorem body_eq_replay (request : MergeRequest) (sink : ActionSink σ) :
    planAfterBegin request.target request.source request.receipts request.policy request.preamble
      σ sink.emit = request.script.replay sink.emit :=
  (planAfterBegin_emitsOnly _ _ _ _ _).eq_replay σ sink.emit

theorem run_of_valid (sink : ActionSink σ)
    (valid : validateHeaders request.target.header request.source.header = .ok ()) :
    request.run sink = (do
      sink.begin request.preamble
      concludeWith sink (request.script.replay sink.emit)) := by
  ext s : 1
  rw [run, planMerge, valid, ← body_eq_replay]
  rfl

theorem run_of_invalid (sink : ActionSink σ) {error : MergeError}
    (invalid : validateHeaders request.target.header request.source.header = .error error)
    (s : σ) : (request.run sink).run s = (.error error, s) := by
  rw [run, planMerge, invalid]
  rfl

variable {s : σ} {sink : ActionSink σ}

/-- The part of a run after the beginning, with and without recording. -/
private theorem concluded_ran {begun : σ}
    (valid : validateHeaders request.target.header request.source.header = .ok ())
    (answer : (sink.begin request.preamble).run s = (.ok (), begun)) : ∃ result s' calls,
      (concludeWith sink (request.script.replay sink.emit)).run begun = (result, s') ∧
      (concludeWith sink.recorded (request.script.replay sink.recorded.emit)).run
        (begun, [.begin request.preamble true]) = (result, s', calls) ∧
      request.Ran sink s result s' calls := by
  obtain ⟨entries, fedRecorded, log⟩ := feed_noted sink.emit SinkCall.emit request.script.emitted
    begun [.begin request.preamble true]
  cases emitted : (feed sink.emit request.script.emitted).run begun with
  | mk fed after =>
  rw [emitted] at fedRecorded log
  change (feed sink.recorded.emit _).run _ = _ at fedRecorded
  simp only [concludeWith, Script.replay]
  cases fed with
  | error error =>
    refine ⟨.error error, sink.abort after,
      .begin request.preamble true :: entries ++ [.abort], ?_, ?_,
      .bodyFailed error begun after _ entries valid answer emitted log (.inl rfl)⟩
    · rw [Effect.bind_error emitted]
    · rw [Effect.bind_error fedRecorded]
      rfl
  | ok _ =>
    rw [log.of_ok] at fedRecorded
    rw [Effect.bind_ok emitted, Effect.bind_ok fedRecorded]
    cases planned : request.script.result with
    | error error =>
      exact ⟨_, _, _, rfl, rfl, .bodyFailed error begun after _ _ valid answer emitted
        (.accepted _) (.inr ⟨rfl, planned⟩)⟩
    | ok plan =>
      simp only [Effect.lift_run]
      cases finishing : (sink.finish plan).run after with
      | mk ending last =>
      have recorded := noted_run (SinkCall.finish plan) finishing
        ([.begin request.preamble true] ++
          request.script.emitted.map fun action => SinkCall.emit action true)
      change (sink.recorded.finish plan).run _ = _ at recorded
      rw [recorded]
      cases ending with
      | error error =>
        refine ⟨_, _, _, rfl, ?_, .finishRefused error plan begun after last valid answer
          emitted planned finishing⟩
        simp [ActionSink.recorded, Except.isOk, Except.toBool]
      | ok _ =>
        exact ⟨_, _, _, rfl, rfl, .finished plan begun after last valid answer emitted planned
          finishing⟩

/-- **Every run goes one of the five ways**, and recording does not change it. -/
theorem run_ran (request : MergeRequest) (sink : ActionSink σ) (s : σ) :
    ∃ result s' calls, (request.run sink).run s = (result, s') ∧
      (request.run sink.recorded).run (s, []) = (result, s', calls) ∧
      request.Ran sink s result s' calls := by
  cases headers : validateHeaders request.target.header request.source.header with
  | error error =>
    exact ⟨_, s, [], run_of_invalid sink headers s, run_of_invalid sink.recorded headers _,
      .headersRefused error headers⟩
  | ok _ =>
    rw [run_of_valid sink headers, run_of_valid sink.recorded headers]
    cases answer : (sink.begin request.preamble).run s with
    | mk beginning begun =>
    have recorded := noted_run (SinkCall.begin request.preamble) answer []
    change (sink.recorded.begin request.preamble).run _ = _ at recorded
    cases beginning with
    | error error =>
      exact ⟨_, begun, _, Effect.bind_error answer, Effect.bind_error recorded,
        .beginRefused error begun headers answer⟩
    | ok _ =>
      rw [Effect.bind_ok answer, Effect.bind_ok recorded]
      exact concluded_ran headers answer

/-- What is recorded of a run does not change it. -/
theorem Plans.succeeds {plan : MergePlan}
    {actions : List MergeAction} (plans : request.Plans sink s plan actions) :
    ((request.run sink).run s).1 = .ok plan := by
  obtain ⟨result, s', calls, run, recorded, _⟩ := request.run_ran sink s
  have succeeded := plans.1
  rw [recorded] at succeeded
  rw [run]
  exact succeeded

/-- A successful run has valid headers, and emitted its whole script. -/
theorem Plans.script {plan : MergePlan}
    {actions : List MergeAction} (plans : request.Plans sink s plan actions) :
    validateHeaders request.target.header request.source.header = .ok () ∧
      request.script.result = .ok plan ∧ request.script.emitted = actions := by
  obtain ⟨result, s', calls, _, recorded, ran⟩ := request.run_ran sink s
  obtain ⟨succeeded, emitted⟩ := plans
  rw [recorded] at succeeded emitted
  cases succeeded
  cases ran with
  | finished _ _ _ _ valid _ _ planned _ =>
    refine ⟨valid, planned, ?_⟩
    rw [← emitted, acceptedActions, List.cons_append, List.filterMap_cons_none rfl,
      List.filterMap_append]
    exact ((List.append_nil _).trans (acceptedActions_emits _)).symm

end MergeRequest

end OpenMemory.Merge
