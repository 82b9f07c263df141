import OpenMemory.Merge.Planner.Run

/-!
# What a successful visit says

Against a sink that accepts everything, a visit is a loop over the visitor
alone: the locals, the counts and the list of actions so far (`advance`). The
action hash and the tokens of the shared state are those of the actions, added
at the end (`visitRecords_collect`). Every visitor counts exactly the action it
yields (`CountsItsAction`), so the counts too are those of the actions.
-/

namespace OpenMemory.Merge

open Foundation

/-- A visit without its sink. -/
structure Progress (L : Type) where
  locals : L
  counts : ActionCounts
  actions : List MergeAction

def advance {L R : Type} (visitor : Visitor L R) (progress : Progress L) (record : R) :
    MergeResult (Progress L) := do
  let step ← visitor progress.locals progress.counts record
  pure ⟨step.1, step.2.1, progress.actions ++ [step.2.2]⟩

/-- Every step of the visitor counts the action it yields, and nothing else. -/
def CountsItsAction {L R : Type} (visitor : Visitor L R) : Prop :=
  ∀ ⦃locals counts record after counts' action⦄,
    visitor locals counts record = .ok (after, counts', action) →
      counts' = countAction counts action

section Loop

variable {L R : Type} {visitor : Visitor L R}

theorem advance_ok {before after : Progress L} {record : R} :
    advance visitor before record = .ok after ↔ ∃ action,
      visitor before.locals before.counts record = .ok (after.locals, after.counts, action) ∧
        after.actions = before.actions ++ [action] := by
  simp only [advance, bind_eq_ok, pure_eq_ok]
  constructor
  · rintro ⟨⟨locals, counts, action⟩, step, rfl⟩
    exact ⟨action, step, rfl⟩
  · rintro ⟨action, step, actions⟩
    refine ⟨_, step, ?_⟩
    rw [← actions]

theorem counts_of_advance (counted : CountsItsAction visitor) {records : List R} {locals : L}
    {counts : ActionCounts} {final : Progress L}
    (run : records.foldlM (advance visitor) ⟨locals, counts, []⟩ = .ok final) :
    final.counts = final.actions.foldl countAction counts := by
  refine foldlM_induction (motive := fun progress : Progress L =>
    progress.counts = progress.actions.foldl countAction counts) rfl ?_ run
  intro record _ before after soFar step
  obtain ⟨action, accepted, actions⟩ := advance_ok.mp step
  rw [actions, List.foldl_append, ← soFar]
  exact counted accepted

end Loop

/-! ## Against the collecting sink -/

section Collecting

variable [Blake3] {L R : Type} {visitor : Visitor L R}

/-- The shared state after a list of actions. -/
def PlanningState.recordAll (state : PlanningState) (counts : ActionCounts)
    (actions : List MergeAction) : PlanningState :=
  { state with
    actionHash := state.actionHash.absorb (actions.flatMap encodeAction)
    resultTokens := state.resultTokens ++ actions.flatMap Merge.resultTokens
    counts := counts }

theorem recordAll_recordAll (state : PlanningState) (counts counts' : ActionCounts)
    (first last : List MergeAction) :
    (state.recordAll counts first).recordAll counts' last =
      state.recordAll counts' (first ++ last) := by
  simp [PlanningState.recordAll, CanonicalHasher.absorb_absorb]

theorem recordAll_nil (state : PlanningState) : state.recordAll state.counts [] = state := by
  simp [PlanningState.recordAll, CanonicalHasher.absorb]

/-- Between two points of a run exactly these actions were emitted and recorded. -/
structure Emitted (state after : PlanningState) (kept kept' actions : List MergeAction) : Prop where
  kept : kept' = kept ++ actions
  state : after = state.recordAll (actions.foldl countAction state.counts) actions

theorem Emitted.trans {state middle after : PlanningState}
    {kept kept' kept'' first last : List MergeAction}
    (earlier : Emitted state middle kept kept' first)
    (later : Emitted middle after kept' kept'' last) :
    Emitted state after kept kept'' (first ++ last) := by
  refine ⟨?_, ?_⟩
  · rw [later.kept, earlier.kept, List.append_assoc]
  · rw [later.state, earlier.state, recordAll_recordAll, List.foldl_append]
    rfl

theorem visitRecord_collect {visit after : Visit L} {record : R} {kept kept' : List MergeAction}
    (run : (visitRecord collect visitor visit record).run kept = (.ok after, kept')) :
    ∃ action, visitor visit.locals visit.state.counts record =
        .ok (after.locals, after.state.counts, action) ∧
      kept' = kept ++ [action] ∧
      after.state = visit.state.recordAll after.state.counts [action] := by
  simp only [visitRecord, PlanningState.emit, Effect.bind_eq_ok, Effect.liftM_run,
    Effect.lift_run, Effect.pure_run, Prod.mk.injEq, Except.ok.injEq] at run
  obtain ⟨⟨locals, counts, action⟩, _, ⟨step, rfl⟩, state, _,
    ⟨_, _, ⟨_, rfl⟩, _, _, accepted, rfl, rfl⟩, rfl, rfl⟩ := run
  obtain ⟨_, same⟩ := Prod.mk.inj accepted
  refine ⟨action, step, same.symm, ?_⟩
  simp [PlanningState.record, PlanningState.recordAll]

theorem foldlM_collect {records : List R} {visit after : Visit L}
    {kept kept' soFar : List MergeAction}
    (run : (records.foldlM (visitRecord collect visitor) visit).run kept = (.ok after, kept')) :
    ∃ actions, records.foldlM (advance visitor) ⟨visit.locals, visit.state.counts, soFar⟩ =
        .ok ⟨after.locals, after.state.counts, soFar ++ actions⟩ ∧
      kept' = kept ++ actions ∧
      after.state = visit.state.recordAll after.state.counts actions := by
  induction records generalizing visit kept soFar with
  | nil =>
    obtain ⟨same, rfl⟩ := Prod.mk.inj run
    cases same
    exact ⟨[], by simp [pure, Except.pure], by simp, (recordAll_nil _).symm⟩
  | cons record rest ih =>
    rw [List.foldlM_cons] at run
    obtain ⟨middle, _, first, later⟩ := Effect.bind_eq_ok.mp run
    obtain ⟨action, step, rfl, state⟩ := visitRecord_collect first
    obtain ⟨actions, tail, rfl, final⟩ := @ih _ _ (soFar ++ [action]) later
    refine ⟨action :: actions, ?_, by simp, ?_⟩
    · refine foldlM_cons_eq_ok.mpr
        ⟨⟨middle.locals, middle.state.counts, soFar ++ [action]⟩, ?_, ?_⟩
      · exact advance_ok.mpr ⟨action, step, rfl⟩
      · rw [tail]
        simp
    · rw [final, state, recordAll_recordAll]
      rfl

/-- **A visit against the collecting sink** is a loop over the visitor, and the
shared state records the actions it yields. -/
theorem visitRecords_collect {stream : RecordStream R} {locals : L} {state : PlanningState}
    {after : Visit L} {kept kept' : List MergeAction} (counted : CountsItsAction visitor)
    (run : (visitRecords collect stream visitor locals state).run kept = (.ok after, kept')) :
    ∃ progress : Progress L,
      stream.records.foldlM (advance visitor) ⟨locals, state.counts, []⟩ = .ok progress ∧
      after.locals = progress.locals ∧
      Emitted state after.state kept kept' progress.actions := by
  obtain ⟨final, middle, visited, ended⟩ := Effect.bind_eq_ok.mp run
  obtain ⟨actions, loop, rfl, states⟩ := @foldlM_collect _ _ _ _ _ _ _ _ _ [] visited
  cases failure : stream.failure with
  | some error =>
    rw [failure] at ended
    cases ended
  | none =>
    rw [failure] at ended
    obtain ⟨same, rfl⟩ := Prod.mk.inj ended
    cases same
    refine ⟨_, loop, rfl, rfl, ?_⟩
    rw [← counts_of_advance counted loop]
    exact states

end Collecting

/-! ## Every visitor counts its action -/

section Counts

theorem visitTargetEntity_counts : CountsItsAction visitTargetEntity := by
  intro locals counts record after counts' action step
  simp only [visitTargetEntity, bind_eq_ok, pure_eq_ok] at step
  obtain ⟨_, _, _, _, same⟩ := step
  cases same
  rfl

variable [Blake3]

theorem visitSourceEntity_counts (planned : List PlannedEntity) (targets : TargetEntities)
    (targetHeader sourceHeader : SnapshotHeader) :
    CountsItsAction (visitSourceEntity planned targets targetHeader sourceHeader) := by
  intro locals counts record after counts' action step
  simp only [visitSourceEntity, bind_eq_ok, pure_eq_ok] at step
  obtain ⟨_, _, index, _, _, _, _, _, ⟨disposition, qualified, middle⟩, settled, same⟩ := step
  cases same
  cases plan : planned[index].disposition with
  | coalesce target receipt =>
    rw [plan] at settled
    simp only [settleEntity, bind_eq_ok, pure_eq_ok] at settled
    obtain ⟨_, _, _, _, same⟩ := settled
    cases same
    rfl
  | add reason receipt =>
    rw [plan] at settled
    simp only [settleEntity, bind_eq_ok, pure_eq_ok] at settled
    obtain ⟨_, _, same⟩ := settled
    cases same
    rfl

theorem visitTargetObservation_counts (targets : TargetEntities) :
    CountsItsAction (visitTargetObservation targets) := by
  intro locals counts record after counts' action step
  simp only [visitTargetObservation, bind_eq_ok, pure_eq_ok] at step
  obtain ⟨_, _, _, _, _, _, same⟩ := step
  cases same
  rfl

theorem visitSourceObservation_counts (results : OrderedMap LogicalId ResultObjectId)
    (ids : Finset String) : CountsItsAction (visitSourceObservation results ids) := by
  intro locals counts record after counts' action step
  simp only [visitSourceObservation, bind_eq_ok] at step
  obtain ⟨_, _, _, _, step⟩ := step
  split at step
  · cases pure_eq_ok.mp step
    rfl
  · simp only [bind_eq_ok, pure_eq_ok] at step
    obtain ⟨_, _, same⟩ := step
    cases same
    rfl

theorem visitTargetRelation_counts (targets : TargetEntities) :
    CountsItsAction (visitTargetRelation targets) := by
  intro locals counts record after counts' action step
  simp only [visitTargetRelation, bind_eq_ok, pure_eq_ok] at step
  obtain ⟨_, _, _, _, _, _, same⟩ := step
  cases same
  rfl

theorem visitSourceRelation_counts (results : OrderedMap LogicalId ResultObjectId)
    (ids : Finset String) (policy : MergePolicy) :
    CountsItsAction (visitSourceRelation results ids policy) := by
  intro locals counts record after counts' action step
  simp only [visitSourceRelation, bind_eq_ok] at step
  obtain ⟨_, _, _, _, _, _, _, _, step⟩ := step
  split at step
  · cases pure_eq_ok.mp step
    rfl
  · simp only [bind_eq_ok, pure_eq_ok] at step
    obtain ⟨_, _, same⟩ := step
    cases same
    rfl

end Counts

end OpenMemory.Merge
