import OpenMemory.Daemon.ProductSchema

/-!
# Schema migration is exactly-once

Every step is executed at most once, the stored version never decreases and says which
steps were executed, and a process that the storage does not fail ends at the target
version. All of this rests on the version that a process has read: when it executes a
step, and when it compares the two markers of the version, another process may have
migrated since.
-/

namespace OpenMemory.Daemon.ProductSchema

open Foundation OpenMemory.Core.Migrations

variable {Schema : Type}

/-! ## Steps that are due -/

section Due

variable {steps : List (Nat × Sql Schema)} {start version next : Nat} {sql : Sql Schema}

/-- The steps after the first version, up to the second one. -/
def due (steps : List (Nat × Sql Schema)) (start version : Nat) : List (Nat × Sql Schema) :=
  steps.filter fun step => start < step.1 && step.1 ≤ version

/-- The tables after the steps of a list. -/
def applied (schema : Schema) (steps : List (Nat × Sql Schema)) : Except String Schema :=
  steps.foldlM (fun schema step => step.2 schema) schema

/-- Each step has a version of its own, and they are listed in order. -/
def Ordered (steps : List (Nat × Sql Schema)) : Prop :=
  steps.Pairwise fun first second => first.1 < second.1

theorem due_self : due steps start start = [] := by
  refine List.filter_eq_nil_iff.mpr fun step _ => ?_
  rw [Bool.and_eq_true, decide_eq_true_iff, decide_eq_true_iff]
  omega

/-- Nothing is due between two versions without steps. -/
theorem due_of_none (below : version ≤ next)
    (none : ∀ step ∈ steps, version < step.1 → next < step.1) :
    due steps start next = due steps start version := by
  refine List.filter_congr fun step member => ?_
  have gap := none step member
  rw [Bool.eq_iff_iff]
  simp only [Bool.and_eq_true, decide_eq_true_iff]
  omega

/-- After a version comes its next step. -/
theorem due_next (ordered : Ordered steps) (member : (next, sql) ∈ steps) (later : version < next)
    (since : start ≤ version) (first : ∀ step ∈ steps, version < step.1 → next ≤ step.1) :
    due steps start next = due steps start version ++ [(next, sql)] := by
  obtain ⟨before, after, rfl⟩ := List.append_of_mem member
  unfold Ordered at ordered
  rw [List.pairwise_append, List.pairwise_cons] at ordered
  obtain ⟨_, ⟨larger, _⟩, smaller⟩ := ordered
  unfold due
  rw [List.filter_append, List.filter_append, List.filter_cons, List.filter_cons]
  have early : before.filter (fun step => start < step.1 && step.1 ≤ next) =
      before.filter fun step => start < step.1 && step.1 ≤ version := by
    refine List.filter_congr fun step inside => ?_
    have less := smaller step inside (next, sql) List.mem_cons_self
    have gap := first step (List.mem_append_left _ inside)
    rw [Bool.eq_iff_iff]
    simp only [Bool.and_eq_true, decide_eq_true_iff]
    dsimp only at less
    omega
  have late : ∀ bound, bound ≤ next →
      after.filter (fun step => start < step.1 && step.1 ≤ bound) = [] := by
    intro bound small
    refine List.filter_eq_nil_iff.mpr fun step inside => ?_
    have more := larger step inside
    dsimp only at more
    rw [Bool.and_eq_true, decide_eq_true_iff, decide_eq_true_iff]
    omega
  rw [early, late next le_rfl, late version (Nat.le_of_lt later), if_pos, if_neg]
  · rw [List.append_nil]
  · rw [Bool.and_eq_true, decide_eq_true_iff, decide_eq_true_iff]
    omega
  · rw [Bool.and_eq_true, decide_eq_true_iff, decide_eq_true_iff]
    omega

theorem applied_append (schema : Schema) (first last : List (Nat × Sql Schema)) :
    applied schema (first ++ last) = (applied schema first).bind fun middle =>
      applied middle last :=
  List.foldlM_append

end Due

/-! ## Rules for programs -/

variable {request : Request Schema} {current : Nat} {other : Database Schema} {update : Bool}

section Rules

variable {γ ε α β : Type} {history : γ} {asks : γ → Request Schema → Prop}
  {answered : γ → (request : Request Schema) → request.Answer → γ → Prop}

theorem proceeds_ask {wanted : γ → Except OmError β → Prop}
    {then_ : request.Answer → Opener Schema β} :
    Calls.Proceeds asks answered wanted history (ask request >>= then_).run ↔
      asks history request ∧ ∀ answer later, answered history request answer later →
        Calls.Proceeds asks answered wanted later (then_ answer).run := Iff.rfl

theorem proceeds_askProduct {wanted : γ → Except ProductStoreError β → Prop}
    {then_ : request.Answer → ProductOpener Schema β} :
    Calls.Proceeds asks answered wanted history (askProduct request >>= then_).run ↔
      asks history request ∧ ∀ answer later, answered history request answer later →
        Calls.Proceeds asks answered wanted later (then_ answer).run := Iff.rfl

theorem proceeds_adapt {wanted : γ → Except ε α → Prop} {error : β → ε}
    {program : Calls.Fallible (Request Schema) Request.Answer β α}
    (proceeds : Calls.Proceeds asks answered
      (fun h result => wanted h (result.mapError error)) history program.run) :
    Calls.Proceeds asks answered wanted history (ExceptT.adapt error program).run :=
  Calls.proceeds_bind.mpr proceeds

end Rules

/-! ## What a process may ask, and what it is answered -/

/-- What is known of a process: what it has seen, whether the storage has failed it, a
version that was stored at some time, and whether the table is known to be there. -/
structure History where
  seen : Nat
  hit : Bool
  floor : Nat
  created : Bool

section Program

variable (opening : Opening Schema) (schema : Schema) (start : Nat)

/-- A step fails on the tables that the steps before it make. -/
def Breaks : Prop :=
  ∃ step ∈ opening.steps, ∃ tables reason, start < step.1 ∧ step.1 ≤ opening.target ∧
    applied schema (due opening.steps start (step.1 - 1)) = .ok tables ∧
      step.2 tables = .error reason

/-- A step is executed next after what was seen, and the target is stored after the last
step. -/
def Asks (history : History) : Request Schema → Prop
  | .transaction version (some sql) update =>
    update = opening.updatesUserVersion ∧ history.created ∧ (version, sql) ∈ opening.steps ∧
      history.seen < version ∧ version ≤ opening.target ∧
        ∀ step ∈ opening.steps, history.seen < step.1 → version ≤ step.1
  | .schemaVersionRow => history.created
  | .transaction version none update =>
    update = opening.updatesUserVersion ∧ history.created ∧ version = opening.target ∧
      ∀ step ∈ opening.steps, step.1 ≤ opening.target → step.1 ≤ history.floor
  | _ => True

/-- The answers of a database that other processes migrate as well. -/
def Answered (history : History) : (request : Request Schema) → request.Answer → History → Prop
  | .createTable, .ok _, later => later = { history with created := true }
  | .createTable, .error _, later => later = { history with hit := true }
  | .tableExists, .ok true, later => later = { history with created := true }
  | .tableExists, .ok false, later => start = 0 ∧ later = { history with seen := 0 }
  | .tableExists, .error _, later => later = { history with seen := 0, hit := true }
  | .schemaVersionRow, .ok none, later => start = 0 ∧ later = { history with seen := 0 }
  | .schemaVersionRow, .ok (some text), later =>
    ∃ version, parseUnsigned maxVersion text = .ok version ∧ start ≤ version ∧
      version ≤ opening.target ∧ history.floor ≤ version ∧
        later = { history with seen := version, floor := version }
  | .schemaVersionRow, .error _, later => later = { history with seen := 0, hit := true }
  | .userVersion, .ok userVersion, later => later = history ∧
      (opening.updatesUserVersion → history.hit = false → userVersion = history.seen)
  | .userVersion, .error _, later => later = { history with hit := true }
  | .transaction version _ _, .ok _, later =>
    later = { history with seen := version, floor := version }
  | .transaction _ _ _, .error _, later =>
    later = { history with hit := true } ∨ later = history ∧ Breaks opening schema start

/-- A process ends at the target, or the storage has failed it, or a step fails. -/
def Wanted {ε : Type} (history : History) : Except ε Unit → Prop
  | .ok _ => opening.target ≤ history.floor
  | .error _ => history.hit = true ∨ Breaks opening schema start

/-- The program does what it may, and ends as wanted. -/
abbrev Good {ε α : Type} (wanted : History → Except ε α → Prop) (history : History)
    (program : Calls (Request Schema) Request.Answer (Except ε α)) : Prop :=
  Calls.Proceeds (Asks opening) (Answered opening schema start) wanted history program

end Program

section Programs

variable {opening : Opening Schema} {schema : Schema} {start : Nat} {history : History}

/-- A program goes on after what never fails. -/
theorem good_bind {ε α β : Type} {first : Calls.Fallible (Request Schema) Request.Answer ε α}
    {then_ : α → Calls.Fallible (Request Schema) Request.Answer ε β}
    {wanted : History → Except ε β → Prop} {middle : History → Except ε α → Prop}
    (proceeds : Good opening schema start middle history first.run)
    (fails : ∀ later error, middle later (.error error) → wanted later (.error error))
    (goesOn : ∀ later value, middle later (.ok value) →
      Good opening schema start wanted later (then_ value).run) :
    Good opening schema start wanted history (first >>= then_).run := by
  refine Calls.proceeds_run_bind (proceeds.mono fun later result holds => ?_)
  cases result with
  | ok value => exact goesOn later value holds
  | error error => exact fails later error holds

theorem good_orSqlite {α β : Type} {value : α} {then_ : α → Opener Schema β}
    {wanted : History → OmResult β → Prop} :
    Good opening schema start wanted history (orSqlite (.ok value) >>= then_).run ↔
      Good opening schema start wanted history (then_ value).run := Iff.rfl

/-- What a migrator knows after it has read the version. -/
structure Read (opening : Opening Schema) (start : Nat) (history : History) (current : Nat)
    (later : History) : Prop where
  seen : later.seen = current
  created : history.created → later.created
  floor : history.floor ≤ later.floor
  below : current ≤ later.floor
  target : current ≤ opening.target
  since : later.hit = false → start ≤ current

theorem good_current : Good opening schema start (fun later result => match result with
    | .ok current => Read opening start history current later
    | .error _ => False) history (Migrator.current : Opener Schema Nat).run := by
  refine proceeds_ask.mpr ⟨trivial, ?_⟩
  rintro (error | _ | _) later answered
  · cases answered
    exact ⟨rfl, id, le_rfl, Nat.zero_le _, Nat.zero_le _, fun clean => by cases clean⟩
  · obtain ⟨rfl, rfl⟩ := answered
    exact ⟨rfl, id, le_rfl, Nat.zero_le _, Nat.zero_le _, fun _ => le_rfl⟩
  · cases answered
    refine proceeds_ask.mpr ⟨rfl, ?_⟩
    rintro (error | _ | text) later answered
    · cases answered
      exact ⟨rfl, fun _ => rfl, le_rfl, Nat.zero_le _, Nat.zero_le _, fun clean => by cases clean⟩
    · obtain ⟨rfl, rfl⟩ := answered
      exact ⟨rfl, fun _ => rfl, le_rfl, Nat.zero_le _, Nat.zero_le _, fun _ => le_rfl⟩
    · obtain ⟨version, parsed, since, small, grows, rfl⟩ := answered
      simp only [Except.toOption, Option.join, Option.bind_some, id_eq, parsed]
      exact ⟨rfl, fun _ => rfl, grows, le_rfl, small, fun _ => since⟩

theorem good_checkUserVersion (updates : opening.updatesUserVersion)
    (seen : history.seen = current) :
    Good opening schema start (fun later result => match result with
      | .ok _ => later = history
      | .error _ => later.hit = true) history
        (Migrator.checkUserVersion current : Opener Schema Unit).run := by
  refine proceeds_ask.mpr ⟨trivial, ?_⟩
  rintro (error | userVersion) later answered
  · cases answered
    rfl
  · obtain ⟨rfl, agrees⟩ := answered
    by_cases disagrees : userVersion ≠ 0 ∧ userVersion ≠ current
    · change Good opening schema start _ _ (ExceptT.run (if _ then _ else _))
      rw [if_pos disagrees]
      change later.hit = true
      by_contra clean
      exact disagrees.2 ((agrees updates (Bool.eq_false_iff.mpr clean)).trans seen)
    · change Good opening schema start _ _ (ExceptT.run (if _ then _ else _))
      rw [if_neg disagrees]
      rfl

/-- What covers all versions from the start covers them from a later one. -/
theorem pending_eq_expected {steps : List (Nat × Sql Schema)} {target : Nat}
    (since : start ≤ current) (small : current ≤ target)
    (covers : Migrator.pending steps start target = Migrator.expected start target) :
    Migrator.pending steps current target = Migrator.expected current target := by
  have cut : Migrator.pending steps current target =
      (Migrator.pending steps start target).filter fun version => current < version := by
    unfold Migrator.pending
    rw [List.filter_filter]
    refine List.filter_congr fun version _ => ?_
    rw [Bool.eq_iff_iff]
    simp only [Bool.and_eq_true, decide_eq_true_iff]
    omega
  have halves : Migrator.expected start target =
      List.range' (start + 1) (current - start) ++ Migrator.expected current target := by
    unfold Migrator.expected
    have joined := List.range'_append_1 (s := start + 1) (m := current - start)
      (n := target - current)
    rw [show start + 1 + (current - start) = current + 1 by omega,
      show current - start + (target - current) = target - start by omega] at joined
    exact joined.symm
  rw [cut, covers, halves, List.filter_append, List.filter_eq_nil_iff.mpr, List.nil_append,
    List.filter_eq_self]
  · intro version member
    rw [Migrator.expected, List.mem_range'_1] at member
    rw [decide_eq_true_iff]
    omega
  · intro version member
    rw [List.mem_range'_1] at member
    rw [decide_eq_true_iff]
    omega

theorem good_checkCovers (covers : Migrator.pending opening.steps start opening.target =
      Migrator.expected start opening.target)
    (small : current ≤ opening.target) (since : history.hit = false → start ≤ current) :
    Good opening schema start (fun later result => match result with
      | .ok _ => later = history
      | .error _ => later.hit = true) history
        (Migrator.checkCovers opening.steps current opening.target).run := by
  unfold Migrator.checkCovers
  dsimp only
  split
  next missing =>
    change history.hit = true
    by_contra clean
    exact missing (pending_eq_expected (since (Bool.eq_false_iff.mpr clean)) small covers)
  next => rfl

/-- **The loop over the steps** executes, one after the other, all of them that come
after the version it has read. -/
theorem good_applySteps (ordered : Ordered opening.steps)
    {before rest : List (Nat × Sql Schema)} (split : opening.steps = before ++ rest)
    (below : current ≤ history.seen) (floor : history.seen ≤ history.floor)
    (created : history.created)
    (finished : ∀ step ∈ before, step.1 ≤ opening.target → step.1 ≤ history.seen)
    (ahead : ∀ step ∈ rest, current < step.1 → history.seen < step.1) :
    Good opening schema start (fun later result => match result with
      | .ok _ => later.created = true ∧
          ∀ step ∈ opening.steps, step.1 ≤ opening.target → step.1 ≤ later.floor
      | .error _ => later.hit = true ∨ Breaks opening schema start) history
        (Migrator.applySteps current opening.target opening.updatesUserVersion rest).run := by
  induction rest generalizing history before with
  | nil =>
    refine ⟨created, fun step member small => ?_⟩
    rw [split, List.append_nil] at member
    exact (finished step member small).trans floor
  | cons step rest ih =>
    obtain ⟨version, sql⟩ := step
    have longer : opening.steps = (before ++ [(version, sql)]) ++ rest := by
      rw [split, List.append_assoc, List.singleton_append]
    have order : (∀ step ∈ before, step.1 < version) ∧ ∀ step ∈ rest, version < step.1 := by
      unfold Ordered at ordered
      rw [split, List.pairwise_append, List.pairwise_cons] at ordered
      exact ⟨fun step member => ordered.2.2 step member _ List.mem_cons_self, ordered.2.1.1⟩
    have self : (version, sql) ∈ opening.steps :=
      split ▸ List.mem_append_right _ List.mem_cons_self
    rw [Migrator.applySteps]
    by_cases skip : version ≤ current ∨ opening.target < version
    · rw [if_pos skip]
      refine ih longer below floor created ?_ (List.forall_mem_cons.mp ahead).2
      intro step member small
      rcases List.mem_append.mp member with old | new
      · exact finished step old small
      · rw [List.mem_singleton.mp new] at small ⊢
        dsimp only at small ⊢
        omega
    · rw [if_neg skip]
      rw [not_or, Nat.not_le, Nat.not_lt] at skip
      have next := ahead _ List.mem_cons_self skip.1
      refine ⟨⟨rfl, created, self, next, skip.2, fun step member later => ?_⟩, ?_⟩
      · rw [split] at member
        rcases List.mem_append.mp member with old | new
        · refine Nat.le_of_not_lt fun less => ?_
          have done := finished step old (less.le.trans skip.2)
          omega
        · rcases List.mem_cons.mp new with rfl | after
          · exact le_rfl
          · exact (order.2 step after).le
      · rintro (error | _) later answered
        · rcases answered with rfl | ⟨rfl, breaks⟩
          · exact .inl rfl
          · exact .inr breaks
        · cases answered
          refine ih longer skip.1.le le_rfl created ?_ (fun step member _ => order.2 step member)
          intro step member _
          rcases List.mem_append.mp member with old | new
          · exact (order.1 step old).le
          · rw [List.mem_singleton.mp new]

/-- What is asked of the steps: they are listed in order, and where `user_version` is
kept there is one for every version. -/
structure Listed (opening : Opening Schema) (start : Nat) : Prop where
  ordered : Ordered opening.steps
  known : start ≤ opening.target
  covers : opening.updatesUserVersion →
    Migrator.pending opening.steps start opening.target = Migrator.expected start opening.target

/-- A migrator stores the target after the last step, if it is not stored yet. -/
theorem good_finish (created : history.created)
    (finished : ∀ step ∈ opening.steps, step.1 ≤ opening.target → step.1 ≤ history.floor) :
    Good opening schema start (Wanted opening schema start) history (do
      let reached ← Migrator.current
      if reached < opening.target then
        Migrator.transaction opening.target none opening.updatesUserVersion :
          Opener Schema Unit).run := by
  refine good_bind good_current ?_ ?_
  · intro later error impossible
    exact impossible.elim
  intro read reached knows
  split
  next =>
    refine ⟨⟨rfl, knows.created created, rfl, fun step member small =>
      (finished step member small).trans knows.floor⟩, ?_⟩
    rintro (error | _) later answered
    · rcases answered with rfl | ⟨rfl, breaks⟩
      · exact .inl rfl
      · exact .inr breaks
    · cases answered
      exact le_rfl
  next enough => exact (Nat.not_lt.mp enough).trans knows.below

/-- The steps and the target, for a version that was read. -/
theorem good_tail (listed : Listed opening start) {before : History}
    (knows : Read opening start before current history) (created : before.created) :
    Good opening schema start (Wanted opening schema start) history (do
      Migrator.applySteps current opening.target opening.updatesUserVersion opening.steps
      let reached ← Migrator.current
      if reached < opening.target then
        Migrator.transaction opening.target none opening.updatesUserVersion :
          Opener Schema Unit).run := by
  have seen := knows.seen
  refine good_bind (good_applySteps listed.ordered (List.nil_append _).symm seen.ge
    (seen.le.trans knows.below) (knows.created created) ?_ ?_) ?_ ?_
  · intro step member
    cases member
  · intro step _ later
    exact seen ▸ later
  · intro later error holds
    exact holds
  · intro later _ holds
    exact good_finish holds.1 holds.2

/-- **A migrator** asks only what it may, and ends as wanted. -/
theorem good_applyInner (listed : Listed opening start) :
    Good opening schema start (Wanted opening schema start) history
      (Migrator.applyInner opening.target opening.steps opening.updatesUserVersion).run := by
  refine proceeds_ask.mpr ⟨trivial, ?_⟩
  rintro (error | _) created answered
  · cases answered
    exact .inl rfl
  cases answered
  refine good_orSqlite.mpr (good_bind good_current ?_ ?_)
  · intro later error impossible
    exact impossible.elim
  intro read current knows
  have known : ¬ opening.target < current := Nat.not_lt.mpr knows.target
  dsimp only
  rw [if_neg known]
  split
  next updates =>
    refine good_bind (good_checkUserVersion updates knows.seen) ?_ ?_
    · intro later error hit
      exact .inl hit
    rintro later _ rfl
    refine good_bind (good_checkCovers (listed.covers updates) knows.target knows.since) ?_ ?_
    · intro later error hit
      exact .inl hit
    rintro later _ rfl
    exact good_tail listed knows rfl
  next => exact good_tail listed knows rfl

theorem good_readVersion (updates : opening.updatesUserVersion) :
    Good opening schema start (fun later result => match result with
      | .ok version => version ≤ (opening.target : Int)
      | .error _ => later.hit = true) history (readVersion : ProductOpener Schema Int).run := by
  refine proceeds_askProduct.mpr ⟨trivial, ?_⟩
  rintro (error | _ | _) later answered
  · cases answered
    rfl
  · exact Int.natCast_nonneg _
  · cases answered
    refine proceeds_askProduct.mpr ⟨rfl, ?_⟩
    rintro (error | _ | text) later answered
    · cases answered
      rfl
    · exact Int.natCast_nonneg _
    · obtain ⟨version, parsed, _, small, _, rfl⟩ := answered
      have signed := parseSigned_of_parseUnsigned
        (show maxVersion ≤ 2 ^ 63 - 1 by unfold maxVersion; omega) parsed
      have present (next : Option String → ProductOpener Schema Int) :
          pure (some text) >>= next = next (some text) := rfl
      dsimp only [orSql]
      rw [present]
      dsimp only
      rw [signed]
      refine proceeds_askProduct.mpr ⟨trivial, ?_⟩
      rintro (error | userVersion) later answered
      · cases answered
        rfl
      · obtain ⟨rfl, agrees⟩ := answered
        change Good opening schema start _ _ (ExceptT.run (if _ then _ else _))
        split
        next disagrees =>
          change history.hit = true
          by_contra clean
          refine disagrees.2 (congrArg Int.ofNat ?_)
          exact agrees updates (Bool.eq_false_iff.mpr clean)
        next => exact Int.ofNat_le.mpr small

/-- **The product store** reads the version before it migrates. -/
theorem good_migrate {v1 v2 v3 v4 : Sql Schema}
    (listed : Listed (.productStore v1 v2 v3 v4) start) :
    Good (.productStore v1 v2 v3 v4) schema start
      (Wanted (.productStore v1 v2 v3 v4) schema start) history (migrate v1 v2 v3 v4).run := by
  refine Calls.proceeds_run_bind ((good_readVersion rfl).mono ?_)
  rintro later (error | version) holds
  · exact .inl holds
  · have small : version ≤ (productSchemaVersion : Int) := holds
    dsimp only
    rw [if_neg (Int.not_lt.mpr small)]
    refine proceeds_adapt ((good_applyInner listed).mono fun later result holds => ?_)
    cases result <;> exact holds

theorem good_program (listed : Listed opening start) :
    Good opening schema start (Wanted opening schema start) history opening.program := by
  have adapt : ∀ {β : Type} {error : β → Opening.Error}
      {program : Calls.Fallible (Request Schema) Request.Answer β Unit},
      Good opening schema start (Wanted opening schema start) history program.run →
        Good opening schema start (Wanted opening schema start) history
          (ExceptT.adapt error program).run := by
    intro β error program good
    refine proceeds_adapt (good.mono fun later result holds => ?_)
    cases result <;> exact holds
  cases opening with
  | apply target steps => exact adapt (good_applyInner listed)
  | applyWithUserVersion target steps => exact adapt (good_applyInner listed)
  | productStore v1 v2 v3 v4 => exact adapt (good_migrate listed)

end Programs

/-! ## What is claimed -/

/-- The processes find a database of a version that they know, whose markers agree,
and the list of steps fits it. -/
structure Agrees (opening : Opening Schema) (first : Database Schema) (start : Nat) : Prop where
  version : storedVersion first = some start
  fresh : first.executed = []
  listed : Listed opening start
  fits : opening.target ≤ maxVersion
  user : opening.updatesUserVersion → first.userVersion = start ∧ opening.target < 2 ^ 31

/-- No step is executed twice, the stored version says which steps were executed, and a
process that ends is at the target, unless the storage has failed it or a step fails. -/
structure Migrated (opening : Opening Schema) (first : Database Schema) (start : Nat)
    (s : State Schema) : Prop where
  once : s.db.executed.Nodup
  stored : ∃ version, storedVersion s.db = some version ∧
    s.db.executed = (due opening.steps start version).map Prod.fst ∧
      (opening.updatesUserVersion → s.db.userVersion = version)
  finishes : ∀ id process result, s.processes id = some process → process.program = .done result →
    result = .ok () ∧ storedVersion s.db = some opening.target ∨
      process.hit = true ∨ Breaks opening first.schema start

/-- The process is about to execute a step, or to compare the markers of the version. -/
def Process.Trusts (process : Process Schema) : Prop :=
  match process.program with
  | .ask (.transaction _ (some _) _) _ => True
  | .ask .userVersion _ => process.hit = false
  | _ => False

/-- Nothing has migrated the database since the process has read the version that it
relies on. -/
def Meets (s : State Schema) : Action → Prop
  | .request id none => ∀ process, s.processes id = some process → process.Trusts →
      storedVersion s.db = some process.seen
  | _ => True

/-! ## The invariant -/

/-- Exactly the steps up to the stored version were executed. -/
structure Stands (opening : Opening Schema) (first : Database Schema) (start : Nat)
    (db : Database Schema) (version : Nat) : Prop where
  stored : storedVersion db = some version
  since : start ≤ version
  known : version ≤ opening.target
  user : opening.updatesUserVersion → db.userVersion = version
  executed : db.executed = (due opening.steps start version).map Prod.fst
  tables : applied first.schema (due opening.steps start version) = .ok db.schema

/-- A process is on its way. -/
structure OnItsWay (opening : Opening Schema) (first : Database Schema) (start : Nat)
    (db : Database Schema) (version : Nat) (process : Process Schema) (history : History) :
    Prop where
  seen : history.seen = process.seen
  hit : history.hit = process.hit
  floor : history.floor ≤ version
  created : history.created → db.table.isSome
  good : Good opening first.schema start (Wanted opening first.schema start) history process.program

structure Kept (opening : Opening Schema) (first : Database Schema) (start : Nat)
    (s : State Schema) (version : Nat) : Prop where
  stands : Stands opening first start s.db version
  processes : ∀ id process, s.processes id = some process →
    ∃ history, OnItsWay opening first start s.db version process history

section Steps

variable {opening : Opening Schema} {first db : Database Schema} {start version : Nat}
  {s next : State Schema} {action : Action} {history : History}

theorem storedVersion_of_table {text : String} (row : db.table = some (some text)) :
    storedVersion db = (parseUnsigned maxVersion text).toOption := by
  unfold storedVersion
  rw [row]
  rfl

theorem storedVersion_commit {tables : Schema} {executed : List Nat}
    (small : version ≤ maxVersion) :
    storedVersion (db.commit version tables executed update) = some version := by
  rw [storedVersion_of_table rfl, parseUnsigned_repr small]
  rfl

theorem commit_userVersion {tables : Schema} {executed : List Nat}
    (updates : update = true) (small : version < 2 ^ 31) :
    (db.commit version tables executed update).userVersion = version := by
  unfold Database.commit pragmaValue
  dsimp only
  rw [if_pos updates, if_pos small]

/-- The result of a request: the database stands where it stood or further on, and the
answer is one that was to be expected. -/
structure Performed (opening : Opening Schema) (first : Database Schema) (start : Nat)
    (db : Database Schema) (version : Nat) (history : History) (request : Request Schema)
    (result : request.Answer × Database Schema) (later : Nat) (after : History) : Prop where
  stands : Stands opening first start result.2 later
  grows : version ≤ later
  table : db.table.isSome → result.2.table.isSome
  answered : Answered opening first.schema start history request result.1 after
  seen : after.seen = seenAfter history.seen request result.1
  hit : after.hit = history.hit
  floor : after.floor ≤ later
  created : after.created → result.2.table.isSome

theorem perform_step (agrees : Agrees opening first start)
    (stands : Stands opening first start db version) (floor : history.floor ≤ version)
    (created : history.created → db.table.isSome) {step : Nat} {sql : Sql Schema}
    (asks : Asks opening history (.transaction step (some sql) update))
    (seen : history.seen = version) :
    ∃ later after, Performed opening first start db version history _
      (db.perform (.transaction step (some sql) update)) later after := by
  obtain ⟨rfl, there, member, next, small, earliest⟩ := asks
  obtain ⟨row, table⟩ := Option.isSome_iff_exists.mp (created there)
  rw [seen] at next earliest
  have quiet : due opening.steps start (step - 1) = due opening.steps start version :=
    due_of_none (by omega) fun other inside later => by
      have bound := earliest other inside later
      omega
  have extended := due_next agrees.listed.ordered member next stands.since earliest
  cases executed : sql db.schema with
  | error reason =>
    have performed : db.perform (.transaction step (some sql) opening.updatesUserVersion) =
        (.error (.migration step reason), db) := by
      unfold Database.perform
      rw [table]
      dsimp only
      rw [executed]
    have breaks : Breaks opening first.schema start :=
      ⟨(step, sql), member, db.schema, reason, Nat.lt_of_le_of_lt stands.since next, small,
        quiet.symm ▸ stands.tables, executed⟩
    rw [performed]
    exact ⟨version, history, stands, le_rfl, id, .inr ⟨rfl, breaks⟩, rfl, rfl, floor, created⟩
  | ok tables =>
    have performed : db.perform (.transaction step (some sql) opening.updatesUserVersion) =
        (.ok (), db.commit step tables [step] opening.updatesUserVersion) := by
      unfold Database.perform
      rw [table]
      dsimp only
      rw [executed]
    rw [performed]
    refine ⟨step, { history with seen := step, floor := step }, ?_, next.le, fun _ => rfl, rfl,
      rfl, rfl, le_rfl, fun _ => rfl⟩
    refine ⟨storedVersion_commit (small.trans agrees.fits), (stands.since.trans next.le), small,
      fun updates => commit_userVersion updates (Nat.lt_of_le_of_lt small
        (agrees.user updates).2), ?_, ?_⟩
    · change db.executed ++ [step] = _
      rw [stands.executed, extended, List.map_append]
      rfl
    · rw [extended, applied_append, stands.tables]
      change (sql db.schema).bind _ = _
      rw [executed]
      rfl

theorem perform_target (agrees : Agrees opening first start)
    (stands : Stands opening first start db version) (floor : history.floor ≤ version)
    (created : history.created → db.table.isSome) {target : Nat}
    (asks : Asks opening history (.transaction target none update)) :
    ∃ later after, Performed opening first start db version history _
      (db.perform (.transaction target none update)) later after := by
  obtain ⟨rfl, there, rfl, finished⟩ := asks
  obtain ⟨row, table⟩ := Option.isSome_iff_exists.mp (created there)
  have quiet : due opening.steps start opening.target = due opening.steps start version :=
    due_of_none stands.known fun other inside later => by
      have bound := finished other inside
      omega
  have performed : db.perform (.transaction opening.target none opening.updatesUserVersion) =
      (.ok (), db.commit opening.target db.schema [] opening.updatesUserVersion) := by
    unfold Database.perform
    rw [table]
  rw [performed]
  refine ⟨opening.target, { history with seen := opening.target, floor := opening.target }, ?_,
    stands.known, fun _ => rfl, rfl, rfl, rfl, le_rfl, fun _ => rfl⟩
  refine ⟨storedVersion_commit agrees.fits, agrees.listed.known, le_rfl,
    fun updates => commit_userVersion updates (agrees.user updates).2, ?_, ?_⟩
  · change db.executed ++ [] = _
    rw [List.append_nil, stands.executed, quiet]
  · rw [quiet]
    exact stands.tables

/-- A request that leaves the stored version and everything else as it is. -/
theorem Stands.of_same (stands : Stands opening first start db version)
    (stored : storedVersion other = storedVersion db) (user : other.userVersion = db.userVersion)
    (tables : other.schema = db.schema) (executed : other.executed = db.executed) :
    Stands opening first start other version where
  stored := stored.trans stands.stored
  since := stands.since
  known := stands.known
  user updates := user.trans (stands.user updates)
  executed := executed.trans stands.executed
  tables := tables ▸ stands.tables

/-- **One request** of a process that relies on nothing outdated. -/
theorem performed (agrees : Agrees opening first start)
    (stands : Stands opening first start db version) (floor : history.floor ≤ version)
    (created : history.created → db.table.isSome) (asks : Asks opening history request)
    (trusts : ∀ step sql update, request = .transaction step (some sql) update →
      history.seen = version)
    (compares : request = .userVersion → history.hit = false → history.seen = version) :
    ∃ later after, Performed opening first start db version history request
      (db.perform request) later after := by
  cases request with
  | createTable =>
    refine ⟨version, { history with created := true }, ?_, le_rfl, fun _ => rfl, rfl, rfl, rfl,
      floor, fun _ => rfl⟩
    refine stands.of_same ?_ rfl rfl rfl
    unfold storedVersion Database.perform
    cases table : db.table with
    | none => rfl
    | some row => rfl
  | tableExists =>
    cases table : db.table with
    | none =>
      have none_ : storedVersion db = some 0 := by
        unfold storedVersion
        rw [table]
        rfl
      have zero : version = 0 := Option.some.inj (stands.stored.symm.trans none_)
      have performed : db.perform .tableExists = (.ok false, db) := by
        unfold Database.perform
        rw [table]
        rfl
      rw [performed]
      exact ⟨version, { history with seen := 0 }, stands, le_rfl, id,
        ⟨Nat.le_zero.mp (zero ▸ stands.since), rfl⟩, rfl, rfl, floor, created⟩
    | some row =>
      have performed : db.perform .tableExists = (.ok true, db) := by
        unfold Database.perform
        rw [table]
        rfl
      rw [performed]
      exact ⟨version, { history with created := true }, stands, le_rfl, id, rfl, rfl, rfl,
        floor, fun _ => Option.isSome_iff_exists.mpr ⟨row, table⟩⟩
  | schemaVersionRow =>
    obtain ⟨row, table⟩ := Option.isSome_iff_exists.mp (created asks)
    have performed : db.perform .schemaVersionRow = (.ok row, db) := by
      unfold Database.perform
      rw [table]
    cases row with
    | none =>
      have none_ : storedVersion db = some 0 := by
        unfold storedVersion
        rw [table]
        rfl
      have zero : version = 0 := Option.some.inj (stands.stored.symm.trans none_)
      rw [performed]
      exact ⟨version, { history with seen := 0 }, stands, le_rfl, id,
        ⟨Nat.le_zero.mp (zero ▸ stands.since), rfl⟩, rfl, rfl, floor, created⟩
    | some text =>
      have read := (storedVersion_of_table table).symm.trans stands.stored
      have parsed : parseUnsigned maxVersion text = .ok version := by
        cases result : parseUnsigned maxVersion text with
        | error error =>
          rw [result] at read
          cases read
        | ok value =>
          rw [result] at read
          exact congrArg Except.ok (Option.some.inj read)
      rw [performed]
      refine ⟨version, { history with seen := version, floor := version }, stands, le_rfl, id,
        ⟨version, parsed, stands.since, stands.known, floor, rfl⟩, ?_, rfl, le_rfl, created⟩
      change version = ((parseUnsigned maxVersion text).toOption).getD 0
      rw [parsed]
      rfl
  | userVersion =>
    refine ⟨version, history, stands, le_rfl, id, ⟨rfl, fun updates clean => ?_⟩, rfl, rfl, floor,
      created⟩
    rw [stands.user updates, compares rfl clean]
  | transaction step sql update =>
    cases sql with
    | none => exact perform_target agrees stands floor created asks
    | some sql => exact perform_step agrees stands floor created asks (trusts step sql update rfl)

/-- A request at which the storage fails. -/
theorem answered_failed (request : Request Schema) (error : OmError) :
    Answered opening first.schema start history request (request.failed error)
      { history with seen := seenAfter history.seen request (request.failed error), hit := true } := by
  cases request with
  | transaction => exact .inl rfl
  | _ => rfl

theorem OnItsWay.later {later : Nat} {process : Process Schema}
    (way : OnItsWay opening first start db version process history) (grows : version ≤ later)
    (table : db.table.isSome → other.table.isSome) :
    OnItsWay opening first start other later process history :=
  ⟨way.seen, way.hit, way.floor.trans grows, fun created => table (way.created created), way.good⟩

/-- A step changes one process, and the others stay on their way. -/
theorem Kept.setProcess {later id : Nat}
    {process : Option (Process Schema)} (kept : Kept opening first start s version)
    (stands : Stands opening first start other later) (grows : version ≤ later)
    (table : s.db.table.isSome → other.table.isSome) (way : ∀ changed, process = some changed →
      ∃ history, OnItsWay opening first start other later changed history) :
    Kept opening first start { s.setProcess id process with db := other } later where
  stands := stands
  processes := by
    intro asked found member
    change Function.update s.processes id process asked = some found at member
    by_cases same : asked = id
    · rw [same, Function.update_self] at member
      exact way found member
    · rw [Function.update_of_ne same] at member
      obtain ⟨history, way⟩ := kept.processes asked found member
      exact ⟨history, way.later grows table⟩

theorem kept_new (agrees : Agrees opening first start) :
    Kept opening first start (.new first) start where
  stands :=
    { stored := agrees.version
      since := le_rfl
      known := agrees.listed.known
      user := fun updates => (agrees.user updates).1
      executed := agrees.fresh.trans (by rw [due_self, List.map_nil])
      tables := by
        rw [due_self]
        rfl }
  processes id process member := by cases member

/-- **One step** keeps the invariant, and the stored version never decreases. -/
theorem Kept.step (agrees : Agrees opening first start)
    (kept : Kept opening first start s version) (meets : Meets s action)
    (stepped : State.step opening s action = some next) :
    ∃ later, version ≤ later ∧ Kept opening first start next later := by
  cases action with
  | opens id =>
    simp only [State.step] at stepped
    split at stepped <;> cases stepped
    refine ⟨version, le_rfl, kept.setProcess kept.stands le_rfl (fun table => table) ?_⟩
    rintro _ ⟨⟩
    exact ⟨⟨0, false, 0, false⟩, rfl, rfl, Nat.zero_le _, fun created => (by cases created),
      good_program agrees.listed⟩
  | stop id =>
    cases stepped
    refine ⟨version, le_rfl, kept.setProcess kept.stands le_rfl (fun table => table) ?_⟩
    rintro _ ⟨⟩
  | request id failure =>
    simp only [State.step] at stepped
    split at stepped
    next request program seen hit found =>
      obtain ⟨history, way⟩ := kept.processes id _ found
      obtain ⟨sees, hits, floor, created, asks, goesOn⟩ := way
      dsimp only at sees hits
      split at stepped
      next error =>
        cases stepped
        refine ⟨version, le_rfl, kept.setProcess kept.stands le_rfl (fun table => table) ?_⟩
        rintro _ ⟨⟩
        subst sees
        let after := { history with
          seen := seenAfter history.seen request (request.failed error), hit := true }
        exact ⟨after, rfl, rfl, floor, created, goesOn _ _ (answered_failed request error)⟩
      next =>
        cases stepped
        obtain ⟨later, after, done⟩ := performed agrees kept.stands floor created asks
          (by
            rintro step sql update rfl
            have stored := meets _ found trivial
            exact sees.trans (Option.some.inj (stored.symm.trans kept.stands.stored)))
          (by
            rintro rfl clean
            have stored := meets _ found (hits.symm.trans clean)
            exact sees.trans (Option.some.inj (stored.symm.trans kept.stands.stored)))
        refine ⟨later, done.grows, kept.setProcess done.stands done.grows done.table ?_⟩
        rintro _ ⟨⟩
        exact ⟨after, done.seen.trans (by rw [sees]), done.hit.trans hits, done.floor,
          done.created, goesOn _ _ done.answered⟩
    next => cases stepped

theorem nodup_due {steps : List (Nat × Sql Schema)} (ordered : Ordered steps) :
    ((due steps start version).map Prod.fst).Nodup := by
  refine List.Nodup.sublist ((List.filter_sublist).map Prod.fst) ?_
  unfold List.Nodup
  rw [List.pairwise_map]
  exact ordered.imp fun less => Nat.ne_of_lt less

theorem Kept.migrated (agrees : Agrees opening first start)
    (kept : Kept opening first start s version) : Migrated opening first start s where
  once := by
    rw [kept.stands.executed]
    exact nodup_due agrees.listed.ordered
  stored := ⟨version, kept.stands.stored, kept.stands.executed, kept.stands.user⟩
  finishes := by
    rintro id ⟨_, seen, hit⟩ result member rfl
    obtain ⟨history, way⟩ := kept.processes id _ member
    have wanted : Wanted opening first.schema start history result := way.good
    cases result with
    | ok =>
      refine .inl ⟨rfl, kept.stands.stored.trans (congrArg some ?_)⟩
      exact Nat.le_antisymm kept.stands.known (Nat.le_trans wanted way.floor)
    | error error => exact .inr (wanted.imp_left fun hit => way.hit.symm.trans hit)

end Steps

/-! ## Runs -/

/-- **Schema migration is exactly-once.** In every run in which no process relies on a
version that another one has migrated since, every reached state is migrated as claimed,
and the stored version never decreases. -/
theorem migrates_once {opening : Opening Schema} {first : Database Schema} {start : Nat}
    (agrees : Agrees opening first start) {actions : List Action}
    (meets : Throughout (State.step opening) Meets (.new first) actions) :
    (∀ before after reached, actions = before ++ after →
      runs (State.step opening) (.new first) before = some reached →
        Migrated opening first start reached) ∧
    ∀ before between after reached later version, actions = before ++ (between ++ after) →
      runs (State.step opening) (.new first) before = some reached →
        runs (State.step opening) reached between = some later →
          storedVersion reached.db = some version →
            ∃ greater, version ≤ greater ∧ storedVersion later.db = some greater := by
  have kept : ∀ {state : State Schema} {version : Nat} {part : List Action} {reached},
      Kept opening first start state version →
      Throughout (State.step opening) Meets state part →
      runs (State.step opening) state part = some reached →
        ∃ greater, version ≤ greater ∧ Kept opening first start reached greater := by
    intro state version part reached kept met run
    refine invariant_of_throughout (motive := fun state => ∃ greater, version ≤ greater ∧
      Kept opening first start state greater) ⟨version, le_rfl, kept⟩ ?_ met run
    rintro state action next ⟨greater, grows, kept⟩ meets stepped
    obtain ⟨later, more, kept⟩ := kept.step agrees meets stepped
    exact ⟨later, grows.trans more, kept⟩
  refine ⟨?_, ?_⟩
  · rintro before after reached rfl run
    obtain ⟨version, _, kept⟩ := kept (kept_new agrees) (throughout_append.mp meets).1 run
    exact kept.migrated agrees
  · rintro before between after reached later version rfl run further stored
    obtain ⟨met, rest⟩ := throughout_append.mp meets
    obtain ⟨held, _, keptReached⟩ := kept (kept_new agrees) met run
    obtain ⟨greater, grows, keptLater⟩ := kept keptReached
      (throughout_append.mp (rest reached run)).1 further
    have same : version = held :=
      Option.some.inj (stored.symm.trans keptReached.stands.stored)
    exact ⟨greater, same ▸ grows, keptLater.stands.stored⟩

/-! ## Two processes -/

/-- One step, which counts how often it is executed. -/
abbrev counting : Opening Nat := .apply 1 [(1, fun count => .ok (count + 1))]

abbrev emptyFile : Database Nat := ⟨none, 0, 0, []⟩

theorem agrees_counting : Agrees counting emptyFile 0 where
  version := rfl
  fresh := rfl
  listed := ⟨List.pairwise_singleton _ _, by decide, fun updates => by cases updates⟩
  fits := by decide
  user updates := by cases updates

/-- A process creates the metadata table and reads the version. -/
abbrev reads (process : Nat) : List Action :=
  [.opens process, .request process none, .request process none, .request process none]

/-- One process opens the file and executes the step. -/
abbrev alone : List Action := reads 0 ++ [.request 0 none]

theorem meets_alone : Throughout (State.step counting) Meets (.new emptyFile) alone := by
  refine ⟨trivial, fun _ stepped => ?_⟩
  cases stepped
  refine ⟨fun process member trusts => ?_, fun _ stepped => ?_⟩
  · cases member
    cases trusts
  cases stepped
  refine ⟨fun process member trusts => ?_, fun _ stepped => ?_⟩
  · cases member
    cases trusts
  cases stepped
  refine ⟨fun process member trusts => ?_, fun _ stepped => ?_⟩
  · cases member
    cases trusts
  cases stepped
  refine ⟨fun process member trusts => ?_, fun _ _ => trivial⟩
  cases member
  rfl

theorem migrates_once_alone : ∃ reached,
    runs (State.step counting) (.new emptyFile) alone = some reached ∧
      Migrated counting emptyFile 0 reached :=
  ⟨_, rfl, (migrates_once agrees_counting meets_alone).1 alone [] _
    (List.append_nil alone).symm rfl⟩

/-- Both processes read version 0 before the first one executes the step. -/
theorem not_always_migrated : ¬ ∀ actions reached,
    runs (State.step counting) (.new emptyFile) actions = some reached →
      Migrated counting emptyFile 0 reached := by
  intro always
  have twice := (always (reads 0 ++ reads 1 ++ [.request 0 none, .request 1 none]) _ rfl).once
  exact absurd twice (by decide)

end OpenMemory.Daemon.ProductSchema
