import OpenMemory.Graph.Guarantees.BulkRetirement

/-!
# How long tombstones live

Pruning deletes the tombstones whose stamp is older than their time to live. But the
stamp is when the observation was made, or ends to be valid; retiring leaves it as it
is. So a tombstone lives for its time exactly when its stamp is not before its
retirement: an old observation that is retired now may be deleted now.

The stores here remember, beside their rows, when each observation was retired.
-/

namespace OpenMemory.Graph

open Foundation
open Merge (Blake3)

/-! ## Stores that remember retirements -/

/-- A database, and when its retired observations were retired, as far as that is known. -/
structure Retention where
  db : Database
  retiredAt : String → Option Int64

namespace Database

def isRetired (db : Database) (id : String) : Bool :=
  (db.observations.get? id).any fun row => row.lifecycle = .retired

variable {db : Database} {id : String} {row : ObservationRow}

theorem isRetired_of (present : db.observations.get? id = some row)
    (retired : row.lifecycle = .retired) : db.isRetired id = true := by
  unfold isRetired
  rw [present]
  exact decide_eq_true retired

theorem retired_of_isRetired (present : db.observations.get? id = some row)
    (retired : db.isRetired id = true) : row.lifecycle = .retired := by
  unfold isRetired at retired
  rw [present] at retired
  exact of_decide_eq_true retired

end Database

namespace Retention

/-- When an observation is retired that a call at this time leaves retired: it may have
been retired before. -/
def since (state : Retention) (clock : Option Int64) (id : String) : Option Int64 :=
  if state.db.isRetired id then state.retiredAt id else clock

/-- The state after a call at this time left the database. -/
def after (state : Retention) (clock : Option Int64) (db : Database) : Retention where
  db := db
  retiredAt := fun id => if db.isRetired id then state.since clock id else none

/-- No tombstone has a stamp before its retirement. -/
def Kept (state : Retention) : Prop :=
  ∀ id row, state.db.observations.get? id = some row →
    ∀ time, state.retiredAt id = some time → time ≤ row.semantic.stamp

/-- The content that a call leaves under an id, if it leaves the observation retired,
has a stamp that is not before the retirement. -/
def Dated (state : Retention) (clock : Option Int64) (id : String) (content : SemanticContent) :
    Prop :=
  ∀ time, state.since clock id = some time → time ≤ content.stamp

/-- **The step of the invariant**: every observation that is retired afterwards was so
before, with its content, or is dated. -/
theorem Kept.after {state : Retention} {clock : Option Int64} {db : Database} (kept : state.Kept)
    (dated : ∀ id next, db.observations.get? id = some next → next.lifecycle = .retired →
      (∃ row, state.db.observations.get? id = some row ∧ row.lifecycle = .retired ∧
        next.semantic = row.semantic) ∨ state.Dated clock id next.semantic) :
    (state.after clock db).Kept := by
  intro id next now time known
  have known : (if db.isRetired id = true then state.since clock id else none) = some time := known
  by_cases retired : db.isRetired id = true
  · rw [if_pos retired] at known
    rcases dated id next now (Database.retired_of_isRetired now retired) with
      ⟨row, before, old, same⟩ | dated
    · rw [same]
      refine kept id row before time ?_
      unfold since at known
      rwa [if_pos (Database.isRetired_of before old)] at known
    · exact dated time known
  · rw [if_neg retired] at known
    cases known

end Retention

/-! ## Calls -/

/-- The clock of a transaction that may retire observations. -/
def Transaction.retirementClock : Transaction → Option Int64
  | submit draws _ _ | approve draws _ _ _ => some draws.now
  | _ => none

/-- A transaction, or a call that submits retirements of its own. -/
inductive RetentionCall where
  | other (transaction : Transaction)
  | forget (draws : Draws) (id : String)
  | retireAll (draws : Draws) (key : ChangeSetId) (ids : List String) (reason : String)
  | retireEntity (draws : Draws) (key : ChangeSetId) (entityId : String)
  | consolidate (now : Int64) (retirement : Draws) (key : ChangeSetId) (sweep : Draws)
      (config : ConsolidateConfig)

namespace RetentionCall

def clock : RetentionCall → Option Int64
  | other transaction => transaction.retirementClock
  | forget draws _ | retireAll draws _ _ _ | retireEntity draws _ _ => some draws.now
  | consolidate _ retirement _ _ _ => some retirement.now

variable [ScoreArithmetic] [CaseMapping] [Blake3] [PayloadCodec] [EntityMatching]

def perform (db : Database) : RetentionCall → MemoryResult Database
  | other transaction => db.perform transaction
  | forget draws id => (db.retireObservation draws id).map Prod.fst
  | retireAll draws key ids reason =>
    (db.retireObservationsForMaintenance draws key ids reason).map Prod.fst
  | retireEntity draws key entityId =>
    (db.retireEntityObservationsById draws key entityId).map Prod.fst
  | consolidate now retirement key sweep config =>
    (db.consolidate now retirement key sweep config).map Prod.fst

/-- The state after a call; a call that fails leaves it as it was. -/
def next (state : Retention) (call : RetentionCall) : Option Retention :=
  match call.perform state.db with
  | .ok db => some (state.after call.clock db)
  | .error _ => some state

/-- **Tombstones live for their time**: the observations that a call prunes were
tombstones, and each that is known to be retired has been so for its time to live. -/
def Spares (state : Retention) : RetentionCall → Prop
  | other (.prune draws ttlSecs) => 0 ≤ ttlSecs → ∀ id row,
      state.db.observations.get? id = some row →
      (state.db.pruneWithTtl draws ttlSecs).observations.get? id = none →
        row.tombstoned = true ∧ ∀ time, state.retiredAt id = some time →
          time.toInt + ttlSecs.toInt ≤ draws.now.toInt
  | consolidate now retirement key sweep config => ∀ db' report,
      state.db.consolidate now retirement key sweep config = .ok (db', report) → ∀ id row,
      state.db.observations.get? id = some row → db'.observations.get? id = none →
        row.tombstoned = true ∧ ∀ time, state.retiredAt id = some time →
          time.toInt + Database.defaultTombstoneTtlSecs.toInt ≤ sweep.now.toInt
  | _ => True

/-- The active ones among these observations have stamps at this time or later. -/
def StampedFrom (db : Database) (now : Int64) (ids : List String) : Prop :=
  ∀ id ∈ ids, ∀ row, db.observations.get? id = some row → row.lifecycle = .active →
    now ≤ row.semantic.stamp

/-- **The condition on a call**: what it retires has a stamp that is not before the
retirement; the clock of a prune is not negative; and a consolidation takes less time
than its tombstones live. -/
def OnTime (state : Retention) : RetentionCall → Prop
  | other transaction =>
    (∀ changesetId operations, state.db.Applies transaction changesetId operations →
      ∀ operation ∈ operations, state.db.Names operation ∧ ∀ id content,
        Database.LeavesRetired state.db operation id content →
          state.Dated transaction.retirementClock id content) ∧
    ∀ draws ttlSecs, transaction = .prune draws ttlSecs → 0 ≤ draws.now
  | forget draws id => StampedFrom state.db draws.now [id]
  | retireAll draws _ ids _ => StampedFrom state.db draws.now ids
  | retireEntity draws _ entityId =>
    StampedFrom state.db draws.now (state.db.activeObservations entityId)
  | consolidate now retirement _ sweep config =>
    StampedFrom state.db retirement.now (state.db.consolidationTargets config now) ∧
    0 ≤ sweep.now ∧
    sweep.now.toInt < retirement.now.toInt + Database.defaultTombstoneTtlSecs.toInt

/-! ## What the calls keep -/

variable {state state' : Retention} {call : RetentionCall} {db' : Database} {draws : Draws}
  {ids : List String} {id : String} {next : ObservationRow}

section

omit [ScoreArithmetic] [CaseMapping] [Blake3] [PayloadCodec] [EntityMatching]

/-- Retirements of stamped observations leave every retired observation as it was, or
dated. -/
theorem dated_of_retires (stamped : StampedFrom state.db draws.now ids)
    (retires : Database.Retires state.db ids db')
    (active : ∀ id ∈ ids, state.db.isActive id = true)
    (now : db'.observations.get? id = some next) (retired : next.lifecycle = .retired) :
    (∃ row, state.db.observations.get? id = some row ∧ row.lifecycle = .retired ∧
      next.semantic = row.semantic) ∨ state.Dated (some draws.now) id next.semantic := by
  rcases retires.rowAfter now with same | ⟨row, member, before, changed⟩
  · exact .inl ⟨next, same, retired, rfl⟩
  · obtain ⟨held, again, state_active⟩ := Database.isActive_iff.mp (active id member)
    cases before.symm.trans again
    refine .inr fun time since => ?_
    have fresh : state.db.isRetired id = false := by
      cases old : state.db.isRetired id with
      | false => rfl
      | true =>
        rw [Database.retired_of_isRetired before old] at state_active
        cases state_active
    unfold Retention.since at since
    rw [fresh] at since
    cases since
    rw [changed.semantic]
    exact stamped id member row before state_active

theorem StampedFrom.mono {db : Database} {now : Int64} {more : List String}
    (stamped : StampedFrom db now ids) (among : ∀ id ∈ more, id ∈ ids) :
    StampedFrom db now more :=
  fun id member row present active => stamped id (among id member) row present active

end

/-- Every observation that is retired after a call on time was so before, with its
content, or is dated. -/
theorem dated_of_perform (onTime : OnTime state call) (performed : call.perform state.db = .ok db')
    (now : db'.observations.get? id = some next) (retired : next.lifecycle = .retired) :
    (∃ row, state.db.observations.get? id = some row ∧ row.lifecycle = .retired ∧
      next.semantic = row.semantic) ∨ state.Dated call.clock id next.semantic := by
  cases call with
  | other transaction =>
    rcases Database.perform_retired performed (fun changesetId operations applies operation
      member => (onTime.1 changesetId operations applies operation member).1) now retired with
      before | ⟨changesetId, operations, applies, operation, member, leaves⟩
    · exact .inl before
    · exact .inr ((onTime.1 changesetId operations applies operation member).2 id _ leaves)
  | forget draws target =>
    obtain ⟨⟨_, changed⟩, done, rfl⟩ := map_eq_ok.mp performed
    obtain ⟨ids, retires, known⟩ := Database.retireObservation_retires done
    have stamped : StampedFrom state.db draws.now [target] := onTime
    exact dated_of_retires (stamped.mono fun id member => by rw [(known id member).1]; simp)
      retires (fun id member => by rw [(known id member).1]; exact (known id member).2) now
      retired
  | retireAll draws key targets reason =>
    obtain ⟨⟨_, count⟩, done, rfl⟩ := map_eq_ok.mp performed
    obtain ⟨ids, retires, known⟩ := Database.retireObservationsForMaintenance_retires done
    have stamped : StampedFrom state.db draws.now targets := onTime
    exact dated_of_retires (stamped.mono fun id member => (known id member).1) retires
      (fun id member => (known id member).2) now retired
  | retireEntity draws key entityId =>
    obtain ⟨⟨_, count⟩, done, rfl⟩ := map_eq_ok.mp performed
    obtain ⟨_, _, done⟩ := bind_eq_ok.mp done
    obtain ⟨_, _, done⟩ := bind_eq_ok.mp done
    obtain ⟨ids, retires, known⟩ := Database.retireObservationsForMaintenance_retires done
    have stamped : StampedFrom state.db draws.now (state.db.activeObservations entityId) := onTime
    exact dated_of_retires (stamped.mono fun id member => (known id member).1) retires
      (fun id member => (known id member).2) now retired
  | consolidate clock retirement key sweep config =>
    obtain ⟨⟨_, report⟩, done, rfl⟩ := map_eq_ok.mp performed
    obtain ⟨middle, ids, retires, known, rows⟩ := Database.consolidate_rows done
    have stamped : StampedFrom state.db retirement.now
      (state.db.consolidationTargets config clock) := onTime.1
    rw [rows, Table.get?_filter, Option.filter_eq_some_iff, Table.get?_map,
      Option.map_eq_some_iff] at now
    obtain ⟨⟨row, there, rfl⟩, _⟩ := now
    have dated := dated_of_retires (stamped.mono fun id member => (known id member).1) retires
      (fun id member => (known id member).2) there retired
    exact dated

/-- **The invariant of a run.** A call that is on time leaves no tombstone with a stamp
before its retirement. -/
theorem kept_next (kept : state.Kept) (onTime : OnTime state call)
    (stepped : call.next state = some state') : state'.Kept := by
  unfold RetentionCall.next at stepped
  split at stepped
  · rename_i db performed
    cases stepped
    exact kept.after fun id next now retired => dated_of_perform onTime performed now retired
  · cases stepped
    exact kept

/-! ## What the calls prune -/

section

omit [ScoreArithmetic] [CaseMapping] [Blake3] [PayloadCodec] [EntityMatching]

/-- The cutoff of a prune, as a number. -/
theorem toInt_cutoff {clock ttlSecs : Int64} (early : 0 ≤ clock) (lasting : 0 ≤ ttlSecs) :
    (clock - max 0 ttlSecs).toInt = clock.toInt - ttlSecs.toInt := by
  have most : max 0 ttlSecs = ttlSecs := if_pos lasting
  rw [Int64.le_iff_toInt_le, Int64.toInt_zero] at early lasting
  have upper := clock.toInt_lt
  have longest := ttlSecs.toInt_lt
  rw [most, Int64.toInt_sub]
  exact Int.bmod_eq_of_le (by omega) (by omega)

/-- A tombstone that is stale has outlived its time, if its stamp is not before its
retirement. -/
theorem outlived {clock ttlSecs time : Int64} {row : ObservationRow} (early : 0 ≤ clock)
    (lasting : 0 ≤ ttlSecs) (dated : time ≤ row.semantic.stamp)
    (stale : Database.stale (clock - max 0 ttlSecs) row = true) :
    time.toInt + ttlSecs.toInt ≤ clock.toInt := by
  unfold Database.stale at stale
  rw [Bool.and_eq_true, decide_eq_true_eq] at stale
  have old : row.semantic.stamp ≤ clock - max 0 ttlSecs := stale.2
  rw [Int64.le_iff_toInt_le] at old dated
  rw [toInt_cutoff early lasting] at old
  omega

theorem tombstoned_of_stale {cutoff : Int64} {row : ObservationRow}
    (stale : Database.stale cutoff row = true) : row.tombstoned = true := by
  unfold Database.stale at stale
  exact (Bool.and_eq_true_iff.mp stale).1

theorem stale_of_swept {cutoff : Int64} {row : ObservationRow}
    (swept : (some row).filter (fun row => !Database.stale cutoff row) = none) :
    Database.stale cutoff row = true := by
  rw [Option.filter_eq_none_iff] at swept
  have fresh := swept row rfl
  rwa [Bool.not_eq_true', Bool.not_eq_false] at fresh

end

/-- A call that is on time spares what it should. -/
theorem spares_of_kept (kept : state.Kept) (onTime : OnTime state call) : Spares state call := by
  cases call with
  | other transaction =>
    cases transaction with
    | prune draws ttlSecs =>
      intro lasting id row present gone
      rw [Database.pruneWithTtl_rows, Table.get?_filter, present] at gone
      have stale := stale_of_swept gone
      exact ⟨tombstoned_of_stale stale, fun time known =>
        outlived (onTime.2 draws ttlSecs rfl) lasting (kept id row present time known) stale⟩
    | _ => trivial
  | consolidate now retirement key sweep config =>
    intro db' report done id row present gone
    obtain ⟨stamped, early, brief⟩ := onTime
    obtain ⟨middle, ids, retires, known, rows⟩ := Database.consolidate_rows done
    rw [rows, Table.get?_filter, Table.get?_map] at gone
    by_cases member : id ∈ ids
    · obtain ⟨after, there, changed⟩ := retires.retired member present
      obtain ⟨held, again, active⟩ := Database.isActive_iff.mp (known id member).2
      cases present.symm.trans again
      rw [there, Option.map_some] at gone
      have stale := stale_of_swept gone
      have dated : retirement.now ≤ after.semantic.stamp := by
        rw [changed.semantic]
        exact stamped id (known id member).1 row present active
      have lived := outlived early (by decide) dated stale
      omega
    · rw [retires.kept member, present, Option.map_some] at gone
      have stale := stale_of_swept gone
      exact ⟨tombstoned_of_stale stale, fun time held =>
        outlived early (by decide) (kept id row present time held) stale⟩
  | _ => trivial

/-- From a state with no tombstone stamped before its retirement, calls on time spare
what they should. -/
theorem throughout_spares {calls : List RetentionCall} (kept : state.Kept)
    (onTime : Throughout RetentionCall.next OnTime state calls) :
    Throughout RetentionCall.next Spares state calls := by
  induction calls generalizing state with
  | nil => trivial
  | cons call rest ih =>
    refine ⟨spares_of_kept kept onTime.1, fun following stepped => ?_⟩
    exact ih (kept_next kept onTime.1 stepped) (onTime.2 following stepped)

end RetentionCall

/-- A store of whose retirements nothing is known yet. -/
def Retention.start (db : Database) : Retention := ⟨db, fun _ => none⟩

open RetentionCall in
/-- **The life of tombstones.** In every run of calls that are on time, every prune
deletes only tombstones, and no observation less than the time to live after it was
retired; and no consolidation deletes what it retired itself. -/
theorem tombstones_live [ScoreArithmetic] [CaseMapping] [Blake3] [PayloadCodec] [EntityMatching]
    (start : Database) (calls : List RetentionCall)
    (onTime : Throughout next OnTime (.start start) calls) :
    Throughout next Spares (.start start) calls :=
  throughout_spares (fun _ _ _ _ known => nomatch known) onTime

/-! ## An observation that is old when it is retired -/

namespace TombstoneLife

open Database AuditBounds BulkRetirement Merge.Fixture

abbrev drawsAt (now : Int64) : Draws := { draws with now }

/-- Prune with a day to live. -/
abbrev pruneAt (now : Int64) : RetentionCall := .other (.prune (drawsAt now) 86400)

theorem crowd_onTime : Throughout RetentionCall.next RetentionCall.OnTime (.start (crowd 1))
    [.forget (drawsAt 0) "o", pruneAt 100] := by
  refine ⟨fun id member row present _ => ?_, fun following _ =>
    ⟨⟨fun _ _ applies => applies.elim, fun draws ttlSecs same => ?_⟩, fun _ _ => trivial⟩⟩
  · rw [crowd_rows present]
    decide
  · cases same
    decide

/-- The store after its old observation was forgotten. -/
def forgotten : Database :=
  (unwrap ((crowd 1).retireObservation (drawsAt 1000000) "o") (by decide)).1

theorem forgotten_next : (RetentionCall.forget (drawsAt 1000000) "o").next (.start (crowd 1)) =
    some ((Retention.start (crowd 1)).after (some 1000000) forgotten) := by
  have done : (crowd 1).retireObservation (drawsAt 1000000) "o" =
      .ok (unwrap ((crowd 1).retireObservation (drawsAt 1000000) "o") (by decide)) := unwrap_eq
  have performed : (RetentionCall.forget (drawsAt 1000000) "o").perform (crowd 1) =
      .ok forgotten := map_eq_ok.mpr ⟨_, done, rfl⟩
  unfold RetentionCall.next
  rw [show (Retention.start (crowd 1)).db = crowd 1 from rfl, performed]
  rfl

def forgottenRow : ObservationRow := (forgotten.observations.get? "o").get (by decide)

theorem forgottenRow_present : forgotten.observations.get? "o" = some forgottenRow :=
  (Option.some_get _).symm

end TombstoneLife

open Database AuditBounds BulkRetirement Merge.Fixture TombstoneLife in
/-- An observation that is as old as its retirement is not pruned too early. -/
theorem recent_tombstone_lives : Throughout RetentionCall.next RetentionCall.Spares
    (.start (crowd 1)) [.forget (drawsAt 0) "o", pruneAt 100] :=
  tombstones_live (crowd 1) _ crowd_onTime

open Database AuditBounds BulkRetirement Merge.Fixture TombstoneLife in
/-- An old observation is pruned in the second in which it was forgotten. -/
theorem old_tombstone_dies :
    ¬ ∀ (start : Database) (calls : List RetentionCall), Reachable start →
      Throughout RetentionCall.next RetentionCall.Spares (.start start) calls := by
  intro always
  have spares := always (crowd 1) [.forget (drawsAt 1000000) "o", pruneAt 1000000]
    (crowd_migrated 1).reachable
  have pruned := (spares.2 _ forgotten_next).1
  have gone : (forgotten.pruneWithTtl (drawsAt 1000000) 86400).observations.get? "o" = none := by
    decide
  obtain ⟨_, lived⟩ := pruned (by decide) "o" forgottenRow forgottenRow_present gone
  have early := lived 1000000 (by decide)
  exact absurd early (by decide)

end OpenMemory.Graph
