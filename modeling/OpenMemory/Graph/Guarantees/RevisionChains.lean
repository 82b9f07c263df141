import OpenMemory.Foundation.Lineage
import OpenMemory.Graph.Guarantees.RevisionIdentity
import OpenMemory.Graph.Histories

/-!
# What a store keeps

The revisions of a store are chains: each names the one that was the head of its observation
when it was recorded. They do not branch, each leads back to a first one, and the head has the
content and the lifecycle of its row.

Whatever a run does later, a revision stays, and so does the origin of its change set. What the
search index is owed stays owed until it is applied.
-/

namespace OpenMemory.Graph

open Foundation
open Merge (Blake3)

/-! ## What the moves of a ledger keep -/

namespace Ledger

variable {before after ledger : Ledger} {effect : Effect} {id key : String}

/-- The revisions of the observations, with the content and the lifecycle that each records. -/
def lineage (ledger : Ledger) : Lineage String String (SemanticContent × Lifecycle) where
  version key := (ledger.revisions key).map fun revision =>
    (revision.observationId, revision.parentRevisionId, revision.semantic, revision.lifecycle)
  head id := (ledger.observations id).bind fun row =>
    row.currentRevisionId.map fun key => (key, row.semantic, row.lifecycle)

theorem lineage_head {head : String × SemanticContent × Lifecycle} :
    ledger.lineage.head id = some head ↔ ∃ row, ledger.observations id = some row ∧
      row.currentRevisionId = some head.1 ∧ row.semantic = head.2.1 ∧
        row.lifecycle = head.2.2 := by
  simp [lineage, Option.bind_eq_some_iff, Prod.ext_iff]

/-- A revision on top of the head of its row. -/
theorem lineage_added {row next : ObservationRow} {revision : Revision}
    {last : Option ObservationRow} (present : before.observations id = some row)
    (new : before.revisions key = none)
    (records : Records revision id next row.currentRevisionId)
    (heads : ∀ row, last = some row → row.currentRevisionId = some key ∧
      row.semantic = next.semantic ∧ row.lifecycle = next.lifecycle) :
    before.lineage.Step ((before.addRevision key revision).setObservation id last).lineage := by
  obtain ⟨own, content, state, parent⟩ := records
  refine @Lineage.Step.added _ _ _ _ _ _ _ id key (next.semantic, next.lifecycle)
    row.currentRevisionId (((before.setObservation id last).lineage).head id) ?_ ?_ ?_ ?_ ?_
  · simp [lineage, new]
  · intro head headed
    obtain ⟨row, present, current, same⟩ := lineage_head.mp headed
    rw [show (before.setObservation id last).observations id = last from
      Function.update_self ..] at present
    obtain ⟨here, content, state⟩ := heads row present
    grind
  · simp [lineage_head, present]
  · intro other
    by_cases here : other = key <;>
      simp [lineage, addRevision, setObservation, here, own, content, state, parent]
  · intro other
    by_cases here : other = id <;> simp [lineage, addRevision, setObservation, here]

/-- Heads are lost, and no revision comes. -/
theorem lineage_kept {observations : String → Option ObservationRow}
    (fewer : ∀ id row key, observations id = some row → row.currentRevisionId = some key →
      ∃ old, before.observations id = some old ∧ old.currentRevisionId = some key ∧
        old.semantic = row.semantic ∧ old.lifecycle = row.lifecycle) :
    before.lineage.Step { before with observations }.lineage := by
  refine .kept rfl fun id head headed => ?_
  obtain ⟨row, present, current, content, state⟩ := lineage_head.mp headed
  obtain ⟨old, was, same, first, second⟩ := fewer id row head.1 present current
  exact lineage_head.mpr ⟨old, was, same, first.trans content, second.trans state⟩

theorem Moves.lineage (moved : Moves before effect after) :
    before.lineage.Step after.lineage := by
  cases moved with
  | inserted absent fresh =>
    refine lineage_kept fun id row key present headed => ?_
    have := fresh.head
    grind [Function.update_apply]
  | headed present headless new records =>
    exact lineage_added present new (headless ▸ records) (by grind)
  | revised present advances new records =>
    have := advances.head
    exact lineage_added present new records (by grind)
  | destroyed present new records => exact lineage_added present new records (by simp)
  | removed => exact lineage_kept (by grind)
  | accessed =>
    refine lineage_kept fun id row key present headed => ?_
    split at present
    · obtain ⟨old, was, rfl⟩ := Option.map_eq_some_iff.mp present
      exact ⟨old, was, headed, rfl, rfl⟩
    · exact ⟨row, present, headed, rfl, rfl⟩
  | owed => exact .kept rfl fun _ _ headed => headed
  | noted => exact .kept rfl fun _ _ headed => headed

/-- A row that was revised is in step, and one that is not deleted is active. -/
def Aligned (ledger : Ledger) : Prop :=
  ∀ id row, ledger.observations id = some row →
    (row.tombstoned = false → row.lifecycle = .active) ∧ (row.rowVersion ≠ 1 → InStep row)

theorem Moves.aligned (moved : Moves before effect after) (aligned : before.Aligned) :
    after.Aligned := by
  intro id row present
  have held := aligned id
  cases moved.rowChange id with
  | inserted _ fresh now =>
    obtain ⟨_, version, lifecycle⟩ := fresh
    grind
  | revised _ advances _ _ _ now =>
    obtain ⟨_, _, _, retired, kept⟩ := advances
    cases state : row.lifecycle <;> grind [InStep]
  | _ => grind [InStep]

/-- The outbox still has the change, and as it was if it was applied. -/
def Owes (ledger : Ledger) (slot : Nat × Nat) (row : OutboxRow) : Prop :=
  ∃ later, ledger.outbox slot = some later ∧ later.operation = row.operation ∧
    later.logicalId = row.logicalId ∧ later.revisionId = row.revisionId ∧
      (row.appliedAt ≠ none → later = row)

theorem Moves.owes {slot : Nat × Nat} {row : OutboxRow} (moved : Moves before effect after)
    (owes : before.Owes slot row) : after.Owes slot row := by
  obtain ⟨later, held, operation, logicalId, revisionId, applied⟩ := owes
  cases moved with
  | @owed other added new pending =>
    refine ⟨later, (Function.update_of_ne ?_ ..).trans held, operation, logicalId, revisionId,
      applied⟩
    rintro rfl
    cases new.symm.trans held
  | @noted note marks =>
    refine ⟨note slot later, congrArg (Option.map (note slot)) held,
      (marks.operation _ _).trans operation, (marks.logicalId _ _).trans logicalId,
      (marks.revisionId _ _).trans revisionId, fun done => ?_⟩
    cases applied done
    exact marks.applied slot row done
  | _ => exact ⟨later, held, operation, logicalId, revisionId, applied⟩

end Ledger

open Database

theorem Database.perform_ledger [Blake3] [PayloadCodec] [EntityMatching] {db db' : Database}
    {motive : Ledger → Prop} {transaction : Transaction}
    (preserved : ∀ {before effect after}, Ledger.Moves before effect after → motive before →
      motive after)
    (held : motive db.ledger) (performed : db.perform transaction = .ok db') :
    motive db'.ledger := by
  obtain ⟨effects, follows, _⟩ := perform_moves performed
  exact follows.invariant held fun _ _ _ _ held moved => preserved moved held

/-! ## In every reachable state -/

/-- **Revisions are chains.** -/
theorem revisions_chained [Blake3] [PayloadCodec] [EntityMatching] {db : Database}
    (reachable : Reachable db) : db.ledger.lineage.Chained := by
  refine reachable.invariant (fun db migrated => ?_) fun _ _ _ =>
    perform_ledger (motive := fun ledger => ledger.lineage.Chained) fun moved =>
      moved.lineage.chained
  refine .of_unknown (fun key => ?_) fun id head headed => ?_
  · change (db.revisions.get? key).map _ = none
    rw [migrated.revisions]
    rfl
  · obtain ⟨row, present, current, _⟩ := Ledger.lineage_head.mp headed
    cases (migrated.rows id row present).head.symm.trans current

/-- **Tombstones and lifecycles agree** wherever a row was revised. -/
theorem rows_aligned [Blake3] [PayloadCodec] [EntityMatching] {db : Database}
    (reachable : Reachable db) : db.ledger.Aligned := by
  refine reachable.invariant (fun db migrated id row present => ?_) fun _ _ _ =>
    perform_ledger (motive := Ledger.Aligned) Ledger.Moves.aligned
  have fresh := migrated.rows id row present
  exact ⟨fun _ => fresh.lifecycle, fun revised => absurd fresh.version revised⟩

section

open Merge.Fixture Database.AuditBounds Database.RevisionIdentity

theorem promoted_reachable : Reachable promoted := by
  obtain ⟨start, transactions, migrated, _, run⟩ := promoted_reached
  exact ⟨start, transactions, migrated.toMigrated, run⟩

theorem promotion_chained : promoted.ledger.lineage.Chained := revisions_chained promoted_reachable

theorem promotion_aligned : promoted.ledger.Aligned := rows_aligned promoted_reachable

end

/-! ## Along every run -/

/-- **The outbox loses nothing.** -/
theorem outbox_lasts [Blake3] [PayloadCodec] [EntityMatching] {db db' : Database}
    {transactions : List Transaction} {slot : Nat × Nat} {row : OutboxRow}
    (run : runs performs db transactions = some db') (owed : db.outbox.get? slot = some row) :
    db'.ledger.Owes slot row :=
  invariant_of_runs (motive := fun later => later.ledger.Owes slot row)
    ⟨row, owed, rfl, rfl, rfl, fun _ => rfl⟩ (fun _ _ _ owes performed =>
      perform_ledger Ledger.Moves.owes owes (performs_eq_some.mp performed)) run

/-- **The audit trail lasts**: a revision and the origin of its change set stay, and an
observation that was destroyed does not come back under its id. -/
theorem audit_lasts [Blake3] [PayloadCodec] [EntityMatching] {db db' : Database}
    {transactions : List Transaction} {key : String} {revision : Revision}
    (reached : TidilyReached db) (unused : Throughout performs DrawsUnmentioned db transactions)
    (run : runs performs db transactions = some db')
    (held : db.revisions.get? key = some revision) :
    db'.revisions.get? key = some revision ∧
      (∃ changes later, db.changeSets.get? revision.changesetId = some changes ∧
        db'.changeSets.get? revision.changesetId = some later ∧ later.SameOrigin changes) ∧
      (revision.lifecycle = .destroyed →
        db'.observations.get? revision.observationId = none) := by
  have stands := runs_keepRevisions run held
  refine ⟨stands, ?_, fun gone =>
    ((reached.run unused run).tidy.destroyed key revision stands gone).1⟩
  obtain ⟨changes, there⟩ :=
    Option.ne_none_iff_exists'.mp (reached.tidy.revisions key revision held).2.2
  obtain ⟨later, kept, same⟩ := (runs_keepsOrigins run).changeSets _ changes there
  exact ⟨changes, later, there, kept, same⟩

section

open Merge.Fixture Database.AuditBounds Database.RevisionIdentity

abbrev marking : List Transaction := [.markApplied 5 [(1, 0)]]

def marked : Database := promoted.markIndexRowsApplied 5 [(1, 0)]

theorem marking_runs : runs performs promoted marking = some marked := rfl

theorem marking_owes : ∃ row, promoted.outbox.get? (1, 0) = some row ∧
    marked.ledger.Owes (1, 0) row := by
  obtain ⟨row, owed⟩ := Option.ne_none_iff_exists'.mp
    (show promoted.outbox.get? (1, 0) ≠ none by decide)
  exact ⟨row, owed, outbox_lasts marking_runs owed⟩

theorem marking_kept : marked.revisions.get? firstId = some first := by
  have unused : Throughout performs DrawsUnmentioned promoted marking :=
    ⟨fun _ none => absurd none (Set.notMem_empty _), fun _ _ => trivial⟩
  exact (audit_lasts promoted_reached unused marking_runs first_held).1

end

end OpenMemory.Graph
