import OpenMemory.Graph.Database

/-!
# The ledger of observations

What the audited store is for, without its tables: observations that change,
revisions that are only ever added, and an outbox of changes that the search
index is owed. The transactions of a store move a ledger in a few ways
(`Ledger.Moves`): a row appears, gets its first revision, is revised, is
destroyed or removed; accesses are counted; outbox rows are marked.

Every invariant of a ledger follows from these moves.
-/

namespace OpenMemory.Graph

open Foundation

/-! ## Ledgers and their moves -/

@[ext] structure Ledger where
  observations : String → Option ObservationRow
  revisions : String → Option Revision
  outbox : Nat × Nat → Option OutboxRow

def Database.ledger (db : Database) : Ledger where
  observations := db.observations.get?
  revisions := db.revisions.get?
  outbox := db.outbox.get?

/-- One change of a ledger. -/
inductive Effect where
  | inserted (id : String) (row : ObservationRow)
  | headed (id : String) (row : ObservationRow) (key : String) (revision : Revision)
  | revised (id : String) (row next : ObservationRow) (key : String) (revision : Revision)
  | destroyed (id : String) (row : ObservationRow) (key : String) (revision : Revision)
  | owed (slot : Nat × Nat) (row : OutboxRow)
  | removed (gone : String → Bool)
  | accessed (id : String) (count : UInt32)
  | noted (note : Nat × Nat → OutboxRow → OutboxRow)

namespace Ledger

def setObservation (ledger : Ledger) (id : String) (row : Option ObservationRow) : Ledger :=
  { ledger with observations := Function.update ledger.observations id row }

def addRevision (ledger : Ledger) (key : String) (revision : Revision) : Ledger :=
  { ledger with revisions := Function.update ledger.revisions key (some revision) }

def addOwed (ledger : Ledger) (slot : Nat × Nat) (row : OutboxRow) : Ledger :=
  { ledger with outbox := Function.update ledger.outbox slot (some row) }

/-- A revision of an observation that records a row on top of a head. -/
structure Records (revision : Revision) (id : String) (row : ObservationRow)
    (parent : Option String) : Prop where
  observation : revision.observationId = id
  semantic : revision.semantic = row.semantic
  lifecycle : revision.lifecycle = row.lifecycle
  parent : revision.parentRevisionId = parent

/-- A row as it is first inserted: in its first version, without a revision. -/
structure Fresh (row : ObservationRow) : Prop where
  head : row.currentRevisionId = none
  version : row.rowVersion = 1
  lifecycle : row.lifecycle = .active

/-- The tombstone says what the lifecycle says. -/
def InStep (row : ObservationRow) : Prop :=
  (row.tombstoned = true ↔ row.lifecycle = .retired) ∧ row.lifecycle ≠ .destroyed

/-- A row revised under a new head. -/
structure Advances (row next : ObservationRow) (key : String) : Prop where
  head : next.currentRevisionId = some key
  version : next.rowVersion = row.rowVersion + 1
  accesses : next.accessCount = row.accessCount
  inStep : InStep next

/-- What a mark on the outbox leaves: what the row is about, and that it was
applied. -/
structure Marks (note : Nat × Nat → OutboxRow → OutboxRow) : Prop where
  operation : ∀ slot row, (note slot row).operation = row.operation
  logicalId : ∀ slot row, (note slot row).logicalId = row.logicalId
  revisionId : ∀ slot row, (note slot row).revisionId = row.revisionId
  applied : ∀ slot row, row.appliedAt ≠ none → note slot row = row

/-- **The moves of a ledger.** -/
inductive Moves : Ledger → Effect → Ledger → Prop
  | inserted {ledger : Ledger} {id : String} {row : ObservationRow}
      (absent : ledger.observations id = none) (fresh : Fresh row) :
      Moves ledger (.inserted id row) (ledger.setObservation id (some row))
  | headed {ledger : Ledger} {id key : String} {row : ObservationRow} {revision : Revision}
      (present : ledger.observations id = some row) (headless : row.currentRevisionId = none)
      (new : ledger.revisions key = none) (records : Records revision id row none) :
      Moves ledger (.headed id row key revision)
        ((ledger.addRevision key revision).setObservation id
          (some { row with currentRevisionId := some key }))
  | revised {ledger : Ledger} {id key : String} {row next : ObservationRow} {revision : Revision}
      (present : ledger.observations id = some row) (advances : Advances row next key)
      (new : ledger.revisions key = none)
      (records : Records revision id next row.currentRevisionId) :
      Moves ledger (.revised id row next key revision)
        ((ledger.addRevision key revision).setObservation id (some next))
  | destroyed {ledger : Ledger} {id key : String} {row : ObservationRow} {revision : Revision}
      (present : ledger.observations id = some row) (new : ledger.revisions key = none)
      (records : Records revision id
        { row with tombstoned := true, lifecycle := .destroyed } row.currentRevisionId) :
      Moves ledger (.destroyed id row key revision)
        ((ledger.addRevision key revision).setObservation id none)
  | owed {ledger : Ledger} {slot : Nat × Nat} {row : OutboxRow}
      (new : ledger.outbox slot = none) (pending : row.appliedAt = none) :
      Moves ledger (.owed slot row) (ledger.addOwed slot row)
  | removed {ledger : Ledger} {gone : String → Bool} :
      Moves ledger (.removed gone) { ledger with
        observations := fun id => if gone id = true then none else ledger.observations id }
  | accessed {ledger : Ledger} {id : String} {count : UInt32} :
      Moves ledger (.accessed id count) { ledger with
        observations := fun other => if other = id then (ledger.observations other).map fun row =>
          { row with accessCount := row.accessCount + count } else ledger.observations other }
  | noted {ledger : Ledger} {note : Nat × Nat → OutboxRow → OutboxRow} (marks : Marks note) :
      Moves ledger (.noted note) { ledger with
        outbox := fun slot => (ledger.outbox slot).map (note slot) }

/-- A list of moves, one after another. -/
def Follows : Ledger → List Effect → Ledger → Prop
  | before, [], after => before = after
  | before, effect :: rest, after =>
    ∃ middle, Moves before effect middle ∧ Follows middle rest after

variable {before middle after : Ledger} {effects more : List Effect}

theorem Follows.append (first : Follows before effects middle)
    (second : Follows middle more after) : Follows before (effects ++ more) after := by
  induction effects generalizing before with
  | nil =>
    cases first
    exact second
  | cons effect rest ih =>
    obtain ⟨next, moved, first⟩ := first
    exact ⟨next, moved, ih first⟩

theorem Follows.single {effect : Effect} (moved : Moves before effect after) :
    Follows before [effect] after := ⟨after, moved, rfl⟩

/-- **The rule for moves.** What every move of the list preserves holds after
all of them. -/
theorem Follows.invariant {motive : Ledger → Prop} (follows : Follows before effects after)
    (start : motive before)
    (preserved : ∀ ledger effect next, effect ∈ effects → motive ledger →
      Moves ledger effect next → motive next) : motive after := by
  induction effects generalizing before with
  | nil =>
    cases follows
    exact start
  | cons effect rest ih =>
    obtain ⟨next, moved, follows⟩ := follows
    exact ih follows (preserved before effect next List.mem_cons_self start moved)
      fun ledger other next member => preserved ledger other next (List.mem_cons_of_mem _ member)

/-! ## What a move leaves -/

/-- A revision is never changed or removed. -/
theorem Moves.revisions {effect : Effect} {key : String} {revision : Revision}
    (moved : Moves before effect after) (held : before.revisions key = some revision) :
    after.revisions key = some revision := by
  have elsewhere : ∀ {new : String} {added : Revision}, before.revisions new = none →
      Function.update before.revisions new (some added) key = some revision := by
    intro new added absent
    rw [Function.update_of_ne]
    · exact held
    · rintro rfl
      rw [absent] at held
      cases held
  cases moved with
  | inserted => exact held
  | headed _ _ new _ => exact elsewhere new
  | revised _ _ new _ => exact elsewhere new
  | destroyed _ new _ => exact elsewhere new
  | owed => exact held
  | removed => exact held
  | accessed => exact held
  | noted => exact held

theorem Follows.revisions {key : String} {revision : Revision}
    (follows : Follows before effects after) (held : before.revisions key = some revision) :
    after.revisions key = some revision :=
  follows.invariant held fun _ _ _ _ held moved => moved.revisions held

/-- How a move changes the row of one observation. -/
inductive RowChange (id : String) (before after : Ledger) : Effect → Prop
  | kept {effect : Effect} (same : after.observations id = before.observations id) :
      RowChange id before after effect
  | inserted {row : ObservationRow} (absent : before.observations id = none) (fresh : Fresh row)
      (now : after.observations id = some row) : RowChange id before after (.inserted id row)
  | headed {row : ObservationRow} {key : String} {revision : Revision}
      (present : before.observations id = some row) (headless : row.currentRevisionId = none)
      (new : before.revisions key = none) (added : after.revisions key = some revision)
      (records : Records revision id row none)
      (now : after.observations id = some { row with currentRevisionId := some key }) :
      RowChange id before after (.headed id row key revision)
  | revised {row next : ObservationRow} {key : String} {revision : Revision}
      (present : before.observations id = some row) (advances : Advances row next key)
      (new : before.revisions key = none) (added : after.revisions key = some revision)
      (records : Records revision id next row.currentRevisionId)
      (now : after.observations id = some next) :
      RowChange id before after (.revised id row next key revision)
  | destroyed {row : ObservationRow} {key : String} {revision : Revision}
      (present : before.observations id = some row) (added : after.revisions key = some revision)
      (now : after.observations id = none) :
      RowChange id before after (.destroyed id row key revision)
  | removed {gone : String → Bool} (now : after.observations id = none) :
      RowChange id before after (.removed gone)
  | accessed {row : ObservationRow} {count : UInt32} (present : before.observations id = some row)
      (now : after.observations id = some { row with accessCount := row.accessCount + count }) :
      RowChange id before after (.accessed id count)

/-- **Inversion for one observation.** -/
theorem Moves.rowChange {effect : Effect} (moved : Moves before effect after) (id : String) :
    RowChange id before after effect := by
  have elsewhere : ∀ {other : String} {row : Option ObservationRow}, id ≠ other →
      Function.update before.observations other row id = before.observations id :=
    fun apart => Function.update_of_ne apart _ _
  cases moved with
  | @inserted other row absent fresh =>
    by_cases here : id = other
    · subst here
      exact .inserted absent fresh (Function.update_self ..)
    · exact .kept (elsewhere here)
  | @headed other key row revision present headless new records =>
    by_cases here : id = other
    · subst here
      exact .headed present headless new (Function.update_self ..) records (Function.update_self ..)
    · exact .kept (elsewhere here)
  | @revised other key row next revision present advances new records =>
    by_cases here : id = other
    · subst here
      exact .revised present advances new (Function.update_self ..) records
        (Function.update_self ..)
    · exact .kept (elsewhere here)
  | @destroyed other key row revision present new records =>
    by_cases here : id = other
    · subst here
      exact .destroyed present (Function.update_self ..) (Function.update_self ..)
    · exact .kept (elsewhere here)
  | owed => exact .kept rfl
  | @removed gone =>
    by_cases here : gone id = true
    · exact .removed (if_pos here)
    · exact .kept (if_neg here)
  | @accessed other count =>
    by_cases here : id = other
    · subst here
      cases present : before.observations id with
      | none => exact .kept (by simp [present])
      | some row => exact .accessed present (by simp [present])
    · exact .kept (if_neg here)
  | noted => exact .kept rfl

end Ledger

end OpenMemory.Graph
