import OpenMemory.Graph.Guarantees.RevisionIdentity
import OpenMemory.Graph.SearchSync

/-!
# Fast entries and repaired ones

The entries that a write inserts into the search index and those that a repair would insert
from the rows are two computations of one thing. They differ where a group was merged into
an entity of a similar name, since a write still indexes the name that it was given, and
where concepts or files are blank, repeated or out of order, since a write indexes them so.
-/

namespace OpenMemory.Graph

open Foundation OpenMemory.Index
open Merge (Blake3)
open Database

/-- **The fast path and the repair.** After a call of `remember` or `remember_batch` a repair
inserts an entry for each new observation, under the URI and with the vector of the entry that
the call inserted. The two are the same for all observations exactly where no group with
observations is merged into another entity and all lists of concepts and files are increasing
and without blanks. -/
theorem fast_entries_repaired_iff [Blake3] [PayloadCodec] [EntityMatching] (call : RememberCall)
    (db db' : Database) (draws : Draws) (remembered : Remembered)
    (done : call.run db draws = .ok (db', remembered)) :
    (∀ vectors, ∀ entry ∈ syncEntries (payloads remembered.groups) vectors, ∃ repaired,
      db'.RepairInserts repaired ∧ repaired.uri = entry.uri ∧ repaired.vector = entry.vector) ∧
    ((∀ vectors, ∀ entry ∈ syncEntries (payloads remembered.groups) vectors,
        db'.RepairInserts entry) ↔
      Unmerged draws call.normalize db 0 call.requests ∧
        ∀ request ∈ call.requests, ∀ input ∈ request.observations, ListsAsStored input) := by
  obtain ⟨held, agrees⟩ := RememberCall.run_held done
  refine ⟨fun vectors entry member => ?_, ?_⟩
  · obtain ⟨name, payload, vector, among, rfl⟩ := mem_syncEntries member
    obtain ⟨⟨row, entity, here⟩, owes⟩ := held _ among
    exact ⟨_, here.repaired owes vector, rfl, rfl⟩
  · rw [← agrees]
    constructor
    · intro all pair member
      exact (RememberCall.repairInserts_iff done member).mp (all [] _ (mem_syncEntries_nil member))
    · intro all vectors entry member
      obtain ⟨name, payload, vector, among, rfl⟩ := mem_syncEntries member
      exact (RememberCall.repairInserts_iff done among).mpr (all _ among)

/-! ## A hyphen -/

namespace Database.RepairedEntries

open AuditBounds RevisionIdentity Merge.Fixture

/-- Names that the source finds the same up to case and punctuation. -/
scoped instance hyphens : EntityMatching where
  enabled := true
  similarity left right :=
    if (left, right) ∈ [("open-memory", "OpenMemory"), ("OpenMemory", "open-memory")] then 1 else 0
  autoMergeThreshold := 19 / 20
  flagThreshold := 17 / 20
  maxCandidates := 64
  asWeight _ := .one

def described (name : String) (concepts : List String) : RememberRequest :=
  { RememberRequest.new name .project with
    observations := [{ ObservationInput.new "is written in Rust" with concepts }] }

abbrev named : RememberCall := .remember (described "OpenMemory" ["memory", "rust"])

abbrev hyphenated : RememberCall := .remember (described "open-memory" [])

def first : Database × Remembered := unwrap (named.run initial draws) (by decide)

def second : Database × Remembered := unwrap (hyphenated.run first.1 laterDraws) (by decide +kernel)

theorem first_done : named.run initial draws = .ok (first.1, first.2) :=
  @unwrap_eq _ _ _ (by decide)

theorem second_done : hyphenated.run first.1 laterDraws = .ok (second.1, second.2) :=
  @unwrap_eq _ _ _ (by decide +kernel)

end Database.RepairedEntries

open AuditBounds Merge.Fixture Database.RepairedEntries in
/-- The first of two writes about one project is indexed as it is stored. -/
theorem named_repaired : named.run initial draws = .ok RepairedEntries.first ∧
    ∀ entry ∈ syncEntries (payloads RepairedEntries.first.2.groups) [],
      RepairedEntries.first.1.RepairInserts entry :=
  ⟨first_done, (fast_entries_repaired_iff named initial _ draws _ first_done).2.mpr
    ⟨⟨fun _ => by decide, fun _ _ _ => trivial⟩, by decide⟩ []⟩

open AuditBounds RevisionIdentity Merge.Fixture Database.RepairedEntries in
/-- The second one is merged, and indexed under a name that no entity has. -/
theorem hyphenated_not_repaired : ¬ ∀ (call : RememberCall) (db db' : Database) (draws : Draws)
    (remembered : Remembered), call.run db draws = .ok (db', remembered) →
      ∀ vectors, ∀ entry ∈ syncEntries (payloads remembered.groups) vectors,
        db'.RepairInserts entry := by
  intro all
  have same : ∀ pair ∈ payloads RepairedEntries.second.2.groups,
      RepairedEntries.second.1.Agrees pair.1 pair.2 := fun pair member =>
    (RememberCall.repairInserts_iff second_done member).mp
      (all _ _ _ _ _ second_done [] _ (mem_syncEntries_nil member))
  have unmerged := ((RememberCall.run_held second_done).2.mp same).1.1 (List.cons_ne_nil _ _)
  exact absurd unmerged (by decide +kernel)

end OpenMemory.Graph
