import OpenMemory.Merge.Snapshot

/-!
# Streaming snapshot verification

A verifier follows the records of one source through three sections. Each
record must lie in the announced space and above its predecessor, each section
must have the announced length, and at the end the canonical hash of everything
seen must be the announced one. What a planner relies on is `Orderly`: the
addresses of a section are those of the header's space, strictly increasing.
-/

namespace OpenMemory.Merge

open Foundation Canonical

structure SnapshotVerifier where
  expected : SnapshotHeader
  hash : Option CanonicalHasher
  previous : Option ObjectAddress
  entities : Nat
  observations : Nat
  relations : Nat
  stage : Nat

namespace SnapshotVerifier

def new (header : SnapshotHeader) : MergeResult SnapshotVerifier := do
  refuseIf (header.formatVersion ≠ 1) ⟨.invalidInput, "unsupported snapshot format"⟩
  pure {
    expected := header
    hash := some ((CanonicalHasher.new "openmemory/space-snapshot/v1").absorb
      (u16 header.formatVersion ++ (idText header.snapshotId ++ (idText header.spaceId ++
        (encodeSpaceVersion header.spaceVersion ++ u64 header.entityCount)))))
    previous := none
    entities := 0
    observations := 0
    relations := 0
    stage := 1 }

def hashMut (verifier : SnapshotVerifier) : MergeResult CanonicalHasher :=
  orRefuse verifier.hash ⟨.protocolViolation, "snapshot verifier has already finished"⟩

def ensureRecord (verifier : SnapshotVerifier) (stage : Nat) (address : ObjectAddress) :
    MergeResult SnapshotVerifier := do
  refuseIf (verifier.stage ≠ stage) ⟨.protocolViolation, "snapshot record section is out of order"⟩
  refuseIf (address.space ≠ verifier.expected.spaceId)
    ⟨.invalidInput, "snapshot record belongs to another space"⟩
  refuseIf (∃ previous ∈ verifier.previous, previous ≥ address)
    ⟨.unsortedInput, "snapshot records are not strictly sorted and unique"⟩
  pure { verifier with previous := some address }

/-- What the three sections do with a record before they count it. -/
def absorbRecord (verifier : SnapshotVerifier) (stage : Nat) (address : ObjectAddress)
    (encoded : Bytes) : MergeResult SnapshotVerifier := do
  let verifier ← verifier.ensureRecord stage address
  let hasher ← verifier.hashMut
  pure { verifier with hash := some (hasher.absorb encoded) }

def entity (verifier : SnapshotVerifier) (record : EntityRecord) :
    MergeResult SnapshotVerifier := do
  let verifier ← verifier.absorbRecord 1 record.address (encodeEntity record)
  pure { verifier with entities := verifier.entities + 1 }

def observation (verifier : SnapshotVerifier) (record : ObservationRecord) :
    MergeResult SnapshotVerifier := do
  let verifier ← verifier.absorbRecord 2 record.address (encodeObservation record)
  pure { verifier with observations := verifier.observations + 1 }

def relation (verifier : SnapshotVerifier) (record : RelationRecord) :
    MergeResult SnapshotVerifier := do
  let verifier ← verifier.absorbRecord 3 record.address (encodeRelation record)
  pure { verifier with relations := verifier.relations + 1 }

/-- What follows a section once its length is checked: the next length is absorbed. -/
def nextSection (verifier : SnapshotVerifier) (nextCount : Nat) (stage : Nat) :
    MergeResult SnapshotVerifier := do
  let hasher ← verifier.hashMut
  pure { verifier with
    hash := some (hasher.absorb (u64 nextCount))
    previous := none
    stage := stage }

def endEntities (verifier : SnapshotVerifier) : MergeResult SnapshotVerifier := do
  refuseIf (verifier.stage ≠ 1 ∨ verifier.entities ≠ verifier.expected.entityCount)
    ⟨.snapshotMismatch, "snapshot entity count differs from its header"⟩
  verifier.nextSection verifier.expected.observationCount 2

def endObservations (verifier : SnapshotVerifier) : MergeResult SnapshotVerifier := do
  refuseIf (verifier.stage ≠ 2 ∨ verifier.observations ≠ verifier.expected.observationCount)
    ⟨.snapshotMismatch, "snapshot observation count differs from its header"⟩
  verifier.nextSection verifier.expected.relationCount 3

def finish [Blake3] (verifier : SnapshotVerifier) : MergeResult SnapshotVerifier := do
  refuseIf (verifier.stage ≠ 3 ∨ verifier.relations ≠ verifier.expected.relationCount)
    ⟨.snapshotMismatch, "snapshot relation count differs from its header"⟩
  let hasher ← verifier.hashMut
  refuseIf (hasher.finish .snapshot ≠ verifier.expected.hash)
    ⟨.snapshotMismatch, "snapshot canonical hash differs from its header"⟩
  pure { verifier with hash := none, stage := 4 }

/-! ## What a verifier has seen -/

/-- The addresses of one section: all of the announced space, strictly increasing. -/
structure Orderly (header : SnapshotHeader) (addresses : List ObjectAddress) : Prop where
  sorted : addresses.Pairwise (· < ·)
  here : ∀ address ∈ addresses, address.space = header.spaceId

/-- In its current section the verifier has seen these addresses. -/
structure Follows (verifier : SnapshotVerifier) (header : SnapshotHeader)
    (addresses : List ObjectAddress) : Prop where
  expected : verifier.expected = header
  previous : verifier.previous = addresses.getLast?
  orderly : Orderly header addresses

variable {verifier after : SnapshotVerifier} {header : SnapshotHeader}
  {addresses : List ObjectAddress}

/-- Addresses of one space are told apart by their local identifiers. -/
theorem Orderly.nodup_logicalIds (orderly : Orderly header addresses) :
    (addresses.map ObjectAddress.logicalId).Nodup := by
  rw [List.Nodup, List.pairwise_map]
  refine orderly.sorted.imp_of_mem ?_
  intro first last firstMember lastMember below
  have same := (orderly.here first firstMember).trans (orderly.here last lastMember).symm
  exact ne_of_lt ((ObjectAddress.lt_iff_of_space_eq same).mp below)

theorem orderly_nil : Orderly header [] := ⟨.nil, by simp⟩

theorem new_follows (started : new header = .ok verifier) : verifier.Follows header [] := by
  simp only [new, bind_eq_ok, refuseIf_eq_ok, pure_eq_ok] at started
  obtain ⟨_, _, rfl⟩ := started
  exact ⟨rfl, rfl, orderly_nil⟩

variable (follows : verifier.Follows header addresses)

include follows

theorem absorbRecord_follows {stage : Nat} {address : ObjectAddress} {encoded : Bytes}
    (accepted : verifier.absorbRecord stage address encoded = .ok after) :
    after.Follows header (addresses ++ [address]) := by
  simp only [absorbRecord, ensureRecord, bind_eq_ok, refuseIf_eq_ok, pure_eq_ok] at accepted
  obtain ⟨_, ⟨_, _, _, sameSpace, _, above, rfl⟩, _, _, rfl⟩ := accepted
  rw [not_not, follows.expected] at sameSpace
  refine ⟨follows.expected, by simp, ?_, ?_⟩
  · refine pairwise_lt_concat follows.orderly.sorted fun last isLast => ?_
    by_contra notBelow
    exact above ⟨last, follows.previous ▸ isLast, not_lt.mp notBelow⟩
  · exact forall_mem_concat follows.orderly.here sameSpace

theorem entity_follows {record : EntityRecord} (accepted : verifier.entity record = .ok after) :
    after.Follows header (addresses ++ [record.address]) := by
  simp only [entity, bind_eq_ok, pure_eq_ok] at accepted
  obtain ⟨middle, absorbed, rfl⟩ := accepted
  obtain ⟨expected, previous, orderly⟩ := absorbRecord_follows follows absorbed
  exact ⟨expected, previous, orderly⟩

theorem observation_follows {record : ObservationRecord}
    (accepted : verifier.observation record = .ok after) :
    after.Follows header (addresses ++ [record.address]) := by
  simp only [observation, bind_eq_ok, pure_eq_ok] at accepted
  obtain ⟨middle, absorbed, rfl⟩ := accepted
  obtain ⟨expected, previous, orderly⟩ := absorbRecord_follows follows absorbed
  exact ⟨expected, previous, orderly⟩

theorem relation_follows {record : RelationRecord}
    (accepted : verifier.relation record = .ok after) :
    after.Follows header (addresses ++ [record.address]) := by
  simp only [relation, bind_eq_ok, pure_eq_ok] at accepted
  obtain ⟨middle, absorbed, rfl⟩ := accepted
  obtain ⟨expected, previous, orderly⟩ := absorbRecord_follows follows absorbed
  exact ⟨expected, previous, orderly⟩

theorem nextSection_follows {nextCount stage : Nat}
    (next : verifier.nextSection nextCount stage = .ok after) : after.Follows header [] := by
  simp only [nextSection, bind_eq_ok, pure_eq_ok] at next
  obtain ⟨_, _, rfl⟩ := next
  exact ⟨follows.expected, rfl, orderly_nil⟩

theorem endEntities_follows
    (ended : verifier.endEntities = .ok after) : after.Follows header [] := by
  simp only [endEntities, bind_eq_ok] at ended
  obtain ⟨_, _, next⟩ := ended
  exact nextSection_follows follows next

theorem endObservations_follows
    (ended : verifier.endObservations = .ok after) : after.Follows header [] := by
  simp only [endObservations, bind_eq_ok] at ended
  obtain ⟨_, _, next⟩ := ended
  exact nextSection_follows follows next

end SnapshotVerifier

end OpenMemory.Merge
