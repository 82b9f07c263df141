import OpenMemory.Merge.Planner.Acceptance

/-!
# Canonical bytes

Every field of a canonical encoding ends where its bytes say, so that the values can be read
back from the bytes (`encodings_injective`). A snapshot is hashed in two ways: in one piece when
it is made, and record by record by a verifier that takes the counts from the header. Both hash
the same bytes, so a verifier accepts the records of the snapshot and, up to collisions of the
hash, no others (`verifies_own_records`).
-/

namespace OpenMemory.Merge

open Foundation Canonical

/-! ## Reading values back -/

theorem selfDelimiting_encodeDomain : SelfDelimiting encodeDomain := by
  intro left right _ _ xs ys same
  simp only [encodeDomain, List.append_assoc] at same
  obtain ⟨domain, same⟩ := selfDelimiting_u16 left.domain.toNat_lt right.domain.toNat_lt same
  obtain ⟨semantic, same⟩ := selfDelimiting_u64 left.semantic.toNat_lt right.semantic.toNat_lt same
  obtain ⟨indexed, same⟩ := selfDelimiting_u64 left.indexed.toNat_lt right.indexed.toNat_lt same
  obtain ⟨mirrored, same⟩ := selfDelimiting_u64 left.mirrored.toNat_lt right.mirrored.toNat_lt same
  refine ⟨?_, same⟩
  cases left
  cases right
  simp only [DomainGeneration.mk.injEq]
  exact ⟨UInt16.toNat_inj.mp domain, UInt64.toNat_inj.mp semantic, UInt64.toNat_inj.mp indexed,
    UInt64.toNat_inj.mp mirrored⟩

theorem encodeSpaceVersion_injective : Function.Injective encodeSpaceVersion := by
  rintro ⟨domains, hash, contiguous⟩ ⟨others, otherHash, otherContiguous⟩ same
  have bounded (length : Nat) (few : length ≤ 64) : length < 2 ^ 64 := by omega
  obtain ⟨rfl, hashes⟩ := selfDelimiting_counted selfDelimiting_encodeDomain
    ⟨bounded _ contiguous.2.1, fun _ _ => trivial⟩
    ⟨bounded _ otherContiguous.2.1, fun _ _ => trivial⟩ same
  obtain rfl : hash = otherHash := selfDelimiting_hash.injective trivial trivial hashes
  rfl

/-- **The canonical encodings are injective**: equal bytes come from equal values. -/
theorem encodings_injective :
    Function.Injective encodeEntity ∧ Function.Injective encodeObservation ∧
      Function.Injective encodeRelation ∧ Function.Injective encodeSpaceVersion ∧
        Function.Injective fun actions : List MergeAction => actions.flatMap encodeAction :=
  ⟨fun _ _ => selfDelimiting_encodeEntity.injective trivial trivial,
    fun _ _ => selfDelimiting_encodeObservation.injective trivial trivial,
    fun _ _ => selfDelimiting_encodeRelation.injective trivial trivial,
    encodeSpaceVersion_injective,
    fun _ _ => selfDelimiting_encodeAction.flatMap_injective encodeAction_ne_nil⟩

/-! ## Feeding a verifier -/

section Verifier

variable [Blake3] {header : SnapshotHeader} {entities : List EntityRecord}
  {observations : List ObservationRecord} {relations : List RelationRecord}

/-- Three streams of records go through a verifier. -/
def verifyStreams (header : SnapshotHeader) (entities : List EntityRecord)
    (observations : List ObservationRecord) (relations : List RelationRecord) :
    MergeResult SnapshotVerifier := do
  let verifier ← SnapshotVerifier.new header
  let verifier ← entities.foldlM SnapshotVerifier.entity verifier
  let verifier ← verifier.endEntities
  let verifier ← observations.foldlM SnapshotVerifier.observation verifier
  let verifier ← verifier.endObservations
  let verifier ← relations.foldlM SnapshotVerifier.relation verifier
  verifier.finish

/-- The hasher of a verifier that has seen three streams. -/
def streamHasher (header : SnapshotHeader) (entities : List EntityRecord)
    (observations : List ObservationRecord) (relations : List RelationRecord) : CanonicalHasher :=
  (CanonicalHasher.new "openmemory/space-snapshot/v1").absorb
    (u16 header.formatVersion ++ (idText header.snapshotId ++ (idText header.spaceId ++
      (encodeSpaceVersion header.spaceVersion ++ (u64 header.entityCount ++
        (entities.flatMap encodeEntity ++ (u64 header.observationCount ++
          (observations.flatMap encodeObservation ++ (u64 header.relationCount ++
            relations.flatMap encodeRelation)))))))))

omit [Blake3] in
theorem absorbRecord_ok {verifier after : SnapshotVerifier} {stage : Nat}
    {address : ObjectAddress} {encoded : Bytes}
    (accepted : verifier.absorbRecord stage address encoded = .ok after) :
    ∃ hasher, verifier.hash = some hasher ∧
      after = { verifier with previous := some address, hash := some (hasher.absorb encoded) } := by
  simp only [SnapshotVerifier.absorbRecord, SnapshotVerifier.ensureRecord, bind_eq_ok,
    pure_eq_ok] at accepted
  obtain ⟨_, ⟨_, _, _, _, _, _, rfl⟩, hasher, held, rfl⟩ := accepted
  exact ⟨hasher, orRefuse_eq_ok.mp held, rfl⟩

omit [Blake3] in
/-- A section absorbs its records one after the other and counts them. -/
theorem absorbed_of_run {R K : Type} {encode : R → Bytes} {address : R → ObjectAddress}
    {stage : Nat} {bump : SnapshotVerifier → SnapshotVerifier} {records : List R}
    {start final : SnapshotVerifier} {hasher : CanonicalHasher} (count : SnapshotVerifier → Nat)
    (kept : SnapshotVerifier → K) (counts : ∀ verifier previous hash,
      kept (bump { verifier with previous := previous, hash := hash }) = kept verifier ∧
        count (bump { verifier with previous := previous, hash := hash }) = count verifier + 1 ∧
          (bump { verifier with previous := previous, hash := hash }).hash = hash)
    (begun : start.hash = some hasher)
    (run : records.foldlM (fun verifier record => do
      let verifier ← verifier.absorbRecord stage (address record) (encode record)
      pure (bump verifier)) start = .ok final) :
    kept final = kept start ∧ count final = count start + records.length ∧
      final.hash = some (hasher.absorb (records.flatMap encode)) := by
  refine foldlM_prefix_induction (motive := fun seen verifier => kept verifier = kept start ∧
    count verifier = count start + seen.length ∧
      verifier.hash = some (hasher.absorb (seen.flatMap encode))) ?_ ?_ run
  · exact ⟨rfl, rfl, by simpa [CanonicalHasher.absorb] using begun⟩
  · rintro seen record before after ⟨same, counted, hashed⟩ accepted
    obtain ⟨_, absorbed, made⟩ := bind_eq_ok.mp accepted
    obtain ⟨earlier, found, rfl⟩ := absorbRecord_ok absorbed
    obtain rfl := pure_eq_ok.mp made
    obtain rfl := Option.some.inj (hashed.symm.trans found)
    obtain ⟨keeps, one, hash⟩ := counts before (some (address record))
      (some ((hasher.absorb (seen.flatMap encode)).absorb (encode record)))
    refine ⟨keeps.trans same, by rw [one, counted, List.length_append]; rfl, ?_⟩
    rw [hash, CanonicalHasher.absorb_absorb, List.flatMap_append, List.flatMap_singleton]

/-- What was accepted has the announced counts and the announced hash. -/
theorem streams_of_accepted {final : SnapshotVerifier}
    (accepted : verifyStreams header entities observations relations = .ok final) :
    entities.length = header.entityCount ∧ observations.length = header.observationCount ∧
      relations.length = header.relationCount ∧
        (streamHasher header entities observations relations).finish .snapshot = header.hash := by
  simp only [verifyStreams, SnapshotVerifier.new, SnapshotVerifier.endEntities,
    SnapshotVerifier.endObservations, SnapshotVerifier.nextSection, SnapshotVerifier.finish,
    SnapshotVerifier.hashMut, bind_eq_ok, pure_eq_ok, refuseIf_eq_ok, orRefuse_eq_ok, not_or,
    not_not] at accepted
  obtain ⟨_, ⟨_, _, rfl⟩, first, entityRun, _, ⟨_, ⟨_, entityCount⟩, _, firstHash, rfl⟩, second,
    observationRun, _, ⟨_, ⟨_, observationCount⟩, _, secondHash, rfl⟩, third, relationRun,
    _, ⟨_, relationCount⟩, _, thirdHash, _, finished, _⟩ := accepted
  obtain ⟨kept, entitiesSeen, hashed⟩ := absorbed_of_run SnapshotVerifier.entities
    (fun verifier => (verifier.expected, verifier.observations, verifier.relations))
    (fun _ _ _ => ⟨rfl, rfl, rfl⟩) rfl entityRun
  simp only [Prod.mk.injEq] at kept
  obtain ⟨expected, noObservations, noRelations⟩ := kept
  obtain rfl := Option.some.inj (hashed.symm.trans firstHash)
  obtain ⟨keptNext, observationsSeen, hashedNext⟩ := absorbed_of_run SnapshotVerifier.observations
    (fun verifier => (verifier.expected, verifier.relations))
    (fun _ _ _ => ⟨rfl, rfl, rfl⟩) rfl observationRun
  simp only [Prod.mk.injEq] at keptNext
  obtain ⟨expectedNext, noneYet⟩ := keptNext
  obtain rfl := Option.some.inj (hashedNext.symm.trans secondHash)
  obtain ⟨keptLast, relationsSeen, hashedLast⟩ := absorbed_of_run SnapshotVerifier.relations
    SnapshotVerifier.expected (fun _ _ _ => ⟨rfl, rfl, rfl⟩) rfl relationRun
  obtain rfl := Option.some.inj (hashedLast.symm.trans thirdHash)
  simp only [expected, expectedNext, keptLast, noObservations, noneYet, noRelations,
    Nat.zero_add] at *
  refine ⟨entitiesSeen.symm.trans entityCount, observationsSeen.symm.trans observationCount,
    relationsSeen.symm.trans relationCount, ?_⟩
  rw [← finished, streamHasher]
  simp only [CanonicalHasher.absorb_absorb, List.append_assoc]

/-! ## The records of a snapshot -/

variable (snapshot : MemorySnapshot)

/-- The verifier that has seen everything and these relations. -/
def MemorySnapshot.afterRelations (seen : List RelationRecord) : SnapshotVerifier :=
  { snapshot.beforeRelations with
    hash := some (streamHasher snapshot.header snapshot.entities snapshot.observations seen)
    previous := (seen.map RelationRecord.address).getLast?
    relations := seen.length }

/-- The hash in the header is that of the streams. -/
theorem MemorySnapshot.hash_eq : (streamHasher snapshot.header snapshot.entities
    snapshot.observations snapshot.relations).finish .snapshot = snapshot.header.hash := by
  have hashed := congrArg Prod.fst snapshot.hashed
  have fits (n : Nat) (bounded : n ≤ maxSnapshotRecords) : lengthBytes n = u64 n := by
    rw [lengthBytes, u64, Nat.min_eq_left (bounded.trans (by decide))]
  refine Eq.trans ?_ hashed.symm
  rw [computeSnapshotHash, streamHasher]
  simp only [counted, fits _ snapshot.formed.entities_bounded,
    fits _ snapshot.formed.observations_bounded, fits _ snapshot.formed.relations_bounded,
    snapshot.format, snapshot.entity_count, snapshot.observation_count, snapshot.relation_count,
    List.append_assoc]

theorem MemorySnapshot.relation_seen {seen rest : List RelationRecord} {record : RelationRecord}
    (split : seen ++ record :: rest = snapshot.relations) :
    (snapshot.afterRelations seen).relation record =
      .ok (snapshot.afterRelations (seen ++ [record])) := by
  have here := snapshot.formed.relations_here record.address (List.mem_map_of_mem (split ▸ by simp))
  have absorbed : (snapshot.afterRelations seen).absorbRecord 3 record.address
      (encodeRelation record) = .ok _ := SnapshotVerifier.absorbRecord_eq ⟨rfl, here⟩
        (not_above snapshot.formed.relations_sorted split) rfl
  rw [SnapshotVerifier.relation, absorbed]
  simp [afterRelations, streamHasher, CanonicalHasher.absorb_absorb, bind, Except.bind, pure,
    Except.pure]

/-- **A verifier accepts the records of a snapshot.** -/
theorem MemorySnapshot.accepted : ∃ final, verifyStreams snapshot.header snapshot.entities
    snapshot.observations snapshot.relations = .ok final := by
  obtain ⟨_, entityRun, rfl⟩ := foldlM_reaches SnapshotVerifier.entity snapshot.entities
    (snapshot.afterEntities []) (motive := fun seen verifier => verifier =
      snapshot.afterEntities seen) rfl fun seen record rest before split same =>
        ⟨_, same ▸ snapshot.entity_seen split, rfl⟩
  obtain ⟨_, observationRun, rfl⟩ := foldlM_reaches SnapshotVerifier.observation
    snapshot.observations (snapshot.afterObservations []) (motive := fun seen verifier =>
      verifier = snapshot.afterObservations seen) rfl fun seen record rest before split same =>
        ⟨_, same ▸ snapshot.observation_seen split, rfl⟩
  obtain ⟨_, relationRun, rfl⟩ := foldlM_reaches SnapshotVerifier.relation
    snapshot.relations (snapshot.afterRelations []) (motive := fun seen verifier =>
      verifier = snapshot.afterRelations seen) rfl fun seen record rest before split same =>
        ⟨_, same ▸ snapshot.relation_seen split, rfl⟩
  have begun : snapshot.beforeRelations = snapshot.afterRelations [] := by
    simp [MemorySnapshot.afterRelations, MemorySnapshot.beforeRelations, streamHasher,
      MemorySnapshot.started, CanonicalHasher.absorb_absorb, snapshot.format]
  have finished : ∃ final, (snapshot.afterRelations snapshot.relations).finish = .ok final := by
    rw [SnapshotVerifier.finish, refuseIf_neg (by
      simp [MemorySnapshot.afterRelations, MemorySnapshot.beforeRelations, snapshot.relation_count])]
    simp [MemorySnapshot.afterRelations, MemorySnapshot.beforeRelations,
      SnapshotVerifier.hashMut, orRefuse, bind, Except.bind, refuseIf, snapshot.hash_eq, pure,
      Except.pure]
  obtain ⟨final, finished⟩ := finished
  refine ⟨final, ?_⟩
  simp only [verifyStreams, bind_eq_ok]
  exact ⟨_, snapshot.verifier_started, _, entityRun, _, snapshot.entities_ended, _,
    observationRun, _, snapshot.observations_ended, _, begun ▸ relationRun, finished⟩

variable {snapshot}

/-- Streams with the counts and the bytes of a snapshot are its records. -/
theorem streams_eq_of_bytes (counts : entities.length = snapshot.header.entityCount ∧
      observations.length = snapshot.header.observationCount ∧
        relations.length = snapshot.header.relationCount)
    (same : streamHasher snapshot.header entities observations relations =
      streamHasher snapshot.header snapshot.entities snapshot.observations snapshot.relations) :
    entities = snapshot.entities ∧ observations = snapshot.observations ∧
      relations = snapshot.relations := by
  simp only [streamHasher, CanonicalHasher.absorb, CanonicalHasher.mk.injEq,
    List.append_cancel_left_eq] at same
  have all {R : Type} (records : List R) : ∀ record ∈ records, True := fun _ _ => trivial
  obtain ⟨rfl, rest⟩ := selfDelimiting_encodeEntity.flatMap (all _) (all _)
    (counts.1.trans snapshot.entity_count) same
  obtain ⟨rfl, last⟩ := selfDelimiting_encodeObservation.flatMap (all _) (all _)
    (counts.2.1.trans snapshot.observation_count) (List.append_cancel_left rest)
  obtain ⟨rfl, _⟩ := selfDelimiting_encodeRelation.flatMap (all _) (all _)
    (counts.2.2.trans snapshot.relation_count)
    (congrArg (· ++ []) (List.append_cancel_left last))
  exact ⟨rfl, rfl, rfl⟩

/-- **Verification agrees with construction**: a verifier accepts the records of a snapshot,
and any streams that it accepts under the same header are these records, unless the hash
collides. -/
theorem verifies_own_records (snapshot : MemorySnapshot) :
    (∃ final, verifyStreams snapshot.header snapshot.entities snapshot.observations
      snapshot.relations = .ok final) ∧
    ∀ entities observations relations final,
      verifyStreams snapshot.header entities observations relations = .ok final →
      CollisionFree {(streamHasher snapshot.header entities observations relations).absorbed,
        (streamHasher snapshot.header snapshot.entities snapshot.observations
          snapshot.relations).absorbed} →
      entities = snapshot.entities ∧ observations = snapshot.observations ∧
        relations = snapshot.relations := by
  refine ⟨snapshot.accepted, fun entities observations relations final accepted free => ?_⟩
  obtain ⟨entityCount, observationCount, relationCount, hash⟩ := streams_of_accepted accepted
  refine streams_eq_of_bytes ⟨entityCount, observationCount, relationCount⟩ ?_
  have digests := congrArg TypedHash.digest (hash.trans snapshot.hash_eq.symm)
  have bytes := free (by simp) (by simp) digests
  exact congrArg CanonicalHasher.mk bytes

end Verifier

end OpenMemory.Merge
