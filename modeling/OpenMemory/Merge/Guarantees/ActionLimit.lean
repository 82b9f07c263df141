import OpenMemory.Merge.Guarantees.Closure

/-!
# The limit on the actions of a plan

A plan may have three million actions, and a sink in memory may be made to hold as
many. Every record yields one action, so a pair of snapshots that is acceptable but
for the number of its records should be refused for that number exactly when there
are more of them than the limit.

The counts are brought up to date before they are compared, and reaching the limit is
refused. So exactly three million records are refused as well, although a sink could
hold their actions; for every other number the limit is what it says.
-/

namespace OpenMemory.Merge

open Foundation

variable {capacity : Nat} {request : MergeRequest}

section Limits

variable [Blake3] {σ : Type}

/-! ## What the limit should be -/

/-- A sink that accepts every call. -/
structure ActionSink.AcceptsAll (sink : ActionSink σ) : Prop where
  begins : ∀ preamble s, ∃ s', (sink.begin preamble).run s = (.ok (), s')
  emits : ∀ action s, ∃ s', (sink.emit action).run s = (.ok (), s')
  finishes : ∀ plan s, ∃ s', (sink.finish plan).run s = (.ok (), s')

/-- Nothing is wrong with a request, whatever the number of its records. -/
def MergeRequest.Acceptable (request : MergeRequest) : Prop :=
  ∃ surveyed, request.survey = .ok surveyed

def BoundExceeded {α : Type} (result : MergeResult α) : Prop :=
  ∃ error, result = .error error ∧ error.code = .boundExceeded

/-- The limit on actions is exact, for a request and a sink. -/
structure LimitExact (request : MergeRequest) (sink : ActionSink σ) (s : σ) : Prop where
  /-- A run is refused for its bound exactly where there are more records than the limit. -/
  refused : BoundExceeded ((request.run sink).run s).1 ↔ maxActions < request.recordCount
  /-- A sink may be made for as many actions. -/
  admits : ∀ capacity, BoundExceeded (MemoryActionSink.new capacity) ↔
    capacity = 0 ∨ maxActions < capacity
  /-- A sink accepts a plan that is no longer than its capacity. -/
  holds : ∀ capacity memory, MemoryActionSink.new capacity = .ok memory → ∀ plan actions,
    request.Plans sink s plan actions → actions.length ≤ capacity →
      ((request.run MemoryActionSink.toActionSink).run memory).1 = .ok plan

omit [Blake3] in
theorem acceptingSink_accepts : acceptingSink.AcceptsAll :=
  ⟨fun _ _ => ⟨(), rfl⟩, fun _ _ => ⟨(), rfl⟩, fun _ _ => ⟨(), rfl⟩⟩

/-! ## Runs against sinks that accept -/

variable {sink : ActionSink σ}

omit [Blake3] in
theorem feed_of_accepts (accepts : sink.AcceptsAll)
    (actions : List MergeAction) (s : σ) : ∃ s', (feed sink.emit actions).run s = (.ok (), s') := by
  induction actions generalizing s with
  | nil => exact ⟨s, rfl⟩
  | cons action rest ih =>
    obtain ⟨middle, accepted⟩ := accepts.emits action s
    obtain ⟨last, fed⟩ := ih middle
    exact ⟨last, (Effect.bind_ok accepted).trans fed⟩

/-- A run whose calls are accepted comes to what its script does. -/
theorem run_of_calls {request : MergeRequest} {sink : ActionSink σ} {s begun fed : σ}
    (valid : validateHeaders request.target.header request.source.header = .ok ())
    (begins : (sink.begin request.preamble).run s = (.ok (), begun))
    (emits : (feed sink.emit request.script.emitted).run begun = (.ok (), fed))
    (finishes : ∀ plan, request.script.result = .ok plan →
      ∃ last, (sink.finish plan).run fed = (.ok (), last)) :
    ((request.run sink).run s).1 = request.script.result := by
  rw [MergeRequest.run_of_valid sink valid, Effect.bind_ok begins, concludeWith, Script.replay]
  dsimp only
  rw [Effect.bind_ok emits, Effect.lift_run]
  cases result : request.script.result with
  | error error => rfl
  | ok plan =>
    obtain ⟨last, finished⟩ := finishes plan result
    dsimp only
    rw [finished]

theorem run_of_accepts (accepts : sink.AcceptsAll)
    (valid : validateHeaders request.target.header request.source.header = .ok ()) (s : σ) :
    ((request.run sink).run s).1 = request.script.result := by
  obtain ⟨begun, begins⟩ := accepts.begins request.preamble s
  obtain ⟨fed, emits⟩ := feed_of_accepts accepts request.script.emitted begun
  exact run_of_calls valid begins emits fun plan _ => accepts.finishes plan fed

omit [Blake3] in
/-- A sink takes as many actions as it has room for. -/
theorem feed_of_room {actions : List MergeAction} {sink : MemoryActionSink}
    (begun : sink.state = .begun) (room : sink.actions.length + actions.length ≤ sink.capacity) :
    (feed MemoryActionSink.emit actions).run sink =
      (.ok (), { sink with actions := sink.actions ++ actions }) := by
  induction actions generalizing sink with
  | nil => simp [feed]
  | cons action rest ih =>
    rw [List.length_cons] at room
    have accepted : (MemoryActionSink.emit action).run sink =
        (.ok (), { sink with actions := sink.actions ++ [action] }) := by
      simp only [MemoryActionSink.emit, begun, ne_eq, not_true_eq_false, if_false]
      rw [if_neg (by omega)]
    rw [feed, Effect.bind_ok accepted, @ih { sink with actions := sink.actions ++ [action] } begun
      (by simp only [List.length_append, List.length_singleton]; omega)]
    simp

omit [Blake3] in
theorem finish_of_begun {plan : MergePlan} {sink : MemoryActionSink} (begun : sink.state = .begun)
    (same : sink.preamble = some plan.preamble) :
    ∃ last, (MemoryActionSink.finish plan).run sink = (.ok (), last) :=
  ⟨{ sink with plan := some plan, state := .finished }, by simp [MemoryActionSink.finish, begun, same]⟩

omit [Blake3] in
theorem new_eq_ok {sink : MemoryActionSink} : MemoryActionSink.new capacity = .ok sink ↔
      (capacity ≠ 0 ∧ capacity ≤ maxActions) ∧ sink = ⟨capacity, .idle, none, [], none⟩ := by
  unfold MemoryActionSink.new
  split
  next out => exact ⟨fun failed => (nomatch failed), fun within => by omega⟩
  next within =>
    rw [Except.ok.injEq, eq_comm]
    exact ⟨fun same => ⟨by omega, same⟩, fun both => both.2⟩

omit [Blake3] in
theorem new_bound :
    BoundExceeded (MemoryActionSink.new capacity) ↔ capacity = 0 ∨ maxActions < capacity := by
  unfold MemoryActionSink.new
  split
  next out => exact iff_of_true ⟨_, rfl, rfl⟩ out
  next within =>
    refine iff_of_false ?_ within
    rintro ⟨error, failed, _⟩
    cases failed

/-- A plan is accepted by every sink in memory that has room for its actions. -/
theorem holds_of_room {s : σ} {plan : MergePlan}
    {actions : List MergeAction} (plans : request.Plans sink s plan actions)
    {memory : MemoryActionSink} (made : MemoryActionSink.new capacity = .ok memory)
    (room : actions.length ≤ capacity) :
    ((request.run MemoryActionSink.toActionSink).run memory).1 = .ok plan := by
  obtain ⟨valid, planned, emitted⟩ := plans.script
  obtain ⟨_, _, _, summary⟩ := plans.outcome
  obtain ⟨_, rfl⟩ := new_eq_ok.mp made
  rw [← planned]
  refine @run_of_calls _ _ request MemoryActionSink.toActionSink _ _ _ valid rfl
    (feed_of_room rfl (by rw [emitted]; exact (Nat.zero_add _).trans_le room)) ?_
  intro other same
  rw [planned] at same
  cases same
  exact finish_of_begun rfl (congrArg some summary.preamble.symm)

/-! ## When the limit is exact -/

theorem bound_exceeded_iff (accepts : sink.AcceptsAll) (s : σ) (acceptable : request.Acceptable) :
    BoundExceeded ((request.run sink).run s).1 ↔ maxActions ≤ request.recordCount := by
  obtain ⟨⟨counts, actions⟩, surveyed⟩ := acceptable
  obtain ⟨_, below, reached⟩ := MergeRequest.survey_within surveyed
  rw [run_of_accepts accepts (MergeRequest.headers_of_survey surveyed)]
  constructor
  · rintro ⟨error, failed, _⟩
    by_contra few
    obtain ⟨plan, kept, made, _⟩ := below (not_le.mp few)
    rw [(Prod.mk.inj made).1] at failed
    cases failed
  · intro many
    exact ⟨limitError, reached many, rfl⟩

/-- The limit is exact unless there are as many records as the limit. -/
theorem limit_exact_iff {request : MergeRequest} {sink : ActionSink σ}
    (accepts : sink.AcceptsAll) (s : σ) (acceptable : request.Acceptable) :
    LimitExact request sink s ↔ request.recordCount ≠ maxActions := by
  have bound := bound_exceeded_iff accepts s acceptable
  constructor
  · intro exact_ same
    exact (exact_.refused.mp (bound.mpr same.ge)).ne' same
  · intro other
    exact
      { refused := bound.trans ⟨fun many => lt_of_le_of_ne many other.symm, le_of_lt⟩
        admits := fun _ => new_bound
        holds := fun _ _ made _ _ plans room => holds_of_room plans made room }

/-! ## Large snapshots -/

/-- Records at distinct addresses of one space make a snapshot. -/
theorem MemorySnapshot.exists_of_distinct (snapshotId : SnapshotId) (space : SpaceId)
    (spaceVersion : SpaceVersion) {entities : List EntityRecord}
    {observations : List ObservationRecord}
    (bounded : entities.length ≤ maxSnapshotRecords ∧ observations.length ≤ maxSnapshotRecords)
    (distinct : (entities.map EntityRecord.address).Nodup ∧
      (observations.map ObservationRecord.address).Nodup)
    (here : (∀ record ∈ entities, record.address.space = space) ∧
      ∀ record ∈ observations, record.address.space = space)
    (present : ∀ record ∈ observations, record.entity ∈ entities.map EntityRecord.address) :
    ∃ snapshot : MemorySnapshot, snapshot.header.snapshotId = snapshotId ∧
      snapshot.header.spaceId = space ∧ snapshot.entities.Perm entities ∧
        snapshot.observations.Perm observations ∧ snapshot.relations = [] := by
  have entityPerm := sortByAddress_perm EntityRecord.address entities
  have observationPerm := sortByAddress_perm ObservationRecord.address observations
  refine ⟨{
    header := ⟨1, snapshotId, space, spaceVersion, _, _, 0, (computeSnapshotHash snapshotId space
      spaceVersion (sortByAddress EntityRecord.address entities)
        (sortByAddress ObservationRecord.address observations) []).1⟩
    entities := sortByAddress EntityRecord.address entities
    observations := sortByAddress ObservationRecord.address observations
    relations := []
    canonicalBytes := _
    format := rfl
    entity_count := rfl
    observation_count := rfl
    relation_count := rfl
    hashed := rfl
    formed := {
      entities_bounded := entityPerm.length_eq.trans_le bounded.1
      observations_bounded := observationPerm.length_eq.trans_le bounded.2
      relations_bounded := Nat.zero_le _
      entities_sorted := sortByAddress_strict distinct.1
      observations_sorted := sortByAddress_strict distinct.2
      relations_sorted := List.Pairwise.nil
      entities_here := ?_
      observations_here := ?_
      relations_here := by simp
      entity_present := ?_
      endpoints_present := by simp } }, rfl, rfl, entityPerm, observationPerm, rfl⟩
  · intro address member
    obtain ⟨record, held, rfl⟩ := List.mem_map.mp member
    exact here.1 record (entityPerm.mem_iff.mp held)
  · intro address member
    obtain ⟨record, held, rfl⟩ := List.mem_map.mp member
    exact here.2 record (observationPerm.mem_iff.mp held)
  · intro record member
    exact (entityPerm.map EntityRecord.address).mem_iff.mpr
      (present record (observationPerm.mem_iff.mp member))

end Limits

/-- The text of one character above the basic plane. -/
def numbered (n : Fin 1000000) : String := String.singleton (Char.ofNat (0x10000 + n.val))

theorem toNat_numbered (n : Fin 1000000) :
    (Char.ofNat (0x10000 + n.val)).toNat = 0x10000 + n.val := by
  rw [Char.toNat_ofNat, if_pos]
  exact Or.inr ⟨by omega, by omega⟩

theorem numbered_injective : Function.Injective numbered := by
  intro left right same
  have chars := congrArg String.toList same
  simp only [numbered, String.toList_singleton, List.cons.injEq, and_true] at chars
  have values := congrArg Char.toNat chars
  rw [toNat_numbered, toNat_numbered] at values
  exact Fin.ext (by omega)

/-- Every such text is an identifier. -/
theorem numbered_valid (n : Fin 1000000) : isLogicalId (numbered n) = true := by
  have value := toNat_numbered n
  have chars : (numbered n).toList = [Char.ofNat (0x10000 + n.val)] := String.toList_singleton _
  have size : (numbered n).utf8ByteSize ≤ 4 := by
    rw [numbered, String.utf8ByteSize_singleton]
    exact Char.utf8Size_le_four _
  have outside : usesReservedNamespace (numbered n) = false := by
    rw [Bool.eq_false_iff]
    intro reserved
    have fits := (List.isPrefixOf_iff_prefix.mp reserved).length_le
    rw [utf8_length, utf8_length] at fits
    exact absurd (fits.trans size) (by decide)
  have solid : isWhitespace (Char.ofNat (0x10000 + n.val)) = false := by
    simp [isWhitespace, value]
    omega
  have shown : isControl (Char.ofNat (0x10000 + n.val)) = false := by
    simp [isControl, value]
    omega
  have kept : trim (numbered n) = numbered n := by
    rw [trim, chars]
    simp [solid, numbered]
  have some_ : numbered n ≠ "" := by
    intro empty
    rw [empty] at chars
    cases chars
  rw [isLogicalId, outside]
  simp [validToken, chars, shown, kept, some_]
  exact size.trans (by decide)

section Examples

open Fixture

def numberedAddress (space : SpaceId) (n : Fin 1000000) : ObjectAddress :=
  ⟨space, ⟨numbered n, numbered_valid n⟩⟩

theorem numberedAddress_injective (space : SpaceId) : Function.Injective (numberedAddress space) :=
  fun _ _ same => numbered_injective (congrArg (fun address => address.logicalId.value) same)

/-- A person, and others with numbers for names. -/
def manyPeople (count : Nat) (fits : count ≤ 1000000) : List EntityRecord :=
  plainAda :: (List.finRange count).map fun n =>
    { plainAda with address := numberedAddress (space 1) (n.castLE fits) }

def oneNote : ObservationRecord :=
  unwrap (observation (space 1) "note" "ada" 50 "plays chess") (by decide)

/-- Notes with one content about one entity. -/
def manyNotes (subject : EntityAddress) (count : Nat) (fits : count ≤ 1000000) :
    List ObservationRecord :=
  (List.finRange count).map fun n =>
    { oneNote with
      address := numberedAddress subject.space (n.castLE fits)
      entity := subject }

variable {count : Nat} {fits : count ≤ 1000000} {subject : EntityAddress}

theorem manyPeople_distinct : ((manyPeople count fits).map EntityRecord.address).Nodup := by
  rw [manyPeople, List.map_cons, List.map_map]
  refine List.nodup_cons.mpr ⟨?_, ?_⟩
  · intro member
    obtain ⟨n, _, same⟩ := List.mem_map.mp member
    have three : plainAda.address.logicalId.value.toList.length = 3 := by decide
    rw [← same] at three
    simp [numberedAddress, numbered] at three
  · refine (List.nodup_finRange _).map fun left right same => ?_
    exact Fin.castLE_injective _ (numberedAddress_injective _ same)

theorem manyPeople_here {record : EntityRecord} (member : record ∈ manyPeople count fits) :
    record.address.space = space 1 := by
  rcases List.mem_cons.mp member with rfl | numbered
  · rfl
  · obtain ⟨n, _, rfl⟩ := List.mem_map.mp numbered
    rfl

theorem plainAda_mem : plainAda ∈ manyPeople count fits := List.mem_cons_self

theorem length_manyPeople : (manyPeople count fits).length = count + 1 := by simp [manyPeople]

theorem length_manyNotes : (manyNotes subject count fits).length = count := by simp [manyNotes]

theorem manyNotes_distinct :
    ((manyNotes subject count fits).map ObservationRecord.address).Nodup := by
  rw [manyNotes, List.map_map]
  refine (List.nodup_finRange _).map fun left right same => ?_
  exact Fin.castLE_injective _ (numberedAddress_injective _ same)

theorem mem_manyNotes {note : ObservationRecord} (member : note ∈ manyNotes subject count fits) :
    note.address.space = subject.space ∧ note.entity = subject ∧
      note.lifecycle = oneNote.lifecycle ∧ note.content = oneNote.content := by
  obtain ⟨n, _, rfl⟩ := List.mem_map.mp member
  exact ⟨rfl, rfl, rfl, rfl⟩

theorem exists_note (some_ : 0 < count) : ∃ note, note ∈ manyNotes subject count fits :=
  List.exists_mem_of_length_pos (length_manyNotes.symm ▸ some_)

theorem lonely_acceptable {target source : MemorySnapshot}
    (ids : target.header.snapshotId = snapshotId 20 ∧ source.header.snapshotId = snapshotId 21)
    (spaces : target.header.spaceId = space 1 ∧ source.header.spaceId = space 2)
    (member : plainAda ∈ target.entities) (only : source.entities = [otherAda])
    (unrelated : target.relations = [] ∧ source.relations = [])
    (known : ∀ observation ∈ source.observations, ∃ earlier ∈ target.observations,
      earlier.entity.logicalId = plainAda.address.logicalId ∧
        earlier.lifecycle = observation.lifecycle ∧ earlier.content = observation.content) :
    (MergeRequest.mk target.toSource source.toSource lonelyReceipts sampleMergePolicy).Acceptable := by
  obtain ⟨receipt, consumed, prepared⟩ := lonely_prepared
  rw [← ids.1, ← ids.2] at prepared
  obtain ⟨counts, later, surveyed, _⟩ := surveys_pair member only unrelated known
    (by rw [spaces.1, spaces.2]; decide) prepared
  exact ⟨_, surveyed⟩

/-- Any number of people and notes, with one entity on the side of the source. -/
theorem exists_request {people kept others : Nat} (few : people < 1000000) (most : kept ≤ 1000000)
    (all : others ≤ 1000000) (some_ : 0 < kept) : ∃ request : MergeRequest,
      request.Acceptable ∧ request.recordCount = people + 1 + 1 + kept + others := by
  obtain ⟨target, targetId, targetSpace, entities, notes, targetRelations⟩ :=
    MemorySnapshot.exists_of_distinct (snapshotId 20) (space 1) (version 1)
      ⟨(@length_manyPeople _ few.le).trans_le few, length_manyNotes.trans_le most⟩
      ⟨manyPeople_distinct, manyNotes_distinct⟩
      ⟨fun _ member => manyPeople_here member, fun _ member => (mem_manyNotes member).1⟩
      fun note member => by
        rw [(@mem_manyNotes _ most plainAda.address _ member).2.1]
        exact List.mem_map_of_mem plainAda_mem
  obtain ⟨source, sourceId, sourceSpace, person, sourceNotes, sourceRelations⟩ :=
    MemorySnapshot.exists_of_distinct (snapshotId 21) (space 2) (version 2)
      ⟨by simp [maxSnapshotRecords], length_manyNotes.trans_le all⟩
      ⟨by simp, manyNotes_distinct⟩
      ⟨fun record member => List.mem_singleton.mp member ▸ rfl,
        fun _ member => (mem_manyNotes member).1⟩
      fun note member => by
        rw [(@mem_manyNotes _ all otherAda.address _ member).2.1]
        exact List.mem_singleton_self otherAda.address
  refine ⟨⟨target.toSource, source.toSource, lonelyReceipts, sampleMergePolicy⟩,
    lonely_acceptable ⟨targetId, sourceId⟩ ⟨targetSpace, sourceSpace⟩
      (entities.mem_iff.mpr plainAda_mem) (List.perm_singleton.mp person)
      ⟨targetRelations, sourceRelations⟩ fun note member => ?_, ?_⟩
  · have same := mem_manyNotes (sourceNotes.mem_iff.mp member)
    obtain ⟨first, held⟩ := @exists_note _ most plainAda.address some_
    have facts := mem_manyNotes held
    exact ⟨first, notes.mem_iff.mpr held, congrArg ObjectAddress.logicalId facts.2.1,
      facts.2.2.1.trans same.2.2.1.symm, facts.2.2.2.trans same.2.2.2.symm⟩
  · simp only [MergeRequest.recordCount, MemorySnapshot.toSource, targetRelations, sourceRelations,
      entities.length_eq, notes.length_eq, person.length_eq, sourceNotes.length_eq,
      length_manyPeople, length_manyNotes, List.length_singleton, List.length_nil, Nat.add_zero]

/-- With few records the limit is exact. -/
theorem few_exact : ∃ request, LimitExact request acceptingSink () := by
  obtain ⟨request, acceptable, count⟩ := @exists_request 0 1 0
    (by decide) (by decide) (by decide) (by decide)
  exact ⟨request, (limit_exact_iff acceptingSink_accepts () acceptable).mpr (by rw [count]; decide)⟩

/-- Three million records that are all acceptable are refused for their number. -/
theorem full_refused : ∃ request : MergeRequest, request.Acceptable ∧
    request.recordCount = maxActions ∧ ¬ LimitExact request acceptingSink () := by
  obtain ⟨request, acceptable, count⟩ := @exists_request 999998 1000000 1000000
    (by decide) (by decide) (by decide) (by decide)
  have full : request.recordCount = maxActions := count
  refine ⟨request, acceptable, full, fun exact_ => ?_⟩
  have refused := (bound_exceeded_iff acceptingSink_accepts () acceptable).mpr full.ge
  exact (exact_.refused.mp refused).ne' full

end Examples

end OpenMemory.Merge
