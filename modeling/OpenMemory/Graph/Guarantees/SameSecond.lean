import OpenMemory.Graph.Guarantees.BulkRetirement

/-!
# Mutations in the same second

A front end of old changes the tier of an observation, or forgets one, under a key
made of the observation's id and the current second. A second call in that second
finds the key used: it is refused, or, if it happens to ask for what was asked
before, is told that it succeeded.

So in a run of calls, whatever the clock does, a call about an active observation
has its effect exactly when its request fits a change set and its key is not used,
or is used by an equal request for the tier that the observation has already.
-/

namespace OpenMemory.Graph

open Foundation
open Merge (Blake3)

/-- An observation that is active and not deleted. -/
def ObservationRow.IsActive (row : ObservationRow) : Prop :=
  row.tombstoned = false ∧ row.lifecycle = .active

namespace Database

/-! ## Drafts of mutations -/

/-- What a change of tier asks of an observation. -/
structure TierFits [PayloadCodec] (id : String) (row : ObservationRow) (tier : MemoryTier)
    (now : Int64) : Prop where
  named : blank id = false ∧ Fits id maxTextBytes
  key : (tierKey id now).utf8ByteSize ≤ maxIdempotencyBytes
  payload : (payloadText [tierOperation id row tier]).utf8ByteSize ≤ defaultMaxPayloadBytes
  entityId : blank row.semantic.entityId = false ∧ Fits row.semantic.entityId maxTextBytes
  content : blank row.semantic.content = false
  values : ValuesFit row.semantic.values

/-- What forgetting asks of an observation. -/
structure ForgetFits [PayloadCodec] (id : String) (row : ObservationRow) (now : Int64) :
    Prop where
  named : blank id = false ∧ Fits id maxTextBytes
  key : (retirementKey id now).utf8ByteSize ≤ maxIdempotencyBytes
  payload : (payloadText [.retireObservation id (UInt64.ofNat row.rowVersion)]).utf8ByteSize ≤
    defaultMaxPayloadBytes

section Mutations

variable [Blake3] [PayloadCodec] {db : Database} {draws : Draws} {id key reason : String}
  {row : ObservationRow} {tier : MemoryTier} {spaceId : SpaceId} {operation : ChangeOperation}

theorem validateDraft_compatibility (named : key ≠ "") (reasoned : DraftTextFits reason) :
    validateDraft (compatibilityDraft key spaceId reason operation) = .ok () ↔
      key.utf8ByteSize ≤ maxIdempotencyBytes ∧
      (payloadText [operation]).utf8ByteSize ≤ defaultMaxPayloadBytes ∧
      validateOperation operation = .ok () := by
  have actor : DraftTextFits "legacy" := by decide
  have source : DraftTextFits "compatibility" := by decide
  have single : [operation].length ≤ maxOperationCount := by
    rw [List.length_singleton]
    decide
  rw [validateDraft_eq_ok, show (compatibilityDraft key spaceId reason operation).operations =
    [operation] from rfl, checkOperations_eq_ok]
  constructor
  · rintro ⟨⟨-, short⟩, -, counts, valid, -⟩
    exact ⟨short, counts.payload, valid operation (List.mem_singleton_self _)⟩
  · rintro ⟨short, payload, valid⟩
    exact ⟨⟨named, short⟩, ⟨actor, reasoned, source⟩, ⟨List.cons_ne_nil _ _, single, payload⟩,
      List.forall_mem_singleton.mpr valid, List.nodup_singleton _, fun _ _ => List.not_mem_nil⟩

omit [Blake3] [PayloadCodec] in
theorem tierKey_ne_empty {now : Int64} : tierKey id now ≠ "" := by
  intro empty
  have lists := congrArg String.toList empty
  unfold tierKey at lists
  rw [String.toList_append, String.toList_append, String.toList_append] at lists
  cases lists

omit [Blake3] [PayloadCodec] in
theorem retirementKey_ne_empty {now : Int64} : retirementKey id now ≠ "" := by
  intro empty
  have lists := congrArg String.toList empty
  unfold retirementKey at lists
  rw [String.toList_append, String.toList_append, String.toList_append] at lists
  cases lists

/-- The draft of a change of tier is valid when the observation fits. -/
theorem validateDraft_tier :
    validateDraft (tierDraft draws spaceId id row tier) = .ok () ↔ TierFits id row tier draws.now := by
  unfold tierDraft
  rw [validateDraft_compatibility tierKey_ne_empty (by decide)]
  unfold tierOperation
  rw [validateOperation_update]
  constructor
  · rintro ⟨key, payload, named, entityId, content, values⟩
    exact ⟨named, key, payload, entityId, content, values⟩
  · rintro ⟨named, key, payload, entityId, content, values⟩
    exact ⟨key, payload, named, entityId, content, values⟩

theorem validateDraft_forget :
    validateDraft (retirementDraft draws spaceId id row) = .ok () ↔ ForgetFits id row draws.now := by
  unfold retirementDraft
  rw [validateDraft_compatibility retirementKey_ne_empty (by decide)]
  rw [validateOperation_retire]
  constructor
  · rintro ⟨key, payload, named⟩
    exact ⟨named, key, payload⟩
  · rintro ⟨named, key, payload⟩
    exact ⟨key, payload, named⟩

end Mutations

/-! ## One mutation -/

/-- The request was made before, under the same key. -/
def Repeats [Blake3] (db : Database) (draws : Draws) (draft : ChangeSetDraft) : Prop :=
  ∃ held under, db.changeSetUnder (db.compatibilitySpaceId draws).2 draft.idempotencyKey =
      some (held, under) ∧ under.requestHash = canonicalRequestHash draft .applyImmediately

section OneMutation

variable [Blake3] [PayloadCodec] [EntityMatching] {db db' : Database} {draws : Draws} {id : String}
  {row : ObservationRow} {tier : MemoryTier} {draft : ChangeSetDraft} {operation : ChangeOperation}

/-- A compatibility mutation that is not refused is stored under a new key, or was made
before and changes nothing. -/
theorem submit_compatibility {submission : Submission}
    (sent : draft.spaceId = (db.compatibilitySpaceId draws).2)
    (submitted : (db.compatibilitySpaceId draws).1.submitChangeset draws draft .applyImmediately =
      .ok (db', submission)) :
    (db.Unused draws draft.idempotencyKey ∧
        Stores (db.compatibilitySpaceId draws).1 draws draft .applyImmediately db') ∨
      (db.Repeats draws draft ∧ db'.observations = db.observations) := by
  have rest := @compatibilitySpaceId_rest db draws
  obtain ⟨_, _, _, ⟨held, under, found, same, rfl, _⟩ | ⟨unused, stores, _⟩⟩ :=
    submitChangeset_eq_ok submitted
  · rw [sent, rest] at found
    refine .inr ⟨⟨held, under, found, same⟩, ?_⟩
    rw [rest]
  · rw [sent, rest] at unused
    exact .inl ⟨unused, stores⟩

/-- A request that was made before is found. -/
theorem submit_repeated (valid : validateDraft draft = .ok ())
    (sent : draft.spaceId = (db.compatibilitySpaceId draws).2) (repeats : db.Repeats draws draft) :
    ∃ submission, (db.compatibilitySpaceId draws).1.submitChangeset draws draft
      .applyImmediately = .ok ((db.compatibilitySpaceId draws).1, submission) := by
  obtain ⟨held, under, found, same⟩ := repeats
  have used : (db.compatibilitySpaceId draws).1.changeSetUnder draft.spaceId
      draft.idempotencyKey = some (held, under) := by
    rw [sent, compatibilitySpaceId_rest]
    exact found
  rw [submitChangeset_of_used valid (sent ▸ compatibilitySpaceId_bound) used, if_pos same]
  exact ⟨_, rfl⟩

/-- A request that is valid, under a new key, and whose operation can be applied to the
rows as they are, is stored. -/
theorem submit_stored (valid : validateDraft draft = .ok ())
    (sent : draft.spaceId = (db.compatibilitySpaceId draws).2)
    (unused : db.Unused draws draft.idempotencyKey)
    (applies : ∀ stored : Database, stored.observations = db.observations →
      FailsWith MemoryError.IsSqlite (applyOperations draws draws.changeSet
        ((db.compatibilitySpaceId draws).1.domain.semanticGeneration + 1) stored 0
        draft.operations))
    (undisturbed : Undisturbed ((db.compatibilitySpaceId draws).1.submitChangeset draws draft
      .applyImmediately)) :
    ∃ db' submission, (db.compatibilitySpaceId draws).1.submitChangeset draws draft
        .applyImmediately = .ok (db', submission) ∧
      Stores (db.compatibilitySpaceId draws).1 draws draft .applyImmediately db' := by
  have rest := @compatibilitySpaceId_rest db draws
  have new : (db.compatibilitySpaceId draws).1.changeSetUnder draft.spaceId
      draft.idempotencyKey = none := by
    rw [sent, rest]
    exact unused
  have submits := failsWith_submitChangeset valid (sent ▸ compatibilitySpaceId_bound) new
    fun stored same => applies stored (same.trans (by rw [rest]))
  obtain ⟨⟨db', submission⟩, submitted⟩ := submits.succeeds undisturbed
  exact ⟨db', submission, submitted, submit_stores new submitted⟩

omit [Blake3] [PayloadCodec] [EntityMatching] in
theorem version_of_columns (columns : db.InColumns) (present : db.observations.get? id = some row) :
    row.rowVersion = (UInt64.ofNat row.rowVersion).toNat := by
  rw [UInt64.toNat_ofNat']
  exact (Nat.mod_eq_of_lt (by have := columns id row present; omega)).symm

omit [Blake3] [PayloadCodec] [EntityMatching] in
/-- The head that a change of tier expects is the one that was read. -/
theorem expected_of_sized {head : Option String}
    (some : ((head.bind sizedText).map SizedText.text).isSome) :
    head = (head.bind sizedText).map SizedText.text := by
  cases head with
  | none => rfl
  | some text =>
    rw [Option.bind_some] at some ⊢
    unfold sizedText at some ⊢
    split at some
    · rename_i sized
      rw [dif_pos sized]
      rfl
    · cases some

/-- The row after the change of its tier was stored. -/
theorem stored_tier {spaceId : SpaceId}
    (stores : Stores (db.compatibilitySpaceId draws).1 draws
      (tierDraft draws spaceId id row tier) .applyImmediately db') :
    ∃ next, db'.observations.get? id = some next ∧ next.IsActive ∧
      next.semantic.memoryTier = tier := by
  obtain ⟨stored, applied, _, _, _, ran, rows, _, _⟩ := stores.applied_rows
  obtain ⟨last, updated, finished⟩ := bind_eq_ok.mp ran
  cases finished
  obtain ⟨old, next, revises, _, _, semantic, active⟩ := applyUpdate_revises updated
  refine ⟨next, rows.symm ▸ revises.after.1, ⟨?_, active⟩, by rw [semantic]; rfl⟩
  cases flag : next.tombstoned with
  | false => rfl
  | true =>
    rw [revises.after.2.1.mp flag] at active
    cases active

/-- The row after it was forgotten. -/
theorem stored_retirement {spaceId : SpaceId}
    (stores : Stores (db.compatibilitySpaceId draws).1 draws
      (retirementDraft draws spaceId id row) .applyImmediately db') :
    ∃ next, db'.observations.get? id = some next ∧ next.tombstoned = true ∧
      next.lifecycle = .retired := by
  obtain ⟨stored, applied, _, _, _, ran, rows, _, _⟩ := stores.applied_rows
  obtain ⟨last, retired, finished⟩ := bind_eq_ok.mp ran
  cases finished
  obtain ⟨old, next, revises, _, _, lifecycle⟩ := applyLifecycle_revises retired
  rw [if_pos rfl] at lifecycle
  exact ⟨next, rows.symm ▸ revises.after.1, revises.after.2.1.mpr lifecycle, lifecycle⟩

/-- The call on an active observation is one submission. -/
theorem setObservationMemoryTier_of_active (present : db.observations.get? id = some row)
    (active : row.IsActive) (full : blank id = false) :
    db.setObservationMemoryTier draws id tier =
      ((db.compatibilitySpaceId draws).1.submitChangeset draws
        (tierDraft draws (db.compatibilitySpaceId draws).2 id row tier) .applyImmediately >>=
          fun result => .ok (result.1, true)) := by
  unfold setObservationMemoryTier
  rw [refuseIf_neg (by rw [full]; decide), present]
  dsimp only
  rw [active.1]
  rfl

/-- **A change of tier** of an active observation takes effect exactly when the
observation fits a change set, and the key of the second is new, or was used for the
same request and the tier is the observation's already. -/
theorem setObservationMemoryTier_effective (columns : db.InColumns)
    (present : db.observations.get? id = some row) (active : row.IsActive)
    (undisturbed : Undisturbed (db.setObservationMemoryTier draws id tier)) :
    (∃ db' next, db.setObservationMemoryTier draws id tier = .ok (db', true) ∧
        db'.observations.get? id = some next ∧ next.IsActive ∧
        next.semantic.memoryTier = tier) ↔
      TierFits id row tier draws.now ∧ (db.Unused draws (tierKey id draws.now) ∨
        (db.Repeats draws (tierDraft draws (db.compatibilitySpaceId draws).2 id row tier) ∧
          row.semantic.memoryTier = tier)) := by
  constructor
  · rintro ⟨db', next, done, now, _, tiered⟩
    obtain ⟨_, full, _⟩ := bind_eq_ok.mp done
    rw [refuseIf_eq_ok, Bool.not_eq_true] at full
    rw [setObservationMemoryTier_of_active present active full] at done
    obtain ⟨⟨last, submission⟩, submitted, finished⟩ := bind_eq_ok.mp done
    cases finished
    refine ⟨validateDraft_tier.mp (submitChangeset_eq_ok submitted).1, ?_⟩
    rcases submit_compatibility rfl submitted with ⟨unused, _⟩ | ⟨repeats, same⟩
    · exact .inl unused
    · rw [same] at now
      cases present.symm.trans now
      exact .inr ⟨repeats, tiered⟩
  · rintro ⟨fits, outcome⟩
    have valid := (@validateDraft_tier _ _ draws id row tier
      (db.compatibilitySpaceId draws).2).mpr fits
    rw [setObservationMemoryTier_of_active present active fits.named.1] at undisturbed ⊢
    rcases outcome with unused | ⟨repeats, already⟩
    · have applies : ∀ stored : Database, stored.observations = db.observations →
          FailsWith MemoryError.IsSqlite (applyOperations draws draws.changeSet
            ((db.compatibilitySpaceId draws).1.domain.semanticGeneration + 1) stored 0
            [tierOperation id row tier]) := by
        intro stored same
        have held : stored.observations.get? id = some row := by rw [same, present]
        exact failsWith_bind (failsWith_applyUpdate held (version_of_columns columns present)
          active.2 expected_of_sized rfl active.1) fun _ _ => trivial
      obtain ⟨db', submission, submitted, stores⟩ :=
        submit_stored valid rfl unused applies undisturbed.first
      obtain ⟨next, now, live, tiered⟩ := stored_tier stores
      exact ⟨db', next, bind_eq_ok.mpr ⟨_, submitted, rfl⟩, now, live, tiered⟩
    · obtain ⟨submission, submitted⟩ := submit_repeated valid rfl repeats
      refine ⟨_, row, bind_eq_ok.mpr ⟨_, submitted, rfl⟩, ?_, active, already⟩
      rw [compatibilitySpaceId_rest]
      exact present

/-- **Forgetting** an active observation takes effect exactly when the observation fits a
change set and the key of the second is new. -/
theorem retireObservation_effective (columns : db.InColumns)
    (present : db.observations.get? id = some row) (active : row.IsActive)
    (undisturbed : Undisturbed (db.retireObservation draws id)) :
    (∃ db' next, db.retireObservation draws id = .ok (db', true) ∧
        db'.observations.get? id = some next ∧ next.tombstoned = true ∧
        next.lifecycle = .retired) ↔
      ForgetFits id row draws.now ∧ db.Unused draws (retirementKey id draws.now) := by
  have run : db.retireObservation draws id =
      ((db.compatibilitySpaceId draws).1.submitChangeset draws
        (retirementDraft draws (db.compatibilitySpaceId draws).2 id row) .applyImmediately >>=
          fun result => .ok (result.1, true)) := by
    unfold retireObservation
    rw [present]
    dsimp only
    rw [active.1]
    rfl
  rw [run] at undisturbed ⊢
  constructor
  · rintro ⟨db', next, done, now, gone, _⟩
    obtain ⟨⟨last, submission⟩, submitted, finished⟩ := bind_eq_ok.mp done
    cases finished
    refine ⟨validateDraft_forget.mp (submitChangeset_eq_ok submitted).1, ?_⟩
    rcases submit_compatibility rfl submitted with ⟨unused, _⟩ | ⟨_, same⟩
    · exact unused
    · rw [same] at now
      cases present.symm.trans now
      rw [active.1] at gone
      cases gone
  · rintro ⟨fits, unused⟩
    have valid := (@validateDraft_forget _ _ draws id row
      (db.compatibilitySpaceId draws).2).mpr fits
    have applies : ∀ stored : Database, stored.observations = db.observations →
        FailsWith MemoryError.IsSqlite (applyOperations draws draws.changeSet
          ((db.compatibilitySpaceId draws).1.domain.semanticGeneration + 1) stored 0
          [.retireObservation id (UInt64.ofNat row.rowVersion)]) := by
      intro stored same
      have held : stored.observations.get? id = some row := by rw [same, present]
      exact failsWith_bind (failsWith_applyLifecycle held (version_of_columns columns present)
        active.2) fun _ _ => trivial
    obtain ⟨db', submission, submitted, stores⟩ :=
      submit_stored valid rfl unused applies undisturbed.first
    obtain ⟨next, now, gone, lifecycle⟩ := stored_retirement stores
    exact ⟨db', next, bind_eq_ok.mpr ⟨_, submitted, rfl⟩, now, gone, lifecycle⟩

end OneMutation

/-! ## Runs of calls -/

/-- A call of a front end of old, or any transaction beside those: restorations and
updates are change sets that are submitted. -/
inductive CompatibilityCall where
  | setTier (draws : Draws) (id : String) (tier : MemoryTier)
  | forget (draws : Draws) (id : String)
  | other (transaction : Transaction)

namespace CompatibilityCall

variable [Blake3] [PayloadCodec] [EntityMatching]

def perform (db : Database) : CompatibilityCall → MemoryResult (Database × Bool)
  | setTier draws id tier => db.setObservationMemoryTier draws id tier
  | forget draws id => db.retireObservation draws id
  | other transaction => (db.perform transaction).map fun db => (db, true)

/-- The database after a call: a call that fails leaves it as it was. -/
def next (db : Database) (call : CompatibilityCall) : Option Database :=
  match call.perform db with
  | .ok result => some result.1
  | .error _ => some db

theorem next_of_ok {db : Database} {call : CompatibilityCall} {result : Database × Bool}
    (performed : call.perform db = .ok result) : call.next db = some result.1 := by
  unfold next
  rw [performed]

/-- No statement of SQLite lets the call down, and the versions it reads fit. -/
def Sound (db : Database) (call : CompatibilityCall) : Prop :=
  db.InColumns ∧ Undisturbed (call.perform db)

/-- A call about an active observation has its effect, and says so. -/
def Effective (db : Database) : CompatibilityCall → Prop
  | setTier draws id tier => ∀ row, db.observations.get? id = some row → row.IsActive →
      ∃ db' next, db.setObservationMemoryTier draws id tier = .ok (db', true) ∧
        db'.observations.get? id = some next ∧ next.IsActive ∧ next.semantic.memoryTier = tier
  | forget draws id => ∀ row, db.observations.get? id = some row → row.IsActive →
      ∃ db' next, db.retireObservation draws id = .ok (db', true) ∧
        db'.observations.get? id = some next ∧ next.tombstoned = true ∧ next.lifecycle = .retired
  | other _ => True

/-- The observation fits, and the key of the second is new, or was used for the same
request and nothing is left to do. -/
def Free (db : Database) : CompatibilityCall → Prop
  | setTier draws id tier => ∀ row, db.observations.get? id = some row → row.IsActive →
      TierFits id row tier draws.now ∧ (db.Unused draws (tierKey id draws.now) ∨
        (db.Repeats draws (tierDraft draws (db.compatibilitySpaceId draws).2 id row tier) ∧
          row.semantic.memoryTier = tier))
  | forget draws id => ∀ row, db.observations.get? id = some row → row.IsActive →
      ForgetFits id row draws.now ∧ db.Unused draws (retirementKey id draws.now)
  | other _ => True

theorem effective_iff_free {db : Database} {call : CompatibilityCall} (sound : Sound db call) :
    Effective db call ↔ Free db call := by
  cases call with
  | setTier draws id tier =>
    exact forall_congr' fun row => forall₂_congr fun present active =>
      setObservationMemoryTier_effective sound.1 present active sound.2
  | forget draws id =>
    exact forall_congr' fun row => forall₂_congr fun present active =>
      retireObservation_effective sound.1 present active sound.2
  | other transaction => exact Iff.rfl

end CompatibilityCall

open CompatibilityCall in
/-- **Mutations and the clock.** In every run of calls that SQLite does not let down,
whatever the clock reads, every change of tier and every forgetting of an active
observation has its effect exactly when each finds its key free. -/
theorem mutations_effective [Blake3] [PayloadCodec] [EntityMatching] (start : Database)
    (calls : List CompatibilityCall) (sound : Throughout next Sound start calls) :
    Throughout next Effective start calls ↔ Throughout next Free start calls := by
  induction calls generalizing start with
  | nil => exact Iff.rfl
  | cons call rest ih =>
    exact and_congr (effective_iff_free sound.1) (forall₂_congr fun following stepped =>
      ih following (sound.2 following stepped))

/-! ## Two changes of tier in one second -/

def CompatibilityCall.clock : CompatibilityCall → Option Int64
  | setTier draws _ _ => some draws.now
  | forget draws _ => some draws.now
  | other _ => none

namespace SameSecond

open AuditBounds BulkRetirement Merge.Fixture

abbrev promotion : CompatibilityCall := .setTier draws "o" .semantic

/-- The draws of a second call, in the same second. -/
abbrev secondDraws : Draws :=
  { draws with
    changeSet := ⟨⟨0x00000000000070008000000000000005, by decide⟩, by decide⟩
    revision := fun ordinal _ => Merge.Fixture.revision (Fin.ofNat _ (ordinal + 1)) }

/-- The store after the observation was promoted. -/
def promoted : Database :=
  (unwrap ((crowd 1).setObservationMemoryTier draws "o" .semantic) (by decide)).1

theorem promotion_next : promotion.next (crowd 1) = some promoted := by
  have done : (crowd 1).setObservationMemoryTier draws "o" .semantic =
      .ok (unwrap ((crowd 1).setObservationMemoryTier draws "o" .semantic) (by decide)) := unwrap_eq
  exact CompatibilityCall.next_of_ok done

theorem crowd_sound : promotion.Sound (crowd 1) := by
  refine ⟨crowd_inColumns 1, fun error failed => ?_⟩
  have accepted : ((crowd 1).setObservationMemoryTier draws "o" .semantic).toOption.isSome =
      true := by decide
  rw [show (crowd 1).setObservationMemoryTier draws "o" .semantic = .error error from failed]
    at accepted
  cases accepted

def promotedRow : ObservationRow := (promoted.observations.get? "o").get (by decide)

theorem promotedRow_present : promoted.observations.get? "o" = some promotedRow :=
  (Option.some_get _).symm

theorem promoted_inColumns : promoted.InColumns := by
  intro id row present
  have all : promoted.observations.entries.all (fun entry => entry.2.rowVersion < 2 ^ 63) =
      true := by decide
  exact of_decide_eq_true (List.all_eq_true.mp all _ (Table.get?_eq_some_iff.mp present))

theorem promotedRow_active : promotedRow.IsActive := ⟨by decide, by decide⟩

theorem promotedRow_tier : promotedRow.semantic.memoryTier = .semantic := by decide

abbrev change : CompatibilityCall := .setTier secondDraws "o" .procedural

/-- The key of the second is used. -/
theorem promoted_used : ¬ promoted.Unused secondDraws (tierKey "o" 0) := by
  intro unused
  have used : (promoted.changeSetUnder (promoted.compatibilitySpaceId secondDraws).2
      (tierKey "o" 0)).isSome = true := by decide
  rw [show promoted.changeSetUnder (promoted.compatibilitySpaceId secondDraws).2
    (tierKey "o" 0) = none from unused] at used
  cases used

theorem promoted_sound : change.Sound promoted := by
  refine ⟨promoted_inColumns, fun error failed => ?_⟩
  have valid : validateDraft (tierDraft secondDraws
      (promoted.compatibilitySpaceId secondDraws).2 "o" promotedRow .procedural) = .ok () := by
    decide
  cases used : promoted.changeSetUnder (promoted.compatibilitySpaceId secondDraws).2
      (tierKey "o" 0) with
  | none => exact absurd used promoted_used
  | some entry =>
    have run := @setObservationMemoryTier_of_active _ _ _ promoted secondDraws "o" promotedRow
      .procedural promotedRow_present promotedRow_active (by decide)
    rw [submitChangeset_of_used valid compatibilitySpaceId_bound
      (by rw [compatibilitySpaceId_rest]; exact used)] at run
    rw [show promoted.setObservationMemoryTier secondDraws "o" .procedural = .error error
      from failed] at run
    split at run
    · cases run
    · cases run
      exact id

theorem change_not_effective : ¬ change.Effective promoted := by
  intro effective
  have free := (CompatibilityCall.effective_iff_free promoted_sound).mp effective
  rcases (free promotedRow promotedRow_present promotedRow_active).2 with unused | ⟨_, already⟩
  · exact promoted_used unused
  · rw [promotedRow_tier] at already
    cases already

end SameSecond

open AuditBounds BulkRetirement Merge.Fixture SameSecond in
/-- The promotion alone has its effect. -/
theorem promotion_effective : Throughout CompatibilityCall.next CompatibilityCall.Effective
    (crowd 1) [promotion] := by
  refine (mutations_effective (crowd 1) [promotion] ⟨crowd_sound, fun _ _ => trivial⟩).mpr
    ⟨fun row present active => ⟨?_, .inl ?_⟩, fun _ _ => trivial⟩
  · rw [crowd_rows present]
    exact (@validateDraft_tier _ _ draws "o" fact .semantic draws.space).mp (by decide)
  · rfl

open AuditBounds BulkRetirement Merge.Fixture SameSecond in
/-- The second change of tier in one second has no effect. -/
theorem second_change_lost :
    ¬ ∀ (start : Database) (calls : List CompatibilityCall), Reachable start →
      (calls.filterMap CompatibilityCall.clock).Pairwise (· ≤ ·) →
      Throughout CompatibilityCall.next CompatibilityCall.Sound start calls →
        Throughout CompatibilityCall.next CompatibilityCall.Effective start calls := by
  intro always
  have steady : ([promotion, change].filterMap CompatibilityCall.clock).Pairwise (· ≤ ·) := by
    decide
  have effective := always (crowd 1) [promotion, change] (crowd_migrated 1).reachable steady
    ⟨crowd_sound, fun following stepped => by
      cases promotion_next.symm.trans stepped
      exact ⟨promoted_sound, fun _ _ => trivial⟩⟩
  exact change_not_effective (effective.2 promoted promotion_next).1

end Database

end OpenMemory.Graph
