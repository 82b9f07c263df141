import OpenMemory.Graph.Guarantees.BulkRetirement
import OpenMemory.Graph.Revisions
import OpenMemory.Graph.Tidiness

/-!
# Reversion, comparison and identity

Three lists of fields meet here. A reversion copies a revision onto the row, a comparison
goes through the fields one by one, and a hash is taken over all of them. They agree: the
head that a reversion leaves has the hash of the revision that it goes back to and differs
from it in no field, and two revisions of one observation differ in no field exactly where
their hashes are equal.

The bytes under a hash are delimited field by field, so a content that fits its frames can
be read back from them. What is left is the hash function.
-/

namespace OpenMemory.Graph

open Foundation
open Merge (Blake3 CollisionFree ShortText)

/-! ## Frames are delimited -/

namespace Frame

theorem selfDelimiting_str : SelfDelimitingOn ShortText str := Merge.Canonical.selfDelimiting_text

theorem selfDelimiting_leFramed {width : Nat} (narrow : width < 2 ^ 64) :
    SelfDelimitingOn (fun n => n < 256 ^ width) fun n => framed (leBytes width n) := by
  refine selfDelimiting_framed.comap (leBytes width) ?_ fun _ _ left right same =>
    leBytes_injective left right same
  intro n _
  rwa [leBytes_length]

theorem selfDelimiting_u64 : SelfDelimitingOn (fun n => n < 2 ^ 64) u64 :=
  selfDelimiting_leFramed (show 8 < 2 ^ 64 by decide)

theorem selfDelimiting_i64 : SelfDelimiting i64 :=
  (selfDelimiting_leFramed (show 8 < 2 ^ 64 by decide)).comap
    (fun value : Int64 => value.toUInt64.toNat)
    (fun value _ => value.toUInt64.toNat_lt) fun _ _ _ _ same => by
      simpa using congrArg UInt64.toInt64 (UInt64.toNat_inj.mp same)

theorem selfDelimiting_bits :
    SelfDelimiting fun value : Float32Bits => leBytes 4 value.toBits.toNat := by
  refine (selfDelimiting_leBytes 4).comap (fun value : Float32Bits => value.toBits.toNat)
    (fun value _ => value.toBits.isLt) ?_
  rintro ⟨left⟩ ⟨right⟩ _ _ same
  exact congrArg Float32Bits.mk (BitVec.eq_of_toNat_eq same)

theorem selfDelimiting_f32 : SelfDelimiting f32 := by
  refine (selfDelimiting_leFramed (show 4 < 2 ^ 64 by decide)).comap
    (fun value : Float32Bits => value.toBits.toNat) (fun value _ => value.toBits.isLt) ?_
  rintro ⟨left⟩ ⟨right⟩ _ _ same
  exact congrArg Float32Bits.mk (BitVec.eq_of_toNat_eq same)

theorem selfDelimiting_flag : SelfDelimiting flag := by
  have length : ∀ value, True → (flag value).length = 9 := by decide
  exact SelfDelimitingOn.of_fixed_length length (by decide)

theorem selfDelimiting_optional {α : Type} {valid : α → Prop} {encode : α → Bytes}
    (delimited : SelfDelimitingOn valid encode) :
    SelfDelimitingOn (fun value => ∀ a ∈ value, valid a) (optional encode) :=
  delimited.option (show flag false ≠ flag true by decide) rfl rfl fun _ => rfl

/-- Lists of texts that a frame holds. -/
def ShortTexts (values : List String) : Prop :=
  values.length < 2 ^ 64 ∧ ∀ value ∈ values, ShortText value

theorem selfDelimiting_strings : SelfDelimitingOn ShortTexts strings := by
  have lists := selfDelimiting_str.exact_.list selfDelimiting_u64
  rw [List.forall₂_eq_eq_eq] at lists
  intro left right short others xs ys same
  exact lists.read short others same

/-- Sorted texts are read back up to their order. -/
theorem exact_sortedStrings : ExactOn ShortTexts List.Perm sortedStrings :=
  selfDelimiting_strings.exact_.sorted fun values short =>
    ⟨by rw [List.length_insertionSort]; exact short.1, fun value member =>
      short.2 value ((values.perm_insertionSort _).mem_iff.mp member)⟩

theorem exact_named {α : Type} {name : α → String} (injective : Function.Injective name) :
    ExactOn (fun value => ShortText (name value)) (· = ·) fun value => str (name value) :=
  (selfDelimiting_str.comap name (fun _ short => short) fun _ _ _ _ same => injective same).exact_

theorem exact_str : ExactOn ShortText (· = ·) str := selfDelimiting_str.exact_

theorem exact_optionalStr : ExactOn (fun value => ∀ text ∈ value, ShortText text) (· = ·)
    (optional str) :=
  (selfDelimiting_optional selfDelimiting_str).exact_

theorem exact_optionalI64 : ExactOn (fun value => ∀ time ∈ value, True) (· = ·) (optional i64) :=
  (selfDelimiting_optional selfDelimiting_i64).exact_

theorem exact_optionalF32 : ExactOn (fun value => ∀ x ∈ value, True) (· = ·) (optional f32) :=
  (selfDelimiting_optional selfDelimiting_f32).exact_

theorem exact_tier : ExactOn (fun tier => ShortText tier.asStr) (· = ·)
    fun tier : MemoryTier => str tier.asStr := exact_named MemoryTier.asStr_injective

end Frame

/-! ## The bytes under a hash -/

/-- A content whose texts and lists have lengths of 64 bits, as those in memory do. -/
structure SemanticContent.Fits (semantic : SemanticContent) : Prop where
  entityId : ShortText semantic.entityId
  content : ShortText semantic.content
  title : ∀ text ∈ semantic.title, ShortText text
  summary : ∀ text ∈ semantic.summary, ShortText text
  source : ShortText semantic.source
  sourceKind : ∀ text ∈ semantic.sourceKind, ShortText text
  concepts : Frame.ShortTexts semantic.concepts
  sourceFiles : Frame.ShortTexts semantic.sourceFiles

theorem shortText_tier (tier : MemoryTier) : ShortText tier.asStr := by
  have size : tier.asStr.utf8ByteSize ≤ 10 := by cases tier <;> decide
  exact ShortText.of_le size (by decide)

theorem shortText_lifecycle (lifecycle : Lifecycle) : ShortText lifecycle.asStr := by
  have size : lifecycle.asStr.utf8ByteSize ≤ 9 := by cases lifecycle <;> decide
  exact ShortText.of_le size (by decide)

/-- The same content, up to the order of its lists. -/
def SemanticContent.Agrees (left right : SemanticContent) : Prop :=
  left.concepts.Perm right.concepts ∧ left.sourceFiles.Perm right.sourceFiles ∧
    { left with concepts := right.concepts, sourceFiles := right.sourceFiles } = right

/-- **The hashed bytes lose nothing** of a content but the order of its lists. -/
theorem exact_observationBytes : ExactOn
    (fun pair : SemanticContent × Lifecycle => pair.1.Fits)
    (fun left right => left.1.Agrees right.1 ∧ left.2 = right.2)
    fun pair => observationBytes pair.1 pair.2 := by
  have fields := Frame.exact_str.pair (Frame.exact_str.pair (Frame.exact_optionalStr.pair
    (Frame.exact_optionalStr.pair (Frame.exact_str.pair (Frame.exact_optionalStr.pair
      (Frame.exact_tier.pair ((Frame.exact_named Lifecycle.asStr_injective).pair
        (Frame.selfDelimiting_i64.exact_.pair (Frame.exact_optionalI64.pair
          (Frame.exact_optionalI64.pair (Frame.selfDelimiting_bits.exact_.pair
            (Frame.exact_optionalF32.pair
              (Frame.exact_sortedStrings.pair Frame.exact_sortedStrings)))))))))))))
  refine (fields.tagged (utf8 "openmemory/observation/v1")).comap (fun pair => (pair.1.entityId,
    pair.1.content, pair.1.title, pair.1.summary, pair.1.source, pair.1.sourceKind,
    pair.1.memoryTier, pair.2, pair.1.observedAt, pair.1.validFrom, pair.1.validUntil,
    pair.1.confidence, pair.1.importance, pair.1.concepts, pair.1.sourceFiles)) ?_ ?_ ?_
  · intro pair
    simp only [observationBytes, List.append_assoc]
  · intro pair fits
    exact ⟨fits.entityId, fits.content, fits.title, fits.summary, fits.source, fits.sourceKind,
      shortText_tier _, shortText_lifecycle _, trivial, fun _ _ => trivial, fun _ _ => trivial,
      trivial, fun _ _ => trivial, fits.concepts, fits.sourceFiles⟩
  · rintro ⟨⟨⟩, _⟩ ⟨⟨⟩, _⟩
    simp only [SemanticContent.Agrees, SemanticContent.mk.injEq]
    tauto

/-- The lists of a tidy content are sorted, so that nothing of it is lost. -/
theorem observationBytes_injective {left right : SemanticContent} {before after : Lifecycle}
    (tidyLeft : left.Tidy) (tidyRight : right.Tidy) (fitsLeft : left.Fits) (fitsRight : right.Fits)
    (same : observationBytes left before = observationBytes right after) :
    left = right ∧ before = after := by
  have sorted {texts others : List String} (perm : texts.Perm others)
      (first : sideRows texts = texts) (last : sideRows others = others) : texts = others := by
    refine List.Perm.eq_of_pairwise' (r := (· ≤ ·)) ?_ ?_ perm
    · rw [← first]
      exact List.pairwise_insertionSort _ _
    · rw [← last]
      exact List.pairwise_insertionSort _ _
  obtain ⟨⟨concepts, sourceFiles, rest⟩, lifecycle⟩ := (exact_observationBytes.iff
    (a := (left, before)) (b := (right, after)) fitsLeft fitsRight).mp same
  rw [← sorted concepts tidyLeft.concepts tidyRight.concepts,
    ← sorted sourceFiles tidyLeft.sourceFiles tidyRight.sourceFiles] at rest
  exact ⟨rest, lifecycle⟩

/-! ## The head that a revision leaves -/

namespace Database

variable {db db' : Database} {draws : Draws} {changesetId : ChangeSetId}
  {generation ordinal : Nat} {id : String} {version : UInt64} {row next : ObservationRow}

/-- The new head records the row as it is now, and earlier revisions stay. -/
theorem Revises.recorded {operation : OutboxOperation}
    (revises : Revises db db' id version row next generation operation) :
    ∃ key revision, next.currentRevisionId = some key ∧ db.revisions.get? key = none ∧
      db'.revisions.get? key = some revision ∧ Ledger.Records revision id next row.currentRevisionId ∧
      ∀ other earlier, db.revisions.get? other = some earlier →
        db'.revisions.get? other = some earlier := by
  obtain ⟨key, revision, slot, owed, follows, -⟩ := revises.follows
  change ∃ key revision, _ ∧ db.ledger.revisions key = none ∧
    db'.ledger.revisions key = some revision ∧ _ ∧
      ∀ other earlier, db.ledger.revisions other = some earlier →
        db'.ledger.revisions other = some earlier
  generalize db.ledger = before at follows
  generalize db'.ledger = after at follows
  obtain ⟨middle, revised, last, noted, rfl⟩ := follows
  cases noted
  cases revised with
  | revised present advances new records =>
    refine ⟨key, revision, advances.head, new, Function.update_self .., records, ?_⟩
    intro other earlier held
    change Function.update before.revisions key (some revision) other = some earlier
    rwa [Function.update_of_ne]
    rintro rfl
    rw [new] at held
    cases held

/-! ## Comparisons of a tidy store -/

/-- A comparison succeeds, and it lists a change exactly where the two differ. -/
theorem Tidy.observationRevisionDiff [Blake3] [ValueJson] {drawn : Set String}
    (tidy : Tidy drawn db) {fromRevision toRevision : String} {before after : Revision}
    (earlier : db.revisions.get? fromRevision = some before)
    (later : db.revisions.get? toRevision = some after)
    (same : before.observationId = after.observationId) :
    ∃ diff, db.observationRevisionDiff fromRevision toRevision = .ok diff ∧
      (diff.changes = [] ↔
        before.semantic = after.semantic ∧ before.lifecycle = after.lifecycle) := by
  have asCompared {key : String} {revision : Revision}
      (held : db.revisions.get? key = some revision) : db.revisionFields key = .ok revision := by
    have content := (tidy.revisions key revision held).1
    refine bind_eq_ok.mpr ⟨revision, orRefuse_eq_ok.mpr held, ?_⟩
    rw [content.concepts, content.sourceFiles]
    rfl
  obtain ⟨changes, present⟩ :=
    Option.ne_none_iff_exists'.mp (tidy.revisions toRevision after later).2.2
  refine ⟨_, bind_eq_ok.mpr ⟨before, asCompared earlier, bind_eq_ok.mpr ⟨after,
    asCompared later, bind_eq_ok.mpr ⟨(), refuseIf_eq_ok.mpr (not_not.mpr same),
      bind_eq_ok.mpr ⟨changes, orRefuse_eq_ok.mpr present, rfl⟩⟩⟩⟩, fieldChanges_eq_nil⟩

/-! ## In the middle of a change set -/

variable [Blake3] [PayloadCodec] [EntityMatching]

/-- A store while the operations of a change set are applied: of one that is approved, or
of one that was just stored. -/
inductive MidChangeSet (draws : Draws) (changesetId : ChangeSetId) : Database → Prop
  | approved {db : Database} (reached : TidilyReached db)
      (unused : ∀ group item, Unmentioned db (draws.observation group item))
      (present : db.changeSets.get? changesetId ≠ none) : MidChangeSet draws changesetId db
  | submitted {db rowed stored : Database} {row : ChangeSet} {operations : List ChangeOperation}
      (reached : TidilyReached db)
      (unused : ∀ group item, Unmentioned db (draws.observation group item))
      (inserted : db.insertChangeSet changesetId row = .ok rowed)
      (requested : insertRequests changesetId rowed 0 operations = .ok stored) :
      MidChangeSet draws changesetId stored
  | applied {db db' : Database} {generation ordinal : Nat} {operation : ChangeOperation}
      (before : MidChangeSet draws changesetId db)
      (applied : db.applyOperation draws changesetId generation ordinal operation = .ok db') :
      MidChangeSet draws changesetId db'

theorem MidChangeSet.tidyUnder (within : MidChangeSet draws changesetId db) :
    TidyUnder {id | ∃ group item, id = draws.observation group item} changesetId db := by
  have draw {first : Database} (reached : TidilyReached first)
      (unused : ∀ group item, Unmentioned first (draws.observation group item)) :
      Tidy {id | ∃ group item, id = draws.observation group item} first := by
    refine reached.tidy.draw ?_
    rintro _ ⟨group, item, rfl⟩
    exact unused group item
  induction within with
  | approved reached unused present => exact ⟨draw reached unused, present⟩
  | submitted reached unused inserted requested =>
    exact ((draw reached unused).insertChangeSet inserted).insertRequests requested
  | applied before applied ih =>
    exact applyOperation_tidy (fun group item => ⟨group, item, rfl⟩) ih applied

/-- The head of an observation has the hash of a revision and differs from it in no field. -/
def Restored [ValueJson] (db : Database) (id revisionId : String) : Prop :=
  ∃ revision row headId head diff, db.revisions.get? revisionId = some revision ∧
    revision.observationId = id ∧ db.observations.get? id = some row ∧
    row.currentRevisionId = some headId ∧ headId ≠ revisionId ∧
    db.revisions.get? headId = some head ∧ head.semanticHash = revision.semanticHash ∧
    db.observationRevisionDiff revisionId headId = .ok diff ∧ diff.changes = []

theorem MidChangeSet.restored [ValueJson] {revisionId : String}
    (within : MidChangeSet draws changesetId db)
    (applied : db.applyOperation draws changesetId generation ordinal
      (.revertObservation id revisionId version) = .ok db') : Restored db' id revisionId := by
  have tidy := within.tidyUnder.tidy
  have tidyAfter := (within.applied applied).tidyUnder.tidy
  obtain ⟨row, next, revision, revises, held, here, content, lifecycle⟩ :=
    applyRevert_revises applied
  obtain ⟨headId, head, heads, new, stands, records, stay⟩ := revises.recorded
  have semantic : head.semantic = revision.semantic := by
    rw [records.semantic, content]
    exact (tidy.revisions revisionId revision held).1.storedContent
  -- The row is there, so no revision of it is the one of a destruction.
  have live : revision.lifecycle ≠ .destroyed := by
    intro gone
    have absent := (tidy.destroyed revisionId revision held gone).1
    rw [here, revises.present] at absent
    cases absent
  have sameLifecycle : head.lifecycle = revision.lifecycle := by
    rw [records.lifecycle, lifecycle]
    cases state : revision.lifecycle with
    | active => rfl
    | retired => rfl
    | destroyed => exact absurd state live
  have apart : headId ≠ revisionId := by
    rintro rfl
    rw [new] at held
    cases held
  obtain ⟨diff, compared, none⟩ := tidyAfter.observationRevisionDiff (stay revisionId revision held)
    stands (here.trans records.observation.symm)
  refine ⟨revision, next, headId, head, diff, stay revisionId revision held, here,
    revises.after.1, heads, apart, stands, ?_, compared, none.mpr ⟨semantic.symm,
      sameLifecycle.symm⟩⟩
  unfold Revision.semanticHash
  rw [semantic, sameLifecycle]

omit [PayloadCodec] [EntityMatching] in
/-- **Comparison agrees with identity.** -/
theorem Tidy.unchanged_iff [ValueJson] {drawn : Set String} (tidy : Tidy drawn db)
    {fromRevision toRevision : String} {before after : Revision}
    (earlier : db.revisions.get? fromRevision = some before)
    (later : db.revisions.get? toRevision = some after)
    (same : before.observationId = after.observationId)
    (fitsBefore : before.semantic.Fits) (fitsAfter : after.semantic.Fits)
    (free : CollisionFree {observationBytes before.semantic before.lifecycle,
      observationBytes after.semantic after.lifecycle}) :
    ∃ diff, db.observationRevisionDiff fromRevision toRevision = .ok diff ∧
      (diff.changes = [] ↔ before.semanticHash = after.semanticHash) := by
  obtain ⟨diff, compared, none⟩ := tidy.observationRevisionDiff earlier later same
  refine ⟨diff, compared, none.trans ?_⟩
  unfold Revision.semanticHash observationHash
  constructor
  · rintro ⟨semantic, lifecycle⟩
    rw [semantic, lifecycle]
  · intro hashes
    exact observationBytes_injective (tidy.revisions _ _ earlier).1 (tidy.revisions _ _ later).1
      fitsBefore fitsAfter (free (.inl rfl) (.inr rfl) (blake3Text_injective hashes))

end Database

/-! ## The guarantee -/

open Database

/-- **Revert restores and diff agrees with identity.** A reversion that is applied, at any
place of a change set, leaves a new head with the hash of the revision it goes back to, and
the comparison of the two lists no change. For two revisions of one observation, the
comparison succeeds, and lists no change exactly where their hashes are equal. -/
theorem reversion_and_identity [Blake3] [PayloadCodec] [EntityMatching] [ValueJson] :
    (∀ (draws : Draws) (changesetId : ChangeSetId) (db db' : Database) (generation ordinal : Nat)
      (id revisionId : String) (version : UInt64), MidChangeSet draws changesetId db →
      db.applyOperation draws changesetId generation ordinal
        (.revertObservation id revisionId version) = .ok db' → Restored db' id revisionId) ∧
    ∀ (db : Database) (fromRevision toRevision : String) (before after : Revision),
      TidilyReached db → db.revisions.get? fromRevision = some before →
      db.revisions.get? toRevision = some after → before.observationId = after.observationId →
      before.semantic.Fits → after.semantic.Fits →
      CollisionFree {observationBytes before.semantic before.lifecycle,
        observationBytes after.semantic after.lifecycle} →
      ∃ diff, db.observationRevisionDiff fromRevision toRevision = .ok diff ∧
        (diff.changes = [] ↔ before.semanticHash = after.semanticHash) :=
  ⟨fun _ _ _ _ _ _ _ _ _ within applied => within.restored applied,
    fun _ _ _ _ _ reached earlier later same fitsBefore fitsAfter free =>
      reached.tidy.unchanged_iff earlier later same fitsBefore fitsAfter free⟩

/-! ## A promotion and its reversion -/

namespace Database.RevisionIdentity

open AuditBounds BulkRetirement Merge.Fixture

def quoted (text : String) : String := "\"" ++ text ++ "\""

/-- JSON for texts that need no escapes and for numbers that are one. -/
scoped instance plainJson : ValueJson where
  toJson
    | .text value => quoted value
    | .optionalText value => value.elim "null" quoted
    | .texts values => "[" ++ ",".intercalate (values.map quoted) ++ "]"
    | .time value => toString value.toInt
    | .optionalTime value => value.elim "null" fun time => toString time.toInt
    | .number _ => "1.0"
    | .optionalNumber value => value.elim "null" fun _ => "1.0"

theorem later_lt : 0x00000000000070008000000000000005 < 2 ^ 128 := by decide

/-- Draws for a second call, apart from those of the first. -/
abbrev laterDraws : Draws :=
  { draws with
    changeSet := ⟨⟨0x00000000000070008000000000000005, later_lt⟩, by decide⟩
    revision := fun ordinal _ => Merge.Fixture.revision (Fin.ofNat _ (ordinal + 1))
    observation := fun group index =>
      String.ofList ('p' :: List.replicate group '1' ++ List.replicate index '2') }

abbrev promotion : Transaction :=
  .submit laterDraws (tierDraft laterDraws space "o" BulkRetirement.fact .semantic)
    .applyImmediately

/-- The store once it is bound to a space, once the observation has its baseline, and once it
was promoted. -/
def bound : Database := unwrap ((crowd 1).perform (.bindSpace space)) (by decide)

def baselined : Database := unwrap (bound.perform (.backfill draws 10)) (by decide)

def promoted : Database := unwrap (baselined.perform promotion) (by decide)

theorem unmentioned {db : Database} (group item : Nat)
    (revisions : db.revisions.entries.all (fun entry => entry.2.observationId = "o") = true)
    (confirmations : db.confirmations.entries = []) :
    Unmentioned db (laterDraws.observation group item) where
  revisions key revision held named := by
    have here := of_decide_eq_true
      (List.all_eq_true.mp revisions _ (Table.get?_eq_some_iff.mp held))
    have heads := congrArg (fun text => text.toList.head?) (here.symm.trans named)
    simp at heads
  confirmations hash confirmation held := by
    have member := Table.get?_eq_some_iff.mp held
    rw [confirmations] at member
    cases member

theorem baselined_reached : TidilyReached baselined := by
  have start : TidyMigrated (crowd 1) := by
    refine ⟨crowd_migrated 1, fun id row present => ?_⟩
    rw [crowd_rows present]
    exact ⟨rfl, rfl⟩
  exact (start.reached.step (fun _ none => absurd none (Set.notMem_empty _)) unwrap_eq).step
    (fun _ none => absurd none (Set.notMem_empty _)) unwrap_eq

theorem promoted_reached : TidilyReached promoted := by
  refine baselined_reached.step ?_ unwrap_eq
  rintro _ ⟨group, item, rfl⟩
  exact unmentioned group item (by decide) (by decide)

def firstId : String := (draws.revision 0 0).toText

def secondId : String := (laterDraws.revision 0 0).toText

def first : Revision := (promoted.revisions.get? firstId).get (by decide)

theorem first_held : promoted.revisions.get? firstId = some first := (Option.some_get _).symm

def second : Revision := (promoted.revisions.get? secondId).get (by decide)

theorem second_held : promoted.revisions.get? secondId = some second := (Option.some_get _).symm

def reverted : Database :=
  unwrap (promoted.applyOperation laterDraws laterDraws.changeSet 3 1
    (.revertObservation "o" firstId 2)) (by decide)

theorem promoted_within : MidChangeSet laterDraws laterDraws.changeSet promoted :=
  .approved promoted_reached (fun group item => unmentioned group item (by decide) (by decide))
    (by decide)

/-- Both revisions are plain: their texts are short, and what may be left out is. -/
theorem fits {revision : Revision} (member : revision = first ∨ revision = second) :
    revision.semantic.Fits := by
  have plain {semantic : SemanticContent} (empty : semantic.title = none ∧
        semantic.summary = none ∧ semantic.sourceKind = none ∧ semantic.concepts = [] ∧
          semantic.sourceFiles = [])
      (size : semantic.entityId.utf8ByteSize ≤ 16 ∧ semantic.content.utf8ByteSize ≤ 16 ∧
        semantic.source.utf8ByteSize ≤ 16) : semantic.Fits := by
    have short (text : String) (size : text.utf8ByteSize ≤ 16) : ShortText text :=
      ShortText.of_le size (by decide)
    obtain ⟨title, summary, kind, concepts, files⟩ := empty
    refine ⟨short _ size.1, short _ size.2.1, ?_, ?_, short _ size.2.2, ?_, ?_, ?_⟩
    · exact title ▸ nofun
    · exact summary ▸ nofun
    · exact kind ▸ nofun
    · exact concepts ▸ ⟨by decide, nofun⟩
    · exact files ▸ ⟨by decide, nofun⟩
  rcases member with rfl | rfl
  · exact plain (by decide +kernel) (by decide +kernel)
  · exact plain (by decide +kernel) (by decide +kernel)

end Database.RevisionIdentity

open Merge.Fixture Database.AuditBounds Database.RevisionIdentity in
/-- A promotion is taken back, and it is seen by the comparison and by the hash. -/
theorem promotion_reverted : Restored reverted "o" firstId ∧
    ∃ diff, promoted.observationRevisionDiff firstId secondId = .ok diff ∧
      (diff.changes = [] ↔ first.semanticHash = second.semanticHash) :=
  ⟨reversion_and_identity.1 _ _ _ _ _ _ _ _ _ promoted_within unwrap_eq,
    reversion_and_identity.2 _ _ _ _ _ promoted_reached first_held second_held (by decide)
      (fits (.inl rfl)) (fits (.inr rfl)) (collisionFree_pair (by decide +kernel))⟩

end OpenMemory.Graph
