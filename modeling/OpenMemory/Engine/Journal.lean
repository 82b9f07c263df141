import OpenMemory.Foundation.Lines
import OpenMemory.Foundation.JsonText
import OpenMemory.Graph.Types

/-!
# The journal of a shard

Every accepted submission is appended to the journal of its shard as one line
of JSON, and a restart reads the lines back. The JSON library is a parameter
(`SerdeJson`); what it is relied on for is stated for the records at hand
(`SerdeJson.Faithful`).

A journal that was written line by line is read back record by record, in front
of whatever else the file holds (`readRecords_journal`). What stands behind the
last newline is read as one more line together with the record appended to it,
and such a line holds no record (`fromLine_glued`).
-/

namespace OpenMemory.Engine

open Foundation OpenMemory.Graph

structure JournalRecord where
  seq : Nat
  req : RememberRequest
  deriving DecidableEq

/-- The two functions of the JSON library on journal records. -/
structure SerdeJson where
  toString : JournalRecord → String
  fromStr : String → Option JournalRecord

/-- What the library documents, for records of the given list: a record is
printed as a compact object that starts with its sequence number, control
characters are escaped, and only JSON texts are parsed. A record is read back
when every number of it is finite; other numbers are printed as null. -/
structure SerdeJson.Faithful (serde : SerdeJson) (records : List JournalRecord) : Prop where
  opens : ∀ r ∈ records, ∃ rest, serde.toString r = "\x7b\"seq\":" ++ rest
  closes : ∀ r ∈ records, ∃ front, serde.toString r = front ++ "\x7d"
  escapes : ∀ r ∈ records, ∀ b ∈ utf8 (serde.toString r), 0x20 ≤ b
  printsJson : ∀ r ∈ records, Json.WellBracketed (utf8 (serde.toString r))
  parsesJson : ∀ text r, serde.fromStr text = some r → Json.WellBracketed (utf8 text)
  roundTrip : ∀ r ∈ records, r.req.finite = true → serde.fromStr (serde.toString r) = some r
  lossy : ∀ r ∈ records, r.req.finite = false → serde.fromStr (serde.toString r) ≠ some r

/-! ## Writing -/

/-- Append one record to a shard journal. -/
def append (serde : SerdeJson) (journal : Bytes) (record : JournalRecord) : Bytes :=
  journal ++ utf8 (serde.toString record) ++ [newline]

/-- A journal written from scratch. -/
def journalOf (serde : SerdeJson) (records : List JournalRecord) : Bytes :=
  records.foldl (append serde) []

/-! ## Reading -/

/-- One line of the replay loop: a line that is no text is an error, a blank
line and a line that does not parse are skipped. -/
def fromLine (serde : SerdeJson) (line : Bytes) : MemoryResult (Option JournalRecord) := do
  let text ← orRefuse (fromUtf8 line) (.io "stream did not contain valid UTF-8")
  if blank text then pure none else pure (serde.fromStr text)

theorem fromLine_of_text {serde : SerdeJson} {line : Bytes} {text : String}
    (decoded : fromUtf8 line = some text) :
    fromLine serde line = if blank text then .ok none else .ok (serde.fromStr text) := by
  simp only [fromLine, decoded, orRefuse, bind, Except.bind, pure, Except.pure]

def readLines (serde : SerdeJson) : List Bytes → MemoryResult (List JournalRecord)
  | [] => pure []
  | line :: rest => do
      let record ← fromLine serde line
      let later ← readLines serde rest
      pure (record.toList ++ later)

/-- The records that replay finds in the bytes of a journal. -/
def readRecords (serde : SerdeJson) (bytes : Bytes) : MemoryResult (List JournalRecord) :=
  readLines serde (lines bytes)

/-- The locals of the replay loop. -/
structure Replay where
  lastSeq : Nat
  pending : List RememberRequest
  maxPendingSeq : Nat

/-- The body of the replay loop, for a record. -/
def Replay.admitRecord (checkpoint : Nat) (state : Replay) (record : JournalRecord) : Replay :=
  let seen := { state with lastSeq := max state.lastSeq record.seq }
  if checkpoint < record.seq then
    { seen with
      maxPendingSeq := max state.maxPendingSeq record.seq
      pending := state.pending ++ [record.req] }
  else seen

/-- The replay loop over the bytes of a journal. -/
def scanJournal (serde : SerdeJson) (checkpoint : Nat) (bytes : Bytes) : MemoryResult Replay := do
  let records ← readRecords serde bytes
  pure (records.foldl (Replay.admitRecord checkpoint) ⟨checkpoint, [], 0⟩)

theorem foldl_append (serde : SerdeJson) (journal : Bytes) (records : List JournalRecord) :
    records.foldl (append serde) journal = journal ++ journalOf serde records := by
  induction records generalizing journal with
  | nil => simp [journalOf]
  | cons r rest ih =>
    rw [journalOf, List.foldl_cons, List.foldl_cons, ih, ih (append serde [] r)]
    simp [append]

theorem journalOf_cons (serde : SerdeJson) (r : JournalRecord) (rest : List JournalRecord) :
    journalOf serde (r :: rest) = utf8 (serde.toString r) ++ newline :: journalOf serde rest := by
  rw [journalOf, List.foldl_cons, foldl_append]
  simp [append]

theorem journalOf_append (serde : SerdeJson) (first last : List JournalRecord) :
    journalOf serde (first ++ last) = journalOf serde first ++ journalOf serde last := by
  rw [journalOf, List.foldl_append, foldl_append]
  rfl

/-- A journal ends with a newline. -/
theorem getLast?_journalOf (serde : SerdeJson) (records : List JournalRecord) :
    ∀ last ∈ (journalOf serde records).getLast?, last = newline := by
  intro last isLast
  rcases List.eq_nil_or_concat records with rfl | ⟨front, r, rfl⟩
  · cases isLast
  · have last_line : journalOf serde [r] = utf8 (serde.toString r) ++ [newline] :=
      journalOf_cons serde r []
    rw [List.concat_eq_append, journalOf_append, last_line, ← List.append_assoc,
      List.getLast?_append_of_ne_nil _ (by simp)] at isLast
    exact (Option.some.inj isLast).symm

/-! ## What a record looks like -/

namespace SerdeJson.Faithful

variable {serde : SerdeJson} {records : List JournalRecord} {r : JournalRecord}

variable (faithful : serde.Faithful records)

include faithful

theorem mono {fewer : List JournalRecord}
    (subset : ∀ r ∈ fewer, r ∈ records) : serde.Faithful fewer where
  opens r member := faithful.opens r (subset r member)
  closes r member := faithful.closes r (subset r member)
  escapes r member := faithful.escapes r (subset r member)
  printsJson r member := faithful.printsJson r (subset r member)
  parsesJson := faithful.parsesJson
  roundTrip r member := faithful.roundTrip r (subset r member)
  lossy r member := faithful.lossy r (subset r member)

section

variable (member : r ∈ records)

include member

theorem oneLine : newline ∉ utf8 (serde.toString r) := by
  intro inside
  exact absurd (faithful.escapes r member _ inside) (by decide)

theorem starts : ∃ rest, utf8 (serde.toString r) = 0x7B :: 0x22 :: 0x73 :: rest := by
  obtain ⟨rest, same⟩ := faithful.opens r member
  refine ⟨[0x65, 0x71, 0x22, 0x3A] ++ utf8 rest, ?_⟩
  rw [same, utf8_append]
  rfl

theorem ends : (utf8 (serde.toString r)).getLast? = some 0x7D := by
  obtain ⟨front, same⟩ := faithful.closes r member
  rw [same, utf8_append, List.getLast?_append_of_ne_nil _ (by decide)]
  rfl

theorem isObject : Json.IsObject (utf8 (serde.toString r)) where
  wellBracketed := faithful.printsJson r member
  opens := by
    obtain ⟨rest, same⟩ := faithful.starts member
    rw [same]
    rfl
  closes := faithful.ends member

theorem nonempty : utf8 (serde.toString r) ≠ [] := by
  obtain ⟨rest, same⟩ := faithful.starts member
  rw [same]
  exact List.cons_ne_nil _ _

theorem not_blank : blank (serde.toString r) = false := by
  obtain ⟨rest, same⟩ := faithful.opens r member
  rw [Bool.eq_false_iff]
  intro empty
  have space := isWhitespace_of_trim_isEmpty empty '\x7b' (by simp [same])
  exact absurd space (by decide)

/-- The line of a record is read as the library reads the record. -/
theorem fromLine_record :
    fromLine serde (utf8 (serde.toString r)) = .ok (serde.fromStr (serde.toString r)) := by
  rw [fromLine_of_text (fromUtf8_utf8 _), if_neg (by simp [faithful.not_blank member])]

theorem stripReturn_record : stripReturn (utf8 (serde.toString r)) = utf8 (serde.toString r) := by
  rw [stripReturn, faithful.ends member, if_neg (by decide)]

/-- A record is read back exactly when all its numbers are finite. -/
theorem fromStr_iff : serde.fromStr (serde.toString r) = some r ↔ r.req.finite = true := by
  constructor
  · intro back
    by_contra infinite
    exact faithful.lossy r member (Bool.eq_false_iff.mpr infinite) back
  · exact faithful.roundTrip r member

end

theorem fromLine_of_not_wellBracketed {line : Bytes}
    (broken : ¬ Json.WellBracketed line) {found : Option JournalRecord}
    (reads : fromLine serde line = .ok found) : found = none := by
  unfold fromLine at reads
  obtain ⟨text, decoded, reads⟩ := bind_eq_ok.mp reads
  rw [orRefuse_eq_ok, fromUtf8_eq_some] at decoded
  split at reads
  · cases reads
    rfl
  · cases reads
    cases parsed : serde.fromStr text with
    | none => rfl
    | some r => exact absurd (decoded ▸ faithful.parsesJson text r parsed) broken

end SerdeJson.Faithful

/-! ## Reading a journal back -/

section ReadingBack

variable {serde : SerdeJson} {records : List JournalRecord}

/-- The record that the library makes of its own text. -/
def reread (serde : SerdeJson) (r : JournalRecord) : Option JournalRecord :=
  serde.fromStr (serde.toString r)

theorem toList_reread (serde : SerdeJson) (r : JournalRecord) (rest : List JournalRecord) :
    (r :: rest).filterMap (reread serde) =
      (serde.fromStr (serde.toString r)).toList ++ rest.filterMap (reread serde) := by
  rw [List.filterMap_cons, reread]
  cases serde.fromStr (serde.toString r) <;> rfl

/-- **A journal is read record by record**, and then the rest of the file. -/
theorem readRecords_journal (faithful : serde.Faithful records) (rest : Bytes) :
    readRecords serde (journalOf serde records ++ rest) =
      (readRecords serde rest).map (records.filterMap (reread serde) ++ ·) := by
  induction records with
  | nil =>
    change readRecords serde rest = (readRecords serde rest).map ([] ++ ·)
    cases readRecords serde rest <;> rfl
  | cons r others ih =>
    have member : r ∈ r :: others := List.mem_cons_self
    have split : journalOf serde (r :: others) ++ rest =
        utf8 (serde.toString r) ++ newline :: (journalOf serde others ++ rest) := by
      rw [journalOf_cons]
      simp
    have tail := ih (faithful.mono fun s later => List.mem_cons_of_mem _ later)
    unfold readRecords at tail ⊢
    rw [split, lines_newline _ (faithful.oneLine member), faithful.stripReturn_record member,
      readLines, faithful.fromLine_record member, tail]
    cases readLines serde (lines rest) with
    | error e => rfl
    | ok later =>
      rw [toList_reread]
      exact congrArg Except.ok (List.append_assoc _ _ _).symm

theorem readRecords_journalOf (faithful : serde.Faithful records) :
    readRecords serde (journalOf serde records) = .ok (records.filterMap (reread serde)) := by
  have reads := readRecords_journal faithful []
  rw [List.append_nil] at reads
  rw [reads]
  exact congrArg Except.ok (List.append_nil _)

/-- Records that are all read back, and no others. -/
theorem filterMap_eq_self_iff {α : Type} {f : α → Option α} {xs : List α} :
    xs.filterMap f = xs ↔ ∀ x ∈ xs, f x = some x := by
  induction xs with
  | nil => simp
  | cons x rest ih =>
    rw [List.forall_mem_cons, ← ih]
    cases found : f x with
    | none =>
      rw [List.filterMap_cons_none found]
      constructor
      · intro same
        have longer := congrArg List.length same
        have shorter := List.length_filterMap_le f rest
        rw [List.length_cons] at longer
        omega
      · rintro ⟨impossible, _⟩
        cases impossible
    | some y =>
      rw [List.filterMap_cons_some found, List.cons.injEq, Option.some.injEq]

theorem filterMap_reread_iff (faithful : serde.Faithful records) :
    records.filterMap (reread serde) = records ↔ ∀ r ∈ records, r.req.finite = true := by
  rw [filterMap_eq_self_iff]
  constructor
  · intro back r member
    exact (faithful.fromStr_iff member).mp (back r member)
  · intro finite r member
    exact (faithful.fromStr_iff member).mpr (finite r member)

end ReadingBack

/-! ## Replaying -/

/-- What the replay loop has gathered from the records seen so far. -/
structure Replay.Gathered (checkpoint : Nat) (records : List JournalRecord) (state : Replay) :
    Prop where
  pending : state.pending = (records.filter fun r => checkpoint < r.seq).map JournalRecord.req
  seen : ∀ r ∈ records, r.seq ≤ state.lastSeq
  lastSeq : state.lastSeq = max checkpoint state.maxPendingSeq
  quiet : state.pending = [] → state.maxPendingSeq = 0

theorem Replay.Gathered.step {checkpoint : Nat} {records : List JournalRecord} {state : Replay}
    (gathered : state.Gathered checkpoint records) (r : JournalRecord) :
    (state.admitRecord checkpoint r).Gathered checkpoint (records ++ [r]) := by
  have last := gathered.lastSeq
  unfold Replay.admitRecord
  split
  case isTrue above =>
    refine ⟨?_, ?_, ?_, fun impossible => absurd impossible (by simp)⟩
    · simp [gathered.pending, above]
    · intro other member
      rcases List.mem_append.mp member with earlier | isNew
      · exact (gathered.seen other earlier).trans (le_max_left _ _)
      · rw [List.mem_singleton.mp isNew]
        exact le_max_right _ _
    · simp only [last]
      omega
  case isFalse low =>
    refine ⟨?_, ?_, ?_, gathered.quiet⟩
    · simp [gathered.pending, low]
    · intro other member
      rcases List.mem_append.mp member with earlier | isNew
      · exact (gathered.seen other earlier).trans (le_max_left _ _)
      · rw [List.mem_singleton.mp isNew]
        exact le_max_right _ _
    · simp only [last]
      omega

theorem gathered_foldl (checkpoint : Nat) (records : List JournalRecord) :
    (records.foldl (Replay.admitRecord checkpoint) ⟨checkpoint, [], 0⟩).Gathered checkpoint
      records := by
  induction records using List.reverseRecOn with
  | nil => exact ⟨rfl, by simp, (Nat.max_eq_left (Nat.zero_le _)).symm, fun _ => rfl⟩
  | append_singleton records r ih =>
    rw [List.foldl_concat]
    exact ih.step r

/-- A journal of finite requests is replayed whole. -/
theorem scanJournal_finite {serde : SerdeJson} {records : List JournalRecord}
    (faithful : serde.Faithful records) (finite : ∀ r ∈ records, r.req.finite = true)
    (checkpoint : Nat) :
    ∃ replay, scanJournal serde checkpoint (journalOf serde records) = .ok replay ∧
      replay.Gathered checkpoint records := by
  refine ⟨_, ?_, gathered_foldl checkpoint records⟩
  rw [scanJournal, readRecords_journalOf faithful, (filterMap_reread_iff faithful).mpr finite]
  rfl

/-! ### Three records -/

def sampleRecord (seq : Nat) (name : String) : JournalRecord :=
  ⟨seq, ⟨name, .fact, [], [], "test"⟩⟩

/-- A request that passes its checks, with a confidence that JSON cannot carry. -/
def sampleNan : RememberRequest where
  name := "gamma"
  entityType := .fact
  observations := [{ ObservationInput.new "note" with confidence := .nan }]
  relations := []
  source := "test"

def sampleText (seq name observations : String) : String :=
  "\x7b\"seq\":" ++ (seq ++ ",\"req\":\x7b\"name\":\"" ++ name ++ "\",\"entity_type\":\"fact\"," ++
    "\"observations\":[" ++ observations ++ "],\"relations\":[],\"source\":\"test\"\x7d") ++ "\x7d"

def sampleNanText : String :=
  sampleText "1" "gamma" ("\x7b\"content\":\"note\",\"confidence\":null,\"source\":\"\"," ++
    "\"valid_from\":null,\"valid_until\":null,\"memory_tier\":\"episodic\",\"title\":null," ++
    "\"summary\":null,\"importance\":null,\"source_kind\":null,\"concepts\":[]," ++
    "\"source_files\":[]\x7d")

/-- The library on three records: what it prints for them, and reads back. -/
def sampleSerde : SerdeJson where
  toString record :=
    if record = ⟨1, sampleNan⟩ then sampleNanText
    else if record = sampleRecord 1 "alpha" then sampleText "1" "alpha" ""
    else sampleText "2" "beta" ""
  fromStr text :=
    if text = sampleText "1" "alpha" "" then some (sampleRecord 1 "alpha")
    else if text = sampleText "2" "beta" "" then some (sampleRecord 2 "beta")
    else none

theorem sampleText_wellBracketed :
    Json.WellBracketed (utf8 (sampleText "1" "alpha" "")) ∧
      Json.WellBracketed (utf8 (sampleText "2" "beta" "")) := by
  decide

set_option maxRecDepth 8000 in
theorem sampleNanText_wellBracketed : Json.WellBracketed (utf8 sampleNanText) := by
  decide

theorem printable_of_ble {bytes : Bytes}
    (checked : (bytes.map UInt8.toNat).all (Nat.ble 0x20) = true) : ∀ b ∈ bytes, 0x20 ≤ b := by
  intro b member
  have one := List.all_eq_true.mp checked b.toNat (List.mem_map_of_mem member)
  exact UInt8.le_iff_toNat_le.mpr (Nat.le_of_ble_eq_true one)

set_option maxRecDepth 8000 in
/-- None of the three texts has a control character. -/
theorem sampleTexts_printable : ∀ text ∈ [sampleNanText, sampleText "1" "alpha" "",
    sampleText "2" "beta" ""], ∀ b ∈ utf8 text, 0x20 ≤ b := by
  intro text member
  apply printable_of_ble
  rcases List.mem_cons.mp member with rfl | member
  · decide
  · rcases List.mem_pair.mp member with rfl | rfl
    · decide
    · decide

theorem sampleSerde_toString (record : JournalRecord) :
    ∃ seq name observations, sampleSerde.toString record = sampleText seq name observations := by
  simp only [sampleSerde]
  split
  · exact ⟨_, _, _, rfl⟩
  · split
    · exact ⟨_, _, _, rfl⟩
    · exact ⟨_, _, _, rfl⟩

theorem sampleSerde_faithful :
    sampleSerde.Faithful [sampleRecord 1 "alpha", sampleRecord 2 "beta", ⟨1, sampleNan⟩] where
  opens := by
    intro r _
    obtain ⟨seq, name, observations, same⟩ := sampleSerde_toString r
    exact ⟨_, same.trans String.append_assoc⟩
  closes := by
    intro r _
    obtain ⟨seq, name, observations, same⟩ := sampleSerde_toString r
    exact ⟨_, same⟩
  escapes := by
    intro r _
    simp only [sampleSerde]
    split_ifs
    · exact sampleTexts_printable _ (by simp)
    · exact sampleTexts_printable _ (by simp)
    · exact sampleTexts_printable _ (by simp)
  printsJson := by
    intro r _
    simp only [sampleSerde]
    split_ifs
    · exact sampleNanText_wellBracketed
    · exact sampleText_wellBracketed.1
    · exact sampleText_wellBracketed.2
  parsesJson := by
    intro text r parsed
    simp only [sampleSerde] at parsed
    split_ifs at parsed with first second
    · exact first ▸ sampleText_wellBracketed.1
    · exact second ▸ sampleText_wellBracketed.2
  roundTrip := by
    decide
  lossy := by
    decide

end OpenMemory.Engine
