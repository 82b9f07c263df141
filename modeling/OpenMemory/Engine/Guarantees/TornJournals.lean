import OpenMemory.Engine.Journal

/-!
# Reading a journal that a crash cut short

A crash may cut a journal at any byte, and the restarted engine appends to what
is left of it. The cut falls between two lines, inside the text of a record, or
between a record and its newline (`Cut`).

Replay finds the complete records and everything appended later only when
nothing stands behind the last newline, or when nothing was appended and the
cut did not fall inside a character (`replay_reads_iff`). Otherwise the first
record appended is glued to the remains and lost with them, or the whole
journal is refused as not being text.
-/

namespace OpenMemory.Engine

open Foundation OpenMemory.Graph

variable {serde : SerdeJson} {written appended : List JournalRecord} {cut : Nat}

/-- The records whose whole text lies in front of the cut. -/
def completeBefore (serde : SerdeJson) : List JournalRecord → Nat → List JournalRecord
  | [], _ => []
  | r :: rest, cut =>
    let size := (utf8 (serde.toString r)).length
    if cut < size then [] else r :: completeBefore serde rest (cut - (size + 1))

/-- What a crash leaves of a journal. -/
def tornJournal (serde : SerdeJson) (written : List JournalRecord) (cut : Nat) : Bytes :=
  (journalOf serde written).take cut

theorem completeBefore_subset :
    ∀ {cut : Nat}, ∀ r ∈ completeBefore serde written cut, r ∈ written := by
  induction written with
  | nil =>
    intro cut r member
    cases member
  | cons first rest ih =>
    intro cut r member
    rw [completeBefore] at member
    split at member
    · cases member
    · rcases List.mem_cons.mp member with rfl | later
      · exact List.mem_cons_self
      · exact List.mem_cons_of_mem _ (ih r later)

/-! ## Where a cut falls -/

/-- The three places where a cut can fall. -/
inductive Cut (serde : SerdeJson) (written : List JournalRecord) (cut : Nat) : Prop where
  | between (whole : List JournalRecord)
      (left : tornJournal serde written cut = journalOf serde whole)
      (complete : completeBefore serde written cut = whole)
  | inside (whole : List JournalRecord) (r : JournalRecord) (tail lost : Bytes)
      (member : r ∈ written)
      (left : tornJournal serde written cut = journalOf serde whole ++ tail)
      (text : utf8 (serde.toString r) = tail ++ lost)
      (started : tail ≠ []) (unfinished : lost ≠ [])
      (complete : completeBefore serde written cut = whole)
  | unterminated (whole : List JournalRecord) (r : JournalRecord) (member : r ∈ written)
      (left : tornJournal serde written cut = journalOf serde whole ++ utf8 (serde.toString r))
      (complete : completeBefore serde written cut = whole ++ [r])

theorem take_line {text rest : Bytes} {cut : Nat} (long : text.length < cut) :
    (text ++ newline :: rest).take cut =
      text ++ newline :: rest.take (cut - (text.length + 1)) := by
  rw [List.take_append, List.take_of_length_le (by omega)]
  obtain ⟨more, amount⟩ : ∃ more, cut - text.length = more + 1 :=
    ⟨cut - text.length - 1, by omega⟩
  rw [amount, List.take_succ_cons]
  congr 3
  omega

theorem cut_cases (faithful : serde.Faithful written) : ∀ cut, Cut serde written cut := by
  induction written with
  | nil => exact fun cut => .between [] (by simp [tornJournal, journalOf]) rfl
  | cons r rest ih =>
    intro cut
    have member : r ∈ r :: rest := List.mem_cons_self
    have later := ih (faithful.mono fun s inRest => List.mem_cons_of_mem _ inRest)
    by_cases short : cut ≤ (utf8 (serde.toString r)).length
    · have left : tornJournal serde (r :: rest) cut = (utf8 (serde.toString r)).take cut := by
        rw [tornJournal, journalOf_cons, List.take_append_of_le_length short]
      by_cases whole : cut = (utf8 (serde.toString r)).length
      · refine .unterminated [] r member ?_ ?_
        · rw [left, whole, List.take_length]
          rfl
        · have stops : completeBefore serde rest 0 = [] := by
            cases rest with
            | nil => rfl
            | cons s others =>
              have solid := faithful.nonempty (List.mem_cons_of_mem r List.mem_cons_self)
              rw [completeBefore]
              exact if_pos (List.length_pos_of_ne_nil solid)
          simp [completeBefore, whole, stops]
      · have none_complete : completeBefore serde (r :: rest) cut = [] := by
          rw [completeBefore]
          exact if_pos (by omega)
        by_cases start : cut = 0
        · subst start
          exact .between [] (by simp [tornJournal, journalOf]) none_complete
        · refine .inside [] r ((utf8 (serde.toString r)).take cut)
            ((utf8 (serde.toString r)).drop cut) member left
            (List.take_append_drop _ _).symm ?_ ?_ none_complete
          · rw [← List.length_pos_iff, List.length_take]
            omega
          · rw [← List.length_pos_iff, List.length_drop]
            omega
    · rw [not_le] at short
      have left : tornJournal serde (r :: rest) cut = journalOf serde [r] ++
          tornJournal serde rest (cut - ((utf8 (serde.toString r)).length + 1)) := by
        rw [tornJournal, journalOf_cons, take_line short, journalOf_cons, tornJournal]
        simp [journalOf]
      have complete : completeBefore serde (r :: rest) cut = r ::
          completeBefore serde rest (cut - ((utf8 (serde.toString r)).length + 1)) := by
        rw [completeBefore]
        exact if_neg (by omega)
      have grow : ∀ whole, journalOf serde [r] ++ journalOf serde whole =
          journalOf serde (r :: whole) := by
        intro whole
        rw [← journalOf_append]
        rfl
      cases later (cut - ((utf8 (serde.toString r)).length + 1)) with
      | between whole leftLater completeLater =>
        refine .between (r :: whole) ?_ ?_
        · rw [left, leftLater, grow]
        · rw [complete, completeLater]
      | inside whole s tail lost inRest leftLater text started unfinished completeLater =>
        refine .inside (r :: whole) s tail lost (List.mem_cons_of_mem _ inRest) ?_ text started
          unfinished ?_
        · rw [left, leftLater, ← List.append_assoc, grow]
        · rw [complete, completeLater]
      | unterminated whole s inRest leftLater completeLater =>
        refine .unterminated (r :: whole) s (List.mem_cons_of_mem _ inRest) ?_ ?_
        · rw [left, leftLater, ← List.append_assoc, grow]
        · rw [complete, completeLater]
          rfl

/-! ## The remains of a line -/

variable {tail : Bytes} {whole : List JournalRecord} {r : JournalRecord}

/-- Remains that nothing was appended to are one line. -/
theorem readRecords_tail (oneLine : newline ∉ tail) (started : tail ≠ []) :
    readRecords serde tail = (fromLine serde tail).map Option.toList := by
  rw [readRecords, lines_of_not_mem oneLine started, readLines, readLines]
  cases fromLine serde tail with
  | error e => rfl
  | ok found => exact congrArg Except.ok (List.append_nil _)

/-- Remains with records appended: the first of these is on the same line. -/
theorem readRecords_glued {records : List JournalRecord} (faithful : serde.Faithful records)
    {first : JournalRecord} {rest : List JournalRecord} (shape : records = first :: rest)
    (oneLine : newline ∉ tail) : readRecords serde (tail ++ journalOf serde records) =
      (fromLine serde (tail ++ utf8 (serde.toString first))).map fun found =>
        found.toList ++ rest.filterMap (reread serde) := by
  subst shape
  have member : first ∈ first :: rest := List.mem_cons_self
  have split : tail ++ journalOf serde (first :: rest) =
      (tail ++ utf8 (serde.toString first)) ++ newline :: journalOf serde rest := by
    rw [journalOf_cons, List.append_assoc]
  have whole : newline ∉ tail ++ utf8 (serde.toString first) := by
    rw [List.mem_append, not_or]
    exact ⟨oneLine, faithful.oneLine member⟩
  have bare : stripReturn (tail ++ utf8 (serde.toString first)) =
      tail ++ utf8 (serde.toString first) := by
    rw [stripReturn, List.getLast?_append_of_ne_nil _ (faithful.nonempty member),
      faithful.ends member, if_neg (by decide)]
  have ofRest : serde.Faithful rest := faithful.mono fun s inRest => List.mem_cons_of_mem _ inRest
  have later := readRecords_journalOf ofRest
  unfold readRecords at later ⊢
  rw [split, lines_newline _ whole, bare, readLines, later]
  rfl

/-- A record appended to remains is lost: fewer records are read than there are. -/
theorem not_reads_of_glued {expected : Nat}
    (faithfulWhole : serde.Faithful whole) (faithful : serde.Faithful appended)
    (nonempty : appended ≠ []) (oneLine : newline ∉ tail)
    (broken : ∀ r ∈ appended, ¬ Json.WellBracketed (tail ++ utf8 (serde.toString r)))
    (many : whole.length ≤ expected) {found : List JournalRecord}
    (reads : readRecords serde (journalOf serde whole ++ (tail ++ journalOf serde appended)) =
      .ok found) : found.length < expected + appended.length := by
  obtain ⟨first, rest, shape⟩ := List.exists_cons_of_ne_nil nonempty
  rw [readRecords_journal faithfulWhole, readRecords_glued faithful shape oneLine] at reads
  cases line : fromLine serde (tail ++ utf8 (serde.toString first)) with
  | error e =>
    rw [line] at reads
    cases reads
  | ok record =>
    have unread : record = none :=
      faithful.fromLine_of_not_wellBracketed (broken first (by simp [shape])) line
    rw [line, unread] at reads
    cases reads
    have some_whole := List.length_filterMap_le (reread serde) whole
    have some_rest := List.length_filterMap_le (reread serde) rest
    simp only [shape, List.length_append, List.length_cons, Option.toList_none, List.length_nil]
    omega

/-- Whether remains are text decides whether their line can be read. -/
theorem fromLine_eq_error_iff (serde : SerdeJson) (line : Bytes) :
    (fromLine serde line).toOption = none ↔ fromUtf8 line = none := by
  cases decoded : fromUtf8 line with
  | none =>
    unfold fromLine
    rw [decoded]
    exact ⟨fun _ => rfl, fun _ => rfl⟩
  | some text =>
    rw [fromLine_of_text decoded]
    constructor
    · intro failed
      split at failed <;> cases failed
    · intro impossible
      cases impossible

/-! ## The guarantee -/

/-- What a reader should find, and when it does. -/
def ReadsBack (serde : SerdeJson) (written appended : List JournalRecord) (cut : Nat) : Prop :=
  readRecords serde (tornJournal serde written cut ++ journalOf serde appended) =
    .ok (completeBefore serde written cut ++ appended)

/-- Nothing stands behind the last newline, or what does was left alone and is text. -/
def CleanCut (serde : SerdeJson) (written appended : List JournalRecord) (cut : Nat) : Prop :=
  tornTail (tornJournal serde written cut) = [] ∨
    appended = [] ∧ (fromUtf8 (tornTail (tornJournal serde written cut))).isSome

/-- Records appended to remains are not all read. -/
theorem not_readsBack_of_glued (ofWritten : serde.Faithful written)
    (ofAppended : serde.Faithful appended) {lost : Bytes}
    (subset : ∀ s ∈ whole, s ∈ written) (member : r ∈ written)
    (left : tornJournal serde written cut = journalOf serde whole ++ tail)
    (text : utf8 (serde.toString r) = tail ++ lost) (started : tail ≠ [])
    (many : whole.length ≤ (completeBefore serde written cut).length) (nonempty : appended ≠ []) :
    ¬ ReadsBack serde written appended cut := by
  intro reads
  have object : Json.IsObject (tail ++ lost) := text ▸ ofWritten.isObject member
  have oneLine : newline ∉ tail := by
    intro inTail
    exact ofWritten.oneLine member (text ▸ List.mem_append_left lost inTail)
  have broken : ∀ s ∈ appended, ¬ Json.WellBracketed (tail ++ utf8 (serde.toString s)) := by
    intro s inAppended
    obtain ⟨rest, opens⟩ := ofAppended.starts inAppended
    exact Json.torn_glued object started opens (ofAppended.printsJson s inAppended)
  rw [ReadsBack, left, List.append_assoc] at reads
  have short := not_reads_of_glued (ofWritten.mono subset) ofAppended nonempty oneLine broken many
    reads
  rw [List.length_append] at short
  omega

theorem readsBack_between (both : serde.Faithful (completeBefore serde written cut ++ appended))
    (left : tornJournal serde written cut = journalOf serde (completeBefore serde written cut)) :
    ReadsBack serde written appended cut ↔
      ∀ r ∈ completeBefore serde written cut ++ appended, r.req.finite = true := by
  rw [ReadsBack, left, ← journalOf_append, readRecords_journalOf both, Except.ok.injEq,
    filterMap_reread_iff both]

/-- Inside a record, with nothing appended. -/
theorem readsBack_inside (ofWritten : serde.Faithful written) {lost : Bytes} (member : r ∈ written)
    (left : tornJournal serde written cut =
      journalOf serde (completeBefore serde written cut) ++ tail)
    (text : utf8 (serde.toString r) = tail ++ lost) (started : tail ≠ []) (unfinished : lost ≠ []) :
    ReadsBack serde written [] cut ↔
      (∀ r ∈ completeBefore serde written cut, r.req.finite = true) ∧ (fromUtf8 tail).isSome := by
  have ofComplete : serde.Faithful (completeBefore serde written cut) :=
    ofWritten.mono completeBefore_subset
  have object : Json.IsObject (tail ++ lost) := text ▸ ofWritten.isObject member
  have refused : ¬ Json.WellBracketed tail := Json.torn_refused object started unfinished
  have oneLine : newline ∉ tail := by
    intro inTail
    exact ofWritten.oneLine member (text ▸ List.mem_append_left lost inTail)
  have decodes := fromLine_eq_error_iff serde tail
  simp only [ReadsBack, left, journalOf, List.foldl_nil, List.append_nil]
  change readRecords serde (journalOf serde _ ++ tail) = _ ↔ _
  rw [readRecords_journal ofComplete, readRecords_tail oneLine started]
  cases line : fromLine serde tail with
  | error e =>
    have noText : fromUtf8 tail = none := decodes.mp (by rw [line]; rfl)
    rw [noText]
    constructor
    · intro impossible
      cases impossible
    · rintro ⟨_, impossible⟩
      cases impossible
  | ok found =>
    have isText : (fromUtf8 tail).isSome = true := by
      rw [Option.isSome_iff_ne_none]
      intro noText
      have failed := decodes.mpr noText
      rw [line] at failed
      cases failed
    rw [ofWritten.fromLine_of_not_wellBracketed refused line, isText]
    change Except.ok (_ ++ []) = _ ↔ _
    rw [List.append_nil, Except.ok.injEq, filterMap_reread_iff ofComplete]
    simp

/-- Between a record and its newline, with nothing appended. -/
theorem readsBack_unterminated (ofWritten : serde.Faithful written) (member : r ∈ written)
    (left : tornJournal serde written cut = journalOf serde whole ++ utf8 (serde.toString r))
    (complete : completeBefore serde written cut = whole ++ [r]) : ReadsBack serde written [] cut ↔
      ∀ r ∈ completeBefore serde written cut, r.req.finite = true := by
  have ofComplete : serde.Faithful (completeBefore serde written cut) :=
    ofWritten.mono completeBefore_subset
  rw [complete] at ofComplete
  have ofWhole : serde.Faithful whole := ofComplete.mono (by simp +contextual)
  simp only [ReadsBack, left, complete, journalOf, List.foldl_nil, List.append_nil]
  change readRecords serde (journalOf serde _ ++ _) = _ ↔ _
  rw [readRecords_journal ofWhole,
    readRecords_tail (ofWritten.oneLine member) (ofWritten.nonempty member),
    ofWritten.fromLine_record member, ← filterMap_reread_iff ofComplete, List.filterMap_append,
    toList_reread]
  simp [Except.map]

/-- **When a torn journal loses nothing.** After a crash at any byte, replay
reads the complete records and all records appended later if and only if their
numbers are finite and either the journal ended with a newline, or nothing was
appended to what stood behind the last one and that is text. -/
theorem replay_reads_iff (serde : SerdeJson) (written appended : List JournalRecord) (cut : Nat)
    (faithful : serde.Faithful (written ++ appended)) :
    ReadsBack serde written appended cut ↔
      (∀ r ∈ completeBefore serde written cut ++ appended, r.req.finite = true) ∧
        CleanCut serde written appended cut := by
  have ofWritten : serde.Faithful written := faithful.mono (by simp +contextual)
  have ofAppended : serde.Faithful appended := faithful.mono (by simp +contextual)
  cases cut_cases ofWritten cut with
  | between whole left complete =>
    subst complete
    have both : serde.Faithful (completeBefore serde written cut ++ appended) :=
      faithful.mono fun r member => by
        rcases List.mem_append.mp member with early | late
        · exact List.mem_append_left _ (completeBefore_subset r early)
        · exact List.mem_append_right _ late
    have clean : CleanCut serde written appended cut := by
      left
      rw [left]
      have noTail : tornTail (journalOf serde (completeBefore serde written cut) ++ []) = [] :=
        tornTail_append List.not_mem_nil (getLast?_journalOf serde _)
      rwa [List.append_nil] at noTail
    rw [readsBack_between both left]
    exact ⟨fun finite => ⟨finite, clean⟩, And.left⟩
  | inside whole r tail lost member left text started unfinished complete =>
    subst complete
    have oneLine : newline ∉ tail := by
      intro inTail
      exact ofWritten.oneLine member (text ▸ List.mem_append_left lost inTail)
    have isTail : tornTail (tornJournal serde written cut) = tail := by
      rw [left]
      exact tornTail_append oneLine (getLast?_journalOf serde _)
    rw [CleanCut, isTail]
    by_cases nothing : appended = []
    · subst nothing
      rw [readsBack_inside ofWritten member left text started unfinished]
      simp [started]
    · have glued := not_readsBack_of_glued ofWritten ofAppended completeBefore_subset member left
        text started le_rfl nothing
      simp [glued, started, nothing]
  | unterminated whole r member left complete =>
    have started := ofWritten.nonempty member
    have isTail : tornTail (tornJournal serde written cut) = utf8 (serde.toString r) := by
      rw [left]
      exact tornTail_append (ofWritten.oneLine member) (getLast?_journalOf serde whole)
    rw [CleanCut, isTail]
    by_cases nothing : appended = []
    · subst nothing
      rw [readsBack_unterminated ofWritten member left complete]
      simp
    · have subset : ∀ s ∈ whole, s ∈ written := by
        intro s inWhole
        exact completeBefore_subset s (complete ▸ List.mem_append_left _ inWhole)
      have glued := not_readsBack_of_glued ofWritten ofAppended subset member left
        (List.append_nil _).symm started (by simp [complete]) nothing
      simp [glued, started, nothing]

/-- A journal cut behind its first line, with the second record appended again. -/
theorem sample_reads_iff :
    ReadsBack sampleSerde [sampleRecord 1 "alpha"] [sampleRecord 2 "beta"] 200 ↔
      (∀ r ∈ completeBefore sampleSerde [sampleRecord 1 "alpha"] 200 ++ [sampleRecord 2 "beta"],
          r.req.finite = true) ∧
        CleanCut sampleSerde [sampleRecord 1 "alpha"] [sampleRecord 2 "beta"] 200 :=
  replay_reads_iff sampleSerde [sampleRecord 1 "alpha"] [sampleRecord 2 "beta"] 200
    (sampleSerde_faithful.mono (by simp))

/-- A record cut in the middle swallows the record that is appended behind it. -/
theorem sample_not_reads :
    ¬ ReadsBack sampleSerde [sampleRecord 1 "alpha"] [sampleRecord 2 "beta"] 24 := by
  have first : sampleSerde.Faithful [sampleRecord 1 "alpha"] :=
    sampleSerde_faithful.mono (by simp)
  have second : sampleSerde.Faithful [sampleRecord 2 "beta"] :=
    sampleSerde_faithful.mono (by simp)
  have text := (List.take_append_drop 24 (utf8 (sampleText "1" "alpha" ""))).symm
  have left : tornJournal sampleSerde [sampleRecord 1 "alpha"] 24 =
      journalOf sampleSerde [] ++ (utf8 (sampleText "1" "alpha" "")).take 24 := by
    decide
  exact not_readsBack_of_glued first second (by simp) (List.mem_singleton_self _) left text
    (by decide) (Nat.zero_le _) (List.cons_ne_nil _ _)

end OpenMemory.Engine
