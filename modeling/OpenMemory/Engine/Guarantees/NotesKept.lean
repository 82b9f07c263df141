import OpenMemory.Engine.Adapters
import OpenMemory.Graph.Guarantees.AuditBounds

/-!
# Notes and exports that are ingested

Every line of a note that is not blank, but for the first level-one heading, the level-two
headings and the lines of attendees, is owed to the observation of its section. The parser
drops every level-one heading, and panics on a line whose eleventh byte continues a
character. An ingestion also panics on what the engine refuses: a note without a name, and
a message without a user, unless a line of its batch cannot be read.
-/

namespace OpenMemory.Engine

open Foundation OpenMemory.Graph

/-! ## Slices -/

def bytesOf (chars : List Char) : Nat := (chars.map Char.utf8Size).sum

theorem bytesOf_cons (c : Char) (rest : List Char) :
    bytesOf (c :: rest) = c.utf8Size + bytesOf rest := by
  rw [bytesOf, List.map_cons, List.sum_cons, bytesOf]

theorem bytesOf_eq_zero {chars : List Char} : bytesOf chars = 0 ↔ chars = [] := by
  cases chars with
  | nil => exact ⟨fun _ => rfl, fun _ => rfl⟩
  | cons c rest =>
    have positive := c.utf8Size_pos
    rw [bytesOf_cons]
    exact ⟨fun none_ => by omega, fun impossible => by cases impossible⟩

theorem utf8ByteSize_ofList (chars : List Char) :
    (String.ofList chars).utf8ByteSize = bytesOf chars := by
  induction chars with
  | nil => rfl
  | cons c rest ih =>
    have split : String.ofList (c :: rest) = String.singleton c ++ String.ofList rest := by simp
    rw [split, String.utf8ByteSize_append, String.utf8ByteSize_singleton, ih, bytesOf_cons]

theorem length_le_bytesOf (chars : List Char) : chars.length ≤ bytesOf chars := by
  induction chars with
  | nil => exact Nat.le_refl _
  | cons c rest ih =>
    have positive := c.utf8Size_pos
    rw [List.length_cons, bytesOf_cons]
    omega

theorem bytesOf_toList (value : String) : bytesOf value.toList = value.utf8ByteSize := by
  rw [← utf8ByteSize_ofList, String.ofList_toList]

/-- A slice succeeds exactly where a beginning of the text has so many bytes. -/
theorem splitAtByte_eq_some {index : Nat} {chars front back : List Char} :
    splitAtByte index chars = some (front, back) ↔ chars = front ++ back ∧ bytesOf front = index := by
  induction chars generalizing index front back with
  | nil =>
    unfold splitAtByte
    rw [List.nil_eq, List.append_eq_nil_iff]
    split
    next zero =>
      rw [Option.some.injEq, Prod.mk.injEq, eq_comm, @eq_comm _ [] back]
      exact ⟨fun same => ⟨same, by rw [same.1, zero]; rfl⟩, fun same => same.1⟩
    next positive =>
      refine ⟨fun impossible => (nomatch impossible), fun ⟨⟨none_, _⟩, same⟩ => ?_⟩
      subst none_
      exact absurd same.symm positive
  | cons c rest ih =>
    have positive := c.utf8Size_pos
    unfold splitAtByte
    by_cases zero : index = 0
    · rw [if_pos zero, zero, bytesOf_eq_zero, Option.some.injEq, Prod.mk.injEq]
      constructor
      · rintro ⟨rfl, rfl⟩
        exact ⟨rfl, rfl⟩
      · rintro ⟨same, rfl⟩
        exact ⟨rfl, same⟩
    · rw [if_neg zero]
      split
      next fits =>
        rw [Option.map_eq_some_iff]
        constructor
        · rintro ⟨⟨first, last⟩, found, same⟩
          obtain ⟨rfl, size⟩ := ih.mp found
          cases same
          exact ⟨rfl, by rw [bytesOf_cons]; omega⟩
        · rintro ⟨same, size⟩
          cases front with
          | nil => exact absurd size.symm zero
          | cons first others =>
            cases same
            rw [bytesOf_cons] at size
            exact ⟨(others, back), ih.mpr ⟨rfl, by omega⟩, rfl⟩
      next large =>
        refine ⟨fun impossible => (nomatch impossible), fun ⟨same, size⟩ => ?_⟩
        cases front with
        | nil => exact absurd size.symm zero
        | cons first others =>
          cases same
          rw [bytesOf_cons] at size
          omega

/-- Beginnings of one text with as many bytes are the same. -/
theorem front_unique {first second back behind : List Char}
    (same : first ++ back = second ++ behind) (size : bytesOf first = bytesOf second) :
    first = second := by
  induction first generalizing second with
  | nil => exact (bytesOf_eq_zero.mp size.symm).symm
  | cons c rest ih =>
    cases second with
    | nil => exact absurd (bytesOf_eq_zero.mp size) (List.cons_ne_nil c rest)
    | cons d others =>
      obtain ⟨rfl, tail⟩ := List.cons.inj same
      rw [bytesOf_cons, bytesOf_cons] at size
      rw [ih tail (by omega)]

theorem utf8Size_toLower (c : Char) : c.toLower.utf8Size = c.utf8Size := by
  unfold Char.toLower
  split
  next upper =>
    have least : 65 ≤ c.toNat := UInt32.le_iff_toNat_le.mp upper.1
    have most : c.toNat ≤ 90 := UInt32.le_iff_toNat_le.mp upper.2
    have small : c.utf8Size = 1 :=
      Char.utf8Size_eq_one_iff.mpr (UInt32.le_iff_toNat_le.mpr (Nat.le_trans most (by decide)))
    rw [small]
    refine Char.utf8Size_eq_one_iff.mpr (UInt32.le_iff_toNat_le.mpr ?_)
    rw [UInt32.toNat_add]
    change (c.toNat + 32) % 2 ^ 32 ≤ 127
    omega
  next => rfl

theorem bytesOf_toLower (chars : List Char) : bytesOf (chars.map Char.toLower) = bytesOf chars := by
  rw [bytesOf, List.map_map, bytesOf]
  exact congrArg _ (List.map_congr_left fun c _ => utf8Size_toLower c)

/-! ## Lines of a note -/

inductive NoteLine where
  | heading (name : String)
  | section_ (title : String)
  | attendees (names : List String)
  | body

def attendeesLead : List Char := "attendees:".toList

def noteLine (line : String) : NoteLine :=
  match stripPrefix "# " (trim line) with
  | some name => .heading (trim name)
  | none =>
    match stripPrefix "## " (trim line) with
    | some title => .section_ (trim title)
    | none =>
      if ((trim line).toList.take 10).map Char.toLower = attendeesLead then
        .attendees (attendeesOf (String.ofList ((trim line).toList.drop 10)))
      else .body

/-- The text has ten bytes or more, and no beginning of it has ten bytes. -/
def Hanging (s : String) : Prop :=
  10 ≤ s.utf8ByteSize ∧ ∀ count < 11, bytesOf (s.toList.take count) ≠ 10

instance (s : String) : Decidable (Hanging s) := inferInstanceAs (Decidable (_ ∧ _))

/-- The line is no heading, and hangs over its tenth byte. -/
def Severed (line : String) : Prop :=
  stripPrefix "# " (trim line) = none ∧ stripPrefix "## " (trim line) = none ∧ Hanging (trim line)

instance (line : String) : Decidable (Severed line) := inferInstanceAs (Decidable (_ ∧ _ ∧ _))

theorem bytesOf_of_lead {front : List Char} (same : front.map Char.toLower = attendeesLead) :
    front.length = 10 ∧ bytesOf front = 10 := by
  refine ⟨?_, ?_⟩
  · rw [← List.length_map Char.toLower, same]
    decide
  · rw [← bytesOf_toLower, same]
    decide

/-- The line of attendees is found by its first ten bytes or by its first ten characters. -/
theorem stripPrefixCi_attendees (s : String) :
    stripPrefixCi s "attendees:" =
      if Hanging s then .error (.charBoundary s 10)
      else .ok (if (s.toList.take 10).map Char.toLower = attendeesLead then
        some (String.ofList (s.toList.drop 10)) else none) := by
  have ten : "attendees:".utf8ByteSize = 10 := by decide
  unfold stripPrefixCi
  rw [ten]
  by_cases long : 10 ≤ s.utf8ByteSize
  · rw [if_pos long]
    cases found : splitAtByte 10 s.toList with
    | none =>
      refine (if_pos ⟨long, fun count _ size => ?_⟩).symm
      have split := (List.take_append_drop count s.toList).symm
      rw [splitAtByte_eq_some.mpr ⟨split, size⟩] at found
      cases found
    | some parts =>
      obtain ⟨front, back⟩ := parts
      obtain ⟨split, size⟩ := splitAtByte_eq_some.mp found
      have short : front.length < 11 := Nat.lt_succ_of_le (size ▸ length_le_bytesOf front)
      rw [if_neg fun cut => cut.2 front.length short (by rw [split, List.take_left' rfl, size])]
      dsimp only
      by_cases lead : front.map Char.toLower = attendeesLead
      · have length := (bytesOf_of_lead lead).1
        rw [split, List.take_left' length, List.drop_left' length, if_pos lead]
        exact congrArg Except.ok (if_pos lead)
      · rw [if_neg (c := (s.toList.take 10).map Char.toLower = attendeesLead)]
        · exact congrArg Except.ok (if_neg lead)
        · intro other
          have same : front ++ back = s.toList.take 10 ++ s.toList.drop 10 := by
            rw [← split, List.take_append_drop]
          rw [← front_unique same (size.trans (bytesOf_of_lead other).2.symm)] at other
          exact lead other
  · rw [if_neg long, if_neg fun cut => long cut.1, if_neg fun other => long ?_]
    rw [← (bytesOf_of_lead other).2, ← bytesOf_toList]
    conv_rhs => rw [← List.take_append_drop 10 s.toList, bytesOf, List.map_append, List.sum_append]
    exact Nat.le_add_right _ _

/-- What a line does to the loop, if the loop goes on. -/
def NoteState.after (state : NoteState) (line : String) : NoteState :=
  match noteLine line with
  | .heading name => { state with entityName := state.entityName.or (some name) }
  | .section_ title =>
    { state with closed := state.closed ++ [state.current], current := ⟨some title, []⟩ }
  | .attendees names => { state with attendees := state.attendees ++ names }
  | .body =>
    let lines := state.current.lines ++ [line]
    { state with current := { state.current with lines } }

/-- A line panics exactly where it is cut. -/
theorem NoteState.line_eq (state : NoteState) (line : String) :
    state.line line =
      if Severed line then .error (.charBoundary (trim line) 10) else .ok (state.after line) := by
  unfold NoteState.line NoteState.after noteLine
  dsimp only
  cases first : stripPrefix "# " (trim line) with
  | some name => rw [if_neg fun cut : Severed line => Option.some_ne_none name (first.symm.trans cut.1)]
  | none =>
    cases second : stripPrefix "## " (trim line) with
    | some title => rw [if_neg fun cut : Severed line => Option.some_ne_none title (second.symm.trans cut.2.1)]
    | none =>
      dsimp only
      rw [stripPrefixCi_attendees]
      by_cases hangs : Hanging (trim line)
      · rw [if_pos hangs, if_pos (show Severed line from ⟨first, second, hangs⟩)]
        rfl
      · rw [if_neg hangs, if_neg fun cut : Severed line => hangs cut.2.2]
        by_cases lead : ((trim line).toList.take 10).map Char.toLower = attendeesLead
        · rw [if_pos lead, if_pos lead]
          rfl
        · rw [if_neg lead, if_neg lead]
          rfl

theorem foldlM_line (state : NoteState) {lines : List String} (uncut : ∀ line ∈ lines, ¬ Severed line) :
    lines.foldlM NoteState.line state = .ok (lines.foldl NoteState.after state) := by
  induction lines generalizing state with
  | nil => rfl
  | cons line rest ih =>
    rw [List.foldlM_cons, state.line_eq, if_neg (uncut line List.mem_cons_self), List.foldl_cons]
    exact ih _ (List.forall_mem_cons.mp uncut).2

/-- The loop goes through exactly where no line is cut. -/
theorem uncut_of_foldlM {state after : NoteState} {lines : List String}
    (through : lines.foldlM NoteState.line state = .ok after) : ∀ line ∈ lines, ¬ Severed line := by
  induction lines generalizing state with
  | nil => exact List.forall_mem_nil _
  | cons line rest ih =>
    rw [List.foldlM_cons, state.line_eq] at through
    split at through
    next => cases through
    next here =>
      intro other member
      rcases List.mem_cons.mp member with rfl | later
      · exact here
      · exact ih through other later

/-! ## Sections -/

namespace NoteSection

def push (section_ : NoteSection) (line : String) : NoteSection :=
  { section_ with lines := section_.lines ++ [line] }

/-- What a section has to tell: its title, and the lines that are not blank. -/
def told (section_ : NoteSection) : Option (Option String × List String) :=
  if solidLines section_.lines = [] then none
  else some (section_.title, solidLines section_.lines)

/-- How many lines are told. -/
def count (section_ : NoteSection) : Nat := (solidLines section_.lines).length

end NoteSection

/-- The sections that are owed: a level-two heading begins the next one, and every other
line belongs to the current one, except for attendees and the first level-one heading. -/
def owedSections (named : Bool) (current : NoteSection) : List String → List NoteSection
  | [] => [current]
  | line :: rest =>
    match noteLine line with
    | .heading _ =>
      if named then owedSections true (current.push line) rest
      else owedSections true current rest
    | .section_ title => current :: owedSections named ⟨some title, []⟩ rest
    | .attendees _ => owedSections named current rest
    | .body => owedSections named (current.push line) rest

/-- The sections that the parser makes: it drops every level-one heading. -/
def keptSections (current : NoteSection) : List String → List NoteSection
  | [] => [current]
  | line :: rest =>
    match noteLine line with
    | .heading _ => keptSections current rest
    | .section_ title => current :: keptSections ⟨some title, []⟩ rest
    | .attendees _ => keptSections current rest
    | .body => keptSections (current.push line) rest

section Equations

variable {named : Bool} {current : NoteSection} {line : String} {rest : List String}

theorem owedSections_nil : owedSections named current [] = [current] := rfl

theorem owedSections_cons : owedSections named current (line :: rest) =
    match noteLine line with
    | .heading _ =>
      if named then owedSections true (current.push line) rest
      else owedSections true current rest
    | .section_ title => current :: owedSections named ⟨some title, []⟩ rest
    | .attendees _ => owedSections named current rest
    | .body => owedSections named (current.push line) rest := rfl

theorem keptSections_nil : keptSections current [] = [current] := rfl

theorem keptSections_cons : keptSections current (line :: rest) =
    match noteLine line with
    | .heading _ => keptSections current rest
    | .section_ title => current :: keptSections ⟨some title, []⟩ rest
    | .attendees _ => keptSections current rest
    | .body => keptSections (current.push line) rest := rfl

end Equations

theorem sections_foldl (state : NoteState) (lines : List String) :
    (lines.foldl NoteState.after state).sections =
      state.closed ++ keptSections state.current lines := by
  induction lines generalizing state with
  | nil => rfl
  | cons line rest ih =>
    rw [List.foldl_cons, ih, keptSections_cons]
    unfold NoteState.after
    cases noteLine line with
    | heading name => rfl
    | section_ title => exact List.append_assoc _ _ _
    | attendees names => rfl
    | body => rfl

def headings (lines : List String) : Nat :=
  lines.countP fun line => (stripPrefix "# " (trim line)).isSome

theorem headings_cons (line : String) (rest : List String) :
    headings (line :: rest) =
      headings rest + if (stripPrefix "# " (trim line)).isSome then 1 else 0 :=
  List.countP_cons ..

variable {line text name value rest : String} {path : NotePath} {lines : List (MemoryResult String)}
  {msg : ChatMessage}

theorem isSome_of_heading (heading : noteLine line = .heading name) :
    (stripPrefix "# " (trim line)).isSome = true := by
  unfold noteLine at heading
  split at heading
  next found => rw [found]; rfl
  next =>
    split at heading
    · cases heading
    · split at heading <;> cases heading

theorem not_isSome_of_other (other : ∀ name, noteLine line ≠ .heading name) :
    ¬ (stripPrefix "# " (trim line)).isSome = true := by
  intro found
  obtain ⟨name, same⟩ := Option.isSome_iff_exists.mp found
  refine other (trim name) ?_
  unfold noteLine
  rw [same]

theorem count_push (section_ : NoteSection) (line : String) :
    (section_.push line).count = section_.count + (solidLines [line]).length := by
  unfold NoteSection.count NoteSection.push solidLines
  rw [List.map_append, List.filter_append, List.length_append]

/-- A level-one heading is no blank line. -/
theorem solidLines_heading (heading : noteLine line = .heading name) :
    (solidLines [line]).length = 1 := by
  have solid : (!(trim line).isEmpty) = true := by
    rw [Bool.not_eq_true', Bool.eq_false_iff]
    intro nothing
    have found := isSome_of_heading heading
    rw [String.isEmpty_iff.mp nothing] at found
    exact absurd found (by decide)
  unfold solidLines
  rw [List.map_singleton, List.filter_cons, if_pos solid]
  rfl

/-- How many lines a list of sections tells. -/
def counted (sections : List NoteSection) : Nat := (sections.map NoteSection.count).sum

theorem counted_cons (section_ : NoteSection) (rest : List NoteSection) :
    counted (section_ :: rest) = section_.count + counted rest := by
  rw [counted, List.map_cons, List.sum_cons, counted]

/-- The current section counts apart from the lines that follow. -/
theorem counted_kept (current : NoteSection) (lines : List String) :
    counted (keptSections current lines) =
      current.count + counted (keptSections ⟨none, []⟩ lines) := by
  have nothing (title : Option String) : NoteSection.count ⟨title, []⟩ = 0 := rfl
  induction lines generalizing current with
  | nil => rw [keptSections_nil, keptSections_nil, counted_cons, counted_cons, nothing, Nat.zero_add]
  | cons line rest ih =>
    rw [keptSections_cons, keptSections_cons]
    cases noteLine line with
    | heading name => exact ih current
    | section_ title =>
      dsimp only
      rw [counted_cons, counted_cons, nothing, Nat.zero_add]
    | attendees names => exact ih current
    | body =>
      dsimp only
      rw [ih, ih (NoteSection.push _ _), count_push, count_push, nothing]
      omega

/-- What is owed beyond what is kept are the level-one headings behind the first. -/
theorem counted_owed (named : Bool) (current : NoteSection) (lines : List String) :
    counted (owedSections named current lines) =
      counted (keptSections current lines) + (headings lines - if named then 0 else 1) := by
  induction lines generalizing named current with
  | nil => rw [owedSections_nil, keptSections_nil, headings, List.countP_nil, Nat.zero_sub, Nat.add_zero]
  | cons line rest ih =>
    rw [headings_cons]
    rw [owedSections_cons, keptSections_cons]
    cases kind : noteLine line with
    | heading name =>
      rw [if_pos (isSome_of_heading kind)]
      dsimp only
      cases named with
      | true =>
        rw [if_pos rfl, ih, counted_kept (current.push line), count_push,
          solidLines_heading kind, counted_kept current]
        simp only [if_true]
        omega
      | false =>
        rw [if_neg Bool.false_ne_true, ih]
        simp
    | section_ title =>
      rw [if_neg (not_isSome_of_other fun name other => by rw [kind] at other; cases other)]
      dsimp only
      rw [counted_cons, counted_cons, ih, Nat.add_assoc, Nat.add_zero]
    | attendees names =>
      rw [if_neg (not_isSome_of_other fun name other => by rw [kind] at other; cases other)]
      exact ih named current
    | body =>
      rw [if_neg (not_isSome_of_other fun name other => by rw [kind] at other; cases other)]
      exact ih named _

/-- Without a second level-one heading, what is owed is kept. -/
theorem owed_eq_kept (named : Bool) (current : NoteSection) (lines : List String)
    (few : headings lines ≤ if named then 0 else 1) :
    owedSections named current lines = keptSections current lines := by
  induction lines generalizing named current with
  | nil => rfl
  | cons line rest ih =>
    rw [headings_cons] at few
    rw [owedSections_cons, keptSections_cons]
    cases kind : noteLine line with
    | heading name =>
      rw [if_pos (isSome_of_heading kind)] at few
      dsimp only
      cases named with
      | true => exact absurd few (by simp)
      | false => exact ih true current (by simpa using few)
    | section_ title =>
      exact congrArg _ (ih named _ (by omega))
    | attendees names => exact ih named current (by omega)
    | body => exact ih named _ (by omega)

theorem mem_of_keptSections {current section_ : NoteSection} {lines : List String}
    (made : section_ ∈ keptSections current lines) (inside : line ∈ section_.lines) :
    line ∈ current.lines ∨ line ∈ lines := by
  induction lines generalizing current with
  | nil =>
    rw [keptSections_nil, List.mem_singleton] at made
    exact .inl (made ▸ inside)
  | cons next rest ih =>
    have later {before : NoteSection} (made : section_ ∈ keptSections before rest)
        (from_ : ∀ other ∈ before.lines, other ∈ current.lines ∨ other ∈ next :: rest) :
        line ∈ current.lines ∨ line ∈ next :: rest := by
      rcases ih made with before | after
      · exact from_ line before
      · exact .inr (List.mem_cons_of_mem _ after)
    rw [keptSections_cons] at made
    cases kind : noteLine next with
    | heading name =>
      rw [kind] at made
      exact later made fun other member => .inl member
    | section_ title =>
      rw [kind] at made
      rcases List.mem_cons.mp made with rfl | made
      · exact .inl inside
      · exact later made fun other member => (List.not_mem_nil member).elim
    | attendees names =>
      rw [kind] at made
      exact later made fun other member => .inl member
    | body =>
      rw [kind] at made
      refine later made fun other member => ?_
      rcases List.mem_append.mp member with before | here
      · exact .inl before
      · exact .inr (List.mem_singleton.mp here ▸ List.mem_cons_self)

/-! ## Observations -/

/-- What an observation tells. -/
def tells (observation : ObservationInput) : Option String × List String :=
  (observation.title, solidLines (textLines observation.content))

/-- What the observations of a note tell, in order. -/
def toldBy : Option RememberRequest → List (Option String × List String)
  | none => []
  | some request => request.observations.map tells

theorem observation_tells {section_ : NoteSection} (filePath : String)
    (whole : ∀ line ∈ section_.lines, '\n' ∉ line.toList) :
    (section_.observation filePath).map tells = section_.told := by
  have joined := solidLines_joined whole
  unfold NoteSection.observation NoteSection.told
  dsimp only
  by_cases nothing : solidLines section_.lines = []
  · rw [if_pos nothing, if_pos (solidLines_eq_nil.mp (joined.trans nothing))]
    rfl
  · have solid : trim ("\n".intercalate section_.lines) ≠ "" := fun empty =>
      nothing (joined.symm.trans (solidLines_eq_nil.mpr empty))
    rw [if_neg nothing, if_neg solid]
    change some (section_.title,
      solidLines (textLines (trim ("\n".intercalate section_.lines)))) = _
    rw [solidLines_trim, joined]

theorem newline_notMem_textLines (member : line ∈ textLines text) : '\n' ∉ line.toList := by
  obtain ⟨chars, inside, rfl⟩ := List.mem_map.mp member
  rw [String.toList_ofList]
  exact newline_notMem_linesOf List.not_mem_nil inside

/-- The state of the loop behind the last line. -/
def noteEnd (text : String) : NoteState := (textLines text).foldl NoteState.after .initial

theorem sections_noteEnd (text : String) :
    (noteEnd text).sections = keptSections ⟨none, []⟩ (textLines text) :=
  (sections_foldl .initial _).trans (List.nil_append _)

/-- The request of a note, from the state of the loop. -/
def noteRequest (path : NotePath) (state : NoteState) : Option RememberRequest :=
  let observations := state.sections.filterMap (NoteSection.observation path.display)
  let relations := state.attendees.map fun name =>
    RelationInput.new "has_participant" name .person
  if observations = [] ∧ relations = [] then none
  else some
    { name := state.entityName.getD (path.fileStem.getD "note")
      entityType := .event
      observations := observations
      relations := relations
      source := "markdown-notes" }

theorem parseMarkdownNote_uncut (path : NotePath)
    (uncut : ∀ line ∈ textLines text, ¬ Severed line) :
    parseMarkdownNote path text = .ok (noteRequest path (noteEnd text)) := by
  unfold parseMarkdownNote
  rw [foldlM_line .initial uncut]
  unfold noteRequest noteEnd
  dsimp only [bind, Except.bind]
  split <;> rfl

theorem uncut_of_parseMarkdownNote
    {request : Option RememberRequest} (parsed : parseMarkdownNote path text = .ok request) :
    ∀ line ∈ textLines text, ¬ Severed line := by
  obtain ⟨state, through, -⟩ := bind_eq_ok.mp parsed
  exact uncut_of_foldlM through

/-- The sections of the loop, as their observations tell them. -/
theorem tells_noteEnd (path : NotePath) (text : String) :
    ((noteEnd text).sections.filterMap (NoteSection.observation path.display)).map tells =
      (keptSections ⟨none, []⟩ (textLines text)).filterMap NoteSection.told := by
  rw [List.map_filterMap, sections_noteEnd]
  refine List.filterMap_congr fun section_ made => observation_tells _ fun line inside => ?_
  rcases mem_of_keptSections made inside with impossible | member
  · exact (List.not_mem_nil impossible).elim
  · exact newline_notMem_textLines member

theorem toldBy_noteRequest (path : NotePath) (text : String) :
    toldBy (noteRequest path (noteEnd text)) =
      (keptSections ⟨none, []⟩ (textLines text)).filterMap NoteSection.told := by
  unfold noteRequest
  dsimp only
  split
  next nothing => rw [← tells_noteEnd path, nothing.1]; rfl
  next => exact tells_noteEnd path text

/-- What is owed to the observations of a note. -/
def promised (text : String) : List (Option String × List String) :=
  (owedSections false ⟨none, []⟩ (textLines text)).filterMap NoteSection.told

/-- The parser does not panic, and every line is told where it is owed, in order. -/
def NoteKept (path : NotePath) (text : String) : Prop :=
  ∃ request, parseMarkdownNote path text = .ok request ∧ toldBy request = promised text

/-- No line is cut, and there is at most one level-one heading. -/
def Readable (text : String) : Prop :=
  (∀ line ∈ textLines text, ¬ Severed line) ∧ headings (textLines text) ≤ 1

theorem sum_told (sections : List NoteSection) :
    ((sections.filterMap NoteSection.told).map fun told => told.2.length).sum = counted sections := by
  induction sections with
  | nil => rfl
  | cons section_ rest ih =>
    rw [counted_cons, ← ih, List.filterMap_cons]
    unfold NoteSection.count NoteSection.told
    by_cases nothing : solidLines section_.lines = []
    · rw [if_pos nothing, nothing, List.length_nil, Nat.zero_add]
    · rw [if_neg nothing, List.map_cons, List.sum_cons]

theorem noteKept_iff (path : NotePath) (text : String) : NoteKept path text ↔ Readable text := by
  constructor
  · rintro ⟨request, parsed, kept⟩
    have uncut := uncut_of_parseMarkdownNote parsed
    refine ⟨uncut, ?_⟩
    rw [parseMarkdownNote_uncut path uncut, Except.ok.injEq] at parsed
    rw [← parsed, toldBy_noteRequest, promised] at kept
    have same := congrArg (fun list => (list.map fun told => told.2.length).sum) kept
    rw [sum_told, sum_told, counted_owed, if_neg Bool.false_ne_true] at same
    omega
  · rintro ⟨uncut, few⟩
    refine ⟨_, parseMarkdownNote_uncut path uncut, ?_⟩
    rw [toldBy_noteRequest, promised, owed_eq_kept false _ _ (by simpa using few)]

/-! ## Ingestion -/

section Ingestion

variable {σ : Type} {adapter : SourceAdapter σ} {state next : σ} {batch : List RememberRequest}

/-- The loop ends with a report or an error. -/
def Proceeds (adapter : SourceAdapter σ) (ingestion : Ingestion) (state : σ) : Prop :=
  ∃ outcome, ingestFrom adapter ingestion state = .ok outcome

/-- The ingestion returns `Ok` or `Err`. -/
def Returns (adapter : SourceAdapter σ) (state : σ) : Prop :=
  ∃ outcome, ingestAll adapter state = .ok outcome

theorem submits_iff {ingestion : Ingestion} :
    (∃ after, batch.foldlM Ingestion.submit ingestion = .ok after) ↔
      ∀ request ∈ batch, request.validate = .ok () := by
  induction batch generalizing ingestion with
  | nil => exact ⟨fun _ => List.forall_mem_nil _, fun _ => ⟨ingestion, rfl⟩⟩
  | cons request rest ih =>
    rw [List.foldlM_cons, List.forall_mem_cons, Ingestion.submit]
    cases checked : request.validate with
    | error error =>
      exact ⟨fun ⟨_, impossible⟩ => (nomatch impossible), fun ⟨impossible, _⟩ => nomatch impossible⟩
    | ok u => exact ih.trans (and_iff_right rfl).symm

theorem ingestFrom_eq (ingestion : Ingestion) : ingestFrom adapter ingestion state =
    match adapter.nextBatch state with
    | .error panic => .error panic
    | .ok (.error error) => .ok (.error error)
    | .ok (.ok (batch, next)) =>
      if batch = [] then .ok (.ok ingestion)
      else
        match batch.foldlM Ingestion.submit { ingestion with report :=
            { ingestion.report with batches := ingestion.report.batches + 1 } } with
        | .error panic => .error panic
        | .ok after => ingestFrom adapter after next := by
  rw [ingestFrom]
  split
  next same => rw [same]
  next same => rw [same]
  next same =>
    conv_rhs => rw [same]
    rfl

theorem ingestFrom_panic {panic : Panic} (yields : adapter.nextBatch state = .error panic)
    (ingestion : Ingestion) : ingestFrom adapter ingestion state = .error panic := by
  rw [ingestFrom_eq, yields]

theorem ingestFrom_error {error : MemoryError} (yields : adapter.nextBatch state = .ok (.error error))
    (ingestion : Ingestion) : ingestFrom adapter ingestion state = .ok (.error error) := by
  rw [ingestFrom_eq, yields]

theorem ingestFrom_empty (yields : adapter.nextBatch state = .ok (.ok ([], next)))
    (ingestion : Ingestion) : ingestFrom adapter ingestion state = .ok (.ok ingestion) := by
  rw [ingestFrom_eq, yields]
  exact if_pos rfl

/-- States that yield the same are ingested alike. -/
theorem ingestFrom_congr {other : σ} (same : adapter.nextBatch state = adapter.nextBatch other)
    (ingestion : Ingestion) :
    ingestFrom adapter ingestion state = ingestFrom adapter ingestion other := by
  rw [ingestFrom_eq, ingestFrom_eq, same]

/-- Whether the loop proceeds depends on the requests of its batches alone. -/
theorem proceeds_iff {later : Prop} (yields : adapter.nextBatch state = .ok (.ok (batch, next)))
    (nonempty : batch ≠ []) (others : ∀ after, Proceeds adapter after next ↔ later)
    (ingestion : Ingestion) :
    Proceeds adapter ingestion state ↔ (∀ request ∈ batch, request.validate = .ok ()) ∧ later := by
  unfold Proceeds
  rw [ingestFrom_eq, yields]
  dsimp only
  rw [if_neg nonempty, ← submits_iff]
  cases submitted : batch.foldlM Ingestion.submit { ingestion with report :=
      { ingestion.report with batches := ingestion.report.batches + 1 } } with
  | error panic =>
    exact ⟨fun ⟨_, impossible⟩ => (nomatch impossible),
      fun ⟨⟨_, impossible⟩, _⟩ => nomatch impossible⟩
  | ok after =>
    exact (others after).trans (and_iff_right ⟨after, rfl⟩).symm

end Ingestion

/-! ## Names -/

theorem blank_eq_false_iff : blank value = false ↔ ∃ c ∈ value.toList, isWhitespace c = false := by
  have same : blank value = true ↔ ∀ c ∈ value.toList, isWhitespace c = true := by
    rw [blank, String.isEmpty_iff, ← String.toList_inj, toList_trim]
    exact trimChars_eq_nil
  rw [← Bool.not_eq_true, same]
  simp

theorem not_blank_relation : blank "has_participant" = false := by decide

/-- What is left of a trimmed text behind a beginning is not blank, if it is anything. -/
theorem not_blank_of_suffix (nonempty : rest.toList ≠ [])
    (suffix : rest.toList <:+ (trim value).toList) : blank rest = false := by
  rw [toList_trim] at suffix
  exact blank_eq_false_iff.mpr (exists_solid_of_suffix nonempty suffix)

theorem blank_trim (solid : blank value = false) : blank (trim value) = false := by
  refine not_blank_of_suffix (fun nothing => ?_) (List.suffix_refl _)
  rw [blank, String.isEmpty_iff.mpr (String.toList_inj.mp nothing)] at solid
  cases solid

theorem stripPrefix_eq_some {first : String} (found : stripPrefix first value = some rest) :
    value.toList = first.toList ++ rest.toList := by
  unfold stripPrefix at found
  split at found
  next leads =>
    obtain ⟨behind, split⟩ := leads
    rw [← Option.some.inj found, String.toList_ofList, ← split, List.drop_left]
  next => cases found

/-- A level-one heading names the entity. -/
theorem not_blank_heading (heading : noteLine line = .heading name) : blank name = false := by
  obtain ⟨rest, found⟩ := Option.isSome_iff_exists.mp (isSome_of_heading heading)
  have same : name = trim rest := by
    unfold noteLine at heading
    rw [found] at heading
    exact (NoteLine.heading.inj heading).symm
  have split := stripPrefix_eq_some found
  rw [same]
  refine blank_trim (not_blank_of_suffix (fun nothing => ?_) ⟨_, split.symm⟩)
  -- a trimmed line does not end with the blank of the mark
  have ends : [' '] <:+ trimChars line.toList := by
    rw [← toList_trim, split, nothing]
    exact ⟨['#'], rfl⟩
  obtain ⟨c, member, solid⟩ := exists_solid_of_suffix (List.cons_ne_nil _ _) ends
  rw [List.mem_singleton.mp member] at solid
  exact absurd solid (by decide)

theorem not_blank_attendee (member : name ∈ attendeesOf rest) : blank name = false := by
  obtain ⟨inside, nonempty⟩ := List.mem_filter.mp member
  obtain ⟨piece, _, same⟩ := List.mem_map.mp inside
  have names : name.toList = (trim (String.ofList piece)).toList.dropWhile (· = '@') := by
    rw [← same, String.toList_ofList]
  refine not_blank_of_suffix (fun nothing => ?_) (names ▸ List.dropWhile_suffix _)
  rw [String.toList_inj.mp (nothing.trans String.toList_empty.symm)] at nonempty
  cases nonempty

/-! ## Requests of notes -/

/-- The names on a line of attendees. -/
def namesOf (line : String) : List String :=
  match noteLine line with
  | .attendees names => names
  | _ => []

def headingOf (line : String) : Option String :=
  match noteLine line with
  | .heading name => some name
  | _ => none

theorem attendees_foldl (state : NoteState) (lines : List String) :
    (lines.foldl NoteState.after state).attendees = state.attendees ++ lines.flatMap namesOf := by
  induction lines generalizing state with
  | nil => rw [List.foldl_nil, List.flatMap_nil, List.append_nil]
  | cons line rest ih =>
    rw [List.foldl_cons, ih, List.flatMap_cons, ← List.append_assoc]
    unfold NoteState.after namesOf
    cases noteLine line with
    | heading name => rw [List.append_nil]
    | section_ title => rw [List.append_nil]
    | attendees names => rfl
    | body => rw [List.append_nil]

theorem entityName_foldl (state : NoteState) (lines : List String) :
    (lines.foldl NoteState.after state).entityName =
      state.entityName.or (lines.findSome? headingOf) := by
  induction lines generalizing state with
  | nil => rw [List.foldl_nil, List.findSome?_nil, Option.or_none]
  | cons line rest ih =>
    rw [List.foldl_cons, ih, List.findSome?_cons]
    unfold NoteState.after headingOf
    cases noteLine line with
    | heading name =>
      dsimp only
      rw [Option.or_assoc]
      rfl
    | section_ title => rfl
    | attendees names => rfl
    | body => rfl

theorem isSome_headingOf (line : String) :
    (headingOf line).isSome = (stripPrefix "# " (trim line)).isSome := by
  unfold headingOf
  cases kind : noteLine line with
  | heading name => exact (isSome_of_heading kind).symm
  | section_ title | attendees names | body =>
    refine (Bool.eq_false_iff.mpr (not_isSome_of_other fun name other => ?_)).symm
    rw [kind] at other
    cases other

theorem entityName_noteEnd (text : String) :
    ((noteEnd text).entityName.isSome = true ↔ 1 ≤ headings (textLines text)) ∧
      ∀ name, (noteEnd text).entityName = some name → blank name = false := by
  have named : (noteEnd text).entityName = (textLines text).findSome? headingOf :=
    (entityName_foldl .initial _).trans (Option.none_or)
  rw [named]
  constructor
  · rw [List.findSome?_isSome_iff, headings, Nat.one_le_iff_ne_zero, ← Nat.pos_iff_ne_zero,
      List.countP_pos_iff]
    exact exists_congr fun line => and_congr_right fun _ => by rw [isSome_headingOf]
  · intro name found
    obtain ⟨line, _, heads⟩ := List.exists_of_findSome?_eq_some found
    unfold headingOf at heads
    split at heads
    next kind =>
      cases heads
      exact not_blank_heading kind
    next => cases heads

/-- No line has anything to tell. -/
def Mute (text : String) : Prop :=
  ∀ line ∈ textLines text, (noteLine line = .body → trim line = "") ∧ namesOf line = []

theorem counted_kept_eq_zero {lines : List String} :
    counted (keptSections ⟨none, []⟩ lines) = 0 ↔
      ∀ line ∈ lines, noteLine line = .body → trim line = "" := by
  induction lines with
  | nil => exact ⟨fun _ => List.forall_mem_nil _, fun _ => rfl⟩
  | cons line rest ih =>
    rw [List.forall_mem_cons, ← ih, keptSections_cons]
    cases noteLine line with
    | heading name => exact (and_iff_right (by simp)).symm
    | section_ title =>
      dsimp only
      rw [counted_cons, counted_kept ⟨some title, []⟩]
      change 0 + (0 + _) = 0 ↔ _
      rw [Nat.zero_add, Nat.zero_add]
      exact (and_iff_right (by simp)).symm
    | attendees names => exact (and_iff_right (by simp)).symm
    | body =>
      dsimp only
      rw [counted_kept, count_push, Nat.add_eq_zero_iff, Nat.add_eq_zero_iff,
        and_iff_right (show NoteSection.count ⟨none, []⟩ = 0 from rfl),
        List.length_eq_zero_iff]
      refine and_congr_left fun _ => (?_ : _ ↔ _).trans (imp_iff_right rfl).symm
      unfold solidLines
      rw [List.map_singleton, List.filter_eq_nil_iff]
      simp

theorem counted_eq_zero {sections : List NoteSection} :
    sections.filterMap NoteSection.told = [] ↔ counted sections = 0 := by
  rw [List.filterMap_eq_nil_iff, counted, List.sum_eq_zero_iff, List.forall_mem_map]
  refine forall₂_congr fun section_ _ => ?_
  unfold NoteSection.told NoteSection.count
  rw [List.length_eq_zero_iff]
  split
  next nothing => exact ⟨fun _ => nothing, fun _ => rfl⟩
  next something => exact ⟨fun impossible => (nomatch impossible), fun nothing => absurd nothing something⟩

theorem attendees_noteEnd (text : String) :
    (noteEnd text).attendees = (textLines text).flatMap namesOf :=
  (attendees_foldl .initial _).trans (List.nil_append _)

theorem exists_attendeesOf {names : List String}
    (kind : noteLine line = .attendees names) : ∃ rest, names = attendeesOf rest := by
  unfold noteLine at kind
  cases first : stripPrefix "# " (trim line) with
  | some name =>
    rw [first] at kind
    cases kind
  | none =>
    cases second : stripPrefix "## " (trim line) with
    | some title =>
      rw [first, second] at kind
      cases kind
    | none =>
      rw [first, second] at kind
      dsimp only at kind
      split at kind
      · exact ⟨_, (NoteLine.attendees.inj kind).symm⟩
      · cases kind

theorem not_blank_namesOf (among : name ∈ namesOf line) : blank name = false := by
  unfold namesOf at among
  cases kind : noteLine line with
  | attendees names =>
    rw [kind] at among
    obtain ⟨rest, rfl⟩ := exists_attendeesOf kind
    exact not_blank_attendee among
  | heading name | section_ title | body =>
    rw [kind] at among
    cases among

theorem noteRequest_eq_none : noteRequest path (noteEnd text) = none ↔ Mute text := by
  have observations : (noteEnd text).sections.filterMap
      (NoteSection.observation path.display) = [] ↔
        ∀ line ∈ textLines text, noteLine line = .body → trim line = "" := by
    rw [← List.map_eq_nil_iff, tells_noteEnd, counted_eq_zero, counted_kept_eq_zero]
  have relations : (noteEnd text).attendees.map (fun name =>
      RelationInput.new "has_participant" name .person) = [] ↔
        ∀ line ∈ textLines text, namesOf line = [] := by
    rw [List.map_eq_nil_iff, attendees_noteEnd, List.flatMap_eq_nil_iff]
  unfold noteRequest Mute
  dsimp only
  rw [forall₂_and, ← observations, ← relations]
  split
  next nothing => exact ⟨fun _ => nothing, fun _ => rfl⟩
  next something => exact ⟨fun impossible => (nomatch impossible), fun nothing => absurd nothing something⟩

theorem validate_noteRequest {request : RememberRequest}
    (made : noteRequest path (noteEnd text) = some request) : request.validate = .ok () ↔
      blank (path.fileStem.getD "note") = false ∨ 1 ≤ headings (textLines text) := by
  unfold noteRequest at made
  dsimp only at made
  split at made
  · cases made
  obtain rfl := Option.some.inj made
  rw [validate_eq_ok]
  have observations : ∀ observation ∈ (noteEnd text).sections.filterMap
      (NoteSection.observation path.display), blank observation.content = false := by
    intro observation member
    obtain ⟨section_, _, makes⟩ := List.mem_filterMap.mp member
    unfold NoteSection.observation at makes
    dsimp only at makes
    split at makes
    next => cases makes
    next solid =>
      rw [← Option.some.inj makes]
      refine blank_trim ?_
      rw [blank, Bool.eq_false_iff]
      exact fun nothing => solid (String.isEmpty_iff.mp nothing)
  have relations : ∀ relation ∈ (noteEnd text).attendees.map (fun name =>
      RelationInput.new "has_participant" name .person),
      blank relation.relationType = false ∧ blank relation.targetName = false := by
    intro relation member
    obtain ⟨name, inside, rfl⟩ := List.mem_map.mp member
    rw [attendees_noteEnd] at inside
    obtain ⟨line, _, among⟩ := List.mem_flatMap.mp inside
    exact ⟨not_blank_relation, not_blank_namesOf among⟩
  rw [and_iff_left ⟨observations, relations⟩]
  obtain ⟨named, solid⟩ := entityName_noteEnd text
  rw [← named]
  dsimp only
  cases found : (noteEnd text).entityName with
  | none => simp
  | some name => simpa using solid name found

/-- A file that can be read has no cut line, and has a stem, or a level-one heading, or
nothing to tell. -/
def NoteFile.Harmless (file : NoteFile) : Prop :=
  ∀ text, file.text = .ok text → (∀ line ∈ textLines text, ¬ Severed line) ∧
    ((blank (file.path.fileStem.getD "note") = false ∨ 1 ≤ headings (textLines text)) ∨ Mute text)

theorem nextNote_read {file : NoteFile} (read : file.text = .ok text) (rest : List NoteFile) :
    nextNote (file :: rest) =
      match parseMarkdownNote file.path text with
      | .error panic => .error panic
      | .ok (some request) => .ok (.ok ([request], rest))
      | .ok none => nextNote rest := by
  rw [nextNote]
  generalize file.text = outcome at read ⊢
  subst read
  rfl

/-- An ingestion of notes proceeds exactly where every file in front of the first that
cannot be read is harmless. -/
theorem notes_proceed (files : List NoteFile) (ingestion : Ingestion) :
    Proceeds markdownNotesAdapter ingestion files ↔
      ∀ file ∈ files.takeWhile fun file => file.text.isOk, file.Harmless := by
  induction files generalizing ingestion with
  | nil => exact ⟨fun _ => List.forall_mem_nil _, fun _ => ⟨_, ingestFrom_empty rfl ingestion⟩⟩
  | cons file rest ih =>
    cases read : file.text with
    | error error =>
      have fails : nextNote (file :: rest) = .ok (.error error) := by rw [nextNote, read]
      rw [List.takeWhile_cons_of_neg (by rw [read]; exact Bool.false_ne_true)]
      exact ⟨fun _ => List.forall_mem_nil _, fun _ => ⟨_, ingestFrom_error fails ingestion⟩⟩
    | ok text =>
      rw [List.takeWhile_cons_of_pos (by rw [read]; rfl), List.forall_mem_cons]
      have harmless : file.Harmless ↔ (∀ line ∈ textLines text, ¬ Severed line) ∧
          ((blank (file.path.fileStem.getD "note") = false ∨ 1 ≤ headings (textLines text)) ∨
            Mute text) :=
        ⟨fun all => all text read, fun here other same => by
          rw [read, Except.ok.injEq] at same
          exact same ▸ here⟩
      rw [harmless]
      cases parsed : parseMarkdownNote file.path text with
      | error panic =>
        have fails : nextNote (file :: rest) = .error panic := by
          rw [nextNote_read read, parsed]
        refine ⟨fun ⟨_, impossible⟩ => ?_, fun ⟨⟨uncut, _⟩, _⟩ => ?_⟩
        · rw [ingestFrom_panic fails] at impossible
          cases impossible
        · rw [parseMarkdownNote_uncut file.path uncut] at parsed
          cases parsed
      | ok request =>
        have uncut := uncut_of_parseMarkdownNote parsed
        have made : noteRequest file.path (noteEnd text) = request :=
          Except.ok.inj ((parseMarkdownNote_uncut file.path uncut).symm.trans parsed)
        rw [and_iff_right uncut]
        cases request with
        | none =>
          have skips : markdownNotesAdapter.nextBatch (file :: rest) =
              markdownNotesAdapter.nextBatch rest := by
            change nextNote (file :: rest) = nextNote rest
            rw [nextNote_read read, parsed]
          rw [Proceeds, ingestFrom_congr skips]
          exact (ih ingestion).trans (and_iff_right (.inr (noteRequest_eq_none.mp made))).symm
        | some request =>
          have yields : nextNote (file :: rest) = .ok (.ok ([request], rest)) := by
            rw [nextNote_read read, parsed]
          have told : ¬ Mute text := fun mute => by
            rw [noteRequest_eq_none.mpr mute] at made
            cases made
          rw [proceeds_iff yields (List.cons_ne_nil _ _) ih, or_iff_left told,
            List.forall_mem_singleton, validate_noteRequest made]

/-! ## Messages -/

section Messages

variable (fromStr : String → Except String ChatMessage)

/-- What a line of an export holds: a message, or none where it has nothing to say, and
nothing at all where it is refused. -/
def lineMessage : MemoryResult String → Option (Option ChatMessage)
  | .error _ => none
  | .ok line =>
    if blank line then some none
    else
      match fromStr line with
      | .error _ => none
      | .ok msg => if blank msg.text then some none else some (some msg)

/-- The messages in front of the first line that is refused. -/
def messages : List (MemoryResult String) → List ChatMessage
  | [] => []
  | line :: rest =>
    match lineMessage fromStr line with
    | none => []
    | some none => messages rest
    | some (some msg) => msg :: messages rest

/-- Some line is refused. -/
def Refused (lines : List (MemoryResult String)) : Prop :=
  ∃ line ∈ lines, lineMessage fromStr line = none

/-- The messages that are submitted: where a line is refused, those of full batches. -/
def Sent (lines : List (MemoryResult String)) (msg : ChatMessage) : Prop :=
  msg ∈ messages fromStr lines ∧ (Refused fromStr lines →
    msg ∈ (messages fromStr lines).take
      ((messages fromStr lines).length / chatBatchSize * chatBatchSize))

variable {fromStr}

theorem refused_cons {line : MemoryResult String} {rest : List (MemoryResult String)} :
    Refused fromStr (line :: rest) ↔ lineMessage fromStr line = none ∨ Refused fromStr rest := by
  unfold Refused
  rw [List.exists_mem_cons_iff]

theorem readMessages_cons {line : MemoryResult String} {rest : List (MemoryResult String)}
    (room lineNo : Nat) {held : Option ChatMessage} (holds : lineMessage fromStr line = some held) :
    readMessages fromStr (room + 1) lineNo (line :: rest) =
      match held with
      | none => readMessages fromStr (room + 1) (lineNo + 1) rest
      | some msg => do
          let (batch, reader) ← readMessages fromStr room (lineNo + 1) rest
          return (msg.request :: batch, reader) := by
  rw [readMessages, if_neg (Nat.succ_ne_zero room)]
  unfold lineMessage at holds
  cases line with
  | error error => cases holds
  | ok line =>
    dsimp only [bind, Except.bind] at holds ⊢
    by_cases nothing : blank line = true
    · rw [if_pos nothing] at holds ⊢
      cases holds
      rfl
    · rw [if_neg nothing] at holds ⊢
      cases decoded : fromStr line with
      | error e =>
        rw [decoded] at holds
        cases holds
      | ok msg =>
        rw [decoded] at holds
        dsimp only at holds ⊢
        by_cases mute : blank msg.text = true
        · rw [if_pos mute] at holds ⊢
          cases holds
          rfl
        · rw [if_neg mute] at holds ⊢
          cases holds
          rfl

theorem readMessages_refused {line : MemoryResult String} {rest : List (MemoryResult String)}
    (room lineNo : Nat) (refused : lineMessage fromStr line = none) :
    ∃ error, readMessages fromStr (room + 1) lineNo (line :: rest) = .error error := by
  rw [readMessages, if_neg (Nat.succ_ne_zero room)]
  unfold lineMessage at refused
  cases line with
  | error error => exact ⟨error, rfl⟩
  | ok line =>
    dsimp only [bind, Except.bind] at refused ⊢
    by_cases nothing : blank line = true
    · rw [if_pos nothing] at refused
      cases refused
    · rw [if_neg nothing] at refused ⊢
      cases decoded : fromStr line with
      | error e => exact ⟨_, rfl⟩
      | ok msg =>
        rw [decoded] at refused
        dsimp only at refused
        split at refused <;> cases refused

/-- A batch that is not filled before a line is refused is an error. -/
theorem readMessages_short {room : Nat} (lineNo : Nat)
    (refused : Refused fromStr lines) (short : (messages fromStr lines).length < room) :
    ∃ error, readMessages fromStr room lineNo lines = .error error := by
  induction lines generalizing room lineNo with
  | nil =>
    obtain ⟨line, impossible, _⟩ := refused
    cases impossible
  | cons line rest ih =>
    obtain ⟨room, rfl⟩ := Nat.exists_eq_succ_of_ne_zero (Nat.ne_zero_of_lt short)
    cases holds : lineMessage fromStr line with
    | none => exact readMessages_refused room lineNo holds
    | some held =>
      rw [refused_cons, holds, or_iff_right (Option.some_ne_none held)] at refused
      rw [messages, holds] at short
      rw [Nat.succ_eq_add_one, readMessages_cons room lineNo holds]
      cases held with
      | none => exact ih (lineNo + 1) refused short
      | some msg =>
        obtain ⟨error, fails⟩ := ih (lineNo + 1) refused (Nat.lt_of_succ_lt_succ short)
        exact ⟨error, by dsimp only; rw [fails]; rfl⟩

/-- Any other batch takes its part of the messages. -/
theorem readMessages_full {room : Nat} (lineNo : Nat)
    (full : Refused fromStr lines → room ≤ (messages fromStr lines).length) :
    ∃ reader, readMessages fromStr room lineNo lines =
        .ok (((messages fromStr lines).take room).map ChatMessage.request, reader) ∧
      messages fromStr reader.lines = (messages fromStr lines).drop room ∧
        (Refused fromStr reader.lines ↔ Refused fromStr lines) := by
  induction lines generalizing room lineNo with
  | nil => exact ⟨⟨lineNo, []⟩, by rw [readMessages, messages, List.take_nil]; rfl, by
      rw [messages, List.drop_nil], Iff.rfl⟩
  | cons line rest ih =>
    cases room with
    | zero => exact ⟨⟨lineNo, line :: rest⟩, by rw [readMessages, if_pos rfl]; rfl, rfl, Iff.rfl⟩
    | succ room =>
      cases holds : lineMessage fromStr line with
      | none =>
        have none_ := full (refused_cons.mpr (.inl holds))
        rw [messages, holds] at none_
        cases none_
      | some held =>
        have same : Refused fromStr (line :: rest) ↔ Refused fromStr rest := by
          rw [refused_cons, holds, or_iff_right (Option.some_ne_none held)]
        rw [same, messages, holds] at full
        rw [same, messages, holds, readMessages_cons room lineNo holds]
        cases held with
        | none => exact ih (lineNo + 1) full
        | some msg =>
          obtain ⟨reader, reads, left, refuses⟩ := ih (lineNo + 1)
            fun refused => Nat.le_of_succ_le_succ (full refused)
          refine ⟨reader, ?_, left, refuses⟩
          dsimp only
          rw [reads]
          rfl

theorem told_of_mem (member : msg ∈ messages fromStr lines) : blank msg.text = false := by
  induction lines with
  | nil => cases member
  | cons line rest ih =>
    rw [messages] at member
    cases holds : lineMessage fromStr line with
    | none =>
      rw [holds] at member
      cases member
    | some held =>
      rw [holds] at member
      cases held with
      | none => exact ih member
      | some other =>
        rcases List.mem_cons.mp member with rfl | later
        · unfold lineMessage at holds
          split at holds
          · cases holds
          split at holds
          · cases holds
          split at holds
          · cases holds
          split at holds
          · cases holds
          next told =>
            cases holds
            exact Bool.eq_false_iff.mpr told
        · exact ih later

theorem validate_request (told : blank msg.text = false) :
    msg.request.validate = .ok () ↔ blank msg.user = false := by
  have named : blank ("#" ++ msg.channel) = false := by
    refine blank_eq_false_iff.mpr ⟨'#', ?_, by decide⟩
    rw [String.toList_append]
    exact List.mem_append_left _ List.mem_cons_self
  rw [validate_eq_ok, ChatMessage.request, and_iff_right named, List.forall_mem_singleton,
    List.forall_mem_singleton]
  exact (and_iff_right told).trans (and_iff_right not_blank_relation)

theorem sent_of_refused (refused : Refused fromStr lines) :
    Sent fromStr lines msg ↔ msg ∈ (messages fromStr lines).take
      ((messages fromStr lines).length / chatBatchSize * chatBatchSize) :=
  ⟨fun sent => sent.2 refused, fun member => ⟨List.mem_of_mem_take member, fun _ => member⟩⟩

theorem sent_of_readable (readable : ¬ Refused fromStr lines) :
    Sent fromStr lines msg ↔ msg ∈ messages fromStr lines :=
  and_iff_left fun refused => absurd refused readable

/-- What is sent are the messages of the batch and those sent behind it. -/
theorem sent_iff {lines behind : List (MemoryResult String)} {msg : ChatMessage}
    (full : Refused fromStr lines → chatBatchSize ≤ (messages fromStr lines).length)
    (left : messages fromStr behind = (messages fromStr lines).drop chatBatchSize)
    (refuses : Refused fromStr behind ↔ Refused fromStr lines) :
    Sent fromStr lines msg ↔
      msg ∈ (messages fromStr lines).take chatBatchSize ∨ Sent fromStr behind msg := by
  by_cases refused : Refused fromStr lines
  · have enough := full refused
    have batches : (messages fromStr lines).length / chatBatchSize * chatBatchSize =
        chatBatchSize + (messages fromStr behind).length / chatBatchSize * chatBatchSize := by
      rw [left, List.length_drop, Nat.div_eq_sub_div (by decide) enough, Nat.add_mul, Nat.one_mul,
        Nat.add_comm]
    rw [sent_of_refused refused, sent_of_refused (refuses.mpr refused), batches, List.take_add,
      List.mem_append, ← left]
  · rw [sent_of_readable refused, sent_of_readable (mt refuses.mp refused), left,
      ← List.mem_append, List.take_append_drop]

/-- An ingestion of messages proceeds exactly where every message that is submitted has a
user. -/
theorem messages_proceed (lineNo : Nat) (lines : List (MemoryResult String))
    (ingestion : Ingestion) :
    Proceeds (chatJsonlAdapter fromStr) ingestion ⟨lineNo, lines⟩ ↔
      ∀ msg, Sent fromStr lines msg → blank msg.user = false := by
  induction long : lines.length using Nat.strong_induction_on generalizing lines lineNo ingestion with
  | _ length ih =>
    by_cases short : Refused fromStr lines ∧ (messages fromStr lines).length < chatBatchSize
    · obtain ⟨error, fails⟩ := readMessages_short lineNo short.1 short.2
      refine ⟨fun _ msg sent => ?_, fun _ => ⟨_, ingestFrom_error (congrArg Except.ok fails) ingestion⟩⟩
      rw [sent_of_refused short.1, Nat.div_eq_of_lt short.2, Nat.zero_mul, List.take_zero] at sent
      cases sent
    · have full (refused : Refused fromStr lines) :
          chatBatchSize ≤ (messages fromStr lines).length :=
        Nat.le_of_not_lt fun few => short ⟨refused, few⟩
      obtain ⟨reader, reads, left, refuses⟩ := readMessages_full lineNo full
      have yields : (chatJsonlAdapter fromStr).nextBatch ⟨lineNo, lines⟩ = _ :=
        congrArg Except.ok reads
      have sends (msg : ChatMessage) := @sent_iff fromStr lines reader.lines msg full left refuses
      by_cases empty : messages fromStr lines = []
      · rw [empty, List.take_nil, List.map_nil] at yields
        refine ⟨fun _ msg sent => ?_, fun _ => ⟨_, ingestFrom_empty yields ingestion⟩⟩
        have member := sent.1
        rw [empty] at member
        cases member
      · have nonempty : ((messages fromStr lines).take chatBatchSize).map ChatMessage.request ≠ [] := by
          rw [Ne, List.map_eq_nil_iff, List.take_eq_nil_iff]
          exact fun none_ => none_.elim (by decide) empty
        have shorter : reader.lines.length < length := by
          rw [← long]
          exact (chatJsonlAdapter fromStr).consumes yields nonempty
        have later (after : Ingestion) := ih _ shorter reader.lineNo reader.lines after rfl
        rw [proceeds_iff yields nonempty later, List.forall_mem_map]
        have valid : (∀ msg ∈ (messages fromStr lines).take chatBatchSize,
            msg.request.validate = .ok ()) ↔
              ∀ msg ∈ (messages fromStr lines).take chatBatchSize, blank msg.user = false :=
          forall₂_congr fun msg member =>
            validate_request (told_of_mem (List.mem_of_mem_take member))
        rw [valid]
        simp only [sends, or_imp, forall_and]

end Messages

/-! ## The claim on ingestion -/

/-- **Ingestion of notes and exports.** A note is parsed without a panic, and all its lines
are told, exactly where no line is cut and there is at most one level-one heading. An
ingestion returns exactly where every file in front of the first unreadable one is harmless,
and every message that is submitted has a user. -/
theorem ingestion_safe_iff (fromStr : String → Except String ChatMessage) :
    (∀ path text, NoteKept path text ↔ Readable text) ∧
      (∀ files, Returns markdownNotesAdapter files ↔
        ∀ file ∈ files.takeWhile fun file => file.text.isOk, file.Harmless) ∧
      ∀ lines, Returns (chatJsonlAdapter fromStr) ⟨0, lines⟩ ↔
        ∀ msg, Sent fromStr lines msg → blank msg.user = false :=
  ⟨noteKept_iff, fun files => notes_proceed files .initial,
    fun lines => messages_proceed 0 lines .initial⟩

/-- A message without a user, and what it is decoded to. -/
private def anonymous : String :=
  "\x7b\"channel\":\"general\",\"user\":\"\",\"text\":\"Hello\"\x7d"

private def decodeAnonymous (line : String) : Except String ChatMessage :=
  if line = anonymous then .ok ⟨"general", "", none, "Hello"⟩ else .error "expected value"

/-- A note whose eleventh byte continues a character panics, one with two level-one headings
loses the second, and a message without a user panics. -/
theorem ingestion_unsafe :
    parseMarkdownNote ⟨some "note", "note.md"⟩ "123456789é" =
        .error (.charBoundary "123456789é" 10) ∧
      (∃ request, parseMarkdownNote ⟨some "note", "note.md"⟩ "# One\n# Two\nText" = .ok request ∧
        toldBy request = [(none, ["Text"])] ∧
          promised "# One\n# Two\nText" = [(none, ["# Two", "Text"])]) ∧
      ¬ Returns (chatJsonlAdapter decodeAnonymous) ⟨0, [.ok anonymous]⟩ := by
  refine ⟨by decide, ⟨_, rfl, by decide, by decide⟩, fun returns => ?_⟩
  have held : messages decodeAnonymous [.ok anonymous] = [⟨"general", "", none, "Hello"⟩] := by
    decide
  have sent : Sent decodeAnonymous [.ok anonymous] ⟨"general", "", none, "Hello"⟩ := by
    refine ⟨held ▸ List.mem_cons_self, fun ⟨line, member, refused⟩ => ?_⟩
    rw [List.mem_singleton.mp member] at refused
    exact absurd refused (by decide)
  exact absurd ((messages_proceed 0 _ .initial).mp returns _ sent) (by decide)

end OpenMemory.Engine
