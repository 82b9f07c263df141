import OpenMemory.Foundation.ByteCodec

/-!
# The bracket structure of JSON texts

A JSON text read byte by byte is in one of a few places: where a value, a key
or a colon is due, inside a string or a number, or behind a complete value; in
addition it has a stack of open objects and arrays. `step` follows the grammar
in these respects and leaves the spelling of numbers, literals and escapes
open, so every JSON text is well bracketed (`WellBracketed`), not conversely.

This is enough to tell a text that was cut short. A proper prefix of an object
still has an open bracket (`open_of_prefix`), so it is no text by itself, and
neither is it one with a further object written behind it (`torn_glued`).
-/

namespace Foundation.Json

inductive Frame where
  | object
  | array
  deriving DecidableEq

/-- Where a reader stands between two bytes. -/
inductive Point where
  | value
  | element
  | member
  | key
  | colon
  | closed
  | word
  | text (isKey : Bool)
  | escape (isKey : Bool)
  deriving DecidableEq

/-- A place in a text and the brackets open there, innermost first. -/
structure Scan where
  point : Point
  frames : List Frame
  deriving DecidableEq

def isSpace (b : UInt8) : Bool := b == 0x20 || b == 0x09 || b == 0x0A || b == 0x0D

/-- A byte of a number or of a literal name. -/
def isWord (b : UInt8) : Bool :=
  (0x30 ≤ b && b ≤ 0x39) || (0x61 ≤ b && b ≤ 0x7A) || b == 0x2B || b == 0x2D || b == 0x2E ||
    b == 0x45

/-- Close the innermost bracket, which must be of the given kind. -/
def shut (kind : Frame) : List Frame → Option Scan
  | [] => none
  | frame :: outer => if frame = kind then some ⟨.closed, outer⟩ else none

/-- What a comma introduces. -/
def next : List Frame → Option Scan
  | [] => none
  | .object :: outer => some ⟨.key, .object :: outer⟩
  | .array :: outer => some ⟨.value, .array :: outer⟩

/-- A byte where a value is due. -/
def begin (frames : List Frame) (b : UInt8) : Option Scan :=
  if b = 0x7B then some ⟨.member, .object :: frames⟩
  else if b = 0x5B then some ⟨.element, .array :: frames⟩
  else if b = 0x22 then some ⟨.text false, frames⟩
  else if isWord b then some ⟨.word, frames⟩
  else none

/-- A byte behind a complete value. -/
def follow (frames : List Frame) (b : UInt8) : Option Scan :=
  if isSpace b then some ⟨.closed, frames⟩
  else if b = 0x2C then next frames
  else if b = 0x7D then shut .object frames
  else if b = 0x5D then shut .array frames
  else none

def step (scan : Scan) (b : UInt8) : Option Scan :=
  match scan.point with
  | .value => if isSpace b then some scan else begin scan.frames b
  | .element =>
    if isSpace b then some scan
    else if b = 0x5D then shut .array scan.frames
    else begin scan.frames b
  | .member =>
    if isSpace b then some scan
    else if b = 0x22 then some ⟨.text true, scan.frames⟩
    else if b = 0x7D then shut .object scan.frames
    else none
  | .key =>
    if isSpace b then some scan
    else if b = 0x22 then some ⟨.text true, scan.frames⟩
    else none
  | .colon =>
    if isSpace b then some scan
    else if b = 0x3A then some ⟨.value, scan.frames⟩
    else none
  | .closed => follow scan.frames b
  | .word => if isWord b then some scan else follow scan.frames b
  | .text isKey =>
    if b = 0x22 then some ⟨if isKey then .colon else .closed, scan.frames⟩
    else if b = 0x5C then some ⟨.escape isKey, scan.frames⟩
    else if b < 0x20 then none
    else some scan
  | .escape isKey => some ⟨.text isKey, scan.frames⟩

def run (scan : Scan) : Bytes → Option Scan
  | [] => some scan
  | b :: rest => (step scan b).bind fun after => run after rest

/-- The bytes are one value with white space around it, as far as brackets and
strings are concerned. -/
def WellBracketed (bytes : Bytes) : Prop :=
  ∃ point, (point = .closed ∨ point = .word) ∧ run ⟨.value, []⟩ bytes = some ⟨point, []⟩

instance (bytes : Bytes) : Decidable (WellBracketed bytes) :=
  decidable_of_iff
    (run ⟨.value, []⟩ bytes = some ⟨.closed, []⟩ ∨ run ⟨.value, []⟩ bytes = some ⟨.word, []⟩) <| by
    constructor
    · rintro (ends | ends)
      · exact ⟨.closed, .inl rfl, ends⟩
      · exact ⟨.word, .inr rfl, ends⟩
    · rintro ⟨point, rfl | rfl, ends⟩
      · exact .inl ends
      · exact .inr ends

theorem run_append (scan : Scan) (first last : Bytes) :
    run scan (first ++ last) = (run scan first).bind fun middle => run middle last := by
  induction first generalizing scan with
  | nil => rfl
  | cons b rest ih =>
    rw [List.cons_append, run, run]
    cases step scan b with
    | none => rfl
    | some after => exact ih after

/-! ## Brackets further out -/

/-- The same place with more brackets open around it. -/
def Scan.within (scan : Scan) (outer : List Frame) : Scan := ⟨scan.point, scan.frames ++ outer⟩

variable {after scan : Scan} {frames outer : List Frame} {b : UInt8} {bytes first last : Bytes}

theorem shut_within {kind : Frame} (shuts : shut kind frames = some after) :
    shut kind (frames ++ outer) = some (after.within outer) := by
  cases frames with
  | nil => cases shuts
  | cons frame rest =>
    simp only [shut, List.cons_append] at shuts ⊢
    split at shuts
    · cases shuts
      rw [if_pos ‹_›]
      rfl
    · cases shuts

theorem next_within {frames outer : List Frame} {after : Scan} (goes : next frames = some after) :
    next (frames ++ outer) = some (after.within outer) := by
  cases frames with
  | nil => cases goes
  | cons frame rest =>
    cases frame <;>
    · cases goes
      rfl

theorem begin_within (begins : begin frames b = some after) :
    begin (frames ++ outer) b = some (after.within outer) := by
  unfold begin at begins ⊢
  split_ifs at begins ⊢ <;>
  · cases begins
    rfl

theorem follow_within (follows : follow frames b = some after) :
    follow (frames ++ outer) b = some (after.within outer) := by
  unfold follow at follows ⊢
  split_ifs at follows ⊢
  · cases follows
    rfl
  · exact next_within follows
  · exact shut_within follows
  · exact shut_within follows

/-- A byte is read in the same way when more brackets are open. -/
theorem step_within (outer : List Frame) (steps : step scan b = some after) :
    step (scan.within outer) b = some (after.within outer) := by
  obtain ⟨point, frames⟩ := scan
  cases point with
  | value =>
    simp only [step, Scan.within] at steps ⊢
    split_ifs at steps ⊢
    · cases steps
      rfl
    · exact begin_within steps
  | element =>
    simp only [step, Scan.within] at steps ⊢
    split_ifs at steps ⊢
    · cases steps
      rfl
    · exact shut_within steps
    · exact begin_within steps
  | member =>
    simp only [step, Scan.within] at steps ⊢
    split_ifs at steps ⊢
    · cases steps
      rfl
    · cases steps
      rfl
    · exact shut_within steps
  | key | colon =>
    simp only [step, Scan.within] at steps ⊢
    split_ifs at steps ⊢ <;>
    · cases steps
      rfl
  | closed => exact follow_within steps
  | word =>
    simp only [step, Scan.within] at steps ⊢
    split_ifs at steps ⊢
    · cases steps
      rfl
    · exact follow_within steps
  | text isKey =>
    simp only [step, Scan.within] at steps ⊢
    split_ifs at steps ⊢ <;>
    · cases steps
      rfl
  | escape isKey =>
    cases steps
    rfl

theorem run_within (outer : List Frame) (runs : run scan bytes = some after) :
    run (scan.within outer) bytes = some (after.within outer) := by
  induction bytes generalizing scan with
  | nil =>
    cases runs
    rfl
  | cons b rest ih =>
    rw [run, Option.bind_eq_some_iff] at runs
    obtain ⟨middle, steps, runs⟩ := runs
    rw [run, step_within outer steps]
    exact ih runs

/-! ## Texts cut short -/

/-- Inside an object text: a bracket is open, or the text is over. -/
def Inside (scan : Scan) : Prop := scan.frames ≠ [] ∨ scan.point = .closed

theorem inside_shut {kind : Frame} (shuts : shut kind frames = some after) : Inside after := by
  cases frames with
  | nil => cases shuts
  | cons frame rest =>
    simp only [shut] at shuts
    split at shuts
    · cases shuts
      exact .inr rfl
    · cases shuts

theorem inside_next (goes : next frames = some after) : Inside after := by
  cases frames with
  | nil => cases goes
  | cons frame rest =>
    cases frame <;>
    · cases goes
      exact .inl (List.cons_ne_nil _ _)

theorem inside_follow (follows : follow frames b = some after) : Inside after := by
  unfold follow at follows
  split_ifs at follows
  · cases follows
    exact .inr rfl
  · exact inside_next follows
  · exact inside_shut follows
  · exact inside_shut follows

theorem inside_begin (some_open : frames ≠ [])
    (begins : begin frames b = some after) : Inside after := by
  unfold begin at begins
  split_ifs at begins
  · cases begins
    exact .inl (List.cons_ne_nil _ _)
  · cases begins
    exact .inl (List.cons_ne_nil _ _)
  · cases begins
    exact .inl some_open
  · cases begins
    exact .inl some_open

theorem inside_step (inside : Inside scan) (steps : step scan b = some after) : Inside after := by
  obtain ⟨point, frames⟩ := scan
  rcases inside with some_open | outside
  · cases point with
    | value =>
      simp only [step] at steps
      split_ifs at steps
      · cases steps
        exact .inl some_open
      · exact inside_begin some_open steps
    | element =>
      simp only [step] at steps
      split_ifs at steps
      · cases steps
        exact .inl some_open
      · exact inside_shut steps
      · exact inside_begin some_open steps
    | member =>
      simp only [step] at steps
      split_ifs at steps
      · cases steps
        exact .inl some_open
      · cases steps
        exact .inl some_open
      · exact inside_shut steps
    | key | colon | text =>
      simp only [step] at steps
      split_ifs at steps <;>
      · cases steps
        exact .inl some_open
    | closed => exact inside_follow steps
    | word =>
      simp only [step] at steps
      split_ifs at steps
      · cases steps
        exact .inl some_open
      · exact inside_follow steps
    | escape =>
      cases steps
      exact .inl some_open
  · subst outside
    exact inside_follow steps

theorem inside_run (inside : Inside scan) (runs : run scan bytes = some after) : Inside after := by
  induction bytes generalizing scan with
  | nil =>
    cases runs
    exact inside
  | cons b rest ih =>
    rw [run, Option.bind_eq_some_iff] at runs
    obtain ⟨middle, steps, runs⟩ := runs
    exact ih (inside_step inside steps) runs

/-- Behind a complete text only white space is read. -/
theorem space_of_closed
    (runs : run ⟨.closed, []⟩ bytes = some after) : ∀ b ∈ bytes, isSpace b = true := by
  induction bytes with
  | nil => simp
  | cons first rest ih =>
    rw [run, Option.bind_eq_some_iff] at runs
    obtain ⟨middle, steps, runs⟩ := runs
    have space : isSpace first = true ∧ middle = ⟨.closed, []⟩ := by
      simp only [step, follow, next, shut] at steps
      split_ifs at steps with isSpace
      cases steps
      exact ⟨isSpace, rfl⟩
    obtain ⟨space, rfl⟩ := space
    intro b member
    rcases List.mem_cons.mp member with rfl | later
    · exact space
    · exact ih runs b later

/-- A text that is an object, with nothing behind its closing brace. -/
structure IsObject (bytes : Bytes) : Prop where
  wellBracketed : WellBracketed bytes
  opens : bytes.head? = some 0x7B
  closes : bytes.getLast? = some 0x7D

/-- A proper prefix of an object text leaves a bracket open. -/
theorem open_of_prefix (object : IsObject (first ++ last))
    (nonempty : first ≠ []) (proper : last ≠ []) :
    ∃ scan, run ⟨.value, []⟩ first = some scan ∧ scan.frames ≠ [] := by
  obtain ⟨point, _, runs⟩ := object.wellBracketed
  rw [run_append, Option.bind_eq_some_iff] at runs
  obtain ⟨scan, runsFirst, runsLast⟩ := runs
  refine ⟨scan, runsFirst, ?_⟩
  have inside : Inside scan := by
    cases first with
    | nil => exact absurd rfl nonempty
    | cons b rest =>
      have brace : b = 0x7B := by simpa using object.opens
      subst brace
      rw [run, Option.bind_eq_some_iff] at runsFirst
      obtain ⟨middle, steps, runsFirst⟩ := runsFirst
      cases steps
      exact inside_run (.inl (List.cons_ne_nil _ _)) runsFirst
  intro none_open
  obtain ⟨place, frames⟩ := scan
  simp only at none_open
  subst none_open
  rcases inside with some_open | outside
  · exact some_open rfl
  · simp only at outside
    subst outside
    -- the closing brace of the object would be white space
    have ends : (0x7D : UInt8) ∈ last := by
      have closes := object.closes
      rw [List.getLast?_append_of_ne_nil _ proper] at closes
      exact List.mem_of_getLast? closes
    exact absurd (space_of_closed runsLast _ ends) (by decide)

/-- **A text cut short is no text.** -/
theorem torn_refused (object : IsObject (first ++ last))
    (nonempty : first ≠ []) (proper : last ≠ []) : ¬ WellBracketed first := by
  rintro ⟨point, _, runs⟩
  obtain ⟨scan, same, some_open⟩ := open_of_prefix object nonempty proper
  rw [runs] at same
  cases same
  exact some_open rfl

/-- An object whose first key starts with a letter, behind a place that is not
outside of every bracket: it is either refused or nested. -/
theorem run_behind (some_open : scan.frames ≠ []) {object rest : Bytes}
    (opens : object = 0x7B :: 0x22 :: 0x73 :: rest) (wellBracketed : WellBracketed object) :
    ∀ after, run scan object = some after → after.frames ≠ [] := by
  obtain ⟨place, frames⟩ := scan
  intro after runs
  obtain ⟨point, _, alone⟩ := wellBracketed
  have nested : run ⟨.value, frames⟩ object = some ⟨point, frames⟩ := run_within frames alone
  cases place with
  | value =>
    rw [nested] at runs
    cases runs
    exact some_open
  | element =>
    -- a value is due here as well
    have same : run ⟨.element, frames⟩ object = run ⟨.value, frames⟩ object := by
      rw [opens]
      rfl
    rw [same, nested] at runs
    cases runs
    exact some_open
  | member | key | colon | closed | word =>
    rw [opens] at runs
    cases runs
  | text isKey | escape isKey =>
    rw [opens] at runs
    cases isKey <;> cases runs

/-- **A text cut short stays refused when an object is written behind it**,
also when nothing of it was cut. -/
theorem torn_glued {object rest : Bytes} (torn : IsObject (first ++ last))
    (nonempty : first ≠ []) (opens : object = 0x7B :: 0x22 :: 0x73 :: rest)
    (wellBracketed : WellBracketed object) : ¬ WellBracketed (first ++ object) := by
  rintro ⟨point, _, runs⟩
  rw [run_append, Option.bind_eq_some_iff] at runs
  obtain ⟨scan, runsFirst, runs⟩ := runs
  by_cases whole : last = []
  · subst whole
    rw [List.append_nil] at torn
    obtain ⟨final, isFinal, alone⟩ := torn.wellBracketed
    rw [alone] at runsFirst
    cases runsFirst
    rw [opens] at runs
    rcases isFinal with rfl | rfl <;> cases runs
  · obtain ⟨inner, same, some_open⟩ := open_of_prefix torn nonempty whole
    rw [runsFirst] at same
    cases same
    exact run_behind some_open opens wellBracketed _ runs rfl

end Foundation.Json
