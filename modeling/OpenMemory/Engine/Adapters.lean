import OpenMemory.Foundation.Lines
import OpenMemory.Graph.Requests

/-!
# Source adapters

An adapter turns external data into batches of requests, until a batch is empty. The
ingestion submits them one by one and panics on a request that the engine refuses. Two
adapters are here: over meeting notes, one file a batch, and over the lines of a chat
export. A note is read line by line; slicing a line inside a character is a panic.

What the engine does with its queues blocks, but neither fails nor panics, so the engine
is the list of the requests it was given. Reading a file yields its text or an error, and
decoding a message is a function of the line.
-/

namespace OpenMemory.Engine

open Foundation OpenMemory.Graph

/-! ## Panics -/

inductive Panic where
  /-- A text is sliced at a byte that is inside a character. -/
  | charBoundary (text : String) (index : Nat)
  /-- `ContextEngine::submit` received an invalid request. -/
  | invalidRequest (error : MemoryError)
  deriving DecidableEq

abbrev Panicking := Except Panic

/-- What stands in front of a byte and behind it, where it is no part of a character. -/
def splitAtByte (index : Nat) : List Char → Option (List Char × List Char)
  | [] => if index = 0 then some ([], []) else none
  | c :: rest =>
    if index = 0 then some ([], c :: rest)
    else if c.utf8Size ≤ index then
      (splitAtByte (index - c.utf8Size) rest).map fun (front, back) => (c :: front, back)
    else none

def stripPrefixCi (s lead : String) : Panicking (Option String) :=
  if lead.utf8ByteSize ≤ s.utf8ByteSize then
    match splitAtByte lead.utf8ByteSize s.toList with
    | none => .error (.charBoundary s lead.utf8ByteSize)
    | some (front, back) =>
      .ok (if front.map Char.toLower = lead.toList.map Char.toLower then
        some (String.ofList back) else none)
  else .ok none

/-! ## Adapters -/

/-- A source of requests over states of its own. A batch that is not empty consumes a part
of the source. -/
structure SourceAdapter (σ : Type) where
  name : String
  nextBatch : σ → Panicking (MemoryResult (List RememberRequest × σ))
  remaining : σ → Nat
  consumes {state next : σ} {batch : List RememberRequest}
    (yields : nextBatch state = .ok (.ok (batch, next))) (nonempty : batch ≠ []) :
    remaining next < remaining state

structure IngestReport where
  requests : Nat
  batches : Nat

/-- The report, and the requests that the engine has been given. -/
structure Ingestion where
  report : IngestReport
  submitted : List RememberRequest

def Ingestion.initial : Ingestion := ⟨⟨0, 0⟩, []⟩

/-- `ContextEngine::submit`, and the count of the request. -/
def Ingestion.submit (ingestion : Ingestion) (request : RememberRequest) : Panicking Ingestion :=
  match request.validate with
  | .error error => .error (.invalidRequest error)
  | .ok () => .ok
      { report := { ingestion.report with requests := ingestion.report.requests + 1 }
        submitted := ingestion.submitted ++ [request] }

/-- The loop of `ingest_all`. -/
def ingestFrom {σ : Type} (adapter : SourceAdapter σ) (ingestion : Ingestion) (state : σ) :
    Panicking (MemoryResult Ingestion) :=
  match yields : adapter.nextBatch state with
  | .error panic => .error panic
  | .ok (.error error) => .ok (.error error)
  | .ok (.ok (batch, next)) =>
    if empty : batch = [] then .ok (.ok ingestion)
    else
      let counted := { ingestion.report with batches := ingestion.report.batches + 1 }
      match batch.foldlM Ingestion.submit { ingestion with report := counted } with
      | .error panic => .error panic
      | .ok after =>
        have := adapter.consumes yields empty
        ingestFrom adapter after next
termination_by adapter.remaining state

def ingestAll {σ : Type} (adapter : SourceAdapter σ) (state : σ) :
    Panicking (MemoryResult Ingestion) :=
  ingestFrom adapter .initial state

/-! ## Meeting notes -/

/-- What a path tells about itself: its stem, when it has one in UTF-8, and its display. -/
structure NotePath where
  fileStem : Option String
  display : String

structure NoteSection where
  title : Option String
  lines : List String

/-- The loop variables; the last section is `current`. -/
structure NoteState where
  entityName : Option String
  attendees : List String
  closed : List NoteSection
  current : NoteSection

def NoteState.initial : NoteState := ⟨none, [], [], ⟨none, []⟩⟩

def NoteState.sections (state : NoteState) : List NoteSection := state.closed ++ [state.current]

/-- The names of a line of attendees. -/
def attendeesOf (rest : String) : List String :=
  ((rest.toList.splitOn ',').map fun a =>
    String.ofList ((trim (String.ofList a)).toList.dropWhile (· = '@'))).filter (· ≠ "")

def NoteState.line (state : NoteState) (line : String) : Panicking NoteState :=
  let trimmed := trim line
  match stripPrefix "# " trimmed with
  | some h1 => .ok { state with entityName := state.entityName.or (some (trim h1)) }
  | none =>
    match stripPrefix "## " trimmed with
    | some h2 => .ok
        { state with
          closed := state.closed ++ [state.current]
          current := ⟨some (trim h2), []⟩ }
    | none => do
        match ← stripPrefixCi trimmed "attendees:" with
        | some rest => return { state with attendees := state.attendees ++ attendeesOf rest }
        | none =>
          let lines := state.current.lines ++ [line]
          return { state with current := { state.current with lines } }

/-- The observation of a section, unless its body is empty. -/
def NoteSection.observation (filePath : String) (section_ : NoteSection) :
    Option ObservationInput :=
  let body := trim ("\n".intercalate section_.lines)
  if body = "" then none
  else some
    { ObservationInput.new body with
      sourceKind := some "meeting-note"
      sourceFiles := [filePath]
      title := section_.title }

def parseMarkdownNote (path : NotePath) (text : String) : Panicking (Option RememberRequest) := do
  let state ← (textLines text).foldlM NoteState.line .initial
  let observations := state.sections.filterMap (NoteSection.observation path.display)
  let relations := state.attendees.map fun name =>
    RelationInput.new "has_participant" name .person
  if observations = [] ∧ relations = [] then return none
  return some
    { name := state.entityName.getD (path.fileStem.getD "note")
      entityType := .event
      observations := observations
      relations := relations
      source := "markdown-notes" }

/-- A file of the directory: its path, and what reading it yields. -/
structure NoteFile where
  path : NotePath
  text : MemoryResult String

/-- `MarkdownNotesAdapter::next_batch` on the files behind the cursor. -/
def nextNote : List NoteFile → Panicking (MemoryResult (List RememberRequest × List NoteFile))
  | [] => .ok (.ok ([], []))
  | file :: rest =>
    match file.text with
    | .error error => .ok (.error error)
    | .ok text =>
      match parseMarkdownNote file.path text with
      | .error panic => .error panic
      | .ok (some request) => .ok (.ok ([request], rest))
      | .ok none => nextNote rest

theorem nextNote_consumes {files next : List NoteFile} {batch : List RememberRequest}
    (yields : nextNote files = .ok (.ok (batch, next))) (nonempty : batch ≠ []) :
    next.length < files.length := by
  induction files with
  | nil =>
    cases yields
    exact absurd rfl nonempty
  | cons file rest ih =>
    unfold nextNote at yields
    split at yields
    · cases yields
    · split at yields
      · cases yields
      · cases yields
        exact Nat.lt_succ_self _
      · exact Nat.lt_succ_of_lt (ih yields)

def markdownNotesAdapter : SourceAdapter (List NoteFile) where
  name := "markdown-notes"
  nextBatch := nextNote
  remaining := List.length
  consumes := nextNote_consumes

/-! ## Chat exports -/

structure ChatMessage where
  channel : String
  user : String
  ts : Option Int64
  text : String
  deriving DecidableEq

def ChatMessage.request (msg : ChatMessage) : RememberRequest where
  name := "#" ++ msg.channel
  entityType := .concept
  observations :=
    [{ ObservationInput.new msg.text with
        source := "chat:" ++ msg.user
        sourceKind := some "chat-message"
        validFrom := msg.ts }]
  relations := [RelationInput.new "has_participant" msg.user .person]
  source := "chat-jsonl"

/-- The number of lines read, and what reading the others yields. -/
structure ChatReader where
  lineNo : Nat
  lines : List (MemoryResult String)

def chatBatchSize : Nat := 256

variable (fromStr : String → Except String ChatMessage)

/-- The loop of `ChatJsonlAdapter::next_batch`, with the room that is left in the batch. -/
def readMessages (room lineNo : Nat) :
    List (MemoryResult String) → MemoryResult (List RememberRequest × ChatReader)
  | [] => .ok ([], ⟨lineNo, []⟩)
  | line :: rest =>
    if room = 0 then .ok ([], ⟨lineNo, line :: rest⟩)
    else do
      let line ← line
      let lineNo := lineNo + 1
      if blank line then readMessages room lineNo rest
      else
        match fromStr line with
        | .error e => .error (.invalidInput s!"chat export line {lineNo}: {e}")
        | .ok msg =>
          if blank msg.text then readMessages room lineNo rest
          else do
            let (batch, reader) ← readMessages (room - 1) lineNo rest
            return (msg.request :: batch, reader)

theorem readMessages_consumes {room lineNo : Nat} {lines : List (MemoryResult String)}
    {batch : List RememberRequest} {reader : ChatReader}
    (yields : readMessages fromStr room lineNo lines = .ok (batch, reader)) :
    reader.lines.length + batch.length ≤ lines.length := by
  induction lines generalizing room lineNo batch with
  | nil =>
    cases yields
    exact Nat.le_refl _
  | cons line rest ih =>
    unfold readMessages at yields
    split at yields
    · cases yields
      exact Nat.le_refl _
    · obtain ⟨text, -, goes⟩ := bind_eq_ok.mp yields
      dsimp only at goes
      split at goes
      · exact Nat.le_succ_of_le (ih goes)
      · split at goes
        · cases goes
        · split at goes
          · exact Nat.le_succ_of_le (ih goes)
          · obtain ⟨⟨others, after⟩, read, same⟩ := bind_eq_ok.mp goes
            cases same
            exact Nat.succ_le_succ (ih read)

def chatJsonlAdapter : SourceAdapter ChatReader where
  name := "chat-jsonl"
  nextBatch := fun reader => .ok (readMessages fromStr chatBatchSize reader.lineNo reader.lines)
  remaining := fun reader => reader.lines.length
  consumes := fun yields nonempty => by
    have all := readMessages_consumes fromStr (Except.ok.inj yields)
    have some_ := List.length_pos_iff.mpr nonempty
    omega

end OpenMemory.Engine
