import OpenMemory.Mcp.Protocol

/-!
# One answer for each request

A line is blank, a request, a notification or something else (`LineKind`), and each kind has its
answer (`Answered`). The loop gives each line its answer exactly where all lines are `Regular` in
the state they are met in: a line that is not UTF-8 ends the loop, the method
`notifications/initialized` is never answered, every other notification is, and an array that
serde reads as a request is taken for one.
-/

namespace OpenMemory.Mcp

open Foundation

/-! ## What a line is, and how it is answered -/

inductive LineKind where
  | blank
  | request (id : Value)
  | notification
  | other

/-- What an object says: it is a request where it has an id. -/
def objectKind (fields : List (String × Value)) : LineKind :=
  match JsonRpcRequest.ofObject fields with
  | none => .other
  | some req => req.id.elim .notification .request

def valueKind : Option Value → LineKind
  | some (.object fields) => objectKind fields
  | _ => .other

def lineKind [SerdeJson] (line : List UInt8) : LineKind :=
  match lineText line with
  | none => .other
  | some text => if Graph.blank text then .blank else valueKind (SerdeJson.parse (trim text))

/-- The answer to a line: a request is answered under its id, and what is neither blank nor a
request nor a notification by an error without one. -/
def Answered : LineKind → Option JsonRpcResponse → Prop
  | .blank, output => output = none
  | .request id, output => ∃ response, output = some response ∧ response.id = id
  | .notification, output => output = none
  | .other, output =>
    ∃ response, output = some response ∧ response.id = .null ∧ response.error.isSome = true

variable {line : List UInt8} {req : JsonRpcRequest} {text : String}

section Framing

variable {σ : Type} [SerdeJson] {server : Server σ} {state : σ}

/-- The loop goes on to the end of the input, and each line gets its answer, in order. -/
structure Framed (server : Server σ) (state : σ) (input : List UInt8) : Prop where
  ended : (run server state input).ended = true
  answered : List.Forall₂ (fun line output => Answered (lineKind line) output)
    (readLines input) (run server state input).outputs

/-! ## The lines that are answered as they should -/

/-- The object is a request with another method than `notifications/initialized`, or a
notification with this one. -/
def RegularObject (req : JsonRpcRequest) : Prop :=
  req.id.isSome = true ↔ req.method ≠ "notifications/initialized"

/-- The array is refused, by its method or by the tool it calls, and without an id. -/
def RegularArray (server : Server σ) (state : σ) (req : JsonRpcRequest) : Prop :=
  req.id = none ∧ req.method ≠ "notifications/initialized" ∧ req.method ≠ "initialize" ∧
    req.method ≠ "tools/list" ∧
    (req.method = "tools/call" → ∃ error, (server.call state req.params).2 = .error error)

def RegularValue (server : Server σ) (state : σ) : Value → Prop
  | .object fields => ∀ req, JsonRpcRequest.ofObject fields = some req → RegularObject req
  | .array items => ∀ req, JsonRpcRequest.ofArray items = some req → RegularArray server state req
  | _ => True

/-- The line is UTF-8, and blank or a value that is answered as it should. -/
def Regular (server : Server σ) (state : σ) (line : List UInt8) : Prop :=
  ∃ text, lineText line = some text ∧ (Graph.blank text = false →
    ∀ value, SerdeJson.parse (trim text) = some value → RegularValue server state value)

/-- The server answers under the id of the request, but for one method. -/
theorem handle_eq (state : σ) (req : JsonRpcRequest) :
    (req.method = "notifications/initialized" → (server.handle state req).2 = none) ∧
    (req.method ≠ "notifications/initialized" →
      ∃ response, (server.handle state req).2 = some response ∧
        response.id = req.id.getD .null) := by
  unfold Server.handle
  constructor
  · intro named
    rw [named]
    rfl
  · intro other
    rw [if_neg other]
    split
    · exact ⟨_, rfl, rfl⟩
    · split
      · exact ⟨_, rfl, rfl⟩
      · split
        · cases called : server.call state req.params with
          | mk next outcome =>
            cases outcome with
            | error _ => exact ⟨_, rfl, rfl⟩
            | ok _ => exact ⟨_, rfl, rfl⟩
        · exact ⟨_, rfl, rfl⟩

/-- The requests that the server answers by an error. -/
theorem handle_error_iff (state : σ) (req : JsonRpcRequest) :
    (∃ response, (server.handle state req).2 = some response ∧ response.error.isSome = true) ↔
      req.method ≠ "notifications/initialized" ∧ req.method ≠ "initialize" ∧
        req.method ≠ "tools/list" ∧
        (req.method = "tools/call" → ∃ error, (server.call state req.params).2 = .error error) := by
  unfold Server.handle
  by_cases first : req.method = "initialize"
  · rw [if_pos first]
    refine iff_of_false ?_ fun other => other.2.1 first
    rintro ⟨_, answered, failed⟩
    cases answered
    cases failed
  rw [if_neg first]
  by_cases second : req.method = "notifications/initialized"
  · rw [if_pos second]
    refine iff_of_false ?_ fun other => other.1 second
    rintro ⟨_, answered, _⟩
    cases answered
  rw [if_neg second]
  by_cases third : req.method = "tools/list"
  · rw [if_pos third]
    refine iff_of_false ?_ fun other => other.2.2.1 third
    rintro ⟨_, answered, failed⟩
    cases answered
    cases failed
  rw [if_neg third]
  by_cases called : req.method = "tools/call"
  · rw [if_pos called]
    cases outcome : server.call state req.params with
    | mk next result =>
      cases result with
      | error error => exact iff_of_true ⟨_, rfl, rfl⟩ ⟨second, first, third, fun _ => ⟨error, rfl⟩⟩
      | ok value =>
        refine iff_of_false ?_ fun other => ?_
        · rintro ⟨_, answered, failed⟩
          cases answered
          cases failed
        · obtain ⟨error, failed⟩ := other.2.2.2 called
          cases failed
  · rw [if_neg called]
    exact iff_of_true ⟨_, rfl, rfl⟩ ⟨second, first, third, fun here => absurd here called⟩

theorem object_answered_iff {fields : List (String × Value)}
    (read : JsonRpcRequest.ofObject fields = some req) :
    Answered (objectKind fields) (server.handle state req).2 ↔ RegularObject req := by
  unfold objectKind RegularObject
  rw [read]
  dsimp only
  obtain ⟨silent, answers⟩ := @handle_eq _ _ server state req
  by_cases named : req.method = "notifications/initialized"
  · rw [silent named]
    cases req.id with
    | none => exact iff_of_true rfl ⟨fun isSome => (nomatch isSome), fun other => absurd named other⟩
    | some id =>
      refine iff_of_false ?_ fun regular => regular.mp rfl named
      rintro ⟨_, answered, _⟩
      cases answered
  · obtain ⟨response, answered, echoed⟩ := answers named
    rw [answered]
    cases given : req.id with
    | none =>
      refine iff_of_false (fun silent => nomatch silent) fun regular => ?_
      cases regular.mpr named
    | some id =>
      rw [given] at echoed
      exact iff_of_true ⟨response, rfl, echoed⟩ ⟨fun _ => named, fun _ => rfl⟩

omit [SerdeJson] in
theorem present_ne_null {value : Value} : value.present ≠ some .null := by
  cases value <;> simp [Value.present]

omit [SerdeJson] in
theorem ofArray_id {items : List Value}
    (read : JsonRpcRequest.ofArray items = some req) : req.id ≠ some .null := by
  unfold JsonRpcRequest.ofArray at read
  split at read
  · cases read
    exact present_ne_null
  · cases read
    exact present_ne_null
  · cases read

/-- The answer to an array that is read as a request. -/
theorem array_answered_iff {items : List Value} (read : JsonRpcRequest.ofArray items = some req) :
    Answered .other (server.handle state req).2 ↔ RegularArray server state req := by
  unfold Answered RegularArray
  rw [← handle_error_iff]
  constructor
  · rintro ⟨response, answered, unnamed, failed⟩
    refine ⟨?_, response, answered, failed⟩
    have named : req.method ≠ "notifications/initialized" := fun named => by
      rw [(handle_eq state req).1 named] at answered
      cases answered
    obtain ⟨same, there, echoed⟩ := (handle_eq state req).2 named
    cases answered.symm.trans there
    rw [unnamed] at echoed
    cases given : req.id with
    | none => rfl
    | some id =>
      rw [given] at echoed
      exact absurd (given.trans (congrArg some echoed.symm)) (ofArray_id read)
  · rintro ⟨absent, response, answered, failed⟩
    refine ⟨response, answered, ?_, failed⟩
    have named : req.method ≠ "notifications/initialized" := fun named => by
      rw [(handle_eq state req).1 named] at answered
      cases answered
    obtain ⟨same, there, echoed⟩ := (handle_eq state req).2 named
    cases answered.symm.trans there
    rw [echoed, absent]
    rfl

theorem serveLine_of_read (decoded : lineText line = some text) (filled : Graph.blank text = false)
    (read : readRequest (trim text) = some req) :
    serveLine server state line = some (server.handle state req) := by
  unfold serveLine
  rw [decoded]
  dsimp only
  rw [filled, read]
  rfl

theorem serveLine_of_unread
    (decoded : lineText line = some text) (filled : Graph.blank text = false)
    (unread : readRequest (trim text) = none) :
    serveLine server state line = some (state, some (.failure none
      (.parseError ("parse error: " ++ SerdeJson.requestError (trim text))))) := by
  unfold serveLine
  rw [decoded]
  dsimp only
  rw [filled, unread]
  rfl

omit [SerdeJson] in
theorem some_pair_iff {pair : σ × Option JsonRpcResponse} {kind : LineKind} :
    (∃ next output, some pair = some (next, output) ∧ Answered kind output) ↔
      Answered kind pair.2 := by
  constructor
  · rintro ⟨next, output, same, answered⟩
    cases same
    exact answered
  · exact fun answered => ⟨pair.1, pair.2, rfl, answered⟩

omit [SerdeJson] in
/-- A line that is neither blank nor read is answered by an error without an id. -/
theorem answered_parseError (message : String) :
    Answered .other (some (.failure none (.parseError message))) := ⟨_, rfl, rfl, rfl⟩

/-- The line is answered as its value asks for. -/
theorem value_answered_iff {value : Value}
    (decoded : lineText line = some text) (filled : Graph.blank text = false)
    (parsed : SerdeJson.parse (trim text) = some value) :
    (∃ next output, serveLine server state line = some (next, output) ∧
      Answered (valueKind (some value)) output) ↔ RegularValue server state value := by
  have reads : readRequest (trim text) = JsonRpcRequest.ofValue value := by
    rw [readRequest, parsed, Option.bind_some]
  cases value with
  | object fields =>
    change _ ↔ ∀ req, JsonRpcRequest.ofObject fields = some req → RegularObject req
    change readRequest (trim text) = JsonRpcRequest.ofObject fields at reads
    cases read : JsonRpcRequest.ofObject fields with
    | none =>
      have other : valueKind (some (.object fields)) = .other := by
        change objectKind fields = .other
        rw [objectKind, read]
      rw [serveLine_of_unread decoded filled (reads.trans read), some_pair_iff, other]
      exact iff_of_true (answered_parseError _) fun req same => nomatch same
    | some req =>
      rw [serveLine_of_read decoded filled (reads.trans read), some_pair_iff]
      refine (object_answered_iff read).trans ⟨fun regular other same => ?_, fun all => all req rfl⟩
      cases same
      exact regular
  | array items =>
    change _ ↔ ∀ req, JsonRpcRequest.ofArray items = some req → RegularArray server state req
    change readRequest (trim text) = JsonRpcRequest.ofArray items at reads
    cases read : JsonRpcRequest.ofArray items with
    | none =>
      rw [serveLine_of_unread decoded filled (reads.trans read), some_pair_iff]
      exact iff_of_true (answered_parseError _) fun req same => nomatch same
    | some req =>
      rw [serveLine_of_read decoded filled (reads.trans read), some_pair_iff]
      refine (array_answered_iff read).trans ⟨fun regular other same => ?_, fun all => all req rfl⟩
      cases same
      exact regular
  | null | bool | number | string =>
    rw [serveLine_of_unread decoded filled reads, some_pair_iff]
    exact iff_of_true (answered_parseError _) trivial

/-- **One line** is answered as it should exactly where it is regular. -/
theorem serveLine_answered_iff (state : σ) (line : List UInt8) :
    (∃ next output, serveLine server state line = some (next, output) ∧
      Answered (lineKind line) output) ↔ Regular server state line := by
  unfold lineKind Regular
  cases decoded : lineText line with
  | none =>
    refine iff_of_false ?_ ?_
    · rintro ⟨next, output, served, _⟩
      rw [serveLine, decoded] at served
      cases served
    · rintro ⟨text, same, _⟩
      cases same
  | some text =>
    have alone {holds : String → Prop} : (∃ other, some text = some other ∧ holds other) ↔
        holds text := by simp
    rw [alone]
    dsimp only
    cases filled : Graph.blank text with
    | true =>
      refine iff_of_true ⟨state, none, ?_, rfl⟩ fun same => Bool.noConfusion same
      rw [serveLine, decoded]
      dsimp only
      rw [filled]
      rfl
    | false =>
      rw [if_neg Bool.false_ne_true]
      cases parsed : SerdeJson.parse (trim text) with
      | none =>
        have unread : readRequest (trim text) = none := by
          rw [readRequest, parsed, Option.bind_none]
        rw [serveLine_of_unread decoded filled unread, some_pair_iff]
        exact iff_of_true (answered_parseError _) fun _ value same => nomatch same
      | some value =>
        refine (value_answered_iff decoded filled parsed).trans ⟨fun regular _ other same => ?_,
          fun all => all rfl value rfl⟩
        cases same
        exact regular

/-! ## The loop -/

/-- The state of the server after lines. -/
def stateAfter (server : Server σ) : σ → List (List UInt8) → σ
  | state, [] => state
  | state, line :: rest =>
    match serveLine server state line with
    | none => state
    | some (next, _) => stateAfter server next rest

omit [SerdeJson] in
/-- A line of a list, with the state that the lines before it leave, is the first one or one of
the others. -/
theorem forall_split_cons {rest : List (List UInt8)}
    {holds : List (List UInt8) → List UInt8 → Prop} :
    (∀ before here after, line :: rest = before ++ here :: after → holds before here) ↔
      holds [] line ∧
        ∀ before here after, rest = before ++ here :: after → holds (line :: before) here := by
  constructor
  · intro all
    exact ⟨all [] line rest rfl, fun before here after same =>
      all (line :: before) here after (congrArg (line :: ·) same)⟩
  · rintro ⟨first, later⟩ before here after same
    cases before with
    | nil =>
      cases same
      exact first
    | cons head before =>
      cases same
      exact later before here after rfl

/-- **The lines** are all answered as they should exactly where each is regular in its state. -/
theorem serveLines_answered_iff (lines : List (List UInt8)) (state : σ) :
    ((serveLines server state lines).ended = true ∧
      List.Forall₂ (fun line output => Answered (lineKind line) output) lines
        (serveLines server state lines).outputs) ↔
      ∀ before line after, lines = before ++ line :: after →
        Regular server (stateAfter server state before) line := by
  induction lines generalizing state with
  | nil =>
    refine iff_of_true ⟨rfl, .nil⟩ fun before line after same => ?_
    exact absurd same.symm (List.append_ne_nil_of_right_ne_nil before (List.cons_ne_nil _ _))
  | cons line rest ih =>
    rw [forall_split_cons]
    simp only [serveLines, stateAfter]
    rw [← serveLine_answered_iff]
    cases served : serveLine server state line with
    | none => simp
    | some pair =>
      obtain ⟨next, output⟩ := pair
      simp only [List.forall₂_cons, Option.some.injEq, Prod.mk.injEq]
      rw [← ih next]
      constructor
      · rintro ⟨ended, answered, others⟩
        exact ⟨⟨next, output, ⟨rfl, rfl⟩, answered⟩, ended, others⟩
      · rintro ⟨⟨_, _, ⟨rfl, rfl⟩, answered⟩, ended, others⟩
        exact ⟨ended, answered, others⟩

/-- **The loop answers each line as it should** exactly where each line is regular in the state
it is met in. -/
theorem framed_iff (server : Server σ) (state : σ) (input : List UInt8) :
    Framed server state input ↔
      ∀ before line after, readLines input = before ++ line :: after →
        Regular server (stateAfter server state before) line :=
  ⟨fun framed => (serveLines_answered_iff _ state).mp ⟨framed.ended, framed.answered⟩,
    fun regular =>
      have served := (serveLines_answered_iff (readLines input) state).mpr regular
      ⟨served.1, served.2⟩⟩

end Framing

/-! ## A line that ends the loop, and a notification that is answered -/

section Example

/-- The notification of a client that gives a request up. -/
def cancelled : String := "\x7b\"jsonrpc\":\"2.0\",\"method\":\"notifications/cancelled\"\x7d"

/-- serde_json on this one text. -/
local instance cancelledJson : SerdeJson where
  parse text :=
    if text = cancelled then
      some (.object [("jsonrpc", .string "2.0"), ("method", .string "notifications/cancelled")])
    else none
  requestError _ := "expected value at line 1 column 1"
  paramsError _ := "missing field name"

/-- A server without tools. -/
def emptyServer : Server Unit := ⟨.object [], []⟩

/-- **A byte that is in no UTF-8 text** ends the loop, and a notification is answered. -/
theorem lines_answered_otherwise :
    ¬ Framed emptyServer () [0xFF, 10] ∧ ¬ Framed emptyServer () cancelled.toUTF8.data.toList := by
  constructor
  · intro framed
    have ended : (run emptyServer () [0xFF, 10]).ended = false := by
      decide +kernel
    exact Bool.noConfusion (ended.symm.trans framed.ended)
  · intro framed
    have lines : readLines cancelled.toUTF8.data.toList = [cancelled.toUTF8.data.toList] := by
      decide +kernel
    have outputs : ((run emptyServer () cancelled.toUTF8.data.toList).outputs.map
        Option.isSome) = [true] := by decide +kernel
    have kind : (match lineKind cancelled.toUTF8.data.toList with
        | .notification => true
        | _ => false) = true := by decide +kernel
    have answered := framed.answered
    rw [lines] at answered
    obtain ⟨output, rest, first, _, same⟩ := List.forall₂_cons_left_iff.mp answered
    rw [same, List.map_cons] at outputs
    have written : output.isSome = true := (List.cons.inj outputs).1
    cases sort : lineKind cancelled.toUTF8.data.toList with
    | notification =>
      rw [sort] at first
      cases first
      cases written
    | blank | request | other =>
      rw [sort] at kind
      cases kind

end Example

end OpenMemory.Mcp
