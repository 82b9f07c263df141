import OpenMemory.Graph.Types

/-!
# JSON-RPC over lines

A request is read from a JSON value by the field names of `JsonRpcRequest`; serde also reads one
from an array that has the fields in their order. The server answers a request by its method.
The loop over the standard input reads one line after another, and answers each.

How a text is read as JSON, and what is said about one that is no request, is taken from outside
(`SerdeJson`), as are the tools (`ToolRouter`).
-/

namespace OpenMemory.Mcp

open Foundation

/-! ## Messages -/

/-- A JSON value. The fields of an object are kept in their order, also where a name repeats. -/
inductive Value where
  | null
  | bool (value : Bool)
  | number (text : String)
  | string (text : String)
  | array (items : List Value)
  | object (fields : List (String × Value))

structure JsonRpcError where
  code : Int
  message : String
  data : Option Value

namespace JsonRpcError

def invalidParams (message : String) : JsonRpcError := ⟨-32602, message, none⟩

def methodNotFound (name : String) : JsonRpcError := ⟨-32601, "method not found: " ++ name, none⟩

def internalError (message : String) : JsonRpcError := ⟨-32603, message, none⟩

def parseError (message : String) : JsonRpcError := ⟨-32700, message, none⟩

end JsonRpcError

/-- A request, or a notification where it has no id. -/
structure JsonRpcRequest where
  jsonrpc : String
  id : Option Value
  method : String
  params : Value

structure JsonRpcResponse where
  id : Value
  result : Option Value
  error : Option JsonRpcError

namespace JsonRpcResponse

def success (id : Option Value) (result : Value) : JsonRpcResponse :=
  ⟨id.getD .null, some result, none⟩

def failure (id : Option Value) (error : JsonRpcError) : JsonRpcResponse :=
  ⟨id.getD .null, none, some error⟩

end JsonRpcResponse

/-! ## Reading values -/

namespace Value

def asString : Value → Option String
  | .string text => some text
  | _ => none

/-- An optional value is absent where it is null. -/
def present : Value → Option Value
  | .null => none
  | value => some value

/-- The field of an object, if it has one; a field given twice is refused. -/
def field (fields : List (String × Value)) (name : String) : Option (Option Value) :=
  match fields.filter fun entry => entry.1 = name with
  | [] => some none
  | [entry] => some (some entry.2)
  | _ => none

def textField (fields : List (String × Value)) (name : String) : Option String :=
  (field fields name).bind fun value => value.bind asString

end Value

namespace JsonRpcRequest

def ofObject (fields : List (String × Value)) : Option JsonRpcRequest := do
  let jsonrpc ← Value.textField fields "jsonrpc"
  let id ← Value.field fields "id"
  let method ← Value.textField fields "method"
  let params ← Value.field fields "params"
  return { jsonrpc, id := id.bind Value.present, method, params := params.getD .null }

/-- The fields in their order; the parameters may be left out. -/
def ofArray : List Value → Option JsonRpcRequest
  | [.string jsonrpc, id, .string method] =>
    some { jsonrpc, id := id.present, method, params := .null }
  | [.string jsonrpc, id, .string method, params] =>
    some { jsonrpc, id := id.present, method, params }
  | _ => none

def ofValue : Value → Option JsonRpcRequest
  | .object fields => ofObject fields
  | .array items => ofArray items
  | _ => none

end JsonRpcRequest

structure CallToolRequestParams where
  name : String
  arguments : Value

namespace CallToolRequestParams

def ofObject (fields : List (String × Value)) : Option CallToolRequestParams := do
  let name ← Value.textField fields "name"
  let arguments ← Value.field fields "arguments"
  return { name, arguments := arguments.getD .null }

def ofArray : List Value → Option CallToolRequestParams
  | [.string name] => some { name, arguments := .null }
  | [.string name, arguments] => some { name, arguments }
  | _ => none

def ofValue : Value → Option CallToolRequestParams
  | .object fields => ofObject fields
  | .array items => ofArray items
  | _ => none

end CallToolRequestParams

/-- How serde_json reads texts, and what it says of those it does not read. -/
class SerdeJson where
  parse : String → Option Value
  requestError : String → String
  paramsError : Value → String

/-! ## The server -/

/-- One registered tool; a call may change the state of the server. -/
structure Entry (σ : Type) where
  name : String
  descriptor : Value
  handler : σ → Value → σ × Except JsonRpcError Value

structure Server (σ : Type) where
  initializeResult : Value
  entries : List (Entry σ)

section Server

variable {σ : Type} [SerdeJson] (server : Server σ)

/-- `ToolRouter::call`; of two tools of one name, the later one is in the table. -/
def Server.call (state : σ) (params : Value) : σ × Except JsonRpcError Value :=
  match CallToolRequestParams.ofValue params with
  | none => (state, .error (.invalidParams
      ("invalid tools/call params: " ++ SerdeJson.paramsError params)))
  | some parsed =>
    match server.entries.reverse.find? fun entry => entry.name = parsed.name with
    | none => (state, .error (.methodNotFound parsed.name))
    | some entry => entry.handler state parsed.arguments

/-- `OpenMemoryMcpServer::handle`. -/
def Server.handle (state : σ) (req : JsonRpcRequest) : σ × Option JsonRpcResponse :=
  if req.method = "initialize" then
    (state, some (.success req.id server.initializeResult))
  else if req.method = "notifications/initialized" then (state, none)
  else if req.method = "tools/list" then
    (state, some (.success req.id
      (.object [("tools", .array (server.entries.map Entry.descriptor))])))
  else if req.method = "tools/call" then
    match server.call state req.params with
    | (state, .ok result) => (state, some (.success req.id result))
    | (state, .error error) => (state, some (.failure req.id error))
  else (state, some (.failure req.id (.methodNotFound req.method)))

end Server

/-! ## The loop -/

/-- The lines of the input with their terminators, as `read_line` returns them. -/
def readLines : List UInt8 → List (List UInt8)
  | [] => []
  | byte :: rest =>
    if byte = 10 then [byte] :: readLines rest
    else match readLines rest with
      | [] => [[byte]]
      | line :: lines => (byte :: line) :: lines

/-- The text of a line, if it is UTF-8. -/
def lineText (line : List UInt8) : Option String := String.fromUTF8? ⟨line.toArray⟩

/-- What the loop has done: what it wrote for each line it handled, and whether it went on to
the end of its input. -/
structure Served where
  outputs : List (Option JsonRpcResponse)
  ended : Bool

/-- The lines that are written. -/
def Served.responses (served : Served) : List JsonRpcResponse := served.outputs.reduceOption

section Loop

variable {σ : Type} [SerdeJson] (server : Server σ)

/-- `serde_json::from_str::<JsonRpcRequest>`. -/
def readRequest (text : String) : Option JsonRpcRequest :=
  (SerdeJson.parse text).bind JsonRpcRequest.ofValue

/-- The body of the loop: the new state and the response that is written, if any. There is none
where the line is not UTF-8. -/
def serveLine (state : σ) (line : List UInt8) : Option (σ × Option JsonRpcResponse) :=
  match lineText line with
  | none => none
  | some text =>
    if Graph.blank text then some (state, none)
    else match readRequest (trim text) with
      | some req => some (server.handle state req)
      | none => some (state, some (.failure none
          (.parseError ("parse error: " ++ SerdeJson.requestError (trim text)))))

def serveLines : σ → List (List UInt8) → Served
  | _, [] => ⟨[], true⟩
  | state, line :: rest =>
    match serveLine server state line with
    | none => ⟨[], false⟩
    | some (next, output) =>
      let served := serveLines next rest
      { served with outputs := output :: served.outputs }

/-- `run`, from a state of the server. -/
def run (state : σ) (input : List UInt8) : Served := serveLines server state (readLines input)

end Loop

end OpenMemory.Mcp
