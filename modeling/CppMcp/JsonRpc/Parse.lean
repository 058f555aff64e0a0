import CppMcp.Protocol

namespace CppMcp

structure JsonRpcErrorDetail where
  code : Int
  message : String
  data : Option Json := none
deriving DecidableEq

structure JsonRpcRequest where
  id : RequestId
  method : String
  params : Option Json
deriving DecidableEq

structure JsonRpcNotification where
  method : String
  params : Option Json
deriving DecidableEq

structure JsonRpcSuccessResponse where
  id : RequestId
  result : Json
deriving DecidableEq

structure JsonRpcErrorResponse where
  id : RequestId
  error : JsonRpcErrorDetail
deriving DecidableEq

/-- `ParsedMessage` and `ClientParsedMessage`, the same variant on both sides. -/
inductive ParsedMessage where
  | request (req : JsonRpcRequest)
  | notification (notif : JsonRpcNotification)
  | success (resp : JsonRpcSuccessResponse)
  | error (resp : JsonRpcErrorResponse)
deriving DecidableEq

def checkJsonrpcEnvelope (raw : Json) : Bool := raw.find? "jsonrpc" == some (.string "2.0")

/-- `request_id_from_json`: the id of a request, which may not be null. -/
def requestIdFromJson (raw : Json) : Option RequestId :=
  match RequestId.fromJson raw with
  | .ok .null => none
  | .ok id => some id
  | .error _ => none

def invalidRequest (id : RequestId) (why : String) : ParsedMessage :=
  .error ⟨id, ⟨Protocol.invalidRequest, why, none⟩⟩

def paramsOk (raw : Json) : Bool :=
  match raw.find? "params" with
  | none => true
  | some p => p.isNull || p.isObject || p.isArray

/-- The params kept of a message: a null is dropped like an absent member. -/
def keptParams (raw : Json) : Option Json :=
  match raw.find? "params" with
  | some p => if p.isNull then none else some p
  | none => none

/-- The branch for a message with `id` and `method`, the same in both parsers. -/
def parseRequest (raw id : Json) : ParsedMessage :=
  match requestIdFromJson id with
  | none => invalidRequest .null "Request id must be a string or number (null is not allowed)"
  | some id =>
    match raw.find? "method" with
    | some (.string method) =>
      if paramsOk raw then .request ⟨id, method, keptParams raw⟩
      else invalidRequest id "Params must be a structured value (object or array)"
    | _ => invalidRequest id "Method must be a string"

/-- The branch for a message with `method` and no `id`, the same in both parsers. -/
def parseNotification (raw : Json) : ParsedMessage :=
  match raw.find? "method" with
  | some (.string method) =>
    if paramsOk raw then .notification ⟨method, keptParams raw⟩
    else invalidRequest .null "Params must be a structured value (object or array)"
  | _ => invalidRequest .null "Method must be a string"

/-- The `catch (const std::exception&)` around both parsers. -/
def orParseError : Except Exn ParsedMessage → ParsedMessage
  | .ok message => message
  | .error e => .error ⟨.null, ⟨Protocol.parseError, "Failed to parse message: " ++ e.what, none⟩⟩

/-- `parse_message`, the server's view: a response it did not ask for keeps its id. -/
def parseMessage (raw : Json) : ParsedMessage := orParseError do
  if !checkJsonrpcEnvelope raw then
    return invalidRequest .null "Invalid or missing jsonrpc version"
  match raw.find? "id" with
  | some id =>
    if raw.contains "method" then return parseRequest raw id
    let id ← RequestId.fromJson id
    match raw.find? "result" with
    | some result => return .success ⟨id, result⟩
    | none => return invalidRequest id "Server received a response message (unexpected)"
  | none =>
    if raw.contains "method" then return parseNotification raw
    return invalidRequest .null "Message must have method or be a valid request"

/-- The detail of an error response, each member defaulted when absent. -/
def errorDetail (err : Json) : Except Exn JsonRpcErrorDetail := do
  let code ← err.value Json.getInt "code" Protocol.internalError
  let message ← err.value Json.getString "message" "Unknown error"
  return ⟨code, message, err.find? "data"⟩

def parseMessageClient (raw : Json) : ParsedMessage := orParseError do
  if !checkJsonrpcEnvelope raw then
    return invalidRequest .null "Invalid or missing jsonrpc version"
  match raw.find? "id" with
  | some id =>
    if raw.contains "method" then return parseRequest raw id
    let id ← RequestId.fromJson id
    match raw.find? "result" with
    | some result => return .success ⟨id, result⟩
    | none =>
      match raw.find? "error" with
      | some err =>
        if err.isObject then return .error ⟨id, ← errorDetail err⟩
        return invalidRequest id "Response has neither result nor error"
      | none => return invalidRequest id "Server received a response message (unexpected)"
  | none =>
    if raw.contains "method" then return parseNotification raw
    return invalidRequest .null "Message must have method or be a valid request/response"

def makeSuccessResponse (id : RequestId) (result : Json) : Json :=
  .mk [("jsonrpc", .string "2.0"), ("id", requestIdToJson id), ("result", result)]

/-- The error member of a response: `data` only when there is some. -/
def errorObject (code : Int) (message : String) (data : Option Json) : Json :=
  .mk ([("code", .ofInt code), ("message", .string message)] ++
    (data.map fun d => ("data", d)).toList)

def makeErrorResponse (id : RequestId) (code : Int) (message : String)
    (data : Option Json := none) : Json :=
  .mk [("jsonrpc", .string "2.0"), ("id", requestIdToJson id),
    ("error", errorObject code message data)]

def makeErrorResponseNullId (code : Int) (message : String) (data : Option Json := none) : Json :=
  .mk [("jsonrpc", .string "2.0"), ("id", .null), ("error", errorObject code message data)]

def serializeRequest (req : JsonRpcRequest) : Json :=
  .mk ([("jsonrpc", .string "2.0"), ("id", requestIdToJson req.id),
    ("method", .string req.method)] ++ (req.params.map fun p => ("params", p)).toList)

def serializeNotification (notif : JsonRpcNotification) : Json :=
  .mk ([("jsonrpc", .string "2.0"), ("method", .string notif.method)] ++
    (notif.params.map fun p => ("params", p)).toList)

end CppMcp
