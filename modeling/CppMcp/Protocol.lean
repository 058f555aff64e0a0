import CppMcp.Json.Value

namespace CppMcp

namespace Protocol

def parseError : Int := -32700
def invalidRequest : Int := -32600
def methodNotFound : Int := -32601
def invalidParams : Int := -32602
def internalError : Int := -32603
def serverNotInitialized : Int := -32002
def requestCancelled : Int := -32800
def requestTimedOut : Int := -32801
def clientNotConnected : Int := -32802
def requestFailed : Int := -32803

def latestProtocolVersion : String := "2025-06-18"
def version20250618 : String := "2025-06-18"
def version20250326 : String := "2025-03-26"
def defaultNegotiatedVersion : String := version20250618

def isSupportedVersion (v : String) : Bool := v == version20250618 || v == version20250326

def methodInitialize : String := "initialize"
def methodPing : String := "ping"
def methodToolsList : String := "tools/list"
def methodToolsCall : String := "tools/call"
def methodResourcesList : String := "resources/list"
def methodResourcesRead : String := "resources/read"
def methodResourcesSubscribe : String := "resources/subscribe"
def methodResourcesUnsubscribe : String := "resources/unsubscribe"
def methodResourcesTemplateList : String := "resources/templates/list"
def methodPromptsList : String := "prompts/list"
def methodPromptsGet : String := "prompts/get"
def methodCompletionComplete : String := "completion/complete"
def methodLoggingSetLevel : String := "logging/setLevel"
def methodSamplingCreate : String := "sampling/createMessage"
def methodElicitationCreate : String := "elicitation/create"
def methodRootsList : String := "roots/list"

def notifInitialized : String := "notifications/initialized"
def notifProgress : String := "notifications/progress"
def notifMessage : String := "notifications/message"
def notifToolsListChanged : String := "notifications/tools/list_changed"
def notifResourcesListChanged : String := "notifications/resources/list_changed"
def notifResourcesUpdated : String := "notifications/resources/updated"
def notifPromptsListChanged : String := "notifications/prompts/list_changed"
def notifCancelled : String := "notifications/cancelled"
def notifRootsListChanged : String := "notifications/roots/list_changed"

end Protocol

/-- A `std::string` of raw bytes: header values, URLs, bodies, session ids. -/
abbrev Bytes := List UInt8

/-- The bytes of an ASCII literal. -/
def ascii (s : String) : Bytes := s.toList.map fun c => UInt8.ofNat c.toNat

/-- The `mcp-session-id` of a peer, empty on a transport with one peer. -/
abbrev SessionId := Bytes

/-- `std::variant<NullId, int64_t, std::string>`. -/
inductive RequestId where
  | null
  | int (n : Int)
  | str (s : String)
deriving DecidableEq, Repr

/-- `is_null_id`. -/
def RequestId.isNull : RequestId → Bool
  | null => true
  | _ => false

/-- `from_json(RequestId)`. -/
def RequestId.fromJson (j : Json) : Except Exn RequestId :=
  if j.isNull then .ok .null
  else if j.isNumberInteger then j.getInt64.map .int
  else if j.isString then j.getString.map .str
  else .error (.std "RequestId must be null, integer, or string")

def requestIdToJson : RequestId → Json
  | .null => .null
  | .int n => .ofInt n
  | .str s => .string s

/-- `what()`; text of anything that is no `std::exception` is never read. -/
def Exn.what : Exn → String
  | .mcp _ message _ => message
  | .std what => what
  | .other => ""

def methodNotFoundError (method : String) : Exn :=
  .mcp Protocol.methodNotFound ("Method not found: " ++ method) none

end CppMcp
