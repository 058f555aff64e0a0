import CppMcp.Server.Schema
import CppMcp.Server.State

namespace CppMcp

variable {υ : Type}

def getStringParam (params : Json) (key : String) : Except String String :=
  match params.find? key with
  | none => .error ("Missing '" ++ key ++ "' parameter")
  | some (.string s) => .ok s
  | some _ => .error ("Parameter '" ++ key ++ "' must be a string")

def invalidParams (id : RequestId) (message : String) : Json :=
  makeErrorResponse id Protocol.invalidParams message

def notFound (id : RequestId) (message : String) : Json :=
  makeErrorResponse id Protocol.methodNotFound message

/-- A string member, when there is one of that type. -/
def Json.stringMember (j : Json) (key : String) : Option String :=
  match j.find? key with
  | some (.string s) => some s
  | _ => none

/-- An object member, or the empty object. -/
def Json.objectMember (j : Json) (key : String) : Json :=
  match j.find? key with
  | some (.object members) => .object members
  | _ => .object []

theorem objectMember_given {params value : Json} {key : String} (given : params.find? key = some value) :
    params.objectMember key = if value.isObject then value else .object [] := by
  unfold Json.objectMember
  rw [given]
  cases value <;> rfl

def recordClientHello (params : Json) (sessionId : SessionId) : ServerM υ Unit :=
  let hello : ClientHello :=
    match params.find? "capabilities" with
    | some (.object members) =>
      match ClientCapabilities.fromJson (.object members) {} with
      | (.ok _, capabilities) => ⟨capabilities, (params.stringMember "protocolVersion").getD ""⟩
      | (.error _, capabilities) => ⟨capabilities, ""⟩
    | _ => ⟨{}, (params.stringMember "protocolVersion").getD ""⟩
  modify fun s => { s with clientHellos := s.clientHellos.insert sessionId hello }

def negotiate (params : Json) : String :=
  let requested := (params.stringMember "protocolVersion").getD ""
  if Protocol.isSupportedVersion requested then requested else Protocol.defaultNegotiatedVersion

variable (info : ServerInfo)

def handleInitialize (id : RequestId) (params : Json) (sessionId : SessionId) :
    ServerM υ Json := do
  let handlers := (← get).handlers
  recordClientHello params sessionId
  modify fun s => { s with negotiatedVersion := negotiate params }
  match handlers.initializeHandler with
  | some handler =>
    let result ← call (handler params)
    let version := if result.protocolVersion = "" then negotiate params else result.protocolVersion
    return makeSuccessResponse id { result with protocolVersion := version }.toJson
  | none =>
    let result : InitializeResult := ⟨negotiate params, info.capabilities, info.serverInfo, none⟩
    return makeSuccessResponse id result.toJson

def handlePing (id : RequestId) : ServerM υ Json := return makeSuccessResponse id emptyResult

/-- `std::stoull` of a text of digits. -/
def stoull (digits : String) : Except Exn Nat :=
  let n := digits.toList.foldl (fun n c => 10 * n + (c.toNat - '0'.toNat)) 0
  if n < 2 ^ 64 then .ok n else .error (.std "stoull")

/-- The offset a cursor stands for; `none` is an invalid cursor. -/
def cursorOffset (params : Json) : Except Exn (Option Nat) :=
  match params.stringMember "cursor" with
  | none => .ok (some 0)
  | some cursor =>
    if cursor = "" then .ok (some 0)
    else if cursor.toList.all fun c => c.isDigit then (stoull cursor).map some
    else .ok none

/-- One page. The end is computed in `size_t`, so an offset near its limit wraps round
    and the range constructor throws. -/
def page (key : String) (items : List Json) (offset size : Nat) : Except Exn Json :=
  let last := min ((offset + size) % 2 ^ 64) items.length
  let first := min offset items.length
  if last < first then .error (.std "cannot create std::vector larger than max_size()")
  else
    let result := Json.null.set key (.array ((items.drop first).take (last - first)))
    .ok (if last < items.length then result.set "nextCursor" (.string (toString last)) else result)

structure CacheField where
  get : ListCache → Option Json
  set : ListCache → Json → ListCache

def handleListRequest (id : RequestId) (field : CacheField) (key : String) (params : Json)
    (produceItems : ServerM υ (List Json)) : ServerM υ Json := do
  let s ← get
  let paginated := decide (0 < s.listPageSize)
  match ← liftExcept (if paginated then cursorOffset params else .ok (some 0)) with
  | none => return invalidParams id "Invalid cursor"
  | some offset =>
    let cacheable := s.frozen.isSome && !paginated
    match if cacheable then field.get s.listCache else none with
    | some cached => return makeSuccessResponse id cached
    | none =>
      let items ← produceItems
      if paginated then
        return makeSuccessResponse id (← liftExcept (page key items offset s.listPageSize))
      else
        let result := Json.null.set key (.array items)
        if cacheable then
          modify fun s => { s with listCache := field.set s.listCache result }
        return makeSuccessResponse id result
where
  liftExcept {α : Type} (x : Except Exn α) : ServerM υ α := ExceptT.mk (pure x)

/-- The items of a list request: of the list handler, else of the registry. -/
def listItems {α : Type} (handler : Option (Handler υ (List α))) (registered : List α)
    (toJson : α → Json) : ServerM υ (List Json) := do
  match handler with
  | some handler => return (← call handler).map toJson
  | none => return registered.map toJson

def handleToolsList (id : RequestId) (params : Json) : ServerM υ Json :=
  handleListRequest id ⟨(·.tools), fun c j => { c with tools := some j }⟩ "tools" params do
    let handlers := (← get).handlers
    listItems handlers.toolList (handlers.tools.map fun entry => entry.2.1) Tool.toJson

def handleResourcesList (id : RequestId) (params : Json) : ServerM υ Json :=
  handleListRequest id ⟨(·.resources), fun c j => { c with resources := some j }⟩ "resources"
      params do
    let handlers := (← get).handlers
    listItems handlers.resourceList (handlers.resources.map fun entry => entry.2.1) Resource.toJson

def handleResourcesTemplatesList (id : RequestId) (params : Json) : ServerM υ Json :=
  handleListRequest id ⟨(·.resourceTemplates), fun c j => { c with resourceTemplates := some j }⟩
      "resourceTemplates" params do
    let handlers := (← get).handlers
    listItems handlers.resourceTemplateList (handlers.resourceTemplates.map fun entry => entry.2.1)
      ResourceTemplate.toJson

def handlePromptsList (id : RequestId) (params : Json) : ServerM υ Json :=
  handleListRequest id ⟨(·.prompts), fun c j => { c with prompts := some j }⟩ "prompts" params do
    let handlers := (← get).handlers
    listItems handlers.promptList (handlers.prompts.map fun entry => entry.2.1) Prompt.toJson

/-- The client's `_meta.progressToken`, or the request id when it is unusable. -/
def requestProgressToken (id : RequestId) (params : Json) : RequestId :=
  match (params.objectMember "_meta").find? "progressToken" with
  | some token =>
    if token.isNull then id
    else match RequestId.fromJson token with
      | .ok token => token
      | .error _ => id
  | none => id

def handleToolsCall (id : RequestId) (params : Json) (sessionId : SessionId) :
    ServerM υ Json := do
  match getStringParam params "name" with
  | .error message => return invalidParams id message
  | .ok name =>
    match (← get).handlers.tools.lookup name with
    | none => return notFound id ("Tool not found: " ++ name)
    | some (tool, handler) =>
      let arguments := params.objectMember "arguments"
      let violation := schemaValidate arguments tool.inputSchema ""
      if violation ≠ "" then
        return invalidParams id ("Invalid arguments for tool '" ++ name ++ "': " ++ violation)
      else
        let result ← call (handler arguments ⟨id, requestProgressToken id params, sessionId⟩)
        return makeSuccessResponse id result.toJson

/-- The template that serves a URI: the first one, in key order, that matches. -/
def findTemplate (handlers : Registry υ) (uri : String) :
    Option (List (Bytes × Bytes) ×
      (String → List (Bytes × Bytes) → RequestContext → Handler υ ReadResourceResult)) :=
  handlers.resourceTemplates.findSome? fun entry =>
    (matchTemplate entry.1.toUTF8.toList uri.toUTF8.toList).map fun captured =>
      (captured, entry.2.2)

def handleResourcesRead (id : RequestId) (params : Json) (sessionId : SessionId) :
    ServerM υ Json := do
  match getStringParam params "uri" with
  | .error message => return invalidParams id message
  | .ok uri =>
    let handlers := (← get).handlers
    let ctx : RequestContext := ⟨id, id, sessionId⟩
    match handlers.resources.lookup uri with
    | some (_, handler) =>
      let result ← call (handler uri ctx)
      return makeSuccessResponse id result.toJson
    | none =>
      match findTemplate handlers uri with
      | some (captured, handler) =>
        let result ← call (handler uri captured ctx)
        return makeSuccessResponse id result.toJson
      | none => return notFound id ("Resource not found: " ++ uri)

/-- Whether subscriptions are advertised: `optional<bool>` is tested for a value only. -/
def ServerInfo.subscribes (info : ServerInfo) : Bool :=
  match info.capabilities.resources with
  | some resources => resources.subscribe.isSome
  | none => false

def handleResourcesSubscribe (id : RequestId) (params : Json) (sessionId : SessionId) :
    ServerM υ Json := do
  if !info.subscribes then return notFound id "Resource subscriptions not supported"
  else
    match getStringParam params "uri" with
    | .error message => return invalidParams id message
    | .ok uri =>
      modify fun s =>
        let uris := ((s.subscribedResources.lookup sessionId).getD []).insert uri
        { s with subscribedResources := s.subscribedResources.insert sessionId uris }
      return makeSuccessResponse id emptyResult

def handleResourcesUnsubscribe (id : RequestId) (params : Json) (sessionId : SessionId) :
    ServerM υ Json := do
  match getStringParam params "uri" with
  | .error message => return invalidParams id message
  | .ok uri =>
    modify fun s =>
      match s.subscribedResources.lookup sessionId with
      | some uris =>
        { s with subscribedResources := s.subscribedResources.insert sessionId (uris.erase uri) }
      | none => s
    return makeSuccessResponse id emptyResult

/-- The first argument marked `required` that is absent or null. The mark is an
    `optional<bool>` tested for a value only. -/
def missingArgument (prompt : Prompt) (arguments : Json) : Option String :=
  (prompt.arguments.getD []).findSome? fun arg =>
    if arg.required.isSome ∧ ((arguments.find? arg.name).getD .null).isNull then some arg.name
    else none

def handlePromptsGet (id : RequestId) (params : Json) (sessionId : SessionId) :
    ServerM υ Json := do
  match getStringParam params "name" with
  | .error message => return invalidParams id message
  | .ok name =>
    match (← get).handlers.prompts.lookup name with
    | none => return notFound id ("Prompt not found: " ++ name)
    | some (prompt, handler) =>
      let arguments := params.objectMember "arguments"
      match missingArgument prompt arguments with
      | some arg =>
        return invalidParams id
          ("Missing required argument '" ++ arg ++ "' for prompt '" ++ name ++ "'")
      | none =>
        let result ← call (handler name arguments ⟨id, id, sessionId⟩)
        return makeSuccessResponse id result.toJson

def handleCompletionComplete (id : RequestId) (params : Json) : ServerM υ Json := do
  match (← get).handlers.completion with
  | none => return notFound id "Completions not supported"
  | some handler =>
    let ref := params.objectMember "ref"
    let arg := params.objectMember "argument"
    let result ← call (handler
      ⟨(ref.stringMember "type").getD "", (ref.stringMember "name").getD ""⟩
      ⟨(arg.stringMember "name").getD "", (arg.stringMember "value").getD ""⟩)
    return makeSuccessResponse id result.toJson

def validLogLevels : List String :=
  ["debug", "info", "notice", "warning", "error", "critical", "alert", "emergency"]

def handleLoggingSetLevel (id : RequestId) (params : Json) : ServerM υ Json := do
  match getStringParam params "level" with
  | .error message => return invalidParams id message
  | .ok level =>
    if level ∉ validLogLevels then return invalidParams id ("Invalid log level: " ++ level)
    else
      match (← get).handlers.loggingLevel with
      | some handler =>
        call (handler level)
        return makeSuccessResponse id emptyResult
      | none => return makeSuccessResponse id emptyResult

/-- The part of `dispatch_method` behind the gate. -/
def serveMethod (req : JsonRpcRequest) (p : Json) (sessionId : SessionId) : ServerM υ Json :=
  if req.method = Protocol.methodToolsList then handleToolsList req.id p
  else if req.method = Protocol.methodToolsCall then handleToolsCall req.id p sessionId
  else if req.method = Protocol.methodResourcesList then handleResourcesList req.id p
  else if req.method = Protocol.methodResourcesRead then handleResourcesRead req.id p sessionId
  else if req.method = Protocol.methodResourcesSubscribe then
    handleResourcesSubscribe info req.id p sessionId
  else if req.method = Protocol.methodResourcesUnsubscribe then
    handleResourcesUnsubscribe req.id p sessionId
  else if req.method = Protocol.methodResourcesTemplateList then
    handleResourcesTemplatesList req.id p
  else if req.method = Protocol.methodPromptsList then handlePromptsList req.id p
  else if req.method = Protocol.methodPromptsGet then handlePromptsGet req.id p sessionId
  else if req.method = Protocol.methodCompletionComplete then handleCompletionComplete req.id p
  else if req.method = Protocol.methodLoggingSetLevel then handleLoggingSetLevel req.id p
  else return notFound req.id ("Method not found: " ++ req.method)

def dispatchMethod (req : JsonRpcRequest) (sessionId : SessionId) : ServerM υ Json :=
  let p := req.params.getD (.object [])
  if req.method = Protocol.methodInitialize then handleInitialize info req.id p sessionId
  else if req.method = Protocol.methodPing then handlePing req.id
  else do
    if (← get).initialized then serveMethod info req p sessionId
    else
      return makeErrorResponse req.id Protocol.serverNotInitialized
        "Server not initialized. Send initialize request first."

/-- `process_request`: whatever is thrown becomes an error response. -/
def processRequest (req : JsonRpcRequest) (sessionId : SessionId) (s : Server υ) :
    Json × Server υ :=
  match (dispatchMethod info req sessionId).run.run s with
  | (.ok response, s) => (response, s)
  | (.error (.mcp code message data), s) => (makeErrorResponse req.id code message data, s)
  | (.error (.std what), s) => (makeErrorResponse req.id Protocol.internalError what, s)
  | (.error .other, s) => (makeErrorResponse req.id Protocol.internalError "Unknown error", s)

end CppMcp
