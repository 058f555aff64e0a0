import Mathlib.Data.List.AList
import CppMcp.Http.Message
import CppMcp.JsonRpc.Parse

namespace CppMcp

inductive HttpTransportMode where
  | sse
  | streamableHttp
deriving DecidableEq

structure HttpTransportConfig where
  mode : HttpTransportMode := .streamableHttp
  host : Bytes := ascii "127.0.0.1"
  path : Bytes := ascii "/mcp"
  ssePath : Bytes := ascii "/sse"
  messagePath : Bytes := ascii "/messages"
  maxConnections : Nat := 1024
  maxSessions : Nat := 256
  enforceHostHeader : Bool := true

/-- A session and the connections of its SSE streams. -/
structure HttpSession where
  sessionId : SessionId
  initialized : Bool := false
  sseConnections : List Nat := []
deriving DecidableEq

/-- What `json::parse` does with a text: a number too large for a double raises
    `out_of_range`, which is no `parse_error`. -/
inductive ParseOutcome where
  | value (j : Json)
  | parseError
  | outOfRange

inductive HandlerThrow where
  | parseError
  | other
deriving DecidableEq

/-- A call of the message handler: the responses it gave its sink, how many more its
    deferred work will give, and what it threw. -/
structure HandlerRun where
  emitted : List Json := []
  deferred : Nat := 0
  threw : Option HandlerThrow := none

/-- A message handler over a memory of its own. The flag says that a batch is dispatched. -/
abbrev MessageHandler (ω : Type) := ω → Json → SessionId → Bool → ω × HandlerRun

/-- The parts of a transport that no request changes. -/
structure HttpEnv (ω : Type) where
  config : HttpTransportConfig := {}
  parse : Bytes → ParseOutcome
  dump : Json → Bytes
  messageHandler : Option (MessageHandler ω)

structure HttpTransport (ω : Type) where
  world : ω
  sessions : AList (fun _ : SessionId => HttpSession) := ∅
  activeSseConnections : List Nat := []

inductive HttpWrite where
  | response (r : HttpResponse)
  | stream (headers : List (Bytes × Bytes)) (opening : Bytes)
deriving DecidableEq

inductive SseRegistry where
  | session (id : SessionId)
  | legacy
deriving DecidableEq

/-- What handling a request did. `written` are its calls of `enqueue_write`, `pushed` its
    messages for SSE streams, `cleared` says that it set `active` to false, `stream` where
    the connection was registered, `closed` which connections it closed. The sink of a POST
    belongs to a session, that of the legacy mode to none. -/
structure Handled (ω : Type) where
  transport : HttpTransport ω
  written : List HttpWrite := []
  pushed : List (SessionId × Json) := []
  cleared : Bool := false
  stream : Option SseRegistry := none
  closed : List Nat := []
  threw : Bool := false
  sinkSession : Option SessionId := none
  firstBody : Option Json := none
  deferred : Nat := 0

variable {ω : Type}

def Handled.write (h : Handled ω) (r : HttpResponse) : Handled ω :=
  { h with written := h.written ++ [.response r] }

def textPlain : Bytes := ascii "text/plain"
def applicationJson : Bytes := ascii "application/json"

def textResponse (status : Nat) (text : String) : HttpResponse := ⟨status, textPlain, ascii text, []⟩

/-- Answer and keep the connection. -/
def reply (t : HttpTransport ω) (r : HttpResponse) : Handled ω :=
  { transport := t, written := [.response r] }

/-- Answer and set `active` to false, without `on_error`. -/
def refuse (t : HttpTransport ω) (status : Nat) (text : String) : Handled ω :=
  { transport := t, written := [.response (textResponse status text)], cleared := true }

def sessionHeader (id : SessionId) : List (Bytes × Bytes) :=
  if id.isEmpty then [] else [(ascii "mcp-session-id", id)]

def HttpTransport.findSession (t : HttpTransport ω) (id : SessionId) : Option HttpSession :=
  if id.isEmpty then none else t.sessions.lookup id

def ParsedMessage.methodName : ParsedMessage → String
  | .request req => req.method
  | .notification notif => notif.method
  | _ => ""

def ParsedMessage.isInitialize (parsed : ParsedMessage) : Bool :=
  parsed.methodName == Protocol.methodInitialize

def ParsedMessage.isNotification : ParsedMessage → Bool
  | .notification _ => true
  | _ => false

namespace HttpEnv

variable (env : HttpEnv ω)

def jsonResponse (status : Nat) (j : Json) (extra : List (Bytes × Bytes) := []) : HttpResponse :=
  ⟨status, applicationJson, env.dump j, extra⟩

/-- `create_session`, under the id that was generated. -/
def createSession (t : HttpTransport ω) (newId : SessionId) : Option (HttpTransport ω) :=
  if 0 < env.config.maxSessions ∧ env.config.maxSessions ≤ t.sessions.keys.length then none
  else some { t with sessions := t.sessions.insert newId { sessionId := newId } }

/-- The session a POST belongs to, or the response that refuses it. -/
def resolveSession (t : HttpTransport ω) (newId : SessionId) (parsed : ParsedMessage)
    (reqId : SessionId) : Except HttpResponse (HttpTransport ω × SessionId) :=
  if parsed.isInitialize then
    if reqId.isEmpty then
      match env.createSession t newId with
      | some t => .ok (t, newId)
      | none => .error (textResponse 429 "Too many sessions")
    else .error (textResponse 400 "Session already exists")
  else if reqId.isEmpty then
    .error (env.jsonResponse 400
      (makeErrorResponseNullId Protocol.invalidParams "Missing Mcp-Session-Id header"))
  else
    match t.findSession reqId with
    | none => .error (textResponse 404 "Session not found")
    | some session =>
      if session.initialized then .ok (t, session.sessionId)
      else .error (env.jsonResponse 400
        (makeErrorResponseNullId Protocol.serverNotInitialized "Session not initialized"))

/-- A call of the sink: the first response to a POST is the HTTP response, any other goes
    to the streams. -/
def sink (h : Handled ω) (resp : Json) : Handled ω :=
  match h.sinkSession, h.firstBody with
  | some id, none =>
    { h.write (env.jsonResponse 200 resp (sessionHeader id)) with firstBody := some resp }
  | some id, some _ => { h with pushed := h.pushed ++ [(id, resp)] }
  | none, _ => { h with pushed := h.pushed ++ [([], resp)] }

/-- A session starts to count once its `initialize` was answered without an error. -/
def commitSession (h : Handled ω) (id : SessionId) (ok : Bool) : Handled ω :=
  let t := h.transport
  if ok && h.firstBody.any (fun body => !body.contains "error") then
    match t.sessions.lookup id with
    | some session =>
      { h with transport := { t with
          sessions := t.sessions.insert id { session with initialized := true } } }
    | none => h
  else { h with transport := { t with sessions := t.sessions.erase id } }

/-- The call of the message handler, and whether it returned. -/
def callHandler (handler : MessageHandler ω) (t : HttpTransport ω) (message : Json)
    (parsed : ParsedMessage) (id : SessionId) : Handled ω × Bool :=
  let (world, outcome) := handler t.world message id false
  let h : Handled ω := outcome.emitted.foldl env.sink
    { transport := { t with world }, sinkSession := some id, deferred := outcome.deferred }
  let ok := outcome.threw.isNone
  (if parsed.isInitialize then commitSession h id ok else h, ok)

/-- The part of `handle_post` from the call of the message handler on. -/
def deliver (handler : MessageHandler ω) (t : HttpTransport ω) (message : Json)
    (parsed : ParsedMessage) (id : SessionId) : Handled ω :=
  let (h, ok) := env.callHandler handler t message parsed id
  if ok && parsed.isNotification then h.write ⟨202, textPlain, [], sessionHeader id⟩ else h

/-- `handle_post` for a message that is no array. -/
def postMessage (t : HttpTransport ω) (newId : SessionId) (message : Json)
    (reqId : SessionId) : Handled ω :=
  match parseMessage message with
  | .error e =>
    reply t (env.jsonResponse 200
      (makeErrorResponse e.id e.error.code e.error.message e.error.data) (sessionHeader reqId))
  | parsed =>
    match env.resolveSession t newId parsed reqId with
    | .error r => reply t r
    | .ok (resolved, id) =>
      match env.messageHandler with
      | some handler => env.deliver handler resolved message parsed id
      | none =>
        reply { resolved with
            sessions := if parsed.isInitialize then resolved.sessions.erase id
              else resolved.sessions }
          (textResponse 500 "No handler configured")

/-- One element of a batch: the first response of its sink is kept, and a throw is
    swallowed, that of a missing handler included. -/
def batchElement (id : SessionId) (acc : ω × List Json) (element : Json) : ω × List Json :=
  match env.messageHandler with
  | some handler =>
    let (world, outcome) := handler acc.1 element id true
    (world, acc.2 ++ outcome.emitted.head?.toList)
  | none => acc

def handlePostBatch (t : HttpTransport ω) (batch : List Json) (reqId : SessionId) : Handled ω :=
  if batch.isEmpty then
    reply t (env.jsonResponse 200
      (makeErrorResponseNullId Protocol.invalidRequest "Invalid Request"))
  else if reqId.isEmpty then
    reply t (env.jsonResponse 400
      (makeErrorResponseNullId Protocol.invalidParams "Missing Mcp-Session-Id header"))
  else
    match t.findSession reqId with
    | none => reply t (textResponse 404 "Session not found")
    | some session =>
      if session.initialized then
        let (world, responses) := batch.foldl (env.batchElement session.sessionId) (t.world, [])
        let headers := sessionHeader session.sessionId
        reply { t with world }
          (if responses.isEmpty then ⟨202, textPlain, [], headers⟩
            else env.jsonResponse 200 (.array responses) headers)
      else
        reply t (env.jsonResponse 400
          (makeErrorResponseNullId Protocol.serverNotInitialized "Session not initialized"))

/-- An absent `Accept` takes everything. -/
def acceptsJsonOrStream (accept : Bytes) : Bool :=
  accept.has "application/json" || accept.has "text/event-stream" || accept.isEmpty

def handlePost (t : HttpTransport ω) (newId : SessionId) (req : HttpRequest) : Handled ω :=
  if !(req.headers.valueOf "content-type").has "application/json" then
    reply t (textResponse 400 "Content-Type must be application/json")
  else if !acceptsJsonOrStream (req.headers.valueOf "accept") then
    reply t (textResponse 406 "Accept header must include application/json or text/event-stream")
  else
    match env.parse req.body with
    -- only `parse_error` is caught
    | .outOfRange => { transport := t, threw := true }
    | .parseError =>
      reply t (env.jsonResponse 400 (makeErrorResponseNullId Protocol.parseError "Parse error"))
    | .value (.array batch) =>
      env.handlePostBatch t batch (req.headers.valueOf "mcp-session-id")
    | .value message => env.postMessage t newId message (req.headers.valueOf "mcp-session-id")

def streamHeaders : List (Bytes × Bytes) :=
  [(ascii "Content-Type", ascii "text/event-stream"), (ascii "Cache-Control", ascii "no-cache"),
    (ascii "Connection", ascii "keep-alive")]

def handleGetSse (t : HttpTransport ω) (conn : Nat) (req : HttpRequest) : Handled ω :=
  match t.findSession (req.headers.valueOf "mcp-session-id") with
  | none => refuse t 404 "Session not found"
  | some session =>
    if (req.headers.valueOf "accept").has "text/event-stream" then
      let id := session.sessionId
      let origin := req.headers.valueOf "origin"
      let headers := streamHeaders ++ [(ascii "mcp-session-id", sanitizeHeaderValue id)] ++
        (if origin.isEmpty then []
        else [(ascii "Access-Control-Allow-Origin", sanitizeHeaderValue origin)])
      let opened := { session with sseConnections := session.sseConnections ++ [conn] }
      { transport := { t with sessions := t.sessions.insert id opened }
        written := [.stream headers (ascii ": connected\n\n")]
        stream := some (.session id) }
    else refuse t 400 "Accept header must include text/event-stream"

def handleDelete (t : HttpTransport ω) (req : HttpRequest) : Handled ω :=
  match t.findSession (req.headers.valueOf "mcp-session-id") with
  | none => reply t (textResponse 404 "Session not found")
  | some session =>
    let t := { t with sessions := t.sessions.erase (req.headers.valueOf "mcp-session-id") }
    { reply t (textResponse 200 "") with closed := session.sseConnections }

def handleOptions (t : HttpTransport ω) (req : HttpRequest) : Handled ω :=
  let origin := req.headers.valueOf "origin"
  reply t ⟨204, textPlain, [],
    [(ascii "Access-Control-Allow-Methods", ascii "GET, POST, DELETE, OPTIONS"),
      (ascii "Access-Control-Allow-Headers", ascii "Content-Type, mcp-session-id"),
      (ascii "Access-Control-Max-Age", ascii "86400")] ++
      if origin.isEmpty then [] else [(ascii "Access-Control-Allow-Origin", origin)]⟩

def handleSseConnect (t : HttpTransport ω) (conn : Nat) : Handled ω :=
  { transport := { t with activeSseConnections := t.activeSseConnections ++ [conn] }
    written := [.stream streamHeaders
      (ascii "event: endpoint\ndata: " ++ env.config.messagePath ++ ascii "\n\n")]
    stream := some .legacy }

/-- `handle_sse_message`: a throw of the handler passes unless it is a `parse_error`. -/
def handleSseMessage (t : HttpTransport ω) (req : HttpRequest) : Handled ω :=
  let badJson := textResponse 400 "Invalid JSON"
  match env.parse req.body with
  | .outOfRange => { transport := t, threw := true }
  | .parseError => reply t badJson
  | .value message =>
    match env.messageHandler with
    | none => reply t (textResponse 202 "")
    | some handler =>
      let (world, outcome) := handler t.world message [] false
      let h : Handled ω := { transport := { t with world }, deferred := outcome.deferred }
      let h := outcome.emitted.foldl env.sink h
      match outcome.threw with
      | none => h.write (textResponse 202 "")
      | some .parseError => h.write badJson
      | some .other => { h with threw := true }

/-- A URL without its query. -/
def pathOnly (url : Bytes) : Bytes := beforeByte questionMark url

/-- The tests of `handle_request` before it looks at the path. -/
def guarded (req : HttpRequest) : Option String :=
  let origin := req.headers.valueOf "origin"
  if env.config.enforceHostHeader && !isHostAllowed (req.headers.valueOf "host") env.config.host
  then some "Forbidden: Host not allowed"
  else if !origin.isEmpty && !isOriginAllowed origin env.config.host
  then some "Forbidden: Origin not allowed"
  else none

def handleRequest (t : HttpTransport ω) (conn : Nat) (newId : SessionId) (req : HttpRequest) :
    Handled ω :=
  match env.guarded req with
  | some why => refuse t 403 why
  | none =>
    if req.method = ascii "OPTIONS" then handleOptions t req
    else
      let path := pathOnly req.url
      match env.config.mode with
      | .streamableHttp =>
        if path = env.config.path ∧ req.method = ascii "POST" then env.handlePost t newId req
        else if path = env.config.path ∧ req.method = ascii "GET" then handleGetSse t conn req
        else if path = env.config.path ∧ req.method = ascii "DELETE" then handleDelete t req
        else refuse t 404 "Not Found"
      | .sse =>
        if path = env.config.ssePath ∧ req.method = ascii "GET" then env.handleSseConnect t conn
        else if path = env.config.messagePath ∧ req.method = ascii "POST" then
          env.handleSseMessage t req
        else refuse t 404 "Not Found"

/-- The sink calls of deferred work that ends after the request was handled. -/
def finish (h : Handled ω) (later : List Json) : Handled ω := later.foldl env.sink h

end HttpEnv

end CppMcp
