import CppMcp.Lib.Run
import CppMcp.Server.Handlers

namespace CppMcp

open Lib

variable {υ : Type}

def isDeferrable (method : String) : Bool :=
  method == Protocol.methodToolsCall || method == Protocol.methodResourcesRead ||
    method == Protocol.methodPromptsGet

def Server.respond (s : Server υ) (sink : Nat) (response : Json) : Server υ :=
  { s with answers := s.answers ++ [(sink, response)] }

def Server.processNotification (s : Server υ) (notif : JsonRpcNotification) : Server υ :=
  if notif.method = Protocol.notifInitialized then { s with initialized := true }
  else if notif.method = Protocol.notifCancelled then
    { s with log := s.log ++ [.cancellation (notif.params.bind fun p => p.find? "requestId")] }
  else s

/-- A callback of a server request runs; what it throws is logged. -/
def Server.callBack (s : Server υ) (callback : Handler υ Unit) : Server υ :=
  match callback.run.run s.user with
  | (.ok _, user) => { s with user }
  | (.error .other, user) =>
    { s with user }.logText "error" "server-request callback threw an unknown exception"
  | (.error e, user) =>
    { s with user }.logText "error" ("server-request callback threw: " ++ e.what)

/-- The callback `complete_server_request` calls, with its arguments read off the payload. -/
def OutboundPending.callback (p : OutboundPending υ) (ok : Bool) (payload : Json) :
    Handler υ Unit :=
  if ok then p.onResult payload
  else if payload.isObject then do
    let code ← ExceptT.mk (pure (payload.value Json.getInt "code" Protocol.internalError))
    let message ← ExceptT.mk (pure (payload.value Json.getString "message" "client error"))
    p.onError code message
  else p.onError Protocol.internalError "client error"

/-- `complete_server_request`: the session of the entry is not looked at. -/
def Server.completeServerRequest (s : Server υ) (id : Int) (ok : Bool) (payload : Json) :
    Server υ :=
  match s.outboundPending.lookup id with
  | none => s
  | some p =>
    let completed : CompletedRequest := ⟨id, ok, payload⟩
    { s with
      outboundPending := s.outboundPending.erase id
      completions := s.completions ++ [completed] }.callBack (p.callback ok payload)

def Server.onClientResponse (s : Server υ) (resp : JsonRpcSuccessResponse) : Server υ :=
  match resp.id with
  | .int n => s.completeServerRequest n true resp.result
  | _ => s

def Server.onClientErrorResponse (s : Server υ) (resp : JsonRpcErrorResponse) : Server υ :=
  match resp.id with
  | .int n => s.completeServerRequest n false
      (errorObject resp.error.code resp.error.message resp.error.data)
  | _ => s

/-- Whether an error response answers a request of the server's own. -/
def Server.isOutbound (s : Server υ) (id : RequestId) : Bool :=
  match id with
  | .int n => (s.outboundPending.lookup n).isSome
  | _ => false

/-- The state an arrival is handled in: its sink has the next number. -/
def Server.arrived (s : Server υ) (message : Json) : Server υ :=
  { s with arrivals := s.arrivals ++ [message] }

variable (info : ServerInfo)

/-- `on_message`. `batch` is the flag of a batch being dispatched on this thread. -/
def Server.onMessage (s : Server υ) (message : Json) (sessionId : SessionId) (batch : Bool) :
    Server υ :=
  let sink := s.arrivals.length
  let s := s.arrived message
  match parseMessage message with
  | .request req =>
    if s.executor && !batch && isDeferrable req.method then
      { s with jobs := s.jobs ++ [⟨sink, req, sessionId⟩] }
    else
      let (response, s) := processRequest info req sessionId s
      s.respond sink response
  | .notification notif => s.processNotification notif
  | .success resp => s.onClientResponse resp
  | .error resp =>
    if s.isOutbound resp.id then s.onClientErrorResponse resp
    else s.respond sink
      (makeErrorResponse resp.id resp.error.code resp.error.message resp.error.data)

/-- The worker's task: the response goes back to the io thread. -/
def Server.runJob (s : Server υ) (job : Job) : Server υ :=
  let (response, s) := processRequest info job.request job.sessionId s
  { s with deliveries := s.deliveries ++ [(job.sink, response)] }

/-- The capability gate of the `request_*` functions: an unknown peer passes only on a
    transport with one peer. -/
def Server.mayRequest (s : Server υ) (sessionId : SessionId) (capable : ClientCapabilities → Bool) :
    Bool :=
  match s.clientHellos.lookup sessionId with
  | some hello => capable hello.capabilities
  | none => sessionId.isEmpty

/-- `send_server_request`. A send that throws takes the fresh entry out again. -/
def Server.sendServerRequest (s : Server υ) (p : OutboundPending υ) (params : Json)
    (sends : Bool) : Server υ :=
  if s.transport && s.running then
    let rid := s.nextOutboundId
    let registered := { s with
      nextOutboundId := rid + 1, outboundPending := s.outboundPending.insert rid p }
    if sends then
      { registered with
        sent := s.sent ++ [(p.sessionId, serializeRequest ⟨.int rid, p.method, some params⟩)] }
    else
      { registered with outboundPending := registered.outboundPending.erase rid }.logText "error"
        "Failed to send server request"
  else s

/-- The result callback around the user's: a malformed result is dropped, and so is
    a standard exception. -/
def resultCallback {α : Type} (fromJson : Json → Except Exn α)
    (onResult : Option (α → Handler υ Unit)) (result : Json) : Handler υ Unit :=
  match onResult, fromJson result with
  | some handler, .ok r => ExceptT.mk fun user =>
    match (handler r).run.run user with
    | (.error .other, user) => (.error .other, user)
    | (_, user) => (.ok (), user)
  | _, _ => pure ()

def errorCallback (onError : Option (Int → String → Handler υ Unit)) (code : Int)
    (message : String) : Handler υ Unit :=
  match onError with
  | some handler => handler code message
  | none => pure ()

/-- The two user callbacks of a `request_*` call. -/
structure Callbacks (υ α : Type) where
  onResult : Option (α → Handler υ Unit) := none
  onError : Option (Int → String → Handler υ Unit) := none

def requestPending {α : Type} (method : String) (sessionId : SessionId)
    (fromJson : Json → Except Exn α) (callbacks : Callbacks υ α) : OutboundPending υ :=
  ⟨method, sessionId, resultCallback fromJson callbacks.onResult, errorCallback callbacks.onError⟩

def Server.requestSampling (s : Server υ) (params : CreateMessageRequestParams)
    (callbacks : Callbacks υ CreateMessageResult) (sessionId : SessionId) (sends : Bool) :
    Server υ :=
  if s.mayRequest sessionId fun c => c.sampling.isSome then
    s.sendServerRequest (requestPending Protocol.methodSamplingCreate sessionId
      CreateMessageResult.fromJson callbacks) params.toJson sends
  else s

def Server.requestElicitation (s : Server υ) (params : ElicitRequestParams)
    (callbacks : Callbacks υ ElicitResult) (sessionId : SessionId) (sends : Bool) : Server υ :=
  if s.mayRequest sessionId fun c => c.elicitation.isSome then
    s.sendServerRequest (requestPending Protocol.methodElicitationCreate sessionId
      ElicitResult.fromJson callbacks) params.toJson sends
  else s

def Server.requestRoots (s : Server υ) (callbacks : Callbacks υ ListRootsResult)
    (sessionId : SessionId) (sends : Bool) : Server υ :=
  if s.mayRequest sessionId fun c => c.roots.isSome then
    s.sendServerRequest (requestPending Protocol.methodRootsList sessionId
      ListRootsResult.fromJson callbacks) (.object []) sends
  else s

/-- What happens to a server, one atomic step each. `sends` says whether the transport
    takes the message. -/
inductive ServerEvent (υ : Type) where
  | registers (registry : Registry υ)
  | setsWorkers (n : Nat)
  | setsPageSize (n : Nat)
  | invalidates
  | runs (starts : Bool)
  | arrives (message : Json) (sessionId : SessionId) (batch : Bool)
  | runsJob (place : Nat)
  | delivers (place : Nat)
  | requestsSampling (params : CreateMessageRequestParams)
      (callbacks : Callbacks υ CreateMessageResult) (sessionId : SessionId) (sends : Bool)
  | requestsElicitation (params : ElicitRequestParams) (callbacks : Callbacks υ ElicitResult)
      (sessionId : SessionId) (sends : Bool)
  | requestsRoots (callbacks : Callbacks υ ListRootsResult) (sessionId : SessionId) (sends : Bool)
  | stops

def Server.step (s : Server υ) : ServerEvent υ → Option (Server υ)
  | .registers registry =>
    some (if s.running then s.logText "warning" "Cannot register handlers after server is running"
      else { s with registry })
  | .setsWorkers n => some (if s.running then s else { s with workers := n })
  | .setsPageSize n => some { s with listPageSize := n, listCache := {} }
  | .invalidates => some { s with listCache := {} }
  | .runs starts =>
    let s := { s with
      frozen := some s.registry, running := true, executor := s.executor || 0 < s.workers }
    some (if starts then s
      else { s with running := false, frozen := none }.logText "error" "Transport start failed")
  | .arrives message sessionId batch =>
    if s.stopping then none else some (s.onMessage info message sessionId batch)
  | .runsJob place =>
    match s.jobs[place]? with
    | some job => some ({ s with jobs := s.jobs.eraseIdx place }.runJob info job)
    | none => none
  | .delivers place =>
    match s.deliveries[place]? with
    | some (sink, response) =>
      some ({ s with deliveries := s.deliveries.eraseIdx place }.respond sink response)
    | none => none
  | .requestsSampling params callbacks sessionId sends =>
    some (s.requestSampling params callbacks sessionId sends)
  | .requestsElicitation params callbacks sessionId sends =>
    some (s.requestElicitation params callbacks sessionId sends)
  | .requestsRoots callbacks sessionId sends => some (s.requestRoots callbacks sessionId sends)
  | .stops =>
    some { s with
      stopping := true, running := false, outboundPending := ∅, jobs := [], deliveries := [] }

/-- A constructed server with a transport connected, before any message. -/
def Server.initial (user : υ) : Server υ := { user }

end CppMcp
