import CppMcp.Client.State

namespace CppMcp

/-- The body of a `fire` closure, which reads `outcome_` when it runs. -/
def Client.fire (env : ClientEnv) (c : Client) : CallbackJob → Client
  | .progress pr progress total =>
    match c.requests[pr]? with
    | some r =>
      if r.onProgress then c.invoke env "on_progress callback" (.progress pr progress total) else c
    | none => c
  | .terminal pr =>
    match c.requests[pr]? with
    | some r =>
      if r.outcome.terminal = .succeeded then
        if r.onComplete then c.invoke env "request callback" (.complete pr r.outcome.result) else c
      else if r.onError then c.invoke env "request callback" (.error pr r.outcome)
      else c
    | none => c

/-- Inline on the strand, or posted when there is a callback executor. -/
def Client.dispatch (env : ClientEnv) (c : Client) (job : CallbackJob) : Client :=
  if env.callbackExecutor then { c with callbackQueue := c.callbackQueue ++ [job] }
  else c.fire env job

/-- What `finish` writes into a request that was waiting. A second value for the promise
    would be a `future_error`, which is dropped. -/
def PendingRequest.finished (outcome : McpOutcome) (r : PendingRequest) : PendingRequest :=
  { r with
    state := outcome.terminal
    outcome := outcome
    timer := false
    promise := r.promise.or (some outcome) }

/-- `PendingRequest::finish`. The exchange has overwritten the state before the
    test looks at the old one. -/
def Client.finish (env : ClientEnv) (c : Client) (pr : Nat) (outcome : McpOutcome) : Client :=
  match c.requests[pr]? with
  | none => c
  | some r =>
    if r.state = .waiting then
      (c.update pr (PendingRequest.finished outcome)).dispatch env (.terminal pr)
    else c.update pr fun r => { r with state := outcome.terminal }

/-- What `get` throws for an outcome that is no success. -/
def McpOutcome.thrown (o : McpOutcome) : Exn :=
  match o.failure, o.rpcError with
  | some e, _ => e
  | none, some e => .mcp e.code e.message e.data
  | none, none => .mcp Protocol.requestFailed "request terminated without a result" none

/-- `PendingRequest::get`, nothing as long as it blocks. -/
def PendingRequest.get (r : PendingRequest) : Option (Except Exn Json) :=
  r.promise.map fun o => if o.terminal = .succeeded then .ok o.result else .error o.thrown

def Client.deliverProgress (env : ClientEnv) (c : Client) (pr : Nat) (progress : Double)
    (total : Option Double) : Client :=
  match c.requests[pr]? with
  | none => c
  | some r =>
    if r.state = .waiting ∧ r.onProgress = true then c.dispatch env (.progress pr progress total)
    else c

/-- Whether a request is keyed by a token of its own besides its id. -/
def PendingRequest.hasOwnToken (r : PendingRequest) : Bool :=
  !r.progressToken.isNull && r.progressToken != r.id

def Client.registerPending (c : Client) (pr : Nat) (r : PendingRequest) : Client :=
  let map := c.pendingMap.insert r.id pr
  { c.update pr fun r => { r with registered := true } with
    pendingMap := if r.hasOwnToken then map.insert r.progressToken pr else map }

/-- The two erasures of `complete_pending`: the key it was found under, then the token. -/
def Client.forget (c : Client) (id : RequestId) (r : PendingRequest) : Client :=
  let map := c.pendingMap.erase id
  { c with pendingMap := if r.hasOwnToken then map.erase r.progressToken else map }

def checkNegotiatedVersion (result : Json) : Except Exn Unit :=
  match result.find? "protocolVersion" with
  | some (.string v) =>
    if Protocol.isSupportedVersion v then .ok ()
    else .error (.mcp Protocol.invalidRequest
      ("server negotiated unsupported protocolVersion: " ++ v) none)
  | _ => .error (.mcp Protocol.invalidRequest "server response missing protocolVersion" none)

/-- The `try` block of `complete_pending`. -/
def acceptInitialize (result : Json) : Except Exn InitializeResult := do
  let ir ← InitializeResult.fromJson result
  checkNegotiatedVersion result
  return ir

def handshakeFailed : McpOutcome :=
  { terminal := .errored
    rpcError := some ⟨Protocol.invalidRequest,
      "server negotiated an unsupported protocolVersion", none⟩ }

def Client.completePending (env : ClientEnv) (c : Client) (id : RequestId)
    (outcome : McpOutcome) : Client :=
  match c.pendingMap.lookup id with
  | none => c
  | some pr =>
    match c.requests[pr]? with
    | none => c
    | some r =>
      if outcome.terminal = .succeeded ∧ r.method = Protocol.methodInitialize then
        match acceptInitialize outcome.result with
        | .ok ir =>
          let c := { c with serverResult := some ir, connected := true, initialized := true }
          let c := c.rawSend (serializeNotification ⟨Protocol.notifInitialized, none⟩)
          (c.forget id r).finish env pr outcome
        | .error (.mcp _ _ _) => (c.forget id r).finish env pr handshakeFailed
        | .error e =>
          let c := { c with log := c.log ++ ["initialize result parse failed: " ++ e.what] }
          (c.forget id r).finish env pr handshakeFailed
      else (c.forget id r).finish env pr outcome

/-- `PendingRequest::on_timer`, when the timer was not cancelled. -/
def Client.onTimer (env : ClientEnv) (c : Client) (pr : Nat) : Client :=
  match c.requests[pr]? with
  | none => c
  | some r =>
    if r.state = .waiting then
      c.completePending env r.id
        { terminal := .timedOut
          failure := some (.mcp Protocol.requestTimedOut "request timed out" none) }
    else c

/-- The task `request_cancel` posts. -/
def Client.cancelTask (env : ClientEnv) (c : Client) (id : RequestId) (reason : String) : Client :=
  match c.pendingMap.lookup id with
  | none => c
  | some pr =>
    match c.requests[pr]? with
    | none => c
    | some r =>
      if r.state = .waiting then
        let c := c.rawSend (serializeNotification ⟨Protocol.notifCancelled,
          some (.mk [("requestId", requestIdToJson id), ("reason", .string reason)])⟩)
        c.completePending env id
          { terminal := .cancelled
            failure := some (.mcp Protocol.requestCancelled
              (if reason = "" then "cancelled by client" else reason) none) }
      else c

/-- The body of the loop in `fail_all_pending`. -/
def Client.failPending (env : ClientEnv) (reason : String) (c : Client) (pr : Nat) : Client :=
  match c.requests[pr]? with
  | none => c
  | some r =>
    if r.state = .waiting then
      c.finish env pr
        { terminal := .failed, failure := some (.mcp Protocol.requestFailed reason none) }
    else c

/-- The requests an iteration over the map meets. Their order is that of insertion, not
    the key order of `std::map`. -/
def Client.keyedRequests (c : Client) : List Nat := c.pendingMap.entries.map fun entry => entry.2

/-- `fail_all_pending`. A request keyed twice is met twice. -/
def Client.failAllPending (env : ClientEnv) (c : Client) (reason : String) : Client :=
  { c.keyedRequests.foldl (Client.failPending env reason) c with pendingMap := ∅ }

def Client.onTransportDisconnect (env : ClientEnv) (c : Client) : Client :=
  let c := { c with connected := false }.failAllPending env "transport disconnected"
  if env.onDisconnect then c.invoke env "disconnect handler" .disconnected else c

end CppMcp
