import CppMcp.Client.Pending
import CppMcp.Lib.Effect

namespace CppMcp

open Lib

/-- The `run` closures of `handle_inbound_request`. -/
def inboundResult (env : ClientEnv) (method : String) (params : Json) : Except Exn Json :=
  if method = Protocol.methodSamplingCreate then
    match env.sampling with
    | none => .error (methodNotFoundError Protocol.methodSamplingCreate)
    | some h => do return (← h (← CreateMessageRequestParams.fromJson params)).toJson
  else if method = Protocol.methodElicitationCreate then
    match env.elicitation with
    | none => .error (methodNotFoundError Protocol.methodElicitationCreate)
    | some h => do return (← h (← ElicitRequestParams.fromJson params)).toJson
  else
    match env.roots with
    | none => .error (methodNotFoundError Protocol.methodRootsList)
    | some h => do return (← h ()).toJson

/-- The response `run_and_respond` posts for what the handler did. -/
def inboundResponse (id : RequestId) : Except Exn Json → Json
  | .ok result => makeSuccessResponse id result
  | .error (.mcp code message data) => makeErrorResponse id code message data
  | .error (.std what) => makeErrorResponse id Protocol.internalError what
  | .error .other => makeErrorResponse id Protocol.internalError "unknown handler exception"

def Client.runAndRespond (env : ClientEnv) (c : Client) (job : InboundJob) : Client :=
  c.post (.send (inboundResponse job.id (inboundResult env job.method job.params)))

/-- `dispatch_inbound_request`, for the three methods that have a handler. -/
def Client.dispatchInboundRequest (env : ClientEnv) (c : Client) (req : JsonRpcRequest) : Client :=
  let job : InboundJob := ⟨req.id, req.method, req.params.getD (.object [])⟩
  if 0 < env.workers then { c with pool := c.pool ++ [job] } else c.runAndRespond env job

def Client.handleInboundRequest (env : ClientEnv) (c : Client) (req : JsonRpcRequest) : Client :=
  if req.method = Protocol.methodPing then c.rawSend (makeSuccessResponse req.id (.object []))
  else if req.method = Protocol.methodSamplingCreate ∨
      req.method = Protocol.methodElicitationCreate ∨ req.method = Protocol.methodRootsList then
    c.dispatchInboundRequest env req
  else c.rawSend (makeErrorResponse req.id Protocol.methodNotFound
    ("Method not found: " ++ req.method))

def progressTotal (p : Json) : Except Exn (Option Double) :=
  match p.find? "total" with
  | none => .ok none
  | some total => total.getDouble.map some

/-- The progress branch of `handle_notification`. Only the token is read inside a `try`. -/
def Client.handleProgress (env : ClientEnv) (c : Client) (p : Json) : Except Exn Client :=
  match p.find? "progressToken" with
  | none => .ok c
  | some raw =>
    match RequestId.fromJson raw with
    | .error _ => .ok c
    | .ok token => do
      let progress ← p.value Json.getDouble "progress" (Double.ofInt 0)
      let total ← progressTotal p
      match c.pendingMap.lookup token with
      | some pr => return c.deliverProgress env pr progress total
      | none => return c

/-- `LoggingMessageNotificationParams`, as `handle_notification` reads it. -/
def serverLogMessage (p : Json) : Except Exn LoggingMessageNotificationParams := do
  let level ← p.value Json.getString "level" "info"
  let data ← p.value Json.getString "data" ""
  return ⟨level, data, match p.find? "logger" with
    | some (.string logger) => some logger
    | _ => none⟩

/-- The user callback a push notification leads to, with the reading of its arguments. -/
def pushCall (env : ClientEnv) (notif : JsonRpcNotification) : Option (Except Exn Call) :=
  let p := notif.params.getD (.object [])
  if notif.method = Protocol.notifResourcesUpdated then
    if env.onResourceUpdated then some ((p.value Json.getString "uri" "").map .resourceUpdated)
    else none
  else if notif.method = Protocol.notifToolsListChanged then
    if env.onListChanged then some (.ok (.listChanged "tools")) else none
  else if notif.method = Protocol.notifResourcesListChanged then
    if env.onListChanged then some (.ok (.listChanged "resources")) else none
  else if notif.method = Protocol.notifPromptsListChanged then
    if env.onListChanged then some (.ok (.listChanged "prompts")) else none
  else if notif.method = Protocol.notifMessage then
    if env.onServerLog then some ((serverLogMessage p).map .serverLog) else none
  else if notif.method = Protocol.notifRootsListChanged then
    if env.onRootsChanged then some (.ok .rootsChanged) else none
  else none

/-- A push notification leads to no callback of a request. -/
theorem pushCall_kinds {env : ClientEnv} {notif : JsonRpcNotification} {call : Call}
    (h : pushCall env notif = some (.ok call)) :
    (∃ uri, call = .resourceUpdated uri) ∨ (∃ kind, call = .listChanged kind) ∨
      (∃ msg, call = .serverLog msg) ∨ call = .rootsChanged := by
  have read {α : Type} {reading : Except Exn α} {f : α → Call} (eq : reading.map f = .ok call) :
      ∃ a, call = f a := by
    obtain ⟨a, -, same⟩ := map_eq_ok.mp eq
    exact ⟨a, same.symm⟩
  unfold pushCall at h
  simp only at h
  repeat' split at h
  all_goals simp only [Option.some.injEq, reduceCtorEq, Except.ok.injEq] at h
  · exact .inl (read h)
  · exact .inr (.inl ⟨_, h.symm⟩)
  · exact .inr (.inl ⟨_, h.symm⟩)
  · exact .inr (.inl ⟨_, h.symm⟩)
  · exact .inr (.inr (.inl (read h)))
  · exact .inr (.inr (.inr h.symm))

/-- The rest of `handle_notification`, all of it inside a `try`. -/
def Client.handlePush (env : ClientEnv) (c : Client) (notif : JsonRpcNotification) : Client :=
  match pushCall env notif with
  | none => c
  | some (.ok call) => c.invoke env "notification handler" call
  | some (.error e) => { c with log := c.log ++ ["notification handler threw: " ++ e.what] }

def Client.handleNotification (env : ClientEnv) (c : Client) (notif : JsonRpcNotification) :
    Except Exn Client :=
  if notif.method = Protocol.notifProgress then c.handleProgress env (notif.params.getD (.object []))
  else .ok (c.handlePush env notif)

/-- `on_transport_message`. An error is an exception that escapes onto the strand. -/
def Client.onTransportMessage (env : ClientEnv) (c : Client) (message : Json) :
    Except Exn Client :=
  match parseMessageClient message with
  | .request req => .ok (c.handleInboundRequest env req)
  | .notification notif => c.handleNotification env notif
  | .success resp =>
    .ok (c.completePending env resp.id { terminal := .succeeded, result := resp.result })
  | .error resp =>
    .ok (c.completePending env resp.id { terminal := .errored, rpcError := some resp.error })

/-- A progress member that is there and is no number. -/
def notNumber (p : Json) (key : String) : Bool :=
  match p.find? key with
  | none => false
  | some j => !j.isNumber

def readableToken (p : Json) : Bool :=
  match p.find? "progressToken" with
  | none => false
  | some raw => (RequestId.fromJson raw).isOk

/-- A progress notification for a readable token, with a `progress` or a `total`
    that is no number. -/
def mistypedProgress (message : Json) : Bool :=
  match parseMessageClient message with
  | .notification notif =>
    let p := notif.params.getD (.object [])
    notif.method == Protocol.notifProgress && readableToken p &&
      (notNumber p "progress" || notNumber p "total")
  | _ => false

theorem value_getDouble_ok_iff {p : Json} (key : String) (default : Double)
    (keyed : p.isObject = true) :
    (∃ d, p.value Json.getDouble key default = .ok d) ↔ notNumber p key = false := by
  rw [Json.value_ok_iff Json.getDouble_ok_iff keyed]
  unfold notNumber
  cases p.find? key <;> simp

theorem progressTotal_ok_iff (p : Json) :
    (∃ total, progressTotal p = .ok total) ↔ notNumber p "total" = false := by
  unfold progressTotal notNumber
  cases p.find? "total" with
  | none => simp
  | some j => simpa [map_eq_ok] using Json.getDouble_ok_iff j

theorem handleProgress_ok_iff (env : ClientEnv) (c : Client) (p : Json) :
    (∃ c', c.handleProgress env p = .ok c') ↔
      ¬ (readableToken p = true ∧ (notNumber p "progress" = true ∨ notNumber p "total" = true)) := by
  cases present : p.find? "progressToken" with
  | none => simp [Client.handleProgress, readableToken, present]
  | some raw =>
    cases decoded : RequestId.fromJson raw with
    | error e =>
      simp [Client.handleProgress, readableToken, present, decoded, Except.isOk, Except.toBool]
    | ok token =>
      have contains : p.contains "progressToken" = true := by simp [Json.contains, present]
      have keyed := Json.contains_isObject contains
      have returns : (∃ c', c.handleProgress env p = .ok c') ↔
          notNumber p "progress" = false ∧ notNumber p "total" = false := by
        simp only [Client.handleProgress, present, decoded]
        rw [← value_getDouble_ok_iff "progress" (Double.ofInt 0) keyed, ← progressTotal_ok_iff]
        refine bind_returns_iff fun progress _ => ?_
        rw [← and_true (∃ total, progressTotal p = .ok total)]
        refine bind_returns_iff fun total _ => ?_
        cases c.pendingMap.lookup token with
        | none => exact iff_of_true ⟨_, rfl⟩ True.intro
        | some pr => exact iff_of_true ⟨_, rfl⟩ True.intro
      rw [returns]
      simp [readableToken, present, decoded, Except.isOk, Except.toBool]

theorem onTransportMessage_ok_iff (env : ClientEnv) (c : Client) (message : Json) :
    (∃ c', c.onTransportMessage env message = .ok c') ↔ mistypedProgress message = false := by
  unfold Client.onTransportMessage mistypedProgress
  cases parseMessageClient message with
  | request req => simp
  | success resp => simp
  | error resp => simp
  | notification notif =>
    by_cases progress : notif.method = Protocol.notifProgress
    · simp only [Client.handleNotification, progress, if_true, handleProgress_ok_iff]
      cases readableToken (notif.params.getD (.object [])) <;> simp
    · simp [Client.handleNotification, progress]

end CppMcp
