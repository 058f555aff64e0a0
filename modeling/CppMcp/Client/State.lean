import Mathlib.Data.List.AList
import CppMcp.JsonRpc.Parse
import CppMcp.Types.Handshake
import CppMcp.Types.Sampling

namespace CppMcp

inductive RequestState where
  | waiting
  | succeeded
  | errored
  | timedOut
  | cancelled
  | failed
deriving DecidableEq, Repr

structure McpOutcome where
  terminal : RequestState := .waiting
  result : Json := .null
  rpcError : Option JsonRpcErrorDetail := none
  failure : Option Exn := none
deriving DecidableEq

/-- A `PendingRequest`. The callbacks are user code, here only whether they are set;
    `registered` is a ghost, set when the registration task runs. -/
structure PendingRequest where
  id : RequestId
  method : String
  progressToken : RequestId
  state : RequestState := .waiting
  timer : Bool := false
  timeout : Int := 0
  onComplete : Bool := false
  onError : Bool := false
  onProgress : Bool := false
  outcome : McpOutcome := {}
  promise : Option McpOutcome := none
  registered : Bool := false
deriving DecidableEq

structure LoggingMessageNotificationParams where
  level : String
  data : String
  logger : Option String
deriving DecidableEq

/-- An invocation of user code on the client's side. A `PendingRequest` is named by its
    place in the list of all requests ever built. -/
inductive Call where
  | progress (pr : Nat) (progress : Double) (total : Option Double)
  | complete (pr : Nat) (result : Json)
  | error (pr : Nat) (outcome : McpOutcome)
  | resourceUpdated (uri : String)
  | listChanged (kind : String)
  | serverLog (msg : LoggingMessageNotificationParams)
  | rootsChanged
  | disconnected
deriving DecidableEq

/-- A `fire` closure of `deliver_progress` or `dispatch_callbacks`. -/
inductive CallbackJob where
  | progress (pr : Nat) (progress : Double) (total : Option Double)
  | terminal (pr : Nat)
deriving DecidableEq

/-- A task posted to the strand. -/
inductive Task where
  | register (pr : Nat) (params : Option Json)
  | message (msg : Json)
  | transportDisconnect
  | cancel (id : RequestId) (reason : String)
  | timer (pr : Nat)
  | drain (reason : String)
  | send (msg : Json)
deriving DecidableEq

/-- The arguments of `submit_request`. -/
structure SubmitArgs where
  method : String
  params : Option Json := none
  onComplete : Bool := false
  onError : Bool := false
  onProgress : Bool := false
  timeout : Int := 0
  progressToken : Option RequestId := none
deriving DecidableEq

/-- How far a user thread has come in `submit_request`: the test has passed, or the
    `PendingRequest` is built and its registration not yet posted. -/
inductive Submission where
  | tested (args : SubmitArgs)
  | built (pr : Nat) (params : Option Json)
deriving DecidableEq

/-- An inbound request waiting in the client's worker pool. -/
structure InboundJob where
  id : RequestId
  method : String
  params : Json
deriving DecidableEq

/-- Configuration and user code, fixed before `connect`. A handler that was not
    registered is `none`, an observer that was not is `false`. -/
structure ClientEnv where
  ownsIoContext : Bool := true
  workers : Nat := 0
  callbackExecutor : Bool := false
  defaultTimeout : Int := 0
  user : Call → Except Exn Unit := fun _ => .ok ()
  sampling : Option (CreateMessageRequestParams → Except Exn CreateMessageResult) := none
  elicitation : Option (ElicitRequestParams → Except Exn ElicitResult) := none
  roots : Option (Unit → Except Exn ListRootsResult) := none
  onResourceUpdated : Bool := false
  onListChanged : Bool := false
  onServerLog : Bool := false
  onRootsChanged : Bool := false
  onDisconnect : Bool := false

/-- The state of an `McpClient` with everything posted on its behalf. `ended` is a
    ghost: a drain or the loss of the transport was posted since the last `connect`. -/
structure Client where
  running : Bool := false
  stopping : Bool := false
  stopDrained : Bool := false
  connected : Bool := false
  initialized : Bool := false
  transport : Bool := true
  ioAlive : Bool := true
  serverResult : Option InitializeResult := none
  nextId : Int := 1
  requests : List PendingRequest := []
  pendingMap : AList (fun _ : RequestId => Nat) := ∅
  strand : List Task := []
  submissions : AList (fun _ : Nat => Submission) := ∅
  callbackQueue : List CallbackJob := []
  pool : List InboundJob := []
  calls : List Call := []
  sent : List Json := []
  log : List String := []
  ended : Bool := false

/-- `asio::post(*strand_, task)`. -/
def Client.post (c : Client) (task : Task) : Client := { c with strand := c.strand ++ [task] }

def Client.rawSend (c : Client) (message : Json) : Client :=
  if c.transport then { c with sent := c.sent ++ [message] } else c

def Client.update (c : Client) (pr : Nat) (f : PendingRequest → PendingRequest) : Client :=
  { c with requests := c.requests.modify pr f }

/-- User code runs, and what it throws is logged and dropped. -/
def Client.invoke (env : ClientEnv) (c : Client) (label : String) (call : Call) : Client :=
  let c := { c with calls := c.calls ++ [call] }
  match env.user call with
  | .ok _ => c
  | .error .other => { c with log := c.log ++ [label ++ " threw an unknown exception"] }
  | .error e => { c with log := c.log ++ [label ++ " threw: " ++ e.what] }

end CppMcp
