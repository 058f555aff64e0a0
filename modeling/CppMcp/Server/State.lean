import Mathlib.Data.List.AList
import CppMcp.JsonRpc.Parse
import CppMcp.Lib.Effect
import CppMcp.Types.Catalog
import CppMcp.Types.Handshake
import CppMcp.Types.Sampling

namespace CppMcp

open Lib

/-- User code: it runs on a memory of its own and returns or throws. A call it makes
    back into the server is a step of its own. -/
abbrev Handler (υ α : Type) := Action Exn υ α

structure RequestContext where
  requestId : RequestId
  progressToken : RequestId
  sessionId : SessionId
deriving DecidableEq

/-- The handler registries, each list in key order. -/
structure Registry (υ : Type) where
  tools : List (String × Tool × (Json → RequestContext → Handler υ CallToolResult)) := []
  toolList : Option (Handler υ (List Tool)) := none
  resources : List (String × Resource × (String → RequestContext → Handler υ ReadResourceResult)) :=
    []
  resourceList : Option (Handler υ (List Resource)) := none
  resourceTemplateList : Option (Handler υ (List ResourceTemplate)) := none
  resourceTemplates : List (String × ResourceTemplate ×
    (String → List (Bytes × Bytes) → RequestContext → Handler υ ReadResourceResult)) := []
  prompts : List (String × Prompt × (String → Json → RequestContext → Handler υ GetPromptResult)) :=
    []
  promptList : Option (Handler υ (List Prompt)) := none
  completion : Option (CompletionReference → CompletionArgument → Handler υ CompleteResult) := none
  initializeHandler : Option (Json → Handler υ InitializeResult) := none
  loggingLevel : Option (String → Handler υ Unit) := none

structure ListCache where
  tools : Option Json := none
  resources : Option Json := none
  resourceTemplates : Option Json := none
  prompts : Option Json := none
deriving DecidableEq

structure ClientHello where
  capabilities : ClientCapabilities := {}
  protocolVersion : String := ""
deriving DecidableEq

structure OutboundPending (υ : Type) where
  method : String
  sessionId : SessionId
  onResult : Json → Handler υ Unit
  onError : Int → String → Handler υ Unit

/-- A callback of an outbound request that was called: its id, and whether as a result. -/
structure CompletedRequest where
  id : Int
  ok : Bool
  payload : Json
deriving DecidableEq

inductive LogEntry where
  | text (level message : String)
  | cancellation (requestId : Option Json)
deriving DecidableEq

/-- A deferred request in the worker pool, with the number of its response sink. -/
structure Job where
  sink : Nat
  request : JsonRpcRequest
  sessionId : SessionId
deriving DecidableEq

structure ServerInfo where
  serverInfo : Implementation := ⟨"", ""⟩
  capabilities : ServerCapabilities := {}
deriving DecidableEq

/-- An `McpServer`. Each arrival brings a `ResponseSink`, numbered by its place in
    `arrivals`; `answers` are the calls of sinks. -/
structure Server (υ : Type) where
  user : υ
  registry : Registry υ := {}
  frozen : Option (Registry υ) := none
  transport : Bool := true
  running : Bool := false
  stopping : Bool := false
  initialized : Bool := false
  workers : Nat := 0
  executor : Bool := false
  listCache : ListCache := {}
  listPageSize : Nat := 0
  clientHellos : AList (fun _ : SessionId => ClientHello) := ∅
  negotiatedVersion : String := ""
  subscribedResources : AList (fun _ : SessionId => List String) := ∅
  outboundPending : AList (fun _ : Int => OutboundPending υ) := ∅
  nextOutboundId : Int := 1
  arrivals : List Json := []
  jobs : List Job := []
  deliveries : List (Nat × Json) := []
  answers : List (Nat × Json) := []
  completions : List CompletedRequest := []
  sent : List (SessionId × Json) := []
  log : List LogEntry := []

abbrev ServerM (υ α : Type) := Action Exn (Server υ) α

variable {υ : Type}

/-- Run user code on the user's memory. -/
def call {α : Type} (h : Handler υ α) : ServerM υ α :=
  ExceptT.mk fun s =>
    let (outcome, user) := h.run.run s.user
    (outcome, { s with user })

theorem run_call {α : Type} (h : Handler υ α) (s : Server υ) :
    (call h).run.run s = ((h.run.run s.user).1, { s with user := (h.run.run s.user).2 }) := rfl

theorem run_call_bind {α β : Type} {h : Handler υ α} {s : Server υ} {a : α}
    (returned : (h.run.run s.user).1 = .ok a) (m : α → ServerM υ β) :
    (call h >>= m).run.run s = (m a).run.run { s with user := (h.run.run s.user).2 } := by
  simp only [ExceptT.run_bind, StateT.run_bind, run_call, returned]
  rfl

theorem run_call_throws {α β : Type} {h : Handler υ α} {s : Server υ} {e : Exn}
    (thrown : (h.run.run s.user).1 = .error e) (m : α → ServerM υ β) :
    ((call h >>= m).run.run s).1 = .error e := by
  simp only [ExceptT.run_bind, StateT.run_bind, run_call, thrown]
  rfl

/-- The registries in force: the frozen copies once `run` has made them. -/
def Server.handlers (s : Server υ) : Registry υ := s.frozen.getD s.registry

def Server.logText (s : Server υ) (level message : String) : Server υ :=
  { s with log := s.log ++ [.text level message] }

/-- The part of a server that request handling leaves as it is. -/
structure Server.Serving (s s' : Server υ) : Prop where
  initialized : s'.initialized = s.initialized
  stopping : s'.stopping = s.stopping
  executor : s'.executor = s.executor
  outboundPending : s'.outboundPending = s.outboundPending
  nextOutboundId : s'.nextOutboundId = s.nextOutboundId
  arrivals : s'.arrivals = s.arrivals
  jobs : s'.jobs = s.jobs
  deliveries : s'.deliveries = s.deliveries
  answers : s'.answers = s.answers
  completions : s'.completions = s.completions

theorem Server.Serving.refl (s : Server υ) : s.Serving s :=
  ⟨rfl, rfl, rfl, rfl, rfl, rfl, rfl, rfl, rfl, rfl⟩

theorem Server.Serving.trans {a b c : Server υ} (first : a.Serving b) (second : b.Serving c) :
    a.Serving c :=
  ⟨second.initialized.trans first.initialized, second.stopping.trans first.stopping,
    second.executor.trans first.executor, second.outboundPending.trans first.outboundPending,
    second.nextOutboundId.trans first.nextOutboundId, second.arrivals.trans first.arrivals,
    second.jobs.trans first.jobs, second.deliveries.trans first.deliveries,
    second.answers.trans first.answers, second.completions.trans first.completions⟩

end CppMcp
