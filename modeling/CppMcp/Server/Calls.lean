import CppMcp.Server.Context
import CppMcp.Server.Handshake

namespace CppMcp

open Lib

variable {υ : Type}

/-- A call of user code with a context, and what it was given. -/
inductive HandlerCall where
  | tool (arguments : Json) (context : RequestContext)
  | resource (uri : String) (context : RequestContext)
  | template (uri : String) (captured : List (Bytes × Bytes)) (context : RequestContext)
  | prompt (name : String) (arguments : Json) (context : RequestContext)
deriving DecidableEq

def HandlerCall.context : HandlerCall → RequestContext
  | .tool _ context | .resource _ context | .template _ _ context | .prompt _ _ context => context

/-- User code, unchanged, on a memory that also lists calls. -/
def noting {α : Type} (calls : List HandlerCall) (h : Handler υ α) :
    Handler (υ × List HandlerCall) α :=
  ExceptT.mk fun memory =>
    let (outcome, user) := h.run.run memory.1
    (outcome, (user, memory.2 ++ calls))

/-- The handlers again, each noting what it is called with. -/
def Registry.watched (registry : Registry υ) : Registry (υ × List HandlerCall) where
  tools := registry.tools.map fun entry =>
    (entry.1, entry.2.1, fun arguments ctx =>
      noting [.tool arguments ctx] (entry.2.2 arguments ctx))
  toolList := registry.toolList.map (noting [])
  resources := registry.resources.map fun entry =>
    (entry.1, entry.2.1, fun uri ctx => noting [.resource uri ctx] (entry.2.2 uri ctx))
  resourceList := registry.resourceList.map (noting [])
  resourceTemplateList := registry.resourceTemplateList.map (noting [])
  resourceTemplates := registry.resourceTemplates.map fun entry =>
    (entry.1, entry.2.1, fun uri captured ctx =>
      noting [.template uri captured ctx] (entry.2.2 uri captured ctx))
  prompts := registry.prompts.map fun entry =>
    (entry.1, entry.2.1, fun name arguments ctx =>
      noting [.prompt name arguments ctx] (entry.2.2 name arguments ctx))
  promptList := registry.promptList.map (noting [])
  completion := registry.completion.map fun handler ref arg => noting [] (handler ref arg)
  initializeHandler := registry.initializeHandler.map fun handler params =>
    noting [] (handler params)
  loggingLevel := registry.loggingLevel.map fun handler level => noting [] (handler level)

/-- A server over these handlers, past the handshake. -/
def watchedServer (registry : Registry Unit) : Server (Unit × List HandlerCall) :=
  { user := ((), []), registry := registry.watched, initialized := true }

/-- A session's handshake and request, at a server started with these handlers. -/
def watchedRun (registry : Registry Unit) (sessionId : SessionId) (req : JsonRpcRequest) :
    List (ServerEvent (Unit × List HandlerCall)) :=
  [.registers registry.watched, .runs true,
    .arrives (serializeNotification ⟨Protocol.notifInitialized, none⟩) sessionId false,
    .arrives (serializeRequest req) sessionId false]

section
variable {s s' : Server (υ × List HandlerCall)}

/-- The calls that user code has had between two states. -/
def Server.Called (s s' : Server (υ × List HandlerCall)) (calls : List HandlerCall) : Prop :=
  s'.user.2 = s.user.2 ++ calls

theorem called_none : s.Called s [] := by simp [Server.Called]

theorem Server.Called.unique {calls calls' : List HandlerCall} (called : s.Called s' calls)
    (called' : s.Called s' calls') : calls = calls' := by
  unfold Server.Called at called called'
  rw [called] at called'
  exact List.append_cancel_left called'

theorem call_noting {α : Type} (calls : List HandlerCall) (h : Handler υ α) (f : α → Json) :
    s.Called ((call (noting calls h) >>= fun a => pure (f a) :
      ServerM (υ × List HandlerCall) Json).run.run s).2 calls := by
  simp only [ExceptT.run_bind, StateT.run_bind]
  have ran : (call (noting calls h) : ServerM (υ × List HandlerCall) α).run.run s =
      ((h.run.run s.user.1).1,
        { s with user := ((h.run.run s.user.1).2, s.user.2 ++ calls) }) := rfl
  rw [ran]
  cases (h.run.run s.user.1).1 <;> rfl

end

theorem lookup_mapped {α β : Type} (entries : List (String × α)) (f : α → β) (key : String) :
    (entries.map fun entry => (entry.1, f entry.2)).lookup key = (entries.lookup key).map f :=
  lookup_pinned entries (fun entry => f entry.2) f (fun _ _ => rfl) key

theorem dispatchMethod_serves (info : ServerInfo) {req : JsonRpcRequest}
    (gated : req.isGated = true) (sessionId : SessionId) {s : Server υ}
    (opened : s.initialized = true) :
    (dispatchMethod info req sessionId).run.run s =
      (serveMethod info req (req.params.getD (.object [])) sessionId).run.run s := by
  simp only [JsonRpcRequest.isGated, Bool.and_eq_true, bne_iff_ne] at gated
  simp only [dispatchMethod, gated.1, gated.2, if_false, run_get_bind, opened, if_true]

theorem deferrable_gated {req : JsonRpcRequest} (carries : isDeferrable req.method = true) :
    req.isGated = true := by
  simp only [isDeferrable, Bool.or_eq_true, beq_iff_eq] at carries
  unfold JsonRpcRequest.isGated
  rcases carries with (same | same) | same
  all_goals
    rw [same]
    decide

section
variable {registry : Registry υ} {s : Server (υ × List HandlerCall)}
  (watch : s.handlers = registry.watched) {params : Json} {name : String}
include watch

theorem watched_tools (name : String) :
    s.handlers.tools.lookup name = (registry.tools.lookup name).map fun entry =>
      (entry.1, fun arguments ctx => noting [.tool arguments ctx] (entry.2 arguments ctx)) := by
  rw [watch]
  exact lookup_mapped registry.tools (fun entry => (entry.1, fun arguments ctx =>
    noting [.tool arguments ctx] (entry.2 arguments ctx))) name

theorem watched_resources (uri : String) :
    s.handlers.resources.lookup uri = (registry.resources.lookup uri).map fun entry =>
      (entry.1, fun uri ctx => noting [.resource uri ctx] (entry.2 uri ctx)) := by
  rw [watch]
  exact lookup_mapped registry.resources (fun entry => (entry.1, fun uri ctx =>
    noting [.resource uri ctx] (entry.2 uri ctx))) uri

theorem watched_template (uri : String) :
    findTemplate s.handlers uri = (findTemplate registry uri).map fun found =>
      (found.1, fun uri captured ctx =>
        noting [.template uri captured ctx] (found.2 uri captured ctx)) := by
  rw [watch]
  unfold findTemplate Registry.watched
  simp only
  induction registry.resourceTemplates with
  | nil => rfl
  | cons entry rest ih =>
    simp only [List.map_cons, List.findSome?_cons]
    cases matchTemplate entry.1.toUTF8.toList uri.toUTF8.toList with
    | none => exact ih
    | some captured => rfl

theorem watched_prompts (name : String) :
    s.handlers.prompts.lookup name = (registry.prompts.lookup name).map fun entry =>
      (entry.1, fun name arguments ctx =>
        noting [.prompt name arguments ctx] (entry.2 name arguments ctx)) := by
  rw [watch]
  exact lookup_mapped registry.prompts (fun entry => (entry.1, fun name arguments ctx =>
    noting [.prompt name arguments ctx] (entry.2 name arguments ctx))) name

theorem toolsCall_refuses {entry : Tool × (Json → RequestContext → Handler υ CallToolResult)}
    (named : getStringParam params "name" = .ok name)
    (registered : registry.tools.lookup name = some entry)
    (violated : schemaValidate (params.objectMember "arguments") entry.1.inputSchema "" ≠ "")
    (id : RequestId) (sessionId : SessionId) :
    (handleToolsCall id params sessionId).run.run s =
      (.ok (invalidParams id ("Invalid arguments for tool '" ++ name ++ "': " ++
        schemaValidate (params.objectMember "arguments") entry.1.inputSchema "")), s) := by
  unfold handleToolsCall
  rw [named]
  dsimp only
  rw [run_get_bind, watched_tools watch, registered]
  simp only [Option.map_some, if_pos violated]
  rfl

theorem toolsCall_calls {entry : Tool × (Json → RequestContext → Handler υ CallToolResult)}
    (named : getStringParam params "name" = .ok name)
    (registered : registry.tools.lookup name = some entry)
    (valid : schemaValidate (params.objectMember "arguments") entry.1.inputSchema "" = "")
    (id : RequestId) (sessionId : SessionId) :
    s.Called ((handleToolsCall id params sessionId).run.run s).2
      [.tool (params.objectMember "arguments")
        ⟨id, requestProgressToken id params, sessionId⟩] := by
  unfold handleToolsCall
  rw [named]
  dsimp only
  rw [run_get_bind, watched_tools watch, registered]
  simp only [Option.map_some, valid, ne_eq, not_true_eq_false, if_false]
  exact call_noting _ _ _

theorem promptsGet_refuses {arg : String}
    {entry : Prompt × (String → Json → RequestContext → Handler υ GetPromptResult)}
    (named : getStringParam params "name" = .ok name)
    (registered : registry.prompts.lookup name = some entry)
    (missing : missingArgument entry.1 (params.objectMember "arguments") = some arg)
    (id : RequestId) (sessionId : SessionId) :
    (handlePromptsGet id params sessionId).run.run s =
      (.ok (invalidParams id
        ("Missing required argument '" ++ arg ++ "' for prompt '" ++ name ++ "'")), s) := by
  unfold handlePromptsGet
  rw [named]
  dsimp only
  rw [run_get_bind, watched_prompts watch, registered]
  simp only [Option.map_some, missing]
  rfl

theorem promptsGet_calls
    {entry : Prompt × (String → Json → RequestContext → Handler υ GetPromptResult)}
    (named : getStringParam params "name" = .ok name)
    (registered : registry.prompts.lookup name = some entry)
    (complete : missingArgument entry.1 (params.objectMember "arguments") = none)
    (id : RequestId) (sessionId : SessionId) :
    s.Called ((handlePromptsGet id params sessionId).run.run s).2
      [.prompt name (params.objectMember "arguments") ⟨id, id, sessionId⟩] := by
  unfold handlePromptsGet
  rw [named]
  dsimp only
  rw [run_get_bind, watched_prompts watch, registered]
  simp only [Option.map_some, complete]
  exact call_noting _ _ _

end

/-- Whatever user code was called was given this context. -/
def Server.CalledWith (s s' : Server (υ × List HandlerCall)) (context : RequestContext) : Prop :=
  ∃ calls, s.Called s' calls ∧ ∀ call ∈ calls, call.context = context

section
variable {s : Server (υ × List HandlerCall)} {m : ServerM (υ × List HandlerCall) Json}
  {context : RequestContext}

theorem calledWith_none : s.CalledWith s context :=
  ⟨[], called_none, fun call member => by cases member⟩

theorem Server.Called.one {s' : Server (υ × List HandlerCall)} {c : HandlerCall}
    (called : s.Called s' [c]) (own : c.context = context) : s.CalledWith s' context := by
  refine ⟨[c], called, fun call member => ?_⟩
  rw [List.mem_singleton.mp member]
  exact own

end

section
variable {registry : Registry υ} {s : Server (υ × List HandlerCall)}
  (watch : s.handlers = registry.watched)
include watch

theorem toolsCall_context (id : RequestId) (params : Json) (sessionId : SessionId) :
    s.CalledWith ((handleToolsCall id params sessionId).run.run s).2
      ⟨id, requestProgressToken id params, sessionId⟩ := by
  cases named : getStringParam params "name" with
  | error message =>
    unfold handleToolsCall
    rw [named]
    exact calledWith_none
  | ok name =>
    cases registered : registry.tools.lookup name with
    | none =>
      unfold handleToolsCall
      rw [named]
      dsimp only
      rw [run_get_bind, watched_tools watch, registered]
      exact calledWith_none
    | some entry =>
      by_cases valid : schemaValidate (params.objectMember "arguments") entry.1.inputSchema "" = ""
      · exact (toolsCall_calls watch named registered valid id sessionId).one rfl
      · rw [toolsCall_refuses watch named registered valid id sessionId]
        exact calledWith_none

theorem resourcesRead_context (id : RequestId) (params : Json) (sessionId : SessionId) :
    s.CalledWith ((handleResourcesRead id params sessionId).run.run s).2 ⟨id, id, sessionId⟩ := by
  unfold handleResourcesRead
  cases getStringParam params "uri" with
  | error message => exact calledWith_none
  | ok uri =>
    dsimp only
    rw [run_get_bind, watched_resources watch]
    cases registry.resources.lookup uri with
    | some entry => exact (call_noting _ _ _).one rfl
    | none =>
      simp only [Option.map_none]
      rw [watched_template watch]
      cases findTemplate registry uri with
      | some found => exact (call_noting _ _ _).one rfl
      | none => exact calledWith_none

theorem promptsGet_context (id : RequestId) (params : Json) (sessionId : SessionId) :
    s.CalledWith ((handlePromptsGet id params sessionId).run.run s).2 ⟨id, id, sessionId⟩ := by
  cases named : getStringParam params "name" with
  | error message =>
    unfold handlePromptsGet
    rw [named]
    exact calledWith_none
  | ok name =>
    cases registered : registry.prompts.lookup name with
    | none =>
      unfold handlePromptsGet
      rw [named]
      dsimp only
      rw [run_get_bind, watched_prompts watch, registered]
      exact calledWith_none
    | some entry =>
      cases missing : missingArgument entry.1 (params.objectMember "arguments") with
      | none => exact (promptsGet_calls watch named registered missing id sessionId).one rfl
      | some arg =>
        rw [promptsGet_refuses watch named registered missing id sessionId]
        exact calledWith_none

/-- The handlers that a request of the three methods calls are given its context. -/
theorem processRequest_context (info : ServerInfo) {req : JsonRpcRequest}
    (carries : isDeferrable req.method = true) (sessionId : SessionId) :
    s.CalledWith (processRequest info req sessionId s).2 (requestContext req sessionId) := by
  rw [processRequest_state]
  have gated := deferrable_gated carries
  cases opened : s.initialized with
  | false =>
    rw [← processRequest_state, processRequest_gated info gated sessionId opened]
    exact calledWith_none
  | true =>
    rw [dispatchMethod_serves info gated sessionId opened]
    unfold serveMethod requestContext
    simp only [isDeferrable, Bool.or_eq_true, beq_iff_eq] at carries
    rcases carries with (called | read) | get
    · rw [called]
      exact toolsCall_context watch _ _ _
    · rw [read]
      exact resourcesRead_context watch _ _ _
    · rw [get]
      exact promptsGet_context watch _ _ _

end

end CppMcp
