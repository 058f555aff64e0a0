import CppMcp.Server.Oblivious
import CppMcp.Server.Pages
import CppMcp.Server.Subscriptions

namespace CppMcp

open Lib

variable {υ : Type} (info : ServerInfo)

/-! The request handlers with both their branches, on the frozen copies and on the registries. -/
namespace Branches

def handleInitialize (id : RequestId) (params : Json) (sessionId : SessionId) :
    ServerM υ Json := do
  let s ← get
  let initHandler := match s.frozen with
    | some frozen => frozen.initializeHandler
    | none => s.registry.initializeHandler
  recordClientHello params sessionId
  modify fun s => { s with negotiatedVersion := negotiate params }
  match initHandler with
  | some handler =>
    let result ← call (handler params)
    let version := if result.protocolVersion = "" then negotiate params else result.protocolVersion
    return makeSuccessResponse id { result with protocolVersion := version }.toJson
  | none =>
    let result : InitializeResult := ⟨negotiate params, info.capabilities, info.serverInfo, none⟩
    return makeSuccessResponse id result.toJson

/-- A list handler runs within the branch, and on the registries without the lock. -/
def produceTools : ServerM υ (List Json) := do
  let s ← get
  let tools ← match s.frozen with
    | some frozen =>
      match frozen.toolList with
      | some listHandler => call listHandler
      | none => pure (frozen.tools.map fun entry => entry.2.1)
    | none =>
      match s.registry.toolList with
      | some listHandler => call listHandler
      | none => pure (s.registry.tools.map fun entry => entry.2.1)
  return tools.map Tool.toJson

/-- The list handlers of resources and prompts run behind the branch. -/
def produceBehind {α : Type} (listHandler : Registry υ → Option (Handler υ (List α)))
    (registered : Registry υ → List α) (toJson : α → Json) : ServerM υ (List Json) := do
  let s ← get
  let (handler, items) := match s.frozen with
    | some frozen =>
      (listHandler frozen, if (listHandler frozen).isNone then registered frozen else [])
    | none =>
      (listHandler s.registry,
        if (listHandler s.registry).isNone then registered s.registry else [])
  let items ← match handler with
    | some handler => call handler
    | none => pure items
  return items.map toJson

def produceResources : ServerM υ (List Json) :=
  produceBehind (·.resourceList) (fun registry => registry.resources.map fun entry => entry.2.1)
    Resource.toJson

def producePrompts : ServerM υ (List Json) :=
  produceBehind (·.promptList) (fun registry => registry.prompts.map fun entry => entry.2.1)
    Prompt.toJson

/-- `frozen_` is read once for the list handler and once more for the templates. -/
def produceResourceTemplates : ServerM υ (List Json) := do
  let s ← get
  let handler := match s.frozen with
    | some frozen => frozen.resourceTemplateList
    | none => s.registry.resourceTemplateList
  let templates ← match handler with
    | some handler => call handler
    | none => pure <| match s.frozen with
      | some frozen => frozen.resourceTemplates.map fun entry => entry.2.1
      | none => s.registry.resourceTemplates.map fun entry => entry.2.1
  return templates.map ResourceTemplate.toJson

def handleToolsCall (id : RequestId) (params : Json) (sessionId : SessionId) :
    ServerM υ Json := do
  match getStringParam params "name" with
  | .error message => return invalidParams id message
  | .ok name =>
    let s ← get
    let found := match s.frozen with
      | some frozen => frozen.tools.lookup name
      | none => s.registry.tools.lookup name
    match found with
    | none => return notFound id ("Tool not found: " ++ name)
    | some (tool, handler) =>
      let arguments := params.objectMember "arguments"
      let violation := schemaValidate arguments tool.inputSchema ""
      if violation ≠ "" then
        return invalidParams id ("Invalid arguments for tool '" ++ name ++ "': " ++ violation)
      else
        let result ← call (handler arguments ⟨id, requestProgressToken id params, sessionId⟩)
        return makeSuccessResponse id result.toJson

/-- `frozen_` is read once for the resources and once more for the templates. -/
def handleResourcesRead (id : RequestId) (params : Json) (sessionId : SessionId) :
    ServerM υ Json := do
  match getStringParam params "uri" with
  | .error message => return invalidParams id message
  | .ok uri =>
    let s ← get
    let ctx : RequestContext := ⟨id, id, sessionId⟩
    let found := match s.frozen with
      | some frozen => frozen.resources.lookup uri
      | none => s.registry.resources.lookup uri
    match found with
    | some (_, handler) =>
      let result ← call (handler uri ctx)
      return makeSuccessResponse id result.toJson
    | none =>
      let served := match s.frozen with
        | some frozen => findTemplate frozen uri
        | none => findTemplate s.registry uri
      match served with
      | some (captured, handler) =>
        let result ← call (handler uri captured ctx)
        return makeSuccessResponse id result.toJson
      | none => return notFound id ("Resource not found: " ++ uri)

def handlePromptsGet (id : RequestId) (params : Json) (sessionId : SessionId) :
    ServerM υ Json := do
  match getStringParam params "name" with
  | .error message => return invalidParams id message
  | .ok name =>
    let s ← get
    let found := match s.frozen with
      | some frozen => frozen.prompts.lookup name
      | none => s.registry.prompts.lookup name
    match found with
    | none => return notFound id ("Prompt not found: " ++ name)
    | some (prompt, handler) =>
      let arguments := params.objectMember "arguments"
      match missingArgument prompt arguments with
      | some arg =>
        return invalidParams id
          ("Missing required argument '" ++ arg ++ "' for prompt '" ++ name ++ "'")
      | none =>
        let result ← call (handler name arguments ⟨id, id, sessionId⟩)
        return makeSuccessResponse id result.toJson

def handleCompletionComplete (id : RequestId) (params : Json) : ServerM υ Json := do
  let s ← get
  let found := match s.frozen with
    | some frozen => frozen.completion
    | none => s.registry.completion
  match found with
  | none => return notFound id "Completions not supported"
  | some handler =>
    let ref := params.objectMember "ref"
    let arg := params.objectMember "argument"
    let result ← call (handler
      ⟨(ref.stringMember "type").getD "", (ref.stringMember "name").getD ""⟩
      ⟨(arg.stringMember "name").getD "", (arg.stringMember "value").getD ""⟩)
    return makeSuccessResponse id result.toJson

def handleLoggingSetLevel (id : RequestId) (params : Json) : ServerM υ Json := do
  match getStringParam params "level" with
  | .error message => return invalidParams id message
  | .ok level =>
    if level ∉ validLogLevels then return invalidParams id ("Invalid log level: " ++ level)
    else
      let s ← get
      let found := match s.frozen with
        | some frozen => frozen.loggingLevel
        | none => s.registry.loggingLevel
      match found with
      | some handler =>
        call (handler level)
        return makeSuccessResponse id emptyResult
      | none => return makeSuccessResponse id emptyResult

def serveMethod (req : JsonRpcRequest) (p : Json) (sessionId : SessionId) : ServerM υ Json :=
  let handleList (kind : ListKind) := handleListRequest req.id kind.field kind.key p
  if req.method = Protocol.methodToolsList then handleList .tools produceTools
  else if req.method = Protocol.methodToolsCall then handleToolsCall req.id p sessionId
  else if req.method = Protocol.methodResourcesList then handleList .resources produceResources
  else if req.method = Protocol.methodResourcesRead then handleResourcesRead req.id p sessionId
  else if req.method = Protocol.methodResourcesSubscribe then
    handleResourcesSubscribe info req.id p sessionId
  else if req.method = Protocol.methodResourcesUnsubscribe then
    handleResourcesUnsubscribe req.id p sessionId
  else if req.method = Protocol.methodResourcesTemplateList then
    handleList .resourceTemplates produceResourceTemplates
  else if req.method = Protocol.methodPromptsList then handleList .prompts producePrompts
  else if req.method = Protocol.methodPromptsGet then handlePromptsGet req.id p sessionId
  else if req.method = Protocol.methodCompletionComplete then handleCompletionComplete req.id p
  else if req.method = Protocol.methodLoggingSetLevel then handleLoggingSetLevel req.id p
  else return notFound req.id ("Method not found: " ++ req.method)

def dispatchMethod (req : JsonRpcRequest) (sessionId : SessionId) : ServerM υ Json :=
  let p := req.params.getD (.object [])
  if req.method = Protocol.methodInitialize then handleInitialize info req.id p sessionId
  else if req.method = Protocol.methodPing then handlePing req.id
  else do
    if (← get).initialized then serveMethod info req p sessionId
    else
      return makeErrorResponse req.id Protocol.serverNotInitialized
        "Server not initialized. Send initialize request first."

/-- `process_request` over the handlers with both branches. -/
def processRequest (req : JsonRpcRequest) (sessionId : SessionId) (s : Server υ) :
    Json × Server υ :=
  match (dispatchMethod info req sessionId).run.run s with
  | (.ok response, s) => (response, s)
  | (.error (.mcp code message data), s) => (makeErrorResponse req.id code message data, s)
  | (.error (.std what), s) => (makeErrorResponse req.id Protocol.internalError what, s)
  | (.error .other, s) => (makeErrorResponse req.id Protocol.internalError "Unknown error", s)

theorem branch_eq {α : Type} (s : Server υ) (read : Registry υ → α) :
    (match s.frozen with
      | some frozen => read frozen
      | none => read s.registry) = read s.handlers := by
  unfold Server.handlers
  cases s.frozen <;> rfl

theorem handleInitialize_eq (id : RequestId) (params : Json) (sessionId : SessionId) :
    handleInitialize info id params sessionId =
      (CppMcp.handleInitialize info id params sessionId : ServerM υ Json) := by
  apply bind_congr
  intro s
  dsimp only
  rewrite [branch_eq s fun registry => registry.initializeHandler]
  rfl

theorem produceTools_eq : produceTools = (ListKind.tools.produceItems : ServerM υ (List Json)) := by
  apply bind_congr
  intro s
  unfold Server.handlers listItems
  cases s.frozen with
  | none =>
    dsimp only [Option.getD]
    cases s.registry.toolList <;> rfl
  | some frozen =>
    dsimp only [Option.getD]
    cases frozen.toolList <;> rfl

theorem produceBehind_eq {α : Type} (listHandler : Registry υ → Option (Handler υ (List α)))
    (registered : Registry υ → List α) (toJson : α → Json) :
    produceBehind listHandler registered toJson = (do
      let handlers := (← get).handlers
      listItems (listHandler handlers) (registered handlers) toJson) := by
  apply bind_congr
  intro s
  unfold Server.handlers listItems
  cases s.frozen with
  | none =>
    dsimp only [Option.getD]
    cases listHandler s.registry <;> rfl
  | some frozen =>
    dsimp only [Option.getD]
    cases listHandler frozen <;> rfl

theorem produceResourceTemplates_eq : produceResourceTemplates =
    (ListKind.resourceTemplates.produceItems : ServerM υ (List Json)) := by
  apply bind_congr
  intro s
  dsimp only
  rw [branch_eq s fun registry => registry.resourceTemplateList,
    branch_eq s fun registry => registry.resourceTemplates.map fun entry => entry.2.1]
  unfold listItems
  cases s.handlers.resourceTemplateList <;> rfl

theorem handleToolsCall_eq (id : RequestId) (params : Json) (sessionId : SessionId) :
    handleToolsCall id params sessionId =
      (CppMcp.handleToolsCall id params sessionId : ServerM υ Json) := by
  unfold handleToolsCall CppMcp.handleToolsCall
  cases getStringParam params "name" with
  | error message => rfl
  | ok name =>
    apply bind_congr
    intro s
    dsimp only
    rewrite [branch_eq s fun registry => registry.tools.lookup name]
    rfl

theorem handleResourcesRead_eq (id : RequestId) (params : Json) (sessionId : SessionId) :
    handleResourcesRead id params sessionId =
      (CppMcp.handleResourcesRead id params sessionId : ServerM υ Json) := by
  unfold handleResourcesRead CppMcp.handleResourcesRead
  cases getStringParam params "uri" with
  | error message => rfl
  | ok uri =>
    apply bind_congr
    intro s
    dsimp only
    rewrite [branch_eq s fun registry => registry.resources.lookup uri,
      branch_eq s fun registry => findTemplate registry uri]
    rfl

theorem handlePromptsGet_eq (id : RequestId) (params : Json) (sessionId : SessionId) :
    handlePromptsGet id params sessionId =
      (CppMcp.handlePromptsGet id params sessionId : ServerM υ Json) := by
  unfold handlePromptsGet CppMcp.handlePromptsGet
  cases getStringParam params "name" with
  | error message => rfl
  | ok name =>
    apply bind_congr
    intro s
    dsimp only
    rewrite [branch_eq s fun registry => registry.prompts.lookup name]
    rfl

theorem handleCompletionComplete_eq (id : RequestId) (params : Json) :
    handleCompletionComplete id params =
      (CppMcp.handleCompletionComplete id params : ServerM υ Json) := by
  apply bind_congr
  intro s
  dsimp only
  rewrite [branch_eq s fun registry => registry.completion]
  rfl

theorem handleLoggingSetLevel_eq (id : RequestId) (params : Json) :
    handleLoggingSetLevel id params =
      (CppMcp.handleLoggingSetLevel id params : ServerM υ Json) := by
  unfold handleLoggingSetLevel CppMcp.handleLoggingSetLevel
  cases getStringParam params "level" with
  | error message => rfl
  | ok level =>
    dsimp only
    split
    · rfl
    · apply bind_congr
      intro s
      rewrite [branch_eq s fun registry => registry.loggingLevel]
      rfl

theorem serveMethod_eq (req : JsonRpcRequest) (p : Json) (sessionId : SessionId) :
    serveMethod info req p sessionId =
      (CppMcp.serveMethod info req p sessionId : ServerM υ Json) := by
  have resources : produceResources = (ListKind.resources.produceItems : ServerM υ (List Json)) :=
    produceBehind_eq _ _ _
  have prompts : producePrompts = (ListKind.prompts.produceItems : ServerM υ (List Json)) :=
    produceBehind_eq _ _ _
  simp only [serveMethod, produceTools_eq, resources, prompts, produceResourceTemplates_eq,
    handleToolsCall_eq, handleResourcesRead_eq, handlePromptsGet_eq, handleCompletionComplete_eq,
    handleLoggingSetLevel_eq]
  rfl

/-- The handlers of the model read one registry where the source has two branches. -/
theorem processRequest_eq (req : JsonRpcRequest) (sessionId : SessionId) (s : Server υ) :
    processRequest info req sessionId s = CppMcp.processRequest info req sessionId s := by
  have dispatched : dispatchMethod info req sessionId =
      (CppMcp.dispatchMethod info req sessionId : ServerM υ Json) := by
    simp only [dispatchMethod, CppMcp.dispatchMethod, handleInitialize_eq, serveMethod_eq]
  unfold processRequest CppMcp.processRequest
  rewrite [dispatched]
  rfl

end Branches

/-- User code whose outcome does not depend on its memory, and that leaves the memory alone. -/
def SideEffectFree {α : Type} (h : Handler υ α) : Prop :=
  ∃ outcome, ∀ user, h.run.run user = (outcome, user)

/-- The handlers of a registry are deterministic and have no side effects. -/
structure Registry.Deterministic (registry : Registry υ) : Prop where
  tools : ∀ entry ∈ registry.tools, ∀ arguments ctx, SideEffectFree (entry.2.2 arguments ctx)
  toolList : ∀ h, registry.toolList = some h → SideEffectFree h
  resources : ∀ entry ∈ registry.resources, ∀ uri ctx, SideEffectFree (entry.2.2 uri ctx)
  resourceList : ∀ h, registry.resourceList = some h → SideEffectFree h
  resourceTemplateList : ∀ h, registry.resourceTemplateList = some h → SideEffectFree h
  resourceTemplates : ∀ entry ∈ registry.resourceTemplates, ∀ uri captured ctx,
    SideEffectFree (entry.2.2 uri captured ctx)
  prompts : ∀ entry ∈ registry.prompts, ∀ name arguments ctx,
    SideEffectFree (entry.2.2 name arguments ctx)
  promptList : ∀ h, registry.promptList = some h → SideEffectFree h
  completion : ∀ h, registry.completion = some h → ∀ ref arg, SideEffectFree (h ref arg)
  initializeHandler : ∀ h, registry.initializeHandler = some h →
    ∀ params, SideEffectFree (h params)
  loggingLevel : ∀ h, registry.loggingLevel = some h → ∀ level, SideEffectFree (h level)

/-- Every cached list is one that the registries have produced, at some time. -/
def Server.CacheProduced (s : Server υ) : Prop :=
  ∀ (kind : ListKind) result, kind.field.get s.listCache = some result →
    ∃ (t : Server υ) (items : List Json), t.handlers = s.registry ∧
      (kind.produceItems.run.run t).1 = .ok items ∧
      result = Json.null.set kind.key (.array items)

/-- The server on the path of its live registries, which are the ones in force. -/
def Server.unfrozen (s : Server υ) : Server υ := { s with frozen := none, registry := s.handlers }

theorem Server.unfrozen_unseen : Server.Unseen (Server.unfrozen : Server υ → Server υ) := by
  constructor <;> intros <;> rfl

theorem produceItems_unseen {f : Server υ → Server υ} (unseen : Server.Unseen f)
    (kind : ListKind) : Commutes f kind.produceItems := by
  cases kind
  all_goals
    apply commutes_get
    · intro s
      rw [unseen.handlers]
    · intro s
      exact listItems_unseen unseen _ _ _

/-- A list of pure handlers does not depend on the time. -/
theorem listItems_pure {α : Type} {handler : Option (Handler υ (List α))}
    (isPure : ∀ h, handler = some h → SideEffectFree h) (registered : List α) (toJson : α → Json)
    (s t : Server υ) :
    ((listItems handler registered toJson).run.run s).1 =
      ((listItems handler registered toJson).run.run t).1 := by
  cases handler with
  | none => rfl
  | some h =>
    obtain ⟨outcome, same⟩ := isPure h rfl
    have called (u : Server υ) : (call h).run.run u = (outcome, u) := by
      rw [run_call, same]
    simp only [listItems, ExceptT.run_bind, StateT.run_bind, called]
    cases outcome <;> rfl

theorem produceItems_pure {s t : Server υ} (isPure : s.handlers.Deterministic)
    (same : t.handlers = s.handlers) (kind : ListKind) :
    (kind.produceItems.run.run t).1 = (kind.produceItems.run.run s).1 := by
  cases kind
  all_goals
    simp only [ListKind.produceItems]
    rw [run_get_bind, run_get_bind, same]
    apply listItems_pure
  · exact isPure.toolList
  · exact isPure.resourceList
  · exact isPure.resourceTemplateList
  · exact isPure.promptList

/-- The response of a list request that misses the cache. -/
def missResponse (pageSize : Nat) (id : RequestId) (key : String) (params : Json)
    (produced : Except Exn (List Json)) : Except Exn Json := do
  let paginated := decide (0 < pageSize)
  match ← if paginated then cursorOffset params else .ok (some 0) with
  | none => return invalidParams id "Invalid cursor"
  | some offset =>
    return makeSuccessResponse id (← listResult paginated pageSize offset key (← produced))

theorem handleListRequest_missed {s : Server υ} {field : CacheField}
    (missed : s.frozen = none ∨ 0 < s.listPageSize ∨ field.get s.listCache = none) (id : RequestId)
    (key : String) (params : Json) (produceItems : ServerM υ (List Json)) :
    ((handleListRequest id field key params produceItems).run.run s).1 =
      missResponse s.listPageSize id key params (produceItems.run.run s).1 := by
  have listed (offset : Nat) (paginated cacheable : Bool) :
      ((produceItems >>= fun items => do
          let result ← handleListRequest.liftExcept
            (listResult paginated s.listPageSize offset key items)
          if cacheable then
            modify fun s => { s with listCache := field.set s.listCache result }
          return makeSuccessResponse id result : ServerM υ Json).run.run s).1 = (do
        let result ← listResult paginated s.listPageSize offset key (← (produceItems.run.run s).1)
        return makeSuccessResponse id result) := by
    simp only [ExceptT.run_bind, StateT.run_bind]
    cases produceItems.run.run s with
    | mk outcome after =>
      cases outcome with
      | error e => rfl
      | ok items =>
        show ((handleListRequest.liftExcept _ >>= _ : ServerM υ Json).run.run after).1 =
          (listResult paginated s.listPageSize offset key items >>= _)
        cases listResult paginated s.listPageSize offset key items with
        | error e => rfl
        | ok result => cases cacheable <;> rfl
  rw [handleListRequest_steps, run_get_bind]
  by_cases paginated : 0 < s.listPageSize
  · rw [probeList_paginated _ paginated]
    simp only [missResponse, paginated, decide_true, if_true]
    cases cursorOffset params with
    | error e => rfl
    | ok offset =>
      cases offset with
      | none => rfl
      | some offset => exact listed offset true false
  · rw [probeList_whole _ paginated, liftExcept_ok_bind]
    have empty : (if s.frozen.isSome then field.get s.listCache else none) = none := by
      rcases missed with unfrozen | paged | empty
      · rw [unfrozen]
        rfl
      · exact absurd paged paginated
      · rw [empty, ite_self]
    simp only [missResponse, paginated, decide_false, Bool.false_eq_true, if_false, empty]
    exact listed 0 false s.frozen.isSome

theorem handleListRequest_hit {s : Server υ} {field : CacheField} {result : Json}
    (frozen : s.frozen.isSome = true) (whole : ¬ 0 < s.listPageSize)
    (hit : field.get s.listCache = some result) (id : RequestId) (key : String) (params : Json)
    (produceItems : ServerM υ (List Json)) :
    ((handleListRequest id field key params produceItems).run.run s).1 =
      .ok (makeSuccessResponse id result) := by
  rw [handleListRequest_steps, run_get_bind, probeList_whole _ whole, liftExcept_ok_bind, frozen,
    if_pos rfl, hit]
  rfl

theorem list_agrees {s : Server υ} (frozen : s.frozen = some s.registry)
    (isPure : s.registry.Deterministic) (produced : s.CacheProduced) (kind : ListKind)
    (id : RequestId) (params : Json) : Agrees s s.unfrozen
      (handleListRequest id kind.field kind.key params kind.produceItems) := by
  have inForce : s.handlers = s.registry := by
    unfold Server.handlers
    rw [frozen]
    rfl
  have items : (kind.produceItems.run.run s.unfrozen).1 = (kind.produceItems.run.run s).1 :=
    ((produceItems_unseen Server.unfrozen_unseen kind).agrees s).symm
  have live : ((handleListRequest id kind.field kind.key params kind.produceItems).run.run
      s.unfrozen).1 = missResponse s.listPageSize id kind.key params
        (kind.produceItems.run.run s.unfrozen).1 :=
    handleListRequest_missed (.inl rfl) id kind.key params kind.produceItems
  rw [items] at live
  unfold Agrees
  rw [live]
  by_cases whole : 0 < s.listPageSize
  · exact handleListRequest_missed (.inr (.inl whole)) id kind.key params kind.produceItems
  · cases cached : kind.field.get s.listCache with
    | none => exact handleListRequest_missed (.inr (.inr cached)) id kind.key params _
    | some result =>
      obtain ⟨t, items, same, made, rfl⟩ := produced kind result cached
      have isPure : s.handlers.Deterministic := inForce ▸ isPure
      rw [produceItems_pure isPure (same.trans inForce.symm) kind] at made
      rw [handleListRequest_hit (by rw [frozen]; rfl) whole cached, made]
      simp only [missResponse, whole, decide_false, Bool.false_eq_true, if_false, listResult]
      rfl

theorem dispatchMethod_agrees {s : Server υ} (frozen : s.frozen = some s.registry)
    (isPure : s.registry.Deterministic) (produced : s.CacheProduced) (req : JsonRpcRequest)
    (sessionId : SessionId) : Agrees s s.unfrozen (dispatchMethod info req sessionId) := by
  have unseen : Server.Unseen (Server.unfrozen : Server υ → Server υ) := Server.unfrozen_unseen
  have same {α : Type} (a : α) : Agrees s s.unfrozen (pure a : ServerM υ α) := rfl
  have list := list_agrees frozen isPure produced
  have served (p : Json) : Agrees s s.unfrozen (serveMethod info req p sessionId) :=
    agrees_ite (list .tools _ _) <|
    agrees_ite ((handleToolsCall_unseen unseen _ _ _).agrees s) <|
    agrees_ite (list .resources _ _) <|
    agrees_ite ((handleResourcesRead_unseen unseen _ _ _).agrees s) <|
    agrees_ite ((handleResourcesSubscribe_unseen unseen info _ _ _).agrees s) <|
    agrees_ite ((handleResourcesUnsubscribe_unseen unseen _ _ _).agrees s) <|
    agrees_ite (list .resourceTemplates _ _) <| agrees_ite (list .prompts _ _) <|
    agrees_ite ((handlePromptsGet_unseen unseen _ _ _).agrees s) <|
    agrees_ite ((handleCompletionComplete_unseen unseen _ _).agrees s) <|
    agrees_ite ((handleLoggingSetLevel_unseen unseen _ _).agrees s) (same _)
  refine agrees_ite ((handleInitialize_unseen unseen info _ _ _).agrees s) <|
    agrees_ite (same _) ?_
  show Agrees s s.unfrozen (get >>= fun s' : Server υ => if s'.initialized then _ else _)
  unfold Agrees
  rw [run_get_bind, run_get_bind]
  exact agrees_ite (served _) (same _)

/-- What a list request that returns leaves in the cache. -/
theorem handleListRequest_cache {s : Server υ} {field : CacheField}
    {produceItems : ServerM υ (List Json)}
    (keeps : (produceItems.run.run s).2.listCache = s.listCache) (id : RequestId) (key : String)
    (params : Json) :
    ((handleListRequest id field key params produceItems).run.run s).2.listCache = s.listCache ∨
      s.frozen.isSome = true ∧ ∃ items, (produceItems.run.run s).1 = .ok items ∧
        ((handleListRequest id field key params produceItems).run.run s).2.listCache =
          field.set s.listCache (Json.null.set key (.array items)) := by
  rw [handleListRequest_steps, run_get_bind]
  by_cases paginated : 0 < s.listPageSize
  · rw [probeList_paginated _ paginated]
    left
    cases cursorOffset params with
    | error e => rfl
    | ok offset =>
      cases offset with
      | none => rfl
      | some offset =>
        show ((produceItems >>= _ : ServerM υ Json).run.run s).2.listCache = _
        simp only [ExceptT.run_bind, StateT.run_bind]
        rw [← keeps]
        cases produceItems.run.run s with
        | mk outcome after =>
          cases outcome with
          | error e => rfl
          | ok items =>
            show ((handleListRequest.liftExcept _ >>= _ : ServerM υ Json).run.run
              after).2.listCache = _
            cases listResult true s.listPageSize offset key items <;> rfl
  · rw [probeList_whole _ paginated, liftExcept_ok_bind]
    cases (if s.frozen.isSome then field.get s.listCache else none) with
    | some cached => exact .inl rfl
    | none =>
      show ((produceItems >>= _ : ServerM υ Json).run.run s).2.listCache = _ ∨ _ ∧ ∃ items, _ ∧
        ((produceItems >>= _ : ServerM υ Json).run.run s).2.listCache = _
      simp only [ExceptT.run_bind, StateT.run_bind]
      cases ran : produceItems.run.run s with
      | mk outcome after =>
        rw [ran] at keeps
        cases outcome with
        | error e => exact .inl keeps
        | ok items =>
          cases frozen : s.frozen.isSome with
          | false => exact .inl keeps
          | true => exact .inr ⟨rfl, items, rfl, by rw [← keeps]; rfl⟩

/-- The list cache on its own is not seen outside the list requests. -/
theorem withCache_unseen (listCache : ListCache) :
    Server.Unseen (fun s : Server υ => { s with listCache }) := by
  constructor <;> intros <;> rfl

theorem unseen_cache {α : Type} {m : ServerM υ α} {s : Server υ}
    (commutes : ∀ listCache, Commutes (fun s : Server υ => { s with listCache }) m) :
    (m.run.run s).2.listCache = s.listCache := by
  have same := commutes s.listCache s
  exact congrArg (fun ran => ran.2.listCache) same

/-- A request leaves the list cache alone, or puts a list there that it has produced. -/
def Server.Fills (s s' : Server υ) : Prop :=
  s'.listCache = s.listCache ∨ s.frozen.isSome = true ∧
    ∃ (kind : ListKind) (items : List Json), (kind.produceItems.run.run s).1 = .ok items ∧
      s'.listCache = kind.field.set s.listCache (Json.null.set kind.key (.array items))

theorem fills_ite {s : Server υ} {c : Prop} [Decidable c] {yes no : ServerM υ Json}
    (holds : s.Fills (yes.run.run s).2) (fails : s.Fills (no.run.run s).2) :
    s.Fills ((if c then yes else no).run.run s).2 := by
  split
  · exact holds
  · exact fails

theorem fills_get {s : Server υ} {next : Server υ → ServerM υ Json}
    (fills : s.Fills ((next s).run.run s).2) : s.Fills ((get >>= next).run.run s).2 := fills

theorem processRequest_fills (req : JsonRpcRequest) (sessionId : SessionId) (s : Server υ) :
    s.Fills (processRequest info req sessionId s).2 := by
  have list (kind : ListKind) (p : Json) : s.Fills ((handleListRequest req.id kind.field kind.key p
      kind.produceItems).run.run s).2 := by
    have keeps : (kind.produceItems.run.run s).2.listCache = s.listCache :=
      unseen_cache fun listCache => produceItems_unseen (withCache_unseen listCache) kind
    rcases handleListRequest_cache keeps req.id kind.key p with same | ⟨frozen, items, made, fills⟩
    · exact .inl same
    · exact .inr ⟨frozen, kind, items, made, fills⟩
  have unseen := withCache_unseen (υ := υ)
  have served (p : Json) : s.Fills ((serveMethod info req p sessionId).run.run s).2 :=
    fills_ite (list .tools p) <|
    fills_ite (.inl (unseen_cache fun c => handleToolsCall_unseen (unseen c) _ _ _)) <|
    fills_ite (list .resources p) <|
    fills_ite (.inl (unseen_cache fun c => handleResourcesRead_unseen (unseen c) _ _ _)) <|
    fills_ite (.inl (unseen_cache fun c =>
      handleResourcesSubscribe_unseen (unseen c) info _ _ _)) <|
    fills_ite (.inl (unseen_cache fun c => handleResourcesUnsubscribe_unseen (unseen c) _ _ _)) <|
    fills_ite (list .resourceTemplates p) <| fills_ite (list .prompts p) <|
    fills_ite (.inl (unseen_cache fun c => handlePromptsGet_unseen (unseen c) _ _ _)) <|
    fills_ite (.inl (unseen_cache fun c => handleCompletionComplete_unseen (unseen c) _ _)) <|
    fills_ite (.inl (unseen_cache fun c => handleLoggingSetLevel_unseen (unseen c) _ _)) (.inl rfl)
  rw [processRequest_state]
  refine fills_ite (.inl (unseen_cache fun c => handleInitialize_unseen (unseen c) info _ _ _)) <|
    fills_ite (.inl rfl) ?_
  exact fills_get (fills_ite (served _) (.inl rfl))

/-- The registries, the state of the server's life and the list cache are as before. -/
structure Server.SameLists (s s' : Server υ) : Prop where
  registry : s'.registry = s.registry
  frozen : s'.frozen = s.frozen
  running : s'.running = s.running
  stopping : s'.stopping = s.stopping
  jobs : s'.jobs = s.jobs
  listCache : s'.listCache = s.listCache

theorem completeServerRequest_lists (s : Server υ) (id : Int) (ok : Bool) (payload : Json) :
    s.SameLists (s.completeServerRequest id ok payload) := by
  unfold Server.completeServerRequest
  split
  · exact ⟨rfl, rfl, rfl, rfl, rfl, rfl⟩
  · simp only [Server.callBack]
    split <;> exact ⟨rfl, rfl, rfl, rfl, rfl, rfl⟩

theorem sendServerRequest_lists (s : Server υ) (p : OutboundPending υ) (params : Json)
    (sends : Bool) : s.SameLists (s.sendServerRequest p params sends) := by
  unfold Server.sendServerRequest
  split
  · dsimp only
    split <;> exact ⟨rfl, rfl, rfl, rfl, rfl, rfl⟩
  · exact ⟨rfl, rfl, rfl, rfl, rfl, rfl⟩

theorem withSubscription_lists (s : Server υ) (subscription : Subscription) :
    s.SameLists (s.withSubscription subscription) := by
  obtain ⟨table, same⟩ := withSubscription_table s subscription
  rw [same]
  exact ⟨rfl, rfl, rfl, rfl, rfl, rfl⟩

/-- What holds of the list cache in a run whose registries change only while it is empty. -/
structure Server.CacheKept (s : Server υ) : Prop where
  produced : s.CacheProduced
  inForce : s.stopping = false → s.frozen = none ∨ s.frozen = some s.registry ∧ s.running = true
  stopped : s.stopping = true → s.jobs = []

/-- Handlers are registered while the list cache is empty, where they can be registered. -/
def RegistersUncached (s : Server υ) : ServerEvent υ → Prop
  | .registers _ => s.running = false → s.listCache = {}
  | _ => True

theorem uncached_produced {s : Server υ} (empty : s.listCache = {}) : s.CacheProduced := by
  intro kind result cached
  rw [empty, field_get_empty] at cached
  cases cached

namespace Server.CacheKept

theorem congr {s s' : Server υ} (inv : s.CacheKept) (same : s.SameLists s') : s'.CacheKept := by
  constructor
  · intro kind result cached
    rw [same.listCache] at cached
    obtain ⟨t, items, inForce, made, is⟩ := inv.produced kind result cached
    exact ⟨t, items, inForce.trans same.registry.symm, made, is⟩
  · intro up
    rw [same.stopping] at up
    rw [same.frozen, same.registry, same.running]
    exact inv.inForce up
  · intro stopping
    rw [same.stopping] at stopping
    rw [same.jobs]
    exact inv.stopped stopping

/-- A request moves the server's list cache on, and nothing of what the invariant speaks of. -/
theorem processRequest {s : Server υ} (inv : s.CacheKept) (up : s.stopping = false)
    (req : JsonRpcRequest) (sessionId : SessionId) :
    (CppMcp.processRequest info req sessionId s).2.CacheKept := by
  have fills := processRequest_fills info req sessionId s
  have processed := processRequest_processed info req sessionId s
  generalize (CppMcp.processRequest info req sessionId s).2 = after at fills processed ⊢
  have same : s.SameLists { after with listCache := s.listCache } := by
    cases processed with
    | greets => exact ⟨rfl, rfl, rfl, rfl, rfl, rfl⟩
    | @subscribes subscription =>
      have same := withSubscription_lists s subscription
      exact ⟨same.registry, same.frozen, same.running, same.stopping, same.jobs, rfl⟩
    | confined none confined =>
      obtain ⟨user, listCache, rfl⟩ := confined
      exact ⟨rfl, rfl, rfl, rfl, rfl, rfl⟩
  have kept := inv.congr same
  rcases fills with cache | ⟨frozen, kind, items, made, cache⟩
  · exact kept.congr ⟨rfl, rfl, rfl, rfl, rfl, cache⟩
  · have inForce : s.handlers = after.registry := by
      rcases inv.inForce up with unfrozen | ⟨frozen, -⟩
      · rw [unfrozen] at frozen
        cases frozen
      · unfold Server.handlers
        rw [frozen]
        exact same.registry.symm
    refine ⟨fun other result cached => ?_, kept.inForce, kept.stopped⟩
    rw [cache, field_get_set] at cached
    split at cached
    · rename_i own
      cases cached
      rw [own]
      exact ⟨s, items, inForce, made, rfl⟩
    · exact kept.produced other result cached

theorem onMessage {s : Server υ} (inv : s.CacheKept) (up : s.stopping = false) (message : Json)
    (sessionId : SessionId) (batch : Bool) :
    (s.onMessage info message sessionId batch).CacheKept := by
  have arrived : (s.arrived message).CacheKept := inv.congr ⟨rfl, rfl, rfl, rfl, rfl, rfl⟩
  have answered (s' : Server υ) (inv' : s'.CacheKept) (response : Json) :
      (s'.respond s.arrivals.length response).CacheKept :=
    inv'.congr ⟨rfl, rfl, rfl, rfl, rfl, rfl⟩
  have completed (id : Int) (ok : Bool) (payload : Json) :
      ((s.arrived message).completeServerRequest id ok payload).CacheKept :=
    arrived.congr (completeServerRequest_lists _ id ok payload)
  simp only [Server.onMessage]
  cases parseMessage message with
  | request req =>
    dsimp only
    split
    · refine ⟨arrived.produced, arrived.inForce, fun stopping => ?_⟩
      rw [show s.stopping = true from stopping] at up
      cases up
    · exact answered _ (arrived.processRequest info up req sessionId) _
  | notification notif =>
    simp only [Server.processNotification]
    split
    · exact arrived.congr ⟨rfl, rfl, rfl, rfl, rfl, rfl⟩
    · split
      · exact arrived.congr ⟨rfl, rfl, rfl, rfl, rfl, rfl⟩
      · exact arrived
  | success resp =>
    simp only [Server.onClientResponse]
    split
    · exact completed _ _ _
    · exact arrived
  | error resp =>
    simp only [Server.onClientErrorResponse]
    split
    · split
      · exact completed _ _ _
      · exact arrived
    · exact answered _ arrived _

theorem step {s s' : Server υ} {event : ServerEvent υ} (inv : s.CacheKept)
    (uncached : RegistersUncached s event) (h : s.step info event = some s') : s'.CacheKept := by
  have sends (p : OutboundPending υ) (params : Json) (sends : Bool) :
      (s.sendServerRequest p params sends).CacheKept :=
    inv.congr (sendServerRequest_lists s p params sends)
  cases event with
  | registers registry =>
    cases h
    split
    · exact inv.congr ⟨rfl, rfl, rfl, rfl, rfl, rfl⟩
    · rename_i idle
      have idle : s.running = false := by simpa using idle
      refine ⟨uncached_produced (uncached idle), fun up => ?_, inv.stopped⟩
      rcases inv.inForce up with unfrozen | ⟨-, running⟩
      · exact .inl unfrozen
      · rw [idle] at running
        cases running
  | setsWorkers n =>
    cases h
    split
    · exact inv
    · exact inv.congr ⟨rfl, rfl, rfl, rfl, rfl, rfl⟩
  | setsPageSize n | invalidates =>
    cases h
    exact ⟨uncached_produced rfl, inv.inForce, inv.stopped⟩
  | runs starts =>
    cases h
    cases starts with
    | true => exact ⟨inv.produced, fun _ => .inr ⟨rfl, rfl⟩, inv.stopped⟩
    | false => exact ⟨inv.produced, fun _ => .inl rfl, inv.stopped⟩
  | arrives message sessionId batch =>
    simp only [Server.step] at h
    split at h
    · cases h
    · rename_i up
      cases h
      exact inv.onMessage info (by simpa using up) message sessionId batch
  | runsJob place =>
    simp only [Server.step] at h
    split at h
    · rename_i job found
      cases h
      have up : s.stopping = false := by
        by_contra stopping
        rw [inv.stopped (by simpa using stopping)] at found
        cases found
      have left : Server.CacheKept { s with jobs := s.jobs.eraseIdx place } :=
        ⟨inv.produced, inv.inForce, fun stopping => by rw [up] at stopping; cases stopping⟩
      have served := left.processRequest info up job.request job.sessionId
      exact served.congr ⟨rfl, rfl, rfl, rfl, rfl, rfl⟩
    · cases h
  | delivers place =>
    simp only [Server.step] at h
    split at h
    · cases h
      exact inv.congr ⟨rfl, rfl, rfl, rfl, rfl, rfl⟩
    · cases h
  | requestsSampling params callbacks sessionId sends' =>
    cases h
    unfold Server.requestSampling
    split
    · exact sends _ _ _
    · exact inv
  | requestsElicitation params callbacks sessionId sends' =>
    cases h
    unfold Server.requestElicitation
    split
    · exact sends _ _ _
    · exact inv
  | requestsRoots callbacks sessionId sends' =>
    cases h
    unfold Server.requestRoots
    split
    · exact sends _ _ _
    · exact inv
  | stops =>
    cases h
    refine ⟨inv.produced, fun up => ?_, fun _ => rfl⟩
    cases up

end Server.CacheKept

/-- In every run in which handlers are registered only while the list cache is empty, as it is
    before the first `run`, the cache holds lists that the registries have produced. -/
theorem cache_produced (user : υ) {events : List (ServerEvent υ)} {s : Server υ}
    (h : run (Server.step info) (Server.initial user) events = some s)
    (uncached : Meets (Server.step info) RegistersUncached (Server.initial user) events) :
    s.CacheProduced := by
  have start : (Server.initial user).CacheKept :=
    ⟨uncached_produced rfl, fun _ => .inl rfl, fun stopping => by cases stopping⟩
  have kept : s.CacheKept := by
    apply run_invariant _ start uncached h
    exact fun s e s' inv uncached stepped => inv.step info uncached stepped
  exact kept.produced

def oneTool : Registry Unit where
  tools := [("a", { name := "a", inputSchema := .object [] }, fun _ _ => pure {})]

/-- Tools that are pure are the only handlers. -/
theorem tools_pure
    {tools : List (String × Tool × (Json → RequestContext → Handler υ CallToolResult))}
    (isPure : ∀ entry ∈ tools, ∀ arguments ctx, SideEffectFree (entry.2.2 arguments ctx)) :
    Registry.Deterministic { tools } where
  tools := isPure
  toolList h is := by cases is
  resources entry member := by cases member
  resourceList h is := by cases is
  resourceTemplateList h is := by cases is
  resourceTemplates entry member := by cases member
  prompts entry member := by cases member
  promptList h is := by cases is
  completion h is := by cases is
  initializeHandler h is := by cases is
  loggingLevel h is := by cases is

theorem oneTool_pure : oneTool.Deterministic := by
  apply tools_pure
  intro entry member arguments ctx
  obtain rfl := List.mem_singleton.mp member
  exact ⟨.ok {}, fun _ => rfl⟩

def toolsRequest : JsonRpcRequest := ⟨.int 1, Protocol.methodToolsList, none⟩

/-- A server whose list of tools has been cached. -/
def listsOneTool : List (ServerEvent Unit) :=
  [.registers oneTool, .runs true,
    .arrives (serializeNotification ⟨Protocol.notifInitialized, none⟩) [] false,
    .arrives (serializeRequest toolsRequest) [] false]

theorem listsOneTool_uncached :
    Meets (Server.step {}) RegistersUncached (Server.initial ()) listsOneTool := by
  refine ⟨fun _ => rfl, fun s _ => ⟨trivial, fun s _ => ⟨trivial, fun s _ => ⟨trivial, ?_⟩⟩⟩⟩
  exact fun _ _ => trivial

def toolsResponse (tools : List Json) : Json :=
  makeSuccessResponse (.int 1) (Json.null.set "tools" (.array tools))

theorem toolsResponse_ne (tool : Json) : toolsResponse [tool] ≠ toolsResponse [] := by
  intro same
  have result := congrArg (fun j => j.find? "result") same
  simp [toolsResponse, makeSuccessResponse, find?_mk, Json.set] at result

end CppMcp
