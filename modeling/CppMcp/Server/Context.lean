import CppMcp.Server.Updates

namespace CppMcp

open Lib

variable {υ : Type}

/-- The context that a handler of the three methods with one is given. -/
def requestContext (req : JsonRpcRequest) (sessionId : SessionId) : RequestContext where
  requestId := req.id
  progressToken :=
    if req.method = Protocol.methodToolsCall then
      requestProgressToken req.id (req.params.getD (.object []))
    else req.id
  sessionId := sessionId

def progressParams (progressToken : RequestId) (progress : Double) (total : Option Double) : Json :=
  .mk ([("progressToken", requestIdToJson progressToken), ("progress", .float progress)] ++
    (total.map fun total => ("total", .float total)).toList)

def Server.notifyProgress (s : Server υ) (progressToken : RequestId) (progress : Double)
    (total : Option Double) (sessionId : SessionId) : List Sending :=
  s.sendNotification Protocol.notifProgress (progressParams progressToken progress total) sessionId

/-- `report_progress` of a context, which holds its server. -/
def RequestContext.reportProgress (ctx : RequestContext) (s : Server υ) (progress : Double)
    (total : Option Double) : List Sending :=
  s.notifyProgress ctx.progressToken progress total ctx.sessionId

/-- The handlers again, each with this context in place of the one it is given. -/
def Registry.pinned (ctx : RequestContext) (registry : Registry υ) : Registry υ :=
  { registry with
    tools := registry.tools.map fun entry =>
      (entry.1, entry.2.1, fun arguments _ => entry.2.2 arguments ctx)
    resources := registry.resources.map fun entry =>
      (entry.1, entry.2.1, fun uri _ => entry.2.2 uri ctx)
    resourceTemplates := registry.resourceTemplates.map fun entry =>
      (entry.1, entry.2.1, fun uri captured _ => entry.2.2 uri captured ctx)
    prompts := registry.prompts.map fun entry =>
      (entry.1, entry.2.1, fun name arguments _ => entry.2.2 name arguments ctx) }

def Server.pinned (ctx : RequestContext) (s : Server υ) : Server υ :=
  { s with registry := s.registry.pinned ctx, frozen := s.frozen.map (Registry.pinned ctx) }

theorem pinned_handlers (ctx : RequestContext) (s : Server υ) :
    (s.pinned ctx).handlers = s.handlers.pinned ctx := by
  unfold Server.handlers Server.pinned
  cases s.frozen <;> rfl

theorem call_pinned (ctx : RequestContext) {α : Type} (h : Handler υ α) :
    Commutes (Server.pinned ctx) (call h) := fun _ => rfl

theorem lookup_pinned {α β : Type} (entries : List (String × α)) (f : String × α → β)
    (g : α → β) (same : ∀ key a, f (key, a) = g a) (key : String) :
    (entries.map fun entry => (entry.1, f entry)).lookup key = (entries.lookup key).map g := by
  induction entries with
  | nil => rfl
  | cons entry rest ih =>
    obtain ⟨own, a⟩ := entry
    by_cases hit : key = own
    · subst hit
      simp [same]
    · have miss : (key == own) = false := by simpa using hit
      simp only [List.map_cons, List.lookup_cons, miss]
      exact ih

theorem handleToolsCall_pinned (id : RequestId) (params : Json) (sessionId : SessionId) :
    Commutes (Server.pinned ⟨id, requestProgressToken id params, sessionId⟩)
      (handleToolsCall id params sessionId : ServerM υ Json) := by
  unfold handleToolsCall
  split
  · exact commutes_pure _ _
  · rename_i name _
    refine commutes_get (fun s => ?_) fun s => ?_
    · rw [pinned_handlers]
      unfold Registry.pinned
      simp only
      rw [lookup_pinned s.handlers.tools _ (fun entry => (entry.1, fun arguments _ =>
        entry.2 arguments ⟨id, requestProgressToken id params, sessionId⟩)) fun _ _ => rfl]
      cases s.handlers.tools.lookup name <;> rfl
    · split
      · exact commutes_pure _ _
      · apply commutes_ite (commutes_pure _ _)
        exact commutes_bind (call_pinned _ _) fun result => commutes_pure _ _

theorem findTemplate_pinned (ctx : RequestContext) (registry : Registry υ) (uri : String) :
    findTemplate (registry.pinned ctx) uri = (findTemplate registry uri).map fun found =>
      (found.1, fun uri captured _ => found.2 uri captured ctx) := by
  unfold findTemplate Registry.pinned
  simp only
  induction registry.resourceTemplates with
  | nil => rfl
  | cons entry rest ih =>
    simp only [List.map_cons, List.findSome?_cons]
    cases matchTemplate entry.1.toUTF8.toList uri.toUTF8.toList with
    | none => exact ih
    | some captured => rfl

theorem handleResourcesRead_pinned (id : RequestId) (params : Json) (sessionId : SessionId) :
    Commutes (Server.pinned ⟨id, id, sessionId⟩)
      (handleResourcesRead id params sessionId : ServerM υ Json) := by
  unfold handleResourcesRead
  split
  · exact commutes_pure _ _
  · rename_i uri _
    refine commutes_get (fun s => ?_) fun s => ?_
    · have found := lookup_pinned s.handlers.resources
        (fun entry => (entry.2.1, fun uri (_ : RequestContext) =>
          entry.2.2 uri ⟨id, id, sessionId⟩))
        (fun entry => (entry.1, fun uri _ => entry.2 uri ⟨id, id, sessionId⟩))
        (fun _ _ => rfl) uri
      rw [pinned_handlers]
      dsimp only
      rw [findTemplate_pinned]
      unfold Registry.pinned
      simp only
      rw [found]
      cases s.handlers.resources.lookup uri with
      | some entry => rfl
      | none => cases findTemplate s.handlers uri <;> rfl
    · dsimp only
      split
      · exact commutes_bind (call_pinned _ _) fun result => commutes_pure _ _
      · split
        · exact commutes_bind (call_pinned _ _) fun result => commutes_pure _ _
        · exact commutes_pure _ _

theorem handlePromptsGet_pinned (id : RequestId) (params : Json) (sessionId : SessionId) :
    Commutes (Server.pinned ⟨id, id, sessionId⟩)
      (handlePromptsGet id params sessionId : ServerM υ Json) := by
  unfold handlePromptsGet
  split
  · exact commutes_pure _ _
  · rename_i name _
    refine commutes_get (fun s => ?_) fun s => ?_
    · rw [pinned_handlers]
      unfold Registry.pinned
      simp only
      rw [lookup_pinned s.handlers.prompts _ (fun entry => (entry.1, fun name arguments _ =>
        entry.2 name arguments ⟨id, id, sessionId⟩)) fun _ _ => rfl]
      cases s.handlers.prompts.lookup name <;> rfl
    · split
      · exact commutes_pure _ _
      · dsimp only
        split
        · exact commutes_pure _ _
        · exact commutes_bind (call_pinned _ _) fun result => commutes_pure _ _

/-- Whatever its handler is, a request of the three methods is served as if that handler was
    given `requestContext`. -/
theorem processRequest_pinned (info : ServerInfo) {req : JsonRpcRequest}
    (carries : isDeferrable req.method = true) (sessionId : SessionId) (s : Server υ) :
    processRequest info req sessionId (s.pinned (requestContext req sessionId)) =
      ((processRequest info req sessionId s).1,
        (processRequest info req sessionId s).2.pinned (requestContext req sessionId)) := by
  have served : Commutes (Server.pinned (requestContext req sessionId))
      (serveMethod info req (req.params.getD (.object [])) sessionId : ServerM υ Json) := by
    unfold serveMethod requestContext
    simp only [isDeferrable, Bool.or_eq_true, beq_iff_eq] at carries
    rcases carries with (call | read) | get
    · rw [call]
      exact handleToolsCall_pinned _ _ _
    · rw [read]
      exact handleResourcesRead_pinned _ _ _
    · rw [get]
      exact handlePromptsGet_pinned _ _ _
  have dispatched : Commutes (Server.pinned (requestContext req sessionId))
      (dispatchMethod info req sessionId : ServerM υ Json) := by
    unfold dispatchMethod
    have other : req.method ≠ Protocol.methodInitialize ∧ req.method ≠ Protocol.methodPing := by
      simp only [isDeferrable, Bool.or_eq_true, beq_iff_eq] at carries
      rcases carries with (same | same) | same
      all_goals
        rw [same]
        decide
    rw [if_neg other.1, if_neg other.2]
    exact commutes_get (fun s => rfl) fun s => commutes_ite served (commutes_pure _ _)
  unfold processRequest
  rw [dispatched s]
  cases (dispatchMethod info req sessionId).run.run s with
  | mk outcome after =>
    cases outcome with
    | ok response => rfl
    | error e => cases e <;> rfl

end CppMcp
