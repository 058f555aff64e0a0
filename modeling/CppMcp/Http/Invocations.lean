import CppMcp.Http.Sessions

namespace CppMcp

open Lib

variable {ω : Type}

/-- A call of the message handler, with the sessions there are at that moment. -/
structure Invocation where
  sessions : AList (fun _ : SessionId => HttpSession)
  message : Json
  sessionId : SessionId
  batch : Bool

namespace HttpEnv

/-- The calls of the message handler that a request makes in streamable mode. -/
def invocations (env : HttpEnv ω) (t : HttpTransport ω) (newId : SessionId) (req : HttpRequest) :
    List Invocation :=
  if env.PostsTo req then
    match env.postBody req with
    | some (.value (.array messages)) =>
      match t.findSession req.sessionId with
      | some session =>
        if session.initialized then messages.map fun m => ⟨t.sessions, m, session.sessionId, true⟩
        else []
      | none => []
    | some (.value message) =>
      match parseMessage message with
      | .error _ => []
      | parsed =>
        match env.resolveSession t newId parsed req.sessionId with
        | .ok (resolved, id) => [⟨resolved.sessions, message, id, false⟩]
        | .error _ => []
    | _ => []
  else []

def invoke (handler : MessageHandler ω) (world : ω) (call : Invocation) : ω :=
  (handler world call.message call.sessionId call.batch).1

variable (env : HttpEnv ω)

theorem invocations_single {t : HttpTransport ω} {newId : SessionId} {req : HttpRequest}
    {message : Json} (post : env.PostsTo req) (body : env.postBody req = some (.value message))
    (single : message.isArray = false) (valid : ∀ resp, parseMessage message ≠ .error resp) :
    env.invocations t newId req =
      match env.resolveSession t newId (parseMessage message) req.sessionId with
      | .ok (resolved, id) => [⟨resolved.sessions, message, id, false⟩]
      | .error _ => [] := by
  have calls : env.invocations t newId req =
      match parseMessage message with
      | .error _ => []
      | parsed =>
        match env.resolveSession t newId parsed req.sessionId with
        | .ok (resolved, id) => [⟨resolved.sessions, message, id, false⟩]
        | .error _ => [] := by
    rw [invocations, if_pos post, body]
    cases message <;> first | rfl | cases single
  rw [calls]
  cases parsed : parseMessage message with
  | error resp => exact absurd parsed (valid resp)
  | _ => rfl

theorem invocations_error {t : HttpTransport ω} {newId : SessionId} {req : HttpRequest}
    {message : Json} (post : env.PostsTo req) (body : env.postBody req = some (.value message))
    (single : message.isArray = false) {resp : JsonRpcErrorResponse}
    (parsed : parseMessage message = .error resp) : env.invocations t newId req = [] := by
  rw [invocations, if_pos post, body]
  cases message with
  | array messages => cases single
  | _ => simp only [parsed]

theorem handlePostBatch_invokes {handler : MessageHandler ω}
    (installed : env.messageHandler = some handler) {t : HttpTransport ω} {newId : SessionId}
    {req : HttpRequest} {messages : List Json}
    (post : env.PostsTo req)
    (body : env.postBody req = some (.value (.array messages))) :
    (env.handlePostBatch t messages req.sessionId).transport.world =
      (env.invocations t newId req).foldl (invoke handler) t.world := by
  have calls : env.invocations t newId req =
      match t.findSession req.sessionId with
      | some session =>
        if session.initialized then messages.map fun m => ⟨t.sessions, m, session.sessionId, true⟩
        else []
      | none => [] := by
    rw [invocations, if_pos post, body]
  rw [calls]
  cases messages with
  | nil =>
    cases t.findSession req.sessionId with
    | none => rfl
    | some session =>
      dsimp only
      split <;> rfl
  | cons m messages =>
    cases named : req.sessionId with
    | nil => rfl
    | cons b rest =>
      cases found : t.findSession (b :: rest) with
      | none => simp only [handlePostBatch, found]; rfl
      | some session =>
        cases live : session.initialized with
        | false =>
          simp only [handlePostBatch, found, live]
          rfl
        | true =>
          simp only [handlePostBatch, found, live, if_true, List.foldl_map]
          exact env.batchElement_foldl installed session.sessionId (m :: messages) (t.world, [])

theorem postMessage_invokes {handler : MessageHandler ω}
    (installed : env.messageHandler = some handler) {t : HttpTransport ω} {newId : SessionId}
    {req : HttpRequest} {message : Json}
    (post : env.PostsTo req)
    (body : env.postBody req = some (.value message)) (single : message.isArray = false) :
    (env.postMessage t newId message req.sessionId).transport.world =
      (env.invocations t newId req).foldl (invoke handler) t.world := by
  cases env.postMessage_cases t newId message req.sessionId with
  | rejected resp parsed replies =>
    rw [replies, env.invocations_error post body single parsed]
    rfl
  | refused valid r session replies =>
    rw [replies, env.invocations_single post body single valid, session]
    rfl
  | unhandled valid missing resolved id session replies =>
    rw [installed] at missing
    cases missing
  | delivered valid handler' installed' resolved id session delivers =>
    rw [installed] at installed'
    cases installed'
    have world := (env.deliver_world handler resolved message (parseMessage message) id).1
    rw [env.resolveSession_world session] at world
    rw [delivers, env.invocations_single post body single valid, session]
    exact world

theorem handlePost_invokes {handler : MessageHandler ω}
    (installed : env.messageHandler = some handler) {t : HttpTransport ω} {newId : SessionId}
    {req : HttpRequest} (post : env.PostsTo req)
    (allowed : env.guarded req = none) : (env.handlePost t newId req).transport.world =
      (env.invocations t newId req).foldl (invoke handler) t.world := by
  cases env.handlePost_read t newId allowed with
  | refused r bare replies unread fits =>
    have none : env.invocations t newId req = [] := by
      rw [invocations, if_pos post]
      cases body : env.postBody req with
      | none => rfl
      | some outcome =>
        cases outcome with
        | value message => exact absurd body (unread message)
        | _ => rfl
    rw [replies, none]
    rfl
  | overflow body throws =>
    rw [throws, invocations, if_pos post, body]
    rfl
  | batch messages body handles =>
    rw [handles]
    exact env.handlePostBatch_invokes installed post body
  | message message single body handles =>
    rw [handles]
    exact env.postMessage_invokes installed post body single

/-- These are the calls that are made, whatever the message handler does. -/
theorem handleRequest_invokes {handler : MessageHandler ω}
    (installed : env.messageHandler = some handler) (streamable : env.config.mode = .streamableHttp)
    (t : HttpTransport ω) (conn : Nat) (newId : SessionId) (req : HttpRequest) :
    (env.handleRequest t conn newId req).transport.world =
      (env.invocations t newId req).foldl (invoke handler) t.world := by
  by_cases post : env.PostsTo req
  · have other : req.method ≠ ascii "OPTIONS" := by
      rw [post.1]
      decide
    have path := post.symm
    simp only [handleRequest, if_neg other, streamable, if_pos path]
    cases allowed : env.guarded req with
    | some why =>
      have none : env.postBody req = none := if_neg fun fine => by simp [allowed] at fine
      simp only [invocations, none]
      split <;> rfl
    | none => exact env.handlePost_invokes installed post allowed
  · have none : env.invocations t newId req = [] := if_neg post
    rw [none]
    cases env.handleRequest_handling streamable t conn newId req with
    | stays same => rw [same]; rfl
    | opens get found opened => rw [opened]; rfl
    | deletes delete named deleted => rw [deleted]; rfl
    | unhandled post' | batch post' | single post' => exact absurd post' post

end HttpEnv

end CppMcp
