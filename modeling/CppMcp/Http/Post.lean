import CppMcp.Http.Transport
import CppMcp.Server.Discipline

namespace CppMcp

variable {ω υ : Type}

/-- How many responses a handler gives, now and later. -/
def HandlerRun.calls (outcome : HandlerRun) : Nat := outcome.emitted.length + outcome.deferred

/-- What a transport may rely on of `McpServer::on_message`: a request it does not throw on is
    answered once, and only a request or a message in error is answered. -/
structure BehavesLikeOnMessage (handler : MessageHandler ω) : Prop where
  request : ∀ world message id req, parseMessage message = .request req →
    (handler world message id false).2.threw = none → (handler world message id false).2.calls = 1
  notification : ∀ world message id notif, parseMessage message = .notification notif →
    (handler world message id false).2.calls = 0
  success : ∀ world message id resp, parseMessage message = .success resp →
    (handler world message id false).2.calls = 0

/-- The server as the message handler of a transport. -/
def serverHandler (info : ServerInfo) : MessageHandler (Server υ) := fun s message id batch =>
  let served := s.onMessage info message id batch
  (served, { emitted := (served.answers.drop s.answers.length).map Prod.snd
             deferred := served.jobs.length - s.jobs.length })

theorem serverHandler_calls (info : ServerInfo) (s : Server υ) (message : Json) (id : SessionId)
    (batch : Bool) : (serverHandler info s message id batch).2.calls =
      (s.onMessage info message id batch).answers.length - s.answers.length +
        ((s.onMessage info message id batch).jobs.length - s.jobs.length) := by
  simp [serverHandler, HandlerRun.calls]

theorem onMessage_request_calls (info : ServerInfo) (s : Server υ) {message : Json}
    (id : SessionId) {req : JsonRpcRequest} (parsed : parseMessage message = .request req) :
    (serverHandler info s message id false).2.calls = 1 := by
  rw [serverHandler_calls]
  simp only [Server.onMessage, parsed]
  split
  · simp [Server.arrived]
  · obtain ⟨-, serving⟩ := processRequest_spec info req id (s.arrived message)
    have answers : (processRequest info req id (s.arrived message)).2.answers = s.answers :=
      serving.answers
    have jobs : (processRequest info req id (s.arrived message)).2.jobs = s.jobs := serving.jobs
    simp [Server.respond, answers, jobs]

theorem processNotification_queues (s : Server υ) (notif : JsonRpcNotification) :
    (s.processNotification notif).jobs = s.jobs ∧
      (s.processNotification notif).answers = s.answers := by
  unfold Server.processNotification
  split
  · exact ⟨rfl, rfl⟩
  · split <;> exact ⟨rfl, rfl⟩

theorem onClientResponse_queues (s : Server υ) (resp : JsonRpcSuccessResponse) :
    (s.onClientResponse resp).jobs = s.jobs ∧ (s.onClientResponse resp).answers = s.answers := by
  unfold Server.onClientResponse
  split
  · obtain ⟨-, jobs, -, answers⟩ := completeServerRequest_queues s _ true resp.result
    exact ⟨jobs, answers⟩
  · exact ⟨rfl, rfl⟩

/-- The server keeps what the transport relies on. -/
theorem server_behavesLikeOnMessage (info : ServerInfo) :
    BehavesLikeOnMessage (@serverHandler υ info) where
  request s message id req parsed _ := onMessage_request_calls info s id parsed
  notification s message id notif parsed := by
    obtain ⟨jobs, answers⟩ := processNotification_queues (s.arrived message) notif
    rw [serverHandler_calls]
    simp only [Server.onMessage, parsed, jobs, answers]
    simp [Server.arrived]
  success s message id resp parsed := by
    obtain ⟨jobs, answers⟩ := onClientResponse_queues (s.arrived message) resp
    rw [serverHandler_calls]
    simp only [Server.onMessage, parsed, jobs, answers]
    simp [Server.arrived]

namespace HttpEnv

variable (env : HttpEnv ω)

/-- What parsing the body of a POST gives, when the tests before it pass. -/
def postBody (req : HttpRequest) : Option ParseOutcome :=
  if env.guarded req = none ∧ (req.headers.valueOf "content-type").has "application/json" = true ∧
      acceptsJsonOrStream (req.headers.valueOf "accept") = true then
    some (env.parse req.body)
  else none

/-- A POST that reaches the message handler, with the session it runs under. -/
def Dispatches (t : HttpTransport ω) (newId : SessionId) (req : HttpRequest)
    (resolved : HttpTransport ω) (message : Json) (id : SessionId) : Prop :=
  env.postBody req = some (.value message) ∧ message.isArray = false ∧
    (∀ resp, parseMessage message ≠ .error resp) ∧
    env.resolveSession t newId (parseMessage message) (req.headers.valueOf "mcp-session-id") =
      .ok (resolved, id)

/-- The POSTs that are never answered. -/
inductive Unanswered (handler : MessageHandler ω) (t : HttpTransport ω) (newId : SessionId)
    (req : HttpRequest) : Prop where
  | overflow (body : env.postBody req = some .outOfRange)
  | response {resolved message id} (dispatches : env.Dispatches t newId req resolved message id)
      (resp : JsonRpcSuccessResponse) (parsed : parseMessage message = .success resp)
  | throws {resolved message id} (dispatches : env.Dispatches t newId req resolved message id)
      (threw : (handler resolved.world message id false).2.threw ≠ none)
      (silent : (handler resolved.world message id false).2.calls = 0)

/-- The HTTP response that the first of some sink calls makes. -/
def firstResponse (id : SessionId) (calls : List Json) : List HttpWrite :=
  (calls.head?.map fun resp =>
    .response (env.jsonResponse 200 resp (sessionHeader id))).toList

theorem sink_framed (calls : List Json) {h : Handled ω} {body : Json}
    (framed : h.firstBody = some body) : (calls.foldl env.sink h).written = h.written := by
  induction calls generalizing h with
  | nil => rfl
  | cons resp calls ih =>
    rw [List.foldl_cons]
    have kept : (env.sink h resp).written = h.written := by
      unfold sink
      split <;> simp_all
    have framed' : (env.sink h resp).firstBody = some body := by
      unfold sink
      split <;> simp_all
    rw [ih framed', kept]

theorem sink_written (calls : List Json) {h : Handled ω} {id : SessionId}
    (owner : h.sinkSession = some id) (fresh : h.firstBody = none) :
    (calls.foldl env.sink h).written = h.written ++ env.firstResponse id calls := by
  cases calls with
  | nil => simp [firstResponse]
  | cons resp calls =>
    have framed : (env.sink h resp).firstBody = some resp := by simp [sink, owner, fresh]
    rw [List.foldl_cons, env.sink_framed calls framed]
    simp [sink, owner, fresh, firstResponse, Handled.write]

theorem sink_unowned (calls : List Json) {h : Handled ω} (owner : h.sinkSession = none) :
    (calls.foldl env.sink h).written = h.written := by
  induction calls generalizing h with
  | nil => rfl
  | cons resp calls ih =>
    rw [List.foldl_cons]
    have unowned : (env.sink h resp).sinkSession = none := by simp [sink, owner]
    rw [ih unowned]
    simp [sink, owner]

theorem finish_reply (t : HttpTransport ω) (r : HttpResponse) (later : List Json) :
    (env.finish (reply t r) later).written = [.response r] := env.sink_unowned later rfl

theorem sink_kept (calls : List Json) {h : Handled ω} {id : SessionId}
    (owner : h.sinkSession = some id) (fresh : h.firstBody = none) :
    (calls.foldl env.sink h).sinkSession = some id ∧
      (calls.foldl env.sink h).firstBody = calls.head? := by
  have framed (calls : List Json) : ∀ {h : Handled ω} {body : Json}, h.sinkSession = some id →
      h.firstBody = some body → (calls.foldl env.sink h).sinkSession = some id ∧
        (calls.foldl env.sink h).firstBody = some body := by
    induction calls with
    | nil => exact fun owner framed => ⟨owner, framed⟩
    | cons resp calls ih =>
      intro h body owner framed
      exact ih (by simp [sink, owner, framed]) (by simp [sink, owner, framed])
  cases calls with
  | nil => exact ⟨owner, fresh⟩
  | cons resp calls =>
    exact framed calls (by simp [sink, owner, fresh, Handled.write]) (by simp [sink, owner, fresh])

theorem sink_deferred (calls : List Json) (h : Handled ω) :
    (calls.foldl env.sink h).deferred = h.deferred := by
  induction calls generalizing h with
  | nil => rfl
  | cons resp calls ih =>
    rw [List.foldl_cons, ih]
    unfold sink
    split <;> rfl

theorem commitSession_kept (h : Handled ω) (id : SessionId) (ok : Bool) :
    (commitSession h id ok).written = h.written ∧
      (commitSession h id ok).sinkSession = h.sinkSession ∧
      (commitSession h id ok).firstBody = h.firstBody ∧
      (commitSession h id ok).deferred = h.deferred := by
  simp only [commitSession]
  split
  · split <;> exact ⟨rfl, rfl, rfl, rfl⟩
  · exact ⟨rfl, rfl, rfl, rfl⟩

theorem callHandler_fields (handler : MessageHandler ω) (t : HttpTransport ω) (message : Json)
    (parsed : ParsedMessage) (id : SessionId) :
    (env.callHandler handler t message parsed id).1.written =
        env.firstResponse id (handler t.world message id false).2.emitted ∧
      (env.callHandler handler t message parsed id).1.sinkSession = some id ∧
      (env.callHandler handler t message parsed id).1.firstBody =
        (handler t.world message id false).2.emitted.head? ∧
      (env.callHandler handler t message parsed id).1.deferred =
        (handler t.world message id false).2.deferred := by
  let outcome := (handler t.world message id false).2
  let start : Handled ω :=
    { transport := { t with world := (handler t.world message id false).1 }
      sinkSession := some id, deferred := outcome.deferred }
  obtain ⟨owner, body⟩ := env.sink_kept outcome.emitted (h := start) rfl rfl
  have written := env.sink_written outcome.emitted (h := start) rfl rfl
  have deferred := env.sink_deferred outcome.emitted start
  dsimp only [callHandler]
  split
  · obtain ⟨keepsWritten, keepsOwner, keepsBody, keepsDeferred⟩ :=
      commitSession_kept (outcome.emitted.foldl env.sink start) id outcome.threw.isNone
    exact ⟨keepsWritten.trans written, keepsOwner.trans owner, keepsBody.trans body,
      keepsDeferred.trans deferred⟩
  · exact ⟨written, owner, body, deferred⟩

theorem callHandler_returned (handler : MessageHandler ω) (t : HttpTransport ω) (message : Json)
    (parsed : ParsedMessage) (id : SessionId) :
    (env.callHandler handler t message parsed id).2 =
      (handler t.world message id false).2.threw.isNone := rfl

/-- What a handled message that is no notification writes in the end. -/
theorem finish_deliver (handler : MessageHandler ω) (t : HttpTransport ω) (message : Json)
    {parsed : ParsedMessage} (id : SessionId) (later : List Json)
    (answerable : parsed.isNotification = false) :
    (env.finish (env.deliver handler t message parsed id) later).written =
      env.firstResponse id ((handler t.world message id false).2.emitted ++ later) := by
  obtain ⟨written, owner, body, -⟩ := env.callHandler_fields handler t message parsed id
  simp only [deliver, answerable, Bool.and_false, Bool.false_eq_true, if_false]
  unfold finish
  cases emitted : (handler t.world message id false).2.emitted with
  | nil =>
    rw [emitted] at written body
    rw [env.sink_written later owner body, written]
    simp [firstResponse]
  | cons first rest =>
    rw [emitted] at written body
    rw [env.sink_framed later body, written]
    simp [firstResponse]

/-- A notification whose handler stays silent is acknowledged unless the handler threw. -/
theorem finish_acknowledged (handler : MessageHandler ω) (t : HttpTransport ω) (message : Json)
    {parsed : ParsedMessage} (id : SessionId) (notification : parsed.isNotification = true)
    (silent : (handler t.world message id false).2.emitted = []) :
    (env.finish (env.deliver handler t message parsed id) []).written =
      if (handler t.world message id false).2.threw.isNone then
        [.response ⟨202, textPlain, [], sessionHeader id⟩] else [] := by
  obtain ⟨written, -⟩ := env.callHandler_fields handler t message parsed id
  rw [silent] at written
  simp only [deliver, notification, Bool.and_true, callHandler_returned, finish, List.foldl_nil]
  split <;> simp [Handled.write, written, firstResponse]

theorem Dispatches.unique {env : HttpEnv ω} {t : HttpTransport ω} {newId : SessionId}
    {req : HttpRequest} {resolved resolved' : HttpTransport ω} {message message' : Json}
    {id id' : SessionId} (left : env.Dispatches t newId req resolved message id)
    (right : env.Dispatches t newId req resolved' message' id') :
    resolved = resolved' ∧ message = message' ∧ id = id' := by
  obtain ⟨body, -, -, session⟩ := left
  obtain ⟨body', -, -, session'⟩ := right
  rw [body] at body'
  cases body'
  rw [session] at session'
  cases session'
  exact ⟨rfl, rfl, rfl⟩

inductive PostOutcome (handler : MessageHandler ω) (t : HttpTransport ω) (newId : SessionId)
    (req : HttpRequest) (h : Handled ω) : Prop where
  | replied (r : HttpResponse) (written : ∀ later, (env.finish h later).written = [.response r])
      (fits : env.postBody req ≠ some .outOfRange)
      (stays : ∀ resolved message id, ¬ env.Dispatches t newId req resolved message id)
  | overflowed (body : env.postBody req = some .outOfRange)
      (written : ∀ later, (env.finish h later).written = [])
  | dispatched {resolved message id} (dispatches : env.Dispatches t newId req resolved message id)
      (delivers : h = env.deliver handler resolved message (parseMessage message) id)

theorem batch_replies (t : HttpTransport ω) (batch : List Json) (reqId : SessionId) :
    ∃ t' r, env.handlePostBatch t batch reqId = reply t' r := by
  unfold handlePostBatch
  split
  · exact ⟨_, _, rfl⟩
  · split
    · exact ⟨_, _, rfl⟩
    · split
      · exact ⟨_, _, rfl⟩
      · split <;> exact ⟨_, _, rfl⟩

theorem handlePost_message {t : HttpTransport ω} {newId : SessionId} {req : HttpRequest}
    {message : Json} (single : message.isArray = false)
    (json : (req.headers.valueOf "content-type").has "application/json" = true)
    (accepted : acceptsJsonOrStream (req.headers.valueOf "accept") = true)
    (body : env.parse req.body = .value message) : env.handlePost t newId req =
      env.postMessage t newId message (req.headers.valueOf "mcp-session-id") := by
  unfold handlePost
  rw [json, accepted, body]
  cases message <;> first | rfl | simp [Json.isArray] at single

theorem not_dispatches_error {t : HttpTransport ω} {newId : SessionId} {req : HttpRequest}
    {message : Json} (body : env.postBody req = some (.value message))
    {resp : JsonRpcErrorResponse} (parsed : parseMessage message = .error resp)
    (resolved : HttpTransport ω) (other : Json) (id : SessionId) :
    ¬ env.Dispatches t newId req resolved other id := by
  rintro ⟨body', -, valid, -⟩
  rw [body] at body'
  cases body'
  exact valid resp parsed

/-- A message that parses is handled in its session, if it has one. -/
theorem postMessage_valid {handler : MessageHandler ω}
    (installed : env.messageHandler = some handler) (t : HttpTransport ω) (newId : SessionId)
    {message : Json} (valid : ∀ resp, parseMessage message ≠ .error resp) (reqId : SessionId) :
    env.postMessage t newId message reqId =
      match env.resolveSession t newId (parseMessage message) reqId with
      | .error r => reply t r
      | .ok (resolved, id) => env.deliver handler resolved message (parseMessage message) id := by
  unfold postMessage
  cases parsed : parseMessage message with
  | error resp => exact absurd parsed (valid resp)
  | _ =>
    cases env
    cases installed
    rfl

/-- Without a handler a session that was made for the message goes again. -/
theorem postMessage_missing (missing : env.messageHandler = none) {t : HttpTransport ω}
    {newId : SessionId} {message : Json} (valid : ∀ resp, parseMessage message ≠ .error resp)
    (reqId : SessionId) :
    env.postMessage t newId message reqId =
      match env.resolveSession t newId (parseMessage message) reqId with
      | .error r => reply t r
      | .ok (resolved, id) =>
        reply { resolved with
            sessions := if (parseMessage message).isInitialize then resolved.sessions.erase id
              else resolved.sessions }
          (textResponse 500 "No handler configured") := by
  unfold postMessage
  cases parsed : parseMessage message with
  | error resp => exact absurd parsed (valid resp)
  | _ =>
    cases env
    cases missing
    rfl

/-- What becomes of a single message. -/
inductive MessagePost (t : HttpTransport ω) (newId : SessionId) (message : Json) (reqId : SessionId)
    (h : Handled ω) : Prop where
  | rejected (resp : JsonRpcErrorResponse) (parsed : parseMessage message = .error resp)
      (replies : h = reply t (env.jsonResponse 200 (makeErrorResponse resp.id resp.error.code
        resp.error.message resp.error.data) (sessionHeader reqId)))
  | refused (valid : ∀ resp, parseMessage message ≠ .error resp) (r : HttpResponse)
      (session : env.resolveSession t newId (parseMessage message) reqId = .error r)
      (replies : h = reply t r)
  | unhandled (valid : ∀ resp, parseMessage message ≠ .error resp)
      (missing : env.messageHandler = none) (resolved : HttpTransport ω) (id : SessionId)
      (session : env.resolveSession t newId (parseMessage message) reqId = .ok (resolved, id))
      (replies : h = reply { resolved with
          sessions := if (parseMessage message).isInitialize then resolved.sessions.erase id
            else resolved.sessions }
        (textResponse 500 "No handler configured"))
  | delivered (valid : ∀ resp, parseMessage message ≠ .error resp) (handler : MessageHandler ω)
      (installed : env.messageHandler = some handler) (resolved : HttpTransport ω) (id : SessionId)
      (session : env.resolveSession t newId (parseMessage message) reqId = .ok (resolved, id))
      (delivers : h = env.deliver handler resolved message (parseMessage message) id)

theorem postMessage_cases (t : HttpTransport ω) (newId : SessionId) (message : Json)
    (reqId : SessionId) :
    env.MessagePost t newId message reqId (env.postMessage t newId message reqId) := by
  by_cases valid : ∀ resp, parseMessage message ≠ .error resp
  · cases session : env.resolveSession t newId (parseMessage message) reqId with
    | error r =>
      refine .refused valid r session ?_
      cases installed : env.messageHandler with
      | none => rw [env.postMessage_missing installed valid, session]
      | some handler => rw [env.postMessage_valid installed t newId valid, session]
    | ok found =>
      cases installed : env.messageHandler with
      | none =>
        refine .unhandled valid installed found.1 found.2 session ?_
        rw [env.postMessage_missing installed valid, session]
      | some handler =>
        refine .delivered valid handler installed found.1 found.2 session ?_
        rw [env.postMessage_valid installed t newId valid, session]
  · obtain ⟨resp, parsed⟩ : ∃ resp, parseMessage message = .error resp := by simpa using valid
    refine .rejected resp parsed ?_
    unfold postMessage
    rw [parsed]

theorem postMessage_outcome {handler : MessageHandler ω}
    (installed : env.messageHandler = some handler) (t : HttpTransport ω) (newId : SessionId)
    {req : HttpRequest} {message : Json} (single : message.isArray = false)
    (body : env.postBody req = some (.value message)) :
    env.PostOutcome handler t newId req
      (env.postMessage t newId message (req.headers.valueOf "mcp-session-id")) := by
  cases env.postMessage_cases t newId message (req.headers.valueOf "mcp-session-id") with
  | rejected resp parsed replies =>
    rw [replies]
    exact .replied _ (env.finish_reply t _) (by simp [body]) (env.not_dispatches_error body parsed)
  | refused valid r session replies =>
    rw [replies]
    refine .replied r (env.finish_reply t r) (by simp [body]) ?_
    rintro resolved other id ⟨body', -, -, session'⟩
    rw [body] at body'
    cases body'
    rw [session] at session'
    cases session'
  | unhandled valid missing resolved id session replies =>
    rw [installed] at missing
    cases missing
  | delivered valid handler' installed' resolved id session delivers =>
    rw [installed] at installed'
    cases installed'
    exact .dispatched ⟨body, single, valid, session⟩ delivers

/-- A POST that is refused before its body is parsed. -/
theorem refused_outcome {handler : MessageHandler ω} {t : HttpTransport ω} {newId : SessionId}
    {req : HttpRequest} {h : Handled ω} (body : env.postBody req = none) (r : HttpResponse)
    (written : ∀ later, (env.finish h later).written = [.response r]) :
    env.PostOutcome handler t newId req h := by
  refine .replied r written (by simp [body]) ?_
  rintro resolved message id ⟨body', -⟩
  rw [body] at body'
  cases body'

/-- What becomes of a POST that the guards let through, by what is read of its body. -/
inductive PostRead (t : HttpTransport ω) (newId : SessionId) (req : HttpRequest) (h : Handled ω) :
    Prop where
  | refused (r : HttpResponse) (bare : r.extraHeaders = []) (replies : h = reply t r)
      (unread : ∀ message, env.postBody req ≠ some (.value message))
      (fits : env.postBody req ≠ some .outOfRange)
  | overflow (body : env.postBody req = some .outOfRange)
      (throws : h = { transport := t, threw := true })
  | batch (messages : List Json) (body : env.postBody req = some (.value (.array messages)))
      (handles : h = env.handlePostBatch t messages (req.headers.valueOf "mcp-session-id"))
  | message (message : Json) (single : message.isArray = false)
      (body : env.postBody req = some (.value message))
      (handles : h = env.postMessage t newId message (req.headers.valueOf "mcp-session-id"))

theorem handlePost_read (t : HttpTransport ω) (newId : SessionId) {req : HttpRequest}
    (allowed : env.guarded req = none) :
    env.PostRead t newId req (env.handlePost t newId req) := by
  by_cases json : (req.headers.valueOf "content-type").has "application/json" = true
  · by_cases accepted : acceptsJsonOrStream (req.headers.valueOf "accept") = true
    · have body : env.postBody req = some (env.parse req.body) := if_pos ⟨allowed, json, accepted⟩
      cases parsed : env.parse req.body with
      | outOfRange =>
        refine .overflow (by rw [body, parsed]) ?_
        unfold handlePost
        rw [json, accepted, parsed]
        rfl
      | parseError =>
        rw [parsed] at body
        refine .refused (env.jsonResponse 400 (makeErrorResponseNullId Protocol.parseError
          "Parse error")) rfl ?_ (by simp [body]) (by simp [body])
        unfold handlePost
        rw [json, accepted, parsed]
        rfl
      | value message =>
        rw [parsed] at body
        cases single : message.isArray with
        | false =>
          exact .message message single body (env.handlePost_message single json accepted parsed)
        | true =>
          cases message with
          | array messages =>
            refine .batch messages body ?_
            unfold handlePost
            rw [json, accepted, parsed]
            rfl
          | _ => cases single
    · have unread : env.postBody req = none := if_neg fun tests => accepted tests.2.2
      refine .refused (textResponse 406
        "Accept header must include application/json or text/event-stream") rfl ?_
        (by simp [unread]) (by simp [unread])
      unfold handlePost
      rw [json, Bool.eq_false_iff.mpr accepted]
      rfl
  · have unread : env.postBody req = none := if_neg fun tests => json tests.2.1
    refine .refused (textResponse 400 "Content-Type must be application/json") rfl ?_
      (by simp [unread]) (by simp [unread])
    unfold handlePost
    rw [Bool.eq_false_iff.mpr json]
    rfl

theorem handlePost_outcome {handler : MessageHandler ω}
    (installed : env.messageHandler = some handler) (t : HttpTransport ω) (newId : SessionId)
    {req : HttpRequest} (allowed : env.guarded req = none) :
    env.PostOutcome handler t newId req (env.handlePost t newId req) := by
  cases env.handlePost_read t newId allowed with
  | refused r bare replies unread fits =>
    rw [replies]
    refine .replied r (env.finish_reply t r) fits ?_
    rintro resolved message id ⟨body, -⟩
    exact unread message body
  | overflow body throws =>
    rw [throws]
    exact .overflowed body fun later => env.sink_unowned later rfl
  | batch messages body handles =>
    obtain ⟨t', r, replies⟩ := env.batch_replies t messages (req.headers.valueOf "mcp-session-id")
    rw [handles, replies]
    refine .replied r (env.finish_reply t' r) (by simp [body]) ?_
    rintro resolved message id ⟨body', single, -⟩
    rw [body] at body'
    cases body'
    cases single
  | message message single body handles =>
    rw [handles]
    exact env.postMessage_outcome installed t newId single body

theorem post_outcome {handler : MessageHandler ω} (installed : env.messageHandler = some handler)
    (streamable : env.config.mode = .streamableHttp) (t : HttpTransport ω) (conn : Nat)
    (newId : SessionId) {req : HttpRequest} (post : req.method = ascii "POST")
    (path : pathOnly req.url = env.config.path) :
    env.PostOutcome handler t newId req (env.handleRequest t conn newId req) := by
  have preflight : req.method ≠ ascii "OPTIONS" := by rw [post]; decide
  unfold handleRequest
  cases allowed : env.guarded req with
  | some why =>
    exact env.refused_outcome (by simp [postBody, allowed]) (textResponse 403 why)
      fun later => env.sink_unowned later rfl
  | none =>
    simp only [if_neg preflight, streamable, if_pos (And.intro path post)]
    exact env.handlePost_outcome installed t newId allowed

theorem deliver_deferred (handler : MessageHandler ω) (t : HttpTransport ω) (message : Json)
    (parsed : ParsedMessage) (id : SessionId) :
    (env.deliver handler t message parsed id).deferred =
      (handler t.world message id false).2.deferred := by
  obtain ⟨-, -, -, deferred⟩ := env.callHandler_fields handler t message parsed id
  dsimp only [deliver]
  split <;> exact deferred

theorem Dispatches.unanswered_iff {env : HttpEnv ω} {handler : MessageHandler ω}
    {t : HttpTransport ω} {newId : SessionId} {req : HttpRequest} {resolved : HttpTransport ω}
    {message : Json} {id : SessionId} (dispatches : env.Dispatches t newId req resolved message id) :
    env.Unanswered handler t newId req ↔ (∃ resp, parseMessage message = .success resp) ∨
      (handler resolved.world message id false).2.threw ≠ none ∧
        (handler resolved.world message id false).2.calls = 0 := by
  constructor
  · rintro (body | ⟨other, resp, parsed⟩ | ⟨other, threw, silent⟩)
    · rw [dispatches.1] at body
      cases body
    · obtain ⟨rfl, rfl, rfl⟩ := dispatches.unique other
      exact .inl ⟨resp, parsed⟩
    · obtain ⟨rfl, rfl, rfl⟩ := dispatches.unique other
      exact .inr ⟨threw, silent⟩
  · rintro (⟨resp, parsed⟩ | ⟨threw, silent⟩)
    · exact .response dispatches resp parsed
    · exact .throws dispatches threw silent

theorem firstResponse_single_iff (id : SessionId) (calls : List Json) :
    (∃ r, env.firstResponse id calls = [.response r]) ↔ calls.length ≠ 0 := by
  cases calls <;> simp [firstResponse]

/-- Once its deferred work is done, a POST has got exactly one response, unless it is one of
    those that are never answered. -/
theorem post_answered_once_iff {handler : MessageHandler ω}
    (installed : env.messageHandler = some handler) (behaves : BehavesLikeOnMessage handler)
    (streamable : env.config.mode = .streamableHttp) (t : HttpTransport ω) (conn : Nat)
    (newId : SessionId) (req : HttpRequest) (post : req.method = ascii "POST")
    (path : pathOnly req.url = env.config.path) (later : List Json)
    (completed : later.length = (env.handleRequest t conn newId req).deferred) :
    (∃ r, (env.finish (env.handleRequest t conn newId req) later).written = [.response r]) ↔
      ¬ env.Unanswered handler t newId req := by
  cases env.post_outcome installed streamable t conn newId post path with
  | replied r written fits stays =>
    apply iff_of_true ⟨r, written later⟩
    rintro (body | ⟨dispatches, -, -⟩ | ⟨dispatches, -, -⟩)
    · exact fits body
    · exact stays _ _ _ dispatches
    · exact stays _ _ _ dispatches
  | overflowed body written =>
    exact iff_of_false (by simp [written later]) (not_not_intro (.overflow body))
  | @dispatched resolved message id dispatches delivers =>
    rw [delivers, deliver_deferred] at completed
    rw [delivers, dispatches.unanswered_iff]
    let outcome := (handler resolved.world message id false).2
    have total : (outcome.emitted ++ later).length = outcome.calls := by
      simp [HandlerRun.calls, completed, outcome]
    cases parsed : parseMessage message with
    | request req =>
      rw [env.finish_deliver handler resolved message id later rfl,
        env.firstResponse_single_iff, total]
      have once := behaves.request resolved.world message id req parsed
      constructor
      · rintro answered (⟨resp, other⟩ | ⟨-, silent⟩)
        · cases other
        · exact answered silent
      · intro answers silent
        refine answers (.inr ⟨fun returned => ?_, silent⟩)
        rw [once returned] at silent
        cases silent
    | notification notif =>
      have silent := behaves.notification resolved.world message id notif parsed
      have none : outcome.emitted = [] ∧ later = [] := by
        rw [← List.append_eq_nil_iff, ← List.length_eq_zero_iff, total]
        exact silent
      rw [none.2, env.finish_acknowledged handler resolved message id rfl none.1]
      cases threw : (handler resolved.world message id false).2.threw with
      | none => simp
      | some thrown => simp [silent]
    | success resp =>
      have silent := behaves.success resolved.world message id resp parsed
      rw [env.finish_deliver handler resolved message id later rfl,
        env.firstResponse_single_iff, total]
      exact iff_of_false (not_not_intro silent) (by simp)
    | error resp => exact absurd parsed (dispatches.2.2.1 resp)

end HttpEnv

/-- A POST in session `s` to a server on the default address. -/
def postOf (body : Bytes) : HttpRequest where
  method := ascii "POST"
  url := ascii "/mcp"
  headers := [(ascii "content-type", ascii "application/json"), (ascii "host", ascii "127.0.0.1"),
    (ascii "mcp-session-id", ascii "s")]
  body := body

def answerText : Bytes := ascii "\x7b\"id\":1,\"jsonrpc\":\"2.0\",\"result\":\x7b\x7d\x7d"
def pingText : Bytes := ascii "\x7b\"id\":1,\"jsonrpc\":\"2.0\",\"method\":\"ping\"\x7d"

def answerOne : Json := makeSuccessResponse (.int 1) (.mk [])

/-- A transport in front of a server, with the two texts above. -/
def serverEnv : HttpEnv (Server Unit) where
  parse text :=
    if text = pingText then .value (serializeRequest ⟨.int 1, Protocol.methodPing, none⟩)
    else if text = answerText then .value answerOne
    else .parseError
  dump j := if j = answerOne then answerText else []
  messageHandler := some (serverHandler {})

def openTransport : HttpTransport (Server Unit) where
  world := Server.initial ()
  sessions := (∅ : AList fun _ : SessionId => HttpSession).insert (ascii "s") ⟨ascii "s", true, []⟩

theorem ping_answered_once :
    ¬ serverEnv.Unanswered (serverHandler {}) openTransport [] (postOf pingText) :=
  (serverEnv.post_answered_once_iff rfl (server_behavesLikeOnMessage {}) rfl openTransport 0 []
    (postOf pingText) rfl (by decide) [] (by decide)).mp
    ⟨⟨200, applicationJson, answerText, [(ascii "mcp-session-id", ascii "s")]⟩, by decide⟩

/-- The answer to a request of the server's own reaches the server and is not acknowledged. -/
theorem client_answer_unanswered :
    serverEnv.messageHandler = some (serverHandler {}) ∧
    BehavesLikeOnMessage (@serverHandler Unit {}) ∧
    serverEnv.config.mode = .streamableHttp ∧ (postOf answerText).method = ascii "POST" ∧
    HttpEnv.pathOnly (postOf answerText).url = serverEnv.config.path ∧
    (serverEnv.handleRequest openTransport 0 [] (postOf answerText)).deferred = 0 ∧
    (serverEnv.finish (serverEnv.handleRequest openTransport 0 [] (postOf answerText)) []).written =
      [] :=
  ⟨rfl, server_behavesLikeOnMessage {}, rfl, rfl, by decide, by decide, by decide⟩

end CppMcp
