import CppMcp.Http.Exchange
import CppMcp.Http.Failure

namespace CppMcp

open Lib

variable {ω υ : Type}

def HttpResponse.Plain (r : HttpResponse) : Prop :=
  r.contentType = applicationJson ∨ r.contentType = textPlain

/-- A response that the client takes for more than a failure. -/
def HttpResponse.accepted (r : HttpResponse) : Bool := r.status == 200 || r.status == 202

theorem not_eventStream {r : HttpResponse} (plain : r.Plain) :
    JsonCodec.isEventStream r.received.headers = false := by
  have value : Headers.valueOf r.received.headers "content-type" = r.contentType := by
    simp [HttpResponse.received, Headers.valueOf]
  unfold JsonCodec.isEventStream
  rw [value]
  rcases plain with json | text
  · rw [json]
    decide
  · rw [text]
    decide

theorem received_messages (codec : JsonCodec) {r : HttpResponse} (plain : r.Plain)
    {attached sseOpen : Bool} {m : Json}
    (member : m ∈ (codec.handleResponse attached sseOpen r.received).messages) :
    (∃ resp, parseMessageClient m = .error resp ∧ resp.id = .null) ∨
      r.accepted = true ∧ r.body ≠ [] ∧ codec.parse r.body = some m := by
  unfold JsonCodec.handleResponse at member
  by_cases fine : r.status = 200 ∨ r.status = 202
  · right
    have taken : r.received.status = 200 ∨ r.received.status = 202 := fine
    have same : r.received.body = r.body := rfl
    simp only [if_pos taken, not_eventStream plain, same] at member
    cases body : r.body with
    | nil => simp [body] at member
    | cons b rest =>
      cases parsed : codec.parse (b :: rest) with
      | none => simp [body, parsed] at member
      | some message =>
        cases attached with
        | false => simp [body, parsed] at member
        | true =>
          have only : m = message := by simpa [body, parsed] using member
          refine ⟨by simpa [HttpResponse.accepted] using fine, by simp, ?_⟩
          rw [only]
  · left
    have refused : ¬ (r.received.status = 200 ∨ r.received.status = 202) := fine
    simp only [if_neg refused] at member
    cases attached with
    | false => simp at member
    | true =>
      simp only [if_true, List.mem_singleton] at member
      obtain ⟨detail, parsed⟩ := failureMessage_parsed codec r.received
      exact ⟨_, member ▸ parsed, rfl⟩

namespace HttpEnv

variable (env : HttpEnv ω)

theorem sink_transport (calls : List Json) (h : Handled ω) :
    (calls.foldl env.sink h).transport = h.transport := by
  induction calls generalizing h with
  | nil => rfl
  | cons resp calls ih =>
    rw [List.foldl_cons, ih]
    unfold sink
    split <;> rfl

theorem sink_pushed (calls : List Json) (h : Handled ω) :
    ∀ push ∈ (calls.foldl env.sink h).pushed, push ∈ h.pushed ∨ push.2 ∈ calls := by
  induction calls generalizing h with
  | nil => exact fun push member => .inl member
  | cons resp calls ih =>
    intro push member
    rcases ih (env.sink h resp) push member with old | new
    · have mine : push ∈ h.pushed ∨ push.2 = resp := by
        unfold sink at old
        split at old
        · exact .inl old
        · refine (List.mem_append.mp old).imp_right fun last => ?_
          rw [List.mem_singleton.mp last]
        · refine (List.mem_append.mp old).imp_right fun last => ?_
          rw [List.mem_singleton.mp last]
      refine mine.imp_right fun same => ?_
      rw [same]
      exact List.mem_cons_self
    · exact .inr (List.mem_cons_of_mem _ new)

theorem commitSession_world (h : Handled ω) (id : SessionId) (ok : Bool) :
    (commitSession h id ok).transport.world = h.transport.world ∧
      (commitSession h id ok).pushed = h.pushed := by
  simp only [commitSession]
  split
  · split <;> exact ⟨rfl, rfl⟩
  · exact ⟨rfl, rfl⟩

/-- A handled message leaves the handler's world behind, and pushes nothing but responses. -/
theorem deliver_world (handler : MessageHandler ω) (t : HttpTransport ω) (message : Json)
    (parsed : ParsedMessage) (id : SessionId) :
    (env.deliver handler t message parsed id).transport.world =
        (handler t.world message id false).1 ∧
      ∀ push ∈ (env.deliver handler t message parsed id).pushed,
        push.2 ∈ (handler t.world message id false).2.emitted := by
  have called : (env.callHandler handler t message parsed id).1.transport.world =
        (handler t.world message id false).1 ∧
      ∀ push ∈ (env.callHandler handler t message parsed id).1.pushed,
        push.2 ∈ (handler t.world message id false).2.emitted := by
    dsimp only [callHandler]
    split
    · obtain ⟨world, pushed⟩ := commitSession_world
        ((handler t.world message id false).2.emitted.foldl env.sink
          { transport := { t with world := (handler t.world message id false).1 }
            sinkSession := some id
            deferred := (handler t.world message id false).2.deferred })
        id (handler t.world message id false).2.threw.isNone
      rw [world, pushed, env.sink_transport]
      refine ⟨rfl, fun push member => ?_⟩
      exact (env.sink_pushed _ _ push member).resolve_left (by simp)
    · rw [env.sink_transport]
      refine ⟨rfl, fun push member => ?_⟩
      exact (env.sink_pushed _ _ push member).resolve_left (by simp)
  unfold deliver
  dsimp only
  split
  · exact called
  · exact called

theorem resolveSession_refuses {t : HttpTransport ω} {newId reqId : SessionId}
    {parsed : ParsedMessage} {r : HttpResponse}
    (refused : env.resolveSession t newId parsed reqId = .error r) :
    r.Plain ∧ r.accepted = false := by
  unfold resolveSession at refused
  repeat' split at refused
  all_goals cases refused
  all_goals first
    | exact ⟨.inr rfl, rfl⟩
    | exact ⟨.inl rfl, rfl⟩

theorem resolveSession_world {t resolved : HttpTransport ω} {newId reqId id : SessionId}
    {parsed : ParsedMessage}
    (found : env.resolveSession t newId parsed reqId = .ok (resolved, id)) :
    resolved.world = t.world := by
  unfold resolveSession at found
  repeat' split at found
  · cases found
    rename_i created
    unfold createSession at created
    split at created
    · cases created
    · cases created
      rfl
  all_goals cases found
  rfl

end HttpEnv

/-- What a response to a message of the client's is made of. -/
inductive PostReply (env : ExchangeEnv υ) (answers : List Json) (message : Json)
    (r : HttpResponse) : Prop where
  | fails (status : r.accepted = false)
  | acknowledges (body : r.body = [])
  | rejects (resp : JsonRpcErrorResponse)
      (read : env.codec.parse (env.codec.dump message) = some message.reread)
      (parsed : parseMessage message.reread = .error resp)
      (body : r.body = env.codec.dump
        (makeErrorResponse resp.id resp.error.code resp.error.message resp.error.data))
  | answers (response : Json) (new : response ∈ answers) (body : r.body = env.codec.dump response)

/-- What `handle_post` did with a message: the server has not seen it, or it was valid. -/
structure HandlesPost (env : ExchangeEnv υ) (t : HttpTransport (Server υ)) (message : Json)
    (handled : Handled (Server υ)) : Prop where
  world : handled.transport.world = t.world ∨
    (∀ resp, parseMessage message.reread ≠ .error resp) ∧ ∃ id,
      handled.transport.world = t.world.onMessage env.info message.reread id false
  replies : ∀ r, .response r ∈ handled.written → r.Plain ∧
    PostReply env (t.world.answered handled.transport.world) message r
  pushed : ∀ push ∈ handled.pushed, push.2 ∈ t.world.answered handled.transport.world

theorem HandlesPost.reply {env : ExchangeEnv υ} {t : HttpTransport (Server υ)} {message : Json}
    {r : HttpResponse} (plain : r.Plain)
    (made : PostReply env (t.world.answered t.world) message r) :
    HandlesPost env t message (CppMcp.reply t r) where
  world := .inl rfl
  replies r' member := by
    simp only [CppMcp.reply, List.mem_singleton, HttpWrite.response.injEq] at member
    rw [member]
    exact ⟨plain, made⟩
  pushed push member := by cases member

theorem serverHandler_emitted (info : ServerInfo) (s : Server υ) (message : Json) (id : SessionId)
    (batch : Bool) : (serverHandler info s message id batch).2.emitted =
      s.answered (serverHandler info s message id batch).1 := rfl

theorem deliver_handlesPost (env : ExchangeEnv υ) {t resolved : HttpTransport (Server υ)}
    (same : resolved.world = t.world) {message : Json}
    (valid : ∀ resp, parseMessage message.reread ≠ .error resp) (id : SessionId) :
    HandlesPost env t message (env.http.deliver (serverHandler env.info) resolved message.reread
      (parseMessage message.reread) id) := by
  obtain ⟨world, pushed⟩ := env.http.deliver_world (serverHandler env.info) resolved message.reread
    (parseMessage message.reread) id
  rw [same] at world pushed
  rw [serverHandler_emitted, ← world] at pushed
  refine ⟨.inr ⟨valid, id, world⟩, fun r member => ?_, pushed⟩
  have first : ∀ r, .response r ∈ (env.http.callHandler (serverHandler env.info) resolved
      message.reread (parseMessage message.reread) id).1.written → r.Plain ∧
      PostReply env (t.world.answered (serverHandler env.info t.world message.reread id false).1)
        message r := by
    intro r member
    obtain ⟨written, -⟩ := env.http.callHandler_fields (serverHandler env.info) resolved
      message.reread (parseMessage message.reread) id
    rw [written, same, serverHandler_emitted, HttpEnv.firstResponse] at member
    obtain ⟨response, head, made⟩ := Option.map_eq_some_iff.mp (Option.mem_toList.mp member)
    cases made
    exact ⟨.inl rfl, .answers response (List.mem_of_mem_head? head) rfl⟩
  rw [world]
  unfold HttpEnv.deliver at member
  dsimp only at member
  split at member
  · simp only [Handled.write, List.mem_append, List.mem_singleton, HttpWrite.response.injEq] at member
    rcases member with answer | acknowledgement
    · exact first r answer
    · rw [acknowledgement]
      exact ⟨.inr rfl, .acknowledges rfl⟩
  · exact first r member

theorem handlePost_handles (env : ExchangeEnv υ) (t : HttpTransport (Server υ))
    (newId sessionId : SessionId) {message : Json} (single : message.isArray = false) :
    HandlesPost env t message (env.http.handlePost t newId (env.postRequest sessionId message)) := by
  have json : ((env.postRequest sessionId message).headers.valueOf "content-type").has
      "application/json" = true := by
    have type : (env.postRequest sessionId message).headers.valueOf "content-type" =
        applicationJson := rfl
    rw [type]
    decide
  have accepted : HttpEnv.acceptsJsonOrStream
      ((env.postRequest sessionId message).headers.valueOf "accept") = true := by
    have accept : (env.postRequest sessionId message).headers.valueOf "accept" =
        ascii "application/json, text/event-stream" := rfl
    rw [accept]
    decide
  cases read : env.codec.parse (env.codec.dump message) with
  | none =>
    have body : env.http.parse (env.postRequest sessionId message).body = .parseError := by
      simp [ExchangeEnv.http, ExchangeEnv.postRequest, read]
    have refused : env.http.handlePost t newId (env.postRequest sessionId message) =
        reply t (env.http.jsonResponse 400
          (makeErrorResponseNullId Protocol.parseError "Parse error")) := by
      unfold HttpEnv.handlePost
      rw [json, accepted, body]
      rfl
    rw [refused]
    exact .reply (.inl rfl) (.fails rfl)
  | some j =>
    have same := env.rereads message j read
    subst same
    have body : env.http.parse (env.postRequest sessionId message).body = .value message.reread := by
      simp [ExchangeEnv.http, ExchangeEnv.postRequest, read]
    have alone : message.reread.isArray = false := by rw [Json.isArray_reread, single]
    rw [env.http.handlePost_message alone json accepted body]
    cases env.http.postMessage_cases t newId message.reread
        ((env.postRequest sessionId message).headers.valueOf "mcp-session-id") with
    | rejected resp parsed replies =>
      rw [replies]
      exact .reply (.inl rfl) (.rejects resp read parsed rfl)
    | refused valid r session replies =>
      obtain ⟨plain, status⟩ := env.http.resolveSession_refuses session
      rw [replies]
      exact .reply plain (.fails status)
    | unhandled valid missing => cases missing
    | delivered valid handler installed resolved id session delivers =>
      cases installed
      rw [delivers]
      exact deliver_handlesPost env (env.http.resolveSession_world session) valid id

end CppMcp
