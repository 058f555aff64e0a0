import CppMcp.Http.Pipeline
import CppMcp.Server.Isolation
import CppMcp.Server.Oblivious

namespace CppMcp

open Lib

variable {ω υ : Type}

/-- The bodies of the JSON responses among what was written. -/
def jsonBodies (written : List HttpWrite) : List Bytes :=
  written.filterMap fun
    | .response r => if r.contentType = applicationJson then some r.body else none
    | .stream _ _ => none

/-- A transport without the record of what came in to its server. -/
def HttpTransport.bare (t : HttpTransport (Server υ)) : HttpTransport (Server υ) :=
  { t with world := t.world.bare }

namespace HttpEnv

/-- A POST that brings a message in a session. -/
structure Posts (env : HttpEnv ω) (id : SessionId) (req : HttpRequest) (message : Json) : Prop where
  json : (req.headers.valueOf "content-type").has "application/json" = true
  accepted : acceptsJsonOrStream (req.headers.valueOf "accept") = true
  body : env.parse req.body = .value message
  session : req.sessionId = id

/-- POSTs one after another, each with the id that would be generated, and their JSON bodies. -/
def postEach (env : HttpEnv ω) (t : HttpTransport ω) :
    List (SessionId × HttpRequest) → HttpTransport ω × List Bytes
  | [] => (t, [])
  | (newId, req) :: rest =>
    let h := env.handlePost t newId req
    let (after, bodies) := env.postEach h.transport rest
    (after, jsonBodies h.written ++ bodies)

end HttpEnv

/-- A message that means the same in a batch as on its own, where `outstanding` says which
    requests of the server's are unanswered. -/
def Batchable (outstanding : Int → Bool) (message : Json) : Bool :=
  !message.isArray &&
    match parseMessage message with
    | .request req => req.method != Protocol.methodInitialize
    | .error _ => (answeredId message).all fun n => !outstanding n
    | _ => true

/-- Every message is one when its turn comes. -/
def AllBatchable (outstanding : Int → Bool) : List Json → Bool
  | [] => true
  | m :: rest => Batchable outstanding m &&
      AllBatchable (fun n => outstanding n && answeredId m != some n) rest

def Server.outbound (s : Server υ) (n : Int) : Bool := (s.outboundPending.lookup n).isSome

section
variable (info : ServerInfo)

theorem callBack_bare (s : Server υ) (callback : Handler υ Unit) :
    s.bare.callBack callback = (s.callBack callback).bare := by
  simp only [Server.callBack]
  cases h : callback.run.run s.user with
  | mk outcome user =>
    have same : callback.run.run s.bare.user = (outcome, user) := h
    rw [same]
    cases outcome with
    | ok _ => rfl
    | error e => cases e <;> rfl

theorem completeServerRequest_bare (s : Server υ) (id : Int) (ok : Bool) (payload : Json) :
    s.bare.completeServerRequest id ok payload = (s.completeServerRequest id ok payload).bare := by
  have same : s.bare.outboundPending = s.outboundPending := rfl
  simp only [Server.completeServerRequest, same]
  cases s.outboundPending.lookup id with
  | none => rfl
  | some p =>
    let completed : CompletedRequest := ⟨id, ok, payload⟩
    exact callBack_bare { s with
      outboundPending := s.outboundPending.erase id
      completions := s.completions ++ [completed] } _

theorem onClientResponse_bare (s : Server υ) (resp : JsonRpcSuccessResponse) :
    s.bare.onClientResponse resp = (s.onClientResponse resp).bare := by
  unfold Server.onClientResponse
  split
  · exact completeServerRequest_bare s _ _ _
  · rfl

theorem onClientErrorResponse_bare (s : Server υ) (resp : JsonRpcErrorResponse) :
    s.bare.onClientErrorResponse resp = (s.onClientErrorResponse resp).bare := by
  unfold Server.onClientErrorResponse
  split
  · exact completeServerRequest_bare s _ _ _
  · rfl

theorem processNotification_bare (s : Server υ) (notif : JsonRpcNotification) :
    s.bare.processNotification notif = (s.processNotification notif).bare := by
  unfold Server.processNotification
  split
  · rfl
  · split <;> rfl

/-- What bare servers do alike, servers with one bare form do alike. -/
theorem bare_congr {f : Server υ → Server υ} (bare : ∀ s, f s.bare = (f s).bare) {s s' : Server υ}
    (same : s.bare = s'.bare) : (f s).bare = (f s').bare := by
  rw [← bare, ← bare, same]

/-- Without a worker pool a message is handled alike in a batch and on its own, whatever
    came in before. -/
theorem onMessage_bare {s s' : Server υ} (same : s.bare = s'.bare) (poolless : s.executor = false)
    (message : Json) (id : SessionId) (batch batch' : Bool) :
    (s.onMessage info message id batch).bare = (s'.onMessage info message id batch').bare ∧
      (serverHandler info s message id batch).2.emitted =
        (serverHandler info s' message id batch').2.emitted := by
  have arrived : (s.arrived message).bare = (s'.arrived message).bare := same
  have poolless' : s'.executor = false := by
    have executor : s.bare.executor = s'.bare.executor := congrArg Server.executor same
    exact executor.symm.trans poolless
  have here : (s.arrived message).executor = false := poolless
  have there : (s'.arrived message).executor = false := poolless'
  simp only [serverHandler, Server.onMessage, here, there]
  cases parsed : parseMessage message with
  | request req =>
    have served := processRequest_bare info req id (s.arrived message)
    rw [arrived, processRequest_bare info req id (s'.arrived message)] at served
    obtain ⟨response, after⟩ := Prod.mk.inj served
    obtain ⟨-, serving⟩ := processRequest_spec info req id (s.arrived message)
    obtain ⟨-, serving'⟩ := processRequest_spec info req id (s'.arrived message)
    have answers : (processRequest info req id (s.arrived message)).2.answers = s.answers :=
      serving.answers
    have answers' : (processRequest info req id (s'.arrived message)).2.answers = s'.answers :=
      serving'.answers
    refine ⟨after.symm, ?_⟩
    simp [Server.respond, answers, answers', response]
  | notification notif =>
    refine ⟨bare_congr (f := (·.processNotification notif))
      (fun s => processNotification_bare s notif) arrived, ?_⟩
    have quiet (s : Server υ) := (processNotification_queues s notif).2
    simp [quiet, Server.arrived]
  | success resp =>
    refine ⟨bare_congr (f := (·.onClientResponse resp)) (fun s => onClientResponse_bare s resp)
      arrived, ?_⟩
    have quiet (s : Server υ) := (onClientResponse_queues s resp).2
    simp [quiet, Server.arrived]
  | error resp =>
    have outbound :
        (s'.arrived message).isOutbound resp.id = (s.arrived message).isOutbound resp.id := by
      have pending : s'.outboundPending = s.outboundPending := by
        have kept : s'.bare.outboundPending = s.bare.outboundPending := by rw [same]
        exact kept
      cases id : resp.id <;> simp [Server.isOutbound, Server.arrived, pending]
    simp only [outbound]
    cases (s.arrived message).isOutbound resp.id with
    | true =>
      refine ⟨bare_congr (f := (·.onClientErrorResponse resp))
        (fun s => onClientErrorResponse_bare s resp) arrived, ?_⟩
      have quiet (s : Server υ) : (s.onClientErrorResponse resp).answers = s.answers := by
        unfold Server.onClientErrorResponse
        split
        · exact (completeServerRequest_queues s _ _ _).2.2.2
        · rfl
      simp [quiet, Server.arrived]
    | false =>
      refine ⟨arrived, ?_⟩
      simp [Server.respond, Server.arrived]

variable {env : HttpEnv (Server υ)}

theorem deliver_transport {ω : Type} {env : HttpEnv ω} (handler : MessageHandler ω)
    (t : HttpTransport ω) (message : Json) {parsed : ParsedMessage} (id : SessionId)
    (later : parsed.isInitialize = false) : (env.deliver handler t message parsed id).transport =
      { t with world := (handler t.world message id false).1 } := by
  have called : (env.callHandler handler t message parsed id).1.transport =
      { t with world := (handler t.world message id false).1 } := by
    dsimp only [HttpEnv.callHandler]
    rw [later]
    exact env.sink_transport _ _
  dsimp only [HttpEnv.deliver]
  split <;> exact called

theorem jsonBodies_firstResponse (id : SessionId) (calls : List Json) :
    jsonBodies (env.firstResponse id calls) = calls.head?.toList.map env.dump := by
  cases calls with
  | nil => rfl
  | cons resp calls => simp [jsonBodies, HttpEnv.firstResponse, HttpEnv.jsonResponse]

/-- What a POST of a batchable element does, compared with the call of the message handler
    for it in a batch. -/
structure AgreesWithElement (env : HttpEnv (Server υ)) (t : HttpTransport (Server υ))
    (message : Json) (id : SessionId) (h : Handled (Server υ)) : Prop where
  transport : h.transport.bare =
    ({ t with world := t.world.onMessage info message id true } : HttpTransport (Server υ)).bare
  bodies : jsonBodies h.written =
    (serverHandler info t.world message id true).2.emitted.head?.toList.map env.dump

theorem batchable_weaken {outstanding fewer : Int → Bool} {message : Json}
    (batchable : Batchable outstanding message = true)
    (fewer_le : ∀ n, fewer n = true → outstanding n = true) : Batchable fewer message = true := by
  unfold Batchable at batchable ⊢
  simp only [Bool.and_eq_true] at batchable ⊢
  refine ⟨batchable.1, ?_⟩
  have rest := batchable.2
  cases parsed : parseMessage message with
  | error resp =>
    simp only [parsed] at rest ⊢
    cases answered : answeredId message with
    | none => rfl
    | some n =>
      have free : outstanding n = false := by simpa [answered] using rest
      cases kept : fewer n with
      | false => simp [kept]
      | true => simp [fewer_le n kept] at free
  | request req => simpa only [parsed] using rest
  | notification notif | success resp => rfl

/-- A message that is handed to the server in a live session. -/
theorem delivered_agrees (installed : env.messageHandler = some (serverHandler info))
    {t : HttpTransport (Server υ)} {id : SessionId} {session : HttpSession}
    (found : t.findSession id = some session) (live : session.initialized = true)
    (own : session.sessionId = id) (poolless : t.world.executor = false) (newId : SessionId)
    {message : Json} (valid : ∀ resp, parseMessage message ≠ .error resp)
    (later : (parseMessage message).isInitialize = false) :
    AgreesWithElement info env t message id (env.postMessage t newId message id) := by
  obtain ⟨named, -⟩ := HttpTransport.findSession_some found
  have unnamed : id.isEmpty = false := by simpa using named
  have delivered : env.resolveSession t newId (parseMessage message) id = .ok (t, id) := by
    simp [HttpEnv.resolveSession, later, unnamed, found, live, own]
  obtain ⟨world, emitted⟩ := onMessage_bare info (s := t.world) rfl poolless message id false true
  rw [env.postMessage_valid installed t newId valid, delivered]
  dsimp only
  constructor
  · rw [deliver_transport _ _ _ _ later]
    exact congrArg (fun world => { t with world }) world
  · rw [deliver_written, ← emitted]
    split
    · rename_i notification
      rw [server_quiet info t.world message id notification]
      rfl
    · exact jsonBodies_firstResponse id _

/-- A notification that calls itself `initialize` is refused on its own and ignored in a batch. -/
theorem greetingNote_agrees (installed : env.messageHandler = some (serverHandler info))
    {t : HttpTransport (Server υ)} {id : SessionId} (named : id ≠ [])
    (poolless : t.world.executor = false) (newId : SessionId) {message : Json}
    {notif : JsonRpcNotification} (parsed : parseMessage message = .notification notif)
    (greets : (parseMessage message).isInitialize = true) :
    AgreesWithElement info env t message id (env.postMessage t newId message id) := by
  have method : notif.method = Protocol.methodInitialize := by
    simpa [parsed, ParsedMessage.isInitialize, ParsedMessage.methodName] using greets
  have refused : env.resolveSession t newId (parseMessage message) id =
      .error (textResponse 400 "Session already exists") := by
    simp [HttpEnv.resolveSession, greets, named]
  have ignored : t.world.onMessage info message id true = t.world.arrived message := by
    simp only [Server.onMessage, parsed, Server.processNotification, method]
    rfl
  obtain ⟨-, emitted⟩ := onMessage_bare info (s := t.world) rfl poolless message id false true
  rw [env.postMessage_valid installed t newId (by simp [parsed]), refused]
  constructor
  · dsimp only
    rw [ignored]
    rfl
  · have quiet := server_quiet info t.world message id (by simp [parsed]; rfl)
    rw [← emitted, quiet]
    rfl

/-- What is no JSON-RPC message is answered with the same error. -/
theorem invalid_agrees {t : HttpTransport (Server υ)} {id : SessionId} (newId : SessionId)
    {message : Json} {resp : JsonRpcErrorResponse} (parsed : parseMessage message = .error resp)
    (free : t.world.isOutbound resp.id = false) :
    AgreesWithElement info env t message id (env.postMessage t newId message id) := by
  have answered : t.world.onMessage info message id true =
      (t.world.arrived message).respond t.world.arrivals.length
        (makeErrorResponse resp.id resp.error.code resp.error.message resp.error.data) := by
    have arrived : (t.world.arrived message).isOutbound resp.id = t.world.isOutbound resp.id :=
      rfl
    simp only [Server.onMessage, parsed, arrived, free]
    rfl
  have same : env.postMessage t newId message id = reply t (env.jsonResponse 200
      (makeErrorResponse resp.id resp.error.code resp.error.message resp.error.data)
      (sessionHeader id)) := by
    unfold HttpEnv.postMessage
    rw [parsed]
  rw [same]
  constructor
  · rw [answered]
    rfl
  · simp [serverHandler, answered, Server.respond, Server.arrived, jsonBodies, reply,
      HttpEnv.jsonResponse]

theorem element_agrees (installed : env.messageHandler = some (serverHandler info))
    {t : HttpTransport (Server υ)} {id : SessionId} {session : HttpSession}
    (found : t.findSession id = some session) (live : session.initialized = true)
    (own : session.sessionId = id) (poolless : t.world.executor = false) (newId : SessionId)
    {message : Json} (batchable : Batchable t.world.outbound message = true) :
    AgreesWithElement info env t message id (env.postMessage t newId message id) := by
  simp only [Batchable, Bool.and_eq_true] at batchable
  have delivers : _ → _ → AgreesWithElement info env t message id _ :=
    delivered_agrees info installed found live own poolless newId
  cases parsed : parseMessage message with
  | request req =>
    apply delivers (by simp [parsed])
    simpa [parsed, ParsedMessage.isInitialize, ParsedMessage.methodName] using batchable.2
  | success resp => exact delivers (by simp [parsed]) (by simp [parsed]; rfl)
  | notification notif =>
    cases greets : (parseMessage message).isInitialize with
    | false => exact delivers (by simp [parsed]) greets
    | true =>
      exact greetingNote_agrees info installed (HttpTransport.findSession_some found).1 poolless
        newId parsed greets
  | error resp =>
    have free : t.world.isOutbound resp.id = false := by
      have unasked := batchable.2
      obtain ⟨rid, detail⟩ := resp
      cases rid with
      | int n => simpa [parsed, answeredId, Server.outbound, Server.isOutbound] using unasked
      | _ => rfl
    exact invalid_agrees info newId parsed free

theorem onMessage_executor (s : Server υ) (message : Json) (id : SessionId) (batch : Bool) :
    (s.onMessage info message id batch).executor = s.executor := by
  have called (s : Server υ) (callback : Handler υ Unit) :
      (s.callBack callback).executor = s.executor := by
    unfold Server.callBack
    split <;> rfl
  have completed (s : Server υ) (n : Int) (ok : Bool) (payload : Json) :
      (s.completeServerRequest n ok payload).executor = s.executor := by
    unfold Server.completeServerRequest
    split
    · rfl
    · exact called _ _
  simp only [Server.onMessage]
  cases parseMessage message with
  | request req =>
    simp only
    split
    · rfl
    · exact (processRequest_spec info req id (s.arrived message)).2.executor
  | notification notif =>
    simp only [Server.processNotification]
    split
    · rfl
    · split <;> rfl
  | success resp =>
    simp only [Server.onClientResponse]
    split
    · exact completed _ _ _ _
    · rfl
  | error resp =>
    simp only
    split
    · simp only [Server.onClientErrorResponse]
      split
      · exact completed _ _ _ _
      · rfl
    · rfl

/-- What is outstanding after a message was before, and is not what the message answers. -/
theorem onMessage_outstanding (s : Server υ) (message : Json) (id : SessionId) (batch : Bool)
    {n : Int} (left : (s.onMessage info message id batch).outbound n = true) :
    s.outbound n = true ∧ answeredId message ≠ some n := by
  unfold Server.outbound at left ⊢
  rcases onMessage_outbound info s message id batch with
    ⟨answered, p, ok, payload, names, found, table, -⟩ | ⟨absent, same⟩
  · rw [table] at left
    have ne : n ≠ answered := by
      rintro rfl
      simp at left
    rw [AList.lookup_erase_ne ne] at left
    exact ⟨left, fun same => ne (Option.some.inj (same.symm.trans names))⟩
  · rw [same.outboundPending] at left
    refine ⟨left, fun names => ?_⟩
    rw [absent n names] at left
    cases left

theorem batchElement_installed (installed : env.messageHandler = some (serverHandler info))
    (id : SessionId) (acc : Server υ × List Json) (message : Json) :
    env.batchElement id acc message = (acc.1.onMessage info message id true,
      acc.2 ++ (serverHandler info acc.1 message id true).2.emitted.head?.toList) := by
  simp only [HttpEnv.batchElement, installed]
  rfl

/-- A batch of batchable elements does what their POSTs do one after another. -/
theorem elements_agree (installed : env.messageHandler = some (serverHandler info))
    {id : SessionId} {session : HttpSession} (live : session.initialized = true)
    (own : session.sessionId = id) {messages : List Json} {posts : List (SessionId × HttpRequest)}
    (each : List.Forall₂ (fun post m => env.Posts id post.2 m) posts messages)
    {t : HttpTransport (Server υ)} (found : t.findSession id = some session)
    (poolless : t.world.executor = false) {outstanding : Int → Bool}
    (pending : ∀ n, t.world.outbound n = true → outstanding n = true)
    (batchable : AllBatchable outstanding messages = true) {s : Server υ}
    (same : s.bare = t.world.bare) (responses : List Json) :
    ∃ s' more, messages.foldl (env.batchElement id) (s, responses) = (s', responses ++ more) ∧
      (env.postEach t posts).2 = more.map env.dump ∧
      (env.postEach t posts).1.bare = ({ t with world := s' } : HttpTransport (Server υ)).bare := by
  induction each generalizing t outstanding s responses with
  | nil => exact ⟨s, [], by simp, rfl, congrArg (fun world => { t with world }) same.symm⟩
  | @cons post m posts messages first rest ih =>
    obtain ⟨newId, req⟩ := post
    simp only [AllBatchable, Bool.and_eq_true] at batchable
    obtain ⟨plain, later⟩ := batchable
    have single : m.isArray = false := by
      simp only [Batchable, Bool.and_eq_true, Bool.not_eq_true'] at plain
      exact plain.1
    have handled : env.handlePost t newId req = env.postMessage t newId m id := by
      rw [env.handlePost_message single first.json first.accepted first.body]
      exact congrArg (env.postMessage t newId m) first.session
    obtain ⟨transport, bodies⟩ := element_agrees info installed found live own poolless newId
      (batchable_weaken plain pending)
    have sessions := congrArg HttpTransport.sessions transport
    have world := congrArg HttpTransport.world transport
    have served : (env.postMessage t newId m id).transport.world.executor = false := by
      have kept := congrArg Server.executor world
      exact (kept.trans (onMessage_executor info t.world m id true)).trans poolless
    have table : (env.postMessage t newId m id).transport.world.outboundPending =
        (t.world.onMessage info m id true).outboundPending := by
      have kept := congrArg Server.outboundPending world
      exact kept
    have stays : (env.postMessage t newId m id).transport.findSession id = some session := by
      unfold HttpTransport.findSession at found ⊢
      have kept : (env.postMessage t newId m id).transport.sessions = t.sessions := sessions
      rw [kept]
      exact found
    obtain ⟨alike, emitted⟩ := onMessage_bare info same.symm poolless m id true true
    have fewer (n : Int) (left : (env.postMessage t newId m id).transport.world.outbound n = true) :
        (outstanding n && answeredId m != some n) = true := by
      unfold Server.outbound at left
      rw [table] at left
      obtain ⟨before, other⟩ := onMessage_outstanding info t.world m id true left
      simp [pending n before, other]
    obtain ⟨s', more, folds, texts, final⟩ := ih stays served fewer later
      (s := s.onMessage info m id true) (alike.symm.trans world.symm)
      (responses ++ (serverHandler info s m id true).2.emitted.head?.toList)
    refine ⟨s', (serverHandler info s m id true).2.emitted.head?.toList ++ more, ?_, ?_, ?_⟩
    · rw [List.foldl_cons, batchElement_installed info installed, folds, List.append_assoc]
    · simp only [HttpEnv.postEach, handled, bodies, texts, List.map_append, emitted]
    · simp only [HttpEnv.postEach, handled, final]
      exact congrArg (fun after : HttpTransport (Server υ) => { after with world := s'.bare })
        transport

theorem handlePost_batch {ω : Type} {env : HttpEnv ω} {id : SessionId} {req : HttpRequest}
    {messages : List Json} (posts : env.Posts id req (.array messages)) (t : HttpTransport ω)
    (newId : SessionId) : env.handlePost t newId req = env.handlePostBatch t messages id := by
  unfold HttpEnv.handlePost
  rw [posts.json, posts.accepted, posts.body]
  exact congrArg (env.handlePostBatch t messages) posts.session

/-- A batch is answered with the array of the JSON bodies that its elements' POSTs get, and
    leaves the server and the transport as they do. -/
theorem batch_as_elements (installed : env.messageHandler = some (serverHandler info))
    (t : HttpTransport (Server υ)) {id : SessionId} {session : HttpSession}
    (found : t.findSession id = some session) (live : session.initialized = true)
    (own : session.sessionId = id) (poolless : t.world.executor = false) {messages : List Json}
    (nonempty : messages ≠ []) (batchable : AllBatchable t.world.outbound messages = true)
    (newId : SessionId) {req : HttpRequest} (whole : env.Posts id req (.array messages))
    {posts : List (SessionId × HttpRequest)}
    (each : List.Forall₂ (fun post m => env.Posts id post.2 m) posts messages) :
    ∃ responses : List Json, (env.handlePost t newId req).written = [.response
        (if responses.isEmpty then ⟨202, textPlain, [], sessionHeader id⟩
        else env.jsonResponse 200 (.array responses) (sessionHeader id))] ∧
      (env.postEach t posts).2 = responses.map env.dump ∧
      (env.postEach t posts).1.bare = (env.handlePost t newId req).transport.bare := by
  obtain ⟨named, -⟩ := HttpTransport.findSession_some found
  have some_ : messages.isEmpty = false := by simpa using nonempty
  have unnamed : id.isEmpty = false := by simpa using named
  obtain ⟨s', responses, folds, texts, final⟩ := elements_agree info installed live own each found
    poolless (fun _ pending => pending) batchable (s := t.world) rfl []
  rw [List.nil_append] at folds
  have handled : env.handlePost t newId req = reply { t with world := s' }
      (if responses.isEmpty then ⟨202, textPlain, [], sessionHeader id⟩
      else env.jsonResponse 200 (.array responses) (sessionHeader id)) := by
    rw [handlePost_batch whole]
    simp [HttpEnv.handlePostBatch, some_, unnamed, found, live, own, folds]
  rw [handled]
  exact ⟨responses, rfl, texts, final⟩

end

def pongText : Bytes := ascii "\x7b\"id\":1,\"jsonrpc\":\"2.0\",\"result\":\x7b\x7d\x7d"

def arrayText (texts : List Bytes) : Bytes :=
  ascii "[" ++ (texts.intersperse (ascii ",")).flatten ++ ascii "]"

def batchEnv : HttpEnv (Server Unit) where
  parse := (tableEnv [(pingText, pingMessage), (initializedText, initializedMessage),
    (arrayText [pingText, initializedText], .array [pingMessage, initializedMessage]),
    (arrayText [initializedText], .array [initializedMessage]),
    (arrayText [arrayText [initializedText]], .array [.array [initializedMessage]])] :
      HttpEnv Unit).parse
  dump := (tableEnv [(pongText, answerOne), (arrayText [pongText], .array [answerOne])] :
    HttpEnv Unit).dump
  messageHandler := some (serverHandler {})

def postsNote (text : Bytes) : HttpRequest := requestIn "POST" (ascii "s") text

theorem postsNote_posts {text : Bytes} {message : Json}
    (known : batchEnv.parse text = .value message) :
    batchEnv.Posts (ascii "s") (postsNote text) message := by
  refine ⟨?_, ?_, known, ?_⟩
  · show ((postsNote []).headers.valueOf "content-type").has "application/json" = true
    decide
  · show HttpEnv.acceptsJsonOrStream ((postsNote []).headers.valueOf "accept") = true
    decide
  · show (postsNote []).sessionId = ascii "s"
    decide

theorem ping_and_note_batched : ∃ responses : List Json,
    (batchEnv.handlePost openTransport [] (postsNote (arrayText [pingText, initializedText]))).written =
      [.response (if responses.isEmpty then ⟨202, textPlain, [], sessionHeader (ascii "s")⟩
        else batchEnv.jsonResponse 200 (.array responses) (sessionHeader (ascii "s")))] ∧
    [pongText] = responses.map batchEnv.dump := by
  have each : List.Forall₂
      (fun (post : SessionId × HttpRequest) m => batchEnv.Posts (ascii "s") post.2 m)
      [([], postsNote pingText), ([], postsNote initializedText)]
      [pingMessage, initializedMessage] := by
    refine .cons ?_ (.cons ?_ .nil)
    · exact postsNote_posts rfl
    · exact postsNote_posts rfl
  have found : openTransport.findSession (ascii "s") = some ⟨ascii "s", true, []⟩ := by decide
  have whole : batchEnv.Posts (ascii "s") (postsNote (arrayText [pingText, initializedText]))
      (.array [pingMessage, initializedMessage]) := postsNote_posts rfl
  obtain ⟨responses, written, texts, -⟩ := batch_as_elements {} rfl openTransport found rfl rfl rfl
    (by simp) (by decide) [] whole each
  have bodies : (batchEnv.postEach openTransport
      [([], postsNote pingText), ([], postsNote initializedText)]).2 = [pongText] := by decide
  exact ⟨responses, written, bodies.symm.trans texts⟩

/-- An array inside a batch is an invalid request there, and a batch of its own elsewhere. -/
theorem nested_batch_differs : ¬ ∀ (env : HttpEnv (Server Unit)) (t : HttpTransport (Server Unit))
    (id : SessionId) (session : HttpSession) (messages : List Json) (newId : SessionId)
    (req : HttpRequest) (posts : List (SessionId × HttpRequest)),
    env.messageHandler = some (serverHandler {}) → t.findSession id = some session →
    session.initialized = true → session.sessionId = id → t.world.executor = false →
    messages ≠ [] → env.Posts id req (.array messages) →
    List.Forall₂ (fun post m => env.Posts id post.2 m) posts messages →
    ∃ responses : List Json, (env.handlePost t newId req).written = [.response
        (if responses.isEmpty then ⟨202, textPlain, [], sessionHeader id⟩
        else env.jsonResponse 200 (.array responses) (sessionHeader id))] ∧
      (env.postEach t posts).2 = responses.map env.dump ∧
      (env.postEach t posts).1.bare = (env.handlePost t newId req).transport.bare := by
  intro same
  have each : List.Forall₂
      (fun (post : SessionId × HttpRequest) m => batchEnv.Posts (ascii "s") post.2 m)
      [([], postsNote (arrayText [initializedText]))] [.array [initializedMessage]] := by
    refine .cons ?_ .nil
    exact postsNote_posts rfl
  obtain ⟨responses, written, texts, -⟩ := same batchEnv openTransport (ascii "s")
    ⟨ascii "s", true, []⟩ [.array [initializedMessage]] []
    (postsNote (arrayText [arrayText [initializedText]])) _
    rfl (by decide) rfl rfl rfl (by simp) (postsNote_posts rfl) each
  have bodies : (batchEnv.postEach openTransport
      [([], postsNote (arrayText [initializedText]))]).2 = [] := by decide
  have answered : (batchEnv.handlePost openTransport []
      (postsNote (arrayText [arrayText [initializedText]]))).written.map (fun
        | .response r => r.status
        | .stream _ _ => 0) = [200] := by decide
  have none : responses = [] := by
    rw [bodies] at texts
    exact List.map_eq_nil_iff.mp texts.symm
  rw [written, none] at answered
  revert answered
  decide

end CppMcp
