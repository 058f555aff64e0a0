import CppMcp.Http.Post
import CppMcp.Http.Slots

namespace CppMcp

variable {ω : Type}

/-- The value of the session header, empty if it is absent. -/
def HttpRequest.sessionId (req : HttpRequest) : SessionId := req.headers.valueOf "mcp-session-id"

theorem HttpTransport.findSession_some {t : HttpTransport ω} {id : SessionId} {session : HttpSession}
    (found : t.findSession id = some session) :
    id ≠ [] ∧ t.sessions.lookup id = some session := by
  unfold HttpTransport.findSession at found
  cases id with
  | nil => cases found
  | cons b rest => exact ⟨by simp, found⟩

namespace HttpEnv

def PostsTo (env : HttpEnv ω) (req : HttpRequest) : Prop :=
  req.method = ascii "POST" ∧ pathOnly req.url = env.config.path

instance (env : HttpEnv ω) (req : HttpRequest) : Decidable (env.PostsTo req) :=
  inferInstanceAs (Decidable (_ ∧ _))

/-- What handling a request comes to in streamable mode. -/
inductive Handling (env : HttpEnv ω) (t : HttpTransport ω) (conn : Nat) (newId : SessionId)
    (req : HttpRequest) (h : Handled ω) : Prop
  | stays (same : h.transport = t) (deferred : h.deferred = 0) (written : h.written.length ≤ 1)
  | opens {session : HttpSession} (get : req.method = ascii "GET")
      (found : t.findSession req.sessionId = some session)
      (opened : h.transport = { t with
        sessions := t.sessions.insert session.sessionId
          { session with sseConnections := session.sseConnections ++ [conn] } })
      (deferred : h.deferred = 0) (written : h.written.length ≤ 1)
  | deletes {session : HttpSession} (delete : req.method = ascii "DELETE")
      (named : req.sessionId ≠ [])
      (deleted : h.transport = { t with sessions := t.sessions.erase req.sessionId })
      (deferred : h.deferred = 0) (written : h.written.length ≤ 1)
      (allowed : env.guarded req = none) (path : pathOnly req.url = env.config.path)
      (found : t.findSession req.sessionId = some session)
  | unhandled {resolved : HttpTransport ω} {message : Json} (post : env.PostsTo req)
      (created : env.createSession t newId = some resolved) (missing : env.messageHandler = none)
      (undone : h.transport = { resolved with sessions := resolved.sessions.erase newId })
      (deferred : h.deferred = 0) (written : h.written.length ≤ 1)
      (dispatches : env.Dispatches t newId req resolved message newId)
      (greets : (parseMessage message).isInitialize = true)
  | batch {handler : MessageHandler ω} {session : HttpSession} {messages : List Json}
      (post : env.PostsTo req) (installed : env.messageHandler = some handler)
      (body : env.postBody req = some (.value (.array messages)))
      (found : t.findSession req.sessionId = some session) (live : session.initialized = true)
      (handled : h.transport = { t with
        world := messages.foldl (fun world m => (handler world m session.sessionId true).1) t.world })
      (deferred : h.deferred = 0) (written : h.written.length ≤ 1)
  | single {handler : MessageHandler ω} {resolved : HttpTransport ω} {message : Json}
      {id : SessionId} (post : env.PostsTo req) (installed : env.messageHandler = some handler)
      (dispatches : env.Dispatches t newId req resolved message id)
      (delivers : h = env.deliver handler resolved message (parseMessage message) id)

variable (env : HttpEnv ω) {t : HttpTransport ω} {conn : Nat} {newId : SessionId} {req : HttpRequest}

theorem resolveSession_ok {resolved : HttpTransport ω} {id reqId : SessionId}
    {parsed : ParsedMessage} (found : env.resolveSession t newId parsed reqId = .ok (resolved, id)) :
    (parsed.isInitialize = true ∧ reqId = [] ∧ id = newId ∧
      env.createSession t newId = some resolved) ∨
    (parsed.isInitialize = false ∧ resolved = t ∧ ∃ session, t.findSession reqId = some session ∧
      session.initialized = true ∧ id = session.sessionId) := by
  unfold resolveSession at found
  cases greets : parsed.isInitialize with
  | true =>
    left
    rw [if_pos greets] at found
    cases reqId with
    | cons b rest => cases found
    | nil =>
      cases created : env.createSession t newId with
      | none => simp [created] at found
      | some fresh =>
        simp only [created, List.isEmpty_nil, if_true, Except.ok.injEq, Prod.mk.injEq] at found
        exact ⟨rfl, rfl, found.2.symm, congrArg some found.1⟩
  | false =>
    right
    rw [if_neg (by simp [greets])] at found
    split at found
    · cases found
    · split at found
      · cases found
      · rename_i session present
        split at found
        · cases found
          exact ⟨rfl, rfl, session, present, by assumption, rfl⟩
        · cases found

theorem reply_stays (r : HttpResponse) : env.Handling t conn newId req (reply t r) :=
  .stays rfl rfl le_rfl

theorem batchElement_foldl {handler : MessageHandler ω} (installed : env.messageHandler = some handler)
    (id : SessionId) (messages : List Json) (acc : ω × List Json) :
    (messages.foldl (env.batchElement id) acc).1 =
      messages.foldl (fun world m => (handler world m id true).1) acc.1 := by
  induction messages generalizing acc with
  | nil => rfl
  | cons m messages ih =>
    rw [List.foldl_cons, List.foldl_cons, ih]
    simp [batchElement, installed]

theorem batchElement_missing (missing : env.messageHandler = none) (id : SessionId)
    (messages : List Json) (acc : ω × List Json) :
    messages.foldl (env.batchElement id) acc = acc := by
  induction messages generalizing acc with
  | nil => rfl
  | cons m messages ih =>
    rw [List.foldl_cons, ih]
    simp [batchElement, missing]

theorem handlePostBatch_handling (post : env.PostsTo req) {messages : List Json}
    (body : env.postBody req = some (.value (.array messages))) :
    env.Handling t conn newId req (env.handlePostBatch t messages req.sessionId) := by
  unfold handlePostBatch
  split
  · exact env.reply_stays _
  split
  · exact env.reply_stays _
  cases found : t.findSession req.sessionId with
  | none => exact env.reply_stays _
  | some session =>
    dsimp only
    split
    · rename_i live
      cases installed : env.messageHandler with
      | none =>
        rw [env.batchElement_missing installed]
        exact .stays rfl rfl le_rfl
      | some handler =>
        refine .batch post installed body found live ?_ rfl le_rfl
        exact congrArg (fun world => { t with world }) (env.batchElement_foldl installed _ _ _)
    · exact env.reply_stays _

theorem postMessage_handling (post : env.PostsTo req) {message : Json}
    (single : message.isArray = false)
    (body : env.postBody req = some (.value message)) :
    env.Handling t conn newId req (env.postMessage t newId message req.sessionId) := by
  cases env.postMessage_cases t newId message req.sessionId with
  | rejected resp parsed replies =>
    rw [replies]
    exact env.reply_stays _
  | refused valid r session replies =>
    rw [replies]
    exact env.reply_stays r
  | unhandled valid missing resolved id session replies =>
    rw [replies]
    rcases env.resolveSession_ok session with ⟨greets, -, rfl, created⟩ | ⟨greets, rfl, -⟩
    · refine .unhandled post created missing ?_ rfl le_rfl ⟨body, single, valid, session⟩ greets
      rw [greets]
      rfl
    · rw [greets]
      exact .stays rfl rfl le_rfl
  | delivered valid handler installed resolved id session delivers =>
    exact .single post installed ⟨body, single, valid, session⟩ delivers

theorem handlePost_handling (post : env.PostsTo req) (allowed : env.guarded req = none) :
    env.Handling t conn newId req (env.handlePost t newId req) := by
  cases env.handlePost_read t newId allowed with
  | refused r bare replies =>
    rw [replies]
    exact env.reply_stays r
  | overflow body throws =>
    rw [throws]
    exact .stays rfl rfl (Nat.zero_le 1)
  | batch messages body handles =>
    rw [handles]
    exact env.handlePostBatch_handling post body
  | message message single body handles =>
    rw [handles]
    exact env.postMessage_handling post single body

/-- In streamable mode a request is answered at once, or handled as one of the cases says. -/
theorem handleRequest_handling (streamable : env.config.mode = .streamableHttp)
    (t : HttpTransport ω) (conn : Nat) (newId : SessionId) (req : HttpRequest) :
    env.Handling t conn newId req (env.handleRequest t conn newId req) := by
  unfold handleRequest
  cases allowed : env.guarded req with
  | some why => exact .stays rfl rfl le_rfl
  | none =>
    simp only [streamable]
    split
    · exact env.reply_stays _
    split
    · rename_i asked
      exact env.handlePost_handling asked.symm allowed
    split
    · rename_i asked
      unfold handleGetSse
      split
      · exact .stays rfl rfl le_rfl
      · rename_i session found
        split
        · exact .opens asked.2 found rfl rfl le_rfl
        · exact .stays rfl rfl le_rfl
    split
    · rename_i asked
      unfold handleDelete
      split
      · exact env.reply_stays _
      · rename_i session found
        exact .deletes asked.2 (HttpTransport.findSession_some found).1 rfl rfl le_rfl allowed asked.1
          found
    · exact .stays rfl rfl le_rfl

end HttpEnv

/-- A JSON library that knows the texts of a table. -/
def tableEnv (table : List (Bytes × Json)) : HttpEnv ω where
  parse text :=
    match table.lookup text with
    | some j => .value j
    | none => .parseError
  dump j := ((table.find? fun entry => entry.2 == j).map Prod.fst).getD []
  messageHandler := none

/-- A request to a server on the default address, in a session if it names one. -/
def requestIn (method : String) (sessionId : SessionId) (body : Bytes) : HttpRequest where
  method := ascii method
  url := ascii "/mcp"
  headers := [(ascii "accept", ascii "application/json, text/event-stream"),
    (ascii "content-type", ascii "application/json"), (ascii "host", ascii "127.0.0.1")] ++
      sessionHeader sessionId
  body := body

def pingMessage : Json := serializeRequest ⟨.int 1, Protocol.methodPing, none⟩

def initializedText : Bytes :=
  ascii "\x7b\"jsonrpc\":\"2.0\",\"method\":\"notifications/initialized\"\x7d"

end CppMcp
