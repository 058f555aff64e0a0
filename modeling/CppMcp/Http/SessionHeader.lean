import CppMcp.Http.LiveSessions

namespace CppMcp

open Lib

variable {ω : Type}

def HttpResponse.sessionIds (r : HttpResponse) : List SessionId :=
  (r.extraHeaders.filter fun header => header.1 = ascii "mcp-session-id").map Prod.snd

def HttpWrite.sessionIds : HttpWrite → List SessionId
  | .response r => r.sessionIds
  | .stream _ _ => []

/-- The values of the session headers of the responses that were written. -/
def Handled.advertised (h : Handled ω) : List SessionId := h.written.flatMap HttpWrite.sessionIds

def Handled.AdvertisesLive (h : Handled ω) : Prop :=
  ∀ id ∈ h.advertised, id ∈ h.transport.sessions

namespace HttpEnv

/-- A message that is rejected names no session or one that there is, and an `initialize`
    that opens no session is not answered. -/
structure NamesLive (env : HttpEnv ω) (t : HttpTransport ω) (newId : SessionId)
    (req : HttpRequest) : Prop where
  rejected : ∀ message resp, env.PostsTo req → env.postBody req = some (.value message) →
    message.isArray = false → parseMessage message = .error resp →
    req.sessionId = [] ∨ req.sessionId ∈ t.sessions
  greeted : ∀ handler resolved message, env.PostsTo req → env.messageHandler = some handler →
    env.Dispatches t newId req resolved message newId → newId ≠ [] →
    (parseMessage message).isInitialize = true →
    let outcome := (handler resolved.world message newId false).2
    succeeds outcome = true ∨
      outcome.emitted = [] ∧ (outcome.threw ≠ none ∨ (parseMessage message).isNotification = false)

end HttpEnv

theorem mem_sessionHeader (status : Nat) (type body : Bytes) (id other : SessionId) :
    other ∈ (HttpResponse.mk status type body (sessionHeader id)).sessionIds ↔
      other = id ∧ id ≠ [] := by
  cases id with
  | nil => simp [HttpResponse.sessionIds, sessionHeader]
  | cons b rest => simp [HttpResponse.sessionIds, sessionHeader]

namespace Handled

theorem advertisesLive_reply (t : HttpTransport ω) (r : HttpResponse) :
    (reply t r).AdvertisesLive ↔ ∀ id ∈ r.sessionIds, id ∈ t.sessions := by
  simp [AdvertisesLive, advertised, reply, HttpWrite.sessionIds]

/-- A response without headers of its own advertises nothing. -/
theorem bare_advertisesLive (t : HttpTransport ω) {r : HttpResponse} (bare : r.extraHeaders = []) :
    (reply t r).AdvertisesLive := by
  simp [advertisesLive_reply, HttpResponse.sessionIds, bare]

theorem reply_own (t : HttpTransport ω) (status : Nat) (type body : Bytes) (id : SessionId) :
    (reply t ⟨status, type, body, sessionHeader id⟩).AdvertisesLive ↔ id = [] ∨ id ∈ t.sessions := by
  rw [advertisesLive_reply]
  constructor
  · intro live
    by_cases unnamed : id = []
    · exact .inl unnamed
    · exact .inr (live id ((mem_sessionHeader status type body id id).mpr ⟨rfl, unnamed⟩))
  · intro live other member
    obtain ⟨rfl, named⟩ := (mem_sessionHeader status type body id other).mp member
    exact live.resolve_left named

end Handled

namespace HttpEnv

variable (env : HttpEnv ω)

theorem mem_firstResponse (id other : SessionId) (calls : List Json) :
    other ∈ (env.firstResponse id calls).flatMap HttpWrite.sessionIds ↔
      other = id ∧ id ≠ [] ∧ calls ≠ [] := by
  cases calls with
  | nil => simp [firstResponse]
  | cons resp calls =>
    simp [firstResponse, HttpWrite.sessionIds, jsonResponse, mem_sessionHeader]

/-- The session of a handled message is advertised if it was answered or acknowledged. -/
theorem mem_deliver_advertised (handler : MessageHandler ω) (t : HttpTransport ω) (message : Json)
    (parsed : ParsedMessage) (id other : SessionId) :
    other ∈ (env.deliver handler t message parsed id).advertised ↔ other = id ∧ id ≠ [] ∧
      ((handler t.world message id false).2.emitted ≠ [] ∨
        (handler t.world message id false).2.threw = none ∧ parsed.isNotification = true) := by
  obtain ⟨written, -⟩ := env.callHandler_fields handler t message parsed id
  have first := env.mem_firstResponse id other (handler t.world message id false).2.emitted
  rw [← written] at first
  have returned := env.callHandler_returned handler t message parsed id
  cases acknowledged : (handler t.world message id false).2.threw.isNone && parsed.isNotification with
  | true =>
    have both := Bool.and_eq_true_iff.mp acknowledged
    have delivered : env.deliver handler t message parsed id =
        (env.callHandler handler t message parsed id).1.write
          ⟨202, textPlain, [], sessionHeader id⟩ := by
      dsimp only [deliver]
      rw [returned, acknowledged]
      rfl
    rw [delivered]
    simp only [Handled.advertised, Handled.write, List.flatMap_append, List.mem_append, first,
      List.flatMap_singleton, HttpWrite.sessionIds, mem_sessionHeader]
    have quiet : (handler t.world message id false).2.threw = none :=
      Option.isNone_iff_eq_none.mp both.1
    simp [quiet, both.2]
    tauto
  | false =>
    have delivered : env.deliver handler t message parsed id =
        (env.callHandler handler t message parsed id).1 := by
      dsimp only [deliver]
      rw [returned, acknowledged]
      rfl
    rw [delivered]
    have not : ¬ ((handler t.world message id false).2.threw = none ∧
        parsed.isNotification = true) := by
      rw [← Option.isNone_iff_eq_none, ← Bool.and_eq_true_iff, acknowledged]
      simp
    simp only [Handled.advertised, first, not, or_false]

/-- The answers to an `initialize` advertise its session, and stand if the session does. -/
theorem greeting_advertisesLive_iff {t resolved : HttpTransport ω} {newId : SessionId}
    (created : env.createSession t newId = some resolved) (handler : MessageHandler ω)
    (message : Json) {parsed : ParsedMessage} (greets : parsed.isInitialize = true) :
    (env.deliver handler resolved message parsed newId).AdvertisesLive ↔
      (newId ≠ [] → succeeds (handler resolved.world message newId false).2 = true ∨
        (handler resolved.world message newId false).2.emitted = [] ∧
          ((handler resolved.world message newId false).2.threw ≠ none ∨
            parsed.isNotification = false)) := by
  have sessions := env.deliver_sessions handler resolved message parsed newId
  have fresh : resolved.sessions.lookup newId = some { sessionId := newId } := by
    rw [env.createSession_sessions created, AList.lookup_insert]
  rw [if_pos greets, fresh] at sessions
  have stays : newId ∈ (env.deliver handler resolved message parsed newId).transport.sessions ↔
      succeeds (handler resolved.world message newId false).2 = true := by
    rw [sessions]
    split
    · rename_i succeeded
      simp [succeeded]
    · rename_i failed
      simp [failed]
  have advertised := env.mem_deliver_advertised handler resolved message parsed newId
  constructor
  · intro live named
    by_cases succeeded : succeeds (handler resolved.world message newId false).2 = true
    · exact .inl succeeded
    · have silent := mt (live newId) (mt stays.mp succeeded)
      rw [advertised] at silent
      simp only [true_and, named, ne_eq, not_false_eq_true, not_or, not_not, not_and,
        Bool.not_eq_true] at silent
      exact .inr ⟨silent.1, or_iff_not_imp_left.mpr fun quiet => silent.2 (not_not.mp quiet)⟩
  · intro fits other member
    obtain ⟨rfl, named, spoke⟩ := (advertised other).mp member
    rcases fits named with succeeded | ⟨silent, unacknowledged⟩
    · exact stays.mpr succeeded
    · rcases spoke with emitted | ⟨quiet, notification⟩
      · exact absurd silent emitted
      · rcases unacknowledged with threw | answerable
        · exact absurd quiet threw
        · rw [notification] at answerable
          cases answerable

theorem found_mem {t : HttpTransport ω} (named : t.All Named) {id : SessionId}
    {session : HttpSession} (found : t.findSession id = some session) :
    session.sessionId ∈ t.sessions := by
  have stored := (HttpTransport.findSession_some found).2
  have own : session.sessionId = id := named _ _ stored
  rw [own, ← AList.lookup_isSome, stored]
  rfl

theorem handlePostBatch_advertisesLive {t : HttpTransport ω} (named : t.All Named)
    (batch : List Json) (reqId : SessionId) :
    (env.handlePostBatch t batch reqId).AdvertisesLive := by
  unfold handlePostBatch
  split
  · exact Handled.bare_advertisesLive t rfl
  split
  · exact Handled.bare_advertisesLive t rfl
  split
  · exact Handled.bare_advertisesLive t rfl
  split
  · rename_i session found live
    have stays := found_mem named found
    dsimp only
    split
    · exact (Handled.reply_own _ _ _ _ _).mpr (.inr stays)
    · exact (Handled.reply_own _ _ _ _ _).mpr (.inr stays)
  · exact Handled.bare_advertisesLive t rfl

theorem resolveSession_bare {t : HttpTransport ω} {newId reqId : SessionId} {parsed : ParsedMessage}
    {r : HttpResponse} (refused : env.resolveSession t newId parsed reqId = .error r) :
    r.extraHeaders = [] := by
  unfold resolveSession at refused
  repeat' split at refused
  all_goals cases refused
  all_goals rfl

variable {t : HttpTransport ω} {newId : SessionId} {req : HttpRequest}

/-- What is not read as a single message says nothing about a session that is not there. -/
theorem namesLive_of_unread (unread : ∀ message, env.postBody req = some (.value message) →
    message.isArray = true) : env.NamesLive t newId req := by
  constructor
  · intro message resp _ body single
    rw [unread message body] at single
    cases single
  · intro handler resolved message _ _ dispatches
    have single := dispatches.2.1
    rw [unread message dispatches.1] at single
    cases single

theorem namesLive_rejected (posts : env.PostsTo req) {message : Json}
    (body : env.postBody req = some (.value message)) (single : message.isArray = false)
    {resp : JsonRpcErrorResponse} (parsed : parseMessage message = .error resp) :
    env.NamesLive t newId req ↔ req.sessionId = [] ∨ req.sessionId ∈ t.sessions := by
  constructor
  · intro names
    exact names.rejected message resp posts body single parsed
  · intro live
    refine ⟨fun _ _ _ _ _ _ => live, ?_⟩
    intro handler resolved other _ _ dispatches
    exact absurd dispatches (env.not_dispatches_error body parsed resolved other newId)

theorem namesLive_undelivered {message : Json} (body : env.postBody req = some (.value message))
    (valid : ∀ resp, parseMessage message ≠ .error resp)
    (undelivered : env.messageHandler = none ∨ (∀ resolved other, ¬ env.Dispatches t newId req
      resolved other newId) ∨ (parseMessage message).isInitialize = false) :
    env.NamesLive t newId req := by
  constructor
  · intro other resp _ read _ parsed
    rw [body] at read
    cases read
    exact absurd parsed (valid resp)
  · intro handler resolved other _ installed dispatches _ greets
    rcases undelivered with missing | never | later
    · rw [missing] at installed
      cases installed
    · exact absurd dispatches (never resolved other)
    · have read := dispatches.1
      rw [body] at read
      cases read
      rw [later] at greets
      cases greets

theorem namesLive_greeting (posts : env.PostsTo req) {handler : MessageHandler ω}
    (installed : env.messageHandler = some handler) {resolved : HttpTransport ω} {message : Json}
    (dispatches : env.Dispatches t newId req resolved message newId)
    (greets : (parseMessage message).isInitialize = true) :
    env.NamesLive t newId req ↔
      (newId ≠ [] → succeeds (handler resolved.world message newId false).2 = true ∨
        (handler resolved.world message newId false).2.emitted = [] ∧
          ((handler resolved.world message newId false).2.threw ≠ none ∨
            (parseMessage message).isNotification = false)) := by
  constructor
  · intro names named
    exact names.greeted handler resolved message posts installed dispatches named greets
  · intro fits
    constructor
    · intro other resp _ body _ parsed
      have read := dispatches.1
      rw [body] at read
      cases read
      exact absurd parsed (dispatches.2.2.1 resp)
    · intro handler' resolved' message' _ installed' dispatches' named _
      obtain ⟨rfl, rfl, -⟩ := dispatches.unique dispatches'
      rw [installed] at installed'
      cases installed'
      exact fits named

theorem postMessage_advertisesLive_iff (named : t.All Named) (posts : env.PostsTo req)
    {message : Json} (body : env.postBody req = some (.value message))
    (single : message.isArray = false) :
    (env.postMessage t newId message req.sessionId).AdvertisesLive ↔ env.NamesLive t newId req := by
  cases env.postMessage_cases t newId message req.sessionId with
  | rejected resp parsed replies =>
    rw [replies, env.namesLive_rejected posts body single parsed]
    exact Handled.reply_own _ _ _ _ _
  | refused valid r session replies =>
    rw [replies]
    refine iff_of_true (Handled.bare_advertisesLive t (env.resolveSession_bare session)) ?_
    refine env.namesLive_undelivered body valid (.inr (.inl ?_))
    rintro resolved other ⟨read, -, -, found⟩
    rw [body] at read
    cases read
    have failed := session.symm.trans found
    cases failed
  | unhandled valid missing resolved id session replies =>
    rw [replies]
    exact iff_of_true (Handled.bare_advertisesLive _ rfl)
      (env.namesLive_undelivered body valid (.inl missing))
  | delivered valid handler installed resolved id session delivers =>
    have dispatches : env.Dispatches t newId req resolved message id :=
      ⟨body, single, valid, session⟩
    rw [delivers]
    rcases env.resolveSession_ok session with ⟨greets, -, rfl, created⟩ |
      ⟨later, rfl, stored, present, -, own⟩
    · rw [env.namesLive_greeting posts installed dispatches greets]
      exact env.greeting_advertisesLive_iff created handler message greets
    · refine iff_of_true ?_ (env.namesLive_undelivered body valid (.inr (.inr later)))
      have sessions := env.deliver_sessions handler resolved message (parseMessage message) id
      rw [later] at sessions
      intro other member
      obtain ⟨rfl, -⟩ := (env.mem_deliver_advertised _ _ _ _ _ _).mp member
      rw [sessions, own]
      exact found_mem named present

theorem handlePost_advertisesLive_iff (named : t.All Named) (posts : env.PostsTo req)
    (allowed : env.guarded req = none) :
    (env.handlePost t newId req).AdvertisesLive ↔ env.NamesLive t newId req := by
  cases env.handlePost_read t newId allowed with
  | refused r bare replies unread fits =>
    rw [replies]
    refine iff_of_true (Handled.bare_advertisesLive t bare) (env.namesLive_of_unread ?_)
    exact fun message body => absurd body (unread message)
  | overflow body throws =>
    rw [throws]
    refine iff_of_true ?_ (env.namesLive_of_unread ?_)
    · intro id member
      cases member
    · intro message read
      rw [body] at read
      cases read
  | batch messages body handles =>
    rw [handles]
    refine iff_of_true (env.handlePostBatch_advertisesLive named messages _)
      (env.namesLive_of_unread ?_)
    intro message read
    rw [body] at read
    cases read
    rfl
  | message message single body handles =>
    rw [handles]
    exact env.postMessage_advertisesLive_iff named posts body single

/-- A POST is answered under a session that is there exactly if it names one. -/
theorem post_advertisesLive_iff (streamable : env.config.mode = .streamableHttp)
    (named : t.All Named) (conn : Nat) (newId : SessionId) (post : req.method = ascii "POST") :
    (env.handleRequest t conn newId req).AdvertisesLive ↔ env.NamesLive t newId req := by
  have method : ¬ req.method = ascii "OPTIONS" := by
    rw [post]
    decide
  unfold handleRequest
  cases allowed : env.guarded req with
  | some why =>
    refine iff_of_true (Handled.bare_advertisesLive t rfl) (env.namesLive_of_unread ?_)
    intro message body
    have refused : env.postBody req = none := if_neg fun tests => by
      rw [allowed] at tests
      cases tests.1
    rw [refused] at body
    cases body
  | none =>
    simp only [streamable, if_neg method]
    by_cases path : pathOnly req.url = env.config.path
    · rw [if_pos ⟨path, post⟩]
      exact env.handlePost_advertisesLive_iff named ⟨post, path⟩ allowed
    · simp only [path, false_and, if_false]
      refine iff_of_true (Handled.bare_advertisesLive t rfl) ⟨?_, ?_⟩
      · intro message resp posts
        exact absurd posts.2 path
      · intro handler resolved message posts
        exact absurd posts.2 path

end HttpEnv

namespace HttpListener

/-- A property of every POST of a run, in the state it finds. -/
def EachPost (env : HttpEnv ω) (world : ω) (events : List (Option (MessageHandler ω) × HttpEvent))
    (P : HttpEnv ω → HttpTransport ω → Nat → SessionId → HttpRequest → Prop) : Prop :=
  ∀ before handler conn newId req after l,
    events = before ++ (handler, .request conn newId req) :: after →
    run (stepUnder env) (initial world) before = some l → req.method = ascii "POST" →
    P { env with messageHandler := handler } l.transport conn newId req

/-- No response of a run advertises a session that is gone exactly if every POST of it names
    a session that stays. -/
theorem advertised_sessions_live_iff (env : HttpEnv ω)
    (streamable : env.config.mode = .streamableHttp) (world : ω)
    (events : List (Option (MessageHandler ω) × HttpEvent)) :
    EachPost env world events (fun env t conn newId req =>
        (env.handleRequest t conn newId req).AdvertisesLive) ↔
      EachPost env world events (fun env t _ newId req => env.NamesLive t newId req) := by
  have same {before : List (Option (MessageHandler ω) × HttpEvent)} {l : HttpListener ω}
      (ran : run (stepUnder env) (initial world) before = some l)
      (handler : Option (MessageHandler ω)) (conn : Nat) (newId : SessionId) {req : HttpRequest}
      (post : req.method = ascii "POST") :=
    HttpEnv.post_advertisesLive_iff { env with messageHandler := handler } streamable
      (runUnder_all named_property streamable ran) conn newId post
  constructor
  · intro live before handler conn newId req after l split ran post
    exact (same ran handler conn newId post).mp
      (live before handler conn newId req after l split ran post)
  · intro names before handler conn newId req after l split ran post
    exact (same ran handler conn newId post).mpr
      (names before handler conn newId req after l split ran post)

/-- The answer of the POST in `acceptedThenHello`, compared with the sessions behind it. -/
def helloAdvertises (world : Server Unit) : Option (List SessionId × List SessionId) :=
  (run (stepUnder quietEnv) (initial world) (acceptedThenHello.take 2)).map fun l =>
    let env : HttpEnv (Server Unit) := { quietEnv with messageHandler := some quietHandler }
    let h := env.handleRequest l.transport 0 (ascii "s") (requestIn "POST" [] helloText)
    (h.advertised, h.transport.sessions.keys)

theorem hello_advertises_live : EachPost quietEnv (Server.initial ()) acceptedThenHello
    fun env t _ newId req => env.NamesLive t newId req := by
  refine (advertised_sessions_live_iff quietEnv rfl (Server.initial ()) acceptedThenHello).mp ?_
  have advertised : helloAdvertises (Server.initial ()) = some ([ascii "s"], [ascii "s"]) := by
    decide +kernel
  intro before handler conn newId req after l split ran post
  obtain ⟨rfl, rfl, rfl, rfl, rfl, rfl⟩ : before = acceptedThenHello.take 2 ∧
      handler = some quietHandler ∧ conn = 0 ∧ newId = ascii "s" ∧
      req = requestIn "POST" [] helloText ∧ after = [] := by
    match before with
    | [] => simp [acceptedThenHello] at split
    | [a] => simp [acceptedThenHello] at split
    | [a, b] =>
      simp only [acceptedThenHello, List.cons_append, List.nil_append, List.cons.injEq,
        Prod.mk.injEq, HttpEvent.request.injEq] at split
      obtain ⟨rfl, rfl, ⟨rfl, rfl, rfl, rfl⟩, rfl⟩ := split
      exact ⟨rfl, rfl, rfl, rfl, rfl, rfl⟩
    | a :: b :: c :: before => simp [acceptedThenHello] at split
  rw [helloAdvertises, ran, Option.map_some, Option.some.injEq, Prod.mk.injEq] at advertised
  obtain ⟨named, kept⟩ := advertised
  intro id member
  rw [named] at member
  exact AList.mem_keys.mpr (kept.symm ▸ member)

/-- The initialize handler of the user's turns every client away. -/
def refusingServer : Server Unit :=
  { Server.initial () with registry := { initializeHandler := some fun _ => throw (.std "refused") } }

theorem refused_hello_advertised : ¬ EachPost quietEnv refusingServer acceptedThenHello
    fun env t conn newId req => (env.handleRequest t conn newId req).AdvertisesLive := by
  intro live
  have advertised : helloAdvertises refusingServer = some ([ascii "s"], []) := by decide +kernel
  obtain ⟨l, ran, answered⟩ := Option.map_eq_some_iff.mp advertised
  obtain ⟨named, gone⟩ := Prod.mk.inj answered
  have held := live _ (some quietHandler) 0 (ascii "s") (requestIn "POST" [] helloText) [] l rfl ran
    rfl (ascii "s") (by rw [named]; exact List.mem_singleton_self _)
  have kept := AList.mem_keys.mp held
  rw [gone] at kept
  cases kept

end HttpListener

end CppMcp
