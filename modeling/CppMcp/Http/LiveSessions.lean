import CppMcp.Http.Invocations
import CppMcp.Http.Order

namespace CppMcp

open Lib

variable {ω : Type}

/-- A step of a transport with the message handler that is installed at the time, if any. -/
def HttpListener.stepUnder (env : HttpEnv ω) :
    System (HttpListener ω) (Option (MessageHandler ω) × HttpEvent) :=
  fun l e => l.step { env with messageHandler := e.1 } e.2

/-- The session a call runs under is there, and it is open unless the call is the
    `initialize` that it was created for. -/
def Invocation.Live (call : Invocation) (newId : SessionId) (unnamed : Prop) : Prop :=
  ∃ session, call.sessions.lookup call.sessionId = some session ∧
    (session.initialized = true ∨ (parseMessage call.message).isInitialize = true ∧
      call.batch = false ∧ unnamed ∧ call.sessionId = newId)

theorem invocations_live (env : HttpEnv ω) {t : HttpTransport ω} (named : t.All Named)
    (newId : SessionId) (req : HttpRequest) :
    ∀ call ∈ env.invocations t newId req, call.Live newId (req.sessionId = []) := by
  intro call member
  unfold HttpEnv.invocations at member
  have present {session : HttpSession} (found : t.findSession req.sessionId = some session) :
      t.sessions.lookup session.sessionId = some session := by
    have stored := (HttpTransport.findSession_some found).2
    have own : session.sessionId = req.sessionId := named _ _ stored
    rw [own]
    exact stored
  split at member
  · split at member
    · split at member
      · rename_i session found
        split at member
        · rename_i live
          obtain ⟨m, -, rfl⟩ := List.mem_map.mp member
          exact ⟨session, present found, .inl live⟩
        · cases member
      · cases member
    · split at member
      · cases member
      · split at member
        · rename_i resolved id session
          cases List.mem_singleton.mp member
          rcases env.resolveSession_ok session with ⟨greets, unnamed, rfl, created⟩ |
            ⟨-, rfl, found, same, live, rfl⟩
          · refine ⟨{ sessionId := id }, ?_, .inr ⟨greets, rfl, unnamed, rfl⟩⟩
            show resolved.sessions.lookup id = _
            rw [env.createSession_sessions created, AList.lookup_insert]
          · exact ⟨found, present same, .inl live⟩
        · cases member
    · cases member
  · cases member

namespace HttpListener

theorem runUnder_all {P : SessionId → HttpSession → Prop} (prop : SessionProperty P)
    {env : HttpEnv ω} (streamable : env.config.mode = .streamableHttp) {world : ω}
    {events : List (Option (MessageHandler ω) × HttpEvent)} {l : HttpListener ω}
    (h : run (stepUnder env) (initial world) events = some l) : l.transport.All P := by
  have keeps : ∀ (l : HttpListener ω) (e : Option (MessageHandler ω) × HttpEvent) l',
      l.transport.All P → stepUnder env l e = some l' → l'.transport.All P := by
    intro l e l' all h
    have streaming : { env with messageHandler := e.1 }.config.mode = .streamableHttp := streamable
    exact step_all prop streaming l e.2 l' all h
  have start : (initial world).transport.All P := by
    intro id session present
    simp [initial] at present
  exact run_keeps keeps start h

/-- The calls a request makes are those of `invocations`, and each runs under a live session. -/
theorem messages_in_live_sessions (env : HttpEnv ω) (streamable : env.config.mode = .streamableHttp)
    {world : ω} {events : List (Option (MessageHandler ω) × HttpEvent)} {l : HttpListener ω}
    (h : run (stepUnder env) (initial world) events = some l) (handler : MessageHandler ω)
    (conn : Nat) (newId : SessionId) (req : HttpRequest) :
    let installed := { env with messageHandler := some handler }
    let calls := installed.invocations l.transport newId req
    (installed.handleRequest l.transport conn newId req).transport.world =
        calls.foldl (HttpEnv.invoke handler) l.transport.world ∧
      ∀ call ∈ calls, call.Live newId (req.sessionId = []) := by
  intro installed calls
  refine ⟨installed.handleRequest_invokes rfl streamable l.transport conn newId req, ?_⟩
  exact invocations_live installed (runUnder_all named_property streamable h) newId req

def quietHandler : MessageHandler (Server Unit) := serverHandler {}

def acceptedThenHello : List (Option (MessageHandler (Server Unit)) × HttpEvent) :=
  [(some quietHandler, .accepts), (some quietHandler, .readCompletes 0),
    (some quietHandler, .request 0 (ascii "s") (requestIn "POST" [] helloText))]

theorem hello_opens_session : ∃ l,
    run (stepUnder quietEnv) (initial (Server.initial ())) acceptedThenHello = some l ∧
    ∀ call ∈ ({ quietEnv with messageHandler := some quietHandler } : HttpEnv (Server Unit)).invocations
      l.transport [] (requestIn "POST" (ascii "s") pingText), call.Live [] (ascii "s" = []) := by
  obtain ⟨l, ran⟩ : ∃ l, run (stepUnder quietEnv) (initial (Server.initial ())) acceptedThenHello =
    some l := Option.isSome_iff_exists.mp (by decide +kernel)
  exact ⟨l, ran, (messages_in_live_sessions quietEnv rfl ran quietHandler 0 []
    (requestIn "POST" (ascii "s") pingText)).2⟩

/-- The header may be there with nothing in it. -/
def helloWithEmptyHeader : HttpRequest :=
  { requestIn "POST" [] helloText with
    headers := (ascii "mcp-session-id", []) :: (requestIn "POST" [] helloText).headers }

theorem empty_header_opens_session : ¬ ∀ (env : HttpEnv (Server Unit)) (world : Server Unit)
    (events : List (Option (MessageHandler (Server Unit)) × HttpEvent))
    (l : HttpListener (Server Unit)) (handler : MessageHandler (Server Unit)) (newId : SessionId)
    (req : HttpRequest), env.config.mode = .streamableHttp →
    run (stepUnder env) (initial world) events = some l →
    ∀ call ∈ ({ env with messageHandler := some handler } : HttpEnv (Server Unit)).invocations
      l.transport newId req, call.Live newId (req.headers.lookup (ascii "mcp-session-id") = none) := by
  intro live
  have held := live quietEnv (Server.initial ()) [] _ quietHandler (ascii "s") helloWithEmptyHeader
    rfl rfl
  let calls := ({ quietEnv with messageHandler := some quietHandler } : HttpEnv (Server Unit)).invocations
    (initial (Server.initial ())).transport (ascii "s") helloWithEmptyHeader
  have made : calls.map (fun call => (call.sessions.lookup call.sessionId).map (·.initialized)) =
      [some false] := by decide +kernel
  obtain ⟨call, only, closed⟩ : ∃ call, calls = [call] ∧
      (call.sessions.lookup call.sessionId).map (·.initialized) = some false := by
    obtain ⟨call, rest, only, first, none⟩ := List.map_eq_cons_iff.mp made
    rw [List.map_eq_nil_iff.mp none] at only
    exact ⟨call, only, first⟩
  obtain ⟨session, present, opened | ⟨-, -, absent, -⟩⟩ :=
    held call (by show call ∈ calls; rw [only]; exact List.mem_singleton_self call)
  · rw [present, Option.map_some, opened] at closed
    cases closed
  · revert absent
    decide +kernel

end HttpListener

namespace HttpEnv

def Opens (env : HttpEnv ω) (t : HttpTransport ω) (newId : SessionId) (req : HttpRequest) : Prop :=
  ∃ handler resolved message id, env.messageHandler = some handler ∧
    env.Dispatches t newId req resolved message id ∧ (parseMessage message).isInitialize = true ∧
    succeeds (handler resolved.world message id false).2 = true

theorem post_restores_sessions (env : HttpEnv ω) (streamable : env.config.mode = .streamableHttp)
    {t : HttpTransport ω} (conn : Nat) {newId : SessionId} (fresh : newId ∉ t.sessions)
    {req : HttpRequest} (post : req.method = ascii "POST") (fails : ¬ env.Opens t newId req) :
    (env.handleRequest t conn newId req).transport.sessions = t.sessions := by
  have undone {resolved : HttpTransport ω} (created : env.createSession t newId = some resolved) :
      resolved.sessions.erase newId = t.sessions := by
    rw [env.createSession_sessions created]
    exact erase_insert fresh _
  cases env.handleRequest_handling streamable t conn newId req with
  | stays same => rw [same]
  | opens get =>
    rw [get] at post
    exact absurd post (by decide)
  | deletes delete =>
    rw [delete] at post
    exact absurd post (by decide)
  | unhandled post created missing left =>
    rw [left]
    exact undone created
  | batch post installed body found live handled => rw [handled]
  | @single handler resolved message id post installed dispatches delivers =>
    rw [delivers, env.deliver_sessions]
    rcases env.resolveSession_ok dispatches.2.2.2 with ⟨greets, -, rfl, created⟩ | ⟨later, rfl, -⟩
    · have failed : ¬ succeeds (handler resolved.world message id false).2 = true :=
        fun succeeded =>
          fails ⟨handler, resolved, message, id, installed, dispatches, greets, succeeded⟩
      rw [if_pos greets, if_neg failed]
      exact undone created
    · rw [later]
      rfl

end HttpEnv

namespace HttpListener

/-- Between POSTs every session is open and stored under its own id, and a POST that opens
    none leaves the sessions as they were. -/
theorem no_session_half_registered (env : HttpEnv ω)
    (streamable : env.config.mode = .streamableHttp) {world : ω}
    {events : List (Option (MessageHandler ω) × HttpEvent)} {l : HttpListener ω}
    (h : run (stepUnder env) (initial world) events = some l) :
    (∀ id session, l.transport.sessions.lookup id = some session →
      session.initialized = true ∧ session.sessionId = id) ∧
    ∀ (handler : Option (MessageHandler ω)) (conn : Nat) (newId : SessionId) (req : HttpRequest),
      newId ∉ l.transport.sessions → req.method = ascii "POST" →
      ¬ ({ env with messageHandler := handler } : HttpEnv ω).Opens l.transport newId req →
      (({ env with messageHandler := handler } : HttpEnv ω).handleRequest l.transport conn newId
        req).transport.sessions = l.transport.sessions := by
  constructor
  · intro id session present
    exact (runUnder_all opened_property streamable h id session present).symm
  · intro handler conn newId req fresh post fails
    exact HttpEnv.post_restores_sessions { env with messageHandler := handler } streamable conn
      fresh post fails

theorem hello_leaves_session_open : ∃ l session,
    run (stepUnder quietEnv) (initial (Server.initial ())) acceptedThenHello = some l ∧
    l.transport.sessions.lookup (ascii "s") = some session ∧ session.initialized = true := by
  have opened : (run (stepUnder quietEnv) (initial (Server.initial ())) acceptedThenHello).bind
      (fun l => (l.transport.sessions.lookup (ascii "s")).map (·.sessionId)) = some (ascii "s") := by
    decide +kernel
  obtain ⟨l, ran, found⟩ := Option.bind_eq_some_iff.mp opened
  obtain ⟨session, present, -⟩ := Option.map_eq_some_iff.mp found
  exact ⟨l, session, ran, present,
    ((no_session_half_registered quietEnv rfl ran).1 (ascii "s") session present).1⟩

end HttpListener

end CppMcp
