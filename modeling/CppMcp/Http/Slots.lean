import CppMcp.Lib.Run
import CppMcp.Http.Transport

namespace CppMcp

open Lib

/-- No handler of the connection runs, its handler dispatches the bytes of a read, or it has
    found the connection active and goes on to the next read. -/
inductive ConnectionPhase where
  | idle
  | dispatching
  | arming
deriving DecidableEq

/-- The part of an `HttpConnection` that decides over its slot. `released` counts the calls of
    `on_release`, `stream` is what `on_disconnect` unregisters. -/
structure AcceptedConnection where
  active : Bool := true
  socketOpen : Bool := true
  reading : Bool := true
  phase : ConnectionPhase := .idle
  released : Nat := 0
  stream : Option SseRegistry := none
deriving DecidableEq

/-- A transport with the connections it has accepted, each known by its place. -/
structure HttpListener (ω : Type) where
  transport : HttpTransport ω
  connections : List AcceptedConnection := []
  activeConnectionCount : Nat := 0
  running : Bool := true

/-- What happens to a listener. `finishes` is the end of the dispatch loop and `arms` the
    `async_read` behind it; a wait of the read timer that has expired is not cancelled any
    more, and an overflow of a write queue is a failed write. -/
inductive HttpEvent where
  | accepts
  | readCompletes (conn : Nat)
  | request (conn : Nat) (newId : SessionId) (req : HttpRequest)
  | parseFails (conn : Nat)
  | finishes (conn : Nat)
  | arms (conn : Nat)
  | readFails (conn : Nat)
  | timesOut (conn : Nat)
  | writeFails (conn : Nat)
  | sweeps (ids : List SessionId)
  | stops
deriving DecidableEq

variable {ω : Type}

/-- `on_disconnect`. -/
def HttpTransport.unregister (t : HttpTransport ω) (conn : Nat) :
    Option SseRegistry → HttpTransport ω
  | none => t
  | some .legacy => { t with activeSseConnections := t.activeSseConnections.erase conn }
  | some (.session id) =>
    match t.sessions.lookup id with
    | none => t
    | some session =>
      let left := { session with sseConnections := session.sseConnections.erase conn }
      { t with sessions := t.sessions.insert id left }

namespace HttpListener

def initial (world : ω) : HttpListener ω := { transport := { world } }

def update (l : HttpListener ω) (conn : Nat) (f : AcceptedConnection → AcceptedConnection) :
    HttpListener ω := { l with connections := l.connections.modify conn f }

/-- `on_error`, whose `on_release` gives the slot back. -/
def onError (l : HttpListener ω) (conn : Nat) : HttpListener ω :=
  match l.connections[conn]? with
  | none => l
  | some c =>
    if c.active then
      { l with
        transport := l.transport.unregister conn c.stream
        connections :=
          l.connections.set conn { c with active := false, released := c.released + 1 }
        activeConnectionCount := l.activeConnectionCount - 1 }
    else l

def close (l : HttpListener ω) (conn : Nat) : HttpListener ω :=
  (l.update conn fun c => { c with socketOpen := false }).onError conn

def closeAll (l : HttpListener ω) (conns : List Nat) : HttpListener ω := conns.foldl close l

/-- `do_accept`: above the cap the socket is answered with a 503 and dropped. -/
def accept (env : HttpEnv ω) (l : HttpListener ω) : HttpListener ω :=
  if 0 < env.config.maxConnections ∧ env.config.maxConnections ≤ l.activeConnectionCount then l
  else { l with
    connections := l.connections ++ [{}]
    activeConnectionCount := l.activeConnectionCount + 1 }

/-- A call of `handle_request` in the dispatch loop. An exception leaves the loop and the
    handler of the connection. -/
def onRequest (env : HttpEnv ω) (l : HttpListener ω) (conn : Nat) (newId : SessionId)
    (req : HttpRequest) : HttpListener ω :=
  let h := env.handleRequest l.transport conn newId req
  let l := { l with transport := h.transport }
  let l := l.update conn fun c => { c with
    active := c.active && !h.cleared
    stream := h.stream <|> c.stream
    phase := if h.threw then .idle else c.phase }
  l.closeAll h.closed

/-- Drop sessions and close their streams. -/
def reap (l : HttpListener ω) (ids : List SessionId) : HttpListener ω :=
  let streams := ids.flatMap fun id =>
    ((l.transport.sessions.lookup id).map HttpSession.sseConnections).getD []
  let sessions := ids.foldl (fun sessions id => sessions.erase id) l.transport.sessions
  { l with transport := { l.transport with sessions } }.closeAll streams

def stop (l : HttpListener ω) : HttpListener ω :=
  let streams := l.transport.activeSseConnections
  let l := { l with
    running := false
    transport := { l.transport with activeSseConnections := [] } }.closeAll streams
  l.reap l.transport.sessions.keys

/-- A step of the handler of one connection, if the connection is ready for it. -/
def onConnection (l : HttpListener ω) (conn : Nat) (ready : AcceptedConnection → Bool)
    (next : HttpListener ω) : Option (HttpListener ω) :=
  if (l.connections[conn]?).any ready then some next else none

def step (env : HttpEnv ω) (l : HttpListener ω) : HttpEvent → Option (HttpListener ω)
  | .accepts => some (l.accept env)
  | .readCompletes conn =>
    l.onConnection conn (fun c => c.phase = .idle ∧ c.reading)
      (l.update conn fun c => { c with reading := false, phase := .dispatching })
  | .request conn newId req =>
    l.onConnection conn (fun c => c.phase = .dispatching) (l.onRequest env conn newId req)
  | .parseFails conn =>
    l.onConnection conn (fun c => c.phase = .dispatching)
      ((l.update conn fun c => { c with phase := .idle }).onError conn)
  | .finishes conn =>
    l.onConnection conn (fun c => c.phase = .dispatching)
      (l.update conn fun c => { c with phase := if c.active then .arming else .idle })
  | .arms conn =>
    l.onConnection conn (fun c => c.phase = .arming)
      (l.update conn fun c => { c with reading := true, phase := .idle })
  | .readFails conn =>
    l.onConnection conn (fun c => c.phase = .idle ∧ c.reading)
      ((l.update conn fun c => { c with reading := false }).onError conn)
  | .timesOut conn => l.onConnection conn (fun c => c.phase = .idle) (l.close conn)
  | .writeFails conn => l.onConnection conn (fun _ => true) (l.onError conn)
  | .sweeps ids => if l.running then some (l.reap ids) else none
  | .stops => some l.stop

end HttpListener

def HttpRequest.Asks (req : HttpRequest) (path : Bytes) (method : String) : Prop :=
  HttpEnv.pathOnly req.url = path ∧ req.method = ascii method

/-- `handle_request` has a handler for the request. -/
def HttpEnv.Routed (env : HttpEnv ω) (req : HttpRequest) : Prop :=
  match env.config.mode with
  | .streamableHttp => req.Asks env.config.path "POST" ∨ req.Asks env.config.path "GET" ∨
      req.Asks env.config.path "DELETE"
  | .sse => req.Asks env.config.ssePath "GET" ∨ req.Asks env.config.messagePath "POST"

/-- The requests behind which a connection is neither read nor released: the refusals that set
    `active` to false themselves, and the exceptions that leave `handle_request`. -/
inductive HttpEnv.Strands (env : HttpEnv ω) (t : HttpTransport ω) (req : HttpRequest) : Prop
  | forbidden {why : String} (refused : env.guarded req = some why)
  | notFound (other : req.method ≠ ascii "OPTIONS") (unrouted : ¬ env.Routed req)
  | noStream (mode : env.config.mode = .streamableHttp) (asks : req.Asks env.config.path "GET")
      (unopened : ∀ session, t.findSession (req.headers.valueOf "mcp-session-id") = some session →
        (req.headers.valueOf "accept").has "text/event-stream" = false)
  | overflow (mode : env.config.mode = .streamableHttp) (asks : req.Asks env.config.path "POST")
      (typed : (req.headers.valueOf "content-type").has "application/json" = true)
      (accepts : acceptsJsonOrStream (req.headers.valueOf "accept") = true)
      (body : env.parse req.body = .outOfRange)
  | overflowMessage (mode : env.config.mode = .sse) (asks : req.Asks env.config.messagePath "POST")
      (body : env.parse req.body = .outOfRange)
  | thrown {message : Json} {handler : MessageHandler ω} (mode : env.config.mode = .sse)
      (asks : req.Asks env.config.messagePath "POST") (body : env.parse req.body = .value message)
      (installed : env.messageHandler = some handler)
      (threw : (handler t.world message [] false).2.threw = some .other)

/-- Handling a request left the connection to its dispatch loop. -/
def Handled.Continues (h : Handled ω) : Prop := h.cleared = false ∧ h.threw = false

theorem reply_continues (t : HttpTransport ω) (r : HttpResponse) : (reply t r).Continues := ⟨rfl, rfl⟩

namespace HttpEnv

variable (env : HttpEnv ω)

theorem sink_continues {h : Handled ω} (continues : h.Continues) (resp : Json) :
    (env.sink h resp).Continues := by
  unfold sink
  split <;> exact continues

theorem sinks_continue {h : Handled ω} (continues : h.Continues) (resps : List Json) :
    (resps.foldl env.sink h).Continues := by
  induction resps generalizing h with
  | nil => exact continues
  | cons resp resps ih => exact ih (env.sink_continues continues resp)

theorem commitSession_continues {h : Handled ω} (continues : h.Continues) (id : SessionId)
    (ok : Bool) : (commitSession h id ok).Continues := by
  simp only [commitSession]
  split
  · split <;> exact continues
  · exact continues

theorem deliver_continues (handler : MessageHandler ω) (t : HttpTransport ω) (message : Json)
    (parsed : ParsedMessage) (id : SessionId) :
    (env.deliver handler t message parsed id).Continues := by
  have called : (env.callHandler handler t message parsed id).1.Continues := by
    dsimp only [callHandler]
    split
    · exact commitSession_continues (env.sinks_continue (h := _) ⟨rfl, rfl⟩ _) _ _
    · exact env.sinks_continue (h := _) ⟨rfl, rfl⟩ _
  dsimp only [deliver]
  split <;> exact called

theorem postMessage_continues (t : HttpTransport ω) (newId : SessionId) (message : Json)
    (reqId : SessionId) : (env.postMessage t newId message reqId).Continues := by
  unfold postMessage
  split
  · exact reply_continues _ _
  · split
    · exact reply_continues _ _
    · split
      · exact env.deliver_continues _ _ _ _ _
      · exact reply_continues _ _

theorem handlePostBatch_continues (t : HttpTransport ω) (batch : List Json) (reqId : SessionId) :
    (env.handlePostBatch t batch reqId).Continues := by
  unfold handlePostBatch
  repeat' split
  all_goals exact reply_continues _ _

theorem handlePost_continues {t : HttpTransport ω} {newId : SessionId} {req : HttpRequest}
    (body : (req.headers.valueOf "content-type").has "application/json" = true →
      acceptsJsonOrStream (req.headers.valueOf "accept") = true →
      env.parse req.body ≠ .outOfRange) : (env.handlePost t newId req).Continues := by
  unfold handlePost
  split
  · exact reply_continues _ _
  split
  · exact reply_continues _ _
  rename_i typed accepts
  split
  · exact absurd ‹_› (body (by simpa using typed) (by simpa using accepts))
  · exact reply_continues _ _
  · exact env.handlePostBatch_continues _ _ _
  · exact env.postMessage_continues _ _ _ _

theorem handleGetSse_continues {t : HttpTransport ω} {conn : Nat} {req : HttpRequest}
    {session : HttpSession} (found : t.findSession (req.headers.valueOf "mcp-session-id") = some session)
    (accepts : (req.headers.valueOf "accept").has "text/event-stream" = true) :
    (handleGetSse t conn req).Continues := by
  simp only [handleGetSse, found, accepts, if_true]
  exact ⟨rfl, rfl⟩

theorem handleDelete_continues (t : HttpTransport ω) (req : HttpRequest) :
    (handleDelete t req).Continues := by
  unfold handleDelete
  split
  · exact reply_continues _ _
  · exact ⟨rfl, rfl⟩

theorem handleSseMessage_continues {t : HttpTransport ω} {req : HttpRequest}
    (body : env.parse req.body ≠ .outOfRange)
    (returns : ∀ message handler, env.parse req.body = .value message →
      env.messageHandler = some handler → (handler t.world message [] false).2.threw ≠ some .other) :
    (env.handleSseMessage t req).Continues := by
  unfold handleSseMessage
  split
  · exact absurd ‹_› body
  · exact reply_continues _ _
  · rename_i message parsed
    split
    · exact reply_continues _ _
    · rename_i handler installed
      let outcome := (handler t.world message [] false).2
      let start : Handled ω :=
        { transport := { t with world := (handler t.world message [] false).1 }
          deferred := outcome.deferred }
      have called := env.sinks_continue (h := start) ⟨rfl, rfl⟩ outcome.emitted
      dsimp only
      cases threw : (handler t.world message [] false).2.threw with
      | none => exact called
      | some thrown =>
        cases thrown with
        | parseError => exact called
        | other => exact absurd threw (returns message handler parsed installed)

/-- Every other request leaves its connection to the dispatch loop. -/
theorem handleRequest_continues {t : HttpTransport ω} {conn : Nat} {newId : SessionId}
    {req : HttpRequest} (kept : ¬ env.Strands t req) :
    (env.handleRequest t conn newId req).Continues := by
  unfold handleRequest
  split
  · exact absurd (.forbidden ‹_›) kept
  split
  · exact reply_continues _ _
  rename_i other
  have routed : env.Routed req := by_contra fun unrouted => kept (.notFound other unrouted)
  unfold Routed HttpRequest.Asks at routed
  cases mode : env.config.mode with
  | streamableHttp =>
    simp only [mode] at routed ⊢
    split
    · exact env.handlePost_continues fun typed accepts body =>
        kept (.overflow mode ‹_› typed accepts body)
    split
    · rename_i asks
      by_contra stops
      refine kept (.noStream mode asks fun session found => ?_)
      cases accepts : (req.headers.valueOf "accept").has "text/event-stream" with
      | false => rfl
      | true => exact absurd (handleGetSse_continues found accepts) stops
    split
    · exact handleDelete_continues _ _
    · rename_i post get delete
      exact absurd routed (by simp only [post, get, delete, or_self, not_false_eq_true])
  | sse =>
    simp only [mode] at routed ⊢
    split
    · exact ⟨rfl, rfl⟩
    split
    · rename_i asks
      refine env.handleSseMessage_continues (fun body => kept (.overflowMessage mode asks body)) ?_
      exact fun message handler body installed threw =>
        kept (.thrown mode asks body installed threw)
    · rename_i get post
      exact absurd routed (by simp only [get, post, or_self, not_false_eq_true])

end HttpEnv

namespace AcceptedConnection

/-- A read of the open socket is outstanding. A read of a closed socket is already cancelled. -/
def outstanding (c : AcceptedConnection) : Bool := c.reading && c.socketOpen

/-- `on_error` on the connection. -/
def disconnected (c : AcceptedConnection) : AcceptedConnection :=
  if c.active then { c with active := false, released := c.released + 1 } else c

structure Sound (c : AcceptedConnection) : Prop where
  released : c.released = if c.active then 0 else 1
  opened : c.active = true → c.socketOpen = true
  settled : c.phase = .idle → c.active = c.outstanding
  busy : c.phase ≠ .idle → c.reading = false
  arming : c.phase = .arming → c.active = c.socketOpen

theorem Sound.disconnected {c : AcceptedConnection} (released : c.released = if c.active then 0 else 1)
    (settled : c.phase = .idle → c.outstanding = false) (busy : c.phase ≠ .idle → c.reading = false)
    (arming : c.phase = .arming → c.socketOpen = false) : c.disconnected.Sound := by
  unfold AcceptedConnection.disconnected
  cases active : c.active with
  | true =>
    rw [active] at released
    exact ⟨by simpa using released, by simp, fun idle => (settled idle).symm, busy,
      fun armed => (arming armed).symm⟩
  | false =>
    exact ⟨released, by simp [active], fun idle => active.trans (settled idle).symm, busy,
      fun armed => active.trans (arming armed).symm⟩

theorem Sound.closed {c : AcceptedConnection} (sound : c.Sound) :
    ({ c with socketOpen := false } : AcceptedConnection).disconnected.Sound :=
  .disconnected sound.released (fun _ => Bool.and_false _) sound.busy fun _ => rfl

end AcceptedConnection

namespace HttpListener

structure Sound (l : HttpListener ω) : Prop where
  each : ∀ c ∈ l.connections, c.Sound
  count : l.activeConnectionCount = l.connections.countP (·.active)

theorem Sound.modify {l l' : HttpListener ω} (sound : l.Sound) {conn : Nat}
    {f : AcceptedConnection → AcceptedConnection}
    (connections : l'.connections = l.connections.modify conn f)
    (keeps : ∀ c, l.connections[conn]? = some c → c.Sound → (f c).Sound)
    (count : ∀ c, l.connections[conn]? = some c → l'.activeConnectionCount +
      (if c.active then 1 else 0) = l.activeConnectionCount + if (f c).active then 1 else 0)
    (absent : l.connections[conn]? = none → l'.activeConnectionCount = l.activeConnectionCount) :
    l'.Sound := by
  cases found : l.connections[conn]? with
  | none =>
    have same : l'.connections = l.connections := by
      rw [connections, List.modify_eq_self (List.getElem?_eq_none_iff.mp found)]
    exact ⟨same ▸ sound.each, by rw [absent found, same, sound.count]⟩
  | some c =>
    obtain ⟨bound, at_conn⟩ := List.getElem?_eq_some_iff.mp found
    obtain ⟨front, b, back, split, place, modified⟩ := List.exists_of_modify f bound
    have same : b = c := by simpa [split, ← place] using at_conn
    subst same
    have each := sound.each
    have counted := sound.count
    have changed := count b found
    rw [split] at each counted
    simp only [List.countP_append, List.countP_cons] at counted
    rw [modified] at connections
    constructor
    · rw [connections]
      intro c' member
      rcases List.mem_append.mp member with member | member
      · exact each c' (List.mem_append_left _ member)
      rcases List.mem_cons.mp member with rfl | member
      · exact keeps b found (each b (by simp))
      · exact each c' (by simp [member])
    · rw [connections]
      simp only [List.countP_append, List.countP_cons]
      omega

theorem onError_connections (l : HttpListener ω) (conn : Nat) :
    (l.onError conn).connections = l.connections.modify conn AcceptedConnection.disconnected := by
  unfold onError
  cases found : l.connections[conn]? with
  | none => rw [List.modify_eq_self (List.getElem?_eq_none_iff.mp found)]
  | some c =>
    obtain ⟨bound, at_conn⟩ := List.getElem?_eq_some_iff.mp found
    have set : l.connections.modify conn AcceptedConnection.disconnected =
        l.connections.set conn c.disconnected := by
      rw [List.modify_eq_take_cons_drop bound, List.set_eq_take_append_cons_drop, if_pos bound,
        at_conn]
    rw [set]
    cases active : c.active with
    | true => simp [AcceptedConnection.disconnected, active]
    | false =>
      have kept : c.disconnected = c := by simp [AcceptedConnection.disconnected, active]
      rw [kept, ← at_conn, List.set_getElem_self]
      simp [at_conn, active]

theorem onError_count (l : HttpListener ω) (conn : Nat) :
    (l.onError conn).activeConnectionCount =
      if (l.connections[conn]?).any (·.active) then l.activeConnectionCount - 1
      else l.activeConnectionCount := by
  unfold onError
  cases l.connections[conn]? with
  | none => rfl
  | some c => cases active : c.active <;> simp [active]

theorem Sound.update {l : HttpListener ω} (sound : l.Sound) {conn : Nat}
    {f : AcceptedConnection → AcceptedConnection}
    (keeps : ∀ c, l.connections[conn]? = some c → c.Sound → (f c).Sound ∧ (f c).active = c.active) :
    (l.update conn f).Sound :=
  sound.modify rfl (fun c found each => (keeps c found each).1)
    (fun c found => by
      rw [(keeps c found (sound.each c (List.mem_of_getElem? found))).2]
      rfl)
    fun _ => rfl

theorem Sound.release {l : HttpListener ω} (sound : l.Sound) {conn : Nat}
    {f : AcceptedConnection → AcceptedConnection}
    (keeps : ∀ c, l.connections[conn]? = some c → c.Sound →
      (f c).disconnected.Sound ∧ (f c).active = c.active) :
    ((l.update conn f).onError conn).Sound := by
  have connections : ((l.update conn f).onError conn).connections =
      l.connections.modify conn (AcceptedConnection.disconnected ∘ f) := by
    rw [onError_connections, HttpListener.update, List.modify_modify_eq]
  refine sound.modify connections (fun c found each => (keeps c found each).1) ?_ ?_
  · intro c found
    have member := List.mem_of_getElem? found
    have active := (keeps c found (sound.each c member)).2
    have positive : c.active = true → 0 < l.activeConnectionCount := fun active => by
      rw [sound.count]
      exact List.countP_pos_iff.mpr ⟨c, member, active⟩
    rw [onError_count, HttpListener.update, List.getElem?_modify_eq, found]
    simp only [Option.map_eq_map, Option.map_some, Option.any_some, active, Function.comp,
      AcceptedConnection.disconnected]
    split
    · have := positive ‹_›
      simp
      omega
    · simp_all
  · intro absent
    rw [onError_count, HttpListener.update, List.getElem?_modify_eq, absent]
    rfl

theorem Sound.close {l : HttpListener ω} (sound : l.Sound) (conn : Nat) : (l.close conn).Sound :=
  sound.release fun _ _ each => ⟨each.closed, rfl⟩

theorem Sound.closeAll {l : HttpListener ω} (sound : l.Sound) (conns : List Nat) :
    (l.closeAll conns).Sound := by
  induction conns generalizing l with
  | nil => exact sound
  | cons conn conns ih => exact ih (sound.close conn)

/-- No step strands an active connection: no request of it is refused without `on_error` or
    throws, and no write of it fails while a read is outstanding or about to start. -/
def KeepsSlots (env : HttpEnv ω) (l : HttpListener ω) : HttpEvent → Prop
  | .request conn _ req =>
    ∀ c, l.connections[conn]? = some c → c.active = true → ¬ env.Strands l.transport req
  | .writeFails conn =>
    ∀ c, l.connections[conn]? = some c → c.active = true → c.phase = .dispatching
  | _ => True

theorem onConnection_some {l l' next : HttpListener ω} {conn : Nat}
    {ready : AcceptedConnection → Bool} (stepped : l.onConnection conn ready next = some l') :
    next = l' ∧ ∀ c, l.connections[conn]? = some c → ready c = true := by
  unfold onConnection at stepped
  split at stepped
  · rename_i able
    refine ⟨Option.some.inj stepped, fun c found => ?_⟩
    simpa [found] using able
  · cases stepped

theorem Sound.accept {l : HttpListener ω} (sound : l.Sound) (env : HttpEnv ω) :
    (l.accept env).Sound := by
  unfold HttpListener.accept
  split
  · exact sound
  · constructor
    · intro c member
      rcases List.mem_append.mp member with member | member
      · exact sound.each c member
      · rw [List.mem_singleton.mp member]
        exact ⟨rfl, fun _ => rfl, fun _ => rfl, fun busy => absurd rfl busy, fun armed => by cases armed⟩
    · simp [sound.count]

theorem Sound.reap {l : HttpListener ω} (sound : l.Sound) (ids : List SessionId) :
    (l.reap ids).Sound := by
  refine Sound.closeAll ?_ _
  exact ⟨sound.each, sound.count⟩

theorem Sound.stop {l : HttpListener ω} (sound : l.Sound) : l.stop.Sound := by
  refine Sound.reap (Sound.closeAll ?_ _) _
  exact ⟨sound.each, sound.count⟩

theorem Sound.onRequest {l : HttpListener ω} (sound : l.Sound) {env : HttpEnv ω} {conn : Nat}
    {newId : SessionId} {req : HttpRequest} (kept : l.KeepsSlots env (.request conn newId req))
    (busy : ∀ c, l.connections[conn]? = some c → c.phase = .dispatching) :
    (l.onRequest env conn newId req).Sound := by
  have stepped : ({ l with transport := (env.handleRequest l.transport conn newId req).transport } :
      HttpListener ω).Sound := ⟨sound.each, sound.count⟩
  refine (stepped.update fun c found each => ?_).closeAll _
  have phase := busy c found
  have reading : c.reading = false := each.busy (by rw [phase]; simp)
  cases active : c.active with
  | true =>
    have continues : (env.handleRequest l.transport conn newId req).Continues :=
      env.handleRequest_continues (kept c found active)
    obtain ⟨uncleared, returned⟩ := continues
    simp only [uncleared, returned]
    refine ⟨⟨by simp [each.released, active], fun _ => each.opened active, ?_, fun _ => reading, ?_⟩, rfl⟩
    · intro idle
      simp [phase] at idle
    · intro armed
      simp [phase] at armed
  | false =>
    refine ⟨⟨by simp [each.released, active], by simp, ?_, fun _ => reading, ?_⟩, rfl⟩
    · simp [AcceptedConnection.outstanding, reading]
    · intro armed
      split at armed
      · cases armed
      · simp [phase] at armed

/-- One step of the listener keeps every slot accounted for. -/
theorem step_sound {env : HttpEnv ω} {l l' : HttpListener ω} (e : HttpEvent) (sound : l.Sound)
    (kept : l.KeepsSlots env e) (stepped : l.step env e = some l') : l'.Sound := by
  cases e with
  | accepts =>
    cases stepped
    exact sound.accept env
  | readCompletes conn =>
    obtain ⟨rfl, ready⟩ := onConnection_some stepped
    refine sound.update fun c found each => ⟨⟨each.released, each.opened, ?_, ?_, ?_⟩, rfl⟩ <;> simp
  | request conn newId req =>
    obtain ⟨rfl, ready⟩ := onConnection_some stepped
    exact sound.onRequest kept fun c found => by simpa using ready c found
  | parseFails conn =>
    obtain ⟨rfl, ready⟩ := onConnection_some stepped
    refine sound.release fun c found each => ⟨.disconnected each.released ?_ ?_ ?_, rfl⟩
    · have phase : c.phase = .dispatching := by simpa using ready c found
      have reading : c.reading = false := each.busy (by rw [phase]; simp)
      simp [AcceptedConnection.outstanding, reading]
    · simp
    · simp
  | finishes conn =>
    obtain ⟨rfl, ready⟩ := onConnection_some stepped
    refine sound.update fun c found each => ?_
    have phase : c.phase = .dispatching := by simpa using ready c found
    have reading : c.reading = false := each.busy (by rw [phase]; simp)
    cases active : c.active with
    | true => exact ⟨⟨by simp [each.released, active], fun _ => each.opened active, by simp,
        fun _ => reading, fun _ => (each.opened active).symm⟩, rfl⟩
    | false => exact ⟨⟨by simp [each.released, active], by simp,
        by simp [AcceptedConnection.outstanding, reading], by simp, by simp⟩, rfl⟩
  | arms conn =>
    obtain ⟨rfl, ready⟩ := onConnection_some stepped
    refine sound.update fun c found each => ⟨⟨each.released, each.opened, ?_, by simp, by simp⟩, rfl⟩
    have phase : c.phase = .arming := by simpa using ready c found
    simp [AcceptedConnection.outstanding, each.arming phase]
  | readFails conn =>
    obtain ⟨rfl, ready⟩ := onConnection_some stepped
    refine sound.release fun c found each => ⟨.disconnected each.released ?_ (by simp) ?_, rfl⟩
    · simp [AcceptedConnection.outstanding]
    · have phase : c.phase = .idle := (by simpa using ready c found : _ ∧ _).1
      simp [phase]
  | timesOut conn =>
    obtain ⟨rfl, ready⟩ := onConnection_some stepped
    exact sound.close conn
  | writeFails conn =>
    obtain ⟨rfl, ready⟩ := onConnection_some stepped
    have same : l.update conn id = l := by simp [update]
    rw [← same]
    refine sound.release fun c found each => ⟨?_, rfl⟩
    rw [id_eq]
    cases active : c.active with
    | true =>
      have phase := kept c found active
      refine .disconnected each.released ?_ each.busy ?_ <;> simp [phase]
    | false =>
      have unchanged : c.disconnected = c := by simp [AcceptedConnection.disconnected, active]
      rwa [unchanged]
  | sweeps ids =>
    simp only [step] at stepped
    split at stepped
    · cases stepped
      exact sound.reap ids
    · cases stepped
  | stops =>
    cases stepped
    exact sound.stop

theorem initial_sound (world : ω) : (initial world).Sound :=
  ⟨fun c member => by simp [initial] at member, rfl⟩

end HttpListener

/-- In every state of a run that strands no connection, a connection without a running handler
    is released exactly once if no read of it is outstanding and not at all if one is, and the
    count is that of the connections still read. -/
theorem slots_released_once (env : HttpEnv ω) (world : ω) {events : List HttpEvent}
    {l : HttpListener ω}
    (kept : Meets (HttpListener.step env) (HttpListener.KeepsSlots env) (.initial world) events)
    (reached : run (HttpListener.step env) (.initial world) events = some l) :
    (∀ (conn : Nat) (c : AcceptedConnection), l.connections[conn]? = some c → c.phase = .idle →
      c.released = if c.outstanding then 0 else 1) ∧
    ((∀ c ∈ l.connections, c.phase = .idle) →
      l.activeConnectionCount = l.connections.countP (·.outstanding)) := by
  have sound : l.Sound := run_invariant (fun l e l' sound kept stepped =>
    HttpListener.step_sound e sound kept stepped) (HttpListener.initial_sound world) kept reached
  constructor
  · intro conn c found idle
    have each := sound.each c (List.mem_of_getElem? found)
    rw [each.released, each.settled idle]
  · intro idle
    rw [sound.count]
    refine List.countP_congr fun c member => ?_
    rw [(sound.each c member).settled (idle c member)]

def preflight (host : String) : HttpRequest where
  method := ascii "OPTIONS"
  url := ascii "/mcp"
  headers := [(ascii "host", ascii host)]
  body := []

def idleEnv : HttpEnv Unit where
  parse _ := .parseError
  dump _ := []
  messageHandler := none

/-- A connection that was read again behind its request, and that its peer then closed. -/
def closedByPeer : HttpListener Unit :=
  { HttpListener.initial () with connections := [{ active := false, reading := false, released := 1 }] }

theorem closedByPeer_released : closedByPeer.activeConnectionCount = 0 := by
  have kept : ¬ idleEnv.Strands (HttpTransport.mk () ∅ []) (preflight "localhost") := by
    intro strands
    cases strands with
    | forbidden refused => cases refused
    | notFound other => exact other rfl
    | noStream _ asks | overflow _ asks | overflowMessage _ asks | thrown _ asks =>
      exact absurd asks.2 (by decide)
  have meets : Meets (HttpListener.step idleEnv) (HttpListener.KeepsSlots idleEnv) (.initial ())
      [.accepts, .readCompletes 0, .request 0 [] (preflight "localhost"), .finishes 0, .arms 0,
        .readFails 0] := by
    refine ⟨True.intro, ?_⟩
    rintro _ ⟨⟩
    refine ⟨True.intro, ?_⟩
    rintro _ ⟨⟩
    refine ⟨fun _ _ _ => kept, ?_⟩
    rintro _ ⟨⟩
    refine ⟨True.intro, ?_⟩
    rintro _ ⟨⟩
    refine ⟨True.intro, ?_⟩
    rintro _ ⟨⟩
    exact ⟨True.intro, fun _ _ => True.intro⟩
  exact (slots_released_once idleEnv () (l := closedByPeer) meets rfl).2 (by decide)

/-- A request with a foreign `Host` is refused, and its connection is neither read nor released. -/
theorem forbidden_host_leaks : ∃ l,
    run (HttpListener.step idleEnv) (.initial ())
      [.accepts, .readCompletes 0, .request 0 [] (preflight "evil"), .finishes 0] = some l ∧
    l.connections = [{ active := false, reading := false, released := 0 }] ∧
    l.connections.countP (·.outstanding) = 0 ∧ l.activeConnectionCount = 1 :=
  ⟨_, rfl, rfl, rfl, rfl⟩

end CppMcp
