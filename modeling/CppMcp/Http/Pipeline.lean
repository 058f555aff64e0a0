import CppMcp.Http.Handling
import CppMcp.Http.Replies

namespace CppMcp

open Lib

variable {υ : Type}

/-- The sinks of requests that are with the worker pool, or on their way back from it. -/
def Server.outstanding (s : Server υ) : List Nat := s.jobs.map Job.sink ++ s.deliveries.map Prod.fst

/-- A request of the connection that was deferred, by its sink and its place among the
    requests dispatched. -/
structure DeferredPost where
  sink : Nat
  post : Nat
  sessionId : SessionId
deriving DecidableEq

/-- One connection of a transport with an `McpServer` behind it. `posts` counts the requests
    dispatched on the connection; `responses` are the HTTP responses enqueued on its write
    queue, each with the request it answers. -/
structure Pipeline (υ : Type) where
  transport : HttpTransport (Server υ)
  posts : Nat := 0
  deferred : List DeferredPost := []
  responses : List (Nat × HttpWrite) := []

/-- What can happen next: a request is dispatched on the connection or on another one, the
    server takes a step of its own, or sessions are swept. -/
inductive PipelineEvent (υ : Type) where
  | dispatches (newId : SessionId) (req : HttpRequest)
  | elsewhere (conn : Nat) (newId : SessionId) (req : HttpRequest)
  | serves (event : ServerEvent υ)
  | sweeps (ids : List SessionId)

/-- A server that stops has taken its message handler off the transport. -/
def HttpEnv.serving (env : HttpEnv (Server υ)) (info : ServerInfo) (s : Server υ) :
    HttpEnv (Server υ) :=
  { env with messageHandler := if s.stopping then none else some (serverHandler info) }

namespace Pipeline

variable (env : HttpEnv (Server υ)) (info : ServerInfo) (conn : Nat)

def dispatch (p : Pipeline υ) (newId : SessionId) (req : HttpRequest) : Pipeline υ :=
  let s := p.transport.world
  let h := (env.serving info s).handleRequest p.transport conn newId req
  { transport := h.transport
    posts := p.posts + 1
    deferred :=
      if 0 < h.deferred then p.deferred ++ [⟨s.arrivals.length, p.posts, h.sinkSession.getD []⟩]
      else p.deferred
    responses := p.responses ++ h.written.map fun w => (p.posts, w) }

/-- The call of a sink writes to the connection whose request was deferred. -/
def answer (p : Pipeline υ) (sink : Nat) (response : Json) : Pipeline υ :=
  match p.deferred.find? fun d => d.sink == sink with
  | some d =>
    let written := .response (env.jsonResponse 200 response (sessionHeader d.sessionId))
    { p with responses := p.responses ++ [(d.post, written)] }
  | none => p

def serve (p : Pipeline υ) (event : ServerEvent υ) (s : Server υ) : Pipeline υ :=
  let served := { p with transport := { p.transport with world := s } }
  match event with
  | .delivers place =>
    match p.transport.world.deliveries[place]? with
    | some (sink, response) => served.answer env sink response
    | none => served
  | _ => served

def step (p : Pipeline υ) : PipelineEvent υ → Option (Pipeline υ)
  | .dispatches newId req => some (p.dispatch env info conn newId req)
  | .elsewhere other newId req =>
    let h := (env.serving info p.transport.world).handleRequest p.transport other newId req
    some { p with transport := h.transport }
  | .serves (.arrives _ _ _) => none
  | .serves event => (p.transport.world.step info event).map (p.serve env event)
  | .sweeps ids =>
    let sessions := ids.foldl (fun sessions id => sessions.erase id) p.transport.sessions
    some { p with transport := { p.transport with sessions } }

/-- A connection that was just accepted, of a server that has not run yet. -/
def initial (user : υ) : Pipeline υ := { transport := { world := Server.initial user } }

def waiting (p : Pipeline υ) : List Nat :=
  (p.deferred.filter fun d => d.sink ∈ p.transport.world.outstanding).map DeferredPost.post

end Pipeline

/-- A POST that is not answered at once: the worker pool takes it, or it is never answered. -/
def HttpEnv.waits (env : HttpEnv (Server υ)) (t : HttpTransport (Server υ)) (newId : SessionId)
    (req : HttpRequest) : Bool :=
  decide (req.method = ascii "POST" ∧ pathOnly req.url = env.config.path) && !t.world.stopping &&
    match env.postBody req with
    | some .outOfRange => true
    | some (.value message) =>
      !message.isArray &&
        (env.resolveSession t newId (parseMessage message) req.sessionId).isOk &&
        match parseMessage message with
        | .request r => t.world.executor && isDeferrable r.method
        | .success _ => true
        | _ => false
    | _ => false

/-- No response is enqueued while an earlier request of the connection is outstanding. -/
def Pipeline.InTurn (env : HttpEnv (Server υ)) (p : Pipeline υ) : PipelineEvent υ → Prop
  | .dispatches newId req => p.waiting = [] ∨ env.waits p.transport newId req = true
  | .serves (.delivers place) =>
    match p.transport.world.deliveries[place]? with
    | some (sink, _) => ∀ d ∈ p.deferred, d.sink = sink → ∀ post ∈ p.waiting, d.post ≤ post
    | none => True
  | _ => True

variable (info : ServerInfo)

/-- A message brings a sink, and nothing but a request that is deferred leaves it in the queue. -/
theorem onMessage_queues (s : Server υ) (message : Json) (id : SessionId) (batch : Bool) :
    (s.onMessage info message id batch).arrivals = s.arrivals ++ [message] ∧
      (s.onMessage info message id batch).deliveries = s.deliveries ∧
      ((s.onMessage info message id batch).jobs = s.jobs ∨
        batch = false ∧ (s.onMessage info message id batch).answers = s.answers ∧
        ∃ req, parseMessage message = .request req ∧
          (s.onMessage info message id batch).jobs =
            s.jobs ++ [⟨s.arrivals.length, req, id⟩]) := by
  refine ⟨(onMessage_adds info s message id batch).arrivals, ?_⟩
  have turns := onMessage_turns info s message id batch
  generalize s.onMessage info message id batch = after at turns ⊢
  cases turns with
  | @serves _ _ _ req parsed =>
    have serving := (processRequest_spec info req id (s.arrived message)).2
    exact ⟨serving.deliveries, .inl serving.jobs⟩
  | @defers _ _ req parsed deferrable => exact ⟨rfl, .inr ⟨rfl, rfl, req, parsed, rfl⟩⟩
  | hears other aside => exact ⟨aside.deliveries, .inl aside.jobs⟩
  | refuses other response => exact ⟨rfl, .inl rfl⟩
  | aside quiet aside => cases quiet

theorem batch_queues (messages : List Json) (id : SessionId) (s : Server υ) :
    (messages.foldl (fun world m => (serverHandler info world m id true).1) s).jobs = s.jobs ∧
      (messages.foldl (fun world m => (serverHandler info world m id true).1) s).deliveries =
        s.deliveries ∧
      s.arrivals.length ≤
        (messages.foldl (fun world m => (serverHandler info world m id true).1) s).arrivals.length := by
  induction messages generalizing s with
  | nil => exact ⟨rfl, rfl, le_rfl⟩
  | cons m messages ih =>
    obtain ⟨jobs, deliveries, arrivals⟩ := ih (s.onMessage info m id true)
    obtain ⟨arrived, carried, queued⟩ := onMessage_queues info s m id true
    have kept : (s.onMessage info m id true).jobs = s.jobs := by
      rcases queued with kept | ⟨batch, -⟩
      · exact kept
      · cases batch
    have longer : s.arrivals.length ≤ (s.onMessage info m id true).arrivals.length := by
      rw [arrived, List.length_append]
      exact Nat.le_add_right _ _
    exact ⟨jobs.trans kept, deliveries.trans carried, longer.trans arrivals⟩

/-- Handling a request leaves at most one more sink outstanding, and then writes nothing. -/
structure Queues (s s' : Server υ) (deferred : Nat) (written : List HttpWrite) : Prop where
  single : written.length ≤ 1
  deliveries : s'.deliveries = s.deliveries
  arrivals : s.arrivals.length ≤ s'.arrivals.length
  jobs : deferred = 0 ∧ s'.jobs = s.jobs ∨
    0 < deferred ∧ written = [] ∧ s.arrivals.length < s'.arrivals.length ∧
      ∃ req id, s'.jobs = s.jobs ++ [⟨s.arrivals.length, req, id⟩]

theorem Queues.quiet {s : Server υ} {h : Handled (Server υ)} (world : h.transport.world = s)
    (deferred : h.deferred = 0) (written : h.written.length ≤ 1) :
    Queues s h.transport.world h.deferred h.written :=
  ⟨written, by rw [world], by rw [world], .inl ⟨deferred, by rw [world]⟩⟩

variable {env : HttpEnv (Server υ)}

theorem firstResponse_length (id : SessionId) (calls : List Json) :
    (env.firstResponse id calls).length ≤ 1 := by
  cases calls with
  | nil => exact Nat.zero_le 1
  | cons resp calls => exact le_rfl

theorem server_quiet (s : Server υ) (message : Json) (id : SessionId)
    (notification : (parseMessage message).isNotification = true) :
    (serverHandler info s message id false).2.emitted = [] := by
  cases parsed : parseMessage message with
  | notification notif =>
    have none := (server_behavesLikeOnMessage info).notification s message id notif parsed
    exact List.length_eq_zero_iff.mp (Nat.add_eq_zero_iff.mp none).1
  | _ => simp [parsed, ParsedMessage.isNotification] at notification

theorem deliver_written (resolved : HttpTransport (Server υ)) (message : Json) (id : SessionId) :
    (env.deliver (serverHandler info) resolved message (parseMessage message) id).written =
      if (parseMessage message).isNotification then
        [.response ⟨202, textPlain, [], sessionHeader id⟩]
      else env.firstResponse id (serverHandler info resolved.world message id false).2.emitted := by
  cases notification : (parseMessage message).isNotification with
  | false =>
    have first := env.finish_deliver (serverHandler info) resolved message id [] notification
    rwa [List.append_nil] at first
  | true =>
    have quiet := server_quiet info resolved.world message id notification
    exact env.finish_acknowledged (serverHandler info) resolved message id notification quiet

theorem deliver_queues (resolved : HttpTransport (Server υ)) (message : Json) (id : SessionId) :
    Queues resolved.world
      (env.deliver (serverHandler info) resolved message (parseMessage message) id).transport.world
      (env.deliver (serverHandler info) resolved message (parseMessage message) id).deferred
      (env.deliver (serverHandler info) resolved message (parseMessage message) id).written := by
  obtain ⟨arrived, carried, queued⟩ := onMessage_queues info resolved.world message id false
  have world := (env.deliver_world (serverHandler info) resolved message (parseMessage message)
    id).1
  have deferred := env.deliver_deferred (serverHandler info) resolved message
    (parseMessage message) id
  have written := @deliver_written υ info env resolved message id
  simp only [serverHandler] at world deferred written
  have longer : resolved.world.arrivals.length <
      (resolved.world.onMessage info message id false).arrivals.length := by
    rw [arrived, List.length_append]
    exact Nat.lt_succ_self _
  refine ⟨?_, ?_, ?_, ?_⟩
  · rw [written]
    split
    · exact le_rfl
    · exact firstResponse_length id _
  · exact (congrArg Server.deliveries world).trans carried
  · exact longer.le.trans_eq (congrArg (fun s => s.arrivals.length) world).symm
  · rcases queued with kept | ⟨-, silent, req, parsed, queued⟩
    · refine .inl ⟨?_, (congrArg Server.jobs world).trans kept⟩
      rw [deferred, kept, Nat.sub_self]
    · refine .inr ⟨?_, ?_, ?_, req, id, (congrArg Server.jobs world).trans queued⟩
      · rw [deferred, queued]
        simp
      · rw [written, parsed, silent, List.drop_length]
        rfl
      · exact longer.trans_eq (congrArg (fun s => s.arrivals.length) world).symm

theorem serving_handler {s : Server υ} {handler : MessageHandler (Server υ)}
    (installed : (env.serving info s).messageHandler = some handler) :
    handler = serverHandler info := by
  simp only [HttpEnv.serving, Option.ite_none_left_eq_some, Option.some.injEq] at installed
  exact installed.2.symm

theorem createSession_world {ω : Type} {env : HttpEnv ω} {t resolved : HttpTransport ω}
    {newId : SessionId} (created : env.createSession t newId = some resolved) :
    resolved.world = t.world := by
  simp only [HttpEnv.createSession, Option.ite_none_left_eq_some, Option.some.injEq] at created
  rw [← created.2]

theorem handleRequest_queues (streamable : env.config.mode = .streamableHttp)
    (t : HttpTransport (Server υ)) (conn : Nat) (newId : SessionId) (req : HttpRequest)
    {h : Handled (Server υ)}
    (handled : (env.serving info t.world).handleRequest t conn newId req = h) :
    Queues t.world h.transport.world h.deferred h.written := by
  have handling := (env.serving info t.world).handleRequest_handling streamable t conn newId req
  rw [handled] at handling
  cases handling with
  | stays same deferred written => exact .quiet (by rw [same]) deferred written
  | opens get found opened deferred written => exact .quiet (by rw [opened]) deferred written
  | deletes delete named deleted deferred written => exact .quiet (by rw [deleted]) deferred written
  | @unhandled resolved message post created missing undone deferred written =>
    have same : resolved.world = t.world := createSession_world created
    exact .quiet (by rw [undone, same]) deferred written
  | batch post installed body found live kept deferred written =>
    rw [serving_handler info installed] at kept
    obtain ⟨jobs, deliveries, arrivals⟩ := batch_queues info _ _ t.world
    rw [kept]
    exact ⟨written, deliveries, arrivals, .inl ⟨deferred, jobs⟩⟩
  | @single handler resolved message id post installed dispatches delivers =>
    have same := (env.serving info t.world).resolveSession_world dispatches.2.2.2
    rw [delivers, serving_handler info installed, ← same]
    exact deliver_queues info resolved message id

theorem waits_silent (streamable : env.config.mode = .streamableHttp)
    {t : HttpTransport (Server υ)} (conn : Nat) {newId : SessionId} {req : HttpRequest}
    (waits : env.waits t newId req = true) :
    ((env.serving info t.world).handleRequest t conn newId req).written = [] := by
  simp only [HttpEnv.waits, Bool.and_eq_true, decide_eq_true_eq, Bool.not_eq_true'] at waits
  obtain ⟨⟨⟨post, path⟩, up⟩, waits⟩ := waits
  have installed : (env.serving info t.world).messageHandler = some (serverHandler info) := by
    simp [HttpEnv.serving, up]
  have outcome := (env.serving info t.world).post_outcome installed streamable t conn newId post path
  have body : (env.serving info t.world).postBody req = env.postBody req := rfl
  cases outcome with
  | replied r written fits stays =>
    rw [body] at fits
    cases read : env.postBody req with
    | none => simp [read] at waits
    | some parsed =>
      cases parsed with
      | outOfRange => exact absurd read fits
      | parseError => simp [read] at waits
      | value message =>
        simp only [read, Bool.and_eq_true, Bool.not_eq_true'] at waits
        obtain ⟨⟨single, resolves⟩, kind⟩ := waits
        cases session : env.resolveSession t newId (parseMessage message) req.sessionId with
        | error r => simp [session, Except.isOk, Except.toBool] at resolves
        | ok found =>
          refine absurd ⟨body.trans read, single, fun resp parsed => ?_, session⟩
            (stays found.1 message found.2)
          simp [parsed] at kind
  | overflowed body written => exact written []
  | @dispatched resolved message id dispatches delivers =>
    have read := body.symm.trans dispatches.1
    simp only [read, Bool.and_eq_true, Bool.not_eq_true'] at waits
    have same := (env.serving info t.world).resolveSession_world dispatches.2.2.2
    rw [delivers, deliver_written]
    cases parsed : parseMessage message with
    | request r =>
      simp only [parsed, Bool.and_eq_true] at waits
      have deferred : (resolved.world.onMessage info message id false).answers =
          resolved.world.answers := by
        simp [Server.onMessage, parsed, Server.arrived, same, waits.2.1, waits.2.2]
      simp [ParsedMessage.isNotification, serverHandler, deferred, HttpEnv.firstResponse]
    | success resp =>
      have none := (server_behavesLikeOnMessage info).success resolved.world message id resp parsed
      have quiet := List.length_eq_zero_iff.mp (Nat.add_eq_zero_iff.mp none).1
      simp [ParsedMessage.isNotification, quiet, HttpEnv.firstResponse]
    | notification notif => simp [parsed] at waits
    | error resp => simp [parsed] at waits

end CppMcp
