import CppMcp.Http.LiveSessions
import CppMcp.Server.Holdings

namespace CppMcp

open Lib

variable {ω υ : Type}

/-- A transport with an `McpServer` behind it takes a step of its own, or the server does. -/
inductive HostEvent (υ : Type) where
  | http (event : HttpEvent)
  | serves (event : ServerEvent υ)

def HttpListener.withWorld (l : HttpListener ω) (world : ω) : HttpListener ω :=
  { l with transport := { l.transport with world } }

/-- Messages reach the server through the transport only, and `McpServer::stop` stops the
    transport as well. -/
def HttpListener.hosts (env : HttpEnv (Server υ)) (info : ServerInfo) :
    System (HttpListener (Server υ)) (HostEvent υ)
  | l, .http event => l.step (env.serving info l.transport.world) event
  | _, .serves (.arrives _ _ _) => none
  | l, .serves .stops => (l.transport.world.step info .stops).map l.stop.withWorld
  | l, .serves event => (l.transport.world.step info event).map l.withWorld

def HttpEnv.Deletes (env : HttpEnv ω) (t : HttpTransport ω) (req : HttpRequest) : Prop :=
  env.guarded req = none ∧ pathOnly req.url = env.config.path ∧ req.method = ascii "DELETE" ∧
    (t.findSession req.sessionId).isSome

/-- The server lets a session begin with the message, or has nothing under its id. -/
def Server.Welcomes (s : Server υ) (message : Json) (newId : SessionId) : Prop :=
  match parseMessage message with
  | .request req => if s.stopping then ¬ s.Holds newId else ¬ s.Refuses req
  | _ => ¬ s.Holds newId

/-- The sessions that end in a step are none that the server has anything under, and no session
    that begins is refused. -/
def HttpListener.EndsBare (env : HttpEnv (Server υ)) (l : HttpListener (Server υ)) :
    HostEvent υ → Prop
  | .http (.request _ newId req) =>
    (env.Deletes l.transport req → ¬ l.transport.world.Holds req.sessionId) ∧
      ∀ resolved message id, env.PostsTo req →
        env.Dispatches l.transport newId req resolved message id →
        (parseMessage message).isInitialize = true → l.transport.world.Welcomes message newId
  | .http (.sweeps ids) => ∀ id ∈ ids, id ∈ l.transport.sessions → ¬ l.transport.world.Holds id
  | .http .stops => ∀ id ∈ l.transport.sessions, ¬ l.transport.world.Holds id
  | .serves .stops => ∀ id ∈ l.transport.sessions,
      id ∉ l.transport.world.clientHellos ∧ id ∉ l.transport.world.subscribedResources
  | _ => True

/-- Whatever the server has under an id that is not empty is under a session's. -/
structure HttpListener.Tidy (l : HttpListener (Server υ)) : Prop where
  named : l.transport.All Named
  deferrable : l.transport.world.JobsDeferrable
  held : ∀ id, id ≠ [] → l.transport.world.Holds id → id ∈ l.transport.sessions

/-- The same sessions by their ids, and the same world. -/
structure HttpTransport.SameHost (t t' : HttpTransport ω) : Prop where
  world : t'.world = t.world
  sessions : ∀ id, id ∈ t'.sessions ↔ id ∈ t.sessions

namespace HttpTransport.SameHost

variable {t t' t'' : HttpTransport ω}

theorem refl (t : HttpTransport ω) : t.SameHost t := ⟨rfl, fun _ => .rfl⟩

theorem trans (first : t.SameHost t') (second : t'.SameHost t'') : t.SameHost t'' :=
  ⟨second.world.trans first.world, fun id => (second.sessions id).trans (first.sessions id)⟩

theorem insert {id : SessionId} {session : HttpSession}
    (found : t.sessions.lookup id = some session) (now : HttpSession) :
    t.SameHost { t with sessions := t.sessions.insert id now } := by
  refine ⟨rfl, fun other => ?_⟩
  have present : id ∈ t.sessions := AList.lookup_isSome.mp (by rw [found]; rfl)
  constructor
  · intro member
    rcases (AList.mem_insert _).mp member with rfl | before
    · exact present
    · exact before
  · exact fun member => (AList.mem_insert _).mpr (.inr member)

end HttpTransport.SameHost

namespace HttpListener

theorem unregister_host (t : HttpTransport ω) (conn : Nat) (stream : Option SseRegistry) :
    t.SameHost (t.unregister conn stream) := by
  cases stream with
  | none => exact .refl t
  | some registry =>
    cases registry with
    | legacy => exact ⟨rfl, fun _ => .rfl⟩
    | session id =>
      simp only [HttpTransport.unregister]
      cases found : t.sessions.lookup id with
      | none => exact .refl t
      | some session => exact .insert found _

theorem onError_host (l : HttpListener ω) (conn : Nat) :
    l.transport.SameHost (l.onError conn).transport := by
  unfold onError
  split
  · exact .refl _
  · split
    · exact unregister_host _ _ _
    · exact .refl _

theorem closeAll_host (l : HttpListener ω) (conns : List Nat) :
    l.transport.SameHost (l.closeAll conns).transport := by
  induction conns generalizing l with
  | nil => exact .refl _
  | cons conn conns ih =>
    let closed := l.update conn fun c => { c with socketOpen := false }
    have first : l.transport.SameHost (closed.onError conn).transport := onError_host closed conn
    exact first.trans (ih (closed.onError conn))

theorem reap_host (l : HttpListener ω) (ids : List SessionId) :
    (l.reap ids).transport.world = l.transport.world ∧
      ∀ id, id ∈ (l.reap ids).transport.sessions ↔ id ∈ l.transport.sessions ∧ id ∉ ids := by
  let sessions := ids.foldl (fun sessions id => sessions.erase id) l.transport.sessions
  let left : HttpListener ω := { l with transport := { l.transport with sessions } }
  have host : left.transport.SameHost (l.reap ids).transport := closeAll_host left _
  exact ⟨host.world, fun id => (host.sessions id).trans (mem_foldl_erase ids _ id)⟩

theorem stop_host (l : HttpListener ω) : l.stop.transport.world = l.transport.world ∧
    ∀ id, id ∉ l.stop.transport.sessions := by
  let quiet : HttpListener ω := { l with
    running := false, transport := { l.transport with activeSseConnections := [] } }
  let closed := quiet.closeAll l.transport.activeSseConnections
  have host : quiet.transport.SameHost closed.transport := closeAll_host quiet _
  have reaped := reap_host closed closed.transport.sessions.keys
  refine ⟨reaped.1.trans host.world, fun id member => ?_⟩
  have left := (reaped.2 id).mp member
  exact left.2 left.1

end HttpListener

end CppMcp
