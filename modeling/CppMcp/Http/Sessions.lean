import CppMcp.Http.Batch
import CppMcp.Lib.Table

namespace CppMcp

open Lib

variable {ω : Type}

def HttpTransport.All (P : SessionId → HttpSession → Prop) (t : HttpTransport ω) : Prop :=
  ∀ id session, t.sessions.lookup id = some session → P id session

def Named (id : SessionId) (session : HttpSession) : Prop := session.sessionId = id

/-- A session under its own id whose `initialize` succeeded. -/
def Opened (id : SessionId) (session : HttpSession) : Prop :=
  session.sessionId = id ∧ session.initialized = true

namespace HttpTransport.All

variable {P : SessionId → HttpSession → Prop} {t : HttpTransport ω}

theorem replace {t' : HttpTransport ω} (all : t.All P) (id : SessionId)
    (others : ∀ other, other ≠ id → t'.sessions.lookup other = t.sessions.lookup other)
    (own : ∀ session, t'.sessions.lookup id = some session → P id session) : t'.All P := by
  intro other session present
  by_cases same : other = id
  · subst same
    exact own session present
  · exact all other session (others other same ▸ present)

theorem insert (all : t.All P) {id : SessionId} {session : HttpSession} (new : P id session) :
    All P { t with sessions := t.sessions.insert id session } := by
  refine all.replace id (fun other ne => AList.lookup_insert_ne ne) fun found present => ?_
  rw [AList.lookup_insert] at present
  cases present
  exact new

theorem erase (all : t.All P) (id : SessionId) :
    All P { t with sessions := t.sessions.erase id } := by
  refine all.replace id (fun other ne => AList.lookup_erase_ne ne) fun found present => ?_
  rw [AList.lookup_erase] at present
  cases present

theorem congr {t' : HttpTransport ω} (all : t.All P) (same : t'.sessions = t.sessions) : t'.All P := by
  intro id session present
  rw [same] at present
  exact all id session present

end HttpTransport.All

namespace HttpEnv

variable (env : HttpEnv ω)

/-- The handler answered an `initialize` and did not throw, and the answer is no error. -/
def succeeds (outcome : HandlerRun) : Bool :=
  outcome.threw.isNone && outcome.emitted.head?.any fun body => !body.contains "error"

theorem commitSession_sessions (h : Handled ω) (id : SessionId) (ok : Bool) :
    (commitSession h id ok).transport.sessions =
      if ok && h.firstBody.any (fun body => !body.contains "error") then
        match h.transport.sessions.lookup id with
        | some session => h.transport.sessions.insert id { session with initialized := true }
        | none => h.transport.sessions
      else h.transport.sessions.erase id := by
  simp only [commitSession]
  split
  · cases h.transport.sessions.lookup id <;> rfl
  · rfl

theorem deliver_sessions (handler : MessageHandler ω) (t : HttpTransport ω) (message : Json)
    (parsed : ParsedMessage) (id : SessionId) :
    (env.deliver handler t message parsed id).transport.sessions =
      if parsed.isInitialize then
        if succeeds (handler t.world message id false).2 then
          match t.sessions.lookup id with
          | some session => t.sessions.insert id { session with initialized := true }
          | none => t.sessions
        else t.sessions.erase id
      else t.sessions := by
  let outcome := (handler t.world message id false).2
  let start : Handled ω :=
    { transport := { t with world := (handler t.world message id false).1 }
      sinkSession := some id, deferred := outcome.deferred }
  have called : (env.deliver handler t message parsed id).transport.sessions =
      (env.callHandler handler t message parsed id).1.transport.sessions := by
    dsimp only [deliver]
    split <;> rfl
  have sessions : (outcome.emitted.foldl env.sink start).transport.sessions = t.sessions := by
    rw [env.sink_transport]
  have body := (env.sink_kept outcome.emitted (h := start) rfl rfl).2
  have committed := commitSession_sessions (outcome.emitted.foldl env.sink start) id
    outcome.threw.isNone
  rw [sessions, body] at committed
  rw [called]
  dsimp only [callHandler]
  cases parsed.isInitialize with
  | false => exact sessions
  | true => exact committed

theorem createSession_sessions {t resolved : HttpTransport ω} {newId : SessionId}
    (created : env.createSession t newId = some resolved) :
    resolved.sessions = t.sessions.insert newId { sessionId := newId } := by
  simp only [createSession, Option.ite_none_left_eq_some, Option.some.injEq] at created
  rw [← created.2]

end HttpEnv

/-- A property of sessions that every step of a transport keeps. -/
structure SessionProperty (P : SessionId → HttpSession → Prop) : Prop where
  named : ∀ id session, P id session → session.sessionId = id
  streams : ∀ id session conns, P id session → P id { session with sseConnections := conns }
  opened : ∀ id, P id ⟨id, true, []⟩

theorem named_property : SessionProperty Named where
  named _ _ own := own
  streams _ _ _ own := own
  opened _ := rfl

theorem opened_property : SessionProperty Opened where
  named _ _ opened := opened.1
  streams _ _ _ opened := opened
  opened _ := ⟨rfl, rfl⟩

section
variable {P : SessionId → HttpSession → Prop} (prop : SessionProperty P)

include prop in
theorem created_all {env : HttpEnv ω} {t resolved t' : HttpTransport ω} {newId : SessionId}
    (created : env.createSession t newId = some resolved) (all : t.All P)
    (ends : t'.sessions = resolved.sessions.erase newId ∨
      t'.sessions = resolved.sessions.insert newId ⟨newId, true, []⟩) : t'.All P := by
  have sessions := env.createSession_sessions created
  refine all.replace newId (fun other ne => ?_) fun session present => ?_
  · rcases ends with erased | opened
    · rw [erased, AList.lookup_erase_ne ne, sessions, AList.lookup_insert_ne ne]
    · rw [opened, AList.lookup_insert_ne ne, sessions, AList.lookup_insert_ne ne]
  · rcases ends with erased | opened
    · rw [erased, AList.lookup_erase] at present
      cases present
    · rw [opened, AList.lookup_insert] at present
      cases present
      exact prop.opened newId

include prop in
theorem handling_all {env : HttpEnv ω} {t : HttpTransport ω} {conn : Nat} {newId : SessionId}
    {req : HttpRequest} {h : Handled ω} (handling : env.Handling t conn newId req h)
    (all : t.All P) : h.transport.All P := by
  cases handling with
  | stays same => exact same ▸ all
  | @opens session get found opened =>
    have holds := all _ session (HttpTransport.findSession_some found).2
    have own := prop.named _ session holds
    rw [opened]
    refine all.insert (prop.streams _ session _ ?_)
    rw [own]
    exact holds
  | deletes delete named deleted =>
    rw [deleted]
    exact all.erase _
  | unhandled post created missing undone => exact created_all prop created all (.inl (by rw [undone]))
  | batch post installed body found live handled => exact all.congr (by rw [handled])
  | @single handler resolved message id post installed dispatches delivers =>
    have sessions := env.deliver_sessions handler resolved message (parseMessage message) id
    rw [← delivers] at sessions
    rcases env.resolveSession_ok dispatches.2.2.2 with ⟨greets, -, rfl, created⟩ | ⟨later, rfl, -⟩
    · have fresh : resolved.sessions.lookup id = some { sessionId := id } := by
        rw [env.createSession_sessions created, AList.lookup_insert]
      rw [if_pos greets, fresh] at sessions
      apply created_all prop created all
      split at sessions
      · exact .inr sessions
      · exact .inl sessions
    · rw [later] at sessions
      exact all.congr sessions

end

namespace HttpListener

variable {P : SessionId → HttpSession → Prop}

theorem unregister_all (prop : SessionProperty P) {t : HttpTransport ω} (all : t.All P) (conn : Nat)
    (stream : Option SseRegistry) : (t.unregister conn stream).All P := by
  cases stream with
  | none => exact all
  | some registry =>
    cases registry with
    | legacy => exact all
    | session id =>
      simp only [HttpTransport.unregister]
      cases present : t.sessions.lookup id with
      | none => exact all
      | some session => exact all.insert (prop.streams id session _ (all id session present))

theorem onError_all (prop : SessionProperty P) {l : HttpListener ω} (all : l.transport.All P)
    (conn : Nat) : (l.onError conn).transport.All P := by
  unfold onError
  split
  · exact all
  · split
    · exact unregister_all prop all conn _
    · exact all

theorem closeAll_all (prop : SessionProperty P) {l : HttpListener ω} (all : l.transport.All P)
    (conns : List Nat) : (l.closeAll conns).transport.All P := by
  induction conns generalizing l with
  | nil => exact all
  | cons conn conns ih =>
    have updated : (l.update conn fun c => { c with socketOpen := false }).transport.All P := all
    exact ih (onError_all prop updated conn)

theorem reap_all (prop : SessionProperty P) {l : HttpListener ω} (all : l.transport.All P)
    (ids : List SessionId) : (l.reap ids).transport.All P := by
  have erased (ids : List SessionId) {t : HttpTransport ω} (all : t.All P) :
      HttpTransport.All P { t with
        sessions := ids.foldl (fun sessions id => sessions.erase id) t.sessions } := by
    induction ids generalizing t with
    | nil => exact all
    | cons id ids ih => exact ih (all.erase id)
  exact closeAll_all prop (l := { l with transport := _ }) (erased ids all) _

theorem step_all (prop : SessionProperty P) {env : HttpEnv ω}
    (streamable : env.config.mode = .streamableHttp) (l : HttpListener ω) (event : HttpEvent)
    (l' : HttpListener ω) (all : l.transport.All P) (h : l.step env event = some l') :
    l'.transport.All P := by
  have ready {conn : Nat} {test : AcceptedConnection → Bool} {next : HttpListener ω}
      (stepped : l.onConnection conn test next = some l') (holds : next.transport.All P) :
      l'.transport.All P := by
    simp only [onConnection, Option.ite_none_right_eq_some, Option.some.injEq] at stepped
    exact stepped.2 ▸ holds
  cases event with
  | accepts =>
    cases h
    unfold accept
    split <;> exact all
  | readCompletes conn | finishes conn | arms conn => exact ready h all
  | request conn newId req =>
    refine ready h (closeAll_all prop ?_ _)
    exact handling_all prop (env.handleRequest_handling streamable l.transport conn newId req) all
  | parseFails conn | readFails conn =>
    refine ready h (onError_all prop ?_ _)
    exact all
  | timesOut conn =>
    refine ready h (closeAll_all prop ?_ [conn])
    exact all
  | writeFails conn => exact ready h (onError_all prop all conn)
  | sweeps ids =>
    simp only [step, Option.ite_none_right_eq_some, Option.some.injEq] at h
    exact h.2 ▸ reap_all prop all ids
  | stops =>
    cases h
    refine reap_all prop (closeAll_all prop ?_ _) _
    exact all

end HttpListener

end CppMcp
