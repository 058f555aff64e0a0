import CppMcp.Server.Discipline

namespace CppMcp

open Lib

variable {υ : Type}

/-- No message, no queue and no lifetime is the event's matter. -/
def ServerEvent.isQuiet : ServerEvent υ → Bool
  | .arrives .. | .runsJob _ | .delivers _ | .runs _ | .stops => false
  | _ => true

/-- No request is processed and none is answered: the sessions' tables stay as they are. -/
structure Server.Aside (s s' : Server υ) : Prop where
  clientHellos : s'.clientHellos = s.clientHellos
  negotiatedVersion : s'.negotiatedVersion = s.negotiatedVersion
  subscribedResources : s'.subscribedResources = s.subscribedResources
  jobs : s'.jobs = s.jobs
  deliveries : s'.deliveries = s.deliveries
  registry : s'.registry = s.registry
  transport : s'.transport = s.transport
  frozen : s'.frozen = s.frozen
  arrivals : s'.arrivals = s.arrivals
  answers : s'.answers = s.answers

theorem Server.Aside.refl (s : Server υ) : s.Aside s :=
  ⟨rfl, rfl, rfl, rfl, rfl, rfl, rfl, rfl, rfl, rfl⟩

theorem completeServerRequest_aside (s : Server υ) (id : Int) (ok : Bool) (payload : Json) :
    s.Aside (s.completeServerRequest id ok payload) := by
  unfold Server.completeServerRequest
  split
  · exact .refl s
  · simp only [Server.callBack]
    split <;> exact ⟨rfl, rfl, rfl, rfl, rfl, rfl, rfl, rfl, rfl, rfl⟩

theorem sendServerRequest_aside (s : Server υ) (p : OutboundPending υ) (params : Json)
    (sends : Bool) : s.Aside (s.sendServerRequest p params sends) := by
  unfold Server.sendServerRequest
  split
  · dsimp only
    split <;> exact ⟨rfl, rfl, rfl, rfl, rfl, rfl, rfl, rfl, rfl, rfl⟩
  · exact .refl s

variable (info : ServerInfo)

/-- What a step can do to the sessions' tables, to the queues and to the answers. -/
inductive Server.Turns (s : Server υ) : ServerEvent υ → Server υ → Prop
  | serves {message : Json} {sessionId : SessionId} {batch : Bool} {req : JsonRpcRequest}
      (parsed : parseMessage message = .request req) :
      Turns s (.arrives message sessionId batch)
        ((processRequest info req sessionId (s.arrived message)).2.respond s.arrivals.length
          (processRequest info req sessionId (s.arrived message)).1)
  | defers {message : Json} {sessionId : SessionId} {req : JsonRpcRequest}
      (parsed : parseMessage message = .request req)
      (deferrable : isDeferrable req.method = true) :
      Turns s (.arrives message sessionId false) { s.arrived message with
        jobs := s.jobs ++ [⟨s.arrivals.length, req, sessionId⟩] }
  | works {place : Nat} {job : Job} (found : s.jobs[place]? = some job) :
      Turns s (.runsJob place) ({ s with jobs := s.jobs.eraseIdx place }.runJob info job)
  | delivers {place sink : Nat} {response : Json}
      (found : s.deliveries[place]? = some (sink, response)) :
      Turns s (.delivers place)
        ({ s with deliveries := s.deliveries.eraseIdx place }.respond sink response)
  | registers (registry : Registry υ) : Turns s (.registers registry) { s with registry }
  | starts : Turns s (.runs true) { s with
      frozen := some s.registry, running := true, executor := s.executor || 0 < s.workers }
  | fails {s' : Server υ} (aside : Server.Aside { s with frozen := none } s') :
      Turns s (.runs false) s'
  | stops : Turns s .stops { s with
      stopping := true, running := false, outboundPending := ∅, jobs := [], deliveries := [] }
  | hears {message : Json} {sessionId : SessionId} {batch : Bool} {s' : Server υ}
      (other : ∀ req, parseMessage message ≠ .request req)
      (aside : (s.arrived message).Aside s') : Turns s (.arrives message sessionId batch) s'
  | refuses {message : Json} {sessionId : SessionId} {batch : Bool}
      (other : ∀ req, parseMessage message ≠ .request req) (response : Json) :
      Turns s (.arrives message sessionId batch)
        ((s.arrived message).respond s.arrivals.length response)
  | aside {event : ServerEvent υ} {s' : Server υ}
      (quiet : event.isQuiet = true)
      (aside : s.Aside s') : Turns s event s'

theorem onMessage_turns (s : Server υ) (message : Json) (sessionId : SessionId) (batch : Bool) :
    s.Turns info (.arrives message sessionId batch) (s.onMessage info message sessionId batch) := by
  cases parsed : parseMessage message with
  | request req =>
    simp only [Server.onMessage, parsed]
    split
    · rename_i deferred
      simp only [Bool.and_eq_true, Bool.not_eq_true'] at deferred
      obtain ⟨⟨-, rfl⟩, deferrable⟩ := deferred
      exact .defers parsed deferrable
    · exact .serves parsed
  | notification notif =>
    apply Server.Turns.hears fun req => by simp [parsed]
    simp only [Server.onMessage, parsed, Server.processNotification]
    split
    · exact ⟨rfl, rfl, rfl, rfl, rfl, rfl, rfl, rfl, rfl, rfl⟩
    · split
      · exact ⟨rfl, rfl, rfl, rfl, rfl, rfl, rfl, rfl, rfl, rfl⟩
      · exact .refl (s.arrived message)
  | success resp =>
    apply Server.Turns.hears fun req => by simp [parsed]
    simp only [Server.onMessage, parsed, Server.onClientResponse]
    split
    · exact completeServerRequest_aside (s.arrived message) _ _ _
    · exact .refl (s.arrived message)
  | error resp =>
    have other (req : JsonRpcRequest) : parseMessage message ≠ .request req := by simp [parsed]
    simp only [Server.onMessage, parsed, Server.onClientErrorResponse]
    split
    · apply Server.Turns.hears other
      split
      · exact completeServerRequest_aside (s.arrived message) _ _ _
      · exact .refl (s.arrived message)
    · exact .refuses other _

theorem step_turns {s s' : Server υ} {event : ServerEvent υ} (h : s.step info event = some s') :
    s.Turns info event s' := by
  have requests (capable : Bool) (p : OutboundPending υ) (params : Json) (sends : Bool) :
      s.Aside (if capable then s.sendServerRequest p params sends else s) := by
    cases capable with
    | true => exact sendServerRequest_aside s p params sends
    | false => exact .refl s
  cases event with
  | arrives message sessionId batch =>
    simp only [Server.step, Option.ite_none_left_eq_some, Option.some.injEq] at h
    obtain ⟨-, rfl⟩ := h
    exact onMessage_turns info s message sessionId batch
  | runsJob place =>
    simp only [Server.step] at h
    split at h
    · cases h
      exact .works (by assumption)
    · cases h
  | delivers place =>
    simp only [Server.step] at h
    split at h
    · cases h
      exact .delivers (by assumption)
    · cases h
  | requestsSampling params callbacks sessionId sends =>
    cases h
    exact .aside rfl (requests _ _ _ _)
  | requestsElicitation params callbacks sessionId sends =>
    cases h
    exact .aside rfl (requests _ _ _ _)
  | requestsRoots callbacks sessionId sends =>
    cases h
    exact .aside rfl (requests _ _ _ _)
  | registers registry =>
    cases h
    split
    · apply Server.Turns.aside rfl
      exact ⟨rfl, rfl, rfl, rfl, rfl, rfl, rfl, rfl, rfl, rfl⟩
    · exact .registers registry
  | setsWorkers n =>
    cases h
    apply Server.Turns.aside rfl
    split <;> exact ⟨rfl, rfl, rfl, rfl, rfl, rfl, rfl, rfl, rfl, rfl⟩
  | runs starts =>
    cases h
    cases starts with
    | true => exact .starts
    | false => exact .fails ⟨rfl, rfl, rfl, rfl, rfl, rfl, rfl, rfl, rfl, rfl⟩
  | setsPageSize n | invalidates =>
    cases h
    apply Server.Turns.aside rfl
    exact ⟨rfl, rfl, rfl, rfl, rfl, rfl, rfl, rfl, rfl, rfl⟩
  | stops =>
    cases h
    exact .stops

end CppMcp
