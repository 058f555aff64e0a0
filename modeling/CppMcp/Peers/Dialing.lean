import CppMcp.Peers.Machine
import CppMcp.Server.Outbound

namespace CppMcp

open Lib

variable {υ : Type}

/-- What a server keeps of its own requests, and whether it still takes what answers them. -/
def Server.dialled (s : Server υ) :
    AList (fun _ : Int => OutboundPending υ) × Int × List CompletedRequest × Bool :=
  (s.outboundPending, s.nextOutboundId, s.completions, s.stopping)

/-- A method that the server has requests for. -/
def isOutboundMethod (method : String) : Prop :=
  method = Protocol.methodSamplingCreate ∨ method = Protocol.methodElicitationCreate ∨
    method = Protocol.methodRootsList

/-- What a step of the server's own does to its requests: it sends one under the next number, or
    takes the entry out again when the transport does not take it, or forgets them all. -/
inductive Server.Dials (s : Server υ) (event : ServerEvent υ) (s' : Server υ) : Prop where
  | asks (p : OutboundPending υ) (params : Json) (session : p.sessionId = event.sessionId)
      (method : isOutboundMethod p.method) (keyed : params.isObject = true)
      (asked : s.asked s' event = [serializeRequest ⟨.int s.nextOutboundId, p.method, some params⟩])
      (dialled : s'.dialled = (s.outboundPending.insert s.nextOutboundId p, s.nextOutboundId + 1,
        s.completions, s.stopping))
  | fails (p : OutboundPending υ) (quiet : s.asked s' event = [])
      (dialled : s'.dialled = ((s.outboundPending.insert s.nextOutboundId p).erase s.nextOutboundId,
        s.nextOutboundId + 1, s.completions, s.stopping))
  | stops (quiet : s.asked s' event = [])
      (dialled : s'.dialled = (∅, s.nextOutboundId, s.completions, true))
  | rests (quiet : s.asked s' event = []) (dialled : s'.dialled = s.dialled)

theorem sendServerRequest_dials {s : Server υ} {event : ServerEvent υ} (p : OutboundPending υ)
    (params : Json) (sends : Bool) (session : p.sessionId = event.sessionId)
    (method : isOutboundMethod p.method) (keyed : params.isObject = true)
    (outbound : ∀ s', s.asked s' event = (s'.sent.drop s.sent.length).map Prod.snd) :
    s.Dials event (s.sendServerRequest p params sends) := by
  unfold Server.sendServerRequest
  split
  · dsimp only
    split
    · refine .asks p params session method keyed ?_ rfl
      simp [outbound]
    · refine .fails p ?_ rfl
      simp [outbound, Server.logText]
  · refine .rests ?_ rfl
    simp [outbound]

variable (info : ServerInfo)

theorem step_dials {s s' : Server υ} {event : ServerEvent υ}
    (other : ∀ message sessionId batch, event ≠ .arrives message sessionId batch)
    (h : s.step info event = some s') : s.Dials event s' := by
  have gated {event : ServerEvent υ} {p : OutboundPending υ} {params : Json} {sends may : Bool}
      (session : p.sessionId = event.sessionId) (method : isOutboundMethod p.method)
      (keyed : params.isObject = true)
      (outbound : ∀ s', s.asked s' event = (s'.sent.drop s.sent.length).map Prod.snd) :
      s.Dials event (if may then s.sendServerRequest p params sends else s) := by
    split
    · exact sendServerRequest_dials p params sends session method keyed outbound
    · exact .rests (by simp [outbound]) rfl
  cases event with
  | arrives message sessionId batch => exact absurd rfl (other message sessionId batch)
  | requestsSampling params callbacks sessionId sends =>
    cases h
    exact gated rfl (.inl rfl) rfl fun _ => rfl
  | requestsElicitation params callbacks sessionId sends =>
    cases h
    exact gated rfl (.inr (.inl rfl)) rfl fun _ => rfl
  | requestsRoots callbacks sessionId sends =>
    cases h
    exact gated rfl (.inr (.inr rfl)) rfl fun _ => rfl
  | stops =>
    cases h
    exact .stops rfl rfl
  | runsJob place =>
    obtain ⟨table, next, completions⟩ := step_aside info rfl h
    simp only [Server.step] at h
    split at h
    · rename_i job found
      cases h
      have serving := (processRequest_spec info job.request job.sessionId
        { s with jobs := s.jobs.eraseIdx place }).2
      refine .rests rfl ?_
      simp only [Server.dialled, table, next, completions]
      exact congrArg (_, _, _, ·) serving.stopping
    · cases h
  | delivers place =>
    simp only [Server.step] at h
    split at h
    · cases h
      exact .rests rfl rfl
    · cases h
  | registers registry | setsWorkers n | runs starts =>
    cases h
    split <;> exact .rests rfl rfl
  | setsPageSize n | invalidates =>
    cases h
    exact .rests rfl rfl

theorem callBack_stopping (s : Server υ) (callback : Handler υ Unit) :
    (s.callBack callback).stopping = s.stopping := by
  unfold Server.callBack
  split <;> rfl

/-- A response to a request of the server's own takes its entry out and is called back. -/
theorem completeServerRequest_dialled {s : Server υ} {n : Int} {p : OutboundPending υ}
    (outstanding : s.outboundPending.lookup n = some p) (ok : Bool) (payload : Json) :
    (s.completeServerRequest n ok payload).dialled = (s.outboundPending.erase n, s.nextOutboundId,
      s.completions ++ [⟨n, ok, payload⟩], s.stopping) := by
  unfold Server.completeServerRequest
  rw [outstanding]
  obtain ⟨removed, next, completed, -⟩ := callBack_tables { s with
    outboundPending := s.outboundPending.erase n, completions := s.completions ++ [⟨n, ok, payload⟩] }
    (p.callback ok payload)
  simp only [Server.dialled, removed, next, completed, callBack_stopping]

theorem onMessage_completes {s : Server υ} {message : Json} {n : Int} {p : OutboundPending υ}
    (outstanding : s.outboundPending.lookup n = some p) {ok : Bool} {payload : Json}
    (parsed : ok = true ∧ parseMessage message = .success ⟨.int n, payload⟩ ∨
      ok = false ∧ ∃ error, parseMessage message = .error ⟨.int n, error⟩ ∧
        payload = errorObject error.code error.message error.data)
    (sessionId : SessionId) (batch : Bool) :
    (s.onMessage info message sessionId batch).dialled = (s.outboundPending.erase n,
      s.nextOutboundId, s.completions ++ [⟨n, ok, payload⟩], s.stopping) := by
  have completes := @completeServerRequest_dialled _ (s.arrived message) n p outstanding ok payload
  rcases parsed with ⟨rfl, parsed⟩ | ⟨rfl, error, parsed, rfl⟩
  · simp only [Server.onMessage, parsed, Server.onClientResponse, completes]
    rfl
  · have outbound : (s.arrived message).isOutbound (.int n) = true := by
      show ((s.arrived message).outboundPending.lookup n).isSome = true
      rw [show (s.arrived message).outboundPending = s.outboundPending from rfl, outstanding]
      rfl
    simp only [Server.onMessage, parsed, outbound, if_true, Server.onClientErrorResponse, completes]
    rfl

/-- A message that asks or notifies, or names nothing, has nothing to do with the server's own
    requests. -/
theorem onMessage_rests (s : Server υ) {message : Json}
    (parsed : (∃ req, parseMessage message = .request req) ∨
      (∃ notif, parseMessage message = .notification notif) ∨
        ∃ error, parseMessage message = .error ⟨.null, error⟩)
    (sessionId : SessionId) (batch : Bool) :
    (s.onMessage info message sessionId batch).dialled = s.dialled := by
  rcases parsed with ⟨req, parsed⟩ | ⟨notif, parsed⟩ | ⟨error, parsed⟩
  · simp only [Server.onMessage, parsed]
    split
    · rfl
    · have serving := (processRequest_spec info req sessionId (s.arrived message)).2
      simp only [Server.dialled, Server.respond, serving.outboundPending, serving.nextOutboundId,
        serving.completions, serving.stopping]
      rfl
  · simp only [Server.onMessage, parsed, Server.processNotification]
    split
    · rfl
    · split <;> rfl
  · have foreign : (s.arrived message).isOutbound .null = false := rfl
    simp only [Server.onMessage, parsed, foreign]
    rfl

end CppMcp
