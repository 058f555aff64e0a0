import CppMcp.Server.Machine
import CppMcp.Server.Responses

namespace CppMcp

open Lib

variable {υ : Type}

/-- A `notifications/initialized` arrives, under whatever session. -/
def ServerEvent.initializes : ServerEvent υ → Bool
  | .arrives message _ _ =>
    match parseMessage message with
    | .notification notif => notif.method == Protocol.notifInitialized
    | _ => false
  | _ => false

def ServerEvent.sender : ServerEvent υ → Option SessionId
  | .arrives _ sessionId _ => some sessionId
  | _ => none

/-- The request that a step hands to `dispatch_method`, with its session and the state
    it is dispatched in. -/
def Server.dispatches (s : Server υ) :
    ServerEvent υ → Option (Server υ × JsonRpcRequest × SessionId)
  | .arrives message sessionId batch =>
    match parseMessage message with
    | .request req =>
      if s.executor && !batch && isDeferrable req.method then none
      else some (s.arrived message, req, sessionId)
    | _ => none
  | .runsJob place => (s.jobs[place]?).map fun job =>
    ({ s with jobs := s.jobs.eraseIdx place }, job.request, job.sessionId)
  | _ => none

/-- A method behind the gate of `dispatch_method`. -/
def JsonRpcRequest.isGated (req : JsonRpcRequest) : Bool :=
  req.method != Protocol.methodInitialize && req.method != Protocol.methodPing

def notInitialized (id : RequestId) : Json :=
  makeErrorResponse id Protocol.serverNotInitialized
    "Server not initialized. Send initialize request first."

theorem callBack_initialized (s : Server υ) (callback : Handler υ Unit) :
    (s.callBack callback).initialized = s.initialized := by
  unfold Server.callBack
  split <;> rfl

theorem completeServerRequest_initialized (s : Server υ) (id : Int) (ok : Bool) (payload : Json) :
    (s.completeServerRequest id ok payload).initialized = s.initialized := by
  unfold Server.completeServerRequest
  split
  · rfl
  · exact callBack_initialized _ _

theorem sendServerRequest_initialized (s : Server υ) (p : OutboundPending υ) (params : Json)
    (sends : Bool) : (s.sendServerRequest p params sends).initialized = s.initialized := by
  unfold Server.sendServerRequest
  split
  · dsimp only
    split <;> rfl
  · rfl

variable (info : ServerInfo)

theorem onMessage_initialized (s : Server υ) (message : Json) (sessionId : SessionId)
    (batch : Bool) : (s.onMessage info message sessionId batch).initialized =
      (s.initialized || (ServerEvent.arrives message sessionId batch : ServerEvent υ).initializes) := by
  simp only [Server.onMessage, ServerEvent.initializes]
  cases parsed : parseMessage message with
  | request req =>
    simp only [Bool.or_false]
    split
    · rfl
    · exact (processRequest_spec info req sessionId _).2.initialized
  | notification notif =>
    simp only [Server.processNotification]
    by_cases same : notif.method = Protocol.notifInitialized
    · simp [same]
    · simp only [same, if_false, beq_eq_false_iff_ne.mpr same, Bool.or_false]
      split <;> rfl
  | success resp =>
    simp only [Server.onClientResponse, Bool.or_false]
    split
    · exact completeServerRequest_initialized _ _ _ _
    · rfl
  | error resp =>
    simp only [Bool.or_false]
    split
    · unfold Server.onClientErrorResponse
      split
      · exact completeServerRequest_initialized _ _ _ _
      · rfl
    · rfl

theorem step_initialized {s s' : Server υ} {event : ServerEvent υ}
    (h : s.step info event = some s') :
    s'.initialized = (s.initialized || event.initializes) := by
  cases event with
  | arrives message sessionId batch =>
    simp only [Server.step, Option.ite_none_left_eq_some, Option.some.injEq] at h
    obtain ⟨-, rfl⟩ := h
    exact onMessage_initialized info s message sessionId batch
  | runsJob place =>
    simp only [Server.step] at h
    split at h
    · cases h
      exact (processRequest_spec info _ _ _).2.initialized.trans (Bool.or_false _).symm
    · cases h
  | delivers place =>
    simp only [Server.step] at h
    split at h
    · cases h
      exact (Bool.or_false _).symm
    · cases h
  | requestsSampling params callbacks sessionId sends =>
    cases h
    unfold Server.requestSampling
    split
    · exact (sendServerRequest_initialized s _ _ _).trans (Bool.or_false _).symm
    · exact (Bool.or_false _).symm
  | requestsElicitation params callbacks sessionId sends =>
    cases h
    unfold Server.requestElicitation
    split
    · exact (sendServerRequest_initialized s _ _ _).trans (Bool.or_false _).symm
    · exact (Bool.or_false _).symm
  | requestsRoots callbacks sessionId sends =>
    cases h
    unfold Server.requestRoots
    split
    · exact (sendServerRequest_initialized s _ _ _).trans (Bool.or_false _).symm
    · exact (Bool.or_false _).symm
  | registers registry | setsWorkers n | runs starts =>
    cases h
    split <;> exact (Bool.or_false _).symm
  | setsPageSize n | invalidates | stops =>
    cases h
    exact (Bool.or_false _).symm

/-- The gate is open after a run exactly when some message of the run opened it. -/
theorem run_initialized {s s' : Server υ} {events : List (ServerEvent υ)}
    (h : run (Server.step info) s events = some s') :
    s'.initialized = true ↔ s.initialized = true ∨ ∃ e ∈ events, e.initializes = true := by
  induction events generalizing s with
  | nil =>
    cases h
    simp
  | cons e rest ih =>
    obtain ⟨next, stepped, h⟩ := run_cons_eq h
    rw [ih h, step_initialized info stepped]
    simp [or_assoc]

theorem processRequest_gated {req : JsonRpcRequest} (gated : req.isGated = true)
    (sessionId : SessionId) {s : Server υ} (closed : s.initialized = false) :
    processRequest info req sessionId s = (notInitialized req.id, s) := by
  simp only [JsonRpcRequest.isGated, Bool.and_eq_true, bne_iff_ne] at gated
  have dispatched : (dispatchMethod info req sessionId).run.run s =
      (.ok (notInitialized req.id), s) := by
    simp only [dispatchMethod, gated.1, gated.2, if_false, run_get_bind, closed]
    rfl
  simp only [processRequest, dispatched]

/-- A dispatched request is processed in its state, and the response goes to its sink or
    to the queue of deliveries. -/
theorem step_dispatches {s s' dispatch : Server υ} {event : ServerEvent υ} {req : JsonRpcRequest}
    {sessionId : SessionId} (h : s.step info event = some s')
    (dispatched : s.dispatches event = some (dispatch, req, sessionId)) :
    dispatch.initialized = s.initialized ∧ ∃ sink,
      s'.answers = s.answers ++ [(sink, (processRequest info req sessionId dispatch).1)] ∨
      s'.deliveries = s.deliveries ++ [(sink, (processRequest info req sessionId dispatch).1)] := by
  cases event with
  | arrives message sid batch =>
    simp only [Server.step, Option.ite_none_left_eq_some, Option.some.injEq] at h
    obtain ⟨-, rfl⟩ := h
    simp only [Server.dispatches] at dispatched
    split at dispatched
    · rename_i parsed
      split at dispatched
      · cases dispatched
      · rename_i direct
        cases dispatched
        have notDeferred : ¬((s.arrived message).executor && !batch && isDeferrable req.method) = true :=
          direct
        refine ⟨rfl, s.arrivals.length, .inl ?_⟩
        simp only [Server.onMessage, parsed, if_neg notDeferred, Server.respond,
          (processRequest_spec info req sessionId _).2.answers]
        rfl
    · cases dispatched
  | runsJob place =>
    simp only [Server.dispatches, Option.map_eq_some_iff] at dispatched
    obtain ⟨job, queued, eq⟩ := dispatched
    cases eq
    simp only [Server.step, queued, Option.some.injEq] at h
    subst h
    refine ⟨rfl, job.sink, .inr ?_⟩
    simp only [Server.runJob, (processRequest_spec info job.request job.sessionId _).2.deliveries]
  | _ => cases dispatched

/-- The gate opens for every session with the first `notifications/initialized` of any
    session; until then each request behind it gets the error that asks for the handshake. -/
theorem gate_opens_for_all (user : υ) (front : List (ServerEvent υ)) (s : Server υ)
    (h : run (Server.step info) (Server.initial user) front = some s) (event : ServerEvent υ)
    (s' dispatch : Server υ) (req : JsonRpcRequest) (sessionId : SessionId)
    (stepped : s.step info event = some s')
    (dispatched : s.dispatches event = some (dispatch, req, sessionId))
    (gated : req.isGated = true) :
    (dispatch.initialized = true → ∃ e ∈ front, e.initializes = true) ∧
    (dispatch.initialized = false → ∃ sink,
      s'.answers = s.answers ++ [(sink, notInitialized req.id)] ∨
      s'.deliveries = s.deliveries ++ [(sink, notInitialized req.id)]) := by
  obtain ⟨same, sink, answered⟩ := step_dispatches info stepped dispatched
  refine ⟨fun opened => ?_, fun closed => ⟨sink, ?_⟩⟩
  · rw [same] at opened
    rcases (run_initialized info h).mp opened with opened | sent
    · cases opened
    · exact sent
  · rwa [processRequest_gated info gated sessionId closed] at answered

def listTools : JsonRpcRequest := ⟨.int 1, Protocol.methodToolsList, none⟩

/-- One peer's notification, sent without any `initialize`. -/
def strangerInitialized : List (ServerEvent Unit) :=
  [.arrives (serializeNotification ⟨Protocol.notifInitialized, none⟩) (ascii "a") false]

/-- Another peer's request, of which the server has heard nothing before. -/
def strangerRequest : ServerEvent Unit := .arrives (serializeRequest listTools) (ascii "b") false

theorem gate_closed_without_notification :
    ∃ s s' dispatch, run (Server.step {}) (Server.initial ()) [] = some s ∧
      s.step {} strangerRequest = some s' ∧
      s.dispatches strangerRequest = some (dispatch, listTools, ascii "b") ∧
      ∃ sink, s'.answers = s.answers ++ [(sink, notInitialized (.int 1))] ∨
        s'.deliveries = s.deliveries ++ [(sink, notInitialized (.int 1))] := by
  have holds := gate_opens_for_all {} () [] (Server.initial ()) rfl strangerRequest _ _ listTools
    (ascii "b") rfl rfl (by decide)
  exact ⟨_, _, _, rfl, rfl, rfl, holds.2 rfl⟩

/-- The request is served though its session sent nothing before. -/
theorem stranger_is_served :
    ∃ s s' dispatch, run (Server.step {}) (Server.initial ()) strangerInitialized = some s ∧
      s.step {} strangerRequest = some s' ∧
      s.dispatches strangerRequest = some (dispatch, listTools, ascii "b") ∧
      listTools.isGated = true ∧ dispatch.initialized = true ∧
      (∀ e ∈ strangerInitialized, e.sender ≠ some (ascii "b")) ∧
      s'.answers = [(1, makeSuccessResponse (.int 1) (.object [("tools", .array [])]))] :=
  ⟨_, _, _, rfl, rfl, rfl, rfl, rfl, by decide, by rfl⟩

end CppMcp
