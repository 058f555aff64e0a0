import CppMcp.Peers.Enrolled
import CppMcp.Peers.Machine

namespace CppMcp

open Lib

/-- What a client may have said: a request it has registered, with params that name it, or a
    message that is no request. -/
def Client.MaySay (c : Client) (m : Json) : Prop :=
  m.hasTextId = false ∧ ((m.contains "method" = true → m.find? "id" = none) ∨
    ∃ (pr : Nat) (r : PendingRequest) (method : String) (params : Option Json),
      c.requests[pr]? = some r ∧ r.registered = true ∧ r.Carries params ∧
        m = serializeRequest ⟨r.id, method, params⟩)

/-- The requests of the earlier state are there under the same names. -/
def Client.Remembers (c c' : Client) : Prop :=
  ∀ (pr : Nat) (r : PendingRequest), c.requests[pr]? = some r →
    ∃ r', c'.requests[pr]? = some r' ∧ r'.id = r.id ∧ r'.progressToken = r.progressToken ∧
      (r.registered = true → r'.registered = true)

theorem PendingRequest.HasKey.named {r r' : PendingRequest} {key : RequestId}
    (own : r.HasKey key) (id : r'.id = r.id) (token : r'.progressToken = r.progressToken) :
    r'.HasKey key := by
  unfold PendingRequest.HasKey PendingRequest.hasOwnToken at own ⊢
  rw [id, token]
  exact own

theorem PendingRequest.Carries.named {r r' : PendingRequest} {params : Option Json}
    (carries : r.Carries params) (id : r'.id = r.id)
    (token : r'.progressToken = r.progressToken) : r'.Carries params := by
  refine ⟨carries.1, ?_⟩
  rw [id]
  exact carries.2.named id token

theorem Client.MaySay.remember {c c' : Client} {m : Json} (remembers : c.Remembers c')
    (said : c.MaySay m) : c'.MaySay m := by
  obtain ⟨plain, other | ⟨pr, r, method, params, present, registered, carries, rfl⟩⟩ := said
  · exact ⟨plain, .inl other⟩
  · obtain ⟨r', present', id, token, kept⟩ := remembers pr r present
    refine ⟨plain, .inr ⟨pr, r', method, params, present', kept registered,
      carries.named id token, ?_⟩⟩
    rw [id]

theorem maySay_vocabulary (c : Client) : Vocabulary c.MaySay fun id => id.isText = false where
  notification notif := by
    have absent : (serializeNotification notif).find? "id" = none := by
      unfold serializeNotification
      cases notif.params <;> simp [find?_mk]
    refine ⟨?_, .inl fun _ => absent⟩
    unfold Json.hasTextId
    rw [absent]
    rfl
  success id result plain := by
    have own : (makeSuccessResponse id result).find? "id" = some (requestIdToJson id) := by
      simp [makeSuccessResponse, find?_mk]
    refine ⟨(hasTextId_written own).trans plain, .inl fun named => ?_⟩
    simp [makeSuccessResponse, Json.contains, find?_mk] at named
  error id code message data plain := by
    have own : (makeErrorResponse id code message data).find? "id" =
        some (requestIdToJson id) := by
      simp [makeErrorResponse, find?_mk]
    refine ⟨(hasTextId_written own).trans plain, .inl fun named => ?_⟩
    simp [makeErrorResponse, Json.contains, find?_mk] at named

/-- What the server reads of a request that a client may have said. -/
theorem maySay_request {c : Client} (fits : ∀ (pr : Nat) r, c.requests[pr]? = some r → r.id.Fits)
    (given : ∀ (pr : Nat) r, c.requests[pr]? = some r → r.id ≠ .null) {m : Json} (said : c.MaySay m)
    {req : JsonRpcRequest} (parsed : parseMessage m.reread = .request req) :
    ∃ (pr : Nat) (r : PendingRequest), c.requests[pr]? = some r ∧ r.registered = true ∧
      r.id = req.id ∧ ∀ sessionId, r.HasKey (requestContext req sessionId).progressToken := by
  obtain ⟨-, other | ⟨pr, r, method, params, present, registered, carries, rfl⟩⟩ := said
  · have is := parseMessage_isRequest parsed
    obtain ⟨id, found, -⟩ := is.id
    have named : m.contains "method" = true := by
      rw [← contains_reread, Json.contains, is.method]
      rfl
    rw [Json.find?_reread, other named] at found
    cases found
  · have structured : Structured params := fun p same => .inl (carries.1 p same)
    have reads : IsRequest (serializeRequest ⟨r.id, method, params⟩).reread
        ⟨r.id, method, params.map Json.reread⟩ :=
      serializeRequest_reread (fits pr r present) (given pr r present) structured
    rw [parseMessage_request reads] at parsed
    cases parsed
    refine ⟨pr, r, present, registered, rfl, fun sessionId => ?_⟩
    unfold requestContext
    dsimp only
    split
    · exact carries.2
    · exact .inl rfl

/-- Everything a client says, or is about to, it may say; the callbacks that its executor
    holds are set. -/
structure Voiced (c : Client) : Prop where
  sent : ∀ m ∈ c.sent, c.MaySay m
  queued : ∀ m, .send m ∈ c.strand → c.MaySay m
  pooled : ∀ job ∈ c.pool, job.id.isText = false
  posted : ∀ pr progress total, .progress pr progress total ∈ c.callbackQueue → c.Listens pr

theorem initial_voiced (transport : Bool) : Voiced (Client.initial transport) := by
  refine ⟨?_, ?_, ?_, ?_⟩
  all_goals simp [Client.initial]

variable (env : ClientEnv)

theorem step_voiced {c c' : Client} {event : ClientEvent} (enrolled : Enrolled c)
    (inv : Voiced c) (h : c.step env event = some c') : Voiced c' := by
  have remembers : c.Remembers c' := fun pr r found => step_remembers env h found
  have plain : ∀ m req, .message m ∈ c.strand → parseMessageClient m = .request req →
      req.id.isText = false := by
    intro m req member parsed
    have textless : m.hasTextId = false := by simpa [Task.plain] using enrolled.plain _ member
    apply ReadsId.isText (parseMessageClient_id _) textless
    rw [parsed]
    rfl
  have utters : c.Utters c'.MaySay (fun id => id.isText = false) c' := by
    apply step_utters env (maySay_vocabulary c') h (fun m member => (inv.queued m member).remember
      remembers) inv.pooled plain
    rintro pr params rest r rfl head present
    obtain ⟨r₀, present₀, -, -, carries⟩ := enrolled.queued pr params (head ▸ List.mem_cons_self)
    rw [present] at present₀
    cases present₀
    obtain ⟨n, id, -⟩ := enrolled.correlated.ids pr r present
    obtain ⟨r', present', sameId, sameToken, -⟩ := remembers pr r present
    have registered : r'.registered = true := by
      cases step_cases h with
      | runTask task rest' head' =>
        rw [head] at head'
        cases head'
        obtain ⟨mid, off, -, -, -, -, -, -, -, timer, marked⟩ :=
          registerTask_spec { c with strand := rest } pr params present
        have after : ({ c with strand := rest }.runTask env (.register pr params)).requests[pr]? =
            some { r with registered := true, timer := timer r } := by
          show ({ c with strand := rest }.registerTask pr params).requests[pr]? = _
          rw [off.requests, marked, List.getElem?_modify_eq, present]
          rfl
        rw [after] at present'
        cases present'
        rfl
    refine ⟨?_, .inr ⟨pr, r', r.method, params, present', registered,
      carries.named sameId sameToken, by rw [sameId]⟩⟩
    have own : (serializeRequest ⟨r.id, r.method, params⟩).find? "id" =
        some (requestIdToJson r.id) := by
      unfold serializeRequest
      cases params <;> simp [find?_mk]
    rw [hasTextId_written own, id]
    rfl
  refine ⟨fun m member => ?_, fun m member => ?_, fun job member => ?_,
    fun pr progress total member => ?_⟩
  · exact (utters.sent m member).elim (fun old => (inv.sent m old).remember remembers) id
  · exact (utters.queued m member).elim (fun old => (inv.queued m old).remember remembers) id
  · exact (utters.pooled job member).elim (inv.pooled job) id
  · exact (utters.posted pr progress total member).elim
      (fun old => utters.listens pr (inv.posted pr progress total old)) id

section
variable {υ : Type}

/-- Nothing the server has taken or answered has a text for its id. -/
structure Server.Textless (s : Server υ) : Prop where
  jobs : ∀ job ∈ s.jobs, job.request.id.isText = false
  deliveries : ∀ delivery ∈ s.deliveries, delivery.2.hasTextId = false
  answers : ∀ answer ∈ s.answers, answer.2.hasTextId = false

theorem Server.Textless.congr {s s' : Server υ} (inv : s.Textless) (jobs : s'.jobs = s.jobs)
    (deliveries : s'.deliveries = s.deliveries) (answers : s'.answers = s.answers) :
    s'.Textless := by
  refine ⟨?_, ?_, ?_⟩
  · rw [jobs]
    exact inv.jobs
  · rw [deliveries]
    exact inv.deliveries
  · rw [answers]
    exact inv.answers

theorem Server.Textless.respond {s : Server υ} (inv : s.Textless) (sink : Nat) {response : Json}
    (plain : response.hasTextId = false) : (s.respond sink response).Textless := by
  refine ⟨inv.jobs, inv.deliveries, fun answer member => ?_⟩
  rcases List.mem_append.mp member with old | new
  · exact inv.answers answer old
  · rw [List.mem_singleton.mp new]
    exact plain

theorem Server.Textless.completeServerRequest {s : Server υ} (inv : s.Textless) (id : Int)
    (ok : Bool) (payload : Json) : (s.completeServerRequest id ok payload).Textless := by
  obtain ⟨-, jobs, deliveries, answers⟩ := completeServerRequest_queues s id ok payload
  exact inv.congr jobs deliveries answers

theorem Server.Textless.sendServerRequest {s : Server υ} (inv : s.Textless)
    (p : OutboundPending υ) (params : Json) (sends : Bool) :
    (s.sendServerRequest p params sends).Textless := by
  obtain ⟨-, jobs, deliveries, answers⟩ := sendServerRequest_queues s p params sends
  exact inv.congr jobs deliveries answers

variable (info : ServerInfo)

theorem onMessage_textless {s : Server υ} (inv : s.Textless) {message : Json}
    (plain : message.hasTextId = false) (sessionId : SessionId) (batch : Bool) :
    (s.onMessage info message sessionId batch).Textless := by
  have arrived : (s.arrived message).Textless := inv.congr rfl rfl rfl
  have idPlain : ∀ id, (parseMessage message).id? = some id → id.isText = false :=
    fun id read => (parseMessage_id read).isText plain
  simp only [Server.onMessage]
  cases parsed : parseMessage message with
  | request req =>
    have reqPlain : req.id.isText = false := idPlain req.id (by rw [parsed]; rfl)
    simp only
    split
    · refine ⟨fun job member => ?_, arrived.deliveries, arrived.answers⟩
      rcases List.mem_append.mp member with old | new
      · exact inv.jobs job old
      · rw [List.mem_singleton.mp new]
        exact reqPlain
    · obtain ⟨is, serving⟩ := processRequest_spec info req sessionId (s.arrived message)
      apply Server.Textless.respond _ _ ((hasTextId_written is.id).trans reqPlain)
      exact arrived.congr serving.jobs serving.deliveries serving.answers
  | notification notif =>
    unfold Server.processNotification
    dsimp only
    split
    · exact inv.congr rfl rfl rfl
    · split <;> exact inv.congr rfl rfl rfl
  | success resp =>
    unfold Server.onClientResponse
    dsimp only
    split
    · exact arrived.completeServerRequest _ _ _
    · exact arrived
  | error resp =>
    dsimp only
    split
    · unfold Server.onClientErrorResponse
      split
      · exact arrived.completeServerRequest _ _ _
      · exact arrived
    · have respPlain : resp.id.isText = false := idPlain resp.id (by rw [parsed]; rfl)
      have is := makeErrorResponse_isResponse resp.id resp.error.code resp.error.message
        resp.error.data
      exact arrived.respond _ ((hasTextId_written is.id).trans respPlain)

theorem step_textless {s s' : Server υ} {event : ServerEvent υ} (inv : s.Textless)
    (other : ∀ message sessionId batch, event ≠ .arrives message sessionId batch)
    (h : s.step info event = some s') : s'.Textless := by
  cases event with
  | arrives message sessionId batch => exact absurd rfl (other message sessionId batch)
  | runsJob place =>
    simp only [Server.step] at h
    split at h
    · rename_i job found
      cases h
      obtain ⟨response, is, -, jobs, deliveries, answers⟩ :=
        runJob_queues info { s with jobs := s.jobs.eraseIdx place } job
      refine ⟨?_, ?_, ?_⟩
      · rw [jobs]
        exact fun job member => inv.jobs job (List.mem_of_mem_eraseIdx member)
      · rw [deliveries]
        intro delivery member
        rcases List.mem_append.mp member with old | new
        · exact inv.deliveries delivery old
        · rw [List.mem_singleton.mp new]
          exact (hasTextId_written is.id).trans (inv.jobs job (List.mem_of_getElem? found))
      · rw [answers]
        exact inv.answers
    · cases h
  | delivers place =>
    simp only [Server.step] at h
    split at h
    · rename_i sink response found
      cases h
      have plain := inv.deliveries (sink, response) (List.mem_of_getElem? found)
      apply Server.Textless.respond _ _ plain
      exact ⟨inv.jobs, fun delivery member =>
        inv.deliveries delivery (List.mem_of_mem_eraseIdx member), inv.answers⟩
    · cases h
  | requestsSampling params callbacks sessionId sends =>
    cases h
    unfold Server.requestSampling
    split
    · exact inv.sendServerRequest _ _ _
    · exact inv
  | requestsElicitation params callbacks sessionId sends =>
    cases h
    unfold Server.requestElicitation
    split
    · exact inv.sendServerRequest _ _ _
    · exact inv
  | requestsRoots callbacks sessionId sends =>
    cases h
    unfold Server.requestRoots
    split
    · exact inv.sendServerRequest _ _ _
    · exact inv
  | stops =>
    cases h
    refine ⟨?_, ?_, inv.answers⟩
    all_goals
      intro _ member
      cases member
  | registers registry | setsWorkers n | runs starts =>
    cases h
    split <;> exact inv.congr rfl rfl rfl
  | setsPageSize n | invalidates =>
    cases h
    exact inv.congr rfl rfl rfl

/-- The requests of the server have numbers for their ids. -/
theorem asks_textless {m : Json} (asks : Asks m) : m.hasTextId = false := by
  obtain ⟨rid, method, params, -, rfl⟩ := asks
  have own : (serializeRequest ⟨.int rid, method, some params⟩).find? "id" =
      some (requestIdToJson (.int rid)) := by
    simp [serializeRequest, find?_mk]
  rw [hasTextId_written own]
  rfl

theorem run_transport {user : υ} {events : List (ServerEvent υ)} {s : Server υ}
    (h : run (Server.step info) (Server.initial user) events = some s) : s.transport = true :=
  (run_tracks info (tracks_initial user) (fun _ member => by cases member) h).transport

end

end CppMcp
