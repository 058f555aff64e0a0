import Mathlib.Data.List.Perm.Basic
import CppMcp.Server.Machine
import CppMcp.Server.Responses

namespace CppMcp

open Lib

variable {υ : Type}

def Server.answersOf (s : Server υ) (sink : Nat) : List Json :=
  (s.answers.filter fun answer => answer.1 == sink).map fun answer => answer.2

/-- How often a sink was called or is going to be. -/
def Server.load (s : Server υ) (sink : Nat) : Nat :=
  s.jobs.countP (fun job => job.sink == sink) +
    s.deliveries.countP (fun delivery => delivery.1 == sink) +
    s.answers.countP (fun answer => answer.1 == sink)

/-- The arrival of a sink was a request, and this answers it. -/
def Server.AnswersRequest (s : Server υ) (answer : Nat × Json) : Prop :=
  ∃ raw req, s.arrivals[answer.1]? = some raw ∧ parseMessage raw = .request req ∧
    IsResponse req.id answer.2

def Server.Rejects (s : Server υ) (sink : Nat) : Prop :=
  ∃ raw resp, s.arrivals[sink]? = some raw ∧ parseMessage raw = .error resp

/-- Jobs and deliveries belong to requests, and each request's sink is called once or
    on its way to be. -/
structure Disciplined (s : Server υ) : Prop where
  jobs : ∀ job ∈ s.jobs, ∃ raw, s.arrivals[job.sink]? = some raw ∧
    parseMessage raw = .request job.request
  deliveries : ∀ delivery ∈ s.deliveries, s.AnswersRequest delivery
  answers : ∀ answer ∈ s.answers, s.AnswersRequest answer ∨ s.Rejects answer.1
  once : ∀ sink raw req, s.arrivals[sink]? = some raw → parseMessage raw = .request req →
    s.load sink = 1

theorem Disciplined.congr {s s' : Server υ} (inv : Disciplined s)
    (arrivals : s'.arrivals = s.arrivals) (jobs : s'.jobs = s.jobs)
    (deliveries : s'.deliveries = s.deliveries) (answers : s'.answers = s.answers) :
    Disciplined s' := by
  have load (sink : Nat) : s'.load sink = s.load sink := by
    simp only [Server.load, jobs, deliveries, answers]
  refine ⟨?_, ?_, ?_, ?_⟩
  · rw [jobs, arrivals]
    exact inv.jobs
  · rw [deliveries]
    simpa only [Server.AnswersRequest, arrivals] using inv.deliveries
  · rw [answers]
    simpa only [Server.AnswersRequest, Server.Rejects, arrivals] using inv.answers
  · intro sink raw req arrived parsed
    rw [load]
    exact inv.once sink raw req (arrivals ▸ arrived) parsed

theorem countP_eraseIdx {α : Type} {p : α → Bool} {xs : List α} {i : Nat} {x : α}
    (h : xs[i]? = some x) : (xs.eraseIdx i).countP p + (if p x then 1 else 0) = xs.countP p := by
  obtain ⟨bound, rfl⟩ := List.getElem?_eq_some_iff.mp h
  rw [← (List.getElem_cons_eraseIdx_perm bound).countP_eq, List.countP_cons]

/-- No queue and no call names a sink that has not arrived. -/
theorem Disciplined.load_fresh {s : Server υ} (inv : Disciplined s) :
    s.load s.arrivals.length = 0 := by
  have old {sink : Nat} {raw : Json} (arrived : s.arrivals[sink]? = some raw) :
      sink ≠ s.arrivals.length := by
    intro same
    simp [same] at arrived
  simp only [Server.load, Nat.add_eq_zero_iff, List.countP_eq_zero, beq_iff_eq]
  refine ⟨⟨fun job member => ?_, fun delivery member => ?_⟩, fun answer member => ?_⟩
  · obtain ⟨raw, arrived, -⟩ := inv.jobs job member
    exact old arrived
  · obtain ⟨raw, req, arrived, -⟩ := inv.deliveries delivery member
    exact old arrived
  · rcases inv.answers answer member with ⟨raw, req, arrived, -⟩ | ⟨raw, resp, arrived, -⟩
    · exact old arrived
    · exact old arrived

theorem arrivals_kept {s : Server υ} {message raw : Json} {sink : Nat}
    (h : s.arrivals[sink]? = some raw) : (s.arrived message).arrivals[sink]? = some raw := by
  obtain ⟨bound, -⟩ := List.getElem?_eq_some_iff.mp h
  simp only [Server.arrived]
  rw [List.getElem?_append_left bound, h]

theorem arrivals_last (s : Server υ) (message : Json) :
    (s.arrived message).arrivals[s.arrivals.length]? = some message := by
  simp [Server.arrived]

/-- An arrival before it is handled: all is in order but for its own sink. -/
structure Arriving (s : Server υ) (sink : Nat) (message : Json) : Prop where
  jobs : ∀ job ∈ s.jobs, ∃ raw, s.arrivals[job.sink]? = some raw ∧
    parseMessage raw = .request job.request
  deliveries : ∀ delivery ∈ s.deliveries, s.AnswersRequest delivery
  answers : ∀ answer ∈ s.answers, s.AnswersRequest answer ∨ s.Rejects answer.1
  once : ∀ other raw req, other ≠ sink → s.arrivals[other]? = some raw →
    parseMessage raw = .request req → s.load other = 1
  fresh : s.load sink = 0
  own : s.arrivals[sink]? = some message

theorem Disciplined.arriving {s : Server υ} (inv : Disciplined s) (message : Json) :
    Arriving (s.arrived message) s.arrivals.length message where
  jobs job member := by
    obtain ⟨raw, arrived, parsed⟩ := inv.jobs job member
    exact ⟨raw, arrivals_kept arrived, parsed⟩
  deliveries delivery member := by
    obtain ⟨raw, req, arrived, parsed, answers⟩ := inv.deliveries delivery member
    exact ⟨raw, req, arrivals_kept arrived, parsed, answers⟩
  answers answer member := by
    rcases inv.answers answer member with ⟨raw, req, arrived, rest⟩ | ⟨raw, resp, arrived, rest⟩
    · exact .inl ⟨raw, req, arrivals_kept arrived, rest⟩
    · exact .inr ⟨raw, resp, arrivals_kept arrived, rest⟩
  once other raw req ne arrived parsed := by
    have bound := (List.getElem?_eq_some_iff.mp arrived).1
    simp only [Server.arrived, List.length_append, List.length_singleton] at bound
    have before : s.arrivals[other]? = some raw := by
      simp only [Server.arrived] at arrived
      rwa [List.getElem?_append_left (by omega)] at arrived
    exact inv.once other raw req before parsed
  fresh := inv.load_fresh
  own := arrivals_last s message

theorem Arriving.serving {s s' : Server υ} {sink : Nat} {message : Json}
    (inv : Arriving s sink message) (serving : s.Serving s') : Arriving s' sink message := by
  have load (sink : Nat) : s'.load sink = s.load sink := by
    simp only [Server.load, serving.jobs, serving.deliveries, serving.answers]
  refine ⟨?_, ?_, ?_, ?_, ?_, ?_⟩
  · rw [serving.jobs, serving.arrivals]
    exact inv.jobs
  · rw [serving.deliveries]
    simpa only [Server.AnswersRequest, serving.arrivals] using inv.deliveries
  · rw [serving.answers]
    simpa only [Server.AnswersRequest, Server.Rejects, serving.arrivals] using inv.answers
  · intro other raw req ne arrived parsed
    rw [load]
    exact inv.once other raw req ne (serving.arrivals ▸ arrived) parsed
  · rw [load]
    exact inv.fresh
  · rw [serving.arrivals]
    exact inv.own

/-- A message that is no request may leave its sink uncalled. -/
theorem Arriving.unanswered {s : Server υ} {sink : Nat} {message : Json}
    (inv : Arriving s sink message) (other : ∀ req, parseMessage message ≠ .request req) :
    Disciplined s := by
  refine ⟨inv.jobs, inv.deliveries, inv.answers, fun sink' raw req arrived parsed => ?_⟩
  refine inv.once sink' raw req (fun same => ?_) arrived parsed
  rw [same, inv.own] at arrived
  cases arrived
  exact other req parsed

theorem load_respond (s : Server υ) (sink : Nat) (response : Json) (other : Nat) :
    (s.respond sink response).load other = s.load other + if sink = other then 1 else 0 := by
  simp only [Server.load, Server.respond, List.countP_append, List.countP_singleton, beq_iff_eq]
  omega

theorem Arriving.respond {s : Server υ} {sink : Nat} {message : Json}
    (inv : Arriving s sink message) {response : Json}
    (fits : s.AnswersRequest (sink, response) ∨ s.Rejects sink) :
    Disciplined (s.respond sink response) where
  jobs := inv.jobs
  deliveries := inv.deliveries
  answers answer member := by
    rcases List.mem_append.mp member with member | member
    · exact inv.answers answer member
    · cases List.mem_singleton.mp member
      exact fits
  once other raw req arrived parsed := by
    rw [load_respond]
    by_cases same : sink = other
    · subst same
      simp [inv.fresh]
    · simp only [same, if_false, Nat.add_zero]
      exact inv.once other raw req (Ne.symm same) arrived parsed

theorem Arriving.deferred {s : Server υ} {sink : Nat} {message : Json}
    (inv : Arriving s sink message) {req : JsonRpcRequest} (sessionId : SessionId)
    (parsed : parseMessage message = .request req) :
    Disciplined { s with jobs := s.jobs ++ [⟨sink, req, sessionId⟩] } where
  jobs job member := by
    rcases List.mem_append.mp member with member | member
    · exact inv.jobs job member
    · cases List.mem_singleton.mp member
      exact ⟨message, inv.own, parsed⟩
  deliveries := inv.deliveries
  answers := inv.answers
  once other raw req' arrived parsed' := by
    have added : Server.load { s with jobs := s.jobs ++ [⟨sink, req, sessionId⟩] } other =
        s.load other + if sink = other then 1 else 0 := by
      simp only [Server.load, List.countP_append, List.countP_singleton, beq_iff_eq]
      omega
    rw [added]
    by_cases same : sink = other
    · subst same
      simp [inv.fresh]
    · simp only [same, if_false, Nat.add_zero]
      exact inv.once other raw req' (Ne.symm same) arrived parsed'

theorem callBack_queues (s : Server υ) (callback : Handler υ Unit) :
    (s.callBack callback).arrivals = s.arrivals ∧ (s.callBack callback).jobs = s.jobs ∧
      (s.callBack callback).deliveries = s.deliveries ∧
      (s.callBack callback).answers = s.answers := by
  unfold Server.callBack
  split <;> exact ⟨rfl, rfl, rfl, rfl⟩

theorem completeServerRequest_queues (s : Server υ) (id : Int) (ok : Bool) (payload : Json) :
    (s.completeServerRequest id ok payload).arrivals = s.arrivals ∧
      (s.completeServerRequest id ok payload).jobs = s.jobs ∧
      (s.completeServerRequest id ok payload).deliveries = s.deliveries ∧
      (s.completeServerRequest id ok payload).answers = s.answers := by
  unfold Server.completeServerRequest
  split
  · exact ⟨rfl, rfl, rfl, rfl⟩
  · exact callBack_queues _ _

theorem Disciplined.completeServerRequest {s : Server υ} (inv : Disciplined s) (id : Int)
    (ok : Bool) (payload : Json) : Disciplined (s.completeServerRequest id ok payload) := by
  obtain ⟨arrivals, jobs, deliveries, answers⟩ := completeServerRequest_queues s id ok payload
  exact inv.congr arrivals jobs deliveries answers

theorem Disciplined.onClientResponse {s : Server υ} (inv : Disciplined s)
    (resp : JsonRpcSuccessResponse) : Disciplined (s.onClientResponse resp) := by
  unfold Server.onClientResponse
  split
  · exact inv.completeServerRequest _ _ _
  · exact inv

theorem Disciplined.onClientErrorResponse {s : Server υ} (inv : Disciplined s)
    (resp : JsonRpcErrorResponse) : Disciplined (s.onClientErrorResponse resp) := by
  unfold Server.onClientErrorResponse
  split
  · exact inv.completeServerRequest _ _ _
  · exact inv

theorem Disciplined.processNotification {s : Server υ} (inv : Disciplined s)
    (notif : JsonRpcNotification) : Disciplined (s.processNotification notif) := by
  unfold Server.processNotification
  split
  · exact inv.congr rfl rfl rfl rfl
  · split
    · exact inv.congr rfl rfl rfl rfl
    · exact inv

variable (info : ServerInfo)

theorem onMessage_disciplined {s : Server υ} (inv : Disciplined s) (message : Json)
    (sessionId : SessionId) (batch : Bool) :
    Disciplined (s.onMessage info message sessionId batch) := by
  have arriving := inv.arriving message
  simp only [Server.onMessage]
  cases parsed : parseMessage message with
  | request req =>
    simp only
    split
    · exact arriving.deferred sessionId parsed
    · obtain ⟨answers, serving⟩ := processRequest_spec info req sessionId (s.arrived message)
      have arriving := arriving.serving serving
      exact arriving.respond (.inl ⟨message, req, arriving.own, parsed, answers⟩)
  | notification notif =>
    have unanswered := arriving.unanswered fun req => by simp [parsed]
    exact unanswered.processNotification notif
  | success resp =>
    have unanswered := arriving.unanswered fun req => by simp [parsed]
    exact unanswered.onClientResponse resp
  | error resp =>
    simp only
    split
    · have unanswered := arriving.unanswered fun req => by simp [parsed]
      exact unanswered.onClientErrorResponse resp
    · exact arriving.respond (.inr ⟨message, resp, arriving.own, parsed⟩)

/-- A step that only moves a pending call along keeps the discipline. -/
theorem Disciplined.moved {s s' : Server υ} (inv : Disciplined s)
    (arrivals : s'.arrivals = s.arrivals) (jobs : ∀ job ∈ s'.jobs, job ∈ s.jobs)
    (deliveries : ∀ delivery ∈ s'.deliveries, delivery ∈ s.deliveries ∨ s.AnswersRequest delivery)
    (answers : ∀ answer ∈ s'.answers, answer ∈ s.answers ∨ s.AnswersRequest answer)
    (load : ∀ sink, s'.load sink = s.load sink) : Disciplined s' where
  jobs job member := by
    rw [arrivals]
    exact inv.jobs job (jobs job member)
  deliveries delivery member := by
    simp only [Server.AnswersRequest, arrivals]
    rcases deliveries delivery member with old | answers
    · exact inv.deliveries delivery old
    · exact answers
  answers answer member := by
    simp only [Server.AnswersRequest, Server.Rejects, arrivals]
    rcases answers answer member with old | answers
    · exact inv.answers answer old
    · exact .inl answers
  once sink raw req arrived parsed := by
    rw [load]
    exact inv.once sink raw req (arrivals ▸ arrived) parsed

theorem runJob_queues (s : Server υ) (job : Job) :
    ∃ response, IsResponse job.request.id response ∧
      (s.runJob info job).arrivals = s.arrivals ∧ (s.runJob info job).jobs = s.jobs ∧
      (s.runJob info job).deliveries = s.deliveries ++ [(job.sink, response)] ∧
      (s.runJob info job).answers = s.answers := by
  obtain ⟨answers, serving⟩ := processRequest_spec info job.request job.sessionId s
  refine ⟨_, answers, serving.arrivals, serving.jobs, ?_, serving.answers⟩
  simp only [Server.runJob, serving.deliveries]

theorem runJob_disciplined {s : Server υ} (inv : Disciplined s) {place : Nat} {job : Job}
    (queued : s.jobs[place]? = some job) :
    Disciplined ({ s with jobs := s.jobs.eraseIdx place }.runJob info job) := by
  obtain ⟨raw, arrived, parsed⟩ := inv.jobs job (List.mem_of_getElem? queued)
  obtain ⟨response, fits, arrivals, jobs, deliveries, answers⟩ :=
    runJob_queues info { s with jobs := s.jobs.eraseIdx place } job
  refine inv.moved arrivals (fun job' member => ?_) (fun delivery member => ?_)
    (fun answer member => .inl (answers ▸ member)) fun sink => ?_
  · rw [jobs] at member
    exact List.mem_of_mem_eraseIdx member
  · rw [deliveries] at member
    rcases List.mem_append.mp member with member | member
    · exact .inl member
    · cases List.mem_singleton.mp member
      exact .inr ⟨raw, job.request, arrived, parsed, fits⟩
  · have taken := countP_eraseIdx (p := fun j : Job => j.sink == sink) queued
    simp only [Server.load, jobs, deliveries, answers, List.countP_append, List.countP_singleton]
    omega

theorem deliver_disciplined {s : Server υ} (inv : Disciplined s) {place sink : Nat}
    {response : Json} (queued : s.deliveries[place]? = some (sink, response)) :
    Disciplined ({ s with deliveries := s.deliveries.eraseIdx place }.respond sink response) := by
  have fits := inv.deliveries (sink, response) (List.mem_of_getElem? queued)
  refine inv.moved rfl (fun job member => member)
    (fun delivery member => .inl (List.mem_of_mem_eraseIdx member)) (fun answer member => ?_)
    fun other => ?_
  · rcases List.mem_append.mp member with member | member
    · exact .inl member
    · cases List.mem_singleton.mp member
      exact .inr fits
  · have taken := countP_eraseIdx (p := fun d : Nat × Json => d.1 == other) queued
    rw [load_respond]
    simp only [Server.load, beq_iff_eq] at taken ⊢
    omega

theorem sendServerRequest_queues (s : Server υ) (p : OutboundPending υ) (params : Json)
    (sends : Bool) :
    (s.sendServerRequest p params sends).arrivals = s.arrivals ∧
      (s.sendServerRequest p params sends).jobs = s.jobs ∧
      (s.sendServerRequest p params sends).deliveries = s.deliveries ∧
      (s.sendServerRequest p params sends).answers = s.answers := by
  unfold Server.sendServerRequest
  split
  · dsimp only
    split <;> exact ⟨rfl, rfl, rfl, rfl⟩
  · exact ⟨rfl, rfl, rfl, rfl⟩

theorem Disciplined.sendServerRequest {s : Server υ} (inv : Disciplined s)
    (p : OutboundPending υ) (params : Json) (sends : Bool) :
    Disciplined (s.sendServerRequest p params sends) := by
  obtain ⟨arrivals, jobs, deliveries, answers⟩ := sendServerRequest_queues s p params sends
  exact inv.congr arrivals jobs deliveries answers

def ServerEvent.isStop : ServerEvent υ → Bool
  | .stops => true
  | _ => false

theorem step_disciplined {s s' : Server υ} {event : ServerEvent υ} (inv : Disciplined s)
    (goesOn : event.isStop = false) (h : s.step info event = some s') : Disciplined s' := by
  cases event with
  | arrives message sessionId batch =>
    simp only [Server.step, Option.ite_none_left_eq_some, Option.some.injEq] at h
    obtain ⟨-, rfl⟩ := h
    exact onMessage_disciplined info inv message sessionId batch
  | runsJob place =>
    simp only [Server.step] at h
    split at h
    · cases h
      exact runJob_disciplined info inv (by assumption)
    · cases h
  | delivers place =>
    simp only [Server.step] at h
    split at h
    · cases h
      exact deliver_disciplined inv (by assumption)
    · cases h
  | requestsSampling params callbacks sessionId sends =>
    cases h
    unfold Server.requestSampling
    split
    · exact inv.sendServerRequest _ _ _
    · exact inv
  | requestsElicitation params callbacks sessionId sends =>
    cases h
    unfold Server.requestElicitation
    split
    · exact inv.sendServerRequest _ _ _
    · exact inv
  | requestsRoots callbacks sessionId sends =>
    cases h
    unfold Server.requestRoots
    split
    · exact inv.sendServerRequest _ _ _
    · exact inv
  | registers registry =>
    cases h
    split <;> exact inv.congr rfl rfl rfl rfl
  | setsWorkers n =>
    cases h
    split
    · exact inv
    · exact inv.congr rfl rfl rfl rfl
  | runs starts =>
    cases h
    split <;> exact inv.congr rfl rfl rfl rfl
  | setsPageSize n | invalidates =>
    cases h
    exact inv.congr rfl rfl rfl rfl
  | stops => cases goesOn

theorem run_disciplined {user : υ} {events : List (ServerEvent υ)} {s : Server υ}
    (goesOn : ∀ event ∈ events, event.isStop = false)
    (h : run (Server.step info) (Server.initial user) events = some s) : Disciplined s := by
  refine run_invariant (fun s e s' inv goesOn h => step_disciplined info inv goesOn h) ?_
    (meets_of_forall goesOn _) h
  exact ⟨by simp [Server.initial], by simp [Server.initial], by simp [Server.initial],
    by simp [Server.initial]⟩

theorem answersOf_nil {s : Server υ} {sink : Nat}
    (none : ∀ answer ∈ s.answers, answer.1 ≠ sink) : s.answersOf sink = [] := by
  simpa [Server.answersOf] using none

/-- Once the posted work has run, every request's sink was called once, with a response
    to it, and no other sink was called for a notification or a response. -/
theorem every_request_answered_once (user : υ) (events : List (ServerEvent υ)) (s : Server υ)
    (goesOn : ∀ event ∈ events, event.isStop = false)
    (h : run (Server.step info) (Server.initial user) events = some s)
    (worked : s.jobs = [] ∧ s.deliveries = []) (sink : Nat) (raw : Json)
    (arrived : s.arrivals[sink]? = some raw) :
    match parseMessage raw with
    | .request req => ∃ response, s.answersOf sink = [response] ∧ IsResponse req.id response
    | .notification _ => s.answersOf sink = []
    | .success _ => s.answersOf sink = []
    | .error _ => True := by
  have inv := run_disciplined info goesOn h
  have silent (other : ∀ req, parseMessage raw ≠ .request req)
      (clean : ∀ resp, parseMessage raw ≠ .error resp) : s.answersOf sink = [] := by
    refine answersOf_nil fun answer member same => ?_
    subst same
    rcases inv.answers answer member with ⟨raw', req, arrived', parsed, -⟩ | ⟨raw', resp, arrived', parsed⟩
    · rw [arrived] at arrived'
      cases arrived'
      exact other req parsed
    · rw [arrived] at arrived'
      cases arrived'
      exact clean resp parsed
  cases parsed : parseMessage raw with
  | request req =>
    have once := inv.once sink raw req arrived parsed
    simp only [Server.load, worked.1, worked.2, List.countP_nil, Nat.zero_add] at once
    rw [List.countP_eq_length_filter, List.length_eq_one_iff] at once
    obtain ⟨answer, only⟩ := once
    refine ⟨answer.2, by simp [Server.answersOf, only], ?_⟩
    have member : answer ∈ s.answers.filter fun answer => answer.1 == sink := by simp [only]
    obtain ⟨called, same⟩ := List.mem_filter.mp member
    rw [beq_iff_eq] at same
    subst same
    rcases inv.answers answer called with ⟨raw', req', arrived', parsed', fits⟩ | ⟨raw', resp, arrived', parsed'⟩
    · rw [arrived] at arrived'
      cases arrived'
      rw [parsed] at parsed'
      cases parsed'
      exact fits
    · rw [arrived] at arrived'
      cases arrived'
      rw [parsed] at parsed'
      cases parsed'
  | notification notif => exact silent (by simp [parsed]) (by simp [parsed])
  | success resp => exact silent (by simp [parsed]) (by simp [parsed])
  | error resp => exact True.intro

/-- A tool that accepts anything and answers with nothing. -/
def quietTool : Registry Unit :=
  { tools := [("t", ⟨"t", none, none, .object [], none, none⟩, fun _ _ => pure {})] }

def callTool (id : Int) : JsonRpcRequest :=
  ⟨.int id, Protocol.methodToolsCall, some (.object [("name", .string "t")])⟩

def initializedMessage : Json := serializeNotification ⟨Protocol.notifInitialized, none⟩

/-- The call is deferred to a worker and its response delivered from the io thread. -/
def deferredCall : List (ServerEvent Unit) :=
  [.registers quietTool, .setsWorkers 1, .runs true, .arrives initializedMessage [] false,
    .arrives (serializeRequest (callTool 7)) [] false, .runsJob 0, .delivers 0]

theorem deferred_call_answered_once :
    ∃ s, run (Server.step {}) (Server.initial ()) deferredCall = some s ∧
      (∃ response, s.answersOf 1 = [response] ∧ IsResponse (.int 7) response) ∧
      s.answersOf 0 = [] := by
  have shape : (run (Server.step {}) (Server.initial ()) deferredCall).map
      (fun s => ((s.jobs, s.deliveries), s.arrivals)) =
      some (([], []), [initializedMessage, serializeRequest (callTool 7)]) := by decide
  obtain ⟨s, h, seen⟩ := Option.map_eq_some_iff.mp shape
  simp only [Prod.mk.injEq] at seen
  have request : parseMessage (serializeRequest (callTool 7)) = .request (callTool 7) := by decide
  have notification : parseMessage initializedMessage =
      .notification ⟨Protocol.notifInitialized, none⟩ := by decide
  have call := every_request_answered_once {} () deferredCall s (by decide) h seen.1 1
    (serializeRequest (callTool 7)) (by rw [seen.2]; rfl)
  have silence := every_request_answered_once {} () deferredCall s (by decide) h seen.1 0
    initializedMessage (by rw [seen.2]; rfl)
  rw [request] at call
  rw [notification] at silence
  exact ⟨s, h, call, silence⟩

end CppMcp
