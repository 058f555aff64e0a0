import CppMcp.Server.Holdings
import CppMcp.Server.Turns

namespace CppMcp

open Lib

variable {υ : Type}

def isGreeting (raw : Json) : Bool :=
  match parseMessage raw with
  | .request req => req.method == Protocol.methodInitialize
  | _ => false

/-- The results of the `initialize` requests that were answered with success, in order. -/
def Server.greetings (s : Server υ) : List Json :=
  s.answers.filterMap fun answer =>
    if (s.arrivals[answer.1]?).any isGreeting then answer.2.find? "result" else none

/-- What is answered has arrived, and what waits for its answer is no `initialize`. -/
structure Server.Orderly (s : Server υ) : Prop where
  answers : ∀ answer ∈ s.answers, ∃ raw, s.arrivals[answer.1]? = some raw
  jobs : ∀ job ∈ s.jobs, ∃ raw, s.arrivals[job.sink]? = some raw ∧ isGreeting raw = false
  deliveries : ∀ delivery ∈ s.deliveries, ∃ raw, s.arrivals[delivery.1]? = some raw ∧
    isGreeting raw = false

theorem isGreeting_deferrable {raw : Json} {req : JsonRpcRequest}
    (parsed : parseMessage raw = .request req) (deferrable : isDeferrable req.method = true) :
    isGreeting raw = false := by
  unfold isGreeting
  rw [parsed]
  simpa using (deferrable_serves deferrable).1

theorem isGreeting_quiet {raw : Json} (quiet : ∀ req, parseMessage raw ≠ .request req) :
    isGreeting raw = false := by
  unfold isGreeting
  cases parsed : parseMessage raw with
  | request req => exact absurd parsed (quiet req)
  | _ => rfl

theorem Server.Orderly.arrived {s : Server υ} (orderly : s.Orderly) (message : Json) :
    (s.arrived message).Orderly where
  answers answer member := by
    obtain ⟨raw, arrived⟩ := orderly.answers answer member
    exact ⟨raw, arrivals_kept arrived⟩
  jobs job member := by
    obtain ⟨raw, arrived, other⟩ := orderly.jobs job member
    exact ⟨raw, arrivals_kept arrived, other⟩
  deliveries delivery member := by
    obtain ⟨raw, arrived, other⟩ := orderly.deliveries delivery member
    exact ⟨raw, arrivals_kept arrived, other⟩

theorem Server.Orderly.congr {s s' : Server υ} (orderly : s.Orderly)
    (arrivals : s'.arrivals = s.arrivals) (answers : s'.answers = s.answers)
    (jobs : ∀ job ∈ s'.jobs, job ∈ s.jobs)
    (deliveries : ∀ delivery ∈ s'.deliveries, delivery ∈ s.deliveries) : s'.Orderly where
  answers := by
    rw [arrivals, answers]
    exact orderly.answers
  jobs job member := by
    rw [arrivals]
    exact orderly.jobs job (jobs job member)
  deliveries delivery member := by
    rw [arrivals]
    exact orderly.deliveries delivery (deliveries delivery member)

theorem Server.Orderly.respond {s : Server υ} (orderly : s.Orderly) {sink : Nat} {raw : Json}
    (arrived : s.arrivals[sink]? = some raw) (response : Json) :
    (s.respond sink response).Orderly where
  answers answer member := by
    rcases List.mem_append.mp member with before | new
    · exact orderly.answers answer before
    · rw [List.mem_singleton.mp new]
      exact ⟨raw, arrived⟩
  jobs := orderly.jobs
  deliveries := orderly.deliveries

theorem Server.Orderly.aside {s s' : Server υ} (orderly : s.Orderly) (aside : s.Aside s') :
    s'.Orderly := by
  apply orderly.congr aside.arrivals aside.answers
  · simp [aside.jobs]
  · simp [aside.deliveries]

theorem initial_orderly (user : υ) : (Server.initial user).Orderly := by
  constructor <;> simp [Server.initial]

theorem greetings_append {s s' : Server υ} (orderly : s.Orderly) {message : Json}
    {added : List (Nat × Json)} (arrivals : s'.arrivals = s.arrivals ++ [message])
    (answers : s'.answers = s.answers ++ added) :
    s'.greetings = s.greetings ++ added.filterMap fun answer =>
      if (s'.arrivals[answer.1]?).any isGreeting then answer.2.find? "result" else none := by
  unfold Server.greetings
  rw [answers, List.filterMap_append]
  congr 1
  apply List.filterMap_congr
  intro answer member
  obtain ⟨raw, arrived⟩ := orderly.answers answer member
  have kept : (s.arrived message).arrivals[answer.1]? = some raw := arrivals_kept arrived
  have same : s'.arrivals = (s.arrived message).arrivals := arrivals
  rw [same, kept, arrived]

variable (info : ServerInfo)

theorem processed_orderly {s : Server υ} (orderly : s.Orderly) (req : JsonRpcRequest)
    (sessionId : SessionId) : (processRequest info req sessionId s).2.Orderly := by
  have serving := (processRequest_spec info req sessionId s).2
  refine orderly.congr serving.arrivals serving.answers (fun job member => ?_)
    fun delivery member => ?_
  · rwa [serving.jobs] at member
  · rwa [serving.deliveries] at member

theorem turns_orderly {s s' : Server υ} (orderly : s.Orderly) {event : ServerEvent υ}
    (turns : s.Turns info event s') : s'.Orderly := by
  cases turns with
  | @serves message sessionId batch req parsed =>
    have processed := processed_orderly info (orderly.arrived message) req sessionId
    have serving := (processRequest_spec info req sessionId (s.arrived message)).2
    have last : (processRequest info req sessionId (s.arrived message)).2.arrivals[
        s.arrivals.length]? = some message := by
      rw [serving.arrivals]
      exact arrivals_last s message
    exact processed.respond last _
  | @defers message sessionId req parsed deferrable =>
    have arrived := orderly.arrived message
    refine ⟨arrived.answers, fun job member => ?_, arrived.deliveries⟩
    rcases List.mem_append.mp member with before | new
    · exact arrived.jobs job before
    · rw [List.mem_singleton.mp new]
      exact ⟨message, arrivals_last s message, isGreeting_deferrable parsed deferrable⟩
  | @works place job found =>
    obtain ⟨response, -, arrivals, jobs, deliveries, answers⟩ :=
      runJob_queues info { s with jobs := s.jobs.eraseIdx place } job
    constructor
    · rw [arrivals, answers]
      exact orderly.answers
    · intro other member
      rw [jobs] at member
      rw [arrivals]
      exact orderly.jobs other (List.mem_of_mem_eraseIdx member)
    · intro delivery member
      rw [deliveries] at member
      rw [arrivals]
      rcases List.mem_append.mp member with before | new
      · exact orderly.deliveries delivery before
      · rw [List.mem_singleton.mp new]
        exact orderly.jobs job (List.mem_of_getElem? found)
  | @delivers place sink response found =>
    obtain ⟨raw, arrived, -⟩ := orderly.deliveries _ (List.mem_of_getElem? found)
    have left : Server.Orderly { s with deliveries := s.deliveries.eraseIdx place } :=
      orderly.congr rfl rfl (fun _ member => member) fun _ member =>
        List.mem_of_mem_eraseIdx member
    exact left.respond arrived response
  | registers registry | starts => exact ⟨orderly.answers, orderly.jobs, orderly.deliveries⟩
  | fails aside =>
    have unfrozen : Server.Orderly { s with frozen := none } :=
      ⟨orderly.answers, orderly.jobs, orderly.deliveries⟩
    exact unfrozen.aside aside
  | stops => exact orderly.congr rfl rfl (by simp) (by simp)
  | @hears message sessionId batch s' other aside => exact (orderly.arrived message).aside aside
  | @refuses message sessionId batch other response =>
    exact (orderly.arrived message).respond (arrivals_last s message) response
  | aside quiet aside => exact orderly.aside aside

theorem run_orderly {user : υ} {events : List (ServerEvent υ)} {s : Server υ}
    (h : run (Server.step info) (Server.initial user) events = some s) : s.Orderly :=
  run_keeps (fun _ _ _ orderly stepped => turns_orderly info orderly (step_turns info stepped))
    (initial_orderly user) h

/-- The event is a request that comes in, and that the server processes at once. -/
def ServerEvent.Brings (event : ServerEvent υ) (req : JsonRpcRequest) (message : Json)
    (sessionId : SessionId) : Prop :=
  ∃ batch, event = .arrives message sessionId batch ∧ parseMessage message = .request req

theorem greetings_same {s s' : Server υ} (arrivals : s'.arrivals = s.arrivals)
    (answers : s'.answers = s.answers) : s'.greetings = s.greetings := by
  unfold Server.greetings
  rw [arrivals, answers]

theorem greetings_arrived {s s' : Server υ} (orderly : s.Orderly) {message : Json}
    (arrivals : s'.arrivals = s.arrivals ++ [message]) (answers : s'.answers = s.answers) :
    s'.greetings = s.greetings := by
  have unanswered : s'.answers = s.answers ++ [] := by rw [answers, List.append_nil]
  have same := greetings_append orderly arrivals unanswered
  rwa [List.filterMap_nil, List.append_nil] at same

theorem greetings_answered {s s' : Server υ} (orderly : s.Orderly) {message response : Json}
    (arrivals : s'.arrivals = s.arrivals ++ [message])
    (answers : s'.answers = s.answers ++ [(s.arrivals.length, response)]) :
    s'.greetings = s.greetings ++
      (if isGreeting message then response.find? "result" else none).toList := by
  have last : s'.arrivals[s.arrivals.length]? = some message := by
    rw [arrivals]
    exact arrivals_last s message
  rw [greetings_append orderly arrivals answers]
  congr 1
  simp only [List.filterMap_cons, last, Option.any_some, List.filterMap_nil]
  split <;> rename_i answered <;> rw [answered] <;> rfl

/-- Only an `initialize` that arrives can greet a session. -/
theorem turns_greetings {s s' : Server υ} (orderly : s.Orderly) {event : ServerEvent υ}
    (turns : s.Turns info event s') :
    (∃ req message sessionId, event.Brings req message sessionId ∧
      req.method = Protocol.methodInitialize ∧
      s' = (processRequest info req sessionId (s.arrived message)).2.respond s.arrivals.length
        (processRequest info req sessionId (s.arrived message)).1 ∧
      s'.greetings = s.greetings ++
        ((processRequest info req sessionId (s.arrived message)).1.find? "result").toList) ∨
    ((∀ req message sessionId, event.Brings req message sessionId →
      req.method ≠ Protocol.methodInitialize) ∧ s'.greetings = s.greetings) := by
  cases turns with
  | @serves message sessionId batch req parsed =>
    have serving := (processRequest_spec info req sessionId (s.arrived message)).2
    have answered : ((processRequest info req sessionId (s.arrived message)).2.respond
        s.arrivals.length (processRequest info req sessionId (s.arrived message)).1).greetings = _ :=
      greetings_answered orderly serving.arrivals
        (congrArg (· ++ [(s.arrivals.length, (processRequest info req sessionId
          (s.arrived message)).1)]) serving.answers)
    have own : isGreeting message = (req.method == Protocol.methodInitialize) := by
      unfold isGreeting
      rw [parsed]
    by_cases greets : req.method = Protocol.methodInitialize
    · refine .inl ⟨req, message, sessionId, ⟨batch, rfl, parsed⟩, greets, rfl, ?_⟩
      rw [answered, own, greets]
      rfl
    · refine .inr ⟨?_, ?_⟩
      · rintro req' message' sessionId' ⟨batch', same, parsed'⟩
        cases same
        rw [parsed] at parsed'
        cases parsed'
        exact greets
      · rw [answered, own, beq_eq_false_iff_ne.mpr greets]
        exact List.append_nil _
  | @defers message sessionId req parsed deferrable =>
    refine .inr ⟨?_, greetings_arrived orderly rfl rfl⟩
    rintro req' message' sessionId' ⟨batch', same, parsed'⟩
    cases same
    rw [parsed] at parsed'
    cases parsed'
    exact (deferrable_serves deferrable).1
  | @works place job found =>
    refine .inr ⟨?_, ?_⟩
    · rintro req' message' sessionId' ⟨batch', same, -⟩
      cases same
    · obtain ⟨-, -, arrivals, -, -, answers⟩ :=
        runJob_queues info { s with jobs := s.jobs.eraseIdx place } job
      exact greetings_same arrivals answers
  | @delivers place sink response found =>
    refine .inr ⟨?_, ?_⟩
    · rintro req' message' sessionId' ⟨batch', same, -⟩
      cases same
    · obtain ⟨raw, arrived, other⟩ := orderly.deliveries _ (List.mem_of_getElem? found)
      have sinks : s.arrivals[sink]? = some raw := arrived
      unfold Server.greetings Server.respond
      simp [sinks, other]
  | registers registry | starts | stops =>
    refine .inr ⟨?_, rfl⟩
    rintro req' message' sessionId' ⟨batch', same, -⟩
    cases same
  | fails aside =>
    refine .inr ⟨?_, greetings_same aside.arrivals aside.answers⟩
    rintro req' message' sessionId' ⟨batch', same, -⟩
    cases same
  | hears other aside =>
    refine .inr ⟨?_, greetings_arrived orderly aside.arrivals aside.answers⟩
    rintro req' message' sessionId' ⟨batch', same, parsed'⟩
    cases same
    exact absurd parsed' (other req')
  | @refuses message sessionId batch other response =>
    refine .inr ⟨?_, ?_⟩
    · rintro req' message' sessionId' ⟨batch', same, parsed'⟩
      cases same
      exact absurd parsed' (other req')
    · have answered : ((s.arrived message).respond s.arrivals.length response).greetings = _ :=
        greetings_answered orderly rfl rfl
      rw [answered, isGreeting_quiet other]
      exact List.append_nil _
  | aside quiet aside =>
    refine .inr ⟨?_, greetings_same aside.arrivals aside.answers⟩
    rintro req' message' sessionId' ⟨batch', same, -⟩
    cases same
    cases quiet

end CppMcp
