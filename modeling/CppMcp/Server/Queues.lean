import CppMcp.Server.Turns

namespace CppMcp

open Lib

variable {υ : Type}

/-- What waits for a worker, what waits for the io thread, and what has been answered. -/
def Server.queues (s : Server υ) : List Job × List (Nat × Json) × List (Nat × Json) :=
  (s.jobs, s.deliveries, s.answers)

theorem Server.Serving.queues {s s' : Server υ} (serving : s.Serving s') : s'.queues = s.queues := by
  simp only [Server.queues, serving.jobs, serving.deliveries, serving.answers]

theorem Server.Aside.queues {s s' : Server υ} (aside : s.Aside s') : s'.queues = s.queues := by
  simp only [Server.queues, aside.jobs, aside.deliveries, aside.answers]

variable (info : ServerInfo)

/-- What becomes of a message that is no part of a batch: it is a request and answered at once or
    left to a worker, or an error that is not the server's own matter and goes back, or nothing
    that is answered. -/
inductive Server.Takes (s : Server υ) (message : Json) (sessionId : SessionId) (s' : Server υ) :
    Prop where
  | answers (req : JsonRpcRequest) (parsed : parseMessage message = .request req)
      (prompt : (s.executor && isDeferrable req.method) = false)
      (queues : s'.queues = (s.jobs, s.deliveries, s.answers ++
        [(s.arrivals.length, (processRequest info req sessionId (s.arrived message)).1)]))
  | defers (req : JsonRpcRequest) (parsed : parseMessage message = .request req)
      (deferred : (s.executor && isDeferrable req.method) = true)
      (queues : s'.queues =
        (s.jobs ++ [⟨s.arrivals.length, req, sessionId⟩], s.deliveries, s.answers))
  | echoes (resp : JsonRpcErrorResponse) (parsed : parseMessage message = .error resp)
      (queues : s'.queues = (s.jobs, s.deliveries, s.answers ++ [(s.arrivals.length,
        makeErrorResponse resp.id resp.error.code resp.error.message resp.error.data)]))
  | hears (other : ∀ req, parseMessage message ≠ .request req) (queues : s'.queues = s.queues)

theorem onMessage_takes (s : Server υ) (message : Json) (sessionId : SessionId) :
    s.Takes info message sessionId (s.onMessage info message sessionId false) := by
  cases parsed : parseMessage message with
  | request req =>
    simp only [Server.onMessage, parsed, Bool.not_false, Bool.and_true]
    split
    · rename_i deferred
      exact .defers req parsed deferred rfl
    · rename_i prompt
      have serving := (processRequest_spec info req sessionId (s.arrived message)).2
      refine .answers req parsed (Bool.eq_false_iff.mpr prompt) ?_
      simp only [Server.queues, Server.respond, serving.jobs, serving.deliveries, serving.answers]
      rfl
  | notification notif =>
    refine .hears (fun req => by simp [parsed]) ?_
    simp only [Server.onMessage, parsed, Server.processNotification]
    split
    · rfl
    · split <;> rfl
  | success resp =>
    refine .hears (fun req => by simp [parsed]) ?_
    simp only [Server.onMessage, parsed, Server.onClientResponse]
    split
    · exact (completeServerRequest_aside (s.arrived message) _ _ _).queues
    · rfl
  | error resp =>
    simp only [Server.onMessage, parsed, Server.onClientErrorResponse]
    split
    · refine .hears (fun req => by simp [parsed]) ?_
      split
      · exact (completeServerRequest_aside (s.arrived message) _ _ _).queues
      · rfl
    · exact .echoes resp parsed rfl

/-- What the server does to its queues on its own: a worker computes an answer, the io thread
    hands one over, or a stop drops what waits. -/
inductive Server.Passes (s : Server υ) (event : ServerEvent υ) (s' : Server υ) : Prop where
  | computes (place : Nat) (job : Job) (works : event = .runsJob place)
      (found : s.jobs[place]? = some job)
      (queues : s'.queues = (s.jobs.eraseIdx place, s.deliveries ++ [(job.sink,
        (processRequest info job.request job.sessionId
          { s with jobs := s.jobs.eraseIdx place }).1)], s.answers))
  | delivers (place : Nat) (delivery : Nat × Json) (found : s.deliveries[place]? = some delivery)
      (queues : s'.queues = (s.jobs, s.deliveries.eraseIdx place, s.answers ++ [delivery]))
  | drops (queues : s'.queues = ([], [], s.answers))
  | rests (queues : s'.queues = s.queues)

theorem step_passes {s s' : Server υ} {event : ServerEvent υ}
    (other : ∀ message sessionId batch, event ≠ .arrives message sessionId batch)
    (h : s.step info event = some s') : s.Passes info event s' := by
  cases step_turns info h with
  | @serves message sessionId batch | @defers message sessionId | @hears message sessionId batch
  | @refuses message sessionId batch => exact absurd rfl (other message sessionId _)
  | @works place job found =>
    have serving := (processRequest_spec info job.request job.sessionId
      { s with jobs := s.jobs.eraseIdx place }).2
    refine .computes place job rfl found ?_
    simp only [Server.queues, Server.runJob, serving.jobs, serving.deliveries, serving.answers]
  | @delivers place sink response found => exact .delivers place (sink, response) found rfl
  | registers | starts => exact .rests rfl
  | fails aside => exact .rests aside.queues
  | stops => exact .drops rfl
  | aside quiet aside => exact .rests aside.queues

variable {info}

theorem step_jobs_sublist {s s' : Server υ} {event : ServerEvent υ}
    (other : ∀ message sessionId batch, event ≠ .arrives message sessionId batch)
    (h : s.step info event = some s') : s'.jobs.Sublist s.jobs := by
  cases step_passes info other h with
  | computes place job _ _ queues =>
    have jobs : s'.jobs = s.jobs.eraseIdx place := congrArg (·.1) queues
    exact jobs ▸ List.eraseIdx_sublist _ _
  | delivers _ _ _ queues =>
    have jobs : s'.jobs = s.jobs := congrArg (·.1) queues
    exact jobs ▸ .refl _
  | drops queues =>
    have jobs : s'.jobs = [] := congrArg (·.1) queues
    exact jobs ▸ List.nil_sublist _
  | rests queues =>
    have jobs : s'.jobs = s.jobs := congrArg (·.1) queues
    exact jobs ▸ .refl _

end CppMcp
