import CppMcp.Client.Answers
import CppMcp.Client.Discipline

namespace CppMcp

open Lib

variable (env : ClientEnv)

/-- The responses that the strand and the worker pool still owe. -/
def Client.owed (c : Client) : List Json :=
  c.strand.flatMap (Task.owes env) ++ c.pool.map (InboundJob.response env)

theorem answers_owed (c : Client) :
    c.answers env = c.sent.filter isResponse ++ c.owed env := by
  simp only [Client.answers, Client.owed, List.append_assoc]

theorem owed_congr {c c' : Client} (strand : c'.strand = c.strand) (pool : c'.pool = c.pool) :
    c'.owed env = c.owed env := by
  simp only [Client.owed, strand, pool]

theorem posted_owed (c : Client) (task : Task) :
    ((c.post task).owed env).Perm (c.owed env ++ task.owes env) := by
  refine List.perm_iff_count.mpr fun response => ?_
  simp only [Client.post, Client.owed, List.flatMap_append, List.flatMap_cons, List.flatMap_nil,
    List.append_nil, List.count_append]
  omega

theorem rawSend_owed (c : Client) (m : Json) : (c.rawSend m).owed env = c.owed env := by
  rw [rawSend_eq]
  rfl

theorem handleInboundRequest_owed (c : Client) (req : JsonRpcRequest) :
    ((c.handleInboundRequest env req).owed env).Subperm (c.owed env ++ [inboundAnswer env req]) := by
  have same {c' : Client} (owed : c'.owed env = c.owed env) :
      (c'.owed env).Subperm (c.owed env ++ [inboundAnswer env req]) := by
    rw [owed]
    exact (List.sublist_append_left _ _).subperm
  by_cases ping : req.method = Protocol.methodPing
  · simp only [Client.handleInboundRequest, ping, if_true]
    exact same (rawSend_owed env c _)
  · by_cases handled : req.method = Protocol.methodSamplingCreate ∨
        req.method = Protocol.methodElicitationCreate ∨ req.method = Protocol.methodRootsList
    · simp only [Client.handleInboundRequest, Client.dispatchInboundRequest, inboundAnswer, ping,
        handled, if_true, if_false]
      split
      · refine List.Perm.subperm (.of_eq ?_)
        simp [Client.owed]
      · have posted := posted_owed env c
          (.send (InboundJob.response env ⟨req.id, req.method, req.params.getD (.object [])⟩))
        simp only [Task.owes, List.filter_cons, response_isResponse, if_true, List.filter_nil] at posted
        exact posted.subperm
    · simp only [Client.handleInboundRequest, ping, handled, if_false]
      exact same (rawSend_owed env c _)

theorem runTask_owed (c : Client) (task : Task) :
    ((c.runTask env task).owed env).Subperm (c.owed env ++ task.owes env) := by
  have ran := runTask_ran env c task
  generalize c.runTask env task = c' at ran ⊢
  have same (owed : c'.owed env = c.owed env) :
      (c'.owed env).Subperm (c.owed env ++ task.owes env) := by
    rw [owed]
    exact (List.sublist_append_left _ _).subperm
  cases ran with
  | sends m => exact same (rawSend_owed env c m)
  | @serves m req parsed =>
    simp only [Task.owes, inboundRequest, parsed]
    exact handleInboundRequest_owed env c req
  | @reports m pr progress total =>
    obtain ⟨calls, callbackQueue, log, eq⟩ := dispatch_eq env c (.progress pr progress total)
    refine same ?_
    rw [eq]
    rfl
  | accepts parsed accepted works => exact same (owed_congr env works.strand works.pool)
  | works response quiet works => exact same (owed_congr env works.strand works.pool)

/-- What is owed afterwards was owed before, or is the answer to a request that arrives. -/
theorem step_owed {c c' : Client} {event : ClientEvent} (h : c.step env event = some c') :
    (c'.owed env).Subperm (c.owed env ++ (inboundRequests [event]).map (inboundAnswer env)) := by
  have same {before after : Client} {more : List Json} (owed : after.owed env = before.owed env) :
      (after.owed env).Subperm (before.owed env ++ more) := by
    rw [owed]
    exact (List.sublist_append_left _ _).subperm
  have posted {before : Client} {task : Task} {more : List Json}
      (owed : before.owed env = c.owed env) (owes : task.owes env = more) :
      ((before.post task).owed env).Subperm (c.owed env ++ more) := by
    rw [← owed, ← owes]
    exact (posted_owed env before task).subperm
  cases step_cases h with
  | arrives m =>
    refine posted rfl ?_
    cases asked : inboundRequest m <;> simp [inboundRequests, Task.owes, asked]
  | runTask task rest head alive =>
    have ran := runTask_owed env { c with strand := rest } task
    refine ran.trans (List.Perm.subperm (List.perm_iff_count.mpr fun response => ?_))
    simp only [Client.owed, head, inboundRequests, List.flatMap_cons, List.flatMap_nil,
      List.append_nil, List.map_nil, List.count_append]
    omega
  | runJob place job found =>
    obtain ⟨bound, rfl⟩ := List.getElem?_eq_some_iff.mp found
    have pool := (List.getElem_cons_eraseIdx_perm bound).map (InboundJob.response env)
    have ran := posted_owed env { c with pool := c.pool.eraseIdx place }
      (.send (c.pool[place].response env))
    refine (ran.trans (List.perm_iff_count.mpr fun response => ?_)).subperm
    have counted := pool.count_eq response
    simp only [List.map_cons, List.count_cons] at counted
    simp only [Client.owed, Task.owes, inboundRequests, List.flatMap_cons, List.flatMap_nil,
      List.map_nil, List.append_nil, List.count_append, List.count_cons, ← counted,
      List.filter_cons, response_isResponse, if_true, List.filter_nil, List.count_nil]
    omega
  | tests thread args =>
    refine same ?_
    unfold Client.submitTest
    split <;> rfl
  | builds thread args =>
    refine same ?_
    unfold Client.submitBuild
    split <;> rfl
  | runCallback job rest queued =>
    obtain ⟨calls, log, eq⟩ := fire_eq env { c with callbackQueue := rest } job
    refine same ?_
    rw [eq]
    rfl
  | disconnectInline | stopDrainsInline =>
    refine same (owed_congr env (drain_works env _ _).strand ?_)
    exact (drain_works env _ _).pool
  | posts | cancel | peerCloses | timerExpires | disconnect | stopDrains => exact posted rfl rfl
  | connect | rollback | stopBegins | stopEnds => exact same rfl

/-- What a client sends is behind what it has sent, and without a transport it sends nothing. -/
theorem step_grows {c c' : Client} {event : ClientEvent} (protocol : InProtocol c)
    (apart : event.keepsTokensApart = true) (h : c.step env event = some c') :
    c'.sent = c.sent ++ c'.sent.drop c.sent.length ∧
      (c.transport = false → c'.sent.drop c.sent.length = []) := by
  have grown (news : List Json) (sent : c'.sent = c.sent ++ if c.transport then news else []) :
      c'.sent = c.sent ++ c'.sent.drop c.sent.length ∧
        (c.transport = false → c'.sent.drop c.sent.length = []) := by
    rw [sent, List.drop_left]
    exact ⟨rfl, fun gone => by simp [gone]⟩
  cases (step_keepsProtocol env protocol apart h).2 with
  | speaks said speaking => exact grown _ speaking.adds.sent
  | builds r sent => exact grown [] (by simp [sent])
  | leaves sent => exact grown [] (by simp [sent])

/-- With a transport the responses that are sent or owed are those owed before, and those to the
    requests that arrive. -/
theorem step_replies_there {c c' : Client} {event : ClientEvent} (protocol : InProtocol c)
    (apart : event.keepsTokensApart = true) (there : c.transport = true)
    (h : c.step env event = some c') :
    ((c'.sent.drop c.sent.length).filter isResponse ++ c'.owed env).Perm
      (c.owed env ++ (inboundRequests [event]).map (inboundAnswer env)) := by
  have answers := step_answers env there h
  rw [answers_owed, answers_owed, (step_grows env protocol apart h).1, List.filter_append,
    List.append_assoc, List.append_assoc, List.perm_append_left_iff] at answers
  exact answers

/-- A response that is sent or owed was owed before, or a request arrives that it answers. -/
theorem step_replies {c c' : Client} {event : ClientEvent} (protocol : InProtocol c)
    (apart : event.keepsTokensApart = true) (h : c.step env event = some c') :
    ((c'.sent.drop c.sent.length).filter isResponse ++ c'.owed env).Subperm
      (c.owed env ++ (inboundRequests [event]).map (inboundAnswer env)) := by
  cases there : c.transport with
  | true => exact (step_replies_there env protocol apart there h).subperm
  | false =>
    rw [(step_grows env protocol apart h).2 there]
    exact step_owed env h

end CppMcp
