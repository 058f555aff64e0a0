import Mathlib.Logic.Relation
import CppMcp.Client.Frame

namespace CppMcp

open Relation

/-- The call is `on_complete_` or `on_error_` of the request. -/
def Call.finishes (pr : Nat) : Call → Bool
  | .complete place _ | .error place _ => place == pr
  | _ => false

/-- What a step of a client is made of, as far as the ends of its requests go. -/
inductive Client.Moves (env : ClientEnv) : Client → Client → Prop where
  | aside {c c' : Client} (requests : c'.requests = c.requests) (calls : c'.calls = c.calls)
      (callbackQueue : c'.callbackQueue = c.callbackQueue) : Moves env c c'
  | marks {c : Client} (pr : Nat) {f : PendingRequest → PendingRequest}
      (each : ∀ r, ((f r).state = .waiting → r.state = .waiting) ∧ (f r).outcome = r.outcome ∧
        (f r).promise = r.promise) : Moves env c (c.update pr f)
  | tells {c : Client} (label : String) {call : Call} (other : ∀ pr, call.finishes pr = false) :
      Moves env c (c.invoke env label call)
  | reports {c : Client} (pr : Nat) (progress : Double) (total : Option Double) :
      Moves env c (c.dispatch env (.progress pr progress total))
  | finishes {c : Client} (pr : Nat) {outcome : McpOutcome}
      (terminal : outcome.terminal ≠ .waiting) : Moves env c (c.finish env pr outcome)
  | submits {c : Client} (thread : Nat) (args : SubmitArgs) (params : Option Json) :
      Moves env c (c.submitted env thread args params)
  | fires {c : Client} {job : CallbackJob} {rest : List CallbackJob}
      (queued : c.callbackQueue = job :: rest) :
      Moves env c ({ c with callbackQueue := rest }.fire env job)

abbrev Client.Course (env : ClientEnv) : Client → Client → Prop := ReflTransGen (Client.Moves env)

variable (env : ClientEnv)

theorem course_aside {c c' : Client} (requests : c'.requests = c.requests)
    (calls : c'.calls = c.calls) (callbackQueue : c'.callbackQueue = c.callbackQueue) :
    c.Course env c' := .single (.aside requests calls callbackQueue)

theorem rawSend_course (c : Client) (message : Json) : c.Course env (c.rawSend message) := by
  unfold Client.rawSend
  split
  · exact course_aside env rfl rfl rfl
  · exact .refl

theorem handleInboundRequest_course (c : Client) (req : JsonRpcRequest) :
    c.Course env (c.handleInboundRequest env req) := by
  unfold Client.handleInboundRequest Client.dispatchInboundRequest
  repeat' split
  · exact rawSend_course env c _
  · exact course_aside env rfl rfl rfl
  · exact course_aside env rfl rfl rfl
  · exact rawSend_course env c _

theorem pushCall_other {notif : JsonRpcNotification} {call : Call}
    (h : pushCall env notif = some (.ok call)) (pr : Nat) : call.finishes pr = false := by
  obtain ⟨uri, rfl⟩ | ⟨kind, rfl⟩ | ⟨msg, rfl⟩ | rfl := pushCall_kinds h <;> rfl

theorem handlePush_course (c : Client) (notif : JsonRpcNotification) :
    c.Course env (c.handlePush env notif) := by
  unfold Client.handlePush
  split
  · exact .refl
  · rename_i call pushed
    exact .single (.tells _ (pushCall_other env pushed))
  · exact course_aside env rfl rfl rfl

theorem deliverProgress_course (c : Client) (pr : Nat) (progress : Double) (total : Option Double) :
    c.Course env (c.deliverProgress env pr progress total) := by
  unfold Client.deliverProgress
  split
  · exact .refl
  · split
    · exact .single (.reports pr progress total)
    · exact .refl

theorem handleProgress_course {c c' : Client} {p : Json} (h : c.handleProgress env p = .ok c') :
    c.Course env c' := by
  unfold Client.handleProgress at h
  split at h
  · cases h
    exact .refl
  · split at h
    · cases h
      exact .refl
    · obtain ⟨progress, -, h⟩ := Lib.bind_eq_ok.mp h
      obtain ⟨total, -, h⟩ := Lib.bind_eq_ok.mp h
      split at h
      · cases h
        exact deliverProgress_course env c _ _ _
      · cases h
        exact .refl

theorem completePending_course (c : Client) (id : RequestId) {outcome : McpOutcome}
    (terminal : outcome.terminal ≠ .waiting) : c.Course env (c.completePending env id outcome) := by
  have forgotten {before : Client} (pr : Nat) (r : PendingRequest) {final : McpOutcome}
      (start : c.Course env before) (terminal : final.terminal ≠ .waiting) :
      c.Course env ((before.forget id r).finish env pr final) := by
    have gone : c.Course env (before.forget id r) := start.tail (.aside rfl rfl rfl)
    exact gone.tail (.finishes pr terminal)
  unfold Client.completePending
  split
  · exact .refl
  · split
    · exact .refl
    · split
      · split
        · rename_i ir _
          have accepted : c.Course env
              { c with serverResult := some ir, connected := true, initialized := true } :=
            course_aside env rfl rfl rfl
          exact forgotten _ _ (accepted.trans (rawSend_course env _ _)) terminal
        · exact forgotten _ _ .refl (by decide)
        · exact forgotten _ _ (course_aside env rfl rfl rfl) (by decide)
      · exact forgotten _ _ .refl terminal

theorem onTimer_course (c : Client) (pr : Nat) : c.Course env (c.onTimer env pr) := by
  rcases onTimer_cases env c pr with same | ⟨r, outcome, -, terminal, eq⟩
  · rw [same]
  · rw [eq]
    exact completePending_course env c r.id terminal

theorem cancelTask_course (c : Client) (id : RequestId) (reason : String) :
    c.Course env (c.cancelTask env id reason) := by
  unfold Client.cancelTask
  repeat' split
  all_goals first
    | exact .refl
    | exact (rawSend_course env c _).trans (completePending_course env _ _ (by simp))

theorem onTransportMessage_course {c c' : Client} {message : Json}
    (h : c.onTransportMessage env message = .ok c') : c.Course env c' := by
  unfold Client.onTransportMessage Client.handleNotification at h
  split at h
  · cases h
    exact handleInboundRequest_course env c _
  · split at h
    · exact handleProgress_course env h
    · cases h
      exact handlePush_course env c _
  · cases h
    exact completePending_course env c _ (by simp)
  · cases h
    exact completePending_course env c _ (by simp)

theorem failPending_course (reason : String) (c : Client) (pr : Nat) :
    c.Course env (c.failPending env reason pr) := by
  unfold Client.failPending
  split
  · exact .refl
  · split
    · exact .single (.finishes pr (by simp))
    · exact .refl

theorem failLoop_course (reason : String) (prs : List Nat) (c : Client) :
    c.Course env (prs.foldl (Client.failPending env reason) c) := by
  induction prs generalizing c with
  | nil => exact .refl
  | cons pr prs ih => exact (failPending_course env reason c pr).trans (ih _)

theorem drain_course (c : Client) (reason : String) : c.Course env (c.drain env reason) := by
  have cut : c.Course env { c with connected := false } := course_aside env rfl rfl rfl
  have failed := failLoop_course env reason c.keyedRequests { c with connected := false }
  exact (cut.trans failed).tail (.aside rfl rfl rfl)

theorem onTransportDisconnect_course (c : Client) : c.Course env (c.onTransportDisconnect env) := by
  have drained := drain_course env c "transport disconnected"
  unfold Client.onTransportDisconnect
  simp only
  split
  · exact drained.tail (.tells _ fun _ => rfl)
  · exact drained

theorem registerTask_course (c : Client) (pr : Nat) (params : Option Json) :
    c.Course env (c.registerTask pr params) := by
  unfold Client.registerTask
  split
  · exact .refl
  · rename_i r _
    have keyed : c.Course env (c.registerPending pr r) := by
      have marked : c.Course env (c.update pr fun r => { r with registered := true }) :=
        .single (.marks pr fun _ => ⟨id, rfl, rfl⟩)
      exact marked.tail (.aside rfl rfl rfl)
    simp only
    split
    · have armed : c.Course env
          ((c.registerPending pr r).update pr fun r => { r with timer := true }) :=
        keyed.tail (.marks pr fun _ => ⟨id, rfl, rfl⟩)
      exact armed.trans (rawSend_course env _ _)
    · exact keyed.trans (rawSend_course env _ _)

theorem runTask_course (c : Client) (task : Task) : c.Course env (c.runTask env task) := by
  cases task with
  | register pr params => exact registerTask_course env c pr params
  | message message =>
    simp only [Client.runTask]
    split
    · rename_i handled
      exact onTransportMessage_course env handled
    · rename_i e _
      split
      · have died : c.Course env { c with
            log := c.log ++ ["McpClient io loop died: " ++ e.what], ioAlive := false,
            ended := true } := course_aside env rfl rfl rfl
        exact died.trans (onTransportDisconnect_course env _)
      · exact .refl
  | transportDisconnect => exact onTransportDisconnect_course env c
  | cancel id reason => exact cancelTask_course env c id reason
  | timer pr => exact onTimer_course env c pr
  | drain reason => exact drain_course env c reason
  | send message => exact rawSend_course env c message

/-- Every step of a client is some moves, one after the other. -/
theorem step_course {c c' : Client} {event : ClientEvent} (h : c.step env event = some c') :
    c.Course env c' := by
  cases step_cases h with
  | builds thread args =>
    simp only [Client.submitBuild]
    split
    · exact course_aside env rfl rfl rfl
    · exact .single (.submits thread args _)
  | runTask task rest =>
    have taken : c.Course env { c with strand := rest } := course_aside env rfl rfl rfl
    exact taken.trans (runTask_course env _ task)
  | timerExpires pr =>
    have unarmed : c.Course env (c.update pr fun r => { r with timer := false }) :=
      .single (.marks pr fun _ => ⟨id, rfl, rfl⟩)
    exact unarmed.tail (.aside rfl rfl rfl)
  | runCallback job rest queued => exact .single (.fires queued)
  | disconnectInline =>
    have closed : c.Course env { c with ended := true } := course_aside env rfl rfl rfl
    exact closed.trans (drain_course env _ _)
  | stopDrainsInline =>
    have closed : c.Course env { c with ended := true, stopDrained := true } :=
      course_aside env rfl rfl rfl
    exact closed.trans (drain_course env _ _)
  | tests thread args =>
    unfold Client.submitTest
    split
    · exact .refl
    · exact course_aside env rfl rfl rfl
  | _ => exact course_aside env rfl rfl rfl

end CppMcp
