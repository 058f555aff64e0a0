import CppMcp.Client.Machine
import CppMcp.Lib.Table

namespace CppMcp

open Lib

def Task.isSend : Task → Bool
  | .send _ => true
  | _ => false

/-- A request after a step that registers nothing: it may settle, never start to wait. -/
structure PendingRequest.Settles (r r' : PendingRequest) : Prop where
  id : r'.id = r.id
  progressToken : r'.progressToken = r.progressToken
  registered : r'.registered = r.registered
  waiting : r'.state = .waiting → r.state = .waiting

theorem PendingRequest.Settles.refl (r : PendingRequest) : r.Settles r := ⟨rfl, rfl, rfl, fun h => h⟩

theorem PendingRequest.Settles.trans {r s t : PendingRequest} (first : r.Settles s)
    (second : s.Settles t) : r.Settles t :=
  ⟨second.id.trans first.id, second.progressToken.trans first.progressToken,
    second.registered.trans first.registered, fun h => first.waiting (second.waiting h)⟩

/-- What a strand task other than a registration leaves behind: requests settle, keys
    are only taken away, and only responses to the server's requests are posted. -/
structure Client.Settles (c c' : Client) : Prop where
  length : c'.requests.length = c.requests.length
  requests : ∀ (pr : Nat) (r : PendingRequest), c.requests[pr]? = some r →
    ∃ r', c'.requests[pr]? = some r' ∧ r.Settles r'
  pendingMap : ∀ key pr, c'.pendingMap.lookup key = some pr → c.pendingMap.lookup key = some pr
  nextId : c'.nextId = c.nextId
  submissions : c'.submissions = c.submissions
  stopDrained : c'.stopDrained = c.stopDrained
  ended : c'.ended = c.ended
  ioAlive : c'.ioAlive = c.ioAlive
  posted : ∃ tasks, c'.strand = c.strand ++ tasks ∧ ∀ task ∈ tasks, task.isSend = true

theorem Client.Settles.refl (c : Client) : c.Settles c :=
  ⟨rfl, fun _ r h => ⟨r, h, .refl r⟩, fun _ _ h => h, rfl, rfl, rfl, rfl, rfl, [], by simp,
    by simp⟩

theorem Client.Settles.trans {a b c : Client} (first : a.Settles b) (second : b.Settles c) :
    a.Settles c where
  length := second.length.trans first.length
  requests pr r h := by
    obtain ⟨r', h', settles⟩ := first.requests pr r h
    obtain ⟨r'', h'', settles'⟩ := second.requests pr r' h'
    exact ⟨r'', h'', settles.trans settles'⟩
  pendingMap key pr h := first.pendingMap key pr (second.pendingMap key pr h)
  nextId := second.nextId.trans first.nextId
  submissions := second.submissions.trans first.submissions
  stopDrained := second.stopDrained.trans first.stopDrained
  ended := second.ended.trans first.ended
  ioAlive := second.ioAlive.trans first.ioAlive
  posted := by
    obtain ⟨front, eq, off⟩ := first.posted
    obtain ⟨back, eq', off'⟩ := second.posted
    refine ⟨front ++ back, by rw [eq', eq, List.append_assoc], ?_⟩
    intro task member
    rcases List.mem_append.mp member with member | member
    · exact off _ member
    · exact off' _ member

theorem Client.Settles.back {c c' : Client} (settles : c.Settles c') {pr : Nat}
    {r' : PendingRequest} (h : c'.requests[pr]? = some r') :
    ∃ r, c.requests[pr]? = some r ∧ r.Settles r' := by
  have bound : pr < c.requests.length := by
    rw [← settles.length]
    exact (List.getElem?_eq_some_iff.mp h).1
  obtain ⟨s, same, step⟩ := settles.requests pr _ (List.getElem?_eq_getElem bound)
  rw [h] at same
  cases same
  exact ⟨_, List.getElem?_eq_getElem bound, step⟩

/-- A step that leaves the requests, the keys and the shutdown flags as they are. -/
structure Client.Aside (c c' : Client) : Prop where
  requests : c'.requests = c.requests
  pendingMap : c'.pendingMap = c.pendingMap
  nextId : c'.nextId = c.nextId
  submissions : c'.submissions = c.submissions
  stopDrained : c'.stopDrained = c.stopDrained
  ended : c'.ended = c.ended
  ioAlive : c'.ioAlive = c.ioAlive
  posted : ∃ tasks, c'.strand = c.strand ++ tasks ∧ ∀ task ∈ tasks, task.isSend = true

theorem Client.Aside.settles {c c' : Client} (aside : c.Aside c') : c.Settles c' where
  length := by rw [aside.requests]
  requests pr r h := ⟨r, by rw [aside.requests, h], .refl r⟩
  pendingMap key pr h := by rw [← aside.pendingMap, h]
  nextId := aside.nextId
  submissions := aside.submissions
  stopDrained := aside.stopDrained
  ended := aside.ended
  ioAlive := aside.ioAlive
  posted := aside.posted

/-- Equal fields are enough when nothing is posted. -/
theorem Client.Aside.of_eq {c c' : Client} (requests : c'.requests = c.requests)
    (pendingMap : c'.pendingMap = c.pendingMap) (nextId : c'.nextId = c.nextId)
    (submissions : c'.submissions = c.submissions) (stopDrained : c'.stopDrained = c.stopDrained)
    (ended : c'.ended = c.ended) (ioAlive : c'.ioAlive = c.ioAlive)
    (strand : c'.strand = c.strand) : c.Aside c' :=
  ⟨requests, pendingMap, nextId, submissions, stopDrained, ended, ioAlive, [], by simp [strand],
    by simp⟩

theorem Client.Aside.refl (c : Client) : c.Aside c := .of_eq rfl rfl rfl rfl rfl rfl rfl rfl

theorem Client.Aside.trans {a b c : Client} (first : a.Aside b) (second : b.Aside c) :
    a.Aside c where
  requests := second.requests.trans first.requests
  pendingMap := second.pendingMap.trans first.pendingMap
  nextId := second.nextId.trans first.nextId
  submissions := second.submissions.trans first.submissions
  stopDrained := second.stopDrained.trans first.stopDrained
  ended := second.ended.trans first.ended
  ioAlive := second.ioAlive.trans first.ioAlive
  posted := (first.settles.trans second.settles).posted

theorem rawSend_aside (c : Client) (message : Json) : c.Aside (c.rawSend message) := by
  unfold Client.rawSend
  split
  · exact .of_eq rfl rfl rfl rfl rfl rfl rfl rfl
  · exact .refl c

theorem post_aside (c : Client) (message : Json) : c.Aside (c.post (.send message)) :=
  ⟨rfl, rfl, rfl, rfl, rfl, rfl, rfl, [.send message], rfl, by simp [Task.isSend]⟩

variable (env : ClientEnv)

theorem invoke_aside (c : Client) (label : String) (call : Call) :
    c.Aside (c.invoke env label call) := by
  unfold Client.invoke
  split <;> exact .of_eq rfl rfl rfl rfl rfl rfl rfl rfl

theorem fire_aside (c : Client) (job : CallbackJob) : c.Aside (c.fire env job) := by
  unfold Client.fire
  repeat' split
  all_goals first
    | exact .refl c
    | exact invoke_aside env c _ _

theorem dispatch_aside (c : Client) (job : CallbackJob) : c.Aside (c.dispatch env job) := by
  unfold Client.dispatch
  split
  · exact .of_eq rfl rfl rfl rfl rfl rfl rfl rfl
  · exact fire_aside env c job

theorem deliverProgress_aside (c : Client) (pr : Nat) (progress : Double) (total : Option Double) :
    c.Aside (c.deliverProgress env pr progress total) := by
  unfold Client.deliverProgress
  repeat' split
  all_goals first
    | exact .refl c
    | exact dispatch_aside env c _

theorem runAndRespond_aside (c : Client) (job : InboundJob) :
    c.Aside (c.runAndRespond env job) := post_aside c _

theorem handleInboundRequest_aside (c : Client) (req : JsonRpcRequest) :
    c.Aside (c.handleInboundRequest env req) := by
  unfold Client.handleInboundRequest Client.dispatchInboundRequest
  repeat' split
  · exact rawSend_aside c _
  · exact .of_eq rfl rfl rfl rfl rfl rfl rfl rfl
  · exact runAndRespond_aside env c _
  · exact rawSend_aside c _

theorem handlePush_aside (c : Client) (notif : JsonRpcNotification) :
    c.Aside (c.handlePush env notif) := by
  unfold Client.handlePush
  split
  · exact .refl c
  · exact invoke_aside env c _ _
  · exact .of_eq rfl rfl rfl rfl rfl rfl rfl rfl

theorem handleProgress_aside {c c' : Client} {p : Json} (h : c.handleProgress env p = .ok c') :
    c.Aside c' := by
  unfold Client.handleProgress at h
  split at h
  · cases h; exact .refl c
  · split at h
    · cases h; exact .refl c
    · obtain ⟨progress, -, h⟩ := bind_eq_ok.mp h
      obtain ⟨total, -, h⟩ := bind_eq_ok.mp h
      split at h
      · cases h; exact deliverProgress_aside env c _ _ _
      · cases h; exact .refl c

theorem handleNotification_aside {c c' : Client} {notif : JsonRpcNotification}
    (h : c.handleNotification env notif = .ok c') : c.Aside c' := by
  unfold Client.handleNotification at h
  split at h
  · exact handleProgress_aside env h
  · cases h; exact handlePush_aside env c notif

theorem finished_settles (outcome : McpOutcome) (terminal : outcome.terminal ≠ .waiting)
    (r : PendingRequest) : r.Settles (r.finished outcome) :=
  ⟨rfl, rfl, rfl, fun h => absurd h terminal⟩

theorem update_settles (c : Client) (pr : Nat) (f : PendingRequest → PendingRequest)
    (each : ∀ r : PendingRequest, r.Settles (f r)) : c.Settles (c.update pr f) where
  length := by simp [Client.update]
  requests pr' r h := by
    by_cases same : pr = pr'
    · exact ⟨f r, by simp [Client.update, same, h], each r⟩
    · exact ⟨r, by simp [Client.update, same, h], .refl r⟩
  pendingMap _ _ h := h
  nextId := rfl
  submissions := rfl
  stopDrained := rfl
  ended := rfl
  ioAlive := rfl
  posted := ⟨[], by simp [Client.update], by simp⟩

theorem finish_settles (c : Client) (pr : Nat) (outcome : McpOutcome)
    (terminal : outcome.terminal ≠ .waiting) : c.Settles (c.finish env pr outcome) := by
  unfold Client.finish
  split
  · exact .refl c
  · split
    · exact (update_settles c pr _ (finished_settles outcome terminal)).trans
        (dispatch_aside env _ _).settles
    · exact update_settles c pr _ fun r => ⟨rfl, rfl, rfl, fun h => absurd h terminal⟩

theorem finish_other (c : Client) (pr : Nat) (outcome : McpOutcome) {pr' : Nat} (ne : pr ≠ pr') :
    (c.finish env pr outcome).requests[pr']? = c.requests[pr']? := by
  unfold Client.finish
  split
  · rfl
  · split
    · rw [(dispatch_aside env _ _).requests]
      simp [Client.update, ne]
    · simp [Client.update, ne]

theorem finish_same (c : Client) (pr : Nat) (outcome : McpOutcome) {r : PendingRequest}
    (h : (c.finish env pr outcome).requests[pr]? = some r) : r.state = outcome.terminal := by
  unfold Client.finish at h
  split at h
  · rename_i absent
    rw [absent] at h
    cases h
  · rename_i r₀ present
    split at h
    · rw [(dispatch_aside env _ _).requests] at h
      simp only [Client.update, List.getElem?_modify_eq, present] at h
      cases h
      rfl
    · simp only [Client.update, List.getElem?_modify_eq, present] at h
      cases h
      rfl

theorem finish_pendingMap (c : Client) (pr : Nat) (outcome : McpOutcome) :
    (c.finish env pr outcome).pendingMap = c.pendingMap := by
  unfold Client.finish
  split
  · rfl
  · split
    · rw [(dispatch_aside env _ _).pendingMap]
      rfl
    · rfl

theorem forget_lookup {c : Client} {id key : RequestId} {r : PendingRequest} {pr : Nat}
    (h : (c.forget id r).pendingMap.lookup key = some pr) : c.pendingMap.lookup key = some pr := by
  simp only [Client.forget] at h
  split at h
  · exact (lookup_erase (lookup_erase h).2).2
  · exact (lookup_erase h).2

theorem forget_gone {c : Client} {id key : RequestId} {r : PendingRequest} {pr : Nat}
    (h : (c.forget id r).pendingMap.lookup key = some pr) :
    key ≠ id ∧ (r.hasOwnToken = true → key ≠ r.progressToken) := by
  simp only [Client.forget] at h
  split at h
  · obtain ⟨token, rest⟩ := lookup_erase h
    exact ⟨(lookup_erase rest).1, fun _ => token⟩
  · rename_i own
    exact ⟨(lookup_erase h).1, fun token => absurd token own⟩

/-- A key that is neither the completed id nor the owner's token is still there. -/
theorem forget_keeps {c : Client} {id key : RequestId} {r : PendingRequest} (other : key ≠ id)
    (token : r.hasOwnToken = true → key ≠ r.progressToken) :
    (c.forget id r).pendingMap.lookup key = c.pendingMap.lookup key := by
  simp only [Client.forget]
  split
  · rename_i own
    rw [AList.lookup_erase_ne (token own), AList.lookup_erase_ne other]
  · rw [AList.lookup_erase_ne other]

theorem forget_settles (c : Client) (id : RequestId) (r : PendingRequest) :
    c.Settles (c.forget id r) :=
  ⟨rfl, fun _ r h => ⟨r, h, .refl r⟩, fun _ _ h => forget_lookup h, rfl, rfl, rfl, rfl, rfl, [],
    by simp [Client.forget], by simp⟩

/-- `complete_pending` on a key that is there: something aside, both keys forgotten, and
    the owner finished with a terminal outcome. -/
theorem completePending_cases (c : Client) (id : RequestId) (outcome : McpOutcome)
    (terminal : outcome.terminal ≠ .waiting) :
    (c.completePending env id outcome = c ∧
      (∀ pr, c.pendingMap.lookup id = some pr → c.requests[pr]? = none)) ∨
    ∃ pr r aside final, c.pendingMap.lookup id = some pr ∧ c.requests[pr]? = some r ∧
      c.Aside aside ∧ final.terminal ≠ .waiting ∧
      c.completePending env id outcome = (aside.forget id r).finish env pr final := by
  cases found : c.pendingMap.lookup id with
  | none => exact .inl ⟨by simp [Client.completePending, found], fun pr h => by cases h⟩
  | some pr =>
    cases present : c.requests[pr]? with
    | none =>
      refine .inl ⟨by simp [Client.completePending, found, present], fun pr' h => ?_⟩
      cases h
      exact present
    | some r =>
      suffices ∃ aside final, c.Aside aside ∧ final.terminal ≠ .waiting ∧
          c.completePending env id outcome = (aside.forget id r).finish env pr final by
        obtain ⟨aside, final, off, settled, eq⟩ := this
        exact .inr ⟨pr, r, aside, final, rfl, present, off, settled, eq⟩
      simp only [Client.completePending, found, present]
      split
      · split
        · rename_i ir _
          have accepted : c.Aside
              { c with serverResult := some ir, connected := true, initialized := true } :=
            .of_eq rfl rfl rfl rfl rfl rfl rfl rfl
          exact ⟨_, outcome, accepted.trans (rawSend_aside _ _), terminal, rfl⟩
        · exact ⟨c, handshakeFailed, .refl c, by decide, rfl⟩
        · rename_i e _ _
          have logged : c.Aside
              { c with log := c.log ++ ["initialize result parse failed: " ++ e.what] } :=
            .of_eq rfl rfl rfl rfl rfl rfl rfl rfl
          exact ⟨_, handshakeFailed, logged, by decide, rfl⟩
      · exact ⟨c, outcome, .refl c, terminal, rfl⟩

theorem completePending_settles (c : Client) (id : RequestId) (outcome : McpOutcome)
    (terminal : outcome.terminal ≠ .waiting) : c.Settles (c.completePending env id outcome) := by
  obtain ⟨same, -⟩ | ⟨pr, r, aside, final, -, -, off, terminal, eq⟩ :=
    completePending_cases env c id outcome terminal
  · rw [same]
    exact .refl c
  · rw [eq]
    exact (off.settles.trans (forget_settles aside id r)).trans (finish_settles env _ pr final terminal)

theorem completePending_other (c : Client) (id : RequestId) (outcome : McpOutcome)
    (terminal : outcome.terminal ≠ .waiting) {pr : Nat} (other : c.pendingMap.lookup id ≠ some pr) :
    (c.completePending env id outcome).requests[pr]? = c.requests[pr]? := by
  obtain ⟨same, -⟩ | ⟨owner, r, aside, final, found, -, off, -, eq⟩ :=
    completePending_cases env c id outcome terminal
  · rw [same]
  · have ne : owner ≠ pr := fun same => other (same ▸ found)
    rw [eq, finish_other env _ _ _ ne]
    exact congrArg (·[pr]?) off.requests

/-- The task of `request_cancel` completes the id it names or does nothing but send. -/
theorem cancelTask_cases (c : Client) (id : RequestId) (reason : String) :
    c.cancelTask env id reason = c ∨ ∃ sent outcome, c.Aside sent ∧ outcome.terminal ≠ .waiting ∧
      c.cancelTask env id reason = sent.completePending env id outcome := by
  unfold Client.cancelTask
  split
  · exact .inl rfl
  · split
    · exact .inl rfl
    · split
      · exact .inr ⟨_, _, rawSend_aside c _, by simp, rfl⟩
      · exact .inl rfl

theorem onTimer_cases (c : Client) (pr : Nat) :
    c.onTimer env pr = c ∨ ∃ r outcome, c.requests[pr]? = some r ∧ outcome.terminal ≠ .waiting ∧
      c.onTimer env pr = c.completePending env r.id outcome := by
  unfold Client.onTimer
  split
  · exact .inl rfl
  · rename_i r present
    split
    · exact .inr ⟨r, _, present, by simp, rfl⟩
    · exact .inl rfl

/-- What a message that does not throw leads to: no request is touched, or the one under
    the id of the response is completed. -/
theorem onTransportMessage_cases {c c' : Client} {message : Json}
    (h : c.onTransportMessage env message = .ok c') :
    c.Aside c' ∨
    (∃ resp, parseMessageClient message = .success resp ∧ c' = c.completePending env resp.id
      { terminal := .succeeded, result := resp.result }) ∨
    ∃ resp, parseMessageClient message = .error resp ∧ c' = c.completePending env resp.id
      { terminal := .errored, rpcError := some resp.error } := by
  unfold Client.onTransportMessage at h
  split at h
  · cases h
    exact .inl (handleInboundRequest_aside env c _)
  · exact .inl (handleNotification_aside env h)
  · cases h
    exact .inr (.inl ⟨_, by assumption, rfl⟩)
  · cases h
    exact .inr (.inr ⟨_, by assumption, rfl⟩)

theorem onTransportMessage_settles {c c' : Client} {message : Json}
    (h : c.onTransportMessage env message = .ok c') : c.Settles c' := by
  rcases onTransportMessage_cases env h with aside | ⟨resp, -, rfl⟩ | ⟨resp, -, rfl⟩
  · exact aside.settles
  · exact completePending_settles env c _ _ (by simp)
  · exact completePending_settles env c _ _ (by simp)

theorem cancelTask_settles (c : Client) (id : RequestId) (reason : String) :
    c.Settles (c.cancelTask env id reason) := by
  rcases cancelTask_cases env c id reason with same | ⟨sent, outcome, off, terminal, eq⟩
  · rw [same]
    exact .refl c
  · rw [eq]
    exact off.settles.trans (completePending_settles env sent id outcome terminal)

theorem onTimer_settles (c : Client) (pr : Nat) : c.Settles (c.onTimer env pr) := by
  rcases onTimer_cases env c pr with same | ⟨r, outcome, -, terminal, eq⟩
  · rw [same]
    exact .refl c
  · rw [eq]
    exact completePending_settles env c r.id outcome terminal

theorem failPending_settles (reason : String) (c : Client) (pr : Nat) :
    c.Settles (c.failPending env reason pr) := by
  unfold Client.failPending
  split
  · exact .refl c
  · split
    · exact finish_settles env c pr _ (by simp)
    · exact .refl c

theorem failPending_same (reason : String) (c : Client) (pr : Nat) {r : PendingRequest}
    (h : (c.failPending env reason pr).requests[pr]? = some r) : r.state ≠ .waiting := by
  unfold Client.failPending at h
  split at h
  · rename_i absent
    rw [absent] at h
    cases h
  · rename_i r₀ present
    split at h
    · rw [finish_same env c pr _ h]
      simp
    · rename_i off
      rw [present] at h
      cases h
      exact off

/-- The loop of `fail_all_pending`: every request it meets ends up settled. -/
theorem failLoop (reason : String) (prs : List Nat) (c : Client) :
    c.Settles (prs.foldl (Client.failPending env reason) c) ∧
      ∀ pr ∈ prs, ∀ r, (prs.foldl (Client.failPending env reason) c).requests[pr]? = some r →
        r.state ≠ .waiting := by
  induction prs generalizing c with
  | nil => exact ⟨.refl c, by simp⟩
  | cons head rest ih =>
    obtain ⟨settles, met⟩ := ih (c.failPending env reason head)
    refine ⟨(failPending_settles env reason c head).trans settles, ?_⟩
    intro pr member r h
    rcases List.mem_cons.mp member with rfl | member
    · obtain ⟨mid, before, step⟩ := settles.back h
      exact fun waits => failPending_same env reason c _ before (step.waiting waits)
    · exact met pr member r h

theorem failAllPending_settles (c : Client) (reason : String) :
    c.Settles (c.failAllPending env reason) := by
  have loop := (failLoop env reason c.keyedRequests c).1
  exact ⟨loop.length, loop.requests, fun _ _ h => by simp [Client.failAllPending] at h, loop.nextId,
    loop.submissions, loop.stopDrained, loop.ended, loop.ioAlive, loop.posted⟩

/-- After `fail_all_pending` every request that was keyed is settled. -/
theorem failAllPending_met (c : Client) (reason : String) {key : RequestId} {pr : Nat}
    {r : PendingRequest} (keyed : c.pendingMap.lookup key = some pr)
    (h : (c.failAllPending env reason).requests[pr]? = some r) : r.state ≠ .waiting := by
  have member : pr ∈ c.keyedRequests :=
    List.mem_map.mpr ⟨⟨key, pr⟩, AList.mem_lookup_iff.mp keyed, rfl⟩
  exact (failLoop env reason c.keyedRequests c).2 pr member r h

@[simp] theorem failAllPending_pendingMap (c : Client) (reason : String) :
    (c.failAllPending env reason).pendingMap = ∅ := rfl

theorem drain_settles (c : Client) (reason : String) : c.Settles (c.drain env reason) := by
  have cut : c.Aside { c with connected := false } := .of_eq rfl rfl rfl rfl rfl rfl rfl rfl
  exact cut.settles.trans (failAllPending_settles env _ reason)

/-- The loss of the transport drains the client and then tells the user. -/
theorem onTransportDisconnect_aside (c : Client) :
    (c.drain env "transport disconnected").Aside (c.onTransportDisconnect env) := by
  unfold Client.onTransportDisconnect Client.drain
  simp only
  split
  · exact invoke_aside env _ _ _
  · exact .refl _

theorem onTransportDisconnect_settles (c : Client) : c.Settles (c.onTransportDisconnect env) :=
  (drain_settles env c _).trans (onTransportDisconnect_aside env c).settles

/-- The registration writes the keys of its request, marks it, and arms its timer. -/
theorem registerTask_spec (c : Client) (pr : Nat) (params : Option Json) {r : PendingRequest}
    (present : c.requests[pr]? = some r) :
    ∃ mid : Client, mid.Aside (c.registerTask pr params) ∧
      mid.pendingMap = (c.registerPending pr r).pendingMap ∧ mid.nextId = c.nextId ∧
      mid.submissions = c.submissions ∧ mid.strand = c.strand ∧ mid.stopDrained = c.stopDrained ∧
      mid.ended = c.ended ∧ mid.ioAlive = c.ioAlive ∧
      ∃ timer : PendingRequest → Bool, mid.requests = c.requests.modify pr fun r =>
        { r with registered := true, timer := timer r } := by
  simp only [Client.registerTask, present]
  refine ⟨_, rawSend_aside _ _, ?_⟩
  split
  · refine ⟨rfl, rfl, rfl, rfl, rfl, rfl, rfl, fun _ => true, ?_⟩
    simp [Client.update, Client.registerPending, List.modify_modify_eq, Function.comp_def]
  · exact ⟨rfl, rfl, rfl, rfl, rfl, rfl, rfl, fun r => r.timer, rfl⟩

/-- The io loop dies of a message whose handling throws. -/
def Client.loopDied (env : ClientEnv) (c : Client) (e : Exn) : Client :=
  { c with log := c.log ++ ["McpClient io loop died: " ++ e.what], ioAlive := false,
           ended := true }.onTransportDisconnect env

/-- A task registers its request, settles what it settles, or kills the io loop. -/
theorem runTask_cases (c : Client) (task : Task) :
    (∃ pr params, task = .register pr params ∧ c.runTask env task = c.registerTask pr params) ∨
    ((∀ pr params, task ≠ .register pr params) ∧ c.Settles (c.runTask env task)) ∨
    ∃ message e, task = .message message ∧ c.onTransportMessage env message = .error e ∧
      env.ownsIoContext = true ∧ c.runTask env task = c.loopDied env e := by
  cases task with
  | register pr params => exact .inl ⟨pr, params, rfl, rfl⟩
  | message message =>
    refine .inr ?_
    simp only [Client.runTask]
    split
    · rename_i c' h
      exact .inl ⟨by simp, onTransportMessage_settles env h⟩
    · rename_i e h
      split
      · rename_i owns
        exact .inr ⟨message, e, rfl, h, owns, rfl⟩
      · exact .inl ⟨by simp, .refl c⟩
  | transportDisconnect => exact .inr (.inl ⟨by simp, onTransportDisconnect_settles env c⟩)
  | cancel id reason => exact .inr (.inl ⟨by simp, cancelTask_settles env c id reason⟩)
  | timer pr => exact .inr (.inl ⟨by simp, onTimer_settles env c pr⟩)
  | drain reason => exact .inr (.inl ⟨by simp, drain_settles env c reason⟩)
  | send message => exact .inr (.inl ⟨by simp, (rawSend_aside c message).settles⟩)

theorem registerTask_flags (c : Client) (pr : Nat) (params : Option Json) :
    (c.registerTask pr params).ended = c.ended ∧
    (c.registerTask pr params).ioAlive = c.ioAlive ∧
    (c.registerTask pr params).stopDrained = c.stopDrained ∧
    (c.registerTask pr params).submissions = c.submissions ∧
    ∃ tasks, (c.registerTask pr params).strand = c.strand ++ tasks ∧
      ∀ task ∈ tasks, task.isSend = true := by
  cases present : c.requests[pr]? with
  | none =>
    have same : c.registerTask pr params = c := by simp only [Client.registerTask, present]
    rw [same]
    exact ⟨rfl, rfl, rfl, rfl, (Client.Settles.refl c).posted⟩
  | some r =>
    obtain ⟨mid, off, -, -, submissions, strand, stopDrained, ended, ioAlive, -⟩ :=
      registerTask_spec c pr params present
    refine ⟨off.ended.trans ended, off.ioAlive.trans ioAlive, off.stopDrained.trans stopDrained,
      off.submissions.trans submissions, ?_⟩
    rw [← strand]
    exact off.posted

theorem loopDied_settles (c : Client) (e : Exn) :
    Client.Settles { c with ioAlive := false, ended := true } (c.loopDied env e) := by
  have logged : Client.Aside { c with ioAlive := false, ended := true }
      { c with log := c.log ++ ["McpClient io loop died: " ++ e.what], ioAlive := false,
               ended := true } :=
    .of_eq rfl rfl rfl rfl rfl rfl rfl rfl
  exact logged.settles.trans (onTransportDisconnect_settles env _)

/-- Whatever a task does, it posts responses at most. -/
theorem runTask_strand (c : Client) (task : Task) :
    ∃ tasks, (c.runTask env task).strand = c.strand ++ tasks ∧
      ∀ task ∈ tasks, task.isSend = true := by
  rcases runTask_cases env c task with ⟨pr, params, -, eq⟩ | ⟨-, settles⟩ | ⟨-, e, -, -, -, eq⟩
  · rw [eq]
    exact (registerTask_flags c pr params).2.2.2.2
  · exact settles.posted
  · rw [eq]
    exact (loopDied_settles env c e).posted

def ClientEvent.mayPost : ClientEvent → Task → Prop
  | _, .send _ => True
  | .posts _, .register _ _ => True
  | .cancel _ _, .cancel _ _ => True
  | .arrives message, .message message' => message' = message
  | .peerCloses, .transportDisconnect => True
  | .timerExpires _, .timer _ => True
  | .disconnect, .drain _ | .stopDrains, .drain _ => True
  | _, _ => False

theorem mayPost_send {event : ClientEvent} {task : Task} (send : task.isSend = true) :
    event.mayPost task := by
  cases task with
  | send message => cases event <;> exact True.intro
  | _ => cases send

/-- The strand is a queue: only its head is taken, and only by running it. -/
theorem step_strand {c c' : Client} {event : ClientEvent} (h : c.step env event = some c') :
    ∃ old tasks, c'.strand = old ++ tasks ∧ (∀ task ∈ tasks, event.mayPost task) ∧
      (old = c.strand ∨ (event = .runTask ∧ ∃ task, c.strand = task :: old)) := by
  have same : ∀ {c' : Client}, c'.strand = c.strand →
      ∃ old tasks, c'.strand = old ++ tasks ∧ (∀ task ∈ tasks, event.mayPost task) ∧
        (old = c.strand ∨ (event = .runTask ∧ ∃ task, c.strand = task :: old)) :=
    fun eq => ⟨c.strand, [], by simp [eq], by simp, .inl rfl⟩
  have one : ∀ {c' : Client} (task : Task), c'.strand = c.strand ++ [task] → event.mayPost task →
      ∃ old tasks, c'.strand = old ++ tasks ∧ (∀ task ∈ tasks, event.mayPost task) ∧
        (old = c.strand ∨ (event = .runTask ∧ ∃ task, c.strand = task :: old)) :=
    fun task eq may => ⟨c.strand, [task], eq, by simpa using may, .inl rfl⟩
  have settled : ∀ {before c' : Client}, before.strand = c.strand → before.Settles c' →
      ∃ old tasks, c'.strand = old ++ tasks ∧ (∀ task ∈ tasks, event.mayPost task) ∧
        (old = c.strand ∨ (event = .runTask ∧ ∃ task, c.strand = task :: old)) := by
    intro before c' eq settles
    obtain ⟨tasks, strand, sends⟩ := settles.posted
    exact ⟨c.strand, tasks, by rw [strand, eq], fun task member => mayPost_send (sends task member),
      .inl rfl⟩
  cases step_cases h with
  | tests thread args =>
    apply same
    unfold Client.submitTest
    split <;> rfl
  | builds thread args =>
    apply same
    unfold Client.submitBuild
    split <;> rfl
  | runTask task rest head =>
    obtain ⟨tasks, strand, sends⟩ := runTask_strand env { c with strand := rest } task
    exact ⟨rest, tasks, strand, fun task member => mayPost_send (sends task member),
      .inr ⟨rfl, task, head⟩⟩
  | disconnectInline | stopDrainsInline =>
    refine settled ?_ (drain_settles env _ _)
    rfl
  | runCallback job rest =>
    refine settled ?_ (fire_aside env _ job).settles
    rfl
  | arrives message => exact one _ rfl rfl
  | posts | cancel | timerExpires | runJob | peerCloses | disconnect | stopDrains =>
    exact one _ rfl True.intro
  | connect | rollback | stopBegins | stopEnds => exact same rfl

/-- A step builds a request, registers one, or settles what is there. -/
theorem step_kinds {c c' : Client} {event : ClientEvent} (h : c.step env event = some c') :
    (∃ thread args params, c.submissions.lookup thread = some (.tested args) ∧
      c' = c.submitted env thread args params) ∨
    (event = .runTask ∧ ∃ rest pr params, c.strand = .register pr params :: rest ∧
      c' = { c with strand := rest }.registerTask pr params) ∨
    ∃ before : Client, before.requests = c.requests ∧ before.pendingMap = c.pendingMap ∧
      before.Settles c' := by
  have same : ∀ {c' : Client}, c'.requests = c.requests → c'.pendingMap = c.pendingMap →
      ∃ before : Client, before.requests = c.requests ∧ before.pendingMap = c.pendingMap ∧
        before.Settles c' :=
    fun requests pendingMap => ⟨_, requests, pendingMap, .refl _⟩
  have settled : ∀ {before c' : Client}, before.Settles c' → before.requests = c.requests →
      before.pendingMap = c.pendingMap → ∃ before : Client, before.requests = c.requests ∧
        before.pendingMap = c.pendingMap ∧ before.Settles c' :=
    fun settles requests pendingMap => ⟨_, requests, pendingMap, settles⟩
  cases step_cases h with
  | builds thread args tested =>
    simp only [Client.submitBuild]
    split
    · exact .inr (.inr (same rfl rfl))
    · exact .inl ⟨thread, args, _, tested, rfl⟩
  | runTask task rest head =>
    rcases runTask_cases env { c with strand := rest } task with
      ⟨pr, params, rfl, eq⟩ | ⟨-, settles⟩ | ⟨message, e, -, -, -, eq⟩
    · exact .inr (.inl ⟨rfl, rest, pr, params, head, eq⟩)
    · exact .inr (.inr (settled settles rfl rfl))
    · rw [eq]
      exact .inr (.inr (settled (loopDied_settles env _ e) rfl rfl))
  | timerExpires pr =>
    have unarmed := update_settles (c.post (.timer pr)) pr (fun r => { r with timer := false })
      fun r => ⟨rfl, rfl, rfl, fun h => h⟩
    exact .inr (.inr (settled unarmed rfl rfl))
  | disconnectInline | stopDrainsInline =>
    exact .inr (.inr (settled (drain_settles env _ _) rfl rfl))
  | runCallback job rest => exact .inr (.inr (settled (fire_aside env _ job).settles rfl rfl))
  | tests thread args =>
    unfold Client.submitTest
    split <;> exact .inr (.inr (same rfl rfl))
  | _ => exact .inr (.inr (same rfl rfl))

theorem step_remembers {c c' : Client} {event : ClientEvent} (h : c.step env event = some c')
    {pr : Nat} {r : PendingRequest} (found : c.requests[pr]? = some r) :
    ∃ r', c'.requests[pr]? = some r' ∧ r'.id = r.id ∧ r'.progressToken = r.progressToken ∧
      (r.registered = true → r'.registered = true) := by
  rcases step_kinds env h with ⟨thread, args, params, -, rfl⟩ | ⟨-, rest, owner, params, -, rfl⟩ |
    ⟨before, requests, -, settles⟩
  · obtain ⟨bound, -⟩ := List.getElem?_eq_some_iff.mp found
    refine ⟨r, ?_, rfl, rfl, id⟩
    simp only [Client.submitted]
    rw [List.getElem?_append_left bound, found]
  · cases present : c.requests[owner]? with
    | none =>
      refine ⟨r, ?_, rfl, rfl, id⟩
      simpa [Client.registerTask, present] using found
    | some own =>
      obtain ⟨mid, off, -, -, -, -, -, -, -, timer, marked⟩ :=
        registerTask_spec { c with strand := rest } owner params present
      rw [off.requests, marked, List.getElem?_modify, found]
      refine ⟨_, rfl, ?_⟩
      by_cases same : owner = pr <;> simp [same]
  · obtain ⟨r', found', settled⟩ := settles.requests pr r (requests ▸ found)
    exact ⟨r', found', settled.id, settled.progressToken, fun registered =>
      settled.registered.trans registered⟩

end CppMcp
