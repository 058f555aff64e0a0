import CppMcp.Client.Correlation

namespace CppMcp

open Lib

/-- A message the client sends: one that names a method has no id or an integer. -/
structure Spoken (m : Json) : Prop where
  keyed : m.isArray = false
  id : m.contains "method" = true → ∀ id, m.find? "id" = some id → ∃ n, id = .ofInt n

theorem serializeRequest_spoken (n : Int) (method : String) (params : Option Json) :
    Spoken (serializeRequest ⟨.int n, method, params⟩) where
  keyed := rfl
  id _ id found := by
    have own : (serializeRequest ⟨.int n, method, params⟩).find? "id" = some (.ofInt n) := by
      unfold serializeRequest
      cases params <;> simp [find?_mk, requestIdToJson]
    rw [own] at found
    exact ⟨n, (Option.some.inj found).symm⟩

theorem serializeNotification_spoken (notif : JsonRpcNotification) :
    Spoken (serializeNotification notif) where
  keyed := rfl
  id _ id found := by
    have absent : (serializeNotification notif).find? "id" = none := by
      unfold serializeNotification
      cases notif.params <;> simp [find?_mk]
    rw [absent] at found
    cases found

theorem makeSuccessResponse_spoken (id : RequestId) (result : Json) :
    Spoken (makeSuccessResponse id result) where
  keyed := rfl
  id named := by simp [makeSuccessResponse, Json.contains, find?_mk] at named

theorem makeErrorResponse_spoken (id : RequestId) (code : Int) (message : String)
    (data : Option Json) : Spoken (makeErrorResponse id code message data) where
  keyed := rfl
  id named := by simp [makeErrorResponse, Json.contains, find?_mk] at named

/-- The request has `on_progress` set. -/
def Client.Listens (c : Client) (pr : Nat) : Prop :=
  ∃ r, c.requests[pr]? = some r ∧ r.onProgress = true

/-- Messages `P` that hold every notification, and the responses to the ids `Q`. -/
structure Vocabulary (P : Json → Prop) (Q : RequestId → Prop) : Prop where
  notification : ∀ notif, P (serializeNotification notif)
  success : ∀ id result, Q id → P (makeSuccessResponse id result)
  error : ∀ id code message data, Q id → P (makeErrorResponse id code message data)

/-- A step that says nothing but `P`, now or from the strand, takes on no inbound request but
    those with ids `Q`, and posts a progress callback for a request that listens only. -/
structure Client.Utters (P : Json → Prop) (Q : RequestId → Prop) (c c' : Client) : Prop where
  sent : ∀ m ∈ c'.sent, m ∈ c.sent ∨ P m
  kept : ∀ m ∈ c.sent, m ∈ c'.sent
  queued : ∀ m, .send m ∈ c'.strand → .send m ∈ c.strand ∨ P m
  pooled : ∀ job ∈ c'.pool, job ∈ c.pool ∨ Q job.id
  listens : ∀ pr, c.Listens pr → c'.Listens pr
  posted : ∀ pr progress total, .progress pr progress total ∈ c'.callbackQueue →
    .progress pr progress total ∈ c.callbackQueue ∨ c'.Listens pr

section
variable {P : Json → Prop} {Q : RequestId → Prop}

namespace Client.Utters

theorem of_eq {c c' : Client} (sent : c'.sent = c.sent) (strand : c'.strand = c.strand)
    (pool : c'.pool = c.pool) (requests : c'.requests = c.requests)
    (callbackQueue : c'.callbackQueue = c.callbackQueue) : c.Utters P Q c' where
  sent m member := .inl (sent ▸ member)
  kept m member := sent ▸ member
  queued m member := .inl (strand ▸ member)
  pooled job member := .inl (pool ▸ member)
  listens pr listens := by
    unfold Client.Listens
    rw [requests]
    exact listens
  posted pr progress total member := .inl (callbackQueue ▸ member)

theorem refl (c : Client) : c.Utters P Q c := .of_eq rfl rfl rfl rfl rfl

theorem trans {a b c : Client} (first : a.Utters P Q b) (second : b.Utters P Q c) :
    a.Utters P Q c where
  sent m member := (second.sent m member).elim (first.sent m) .inr
  kept m member := second.kept m (first.kept m member)
  queued m member := (second.queued m member).elim (first.queued m) .inr
  pooled job member := (second.pooled job member).elim (first.pooled job) .inr
  listens pr listens := second.listens pr (first.listens pr listens)
  posted pr progress total member := by
    rcases second.posted pr progress total member with old | listens
    · exact (first.posted pr progress total old).imp_right (second.listens pr)
    · exact .inr listens

/-- A task is posted that sends nothing, or something that may be said. -/
theorem posts {c c' : Client} {task : Task} (sent : c'.sent = c.sent)
    (strand : c'.strand = c.strand ++ [task]) (pool : ∀ job ∈ c'.pool, job ∈ c.pool)
    (requests : c'.requests = c.requests) (callbackQueue : c'.callbackQueue = c.callbackQueue)
    (said : ∀ m, task = .send m → P m) : c.Utters P Q c' where
  sent m member := .inl (sent ▸ member)
  kept m member := sent ▸ member
  queued m member := by
    rw [strand, List.mem_append, List.mem_singleton] at member
    exact member.imp_right fun same => said m same.symm
  pooled job member := .inl (pool job member)
  listens pr listens := by
    unfold Client.Listens
    rw [requests]
    exact listens
  posted pr progress total member := .inl (callbackQueue ▸ member)

/-- Requests are rewritten in fields other than `onProgress`. -/
theorem update (c : Client) (pr : Nat) (f : PendingRequest → PendingRequest)
    (same : ∀ r, (f r).onProgress = r.onProgress) : c.Utters P Q (c.update pr f) where
  sent m member := .inl member
  kept m member := member
  queued m member := .inl member
  pooled job member := .inl member
  listens place listens := by
    obtain ⟨r, present, on⟩ := listens
    unfold Client.Listens Client.update
    simp only [List.getElem?_modify, present, Option.map_eq_map, Option.map_some]
    split
    · exact ⟨f r, rfl, (same r).trans on⟩
    · exact ⟨r, rfl, on⟩
  posted pr progress total member := .inl member

end Client.Utters

theorem rawSend_utters (c : Client) {message : Json} (said : P message) :
    c.Utters P Q (c.rawSend message) := by
  unfold Client.rawSend
  split
  · refine ⟨fun m member => ?_, fun m member => List.mem_append_left _ member,
      fun m member => .inl member, fun job member => .inl member, fun pr listens => listens,
      fun pr progress total member => .inl member⟩
    rcases List.mem_append.mp member with old | new
    · exact .inl old
    · exact .inr (List.mem_singleton.mp new ▸ said)
  · exact .refl c

variable (env : ClientEnv)

theorem invoke_utters (c : Client) (label : String) (call : Call) :
    c.Utters P Q (c.invoke env label call) := by
  unfold Client.invoke
  split <;> exact .of_eq rfl rfl rfl rfl rfl

theorem fire_utters (c : Client) (job : CallbackJob) : c.Utters P Q (c.fire env job) := by
  unfold Client.fire
  repeat' split
  all_goals first
    | exact .refl c
    | exact invoke_utters env c _ _

theorem dispatch_utters (c : Client) (job : CallbackJob)
    (listens : ∀ pr progress total, job = .progress pr progress total → c.Listens pr) :
    c.Utters P Q (c.dispatch env job) := by
  unfold Client.dispatch
  split
  · refine ⟨fun m member => .inl member, fun m member => member, fun m member => .inl member,
      fun job member => .inl member, fun pr listens => listens,
      fun pr progress total member => ?_⟩
    rcases List.mem_append.mp member with old | new
    · exact .inl old
    · exact .inr (listens pr progress total (List.mem_singleton.mp new).symm)
  · exact fire_utters env c job

theorem finish_utters (c : Client) (pr : Nat) (outcome : McpOutcome) :
    c.Utters P Q (c.finish env pr outcome) := by
  unfold Client.finish
  split
  · exact .refl c
  · split
    · have finished : c.Utters P Q (c.update pr (PendingRequest.finished outcome)) :=
        .update c pr _ fun r => rfl
      exact finished.trans (dispatch_utters env _ _ fun pr progress total same => by cases same)
    · exact .update c pr _ fun r => rfl

variable (words : Vocabulary P Q)
include words

theorem completePending_utters (c : Client) (id : RequestId) (outcome : McpOutcome) :
    c.Utters P Q (c.completePending env id outcome) := by
  have forget : ∀ (c : Client) r, c.Utters P Q (c.forget id r) :=
    fun c r => .of_eq rfl rfl rfl rfl rfl
  unfold Client.completePending
  split
  · exact .refl c
  · split
    · exact .refl c
    · split
      · split
        · rename_i ir _
          have accepted : c.Utters P Q
              { c with serverResult := some ir, connected := true, initialized := true } :=
            .of_eq rfl rfl rfl rfl rfl
          have announced := accepted.trans (rawSend_utters _
            (words.notification ⟨Protocol.notifInitialized, none⟩))
          exact (announced.trans (forget _ _)).trans (finish_utters env _ _ _)
        · exact (forget c _).trans (finish_utters env _ _ _)
        · have logged : ∀ log, c.Utters P Q { c with log := log } :=
            fun log => .of_eq rfl rfl rfl rfl rfl
          exact ((logged _).trans (forget _ _)).trans (finish_utters env _ _ _)
      · exact (forget c _).trans (finish_utters env _ _ _)

theorem cancelTask_utters (c : Client) (id : RequestId) (reason : String) :
    c.Utters P Q (c.cancelTask env id reason) := by
  unfold Client.cancelTask
  repeat' split
  all_goals first
    | exact .refl c
    | exact (rawSend_utters c (words.notification _)).trans
        (completePending_utters env words _ _ _)

theorem onTimer_utters (c : Client) (pr : Nat) : c.Utters P Q (c.onTimer env pr) := by
  unfold Client.onTimer
  repeat' split
  all_goals first
    | exact .refl c
    | exact completePending_utters env words c _ _

omit words in
theorem drain_utters (c : Client) (reason : String) : c.Utters P Q (c.drain env reason) := by
  have each : ∀ (c : Client) pr, c.Utters P Q (c.failPending env reason pr) := by
    intro c pr
    unfold Client.failPending
    repeat' split
    all_goals first
      | exact .refl c
      | exact finish_utters env c _ _
  have loop : ∀ (prs : List Nat) (c : Client),
      c.Utters P Q (prs.foldl (Client.failPending env reason) c) := by
    intro prs
    induction prs with
    | nil => exact fun c => .refl c
    | cons pr prs ih => exact fun c => (each c pr).trans (ih _)
  have cut : c.Utters P Q { c with connected := false } := .of_eq rfl rfl rfl rfl rfl
  have cleared : ∀ c : Client, c.Utters P Q { c with pendingMap := ∅ } :=
    fun c => .of_eq rfl rfl rfl rfl rfl
  exact (cut.trans (loop c.keyedRequests _)).trans (cleared _)

omit words in
theorem onTransportDisconnect_utters (c : Client) : c.Utters P Q (c.onTransportDisconnect env) := by
  have drained : c.Utters P Q (c.drain env "transport disconnected") := drain_utters env c _
  unfold Client.onTransportDisconnect
  simp only
  split
  · exact drained.trans (invoke_utters env _ _ _)
  · exact drained

theorem inboundResponse_said {id : RequestId} (known : Q id) (outcome : Except Exn Json) :
    P (inboundResponse id outcome) := by
  unfold inboundResponse
  split
  · exact words.success _ _ known
  all_goals exact words.error _ _ _ _ known

theorem handleInboundRequest_utters (c : Client) {req : JsonRpcRequest} (known : Q req.id) :
    c.Utters P Q (c.handleInboundRequest env req) := by
  unfold Client.handleInboundRequest Client.dispatchInboundRequest
  repeat' split
  · exact rawSend_utters c (words.success _ _ known)
  · refine ⟨fun m member => .inl member, fun m member => member, fun m member => .inl member,
      fun job member => ?_, fun pr listens => listens, fun pr progress total member => .inl member⟩
    rcases List.mem_append.mp member with old | new
    · exact .inl old
    · rw [List.mem_singleton.mp new]
      exact .inr known
  · refine .posts rfl rfl (fun job member => member) rfl rfl fun m same => ?_
    cases same
    exact inboundResponse_said words known _
  · exact rawSend_utters c (words.error _ _ _ _ known)

omit words in
theorem handlePush_utters (c : Client) (notif : JsonRpcNotification) :
    c.Utters P Q (c.handlePush env notif) := by
  unfold Client.handlePush
  split
  · exact .refl c
  · exact invoke_utters env c _ _
  · exact .of_eq rfl rfl rfl rfl rfl

omit words in
theorem deliverProgress_utters (c : Client) (pr : Nat) (progress : Double)
    (total : Option Double) : c.Utters P Q (c.deliverProgress env pr progress total) := by
  unfold Client.deliverProgress
  split
  · exact .refl c
  · rename_i r present
    split
    · rename_i on
      apply dispatch_utters env c
      intro place progress total same
      cases same
      exact ⟨r, present, on.2⟩
    · exact .refl c

omit words in
theorem handleProgress_utters {c c' : Client} {p : Json} (h : c.handleProgress env p = .ok c') :
    c.Utters P Q c' := by
  unfold Client.handleProgress at h
  split at h
  · cases h
    exact .refl c
  · split at h
    · cases h
      exact .refl c
    · obtain ⟨progress, -, h⟩ := bind_eq_ok.mp h
      obtain ⟨total, -, h⟩ := bind_eq_ok.mp h
      split at h
      · cases h
        exact deliverProgress_utters env c _ _ _
      · cases h
        exact .refl c

theorem onTransportMessage_utters {c c' : Client} {message : Json}
    (known : ∀ req, parseMessageClient message = .request req → Q req.id)
    (h : c.onTransportMessage env message = .ok c') : c.Utters P Q c' := by
  unfold Client.onTransportMessage at h
  split at h
  · rename_i req parsed
    cases h
    exact handleInboundRequest_utters env words c (known req parsed)
  · simp only [Client.handleNotification] at h
    split at h
    · exact handleProgress_utters env h
    · cases h
      exact handlePush_utters env c _
  · cases h
    exact completePending_utters env words c _ _
  · cases h
    exact completePending_utters env words c _ _

omit words in
theorem registerTask_utters {c : Client} (pr : Nat) (params : Option Json)
    (said : ∀ r, c.requests[pr]? = some r → P (serializeRequest ⟨r.id, r.method, params⟩)) :
    c.Utters P Q (c.registerTask pr params) := by
  unfold Client.registerTask
  split
  · exact .refl c
  · rename_i r present
    have keyed : c.Utters P Q (c.registerPending pr r) := by
      have marked : c.Utters P Q (c.update pr fun r => { r with registered := true }) :=
        .update c pr _ fun r => rfl
      exact marked.trans (.of_eq rfl rfl rfl rfl rfl)
    refine Client.Utters.trans ?_ (rawSend_utters _ (said r present))
    split
    · exact keyed.trans (.update _ pr _ fun r => rfl)
    · exact keyed

theorem runTask_utters {c : Client} {task : Task} (spoken : ∀ m, task = .send m → P m)
    (known : ∀ m req, task = .message m → parseMessageClient m = .request req → Q req.id)
    (said : ∀ pr params r, task = .register pr params → c.requests[pr]? = some r →
      P (serializeRequest ⟨r.id, r.method, params⟩)) : c.Utters P Q (c.runTask env task) := by
  cases task with
  | register pr params => exact registerTask_utters pr params fun r => said pr params r rfl
  | message message =>
    simp only [Client.runTask]
    split
    · rename_i c' h
      exact onTransportMessage_utters env words (fun req => known message req rfl) h
    · split
      · have died : ∀ log, c.Utters P Q { c with log := log, ioAlive := false, ended := true } :=
          fun log => .of_eq rfl rfl rfl rfl rfl
        exact (died _).trans (onTransportDisconnect_utters env _)
      · exact .refl c
  | transportDisconnect => exact onTransportDisconnect_utters env c
  | cancel id reason => exact cancelTask_utters env words c id reason
  | timer pr => exact onTimer_utters env words c pr
  | drain reason => exact drain_utters env c reason
  | send message => exact rawSend_utters c (spoken message rfl)

theorem step_utters {c c' : Client} {event : ClientEvent} (h : c.step env event = some c')
    (spoken : ∀ m, .send m ∈ c.strand → P m) (pooled : ∀ job ∈ c.pool, Q job.id)
    (known : ∀ m req, .message m ∈ c.strand → parseMessageClient m = .request req → Q req.id)
    (said : ∀ pr params rest r, event = .runTask → c.strand = .register pr params :: rest →
      c.requests[pr]? = some r → P (serializeRequest ⟨r.id, r.method, params⟩)) :
    c.Utters P Q c' := by
  have after : ∀ {before c' : Client}, before.Utters P Q c' → before.sent = c.sent →
      before.strand = c.strand → before.pool = c.pool → before.requests = c.requests →
      before.callbackQueue = c.callbackQueue → c.Utters P Q c' :=
    fun utters sent strand pool requests callbackQueue =>
      (Client.Utters.of_eq sent strand pool requests callbackQueue).trans utters
  cases step_cases h with
  | runTask task rest head =>
    have popped : c.Utters P Q { c with strand := rest } :=
      ⟨fun m member => .inl member, fun m member => member, fun m member =>
        .inl (head ▸ List.mem_cons_of_mem task member), fun job member => .inl member,
        fun pr listens => listens, fun pr progress total member => .inl member⟩
    have first : task ∈ c.strand := head ▸ List.mem_cons_self
    refine popped.trans (runTask_utters env words (fun m same => spoken m (same ▸ first))
      (fun m req same => known m req (same ▸ first)) fun pr params r same => ?_)
    exact said pr params rest r rfl (same ▸ head)
  | builds thread args =>
    simp only [Client.submitBuild]
    split
    · exact .of_eq rfl rfl rfl rfl rfl
    · refine ⟨fun m member => .inl member, fun m member => member, fun m member => .inl member,
        fun job member => .inl member, fun pr listens => ?_,
        fun pr progress total member => .inl member⟩
      obtain ⟨r, present, on⟩ := listens
      have bound := (List.getElem?_eq_some_iff.mp present).1
      exact ⟨r, by simp only [Client.submitted, List.getElem?_append_left bound, present], on⟩
  | runJob place job found =>
    refine .posts rfl rfl (fun job member => List.mem_of_mem_eraseIdx member) rfl rfl
      fun m same => ?_
    cases same
    exact inboundResponse_said words (pooled job (List.mem_of_getElem? found)) _
  | tests thread args =>
    unfold Client.submitTest
    split <;> exact .of_eq rfl rfl rfl rfl rfl
  | timerExpires pr =>
    have unarmed : c.Utters P Q (c.update pr fun r => { r with timer := false }) :=
      .update c pr _ fun r => rfl
    exact unarmed.trans (.posts rfl rfl (fun job member => member) rfl rfl (by simp))
  | disconnectInline | stopDrainsInline =>
    exact after (drain_utters env _ _) rfl rfl rfl rfl rfl
  | runCallback job rest queued =>
    have popped : c.Utters P Q { c with callbackQueue := rest } :=
      ⟨fun m member => .inl member, fun m member => member, fun m member => .inl member,
        fun job member => .inl member, fun pr listens => listens, fun pr progress total member =>
        .inl (queued ▸ List.mem_cons_of_mem job member)⟩
    exact popped.trans (fire_utters env _ job)
  | connect | rollback | stopBegins | stopEnds => exact .of_eq rfl rfl rfl rfl rfl
  | _ => exact .posts rfl rfl (fun job member => member) rfl rfl (by simp)

end

/-- A step that says nothing but spoken messages, now or from the strand. -/
structure Client.Speaks (c c' : Client) : Prop where
  sent : ∀ m ∈ c'.sent, m ∈ c.sent ∨ Spoken m
  kept : ∀ m ∈ c.sent, m ∈ c'.sent
  queued : ∀ m, .send m ∈ c'.strand → .send m ∈ c.strand ∨ Spoken m

theorem spoken_vocabulary : Vocabulary Spoken fun _ => True where
  notification := serializeNotification_spoken
  success id result _ := makeSuccessResponse_spoken id result
  error id code message data _ := makeErrorResponse_spoken id code message data

theorem step_speaks (env : ClientEnv) {c c' : Client} {event : ClientEvent}
    (h : c.step env event = some c') (spoken : ∀ m, .send m ∈ c.strand → Spoken m)
    (ids : ∀ (pr : Nat) r, c.requests[pr]? = some r → ∃ n, r.id = .int n) : c.Speaks c' := by
  have utters : c.Utters Spoken (fun _ => True) c' := by
    apply step_utters env spoken_vocabulary h spoken (fun _ _ => True.intro)
      fun _ _ _ _ => True.intro
    intro pr params rest r _ _ present
    obtain ⟨n, id⟩ := ids pr r present
    rw [id]
    exact serializeRequest_spoken n r.method params
  exact ⟨utters.sent, utters.kept, utters.queued⟩

end CppMcp
