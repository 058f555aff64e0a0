import CppMcp.Client.Frame

namespace CppMcp

open Lib

/-- The message is a response: it names no method. -/
def isResponse (m : Json) : Bool := !m.contains "method"

/-- What a `PendingRequest` tells the user: a report of its progress, or its end. -/
inductive Mark where
  | report (progress : Double) (total : Option Double)
  | ended
deriving DecidableEq

def Call.mark (pr : Nat) : Call → Option Mark
  | .progress place p total => if place = pr then some (.report p total) else none
  | .complete place _ | .error place _ => if place = pr then some .ended else none
  | _ => none

def CallbackJob.mark (pr : Nat) : CallbackJob → Option Mark
  | .progress place p total => if place = pr then some (.report p total) else none
  | .terminal place => if place = pr then some .ended else none

/-- What the user was told of the request, and then what the callback executor still holds. -/
def Client.marks (env : ClientEnv) (c : Client) (pr : Nat) : List Mark :=
  c.calls.filterMap (Call.mark pr) ++
    if env.callbackExecutor then c.callbackQueue.filterMap (CallbackJob.mark pr) else []

/-- The request has ended. -/
def Client.Over (c : Client) (pr : Nat) : Prop :=
  ∃ r, c.requests[pr]? = some r ∧ r.state ≠ .waiting

theorem Client.Over.congr {c c' : Client} {pr : Nat} (isOver : c.Over pr)
    (requests : c'.requests = c.requests) : c'.Over pr := by
  unfold Client.Over at isOver ⊢
  rw [requests]
  exact isOver

/-- What a task leaves alone that serves no inbound request, accepts no handshake and reports
    no progress. -/
def Client.apart (c : Client) :
    List Task × List InboundJob × Bool × Bool × Bool × Bool × Option InitializeResult :=
  (c.strand, c.pool, c.transport, c.stopping, c.stopDrained, c.initialized, c.serverResult)

/-- What such a task does: it responds to nothing, and all it may tell the user of a request is
    that it ended, once it has. -/
structure Client.Works (env : ClientEnv) (c c' : Client) : Prop where
  apart : c'.apart = c.apart
  connected : c'.connected = true → c.connected = true
  responses : c'.sent.filter isResponse = c.sent.filter isResponse
  inline : env.callbackExecutor = false → c'.callbackQueue = c.callbackQueue
  isOver : ∀ pr, c.Over pr → c'.Over pr
  marks : ∀ pr, ∃ ends, c'.marks env pr = c.marks env pr ++ ends ∧
    ∀ mark ∈ ends, mark = .ended ∧ c'.Over pr

variable {env : ClientEnv}

namespace Client.Works

/-- A task that tells the user nothing of any request. -/
theorem of_eq {c c' : Client} (apart : c'.apart = c.apart)
    (connected : c'.connected = true → c.connected = true)
    (responses : c'.sent.filter isResponse = c.sent.filter isResponse)
    (callbackQueue : c'.callbackQueue = c.callbackQueue)
    (marks : ∀ pr, c'.marks env pr = c.marks env pr) (isOver : ∀ pr, c.Over pr → c'.Over pr) :
    c.Works env c' :=
  ⟨apart, connected, responses, fun _ => callbackQueue, isOver, fun pr =>
    ⟨[], by rw [marks, List.append_nil], by simp⟩⟩

theorem refl (c : Client) : c.Works env c :=
  .of_eq rfl id rfl rfl (fun _ => rfl) fun _ isOver => isOver

theorem trans {a b c : Client} (first : a.Works env b) (second : b.Works env c) :
    a.Works env c where
  apart := second.apart.trans first.apart
  connected on := first.connected (second.connected on)
  responses := second.responses.trans first.responses
  inline off := (second.inline off).trans (first.inline off)
  isOver pr isOver := second.isOver pr (first.isOver pr isOver)
  marks pr := by
    obtain ⟨front, told, ends⟩ := first.marks pr
    obtain ⟨back, told', ends'⟩ := second.marks pr
    refine ⟨front ++ back, by rw [told', told, List.append_assoc], fun mark member => ?_⟩
    rcases List.mem_append.mp member with member | member
    · exact ⟨(ends mark member).1, second.isOver pr (ends mark member).2⟩
    · exact ends' mark member

theorem fields {c c' : Client} (works : c.Works env c') : c'.strand = c.strand ∧
    c'.pool = c.pool ∧ c'.transport = c.transport ∧ c'.stopping = c.stopping ∧
    c'.stopDrained = c.stopDrained ∧ c'.initialized = c.initialized ∧
    c'.serverResult = c.serverResult := by
  simpa [Client.apart] using works.apart

theorem strand {c c' : Client} (works : c.Works env c') : c'.strand = c.strand := works.fields.1

theorem pool {c c' : Client} (works : c.Works env c') : c'.pool = c.pool := works.fields.2.1

theorem serverResult {c c' : Client} (works : c.Works env c') : c'.serverResult = c.serverResult :=
  works.fields.2.2.2.2.2.2

end Client.Works

/-- A message that names a method is no response. -/
theorem rawSend_works (c : Client) {message : Json} (named : message.contains "method" = true) :
    c.Works env (c.rawSend message) := by
  unfold Client.rawSend
  split
  · have unanswered : (c.sent ++ [message]).filter isResponse = c.sent.filter isResponse := by
      simp [isResponse, named]
    exact .of_eq rfl id unanswered rfl (fun _ => rfl) fun _ isOver => isOver
  · exact .refl c

theorem serializeNotification_named (notif : JsonRpcNotification) :
    (serializeNotification notif).contains "method" = true := by
  unfold serializeNotification
  cases notif.params <;> simp [Json.contains, find?_mk]

theorem serializeRequest_named (req : JsonRpcRequest) :
    (serializeRequest req).contains "method" = true := by
  unfold serializeRequest
  cases req.params <;> simp [Json.contains, find?_mk]

/-- A request may end, and the user is told elsewhere. -/
theorem update_works (c : Client) (pr : Nat) {f : PendingRequest → PendingRequest}
    (each : ∀ r, (f r).state = .waiting → r.state = .waiting) : c.Works env (c.update pr f) := by
  refine .of_eq rfl id rfl rfl (fun _ => rfl) fun place isOver => ?_
  obtain ⟨r, found, ended⟩ := isOver
  simp only [Client.Over, Client.update, List.getElem?_modify, found, Option.map_eq_map,
    Option.map_some, Option.some.injEq, exists_eq_left']
  split
  · exact fun waits => ended (each r waits)
  · exact ended

variable (env)

theorem invoke_eq (c : Client) (label : String) (call : Call) :
    ∃ log, c.invoke env label call = { c with calls := c.calls ++ [call], log := log } := by
  unfold Client.invoke
  split
  · exact ⟨c.log, rfl⟩
  · exact ⟨_, rfl⟩
  · exact ⟨_, rfl⟩

/-- User code that is no callback of a request. -/
theorem invoke_works (c : Client) (label : String) {call : Call} (other : ∀ pr, call.mark pr = none) :
    c.Works env (c.invoke env label call) := by
  obtain ⟨log, eq⟩ := invoke_eq env c label call
  rw [eq]
  refine .of_eq rfl id rfl rfl (fun pr => ?_) fun _ isOver => isOver
  simp [Client.marks, other pr]

/-- A `fire` closure runs no user code, or the callback it was made for. -/
theorem fire_cases (c : Client) (job : CallbackJob) : c.fire env job = c ∨
    ∃ label call, c.fire env job = c.invoke env label call ∧
      ∀ pr, call.mark pr = job.mark pr := by
  unfold Client.fire
  repeat' split
  all_goals first
    | exact .inl rfl
    | exact .inr ⟨_, _, rfl, fun _ => rfl⟩

theorem fire_eq (c : Client) (job : CallbackJob) :
    ∃ calls log, c.fire env job = { c with calls := calls, log := log } := by
  rcases fire_cases env c job with same | ⟨label, call, same, -⟩
  · exact ⟨c.calls, c.log, same⟩
  · obtain ⟨log, eq⟩ := invoke_eq env c label call
    exact ⟨_, log, same.trans eq⟩

theorem dispatch_eq (c : Client) (job : CallbackJob) : ∃ calls callbackQueue log,
    c.dispatch env job = { c with calls := calls, callbackQueue := callbackQueue, log := log } := by
  unfold Client.dispatch
  split
  · exact ⟨c.calls, _, c.log, rfl⟩
  · obtain ⟨calls, log, eq⟩ := fire_eq env c job
    exact ⟨calls, c.callbackQueue, log, eq⟩

/-- `finish` writes the request, and tells the user. -/
theorem finish_eq (c : Client) (pr : Nat) (outcome : McpOutcome) :
    ∃ requests calls callbackQueue log, c.finish env pr outcome =
      { c with requests := requests, calls := calls, callbackQueue := callbackQueue,
               log := log } := by
  unfold Client.finish
  split
  · exact ⟨c.requests, c.calls, c.callbackQueue, c.log, rfl⟩
  · split
    · obtain ⟨calls, callbackQueue, log, eq⟩ :=
        dispatch_eq env (c.update pr (PendingRequest.finished outcome)) (.terminal pr)
      exact ⟨_, calls, callbackQueue, log, eq⟩
    · exact ⟨_, c.calls, c.callbackQueue, c.log, rfl⟩

/-- The end of a request that is over is told now, or by the callback executor. -/
theorem dispatchTerminal_works {c : Client} {pr : Nat} (ended : c.Over pr) :
    c.Works env (c.dispatch env (.terminal pr)) := by
  -- What was told of `pr` grows by its end; of the other requests nothing is told.
  have told {c' : Client} (apart : c'.apart = c.apart) (connected : c'.connected = c.connected)
      (sent : c'.sent = c.sent)
      (inline : env.callbackExecutor = false → c'.callbackQueue = c.callbackQueue)
      (requests : c'.requests = c.requests)
      (marks : ∀ place, c'.marks env place =
        c.marks env place ++ if pr = place then [.ended] else []) : c.Works env c' := by
    have isOver (place : Nat) (isOver : c.Over place) : c'.Over place := isOver.congr requests
    refine ⟨apart, fun on => connected ▸ on, by rw [sent], inline, isOver,
      fun place => ⟨_, marks place, fun mark member => ?_⟩⟩
    split at member
    · rename_i same
      exact ⟨List.mem_singleton.mp member, isOver place (same ▸ ended)⟩
    · cases member
  unfold Client.dispatch
  split
  · rename_i posted
    refine told rfl rfl rfl (fun off => by simp [posted] at off) rfl fun place => ?_
    simp only [Client.marks, posted, if_true, List.filterMap_append, List.append_assoc]
    by_cases same : pr = place <;> simp [CallbackJob.mark, same]
  · rename_i inline
    rcases fire_cases env c (.terminal pr) with same | ⟨label, call, same, mark⟩
    · rw [same]
      exact .refl c
    · obtain ⟨log, eq⟩ := invoke_eq env c label call
      rw [same, eq]
      refine told rfl rfl rfl (fun _ => rfl) rfl fun place => ?_
      simp only [Client.marks, inline, List.filterMap_append]
      by_cases same : pr = place <;> simp [mark, CallbackJob.mark, same]

theorem finish_works (c : Client) (pr : Nat) {outcome : McpOutcome}
    (terminal : outcome.terminal ≠ .waiting) : c.Works env (c.finish env pr outcome) := by
  unfold Client.finish
  split
  · exact .refl c
  · rename_i r present
    split
    · have finished : c.Works env (c.update pr (PendingRequest.finished outcome)) :=
        update_works c pr fun r waits => absurd waits terminal
      have isOver : (c.update pr (PendingRequest.finished outcome)).Over pr :=
        ⟨r.finished outcome, by simp [Client.update, present], terminal⟩
      exact finished.trans (dispatchTerminal_works env isOver)
    · exact update_works c pr fun r waits => absurd waits terminal

theorem forget_works (c : Client) (id : RequestId) (r : PendingRequest) :
    c.Works env (c.forget id r) :=
  .of_eq rfl (fun on => on) rfl rfl (fun _ => rfl) fun _ isOver => isOver

/-- The outcome is a success that the initialize request under the id is accepted with. -/
def Client.Accepts (c : Client) (id : RequestId) (outcome : McpOutcome) (ir : InitializeResult) :
    Prop :=
  outcome.terminal = .succeeded ∧ acceptInitialize outcome.result = .ok ir ∧
    ∃ pr r, c.pendingMap.lookup id = some pr ∧ c.requests[pr]? = some r ∧
      r.method = Protocol.methodInitialize

/-- The client once a handshake is accepted, the request not yet finished. -/
def Client.greeted (c : Client) (ir : InitializeResult) : Client :=
  { c with serverResult := some ir, connected := true, initialized := true }

/-- A handshake is accepted and published, or nothing is. -/
theorem completePending_kinds (c : Client) (id : RequestId) (outcome : McpOutcome)
    (terminal : outcome.terminal ≠ .waiting) :
    (∃ ir, c.Accepts id outcome ir ∧
      (c.greeted ir).Works env (c.completePending env id outcome)) ∨
    (∀ ir, ¬ c.Accepts id outcome ir) ∧ c.Works env (c.completePending env id outcome) := by
  have forgotten {start before : Client} (pr : Nat) (r : PendingRequest) {final : McpOutcome}
      (works : start.Works env before) (terminal : final.terminal ≠ .waiting) :
      start.Works env ((before.forget id r).finish env pr final) :=
    (works.trans (forget_works env before id r)).trans (finish_works env _ pr terminal)
  cases found : c.pendingMap.lookup id with
  | none =>
    have same : c.completePending env id outcome = c := by simp [Client.completePending, found]
    rw [same]
    refine .inr ⟨?_, .refl c⟩
    rintro ir ⟨_, _, pr, r, found', _⟩
    simp [found] at found'
  | some pr =>
    cases present : c.requests[pr]? with
    | none =>
      have same : c.completePending env id outcome = c := by
        simp [Client.completePending, found, present]
      rw [same]
      refine .inr ⟨?_, .refl c⟩
      rintro ir ⟨_, _, pr', r, found', present', _⟩
      obtain rfl : pr = pr' := by simpa [found] using found'
      simp [present] at present'
    | some r =>
      have refused {ir : InitializeResult} (other : outcome.terminal = .succeeded →
          r.method = Protocol.methodInitialize → acceptInitialize outcome.result ≠ .ok ir) :
          ¬ c.Accepts id outcome ir := by
        rintro ⟨succeeded, accepted, pr', r', found', present', method⟩
        obtain rfl : pr = pr' := by simpa [found] using found'
        obtain rfl : r = r' := by simpa [present] using present'
        exact other succeeded method accepted
      simp only [Client.completePending, found, present]
      split
      · rename_i handshake
        cases accepted : acceptInitialize outcome.result with
        | ok ir =>
          have announced : (c.greeted ir).Works env _ := rawSend_works (c.greeted ir)
            (serializeNotification_named ⟨Protocol.notifInitialized, none⟩)
          exact .inl ⟨ir, ⟨handshake.1, accepted, pr, r, found, present, handshake.2⟩,
            forgotten pr r announced terminal⟩
        | error e =>
          refine .inr ⟨fun ir => refused fun _ _ ok => by simp [accepted] at ok, ?_⟩
          have logged (e : Exn) : c.Works env
              { c with log := c.log ++ ["initialize result parse failed: " ++ e.what] } :=
            .of_eq rfl (fun on => on) rfl rfl (fun _ => rfl) fun _ isOver => isOver
          cases e with
          | mcp code message data => exact forgotten pr r (.refl c) (by decide)
          | std what => exact forgotten pr r (logged (.std what)) (by decide)
          | other => exact forgotten pr r (logged .other) (by decide)
      · rename_i other
        exact .inr ⟨fun ir => refused fun succeeded method _ => other ⟨succeeded, method⟩,
          forgotten pr r (.refl c) terminal⟩

/-- An outcome that is no success works like any other task. -/
theorem completePending_works (c : Client) (id : RequestId) {outcome : McpOutcome}
    (terminal : outcome.terminal ≠ .waiting) (failed : outcome.terminal ≠ .succeeded) :
    c.Works env (c.completePending env id outcome) := by
  rcases completePending_kinds env c id outcome terminal with ⟨ir, accepts, -⟩ | ⟨-, works⟩
  · exact absurd accepts.1 failed
  · exact works

theorem onTimer_works (c : Client) (pr : Nat) : c.Works env (c.onTimer env pr) := by
  unfold Client.onTimer
  repeat' split
  all_goals first
    | exact .refl c
    | exact completePending_works env c _ (by simp) (by simp)

theorem cancelTask_works (c : Client) (id : RequestId) (reason : String) :
    c.Works env (c.cancelTask env id reason) := by
  unfold Client.cancelTask
  repeat' split
  all_goals first
    | exact .refl c
    | exact (rawSend_works c (serializeNotification_named _)).trans
        (completePending_works env _ id (by simp) (by simp))

theorem failPending_works (reason : String) (c : Client) (pr : Nat) :
    c.Works env (c.failPending env reason pr) := by
  unfold Client.failPending
  split
  · exact .refl c
  · split
    · exact finish_works env c pr (by simp)
    · exact .refl c

theorem failLoop_works (reason : String) (prs : List Nat) (c : Client) :
    c.Works env (prs.foldl (Client.failPending env reason) c) := by
  induction prs generalizing c with
  | nil => exact .refl c
  | cons pr prs ih => exact (failPending_works env reason c pr).trans (ih _)

theorem drain_works (c : Client) (reason : String) : c.Works env (c.drain env reason) := by
  have cut : c.Works env { c with connected := false } :=
    .of_eq rfl nofun rfl rfl (fun _ => rfl) fun _ isOver => isOver
  have failed := failLoop_works env reason c.keyedRequests { c with connected := false }
  have cleared : Client.Works env _ (c.drain env reason) :=
    .of_eq (c := c.keyedRequests.foldl (Client.failPending env reason) { c with connected := false })
      rfl id rfl rfl (fun _ => rfl) fun _ isOver => isOver
  exact (cut.trans failed).trans cleared

theorem onTransportDisconnect_works (c : Client) : c.Works env (c.onTransportDisconnect env) := by
  have drained := drain_works env c "transport disconnected"
  unfold Client.onTransportDisconnect
  simp only
  split
  · exact drained.trans (invoke_works env _ _ fun _ => rfl)
  · exact drained

theorem registerTask_works (c : Client) (pr : Nat) (params : Option Json) :
    c.Works env (c.registerTask pr params) := by
  unfold Client.registerTask
  split
  · exact .refl c
  · rename_i r _
    have marked : c.Works env (c.update pr fun r => { r with registered := true }) :=
      update_works c pr fun _ waits => waits
    have keyed : c.Works env (c.registerPending pr r) :=
      marked.trans (.of_eq rfl id rfl rfl (fun _ => rfl) fun _ isOver => isOver)
    simp only
    split
    · have armed : c.Works env
          ((c.registerPending pr r).update pr fun r => { r with timer := true }) :=
        keyed.trans (update_works _ pr fun _ waits => waits)
      exact armed.trans (rawSend_works _ (serializeRequest_named _))
    · exact keyed.trans (rawSend_works _ (serializeRequest_named _))

theorem pushCall_mark {notif : JsonRpcNotification} {call : Call}
    (h : pushCall env notif = some (.ok call)) (pr : Nat) : call.mark pr = none := by
  obtain ⟨uri, rfl⟩ | ⟨kind, rfl⟩ | ⟨msg, rfl⟩ | rfl := pushCall_kinds h <;> rfl

theorem handlePush_works (c : Client) (notif : JsonRpcNotification) :
    c.Works env (c.handlePush env notif) := by
  unfold Client.handlePush
  split
  · exact .refl c
  · rename_i call pushed
    exact invoke_works env c _ (pushCall_mark env pushed)
  · exact .of_eq rfl id rfl rfl (fun _ => rfl) fun _ isOver => isOver

/-- What the progress branch of `handle_notification` reads before it looks up the token. -/
def progressReport (p : Json) : Except Exn (Option (RequestId × Double × Option Double)) :=
  match p.find? "progressToken" with
  | none => .ok none
  | some raw =>
    match RequestId.fromJson raw with
    | .error _ => .ok none
    | .ok token => do
      let progress ← p.value Json.getDouble "progress" (Double.ofInt 0)
      let total ← progressTotal p
      return some (token, progress, total)

/-- The request keyed by a token, if it waits and has `on_progress`. -/
def Client.listener (c : Client) (token : RequestId) : Option Nat :=
  match c.pendingMap.lookup token with
  | none => none
  | some pr =>
    match c.requests[pr]? with
    | none => none
    | some r => if r.state = .waiting ∧ r.onProgress = true then some pr else none

/-- The report a message makes, when it is a progress notification for a listener. -/
def Client.report (c : Client) (m : Json) : Option (Nat × Double × Option Double) :=
  match parseMessageClient m with
  | .notification notif =>
    if notif.method = Protocol.notifProgress then
      match progressReport (notif.params.getD (.object [])) with
      | .ok (some (token, progress, total)) => (c.listener token).map fun pr => (pr, progress, total)
      | _ => none
    else none
  | _ => none

/-- The request that listens on the token, if any does, is told of the progress. -/
def Client.tell (env : ClientEnv) (c : Client) (token : RequestId) (progress : Double)
    (total : Option Double) : Client :=
  match c.listener token with
  | none => c
  | some pr => c.dispatch env (.progress pr progress total)

theorem handleProgress_eq (c : Client) (p : Json) : c.handleProgress env p =
    (progressReport p).map fun
      | none => c
      | some (token, progress, total) => c.tell env token progress total := by
  unfold Client.handleProgress progressReport
  cases p.find? "progressToken" with
  | none => rfl
  | some raw =>
    dsimp only
    cases RequestId.fromJson raw with
    | error e => rfl
    | ok token =>
      dsimp only
      cases p.value Json.getDouble "progress" (Double.ofInt 0) with
      | error e => rfl
      | ok progress =>
        cases progressTotal p with
        | error e => rfl
        | ok total =>
          simp only [bind, Except.bind, pure, Except.pure, Except.map, Client.tell, Client.listener]
          cases c.pendingMap.lookup token with
          | none => rfl
          | some pr =>
            simp only [Client.deliverProgress]
            cases c.requests[pr]? with
            | none => rfl
            | some r => by_cases listens : r.state = .waiting ∧ r.onProgress = true <;> simp [listens]

/-- What running a task comes to: it sends a response, serves an inbound request, reports
    progress to a listener, accepts a handshake, or works at none of these. -/
inductive Client.Ran (c : Client) : Task → Client → Prop where
  | sends (m : Json) : Ran c (.send m) (c.rawSend m)
  | serves {m : Json} {req : JsonRpcRequest} (parsed : parseMessageClient m = .request req) :
      Ran c (.message m) (c.handleInboundRequest env req)
  | reports {m : Json} {pr : Nat} {progress : Double} {total : Option Double}
      (reported : c.report m = some (pr, progress, total)) :
      Ran c (.message m) (c.dispatch env (.progress pr progress total))
  | accepts {m : Json} {resp : JsonRpcSuccessResponse} {ir : InitializeResult} {c' : Client}
      (parsed : parseMessageClient m = .success resp)
      (accepted : c.Accepts resp.id { terminal := .succeeded, result := resp.result } ir)
      (works : (c.greeted ir).Works env c') : Ran c (.message m) c'
  | works {task : Task} {c' : Client} (response : ∀ m, task ≠ .send m)
      (quiet : ∀ m, task = .message m →
        (∀ req, parseMessageClient m ≠ .request req) ∧ c.report m = none)
      (works : c.Works env c') : Ran c task c'

theorem handleNotification_ran {c c' : Client} {m : Json} {notif : JsonRpcNotification}
    (parsed : parseMessageClient m = .notification notif)
    (h : c.handleNotification env notif = .ok c') : c.Ran env (.message m) c' := by
  have quiet (unheard : c.report m = none) (works : c.Works env c') :
      c.Ran env (.message m) c' := by
    refine .works (fun _ => nofun) (fun m' same => ?_) works
    cases same
    exact ⟨fun req asked => by simp [parsed] at asked, unheard⟩
  unfold Client.handleNotification at h
  split at h
  · rename_i progress
    rw [handleProgress_eq] at h
    obtain ⟨read, reading, same⟩ := map_eq_ok.mp h
    match read with
    | none =>
      have stays : c = c' := same
      refine quiet ?_ (stays ▸ .refl c)
      simp [Client.report, parsed, progress, reading]
    | some (token, report, total) =>
      have told : c.tell env token report total = c' := same
      unfold Client.tell at told
      cases listens : c.listener token with
      | none =>
        rw [listens] at told
        refine quiet ?_ (told ▸ .refl c)
        simp [Client.report, parsed, progress, reading, listens]
      | some pr =>
        rw [listens] at told
        rw [← told]
        apply Client.Ran.reports
        simp [Client.report, parsed, progress, reading, listens]
  · rename_i other
    cases h
    refine quiet ?_ (handlePush_works env c notif)
    simp [Client.report, parsed, other]

/-- A progress notification that throws reports nothing. -/
theorem handleNotification_error {c : Client} {m : Json} {notif : JsonRpcNotification} {e : Exn}
    (parsed : parseMessageClient m = .notification notif)
    (h : c.handleNotification env notif = .error e) : c.report m = none := by
  unfold Client.handleNotification at h
  split at h
  · rename_i progress
    rw [handleProgress_eq] at h
    cases reading : progressReport (notif.params.getD (.object [])) with
    | ok read =>
      rw [reading] at h
      cases h
    | error e => simp [Client.report, parsed, progress, reading]
  · cases h

theorem runTask_ran (c : Client) (task : Task) : c.Ran env task (c.runTask env task) := by
  have works {c' : Client} (response : ∀ m, task ≠ .send m) (message : ∀ m, task ≠ .message m)
      (works : c.Works env c') : c.Ran env task c' :=
    .works response (fun m same => absurd same (message m)) works
  cases task with
  | register pr params =>
    exact works (fun _ => nofun) (fun _ => nofun) (registerTask_works env c pr params)
  | transportDisconnect =>
    exact works (fun _ => nofun) (fun _ => nofun) (onTransportDisconnect_works env c)
  | cancel id reason =>
    exact works (fun _ => nofun) (fun _ => nofun) (cancelTask_works env c id reason)
  | timer pr => exact works (fun _ => nofun) (fun _ => nofun) (onTimer_works env c pr)
  | drain reason => exact works (fun _ => nofun) (fun _ => nofun) (drain_works env c reason)
  | send m => exact .sends m
  | message m =>
    have quiet {c' : Client} (other : ∀ req, parseMessageClient m ≠ .request req)
        (unheard : c.report m = none) (works : c.Works env c') : c.Ran env (.message m) c' := by
      refine .works (fun _ => nofun) (fun m' same => ?_) works
      cases same
      exact ⟨other, unheard⟩
    simp only [Client.runTask, Client.onTransportMessage]
    cases parsed : parseMessageClient m with
    | request req => exact .serves parsed
    | notification notif =>
      dsimp only
      cases handled : c.handleNotification env notif with
      | ok c' => exact handleNotification_ran env parsed handled
      | error e =>
        have unheard : c.report m = none := handleNotification_error env parsed handled
        have other (req : JsonRpcRequest) : parseMessageClient m ≠ .request req := by simp [parsed]
        dsimp only
        split
        · have died : c.Works env { c with
              log := c.log ++ ["McpClient io loop died: " ++ e.what], ioAlive := false,
              ended := true } :=
            .of_eq rfl id rfl rfl (fun _ => rfl) fun _ isOver => isOver
          exact quiet other unheard (died.trans (onTransportDisconnect_works env _))
        · exact quiet other unheard (.refl c)
    | success resp =>
      rcases completePending_kinds env c resp.id
        { terminal := .succeeded, result := resp.result } (by simp) with
        ⟨ir, accepted, works⟩ | ⟨-, works⟩
      · exact .accepts parsed accepted works
      · exact quiet (by simp [parsed]) (by simp [Client.report, parsed]) works
    | error resp =>
      exact quiet (by simp [parsed]) (by simp [Client.report, parsed])
        (completePending_works env c resp.id (by simp) (by simp))

end CppMcp
