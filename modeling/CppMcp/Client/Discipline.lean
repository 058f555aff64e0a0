import CppMcp.Client.Answers
import CppMcp.Client.Stale

namespace CppMcp

open Lib

/-- What a client says to its server. -/
inductive Said where
  | asks (id : RequestId) (method : String) (params : Option Json)
  | cancels (id : RequestId) (reason : String)
  | greets (id : RequestId)
  | answers (response : Json)

namespace Said

def message : Said → Json
  | asks id method params => serializeRequest ⟨id, method, params⟩
  | cancels id reason => serializeNotification ⟨Protocol.notifCancelled,
      some (.mk [("requestId", requestIdToJson id), ("reason", .string reason)])⟩
  | greets _ => serializeNotification ⟨Protocol.notifInitialized, none⟩
  | answers response => response

def asked : Said → Option RequestId
  | asks id _ _ => some id
  | _ => none

def cancelled : Said → Option RequestId
  | cancels id _ => some id
  | _ => none

end Said

/-- The requests that a server has been sent, each with its method, and those of them that it has
    been told are cancelled. -/
structure Talk where
  asked : List (RequestId × String) := []
  cancelled : List RequestId := []

/-- The protocol of one direction: a request is sent once, it is cancelled at most once and after
    it was sent, and a handshake is confirmed after its request and not once that is cancelled. -/
def Talk.step (t : Talk) : Said → Option Talk
  | .asks id method _ =>
    if id ∈ t.asked.map Prod.fst then none else some { t with asked := t.asked ++ [(id, method)] }
  | .cancels id _ =>
    if id ∈ t.asked.map Prod.fst ∧ id ∉ t.cancelled then
      some { t with cancelled := t.cancelled ++ [id] }
    else none
  | .greets id =>
    if (id, Protocol.methodInitialize) ∈ t.asked ∧ id ∉ t.cancelled then some t else none
  | .answers response => if isResponse response then some t else none

/-- A request after something was said. -/
structure PendingRequest.Adds (said : List Said) (r r' : PendingRequest) : Prop where
  id : r'.id = r.id
  method : r'.method = r.method
  registered : r'.registered = true ↔ r.registered = true ∨ r.id ∈ said.filterMap Said.asked
  cancelled : r'.state = .cancelled ↔ r.state = .cancelled ∨ r.id ∈ said.filterMap Said.cancelled

/-- A step that says something, if there is a transport to say it to. It registers the requests
    that it sends and cancels those that it says it cancels. -/
structure Client.Adds (said : List Said) (c c' : Client) : Prop where
  sent : c'.sent = c.sent ++ if c.transport then said.map Said.message else []
  transport : c'.transport = c.transport
  requests : ∀ (pr : Nat) (r : PendingRequest), c.requests[pr]? = some r →
    ∃ r', c'.requests[pr]? = some r' ∧ r.Adds said r'
  length : c'.requests.length = c.requests.length
  queued : ∀ m, .send m ∈ c'.strand → .send m ∈ c.strand ∨ isResponse m = true

theorem PendingRequest.Adds.quiet {r r' : PendingRequest} (id : r'.id = r.id)
    (method : r'.method = r.method) (registered : r'.registered = r.registered)
    (cancelled : r'.state = .cancelled ↔ r.state = .cancelled) : r.Adds [] r' := by
  refine ⟨id, method, ?_, ?_⟩
  · rw [registered]
    exact ⟨.inl, fun either => either.elim (fun h => h) nofun⟩
  · exact cancelled.trans ⟨.inl, fun either => either.elim (fun h => h) nofun⟩

namespace Client.Adds

/-- Nothing is said or posted, and no request is rewritten. -/
theorem of_eq {c c' : Client} (sent : c'.sent = c.sent) (transport : c'.transport = c.transport)
    (requests : c'.requests = c.requests) (strand : c'.strand = c.strand) : c.Adds [] c' where
  sent := by simp [sent]
  transport := transport
  requests pr r present := ⟨r, requests ▸ present, .quiet rfl rfl rfl .rfl⟩
  length := by rw [requests]
  queued m member := .inl (strand ▸ member)

theorem refl (c : Client) : c.Adds [] c := .of_eq rfl rfl rfl rfl

theorem trans {first later : List Said} {a b c : Client} (begins : a.Adds first b)
    (ends : b.Adds later c) : a.Adds (first ++ later) c where
  sent := by
    rw [ends.sent, begins.sent, begins.transport, List.append_assoc]
    split <;> simp
  transport := ends.transport.trans begins.transport
  requests pr r present := by
    obtain ⟨r', between, ⟨id, method, registered, cancelled⟩⟩ := begins.requests pr r present
    obtain ⟨r'', after, ⟨id', method', registered', cancelled'⟩⟩ := ends.requests pr r' between
    refine ⟨r'', after, id'.trans id, method'.trans method, ?_, ?_⟩
    · rw [registered', registered, id, List.filterMap_append, List.mem_append, or_assoc]
    · rw [cancelled', cancelled, id, List.filterMap_append, List.mem_append, or_assoc]
  length := ends.length.trans begins.length
  queued m member := by
    rcases ends.queued m member with old | response
    · exact begins.queued m old
    · exact .inr response

/-- Steps around one that speaks. -/
theorem quietly {said : List Said} {a b c : Client} (begins : a.Adds [] b)
    (ends : b.Adds said c) : a.Adds said c := begins.trans ends

theorem hush {said : List Said} {a b c : Client} (begins : a.Adds said b)
    (ends : b.Adds [] c) : a.Adds said c := List.append_nil said ▸ begins.trans ends

/-- A request is rewritten in what says nothing. -/
theorem update (c : Client) (pr : Nat) {f : PendingRequest → PendingRequest}
    (each : ∀ r, c.requests[pr]? = some r → r.Adds [] (f r)) : c.Adds [] (c.update pr f) where
  sent := by simp [Client.update]
  transport := rfl
  requests place r present := by
    by_cases same : pr = place
    · subst same
      exact ⟨f r, by simp [Client.update, present], each r present⟩
    · exact ⟨r, by simp [Client.update, same, present], .quiet rfl rfl rfl .rfl⟩
  length := by simp [Client.update]
  queued m member := .inl member

end Client.Adds

/-- Keys lead to requests that were sent and are not cancelled. -/
def Client.Live (c : Client) : Prop :=
  ∀ key (pr : Nat) r, c.pendingMap.lookup key = some pr → c.requests[pr]? = some r →
    r.registered = true ∧ r.state ≠ .cancelled

theorem rawSend_eq (c : Client) (message : Json) :
    c.rawSend message = { c with sent := c.sent ++ if c.transport then [message] else [] } := by
  unfold Client.rawSend
  split
  · rfl
  · rw [List.append_nil]

/-- A message that sends and cancels no request. -/
theorem rawSend_adds (c : Client) {said : Said} (asked : said.asked = none)
    (cancelled : said.cancelled = none) : c.Adds [said] (c.rawSend said.message) := by
  rw [rawSend_eq]
  refine ⟨rfl, rfl, fun pr r present => ⟨r, present, rfl, rfl, ?_, ?_⟩, rfl, fun m member => .inl member⟩
  · simp [asked]
  · simp [cancelled]

variable (env : ClientEnv)

theorem invoke_adds (c : Client) (label : String) (call : Call) :
    c.Adds [] (c.invoke env label call) := by
  obtain ⟨log, eq⟩ := invoke_eq env c label call
  rw [eq]
  exact .of_eq rfl rfl rfl rfl

theorem dispatch_adds (c : Client) (job : CallbackJob) : c.Adds [] (c.dispatch env job) := by
  obtain ⟨calls, callbackQueue, log, eq⟩ := dispatch_eq env c job
  rw [eq]
  exact .of_eq rfl rfl rfl rfl

/-- A request that is not cancelled ends in another way. -/
theorem finish_adds (c : Client) (pr : Nat) {outcome : McpOutcome}
    (other : outcome.terminal ≠ .cancelled)
    (live : ∀ r, c.requests[pr]? = some r → r.state ≠ .cancelled) :
    c.Adds [] (c.finish env pr outcome) := by
  unfold Client.finish
  split
  · exact .refl c
  · split
    · have finished : c.Adds [] (c.update pr (PendingRequest.finished outcome)) :=
        .update c pr fun r present => .quiet rfl rfl rfl (iff_of_false other (live r present))
      exact finished.quietly (dispatch_adds env _ _)
    · exact .update c pr fun r present => .quiet rfl rfl rfl (iff_of_false other (live r present))

theorem forget_adds (c : Client) (id : RequestId) (r : PendingRequest) : c.Adds [] (c.forget id r) :=
  .of_eq rfl rfl rfl rfl

/-- A pending request ends without a cancellation, after a confirmation if it is an accepted
    handshake. -/
theorem completePending_adds {c : Client} (live : c.Live) (id : RequestId) {outcome : McpOutcome}
    (other : outcome.terminal ≠ .cancelled) :
    c.Adds [] (c.completePending env id outcome) ∨
      outcome.terminal = .succeeded ∧ ∃ pr r, c.pendingMap.lookup id = some pr ∧
        c.requests[pr]? = some r ∧ r.method = Protocol.methodInitialize ∧
        c.Adds [.greets r.id] (c.completePending env id outcome) := by
  cases found : c.pendingMap.lookup id with
  | none => exact .inl (by simpa [Client.completePending, found] using Client.Adds.refl c)
  | some pr =>
    cases present : c.requests[pr]? with
    | none => exact .inl (by simpa [Client.completePending, found, present] using Client.Adds.refl c)
    | some r =>
      have ends {before : Client} {said : List Said} (begins : c.Adds said before)
          (same : before.requests = c.requests) {final : McpOutcome}
          (other : final.terminal ≠ .cancelled) :
          c.Adds said ((before.forget id r).finish env pr final) := by
        refine begins.hush ((forget_adds before id r).quietly (finish_adds env _ pr other ?_))
        intro r' there
        exact (live id pr r' found (same ▸ there)).2
      simp only [Client.completePending, found, present]
      split
      · rename_i handshake
        split
        · rename_i ir _
          have accepted : c.Adds []
              { c with serverResult := some ir, connected := true, initialized := true } :=
            .of_eq rfl rfl rfl rfl
          have greeted := accepted.quietly
            (@rawSend_adds { c with serverResult := some ir, connected := true, initialized := true }
              (.greets r.id) rfl rfl)
          refine .inr ⟨handshake.1, pr, r, rfl, present, handshake.2, ends greeted ?_ other⟩
          exact (rawSend_aside _ _).requests
        · exact .inl (ends (.refl c) rfl (by decide))
        · rename_i e _ _
          have logged : c.Adds []
              { c with log := c.log ++ ["initialize result parse failed: " ++ e.what] } :=
            .of_eq rfl rfl rfl rfl
          exact .inl (ends logged rfl (by decide))
      · exact .inl (ends (.refl c) rfl other)

theorem onTimer_adds {c : Client} (live : c.Live) (pr : Nat) : c.Adds [] (c.onTimer env pr) := by
  unfold Client.onTimer
  split
  · exact .refl c
  · split
    · rename_i r present waits
      let expired : McpOutcome :=
        { terminal := .timedOut
          failure := some (.mcp Protocol.requestTimedOut "request timed out" none) }
      have other : expired.terminal ≠ .cancelled := by decide
      rcases completePending_adds env live r.id other with quiet | ⟨succeeded, -⟩
      · exact quiet
      · cases succeeded
    · exact .refl c

theorem failPending_adds (reason : String) (c : Client) (pr : Nat) :
    c.Adds [] (c.failPending env reason pr) := by
  unfold Client.failPending
  split
  · exact .refl c
  · rename_i r present
    split
    · rename_i waits
      refine finish_adds env c pr (by simp) fun r' there => ?_
      obtain rfl : r = r' := Option.some.inj (present.symm.trans there)
      simp [waits]
    · exact .refl c

theorem failAllPending_adds (c : Client) (reason : String) :
    c.Adds [] (c.failAllPending env reason) := by
  have loop (prs : List Nat) (c : Client) :
      c.Adds [] (prs.foldl (Client.failPending env reason) c) := by
    induction prs generalizing c with
    | nil => exact .refl c
    | cons pr rest ih => exact (failPending_adds env reason c pr).quietly (ih _)
  exact (loop c.keyedRequests c).hush (.of_eq rfl rfl rfl rfl)

theorem drain_adds (c : Client) (reason : String) : c.Adds [] (c.drain env reason) := by
  have cut : c.Adds [] { c with connected := false } := .of_eq rfl rfl rfl rfl
  exact cut.quietly (failAllPending_adds env _ reason)

theorem onTransportDisconnect_adds (c : Client) : c.Adds [] (c.onTransportDisconnect env) := by
  have drained := drain_adds env c "transport disconnected"
  unfold Client.onTransportDisconnect Client.drain at *
  simp only
  split
  · exact drained.hush (invoke_adds env _ _ _)
  · exact drained

/-- Under a number there is the request with that id. -/
theorem Correlated.int_owner {c : Client} (inv : Correlated c) {n : Int} {pr : Nat}
    {r : PendingRequest} (found : c.pendingMap.lookup (.int n) = some pr)
    (present : c.requests[pr]? = some r) : r.id = .int n := by
  obtain ⟨r', there, which⟩ := inv.entries _ _ found
  obtain rfl : r = r' := Option.some.inj (present.symm.trans there)
  rcases which with id | ⟨own, token⟩
  · exact id.symm
  · exact inv.tokens pr r n present token.symm

/-- No key is left for a request that is forgotten under its id. -/
theorem Correlated.forgotten {c : Client} (inv : Correlated c) {pr : Nat} {r : PendingRequest}
    (present : c.requests[pr]? = some r) (key : RequestId) :
    (c.forget r.id r).pendingMap.lookup key ≠ some pr := by
  intro kept
  obtain ⟨apart, token⟩ := forget_gone kept
  obtain ⟨r', there, which⟩ := inv.entries key pr (forget_lookup kept)
  obtain rfl : r = r' := Option.some.inj (present.symm.trans there)
  rcases which with id | ⟨own, same⟩
  · exact apart id
  · exact token own same

/-- A cancellation does nothing, or it tells the server and ends the request that waits under the
    id, to which no key leads afterwards. -/
theorem cancelTask_adds {c : Client} (inv : Correlated c) {n : Int} (reason : String) :
    c.cancelTask env (.int n) reason = c ∨
      ∃ pr r, c.pendingMap.lookup (.int n) = some pr ∧ c.requests[pr]? = some r ∧ r.id = .int n ∧
        r.state = .waiting ∧
        c.Adds [.cancels (.int n) reason] (c.cancelTask env (.int n) reason) ∧
        ∀ key, (c.cancelTask env (.int n) reason).pendingMap.lookup key ≠ some pr := by
  cases found : c.pendingMap.lookup (.int n) with
  | none => exact .inl (by simp [Client.cancelTask, found])
  | some pr =>
    cases present : c.requests[pr]? with
    | none => exact .inl (by simp [Client.cancelTask, found, present])
    | some r =>
      by_cases waits : r.state = .waiting
      · have id := inv.int_owner found present
        let said : Said := .cancels (.int n) reason
        let told : Client :=
          { c with sent := c.sent ++ if c.transport then [said.message] else [] }
        let outcome : McpOutcome :=
          { terminal := .cancelled
            failure := some (.mcp Protocol.requestCancelled
              (if reason = "" then "cancelled by client" else reason) none) }
        obtain ⟨calls, callbackQueue, log, finished⟩ := dispatch_eq env
          ((told.forget (.int n) r).update pr (PendingRequest.finished outcome)) (.terminal pr)
        have completes : c.cancelTask env (.int n) reason = told.completePending env (.int n) outcome := by
          simp only [Client.cancelTask, found, present, waits, if_true, rawSend_eq]
          rfl
        have ends : told.completePending env (.int n) outcome =
            (told.forget (.int n) r).finish env pr outcome := by
          simp only [Client.completePending, told, found, present]
          rw [if_neg fun both => by cases both.1]
        have waiting : (told.forget (.int n) r).finish env pr outcome =
            ((told.forget (.int n) r).update pr (PendingRequest.finished outcome)).dispatch env
              (.terminal pr) := by
          simp only [Client.finish, Client.forget, told, present, waits, if_true]
        rw [completes, ends, waiting, finished]
        refine .inr ⟨pr, r, rfl, present, id, waits, ⟨rfl, rfl, fun place s there => ?_, ?_,
          fun m member => .inl member⟩, fun key => ?_⟩
        · by_cases same : pr = place
          · subst same
            obtain rfl : r = s := Option.some.inj (present.symm.trans there)
            refine ⟨r.finished outcome, ?_, rfl, rfl, ?_, ?_⟩
            · simp [Client.update, Client.forget, told, present]
            · simp [Said.asked, PendingRequest.finished]
            · simp [Said.cancelled, PendingRequest.finished, outcome, id]
          · refine ⟨s, by simp [Client.update, Client.forget, told, same, there], rfl, rfl, ?_, ?_⟩
            · simp [Said.asked]
            · have other : s.id ≠ .int n := fun also =>
                same (inv.distinct pr place r s present there (id.trans also.symm))
              simp [Said.cancelled, other]
        · simp [Client.update, Client.forget, told]
        · exact id ▸ inv.forgotten present key
      · exact .inl (by simp [Client.cancelTask, found, present, waits])

theorem registerTask_adds {c : Client} (inv : Correlated c) {pr : Nat} (params : Option Json)
    {r : PendingRequest} (present : c.requests[pr]? = some r) :
    c.Adds [.asks r.id r.method params] (c.registerTask pr params) := by
  have marked (f : PendingRequest → PendingRequest) (id : ∀ r, (f r).id = r.id)
      (method : ∀ r, (f r).method = r.method) (registered : ∀ r, (f r).registered = true)
      (state : ∀ r, (f r).state = r.state) {c' : Client}
      (sent : c'.sent = c.sent ++ if c.transport then [(Said.asks r.id r.method params).message] else [])
      (transport : c'.transport = c.transport) (strand : c'.strand = c.strand)
      (requests : c'.requests = c.requests.modify pr f) :
      c.Adds [.asks r.id r.method params] c' := by
    refine ⟨sent, transport, fun place s there => ?_, by rw [requests, List.length_modify],
      fun m member => .inl (strand ▸ member)⟩
    rw [requests, List.getElem?_modify, there]
    by_cases same : pr = place
    · subst same
      obtain rfl : r = s := Option.some.inj (present.symm.trans there)
      refine ⟨f r, by simp, id r, method r, ?_, ?_⟩
      · simp [registered, Said.asked]
      · simp [state, Said.cancelled]
    · have other : s.id ≠ r.id := fun also => same (inv.distinct pr place r s present there also.symm)
      refine ⟨s, by simp [same], rfl, rfl, ?_, ?_⟩
      · simp [Said.asked, other]
      · simp [Said.cancelled]
  simp only [Client.registerTask, present, rawSend_eq]
  split
  · refine marked (fun r => { r with registered := true, timer := true }) (fun _ => rfl)
      (fun _ => rfl) (fun _ => rfl) (fun _ => rfl) rfl rfl rfl ?_
    simp [Client.update, Client.registerPending, List.modify_modify_eq, Function.comp_def]
  · exact marked (fun r => { r with registered := true }) (fun _ => rfl) (fun _ => rfl)
      (fun _ => rfl) (fun _ => rfl) rfl rfl rfl rfl

theorem handleInboundRequest_adds (c : Client) (req : JsonRpcRequest) :
    ∃ said, c.Adds said (c.handleInboundRequest env req) ∧
      (said = [] ∨ ∃ response, said = [.answers response] ∧ isResponse response = true) := by
  have responds {response : Json} (answer : isResponse response = true) :
      ∃ said, c.Adds said (c.rawSend response) ∧
        (said = [] ∨ ∃ response, said = [.answers response] ∧ isResponse response = true) :=
    ⟨_, @rawSend_adds c (.answers response) rfl rfl, .inr ⟨response, rfl, answer⟩⟩
  unfold Client.handleInboundRequest Client.dispatchInboundRequest
  split
  · exact responds (makeSuccessResponse_responds _ _)
  · split
    · refine ⟨[], ?_, .inl rfl⟩
      split
      · exact .of_eq rfl rfl rfl rfl
      · refine ⟨by simp [Client.runAndRespond, Client.post], rfl,
          fun pr r present => ⟨r, present, .quiet rfl rfl rfl .rfl⟩, rfl, fun m member => ?_⟩
        rcases List.mem_append.mp member with old | new
        · exact .inl old
        · have same := Task.send.inj (List.mem_singleton.mp new)
          exact .inr (same ▸ response_isResponse env _)
    · exact responds (makeErrorResponse_responds _ _ _ _)

def Submission.awaited : Submission → Option Nat
  | .built pr _ => some pr
  | .tested _ => none

def Task.awaited : Task → Option Nat
  | .register pr _ => some pr
  | _ => none

/-- The requests that a thread holds, and those whose registration is queued. -/
def Client.awaiting (c : Client) : List Nat :=
  (c.submissions.entries.filterMap fun entry => entry.2.awaited) ++
    c.strand.filterMap Task.awaited

/-- What the client can say next is in order: what waits for its registration was not sent yet,
    keys lead to requests that may be cancelled or answered, and cancellations name requests. -/
structure InProtocol (c : Client) : Prop where
  correlated : Correlated c
  live : c.Live
  begun : ∀ (pr : Nat) r, c.requests[pr]? = some r → r.state = .cancelled → r.registered = true
  once : c.awaiting.Nodup
  unsent : ∀ pr ∈ c.awaiting, ∃ r, c.requests[pr]? = some r ∧ r.registered = false
  cancels : ∀ id reason, .cancel id reason ∈ c.strand → ∃ n, id = .int n
  sends : ∀ m, .send m ∈ c.strand → isResponse m = true

/-- The state of a client in which the protocol allows it to say something. -/
def Client.Allows (c : Client) : Said → Prop
  | .asks id method _ => ∃ r ∈ c.requests, r.id = id ∧ r.method = method ∧ r.registered = false
  | .cancels id _ =>
    ∃ r ∈ c.requests, r.id = id ∧ r.registered = true ∧ r.state ≠ .cancelled
  | .greets id => ∃ r ∈ c.requests, r.id = id ∧ r.method = Protocol.methodInitialize ∧
    r.registered = true ∧ r.state ≠ .cancelled
  | .answers response => isResponse response = true

/-- A step says at most one thing, and one that is allowed. -/
structure Client.Speaking (c : Client) (said : Option Said) (c' : Client) : Prop where
  adds : c.Adds said.toList c'
  allowed : ∀ one, said = some one → c.Allows one

theorem Client.Adds.speaking {c c' : Client} (adds : c.Adds [] c') : c.Speaking none c' :=
  ⟨adds, nofun⟩

/-- What a step that builds no request keeps. -/
theorem InProtocol.next {c c' : Client} {said : Option Said} (inv : InProtocol c)
    (speaking : c.Speaking said c') (correlated : Correlated c') (live : c'.Live)
    (once : c'.awaiting.Nodup)
    (fewer : ∀ pr ∈ c'.awaiting, pr ∈ c.awaiting ∧ ∀ r, c.requests[pr]? = some r →
      r.id ∉ said.toList.filterMap Said.asked)
    (cancels : ∀ id reason, .cancel id reason ∈ c'.strand →
      .cancel id reason ∈ c.strand ∨ ∃ n, id = .int n) : InProtocol c' where
  correlated := correlated
  live := live
  begun pr r' present cancelled := by
    have bound : pr < c.requests.length := by
      rw [← speaking.adds.length]
      exact (List.getElem?_eq_some_iff.mp present).1
    have before := List.getElem?_eq_getElem bound
    obtain ⟨r'', there, each⟩ := speaking.adds.requests pr _ before
    obtain rfl : r' = r'' := Option.some.inj (present.symm.trans there)
    rw [each.registered]
    rcases each.cancelled.mp cancelled with old | new
    · exact .inl (inv.begun pr _ before old)
    · obtain ⟨one, member, names⟩ := List.mem_filterMap.mp new
      have allowed := speaking.allowed one (Option.mem_toList.mp member)
      cases one with
      | cancels id reason =>
        obtain ⟨s, inside, same, registered, -⟩ := allowed
        obtain ⟨place, there⟩ := List.getElem?_of_mem inside
        cases names
        obtain rfl := inv.correlated.distinct pr place _ s before there same.symm
        obtain rfl := Option.some.inj (before.symm.trans there)
        exact .inl registered
      | _ => cases names
  once := once
  unsent pr member := by
    obtain ⟨old, unsaid⟩ := fewer pr member
    obtain ⟨r, present, unregistered⟩ := inv.unsent pr old
    obtain ⟨r', there, each⟩ := speaking.adds.requests pr r present
    refine ⟨r', there, Bool.eq_false_iff.mpr fun registered => ?_⟩
    rcases each.registered.mp registered with before | now
    · simp [unregistered] at before
    · exact unsaid r present now
  cancels id reason member := (cancels id reason member).elim (inv.cancels id reason) fun h => h
  sends m member := (speaking.adds.queued m member).elim (inv.sends m) fun h => h

/-- Keys are taken away and nothing is cancelled. -/
theorem Client.Live.fewer {c c' : Client} {said : List Said} (live : c.Live)
    (adds : c.Adds said c') (quiet : said.filterMap Said.cancelled = [])
    (pendingMap : ∀ key pr, c'.pendingMap.lookup key = some pr → c.pendingMap.lookup key = some pr) :
    c'.Live := by
  intro key pr r' found present
  have bound : pr < c.requests.length := by
    rw [← adds.length]
    exact (List.getElem?_eq_some_iff.mp present).1
  have before := List.getElem?_eq_getElem bound
  obtain ⟨r'', there, each⟩ := adds.requests pr _ before
  obtain rfl : r' = r'' := Option.some.inj (present.symm.trans there)
  obtain ⟨registered, uncancelled⟩ := live key pr _ (pendingMap key pr found) before
  rw [each.registered, Ne, each.cancelled, quiet]
  exact ⟨.inl registered, fun either => either.elim uncancelled nofun⟩

theorem awaited_sends {tasks : List Task} (sends : ∀ task ∈ tasks, task.isSend = true) :
    tasks.filterMap Task.awaited = [] := by
  refine List.filterMap_eq_nil_iff.mpr fun task member => ?_
  have send := sends task member
  cases task with
  | send m => rfl
  | _ => cases send

theorem awaiting_eq {c c' : Client} (submissions : c'.submissions = c.submissions)
    {tasks : List Task} (strand : c'.strand = c.strand ++ tasks)
    (others : tasks.filterMap Task.awaited = []) : c'.awaiting = c.awaiting := by
  simp only [Client.awaiting, submissions, strand, List.filterMap_append, others, List.append_nil]

theorem cancel_settles {c c' : Client} (settles : c.Settles c') {id : RequestId} {reason : String}
    (member : .cancel id reason ∈ c'.strand) : .cancel id reason ∈ c.strand := by
  obtain ⟨tasks, strand, sends⟩ := settles.posted
  rw [strand] at member
  exact (List.mem_append.mp member).elim (fun old => old) fun new => nomatch sends _ new

/-- A step that sends no request. -/
theorem InProtocol.settle {c c' : Client} {said : Option Said} (inv : InProtocol c)
    (settles : c.Settles c') (speaking : c.Speaking said c')
    (unasked : said.toList.filterMap Said.asked = []) (correlated : Correlated c')
    (live : c'.Live) : InProtocol c' := by
  obtain ⟨tasks, strand, sends⟩ := settles.posted
  have awaiting : c'.awaiting = c.awaiting :=
    awaiting_eq settles.submissions strand (awaited_sends sends)
  refine inv.next speaking correlated live (awaiting ▸ inv.once) (fun pr member => ?_)
    fun id reason member => .inl (cancel_settles settles member)
  rw [unasked]
  exact ⟨awaiting ▸ member, fun _ _ => nofun⟩

/-- A step that says nothing. -/
theorem InProtocol.hush {c c' : Client} (inv : InProtocol c) (settles : c.Settles c')
    (adds : c.Adds [] c') (correlated : Correlated c') : InProtocol c' :=
  inv.settle settles adds.speaking rfl correlated (inv.live.fewer adds rfl settles.pendingMap)

/-- A task is posted that registers nothing. -/
theorem InProtocol.post {c c' : Client} {task : Task} (inv : InProtocol c)
    (requests : c'.requests = c.requests) (pendingMap : c'.pendingMap = c.pendingMap)
    (nextId : c'.nextId = c.nextId) (submissions : c'.submissions = c.submissions)
    (strand : c'.strand = c.strand ++ [task]) (other : task.awaited = none)
    (cancels : ∀ id reason, task = .cancel id reason → ∃ n, id = .int n)
    (sends : ∀ m, task = .send m → isResponse m = true) : InProtocol c' where
  correlated := inv.correlated.congr requests pendingMap nextId submissions
  live := by
    unfold Client.Live
    rw [requests, pendingMap]
    exact inv.live
  begun := requests ▸ inv.begun
  once := by
    rw [awaiting_eq submissions strand (by simp [other])]
    exact inv.once
  unsent := by
    rw [awaiting_eq submissions strand (by simp [other]), requests]
    exact inv.unsent
  cancels id reason member := by
    rw [strand] at member
    rcases List.mem_append.mp member with old | new
    · exact inv.cancels id reason old
    · exact cancels id reason (List.mem_singleton.mp new).symm
  sends m member := by
    rw [strand] at member
    rcases List.mem_append.mp member with old | new
    · exact inv.sends m old
    · exact sends m (List.mem_singleton.mp new).symm

/-- A step that leaves the requests, the keys and what is queued or held. -/
theorem InProtocol.congr {c c' : Client} (inv : InProtocol c)
    (requests : c'.requests = c.requests) (pendingMap : c'.pendingMap = c.pendingMap)
    (nextId : c'.nextId = c.nextId) (submissions : c'.submissions = c.submissions)
    (strand : c'.strand = c.strand) : InProtocol c' where
  correlated := inv.correlated.congr requests pendingMap nextId submissions
  live := by
    unfold Client.Live
    rw [requests, pendingMap]
    exact inv.live
  begun := requests ▸ inv.begun
  once := by
    unfold Client.awaiting
    rw [submissions, strand]
    exact inv.once
  unsent := by
    unfold Client.awaiting
    rw [submissions, strand, requests]
    exact inv.unsent
  cancels := strand ▸ inv.cancels
  sends := strand ▸ inv.sends

theorem InProtocol.pop {c : Client} {task : Task} {rest : List Task} (inv : InProtocol c)
    (head : c.strand = task :: rest) : InProtocol { c with strand := rest } := by
  have rests : rest ⊆ c.strand := head ▸ List.subset_cons_self _ _
  have fewer : Client.awaiting { c with strand := rest } |>.Sublist c.awaiting := by
    refine (List.Sublist.refl _).append ?_
    rw [head]
    exact (List.sublist_cons_self _ _).filterMap _
  exact ⟨inv.correlated.congr rfl rfl rfl rfl, inv.live, inv.begun, inv.once.sublist fewer,
    fun pr member => inv.unsent pr (fewer.subset member),
    fun id reason member => inv.cancels id reason (rests member),
    fun m member => inv.sends m (rests member)⟩

/-- What a step leaves and says. -/
def Client.Keeps (c c' : Client) : Prop := InProtocol c' ∧ ∃ said, c.Speaking said c'

theorem InProtocol.keeps {c c' : Client} (inv : InProtocol c) (settles : c.Settles c')
    (adds : c.Adds [] c') (correlated : Correlated c') : c.Keeps c' :=
  ⟨inv.hush settles adds correlated, none, adds.speaking⟩

theorem registerTask_keeps {c : Client} (inv : InProtocol c) {pr : Nat} (params : Option Json)
    {r : PendingRequest} (present : c.requests[pr]? = some r) (unsent : r.registered = false)
    (alone : pr ∉ c.awaiting) : c.Keeps (c.registerTask pr params) := by
  have adds := registerTask_adds inv.correlated params present
  have speaking : c.Speaking (some (.asks r.id r.method params)) (c.registerTask pr params) := by
    refine ⟨adds, fun one same => ?_⟩
    cases same
    exact ⟨r, List.mem_of_getElem? present, rfl, rfl, unsent⟩
  obtain ⟨-, -, -, submissions, tasks, strand, sends⟩ := registerTask_flags c pr params
  have awaiting := awaiting_eq submissions strand (awaited_sends sends)
  refine ⟨inv.next speaking (registerTask_correlated inv.correlated pr params) ?_
    (awaiting ▸ inv.once) (fun place member => ?_) fun id reason member => ?_, _, speaking⟩
  · intro key place r' found there
    have bound : place < c.requests.length := by
      rw [← adds.length]
      exact (List.getElem?_eq_some_iff.mp there).1
    have before := List.getElem?_eq_getElem bound
    obtain ⟨r'', after, each⟩ := adds.requests place _ before
    obtain rfl : r' = r'' := Option.some.inj (there.symm.trans after)
    rw [each.registered, Ne, each.cancelled]
    rcases registerTask_lookup found with ⟨rfl, -⟩ | old
    · obtain rfl := Option.some.inj (present.symm.trans before)
      refine ⟨.inr (by simp [Said.asked]), fun either => either.elim (fun cancelled => ?_) nofun⟩
      simp [inv.begun place _ present cancelled] at unsent
    · obtain ⟨registered, uncancelled⟩ := inv.live key place _ old before
      exact ⟨.inl registered, fun either => either.elim uncancelled nofun⟩
  · rw [awaiting] at member
    refine ⟨member, fun s there asked => ?_⟩
    have same : s.id = r.id := by simpa [Said.asked] using asked
    exact alone (inv.correlated.distinct place pr s r there present same ▸ member)
  · rw [strand] at member
    rcases List.mem_append.mp member with old | new
    · exact .inl old
    · cases sends _ new

theorem cancelTask_keeps {c : Client} (inv : InProtocol c) (n : Int) (reason : String) :
    c.Keeps (c.cancelTask env (.int n) reason) := by
  have settles := cancelTask_settles env c (.int n) reason
  have correlated : Correlated (c.cancelTask env (.int n) reason) :=
    runTask_correlated env inv.correlated (.cancel (.int n) reason)
  rcases cancelTask_adds env inv.correlated reason (n := n) with
    same | ⟨pr, r, found, present, id, waits, adds, gone⟩
  · rw [same]
    exact inv.keeps (.refl c) (.refl c) inv.correlated
  · obtain ⟨registered, uncancelled⟩ := inv.live _ pr r found present
    have speaking : c.Speaking (some (.cancels (.int n) reason))
        (c.cancelTask env (.int n) reason) := by
      refine ⟨adds, fun one same => ?_⟩
      cases same
      exact ⟨r, List.mem_of_getElem? present, id, registered, uncancelled⟩
    refine ⟨inv.settle settles speaking rfl correlated fun key place r' keyed there => ?_, _,
      speaking⟩
    obtain ⟨s, before, step⟩ := settles.back there
    obtain ⟨s', after, each⟩ := adds.requests place s before
    obtain rfl : r' = s' := Option.some.inj (there.symm.trans after)
    obtain ⟨live, alive⟩ := inv.live key place s (settles.pendingMap key place keyed) before
    rw [each.registered, Ne, each.cancelled]
    refine ⟨.inl live, fun either => either.elim alive fun cancelled => ?_⟩
    have same : s.id = r.id := by simpa [Said.cancelled, id] using cancelled
    exact gone key (inv.correlated.distinct place pr s r before present same ▸ keyed)

theorem completePending_keeps {c : Client} (inv : InProtocol c) (id : RequestId)
    {outcome : McpOutcome} (terminal : outcome.terminal ≠ .waiting)
    (other : outcome.terminal ≠ .cancelled) : c.Keeps (c.completePending env id outcome) := by
  have settles := completePending_settles env c id outcome terminal
  have correlated := completePending_correlated env inv.correlated id outcome terminal
  rcases completePending_adds env inv.live id other with
    adds | ⟨-, pr, r, found, present, method, adds⟩
  · exact inv.keeps settles adds correlated
  · obtain ⟨registered, uncancelled⟩ := inv.live id pr r found present
    have speaking : c.Speaking (some (.greets r.id)) (c.completePending env id outcome) := by
      refine ⟨adds, fun one same => ?_⟩
      cases same
      exact ⟨r, List.mem_of_getElem? present, rfl, method, registered, uncancelled⟩
    exact ⟨inv.settle settles speaking rfl correlated
      (inv.live.fewer adds rfl settles.pendingMap), _, speaking⟩

theorem handleNotification_adds {c c' : Client} {notif : JsonRpcNotification}
    (h : c.handleNotification env notif = .ok c') : c.Adds [] c' := by
  unfold Client.handleNotification at h
  split at h
  · rw [handleProgress_eq] at h
    obtain ⟨read, -, same⟩ := map_eq_ok.mp h
    rcases read with - | ⟨token, progress, total⟩
    · exact (show c = c' from same) ▸ .refl c
    · rw [← show c.tell env token progress total = c' from same]
      unfold Client.tell
      split
      · exact .refl c
      · exact dispatch_adds env c _
  · cases h
    unfold Client.handlePush
    split
    · exact .refl c
    · exact invoke_adds env c _ _
    · exact .of_eq rfl rfl rfl rfl

theorem onTransportMessage_keeps {c c' : Client} (inv : InProtocol c) {m : Json}
    (h : c.onTransportMessage env m = .ok c') : c.Keeps c' := by
  unfold Client.onTransportMessage at h
  split at h
  · rename_i req _
    cases h
    have aside := handleInboundRequest_aside env c req
    obtain ⟨said, adds, kind⟩ := handleInboundRequest_adds env c req
    rcases kind with rfl | ⟨response, rfl, answer⟩
    · exact inv.keeps aside.settles adds (inv.correlated.aside aside)
    · have speaking : c.Speaking (some (.answers response)) (c.handleInboundRequest env req) := by
        refine ⟨adds, fun one same => ?_⟩
        cases same
        exact answer
      exact ⟨inv.settle aside.settles speaking rfl (inv.correlated.aside aside)
        (inv.live.fewer adds rfl aside.settles.pendingMap), _, speaking⟩
  · have aside := handleNotification_aside env h
    exact inv.keeps aside.settles (handleNotification_adds env h) (inv.correlated.aside aside)
  · cases h
    exact completePending_keeps env inv _ (by simp) (by simp)
  · cases h
    exact completePending_keeps env inv _ (by simp) (by simp)

theorem drain_keeps {c : Client} (inv : InProtocol c) (reason : String) :
    c.Keeps (c.drain env reason) :=
  inv.keeps (drain_settles env c reason) (drain_adds env c reason)
    (drain_correlated env inv.correlated reason)

theorem onTransportDisconnect_keeps {c : Client} (inv : InProtocol c) :
    c.Keeps (c.onTransportDisconnect env) :=
  inv.keeps (onTransportDisconnect_settles env c) (onTransportDisconnect_adds env c)
    (onTransportDisconnect_correlated env inv.correlated)

/-- The step begins with something that touches neither the requests nor the wire. -/
theorem Client.Keeps.after {c before c' : Client} (keeps : before.Keeps c')
    (requests : before.requests = c.requests) (sent : before.sent = c.sent)
    (transport : before.transport = c.transport)
    (strand : ∀ m, .send m ∈ before.strand → .send m ∈ c.strand) : c.Keeps c' := by
  obtain ⟨inv, said, adds, allowed⟩ := keeps
  have begins : c.Adds [] before :=
    ⟨by simp [sent], transport, fun pr r present => ⟨r, requests ▸ present, .quiet rfl rfl rfl .rfl⟩,
      by rw [requests], fun m member => .inl (strand m member)⟩
  refine ⟨inv, said, begins.quietly adds, fun one same => ?_⟩
  have here := allowed one same
  cases one <;> simpa only [Client.Allows, requests] using here

theorem runTask_keeps {c : Client} (inv : InProtocol c) {task : Task} {rest : List Task}
    (head : c.strand = task :: rest) :
    Client.Keeps { c with strand := rest } ({ c with strand := rest }.runTask env task) := by
  have popped := inv.pop head
  have inside : task ∈ c.strand := head ▸ List.mem_cons_self
  cases task with
  | register pr params =>
    have waits : pr ∈ c.awaiting := by simp [Client.awaiting, head, Task.awaited]
    obtain ⟨r, present, unsent⟩ := inv.unsent pr waits
    refine registerTask_keeps popped params present unsent fun member => ?_
    have taken : c.awaiting = (c.submissions.entries.filterMap fun entry => entry.2.awaited) ++
        pr :: rest.filterMap Task.awaited := by
      rw [Client.awaiting, head]
      rfl
    have once := List.nodup_middle.mp (taken ▸ inv.once)
    exact once.notMem member
  | message m =>
    simp only [Client.runTask]
    split
    · rename_i c' handled
      exact onTransportMessage_keeps env popped handled
    · split
      · refine Client.Keeps.after (onTransportDisconnect_keeps env ?_) rfl rfl rfl fun _ => id
        exact popped.congr rfl rfl rfl rfl rfl
      · exact popped.keeps (.refl _) (.refl _) popped.correlated
  | transportDisconnect => exact onTransportDisconnect_keeps env popped
  | cancel id reason =>
    obtain ⟨n, rfl⟩ := inv.cancels id reason inside
    exact cancelTask_keeps env popped n reason
  | timer pr =>
    exact popped.keeps (onTimer_settles env _ pr) (onTimer_adds env popped.live pr)
      (runTask_correlated env popped.correlated (.timer pr))
  | drain reason => exact drain_keeps env popped reason
  | send m =>
    have aside := rawSend_aside { c with strand := rest } m
    have adds := @rawSend_adds { c with strand := rest } (.answers m) rfl rfl
    have speaking : Client.Speaking { c with strand := rest } (some (.answers m))
        ({ c with strand := rest }.runTask env (.send m)) := by
      refine ⟨adds, fun one same => ?_⟩
      cases same
      exact inv.sends m inside
    exact ⟨popped.settle aside.settles speaking rfl (popped.correlated.aside aside)
      (popped.live.fewer adds rfl aside.settles.pendingMap), _, speaking⟩

theorem awaited_erase {c : Client} {thread : Nat} {submission : Submission}
    (found : c.submissions.lookup thread = some submission) :
    (c.submissions.entries.filterMap fun entry => entry.2.awaited).Perm
      (submission.awaited.toList ++
        (c.submissions.erase thread).entries.filterMap fun entry => entry.2.awaited) := by
  have taken := (entries_perm_erase found).filterMap fun entry => entry.2.awaited
  cases held : submission.awaited with
  | none => simpa [List.filterMap_cons, held] using taken
  | some pr => simpa [List.filterMap_cons, held] using taken

/-- A submission that is no longer held, or whose registration is queued. -/
theorem InProtocol.release {c c' : Client} {thread : Nat} {submission : Submission}
    {tasks : List Task} (inv : InProtocol c) (correlated : Correlated c')
    (found : c.submissions.lookup thread = some submission)
    (requests : c'.requests = c.requests) (pendingMap : c'.pendingMap = c.pendingMap)
    (sent : c'.sent = c.sent) (transport : c'.transport = c.transport)
    (submissions : c'.submissions = c.submissions.erase thread)
    (strand : c'.strand = c.strand ++ tasks)
    (queued : tasks.filterMap Task.awaited = submission.awaited.toList)
    (others : ∀ task ∈ tasks, task.awaited ≠ none) : c.Keeps c' := by
  have awaiting : c'.awaiting.Perm c.awaiting := by
    unfold Client.awaiting
    rw [submissions, strand, List.filterMap_append, queued]
    refine .trans ?_ ((awaited_erase found).symm.append_right _)
    rw [← List.append_assoc]
    exact List.perm_append_comm.trans (.of_eq (List.append_assoc ..).symm)
  have unqueued {task : Task} (member : task ∈ c'.strand) (other : task.awaited = none) :
      task ∈ c.strand := by
    rw [strand] at member
    exact (List.mem_append.mp member).elim (fun old => old) fun new => absurd other (others _ new)
  have adds : c.Adds [] c' := ⟨by simp [sent], transport,
    fun pr r present => ⟨r, requests ▸ present, .quiet rfl rfl rfl .rfl⟩, by rw [requests],
    fun m member => .inl (unqueued member rfl)⟩
  refine ⟨inv.next adds.speaking correlated ?_ (awaiting.nodup_iff.mpr inv.once)
    (fun pr member => ⟨awaiting.mem_iff.mp member, fun _ _ => nofun⟩)
    fun id reason member => .inl (unqueued member rfl), none, adds.speaking⟩
  exact inv.live.fewer adds rfl fun key pr found => pendingMap ▸ found

/-- A new request is held by its thread. -/
theorem submitted_inProtocol {c : Client} {thread : Nat} {args : SubmitArgs}
    {params : Option Json} (inv : InProtocol c)
    (tested : c.submissions.lookup thread = some (.tested args))
    (correlated : Correlated (c.submitted env thread args params)) :
    InProtocol (c.submitted env thread args params) := by
  have older {pr : Nat} {r : PendingRequest}
      (present : (c.submitted env thread args params).requests[pr]? = some r) :
      c.requests[pr]? = some r ∨ (pr = c.requests.length ∧ r = args.request env c.nextId) :=
    getElem?_concat present
  have placed {pr : Nat} (member : pr ∈ c.awaiting) : pr < c.requests.length := by
    obtain ⟨r, present, -⟩ := inv.unsent pr member
    exact (List.getElem?_eq_some_iff.mp present).1
  have awaiting : (c.submitted env thread args params).awaiting.Perm
      (c.requests.length :: c.awaiting) := by
    have kept := (awaited_erase tested).symm
    unfold Client.awaiting Client.submitted
    simp only [AList.entries_insert]
    exact (kept.append_right _).cons _
  refine ⟨correlated, fun key pr r found present => ?_, fun pr r present cancelled => ?_, ?_,
    fun pr member => ?_, inv.cancels, inv.sends⟩
  · obtain ⟨s, there, -⟩ := inv.correlated.entries key pr found
    rcases older present with old | ⟨rfl, -⟩
    · exact inv.live key pr r found old
    · exact absurd (List.getElem?_eq_some_iff.mp there).1 (lt_irrefl _)
  · rcases older present with old | ⟨-, rfl⟩
    · exact inv.begun pr r old cancelled
    · cases cancelled
  · exact awaiting.nodup_iff.mpr
      (List.nodup_cons.mpr ⟨fun member => lt_irrefl _ (placed member), inv.once⟩)
  · rcases List.mem_cons.mp (awaiting.mem_iff.mp member) with rfl | old
    · exact ⟨args.request env c.nextId, by simp [Client.submitted], rfl⟩
    · obtain ⟨r, present, unsent⟩ := inv.unsent pr old
      refine ⟨r, ?_, unsent⟩
      simp only [Client.submitted]
      rw [List.getElem?_append_left (placed old), present]

/-- A step says what is allowed, builds a request, or takes the transport away. -/
inductive Client.Turns (c c' : Client) : Prop where
  | speaks (said : Option Said) (speaking : c.Speaking said c')
  | builds (r : PendingRequest) (sent : c'.sent = c.sent) (transport : c'.transport = c.transport)
      (requests : c'.requests = c.requests ++ [r]) (unsent : r.registered = false)
      (waits : r.state = .waiting)
  | leaves (sent : c'.sent = c.sent) (transport : c'.transport = false)
      (requests : c'.requests = c.requests)

theorem Client.Keeps.turns {c c' : Client} (keeps : c.Keeps c') : InProtocol c' ∧ c.Turns c' :=
  ⟨keeps.1, .speaks _ keeps.2.choose_spec⟩

/-- What is posted says nothing yet. -/
theorem InProtocol.posts {c c' : Client} (inv : InProtocol c) (task : Task)
    (requests : c'.requests = c.requests) (pendingMap : c'.pendingMap = c.pendingMap)
    (nextId : c'.nextId = c.nextId) (submissions : c'.submissions = c.submissions)
    (strand : c'.strand = c.strand ++ [task]) (sent : c'.sent = c.sent)
    (transport : c'.transport = c.transport) (other : task.awaited = none)
    (cancels : ∀ id reason, task = .cancel id reason → ∃ n, id = .int n)
    (sends : ∀ m, task = .send m → isResponse m = true) : c.Keeps c' := by
  have adds : c.Adds [] c' := by
    refine ⟨by simp [sent], transport, fun pr r present =>
      ⟨r, requests ▸ present, .quiet rfl rfl rfl .rfl⟩, by rw [requests], fun m member => ?_⟩
    rw [strand] at member
    rcases List.mem_append.mp member with old | new
    · exact .inl old
    · exact .inr (sends m (List.mem_singleton.mp new).symm)
  exact ⟨inv.post requests pendingMap nextId submissions strand other cancels sends, none,
    adds.speaking⟩

theorem step_keepsProtocol {c c' : Client} {event : ClientEvent} (inv : InProtocol c)
    (apart : event.keepsTokensApart = true) (h : c.step env event = some c') :
    InProtocol c' ∧ c.Turns c' := by
  have correlated := step_correlated env inv.correlated apart h
  have same {c' : Client} (requests : c'.requests = c.requests)
      (pendingMap : c'.pendingMap = c.pendingMap) (nextId : c'.nextId = c.nextId)
      (submissions : c'.submissions = c.submissions) (strand : c'.strand = c.strand)
      (sent : c'.sent = c.sent) (transport : c'.transport = c.transport) :
      InProtocol c' ∧ c.Turns c' :=
    ⟨inv.congr requests pendingMap nextId submissions strand,
      .speaks none (Client.Adds.of_eq sent transport requests strand).speaking⟩
  cases step_cases h with
  | connect | rollback | stopBegins => exact same rfl rfl rfl rfl rfl rfl rfl
  | stopEnds => exact ⟨inv.congr rfl rfl rfl rfl rfl, .leaves rfl rfl rfl⟩
  | tests thread args free =>
    unfold Client.submitTest at correlated ⊢
    split
    · exact same rfl rfl rfl rfl rfl rfl rfl
    · rename_i admitted
      rw [if_neg admitted] at correlated
      have awaiting : Client.awaiting
          { c with submissions := c.submissions.insert thread (.tested args) } = c.awaiting := by
        have missing : thread ∉ c.submissions := fun member => by
          simp [← AList.lookup_isSome, free] at member
        simp only [Client.awaiting]
        rw [AList.entries_insert_of_notMem missing, List.filterMap_cons_none rfl]
      have adds : c.Adds [] { c with submissions := c.submissions.insert thread (.tested args) } :=
        .of_eq rfl rfl rfl rfl
      exact ⟨inv.next adds.speaking correlated inv.live (awaiting ▸ inv.once)
        (fun pr member => ⟨awaiting ▸ member, fun _ _ => nofun⟩) fun _ _ => .inl,
        .speaks none adds.speaking⟩
  | builds thread args tested =>
    unfold Client.submitBuild at correlated ⊢
    split
    · rename_i e failed
      rw [failed] at correlated
      exact (inv.release correlated tested rfl rfl rfl rfl rfl (List.append_nil _).symm rfl
        nofun).turns
    · rename_i params built
      rw [built] at correlated
      exact ⟨submitted_inProtocol env inv tested correlated, .builds _ rfl rfl rfl rfl rfl⟩
  | posts thread pr params held =>
    exact (inv.release correlated held rfl rfl rfl rfl rfl rfl rfl (by simp [Task.awaited])).turns
  | cancel pr reason r present =>
    obtain ⟨n, id, -⟩ := inv.correlated.ids pr r present
    refine Client.Keeps.turns (inv.posts (.cancel r.id reason) rfl rfl rfl rfl rfl rfl rfl rfl
      (fun _ _ same => ?_) nofun)
    cases same
    exact ⟨n, id⟩
  | runJob place job found =>
    refine Client.Keeps.turns (inv.posts (.send (job.response env)) rfl rfl rfl rfl rfl rfl rfl rfl
      nofun fun m same => ?_)
    cases same
    exact response_isResponse env job
  | arrives message =>
    exact Client.Keeps.turns
      (inv.posts (.message message) rfl rfl rfl rfl rfl rfl rfl rfl nofun nofun)
  | peerCloses =>
    exact Client.Keeps.turns (inv.posts .transportDisconnect rfl rfl rfl rfl rfl rfl rfl rfl nofun nofun)
  | disconnect | stopDrains =>
    exact Client.Keeps.turns (inv.posts (.drain _) rfl rfl rfl rfl rfl rfl rfl rfl nofun nofun)
  | timerExpires pr r present armed =>
    have unarmed := update_settles c pr (fun r => { r with timer := false })
      fun r => ⟨rfl, rfl, rfl, fun h => h⟩
    have adds : c.Adds [] (c.update pr fun r => { r with timer := false }) :=
      .update c pr fun r _ => .quiet rfl rfl rfl .rfl
    have quiet := inv.hush unarmed adds
      (inv.correlated.settle unarmed (unarmed.keyed rfl inv.correlated.keyed))
    let c' := (c.update pr fun r => { r with timer := false }).post (.timer pr)
    have posted : InProtocol c' := quiet.post rfl rfl rfl rfl rfl rfl nofun nofun
    refine ⟨posted, .speaks none (Client.Adds.speaking ⟨adds.sent, rfl, adds.requests, adds.length,
      fun m member => ?_⟩)⟩
    rcases List.mem_append.mp member with old | new
    · exact .inl old
    · cases List.mem_singleton.mp new
  | runTask task rest head =>
    refine Client.Keeps.turns ((runTask_keeps env inv head).after rfl rfl rfl fun m member => ?_)
    exact head ▸ List.mem_cons_of_mem _ member
  | runCallback job rest queued =>
    have quiet : InProtocol { c with callbackQueue := rest } := inv.congr rfl rfl rfl rfl rfl
    have aside := fire_aside env { c with callbackQueue := rest } job
    obtain ⟨calls, log, eq⟩ := fire_eq env { c with callbackQueue := rest } job
    have adds : Client.Adds [] { c with callbackQueue := rest }
        ({ c with callbackQueue := rest }.fire env job) := eq ▸ .of_eq rfl rfl rfl rfl
    have keeps := quiet.keeps aside.settles adds (quiet.correlated.aside aside)
    exact Client.Keeps.turns (keeps.after rfl rfl rfl fun _ => id)
  | disconnectInline | stopDrainsInline =>
    refine Client.Keeps.turns ((drain_keeps env ?_ _).after rfl rfl rfl fun _ => id)
    exact inv.congr rfl rfl rfl rfl rfl

end CppMcp
