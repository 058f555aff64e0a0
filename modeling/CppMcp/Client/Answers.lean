import Mathlib.Data.List.Perm.Basic
import CppMcp.Client.Escape
import CppMcp.Client.Works

namespace CppMcp

open Lib

/-- The handler of an inbound request returns, and this is its result encoded. -/
inductive Returns (env : ClientEnv) (req : JsonRpcRequest) : Json → Prop where
  | ping (method : req.method = Protocol.methodPing) : Returns env req (.object [])
  | sampling (method : req.method = Protocol.methodSamplingCreate)
      {handler : CreateMessageRequestParams → Except Exn CreateMessageResult}
      (registered : env.sampling = some handler) {params : CreateMessageRequestParams}
      (decoded : CreateMessageRequestParams.fromJson (req.params.getD (.object [])) = .ok params)
      {result : CreateMessageResult} (returned : handler params = .ok result) :
      Returns env req result.toJson
  | elicitation (method : req.method = Protocol.methodElicitationCreate)
      {handler : ElicitRequestParams → Except Exn ElicitResult}
      (registered : env.elicitation = some handler) {params : ElicitRequestParams}
      (decoded : ElicitRequestParams.fromJson (req.params.getD (.object [])) = .ok params)
      {result : ElicitResult} (returned : handler params = .ok result) :
      Returns env req result.toJson
  | roots (method : req.method = Protocol.methodRootsList)
      {handler : Unit → Except Exn ListRootsResult} (registered : env.roots = some handler)
      {result : ListRootsResult} (returned : handler () = .ok result) :
      Returns env req result.toJson

/-- A success response with what the handler returned, or an error response when none did. -/
def AnswersInbound (env : ClientEnv) (req : JsonRpcRequest) (response : Json) : Prop :=
  (∃ result, Returns env req result ∧ response = makeSuccessResponse req.id result) ∨
  (∀ result, ¬ Returns env req result) ∧
    ∃ code message data, response = makeErrorResponse req.id code message data

def inboundRequest (message : Json) : Option JsonRpcRequest :=
  match parseMessageClient message with
  | .request req => some req
  | _ => none

/-- The requests among the messages a run lets arrive. -/
def inboundRequests (events : List ClientEvent) : List JsonRpcRequest :=
  events.flatMap fun
    | .arrives message => (inboundRequest message).toList
    | _ => []

/-- The message is a response to the id. -/
def respondsTo (id : RequestId) (m : Json) : Bool :=
  isResponse m && m.find? "id" == some (requestIdToJson id)

def InboundJob.response (env : ClientEnv) (job : InboundJob) : Json :=
  inboundResponse job.id (inboundResult env job.method job.params)

/-- The one response `handle_inbound_request` leads to, now or later. -/
def inboundAnswer (env : ClientEnv) (req : JsonRpcRequest) : Json :=
  if req.method = Protocol.methodPing then makeSuccessResponse req.id (.object [])
  else if req.method = Protocol.methodSamplingCreate ∨
      req.method = Protocol.methodElicitationCreate ∨ req.method = Protocol.methodRootsList then
    InboundJob.response env ⟨req.id, req.method, req.params.getD (.object [])⟩
  else makeErrorResponse req.id Protocol.methodNotFound ("Method not found: " ++ req.method)

/-- The responses a strand task is still to send. -/
def Task.owes (env : ClientEnv) : Task → List Json
  | .message m => ((inboundRequest m).map (inboundAnswer env)).toList
  | .send m => [m].filter isResponse
  | _ => []

/-- The responses that were sent, and those owed by the strand and by the worker pool. -/
def Client.answers (env : ClientEnv) (c : Client) : List Json :=
  c.sent.filter isResponse ++ c.strand.flatMap (Task.owes env) ++
    c.pool.map (InboundJob.response env)

theorem makeSuccessResponse_responds (id : RequestId) (result : Json) :
    isResponse (makeSuccessResponse id result) = true := by
  simp [isResponse, makeSuccessResponse, Json.contains, find?_mk]

theorem makeErrorResponse_responds (id : RequestId) (code : Int) (message : String)
    (data : Option Json) : isResponse (makeErrorResponse id code message data) = true := by
  simp [isResponse, makeErrorResponse, Json.contains, find?_mk]

theorem inboundResponse_cases (id : RequestId) (ran : Except Exn Json) :
    (∃ result, ran = .ok result ∧ inboundResponse id ran = makeSuccessResponse id result) ∨
    (∃ e, ran = .error e) ∧
      ∃ code message data, inboundResponse id ran = makeErrorResponse id code message data := by
  match ran with
  | .ok result => exact .inl ⟨result, rfl, rfl⟩
  | .error (.mcp _ _ _) => exact .inr ⟨⟨_, rfl⟩, _, _, _, rfl⟩
  | .error (.std _) => exact .inr ⟨⟨_, rfl⟩, _, _, _, rfl⟩
  | .error .other => exact .inr ⟨⟨_, rfl⟩, _, _, _, rfl⟩

theorem response_isResponse (env : ClientEnv) (job : InboundJob) :
    isResponse (job.response env) = true := by
  rcases inboundResponse_cases job.id (inboundResult env job.method job.params) with
    ⟨result, -, eq⟩ | ⟨-, code, message, data, eq⟩
  · rw [InboundJob.response, eq]
    exact makeSuccessResponse_responds job.id result
  · rw [InboundJob.response, eq]
    exact makeErrorResponse_responds job.id code message data

/-- What a handler method runs to is what its handler returns. -/
theorem returns_iff (env : ClientEnv) {req : JsonRpcRequest}
    (method : req.method = Protocol.methodSamplingCreate ∨
      req.method = Protocol.methodElicitationCreate ∨ req.method = Protocol.methodRootsList)
    (result : Json) : Returns env req result ↔
      inboundResult env req.method (req.params.getD (.object [])) = .ok result := by
  have apart : req.method ≠ Protocol.methodPing ∧
      Protocol.methodElicitationCreate ≠ Protocol.methodSamplingCreate ∧
      Protocol.methodRootsList ≠ Protocol.methodSamplingCreate ∧
      Protocol.methodRootsList ≠ Protocol.methodElicitationCreate := by
    refine ⟨?_, by decide, by decide, by decide⟩
    rcases method with eq | eq | eq <;> rw [eq] <;> decide
  obtain ⟨pinged, elicits, lists, lists'⟩ := apart
  constructor
  · rintro (ping | ⟨eq, registered, decoded, returned⟩ | ⟨eq, registered, decoded, returned⟩ |
      ⟨eq, registered, returned⟩)
    · exact absurd ping pinged
    · simp only [inboundResult, eq, registered, if_true]
      exact bind_eq_ok.mpr ⟨_, decoded, bind_eq_ok.mpr ⟨_, returned, rfl⟩⟩
    · simp only [inboundResult, eq, elicits, registered, if_true, if_false]
      exact bind_eq_ok.mpr ⟨_, decoded, bind_eq_ok.mpr ⟨_, returned, rfl⟩⟩
    · simp only [inboundResult, eq, lists, lists', registered, if_false]
      exact bind_eq_ok.mpr ⟨_, returned, rfl⟩
  · intro ran
    rcases method with eq | eq | eq
    all_goals
      simp only [inboundResult, eq, elicits, lists, lists', if_true, if_false] at ran
      split at ran
    · cases ran
    · rename_i handler registered
      obtain ⟨params, decoded, called⟩ := bind_eq_ok.mp ran
      obtain ⟨r, returned, same⟩ := bind_eq_ok.mp called
      cases same
      exact .sampling eq registered decoded returned
    · cases ran
    · rename_i handler registered
      obtain ⟨params, decoded, called⟩ := bind_eq_ok.mp ran
      obtain ⟨r, returned, same⟩ := bind_eq_ok.mp called
      cases same
      exact .elicitation eq registered decoded returned
    · cases ran
    · rename_i handler registered
      obtain ⟨r, returned, same⟩ := bind_eq_ok.mp ran
      cases same
      exact .roots eq registered returned

theorem inboundAnswer_answers (env : ClientEnv) (req : JsonRpcRequest) :
    AnswersInbound env req (inboundAnswer env req) := by
  unfold inboundAnswer
  split
  · rename_i ping
    exact .inl ⟨_, .ping ping, rfl⟩
  · rename_i pinged
    split
    · rename_i method
      rcases inboundResponse_cases req.id
          (inboundResult env req.method (req.params.getD (.object []))) with
        ⟨result, ran, eq⟩ | ⟨⟨e, ran⟩, detail⟩
      · exact .inl ⟨result, (returns_iff env method result).mpr ran, eq⟩
      · refine .inr ⟨fun result returned => ?_, detail⟩
        rw [returns_iff env method, ran] at returned
        cases returned
    · rename_i other
      refine .inr ⟨?_, _, _, _, rfl⟩
      rintro _ (ping | eq | eq | eq)
      · exact pinged ping
      · exact other (.inl eq)
      · exact other (.inr (.inl eq))
      · exact other (.inr (.inr eq))

/-- A response carries the id of its request. -/
theorem inboundAnswer_id (env : ClientEnv) (req : JsonRpcRequest) :
    (inboundAnswer env req).find? "id" = some (requestIdToJson req.id) := by
  rcases inboundAnswer_answers env req with ⟨result, -, eq⟩ | ⟨-, code, message, data, eq⟩
  · rw [eq]
    simp [makeSuccessResponse, find?_mk]
  · rw [eq]
    simp [makeErrorResponse, find?_mk]

variable {env : ClientEnv}

theorem answers_congr {c c' : Client} (sent : c'.sent.filter isResponse = c.sent.filter isResponse)
    (strand : c'.strand = c.strand) (pool : c'.pool = c.pool) : c'.answers env = c.answers env := by
  simp only [Client.answers, sent, strand, pool]

theorem Client.Works.answers {c c' : Client} (works : c.Works env c') :
    c'.answers env = c.answers env :=
  answers_congr works.responses works.strand works.pool

variable (env)

theorem rawSend_answers {c : Client} (transport : c.transport = true) (m : Json) :
    ((c.rawSend m).answers env).Perm (c.answers env ++ [m].filter isResponse) := by
  refine List.perm_iff_count.mpr fun response => ?_
  simp only [Client.rawSend, transport, if_true, Client.answers, List.filter_append,
    List.count_append]
  omega

theorem post_answers (c : Client) (task : Task) :
    ((c.post task).answers env).Perm (c.answers env ++ task.owes env) := by
  refine List.perm_iff_count.mpr fun response => ?_
  simp only [Client.post, Client.answers, List.flatMap_append, List.flatMap_cons, List.flatMap_nil,
    List.append_nil, List.count_append]
  omega

theorem fire_answers (c : Client) (job : CallbackJob) :
    (c.fire env job).answers env = c.answers env := by
  obtain ⟨calls, log, eq⟩ := fire_eq env c job
  rw [eq]
  rfl

theorem dispatch_answers (c : Client) (job : CallbackJob) :
    (c.dispatch env job).answers env = c.answers env := by
  obtain ⟨calls, callbackQueue, log, eq⟩ := dispatch_eq env c job
  rw [eq]
  rfl

/-- A response to an inbound request is sent at once, posted, or left to the worker pool. -/
theorem handleInboundRequest_answers {c : Client} (transport : c.transport = true)
    (req : JsonRpcRequest) : ((c.handleInboundRequest env req).answers env).Perm
      (c.answers env ++ [inboundAnswer env req]) := by
  have alone {m : Json} (response : isResponse m = true) : [m].filter isResponse = [m] := by
    simp [response]
  unfold Client.handleInboundRequest inboundAnswer
  split
  · have said := rawSend_answers env transport (makeSuccessResponse req.id (.object []))
    rw [alone (makeSuccessResponse_responds _ _)] at said
    exact said
  · split
    · unfold Client.dispatchInboundRequest
      simp only
      split
      · refine List.perm_iff_count.mpr fun response => ?_
        simp only [Client.answers, List.map_append, List.map_cons, List.map_nil, List.count_append]
        omega
      · have posted := post_answers env c
          (.send (InboundJob.response env ⟨req.id, req.method, req.params.getD (.object [])⟩))
        rw [Task.owes, alone (response_isResponse env _)] at posted
        exact posted
    · have said := rawSend_answers env transport (makeErrorResponse req.id Protocol.methodNotFound
        ("Method not found: " ++ req.method))
      rw [alone (makeErrorResponse_responds _ _ _ _)] at said
      exact said

theorem inboundRequest_none {m : Json} (other : ∀ req, parseMessageClient m ≠ .request req) :
    inboundRequest m = none := by
  unfold inboundRequest
  cases parsed : parseMessageClient m with
  | request req => exact absurd parsed (other req)
  | _ => rfl

theorem runTask_answers {c : Client} (transport : c.transport = true) (task : Task) :
    ((c.runTask env task).answers env).Perm (c.answers env ++ task.owes env) := by
  have ran := runTask_ran env c task
  generalize c.runTask env task = c' at ran ⊢
  cases ran with
  | sends m => exact rawSend_answers env transport m
  | @serves m req parsed =>
    simp only [Task.owes, inboundRequest, parsed]
    exact handleInboundRequest_answers env transport req
  | @reports m pr progress total reported =>
    have other (req : JsonRpcRequest) : parseMessageClient m ≠ .request req := by
      intro parsed
      simp [Client.report, parsed] at reported
    simp [Task.owes, inboundRequest_none other, dispatch_answers]
  | @accepts m resp ir c' parsed accepted works =>
    have none : inboundRequest m = none := by simp [inboundRequest, parsed]
    rw [works.answers, Task.owes, none, Option.map_none, Option.toList_none, List.append_nil]
    rfl
  | works response quiet works =>
    have none : task.owes env = [] := by
      cases task with
      | send m => exact absurd rfl (response m)
      | message m => simp [Task.owes, inboundRequest_none (quiet m rfl).1]
      | _ => rfl
    rw [works.answers, none, List.append_nil]

/-- A response leaves the worker pool for the strand. -/
theorem runJob_answers {c : Client} {place : Nat} {job : InboundJob}
    (found : c.pool[place]? = some job) :
    (({ c with pool := c.pool.eraseIdx place }.runAndRespond env job).answers env).Perm
      (c.answers env) := by
  obtain ⟨bound, rfl⟩ := List.getElem?_eq_some_iff.mp found
  have pool : (c.pool.map (InboundJob.response env)).Perm
      (c.pool[place].response env :: (c.pool.eraseIdx place).map (InboundJob.response env)) :=
    (List.getElem_cons_eraseIdx_perm bound).symm.map _
  have posted := post_answers env { c with pool := c.pool.eraseIdx place }
    (.send (c.pool[place].response env))
  refine posted.trans (List.perm_iff_count.mpr fun response => ?_)
  have counted := pool.count_eq response
  simp only [Client.answers, Task.owes, List.count_append, List.count_cons, counted,
    List.filter_cons, response_isResponse, if_true, List.filter_nil, List.count_nil]
  omega

/-- A step adds to the responses sent and owed those to the requests it lets arrive. -/
theorem step_answers {c c' : Client} {event : ClientEvent} (transport : c.transport = true)
    (h : c.step env event = some c') : (c'.answers env).Perm
      (c.answers env ++ (inboundRequests [event]).map (inboundAnswer env)) := by
  have nothing {c' : Client} (same : c'.answers env = c.answers env) :
      (c'.answers env).Perm (c.answers env ++ []) := by
    rw [same, List.append_nil]
  have posted {before : Client} {task : Task} (same : before.answers env = c.answers env)
      (none : task.owes env = []) : ((before.post task).answers env).Perm (c.answers env ++ []) := by
    have grown := post_answers env before task
    rw [none, same] at grown
    exact grown
  cases step_cases h with
  | arrives m =>
    have grown := post_answers env c (.message m)
    cases asked : inboundRequest m <;> simpa [inboundRequests, Task.owes, asked] using grown
  | runTask task rest head alive =>
    have ran := runTask_answers (c := { c with strand := rest }) env transport task
    refine ran.trans (List.perm_iff_count.mpr fun response => ?_)
    simp only [Client.answers, head, inboundRequests, List.flatMap_cons, List.flatMap_nil,
      List.map_append, List.map_nil, List.count_append, List.count_nil]
    omega
  | runJob place job found =>
    have ran := runJob_answers env found
    simpa [inboundRequests] using ran
  | tests thread args =>
    refine nothing ?_
    unfold Client.submitTest
    split <;> rfl
  | builds thread args =>
    refine nothing ?_
    unfold Client.submitBuild
    split <;> rfl
  | runCallback job rest queued => exact nothing (fire_answers env _ job)
  | disconnectInline | stopDrainsInline => exact nothing (drain_works env _ _).answers
  | posts | cancel | peerCloses | timerExpires | disconnect | stopDrains => exact posted rfl rfl
  | connect | rollback | stopBegins | stopEnds => exact nothing rfl

/-- `stop` was not called, so that the transport is there. -/
structure Client.Open (c : Client) : Prop where
  working : c.stopping = false
  undrained : c.stopDrained = false
  transport : c.transport = true

/-- Whether `stop` was called, how far it came, and whether the transport is there. -/
def Client.stage (c : Client) : Bool × Bool × Bool := (c.stopping, c.stopDrained, c.transport)

theorem Client.open_iff (c : Client) : c.Open ↔ c.stage = (false, false, true) := by
  simp only [Client.stage, Prod.mk.injEq]
  exact ⟨fun ⟨working, undrained, transport⟩ => ⟨working, undrained, transport⟩,
    fun ⟨working, undrained, transport⟩ => ⟨working, undrained, transport⟩⟩

theorem fire_stage (c : Client) (job : CallbackJob) : (c.fire env job).stage = c.stage := by
  obtain ⟨calls, log, eq⟩ := fire_eq env c job
  rw [eq]
  rfl

theorem rawSend_stage (c : Client) (m : Json) : (c.rawSend m).stage = c.stage := by
  unfold Client.rawSend
  split <;> rfl

theorem Client.Works.stage {c c' : Client} (works : c.Works env c') : c'.stage = c.stage := by
  obtain ⟨-, -, transport, stopping, stopDrained, -, -⟩ := works.fields
  simp only [Client.stage, stopping, stopDrained, transport]

theorem runTask_stage (c : Client) (task : Task) : (c.runTask env task).stage = c.stage := by
  have ran := runTask_ran env c task
  generalize c.runTask env task = c' at ran ⊢
  cases ran with
  | sends m => exact rawSend_stage c m
  | serves =>
    unfold Client.handleInboundRequest Client.dispatchInboundRequest
    repeat' split
    all_goals first
      | exact rawSend_stage c _
      | rfl
  | @reports m pr p total reported =>
    obtain ⟨calls, callbackQueue, log, eq⟩ := dispatch_eq env c (.progress pr p total)
    rw [eq]
    rfl
  | accepts _ _ works | works _ _ works => exact works.stage

/-- A client that is not stopped afterwards was not stopped before. -/
theorem step_open {c c' : Client} {event : ClientEvent} (h : c.step env event = some c')
    (working : c'.stopping = false) : c.stopping = false ∧ (c.Open → c'.Open) := by
  have same {c' : Client} (working : c'.stopping = false) (stage : c'.stage = c.stage) :
      c.stopping = false ∧ (c.Open → c'.Open) := by
    refine ⟨(congrArg Prod.fst stage).symm.trans working, fun open_ => ?_⟩
    rw [Client.open_iff] at open_ ⊢
    exact stage.trans open_
  cases step_cases h with
  | tests thread args =>
    refine same working ?_
    unfold Client.submitTest
    split <;> rfl
  | builds thread args =>
    refine same working ?_
    unfold Client.submitBuild
    split <;> rfl
  | runTask task rest => exact same working (runTask_stage env _ task)
  | runCallback job rest => exact same working (fire_stage env _ job)
  | disconnectInline => exact same working (drain_works env _ _).stage
  | stopBegins => cases working
  | stopDrains stopping => exact absurd (stopping.symm.trans working) (by decide)
  | stopDrainsInline stopping =>
    have still : c.stopping = false :=
      (drain_works env { c with ended := true, stopDrained := true } _).fields.2.2.2.1.symm.trans
        working
    exact absurd (stopping.symm.trans still) (by decide)
  | stopEnds drained =>
    refine ⟨working, fun open_ => ?_⟩
    exact absurd (drained.symm.trans open_.undrained) (by decide)
  | _ => exact same working rfl

/-- In a run that does not stop the client, the responses sent and owed grow by those to the
    requests that arrive. -/
theorem run_accounted {events : List ClientEvent} {c c' : Client} (start : c.Open)
    (h : run (Client.step env) c events = some c') (working : c'.stopping = false) :
    (c'.answers env).Perm (c.answers env ++ (inboundRequests events).map (inboundAnswer env)) := by
  induction events generalizing c with
  | nil =>
    cases h
    simp [inboundRequests]
  | cons event rest ih =>
    obtain ⟨next, stepped, later⟩ := run_cons_eq h
    have still : next.stopping = false := by
      have kept (c : Client) (e : ClientEvent) (c' : Client) (stopping : c.stopping = true)
          (stepped : c.step env e = some c') : c'.stopping = true := by
        by_contra off
        have before := (step_open env stepped (Bool.not_eq_true _ ▸ off)).1
        exact absurd (stopping.symm.trans before) (by decide)
      by_contra stopped
      have stays := run_keeps kept (by simpa using stopped) later
      exact absurd (stays.symm.trans working) (by decide)
    have moved := step_answers env start.transport stepped
    have grown := ih ((step_open env stepped still).2 start) later
    refine grown.trans ((moved.append_right _).trans (List.Perm.of_eq ?_))
    simp [inboundRequests]

/-- How many tasks a task, with what it posts, keeps the strand and the pool busy for at most. -/
def Task.weight : Task → Nat
  | .message _ => 3
  | _ => 1

def Client.weight (c : Client) : Nat := (c.strand.map Task.weight).sum + 2 * c.pool.length

theorem Task.weight_pos (task : Task) : 0 < task.weight := by
  cases task <;> simp [Task.weight]

theorem weight_congr {c c' : Client} (strand : c'.strand = c.strand) (pool : c'.pool = c.pool) :
    c'.weight = c.weight := by
  simp only [Client.weight, strand, pool]

theorem rawSend_weight (c : Client) (m : Json) : (c.rawSend m).weight = c.weight := by
  unfold Client.rawSend
  split <;> rfl

theorem post_weight (c : Client) (task : Task) : (c.post task).weight = c.weight + task.weight := by
  simp only [Client.post, Client.weight, List.map_append, List.map_cons, List.map_nil,
    List.sum_append, List.sum_cons, List.sum_nil]
  omega

theorem handleInboundRequest_weight (c : Client) (req : JsonRpcRequest) :
    (c.handleInboundRequest env req).weight ≤ c.weight + 2 := by
  unfold Client.handleInboundRequest
  split
  · rw [rawSend_weight]
    exact Nat.le_add_right _ _
  · split
    · unfold Client.dispatchInboundRequest
      dsimp only
      split
      · simp only [Client.weight, List.length_append, List.length_singleton]
        omega
      · rw [Client.runAndRespond, post_weight]
        exact Nat.add_le_add_left (Nat.le_succ 1) _
    · rw [rawSend_weight]
      exact Nat.le_add_right _ _

theorem dispatch_weight (c : Client) (job : CallbackJob) :
    (c.dispatch env job).weight = c.weight := by
  obtain ⟨calls, callbackQueue, log, eq⟩ := dispatch_eq env c job
  rw [eq]
  rfl

theorem runTask_weight (c : Client) (task : Task) :
    (c.runTask env task).weight < c.weight + task.weight := by
  have ran := runTask_ran env c task
  generalize c.runTask env task = c' at ran ⊢
  have idle {c' : Client} (same : c'.weight = c.weight) : c'.weight < c.weight + task.weight := by
    rw [same]
    exact Nat.lt_add_of_pos_right (Task.weight_pos task)
  cases ran with
  | sends m => exact idle (rawSend_weight c m)
  | serves => exact Nat.lt_of_le_of_lt (handleInboundRequest_weight env c _) (by simp [Task.weight])
  | reports => exact idle (dispatch_weight env c _)
  | accepts _ _ works | works _ _ works => exact idle (weight_congr works.strand works.pool)

/-- What a client whose loop runs has posted can be run to its end. -/
theorem tasks_run_out {c : Client} (safe : LoopSafe c) : ∃ events c',
    run (Client.step env) c events = some c' ∧ inboundRequests events = [] ∧
    c'.stopping = c.stopping ∧ c'.strand = [] ∧ c'.pool = [] := by
  induction weighs : c.weight using Nat.strong_induction_on generalizing c with
  | _ weight ih =>
    have go {e : ClientEvent} {next : Client} (stepped : c.step env e = some next)
        (lighter : next.weight < c.weight) (quiet : inboundRequests [e] = [])
        (typed : e.arrivesTyped = true) (still : next.stopping = c.stopping) :
        ∃ events c', run (Client.step env) c events = some c' ∧ inboundRequests events = [] ∧
          c'.stopping = c.stopping ∧ c'.strand = [] ∧ c'.pool = [] := by
      obtain ⟨events, c', h, none, stopping, strand, pool⟩ :=
        ih next.weight (weighs ▸ lighter) (step_loopSafe env safe typed stepped) rfl
      have both : inboundRequests (e :: events) =
          inboundRequests [e] ++ inboundRequests events := by
        rw [← List.singleton_append]
        exact List.flatMap_append
      exact ⟨e :: events, c', by simp [run, stepped, h], by rw [both, quiet, none, List.append_nil],
        stopping.trans still, strand, pool⟩
    cases strand : c.strand with
    | cons task rest =>
      have stepped : c.step env .runTask = some ({ c with strand := rest }.runTask env task) := by
        simp [Client.step, strand, safe.alive]
      refine go stepped ?_ rfl rfl (congrArg Prod.fst (runTask_stage env _ task))
      have lighter := runTask_weight env { c with strand := rest } task
      have total : c.weight = Client.weight { c with strand := rest } + task.weight := by
        simp only [Client.weight, strand, List.map_cons, List.sum_cons]
        omega
      exact total ▸ lighter
    | nil =>
      cases pool : c.pool with
      | nil => exact ⟨[], c, rfl, rfl, rfl, strand, pool⟩
      | cons job rest =>
        have stepped : c.step env (.runJob 0) =
            some ({ c with pool := c.pool.eraseIdx 0 }.runAndRespond env job) := by
          simp [Client.step, pool]
        refine go stepped ?_ rfl rfl rfl
        rw [Client.runAndRespond, post_weight]
        simp only [Client.weight, Task.weight, pool, List.eraseIdx_zero, List.tail_cons,
          List.length_cons]
        omega

/-- Every inbound request is answered exactly once. In a run that does not stop the client and
    leaves nothing on the strand or with the worker pool, the responses passed to `raw_send`
    are, up to their order, one for each request that arrived. -/
theorem inbound_requests_answered_once (events : List ClientEvent) (c : Client)
    (h : run (Client.step env) (Client.initial true) events = some c)
    (working : c.stopping = false) (strand : c.strand = []) (pool : c.pool = []) :
    (c.sent.filter isResponse).Perm ((inboundRequests events).map (inboundAnswer env)) ∧
    (∀ req, AnswersInbound env req (inboundAnswer env req)) ∧
    ∀ id, (c.sent.filter (respondsTo id)).Perm (((inboundRequests events).filter
      fun req => requestIdToJson req.id == requestIdToJson id).map (inboundAnswer env)) := by
  have answered :
      (c.sent.filter isResponse).Perm ((inboundRequests events).map (inboundAnswer env)) := by
    have grown := run_accounted env ⟨rfl, rfl, rfl⟩ h working
    simpa [Client.answers, strand, pool, Client.initial] using grown
  refine ⟨answered, inboundAnswer_answers env, fun id => ?_⟩
  have carries (req : JsonRpcRequest) :
      ((inboundAnswer env req).find? "id" == some (requestIdToJson id)) =
        (requestIdToJson req.id == requestIdToJson id) := by
    rw [inboundAnswer_id]
    rfl
  have kept := answered.filter fun m => m.find? "id" == some (requestIdToJson id)
  rw [List.filter_filter, List.filter_map] at kept
  show (c.sent.filter fun m => isResponse m && m.find? "id" == some (requestIdToJson id)).Perm _
  simpa [Bool.and_comm, Function.comp_def, carries] using kept

/-- A handler for `roots/list`, none for the other methods, and a worker pool. -/
def rootsOnly : ClientEnv := { workers := 1, roots := some fun _ => .ok ⟨[]⟩ }

/-- Four requests, two of which go through the worker pool and leave it in the other order. -/
def fourRequests : List ClientEvent :=
  [.arrives (serializeRequest ⟨.int 7, Protocol.methodPing, none⟩),
    .arrives (serializeRequest ⟨.int 8, Protocol.methodRootsList, none⟩),
    .arrives (serializeRequest ⟨.str "s", Protocol.methodSamplingCreate, none⟩),
    .arrives (serializeRequest ⟨.int 9, "x", none⟩),
    .runTask, .runTask, .runTask, .runTask, .runJob 1, .runJob 0, .runTask, .runTask]

theorem four_requests_answered :
    ∃ c, run (Client.step rootsOnly) (Client.initial true) fourRequests = some c ∧
      (c.sent.filter isResponse).Perm ((inboundRequests fourRequests).map (inboundAnswer rootsOnly)) ∧
      (c.sent.filter (respondsTo (.int 8))).length = 1 := by
  have shape : (run (Client.step rootsOnly) (Client.initial true) fourRequests).map
      (fun c => (c.stopping, c.strand, c.pool)) = some (false, [], []) := by decide
  obtain ⟨c, h, seen⟩ := Option.map_eq_some_iff.mp shape
  simp only [Prod.mk.injEq] at seen
  obtain ⟨working, strand, pool⟩ := seen
  obtain ⟨answered, -, each⟩ :=
    inbound_requests_answered_once rootsOnly fourRequests c h working strand pool
  exact ⟨c, h, answered, (each (.int 8)).length_eq.trans (by decide)⟩

end CppMcp
