import CppMcp.Lib.Latest
import CppMcp.Server.Turns

namespace CppMcp

open Lib

variable {υ : Type}

/-- A session subscribes to a URI, or unsubscribes from it. -/
abbrev Subscription := (SessionId × String) × Bool

variable (info : ServerInfo)

/-- The subscription that a request makes when it is processed. -/
def ServerInfo.subscription (s : Server υ) (req : JsonRpcRequest) (sessionId : SessionId) :
    Option Subscription :=
  if s.initialized then
    match getStringParam (req.params.getD (.object [])) "uri" with
    | .error _ => none
    | .ok uri =>
      if req.method = Protocol.methodResourcesSubscribe then
        if info.subscribes then some ((sessionId, uri), true) else none
      else if req.method = Protocol.methodResourcesUnsubscribe then some ((sessionId, uri), false)
      else none
  else none

def ServerInfo.subscribed (s : Server υ) : ServerEvent υ → Option Subscription
  | .arrives message sessionId _ =>
    match parseMessage message with
    | .request req => info.subscription s req sessionId
    | _ => none
  | _ => none

/-- The subscriptions of a run, from the first to the latest. -/
def ServerInfo.subscriptions (info : ServerInfo) : Server υ → List (ServerEvent υ) → List Subscription
  | _, [] => []
  | s, event :: rest => (info.subscribed s event).toList ++
    match s.step info event with
    | some next => info.subscriptions next rest
    | none => []

def Server.withSubscription (s : Server υ) : Subscription → Server υ
  | ((sessionId, uri), true) =>
    let uris := ((s.subscribedResources.lookup sessionId).getD []).insert uri
    { s with subscribedResources := s.subscribedResources.insert sessionId uris }
  | ((sessionId, uri), false) =>
    match s.subscribedResources.lookup sessionId with
    | some uris =>
      { s with subscribedResources := s.subscribedResources.insert sessionId (uris.erase uri) }
    | none => s

inductive ServerInfo.Processed (s : Server υ) (req : JsonRpcRequest) (sessionId : SessionId) :
    Server υ → Prop
  | greets (hello : ClientHello) (user : υ) (listCache : ListCache)
      (greeting : req.method = Protocol.methodInitialize)
      (none : info.subscription s req sessionId = none) :
      Processed s req sessionId { s with
        clientHellos := s.clientHellos.insert sessionId hello
        negotiatedVersion := negotiate (req.params.getD (.object []))
        user, listCache }
  | subscribes {subscription : Subscription}
      (made : info.subscription s req sessionId = some subscription) :
      Processed s req sessionId (s.withSubscription subscription)
  | confined {s' : Server υ} (none : info.subscription s req sessionId = none)
      (confined : s.Confined s') : Processed s req sessionId s'

theorem processRequest_state (req : JsonRpcRequest) (sessionId : SessionId) (s : Server υ) :
    (processRequest info req sessionId s).2 = ((dispatchMethod info req sessionId).run.run s).2 := by
  unfold processRequest
  cases (dispatchMethod info req sessionId).run.run s with
  | mk outcome after =>
    cases outcome with
    | ok response => rfl
    | error e => cases e <;> rfl

theorem run_modify_bind {α : Type} (f : Server υ → Server υ) (m : Unit → ServerM υ α)
    (s : Server υ) : (modify f >>= m : ServerM υ α).run.run s = (m ()).run.run (f s) := rfl

/-- What `record_client_hello` stores. -/
def clientHello (params : Json) : ClientHello :=
  match params.find? "capabilities" with
  | some (.object members) =>
    match ClientCapabilities.fromJson (.object members) {} with
    | (.ok _, capabilities) => ⟨capabilities, (params.stringMember "protocolVersion").getD ""⟩
    | (.error _, capabilities) => ⟨capabilities, ""⟩
  | _ => ⟨{}, (params.stringMember "protocolVersion").getD ""⟩

theorem recordClientHello_eq (params : Json) (sessionId : SessionId) :
    (recordClientHello params sessionId : ServerM υ Unit) = modify fun s =>
      { s with clientHellos := s.clientHellos.insert sessionId (clientHello params) } := rfl

theorem handleInitialize_greets (id : RequestId) (params : Json) (sessionId : SessionId)
    (s : Server υ) : ∃ user listCache,
    ((handleInitialize info id params sessionId).run.run s).2 = { s with
      clientHellos := s.clientHellos.insert sessionId (clientHello params)
      negotiatedVersion := negotiate params, user, listCache } := by
  unfold handleInitialize
  rw [run_get_bind, recordClientHello_eq, run_modify_bind, run_modify_bind]
  let greeted : Server υ := { s with
    clientHellos := s.clientHellos.insert sessionId (clientHello params)
    negotiatedVersion := negotiate params }
  show greeted.Confined _
  cases s.handlers.initializeHandler with
  | none => exact confined_admits.refl greeted
  | some handler =>
    have returns : Yields Server.Confined (Written id) _ :=
      admits_bind confined_admits (admits_call confined_admits (handler params)) fun result _ =>
        answers_success confined_admits id { result with
          protocolVersion := if result.protocolVersion = "" then negotiate params
            else result.protocolVersion }.toJson
    exact (returns greeted).1

theorem serveMethod_confined (req : JsonRpcRequest) (p : Json) (sessionId : SessionId)
    (subscribe : req.method ≠ Protocol.methodResourcesSubscribe)
    (unsubscribe : req.method ≠ Protocol.methodResourcesUnsubscribe) :
    Yields Server.Confined (Written req.id) (serveMethod info req p sessionId : ServerM υ Json) := by
  apply serveMethod_yields confined_admits info req p sessionId
  · exact fun same => absurd same subscribe
  · exact fun same => absurd same unsubscribe

theorem subscription_none {req : JsonRpcRequest}
    (subscribe : req.method ≠ Protocol.methodResourcesSubscribe)
    (unsubscribe : req.method ≠ Protocol.methodResourcesUnsubscribe) (sessionId : SessionId)
    (s : Server υ) : info.subscription s req sessionId = none := by
  simp only [ServerInfo.subscription, if_neg subscribe, if_neg unsubscribe]
  split
  · split <;> rfl
  · rfl

theorem subscribe_processed {req : JsonRpcRequest}
    (subscribe : req.method = Protocol.methodResourcesSubscribe) (sessionId : SessionId)
    {s : Server υ} (initialized : s.initialized = true) :
    info.Processed s req sessionId
      ((handleResourcesSubscribe info req.id (req.params.getD (.object [])) sessionId).run.run s).2 := by
  have made : info.subscription s req sessionId =
      match getStringParam (req.params.getD (.object [])) "uri" with
      | .error _ => none
      | .ok uri => if info.subscribes then some ((sessionId, uri), true) else none := by
    simp only [ServerInfo.subscription, if_pos initialized, if_pos subscribe]
  unfold handleResourcesSubscribe
  cases advertised : info.subscribes with
  | false =>
    refine .confined ?_ (confined_admits.refl s)
    rw [made, advertised]
    split <;> rfl
  | true =>
    cases param : getStringParam (req.params.getD (.object [])) "uri" with
    | error message =>
      refine .confined ?_ (confined_admits.refl s)
      rw [made, param]
    | ok uri =>
      have subscribed : info.subscription s req sessionId = some ((sessionId, uri), true) := by
        rw [made, param, advertised]
        rfl
      exact .subscribes subscribed

theorem unsubscribe_processed {req : JsonRpcRequest}
    (unsubscribe : req.method = Protocol.methodResourcesUnsubscribe) (sessionId : SessionId)
    {s : Server υ} (initialized : s.initialized = true) :
    info.Processed s req sessionId
      ((handleResourcesUnsubscribe req.id (req.params.getD (.object [])) sessionId).run.run s).2 := by
  have other : req.method ≠ Protocol.methodResourcesSubscribe := by
    rw [unsubscribe]
    decide
  have made : info.subscription s req sessionId =
      match getStringParam (req.params.getD (.object [])) "uri" with
      | .error _ => none
      | .ok uri => some ((sessionId, uri), false) := by
    simp only [ServerInfo.subscription, if_pos initialized, if_neg other, if_pos unsubscribe]
  unfold handleResourcesUnsubscribe
  cases param : getStringParam (req.params.getD (.object [])) "uri" with
  | error message =>
    refine .confined ?_ (confined_admits.refl s)
    rw [made, param]
  | ok uri =>
    have unsubscribed : info.subscription s req sessionId = some ((sessionId, uri), false) := by
      rw [made, param]
    exact .subscribes unsubscribed

theorem processRequest_processed (req : JsonRpcRequest) (sessionId : SessionId) (s : Server υ) :
    info.Processed s req sessionId (processRequest info req sessionId s).2 := by
  rw [processRequest_state]
  simp only [dispatchMethod]
  by_cases greeting : req.method = Protocol.methodInitialize
  · rw [if_pos greeting]
    obtain ⟨user, listCache, after⟩ :=
      handleInitialize_greets info req.id (req.params.getD (.object [])) sessionId s
    rw [after]
    refine .greets _ user listCache greeting (subscription_none info ?_ ?_ sessionId s)
    all_goals
      rw [greeting]
      decide
  rw [if_neg greeting]
  by_cases ping : req.method = Protocol.methodPing
  · rw [if_pos ping]
    refine .confined (subscription_none info ?_ ?_ sessionId s) (confined_admits.refl s)
    all_goals
      rw [ping]
      decide
  rw [if_neg ping, run_get_bind]
  by_cases initialized : s.initialized = true
  · rw [if_pos initialized]
    by_cases subscribe : req.method = Protocol.methodResourcesSubscribe
    · have serves : serveMethod info req (req.params.getD (.object [])) sessionId =
          (handleResourcesSubscribe info req.id (req.params.getD (.object [])) sessionId :
            ServerM υ Json) := by
        unfold serveMethod
        rw [subscribe]
        rfl
      rw [serves]
      exact subscribe_processed info subscribe sessionId initialized
    by_cases unsubscribe : req.method = Protocol.methodResourcesUnsubscribe
    · have serves : serveMethod info req (req.params.getD (.object [])) sessionId =
          (handleResourcesUnsubscribe req.id (req.params.getD (.object [])) sessionId :
            ServerM υ Json) := by
        unfold serveMethod
        rw [unsubscribe]
        rfl
      rw [serves]
      exact unsubscribe_processed info unsubscribe sessionId initialized
    have confined := serveMethod_confined info req (req.params.getD (.object [])) sessionId
      subscribe unsubscribe s
    exact .confined (subscription_none info subscribe unsubscribe sessionId s) confined.1
  · rw [if_neg initialized]
    refine .confined ?_ (confined_admits.refl s)
    unfold ServerInfo.subscription
    rw [if_neg initialized]

/-- Only the requests that may be deferred are. -/
def Server.JobsDeferrable (s : Server υ) : Prop :=
  ∀ job ∈ s.jobs, isDeferrable job.request.method = true

theorem Server.JobsDeferrable.congr {s s' : Server υ} (deferrable : s.JobsDeferrable)
    (jobs : s'.jobs = s.jobs) : s'.JobsDeferrable := by
  unfold JobsDeferrable
  rw [jobs]
  exact deferrable

theorem deferrable_serves {method : String} (deferrable : isDeferrable method = true) :
    method ≠ Protocol.methodInitialize ∧ method ≠ Protocol.methodResourcesSubscribe ∧
      method ≠ Protocol.methodResourcesUnsubscribe := by
  refine ⟨?_, ?_, ?_⟩
  all_goals
    rintro rfl
    revert deferrable
    decide

theorem deferred_confined {req : JsonRpcRequest} (deferrable : isDeferrable req.method = true)
    (sessionId : SessionId) (s : Server υ) : s.Confined (processRequest info req sessionId s).2 := by
  obtain ⟨greeting, subscribe, unsubscribe⟩ := deferrable_serves deferrable
  have processed := processRequest_processed info req sessionId s
  generalize (processRequest info req sessionId s).2 = after at processed ⊢
  cases processed with
  | greets hello user listCache greets => exact absurd greets greeting
  | subscribes made =>
    rw [subscription_none info subscribe unsubscribe] at made
    cases made
  | confined none confined => exact confined

theorem withSubscription_table (s : Server υ) (subscription : Subscription) : ∃ table,
    s.withSubscription subscription = { s with subscribedResources := table } := by
  unfold Server.withSubscription
  split
  · exact ⟨_, rfl⟩
  · split <;> exact ⟨_, rfl⟩

/-- All that a request other than `initialize` writes. -/
theorem processRequest_writes {req : JsonRpcRequest}
    (other : req.method ≠ Protocol.methodInitialize) (sessionId : SessionId) (s : Server υ) :
    ∃ user listCache table, (processRequest info req sessionId s).2 =
      { s with user, listCache, subscribedResources := table } := by
  have processed := processRequest_processed info req sessionId s
  generalize (processRequest info req sessionId s).2 = after at processed ⊢
  cases processed with
  | greets hello user listCache greeting => exact absurd greeting other
  | @subscribes subscription made =>
    obtain ⟨table, same⟩ := withSubscription_table s subscription
    exact ⟨s.user, s.listCache, table, same⟩
  | confined none confined =>
    obtain ⟨user, listCache, same⟩ := confined
    exact ⟨user, listCache, s.subscribedResources, same⟩

theorem turns_jobs {s s' : Server υ} (deferrable : s.JobsDeferrable) {event : ServerEvent υ}
    (turns : s.Turns info event s') : s'.JobsDeferrable := by
  cases turns with
  | @serves message sessionId batch req parsed =>
    have serving := (processRequest_spec info req sessionId (s.arrived message)).2
    exact deferrable.congr serving.jobs
  | defers parsed later =>
    intro job member
    rcases List.mem_append.mp member with before | new
    · exact deferrable job before
    · rw [List.mem_singleton.mp new]
      exact later
  | @works place job found =>
    let left : Server υ := { s with jobs := s.jobs.eraseIdx place }
    have fewer : left.JobsDeferrable :=
      fun job member => deferrable job (List.mem_of_mem_eraseIdx member)
    have serving := (processRequest_spec info job.request job.sessionId left).2
    exact fewer.congr serving.jobs
  | delivers found => exact deferrable
  | registers registry | starts => exact deferrable
  | fails aside => exact deferrable.congr aside.jobs
  | stops => exact fun job member => by cases member
  | hears other aside => exact deferrable.congr aside.jobs
  | refuses other response => exact deferrable
  | aside quiet aside => exact deferrable.congr aside.jobs

theorem onMessage_jobs {s : Server υ} (deferrable : s.JobsDeferrable) (message : Json)
    (sessionId : SessionId) (batch : Bool) :
    (s.onMessage info message sessionId batch).JobsDeferrable :=
  turns_jobs info deferrable (onMessage_turns info s message sessionId batch)

theorem step_jobs {s s' : Server υ} (deferrable : s.JobsDeferrable) {event : ServerEvent υ}
    (h : s.step info event = some s') : s'.JobsDeferrable :=
  turns_jobs info deferrable (step_turns info h)

end CppMcp
