import CppMcp.Lib.Table
import CppMcp.Server.Subscriptions

namespace CppMcp

open Lib

variable {υ : Type}

def Server.Holds (s : Server υ) (id : SessionId) : Prop :=
  id ∈ s.clientHellos ∨ id ∈ s.subscribedResources ∨
    ∃ rid p, s.outboundPending.lookup rid = some p ∧ p.sessionId = id

theorem Server.Holds.mono {s s' : Server υ} {id : SessionId} (holds : s'.Holds id)
    (hellos : s'.clientHellos = s.clientHellos)
    (subscribed : s'.subscribedResources = s.subscribedResources)
    (outbound : ∀ rid p, s'.outboundPending.lookup rid = some p →
      s.outboundPending.lookup rid = some p) : s.Holds id := by
  rcases holds with hello | sub | ⟨rid, p, found, own⟩
  · exact .inl (hellos ▸ hello)
  · exact .inr (.inl (subscribed ▸ sub))
  · exact .inr (.inr ⟨rid, p, outbound rid p found, own⟩)

theorem confined_holds {s s' : Server υ} (confined : s.Confined s') {id : SessionId}
    (holds : s'.Holds id) : s.Holds id := by
  obtain ⟨user, listCache, rfl⟩ := confined
  exact holds

theorem completeServerRequest_holds {s : Server υ} {rid : Int} {ok : Bool} {payload : Json}
    {id : SessionId} (holds : (s.completeServerRequest rid ok payload).Holds id) : s.Holds id := by
  unfold Server.completeServerRequest at holds
  split at holds
  · exact holds
  · refine holds.mono ?_ ?_ ?_
    · simp only [Server.callBack]
      split <;> rfl
    · simp only [Server.callBack]
      split <;> rfl
    · intro rid' p found
      have erased : (s.outboundPending.erase rid).lookup rid' = some p := by
        simp only [Server.callBack] at found
        split at found <;> exact found
      exact (lookup_erase erased).2

theorem sendServerRequest_holds {s : Server υ} {p : OutboundPending υ} {params : Json}
    {sends : Bool} {id : SessionId} (holds : (s.sendServerRequest p params sends).Holds id) :
    s.Holds id ∨ p.sessionId = id := by
  have inserted {rid : Int} {q : OutboundPending υ}
      (found : (s.outboundPending.insert s.nextOutboundId p).lookup rid = some q) :
      s.outboundPending.lookup rid = some q ∨ q = p := by
    rcases lookup_insert_cases found with ⟨-, new⟩ | ⟨-, old⟩
    · exact .inr new
    · exact .inl old
  unfold Server.sendServerRequest at holds
  split at holds
  · dsimp only at holds
    have entries {t : Server υ} (holds : t.Holds id) (hellos : t.clientHellos = s.clientHellos)
        (subscribed : t.subscribedResources = s.subscribedResources)
        (outbound : ∀ rid q, t.outboundPending.lookup rid = some q →
          (s.outboundPending.insert s.nextOutboundId p).lookup rid = some q) :
        s.Holds id ∨ p.sessionId = id := by
      rcases holds with hello | sub | ⟨rid, q, found, own⟩
      · exact .inl (.inl (hellos ▸ hello))
      · exact .inl (.inr (.inl (subscribed ▸ sub)))
      · rcases inserted (outbound rid q found) with before | rfl
        · exact .inl (.inr (.inr ⟨rid, q, before, own⟩))
        · exact .inr own
    split at holds
    · exact entries holds rfl rfl fun _ _ found => found
    · refine entries holds rfl rfl fun rid q found => ?_
      have erased : ((s.outboundPending.insert s.nextOutboundId p).erase s.nextOutboundId).lookup rid =
        some q := found
      exact (lookup_erase erased).2
  · exact .inl holds

/-- A request through the gate goes to a session that has greeted. -/
theorem mayRequest_holds {s : Server υ} {sessionId : SessionId}
    {capable : ClientCapabilities → Bool} (may : s.mayRequest sessionId capable = true)
    (named : sessionId ≠ []) : s.Holds sessionId := by
  unfold Server.mayRequest at may
  split at may
  · rename_i hello found
    exact .inl (AList.lookup_isSome.mp (by rw [found]; rfl))
  · exact absurd (List.isEmpty_iff.mp may) named

theorem requested_holds {s : Server υ} (sessionId : SessionId) {id : SessionId}
    {capable : ClientCapabilities → Bool} {p : OutboundPending υ} {params : Json} {sends : Bool}
    (own : p.sessionId = sessionId) (named : id ≠ [])
    (holds : (if s.mayRequest sessionId capable then s.sendServerRequest p params sends
      else s).Holds id) : s.Holds id := by
  split at holds
  · rename_i may
    rcases sendServerRequest_holds holds with before | same
    · exact before
    · rw [← same, own]
      apply mayRequest_holds may
      rw [← own, same]
      exact named
  · exact holds

variable (info : ServerInfo)

theorem withSubscription_holds {s : Server υ} {subscription : Subscription} {id : SessionId}
    (holds : (s.withSubscription subscription).Holds id) :
    s.Holds id ∨ id = subscription.1.1 := by
  have inserted {sessionId : SessionId} {uris : List String}
      (holds : Server.Holds { s with
        subscribedResources := s.subscribedResources.insert sessionId uris } id) :
      s.Holds id ∨ id = sessionId := by
    rcases holds with hello | sub | outbound
    · exact .inl (.inl hello)
    · rcases (AList.mem_insert _).mp sub with own | before
      · exact .inr own
      · exact .inl (.inr (.inl before))
    · exact .inl (.inr (.inr outbound))
  obtain ⟨⟨sessionId, uri⟩, subscribes⟩ := subscription
  cases subscribes with
  | true => exact inserted holds
  | false =>
    simp only [Server.withSubscription] at holds
    split at holds
    · exact inserted holds
    · exact .inl holds

/-- Processing a request leaves something only under the session it came from. -/
theorem processRequest_holds {req : JsonRpcRequest} {sessionId : SessionId} {s : Server υ}
    {id : SessionId} (holds : (processRequest info req sessionId s).2.Holds id) :
    s.Holds id ∨ id = sessionId := by
  have processed := processRequest_processed info req sessionId s
  generalize (processRequest info req sessionId s).2 = after at processed holds
  cases processed with
  | greets hello user listCache greeting none =>
    rcases holds with hello | sub | outbound
    · rcases (AList.mem_insert _).mp hello with own | before
      · exact .inr own
      · exact .inl (.inl before)
    · exact .inl (.inr (.inl sub))
    · exact .inl (.inr (.inr outbound))
  | @subscribes subscription made =>
    have own : subscription.1.1 = sessionId := by
      simp only [ServerInfo.subscription] at made
      split at made
      · split at made
        · cases made
        · split at made
          · split at made
            · cases made
              rfl
            · cases made
          · split at made
            · cases made
              rfl
            · cases made
      · cases made
    rw [← own]
    exact withSubscription_holds holds
  | confined none confined => exact .inl (confined_holds confined holds)

theorem onMessage_quiet_holds {s : Server υ} {message : Json} {sessionId : SessionId} {batch : Bool}
    {id : SessionId} (quiet : ∀ req, parseMessage message ≠ .request req)
    (holds : (s.onMessage info message sessionId batch).Holds id) : s.Holds id := by
  simp only [Server.onMessage] at holds
  cases parsed : parseMessage message with
  | request req => exact absurd parsed (quiet req)
  | notification notif =>
    rw [parsed] at holds
    simp only [Server.processNotification] at holds
    split at holds
    · exact holds
    · split at holds <;> exact holds
  | success resp =>
    rw [parsed] at holds
    simp only [Server.onClientResponse] at holds
    split at holds
    · exact completeServerRequest_holds (s := s.arrived message) holds
    · exact holds
  | error resp =>
    rw [parsed] at holds
    simp only [Server.onClientErrorResponse] at holds
    split at holds
    · split at holds
      · exact completeServerRequest_holds (s := s.arrived message) holds
      · exact holds
    · exact holds

theorem onMessage_holds {s : Server υ} {message : Json} {sessionId : SessionId} {batch : Bool}
    {id : SessionId} (holds : (s.onMessage info message sessionId batch).Holds id) :
    s.Holds id ∨ id = sessionId := by
  cases parsed : parseMessage message with
  | request req =>
    simp only [Server.onMessage, parsed] at holds
    split at holds
    · exact .inl holds
    · exact processRequest_holds info (s := s.arrived message) holds
  | notification notif | success resp | error resp =>
    exact .inl (onMessage_quiet_holds info (by simp [parsed]) holds)

theorem step_holds {s s' : Server υ} (deferrable : s.JobsDeferrable) {event : ServerEvent υ}
    (h : s.step info event = some s') (own : ∀ m id b, event ≠ .arrives m id b) {id : SessionId}
    (named : id ≠ []) (holds : s'.Holds id) : s.Holds id := by
  cases event with
  | arrives message sessionId batch => exact absurd rfl (own message sessionId batch)
  | runsJob place =>
    simp only [Server.step] at h
    split at h
    · rename_i job found
      cases h
      exact confined_holds (deferred_confined info (deferrable job (List.mem_of_getElem? found))
        job.sessionId { s with jobs := s.jobs.eraseIdx place }) holds
    · cases h
  | stops =>
    cases h
    exact holds.mono rfl rfl fun rid p found => by simp at found
  | requestsSampling params callbacks sessionId sends =>
    cases h
    unfold Server.requestSampling at holds
    exact requested_holds sessionId rfl named holds
  | requestsElicitation params callbacks sessionId sends =>
    cases h
    unfold Server.requestElicitation at holds
    exact requested_holds sessionId rfl named holds
  | requestsRoots callbacks sessionId sends =>
    cases h
    unfold Server.requestRoots at holds
    exact requested_holds sessionId rfl named holds
  | delivers place =>
    simp only [Server.step] at h
    split at h
    · cases h
      exact holds
    · cases h
  | registers registry | setsWorkers n | setsPageSize n | invalidates | runs starts =>
    cases h
    first
    | exact holds
    | split at holds <;> exact holds

/-- The user's initialize handler throws on the request. -/
def Server.Refuses (s : Server υ) (req : JsonRpcRequest) : Prop :=
  ∃ handler, s.handlers.initializeHandler = some handler ∧
    ∀ result, ((handler (req.params.getD (.object []))).run.run s.user).1 ≠ .ok result

theorem initialize_succeeds {s : Server υ} {req : JsonRpcRequest}
    (greeting : req.method = Protocol.methodInitialize) (accepted : ¬ s.Refuses req)
    (sessionId : SessionId) :
    ∃ result, (processRequest info req sessionId s).1 = makeSuccessResponse req.id result := by
  let params := req.params.getD (.object [])
  have returns : ∃ result, ((handleInitialize info req.id params sessionId).run.run s).1 =
      .ok (makeSuccessResponse req.id result) := by
    unfold handleInitialize
    rw [run_get_bind, recordClientHello_eq, run_modify_bind, run_modify_bind]
    let greeted : Server υ := { s with
      clientHellos := s.clientHellos.insert sessionId (clientHello params)
      negotiatedVersion := negotiate params }
    cases installed : s.handlers.initializeHandler with
    | none => exact ⟨_, rfl⟩
    | some handler =>
      obtain ⟨result, returned⟩ : ∃ result, ((handler params).run.run s.user).1 = .ok result := by
        by_contra throws
        exact accepted ⟨handler, installed, fun result ok => throws ⟨result, ok⟩⟩
      exact ⟨_, congrArg Prod.fst (run_call_bind (s := greeted) returned _)⟩
  obtain ⟨result, returned⟩ := returns
  refine ⟨result, processRequest_answers info ?_⟩
  unfold dispatchMethod
  rw [if_pos greeting]
  exact returned

end CppMcp
