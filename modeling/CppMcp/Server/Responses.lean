import CppMcp.Server.Handlers

namespace CppMcp

open Lib

variable {υ : Type}

/-- A response to the request `id`, with exactly one of `result` and `error`. -/
structure IsResponse (id : RequestId) (response : Json) : Prop where
  id : response.find? "id" = some (requestIdToJson id)
  exclusive : response.contains "result" = !response.contains "error"

theorem makeSuccessResponse_isResponse (id : RequestId) (result : Json) :
    IsResponse id (makeSuccessResponse id result) := by
  constructor <;> simp [makeSuccessResponse, Json.contains, find?_mk]

theorem makeErrorResponse_isResponse (id : RequestId) (code : Int) (message : String)
    (data : Option Json) : IsResponse id (makeErrorResponse id code message data) := by
  constructor <;> simp [makeErrorResponse, Json.contains, find?_mk]

/-- What the two writers of `make_success_response` and `make_error_response` make. -/
def Written (id : RequestId) (response : Json) : Prop :=
  (∃ result, response = makeSuccessResponse id result) ∨
    ∃ code message data, response = makeErrorResponse id code message data

theorem Written.isResponse {id : RequestId} {response : Json} (written : Written id response) :
    IsResponse id response := by
  rcases written with ⟨result, rfl⟩ | ⟨code, message, data, rfl⟩
  · exact makeSuccessResponse_isResponse id result
  · exact makeErrorResponse_isResponse id code message data

/-- A relation along which user code and the list cache move a server. -/
structure Server.Admits (R : Server υ → Server υ → Prop) : Prop where
  refl : ∀ s, R s s
  trans : ∀ a b c, R a b → R b c → R a c
  call : ∀ (s : Server υ) user, R s { s with user }
  cache : ∀ (s : Server υ) listCache, R s { s with listCache }

theorem serving_admits : Server.Admits (Server.Serving (υ := υ)) where
  refl := .refl
  trans _ _ _ := .trans
  call _ _ := ⟨rfl, rfl, rfl, rfl, rfl, rfl, rfl, rfl, rfl, rfl⟩
  cache _ _ := ⟨rfl, rfl, rfl, rfl, rfl, rfl, rfl, rfl, rfl, rfl⟩

/-- Only the user's memory and the list cache have changed. -/
def Server.Confined (s s' : Server υ) : Prop := ∃ user listCache, s' = { s with user, listCache }

theorem confined_admits : Server.Admits (Server.Confined (υ := υ)) where
  refl s := ⟨s.user, s.listCache, rfl⟩
  trans := by
    rintro a _ _ ⟨-, -, rfl⟩ ⟨user, listCache, rfl⟩
    exact ⟨user, listCache, rfl⟩
  call s user := ⟨user, s.listCache, rfl⟩
  cache s listCache := ⟨s.user, listCache, rfl⟩

section
variable {R : Server υ → Server υ → Prop} (admits : Server.Admits R) {α : Type}
include admits

theorem admits_bind {P : α → Prop} {id : RequestId} {m : ServerM υ α} {f : α → ServerM υ Json}
    (first : Yields R P m) (next : ∀ a, P a → Yields R (Written id) (f a)) :
    Yields R (Written id) (m >>= f) := yields_bind first admits.trans next

theorem admits_get : Yields R (fun _ => True) (get : ServerM υ (Server υ)) := yields_get admits.refl

theorem admits_call (h : Handler υ α) : Yields R (fun _ => True) (CppMcp.call h) :=
  fun s => ⟨admits.call s _, fun _ _ => True.intro⟩

theorem admits_liftExcept (x : Except Exn α) :
    Yields R (fun _ => True) (handleListRequest.liftExcept x : ServerM υ α) :=
  fun s => ⟨admits.refl s, fun _ _ => True.intro⟩

theorem answers_success (id : RequestId) (result : Json) :
    Yields R (Written id) (pure (makeSuccessResponse id result) : ServerM υ Json) :=
  yields_pure admits.refl (.inl ⟨result, rfl⟩)

theorem answers_error (id : RequestId) (code : Int) (message : String) :
    Yields R (Written id) (pure (makeErrorResponse id code message) : ServerM υ Json) :=
  yields_pure admits.refl (.inr ⟨code, message, none, rfl⟩)

theorem listItems_yields (handler : Option (Handler υ (List α))) (registered : List α)
    (toJson : α → Json) : Yields R (fun _ => True) (listItems handler registered toJson) := by
  unfold listItems
  split
  · refine yields_bind (admits_call admits _) admits.trans fun items _ => ?_
    exact yields_pure admits.refl True.intro
  · exact yields_pure admits.refl True.intro

end

section
variable {R : Server υ → Server υ → Prop} (admits : Server.Admits R)
include admits

theorem handleListRequest_answers (id : RequestId) (field : CacheField) (key : String)
    (params : Json) {produceItems : ServerM υ (List Json)}
    (produces : Yields R (fun _ => True) produceItems) :
    Yields R (Written id) (handleListRequest id field key params produceItems) := by
  refine admits_bind admits (admits_get admits) fun s _ => ?_
  refine admits_bind admits (admits_liftExcept admits _) fun offset _ => ?_
  split
  · exact answers_error admits id _ _
  · dsimp only
    split
    · exact answers_success admits id _
    · refine admits_bind admits produces fun items _ => ?_
      split
      · exact admits_bind admits (admits_liftExcept admits _) fun result _ =>
          answers_success admits id result
      · split
        · refine admits_bind admits (yields_modify fun s => admits.cache s _) fun _ _ => ?_
          exact answers_success admits id _
        · exact answers_success admits id _

theorem handleToolsList_answers (id : RequestId) (params : Json) :
    Yields R (Written id) (handleToolsList id params : ServerM υ Json) :=
  handleListRequest_answers admits id _ _ params
    (yields_bind (admits_get admits) admits.trans fun _ _ => listItems_yields admits _ _ _)

theorem handleResourcesList_answers (id : RequestId) (params : Json) :
    Yields R (Written id) (handleResourcesList id params : ServerM υ Json) :=
  handleListRequest_answers admits id _ _ params
    (yields_bind (admits_get admits) admits.trans fun _ _ => listItems_yields admits _ _ _)

theorem handleResourcesTemplatesList_answers (id : RequestId) (params : Json) :
    Yields R (Written id) (handleResourcesTemplatesList id params : ServerM υ Json) :=
  handleListRequest_answers admits id _ _ params
    (yields_bind (admits_get admits) admits.trans fun _ _ => listItems_yields admits _ _ _)

theorem handlePromptsList_answers (id : RequestId) (params : Json) :
    Yields R (Written id) (handlePromptsList id params : ServerM υ Json) :=
  handleListRequest_answers admits id _ _ params
    (yields_bind (admits_get admits) admits.trans fun _ _ => listItems_yields admits _ _ _)

/-- A handler is called and its result is the answer. -/
theorem answers_call (id : RequestId) (h : Handler υ α) (f : α → Json) :
    Yields R (Written id) (do
      let result ← CppMcp.call h
      return makeSuccessResponse id (f result)) :=
  admits_bind admits (admits_call admits h) fun result _ => answers_success admits id (f result)

theorem handleToolsCall_answers (id : RequestId) (params : Json) (sessionId : SessionId) :
    Yields R (Written id) (handleToolsCall id params sessionId : ServerM υ Json) := by
  unfold handleToolsCall
  split
  · exact answers_error admits id _ _
  · refine admits_bind admits (admits_get admits) fun s _ => ?_
    split
    · exact answers_error admits id _ _
    · dsimp only
      split
      · exact answers_error admits id _ _
      · exact answers_call admits id _ _

theorem handleResourcesRead_answers (id : RequestId) (params : Json) (sessionId : SessionId) :
    Yields R (Written id) (handleResourcesRead id params sessionId : ServerM υ Json) := by
  unfold handleResourcesRead
  split
  · exact answers_error admits id _ _
  · refine admits_bind admits (admits_get admits) fun s _ => ?_
    dsimp only
    split
    · exact answers_call admits id _ _
    · split
      · exact answers_call admits id _ _
      · exact answers_error admits id _ _

theorem handlePromptsGet_answers (id : RequestId) (params : Json) (sessionId : SessionId) :
    Yields R (Written id) (handlePromptsGet id params sessionId : ServerM υ Json) := by
  unfold handlePromptsGet
  split
  · exact answers_error admits id _ _
  · refine admits_bind admits (admits_get admits) fun s _ => ?_
    split
    · exact answers_error admits id _ _
    · dsimp only
      split
      · exact answers_error admits id _ _
      · exact answers_call admits id _ _

theorem handleCompletionComplete_answers (id : RequestId) (params : Json) :
    Yields R (Written id) (handleCompletionComplete id params : ServerM υ Json) := by
  refine admits_bind admits (admits_get admits) fun s _ => ?_
  split
  · exact answers_error admits id _ _
  · exact answers_call admits id _ _

theorem handleLoggingSetLevel_answers (id : RequestId) (params : Json) :
    Yields R (Written id) (handleLoggingSetLevel id params : ServerM υ Json) := by
  unfold handleLoggingSetLevel
  split
  · exact answers_error admits id _ _
  · split
    · exact answers_error admits id _ _
    · refine admits_bind admits (admits_get admits) fun s _ => ?_
      split
      · exact admits_bind admits (admits_call admits _) fun _ _ => answers_success admits id _
      · exact answers_success admits id _

/-- All methods but the two that write the table of subscriptions. -/
theorem serveMethod_yields (info : ServerInfo) (req : JsonRpcRequest) (p : Json)
    (sessionId : SessionId)
    (subscribes : req.method = Protocol.methodResourcesSubscribe →
      Yields R (Written req.id) (handleResourcesSubscribe info req.id p sessionId))
    (unsubscribes : req.method = Protocol.methodResourcesUnsubscribe →
      Yields R (Written req.id) (handleResourcesUnsubscribe req.id p sessionId)) :
    Yields R (Written req.id) (serveMethod info req p sessionId) := by
  unfold serveMethod
  apply yields_ite (handleToolsList_answers admits req.id p)
  apply yields_ite (handleToolsCall_answers admits req.id p sessionId)
  apply yields_ite (handleResourcesList_answers admits req.id p)
  apply yields_ite (handleResourcesRead_answers admits req.id p sessionId)
  split
  · exact subscribes (by assumption)
  split
  · exact unsubscribes (by assumption)
  apply yields_ite (handleResourcesTemplatesList_answers admits req.id p)
  apply yields_ite (handlePromptsList_answers admits req.id p)
  apply yields_ite (handlePromptsGet_answers admits req.id p sessionId)
  apply yields_ite (handleCompletionComplete_answers admits req.id p)
  apply yields_ite (handleLoggingSetLevel_answers admits req.id p)
  exact answers_error admits req.id _ _

end

/-- Request handling that answers `id` and leaves the queues and the sinks alone. -/
abbrev Answers (id : RequestId) (m : ServerM υ Json) : Prop :=
  Yields Server.Serving (IsResponse id) m

theorem serving_modify {f : Server υ → Server υ} (serving : ∀ s : Server υ, s.Serving (f s)) :
    Yields Server.Serving (fun _ => True) (modify f : ServerM υ Unit) := yields_modify serving

theorem recordClientHello_serving (params : Json) (sessionId : SessionId) :
    Yields Server.Serving (fun _ => True) (recordClientHello params sessionId : ServerM υ Unit) :=
  serving_modify fun _ => ⟨rfl, rfl, rfl, rfl, rfl, rfl, rfl, rfl, rfl, rfl⟩

variable (info : ServerInfo)

theorem handleInitialize_answers (id : RequestId) (params : Json) (sessionId : SessionId) :
    Yields Server.Serving (Written id) (handleInitialize info id params sessionId : ServerM υ Json) := by
  refine admits_bind serving_admits (admits_get serving_admits) fun s _ => ?_
  refine admits_bind serving_admits (recordClientHello_serving params sessionId) fun _ _ => ?_
  refine admits_bind serving_admits (serving_modify fun _ => ?_) fun _ _ => ?_
  · exact ⟨rfl, rfl, rfl, rfl, rfl, rfl, rfl, rfl, rfl, rfl⟩
  · split
    · exact admits_bind serving_admits (admits_call serving_admits _) fun result _ =>
        answers_success serving_admits id _
    · exact answers_success serving_admits id _

theorem handleResourcesSubscribe_answers (id : RequestId) (params : Json) (sessionId : SessionId) :
    Yields Server.Serving (Written id) (handleResourcesSubscribe info id params sessionId : ServerM υ Json) := by
  unfold handleResourcesSubscribe
  split
  · exact answers_error serving_admits id _ _
  · split
    · exact answers_error serving_admits id _ _
    · refine admits_bind serving_admits (serving_modify fun _ => ?_) fun _ _ =>
        answers_success serving_admits id _
      exact ⟨rfl, rfl, rfl, rfl, rfl, rfl, rfl, rfl, rfl, rfl⟩

theorem handleResourcesUnsubscribe_answers (id : RequestId) (params : Json)
    (sessionId : SessionId) :
    Yields Server.Serving (Written id) (handleResourcesUnsubscribe id params sessionId : ServerM υ Json) := by
  unfold handleResourcesUnsubscribe
  split
  · exact answers_error serving_admits id _ _
  · refine admits_bind serving_admits (serving_modify fun s => ?_) fun _ _ =>
      answers_success serving_admits id _
    split
    · exact ⟨rfl, rfl, rfl, rfl, rfl, rfl, rfl, rfl, rfl, rfl⟩
    · exact .refl s

theorem serveMethod_answers (req : JsonRpcRequest) (p : Json) (sessionId : SessionId) :
    Yields Server.Serving (Written req.id) (serveMethod info req p sessionId : ServerM υ Json) :=
  serveMethod_yields serving_admits info req p sessionId
    (fun _ => handleResourcesSubscribe_answers info req.id p sessionId)
    fun _ => handleResourcesUnsubscribe_answers req.id p sessionId

theorem dispatchMethod_writes (req : JsonRpcRequest) (sessionId : SessionId) :
    Yields Server.Serving (Written req.id) (dispatchMethod info req sessionId : ServerM υ Json) := by
  simp only [dispatchMethod]
  split
  · exact handleInitialize_answers info req.id _ sessionId
  · split
    · exact answers_success serving_admits req.id emptyResult
    · refine admits_bind serving_admits (admits_get serving_admits) fun s _ => ?_
      split
      · exact serveMethod_answers info req _ sessionId
      · exact answers_error serving_admits req.id _ _

/-- Every method answers the id it was given, or throws. -/
theorem dispatchMethod_answers (req : JsonRpcRequest) (sessionId : SessionId) :
    Answers req.id (dispatchMethod info req sessionId : ServerM υ Json) := by
  intro s
  obtain ⟨serving, writes⟩ := dispatchMethod_writes info req sessionId s
  exact ⟨serving, fun response returned => (writes response returned).isResponse⟩

theorem processRequest_written (req : JsonRpcRequest) (sessionId : SessionId) (s : Server υ) :
    Written req.id (processRequest info req sessionId s).1 := by
  have writes := (dispatchMethod_writes info req sessionId s).2
  unfold processRequest
  cases result : (dispatchMethod info req sessionId).run.run s with
  | mk outcome after =>
    rw [result] at writes
    cases outcome with
    | ok response => exact writes response rfl
    | error e => cases e <;> exact .inr ⟨_, _, _, rfl⟩

/-- `process_request` always answers, and touches no queue and no sink. -/
theorem processRequest_spec (req : JsonRpcRequest) (sessionId : SessionId) (s : Server υ) :
    IsResponse req.id (processRequest info req sessionId s).1 ∧
      s.Serving (processRequest info req sessionId s).2 := by
  refine ⟨(processRequest_written info req sessionId s).isResponse, ?_⟩
  have serving := (dispatchMethod_answers info req sessionId s).1
  unfold processRequest
  cases result : (dispatchMethod info req sessionId).run.run s with
  | mk outcome after =>
    rw [result] at serving
    cases outcome with
    | ok response => exact serving
    | error e => cases e <;> exact serving

theorem processRequest_answers {req : JsonRpcRequest} {sessionId : SessionId} {s : Server υ}
    {response : Json} (returned : ((dispatchMethod info req sessionId).run.run s).1 = .ok response) :
    (processRequest info req sessionId s).1 = response := by
  unfold processRequest
  cases ended : (dispatchMethod info req sessionId).run.run s with
  | mk outcome after =>
    rw [ended] at returned
    cases returned
    rfl

/-- What a method throws is answered with an error. -/
theorem processRequest_throws {req : JsonRpcRequest} {sessionId : SessionId} {s : Server υ} {e : Exn}
    (thrown : ((dispatchMethod info req sessionId).run.run s).1 = .error e) :
    ∃ code message data,
      (processRequest info req sessionId s).1 = makeErrorResponse req.id code message data := by
  unfold processRequest
  cases ended : (dispatchMethod info req sessionId).run.run s with
  | mk outcome after =>
    rw [ended] at thrown
    cases thrown
    cases e <;> exact ⟨_, _, _, rfl⟩

end CppMcp
