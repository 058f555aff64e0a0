import CppMcp.Server.Machine

namespace CppMcp

open Lib

variable {υ : Type}

/-- A change of a server that request handling does not see and leaves alone, list requests
    apart. -/
structure Server.Unseen (f : Server υ → Server υ) : Prop where
  handlers : ∀ s, (f s).handlers = s.handlers
  initialized : ∀ s, (f s).initialized = s.initialized
  user : ∀ s, (f s).user = s.user
  clientHellos : ∀ s, (f s).clientHellos = s.clientHellos
  subscribedResources : ∀ s, (f s).subscribedResources = s.subscribedResources
  setUser : ∀ s user, f { s with user } = { f s with user }
  setClientHellos : ∀ s clientHellos, f { s with clientHellos } = { f s with clientHellos }
  setNegotiatedVersion : ∀ s negotiatedVersion,
    f { s with negotiatedVersion } = { f s with negotiatedVersion }
  setSubscribedResources : ∀ s subscribedResources,
    f { s with subscribedResources } = { f s with subscribedResources }

section
variable {f : Server υ → Server υ} (unseen : Server.Unseen f) (info : ServerInfo)
include unseen

theorem call_unseen {α : Type} (h : Handler υ α) : Commutes f (call h) := by
  intro s
  show ((h.run.run (f s).user).1, { f s with user := (h.run.run (f s).user).2 }) = _
  rw [unseen.user, ← unseen.setUser]
  rfl

theorem handleInitialize_unseen (id : RequestId) (params : Json) (sessionId : SessionId) :
    Commutes f (handleInitialize info id params sessionId) := by
  refine commutes_get (fun s => by rw [unseen.handlers]) fun s => ?_
  have hello : Commutes f (recordClientHello params sessionId : ServerM υ Unit) :=
    commutes_modify fun s => by
      rw [unseen.clientHellos]
      exact (unseen.setClientHellos s _).symm
  have negotiated : Commutes f (modify fun s =>
      { s with negotiatedVersion := negotiate params } : ServerM υ Unit) :=
    commutes_modify fun s => (unseen.setNegotiatedVersion s _).symm
  refine commutes_bind hello fun _ => commutes_bind negotiated fun _ => ?_
  dsimp only
  split
  · exact commutes_bind (call_unseen unseen _) fun result => commutes_pure _ _
  · exact commutes_pure _ _

theorem listItems_unseen {α : Type} (handler : Option (Handler υ (List α)))
    (registered : List α) (toJson : α → Json) :
    Commutes f (listItems handler registered toJson) := by
  unfold listItems
  split
  · exact commutes_bind (call_unseen unseen _) fun items => commutes_pure _ _
  · exact commutes_pure _ _

theorem handleToolsCall_unseen (id : RequestId) (params : Json) (sessionId : SessionId) :
    Commutes f (handleToolsCall id params sessionId) := by
  unfold handleToolsCall
  split
  · exact commutes_pure _ _
  · refine commutes_get (fun s => by rw [unseen.handlers]) fun s => ?_
    split
    · exact commutes_pure _ _
    · apply commutes_ite (commutes_pure _ _)
      exact commutes_bind (call_unseen unseen _) fun result => commutes_pure _ _

theorem handleResourcesRead_unseen (id : RequestId) (params : Json) (sessionId : SessionId) :
    Commutes f (handleResourcesRead id params sessionId) := by
  unfold handleResourcesRead
  split
  · exact commutes_pure _ _
  · refine commutes_get (fun s => by rw [unseen.handlers]) fun s => ?_
    dsimp only
    split
    · exact commutes_bind (call_unseen unseen _) fun result => commutes_pure _ _
    · split
      · exact commutes_bind (call_unseen unseen _) fun result => commutes_pure _ _
      · exact commutes_pure _ _

theorem handleResourcesSubscribe_unseen (id : RequestId) (params : Json)
    (sessionId : SessionId) : Commutes f (handleResourcesSubscribe info id params sessionId) := by
  unfold handleResourcesSubscribe
  apply commutes_ite (commutes_pure _ _)
  split
  · exact commutes_pure _ _
  · refine commutes_bind (commutes_modify fun s => ?_) fun _ => commutes_pure _ _
    rw [unseen.subscribedResources]
    exact (unseen.setSubscribedResources s _).symm

theorem handleResourcesUnsubscribe_unseen (id : RequestId) (params : Json)
    (sessionId : SessionId) : Commutes f (handleResourcesUnsubscribe id params sessionId) := by
  unfold handleResourcesUnsubscribe
  split
  · exact commutes_pure _ _
  · refine commutes_bind (commutes_modify fun s => ?_) fun _ => commutes_pure _ _
    rw [unseen.subscribedResources]
    cases s.subscribedResources.lookup sessionId with
    | none => rfl
    | some uris => exact (unseen.setSubscribedResources s _).symm

theorem handlePromptsGet_unseen (id : RequestId) (params : Json) (sessionId : SessionId) :
    Commutes f (handlePromptsGet id params sessionId) := by
  unfold handlePromptsGet
  split
  · exact commutes_pure _ _
  · refine commutes_get (fun s => by rw [unseen.handlers]) fun s => ?_
    split
    · exact commutes_pure _ _
    · dsimp only
      split
      · exact commutes_pure _ _
      · exact commutes_bind (call_unseen unseen _) fun result => commutes_pure _ _

theorem handleCompletionComplete_unseen (id : RequestId) (params : Json) :
    Commutes f (handleCompletionComplete id params) := by
  refine commutes_get (fun s => by rw [unseen.handlers]) fun s => ?_
  split
  · exact commutes_pure _ _
  · exact commutes_bind (call_unseen unseen _) fun result => commutes_pure _ _

theorem handleLoggingSetLevel_unseen (id : RequestId) (params : Json) :
    Commutes f (handleLoggingSetLevel id params) := by
  unfold handleLoggingSetLevel
  split
  · exact commutes_pure _ _
  · apply commutes_ite (commutes_pure _ _)
    refine commutes_get (fun s => by rw [unseen.handlers]) fun s => ?_
    split
    · exact commutes_bind (call_unseen unseen _) fun _ => commutes_pure _ _
    · exact commutes_pure _ _

end

/-- A server without the record of what came in and of the sinks that were called. -/
def Server.bare (s : Server υ) : Server υ := { s with arrivals := [], answers := [] }

theorem Server.bare_unseen : Server.Unseen (Server.bare : Server υ → Server υ) := by
  constructor <;> intros <;> rfl

/-- Request handling that reads nothing of that record and leaves it alone. -/
abbrev Oblivious {α : Type} (m : ServerM υ α) : Prop := Commutes Server.bare m

theorem liftExcept_oblivious {α : Type} (x : Except Exn α) :
    Oblivious (handleListRequest.liftExcept x : ServerM υ α) := fun _ => rfl

variable (info : ServerInfo)

theorem handleListRequest_oblivious (id : RequestId) (field : CacheField) (key : String)
    (params : Json) {produceItems : ServerM υ (List Json)} (produces : Oblivious produceItems) :
    Oblivious (handleListRequest id field key params produceItems) := by
  refine commutes_get (fun s => rfl) fun s => ?_
  refine commutes_bind (liftExcept_oblivious _) fun offset => ?_
  split
  · exact commutes_pure _ _
  · dsimp only
    split
    · exact commutes_pure _ _
    · refine commutes_bind produces fun items => commutes_ite ?_ (commutes_ite ?_ ?_)
      · exact commutes_bind (liftExcept_oblivious _) fun result => commutes_pure _ _
      · exact commutes_bind (commutes_modify fun s => rfl) fun _ => commutes_pure _ _
      · exact commutes_pure _ _

theorem serveMethod_oblivious (req : JsonRpcRequest) (p : Json) (sessionId : SessionId) :
    Oblivious (serveMethod info req p sessionId : ServerM υ Json) := by
  have unseen : Server.Unseen (Server.bare : Server υ → Server υ) := Server.bare_unseen
  have tools : Oblivious (handleToolsList req.id p : ServerM υ Json) :=
    handleListRequest_oblivious _ _ _ p
      (commutes_get (fun _ => rfl) fun _ => listItems_unseen unseen _ _ _)
  have resources : Oblivious (handleResourcesList req.id p : ServerM υ Json) :=
    handleListRequest_oblivious _ _ _ p
      (commutes_get (fun _ => rfl) fun _ => listItems_unseen unseen _ _ _)
  have templates : Oblivious (handleResourcesTemplatesList req.id p : ServerM υ Json) :=
    handleListRequest_oblivious _ _ _ p
      (commutes_get (fun _ => rfl) fun _ => listItems_unseen unseen _ _ _)
  have prompts : Oblivious (handlePromptsList req.id p : ServerM υ Json) :=
    handleListRequest_oblivious _ _ _ p
      (commutes_get (fun _ => rfl) fun _ => listItems_unseen unseen _ _ _)
  exact commutes_ite tools <| commutes_ite (handleToolsCall_unseen unseen _ _ _) <|
    commutes_ite resources <| commutes_ite (handleResourcesRead_unseen unseen _ _ _) <|
    commutes_ite (handleResourcesSubscribe_unseen unseen info _ _ _) <|
    commutes_ite (handleResourcesUnsubscribe_unseen unseen _ _ _) <| commutes_ite templates <|
    commutes_ite prompts <| commutes_ite (handlePromptsGet_unseen unseen _ _ _) <|
    commutes_ite (handleCompletionComplete_unseen unseen _ _) <|
    commutes_ite (handleLoggingSetLevel_unseen unseen _ _) (commutes_pure _ _)

theorem dispatchMethod_oblivious (req : JsonRpcRequest) (sessionId : SessionId) :
    Oblivious (dispatchMethod info req sessionId : ServerM υ Json) := by
  refine commutes_ite (handleInitialize_unseen Server.bare_unseen info _ _ _) <|
    commutes_ite (commutes_pure _ _) <| commutes_get (fun s => rfl) fun s => ?_
  exact commutes_ite (serveMethod_oblivious info _ _ _) (commutes_pure _ _)

theorem processRequest_bare (req : JsonRpcRequest) (sessionId : SessionId) (s : Server υ) :
    processRequest info req sessionId s.bare =
      ((processRequest info req sessionId s).1, (processRequest info req sessionId s).2.bare) := by
  have same := dispatchMethod_oblivious info req sessionId s
  unfold processRequest
  rw [same]
  cases (dispatchMethod info req sessionId).run.run s with
  | mk outcome after =>
    cases outcome with
    | ok response => rfl
    | error e => cases e <;> rfl

end CppMcp
