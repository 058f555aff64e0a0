import CppMcp.Http.Batch

namespace CppMcp

open Lib

variable {ω υ : Type}

/-- A transport on one of its io threads, whose `g_batch_dispatch` is thread-local. -/
structure IoThread (ω : Type) where
  transport : HttpTransport ω
  batchDispatch : Bool := false

namespace IoThread

def beginBatchDispatch (thread : IoThread ω) : IoThread ω := { thread with batchDispatch := true }
def endBatchDispatch (thread : IoThread ω) : IoThread ω := { thread with batchDispatch := false }

end IoThread

namespace HttpEnv

variable (env : HttpEnv ω)

/-- One element of a batch. `on_message` reads the flag of the thread it runs on. -/
def dispatchElement (id : SessionId) (acc : IoThread ω × List Json) (element : Json) :
    IoThread ω × List Json :=
  match env.messageHandler with
  | some handler =>
    let (world, outcome) := handler acc.1.transport.world element id acc.1.batchDispatch
    ({ acc.1 with transport := { acc.1.transport with world } },
      acc.2 ++ outcome.emitted.head?.toList)
  | none => acc

/-- `handle_post_batch` with its `BatchDispatchGuard`, which lives as long as the loop. -/
def postBatch (thread : IoThread ω) (batch : List Json) (reqId : SessionId) :
    IoThread ω × List HttpWrite :=
  if batch.isEmpty then
    (thread, [.response (env.jsonResponse 200
      (makeErrorResponseNullId Protocol.invalidRequest "Invalid Request"))])
  else if reqId.isEmpty then
    (thread, [.response (env.jsonResponse 400
      (makeErrorResponseNullId Protocol.invalidParams "Missing Mcp-Session-Id header"))])
  else
    match thread.transport.findSession reqId with
    | none => (thread, [.response (textResponse 404 "Session not found")])
    | some session =>
      if session.initialized then
        let (thread, responses) :=
          batch.foldl (env.dispatchElement session.sessionId) (thread.beginBatchDispatch, [])
        let headers := sessionHeader session.sessionId
        (thread.endBatchDispatch,
          [.response (if responses.isEmpty then ⟨202, textPlain, [], headers⟩
            else env.jsonResponse 200 (.array responses) headers)])
      else
        (thread, [.response (env.jsonResponse 400
          (makeErrorResponseNullId Protocol.serverNotInitialized "Session not initialized"))])

/-- The elements of a batch, each with the world that the handler finds. -/
def visits (handler : MessageHandler ω) (id : SessionId) : ω → List Json → List (ω × Json)
  | _, [] => []
  | world, m :: rest => (world, m) :: visits handler id (handler world m id true).1 rest

end HttpEnv

/-- The handler is `on_message` of a server that it finds in some state. Between two messages
    other threads and the handlers of the user's may have moved the server on. -/
def RunsOnMessage (info : ServerInfo) (view : ω → Server υ) (handler : MessageHandler ω) : Prop :=
  ∀ world message id batch,
    (handler world message id batch).2 = (serverHandler info (view world) message id batch).2

/-- An element that a batch is to answer. -/
def Server.answersElement (s : Server υ) (element : Json) : Bool :=
  match parseMessage element with
  | .request _ => true
  | .error resp => !s.isOutbound resp.id
  | _ => false

def AnswersElement (element response : Json) : Prop :=
  match parseMessage element with
  | .request req => IsResponse req.id response
  | .error resp =>
    response = makeErrorResponse resp.id resp.error.code resp.error.message resp.error.data
  | _ => False

/-- With its flag set a thread dispatches the elements as `handlePostBatch` does. -/
theorem dispatchElement_foldl (env : HttpEnv ω) (id : SessionId) (batch : List Json)
    (t : HttpTransport ω) (responses : List Json) :
    batch.foldl (env.dispatchElement id) (⟨t, true⟩, responses) =
      let dispatched := batch.foldl (env.batchElement id) (t.world, responses)
      (⟨{ t with world := dispatched.1 }, true⟩, dispatched.2) := by
  induction batch generalizing t responses with
  | nil => rfl
  | cons m batch ih =>
    cases installed : env.messageHandler with
    | none =>
      have skipped : env.dispatchElement id (⟨t, true⟩, responses) m = (⟨t, true⟩, responses) := by
        simp only [HttpEnv.dispatchElement, installed]
      have missed : env.batchElement id (t.world, responses) m = (t.world, responses) := by
        simp only [HttpEnv.batchElement, installed]
      rw [List.foldl_cons, List.foldl_cons, skipped, missed, ih]
    | some handler =>
      have taken : env.dispatchElement id (⟨t, true⟩, responses) m =
          (⟨{ t with world := (handler t.world m id true).1 }, true⟩,
            responses ++ (handler t.world m id true).2.emitted.head?.toList) := by
        simp only [HttpEnv.dispatchElement, installed]
      have same : env.batchElement id (t.world, responses) m = ((handler t.world m id true).1,
          responses ++ (handler t.world m id true).2.emitted.head?.toList) := by
        simp only [HttpEnv.batchElement, installed]
      rw [List.foldl_cons, List.foldl_cons, taken, same, ih]

/-- The guard makes no other difference than that deferral is on behind the batch. -/
theorem postBatch_eq (env : HttpEnv ω) (thread : IoThread ω) (batch : List Json) (reqId : SessionId) :
    (env.postBatch thread batch reqId).1.transport =
        (env.handlePostBatch thread.transport batch reqId).transport ∧
      (env.postBatch thread batch reqId).2 =
        (env.handlePostBatch thread.transport batch reqId).written := by
  unfold HttpEnv.postBatch HttpEnv.handlePostBatch
  split
  · exact ⟨rfl, rfl⟩
  split
  · exact ⟨rfl, rfl⟩
  cases thread.transport.findSession reqId with
  | none => exact ⟨rfl, rfl⟩
  | some session =>
    dsimp only
    split
    · have dispatched := dispatchElement_foldl env session.sessionId batch thread.transport []
      have entered : thread.beginBatchDispatch = ⟨thread.transport, true⟩ := rfl
      rw [entered, dispatched]
      exact ⟨rfl, rfl⟩
    · exact ⟨rfl, rfl⟩

variable (info : ServerInfo)

theorem element_emitted (s : Server υ) (m : Json) (id : SessionId) :
    if s.answersElement m then ∃ response,
      (serverHandler info s m id true).2.emitted = [response] ∧ AnswersElement m response
    else (serverHandler info s m id true).2.emitted = [] := by
  have outbound (id : RequestId) : (s.arrived m).isOutbound id = s.isOutbound id := rfl
  unfold Server.answersElement AnswersElement
  simp only [serverHandler, Server.onMessage]
  cases parsed : parseMessage m with
  | request req =>
    obtain ⟨answers, serving⟩ := processRequest_spec info req id (s.arrived m)
    have kept : (processRequest info req id (s.arrived m)).2.answers = s.answers := serving.answers
    refine ⟨(processRequest info req id (s.arrived m)).1, ?_, answers⟩
    simp [Server.respond, kept]
  | notification notif =>
    have kept : ((s.arrived m).processNotification notif).answers = s.answers :=
      (processNotification_queues (s.arrived m) notif).2
    simp [kept]
  | success resp =>
    have kept : ((s.arrived m).onClientResponse resp).answers = s.answers :=
      (onClientResponse_queues (s.arrived m) resp).2
    simp [kept]
  | error resp =>
    simp only [outbound]
    cases s.isOutbound resp.id with
    | false =>
      refine ⟨_, ?_, rfl⟩
      simp [Server.respond, Server.arrived]
    | true =>
      have kept : ((s.arrived m).onClientErrorResponse resp).answers = s.answers := by
        unfold Server.onClientErrorResponse
        split
        · exact (completeServerRequest_queues _ _ _ _).2.2.2
        · rfl
      simp [kept]

/-- Each element adds its answer, if it is to have one, behind those of the elements before it. -/
theorem batch_responses {env : HttpEnv ω} {view : ω → Server υ} {handler : MessageHandler ω}
    (installed : env.messageHandler = some handler) (serves : RunsOnMessage info view handler)
    (id : SessionId) (batch : List Json) (world : ω) (before : List Json) :
    ∃ responses, (batch.foldl (env.batchElement id) (world, before)).2 = before ++ responses ∧
      List.Forall₂ (fun visit response => AnswersElement visit.2 response)
        ((HttpEnv.visits handler id world batch).filter fun visit =>
          (view visit.1).answersElement visit.2) responses := by
  induction batch generalizing world before with
  | nil => exact ⟨[], (List.append_nil before).symm, .nil⟩
  | cons m batch ih =>
    have taken : env.batchElement id (world, before) m = ((handler world m id true).1,
        before ++ (handler world m id true).2.emitted.head?.toList) := by
      simp only [HttpEnv.batchElement, installed]
    obtain ⟨responses, folds, each⟩ := ih (handler world m id true).1
      (before ++ (handler world m id true).2.emitted.head?.toList)
    rw [List.foldl_cons, taken, folds]
    have emitted := element_emitted info (view world) m id
    rw [← serves world m id true] at emitted
    cases answered : (view world).answersElement m with
    | true =>
      rw [if_pos answered] at emitted
      obtain ⟨response, emitted, answers⟩ := emitted
      refine ⟨response :: responses, by simp [emitted], ?_⟩
      simp only [HttpEnv.visits, List.filter_cons, answered, if_true]
      exact .cons answers each
    | false =>
      rw [if_neg (by simp [answered])] at emitted
      refine ⟨responses, by simp [emitted], ?_⟩
      simp only [HttpEnv.visits, List.filter_cons, answered, Bool.false_eq_true, if_false]
      exact each

/-- A batch is answered once: with the array of the responses to its requests and of the errors
    that are no answers to the server, in their order, or with a 202 if there are none. The
    thread may defer again afterwards. -/
theorem batch_answered_in_place {env : HttpEnv ω} {view : ω → Server υ} {handler : MessageHandler ω}
    (installed : env.messageHandler = some handler) (serves : RunsOnMessage info view handler)
    (thread : IoThread ω) {id : SessionId} {session : HttpSession}
    (found : thread.transport.findSession id = some session) (live : session.initialized = true)
    {batch : List Json} (nonempty : batch ≠ []) :
    ∃ responses,
      List.Forall₂ (fun visit response => AnswersElement visit.2 response)
        ((HttpEnv.visits handler session.sessionId thread.transport.world batch).filter fun visit =>
          (view visit.1).answersElement visit.2) responses ∧
      (env.postBatch thread batch id).2 = [.response
        (if responses = [] then ⟨202, textPlain, [], sessionHeader session.sessionId⟩
        else env.jsonResponse 200 (.array responses) (sessionHeader session.sessionId))] ∧
      (env.postBatch thread batch id).1.batchDispatch = false := by
  obtain ⟨named, -⟩ := HttpTransport.findSession_some found
  have some_ : batch.isEmpty = false := by simpa using nonempty
  have unnamed : id.isEmpty = false := by simpa using named
  obtain ⟨responses, folds, each⟩ := batch_responses info installed serves session.sessionId batch
    thread.transport.world []
  rw [List.nil_append] at folds
  have dispatched := dispatchElement_foldl env session.sessionId batch thread.transport []
  have entered : thread.beginBatchDispatch = ⟨thread.transport, true⟩ := rfl
  refine ⟨responses, each, ?_⟩
  simp only [HttpEnv.postBatch, some_, unnamed, found, live, entered, dispatched, folds,
    Bool.false_eq_true, if_false, if_true, List.isEmpty_iff]
  exact ⟨True.intro, rfl⟩

def pooledThread : IoThread (Server Unit) where
  transport := { openTransport with world := { Server.initial () with executor := true } }

/-- A call that a worker would take, a notification, what is no message, and a ping. -/
def mixedBatch : List Json := [serializeRequest (callTool 7), initializedMessage, .null, pingMessage]

theorem mixed_batch_answered : ∃ responses,
    List.Forall₂ (fun visit response => AnswersElement visit.2 response)
      ((HttpEnv.visits (serverHandler {}) (ascii "s") pooledThread.transport.world mixedBatch).filter
        fun visit => visit.1.answersElement visit.2) responses ∧
    (serverEnv.postBatch pooledThread mixedBatch (ascii "s")).2 = [.response
      (if responses = [] then ⟨202, textPlain, [], sessionHeader (ascii "s")⟩
      else serverEnv.jsonResponse 200 (.array responses) (sessionHeader (ascii "s")))] ∧
    (serverEnv.postBatch pooledThread mixedBatch (ascii "s")).1.batchDispatch = false := by
  have serves : RunsOnMessage {} id (@serverHandler Unit {}) := fun _ _ _ _ => rfl
  have found : pooledThread.transport.findSession (ascii "s") = some ⟨ascii "s", true, []⟩ := by
    decide
  exact batch_answered_in_place {} rfl serves pooledThread found rfl (List.cons_ne_nil _ _)

end CppMcp
