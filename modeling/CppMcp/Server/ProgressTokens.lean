import CppMcp.Server.Calls

namespace CppMcp

open Lib

variable {υ : Type}

/-- A progress token as the protocol has it: a string or an `int64_t`. -/
def Json.IsToken : Json → Prop
  | .string _ | .integer _ => True
  | .unsigned n => n.toNat < 2 ^ 63
  | _ => False

def Sending.content : Sending → Json
  | .message notif => notif
  | .toSession _ notif => notif

/-- The sending takes a progress notification with this token to this session. -/
def Sending.ReportsOn (sending : Sending) (token : Json) (sessionId : SessionId) : Prop :=
  sending = addressed sending.content sessionId ∧
    (((sending.content.find? "params").bind fun params => params.find? "progressToken").any fun t =>
      t.equals token) = true

instance (sending : Sending) (token : Json) (sessionId : SessionId) :
    Decidable (sending.ReportsOn token sessionId) := inferInstanceAs (Decidable (_ ∧ _))

theorem progressParams_isNull (token : RequestId) (progress : Double) (total : Option Double) :
    (progressParams token progress total).isNull = false := by
  cases total <;> rfl

theorem progressParams_token (token : RequestId) (progress : Double) (total : Option Double) :
    (progressParams token progress total).find? "progressToken" = some (requestIdToJson token) := by
  cases total <;> simp [progressParams, find?_mk]

theorem addressed_content (notif : Json) (sessionId : SessionId) :
    (addressed notif sessionId).content = notif := by
  unfold addressed
  split <;> rfl

theorem reportsOn_iff (ctx : RequestContext) (progress : Double) (total : Option Double)
    (token : Json) : (addressed (serializeNotification ⟨Protocol.notifProgress,
        some (progressParams ctx.progressToken progress total)⟩) ctx.sessionId).ReportsOn token
      ctx.sessionId ↔ (requestIdToJson ctx.progressToken).equals token = true := by
  unfold Sending.ReportsOn
  rw [addressed_content]
  have params : (serializeNotification ⟨Protocol.notifProgress,
      some (progressParams ctx.progressToken progress total)⟩).find? "params" =
        some (progressParams ctx.progressToken progress total) := by
    simp [serializeNotification, find?_mk]
  rw [params, Option.bind_some, progressParams_token]
  simp

/-- What a context reports carries the token that the context has. -/
theorem reportProgress_iff (ctx : RequestContext) (s : Server υ) (token : Json) :
    (∀ (t : Server υ) progress total, ∀ sending ∈ ctx.reportProgress t progress total,
      sending.ReportsOn token ctx.sessionId) ↔
      (requestIdToJson ctx.progressToken).equals token = true := by
  constructor
  · intro all
    let t : Server υ := { s with transport := true, stopping := false }
    have sent : ctx.reportProgress t ⟨0⟩ none = [addressed (serializeNotification
        ⟨Protocol.notifProgress, some (progressParams ctx.progressToken ⟨0⟩ none)⟩)
          ctx.sessionId] :=
      sendNotification_addressed (s := t) rfl rfl _ (progressParams_isNull _ _ _) _
    apply (reportsOn_iff ctx ⟨0⟩ none token).mp
    apply all t ⟨0⟩ none
    rw [sent]
    exact List.mem_singleton.mpr rfl
  · intro same t progress total sending member
    by_cases sends : t.transport = true ∧ t.stopping = false
    · have sent : ctx.reportProgress t progress total = [addressed (serializeNotification
          ⟨Protocol.notifProgress, some (progressParams ctx.progressToken progress total)⟩)
            ctx.sessionId] :=
        sendNotification_addressed sends.1 sends.2 _ (progressParams_isNull _ _ _) _
      rw [sent] at member
      rw [List.mem_singleton.mp member]
      exact (reportsOn_iff ctx progress total token).mpr same
    · have silent : ctx.reportProgress t progress total = [] := by
        unfold RequestContext.reportProgress Server.notifyProgress Server.sendNotification
        rw [if_pos]
        simp only [Bool.or_eq_true, Bool.not_eq_true']
        grind
      rw [silent] at member
      cases member

/-- A token of either type comes back as it was sent. -/
theorem requestProgressToken_equals {params supplied token : Json} (id : RequestId)
    (found : params.find? "_meta" = some supplied)
    (given : supplied.find? "progressToken" = some token) (typed : token.IsToken) :
    (requestIdToJson (requestProgressToken id params)).equals token = true := by
  have member : params.objectMember "_meta" = supplied := by
    rw [objectMember_given found]
    cases supplied with
    | object members => rfl
    | _ => cases given
  unfold requestProgressToken
  rw [member, given]
  cases token with
  | string s =>
    show (requestIdToJson (.str s)).equals (.string s) = true
    simp [requestIdToJson, Json.equals]
  | integer n =>
    show (requestIdToJson (.int n.toInt)).equals (.integer n) = true
    simp [requestIdToJson, Json.ofInt, Json.equals]
  | unsigned n =>
    show (requestIdToJson (.int n.toInt64.toInt)).equals (.unsigned n) = true
    simp [requestIdToJson, Json.ofInt, Json.equals]
  | _ => cases typed

/-- What a called handler reports carries this token to this session, whenever it does. -/
def HandlerCall.Reports (υ : Type) (call : HandlerCall) (token : Json) (sessionId : SessionId) :
    Prop :=
  ∀ (t : Server (υ × List HandlerCall)) progress total,
    ∀ sending ∈ call.context.reportProgress t progress total, sending.ReportsOn token sessionId

/-- A handler's progress reports carry the client's token, to the session of the request, exactly
    if the handler is a tool's or the client's token is the id of its request. -/
theorem progress_tokens_honoured_iff (info : ServerInfo) (registry : Registry υ)
    (s : Server (υ × List HandlerCall)) (watch : s.handlers = registry.watched)
    (req : JsonRpcRequest) (carries : isDeferrable req.method = true) (sessionId : SessionId)
    (params supplied token : Json) (sent : req.params = some params)
    (found : params.find? "_meta" = some supplied)
    (given : supplied.find? "progressToken" = some token) (typed : token.IsToken) :
    ∃ calls, s.Called (processRequest info req sessionId s).2 calls ∧ ∀ call ∈ calls,
      (call.Reports υ token sessionId ↔
        req.method = Protocol.methodToolsCall ∨ (requestIdToJson req.id).equals token = true) := by
  obtain ⟨calls, called, contexts⟩ := processRequest_context watch info carries sessionId
  refine ⟨calls, called, fun call member => ?_⟩
  have reports := reportProgress_iff (requestContext req sessionId) s token
  unfold HandlerCall.Reports
  rw [contexts call member]
  refine reports.trans ?_
  unfold requestContext
  rw [sent, Option.getD_some]
  by_cases toolsCall : req.method = Protocol.methodToolsCall
  · simp only [toolsCall, if_true, true_or, iff_true]
    exact requestProgressToken_equals req.id found given typed
  · simp only [toolsCall, if_false, false_or]

def readWithToken : JsonRpcRequest :=
  ⟨.int 1, Protocol.methodResourcesRead, some (.mk [("uri", .string "file:///a"),
    ("_meta", .object [("progressToken", .string "t")])])⟩

def oneResource : Registry Unit where
  resources := [("file:///a", { uri := "file:///a", name := "a" }, fun _ _ => pure ⟨[]⟩)]

theorem read_reports_on_its_id :
    ∃ calls, (watchedServer oneResource).Called
      (processRequest {} readWithToken (ascii "a") (watchedServer oneResource)).2 calls ∧
      ∀ call ∈ calls, (call.Reports Unit (.string "t") (ascii "a") ↔
        readWithToken.method = Protocol.methodToolsCall ∨
          (requestIdToJson readWithToken.id).equals (.string "t") = true) :=
  progress_tokens_honoured_iff {} oneResource (watchedServer oneResource) rfl readWithToken rfl
    (ascii "a") _ _ (.string "t") rfl rfl rfl True.intro

/-- A client that waits for its own token never sees the progress of its read. -/
theorem read_loses_token :
    ∃ s, run (Server.step {}) (Server.initial ((), []))
      (watchedRun oneResource (ascii "a") readWithToken) = some s ∧
      ∃ call ∈ s.user.2, ∃ sending ∈ call.context.reportProgress s ⟨0⟩ none,
        ¬ sending.ReportsOn (.string "t") (ascii "a") :=
  ⟨_, rfl, .resource "file:///a" ⟨.int 1, .int 1, ascii "a"⟩, by decide, _,
    List.mem_singleton.mpr rfl, by decide⟩

end CppMcp
