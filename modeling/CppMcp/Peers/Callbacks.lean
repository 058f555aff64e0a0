import CppMcp.Client.Replies
import CppMcp.Peers.Answered
import CppMcp.Peers.Dialing

namespace CppMcp

open Lib

theorem processRequest_responds {υ : Type} (info : ServerInfo) (req : JsonRpcRequest)
    (sessionId : SessionId) (s : Server υ) :
    isResponse (processRequest info req sessionId s).1 = true := by
  rcases processRequest_written info req sessionId s with
    ⟨result, written⟩ | ⟨code, message, data, written⟩
  · rw [written]
    exact makeSuccessResponse_responds req.id result
  · rw [written]
    exact makeErrorResponse_responds req.id code message data

/-- What a client takes for a request, a server would too. -/
theorem client_request_agrees {raw : Json} {req : JsonRpcRequest}
    (parsed : parseMessageClient raw = .request req) : parseMessage raw = .request req := by
  by_cases errs : IsErrorResponse raw
  · obtain ⟨id, found, -⟩ := errs.id
    obtain ⟨err, error, object⟩ := errs.error
    rw [parseMessageClient_eq, parseWith_response errs.enveloped found errs.noMethod] at parsed
    cases read : RequestId.fromJson id with
    | error e =>
      rw [read] at parsed
      cases parsed
    | ok rid =>
      rw [read] at parsed
      simp only [bind, Except.bind, clientResponse, errs.noResult, error, object, if_true] at parsed
      cases detail : errorDetail err with
      | error e =>
        rw [detail] at parsed
        cases parsed
      | ok detail' =>
        rw [detail] at parsed
        cases parsed
  · have agrees := parsers_agree raw errs
    rw [parsed] at agrees
    generalize parseMessage raw = read at agrees
    cases agrees
    rfl

/-- The message leads to no response of the client that gets it. -/
def Mute (m : Json) : Prop := inboundRequest m.reread = none

theorem mute_of_asks_nothing {m : Json} (nothing : ∀ req, parseMessage m.reread ≠ .request req) :
    Mute m :=
  inboundRequest_none fun req parsed => nothing req (client_request_agrees parsed)

theorem response_mute {m : Json} (response : isResponse m = true) : Mute m :=
  mute_of_asks_nothing (response_asks_nothing response)

theorem notification_mute (notif : JsonRpcNotification) : Mute (serializeNotification notif) :=
  mute_of_asks_nothing (notification_asks_nothing notif)

theorem asked_inbound {n : Int} (fits : (RequestId.int n).Fits) (method : String) {params : Json}
    (keyed : params.isObject = true) :
    inboundRequest (serializeRequest ⟨.int n, method, some params⟩).reread =
      some ⟨.int n, method, some params.reread⟩ := by
  have structured : Structured (some params) := fun p same => .inl (Option.some.inj same ▸ keyed)
  have reads := @serializeRequest_reread ⟨.int n, method, some params⟩ fits nofun structured
  rw [inboundRequest, parseMessageClient_request reads]
  rfl

/-- What the server calls back for what the client's handler did. Of an error it learns no
    detail. -/
def completedAs (n : Int) : Except Exn Json → CompletedRequest
  | .ok result => ⟨n, true, result.reread⟩
  | .error _ =>
    ⟨n, false, errorObject strayDetail.code strayDetail.message strayDetail.data⟩

theorem completedAs_id (n : Int) (outcome : Except Exn Json) : (completedAs n outcome).id = n := by
  cases outcome <;> rfl

theorem completedAs_eta (n : Int) (outcome : Except Exn Json) :
    ⟨n, (completedAs n outcome).ok, (completedAs n outcome).payload⟩ = completedAs n outcome := by
  cases outcome <;> rfl

theorem makeErrorResponse_stray {id : RequestId} (fits : id.Fits) (code : Int) (message : String)
    (data : Option Json) : parseMessage (makeErrorResponse id code message data).reread =
      .error ⟨id, strayDetail⟩ := by
  obtain ⟨enveloped, found, noMethod, noResult, -⟩ := makeErrorResponse_reread id code message data
  rw [parseMessage_eq, parseWith_response enveloped found noMethod, requestId_reread fits]
  simp only [bind, Except.bind, serverResponse, noResult]
  rfl

/-- How the server reads a client's response to a request of its own. -/
theorem reply_read {n : Int} (fits : (RequestId.int n).Fits) (outcome : Except Exn Json) :
    (completedAs n outcome).ok = true ∧
        parseMessage (inboundResponse (.int n) outcome).reread =
          .success ⟨.int n, (completedAs n outcome).payload⟩ ∨
      (completedAs n outcome).ok = false ∧ ∃ error,
        parseMessage (inboundResponse (.int n) outcome).reread = .error ⟨.int n, error⟩ ∧
          (completedAs n outcome).payload = errorObject error.code error.message error.data := by
  rcases inboundResponse_cases (.int n) outcome with
    ⟨result, rfl, eq⟩ | ⟨⟨e, rfl⟩, code, message, data, eq⟩
  · exact .inl ⟨rfl, by rw [eq, parseMessage_success (makeSuccessResponse_reread fits result)]; rfl⟩
  · exact .inr ⟨rfl, strayDetail, by rw [eq, makeErrorResponse_stray fits], rfl⟩

theorem inboundAnswer_outbound (env : ClientEnv) (id : RequestId) {method : String} (params : Json)
    (outbound : isOutboundMethod method) : inboundAnswer env ⟨id, method, some params⟩ =
      inboundResponse id (inboundResult env method params) := by
  have other : method ≠ Protocol.methodPing := by
    rintro rfl
    rcases outbound with eq | eq | eq <;> exact absurd eq (by decide)
  unfold inboundAnswer
  rw [if_neg other]
  exact if_pos outbound

end CppMcp
