import CppMcp.Server.Ids

namespace CppMcp

open Lib

variable {υ : Type}

/-- An error response to the request `n`, as the client sends it. -/
structure IsErrorAnswer (raw : Json) (n code : Int) (message : String) : Prop where
  enveloped : Enveloped raw
  id : ∃ id, raw.find? "id" = some id ∧ IsId id (.int n)
  noMethod : raw.find? "method" = none
  noResult : raw.find? "result" = none
  error : ∃ err number, raw.find? "error" = some err ∧ err.find? "code" = some number ∧
    number.integerValue = some code ∧ err.find? "message" = some (.string message)

/-- The code and the message that `on_error` is called with. -/
def errorArguments (payload : Json) : Except Exn (Int × String) :=
  if payload.isObject then do
    let code ← payload.value Json.getInt "code" Protocol.internalError
    let message ← payload.value Json.getString "message" "client error"
    return (code, message)
  else .ok (Protocol.internalError, "client error")

/-- Between two states, `on_error` of the request `n` was called with these arguments. -/
structure ErrorReported (s s' : Server υ) (n code : Int) (message : String) : Prop where
  removed : s'.outboundPending = s.outboundPending.erase n
  reported : ∃ payload, s'.completions = s.completions ++ [⟨n, false, payload⟩] ∧
    errorArguments payload = .ok (code, message)

/-- What the parser puts in place of every error that a client sends. -/
def strayDetail : JsonRpcErrorDetail :=
  ⟨Protocol.invalidRequest, "Server received a response message (unexpected)", none⟩

theorem callback_error (p : OutboundPending υ) {payload : Json} {code : Int} {message : String}
    (arguments : errorArguments payload = .ok (code, message)) (user : υ) :
    (p.callback false payload).run.run user = (p.onError code message).run.run user := by
  unfold errorArguments at arguments
  unfold OutboundPending.callback
  split at arguments
  · rename_i object
    obtain ⟨number, readCode, arguments⟩ := bind_eq_ok.mp arguments
    obtain ⟨text, readMessage, arguments⟩ := bind_eq_ok.mp arguments
    cases arguments
    rw [if_neg (by decide), if_pos object, readCode, readMessage]
    rfl
  · rename_i other
    cases arguments
    rw [if_neg (by decide), if_neg other]

theorem IsErrorAnswer.parsed {raw : Json} {n code : Int} {message : String}
    (answer : IsErrorAnswer raw n code message) :
    parseMessage raw = .error ⟨.int n, strayDetail⟩ := by
  obtain ⟨id, found, typed⟩ := answer.id
  have decoded := (fromJson_iff id (.int n)).mpr (.inl typed)
  have envelope := (checkJsonrpcEnvelope_iff raw).mpr answer.enveloped
  unfold parseMessage
  simp only [envelope, found, answer.noResult, Json.contains, answer.noMethod, decoded]
  rfl

theorem errorArguments_stray :
    errorArguments (errorObject strayDetail.code strayDetail.message strayDetail.data) =
      .ok (strayDetail.code, strayDetail.message) := by
  rfl

variable (info : ServerInfo)

theorem onMessage_error {s : Server υ} {raw : Json} {n code : Int} {message : String}
    {p : OutboundPending υ} (answer : IsErrorAnswer raw n code message)
    (outstanding : s.outboundPending.lookup n = some p) (sessionId : SessionId) (batch : Bool) :
    s.onMessage info raw sessionId batch = (s.arrived raw).completeServerRequest n false
      (errorObject strayDetail.code strayDetail.message strayDetail.data) := by
  have outbound : (s.arrived raw).isOutbound (.int n) = true := by
    show ((s.arrived raw).outboundPending.lookup n).isSome = true
    rw [show (s.arrived raw).outboundPending = s.outboundPending from rfl, outstanding]
    rfl
  simp only [Server.onMessage, answer.parsed, outbound]
  rfl

theorem callBack_tables (s : Server υ) (callback : Handler υ Unit) :
    (s.callBack callback).outboundPending = s.outboundPending ∧
      (s.callBack callback).nextOutboundId = s.nextOutboundId ∧
      (s.callBack callback).completions = s.completions ∧
      (s.callBack callback).user = (callback.run.run s.user).2 := by
  unfold Server.callBack
  split
  · rename_i after
    rw [after]
    exact ⟨rfl, rfl, rfl, rfl⟩
  · rename_i after
    rw [after]
    exact ⟨rfl, rfl, rfl, rfl⟩
  · rename_i after
    rw [after]
    exact ⟨rfl, rfl, rfl, rfl⟩

theorem completeServerRequest_tables {s : Server υ} {n : Int} {p : OutboundPending υ}
    (outstanding : s.outboundPending.lookup n = some p) (ok : Bool) (payload : Json) :
    (s.completeServerRequest n ok payload).outboundPending = s.outboundPending.erase n ∧
      (s.completeServerRequest n ok payload).completions = s.completions ++ [⟨n, ok, payload⟩] ∧
      (s.completeServerRequest n ok payload).user =
        ((p.callback ok payload).run.run s.user).2 := by
  unfold Server.completeServerRequest
  rw [outstanding]
  obtain ⟨removed, -, completed, called⟩ := callBack_tables { s with
    outboundPending := s.outboundPending.erase n, completions := s.completions ++ [⟨n, ok, payload⟩] }
    (p.callback ok payload)
  exact ⟨removed, completed, called⟩

/-- The entry of an answered request goes and its `on_error` runs, but with the code and the
    message of a stray response; the client's own arrive only where they are these. -/
theorem client_error_reported_iff (s : Server υ) (p : OutboundPending υ) (raw : Json)
    (n code : Int) (message : String) (outstanding : s.outboundPending.lookup n = some p)
    (answer : IsErrorAnswer raw n code message) (sessionId : SessionId) (batch : Bool) :
    (ErrorReported s (s.onMessage info raw sessionId batch) n code message ↔
      code = Protocol.invalidRequest ∧
        message = "Server received a response message (unexpected)") ∧
    (∀ code' message', ErrorReported s (s.onMessage info raw sessionId batch) n code' message' →
      (s.onMessage info raw sessionId batch).user =
        ((p.onError code' message').run.run s.user).2) := by
  obtain ⟨removed, completed, called⟩ := completeServerRequest_tables
    (s := s.arrived raw) outstanding false
    (errorObject strayDetail.code strayDetail.message strayDetail.data)
  rw [onMessage_error info answer outstanding]
  have arguments {code' : Int} {message' : String} (reported : ErrorReported s
      ((s.arrived raw).completeServerRequest n false
        (errorObject strayDetail.code strayDetail.message strayDetail.data)) n code' message') :
      code' = strayDetail.code ∧ message' = strayDetail.message := by
    obtain ⟨payload, added, read⟩ := reported.reported
    rw [completed] at added
    cases List.append_cancel_left added
    rw [errorArguments_stray] at read
    cases read
    exact ⟨rfl, rfl⟩
  refine ⟨⟨arguments, ?_⟩, fun code' message' reported => ?_⟩
  · rintro ⟨rfl, rfl⟩
    exact ⟨removed, _, completed, errorArguments_stray⟩
  · obtain ⟨rfl, rfl⟩ := arguments reported
    rw [called, callback_error p errorArguments_stray]
    rfl

/-- The client turns the request 1 down, as its user wants. -/
def declined : Json := makeErrorResponse (.int 1) (-1) "User rejected sampling request"

theorem isErrorAnswer_stray : IsErrorAnswer (makeErrorResponse (.int 1) strayDetail.code
    strayDetail.message) 1 strayDetail.code strayDetail.message :=
  ⟨rfl, ⟨_, rfl, .integer 1⟩, rfl, rfl, ⟨_, _, rfl, rfl, rfl, rfl⟩⟩

/-- A running server asks for a sampling and keeps the code of the error that it gets. -/
def asking : List (ServerEvent Int) :=
  [.runs true, .requestsSampling {}
    { onError := some fun code _ => ExceptT.mk fun _ => (.ok (), code) } [] true]

theorem stray_error_reported : ∃ s, run (Server.step {}) (Server.initial 0) asking = some s ∧
    ErrorReported s (s.onMessage {} (makeErrorResponse (.int 1) strayDetail.code
      strayDetail.message) [] false) 1 strayDetail.code strayDetail.message := by
  refine ⟨_, rfl, ?_⟩
  exact (client_error_reported_iff {} _ _ _ 1 _ _ rfl isErrorAnswer_stray [] false).1.mpr
    ⟨rfl, rfl⟩

/-- The callback hears of an invalid request, where the client's user said no. -/
theorem rejection_lost : ∃ s, run (Server.step {}) (Server.initial 0) asking = some s ∧
    (s.outboundPending.lookup 1).isSome = true ∧
    IsErrorAnswer declined 1 (-1) "User rejected sampling request" ∧
    (s.onMessage {} declined [] false).user = -32600 ∧
    ¬ ErrorReported s (s.onMessage {} declined [] false) 1 (-1)
      "User rejected sampling request" := by
  refine ⟨_, rfl, rfl, ⟨rfl, ⟨_, rfl, .integer 1⟩, rfl, rfl, ⟨_, _, rfl, rfl, rfl, rfl⟩⟩, rfl,
    fun reported => ?_⟩
  obtain ⟨payload, added, read⟩ := reported.reported
  cases added
  cases read

end CppMcp
