import CppMcp.JsonRpc.Parse

namespace CppMcp

/-- The version member of JSON-RPC 2.0. -/
def Enveloped (raw : Json) : Prop := raw.find? "jsonrpc" = some (.string "2.0")

/-- Params are an object or an array; absent and null both stand for none. -/
inductive HasParams (raw : Json) : Option Json → Prop
  | absent (missing : raw.find? "params" = none) : HasParams raw none
  | null (found : raw.find? "params" = some .null) : HasParams raw none
  | object {members : List (String × Json)} (found : raw.find? "params" = some (.object members)) :
      HasParams raw (some (.object members))
  | array {elems : List Json} (found : raw.find? "params" = some (.array elems)) :
      HasParams raw (some (.array elems))

/-- An id is an integer or a string; the null of a response stands for itself. -/
inductive IsId : Json → RequestId → Prop
  | integer (n : Int64) : IsId (.integer n) (.int n.toInt)
  | unsigned (n : UInt64) : IsId (.unsigned n) (.int n.toInt64.toInt)
  | string (s : String) : IsId (.string s) (.str s)

structure IsRequest (raw : Json) (req : JsonRpcRequest) : Prop where
  enveloped : Enveloped raw
  id : ∃ id, raw.find? "id" = some id ∧ IsId id req.id
  method : raw.find? "method" = some (.string req.method)
  params : HasParams raw req.params

structure IsNotification (raw : Json) (notif : JsonRpcNotification) : Prop where
  enveloped : Enveloped raw
  noId : raw.find? "id" = none
  method : raw.find? "method" = some (.string notif.method)
  params : HasParams raw notif.params

structure IsSuccess (raw : Json) (resp : JsonRpcSuccessResponse) : Prop where
  enveloped : Enveloped raw
  id : ∃ id, raw.find? "id" = some id ∧ (IsId id resp.id ∨ id = .null ∧ resp.id = .null)
  noMethod : raw.find? "method" = none
  result : raw.find? "result" = some resp.result

/-- An id of no permitted type, in a message that is no request. -/
structure HasBadId (raw : Json) : Prop where
  enveloped : Enveloped raw
  id : ∃ id, raw.find? "id" = some id ∧ id ≠ .null ∧ ∀ rid, ¬ IsId id rid
  noMethod : raw.find? "method" = none

theorem checkJsonrpcEnvelope_iff (raw : Json) : checkJsonrpcEnvelope raw = true ↔ Enveloped raw := by
  simp [checkJsonrpcEnvelope, Enveloped]

theorem params_iff (raw : Json) (params : Option Json) :
    HasParams raw params ↔ paramsOk raw = true ∧ params = keptParams raw := by
  constructor
  · rintro (found | found | found | found) <;>
      simp [paramsOk, keptParams, found, Json.isNull, Json.isObject, Json.isArray]
  · rintro ⟨ok, rfl⟩
    unfold paramsOk at ok
    unfold keptParams
    cases found : raw.find? "params" with
    | none => exact .absent found
    | some p =>
      simp only [found] at ok
      cases p with
      | null => exact .null found
      | object members => exact .object found
      | array elems => exact .array found
      | _ => cases ok

theorem fromJson_iff (id : Json) (rid : RequestId) :
    RequestId.fromJson id = .ok rid ↔ IsId id rid ∨ id = .null ∧ rid = .null := by
  constructor
  · intro parsed
    cases id with
    | null => exact .inr ⟨rfl, (Except.ok.inj parsed).symm⟩
    | integer n => exact .inl (Except.ok.inj parsed ▸ .integer n)
    | unsigned n => exact .inl (Except.ok.inj parsed ▸ .unsigned n)
    | string s => exact .inl (Except.ok.inj parsed ▸ .string s)
    | _ => cases parsed
  · rintro (typed | ⟨rfl, rfl⟩)
    · cases typed <;> rfl
    · rfl

theorem requestIdFromJson_iff (id : Json) (rid : RequestId) :
    requestIdFromJson id = some rid ↔ IsId id rid := by
  constructor
  · intro parsed
    cases id with
    | integer n => exact Option.some.inj parsed ▸ .integer n
    | unsigned n => exact Option.some.inj parsed ▸ .unsigned n
    | string s => exact Option.some.inj parsed ▸ .string s
    | _ => cases parsed
  · intro typed
    cases typed <;> rfl

/-- What both parsers do, where `response` reads what names no method. -/
def parseWith (response : RequestId → Except Exn ParsedMessage) (refusal : String) (raw : Json) :
    ParsedMessage := orParseError do
  if !checkJsonrpcEnvelope raw then
    return invalidRequest .null "Invalid or missing jsonrpc version"
  match raw.find? "id" with
  | some id =>
    if raw.contains "method" then return parseRequest raw id
    let id ← RequestId.fromJson id
    response id
  | none =>
    if raw.contains "method" then return parseNotification raw
    return invalidRequest .null refusal

/-- How `parse_message` reads a response. -/
def serverResponse (raw : Json) (id : RequestId) : Except Exn ParsedMessage :=
  match raw.find? "result" with
  | some result => .ok (.success ⟨id, result⟩)
  | none => .ok (invalidRequest id "Server received a response message (unexpected)")

/-- How `parse_message_client` reads a response. -/
def clientResponse (raw : Json) (id : RequestId) : Except Exn ParsedMessage :=
  match raw.find? "result" with
  | some result => .ok (.success ⟨id, result⟩)
  | none =>
    match raw.find? "error" with
    | some err =>
      if err.isObject then (errorDetail err).map fun detail => .error ⟨id, detail⟩
      else .ok (invalidRequest id "Response has neither result nor error")
    | none => .ok (invalidRequest id "Server received a response message (unexpected)")

theorem parseMessage_eq (raw : Json) : parseMessage raw =
    parseWith (serverResponse raw) "Message must have method or be a valid request" raw := rfl

theorem parseMessageClient_eq (raw : Json) : parseMessageClient raw =
    parseWith (clientResponse raw) "Message must have method or be a valid request/response" raw := rfl

section
variable {response : RequestId → Except Exn ParsedMessage} {refusal : String} {raw id method : Json}

theorem parseWith_unversioned (plain : ¬ Enveloped raw) : parseWith response refusal raw =
    invalidRequest .null "Invalid or missing jsonrpc version" := by
  rw [← checkJsonrpcEnvelope_iff, Bool.not_eq_true] at plain
  simp only [parseWith, plain]
  rfl

theorem parseWith_request (enveloped : Enveloped raw) (found : raw.find? "id" = some id)
    (named : raw.find? "method" = some method) :
    parseWith response refusal raw = parseRequest raw id := by
  have envelope := (checkJsonrpcEnvelope_iff raw).mpr enveloped
  simp only [parseWith, envelope, found, Json.contains, named]
  rfl

theorem parseWith_notification (enveloped : Enveloped raw) (noId : raw.find? "id" = none)
    (named : raw.find? "method" = some method) :
    parseWith response refusal raw = parseNotification raw := by
  have envelope := (checkJsonrpcEnvelope_iff raw).mpr enveloped
  simp only [parseWith, envelope, noId, Json.contains, named]
  rfl

theorem parseWith_response (enveloped : Enveloped raw) (found : raw.find? "id" = some id)
    (noMethod : raw.find? "method" = none) :
    parseWith response refusal raw = orParseError (RequestId.fromJson id >>= response) := by
  have envelope := (checkJsonrpcEnvelope_iff raw).mpr enveloped
  simp only [parseWith, envelope, found, Json.contains, noMethod]
  rfl

theorem parseWith_neither (enveloped : Enveloped raw) (noId : raw.find? "id" = none)
    (noMethod : raw.find? "method" = none) :
    parseWith response refusal raw = invalidRequest .null refusal := by
  have envelope := (checkJsonrpcEnvelope_iff raw).mpr enveloped
  simp only [parseWith, envelope, noId, Json.contains, noMethod]
  rfl

theorem parseWith_isRequest {req : JsonRpcRequest} (is : IsRequest raw req) :
    parseWith response refusal raw = .request req := by
  obtain ⟨id, found, typed⟩ := is.id
  obtain ⟨ok, kept⟩ := (params_iff raw req.params).mp is.params
  have parsed := (requestIdFromJson_iff id req.id).mpr typed
  rw [parseWith_request is.enveloped found is.method]
  simp [parseRequest, parsed, is.method, ok, ← kept]

theorem parseWith_isNotification {notif : JsonRpcNotification} (is : IsNotification raw notif) :
    parseWith response refusal raw = .notification notif := by
  obtain ⟨ok, kept⟩ := (params_iff raw notif.params).mp is.params
  rw [parseWith_notification is.enveloped is.noId is.method]
  simp [parseNotification, is.method, ok, ← kept]

theorem parseWith_responds {rid : RequestId} {m : ParsedMessage} (enveloped : Enveloped raw)
    (found : raw.find? "id" = some id) (noMethod : raw.find? "method" = none)
    (parsed : RequestId.fromJson id = .ok rid) (responded : response rid = .ok m) :
    parseWith response refusal raw = m := by
  rw [parseWith_response enveloped found noMethod, parsed]
  show orParseError (response rid) = m
  rw [responded]
  rfl

end

theorem parseMessage_request {raw : Json} {req : JsonRpcRequest} (is : IsRequest raw req) :
    parseMessage raw = .request req := by
  rw [parseMessage_eq]
  exact parseWith_isRequest is

theorem parseMessageClient_request {raw : Json} {req : JsonRpcRequest} (is : IsRequest raw req) :
    parseMessageClient raw = .request req := by
  rw [parseMessageClient_eq]
  exact parseWith_isRequest is

theorem parseMessage_notification {raw : Json} {notif : JsonRpcNotification}
    (is : IsNotification raw notif) : parseMessage raw = .notification notif := by
  rw [parseMessage_eq]
  exact parseWith_isNotification is

theorem parseMessageClient_notification {raw : Json} {notif : JsonRpcNotification}
    (is : IsNotification raw notif) : parseMessageClient raw = .notification notif := by
  rw [parseMessageClient_eq]
  exact parseWith_isNotification is

theorem parseMessage_success {raw : Json} {resp : JsonRpcSuccessResponse}
    (is : IsSuccess raw resp) : parseMessage raw = .success resp := by
  obtain ⟨id, found, typed⟩ := is.id
  have parsed := (fromJson_iff id resp.id).mpr typed
  rw [parseMessage_eq]
  apply parseWith_responds is.enveloped found is.noMethod parsed
  simp only [serverResponse, is.result]

theorem parseMessageClient_success {raw : Json} {resp : JsonRpcSuccessResponse}
    (is : IsSuccess raw resp) : parseMessageClient raw = .success resp := by
  obtain ⟨id, found, typed⟩ := is.id
  have parsed := (fromJson_iff id resp.id).mpr typed
  rw [parseMessageClient_eq]
  apply parseWith_responds is.enveloped found is.noMethod parsed
  simp only [clientResponse, is.result]

theorem parseMessage_badId {raw : Json} (is : HasBadId raw) :
    ∃ resp, parseMessage raw = .error resp ∧ resp.error.code = Protocol.parseError := by
  obtain ⟨id, found, present, untyped⟩ := is.id
  rw [parseMessage_eq, parseWith_response is.enveloped found is.noMethod]
  cases parsed : RequestId.fromJson id with
  | error e => exact ⟨_, rfl, rfl⟩
  | ok rid =>
    rcases (fromJson_iff id rid).mp parsed with typed | ⟨null, -⟩
    · exact absurd typed (untyped rid)
    · exact absurd null present

/-- What a message is, and what the parser makes of it. -/
inductive Classified (raw : Json) : ParsedMessage → Prop
  | request {req : JsonRpcRequest} (is : IsRequest raw req) : Classified raw (.request req)
  | notification {notif : JsonRpcNotification} (is : IsNotification raw notif) :
      Classified raw (.notification notif)
  | success {resp : JsonRpcSuccessResponse} (is : IsSuccess raw resp) :
      Classified raw (.success resp)
  | badId {resp : JsonRpcErrorResponse} (is : HasBadId raw)
      (code : resp.error.code = Protocol.parseError) : Classified raw (.error resp)
  | invalid (id : RequestId) (why : String) : Classified raw (invalidRequest id why)

/-- The branch for `id` and `method` gives a request or refuses the message. -/
theorem parseRequest_classified {raw id method : Json} (enveloped : Enveloped raw)
    (found : raw.find? "id" = some id) (named : raw.find? "method" = some method) :
    Classified raw (parseRequest raw id) := by
  unfold parseRequest
  cases parsed : requestIdFromJson id with
  | none => exact .invalid _ _
  | some rid =>
    have typed := (requestIdFromJson_iff id rid).mp parsed
    rw [named]
    cases method with
    | string name =>
      cases ok : paramsOk raw with
      | true =>
        exact .request ⟨enveloped, ⟨id, found, typed⟩, named, (params_iff _ _).mpr ⟨ok, rfl⟩⟩
      | false => exact .invalid _ _
    | _ => exact .invalid _ _

theorem parseNotification_classified {raw method : Json} (enveloped : Enveloped raw)
    (noId : raw.find? "id" = none) (named : raw.find? "method" = some method) :
    Classified raw (parseNotification raw) := by
  unfold parseNotification
  rw [named]
  cases method with
  | string name =>
    cases ok : paramsOk raw with
    | true => exact .notification ⟨enveloped, noId, named, (params_iff _ _).mpr ⟨ok, rfl⟩⟩
    | false => exact .invalid _ _
  | _ => exact .invalid _ _

theorem parseMessage_classified (raw : Json) : Classified raw (parseMessage raw) := by
  rw [parseMessage_eq]
  by_cases enveloped : Enveloped raw
  · cases found : raw.find? "id" with
    | none =>
      cases named : raw.find? "method" with
      | none =>
        rw [parseWith_neither enveloped found named]
        exact .invalid _ _
      | some method =>
        rw [parseWith_notification enveloped found named]
        exact parseNotification_classified enveloped found named
    | some id =>
      cases named : raw.find? "method" with
      | some method =>
        rw [parseWith_request enveloped found named]
        exact parseRequest_classified enveloped found named
      | none =>
        rw [parseWith_response enveloped found named]
        cases parsed : RequestId.fromJson id with
        | error e =>
          refine .badId ⟨enveloped, ⟨id, found, ?_, fun rid typed => ?_⟩, named⟩ rfl
          · rintro rfl
            cases parsed
          · rw [(fromJson_iff id rid).mpr (.inl typed)] at parsed
            cases parsed
        | ok rid =>
          show Classified raw (orParseError (serverResponse raw rid))
          unfold serverResponse
          cases result : raw.find? "result" with
          | some result' =>
            exact .success ⟨enveloped, ⟨id, found, (fromJson_iff id rid).mp parsed⟩, named, result⟩
          | none => exact .invalid _ _
  · rw [parseWith_unversioned enveloped]
    exact .invalid _ _

theorem parseMessage_isRequest {raw : Json} {req : JsonRpcRequest}
    (parsed : parseMessage raw = .request req) : IsRequest raw req := by
  have classified := parseMessage_classified raw
  rw [parsed] at classified
  cases classified with
  | request is => exact is

/-- `parse_message` accepts exactly the grammar, and tells the two errors apart. -/
theorem parseMessage_grammar (raw : Json) :
    (∀ req, parseMessage raw = .request req ↔ IsRequest raw req) ∧
    (∀ notif, parseMessage raw = .notification notif ↔ IsNotification raw notif) ∧
    (∀ resp, parseMessage raw = .success resp ↔ IsSuccess raw resp) ∧
    ((∃ resp, parseMessage raw = .error resp ∧ resp.error.code = Protocol.parseError) ↔
      HasBadId raw) ∧
    ((∃ resp, parseMessage raw = .error resp ∧ resp.error.code = Protocol.invalidRequest) ↔
      (∀ req, ¬ IsRequest raw req) ∧ (∀ notif, ¬ IsNotification raw notif) ∧
        (∀ resp, ¬ IsSuccess raw resp) ∧ ¬ HasBadId raw) := by
  have codes : Protocol.parseError ≠ Protocol.invalidRequest := by decide
  have classified := parseMessage_classified raw
  refine ⟨fun req => ⟨parseMessage_isRequest, parseMessage_request⟩,
    fun notif => ⟨fun parsed => ?_, parseMessage_notification⟩,
    fun resp => ⟨fun parsed => ?_, parseMessage_success⟩, ⟨?_, parseMessage_badId⟩, ?_, ?_⟩
  · rw [parsed] at classified
    cases classified with
    | notification is => exact is
  · rw [parsed] at classified
    cases classified with
    | success is => exact is
  · rintro ⟨resp, parsed, code⟩
    rw [parsed] at classified
    cases classified with
    | badId is => exact is
    | invalid => exact absurd code codes.symm
  · rintro ⟨resp, parsed, code⟩
    refine ⟨fun req is => ?_, fun notif is => ?_, fun resp is => ?_, fun is => ?_⟩
    · rw [parseMessage_request is] at parsed
      cases parsed
    · rw [parseMessage_notification is] at parsed
      cases parsed
    · rw [parseMessage_success is] at parsed
      cases parsed
    · obtain ⟨other, parsed', code'⟩ := parseMessage_badId is
      rw [parsed] at parsed'
      cases parsed'
      exact codes (code'.symm.trans code)
  · rintro ⟨noRequest, noNotification, noSuccess, noBadId⟩
    generalize parseMessage raw = parsed at classified
    cases classified with
    | request is => exact absurd is (noRequest _)
    | notification is => exact absurd is (noNotification _)
    | success is => exact absurd is (noSuccess _)
    | badId is => exact absurd is noBadId
    | invalid id why => exact ⟨_, rfl, rfl⟩

end CppMcp
