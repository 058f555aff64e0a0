import CppMcp.JsonRpc.Grammar
import CppMcp.Lib.Effect

namespace CppMcp

open Lib

/-- The id of a parsed message, when it is of a kind that has one. -/
def ParsedMessage.id? : ParsedMessage → Option RequestId
  | .request req => some req.id
  | .notification _ => none
  | .success resp => some resp.id
  | .error resp => some resp.id

/-- A response to the request of an id, a success or an error. -/
def ParsedMessage.Answers (id : RequestId) : ParsedMessage → Prop
  | .success resp => resp.id = id
  | .error resp => resp.id = id
  | _ => False

theorem ParsedMessage.Answers.id? {id : RequestId} {m : ParsedMessage} (answers : m.Answers id) :
    m.id? = some id := by
  cases m with
  | success resp => exact congrArg some answers
  | error resp => exact congrArg some answers
  | _ => cases answers

theorem serverResponse_answers {raw : Json} {id : RequestId} {m : ParsedMessage}
    (responded : serverResponse raw id = .ok m) : m.Answers id := by
  unfold serverResponse at responded
  split at responded
  · cases responded
    rfl
  · cases responded
    rfl

theorem clientResponse_answers {raw : Json} {id : RequestId} {m : ParsedMessage}
    (responded : clientResponse raw id = .ok m) : m.Answers id := by
  unfold clientResponse at responded
  split at responded
  · cases responded
    rfl
  · split at responded
    · split at responded
      · obtain ⟨detail, -, same⟩ := map_eq_ok.mp responded
        cases same
        rfl
      · cases responded
        rfl
    · cases responded
      rfl

/-- The same message, up to the text and the data of an error. -/
inductive ParsedMessage.Agrees : ParsedMessage → ParsedMessage → Prop
  | request (req : JsonRpcRequest) : Agrees (.request req) (.request req)
  | notification (notif : JsonRpcNotification) : Agrees (.notification notif) (.notification notif)
  | success (resp : JsonRpcSuccessResponse) : Agrees (.success resp) (.success resp)
  | error {resp resp' : JsonRpcErrorResponse} (id : resp.id = resp'.id)
      (code : resp.error.code = resp'.error.code) : Agrees (.error resp) (.error resp')

theorem ParsedMessage.Agrees.refl (m : ParsedMessage) : m.Agrees m := by
  cases m with
  | request req => exact .request req
  | notification notif => exact .notification notif
  | success resp => exact .success resp
  | error resp => exact .error rfl rfl

/-- A response of an error object and no result, with an id that can be read. -/
structure IsErrorResponse (raw : Json) : Prop where
  enveloped : Enveloped raw
  id : ∃ id, raw.find? "id" = some id ∧ (id = .null ∨ ∃ rid, IsId id rid)
  noMethod : raw.find? "method" = none
  noResult : raw.find? "result" = none
  error : ∃ err, raw.find? "error" = some err ∧ err.isObject = true

/-- Only an error object is read by one parser and not by the other. -/
theorem responses_agree {raw : Json} (id : RequestId) (noError : raw.find? "result" = none →
      ∀ err, raw.find? "error" = some err → err.isObject = false) :
    (orParseError (serverResponse raw id)).Agrees (orParseError (clientResponse raw id)) := by
  unfold serverResponse clientResponse
  cases absent : raw.find? "result" with
  | some result => exact .success ⟨id, result⟩
  | none =>
    cases found : raw.find? "error" with
    | none => exact .error rfl rfl
    | some err =>
      simp only [noError absent err found]
      exact .error rfl rfl

/-- The parsers of server and client agree on all but the responses with an error object. -/
theorem parsers_agree (raw : Json) (other : ¬ IsErrorResponse raw) :
    (parseMessage raw).Agrees (parseMessageClient raw) := by
  rw [parseMessage_eq, parseMessageClient_eq]
  by_cases enveloped : Enveloped raw
  · cases found : raw.find? "id" with
    | none =>
      cases named : raw.find? "method" with
      | some method =>
        rw [parseWith_notification enveloped found named, parseWith_notification enveloped found named]
        exact .refl _
      | none =>
        rw [parseWith_neither enveloped found named, parseWith_neither enveloped found named]
        exact .error rfl rfl
    | some id =>
      cases named : raw.find? "method" with
      | some method =>
        rw [parseWith_request enveloped found named, parseWith_request enveloped found named]
        exact .refl _
      | none =>
        rw [parseWith_response enveloped found named, parseWith_response enveloped found named]
        cases parsed : RequestId.fromJson id with
        | error e => exact .refl _
        | ok rid =>
          apply responses_agree
          intro noResult err given
          rw [← Bool.not_eq_true]
          intro keyed
          have readable : id = .null ∨ ∃ rid, IsId id rid := by
            rcases (fromJson_iff id rid).mp parsed with typed | ⟨null, -⟩
            · exact .inr ⟨rid, typed⟩
            · exact .inl null
          exact other ⟨enveloped, ⟨id, found, readable⟩, named, noResult, err, given, keyed⟩
  · rw [parseWith_unversioned enveloped, parseWith_unversioned enveloped]
    exact .error rfl rfl

theorem text_error_agreed :
    (parseMessage (.mk [("jsonrpc", .string "2.0"), ("id", .integer 1), ("error", .string "x")])).Agrees
      (parseMessageClient
        (.mk [("jsonrpc", .string "2.0"), ("id", .integer 1), ("error", .string "x")])) := by
  apply parsers_agree
  rintro ⟨-, -, -, -, err, found, keyed⟩
  have text : err = .string "x" := by simpa [find?_mk] using found.symm
  subst text
  cases keyed

/-- The members of an error object are absent or of the types the client reads them at. -/
structure ReadableError (err : Json) : Prop where
  code : ∀ code, err.find? "code" = some code → code.isNumber = true ∨ code.isBoolean = true
  message : ∀ message, err.find? "message" = some message → message.isString = true

theorem errorDetail_ok_iff {err : Json} (keyed : err.isObject = true) :
    (∃ detail, errorDetail err = .ok detail) ↔ ReadableError err := by
  have codes := Json.value_ok_iff Json.getInt_ok_iff keyed "code" Protocol.internalError
  have messages := Json.value_ok_iff Json.getString_ok_iff keyed "message" "Unknown error"
  have returns : (∃ detail, errorDetail err = .ok detail) ↔
      (∃ code, err.value Json.getInt "code" Protocol.internalError = .ok code) ∧
        ∃ message, err.value Json.getString "message" "Unknown error" = .ok message := by
    refine bind_returns_iff fun code _ => ?_
    rw [← and_true (∃ message, err.value _ _ _ = .ok message)]
    exact bind_returns_iff fun message _ => iff_of_true ⟨_, rfl⟩ True.intro
  rw [returns, codes, messages]
  exact ⟨fun ⟨code, message⟩ => ⟨code, message⟩, fun readable => ⟨readable.code, readable.message⟩⟩

/-- The error object of a response, where the client reads one, is readable. -/
def ReadableResponse (raw : Json) : Prop :=
  raw.find? "result" = none → ∀ err, raw.find? "error" = some err → err.isObject = true →
    ReadableError err

theorem clientResponse_ok_iff (raw : Json) (id : RequestId) :
    (∃ m, clientResponse raw id = .ok m) ↔ ReadableResponse raw := by
  unfold clientResponse ReadableResponse
  cases raw.find? "result" with
  | some result => simp
  | none =>
    cases raw.find? "error" with
    | none => simp
    | some err =>
      cases keyed : err.isObject with
      | false => simp [keyed]
      | true => simp [keyed, map_eq_ok, ← errorDetail_ok_iff keyed]

/-- The client keeps the id of a response exactly when it can read the error object. -/
theorem response_id_kept_iff {raw id : Json} {rid : RequestId} (enveloped : Enveloped raw)
    (noMethod : raw.find? "method" = none) (found : raw.find? "id" = some id)
    (typed : IsId id rid) :
    (parseMessageClient raw).Answers rid ↔ ReadableResponse raw := by
  have parsed : RequestId.fromJson id = .ok rid := (fromJson_iff id rid).mpr (.inl typed)
  rw [parseMessageClient_eq, parseWith_response enveloped found noMethod, parsed,
    ← clientResponse_ok_iff raw rid]
  change (orParseError (clientResponse raw rid)).Answers rid ↔ _
  cases responded : clientResponse raw rid with
  | ok m => exact iff_of_true (clientResponse_answers responded) ⟨m, rfl⟩
  | error e =>
    -- what the catch-all answers with has a null id, and no id of a request is null
    apply iff_of_false
    · intro answers
      have null : RequestId.null = rid := answers
      subst null
      cases typed
    · rintro ⟨m, read⟩
      cases read

theorem plain_error_keeps_id : (parseMessageClient (.mk [("jsonrpc", .string "2.0"),
    ("id", .integer 1), ("error", .mk [("code", .integer 5)])])).Answers (.int 1) := by
  apply (response_id_kept_iff (by rfl) (by rfl) (by rfl) (.integer 1)).mpr
  intro _ err given keyed
  have object : err = .mk [("code", .integer 5)] := by simpa [find?_mk] using given.symm
  subst object
  constructor
  · intro code present
    have number : code = .integer 5 := by simpa [find?_mk] using present.symm
    subst number
    exact .inl rfl
  · intro message present
    simp [find?_mk] at present

/-- A code that is a text is thrown on, and the response comes out without its id. -/
theorem text_code_loses_id : ∃ raw, Enveloped raw ∧ raw.find? "method" = none ∧
    raw.find? "id" = some (.integer 1) ∧ IsId (.integer 1) (.int 1) ∧
    (parseMessageClient raw).id? = some .null ∧ ¬ (parseMessageClient raw).Answers (.int 1) := by
  refine ⟨.mk [("jsonrpc", .string "2.0"), ("id", .integer 1),
    ("error", .mk [("code", .string "x")])], rfl, rfl, rfl, .integer 1, rfl, fun answers => ?_⟩
  cases answers

end CppMcp
