import CppMcp.JsonRpc.Grammar

namespace CppMcp

/-- The id is one that the code can hold: an integer has 64 bits. -/
def RequestId.Fits : RequestId → Prop
  | .int n => -2 ^ 63 ≤ n ∧ n < 2 ^ 63
  | _ => True

/-- Params that a message may carry. -/
def Structured (params : Option Json) : Prop :=
  ∀ p, params = some p → p.isObject = true ∨ p.isArray = true

theorem requestId_round_trip {id : RequestId} (fits : id.Fits) :
    RequestId.fromJson (requestIdToJson id) = .ok id := by
  cases id with
  | null => rfl
  | str s => rfl
  | int n =>
    have same : (Int64.ofInt n).toInt = n := Int64.toInt_ofInt_of_le fits.1 fits.2
    exact congrArg (fun n => Except.ok (RequestId.int n)) same

theorem isId_round_trip {id : RequestId} (fits : id.Fits) (given : id ≠ .null) :
    IsId (requestIdToJson id) id := by
  rcases (fromJson_iff _ _).mp (requestId_round_trip fits) with typed | ⟨-, null⟩
  · exact typed
  · exact absurd null given

theorem hasParams_written {raw : Json} {params : Option Json} (structured : Structured params)
    (found : raw.find? "params" = params) : HasParams raw params := by
  cases params with
  | none => exact .absent found
  | some p =>
    have shape := structured p rfl
    cases p with
    | object members => exact .object found
    | array elems => exact .array found
    | _ => simp [Json.isObject, Json.isArray] at shape

theorem serializeRequest_isRequest {req : JsonRpcRequest} (fits : req.id.Fits)
    (given : req.id ≠ .null) (structured : Structured req.params) :
    IsRequest (serializeRequest req) req where
  enveloped := by
    unfold Enveloped serializeRequest
    cases req.params <;> simp [find?_mk]
  id := by
    refine ⟨requestIdToJson req.id, ?_, isId_round_trip fits given⟩
    unfold serializeRequest
    cases req.params <;> simp [find?_mk]
  method := by
    unfold serializeRequest
    cases req.params <;> simp [find?_mk]
  params := by
    apply hasParams_written structured
    unfold serializeRequest
    cases req.params <;> simp [find?_mk]

theorem serializeNotification_isNotification {notif : JsonRpcNotification}
    (structured : Structured notif.params) :
    IsNotification (serializeNotification notif) notif where
  enveloped := by
    unfold Enveloped serializeNotification
    cases notif.params <;> simp [find?_mk]
  noId := by
    unfold serializeNotification
    cases notif.params <;> simp [find?_mk]
  method := by
    unfold serializeNotification
    cases notif.params <;> simp [find?_mk]
  params := by
    apply hasParams_written structured
    unfold serializeNotification
    cases notif.params <;> simp [find?_mk]

theorem makeSuccessResponse_isSuccess {id : RequestId} (fits : id.Fits) (result : Json) :
    IsSuccess (makeSuccessResponse id result) ⟨id, result⟩ where
  enveloped := by simp [Enveloped, makeSuccessResponse, find?_mk]
  id := ⟨requestIdToJson id, by simp [makeSuccessResponse, find?_mk],
    (fromJson_iff _ _).mp (requestId_round_trip fits)⟩
  noMethod := by simp [makeSuccessResponse, find?_mk]
  result := by simp [makeSuccessResponse, find?_mk]

/-- The error member of a response is read back as it was written; no data and null data
    stay apart. -/
theorem errorDetail_round_trip {code : Int} (fits : -2 ^ 31 ≤ code ∧ code < 2 ^ 31)
    (message : String) (data : Option Json) :
    errorDetail (errorObject code message data) = .ok ⟨code, message, data⟩ := by
  have number : (Json.ofInt code).getInt = .ok code := by
    have wide : (Int64.ofInt code).toInt = code :=
      Int64.toInt_ofInt_of_le (by omega) (by omega)
    have narrow : Int.bmod code (2 ^ 32) = code :=
      Int.bmod_eq_of_le (by omega) (by omega)
    exact congrArg Except.ok ((congrArg (Int.bmod · (2 ^ 32)) wide).trans narrow)
  have codeMember : (errorObject code message data).find? "code" = some (.ofInt code) := by
    cases data <;> simp [errorObject, find?_mk]
  have messageMember : (errorObject code message data).find? "message" = some (.string message) := by
    cases data <;> simp [errorObject, find?_mk]
  have dataMember : (errorObject code message data).find? "data" = data := by
    cases data <;> simp [errorObject, find?_mk]
  obtain ⟨members, object⟩ : ∃ members, errorObject code message data = .object members := ⟨_, rfl⟩
  rw [object] at codeMember messageMember dataMember ⊢
  rw [Json.find?_object] at codeMember messageMember
  simp [errorDetail, Json.value, codeMember, messageMember, dataMember, number, Json.getString, bind,
    Except.bind, pure, Except.pure]

theorem makeErrorResponse_round_trip {id : RequestId} (fits : id.Fits) {code : Int}
    (codeFits : -2 ^ 31 ≤ code ∧ code < 2 ^ 31) (message : String) (data : Option Json) :
    parseMessageClient (makeErrorResponse id code message data) =
      .error ⟨id, ⟨code, message, data⟩⟩ := by
  have enveloped : Enveloped (makeErrorResponse id code message data) := by
    simp [Enveloped, makeErrorResponse, find?_mk]
  have idMember : (makeErrorResponse id code message data).find? "id" = some (requestIdToJson id) := by
    simp [makeErrorResponse, find?_mk]
  have noMethod : (makeErrorResponse id code message data).find? "method" = none := by
    simp [makeErrorResponse, find?_mk]
  have noResult : (makeErrorResponse id code message data).find? "result" = none := by
    simp [makeErrorResponse, find?_mk]
  have error : (makeErrorResponse id code message data).find? "error" =
      some (errorObject code message data) := by simp [makeErrorResponse, find?_mk]
  have object : (errorObject code message data).isObject = true := rfl
  rw [parseMessageClient_eq]
  apply parseWith_responds enveloped idMember noMethod (requestId_round_trip fits)
  simp [clientResponse, noResult, error, object, errorDetail_round_trip codeFits, Except.map]

/-- What one side writes, the other reads back. -/
theorem envelope_round_trip :
    (∀ req : JsonRpcRequest, req.id.Fits → req.id ≠ .null → Structured req.params →
      parseMessage (serializeRequest req) = .request req ∧
      parseMessageClient (serializeRequest req) = .request req) ∧
    (∀ notif : JsonRpcNotification, Structured notif.params →
      parseMessage (serializeNotification notif) = .notification notif ∧
      parseMessageClient (serializeNotification notif) = .notification notif) ∧
    (∀ (id : RequestId) (result : Json), id.Fits →
      parseMessageClient (makeSuccessResponse id result) = .success ⟨id, result⟩) ∧
    (∀ (id : RequestId) (code : Int) (message : String) (data : Option Json), id.Fits →
      -2 ^ 31 ≤ code ∧ code < 2 ^ 31 →
      parseMessageClient (makeErrorResponse id code message data) =
        .error ⟨id, ⟨code, message, data⟩⟩) := by
  refine ⟨fun req fits given structured => ?_, fun notif structured => ?_, fun id result fits => ?_,
    fun id code message data fits codeFits => makeErrorResponse_round_trip fits codeFits message data⟩
  · have is := serializeRequest_isRequest fits given structured
    exact ⟨parseMessage_request is, parseMessageClient_request is⟩
  · have is := serializeNotification_isNotification structured
    exact ⟨parseMessage_notification is, parseMessageClient_notification is⟩
  · exact parseMessageClient_success (makeSuccessResponse_isSuccess fits result)

theorem ping_round_trip :
    (parseMessage (serializeRequest ⟨.int 1, Protocol.methodPing, none⟩) =
        .request ⟨.int 1, Protocol.methodPing, none⟩ ∧
      parseMessageClient (serializeRequest ⟨.int 1, Protocol.methodPing, none⟩) =
        .request ⟨.int 1, Protocol.methodPing, none⟩) ∧
    parseMessageClient (makeErrorResponse .null Protocol.parseError "" (some .null)) =
      .error ⟨.null, ⟨Protocol.parseError, "", some .null⟩⟩ := by
  obtain ⟨request, -, -, error⟩ := envelope_round_trip
  have fits : (RequestId.int 1).Fits := by simp [RequestId.Fits]
  refine ⟨request ⟨.int 1, Protocol.methodPing, none⟩ fits (by decide) (fun p some => ?_), ?_⟩
  · cases some
  · exact error .null Protocol.parseError "" (some .null) True.intro (by decide)

end CppMcp
