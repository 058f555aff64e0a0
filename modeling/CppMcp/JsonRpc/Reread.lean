import CppMcp.JsonRpc.Agreement
import CppMcp.JsonRpc.RoundTrip

namespace CppMcp

def Double.isFinite (d : Double) : Bool := (d.bits.toNat >>> 52) % 2048 != 2047

namespace Json

mutual
/-- What `parse` makes of a dumped value: an integer that is not negative comes back
    unsigned, and a number that is not finite was written as a null. -/
def reread : Json → Json
  | integer n => if 0 ≤ n.toInt then unsigned n.toUInt64 else integer n
  | float d => if d.isFinite then float d else null
  | array elems => array (rereadElems elems)
  | object members => object (rereadMembers members)
  | null => null
  | bool b => bool b
  | unsigned n => unsigned n
  | string s => string s

def rereadElems : List Json → List Json
  | [] => []
  | elem :: rest => reread elem :: rereadElems rest

def rereadMembers : List (String × Json) → List (String × Json)
  | [] => []
  | (key, member) :: rest => (key, reread member) :: rereadMembers rest
end

theorem lookup_rereadMembers (members : List (String × Json)) (key : String) :
    (rereadMembers members).lookup key = (members.lookup key).map reread := by
  induction members with
  | nil => rfl
  | cons member rest ih =>
    obtain ⟨k, j⟩ := member
    by_cases same : key = k
    · subst same
      simp [rereadMembers]
    · simp [rereadMembers, same, ih]

theorem find?_reread (j : Json) (key : String) :
    j.reread.find? key = (j.find? key).map reread := by
  cases j with
  | object members => exact lookup_rereadMembers members key
  | integer n =>
    simp only [reread]
    split <;> rfl
  | float d =>
    simp only [reread]
    split <;> rfl
  | _ => rfl

theorem isArray_reread (j : Json) : j.reread.isArray = j.isArray := by
  cases j with
  | integer n =>
    simp only [reread]
    split <;> rfl
  | float d =>
    simp only [reread]
    split <;> rfl
  | _ => rfl

end Json

theorem requestId_reread {id : RequestId} (fits : id.Fits) :
    RequestId.fromJson (requestIdToJson id).reread = .ok id := by
  cases id with
  | null => rfl
  | str s => rfl
  | int n =>
    have same : (Int64.ofInt n).toInt = n := Int64.toInt_ofInt_of_le fits.1 fits.2
    simp only [requestIdToJson, Json.ofInt, Json.reread]
    split
    · simp [RequestId.fromJson, Json.isNull, Json.isNumberInteger, Json.getInt64, Except.map, same]
    · simp [RequestId.fromJson, Json.isNull, Json.isNumberInteger, Json.getInt64, Except.map, same]

theorem fromJson_fits {j : Json} {id : RequestId} (parsed : RequestId.fromJson j = .ok id) :
    id.Fits := by
  rcases (fromJson_iff j id).mp parsed with typed | ⟨-, rfl⟩
  · cases typed with
    | integer n => exact ⟨n.le_toInt, n.toInt_lt⟩
    | unsigned n => exact ⟨n.toInt64.le_toInt, n.toInt64.toInt_lt⟩
    | string s => exact True.intro
  · exact True.intro

theorem requestIdFromJson_ok {j : Json} {id : RequestId} (parsed : requestIdFromJson j = some id) :
    RequestId.fromJson j = .ok id :=
  (fromJson_iff j id).mpr (.inl ((requestIdFromJson_iff j id).mp parsed))

/-- An id is null or was read off the message. -/
def ReadsId (raw : Json) (id : RequestId) : Prop :=
  id = .null ∨ ∃ j, raw.find? "id" = some j ∧ RequestId.fromJson j = .ok id

theorem parseRequest_id {raw id : Json} (found : raw.find? "id" = some id) {rid : RequestId}
    (read : (parseRequest raw id).id? = some rid) : ReadsId raw rid := by
  unfold parseRequest at read
  split at read
  · cases read
    exact .inl rfl
  · rename_i own typed
    have reads : ReadsId raw own := .inr ⟨id, found, requestIdFromJson_ok typed⟩
    repeat' split at read
    all_goals
      cases read
      exact reads

theorem parseNotification_id {raw : Json} {rid : RequestId}
    (read : (parseNotification raw).id? = some rid) : rid = .null := by
  unfold parseNotification at read
  repeat' split at read
  all_goals
    cases read
    try rfl

theorem parseWith_id {response : RequestId → Except Exn ParsedMessage} {refusal : String}
    {raw : Json} {rid : RequestId}
    (answers : ∀ id m, response id = .ok m → m.id? = some id)
    (read : (parseWith response refusal raw).id? = some rid) : ReadsId raw rid := by
  by_cases enveloped : Enveloped raw
  · cases found : raw.find? "id" with
    | none =>
      cases named : raw.find? "method" with
      | some method =>
        rw [parseWith_notification enveloped found named] at read
        exact .inl (parseNotification_id read)
      | none =>
        rw [parseWith_neither enveloped found named] at read
        cases read
        exact .inl rfl
    | some id =>
      cases named : raw.find? "method" with
      | some method =>
        rw [parseWith_request enveloped found named] at read
        exact parseRequest_id found read
      | none =>
        rw [parseWith_response enveloped found named] at read
        cases answered : RequestId.fromJson id >>= response with
        | error e =>
          rw [answered] at read
          cases read
          exact .inl rfl
        | ok m =>
          obtain ⟨own, parsed, responded⟩ := Lib.bind_eq_ok.mp answered
          rw [answered] at read
          have same := (answers own m responded).symm.trans read
          cases same
          exact .inr ⟨id, found, parsed⟩
  · rw [parseWith_unversioned enveloped] at read
    cases read
    exact .inl rfl

theorem parseMessage_id {raw : Json} {rid : RequestId}
    (read : (parseMessage raw).id? = some rid) : ReadsId raw rid := by
  rw [parseMessage_eq] at read
  exact parseWith_id (fun _ _ responded => (serverResponse_answers responded).id?) read

theorem parseMessageClient_id {raw : Json} {rid : RequestId}
    (read : (parseMessageClient raw).id? = some rid) : ReadsId raw rid := by
  rw [parseMessageClient_eq] at read
  exact parseWith_id (fun _ _ responded => (clientResponse_answers responded).id?) read

theorem parseMessage_error {raw : Json} {resp : JsonRpcErrorResponse}
    (parsed : parseMessage raw = .error resp) : ReadsId raw resp.id :=
  parseMessage_id (by rw [parsed]; rfl)

theorem parseMessageClient_error {raw : Json} {resp : JsonRpcErrorResponse}
    (parsed : parseMessageClient raw = .error resp) : ReadsId raw resp.id :=
  parseMessageClient_id (by rw [parsed]; rfl)

theorem contains_reread (j : Json) (key : String) : j.reread.contains key = j.contains key := by
  simp [Json.contains, Json.find?_reread]

theorem isId_ofInt (n : Int) : ∃ k, IsId (Json.ofInt n).reread (.int k) := by
  simp only [Json.ofInt, Json.reread]
  split
  · exact ⟨_, .unsigned _⟩
  · exact ⟨_, .integer _⟩

theorem isId_ofInt_int {n : Int} {id : RequestId} (typed : IsId (Json.ofInt n).reread id) :
    ∃ k, id = .int k := by
  simp only [Json.ofInt, Json.reread] at typed
  split at typed
  · cases typed
    exact ⟨_, rfl⟩
  · cases typed
    exact ⟨_, rfl⟩

/-- An error read off a response carries the id that was written, or none. -/
theorem error_id {response : Json} {id : RequestId} (fits : id.Fits)
    (own : response.find? "id" = some (requestIdToJson id)) {resp : JsonRpcErrorResponse}
    (parsed : parseMessageClient response.reread = .error resp) :
    resp.id = .null ∨ resp.id = id := by
  rcases parseMessageClient_error parsed with null | ⟨j, found, read⟩
  · exact .inl null
  · rw [Json.find?_reread, own] at found
    cases found
    rw [requestId_reread fits] at read
    exact .inr (Except.ok.inj read).symm

theorem error_id_null {m : Json} (noId : m.find? "id" = none) {resp : JsonRpcErrorResponse}
    (parsed : parseMessageClient m.reread = .error resp) : resp.id = .null := by
  rcases parseMessageClient_error parsed with null | ⟨j, found, -⟩
  · exact null
  · rw [Json.find?_reread, noId] at found
    cases found

/-- A success response is one again after the wire, as long as its id fits. -/
theorem makeSuccessResponse_reread {id : RequestId} (fits : id.Fits) (result : Json) :
    IsSuccess (makeSuccessResponse id result).reread ⟨id, result.reread⟩ where
  enveloped := by simp [Enveloped, makeSuccessResponse, Json.find?_reread, find?_mk, Json.reread]
  id := ⟨(requestIdToJson id).reread, by simp [makeSuccessResponse, Json.find?_reread, find?_mk],
    (fromJson_iff _ _).mp (requestId_reread fits)⟩
  noMethod := by simp [makeSuccessResponse, Json.find?_reread, find?_mk]
  result := by simp [makeSuccessResponse, Json.find?_reread, find?_mk]

/-- The members of an error response after the wire. -/
theorem makeErrorResponse_reread (id : RequestId) (code : Int) (message : String)
    (data : Option Json) : Enveloped (makeErrorResponse id code message data).reread ∧
      (makeErrorResponse id code message data).reread.find? "id" =
        some (requestIdToJson id).reread ∧
      (makeErrorResponse id code message data).reread.find? "method" = none ∧
      (makeErrorResponse id code message data).reread.find? "result" = none ∧
      (makeErrorResponse id code message data).reread.find? "error" =
        some (errorObject code message data).reread := by
  refine ⟨?_, ?_, ?_, ?_, ?_⟩
  · simp [Enveloped, makeErrorResponse, Json.find?_reread, find?_mk, Json.reread]
  all_goals simp [makeErrorResponse, Json.find?_reread, find?_mk]

theorem error_reread (id : RequestId) (code : Int) (message : String) (data : Option Json) :
    ∃ resp, parseMessageClient (makeErrorResponse id code message data).reread = .error resp := by
  obtain ⟨enveloped, own, noMethod, noResult, failed⟩ :=
    makeErrorResponse_reread id code message data
  have keyed : (errorObject code message data).reread.isObject = true := rfl
  rw [parseMessageClient_eq, parseWith_response enveloped own noMethod]
  cases RequestId.fromJson (requestIdToJson id).reread with
  | error e => exact ⟨_, rfl⟩
  | ok rid =>
    simp only [bind, Except.bind, clientResponse, noResult, failed, keyed, if_true]
    cases errorDetail (errorObject code message data).reread with
    | error e => exact ⟨_, rfl⟩
    | ok detail => exact ⟨_, rfl⟩

theorem isObject_reread (j : Json) : j.reread.isObject = j.isObject := by
  cases j with
  | integer n =>
    simp only [Json.reread]
    split <;> rfl
  | float d =>
    simp only [Json.reread]
    split <;> rfl
  | _ => rfl

theorem structured_reread {params : Option Json} (structured : Structured params) :
    Structured (params.map Json.reread) := by
  intro p given
  obtain ⟨own, found, rfl⟩ := Option.map_eq_some_iff.mp given
  rw [isObject_reread, Json.isArray_reread]
  exact structured own found

theorem serializeRequest_reread {req : JsonRpcRequest} (fits : req.id.Fits)
    (given : req.id ≠ .null) (structured : Structured req.params) :
    IsRequest (serializeRequest req).reread ⟨req.id, req.method, req.params.map Json.reread⟩ where
  enveloped := by
    unfold Enveloped serializeRequest
    cases req.params <;> simp [Json.find?_reread, find?_mk, Json.reread]
  id := by
    refine ⟨(requestIdToJson req.id).reread, ?_, ?_⟩
    · unfold serializeRequest
      cases req.params <;> simp [Json.find?_reread, find?_mk]
    · rcases (fromJson_iff _ _).mp (requestId_reread fits) with typed | ⟨-, null⟩
      · exact typed
      · exact absurd null given
  method := by
    unfold serializeRequest
    cases req.params <;> simp [Json.find?_reread, find?_mk, Json.reread]
  params := by
    apply hasParams_written (structured_reread structured)
    unfold serializeRequest
    cases req.params <;> simp [Json.find?_reread, find?_mk]

theorem serializeNotification_reread {notif : JsonRpcNotification}
    (structured : Structured notif.params) :
    IsNotification (serializeNotification notif).reread
      ⟨notif.method, notif.params.map Json.reread⟩ where
  enveloped := by
    unfold Enveloped serializeNotification
    cases notif.params <;> simp [Json.find?_reread, find?_mk, Json.reread]
  noId := by
    unfold serializeNotification
    cases notif.params <;> simp [Json.find?_reread, find?_mk]
  method := by
    unfold serializeNotification
    cases notif.params <;> simp [Json.find?_reread, find?_mk, Json.reread]
  params := by
    apply hasParams_written (structured_reread structured)
    unfold serializeNotification
    cases notif.params <;> simp [Json.find?_reread, find?_mk]

def RequestId.isText : RequestId → Bool
  | .str _ => true
  | _ => false

/-- A message with a text for its id. -/
def Json.hasTextId (m : Json) : Bool := (m.find? "id").any Json.isString

theorem hasTextId_reread (m : Json) : m.reread.hasTextId = m.hasTextId := by
  have same : ∀ j : Json, j.reread.isString = j.isString := by
    intro j
    cases j with
    | integer n =>
      simp only [Json.reread]
      split <;> rfl
    | float d =>
      simp only [Json.reread]
      split <;> rfl
    | _ => rfl
  unfold Json.hasTextId
  rw [Json.find?_reread]
  cases m.find? "id" with
  | none => rfl
  | some id => exact same id

theorem hasTextId_written {m : Json} {id : RequestId}
    (found : m.find? "id" = some (requestIdToJson id)) : m.hasTextId = id.isText := by
  unfold Json.hasTextId
  rw [found]
  cases id <;> rfl

theorem ReadsId.isText {raw : Json} {id : RequestId} (reads : ReadsId raw id)
    (plain : raw.hasTextId = false) : id.isText = false := by
  rcases reads with rfl | ⟨j, found, read⟩
  · rfl
  · unfold Json.hasTextId at plain
    rw [found] at plain
    rcases (fromJson_iff j id).mp read with typed | ⟨-, rfl⟩
    · cases typed with
      | string s => cases plain
      | _ => rfl
    · rfl

end CppMcp
