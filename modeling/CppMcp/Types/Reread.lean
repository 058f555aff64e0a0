import CppMcp.JsonRpc.Reread
import CppMcp.Types.RoundTrip

namespace CppMcp

namespace Json

@[simp] theorem reread_string (s : String) : (string s).reread = string s := by simp [reread]

@[simp] theorem reread_bool (b : Bool) : (bool b).reread = bool b := by simp [reread]

theorem rereadElems_map (elems : List Json) : rereadElems elems = elems.map reread := by
  induction elems with
  | nil => simp [rereadElems]
  | cons elem rest ih => simp [rereadElems, ih]

theorem rereadMembers_map (members : List (String × Json)) :
    rereadMembers members = members.map fun m => (m.1, m.2.reread) := by
  induction members with
  | nil => simp [rereadMembers]
  | cons member rest ih =>
    obtain ⟨key, value⟩ := member
    simp [rereadMembers, ih]

@[simp] theorem reread_array (elems : List Json) :
    (array elems).reread = array (elems.map reread) := by
  simp [reread, rereadElems_map]

/-- An object is read again member by member. -/
@[simp] theorem reread_mk (members : List (String × Json)) :
    (mk members).reread = mk (members.map fun m => (m.1, m.2.reread)) := by
  have fold (acc : List (String × Json)) :
      (members.foldl (fun acc m => insertMember m.1 m.2 acc) acc).map (fun m => (m.1, m.2.reread)) =
        (members.map fun m => (m.1, m.2.reread)).foldl (fun acc m => insertMember m.1 m.2 acc)
          (acc.map fun m => (m.1, m.2.reread)) := by
    induction members generalizing acc with
    | nil => rfl
    | cons m rest ih =>
      simp only [List.foldl_cons, List.map_cons]
      rw [ih, insertMember, Lib.map_insertSorted]
      rfl
  simp only [mk, reread, rereadMembers_map, fold, List.map_nil]

end Json

@[simp] theorem written_reread {α : Type} (put : α → Json) (key : String) (x : Option α) :
    (written put key x).map (fun m => (m.1, m.2.reread)) =
      written (fun value => (put value).reread) key x := by
  cases x <;> rfl

theorem map_reread {α : Type} {put : α → Json} (kept : ∀ a, (put a).reread = put a) (xs : List α) :
    xs.map (Json.reread ∘ put) = xs.map put :=
  List.map_congr_left fun a _ => kept a

theorem TextContent.reread (t : TextContent) : t.toJson.reread = t.toJson := by
  simp [TextContent.toJson]

theorem MediaContent.reread (m : MediaContent) : m.toJson.reread = m.toJson := by
  simp [MediaContent.toJson]

theorem ResourceContents.reread (r : ResourceContents) : r.toJson.reread = r.toJson := by
  by_cases omitted : r.mimeType = "" <;> simp [ResourceContents.toJson, omitted]

theorem EmbeddedResource.reread (e : EmbeddedResource) : e.toJson.reread = e.toJson := by
  simp [EmbeddedResource.toJson, ResourceContents.reread]

theorem ResourceLink.reread (rl : ResourceLink) : rl.toJson.reread = rl.toJson := by
  simp [ResourceLink.toJson]

/-- Content is made of texts, which the wire leaves as they are. -/
theorem content_reread (c : Content) : (contentToJson c).reread = contentToJson c := by
  cases c with
  | text c => exact c.reread
  | image c => exact c.reread
  | audio c => exact c.reread
  | resource c => exact c.reread
  | resourceLink c => exact c.reread

/-- The result as it comes out of the wire. -/
def CallToolResult.crossed (r : CallToolResult) : CallToolResult :=
  { r with structuredContent := r.structuredContent.map Json.reread }

theorem CallToolResult.crosses {r : CallToolResult} (tagged : ∀ c ∈ r.content, c.Tagged) :
    CallToolResult.fromJson r.toJson.reread = .ok r.crossed := by
  have same : r.toJson.reread = r.crossed.toJson := by
    obtain ⟨content, structuredContent, isError⟩ := r
    cases isError <;> cases structuredContent <;>
      simp [CallToolResult.toJson, CallToolResult.crossed, written, map_reread content_reread]
  rw [same]
  exact CallToolResult.round_trip tagged

theorem ReadResourceResult.crosses (r : ReadResourceResult) :
    ReadResourceResult.fromJson r.toJson.reread = .ok r := by
  have same : r.toJson.reread = r.toJson := by
    simp [ReadResourceResult.toJson, map_reread ResourceContents.reread]
  rw [same]
  exact r.round_trip

theorem PromptMessage.reread (pm : PromptMessage) : pm.toJson.reread = pm.toJson := by
  simp [PromptMessage.toJson, content_reread]

theorem GetPromptResult.crosses {r : GetPromptResult} (tagged : ∀ m ∈ r.messages, m.content.Tagged) :
    GetPromptResult.fromJson r.toJson.reread = .ok r := by
  have same : r.toJson.reread = r.toJson := by
    simp [GetPromptResult.toJson, map_reread PromptMessage.reread]
  rw [same]
  exact GetPromptResult.round_trip tagged

theorem reread_integer (n : Int64) :
    (Json.integer n).reread = if 0 ≤ n.toInt then .unsigned n.toUInt64 else .integer n := by
  simp [Json.reread]

theorem toNat_toUInt64 {n : Int64} (positive : 0 ≤ n.toInt) : (n.toUInt64.toNat : Int) = n.toInt := by
  have nonneg : (0 : Int64) ≤ n := Int64.le_iff_toInt_le.mpr (by simpa using positive)
  rw [Int64.toNat_toUInt64_of_le nonneg]
  exact Int.toNat_of_nonneg positive

/-- An error code comes out of the wire as an `int`. -/
theorem getInt_ofInt_reread (code : Int) :
    (Json.ofInt code).reread.getInt = .ok (Int.bmod code (2 ^ 32)) := by
  have narrow : Int.bmod (Int64.ofInt code).toInt (2 ^ 32) = Int.bmod code (2 ^ 32) := by
    rw [Int64.toInt_ofInt]
    exact Int.bmod_bmod_of_dvd (by decide)
  rw [Json.ofInt, reread_integer]
  split
  · rename_i positive
    simp only [Json.getInt, toNat_toUInt64 positive, narrow]
  · simp only [Json.getInt, narrow]

theorem errorDetail_crosses (code : Int) (message : String) (data : Option Json) :
    errorDetail (errorObject code message data).reread =
      .ok ⟨Int.bmod code (2 ^ 32), message, data.map Json.reread⟩ := by
  have codeMember : (errorObject code message data).reread.find? "code" =
      some (Json.ofInt code).reread := by
    cases data <;> simp [errorObject]
  have messageMember : (errorObject code message data).reread.find? "message" =
      some (.string message) := by
    cases data <;> simp [errorObject]
  have dataMember : (errorObject code message data).reread.find? "data" = data.map Json.reread := by
    cases data <;> simp [errorObject]
  obtain ⟨members, object⟩ : ∃ members, (errorObject code message data).reread = .object members :=
    ⟨_, rfl⟩
  rw [object] at codeMember messageMember dataMember ⊢
  rw [Json.find?_object] at codeMember messageMember
  simp [errorDetail, Json.value, codeMember, messageMember, dataMember, getInt_ofInt_reread,
    bind, Except.bind, pure, Except.pure]

/-- What a client reads of an error response. -/
theorem makeErrorResponse_crosses {id : RequestId} (fits : id.Fits) (code : Int) (message : String)
    (data : Option Json) : parseMessageClient (makeErrorResponse id code message data).reread =
      .error ⟨id, ⟨Int.bmod code (2 ^ 32), message, data.map Json.reread⟩⟩ := by
  obtain ⟨enveloped, idMember, noMethod, noResult, error⟩ :=
    makeErrorResponse_reread id code message data
  have object : (errorObject code message data).reread.isObject = true := rfl
  rw [parseMessageClient_eq]
  apply parseWith_responds enveloped idMember noMethod (requestId_reread fits)
  simp only [clientResponse, noResult, error, object, if_true, errorDetail_crosses]
  rfl

end CppMcp
