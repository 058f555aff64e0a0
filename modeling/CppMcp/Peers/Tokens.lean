import CppMcp.Client.Outgoing
import CppMcp.Client.Stale
import CppMcp.JsonRpc.Reread
import CppMcp.Server.Handlers

namespace CppMcp

open Lib

/-- The params bring a progress token of their own. -/
def namesToken (params : Option Json) : Bool :=
  ((params.getD (.object [])).objectMember "_meta").contains "progressToken"

/-- A progress token is a text, and like one in the params it comes with `on_progress` only;
    params are an object. -/
def SubmitArgs.proper (args : SubmitArgs) : Bool :=
  (match args.progressToken with
    | none => true
    | some (.str _) => args.onProgress
    | some _ => false) &&
  args.params.all Json.isObject && (args.onProgress || !namesToken args.params)

/-- No request that still waits has the progress token of the new one. -/
def Client.tokenFree (c : Client) (args : SubmitArgs) : Bool :=
  c.requests.all fun r => r.state != .waiting || args.progressToken != some r.progressToken

/-- What the user of a client keeps to, before the counter of the ids is used up. -/
def Client.orderly (c : Client) : ClientEvent → Bool
  | .tests _ args => args.proper
  | .builds thread =>
    match c.submissions.lookup thread with
    | some (.tested args) => decide (c.nextId < 2 ^ 63) && c.tokenFree args
    | _ => true
  | _ => true

/-- A key of `pending_map_` that is written for the request. -/
def PendingRequest.HasKey (r : PendingRequest) (key : RequestId) : Prop :=
  key = r.id ∨ (r.hasOwnToken = true ∧ key = r.progressToken)

/-- The params of the request, once they are read by the server, name it by a key of its own. -/
def PendingRequest.Carries (r : PendingRequest) (params : Option Json) : Prop :=
  (∀ p, params = some p → p.isObject = true) ∧
    r.HasKey (requestProgressToken r.id ((params.map Json.reread).getD (.object [])))

theorem find?_set {j : Json} (keyed : j.isObject = true) (key other : String) (value : Json) :
    (j.set key value).find? other = if other = key then some value else j.find? other := by
  cases j with
  | object members => exact Json.lookup_insertMember key other value members
  | _ => cases keyed

theorem isObject_set {j : Json} (keyed : j.isObject = true) (key : String) (value : Json) :
    (j.set key value).isObject = true := by
  cases j with
  | object members => rfl
  | _ => cases keyed

theorem objectMember_reread (j : Json) (key : String) :
    j.reread.objectMember key = (j.objectMember key).reread := by
  unfold Json.objectMember
  rw [Json.find?_reread]
  cases j.find? key with
  | none => rfl
  | some m =>
    cases m with
    | integer n => by_cases sign : 0 ≤ n.toInt <;> simp [Json.reread, Json.rereadMembers, sign]
    | float d => by_cases finite : d.isFinite <;> simp [Json.reread, Json.rereadMembers, finite]
    | _ => rfl

theorem requestProgressToken_written {id token : RequestId} (fits : token.Fits)
    (given : token ≠ .null) {params : Json}
    (found : (params.objectMember "_meta").find? "progressToken" = some (requestIdToJson token)) :
    requestProgressToken id params.reread = token := by
  have read := requestId_reread fits
  unfold requestProgressToken
  rw [objectMember_reread, Json.find?_reread, found]
  simp only [Option.map_some, read]
  split
  · rename_i null
    cases token with
    | null => exact absurd rfl given
    | int n =>
      simp only [requestIdToJson, Json.ofInt, Json.reread] at null
      split at null <;> cases null
    | str s => cases null
  · rfl

/-- Whatever else the params and their `_meta` hold, the server reads the token written there. -/
theorem withProgressToken_read {token : RequestId} (fits : token.Fits) (given : token ≠ .null)
    {params : Option Json} (keyed : ∀ p, params = some p → p.isObject = true) {written : Json}
    (h : withProgressToken params token = .ok written) :
    written.isObject = true ∧ ∀ id, requestProgressToken id written.reread = token := by
  have object : (params.getD (.object [])).isObject = true := by
    cases params with
    | none => rfl
    | some p => exact keyed p rfl
  unfold withProgressToken at h
  simp only [object, true_or, if_true, Except.ok.injEq] at h
  subst h
  refine ⟨isObject_set object _ _, fun id => requestProgressToken_written fits given ?_⟩
  have whole : ∀ {metaObject : Json}, metaObject.isObject = true →
      (((params.getD (.object [])).set "_meta"
        (metaObject.set "progressToken" (requestIdToJson token))).objectMember "_meta").find?
          "progressToken" = some (requestIdToJson token) := by
    intro metaObject keyed
    have written := (find?_set object "_meta" "_meta"
      (metaObject.set "progressToken" (requestIdToJson token))).trans (if_pos rfl)
    rw [objectMember_given written, if_pos (isObject_set keyed _ _), find?_set keyed, if_pos rfl]
  apply whole
  split
  · rename_i m _
    cases is : m.isObject with
    | true => exact is
    | false => rfl
  · rfl

theorem requestProgressToken_unnamed {id : RequestId} {params : Option Json}
    (unnamed : namesToken params = false) :
    requestProgressToken id ((params.map Json.reread).getD (.object [])) = id := by
  have absent : ((params.getD (.object [])).objectMember "_meta").find? "progressToken" = none := by
    simpa [namesToken, Json.contains] using unnamed
  have same : (params.map Json.reread).getD (.object []) = (params.getD (.object [])).reread := by
    cases params <;> rfl
  unfold requestProgressToken
  rw [same, objectMember_reread, Json.find?_reread, absent]
  rfl

theorem SubmitArgs.proper_cases {args : SubmitArgs} (proper : args.proper = true) :
    (args.progressToken = none ∨
      ∃ text, args.progressToken = some (.str text) ∧ args.onProgress = true) ∧
    (∀ p, args.params = some p → p.isObject = true) ∧
    (args.onProgress = false → namesToken args.params = false) := by
  unfold SubmitArgs.proper at proper
  simp only [Bool.and_eq_true, Bool.or_eq_true, Bool.not_eq_true'] at proper
  obtain ⟨⟨token, keyed⟩, unnamed⟩ := proper
  refine ⟨?_, fun p given => ?_, fun silent => ?_⟩
  · split at token
    · exact .inl ‹_›
    · exact .inr ⟨_, ‹_›, token⟩
    · cases token
  · rw [given] at keyed
    exact keyed
  · rw [silent] at unnamed
    exact unnamed.resolve_left Bool.false_ne_true

theorem SubmitArgs.proper_token {args : SubmitArgs} (proper : args.proper = true) (num : Int) :
    (args.onProgress = true ∧ (args.token num = .int num ∨
      ∃ text, args.token num = .str text ∧ args.progressToken = some (.str text))) ∨
    (args.onProgress = false ∧ args.token num = .null) := by
  obtain ⟨token, -, -⟩ := SubmitArgs.proper_cases proper
  unfold SubmitArgs.token
  cases on : args.onProgress with
  | true =>
    refine .inl ⟨rfl, ?_⟩
    rcases token with none | ⟨text, given, -⟩
    · rw [none]
      exact .inl rfl
    · rw [given]
      exact .inr ⟨text, rfl, rfl⟩
  | false =>
    refine .inr ⟨rfl, ?_⟩
    rcases token with none | ⟨text, -, with_⟩
    · rw [none]
      rfl
    · rw [on] at with_
      cases with_

theorem SubmitArgs.carries {args : SubmitArgs} (proper : args.proper = true) {env : ClientEnv}
    {num : Int} (fits : (RequestId.int num).Fits) {params : Option Json}
    (sent : args.sentParams num = .ok params) : (args.request env num).Carries params := by
  obtain ⟨-, keyed, unnamed⟩ := SubmitArgs.proper_cases proper
  unfold SubmitArgs.sentParams at sent
  rcases SubmitArgs.proper_token proper num with ⟨on, token⟩ | ⟨silent, -⟩
  · simp only [on, if_true] at sent
    have given : args.token num ≠ .null := by
      rcases token with own | ⟨text, own, -⟩
      · rw [own]
        simp
      · rw [own]
        simp
    have tokenFits : (args.token num).Fits := by
      rcases token with own | ⟨text, own, -⟩
      · rw [own]
        exact fits
      · rw [own]
        exact True.intro
    cases written : withProgressToken args.params (args.token num) with
    | error e =>
      rw [written] at sent
      cases sent
    | ok p =>
      rw [written] at sent
      cases sent
      refine ⟨fun p' same => ?_, ?_⟩
      · cases same
        exact (withProgressToken_read tokenFits given keyed written).1
      · show PendingRequest.HasKey _ (requestProgressToken (.int num) p.reread)
        rw [(withProgressToken_read tokenFits given keyed written).2]
        rcases token with own | ⟨text, own, -⟩
        · exact .inl own
        · refine .inr ⟨?_, rfl⟩
          simp [PendingRequest.hasOwnToken, SubmitArgs.request, own, RequestId.isNull]
  · simp only [silent, Bool.false_eq_true, if_false, Except.ok.injEq] at sent
    subst sent
    exact ⟨keyed, .inl (requestProgressToken_unnamed (unnamed silent))⟩

end CppMcp
