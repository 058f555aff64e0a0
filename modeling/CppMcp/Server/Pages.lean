import CppMcp.JsonRpc.RoundTrip
import CppMcp.Lib.Pages
import CppMcp.Server.Listing
import CppMcp.Server.Machine

namespace CppMcp

open Lib

variable {υ : Type}

/-- The number that a text of digits is written for. -/
def decimal (digits : String) : Nat := Nat.ofDigitChars 10 digits.toList 0

theorem stoull_eq (digits : String) : stoull digits =
    if decimal digits < 2 ^ 64 then .ok (decimal digits) else .error (.std "stoull") := by
  unfold stoull decimal
  rw [Nat.ofDigitChars_eq_foldl]

theorem decimal_toString (n : Nat) : decimal (toString n) = n := by
  unfold decimal
  rw [Nat.toString_eq_ofList_toDigits, String.toList_ofList, Nat.ofDigitChars_ten_toDigits]

theorem digits_toString (n : Nat) : (toString n).toList.all (fun c => c.isDigit) = true := by
  rw [Nat.toString_eq_ofList_toDigits, String.toList_ofList, List.all_eq_true]
  intro c member
  exact Nat.isDigit_of_mem_toDigits (by decide) (by decide) member

theorem toString_ne_empty (n : Nat) : toString n ≠ "" := by
  rw [Nat.toString_eq_ofList_toDigits]
  intro empty
  have chars := congrArg String.toList empty
  rw [String.toList_ofList] at chars
  exact Nat.toDigits_ne_nil chars

/-- The number that the cursor of a list request denotes, of whatever size. -/
def cursorNumber (params : Json) : Option Nat :=
  match params.stringMember "cursor" with
  | none => some 0
  | some cursor =>
    if cursor = "" then some 0
    else if cursor.toList.all fun c => c.isDigit then some (decimal cursor)
    else none

theorem cursorOffset_eq (params : Json) : cursorOffset params =
    match cursorNumber params with
    | none => .ok none
    | some o => if o < 2 ^ 64 then .ok (some o) else .error (.std "stoull") := by
  unfold cursorOffset cursorNumber
  cases params.stringMember "cursor" with
  | none => rfl
  | some cursor =>
    dsimp only
    split
    · rfl
    · split
      · rw [stoull_eq]
        dsimp only
        split <;> rfl
      · rfl

/-- The result of a paginated list request. -/
def pageResult (key : String) (items : List Json) (first last : Nat) : Json :=
  let result := Json.null.set key (.array (items.extract first last))
  if last < items.length then result.set "nextCursor" (.string (toString last)) else result

theorem page_eq (key : String) (items : List Json) (offset size : Nat) :
    page key items offset size =
      if min ((offset + size) % 2 ^ 64) items.length < min offset items.length then
        .error (.std "cannot create std::vector larger than max_size()")
      else .ok (pageResult key items (min offset items.length)
        (min ((offset + size) % 2 ^ 64) items.length)) := by
  simp only [page, pageResult, List.extract_eq_take_drop]

def ListKind.method : ListKind → String
  | tools => Protocol.methodToolsList
  | resources => Protocol.methodResourcesList
  | resourceTemplates => Protocol.methodResourcesTemplateList
  | prompts => Protocol.methodPromptsList

/-- What produces the items of a list request. -/
def ListKind.produceItems : ListKind → ServerM υ (List Json)
  | tools => do
    let handlers := (← get).handlers
    listItems handlers.toolList (handlers.tools.map fun entry => entry.2.1) Tool.toJson
  | resources => do
    let handlers := (← get).handlers
    listItems handlers.resourceList (handlers.resources.map fun entry => entry.2.1) Resource.toJson
  | resourceTemplates => do
    let handlers := (← get).handlers
    listItems handlers.resourceTemplateList (handlers.resourceTemplates.map fun entry => entry.2.1)
      ResourceTemplate.toJson
  | prompts => do
    let handlers := (← get).handlers
    listItems handlers.promptList (handlers.prompts.map fun entry => entry.2.1) Prompt.toJson

variable (info : ServerInfo)

theorem serveMethod_lists (kind : ListKind) (id : RequestId) (params : Option Json) (p : Json)
    (sessionId : SessionId) :
    (serveMethod info ⟨id, kind.method, params⟩ p sessionId : ServerM υ Json) =
      handleListRequest id kind.field kind.key p kind.produceItems := by
  cases kind <;> rfl

theorem dispatchMethod_lists (kind : ListKind) (id : RequestId) (params : Option Json)
    (sessionId : SessionId) {s : Server υ} (initialized : s.initialized = true) :
    (dispatchMethod info ⟨id, kind.method, params⟩ sessionId).run.run s =
      (handleListRequest id kind.field kind.key (params.getD (.object []))
        kind.produceItems).run.run s := by
  have gate : kind.method ≠ Protocol.methodInitialize ∧ kind.method ≠ Protocol.methodPing := by
    cases kind <;> decide
  simp only [dispatchMethod, gate.1, gate.2, if_false]
  rw [run_get_bind, if_pos initialized, serveMethod_lists]

/-- The producer returns these items and does nothing but run user code. -/
def Server.Lists (s : Server υ) (kind : ListKind) (items : List Json) : Prop :=
  ∃ user, kind.produceItems.run.run s = (.ok items, { s with user })

/-- A server that answers its list requests in pages. -/
structure Server.Paginates (s : Server υ) (kind : ListKind) (items : List Json) (n : Nat) :
    Prop where
  initialized : s.initialized = true
  size : s.listPageSize = n
  positive : 0 < n
  sized : n < 2 ^ 64
  lists : s.Lists kind items

/-- The answer of a list request that brings one page. -/
def pageResponse (id : RequestId) (key : String) (items : List Json) (n o : Nat) : Json :=
  if min ((o + n) % 2 ^ 64) items.length < min o items.length then
    makeErrorResponse id Protocol.internalError "cannot create std::vector larger than max_size()"
  else makeSuccessResponse id (pageResult key items (min o items.length)
    (min ((o + n) % 2 ^ 64) items.length))

theorem handleListRequest_paginated {s : Server υ} (paginated : 0 < s.listPageSize)
    {produceItems : ServerM υ (List Json)} {items : List Json} {user : υ}
    (produced : produceItems.run.run s = (.ok items, { s with user })) (id : RequestId)
    (field : CacheField) (key : String) (params : Json) :
    (handleListRequest id field key params produceItems).run.run s =
      match cursorNumber params with
      | none => (.ok (invalidParams id "Invalid cursor"), s)
      | some o =>
        if o < 2 ^ 64 then
          ((page key items o s.listPageSize).map (makeSuccessResponse id), { s with user })
        else (.error (.std "stoull"), s) := by
  rw [handleListRequest_steps, run_get_bind, probeList_paginated _ paginated, cursorOffset_eq]
  cases cursorNumber params with
  | none => rfl
  | some o =>
    dsimp only
    split
    · show (produceItems >>= _ : ServerM υ Json).run.run s = _
      rw [run_bind_ok produced]
      simp only [listResult, if_true]
      cases page key items o s.listPageSize <;> rfl
    · rfl

theorem processRequest_page {s : Server υ} {kind : ListKind} {items : List Json} {n : Nat}
    (paginates : s.Paginates kind items n) (id : RequestId) (params : Option Json)
    (sessionId : SessionId) :
    (processRequest info ⟨id, kind.method, params⟩ sessionId s).1 =
      match cursorNumber (params.getD (.object [])) with
      | none => invalidParams id "Invalid cursor"
      | some o =>
        if o < 2 ^ 64 then pageResponse id kind.key items n o
        else makeErrorResponse id Protocol.internalError "stoull" := by
  obtain ⟨user, produced⟩ := paginates.lists
  have paginated : 0 < s.listPageSize := by
    rw [paginates.size]
    exact paginates.positive
  unfold processRequest
  rw [dispatchMethod_lists info kind id params sessionId paginates.initialized,
    handleListRequest_paginated paginated produced, paginates.size]
  cases cursorNumber (params.getD (.object [])) with
  | none => rfl
  | some o =>
    by_cases small : o < 2 ^ 64
    · simp only [if_pos small, page_eq, pageResponse]
      by_cases reversed : min ((o + n) % 2 ^ 64) items.length < min o items.length
      · simp only [if_pos reversed]
        rfl
      · simp only [if_neg reversed]
        rfl
    · simp only [if_neg small]

/-- The page that the cursor asks for, in numbers without bounds, or an error about the params. -/
def InBounds (id : RequestId) (key : String) (items : List Json) (n : Nat) (params response : Json) :
    Prop :=
  (∃ o result, cursorNumber params = some o ∧ response = makeSuccessResponse id result ∧
    result.find? key =
      some (.array (items.extract (min o items.length) (min (o + n) items.length)))) ∨
  ∃ message, response = invalidParams id message

/-- The offset is a `size_t`, and its sum with the page size does not wrap into the list. -/
def PlainOffset (o n size : Nat) : Prop := o < 2 ^ 64 ∧ (o + n < 2 ^ 64 ∨ size + 2 ^ 64 ≤ o + n)

theorem pageResult_key (kind : ListKind) (items : List Json) (first last : Nat) :
    (pageResult kind.key items first last).find? kind.key =
      some (.array (items.extract first last)) := by
  have other : kind.key ≠ "nextCursor" := by
    cases kind <;> decide
  unfold pageResult
  dsimp only
  split
  · simp [Json.set, Json.lookup_insertMember, other]
  · simp [Json.set]

theorem internal_not_inBounds (id : RequestId) (key : String) (items : List Json) (n : Nat)
    (params : Json) (message : String) :
    ¬ InBounds id key items n params (makeErrorResponse id Protocol.internalError message) := by
  rintro (⟨o, result, -, same, -⟩ | ⟨why, same⟩)
  · have member := congrArg (fun j => j.find? "result") same
    simp [makeErrorResponse, makeSuccessResponse, find?_mk] at member
  · have member := congrArg (fun j => (j.find? "error").bind fun e => e.find? "code") same
    simp [makeErrorResponse, invalidParams, errorObject, find?_mk] at member
    revert member
    decide

theorem pageResponse_inBounds_iff {kind : ListKind} {id : RequestId} {items : List Json} {n o : Nat}
    {params : Json} (found : cursorNumber params = some o) (small : o < 2 ^ 64)
    (sized : n < 2 ^ 64) :
    InBounds id kind.key items n params (pageResponse id kind.key items n o) ↔
      PlainOffset o n items.length := by
  unfold pageResponse PlainOffset
  by_cases reversed : min ((o + n) % 2 ^ 64) items.length < min o items.length
  · rw [if_pos reversed]
    constructor
    · intro inBounds
      exact absurd inBounds (internal_not_inBounds id kind.key items n params _)
    · omega
  · rw [if_neg reversed]
    constructor
    · omega
    · intro plain
      have same : min ((o + n) % 2 ^ 64) items.length = min (o + n) items.length := by omega
      rw [same]
      exact .inl ⟨o, _, found, rfl, pageResult_key kind items _ _⟩

/-- A list request is answered by the page that its cursor asks for, or turned down, exactly where
    the arithmetic of the offsets does not leave the range of `size_t` for the list. -/
theorem list_request_in_bounds_iff {s : Server υ} {kind : ListKind} {items : List Json} {n : Nat}
    (paginates : s.Paginates kind items n) (id : RequestId) (params : Option Json)
    (sessionId : SessionId) :
    InBounds id kind.key items n (params.getD (.object []))
        (processRequest info ⟨id, kind.method, params⟩ sessionId s).1 ↔
      ∀ o, cursorNumber (params.getD (.object [])) = some o → PlainOffset o n items.length := by
  rw [processRequest_page info paginates]
  cases found : cursorNumber (params.getD (.object [])) with
  | none => exact ⟨fun _ o asked => (by cases asked), fun _ => .inr ⟨_, rfl⟩⟩
  | some o =>
    have only : (∀ o', some o = some o' → PlainOffset o' n items.length) ↔
        PlainOffset o n items.length :=
      ⟨fun plain => plain o rfl, fun plain o' same => Option.some.inj same ▸ plain⟩
    rw [only]
    dsimp only
    by_cases small : o < 2 ^ 64
    · rw [if_pos small]
      exact pageResponse_inBounds_iff found small paginates.sized
    · rw [if_neg small]
      constructor
      · intro inBounds
        exact absurd inBounds (internal_not_inBounds id kind.key items n _ _)
      · exact fun plain => absurd plain.1 small

/-- Two tools that are listed one by one, once a client is initialized. -/
def servesTools (n : Nat) : List (ServerEvent Unit) :=
  [.registers { tools :=
    [("a", { name := "a", inputSchema := .object [] }, fun _ _ => pure {}),
      ("b", { name := "b", inputSchema := .object [] }, fun _ _ => pure {})] },
    .setsPageSize n, .runs true,
    .arrives (serializeNotification ⟨Protocol.notifInitialized, none⟩) [] false]

def twoTools : List Json :=
  [Tool.toJson { name := "a", inputSchema := .object [] },
    Tool.toJson { name := "b", inputSchema := .object [] }]

theorem servesTools_paginates {n : Nat} (positive : 0 < n) (sized : n < 2 ^ 64) : ∃ s,
    run (Server.step {}) (Server.initial ()) (servesTools n) = some s ∧
    s.Paginates .tools twoTools n :=
  ⟨_, rfl, rfl, rfl, positive, sized, (), rfl⟩

theorem second_tool_in_bounds : ∃ s, run (Server.step {}) (Server.initial ()) (servesTools 1) =
    some s ∧ s.Paginates .tools twoTools 1 ∧
    InBounds (.int 1) ListKind.tools.key twoTools 1 (.mk [("cursor", .string "1")])
      (processRequest {} ⟨.int 1, ListKind.tools.method, some (.mk [("cursor", .string "1")])⟩
        [] s).1 := by
  obtain ⟨s, served, paginates⟩ := servesTools_paginates (n := 1) (by decide) (by decide)
  have inBounds := list_request_in_bounds_iff {} paginates (.int 1)
    (some (.mk [("cursor", .string "1")])) []
  refine ⟨s, served, paginates, inBounds.mpr ?_⟩
  intro o asked
  have one : cursorNumber (Json.mk [("cursor", .string "1")]) = some 1 := by decide
  rw [Option.getD_some, one] at asked
  cases asked
  exact ⟨by decide, .inl (by decide)⟩

/-- The cursor 2^64 - 1 asks for the page behind the end and brings an internal error. -/
theorem wrapped_offset_fails : ∃ s, run (Server.step {}) (Server.initial ()) (servesTools 1) =
    some s ∧ s.Paginates .tools twoTools 1 ∧
    ¬ InBounds (.int 1) ListKind.tools.key twoTools 1
      (.mk [("cursor", .string "18446744073709551615")])
      (processRequest {} ⟨.int 1, ListKind.tools.method,
        some (.mk [("cursor", .string "18446744073709551615")])⟩ [] s).1 := by
  obtain ⟨s, served, paginates⟩ := servesTools_paginates (n := 1) (by decide) (by decide)
  refine ⟨s, served, paginates, ?_⟩
  have largest : cursorNumber (Json.mk [("cursor", .string "18446744073709551615")]) =
      some (2 ^ 64 - 1) := by decide
  have reversed : pageResponse (.int 1) ListKind.tools.key twoTools 1 (2 ^ 64 - 1) =
      makeErrorResponse (.int 1) Protocol.internalError
        "cannot create std::vector larger than max_size()" := if_pos (by decide)
  rw [processRequest_page {} paginates, Option.getD_some, largest]
  show ¬ InBounds _ _ _ _ _ (pageResponse (.int 1) ListKind.tools.key twoTools 1 (2 ^ 64 - 1))
  rw [reversed]
  exact internal_not_inBounds _ _ _ _ _ _

/-- A `std::vector<nlohmann::json>`, with elements of 16 bytes. -/
abbrev JsonVector := { items : List Json // items.length ≤ (2 ^ 63 - 1) / 16 }

/-- `list_params` of the client. -/
def listParams : Option String → Json
  | none => .object []
  | some cursor => .mk [("cursor", .string cursor)]

/-- `take_next_cursor` of the client: no cursor is an empty one. -/
def takeNextCursor (result : Json) : String := (result.stringMember "nextCursor").getD ""

/-- The k-th call of a list method of the client, answered in the k-th state of the server. -/
def fetchPage (kind : ListKind) (sessionId : SessionId) (ids : Nat → Int64)
    (states : Nat → Server υ) (k : Nat) (cursor : Option String) :
    Option (List Json × Option (Option String)) :=
  let (response, _) :=
    processRequest info ⟨.int (ids k).toInt, kind.method, some (listParams cursor)⟩ sessionId (states k)
  match parseMessageClient response with
  | .success resp =>
    match resp.result.find? kind.key with
    | some (.array items) =>
      let next := takeNextCursor resp.result
      some (items, if next = "" then none else some (some next))
    | _ => none
  | _ => none

theorem cursorNumber_listParams (cursor : String) : cursorNumber (listParams (some cursor)) =
    if cursor = "" then some 0
    else if cursor.toList.all fun c => c.isDigit then some (decimal cursor) else none := by
  have member : (listParams (some cursor)).stringMember "cursor" = some cursor := by
    simp [Json.stringMember, listParams, find?_mk]
  unfold cursorNumber
  rw [member]

theorem cursorNumber_next (n : Nat) : cursorNumber (listParams (some (toString n))) = some n := by
  rw [cursorNumber_listParams, if_neg (toString_ne_empty n), if_pos (digits_toString n),
    decimal_toString]

theorem takeNextCursor_pageResult (kind : ListKind) (items : List Json) (first last : Nat) :
    takeNextCursor (pageResult kind.key items first last) =
      if last < items.length then toString last else "" := by
  have other : "nextCursor" ≠ kind.key := by
    cases kind <;> decide
  unfold takeNextCursor Json.stringMember pageResult
  by_cases more : last < items.length
  · simp [more, Json.set, Json.lookup_insertMember]
  · simp [more, Json.set, other]

theorem extract_page {α : Type} (items : List α) (o n : Nat) :
    items.extract (min o items.length) (min (o + n) items.length) = (items.drop o).take n := by
  rw [List.extract_eq_take_drop]
  by_cases inside : o ≤ items.length
  · rw [Nat.min_eq_left inside]
    apply List.take_eq_take_iff.mpr
    rw [List.length_drop]
    omega
  · rw [List.drop_of_length_le (by omega), List.drop_of_length_le (by omega), List.take_nil,
      List.take_nil]

/-- The cursor is the one of an offset from which a page is within the range of `size_t`. -/
def StandsFor (n : Nat) (cursor : Option String) (o : Nat) : Prop :=
  cursorNumber (listParams cursor) = some o ∧ o + n < 2 ^ 64

theorem fetchPage_paged {kind : ListKind} {items : JsonVector} {n : Nat} {states : Nat → Server υ}
    (steady : ∀ k, (states k).Paginates kind items.1 n) (ids : Nat → Int64)
    (sessionId : SessionId) :
    Paged (fetchPage info kind sessionId ids states) items.1 n (StandsFor n) := by
  intro k cursor o stands inside
  obtain ⟨found, plain⟩ := stands
  have bound := items.2
  have end_eq : min ((o + n) % 2 ^ 64) items.1.length = min (o + n) items.1.length := by omega
  have forward : ¬ min ((o + n) % 2 ^ 64) items.1.length < min o items.1.length := by omega
  have response : (processRequest info ⟨.int (ids k).toInt, kind.method, some (listParams cursor)⟩
      sessionId (states k)).1 = makeSuccessResponse (.int (ids k).toInt)
        (pageResult kind.key items.1 (min o items.1.length) (min (o + n) items.1.length)) := by
    rw [processRequest_page info (steady k), Option.getD_some, found]
    show (if o < 2 ^ 64 then _ else _) = _
    rw [if_pos (by omega), pageResponse, if_neg forward, end_eq]
  have fits : (RequestId.int (ids k).toInt).Fits := ⟨(ids k).le_toInt, (ids k).toInt_lt⟩
  have fetched : fetchPage info kind sessionId ids states k cursor =
      some ((items.1.drop o).take n, if min (o + n) items.1.length < items.1.length then
        some (some (toString (min (o + n) items.1.length))) else none) := by
    unfold fetchPage
    dsimp only
    rw [response, parseMessageClient_success (makeSuccessResponse_isSuccess fits _)]
    simp only [pageResult_key, takeNextCursor_pageResult, extract_page]
    by_cases more : min (o + n) items.1.length < items.1.length
    · simp only [if_pos more, if_neg (toString_ne_empty _)]
    · simp only [if_neg more, if_true]
  by_cases more : o + n < items.1.length
  · have until_end : min (o + n) items.1.length = o + n := by omega
    rw [until_end, if_pos more] at fetched
    exact ⟨_, fetched, .inr ⟨more, _, rfl, cursorNumber_next (o + n), by omega⟩⟩
  · rw [if_neg (by omega)] at fetched
    exact ⟨_, fetched, .inl ⟨by omega, rfl⟩⟩

/-- Whatever happens between the requests, as long as the list stays: the pages that the cursors
    lead through are the list, and all but the last are full. -/
theorem pagination_loses_nothing (kind : ListKind) (items : JsonVector) (n : Nat)
    (states : Nat → Server υ) (steady : ∀ k, (states k).Paginates kind items.1 n)
    (ids : Nat → Int64) (sessionId : SessionId) : ∃ pages,
    follow (fetchPage info kind sessionId ids states) (items.1.length + 1) 0 none = some pages ∧
    Pages n items.1 pages := by
  have first : StandsFor n none 0 := ⟨rfl, by have := (steady 0).sized; omega⟩
  have enough : items.1.length - 0 < items.1.length + 1 := by omega
  have followed := follow_pages (fetchPage_paged info steady ids sessionId) (steady 0).positive
    0 first (Nat.zero_le _) enough
  rw [List.drop_zero] at followed
  exact followed

theorem tools_listed_one_by_one : ∃ s pages,
    run (Server.step {}) (Server.initial ()) (servesTools 1) = some s ∧
    follow (fetchPage {} .tools [] (fun k => Int64.ofNat (k + 1)) fun _ => s) 3 0 none =
      some pages ∧ Pages 1 twoTools pages := by
  obtain ⟨s, served, paginates⟩ := servesTools_paginates (n := 1) (by decide) (by decide)
  obtain ⟨pages, followed, cut⟩ := pagination_loses_nothing {} .tools
    (⟨twoTools, by decide⟩ : JsonVector) 1 (fun _ => s) (fun _ => paginates)
    (fun k => Int64.ofNat (k + 1)) []
  exact ⟨s, pages, served, followed, cut⟩

end CppMcp
