import CppMcp.Types.Catalog
import CppMcp.Types.Handshake
import CppMcp.Types.Sampling

namespace CppMcp

/-- What an optional member that `find` gives is read as. -/
def optionalOf {α : Type} (get : Json → Except Exn α) : Option Json → Except Exn (Option α)
  | some member => (get member).map some
  | none => .ok none

@[simp] theorem optionalMember_mk {α : Type} (get : Json → Except Exn α)
    (members : List (String × Json)) (key : String) :
    optionalMember get (.mk members) key = optionalOf get (members.reverse.lookup key) := by
  rw [optionalMember, find?_mk]
  rfl

@[simp] theorem atKey_mk {members : List (String × Json)} {key : String} {value : Json}
    (found : members.reverse.lookup key = some value) : (Json.mk members).atKey key = .ok value := by
  have looked := find?_mk members key
  rw [found] at looked
  simp only [Json.mk, Json.find?_object] at looked ⊢
  simp only [Json.atKey, looked]

@[simp] theorem value_mk {α : Type} (get : Json → Except Exn α) (members : List (String × Json))
    (key : String) (default : α) : (Json.mk members).value get key default =
      (optionalOf get (members.reverse.lookup key)).map fun x => x.getD default := by
  have looked := find?_mk members key
  simp only [Json.mk, Json.find?_object] at looked ⊢
  simp only [Json.value, looked]
  cases members.reverse.lookup key with
  | none => rfl
  | some value =>
    simp only [optionalOf]
    cases get value <;> rfl

@[simp] theorem lookup_written {α : Type} (put : α → Json) (key other : String) (x : Option α) :
    (written put key x).reverse.lookup other = if other = key then x.map put else none := by
  cases x with
  | none => simp [written]
  | some value => by_cases same : other = key <;> simp [written, same]

@[simp] theorem lookup_omitted (p : Prop) [Decidable p] (key other : String) (value : Json) :
    (if p then [] else [(key, value)]).reverse.lookup other =
      if other = key ∧ ¬ p then some value else none := by
  by_cases omitted : p <;> by_cases same : other = key <;> simp [omitted, same]

theorem optionalOf_map {α : Type} {put : α → Json} {get : Json → Except Exn α} {x : Option α}
    (reads : ∀ value ∈ x, get (put value) = .ok value) : optionalOf get (x.map put) = .ok x := by
  cases x with
  | none => rfl
  | some value => simp only [Option.map_some, optionalOf, reads value rfl, Except.map]

theorem mapM_map {α : Type} {put : α → Json} {get : Json → Except Exn α} {xs : List α}
    (reads : ∀ x ∈ xs, get (put x) = .ok x) : (xs.map put).mapM get = .ok xs := by
  induction xs with
  | nil => rfl
  | cons x xs ih =>
    have head := reads x List.mem_cons_self
    have tail := ih fun x member => reads x (List.mem_cons_of_mem _ member)
    rw [List.map_cons, List.mapM_cons, head, tail]
    rfl

theorem getVector_map {α : Type} {put : α → Json} {get : Json → Except Exn α} {xs : List α}
    (reads : ∀ x ∈ xs, get (put x) = .ok x) : Json.getVector get (.array (xs.map put)) = .ok xs :=
  mapM_map reads

@[simp] theorem ok_bind {α β : Type} (a : α) (f : α → Except Exn β) :
    (Except.ok a >>= f) = f a := rfl

@[simp] theorem member_mk {α : Type} (get : Json → Except Exn α) {members : List (String × Json)}
    {key : String} {value : Json} (found : members.reverse.lookup key = some value) :
    member get (.mk members) key = get value := by
  rw [member, atKey_mk found]
  rfl

attribute [simp] find?_mk

@[simp] theorem getString_string (value : String) : Json.getString (.string value) = .ok value := rfl

@[simp] theorem optionalOf_string (x : Option String) :
    optionalOf Json.getString (x.map .string) = .ok x := optionalOf_map fun _ _ => rfl

@[simp] theorem optionalOf_bool (x : Option Bool) :
    optionalOf Json.getBool (x.map .bool) = .ok x := optionalOf_map fun _ _ => rfl

@[simp] theorem optionalOf_float (x : Option Double) :
    optionalOf Json.getDouble (x.map .float) = .ok x := optionalOf_map fun _ _ => rfl

/-- A JSON member is kept as it is, null or not. -/
@[simp] theorem optionalOf_json (x : Option Json) : optionalOf .ok x = .ok x := by
  cases x <;> rfl

@[simp] theorem optionalOf_empty (x : Option Unit) :
    optionalOf (fun _ => .ok ()) (x.map emptyCapability) = .ok x := optionalOf_map fun _ _ => rfl

@[simp] theorem getVector_strings (xs : List String) :
    Json.getVector Json.getString (.array (xs.map .string)) = .ok xs :=
  getVector_map fun _ _ => rfl

@[simp] theorem optionalOf_none {α : Type} (get : Json → Except Exn α) :
    optionalOf get none = .ok none := rfl

@[simp] theorem optionalOf_some {α : Type} {get : Json → Except Exn α} {j : Json} {x : α}
    (reads : get j = .ok x) : optionalOf get (some j) = .ok (some x) := by
  rw [optionalOf, reads]
  rfl

@[simp] theorem pure_ok {α : Type} (a : α) : (pure a : Except Exn α) = .ok a := rfl

@[simp] theorem map_ok {α β : Type} (f : α → β) (a : α) :
    (Except.ok a : Except Exn α).map f = .ok (f a) := rfl

theorem TextContent.round_trip (t : TextContent) : TextContent.fromJson t.toJson = .ok t := by
  simp [TextContent.fromJson, TextContent.toJson]

theorem MediaContent.round_trip (m : MediaContent) : MediaContent.fromJson m.toJson = .ok m := by
  simp [MediaContent.fromJson, MediaContent.toJson]

/-- An empty MIME type is left out and defaults to the empty one. -/
theorem ResourceContents.round_trip (r : ResourceContents) :
    ResourceContents.fromJson r.toJson = .ok r := by
  obtain ⟨uri, mimeType, text, blob⟩ := r
  by_cases omitted : mimeType = "" <;>
    simp [ResourceContents.fromJson, ResourceContents.toJson, List.lookup_append, omitted]

theorem EmbeddedResource.round_trip (e : EmbeddedResource) :
    EmbeddedResource.fromJson e.toJson = .ok e := by
  simp [EmbeddedResource.fromJson, EmbeddedResource.toJson,
    ResourceContents.round_trip]

theorem ResourceLink.round_trip (rl : ResourceLink) :
    ResourceLink.fromJson rl.toJson = .ok rl := by
  simp [ResourceLink.fromJson, ResourceLink.toJson, List.lookup_append]

/-- The item carries the type tag of its own alternative. -/
def Content.Tagged : Content → Prop
  | .text c => c.type = "text"
  | .image c => c.type = "image"
  | .audio c => c.type = "audio"
  | .resource c => c.type = "resource"
  | .resourceLink c => c.type = "resource_link"

theorem content_round_trip {c : Content} (tagged : c.Tagged) :
    contentFromJson (contentToJson c) = .ok c := by
  cases c with
  | text c =>
    have tag : member Json.getString c.toJson "type" = .ok c.type := by
      simp [TextContent.toJson]
    rw [contentFromJson, contentToJson, tag, ok_bind, tagged, c.round_trip]
    rfl
  | image c =>
    have tag : member Json.getString c.toJson "type" = .ok c.type := by
      simp [MediaContent.toJson]
    rw [contentFromJson, contentToJson, tag, ok_bind, tagged, c.round_trip]
    rfl
  | audio c =>
    have tag : member Json.getString c.toJson "type" = .ok c.type := by
      simp [MediaContent.toJson]
    rw [contentFromJson, contentToJson, tag, ok_bind, tagged, c.round_trip]
    rfl
  | resource c =>
    have tag : member Json.getString c.toJson "type" = .ok c.type := by
      simp [EmbeddedResource.toJson]
    rw [contentFromJson, contentToJson, tag, ok_bind, tagged, c.round_trip]
    rfl
  | resourceLink c =>
    have tag : member Json.getString c.toJson "type" = .ok c.type := by
      simp [ResourceLink.toJson, List.lookup_append]
    rw [contentFromJson, contentToJson, tag, ok_bind, tagged, c.round_trip]
    rfl

theorem ToolAnnotations.round_trip (ta : ToolAnnotations) :
    ToolAnnotations.fromJson ta.toJson = .ok ta := by
  simp [ToolAnnotations.fromJson, ToolAnnotations.toJson, List.lookup_append]

theorem Tool.round_trip (t : Tool) : Tool.fromJson t.toJson = .ok t := by
  have annotations : optionalOf ToolAnnotations.fromJson (t.annotations.map ToolAnnotations.toJson) =
      .ok t.annotations := optionalOf_map fun ta _ => ta.round_trip
  simp [Tool.fromJson, Tool.toJson, List.lookup_append, annotations]

/-- An absent `isError` is read as false, which is not written. -/
theorem CallToolResult.round_trip {r : CallToolResult} (tagged : ∀ c ∈ r.content, c.Tagged) :
    CallToolResult.fromJson r.toJson = .ok r := by
  have content : (r.content.map contentToJson).mapM contentFromJson = .ok r.content :=
    mapM_map fun c member => content_round_trip (tagged c member)
  obtain ⟨items, structuredContent, isError⟩ := r
  cases isError <;>
    simp [CallToolResult.fromJson, CallToolResult.toJson, List.lookup_append, content,
      Json.items, Json.getBool]

theorem ResourceAnnotations.round_trip (ra : ResourceAnnotations) :
    ResourceAnnotations.fromJson ra.toJson = .ok ra := by
  have audience : optionalOf (Json.getVector Json.getString)
      (ra.audience.map fun v => .array (v.map .string)) = .ok ra.audience :=
    optionalOf_map fun v _ => getVector_strings v
  simp [ResourceAnnotations.fromJson, ResourceAnnotations.toJson, List.lookup_append, audience]

theorem Resource.round_trip (r : Resource) : Resource.fromJson r.toJson = .ok r := by
  have annotations : optionalOf ResourceAnnotations.fromJson
      (r.annotations.map ResourceAnnotations.toJson) = .ok r.annotations :=
    optionalOf_map fun ra _ => ra.round_trip
  simp [Resource.fromJson, Resource.toJson, List.lookup_append, annotations]

theorem ReadResourceResult.round_trip (r : ReadResourceResult) :
    ReadResourceResult.fromJson r.toJson = .ok r := by
  have contents : Json.getVector ResourceContents.fromJson
      (.array (r.contents.map ResourceContents.toJson)) = .ok r.contents :=
    getVector_map fun c _ => c.round_trip
  simp [ReadResourceResult.fromJson, ReadResourceResult.toJson, contents]

theorem ResourceTemplate.round_trip (rt : ResourceTemplate) :
    ResourceTemplate.fromJson rt.toJson = .ok rt := by
  simp [ResourceTemplate.fromJson, ResourceTemplate.toJson, List.lookup_append]

theorem PromptArgument.round_trip (pa : PromptArgument) :
    PromptArgument.fromJson pa.toJson = .ok pa := by
  simp [PromptArgument.fromJson, PromptArgument.toJson, List.lookup_append]

theorem Prompt.round_trip (p : Prompt) : Prompt.fromJson p.toJson = .ok p := by
  have arguments : optionalOf (Json.getVector PromptArgument.fromJson)
      (p.arguments.map fun v => .array (v.map PromptArgument.toJson)) = .ok p.arguments :=
    optionalOf_map fun v _ => getVector_map fun pa _ => pa.round_trip
  simp [Prompt.fromJson, Prompt.toJson, List.lookup_append, arguments]

theorem PromptMessage.round_trip {pm : PromptMessage} (tagged : pm.content.Tagged) :
    PromptMessage.fromJson pm.toJson = .ok pm := by
  simp [PromptMessage.fromJson, PromptMessage.toJson, content_round_trip tagged]

theorem GetPromptResult.round_trip {r : GetPromptResult}
    (tagged : ∀ m ∈ r.messages, m.content.Tagged) : GetPromptResult.fromJson r.toJson = .ok r := by
  have messages : Json.getVector PromptMessage.fromJson
      (.array (r.messages.map PromptMessage.toJson)) = .ok r.messages :=
    getVector_map fun m member => PromptMessage.round_trip (tagged m member)
  simp [GetPromptResult.fromJson, GetPromptResult.toJson, messages]

theorem ListCapability.round_trip (c : ListCapability) :
    ListCapability.fromJson c.toJson = .ok c := by
  simp [ListCapability.fromJson, ListCapability.toJson]

theorem ResourcesCapability.round_trip (c : ResourcesCapability) :
    ResourcesCapability.fromJson c.toJson = .ok c := by
  simp [ResourcesCapability.fromJson, ResourcesCapability.toJson, List.lookup_append]

theorem optionalOf_list (x : Option ListCapability) :
    optionalOf ListCapability.fromJson (x.map ListCapability.toJson) = .ok x :=
  optionalOf_map fun c _ => c.round_trip

theorem ServerCapabilities.round_trip (c : ServerCapabilities) :
    ServerCapabilities.fromJson c.toJson = .ok c := by
  have resources : optionalOf ResourcesCapability.fromJson
      (c.resources.map ResourcesCapability.toJson) = .ok c.resources :=
    optionalOf_map fun r _ => r.round_trip
  simp [ServerCapabilities.fromJson, ServerCapabilities.toJson, List.lookup_append,
    optionalOf_list, resources]

/-- Into a default-constructed argument. -/
theorem ClientCapabilities.round_trip (c : ClientCapabilities) :
    ClientCapabilities.fromJson c.toJson {} = (.ok (), c) := by
  obtain ⟨sampling, elicitation, roots, experimental⟩ := c
  cases sampling <;> cases elicitation <;>
    simp [ClientCapabilities.fromJson, ClientCapabilities.toJson, List.lookup_append,
      optionalOf_list, Json.contains]

theorem Implementation.round_trip (impl : Implementation) :
    Implementation.fromJson impl.toJson = .ok impl := by
  simp [Implementation.fromJson, Implementation.toJson]

theorem InitializeResult.round_trip (r : InitializeResult) :
    InitializeResult.fromJson r.toJson = .ok r := by
  simp [InitializeResult.fromJson, InitializeResult.toJson, List.lookup_append,
    ServerCapabilities.round_trip, Implementation.round_trip]

theorem ModelHint.round_trip (h : ModelHint) : ModelHint.fromJson h.toJson = .ok h := by
  simp [ModelHint.fromJson, ModelHint.toJson]

/-- No hints are left out, and an absent member is read as no hints. -/
theorem ModelPreferences.round_trip (p : ModelPreferences) :
    ModelPreferences.fromJson p.toJson = .ok p := by
  obtain ⟨hints, costPriority, speedPriority, intelligencePriority⟩ := p
  have read : (hints.map ModelHint.toJson).mapM ModelHint.fromJson = .ok hints :=
    mapM_map fun h _ => h.round_trip
  by_cases omitted : hints = [] <;>
    simp [ModelPreferences.fromJson, ModelPreferences.toJson, List.lookup_append, omitted,
      Json.items, read]

theorem SamplingMessage.round_trip {m : SamplingMessage} (tagged : m.content.Tagged) :
    SamplingMessage.fromJson m.toJson = .ok m := by
  simp [SamplingMessage.fromJson, SamplingMessage.toJson, content_round_trip tagged]

/-- The token limit is an `int64_t`. -/
def CreateMessageRequestParams.Fits (p : CreateMessageRequestParams) : Prop :=
  ∀ n ∈ p.maxTokens, -2 ^ 63 ≤ n ∧ n < 2 ^ 63

theorem getInt64_ofInt {n : Int} (fits : -2 ^ 63 ≤ n ∧ n < 2 ^ 63) :
    (Json.ofInt n).getInt64 = .ok n :=
  congrArg Except.ok (Int64.toInt_ofInt_of_le fits.1 fits.2)

theorem CreateMessageRequestParams.round_trip {p : CreateMessageRequestParams}
    (tagged : ∀ m ∈ p.messages, m.content.Tagged) (fits : p.Fits) :
    CreateMessageRequestParams.fromJson p.toJson = .ok p := by
  have messages : (p.messages.map SamplingMessage.toJson).mapM SamplingMessage.fromJson =
      .ok p.messages := mapM_map fun m member => SamplingMessage.round_trip (tagged m member)
  have preferences : optionalOf ModelPreferences.fromJson
      (p.modelPreferences.map ModelPreferences.toJson) = .ok p.modelPreferences :=
    optionalOf_map fun p _ => p.round_trip
  have tokens : optionalOf Json.getInt64 (p.maxTokens.map .ofInt) = .ok p.maxTokens :=
    optionalOf_map fun n member => getInt64_ofInt (fits n member)
  have sequences : optionalOf (Json.getVector Json.getString)
      (if p.stopSequences = [] then none else some (.array (p.stopSequences.map .string))) =
        .ok (if p.stopSequences = [] then none else some p.stopSequences) := by
    by_cases omitted : p.stopSequences = [] <;> simp [omitted]
  have restored : (if p.stopSequences = [] then none else some p.stopSequences).getD [] =
      p.stopSequences := by
    by_cases omitted : p.stopSequences = [] <;> simp [omitted]
  simp [CreateMessageRequestParams.fromJson, CreateMessageRequestParams.toJson,
    List.lookup_append, Json.items, messages, preferences, tokens, sequences,
    restored]

theorem CreateMessageResult.round_trip {r : CreateMessageResult} (tagged : r.content.Tagged) :
    CreateMessageResult.fromJson r.toJson = .ok r := by
  simp [CreateMessageResult.fromJson, CreateMessageResult.toJson,
    content_round_trip tagged]

theorem ElicitRequestParams.round_trip (p : ElicitRequestParams) :
    ElicitRequestParams.fromJson p.toJson = .ok p := by
  simp [ElicitRequestParams.fromJson, ElicitRequestParams.toJson, List.lookup_append]

theorem ElicitResult.round_trip (r : ElicitResult) : ElicitResult.fromJson r.toJson = .ok r := by
  simp [ElicitResult.fromJson, ElicitResult.toJson, List.lookup_append]

theorem Root.round_trip (r : Root) : Root.fromJson r.toJson = .ok r := by
  simp [Root.fromJson, Root.toJson, List.lookup_append]

theorem ListRootsResult.round_trip (r : ListRootsResult) :
    ListRootsResult.fromJson r.toJson = .ok r := by
  have roots : Json.getVector Root.fromJson (.array (r.roots.map Root.toJson)) = .ok r.roots :=
    getVector_map fun r _ => r.round_trip
  simp [ListRootsResult.fromJson, ListRootsResult.toJson, roots]

/-- What `to_json` writes, `from_json` reads back into a default-constructed value, for
    every type that has both. -/
theorem wire_round_trip :
    (∀ t : TextContent, TextContent.fromJson t.toJson = .ok t) ∧
    (∀ m : MediaContent, MediaContent.fromJson m.toJson = .ok m) ∧
    (∀ e : EmbeddedResource, EmbeddedResource.fromJson e.toJson = .ok e) ∧
    (∀ rl : ResourceLink, ResourceLink.fromJson rl.toJson = .ok rl) ∧
    (∀ c : Content, c.Tagged → contentFromJson (contentToJson c) = .ok c) ∧
    (∀ ta : ToolAnnotations, ToolAnnotations.fromJson ta.toJson = .ok ta) ∧
    (∀ t : Tool, Tool.fromJson t.toJson = .ok t) ∧
    (∀ r : CallToolResult, (∀ c ∈ r.content, c.Tagged) → CallToolResult.fromJson r.toJson = .ok r) ∧
    (∀ r : ResourceContents, ResourceContents.fromJson r.toJson = .ok r) ∧
    (∀ ra : ResourceAnnotations, ResourceAnnotations.fromJson ra.toJson = .ok ra) ∧
    (∀ r : Resource, Resource.fromJson r.toJson = .ok r) ∧
    (∀ r : ReadResourceResult, ReadResourceResult.fromJson r.toJson = .ok r) ∧
    (∀ rt : ResourceTemplate, ResourceTemplate.fromJson rt.toJson = .ok rt) ∧
    (∀ pa : PromptArgument, PromptArgument.fromJson pa.toJson = .ok pa) ∧
    (∀ p : Prompt, Prompt.fromJson p.toJson = .ok p) ∧
    (∀ pm : PromptMessage, pm.content.Tagged → PromptMessage.fromJson pm.toJson = .ok pm) ∧
    (∀ r : GetPromptResult, (∀ m ∈ r.messages, m.content.Tagged) →
      GetPromptResult.fromJson r.toJson = .ok r) ∧
    (∀ c : ServerCapabilities, ServerCapabilities.fromJson c.toJson = .ok c) ∧
    (∀ c : ClientCapabilities, ClientCapabilities.fromJson c.toJson {} = (.ok (), c)) ∧
    (∀ impl : Implementation, Implementation.fromJson impl.toJson = .ok impl) ∧
    (∀ r : InitializeResult, InitializeResult.fromJson r.toJson = .ok r) ∧
    (∀ h : ModelHint, ModelHint.fromJson h.toJson = .ok h) ∧
    (∀ p : ModelPreferences, ModelPreferences.fromJson p.toJson = .ok p) ∧
    (∀ m : SamplingMessage, m.content.Tagged → SamplingMessage.fromJson m.toJson = .ok m) ∧
    (∀ p : CreateMessageRequestParams, (∀ m ∈ p.messages, m.content.Tagged) → p.Fits →
      CreateMessageRequestParams.fromJson p.toJson = .ok p) ∧
    (∀ r : CreateMessageResult, r.content.Tagged → CreateMessageResult.fromJson r.toJson = .ok r) ∧
    (∀ p : ElicitRequestParams, ElicitRequestParams.fromJson p.toJson = .ok p) ∧
    (∀ r : ElicitResult, ElicitResult.fromJson r.toJson = .ok r) ∧
    (∀ r : Root, Root.fromJson r.toJson = .ok r) ∧
    (∀ r : ListRootsResult, ListRootsResult.fromJson r.toJson = .ok r) :=
  ⟨TextContent.round_trip, MediaContent.round_trip, EmbeddedResource.round_trip,
    ResourceLink.round_trip, fun _ => content_round_trip, ToolAnnotations.round_trip,
    Tool.round_trip, fun _ => CallToolResult.round_trip, ResourceContents.round_trip,
    ResourceAnnotations.round_trip, Resource.round_trip, ReadResourceResult.round_trip,
    ResourceTemplate.round_trip, PromptArgument.round_trip, Prompt.round_trip,
    fun _ => PromptMessage.round_trip, fun _ => GetPromptResult.round_trip,
    ServerCapabilities.round_trip, ClientCapabilities.round_trip, Implementation.round_trip,
    InitializeResult.round_trip, ModelHint.round_trip, ModelPreferences.round_trip,
    fun _ => SamplingMessage.round_trip, fun _ => CreateMessageRequestParams.round_trip,
    fun _ => CreateMessageResult.round_trip, ElicitRequestParams.round_trip,
    ElicitResult.round_trip, Root.round_trip, ListRootsResult.round_trip⟩

/-- An explicit null stays apart from an absent member. -/
theorem failed_call_round_trip :
    CallToolResult.fromJson
        (CallToolResult.toJson ⟨[.text ⟨"text", "no"⟩], some .null, true⟩) =
      .ok ⟨[.text ⟨"text", "no"⟩], some .null, true⟩ := by
  obtain ⟨-, -, -, -, -, -, -, result, -⟩ := wire_round_trip
  refine result _ fun c member => ?_
  cases List.mem_singleton.mp member
  rfl

end CppMcp
