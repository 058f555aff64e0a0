import CppMcp.Types.Content

namespace CppMcp

structure ToolAnnotations where
  readOnlyHint : Option Bool := none
  destructiveHint : Option Bool := none
  idempotentHint : Option Bool := none
  openWorldHint : Option Bool := none
deriving DecidableEq

def ToolAnnotations.toJson (ta : ToolAnnotations) : Json :=
  .mk (written .bool "readOnlyHint" ta.readOnlyHint ++
    written .bool "destructiveHint" ta.destructiveHint ++
    written .bool "idempotentHint" ta.idempotentHint ++
    written .bool "openWorldHint" ta.openWorldHint)

def ToolAnnotations.fromJson (j : Json) : Except Exn ToolAnnotations := do
  return ⟨← optionalMember Json.getBool j "readOnlyHint",
    ← optionalMember Json.getBool j "destructiveHint",
    ← optionalMember Json.getBool j "idempotentHint",
    ← optionalMember Json.getBool j "openWorldHint"⟩

structure Tool where
  name : String
  title : Option String := none
  description : Option String := none
  inputSchema : Json
  outputSchema : Option Json := none
  annotations : Option ToolAnnotations := none
deriving DecidableEq

def Tool.toJson (t : Tool) : Json :=
  .mk ([("name", .string t.name), ("inputSchema", t.inputSchema)] ++
    written .string "title" t.title ++ written .string "description" t.description ++
    written id "outputSchema" t.outputSchema ++
    written ToolAnnotations.toJson "annotations" t.annotations)

def Tool.fromJson (j : Json) : Except Exn Tool := do
  return {
    name := ← member Json.getString j "name"
    inputSchema := ← member .ok j "inputSchema"
    title := ← optionalMember Json.getString j "title"
    description := ← optionalMember Json.getString j "description"
    outputSchema := ← optionalMember .ok j "outputSchema"
    annotations := ← optionalMember ToolAnnotations.fromJson j "annotations" }

structure CallToolResult where
  content : List Content := []
  structuredContent : Option Json := none
  isError : Bool := false
deriving DecidableEq

/-- `isError` is written only when set. -/
def CallToolResult.toJson (r : CallToolResult) : Json :=
  .mk ([("content", .array (r.content.map contentToJson))] ++
    written id "structuredContent" r.structuredContent ++
    (if r.isError then [("isError", .bool true)] else []))

def CallToolResult.fromJson (j : Json) : Except Exn CallToolResult := do
  let content ← (← j.atKey "content").items.mapM contentFromJson
  let structuredContent ← optionalMember .ok j "structuredContent"
  return ⟨content, structuredContent, ← j.value Json.getBool "isError" false⟩

structure ResourceAnnotations where
  audience : Option (List String) := none
  priority : Option Double := none
deriving DecidableEq

def ResourceAnnotations.toJson (ra : ResourceAnnotations) : Json :=
  .mk (written (fun v => .array (v.map .string)) "audience" ra.audience ++
    written .float "priority" ra.priority)

def ResourceAnnotations.fromJson (j : Json) : Except Exn ResourceAnnotations := do
  return ⟨← optionalMember (Json.getVector Json.getString) j "audience",
    ← optionalMember Json.getDouble j "priority"⟩

structure Resource where
  name : String
  title : Option String := none
  uri : String
  description : Option String := none
  mimeType : Option String := none
  annotations : Option ResourceAnnotations := none
deriving DecidableEq

def Resource.toJson (r : Resource) : Json :=
  .mk ([("name", .string r.name), ("uri", .string r.uri)] ++
    written .string "title" r.title ++ written .string "description" r.description ++
    written .string "mimeType" r.mimeType ++
    written ResourceAnnotations.toJson "annotations" r.annotations)

def Resource.fromJson (j : Json) : Except Exn Resource := do
  return {
    name := ← member Json.getString j "name"
    uri := ← member Json.getString j "uri"
    title := ← optionalMember Json.getString j "title"
    description := ← optionalMember Json.getString j "description"
    mimeType := ← optionalMember Json.getString j "mimeType"
    annotations := ← optionalMember ResourceAnnotations.fromJson j "annotations" }

structure ReadResourceResult where
  contents : List ResourceContents := []
deriving DecidableEq

def ReadResourceResult.toJson (r : ReadResourceResult) : Json :=
  .mk [("contents", .array (r.contents.map ResourceContents.toJson))]

def ReadResourceResult.fromJson (j : Json) : Except Exn ReadResourceResult := do
  return ⟨← member (Json.getVector ResourceContents.fromJson) j "contents"⟩

structure ResourceTemplate where
  name : String
  title : Option String := none
  uriTemplate : String
  description : Option String := none
  mimeType : Option String := none
deriving DecidableEq

def ResourceTemplate.toJson (rt : ResourceTemplate) : Json :=
  .mk ([("name", .string rt.name), ("uriTemplate", .string rt.uriTemplate)] ++
    written .string "title" rt.title ++ written .string "description" rt.description ++
    written .string "mimeType" rt.mimeType)

def ResourceTemplate.fromJson (j : Json) : Except Exn ResourceTemplate := do
  return {
    name := ← member Json.getString j "name"
    uriTemplate := ← member Json.getString j "uriTemplate"
    title := ← optionalMember Json.getString j "title"
    description := ← optionalMember Json.getString j "description"
    mimeType := ← optionalMember Json.getString j "mimeType" }

structure PromptArgument where
  name : String
  description : Option String := none
  required : Option Bool := none
deriving DecidableEq

def PromptArgument.toJson (pa : PromptArgument) : Json :=
  .mk ([("name", .string pa.name)] ++ written .string "description" pa.description ++
    written .bool "required" pa.required)

def PromptArgument.fromJson (j : Json) : Except Exn PromptArgument := do
  return ⟨← member Json.getString j "name", ← optionalMember Json.getString j "description",
    ← optionalMember Json.getBool j "required"⟩

structure Prompt where
  name : String
  title : Option String := none
  description : Option String := none
  arguments : Option (List PromptArgument) := none
deriving DecidableEq

def Prompt.toJson (p : Prompt) : Json :=
  .mk ([("name", .string p.name)] ++ written .string "title" p.title ++
    written .string "description" p.description ++
    written (fun v => .array (v.map PromptArgument.toJson)) "arguments" p.arguments)

def Prompt.fromJson (j : Json) : Except Exn Prompt := do
  return ⟨← member Json.getString j "name", ← optionalMember Json.getString j "title",
    ← optionalMember Json.getString j "description",
    ← optionalMember (Json.getVector PromptArgument.fromJson) j "arguments"⟩

structure PromptMessage where
  role : String
  content : Content
deriving DecidableEq

def PromptMessage.toJson (pm : PromptMessage) : Json :=
  .mk [("role", .string pm.role), ("content", contentToJson pm.content)]

def PromptMessage.fromJson (j : Json) : Except Exn PromptMessage := do
  return ⟨← member Json.getString j "role", ← member contentFromJson j "content"⟩

structure GetPromptResult where
  description : Option String := none
  messages : List PromptMessage := []
deriving DecidableEq

def GetPromptResult.toJson (r : GetPromptResult) : Json :=
  .mk (written .string "description" r.description ++
    [("messages", .array (r.messages.map PromptMessage.toJson))])

def GetPromptResult.fromJson (j : Json) : Except Exn GetPromptResult := do
  let description ← optionalMember Json.getString j "description"
  return ⟨description, ← member (Json.getVector PromptMessage.fromJson) j "messages"⟩

structure CompletionArgument where
  name : String := ""
  value : String := ""
deriving DecidableEq

structure CompletionReference where
  type : String := ""
  name : String := ""
deriving DecidableEq

structure Completion where
  values : List String := []
  hasMore : Option Bool := none
  total : Option Int := none
deriving DecidableEq

def Completion.toJson (c : Completion) : Json :=
  .mk ([("values", .array (c.values.map .string))] ++ written .bool "hasMore" c.hasMore ++
    written .ofInt "total" c.total)

structure CompleteResult where
  completion : Completion
deriving DecidableEq

def CompleteResult.toJson (r : CompleteResult) : Json :=
  .mk [("completion", r.completion.toJson)]

end CppMcp
