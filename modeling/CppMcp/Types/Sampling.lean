import CppMcp.Types.Content

namespace CppMcp

structure SamplingMessage where
  role : String
  content : Content
deriving DecidableEq

def SamplingMessage.toJson (m : SamplingMessage) : Json :=
  .mk [("role", .string m.role), ("content", contentToJson m.content)]

def SamplingMessage.fromJson (j : Json) : Except Exn SamplingMessage := do
  return ⟨← member Json.getString j "role", ← member contentFromJson j "content"⟩

structure ModelHint where
  name : Option String := none
deriving DecidableEq

def ModelHint.toJson (h : ModelHint) : Json := .mk (written .string "name" h.name)

def ModelHint.fromJson (j : Json) : Except Exn ModelHint := do
  return ⟨← optionalMember Json.getString j "name"⟩

structure ModelPreferences where
  hints : List ModelHint := []
  costPriority : Option Double := none
  speedPriority : Option Double := none
  intelligencePriority : Option Double := none
deriving DecidableEq

def ModelPreferences.toJson (p : ModelPreferences) : Json :=
  .mk ((if p.hints = [] then [] else [("hints", .array (p.hints.map ModelHint.toJson))]) ++
    written .float "costPriority" p.costPriority ++
    written .float "speedPriority" p.speedPriority ++
    written .float "intelligencePriority" p.intelligencePriority)

def ModelPreferences.fromJson (j : Json) : Except Exn ModelPreferences := do
  let hints ← optionalMember (fun v => v.items.mapM ModelHint.fromJson) j "hints"
  return ⟨hints.getD [], ← optionalMember Json.getDouble j "costPriority",
    ← optionalMember Json.getDouble j "speedPriority",
    ← optionalMember Json.getDouble j "intelligencePriority"⟩

structure CreateMessageRequestParams where
  messages : List SamplingMessage := []
  modelPreferences : Option ModelPreferences := none
  systemPrompt : Option String := none
  includeContext : Option String := none
  temperature : Option Double := none
  maxTokens : Option Int := none
  stopSequences : List String := []
  metadata : Option Json := none
deriving DecidableEq

def CreateMessageRequestParams.toJson (p : CreateMessageRequestParams) : Json :=
  .mk ([("messages", .array (p.messages.map SamplingMessage.toJson))] ++
    written ModelPreferences.toJson "modelPreferences" p.modelPreferences ++
    written .string "systemPrompt" p.systemPrompt ++
    written .string "includeContext" p.includeContext ++
    written .float "temperature" p.temperature ++ written .ofInt "maxTokens" p.maxTokens ++
    (if p.stopSequences = [] then []
      else [("stopSequences", .array (p.stopSequences.map .string))]) ++
    written id "metadata" p.metadata)

def CreateMessageRequestParams.fromJson (j : Json) : Except Exn CreateMessageRequestParams := do
  let messages ← (← j.atKey "messages").items.mapM SamplingMessage.fromJson
  let modelPreferences ← optionalMember ModelPreferences.fromJson j "modelPreferences"
  let systemPrompt ← optionalMember Json.getString j "systemPrompt"
  let includeContext ← optionalMember Json.getString j "includeContext"
  let temperature ← optionalMember Json.getDouble j "temperature"
  let maxTokens ← optionalMember Json.getInt64 j "maxTokens"
  let stopSequences ← optionalMember (Json.getVector Json.getString) j "stopSequences"
  return ⟨messages, modelPreferences, systemPrompt, includeContext, temperature, maxTokens,
    stopSequences.getD [], j.find? "metadata"⟩

structure CreateMessageResult where
  role : String
  content : Content
  model : String
  stopReason : String := ""
deriving DecidableEq

def CreateMessageResult.toJson (r : CreateMessageResult) : Json :=
  .mk [("role", .string r.role), ("content", contentToJson r.content),
    ("model", .string r.model), ("stopReason", .string r.stopReason)]

def CreateMessageResult.fromJson (j : Json) : Except Exn CreateMessageResult := do
  let role ← member Json.getString j "role"
  let content ← member contentFromJson j "content"
  let model ← member Json.getString j "model"
  let stopReason ← optionalMember Json.getString j "stopReason"
  return ⟨role, content, model, stopReason.getD ""⟩

structure ElicitRequestParams where
  message : String
  requestedSchema : Option Json := none
deriving DecidableEq

def ElicitRequestParams.toJson (p : ElicitRequestParams) : Json :=
  .mk ([("message", .string p.message)] ++ written id "requestedSchema" p.requestedSchema)

def ElicitRequestParams.fromJson (j : Json) : Except Exn ElicitRequestParams := do
  return ⟨← member Json.getString j "message", j.find? "requestedSchema"⟩

structure ElicitResult where
  action : String
  content : Option Json := none
deriving DecidableEq

def ElicitResult.toJson (r : ElicitResult) : Json :=
  .mk ([("action", .string r.action)] ++ written id "content" r.content)

def ElicitResult.fromJson (j : Json) : Except Exn ElicitResult := do
  return ⟨← member Json.getString j "action", j.find? "content"⟩

structure Root where
  uri : String
  name : Option String := none
deriving DecidableEq

def Root.toJson (r : Root) : Json :=
  .mk ([("uri", .string r.uri)] ++ written .string "name" r.name)

def Root.fromJson (j : Json) : Except Exn Root := do
  return ⟨← member Json.getString j "uri", ← optionalMember Json.getString j "name"⟩

structure ListRootsResult where
  roots : List Root := []
deriving DecidableEq

def ListRootsResult.toJson (r : ListRootsResult) : Json :=
  .mk [("roots", .array (r.roots.map Root.toJson))]

def ListRootsResult.fromJson (j : Json) : Except Exn ListRootsResult := do
  return ⟨← member (Json.getVector Root.fromJson) j "roots"⟩

end CppMcp
