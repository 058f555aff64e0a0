import CppMcp.Protocol

namespace CppMcp

/-- `if (j.contains(key)) j.at(key).get_to(x.emplace())`. -/
def optionalMember {α : Type} (get : Json → Except Exn α) (j : Json) (key : String) :
    Except Exn (Option α) :=
  match j.find? key with
  | some member => (get member).map some
  | none => .ok none

/-- `j.at(key).get_to(x)`. -/
def member {α : Type} (get : Json → Except Exn α) (j : Json) (key : String) : Except Exn α := do
  get (← j.atKey key)

/-- `if (x) j[key] = *x`. -/
def written {α : Type} (put : α → Json) (key : String) (x : Option α) : List (String × Json) :=
  (x.map fun value => (key, put value)).toList

structure TextContent where
  type : String := "text"
  text : String
deriving DecidableEq

def TextContent.toJson (t : TextContent) : Json :=
  .mk [("type", .string t.type), ("text", .string t.text)]

def TextContent.fromJson (j : Json) : Except Exn TextContent := do
  return ⟨← member Json.getString j "type", ← member Json.getString j "text"⟩

/-- `ImageContent` and `AudioContent`, which have the same fields and the same codec. -/
structure MediaContent where
  type : String
  data : String
  mimeType : String
deriving DecidableEq

def MediaContent.toJson (m : MediaContent) : Json :=
  .mk [("type", .string m.type), ("data", .string m.data), ("mimeType", .string m.mimeType)]

def MediaContent.fromJson (j : Json) : Except Exn MediaContent := do
  return ⟨← member Json.getString j "type", ← member Json.getString j "data",
    ← member Json.getString j "mimeType"⟩

structure ResourceContents where
  uri : String
  mimeType : String := ""
  text : Option String := none
  blob : Option String := none
deriving DecidableEq

/-- An empty `mimeType` is left out. -/
def ResourceContents.toJson (r : ResourceContents) : Json :=
  .mk ([("uri", .string r.uri)] ++
    (if r.mimeType = "" then [] else [("mimeType", .string r.mimeType)]) ++
    written .string "text" r.text ++ written .string "blob" r.blob)

def ResourceContents.fromJson (j : Json) : Except Exn ResourceContents := do
  let uri ← member Json.getString j "uri"
  let mimeType ← optionalMember Json.getString j "mimeType"
  return ⟨uri, mimeType.getD "", ← optionalMember Json.getString j "text",
    ← optionalMember Json.getString j "blob"⟩

structure EmbeddedResource where
  type : String := "resource"
  resource : ResourceContents
deriving DecidableEq

def EmbeddedResource.toJson (e : EmbeddedResource) : Json :=
  .mk [("type", .string e.type), ("resource", e.resource.toJson)]

def EmbeddedResource.fromJson (j : Json) : Except Exn EmbeddedResource := do
  return ⟨← member Json.getString j "type", ← member ResourceContents.fromJson j "resource"⟩

structure ResourceLink where
  type : String := "resource_link"
  name : String
  uri : String
  description : Option String := none
  mimeType : Option String := none
deriving DecidableEq

def ResourceLink.toJson (rl : ResourceLink) : Json :=
  .mk ([("type", .string rl.type), ("name", .string rl.name), ("uri", .string rl.uri)] ++
    written .string "description" rl.description ++ written .string "mimeType" rl.mimeType)

def ResourceLink.fromJson (j : Json) : Except Exn ResourceLink := do
  return ⟨← member Json.getString j "type", ← member Json.getString j "name",
    ← member Json.getString j "uri", ← optionalMember Json.getString j "description",
    ← optionalMember Json.getString j "mimeType"⟩

/-- The `Content` variant. -/
inductive Content where
  | text (c : TextContent)
  | image (c : MediaContent)
  | audio (c : MediaContent)
  | resource (c : EmbeddedResource)
  | resourceLink (c : ResourceLink)
deriving DecidableEq

def contentToJson : Content → Json
  | .text c => c.toJson
  | .image c => c.toJson
  | .audio c => c.toJson
  | .resource c => c.toJson
  | .resourceLink c => c.toJson

def contentFromJson (j : Json) : Except Exn Content := do
  let type ← member Json.getString j "type"
  if type = "text" then return .text (← TextContent.fromJson j)
  if type = "image" then return .image (← MediaContent.fromJson j)
  if type = "audio" then return .audio (← MediaContent.fromJson j)
  if type = "resource" then return .resource (← EmbeddedResource.fromJson j)
  if type = "resource_link" then return .resourceLink (← ResourceLink.fromJson j)
  throw (.std ("Unknown content type: " ++ type))

end CppMcp
