import CppMcp.Types.Content

namespace CppMcp

/-- `PromptsCapability` and `ToolsCapability`. -/
structure ListCapability where
  listChanged : Option Bool := none
deriving DecidableEq

structure ResourcesCapability where
  subscribe : Option Bool := none
  listChanged : Option Bool := none
deriving DecidableEq

structure ServerCapabilities where
  prompts : Option ListCapability := none
  resources : Option ResourcesCapability := none
  tools : Option ListCapability := none
  logging : Option Unit := none
  completions : Option Unit := none
  experimental : Option Json := none
deriving DecidableEq

def ListCapability.toJson (c : ListCapability) : Json :=
  .mk (written .bool "listChanged" c.listChanged)

def ListCapability.fromJson (j : Json) : Except Exn ListCapability := do
  return ⟨← optionalMember Json.getBool j "listChanged"⟩

def ResourcesCapability.toJson (c : ResourcesCapability) : Json :=
  .mk (written .bool "subscribe" c.subscribe ++ written .bool "listChanged" c.listChanged)

def ResourcesCapability.fromJson (j : Json) : Except Exn ResourcesCapability := do
  return ⟨← optionalMember Json.getBool j "subscribe",
    ← optionalMember Json.getBool j "listChanged"⟩

/-- An empty capability, written as an empty object and read from any value. -/
def emptyCapability : Unit → Json := fun _ => .object []

def ServerCapabilities.toJson (c : ServerCapabilities) : Json :=
  .mk (written ListCapability.toJson "prompts" c.prompts ++
    written ResourcesCapability.toJson "resources" c.resources ++
    written ListCapability.toJson "tools" c.tools ++
    written emptyCapability "logging" c.logging ++
    written emptyCapability "completions" c.completions ++
    written id "experimental" c.experimental)

def ServerCapabilities.fromJson (j : Json) : Except Exn ServerCapabilities := do
  return {
    prompts := ← optionalMember ListCapability.fromJson j "prompts"
    resources := ← optionalMember ResourcesCapability.fromJson j "resources"
    tools := ← optionalMember ListCapability.fromJson j "tools"
    logging := ← optionalMember (fun _ => .ok ()) j "logging"
    completions := ← optionalMember (fun _ => .ok ()) j "completions"
    experimental := ← optionalMember .ok j "experimental" }

structure ClientCapabilities where
  sampling : Option Unit := none
  elicitation : Option Unit := none
  roots : Option ListCapability := none
  experimental : Option Json := none
deriving DecidableEq

def ClientCapabilities.toJson (c : ClientCapabilities) : Json :=
  .mk (written emptyCapability "sampling" c.sampling ++
    written emptyCapability "elicitation" c.elicitation ++
    written ListCapability.toJson "roots" c.roots ++
    written id "experimental" c.experimental)

/-- `from_json` writes into its argument as it goes, so a throw leaves the members
    decoded before it: the second component is that argument in the end. -/
def ClientCapabilities.fromJson (j : Json) (c : ClientCapabilities) :
    Except Exn Unit × ClientCapabilities :=
  let c := if j.contains "sampling" then { c with sampling := some () } else c
  let c := if j.contains "elicitation" then { c with elicitation := some () } else c
  match optionalMember ListCapability.fromJson j "roots" with
  | .error e => (.error e, c)
  | .ok roots =>
    let c := { c with roots := roots.or c.roots }
    (.ok (), { c with experimental := (j.find? "experimental").or c.experimental })

structure Implementation where
  name : String
  version : String
deriving DecidableEq

def Implementation.toJson (impl : Implementation) : Json :=
  .mk [("name", .string impl.name), ("version", .string impl.version)]

def Implementation.fromJson (j : Json) : Except Exn Implementation := do
  return ⟨← member Json.getString j "name", ← member Json.getString j "version"⟩

structure InitializeResult where
  protocolVersion : String
  capabilities : ServerCapabilities
  serverInfo : Implementation
  instructions : Option String := none
deriving DecidableEq

def InitializeResult.toJson (r : InitializeResult) : Json :=
  .mk ([("protocolVersion", .string r.protocolVersion),
    ("capabilities", r.capabilities.toJson), ("serverInfo", r.serverInfo.toJson)] ++
    written .string "instructions" r.instructions)

def InitializeResult.fromJson (j : Json) : Except Exn InitializeResult := do
  return {
    protocolVersion := ← member Json.getString j "protocolVersion"
    capabilities := ← member ServerCapabilities.fromJson j "capabilities"
    serverInfo := ← member Implementation.fromJson j "serverInfo"
    instructions := ← optionalMember Json.getString j "instructions" }

/-- The `EmptyResult` of ping, subscribe and setLevel. -/
def emptyResult : Json := .object []

end CppMcp
