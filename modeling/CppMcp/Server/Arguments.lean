import CppMcp.Server.Calls
import CppMcp.Server.Conforms

namespace CppMcp

open Lib

variable {υ : Type}

theorem getStringParam_ok {params : Json} {key name : String}
    (named : params.find? key = some (.string name)) : getStringParam params key = .ok name := by
  unfold getStringParam
  rw [named]

theorem processRequest_returns {info : ServerInfo} {req : JsonRpcRequest} {sessionId : SessionId}
    {s s' : Server υ} {response : Json}
    (returned : (dispatchMethod info req sessionId).run.run s = (.ok response, s')) :
    processRequest info req sessionId s = (response, s') := by
  unfold processRequest
  rw [returned]

theorem dispatchMethod_toolsCall (info : ServerInfo) {req : JsonRpcRequest}
    (method : req.method = Protocol.methodToolsCall) (sessionId : SessionId) {s : Server υ}
    (opened : s.initialized = true) :
    (dispatchMethod info req sessionId).run.run s =
      (handleToolsCall req.id (req.params.getD (.object [])) sessionId).run.run s := by
  have gated : req.isGated = true := deferrable_gated (by rw [method]; decide)
  rw [dispatchMethod_serves info gated sessionId opened]
  unfold serveMethod
  rw [method]
  rfl

theorem dispatchMethod_promptsGet (info : ServerInfo) {req : JsonRpcRequest}
    (method : req.method = Protocol.methodPromptsGet) (sessionId : SessionId) {s : Server υ}
    (opened : s.initialized = true) :
    (dispatchMethod info req sessionId).run.run s =
      (handlePromptsGet req.id (req.params.getD (.object [])) sessionId).run.run s := by
  have gated : req.isGated = true := deferrable_gated (by rw [method]; decide)
  rw [dispatchMethod_serves info gated sessionId opened]
  unfold serveMethod
  rw [method]
  rfl

/-- A tool's handler is called with the value that came and with none that its schema refuses,
    which is answered as bad params instead. -/
structure ToolChecks (schema value : Json) (id : RequestId) (calls : List HandlerCall)
    (response : Json) : Prop where
  called : ∀ call ∈ calls, ∃ ctx, call = .tool value ctx ∧ Conforms value schema
  refused : ¬ Conforms value schema → calls = [] ∧ ∃ message, response = invalidParams id message

/-- The argument check of a tool call holds exactly if the value that came is an object, or the
    empty object that the handler gets in its place is refused too. -/
theorem tool_arguments_checked_iff (info : ServerInfo) (registry : Registry υ)
    (s : Server (υ × List HandlerCall)) (watch : s.handlers = registry.watched)
    (opened : s.initialized = true) (req : JsonRpcRequest)
    (method : req.method = Protocol.methodToolsCall) (sessionId : SessionId)
    (params value : Json) (sent : req.params = some params) (name : String)
    (named : params.find? "name" = some (.string name)) (tool : Tool)
    (handler : Json → RequestContext → Handler υ CallToolResult)
    (registered : registry.tools.lookup name = some (tool, handler))
    (given : params.find? "arguments" = some value) :
    ∃ calls, s.Called (processRequest info req sessionId s).2 calls ∧
      (ToolChecks tool.inputSchema value req.id calls (processRequest info req sessionId s).1 ↔
        value.isObject = true ∨ ¬ Conforms (.object []) tool.inputSchema) := by
  have dispatched := dispatchMethod_toolsCall info method sessionId opened
  rw [sent, Option.getD_some] at dispatched
  have named := getStringParam_ok named
  have decides := schemaValidate_iff (params.objectMember "arguments") tool.inputSchema ""
  have taken := objectMember_given given
  by_cases conforms : Conforms (params.objectMember "arguments") tool.inputSchema
  · have called := toolsCall_calls watch named registered (decides.mpr conforms) req.id sessionId
    refine ⟨_, by rwa [processRequest_state, dispatched], ?_⟩
    by_cases object : value.isObject = true
    · rw [if_pos object] at taken
      rw [taken] at conforms ⊢
      refine iff_of_true ?_ (.inl object)
      constructor
      · intro call member
        exact ⟨_, List.mem_singleton.mp member, conforms⟩
      · exact fun refused => absurd conforms refused
    · rw [if_neg object] at taken
      rw [taken] at conforms ⊢
      refine iff_of_false (fun checks => ?_) (by simp [object, conforms])
      obtain ⟨ctx, same, -⟩ := checks.called _ (List.mem_singleton.mpr rfl)
      cases same
      exact object rfl
  · have refused := toolsCall_refuses watch named registered (fun valid => conforms (decides.mp valid))
      req.id sessionId
    have answered := processRequest_returns (dispatched.trans refused)
    rw [answered]
    refine ⟨[], called_none, iff_of_true ?_ ?_⟩
    · constructor
      · intro call member
        cases member
      · exact fun _ => ⟨rfl, _, rfl⟩
    by_cases object : value.isObject = true
    · exact .inl object
    · rw [taken, if_neg object] at conforms
      exact .inr conforms

def countSchema : Json := .object [("type", .string "object")]

def countRegistry : Registry Unit where
  tools := [("count", { name := "count", inputSchema := countSchema }, fun _ _ => pure {})]

/-- The arguments of this call are the number five. -/
def countFive : JsonRpcRequest :=
  ⟨.int 1, Protocol.methodToolsCall, some (.object [("arguments", .integer 5),
    ("name", .string "count")])⟩

theorem count_checks_objects :
    ∃ calls, (watchedServer countRegistry).Called
      (processRequest {} countFive (ascii "a") (watchedServer countRegistry)).2 calls ∧
      (ToolChecks countSchema (.integer 5) (.int 1) calls
        (processRequest {} countFive (ascii "a") (watchedServer countRegistry)).1 ↔
        (Json.integer 5).isObject = true ∨ ¬ Conforms (.object []) countSchema) :=
  tool_arguments_checked_iff {} countRegistry (watchedServer countRegistry) rfl rfl countFive rfl
    (ascii "a") _ (.integer 5) rfl "count" rfl _ _ rfl rfl

/-- The number that the schema refuses becomes an empty object, and the tool runs on it. -/
theorem count_runs_on_nothing :
    ¬ Conforms (.integer 5) countSchema ∧
    ∃ s, run (Server.step {}) (Server.initial ((), []))
      (watchedRun countRegistry (ascii "a") countFive) = some s ∧
      s.user.2 = [.tool (.object []) ⟨.int 1, .int 1, ascii "a"⟩] ∧
      ∃ result, s.answers = [(1, makeSuccessResponse (.int 1) result)] := by
  constructor
  · rw [← schemaValidate_iff _ _ ""]
    decide
  · exact ⟨_, rfl, rfl, _, rfl⟩

/-- Absent from the arguments, or null in them. -/
def PromptArgument.Lacking (arg : PromptArgument) (arguments : Json) : Prop :=
  ((arguments.find? arg.name).getD .null).isNull = true

theorem missingArgument_iff (prompt : Prompt) (arguments : Json) :
    missingArgument prompt arguments = none ↔
      ∀ arg ∈ prompt.arguments.getD [], arg.required ≠ none → ¬ arg.Lacking arguments := by
  unfold missingArgument PromptArgument.Lacking
  rw [List.findSome?_eq_none_iff]
  refine forall₂_congr fun arg _ => ?_
  cases arg.required <;> simp

theorem missingArgument_some {prompt : Prompt} {arguments : Json} {name : String}
    (missing : missingArgument prompt arguments = some name) :
    ∃ arg ∈ prompt.arguments.getD [], arg.name = name ∧ arg.required ≠ none ∧
      arg.Lacking arguments := by
  obtain ⟨arg, member, found⟩ := List.exists_of_findSome?_eq_some missing
  split at found
  · rename_i lacking
    cases found
    exact ⟨arg, member, rfl, by simpa [Option.isSome_iff_ne_none] using lacking.1, lacking.2⟩
  · cases found

/-- Some argument that is declared as required is lacking. -/
def Prompt.Incomplete (prompt : Prompt) (arguments : Json) : Prop :=
  ∃ arg ∈ prompt.arguments.getD [], arg.required = some true ∧ arg.Lacking arguments

/-- A request lacking what is required gets the error about it, and any other one gets the
    handler, with its arguments as they are. -/
structure PromptChecks (prompt : Prompt) (name : String) (arguments : Json) (id : RequestId)
    (calls : List HandlerCall) (response : Json) : Prop where
  refused : (calls = [] ∧ ∃ arg ∈ prompt.arguments.getD [], response = invalidParams id
      ("Missing required argument '" ++ arg.name ++ "' for prompt '" ++ name ++ "'")) ↔
    prompt.Incomplete arguments
  called : ¬ prompt.Incomplete arguments → ∃ ctx, calls = [.prompt name arguments ctx]

/-- The argument check of a prompt holds exactly if something required is lacking, or nothing
    that is declared as not required is. -/
theorem prompt_arguments_checked_iff (info : ServerInfo) (registry : Registry υ)
    (s : Server (υ × List HandlerCall)) (watch : s.handlers = registry.watched)
    (opened : s.initialized = true) (req : JsonRpcRequest)
    (method : req.method = Protocol.methodPromptsGet) (sessionId : SessionId)
    (params : Json) (sent : req.params = some params) (name : String)
    (named : params.find? "name" = some (.string name)) (prompt : Prompt)
    (handler : String → Json → RequestContext → Handler υ GetPromptResult)
    (registered : registry.prompts.lookup name = some (prompt, handler))
    (members : List (String × Json)) (given : params.find? "arguments" = some (.object members)) :
    ∃ calls, s.Called (processRequest info req sessionId s).2 calls ∧
      (PromptChecks prompt name (.object members) req.id calls
          (processRequest info req sessionId s).1 ↔
        prompt.Incomplete (.object members) ∨ ∀ arg ∈ prompt.arguments.getD [],
          arg.required = some false → ¬ arg.Lacking (.object members)) := by
  have dispatched := dispatchMethod_promptsGet info method sessionId opened
  rw [sent, Option.getD_some] at dispatched
  have named := getStringParam_ok named
  have taken : params.objectMember "arguments" = .object members := objectMember_given given
  cases missing : missingArgument prompt (.object members) with
  | none =>
    have complete := (missingArgument_iff prompt _).mp missing
    rw [← taken] at missing
    have called := promptsGet_calls watch named registered missing req.id sessionId
    refine ⟨_, by rwa [processRequest_state, dispatched], ?_⟩
    rw [taken]
    have whole : ¬ prompt.Incomplete (.object members) := by
      rintro ⟨arg, member, required, lacking⟩
      exact complete arg member (by simp [required]) lacking
    refine iff_of_true ?_ (.inr fun arg member optional => complete arg member (by simp [optional]))
    constructor
    · exact iff_of_false (fun refused => by cases refused.1) whole
    · exact fun _ => ⟨_, rfl⟩
  | some lacked =>
    obtain ⟨arg, member, own, marked, lacking⟩ := missingArgument_some missing
    rw [← taken] at missing
    have refused := promptsGet_refuses watch named registered missing req.id sessionId
    rw [processRequest_returns (dispatched.trans refused)]
    refine ⟨[], called_none, ?_⟩
    by_cases incomplete : prompt.Incomplete (.object members)
    · refine iff_of_true ?_ (.inl incomplete)
      constructor
      · exact iff_of_true ⟨rfl, arg, member, by rw [own]⟩ incomplete
      · exact fun whole => absurd incomplete whole
    · have optional : arg.required = some false := by
        cases mark : arg.required with
        | none => exact absurd mark marked
        | some required =>
          cases required with
          | false => rfl
          | true => exact absurd ⟨arg, member, mark, lacking⟩ incomplete
      refine iff_of_false (fun checks => ?_) ?_
      · obtain ⟨ctx, none⟩ := checks.called incomplete
        cases none
      · rintro (some | all)
        · exact incomplete some
        · exact all arg member optional lacking

def poem : Prompt := { name := "poem", arguments := some [⟨"style", none, some false⟩] }

def poemRegistry : Registry Unit where
  prompts := [("poem", poem, fun _ _ _ => pure {})]

def poemWithoutStyle : JsonRpcRequest :=
  ⟨.int 1, Protocol.methodPromptsGet, some (.object [("arguments", .object []),
    ("name", .string "poem")])⟩

theorem poem_checks_marked :
    ∃ calls, (watchedServer poemRegistry).Called
      (processRequest {} poemWithoutStyle (ascii "a") (watchedServer poemRegistry)).2 calls ∧
      (PromptChecks poem "poem" (.object []) (.int 1) calls
        (processRequest {} poemWithoutStyle (ascii "a") (watchedServer poemRegistry)).1 ↔
        poem.Incomplete (.object []) ∨ ∀ arg ∈ poem.arguments.getD [],
          arg.required = some false → ¬ arg.Lacking (.object [])) :=
  prompt_arguments_checked_iff {} poemRegistry (watchedServer poemRegistry) rfl rfl
    poemWithoutStyle rfl (ascii "a") _ rfl "poem" rfl _ _ rfl [] rfl

/-- The one argument is declared as not required, and the request without it is refused. -/
theorem poem_demands_style :
    ¬ poem.Incomplete (.object []) ∧
    ∃ s, run (Server.step {}) (Server.initial ((), []))
      (watchedRun poemRegistry (ascii "a") poemWithoutStyle) = some s ∧ s.user.2 = [] ∧
      s.answers = [(1, invalidParams (.int 1)
        "Missing required argument 'style' for prompt 'poem'")] := by
  constructor
  · rintro ⟨arg, member, required, -⟩
    rw [List.mem_singleton.mp member] at required
    cases required
  · exact ⟨_, rfl, rfl, rfl⟩

end CppMcp
