import CppMcp.Server.Greetings

namespace CppMcp

open Lib

variable {υ : Type}

/-- The params of a request, as `dispatch_method` hands them on. -/
def JsonRpcRequest.given (req : JsonRpcRequest) : Json := req.params.getD (.object [])

variable (info : ServerInfo)

section
variable {req : JsonRpcRequest} (greeting : req.method = Protocol.methodInitialize)
include greeting

theorem initialize_dispatched (sessionId : SessionId) (s : Server υ) :
    (dispatchMethod info req sessionId).run.run s =
      (handleInitialize info req.id req.given sessionId).run.run s := by
  unfold dispatchMethod
  rw [if_pos greeting]
  rfl

theorem initialize_state (sessionId : SessionId) (s : Server υ) :
    (processRequest info req sessionId s).2.clientHellos =
        s.clientHellos.insert sessionId (clientHello req.given) ∧
      (processRequest info req sessionId s).2.negotiatedVersion = negotiate req.given := by
  obtain ⟨user, listCache, after⟩ := handleInitialize_greets info req.id req.given sessionId s
  rw [processRequest_state, initialize_dispatched info greeting, after]
  exact ⟨rfl, rfl⟩

theorem initialize_default (sessionId : SessionId) {s : Server υ}
    (handler : s.handlers.initializeHandler = none) :
    (processRequest info req sessionId s).1 = makeSuccessResponse req.id (InitializeResult.toJson
      ⟨negotiate req.given, info.capabilities, info.serverInfo, none⟩) := by
  apply processRequest_answers
  rw [initialize_dispatched info greeting]
  unfold handleInitialize
  rw [run_get_bind, recordClientHello_eq, run_modify_bind, run_modify_bind, handler]
  rfl

theorem initialize_custom (sessionId : SessionId) {s : Server υ}
    {handler : Json → Handler υ InitializeResult} {result : InitializeResult}
    (installed : s.handlers.initializeHandler = some handler)
    (returned : ((handler req.given).run.run s.user).1 = .ok result) :
    (processRequest info req sessionId s).1 = makeSuccessResponse req.id
      { result with protocolVersion := if result.protocolVersion = "" then negotiate req.given
          else result.protocolVersion }.toJson := by
  let greeted : Server υ := { s with
    clientHellos := s.clientHellos.insert sessionId (clientHello req.given)
    negotiatedVersion := negotiate req.given }
  apply processRequest_answers
  rw [initialize_dispatched info greeting]
  unfold handleInitialize
  rw [run_get_bind, recordClientHello_eq, run_modify_bind, run_modify_bind, installed]
  exact congrArg Prod.fst (run_call_bind (s := greeted) returned _)

theorem initialize_throws (sessionId : SessionId) {s : Server υ}
    {handler : Json → Handler υ InitializeResult} {e : Exn}
    (installed : s.handlers.initializeHandler = some handler)
    (thrown : ((handler req.given).run.run s.user).1 = .error e) :
    (processRequest info req sessionId s).1.contains "error" = true ∧
      (processRequest info req sessionId s).1.find? "result" = none := by
  let greeted : Server υ := { s with
    clientHellos := s.clientHellos.insert sessionId (clientHello req.given)
    negotiatedVersion := negotiate req.given }
  have ended : ((dispatchMethod info req sessionId).run.run s).1 = .error e := by
    rw [initialize_dispatched info greeting]
    unfold handleInitialize
    rw [run_get_bind, recordClientHello_eq, run_modify_bind, run_modify_bind, installed]
    exact run_call_throws (s := greeted) thrown _
  obtain ⟨code, message, data, answered⟩ := processRequest_throws info ended
  rw [answered]
  simp [makeErrorResponse, Json.contains, find?_mk]

end

theorem refuses_iff (s : Server υ) (req : JsonRpcRequest) : s.Refuses req ↔
    ∃ handler e, s.handlers.initializeHandler = some handler ∧
      ((handler req.given).run.run s.user).1 = .error e := by
  constructor
  · rintro ⟨handler, installed, throws⟩
    cases outcome : ((handler req.given).run.run s.user).1 with
    | ok result => exact absurd outcome (throws result)
    | error e => exact ⟨handler, e, installed, outcome⟩
  · rintro ⟨handler, e, installed, thrown⟩
    refine ⟨handler, installed, fun result returned => ?_⟩
    have both : ((handler req.given).run.run s.user).1 = .ok result := returned
    rw [thrown] at both
    cases both

theorem initialize_fails_iff {req : JsonRpcRequest} (greeting : req.method = Protocol.methodInitialize)
    (sessionId : SessionId) (s : Server υ) :
    (processRequest info req sessionId s).1.contains "error" = true ↔ s.Refuses req := by
  constructor
  · intro failed
    by_contra accepted
    obtain ⟨result, answered⟩ := initialize_succeeds info greeting accepted sessionId
    rw [answered] at failed
    simp [makeSuccessResponse, Json.contains, find?_mk] at failed
  · intro refuses
    obtain ⟨handler, e, installed, thrown⟩ := (refuses_iff s req).mp refuses
    exact (initialize_throws info greeting sessionId installed thrown).1

/-- The two states have recorded the same about their clients. -/
def Server.SameHandshakes (s s' : Server υ) : Prop :=
  (∀ sessionId, s'.clientHellos.lookup sessionId = s.clientHellos.lookup sessionId) ∧
    s'.negotiatedVersion = s.negotiatedVersion

/-- An `initialize` that fails leaves no trace exactly if the user's handler does not throw, or
    what it leaves was there before. -/
theorem failed_initialize_undone_iff (s : Server υ) (req : JsonRpcRequest)
    (greeting : req.method = Protocol.methodInitialize) (sessionId : SessionId) :
    ((processRequest info req sessionId s).1.contains "error" = true →
      s.SameHandshakes (processRequest info req sessionId s).2) ↔
    ¬ s.Refuses req ∨ s.clientHellos.lookup sessionId = some (clientHello req.given) ∧
      s.negotiatedVersion = negotiate req.given := by
  obtain ⟨hellos, version⟩ := initialize_state info greeting sessionId s
  rw [initialize_fails_iff info greeting, Server.SameHandshakes, hellos, version]
  constructor
  · intro undone
    by_cases refuses : s.Refuses req
    · obtain ⟨same, kept⟩ := undone refuses
      have own := same sessionId
      rw [AList.lookup_insert] at own
      exact .inr ⟨own.symm, kept.symm⟩
    · exact .inl refuses
  · rintro (accepted | ⟨before, kept⟩) refuses
    · exact absurd refuses accepted
    · refine ⟨fun other => ?_, kept.symm⟩
      by_cases same : other = sessionId
      · subst same
        rw [AList.lookup_insert, before]
      · exact AList.lookup_insert_ne same

def refusingHandlers : Registry Unit where
  initializeHandler := some fun _ => throw (.mcp Protocol.invalidParams "Version refused" none)

def greetLatest : JsonRpcRequest :=
  ⟨.int 1, Protocol.methodInitialize, some (.object [("capabilities", .object []),
    ("protocolVersion", .string "2025-06-18")])⟩

def refusingServer : Server Unit := { user := (), registry := refusingHandlers }

theorem refused_initialize_checked :
    ((processRequest {} greetLatest (ascii "a") refusingServer).1.contains "error" = true →
      refusingServer.SameHandshakes
        (processRequest {} greetLatest (ascii "a") refusingServer).2) ↔
    ¬ refusingServer.Refuses greetLatest ∨
      refusingServer.clientHellos.lookup (ascii "a") = some (clientHello greetLatest.given) ∧
      refusingServer.negotiatedVersion = negotiate greetLatest.given :=
  failed_initialize_undone_iff {} refusingServer greetLatest rfl (ascii "a")

/-- The first `initialize` of a session is refused, and its hello and version stay. -/
theorem refused_initialize_stays :
    ∃ s s', run (Server.step {}) (Server.initial ()) [.registers refusingHandlers, .runs true] = some s ∧
      s.step {} (.arrives (serializeRequest greetLatest) (ascii "a") false) = some s' ∧
      s'.answers = [(0, makeErrorResponse (.int 1) Protocol.invalidParams "Version refused")] ∧
      s.clientHellos.lookup (ascii "a") = none ∧
      s'.clientHellos.lookup (ascii "a") = some ⟨{}, "2025-06-18"⟩ ∧
      s.negotiatedVersion = "" ∧ s'.negotiatedVersion = "2025-06-18" :=
  ⟨_, _, rfl, rfl, rfl, rfl, rfl, rfl, rfl⟩

/-- `negotiated_version()` is what the last successful `initialize` was answered with. -/
def Server.TellsVersion (s : Server υ) : Prop :=
  ∀ result, s.greetings.getLast? = some result →
    result.find? "protocolVersion" = some (.string s.negotiatedVersion)

/-- User code at an `initialize` leaves the version to the server or says the same, and it only
    throws where that leaves the version as it is or nobody was greeted yet. -/
def Server.KeepsVersion (s : Server υ) (event : ServerEvent υ) : Prop :=
  ∀ req message sessionId, event.Brings req message sessionId →
    req.method = Protocol.methodInitialize →
    ∀ handler, s.handlers.initializeHandler = some handler →
      match ((handler req.given).run.run s.user).1 with
      | .ok result => result.protocolVersion = "" ∨ result.protocolVersion = negotiate req.given
      | .error _ => s.greetings = [] ∨ s.negotiatedVersion = negotiate req.given

theorem initializeResult_version (result : InitializeResult) :
    result.toJson.find? "protocolVersion" = some (.string result.protocolVersion) := by
  unfold InitializeResult.toJson
  cases h : result.instructions <;> simp [find?_mk, written]

theorem success_result (id : RequestId) (result : Json) :
    (makeSuccessResponse id result).find? "result" = some result := by
  simp [makeSuccessResponse, find?_mk]

theorem processRequest_version {req : JsonRpcRequest}
    (other : req.method ≠ Protocol.methodInitialize) (sessionId : SessionId) (s : Server υ) :
    (processRequest info req sessionId s).2.negotiatedVersion = s.negotiatedVersion := by
  obtain ⟨user, listCache, table, after⟩ := processRequest_writes info other sessionId s
  rw [after]

theorem turns_version {s s' : Server υ} (deferrable : s.JobsDeferrable) {event : ServerEvent υ}
    (turns : s.Turns info event s')
    (other : ∀ req message sessionId, event.Brings req message sessionId →
      req.method ≠ Protocol.methodInitialize) : s'.negotiatedVersion = s.negotiatedVersion := by
  cases turns with
  | @serves message sessionId batch req parsed =>
    exact processRequest_version info (other req message sessionId ⟨batch, rfl, parsed⟩) sessionId
      (s.arrived message)
  | defers parsed deferrable => rfl
  | @works place job found =>
    have later := (deferrable_serves (deferrable job (List.mem_of_getElem? found))).1
    exact processRequest_version info later job.sessionId { s with jobs := s.jobs.eraseIdx place }
  | delivers found | registers registry | starts | stops => rfl
  | fails aside => exact aside.negotiatedVersion
  | hears other aside => exact aside.negotiatedVersion
  | refuses other response => rfl
  | aside quiet aside => exact aside.negotiatedVersion

/-- After an `initialize` the version is told exactly if its answer has the negotiated one, or
    it failed and the version it leaves is the one that was told before. -/
theorem greeted_version_iff {s s' : Server υ} {req : JsonRpcRequest} (tells : s.TellsVersion)
    (greeting : req.method = Protocol.methodInitialize) (sessionId : SessionId)
    (version : s'.negotiatedVersion = negotiate req.given)
    (greetings : s'.greetings = s.greetings ++
      ((processRequest info req sessionId s).1.find? "result").toList) :
    s'.TellsVersion ↔ ∀ handler, s.handlers.initializeHandler = some handler →
      match ((handler req.given).run.run s.user).1 with
      | .ok result => result.protocolVersion = "" ∨ result.protocolVersion = negotiate req.given
      | .error _ => s.greetings = [] ∨ s.negotiatedVersion = negotiate req.given := by
  have answered {result : InitializeResult}
      (answer : (processRequest info req sessionId s).1 = makeSuccessResponse req.id result.toJson) :
      s'.TellsVersion ↔ result.protocolVersion = negotiate req.given := by
    rw [answer, success_result] at greetings
    unfold Server.TellsVersion
    rw [greetings, version]
    simp [initializeResult_version]
  cases installed : s.handlers.initializeHandler with
  | none =>
    rw [answered (initialize_default info greeting sessionId installed)]
    simp
  | some handler =>
    simp only [Option.some.injEq, forall_eq']
    cases outcome : ((handler req.given).run.run s.user).1 with
    | ok result =>
      rw [answered (initialize_custom info greeting sessionId installed outcome)]
      by_cases left : result.protocolVersion = "" <;> simp [left]
    | error e =>
      have none := (initialize_throws info greeting sessionId installed outcome).2
      rw [none, Option.toList_none, List.append_nil] at greetings
      unfold Server.TellsVersion
      rw [greetings, version]
      cases last : s.greetings.getLast? with
      | none => simp [List.getLast?_eq_none_iff.mp last]
      | some result =>
        have told := tells result last
        have some : s.greetings ≠ [] := by
          rintro empty
          rw [empty] at last
          cases last
        simp [told, some]

structure Server.VersionInv (s : Server υ) : Prop where
  orderly : s.Orderly
  deferrable : s.JobsDeferrable
  tells : s.TellsVersion

theorem step_tells_iff {s s' : Server υ} (inv : s.VersionInv) {event : ServerEvent υ}
    (h : s.step info event = some s') : s'.VersionInv ↔ s.KeepsVersion event := by
  have turns := step_turns info h
  have orderly := turns_orderly info inv.orderly turns
  have deferrable := step_jobs info inv.deferrable h
  have tells : s'.VersionInv ↔ s'.TellsVersion :=
    ⟨fun inv => inv.tells, fun tells => ⟨orderly, deferrable, tells⟩⟩
  rw [tells]
  rcases turns_greetings info inv.orderly turns with
    ⟨req, message, sessionId, brings, greeting, after, greetings⟩ | ⟨other, greetings⟩
  · have version : s'.negotiatedVersion = negotiate req.given := by
      rw [after]
      exact (initialize_state info greeting sessionId (s.arrived message)).2
    have same : (s.arrived message).greetings = s.greetings := by
      have grown : (s.arrived message).arrivals = s.arrivals ++ [message] := rfl
      exact greetings_arrived inv.orderly grown rfl
    have told : (s.arrived message).TellsVersion := by
      unfold Server.TellsVersion
      rw [same]
      exact inv.tells
    have told_iff := greeted_version_iff info told greeting sessionId version
      (by rw [same, greetings])
    rw [same] at told_iff
    rw [told_iff]
    constructor
    · rintro kept req' message' sessionId' ⟨batch', rfl, parsed'⟩ greeting'
      obtain ⟨batch, arrives, parsed⟩ := brings
      cases arrives
      rw [parsed] at parsed'
      cases parsed'
      exact kept
    · exact fun kept => kept req message sessionId brings greeting
  · have version := turns_version info inv.deferrable turns other
    refine iff_of_true ?_ fun req message sessionId brings greeting =>
      absurd greeting (other req message sessionId brings)
    unfold Server.TellsVersion
    rw [greetings, version]
    exact inv.tells

theorem initial_versionInv (user : υ) : (Server.initial user).VersionInv where
  orderly := initial_orderly user
  deferrable job member := by cases member
  tells result last := by cases last

/-- The version is told truly all along a run exactly if user code keeps it at each step. -/
theorem version_told_iff (user : υ) (events : List (ServerEvent υ)) (s : Server υ)
    (h : run (Server.step info) (Server.initial user) events = some s) :
    (∀ front back t, events = front ++ back →
      run (Server.step info) (Server.initial user) front = some t → t.TellsVersion) ↔
    Meets (Server.step info) Server.KeepsVersion (Server.initial user) events := by
  rw [← along_iff_meets (fun _ _ _ inv stepped => step_tells_iff info inv stepped)
    (initial_versionInv user) h]
  constructor
  · intro told front back t split reached
    have orderly : t.Orderly := run_orderly info reached
    have deferrable : t.JobsDeferrable :=
      run_keeps (fun _ _ _ deferrable stepped => step_jobs info deferrable stepped)
        (initial_versionInv user).deferrable reached
    exact ⟨orderly, deferrable, told front back t split reached⟩
  · exact fun inv front back t split reached => (inv front back t split reached).tells

def oldVersion : Registry Unit where
  initializeHandler := some fun _ => pure ⟨"2024-11-05", {}, ⟨"s", "1"⟩, none⟩

def greetedOld : List (ServerEvent Unit) :=
  [.registers oldVersion, .runs true, .arrives (serializeRequest greetLatest) (ascii "a") false]

def greetedLatest : List (ServerEvent Unit) :=
  [.runs true, .arrives (serializeRequest greetLatest) (ascii "a") false]

theorem latest_version_told :
    ∃ s, run (Server.step {}) (Server.initial ()) greetedLatest = some s ∧
      ((∀ front back t, greetedLatest = front ++ back →
        run (Server.step {}) (Server.initial ()) front = some t → t.TellsVersion) ↔
      Meets (Server.step {}) Server.KeepsVersion (Server.initial ()) greetedLatest) :=
  ⟨_, rfl, version_told_iff {} () greetedLatest _ rfl⟩

/-- The handler answers with a version of its own, and the accessor names the client's. -/
theorem old_version_untold :
    ∃ s result, run (Server.step {}) (Server.initial ()) greetedOld = some s ∧
      s.answers = [(0, makeSuccessResponse (.int 1) result)] ∧
      result.find? "protocolVersion" = some (.string "2024-11-05") ∧
      s.negotiatedVersion = "2025-06-18" ∧ ¬ s.TellsVersion := by
  refine ⟨_, _, rfl, rfl, rfl, rfl, fun tells => ?_⟩
  exact absurd (tells _ rfl) (by decide)

end CppMcp
