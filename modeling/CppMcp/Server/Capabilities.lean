import CppMcp.Lib.Latest
import CppMcp.Server.Isolation
import CppMcp.Server.Subscriptions

namespace CppMcp

open Lib

variable {υ : Type}

def declares (params : Json) (capability : String) : Bool :=
  (params.objectMember "capabilities").contains capability

/-- The one member of the client's capabilities whose decoding can throw. -/
def illTypedRoots (capabilities : Json) : Bool :=
  match capabilities.find? "roots" with
  | some roots =>
    match roots.find? "listChanged" with
    | some listChanged => !listChanged.isBoolean
    | none => false
  | none => false

theorem getBool_ok_iff (j : Json) : (∃ b, j.getBool = .ok b) ↔ j.isBoolean = true := by
  cases j <;> simp [Json.getBool, Json.isBoolean]

theorem listCapability_decodes_iff (j : Json) : (∃ c, ListCapability.fromJson j = .ok c) ↔
    ∃ b, optionalMember Json.getBool j "listChanged" = .ok b := by
  constructor
  · rintro ⟨c, h⟩
    obtain ⟨b, read, -⟩ := bind_eq_ok.mp h
    exact ⟨b, read⟩
  · rintro ⟨b, read⟩
    exact ⟨⟨b⟩, bind_eq_ok.mpr ⟨b, read, rfl⟩⟩

theorem decodesRoots_iff (capabilities : Json) :
    (∃ roots, optionalMember ListCapability.fromJson capabilities "roots" = .ok roots) ↔
      illTypedRoots capabilities = false := by
  simp only [illTypedRoots, optionalMember]
  cases capabilities.find? "roots" with
  | none => simp
  | some roots =>
    have mapped : (∃ c, (ListCapability.fromJson roots).map some = .ok c) ↔
        ∃ c, ListCapability.fromJson roots = .ok c := by
      simp [map_eq_ok]
    simp only [mapped, listCapability_decodes_iff, optionalMember]
    cases roots.find? "listChanged" with
    | none => simp
    | some listChanged =>
      have typed := getBool_ok_iff listChanged
      cases read : listChanged.getBool with
      | error e => simpa [read, Except.map] using typed
      | ok b => simpa [read, Except.map] using typed

/-- What the decoder has written when it reaches `roots`. -/
def declaredFirst (capabilities : Json) : ClientCapabilities where
  sampling := if capabilities.contains "sampling" then some () else none
  elicitation := if capabilities.contains "elicitation" then some () else none

theorem fromJson_fresh (capabilities : Json) : ClientCapabilities.fromJson capabilities {} =
    match optionalMember ListCapability.fromJson capabilities "roots" with
    | .error e => (.error e, declaredFirst capabilities)
    | .ok roots => (.ok (), { declaredFirst capabilities with
        roots, experimental := capabilities.find? "experimental" }) := by
  unfold ClientCapabilities.fromJson declaredFirst
  cases capabilities.contains "sampling" <;> cases capabilities.contains "elicitation" <;>
    cases optionalMember ListCapability.fromJson capabilities "roots" <;> simp

/-- The capabilities are kept as they decode, or none are where their decoding throws. -/
def DecodedWhole (params : Json) (kept : ClientCapabilities) : Prop :=
  match params.find? "capabilities" with
  | some capabilities =>
    match ClientCapabilities.fromJson capabilities {} with
    | (.ok _, decoded) => kept = decoded
    | (.error _, _) => kept = {}
  | none => kept = {}

/-- The decoding of the capabilities throws behind a member that it has written. -/
def throwsBehind (params : Json) : Bool :=
  illTypedRoots (params.objectMember "capabilities") &&
    (declares params "sampling" || declares params "elicitation")

theorem clientHello_whole_iff (params : Json) :
    DecodedWhole params (clientHello params).capabilities ↔ throwsBehind params = false := by
  unfold DecodedWhole clientHello throwsBehind declares Json.objectMember
  cases found : params.find? "capabilities" with
  | none => simp [illTypedRoots]
  | some capabilities =>
    cases capabilities with
    | object members =>
      have decodes := decodesRoots_iff (.object members)
      simp only [fromJson_fresh]
      cases read : optionalMember ListCapability.fromJson (.object members) "roots" with
      | ok roots =>
        rw [read] at decodes
        simp [decodes.mp ⟨roots, rfl⟩]
      | error e =>
        have throws : illTypedRoots (.object members) = true := by
          rw [← Bool.not_eq_false, ← decodes, read]
          simp
        simp only [throws, declaredFirst]
        cases (Json.object members).contains "sampling" <;>
          cases (Json.object members).contains "elicitation" <;> simp
    | _ => simp [illTypedRoots, fromJson_fresh, optionalMember, declaredFirst, Json.contains, Json.find?]

variable (info : ServerInfo)

theorem processRequest_greets (id : RequestId) (params : Option Json) (sessionId : SessionId)
    (s : Server υ) :
    (processRequest info ⟨id, Protocol.methodInitialize, params⟩ sessionId s).2.clientHellos =
      s.clientHellos.insert sessionId (clientHello (params.getD (.object []))) := by
  obtain ⟨user, listCache, after⟩ :=
    handleInitialize_greets info id (params.getD (.object [])) sessionId s
  rw [processRequest_state]
  show ((handleInitialize info id (params.getD (.object [])) sessionId).run.run s).2.clientHellos = _
  rw [after]

/-- The hello that an `initialize` leaves has its capabilities whole or not at all, unless their
    decoding throws on `roots` and one of the members before is there. -/
theorem hello_decoded_whole_iff (id : RequestId) (params : Option Json) (sessionId : SessionId)
    (s : Server υ) : ∃ hello,
    (processRequest info ⟨id, Protocol.methodInitialize, params⟩ sessionId s).2.clientHellos.lookup
      sessionId = some hello ∧
    (DecodedWhole (params.getD (.object [])) hello.capabilities ↔
      throwsBehind (params.getD (.object [])) = false) := by
  refine ⟨clientHello (params.getD (.object [])), ?_, clientHello_whole_iff _⟩
  rw [processRequest_greets, AList.lookup_insert]

/-- Sampling is declared well, and `roots` behind it is not. -/
def halfTypedCapabilities : Json :=
  .mk [("capabilities", .mk [("sampling", .mk []), ("roots", .mk [("listChanged", .ofInt 1)])])]

theorem hello_kept_by_half : ∃ hello,
    (processRequest {} ⟨.int 1, Protocol.methodInitialize, some halfTypedCapabilities⟩ []
      (Server.initial ())).2.clientHellos.lookup [] = some hello ∧
    hello.capabilities.sampling = some () ∧
    ¬ DecodedWhole halfTypedCapabilities hello.capabilities := by
  refine ⟨clientHello halfTypedCapabilities, rfl, rfl, ?_⟩
  rw [clientHello_whole_iff]
  decide

/-- The `initialize` request that a step takes in, with the session it comes from. -/
def ServerEvent.greeting : ServerEvent υ → Option (SessionId × Json)
  | .arrives message sessionId _ =>
    match parseMessage message with
    | .request req =>
      if req.method = Protocol.methodInitialize then
        some (sessionId, req.params.getD (.object []))
      else none
    | _ => none
  | _ => none

theorem greeting_other {message : Json} (other : ∀ req, parseMessage message ≠ .request req)
    (sessionId : SessionId) (batch : Bool) :
    (ServerEvent.arrives (υ := υ) message sessionId batch).greeting = none := by
  dsimp only [ServerEvent.greeting]
  split
  · rename_i req parsed
    exact absurd parsed (other req)
  · rfl

/-- The hellos of the sessions are those of their latest `initialize`. -/
def Server.Greeted (s : Server υ) (history : List (SessionId × Json)) : Prop :=
  ∀ sessionId, s.clientHellos.lookup sessionId = (latest history sessionId).map clientHello

theorem Server.Greeted.congr {s s' : Server υ} {history : List (SessionId × Json)}
    (greeted : s.Greeted history) (hellos : s'.clientHellos = s.clientHellos) :
    s'.Greeted (history ++ (none : Option (SessionId × Json)).toList) := by
  intro sessionId
  rw [hellos, Option.toList_none, List.append_nil]
  exact greeted sessionId

theorem Server.Greeted.greets {s s' : Server υ} {history : List (SessionId × Json)}
    (greeted : s.Greeted history) {sessionId : SessionId} {params : Json}
    (hellos : s'.clientHellos = s.clientHellos.insert sessionId (clientHello params)) :
    s'.Greeted (history ++ (some (sessionId, params)).toList) := by
  intro other
  rw [hellos, Option.toList_some, latest_append]
  by_cases same : sessionId = other
  · subst same
    rw [if_pos rfl, AList.lookup_insert, Option.map_some]
  · rw [if_neg same, AList.lookup_insert_ne (Ne.symm same)]
    exact greeted other

theorem processRequest_hellos {req : JsonRpcRequest}
    (other : req.method ≠ Protocol.methodInitialize) (sessionId : SessionId) (s : Server υ) :
    (processRequest info req sessionId s).2.clientHellos = s.clientHellos := by
  obtain ⟨user, listCache, table, after⟩ := processRequest_writes info other sessionId s
  rw [after]

theorem step_greeted {s s' : Server υ} {history : List (SessionId × Json)}
    (greeted : s.Greeted history) (deferrable : s.JobsDeferrable) {event : ServerEvent υ}
    (h : s.step info event = some s') : s'.Greeted (history ++ event.greeting.toList) := by
  have kept (other : event.greeting = none) (hellos : s'.clientHellos = s.clientHellos) :
      s'.Greeted (history ++ event.greeting.toList) := by
    rw [other]
    exact greeted.congr hellos
  cases step_turns info h with
  | @serves message sessionId batch req parsed =>
    obtain ⟨id, method, params⟩ := req
    by_cases greeting : method = Protocol.methodInitialize
    · subst greeting
      have greets : (ServerEvent.arrives (υ := υ) message sessionId batch).greeting =
          some (sessionId, params.getD (.object [])) := by
        simp [ServerEvent.greeting, parsed]
      rw [greets]
      exact greeted.greets (processRequest_greets info id params sessionId (s.arrived message))
    · apply kept
      · simp [ServerEvent.greeting, parsed, greeting]
      · have other : JsonRpcRequest.method ⟨id, method, params⟩ ≠ Protocol.methodInitialize :=
          greeting
        exact processRequest_hellos info other sessionId (s.arrived message)
  | defers parsed later =>
    apply kept
    · simp [ServerEvent.greeting, parsed, (deferrable_serves later).1]
    · rfl
  | @works place job found =>
    have later := (deferrable_serves (deferrable job (List.mem_of_getElem? found))).1
    exact kept rfl (processRequest_hellos info later job.sessionId _)
  | delivers found => exact kept rfl rfl
  | registers registry | starts | stops => exact kept rfl rfl
  | fails aside => exact kept rfl aside.clientHellos
  | hears other aside => exact kept (greeting_other other _ _) aside.clientHellos
  | refuses other response => exact kept (greeting_other other _ _) rfl
  | aside quiet aside =>
    apply kept _ aside.clientHellos
    cases event with
    | arrives message sessionId batch => cases quiet
    | _ => rfl

theorem run_greeted {s s' : Server υ} {history : List (SessionId × Json)}
    (greeted : s.Greeted history) (deferrable : s.JobsDeferrable) {events : List (ServerEvent υ)}
    (h : run (Server.step info) s events = some s') :
    s'.Greeted (history ++ events.filterMap ServerEvent.greeting) := by
  induction events generalizing s history with
  | nil =>
    cases h
    rw [List.filterMap_nil, List.append_nil]
    exact greeted
  | cons event rest ih =>
    obtain ⟨next, stepped, h⟩ := run_cons_eq h
    have after := ih (step_greeted info greeted deferrable stepped)
      (step_jobs info deferrable stepped) h
    rw [List.append_assoc] at after
    have split : (event :: rest).filterMap ServerEvent.greeting =
        event.greeting.toList ++ rest.filterMap ServerEvent.greeting := by
      cases greeting : event.greeting with
      | none => rw [List.filterMap_cons_none greeting, Option.toList_none, List.nil_append]
      | some greeting' =>
        rw [List.filterMap_cons_some greeting, Option.toList_some, List.singleton_append]
    rw [split]
    exact after

/-- A call of `request_sampling`, `request_elicitation` or `request_roots`. -/
structure RequestCall where
  capability : String
  capable : ClientCapabilities → Bool
  sessionId : SessionId
  sends : Bool

def ServerEvent.call : ServerEvent υ → Option RequestCall
  | .requestsSampling _ _ sessionId sends =>
    some ⟨"sampling", fun c => c.sampling.isSome, sessionId, sends⟩
  | .requestsElicitation _ _ sessionId sends =>
    some ⟨"elicitation", fun c => c.elicitation.isSome, sessionId, sends⟩
  | .requestsRoots _ sessionId sends => some ⟨"roots", fun c => c.roots.isSome, sessionId, sends⟩
  | _ => none

/-- What `send_server_request` returns. -/
def Server.sendReturns (s : Server υ) (sends : Bool) : Bool := s.transport && s.running && sends

/-- What the call returns. -/
def Server.returns (s : Server υ) (call : RequestCall) : Bool :=
  s.mayRequest call.sessionId call.capable && s.sendReturns call.sends

theorem sendServerRequest_sends_iff (s : Server υ) (p : OutboundPending υ) (params : Json)
    (sends : Bool) : (∃ m, (s.sendServerRequest p params sends).sent = s.sent ++ [(p.sessionId, m)]) ↔
      s.sendReturns sends = true := by
  unfold Server.sendServerRequest Server.sendReturns
  cases s.transport && s.running with
  | false => simp
  | true =>
    cases sends with
    | true => simp
    | false => simp [Server.logText]

theorem call_sends_iff {s s' : Server υ} {event : ServerEvent υ} {call : RequestCall}
    (calls : event.call = some call) (h : s.step info event = some s') :
    (∃ m, s'.sent = s.sent ++ [(call.sessionId, m)]) ↔ s.returns call = true := by
  have gated (p : OutboundPending υ) (params : Json) (own : p.sessionId = call.sessionId) :
      (∃ m, (if s.mayRequest call.sessionId call.capable then
        s.sendServerRequest p params call.sends else s).sent = s.sent ++ [(call.sessionId, m)]) ↔
      s.returns call = true := by
    unfold Server.returns
    cases s.mayRequest call.sessionId call.capable with
    | false => simp
    | true =>
      rw [← own]
      exact sendServerRequest_sends_iff s p params call.sends
  cases event with
  | requestsSampling params callbacks sessionId sends =>
    cases calls
    cases h
    exact gated (requestPending _ _ _ callbacks) _ rfl
  | requestsElicitation params callbacks sessionId sends =>
    cases calls
    cases h
    exact gated (requestPending _ _ _ callbacks) _ rfl
  | requestsRoots callbacks sessionId sends =>
    cases calls
    cases h
    exact gated (requestPending _ _ _ callbacks) _ rfl
  | _ => cases calls

theorem isSome_of_ite (b : Bool) : (if b then some () else none).isSome = true → b = true := by
  cases b with
  | true => intro; rfl
  | false => intro none; cases none

theorem clientHello_declares (params : Json) :
    ((clientHello params).capabilities.sampling.isSome = true → declares params "sampling" = true) ∧
    ((clientHello params).capabilities.elicitation.isSome = true →
      declares params "elicitation" = true) ∧
    ((clientHello params).capabilities.roots.isSome = true → declares params "roots" = true) := by
  unfold clientHello declares Json.objectMember
  cases params.find? "capabilities" with
  | none => simp
  | some capabilities =>
    cases capabilities with
    | object members =>
      simp only [fromJson_fresh]
      cases read : optionalMember ListCapability.fromJson (.object members) "roots" with
      | error e =>
        exact ⟨isSome_of_ite _, isSome_of_ite _, fun none => by cases none⟩
      | ok roots =>
        refine ⟨isSome_of_ite _, isSome_of_ite _, fun some => ?_⟩
        unfold optionalMember at read
        unfold Json.contains
        cases found : (Json.object members).find? "roots" with
        | some member => rfl
        | none =>
          rw [found] at read
          cases read
          cases some
    | _ => simp

theorem capable_declares {event : ServerEvent υ} {call : RequestCall}
    (calls : event.call = some call) {params : Json}
    (capable : call.capable (clientHello params).capabilities = true) :
    declares params call.capability = true := by
  obtain ⟨sampling, elicitation, roots⟩ := clientHello_declares params
  cases event with
  | requestsSampling =>
    cases calls
    exact sampling capable
  | requestsElicitation =>
    cases calls
    exact elicitation capable
  | requestsRoots =>
    cases calls
    exact roots capable
  | _ => cases calls

/-- In every run, a call sends its request and returns true only to a session whose latest
    `initialize` declared the capability, but where the session has no id and sent none. -/
theorem requests_respect_capabilities_iff (user : υ) (events : List (ServerEvent υ)) (s : Server υ)
    (h : run (Server.step info) (Server.initial user) events = some s) (event : ServerEvent υ)
    (call : RequestCall) (calls : event.call = some call) :
    (∀ s', s.step info event = some s' →
      ((∃ m, s'.sent = s.sent ++ [(call.sessionId, m)]) ↔ s.returns call = true)) ∧
    ((s.returns call = true → ∃ params,
        latest (events.filterMap ServerEvent.greeting) call.sessionId = some params ∧
          declares params call.capability = true) ↔
      (call.sessionId = [] →
        latest (events.filterMap ServerEvent.greeting) call.sessionId = none →
          s.sendReturns call.sends = false)) := by
  have greeted : s.Greeted ([] ++ events.filterMap ServerEvent.greeting) :=
    run_greeted info (fun sessionId => rfl) (fun job member => by cases member) h
  rw [List.nil_append] at greeted
  have hello := greeted call.sessionId
  refine ⟨fun s' stepped => call_sends_iff info calls stepped, fun respects nameless unknown => ?_,
    fun known returned => ?_⟩
  · rw [← Bool.not_eq_true]
    intro sent
    have passes : s.returns call = true := by
      unfold Server.returns Server.mayRequest
      rw [hello, unknown, Option.map_none, sent, nameless]
      rfl
    obtain ⟨params, found, -⟩ := respects passes
    rw [unknown] at found
    cases found
  · obtain ⟨may, sent⟩ := Bool.and_eq_true_iff.mp returned
    unfold Server.mayRequest at may
    rw [hello] at may
    cases found : latest (events.filterMap ServerEvent.greeting) call.sessionId with
    | some params =>
      rw [found] at may
      exact ⟨params, rfl, capable_declares calls may⟩
    | none =>
      rw [found] at may
      rw [known (List.isEmpty_iff.mp may) found] at sent
      cases sent

def rootsCall : ServerEvent Unit := .requestsRoots {} (ascii "a") true

theorem roots_asked_of_declarer : ∃ s params,
    run (Server.step {}) (Server.initial ()) [.runs true, .arrives rootsHello (ascii "a") false] =
      some s ∧ s.returns ⟨"roots", fun c => c.roots.isSome, ascii "a", true⟩ = true ∧
    latest [(ascii "a", params)] (ascii "a") = some params ∧ declares params "roots" = true := by
  have shape : ((run (Server.step {}) (Server.initial ())
      [.runs true, .arrives rootsHello (ascii "a") false]).map fun s =>
        s.returns ⟨"roots", fun c => c.roots.isSome, ascii "a", true⟩) = some true := by decide
  obtain ⟨s, h, returned⟩ := Option.map_eq_some_iff.mp shape
  obtain ⟨-, respects⟩ := requests_respect_capabilities_iff {} () _ s h rootsCall _ rfl
  obtain ⟨params, found, declared⟩ := respects.mpr (fun nameless => by cases nameless) returned
  exact ⟨s, params, h, returned, by simp [latest], declared⟩

/-- A server that runs asks a session without an id that has sent nothing. -/
theorem stranger_is_asked : ∃ s s',
    run (Server.step {}) (Server.initial ()) [.runs true] = some s ∧
    s.step {} (.requestsSampling {} {} [] true) = some s' ∧ s'.sent.length = 1 ∧
    s.returns ⟨"sampling", fun c => c.sampling.isSome, [], true⟩ = true ∧
    latest ([ServerEvent.runs true].filterMap (ServerEvent.greeting (υ := Unit))) [] = none :=
  ⟨_, _, rfl, rfl, rfl, rfl, rfl⟩

end CppMcp
