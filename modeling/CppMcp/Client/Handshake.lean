import CppMcp.Client.Final
import CppMcp.Client.Untouched
import CppMcp.Client.Works

namespace CppMcp

open Lib

/-- The result of an initialize response decodes, and names a version the client supports. -/
def SupportedHandshake (result : Json) (ir : InitializeResult) : Prop :=
  InitializeResult.fromJson result = .ok ir ∧ Protocol.isSupportedVersion ir.protocolVersion = true

/-- The request under the id is an initialize request. -/
def Client.Initializes (c : Client) (id : RequestId) (pr : Nat) (r : PendingRequest) : Prop :=
  c.pendingMap.lookup id = some pr ∧ c.requests[pr]? = some r ∧
    r.method = Protocol.methodInitialize

/-- The strand handles a supported response to an initialize request that is pending. -/
def Client.Greets (c : Client) (event : ClientEvent) (ir : InitializeResult) : Prop :=
  event = .runTask ∧ ∃ m resp pr r, c.strand.head? = some (.message m) ∧
    parseMessageClient m = .success resp ∧ c.Initializes resp.id pr r ∧
    SupportedHandshake resp.result ir

theorem fromJson_protocolVersion {result : Json} {ir : InitializeResult}
    (decoded : InitializeResult.fromJson result = .ok ir) :
    result.find? "protocolVersion" = some (.string ir.protocolVersion) := by
  unfold InitializeResult.fromJson at decoded
  obtain ⟨version, read, decoded⟩ := bind_eq_ok.mp decoded
  obtain ⟨capabilities, -, decoded⟩ := bind_eq_ok.mp decoded
  obtain ⟨info, -, decoded⟩ := bind_eq_ok.mp decoded
  obtain ⟨instructions, -, decoded⟩ := bind_eq_ok.mp decoded
  cases decoded
  obtain ⟨j, found, text⟩ := bind_eq_ok.mp read
  cases j with
  | string v =>
    cases text
    unfold Json.atKey at found
    split at found
    · split at found
      · rename_i present
        cases found
        simpa [Json.find?] using present
      · cases found
    · cases found
  | _ => cases text

theorem acceptInitialize_ok_iff (result : Json) (ir : InitializeResult) :
    acceptInitialize result = .ok ir ↔ SupportedHandshake result ir := by
  unfold acceptInitialize SupportedHandshake
  constructor
  · intro accepted
    obtain ⟨read, decoded, accepted⟩ := bind_eq_ok.mp accepted
    obtain ⟨_, checked, same⟩ := bind_eq_ok.mp accepted
    cases same
    refine ⟨decoded, ?_⟩
    simp only [checkNegotiatedVersion, fromJson_protocolVersion decoded] at checked
    split at checked
    · assumption
    · cases checked
  · rintro ⟨decoded, supported⟩
    have checked : checkNegotiatedVersion result = .ok () := by
      simp [checkNegotiatedVersion, fromJson_protocolVersion decoded, supported]
    exact bind_eq_ok.mpr ⟨ir, decoded, bind_eq_ok.mpr ⟨(), checked, rfl⟩⟩

variable (env : ClientEnv)

/-- A step sets `connected_` only with a supported handshake, and `server_result_` with it. -/
theorem step_greets {c c' : Client} {event : ClientEvent} (h : c.step env event = some c') :
    (c'.serverResult = c.serverResult ∧ (c'.connected = true → c.connected = true)) ∨
    ∃ ir, c'.serverResult = some ir ∧ c.Greets event ir := by
  have same {c' : Client} (serverResult : c'.serverResult = c.serverResult)
      (connected : c'.connected = true → c.connected = true) :
      (c'.serverResult = c.serverResult ∧ (c'.connected = true → c.connected = true)) ∨
      ∃ ir, c'.serverResult = some ir ∧ c.Greets event ir := .inl ⟨serverResult, connected⟩
  cases step_cases h with
  | runTask task rest head =>
    have ran := runTask_ran env { c with strand := rest } task
    generalize Client.runTask env { c with strand := rest } task = c' at ran ⊢
    cases ran with
    | sends m =>
      unfold Client.rawSend
      split <;> exact same rfl fun on => on
    | serves =>
      unfold Client.handleInboundRequest Client.dispatchInboundRequest Client.rawSend
      repeat' split
      all_goals exact same rfl fun on => on
    | reports =>
      obtain ⟨calls, callbackQueue, log, eq⟩ := dispatch_eq env { c with strand := rest } _
      rw [eq]
      exact same rfl fun on => on
    | @accepts m resp ir c' parsed accepted works =>
      obtain ⟨-, decoded, pr, r, found, present, method⟩ := accepted
      refine .inr ⟨ir, works.serverResult, rfl, m, resp, pr, r, by simp [head], parsed,
        ⟨found, present, method⟩, ?_⟩
      exact (acceptInitialize_ok_iff resp.result ir).mp decoded
    | works _ _ works => exact same works.serverResult works.connected
  | tests thread args =>
    unfold Client.submitTest
    split <;> exact same rfl fun on => on
  | builds thread args =>
    unfold Client.submitBuild
    split <;> exact same rfl fun on => on
  | runCallback job rest queued =>
    obtain ⟨calls, log, eq⟩ := fire_eq env { c with callbackQueue := rest } job
    rw [eq]
    exact same rfl fun on => on
  | disconnectInline | stopDrainsInline =>
    exact same (drain_works env _ _).serverResult (drain_works env _ _).connected
  | rollback => exact same rfl nofun
  | _ => exact same rfl fun on => on

/-- What is connected was greeted in an earlier step of the run. -/
theorem run_greets {transport : Bool} {events : List ClientEvent} {c : Client}
    (h : run (Client.step env) (Client.initial transport) events = some c)
    (connected : c.connected = true) : ∃ front back ir t, events = front ++ .runTask :: back ∧
      run (Client.step env) (Client.initial transport) front = some t ∧
      t.Greets .runTask ir ∧ c.serverResult = some ir := by
  have owed (s : Client) (e : ClientEvent) (s' : Client) (stepped : s.step env e = some s')
      (holds : s'.connected = true ∧ s'.serverResult = c.serverResult) :
      (s.connected = true ∧ s.serverResult = c.serverResult) ∨
        ∃ ir, s.Greets e ir ∧ c.serverResult = some ir := by
    rcases step_greets env stepped with ⟨kept, on⟩ | ⟨ir, published, greets⟩
    · exact .inl ⟨on holds.1, kept.symm.trans holds.2⟩
    · exact .inr ⟨ir, greets, holds.2.symm.trans published⟩
  rcases run_since owed h ⟨connected, rfl⟩ with ⟨before, -⟩ |
    ⟨front, e, back, t, split, reached, ir, greets, published⟩
  · cases before
  · obtain rfl := greets.1
    exact ⟨front, back, ir, t, split, reached, greets, published⟩

/-- A response that does not complete a handshake: it has no supported result. -/
def Refused (raw : Json) : Prop :=
  ∀ result ir, raw.find? "result" = some result → ¬ SupportedHandshake result ir

/-- What a refused response leaves alone: the client is as connected as before, and no
    `notifications/initialized` went out. -/
structure Client.Ungreeted (c c' : Client) : Prop where
  connected : c'.connected = c.connected
  initialized : c'.initialized = c.initialized
  serverResult : c'.serverResult = c.serverResult
  sent : c'.sent = c.sent

/-- A request that is finished as errored is errored, and the client no more connected. -/
theorem finish_errored {c : Client} {pr : Nat} {r : PendingRequest}
    (present : c.requests[pr]? = some r) {outcome : McpOutcome}
    (errored : outcome.terminal = .errored) : c.Ungreeted (c.finish env pr outcome) ∧
      ∃ r', (c.finish env pr outcome).requests[pr]? = some r' ∧ r'.state = .errored := by
  have terminal : outcome.terminal ≠ .waiting := by rw [errored]; decide
  obtain ⟨r', found, -⟩ := (finish_settles env c pr outcome terminal).requests pr r present
  refine ⟨?_, r', found, (finish_same env c pr outcome found).trans errored⟩
  obtain ⟨requests, calls, callbackQueue, log, eq⟩ := finish_eq env c pr outcome
  rw [eq]
  exact ⟨rfl, rfl, rfl, rfl⟩

/-- `complete_pending` with a refused handshake: the request is errored, and nothing else. -/
theorem completePending_refused {c : Client} {id : RequestId} {pr : Nat} {r : PendingRequest}
    (pending : c.Initializes id pr r) {outcome : McpOutcome}
    (refused : outcome.terminal = .errored ∨ outcome.terminal = .succeeded ∧
      ∀ ir, ¬ SupportedHandshake outcome.result ir) :
    c.Ungreeted (c.completePending env id outcome) ∧
    ∃ r', (c.completePending env id outcome).requests[pr]? = some r' ∧ r'.state = .errored := by
  obtain ⟨found, present, method⟩ := pending
  have finished {before : Client} {final : McpOutcome} (log : List String)
      (eq : before = { c with log := log }) (errored : final.terminal = .errored) :
      c.Ungreeted ((before.forget id r).finish env pr final) ∧
      ∃ r', ((before.forget id r).finish env pr final).requests[pr]? = some r' ∧
        r'.state = .errored := by
    subst eq
    obtain ⟨ungreeted, ends⟩ :=
      finish_errored env (c := Client.forget { c with log := log } id r) present errored
    exact ⟨⟨ungreeted.connected, ungreeted.initialized, ungreeted.serverResult, ungreeted.sent⟩,
      ends⟩
  simp only [Client.completePending, found, present]
  rcases refused with errored | ⟨succeeded, unsupported⟩
  · have other : ¬ (outcome.terminal = .succeeded ∧ r.method = Protocol.methodInitialize) := by
      simp [errored]
    rw [if_neg other]
    exact finished c.log rfl errored
  · rw [if_pos ⟨succeeded, method⟩]
    cases accepted : acceptInitialize outcome.result with
    | ok ir => exact absurd ((acceptInitialize_ok_iff _ _).mp accepted) (unsupported ir)
    | error e =>
      cases e with
      | mcp code message data => exact finished c.log rfl rfl
      | std what => exact finished _ rfl rfl
      | other => exact finished _ rfl rfl

/-- A response the client reads is the outcome of the request under its id, with its result. -/
theorem onTransportMessage_response {c : Client} {raw id : Json} {rid : RequestId}
    (enveloped : Enveloped raw) (noMethod : raw.find? "method" = none)
    (found : raw.find? "id" = some id) (typed : IsId id rid) (readable : ReadableResponse raw) :
    ∃ outcome : McpOutcome, c.onTransportMessage env raw = .ok (c.completePending env rid outcome) ∧
      (outcome.terminal = .errored ∨ outcome.terminal = .succeeded ∧
        raw.find? "result" = some outcome.result) := by
  have parsed : RequestId.fromJson id = .ok rid := (fromJson_iff id rid).mpr (.inl typed)
  obtain ⟨m, responded⟩ := (clientResponse_ok_iff raw rid).mpr readable
  have reads : parseMessageClient raw = m := by
    rw [parseMessageClient_eq, parseWith_response enveloped found noMethod, parsed]
    change orParseError (clientResponse raw rid) = m
    rw [responded]
    rfl
  have answers := clientResponse_answers responded
  unfold Client.onTransportMessage
  rw [reads]
  cases m with
  | success resp =>
    obtain rfl : resp.id = rid := answers
    refine ⟨_, rfl, .inr ⟨rfl, ?_⟩⟩
    unfold clientResponse at responded
    cases given : raw.find? "result" with
    | some result =>
      rw [given] at responded
      simp only [Except.ok.injEq, ParsedMessage.success.injEq] at responded
      exact congrArg (fun resp => some resp.result) responded
    | none =>
      rw [given] at responded
      dsimp only at responded
      split at responded
      · split at responded
        · obtain ⟨detail, -, same⟩ := map_eq_ok.mp responded
          cases same
        · cases responded
      · cases responded
  | error resp =>
    obtain rfl : resp.id = rid := answers
    exact ⟨_, rfl, .inl rfl⟩
  | _ => cases answers

/-- A response whose error object the client cannot read reaches no request at all. -/
theorem onTransportMessage_unreadable {c : Client} (unkeyed : NullUnkeyed c) {raw id : Json}
    {rid : RequestId} (enveloped : Enveloped raw) (noMethod : raw.find? "method" = none)
    (found : raw.find? "id" = some id) (typed : IsId id rid) (unreadable : ¬ ReadableResponse raw) :
    c.onTransportMessage env raw = .ok c := by
  have parsed : RequestId.fromJson id = .ok rid := (fromJson_iff id rid).mpr (.inl typed)
  cases responded : clientResponse raw rid with
  | ok m => exact absurd ((clientResponse_ok_iff raw rid).mp ⟨m, responded⟩) unreadable
  | error e =>
    have reads : parseMessageClient raw =
        .error ⟨.null, ⟨Protocol.parseError, "Failed to parse message: " ++ e.what, none⟩⟩ := by
      rw [parseMessageClient_eq, parseWith_response enveloped found noMethod, parsed]
      change orParseError (clientResponse raw rid) = _
      rw [responded]
      rfl
    unfold Client.onTransportMessage
    rw [reads]
    exact congrArg _ (completePending_unkeyed env unkeyed.key _)

/-- In every run a client that is connected has the decoded result of a supported handshake. A
    response to a pending initialize request that brings no such handshake leaves the client as
    connected as it was and announces nothing, and makes the request errored exactly when the
    client can read the response's error object; one to no pending request changes nothing. -/
theorem connected_by_supported_handshake (transport : Bool) (events : List ClientEvent)
    (c : Client) (h : run (Client.step env) (Client.initial transport) events = some c) :
    (c.connected = true → ∃ front back ir t, events = front ++ .runTask :: back ∧
      run (Client.step env) (Client.initial transport) front = some t ∧
      t.Greets .runTask ir ∧ c.serverResult = some ir) ∧
    ∀ raw id rid, Enveloped raw → raw.find? "method" = none → raw.find? "id" = some id →
      IsId id rid → (c.pendingMap.lookup rid = none → c.onTransportMessage env raw = .ok c) ∧
      ∀ pr r, c.Initializes rid pr r → Refused raw →
        ∃ c', c.onTransportMessage env raw = .ok c' ∧ c.Ungreeted c' ∧
          ((∃ r', c'.requests[pr]? = some r' ∧ r'.state = .errored) ↔
            r.state = .errored ∨ ReadableResponse raw) := by
  have unkeyed : NullUnkeyed c :=
    run_keeps (fun _ _ _ inv h => step_nullUnkeyed env inv h) (initial_nullUnkeyed transport) h
  refine ⟨run_greets env h, fun raw id rid enveloped noMethod found typed => ?_⟩
  by_cases readable : ReadableResponse raw
  · obtain ⟨outcome, handled, ends⟩ :=
      onTransportMessage_response env (c := c) enveloped noMethod found typed readable
    refine ⟨fun absent => ?_, fun pr r pending refused => ?_⟩
    · rw [handled, completePending_unkeyed env absent]
    · obtain ⟨ungreeted, errored⟩ := completePending_refused env pending 
        (ends.imp_right fun ⟨succeeded, result⟩ => ⟨succeeded, fun ir => refused _ ir result⟩)
      exact ⟨_, handled, ungreeted, iff_of_true errored (.inr readable)⟩
  · have unread :=
      onTransportMessage_unreadable env unkeyed enveloped noMethod found typed readable
    refine ⟨fun _ => unread, fun pr r pending _ => ⟨c, unread, ⟨rfl, rfl, rfl, rfl⟩, ?_⟩⟩
    constructor
    · rintro ⟨r', present, errored⟩
      obtain rfl : r = r' := by simpa [pending.2.1] using present
      exact .inl errored
    · rintro (errored | read)
      · exact ⟨r, pending.2.1, errored⟩
      · exact absurd read readable

/-- A client that is connected and sends a second initialize request. -/
def secondGreeting : List ClientEvent :=
  handshake ++ submission { method := Protocol.methodInitialize }

/-- A reply to the second request, of a version the client does not support. -/
def unsupportedReply : Json := makeSuccessResponse (.int 2) (.mk [("protocolVersion", .string "1.0")])

theorem unsupportedReply_refused : Refused unsupportedReply := by
  intro result ir found supported
  obtain rfl : result = .mk [("protocolVersion", .string "1.0")] := by
    simpa [unsupportedReply, makeSuccessResponse, find?_mk] using found.symm
  have version := fromJson_protocolVersion supported.1
  have old : ir.protocolVersion = "1.0" := by simpa [find?_mk] using version.symm
  have refused := supported.2
  rw [old] at refused
  exact absurd refused (by decide)

theorem second_greeting_refused : ∃ c c',
    run (Client.step {}) (Client.initial true) secondGreeting = some c ∧ c.connected = true ∧
    (∃ ir, c.serverResult = some ir) ∧ c.onTransportMessage {} unsupportedReply = .ok c' ∧
    c'.connected = true ∧ ∃ r', c'.requests[1]? = some r' ∧ r'.state = .errored := by
  have shape : (run (Client.step {}) (Client.initial true) secondGreeting).map (fun c =>
      (c.connected, c.pendingMap.lookup (.int 2), (c.requests[1]?).map fun r => r.method)) =
      some (true, some 1, some Protocol.methodInitialize) := by decide +kernel
  obtain ⟨c, h, seen⟩ := Option.map_eq_some_iff.mp shape
  simp only [Prod.mk.injEq, Option.map_eq_some_iff] at seen
  obtain ⟨connected, found, r, present, method⟩ := seen
  obtain ⟨greeted, responses⟩ := connected_by_supported_handshake {} true secondGreeting c h
  obtain ⟨-, -, ir, -, -, -, -, published⟩ := greeted connected
  obtain ⟨c', handled, ungreeted, errored⟩ := (responses unsupportedReply (.integer 2) (.int 2)
    (by rfl) (by rfl) (by rfl) (.integer 2)).2 1 r ⟨found, present, method⟩ unsupportedReply_refused
  have readable : ReadableResponse unsupportedReply := by
    intro absent
    cases absent
  exact ⟨c, c', h, connected, ⟨ir, published⟩, handled, ungreeted.connected.trans connected,
    errored.mpr (.inr readable)⟩

/-- An error response to the initialize request, whose code is a text. -/
def textCode : Json :=
  .mk [("jsonrpc", .string "2.0"), ("id", .integer 1), ("error", .mk [("code", .string "x")])]

/-- The text code is thrown on, and the initialize request waits on. -/
theorem text_code_leaves_waiting : ∃ c r,
    run (Client.step {}) (Client.initial true)
      (.connect :: submission { method := Protocol.methodInitialize }) = some c ∧
    Enveloped textCode ∧ textCode.find? "method" = none ∧
    textCode.find? "id" = some (.integer 1) ∧ IsId (.integer 1) (.int 1) ∧
    c.Initializes (.int 1) 0 r ∧ Refused textCode ∧
    (c.onTransportMessage {} textCode).toOption.map (fun c' =>
      c'.requests.map fun r => r.state) = some [.waiting] := by
  have shape : (run (Client.step {}) (Client.initial true)
      (.connect :: submission { method := Protocol.methodInitialize })).map (fun c =>
        (c.pendingMap.lookup (.int 1), (c.requests[0]?).map (fun r => r.method),
          (c.onTransportMessage {} textCode).toOption.map fun c' =>
            c'.requests.map fun r => r.state)) =
      some (some 0, some Protocol.methodInitialize, some [.waiting]) := by decide +kernel
  obtain ⟨c, h, seen⟩ := Option.map_eq_some_iff.mp shape
  simp only [Prod.mk.injEq, Option.map_eq_some_iff] at seen
  obtain ⟨found, ⟨r, present, method⟩, waits⟩ := seen
  have refused : Refused textCode := by
    intro result ir given
    cases given
  exact ⟨c, r, h, by rfl, by rfl, by rfl, .integer 1, ⟨found, present, method⟩, refused,
    Option.map_eq_some_iff.mpr waits⟩

end CppMcp
