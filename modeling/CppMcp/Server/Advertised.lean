import CppMcp.Server.Calls
import CppMcp.Server.Negotiation
import CppMcp.Types.RoundTrip

namespace CppMcp

open Lib

variable {υ : Type}

/-- Every registry that the server has, or has frozen, is like this. -/
def Server.AllHandlers (P : Registry υ → Prop) (s : Server υ) : Prop :=
  P s.registry ∧ ∀ registry, s.frozen = some registry → P registry

theorem Server.AllHandlers.inForce {P : Registry υ → Prop} {s : Server υ} (all : s.AllHandlers P) :
    P s.handlers := by
  unfold Server.handlers
  cases frozen : s.frozen with
  | none => exact all.1
  | some registry => exact all.2 registry frozen

theorem Server.AllHandlers.aside {P : Registry υ → Prop} {s s' : Server υ} (all : s.AllHandlers P)
    (aside : s.Aside s') : s'.AllHandlers P := by
  unfold Server.AllHandlers
  rw [aside.registry, aside.frozen]
  exact all

variable (info : ServerInfo)

theorem processRequest_registries (req : JsonRpcRequest) (sessionId : SessionId) (s : Server υ) :
    (processRequest info req sessionId s).2.registry = s.registry ∧
      (processRequest info req sessionId s).2.frozen = s.frozen := by
  have processed := processRequest_processed info req sessionId s
  generalize (processRequest info req sessionId s).2 = after at processed ⊢
  cases processed with
  | greets hello user listCache greeting => exact ⟨rfl, rfl⟩
  | @subscribes subscription made =>
    obtain ⟨table, same⟩ := withSubscription_table s subscription
    rw [same]
    exact ⟨rfl, rfl⟩
  | confined none confined =>
    obtain ⟨user, listCache, rfl⟩ := confined
    exact ⟨rfl, rfl⟩

theorem turns_allHandlers {P : Registry υ → Prop} {s s' : Server υ} (all : s.AllHandlers P)
    {event : ServerEvent υ} (turns : s.Turns info event s')
    (new : ∀ registry, event = .registers registry → P registry) : s'.AllHandlers P := by
  have same {t : Server υ} (registries : t.registry = s.registry ∧ t.frozen = s.frozen) :
      t.AllHandlers P := by
    unfold Server.AllHandlers
    rw [registries.1, registries.2]
    exact all
  cases turns with
  | @serves message sessionId batch req parsed =>
    exact same (processRequest_registries info req sessionId (s.arrived message))
  | defers parsed deferrable | delivers found => exact same ⟨rfl, rfl⟩
  | @works place job found =>
    exact same (processRequest_registries info job.request job.sessionId
      { s with jobs := s.jobs.eraseIdx place })
  | registers registry => exact ⟨new registry rfl, all.2⟩
  | starts =>
    refine ⟨all.1, fun registry frozen => ?_⟩
    cases frozen
    exact all.1
  | fails aside =>
    have unfrozen : Server.AllHandlers P { s with frozen := none } :=
      ⟨all.1, fun registry frozen => by cases frozen⟩
    exact unfrozen.aside aside
  | stops => exact all
  | @hears message sessionId batch s' other aside =>
    have arrived : (s.arrived message).AllHandlers P := all
    exact arrived.aside aside
  | refuses other response => exact all
  | aside quiet aside => exact all.aside aside

/-- A server without a handler of the user's for `initialize`. -/
def Registry.Plain (registry : Registry υ) : Prop := registry.initializeHandler = none

def ServerEvent.Greets (event : ServerEvent υ) : Prop :=
  ∃ req message sessionId, event.Brings req message sessionId ∧
    req.method = Protocol.methodInitialize

/-- The server's own result of an `initialize`. -/
def ServerInfo.IsGreeting (result : Json) : Prop :=
  ∃ version, result = InitializeResult.toJson ⟨version, info.capabilities, info.serverInfo, none⟩

theorem run_greetings {s s' : Server υ} (orderly : s.Orderly) (plain : s.AllHandlers Registry.Plain)
    {events : List (ServerEvent υ)}
    (registers : ∀ registry, .registers registry ∈ events → registry.Plain)
    (h : run (Server.step info) s events = some s') :
    ∃ added, s'.greetings = s.greetings ++ added ∧ (∀ result ∈ added, info.IsGreeting result) ∧
      (added ≠ [] ↔ ∃ e ∈ events, e.Greets) := by
  induction events generalizing s with
  | nil =>
    cases h
    exact ⟨[], by simp, by simp, by simp⟩
  | cons event rest ih =>
    obtain ⟨next, stepped, h⟩ := run_cons_eq h
    have turns := step_turns info stepped
    have later := ih (turns_orderly info orderly turns)
      (turns_allHandlers info plain turns fun registry same =>
        registers registry (same ▸ List.mem_cons_self))
      (fun registry member => registers registry (List.mem_cons_of_mem _ member)) h
    obtain ⟨added, greetings, results, greeted⟩ := later
    rcases turns_greetings info orderly turns with
      ⟨req, message, sessionId, brings, greeting, -, first⟩ | ⟨other, first⟩
    · have default := initialize_default info greeting sessionId (s := s.arrived message)
        plain.inForce
      rw [default, success_result, Option.toList_some] at first
      refine ⟨_ :: added, by rw [greetings, first, List.append_assoc]; rfl, ?_, ?_⟩
      · intro result member
        rcases List.mem_cons.mp member with rfl | member
        · exact ⟨_, rfl⟩
        · exact results result member
      · have greets : event.Greets := ⟨req, message, sessionId, brings, greeting⟩
        simp [greets]
    · have quiet : ¬ event.Greets := by
        rintro ⟨req, message, sessionId, brings, greeting⟩
        exact other req message sessionId brings greeting
      exact ⟨added, by rw [greetings, first], results, by simp [quiet, greeted]⟩

/-- `capabilities.resources.subscribe` as the server was configured. -/
def ServerInfo.declaredSubscribe : Option Bool :=
  info.capabilities.resources.bind ResourcesCapability.subscribe

theorem subscribes_iff : info.subscribes = info.declaredSubscribe.isSome := by
  unfold ServerInfo.subscribes ServerInfo.declaredSubscribe
  cases info.capabilities.resources <;> rfl

/-- An `initialize` result says `capabilities.resources.subscribe: true`. -/
def AdvertisesSubscribe (result : Json) : Prop :=
  ((result.find? "capabilities").bind fun capabilities => (capabilities.find? "resources").bind
    fun resources => resources.find? "subscribe") = some (.bool true)

/-- The encoder writes what was configured. -/
theorem greeting_advertises_iff {result : Json} (greeting : info.IsGreeting result) :
    AdvertisesSubscribe result ↔ info.declaredSubscribe = some true := by
  obtain ⟨version, rfl⟩ := greeting
  have capabilities : (InitializeResult.toJson ⟨version, info.capabilities, info.serverInfo,
      none⟩).find? "capabilities" = some info.capabilities.toJson := by
    simp [InitializeResult.toJson, find?_mk, written]
  have resources : info.capabilities.toJson.find? "resources" =
      info.capabilities.resources.map ResourcesCapability.toJson := by
    simp [ServerCapabilities.toJson, find?_mk, List.lookup_append]
  have subscribe (c : ResourcesCapability) : c.toJson.find? "subscribe" = c.subscribe.map .bool := by
    simp [ResourcesCapability.toJson, find?_mk, List.lookup_append]
  unfold AdvertisesSubscribe ServerInfo.declaredSubscribe
  rw [capabilities, Option.bind_some, resources]
  cases info.capabilities.resources with
  | none => simp
  | some c =>
    rw [Option.map_some, Option.bind_some, Option.bind_some, subscribe]
    cases c.subscribe <;> simp

/-- No `resources/subscribe` comes in that the gate of the handshake lets through. -/
def Server.Unasked (s : Server υ) (event : ServerEvent υ) : Prop :=
  ∀ req message sessionId, event.Brings req message sessionId →
    req.method = Protocol.methodResourcesSubscribe → s.initialized = false

theorem success_ne_notFound (id id' : RequestId) (result : Json) (why : String) :
    makeSuccessResponse id result ≠ notFound id' why := by
  intro same
  have errors := congrArg (fun response => response.find? "error") same
  simp [makeSuccessResponse, notFound, makeErrorResponse, find?_mk] at errors

theorem invalidParams_ne_notFound (id id' : RequestId) (message why : String) :
    invalidParams id message ≠ notFound id' why := by
  intro same
  have codes := congrArg (fun response => (response.find? "error").bind fun error =>
    error.find? "code") same
  simp [invalidParams, notFound, makeErrorResponse, errorObject, find?_mk] at codes
  revert codes
  decide

theorem processRequest_subscribe {req : JsonRpcRequest}
    (asks : req.method = Protocol.methodResourcesSubscribe) (sessionId : SessionId) {s : Server υ}
    (opened : s.initialized = true) :
    (∃ why, (processRequest info req sessionId s).1 = notFound req.id why) ↔
      info.declaredSubscribe = none := by
  have gated : req.isGated = true := by
    unfold JsonRpcRequest.isGated
    rw [asks]
    decide
  have dispatched : (dispatchMethod info req sessionId).run.run s =
      (handleResourcesSubscribe info req.id req.given sessionId).run.run s := by
    rw [dispatchMethod_serves info gated sessionId opened]
    unfold serveMethod
    rw [asks]
    rfl
  unfold processRequest
  rw [dispatched]
  unfold handleResourcesSubscribe
  rw [subscribes_iff]
  cases info.declaredSubscribe with
  | none => exact iff_of_true ⟨_, rfl⟩ rfl
  | some subscribe =>
    refine iff_of_false ?_ (by simp)
    rintro ⟨why, same⟩
    cases given : getStringParam req.given "uri" with
    | error message =>
      rw [given] at same
      exact invalidParams_ne_notFound _ _ _ _ same
    | ok uri =>
      rw [given] at same
      exact success_ne_notFound _ _ _ _ same

theorem subscription_made {s : Server υ} {req : JsonRpcRequest} {sessionId id : SessionId}
    {uri : String} (made : info.subscription s req sessionId = some ((id, uri), true)) :
    s.initialized = true ∧ req.method = Protocol.methodResourcesSubscribe ∧
      info.subscribes = true := by
  unfold ServerInfo.subscription at made
  split at made
  · rename_i opened
    split at made
    · cases made
    · split at made
      · rename_i asks
        split at made
        · rename_i declared
          exact ⟨opened, asks, declared⟩
        · cases made
      · split at made <;> cases made
  · cases made

structure Server.Unsubscribed (s : Server υ) : Prop where
  deferrable : s.JobsDeferrable
  empty : s.subscribedResources = ∅

/-- Where subscribing is not declared, or nobody gets through with it, nobody is subscribed. -/
theorem turns_unsubscribed {s s' : Server υ} (deferrable : s.JobsDeferrable)
    {event : ServerEvent υ} (turns : s.Turns info event s')
    (idle : info.declaredSubscribe = none ∨ s.Unasked event)
    (empty : s.subscribedResources = ∅) : s'.subscribedResources = ∅ := by
  cases turns with
  | @serves message sessionId batch req parsed =>
    have processed := processRequest_processed info req sessionId (s.arrived message)
    show (processRequest info req sessionId (s.arrived message)).2.subscribedResources = ∅
    generalize (processRequest info req sessionId (s.arrived message)).2 = after at processed ⊢
    cases processed with
    | greets hello user listCache greeting none => exact empty
    | @subscribes subscription made =>
      obtain ⟨⟨id, uri⟩, subscribes⟩ := subscription
      cases subscribes with
      | true =>
        obtain ⟨opened, asks, declared⟩ := subscription_made info made
        rcases idle with undeclared | unasked
        · rw [subscribes_iff, undeclared] at declared
          cases declared
        · have closed := unasked req message sessionId ⟨batch, rfl, parsed⟩ asks
          rw [show s.initialized = true from opened] at closed
          cases closed
      | false =>
        have nobody : (s.arrived message).subscribedResources.lookup id = none := by
          show s.subscribedResources.lookup id = none
          rw [empty]
          rfl
        unfold Server.withSubscription
        simp only [nobody]
        exact empty
    | confined none confined =>
      obtain ⟨user, listCache, rfl⟩ := confined
      exact empty
  | @works place job found =>
    have confined := deferred_confined info (deferrable job (List.mem_of_getElem? found))
      job.sessionId { s with jobs := s.jobs.eraseIdx place }
    obtain ⟨user, listCache, after⟩ := confined
    exact (congrArg Server.subscribedResources after).trans empty
  | defers parsed deferrable | delivers found | registers registry | starts | stops => exact empty
  | fails aside => exact aside.subscribedResources.trans empty
  | hears other aside => exact aside.subscribedResources.trans empty
  | refuses other response => exact empty
  | aside quiet aside => exact aside.subscribedResources.trans empty

/-- Nobody is subscribed in any state of the run, and each `resources/subscribe` that comes in
    behind the handshake is answered as a method that does not exist. -/
structure Unsubscribable (user : υ) (events : List (ServerEvent υ)) : Prop where
  empty : ∀ front back t, events = front ++ back →
    run (Server.step info) (Server.initial user) front = some t → t.subscribedResources = ∅
  refused : ∀ front event back t t', events = front ++ event :: back →
    run (Server.step info) (Server.initial user) front = some t →
    t.step info event = some t' → ∀ req message sessionId, event.Brings req message sessionId →
    req.method = Protocol.methodResourcesSubscribe → t.initialized = true →
    ∃ why, t'.answers = t.answers ++ [(t.arrivals.length, notFound req.id why)]

theorem step_subscribe {s s' : Server υ} {event : ServerEvent υ} (h : s.step info event = some s')
    {req : JsonRpcRequest} {message : Json} {sessionId : SessionId}
    (brings : event.Brings req message sessionId)
    (asks : req.method = Protocol.methodResourcesSubscribe) (opened : s.initialized = true) :
    (∃ why, s'.answers = s.answers ++ [(s.arrivals.length, notFound req.id why)]) ↔
      info.declaredSubscribe = none := by
  obtain ⟨batch, rfl, parsed⟩ := brings
  have gate : (s.arrived message).initialized = true := opened
  rw [← processRequest_subscribe info asks sessionId gate]
  have answered : s'.answers = s.answers ++ [(s.arrivals.length,
      (processRequest info req sessionId (s.arrived message)).1)] := by
    simp only [Server.step, Option.ite_none_left_eq_some, Option.some.injEq] at h
    obtain ⟨-, rfl⟩ := h
    have atOnce : isDeferrable req.method = false := by
      rw [asks]
      decide
    have serving := (processRequest_spec info req sessionId (s.arrived message)).2
    simp only [Server.onMessage, parsed, atOnce, Bool.and_false, Server.respond, serving.answers]
    rfl
  simp [answered]

theorem unsubscribable_iff {user : υ} {events : List (ServerEvent υ)} {s : Server υ}
    (h : run (Server.step info) (Server.initial user) events = some s) :
    Unsubscribable info user events ↔ info.declaredSubscribe = none ∨
      Meets (Server.step info) Server.Unasked (Server.initial user) events := by
  constructor
  · intro unsubscribable
    by_cases undeclared : info.declaredSubscribe = none
    · exact .inl undeclared
    · refine .inr ((meets_iff h).mpr fun front event back t split reached req message sessionId
        brings asks => ?_)
      by_contra opened
      have opened : t.initialized = true := by simpa using opened
      rw [split, run_append, reached, Option.bind_some] at h
      obtain ⟨t', stepped, -⟩ := run_cons_eq h
      have refused := unsubscribable.refused front event back t t' split reached stepped req message
        sessionId brings asks opened
      exact undeclared ((step_subscribe info stepped brings asks opened).mp refused)
  · intro idle
    have each (front : List (ServerEvent υ)) (event : ServerEvent υ) (back : List (ServerEvent υ))
        (t : Server υ) (split : events = front ++ event :: back)
        (reached : run (Server.step info) (Server.initial user) front = some t) :
        info.declaredSubscribe = none ∨ t.Unasked event :=
      idle.imp_right fun meets => (meets_iff h).mp meets front event back t split reached
    constructor
    · intro front back t split reached
      have meets : Meets (Server.step info) (fun t event =>
          info.declaredSubscribe = none ∨ t.Unasked event) (Server.initial user) front := by
        refine (meets_iff reached).mpr fun front' event back' t' split' reached' => ?_
        exact each front' event (back' ++ back) t' (by rw [split, split']; simp) reached'
      have start : (Server.initial user).Unsubscribed := ⟨by simp [Server.JobsDeferrable,
        Server.initial], rfl⟩
      have inv : t.Unsubscribed := by
        refine run_invariant (fun s e s' inv idle stepped => ?_) start meets reached
        exact ⟨step_jobs info inv.deferrable stepped,
          turns_unsubscribed info inv.deferrable (step_turns info stepped) idle inv.empty⟩
      exact inv.empty
    · intro front event back t t' split reached stepped req message sessionId brings asks opened
      rcases each front event back t split reached with undeclared | unasked
      · exact (step_subscribe info stepped brings asks opened).mpr undeclared
      · have closed := unasked req message sessionId brings asks
        rw [opened] at closed
        cases closed

/-- Without a handler of the user's for `initialize`: where the results that the run sent do not
    advertise subscriptions there are none, exactly if none are declared, or they are declared and
    the run has greeted somebody with that, or none are asked for behind the handshake. -/
theorem subscriptions_advertised_iff (user : υ) (events : List (ServerEvent υ)) (s : Server υ)
    (plain : ∀ registry, .registers registry ∈ events → registry.Plain)
    (h : run (Server.step info) (Server.initial user) events = some s) :
    ((∀ result ∈ s.greetings, ¬ AdvertisesSubscribe result) → Unsubscribable info user events) ↔
      info.declaredSubscribe = none ∨
      info.declaredSubscribe = some true ∧ (∃ e ∈ events, e.Greets) ∨
      Meets (Server.step info) Server.Unasked (Server.initial user) events := by
  have start : (Server.initial user).AllHandlers Registry.Plain :=
    ⟨rfl, fun registry frozen => by cases frozen⟩
  obtain ⟨added, greetings, results, greeted⟩ :=
    run_greetings info (initial_orderly user) start plain h
  have all : s.greetings = added := greetings
  have advertised : (∀ result ∈ s.greetings, ¬ AdvertisesSubscribe result) ↔
      ¬ (info.declaredSubscribe = some true ∧ ∃ e ∈ events, e.Greets) := by
    rw [all, ← greeted]
    constructor
    · rintro none ⟨declared, some⟩
      obtain ⟨result, rest, rfl⟩ := List.exists_cons_of_ne_nil some
      have member : result ∈ result :: rest := List.mem_cons_self
      exact none result member ((greeting_advertises_iff info (results result member)).mpr declared)
    · intro neither result member advertises
      exact neither ⟨(greeting_advertises_iff info (results result member)).mp advertises,
        List.ne_nil_of_mem member⟩
  rw [advertised, unsubscribable_iff info h]
  by_cases told : info.declaredSubscribe = some true ∧ ∃ e ∈ events, e.Greets
  · exact iff_of_true (fun untold => absurd told untold) (.inr (.inl told))
  · simp only [told, not_false_eq_true, true_implies, false_or]

/-- A server that is configured not to offer subscriptions, and says so. -/
def unsubscribing : ServerInfo :=
  ⟨⟨"s", "1"⟩, { resources := some { subscribe := some false } }⟩

def subscribedAnyway : List (ServerEvent Unit) :=
  [.runs true, .arrives (serializeRequest greetLatest) (ascii "a") false,
    .arrives (serializeNotification ⟨Protocol.notifInitialized, none⟩) (ascii "a") false,
    .arrives (serializeRequest ⟨.int 2, Protocol.methodResourcesSubscribe,
      some (.object [("uri", .string "file:///a")])⟩) (ascii "a") false]

theorem unsubscribing_run_checked :
    ∃ s, run (Server.step unsubscribing) (Server.initial ()) subscribedAnyway = some s ∧
      (((∀ result ∈ s.greetings, ¬ AdvertisesSubscribe result) →
        Unsubscribable unsubscribing () subscribedAnyway) ↔
      unsubscribing.declaredSubscribe = none ∨
      unsubscribing.declaredSubscribe = some true ∧ (∃ e ∈ subscribedAnyway, e.Greets) ∨
      Meets (Server.step unsubscribing) Server.Unasked (Server.initial ()) subscribedAnyway) :=
  ⟨_, rfl, subscriptions_advertised_iff unsubscribing () subscribedAnyway _
    (by simp [subscribedAnyway]) rfl⟩

/-- The one `initialize` result says `subscribe: false`, and the session is subscribed. -/
theorem subscribed_unadvertised :
    ∃ s result, run (Server.step unsubscribing) (Server.initial ()) subscribedAnyway = some s ∧
      s.greetings = [result] ∧ ¬ AdvertisesSubscribe result ∧
      s.answers.getLast? = some (2, makeSuccessResponse (.int 2) emptyResult) ∧
      s.subscribedResources.lookup (ascii "a") = some ["file:///a"] := by
  refine ⟨_, _, rfl, rfl, ?_, rfl, rfl⟩
  unfold AdvertisesSubscribe
  decide

end CppMcp
