import CppMcp.Client.Completion
import CppMcp.Peers.Wire

namespace CppMcp

open Lib

variable {υ : Type}

/-- The context is that of a request its client has registered, and reports under a key of it. -/
def Peers.Knows (x : Peers υ) (ctx : RequestContext) : Prop :=
  ∃ (pr : Nat) (r : PendingRequest), (x.clients ctx.sessionId).requests[pr]? = some r ∧
    r.registered = true ∧ r.id = ctx.requestId ∧ r.HasKey ctx.progressToken

structure Peers.Sound (env : PeersEnv) (user : υ) (x : Peers υ) : Prop where
  enrolled : ∀ id, Enrolled (x.clients id)
  voiced : ∀ id, Voiced (x.clients id)
  uplink : ∀ id m, (id, m) ∈ x.uplink → (x.clients id).MaySay m
  downlink : ∀ id m, (id, m) ∈ x.downlink → m.hasTextId = false
  textless : x.server.Textless
  served : ∃ events, run (Server.step env.info) (Server.initial user) events = some x.server
  sinks : x.sinks.length = x.server.arrivals.length
  arrivals : ∀ (sink : Nat) raw id, x.server.arrivals[sink]? = some raw → x.sinks[sink]? = some id →
    ∃ m, raw = m.reread ∧ (x.clients id).MaySay m
  reports : ∀ report ∈ x.reports, x.Knows report.context

theorem Client.Remembers.refl (c : Client) : c.Remembers c :=
  fun _ r found => ⟨r, found, rfl, rfl, id⟩

theorem Peers.Knows.remember {x x' : Peers υ} {ctx : RequestContext} (knows : x.Knows ctx)
    (remembers : ∀ id, (x.clients id).Remembers (x'.clients id)) : x'.Knows ctx := by
  obtain ⟨pr, r, present, registered, id, key⟩ := knows
  obtain ⟨r', present', sameId, sameToken, kept⟩ := remembers ctx.sessionId pr r present
  exact ⟨pr, r', present', kept registered, sameId.trans id, key.named sameId sameToken⟩

variable {env : PeersEnv} {user : υ}

namespace Peers.Sound

/-- A client moves on, and the server does not. -/
theorem moves {x x' : Peers υ} (inv : x.Sound env user) {id : SessionId} {c : Client}
    (clients : x'.clients = Function.update x.clients id c)
    (remembers : (x.clients id).Remembers c) (enrolled : Enrolled c) (voiced : Voiced c)
    (uplink : ∀ message ∈ x'.uplink, message ∈ x.uplink ∨ message.1 = id ∧ c.MaySay message.2)
    (downlink : ∀ message ∈ x'.downlink, message ∈ x.downlink) (server : x'.server = x.server)
    (sinks : x'.sinks = x.sinks) (reports : x'.reports = x.reports) : x'.Sound env user := by
  have remember : ∀ id', (x.clients id').Remembers (x'.clients id') := by
    rw [clients]
    exact (Function.forall_update_iff _ fun id' c' => (x.clients id').Remembers c').mpr
      ⟨remembers, fun id' _ => .refl _⟩
  constructor
  case enrolled =>
    rw [clients]
    exact (Function.forall_update_iff _ fun _ c' => Enrolled c').mpr
      ⟨enrolled, fun id' _ => inv.enrolled id'⟩
  case voiced =>
    rw [clients]
    exact (Function.forall_update_iff _ fun _ c' => Voiced c').mpr
      ⟨voiced, fun id' _ => inv.voiced id'⟩
  case uplink =>
    intro id' m member
    rcases uplink _ member with old | ⟨rfl, new⟩
    · exact (inv.uplink id' m old).remember (remember id')
    · rw [clients, Function.update_self]
      exact new
  case downlink => exact fun id m member => inv.downlink id m (downlink _ member)
  case textless => exact server ▸ inv.textless
  case served => exact server ▸ inv.served
  case sinks =>
    rw [sinks, server]
    exact inv.sinks
  case arrivals =>
    rw [sinks, server]
    intro sink raw id arrived belongs
    obtain ⟨m, read, said⟩ := inv.arrivals sink raw id arrived belongs
    exact ⟨m, read, said.remember (remember id)⟩
  case reports =>
    rw [reports]
    exact fun report member => (inv.reports report member).remember remember

theorem after {x : Peers υ} (inv : x.Sound env user) {id : SessionId} {event : ClientEvent}
    {c : Client} (other : ∀ m, event ≠ .arrives m) (orderly : (x.clients id).orderly event = true)
    (h : (x.clients id).step (env.client id) event = some c) : (x.after id c).Sound env user := by
  have voiced := step_voiced (env.client id) (inv.enrolled id) (inv.voiced id) h
  have enrolled := step_enrolled (env.client id) (inv.enrolled id) orderly other h
  refine inv.moves rfl (fun pr r found => step_remembers (env.client id) h found) enrolled voiced
    (fun message member => ?_) (fun _ member => member) rfl rfl rfl
  rcases List.mem_append.mp member with old | new
  · exact .inl old
  · obtain ⟨m, said, rfl⟩ := List.mem_map.mp new
    exact .inr ⟨rfl, voiced.sent m (List.mem_of_mem_drop said)⟩

theorem deliver {x : Peers υ} (inv : x.Sound env user) {id : SessionId} {m : Json}
    (plain : m.hasTextId = false) : (x.deliver id m).Sound env user := by
  have voiced : Voiced ((x.clients id).post (.message m.reread)) := by
    refine ⟨(inv.voiced id).sent, fun m' member => ?_, (inv.voiced id).pooled,
      (inv.voiced id).posted⟩
    rcases List.mem_append.mp member with old | new
    · exact (inv.voiced id).queued m' old
    · cases List.mem_singleton.mp new
  have enrolled : Enrolled ((x.clients id).post (.message m.reread)) := by
    apply (inv.enrolled id).post rfl
    simp [Task.plain, hasTextId_reread, plain]
  exact inv.moves rfl (.refl _) enrolled voiced (fun _ member => .inl member)
    (fun _ member => member) rfl rfl rfl

theorem served_step {x : Peers υ} (inv : x.Sound env user) {event : ServerEvent υ} {s : Server υ}
    (h : x.server.step env.info event = some s) :
    ∃ events, run (Server.step env.info) (Server.initial user) events = some s := by
  obtain ⟨events, reached⟩ := inv.served
  refine ⟨events ++ [event], ?_⟩
  rw [run_append, reached]
  simp [run, h]

theorem answered_textless {x : Peers υ} {s : Server υ} (textless : s.Textless) :
    ∀ id m, (id, m) ∈ x.answered s → m.hasTextId = false := by
  intro id m member
  obtain ⟨answer, new, made⟩ := List.mem_filterMap.mp member
  obtain ⟨id', -, same⟩ := Option.map_eq_some_iff.mp made
  cases same
  exact textless.answers answer (List.mem_of_mem_drop new)

theorem serve {x : Peers υ} (inv : x.Sound env user) {event : ServerEvent υ} {s : Server υ}
    (other : ∀ message sessionId batch, event ≠ .arrives message sessionId batch)
    (h : x.server.step env.info event = some s) : (x.serve event s).Sound env user := by
  have adds := step_adds env.info other h
  have textless := step_textless env.info inv.textless other h
  constructor
  case enrolled => exact inv.enrolled
  case voiced => exact inv.voiced
  case uplink => exact inv.uplink
  case downlink =>
    intro id m member
    rcases List.mem_append.mp member with before | asked
    · rcases List.mem_append.mp before with old | answered
      · exact inv.downlink id m old
      · exact answered_textless textless id m answered
    · obtain ⟨m', new, same⟩ := List.mem_map.mp asked
      cases same
      exact asks_textless (step_asks env.info h m new)
  case textless => exact textless
  case served => exact inv.served_step h
  case sinks =>
    show x.sinks.length = s.arrivals.length
    rw [adds.arrivals]
    exact inv.sinks
  case arrivals =>
    show ∀ (sink : Nat) raw id, s.arrivals[sink]? = some raw → _
    rw [adds.arrivals]
    exact inv.arrivals
  case reports => exact inv.reports

theorem handle {x : Peers υ} (inv : x.Sound env user) {id : SessionId} {m : Json}
    (working : x.server.stopping = false) (said : (x.clients id).MaySay m) :
    (x.handle env id m).Sound env user := by
  have adds := onMessage_adds env.info x.server m.reread id false
  have plain : m.reread.hasTextId = false := (hasTextId_reread m).trans said.1
  have textless := onMessage_textless env.info inv.textless plain id false
  have arrives : x.server.step env.info (.arrives m.reread id false) =
      some (x.server.onMessage env.info m.reread id false) := by
    simp [Server.step, working]
  have arrivals : (x.handle env id m).server.arrivals = x.server.arrivals ++ [m.reread] :=
    adds.arrivals
  constructor
  case enrolled => exact inv.enrolled
  case voiced => exact inv.voiced
  case uplink => exact inv.uplink
  case downlink =>
    intro id' m' member
    rcases List.mem_append.mp member with old | answered
    · exact inv.downlink id' m' old
    · exact answered_textless textless id' m' answered
  case textless => exact textless
  case served => exact inv.served_step arrives
  case sinks =>
    rw [arrivals]
    show (x.sinks ++ [id]).length = _
    rw [List.length_append, List.length_append, inv.sinks]
    rfl
  case arrivals =>
    rw [arrivals]
    intro sink raw id' arrived belongs
    rcases getElem?_concat arrived with old | ⟨last, rfl⟩
    · have bound := (List.getElem?_eq_some_iff.mp old).1
      have belongs : (x.sinks ++ [id])[sink]? = some id' := belongs
      rw [List.getElem?_append_left (inv.sinks ▸ bound)] at belongs
      exact inv.arrivals sink raw id' old belongs
    · have belongs : (x.sinks ++ [id])[sink]? = some id' := belongs
      rw [last, ← inv.sinks] at belongs
      simp only [List.getElem?_concat_length, Option.some.injEq] at belongs
      subst belongs
      exact ⟨m, rfl, said⟩
  case reports => exact inv.reports

/-- The context of a request that arrived is known to the client it came from. -/
theorem knows {x : Peers υ} (inv : x.Sound env user) {sink : Nat} {ctx : RequestContext}
    (given : x.contextOf sink = some ctx) : x.Knows ctx := by
  unfold Peers.contextOf at given
  split at given
  · rename_i raw id arrived belongs
    split at given
    · rename_i req parsed
      rw [Option.ite_none_right_eq_some] at given
      obtain ⟨-, same⟩ := given
      cases same
      obtain ⟨m, rfl, said⟩ := inv.arrivals sink _ id arrived belongs
      have enrolled := inv.enrolled id
      have numbers : ∀ (pr : Nat) r, (x.clients id).requests[pr]? = some r → r.id ≠ .null := by
        intro pr r present null
        obtain ⟨n, number, -⟩ := enrolled.correlated.ids pr r present
        rw [number] at null
        cases null
      obtain ⟨pr, r, present, registered, own, key⟩ :=
        maySay_request enrolled.fits numbers said parsed
      exact ⟨pr, r, present, registered, own, key id⟩
    · cases given
  · cases given

theorem report {x : Peers υ} (inv : x.Sound env user) {sink : Nat} {ctx : RequestContext}
    (given : x.contextOf sink = some ctx) (progress : Double) (total : Option Double) :
    (x.report progress total ctx).Sound env user := by
  constructor
  case enrolled => exact inv.enrolled
  case voiced => exact inv.voiced
  case uplink => exact inv.uplink
  case downlink =>
    intro id m member
    rcases List.mem_append.mp member with old | new
    · exact inv.downlink id m old
    · obtain ⟨sending, sent, routed⟩ := List.mem_map.mp new
      have plain : ∀ notif, (serializeNotification notif).hasTextId = false := fun notif =>
        ((maySay_vocabulary (x.clients id)).notification notif).1
      unfold RequestContext.reportProgress Server.notifyProgress Server.sendNotification at sent
      split at sent
      · cases sent
      · dsimp only at sent
        split at sent
        · cases List.mem_singleton.mp sent
          cases routed
          exact plain _
        · cases List.mem_singleton.mp sent
          cases routed
          exact plain _
  case textless => exact inv.textless
  case served => exact inv.served
  case sinks => exact inv.sinks
  case arrivals => exact inv.arrivals
  case reports =>
    intro report member
    rcases List.mem_append.mp member with old | new
    · exact inv.reports report old
    · rw [List.mem_singleton.mp new]
      exact inv.knows given

theorem step {x x' : Peers υ} {event : PeersEvent υ} (inv : x.Sound env user)
    (orderly : x.orderly event = true) (h : x.step env event = some x') : x'.Sound env user := by
  cases peers_step_cases h with
  | client id event c other stepped => exact inv.after other orderly stepped
  | handles place id message sent working =>
    have taken : Peers.Sound env user { x with uplink := x.uplink.eraseIdx place } :=
      { inv with uplink := fun id m member => inv.uplink id m (List.mem_of_mem_eraseIdx member) }
    exact taken.handle working (inv.uplink id message sent)
  | serves event s other stepped => exact inv.serve other stepped
  | notifies id notif =>
    refine { inv with downlink := fun id' m member => ?_ }
    rcases List.mem_append.mp member with old | new
    · exact inv.downlink id' m old
    · cases List.mem_singleton.mp new
      exact ((maySay_vocabulary (x.clients id)).notification notif).1
  | reports sink progress total ctx given => exact inv.report given progress total
  | receives place id message sent =>
    have taken : Peers.Sound env user { x with downlink := x.downlink.eraseIdx place } :=
      { inv with
        downlink := fun id m member => inv.downlink id m (List.mem_of_mem_eraseIdx member) }
    exact taken.deliver (inv.downlink id message sent)

end Peers.Sound

theorem peers_initial_sound : (Peers.initial user).Sound env user where
  enrolled _ := initial_enrolled true
  voiced _ := initial_voiced true
  uplink _ _ member := by cases member
  downlink _ _ member := by cases member
  textless := by constructor <;> simp [Peers.initial, Server.initial]
  served := ⟨[], rfl⟩
  sinks := rfl
  arrivals _ _ _ arrived := by cases arrived
  reports _ member := by cases member

theorem peers_run_sound {events : List (PeersEvent υ)} {x : Peers υ}
    (orderly : Meets (Peers.step env) (fun x event => x.orderly event = true) (Peers.initial user)
      events)
    (h : run (Peers.step env) (Peers.initial user) events = some x) : x.Sound env user :=
  run_invariant (fun _ _ _ inv orderly h => inv.step orderly h) peers_initial_sound orderly h

/-- The numbers are finite; any other is written as a null. -/
def ProgressReport.Finite (report : ProgressReport) : Prop :=
  report.progress.isFinite = true ∧ ∀ total, report.total = some total → total.isFinite = true

theorem reread_float {d : Double} (finite : d.isFinite = true) :
    (Json.float d).reread = .float d := by
  simp [Json.reread, finite]

section
variable (client : ClientEnv) (c : Client)

/-- A reported token and finite numbers are read back as they were written. -/
theorem handleProgress_reported {report : ProgressReport} (finite : report.Finite)
    (fits : report.context.progressToken.Fits) :
    c.handleProgress client (progressParams report.context.progressToken report.progress
      report.total).reread =
      .ok (match c.pendingMap.lookup report.context.progressToken with
        | some pr => c.deliverProgress client pr report.progress report.total
        | none => c) := by
  obtain ⟨⟨id, token, session⟩, progress, total⟩ := report
  obtain ⟨progressFinite, totalFinite⟩ := finite
  dsimp only at progressFinite totalFinite fits ⊢
  have tokenMember : (progressParams token progress total).reread.find? "progressToken" =
      some (requestIdToJson token).reread := by
    rw [Json.find?_reread]
    unfold progressParams
    cases total <;> simp [find?_mk]
  have progressMember : (progressParams token progress total).reread.find? "progress" =
      some (.float progress) := by
    rw [Json.find?_reread, ← reread_float progressFinite]
    unfold progressParams
    cases total <;> simp [find?_mk, reread_float progressFinite]
  have totalMember : (progressParams token progress total).reread.find? "total" =
      total.map Json.float := by
    rw [Json.find?_reread]
    unfold progressParams
    cases total with
    | none => simp [find?_mk]
    | some total => simp [find?_mk, reread_float (totalFinite total rfl)]
  obtain ⟨members, object⟩ : ∃ members, (progressParams token progress total).reread =
    .object members := ⟨_, rfl⟩
  have value : (progressParams token progress total).reread.value Json.getDouble "progress"
      (Double.ofInt 0) = .ok progress := by
    rw [object] at progressMember ⊢
    rw [Json.find?_object] at progressMember
    simp [Json.value, progressMember, Json.getDouble]
  have totalValue : progressTotal (progressParams token progress total).reread = .ok total := by
    unfold progressTotal
    rw [totalMember]
    cases total <;> rfl
  unfold Client.handleProgress
  simp only [tokenMember, requestId_reread fits, value, totalValue]
  cases c.pendingMap.lookup token <;> rfl

theorem onTransportMessage_reported {report : ProgressReport} (finite : report.Finite)
    (fits : report.context.progressToken.Fits) :
    c.onTransportMessage client report.notification.reread =
      .ok (match c.pendingMap.lookup report.context.progressToken with
        | some pr => c.deliverProgress client pr report.progress report.total
        | none => c) := by
  let notif : JsonRpcNotification := ⟨Protocol.notifProgress, some (progressParams
    report.context.progressToken report.progress report.total)⟩
  have structured : Structured notif.params := by
    intro p same
    cases same
    exact .inl rfl
  have parsed := parseMessageClient_notification (serializeNotification_reread structured)
  unfold Client.onTransportMessage ProgressReport.notification
  rw [parsed]
  exact handleProgress_reported client c finite fits

/-- The progress callbacks of these requests are invoked with these numbers, or posted to the
    callback executor, and no other callback is. -/
structure Client.Invokes (c' : Client) (progress : List (Nat × Double × Option Double)) : Prop where
  calls : c'.calls = c.calls ++ if client.callbackExecutor then []
    else progress.map fun (pr, value, total) => .progress pr value total
  posted : c'.callbackQueue = c.callbackQueue ++ if client.callbackExecutor then
    progress.map fun (pr, value, total) => .progress pr value total else []

theorem fire_progress {pr : Nat} (listens : c.Listens pr) (progress : Double)
    (total : Option Double) :
    (c.fire client (.progress pr progress total)).calls = c.calls ++ [.progress pr progress total] ∧
      (c.fire client (.progress pr progress total)).callbackQueue = c.callbackQueue := by
  obtain ⟨r, present, on⟩ := listens
  simp only [Client.fire, present, on, if_true]
  exact ⟨invoke_calls client c _ _, invoke_callbackQueue client c _ _⟩

theorem deliverProgress_invokes {pr : Nat} {r : PendingRequest} (present : c.requests[pr]? = some r)
    (waits : r.state = .waiting) (progress : Double) (total : Option Double) :
    c.Invokes client (c.deliverProgress client pr progress total)
      (if r.onProgress then [(pr, progress, total)] else []) := by
  unfold Client.deliverProgress
  simp only [present, waits, true_and]
  cases on : r.onProgress with
  | false => constructor <;> simp
  | true =>
    unfold Client.dispatch
    cases executor : client.callbackExecutor with
    | true => constructor <;> simp [executor]
    | false =>
      obtain ⟨calls, posted⟩ := fire_progress client c ⟨r, present, on⟩ progress total
      constructor
      · simpa [executor] using calls
      · simpa [executor] using posted

end

theorem addressed_routed (notif : Json) (id : SessionId) :
    (addressed notif id).routed = (id, notif) := by
  unfold addressed
  cases id <;> rfl

theorem report_sends {x : Peers υ} (sound : x.Sound env user) (working : x.server.stopping = false)
    (progress : Double) (total : Option Double) (ctx : RequestContext) :
    (x.report progress total ctx).downlink =
      x.downlink ++ [(ctx.sessionId, ProgressReport.notification ⟨ctx, progress, total⟩)] := by
  obtain ⟨events, reached⟩ := sound.served
  have transport := run_transport env.info reached
  have given : (progressParams ctx.progressToken progress total).isNull = false := rfl
  unfold Peers.report RequestContext.reportProgress Server.notifyProgress
  simp only [sendNotification_addressed transport working Protocol.notifProgress given,
    List.map_cons, List.map_nil, addressed_routed]
  rfl

theorem report_invokes {x x' : Peers υ} (sound : x.Sound env user) {report : ProgressReport}
    (finite : report.Finite) {pr : Nat} {r : PendingRequest}
    (present : (x.clients report.context.sessionId).requests[pr]? = some r)
    (registered : r.registered = true) (key : r.HasKey report.context.progressToken)
    (waits : r.state = .waiting) {rest : List Task}
    (head : (x.clients report.context.sessionId).strand =
      .message report.notification.reread :: rest)
    (h : x.step env (.client report.context.sessionId .runTask) = some x') :
    (x.clients report.context.sessionId).Invokes (env.client report.context.sessionId)
      (x'.clients report.context.sessionId)
      (if r.onProgress then [(pr, report.progress, report.total)] else []) ∧
    ∀ id, id ≠ report.context.sessionId → x'.clients id = x.clients id := by
  have enrolled := sound.enrolled report.context.sessionId
  have found := enrolled.found present registered waits key
  have fits : report.context.progressToken.Fits := by
    rcases key with own | ⟨ownToken, own⟩
    · rw [own]
      exact enrolled.fits pr r present
    · obtain ⟨text, isText⟩ := enrolled.correlated.ownToken present ownToken
      rw [own, isText]
      exact True.intro
  cases peers_step_cases h with
  | client id event c other stepped =>
    refine ⟨?_, fun id ne => Function.update_of_ne ne _ _⟩
    show Client.Invokes _ _ (Function.update x.clients report.context.sessionId c _) _
    rw [Function.update_self]
    cases step_cases stepped with
    | runTask task rest' head' =>
      rw [head] at head'
      cases head'
      have handled := onTransportMessage_reported (env.client report.context.sessionId)
        { x.clients report.context.sessionId with strand := rest } finite fits
      dsimp only at handled
      rw [found] at handled
      simp only [Client.runTask, handled]
      obtain ⟨calls, posted⟩ := deliverProgress_invokes (env.client report.context.sessionId)
        { x.clients report.context.sessionId with strand := rest } present waits report.progress
        report.total
      exact ⟨calls, posted⟩

/-- In every run a report sends one notification to the peer of its request, whose strand takes
    what the peer receives. Where the numbers are finite and the request still waits when the
    strand comes to it, this invokes the `on_progress` of that request with these numbers, and of
    no other. A callback that was posted to the executor is invoked when its turn comes. -/
theorem progress_reaches_its_request (env : PeersEnv) (user : υ) (events : List (PeersEvent υ))
    (x : Peers υ)
    (orderly : Meets (Peers.step env) (fun x event => x.orderly event = true) (Peers.initial user)
      events)
    (h : run (Peers.step env) (Peers.initial user) events = some x) :
    (∀ sink progress total x', x.step env (.reports sink progress total) = some x' →
      x.server.stopping = false → ∃ ctx, x.contextOf sink = some ctx ∧
        x'.reports = x.reports ++ [⟨ctx, progress, total⟩] ∧
        x'.downlink = x.downlink ++
          [(ctx.sessionId, ProgressReport.notification ⟨ctx, progress, total⟩)]) ∧
    (∀ place id message x', x.downlink[place]? = some (id, message) →
      x.step env (.receives place) = some x' →
      (x'.clients id).strand = (x.clients id).strand ++ [.message message.reread]) ∧
    (∀ report ∈ x.reports, report.Finite → ∃ pr r,
      (x.clients report.context.sessionId).requests[pr]? = some r ∧
      r.id = report.context.requestId ∧
      ∀ rest x', r.state = .waiting →
        (x.clients report.context.sessionId).strand =
          .message report.notification.reread :: rest →
        x.step env (.client report.context.sessionId .runTask) = some x' →
        (x.clients report.context.sessionId).Invokes (env.client report.context.sessionId)
          (x'.clients report.context.sessionId)
          (if r.onProgress then [(pr, report.progress, report.total)] else []) ∧
        ∀ id, id ≠ report.context.sessionId → x'.clients id = x.clients id) ∧
    ∀ id pr progress total rest x',
      (x.clients id).callbackQueue = .progress pr progress total :: rest →
      x.step env (.client id .runCallback) = some x' →
      (x'.clients id).calls = (x.clients id).calls ++ [.progress pr progress total] := by
  have sound := peers_run_sound orderly h
  refine ⟨fun sink progress total x' stepped working => ?_,
    fun place id message x' flying stepped => ?_, fun report made finite => ?_,
    fun id pr progress total rest x' queued stepped => ?_⟩
  · cases peers_step_cases stepped with
    | reports _ _ _ ctx given =>
      exact ⟨ctx, given, rfl, report_sends sound working progress total ctx⟩
  · simp only [Peers.step, flying, Option.some.injEq] at stepped
    subst stepped
    show (Function.update x.clients id _ id).strand = _
    rw [Function.update_self]
    rfl
  · obtain ⟨pr, r, present, registered, id, key⟩ := sound.reports report made
    exact ⟨pr, r, present, id, fun rest x' waits head stepped =>
      report_invokes sound finite present registered key waits head stepped⟩
  · cases peers_step_cases stepped with
    | client _ _ c other taken =>
      cases step_cases taken with
      | runCallback job rest' queued' =>
        rw [queued] at queued'
        cases queued'
        have listens : Client.Listens { x.clients id with callbackQueue := rest } pr :=
          (sound.voiced id).posted pr progress total (queued ▸ List.mem_cons_self)
        obtain ⟨calls, -⟩ := fire_progress (env.client id)
          { x.clients id with callbackQueue := rest } listens progress total
        show (Function.update x.clients id _ id).calls = _
        rw [Function.update_self]
        exact calls

def sleeperEnv : PeersEnv := { info := { serverInfo := ⟨"s", "1"⟩ } }

def sleeper : Registry Unit where
  tools := [("sleep", { name := "sleep", inputSchema := .mk [] }, fun _ _ user => (.ok {}, user))]

def sleeperGreeting : Json :=
  .mk [("protocolVersion", .string "2025-06-18"), ("capabilities", .mk []),
    ("clientInfo", .mk [("name", .string "c"), ("version", .string "1")])]

/-- A call with a token of its own, in params with a `_meta`. -/
def napCall : SubmitArgs where
  method := Protocol.methodToolsCall
  params := some (.mk [("name", .string "sleep"), ("_meta", .mk [("trace", .string "x")])])
  onProgress := true
  progressToken := some (.str "nap")

/-- The handler of the call is about to run on a worker, and makes a report. -/
def napReported (progress : Double) : List (PeersEvent Unit) :=
  [PeersEvent.serves (.registers sleeper), .serves (.setsWorkers 1), .serves (.runs true),
    .client [] .connect] ++
  (submission { method := "initialize", params := some sleeperGreeting }).map (.client []) ++
  [PeersEvent.handles 0, .receives 0, .client [] .runTask, .handles 0] ++
  (submission napCall).map (.client []) ++ [PeersEvent.handles 0, .reports 2 progress none]

def napReport (progress : Double) : ProgressReport where
  context := ⟨.int 2, .str "nap", []⟩
  progress := progress
  total := none

theorem nap_progresses : ∃ x x', run (Peers.step sleeperEnv) (Peers.initial ())
    (napReported (.ofInt 3) ++ [.receives 0]) = some x ∧
    x.step sleeperEnv (.client [] .runTask) = some x' ∧
    (x.clients []).Invokes {} (x'.clients []) [(1, .ofInt 3, none)] := by
  have shape : (run (Peers.step sleeperEnv) (Peers.initial ())
      (napReported (.ofInt 3) ++ [.receives 0])).map (fun x =>
        (x.reports, (x.clients []).strand, (x.clients []).ioAlive)) =
      some ([napReport (.ofInt 3)], [.message (napReport (.ofInt 3)).notification.reread],
        true) := by
    decide +kernel
  have pending : (run (Peers.step sleeperEnv) (Peers.initial ())
      (napReported (.ofInt 3) ++ [.receives 0])).map (fun x =>
        (x.clients []).requests.map fun r => (r.id, r.onProgress, r.state)) =
      some [(.int 1, false, .succeeded), (.int 2, true, .waiting)] := by
    decide +kernel
  have orderly : Meets (Peers.step sleeperEnv) (fun x event => x.orderly event = true)
      (Peers.initial ()) (napReported (.ofInt 3) ++ [.receives 0]) := by
    decide +kernel
  obtain ⟨x, h, seen⟩ := Option.map_eq_some_iff.mp shape
  obtain ⟨reports, seen⟩ := Prod.mk.inj seen
  obtain ⟨strand, alive⟩ := Prod.mk.inj seen
  rw [h, Option.map_some, Option.some.injEq] at pending
  obtain ⟨-, -, reaches, -⟩ := progress_reaches_its_request sleeperEnv () _ x orderly h
  obtain ⟨pr, r, present, id, invokes⟩ := reaches (napReport (.ofInt 3))
    (reports ▸ List.mem_singleton_self _) ⟨by decide, fun total given => by cases given⟩
  have call : pr = 1 ∧ r.onProgress = true ∧ r.state = .waiting := by
    have present : (x.clients []).requests[pr]? = some r := present
    have own := congrArg (fun requests => requests[pr]?) pending
    rw [List.getElem?_map, present] at own
    match pr with
    | 0 => simp [id, napReport] at own
    | 1 =>
      simp only [Option.map_some, List.getElem?_cons_succ, List.getElem?_cons_zero,
        Option.some.injEq, Prod.mk.injEq] at own
      exact ⟨rfl, own.2⟩
    | n + 2 => cases own
  obtain ⟨rfl, on, waits⟩ := call
  have stepped : ∃ x', x.step sleeperEnv (.client [] .runTask) = some x' := by
    simp [Peers.step, Client.step, strand, alive]
  obtain ⟨x', stepped⟩ := stepped
  obtain ⟨invoked, -⟩ := invokes [] x' waits strand stepped
  rw [on] at invoked
  exact ⟨x, x', h, stepped, invoked⟩

def infinite : Double := ⟨0x7FF0000000000000⟩

/-- A report of infinite progress is on its way as a null. -/
def napEndless : List (PeersEvent Unit) :=
  napReported infinite ++ [.receives 0, .client [] .runTask]

/-- A report comes in when its request is cancelled. -/
def napOvertaken : List (PeersEvent Unit) :=
  napReported (.ofInt 3) ++
    [.client [] (.cancel 1 ""), .client [] .runTask, .receives 0, .client [] .runTask]

/-- The call waits when the report is made, and all that is sent to the client or posted on its
    behalf is handled. -/
theorem nap_unheard :
    (∀ progress ∈ [.ofInt 3, infinite],
      ((run (Peers.step sleeperEnv) (Peers.initial ()) (napReported progress)).bind fun x =>
        ((x.clients []).requests[1]?).map fun r => (r.onProgress, r.state)) =
          some (true, .waiting)) ∧
    ∀ events ∈ [napEndless, napOvertaken],
      Meets (Peers.step sleeperEnv) (fun x event => x.orderly event = true) (Peers.initial ())
        events ∧
      ∃ x, run (Peers.step sleeperEnv) (Peers.initial ()) events = some x ∧
        x.downlink.length = 0 ∧ (x.clients []).strand = [] ∧ (x.clients []).callbackQueue = [] ∧
        (x.clients []).calls = [] := by
  refine ⟨by decide +kernel, fun events member => ?_⟩
  have orderly : ∀ events ∈ [napEndless, napOvertaken], Meets (Peers.step sleeperEnv)
      (fun x event => x.orderly event = true) (Peers.initial ()) events := by
    decide +kernel
  have shape : ∀ events ∈ [napEndless, napOvertaken],
      (run (Peers.step sleeperEnv) (Peers.initial ()) events).map (fun x =>
        (x.downlink.length, (x.clients []).strand, (x.clients []).callbackQueue,
          (x.clients []).calls)) = some (0, [], [], []) := by
    intro events member
    obtain rfl | rfl := by simpa using member
    · decide +kernel
    · decide +kernel
  obtain ⟨x, h, seen⟩ := Option.map_eq_some_iff.mp (shape events member)
  obtain ⟨flying, seen⟩ := Prod.mk.inj seen
  obtain ⟨strand, seen⟩ := Prod.mk.inj seen
  obtain ⟨queue, calls⟩ := Prod.mk.inj seen
  exact ⟨orderly events member, x, h, flying, strand, queue, calls⟩

end CppMcp
