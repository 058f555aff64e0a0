import CppMcp.Lib.Table
import CppMcp.Server.Subscriptions

namespace CppMcp

open Lib

variable {υ : Type}

/-- What a server hands its transport: a message for all sessions, or for one. -/
inductive Sending where
  | message (message : Json)
  | toSession (id : SessionId) (message : Json)
deriving DecidableEq

def Server.sendNotification (s : Server υ) (method : String) (params : Json)
    (sessionId : SessionId) : List Sending :=
  if !s.transport || s.stopping then []
  else
    let notif := serializeNotification ⟨method, if params.isNull then none else some params⟩
    if sessionId.isEmpty then [.message notif] else [.toSession sessionId notif]

def updatedParams (uri : String) : Json := .mk [("uri", .string uri)]

def Server.updateTargets (s : Server υ) (uri : String) : List SessionId :=
  (s.subscribedResources.entries.filter fun entry => uri ∈ entry.2).map Sigma.fst

/-- `notify_resources_updated`, with its targets in any order. -/
def Server.notifyResourcesUpdated (s : Server υ) (uri : String) : List Sending :=
  let targets := s.updateTargets uri
  if targets.isEmpty then
    s.sendNotification Protocol.notifResourcesUpdated (updatedParams uri) []
  else targets.flatMap fun id =>
    s.sendNotification Protocol.notifResourcesUpdated (updatedParams uri) id

def updateOf (uri : String) : Json :=
  serializeNotification ⟨Protocol.notifResourcesUpdated, some (updatedParams uri)⟩

def Sending.Brings (sending : Sending) (notif : Json) (id : SessionId) : Prop :=
  sending = .message notif ∨ sending = .toSession id notif

instance (sending : Sending) (notif : Json) (id : SessionId) :
    Decidable (sending.Brings notif id) := inferInstanceAs (Decidable (_ ∨ _))

def arrivalSessions (events : List (ServerEvent υ)) : List SessionId :=
  events.filterMap fun event =>
    match event with
    | .arrives _ sessionId _ => some sessionId
    | _ => none

def EverSubscribed (history : List Subscription) : Prop := ∃ key, (key, true) ∈ history

/-- Its latest subscription to the URI is not taken back. -/
def SubscribedTo (history : List Subscription) (uri : String) (id : SessionId) : Prop :=
  latest history (id, uri) = some true

instance (history : List Subscription) (uri : String) (id : SessionId) :
    Decidable (SubscribedTo history uri id) := inferInstanceAs (Decidable (_ = _))

/-- The notification reaches the subscribers among the sessions once each and no other session,
    or everybody where nobody has ever subscribed. -/
def ReachesSubscribers (history : List Subscription) (sessions : List SessionId) (uri : String)
    (sendings : List Sending) : Prop :=
  (EverSubscribed history → ∀ id ∈ sessions,
    (sendings.countP fun sending => sending.Brings (updateOf uri) id) =
      if SubscribedTo history uri id then 1 else 0) ∧
  (¬ EverSubscribed history → sendings = [.message (updateOf uri)])

/-- The table says who is subscribed. -/
structure Server.Tracks (s : Server υ) (history : List Subscription) : Prop where
  transport : s.transport = true
  listed : ∀ id uri, uri ∈ (s.subscribedResources.lookup id).getD [] ↔ SubscribedTo history uri id
  nodup : ∀ id uris, s.subscribedResources.lookup id = some uris → uris.Nodup

theorem tracks_initial (user : υ) : (Server.initial user).Tracks [] where
  transport := rfl
  listed id uri := by simp [Server.initial, SubscribedTo]
  nodup id uris found := by simp [Server.initial] at found

namespace Server.Tracks

variable {s : Server υ} {history : List Subscription}

theorem congr {s' : Server υ} (tracks : s.Tracks history) (transport : s'.transport = s.transport)
    (subscribed : s'.subscribedResources = s.subscribedResources) : s'.Tracks history where
  transport := transport.trans tracks.transport
  listed := by
    rw [subscribed]
    exact tracks.listed
  nodup := by
    rw [subscribed]
    exact tracks.nodup

theorem update (tracks : s.Tracks history) (s' : Server υ) (transport : s'.transport = s.transport)
    {id : SessionId} {uri : String} {subscribes : Bool}
    (own : uri ∈ (s'.subscribedResources.lookup id).getD [] ↔ subscribes = true)
    (others : ∀ id' uri', (id, uri) ≠ (id', uri') →
      (uri' ∈ (s'.subscribedResources.lookup id').getD [] ↔
        uri' ∈ (s.subscribedResources.lookup id').getD []))
    (nodup : ∀ id' uris, s'.subscribedResources.lookup id' = some uris → uris.Nodup) :
    s'.Tracks (history ++ [((id, uri), subscribes)]) where
  transport := transport.trans tracks.transport
  listed id' uri' := by
    unfold SubscribedTo
    rw [latest_append]
    by_cases same : (id, uri) = (id', uri')
    · cases same
      rw [if_pos rfl, Option.some.injEq]
      exact own
    · rw [if_neg same, others id' uri' same]
      exact tracks.listed id' uri'
  nodup := nodup

theorem insert (tracks : s.Tracks history) {id : SessionId} {uri : String} {subscribes : Bool}
    {uris : List String} (nodup : uris.Nodup) (own : uri ∈ uris ↔ subscribes = true)
    (others : ∀ other, other ≠ uri →
      (other ∈ uris ↔ other ∈ (s.subscribedResources.lookup id).getD [])) :
    Server.Tracks { s with subscribedResources := s.subscribedResources.insert id uris }
      (history ++ [((id, uri), subscribes)]) := by
  let s' : Server υ := { s with subscribedResources := s.subscribedResources.insert id uris }
  refine tracks.update s' rfl ?_ (fun id' uri' differ => ?_) fun id' uris' found => ?_
  · rw [AList.lookup_insert]
    exact own
  · by_cases session : id' = id
    · subst session
      rw [AList.lookup_insert, Option.getD_some]
      exact others uri' fun same => differ (same ▸ rfl)
    · rw [AList.lookup_insert_ne session]
  · rcases lookup_insert_cases found with ⟨-, rfl⟩ | ⟨-, old⟩
    · exact nodup
    · exact tracks.nodup id' uris' old

theorem withSubscription (tracks : s.Tracks history) (subscription : Subscription) :
    (s.withSubscription subscription).Tracks (history ++ [subscription]) := by
  obtain ⟨⟨id, uri⟩, subscribes⟩ := subscription
  cases subscribes with
  | true =>
    have nodup : ((s.subscribedResources.lookup id).getD []).Nodup := by
      cases found : s.subscribedResources.lookup id with
      | none => exact List.nodup_nil
      | some uris => exact tracks.nodup id uris found
    refine tracks.insert nodup.insert ?_ fun other ne => ?_
    · simp
    · rw [List.mem_insert_iff]
      simp [ne]
  | false =>
    simp only [Server.withSubscription]
    cases found : s.subscribedResources.lookup id with
    | some uris =>
      have nodup := tracks.nodup id uris found
      refine tracks.insert (nodup.erase uri) ?_ fun other ne => ?_
      · simp [nodup.mem_erase_iff]
      · rw [found, Option.getD_some, List.mem_erase_of_ne ne]
    | none =>
      refine tracks.update s rfl ?_ (fun id' uri' differ => .rfl) tracks.nodup
      simp [found]

end Server.Tracks

variable (info : ServerInfo)

theorem processRequest_tracks {s : Server υ} {history : List Subscription}
    (tracks : s.Tracks history) (req : JsonRpcRequest) (sessionId : SessionId) :
    (processRequest info req sessionId s).2.Tracks
      (history ++ (info.subscription s req sessionId).toList) := by
  have processed := processRequest_processed info req sessionId s
  generalize (processRequest info req sessionId s).2 = after at processed ⊢
  cases processed with
  | greets hello user listCache greeting none =>
    rw [none, Option.toList_none, List.append_nil]
    exact tracks.congr rfl rfl
  | subscribes made =>
    rw [made]
    exact tracks.withSubscription _
  | confined none confined =>
    obtain ⟨user, listCache, same⟩ := confined
    rw [none, same, Option.toList_none, List.append_nil]
    exact tracks.congr rfl rfl

theorem subscribed_other (s : Server υ) {message : Json}
    (other : ∀ req, parseMessage message ≠ .request req) (sessionId : SessionId) (batch : Bool) :
    info.subscribed s (.arrives message sessionId batch) = none := by
  dsimp only [ServerInfo.subscribed]
  split
  · rename_i req parsed
    exact absurd parsed (other req)
  · rfl

theorem step_tracks {s s' : Server υ} {history : List Subscription} (tracks : s.Tracks history)
    (deferrable : s.JobsDeferrable) {event : ServerEvent υ} (h : s.step info event = some s') :
    s'.Tracks (history ++ (info.subscribed s event).toList) := by
  have kept (none : info.subscribed s event = none) (transport : s'.transport = s.transport)
      (subscribed : s'.subscribedResources = s.subscribedResources) :
      s'.Tracks (history ++ (info.subscribed s event).toList) := by
    rw [none, Option.toList_none, List.append_nil]
    exact tracks.congr transport subscribed
  cases step_turns info h with
  | @serves message sessionId batch req parsed =>
    have arrived : (s.arrived message).Tracks history := tracks.congr rfl rfl
    have processed := processRequest_tracks info arrived req sessionId
    simp only [ServerInfo.subscribed, parsed]
    exact processed.congr rfl rfl
  | defers parsed later =>
    obtain ⟨-, subscribe, unsubscribe⟩ := deferrable_serves later
    apply kept
    · simp only [ServerInfo.subscribed, parsed]
      exact subscription_none info subscribe unsubscribe _ s
    · rfl
    · rfl
  | @works place job found =>
    let left : Server υ := { s with jobs := s.jobs.eraseIdx place }
    obtain ⟨user, listCache, same⟩ := deferred_confined info
      (deferrable job (List.mem_of_getElem? found)) job.sessionId left
    apply kept rfl
    · simp only [Server.runJob]
      rw [same]
    · simp only [Server.runJob]
      rw [same]
  | delivers found => exact kept rfl rfl rfl
  | registers registry | starts | stops => exact kept rfl rfl rfl
  | fails aside => exact kept rfl aside.transport aside.subscribedResources
  | hears other aside =>
    exact kept (subscribed_other info s other _ _) aside.transport aside.subscribedResources
  | refuses other response => exact kept (subscribed_other info s other _ _) rfl rfl
  | aside quiet aside =>
    apply kept _ aside.transport aside.subscribedResources
    cases event with
    | arrives message sessionId batch => cases quiet
    | _ => rfl

theorem run_tracks {s s' : Server υ} {history : List Subscription} (tracks : s.Tracks history)
    (deferrable : s.JobsDeferrable) {events : List (ServerEvent υ)}
    (h : run (Server.step info) s events = some s') :
    s'.Tracks (history ++ info.subscriptions s events) := by
  induction events generalizing s history with
  | nil =>
    cases h
    rw [ServerInfo.subscriptions, List.append_nil]
    exact tracks
  | cons event rest ih =>
    obtain ⟨next, stepped, h⟩ := run_cons_eq h
    have after := ih (step_tracks info tracks deferrable stepped)
      (step_jobs info deferrable stepped) h
    rw [List.append_assoc] at after
    simp only [ServerInfo.subscriptions, stepped]
    exact after

theorem subscriptions_arrived {s : Server υ} {events : List (ServerEvent υ)}
    {subscription : Subscription} (made : subscription ∈ info.subscriptions s events) :
    subscription.1.1 ∈ arrivalSessions events := by
  induction events generalizing s with
  | nil => cases made
  | cons event rest ih =>
    simp only [ServerInfo.subscriptions] at made
    rcases List.mem_append.mp made with now | later
    · cases event with
      | arrives message sessionId batch =>
        have own : subscription.1.1 = sessionId := by
          simp only [ServerInfo.subscribed, ServerInfo.subscription, Option.mem_toList] at now
          split at now
          · split at now
            · split at now
              · cases now
              · split at now
                · split at now
                  · cases now
                    rfl
                  · cases now
                · split at now
                  · cases now
                    rfl
                  · cases now
            · cases now
          · cases now
        rw [own]
        exact List.mem_cons_self
      | _ => cases now
    · have member : subscription.1.1 ∈ arrivalSessions rest := by
        split at later
        · exact ih later
        · cases later
      simp only [arrivalSessions, List.filterMap_cons]
      split
      · exact member
      · exact List.mem_cons_of_mem _ member

namespace Server.Tracks

variable {s : Server υ} {history : List Subscription} (tracks : s.Tracks history) (uri : String)
include tracks

theorem mem_targets (id : SessionId) : id ∈ s.updateTargets uri ↔ SubscribedTo history uri id := by
  rw [← tracks.listed]
  unfold Server.updateTargets
  constructor
  · intro member
    obtain ⟨⟨key, uris⟩, entry, rfl⟩ := List.mem_map.mp member
    obtain ⟨present, holds⟩ := List.mem_filter.mp entry
    have found : s.subscribedResources.lookup key = some uris := AList.mem_lookup_iff.mpr present
    rw [found, Option.getD_some]
    exact of_decide_eq_true holds
  · intro member
    cases found : s.subscribedResources.lookup id with
    | none =>
      rw [found] at member
      cases member
    | some uris =>
      rw [found, Option.getD_some] at member
      have present := AList.mem_lookup_iff.mp found
      exact List.mem_map.mpr ⟨⟨id, uris⟩, List.mem_filter.mpr ⟨present, decide_eq_true member⟩, rfl⟩

end Server.Tracks

theorem targets_nodup (s : Server υ) (uri : String) : (s.updateTargets uri).Nodup := by
  have keys : s.subscribedResources.keys.Nodup := s.subscribedResources.keys_nodup
  exact keys.sublist ((List.filter_sublist (l := s.subscribedResources.entries)).map Sigma.fst)

/-- How a session is addressed: the one without an id through all of them. -/
def addressed (notif : Json) (id : SessionId) : Sending :=
  if id.isEmpty then .message notif else .toSession id notif

theorem addressed_brings (notif : Json) (target id : SessionId) :
    (addressed notif target).Brings notif id ↔ target = [] ∨ target = id := by
  unfold addressed Sending.Brings
  cases target with
  | nil => simp
  | cons byte rest => simp

theorem sendNotification_addressed {s : Server υ} (transport : s.transport = true)
    (working : s.stopping = false) (method : String) {params : Json} (given : params.isNull = false)
    (id : SessionId) : s.sendNotification method params id =
      [addressed (serializeNotification ⟨method, some params⟩) id] := by
  unfold Server.sendNotification addressed
  rw [transport, working, given]
  cases id <;> rfl

theorem notify_working {s : Server υ} (transport : s.transport = true)
    (working : s.stopping = false) (uri : String) : s.notifyResourcesUpdated uri =
      if s.updateTargets uri = [] then [.message (updateOf uri)]
      else (s.updateTargets uri).map (addressed (updateOf uri)) := by
  unfold Server.notifyResourcesUpdated
  have given : (updatedParams uri).isNull = false := rfl
  have sent := sendNotification_addressed transport working Protocol.notifResourcesUpdated given
  simp only [sent, List.isEmpty_iff]
  split
  · rfl
  · exact List.flatMap_pure_eq_map _ _

theorem notify_stopping {s : Server υ} (stopping : s.stopping = true) (uri : String) :
    s.notifyResourcesUpdated uri = [] := by
  have nothing (id : SessionId) :
      s.sendNotification Protocol.notifResourcesUpdated (updatedParams uri) id = [] := by
    unfold Server.sendNotification
    rw [stopping, Bool.or_true]
    rfl
  unfold Server.notifyResourcesUpdated
  simp only [nothing]
  split
  · rfl
  · exact List.flatMap_eq_nil_iff.mpr fun _ _ => rfl

/-- A session other than the one without an id hears from itself and from that one. -/
theorem countP_addressed (notif : Json) (targets : List SessionId) (id : SessionId) :
    ((targets.map (addressed notif)).countP fun sending => sending.Brings notif id) =
      targets.count id + if id = [] then 0 else targets.count [] := by
  induction targets with
  | nil => simp
  | cons target targets ih =>
    rw [List.map_cons, List.countP_cons, ih, List.count_cons, List.count_cons]
    simp only [addressed_brings, decide_eq_true_eq, beq_iff_eq]
    by_cases unnamed : id = []
    · subst unnamed
      simp only [or_self, if_true]
      omega
    · by_cases first : target = []
      · subst first
        simp only [true_or, if_true, if_neg unnamed, if_neg (Ne.symm unnamed)]
        omega
      · simp only [first, false_or, if_false, if_neg unnamed]
        omega

/-- Somebody is subscribed now, where anybody ever was, and the session without an id, to which
    a message for all sessions goes, only where it is the only one. After `stop`, when nothing
    is sent, nobody is subscribed any more. -/
def Server.RoutesUpdate (s : Server υ) (history : List Subscription) (sessions : List SessionId)
    (uri : String) : Prop :=
  if s.stopping then EverSubscribed history ∧ ∀ id ∈ sessions, ¬ SubscribedTo history uri id
  else EverSubscribed history → (∃ id, SubscribedTo history uri id) ∧
    (SubscribedTo history uri [] → ∀ id ∈ sessions, id = [])

theorem notify_counts {s : Server υ} {history : List Subscription} (tracks : s.Tracks history)
    (working : s.stopping = false) (uri : String) (id : SessionId) :
    ((s.notifyResourcesUpdated uri).countP fun sending => sending.Brings (updateOf uri) id) =
      if s.updateTargets uri = [] then 1
      else (if SubscribedTo history uri id then 1 else 0) +
        if id ≠ [] ∧ SubscribedTo history uri [] then 1 else 0 := by
  rw [notify_working tracks.transport working]
  split
  · simp [Sending.Brings]
  · have counts (id : SessionId) : (s.updateTargets uri).count id =
        if SubscribedTo history uri id then 1 else 0 := by
      rw [(targets_nodup s uri).count]
      simp only [tracks.mem_targets]
    rw [countP_addressed, counts, counts]
    by_cases unnamed : id = []
    · simp [unnamed]
    · simp [unnamed]

theorem stopped_reaches_iff {s : Server υ} (stopping : s.stopping = true)
    (history : List Subscription) (sessions : List SessionId) (uri : String) :
    ReachesSubscribers history sessions uri (s.notifyResourcesUpdated uri) ↔
      EverSubscribed history ∧ ∀ id ∈ sessions, ¬ SubscribedTo history uri id := by
  unfold ReachesSubscribers
  rw [notify_stopping stopping]
  simp only [List.countP_nil]
  constructor
  · rintro ⟨reaches, broadcasts⟩
    have ever : EverSubscribed history := by
      by_contra never
      cases broadcasts never
    refine ⟨ever, fun id member subscribed => ?_⟩
    have counted := reaches ever id member
    rw [if_pos subscribed] at counted
    omega
  · rintro ⟨ever, nobody⟩
    refine ⟨fun _ id member => ?_, fun never => absurd ever never⟩
    rw [if_neg (nobody id member)]

theorem working_reaches_iff {s : Server υ} {history : List Subscription}
    (tracks : s.Tracks history) (working : s.stopping = false) {sessions : List SessionId}
    (arrived : ∀ subscription ∈ history, subscription.1.1 ∈ sessions) (uri : String) :
    ReachesSubscribers history sessions uri (s.notifyResourcesUpdated uri) ↔
      (EverSubscribed history → (∃ id, SubscribedTo history uri id) ∧
        (SubscribedTo history uri [] → ∀ id ∈ sessions, id = [])) := by
  unfold ReachesSubscribers
  simp only [notify_counts tracks working]
  have targets : s.updateTargets uri = [] ↔ ¬ ∃ id, SubscribedTo history uri id := by
    rw [List.eq_nil_iff_forall_not_mem]
    simp only [tracks.mem_targets, not_exists]
  constructor
  · rintro ⟨reaches, -⟩ ever
    have somebody : ∃ id, SubscribedTo history uri id := by
      by_contra nobody
      obtain ⟨key, made⟩ := ever
      have counted := reaches ⟨key, made⟩ key.1 (arrived _ made)
      rw [if_pos (targets.mpr nobody), if_neg fun subscribed => nobody ⟨_, subscribed⟩] at counted
      omega
    refine ⟨somebody, fun unnamed id member => ?_⟩
    by_contra named
    have overhears : id ≠ [] ∧ SubscribedTo history uri [] := ⟨named, unnamed⟩
    have counted := reaches ever id member
    rw [if_neg fun none => targets.mp none somebody, if_pos overhears] at counted
    omega
  · intro routes
    constructor
    · intro ever id member
      obtain ⟨somebody, alone⟩ := routes ever
      have hears : ¬ (id ≠ [] ∧ SubscribedTo history uri []) :=
        fun other => other.1 (alone other.2 id member)
      rw [if_neg fun none => targets.mp none somebody, if_neg hears, Nat.add_zero]
    · intro never
      have nobody : ¬ ∃ id, SubscribedTo history uri id := by
        rintro ⟨id, subscribed⟩
        exact never ⟨(id, uri), latest_mem subscribed⟩
      rw [notify_working tracks.transport working, if_pos (targets.mpr nobody)]

/-- A notification reaches exactly the subscribers where `RoutesUpdate` says so. -/
theorem updates_reach_subscribers {user : υ} {events : List (ServerEvent υ)} {s : Server υ}
    (h : run (Server.step info) (Server.initial user) events = some s) (uri : String) :
    ReachesSubscribers (info.subscriptions (Server.initial user) events) (arrivalSessions events)
      uri (s.notifyResourcesUpdated uri) ↔
    s.RoutesUpdate (info.subscriptions (Server.initial user) events) (arrivalSessions events) uri := by
  have tracks := run_tracks info (tracks_initial user) (fun job member => by cases member) h
  rw [List.nil_append] at tracks
  unfold Server.RoutesUpdate
  cases stopping : s.stopping with
  | true =>
    rw [if_pos rfl]
    exact stopped_reaches_iff stopping _ _ uri
  | false =>
    rw [if_neg Bool.false_ne_true]
    exact working_reaches_iff tracks stopping (fun _ made => subscriptions_arrived info made) uri

def subscribing : ServerInfo :=
  { capabilities := { resources := some { subscribe := some true } } }

def subscribeTo (uri : String) : JsonRpcRequest :=
  ⟨.int 2, Protocol.methodResourcesSubscribe, some (.object [("uri", .string uri)])⟩

def hello : JsonRpcRequest := ⟨.int 1, Protocol.methodInitialize, some (.object [])⟩

/-- Two sessions of which the first subscribes to one URI. -/
def subscribedSessions (uri : String) : List (ServerEvent Unit) :=
  [.arrives (serializeRequest hello) (ascii "A") false,
    .arrives (serializeNotification ⟨Protocol.notifInitialized, none⟩) (ascii "A") false,
    .arrives (serializeRequest hello) (ascii "B") false,
    .arrives (serializeRequest (subscribeTo uri)) (ascii "A") false]

theorem subscriber_hears_update : ∃ s,
    run (Server.step subscribing) (Server.initial ()) (subscribedSessions "x") = some s ∧
    ReachesSubscribers (subscribing.subscriptions (Server.initial ()) (subscribedSessions "x"))
      (arrivalSessions (subscribedSessions "x")) "x" (s.notifyResourcesUpdated "x") := by
  have outcome : (run (Server.step subscribing) (Server.initial ()) (subscribedSessions "x")).map
      (fun s => s.stopping) = some false := by decide +kernel
  have made : subscribing.subscriptions (Server.initial ()) (subscribedSessions "x") =
      [((ascii "A", "x"), true)] := by decide +kernel
  obtain ⟨s, ran, working⟩ := Option.map_eq_some_iff.mp outcome
  refine ⟨s, ran, (updates_reach_subscribers subscribing ran "x").mpr ?_⟩
  unfold Server.RoutesUpdate
  rw [working, made, if_neg Bool.false_ne_true]
  have subscribed : SubscribedTo [((ascii "A", "x"), true)] "x" (ascii "A") := by decide
  have unnamed : ¬ SubscribedTo [((ascii "A", "x"), true)] "x" [] := by decide
  exact fun _ => ⟨⟨ascii "A", subscribed⟩, fun held => absurd held unnamed⟩

theorem update_falls_back_to_broadcast : ¬ ∀ (info : ServerInfo) (events : List (ServerEvent Unit))
    (s : Server Unit) (uri : String), info.subscribes = true →
    run (Server.step info) (Server.initial ()) events = some s →
    ReachesSubscribers (info.subscriptions (Server.initial ()) events) (arrivalSessions events) uri
      (s.notifyResourcesUpdated uri) := by
  intro reaches
  have made : subscribing.subscriptions (Server.initial ()) (subscribedSessions "x") =
      [((ascii "A", "x"), true)] := by decide +kernel
  have outcome : (run (Server.step subscribing) (Server.initial ()) (subscribedSessions "x")).map
      (fun s => (s.notifyResourcesUpdated "y").countP fun sending =>
        sending.Brings (updateOf "y") (ascii "B")) = some 1 := by decide +kernel
  obtain ⟨s, ran, heard⟩ := Option.map_eq_some_iff.mp outcome
  have reached := (reaches subscribing (subscribedSessions "x") s "y" rfl ran).1
  rw [made] at reached
  have ever : EverSubscribed [((ascii "A", "x"), true)] := ⟨_, List.mem_singleton_self _⟩
  have counted := reached ever (ascii "B") (by decide)
  rw [heard] at counted
  revert counted
  decide

end CppMcp
