import Mathlib.Data.List.Induction
import CppMcp.Peers.Replies
import CppMcp.Server.Isolation

namespace CppMcp

open Lib

variable {υ : Type} {env : PeersEnv} {user : υ}

/-- The reply is what the client does of a request that the server waits for. -/
def Peers.Expects (env : PeersEnv) (Asked : Int → SessionId → String → Json → Prop) (x : Peers υ)
    (id : SessionId) (reply : Json) : Prop :=
  ∃ n p params, x.server.outboundPending.lookup n = some p ∧ p.sessionId = id ∧
    isOutboundMethod p.method ∧ Asked n id p.method params ∧
    reply = inboundResponse (.int n) (inboundResult (env.client id) p.method params.reread)

/-- What is called back is what a client did of a request of the server, and each reply is to one
    that the server waits for, as long as it takes replies. -/
structure Peers.Ringing (env : PeersEnv) (Asked : Int → SessionId → String → Json → Prop)
    (x : Peers υ) : Prop where
  silent : ∀ delivery ∈ x.server.deliveries, isResponse delivery.2 = true
  positive : 0 < x.server.nextOutboundId
  below : ∀ n p, x.server.outboundPending.lookup n = some p →
    0 < n ∧ n < x.server.nextOutboundId
  called : ∀ done ∈ x.server.completions, done.id < x.server.nextOutboundId ∧
    x.server.outboundPending.lookup done.id = none ∧
      ∃ id method params, Asked done.id id method params ∧
        done = completedAs done.id (inboundResult (env.client id) method params.reread)
  once : (x.server.completions.map CompletedRequest.id).Nodup
  expected : x.server.stopping = false → ∀ id, ∀ reply ∈ x.replies env id,
    x.Expects env Asked id reply
  distinct : x.server.stopping = false → ∀ id,
    ((x.replies env id).map fun reply => reply.find? "id").Nodup

theorem reply_id (id : RequestId) (outcome : Except Exn Json) :
    (inboundResponse id outcome).find? "id" = some (requestIdToJson id) := by
  rcases inboundResponse_cases id outcome with ⟨result, -, eq⟩ | ⟨-, code, message, data, eq⟩
  · simp [eq, makeSuccessResponse, find?_mk]
  · simp [eq, makeErrorResponse, find?_mk]

theorem number_injective {n k : Int} (fits : (RequestId.int n).Fits) (fits' : (RequestId.int k).Fits)
    (same : some (requestIdToJson (.int n)) = some (requestIdToJson (.int k))) : n = k := by
  have reads := requestId_reread fits
  rw [Option.some.inj same, requestId_reread fits'] at reads
  cases reads
  rfl

namespace Peers.Ringing

variable {x x' : Peers υ} {Asked Asked' : Int → SessionId → String → Json → Prop}

/-- Nothing is asked or called back, and requests and replies only get lost. -/
theorem recedes (inv : x.Ringing env Asked)
    (later : ∀ n id method params, Asked n id method params → Asked' n id method params)
    (silent : ∀ delivery ∈ x'.server.deliveries, isResponse delivery.2 = true)
    (next : x.server.nextOutboundId ≤ x'.server.nextOutboundId)
    (table : ∀ n p, x'.server.outboundPending.lookup n = some p →
      x.server.outboundPending.lookup n = some p)
    (kept : x'.server.stopping = false → x.server.stopping = false ∧ ∀ n p,
      x.server.outboundPending.lookup n = some p → x'.server.outboundPending.lookup n = some p)
    (completions : x'.server.completions = x.server.completions)
    (fewer : ∀ id, (x'.replies env id).Subperm (x.replies env id)) : x'.Ringing env Asked' where
  silent := silent
  positive := lt_of_lt_of_le inv.positive next
  below n p found := (inv.below n p (table n p found)).imp_right fun bound =>
    lt_of_lt_of_le bound next
  called := by
    rw [completions]
    intro done member
    obtain ⟨bound, gone, id, method, params, asked, eq⟩ := inv.called done member
    refine ⟨lt_of_lt_of_le bound next, ?_, id, method, params, later _ _ _ _ asked, eq⟩
    rw [Option.eq_none_iff_forall_ne_some]
    intro p found
    rw [table _ p found] at gone
    cases gone
  once := by
    rw [completions]
    exact inv.once
  expected working id reply member := by
    obtain ⟨n, p, params, found, session, method, asked, eq⟩ :=
      inv.expected (kept working).1 id reply ((fewer id).subset member)
    exact ⟨n, p, params, (kept working).2 n p found, session, method, later _ _ _ _ asked, eq⟩
  distinct working id := by
    obtain ⟨some, perm, sublist⟩ := fewer id
    exact (perm.map _).nodup_iff.mp ((inv.distinct (kept working).1 id).sublist (sublist.map _))

/-- The server asks a client under a number of its own. -/
theorem asks (inv : x.Ringing env Asked)
    (later : ∀ n id method params, Asked n id method params → Asked' n id method params)
    (silent : ∀ delivery ∈ x'.server.deliveries, isResponse delivery.2 = true)
    {p : OutboundPending υ} {params : Json} (method : isOutboundMethod p.method)
    (asked : Asked' x.server.nextOutboundId p.sessionId p.method params)
    (small : x'.server.nextOutboundId ≤ 2 ^ 63)
    (dialled : x'.server.dialled = (x.server.outboundPending.insert x.server.nextOutboundId p,
      x.server.nextOutboundId + 1, x.server.completions, x.server.stopping))
    (replies : ∀ id, x'.replies env id = x.replies env id ++ if p.sessionId = id then
      [inboundResponse (.int x.server.nextOutboundId)
        (inboundResult (env.client id) p.method params.reread)] else []) :
    x'.Ringing env Asked' := by
  simp only [Server.dialled, Prod.mk.injEq] at dialled
  obtain ⟨table, next, completions, stopping⟩ := dialled
  have positive := inv.positive
  have own : x'.server.outboundPending.lookup x.server.nextOutboundId = some p := by
    rw [table, AList.lookup_insert]
  have other {n : Int} (apart : n ≠ x.server.nextOutboundId) :
      x'.server.outboundPending.lookup n = x.server.outboundPending.lookup n := by
    rw [table, AList.lookup_insert_ne apart]
  constructor
  case silent => exact silent
  case positive => omega
  case below =>
    intro n q found
    by_cases same : n = x.server.nextOutboundId
    · omega
    · rw [other same] at found
      have bound := inv.below n q found
      omega
  case called =>
    rw [completions]
    intro done member
    obtain ⟨bound, gone, id, method, params, asked, eq⟩ := inv.called done member
    refine ⟨by omega, ?_, id, method, params, later _ _ _ _ asked, eq⟩
    rw [other (by omega), gone]
  case once =>
    rw [completions]
    exact inv.once
  case expected =>
    intro working id reply member
    rw [replies] at member
    rcases List.mem_append.mp member with old | new
    · obtain ⟨n, q, params, found, session, method, asked, eq⟩ :=
        inv.expected (stopping ▸ working) id reply old
      have bound := inv.below n q found
      refine ⟨n, q, params, ?_, session, method, later _ _ _ _ asked, eq⟩
      rw [other (by omega), found]
    · split at new
      · rename_i session
        rw [List.mem_singleton.mp new]
        exact ⟨_, p, params, own, session, method, session ▸ asked, rfl⟩
      · cases new
  case distinct =>
    intro working id
    rw [replies, List.map_append]
    split
    · refine List.nodup_append.mpr ⟨inv.distinct (stopping ▸ working) id, by simp, ?_⟩
      rintro _ old _ new rfl
      rw [List.map_singleton, List.mem_singleton, reply_id] at new
      obtain ⟨reply, member, number⟩ := List.mem_map.mp old
      obtain ⟨n, q, params, found, -, -, -, rfl⟩ :=
        inv.expected (stopping ▸ working) id reply member
      have bound := inv.below n q found
      rw [reply_id, new] at number
      have same := number_injective ⟨by omega, by omega⟩ ⟨by omega, by omega⟩ number
      omega
    · rw [List.map_nil, List.append_nil]
      exact inv.distinct (stopping ▸ working) id

/-- A reply arrives, is called back and is not expected any more. -/
theorem hears (inv : x.Ringing env Asked)
    (silent : ∀ delivery ∈ x'.server.deliveries, isResponse delivery.2 = true)
    (working : x.server.stopping = false) {n : Int} {p : OutboundPending υ} {params : Json}
    (found : x.server.outboundPending.lookup n = some p)
    (asked : Asked n p.sessionId p.method params)
    (dialled : x'.server.dialled = (x.server.outboundPending.erase n, x.server.nextOutboundId,
      x.server.completions ++ [completedAs n
        (inboundResult (env.client p.sessionId) p.method params.reread)], x.server.stopping))
    (taken : (inboundResponse (.int n)
      (inboundResult (env.client p.sessionId) p.method params.reread) ::
        x'.replies env p.sessionId).Perm (x.replies env p.sessionId))
    (same : ∀ id, id ≠ p.sessionId → (x'.replies env id).Perm (x.replies env id)) :
    x'.Ringing env Asked := by
  simp only [Server.dialled, Prod.mk.injEq] at dialled
  obtain ⟨table, next, completions, stopping⟩ := dialled
  have bound := inv.below n p found
  have other {k : Int} (apart : k ≠ n) :
      x'.server.outboundPending.lookup k = x.server.outboundPending.lookup k := by
    rw [table, AList.lookup_erase_ne apart]
  have subset (id : SessionId) : x'.replies env id ⊆ x.replies env id := by
    by_cases own : id = p.sessionId
    · subst own
      exact fun reply member => taken.subset (List.mem_cons_of_mem _ member)
    · exact (same id own).subset
  have numbers : ((x'.replies env p.sessionId).map fun reply => reply.find? "id").Nodup ∧
      some (requestIdToJson (.int n)) ∉
        (x'.replies env p.sessionId).map fun reply => reply.find? "id" := by
    have all := (taken.map fun reply => reply.find? "id").nodup_iff.mpr
      (inv.distinct working p.sessionId)
    rw [List.map_cons, reply_id] at all
    exact (List.nodup_cons.mp all).symm
  constructor
  case silent => exact silent
  case positive => exact next ▸ inv.positive
  case below =>
    intro k q held
    rw [next]
    by_cases own : k = n
    · rw [own, table, AList.lookup_erase] at held
      cases held
    · exact inv.below k q (other own ▸ held)
  case called =>
    rw [completions]
    intro done member
    rcases List.mem_append.mp member with old | new
    · obtain ⟨below, gone, id, method, params, asked, eq⟩ := inv.called done old
      refine ⟨next ▸ below, ?_, id, method, params, asked, eq⟩
      by_cases own : done.id = n
      · rw [own, found] at gone
        cases gone
      · rw [other own, gone]
    · rw [List.mem_singleton.mp new, completedAs_id]
      exact ⟨next ▸ bound.2, by rw [table, AList.lookup_erase], p.sessionId, p.method, params, asked,
        rfl⟩
  case once =>
    rw [completions, List.map_append, List.map_singleton, completedAs_id]
    refine List.nodup_append.mpr ⟨inv.once, by simp, ?_⟩
    rintro _ old _ new rfl
    obtain ⟨done, member, number⟩ := List.mem_map.mp old
    obtain ⟨-, gone, -⟩ := inv.called done member
    rw [number, List.mem_singleton.mp new, found] at gone
    cases gone
  case expected =>
    intro _ id reply member
    obtain ⟨k, q, params', held, session, method, asked', eq⟩ :=
      inv.expected working id reply (subset id member)
    refine ⟨k, q, params', ?_, session, method, asked', eq⟩
    by_cases own : k = n
    · subst own
      obtain rfl := Option.some.inj (found.symm.trans held)
      subst session
      exact absurd (List.mem_map.mpr ⟨reply, member, eq ▸ reply_id _ _⟩) numbers.2
    · rw [other own, held]
  case distinct =>
    intro _ id
    by_cases own : id = p.sessionId
    · exact own ▸ numbers.1
    · exact ((same id own).map _).nodup_iff.mpr (inv.distinct working id)

end Peers.Ringing

theorem replyOf_some {id peer : SessionId} {m : Json} (response : isResponse m = true) :
    replyOf id (peer, m) = if peer = id then some m else none := by
  simp [replyOf, response]

theorem replyOf_none {id peer : SessionId} {m : Json} (other : isResponse m = false) :
    replyOf id (peer, m) = none := by
  simp [replyOf, other]

/-- A response that the server takes is to a request it waits for, and is called back. -/
theorem reply_taken {x : Peers υ} {Asked : Int → SessionId → String → Json → Prop} {place : Nat}
    {peer : SessionId} {m : Json} (inv : x.Ringing env Asked)
    (taken : x.uplink[place]? = some (peer, m)) (working : x.server.stopping = false)
    (small : x.server.nextOutboundId ≤ 2 ^ 63) (response : isResponse m = true) :
    ∃ n p params, x.server.outboundPending.lookup n = some p ∧ p.sessionId = peer ∧
      Asked n p.sessionId p.method params ∧
      m = inboundResponse (.int n) (inboundResult (env.client p.sessionId) p.method params.reread) ∧
      (x.server.onMessage env.info m.reread peer false).dialled = (x.server.outboundPending.erase n,
        x.server.nextOutboundId, x.server.completions ++ [completedAs n
          (inboundResult (env.client p.sessionId) p.method params.reread)], x.server.stopping) := by
  have mine := @handle_replies υ env x place peer m taken peer
  rw [replyOf_some response, if_pos rfl] at mine
  obtain ⟨n, p, params, found, rfl, method, asked, rfl⟩ :=
    inv.expected working peer m (mine.subset List.mem_cons_self)
  have bound := inv.below n p found
  have reads := @reply_read n ⟨by omega, by omega⟩
    (inboundResult (env.client p.sessionId) p.method params.reread)
  have dialled := onMessage_completes env.info found reads p.sessionId false
  rw [completedAs_eta] at dialled
  exact ⟨n, p, params, found, rfl, asked, rfl, dialled⟩

theorem handle_ringing {x : Peers υ} {Asked : Int → SessionId → String → Json → Prop} {place : Nat}
    {peer : SessionId} {m : Json} (inv : x.Ringing env Asked) (traced : x.Traced env user)
    (taken : x.uplink[place]? = some (peer, m)) (working : x.server.stopping = false)
    (small : x.server.nextOutboundId ≤ 2 ^ 63) :
    ({ x with uplink := x.uplink.eraseIdx place }.handle env peer m).Ringing env Asked := by
  have silent := onMessage_responds env.info x.server m.reread peer
  have fewer := fun id => @handle_replies υ env x place peer m taken id
  cases response : isResponse m with
  | true =>
    obtain ⟨n, p, params, found, rfl, asked, rfl, dialled⟩ :=
      reply_taken inv taken working small response
    have mine := fewer p.sessionId
    rw [replyOf_some response, if_pos rfl] at mine
    refine inv.hears (silent.1 ▸ inv.silent) working found asked dialled mine fun id other => ?_
    have theirs := fewer id
    rwa [replyOf_some response, if_neg (Ne.symm other)] at theirs
  | false =>
    have said := traced.sound.uplink peer m (List.mem_of_getElem? taken)
    have reads := said_reads (traced.sound.enrolled peer) said response
    have dialled := onMessage_rests env.info x.server reads peer false
    simp only [Server.dialled, Prod.mk.injEq] at dialled
    obtain ⟨table, next, completions, stopping⟩ := dialled
    refine inv.recedes (fun _ _ _ _ asked => asked) (silent.1 ▸ inv.silent) next.ge
      (fun n p found => table ▸ found) (fun _ => ⟨working, fun n p found => table.symm ▸ found⟩)
      completions fun id => ?_
    have theirs := fewer id
    rw [replyOf_none response] at theirs
    exact theirs.subperm

/-- What the server asks prompts one reply, of the client that it asks. -/
theorem prompted_reply {n : Int} (fits : (RequestId.int n).Fits) {p : OutboundPending υ}
    {params : Json} (method : isOutboundMethod p.method) (keyed : params.isObject = true)
    (id : SessionId) :
    ([serializeRequest ⟨.int n, p.method, some params⟩].map fun m => (p.sessionId, m)).filterMap
      (promptOf env id) = if p.sessionId = id then
        [inboundResponse (.int n) (inboundResult (env.client id) p.method params.reread)] else [] := by
  by_cases own : p.sessionId = id
  · simp [promptOf, own, asked_inbound fits p.method keyed, inboundAnswer_outbound _ _ _ method]
  · simp [promptOf, own]

theorem serve_ringing {x : Peers υ} {Asked Asked' : Int → SessionId → String → Json → Prop}
    {event : ServerEvent υ} {s : Server υ} (inv : x.Ringing env Asked)
    (later : ∀ n id method params, Asked n id method params → Asked' n id method params)
    (other : ∀ message sessionId batch, event ≠ .arrives message sessionId batch)
    (stepped : x.server.step env.info event = some s)
    (asks : ∀ method params, x.server.asked s event =
      [serializeRequest ⟨.int x.server.nextOutboundId, method, some params⟩] →
        Asked' x.server.nextOutboundId event.sessionId method params)
    (small : s.nextOutboundId ≤ 2 ^ 63) : (x.serve event s).Ringing env Asked' := by
  have silent := (step_responds inv.silent other stepped).1
  have replies := fun id => @serve_replies υ env x event s inv.silent other stepped id
  have fewer (quiet : x.server.asked s event = []) (id : SessionId) :
      ((x.serve event s).replies env id).Subperm (x.replies env id) := by
    rw [replies, quiet, List.map_nil, List.filterMap_nil, List.append_nil]
  have positive := inv.positive
  cases step_dials env.info other stepped with
  | asks p params session method keyed asked dialled =>
    refine inv.asks later silent method (session ▸ asks _ _ asked) small dialled fun id => ?_
    simp only [Server.dialled, Prod.mk.injEq] at dialled
    have fits : (RequestId.int x.server.nextOutboundId).Fits := ⟨by omega, by omega⟩
    rw [replies, asked, ← session, prompted_reply fits method keyed]
  | fails p quiet dialled =>
    simp only [Server.dialled, Prod.mk.injEq] at dialled
    obtain ⟨table, next, completions, stopping⟩ := dialled
    have same (n : Int) (apart : n ≠ x.server.nextOutboundId) :
        s.outboundPending.lookup n = x.server.outboundPending.lookup n := by
      rw [table, AList.lookup_erase_ne apart, AList.lookup_insert_ne apart]
    refine inv.recedes later silent (by show _ ≤ s.nextOutboundId; omega) (fun n q found => ?_)
      (fun working => ⟨stopping ▸ working, fun n q found => ?_⟩) completions (fewer quiet)
    · by_cases own : n = x.server.nextOutboundId
      · have gone : s.outboundPending.lookup n = none := by rw [own, table, AList.lookup_erase]
        exact absurd (gone.symm.trans found) (by simp)
      · exact same n own ▸ found
    · have bound := inv.below n q found
      exact (same n (by omega)).trans found
  | stops quiet dialled =>
    simp only [Server.dialled, Prod.mk.injEq] at dialled
    obtain ⟨table, next, completions, stopping⟩ := dialled
    refine inv.recedes later silent next.ge (fun n q found => ?_) (fun working => ?_) completions
      (fewer quiet)
    · have gone : s.outboundPending.lookup n = none := by rw [table]; rfl
      exact absurd (gone.symm.trans found) (by simp)
    · exact absurd (stopping.symm.trans working) (by simp)
  | rests quiet dialled =>
    simp only [Server.dialled, Prod.mk.injEq] at dialled
    obtain ⟨table, next, completions, stopping⟩ := dialled
    exact inv.recedes later silent next.ge (fun n q found => table ▸ found)
      (fun working => ⟨stopping ▸ working, fun n q found => table.symm ▸ found⟩) completions
      (fewer quiet)

theorem handles_working {x x' : Peers υ} {place : Nat} (h : x.step env (.handles place) = some x') :
    x.server.stopping = false := by
  cases peers_step_cases h with
  | handles _ _ _ _ working => exact working

theorem receives_cases {x x' : Peers υ} {place : Nat} (h : x.step env (.receives place) = some x') :
    ∃ id m, x.downlink[place]? = some (id, m) ∧
      x' = { x with downlink := x.downlink.eraseIdx place }.deliver id m := by
  simp only [Peers.step] at h
  split at h
  · rename_i id m found
    exact ⟨id, m, found, (Option.some.inj h).symm⟩
  · cases h

theorem reportProgress_notifies (ctx : RequestContext) (s : Server υ) (progress : Double)
    (total : Option Double) (sending : Sending) (sent : sending ∈ ctx.reportProgress s progress total) :
    ∃ notif, sending.routed.2 = serializeNotification notif := by
  unfold RequestContext.reportProgress Server.notifyProgress Server.sendNotification at sent
  split at sent
  · cases sent
  · dsimp only at sent
    split at sent
    all_goals
      rw [List.mem_singleton.mp sent]
      exact ⟨_, rfl⟩

/-- The numbers of the server's requests only grow. -/
theorem peers_next {x x' : Peers υ} {event : PeersEvent υ} (h : x.step env event = some x') :
    x.server.nextOutboundId ≤ x'.server.nextOutboundId := by
  cases event with
  | handles place =>
    obtain ⟨id, m, taken, rfl⟩ := handles_cases h
    refine Int.le_of_eq (Eq.symm ?_)
    show (x.server.onMessage env.info m.reread id false).nextOutboundId = _
    rcases onMessage_outbound env.info x.server m.reread id false with
      ⟨n, p, ok, payload, -, -, -, -, next⟩ | ⟨-, same⟩
    · exact next
    · exact same.nextOutboundId
  | serves event =>
    cases peers_step_cases h with
    | serves _ s other stepped =>
      show _ ≤ s.nextOutboundId
      cases step_dials env.info other stepped with
      | asks _ _ _ _ _ _ dialled | fails _ _ dialled | stops _ dialled | rests _ dialled =>
        simp only [Server.dialled, Prod.mk.injEq] at dialled
        omega
  | client | notifies | reports | receives =>
    cases peers_step_cases h
    exact le_refl _

/-- One step of the peers. What the server newly asks is recorded. -/
theorem step_ringing {x x' : Peers υ} {Asked Asked' : Int → SessionId → String → Json → Prop}
    {event : PeersEvent υ} (inv : x.Ringing env Asked) (traced : x.Traced env user)
    (later : ∀ n id method params, Asked n id method params → Asked' n id method params)
    (asks : ∀ e s method params, event = .serves e → x.server.step env.info e = some s →
      x.server.asked s e =
        [serializeRequest ⟨.int x.server.nextOutboundId, method, some params⟩] →
          Asked' x.server.nextOutboundId e.sessionId method params)
    (orderly : x.orderly event = true) (h : x.step env event = some x')
    (small : x.server.nextOutboundId ≤ 2 ^ 63) (grown : x'.server.nextOutboundId ≤ 2 ^ 63) :
    x'.Ringing env Asked' := by
  have aside {y : Peers υ} (server : y.server = x.server)
      (fewer : ∀ id, (y.replies env id).Subperm (x.replies env id)) : y.Ringing env Asked' := by
    refine inv.recedes later (server ▸ inv.silent) (server ▸ le_refl _)
      (fun n p found => server ▸ found) (fun working => ⟨server ▸ working, fun n p found => ?_⟩)
      (server ▸ rfl) fewer
    exact server.symm ▸ found
  have quiet {y : Peers υ} {news : List (SessionId × Json)} (server : y.server = x.server)
      (clients : y.clients = x.clients) (uplink : y.uplink = x.uplink)
      (downlink : y.downlink = x.downlink ++ news) (mute : ∀ message ∈ news, Mute message.2) :
      y.Ringing env Asked' := by
    refine aside server fun id => ?_
    rw [replies_mute clients uplink downlink mute]
  cases event with
  | client id move =>
    cases peers_step_cases h with
    | client _ _ c own stepped =>
      exact aside rfl (after_replies (traced.protocol id) (orderly_apart orderly) own stepped)
  | handles place =>
    obtain ⟨id, m, taken, rfl⟩ := handles_cases h
    have heard := handle_ringing inv traced taken (handles_working h) small
    exact heard.recedes later heard.silent (le_refl _) (fun n p found => found)
      (fun working => ⟨working, fun n p found => found⟩) rfl fun id => .refl _
  | serves event =>
    cases peers_step_cases h with
    | serves _ s other stepped =>
      exact serve_ringing inv later other stepped
        (fun method params asked => asks event s method params rfl stepped asked) grown
  | notifies id notif =>
    cases peers_step_cases h
    have mute : ∀ message ∈ [(id, serializeNotification notif)], Mute message.2 := by
      intro message member
      rw [List.mem_singleton.mp member]
      exact notification_mute notif
    exact quiet rfl rfl rfl rfl mute
  | reports sink progress total =>
    cases peers_step_cases h with
    | reports _ _ _ ctx given =>
      have mute : ∀ message ∈ (ctx.reportProgress x.server progress total).map Sending.routed,
          Mute message.2 := by
        intro message member
        obtain ⟨sending, sent, rfl⟩ := List.mem_map.mp member
        obtain ⟨notif, same⟩ := reportProgress_notifies ctx x.server progress total sending sent
        rw [same]
        exact notification_mute notif
      exact quiet rfl rfl rfl rfl mute
  | receives place =>
    obtain ⟨peer, message, taken, rfl⟩ := receives_cases h
    exact aside rfl fun id => (receives_replies taken id).subperm

/-- Behind these steps of the run the server asks the peer this under the number. -/
def Peers.Rang (env : PeersEnv) (user : υ) (events front : List (PeersEvent υ)) (n : Int)
    (id : SessionId) (method : String) (params : Json) : Prop :=
  ∃ t e s, Peers.At env user events front t (.serves e) ∧ t.server.step env.info e = some s ∧
    t.server.nextOutboundId = n ∧ e.sessionId = id ∧
    t.server.asked s e = [serializeRequest ⟨.int n, method, some params⟩]

theorem run_ringing {events : List (PeersEvent υ)} {x : Peers υ}
    (orderly : Peers.Orderly env user events)
    (h : run (Peers.step env) (Peers.initial user) events = some x)
    (small : x.server.nextOutboundId ≤ 2 ^ 63) :
    x.Ringing env fun n id method params => ∃ front,
      Peers.Rang env user events front n id method params := by
  induction events using List.reverseRecOn generalizing x with
  | nil =>
    cases h
    constructor <;> simp [Peers.initial, Server.initial, Peers.replies, Client.owed, Client.initial]
  | append_singleton front e ih =>
    obtain ⟨before, along⟩ := orderly.split
    obtain ⟨t, reached, last⟩ := run_split h
    obtain ⟨next, stepped, tail⟩ := run_cons_eq last
    cases tail
    have mono := peers_next stepped
    have fewer : t.server.nextOutboundId ≤ 2 ^ 63 := le_trans mono small
    refine step_ringing (ih before reached fewer) (run_traced before reached) ?_ ?_
      (along t reached).1 stepped fewer small
    · rintro n id method params ⟨first, t', e', s, ⟨⟨back, rfl⟩, at'⟩, rest⟩
      exact ⟨first, t', e', s, ⟨⟨back ++ [e], by simp⟩, at'⟩, rest⟩
    · rintro e' s method params rfl serves asked
      exact ⟨front, t, e', s, ⟨⟨[], rfl⟩, reached⟩, serves, rfl, rfl, asked⟩

/-- A number is asked under at one place of a run. -/
theorem rang_once {events front front' : List (PeersEvent υ)} {n : Int} {id id' : SessionId}
    {method method' : String} {params params' : Json}
    (rang : Peers.Rang env user events front n id method params)
    (rang' : Peers.Rang env user events front' n id' method' params') : front = front' := by
  obtain ⟨t, e, s, ⟨⟨back, rfl⟩, reached⟩, serves, number, -, asked⟩ := rang
  obtain ⟨t', e', s', ⟨⟨back', same⟩, reached'⟩, serves', number', -, asked'⟩ := rang'
  apply @run_once _ _ (Peers.step env) (fun _ _ => True) (fun _ => True)
    (fun x => n < x.server.nextOutboundId)
    (fun x event => x.server.nextOutboundId = n ∧ ∃ e s, event = .serves e ∧
      x.server.step env.info e = some s ∧ x.server.asked s e ≠ [])
    (fun _ _ _ _ _ _ => True.intro) _
    (fun _ _ _ _ _ spent h => lt_of_lt_of_le spent (peers_next h))
    (fun x event _ spent acts => absurd acts.1 (by omega)) _ _ _ _ _ _ _ _ _ True.intro
    (meets_of_forall (fun _ _ => True.intro) _) same reached
    ⟨number, e, s, rfl, serves, by simp [asked]⟩ reached'
    ⟨number', e', s', rfl, serves', by simp [asked']⟩
  rintro x event x' - - ⟨number, e, s, rfl, serves, asked⟩ h
  cases peers_step_cases h with
  | serves _ s₁ other stepped =>
    obtain rfl := Option.some.inj (serves.symm.trans stepped)
    show n < s.nextOutboundId
    cases step_dials env.info other stepped with
    | asks _ _ _ _ _ _ dialled =>
      simp only [Server.dialled, Prod.mk.injEq] at dialled
      omega
    | fails _ quiet | stops quiet | rests quiet => exact absurd quiet asked

/-- In every run what the server calls back for a request of its own is what the client it asked
    did of that request, once for a request, and every response that it takes is called back. -/
theorem requests_called_back_once (env : PeersEnv) (user : υ) (events : List (PeersEvent υ))
    (x : Peers υ) (orderly : Peers.Orderly env user events)
    (h : run (Peers.step env) (Peers.initial user) events = some x)
    (small : x.server.nextOutboundId ≤ 2 ^ 63) :
    (x.server.completions.map CompletedRequest.id).Nodup ∧
    (∀ done ∈ x.server.completions, ∃ front id method params,
      Peers.Rang env user events front done.id id method params ∧
      (∀ front' id' method' params',
        Peers.Rang env user events front' done.id id' method' params' → front' = front) ∧
      done = completedAs done.id (inboundResult (env.client id) method params.reread)) ∧
    ∀ front t place id m, Peers.At env user events front t (.handles place) →
      t.uplink[place]? = some (id, m) → isResponse m = true → ∃ t' earlier n method params,
        t.step env (.handles place) = some t' ∧
        Peers.Rang env user front earlier n id method params ∧
        t'.server.completions = t.server.completions ++
          [completedAs n (inboundResult (env.client id) method params.reread)] := by
  have inv := run_ringing orderly h small
  refine ⟨inv.once, fun done member => ?_, ?_⟩
  · obtain ⟨-, -, id, method, params, ⟨front, rang⟩, eq⟩ := inv.called done member
    exact ⟨front, id, method, params, rang, fun _ _ _ _ rang' => rang_once rang' rang, eq⟩
  · rintro front t place id m ⟨⟨back, rfl⟩, reached⟩ taken response
    obtain ⟨t₀, reached₀, onward⟩ := run_split h
    obtain rfl := Option.some.inj (reached.symm.trans reached₀)
    obtain ⟨t', stepped, rest⟩ := run_cons_eq onward
    have grown : t.server.nextOutboundId ≤ x.server.nextOutboundId :=
      @run_keeps _ _ _ (fun y => t.server.nextOutboundId ≤ y.server.nextOutboundId)
        (fun _ _ _ bound stepped => le_trans bound (peers_next stepped)) _ _ _ (le_refl _) onward
    have waits := run_ringing orderly.split.1 reached (le_trans grown small)
    obtain ⟨n, p, params, -, rfl, ⟨earlier, rang⟩, -, dialled⟩ :=
      reply_taken waits taken (handles_working stepped) (le_trans grown small) response
    obtain ⟨id, message, taken', rfl⟩ := handles_cases stepped
    obtain ⟨rfl, rfl⟩ := Prod.mk.inj (Option.some.inj (taken.symm.trans taken'))
    exact ⟨_, earlier, n, p.method, params, stepped, rang, congrArg (·.2.2.1) dialled⟩

def rootsEnv : PeersEnv := { client := fun _ => { roots := some fun _ => .ok ⟨[]⟩ } }

/-- The server asks for the roots, and the client's handler has none. -/
def rootsRung : List (PeersEvent Unit) :=
  [.serves (.runs true), .serves (.requestsRoots {} [] true), .receives 0, .client [] .runTask,
    .client [] .runTask, .handles 0]

theorem roots_called_back_once : ∃ x,
    run (Peers.step rootsEnv) (Peers.initial ()) rootsRung = some x ∧
    x.server.completions = [⟨1, true, .mk [("roots", .array [])]⟩] ∧
    ∃ front id method params, Peers.Rang rootsEnv () rootsRung front 1 id method params ∧
      (⟨1, true, .mk [("roots", .array [])]⟩ : CompletedRequest) =
        completedAs 1 (inboundResult (rootsEnv.client id) method params.reread) := by
  have shape : (run (Peers.step rootsEnv) (Peers.initial ()) rootsRung).map (fun x =>
      (x.server.completions, x.server.nextOutboundId)) =
        some ([⟨1, true, .mk [("roots", .array [])]⟩], 2) := by
    decide +kernel
  have orderly : Peers.Orderly rootsEnv () rootsRung := by
    decide +kernel
  obtain ⟨x, h, same⟩ := Option.map_eq_some_iff.mp shape
  obtain ⟨completions, next⟩ := Prod.mk.inj same
  obtain ⟨-, called, -⟩ := requests_called_back_once rootsEnv () rootsRung x orderly h (by omega)
  obtain ⟨front, id, method, params, rang, -, eq⟩ :=
    called ⟨1, true, .mk [("roots", .array [])]⟩ (completions ▸ List.mem_singleton.mpr rfl)
  exact ⟨x, h, completions, front, id, method, params, rang, eq⟩

end CppMcp
