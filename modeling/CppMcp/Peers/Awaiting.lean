import CppMcp.Peers.Ringing

namespace CppMcp

open Lib

variable {υ : Type} {env : PeersEnv} {user : υ}

/-- A client that takes a step has its transport. -/
def Peers.attached (x : Peers υ) : PeersEvent υ → Bool
  | .client id _ => (x.clients id).transport
  | _ => true

/-- A reply to the number can still come from the client. -/
def Peers.Awaits (env : PeersEnv) (x : Peers υ) (id : SessionId) (n : Int) : Prop :=
  ∃ reply ∈ x.replies env id, reply.find? "id" = some (requestIdToJson (.int n))

/-- As long as the server runs, a number it has asked under was called back or is outstanding,
    and then the reply is to come. -/
structure Peers.Awaiting (env : PeersEnv) (Named : Int → Prop) (x : Peers υ) : Prop where
  settled : x.server.stopping = false → ∀ n, Named n →
    n ∈ x.server.completions.map CompletedRequest.id ∨
      ∃ p, x.server.outboundPending.lookup n = some p
  coming : x.server.stopping = false → ∀ n p, x.server.outboundPending.lookup n = some p →
    x.Awaits env p.sessionId n

section
variable {x x' : Peers υ} {Named Named' : Int → Prop}
  {Asked : Int → SessionId → String → Json → Prop}

theorem Peers.Awaits.subset {id : SessionId} {n : Int} (awaits : x.Awaits env id n)
    (kept : x.replies env id ⊆ x'.replies env id) : x'.Awaits env id n := by
  obtain ⟨reply, member, number⟩ := awaits
  exact ⟨reply, kept member, number⟩

theorem Peers.Awaiting.rests (inv : x.Awaiting env Named) (named : ∀ n, Named' n → Named n)
    (table : ∀ n, x'.server.outboundPending.lookup n = x.server.outboundPending.lookup n)
    (completions : x'.server.completions = x.server.completions)
    (stopping : x'.server.stopping = x.server.stopping)
    (kept : ∀ id, x.replies env id ⊆ x'.replies env id) : x'.Awaiting env Named' where
  settled working n again := by
    rw [completions, table]
    exact inv.settled (stopping ▸ working) n (named n again)
  coming working n p found :=
    (inv.coming (stopping ▸ working) n p (table n ▸ found)).subset (kept p.sessionId)

theorem handle_awaiting {place : Nat} {peer : SessionId} {m : Json} (inv : x.Awaiting env Named)
    (ringing : x.Ringing env Asked) (traced : x.Traced env user)
    (taken : x.uplink[place]? = some (peer, m)) (working : x.server.stopping = false)
    (small : x.server.nextOutboundId ≤ 2 ^ 63) :
    ({ x with uplink := x.uplink.eraseIdx place }.handle env peer m).Awaiting env Named := by
  have replies := fun id => @handle_replies υ env x place peer m taken id
  cases response : isResponse m with
  | true =>
    obtain ⟨k, q, params, found, rfl, -, eq, dialled⟩ :=
      reply_taken ringing taken working small response
    simp only [Server.dialled, Prod.mk.injEq] at dialled
    obtain ⟨table, -, completions, -⟩ := dialled
    constructor
    case settled =>
      intro _ n named
      show n ∈ (x.server.onMessage env.info m.reread q.sessionId false).completions.map _ ∨
        ∃ p, (x.server.onMessage env.info m.reread q.sessionId false).outboundPending.lookup n = some p
      rw [table, completions]
      rcases inv.settled working n named with done | ⟨p, held⟩
      · exact .inl (List.map_append ▸ List.mem_append_left _ done)
      · by_cases own : n = k
        · exact .inl (by simp [own, completedAs_id])
        · exact .inr ⟨p, (AList.lookup_erase_ne own).trans held⟩
    case coming =>
      intro _ n p held
      replace held : (x.server.outboundPending.erase k).lookup n = some p := table ▸ held
      have apart : n ≠ k := by
        rintro rfl
        rw [AList.lookup_erase] at held
        cases held
      rw [AList.lookup_erase_ne apart] at held
      obtain ⟨reply, member, number⟩ := inv.coming working n p held
      rcases List.mem_append.mp ((replies p.sessionId).symm.subset member) with gone | there
      · have same : reply = m := by
          rw [replyOf_some response] at gone
          split at gone
          · simpa using gone
          · cases gone
        have bound := ringing.below k q found
        have bound' := ringing.below n p held
        rw [same, eq, reply_id] at number
        exact absurd (number_injective ⟨by omega, by omega⟩ ⟨by omega, by omega⟩ number).symm apart
      · exact ⟨reply, there, number⟩
  | false =>
    have said := traced.sound.uplink peer m (List.mem_of_getElem? taken)
    have reads := said_reads (traced.sound.enrolled peer) said response
    have dialled := onMessage_rests env.info x.server reads peer false
    simp only [Server.dialled, Prod.mk.injEq] at dialled
    obtain ⟨table, -, completions, stopping⟩ := dialled
    refine inv.rests (fun _ named => named) (fun n => congrArg _ table) completions stopping
      fun id => ?_
    have theirs := replies id
    rw [replyOf_none response] at theirs
    exact theirs.symm.subset

theorem serve_awaiting {event : ServerEvent υ} {s : Server υ} (inv : x.Awaiting env Named)
    (ringing : x.Ringing env Asked)
    (named : ∀ n, Named' n → Named n ∨
      n = x.server.nextOutboundId ∧ x.server.asked s event ≠ [])
    (other : ∀ message sessionId batch, event ≠ .arrives message sessionId batch)
    (stepped : x.server.step env.info event = some s) (small : s.nextOutboundId ≤ 2 ^ 63) :
    (x.serve event s).Awaiting env Named' := by
  have replies := fun id => @serve_replies υ env x event s ringing.silent other stepped id
  have kept (id : SessionId) : x.replies env id ⊆ (x.serve event s).replies env id := by
    rw [replies]
    exact List.subset_append_left _ _
  have old (quiet : x.server.asked s event = []) (n : Int) (again : Named' n) : Named n :=
    (named n again).resolve_right fun new => new.2 quiet
  have positive := ringing.positive
  cases step_dials env.info other stepped with
  | asks p params session method keyed asked dialled =>
    simp only [Server.dialled, Prod.mk.injEq] at dialled
    obtain ⟨table, next, completions, stopping⟩ := dialled
    have fits : (RequestId.int x.server.nextOutboundId).Fits := ⟨by omega, by omega⟩
    constructor
    case settled =>
      intro working n again
      show n ∈ s.completions.map _ ∨ ∃ p, s.outboundPending.lookup n = some p
      rw [table, completions]
      by_cases own : n = x.server.nextOutboundId
      · exact .inr ⟨p, own ▸ AList.lookup_insert _⟩
      · rw [AList.lookup_insert_ne own]
        exact inv.settled (stopping ▸ working) n ((named n again).resolve_right fun new => own new.1)
    case coming =>
      intro working n q held
      replace held : (x.server.outboundPending.insert x.server.nextOutboundId p).lookup n = some q :=
        table ▸ held
      by_cases own : n = x.server.nextOutboundId
      · subst own
        obtain rfl := Option.some.inj ((AList.lookup_insert _).symm.trans held)
        refine ⟨inboundResponse (.int x.server.nextOutboundId)
          (inboundResult (env.client p.sessionId) p.method params.reread), ?_, reply_id _ _⟩
        rw [replies, asked, ← session, prompted_reply fits method keyed, if_pos rfl]
        exact List.mem_append_right _ (List.mem_singleton.mpr rfl)
      · rw [AList.lookup_insert_ne own] at held
        exact (inv.coming (stopping ▸ working) n q held).subset (kept q.sessionId)
  | fails p quiet dialled =>
    simp only [Server.dialled, Prod.mk.injEq] at dialled
    obtain ⟨table, -, completions, stopping⟩ := dialled
    refine inv.rests (old quiet) (fun n => ?_) completions stopping kept
    show s.outboundPending.lookup n = _
    rw [table]
    by_cases own : n = x.server.nextOutboundId
    · rw [own, AList.lookup_erase]
      refine (Option.eq_none_iff_forall_ne_some.mpr fun q found => ?_).symm
      have bound := ringing.below _ q found
      omega
    · rw [AList.lookup_erase_ne own, AList.lookup_insert_ne own]
  | stops quiet dialled =>
    simp only [Server.dialled, Prod.mk.injEq] at dialled
    obtain ⟨-, -, -, stopping⟩ := dialled
    have stopped (working : (x.serve event s).server.stopping = false) : False := by
      have same : s.stopping = false := working
      rw [stopping] at same
      cases same
    exact ⟨fun working => (stopped working).elim, fun working => (stopped working).elim⟩
  | rests quiet dialled =>
    simp only [Server.dialled, Prod.mk.injEq] at dialled
    obtain ⟨table, -, completions, stopping⟩ := dialled
    exact inv.rests (old quiet) (fun n => congrArg _ table) completions stopping kept

/-- One step of the peers. A number is new when the server asks in the step. -/
theorem step_awaiting {event : PeersEvent υ} (inv : x.Awaiting env Named)
    (ringing : x.Ringing env Asked) (traced : x.Traced env user)
    (named : ∀ n, Named' n → Named n ∨ n = x.server.nextOutboundId ∧ ∃ e s,
      event = .serves e ∧ x.server.step env.info e = some s ∧ x.server.asked s e ≠ [])
    (orderly : x.orderly event = true) (attached : x.attached event = true)
    (h : x.step env event = some x') (small : x'.server.nextOutboundId ≤ 2 ^ 63) :
    x'.Awaiting env Named' := by
  have aside {y : Peers υ} (silent : ∀ e, event ≠ .serves e) (server : y.server = x.server)
      (kept : ∀ id, x.replies env id ⊆ y.replies env id) : y.Awaiting env Named' := by
    refine inv.rests (fun n again => (named n again).resolve_right ?_) (fun n => by rw [server])
      (by rw [server]) (by rw [server]) kept
    rintro ⟨-, e, s, serves, -⟩
    exact silent e serves
  have quiet {y : Peers υ} {news : List (SessionId × Json)} (silent : ∀ e, event ≠ .serves e)
      (server : y.server = x.server) (clients : y.clients = x.clients)
      (uplink : y.uplink = x.uplink) (downlink : y.downlink = x.downlink ++ news) :
      y.Awaiting env Named' := by
    refine aside silent server fun id => ?_
    rw [replies_grow clients uplink downlink]
    exact List.subset_append_left _ _
  cases event with
  | client id move =>
    cases peers_step_cases h with
    | client _ _ c own stepped =>
      exact aside (by simp) rfl fun id' => (after_replies_there (traced.protocol id)
        (orderly_apart orderly) own stepped attached id').symm.subset
  | handles place =>
    obtain ⟨id, m, taken, rfl⟩ := handles_cases h
    have heard := handle_awaiting inv ringing traced taken (handles_working h)
      (le_trans (peers_next h) small)
    refine heard.rests (fun n again => (named n again).resolve_right ?_) (fun n => rfl) rfl rfl
      fun id reply member => member
    rintro ⟨-, e, s, serves, -⟩
    cases serves
  | serves event =>
    cases peers_step_cases h with
    | serves _ s other stepped =>
      refine serve_awaiting inv ringing (fun n again => (named n again).imp_right ?_) other stepped
        small
      rintro ⟨own, e, s', ⟨⟩, serves, asked⟩
      obtain rfl := Option.some.inj (serves.symm.trans stepped)
      exact ⟨own, asked⟩
  | notifies id notif =>
    cases peers_step_cases h
    exact quiet (by simp) rfl rfl rfl rfl
  | reports sink progress total =>
    cases peers_step_cases h with
    | reports _ _ _ ctx given => exact quiet (by simp) rfl rfl rfl rfl
  | receives place =>
    obtain ⟨peer, message, taken, rfl⟩ := receives_cases h
    exact aside (by simp) rfl fun id => (receives_replies taken id).symm.subset

end

theorem run_awaiting {events : List (PeersEvent υ)} {x : Peers υ}
    (orderly : Peers.Orderly env user events)
    (attached : Meets (Peers.step env) (fun x event => x.attached event = true)
      (Peers.initial user) events)
    (h : run (Peers.step env) (Peers.initial user) events = some x)
    (small : x.server.nextOutboundId ≤ 2 ^ 63) : x.Awaiting env fun n =>
      ∃ front id method params, Peers.Rang env user events front n id method params := by
  induction events using List.reverseRecOn generalizing x with
  | nil =>
    cases h
    constructor
    · rintro - n ⟨front, id, method, params, t, e, s, ⟨⟨back, split⟩, -⟩, -⟩
      simp at split
    · intro _ n p found
      cases found
  | append_singleton front e ih =>
    obtain ⟨before, along⟩ := orderly.split
    obtain ⟨there, staying⟩ := attached.split
    obtain ⟨t, reached, last⟩ := run_split h
    obtain ⟨next, stepped, tail⟩ := run_cons_eq last
    cases tail
    have fewer : t.server.nextOutboundId ≤ 2 ^ 63 := le_trans (peers_next stepped) small
    refine step_awaiting (ih before there reached fewer) (run_ringing before reached fewer)
      (run_traced before reached) ?_ (along t reached).1 (staying t reached).1 stepped small
    rintro n ⟨first, id, method, params, t', e', s, ⟨⟨back, split⟩, at'⟩, serves, number, own, asked⟩
    rcases List.eq_nil_or_concat' back with rfl | ⟨mid, e'', rfl⟩
    · obtain ⟨rfl, same⟩ := List.append_inj' split rfl
      cases same
      obtain rfl := Option.some.inj (reached.symm.trans at')
      exact .inr ⟨number.symm, e', s, rfl, serves, by simp [asked]⟩
    · have earlier := split.trans (List.append_assoc first (.serves e' :: mid) [e'']).symm
      obtain ⟨rfl, -⟩ := List.append_inj' earlier rfl
      exact .inl ⟨first, id, method, params, t', e', s, ⟨⟨mid, rfl⟩, at'⟩, serves, number, own, asked⟩

/-- What was asked under a number is known from the number. -/
theorem rang_same {events front front' : List (PeersEvent υ)} {n : Int} {id id' : SessionId}
    {method method' : String} {params params' : Json}
    (rang : Peers.Rang env user events front n id method params)
    (rang' : Peers.Rang env user events front' n id' method' params') :
    id' = id ∧ method' = method ∧ params' = params := by
  obtain rfl := rang_once rang rang'
  obtain ⟨t, e, s, ⟨⟨back, rfl⟩, reached⟩, serves, -, rfl, asked⟩ := rang
  obtain ⟨t', e', s', ⟨⟨back', same⟩, reached'⟩, serves', -, rfl, asked'⟩ := rang'
  obtain rfl := Option.some.inj (reached.symm.trans reached')
  cases List.append_cancel_left same
  obtain rfl := Option.some.inj (serves.symm.trans serves')
  have written := List.singleton_inj.mp (asked'.symm.trans asked)
  have methods := congrArg (fun m => m.find? "method") written
  have given := congrArg (fun m => m.find? "params") written
  simp only [serializeRequest, find?_mk] at methods given
  simp at methods given
  exact ⟨rfl, methods, given⟩

/-- While its clients keep their transports and it runs, no request of the server is lost: it has
    been called back with what the client did of it, or just that is still to come. When nothing
    is on its way and no client has anything left to do, every request has been called back. -/
theorem requests_all_called_back (env : PeersEnv) (user : υ) (events : List (PeersEvent υ))
    (x : Peers υ) (orderly : Peers.Orderly env user events)
    (attached : Meets (Peers.step env) (fun x event => x.attached event = true)
      (Peers.initial user) events)
    (h : run (Peers.step env) (Peers.initial user) events = some x)
    (small : x.server.nextOutboundId ≤ 2 ^ 63) (working : x.server.stopping = false) :
    (∀ front n id method params, Peers.Rang env user events front n id method params →
      completedAs n (inboundResult (env.client id) method params.reread) ∈ x.server.completions ∨
        inboundResponse (.int n) (inboundResult (env.client id) method params.reread) ∈
          x.replies env id) ∧
    (x.uplink = [] → x.downlink = [] →
      (∀ id, (x.clients id).strand = [] ∧ (x.clients id).pool = []) →
        ∀ front n id method params, Peers.Rang env user events front n id method params →
          completedAs n (inboundResult (env.client id) method params.reread) ∈
            x.server.completions) := by
  have ringing := run_ringing orderly h small
  have awaiting := run_awaiting orderly attached h small
  have each (front : List (PeersEvent υ)) (n : Int) (id : SessionId) (method : String)
      (params : Json) (rang : Peers.Rang env user events front n id method params) :
      completedAs n (inboundResult (env.client id) method params.reread) ∈ x.server.completions ∨
        inboundResponse (.int n) (inboundResult (env.client id) method params.reread) ∈
          x.replies env id := by
    rcases awaiting.settled working n ⟨front, id, method, params, rang⟩ with called | ⟨p, held⟩
    · obtain ⟨done, member, rfl⟩ := List.mem_map.mp called
      obtain ⟨-, -, id', method', params', ⟨front', rang'⟩, eq⟩ := ringing.called done member
      obtain ⟨rfl, rfl, rfl⟩ := rang_same rang rang'
      left
      rw [← eq]
      exact member
    · obtain ⟨reply, member, number⟩ := awaiting.coming working n p held
      obtain ⟨k, q, params', found, session, -, ⟨front', rang'⟩, rfl⟩ :=
        ringing.expected working p.sessionId reply member
      have bound := ringing.below k q found
      have bound' := ringing.below n p held
      rw [reply_id] at number
      obtain rfl := number_injective ⟨by omega, by omega⟩ ⟨by omega, by omega⟩ number
      obtain ⟨rfl, rfl, rfl⟩ := rang_same rang rang'
      exact .inr member
  refine ⟨each, fun noUplink noDownlink idle front n id method params rang => ?_⟩
  refine (each front n id method params rang).resolve_right fun coming => ?_
  simp [Peers.replies, Client.owed, noUplink, noDownlink, idle id] at coming

theorem roots_all_called_back : ∃ x,
    run (Peers.step rootsEnv) (Peers.initial ()) rootsRung = some x ∧
    (completedAs 1 (inboundResult (rootsEnv.client []) Protocol.methodRootsList
        (Json.object []).reread) ∈ x.server.completions ∨
      inboundResponse (.int 1) (inboundResult (rootsEnv.client []) Protocol.methodRootsList
        (Json.object []).reread) ∈ x.replies rootsEnv []) := by
  have shape : (run (Peers.step rootsEnv) (Peers.initial ()) rootsRung).map (fun x =>
      (x.server.nextOutboundId, x.server.stopping)) = some (2, false) := by
    decide +kernel
  have orderly : Peers.Orderly rootsEnv () rootsRung := by
    decide +kernel
  have attached : Meets (Peers.step rootsEnv) (fun x event => x.attached event = true)
      (Peers.initial ()) rootsRung := by
    decide +kernel
  obtain ⟨x, h, same⟩ := Option.map_eq_some_iff.mp shape
  obtain ⟨next, working⟩ := Prod.mk.inj same
  obtain ⟨each, -⟩ :=
    requests_all_called_back rootsEnv () rootsRung x orderly attached h (by omega) working
  refine ⟨x, h, each [.serves (.runs true)] 1 [] Protocol.methodRootsList (.object []) ?_⟩
  exact ⟨_, .requestsRoots {} [] true, _, ⟨⟨_, rfl⟩, rfl⟩, rfl, rfl, rfl, rfl⟩

end CppMcp
