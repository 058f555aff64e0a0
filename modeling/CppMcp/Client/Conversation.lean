import CppMcp.Client.Discipline

namespace CppMcp

open Lib

/-- What was said is a conversation of the protocol. As long as there is a transport it is about
    exactly the requests that are registered, and those of them that are cancelled. -/
structure Converses (c : Client) (said : List Said) (talk : Talk) : Prop where
  spoken : run Talk.step {} said = some talk
  sent : c.sent = said.map Said.message
  asked : c.transport = true → ∀ r ∈ c.requests,
    (r.registered = true ↔ r.id ∈ talk.asked.map Prod.fst) ∧
      (r.registered = true → (r.id, r.method) ∈ talk.asked)
  cancelled : c.transport = true → ∀ r ∈ c.requests, r.state = .cancelled ↔ r.id ∈ talk.cancelled
  known : ∀ id, id ∈ talk.asked.map Prod.fst ∨ id ∈ talk.cancelled → ∃ r ∈ c.requests, r.id = id

section
variable {c c' : Client} {said : List Said} {talk : Talk}

theorem Client.Adds.requested (adds : c.Adds said c') {r : PendingRequest} (inside : r ∈ c.requests) :
    ∃ r' ∈ c'.requests, r.Adds said r' := by
  obtain ⟨pr, present⟩ := List.getElem?_of_mem inside
  obtain ⟨r', there, each⟩ := adds.requests pr r present
  exact ⟨r', List.mem_of_getElem? there, each⟩

theorem Client.Adds.back (adds : c.Adds said c') {r' : PendingRequest}
    (inside : r' ∈ c'.requests) : ∃ r ∈ c.requests, r.Adds said r' := by
  obtain ⟨pr, there⟩ := List.getElem?_of_mem inside
  have bound : pr < c.requests.length := by
    rw [← adds.length]
    exact (List.getElem?_eq_some_iff.mp there).1
  obtain ⟨r'', after, each⟩ := adds.requests pr _ (List.getElem?_eq_getElem bound)
  obtain rfl : r' = r'' := Option.some.inj (there.symm.trans after)
  exact ⟨_, List.getElem_mem bound, each⟩

theorem Correlated.same (inv : Correlated c) {r s : PendingRequest} (first : r ∈ c.requests)
    (second : s ∈ c.requests) (id : r.id = s.id) : r = s := by
  obtain ⟨pr, present⟩ := List.getElem?_of_mem first
  obtain ⟨place, there⟩ := List.getElem?_of_mem second
  obtain rfl := inv.distinct pr place r s present there id
  exact Option.some.inj (present.symm.trans there)

theorem Converses.hush (converses : Converses c said talk) (adds : c.Adds [] c') :
    Converses c' said talk := by
  refine ⟨converses.spoken, ?_, fun there r' inside => ?_, fun there r' inside => ?_,
    fun id member => ?_⟩
  · have silent : c'.sent = c.sent := by simpa using adds.sent
    exact silent.trans converses.sent
  · obtain ⟨r, before, id, method, registered, -⟩ := adds.back inside
    obtain ⟨known, named⟩ := converses.asked (adds.transport ▸ there) r before
    have same : r'.registered = true ↔ r.registered = true := by simpa using registered
    rw [same, id, method]
    exact ⟨known, named⟩
  · obtain ⟨r, before, id, -, -, cancelled⟩ := adds.back inside
    have same : r'.state = .cancelled ↔ r.state = .cancelled := by simpa using cancelled
    rw [same, id]
    exact converses.cancelled (adds.transport ▸ there) r before
  · obtain ⟨r, before, same⟩ := converses.known id member
    obtain ⟨r', inside, each⟩ := adds.requested before
    exact ⟨r', inside, each.id.trans same⟩

/-- A client without a transport says nothing. -/
theorem Converses.gone (converses : Converses c said talk) (sent : c'.sent = c.sent)
    (gone : c'.transport = false)
    (kept : ∀ r ∈ c.requests, ∃ r' ∈ c'.requests, r'.id = r.id) : Converses c' said talk := by
  refine ⟨converses.spoken, sent.trans converses.sent, fun there => ?_, fun there => ?_,
    fun id member => ?_⟩
  · simp [gone] at there
  · simp [gone] at there
  · obtain ⟨r, inside, same⟩ := converses.known id member
    obtain ⟨r', after, id⟩ := kept r inside
    exact ⟨r', after, id.trans same⟩

/-- A new request is neither sent nor cancelled. -/
theorem Converses.builds (converses : Converses c said talk) {r : PendingRequest}
    (sent : c'.sent = c.sent) (transport : c'.transport = c.transport)
    (requests : c'.requests = c.requests ++ [r]) (unsent : r.registered = false)
    (waits : r.state = .waiting) (fresh : ∀ s ∈ c.requests, s.id ≠ r.id) :
    Converses c' said talk := by
  have unknown (member : r.id ∈ talk.asked.map Prod.fst ∨ r.id ∈ talk.cancelled) : False := by
    obtain ⟨s, inside, same⟩ := converses.known r.id member
    exact fresh s inside same
  refine ⟨converses.spoken, sent.trans converses.sent, fun there s inside => ?_,
    fun there s inside => ?_, fun id member => ?_⟩
  · rw [requests] at inside
    rcases List.mem_append.mp inside with old | new
    · exact converses.asked (transport ▸ there) s old
    · rw [List.mem_singleton.mp new, unsent]
      exact ⟨⟨nofun, fun member => (unknown (.inl member)).elim⟩, nofun⟩
  · rw [requests] at inside
    rcases List.mem_append.mp inside with old | new
    · exact converses.cancelled (transport ▸ there) s old
    · rw [List.mem_singleton.mp new, waits]
      exact ⟨nofun, fun member => (unknown (.inr member)).elim⟩
  · obtain ⟨s, inside, same⟩ := converses.known id member
    exact ⟨s, requests ▸ List.mem_append_left _ inside, same⟩

/-- What a client may say is the protocol's next step. -/
theorem Converses.continues (converses : Converses c said talk) (there : c.transport = true)
    {one : Said} (allowed : c.Allows one) : ∃ talk', talk.step one = some talk' ∧
      talk'.asked.map Prod.fst = talk.asked.map Prod.fst ++ one.asked.toList ∧
      talk.asked ⊆ talk'.asked ∧ talk'.cancelled = talk.cancelled ++ one.cancelled.toList ∧
      ∀ id method params, one = .asks id method params → (id, method) ∈ talk'.asked := by
  cases one with
  | asks id method params =>
    obtain ⟨r, inside, rfl, rfl, unsent⟩ := allowed
    have new : r.id ∉ talk.asked.map Prod.fst := fun member => by
      simp [(converses.asked there r inside).1.mpr member] at unsent
    refine ⟨_, if_neg new, List.map_append, List.subset_append_left _ _,
      (List.append_nil _).symm, fun id method params same => ?_⟩
    cases same
    exact List.mem_append_right _ (List.mem_singleton_self _)
  | cancels id reason =>
    obtain ⟨r, inside, rfl, registered, uncancelled⟩ := allowed
    have known := (converses.asked there r inside).1.mp registered
    have new : r.id ∉ talk.cancelled := fun member =>
      uncancelled ((converses.cancelled there r inside).mpr member)
    exact ⟨_, if_pos ⟨known, new⟩, (List.append_nil _).symm, List.Subset.refl _, rfl, nofun⟩
  | greets id =>
    obtain ⟨r, inside, rfl, method, registered, uncancelled⟩ := allowed
    have known := (converses.asked there r inside).2 registered
    have open_ : r.id ∉ talk.cancelled := fun member =>
      uncancelled ((converses.cancelled there r inside).mpr member)
    exact ⟨talk, if_pos ⟨method ▸ known, open_⟩, (List.append_nil _).symm, List.Subset.refl _,
      (List.append_nil _).symm, nofun⟩
  | answers response =>
    exact ⟨talk, if_pos allowed, (List.append_nil _).symm, List.Subset.refl _,
      (List.append_nil _).symm, nofun⟩

theorem Converses.says (inv : Correlated c) (converses : Converses c said talk) {one : Said}
    (speaking : c.Speaking (some one) c') (there : c.transport = true) :
    ∃ talk', Converses c' (said ++ [one]) talk' := by
  obtain ⟨adds, allowed⟩ := speaking
  obtain ⟨talk', continues, asked, kept, cancelled, named⟩ :=
    converses.continues there (allowed one rfl)
  refine ⟨talk', ?_, ?_, fun _ r' inside => ?_, fun _ r' inside => ?_, fun id member => ?_⟩
  · rw [run_append, converses.spoken, Option.bind_some, run, continues]
    rfl
  · rw [adds.sent, if_pos there, converses.sent, List.map_append]
    rfl
  · obtain ⟨r, before, id, method, registered, -⟩ := adds.back inside
    obtain ⟨known, old⟩ := converses.asked there r before
    have now : r'.registered = true ↔ r.registered = true ∨ r.id ∈ one.asked.toList := by
      rw [registered]
      cases one <;> simp [Said.asked]
    rw [now, id, method, asked, List.mem_append, known]
    refine ⟨Iff.rfl, fun either => ?_⟩
    rcases either with before | new
    · exact kept (old (known.mpr before))
    · cases one with
      | asks n name params =>
        obtain ⟨s, also, same, rfl, -⟩ := allowed _ rfl
        have own : r.id = n := by simpa [Said.asked] using new
        obtain rfl := inv.same before also (own.trans same.symm)
        exact own ▸ named _ _ _ rfl
      | _ => cases new
  · obtain ⟨r, before, id, -, -, ended⟩ := adds.back inside
    have now : r'.state = .cancelled ↔ r.state = .cancelled ∨ r.id ∈ one.cancelled.toList := by
      rw [ended]
      cases one <;> simp [Said.cancelled]
    rw [now, id, cancelled, List.mem_append, converses.cancelled there r before]
  · rw [asked, cancelled, List.mem_append, List.mem_append] at member
    have known : ∃ r ∈ c.requests, r.id = id := by
      rcases member with (old | new) | (old | new)
      · exact converses.known id (.inl old)
      · cases one with
        | asks n method params =>
          obtain ⟨r, inside, same, -⟩ := allowed _ rfl
          exact ⟨r, inside, same.trans (by simpa [Said.asked, eq_comm] using new)⟩
        | _ => cases new
      · exact converses.known id (.inr old)
      · cases one with
        | cancels n reason =>
          obtain ⟨r, inside, same, -⟩ := allowed _ rfl
          exact ⟨r, inside, same.trans (by simpa [Said.cancelled, eq_comm] using new)⟩
        | _ => cases new
    obtain ⟨r, before, same⟩ := known
    obtain ⟨r', inside, each⟩ := adds.requested before
    exact ⟨r', inside, each.id.trans same⟩

end

variable (env : ClientEnv)

theorem step_converses {c c' : Client} {event : ClientEvent} (inv : InProtocol c)
    (converses : ∃ said talk, Converses c said talk) (apart : event.keepsTokensApart = true)
    (h : c.step env event = some c') : InProtocol c' ∧ ∃ said talk, Converses c' said talk := by
  obtain ⟨said, talk, converses⟩ := converses
  obtain ⟨inv', turns⟩ := step_keepsProtocol env inv apart h
  refine ⟨inv', ?_⟩
  have kept : ∀ r ∈ c.requests, ∃ r' ∈ c'.requests, r'.id = r.id := by
    intro r inside
    obtain ⟨pr, present⟩ := List.getElem?_of_mem inside
    obtain ⟨r', after, id, -⟩ := step_remembers env h present
    exact ⟨r', List.mem_of_getElem? after, id⟩
  cases turns with
  | speaks one speaking =>
    cases one with
    | none => exact ⟨said, talk, converses.hush speaking.adds⟩
    | some one =>
      cases there : c.transport with
      | true =>
        obtain ⟨talk', continues⟩ := converses.says inv.correlated speaking there
        exact ⟨_, talk', continues⟩
      | false =>
        have silent : c'.sent = c.sent := by simpa [there] using speaking.adds.sent
        exact ⟨said, talk, converses.gone silent (speaking.adds.transport.trans there) kept⟩
  | builds r sent transport requests unsent waits =>
    refine ⟨said, talk, converses.builds sent transport requests unsent waits fun s inside same => ?_⟩
    obtain ⟨pr, present⟩ := List.getElem?_of_mem inside
    have bound := (List.getElem?_eq_some_iff.mp present).1
    have older : c'.requests[pr]? = some s := by
      rw [requests, List.getElem?_append_left bound, present]
    have newest : c'.requests[c.requests.length]? = some r := by simp [requests]
    exact bound.ne (inv'.correlated.distinct _ _ s r older newest same)
  | leaves sent transport requests =>
    exact ⟨said, talk, converses.gone sent transport kept⟩

theorem initial_inProtocol (transport : Bool) : InProtocol (Client.initial transport) where
  correlated := initial_correlated transport
  live _ _ _ found := by simp [Client.initial] at found
  begun _ _ present := by simp [Client.initial] at present
  once := List.nodup_nil
  unsent pr member := absurd member List.not_mem_nil
  cancels id reason member := absurd member List.not_mem_nil
  sends m member := absurd member List.not_mem_nil

theorem initial_converses (transport : Bool) : Converses (Client.initial transport) [] {} :=
  ⟨rfl, rfl, fun _ _ inside => absurd inside List.not_mem_nil,
    fun _ _ inside => absurd inside List.not_mem_nil,
    fun _ member => member.elim (fun h => absurd h List.not_mem_nil) fun h =>
      absurd h List.not_mem_nil⟩

/-- Whatever a client sends in whatever run is a conversation of the protocol: a request is sent
    once, it is cancelled at most once and behind it, a handshake is confirmed behind its request,
    and the rest are responses. While there is a transport, the server was sent exactly the
    requests that are registered, and told of exactly those that ended as cancelled. -/
theorem sent_keeps_protocol (transport : Bool) (events : List ClientEvent) (c : Client)
    (apart : Meets (Client.step env) (fun _ e => e.keepsTokensApart = true)
      (Client.initial transport) events)
    (ran : run (Client.step env) (Client.initial transport) events = some c) :
    ∃ said talk, run Talk.step {} said = some talk ∧ c.sent = said.map Said.message ∧
      (c.transport = true → ∀ r ∈ c.requests,
        (r.id ∈ talk.asked.map Prod.fst ↔ r.registered = true) ∧
          (r.id ∈ talk.cancelled ↔ r.state = .cancelled)) := by
  have kept : InProtocol c ∧ ∃ said talk, Converses c said talk := by
    apply @run_invariant _ _ (Client.step env) _
      (fun c => InProtocol c ∧ ∃ said talk, Converses c said talk) _ _ _ _
      ⟨initial_inProtocol transport, [], {}, initial_converses transport⟩ apart ran
    exact fun s event s' inv apart h => step_converses env inv.1 inv.2 apart h
  obtain ⟨-, said, talk, converses⟩ := kept
  refine ⟨said, talk, converses.spoken, converses.sent, fun there r inside => ?_⟩
  exact ⟨(converses.asked there r inside).1.symm, (converses.cancelled there r inside).symm⟩

/-- A ping is cancelled twice while the server is at work on it. -/
def cancelledPing : List ClientEvent :=
  handshake ++ submission { method := Protocol.methodPing } ++
    [.cancel 1 "late", .cancel 1 "again", .runTask, .runTask]

theorem sent_keeps_protocol_cancelled : ∃ c said talk,
    run (Client.step {}) (Client.initial true) cancelledPing = some c ∧
    run Talk.step {} said = some talk ∧ c.sent = said.map Said.message ∧
    c.sent.length = 4 ∧ .int 2 ∈ talk.cancelled := by
  have outcome : (run (Client.step {}) (Client.initial true) cancelledPing).map (fun c =>
      (c.transport, c.requests.map fun r => (r.id, r.state), c.sent.length)) =
      some (true, [(.int 1, .succeeded), (.int 2, .cancelled)], 4) := by decide +kernel
  obtain ⟨c, ran, state⟩ := Option.map_eq_some_iff.mp outcome
  simp only [Prod.mk.injEq] at state
  obtain ⟨there, requests, length⟩ := state
  obtain ⟨said, talk, spoken, sent, about⟩ := sent_keeps_protocol {} true cancelledPing c
    (meets_of_forall (by decide) _) ran
  have member : ((.int 2, .cancelled) : RequestId × RequestState) ∈
      c.requests.map fun r => (r.id, r.state) := by simp [requests]
  obtain ⟨r, inside, same⟩ := List.mem_map.mp member
  rw [Prod.mk.injEq] at same
  exact ⟨c, said, talk, ran, spoken, sent, length,
    same.1 ▸ (about there r inside).2.mpr same.2⟩

end CppMcp
