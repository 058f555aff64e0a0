import CppMcp.Client.Completion
import CppMcp.Client.Stale
import CppMcp.JsonRpc.Agreement

namespace CppMcp

open Lib

/-- A request with an id that can be read, whose method is no text or whose params are no
    structured value. -/
structure MalformedRequest (raw : Json) (id : RequestId) : Prop where
  enveloped : Enveloped raw
  id : ∃ j, raw.find? "id" = some j ∧ IsId j id
  named : ∃ method, raw.find? "method" = some method
  malformed : (∀ name, raw.find? "method" ≠ some (.string name)) ∨ ∀ params, ¬ HasParams raw params

theorem parseNotification_answers {raw : Json} {id : RequestId}
    (answers : (parseNotification raw).Answers id) : id = .null := by
  unfold parseNotification at answers
  repeat' split at answers
  all_goals
    cases answers
    try rfl

/-- Of the messages with a method, the malformed requests are parsed into a response. -/
theorem parseMessageClient_answers_iff {raw method : Json} {id : RequestId} (given : id ≠ .null)
    (named : raw.find? "method" = some method) :
    (parseMessageClient raw).Answers id ↔ MalformedRequest raw id := by
  rw [parseMessageClient_eq]
  by_cases enveloped : Enveloped raw
  · cases found : raw.find? "id" with
    | none =>
      rw [parseWith_notification enveloped found named]
      apply iff_of_false
      · exact fun answers => given (parseNotification_answers answers)
      · rintro ⟨-, ⟨j, present, -⟩, -, -⟩
        rw [found] at present
        cases present
    | some j =>
      rw [parseWith_request enveloped found named]
      unfold parseRequest
      cases parsed : requestIdFromJson j with
      | none =>
        apply iff_of_false
        · exact fun answers => given answers.symm
        · rintro ⟨-, ⟨j', present, typed⟩, -, -⟩
          obtain rfl : j = j' := by simpa [found] using present
          rw [(requestIdFromJson_iff j id).mpr typed] at parsed
          cases parsed
      | some own =>
        have typed := (requestIdFromJson_iff j own).mp parsed
        have same {other : RequestId} (malformed : MalformedRequest raw other) : own = other := by
          obtain ⟨j', present, typed'⟩ := malformed.id
          obtain rfl : j = j' := by simpa [found] using present
          rw [(requestIdFromJson_iff j other).mpr typed'] at parsed
          exact (Option.some.inj parsed).symm
        have refused (malformed : (∀ name, raw.find? "method" ≠ some (.string name)) ∨
            ∀ params, ¬ HasParams raw params) (why : String) :
            (invalidRequest own why).Answers id ↔ MalformedRequest raw id := by
          constructor
          · rintro rfl
            exact ⟨enveloped, ⟨j, found, typed⟩, ⟨method, named⟩, malformed⟩
          · exact same
        rw [named]
        cases method with
        | string name =>
          cases structured : paramsOk raw with
          | false =>
            apply refused
            refine .inr fun params has => ?_
            have ok := ((params_iff raw params).mp has).1
            rw [structured] at ok
            cases ok
          | true =>
            apply iff_of_false
            · exact fun answers => answers
            · rintro ⟨-, -, -, untyped | unstructured⟩
              · exact untyped name named
              · exact unstructured _ ((params_iff raw _).mpr ⟨structured, rfl⟩)
        | _ =>
          apply refused
          refine .inl fun name typed => ?_
          rw [named] at typed
          cases typed
  · rw [parseWith_unversioned enveloped]
    apply iff_of_false
    · exact fun answers => given answers.symm
    · exact fun malformed => enveloped malformed.enveloped

/-- No key of the map is null: an own id is a number, and a null token is no key. -/
structure NullUnkeyed (c : Client) : Prop where
  ids : ∀ (pr : Nat) (r : PendingRequest), c.requests[pr]? = some r → r.id ≠ .null
  key : c.pendingMap.lookup .null = none

variable (env : ClientEnv)

theorem registerTask_origin {c : Client} {pr pr' : Nat} {params : Option Json} {r' : PendingRequest}
    (h : (c.registerTask pr params).requests[pr']? = some r') :
    ∃ r, c.requests[pr']? = some r ∧ r'.id = r.id := by
  cases present : c.requests[pr]? with
  | none =>
    simp only [Client.registerTask, present] at h
    exact ⟨r', h, rfl⟩
  | some r =>
    obtain ⟨mid, off, -, -, -, -, -, -, -, timer, marked⟩ := registerTask_spec c pr params present
    rw [off.requests, marked, List.getElem?_modify, Option.map_eq_map, Option.map_eq_some_iff] at h
    obtain ⟨before, found, rfl⟩ := h
    refine ⟨before, found, ?_⟩
    split <;> rfl

theorem registerTask_nullUnkeyed {c : Client} (inv : NullUnkeyed c) (pr : Nat)
    (params : Option Json) : NullUnkeyed (c.registerTask pr params) where
  ids pr' r' h := by
    obtain ⟨r, present, id⟩ := registerTask_origin h
    rw [id]
    exact inv.ids pr' r present
  key := by
    cases present : c.requests[pr]? with
    | none =>
      simp only [Client.registerTask, present]
      exact inv.key
    | some r =>
      obtain ⟨mid, off, map, -⟩ := registerTask_spec c pr params present
      rw [off.pendingMap, map, registerPending_lookup, if_neg, inv.key]
      rintro (own | ⟨token, null⟩)
      · exact inv.ids pr r present own.symm
      · simp [PendingRequest.hasOwnToken, ← null, RequestId.isNull] at token

theorem Client.Settles.nullUnkeyed {c c' : Client} (settles : c.Settles c') (inv : NullUnkeyed c) :
    NullUnkeyed c' where
  ids pr r' h := by
    obtain ⟨r, present, settled⟩ := settles.back h
    rw [settled.id]
    exact inv.ids pr r present
  key := by
    cases found : c'.pendingMap.lookup .null with
    | none => rfl
    | some pr =>
      have old := settles.pendingMap .null pr found
      rw [inv.key] at old
      cases old

theorem step_nullUnkeyed {c c' : Client} {event : ClientEvent} (inv : NullUnkeyed c)
    (h : c.step env event = some c') : NullUnkeyed c' := by
  rcases step_kinds env h with ⟨thread, args, params, -, rfl⟩ | ⟨-, rest, pr, params, -, rfl⟩ |
    ⟨before, requests, pendingMap, settles⟩
  · refine ⟨fun pr r found => ?_, inv.key⟩
    rcases getElem?_concat found with old | ⟨-, rfl⟩
    · exact inv.ids pr r old
    · intro null
      cases null
  · exact registerTask_nullUnkeyed (c := { c with strand := rest }) ⟨inv.ids, inv.key⟩ pr params
  · apply settles.nullUnkeyed
    constructor
    · rw [requests]
      exact inv.ids
    · rw [pendingMap]
      exact inv.key

theorem initial_nullUnkeyed (transport : Bool) : NullUnkeyed (Client.initial transport) where
  ids _ _ h := by simp [Client.initial] at h
  key := rfl

theorem initial_placed (transport : Bool) : Placed (Client.initial transport) where
  queued _ _ h := by simp [Client.initial] at h
  held _ _ _ h := by simp [Client.initial] at h
  keyed _ _ h := by simp [Client.initial] at h

/-- A message that is parsed into a response completes the request under its id. -/
theorem onTransportMessage_answers {c : Client} {message : Json} {id : RequestId}
    (answers : (parseMessageClient message).Answers id) : ∃ outcome : McpOutcome,
      outcome.terminal ≠ .waiting ∧
        c.onTransportMessage env message = .ok (c.completePending env id outcome) := by
  unfold Client.onTransportMessage
  cases parsed : parseMessageClient message with
  | success resp =>
    rw [parsed] at answers
    obtain rfl : resp.id = id := answers
    exact ⟨_, by simp, rfl⟩
  | error resp =>
    rw [parsed] at answers
    obtain rfl : resp.id = id := answers
    exact ⟨_, by simp, rfl⟩
  | _ =>
    rw [parsed] at answers
    cases answers

theorem completePending_unkeyed {c : Client} {id : RequestId} (unkeyed : c.pendingMap.lookup id = none)
    (outcome : McpOutcome) : c.completePending env id outcome = c := by
  simp only [Client.completePending, unkeyed]

theorem completePending_takes {c : Client} {id : RequestId} {pr : Nat} (inv : Placed c)
    (found : c.pendingMap.lookup id = some pr) {outcome : McpOutcome}
    (terminal : outcome.terminal ≠ .waiting) :
    (c.completePending env id outcome).pendingMap.lookup id = none := by
  rcases completePending_cases env c id outcome terminal with ⟨-, missing⟩ |
    ⟨owner, r, aside, final, -, -, -, -, eq⟩
  · have bound := inv.keyed id pr found
    have absent := missing pr found
    rw [List.getElem?_eq_getElem bound] at absent
    cases absent
  · rw [eq, finish_pendingMap]
    cases kept : (aside.forget id r).pendingMap.lookup id with
    | none => rfl
    | some other => exact absurd rfl (forget_gone kept).1

/-- The map and the state of every request are left as they are. A message that throws does so
    before anything is written. -/
def Client.Untouched (c : Client) (message : Json) : Prop :=
  ∀ c', c.onTransportMessage env message = .ok c' →
    c'.pendingMap = c.pendingMap ∧
      c'.requests.map (fun r => r.state) = c.requests.map fun r => r.state

/-- A message is without effect on what is pending unless it is taken for the response to a key. -/
theorem untouched_iff_answers {c : Client} (placed : Placed c) (message : Json) :
    c.Untouched env message ↔
      ∀ id, (parseMessageClient message).Answers id → c.pendingMap.lookup id = none := by
  constructor
  · intro untouched id answers
    obtain ⟨outcome, terminal, handled⟩ := onTransportMessage_answers env (c := c) answers
    cases found : c.pendingMap.lookup id with
    | none => rfl
    | some pr =>
      have taken := completePending_takes env placed found terminal
      rw [(untouched _ handled).1, found] at taken
      cases taken
  · intro unkeyed c' handled
    rcases onTransportMessage_cases env handled with aside | ⟨resp, parsed, rfl⟩ |
      ⟨resp, parsed, rfl⟩
    · rw [aside.pendingMap, aside.requests]
      exact ⟨rfl, rfl⟩
    · rw [completePending_unkeyed env (unkeyed resp.id (by rw [parsed]; rfl))]
      exact ⟨rfl, rfl⟩
    · rw [completePending_unkeyed env (unkeyed resp.id (by rw [parsed]; rfl))]
      exact ⟨rfl, rfl⟩

/-- A message with a method leaves what is pending alone, in every state that is reached, exactly
    if it is no malformed request under a key of the map. -/
theorem pending_untouched_iff (transport : Bool) (events : List ClientEvent) (c : Client)
    (h : run (Client.step env) (Client.initial transport) events = some c) (message : Json)
    (named : message.contains "method" = true) :
    c.Untouched env message ↔
      ∀ id, MalformedRequest message id → c.pendingMap.lookup id = none := by
  have placed : Placed c :=
    run_keeps (fun _ _ _ inv h => step_placed env inv h) (initial_placed transport) h
  have unkeyed : NullUnkeyed c :=
    run_keeps (fun _ _ _ inv h => step_nullUnkeyed env inv h) (initial_nullUnkeyed transport) h
  obtain ⟨method, found⟩ := Option.isSome_iff_exists.mp named
  rw [untouched_iff_answers env placed]
  constructor
  · intro spared id malformed
    obtain ⟨j, -, typed⟩ := malformed.id
    have given : id ≠ .null := by
      rintro rfl
      cases typed
    exact spared id ((parseMessageClient_answers_iff given found).mpr malformed)
  · intro spared id answers
    by_cases null : id = .null
    · rw [null]
      exact unkeyed.key
    · exact spared id ((parseMessageClient_answers_iff null found).mp answers)

def numberedMethod (id : Int64) : Json :=
  .mk [("jsonrpc", .string "2.0"), ("id", .integer id), ("method", .integer 5)]

theorem other_id_untouched : ∃ c, run (Client.step {}) (Client.initial true) watchedPing = some c ∧
    c.pendingMap.lookup (.int 2) = some 1 ∧ c.Untouched {} (numberedMethod 7) := by
  have shape : (run (Client.step {}) (Client.initial true) watchedPing).map (fun c =>
      (c.pendingMap.lookup (.int 2), c.pendingMap.lookup (.int 7))) = some (some 1, none) := by
    decide +kernel
  obtain ⟨c, h, seen⟩ := Option.map_eq_some_iff.mp shape
  simp only [Prod.mk.injEq] at seen
  refine ⟨c, h, seen.1, ?_⟩
  apply (pending_untouched_iff {} true watchedPing c h (numberedMethod 7) (by decide)).mpr
  intro id malformed
  obtain ⟨j, found, typed⟩ := malformed.id
  obtain rfl : j = .integer 7 := by simpa [numberedMethod, find?_mk] using found.symm
  cases typed
  exact seen.2

/-- Under the id of the waiting ping, the request is taken for its error response. -/
theorem malformed_request_completes :
    ∃ c, run (Client.step {}) (Client.initial true) watchedPing = some c ∧
      (numberedMethod 2).contains "method" = true ∧ ¬ c.Untouched {} (numberedMethod 2) := by
  have shape : ((run (Client.step {}) (Client.initial true) watchedPing).bind fun c =>
      (c.onTransportMessage {} (numberedMethod 2)).toOption.map fun c' =>
        (c.requests.map (fun r => r.state), c'.requests.map fun r => r.state)) =
      some ([.succeeded, .waiting], [.succeeded, .errored]) := by decide +kernel
  obtain ⟨c, h, rest⟩ := Option.bind_eq_some_iff.mp shape
  refine ⟨c, h, by decide, fun untouched => ?_⟩
  cases handled : c.onTransportMessage {} (numberedMethod 2) with
  | error e =>
    rw [handled] at rest
    cases rest
  | ok c' =>
    rw [handled] at rest
    simp only [Except.toOption, Option.map_some, Option.some.injEq, Prod.mk.injEq] at rest
    have same := (untouched c' handled).2
    rw [rest.1, rest.2] at same
    cases same

end CppMcp
