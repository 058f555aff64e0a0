import CppMcp.Lib.Table
import CppMcp.Lib.Threads
import CppMcp.Server.ClientErrors
import CppMcp.Server.Responses

namespace CppMcp

open Lib

variable {υ : Type}

/-- Where a call of `send_server_request` stands. `failing` is behind a send that has thrown a
    standard exception; any other has `escaped` from the call. -/
inductive SenderPhase where
  | numbered
  | registered
  | failing
  | escaped
  | returned (sent : Bool)
deriving DecidableEq

structure Sender (υ : Type) where
  pending : OutboundPending υ
  params : Json
  rid : Int
  phase : SenderPhase

/-- Where the handling of a response stands. What is `calling` has taken its entry out. -/
inductive ReceiverPhase (υ : Type) where
  | checking (n : Int) (resp : JsonRpcErrorResponse)
  | completing (n : Int) (ok : Bool) (payload : Json)
  | calling (n : Int) (p : OutboundPending υ) (ok : Bool) (payload : Json)
  | done

structure Receiver (υ : Type) where
  message : Json
  sink : Nat
  phase : ReceiverPhase υ

/-- A server among the threads that use its table of outbound requests. -/
structure Outbound (υ : Type) where
  server : Server υ
  senders : List (Sender υ) := []
  receivers : List (Receiver υ) := []

/-- One atomic access to the table or its counter each, or a piece of code between two. -/
inductive OutboundEvent (υ : Type) where
  | serves (event : ServerEvent υ)
  | calls (pending : OutboundPending υ) (params : Json)
  | registers (place : Nat)
  | sends (place : Nat) (takes : Bool)
  | escapes (place : Nat)
  | unregisters (place : Nat)
  | arrives (message : Json)
  | checks (place : Nat)
  | completes (place : Nat)
  | callsBack (place : Nat)
  | stops
  | clears

/-- The step of the server has nothing to do with its outbound requests. -/
def ServerEvent.aside : ServerEvent υ → Bool
  | .arrives message _ _ =>
    match parseMessage message with
    | .request _ | .notification _ => true
    | .success _ | .error _ => false
  | .requestsSampling .. | .requestsElicitation .. | .requestsRoots .. | .stops => false
  | _ => true

def Outbound.withTable (s : Outbound υ) (table : AList fun _ : Int => OutboundPending υ) :
    Outbound υ :=
  { s with server := { s.server with outboundPending := table } }

def Outbound.setSender (s : Outbound υ) (place : Nat) (t : Sender υ) (phase : SenderPhase) :
    Outbound υ :=
  { s with senders := s.senders.set place { t with phase } }

def Outbound.setReceiver (s : Outbound υ) (place : Nat) (r : Receiver υ)
    (phase : ReceiverPhase υ) : Outbound υ :=
  { s with receivers := s.receivers.set place { r with phase } }

/-- How a response is handled first: an error is looked up before it is completed. -/
def firstPhase (message : ParsedMessage) : ReceiverPhase υ :=
  match message with
  | .success ⟨.int n, result⟩ => .completing n true result
  | .error ⟨.int n, error⟩ => .checking n ⟨.int n, error⟩
  | _ => .done

/-- The error of a response goes back where it answers no request of the server's own. -/
def Server.returnError (s : Server υ) (sink : Nat) (resp : JsonRpcErrorResponse) : Server υ :=
  s.respond sink (makeErrorResponse resp.id resp.error.code resp.error.message resp.error.data)

def Outbound.arrive (s : Outbound υ) (message : Json) : Outbound υ :=
  let sink := s.server.arrivals.length
  let receiver := ⟨message, sink, firstPhase (parseMessage message)⟩
  let server := s.server.arrived message
  match parseMessage message with
  | .error ⟨.int _, _⟩ => { s with server, receivers := s.receivers ++ [receiver] }
  | .error resp =>
    { s with server := server.returnError sink resp, receivers := s.receivers ++ [receiver] }
  | _ => { s with server, receivers := s.receivers ++ [receiver] }

/-- The table without the entry, which the thread has in its hands now. -/
def Outbound.complete (s : Outbound υ) (place : Nat) (r : Receiver υ) (n : Int) (ok : Bool)
    (payload : Json) : Outbound υ :=
  match s.server.outboundPending.lookup n with
  | none => s.setReceiver place r .done
  | some p =>
    (s.withTable (s.server.outboundPending.erase n)).setReceiver place r (.calling n p ok payload)

/-- The callback of a request that has been taken out of the table runs, outside the lock. -/
def Server.callOut (s : Server υ) (p : OutboundPending υ) (c : CompletedRequest) : Server υ :=
  { s with completions := s.completions ++ [c] }.callBack (p.callback c.ok c.payload)

def Outbound.callBack (s : Outbound υ) (place : Nat) (r : Receiver υ) (n : Int)
    (p : OutboundPending υ) (ok : Bool) (payload : Json) : Outbound υ :=
  { s with server := s.server.callOut p ⟨n, ok, payload⟩ }.setReceiver place r .done

variable (info : ServerInfo)

def Outbound.step (s : Outbound υ) : OutboundEvent υ → Option (Outbound υ)
  | .serves event =>
    if event.aside then (s.server.step info event).map fun server => { s with server } else none
  | .calls pending params =>
    if s.server.transport && s.server.running then
      let rid := s.server.nextOutboundId
      some { s with
        server := { s.server with nextOutboundId := rid + 1 }
        senders := s.senders ++ [⟨pending, params, rid, .numbered⟩] }
    else some s
  | .registers place =>
    match s.senders[place]? with
    | some t =>
      if t.phase = .numbered then
        some ((s.withTable (s.server.outboundPending.insert t.rid t.pending)).setSender place t
          .registered)
      else none
    | none => none
  | .sends place takes =>
    match s.senders[place]? with
    | some t =>
      if t.phase = .registered then
        let message := serializeRequest ⟨.int t.rid, t.pending.method, some t.params⟩
        some (if takes then
          { s with server := { s.server with
            sent := s.server.sent ++ [(t.pending.sessionId, message)] } }.setSender place t
              (.returned true)
        else s.setSender place t .failing)
      else none
    | none => none
  | .escapes place =>
    match s.senders[place]? with
    | some t => if t.phase = .registered then some (s.setSender place t .escaped) else none
    | none => none
  | .unregisters place =>
    match s.senders[place]? with
    | some t =>
      if t.phase = .failing then
        let s := s.withTable (s.server.outboundPending.erase t.rid)
        some ({ s with
          server := s.server.logText "error" "Failed to send server request" }.setSender place t
            (.returned false))
      else none
    | none => none
  | .arrives message =>
    if s.server.stopping then none
    else match parseMessage message with
      | .success _ | .error _ => some (s.arrive message)
      | .request _ | .notification _ => none
  | .checks place =>
    match s.receivers[place]? with
    | some r =>
      match r.phase with
      | .checking n resp =>
        some (if s.server.isOutbound (.int n) then
          s.setReceiver place r (.completing n false
            (errorObject resp.error.code resp.error.message resp.error.data))
        else { s with server := s.server.returnError r.sink resp }.setReceiver place r .done)
      | _ => none
    | none => none
  | .completes place =>
    match s.receivers[place]? with
    | some r =>
      match r.phase with
      | .completing n ok payload => some (s.complete place r n ok payload)
      | _ => none
    | none => none
  | .callsBack place =>
    match s.receivers[place]? with
    | some r =>
      match r.phase with
      | .calling n p ok payload => some (s.callBack place r n p ok payload)
      | _ => none
    | none => none
  | .stops => some { s with server := { s.server with stopping := true, running := false } }
  | .clears =>
    if s.server.stopping then
      some { s with server := { s.server with outboundPending := ∅, jobs := [], deliveries := [] } }
    else none

def Outbound.initial (user : υ) : Outbound υ := { server := Server.initial user }

def Sender.numbers (n : Int) (t : Sender υ) : Bool :=
  decide (t.phase = .numbered ∧ t.rid = n)

def Receiver.holds (n : Int) (r : Receiver υ) : Bool :=
  match r.phase with
  | .calling m _ _ _ => decide (m = n)
  | _ => false

def CompletedRequest.answers (n : Int) (c : CompletedRequest) : Bool := decide (c.id = n)

/-- The places where the request `n` can be: on its way into the table, there, taken out, called
    back. -/
def Outbound.tokens (s : Outbound υ) (n : Int) : Nat :=
  (s.server.outboundPending.lookup n).isSome.toNat +
    s.senders.countP (Sender.numbers n) + s.receivers.countP (Receiver.holds n) +
    s.server.completions.countP (CompletedRequest.answers n)

theorem step_aside {s s' : Server υ} {event : ServerEvent υ} (aside : event.aside = true)
    (h : s.step info event = some s') :
    s'.outboundPending = s.outboundPending ∧ s'.nextOutboundId = s.nextOutboundId ∧
      s'.completions = s.completions := by
  cases event with
  | arrives message sessionId batch =>
    simp only [Server.step, Option.ite_none_left_eq_some, Option.some.injEq] at h
    obtain ⟨-, rfl⟩ := h
    simp only [ServerEvent.aside] at aside
    simp only [Server.onMessage]
    cases parsed : parseMessage message with
    | request req =>
      dsimp only
      obtain ⟨-, serving⟩ := processRequest_spec info req sessionId (s.arrived message)
      split
      · exact ⟨rfl, rfl, rfl⟩
      · exact ⟨serving.outboundPending, serving.nextOutboundId, serving.completions⟩
    | notification notif =>
      simp only [Server.processNotification]
      split
      · exact ⟨rfl, rfl, rfl⟩
      · split <;> exact ⟨rfl, rfl, rfl⟩
    | success resp =>
      rw [parsed] at aside
      cases aside
    | error resp =>
      rw [parsed] at aside
      cases aside
  | runsJob place =>
    simp only [Server.step] at h
    split at h
    · rename_i job found
      cases h
      obtain ⟨-, serving⟩ := processRequest_spec info job.request job.sessionId
        { s with jobs := s.jobs.eraseIdx place }
      exact ⟨serving.outboundPending, serving.nextOutboundId, serving.completions⟩
    · cases h
  | delivers place =>
    simp only [Server.step] at h
    split at h
    · cases h
      exact ⟨rfl, rfl, rfl⟩
    · cases h
  | registers registry | setsWorkers n | runs starts =>
    cases h
    split <;> exact ⟨rfl, rfl, rfl⟩
  | setsPageSize n | invalidates =>
    cases h
    exact ⟨rfl, rfl, rfl⟩
  | requestsSampling | requestsElicitation | requestsRoots | stops => cases aside

theorem tokens_congr {s s' : Outbound υ}
    (table : s'.server.outboundPending = s.server.outboundPending)
    (senders : s'.senders = s.senders) (receivers : s'.receivers = s.receivers)
    (completions : s'.server.completions = s.server.completions) (n : Int) :
    s'.tokens n = s.tokens n := by
  simp only [Outbound.tokens, table, senders, receivers, completions]

theorem setSender_tokens {s : Outbound υ} {place : Nat} {t : Sender υ}
    (found : s.senders[place]? = some t) (phase : SenderPhase) (n : Int) :
    (s.setSender place t phase).tokens n + (t.numbers n).toNat =
      s.tokens n + (Sender.numbers n { t with phase }).toNat := by
  have moved := countP_moves (b := { t with phase }) (Sender.numbers n) found
  simp only [Outbound.tokens, Outbound.setSender]
  omega

theorem setReceiver_tokens {s : Outbound υ} {place : Nat} {r : Receiver υ}
    (found : s.receivers[place]? = some r) (phase : ReceiverPhase υ) (n : Int) :
    (s.setReceiver place r phase).tokens n + (r.holds n).toNat =
      s.tokens n + (Receiver.holds n { r with phase }).toNat := by
  have moved := countP_moves (b := { r with phase }) (Receiver.holds n) found
  simp only [Outbound.tokens, Outbound.setReceiver]
  omega

theorem setTable_tokens (s : Outbound υ) (table : AList fun _ : Int => OutboundPending υ) (n : Int) :
    (s.withTable table).tokens n + (s.server.outboundPending.lookup n).isSome.toNat =
      s.tokens n + (table.lookup n).isSome.toNat := by
  simp only [Outbound.tokens, Outbound.withTable]
  omega

theorem erase_tokens (s : Outbound υ) (rid n : Int) :
    (s.withTable (s.server.outboundPending.erase rid)).tokens n ≤ s.tokens n := by
  have counted := setTable_tokens s (s.server.outboundPending.erase rid) n
  by_cases own : n = rid
  · subst own
    rw [AList.lookup_erase] at counted
    simp only [Option.isSome_none, Bool.toNat_false] at counted
    omega
  · rw [AList.lookup_erase_ne own] at counted
    omega

theorem numbers_numbered (pending : OutboundPending υ) (params : Json) (rid n : Int) :
    Sender.numbers n ⟨pending, params, rid, .numbered⟩ = decide (rid = n) := by
  simp [Sender.numbers]

theorem numbers_later {t : Sender υ} (later : t.phase ≠ .numbered) (n : Int) :
    t.numbers n = false := by
  simp [Sender.numbers, later]

theorem register_tokens {s : Outbound υ} {place : Nat} {t : Sender υ}
    (found : s.senders[place]? = some t) (numbered : t.phase = .numbered) (n : Int) :
    ((s.withTable (s.server.outboundPending.insert t.rid t.pending)).setSender place t
      .registered).tokens n ≤ s.tokens n := by
  have table := setTable_tokens s (s.server.outboundPending.insert t.rid t.pending) n
  have moved := setSender_tokens
    (s := s.withTable (s.server.outboundPending.insert t.rid t.pending)) found .registered n
  have before : t.numbers n = decide (t.rid = n) := by
    simp [Sender.numbers, numbered]
  rw [before, numbers_later (by simp)] at moved
  by_cases own : n = t.rid
  · subst own
    simp only [AList.lookup_insert, Option.isSome_some, decide_true, Bool.toNat_true,
      Bool.toNat_false] at table moved
    omega
  · rw [AList.lookup_insert_ne own] at table
    simp only [Bool.toNat_false] at moved
    omega

/-- A sender that has its entry in the table already moves on. -/
theorem sender_moves_tokens {s : Outbound υ} {place : Nat} {t : Sender υ}
    (found : s.senders[place]? = some t) (before : t.phase ≠ .numbered) {phase : SenderPhase}
    (after : phase ≠ .numbered) (n : Int) : (s.setSender place t phase).tokens n = s.tokens n := by
  have moved := setSender_tokens found phase n
  rw [numbers_later before, numbers_later (t := { t with phase }) after] at moved
  exact moved

theorem receiver_moves_tokens {s : Outbound υ} {place : Nat} {r : Receiver υ}
    (found : s.receivers[place]? = some r) {phase : ReceiverPhase υ} {n : Int}
    (before : r.holds n = false) (after : Receiver.holds n { r with phase } = false) :
    (s.setReceiver place r phase).tokens n = s.tokens n := by
  have moved := setReceiver_tokens found phase n
  rw [before, after] at moved
  exact moved

theorem complete_tokens {s : Outbound υ} {place : Nat} {r : Receiver υ}
    (found : s.receivers[place]? = some r) {m : Int} {ok : Bool} {payload : Json}
    (completing : r.phase = .completing m ok payload) (n : Int) :
    (s.complete place r m ok payload).tokens n = s.tokens n := by
  have before : r.holds n = false := by
    simp [Receiver.holds, completing]
  unfold Outbound.complete
  cases entry : s.server.outboundPending.lookup m with
  | none => exact receiver_moves_tokens found before rfl
  | some p =>
    have table := setTable_tokens s (s.server.outboundPending.erase m) n
    have moved := setReceiver_tokens (s := s.withTable (s.server.outboundPending.erase m)) found
      (.calling m p ok payload) n
    have after : Receiver.holds n { r with phase := .calling m p ok payload } = decide (m = n) := rfl
    rw [before, after] at moved
    dsimp only
    by_cases own : n = m
    · subst own
      rw [entry, AList.lookup_erase] at table
      simp only [Option.isSome_some, Option.isSome_none, decide_true, Bool.toNat_true,
        Bool.toNat_false] at table moved
      omega
    · rw [AList.lookup_erase_ne own] at table
      rw [decide_eq_false (Ne.symm own)] at moved
      simp only [Bool.toNat_false] at moved
      omega

theorem callOut_tables (s : Server υ) (p : OutboundPending υ) (c : CompletedRequest) :
    (s.callOut p c).outboundPending = s.outboundPending ∧
      (s.callOut p c).nextOutboundId = s.nextOutboundId ∧
      (s.callOut p c).completions = s.completions ++ [c] ∧
      (s.callOut p c).user = ((p.callback c.ok c.payload).run.run s.user).2 :=
  callBack_tables _ _

theorem callBack_tokens {s : Outbound υ} {place : Nat} {r : Receiver υ}
    (found : s.receivers[place]? = some r) {m : Int} {p : OutboundPending υ} {ok : Bool}
    {payload : Json} (calling : r.phase = .calling m p ok payload) (n : Int) :
    (s.callBack place r m p ok payload).tokens n = s.tokens n := by
  have before : r.holds n = decide (m = n) := by
    simp [Receiver.holds, calling]
  obtain ⟨table, -, completed, -⟩ := callOut_tables s.server p ⟨m, ok, payload⟩
  have moved := countP_moves (b := ({ r with phase := .done } : Receiver υ)) (Receiver.holds n) found
  have after : Receiver.holds n ({ r with phase := .done } : Receiver υ) = false := rfl
  rw [before, after] at moved
  simp only [Outbound.tokens, Outbound.callBack, Outbound.setReceiver, table, completed,
    List.countP_append, List.countP_singleton]
  have answers : CompletedRequest.answers n ⟨m, ok, payload⟩ = decide (m = n) := rfl
  rw [answers]
  by_cases own : m = n
  · simp only [own, decide_true, Bool.toNat_true, Bool.toNat_false, if_true] at moved ⊢
    omega
  · simp only [own, decide_false, Bool.toNat_false] at moved ⊢
    simp only [Bool.false_eq_true, if_false]
    omega

theorem firstPhase_holds (message : ParsedMessage) (raw : Json) (sink : Nat) (n : Int) :
    Receiver.holds n (⟨raw, sink, firstPhase message⟩ : Receiver υ) = false := by
  unfold Receiver.holds firstPhase
  dsimp only
  split <;> split at * <;> simp_all

theorem arrive_tokens (s : Outbound υ) (message : Json) (n : Int) :
    (s.arrive message).tokens n = s.tokens n := by
  have added (server : Server υ) (table : server.outboundPending = s.server.outboundPending)
      (completions : server.completions = s.server.completions) (sink : Nat) :
      Outbound.tokens { s with server, receivers := s.receivers ++
        [⟨message, sink, firstPhase (parseMessage message)⟩] } n = s.tokens n := by
    simp only [Outbound.tokens, table, completions, List.countP_append, List.countP_singleton,
      firstPhase_holds]
    rfl
  unfold Outbound.arrive
  dsimp only
  split <;> exact added _ rfl rfl _

/-- What one step does, with the guard it has passed. -/
inductive Outbound.Moves (s : Outbound υ) : OutboundEvent υ → Outbound υ → Prop
  | serves {event : ServerEvent υ} {server : Server υ} (aside : event.aside = true)
      (stepped : s.server.step info event = some server) :
      s.Moves (.serves event) { s with server }
  | numbers (pending : OutboundPending υ) (params : Json) : s.Moves (.calls pending params) { s with
      server := { s.server with nextOutboundId := s.server.nextOutboundId + 1 }
      senders := s.senders ++ [⟨pending, params, s.server.nextOutboundId, .numbered⟩] }
  | refuses (pending : OutboundPending υ) (params : Json) : s.Moves (.calls pending params) s
  | registers {place : Nat} {t : Sender υ} (found : s.senders[place]? = some t)
      (numbered : t.phase = .numbered) : s.Moves (.registers place)
        ((s.withTable (s.server.outboundPending.insert t.rid t.pending)).setSender place t
          .registered)
  | sends {place : Nat} {t : Sender υ} (found : s.senders[place]? = some t)
      (registered : t.phase = .registered) (sent : List (SessionId × Json)) :
      s.Moves (.sends place true)
        ({ s with server := { s.server with sent } }.setSender place t (.returned true))
  | fails {place : Nat} {t : Sender υ} (found : s.senders[place]? = some t)
      (registered : t.phase = .registered) :
      s.Moves (.sends place false) (s.setSender place t .failing)
  | escapes {place : Nat} {t : Sender υ} (found : s.senders[place]? = some t)
      (registered : t.phase = .registered) :
      s.Moves (.escapes place) (s.setSender place t .escaped)
  | unregisters {place : Nat} {t : Sender υ} (found : s.senders[place]? = some t)
      (failing : t.phase = .failing) (log : List LogEntry) : s.Moves (.unregisters place)
        ({ s with server := { s.server with
          outboundPending := s.server.outboundPending.erase t.rid, log } }.setSender place t
            (.returned false))
  | arrives (message : Json) : s.Moves (.arrives message) (s.arrive message)
  | finds {place : Nat} {r : Receiver υ} {n : Int} {resp : JsonRpcErrorResponse}
      (found : s.receivers[place]? = some r) (checking : r.phase = .checking n resp)
      (outstanding : s.server.isOutbound (.int n) = true) : s.Moves (.checks place)
        (s.setReceiver place r (.completing n false
          (errorObject resp.error.code resp.error.message resp.error.data)))
  | misses {place : Nat} {r : Receiver υ} {n : Int} {resp : JsonRpcErrorResponse}
      (found : s.receivers[place]? = some r) (checking : r.phase = .checking n resp) :
      s.Moves (.checks place)
        ({ s with server := s.server.returnError r.sink resp }.setReceiver place r .done)
  | completes {place : Nat} {r : Receiver υ} {n : Int} {ok : Bool} {payload : Json}
      (found : s.receivers[place]? = some r) (completing : r.phase = .completing n ok payload) :
      s.Moves (.completes place) (s.complete place r n ok payload)
  | callsBack {place : Nat} {r : Receiver υ} {n : Int} {p : OutboundPending υ} {ok : Bool}
      {payload : Json} (found : s.receivers[place]? = some r)
      (calling : r.phase = .calling n p ok payload) :
      s.Moves (.callsBack place) (s.callBack place r n p ok payload)
  | stops : s.Moves .stops { s with server := { s.server with stopping := true, running := false } }
  | clears : s.Moves .clears
      { s with server := { s.server with outboundPending := ∅, jobs := [], deliveries := [] } }

theorem outbound_moves {s s' : Outbound υ} {event : OutboundEvent υ}
    (h : s.step info event = some s') : s.Moves info event s' := by
  cases event with
  | serves event =>
    simp only [Outbound.step] at h
    split at h
    · obtain ⟨server, stepped, rfl⟩ := Option.map_eq_some_iff.mp h
      exact .serves ‹_› stepped
    · cases h
  | calls pending params =>
    simp only [Outbound.step] at h
    split at h
    · cases h
      exact .numbers pending params
    · cases h
      exact .refuses pending params
  | registers place =>
    simp only [Outbound.step] at h
    split at h
    · split at h
      · cases h
        exact .registers ‹_› ‹_›
      · cases h
    · cases h
  | sends place takes =>
    simp only [Outbound.step] at h
    split at h
    · split at h
      · cases h
        cases takes with
        | true => exact .sends ‹_› ‹_› _
        | false => exact .fails ‹_› ‹_›
      · cases h
    · cases h
  | escapes place =>
    simp only [Outbound.step] at h
    split at h
    · split at h
      · cases h
        exact .escapes ‹_› ‹_›
      · cases h
    · cases h
  | unregisters place =>
    simp only [Outbound.step] at h
    split at h
    · split at h
      · cases h
        exact .unregisters ‹_› ‹_› _
      · cases h
    · cases h
  | arrives message =>
    simp only [Outbound.step, Option.ite_none_left_eq_some] at h
    obtain ⟨-, h⟩ := h
    split at h
    · cases h
      exact .arrives message
    · cases h
      exact .arrives message
    · cases h
    · cases h
  | checks place =>
    simp only [Outbound.step] at h
    split at h
    · split at h
      · cases h
        split
        · exact .finds ‹_› ‹_› ‹_›
        · exact .misses ‹_› ‹_›
      · cases h
    · cases h
  | completes place =>
    simp only [Outbound.step] at h
    split at h
    · split at h
      · cases h
        exact .completes ‹_› ‹_›
      · cases h
    · cases h
  | callsBack place =>
    simp only [Outbound.step] at h
    split at h
    · split at h
      · cases h
        exact .callsBack ‹_› ‹_›
      · cases h
    · cases h
  | stops =>
    cases h
    exact .stops
  | clears =>
    simp only [Outbound.step] at h
    split at h
    · cases h
      exact .clears
    · cases h

theorem not_numbered {t : Sender υ} {phase : SenderPhase} (at_phase : t.phase = phase)
    (later : phase ≠ .numbered) : t.phase ≠ .numbered := by
  rw [at_phase]
  exact later

/-- The requests made so far, each with its id. -/
def Outbound.asked (s : Outbound υ) : List (Int × OutboundPending υ) :=
  s.senders.map fun t => (t.rid, t.pending)

theorem setSender_asked {s : Outbound υ} {place : Nat} {t : Sender υ}
    (found : s.senders[place]? = some t) (phase : SenderPhase) :
    (s.setSender place t phase).asked = s.asked :=
  map_moves (fun t : Sender υ => (t.rid, t.pending)) found rfl

/-- The requests of the server and what was called back for them are the same. -/
structure Outbound.SameRequests (s s' : Outbound υ) : Prop where
  outboundPending : s'.server.outboundPending = s.server.outboundPending
  nextOutboundId : s'.server.nextOutboundId = s.server.nextOutboundId
  asked : s'.asked = s.asked
  completions : s'.server.completions = s.server.completions
  user : s'.server.user = s.server.user

theorem arrive_same (s : Outbound υ) (message : Json) : s.SameRequests (s.arrive message) := by
  unfold Outbound.arrive
  dsimp only
  split <;> exact ⟨rfl, rfl, rfl, rfl, rfl⟩

/-- A step hands out the next id or makes no places for any request. -/
theorem step_tokens {s s' : Outbound υ} {event : OutboundEvent υ} (h : s.step info event = some s') :
    (s'.server.nextOutboundId = s.server.nextOutboundId ∧ s'.asked = s.asked ∧
      ∀ n, s'.tokens n ≤ s.tokens n) ∨
    s'.server.nextOutboundId = s.server.nextOutboundId + 1 ∧
      (∃ p, s'.asked = s.asked ++ [(s.server.nextOutboundId, p)]) ∧
      ∀ n, s'.tokens n = s.tokens n + (decide (s.server.nextOutboundId = n)).toNat := by
  cases outbound_moves info h with
  | @serves event server aside stepped =>
    obtain ⟨table, next, completions⟩ := step_aside info aside stepped
    refine .inl ⟨next, rfl, fun n => Nat.le_of_eq ?_⟩
    apply tokens_congr
    exacts [table, rfl, rfl, completions]
  | numbers pending params =>
    refine .inr ⟨rfl, ⟨pending, List.map_append⟩, fun n => ?_⟩
    simp only [Outbound.tokens, List.countP_append, List.countP_singleton, numbers_numbered]
    by_cases own : s.server.nextOutboundId = n
    · simp only [own, decide_true, Bool.toNat_true, if_true]
      omega
    · simp only [own, decide_false, Bool.toNat_false, Bool.false_eq_true, if_false]
      omega
  | refuses => exact .inl ⟨rfl, rfl, fun n => Nat.le_refl _⟩
  | registers found numbered =>
    exact .inl ⟨rfl, setSender_asked found _, register_tokens found numbered⟩
  | sends found registered sent =>
    refine .inl ⟨rfl, setSender_asked found _, fun n => Nat.le_of_eq ?_⟩
    exact sender_moves_tokens found (not_numbered registered (by decide)) (by decide) n
  | fails found registered =>
    refine .inl ⟨rfl, setSender_asked found _, fun n => Nat.le_of_eq ?_⟩
    exact sender_moves_tokens found (not_numbered registered (by decide)) (by decide) n
  | escapes found registered =>
    refine .inl ⟨rfl, setSender_asked found _, fun n => Nat.le_of_eq ?_⟩
    exact sender_moves_tokens found (not_numbered registered (by decide)) (by decide) n
  | @unregisters place t found failing log =>
    refine .inl ⟨rfl, setSender_asked found _, fun n => Nat.le_trans ?_ (erase_tokens s t.rid n)⟩
    apply Nat.le_of_eq
    have returned : SenderPhase.returned false ≠ .numbered := by decide
    exact sender_moves_tokens (s := s.withTable (s.server.outboundPending.erase t.rid)) found
      (not_numbered failing (by decide)) returned n
  | arrives message =>
    obtain ⟨-, next, asked, -⟩ := arrive_same s message
    exact .inl ⟨next, asked, fun n => Nat.le_of_eq (arrive_tokens s message n)⟩
  | finds found checking outstanding =>
    refine .inl ⟨rfl, rfl, fun n => Nat.le_of_eq (receiver_moves_tokens found ?_ rfl)⟩
    simp [Receiver.holds, checking]
  | misses found checking =>
    refine .inl ⟨rfl, rfl, fun n => Nat.le_of_eq (receiver_moves_tokens found ?_ rfl)⟩
    simp [Receiver.holds, checking]
  | @completes place r m ok payload found completing =>
    have same : (s.complete place r m ok payload).server.nextOutboundId =
        s.server.nextOutboundId ∧ (s.complete place r m ok payload).asked = s.asked := by
      unfold Outbound.complete
      split <;> exact ⟨rfl, rfl⟩
    exact .inl ⟨same.1, same.2, fun n => Nat.le_of_eq (complete_tokens found completing n)⟩
  | @callsBack place r m p ok payload found calling =>
    obtain ⟨-, next, -⟩ := callOut_tables s.server p ⟨m, ok, payload⟩
    exact .inl ⟨next, rfl, fun n => Nat.le_of_eq (callBack_tokens found calling n)⟩
  | stops => exact .inl ⟨rfl, rfl, fun n => Nat.le_refl _⟩
  | clears =>
    refine .inl ⟨rfl, rfl, fun n => ?_⟩
    simp only [Outbound.tokens, AList.lookup_empty, Option.isSome_none, Bool.toNat_false]
    omega

/-- The message is a response to the request `n`, with a result or as an error. -/
def CarriesId (message : Json) (n : Int) (ok : Bool) : Prop :=
  (ok = true ∧ ∃ result, parseMessage message = .success ⟨.int n, result⟩) ∨
  ok = false ∧ ∃ error, parseMessage message = .error ⟨.int n, error⟩

/-- What a response is handled for is the request that it carries the id of. -/
def Receiver.Carries (asked : List (Int × OutboundPending υ)) (r : Receiver υ) : Prop :=
  match r.phase with
  | .checking n _ => CarriesId r.message n false
  | .completing n ok _ => CarriesId r.message n ok
  | .calling n p ok _ => CarriesId r.message n ok ∧ (n, p) ∈ asked
  | .done => True

theorem Receiver.Carries.mono {asked asked' : List (Int × OutboundPending υ)} {r : Receiver υ}
    (carries : r.Carries asked) (more : ∀ q ∈ asked, q ∈ asked') : r.Carries asked' := by
  unfold Receiver.Carries at carries ⊢
  cases phase : r.phase <;> simp only [phase] at carries ⊢
  · exact carries
  · exact carries
  · exact ⟨carries.1, more _ carries.2⟩

structure OutboundInv (s : Outbound υ) : Prop where
  below : ∀ q ∈ s.asked, q.1 < s.server.nextOutboundId
  distinct : (s.asked.map Prod.fst).Nodup
  once : ∀ n, s.tokens n ≤ 1
  fresh : ∀ n, s.server.nextOutboundId ≤ n → s.tokens n = 0
  owned : ∀ n p, s.server.outboundPending.lookup n = some p → (n, p) ∈ s.asked
  carried : ∀ r ∈ s.receivers, r.Carries s.asked

theorem OutboundInv.initial (user : υ) : OutboundInv (Outbound.initial user) where
  below q member := by cases member
  distinct := List.nodup_nil
  once n := Nat.zero_le _
  fresh n _ := rfl
  owned n p found := by cases found
  carried r member := by cases member

theorem firstPhase_carries (asked : List (Int × OutboundPending υ)) (message : Json) (sink : Nat) :
    Receiver.Carries asked ⟨message, sink, firstPhase (parseMessage message)⟩ := by
  unfold Receiver.Carries firstPhase
  cases parsed : parseMessage message with
  | success resp =>
    obtain ⟨id, result⟩ := resp
    cases id with
    | int n => exact .inl ⟨rfl, result, parsed⟩
    | _ => trivial
  | error resp =>
    obtain ⟨id, error⟩ := resp
    cases id with
    | int n => exact .inr ⟨rfl, error, parsed⟩
    | _ => trivial
  | _ => trivial

theorem arrive_receivers (s : Outbound υ) (message : Json) :
    (s.arrive message).receivers = s.receivers ++
      [⟨message, s.server.arrivals.length, firstPhase (parseMessage message)⟩] := by
  unfold Outbound.arrive
  dsimp only
  split <;> rfl

/-- An entry of the table was there before or has just been put there by its sender. -/
theorem step_table {s s' : Outbound υ} {event : OutboundEvent υ} (h : s.step info event = some s')
    {n : Int} {p : OutboundPending υ} (found : s'.server.outboundPending.lookup n = some p) :
    s.server.outboundPending.lookup n = some p ∨ (n, p) ∈ s.asked := by
  have erased {rid : Int} (found : (s.server.outboundPending.erase rid).lookup n = some p) :
      s.server.outboundPending.lookup n = some p := by
    exact (lookup_erase found).2
  cases outbound_moves info h with
  | @serves event server aside stepped =>
    obtain ⟨table, -⟩ := step_aside info aside stepped
    rw [← table]
    exact .inl found
  | @registers place t at_place numbered =>
    by_cases own : n = t.rid
    · subst own
      have same : t.pending = p := by
        simpa [Outbound.setSender, Outbound.withTable, AList.lookup_insert] using found
      subst same
      exact .inr (List.mem_map.mpr ⟨t, List.mem_of_getElem? at_place, rfl⟩)
    · apply Or.inl
      simpa [Outbound.setSender, Outbound.withTable, AList.lookup_insert_ne own] using found
  | unregisters at_place failing log => exact .inl (erased found)
  | arrives message =>
    rw [← (arrive_same s message).outboundPending]
    exact .inl found
  | completes at_place completing =>
    unfold Outbound.complete at found
    split at found
    · exact .inl found
    · exact .inl (erased found)
  | @callsBack place r m q ok payload at_place calling =>
    obtain ⟨table, -⟩ := callOut_tables s.server q ⟨m, ok, payload⟩
    rw [← table]
    exact .inl found
  | clears => cases found
  | _ => exact .inl found

theorem setReceiver_carried {s : Outbound υ} (inv : OutboundInv s) {place : Nat} {r : Receiver υ}
    {phase : ReceiverPhase υ} (carries : Receiver.Carries s.asked { r with phase }) :
    ∀ r' ∈ s.receivers.set place { r with phase }, r'.Carries s.asked := by
  intro r' member
  rcases List.mem_or_eq_of_mem_set member with old | rfl
  · exact inv.carried r' old
  · exact carries

theorem step_carried {s s' : Outbound υ} (inv : OutboundInv s) {event : OutboundEvent υ}
    (h : s.step info event = some s') : ∀ r ∈ s'.receivers, r.Carries s.asked := by
  have carried {place : Nat} {r : Receiver υ} (found : s.receivers[place]? = some r) :
      r.Carries s.asked := inv.carried r (List.mem_of_getElem? found)
  cases outbound_moves info h with
  | arrives message =>
    rw [arrive_receivers]
    intro r member
    rcases List.mem_append.mp member with old | new
    · exact inv.carried r old
    · cases List.mem_singleton.mp new
      exact firstPhase_carries s.asked message _
  | finds found checking outstanding =>
    have before := carried found
    simp only [Receiver.Carries, checking] at before
    exact setReceiver_carried inv before
  | misses found checking => exact setReceiver_carried inv trivial
  | completes found completing =>
    have before := carried found
    simp only [Receiver.Carries, completing] at before
    unfold Outbound.complete
    split
    · exact setReceiver_carried inv trivial
    · rename_i p entry
      have owned : (_, p) ∈ s.asked := inv.owned _ p entry
      refine setReceiver_carried inv ?_
      exact ⟨before, owned⟩
  | callsBack found calling => exact setReceiver_carried inv trivial
  | _ => exact inv.carried

theorem step_outbound {s s' : Outbound υ} (inv : OutboundInv s) {event : OutboundEvent υ}
    (h : s.step info event = some s') : OutboundInv s' := by
  have table := @step_table υ info s s' event h
  have carried := step_carried info inv h
  rcases step_tokens info h with ⟨next, asked, tokens⟩ | ⟨next, ⟨p, asked⟩, tokens⟩
  · refine ⟨?_, ?_, fun n => (tokens n).trans (inv.once n), fun n late => ?_, fun n p found => ?_, ?_⟩
    · rw [asked, next]
      exact inv.below
    · rw [asked]
      exact inv.distinct
    · have before := inv.fresh n (by omega)
      have fewer := tokens n
      omega
    · rw [asked]
      exact (table found).elim (inv.owned n p) id
    · rw [asked]
      exact carried
  · have grows : ∀ q ∈ s.asked, q ∈ s'.asked := by
      intro q member
      rw [asked]
      exact List.mem_append_left _ member
    refine ⟨fun q member => ?_, ?_, fun n => ?_, fun n late => ?_, fun n p found => ?_,
      fun r member => (carried r member).mono grows⟩
    · rw [asked] at member
      rcases List.mem_append.mp member with old | new
      · have below := inv.below q old
        omega
      · cases List.mem_singleton.mp new
        show s.server.nextOutboundId < s'.server.nextOutboundId
        omega
    · rw [asked, List.map_append, List.nodup_append]
      refine ⟨inv.distinct, by simp, ?_⟩
      intro a old b new
      obtain ⟨q, member, rfl⟩ := List.mem_map.mp old
      have below := inv.below q member
      have same : b = s.server.nextOutboundId := by simpa using new
      omega
    · rw [tokens]
      by_cases own : s.server.nextOutboundId = n
      · have unused := inv.fresh n (by omega)
        rw [decide_eq_true own, unused]
        decide
      · rw [decide_eq_false own]
        exact inv.once n
    · have unused := inv.fresh n (by omega)
      rw [tokens, decide_eq_false (by omega), unused]
      rfl
    · exact grows _ ((table found).elim (inv.owned n p) id)

theorem run_outbound {user : υ} {events : List (OutboundEvent υ)} {s : Outbound υ}
    (h : run (Outbound.step info) (Outbound.initial user) events = some s) : OutboundInv s :=
  run_keeps (fun _ _ _ inv stepped => step_outbound info inv stepped) (.initial user) h

/-- Undisturbed, a call of `send_server_request` is the atomic one. -/
theorem sendServerRequest_steps (s : Outbound υ) (p : OutboundPending υ) (params : Json)
    (takes : Bool) (runs : (s.server.transport && s.server.running) = true) :
    (run (Outbound.step info) s ([.calls p params, .registers s.senders.length,
        .sends s.senders.length takes] ++
          if takes then [] else [.unregisters s.senders.length])).map (fun s => s.server) =
      some (s.server.sendServerRequest p params takes) := by
  cases takes <;>
    simp [run, Outbound.step, runs, Outbound.setSender, Outbound.withTable,
      Server.sendServerRequest]

/-- Undisturbed, the handling of a response is the atomic one. -/
theorem onMessage_steps (s : Outbound υ) (message : Json) (sessionId : SessionId) (batch : Bool)
    (serves : s.server.stopping = false)
    (response : (ServerEvent.arrives (υ := υ) message sessionId batch).aside = false) :
    ∃ events s', run (Outbound.step info) s (.arrives message :: events) = some s' ∧
      s'.server = s.server.onMessage info message sessionId batch := by
  simp only [ServerEvent.aside] at response
  cases parsed : parseMessage message with
  | request req =>
    rw [parsed] at response
    cases response
  | notification notif =>
    rw [parsed] at response
    cases response
  | success resp =>
    obtain ⟨id, result⟩ := resp
    cases id with
    | int n =>
      cases found : s.server.outboundPending.lookup n with
      | none =>
        refine ⟨[.completes s.receivers.length], ?_⟩
        simp [run, Outbound.step, serves, parsed, Outbound.arrive, firstPhase, Outbound.complete,
          Server.arrived, found, Outbound.setReceiver, Server.onMessage, Server.onClientResponse,
          Server.completeServerRequest]
      | some p =>
        refine ⟨[.completes s.receivers.length, .callsBack s.receivers.length], ?_⟩
        simp [run, Outbound.step, serves, parsed, Outbound.arrive, firstPhase, Outbound.complete,
          Server.arrived, found, Outbound.setReceiver, Outbound.withTable, Outbound.callBack,
          Server.callOut, Server.onMessage, Server.onClientResponse, Server.completeServerRequest]
    | _ =>
      refine ⟨[], ?_⟩
      simp [run, Outbound.step, serves, parsed, Outbound.arrive, Server.onMessage,
        Server.onClientResponse]
  | error resp =>
    obtain ⟨id, error⟩ := resp
    cases id with
    | int n =>
      cases found : s.server.outboundPending.lookup n with
      | none =>
        refine ⟨[.checks s.receivers.length], ?_⟩
        simp [run, Outbound.step, serves, parsed, Outbound.arrive, firstPhase, Server.isOutbound,
          Server.arrived, found, Outbound.setReceiver, Server.returnError, Server.onMessage]
      | some p =>
        refine ⟨[.checks s.receivers.length, .completes s.receivers.length,
          .callsBack s.receivers.length], ?_⟩
        simp [run, Outbound.step, serves, parsed, Outbound.arrive, firstPhase, Server.isOutbound,
          Outbound.complete, Server.arrived, found, Outbound.setReceiver, Outbound.withTable,
          Outbound.callBack, Server.callOut, Server.onMessage, Server.onClientErrorResponse,
          Server.completeServerRequest]
    | _ =>
      refine ⟨[], ?_⟩
      simp [run, Outbound.step, serves, parsed, Outbound.arrive, Server.returnError,
        Server.onMessage, Server.isOutbound, Server.arrived]

/-- Whatever the thread does next about the request `n` is to look for it. -/
def Receiver.looksFor (r : Receiver υ) (n : Int) : Prop :=
  (∃ resp, r.phase = .checking n resp) ∨ ∃ ok payload, r.phase = .completing n ok payload

/-- The step calls a callback of a request back, in the handling of a response to it. -/
def Outbound.CallsBack (s s' : Outbound υ) (event : OutboundEvent υ) : Prop :=
  ∃ place r n p ok payload, event = .callsBack place ∧ s.receivers[place]? = some r ∧
    CarriesId r.message n ok ∧ (n, p) ∈ s.asked ∧
    s'.server.completions = s.server.completions ++ [⟨n, ok, payload⟩] ∧
    s'.server.user = ((p.callback ok payload).run.run s.server.user).2

theorem step_completions {s s' : Outbound υ} (inv : OutboundInv s) {event : OutboundEvent υ}
    (h : s.step info event = some s') :
    s'.server.completions = s.server.completions ∨ s.CallsBack s' event := by
  cases outbound_moves info h with
  | serves aside stepped =>
    obtain ⟨-, -, completions⟩ := step_aside info aside stepped
    exact .inl completions
  | arrives message => exact .inl (arrive_same s message).completions
  | completes found completing =>
    apply Or.inl
    unfold Outbound.complete
    split <;> rfl
  | @callsBack place r n p ok payload found calling =>
    have carries := inv.carried r (List.mem_of_getElem? found)
    simp only [Receiver.Carries, calling] at carries
    obtain ⟨-, -, completions, user⟩ := callOut_tables s.server p ⟨n, ok, payload⟩
    exact .inr ⟨place, r, n, p, ok, payload, rfl, found, carries.1, carries.2, completions, user⟩
  | _ => exact .inl rfl

theorem step_unknown {s s' : Outbound υ} {place : Nat} {r : Receiver υ} {n : Int}
    {event : OutboundEvent υ} (at_place : s.receivers[place]? = some r) (looks : r.looksFor n)
    (unknown : s.server.outboundPending.lookup n = none)
    (own : event = .checks place ∨ event = .completes place) (h : s.step info event = some s') :
    s.SameRequests s' ∧ s'.receivers = s.receivers.set place { r with phase := .done } := by
  have outbound : s.server.isOutbound (.int n) = false := by
    simp [Server.isOutbound, unknown]
  rcases own with rfl | rfl
  · rcases looks with ⟨resp, checking⟩ | ⟨ok, payload, completing⟩
    · simp only [Outbound.step, at_place, checking, outbound] at h
      cases h
      exact ⟨⟨rfl, rfl, rfl, rfl, rfl⟩, rfl⟩
    · simp only [Outbound.step, at_place, completing] at h
      cases h
  · rcases looks with ⟨resp, checking⟩ | ⟨ok, payload, completing⟩
    · simp only [Outbound.step, at_place, checking] at h
      cases h
    · simp only [Outbound.step, at_place, completing, Outbound.complete, unknown] at h
      cases h
      exact ⟨⟨rfl, rfl, rfl, rfl, rfl⟩, rfl⟩

theorem numbered_not_listed {s : Outbound υ} (inv : OutboundInv s) {t : Sender υ}
    (member : t ∈ s.senders) (numbered : t.phase = .numbered) :
    s.server.outboundPending.lookup t.rid = none := by
  have counted : 0 < s.senders.countP (Sender.numbers t.rid) :=
    List.countP_pos_iff.mpr ⟨t, member, by simp [Sender.numbers, numbered]⟩
  have once := inv.once t.rid
  unfold Outbound.tokens at once
  cases found : s.server.outboundPending.lookup t.rid with
  | none => rfl
  | some p =>
    rw [found, Option.isSome_some, Bool.toNat_true] at once
    omega

/-- In every interleaving: the ids of the requests are distinct and what is outstanding is one of
    them, each is called back at most once and by a response to it, and a response to what is not
    outstanding is dropped. -/
theorem server_requests_complete_once (user : υ) (events : List (OutboundEvent υ)) (s : Outbound υ)
    (h : run (Outbound.step info) (Outbound.initial user) events = some s) :
    ((s.asked.map Prod.fst).Nodup ∧
      (∀ n p, s.server.outboundPending.lookup n = some p → (n, p) ∈ s.asked) ∧
      ∀ t ∈ s.senders, t.phase = .numbered → s.server.outboundPending.lookup t.rid = none) ∧
    (∀ n, s.server.completions.countP (CompletedRequest.answers n) ≤ 1) ∧
    (∀ event s', s.step info event = some s' →
      s'.server.completions = s.server.completions ∨ s.CallsBack s' event) ∧
    (∀ message s', s.step info (.arrives message) = some s' → s.SameRequests s') ∧
    (∀ event s' place r n, s.step info event = some s' → s.receivers[place]? = some r →
      r.looksFor n → s.server.outboundPending.lookup n = none →
      event = .checks place ∨ event = .completes place →
      s.SameRequests s' ∧ s'.receivers = s.receivers.set place { r with phase := .done }) := by
  have inv : OutboundInv s := run_outbound info h
  refine ⟨⟨inv.distinct, inv.owned, fun t => numbered_not_listed inv⟩, fun n => ?_,
    fun event s' => step_completions info inv, fun message s' stepped => ?_,
    fun event s' place r n stepped found looks unknown own =>
      step_unknown info found looks unknown own stepped⟩
  · have once := inv.once n
    unfold Outbound.tokens at once
    omega
  · cases outbound_moves info stepped
    exact arrive_same s message

/-- The answer comes before the send has returned. -/
def answeredEarly : List (OutboundEvent Unit) :=
  [.serves (.runs true), .calls ⟨Protocol.methodRootsList, [], fun _ => pure (), fun _ _ => pure ()⟩
    (.object []), .registers 0, .arrives (makeSuccessResponse (.int 1) (.object [])), .completes 0,
    .callsBack 0, .sends 0 true]

theorem answered_early_once : ∃ s,
    run (Outbound.step {}) (Outbound.initial ()) answeredEarly = some s ∧
    s.server.completions.map (·.id) = [1] ∧
    ∀ n, s.server.completions.countP (CompletedRequest.answers n) ≤ 1 := by
  refine ⟨_, rfl, rfl, ?_⟩
  exact (server_requests_complete_once {} () answeredEarly _ rfl).2.1

end CppMcp
