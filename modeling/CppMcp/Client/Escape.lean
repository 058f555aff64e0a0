import CppMcp.Client.Correlation

namespace CppMcp

open Lib

def ClientEvent.arrivesTyped : ClientEvent → Bool
  | .arrives message => !mistypedProgress message
  | _ => true

/-- The io loop runs, and no queued message can end it. -/
structure LoopSafe (c : Client) : Prop where
  alive : c.ioAlive = true
  typed : ∀ message, .message message ∈ c.strand → mistypedProgress message = false

variable (env : ClientEnv)

theorem runTask_alive {c : Client} {task : Task}
    (typed : ∀ message, task = .message message → mistypedProgress message = false) :
    (c.runTask env task).ioAlive = c.ioAlive := by
  rcases runTask_cases env c task with ⟨pr, params, -, eq⟩ | ⟨-, settles⟩ |
    ⟨message, e, same, thrown, -⟩
  · rw [eq]
    exact (registerTask_flags c pr params).2.1
  · exact settles.ioAlive
  · obtain ⟨c', returned⟩ := (onTransportMessage_ok_iff env c message).mpr (typed message same)
    rw [thrown] at returned
    cases returned

theorem step_alive {c c' : Client} {event : ClientEvent} (safe : LoopSafe c)
    (h : c.step env event = some c') : c'.ioAlive = c.ioAlive := by
  cases step_cases h with
  | runTask task rest head =>
    refine runTask_alive env fun message same => safe.typed message ?_
    rw [head, same]
    exact List.mem_cons_self
  | tests thread args =>
    unfold Client.submitTest
    split <;> rfl
  | builds thread args =>
    simp only [Client.submitBuild]
    split <;> rfl
  | disconnectInline | stopDrainsInline => exact (drain_settles env _ _).ioAlive
  | runCallback job rest => exact (fire_aside env _ job).ioAlive
  | _ => rfl

theorem step_loopSafe {c c' : Client} {event : ClientEvent} (safe : LoopSafe c)
    (arrives : event.arrivesTyped = true) (h : c.step env event = some c') : LoopSafe c' := by
  refine ⟨(step_alive env safe h).trans safe.alive, fun message member => ?_⟩
  obtain ⟨old, tasks, strand, may, which⟩ := step_strand env h
  rw [strand] at member
  rcases List.mem_append.mp member with member | member
  · rcases which with rfl | ⟨-, task, head⟩
    · exact safe.typed message member
    · apply safe.typed message
      rw [head]
      exact List.mem_cons_of_mem task member
  · have posted := may _ member
    cases event with
    | arrives message' =>
      cases posted
      simpa [ClientEvent.arrivesTyped] using arrives
    | _ => exact posted.elim

theorem run_loopSafe {transport : Bool} {events : List ClientEvent} {c : Client}
    (typed : Meets (Client.step env) (fun _ e => e.arrivesTyped = true)
      (Client.initial transport) events)
    (h : run (Client.step env) (Client.initial transport) events = some c) : LoopSafe c :=
  run_invariant (fun _ _ _ safe arrives h => step_loopSafe env safe arrives h)
    ⟨rfl, fun _ member => by simp [Client.initial] at member⟩ typed h

/-- A message makes `on_transport_message` throw exactly when it is a mistyped progress
    notification, and without one the io loop outlives every run. -/
theorem loop_survives (transport : Bool) (events : List ClientEvent) (c : Client)
    (h : run (Client.step env) (Client.initial transport) events = some c) :
    (∀ message, (∃ c', c.onTransportMessage env message = .ok c') ↔
      mistypedProgress message = false) ∧
    (Meets (Client.step env) (fun _ e => e.arrivesTyped = true) (Client.initial transport) events →
      c.ioAlive = true ∧ ∀ message, .message message ∈ c.strand →
        ∃ c', c.onTransportMessage env message = .ok c') := by
  refine ⟨fun message => onTransportMessage_ok_iff env c message, fun typed => ?_⟩
  have safe := run_loopSafe env typed h
  exact ⟨safe.alive, fun message member =>
    (onTransportMessage_ok_iff env c message).mpr (safe.typed message member)⟩

/-- A progress notification whose `progress` is a text. -/
def textualProgress : Json :=
  serializeNotification ⟨Protocol.notifProgress,
    some (.mk [("progressToken", .integer 1), ("progress", .string "x")])⟩

theorem loop_survives_arrival :
    ∃ c, run (Client.step {}) (Client.initial true) (handshake ++ [.arrives handshakeReply]) = some c ∧
      (∃ c', c.onTransportMessage {} handshakeReply = .ok c') ∧ c.ioAlive = true := by
  have runs : (run (Client.step {}) (Client.initial true)
      (handshake ++ [.arrives handshakeReply])).isSome = true := by decide
  obtain ⟨c, h⟩ := Option.isSome_iff_exists.mp runs
  have holds := loop_survives {} true _ c h
  exact ⟨c, h, (holds.1 handshakeReply).mpr (by decide), (holds.2 (by decide)).1⟩

/-- The textual progress ends the io loop of a client that owns it. -/
theorem textual_progress_kills_loop :
    (∀ c : Client, ∃ e, c.onTransportMessage {} textualProgress = .error e) ∧
    ∃ c, run (Client.step {}) (Client.initial true)
      (handshake ++ [.arrives textualProgress, .runTask]) = some c ∧ c.ioAlive = false := by
  refine ⟨fun c => ?_, ?_⟩
  · cases returned : c.onTransportMessage {} textualProgress with
    | error e => exact ⟨e, rfl⟩
    | ok c' =>
      have typed := (onTransportMessage_ok_iff {} c textualProgress).mp ⟨c', returned⟩
      exact absurd typed (by decide)
  · have shape : (run (Client.step {}) (Client.initial true)
        (handshake ++ [.arrives textualProgress, .runTask])).map (fun c => c.ioAlive) =
        some false := by decide
    exact Option.map_eq_some_iff.mp shape

end CppMcp
