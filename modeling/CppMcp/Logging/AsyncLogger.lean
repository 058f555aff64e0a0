import CppMcp.Lib.Run
import CppMcp.Lib.Threads
import CppMcp.Protocol

namespace CppMcp

open Lib

def maxQueuedMessages : Nat := 1024

/-- Where `drain_thread_` is in `drain_loop`: about to lock the mutex, asleep in `cv_.wait`, writing
    what it took, or returned. -/
inductive DrainThread where
  | looping
  | asleep
  | writing (msg : Bytes)
  | returned
deriving DecidableEq

/-- A call of `log` that got past its check: about to lock the mutex, about to notify, returned. -/
inductive LogCall where
  | locking (msg : Bytes)
  | notifying
  | returned
deriving DecidableEq

/-- The call of `flush` that set `flushed_`: before `stopping_`, before `notify_all`, in `join`,
    before the swap, writing what it swapped out, and returned. -/
inductive FlushCall where
  | absent
  | stopping
  | notifying
  | joining
  | joined
  | writing (remaining : List Bytes)
  | returned
deriving DecidableEq

/-- An `AsyncLogger` with the threads in it. `accepted`, `dropped` and `written` record what `log`
    queued, what it threw away and what reached stderr. -/
structure AsyncLogger where
  queue : List Bytes := []
  stopping : Bool := false
  flushed : Bool := false
  drain : DrainThread := .looping
  logging : List LogCall := []
  flushing : FlushCall := .absent
  accepted : List Bytes := []
  dropped : List Bytes := []
  written : List Bytes := []
deriving DecidableEq

/-- What the threads do, one critical section, one write or one notification each. `flushed_` is
    read relaxed, so a call of `log` may not see it yet: it is `stale`. `wakes` is a spurious end
    of the wait. -/
inductive LoggerEvent where
  | logs (msg : Bytes) (stale : Bool)
  | flushes
  | wakes
  | logGoes (place : Nat)
  | drainGoes
  | flushGoes
deriving DecidableEq

def DrainThread.wake : DrainThread → DrainThread
  | asleep => looping
  | drain => drain

/-- What the drain thread has taken and not written. -/
def DrainThread.hand : DrainThread → List Bytes
  | writing msg => [msg]
  | _ => []

/-- What `flush` has swapped out and not written. -/
def FlushCall.hand : FlushCall → List Bytes
  | writing remaining => remaining
  | _ => []

/-- `stopping_` is set. -/
def FlushCall.stops : FlushCall → Bool
  | absent | stopping => false
  | _ => true

/-- `join` has returned. -/
def FlushCall.joins : FlushCall → Bool
  | joined | writing _ | returned => true
  | _ => false

/-- The queue has been swapped out. -/
def FlushCall.swaps : FlushCall → Bool
  | writing _ | returned => true
  | _ => false

/-- The steps that the threads in the logger have left, at most: a message costs one step to take
    and one to write, a notification may cost the drain thread a turn. -/
def DrainThread.work : DrainThread → Nat
  | looping => 1
  | writing _ => 2
  | asleep | returned => 0

def LogCall.work : LogCall → Nat
  | locking _ => 5
  | notifying => 2
  | returned => 0

def FlushCall.work : FlushCall → Nat
  | absent | returned => 0
  | stopping => 6
  | notifying => 5
  | joining => 3
  | joined => 2
  | writing remaining => remaining.length + 1

/-- A thread that is in the logger goes on: nobody calls it, and no wait ends by itself. -/
def LoggerEvent.inside : LoggerEvent → Bool
  | logGoes _ | drainGoes | flushGoes => true
  | logs _ _ | flushes | wakes => false

namespace AsyncLogger

def log (s : AsyncLogger) (msg : Bytes) (stale : Bool) : AsyncLogger :=
  if s.flushed && !stale then { s with dropped := s.dropped ++ [msg] }
  else { s with logging := s.logging ++ [.locking msg] }

/-- A call of `log` goes on. -/
def logGoes (s : AsyncLogger) (place : Nat) : LogCall → Option AsyncLogger
  | .locking msg =>
    if maxQueuedMessages ≤ s.queue.length then
      some { s with
        dropped := s.dropped ++ [msg]
        logging := s.logging.set place .returned }
    else
      some { s with
        queue := s.queue ++ [msg]
        accepted := s.accepted ++ [msg]
        logging := s.logging.set place .notifying }
  | .notifying => some { s with drain := s.drain.wake, logging := s.logging.set place .returned }
  | .returned => none

/-- `drain_loop` goes on. The predicate of the wait is evaluated under the mutex. -/
def drainGoes (s : AsyncLogger) : Option AsyncLogger :=
  match s.drain with
  | .looping =>
    match s.queue with
    | msg :: rest => some { s with queue := rest, drain := .writing msg }
    | [] => some { s with drain := if s.stopping then .returned else .asleep }
  | .writing msg => some { s with written := s.written ++ [msg], drain := .looping }
  | .asleep | .returned => none

def flush (s : AsyncLogger) : AsyncLogger :=
  if s.flushed then s else { s with flushed := true, flushing := .stopping }

/-- `flush` goes on. -/
def flushGoes (s : AsyncLogger) : Option AsyncLogger :=
  match s.flushing with
  | .stopping => some { s with stopping := true, flushing := .notifying }
  | .notifying => some { s with drain := s.drain.wake, flushing := .joining }
  | .joining => if s.drain = .returned then some { s with flushing := .joined } else none
  | .joined => some { s with queue := [], flushing := .writing s.queue }
  | .writing (msg :: rest) =>
    some { s with written := s.written ++ [msg], flushing := .writing rest }
  | .writing [] => some { s with flushing := .returned }
  | .absent | .returned => none

def step (s : AsyncLogger) : LoggerEvent → Option AsyncLogger
  | .logs msg stale => some (s.log msg stale)
  | .flushes => some s.flush
  | .wakes => if s.drain = .asleep then some { s with drain := .looping } else none
  | .logGoes place => s.logging[place]?.bind (s.logGoes place)
  | .drainGoes => s.drainGoes
  | .flushGoes => s.flushGoes

def work (s : AsyncLogger) : Nat :=
  s.drain.work + 2 * s.queue.length + (s.logging.map LogCall.work).sum + s.flushing.work

/-- What holds between any two steps. `flow` says where each accepted message is, `woken` and
    `stopped` that the drain thread does not sleep over what it waits for. -/
structure Sound (s : AsyncLogger) : Prop where
  flow : s.written ++ s.drain.hand ++ s.flushing.hand ++ s.queue = s.accepted
  bounded : s.queue.length ≤ maxQueuedMessages
  flagged : s.flushed = decide (s.flushing ≠ .absent)
  announced : s.stopping = s.flushing.stops
  ended : s.drain = .returned → s.stopping = true
  joined : s.flushing.joins = true → s.drain = .returned
  woken : s.drain = .asleep → s.queue ≠ [] → .notifying ∈ s.logging
  stopped : s.drain = .asleep → s.stopping = true → s.flushing = .notifying

theorem initial_sound : Sound {} where
  flow := rfl
  bounded := by decide
  flagged := rfl
  announced := rfl
  ended := nofun
  joined := nofun
  woken := nofun
  stopped := nofun

theorem wake_hand (drain : DrainThread) : drain.wake.hand = drain.hand := by
  cases drain <;> rfl

theorem wake_awake (drain : DrainThread) : drain.wake ≠ .asleep := by
  cases drain <;> nofun

theorem wake_returned {drain : DrainThread} : drain.wake = .returned ↔ drain = .returned := by
  cases drain <;> simp [DrainThread.wake]

theorem hand_of_joined {s : AsyncLogger} (inv : s.Sound) (joined : s.flushing.joins = true) :
    s.drain.hand = [] := by
  rw [inv.joined joined]
  rfl

/-- Until `join` has returned, `flush` holds nothing. -/
theorem flush_hand {flushing : FlushCall} (before : flushing.swaps = false) :
    flushing.hand = [] := by
  cases flushing <;> first | rfl | cases before

theorem log_sound {s : AsyncLogger} (inv : s.Sound) (msg : Bytes) (stale : Bool) :
    (s.log msg stale).Sound := by
  unfold log
  split
  · exact ⟨inv.flow, inv.bounded, inv.flagged, inv.announced, inv.ended, inv.joined, inv.woken,
      inv.stopped⟩
  · exact ⟨inv.flow, inv.bounded, inv.flagged, inv.announced, inv.ended, inv.joined,
      fun asleep waiting => List.mem_append_left _ (inv.woken asleep waiting), inv.stopped⟩

theorem flush_sound {s : AsyncLogger} (inv : s.Sound) : s.flush.Sound := by
  unfold flush
  split
  · exact inv
  · rename_i unset
    have absent : s.flushing = .absent := by simpa [inv.flagged] using unset
    have quiet : s.stopping = false := by rw [inv.announced, absent]; rfl
    have flow := inv.flow
    rw [absent] at flow
    refine ⟨flow, inv.bounded, rfl, quiet, inv.ended, nofun, inv.woken, fun _ stopping => ?_⟩
    exact absurd stopping (by simp [quiet])

/-- A call of `log` drops its message, queues it and owes a notification, or notifies. -/
theorem logGoes_cases {s s' : AsyncLogger} {place : Nat} {call : LogCall}
    (h : s.logGoes place call = some s') :
    (∃ msg, call = .locking msg ∧ maxQueuedMessages ≤ s.queue.length ∧ s' = { s with
      dropped := s.dropped ++ [msg], logging := s.logging.set place .returned }) ∨
    (∃ msg, call = .locking msg ∧ s.queue.length < maxQueuedMessages ∧ s' = { s with
      queue := s.queue ++ [msg]
      accepted := s.accepted ++ [msg]
      logging := s.logging.set place .notifying }) ∨
    (call = .notifying ∧ s' = { s with
      drain := s.drain.wake, logging := s.logging.set place .returned }) := by
  cases call with
  | locking msg =>
    simp only [logGoes] at h
    split at h
    · rename_i full
      exact .inl ⟨msg, rfl, full, (Option.some.inj h).symm⟩
    · rename_i room
      exact .inr (.inl ⟨msg, rfl, Nat.lt_of_not_le room, (Option.some.inj h).symm⟩)
  | notifying => exact .inr (.inr ⟨rfl, (Option.some.inj h).symm⟩)
  | returned => cases h

theorem logGoes_sound {s s' : AsyncLogger} (inv : s.Sound) {place : Nat} {call : LogCall}
    (found : s.logging[place]? = some call) (h : s.logGoes place call = some s') : s'.Sound := by
  rcases logGoes_cases h with ⟨msg, rfl, -, rfl⟩ | ⟨msg, rfl, room, rfl⟩ | ⟨rfl, rfl⟩
  · refine ⟨inv.flow, inv.bounded, inv.flagged, inv.announced, inv.ended, inv.joined,
      fun asleep waiting => ?_, inv.stopped⟩
    exact mem_moves found (inv.woken asleep waiting) nofun
  · obtain ⟨inside, -⟩ := List.getElem?_eq_some_iff.mp found
    refine ⟨?_, ?_, inv.flagged, inv.announced, inv.ended, inv.joined, fun _ _ => ?_, inv.stopped⟩
    · show _ ++ (s.queue ++ [msg]) = s.accepted ++ [msg]
      rw [← inv.flow, ← List.append_assoc]
    · show (s.queue ++ [msg]).length ≤ maxQueuedMessages
      rw [List.length_append, List.length_singleton]
      exact room
    · exact List.mem_set inside _
  · have awake := wake_awake s.drain
    refine ⟨?_, inv.bounded, inv.flagged, inv.announced, fun ended => ?_, fun joined => ?_,
      fun asleep => absurd asleep awake, fun asleep => absurd asleep awake⟩
    · show s.written ++ s.drain.wake.hand ++ _ ++ _ = _
      rw [wake_hand]
      exact inv.flow
    · exact inv.ended (wake_returned.mp ended)
    · exact wake_returned.mpr (inv.joined joined)

theorem drainGoes_sound {s s' : AsyncLogger} (inv : s.Sound) (h : s.drainGoes = some s') :
    s'.Sound := by
  have unjoined (running : s.drain ≠ .returned) : s.flushing.joins ≠ true :=
    fun joined => running (inv.joined joined)
  have empty (running : s.drain ≠ .returned) : s.flushing.hand = [] := by
    refine flush_hand (Bool.eq_false_iff.mpr fun swapped => unjoined running ?_)
    cases flushing : s.flushing <;> simp [flushing, FlushCall.swaps] at swapped ⊢ <;> rfl
  have flow := inv.flow
  unfold drainGoes at h
  split at h
  · rename_i looping
    have running : s.drain ≠ .returned := by simp [looping]
    rw [looping, empty running] at flow
    split at h
    · rename_i msg rest queue
      cases h
      refine ⟨?_, ?_, inv.flagged, inv.announced, nofun, fun joined => absurd joined
        (unjoined running), nofun, nofun⟩
      · rw [← flow, queue]
        simp [DrainThread.hand, empty running]
      · have bounded := inv.bounded
        rw [queue] at bounded
        exact (Nat.le_succ _).trans bounded
    · rename_i queue
      cases h
      refine ⟨?_, inv.bounded, inv.flagged, inv.announced, ?_, fun joined => absurd joined
        (unjoined running), fun _ waiting => absurd queue waiting, ?_⟩
      · rw [← flow]
        cases s.stopping <;> simp [DrainThread.hand, empty running]
      · cases s.stopping with
        | true => exact fun _ => rfl
        | false => nofun
      · cases s.stopping <;> nofun
  · rename_i msg writing
    have running : s.drain ≠ .returned := by simp [writing]
    cases h
    refine ⟨?_, inv.bounded, inv.flagged, inv.announced, nofun, fun joined => absurd joined
      (unjoined running), nofun, nofun⟩
    rw [writing] at flow
    rw [← flow]
    simp [DrainThread.hand]
  · cases h
  · cases h

theorem flushGoes_sound {s s' : AsyncLogger} (inv : s.Sound) (h : s.flushGoes = some s') :
    s'.Sound := by
  have flow := inv.flow
  have flagged := inv.flagged
  have announced := inv.announced
  unfold flushGoes at h
  split at h
  · rename_i stopping
    cases h
    rw [stopping] at flow flagged
    exact ⟨flow, inv.bounded, flagged, rfl, fun _ => rfl, nofun, inv.woken, fun _ _ => rfl⟩
  · rename_i notifying
    cases h
    rw [notifying] at flow flagged announced
    have awake := wake_awake s.drain
    refine ⟨?_, inv.bounded, flagged, announced, fun ended => inv.ended (wake_returned.mp ended),
      nofun, fun asleep => absurd asleep awake, fun asleep => absurd asleep awake⟩
    show s.written ++ s.drain.wake.hand ++ _ ++ _ = _
    rw [wake_hand]
    exact flow
  · rename_i joining
    rw [joining] at flow flagged announced
    split at h
    · rename_i returned
      cases h
      refine ⟨flow, inv.bounded, flagged, announced, inv.ended, fun _ => returned, inv.woken, ?_⟩
      rw [returned]
      nofun
    · cases h
  · rename_i joined
    have returned := inv.joined (by rw [joined]; rfl)
    cases h
    rw [joined, returned] at flow
    rw [joined] at flagged announced
    refine ⟨?_, Nat.zero_le _, flagged, announced, inv.ended, fun _ => returned, ?_, ?_⟩
    · rw [returned, ← flow]
      simp [FlushCall.hand, DrainThread.hand]
    · rw [returned]
      nofun
    · rw [returned]
      nofun
  · rename_i msg rest writing
    have returned := inv.joined (by rw [writing]; rfl)
    cases h
    rw [writing, returned] at flow
    rw [writing] at flagged announced
    refine ⟨?_, inv.bounded, flagged, announced, inv.ended, fun _ => returned, inv.woken, ?_⟩
    · rw [returned, ← flow]
      simp [FlushCall.hand, DrainThread.hand]
    · rw [returned]
      nofun
  · rename_i writing
    have returned := inv.joined (by rw [writing]; rfl)
    cases h
    rw [writing] at flow flagged announced
    refine ⟨flow, inv.bounded, flagged, announced, inv.ended, fun _ => returned, inv.woken, ?_⟩
    rw [returned]
    nofun
  · cases h
  · cases h

theorem step_sound (s : AsyncLogger) (event : LoggerEvent) (s' : AsyncLogger) (inv : s.Sound)
    (h : s.step event = some s') : s'.Sound := by
  cases event with
  | logs msg stale =>
    cases h
    exact log_sound inv msg stale
  | flushes =>
    cases h
    exact flush_sound inv
  | wakes =>
    simp only [step, Option.ite_none_right_eq_some, Option.some.injEq] at h
    obtain ⟨asleep, rfl⟩ := h
    have flow := inv.flow
    rw [asleep] at flow
    refine ⟨flow, inv.bounded, inv.flagged, inv.announced, nofun, fun joined => ?_, nofun, nofun⟩
    exact absurd (asleep.symm.trans (inv.joined joined)) nofun
  | logGoes place =>
    obtain ⟨call, found, goes⟩ := Option.bind_eq_some_iff.mp h
    exact logGoes_sound inv found goes
  | drainGoes => exact drainGoes_sound inv h
  | flushGoes => exact flushGoes_sound inv h

theorem run_sound {events : List LoggerEvent} {s : AsyncLogger}
    (h : run step {} events = some s) : s.Sound :=
  run_keeps step_sound initial_sound h

theorem wake_work (drain : DrainThread) : drain.wake.work ≤ drain.work + 1 := by
  cases drain <;> simp [DrainThread.wake, DrainThread.work]

/-- Each step of a thread in the logger takes something off the work that is left. -/
theorem step_work (s : AsyncLogger) (event : LoggerEvent) (s' : AsyncLogger)
    (inside : event.inside = true) (h : s.step event = some s') : s'.work < s.work := by
  cases event with
  | logs msg stale => cases inside
  | flushes => cases inside
  | wakes => cases inside
  | logGoes place =>
    obtain ⟨call, found, goes⟩ := Option.bind_eq_some_iff.mp h
    have moved (next : LogCall) := sum_moves (b := next) LogCall.work found
    rcases logGoes_cases goes with ⟨msg, rfl, -, rfl⟩ | ⟨msg, rfl, -, rfl⟩ | ⟨rfl, rfl⟩
    · have left := moved .returned
      simp only [work, LogCall.work] at left ⊢
      omega
    · have left := moved .notifying
      simp only [work, LogCall.work, List.length_append, List.length_singleton] at left ⊢
      omega
    · have left := moved .returned
      have turn := wake_work s.drain
      simp only [work, LogCall.work] at left ⊢
      omega
  | drainGoes =>
    simp only [step, drainGoes] at h
    split at h
    · rename_i looping
      split at h
      · rename_i msg rest queue
        cases h
        simp only [work, looping, queue, DrainThread.work, List.length_cons]
        omega
      · cases h
        cases stopping : s.stopping <;> simp [work, looping, DrainThread.work]
    · rename_i msg writing
      cases h
      simp only [work, writing, DrainThread.work]
      omega
    · cases h
    · cases h
  | flushGoes =>
    simp only [step, flushGoes] at h
    split at h
    · rename_i stopping
      cases h
      simp only [work, stopping, FlushCall.work]
      omega
    · rename_i notifying
      cases h
      have turn := wake_work s.drain
      simp only [work, notifying, FlushCall.work]
      omega
    · rename_i joining
      split at h
      · cases h
        simp only [work, joining, FlushCall.work]
        omega
      · cases h
    · rename_i joined
      cases h
      simp only [work, joined, FlushCall.work, List.length_nil]
      omega
    · rename_i msg rest writing
      cases h
      simp only [work, writing, FlushCall.work, List.length_cons]
      omega
    · rename_i writing
      cases h
      simp only [work, writing, FlushCall.work, List.length_nil]
      omega
    · cases h
    · cases h

/-- No thread in the logger can go on. -/
def AtRest (s : AsyncLogger) : Prop := ∀ event : LoggerEvent, event.inside = true → s.step event = none

theorem returned_of_rest {s : AsyncLogger} (rest : s.AtRest) {call : LogCall}
    (member : call ∈ s.logging) : call = .returned := by
  obtain ⟨place, found⟩ := List.mem_iff_getElem?.mp member
  have stuck : s.logGoes place call = none := by
    have refused := rest (.logGoes place) rfl
    simpa [step, found] using refused
  cases call with
  | locking msg =>
    simp only [logGoes] at stuck
    split at stuck <;> cases stuck
  | notifying => cases stuck
  | returned => rfl

theorem drain_of_rest {s : AsyncLogger} (rest : s.AtRest) :
    s.drain = .asleep ∨ s.drain = .returned := by
  have stuck : s.drainGoes = none := rest .drainGoes rfl
  unfold drainGoes at stuck
  cases drain : s.drain with
  | looping => cases queue : s.queue <;> simp [drain, queue] at stuck
  | writing msg => simp [drain] at stuck
  | asleep => exact .inl rfl
  | returned => exact .inr rfl

theorem flush_of_rest {s : AsyncLogger} (rest : s.AtRest) :
    s.flushing = .absent ∨ s.flushing = .returned ∨
      s.flushing = .joining ∧ s.drain ≠ .returned := by
  have stuck : s.flushGoes = none := rest .flushGoes rfl
  unfold flushGoes at stuck
  cases flushing : s.flushing with
  | absent => exact .inl rfl
  | returned => exact .inr (.inl rfl)
  | joining => exact .inr (.inr ⟨rfl, fun returned => by simp [flushing, returned] at stuck⟩)
  | writing remaining => cases remaining <;> simp [flushing] at stuck
  | stopping | notifying | joined => simp [flushing] at stuck

/-- A logger at rest has no work left undone. -/
theorem rest_sound {s : AsyncLogger} (inv : s.Sound) (rest : s.AtRest) :
    s.written ++ s.queue = s.accepted ∧
    (s.flushed = true → s.flushing = .returned ∧ s.drain = .returned) ∧
    (s.flushed = false → s.queue = []) := by
  have silent : .notifying ∉ s.logging := fun member => by cases returned_of_rest rest member
  have hand : s.drain.hand = [] := by
    rcases drain_of_rest rest with asleep | returned
    · rw [asleep]
      rfl
    · rw [returned]
      rfl
  have flow := inv.flow
  have flagged := inv.flagged
  have announced := inv.announced
  rcases flush_of_rest rest with absent | finished | ⟨joining, running⟩
  · rw [hand, absent] at flow
    rw [absent] at flagged announced
    have asleep : s.drain = .asleep := (drain_of_rest rest).resolve_right fun returned => by
      have stopping := inv.ended returned
      rw [announced] at stopping
      cases stopping
    refine ⟨by simpa [FlushCall.hand] using flow, fun set => ?_, fun _ => ?_⟩
    · rw [flagged] at set
      cases set
    · cases queue : s.queue with
      | nil => rfl
      | cons msg later => exact absurd (inv.woken asleep (by simp [queue])) silent
  · rw [hand, finished] at flow
    rw [finished] at flagged
    have returned := inv.joined (by rw [finished]; rfl)
    refine ⟨by simpa [FlushCall.hand] using flow, fun _ => ⟨finished, returned⟩, fun unset => ?_⟩
    rw [flagged] at unset
    cases unset
  · -- `join` waits for a thread that sleeps: `stopping_` would have woken it
    have asleep := (drain_of_rest rest).resolve_right running
    have stopping : s.stopping = true := by rw [announced, joining]; rfl
    exact absurd (joining.symm.trans (inv.stopped asleep stopping)) nofun

/-- A message that was queued before the swap of `flush` is written when `flush` returns. -/
structure Owes (messages : List Bytes) (s : AsyncLogger) : Prop where
  sound : s.Sound
  before : messages <+: s.accepted
  swapped : s.flushing.swaps = true → messages <+: s.written ++ s.flushing.hand

theorem step_owes {messages : List Bytes} (s : AsyncLogger) (event : LoggerEvent)
    (s' : AsyncLogger) (inv : s.Owes messages) (h : s.step event = some s') : s'.Owes messages := by
  have sound := step_sound s event s' inv.sound h
  cases event with
  | logs msg stale =>
    cases h
    refine ⟨sound, ?_, ?_⟩
    · unfold log
      split <;> exact inv.before
    · unfold log
      split <;> exact inv.swapped
  | flushes =>
    cases h
    refine ⟨sound, ?_, ?_⟩
    · unfold flush
      split <;> exact inv.before
    · unfold flush
      split
      · exact inv.swapped
      · nofun
  | wakes =>
    simp only [step, Option.ite_none_right_eq_some, Option.some.injEq] at h
    obtain ⟨-, rfl⟩ := h
    exact ⟨sound, inv.before, inv.swapped⟩
  | logGoes place =>
    obtain ⟨call, found, goes⟩ := Option.bind_eq_some_iff.mp h
    rcases logGoes_cases goes with ⟨msg, -, -, rfl⟩ | ⟨msg, -, -, rfl⟩ | ⟨-, rfl⟩
    · exact ⟨sound, inv.before, inv.swapped⟩
    · exact ⟨sound, inv.before.trans (List.prefix_append _ _), inv.swapped⟩
    · exact ⟨sound, inv.before, inv.swapped⟩
  | drainGoes =>
    have unswapped (running : s.drain ≠ .returned) : s.flushing.swaps ≠ true := fun swapped =>
      running (inv.sound.joined (by
        cases flushing : s.flushing <;> simp [flushing, FlushCall.swaps] at swapped ⊢ <;> rfl))
    simp only [step, drainGoes] at h
    split at h
    · rename_i looping
      have running : s.drain ≠ .returned := by simp [looping]
      split at h <;> cases h <;>
        exact ⟨sound, inv.before, fun swapped => absurd swapped (unswapped running)⟩
    · rename_i msg writing
      have running : s.drain ≠ .returned := by simp [writing]
      cases h
      exact ⟨sound, inv.before, fun swapped => absurd swapped (unswapped running)⟩
    · cases h
    · cases h
  | flushGoes =>
    simp only [step, flushGoes] at h
    split at h
    · cases h
      exact ⟨sound, inv.before, nofun⟩
    · cases h
      exact ⟨sound, inv.before, nofun⟩
    · split at h
      · cases h
        exact ⟨sound, inv.before, nofun⟩
      · cases h
    · rename_i joined
      cases h
      refine ⟨sound, inv.before, fun _ => ?_⟩
      have flow := sound.flow
      have hand := hand_of_joined sound rfl
      rw [hand] at flow
      simp only [List.append_nil] at flow
      rw [flow]
      exact inv.before
    · rename_i msg rest writing
      cases h
      refine ⟨sound, inv.before, fun _ => ?_⟩
      have owed := inv.swapped (by rw [writing]; rfl)
      rw [writing] at owed
      simpa [FlushCall.hand] using owed
    · rename_i writing
      cases h
      refine ⟨sound, inv.before, fun _ => ?_⟩
      have owed := inv.swapped (by rw [writing]; rfl)
      rw [writing] at owed
      exact owed
    · cases h
    · cases h

/-- In every interleaving stderr holds the accepted messages once each and in order, up to those
    in a thread's hand or in the queue, which never exceeds its bound; and when `flush` returns,
    what was accepted before its swap is on stderr. -/
theorem stderr_in_order {events : List LoggerEvent} {s : AsyncLogger}
    (h : run step {} events = some s) :
    s.written ++ s.drain.hand ++ s.flushing.hand ++ s.queue = s.accepted ∧
    s.queue.length ≤ maxQueuedMessages ∧
    ∀ front back t, events = front ++ back → run step {} front = some t →
      t.flushing.swaps = false → s.flushing = .returned → t.accepted <+: s.written := by
  have inv := run_sound h
  refine ⟨inv.flow, inv.bounded, fun front back t split reached before returned => ?_⟩
  subst split
  obtain ⟨t', reached', h⟩ := run_split h
  obtain rfl : t = t' := by simpa [reached] using reached'
  have start : t.Owes t.accepted :=
    ⟨run_sound reached, List.prefix_rfl, fun swapped => by rw [before] at swapped; cases swapped⟩
  have owed := (run_keeps step_owes start h).swapped (by rw [returned]; rfl)
  rw [returned] at owed
  simpa [FlushCall.hand] using owed

/-- A `log` that missed the `flush` queues its message behind the swap: it stays there. -/
theorem stderr_in_order_missed :
    ∃ s t, run step {} [.logs (ascii "a") false, .logGoes 0] = some t ∧
      run step {} ([.logs (ascii "a") false, .logGoes 0] ++ [.drainGoes, .flushes,
        .logs (ascii "b") true, .flushGoes, .flushGoes, .drainGoes, .drainGoes, .flushGoes,
        .flushGoes, .logGoes 1, .flushGoes]) = some s ∧
      s.queue = [ascii "b"] ∧ s.written ++ s.queue = s.accepted ∧ t.accepted <+: s.written := by
  have held := @stderr_in_order ([.logs (ascii "a") false, .logGoes 0] ++ [.drainGoes,
    .flushes, .logs (ascii "b") true, .flushGoes, .flushGoes, .drainGoes, .drainGoes, .flushGoes,
    .flushGoes, .logGoes 1, .flushGoes]) _ rfl
  exact ⟨_, _, rfl, rfl, rfl, held.1, held.2.2 _ _ _ rfl rfl rfl rfl⟩

end AsyncLogger

end CppMcp
