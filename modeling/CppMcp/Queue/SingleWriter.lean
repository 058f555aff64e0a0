import CppMcp.Queue.WriteQueue
import Mathlib.Data.List.Nodup

namespace CppMcp

open Lib

namespace AsyncWriteQueue

variable {config : WriteQueueConfig}

/-- What holds of a queue between any two steps of its threads. `flow` says where each accepted
    item is, `gate` and `wake` that `writing_` is true exactly while somebody writes. Once the
    queue is inactive nobody begins to write, and `writing_` says nothing any more. -/
structure Sound (q : AsyncWriteQueue) : Prop where
  flow : q.handed ++ q.calling ++ q.queue <+: q.accepted
  whole : q.active = true → q.handed ++ q.calling ++ q.queue = q.accepted
  single : q.busy ≤ 1
  gate : q.active = true → q.busy = if q.writing then 1 else 0
  wake : q.active = true → q.writing = false → q.queue = []
  bytes : q.queuedBytes = (q.queue.map fun item => item.data.length).sum
  numbered : q.returned.map (fun entry => entry.1.call) = List.range q.returned.length
  reported : q.errors + q.reporting ≤ 1
  unreported : q.active = true → q.errors + q.reporting = 0

theorem initial_sound : Sound {} where
  flow := List.prefix_rfl
  whole _ := rfl
  single := by decide
  gate _ := rfl
  wake _ _ := rfl
  bytes := rfl
  numbered := rfl
  reported := by decide
  unreported _ := rfl

theorem report_eq (q : AsyncWriteQueue) :
    q.report config =
      { q with reporting := q.reporting + if config.hasOnError then 1 else 0 } := by
  unfold report
  split <;> rfl

theorem accepted_concat (q : AsyncWriteQueue) (item : QueueItem) (ok : Bool) :
    ((q.returned ++ [(item, ok)]).filter Prod.snd).map Prod.fst =
      q.accepted ++ if ok then [item] else [] := by
  rw [List.filter_append, List.map_append]
  cases ok <;> rfl

theorem numbered_concat {q : AsyncWriteQueue} (inv : q.Sound) (data : Bytes) (ok : Bool) :
    (q.returned ++ [((⟨q.returned.length, data⟩ : QueueItem), ok)]).map
        (fun entry => entry.1.call) =
      List.range (q.returned ++ [((⟨q.returned.length, data⟩ : QueueItem), ok)]).length := by
  rw [List.map_append, inv.numbered, List.length_append, List.length_singleton,
    List.range_succ]
  rfl

/-- A call of `enqueue` changes nothing, closes the queue, or accepts its item. -/
theorem enqueue_cases (config : WriteQueueConfig) (q : AsyncWriteQueue) (item : QueueItem) :
    q.enqueue config item = (q, false) ∨
    (q.active = true ∧ q.overflows config item.data = true ∧ config.policy = .closeOnError ∧
      q.enqueue config item =
        ({ q with active := false, writing := false }.report config, false)) ∨
    (q.active = true ∧ q.enqueue config item = ({ q with
      queuedBytes := q.queuedBytes + item.data.length
      queue := q.queue ++ [item]
      writing := true
      arming := q.arming + if q.writing then 0 else 1 }, true)) := by
  unfold enqueue
  cases active : q.active with
  | false => exact .inl (by simp)
  | true =>
    cases overflows : q.overflows config item.data with
    | true =>
      cases policy : config.policy with
      | closeOnError => exact .inr (.inl ⟨rfl, rfl, rfl, by simp⟩)
      | dropNewest => exact .inl (by simp)
    | false =>
      refine .inr (.inr ⟨rfl, ?_⟩)
      cases writing : q.writing <;> simp

theorem enqueue_sound {q : AsyncWriteQueue} (inv : q.Sound) (data : Bytes) {next : AsyncWriteQueue}
    {ok : Bool} (h : q.enqueue config ⟨q.returned.length, data⟩ = (next, ok)) :
    Sound { next with returned := q.returned ++ [(⟨q.returned.length, data⟩, ok)] } := by
  have numbered := numbered_concat inv data ok
  have refuses : ok = false → q.accepted =
      ((q.returned ++ [((⟨q.returned.length, data⟩ : QueueItem), ok)]).filter Prod.snd).map
        Prod.fst := by
    rintro rfl
    rw [accepted_concat]
    simp
  have kept : ok = false → q.accepted <+:
      ((q.returned ++ [((⟨q.returned.length, data⟩ : QueueItem), ok)]).filter Prod.snd).map
        Prod.fst := by
    intro refused
    exact refuses refused ▸ List.prefix_rfl
  rcases enqueue_cases config q ⟨q.returned.length, data⟩ with same | ⟨active, -, -, closes⟩ |
    ⟨active, accepts⟩
  · rw [same] at h
    cases h
    exact ⟨inv.flow.trans (kept rfl), fun active => (inv.whole active).trans (refuses rfl),
      inv.single, inv.gate, inv.wake, inv.bytes, numbered, inv.reported, inv.unreported⟩
  · rw [closes, report_eq] at h
    cases h
    have silent := inv.unreported active
    refine ⟨inv.flow.trans (kept rfl), fun active => ?_, inv.single, fun active => ?_,
      fun active => ?_, inv.bytes, numbered, ?_, fun active => ?_⟩
    · cases active
    · cases active
    · cases active
    · dsimp only
      split <;> omega
    · cases active
  · rw [accepts] at h
    cases h
    have whole : q.handed ++ q.calling ++ (q.queue ++ [⟨q.returned.length, data⟩]) =
        ((q.returned ++ [((⟨q.returned.length, data⟩ : QueueItem), true)]).filter Prod.snd).map
          Prod.fst := by
      rw [accepted_concat, ← inv.whole active]
      simp
    have gate := inv.gate active
    have busy : q.arming + (if q.writing then 0 else 1) + q.calling.length + q.inFlight.length =
        1 := by
      unfold AsyncWriteQueue.busy at gate
      cases writing : q.writing with
      | false =>
        simp only [writing, Bool.false_eq_true, if_false] at gate ⊢
        omega
      | true =>
        simp only [writing, if_true] at gate ⊢
        omega
    refine ⟨⟨[], ?_⟩, fun _ => whole, busy.le, fun _ => busy, fun _ stopped => ?_, ?_, numbered,
      inv.reported, inv.unreported⟩
    · rw [List.append_nil]
      exact whole
    · cases stopped
    · rw [inv.bytes]
      simp

/-- The critical section of `arm_write` takes the front of the queue, or gives the gate up. -/
theorem armWrite_cases (q : AsyncWriteQueue) :
    (q.armWrite = { q with writing := false } ∧ (q.active = true → q.queue = [])) ∨
    ∃ item rest, q.active = true ∧ q.queue = item :: rest ∧ q.armWrite = { q with
      queuedBytes := q.queuedBytes - item.data.length
      queue := rest
      calling := q.calling ++ [item] } := by
  unfold armWrite
  cases active : q.active with
  | false => exact .inl ⟨rfl, fun up => by cases up⟩
  | true =>
    cases queue : q.queue with
    | nil => exact .inl ⟨rfl, fun _ => rfl⟩
    | cons item rest => exact .inr ⟨item, rest, rfl, rfl, rfl⟩

theorem arms_sound {q : AsyncWriteQueue} (inv : q.Sound) (pending : 0 < q.arming) :
    Sound ({ q with arming := q.arming - 1 }.armWrite) := by
  have single := inv.single
  unfold busy at single
  have idle : q.arming - 1 + q.calling.length + q.inFlight.length = 0 := by omega
  rcases armWrite_cases { q with arming := q.arming - 1 } with ⟨stops, empty⟩ |
    ⟨item, rest, active, queue, takes⟩
  · rw [stops]
    exact ⟨inv.flow, inv.whole, idle.trans_le (by omega), fun _ => idle,
      fun active _ => empty active, inv.bytes, inv.numbered, inv.reported, inv.unreported⟩
  · rw [takes]
    have up : q.active = true := active
    have held : q.queue = item :: rest := queue
    have flow : q.handed ++ (q.calling ++ [item]) ++ rest = q.handed ++ q.calling ++ q.queue := by
      simp [held]
    have count : q.arming - 1 + (q.calling ++ [item]).length + q.inFlight.length = q.busy := by
      rw [List.length_append, List.length_singleton]
      unfold busy
      omega
    have bytes := inv.bytes
    rw [held, List.map_cons, List.sum_cons] at bytes
    refine ⟨?_, fun _ => ?_, count.trans_le inv.single, fun _ => count.trans (inv.gate up),
      fun _ stopped => ?_, ?_, inv.numbered, inv.reported, inv.unreported⟩
    · exact flow ▸ inv.flow
    · exact flow.trans (inv.whole up)
    · have nothing := inv.wake up stopped
      rw [held] at nothing
      cases nothing
    · show q.queuedBytes - item.data.length = (rest.map fun item => item.data.length).sum
      omega

/-- The buffer that is handed on is the only one taken out of the queue. -/
theorem hands_sound {q : AsyncWriteQueue} (inv : q.Sound) {place : Nat} {item : QueueItem}
    (taken : q.calling[place]? = some item) :
    Sound { q with
      calling := q.calling.eraseIdx place
      inFlight := q.inFlight ++ [item]
      handed := q.handed ++ [item] } := by
  have single := inv.single
  unfold busy at single
  have calling : q.calling = [item] ∧ place = 0 := by
    cases held : q.calling with
    | nil => simp [held] at taken
    | cons first rest =>
      have alone : rest = [] := by
        rw [held, List.length_cons] at single
        exact List.eq_nil_of_length_eq_zero (by omega)
      subst alone
      cases place with
      | zero =>
        rw [held] at taken
        cases taken
        exact ⟨rfl, rfl⟩
      | succ place => simp [held] at taken
  obtain ⟨calling, rfl⟩ := calling
  have flow : q.handed ++ [item] ++ q.calling.eraseIdx 0 ++ q.queue =
      q.handed ++ q.calling ++ q.queue := by
    simp [calling]
  have count : q.arming + (q.calling.eraseIdx 0).length + (q.inFlight ++ [item]).length =
      q.busy := by
    simp [busy, calling]
    omega
  refine ⟨?_, fun active => ?_, ?_, fun active => ?_, inv.wake, inv.bytes, inv.numbered,
    inv.reported, inv.unreported⟩
  · exact flow ▸ inv.flow
  · exact flow.trans (inv.whole active)
  · exact count.trans_le inv.single
  · exact count.trans (inv.gate active)

theorem completes_sound {q : AsyncWriteQueue} (inv : q.Sound) {place : Nat}
    (outstanding : place < q.inFlight.length) (ok : Bool) :
    Sound ({ q with inFlight := q.inFlight.eraseIdx place }.onWriteComplete config ok) := by
  have single := inv.single
  unfold busy at single
  have idle : q.arming + q.calling.length + (q.inFlight.eraseIdx place).length = 0 := by
    rw [List.length_eraseIdx_of_lt outstanding]
    omega
  unfold onWriteComplete
  cases ok with
  | true =>
    cases more : q.active && !q.queue.isEmpty with
    | true =>
      have active : q.active = true := (Bool.and_eq_true_iff.mp more).1
      have gate := inv.gate active
      have writing : q.writing = true := by
        cases writing : q.writing with
        | true => rfl
        | false =>
          rw [inv.wake active writing] at more
          simp at more
      have busy : q.arming + 1 + q.calling.length + (q.inFlight.eraseIdx place).length = 1 := by
        omega
      refine ⟨inv.flow, inv.whole, busy.le, fun _ => ?_, inv.wake, inv.bytes, inv.numbered,
        inv.reported, inv.unreported⟩
      exact busy.trans (by simp [writing])
    | false =>
      refine ⟨inv.flow, inv.whole, idle.trans_le (by omega), fun _ => idle, fun active _ => ?_,
        inv.bytes, inv.numbered, inv.reported, inv.unreported⟩
      have up : q.active = true := active
      simpa [up] using more
  | false =>
    have closed : Sound { q with
        inFlight := q.inFlight.eraseIdx place, active := false, writing := false } := by
      refine ⟨inv.flow, fun up => ?_, idle.trans_le (by omega), fun up => ?_, fun up => ?_,
        inv.bytes, inv.numbered, inv.reported, fun up => ?_⟩
      · cases up
      · cases up
      · cases up
      · cases up
    cases active : q.active with
    | false => exact closed
    | true =>
      have silent := inv.unreported active
      have due : q.errors + (q.reporting + if config.hasOnError then 1 else 0) ≤ 1 := by
        split <;> omega
      simp only [Bool.false_eq_true, if_false, if_true, report_eq]
      exact ⟨closed.flow, closed.whole, closed.single, closed.gate, closed.wake, closed.bytes,
        closed.numbered, due, fun up => by cases up⟩

theorem step_sound (q : AsyncWriteQueue) (event : WriteQueueEvent) (q' : AsyncWriteQueue)
    (inv : q.Sound) (h : step config q event = some q') : q'.Sound := by
  cases event with
  | enqueue data =>
    cases h
    exact enqueue_sound inv data rfl
  | arms =>
    simp only [step, Option.ite_none_right_eq_some, Option.some.injEq] at h
    obtain ⟨pending, rfl⟩ := h
    exact arms_sound inv pending
  | hands place =>
    simp only [step] at h
    split at h
    · rename_i item taken
      cases h
      exact hands_sound inv taken
    · cases h
  | completes place ok =>
    simp only [step, Option.ite_none_right_eq_some, Option.some.injEq] at h
    obtain ⟨outstanding, rfl⟩ := h
    exact completes_sound inv outstanding ok
  | reports =>
    simp only [step, Option.ite_none_right_eq_some, Option.some.injEq] at h
    obtain ⟨due, rfl⟩ := h
    have reported := inv.reported
    refine ⟨inv.flow, inv.whole, inv.single, inv.gate, inv.wake, inv.bytes, inv.numbered, ?_,
      fun active => ?_⟩
    · show q.errors + 1 + (q.reporting - 1) ≤ 1
      omega
    · have silent := inv.unreported active
      omega
  | shutdown =>
    cases h
    refine ⟨?_, fun up => ?_, inv.single, fun up => ?_, fun up => ?_, rfl, inv.numbered,
      inv.reported, fun up => ?_⟩
    · show q.handed ++ q.calling ++ [] <+: q.accepted
      rw [List.append_nil]
      exact (List.prefix_append _ _).trans inv.flow
    · cases up
    · cases up
    · cases up
    · cases up

theorem run_sound {events : List WriteQueueEvent} {q : AsyncWriteQueue}
    (h : run (step config) {} events = some q) : q.Sound :=
  run_keeps step_sound initial_sound h

theorem accepted_nodup {q : AsyncWriteQueue} (inv : q.Sound) :
    (q.returned.map fun entry => entry.1).Nodup := by
  have calls : ((q.returned.map fun entry => entry.1).map QueueItem.call).Nodup := by
    rw [List.map_map]
    show (q.returned.map fun entry => entry.1.call).Nodup
    rw [inv.numbered]
    exact List.nodup_range
  exact calls.of_map

theorem returned_once {q : AsyncWriteQueue} (inv : q.Sound) {item : QueueItem} {ok ok' : Bool}
    (first : (item, ok) ∈ q.returned) (second : (item, ok') ∈ q.returned) : ok = ok' := by
  have same := List.inj_on_of_nodup_map (accepted_nodup inv) first second rfl
  exact congrArg Prod.snd same

/-- At most one buffer handed to `do_write` is outstanding, and the buffers handed to it are the
    accepted items in their order, none of them twice; what `enqueue` refused is never written. -/
theorem writes_in_order {events : List WriteQueueEvent} {q : AsyncWriteQueue}
    (h : run (step config) {} events = some q) :
    q.inFlight.length ≤ 1 ∧ q.handed <+: q.accepted ∧ q.accepted.Nodup ∧
      ∀ item, (item, false) ∈ q.returned → item ∉ q.handed := by
  have inv := run_sound h
  have single := inv.single
  unfold busy at single
  have written : q.handed <+: q.accepted := by
    have flow := inv.flow
    rw [List.append_assoc] at flow
    exact (List.prefix_append _ _).trans flow
  refine ⟨by omega, written, ?_, fun item refused handed => ?_⟩
  · exact (accepted_nodup inv).sublist (List.filter_sublist.map _)
  · obtain ⟨⟨_, ok⟩, kept, rfl⟩ := List.mem_map.mp (written.subset handed)
    obtain ⟨member, accepted⟩ := List.mem_filter.mp kept
    have clash := returned_once inv member refused
    subst clash
    cases accepted

def twoWrites : List WriteQueueEvent :=
  [.enqueue [104], .arms, .enqueue [105], .hands 0, .completes 0 true, .arms, .hands 0]

theorem two_writes_in_order : ∃ q, run (step {}) {} twoWrites = some q ∧ q.handed.length = 2 ∧
    q.inFlight.length ≤ 1 ∧ q.handed <+: q.accepted := by
  obtain ⟨q, ran⟩ : ∃ q, run (step {}) {} twoWrites = some q := ⟨_, rfl⟩
  obtain ⟨single, written, -⟩ := writes_in_order ran
  have handed : (run (step {}) {} twoWrites).map (·.handed.length) = some 2 := by decide
  rw [ran] at handed
  exact ⟨q, ran, Option.some.inj handed, single, written⟩

end AsyncWriteQueue

end CppMcp
