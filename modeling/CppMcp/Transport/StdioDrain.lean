import CppMcp.Transport.StdioAccounting

namespace CppMcp

open Lib

/-- What the writer holds in `fwrite`. -/
def WriterThread.inFlight : WriterThread → List Bytes
  | .writing data => [data]
  | _ => []

namespace StdioWriter

variable (dumper : Dumper)

/-- What an event pushes into `write_queue_`. -/
def pushes (w : StdioWriter) : StdioWriterEvent → List Bytes
  | .sends message => if w.writeStopping then [] else [dumper.line message]
  | _ => []

/-- What an event takes from the front of `write_queue_`: to write it, or as the oldest in an
    overflow. -/
def removes (w : StdioWriter) : StdioWriterEvent → List (Bytes × Bool)
  | .sends message =>
    if !w.writeStopping && w.overflows (dumper.line message) then
      w.writeQueue.head?.toList.map fun oldest => (oldest, false)
    else []
  | .takes => w.writeQueue.head?.toList.map fun data => (data, true)
  | _ => []

def toWrite (removed : List (Bytes × Bool)) : List Bytes :=
  (removed.filter fun entry => entry.2).map Prod.fst

def evicted (removed : List (Bytes × Bool)) : List Bytes :=
  (removed.filter fun entry => !entry.2).map Prod.fst

def pushed (events : List StdioWriterEvent) : List Bytes :=
  produced (step dumper) (pushes dumper) {} events

def removed (events : List StdioWriterEvent) : List (Bytes × Bool) :=
  produced (step dumper) (removes dumper) {} events

variable {dumper}

@[simp] theorem toWrite_append (front back : List (Bytes × Bool)) :
    toWrite (front ++ back) = toWrite front ++ toWrite back := by
  simp [toWrite]

@[simp] theorem evicted_append (front back : List (Bytes × Bool)) :
    evicted (front ++ back) = evicted front ++ evicted back := by
  simp [evicted]

theorem toWrite_sublist (removed : List (Bytes × Bool)) :
    (toWrite removed).Sublist (removed.map Prod.fst) := by
  apply List.Sublist.map
  apply List.filter_sublist

/-- Between two states, what was queued and what is pushed leave at the front or are still queued;
    what left to be written and what left in an overflow is told apart. -/
structure Flow (w w' : StdioWriter) (pushed : List Bytes) (removed : List (Bytes × Bool)) :
    Prop where
  fifo : w.writeQueue ++ pushed = removed.map Prod.fst ++ w'.writeQueue
  written : w'.written ++ w'.thread.inFlight = w.written ++ w.thread.inFlight ++ toWrite removed
  evicted : w'.discarded = w.discarded ++ evicted removed

theorem Flow.trans {w t w' : StdioWriter} {pushed pushed' : List Bytes}
    {removed removed' : List (Bytes × Bool)} (first : w.Flow t pushed removed)
    (second : t.Flow w' pushed' removed') :
    w.Flow w' (pushed ++ pushed') (removed ++ removed') := by
  constructor
  · rw [← List.append_assoc, first.fifo, List.append_assoc, second.fifo, List.map_append,
      List.append_assoc]
  · rw [second.written, first.written, toWrite_append, List.append_assoc]
  · rw [second.evicted, first.evicted, evicted_append, List.append_assoc]

theorem sends_flow (w : StdioWriter) (m : Json) :
    w.Flow (w.sendMessage dumper m) (w.pushes dumper (.sends m)) (w.removes dumper (.sends m)) := by
  rcases sendMessage_cases w m with ⟨stopping, same⟩ | ⟨running, within, grows⟩ |
    ⟨oldest, rest, running, overflow, queue, drops⟩
  · rw [same]
    constructor <;> simp [pushes, removes, stopping, toWrite, StdioWriter.evicted]
  · have kept : w.removes dumper (.sends m) = [] := by
      rcases within with within | empty
      · simp [removes, within]
      · simp [removes, empty]
    rw [grows, kept]
    constructor <;> simp [pushes, running, toWrite, StdioWriter.evicted]
  · rw [drops]
    constructor <;> simp [pushes, removes, running, overflow, queue, toWrite, StdioWriter.evicted]

theorem step_flow {w w' : StdioWriter} {event : StdioWriterEvent}
    (h : w.step dumper event = some w') :
    w.Flow w' (w.pushes dumper event) (w.removes dumper event) := by
  cases event with
  | sends m =>
    cases h
    exact sends_flow w m
  | takes =>
    simp only [step] at h
    split at h
    · rename_i data rest looping queue
      cases h
      constructor <;>
        simp [pushes, removes, queue, looping, toWrite, StdioWriter.evicted, WriterThread.inFlight]
    · cases h
  | writes =>
    simp only [step] at h
    split at h
    · rename_i data writing
      cases h
      constructor <;>
        simp [pushes, removes, writing, toWrite, StdioWriter.evicted, WriterThread.inFlight]
    · cases h
  | starts | returns | joins =>
    simp only [step, Option.ite_none_right_eq_some, Option.some.injEq] at h
    obtain ⟨guard, rfl⟩ := h
    constructor <;>
      simp [pushes, removes, guard, toWrite, StdioWriter.evicted, WriterThread.inFlight]
  | stopBegins =>
    simp only [step, Option.ite_none_left_eq_some, Option.some.injEq] at h
    obtain ⟨-, rfl⟩ := h
    constructor <;> simp [pushes, removes, toWrite, StdioWriter.evicted]

theorem run_flow {w w' : StdioWriter} {events : List StdioWriterEvent}
    (h : run (step dumper) w events = some w') :
    w.Flow w' (produced (step dumper) (pushes dumper) w events)
      (produced (step dumper) (removes dumper) w events) := by
  induction events generalizing w with
  | nil =>
    cases h
    constructor <;> simp [produced, toWrite, StdioWriter.evicted]
  | cons event rest ih =>
    obtain ⟨next, stepped, h⟩ := run_cons_eq h
    rw [produced_cons stepped, produced_cons stepped]
    exact (step_flow stepped).trans (ih h)

/-- A writer that has returned was told to stop, and left nothing. -/
def ReturnsEmpty (w : StdioWriter) : Prop :=
  w.thread = .returned → w.writeStopping = true ∧ w.writeQueue = []

theorem step_returnsEmpty {w w' : StdioWriter} {event : StdioWriterEvent} (inv : w.ReturnsEmpty)
    (h : w.step dumper event = some w') : w'.ReturnsEmpty := by
  intro returned
  cases event with
  | sends m =>
    cases h
    rcases sendMessage_cases w m with ⟨-, same⟩ | ⟨running, -, grows⟩ | ⟨oldest, rest, running, -, -, drops⟩
    · rw [same] at returned ⊢
      exact inv returned
    · rw [grows] at returned
      exact absurd (inv returned).1 (by simp [running])
    · rw [drops] at returned
      exact absurd (inv returned).1 (by simp [running])
  | takes | writes =>
    simp only [step] at h
    split at h <;> cases h
    cases returned
  | starts | joins =>
    simp only [step, Option.ite_none_right_eq_some, Option.some.injEq] at h
    obtain ⟨-, rfl⟩ := h
    cases returned
  | returns =>
    simp only [step, Option.ite_none_right_eq_some, Option.some.injEq] at h
    obtain ⟨⟨-, stopping, empty⟩, rfl⟩ := h
    exact ⟨stopping, empty⟩
  | stopBegins =>
    simp only [step, Option.ite_none_left_eq_some, Option.some.injEq] at h
    obtain ⟨-, rfl⟩ := h
    exact ⟨rfl, (inv returned).2⟩

theorem run_returnsEmpty {w : StdioWriter} {events : List StdioWriterEvent}
    (h : run (step dumper) {} events = some w) : w.ReturnsEmpty :=
  run_keeps (fun _ _ _ inv stepped => step_returnsEmpty inv stepped)
    (fun returned => by cases returned) h

theorem step_stopping {w w' : StdioWriter} {event : StdioWriterEvent}
    (stopping : w.writeStopping = true) (other : event ≠ .starts)
    (h : w.step dumper event = some w') :
    w'.writeStopping = true ∧ w.pushes dumper event = [] := by
  cases event with
  | starts => exact absurd rfl other
  | sends m =>
    cases h
    rcases @sendMessage_cases dumper w m with ⟨-, same⟩ | ⟨running, -⟩ | ⟨_, _, running, -⟩
    · rw [same]
      exact ⟨stopping, by simp [pushes, stopping]⟩
    · exact absurd stopping (by simp [running])
    · exact absurd stopping (by simp [running])
  | takes | writes =>
    simp only [step] at h
    split at h <;> cases h
    exact ⟨stopping, rfl⟩
  | returns | joins =>
    simp only [step, Option.ite_none_right_eq_some, Option.some.injEq] at h
    obtain ⟨-, rfl⟩ := h
    exact ⟨stopping, rfl⟩
  | stopBegins =>
    simp only [step, Option.ite_none_left_eq_some, Option.some.injEq] at h
    obtain ⟨-, rfl⟩ := h
    exact ⟨rfl, rfl⟩

/-- From the flag of `stop` on, until the next `start`, nothing is pushed. -/
theorem run_stopping {w w' : StdioWriter} {events : List StdioWriterEvent}
    (stopping : w.writeStopping = true) (same : .starts ∉ events)
    (h : run (step dumper) w events = some w') :
    w'.writeStopping = true ∧ produced (step dumper) (pushes dumper) w events = [] := by
  induction events generalizing w with
  | nil =>
    cases h
    exact ⟨stopping, rfl⟩
  | cons event rest ih =>
    obtain ⟨next, stepped, h⟩ := run_cons_eq h
    have other : event ≠ .starts := fun start => same (by simp [start])
    obtain ⟨still, nothing⟩ := step_stopping stopping other stepped
    obtain ⟨final, later⟩ := ih still (fun member => same (List.mem_cons_of_mem _ member)) h
    rw [produced_cons stepped, nothing, later]
    exact ⟨final, rfl⟩

/-- `stop` has joined the writer. -/
structure Joined (w : StdioWriter) : Prop where
  stopping : w.writeStopping = true
  thread : w.thread = .absent
  empty : w.writeQueue = []

theorem joins_joined {w w' : StdioWriter} (inv : w.ReturnsEmpty)
    (h : w.step dumper .joins = some w') : w'.Joined := by
  simp only [step, Option.ite_none_right_eq_some, Option.some.injEq] at h
  obtain ⟨returned, rfl⟩ := h
  obtain ⟨stopping, empty⟩ := inv returned
  exact ⟨stopping, rfl, empty⟩

theorem step_joined {w w' : StdioWriter} {event : StdioWriterEvent} (joined : w.Joined)
    (other : event ≠ .starts) (h : w.step dumper event = some w') : w'.Joined := by
  have absent := joined.thread
  cases event with
  | starts => exact absurd rfl other
  | sends m =>
    cases h
    rw [show w.sendMessage dumper m = w by simp [sendMessage, joined.stopping]]
    exact joined
  | takes | writes => simp [step, absent] at h
  | returns | stopBegins | joins => simp [step, absent] at h

theorem run_joined {w w' : StdioWriter} {events : List StdioWriterEvent} (joined : w.Joined)
    (same : .starts ∉ events) (h : run (step dumper) w events = some w') : w'.Joined := by
  apply run_invariant (fun _ _ _ inv other stepped => step_joined inv other stepped) joined _ h
  apply meets_of_forall
  intro event member start
  exact same (start ▸ member)

/-- The writer that is told to stop writes what is queued, and ends. -/
theorem looping_ends {w : StdioWriter} (stopping : w.writeStopping = true)
    (looping : w.thread = .looping) : ∃ events t, .starts ∉ events ∧
      run (step dumper) w events = some t ∧ t.Joined ∧ t.written = w.written ++ w.writeQueue := by
  generalize queue : w.writeQueue = waiting
  induction waiting generalizing w with
  | nil =>
    refine ⟨[.returns, .joins], { w with thread := .absent }, by simp, ?_, ⟨stopping, rfl, queue⟩, ?_⟩
    · simp [run, step, looping, stopping, queue]
    · simp
  | cons data rest ih =>
    let next : StdioWriter := { w with
      writeQueue := rest
      writeQueueBytes := w.writeQueueBytes - .ofNat data.length
      written := w.written ++ [data] }
    have written : run (step dumper) w [.takes, .writes] = some next := by
      simp [run, step, looping, queue, next]
    obtain ⟨events, t, same, later, joined, rest⟩ := ih (w := next) stopping looping rfl
    refine ⟨[.takes, .writes] ++ events, t, by simpa using same, ?_, joined, ?_⟩
    · rw [run_append, written]
      exact later
    · rw [rest]
      simp [next]

theorem stopping_ends {w : StdioWriter} (inv : w.ReturnsEmpty) (stopping : w.writeStopping = true)
    (present : w.thread ≠ .absent) : ∃ events t, .starts ∉ events ∧
      run (step dumper) w events = some t ∧ t.Joined ∧
        t.written = w.written ++ w.thread.inFlight ++ w.writeQueue := by
  cases thread : w.thread with
  | absent => exact absurd thread present
  | looping => simpa [WriterThread.inFlight] using looping_ends stopping thread
  | writing data =>
    let next : StdioWriter := { w with written := w.written ++ [data], thread := .looping }
    have wrote : w.step dumper .writes = some next := by simp [step, thread, next]
    obtain ⟨events, t, same, later, joined, rest⟩ := looping_ends (w := next) stopping rfl
    refine ⟨.writes :: events, t, by simpa using same, ?_, joined, rest⟩
    rw [run, wrote]
    exact later
  | returned =>
    have empty := (inv thread).2
    refine ⟨[.joins], { w with thread := .absent }, by simp, ?_, ⟨stopping, rfl, empty⟩, ?_⟩
    · simp [run, step, thread]
    · simp [WriterThread.inFlight, empty]

/-- What `stdout` gets is what was pushed, in its order and once each, without what an overflow
    evicted. From the flag of `stop` on nothing is pushed, the writer ends by its own steps, and
    when `stop` has joined it nothing is left. -/
structure Drained (dumper : Dumper) (events : List StdioWriterEvent) (w : StdioWriter) : Prop where
  flow : Flow {} w (pushed dumper events) (removed dumper events)
  ordered : w.written.Sublist (pushed dumper events)
  refused : ∀ front back, events = front ++ .stopBegins :: back → .starts ∉ back →
    pushed dumper events = pushed dumper front
  joined : ∀ front back, events = front ++ .joins :: back → .starts ∉ back →
    w.writeQueue = [] ∧ pushed dumper events = (removed dumper events).map Prod.fst ∧
      w.written = toWrite (removed dumper events) ∧ pushed dumper events = pushed dumper front
  ends : w.writeStopping = true → w.thread ≠ .absent → ∃ later t, .starts ∉ later ∧
    run (step dumper) w later = some t ∧ t.Joined ∧
      t.written = w.written ++ w.thread.inFlight ++ w.writeQueue

/-- Where a step leaves the flag of `stop` up and pushes nothing, nothing is pushed after it. -/
theorem pushed_until {front back : List StdioWriterEvent} {event : StdioWriterEvent}
    {t next w : StdioWriter} (reached : run (step dumper) {} front = some t)
    (stepped : t.step dumper event = some next) (h : run (step dumper) next back = some w)
    (nothing : t.pushes dumper event = []) (stopping : next.writeStopping = true)
    (same : .starts ∉ back) : pushed dumper (front ++ event :: back) = pushed dumper front := by
  unfold pushed
  rw [produced_append reached, produced_cons stepped, nothing, (run_stopping stopping same h).2]
  simp

theorem stop_drains (events : List StdioWriterEvent) (w : StdioWriter)
    (h : run (step dumper) {} events = some w) : Drained dumper events w := by
  have flow : Flow {} w (pushed dumper events) (removed dumper events) := run_flow h
  have fifo : pushed dumper events = (removed dumper events).map Prod.fst ++ w.writeQueue := by
    simpa using flow.fifo
  have written : w.written ++ w.thread.inFlight = toWrite (removed dumper events) := by
    simpa [WriterThread.inFlight] using flow.written
  refine ⟨flow, ?_, ?_, ?_, stopping_ends (run_returnsEmpty h)⟩
  · have begun : w.written.Sublist (toWrite (removed dumper events)) := by
      rw [← written]
      apply List.sublist_append_left
    have left := begun.trans (toWrite_sublist (removed dumper events))
    rw [fifo]
    exact left.trans (List.sublist_append_left _ _)
  · rintro front back rfl same
    obtain ⟨t, reached, h⟩ := run_split h
    obtain ⟨next, stepped, h⟩ := run_cons_eq h
    apply pushed_until reached stepped h rfl _ same
    simp only [step, Option.ite_none_left_eq_some, Option.some.injEq] at stepped
    obtain ⟨-, rfl⟩ := stepped
    rfl
  · rintro front back rfl same
    obtain ⟨t, reached, h⟩ := run_split h
    obtain ⟨next, stepped, h⟩ := run_cons_eq h
    have joined := joins_joined (run_returnsEmpty reached) stepped
    have final := run_joined joined same h
    refine ⟨final.empty, ?_, ?_, pushed_until reached stepped h rfl joined.stopping same⟩
    · rw [fifo, final.empty, List.append_nil]
    · rw [← written, final.thread]
      simp [WriterThread.inFlight]

/-- A notice written before the queue is stopped, one queued then, and one too late. -/
def stoppedNotices : List StdioWriterEvent :=
  [.starts, .sends (notice 1), .takes, .writes, .sends (notice 2), .stopBegins, .sends (notice 3),
    .takes, .writes, .returns, .joins]

theorem stopped_notices_drained : ∃ w, run (step noticeDumper) {} stoppedNotices = some w ∧
    Drained noticeDumper stoppedNotices w :=
  ⟨_, rfl, stop_drains stoppedNotices _ rfl⟩

end StdioWriter

end CppMcp
