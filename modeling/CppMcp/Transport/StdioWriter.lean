import CppMcp.Http.Sse
import CppMcp.Lib.Run

namespace CppMcp

open Lib

/-- `message.dump()`. A text and its newline are a `std::string`, so their size is a `size_t`. -/
structure Dumper where
  dump : Json → Bytes
  sized : ∀ m, (dump m ++ [newline]).length < 2 ^ 64

/-- The line that `send_message` makes of a message. -/
def Dumper.line (dumper : Dumper) (m : Json) : Bytes := dumper.dump m ++ [newline]

def maxQueuedWriteBytes : Nat := 32 * 1024 * 1024

/-- Where `writer_thread_` is in `write_loop`: not there or joined, about to lock the mutex or
    waiting under it, in `fwrite` with what it took, or returned and not joined. -/
inductive WriterThread where
  | absent
  | looping
  | writing (data : Bytes)
  | returned
deriving DecidableEq

/-- What a `StdioTransport` keeps for its writes, outside `write_mutex_`. `written` and
    `discarded` record what reached `stdout` and what `send_message` threw away. -/
structure StdioWriter where
  writeQueue : List Bytes := []
  writeQueueBytes : UInt64 := 0
  writeStopping : Bool := false
  thread : WriterThread := .absent
  written : List Bytes := []
  discarded : List Bytes := []
deriving DecidableEq

/-- What the threads do, one critical section or one system call each. A reader of `stdout` that
    does not read is a write that does not end. -/
inductive StdioWriterEvent where
  | starts
  | sends (message : Json)
  | takes
  | writes
  | returns
  | stopBegins
  | joins
deriving DecidableEq

namespace StdioWriter

variable (dumper : Dumper)

/-- `write_queue_.pop_front()`, when there is a front. The count stays as it is. -/
def dropOldest (w : StdioWriter) : StdioWriter :=
  match w.writeQueue with
  | [] => w
  | oldest :: rest => { w with writeQueue := rest, discarded := w.discarded ++ [oldest] }

/-- The test of `send_message`, in `size_t`. -/
def overflows (w : StdioWriter) (data : Bytes) : Bool :=
  decide (maxQueuedWriteBytes < (w.writeQueueBytes + .ofNat data.length).toNat)

def sendMessage (w : StdioWriter) (message : Json) : StdioWriter :=
  let data := dumper.line message
  if w.writeStopping then w
  else
    let w := if w.overflows data then w.dropOldest else w
    { w with
      writeQueueBytes := w.writeQueueBytes + .ofNat data.length
      writeQueue := w.writeQueue ++ [data] }

def step (w : StdioWriter) : StdioWriterEvent → Option StdioWriter
  | .starts =>
    if w.thread = .absent then some { w with writeStopping := false, thread := .looping } else none
  | .sends message => some (w.sendMessage dumper message)
  | .takes =>
    match w.thread, w.writeQueue with
    | .looping, data :: rest =>
      some { w with
        writeQueue := rest
        writeQueueBytes := w.writeQueueBytes - .ofNat data.length
        thread := .writing data }
    | _, _ => none
  | .writes =>
    match w.thread with
    | .writing data => some { w with written := w.written ++ [data], thread := .looping }
    | _ => none
  | .returns =>
    if w.thread = .looping ∧ w.writeStopping = true ∧ w.writeQueue = [] then
      some { w with thread := .returned }
    else none
  | .stopBegins => if w.thread = .absent then none else some { w with writeStopping := true }
  | .joins => if w.thread = .returned then some { w with thread := .absent } else none

/-- The bytes that are really queued. -/
def waitingBytes (w : StdioWriter) : Nat := (w.writeQueue.map List.length).sum

/-- What is queued are lines: they have a byte, and their size is a `size_t`. -/
def Lined (w : StdioWriter) : Prop := ∀ data ∈ w.writeQueue, 0 < data.length ∧ data.length < 2 ^ 64

theorem line_sized (m : Json) : 0 < (dumper.line m).length ∧ (dumper.line m).length < 2 ^ 64 := by
  refine ⟨?_, dumper.sized m⟩
  simp [Dumper.line]

theorem size_line (m : Json) :
    (UInt64.ofNat (dumper.line m).length).toNat = (dumper.line m).length :=
  UInt64.toNat_ofNat_of_lt' (line_sized dumper m).2

variable {dumper}

/-- What a call of `send_message` does: nothing while stopping, else it appends its line to what
    is queued, or to what is left without the oldest. -/
theorem sendMessage_cases (w : StdioWriter) (m : Json) :
    (w.writeStopping = true ∧ w.sendMessage dumper m = w) ∨
    (w.writeStopping = false ∧ (w.overflows (dumper.line m) = false ∨ w.writeQueue = []) ∧
      w.sendMessage dumper m = { w with
        writeQueueBytes := w.writeQueueBytes + .ofNat (dumper.line m).length
        writeQueue := w.writeQueue ++ [dumper.line m] }) ∨
    ∃ oldest rest, w.writeStopping = false ∧ w.overflows (dumper.line m) = true ∧
      w.writeQueue = oldest :: rest ∧ w.sendMessage dumper m = { w with
        writeQueueBytes := w.writeQueueBytes + .ofNat (dumper.line m).length
        writeQueue := rest ++ [dumper.line m]
        discarded := w.discarded ++ [oldest] } := by
  unfold sendMessage
  cases stopping : w.writeStopping with
  | true => exact .inl ⟨rfl, rfl⟩
  | false =>
    refine .inr ?_
    cases overflow : w.overflows (dumper.line m) with
    | false => exact .inl ⟨rfl, .inl rfl, by simp [overflow, stopping]⟩
    | true =>
      cases queue : w.writeQueue with
      | nil => exact .inl ⟨rfl, .inr rfl, by simp [dropOldest, queue, stopping]⟩
      | cons oldest rest =>
        exact .inr ⟨oldest, rest, rfl, rfl, rfl, by simp [dropOldest, queue, overflow, stopping]⟩

/-- A step other than a `send_message` takes the front of the queue or leaves the queue alone. -/
theorem step_other {w w' : StdioWriter} {event : StdioWriterEvent}
    (other : ∀ m, event ≠ .sends m) (h : w.step dumper event = some w') :
    w'.discarded = w.discarded ∧
    ((w'.writeQueue = w.writeQueue ∧ w'.writeQueueBytes = w.writeQueueBytes) ∨
      ∃ data, w.writeQueue = data :: w'.writeQueue ∧
        w'.writeQueueBytes = w.writeQueueBytes - .ofNat data.length) := by
  cases event with
  | sends m => exact absurd rfl (other m)
  | takes =>
    simp only [step] at h
    split at h
    · rename_i data rest _ queue
      cases h
      exact ⟨rfl, .inr ⟨data, queue, rfl⟩⟩
    · cases h
  | writes =>
    simp only [step] at h
    split at h
    · cases h
      exact ⟨rfl, .inl ⟨rfl, rfl⟩⟩
    · cases h
  | starts | returns | joins =>
    simp only [step, Option.ite_none_right_eq_some, Option.some.injEq] at h
    obtain ⟨-, rfl⟩ := h
    exact ⟨rfl, .inl ⟨rfl, rfl⟩⟩
  | stopBegins =>
    simp only [step, Option.ite_none_left_eq_some, Option.some.injEq] at h
    obtain ⟨-, rfl⟩ := h
    exact ⟨rfl, .inl ⟨rfl, rfl⟩⟩

theorem step_lined {w w' : StdioWriter} {event : StdioWriterEvent} (lined : w.Lined)
    (h : w.step dumper event = some w') : w'.Lined := by
  have grown {data : Bytes} {m : Json} {kept : List Bytes} (within : ∀ d ∈ kept, d ∈ w.writeQueue)
      (member : data ∈ kept ++ [dumper.line m]) : 0 < data.length ∧ data.length < 2 ^ 64 := by
    rcases List.mem_append.mp member with old | new
    · exact lined data (within data old)
    · rw [List.mem_singleton.mp new]
      exact line_sized dumper m
  by_cases send : ∃ m, event = .sends m
  · obtain ⟨m, rfl⟩ := send
    cases h
    rcases sendMessage_cases w m with ⟨-, same⟩ | ⟨-, -, grows⟩ | ⟨oldest, rest, -, -, queue, drops⟩
    · rw [same]
      exact lined
    · rw [grows]
      exact fun data => grown fun d member => member
    · rw [drops]
      exact fun data => grown fun d member => by rw [queue]; exact List.mem_cons_of_mem _ member
  · rcases (step_other (fun m same => send ⟨m, same⟩) h).2 with ⟨queue, -⟩ | ⟨data, queue, -⟩
    · unfold Lined
      rw [queue]
      exact lined
    · exact fun d member => lined d (by rw [queue]; exact List.mem_cons_of_mem _ member)

end StdioWriter

end CppMcp
