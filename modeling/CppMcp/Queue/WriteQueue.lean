import CppMcp.Lib.Run
import CppMcp.Protocol

namespace CppMcp

open Lib

inductive QueueOverflowPolicy where
  | dropNewest
  | closeOnError
deriving DecidableEq

/-- An item of a write queue, known by the number of the call of `enqueue` that brought it. -/
structure QueueItem where
  call : Nat
  data : Bytes
deriving DecidableEq

/-- What a queue is constructed with. A bound of 0 is none. -/
structure WriteQueueConfig where
  maxQueuedBytes : Nat := 0
  policy : QueueOverflowPolicy := .dropNewest
  hasOnError : Bool := true

/-- An `AsyncWriteQueue` with the threads in its functions. `arming` counts the calls of
    `arm_write` that have not locked the mutex yet, `calling` are the buffers whose `do_write`
    is about to be called, `inFlight` those whose write has not completed, and `reporting`
    counts the calls of `on_error_` that are due. `returned`, `handed` and `errors` record what
    each `enqueue` returned, the calls of `do_write` and those of `on_error_`. -/
structure AsyncWriteQueue where
  queue : List QueueItem := []
  queuedBytes : Nat := 0
  writing : Bool := false
  active : Bool := true
  arming : Nat := 0
  calling : List QueueItem := []
  inFlight : List QueueItem := []
  reporting : Nat := 0
  returned : List (QueueItem × Bool) := []
  handed : List QueueItem := []
  errors : Nat := 0
deriving DecidableEq

/-- What the threads do, one critical section or one call of user code each. -/
inductive WriteQueueEvent where
  | enqueue (data : Bytes)
  | arms
  | hands (place : Nat)
  | completes (place : Nat) (ok : Bool)
  | reports
  | shutdown
deriving DecidableEq

namespace AsyncWriteQueue

variable (config : WriteQueueConfig)

/-- A call of `on_error_` becomes due. -/
def report (q : AsyncWriteQueue) : AsyncWriteQueue :=
  if config.hasOnError then { q with reporting := q.reporting + 1 } else q

def overflows (q : AsyncWriteQueue) (data : Bytes) : Bool :=
  decide (0 < config.maxQueuedBytes ∧ config.maxQueuedBytes < q.queuedBytes + data.length)

/-- The critical section of `enqueue`, and what the call returns. -/
def enqueue (q : AsyncWriteQueue) (item : QueueItem) : AsyncWriteQueue × Bool :=
  if !q.active then (q, false)
  else if q.overflows config item.data then
    match config.policy with
    | .closeOnError => ({ q with active := false, writing := false }.report config, false)
    | .dropNewest => (q, false)
  else
    let q := { q with
      queuedBytes := q.queuedBytes + item.data.length, queue := q.queue ++ [item] }
    (if q.writing then q else { q with writing := true, arming := q.arming + 1 }, true)

/-- The critical section of `arm_write`. -/
def armWrite (q : AsyncWriteQueue) : AsyncWriteQueue :=
  if !q.active then { q with writing := false }
  else
    match q.queue with
    | [] => { q with writing := false }
    | item :: rest =>
      { q with
        queuedBytes := q.queuedBytes - item.data.length
        queue := rest
        calling := q.calling ++ [item] }

/-- The critical section of `on_write_complete`. -/
def onWriteComplete (q : AsyncWriteQueue) (ok : Bool) : AsyncWriteQueue :=
  if ok then
    if q.active && !q.queue.isEmpty then { q with arming := q.arming + 1 }
    else { q with writing := false }
  else
    let closed := { q with active := false, writing := false }
    if q.active then closed.report config else closed

def step (q : AsyncWriteQueue) : WriteQueueEvent → Option AsyncWriteQueue
  | .enqueue data =>
    let item : QueueItem := ⟨q.returned.length, data⟩
    let (next, ok) := q.enqueue config item
    some { next with returned := q.returned ++ [(item, ok)] }
  | .arms => if 0 < q.arming then some { q with arming := q.arming - 1 }.armWrite else none
  | .hands place =>
    match q.calling[place]? with
    | some item =>
      some { q with
        calling := q.calling.eraseIdx place
        inFlight := q.inFlight ++ [item]
        handed := q.handed ++ [item] }
    | none => none
  | .completes place ok =>
    if place < q.inFlight.length then
      some ({ q with inFlight := q.inFlight.eraseIdx place }.onWriteComplete config ok)
    else none
  | .reports =>
    if 0 < q.reporting then some { q with reporting := q.reporting - 1, errors := q.errors + 1 }
    else none
  | .shutdown => some { q with active := false, queuedBytes := 0, queue := [] }

/-- The items whose `enqueue` returned true, in the order of their critical sections. -/
def accepted (q : AsyncWriteQueue) : List QueueItem :=
  (q.returned.filter Prod.snd).map Prod.fst

/-- The calls of `arm_write` under way and the writes that have not completed. -/
def busy (q : AsyncWriteQueue) : Nat := q.arming + q.calling.length + q.inFlight.length

end AsyncWriteQueue

end CppMcp
