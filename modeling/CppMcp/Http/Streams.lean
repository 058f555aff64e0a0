import Mathlib.Logic.Function.Basic
import CppMcp.Lib.Run
import CppMcp.Http.Transport

namespace CppMcp

open Lib Function

/-- An `SseConnection`: its connection and the session `handle_get_sse` found for it. Its
    serial number tells it from others. -/
structure SseStream where
  conn : Nat
  session : Nat
  serial : Nat
deriving DecidableEq

/-- An `HttpSession`, which its holders keep alive after `sessions_` has dropped it. -/
structure SessionObject where
  sessionId : SessionId := []
  sseConnections : List SseStream := []
deriving DecidableEq

/-- How far `handle_get_sse` is. It runs on the strand of its connection. -/
inductive GetPhase where
  | idle
  | refusing
  | found (session : Nat)
  | installed (stream : SseStream)
deriving DecidableEq

/-- The part of an `HttpConnection` that decides over its stream. `on_disconnect` holds the
    stream it removes. -/
structure StreamConnection where
  active : Bool := true
  socketOpen : Bool := true
  onDisconnect : Option SseStream := none
  getSse : GetPhase := .idle
deriving DecidableEq

/-- How far a call of `on_error` is: called, past the exchange of `active`, or in the
    `on_disconnect` of a stream and not yet past the lock. -/
inductive ErrorPhase where
  | called (conn : Nat)
  | exchanged (conn : Nat)
  | disconnecting (stream : SseStream)
deriving DecidableEq

/-- A thread that is out of its critical section and closes the streams it collected there,
    one `on_error` after the other. -/
structure Closer where
  onError : Option ErrorPhase := none
  toClose : List SseStream := []
deriving DecidableEq

/-- The sessions and streams of a transport between two critical sections of its threads.
    Connections are there from the start, as they are when they are accepted. `attached` is
    the history of all streams that a session has listed. -/
structure StreamTable where
  sessions : AList (fun _ : SessionId => Nat) := ∅
  objects : Nat → SessionObject := fun _ => {}
  objectCount : Nat := 0
  streamCount : Nat := 0
  connections : Nat → StreamConnection := fun _ => {}
  closers : Nat → Closer := fun _ => {}
  attached : List SseStream := []

/-- What a thread does next. `accepts` is the test of the `Accept` header. The threads of
    `errors`, `deletes`, `sweeps` and `stops` go on by `advances`. A `sweeps` names the
    sessions that have been idle for too long. -/
inductive StreamEvent where
  | creates (id : SessionId)
  | rollsBack (id : SessionId)
  | finds (conn : Nat) (id : SessionId) (accepts : Bool)
  | refuses (conn : Nat)
  | installs (conn : Nat)
  | attaches (conn : Nat)
  | errors (thread conn : Nat)
  | deletes (thread : Nat) (id : SessionId)
  | sweeps (thread : Nat) (ids : List SessionId)
  | stops (thread : Nat)
  | advances (thread : Nat)
deriving DecidableEq

namespace StreamTable

def initial : StreamTable := {}

def findSession (l : StreamTable) (id : SessionId) : Option Nat :=
  if id.isEmpty then none else l.sessions.lookup id

def setConnection (l : StreamTable) (conn : Nat) (c : StreamConnection) : StreamTable :=
  { l with connections := update l.connections conn c }

def setCloser (l : StreamTable) (thread : Nat) (closer : Closer) : StreamTable :=
  { l with closers := update l.closers thread closer }

/-- The critical section of `create_session`. -/
def create (l : StreamTable) (id : SessionId) : StreamTable :=
  { l with
    sessions := l.sessions.insert id l.objectCount
    objects := update l.objects l.objectCount { sessionId := id }
    objectCount := l.objectCount + 1 }

/-- The critical section of `handle_get_sse` with which it ends. -/
def attach (l : StreamTable) (st : SseStream) : StreamTable :=
  let session := l.objects st.session
  { l with
    objects := update l.objects st.session
      { session with sseConnections := session.sseConnections ++ [st] }
    attached := l.attached ++ [st] }

/-- The critical section of `on_disconnect`. -/
def detach (l : StreamTable) (st : SseStream) : StreamTable :=
  let session := l.objects st.session
  { l with
    objects := update l.objects st.session
      { session with sseConnections := session.sseConnections.filter (· ≠ st) } }

def under (l : StreamTable) (ids : List SessionId) : List Nat := ids.filterMap l.sessions.lookup

/-- The critical section of `handle_delete`, `sweep_sessions` and `stop`, whose thread has the
    streams of the dropped sessions to close. -/
def drop (l : StreamTable) (thread : Nat) (ids : List SessionId) : StreamTable :=
  let dropped := l.under ids
  let toClose := dropped.flatMap fun o => (l.objects o).sseConnections
  { l with
    sessions := ids.foldl (fun sessions id => sessions.erase id) l.sessions
    objects := fun o => if o ∈ dropped then { l.objects o with sseConnections := [] }
      else l.objects o
    closers := update l.closers thread { toClose } }

/-- A thread without work starts a handler. -/
def onThread (l : StreamTable) (thread : Nat) (next : StreamTable) : Option StreamTable :=
  if l.closers thread = {} then some next else none

/-- The next step of a thread that closes streams. -/
def advance (l : StreamTable) (thread : Nat) : Option StreamTable :=
  match l.closers thread with
  | ⟨none, []⟩ => none
  | ⟨none, st :: rest⟩ =>
    some ((l.setConnection st.conn { l.connections st.conn with socketOpen := false }).setCloser
      thread ⟨some (.called st.conn), rest⟩)
  | ⟨some (.called conn), rest⟩ =>
    if (l.connections conn).active then
      some ((l.setConnection conn { l.connections conn with active := false }).setCloser
        thread ⟨some (.exchanged conn), rest⟩)
    else some (l.setCloser thread ⟨none, rest⟩)
  | ⟨some (.exchanged conn), rest⟩ =>
    some (l.setCloser thread ⟨(l.connections conn).onDisconnect.map .disconnecting, rest⟩)
  | ⟨some (.disconnecting st), rest⟩ => some ((l.detach st).setCloser thread ⟨none, rest⟩)

def step (l : StreamTable) : StreamEvent → Option StreamTable
  | .creates id => some (l.create id)
  -- the session of a refused `initialize`, whose streams are not looked at
  | .rollsBack id => some { l with sessions := l.sessions.erase id }
  | .finds conn id accepts =>
    match (l.connections conn).getSse with
    | .idle =>
      let phase : GetPhase := match l.findSession id with
        | some o => if accepts then .found o else .refusing
        | none => .refusing
      some (l.setConnection conn { l.connections conn with getSse := phase })
    | _ => none
  -- the 403 and 404 of `handle_request` refuse a connection in the same way
  | .refuses conn =>
    match (l.connections conn).getSse with
    | .idle | .refusing =>
      some (l.setConnection conn { l.connections conn with active := false, getSse := .idle })
    | _ => none
  | .installs conn =>
    match (l.connections conn).getSse with
    | .found o =>
      let st : SseStream := ⟨conn, o, l.streamCount⟩
      some ({ l with streamCount := l.streamCount + 1 }.setConnection conn
        { l.connections conn with onDisconnect := some st, getSse := .installed st })
    | _ => none
  | .attaches conn =>
    match (l.connections conn).getSse with
    | .installed st =>
      some ((l.attach st).setConnection conn { l.connections conn with getSse := .idle })
    | _ => none
  | .errors thread conn => l.onThread thread (l.setCloser thread ⟨some (.called conn), []⟩)
  | .deletes thread id => l.onThread thread (l.drop thread (if id.isEmpty then [] else [id]))
  | .sweeps thread ids => l.onThread thread (l.drop thread ids)
  | .stops thread => l.onThread thread (l.drop thread l.sessions.keys)
  | .advances thread => l.advance thread

end StreamTable

end CppMcp
