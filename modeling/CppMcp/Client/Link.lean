import CppMcp.Client.Frame

namespace CppMcp

open Lib

inductive TransportKind where
  | stdio
  | localPipe
  | http
deriving DecidableEq

/-- What waits in the queue of the io loop. Connections are numbered from 1. Whether the
    caller of `disconnect` waits until its handlers are cleared, and the connection whose
    end a task comes from or in which it was posted, are ghosts. -/
inductive LoopTask where
  | onRead (conn : Nat)
  | onWrite (conn : Nat)
  | disconnectHandler (conn : Nat)
  | clearHandlers (awaited : Bool)
  | strand (task : Task) (conn : Nat)
deriving DecidableEq

/-- How far the user thread has come in `connect` or `async_connect`, of which the first
    blocks on the handshake, in `disconnect` or in `stop`. -/
inductive Stage where
  | idle
  | attached (blocks : Bool)
  | opening (blocks : Bool)
  | handshaking
  | closing (waits : Bool)
  | draining
  | stopped
deriving DecidableEq

/-- A client with its transport, its user thread and the io loop. `reads` and `writes`
    hold the connections of the operations in flight, `writers` those whose write queue is
    active. Ghosts are the number of connections `opened`, how many requests were built
    before the last of them (`since`), and `live`: `connect()` of the transport has
    succeeded and nobody has called `disconnect` or `stop` after it. -/
structure Link where
  client : Client := Client.initial true
  stage : Stage := .idle
  handlers : Bool := false
  connected : Bool := false
  stopping : Bool := false
  reads : List Nat := []
  writes : List Nat := []
  writers : List Nat := []
  queue : List LoopTask := []
  opened : Nat := 0
  since : Nat := 0
  live : Bool := false

/-- The steps of the user thread (up to `returns`), of a `disconnect` or `stop` on the io
    thread, of the operations on the socket, and of the io loop. -/
inductive LinkEvent where
  | attaches (blocks : Bool)
  | begins
  | opens
  | openFails
  | abandons
  | finishes
  | rollbacks
  | disconnects (waits : Bool)
  | drains
  | returns
  | stops (inline : Bool)
  | stopDrains
  | disconnectsInline
  | readFails (place : Nat)
  | readDone (place : Nat)
  | drops (place : Nat)
  | writes
  | writeFails (place : Nat)
  | writeDone (place : Nat)
  | receives (message : Json)
  | acts (event : ClientEvent)
  | runs (place : Nat)
deriving DecidableEq

def LoopTask.isStrand : LoopTask → Bool
  | .strand _ _ => true
  | _ => false

def Task.isDrain : Task → Bool
  | .drain _ => true
  | _ => false

def LoopTask.isDrain : LoopTask → Bool
  | .strand task _ => task.isDrain
  | _ => false

def Stage.connecting : Stage → Bool
  | .attached _ | .opening _ => true
  | _ => false

/-- Where `connect` or `async_connect` goes on when the transport has returned. -/
def Stage.entered (blocks : Bool) : Stage := if blocks then .handshaking else .idle

/-- The steps of a client that have nothing to do with its connections. -/
def ClientEvent.isLocal : ClientEvent → Bool
  | .tests _ _ | .builds _ | .posts _ | .cancel _ _ | .timerExpires _ | .runCallback | .runJob _
  | .stopDrainsInline | .stopEnds => true
  | _ => false

/-- The client moves on, and what it posted on its strand joins the queue of the loop. -/
def Link.after (s : Link) (old : List Task) (conn : Nat) (c : Client) : Link :=
  { s with
    client := c
    queue := s.queue ++ (c.strand.drop old.length).map fun task => .strand task conn }

def Link.act (env : ClientEnv) (s : Link) (conn : Nat) (event : ClientEvent) : Option Link :=
  (s.client.step env event).map fun c => s.after s.client.strand conn c

/-- `disconnect` of the transport. -/
def Link.transportDisconnect (s : Link) (awaited : Bool) : Link :=
  { s with
    connected := false
    stopping := true
    writers := s.writers.erase s.opened
    queue := if s.handlers then s.queue ++ [.clearHandlers awaited] else s.queue
    live := false }

/-- Posts the call of the disconnect handler. -/
def Link.signal (s : Link) (conn : Nat) : Link :=
  if s.handlers then { s with queue := s.queue ++ [.disconnectHandler conn] } else s

/-- `on_read` with an error code. -/
def Link.onReadError (s : Link) (conn : Nat) : Link := { s with connected := false }.signal conn

/-- `do_read` with a line over the cap in the buffer. -/
def Link.drop (s : Link) (conn : Nat) : Link :=
  { s with connected := false, stopping := true, writers := s.writers.erase s.opened }.signal conn

/-- The end of `connect` of the transport. Over HTTP it says once more that it is connected. -/
def Link.open (kind : TransportKind) (s : Link) : Link :=
  let conn := s.opened + 1
  { s with
    connected := s.connected || kind == .http
    reads := if s.stopping then s.reads else s.reads ++ [conn]
    writers := s.writers ++ [conn]
    opened := conn
    since := s.client.requests.length
    live := true }

/-- A task of the loop that is not one of the strand. -/
def Link.runLoopTask (env : ClientEnv) (s : Link) : LoopTask → Option Link
  | .onRead conn => some (s.onReadError conn)
  | .onWrite conn =>
    some (if conn ∈ s.writers then { s with writers := s.writers.erase conn }.onReadError conn else s)
  | .disconnectHandler conn => if s.handlers then s.act env conn .peerCloses else some s
  | .clearHandlers _ => some { s with handlers := false }
  | .strand _ _ => none

/-- The task at a place of the queue runs: the first one, or one that is not of the strand
    and has only such tasks before it, since a strand with work to do queues again. -/
def Link.runTask (env : ClientEnv) (s : Link) (place : Nat) : Option Link :=
  let rest := { s with queue := s.queue.eraseIdx place }
  match s.queue[place]? with
  | none => none
  | some (.strand _ _) =>
    if place = 0 then
      (s.client.step env .runTask).map fun c => rest.after s.client.strand.tail s.opened c
    else none
  | some task =>
    if (s.queue.take place).all LoopTask.isStrand then rest.runLoopTask env task else none

def Link.step (env : ClientEnv) (kind : TransportKind) (s : Link) : LinkEvent → Option Link
  | .attaches blocks =>
    if s.stage = .idle then
      (s.act env s.opened .connect).map fun s => { s with stage := .attached blocks, handlers := true }
    else none
  | .begins =>
    match s.stage with
    | .attached blocks =>
      if s.connected then some { s with stage := Stage.entered blocks, live := true }
      else some { s with stage := .opening blocks, connected := true, stopping := false }
    | _ => none
  | .opens =>
    match s.stage with
    | .opening blocks => some { s.open kind with stage := Stage.entered blocks }
    | _ => none
  | .openFails =>
    match s.stage with
    | .opening _ => some { s with stage := .idle, connected := false }
    | _ => none
  | .abandons =>
    match s.stage with
    | .opening blocks =>
      if kind = .localPipe ∧ s.stopping = true then
        some { s with stage := Stage.entered blocks, connected := false }
      else none
    | _ => none
  | .finishes => if s.stage = .handshaking then some { s with stage := .idle } else none
  | .rollbacks =>
    if s.stage = .handshaking then
      (s.act env s.opened .rollback).map fun s =>
        { s.transportDisconnect false with stage := .idle }
    else none
  | .disconnects waits =>
    if s.stage = .idle ∧ (waits = true ∨ env.ownsIoContext = false) then
      some { s.transportDisconnect waits with stage := .closing waits }
    else none
  | .drains =>
    match s.stage with
    | .closing waits =>
      (s.act env s.opened .disconnect).map fun s =>
        { s with stage := if waits then .draining else .idle }
    | _ => none
  | .returns =>
    if s.stage = .draining ∧ s.queue.any LoopTask.isDrain = false then some { s with stage := .idle }
    else none
  | .stops inline =>
    if inline = true ∨ s.stage = .idle then
      (s.act env s.opened .stopBegins).map fun s =>
        { s.transportDisconnect false with stage := if inline then s.stage else .stopped }
    else none
  | .stopDrains => if s.stage = .stopped then s.act env s.opened .stopDrains else none
  | .disconnectsInline => (s.transportDisconnect false).act env s.opened .disconnectInline
  | .readFails place =>
    (s.reads[place]?).map fun conn =>
      { s with reads := s.reads.eraseIdx place, queue := s.queue ++ [.onRead conn] }
  | .readDone place =>
    (s.reads[place]?).map fun _ =>
      { s with reads := s.reads.eraseIdx place ++ if s.stopping then [] else [s.opened] }
  | .drops place =>
    if kind = .http then none
    else (s.reads[place]?).map fun conn => { s with reads := s.reads.eraseIdx place }.drop conn
  | .writes =>
    if kind = .stdio ∧ s.opened ∈ s.writers then some { s with writes := s.writes ++ [s.opened] }
    else none
  | .writeFails place =>
    (s.writes[place]?).map fun conn =>
      { s with writes := s.writes.eraseIdx place, queue := s.queue ++ [.onWrite conn] }
  | .writeDone place => (s.writes[place]?).map fun _ => { s with writes := s.writes.eraseIdx place }
  | .receives message => if s.handlers then s.act env s.opened (.arrives message) else some s
  | .acts event => if event.isLocal then s.act env s.opened event else none
  | .runs place => if s.client.ioAlive then s.runTask env place else none

/-- The steps again, one constructor for each way an event can go. -/
inductive Link.Stepped (env : ClientEnv) (kind : TransportKind) (s : Link) :
    LinkEvent → Link → Prop where
  | attaches (blocks : Bool) (mid : Link) (stage : s.stage = .idle)
      (acted : s.act env s.opened .connect = some mid) :
      Stepped env kind s (.attaches blocks)
        { mid with stage := .attached blocks, handlers := true }
  | rejoins (blocks : Bool) (stage : s.stage = .attached blocks) (up : s.connected = true) :
      Stepped env kind s .begins { s with stage := Stage.entered blocks, live := true }
  | begins (blocks : Bool) (stage : s.stage = .attached blocks) (down : s.connected = false) :
      Stepped env kind s .begins
        { s with stage := .opening blocks, connected := true, stopping := false }
  | opens (blocks : Bool) (stage : s.stage = .opening blocks) :
      Stepped env kind s .opens { s.open kind with stage := Stage.entered blocks }
  | openFails (blocks : Bool) (stage : s.stage = .opening blocks) :
      Stepped env kind s .openFails { s with stage := .idle, connected := false }
  | abandons (blocks : Bool) (stage : s.stage = .opening blocks)
      (stopping : kind = .localPipe ∧ s.stopping = true) :
      Stepped env kind s .abandons { s with stage := Stage.entered blocks, connected := false }
  | finishes (stage : s.stage = .handshaking) :
      Stepped env kind s .finishes { s with stage := .idle }
  | rollbacks (mid : Link) (stage : s.stage = .handshaking)
      (acted : s.act env s.opened .rollback = some mid) :
      Stepped env kind s .rollbacks { mid.transportDisconnect false with stage := .idle }
  | disconnects (waits : Bool) (stage : s.stage = .idle)
      (allowed : waits = true ∨ env.ownsIoContext = false) :
      Stepped env kind s (.disconnects waits)
        { s.transportDisconnect waits with stage := .closing waits }
  | drains (waits : Bool) (mid : Link) (stage : s.stage = .closing waits)
      (acted : s.act env s.opened .disconnect = some mid) :
      Stepped env kind s .drains { mid with stage := if waits then .draining else .idle }
  | returns (stage : s.stage = .draining) (drained : s.queue.any LoopTask.isDrain = false) :
      Stepped env kind s .returns { s with stage := .idle }
  | stops (inline : Bool) (mid : Link) (allowed : inline = true ∨ s.stage = .idle)
      (acted : s.act env s.opened .stopBegins = some mid) :
      Stepped env kind s (.stops inline)
        { mid.transportDisconnect false with stage := if inline then mid.stage else .stopped }
  | stopDrains (mid : Link) (stage : s.stage = .stopped)
      (acted : s.act env s.opened .stopDrains = some mid) : Stepped env kind s .stopDrains mid
  | disconnectsInline (mid : Link)
      (acted : (s.transportDisconnect false).act env s.opened .disconnectInline = some mid) :
      Stepped env kind s .disconnectsInline mid
  | readFails (place conn : Nat) (found : s.reads[place]? = some conn) :
      Stepped env kind s (.readFails place)
        { s with reads := s.reads.eraseIdx place, queue := s.queue ++ [.onRead conn] }
  | readDone (place conn : Nat) (found : s.reads[place]? = some conn) :
      Stepped env kind s (.readDone place)
        { s with reads := s.reads.eraseIdx place ++ if s.stopping then [] else [s.opened] }
  | drops (place conn : Nat) (other : kind ≠ .http) (found : s.reads[place]? = some conn) :
      Stepped env kind s (.drops place)
        ({ s with reads := s.reads.eraseIdx place }.drop conn)
  | writes (opened : kind = .stdio ∧ s.opened ∈ s.writers) :
      Stepped env kind s .writes { s with writes := s.writes ++ [s.opened] }
  | writeFails (place conn : Nat) (found : s.writes[place]? = some conn) :
      Stepped env kind s (.writeFails place)
        { s with writes := s.writes.eraseIdx place, queue := s.queue ++ [.onWrite conn] }
  | writeDone (place conn : Nat) (found : s.writes[place]? = some conn) :
      Stepped env kind s (.writeDone place) { s with writes := s.writes.eraseIdx place }
  | receives (message : Json) (mid : Link) (handlers : s.handlers = true)
      (acted : s.act env s.opened (.arrives message) = some mid) :
      Stepped env kind s (.receives message) mid
  | ignores (message : Json) (deaf : s.handlers = false) :
      Stepped env kind s (.receives message) s
  | acts (event : ClientEvent) (mid : Link) (isLocal : event.isLocal = true)
      (acted : s.act env s.opened event = some mid) : Stepped env kind s (.acts event) mid
  | runs (place : Nat) (mid : Link) (alive : s.client.ioAlive = true)
      (ran : s.runTask env place = some mid) : Stepped env kind s (.runs place) mid

theorem link_cases {env : ClientEnv} {kind : TransportKind} {s s' : Link} {event : LinkEvent}
    (h : s.step env kind event = some s') : Link.Stepped env kind s event s' := by
  cases event with
  | attaches blocks =>
    simp only [Link.step, Option.ite_none_right_eq_some, Option.map_eq_some_iff] at h
    obtain ⟨stage, mid, acted, rfl⟩ := h
    exact .attaches blocks mid stage acted
  | begins =>
    simp only [Link.step] at h
    split at h
    · rename_i blocks stage
      split at h
      · rename_i up
        cases h
        exact .rejoins blocks stage up
      · rename_i down
        cases h
        exact .begins blocks stage (Bool.eq_false_iff.mpr down)
    · cases h
  | opens =>
    simp only [Link.step] at h
    split at h
    · rename_i blocks stage
      cases h
      exact .opens blocks stage
    · cases h
  | openFails =>
    simp only [Link.step] at h
    split at h
    · rename_i blocks stage
      cases h
      exact .openFails blocks stage
    · cases h
  | abandons =>
    simp only [Link.step] at h
    split at h
    · rename_i blocks stage
      simp only [Option.ite_none_right_eq_some, Option.some.injEq] at h
      obtain ⟨stopping, rfl⟩ := h
      exact .abandons blocks stage stopping
    · cases h
  | finishes =>
    simp only [Link.step, Option.ite_none_right_eq_some, Option.some.injEq] at h
    obtain ⟨stage, rfl⟩ := h
    exact .finishes stage
  | rollbacks =>
    simp only [Link.step, Option.ite_none_right_eq_some, Option.map_eq_some_iff] at h
    obtain ⟨stage, mid, acted, rfl⟩ := h
    exact .rollbacks mid stage acted
  | disconnects waits =>
    simp only [Link.step, Option.ite_none_right_eq_some, Option.some.injEq] at h
    obtain ⟨⟨stage, allowed⟩, rfl⟩ := h
    exact .disconnects waits stage allowed
  | drains =>
    simp only [Link.step] at h
    split at h
    · rename_i waits stage
      obtain ⟨mid, acted, rfl⟩ := Option.map_eq_some_iff.mp h
      exact .drains waits mid stage acted
    · cases h
  | returns =>
    simp only [Link.step, Option.ite_none_right_eq_some, Option.some.injEq] at h
    obtain ⟨⟨stage, drained⟩, rfl⟩ := h
    exact .returns stage drained
  | stops inline =>
    simp only [Link.step, Option.ite_none_right_eq_some, Option.map_eq_some_iff] at h
    obtain ⟨allowed, mid, acted, rfl⟩ := h
    exact .stops inline mid allowed acted
  | stopDrains =>
    simp only [Link.step, Option.ite_none_right_eq_some] at h
    exact .stopDrains s' h.1 h.2
  | disconnectsInline => exact .disconnectsInline s' h
  | readFails place =>
    obtain ⟨conn, found, rfl⟩ := Option.map_eq_some_iff.mp h
    exact .readFails place conn found
  | readDone place =>
    obtain ⟨conn, found, rfl⟩ := Option.map_eq_some_iff.mp h
    exact .readDone place conn found
  | drops place =>
    simp only [Link.step, Option.ite_none_left_eq_some, Option.map_eq_some_iff] at h
    obtain ⟨other, conn, found, rfl⟩ := h
    exact .drops place conn other found
  | writes =>
    simp only [Link.step, Option.ite_none_right_eq_some, Option.some.injEq] at h
    obtain ⟨opened, rfl⟩ := h
    exact .writes opened
  | writeFails place =>
    obtain ⟨conn, found, rfl⟩ := Option.map_eq_some_iff.mp h
    exact .writeFails place conn found
  | writeDone place =>
    obtain ⟨conn, found, rfl⟩ := Option.map_eq_some_iff.mp h
    exact .writeDone place conn found
  | receives message =>
    simp only [Link.step] at h
    split at h
    · rename_i handlers
      exact .receives message s' handlers h
    · rename_i deaf
      cases h
      exact .ignores message (Bool.eq_false_iff.mpr deaf)
  | acts event =>
    simp only [Link.step, Option.ite_none_right_eq_some] at h
    exact .acts event s' h.1 h.2
  | runs place =>
    simp only [Link.step, Option.ite_none_right_eq_some] at h
    exact .runs place s' h.1 h.2

end CppMcp
