import CppMcp.Transport.Line
import CppMcp.Http.Transport

namespace CppMcp

open Lib

/-- The JSON library, and what a message handler throws at each message. -/
structure LineEnv where
  dump : Json → Bytes
  parse : Bytes → ParseOutcome
  handler : Json → Option HandlerThrow

namespace LineEnv

variable (env : LineEnv)

/-- A message as it is sent. -/
def frame (m : Json) : Bytes := env.dump m ++ [newline]

/-- What the JSON library promises of a message: its text is one line that parses to it. -/
structure Framed (m : Json) : Prop where
  oneLine : newline ∉ env.dump m ∧ carriageReturn ∉ env.dump m
  written : env.dump m ≠ []
  parses : env.parse (env.dump m) = .value m

end LineEnv

/-- A connected client transport: what it gave to its write queue, the messages it gave there,
    and what its error handler was called with. -/
structure LineSender where
  queued : List Bytes := []
  sent : List Json := []
  errors : List String := []

/-- `send_message` of a client transport with its bound and its message. -/
def LineSender.sendMessage (env : LineEnv) (rules : LineRules) (tooLarge : String)
    (c : LineSender) (m : Json) : LineSender :=
  let data := env.frame m
  if rules.maxLineSize < data.length then { c with errors := c.errors ++ [tooLarge] }
  else { c with queued := c.queued ++ [data], sent := c.sent ++ [m] }

def StdioClientTransport.sendMessage (env : LineEnv) : LineSender → Json → LineSender :=
  LineSender.sendMessage env stdioRules "stdio message too large"

def LocalPipeClientTransport.sendMessage (env : LineEnv) : LineSender → Json → LineSender :=
  LineSender.sendMessage env localPipeRules "pipe message too large"

/-- What the two transports that read lines from a client do differently: what they write and
    report when a line is too long, and whether they disconnect only once. -/
structure LineServerRules where
  maxLineSize : Nat := 4 * 1024 * 1024
  /-- The maximal size of `read_buf`. -/
  capacity : Nat := 64 * 1024 * 1024
  tooLargeReply : Option Json
  tooLargeError : Option String
  once : Bool

def stdioServerRules : LineServerRules where
  tooLargeReply := none
  tooLargeError := some "Message too large, dropping connection"
  once := false

def pipeServerRules : LineServerRules where
  tooLargeReply := some (makeErrorResponseNullId Protocol.parseError "Message too large")
  tooLargeError := none
  once := true

/-- A `StdioTransport` or a `PipeConnection`. `running` is `running_` of the one and `active` of
    the other, and `reading` says that an `async_read_until` is outstanding. The rest records
    the calls of the disconnect handler, of the message handler and of the error handler, and
    what the transport itself wrote. -/
structure LineServer where
  readBuf : Bytes := []
  running : Bool := true
  reading : Bool := true
  disconnects : Nat := 0
  delivered : List Json := []
  replies : List Json := []
  errors : List String := []

/-- `completes` is an `async_read_until` that finds its delimiter in the buffer, `stops` a call
    of the transport's `stop`. -/
inductive LineServerEvent where
  | receives (bytes : Bytes)
  | completes
  | fails
  | stops
deriving DecidableEq

/-- The bytes that a read brings in. -/
def LineServerEvent.brought : LineServerEvent → Bytes
  | .receives bytes => bytes
  | _ => []

def LineServerEvent.isRead : LineServerEvent → Bool
  | .receives _ | .completes => true
  | .fails | .stops => false

namespace LineServer

variable (rules : LineServerRules) (env : LineEnv)

/-- `on_error` of a connection, and what `on_read` does instead. -/
def disconnect (s : LineServer) : LineServer :=
  { s with
    running := false
    disconnects := s.disconnects + (!rules.once || s.running).toNat }

def parseFailure (s : LineServer) : LineServer :=
  { s with
    replies := s.replies ++ [makeErrorResponseNullId Protocol.parseError "Parse error"]
    errors := s.errors ++ ["JSON parse error"] }

def processingFailure (s : LineServer) : LineServer :=
  { s with errors := s.errors ++ ["Error processing message"] }

def handleLine (s : LineServer) (line : Bytes) : LineServer :=
  match env.parse line with
  | .parseError => s.parseFailure
  | .outOfRange => s.processingFailure
  | .value m =>
    let s := { s with delivered := s.delivered ++ [m] }
    match env.handler m with
    | none => s
    | some .parseError => s.parseFailure
    | some .other => s.processingFailure

def isLineEnd (b : UInt8) : Bool := b == newline || b == carriageReturn

/-- `on_read` or `handle_read_completion`, without an error. -/
def onRead (s : LineServer) (bytesTransferred : Nat) : LineServer :=
  let line := s.readBuf.take bytesTransferred
  let s := { s with readBuf := s.readBuf.drop bytesTransferred, reading := false }
  if rules.maxLineSize < line.length then
    disconnect rules { s with
      replies := s.replies ++ rules.tooLargeReply.toList
      errors := s.errors ++ rules.tooLargeError.toList }
  else
    let line := line.rdropWhile isLineEnd
    let s := if line.isEmpty then s else s.handleLine env line
    { s with reading := s.running }

/-- The same with an error. -/
def onReadError (s : LineServer) : LineServer := disconnect rules { s with reading := false }

def hasLine (s : LineServer) : Bool := s.readBuf.contains newline

/-- The bytes up to and including the first newline. -/
def lineLength (s : LineServer) : Nat := (s.readBuf.takeWhile (· != newline)).length + 1

def step (s : LineServer) : LineServerEvent → Option LineServer
  | .receives bytes =>
    if s.reading ∧ s.hasLine = false ∧ s.readBuf.length + bytes.length ≤ rules.capacity then
      let s := { s with readBuf := s.readBuf ++ bytes }
      -- a full buffer without a line is an error of the read
      some (if s.hasLine = false ∧ s.readBuf.length = rules.capacity then s.onReadError rules
        else s)
    else none
  | .completes =>
    if s.reading ∧ s.hasLine then some (s.onRead rules env s.lineLength) else none
  | .fails => if s.reading then some (s.onReadError rules) else none
  | .stops => some { s with running := false }

end LineServer

/-- The reads of a run. -/
def received (events : List LineServerEvent) : List Bytes :=
  events.filterMap fun
    | .receives bytes => some bytes
    | _ => none

/-- Which transports a client and its server talk over. -/
inductive LineLink where
  | stdio
  | localPipe
deriving DecidableEq

namespace LineLink

variable (link : LineLink) (env : LineEnv)

def sendMessage : LineSender → Json → LineSender :=
  match link with
  | .stdio => StdioClientTransport.sendMessage env
  | .localPipe => LocalPipeClientTransport.sendMessage env

def serverRules : LineServerRules :=
  match link with
  | .stdio => stdioServerRules
  | .localPipe => pipeServerRules

/-- The messages are sent one after the other. -/
def sendAll (ms : List Json) : LineSender := ms.foldl (link.sendMessage env) {}

/-- A server reads a stream that is cut into reads, to its end or until it drops the
    connection. -/
structure Reads (reads : List Bytes) (events : List LineServerEvent) (s : LineServer) : Prop where
  runs : run (LineServer.step link.serverRules env) {} events = some s
  onlyReads : ∀ event ∈ events, event.isRead = true
  within : received events <+: reads
  whole : s.reading = true → received events = reads ∧ s.hasLine = false

end LineLink

@[simp] theorem received_append (front back : List LineServerEvent) :
    received (front ++ back) = received front ++ received back := List.filterMap_append

@[simp] theorem received_completes (n : Nat) : received (List.replicate n .completes) = [] := by
  induction n with
  | zero => rfl
  | succ n ih => exact ih

theorem received_cons (event : LineServerEvent) (events : List LineServerEvent) :
    (received (event :: events)).flatten = event.brought ++ (received events).flatten := by
  cases event <;> rfl

namespace LineEnv

variable {env : LineEnv}

theorem flatMap_frame_cons (m : Json) (ms : List Json) :
    (m :: ms).flatMap env.frame = env.dump m ++ newline :: ms.flatMap env.frame := by
  simp [frame]

theorem Framed.strip {m : Json} (framed : env.Framed m) :
    (env.frame m).rdropWhile LineServer.isLineEnd = env.dump m := by
  have last : LineServer.isLineEnd newline = true := by decide
  have stripped : (env.frame m).rdropWhile LineServer.isLineEnd =
      (env.dump m).rdropWhile LineServer.isLineEnd := List.rdropWhile_concat_pos _ _ _ last
  rw [stripped]
  apply List.rdropWhile_eq_self_iff.mpr
  intro nonempty ends
  have member := List.getLast_mem nonempty
  simp only [LineServer.isLineEnd, Bool.or_eq_true, beq_iff_eq] at ends
  rcases ends with same | same
  · exact framed.oneLine.1 (same ▸ member)
  · exact framed.oneLine.2 (same ▸ member)

end LineEnv

namespace LineLink

variable (link : LineLink) (env : LineEnv)

/-- A message that the server takes. -/
def Short (m : Json) : Prop := (env.frame m).length ≤ link.serverRules.maxLineSize

instance (m : Json) : Decidable (link.Short env m) := inferInstanceAs (Decidable (_ ≤ _))

theorem sendMessage_eq (c : LineSender) (m : Json) : ∃ errors,
    link.sendMessage env c m =
      if 16 * 1024 * 1024 < (env.frame m).length then { c with errors := errors }
      else { c with queued := c.queued ++ [env.frame m], sent := c.sent ++ [m] } := by
  cases link
  · exact ⟨c.errors ++ ["stdio message too large"], rfl⟩
  · exact ⟨c.errors ++ ["pipe message too large"], rfl⟩

/-- What a client gave to its queue is what it sent, and no message of it is above its bound. -/
theorem sendAll_queued (ms : List Json) :
    (link.sendAll env ms).queued = (link.sendAll env ms).sent.map env.frame ∧
      ∀ m ∈ (link.sendAll env ms).sent,
        m ∈ ms ∧ (env.frame m).length ≤ 16 * 1024 * 1024 := by
  unfold sendAll
  induction ms using List.reverseRecOn with
  | nil => simp
  | append_singleton ms m ih =>
    obtain ⟨queued, bounded⟩ := ih
    rw [List.foldl_append, List.foldl_cons, List.foldl_nil]
    obtain ⟨errors, sends⟩ := link.sendMessage_eq env (ms.foldl (link.sendMessage env) {}) m
    rw [sends]
    split
    · refine ⟨queued, fun m' member => ?_⟩
      have before := bounded m' member
      exact ⟨List.mem_append_left _ before.1, before.2⟩
    · rename_i fits
      refine ⟨by simp [queued], fun m' member => ?_⟩
      rcases List.mem_append.mp member with member | member
      · have before := bounded m' member
        exact ⟨List.mem_append_left _ before.1, before.2⟩
      · obtain rfl := List.mem_singleton.mp member
        exact ⟨by simp, by omega⟩

end LineLink

namespace LineServer

variable {rules : LineServerRules} {env : LineEnv}

theorem handleLine_delivers (s : LineServer) {line : Bytes} {m : Json}
    (parses : env.parse line = .value m) :
    (s.handleLine env line).delivered = s.delivered ++ [m] ∧
      (s.handleLine env line).readBuf = s.readBuf ∧
      (s.handleLine env line).running = s.running := by
  unfold handleLine
  rw [parses]
  dsimp only
  split <;> exact ⟨rfl, rfl, rfl⟩

theorem lineLength_frame {s : LineServer} {m : Json} {tail : Bytes} (framed : env.Framed m)
    (buffer : s.readBuf = env.frame m ++ tail) : s.lineLength = (env.frame m).length := by
  have line : s.readBuf.takeWhile (· != newline) = env.dump m := by
    have kept : ∀ b ∈ env.dump m, (b != newline) = true := fun b member => by
      simp only [bne_iff_ne, ne_eq]
      exact fun same => framed.oneLine.1 (same ▸ member)
    rw [buffer, LineEnv.frame, List.append_assoc, List.takeWhile_append_of_pos kept]
    simp
  rw [lineLength, line]
  simp [LineEnv.frame]

theorem onRead_short {s : LineServer} {m : Json} {tail : Bytes} (framed : env.Framed m)
    (buffer : s.readBuf = env.frame m ++ tail)
    (short : (env.frame m).length ≤ rules.maxLineSize) :
    (s.onRead rules env (env.frame m).length).delivered = s.delivered ++ [m] ∧
      (s.onRead rules env (env.frame m).length).readBuf = tail ∧
      (s.onRead rules env (env.frame m).length).running = s.running ∧
      (s.onRead rules env (env.frame m).length).reading = s.running := by
  have taken : s.readBuf.take (env.frame m).length = env.frame m := by simp [buffer]
  have left : s.readBuf.drop (env.frame m).length = tail := by simp [buffer]
  have line : (env.dump m).isEmpty = false := by simpa using framed.written
  obtain ⟨delivered, kept, running⟩ :=
    handleLine_delivers { s with readBuf := tail, reading := false } framed.parses
  simp only [onRead, taken, left, if_neg (Nat.not_lt.mpr short), framed.strip, line,
    Bool.false_eq_true, if_false]
  exact ⟨delivered, kept, running, running⟩

theorem onRead_long {s : LineServer} {m : Json} {tail : Bytes}
    (buffer : s.readBuf = env.frame m ++ tail)
    (long : rules.maxLineSize < (env.frame m).length) :
    (s.onRead rules env (env.frame m).length).delivered = s.delivered ∧
      (s.onRead rules env (env.frame m).length).running = false ∧
      (s.onRead rules env (env.frame m).length).reading = false := by
  have taken : s.readBuf.take (env.frame m).length = env.frame m := by simp [buffer]
  simp [onRead, taken, long, disconnect]

end LineServer

namespace LineLink

variable {link : LineLink} {env : LineEnv}

variable (link env) in
/-- How far a server has come with what was sent. Behind the lines it handled its buffer holds
    what the reads brought, and nothing but a message that is not short stops it. -/
def Tracks (sent : List Json) (got : Bytes) (s : LineServer) : Prop :=
  ∃ rest, sent = s.delivered ++ rest ∧
    ((s.running = true ∧ s.reading = true ∧ (∀ m ∈ s.delivered, link.Short env m) ∧
        got = s.delivered.flatMap env.frame ++ s.readBuf) ∨
      (s.running = false ∧ s.reading = false ∧ ∃ m ∈ rest, ¬ link.Short env m))

theorem initial_tracks (sent : List Json) : link.Tracks env sent [] {} :=
  ⟨sent, rfl, .inl ⟨rfl, rfl, by simp, rfl⟩⟩

/-- What is buffered is the beginning of what has not been handled. -/
theorem buffered_within {done rest : List Json} {buffer got : Bytes}
    (got_eq : got = done.flatMap env.frame ++ buffer)
    (within : got <+: (done ++ rest).flatMap env.frame) : buffer <+: rest.flatMap env.frame := by
  rw [got_eq, List.flatMap_append] at within
  exact (List.prefix_append_right_inj _).mp within

theorem capacity_eq (link : LineLink) : link.serverRules.capacity = 64 * 1024 * 1024 := by
  cases link <;> rfl

/-- A buffer without a line is a part of one. -/
theorem unended_bounded {rest : List Json} {buffer : Bytes}
    (bounded : ∀ m ∈ rest, (env.frame m).length ≤ 16 * 1024 * 1024)
    (unended : newline ∉ buffer) (within : buffer <+: rest.flatMap env.frame) :
    buffer.length ≤ 16 * 1024 * 1024 := by
  cases rest with
  | nil =>
    obtain rfl := List.prefix_nil.mp within
    simp
  | cons m rest =>
    rw [LineEnv.flatMap_frame_cons] at within
    have part := (prefix_unended unended within).length_le
    have bound := bounded m List.mem_cons_self
    have size : (env.frame m).length = (env.dump m).length + 1 := by simp [LineEnv.frame]
    omega

theorem step_tracks {sent : List Json} {got : Bytes} {s s' : LineServer} {event : LineServerEvent}
    (framed : ∀ m ∈ sent, env.Framed m)
    (bounded : ∀ m ∈ sent, (env.frame m).length ≤ 16 * 1024 * 1024)
    (inv : link.Tracks env sent got s) (reads : event.isRead = true)
    (within : got ++ event.brought <+: sent.flatMap env.frame)
    (h : s.step link.serverRules env event = some s') :
    link.Tracks env sent (got ++ event.brought) s' := by
  obtain ⟨rest, split, ⟨running, reading, short, got_eq⟩ | ⟨-, idle, -⟩⟩ := inv
  · cases event with
    | receives bytes =>
      simp only [LineServer.step] at h
      split at h
      · have got_eq' : got ++ bytes = s.delivered.flatMap env.frame ++ (s.readBuf ++ bytes) := by
          rw [got_eq, List.append_assoc]
        rw [split] at within
        have part := buffered_within got_eq' within
        have room : ¬ (LineServer.hasLine { s with readBuf := s.readBuf ++ bytes } = false ∧
            (s.readBuf ++ bytes).length = link.serverRules.capacity) := by
          rintro ⟨unended, full⟩
          have rest_bounded : ∀ m ∈ rest, (env.frame m).length ≤ 16 * 1024 * 1024 :=
            fun m member => bounded m (by simp [split, member])
          have bound := unended_bounded rest_bounded (by simpa [LineServer.hasLine] using unended)
            part
          rw [full, capacity_eq] at bound
          omega
        rw [if_neg room] at h
        cases h
        exact ⟨rest, split, .inl ⟨running, reading, short, got_eq'⟩⟩
      · cases h
    | completes =>
      simp only [LineServer.step] at h
      split at h
      · rename_i ready
        cases h
        have ended : newline ∈ s.readBuf := by simpa [LineServer.hasLine] using ready.2
        simp only [LineServerEvent.brought, List.append_nil] at within ⊢
        rw [split] at within
        have part := buffered_within got_eq within
        cases rest with
        | nil =>
          rw [List.prefix_nil.mp part] at ended
          cases ended
        | cons m rest =>
          have line := framed m (by simp [split])
          rw [LineEnv.flatMap_frame_cons] at part
          obtain ⟨tail, buffer, -⟩ := prefix_line line.oneLine.1 ended part
          have buffer : s.readBuf = env.frame m ++ tail := by simp [buffer, LineEnv.frame]
          rw [LineServer.lineLength_frame line buffer]
          by_cases fits : link.Short env m
          · obtain ⟨delivered, left, running', reading'⟩ :=
              LineServer.onRead_short line buffer fits
            refine ⟨rest, by simp [delivered, split], .inl ⟨?_, ?_, ?_, ?_⟩⟩
            · rw [running', running]
            · rw [reading', running]
            · rw [delivered]
              intro m' member
              rcases List.mem_append.mp member with member | member
              · exact short m' member
              · exact List.mem_singleton.mp member ▸ fits
            · rw [delivered, left, got_eq, buffer]
              simp
          · obtain ⟨delivered, running', reading'⟩ :=
              LineServer.onRead_long buffer (Nat.lt_of_not_le fits)
            exact ⟨m :: rest, by rw [delivered]; exact split,
              .inr ⟨running', reading', m, by simp, fits⟩⟩
      · cases h
    | fails => cases reads
    | stops => cases reads
  · cases event <;> simp [LineServer.step, idle] at h
    cases reads

theorem run_tracks {sent : List Json} {got : Bytes} {s s' : LineServer}
    {events : List LineServerEvent} (framed : ∀ m ∈ sent, env.Framed m)
    (bounded : ∀ m ∈ sent, (env.frame m).length ≤ 16 * 1024 * 1024)
    (inv : link.Tracks env sent got s) (reads : ∀ event ∈ events, event.isRead = true)
    (within : got ++ (received events).flatten <+: sent.flatMap env.frame)
    (h : run (LineServer.step link.serverRules env) s events = some s') :
    link.Tracks env sent (got ++ (received events).flatten) s' := by
  induction events generalizing got s with
  | nil =>
    cases h
    simpa [received] using inv
  | cons event events ih =>
    obtain ⟨next, stepped, h⟩ := run_cons_eq h
    rw [received_cons, ← List.append_assoc] at within ⊢
    have first : got ++ event.brought <+: sent.flatMap env.frame :=
      (List.prefix_append _ _).trans within
    have kept := step_tracks framed bounded inv (reads event List.mem_cons_self) first stepped
    exact ih kept (fun e member => reads e (List.mem_cons_of_mem _ member)) within h

/-- What a server has done with a stream when it has come to the end of its reads. -/
theorem reads_tracks {sent : List Json} {reads : List Bytes} {events : List LineServerEvent}
    {s : LineServer} (framed : ∀ m ∈ sent, env.Framed m)
    (bounded : ∀ m ∈ sent, (env.frame m).length ≤ 16 * 1024 * 1024)
    (cut : reads.flatten = sent.flatMap env.frame) (h : link.Reads env reads events s) :
    (s.running = true ∧ s.delivered = sent ∧ ∀ m ∈ sent, link.Short env m) ∨
      (s.running = false ∧ ∃ m ∈ sent, ¬ link.Short env m) := by
  have within : [] ++ (received events).flatten <+: sent.flatMap env.frame := by
    obtain ⟨rest, split⟩ := h.within
    rw [← cut, ← split, List.flatten_append]
    exact List.prefix_append _ _
  obtain ⟨rest, split, ⟨running, reading, short, got⟩ | ⟨stopped, -, m, member, long⟩⟩ :=
    run_tracks framed bounded (initial_tracks sent) h.onlyReads within h.runs
  · obtain ⟨all, unended⟩ := h.whole reading
    have left : s.readBuf = rest.flatMap env.frame := by
      rw [List.nil_append, all, cut, split, List.flatMap_append] at got
      exact (List.append_cancel_left got).symm
    have done : rest = [] := by
      cases rest with
      | nil => rfl
      | cons m rest =>
        have ended : newline ∈ s.readBuf := by simp [left, LineEnv.frame]
        simp [LineServer.hasLine, ended] at unended
    obtain rfl : sent = s.delivered := by simpa [done] using split
    exact .inl ⟨running, rfl, short⟩
  · exact .inr ⟨stopped, m, by simp [split, member], long⟩

end LineLink

namespace LineServer

variable (rules : LineServerRules) (env : LineEnv)

theorem handleLine_readBuf (s : LineServer) (line : Bytes) :
    (s.handleLine env line).readBuf = s.readBuf := by
  unfold handleLine
  split
  · rfl
  · rfl
  · dsimp only
    split <;> rfl

theorem onRead_readBuf (s : LineServer) (n : Nat) :
    (s.onRead rules env n).readBuf = s.readBuf.drop n := by
  unfold onRead
  dsimp only
  split
  · rfl
  · dsimp only
    split
    · rfl
    · exact handleLine_readBuf _ _ _

/-- A server takes line after line, until there is none in its buffer. -/
theorem drains (s : LineServer) : ∃ n s',
    run (step rules env) s (List.replicate n .completes) = some s' ∧
      (s'.reading = true → s'.hasLine = false) := by
  induction size : s.readBuf.length using Nat.strong_induction_on generalizing s with
  | _ size' ih =>
    by_cases ready : s.reading ∧ s.hasLine
    · have stepped : s.step rules env .completes = some (s.onRead rules env s.lineLength) :=
        if_pos ready
      have nonempty : 0 < s.readBuf.length := by
        apply List.length_pos_of_mem (a := newline)
        simpa [hasLine] using ready.2
      have smaller : (s.onRead rules env s.lineLength).readBuf.length < size' := by
        rw [onRead_readBuf, List.length_drop, ← size]
        have positive : 0 < s.lineLength := Nat.succ_pos _
        omega
      obtain ⟨n, s', h, drained⟩ := ih _ smaller _ rfl
      exact ⟨n + 1, s', by simp [List.replicate_succ, run, stepped, h], drained⟩
    · refine ⟨0, s, rfl, fun reading => ?_⟩
      simpa [reading] using ready

end LineServer

namespace LineLink

variable {link : LineLink} {env : LineEnv}

theorem reads_fit {sent : List Json} {got : Bytes} {s : LineServer}
    (bounded : ∀ m ∈ sent, (env.frame m).length ≤ 16 * 1024 * 1024)
    (inv : link.Tracks env sent got s) (within : got <+: sent.flatMap env.frame)
    (reading : s.reading = true) (drained : s.hasLine = false) {read : Bytes}
    (small : read.length ≤ 48 * 1024 * 1024) :
    s.readBuf.length + read.length ≤ link.serverRules.capacity := by
  obtain ⟨rest, split, ⟨-, -, -, got_eq⟩ | ⟨-, idle, -⟩⟩ := inv
  · rw [split] at within
    have rest_bounded : ∀ m ∈ rest, (env.frame m).length ≤ 16 * 1024 * 1024 :=
      fun m member => bounded m (by simp [split, member])
    have unended : newline ∉ s.readBuf := by simpa [LineServer.hasLine] using drained
    have bound := unended_bounded rest_bounded unended (buffered_within got_eq within)
    rw [capacity_eq]
    omega
  · rw [reading] at idle
    cases idle

theorem cut_runs {sent : List Json} {got : Bytes} {s : LineServer} {reads : List Bytes}
    (framed : ∀ m ∈ sent, env.Framed m)
    (bounded : ∀ m ∈ sent, (env.frame m).length ≤ 16 * 1024 * 1024)
    (small : ∀ read ∈ reads, read.length ≤ 48 * 1024 * 1024)
    (inv : link.Tracks env sent got s) (drained : s.reading = true → s.hasLine = false)
    (within : got ++ reads.flatten <+: sent.flatMap env.frame) :
    ∃ events s', run (LineServer.step link.serverRules env) s events = some s' ∧
      (∀ event ∈ events, event.isRead = true) ∧ received events <+: reads ∧
      (s'.reading = true → received events = reads ∧ s'.hasLine = false) := by
  induction reads generalizing got s with
  | nil => exact ⟨[], s, rfl, by simp, List.nil_prefix, fun reading => ⟨rfl, drained reading⟩⟩
  | cons read reads ih =>
    by_cases reading : s.reading = true
    · rw [List.flatten_cons, ← List.append_assoc] at within
      have first : got ++ read <+: sent.flatMap env.frame :=
        (List.prefix_append _ _).trans within
      have fits := reads_fit bounded inv ((List.prefix_append _ _).trans first) reading
        (drained reading) (small read List.mem_cons_self)
      obtain ⟨next, stepped⟩ : ∃ next,
          s.step link.serverRules env (.receives read) = some next :=
        ⟨_, if_pos ⟨reading, drained reading, fits⟩⟩
      have isRead : (LineServerEvent.receives read).isRead = true := rfl
      have taken := step_tracks framed bounded inv isRead first stepped
      obtain ⟨n, s₁, completed, drained₁⟩ :=
        LineServer.drains link.serverRules env next
      have completes : ∀ event ∈ List.replicate n LineServerEvent.completes,
          event.isRead = true := fun event member => by
        rw [List.eq_of_mem_replicate member]
        rfl
      have none : got ++ read ++ (received (List.replicate n .completes)).flatten = got ++ read := by
        simp
      have inv₁ := run_tracks framed bounded taken completes (none.symm ▸ first) completed
      rw [LineServerEvent.brought, none] at inv₁
      obtain ⟨events, s', later, onlyReads, part, whole⟩ :=
        ih (fun read member => small read (List.mem_cons_of_mem _ member)) inv₁ drained₁ within
      refine ⟨.receives read :: (List.replicate n .completes ++ events), s', ?_, ?_, ?_, ?_⟩
      · simp only [run, stepped, Option.bind_some, run_append, completed, later]
      · intro event member
        rcases List.mem_cons.mp member with rfl | member
        · rfl
        · rcases List.mem_append.mp member with member | member
          · exact completes event member
          · exact onlyReads event member
      · have split : received (.receives read :: (List.replicate n .completes ++ events)) =
            read :: received events := by
          show read :: received (List.replicate n .completes ++ events) = _
          simp
        rw [split]
        exact (List.prefix_cons_inj read).mpr part
      · intro reading'
        obtain ⟨all, drained'⟩ := whole reading'
        refine ⟨?_, drained'⟩
        show read :: received (List.replicate n .completes ++ events) = _
        simp [all]
    · exact ⟨[], s, rfl, by simp, List.nil_prefix, fun reading' => absurd reading' reading⟩

/-- A server reads the stream of a client in any cuts, and hands its messages to the message
    handler without dropping the connection exactly when they all are short. -/
theorem framing_delivers_iff (link : LineLink) (env : LineEnv) (ms : List Json)
    (framed : ∀ m ∈ (link.sendAll env ms).sent, env.Framed m) {reads : List Bytes}
    (cut : reads.flatten = (link.sendAll env ms).queued.flatten) :
    ((∀ read ∈ reads, read.length ≤ 48 * 1024 * 1024) →
        ∃ events s, link.Reads env reads events s) ∧
      ∀ events s, link.Reads env reads events s →
        ((s.delivered = (link.sendAll env ms).sent ∧ s.running = true) ↔
          ∀ m ∈ (link.sendAll env ms).sent, (env.frame m).length ≤ 4 * 1024 * 1024) := by
  obtain ⟨queued, bounds⟩ := link.sendAll_queued env ms
  have bounded : ∀ m ∈ (link.sendAll env ms).sent, (env.frame m).length ≤ 16 * 1024 * 1024 :=
    fun m member => (bounds m member).2
  have stream : reads.flatten = (link.sendAll env ms).sent.flatMap env.frame := by
    rw [cut, queued, List.flatMap_def]
  have bound : link.serverRules.maxLineSize = 4 * 1024 * 1024 := by cases link <;> rfl
  constructor
  · intro small
    have all : [] ++ reads.flatten <+: (link.sendAll env ms).sent.flatMap env.frame :=
      stream ▸ List.prefix_rfl
    obtain ⟨events, s, runs, onlyReads, within, whole⟩ :=
      cut_runs framed bounded small (initial_tracks _) (fun _ => rfl) all
    exact ⟨events, s, runs, onlyReads, within, whole⟩
  · intro events s h
    rcases reads_tracks framed bounded stream h with
      ⟨running, delivered, short⟩ | ⟨stopped, m, member, long⟩
    · exact ⟨fun _ m member => bound ▸ short m member, fun _ => ⟨delivered, running⟩⟩
    · constructor
      · rintro ⟨-, running⟩
        rw [stopped] at running
        cases running
      · intro short
        exact absurd (short m member) (bound ▸ long)

/-- The JSON library on an empty object and an empty array. -/
def bracketsEnv : LineEnv where
  dump
    | .object _ => ascii "\x7b\x7d"
    | _ => ascii "[]"
  parse text := if text = ascii "\x7b\x7d" then .value (.object []) else .value (.array [])
  handler _ := none

/-- Two messages, cut within the first. -/
theorem two_messages_delivered : ∃ events s,
    LineLink.localPipe.Reads bracketsEnv [ascii "\x7b", ascii "\x7d\n[]\n"] events s ∧
      s.delivered = [.object [], .array []] ∧ s.running = true := by
  have sent : (LineLink.localPipe.sendAll bracketsEnv [.object [], .array []]).sent =
      [.object [], .array []] := by rfl
  have framed : ∀ m ∈ (LineLink.localPipe.sendAll bracketsEnv [.object [], .array []]).sent,
      bracketsEnv.Framed m := by
    rw [sent]
    intro m member
    rcases List.mem_cons.mp member with rfl | member
    · exact ⟨by decide, by decide, by rfl⟩
    · obtain rfl := List.mem_singleton.mp member
      exact ⟨by decide, by decide, by rfl⟩
  obtain ⟨runs, delivers⟩ := framing_delivers_iff .localPipe bracketsEnv [.object [], .array []]
    framed (show [ascii "\x7b", ascii "\x7d\n[]\n"].flatten = _ by rfl)
  obtain ⟨events, s, h⟩ := runs (by decide)
  have short : ∀ m ∈ (LineLink.localPipe.sendAll bracketsEnv [.object [], .array []]).sent,
      (bracketsEnv.frame m).length ≤ 4 * 1024 * 1024 := by
    rw [sent]
    decide
  exact ⟨events, s, h, (delivers events s h).mpr short⟩

/-- A string of letters. -/
def letters (n : Nat) : Json := .string (String.ofList (List.replicate n 'a'))

def lettersText (n : Nat) : Bytes := 34 :: (List.replicate n 97 ++ [34])

def lettersEnv (n : Nat) : LineEnv where
  dump j := if j = letters n then lettersText n else []
  parse text := if text = lettersText n then .value (letters n) else .parseError
  handler _ := none

theorem lettersEnv_dump (n : Nat) : (lettersEnv n).dump (letters n) = lettersText n := if_pos rfl

theorem letters_framed (n : Nat) : (lettersEnv n).Framed (letters n) := by
  constructor
  · rw [lettersEnv_dump]
    simp [lettersText, newline, carriageReturn, List.mem_replicate]
  · rw [lettersEnv_dump]
    simp [lettersText]
  · rw [lettersEnv_dump]
    exact if_pos rfl

/-- A client sends these letters in one message, and a server that reads them byte by byte
    drops the connection. -/
def DropsLetters (link : LineLink) (n : Nat) : Prop :=
  (lettersEnv n).Framed (letters n) ∧
    (link.sendAll (lettersEnv n) [letters n]).sent = [letters n] ∧
    ∃ reads events s,
      reads.flatten = (link.sendAll (lettersEnv n) [letters n]).queued.flatten ∧
      (∀ read ∈ reads, read.length ≤ 1) ∧ link.Reads (lettersEnv n) reads events s ∧
      s.running = false

theorem letters_drop (link : LineLink) {n : Nat} (long : 4 * 1024 * 1024 ≤ n)
    (fits : n + 3 ≤ 16 * 1024 * 1024) : link.DropsLetters n := by
  have size : ((lettersEnv n).frame (letters n)).length = n + 3 := by
    simp [LineEnv.frame, lettersEnv_dump, lettersText]
  obtain ⟨errors, sends⟩ := link.sendMessage_eq (lettersEnv n) {} (letters n)
  rw [size, if_neg (by omega)] at sends
  have all : link.sendAll (lettersEnv n) [letters n] =
      { queued := [(lettersEnv n).frame (letters n)], sent := [letters n] } := sends
  have framed : ∀ m ∈ [letters n], (lettersEnv n).Framed m := fun m member =>
    List.mem_singleton.mp member ▸ letters_framed n
  have bounded : ∀ m ∈ [letters n], ((lettersEnv n).frame m).length ≤ 16 * 1024 * 1024 := by
    intro m member
    rw [List.mem_singleton.mp member, size]
    exact fits
  let reads : List Bytes := ((lettersEnv n).frame (letters n)).map fun b => [b]
  have whole : reads.flatten = (lettersEnv n).frame (letters n) := by
    rw [← List.flatMap_def]
    exact List.flatMap_singleton' _
  have cut : reads.flatten = [letters n].flatMap (lettersEnv n).frame := by simp [whole]
  have bytewise : ∀ read ∈ reads, read.length ≤ 1 := by simp [reads]
  have small : ∀ read ∈ reads, read.length ≤ 48 * 1024 * 1024 := fun read member =>
    (bytewise read member).trans (by decide)
  have within : [] ++ reads.flatten <+: [letters n].flatMap (lettersEnv n).frame :=
    cut ▸ List.prefix_rfl
  obtain ⟨events, s, runs, onlyReads, part, ends⟩ :=
    cut_runs framed bounded small (initial_tracks _) (fun _ => rfl) within
  have read : link.Reads (lettersEnv n) reads events s := ⟨runs, onlyReads, part, ends⟩
  have stopped : s.running = false := by
    rcases reads_tracks framed bounded cut read with ⟨-, -, short⟩ | ⟨stopped, -⟩
    · have short := short (letters n) List.mem_cons_self
      have bound : link.serverRules.maxLineSize = 4 * 1024 * 1024 := by cases link <;> rfl
      unfold Short at short
      omega
    · exact stopped
  unfold DropsLetters
  rw [all]
  exact ⟨letters_framed n, rfl, reads, events, s, by simp [whole], bytewise, read, stopped⟩

/-- Five mebibytes of letters are enough on both links. -/
theorem long_message_drops :
    LineLink.stdio.DropsLetters (5 * 1024 * 1024) ∧
      LineLink.localPipe.DropsLetters (5 * 1024 * 1024) := by
  constructor
  · exact letters_drop _ (by decide) (by decide)
  · exact letters_drop _ (by decide) (by decide)

end LineLink

end CppMcp
