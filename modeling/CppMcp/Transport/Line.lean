import CppMcp.Http.Sse
import CppMcp.Lib.Run

namespace CppMcp

open Lib

/-- What the two transports that send lines do differently: whether `handle_line` discards a
    line that is too long, and whether a `connect` that fails has let go of the old stream. -/
structure LineRules where
  maxLineSize : Nat := 16 * 1024 * 1024
  /-- The maximal size of `read_buf_`. -/
  capacity : Nat := 17 * 1024 * 1024
  discards : Bool
  dropsFirst : Bool

def stdioRules : LineRules := { discards := true, dropsFirst := false }

def localPipeRules : LineRules := { discards := false, dropsFirst := true }

/-- A `StdioClientTransport` or `LocalPipeClientTransport`, with the messages its handler was
    called with. `handled` says that its handlers are set, `clearing` counts the posted
    `clear_handlers`. `reading` says that an `async_read_until` of the open stream is
    outstanding; `late` holds what reads had brought in when their stream was closed, their
    completions still to run. -/
structure LineTransport where
  handled : Bool := false
  clearing : Nat := 0
  connected : Bool := false
  stopping : Bool := false
  reading : Bool := false
  readBuf : Bytes := []
  late : List Bytes := []
  delivered : List Json := []

/-- What happens to such a transport. `aborts` is a failed completion that is not the end of
    the open stream: a read of a closed one, or a write. `continues` is a read that finds its
    line in the buffer already, and `caught` what a read had brought in when it is closed. -/
inductive LineEvent where
  | setsHandlers
  | clearsHandlers
  | connects (reached : Bool) (caught : Option Bytes)
  | receives (bytes : Bytes)
  | continues
  | peerCloses
  | aborts
  | disconnects (caught : Option Bytes)
  | runsLate (place : Nat)
deriving DecidableEq

namespace LineTransport

variable (rules : LineRules) (codec : JsonCodec)

/-- `do_read`: an oversized prefix drops the connection. -/
def doRead (t : LineTransport) : LineTransport :=
  if rules.maxLineSize < t.readBuf.length then
    { t with connected := false, stopping := true, reading := false }
  else { t with reading := !t.stopping }

def handleLine (line : Bytes) : Option Json :=
  if rules.discards && decide (rules.maxLineSize < line.length) then none else codec.parse line

/-- The first line of the buffer is taken out and handled. -/
def takeLine (t : LineTransport) : LineTransport :=
  let line := stripCr (t.readBuf.takeWhile (· != newline))
  { t with
    readBuf := (t.readBuf.dropWhile (· != newline)).drop 1
    delivered := t.delivered ++
      if line.isEmpty || !t.handled then [] else (handleLine rules codec line).toList }

/-- `on_read` without an error. -/
def onRead (t : LineTransport) : LineTransport :=
  let t := t.takeLine rules codec
  if t.stopping then { t with reading := false } else t.doRead rules

/-- `on_read` with an error. -/
def onReadError (t : LineTransport) : LineTransport :=
  { t with connected := false, reading := false }

/-- The bytes of a read reach the buffer. -/
def commit (t : LineTransport) (bytes : Bytes) : LineTransport :=
  { t with readBuf := t.readBuf ++ bytes }

def hasLine (t : LineTransport) : Bool := t.readBuf.contains newline

/-- The stream is closed; its read may have brought in some bytes. -/
def closeStream (t : LineTransport) (caught : Option Bytes) : LineTransport :=
  { t with reading := false, late := t.late ++ if t.reading then caught.toList else [] }

/-- `connect` of a transport that is not connected. -/
def reopen (t : LineTransport) (reached : Bool) (caught : Option Bytes) : LineTransport :=
  let t := if reached || rules.dropsFirst then t.closeStream caught else t
  if reached then { t with connected := true, stopping := false }.doRead rules
  else { t with stopping := false }

def step (t : LineTransport) : LineEvent → Option LineTransport
  | .setsHandlers => some { t with handled := true }
  | .clearsHandlers =>
    if 0 < t.clearing then some { t with handled := false, clearing := t.clearing - 1 } else none
  | .connects reached caught =>
    some (if t.connected then t else t.reopen rules reached caught)
  | .receives bytes =>
    if t.reading ∧ t.hasLine = false ∧ bytes ≠ [] ∧
        t.readBuf.length + bytes.length ≤ rules.capacity then
      let t := t.commit bytes
      -- a full buffer without a line is an error of the read
      some (if t.hasLine then t.onRead rules codec
        else if t.readBuf.length = rules.capacity then t.onReadError
        else t)
    else none
  | .continues => if t.reading ∧ t.hasLine = true then some (t.onRead rules codec) else none
  | .peerCloses => if t.reading ∧ t.hasLine = false then some t.onReadError else none
  | .aborts => some { t with connected := false }
  | .disconnects caught =>
    some { t.closeStream caught with
      connected := false, stopping := true
      clearing := if t.handled then t.clearing + 1 else t.clearing }
  | .runsLate place =>
    match t.late[place]? with
    | some bytes =>
      let t := { t with late := t.late.eraseIdx place }.commit bytes
      -- without a line the read goes on, on a stream that is closed
      some (if t.hasLine then t.onRead rules codec else { t with connected := false })
    | none => none

/-- The connection has ended, by `disconnect` or by the peer. -/
structure Ended (t : LineTransport) : Prop where
  connected : t.connected = false
  reading : t.reading = false

/-- Nothing that an ended connection has received is left, and no `clear_handlers` of its
    `disconnect`. -/
structure Clean (t : LineTransport) : Prop where
  readBuf : t.readBuf = []
  late : t.late = []
  clearing : t.clearing = 0

/-- The transport with messages delivered before. -/
def behind (base : List Json) (t : LineTransport) : LineTransport :=
  { t with delivered := base ++ t.delivered }

variable {rules codec} {base : List Json}

theorem doRead_behind (t : LineTransport) :
    (t.behind base).doRead rules = (t.doRead rules).behind base := by
  unfold doRead behind
  split <;> rfl

theorem onRead_behind (t : LineTransport) :
    (t.behind base).onRead rules codec = (t.onRead rules codec).behind base := by
  have taken : (t.behind base).takeLine rules codec = (t.takeLine rules codec).behind base := by
    simp [takeLine, behind, List.append_assoc]
  have stopping : ((t.takeLine rules codec).behind base).stopping =
      (t.takeLine rules codec).stopping := rfl
  unfold onRead
  rw [taken]
  simp only [stopping]
  split
  · rfl
  · exact doRead_behind _

theorem reopen_behind (t : LineTransport) (reached : Bool) (caught : Option Bytes) :
    (t.behind base).reopen rules reached caught = (t.reopen rules reached caught).behind base := by
  unfold reopen
  cases reached with
  | false => cases rules.dropsFirst <;> rfl
  | true =>
    exact doRead_behind { t.closeStream caught with connected := true, stopping := false }

theorem step_behind (t : LineTransport) (event : LineEvent) :
    step rules codec (t.behind base) event = (step rules codec t event).map (behind base) := by
  cases event with
  | setsHandlers => rfl
  | clearsHandlers =>
    have clearing : (t.behind base).clearing = t.clearing := rfl
    simp only [step, clearing]
    split <;> rfl
  | connects reached caught =>
    have connected : (t.behind base).connected = t.connected := rfl
    simp only [step, connected, reopen_behind]
    split <;> rfl
  | receives bytes =>
    have same : (t.behind base).reading = t.reading ∧ (t.behind base).hasLine = t.hasLine ∧
        (t.behind base).readBuf = t.readBuf := ⟨rfl, rfl, rfl⟩
    have committed : (t.behind base).commit bytes = (t.commit bytes).behind base := rfl
    have line : ((t.commit bytes).behind base).hasLine = (t.commit bytes).hasLine := rfl
    have buffer : ((t.commit bytes).behind base).readBuf = (t.commit bytes).readBuf := rfl
    simp only [step, same, committed, line, buffer]
    split
    · split
      · exact congrArg some (onRead_behind _)
      · split <;> rfl
    · rfl
  | continues =>
    have same : (t.behind base).reading = t.reading ∧ (t.behind base).hasLine = t.hasLine := ⟨rfl, rfl⟩
    simp only [step, same]
    split
    · exact congrArg some (onRead_behind t)
    · rfl
  | peerCloses =>
    have same : (t.behind base).reading = t.reading ∧ (t.behind base).hasLine = t.hasLine := ⟨rfl, rfl⟩
    simp only [step, same]
    split <;> rfl
  | aborts => rfl
  | disconnects caught => rfl
  | runsLate place =>
    have same : (t.behind base).late = t.late := rfl
    simp only [step, same]
    cases t.late[place]? with
    | none => rfl
    | some bytes =>
      let taken := { t with late := t.late.eraseIdx place }.commit bytes
      have line : (taken.behind base).hasLine = taken.hasLine := rfl
      show some (if (taken.behind base).hasLine then _ else _) =
        Option.map _ (some (if taken.hasLine then _ else _))
      rw [line]
      split
      · exact congrArg some (onRead_behind taken)
      · rfl

theorem step_of_behind (s t : LineTransport) (event : LineEvent) (s' : LineTransport)
    (same : s = t.behind base) (h : step rules codec s event = some s') :
    ∃ t', step rules codec t event = some t' ∧ s' = t'.behind base := by
  rw [same, step_behind] at h
  obtain ⟨t', stepped, rfl⟩ := Option.map_eq_some_iff.mp h
  exact ⟨t', stepped, rfl⟩

theorem delivers_anew {s s' : LineTransport} (ended : s.Ended) (clean : s.Clean)
    {caught : Option Bytes} {back : List LineEvent}
    (h : run (step rules codec) s (.connects true caught :: back) = some s') :
    ∃ t, run (step rules codec) { handled := s.handled } (.connects true caught :: back) = some t ∧
      s'.delivered = s.delivered ++ t.delivered := by
  have opens : step rules codec s (.connects true caught) =
      (step rules codec { handled := s.handled } (.connects true caught)).map
        (behind s.delivered) := by
    simp [step, ended.connected, ended.reading, reopen, closeStream, doRead, clean.readBuf, clean.late,
      clean.clearing, behind]
  obtain ⟨next, stepped, later⟩ := run_cons_eq h
  rw [opens] at stepped
  obtain ⟨start, started, rfl⟩ := Option.map_eq_some_iff.mp stepped
  obtain ⟨t, anew, rfl⟩ := run_related step_of_behind rfl later
  exact ⟨t, by simp [run, started, anew], rfl⟩

end LineTransport

end CppMcp
