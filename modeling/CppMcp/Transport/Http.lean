import CppMcp.Http.Client
import CppMcp.Lib.Run

namespace CppMcp

open Lib

/-- llhttp: its state after `llhttp_init`, and what it calls back while it reads some bytes. -/
structure Llhttp (Λ : Type) where
  init : Λ
  execute : Λ → Bytes → Λ × List Callback

/-- How `connect` ends. -/
inductive Connecting where
  | unresolved
  | unreachable
  | reached
deriving DecidableEq

/-- How the opening of the GET stream ends, when it was not closed meanwhile. -/
inductive StreamOpening where
  | opened
  | unreachable
  | writeFails
deriving DecidableEq

/-- An `HttpClientTransport`; `sse.delivered` are the calls of its message handler. `handled`
    says that the handlers are set, `clearing` counts the posted `clear_handlers`, `halted`
    says that llhttp has failed and `reading` that a read of the open POST socket is
    outstanding. Of the GET stream, `sseSocket` says that there is a socket,
    `opening` counts the openings under way and `streaming` the outstanding reads. `late` and
    `lateStream` hold what reads had brought in when their socket was closed, their
    completions still to run. -/
structure HttpClientTransport (Λ : Type) where
  handled : Bool := false
  clearing : Nat := 0
  connected : Bool := false
  stopping : Bool := false
  reading : Bool := false
  llhttp : Λ
  halted : Bool := false
  parser : ResponseParser := {}
  sseOpen : Bool := false
  sseSocket : Bool := false
  opening : Nat := 0
  streaming : Nat := 0
  sse : SseClient := {}
  late : List Bytes := []
  lateStream : List Bytes := []

/-- What happens to it. `aborts` and `streamAborts` are failed completions of closed sockets. -/
inductive HttpClientEvent where
  | setsHandlers
  | clearsHandlers
  | connects (outcome : Connecting) (caught : Option Bytes)
  | receives (bytes : Bytes)
  | peerCloses
  | aborts
  | disconnects (caught : Option Bytes) (caughtStream : List Bytes)
  | runsLate (place : Nat)
  | opensStream (outcome : StreamOpening)
  | streams (bytes : Bytes)
  | streamEnds
  | streamAborts
  | runsLateStream (place : Nat)
deriving DecidableEq

/-- What the transport is built on. -/
structure HttpClientEnv (Λ : Type) where
  lib : Llhttp Λ
  codec : JsonCodec
  maxBodySize : Nat := 16 * 1024 * 1024

namespace HttpClientTransport

variable {Λ : Type} (env : HttpClientEnv Λ)

def initial (handled : Bool) : HttpClientTransport Λ := { handled, llhttp := env.lib.init }

def startSseGet (t : HttpClientTransport Λ) : HttpClientTransport Λ :=
  if t.sseOpen || t.stopping || t.parser.header.sessionId.isEmpty then t
  else { t with sseOpen := true, sseSocket := true, opening := t.opening + 1 }

def deliver (t : HttpClientTransport Λ) (messages : List Json) : HttpClientTransport Λ :=
  { t with sse := { t.sse with delivered := t.sse.delivered ++ messages } }

def handleResponse (t : HttpClientTransport Λ) (r : ClientResponse) : HttpClientTransport Λ :=
  let handling := env.codec.handleResponse t.handled t.sseOpen r
  let t := t.deliver handling.messages
  if handling.opensStream then t.startSseGet else t

/-- What `on_read` does when llhttp has paused at the end of a response. -/
def endResponse (t : HttpClientTransport Λ) : HttpClientTransport Λ :=
  let t := match t.parser.take with
    | some r => t.handleResponse env r
    | none => t
  { t with parser := t.parser.reset }

/-- A callback of llhttp. One that fails stops the parser. -/
def onCallback (t : HttpClientTransport Λ) (callback : Callback) : HttpClientTransport Λ :=
  if t.halted then t
  else
    match t.parser.on env.maxBodySize callback with
    | none => { t with halted := true }
    | some parser =>
      if callback.endsMessage then { t with parser }.endResponse env else { t with parser }

/-- `on_read` without an error. -/
def onRead (t : HttpClientTransport Λ) (bytes : Bytes) : HttpClientTransport Λ :=
  let (llhttp, callbacks) := env.lib.execute t.llhttp bytes
  let t := callbacks.foldl (onCallback env) { t with llhttp }
  { t with reading := !t.stopping }

/-- The lines of a read of the GET stream. `handle_sse_frame` does nothing without a handler. -/
def readStream (t : HttpClientTransport Λ) (bytes : Bytes) : HttpClientTransport Λ :=
  let sse := env.codec.onSseRead t.sse bytes
  { t with sse := if t.handled then sse else { sse with delivered := t.sse.delivered } }

/-- Whether `on_sse_read` asks for more. -/
def keepsStream (t : HttpClientTransport Λ) : Bool := !t.stopping && t.sseSocket

/-- `on_sse_read` for a read of a closed stream. -/
def readLateStream (t : HttpClientTransport Λ) (bytes : Bytes) : HttpClientTransport Λ :=
  let t := t.readStream env bytes
  if t.keepsStream then { t with streaming := t.streaming + 1 } else t

/-- The POST socket is closed; its read may have brought in some bytes. -/
def closeSocket (t : HttpClientTransport Λ) (caught : Option Bytes) : HttpClientTransport Λ :=
  { t with reading := false, late := t.late ++ if t.reading then caught.toList else [] }

/-- `connect` of a transport that is not connected. `init_parser` resets llhttp, not what its
    callbacks have written. -/
def reopen (t : HttpClientTransport Λ) (outcome : Connecting) (caught : Option Bytes) :
    HttpClientTransport Λ :=
  let t := { t with stopping := false, llhttp := env.lib.init, halted := false }
  match outcome with
  | .unresolved => t
  | .unreachable => t.closeSocket caught
  | .reached => { t.closeSocket caught with connected := true, reading := true }

/-- `disconnect`, with what the reads it closes had brought in. -/
def disconnect (t : HttpClientTransport Λ) (caught : Option Bytes) (caughtStream : List Bytes) :
    HttpClientTransport Λ :=
  { t.closeSocket caught with
    connected := false, stopping := true
    clearing := if t.handled then t.clearing + 1 else t.clearing
    parser := { t.parser with header := { t.parser.header with sessionId := [] } }
    sseOpen := false, sseSocket := false, streaming := 0
    sse := { t.sse with event := [], data := [] }
    lateStream := t.lateStream ++ caughtStream.take t.streaming }

def step (t : HttpClientTransport Λ) : HttpClientEvent → Option (HttpClientTransport Λ)
  | .setsHandlers => some { t with handled := true }
  | .clearsHandlers =>
    if 0 < t.clearing then some { t with handled := false, clearing := t.clearing - 1 } else none
  | .connects outcome caught => some (if t.connected then t else t.reopen env outcome caught)
  | .receives bytes => if t.reading then some (t.onRead env bytes) else none
  | .peerCloses => if t.reading then some { t with connected := false, reading := false } else none
  | .aborts => some { t with connected := false }
  | .disconnects caught caughtStream => some (t.disconnect caught caughtStream)
  | .runsLate place =>
    match t.late[place]? with
    | some bytes => some ({ t with late := t.late.eraseIdx place }.onRead env bytes)
    | none => none
  | .opensStream outcome =>
    if 0 < t.opening then
      let t := { t with opening := t.opening - 1 }
      some (if t.sseSocket then
        match outcome with
        | .opened => { t with streaming := t.streaming + 1 }
        | .unreachable => { t with sseOpen := false, sseSocket := false }
        | .writeFails => { t with sseOpen := false }
      else { t with sseOpen := false })
    else none
  | .streams bytes =>
    if 0 < t.streaming then
      let t := t.readStream env bytes
      some (if t.keepsStream then t else { t with streaming := t.streaming - 1 })
    else none
  | .streamEnds =>
    if 0 < t.streaming then some { t with streaming := t.streaming - 1, sseOpen := false }
    else none
  | .streamAborts => some { t with sseOpen := false }
  | .runsLateStream place =>
    match t.lateStream[place]? with
    | some bytes =>
      some ({ t with lateStream := t.lateStream.eraseIdx place }.readLateStream env bytes)
    | none => none

/-- The connection has ended, by `disconnect` or by the peer. -/
structure Ended (t : HttpClientTransport Λ) : Prop where
  connected : t.connected = false
  reading : t.reading = false

/-- No GET stream is open or about to be. -/
structure Quiet (t : HttpClientTransport Λ) : Prop where
  sseOpen : t.sseOpen = false
  opening : t.opening = 0
  streaming : t.streaming = 0
  lateStream : t.lateStream = []

/-- Nothing that an ended connection has received is left: no part of a response, no session,
    no GET stream, no part of an event, and no `clear_handlers` of its `disconnect`. -/
structure Clean (t : HttpClientTransport Λ) : Prop where
  clearing : t.clearing = 0
  parser : t.parser = {}
  event : t.sse.event = []
  data : t.sse.data = []
  late : t.late = []
  quiet : t.Quiet

end HttpClientTransport

/-- The stream with messages delivered before. -/
def SseClient.behind (base : List Json) (c : SseClient) : SseClient :=
  { c with delivered := base ++ c.delivered }

theorem onLine_behind (codec : JsonCodec) (base : List Json) (c : SseClient) (line : Bytes) :
    codec.onLine (c.behind base) line = (codec.onLine c line).behind base := by
  have data : (c.behind base).data = c.data := rfl
  simp only [JsonCodec.onLine, data]
  split
  · split
    · rfl
    · simp [JsonCodec.handleSseFrame, SseClient.behind]
  · split
    · rfl
    · split <;> rfl

theorem onSseRead_behind (codec : JsonCodec) (base : List Json) (c : SseClient) (read : Bytes) :
    codec.onSseRead (c.behind base) read = (codec.onSseRead c read).behind base := by
  unfold JsonCodec.onSseRead
  induction splitLines newline read generalizing c with
  | nil => rfl
  | cons line lines ih => rw [List.foldl_cons, List.foldl_cons, onLine_behind, ih]

namespace HttpClientTransport

variable {Λ : Type} (env : HttpClientEnv Λ)

/-- The transport with messages delivered before. -/
def behind (base : List Json) (t : HttpClientTransport Λ) : HttpClientTransport Λ :=
  { t with sse := t.sse.behind base }

variable {env} {base : List Json}

theorem startSseGet_behind (t : HttpClientTransport Λ) :
    (t.behind base).startSseGet = t.startSseGet.behind base := by
  unfold startSseGet behind
  dsimp only
  split <;> rfl

theorem handleResponse_behind (t : HttpClientTransport Λ) (r : ClientResponse) :
    (t.behind base).handleResponse env r = (t.handleResponse env r).behind base := by
  have same : (t.behind base).sseOpen = t.sseOpen ∧ (t.behind base).handled = t.handled :=
    ⟨rfl, rfl⟩
  have delivered : ∀ messages : List Json,
      (t.behind base).deliver messages = (t.deliver messages).behind base := by
    intro messages
    simp [deliver, behind, SseClient.behind]
  simp only [handleResponse, same, delivered]
  split
  · exact startSseGet_behind _
  · rfl

theorem endResponse_behind (t : HttpClientTransport Λ) :
    (t.behind base).endResponse env = (t.endResponse env).behind base := by
  have parser : (t.behind base).parser = t.parser := rfl
  simp only [endResponse, parser]
  cases t.parser.take with
  | none => rfl
  | some r =>
    simp only [handleResponse_behind]
    rfl

theorem onCallback_behind (t : HttpClientTransport Λ) (callback : Callback) :
    (t.behind base).onCallback env callback = (t.onCallback env callback).behind base := by
  have same : (t.behind base).halted = t.halted ∧ (t.behind base).parser = t.parser := ⟨rfl, rfl⟩
  simp only [onCallback, same]
  split
  · rfl
  · cases t.parser.on env.maxBodySize callback with
    | none => rfl
    | some parser =>
      simp only
      split
      · exact endResponse_behind { t with parser }
      · rfl

theorem onRead_behind (t : HttpClientTransport Λ) (bytes : Bytes) :
    (t.behind base).onRead env bytes = (t.onRead env bytes).behind base := by
  have fold : ∀ (callbacks : List Callback) (t : HttpClientTransport Λ),
      callbacks.foldl (onCallback env) (t.behind base) =
        (callbacks.foldl (onCallback env) t).behind base := by
    intro callbacks
    induction callbacks with
    | nil => exact fun t => rfl
    | cons callback callbacks ih =>
      intro t
      rw [List.foldl_cons, List.foldl_cons, onCallback_behind, ih]
  have started : { t.behind base with llhttp := (env.lib.execute t.llhttp bytes).1 } =
      behind base { t with llhttp := (env.lib.execute t.llhttp bytes).1 } := rfl
  have llhttp : (t.behind base).llhttp = t.llhttp := rfl
  simp only [onRead, llhttp, started, fold]
  rfl

theorem readStream_behind (t : HttpClientTransport Λ) (bytes : Bytes) :
    (t.behind base).readStream env bytes = (t.readStream env bytes).behind base := by
  have read : env.codec.onSseRead (t.sse.behind base) bytes =
      (env.codec.onSseRead t.sse bytes).behind base := onSseRead_behind _ _ _ _
  simp only [readStream, behind, read]
  split <;> rfl

theorem reopen_behind (t : HttpClientTransport Λ) (outcome : Connecting) (caught : Option Bytes) :
    (t.behind base).reopen env outcome caught = (t.reopen env outcome caught).behind base := by
  cases outcome <;> rfl

theorem readLateStream_behind (t : HttpClientTransport Λ) (bytes : Bytes) :
    (t.behind base).readLateStream env bytes = (t.readLateStream env bytes).behind base := by
  have keeps : ((t.readStream env bytes).behind base).keepsStream =
      (t.readStream env bytes).keepsStream := rfl
  simp only [readLateStream, readStream_behind, keeps]
  split <;> rfl

/-- What was delivered before changes nothing. -/
theorem step_behind (t : HttpClientTransport Λ) (event : HttpClientEvent) :
    step env (t.behind base) event = (step env t event).map (behind base) := by
  cases event with
  | setsHandlers => rfl
  | clearsHandlers =>
    have clearing : (t.behind base).clearing = t.clearing := rfl
    simp only [step, clearing]
    split <;> rfl
  | connects outcome caught =>
    have connected : (t.behind base).connected = t.connected := rfl
    simp only [step, connected, reopen_behind]
    split <;> rfl
  | receives bytes =>
    have reading : (t.behind base).reading = t.reading := rfl
    simp only [step, reading]
    split
    · exact congrArg some (onRead_behind t bytes)
    · rfl
  | peerCloses =>
    have reading : (t.behind base).reading = t.reading := rfl
    simp only [step, reading]
    split <;> rfl
  | aborts => rfl
  | disconnects caught caughtStream => rfl
  | runsLate place =>
    have late : (t.behind base).late = t.late := rfl
    simp only [step, late]
    cases t.late[place]? with
    | none => rfl
    | some bytes =>
      exact congrArg some (onRead_behind { t with late := t.late.eraseIdx place } bytes)
  | opensStream outcome =>
    have same : (t.behind base).opening = t.opening ∧ (t.behind base).sseSocket = t.sseSocket :=
      ⟨rfl, rfl⟩
    simp only [step, same]
    split
    · cases outcome <;> split <;> rfl
    · rfl
  | streams bytes =>
    have streaming : (t.behind base).streaming = t.streaming := rfl
    have keeps : ((t.readStream env bytes).behind base).keepsStream =
        (t.readStream env bytes).keepsStream := rfl
    simp only [step, streaming, readStream_behind, keeps]
    split
    · split <;> rfl
    · rfl
  | streamEnds =>
    have streaming : (t.behind base).streaming = t.streaming := rfl
    simp only [step, streaming]
    split <;> rfl
  | streamAborts => rfl
  | runsLateStream place =>
    have late : (t.behind base).lateStream = t.lateStream := rfl
    simp only [step, late]
    cases t.lateStream[place]? with
    | none => rfl
    | some bytes =>
      exact congrArg some
        (readLateStream_behind { t with lateStream := t.lateStream.eraseIdx place } bytes)

/-- The same state but for the object of a GET socket nothing uses. -/
def Alike (s t : HttpClientTransport Λ) : Prop :=
  s = t ∨ t.Quiet ∧ ∃ sseSocket, s = { t with sseSocket }

theorem startSseGet_alike {s t : HttpClientTransport Λ} (alike : s.Alike t) :
    s.startSseGet.Alike t.startSseGet := by
  rcases alike with rfl | ⟨quiet, socket, rfl⟩
  · exact .inl rfl
  · unfold startSseGet
    dsimp only
    split
    · exact .inr ⟨quiet, socket, rfl⟩
    · exact .inl rfl

theorem endResponse_alike {s t : HttpClientTransport Λ} (alike : s.Alike t) :
    (s.endResponse env).Alike (t.endResponse env) := by
  have reset : ∀ {s t : HttpClientTransport Λ}, s.Alike t →
      Alike { s with parser := s.parser.reset } { t with parser := t.parser.reset } := by
    rintro s t (rfl | ⟨quiet, socket, rfl⟩)
    · exact .inl rfl
    · exact .inr ⟨⟨quiet.sseOpen, quiet.opening, quiet.streaming, quiet.lateStream⟩, socket, rfl⟩
  rcases alike with rfl | ⟨quiet, socket, rfl⟩
  · exact .inl rfl
  · simp only [endResponse]
    cases t.parser.take with
    | none => exact reset (.inr ⟨quiet, socket, rfl⟩)
    | some r =>
      apply reset
      have delivered : ∀ messages : List Json,
          Alike (deliver { t with sseSocket := socket } messages) (t.deliver messages) :=
        fun messages =>
          .inr ⟨⟨quiet.sseOpen, quiet.opening, quiet.streaming, quiet.lateStream⟩, socket, rfl⟩
      simp only [handleResponse]
      split
      · exact startSseGet_alike (delivered _)
      · exact delivered _

theorem onCallback_alike {s t : HttpClientTransport Λ} (alike : s.Alike t) (callback : Callback) :
    (s.onCallback env callback).Alike (t.onCallback env callback) := by
  rcases alike with rfl | ⟨quiet, socket, rfl⟩
  · exact .inl rfl
  · have kept : ∀ parser halted, Alike { t with sseSocket := socket, parser, halted }
        { t with parser, halted } := fun _ _ =>
      .inr ⟨⟨quiet.sseOpen, quiet.opening, quiet.streaming, quiet.lateStream⟩, socket, rfl⟩
    simp only [onCallback]
    split
    · exact .inr ⟨quiet, socket, rfl⟩
    · cases t.parser.on env.maxBodySize callback with
      | none => exact kept t.parser true
      | some parser =>
        simp only
        split
        · exact endResponse_alike (kept parser t.halted)
        · exact kept parser t.halted

theorem onRead_alike {s t : HttpClientTransport Λ} (alike : s.Alike t) (bytes : Bytes) :
    (s.onRead env bytes).Alike (t.onRead env bytes) := by
  have fold : ∀ (callbacks : List Callback) {s t : HttpClientTransport Λ}, s.Alike t →
      (callbacks.foldl (onCallback env) s).Alike (callbacks.foldl (onCallback env) t) := by
    intro callbacks
    induction callbacks with
    | nil => exact fun alike => alike
    | cons callback callbacks ih => exact fun alike => ih (onCallback_alike alike callback)
  have asks : ∀ {s t : HttpClientTransport Λ}, s.Alike t →
      Alike { s with reading := !s.stopping } { t with reading := !t.stopping } := by
    rintro s t (rfl | ⟨quiet, socket, rfl⟩)
    · exact .inl rfl
    · exact .inr ⟨⟨quiet.sseOpen, quiet.opening, quiet.streaming, quiet.lateStream⟩, socket, rfl⟩
  rcases alike with rfl | ⟨quiet, socket, rfl⟩
  · exact .inl rfl
  · simp only [onRead]
    exact asks (fold _ (.inr ⟨⟨quiet.sseOpen, quiet.opening, quiet.streaming, quiet.lateStream⟩,
      socket, rfl⟩))

theorem step_alike (s t : HttpClientTransport Λ) (event : HttpClientEvent)
    (s' : HttpClientTransport Λ) (alike : s.Alike t) (h : step env s event = some s') :
    ∃ t', step env t event = some t' ∧ s'.Alike t' := by
  rcases alike with rfl | ⟨quiet, socket, rfl⟩
  · exact ⟨s', h, .inl rfl⟩
  · have kept : ∀ {s' t' : HttpClientTransport Λ}, t'.sseOpen = t.sseOpen → t'.opening = t.opening →
        t'.streaming = t.streaming → t'.lateStream = t.lateStream →
        s' = { t' with sseSocket := socket } → s'.Alike t' :=
      fun open_ opening streaming late same => .inr ⟨⟨open_.trans quiet.sseOpen,
        opening.trans quiet.opening, streaming.trans quiet.streaming,
        late.trans quiet.lateStream⟩, socket, same⟩
    cases event with
    | setsHandlers =>
      cases h
      exact ⟨_, rfl, kept rfl rfl rfl rfl rfl⟩
    | clearsHandlers =>
      simp only [step, Option.ite_none_right_eq_some, Option.some.injEq] at h ⊢
      obtain ⟨clearing, rfl⟩ := h
      exact ⟨_, ⟨clearing, rfl⟩, kept rfl rfl rfl rfl rfl⟩
    | connects outcome caught =>
      cases h
      refine ⟨_, rfl, ?_⟩
      dsimp only
      split
      · exact .inr ⟨quiet, socket, rfl⟩
      · cases outcome <;> exact kept rfl rfl rfl rfl rfl
    | receives bytes =>
      simp only [step, Option.ite_none_right_eq_some, Option.some.injEq] at h ⊢
      obtain ⟨reading, rfl⟩ := h
      exact ⟨_, ⟨reading, rfl⟩, onRead_alike (.inr ⟨quiet, socket, rfl⟩) bytes⟩
    | peerCloses =>
      simp only [step, Option.ite_none_right_eq_some, Option.some.injEq] at h ⊢
      obtain ⟨reading, rfl⟩ := h
      exact ⟨_, ⟨reading, rfl⟩, kept rfl rfl rfl rfl rfl⟩
    | aborts =>
      cases h
      exact ⟨_, rfl, kept rfl rfl rfl rfl rfl⟩
    | disconnects caught caughtStream =>
      cases h
      exact ⟨_, rfl, .inl rfl⟩
    | runsLate place =>
      simp only [step] at h ⊢
      split at h
      · cases h
        refine ⟨_, rfl, onRead_alike ?_ _⟩
        exact kept rfl rfl rfl rfl rfl
      · cases h
    | streamAborts =>
      cases h
      exact ⟨_, rfl, kept (by simp [quiet.sseOpen]) rfl rfl rfl rfl⟩
    | opensStream outcome => simp [step, quiet.opening] at h
    | streams bytes => simp [step, quiet.streaming] at h
    | streamEnds => simp [step, quiet.streaming] at h
    | runsLateStream place => simp [step, quiet.lateStream] at h

/-- The same state but for an unused GET socket and for messages delivered before. -/
def Follows (base : List Json) (s t : HttpClientTransport Λ) : Prop :=
  ∃ u : HttpClientTransport Λ, s = u.behind base ∧ u.Alike t

theorem step_follows (s t : HttpClientTransport Λ) (event : HttpClientEvent)
    (s' : HttpClientTransport Λ) (follows : s.Follows base t) (h : step env s event = some s') :
    ∃ t', step env t event = some t' ∧ s'.Follows base t' := by
  obtain ⟨u, rfl, alike⟩ := follows
  rw [step_behind] at h
  obtain ⟨u', stepped, rfl⟩ := Option.map_eq_some_iff.mp h
  obtain ⟨t', stepped', alike'⟩ := step_alike u t event u' alike stepped
  exact ⟨t', stepped', u', rfl, alike'⟩

theorem Follows.delivered {s t : HttpClientTransport Λ} (follows : s.Follows base t) :
    s.sse.delivered = base ++ t.sse.delivered := by
  obtain ⟨u, rfl, alike⟩ := follows
  rcases alike with rfl | ⟨-, socket, rfl⟩
  · rfl
  · rfl

/-- After a connection that left nothing, a transport delivers what a new one delivers. -/
theorem delivers_anew {s s' : HttpClientTransport Λ} (ended : s.Ended) (clean : s.Clean)
    {caught : Option Bytes} {back : List HttpClientEvent}
    (h : run (step env) s (.connects .reached caught :: back) = some s') :
    ∃ t, run (step env) (initial env s.handled) (.connects .reached caught :: back) = some t ∧
      s'.sse.delivered = s.sse.delivered ++ t.sse.delivered := by
  obtain ⟨next, stepped, later⟩ := run_cons_eq h
  let start : HttpClientTransport Λ :=
    { initial env s.handled with connected := true, reading := true }
  have opens : step env (initial env s.handled) (.connects .reached caught) = some start := rfl
  have quiet : start.Quiet := ⟨rfl, rfl, rfl, rfl⟩
  have follows : next.Follows s.sse.delivered start := by
    refine ⟨{ start with sseSocket := s.sseSocket }, ?_, .inr ⟨quiet, s.sseSocket, rfl⟩⟩
    have sse : s.sse = { delivered := s.sse.delivered } := by
      have event := clean.event
      have data := clean.data
      cases h : s.sse with
      | mk event' data' delivered => simp_all
    simp only [step, ended.connected, Bool.false_eq_true, if_false,
      Option.some.injEq] at stepped
    subst stepped
    simp only [reopen, closeSocket, behind, SseClient.behind, start, initial, ended.reading,
      Bool.false_eq_true, if_false, clean.clearing, clean.parser, clean.late,
      clean.quiet.sseOpen, clean.quiet.opening, clean.quiet.streaming, clean.quiet.lateStream,
      List.append_nil, ← sse]
  obtain ⟨t, anew, final⟩ := run_related step_follows follows later
  exact ⟨t, by simp [run, opens, anew], final.delivered⟩

end HttpClientTransport

end CppMcp
