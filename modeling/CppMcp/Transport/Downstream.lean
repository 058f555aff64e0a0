import Mathlib.Data.List.Infix
import CppMcp.Lib.Lines
import CppMcp.Queue.SingleWriter
import CppMcp.Transport.Line
import CppMcp.Transport.StdioDrain

namespace CppMcp

open Lib

/-- A party that gives lines to a stream. What it has given stays given. -/
structure LineSource (σ ε : Type) where
  step : System σ ε
  lines : σ → List Bytes
  grows : ∀ s e s', step s e = some s' → lines s <+: lines s'

namespace JsonCodec

variable (codec : JsonCodec)

/-- A message as a server sends it. -/
def jsonLine (m : Json) : Bytes := codec.dump m ++ [newline]

/-- The text of a message is one line that parses to it. -/
structure Lined (m : Json) : Prop where
  oneLine : newline ∉ codec.dump m ∧ carriageReturn ∉ codec.dump m
  written : codec.dump m ≠ []
  parses : codec.parse (codec.dump m) = some m

def JsonLines (lines : List Bytes) : Prop := ∀ line ∈ lines, ∃ m, codec.Lined m ∧ line = codec.jsonLine m

end JsonCodec

/-- A client handles the line: it is not one that `handle_line` discards. -/
def LineRules.handles (rules : LineRules) (line : Bytes) : Bool :=
  !(rules.discards && decide (rules.maxLineSize < line.length - 1))

/-- A server's stream and the connected client that reads it. `taken` are the bytes that the
    client's reads have brought in. -/
structure Downlink (σ : Type) where
  source : σ
  taken : Nat := 0
  client : LineTransport := { handled := true, connected := true, reading := true }

inductive DownlinkEvent (ε : Type) where
  | serves (event : ε)
  | receives (n : Nat)
  | continues
  | peerCloses
  | aborts

namespace Downlink

variable {σ ε : Type} (src : LineSource σ ε) (rules : LineRules) (codec : JsonCodec)

def stream (s : Downlink σ) : Bytes := (src.lines s.source).flatten

def clientStep (s : Downlink σ) (event : LineEvent) : Option (Downlink σ) :=
  (LineTransport.step rules codec s.client event).map fun client => { s with client }

def step (s : Downlink σ) : DownlinkEvent ε → Option (Downlink σ)
  | .serves event => (src.step s.source event).map fun source => { s with source }
  | .receives n =>
    if s.taken + n ≤ (s.stream src).length then
      { s with taken := s.taken + n }.clientStep rules codec
        (.receives (((s.stream src).drop s.taken).take n))
    else none
  | .continues => s.clientStep rules codec .continues
  | .peerCloses => s.clientStep rules codec .peerCloses
  | .aborts => s.clientStep rules codec .aborts

/-- The client has nothing more to do: it has no line in its buffer, and there is nothing to read. -/
def AtRest (s : Downlink σ) : Prop :=
  s.step src rules codec .continues = none ∧
    ∀ n ≤ 1024 * 1024, s.step src rules codec (.receives n) = none

/-- The client has handled the first lines of the stream, one after the other; what it has taken
    behind them is in its buffer. -/
structure Follows (s : Downlink σ) : Prop where
  handled : s.client.handled = true
  within : s.taken ≤ (s.stream src).length
  lines : ∃ done, done <+: src.lines s.source ∧
    done.flatten ++ s.client.readBuf = (s.stream src).take s.taken ∧
    s.client.delivered.map codec.jsonLine = done.filter rules.handles

variable {src rules codec}

/-- `handle_line` on the line of a message. -/
theorem handleLine_framed {m : Json} (framed : codec.Lined m) :
    (LineTransport.handleLine rules codec (codec.dump m)).toList.map codec.jsonLine =
      [codec.jsonLine m].filter rules.handles := by
  have size : (codec.jsonLine m).length - 1 = (codec.dump m).length := by simp [JsonCodec.jsonLine]
  unfold LineTransport.handleLine
  rw [List.filter_singleton, LineRules.handles, size]
  cases long : rules.discards && decide (rules.maxLineSize < (codec.dump m).length) with
  | true => simp
  | false => simp [framed.parses]

/-- The line at the front of the buffer is handled and taken out. -/
theorem takeLine_framed {t : LineTransport} {m : Json} {tail : Bytes} (handled : t.handled = true)
    (framed : codec.Lined m) (front : t.readBuf = codec.jsonLine m ++ tail) :
    (t.takeLine rules codec).readBuf = tail ∧
    (t.takeLine rules codec).handled = true ∧
    (t.takeLine rules codec).stopping = t.stopping ∧
    (t.takeLine rules codec).delivered.map codec.jsonLine =
      t.delivered.map codec.jsonLine ++ [codec.jsonLine m].filter rules.handles := by
  have split : t.readBuf = codec.dump m ++ newline :: tail := by
    rw [front, JsonCodec.jsonLine, List.append_assoc]
    rfl
  have plain : ∀ b ∈ codec.dump m, (b != newline) = true := fun b member => by
    simp only [bne_iff_ne, ne_eq]
    rintro rfl
    exact framed.oneLine.1 member
  have line : t.readBuf.takeWhile (· != newline) = codec.dump m := by
    rw [split, List.takeWhile_append_of_pos plain]
    simp
  have rest : (t.readBuf.dropWhile (· != newline)).drop 1 = tail := by
    rw [split, List.dropWhile_append_of_pos plain]
    simp
  have written : (codec.dump m).isEmpty = false := by simpa using framed.written
  refine ⟨rest, handled, rfl, ?_⟩
  simp only [LineTransport.takeLine, line, stripCr_self framed.oneLine.2, written, handled,
    Bool.not_true, Bool.or_self, Bool.false_eq_true, if_false, List.map_append]
  rw [handleLine_framed framed]

theorem onRead_fields (t : LineTransport) :
    (t.onRead rules codec).readBuf = (t.takeLine rules codec).readBuf ∧
    (t.onRead rules codec).handled = (t.takeLine rules codec).handled ∧
    (t.onRead rules codec).delivered = (t.takeLine rules codec).delivered := by
  unfold LineTransport.onRead LineTransport.doRead
  dsimp only
  split
  · exact ⟨rfl, rfl, rfl⟩
  · split <;> exact ⟨rfl, rfl, rfl⟩

/-- What is buffered behind the lines that were handled begins with the next line, if it has the
    end of one. -/
theorem buffer_line {lines done : List Bytes} {buffer got : Bytes} (framed : codec.JsonLines lines)
    (part : done <+: lines) (split : done.flatten ++ buffer = got) (within : got <+: lines.flatten)
    (ended : newline ∈ buffer) : ∃ m tail, codec.Lined m ∧ done ++ [codec.jsonLine m] <+: lines ∧
      buffer = codec.jsonLine m ++ tail := by
  obtain ⟨rest, rfl⟩ := part
  rw [← split, List.flatten_append] at within
  have later : buffer <+: rest.flatten := (List.prefix_append_right_inj _).mp within
  cases rest with
  | nil =>
    have none : buffer = [] := List.prefix_nil.mp later
    rw [none] at ended
    cases ended
  | cons line rest =>
    obtain ⟨m, good, rfl⟩ := framed line (by simp)
    have front : (codec.jsonLine m :: rest).flatten = codec.dump m ++ newline :: rest.flatten := by
      simp [JsonCodec.jsonLine]
    rw [front] at later
    obtain ⟨tail, split', -⟩ := prefix_line good.oneLine.1 ended later
    refine ⟨m, tail, good, ?_, ?_⟩
    · apply (List.prefix_append_right_inj done).mpr
      exact List.prefix_append [codec.jsonLine m] rest
    · rw [split']
      simp [JsonCodec.jsonLine]

/-- A completed read handles the next line. -/
theorem onRead_follows {s : Downlink σ} (framed : codec.JsonLines (src.lines s.source))
    (inv : s.Follows src rules codec) (line : s.client.hasLine = true) :
    ({ s with client := s.client.onRead rules codec }).Follows src rules codec ∧
      (s.client.onRead rules codec).readBuf.length < s.client.readBuf.length := by
  obtain ⟨done, part, got, delivered⟩ := inv.lines
  have ended : newline ∈ s.client.readBuf := by simpa [LineTransport.hasLine] using line
  obtain ⟨m, tail, good, more, front⟩ :=
    buffer_line framed part got (List.take_prefix _ _) ended
  obtain ⟨readBuf, handled, delivers⟩ := @onRead_fields rules codec s.client
  obtain ⟨tailed, handled', -, delivers'⟩ := takeLine_framed inv.handled good front
  rw [tailed] at readBuf
  constructor
  · refine ⟨handled.trans handled', inv.within, done ++ [codec.jsonLine m], more, ?_, ?_⟩
    · show _ ++ (s.client.onRead rules codec).readBuf = (s.stream src).take s.taken
      rw [readBuf, ← got, front]
      simp
    · show (s.client.onRead rules codec).delivered.map codec.jsonLine = _
      rw [delivers, delivers', delivered, List.filter_append]
  · rw [readBuf, front, List.length_append]
    simp [JsonCodec.jsonLine]

theorem commit_follows {s : Downlink σ} (inv : s.Follows src rules codec) {n : Nat}
    (room : s.taken + n ≤ (s.stream src).length) :
    ({ s with
      taken := s.taken + n
      client := s.client.commit (((s.stream src).drop s.taken).take n) }).Follows
        src rules codec := by
  obtain ⟨done, part, got, delivered⟩ := inv.lines
  refine ⟨inv.handled, room, done, part, ?_, delivered⟩
  show done.flatten ++ (s.client.readBuf ++ _) = (s.stream src).take (s.taken + n)
  rw [← List.append_assoc, got, List.take_add]

theorem lines_of_front {lines more : List Bytes} (framed : codec.JsonLines more)
    (part : lines <+: more) : codec.JsonLines lines := fun line member => framed line (part.subset member)

theorem step_grows (s : Downlink σ) (event : DownlinkEvent ε) (s' : Downlink σ)
    (h : s.step src rules codec event = some s') : src.lines s.source <+: src.lines s'.source := by
  have client {t t' : Downlink σ} {e : LineEvent} (h : t.clientStep rules codec e = some t') :
      t'.source = t.source := by
    obtain ⟨_, -, rfl⟩ := Option.map_eq_some_iff.mp h
    rfl
  cases event with
  | serves event =>
    obtain ⟨source, stepped, rfl⟩ := Option.map_eq_some_iff.mp h
    exact src.grows _ _ _ stepped
  | receives n =>
    simp only [step, Option.ite_none_right_eq_some] at h
    rw [client h.2]
  | continues | peerCloses | aborts =>
    rw [@client s s' _ h]

/-- What a read that is not the end of the stream does to the client: its bytes reach the buffer,
    and a line in it is handled. -/
theorem receives_cases {t t' : LineTransport} {bytes : Bytes}
    (h : LineTransport.step rules codec t (.receives bytes) = some t') :
    t.reading = true ∧ t.hasLine = false ∧ bytes ≠ [] ∧
    (((t.commit bytes).hasLine = true ∧ t' = (t.commit bytes).onRead rules codec) ∨
      ((t.commit bytes).hasLine = false ∧ (t.commit bytes).readBuf.length = rules.capacity ∧
        t' = (t.commit bytes).onReadError) ∨
      ((t.commit bytes).hasLine = false ∧ t' = t.commit bytes)) := by
  simp only [LineTransport.step, Option.ite_none_right_eq_some, Option.some.injEq] at h
  obtain ⟨⟨reading, idle, some, -⟩, rfl⟩ := h
  refine ⟨reading, idle, some, ?_⟩
  cases line : (t.commit bytes).hasLine with
  | true => exact .inl ⟨rfl, by simp⟩
  | false =>
    refine .inr ?_
    by_cases full : (t.commit bytes).readBuf.length = rules.capacity
    · exact .inl ⟨rfl, full, by simp [full]⟩
    · exact .inr ⟨rfl, by simp [full]⟩

theorem step_follows {s s' : Downlink σ} {event : DownlinkEvent ε}
    (inv : s.Follows src rules codec) (framed : codec.JsonLines (src.lines s.source))
    (h : s.step src rules codec event = some s') : s'.Follows src rules codec := by
  have same {client : LineTransport} (readBuf : client.readBuf = s.client.readBuf)
      (handled : client.handled = s.client.handled)
      (delivered : client.delivered = s.client.delivered) :
      ({ s with client }).Follows src rules codec := by
    refine ⟨handled.trans inv.handled, inv.within, ?_⟩
    show ∃ done, done <+: _ ∧ done.flatten ++ client.readBuf = _ ∧ client.delivered.map _ = _
    rw [readBuf, delivered]
    exact inv.lines
  cases event with
  | serves event =>
    obtain ⟨source, stepped, rfl⟩ := Option.map_eq_some_iff.mp h
    have grown := src.grows _ _ _ stepped
    obtain ⟨more, lines⟩ := grown
    have longer : src.lines source = src.lines s.source ++ more := lines.symm
    obtain ⟨done, part, got, delivered⟩ := inv.lines
    have stream : (src.lines source).flatten = s.stream src ++ more.flatten := by
      rw [longer, List.flatten_append]
      rfl
    refine ⟨inv.handled, ?_, done, part.trans ⟨more, lines⟩, ?_, delivered⟩
    · show s.taken ≤ (src.lines source).flatten.length
      rw [stream, List.length_append]
      exact Nat.le_add_right_of_le inv.within
    · show _ = (src.lines source).flatten.take s.taken
      rw [stream, List.take_append_of_le_length inv.within]
      exact got
  | receives n =>
    simp only [step, Option.ite_none_right_eq_some] at h
    obtain ⟨room, h⟩ := h
    obtain ⟨client, stepped, rfl⟩ := Option.map_eq_some_iff.mp h
    have committed := commit_follows inv room
    obtain ⟨-, -, -, ⟨line, rfl⟩ | ⟨-, -, rfl⟩ | ⟨-, rfl⟩⟩ := receives_cases stepped
    · exact (@onRead_follows _ _ _ _ _ { s with
        taken := s.taken + n
        client := s.client.commit (((s.stream src).drop s.taken).take n) } framed committed line).1
    · exact ⟨committed.handled, committed.within, committed.lines⟩
    · exact committed
  | continues =>
    obtain ⟨client, stepped, rfl⟩ := Option.map_eq_some_iff.mp h
    simp only [LineTransport.step, Option.ite_none_right_eq_some, Option.some.injEq] at stepped
    obtain ⟨⟨-, line⟩, rfl⟩ := stepped
    exact (onRead_follows framed inv line).1
  | peerCloses =>
    obtain ⟨client, stepped, rfl⟩ := Option.map_eq_some_iff.mp h
    simp only [LineTransport.step, Option.ite_none_right_eq_some, Option.some.injEq] at stepped
    obtain ⟨-, rfl⟩ := stepped
    exact same rfl rfl rfl
  | aborts =>
    cases h
    exact same rfl rfl rfl

theorem run_grows {s s' : Downlink σ} {events : List (DownlinkEvent ε)}
    (h : run (step src rules codec) s events = some s') :
    src.lines s.source <+: src.lines s'.source := by
  apply @run_keeps _ _ _ (fun t => src.lines s.source <+: src.lines t.source) _ _ _ _
    List.prefix_rfl h
  exact fun t e t' before stepped => before.trans (step_grows t e t' stepped)

theorem run_follows {s s' : Downlink σ} {events : List (DownlinkEvent ε)}
    (inv : s.Follows src rules codec) (h : run (step src rules codec) s events = some s')
    (framed : codec.JsonLines (src.lines s'.source)) : s'.Follows src rules codec := by
  induction events generalizing s with
  | nil =>
    cases h
    exact inv
  | cons event rest ih =>
    obtain ⟨next, stepped, h⟩ := run_cons_eq h
    have before := (step_grows s event next stepped).trans (run_grows h)
    exact ih (step_follows inv (lines_of_front framed before) stepped) h

theorem opened_follows {source : σ} : ({ source } : Downlink σ).Follows src rules codec :=
  ⟨rfl, Nat.zero_le _, [], List.nil_prefix, rfl, rfl⟩

/-- A read of the size that asio reads in, or the peer has not closed. -/
def Prompt : DownlinkEvent ε → Prop
  | .receives n => n ≤ 1024 * 1024
  | .peerCloses => False
  | _ => True

/-- The client reads on, and has no more in its buffer than a line may be long. -/
structure Reads (rules : LineRules) (t : LineTransport) : Prop where
  reading : t.reading = true
  running : t.stopping = false
  bounded : t.readBuf.length ≤ rules.maxLineSize

theorem onRead_reads {t : LineTransport} (running : t.stopping = false)
    (short : (t.takeLine rules codec).readBuf.length ≤ rules.maxLineSize) :
    Reads rules (t.onRead rules codec) := by
  have still : (t.takeLine rules codec).stopping = false := running
  have fits : ¬ rules.maxLineSize < (t.takeLine rules codec).readBuf.length := by omega
  have read : t.onRead rules codec =
      { t.takeLine rules codec with reading := !(t.takeLine rules codec).stopping } := by
    simp [LineTransport.onRead, LineTransport.doRead, still, fits]
  rw [read, still]
  exact ⟨rfl, still, short⟩

/-- Of a buffer that had no line before a read, no more than the read is behind its first line. -/
theorem takeLine_length {t : LineTransport} {bytes : Bytes} (idle : t.hasLine = false) :
    ((t.commit bytes).takeLine rules codec).readBuf.length ≤ bytes.length := by
  have plain : ∀ b ∈ t.readBuf, (b != newline) = true := fun b member => by
    simp only [bne_iff_ne, ne_eq]
    rintro rfl
    simp [LineTransport.hasLine, member] at idle
  show (((t.readBuf ++ bytes).dropWhile (· != newline)).drop 1).length ≤ _
  rw [List.dropWhile_append_of_pos plain, List.length_drop]
  have fewer := (List.dropWhile_suffix (l := bytes) (· != newline)).length_le
  omega

/-- A buffer without the end of a line is shorter than the line it begins. -/
theorem unended_short {s : Downlink σ} (inv : s.Follows src rules codec)
    (framed : codec.JsonLines (src.lines s.source))
    (short : ∀ line ∈ src.lines s.source, line.length ≤ rules.maxLineSize)
    (unended : s.client.hasLine = false) : s.client.readBuf.length ≤ rules.maxLineSize := by
  obtain ⟨done, ⟨rest, lines⟩, got, -⟩ := inv.lines
  have within : done.flatten ++ s.client.readBuf <+: (done ++ rest).flatten := by
    rw [got, lines]
    exact List.take_prefix ..
  rw [List.flatten_append] at within
  have later := (List.prefix_append_right_inj _).mp within
  cases rest with
  | nil =>
    have none : s.client.readBuf = [] := List.prefix_nil.mp later
    simp [none]
  | cons line rest =>
    have member : line ∈ src.lines s.source := by simp [← lines]
    obtain ⟨m, -, rfl⟩ := framed line member
    have front : (codec.jsonLine m :: rest).flatten = codec.dump m ++ newline :: rest.flatten := by
      simp [JsonCodec.jsonLine]
    rw [front] at later
    have inside : newline ∉ s.client.readBuf := by simpa [LineTransport.hasLine] using unended
    have less := (prefix_unended inside later).length_le
    have bound := short _ member
    simp only [JsonCodec.jsonLine, List.length_append, List.length_singleton] at bound
    omega

/-- A line may be as long as a read, and the buffer has room for both. -/
structure Roomy (rules : LineRules) : Prop where
  line : 1024 * 1024 ≤ rules.maxLineSize
  both : rules.maxLineSize + 1024 * 1024 ≤ rules.capacity

theorem receives_reads {t t' : LineTransport} {bytes : Bytes} (roomy : Roomy rules)
    (reads : Reads rules t) (brought : bytes.length ≤ 1024 * 1024)
    (part : (t.commit bytes).hasLine = false →
      (t.commit bytes).readBuf.length ≤ rules.maxLineSize)
    (h : LineTransport.step rules codec t (.receives bytes) = some t') : Reads rules t' := by
  obtain ⟨line, both⟩ := roomy
  obtain ⟨-, idle, -, ⟨-, rfl⟩ | ⟨unended, full, rfl⟩ | ⟨unended, rfl⟩⟩ := receives_cases h
  · have left := @takeLine_length rules codec t bytes idle
    have running : (t.commit bytes).stopping = false := reads.running
    exact onRead_reads running (by omega)
  · have less := part unended
    omega
  · exact ⟨reads.reading, reads.running, part unended⟩

theorem step_reads {s s' : Downlink σ} {event : DownlinkEvent ε} (roomy : Roomy rules)
    (inv : s.Follows src rules codec) (reads : Reads rules s.client)
    (framed : codec.JsonLines (src.lines s.source))
    (short : ∀ line ∈ src.lines s.source, line.length ≤ rules.maxLineSize)
    (prompt : Prompt event) (h : s.step src rules codec event = some s') :
    Reads rules s'.client := by
  cases event with
  | serves event =>
    obtain ⟨source, stepped, rfl⟩ := Option.map_eq_some_iff.mp h
    exact reads
  | receives n =>
    simp only [step, Option.ite_none_right_eq_some] at h
    obtain ⟨room, h⟩ := h
    obtain ⟨client, stepped, rfl⟩ := Option.map_eq_some_iff.mp h
    have committed := commit_follows inv room
    apply receives_reads roomy reads _ _ stepped
    · exact (List.length_take_le ..).trans prompt
    · exact unended_short committed framed short
  | continues =>
    obtain ⟨client, stepped, rfl⟩ := Option.map_eq_some_iff.mp h
    simp only [LineTransport.step, Option.ite_none_right_eq_some, Option.some.injEq] at stepped
    obtain ⟨⟨-, line⟩, rfl⟩ := stepped
    apply onRead_reads reads.running
    have less := (onRead_follows framed inv line).2
    rw [(onRead_fields s.client).1] at less
    exact less.le.trans reads.bounded
  | peerCloses => exact absurd prompt id
  | aborts =>
    cases h
    exact ⟨reads.reading, reads.running, reads.bounded⟩

theorem run_reads {s s' : Downlink σ} {events : List (DownlinkEvent ε)} (roomy : Roomy rules)
    (inv : s.Follows src rules codec) (reads : Reads rules s.client)
    (h : run (step src rules codec) s events = some s')
    (framed : codec.JsonLines (src.lines s'.source))
    (short : ∀ line ∈ src.lines s'.source, line.length ≤ rules.maxLineSize)
    (prompt : ∀ event ∈ events, Prompt event) : Reads rules s'.client := by
  induction events generalizing s with
  | nil =>
    cases h
    exact reads
  | cons event rest ih =>
    obtain ⟨next, stepped, h⟩ := run_cons_eq h
    have before := (step_grows s event next stepped).trans (run_grows h)
    have first := lines_of_front framed before
    have reads' := step_reads roomy inv reads first
      (fun line member => short line (before.subset member)) (prompt event List.mem_cons_self) stepped
    exact ih (step_follows inv first stepped) reads' h
      fun event member => prompt event (List.mem_cons_of_mem _ member)

/-- A client that reads and has nothing more to do has handled the whole stream. -/
theorem rest_whole {s : Downlink σ} (roomy : Roomy rules) (inv : s.Follows src rules codec)
    (reads : Reads rules s.client) (framed : codec.JsonLines (src.lines s.source))
    (rest : s.AtRest src rules codec) :
    s.client.delivered.map codec.jsonLine = (src.lines s.source).filter rules.handles := by
  obtain ⟨line, both⟩ := roomy
  have idle : s.client.hasLine = false := by
    by_contra ended
    have refused := rest.1
    simp [step, clientStep, LineTransport.step, reads.reading, ended] at refused
  have whole : s.taken = (s.stream src).length := by
    by_contra missing
    have less : s.taken < (s.stream src).length := Nat.lt_of_le_of_ne inv.within missing
    have next : (((s.stream src).drop s.taken).take 1).length = 1 := by
      rw [List.length_take, List.length_drop]
      omega
    have bounded := reads.bounded
    have some : ((s.stream src).drop s.taken).take 1 ≠ [] := fun none => by
      rw [none] at next
      cases next
    have room : s.client.readBuf.length + (((s.stream src).drop s.taken).take 1).length ≤
        rules.capacity := by omega
    have refused := rest.2 1 (by decide)
    rw [step, if_pos (Nat.succ_le_of_lt less)] at refused
    have stuck : LineTransport.step rules codec s.client
        (.receives (((s.stream src).drop s.taken).take 1)) = none := Option.map_eq_none_iff.mp refused
    rw [LineTransport.step, if_pos ⟨reads.reading, idle, some, room⟩] at stuck
    cases stuck
  obtain ⟨done, part, got, delivered⟩ := inv.lines
  rw [whole, List.take_length] at got
  obtain ⟨later, lines⟩ := part
  cases later with
  | nil => rw [delivered, ← lines, List.append_nil]
  | cons line later =>
    obtain ⟨m, -, rfl⟩ := framed line (by simp [← lines])
    have left : s.client.readBuf = (codec.jsonLine m :: later).flatten := by
      apply @List.append_cancel_left _ done.flatten
      rw [got, stream, ← lines, List.flatten_append]
    have ended : s.client.hasLine = true := by
      simp [LineTransport.hasLine, left, JsonCodec.jsonLine]
    rw [idle] at ended
    cases ended

/-- What the server does in a run. -/
def serves (events : List (DownlinkEvent ε)) : List ε :=
  events.filterMap fun
    | .serves event => some event
    | _ => none

theorem run_serves {s s' : Downlink σ} {events : List (DownlinkEvent ε)}
    (h : run (step src rules codec) s events = some s') :
    run src.step s.source (serves events) = some s'.source := by
  induction events generalizing s with
  | nil =>
    cases h
    rfl
  | cons event rest ih =>
    obtain ⟨next, stepped, h⟩ := run_cons_eq h
    have later := ih h
    have client {t : Downlink σ} {e : LineEvent} (same : t.source = s.source)
        (stepped : t.clientStep rules codec e = some next) :
        run src.step s.source (serves rest) = some s'.source := by
      obtain ⟨_, -, rfl⟩ := Option.map_eq_some_iff.mp stepped
      rw [← same]
      exact later
    cases event with
    | serves e =>
      obtain ⟨source, served, rfl⟩ := Option.map_eq_some_iff.mp stepped
      show (src.step s.source e).bind (fun next => run src.step next (serves rest)) = _
      rw [served]
      exact later
    | receives n =>
      simp only [step, Option.ite_none_right_eq_some] at stepped
      exact @client { s with taken := s.taken + n } _ rfl stepped.2
    | continues => exact @client s .continues rfl stepped
    | peerCloses => exact @client s .peerCloses rfl stepped
    | aborts => exact @client s .aborts rfl stepped

theorem handles_short {line : Bytes} (short : line.length ≤ rules.maxLineSize) :
    rules.handles line = true := by
  have within : ¬ rules.maxLineSize < line.length - 1 := by omega
  simp [LineRules.handles, within]

/-- The client handles the first lines of the stream, in order and once each. While the peer does
    not close and no line is too long for it, it reads on until it has handled them all. -/
theorem follows_stream {source : σ} {s : Downlink σ} {events : List (DownlinkEvent ε)}
    (roomy : Roomy rules) (h : run (step src rules codec) { source } events = some s)
    (framed : codec.JsonLines (src.lines s.source)) :
    (∃ done, done <+: src.lines s.source ∧
      s.client.delivered.map codec.jsonLine = done.filter rules.handles) ∧
    ((∀ event ∈ events, Prompt event) →
      (∀ line ∈ src.lines s.source, line.length ≤ rules.maxLineSize) →
      s.client.reading = true ∧ (s.AtRest src rules codec →
        s.client.delivered.map codec.jsonLine = src.lines s.source)) := by
  have inv := run_follows opened_follows h framed
  constructor
  · obtain ⟨done, part, -, delivered⟩ := inv.lines
    exact ⟨done, part, delivered⟩
  · intro prompt short
    have start : Reads rules ({ source } : Downlink σ).client := ⟨rfl, rfl, Nat.zero_le _⟩
    have reads := run_reads roomy opened_follows start h framed short prompt
    refine ⟨reads.reading, fun rest => ?_⟩
    rw [rest_whole roomy inv reads framed rest]
    exact List.filter_eq_self.mpr fun line member => handles_short (short line member)

end Downlink

/-! The two servers that send lines. -/

theorem AsyncWriteQueue.handed_grows {config : WriteQueueConfig} (q : AsyncWriteQueue)
    (event : WriteQueueEvent) (q' : AsyncWriteQueue) (h : step config q event = some q') :
    q.handed <+: q'.handed := by
  cases event with
  | enqueue data =>
    cases h
    show q.handed <+: (q.enqueue config ⟨q.returned.length, data⟩).1.handed
    rcases enqueue_cases config q ⟨q.returned.length, data⟩ with same | ⟨-, -, -, closes⟩ | ⟨-, accepts⟩
    · rw [same]
    · rw [closes, report_eq]
    · rw [accepts]
  | arms =>
    simp only [step, Option.ite_none_right_eq_some, Option.some.injEq] at h
    obtain ⟨-, rfl⟩ := h
    rcases armWrite_cases { q with arming := q.arming - 1 } with ⟨stops, -⟩ | ⟨item, rest, -, -, takes⟩
    · rw [stops]
    · rw [takes]
  | hands place =>
    simp only [step] at h
    split at h
    · cases h
      exact List.prefix_append ..
    · cases h
  | completes place ok =>
    simp only [step, Option.ite_none_right_eq_some, Option.some.injEq] at h
    obtain ⟨-, rfl⟩ := h
    unfold onWriteComplete
    split
    · split <;> exact List.prefix_rfl
    · dsimp only
      split
      · rw [report_eq]
      · exact List.prefix_rfl
  | reports =>
    simp only [step, Option.ite_none_right_eq_some, Option.some.injEq] at h
    obtain ⟨-, rfl⟩ := h
    exact List.prefix_rfl
  | shutdown =>
    cases h
    exact List.prefix_rfl

/-- The write queue of a `PipeConnection`. -/
def pipeSource (config : WriteQueueConfig) : LineSource AsyncWriteQueue WriteQueueEvent where
  step := AsyncWriteQueue.step config
  lines q := q.handed.map QueueItem.data
  grows q event q' h := (AsyncWriteQueue.handed_grows q event q' h).map _

/-- The writer thread of a `StdioTransport`. -/
def stdioSource (dumper : Dumper) : LineSource StdioWriter StdioWriterEvent where
  step := StdioWriter.step dumper
  lines w := w.written ++ w.thread.inFlight
  grows w event w' h := by
    rw [(StdioWriter.step_flow h).written]
    exact List.prefix_append ..

def Dumper.codec (dumper : Dumper) (parse : Bytes → Option Json) : JsonCodec := ⟨dumper.dump, parse⟩

/-- The JSON library on an empty object. -/
def emptyDumper : Dumper where
  dump _ := ascii "{}"
  sized _ := by decide

def emptyCodec : JsonCodec :=
  emptyDumper.codec fun text => if text = ascii "{}" then some (.object []) else none

theorem empty_lined : emptyCodec.Lined (.object []) := ⟨by decide, by decide, by rfl⟩

theorem empty_lines : emptyCodec.JsonLines [emptyCodec.jsonLine (.object [])] := by
  intro line member
  obtain rfl := List.mem_singleton.mp member
  exact ⟨_, empty_lined, rfl⟩

/-- One message is handed to the pipe and read in two parts. -/
def pipeCut : List (DownlinkEvent WriteQueueEvent) :=
  [.serves (.enqueue (emptyCodec.jsonLine (.object []))), .serves .arms, .serves (.hands 0),
    .receives 1, .receives 2]

/-- One message is written to `stdout` and read in two parts. -/
def stdioCut : List (DownlinkEvent StdioWriterEvent) :=
  [.serves .starts, .serves (.sends (.object [])), .serves .takes, .receives 2, .serves .writes,
    .receives 1]

end CppMcp
