import Mathlib.Data.List.Chain
import Mathlib.Data.List.DropRight
import CppMcp.Lib.Lines
import CppMcp.Http.Transport

namespace CppMcp

open Lib

def newline : UInt8 := 10
def carriageReturn : UInt8 := 13
def space : UInt8 := 32

def stripCr (line : Bytes) : Bytes := line.rdropWhile (· == carriageReturn)

/-- What comes behind a field name, without leading blanks. -/
def fieldValue (name line : Bytes) : Bytes := (line.drop name.length).dropWhile (· == space)

def dataField : Bytes := ascii "data:"
def eventField : Bytes := ascii "event:"

/-- The texts `handle_sse_frame` parses. -/
def frameTexts (data : Bytes) : List Bytes :=
  ((splitLines newline data).map stripCr).filterMap fun line =>
    if dataField.isPrefixOf line then some (fieldValue dataField line)
    else if line.isEmpty then none
    else some line

/-- The members of an `HttpClientTransport` that its SSE stream uses, and the messages its
    handler was called with. -/
structure SseClient where
  event : Bytes := []
  data : Bytes := []
  delivered : List Json := []

/-- `dump` and `parse` of the JSON library. A text that does not parse raises an exception. -/
structure JsonCodec where
  dump : Json → Bytes
  parse : Bytes → Option Json

namespace JsonCodec

variable (codec : JsonCodec)

def handleSseFrame (c : SseClient) (data : Bytes) : SseClient :=
  { c with delivered := c.delivered ++ (frameTexts data).filterMap codec.parse }

/-- One turn of the loop of `on_sse_read`. -/
def onLine (c : SseClient) (line : Bytes) : SseClient :=
  let line := stripCr line
  if line.isEmpty then
    if c.data.isEmpty then c
    else { codec.handleSseFrame c c.data with event := [], data := [] }
  else if eventField.isPrefixOf line then { c with event := fieldValue eventField line }
  else if dataField.isPrefixOf line then
    { c with data := (if c.data.isEmpty then [] else c.data ++ [newline]) ++ fieldValue dataField line }
  else c

/-- `on_sse_read` on the bytes of one read. -/
def onSseRead (c : SseClient) (read : Bytes) : SseClient := (splitLines newline read).foldl codec.onLine c

def onSseReads (c : SseClient) (reads : List Bytes) : SseClient := reads.foldl codec.onSseRead c

/-- The line that `push_to_session_sse` writes for a message. -/
def dataLine (m : Json) : Bytes := ascii "data: " ++ codec.dump m

def frame (m : Json) : Bytes := codec.dataLine m ++ [newline, newline]

/-- What the JSON library promises of an object: its text is one line that begins with a brace
    and parses to the object. -/
structure Lawful (m : Json) : Prop where
  oneLine : newline ∉ codec.dump m ∧ carriageReturn ∉ codec.dump m
  brace : (codec.dump m).head? = some 123
  parses : codec.parse (codec.dump m) = some m

/-- No text that breaks off parses, and none looks like a data line inside. -/
structure Strict (m : Json) : Prop where
  broken : ∀ part rest, codec.dump m = part ++ rest → rest ≠ [] → codec.parse part = none
  plain : ¬ dataField <:+: codec.dump m

/-- Some read ends inside the data line of a message. -/
def CutsLine (head : Bytes) (ms : List Json) (reads : List Bytes) : Prop :=
  ∃ front m back part rest, ms = front ++ m :: back ∧ codec.dataLine m = part ++ rest ∧
    part ≠ [] ∧ rest ≠ [] ∧ EndsAt reads (head ++ front.flatMap codec.frame ++ part)

end JsonCodec

def HttpWrite.bytes : HttpWrite → Bytes
  | .response r => buildHttpResponse r
  | .stream headers opening =>
    ascii "HTTP/1.1 200 OK" ++ crlf ++
      headers.flatMap (fun (k, v) => k ++ ascii ": " ++ v ++ crlf) ++ crlf ++ opening

/-- Some read ends in the head of the response, in front of what looks like a data line. -/
def CutsHead (head : Bytes) (reads : List Bytes) : Prop :=
  ∃ part rest, head = part ++ rest ∧ dataField <+: rest ∧ EndsAt reads part

theorem stripCr_front (line : Bytes) : stripCr line <+: line :=
  List.rdropWhile_prefix (· == carriageReturn) line

theorem stripCr_self {line : Bytes} (plain : carriageReturn ∉ line) : stripCr line = line := by
  refine List.rdropWhile_eq_self_iff.mpr fun nonempty => ?_
  have member := List.getLast_mem nonempty
  simp only [beq_iff_eq]
  exact fun same => plain (same ▸ member)

namespace JsonCodec

variable {codec : JsonCodec}

/-- Data that delivers nothing when it is dispatched. -/
def Silent (codec : JsonCodec) (data : Bytes) : Prop :=
  (frameTexts data).filterMap codec.parse = []

variable (codec) in
theorem silent_nil : codec.Silent [] := rfl

variable (codec) in
/-- A blank line dispatches the data of its frame. -/
theorem onLine_blank (c : SseClient) {line : Bytes} (blank : stripCr line = []) :
    (codec.onLine c line).data = [] ∧ (codec.onLine c line).delivered =
      c.delivered ++ (frameTexts c.data).filterMap codec.parse := by
  rw [onLine, blank]
  cases empty : c.data.isEmpty with
  | true =>
    have none : c.data = [] := by simpa using empty
    simp [none, frameTexts, splitLines]
  | false => simp [handleSseFrame]

variable (codec) in
theorem onLine_nil (c : SseClient) :
    (codec.onLine c []).data = [] ∧ (codec.onLine c []).delivered =
      c.delivered ++ (frameTexts c.data).filterMap codec.parse := onLine_blank codec c rfl

/-- Only a data line brings data, and silent data delivers nothing. -/
theorem onLine_silent {c : SseClient} {line : Bytes} (silent : codec.Silent c.data)
    (other : ¬ dataField <+: line) :
    codec.Silent (codec.onLine c line).data ∧ (codec.onLine c line).delivered = c.delivered := by
  have field : ¬ dataField <+: stripCr line := fun begins => other (begins.trans (stripCr_front _))
  cases blank : stripCr line with
  | nil =>
    obtain ⟨data, delivered⟩ := onLine_blank codec c blank
    rw [data, delivered, silent, List.append_nil]
    exact ⟨codec.silent_nil, rfl⟩
  | cons b rest =>
    rw [blank] at field
    rw [onLine, blank]
    by_cases event : eventField <+: b :: rest <;> simp [event, field, silent]

theorem blank_silent {c : SseClient} {line : Bytes} (silent : codec.Silent c.data)
    (other : ¬ dataField <+: line) : (codec.onLine (codec.onLine c line) []).data = [] ∧
      (codec.onLine (codec.onLine c line) []).delivered = c.delivered := by
  obtain ⟨last, unchanged⟩ := onLine_silent silent other
  obtain ⟨data, dispatched⟩ := onLine_nil codec (codec.onLine c line)
  exact ⟨data, by rw [dispatched, last, List.append_nil, unchanged]⟩

theorem Lawful.dataLine_plain {m : Json} (lawful : codec.Lawful m) :
    newline ∉ codec.dataLine m ∧ carriageReturn ∉ codec.dataLine m := by
  obtain ⟨noNewline, noReturn⟩ := lawful.oneLine
  rw [dataLine, List.mem_append, List.mem_append]
  exact ⟨not_or.mpr ⟨by decide, noNewline⟩, not_or.mpr ⟨by decide, noReturn⟩⟩

/-- The text of an object, or a beginning of it, is taken for itself. -/
theorem Lawful.beginning {m : Json} (lawful : codec.Lawful m) {text rest : Bytes}
    (split : codec.dump m = text ++ rest) :
    text.dropWhile (· == space) = text ∧
      frameTexts text = if text = [] then [] else [text] := by
  cases text with
  | nil => simp [frameTexts, splitLines]
  | cons b text =>
    obtain ⟨noNewline, noReturn⟩ := lawful.oneLine
    have brace := lawful.brace
    rw [split] at noNewline noReturn brace
    have inside : newline ∉ b :: text := fun member => noNewline (List.mem_append_left _ member)
    have plain : carriageReturn ∉ b :: text := fun member => noReturn (List.mem_append_left _ member)
    have first : b = 123 := by simpa using brace
    have line : frameTexts (b :: text) = [b :: text] := by
      rw [frameTexts, splitLines_line inside, if_neg (by simp), List.map_singleton,
        stripCr_self plain]
      simp [first, dataField, ascii]
    subst first
    exact ⟨rfl, by rw [line]; simp⟩

theorem onLine_field {c : SseClient} (idle : c.data = []) {value : Bytes}
    (plain : carriageReturn ∉ value) :
    codec.onLine c (dataField ++ value) = { c with data := value.dropWhile (· == space) } := by
  have whole : stripCr (dataField ++ value) = dataField ++ value :=
    stripCr_self (by rw [List.mem_append]; exact not_or.mpr ⟨by decide, plain⟩)
  have event : eventField.isPrefixOf (dataField ++ value) = false := rfl
  have data : dataField.isPrefixOf (dataField ++ value) = true := by simp
  have some : (dataField ++ value).isEmpty = false := by simp [dataField, ascii]
  rw [onLine, whole, some, event, data]
  simp [idle, fieldValue]

theorem onLine_dataLine {c : SseClient} (idle : c.data = []) {m : Json} (lawful : codec.Lawful m) :
    codec.onLine c (codec.dataLine m) = { c with data := codec.dump m } := by
  have split : codec.dataLine m = dataField ++ space :: codec.dump m := rfl
  have plain : carriageReturn ∉ space :: codec.dump m := by
    rw [List.mem_cons]
    exact not_or.mpr ⟨by decide, lawful.oneLine.2⟩
  have text := (lawful.beginning (List.append_nil _).symm).1
  rw [split, onLine_field idle plain, List.dropWhile_cons_of_pos (by rfl), text]

/-- A data line that breaks off leaves nothing that parses. -/
theorem onLine_broken {c : SseClient} (idle : c.data = []) {m : Json} (lawful : codec.Lawful m)
    (strict : codec.Strict m) {part rest : Bytes} (split : codec.dataLine m = part ++ rest)
    (more : rest ≠ []) :
    codec.Silent (codec.onLine c part).data ∧ (codec.onLine c part).delivered = c.delivered := by
  by_cases field : dataField <+: part
  · obtain ⟨value, rfl⟩ := field
    have lines : dataField ++ space :: codec.dump m = dataField ++ (value ++ rest) := by
      rw [← List.append_assoc, ← split]
      rfl
    have texts := List.append_cancel_left lines
    have plain : carriageReturn ∉ value := fun member =>
      lawful.dataLine_plain.2 (by rw [split]; simp [member])
    rw [onLine_field idle plain]
    refine ⟨?_, rfl⟩
    cases value with
    | nil => exact codec.silent_nil
    | cons b text =>
      obtain ⟨rfl, beginning⟩ := List.cons.inj texts
      obtain ⟨same, line⟩ := lawful.beginning beginning
      rw [List.dropWhile_cons_of_pos (by rfl), same, Silent, line]
      have broken := strict.broken text rest beginning more
      by_cases empty : text = [] <;> simp [empty, broken]
  · exact onLine_silent (idle ▸ codec.silent_nil) field

theorem run_silent {r : LineReader SseClient UInt8} {stream : List (Option UInt8)}
    (silent : codec.Silent r.state.data) (starts : ¬ dataField <+: r.line ++ stream.reduceOption)
    (next : ∀ a t b, stream = a ++ t :: b → t = none ∨ t = some newline →
      ¬ dataField <+: b.reduceOption) :
    let r' := r.run newline codec.onLine stream
    codec.Silent r'.state.data ∧ r'.state.delivered = r.state.delivered ∧ ¬ dataField <+: r'.line := by
  have keeps (c : SseClient) (line : Bytes)
      (before : codec.Silent c.data ∧ c.delivered = r.state.delivered)
      (other : ¬ dataField <+: line) : codec.Silent (codec.onLine c line).data ∧
        (codec.onLine c line).delivered = r.state.delivered := by
    obtain ⟨data, same⟩ := onLine_silent before.1 other
    exact ⟨data, same.trans before.2⟩
  have shorter (line rest : Bytes) (other : ¬ dataField <+: line ++ rest) : ¬ dataField <+: line :=
    fun begins => other (begins.trans (List.prefix_append _ _))
  obtain ⟨⟨data, delivered⟩, line⟩ :=
    LineReader.run_invariant keeps shorter ⟨silent, rfl⟩ starts next
  exact ⟨data, delivered, line⟩

/-- The end of a read cuts the data line of a message. -/
def Broken (codec : JsonCodec) (m : Json) (stream : List (Option UInt8)) : Prop :=
  ∃ part rest, codec.dataLine m = part ++ rest ∧ part ≠ [] ∧ rest ≠ [] ∧ MarkAt stream part

theorem Strict.no_field_inside {m : Json} (strict : codec.Strict m) {part rest : Bytes}
    (split : codec.dataLine m = part ++ rest) (begun : part ≠ []) : ¬ dataField <+: rest := by
  intro begins
  rcases List.append_eq_append_iff.mp split with ⟨text, -, dump⟩ | ⟨more, field, rfl⟩
  · refine strict.plain (begins.isInfix.trans ⟨text, [], ?_⟩)
    rw [dump, List.append_nil]
  · obtain ⟨b, part, rfl⟩ := List.exists_cons_of_ne_nil begun
    cases more with
    | nil => exact strict.plain begins.isInfix
    | cons b' more =>
      have first : b' = 100 := by
        obtain ⟨behind, same⟩ := begins
        exact (List.cons.inj same).1.symm
      have member : 100 ∈ ascii "ata: " := by
        rw [show ascii "ata: " = part ++ b' :: more from (List.cons.inj field).2, first]
        simp
      exact absurd member (by decide)

theorem frame_whole {c : SseClient} (idle : c.data = []) {m : Json} (lawful : codec.Lawful m)
    {stream : List (Option UInt8)} (bytes : stream.reduceOption = codec.frame m)
    (whole : ¬ codec.Broken m stream) :
    ∃ c', LineReader.run newline codec.onLine ⟨c, []⟩ stream = ⟨c', []⟩ ∧ c'.data = [] ∧
      c'.delivered = c.delivered ++ [m] := by
  obtain ⟨before, behind, rfl, line, run⟩ :=
    LineReader.run_blank (f := codec.onLine) ⟨c, []⟩ bytes
  have uncut (a b : List (Option UInt8)) (cut : before = a ++ none :: b) :
      [] ++ a.reduceOption = [] ∨ b.reduceOption = [] := by
    by_contra inside
    obtain ⟨begun, more⟩ := not_or.mp inside
    refine whole ⟨a.reduceOption, b.reduceOption, ?_, begun, more, a,
      b ++ some newline :: behind, by simp [cut], rfl⟩
    rw [← line, cut, List.reduceOption_append, List.reduceOption_cons_of_none]
  have texts : (frameTexts (codec.dump m)).filterMap codec.parse = [m] := by
    have some : codec.dump m ≠ [] := fun none => by
      have brace := lawful.brace
      simp [none] at brace
    rw [(lawful.beginning (List.append_nil _).symm).2, if_neg some]
    simp [lawful.parses]
  obtain ⟨data, delivered⟩ := onLine_nil codec (codec.onLine c (codec.dataLine m))
  have taken := LineReader.run_whole (f := codec.onLine) ⟨c, []⟩ line lawful.dataLine_plain.1 uncut
  rw [onLine_dataLine idle lawful] at data delivered
  rw [List.nil_append, onLine_dataLine idle lawful] at taken
  refine ⟨_, run, ?_⟩
  rcases taken with taken | taken
  · rw [taken, onLine_dataLine idle lawful]
    exact ⟨data, by rw [delivered, texts]⟩
  · rw [taken]
    -- the end of the read was the end of the line, so the first newline is a blank line
    obtain ⟨again, same⟩ := onLine_nil codec (codec.onLine { c with data := codec.dump m } [])
    exact ⟨again, by rw [same, data, delivered, texts]; simp [frameTexts, splitLines]⟩

theorem frame_broken {c : SseClient} (idle : c.data = []) {m : Json} (lawful : codec.Lawful m)
    (strict : codec.Strict m) {stream : List (Option UInt8)}
    (bytes : stream.reduceOption = codec.frame m) (broken : codec.Broken m stream) :
    ∃ c', LineReader.run newline codec.onLine ⟨c, []⟩ stream = ⟨c', []⟩ ∧ c'.data = [] ∧
      c'.delivered = c.delivered := by
  obtain ⟨before, behind, rfl, line, run⟩ :=
    LineReader.run_blank (f := codec.onLine) ⟨c, []⟩ bytes
  obtain ⟨-, rest, split, begun, more, a, b, cut, rfl⟩ := broken
  obtain ⟨b, rfl⟩ : ∃ b, before = a ++ none :: b := by
    rcases List.append_eq_append_iff.mp cut with ⟨x, rfl, -⟩ | ⟨x, rfl, marks⟩
    · rw [List.reduceOption_append, line, List.append_assoc, List.self_eq_append_right] at split
      exact absurd (List.append_eq_nil_iff.mp split).2 more
    · cases x with
      | nil => cases (List.cons.inj marks).1
      | cons t x => exact ⟨x, by rw [(List.cons.inj marks).1]⟩
  have inside := lawful.dataLine_plain.1
  rw [List.reduceOption_append, List.reduceOption_cons_of_none] at line
  rw [← line] at inside split
  obtain ⟨part, rest', same, begun', more', taken⟩ := LineReader.run_cut (f := codec.onLine)
    ⟨c, []⟩ (fun member => inside (List.mem_append_left _ member)) begun
    (List.append_cancel_left split ▸ more)
  change part.reduceOption ≠ [] at begun'
  have pieces : codec.dataLine m = part.reduceOption ++ rest'.reduceOption := by
    have bytes := congrArg List.reduceOption same
    simp only [List.reduceOption_append, List.reduceOption_cons_of_none] at bytes
    exact line.symm.trans bytes
  obtain ⟨silent, delivered⟩ := onLine_broken idle lawful strict pieces more'
  have next (x t y) (cut : rest' = x ++ t :: y) (_ : t = none ∨ t = some newline) :
      ¬ dataField <+: y.reduceOption := by
    have split : codec.dataLine m =
        (part.reduceOption ++ (x ++ [t]).reduceOption) ++ y.reduceOption := by
      rw [pieces, cut, List.append_cons, List.reduceOption_append, List.append_assoc]
    exact strict.no_field_inside split fun empty => begun' (List.append_eq_nil_iff.mp empty).1
  obtain ⟨silent', delivered', other⟩ := run_silent
    (r := ⟨codec.onLine c part.reduceOption, []⟩) silent (strict.no_field_inside pieces begun') next
  obtain ⟨data, unchanged⟩ := blank_silent silent' other
  rw [taken, List.nil_append] at run
  exact ⟨_, run, data, (unchanged.trans delivered').trans delivered⟩

/-- The end of a read cuts the data line of one of the messages. -/
def BrokenIn (codec : JsonCodec) (ms : List Json) (stream : List (Option UInt8)) : Prop :=
  ∃ front m back part rest, ms = front ++ m :: back ∧ codec.dataLine m = part ++ rest ∧
    part ≠ [] ∧ rest ≠ [] ∧ MarkAt stream (front.flatMap codec.frame ++ part)

theorem brokenIn_cons {m : Json} {ms : List Json} {first rest : List (Option UInt8)}
    (bytes : first.reduceOption = codec.frame m) :
    codec.BrokenIn (m :: ms) (first ++ rest) ↔ codec.Broken m first ∨ codec.BrokenIn ms rest := by
  constructor
  · rintro ⟨front, n, back, part, rest', messages, split, begun, more, mark⟩
    rw [markAt_append, bytes] at mark
    cases front with
    | nil =>
      obtain ⟨rfl, -⟩ := List.cons.inj messages
      rcases mark with mark | ⟨behind, longer, -⟩
      · exact .inl ⟨part, rest', split, begun, more, mark⟩
      · have lengths := congrArg List.length split
        change part = codec.frame m ++ behind at longer
        simp only [longer, frame, List.length_append, List.length_cons, List.length_nil] at lengths
        omega
    | cons m' front =>
      obtain ⟨rfl, rfl⟩ := List.cons.inj messages
      rw [List.flatMap_cons, List.append_assoc] at mark
      rcases mark with mark | ⟨behind, same, mark⟩
      · have within := mark.prefix.length_le
        have some := List.length_pos_iff.mpr begun
        simp only [bytes, List.length_append] at within
        omega
      · exact .inr ⟨front, n, back, part, rest', rfl, split, begun, more,
          List.append_cancel_left same ▸ mark⟩
  · rintro (⟨part, rest', split, begun, more, mark⟩ |
      ⟨front, n, back, part, rest', rfl, split, begun, more, mark⟩)
    · exact ⟨[], m, ms, part, rest', rfl, split, begun, more, markAt_append.mpr (.inl mark)⟩
    · refine ⟨m :: front, n, back, part, rest', rfl, split, begun, more, ?_⟩
      rw [markAt_append, bytes]
      exact .inr ⟨_, by simp, mark⟩

theorem frames_whole {c : SseClient} (idle : c.data = []) {ms : List Json}
    (lawful : ∀ m ∈ ms, codec.Lawful m) {stream : List (Option UInt8)}
    (bytes : stream.reduceOption = ms.flatMap codec.frame) (whole : ¬ codec.BrokenIn ms stream) :
    (LineReader.run newline codec.onLine ⟨c, []⟩ stream).state.delivered = c.delivered ++ ms := by
  induction ms generalizing c stream with
  | nil =>
    rw [LineReader.run_marks rfl bytes]
    simp
  | cons m ms ih =>
    obtain ⟨law, laws⟩ := List.forall_mem_cons.mp lawful
    obtain ⟨first, rest, rfl, frame, frames⟩ := (List.reduceOption_eq_append_iff _ _ _).mp bytes
    rw [brokenIn_cons frame] at whole
    obtain ⟨sound, sounds⟩ := not_or.mp whole
    obtain ⟨c', run, idle', delivered⟩ := frame_whole idle law frame sound
    rw [LineReader.run_append, run, ih idle' laws frames sounds, delivered]
    simp

theorem frames_lost {c : SseClient} (idle : c.data = []) {ms : List Json}
    (lawful : ∀ m ∈ ms, codec.Lawful m) (strict : ∀ m ∈ ms, codec.Strict m)
    {stream : List (Option UInt8)} (bytes : stream.reduceOption = ms.flatMap codec.frame) :
    ∃ got, (LineReader.run newline codec.onLine ⟨c, []⟩ stream).state.delivered =
        c.delivered ++ got ∧
      got.length ≤ ms.length ∧ (codec.BrokenIn ms stream → got.length < ms.length) := by
  induction ms generalizing c stream with
  | nil =>
    refine ⟨[], by rw [LineReader.run_marks rfl bytes]; simp, le_rfl, ?_⟩
    rintro ⟨front, m, back, -, -, none, -⟩
    simp at none
  | cons m ms ih =>
    obtain ⟨law, laws⟩ := List.forall_mem_cons.mp lawful
    obtain ⟨sharp, sharps⟩ := List.forall_mem_cons.mp strict
    obtain ⟨first, rest, rfl, frame, frames⟩ := (List.reduceOption_eq_append_iff _ _ _).mp bytes
    rw [brokenIn_cons frame, LineReader.run_append, List.length_cons]
    by_cases broken : codec.Broken m first
    · obtain ⟨c', run, idle', delivered⟩ := frame_broken idle law sharp frame broken
      obtain ⟨got, rest, bound, -⟩ := ih idle' laws sharps frames
      exact ⟨got, by rw [run, rest, delivered], by omega, fun _ => by omega⟩
    · obtain ⟨c', run, idle', delivered⟩ := frame_whole idle law frame broken
      obtain ⟨got, rest, bound, fewer⟩ := ih idle' laws sharps frames
      refine ⟨m :: got, by rw [run, rest, delivered]; simp, by simpa using bound, ?_⟩
      rintro (cut | cut)
      · exact absurd cut broken
      · simpa using fewer cut

end JsonCodec

theorem sanitizeHeaderValue_plain (v : Bytes) : newline ∉ sanitizeHeaderValue v := by
  rw [sanitizeHeaderValue, List.mem_filter]
  rintro ⟨-, kept⟩
  simp [newline] at kept

/-- The name of a header begins its line, and begins it with no data field. -/
def PlainHeader (h : Bytes × Bytes) : Prop :=
  newline ∉ h.1 ∧ newline ∉ h.2 ∧ h.1.head?.any (· != 100)

theorem no_dataLine_header {h : Bytes × Bytes} (plain : PlainHeader h) {rest : Bytes}
    (others : ∀ line ∈ splitLines newline rest, ¬ dataField <+: line) :
    ∀ line ∈ splitLines newline (h.1 ++ ascii ": " ++ h.2 ++ crlf ++ rest),
      ¬ dataField <+: line := by
  obtain ⟨noName, noValue, first⟩ := plain
  have line : h.1 ++ ascii ": " ++ h.2 ++ crlf ++ rest =
      (h.1 ++ ascii ": " ++ h.2 ++ [carriageReturn]) ++ newline :: rest := by
    simp [crlf, carriageReturn, newline]
  have inside : newline ∉ h.1 ++ ascii ": " ++ h.2 ++ [carriageReturn] := by
    simp only [List.mem_append, not_or]
    exact ⟨⟨⟨noName, by decide⟩, noValue⟩, by decide⟩
  rw [line, splitLines_append inside, List.forall_mem_cons]
  refine ⟨?_, others⟩
  cases name : h.1 with
  | nil => simp [name] at first
  | cons b rest =>
    have different : b ≠ 100 := by simpa [name] using first
    rintro ⟨behind, begins⟩
    exact different (List.cons.inj begins).1.symm

theorem stream_head {headers : List (Bytes × Bytes)} (plain : ∀ h ∈ headers, PlainHeader h) :
    let head := (HttpWrite.stream headers (ascii ": connected\n\n")).bytes
    (∀ line ∈ splitLines newline head, ¬ dataField <+: line) ∧
      ∃ text, head = text ++ [newline, newline] := by
  intro head
  have opening : ∀ line ∈ splitLines newline (crlf ++ ascii ": connected\n\n"),
      ¬ dataField <+: line := by decide
  have lines : ∀ line ∈ splitLines newline (headers.flatMap (fun (k, v) =>
      k ++ ascii ": " ++ v ++ crlf) ++ (crlf ++ ascii ": connected\n\n")),
      ¬ dataField <+: line := by
    induction headers with
    | nil => exact opening
    | cons h headers ih =>
      obtain ⟨first, others⟩ := List.forall_mem_cons.mp plain
      rw [List.flatMap_cons, List.append_assoc]
      exact no_dataLine_header first (ih others)
  have split : head = ascii "HTTP/1.1 200 OK\r" ++ newline ::
      (headers.flatMap (fun (k, v) => k ++ ascii ": " ++ v ++ crlf) ++
        (crlf ++ ascii ": connected\n\n")) := by
    have status : ascii "HTTP/1.1 200 OK" ++ crlf = ascii "HTTP/1.1 200 OK\r" ++ [newline] := by
      decide
    simp only [head, HttpWrite.bytes, status, List.append_assoc, List.cons_append, List.nil_append]
  have ending : crlf ++ ascii ": connected\n\n" =
      ascii "\r\n: connected" ++ [newline, newline] := by decide
  constructor
  · rw [split, splitLines_append (by decide), List.forall_mem_cons]
    exact ⟨by decide, lines⟩
  · refine ⟨ascii "HTTP/1.1 200 OK\r" ++ newline :: (headers.flatMap (fun (k, v) =>
      k ++ ascii ": " ++ v ++ crlf) ++ ascii "\r\n: connected"), ?_⟩
    rw [split, ending]
    simp only [List.append_assoc, List.cons_append]

variable {ω : Type}

/-- The headers of the event stream of a session. -/
def sessionStreamHeaders (id origin : Bytes) : List (Bytes × Bytes) :=
  HttpEnv.streamHeaders ++ [(ascii "mcp-session-id", sanitizeHeaderValue id)] ++
    (if origin.isEmpty then []
    else [(ascii "Access-Control-Allow-Origin", sanitizeHeaderValue origin)])

theorem handleGetSse_written {t : HttpTransport ω} {conn : Nat} {req : HttpRequest}
    {id : SessionId} (opened : (HttpEnv.handleGetSse t conn req).stream = some (.session id)) :
    (HttpEnv.handleGetSse t conn req).written =
      [.stream (sessionStreamHeaders id (req.headers.valueOf "origin"))
        (ascii ": connected\n\n")] := by
  cases found : t.findSession (req.headers.valueOf "mcp-session-id") with
  | none => simp [HttpEnv.handleGetSse, found, refuse] at opened
  | some session =>
    by_cases accepts : (req.headers.valueOf "accept").has "text/event-stream"
    · have same : session.sessionId = id := by
        simpa [HttpEnv.handleGetSse, found, accepts] using opened
      simp [HttpEnv.handleGetSse, found, accepts, sessionStreamHeaders, same]
    · simp [HttpEnv.handleGetSse, found, accepts, refuse] at opened

theorem sessionStreamHeaders_plain (id origin : Bytes) :
    ∀ h ∈ sessionStreamHeaders id origin, PlainHeader h := by
  have fixed : ∀ h ∈ HttpEnv.streamHeaders, PlainHeader h := by
    unfold PlainHeader
    decide
  have named (name : String) (v : Bytes) (plain : PlainHeader (ascii name, [])) :
      PlainHeader (ascii name, sanitizeHeaderValue v) :=
    ⟨plain.1, sanitizeHeaderValue_plain v, plain.2.2⟩
  intro h member
  simp only [sessionStreamHeaders, List.mem_append, List.mem_singleton] at member
  rcases member with (member | rfl) | member
  · exact fixed h member
  · exact named _ _ (by unfold PlainHeader; decide)
  · split at member
    · simp at member
    · rw [List.mem_singleton.mp member]
      exact named _ _ (by unfold PlainHeader; decide)

/-- The head of an event stream leaves the client idle, unless a read of it ends in front of
    what looks like a data line. -/
theorem head_run (codec : JsonCodec) {c : SseClient} (idle : c.data = []) {head : Bytes}
    (lines : ∀ line ∈ splitLines newline head, ¬ dataField <+: line)
    (blank : ∃ text, head = text ++ [newline, newline]) {stream : List (Option UInt8)}
    (bytes : stream.reduceOption = head)
    (whole : ∀ part rest, head = part ++ rest → MarkAt stream part → ¬ dataField <+: rest) :
    ∃ c', LineReader.run newline codec.onLine ⟨c, []⟩ stream = ⟨c', []⟩ ∧ c'.data = [] ∧
      c'.delivered = c.delivered := by
  obtain ⟨begins, inside⟩ := not_word_of_splitLines (by decide) (by decide) lines
  obtain ⟨text, split⟩ := blank
  obtain ⟨before, behind, rfl, line, run⟩ :=
    LineReader.run_blank (f := codec.onLine) ⟨c, []⟩ (bytes.trans split)
  have next (a t b) (cut : before = a ++ t :: b) (ends : t = none ∨ t = some newline) :
      ¬ dataField <+: b.reduceOption := by
    suffices ¬ dataField <+: b.reduceOption ++ [newline, newline] from
      fun field => this (field.trans (List.prefix_append _ _))
    rw [← line, cut, List.reduceOption_append] at split
    rcases ends with rfl | rfl
    · refine whole a.reduceOption _ ?_ ⟨a, b ++ some newline :: behind, by simp [cut], rfl⟩
      rw [split, List.reduceOption_cons_of_none, List.append_assoc]
    · apply inside a.reduceOption _
      rw [split, List.reduceOption_cons_of_some, List.append_assoc, List.cons_append]
  have starts : ¬ dataField <+: [] ++ before.reduceOption := fun field =>
    begins (split ▸ line ▸ field.trans (List.prefix_append _ _))
  obtain ⟨silent, delivered, other⟩ :=
    JsonCodec.run_silent (r := ⟨c, []⟩) (idle ▸ codec.silent_nil) starts next
  obtain ⟨data, unchanged⟩ := JsonCodec.blank_silent silent other
  exact ⟨_, run, data, unchanged.trans delivered⟩

/-- In "data:" a colon follows an `a`. -/
abbrev Apart (x y : UInt8) : Prop := ¬ (x = 97 ∧ y = colon)

set_option maxRecDepth 2000 in
/-- Without an `Origin` nothing in the head looks like a data line. -/
theorem not_cutsHead {t : HttpTransport ω} {conn : Nat} {req : HttpRequest} {id : SessionId}
    (opened : (HttpEnv.handleGetSse t conn req).stream = some (.session id))
    (noOrigin : req.headers.valueOf "origin" = []) (plain : colon ∉ id) (reads : List Bytes) :
    ¬ CutsHead ((HttpEnv.handleGetSse t conn req).written.flatMap HttpWrite.bytes) reads := by
  rintro ⟨part, rest, split, field, -⟩
  let front := ascii "HTTP/1.1 200 OK" ++ crlf ++
    HttpEnv.streamHeaders.flatMap (fun (k, v) => k ++ ascii ": " ++ v ++ crlf) ++
    ascii "mcp-session-id: "
  let back := crlf ++ crlf ++ ascii ": connected\n\n"
  have head : part ++ rest = front ++ (sanitizeHeaderValue id ++ back) := by
    rw [← split, handleGetSse_written opened, noOrigin]
    simp [HttpWrite.bytes, sessionStreamHeaders, front, back, ascii]
  have value : (sanitizeHeaderValue id).IsChain Apart := by
    refine List.Pairwise.isChain (List.pairwise_of_forall_mem_list fun x _ y member same => ?_)
    exact plain (same.2 ▸ List.mem_of_mem_filter member)
  have chain : (front ++ (sanitizeHeaderValue id ++ back)).IsChain Apart := by
    refine .append (by decide) (value.append (by decide) ?_) ?_
    · intro x _ y member same
      exact absurd (same.2 ▸ member) (by decide)
    · intro x member y _ same
      exact absurd (same.1 ▸ member) (by decide)
  have inside : dataField <:+: front ++ (sanitizeHeaderValue id ++ back) :=
    field.isInfix.trans ⟨part, [], by rw [head, List.append_nil]⟩
  exact absurd ( List.IsChain.infix chain inside) (by decide)

theorem cutsLine_iff {codec : JsonCodec} {ms : List Json} {head : Bytes} {reads : List Bytes}
    {start frames : List (Option UInt8)} (stream : marked reads = start ++ frames)
    (bytes : start.reduceOption = head) :
    codec.CutsLine head ms reads ↔ codec.BrokenIn ms frames := by
  constructor
  · rintro ⟨front, m, back, part, rest, messages, line, begun, more, ends⟩
    rw [endsAt_iff_marked, stream, markAt_append, bytes, List.append_assoc] at ends
    refine ⟨front, m, back, part, rest, messages, line, begun, more, ?_⟩
    rcases ends with mark | ⟨seen, same, mark⟩
    · have within := mark.prefix.length_le
      have some := List.length_pos_iff.mpr begun
      simp only [bytes, List.length_append] at within
      omega
    · rwa [List.append_cancel_left same]
  · rintro ⟨front, m, back, part, rest, messages, line, begun, more, mark⟩
    refine ⟨front, m, back, part, rest, messages, line, begun, more, ?_⟩
    rw [endsAt_iff_marked, stream, markAt_append, bytes, List.append_assoc]
    exact .inr ⟨_, rfl, mark⟩

/-- What the server pushes behind the head of an event stream reaches the client whole and in
    order, if no read of the stream ends inside a data line; for messages that do not parse
    when they break off, only then. -/
theorem sse_round_trip_iff (codec : JsonCodec) {t : HttpTransport ω} {conn : Nat}
    {req : HttpRequest} {id : SessionId}
    (opened : (HttpEnv.handleGetSse t conn req).stream = some (.session id))
    {ms : List Json} (lawful : ∀ m ∈ ms, codec.Lawful m) {c : SseClient} (idle : c.data = [])
    {reads : List Bytes} (stream : reads.flatten =
      (HttpEnv.handleGetSse t conn req).written.flatMap HttpWrite.bytes ++ ms.flatMap codec.frame) :
    let head := (HttpEnv.handleGetSse t conn req).written.flatMap HttpWrite.bytes
    let delivers := (codec.onSseReads c reads).delivered = c.delivered ++ ms
    ¬ CutsHead head reads →
      (¬ codec.CutsLine head ms reads → delivers) ∧
      ((∀ m ∈ ms, codec.Strict m) → delivers → ¬ codec.CutsLine head ms reads) := by
  intro head delivers clean
  obtain ⟨lines, blank⟩ : (∀ line ∈ splitLines newline head, ¬ dataField <+: line) ∧
      ∃ text, head = text ++ [newline, newline] := by
    simp only [head, handleGetSse_written opened, List.flatMap_singleton]
    exact stream_head (sessionStreamHeaders_plain _ _)
  obtain ⟨start, frames, cut, bytes, rest⟩ :=
    (List.reduceOption_eq_append_iff _ _ _).mp ((reduceOption_marked reads).trans stream)
  obtain ⟨c', run, idle', same⟩ := head_run codec idle lines blank bytes
    fun part rest split mark field => clean ⟨part, rest, split, field,
      endsAt_iff_marked.mpr (cut ▸ markAt_append.mpr (.inl mark))⟩
  have reads_run : codec.onSseReads c reads =
      (LineReader.run newline codec.onLine ⟨c', []⟩ frames).state := by
    rw [← run, ← LineReader.run_append, ← cut, LineReader.run_marked]
    rfl
  rw [cutsLine_iff cut bytes]
  simp only [delivers, reads_run, ← same]
  constructor
  · exact JsonCodec.frames_whole idle' lawful rest
  · intro strict delivered broken
    obtain ⟨got, all, -, fewer⟩ := JsonCodec.frames_lost idle' lawful strict rest
    have lost := fewer broken
    rw [List.append_cancel_left (all.symm.trans delivered)] at lost
    exact lt_irrefl _ lost

def noticeText : Bytes := ascii "\x7b\"jsonrpc\":\"2.0\",\"method\":\"a\"\x7d"

def notice : Json := serializeNotification ⟨"a", none⟩

def noticeCodec : JsonCodec where
  dump _ := noticeText
  parse text := if text = noticeText then some notice else none

theorem notice_lawful : noticeCodec.Lawful notice := ⟨by decide, by decide, by decide⟩

/-- The client's GET for the stream of session `s`. -/
def streamRequest : HttpRequest where
  method := ascii "GET"
  url := ascii "/mcp"
  headers := [(ascii "accept", ascii "text/event-stream"), (ascii "mcp-session-id", ascii "s")]
  body := []

def oneSession : HttpTransport Unit where
  world := ()
  sessions := (∅ : AList fun _ : SessionId => HttpSession).insert (ascii "s") ⟨ascii "s", true, []⟩

def streamHead : Bytes :=
  (HttpEnv.handleGetSse oneSession 0 streamRequest).written.flatMap HttpWrite.bytes

theorem notice_delivered :
    (noticeCodec.onSseReads {} [streamHead ++ noticeCodec.dataLine notice,
      [newline, newline]]).delivered = [notice] := by
  have opened : (HttpEnv.handleGetSse oneSession 0 streamRequest).stream =
      some (.session (ascii "s")) := by decide
  have lawful : ∀ m ∈ [notice], noticeCodec.Lawful m := by
    simpa using notice_lawful
  have clean := not_cutsHead opened (by decide) (by decide)
  refine (sse_round_trip_iff noticeCodec (c := {}) opened lawful rfl ?_ (clean _)).1 ?_
  · simp [streamHead, JsonCodec.frame]
  · rintro ⟨front, m, back, part, rest, messages, line, -, more, done, some, within, flat⟩
    obtain ⟨first, others, rfl⟩ := List.exists_cons_of_ne_nil some
    obtain ⟨rfl, -⟩ := List.cons_prefix_cons.mp within
    cases front with
    | nil =>
      obtain ⟨rfl, -⟩ := List.cons.inj messages
      have seen := congrArg List.length flat
      have whole := congrArg List.length line
      have rest := List.length_pos_iff.mpr more
      simp only [streamHead, List.flatten_cons, List.length_append, List.flatMap_nil,
        List.append_nil] at seen whole
      omega
    | cons => simp at messages

/-- A read that ends inside a data line loses its message. -/
theorem notice_lost :
    (HttpEnv.handleGetSse oneSession 0 streamRequest).stream = some (.session (ascii "s")) ∧
    noticeCodec.Lawful notice ∧
    [streamHead ++ ascii "data: \x7b", noticeText.tail ++ [newline, newline]].flatten =
      streamHead ++ [notice].flatMap noticeCodec.frame ∧
    (noticeCodec.onSseReads {} [streamHead ++ ascii "data: \x7b",
      noticeText.tail ++ [newline, newline]]).delivered = [] := by
  refine ⟨by decide, notice_lawful, ?_, by decide⟩
  rw [List.flatten_cons, List.append_assoc]
  exact congrArg (streamHead ++ ·) (by decide)

end CppMcp
