import CppMcp.Http.Sse

namespace CppMcp

open Lib

/-- What `on_sse_read` takes of a data line, behind its field name. -/
def trimmed (value : Bytes) : Bytes := (stripCr value).dropWhile (· == space)

/-- A text as an event: a data line for each of its lines, and a blank line. -/
def dataEvent (pad : Bytes) (lines : List Bytes) : Bytes :=
  lines.flatMap (fun line => dataField ++ (pad ++ line) ++ [newline]) ++ [newline]

/-- What else is in a stream. The lines of an event may be any. -/
inductive SseItem where
  | comment (text : Bytes)
  | event (lines : List Bytes)

namespace SseItem

def bytes : SseItem → Bytes
  | comment text => colon :: text ++ [newline]
  | event lines => lines.flatMap (· ++ [newline]) ++ [newline]

/-- Its lines are lines. -/
def Whole : SseItem → Prop
  | comment text => newline ∉ text
  | event lines => ∀ line ∈ lines, newline ∉ line

end SseItem

def itemBytes (items : List SseItem) : Bytes := items.flatMap SseItem.bytes

theorem rdropWhile_append (p : UInt8 → Bool) (a b : Bytes) : (a ++ b).rdropWhile p =
    if b.rdropWhile p = [] then a.rdropWhile p else a ++ b.rdropWhile p := by
  unfold List.rdropWhile
  rw [List.reverse_append, List.dropWhile_append]
  cases rest : b.reverse.dropWhile p <;> simp

/-- Carriage returns are stripped from what follows a front that ends in none. -/
theorem stripCr_append {front : Bytes} (kept : stripCr front = front) (value : Bytes) :
    stripCr (front ++ value) = front ++ stripCr value := by
  have split : stripCr (front ++ value) = if stripCr value = [] then stripCr front else
      front ++ stripCr value := rdropWhile_append _ front value
  rw [split]
  split
  · rename_i none
    rw [none, kept, List.append_nil]
  · rfl

theorem trimmed_pad {pad : Bytes} (blank : ∀ b ∈ pad, b = space) (line : Bytes) :
    trimmed (pad ++ line) = trimmed line := by
  have blanks : ∀ b ∈ pad, (b == space) = true := fun b member => by simp [blank b member]
  have kept : stripCr pad = pad := by
    apply stripCr_self
    intro member
    exact absurd (blank _ member) (by decide)
  unfold trimmed
  rw [stripCr_append kept, List.dropWhile_append_of_pos blanks]

/-- A last newline brings `handle_sse_frame` no text. -/
theorem frameTexts_newline (data : Bytes) : frameTexts (data ++ [newline]) = frameTexts data := by
  unfold frameTexts
  rcases @splitLines_concat _ _ newline data with same | more
  · rw [same]
  · rw [more]
    simp [stripCr, dataField, ascii]

/-- `handle_sse_frame` takes joined data apart again. -/
theorem frameTexts_join (data : Bytes) (line : Bytes) :
    frameTexts ((if data.isEmpty then [] else data ++ [newline]) ++ line) =
      frameTexts data ++ frameTexts line := by
  cases data with
  | nil => rfl
  | cons b data =>
    have split : frameTexts (b :: data ++ newline :: line) =
        frameTexts (b :: data ++ [newline]) ++ frameTexts line := by
      unfold frameTexts
      rw [splitLines_stop, List.map_append, List.filterMap_append]
    rw [List.isEmpty_cons, if_neg (by simp), List.append_assoc, List.singleton_append, split,
      frameTexts_newline]

namespace JsonCodec

variable (codec : JsonCodec)

/-- What the handler is called with for a line of a text, by itself. -/
def lineMessages (line : Bytes) : List Json := (frameTexts (trimmed line)).filterMap codec.parse

theorem onLine_data {pad : Bytes} (blank : ∀ b ∈ pad, b = space) (c : SseClient) (line : Bytes) :
    codec.onLine c (dataField ++ (pad ++ line)) =
      { c with data := (if c.data.isEmpty then [] else c.data ++ [newline]) ++ trimmed line } := by
  have event : eventField.isPrefixOf (dataField ++ stripCr (pad ++ line)) = false := rfl
  have data : dataField.isPrefixOf (dataField ++ stripCr (pad ++ line)) = true := by simp
  have some : (dataField ++ stripCr (pad ++ line)).isEmpty = false := by simp [dataField, ascii]
  have kept : stripCr dataField = dataField := by decide
  rw [onLine, stripCr_append kept, some, event, data, ← trimmed_pad blank]
  simp [fieldValue, trimmed]

/-- The data lines of a text leave its lines one by one to `handle_sse_frame`. -/
theorem data_lines {pad : Bytes} (blank : ∀ b ∈ pad, b = space) (lines : List Bytes)
    (c : SseClient) :
    let c' := (lines.map fun line => dataField ++ (pad ++ line)).foldl codec.onLine c
    frameTexts c'.data = frameTexts c.data ++ lines.flatMap (fun line => frameTexts (trimmed line)) ∧
      c'.delivered = c.delivered := by
  induction lines generalizing c with
  | nil => simp
  | cons line lines ih =>
    have here := onLine_data codec blank c line
    obtain ⟨texts, delivered⟩ := ih (codec.onLine c (dataField ++ (pad ++ line)))
    rw [List.map_cons, List.foldl_cons]
    rw [here] at texts delivered ⊢
    simp only [frameTexts_join] at texts
    rw [List.flatMap_cons, ← List.append_assoc]
    exact ⟨texts, delivered⟩

/-- One line of a read, and what follows it. -/
theorem onSseRead_line (c : SseClient) {line : Bytes} (plain : newline ∉ line) (rest : Bytes) :
    codec.onSseRead c (line ++ newline :: rest) = codec.onSseRead (codec.onLine c line) rest := by
  rw [onSseRead, splitLines_append plain]
  rfl

theorem onSseRead_lines (c : SseClient) {lines : List Bytes} (plain : ∀ line ∈ lines, newline ∉ line)
    (rest : Bytes) : codec.onSseRead c (lines.flatMap (· ++ [newline]) ++ rest) =
      codec.onSseRead (lines.foldl codec.onLine c) rest := by
  induction lines generalizing c with
  | nil => rfl
  | cons line lines ih =>
    obtain ⟨first, others⟩ := List.forall_mem_cons.mp plain
    rw [List.flatMap_cons, List.append_assoc, List.append_assoc, List.singleton_append,
      onSseRead_line codec c first, ih _ others, List.foldl_cons]

/-- An item leaves no data behind. -/
theorem onSseRead_item {c : SseClient} (idle : c.data = []) {item : SseItem} (whole : item.Whole) :
    ∃ c', c'.data = [] ∧ ∀ rest, codec.onSseRead c (item.bytes ++ rest) = codec.onSseRead c' rest := by
  cases item with
  | comment text =>
    have plain : newline ∉ colon :: text := by
      rw [List.mem_cons, not_or]
      exact ⟨by decide, whole⟩
    refine ⟨codec.onLine c (colon :: text), ?_, fun rest => ?_⟩
    · have kept : stripCr [colon] = [colon] := by decide
      have whole : stripCr (colon :: text) = colon :: stripCr text := stripCr_append kept text
      rw [onLine, whole]
      simp [eventField, dataField, ascii, colon, idle]
    · rw [SseItem.bytes, List.append_assoc, List.singleton_append]
      exact onSseRead_line codec c plain rest
  | event lines =>
    refine ⟨codec.onLine (lines.foldl codec.onLine c) [], (onLine_nil codec _).1, fun rest => ?_⟩
    rw [SseItem.bytes, List.append_assoc, onSseRead_lines codec c whole]
    exact onSseRead_line codec _ List.not_mem_nil rest

theorem onSseRead_items {c : SseClient} (idle : c.data = []) {items : List SseItem}
    (whole : ∀ item ∈ items, item.Whole) :
    ∃ c', c'.data = [] ∧ ∀ rest,
      codec.onSseRead c (itemBytes items ++ rest) = codec.onSseRead c' rest := by
  induction items generalizing c with
  | nil => exact ⟨c, idle, fun rest => rfl⟩
  | cons item items ih =>
    obtain ⟨first, others⟩ := List.forall_mem_cons.mp whole
    obtain ⟨next, idle', here⟩ := onSseRead_item codec idle first
    obtain ⟨c', final, later⟩ := ih idle' others
    refine ⟨c', final, fun rest => ?_⟩
    rw [itemBytes, List.flatMap_cons, List.append_assoc, here]
    exact later rest

/-- The event of a text dispatches what `handle_sse_frame` makes of its lines. -/
theorem onSseRead_dataEvent {pad : Bytes} (blank : ∀ b ∈ pad, b = space) {lines : List Bytes}
    (plain : ∀ line ∈ lines, newline ∉ line) {c : SseClient} (idle : c.data = []) :
    ∃ c', c'.data = [] ∧ c'.delivered = c.delivered ++ lines.flatMap codec.lineMessages ∧
      ∀ rest, codec.onSseRead c (dataEvent pad lines ++ rest) = codec.onSseRead c' rest := by
  obtain ⟨texts, delivered⟩ := data_lines codec blank lines c
  generalize fed : (lines.map fun line => dataField ++ (pad ++ line)).foldl codec.onLine c = c' at *
  obtain ⟨cleared, dispatched⟩ := onLine_nil codec c'
  refine ⟨codec.onLine c' [], cleared, ?_, fun rest => ?_⟩
  · rw [dispatched, delivered, texts, idle]
    have none : frameTexts [] = [] := rfl
    rw [none, List.nil_append, List.filterMap_flatMap]
    rfl
  · have split : dataEvent pad lines ++ rest =
        (lines.map fun line => dataField ++ (pad ++ line)).flatMap (· ++ [newline]) ++
          ([] ++ newline :: rest) := by
      simp [dataEvent, List.flatMap_map]
    have inside : ∀ line ∈ lines.map fun line => dataField ++ (pad ++ line), newline ∉ line := by
      intro line member
      obtain ⟨text, given, rfl⟩ := List.mem_map.mp member
      simp only [List.mem_append, not_or]
      exact ⟨by decide, fun member => absurd (blank _ member) (by decide), plain text given⟩
    rw [split, onSseRead_lines codec c inside, fed]
    exact onSseRead_line codec c' List.not_mem_nil rest

/-- Messages delivered before stay in front. -/
theorem onSseRead_behind {c c' : SseClient} {base : List Json} (data : c.data = c'.data)
    (delivered : c.delivered = base ++ c'.delivered) (read : Bytes) :
    (codec.onSseRead c read).delivered = base ++ (codec.onSseRead c' read).delivered := by
  unfold onSseRead
  induction splitLines newline read generalizing c c' with
  | nil => exact delivered
  | cons line lines ih =>
    rw [List.foldl_cons, List.foldl_cons]
    have here : (codec.onLine c line).data = (codec.onLine c' line).data ∧
        (codec.onLine c line).delivered = base ++ (codec.onLine c' line).delivered := by
      unfold onLine
      simp only [data]
      repeat' split
      all_goals simp [handleSseFrame, delivered, data]
    exact ih here.1 here.2

/-- A text of an object: its lines joined. -/
structure TextOf (object : Json) (lines : List Bytes) : Prop where
  isObject : object.isObject = true
  plain : ∀ line ∈ lines, newline ∉ line
  parses : codec.parse ([newline].intercalate lines) = some object

/-- For an event with something before and after it in one read, the handler is called exactly
    once, with the object. -/
def HeardOnce (c : SseClient) (before event after : Bytes) (object : Json) : Prop :=
  (codec.onSseRead c (before ++ event ++ after)).delivered =
    (codec.onSseRead c before).delivered ++ [object] ++ (codec.onSseRead {} after).delivered

variable {codec}

/-- An event is heard as its object exactly if one of the lines of its text is by itself a text
    of the object, and no other line is a text at all. -/
theorem heard_once_iff {object : Json} {lines : List Bytes} (text : codec.TextOf object lines)
    {pad : Bytes} (blank : ∀ b ∈ pad, b = space) {c : SseClient} (idle : c.data = [])
    {before after : List SseItem} (whole : ∀ item ∈ before ++ after, item.Whole) :
    codec.HeardOnce c (itemBytes before) (dataEvent pad lines) (itemBytes after) object ↔
      lines.flatMap codec.lineMessages = [object] := by
  obtain ⟨wholeBefore, -⟩ := List.forall_mem_append.mp whole
  obtain ⟨c', idle', reach⟩ := onSseRead_items codec idle wholeBefore
  obtain ⟨c'', idle'', delivered, dispatch⟩ := onSseRead_dataEvent codec blank text.plain idle'
  have first : (codec.onSseRead c (itemBytes before)).delivered = c'.delivered := by
    have empty := reach []
    rw [List.append_nil] at empty
    rw [empty]
    rfl
  have last := @onSseRead_behind codec c'' {} c''.delivered idle'' (List.append_nil _).symm
    (itemBytes after)
  unfold HeardOnce
  rw [List.append_assoc, reach, dispatch, first, last, delivered, List.append_left_inj,
    List.append_right_inj]

/-- The text that `dump` writes is on one line. -/
theorem Lawful.heard {m : Json} (lawful : codec.Lawful m) :
    [codec.dump m].flatMap codec.lineMessages = [m] := by
  obtain ⟨trims, texts⟩ := lawful.beginning (List.append_nil _).symm
  have some : codec.dump m ≠ [] := by
    intro none
    have brace := lawful.brace
    simp [none] at brace
  have kept : trimmed (codec.dump m) = codec.dump m := by
    rw [trimmed, stripCr_self lawful.oneLine.2, trims]
  simp [lineMessages, kept, texts, some, lawful.parses]

end JsonCodec

def smallObject : Json := .mk [("a", .unsigned 1)]

/-- The lines of a text of the object. -/
def spreadLines : List Bytes := [ascii "\x7b", ascii "  \"a\": 1", ascii "\x7d"]

/-- The JSON library on two texts of the object; no line of the second parses. -/
def spreadCodec : JsonCodec where
  dump _ := ascii "\x7b\"a\":1\x7d"
  parse text := if text = ascii "\x7b\"a\":1\x7d" ∨ text = [newline].intercalate spreadLines then
    some smallObject else none

/-- On one line, behind a comment, the object is heard. -/
theorem one_line_heard :
    spreadCodec.HeardOnce {} (itemBytes [.comment (ascii " ping")])
      (dataEvent [space] [spreadCodec.dump smallObject]) (itemBytes []) smallObject ↔
    [spreadCodec.dump smallObject].flatMap spreadCodec.lineMessages = [smallObject] :=
  JsonCodec.heard_once_iff ⟨by decide, by decide, by decide⟩
    (fun _ member => List.mem_singleton.mp member) rfl (by
    intro item member
    obtain rfl : item = .comment (ascii " ping") := by simpa using member
    show newline ∉ ascii " ping"
    decide)

/-- On three lines it is not. -/
theorem spread_not_heard : spreadCodec.TextOf smallObject spreadLines ∧
    ¬ spreadCodec.HeardOnce {} [] (dataEvent [space] spreadLines) [] smallObject := by
  constructor
  · exact ⟨by decide, by decide, by decide⟩
  · intro heard
    have none : (spreadCodec.onSseRead {} ([] ++ dataEvent [space] spreadLines ++ [])).delivered =
        [] := by decide
    rw [JsonCodec.HeardOnce, none] at heard
    revert heard
    decide

end CppMcp
