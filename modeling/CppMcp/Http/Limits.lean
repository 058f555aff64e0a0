import CppMcp.Http.Headers
import CppMcp.Lib.Run

namespace CppMcp

open Lib

/-- How a callback comes back to llhttp: it returns 0, `HPE_PAUSED` or -1, or its `append` throws
    a `std::length_error`. -/
inductive CallbackEnd where
  | zero
  | paused
  | minusOne
  | lengthError
deriving DecidableEq

def Callback.span : Callback → Bytes
  | url span | method span | headerField span | headerValue span | body span => span
  | headersComplete _ | messageComplete => []

section
variable (maxSize : Nat)

/-- A callback's check, in `size_t`, and its `append`. `maxSize` is `max_size()` of a string, a
    distance between two pointers. -/
def appendChecked (limit : Option Nat) (s span : Bytes) : Bytes × CallbackEnd :=
  if limit.any (· < (s.length + span.length) % 2 ^ 64) then (s, .minusOne)
  else if maxSize < s.length + span.length then (s, .lengthError)
  else (s ++ span, .zero)

/-- `on_header_field`. The header before it stays flushed when the callback fails. -/
def HeaderBuffer.fieldCallback (rules : HeaderRules) (b : HeaderBuffer) (span : Bytes) :
    HeaderBuffer × CallbackEnd :=
  let b := b.flush rules
  if rules.maxCount.any (· ≤ b.headers.length) then (b, .minusOne)
  else
    let (field, ended) := appendChecked maxSize rules.maxLine b.field span
    ({ b with field }, ended)

/-- `on_header_value` -/
def HeaderBuffer.valueCallback (rules : HeaderRules) (b : HeaderBuffer) (span : Bytes) :
    HeaderBuffer × CallbackEnd :=
  let (value, ended) := appendChecked maxSize rules.maxLine b.value span
  ({ b with value }, ended)

/-- The callbacks of `HttpConnection` with the state that each leaves, also where it fails. -/
def HttpConnection.callback (limits : ParserLimits) (c : HttpConnection) :
    Callback → HttpConnection × CallbackEnd
  | .url span =>
    let (currentUrl, ended) :=
      appendChecked maxSize (some limits.maxHeaderLineSize) c.currentUrl span
    ({ c with currentUrl }, ended)
  | .method span =>
    let (currentMethod, ended) := appendChecked maxSize none c.currentMethod span
    ({ c with currentMethod }, ended)
  | .body span =>
    let (currentBody, ended) := appendChecked maxSize (some limits.maxBodySize) c.currentBody span
    ({ c with currentBody }, ended)
  | .headerField span =>
    let (header, ended) := c.header.fieldCallback maxSize limits.rules span
    ({ c with header }, ended)
  | .headerValue span =>
    let (header, ended) := c.header.valueCallback maxSize limits.rules span
    ({ c with header }, ended)
  | .headersComplete _ => ({ c with header := c.header.flush limits.rules }, .zero)
  | .messageComplete => ({ c with requestComplete := true }, .paused)

/-- What happens to the parsed state of a connection: a callback, or the reset behind a message. -/
inductive ParserEvent where
  | calls (callback : Callback)
  | resets
deriving DecidableEq

def HttpConnection.parserStep (limits : ParserLimits) (c : HttpConnection) :
    ParserEvent → Option HttpConnection
  | .calls callback => some (c.callback maxSize limits callback).1
  | .resets => some {}

/-- The step is no callback that returns -1. -/
def HttpConnection.Unrefused (limits : ParserLimits) (c : HttpConnection) : ParserEvent → Prop
  | .calls callback => (c.callback maxSize limits callback).2 ≠ .minusOne
  | .resets => True

instance (limits : ParserLimits) (c : HttpConnection) (event : ParserEvent) :
    Decidable (c.Unrefused maxSize limits event) :=
  match event with
  | .calls callback =>
    inferInstanceAs (Decidable ((c.callback maxSize limits callback).2 ≠ .minusOne))
  | .resets => inferInstanceAs (Decidable True)

end

def ParserEvent.Addressable : ParserEvent → Prop
  | .calls callback => callback.span.length < 2 ^ 63
  | .resets => True

instance (event : ParserEvent) : Decidable event.Addressable :=
  match event with
  | .calls callback => inferInstanceAs (Decidable (callback.span.length < 2 ^ 63))
  | .resets => inferInstanceAs (Decidable True)

structure HeaderBuffer.Within (limits : ParserLimits) (b : HeaderBuffer) : Prop where
  field : b.field.length ≤ limits.maxHeaderLineSize
  value : b.value.length ≤ limits.maxHeaderLineSize
  stored : ∀ h ∈ b.headers, h.2.length ≤ limits.maxHeaderLineSize
  count : b.headers.length ≤ limits.maxHeaderCount

/-- What is read of a request is within the limits. -/
structure HttpConnection.Within (limits : ParserLimits) (c : HttpConnection) : Prop where
  url : c.currentUrl.length ≤ limits.maxHeaderLineSize
  header : c.header.Within limits
  body : c.currentBody.length ≤ limits.maxBodySize

theorem appendWithin_le {limit : Nat} {s span t : Bytes}
    (appended : appendWithin (some limit) s span = some t) : t.length ≤ limit := by
  unfold appendWithin at appended
  split at appended
  · cases appended
  · rename_i fits
    cases appended
    simpa using fits

namespace HeaderBuffer

variable {limits : ParserLimits}

/-- The header whose name is being read has its place among the headers. -/
def Placed (limits : ParserLimits) (b : HeaderBuffer) : Prop :=
  b.field ≠ [] → b.headers.length < limits.maxHeaderCount

theorem Within.flush {b : HeaderBuffer} (within : b.Within limits) (placed : b.Placed limits) :
    (b.flush limits.rules).Within limits := by
  by_cases empty : b.field = []
  · rw [flush_of_empty limits.rules empty]
    exact within
  · have flushed : (b.flush limits.rules).headers =
        insertSorted (lowerBytes b.field) b.value b.headers := by
      simp [HeaderBuffer.flush, empty]
    have cleared : (b.flush limits.rules).value = [] := by simp [HeaderBuffer.flush, empty]
    have room := placed empty
    have grown := length_insertSorted_le (lowerBytes b.field) b.value b.headers
    constructor
    · rw [flush_field]
      exact Nat.zero_le _
    · rw [cleared]
      exact Nat.zero_le _
    · intro h member
      rw [flushed] at member
      rcases mem_of_insertSorted member with rfl | old
      · exact within.value
      · exact within.stored h old
    · rw [flushed]
      omega

theorem placed_flush (b : HeaderBuffer) : (b.flush limits.rules).Placed limits :=
  fun named => absurd (flush_field limits.rules b) named

/-- What `on_header_field` checked when it went through. -/
theorem onField_checked {b q : HeaderBuffer} {span : Bytes}
    (read : b.onField limits.rules span = some q) :
    span.length ≤ limits.maxHeaderLineSize ∧
      (b.flush limits.rules).headers.length < limits.maxHeaderCount := by
  simp only [onField] at read
  split at read
  · cases read
  · rename_i room
    obtain ⟨field, appended, -⟩ := Option.map_eq_some_iff.mp read
    have short := appendWithin_le appended
    rw [appendWithin_some appended, flush_field, List.nil_append] at short
    exact ⟨short, Nat.lt_of_not_le fun reached => room (decide_eq_true reached)⟩

theorem onField_within {b q : HeaderBuffer} {span : Bytes} (within : b.Within limits)
    (placed : b.Placed limits) (read : b.onField limits.rules span = some q) :
    q.Within limits ∧ q.Placed limits := by
  obtain ⟨short, room⟩ := onField_checked read
  have flushed := within.flush placed
  rw [onField_some limits.rules read]
  exact ⟨⟨short, flushed.value, flushed.stored, flushed.count⟩, fun _ => room⟩

theorem onValue_within {b q : HeaderBuffer} {span : Bytes} (within : b.Within limits)
    (placed : b.Placed limits) (read : b.onValue limits.rules span = some q) :
    q.Within limits ∧ q.Placed limits := by
  obtain ⟨value, appended, rfl⟩ := Option.map_eq_some_iff.mp read
  exact ⟨⟨within.field, appendWithin_le appended, within.stored, within.count⟩, placed⟩

end HeaderBuffer

namespace HttpConnection

variable {limits : ParserLimits}

structure Bounded (limits : ParserLimits) (c : HttpConnection) : Prop where
  within : c.Within limits
  placed : c.header.Placed limits

theorem bounded_initial : HttpConnection.Bounded limits {} where
  within := {
    url := Nat.zero_le _
    header := ⟨Nat.zero_le _, Nat.zero_le _, by simp, Nat.zero_le _⟩
    body := Nat.zero_le _ }
  placed named := absurd rfl named

theorem Bounded.flush {c : HttpConnection} (bounded : c.Bounded limits) :
    HttpConnection.Bounded limits { c with header := c.header.flush limits.rules } where
  within := {
    url := bounded.within.url
    header := bounded.within.header.flush bounded.placed
    body := bounded.within.body }
  placed := HeaderBuffer.placed_flush c.header

theorem Bounded.on {c next : HttpConnection} (bounded : c.Bounded limits) {callback : Callback}
    (went : c.on limits callback = some next) : next.Bounded limits := by
  have headers {header : HeaderBuffer} (kept : header.Within limits ∧ header.Placed limits) :
      HttpConnection.Bounded limits { c with header } :=
    ⟨⟨bounded.within.url, kept.1, bounded.within.body⟩, kept.2⟩
  cases callback with
  | url span =>
    obtain ⟨url, appended, rfl⟩ := Option.map_eq_some_iff.mp went
    exact ⟨⟨appendWithin_le appended, bounded.within.header, bounded.within.body⟩, bounded.placed⟩
  | method span =>
    cases went
    exact ⟨⟨bounded.within.url, bounded.within.header, bounded.within.body⟩, bounded.placed⟩
  | body span =>
    obtain ⟨body, appended, rfl⟩ := Option.map_eq_some_iff.mp went
    exact ⟨⟨bounded.within.url, bounded.within.header, appendWithin_le appended⟩, bounded.placed⟩
  | headerField span =>
    obtain ⟨header, read, rfl⟩ := Option.map_eq_some_iff.mp went
    exact headers (HeaderBuffer.onField_within bounded.within.header bounded.placed read)
  | headerValue span =>
    obtain ⟨header, read, rfl⟩ := Option.map_eq_some_iff.mp went
    exact headers (HeaderBuffer.onValue_within bounded.within.header bounded.placed read)
  | headersComplete status =>
    cases went
    exact bounded.flush
  | messageComplete =>
    cases went
    exact ⟨⟨bounded.within.url, bounded.within.header, bounded.within.body⟩, bounded.placed⟩

end HttpConnection

section
variable {maxSize : Nat}

/-- A callback does what the unbounded one does, unless it throws. -/
def Follows {σ : Type} (next : Option σ) (result : σ × CallbackEnd) : Prop :=
  match result.2 with
  | .minusOne => next = none
  | .lengthError => True
  | .zero | .paused => next = some result.1

theorem Follows.map {σ τ : Type} {next : Option σ} {result : σ × CallbackEnd}
    (followed : Follows next result) (f : σ → τ) : Follows (next.map f) (f result.1, result.2) := by
  obtain ⟨state, ended⟩ := result
  cases ended with
  | minusOne => exact (congrArg _ followed).trans rfl
  | lengthError => exact True.intro
  | zero | paused => exact congrArg (Option.map f) followed

/-- Where the sum does not wrap, the check is the one of the unbounded callbacks. -/
theorem appendChecked_follows (addressable : maxSize < 2 ^ 63) (limit : Option Nat) {s span : Bytes}
    (short : s.length ≤ maxSize) (spanShort : span.length < 2 ^ 63) :
    Follows (appendWithin limit s span) (appendChecked maxSize limit s span) := by
  have exactly : (s.length + span.length) % 2 ^ 64 = s.length + span.length :=
    Nat.mod_eq_of_lt (by omega)
  unfold appendChecked appendWithin
  rw [exactly]
  by_cases exceeds : limit.any (· < s.length + span.length) = true
  · rw [if_pos exceeds, if_pos exceeds]
    exact rfl
  · rw [if_neg exceeds, if_neg exceeds]
    by_cases long : maxSize < s.length + span.length
    · rw [if_pos long]
      exact True.intro
    · rw [if_neg long]
      exact rfl

theorem appendChecked_short (limit : Option Nat) {s : Bytes} (short : s.length ≤ maxSize)
    (span : Bytes) : (appendChecked maxSize limit s span).1.length ≤ maxSize := by
  unfold appendChecked
  split
  · exact short
  · split
    · exact short
    · rename_i fits
      rw [List.length_append]
      exact Nat.le_of_not_lt fits

/-- An `append` that throws leaves the string as it was. -/
theorem appendChecked_thrown {limit : Option Nat} {s span : Bytes}
    (threw : (appendChecked maxSize limit s span).2 = .lengthError) :
    (appendChecked maxSize limit s span).1 = s := by
  unfold appendChecked at threw ⊢
  split
  · rfl
  · split
    · rfl
    · rename_i within fits
      rw [if_neg within, if_neg fits] at threw
      cases threw

end

namespace HttpConnection

variable {maxSize : Nat} {limits : ParserLimits}

/-- The strings of a connection are ones that `std::string` can hold. -/
structure Short (maxSize : Nat) (c : HttpConnection) : Prop where
  url : c.currentUrl.length ≤ maxSize
  method : c.currentMethod.length ≤ maxSize
  body : c.currentBody.length ≤ maxSize
  field : c.header.field.length ≤ maxSize
  value : c.header.value.length ≤ maxSize

theorem short_initial : HttpConnection.Short maxSize {} :=
  ⟨Nat.zero_le _, Nat.zero_le _, Nat.zero_le _, Nat.zero_le _, Nat.zero_le _⟩

theorem short_flush (limits : ParserLimits) {c : HttpConnection} (short : c.Short maxSize) :
    (c.header.flush limits.rules).field.length ≤ maxSize ∧
      (c.header.flush limits.rules).value.length ≤ maxSize := by
  unfold HeaderBuffer.flush
  split
  · exact ⟨short.field, short.value⟩
  · exact ⟨Nat.zero_le _, Nat.zero_le _⟩

theorem Short.callback {c : HttpConnection} (short : c.Short maxSize) (callback : Callback) :
    (c.callback maxSize limits callback).1.Short maxSize := by
  obtain ⟨flushedField, flushedValue⟩ := short_flush limits short
  cases callback with
  | url span => exact { short with url := appendChecked_short _ short.url span }
  | method span => exact { short with method := appendChecked_short none short.method span }
  | body span => exact { short with body := appendChecked_short _ short.body span }
  | headerField span =>
    simp only [HttpConnection.callback, HeaderBuffer.fieldCallback]
    split
    · exact { short with field := flushedField, value := flushedValue }
    · exact { short with
        field := appendChecked_short _ flushedField span
        value := flushedValue }
  | headerValue span => exact { short with value := appendChecked_short _ short.value span }
  | headersComplete status => exact { short with field := flushedField, value := flushedValue }
  | messageComplete => exact { short with }

/-- The callbacks in `size_t` refine the unbounded ones. -/
theorem callback_follows (addressable : maxSize < 2 ^ 63) {c : HttpConnection}
    (short : c.Short maxSize) {callback : Callback} (spanShort : callback.span.length < 2 ^ 63) :
    Follows (c.on limits callback) (c.callback maxSize limits callback) := by
  cases callback with
  | url span =>
    exact (appendChecked_follows addressable _ short.url spanShort).map
      fun currentUrl => { c with currentUrl }
  | method span =>
    exact (appendChecked_follows addressable none short.method spanShort).map
      fun currentMethod => { c with currentMethod }
  | body span =>
    exact (appendChecked_follows addressable _ short.body spanShort).map
      fun currentBody => { c with currentBody }
  | headerField span =>
    have flushed := (short_flush limits short).1
    simp only [HttpConnection.on, HttpConnection.callback, HeaderBuffer.onField,
      HeaderBuffer.fieldCallback]
    split
    · exact rfl
    · exact ((appendChecked_follows addressable _ flushed spanShort).map _).map
        fun header => { c with header }
  | headerValue span =>
    exact ((appendChecked_follows addressable _ short.value spanShort).map
      fun value => { c.header with value }).map fun header => { c with header }
  | headersComplete status => exact rfl
  | messageComplete => exact rfl

/-- A callback that throws leaves the connection as it was, but for a flushed header. -/
theorem callback_thrown {c : HttpConnection} {callback : Callback}
    (threw : (c.callback maxSize limits callback).2 = .lengthError) :
    (c.callback maxSize limits callback).1 = c ∨
      (c.callback maxSize limits callback).1 =
        { c with header := c.header.flush limits.rules } := by
  cases callback with
  | url span =>
    left
    exact congrArg (fun currentUrl => { c with currentUrl }) (appendChecked_thrown threw)
  | method span =>
    left
    have kept : (appendChecked maxSize none c.currentMethod span).1 = c.currentMethod :=
      appendChecked_thrown threw
    exact congrArg (fun currentMethod => { c with currentMethod }) kept
  | body span =>
    left
    exact congrArg (fun currentBody => { c with currentBody }) (appendChecked_thrown threw)
  | headerField span =>
    right
    simp only [HttpConnection.callback, HeaderBuffer.fieldCallback] at threw ⊢
    split
    · rfl
    · rename_i room
      rw [if_neg room] at threw
      rw [appendChecked_thrown threw]
  | headerValue span =>
    left
    exact congrArg (fun value => { c with header := { c.header with value } })
      (appendChecked_thrown threw)
  | headersComplete status => cases threw
  | messageComplete => cases threw

theorem Bounded.callback (addressable : maxSize < 2 ^ 63) {c : HttpConnection}
    (bounded : c.Bounded limits) (short : c.Short maxSize) {callback : Callback}
    (spanShort : callback.span.length < 2 ^ 63)
    (unrefused : (c.callback maxSize limits callback).2 ≠ .minusOne) :
    (c.callback maxSize limits callback).1.Bounded limits := by
  have followed : Follows (c.on limits callback) (c.callback maxSize limits callback) :=
    callback_follows addressable short spanShort
  unfold Follows at followed
  split at followed
  · rename_i refused
    exact absurd refused unrefused
  · rename_i threw
    rcases callback_thrown threw with kept | flushed
    · rw [kept]
      exact bounded
    · rw [flushed]
      exact bounded.flush
  · exact bounded.on followed
  · exact bounded.on followed

theorem parserStep_keeps (addressable : maxSize < 2 ^ 63) {c next : HttpConnection}
    (kept : c.Bounded limits ∧ c.Short maxSize) {event : ParserEvent}
    (admitted : event.Addressable ∧ c.Unrefused maxSize limits event)
    (stepped : c.parserStep maxSize limits event = some next) :
    next.Bounded limits ∧ next.Short maxSize := by
  cases event with
  | calls callback =>
    cases stepped
    exact ⟨kept.1.callback addressable kept.2 admitted.1 admitted.2, kept.2.callback callback⟩
  | resets =>
    cases stepped
    exact ⟨bounded_initial, short_initial⟩

/-- What is parsed of a connection's requests stays within the limits while no callback
    returns -1. -/
theorem parsing_within (addressable : maxSize < 2 ^ 63) {events : List ParserEvent}
    (spans : ∀ event ∈ events, event.Addressable) {c : HttpConnection}
    (unrefused : Meets (parserStep maxSize limits) (Unrefused maxSize limits) {} events)
    (ran : run (parserStep maxSize limits) {} events = some c) : c.Within limits := by
  have start : HttpConnection.Bounded limits {} ∧ HttpConnection.Short maxSize {} :=
    ⟨bounded_initial, short_initial⟩
  have admitted : Meets (parserStep maxSize limits)
      (fun c event => event.Addressable ∧ c.Unrefused maxSize limits event) {} events :=
    (meets_of_forall spans _).and unrefused
  have kept := run_invariant
    (fun c event next kept admitted stepped => parserStep_keeps addressable kept admitted stepped)
    start admitted ran
  exact kept.1.within

/-- A second request that fills its limits. -/
def filledRequest : List ParserEvent :=
  [.calls (.method (ascii "GET")), .calls (.url (ascii "/")), .calls .messageComplete, .resets,
    .calls (.method (ascii "POST")), .calls (.url (ascii "/mc")), .calls (.url (ascii "p")),
    .calls (.headerField (ascii "Host")), .calls (.headerValue (ascii "a.")),
    .calls (.headerValue (ascii "de")), .calls (.headersComplete 0), .calls (.body (ascii "[")),
    .calls (.body (ascii "]"))]

theorem filledRequest_within :
    ∃ c, run (parserStep (2 ^ 62) ⟨2, 1, 4⟩) {} filledRequest = some c ∧ c.Within ⟨2, 1, 4⟩ := by
  have reaches : (run (parserStep (2 ^ 62) ⟨2, 1, 4⟩) {} filledRequest).isSome = true := by
    decide +kernel
  obtain ⟨c, ran⟩ := Option.isSome_iff_exists.mp reaches
  exact ⟨c, ran, parsing_within (by omega) (by decide) (by decide +kernel) ran⟩

end HttpConnection

/-- A request that `handle_request` is called with is within the limits. -/
structure HttpRequest.Within (limits : ParserLimits) (request : HttpRequest) : Prop where
  url : request.url.length ≤ limits.maxHeaderLineSize
  stored : ∀ h ∈ request.headers, h.2.length ≤ limits.maxHeaderLineSize
  count : request.headers.length ≤ limits.maxHeaderCount
  body : request.body.length ≤ limits.maxBodySize

namespace ParserHooks

variable {τ : Type} {limits : ParserLimits} (handle : τ → HttpRequest → τ × HandlerEnd)

/-- The parser of a read loop is within the limits, and so is all that was dispatched. -/
def LoopWithin (limits : ParserLimits) (s : ReadLoop HttpConnection τ HttpRequest) : Prop :=
  (∀ c, s.parser = some c → c.Bounded limits) ∧ ∀ request ∈ s.dispatched, request.Within limits

theorem take_within {c : HttpConnection} (bounded : c.Bounded limits) {request : HttpRequest}
    (taken : c.take = some request) : request.Within limits := by
  unfold HttpConnection.take at taken
  split at taken
  · cases taken
    exact ⟨bounded.within.url, bounded.within.header.stored, bounded.within.header.count,
      bounded.within.body⟩
  · cases taken

theorem dispatch_within {s : ReadLoop HttpConnection τ HttpRequest} (within : LoopWithin limits s)
    {c : HttpConnection} (bounded : c.Bounded limits) :
    LoopWithin limits ((serverHooks limits).dispatch handle s c) := by
  unfold dispatch
  split
  · refine ⟨fun c same => ?_, within.2⟩
    cases same
    exact HttpConnection.bounded_initial
  · rename_i request taken
    refine ⟨fun c same => ?_, fun other member => ?_⟩
    · dsimp only at same
      split at same
      · cases same
      · cases same
        exact HttpConnection.bounded_initial
    · rcases List.mem_append.mp member with earlier | last
      · exact within.2 other earlier
      · rw [List.mem_singleton.mp last]
        exact take_within bounded taken

theorem step_within {s : ReadLoop HttpConnection τ HttpRequest} (within : LoopWithin limits s)
    (callback : Callback) : LoopWithin limits ((serverHooks limits).step handle s callback) := by
  unfold step
  split
  · exact within
  · rename_i c running
    split
    · exact ⟨nofun, within.2⟩
    · rename_i next went
      have bounded := (within.1 c running).on went
      split
      · exact dispatch_within handle within bounded
      · refine ⟨fun c same => ?_, within.2⟩
        cases same
        exact bounded

/-- However a connection's bytes are read, `handle_request` sees requests within the limits. -/
theorem requests_within (world : τ) (reads : List (List Callback)) :
    ∀ request ∈ ((serverHooks limits).receive handle ⟨some {}, world, true, []⟩ reads).dispatched,
      request.Within limits := by
  have start : LoopWithin limits (⟨some {}, world, true, []⟩ :
      ReadLoop HttpConnection τ HttpRequest) := by
    refine ⟨fun c same => ?_, by simp⟩
    cases same
    exact HttpConnection.bounded_initial
  have keeps (s : ReadLoop HttpConnection τ HttpRequest) (callback : Callback)
      (within : LoopWithin limits s) :
      LoopWithin limits ((serverHooks limits).step handle s callback) :=
    step_within handle within callback
  exact (feed_keeps ((serverHooks limits).step handle) ReadLoop.stopped keeps start reads).2

end ParserHooks

end CppMcp
