import CppMcp.Http.Headers
import CppMcp.Http.ReadLoop

namespace CppMcp

open Lib

variable {π τ μ : Type}

namespace ParserHooks

variable (hooks : ParserHooks π μ)

/-- From the states in `I` two lists of callbacks do the same, and end in `J`. -/
def Same (I : π → Prop) (left right : List Callback) (J : π → Prop) : Prop :=
  ∀ p, I p → hooks.onAll p left = hooks.onAll p right ∧ ∀ q, hooks.onAll p left = some q → J q

variable {hooks}

theorem Same.append {I J K : π → Prop} {left right left' right' : List Callback}
    (first : hooks.Same I left right J) (second : hooks.Same J left' right' K) :
    hooks.Same I (left ++ left') (right ++ right') K := by
  intro p start
  obtain ⟨same, ends⟩ := first p start
  rw [hooks.onAll_append, hooks.onAll_append, ← same]
  cases read : hooks.onAll p left with
  | none => exact ⟨rfl, nofun⟩
  | some q => exact second q (ends q read)

/-- A callback that appends its span to a part of the parser. -/
structure AppendsTo (hooks : ParserHooks π μ) (callback : Bytes → Callback) (part : Part π Bytes)
    (limit : Option Nat) : Prop where
  on : ∀ p span, hooks.on p (callback span) = part.lift (fun s => appendWithin limit s span) p

theorem AppendsTo.spans {callback : Bytes → Callback} {part : Part π Bytes} {limit : Option Nat}
    (appends : AppendsTo hooks callback part limit) {p : π} (empty : part.get p = [])
    (spans : List Bytes) : hooks.onAll p (spans.map callback) =
      part.lift (fun s => appendWithin limit s spans.flatten) p := by
  have fits : limit.any (· < ([] : Bytes).length) = false := by cases limit <;> rfl
  have lifted := part.foldlM_lift (appendWithin limit) spans p
  simp only [← appends.on] at lifted
  rw [onAll, List.foldlM_map, lifted, Part.lift, Part.lift, empty,
    appendWithin_spans limit spans fits]

theorem AppendsTo.same {callback : Bytes → Callback} {part : Part π Bytes} {limit : Option Nat}
    (appends : AppendsTo hooks callback part limit) {I J : π → Prop}
    (empty : ∀ p, I p → part.get p = []) (keeps : ∀ p s, I p → J (part.set s p))
    (spans : List Bytes) : hooks.Same I (spans.map callback) [callback spans.flatten] J := by
  intro p start
  have whole := appends.spans (empty p start) [spans.flatten]
  rw [List.map_singleton, List.flatten_singleton] at whole
  rw [whole, appends.spans (empty p start) spans]
  refine ⟨rfl, fun q read => ?_⟩
  obtain ⟨s, -, rfl⟩ := Option.map_eq_some_iff.mp read
  exact keeps p s start

/-- The header callbacks work on a part of the parser. -/
structure ReadsHeaders (hooks : ParserHooks π μ) (part : Part π HeaderBuffer)
    (rules : HeaderRules) : Prop where
  field : ∀ p span, hooks.on p (.headerField span) = part.lift (fun b => b.onField rules span) p
  value : ∀ p span, hooks.on p (.headerValue span) = part.lift (fun b => b.onValue rules span) p

section
variable {part : Part π HeaderBuffer} {rules : HeaderRules}

theorem ReadsHeaders.field_spans (reads : ReadsHeaders hooks part rules) (f : FieldReport) (p : π) :
    hooks.onAll p f.callbacks = part.lift (fun b => b.readField rules f) p := by
  have names := fun p => part.foldlM_lift (HeaderBuffer.onField rules) f.name p
  have values := fun p => part.foldlM_lift (HeaderBuffer.onValue rules) f.value p
  simp only [← reads.field] at names
  simp only [← reads.value] at values
  rw [FieldReport.callbacks, hooks.onAll_append]
  simp only [onAll, List.foldlM_map, names]
  exact (congrArg _ (funext values)).trans (part.lift_bind _ _ p)

theorem ReadsHeaders.fields (reads : ReadsHeaders hooks part rules) (fields : List FieldReport)
    (p : π) : hooks.onAll p (fields.flatMap FieldReport.callbacks) =
      part.lift (fun b => fields.foldlM (HeaderBuffer.readField rules) b) p := by
  induction fields generalizing p with
  | nil => simp [onAll, Part.lift, part.set_get]
  | cons f rest ih =>
    rw [List.flatMap_cons, hooks.onAll_append, reads.field_spans]
    exact (congrArg _ (funext ih)).trans (part.lift_bind _ _ p)

theorem ReadsHeaders.stored (reads : ReadsHeaders hooks part rules) {fields : List FieldReport}
    {p : π} {a b : HeaderBuffer} (start : part.get p = a)
    (fold : fields.foldlM (HeaderBuffer.readField rules) a = some b) :
    hooks.onAll p (fields.flatMap FieldReport.callbacks) = some (part.set b p) := by
  rw [reads.fields, Part.lift, start, fold, Option.map_some]

theorem ReadsHeaders.same (reads : ReadsHeaders hooks part rules) {I J : π → Prop}
    (tidy : ∀ p, I p → (part.get p).Tidy) (keeps : ∀ p b, I p → b.Tidy → J (part.set b p))
    {fields : List FieldReport} (whole : ∀ f ∈ fields, f.Whole)
    (named : ∀ f ∈ fields, f.name.flatten ≠ []) :
    hooks.Same I (fields.flatMap FieldReport.callbacks)
      (((fields.map FieldReport.header).map FieldReport.single).flatMap FieldReport.callbacks)
      J := by
  intro p start
  obtain ⟨same, ends⟩ := HeaderBuffer.readFields_whole rules (tidy p start) whole named
  rw [reads.fields, reads.fields, List.map_map]
  refine ⟨?_, fun q read => ?_⟩
  · rw [Part.lift, Part.lift, same]
    rfl
  · obtain ⟨b, stored, rfl⟩ := Option.map_eq_some_iff.mp read
    exact keeps p b start (ends b stored)

end

theorem Same.refl {I J : π → Prop} {callback : Callback}
    (keeps : ∀ p q, I p → hooks.on p callback = some q → J q) :
    hooks.Same I [callback] [callback] J := by
  intro p start
  refine ⟨rfl, fun q read => keeps p q start ?_⟩
  simpa [onAll] using read

theorem Same.ignored {I : π → Prop} {callback : Bytes → Callback}
    (ignores : ∀ p span, hooks.on p (callback span) = some p) (spans : List Bytes) :
    hooks.Same I (spans.map callback) [callback spans.flatten] I := by
  intro p start
  have stays : hooks.onAll p (spans.map callback) = some p := by
    induction spans with
    | nil => rfl
    | cons span rest ih =>
      rw [List.map_cons, onAll, List.foldlM_cons, ignores]
      exact ih
  rw [stays]
  refine ⟨by simp [onAll, ignores], fun q read => ?_⟩
  cases read
  exact start

/-- The states a parser passes through on a message: what comes in spans is empty before its
    first span. -/
structure Stages (hooks : ParserHooks π μ) where
  headerPart : Part π HeaderBuffer
  rules : HeaderRules
  header : ReadsHeaders hooks headerPart rules
  start : π → Prop
  named : π → Prop
  read : π → Prop
  tidy : ∀ p, read p → (headerPart.get p).Tidy
  method : ∀ spans : List Bytes, hooks.Same start (spans.map .method) [.method spans.flatten] named
  url : ∀ spans : List Bytes, hooks.Same named (spans.map .url) [.url spans.flatten] read
  body : ∀ spans : List Bytes, hooks.Same read (spans.map .body) [.body spans.flatten]
    fun p => (headerPart.get p).Tidy
  keeps : ∀ p b, read p → b.Tidy → read (headerPart.set b p)
  headersComplete : ∀ p q status, read p → hooks.on p (.headersComplete status) = some q → read q
  messageComplete : ∀ p q, (headerPart.get p).Tidy → hooks.on p .messageComplete = some q →
    start (hooks.reset q)
  keepsHeader : ∀ p q callback, callback.readsHeader = false → hooks.on p callback = some q →
    headerPart.get q = headerPart.get p
  flushes : ∀ p q status, hooks.on p (.headersComplete status) = some q →
    headerPart.get q = (headerPart.get p).flush rules

theorem Stages.same (stages : Stages hooks) {r : Report} (whole : r.Whole) :
    hooks.Same stages.start r.callbacks r.message.callbacks
      fun q => stages.start (hooks.reset q) := by
  have tidied (p : π) (b : HeaderBuffer) (tidy : b.Tidy) :
      (stages.headerPart.get (stages.headerPart.set b p)).Tidy := by
    rw [stages.headerPart.get_set]
    exact tidy
  have headers := stages.header.same stages.tidy stages.keeps
    (fun f member => whole f (List.mem_append_left _ member))
    (fun f member => r.named f (List.mem_append_left _ member))
  have trailers := stages.header.same (I := fun p => (stages.headerPart.get p).Tidy)
    (J := fun p => (stages.headerPart.get p).Tidy) (fun p tidy => tidy)
    (fun p b _ tidy => tidied p b tidy)
    (fun f member => whole f (List.mem_append_right _ member))
    (fun f member => r.named f (List.mem_append_right _ member))
  have complete : hooks.Same stages.read [.headersComplete r.status] [.headersComplete r.status]
      stages.read := Same.refl fun p q => stages.headersComplete p q r.status
  exact (((((stages.method r.method).append (stages.url r.url)).append headers).append
    complete).append (stages.body r.body)).append trailers |>.append
      (Same.refl stages.messageComplete)

theorem onAll_keeps {I : π → Prop} {callbacks : List Callback}
    (keeps : ∀ c ∈ callbacks, ∀ p q, I p → hooks.on p c = some q → I q) {p q : π} (start : I p)
    (read : hooks.onAll p callbacks = some q) : I q := by
  induction callbacks generalizing p with
  | nil =>
    cases read
    exact start
  | cons c rest ih =>
    rw [onAll, List.foldlM_cons] at read
    obtain ⟨next, first, later⟩ := Option.bind_eq_some_iff.mp read
    exact ih (fun c member => keeps c (List.mem_cons_of_mem _ member))
      (keeps c List.mem_cons_self p next start first) later

/-- The headers of a message without trailers, once it was read. -/
theorem Stages.headers_read (stages : Stages hooks) {r : Report} (ends : r.trailers = []) {p q : π}
    (read : hooks.onAll p r.callbacks = some q) :
    ∃ b, r.headers.foldlM (HeaderBuffer.readField stages.rules) (stages.headerPart.get p) = some b ∧
      stages.headerPart.get q = b.flush stages.rules := by
  have split : r.callbacks = (r.method.map .method ++ r.url.map .url) ++
      (r.headers.flatMap FieldReport.callbacks ++
        ([.headersComplete r.status] ++ (r.body.map .body ++ [.messageComplete]))) := by
    simp [Report.callbacks, Report.elements, ends]
  rw [split, hooks.onAll_append] at read
  obtain ⟨front, before, read⟩ := Option.bind_eq_some_iff.mp read
  rw [hooks.onAll_append, stages.header.fields] at read
  obtain ⟨stored, headers, read⟩ := Option.bind_eq_some_iff.mp read
  rw [hooks.onAll_append] at read
  obtain ⟨flushed, complete, after⟩ := Option.bind_eq_some_iff.mp read
  obtain ⟨b, fold, rfl⟩ := Option.map_eq_some_iff.mp headers
  have keeps {callbacks : List Callback} (other : ∀ c ∈ callbacks, c.readsHeader = false)
      {start ends : π} (read : hooks.onAll start callbacks = some ends) :
      stages.headerPart.get ends = stages.headerPart.get start :=
    onAll_keeps (I := fun p => stages.headerPart.get p = stages.headerPart.get start)
      (fun c member p q same on => (stages.keepsHeader p q c (other c member) on).trans same)
      rfl read
  have keepsFront := keeps (by
    intro c member
    rcases List.mem_append.mp member with member | member <;>
      obtain ⟨span, -, rfl⟩ := List.mem_map.mp member <;> rfl) before
  have keepsBack := keeps (by
    intro c member
    rcases List.mem_append.mp member with member | member
    · obtain ⟨span, -, rfl⟩ := List.mem_map.mp member
      rfl
    · rw [List.mem_singleton.mp member]
      rfl) after
  rw [keepsFront] at fold
  refine ⟨b, fold, ?_⟩
  rw [keepsBack, stages.flushes _ flushed r.status (by simpa [onAll] using complete),
    stages.headerPart.get_set]

/-- Read as a whole, a plain message has other headers than with a name in several pieces. -/
theorem Stages.shows (stages : Stages hooks) {r : Report} (plain : r.message.Plain)
    (broken : ¬ r.Whole) {p q q' : π} (empty : (stages.headerPart.get p).field = [])
    (unread : (stages.headerPart.get p).value = []) (none : (stages.headerPart.get p).headers = [])
    (read : hooks.onAll p r.callbacks = some q)
    (readWhole : hooks.onAll p r.message.callbacks = some q') :
    (stages.headerPart.get q).headers ≠ (stages.headerPart.get q').headers := by
  have ends : r.trailers = [] := List.map_eq_nil_iff.mp plain.trailers
  obtain ⟨bad, fold, shown⟩ := stages.headers_read ends read
  obtain ⟨good, foldWhole, shownWhole⟩ := stages.headers_read
    (r := .of r.message r.message_named) (by simp [Report.of, Report.message, ends])
    (by rw [Report.of_callbacks]; exact readWhole)
  rw [shown, shownWhole]
  refine HeaderBuffer.split_shows stages.rules empty unread none
    (fun f member => r.named f (List.mem_append_left _ member))
    (fun f member => plain.valued f.header (List.mem_map_of_mem member))
    (by simpa [Report.message, FieldReport.header, Function.comp_def] using plain.distinct) ?_
    fold (by simpa [Report.of, Report.message, Function.comp_def] using foldWhole)
  simpa [Report.Whole, ends] using broken

def Stages.laws (stages : Stages hooks) : ParserLaws hooks where
  Fresh := stages.start
  whole start whole := (stages.same whole _ start).1
  fresh start whole read := (stages.same whole _ start).2 _ read

end ParserHooks

section Server
variable (limits : ParserLimits)

def HttpConnection.headerPart : Part HttpConnection HeaderBuffer :=
  ⟨fun c => c.header, fun header c => { c with header }, fun _ _ => rfl, fun _ => rfl,
    fun _ _ _ => rfl⟩

def HttpConnection.urlPart : Part HttpConnection Bytes :=
  ⟨fun c => c.currentUrl, fun currentUrl c => { c with currentUrl }, fun _ _ => rfl, fun _ => rfl,
    fun _ _ _ => rfl⟩

def HttpConnection.methodPart : Part HttpConnection Bytes :=
  ⟨fun c => c.currentMethod, fun currentMethod c => { c with currentMethod }, fun _ _ => rfl,
    fun _ => rfl, fun _ _ _ => rfl⟩

def HttpConnection.bodyPart : Part HttpConnection Bytes :=
  ⟨fun c => c.currentBody, fun currentBody c => { c with currentBody }, fun _ _ => rfl,
    fun _ => rfl, fun _ _ _ => rfl⟩

open HttpConnection in
theorem server_readsHeaders :
    ParserHooks.ReadsHeaders (serverHooks limits) headerPart limits.rules :=
  ⟨fun _ _ => rfl, fun _ _ => rfl⟩

open HttpConnection in
def serverStages : ParserHooks.Stages (serverHooks limits) where
  headerPart := headerPart
  rules := limits.rules
  header := server_readsHeaders limits
  start c := c.currentMethod = [] ∧ c.currentUrl = [] ∧ c.currentBody = [] ∧ c.header.Tidy
  named c := c.currentUrl = [] ∧ c.currentBody = [] ∧ c.header.Tidy
  read c := c.currentBody = [] ∧ c.header.Tidy
  tidy _ read := read.2
  method spans :=
    have appends : ParserHooks.AppendsTo (serverHooks limits) .method methodPart none :=
      ⟨fun _ _ => rfl⟩
    appends.same (fun _ start => start.1) (fun _ _ start => start.2) spans
  url spans :=
    have appends : ParserHooks.AppendsTo (serverHooks limits) .url urlPart
        (some limits.maxHeaderLineSize) := ⟨fun _ _ => rfl⟩
    appends.same (fun _ start => start.1) (fun _ _ start => start.2) spans
  body spans :=
    have appends : ParserHooks.AppendsTo (serverHooks limits) .body bodyPart
        (some limits.maxBodySize) := ⟨fun _ _ => rfl⟩
    appends.same (fun _ start => start.1) (fun _ _ start => start.2) spans
  keeps _ _ read tidy := ⟨read.1, tidy⟩
  headersComplete := by
    rintro c q status ⟨body, tidy⟩ read
    cases read
    exact ⟨body, tidy.flush limits.rules⟩
  messageComplete := by
    rintro c q tidy read
    cases read
    exact ⟨rfl, rfl, rfl, fun _ => rfl⟩
  keepsHeader := by
    rintro c q (span | span | span | span | status | span | _) other read
    · cases read
      rfl
    · obtain ⟨s, -, rfl⟩ := Option.map_eq_some_iff.mp read
      rfl
    · cases other
    · cases other
    · cases other
    · obtain ⟨s, -, rfl⟩ := Option.map_eq_some_iff.mp read
      rfl
    · cases read
      rfl
  flushes := by
    rintro c q status read
    cases read
    rfl

/-- A complete request within the limits. -/
structure HttpMessage.IsRequest (m : HttpMessage) : Prop where
  method : m.method ≠ []
  url : m.url.length ≤ limits.maxHeaderLineSize
  count : m.headers.length + m.trailers.length ≤ limits.maxHeaderCount
  named : ∀ h ∈ m.headers ++ m.trailers, h.1 ≠ []
  lines : ∀ h ∈ m.headers ++ m.trailers,
    h.1.length ≤ limits.maxHeaderLineSize ∧ h.2.length ≤ limits.maxHeaderLineSize
  body : m.body.length ≤ limits.maxBodySize

theorem request_read {m : HttpMessage} (request : m.IsRequest limits) :
    ∃ header, (serverHooks limits).onAll {} m.callbacks =
      some ⟨m.url, m.method, m.body, header, true⟩ := by
  have lines : ∀ h ∈ m.headers ++ m.trailers,
      limits.rules.maxLine.all (h.1.length ≤ ·) = true ∧
        limits.rules.maxLine.all (h.2.length ≤ ·) = true := by
    intro h member
    simpa [ParserLimits.rules] using request.lines h member
  have total := request.count
  obtain ⟨b, fold, tidy, count⟩ := HeaderBuffer.readFields_accepted limits.rules m.headers (b := {})
    (fun _ => rfl)
    (by
      simp [ParserLimits.rules, HeaderBuffer.flush]
      omega)
    (fun h member => request.named h (List.mem_append_left _ member))
    (fun h member => lines h (List.mem_append_left _ member))
  simp only [HeaderBuffer.flush_of_empty limits.rules (b := {}) rfl, List.length_nil,
    Nat.zero_add] at count
  obtain ⟨b', fold', -, -⟩ := HeaderBuffer.readFields_accepted limits.rules m.trailers
    (b := b.flush limits.rules) (tidy.flush limits.rules)
    (by
      simp only [HeaderBuffer.flush_flush, ParserLimits.rules, Option.all_some,
        decide_eq_true_eq] at count ⊢
      omega)
    (fun h member => request.named h (List.mem_append_right _ member))
    (fun h member => lines h (List.mem_append_right _ member))
  have front : (serverHooks limits).onAll {} ([.method m.method] ++ [.url m.url]) =
      some { currentMethod := m.method, currentUrl := m.url } := by
    have fits := Nat.not_lt.mpr request.url
    simp [ParserHooks.onAll, serverHooks, HttpConnection.on, appendWithin, fits]
  have middle (c : HttpConnection) (empty : c.currentBody = []) :
      (serverHooks limits).onAll c ([.headersComplete m.status] ++ [.body m.body]) =
        some { c with header := c.header.flush limits.rules, currentBody := m.body } := by
    have fits := Nat.not_lt.mpr request.body
    simp [ParserHooks.onAll, serverHooks, HttpConnection.on, appendWithin, fits, empty]
  have reads := server_readsHeaders limits
  refine ⟨b', ?_⟩
  have headers := reads.stored (p := { currentMethod := m.method, currentUrl := m.url }) rfl fold
  have trailers := reads.stored (p := ⟨m.url, m.method, m.body, b.flush limits.rules, false⟩) rfl
    fold'
  rw [m.callbacks_split, ParserHooks.onAll_append, front, Option.bind_some,
    ParserHooks.onAll_append, headers, Option.bind_some, ParserHooks.onAll_append,
    middle _ rfl, Option.bind_some, ParserHooks.onAll_append]
  exact Option.bind_eq_some_iff.mpr ⟨_, trailers, rfl⟩

theorem request_method_kept {callback : Callback} {c c' : HttpConnection}
    (nonempty : c.currentMethod ≠ []) (on : c.on limits callback = some c') :
    c'.currentMethod ≠ [] := by
  cases callback with
  | method span =>
    cases on
    simp [nonempty]
  | headersComplete status =>
    cases on
    exact nonempty
  | messageComplete =>
    cases on
    exact nonempty
  | _ =>
    obtain ⟨_, -, rfl⟩ := Option.map_eq_some_iff.mp on
    exact nonempty

theorem request_handed {r : Report} (method : r.method.flatten ≠ []) {q : HttpConnection}
    (read : (serverHooks limits).onAll {} r.callbacks = some q) :
    ∃ request, q.take = some request ∧ request.headers = q.header.headers := by
  have split : r.callbacks = r.method.map .method ++
      ((r.url.map .url ++ r.headers.flatMap FieldReport.callbacks ++ [.headersComplete r.status] ++
        r.body.map .body ++ r.trailers.flatMap FieldReport.callbacks) ++ [.messageComplete]) := by
    simp [Report.callbacks, Report.elements]
  have appends : ParserHooks.AppendsTo (serverHooks limits) .method HttpConnection.methodPart
      none := ⟨fun _ _ => rfl⟩
  rw [split, ParserHooks.onAll_append, appends.spans rfl] at read
  obtain ⟨mid, named, read⟩ := Option.bind_eq_some_iff.mp read
  rw [ParserHooks.onAll_append] at read
  obtain ⟨last, rest, ended⟩ := Option.bind_eq_some_iff.mp read
  cases named
  have method := ParserHooks.onAll_keeps (I := fun c => c.currentMethod ≠ [])
    (fun c _ p q nonempty on => request_method_kept limits nonempty on) method rest
  cases ended
  refine ⟨⟨last.currentMethod, last.currentUrl, last.header.headers, last.currentBody⟩, ?_, rfl⟩
  simp [HttpConnection.take, method]

def serverStrict : (serverStages limits).laws.Strict fun m => m.IsRequest limits where
  Clean c := c = {}
  fresh clean := by
    subst clean
    exact ⟨rfl, rfl, rfl, fun _ => rfl⟩
  clean _ _ _ _ := rfl
  accepts {c m} clean request := by
    subst clean
    obtain ⟨header, read⟩ := request_read limits request
    refine ⟨_, ⟨m.method, m.url, header.headers, m.body⟩, read, ?_⟩
    simp [serverHooks, HttpConnection.take, request.method]
  detects {c q r} clean request plain broken read := by
    subst clean
    obtain ⟨other, handed, headers⟩ := request_handed limits request.method read
    refine ⟨other, handed, fun q' readWhole same => ?_⟩
    have shows := (serverStages limits).shows plain broken rfl rfl rfl read readWhole
    refine shows (headers.symm.trans ?_)
    change q'.take = some other at same
    unfold HttpConnection.take at same
    split at same
    · cases same
      rfl
    · cases same

end Server

section Client
variable (maxBodySize : Nat)

def ResponseParser.headerPart : Part ResponseParser HeaderBuffer :=
  ⟨fun p => p.header, fun header p => { p with header }, fun _ _ => rfl, fun _ => rfl,
    fun _ _ _ => rfl⟩

def ResponseParser.bodyPart : Part ResponseParser Bytes :=
  ⟨fun p => p.responseBody, fun responseBody p => { p with responseBody }, fun _ _ => rfl,
    fun _ => rfl, fun _ _ _ => rfl⟩

open ResponseParser in
theorem client_readsHeaders :
    ParserHooks.ReadsHeaders (clientHooks maxBodySize) headerPart clientRules :=
  ⟨fun _ _ => rfl, fun _ _ => rfl⟩

open ResponseParser in
def clientStages : ParserHooks.Stages (clientHooks maxBodySize) where
  headerPart := headerPart
  rules := clientRules
  header := client_readsHeaders maxBodySize
  start p := p.responseBody = [] ∧ p.header.Tidy
  named p := p.responseBody = [] ∧ p.header.Tidy
  read p := p.responseBody = [] ∧ p.header.Tidy
  tidy _ read := read.2
  method spans := ParserHooks.Same.ignored (fun _ _ => rfl) spans
  url spans := ParserHooks.Same.ignored (fun _ _ => rfl) spans
  body spans :=
    have appends : ParserHooks.AppendsTo (clientHooks maxBodySize) .body bodyPart
        (some maxBodySize) := ⟨fun _ _ => rfl⟩
    appends.same (fun _ start => start.1) (fun _ _ start => start.2) spans
  keeps _ _ read tidy := ⟨read.1, tidy⟩
  headersComplete := by
    rintro p q status ⟨body, tidy⟩ read
    cases read
    exact ⟨body, tidy.flush clientRules⟩
  messageComplete := by
    rintro p q tidy read
    cases read
    exact ⟨rfl, tidy⟩
  keepsHeader := by
    rintro p q (span | span | span | span | status | span | _) other read
    · cases read
      rfl
    · cases read
      rfl
    · cases other
    · cases other
    · cases other
    · obtain ⟨s, -, rfl⟩ := Option.map_eq_some_iff.mp read
      rfl
    · cases read
      rfl
  flushes := by
    rintro p q status read
    cases read
    rfl

/-- A complete response whose body keeps the limit. -/
structure HttpMessage.IsResponse (m : HttpMessage) : Prop where
  named : ∀ h ∈ m.headers ++ m.trailers, h.1 ≠ []
  body : m.body.length ≤ maxBodySize

theorem response_read {m : HttpMessage} (response : m.IsResponse maxBodySize) {p : ResponseParser}
    (empty : p.responseBody = []) (tidy : p.header.Tidy) :
    ∃ q, (clientHooks maxBodySize).onAll p m.callbacks = some q := by
  obtain ⟨b, fold, tidy', -⟩ := HeaderBuffer.readFields_accepted clientRules m.headers
    tidy rfl (fun h member => response.named h (List.mem_append_left _ member))
    (fun _ _ => ⟨rfl, rfl⟩)
  obtain ⟨b', fold', -, -⟩ := HeaderBuffer.readFields_accepted clientRules
    m.trailers (tidy'.flush clientRules) rfl
    (fun h member => response.named h (List.mem_append_right _ member)) (fun _ _ => ⟨rfl, rfl⟩)
  have middle (p : ResponseParser) (empty : p.responseBody = []) :
      (clientHooks maxBodySize).onAll p ([.headersComplete m.status] ++ [.body m.body]) =
        some { p with
          header := p.header.flush clientRules, responseStatus := m.status
          responseBody := m.body } := by
    have fits := Nat.not_lt.mpr response.body
    simp [ParserHooks.onAll, clientHooks, ResponseParser.on, appendWithin, fits, empty]
  have reads := client_readsHeaders maxBodySize
  have headers := reads.stored (p := p) rfl fold
  have trailers := reads.stored (p := ⟨b.flush clientRules, m.body, m.status, p.messageComplete⟩)
    rfl fold'
  rw [m.callbacks_split, ParserHooks.onAll_append,
    show (clientHooks maxBodySize).onAll p ([.method m.method] ++ [.url m.url]) = some p from rfl,
    Option.bind_some, ParserHooks.onAll_append, headers, Option.bind_some,
    ParserHooks.onAll_append, middle (ResponseParser.headerPart.set b p) empty, Option.bind_some,
    ParserHooks.onAll_append]
  exact ⟨_, Option.bind_eq_some_iff.mpr ⟨_, trailers, rfl⟩⟩

theorem response_handed {elements : List Callback} {p q : ResponseParser}
    (read : (clientHooks maxBodySize).onAll p (elements ++ [.messageComplete]) = some q) :
    ∃ response, q.take = some response ∧ response.headers = q.header.headers := by
  rw [ParserHooks.onAll_append] at read
  obtain ⟨last, -, ended⟩ := Option.bind_eq_some_iff.mp read
  cases ended
  exact ⟨⟨last.responseStatus, last.header.headers, last.responseBody, last.header.sessionId⟩,
    rfl, rfl⟩

def clientStrict : (clientStages maxBodySize).laws.Strict fun m => m.IsResponse maxBodySize where
  Clean p := p.header.field = [] ∧ p.header.value = [] ∧ p.header.headers = [] ∧
    p.responseBody = []
  fresh clean := ⟨clean.2.2.2, fun _ => clean.2.1⟩
  clean {p q m} clean response plain read := by
    have ready := (clientStages maxBodySize).same (Report.of_whole m response.named)
    rw [Report.of_callbacks] at ready
    obtain ⟨-, tidy⟩ := (ready p ⟨clean.2.2.2, fun _ => clean.2.1⟩).2 q read
    obtain ⟨b, -, flushed⟩ := (clientStages maxBodySize).headers_read
      (r := .of m response.named) (by simp [Report.of, plain.trailers])
      (by rw [Report.of_callbacks]; exact read)
    have field : q.header.field = [] := by
      rw [show q.header = b.flush clientRules from flushed, HeaderBuffer.flush_field]
    exact ⟨field, tidy field, rfl, rfl⟩
  accepts {p m} clean response := by
    obtain ⟨q, read⟩ := response_read maxBodySize response clean.2.2.2 fun _ => clean.2.1
    obtain ⟨message, handed, -⟩ := response_handed maxBodySize read
    exact ⟨q, message, read, handed⟩
  detects {p q r} clean response plain broken read := by
    obtain ⟨other, handed, headers⟩ := response_handed maxBodySize read
    refine ⟨other, handed, fun q' readWhole same => ?_⟩
    have shows := (clientStages maxBodySize).shows plain broken clean.1 clean.2.1 clean.2.2.1
      read readWhole
    refine shows (headers.symm.trans ?_)
    change q'.take = some other at same
    unfold ResponseParser.take at same
    split at same
    · cases same
      rfl
    · cases same

end Client

def ReadLoop.start {π τ μ : Type} (parser : π) (world : τ) : ReadLoop π τ μ :=
  { parser := some parser, world }

/-- The reads of a stream dispatch what the stream dispatches in one read that reports every
    header name in one span: always when they read it well, and for plain messages within
    the limits only then. -/
theorem dispatch_ignores_segmentation :
    (∀ (limits : ParserLimits) (handle : τ → HttpRequest → τ × HandlerEnd) (world : τ)
      (reports once : List Report) (reads : List (List Callback)),
      reads.flatten = reports.flatMap Report.callbacks →
      once.map Report.message = reports.map Report.message → (∀ r ∈ once, r.Whole) →
      let hooks := serverHooks limits
      let same := (hooks.receive handle (.start {} world) reads).dispatched =
        (hooks.receive handle (.start {} world) [once.flatMap Report.callbacks]).dispatched
      (hooks.ReadsWell handle (.start {} world) reports reads → same) ∧
      ((∀ r ∈ reports, r.message.IsRequest limits ∧ r.message.Plain) → same →
        hooks.ReadsWell handle (.start {} world) reports reads)) ∧
    (∀ (maxBodySize : Nat) (handle : τ → ClientResponse → τ × HandlerEnd) (world : τ)
      (reports once : List Report) (reads : List (List Callback)),
      reads.flatten = reports.flatMap Report.callbacks →
      once.map Report.message = reports.map Report.message → (∀ r ∈ once, r.Whole) →
      let hooks := clientHooks maxBodySize
      let same := (hooks.receive handle (.start {} world) reads).dispatched =
        (hooks.receive handle (.start {} world) [once.flatMap Report.callbacks]).dispatched
      (hooks.ReadsWell handle (.start {} world) reports reads → same) ∧
      ((∀ r ∈ reports, r.message.IsResponse maxBodySize ∧ r.message.Plain) → same →
        hooks.ReadsWell handle (.start {} world) reports reads)) := by
  constructor
  · intro limits handle world reports once reads cut messages whole
    refine ParserHooks.receive_same handle (serverStrict limits) ?_ rfl cut messages whole
    rintro p ⟨⟩
    rfl
  · intro maxBodySize handle world reports once reads cut messages whole
    refine ParserHooks.receive_same handle (clientStrict maxBodySize) ?_ rfl cut messages whole
    rintro p ⟨⟩
    exact ⟨rfl, rfl, rfl, rfl⟩

/-- A GET or its answer with one header, the name and the value in the given spans. -/
def reportOf (method : List Bytes) (name value : List Bytes)
    (named : name.flatten ≠ [] := by decide) : Report where
  method := method
  url := method.map fun _ => ascii "/mcp"
  headers := [⟨name, value⟩]
  status := 200
  named := by simpa using named

/-- The callbacks of a report, in two reads. -/
def cutAt (n : Nat) (r : Report) : List (List Callback) := [r.callbacks.take n, r.callbacks.drop n]

def keepsReading {μ : Type} : Unit → μ → Unit × HandlerEnd := fun _ _ => ((), .continues)

theorem value_cut_unseen :
    let split := reportOf [ascii "GET"] [ascii "Host"] [ascii "local", ascii "host"]
    let answer := reportOf [] [ascii "Mcp-Session-Id"] [ascii "a", ascii "b"]
    (serverHooks {}).ReadsWell keepsReading (.start {} ()) [split] (cutAt 4 split) ∧
    ((clientHooks 99).receive keepsReading (.start {} ()) (cutAt 2 answer)).dispatched =
      ((clientHooks 99).receive keepsReading (.start {} ())
        [(Report.of answer.message answer.message_named).callbacks]).dispatched := by
  intro split answer
  have request : split.message.IsRequest {} :=
    ⟨by decide, by decide, by decide, by decide, by decide, by decide⟩
  have server := dispatch_ignores_segmentation.1 {} keepsReading () [split]
    [.of split.message split.message_named] (cutAt 4 split) (by decide) (by decide) (by decide)
  have client := dispatch_ignores_segmentation.2 99 keepsReading () [answer]
    [.of answer.message answer.message_named] (cutAt 2 answer) (by decide) (by decide) (by decide)
  refine ⟨server.2 ?_ (by decide), client.1 ⟨⟨fun _ => by decide, True.intro⟩, by decide⟩⟩
  intro r member
  rw [List.mem_singleton.mp member]
  exact ⟨request, ⟨by decide, by decide, rfl⟩⟩

def hostRequest (headers : Headers) : HttpRequest := ⟨ascii "GET", ascii "/mcp", headers, []⟩

/-- A cut in the name `Host` makes two headers of it, and the request loses its host. -/
theorem name_cut_seen :
    let split := reportOf [ascii "GET"] [ascii "Ho", ascii "st"] [ascii "localhost"]
    let once := reportOf [ascii "GET"] [ascii "Host"] [ascii "localhost"]
    split.message = once.message ∧ split.message.IsRequest {} ∧ once.Whole ∧
    (cutAt 3 split).flatten = [split].flatMap Report.callbacks ∧
    ((serverHooks {}).receive keepsReading (.start {} ()) [once.callbacks]).dispatched =
      [hostRequest [(ascii "host", ascii "localhost")]] ∧
    ((serverHooks {}).receive keepsReading (.start {} ()) (cutAt 3 split)).dispatched =
      [hostRequest [(ascii "ho", []), (ascii "st", ascii "localhost")]] :=
  ⟨by decide, ⟨by decide, by decide, by decide, by decide, by decide, by decide⟩, by decide,
    by decide, by decide, by decide⟩

end CppMcp
