import CppMcp.Http.Parser

namespace CppMcp

open Lib

/-- A header as llhttp reports it: its name and its value in consecutive spans. -/
structure FieldReport where
  name : List Bytes
  value : List Bytes
deriving DecidableEq

namespace FieldReport

/-- A header whose name and value arrive in one span each. -/
def single (h : Bytes × Bytes) : FieldReport := ⟨[h.1], [h.2]⟩

def header (f : FieldReport) : Bytes × Bytes := (f.name.flatten, f.value.flatten)

def callbacks (f : FieldReport) : List Callback :=
  f.name.map .headerField ++ f.value.map .headerValue

/-- Nothing of the name comes before its last span. -/
def Whole (f : FieldReport) : Prop := f.name.dropLast.flatten = []

instance (f : FieldReport) : Decidable f.Whole := inferInstanceAs (Decidable (_ = _))

theorem callbacks_quiet (fields : List FieldReport) :
    ∀ c ∈ fields.flatMap callbacks, c.endsMessage = false := by
  simp only [List.mem_flatMap, callbacks, List.mem_append, List.mem_map]
  rintro c ⟨f, -, ⟨span, -, rfl⟩ | ⟨span, -, rfl⟩⟩ <;> rfl

end FieldReport

/-- A complete message. A request has no status, a response no method and URL. -/
structure HttpMessage where
  method : Bytes
  url : Bytes
  headers : List (Bytes × Bytes)
  status : Nat
  body : Bytes
  trailers : List (Bytes × Bytes)
deriving DecidableEq

namespace HttpMessage

def elements (m : HttpMessage) : List Callback :=
  [Callback.method m.method] ++ [Callback.url m.url] ++
    (m.headers.map FieldReport.single).flatMap FieldReport.callbacks ++
    [Callback.headersComplete m.status] ++ [Callback.body m.body] ++
    (m.trailers.map FieldReport.single).flatMap FieldReport.callbacks

/-- The callbacks of a message each of whose elements arrives in one span. -/
def callbacks (m : HttpMessage) : List Callback := m.elements ++ [.messageComplete]

theorem elements_quiet (m : HttpMessage) : ∀ c ∈ m.elements, c.endsMessage = false := by
  intro c member
  simp only [elements, List.mem_append, List.mem_singleton] at member
  rcases member with ((((rfl | rfl) | member) | rfl) | rfl) | member
  · rfl
  · rfl
  · exact FieldReport.callbacks_quiet _ c member
  · rfl
  · rfl
  · exact FieldReport.callbacks_quiet _ c member

theorem callbacks_split (m : HttpMessage) :
    m.callbacks = ([Callback.method m.method] ++ [Callback.url m.url]) ++
      ((m.headers.map FieldReport.single).flatMap FieldReport.callbacks ++
        (([Callback.headersComplete m.status] ++ [Callback.body m.body]) ++
          ((m.trailers.map FieldReport.single).flatMap FieldReport.callbacks ++
            [Callback.messageComplete]))) := by
  simp [callbacks, elements]

end HttpMessage

/-- A complete message as llhttp reports it. A header name has at least one byte. -/
structure Report where
  method : List Bytes := []
  url : List Bytes := []
  headers : List FieldReport := []
  status : Nat := 0
  body : List Bytes := []
  trailers : List FieldReport := []
  named : ∀ f ∈ headers ++ trailers, f.name.flatten ≠ [] := by decide

namespace Report

def message (r : Report) : HttpMessage where
  method := r.method.flatten
  url := r.url.flatten
  headers := r.headers.map FieldReport.header
  status := r.status
  body := r.body.flatten
  trailers := r.trailers.map FieldReport.header

/-- The callbacks before the last. -/
def elements (r : Report) : List Callback :=
  r.method.map Callback.method ++ r.url.map Callback.url ++
    r.headers.flatMap FieldReport.callbacks ++ [Callback.headersComplete r.status] ++
    r.body.map Callback.body ++ r.trailers.flatMap FieldReport.callbacks

def callbacks (r : Report) : List Callback := r.elements ++ [.messageComplete]

/-- Every header name arrives in one piece. -/
def Whole (r : Report) : Prop := ∀ f ∈ r.headers ++ r.trailers, f.Whole

instance (r : Report) : Decidable r.Whole := inferInstanceAs (Decidable (∀ f ∈ _, _))

theorem elements_quiet (r : Report) : ∀ c ∈ r.elements, c.endsMessage = false := by
  intro c member
  simp only [elements, List.mem_append, List.mem_map, List.mem_singleton] at member
  rcases member with ((((⟨_, -, rfl⟩ | ⟨_, -, rfl⟩) | member) | rfl) | ⟨_, -, rfl⟩) | member
  · rfl
  · rfl
  · exact FieldReport.callbacks_quiet _ c member
  · rfl
  · rfl
  · exact FieldReport.callbacks_quiet _ c member

/-- The report of a message each of whose elements arrives in one span. -/
def of (m : HttpMessage) (named : ∀ h ∈ m.headers ++ m.trailers, h.1 ≠ []) : Report where
  method := [m.method]
  url := [m.url]
  headers := m.headers.map .single
  status := m.status
  body := [m.body]
  trailers := m.trailers.map .single
  named := by
    intro f member
    rw [← List.map_append] at member
    obtain ⟨h, member', rfl⟩ := List.mem_map.mp member
    simpa [FieldReport.single] using named h member'

theorem of_callbacks (m : HttpMessage) (named : ∀ h ∈ m.headers ++ m.trailers, h.1 ≠ []) :
    (of m named).callbacks = m.callbacks := by
  simp [of, callbacks, elements, HttpMessage.callbacks, HttpMessage.elements]

theorem of_whole (m : HttpMessage) (named : ∀ h ∈ m.headers ++ m.trailers, h.1 ≠ []) :
    (of m named).Whole := by
  intro f member
  rw [of, ← List.map_append] at member
  obtain ⟨h, -, rfl⟩ := List.mem_map.mp member
  rfl

theorem message_named (r : Report) :
    ∀ h ∈ r.message.headers ++ r.message.trailers, h.1 ≠ [] := by
  intro h member
  rw [message, ← List.map_append] at member
  obtain ⟨f, member', rfl⟩ := List.mem_map.mp member
  exact r.named f member'

end Report

/-- How many messages end among some callbacks. -/
def completes (callbacks : List Callback) : Nat := callbacks.countP Callback.endsMessage

theorem completes_elements (r : Report) : completes r.elements = 0 := by
  rw [completes, List.countP_eq_zero]
  intro c member
  simp [r.elements_quiet c member]

@[simp] theorem completes_callbacks (r : Report) : completes r.callbacks = 1 := by
  have quiet := completes_elements r
  unfold completes at quiet
  simp [completes, Report.callbacks, List.countP_append, quiet, Callback.endsMessage]

/-- What the converse of segmentation independence asks of a message: the names of its headers
    differ in more than case, no value is empty, and no header comes after the body. -/
structure HttpMessage.Plain (m : HttpMessage) : Prop where
  distinct : (m.headers.map fun h => lowerBytes h.1).Nodup
  valued : ∀ h ∈ m.headers, h.2 ≠ []
  trailers : m.trailers = []

variable {π τ μ : Type}

namespace ParserHooks

variable (hooks : ParserHooks π μ)

/-- The parser after some callbacks, if none of them failed. -/
def onAll (p : π) (callbacks : List Callback) : Option π := callbacks.foldlM hooks.on p

theorem onAll_append (p : π) (front back : List Callback) :
    hooks.onAll p (front ++ back) = (hooks.onAll p front).bind fun q => hooks.onAll q back :=
  List.foldlM_append

end ParserHooks

/-- What segmentation independence needs of a parser, in the states it begins a message in. -/
structure ParserLaws (hooks : ParserHooks π μ) where
  Fresh : π → Prop
  whole : ∀ {p : π} {r : Report}, Fresh p → r.Whole →
    hooks.onAll p r.callbacks = hooks.onAll p r.message.callbacks
  fresh : ∀ {p p' : π} {r : Report}, Fresh p → r.Whole → hooks.onAll p r.callbacks = some p' →
    Fresh (hooks.reset p')

namespace ParserHooks

variable (hooks : ParserHooks π μ) (handle : τ → μ → τ × HandlerEnd)

/-- The loop after some messages each of whose elements arrives in one span. -/
def after (s : ReadLoop π τ μ) (messages : List HttpMessage) : ReadLoop π τ μ :=
  (messages.flatMap HttpMessage.callbacks).foldl (hooks.step handle) s

/-- Every message that the loop gets to has its header names in one piece. -/
def NamesWhole (s : ReadLoop π τ μ) : List Report → Prop
  | [] => True
  | r :: rest => (s.parser.isSome = true → r.Whole) ∧
    NamesWhole (hooks.after handle s [r.message]) rest

/-- No read ends behind a message that stops the reading while another is still to come. -/
def CutsWell (s : ReadLoop π τ μ) (messages : List HttpMessage) (reads : List (List Callback)) :
    Prop :=
  ∀ k ≤ reads.length,
    (hooks.after handle s (messages.take (completes (reads.take k).flatten))).reading = false →
    (hooks.after handle s (messages.take (completes (reads.take k).flatten))).parser = none ∨
      completes (reads.take k).flatten = messages.length

/-- What independence of the segmentation takes. -/
def ReadsWell (s : ReadLoop π τ μ) (reports : List Report) (reads : List (List Callback)) : Prop :=
  hooks.NamesWhole handle s reports ∧ hooks.CutsWell handle s (reports.map Report.message) reads

instance (s : ReadLoop π τ μ) (messages : List HttpMessage) (reads : List (List Callback)) :
    Decidable (hooks.CutsWell handle s messages reads) :=
  inferInstanceAs (Decidable (∀ k ≤ reads.length, _ → _))

theorem step_halted {s : ReadLoop π τ μ} (halted : s.parser = none) (callbacks : List Callback) :
    callbacks.foldl (hooks.step handle) s = s := by
  induction callbacks with
  | nil => rfl
  | cons c rest ih =>
    have stays : hooks.step handle s c = s := by simp [step, halted]
    rw [List.foldl_cons, stays, ih]

/-- Callbacks that end no message only move the parser. -/
theorem step_quiet {callbacks : List Callback} (quiet : ∀ c ∈ callbacks, c.endsMessage = false)
    {s : ReadLoop π τ μ} {p : π} (running : s.parser = some p) :
    callbacks.foldl (hooks.step handle) s = { s with parser := hooks.onAll p callbacks } := by
  induction callbacks generalizing s p with
  | nil =>
    cases s
    cases running
    rfl
  | cons c rest ih =>
    have goesOn := quiet c List.mem_cons_self
    rw [List.foldl_cons]
    cases moved : hooks.on p c with
    | none =>
      have failed : hooks.step handle s c = { s with parser := none } := by
        simp [step, running, moved]
      rw [failed, hooks.step_halted handle rfl]
      simp [onAll, moved]
    | some q =>
      have stepped : hooks.step handle s c = { s with parser := some q } := by
        simp [step, running, moved, goesOn]
      rw [stepped, ih (fun c member => quiet c (List.mem_cons_of_mem _ member)) rfl]
      simp [onAll, moved]

theorem step_message {elements : List Callback} (quiet : ∀ c ∈ elements, c.endsMessage = false)
    {s : ReadLoop π τ μ} {p : π} (running : s.parser = some p) :
    (elements ++ [Callback.messageComplete]).foldl (hooks.step handle) s =
      match hooks.onAll p (elements ++ [Callback.messageComplete]) with
      | none => { s with parser := none }
      | some q => hooks.dispatch handle s q := by
  rw [List.foldl_append, hooks.step_quiet handle quiet running, hooks.onAll_append]
  cases moved : hooks.onAll p elements with
  | none => rfl
  | some q =>
    cases ended : hooks.on q .messageComplete with
    | none => simp [step, onAll, ended]
    | some q' => simp [step, onAll, ended, Callback.endsMessage, dispatch]

end ParserHooks

end CppMcp
