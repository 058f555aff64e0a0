import Mathlib.Data.List.Infix
import CppMcp.Http.Reports

namespace CppMcp

open Lib

variable {π τ μ : Type}

/-- The loop is about to read a message, or is left. -/
def ParserLaws.FreshLoop {hooks : ParserHooks π μ} (laws : ParserLaws hooks)
    (s : ReadLoop π τ μ) : Prop :=
  ∀ p, s.parser = some p → laws.Fresh p

/-- What it takes to notice a header name in several pieces: the parser hands on each
    message that is `Complete`, and then with other headers. -/
structure ParserLaws.Strict {hooks : ParserHooks π μ} (laws : ParserLaws hooks)
    (Complete : HttpMessage → Prop) where
  Clean : π → Prop
  fresh : ∀ {p : π}, Clean p → laws.Fresh p
  clean : ∀ {p q : π} {m : HttpMessage}, Clean p → Complete m → m.Plain →
    hooks.onAll p m.callbacks = some q → Clean (hooks.reset q)
  accepts : ∀ {p : π} {m : HttpMessage}, Clean p → Complete m →
    ∃ q message, hooks.onAll p m.callbacks = some q ∧ hooks.take q = some message
  detects : ∀ {p q : π} {r : Report}, Clean p → Complete r.message → r.message.Plain →
    ¬ r.Whole → hooks.onAll p r.callbacks = some q →
    ∃ other, hooks.take q = some other ∧
      ∀ q', hooks.onAll p r.message.callbacks = some q' → hooks.take q' ≠ some other

def ParserLaws.Strict.CleanLoop {hooks : ParserHooks π μ} {laws : ParserLaws hooks}
    {Complete : HttpMessage → Prop} (strict : laws.Strict Complete) (s : ReadLoop π τ μ) : Prop :=
  ∀ p, s.parser = some p → strict.Clean p

namespace ParserHooks

variable {hooks : ParserHooks π μ} (handle : τ → μ → τ × HandlerEnd)

theorem after_cons (s : ReadLoop π τ μ) (m : HttpMessage) (rest : List HttpMessage) :
    hooks.after handle s (m :: rest) = hooks.after handle (hooks.after handle s [m]) rest := by
  simp [after]

theorem after_append (s : ReadLoop π τ μ) (front back : List HttpMessage) :
    hooks.after handle s (front ++ back) = hooks.after handle (hooks.after handle s front) back := by
  simp [after]

theorem after_one (s : ReadLoop π τ μ) (m : HttpMessage) :
    hooks.after handle s [m] = m.callbacks.foldl (hooks.step handle) s := by
  simp [after]

theorem after_halted {s : ReadLoop π τ μ} (halted : s.parser = none)
    (messages : List HttpMessage) : hooks.after handle s messages = s :=
  hooks.step_halted handle halted _

theorem dispatch_fresh {laws : ParserLaws hooks} {q : π} (fresh : laws.Fresh (hooks.reset q))
    (s : ReadLoop π τ μ) : laws.FreshLoop (hooks.dispatch handle s q) := by
  intro p running
  unfold dispatch at running
  split at running
  · cases running
    exact fresh
  · dsimp only at running
    split at running
    · cases running
    · cases running
      exact fresh

/-- A message whose header names come in one piece is read as if every element did. -/
theorem report_step {laws : ParserLaws hooks} {s : ReadLoop π τ μ} (fresh : laws.FreshLoop s)
    {r : Report} (whole : s.parser.isSome = true → r.Whole) :
    r.callbacks.foldl (hooks.step handle) s = hooks.after handle s [r.message] ∧
      laws.FreshLoop (hooks.after handle s [r.message]) := by
  cases running : s.parser with
  | none => rw [hooks.step_halted handle running, after_halted handle running]; exact ⟨rfl, fresh⟩
  | some p =>
    have whole := whole (by simp [running])
    have same := laws.whole (fresh p running) whole
    have read := hooks.step_message handle r.elements_quiet running
    have readWhole := hooks.step_message handle r.message.elements_quiet running
    rw [show r.elements ++ [.messageComplete] = r.callbacks from rfl] at read
    rw [show r.message.elements ++ [.messageComplete] = r.message.callbacks from rfl, ← same]
      at readWhole
    rw [after_one, readWhole, read]
    refine ⟨rfl, ?_⟩
    cases parsed : hooks.onAll p r.callbacks with
    | none =>
      intro p running
      cases running
    | some q => exact dispatch_fresh handle (laws.fresh (fresh p running) whole parsed) s

theorem whole_run {laws : ParserLaws hooks} {s : ReadLoop π τ μ} (fresh : laws.FreshLoop s)
    {reports : List Report} (whole : hooks.NamesWhole handle s reports) :
    (reports.flatMap Report.callbacks).foldl (hooks.step handle) s =
      hooks.after handle s (reports.map Report.message) := by
  induction reports generalizing s with
  | nil => rfl
  | cons r rest ih =>
    obtain ⟨same, fresh⟩ := report_step handle fresh whole.1
    rw [List.flatMap_cons, List.foldl_append, same, ih fresh whole.2, List.map_cons,
      after_cons handle s r.message (rest.map Report.message)]

/-- The loop within a message is where the messages before it left it, save for the parser. -/
theorem quiet_kept {callbacks : List Callback} (quiet : ∀ c ∈ callbacks, c.endsMessage = false)
    (s : ReadLoop π τ μ) :
    (callbacks.foldl (hooks.step handle) s).dispatched = s.dispatched ∧
      (callbacks.foldl (hooks.step handle) s).reading = s.reading ∧
      (s.parser = none → (callbacks.foldl (hooks.step handle) s).parser = none) := by
  cases running : s.parser with
  | none => rw [hooks.step_halted handle running]; exact ⟨rfl, rfl, fun _ => running⟩
  | some p => rw [hooks.step_quiet handle quiet running]; exact ⟨rfl, rfl, nofun⟩

/-- A beginning of the callbacks of some messages ends within the first message, or goes on
    behind it. -/
theorem prefix_cases {callbacks tail : List Callback} {r : Report}
    (front : callbacks <+: r.callbacks ++ tail) :
    callbacks <+: r.elements ∨ ∃ more, callbacks = r.callbacks ++ more ∧ more <+: tail := by
  obtain ⟨rest, joined⟩ := front
  rcases List.append_eq_append_iff.mp joined with ⟨more, split, -⟩ | ⟨more, split, after⟩
  · have front : callbacks <+: r.elements ++ [.messageComplete] := ⟨more, split.symm⟩
    rcases List.prefix_concat_iff.mp front with whole | front
    · exact .inr ⟨[], by rw [List.append_nil]; exact whole, List.nil_prefix⟩
    · exact .inl front
  · exact .inr ⟨more, split, ⟨rest, after.symm⟩⟩

/-- Wherever the callbacks of some messages are cut, the loop has done what the messages
    that ended before the cut make it do. -/
theorem prefix_run {laws : ParserLaws hooks} {s : ReadLoop π τ μ} (fresh : laws.FreshLoop s)
    {reports : List Report} (whole : hooks.NamesWhole handle s reports)
    {callbacks : List Callback} (front : callbacks <+: reports.flatMap Report.callbacks) :
    let t := callbacks.foldl (hooks.step handle) s
    let ended := hooks.after handle s ((reports.map Report.message).take (completes callbacks))
    t.dispatched = ended.dispatched ∧ t.reading = ended.reading ∧
      (ended.parser = none → t.parser = none) ∧ completes callbacks ≤ reports.length := by
  induction reports generalizing s callbacks with
  | nil =>
    have none : callbacks = [] := by simpa using front
    subst none
    exact ⟨rfl, rfl, id, Nat.le_refl 0⟩
  | cons r rest ih =>
    rcases prefix_cases front with within | ⟨more, rfl, ahead⟩
    · have quiet : ∀ c ∈ callbacks, c.endsMessage = false :=
        fun c member => r.elements_quiet c (within.subset member)
      have none : completes callbacks = 0 := by
        rw [completes, List.countP_eq_zero]
        exact fun c member => by simp [quiet c member]
      obtain ⟨dispatched, reading, parser⟩ := quiet_kept handle quiet s
      rw [none]
      exact ⟨dispatched, reading, parser, Nat.zero_le _⟩
    · obtain ⟨same, fresh⟩ := report_step handle fresh whole.1
      obtain ⟨dispatched, reading, parser, below⟩ := ih fresh whole.2 ahead
      have count : completes (r.callbacks ++ more) = completes more + 1 := by
        have one := completes_callbacks r
        unfold completes at one ⊢
        rw [List.countP_append, one, Nat.add_comm]
      dsimp only
      rw [List.foldl_append, same, count, List.map_cons, List.take_succ_cons,
        after_cons handle s r.message ((rest.map Report.message).take (completes more))]
      exact ⟨dispatched, reading, parser, by simpa using below⟩

/-- Reads that are cut well dispatch what the messages in one piece dispatch. -/
theorem receive_steady {laws : ParserLaws hooks} {s : ReadLoop π τ μ} (fresh : laws.FreshLoop s)
    {reports : List Report} {reads : List (List Callback)}
    (cut : reads.flatten = reports.flatMap Report.callbacks)
    (whole : hooks.NamesWhole handle s reports)
    (well : hooks.CutsWell handle s (reports.map Report.message) reads) :
    (hooks.receive handle s reads).dispatched =
      (hooks.after handle s (reports.map Report.message)).dispatched := by
  obtain ⟨n, fed, ends, -⟩ := feed_take (hooks.step handle) ReadLoop.stopped s reads
  have all := whole_run handle fresh whole
  rw [← cut] at all
  have joined : (reads.take n).flatten ++ (reads.drop n).flatten = reads.flatten := by
    rw [← List.flatten_append, List.take_append_drop]
  have front : (reads.take n).flatten <+: reports.flatMap Report.callbacks := by
    rw [← cut]
    exact ⟨_, joined⟩
  obtain ⟨dispatched, reading, parser, -⟩ := prefix_run handle fresh whole front
  rw [receive, fed]
  have left (halted : ((reads.take n).flatten.foldl (hooks.step handle) s).parser = none) :
      (reads.take n).flatten.foldl (hooks.step handle) s =
        hooks.after handle s (reports.map Report.message) := by
    rw [← all, ← joined, List.foldl_append, hooks.step_halted handle halted]
  rcases ends with rfl | stopped
  · rw [List.take_length, all]
  · simp only [ReadLoop.stopped, Bool.or_eq_true, Option.isNone_iff_eq_none,
      Bool.not_eq_true'] at stopped
    rcases stopped with halted | stopped
    · rw [left halted]
    · rw [reading] at stopped
      by_cases inside : n ≤ reads.length
      · rcases well n inside stopped with halted | last
        · rw [left (parser halted)]
        · rw [dispatched, last, List.take_length]
      · rw [List.take_of_length_le (by omega), all]

theorem dispatch_some {q : π} {message : μ} (taken : hooks.take q = some message)
    (s : ReadLoop π τ μ) :
    (hooks.dispatch handle s q).dispatched = s.dispatched ++ [message] := by
  simp [dispatch, taken]

theorem dispatch_steps (s : ReadLoop π τ μ) (q : π) :
    (hooks.dispatch handle s q).parser = none ∨
      (hooks.dispatch handle s q).parser = some (hooks.reset q) := by
  unfold dispatch
  split
  · exact .inr rfl
  · dsimp only
    split
    · exact .inl rfl
    · exact .inr rfl

theorem step_grows (callbacks : List Callback) (s : ReadLoop π τ μ) :
    s.dispatched <+: (callbacks.foldl (hooks.step handle) s).dispatched := by
  induction callbacks generalizing s with
  | nil => exact List.prefix_rfl
  | cons c rest ih =>
    refine List.IsPrefix.trans ?_ (ih (hooks.step handle s c))
    unfold step
    split
    · exact List.prefix_rfl
    · split
      · exact List.prefix_rfl
      · split
        · unfold dispatch
          split
          · exact List.prefix_rfl
          · exact List.prefix_append _ _
        · exact List.prefix_rfl

theorem not_longer (l : List μ) (a : μ) : ¬ l ++ [a] <+: l := by
  intro longer
  have bound := longer.length_le
  simp only [List.length_append, List.length_singleton] at bound
  omega

section Strict
variable {laws : ParserLaws hooks} {Complete : HttpMessage → Prop} (strict : laws.Strict Complete)

theorem cleanLoop_fresh {s : ReadLoop π τ μ} (clean : strict.CleanLoop s) : laws.FreshLoop s :=
  fun p running => strict.fresh (clean p running)

theorem message_step {s : ReadLoop π τ μ} (clean : strict.CleanLoop s) {p : π}
    (running : s.parser = some p) {m : HttpMessage} (complete : Complete m) :
    ∃ q message, hooks.onAll p m.callbacks = some q ∧ hooks.take q = some message ∧
      hooks.after handle s [m] = hooks.dispatch handle s q := by
  obtain ⟨q, message, parsed, taken⟩ := strict.accepts (clean p running) complete
  have read := hooks.step_message handle m.elements_quiet running
  rw [show m.elements ++ [.messageComplete] = m.callbacks from rfl, parsed] at read
  exact ⟨q, message, parsed, taken, by rw [after_one, read]⟩

theorem message_clean {s : ReadLoop π τ μ} (clean : strict.CleanLoop s) {m : HttpMessage}
    (complete : Complete m) (plain : m.Plain) : strict.CleanLoop (hooks.after handle s [m]) := by
  cases running : s.parser with
  | none => rw [after_halted handle running]; exact clean
  | some p =>
    obtain ⟨q, message, parsed, -, read⟩ := message_step handle strict clean running complete
    intro p' running'
    rw [read] at running'
    rcases dispatch_steps handle s q with none | some
    · rw [none] at running'
      cases running'
    · rw [some] at running'
      cases running'
      exact strict.clean (clean p running) complete plain parsed

theorem halted_names {s : ReadLoop π τ μ} (halted : s.parser = none) (reports : List Report) :
    hooks.NamesWhole handle s reports := by
  induction reports with
  | nil => exact True.intro
  | cons r rest ih =>
    refine ⟨by simp [halted], ?_⟩
    rw [after_halted handle halted]
    exact ih

/-- A beginning of the callbacks dispatches what the whole messages do only if every header
    name came in one piece. -/
theorem names_of_same {s : ReadLoop π τ μ} (clean : strict.CleanLoop s) {reports : List Report}
    (complete : ∀ r ∈ reports, Complete r.message) (plain : ∀ r ∈ reports, r.message.Plain)
    {callbacks : List Callback} (front : callbacks <+: reports.flatMap Report.callbacks)
    (same : (callbacks.foldl (hooks.step handle) s).dispatched =
      (hooks.after handle s (reports.map Report.message)).dispatched) :
    hooks.NamesWhole handle s reports := by
  induction reports generalizing s callbacks with
  | nil => exact True.intro
  | cons r rest ih =>
    cases running : s.parser with
    | none => exact halted_names handle running _
    | some p =>
      have complete' := complete r List.mem_cons_self
      have plain' := plain r List.mem_cons_self
      obtain ⟨q, message, parsed, taken, read⟩ :=
        message_step handle strict clean running complete'
      have reached : s.dispatched ++ [message] <+:
          (callbacks.foldl (hooks.step handle) s).dispatched := by
        rw [same, List.map_cons, after_cons handle s r.message (rest.map Report.message), read,
          ← dispatch_some handle taken]
        exact step_grows handle _ _
      rcases prefix_cases front with within | ⟨more, rfl, ahead⟩
      · have kept : (callbacks.foldl (hooks.step handle) s).dispatched = s.dispatched :=
          (quiet_kept handle (fun c member => r.elements_quiet c (within.subset member)) s).1
        rw [kept] at reached
        exact absurd reached (not_longer _ _)
      · by_cases whole : r.Whole
        · obtain ⟨sameStep, -⟩ := report_step handle (cleanLoop_fresh strict clean)
            (r := r) fun _ => whole
          rw [List.foldl_append, sameStep, List.map_cons,
            after_cons handle s r.message (rest.map Report.message)] at same
          exact ⟨fun _ => whole, ih (message_clean handle strict clean complete' plain')
            (fun r member => complete r (List.mem_cons_of_mem _ member))
            (fun r member => plain r (List.mem_cons_of_mem _ member)) ahead same⟩
        · have split := hooks.step_message handle r.elements_quiet running
          rw [show r.elements ++ [.messageComplete] = r.callbacks from rfl] at split
          rw [List.foldl_append, split] at reached
          cases broken : hooks.onAll p r.callbacks with
          | none =>
            rw [broken, hooks.step_halted handle rfl] at reached
            exact absurd reached (not_longer _ _)
          | some q' =>
            obtain ⟨other, taken', differs⟩ :=
              strict.detects (clean p running) complete' plain' whole broken
            have grown : (hooks.dispatch handle s q').dispatched <+:
                (more.foldl (hooks.step handle) (hooks.dispatch handle s q')).dispatched :=
              step_grows handle more _
            rw [dispatch_some handle taken'] at grown
            rw [broken] at reached
            have equal := (List.prefix_of_prefix_length_le reached grown (by simp)).eq_of_length
              (by simp)
            have equal : message = other := by simpa using equal
            exact absurd taken (equal ▸ differs q parsed)

theorem after_clean {s : ReadLoop π τ μ} (clean : strict.CleanLoop s)
    {messages : List HttpMessage} (complete : ∀ m ∈ messages, Complete m)
    (plain : ∀ m ∈ messages, m.Plain) : strict.CleanLoop (hooks.after handle s messages) := by
  induction messages generalizing s with
  | nil => exact clean
  | cons m rest ih =>
    rw [after_cons handle s m rest]
    exact ih (message_clean handle strict clean (complete m List.mem_cons_self)
        (plain m List.mem_cons_self))
      (fun m member => complete m (List.mem_cons_of_mem _ member))
      (fun m member => plain m (List.mem_cons_of_mem _ member))

/-- The loop has dispatched one message more after one message more, unless it was left. -/
theorem after_next {s : ReadLoop π τ μ} (clean : strict.CleanLoop s)
    {messages : List HttpMessage} (complete : ∀ m ∈ messages, Complete m)
    (plain : ∀ m ∈ messages, m.Plain) {k : Nat} (more : k < messages.length)
    (running : (hooks.after handle s (messages.take k)).parser ≠ none) :
    ∃ message, (hooks.after handle s (messages.take k)).dispatched ++ [message] <+:
      (hooks.after handle s messages).dispatched := by
  obtain ⟨p, running⟩ := Option.ne_none_iff_exists'.mp running
  have clean' := after_clean handle strict clean
    (fun m member => complete m (List.mem_of_mem_take member))
    (fun m member => plain m (List.mem_of_mem_take (i := k) member))
  obtain ⟨q, message, -, taken, read⟩ := message_step handle strict clean' running
    (complete messages[k] (List.getElem_mem more))
  refine ⟨message, ?_⟩
  have joined : messages = messages.take k ++ messages[k] :: messages.drop (k + 1) := by
    rw [← List.drop_eq_getElem_cons more, List.take_append_drop]
  have reached : (hooks.after handle s messages) =
      hooks.after handle (hooks.dispatch handle (hooks.after handle s (messages.take k)) q)
        (messages.drop (k + 1)) := by
    conv => lhs; rw [joined, after_append, after_cons, read]
  rw [reached, ← dispatch_some handle taken]
  exact step_grows handle _ _

/-- Reads that dispatch what the messages in one piece do are cut well. -/
theorem cuts_of_same {s : ReadLoop π τ μ} (clean : strict.CleanLoop s) {reports : List Report}
    (complete : ∀ r ∈ reports, Complete r.message) (plain : ∀ r ∈ reports, r.message.Plain)
    {reads : List (List Callback)} (cut : reads.flatten = reports.flatMap Report.callbacks)
    (whole : hooks.NamesWhole handle s reports)
    (same : (hooks.receive handle s reads).dispatched =
      (hooks.after handle s (reports.map Report.message)).dispatched) :
    hooks.CutsWell handle s (reports.map Report.message) reads := by
  intro k inside stopped
  obtain ⟨n, fed, -, before⟩ := feed_take (hooks.step handle) ReadLoop.stopped s reads
  have split (j : Nat) : (reads.take j).flatten <+: reports.flatMap Report.callbacks := by
    rw [← cut]
    exact List.IsPrefix.flatten (List.take_prefix j reads)
  obtain ⟨dispatched, reading, -, below⟩ :=
    prefix_run handle (cleanLoop_fresh strict clean) whole (split k)
  by_contra going
  simp only [not_or] at going
  have bound : completes (reads.take k).flatten < (reports.map Report.message).length := by
    rw [List.length_map] at going ⊢
    omega
  obtain ⟨message, reached⟩ := after_next handle strict clean
    (by simpa using complete) (by simpa using plain) bound going.1
  have early : n ≤ k := by
    by_contra later
    have running := before k (by omega)
    rw [ReadLoop.stopped, reading, stopped] at running
    simp at running
  have grown : (hooks.receive handle s reads).dispatched <+:
      ((reads.take k).flatten.foldl (hooks.step handle) s).dispatched := by
    obtain ⟨rest, joined⟩ := List.IsPrefix.flatten (List.take_prefix_take_left (l := reads) early)
    rw [receive, fed, ← joined, List.foldl_append]
    exact step_grows handle _ _
  rw [same, dispatched] at grown
  exact not_longer _ _ (reached.trans grown)

/-- Reads dispatch what the messages in one piece do if and only if each name that the loop
    gets to comes in one piece and no read ends where the loop stops short. -/
theorem receive_iff {s : ReadLoop π τ μ} (clean : strict.CleanLoop s) {reports : List Report}
    (complete : ∀ r ∈ reports, Complete r.message) (plain : ∀ r ∈ reports, r.message.Plain)
    {reads : List (List Callback)} (cut : reads.flatten = reports.flatMap Report.callbacks) :
    (hooks.receive handle s reads).dispatched =
      (hooks.after handle s (reports.map Report.message)).dispatched ↔
    hooks.NamesWhole handle s reports ∧
      hooks.CutsWell handle s (reports.map Report.message) reads := by
  constructor
  · intro same
    obtain ⟨n, fed, -, -⟩ := feed_take (hooks.step handle) ReadLoop.stopped s reads
    have front : (reads.take n).flatten <+: reports.flatMap Report.callbacks := by
      rw [← cut]
      exact List.IsPrefix.flatten (List.take_prefix n reads)
    have whole := names_of_same handle strict clean complete plain front (by
      rw [← fed]
      exact same)
    exact ⟨whole, cuts_of_same handle strict clean complete plain cut whole same⟩
  · rintro ⟨whole, well⟩
    exact receive_steady handle (cleanLoop_fresh strict clean) cut whole well

end Strict

theorem names_of_whole {reports : List Report} (whole : ∀ r ∈ reports, r.Whole)
    (s : ReadLoop π τ μ) : hooks.NamesWhole handle s reports := by
  induction reports generalizing s with
  | nil => exact True.intro
  | cons r rest ih =>
    exact ⟨fun _ => whole r List.mem_cons_self,
      ih (fun r member => whole r (List.mem_cons_of_mem _ member)) _⟩

theorem receive_once {laws : ParserLaws hooks} {s : ReadLoop π τ μ} (fresh : laws.FreshLoop s)
    (running : s.stopped = false) {reports : List Report} (whole : ∀ r ∈ reports, r.Whole) :
    hooks.receive handle s [reports.flatMap Report.callbacks] =
      hooks.after handle s (reports.map Report.message) := by
  rw [← whole_run handle fresh (names_of_whole handle whole s)]
  simp [receive, feed, running]

/-- Reads that report messages well dispatch what one read does that reports their names in
    one piece. For plain messages that are complete no others do. -/
theorem receive_same {laws : ParserLaws hooks} {Complete : HttpMessage → Prop}
    (strict : laws.Strict Complete) {s : ReadLoop π τ μ} (clean : strict.CleanLoop s)
    (running : s.stopped = false) {reports once : List Report} {reads : List (List Callback)}
    (cut : reads.flatten = reports.flatMap Report.callbacks)
    (messages : once.map Report.message = reports.map Report.message)
    (whole : ∀ r ∈ once, r.Whole) :
    (hooks.ReadsWell handle s reports reads → (hooks.receive handle s reads).dispatched =
      (hooks.receive handle s [once.flatMap Report.callbacks]).dispatched) ∧
    ((∀ r ∈ reports, Complete r.message ∧ r.message.Plain) →
      (hooks.receive handle s reads).dispatched =
        (hooks.receive handle s [once.flatMap Report.callbacks]).dispatched →
      hooks.ReadsWell handle s reports reads) := by
  have fresh := cleanLoop_fresh strict clean
  rw [receive_once handle fresh running whole, messages]
  refine ⟨fun well => receive_steady handle fresh cut well.1 well.2, fun plain same => ?_⟩
  exact (receive_iff handle strict clean (fun r member => (plain r member).1)
    (fun r member => (plain r member).2) cut).mp same

end ParserHooks

end CppMcp
